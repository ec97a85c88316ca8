import ImagePush.Artifact.Json
import ImagePush.CommandLine.Parse
import ImagePush.Config.Json
import ImagePush.Engine.Process
import ImagePush.Push.Workflow

/-!
# The program

A run of the program: the configuration is loaded, the input artifact is read, the image is pushed, and
the resulting record is written. The program runs in any monad that gives it files, processes, a console
and a clock. Standard output carries what the console shows and, if no output file is named, the record;
errors go to standard error.
-/

namespace ImagePush

/-- What a program runs on. -/
structure Host (m : Type → Type) where
  environment : Environment
  readFile : String → m (Except IoError (List UInt8))
  writeFile : String → List UInt8 → m (Except IoError Unit)
  /-- Prints to standard output. -/
  print : String → m Unit
  /-- Prints to standard error. -/
  printError : String → m Unit
  /-- Runs a process to its end. -/
  start : Engine.Invocation → m (Except IoError Engine.Ending)
  /-- Asks the cloud for the credentials of a server. -/
  exchange : CloudAccess → String → m (Except Registry.Fault Registry.Credentials)
  makeScratch : m (Except IoError Directory)
  dropScratch : Directory → m (Except IoError Unit)
  /-- The whole seconds since the program was started. -/
  elapsed : m Nat

namespace Program

open CommandLine (Args)

variable {m : Type → Type} [Monad m]

/-- The environment variable that names a directory for the configuration of the engine, which is managed
by others. -/
def configDirVariable : String := "DOCKER_CONFIG"

/-- The console that the arguments ask for. -/
def consoleOf (args : Args) : Console :=
  if args.quiet then .silent else .ofVerbose args.verbose

/-- Shows a notice of a push. -/
def notify (h : Host m) (console : Console) : Notice → m Unit
  | .message text => h.print (console.info text)
  | .headline text => h.print (console.step text)
  | .problem text => h.printError (Console.problem text)

/-- The workplace of a push by a program. Nobody gives up a push, so that no session is left open. -/
def workplace (h : Host m) (notify : Notice → m Unit) (c : Config) : Push.Workplace m where
  notify := notify
  exchange server := do
    match ← h.exchange c.cloud server with
    | .ok credentials => return .ok credentials
    | .error f => return .error (.failed (.registry f))
  ask dir r := do
    match ← ({ executable := c.executable, dir := dir } : Engine).answer h.start r with
    | .ok result => return .ok result
    | .error e => return .error (.failed e)
  closeLater _ _ := return ()
  makeScratch := h.makeScratch
  dropScratch := h.dropScratch

/-- The settings in the file that the arguments name, if any. -/
def readConfig (h : Host m) : Option String → m (Except PushError Config)
  | none => return .ok {}
  | some path => do
    match ← h.readFile path with
    | .error e => return .error (.io e)
    | .ok content => return Config.ofBytes content

/-- The settings from the file, the command line and the environment. -/
def loadConfig (h : Host m) (args : Args) : m (Except PushError Config) := do
  match ← readConfig h args.config with
  | .error e => return .error e
  | .ok c => return .ok ((args.applyTo c).fillFrom h.environment)

/-- Whether a login is wanted that the user may have to help with. -/
def mayPrompt (c : Config) : Bool :=
  c.login && !c.cloudLogin && c.password.isEmpty

/-- Reads an artifact. -/
def readArtifact (h : Host m) (path : String) : m (Except PushError Artifact) := do
  match ← h.readFile path with
  | .error e => return .error (.io e)
  | .ok content => return Artifact.ofBytes content

/-- Pushes an artifact. -/
def push (h : Host m) (console : Console) (c : Config) (a : Artifact) : m (Except PushError Pushed) := do
  match c.prepare with
  | .error f => return .error (.configuration f)
  | .ok c =>
    let ownScratch := !h.environment.isSet configDirVariable
    match ← Push.run (workplace h (notify h console) c) ownScratch c a with
    | .ok p => return .ok p
    | .error (.failed e) => return .error e
    | .error .abandoned => return .error (.io (.other "abandoned"))

/-- Writes the record of a pushed image to the file named, or to standard output. -/
def writeRecord (h : Host m) (console : Console) (record : Artifact) :
    Option String → m (Except PushError Unit)
  | some path => do
    match ← h.writeFile path record.toBytes with
    | .error e => return .error (.io e)
    | .ok _ =>
      h.print (console.detail s!"Artifact written to {path}")
      return .ok ()
  | none => do
    h.print (String.ofList record.pretty ++ "\n")
    return .ok ()

/-- The tags of a record in one line. -/
def tagsText (record : Artifact) : String :=
  match (ImageState.ofArtifact record).tags with
  | [] => "(none)"
  | tags => Text.joined ", " tags

/-- Reports a successful push. -/
def report (h : Host m) (console : Console) (record : Artifact) : m Unit := do
  let seconds ← h.elapsed
  h.print (console.summary "Pushed"
    [("Image", record.id), ("Tags", tagsText record), ("Elapsed", durationText seconds)])
  h.print (console.success "Push completed")

/-- Runs the program with its arguments. -/
def run (h : Host m) (args : Args) : m (Except PushError Unit) := do
  let console := consoleOf args
  h.print (console.heading "Docker Push")
  match ← loadConfig h args with
  | .error e => return .error e
  | .ok c =>
    h.print (console.detail s!"Configuration: {c.diagnostic}")
    if mayPrompt c then
      h.print (console.warning "Login requested without a password; docker may prompt for one")
    match ← readArtifact h args.artifact with
    | .error e => return .error e
    | .ok a =>
      h.print (console.info s!"Input: {a.description}")
      match ← push h console c a with
      | .error e => return .error e
      | .ok p =>
        let record := p.image.record
        match ← writeRecord h console record args.output with
        | .error e => return .error e
        | .ok _ =>
          report h console record
          return .ok ()

/-- Runs the program with its arguments and gives the exit code. -/
def runToEnd (h : Host m) (args : Args) : m Nat := do
  match ← run h args with
  | .ok _ => return 0
  | .error e =>
    h.printError (Console.problem e.message)
    return 1

/-- Runs the program with the words of its command line, the first of which is its own name, and gives
the exit code. -/
def start (h : Host m) (words : List CommandLine.Word) : m Nat := do
  match CommandLine.parse words.tail with
  | .ok args => runToEnd h args
  | .error r =>
    let text := r.text (CommandLine.programOf words.head?)
    if r.isAnswer then h.print text else h.printError text
    return r.exitCode

end Program

end ImagePush
