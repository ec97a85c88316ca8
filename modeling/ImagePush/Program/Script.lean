import ImagePush.Program.Setup

/-!
# Scripted programs

A host that answers as a script says and keeps what was done. The answers may depend on everything that was
done before, so that scripts stand for any surroundings at all: files, processes, the cloud, the time.
-/

namespace ImagePush.Program

/-- What is done on a host. -/
inductive Act where
  | read (path : String)
  | write (path : String) (content : List UInt8)
  | print (text : String)
  | printError (text : String)
  /-- The caller is told something. -/
  | notice (n : Notice)
  /-- A process is run. -/
  | start (i : Engine.Invocation)
  /-- The driver in the place of the engine is asked. -/
  | request (r : Request)
  /-- The credentials of a server are asked for. -/
  | exchange (server : String)
  | makeScratch
  | dropScratch (dir : Directory)
  /-- The clock is read. -/
  | clock
  deriving DecidableEq, Repr

/-- The answers of the surroundings, by what was done before. -/
structure Script where
  environment : Environment := {}
  readFile : List Act → String → Except IoError (List UInt8)
  writeFile : List Act → String → List UInt8 → Except IoError Unit
  start : List Act → Engine.Invocation → Except IoError Engine.Ending
  cloud : List Act → CloudAccess → String → Except Registry.Fault Registry.Credentials
  makeScratch : List Act → Except IoError Directory
  dropScratch : List Act → Directory → Except IoError Unit
  elapsed : List Act → Nat
  /-- The directory that a caller shares with the engine. -/
  sharedDir : Option Directory := none
  /-- The answers of the driver that a caller brings. -/
  driver : Option (List Act → (r : Request) → Except PushError r.Result) := none
  /-- The credentials of the source that a caller brings. -/
  exchange : Option (List Act → String → Except PushError Registry.Credentials) := none

namespace Script

/-- Adds an act and gives what was done before. -/
def note (act : Act) : StateM (List Act) (List Act) :=
  modifyGet fun h => (h, h ++ [act])

/-- The host that answers by a script and keeps what was done. -/
def host (s : Script) : Host (StateM (List Act)) where
  environment := s.environment
  readFile path := do return s.readFile (← note (.read path)) path
  writeFile path content := do return s.writeFile (← note (.write path content)) path content
  print text := do
    let _ ← note (.print text)
  printError text := do
    let _ ← note (.printError text)
  start i := do return s.start (← note (.start i)) i
  exchange access server := do return s.cloud (← note (.exchange server)) access server
  makeScratch := do return s.makeScratch (← note .makeScratch)
  dropScratch dir := do return s.dropScratch (← note (.dropScratch dir)) dir
  elapsed := do return s.elapsed (← note .clock)

/-- Tells somebody something, in the way that is given. -/
def tell (shown : Notice → Act) (n : Notice) : StateM (List Act) Unit := do
  let _ ← note (shown n)

/-- The push that a caller sets up. -/
def setup (s : Script) (c : Config) : Setup (StateM (List Act)) where
  config := c
  sharedDir := s.sharedDir
  driver := s.driver.map fun answer r => do return answer (← note (.request r)) r
  exchange := s.exchange.map fun given server => do return given (← note (.exchange server)) server

/-- Whether the engine gets a scratch directory of its own. -/
def ownScratch (s : Script) : Bool :=
  s.driver.isNone && s.sharedDir.isNone

/-- Pushes an artifact, with what was done before. -/
def pushTelling (s : Script) (shown : Notice → Act) (c : Config) (a : Artifact) (h : List Act) :
    Except PushError Pushed × List Act :=
  ((s.setup c).push s.host (tell shown) a).run h

/-- Pushes an artifact for a caller, with what was done before. -/
def push (s : Script) (c : Config) (a : Artifact) (h : List Act) : Except PushError Pushed × List Act :=
  s.pushTelling .notice c a h

/-- Runs a program with the words of its command line, with what was done before. -/
def runProgram (s : Script) (words : List CommandLine.Word) (h : List Act) : Nat × List Act :=
  (Program.start s.host words).run h

end Script

end ImagePush.Program
