import ImagePush.Engine.Command
import ImagePush.Text.Lines

/-!
# Processes of the engine

How a command becomes a process, and what is made of the end of the process. Output of most commands is
decoded as well as it goes; that of a push is read line by line and has to be text.
-/

namespace ImagePush.Engine

/-- A process to be started. -/
structure Invocation where
  executable : String
  args : List String
  input : Option String := none
  deriving DecidableEq, Repr

/-- How a process ends. -/
structure Ending where
  stdout : List UInt8 := []
  stderr : List UInt8 := []
  /-- The exit code; a process that is killed has none. -/
  code : Option Nat := some 0
  deriving DecidableEq, Repr

/-- The exit code of a process; one that is killed counts as -1. -/
def Ending.exitCode (e : Ending) : Int :=
  match e.code with
  | some n => n
  | none => -1

/-- The output of a process as text. -/
structure Output where
  stdout : String
  stderr : String
  exitCode : Int
  deriving DecidableEq, Repr

/-- Whether a process succeeded. -/
def Output.success (o : Output) : Bool :=
  o.exitCode == 0

end ImagePush.Engine

namespace ImagePush

/-- The engine, as it is run. -/
structure Engine where
  executable : String
  /-- The directory in which it keeps its configuration, unless that is its usual one. -/
  dir : Option Directory := none
  deriving DecidableEq, Repr

namespace Engine

/-- What is shown of the directory in which it keeps its configuration, if that is not its usual one. -/
def configDir (e : Engine) : Option String :=
  e.dir.map Directory.shown

/-- All arguments of a command, the global options first. -/
def allArgs (e : Engine) (c : Command) : List String :=
  match e.configDir with
  | some dir => "--config" :: dir :: c.args
  | none => c.args

/-- The process of a command. -/
def invocation (e : Engine) (c : Command) : Invocation :=
  ⟨e.executable, e.allArgs c, c.input⟩

/-- A command in messages. -/
def describe (e : Engine) (c : Command) : String :=
  e.executable ++ " " ++ Text.joined " " (e.allArgs c)

/-! ### The end of a process -/

/-- Output decoded as well as it goes. -/
def plain (ending : Ending) : Output where
  stdout := String.ofList (Text.Utf8.decodeLossy ending.stdout)
  stderr := String.ofList (Text.Utf8.decodeLossy ending.stderr)
  exitCode := ending.exitCode

/-- Output read line by line. -/
def lined (ending : Ending) : Except IoError Output :=
  match Text.Lines.textOf ending.stdout, Text.Lines.textOf ending.stderr with
  | .error f, _ => .error (.malformed f)
  | _, .error f => .error (.malformed f)
  | .ok out, .ok err => .ok ⟨String.ofList out, String.ofList err, ending.exitCode⟩

/-- Output of a command that has to succeed. -/
def succeeded (e : Engine) (c : Command) (o : Output) : Except PushError Output :=
  if o.success then .ok o else .error (.command (e.describe c) o.exitCode o.stderr)

/-- The output of a command, whether it succeeds or not. -/
def executed (ended : Except IoError Ending) : Except PushError Output :=
  (ended.map plain).mapError .io

/-- The output of a command that has to succeed. -/
def checked (e : Engine) (c : Command) (ended : Except IoError Ending) : Except PushError Output :=
  match executed ended with
  | .error f => .error f
  | .ok o => e.succeeded c o

/-- The output, read line by line, of a command that has to succeed. -/
def streamed (e : Engine) (c : Command) (ended : Except IoError Ending) : Except PushError Output :=
  match ended with
  | .error f => .error (.io f)
  | .ok ending =>
    match lined ending with
    | .error f => .error (.io f)
    | .ok o => e.succeeded c o

/-- What a request gives, by the end of the process of its command. -/
def result (e : Engine) : (r : Request) → Except IoError Ending → Except PushError r.Result
  | .login server username password, ended =>
    (e.checked (.ofRequest (.login server username password)) ended).map fun _ => ()
  | .logout server, ended => (e.checked (.ofRequest (.logout server)) ended).map fun _ => ()
  | .push name platform, ended => (e.streamed (.ofRequest (.push name platform)) ended).map fun _ => ()
  | .digest id, ended => (e.checked (.ofRequest (.digest id)) ended).map fun o => Text.trim o.stdout
  | .remove id, ended => (e.checked (.ofRequest (.remove id)) ended).map fun _ => ()

/-- Answers a request by running its command, where `start` runs a process to its end. -/
def answer {m : Type → Type} [Monad m] (e : Engine)
    (start : Invocation → m (Except IoError Ending)) (r : Request) : m (Except PushError r.Result) := do
  let ended ← start (e.invocation (.ofRequest r))
  return e.result r ended

end Engine

end ImagePush
