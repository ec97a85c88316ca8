import ImagePush.Program
import ImagePush.Registry.Exchange

/-!
# The program on this machine

Files, environment, console and clock are those of the machine. Two things are out of reach: the processes
of the engine, which cannot be started, and the cloud, which answers no request. A run that needs one of
them ends with an error.
-/

open ImagePush

namespace ImagePush.Machine

/-- The error with a code of the machine, some calls of which give the number negated. -/
def systemErrorOf (code : UInt32) : IoError :=
  let n := code.toNat
  .system ⟨if n < 0x80000000 then n else 0x100000000 - n⟩

/-- An error with the path it is about. -/
def atPath (path : String) : IoError → IoError
  | .system e => .systemAt e path
  | e => e

/-- The error of the machine as an error of this library. -/
def ioErrorOf (e : IO.Error) : IoError :=
  match e with
  | .noFileOrDirectory _ code _ => systemErrorOf code
  | .alreadyExists _ code _ => systemErrorOf code
  | .permissionDenied _ code _ => systemErrorOf code
  | .inappropriateType _ code _ => systemErrorOf code
  | .resourceExhausted _ code _ => systemErrorOf code
  | .resourceVanished code _ => systemErrorOf code
  | e => .other (toString e)

/-- An action with its error as a value. -/
def attempt {α : Type} (action : IO α) : IO (Except IoError α) := do
  try
    return .ok (← action)
  catch e =>
    return .error (ioErrorOf e)

/-- The variables of the environment that the program looks at. -/
def examined : List String :=
  [Config.usernameVariable, Config.passwordVariable, Program.configDirVariable]

/-- The environment. -/
def environment : IO Environment := do
  let held ← examined.filterMapM fun name => do
    return (← IO.getEnv name).map fun value => (name, Text.Utf8.ofString value)
  return ⟨held⟩

/-- The characters of the random part of a name. -/
def nameChars : List Char :=
  "abcdefghijklmnopqrstuvwxyzABCDEFGHIJKLMNOPQRSTUVWXYZ0123456789".toList

/-- The random part of a name. -/
def randomName : Nat → IO (List Char)
  | 0 => return []
  | n + 1 => do
    let i ← IO.rand 0 (nameChars.length - 1)
    let rest ← randomName n
    return nameChars.getD i 'a' :: rest

/-- Creates a directory of its own. -/
def makeScratch : IO (Except IoError Directory) := do
  let tmp := (← IO.getEnv "TMPDIR").getD "/tmp"
  let name := s!"{tmp}/{CommandLine.programName}{String.ofList (← randomName 6)}"
  let made ← attempt (IO.FS.createDir name)
  return (made.map fun _ => .named name).mapError (atPath name)

/-- Removes a directory and what is in it. -/
def dropScratch (dir : Directory) : IO (Except IoError Unit) := do
  return (← attempt (IO.FS.removeDirAll dir.shown)).mapError (atPath dir.shown)

/-- The host of the program on this machine, which was started at the given time. -/
def host (environment : Environment) (started : Nat) : Host IO where
  environment := environment
  readFile path := attempt do return (← IO.FS.readBinFile path).toList
  writeFile path content := attempt (IO.FS.writeBinFile path (ByteArray.mk content.toArray))
  print text := IO.print text
  printError text := IO.eprint text
  start _ := return .error (.other "processes cannot be started here")
  exchange access server := return Registry.exchange access {} (fun _ => ⟨503, ""⟩) server
  makeScratch := makeScratch
  dropScratch := dropScratch
  elapsed := do return ((← IO.monoMsNow) - started) / 1000

end ImagePush.Machine

/-- Runs the program with the words of its command line. -/
def main (words : List String) : IO UInt32 := do
  let started ← IO.monoMsNow
  let environment ← Machine.environment
  let all := (CommandLine.programName :: words).map Text.Utf8.ofString
  let code ← Program.start (Machine.host environment started) all
  return UInt32.ofNat code
