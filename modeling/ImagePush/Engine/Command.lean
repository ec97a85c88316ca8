import ImagePush.Push.Request

/-!
# Commands of the engine

The command line of the engine for each request. A password never stands among the arguments: it goes
through the standard input.
-/

namespace ImagePush.Engine

/-- A command: the arguments behind the global options, and what is written to the standard input. -/
structure Command where
  args : List String := []
  input : Option String := none
  deriving DecidableEq, Repr

namespace Command

/-- The command with a name only. -/
def named (name : String) : Command := ⟨[name], none⟩

/-- The command with one more argument. -/
def arg (c : Command) (a : String) : Command :=
  { c with args := c.args ++ [a] }

/-- The command with one more argument, if a condition holds. -/
def argIf (c : Command) (condition : Bool) (a : String) : Command :=
  if condition then c.arg a else c

/-- The command with a standard input. -/
def withInput (c : Command) (input : String) : Command :=
  { c with input := some input }

/-- The command with a named argument, unless it is empty. -/
def option (c : Command) (name a : String) : Command :=
  if a.isEmpty then c else (c.arg name).arg a

/-- The option that takes a password from the standard input. -/
def passwordOption : String := "--password-stdin"

/-- The command with a password, unless it is empty. -/
def password (c : Command) (secret : String) : Command :=
  if secret.isEmpty then c else (c.arg passwordOption).withInput secret

/-- The template for the first repository digest of an image. -/
def digestTemplate : String := "\x7b\x7b(index .RepoDigests 0)\x7d\x7d"

/-- The command for a request. -/
def ofRequest : Request → Command
  | .login server username secret =>
    (((named "login").option "-u" username).password secret).argIf (!server.isEmpty) server
  | .logout server => (named "logout").argIf (!server.isEmpty) server
  | .push name platform => ((named "push").option "--platform" platform).arg name
  | .digest id => (((named "inspect").arg "--format").arg digestTemplate).arg id
  | .remove id => (named "rmi").arg id

/-- A command in one line. The standard input is not part of it. -/
def line (c : Command) : String :=
  Text.joined " " c.args

/-- A command in diagnostics. The standard input is not shown. -/
def diagnostic (c : Command) : String :=
  let input :=
    match c.input with
    | some _ => "Some(" ++ Text.quoted Text.redacted ++ ")"
    | none => "None"
  Text.record "DockerCommand"
    [("args", Text.bracketed (c.args.map Text.quoted)), ("stdin", input)]

end Command

end ImagePush.Engine
