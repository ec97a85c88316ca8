import ImagePush.Workbench.Basic

/-!
# Engines by rules

An engine that follows a list of rules: the first one that fits a call says what is printed and how the
process ends.
-/

namespace ImagePush.Workbench

/-- A rule of an engine. -/
structure Rule where
  /-- The command that the rule is about; without one it is about all. -/
  command : Option String := Option.none
  /-- The last argument that the rule is about. -/
  last : Option String := Option.none
  stdout : List UInt8 := []
  stderr : List UInt8 := []
  exit : Int := 0
  /-- The process is killed instead of ending with a code. -/
  killed : Bool := false
  removesDir : Bool := false
  deriving Repr

/-- The arguments behind the global options. -/
def ownArgs (args : List String) : List String :=
  if (namedDir args).isSome then args.drop 2 else args

/-- Whether a rule fits a call with these arguments behind the global options. -/
def Rule.fits (r : Rule) (args : List String) : Bool :=
  (r.command.isNone || r.command == args.head?) && (r.last.isNone || r.last == args.getLast?)

/-- What the engine does by a rule. An exit code is one byte. -/
def Rule.reaction (r : Rule) : Reaction where
  ending := ⟨r.stdout, r.stderr, if r.killed then Option.none else some (r.exit % 256).toNat⟩
  removesDir := r.removesDir

/-- The engine that follows rules. A call that no rule fits succeeds silently. -/
def engineOf (rules : List Rule) (_ : List Call) (call : Call) : Reaction :=
  match rules.find? (·.fits (ownArgs call.args)) with
  | some r => r.reaction
  | Option.none => {}

end ImagePush.Workbench
