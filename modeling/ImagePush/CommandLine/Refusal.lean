import ImagePush.CommandLine.Options
import ImagePush.Text.Search
import ImagePush.Text.Terminal

/-!
# Refusals of a command line

Why a command line gives no arguments, and what is printed then. Help and version are asked for and
printed as they are; everything else is an error, with a line on the usage that shows the options in
question. Of the words that were given, and of the name of the program, the visible part is shown.
-/

namespace ImagePush.CommandLine

/-- The name of the program. -/
def programName : String := "docker-push"

/-- The version of the program. -/
def programVersion : String := "0.1.0"

/-- What the program is for. -/
def about : String := "Push a built Docker image under all of its tags and record its digest"

/-- What a line on the usage shows. -/
inductive Usage where
  | none
  /-- The general form. -/
  | general
  /-- The option that must be given, and others. -/
  | with (options : List Opt)
  /-- The choice among the settings, behind options that are none. -/
  | choice (requests : List Opt)
  deriving DecidableEq, Repr

/-- Why a command line gives no arguments. -/
inductive Refusal where
  | help
  | version
  /-- An option lacks its value. -/
  | noValue (o : Opt)
  /-- An option is given twice. -/
  | repeated (o : Opt)
  /-- A value is not text. -/
  | notText
  /-- A value for an option that takes none; `others` were given before it. -/
  | unexpectedValue (value : String) (o : Opt) (others : List Opt)
  /-- A word that is no option. -/
  | unexpected (word : String)
  /-- A long name that no option has; `similar` has one like it. -/
  | unknownName (name : String) (similar : Option Opt) (others : List Opt)
  /-- Two options exclude each other. -/
  | conflict (o other : Opt) (others : List Opt)
  /-- The artifact is missing. -/
  | noArtifact (others : List Opt)
  deriving DecidableEq, Repr

namespace Refusal

/-- The refusal with the visible part of the words in it. -/
def visible (resumes : Bool) : Refusal → Refusal
  | unexpectedValue v o others => unexpectedValue (Text.Terminal.visible resumes v) o others
  | unexpected word => unexpected (Text.Terminal.visible resumes word)
  | unknownName name similar others => unknownName (Text.Terminal.visible resumes name) similar others
  | r => r

/-- What the error is, or what is asked for. -/
def headline : Refusal → String
  | help => about
  | version => s!"{programName} {programVersion}"
  | noValue o => s!"a value is required for '{o.shown}' but none was supplied"
  | repeated o => s!"the argument '{o.shown}' cannot be used multiple times"
  | notText => "invalid UTF-8 was detected in one or more arguments"
  | unexpectedValue v o _ => s!"unexpected value '{v}' for '{o.shown}' found; no more were expected"
  | unexpected word => s!"unexpected argument '{word}' found"
  | unknownName name _ _ => s!"unexpected argument '--{name}' found"
  | conflict o other _ => s!"the argument '{o.shown}' cannot be used with '{other.shown}'"
  | noArtifact _ => "the following required arguments were not provided:"

/-- What stands between the first line and the usage. -/
def hint : Refusal → String
  | noArtifact _ => s!"\n  {Opt.artifact.shown}"
  | unknownName _ (some o) _ => s!"\n\n  tip: a similar argument exists: '--{o.long}'"
  | _ => ""

/-- The options without those given before and the one that must be given. -/
def distinct (options : List Opt) : List Opt :=
  options.foldl (fun seen o => if o = .artifact ∨ o ∈ seen then seen else seen ++ [o]) []

/-- What the line on the usage shows. -/
def usage : Refusal → Usage
  | noValue _ => .none
  | repeated _ | notText | unexpected _ => .general
  | unexpectedValue _ o others => if others.isEmpty then .with [o] else .choice ([o].filter Opt.isRequest)
  | unknownName _ similar others =>
    match others ++ similar.toList with
    | [] => .general
    | options => .with options
  | conflict _ _ others | noArtifact others => .with others
  | help | version => .general

/-- Whether it was asked for. -/
def isAnswer : Refusal → Bool
  | help | version => true
  | _ => false

/-- The code that the program ends with. -/
def exitCode (r : Refusal) : Nat :=
  if r.isAnswer then 0 else 2

end Refusal

/-- The line on the usage. -/
def Usage.line (program : String) : Usage → String
  | .none => ""
  | .general => s!"\n\nUsage: {program} [OPTIONS] {Opt.artifact.shown}"
  | .with options =>
    let shown := (Refusal.distinct options).map Opt.shown
    "\n\nUsage: " ++ Text.joined " " (program :: Opt.artifact.shown :: shown)
  | .choice requests =>
    let settings := Opt.all.filter fun o => !o.isRequest
    let choice := "<" ++ Text.joined "|" (settings.map Opt.shown) ++ ">"
    "\n\nUsage: " ++ Text.joined " " (program :: requests.map Opt.shown ++ [choice])

/-- An option in the help. -/
def helpEntry (o : Opt) : String :=
  let letter :=
    match o.short? with
    | some c => s!"-{c}, "
    | none => "    "
  s!"  {letter}{o.shown}\n          {o.purpose}\n"

/-- The help. -/
def helpText (program : String) : String :=
  s!"{about}{Usage.general.line program}\n\nOptions:\n" ++ String.join (Opt.all.map helpEntry)

/-- The text of a refusal by a program of the given name. -/
def Refusal.written (program : String) : Refusal → String
  | .help => helpText program
  | .version => s!"{programName} {programVersion}\n"
  | r =>
    s!"error: {r.headline}{r.hint}{r.usage.line program}\n\nFor more information, try '--help'.\n"

/-- What is printed for a refusal by a program of the given name. -/
def Refusal.text (program : String) (r : Refusal) : String :=
  (r.visible true).written (Text.Terminal.visible true program)

/-- The first line of a text in which another one follows. -/
def lineOf (text : String) : String :=
  String.ofList (Text.dropBack '\r' (text.toList.takeWhile (· ≠ '\n')))

/-- The part of a refusal that names it: the first line of an error, the whole of what is asked for. -/
def Refusal.message (program : String) (r : Refusal) : String :=
  let text := (r.visible false).written (Text.Terminal.visible false program)
  if r.isAnswer then text else lineOf text

end ImagePush.CommandLine
