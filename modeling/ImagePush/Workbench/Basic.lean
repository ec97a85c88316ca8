import ImagePush.Engine.Process
import ImagePush.Push.Workflow
import ImagePush.Workbench.Files

/-!
# Workbenches

A small world in memory in which a push can be run from beginning to end: files, an engine that answers
each call by the calls before it, a directory for scratch, and a record of all calls.
-/

namespace ImagePush

namespace Workbench

/-- What an engine finds at the directory for its configuration. -/
inductive DirState where
  /-- No directory is named. -/
  | none
  | missing
  | present
  deriving DecidableEq, Repr

/-- A call of the engine. -/
structure Call where
  args : List String
  input : Option String
  dirState : DirState
  deriving DecidableEq, Repr

/-- What the engine does on a call. -/
structure Reaction where
  ending : Engine.Ending := {}
  /-- Removes the directory for its configuration. -/
  removesDir : Bool := false
  deriving Repr

end Workbench

/-- A world in memory. -/
structure Workbench where
  files : Workbench.Files
  /-- What the engine does on a call, by the calls before it. -/
  engine : List Workbench.Call → Workbench.Call → Workbench.Reaction
  /-- The calls of the engine, the first one first. -/
  calls : List Workbench.Call := []
  /-- The name of the scratch directory. -/
  scratchName : String
  /-- Whether a scratch directory can be created. -/
  canMakeScratch : Bool := true
  /-- Whether the scratch directory exists. -/
  scratch : Bool := false

namespace Workbench

/-- The directory named by the global options of the engine. -/
def namedDir : List String → Option String
  | "--config" :: dir :: _ => some dir
  | "--config" :: [] => some ""
  | _ => Option.none

/-- Whether a directory exists. -/
def hasDir (w : Workbench) (dir : String) : Bool :=
  (w.scratch && dir == w.scratchName) || w.files.isDirectory dir

/-- What the engine finds at the directory for its configuration. -/
def dirState (w : Workbench) (args : List String) : DirState :=
  match namedDir args with
  | Option.none => .none
  | some dir => if w.hasDir dir then .present else .missing

/-- The world without a directory. -/
def removeDir (w : Workbench) (dir : String) : Workbench :=
  if w.scratch && dir == w.scratchName then { w with scratch := false }
  else
    match w.files.resolve dir with
    | .ok p => { w with files := w.files.removeTree p }
    | .error _ => w

/-- The world after a call of the engine. -/
def afterCall (w : Workbench) (call : Call) (reaction : Reaction) : Workbench :=
  let w := { w with calls := w.calls ++ [call] }
  match reaction.removesDir, call.dirState, namedDir call.args with
  | true, .present, some dir => w.removeDir dir
  | _, _, _ => w

/-- Whether a text holds a NUL. -/
def hasNul (s : String) : Bool :=
  s.toList.contains '\x00'

/-- The greatest number of bytes in a word of a command. -/
def maxWord : Nat := 131071

/-- Whether a text is too long for a word of a command. -/
def isTooLong (s : String) : Bool :=
  maxWord < s.utf8ByteSize

/-- Runs a process. -/
def start (i : Engine.Invocation) : StateM Workbench (Except IoError Engine.Ending) := fun w =>
  if hasNul i.executable || i.args.any hasNul then (.error .nulByte, w)
  else
    match w.files.program i.executable with
    | .error e => (.error (.system e), w)
    | .ok _ =>
      if i.args.any isTooLong then (.error (.system .tooLong), w)
      else
        let call : Call := ⟨i.args, i.input, w.dirState i.args⟩
        let reaction := w.engine w.calls call
        (.ok reaction.ending, w.afterCall call reaction)

/-- Creates the scratch directory. -/
def makeScratch : StateM Workbench (Except IoError Directory) := fun w =>
  if w.canMakeScratch then (.ok (.named w.scratchName), { w with scratch := true })
  else (.error (.systemAt .noEntry w.scratchName), w)

/-- Removes a scratch directory. -/
def dropScratch (dir : Directory) : StateM Workbench (Except IoError Unit) := fun w =>
  if w.scratch && dir == .named w.scratchName then (.ok (), { w with scratch := false })
  else (.error (.systemAt .noEntry dir.shown), w)

/-- The number of things in the directory for scratch. -/
def leftovers (w : Workbench) (tmp : Path) : Nat :=
  w.files.count tmp + if w.scratch then 1 else 0

end Workbench

end ImagePush
