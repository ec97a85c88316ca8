import ImagePush.Error

/-!
# Files in memory

A tree of files and directories, kept as a list of what stands at which path, and the reading, the writing
and the look-up of programs by the names that a process would use.
-/

namespace ImagePush.Workbench

/-- The names that lead from the root to a place. -/
abbrev Path := List String

/-- What stands at a path. -/
inductive Node where
  | file (content : List UInt8)
  /-- A file that can be executed. -/
  | program
  /-- A device that keeps nothing. One that is full takes nothing either. -/
  | device (isFull : Bool)
  | directory
  deriving DecidableEq, Repr

/-- A tree of files. -/
structure Files where
  nodes : List (Path × Node) := []
  /-- The directory in which names that do not begin at the root begin. -/
  here : Path := []

namespace Files

/-- What stands at a path; the root is a directory. -/
def node? (fs : Files) (p : Path) : Option Node :=
  if p.isEmpty then some .directory else fs.nodes.lookup p

/-- The tree with something else at a path. -/
def set (fs : Files) (p : Path) (n : Node) : Files :=
  { fs with nodes := (p, n) :: fs.nodes.filter (·.1 != p) }

/-- The tree with something at a path, and with the directories above it. -/
def place (fs : Files) (p : Path) (n : Node) : Files :=
  let above := (List.range p.length).map p.take
  let missing := above.filter fun q => (fs.node? q).isNone
  (missing.foldl (fun fs q => fs.set q .directory) fs).set p n

/-- The tree without what stands at a path or below it. -/
def removeTree (fs : Files) (p : Path) : Files :=
  { fs with nodes := fs.nodes.filter fun e => !p.isPrefixOf e.1 }

/-- The number of things that stand directly in a directory. -/
def count (fs : Files) (p : Path) : Nat :=
  (fs.nodes.filter fun e => !e.1.isEmpty && e.1.dropLast == p).length

/-! ### Names -/

/-- The greatest number of bytes in a part of a name. -/
def maxPart : Nat := 255

/-- The greatest number of bytes in a name. -/
def maxName : Nat := 4095

/-- Follows the parts of a name from a place. What stands at the end may be missing. -/
def walk (fs : Files) (place : Path) : List String → Except SystemError Path
  | [] => .ok place
  | part :: rest =>
    match fs.node? place with
    | none => .error .noEntry
    | some .directory =>
      if part = "" ∨ part = "." then walk fs place rest
      else if part = ".." then walk fs place.dropLast rest
      else if part.utf8ByteSize > maxPart then .error .nameTooLong
      else walk fs (place ++ [part]) rest
    | some _ => .error .notDirectory

/-- The place where a name begins and its parts. -/
def start (fs : Files) (name : String) : Except SystemError (Path × List String) :=
  if name.isEmpty then .error .noEntry
  else if name.utf8ByteSize > maxName then .error .nameTooLong
  else
    match name.splitOn "/" with
    | "" :: rest => .ok ([], rest)
    | parts => .ok (fs.here, parts)

/-- The place that a name leads to. -/
def resolve (fs : Files) (name : String) : Except SystemError Path := do
  let (place, parts) ← fs.start name
  fs.walk place parts

/-- Whether a name leads to a directory. -/
def isDirectory (fs : Files) (name : String) : Bool :=
  match fs.resolve name with
  | .ok p => fs.node? p == some .directory
  | .error _ => false

/-! ### Use -/

/-- The content of a file. -/
def read (fs : Files) (name : String) : Except IoError (List UInt8) :=
  if name.toList.contains '\x00' then .error .nulName
  else
    match fs.resolve name with
    | .error e => .error (.system e)
    | .ok p =>
      match fs.node? p with
      | none => .error (.system .noEntry)
      | some (.file content) => .ok content
      | some .program => .ok []
      | some (.device _) => .ok []
      | some .directory => .error (.system .isDirectory)

/-- The parts of a name without the last one that is not empty. -/
def above (parts : List String) : List String :=
  ((parts.reverse.dropWhile String.isEmpty).drop 1).reverse

/-- The place at which a file of this name is written. A name with a slash at its end is that of a
directory, whatever stands there: its last part is not looked up. -/
def target (fs : Files) (name : String) : Except SystemError Path := do
  let (place, parts) ← fs.start name
  if parts.getLast? == some "" then
    let _ ← fs.walk place (above parts ++ [""])
    throw .isDirectory
  else
    let p ← fs.walk place parts
    if fs.node? p == some .directory then throw .isDirectory else return p

/-- The tree with a file written, which is created if it is missing. -/
def write (fs : Files) (name : String) (content : List UInt8) : Except IoError Files :=
  if name.toList.contains '\x00' then .error .nulName
  else
    match fs.target name with
    | .error e => .error (.system e)
    | .ok p =>
      match fs.node? p with
      | some (.device isFull) =>
        if isFull && !content.isEmpty then .error (.system .noSpace) else .ok fs
      | _ => .ok (fs.set p (.file content))

/-- Checks that a name leads to a program. The search path of programs is the directory `here`, so that a
name without a slash is no special case. -/
def program (fs : Files) (name : String) : Except SystemError Unit :=
  match fs.resolve name with
  | .error e => .error e
  | .ok p =>
    match fs.node? p with
    | none => .error .noEntry
    | some .program => .ok ()
    | some _ => .error .denied

end Files

end ImagePush.Workbench
