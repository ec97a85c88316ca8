import ImagePush.KeyMap
import ImagePush.Text.Blank
import ImagePush.Text.Search

/-!
# Profiles

Profiles keep keys under names, in a text of lines. A line `[name]` opens a profile, and a line
`key=value` below it sets one of its properties; a line that begins with a blank goes on with the value
before it. A comment begins with `#` or `;`, behind a value only after a blank. One malformed line spoils
the whole text, while a profile whose name is malformed is only passed over. Profiles whose names come to
the same are one.
-/

namespace ImagePush.Registry

/-- The keys that sign a request. -/
structure Signer where
  accessKey : String
  secretKey : String
  token : Option String := none
  deriving DecidableEq, Repr, Inhabited

/-- The properties of a profile. -/
abbrev Properties := KeyMap String

/-- Properties under the names of profiles. -/
abbrev Profiles := KeyMap Properties

namespace Profiles

/-- The property that holds the access key. -/
def accessKeyName : String := "aws_access_key_id"

/-- The property that holds the secret key. -/
def secretKeyName : String := "aws_secret_access_key"

/-- The property that holds the token. -/
def tokenName : String := "aws_session_token"

/-! ### Writing -/

/-- The line of a property. -/
def propertyLine (key value : String) : String :=
  s!"{key}={value}\n"

/-- The lines of a profile. -/
def profileLines (name : String) (s : Signer) : String :=
  s!"[{name}]\n" ++ propertyLine accessKeyName s.accessKey ++ propertyLine secretKeyName s.secretKey ++
    (s.token.map (propertyLine tokenName)).getD ""

/-- The text of profiles. -/
def text (profiles : List (String × Signer)) : String :=
  String.join (profiles.map fun (name, s) => profileLines name s)

/-! ### Lines -/

/-- The blanks of a line. -/
def isSpace (c : Char) : Bool :=
  c = ' ' || c = '\t'

/-- What opens a comment. -/
def isMark (c : Char) : Bool :=
  c = '#' || c = ';'

/-- A text without the blanks at either end. -/
def strip (cs : List Char) : List Char :=
  ((cs.dropWhile isSpace).reverse.dropWhile isSpace).reverse

/-- A text up to the comment in it. A comment begins where a mark stands behind a blank, or at any mark if
`anywhere` says so. -/
def cutComment (anywhere : Bool) (afterBlank : Bool) : List Char → List Char
  | [] => []
  | c :: s =>
    if isMark c && (anywhere || afterBlank) then [] else c :: cutComment anywhere (Text.isBlank c) s

/-- What a line says besides its comment. -/
def content (anywhere : Bool) (line : List Char) : List Char :=
  strip (cutComment anywhere false (strip line))

/-- The name in the line that opens a profile. -/
def openedName? (line : List Char) : Option (List Char) :=
  match content true line with
  | '[' :: rest => if rest.getLast? = some ']' then some rest.dropLast else none
  | _ => none

/-- The key, in lower case, and the value of a property. -/
def property? (line : List Char) : Option (List Char × List Char) :=
  match Text.splitFirst ['='] (content false line) with
  | none => none
  | some (key, value) =>
    if (strip key).isEmpty then none else some ((strip key).map Char.toLower, strip value)

/-- What a line says. -/
inductive Line where
  | nothing
  | opening (name : List Char)
  | property (key value : List Char)
  /-- The line goes on with the value before it. -/
  | more (line : List Char)
  | malformed
  deriving DecidableEq, Repr

/-- What a line says. -/
def Line.ofChars (line : List Char) : Line :=
  match line with
  | [] => .nothing
  | c :: _ =>
    if isMark c || (strip line).isEmpty then .nothing
    else if c = '[' then
      match openedName? line with
      | some name => .opening name
      | none => .malformed
    else if isSpace c then .more line
    else
      match property? line with
      | some (key, value) => .property key value
      | none => .malformed

/-- The lines of a text, without the ends of the lines. -/
def lines (text : List Char) : List (List Char) :=
  (text.splitOn '\n').map (Text.dropBack '\r')

/-! ### Reading -/

/-- What has been read. -/
structure Progress where
  profiles : Profiles := []
  /-- The profile that is open. -/
  name : Option String := none
  /-- The property that was set last, and whether its value began empty. -/
  last : Option (String × Bool) := none

namespace Progress

/-- The properties of the profile with a name. -/
def properties (p : Progress) (name : String) : Properties :=
  (KeyMap.get? name p.profiles).getD []

/-- Opens a profile, which may have been opened before. -/
def openProfile (p : Progress) (name : String) : Progress :=
  ⟨KeyMap.insert name (p.properties name) p.profiles, some name, none⟩

/-- Sets a property of a profile. -/
def set (p : Progress) (name key value : String) : Progress :=
  { p with profiles := KeyMap.insert name (KeyMap.insert key value (p.properties name)) p.profiles }

/-- Takes a line. Below a value that began empty only properties may stand. -/
def take (p : Progress) (line : Line) : Option Progress :=
  match line, p.name, p.last with
  | .nothing, _, _ => some p
  | .opening name, _, _ => some (p.openProfile (String.ofList name))
  | .property key value, some name, _ =>
    let key := String.ofList key
    some { p.set name key (String.ofList value) with last := some (key, value.isEmpty) }
  | .more line, some name, some (key, empty) =>
    if empty && (property? line).isNone then none
    else
      let before := (KeyMap.get? key (p.properties name)).getD ""
      some (p.set name key (before ++ "\n" ++ String.ofList (strip line)))
  | _, _, _ => none

end Progress

/-- The profiles of a text, under the names as they are written. -/
def read (text : String) : Option Profiles :=
  (((lines text.toList).map Line.ofChars).foldlM Progress.take {}).map Progress.profiles

/-- The characters of a name. -/
def isNameChar (c : Char) : Bool :=
  c.isAlphanum || c = '_' || c = '-' || c = '/' || c = '.' || c = '%' || c = '@' || c = ':' || c = '+'

/-- The name that is meant by a written one. Spaces and tabs end a word, and a name is one word; other blanks
around it do not count. -/
def name? (written : String) : Option String :=
  let word := strip written.toList
  let trimmed := Text.trimChars word
  if !word.any isSpace && trimmed.all isNameChar then some (String.ofList trimmed) else none

/-- The profiles under the names that are meant. -/
def named (written : Profiles) : Profiles :=
  written.foldl (fun profiles (name, properties) =>
    match name? name with
    | none => profiles
    | some name =>
      KeyMap.insert name (KeyMap.merge ((KeyMap.get? name profiles).getD []) properties) profiles) []

/-- The profiles of a text. -/
def ofText? (text : String) : Option Profiles :=
  (read text).map named

end Profiles

end ImagePush.Registry
