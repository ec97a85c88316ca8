import ImagePush.Json.Basic
import ImagePush.Number.Notation
import ImagePush.Text.Quoted
import ImagePush.Text.Utf8

/-!
# Faults of JSON text

Why a text is refused (`Cause`), where (`Position`), and the wording of both (`Error.message`). While
reading, a `Fault` remembers the input that was left; `Fault.locate` turns that into a line and a
column, which counts bytes, once the whole text is at hand.
-/

namespace ImagePush.Json

/-- What stands in the text where something else was expected. -/
inductive Found where
  | null
  | bool (b : Bool)
  | int (n : Int)
  | float (x : Double)
  | string (s : String)
  | sequence
  | map

/-- The wording of what was found. -/
def Found.describe : Found → String
  | .null => "null"
  | .bool b => s!"boolean `{b}`"
  | .int n => s!"integer `{n}`"
  | .float x => "floating point `" ++ String.ofList (NumberNotation.json.text x) ++ "`"
  | .string s => "string " ++ Text.quoted s
  | .sequence => "sequence"
  | .map => "map"

/-- What a value is when something else was expected. -/
def found : Json → Found
  | null => .null
  | bool b => .bool b
  | int n => .int n
  | float x => .float x
  | string s => .string s
  | array _ => .sequence
  | object _ => .map

/-- What was expected. -/
inductive Expected where
  | string
  | boolean
  | map
  | sequence
  | path
  | record (name : String)
  deriving DecidableEq

/-- The wording of what was expected. -/
def Expected.describe : Expected → String
  | .string => "a string"
  | .boolean => "a boolean"
  | .map => "a map"
  | .sequence => "a sequence"
  | .path => "path string"
  | .record name => "struct " ++ name

/-- Why a text is refused. -/
inductive Cause where
  /-- The text ends where a value was to come. -/
  | endInValue
  | endInList
  | endInObject
  | endInString
  | expectedValue
  | expectedWord
  | expectedCommaOrBracket
  | expectedCommaOrBrace
  | expectedColon
  | keyNotString
  | trailingComma
  | trailingText
  | invalidNumber
  | numberOutOfRange
  | invalidEscape
  /-- A surrogate escape that is not the first half of a pair. -/
  | loneSurrogate
  /-- The first half of a pair of surrogate escapes with no second half. -/
  | halfPair
  | controlCharacter
  | tooDeep
  | missingField (name : String)
  | duplicateField (name : String)
  | wrongType (found : Found) (expected : Expected)
  /-- A record written as an array has too few items. -/
  | tooShort (length : Nat) (name : String) (fields : Nat)

/-- The wording of a cause. -/
def Cause.describe : Cause → String
  | .endInValue => "EOF while parsing a value"
  | .endInList => "EOF while parsing a list"
  | .endInObject => "EOF while parsing an object"
  | .endInString => "EOF while parsing a string"
  | .expectedValue => "expected value"
  | .expectedWord => "expected ident"
  | .expectedCommaOrBracket => "expected `,` or `]`"
  | .expectedCommaOrBrace => "expected `,` or `\x7d`"
  | .expectedColon => "expected `:`"
  | .keyNotString => "key must be a string"
  | .trailingComma => "trailing comma"
  | .trailingText => "trailing characters"
  | .invalidNumber => "invalid number"
  | .numberOutOfRange => "number out of range"
  | .invalidEscape => "invalid escape"
  | .loneSurrogate => "lone leading surrogate in hex escape"
  | .halfPair => "unexpected end of hex escape"
  | .controlCharacter => "control character (\\u0000-\\u001F) found while parsing a string"
  | .tooDeep => "recursion limit exceeded"
  | .missingField name => s!"missing field `{name}`"
  | .duplicateField name => s!"duplicate field `{name}`"
  | .wrongType found expected => s!"invalid type: {found.describe}, expected {expected.describe}"
  | .tooShort length name fields =>
    s!"invalid length {length}, expected struct {name} with {fields} elements"

/-- A place in a text: lines count from 1, and the column is the number of bytes before it on its
line. -/
structure Position where
  line : Nat
  column : Nat
  deriving DecidableEq, Repr

/-- The position reached from `p` by going on for `n` bytes, which may end inside a character. -/
def Position.advance (p : Position) (n : Nat) : List Char → Position
  | [] => p
  | c :: rest =>
    if n = 0 then p
    else if c = '\n' then Position.advance ⟨p.line + 1, 0⟩ (n - 1) rest
    else
      let size := c.utf8Size
      if size ≤ n then Position.advance ⟨p.line, p.column + size⟩ (n - size) rest
      else ⟨p.line, p.column + n⟩

/-- A refused text and where. -/
structure Error where
  cause : Cause
  position : Position

/-- The wording of a refusal. -/
def Error.message (e : Error) : String :=
  s!"{e.cause.describe} at line {e.position.line} column {e.position.column}"

/-- A fault met while reading. -/
structure Fault where
  cause : Cause
  /-- The input that was left. -/
  rest : List Char
  /-- How many bytes after the beginning of the input that was left the fault lies. -/
  ahead : Nat

/-- The number of bytes of a text. -/
def byteLength (cs : List Char) : Nat :=
  cs.foldl (fun n c => n + c.utf8Size) 0

/-- Finds the place of a fault in the text that was read; no place lies behind the end. -/
def Fault.locate (text : List Char) (f : Fault) : Error :=
  let total := byteLength text
  let offset := min total (total - byteLength f.rest + f.ahead)
  ⟨f.cause, Position.advance ⟨1, 0⟩ offset text⟩

/-- Reading a prefix of the input: the value and the input that is left. -/
abbrev Reading (α : Type) := Except Fault (α × List Char)

/-- The fault at the beginning of the input that is left. -/
def faultHere {α : Type} (cause : Cause) (rest : List Char) : Except Fault α :=
  .error ⟨cause, rest, 0⟩

/-- The fault just behind the first byte of the input that is left. -/
def faultNext {α : Type} (cause : Cause) (rest : List Char) : Except Fault α :=
  .error ⟨cause, rest, 1⟩

end ImagePush.Json
