import ImagePush.Json.Reader
import ImagePush.Number.Shortest

/-!
# JSON text read loosely

A reader that asks less of what it passes over. A string is taken as it is written, and its escapes only
count where its value is wanted. A number may begin with any digits and lack those on one side of its
point; that its value is finite only counts where the value is wanted. What is passed over may be nested
512 deep.
-/

namespace ImagePush.Json.Loose

/-! ### Strings -/

/-- Takes the characters of a string as they are written, up to its closing quote; `acc` holds those taken
so far, the last one first. Behind a backslash any character may stand. -/
def writtenFrom (acc : List Char) : List Char → Reading (List Char)
  | [] => faultHere .endInString []
  | '\\' :: c :: s => writtenFrom (c :: '\\' :: acc) s
  | '"' :: s => .ok (acc.reverse, s)
  | c :: s => if isControl c then faultNext .controlCharacter (c :: s) else writtenFrom (c :: acc) s

/-- Takes a string as it is written, behind its opening quote. -/
def written (s : List Char) : Reading (List Char) :=
  writtenFrom [] s

/-- The value of a string that was taken as it is written. -/
def value? (chars : List Char) : Option String :=
  match readString (chars ++ ['"']) with
  | .ok (text, _) => some text
  | .error _ => none

/-! ### Numbers -/

/-- The characters of a number behind its sign. -/
def isNumberChar (c : Char) : Bool :=
  c.isDigit || c = '.' || c = 'e' || c = 'E' || c = '+' || c = '-'

/-- The natural number that digits write. -/
def natOf (digits : List Char) : Nat :=
  digits.foldl (fun n c => n * 10 + digitValue c) 0

/-- The exponent that is written behind its letter. -/
def exponent? (s : List Char) : Option Int :=
  let (down, digits) : Bool × List Char :=
    match s with
    | '-' :: r => (true, r)
    | '+' :: r => (false, r)
    | r => (false, r)
  if digits.isEmpty || !digits.all Char.isDigit then none
  else some (if down then -natOf digits else natOf digits)

/-- The decimal that is written behind a sign. A digit has to stand on one side of the point. -/
def decimal? (s : List Char) : Option Shortest.Decimal :=
  let whole := s.takeWhile Char.isDigit
  let (fraction, rest) : List Char × List Char :=
    match dropDigits s with
    | '.' :: r => (r.takeWhile Char.isDigit, dropDigits r)
    | r => ([], r)
  let scaled (exponent : Int) : Shortest.Decimal :=
    ⟨natOf (whole ++ fraction), exponent - fraction.length⟩
  if whole.isEmpty && fraction.isEmpty then none
  else
    match rest with
    | [] => some (scaled 0)
    | 'e' :: r => (exponent? r).map scaled
    | 'E' :: r => (exponent? r).map scaled
    | _ => none

/-- Whether the double nearest to a decimal is finite. Only a decimal of 309 places has to be rounded to
tell. -/
def hasFiniteValue (d : Shortest.Decimal) : Bool :=
  let places := d.exponent + Shortest.digitCount d.digits
  d.digits == 0 || places ≤ 308 || (places == 309 &&
    (Double.ofRatio false (d.digits * Nat.pow 10 d.exponent.toNat) (Nat.pow 10 (-d.exponent).toNat)).isFinite)

/-- Takes a number behind its sign. -/
def decimal (s : List Char) : Reading Shortest.Decimal :=
  match decimal? (s.takeWhile isNumberChar) with
  | none => faultHere .invalidNumber s
  | some d => .ok (d, s.dropWhile isNumberChar)

/-- Passes over a number behind its sign. -/
def passNumber (s : List Char) : Except Fault (List Char) :=
  (decimal s).map Prod.snd

/-- Passes over a number behind its sign, the value of which is wanted. -/
def passFinite (s : List Char) : Except Fault (List Char) :=
  match decimal s with
  | .error f => .error f
  | .ok (d, rest) => if hasFiniteValue d then .ok rest else faultHere .numberOutOfRange s

/-! ### Values -/

/-- Strings and numbers that are passed over. -/
def scalars : Scalars :=
  ⟨fun s => (written s).map Prod.snd, passNumber⟩

/-- The greatest depth of a value that is passed over. -/
def maxDepth : Nat := 512

/-- Passes over a value. -/
def passValue (s : List Char) : Except Fault (List Char) :=
  (passNested scalars maxDepth s).map Prod.snd

/-- Reads a text, or null for none. -/
def readText (s : List Char) : Reading (Option String) :=
  match skipBlanks s with
  | 'n' :: r => (word ['u', 'l', 'l'] r).map (none, ·)
  | '"' :: r =>
    match written r with
    | .error f => .error f
    | .ok (chars, s) =>
      match value? chars with
      | some text => .ok (some text, s)
      | none => faultHere .invalidEscape s
  | s => faultNext .expectedValue s

/-- Passes over a number whose value is wanted, or over null for none. -/
def passNumberValue (s : List Char) : Except Fault (List Char) :=
  match skipBlanks s with
  | 'n' :: r => word ['u', 'l', 'l'] r
  | '-' :: r => passFinite r
  | s => if startsWithDigit s then passFinite s else faultNext .expectedValue s

/-! ### Arrays and objects -/

/-- The manner of reading: a key is taken as it is written. -/
def reading : Manner (List Char) :=
  ⟨written, .trailingComma, .trailingComma, .endInValue⟩

/-- Reads an object whose members are read by `member`, from their values on. The value of every key is
wanted. -/
def readMembers {σ : Type} (member : σ → String → List Char → Reading σ) (state : σ)
    (s : List Char) : Reading σ :=
  let taken (state : σ) (key : List Char) (s : List Char) : Reading σ :=
    match value? key, colon s with
    | some key, .ok s => member state key s
    | none, _ => faultHere .invalidEscape s
    | _, .error f => .error f
  match skipBlanks s with
  | '\x7b' :: r => members reading taken state r
  | s => faultNext .expectedValue s

/-- Reads an array whose items are read by `item`, or null for none. -/
def readItems {α : Type} (item : List Char → Reading α) (s : List Char) : Reading (List α) :=
  match skipBlanks s with
  | 'n' :: r => (word ['u', 'l', 'l'] r).map ([], ·)
  | '[' :: r => items reading item r
  | s => faultNext .expectedValue s

end ImagePush.Json.Loose
