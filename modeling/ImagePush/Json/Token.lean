import ImagePush.Json.Fault

/-!
# Tokens of JSON text

The words `null`, `true` and `false`, strings with their escapes, and numbers.

A number is read from its digits: they are gathered in a 64-bit word as long as they fit, the digits
that do not fit only count for the exponent, and the word is then scaled by one power of ten. That is
one rounding more than the nearest double needs.
-/

namespace ImagePush.Json

/-! ### Words -/

/-- Passes over the given letters. -/
def word : List Char → List Char → Except Fault (List Char)
  | [], s => .ok s
  | _ :: _, [] => faultHere .endInValue []
  | e :: es, c :: s => if c = e then word es s else faultNext .expectedWord (c :: s)

/-! ### Strings -/

/-- The value of a hexadecimal digit. -/
def hexValue? (c : Char) : Option Nat :=
  if '0' ≤ c ∧ c ≤ '9' then some (c.toNat - '0'.toNat)
  else if 'a' ≤ c ∧ c ≤ 'f' then some (c.toNat - 'a'.toNat + 10)
  else if 'A' ≤ c ∧ c ≤ 'F' then some (c.toNat - 'A'.toNat + 10)
  else none

/-- The number written by four hexadecimal digits. -/
def fourHex? (a b c d : Char) : Option Nat := do
  let a ← hexValue? a
  let b ← hexValue? b
  let c ← hexValue? c
  let d ← hexValue? d
  return ((a * 16 + b) * 16 + c) * 16 + d

/-- Reads four hexadecimal digits. The fault lies behind four bytes, or at the end of a shorter text. -/
def fourHex (s : List Char) : Reading Nat :=
  let bad := if byteLength s < 4 then faultHere .endInString [] else .error ⟨.invalidEscape, s, 4⟩
  match s with
  | a :: b :: c :: d :: rest =>
    match fourHex? a b c d with
    | some n => .ok (n, rest)
    | none => bad
  | _ => bad

/-- The first half of a pair of surrogates. -/
def isHighSurrogate (n : Nat) : Bool := 0xD800 ≤ n && n ≤ 0xDBFF

/-- The second half of a pair of surrogates. -/
def isLowSurrogate (n : Nat) : Bool := 0xDC00 ≤ n && n ≤ 0xDFFF

/-- The character that a letter after a backslash stands for. -/
def shortEscape? (c : Char) : Option Char :=
  match c with
  | '"' => some '"'
  | '\\' => some '\\'
  | '/' => some '/'
  | 'b' => some '\x08'
  | 'f' => some '\x0c'
  | 'n' => some '\n'
  | 'r' => some '\r'
  | 't' => some '\t'
  | _ => none

/-- Passes over the character `e`, which has to follow the first half of a pair. -/
def secondHalf (e : Char) : List Char → Except Fault (List Char)
  | [] => faultHere .endInString []
  | c :: s => if c = e then .ok s else faultNext .halfPair (c :: s)

/-- Reads what follows `\u`: four digits, or two times four for a pair of surrogates. -/
def unicodeEscape (s : List Char) : Except Fault (Char × List Char) := do
  let (n, s) ← fourHex s
  if isLowSurrogate n then
    faultHere .loneSurrogate s
  else if isHighSurrogate n then
    let s ← secondHalf '\\' s
    let s ← secondHalf 'u' s
    let (m, s) ← fourHex s
    if isLowSurrogate m then
      return (Char.ofNat ((n - 0xD800) * 0x400 + (m - 0xDC00) + 0x10000), s)
    else
      faultHere .loneSurrogate s
  else
    return (Char.ofNat n, s)

/-- Reads what follows a backslash. -/
def escape : List Char → Reading Char
  | [] => faultHere .endInString []
  | c :: s =>
    if c = 'u' then unicodeEscape s
    else match shortEscape? c with
      | some e => .ok (e, s)
      | none => faultNext .invalidEscape (c :: s)

/-- Passes over what follows a backslash; surrogates need not be paired. -/
def passEscape : List Char → Except Fault (List Char)
  | [] => faultHere .endInString []
  | c :: s =>
    if c = 'u' then (fourHex s).map Prod.snd
    else match shortEscape? c with
      | some _ => .ok s
      | none => faultNext .invalidEscape (c :: s)

/-- The characters that a string must not hold as they are. -/
def isControl (c : Char) : Bool := c.toNat < 0x20

/-- Reads the characters of a string up to its closing quote; `acc` holds those read so far, the last
one first, and `fuel` bounds the characters to come. -/
def stringFrom : Nat → List Char → List Char → Reading (List Char)
  | 0, _, s => faultHere .endInString s
  | _ + 1, _, [] => faultHere .endInString []
  | fuel + 1, acc, c :: s =>
    if c = '"' then .ok (acc.reverse, s)
    else if c = '\\' then
      match escape s with
      | .ok (e, s) => stringFrom fuel (e :: acc) s
      | .error f => .error f
    else if isControl c then faultNext .controlCharacter (c :: s)
    else stringFrom fuel (c :: acc) s

/-- Reads a string behind its opening quote. -/
def readString (s : List Char) : Reading String :=
  (stringFrom (s.length + 1) [] s).map fun (cs, s) => (String.ofList cs, s)

/-- Passes over a string up to its closing quote; `fuel` bounds the characters to come. -/
def passStringFrom : Nat → List Char → Except Fault (List Char)
  | 0, s => faultHere .endInString s
  | _ + 1, [] => faultHere .endInString []
  | fuel + 1, c :: s =>
    if c = '"' then .ok s
    else if c = '\\' then
      match passEscape s with
      | .ok s => passStringFrom fuel s
      | .error f => .error f
    else if isControl c then faultHere .controlCharacter (c :: s)
    else passStringFrom fuel s

/-- Passes over a string behind its opening quote. -/
def passString (s : List Char) : Except Fault (List Char) :=
  passStringFrom (s.length + 1) s

/-! ### Numbers -/

/-- The value of a decimal digit. -/
def digitValue (c : Char) : Nat := c.toNat - '0'.toNat

/-- The text begins with a decimal digit. -/
def startsWithDigit : List Char → Bool
  | [] => false
  | c :: _ => c.isDigit

/-- Text without the digits at its front. -/
def dropDigits (s : List Char) : List Char :=
  s.dropWhile Char.isDigit

/-- Gathers digits in a word as long as it does not exceed `limit`. -/
def gather (limit : Nat) (n : Nat) : List Char → Nat × List Char
  | [] => (n, [])
  | c :: s =>
    if c.isDigit ∧ n * 10 + digitValue c ≤ limit then gather limit (n * 10 + digitValue c) s
    else (n, c :: s)

/-- Multiplies or divides a number by a power of ten; powers past 308 take several divisions. `none` if
the result is infinite. -/
def scale (x : Double) (exponent : Int) : Option Double :=
  if exponent.natAbs ≤ 308 then
    if 0 ≤ exponent then
      let y := x.multiply (Double.powerOfTen exponent.toNat)
      if y.isInfinite then none else some y
    else
      some (x.divide (Double.powerOfTen exponent.natAbs))
  else if x.isZero then some x
  else if 0 ≤ exponent then none
  else scale (x.divide (Double.powerOfTen 308)) (exponent + 308)
termination_by exponent.natAbs

/-- A double with the sign of the text. -/
def signed (negative : Bool) (x : Double) : Double :=
  if negative then x.neg else x

/-- The number `significand * 10 ^ exponent`, read up to `s`. -/
def readFloat (negative : Bool) (significand : Nat) (exponent : Int) (s : List Char) : Reading Json :=
  match scale (Double.ofNat significand) exponent with
  | some x => .ok (.float (signed negative x), s)
  | none => faultHere .numberOutOfRange s

/-- The largest exponent that is counted. -/
def maxExponent : Nat := 0x7FFFFFFF

/-- Reads an exponent behind its letter; `base` is the exponent of the digits before it. -/
def exponentPart (negative : Bool) (significand : Nat) (base : Int) (s : List Char) : Reading Json :=
  let (down, s) : Bool × List Char :=
    match s with
    | '+' :: s => (false, s)
    | '-' :: s => (true, s)
    | s => (false, s)
  match s with
  | [] => faultHere .endInValue []
  | c :: _ =>
    if !c.isDigit then faultNext .invalidNumber s
    else
      let (n, rest) := gather maxExponent 0 s
      if startsWithDigit rest then
        if significand ≠ 0 ∧ !down then faultNext .numberOutOfRange rest
        else .ok (.float (signed negative ⟨0⟩), dropDigits rest)
      else readFloat negative significand (if down then base - n else base + n) rest

/-- Reads what may follow the digits of a number: an exponent or nothing. -/
def exponentOrEnd (negative : Bool) (significand : Nat) (base : Int) (s : List Char) : Reading Json :=
  match s with
  | [] => readFloat negative significand base []
  | c :: rest =>
    if c = 'e' ∨ c = 'E' then exponentPart negative significand base rest
    else readFloat negative significand base s

/-- Reads the digits behind the point. -/
def fraction (negative : Bool) (significand : Nat) (base : Int) (s : List Char) : Reading Json :=
  let (n, rest) := gather maxWord significand s
  let used := s.length - rest.length
  if startsWithDigit rest then
    exponentOrEnd negative n (base - used) (dropDigits rest)
  else if used = 0 then
    match rest with
    | [] => faultHere .endInValue []
    | _ => faultNext .invalidNumber rest
  else
    exponentOrEnd negative n (base - used) rest

/-- A whole number that fits: the sign decides between an integer and a double. -/
def whole (negative : Bool) (n : Nat) : Json :=
  if !negative then .int n
  else if 0 < n ∧ n ≤ 0x8000000000000000 then .int (-n)
  else .float (Double.ofNat n).neg

/-- Reads what may follow the whole part of a number. -/
def afterWhole (negative : Bool) (n : Nat) (s : List Char) : Reading Json :=
  let dropped := (s.takeWhile Char.isDigit).length
  let rest := dropDigits s
  match rest with
  | '.' :: r => fraction negative n dropped r
  | 'e' :: r => exponentPart negative n dropped r
  | 'E' :: r => exponentPart negative n dropped r
  | _ => if dropped = 0 then .ok (whole negative n, rest) else readFloat negative n dropped rest

/-- Reads a number behind its sign. -/
def readNumber (negative : Bool) : List Char → Reading Json
  | [] => faultHere .endInValue []
  | c :: s =>
    if c = '0' then
      if startsWithDigit s then faultNext .invalidNumber s else afterWhole negative 0 s
    else if c.isDigit then
      let (n, rest) := gather maxWord 0 (c :: s)
      afterWhole negative n rest
    else faultNext .invalidNumber (c :: s)

/-! ### Numbers that are passed over -/

/-- Passes over an exponent behind its letter. -/
def passExponent (s : List Char) : Except Fault (List Char) :=
  let s :=
    match s with
    | '+' :: s => s
    | '-' :: s => s
    | s => s
  match s with
  | [] => faultHere .invalidNumber []
  | c :: _ => if c.isDigit then .ok (dropDigits s) else faultNext .invalidNumber s

/-- Passes over what may follow the digits of a number: an exponent or nothing. -/
def passExponentOrEnd : List Char → Except Fault (List Char)
  | 'e' :: s => passExponent s
  | 'E' :: s => passExponent s
  | s => .ok s

/-- Passes over what may follow the whole part of a number. -/
def passAfterWhole : List Char → Except Fault (List Char)
  | '.' :: s =>
    if startsWithDigit s then passExponentOrEnd (dropDigits s) else faultNext .invalidNumber s
  | s => passExponentOrEnd s

/-- Passes over a number behind its sign. -/
def passNumber : List Char → Except Fault (List Char)
  | [] => faultHere .invalidNumber []
  | c :: s =>
    if c = '0' then
      if startsWithDigit s then faultNext .invalidNumber s else passAfterWhole s
    else if c.isDigit then passAfterWhole (dropDigits s)
    else faultNext .invalidNumber (c :: s)

end ImagePush.Json
