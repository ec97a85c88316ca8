/-!
# UTF-8

The encoding of text as bytes, and three readings of bytes as text:

* `decode` accepts well-formed bytes only and says where the first malformed sequence stands;
* `decode?` is the same without the reason;
* `decodeLossy` puts one replacement character for each malformed sequence.

A malformed sequence is the longest prefix of a well-formed one that the bytes at hand contain, and
at least one byte. If the bytes end inside it, it is cut short; otherwise it is invalid.
-/

namespace ImagePush.Text.Utf8

/-! ### Encoding -/

/-- The bytes of one character. -/
def encodeChar (c : Char) : List UInt8 :=
  let n := c.toNat
  if n < 0x80 then
    [UInt8.ofNat n]
  else if n < 0x800 then
    [UInt8.ofNat (0xC0 + n / 0x40), UInt8.ofNat (0x80 + n % 0x40)]
  else if n < 0x10000 then
    [UInt8.ofNat (0xE0 + n / 0x1000), UInt8.ofNat (0x80 + n / 0x40 % 0x40),
      UInt8.ofNat (0x80 + n % 0x40)]
  else
    [UInt8.ofNat (0xF0 + n / 0x40000), UInt8.ofNat (0x80 + n / 0x1000 % 0x40),
      UInt8.ofNat (0x80 + n / 0x40 % 0x40), UInt8.ofNat (0x80 + n % 0x40)]

/-- The bytes of a list of characters. -/
def encode (cs : List Char) : List UInt8 :=
  cs.flatMap encodeChar

/-! ### What stands at the head of a list of bytes -/

/-- The bytes that continue a character. -/
def isTail (b : UInt8) : Bool :=
  0x80 ≤ b && b < 0xC0

/-- The bytes that may follow the first byte of a character of three or four bytes. The limits keep
out overlong forms, surrogates and code points past the last one. -/
def isSecond (first b : UInt8) : Bool :=
  if first == 0xE0 then 0xA0 ≤ b && b < 0xC0
  else if first == 0xED then 0x80 ≤ b && b < 0xA0
  else if first == 0xF0 then 0x90 ≤ b && b < 0xC0
  else if first == 0xF4 then 0x80 ≤ b && b < 0x90
  else isTail b

/-- The head of a non-empty list of bytes. The numbers count the bytes after the first one. -/
inductive Head where
  /-- A whole character and how many more bytes it takes. -/
  | char (c : Char) (more : Nat)
  /-- A sequence that no later byte can repair, and how many more bytes belong to it. -/
  | invalid (more : Nat)
  /-- The bytes end inside a character. -/
  | cut
  deriving DecidableEq, Repr

/-- The six bits that a continuing byte carries. -/
def tailBits (b : UInt8) : Nat :=
  b.toNat % 0x40

/-- Reads the head of the bytes `b :: rest`. -/
def head (b : UInt8) (rest : List UInt8) : Head :=
  if b < 0x80 then
    .char (Char.ofNat b.toNat) 0
  else if b < 0xC2 then
    .invalid 0
  else if b < 0xE0 then
    match rest with
    | [] => .cut
    | b₁ :: _ =>
      if isTail b₁ then .char (Char.ofNat (b.toNat % 0x20 * 0x40 + tailBits b₁)) 1 else .invalid 0
  else if b < 0xF0 then
    match rest with
    | [] => .cut
    | [b₁] => if isSecond b b₁ then .cut else .invalid 0
    | b₁ :: b₂ :: _ =>
      if !isSecond b b₁ then .invalid 0
      else if !isTail b₂ then .invalid 1
      else .char (Char.ofNat ((b.toNat % 0x10 * 0x40 + tailBits b₁) * 0x40 + tailBits b₂)) 2
  else if b < 0xF5 then
    match rest with
    | [] => .cut
    | [b₁] => if isSecond b b₁ then .cut else .invalid 0
    | [b₁, b₂] =>
      if !isSecond b b₁ then .invalid 0 else if isTail b₂ then .cut else .invalid 1
    | b₁ :: b₂ :: b₃ :: _ =>
      if !isSecond b b₁ then .invalid 0
      else if !isTail b₂ then .invalid 1
      else if !isTail b₃ then .invalid 2
      else
        .char (Char.ofNat (((b.toNat % 0x08 * 0x40 + tailBits b₁) * 0x40 + tailBits b₂) * 0x40 +
          tailBits b₃)) 3
  else
    .invalid 0

/-! ### Decoding -/

/-- Where and how bytes fail to be text. -/
structure Malformed where
  /-- The number of well-formed bytes before the sequence. -/
  index : Nat
  /-- The number of bytes of an invalid sequence; `none` if the bytes end inside a character. -/
  length : Option Nat
  deriving DecidableEq, Repr

/-- The wording of a malformed sequence. -/
def Malformed.message (m : Malformed) : String :=
  match m.length with
  | some n => s!"invalid utf-8 sequence of {n} bytes from index {m.index}"
  | none => s!"incomplete utf-8 byte sequence from index {m.index}"

/-- Decodes the bytes that stand at `index` of a longer list. -/
def decodeFrom (index : Nat) : List UInt8 → Except Malformed (List Char)
  | [] => .ok []
  | b :: rest =>
    match head b rest with
    | .char c more => (decodeFrom (index + more + 1) (rest.drop more)).map (c :: ·)
    | .invalid more => .error ⟨index, some (more + 1)⟩
    | .cut => .error ⟨index, none⟩
termination_by bs => bs.length
decreasing_by simp only [List.length_drop, List.length_cons]; omega

/-- The text of well-formed bytes, or the first malformed sequence. -/
def decode (bs : List UInt8) : Except Malformed (List Char) :=
  decodeFrom 0 bs

/-- The text of well-formed bytes. -/
def decode? (bs : List UInt8) : Option (List Char) :=
  (decode bs).toOption

/-- The replacement character. -/
def replacement : Char := '\uFFFD'

/-- The text of any bytes, with one replacement character for each malformed sequence. -/
def decodeLossy : List UInt8 → List Char
  | [] => []
  | b :: rest =>
    match head b rest with
    | .char c more => c :: decodeLossy (rest.drop more)
    | .invalid more => replacement :: decodeLossy (rest.drop more)
    | .cut => [replacement]
termination_by bs => bs.length
decreasing_by all_goals simp only [List.length_drop, List.length_cons]; omega

/-- The bytes of a string. -/
def ofString (s : String) : List UInt8 :=
  encode s.toList

end ImagePush.Text.Utf8
