/-!
# Base64

The standard alphabet with padding. `encode` writes groups of four symbols for three bytes and fills the
last group with `=`; `decode` accepts exactly what `encode` writes, so that no two texts stand for the
same bytes, and otherwise says which symbol is wrong.
-/

namespace ImagePush.Text.Base64

/-- The symbol for a value of six bits. -/
def symbol (n : Nat) : UInt8 :=
  if n < 26 then UInt8.ofNat (0x41 + n)
  else if n < 52 then UInt8.ofNat (0x61 + (n - 26))
  else if n < 62 then UInt8.ofNat (0x30 + (n - 52))
  else if n = 62 then 0x2B
  else 0x2F

/-- The six bits of a symbol. -/
def value? (b : UInt8) : Option Nat :=
  let n := b.toNat
  if 0x41 ≤ n ∧ n ≤ 0x5A then some (n - 0x41)
  else if 0x61 ≤ n ∧ n ≤ 0x7A then some (n - 0x61 + 26)
  else if 0x30 ≤ n ∧ n ≤ 0x39 then some (n - 0x30 + 52)
  else if n = 0x2B then some 62
  else if n = 0x2F then some 63
  else none

/-- The padding symbol `=`. -/
def pad : UInt8 := 0x3D

/-- The padded encoding of bytes. -/
def encode : List UInt8 → List UInt8
  | [] => []
  | [a] => [symbol (a.toNat / 4), symbol (a.toNat % 4 * 16), pad, pad]
  | [a, b] =>
    [symbol (a.toNat / 4), symbol (a.toNat % 4 * 16 + b.toNat / 16), symbol (b.toNat % 16 * 4), pad]
  | a :: b :: c :: rest =>
    symbol (a.toNat / 4) :: symbol (a.toNat % 4 * 16 + b.toNat / 16) ::
      symbol (b.toNat % 16 * 4 + c.toNat / 64) :: symbol (c.toNat % 64) :: encode rest

/-- Why a text is not the encoding of bytes. -/
inductive Fault where
  | symbol (byte : UInt8) (offset : Nat)
  /-- The text ends behind the first symbol of a group. -/
  | length (n : Nat)
  | padding
  /-- The bits of a last symbol that no byte needs are not zero. -/
  | lastSymbol (byte : UInt8) (offset : Nat)
  deriving DecidableEq, Repr

/-- The wording of a fault. -/
def Fault.message : Fault → String
  | .symbol b i => s!"Invalid symbol {b.toNat}, offset {i}."
  | .length n => s!"Invalid input length: {n}"
  | .padding => "Invalid padding"
  | .lastSymbol b i => s!"Invalid last symbol {b.toNat}, offset {i}."

/-- The value of the symbol at an offset. -/
def valueAt (offset : Nat) (b : UInt8) : Except Fault Nat :=
  match value? b with
  | some n => .ok n
  | none => .error (.symbol b offset)

/-- The symbols of the last group in front of its padding, and the number of padding symbols. The second
argument counts the symbols already passed in the group. -/
def lastSymbols (offset : Nat) : Nat → List UInt8 → Except Fault (List Nat × Nat)
  | _, [] => .ok ([], 0)
  | i, b :: rest =>
    if b = pad then
      if i < 2 then .error (.symbol pad (offset + i))
      else if rest.all (· == pad) then .ok ([], rest.length + 1)
      else .error (.symbol pad (offset + i))
    else do
      let n ← valueAt (offset + i) b
      let (ns, pads) ← lastSymbols offset (i + 1) rest
      return (n :: ns, pads)

/-- The last bits of a symbol have to be zero. -/
def checkLast (group : List UInt8) (offset i bits : Nat) (bytes : List UInt8) :
    Except Fault (List UInt8) :=
  if bits = 0 then .ok bytes else .error (.lastSymbol (group.getD i 0) (offset + i))

/-- Decodes the last group, of four symbols at most. -/
def decodeLast (offset : Nat) (group : List UInt8) : Except Fault (List UInt8) := do
  let (ns, pads) ← lastSymbols offset 0 group
  if group.isEmpty then
    return []
  else if ns.length < 2 then
    throw (.length (offset + ns.length))
  else if ns.length + pads ≠ 4 then
    throw .padding
  else match ns with
    | [a, b] => checkLast group offset 1 (b % 16) [UInt8.ofNat (a * 4 + b / 16)]
    | [a, b, c] =>
      checkLast group offset 2 (c % 4)
        [UInt8.ofNat (a * 4 + b / 16), UInt8.ofNat (b % 16 * 16 + c / 4)]
    | [a, b, c, d] =>
      return [UInt8.ofNat (a * 4 + b / 16), UInt8.ofNat (b % 16 * 16 + c / 4),
        UInt8.ofNat (c % 4 * 64 + d)]
    | _ => return []

/-- Decodes the symbols that stand at `offset` of a longer text. -/
def decodeFrom (offset : Nat) : List UInt8 → Except Fault (List UInt8)
  | a :: b :: c :: d :: e :: rest => do
    let na ← valueAt offset a
    let nb ← valueAt (offset + 1) b
    let nc ← valueAt (offset + 2) c
    let nd ← valueAt (offset + 3) d
    let more ← decodeFrom (offset + 4) (e :: rest)
    return UInt8.ofNat (na * 4 + nb / 16) :: UInt8.ofNat (nb % 16 * 16 + nc / 4) ::
      UInt8.ofNat (nc % 4 * 64 + nd) :: more
  | group => decodeLast offset group

/-- The symbol behind the last whole group, if it is neither padding nor in the alphabet. -/
def straySymbol? (text : List UInt8) : Option UInt8 :=
  if text.length % 4 = 1 then
    text.getLast?.filter fun b => b ≠ pad ∧ value? b = none
  else none

/-- The bytes that a text encodes. A stray symbol at the end is noticed first. -/
def decode (text : List UInt8) : Except Fault (List UInt8) :=
  match straySymbol? text with
  | some b => .error (.symbol b (text.length - 1))
  | none => decodeFrom 0 text

end ImagePush.Text.Base64
