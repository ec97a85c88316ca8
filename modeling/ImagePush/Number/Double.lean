/-!
# Doubles

The floating-point numbers of 64 bits, held as their bit pattern so that nothing is lost, and the
exact arithmetic on them that the readers and printers of numbers need. A finite double is
`mantissa * 2 ^ exponent`; a positive ratio of naturals is rounded to the nearest double, a tie to
the even mantissa, and a result past the largest double is infinite.
-/

namespace ImagePush

/-- A floating-point number of 64 bits. -/
structure Double where
  bits : UInt64
  deriving DecidableEq, Repr, Inhabited

namespace Double

/-! ### The parts of the pattern -/

/-- The bit of the sign. -/
def signBit : Nat := 0x8000000000000000

/-- The lowest bit of the exponent, which is also the highest bit of a full mantissa. -/
def hiddenBit : Nat := 0x10000000000000

/-- The pattern without its sign. -/
def unsignedBits (x : Double) : Nat :=
  x.bits.toNat % signBit

/-- The sign bit is set. -/
def isNegative (x : Double) : Bool :=
  signBit ≤ x.bits.toNat

/-- The pattern of positive infinity. -/
def infinityBits : Nat := 0x7FF * hiddenBit

/-- Infinity of either sign. -/
def isInfinite (x : Double) : Bool :=
  x.unsignedBits == infinityBits

/-- Not a number. -/
def isNaN (x : Double) : Bool :=
  infinityBits < x.unsignedBits

/-- A number that is not infinite. -/
def isFinite (x : Double) : Bool :=
  x.unsignedBits < infinityBits

/-- Zero of either sign. -/
def isZero (x : Double) : Bool :=
  x.unsignedBits == 0

/-- The whole factor of a finite double. -/
def mantissa (x : Double) : Nat :=
  if x.unsignedBits < hiddenBit then x.unsignedBits else hiddenBit + x.unsignedBits % hiddenBit

/-- The power of two of a finite double. -/
def exponent (x : Double) : Int :=
  if x.unsignedBits < hiddenBit then -1074 else (x.unsignedBits / hiddenBit : Nat) - 1075

/-- Equality of numbers: a NaN differs from everything, and the two zeros are equal. -/
def same (x y : Double) : Bool :=
  !x.isNaN && !y.isNaN && (x.bits == y.bits || (x.isZero && y.isZero))

/-- The magnitude of the first is less than that of the second; neither is a NaN. -/
def isBelow (x y : Double) : Bool :=
  x.unsignedBits < y.unsignedBits

/-! ### Rounding -/

/-- The quotient rounded to the nearest natural, a tie to the even one. -/
def divideToEven (num den : Nat) : Nat :=
  let q := num / den
  let r := 2 * (num % den)
  if r < den then q else if den < r then q + 1 else q + q % 2

/-- `num / den * 2 ^ (-q)` as a ratio. -/
def shifted (num den : Nat) (q : Int) : Nat × Nat :=
  if 0 ≤ q then (num, den <<< q.toNat) else (num <<< (-q).toNat, den)

/-- The power of two whose multiples are the doubles around `num / den`. -/
def gridExponent (num den : Nat) : Int :=
  let q := (num.log2 : Int) - den.log2 - 52
  let (n, d) := shifted num den q
  max (-1074) (if n < hiddenBit * d then q - 1 else q)

/-- The unsigned pattern of the double nearest to `num / den`. -/
def patternOfRatio (num den : Nat) : Nat :=
  let q := gridExponent num den
  let (n, d) := shifted num den q
  min infinityBits (divideToEven n d + (q + 1074).toNat * hiddenBit)

/-- The double nearest to the ratio `num / den`, with the given sign. -/
def ofRatio (negative : Bool) (num den : Nat) : Double :=
  let pattern := if num = 0 then 0 else patternOfRatio num den
  ⟨UInt64.ofNat (if negative then signBit + pattern else pattern)⟩

/-- The double nearest to a natural number. -/
def ofNat (n : Nat) : Double :=
  ofRatio false n 1

/-- The magnitude of a finite double as a ratio. -/
def toRatio (x : Double) : Nat × Nat :=
  if 0 ≤ x.exponent then (x.mantissa <<< x.exponent.toNat, 1)
  else (x.mantissa, 1 <<< (-x.exponent).toNat)

/-- The number with its sign turned. -/
def neg (x : Double) : Double :=
  ⟨x.bits ^^^ 0x8000000000000000⟩

/-- The rounded sum of the magnitudes of two finite doubles. -/
def add (x y : Double) : Double :=
  let (a, b) := x.toRatio
  let (c, d) := y.toRatio
  ofRatio false (a * d + c * b) (b * d)

/-- The rounded product of the magnitudes of two finite doubles. -/
def multiply (x y : Double) : Double :=
  let (a, b) := x.toRatio
  let (c, d) := y.toRatio
  ofRatio false (a * c) (b * d)

/-- The rounded quotient of the magnitudes of a finite double and one that is not zero. -/
def divide (x y : Double) : Double :=
  let (a, b) := x.toRatio
  let (c, d) := y.toRatio
  ofRatio false (a * d) (b * c)

/-- The double nearest to a power of ten. -/
def powerOfTen (n : Nat) : Double :=
  ofNat (Nat.pow 10 n)

end Double

end ImagePush
