import ImagePush.Number.Double

/-!
# Shortest decimals

The fewest decimal digits that read back as a given double, and of those the nearest to it. The reals
that round to a double form an interval, with its ends iff the mantissa is even. `Shortest.decimal`
walks the decimal grids from one digit to seventeen and takes the first one on which a neighbour of
the double lies in the interval. A double in the middle of two decimals is the one case that needs a
rule of its own.
-/

namespace ImagePush.Shortest

/-- The decimal `digits * 10 ^ exponent`. -/
structure Decimal where
  digits : Nat
  exponent : Int
  deriving DecidableEq, Repr

/-- Which of two equally near decimals is taken. -/
inductive Tie where
  /-- The one with an even last digit. -/
  | toEven
  /-- The greater one. -/
  | up
  deriving DecidableEq, Repr

/-- The interval of reals that round to a positive double, over a common denominator. -/
structure Interval where
  low : Nat
  value : Nat
  high : Nat
  denominator : Nat
  closed : Bool

/-- The interval around a positive finite double. Below a power of two the neighbour is nearer. -/
def interval (x : Double) : Interval :=
  let m := x.mantissa
  let q := x.exponent - 2
  let below := if m = Double.hiddenBit ∧ -1074 < x.exponent then 1 else 2
  let up := if 0 ≤ q then 1 <<< q.toNat else 1
  let den := if 0 ≤ q then 1 else 1 <<< (-q).toNat
  ⟨(4 * m - below) * up, 4 * m * up, (4 * m + 2) * up, den, m % 2 == 0⟩

/-- The number of decimal digits of a natural; zero has none. -/
def digitCount (n : Nat) : Nat :=
  if n = 0 then 0 else (Nat.toDigits 10 n).length

/-- The exponent of the first digit of `num / den`. -/
def firstExponent (num den : Nat) : Int :=
  if den ≤ num then digitCount (num / den) - 1
  else -digitCount ((den + num - 1) / num - 1)

/-- `c * 10 ^ e` as a ratio with denominator `den`, both times the same power of ten as `n`. -/
def onGrid (c : Nat) (e : Int) (den n : Nat) : Nat × Nat :=
  if 0 ≤ e then (c * Nat.pow 10 e.toNat * den, n) else (c * den, n * Nat.pow 10 (-e).toNat)

/-- The point `c * 10 ^ e` lies in the interval. -/
def Interval.contains (i : Interval) (c : Nat) (e : Int) : Bool :=
  let (p, low) := onGrid c e i.denominator i.low
  let (_, high) := onGrid c e i.denominator i.high
  if i.closed then low ≤ p && p ≤ high else low < p && p < high

/-- The lower of two equally near decimals is taken, if it has `c` in its last place. -/
def Tie.takesLower (t : Tie) (c : Nat) : Bool :=
  match t with
  | toEven => c % 2 == 0
  | up => false

/-- The point `c * 10 ^ e` is taken before the next one: it is nearer to the value, or as near and the
tie goes to it. -/
def Interval.prefersLower (i : Interval) (t : Tie) (c : Nat) (e : Int) : Bool :=
  let (p, v) := onGrid (2 * c + 1) e i.denominator (2 * i.value)
  v < p || (v == p && t.takesLower c)

/-- The neighbour of the value on the grid `10 ^ e` that lies in the interval. -/
def Interval.hit? (i : Interval) (t : Tie) (e : Int) : Option Nat :=
  let c := if 0 ≤ e then i.value / (i.denominator * Nat.pow 10 e.toNat)
    else i.value * Nat.pow 10 (-e).toNat / i.denominator
  match i.contains c e, i.contains (c + 1) e with
  | true, true => some (if i.prefersLower t c e then c else c + 1)
  | true, false => some c
  | false, true => some (c + 1)
  | false, false => none

/-- The decimal without zeros at its end; `fuel` bounds their number. -/
def dropZeros : Nat → Decimal → Decimal
  | 0, d => d
  | fuel + 1, d =>
    if d.digits % 10 = 0 ∧ d.digits ≠ 0 then dropZeros fuel ⟨d.digits / 10, d.exponent + 1⟩ else d

/-- The first grid with a hit, from the exponent `e` downwards. -/
def search (i : Interval) (t : Tie) : Nat → Int → Decimal
  | 0, e => ⟨i.value / i.denominator, e⟩
  | fuel + 1, e =>
    match i.hit? t e with
    | some c => dropZeros 20 ⟨c, e⟩
    | none => search i t fuel (e - 1)

/-- The shortest decimal that reads back as the magnitude of a finite double that is not zero. -/
def decimal (t : Tie) (x : Double) : Decimal :=
  let i := interval x
  search i t 17 (firstExponent i.value i.denominator)

end ImagePush.Shortest
