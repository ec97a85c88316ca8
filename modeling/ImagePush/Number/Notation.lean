import ImagePush.Number.Shortest

/-!
# Notations for doubles

A notation says which of two equally near decimals is written, which decimals have all their places and
how an exponent looks. JSON text and diagnostic text differ in all three.
-/

namespace ImagePush

/-- How the digits of a number are laid out. -/
structure NumberNotation where
  /-- The lowest exponent of the first digit that is written with all places. -/
  lowest : Int
  /-- The highest such exponent. -/
  highest : Int
  /-- An exponent that is not negative carries a plus sign. -/
  plus : Bool
  /-- Which of two equally near decimals is written. -/
  tie : Shortest.Tie

namespace NumberNotation

/-- JSON text: `0.00001`, `1000000000000000.0`, `1e+16`, `1.5e-7`. -/
def json : NumberNotation := ⟨-5, 15, true, .toEven⟩

/-- Diagnostic text: `0.0001`, `1000000000000000.0`, `1e16`, `1e-5`. -/
def diagnostic : NumberNotation := ⟨-4, 15, false, .up⟩

/-- Digits with all their places, with at least one on each side of the point. The exponent is that of
the first digit. -/
def positional (digits : List Char) (exponent : Int) : List Char :=
  if exponent < 0 then
    ['0', '.'] ++ List.replicate (-exponent - 1).toNat '0' ++ digits
  else
    let whole := exponent.toNat + 1
    let fraction := digits.drop whole
    digits.take whole ++ List.replicate (whole - digits.length) '0' ++
      '.' :: (if fraction.isEmpty then ['0'] else fraction)

/-- Digits with one place before the point, and an exponent. -/
def scientific (plus : Bool) (digits : List Char) (exponent : Int) : List Char :=
  let fraction := digits.drop 1
  let sign := if exponent < 0 then ['-'] else if plus then ['+'] else []
  digits.take 1 ++ (if fraction.isEmpty then [] else '.' :: fraction) ++
    'e' :: sign ++ Nat.toDigits 10 exponent.natAbs

/-- The text of the magnitude of a finite double. -/
def magnitude (n : NumberNotation) (x : Double) : List Char :=
  if x.isZero then ['0', '.', '0']
  else
    let d := Shortest.decimal n.tie x
    let digits := Nat.toDigits 10 d.digits
    let exponent := d.exponent + digits.length - 1
    if n.lowest ≤ exponent ∧ exponent ≤ n.highest then positional digits exponent
    else scientific n.plus digits exponent

/-- The text of a finite double. -/
def finite (n : NumberNotation) (x : Double) : List Char :=
  if x.isNegative then '-' :: n.magnitude x else n.magnitude x

/-- The text of any double, for diagnostics. -/
def text (n : NumberNotation) (x : Double) : List Char :=
  if x.isNaN then ['N', 'a', 'N']
  else if x.isInfinite then (if x.isNegative then ['-', 'i', 'n', 'f'] else ['i', 'n', 'f'])
  else n.finite x

end NumberNotation

end ImagePush
