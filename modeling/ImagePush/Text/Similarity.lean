import ImagePush.Number.Double

/-!
# Similarity of texts

The Jaro similarity of two lists. Two elements match if they are equal and stand about as far from the
front; the similarity is the mean of the share of matches in each list and of the share of matches that
keep their order. Each step of the mean is rounded to a double, so that a similarity that is exactly at a
bound may come out above it.
-/

namespace ImagePush.Text.Similarity

variable {α : Type} [BEq α]

/-- The first position between `low` and `high` that holds `x` and has not been used. The list begins at
position `i`. -/
def findUnused (x : α) (low high : Nat) (used : List Nat) (i : Nat) : List α → Option Nat
  | [] => none
  | y :: ys =>
    if low ≤ i ∧ i < high ∧ (x == y) = true ∧ !used.contains i then some i
    else findUnused x low high used (i + 1) ys

/-- Matches the elements of a list that begins at position `i` with those of `ys`, no farther than `range`
away. Gives the elements that found a match and the positions that they used. -/
def pairUp (range : Nat) (ys : List α) (used : List Nat) (i : Nat) : List α → List α × List Nat
  | [] => ([], used)
  | x :: xs =>
    match findUnused x (i - range) (i + range + 1) used 0 ys with
    | none => pairUp range ys used (i + 1) xs
    | some j =>
      let (matched, used) := pairUp range ys (j :: used) (i + 1) xs
      (x :: matched, used)

/-- The elements of a list at the given positions, in the order of the list, which begins at `i`. -/
def pick (positions : List Nat) (i : Nat) : List α → List α
  | [] => []
  | y :: ys =>
    if positions.contains i then y :: pick positions (i + 1) ys else pick positions (i + 1) ys

/-- The number of places where two lists differ. -/
def differences (xs ys : List α) : Nat :=
  (xs.zip ys).countP fun (x, y) => !(x == y)

/-- The mean of three numbers, which are added from the left. -/
def mean (x y z : Double) : Double :=
  ((x.add y).add z).divide (Double.ofNat 3)

/-- The similarity of two lists: from 0, nothing in common, to 1, the same list. -/
def jaro (xs ys : List α) : Double :=
  if xs.isEmpty && ys.isEmpty then Double.ofNat 1
  else
    let (matched, used) := pairUp (max xs.length ys.length / 2 - 1) ys [] 0 xs
    let m := matched.length
    if m = 0 then Double.ofNat 0
    else
      let kept := m - differences matched (pick used 0 ys) / 2
      let share := Double.ofRatio false
      mean (share m xs.length) (share m ys.length) (share kept m)

end ImagePush.Text.Similarity
