/-!
# Searching in text

Cutting a list at the first or at the last place where another list occurs in it, and at its ends.
-/

namespace ImagePush.Text

variable {α : Type} [BEq α]

/-- The parts before and behind the first occurrence of `sep`. -/
def splitFirst (sep : List α) : List α → Option (List α × List α)
  | [] => if sep.isEmpty then some ([], []) else none
  | c :: rest =>
    if sep.isPrefixOf (c :: rest) then some ([], (c :: rest).drop sep.length)
    else (splitFirst sep rest).map fun (before, behind) => (c :: before, behind)

/-- The parts before and behind the last occurrence of `sep`. -/
def splitLast (sep : List α) : List α → Option (List α × List α)
  | [] => if sep.isEmpty then some ([], []) else none
  | c :: rest =>
    match splitLast sep rest with
    | some (before, behind) => some (c :: before, behind)
    | none =>
      if sep.isPrefixOf (c :: rest) then some ([], (c :: rest).drop sep.length) else none

/-- The rest behind `front`, if the list begins with it. -/
def dropFront? (front : List α) (s : List α) : Option (List α) :=
  if front.isPrefixOf s then some (s.drop front.length) else none

/-- The list without `last`, if it ends with it. -/
def dropBack (last : α) (s : List α) : List α :=
  if s.getLast? == some last then s.dropLast else s

end ImagePush.Text
