import ImagePush.KeyMap
import ImagePush.Number.Notation
import ImagePush.Text.Quoted

/-!
# State values

The loosely typed values that the steps of an image build hand on to each other. Some constructors say
the same thing with more or less type left: `strings` is a list known to hold strings only, `entries` a
map whose keys are values. The pairs of `map` are in increasing order of the keys.
-/

namespace ImagePush

/-- A value in the state of an artifact. -/
inductive StateValue where
  | null
  | bool (b : Bool)
  | integer (n : Int64)
  /-- A natural number, meant for those past the signed range. -/
  | unsigned (n : UInt64)
  | float (x : Double)
  | string (s : String)
  | strings (items : List String)
  | list (items : List StateValue)
  | map (members : List (String × StateValue))
  | entries (pairs : List (StateValue × StateValue))
  deriving Repr, Inhabited

/-- The named values that an artifact carries. -/
abbrev StateMap := KeyMap StateValue

namespace StateValue

/-- The text of a string. -/
def string? : StateValue → Option String
  | string s => some s
  | _ => none

/-! ### Equality -/

mutual

/-- Equality of values. It is that of the constructors, except that doubles are compared as numbers. -/
def same : StateValue → StateValue → Bool
  | null, null => true
  | bool a, bool b => a == b
  | integer a, integer b => a == b
  | unsigned a, unsigned b => a == b
  | float a, float b => a.same b
  | string a, string b => a == b
  | strings a, strings b => a == b
  | list a, list b => sameItems a b
  | map a, map b => sameMembers a b
  | entries a, entries b => samePairs a b
  | _, _ => false

/-- Equality of lists of values. -/
def sameItems : List StateValue → List StateValue → Bool
  | [], [] => true
  | v :: vs, w :: ws => same v w && sameItems vs ws
  | _, _ => false

/-- Equality of maps. -/
def sameMembers : List (String × StateValue) → List (String × StateValue) → Bool
  | [], [] => true
  | (k, v) :: ms, (j, w) :: ns => k == j && same v w && sameMembers ms ns
  | _, _ => false

/-- Equality of lists of pairs. -/
def samePairs : List (StateValue × StateValue) → List (StateValue × StateValue) → Bool
  | [], [] => true
  | (a, v) :: ps, (b, w) :: qs => same a b && same v w && samePairs ps qs
  | _, _ => false

end

end StateValue

end ImagePush
