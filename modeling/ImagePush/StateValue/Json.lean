import ImagePush.Json.Reader
import ImagePush.Json.Writer
import ImagePush.StateValue.Basic

/-!
# State values as JSON

`toJson` drops the difference between the constructors that say the same thing; `ofJson` picks the most
specific constructor for a JSON value: an array of strings, also the empty one, becomes `strings`, any
other array `list`, never `entries`, and of equal keys of an object the last one counts.
-/

namespace ImagePush.StateValue

/-! ### Writing -/

mutual

/-- The JSON value of a state value. -/
def toJson : StateValue → Json
  | null => .null
  | bool b => .bool b
  | integer n => .int n.toInt
  | unsigned n => .int n.toNat
  | float x => if x.isFinite then .float x else .null
  | string s => .string s
  | strings items => .array (items.map .string)
  | list items => .array (toJsonItems items)
  | map members => .object (toJsonMembers members)
  | entries pairs => .array (toJsonPairs pairs)

/-- The JSON values of the items of a list. -/
def toJsonItems : List StateValue → List Json
  | [] => []
  | v :: vs => toJson v :: toJsonItems vs

/-- The JSON members of a map. -/
def toJsonMembers : List (String × StateValue) → List (String × Json)
  | [] => []
  | (k, v) :: ms => (k, toJson v) :: toJsonMembers ms

/-- The JSON values of pairs, each an array of two. -/
def toJsonPairs : List (StateValue × StateValue) → List Json
  | [] => []
  | (a, v) :: ps => .array [toJson a, toJson v] :: toJsonPairs ps

end

/-! ### Reading -/

/-- The strings of a list that holds nothing else. -/
def allStrings? : List StateValue → Option (List String)
  | [] => some []
  | v :: vs => do
    let s ← v.string?
    let rest ← allStrings? vs
    return s :: rest

/-- The most specific constructor for a list of values. -/
def ofItems (items : List StateValue) : StateValue :=
  match allStrings? items with
  | some texts => strings texts
  | none => list items

/-- The constructor for a whole number within the range of 64-bit integers. -/
def ofInt (n : Int) : StateValue :=
  if n < 0x8000000000000000 then integer (Int64.ofInt n) else unsigned (UInt64.ofNat n.toNat)

mutual

/-- The state value of a JSON value. -/
def ofJson : Json → StateValue
  | .null => null
  | .bool b => bool b
  | .int n => ofInt n
  | .float x => float x
  | .string s => string s
  | .array items => ofItems (ofJsonItems items)
  | .object members => map (KeyMap.ofList (ofJsonMembers members))

/-- The state values of the items of an array. -/
def ofJsonItems : List Json → List StateValue
  | [] => []
  | v :: vs => ofJson v :: ofJsonItems vs

/-- The state values of the members of an object, in the order of the text. -/
def ofJsonMembers : List (String × Json) → List (String × StateValue)
  | [] => []
  | (k, v) :: ms => (k, ofJson v) :: ofJsonMembers ms

end

/-! ### Text -/

/-- The text of a value without blanks. -/
def compact (v : StateValue) : List Char :=
  v.toJson.compact

/-- The text of a value on several lines. -/
def pretty (v : StateValue) : List Char :=
  v.toJson.pretty

/-- The value of a whole text. -/
def parse (text : List Char) : Except Json.Error StateValue :=
  (Json.parse text).map ofJson

end ImagePush.StateValue
