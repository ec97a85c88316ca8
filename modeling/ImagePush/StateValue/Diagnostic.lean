import ImagePush.StateValue.Basic
import ImagePush.Text.Diagnostic

/-!
# State values in diagnostics

The text of a value for people: the name of its constructor and its parts.
-/

namespace ImagePush

namespace StateValue

mutual

/-- The text of a value in diagnostics. -/
def diagnostic : StateValue → String
  | null => "Null"
  | bool b => s!"Bool({b})"
  | integer n => s!"Integer({n.toInt})"
  | unsigned n => s!"UInteger({n.toNat})"
  | float x => "Float(" ++ String.ofList (NumberNotation.diagnostic.text x) ++ ")"
  | string s => "String(" ++ Text.quoted s ++ ")"
  | strings items => "Strings(" ++ Text.bracketed (items.map Text.quoted) ++ ")"
  | list items => "List(" ++ Text.bracketed (diagnosticItems items) ++ ")"
  | map members => "Map(" ++ Text.braced (diagnosticMembers members) ++ ")"
  | entries pairs => "Entries(" ++ Text.bracketed (diagnosticPairs pairs) ++ ")"

/-- The texts of the items of a list. -/
def diagnosticItems : List StateValue → List String
  | [] => []
  | v :: vs => diagnostic v :: diagnosticItems vs

/-- The texts of the members of a map. -/
def diagnosticMembers : List (String × StateValue) → List String
  | [] => []
  | (k, v) :: ms => (Text.quoted k ++ ": " ++ diagnostic v) :: diagnosticMembers ms

/-- The texts of pairs. -/
def diagnosticPairs : List (StateValue × StateValue) → List String
  | [] => []
  | (a, v) :: ps => ("(" ++ diagnostic a ++ ", " ++ diagnostic v ++ ")") :: diagnosticPairs ps

end

/-- The text of a state in diagnostics. -/
def diagnosticMap (state : StateMap) : String :=
  Text.braced (diagnosticMembers state)

end StateValue

end ImagePush
