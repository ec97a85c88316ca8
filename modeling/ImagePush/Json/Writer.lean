import ImagePush.Json.Fault

/-!
# Writing JSON text

Two layouts of one value: `compact` has no blanks, `pretty` puts each item and member on a line of its
own, indented by two blanks for each level. Quotes, backslashes and controls are escaped, nothing else.
A double that is not finite is written as `null`.
-/

namespace ImagePush.Json

/-! ### Scalars -/

/-- One character of a string. -/
def escapeChar (c : Char) : List Char :=
  if c = '"' then ['\\', '"']
  else if c = '\\' then ['\\', '\\']
  else if c = '\x08' then ['\\', 'b']
  else if c = '\x0c' then ['\\', 'f']
  else if c = '\n' then ['\\', 'n']
  else if c = '\r' then ['\\', 'r']
  else if c = '\t' then ['\\', 't']
  else if c.toNat < 0x20 then
    ['\\', 'u', '0', '0', Nat.digitChar (c.toNat / 16), Nat.digitChar (c.toNat % 16)]
  else [c]

/-- A string in quotes. -/
def quote (s : String) : List Char :=
  '"' :: s.toList.flatMap escapeChar ++ ['"']

/-- A whole number. -/
def intText (n : Int) : List Char :=
  if n < 0 then '-' :: Nat.toDigits 10 n.natAbs else Nat.toDigits 10 n.natAbs

/-- The word for a truth value. -/
def boolText (b : Bool) : List Char :=
  if b then ['t', 'r', 'u', 'e'] else ['f', 'a', 'l', 's', 'e']

/-- The word for nothing. -/
def nullText : List Char := ['n', 'u', 'l', 'l']

/-- A double. -/
def floatText (x : Double) : List Char :=
  if x.isFinite then NumberNotation.json.finite x else nullText

/-! ### Values -/

mutual

/-- The text of a value without blanks. -/
def compact : Json → List Char
  | null => nullText
  | bool b => boolText b
  | int n => intText n
  | float x => floatText x
  | string s => quote s
  | array [] => ['[', ']']
  | array (v :: vs) => '[' :: compact v ++ compactItems vs
  | object [] => ['\x7b', '\x7d']
  | object ((k, v) :: ms) => '\x7b' :: quote k ++ ':' :: compact v ++ compactMembers ms

/-- The items of an array behind the first one, and the bracket. -/
def compactItems : List Json → List Char
  | [] => [']']
  | v :: vs => ',' :: compact v ++ compactItems vs

/-- The members of an object behind the first one, and the brace. -/
def compactMembers : List (String × Json) → List Char
  | [] => ['\x7d']
  | (k, v) :: ms => ',' :: quote k ++ ':' :: compact v ++ compactMembers ms

end

/-- A new line at a level of nesting. -/
def newLine (level : Nat) : List Char :=
  '\n' :: List.replicate (2 * level) ' '

mutual

/-- The text of a value on several lines, which stands at a level of nesting. -/
def prettyAt (level : Nat) : Json → List Char
  | null => nullText
  | bool b => boolText b
  | int n => intText n
  | float x => floatText x
  | string s => quote s
  | array [] => ['[', ']']
  | array (v :: vs) =>
    '[' :: newLine (level + 1) ++ prettyAt (level + 1) v ++ prettyItems level vs
  | object [] => ['\x7b', '\x7d']
  | object ((k, v) :: ms) =>
    '\x7b' :: newLine (level + 1) ++ quote k ++ ':' :: ' ' :: prettyAt (level + 1) v ++
      prettyMembers level ms

/-- The items of an array behind the first one, and the bracket. -/
def prettyItems (level : Nat) : List Json → List Char
  | [] => newLine level ++ [']']
  | v :: vs => ',' :: newLine (level + 1) ++ prettyAt (level + 1) v ++ prettyItems level vs

/-- The members of an object behind the first one, and the brace. -/
def prettyMembers (level : Nat) : List (String × Json) → List Char
  | [] => newLine level ++ ['\x7d']
  | (k, v) :: ms =>
    ',' :: newLine (level + 1) ++ quote k ++ ':' :: ' ' :: prettyAt (level + 1) v ++
      prettyMembers level ms

end

/-- The text of a value on several lines. -/
def pretty (v : Json) : List Char :=
  prettyAt 0 v

end ImagePush.Json
