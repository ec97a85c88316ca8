import ImagePush.Json.Token

/-!
# Reading JSON text

`items` and `members` walk through an array and an object and leave each item and member to their
caller, so that generic values (`readValue`), values that are passed over (`passValue`) and records
share them. Values may be nested 127 deep; what is passed over may be nested without limit.
-/

namespace ImagePush.Json

/-! ### Arrays and objects -/

/-- Reading and passing over differ in how a key is taken and in the faults behind a comma. -/
structure Manner (κ : Type) where
  /-- Takes a key behind its opening quote. -/
  key : List Char → Reading κ
  /-- A bracket behind a comma. -/
  bracketAfterComma : Cause
  /-- A brace behind a comma. -/
  braceAfterComma : Cause
  /-- The end of the text behind a comma between members. -/
  endAfterComma : Cause

/-- The manner of reading. -/
def reading : Manner String := ⟨readString, .trailingComma, .trailingComma, .endInValue⟩

/-- How the strings and the numbers of a value are passed over. -/
structure Scalars where
  /-- Passes over a string behind its opening quote. -/
  string : List Char → Except Fault (List Char)
  /-- Passes over a number behind its sign. -/
  number : List Char → Except Fault (List Char)

/-- Strings and numbers of JSON. -/
def scalars : Scalars := ⟨passString, passNumber⟩

/-- The manner of passing over. -/
def passing (leaves : Scalars) : Manner Unit :=
  ⟨fun s => (leaves.string s).map (() , ·), .expectedValue, .keyNotString, .endInObject⟩

section

variable {κ α σ : Type}

/-- Reads the items of an array behind an item; `acc` holds the items so far, the last one first, and
`fuel` bounds those to come. -/
def moreItems (m : Manner κ) (item : List Char → Reading α) :
    Nat → List α → List Char → Reading (List α)
  | 0, _, s => faultHere .endInList s
  | fuel + 1, acc, s =>
    match skipBlanks s with
    | [] => faultHere .endInList []
    | c :: r =>
      if c = ']' then .ok (acc.reverse, r)
      else if c = ',' then
        match skipBlanks r with
        | [] => faultHere .endInValue []
        | d :: t =>
          if d = ']' then faultNext m.bracketAfterComma (d :: t)
          else match item (d :: t) with
            | .ok (v, s) => moreItems m item fuel (v :: acc) s
            | .error f => .error f
      else faultNext .expectedCommaOrBracket (c :: r)

/-- Reads an array behind its opening bracket. -/
def items (m : Manner κ) (item : List Char → Reading α) (s : List Char) : Reading (List α) :=
  match skipBlanks s with
  | [] => faultHere .endInList []
  | c :: r =>
    if c = ']' then .ok ([], r)
    else match item (c :: r) with
      | .ok (v, s) => moreItems m item (s.length + 1) [v] s
      | .error f => .error f

/-- Reads the members of an object behind a member; `fuel` bounds those to come. `member` takes the
state so far, the key, and the input behind the key. -/
def moreMembers (m : Manner κ) (member : σ → κ → List Char → Reading σ) :
    Nat → σ → List Char → Reading σ
  | 0, _, s => faultHere .endInObject s
  | fuel + 1, state, s =>
    match skipBlanks s with
    | [] => faultHere .endInObject []
    | c :: r =>
      if c = '\x7d' then .ok (state, r)
      else if c = ',' then
        match skipBlanks r with
        | [] => faultHere m.endAfterComma []
        | d :: t =>
          if d = '"' then
            match m.key t with
            | .error f => .error f
            | .ok (key, s) =>
              match member state key s with
              | .ok (state, s) => moreMembers m member fuel state s
              | .error f => .error f
          else if d = '\x7d' then faultNext m.braceAfterComma (d :: t)
          else faultNext .keyNotString (d :: t)
      else faultNext .expectedCommaOrBrace (c :: r)

/-- Reads an object behind its opening brace, starting from a state. -/
def members (m : Manner κ) (member : σ → κ → List Char → Reading σ) (state : σ) (s : List Char) :
    Reading σ :=
  match skipBlanks s with
  | [] => faultHere .endInObject []
  | c :: r =>
    if c = '\x7d' then .ok (state, r)
    else if c = '"' then
      match m.key r with
      | .error f => .error f
      | .ok (key, s) =>
        match member state key s with
        | .ok (state, s) => moreMembers m member (s.length + 1) state s
        | .error f => .error f
    else faultNext .keyNotString (c :: r)

end

/-- Passes over the colon between a key and its value. -/
def colon (s : List Char) : Except Fault (List Char) :=
  match skipBlanks s with
  | [] => faultHere .endInObject []
  | c :: r => if c = ':' then .ok r else faultNext .expectedColon (c :: r)

/-! ### Values -/

/-- Reads a value that may nest `depth` deep. -/
def readValue (depth : Nat) (s : List Char) : Reading Json :=
  match skipBlanks s with
  | [] => faultHere .endInValue []
  | c :: r =>
    if c = 'n' then (word ['u', 'l', 'l'] r).map (.null, ·)
    else if c = 't' then (word ['r', 'u', 'e'] r).map (.bool true, ·)
    else if c = 'f' then (word ['a', 'l', 's', 'e'] r).map (.bool false, ·)
    else if c = '"' then (readString r).map fun (t, s) => (.string t, s)
    else if c = '-' then readNumber true r
    else if c.isDigit then readNumber false (c :: r)
    else if c = '[' then
      match depth with
      | 0 => faultNext .tooDeep (c :: r)
      | depth + 1 => (items reading (readValue depth) r).map fun (vs, s) => (.array vs, s)
    else if c = '\x7b' then
      match depth with
      | 0 => faultNext .tooDeep (c :: r)
      | depth + 1 =>
        let member (acc : List (String × Json)) (key : String) (s : List Char) :=
          match colon s with
          | .error f => .error f
          | .ok s => (readValue depth s).map fun (v, s) => ((key, v) :: acc, s)
        (members reading member [] r).map fun (ms, s) => (.object ms.reverse, s)
    else faultNext .expectedValue (c :: r)

/-- Passes over a value that nests `depth` deep at most. -/
def passNested (leaves : Scalars) (depth : Nat) (s : List Char) : Reading Unit :=
  match skipBlanks s with
  | [] => faultHere .endInValue []
  | c :: r =>
    if c = 'n' then (word ['u', 'l', 'l'] r).map ((), ·)
    else if c = 't' then (word ['r', 'u', 'e'] r).map ((), ·)
    else if c = 'f' then (word ['a', 'l', 's', 'e'] r).map ((), ·)
    else if c = '"' then (leaves.string r).map ((), ·)
    else if c = '-' then (leaves.number r).map ((), ·)
    else if c.isDigit then (leaves.number (c :: r)).map ((), ·)
    else if c = '[' then
      match depth with
      | 0 => faultNext .tooDeep (c :: r)
      | depth + 1 => (items (passing leaves) (passNested leaves depth) r).map fun (_, s) => ((), s)
    else if c = '\x7b' then
      match depth with
      | 0 => faultNext .tooDeep (c :: r)
      | depth + 1 =>
        let member (_ _ : Unit) (s : List Char) :=
          match colon s with
          | .error f => .error f
          | .ok s => passNested leaves depth s
        members (passing leaves) member () r
    else faultNext .expectedValue (c :: r)

/-- Passes over a value. No text nests deeper than it is long. -/
def passValue (s : List Char) : Except Fault (List Char) :=
  (passNested scalars s.length s).map Prod.snd

/-! ### Values of a given type -/

/-- Refuses a value that is not of the expected type. A scalar is read first, since it may be faulty. -/
def refuse {α : Type} (expected : Expected) (s : List Char) : Except Fault α :=
  let found (f : Found) (s : List Char) : Except Fault α := faultHere (.wrongType f expected) s
  match s with
  | [] => faultHere .expectedValue []
  | c :: r =>
    if c = 'n' then word ['u', 'l', 'l'] r >>= found .null
    else if c = 't' then word ['r', 'u', 'e'] r >>= found (.bool true)
    else if c = 'f' then word ['a', 'l', 's', 'e'] r >>= found (.bool false)
    else if c = '"' then readString r >>= fun (t, s) => found (.string t) s
    else if c = '-' then readNumber true r >>= fun (n, s) => found n.found s
    else if c.isDigit then readNumber false (c :: r) >>= fun (n, s) => found n.found s
    else if c = '[' then found .sequence (c :: r)
    else if c = '\x7b' then found .map (c :: r)
    else faultNext .expectedValue (c :: r)

/-- Reads a string. -/
def readText (expected : Expected) (s : List Char) : Reading String :=
  match skipBlanks s with
  | [] => faultHere .endInValue []
  | c :: r => if c = '"' then readString r else refuse expected (c :: r)

/-- Reads a truth value. -/
def readBool (s : List Char) : Reading Bool :=
  match skipBlanks s with
  | [] => faultHere .endInValue []
  | c :: r =>
    if c = 't' then (word ['r', 'u', 'e'] r).map (true, ·)
    else if c = 'f' then (word ['a', 'l', 's', 'e'] r).map (false, ·)
    else refuse .boolean (c :: r)

/-- Reads an array whose items are read by `item`. -/
def readItems {α : Type} (item : List Char → Reading α) (s : List Char) : Reading (List α) :=
  match skipBlanks s with
  | [] => faultHere .endInValue []
  | c :: r => if c = '[' then items reading item r else refuse .sequence (c :: r)

/-- Reads an object whose members are read by `member`. -/
def readMembers {σ : Type} (expected : Expected) (member : σ → String → List Char → Reading σ)
    (state : σ) (s : List Char) : Reading σ :=
  match skipBlanks s with
  | [] => faultHere .endInValue []
  | c :: r => if c = '\x7b' then members reading member state r else refuse expected (c :: r)

/-- A fault of a whole record, which is noticed inside it: its place is behind the blanks to come and
the closing mark, if that follows. -/
def faultAtClose {α : Type} (close : Char) (cause : Cause) (s : List Char) : Except Fault α :=
  match skipBlanks s with
  | [] => faultHere cause []
  | c :: r => if c = close then faultHere cause r else faultHere cause (c :: r)

/-- Reads the value of a member of a record behind its key, unless the field was met before. -/
def readField {α : Type} (name : String) (met : Option α) (read : List Char → Reading α)
    (s : List Char) : Reading α :=
  if met.isSome then faultAtClose '\x7d' (.duplicateField name) s
  else
    match colon s with
    | .error f => .error f
    | .ok s => read s

/-! ### Arrays read item by item -/

/-- What comes next in an array. -/
inductive Next where
  /-- An item, which begins here. -/
  | item (s : List Char)
  /-- The end; the input behind the bracket. -/
  | close (s : List Char)

/-- Finds out what comes next in an array, at its beginning or behind an item. -/
def nextItem (atStart : Bool) (s : List Char) : Except Fault Next :=
  match skipBlanks s with
  | [] => faultHere .endInList []
  | c :: r =>
    if c = ']' then .ok (.close r)
    else if atStart then .ok (.item (c :: r))
    else if c = ',' then
      match skipBlanks r with
      | [] => faultHere .endInValue []
      | d :: t => if d = ']' then faultNext .trailingComma (d :: t) else .ok (.item (d :: t))
    else faultNext .expectedCommaOrBracket (c :: r)

/-- Passes over the end of an array that has no more items. -/
def closeArray (s : List Char) : Except Fault (List Char) :=
  match skipBlanks s with
  | [] => faultHere .endInList []
  | c :: r =>
    if c = ']' then .ok r
    else if c = ',' then
      match skipBlanks r with
      | [] => faultNext .trailingText []
      | d :: t =>
        if d = ']' then faultNext .trailingComma (d :: t) else faultNext .trailingText (d :: t)
    else faultNext .trailingText (c :: r)

/-! ### Whole texts -/

/-- The greatest depth of a text. -/
def maxDepth : Nat := 127

/-- Reads a whole text: behind the value only blanks may follow. -/
def ofText {α : Type} (read : List Char → Reading α) (text : List Char) : Except Error α :=
  let result : Except Fault α :=
    match read text with
    | .error f => .error f
    | .ok (v, s) =>
      match skipBlanks s with
      | [] => .ok v
      | c :: r => faultNext .trailingText (c :: r)
  result.mapError (Fault.locate text)

/-- The value of a whole text. -/
def parse (text : List Char) : Except Error Json :=
  ofText (readValue maxDepth) text

end ImagePush.Json
