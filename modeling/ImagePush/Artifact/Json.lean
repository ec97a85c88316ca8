import ImagePush.Artifact.Basic
import ImagePush.Error
import ImagePush.StateValue.Json

/-!
# Artifacts as JSON

A record is written as an object with the members `builder_id`, `id`, `state` and, unless it is empty,
`files`. It is read from an object with these members in any order, the last two being optional and any
other member being passed over, or from an array of the four values in this order, whose last two may
be missing.
-/

namespace ImagePush.Artifact

open Json (Reading Fault faultHere)

/-! ### Writing -/

/-- The JSON value of a record. -/
def toJson (a : Artifact) : Json :=
  .object <|
    [("builder_id", .string a.builderId), ("id", .string a.id),
      ("state", .object (StateValue.toJsonMembers a.state))] ++
    if a.files.isEmpty then [] else [("files", .array (a.files.map .string))]

/-- The text of a record without blanks. -/
def compact (a : Artifact) : List Char :=
  a.toJson.compact

/-- The text of a record on several lines. -/
def pretty (a : Artifact) : List Char :=
  a.toJson.pretty

/-! ### Reading -/

/-- The name of a record in faults. -/
def recordName : String := "FileArtifact"

/-- The fields of a record that have been met so far. -/
structure Fields where
  builderId : Option String := none
  id : Option String := none
  state : Option StateMap := none
  files : Option (List String) := none

/-- The depth left for a value of the state: the record and the state take one level each. -/
def valueDepth : Nat := Json.maxDepth - 2

/-- Reads the state of a record. -/
def readState (s : List Char) : Except Fault (StateMap × List Char) := do
  let member (acc : List (String × StateValue)) (key : String) (s : List Char) :
      Reading (List (String × StateValue)) :=
    match Json.colon s with
    | .error f => .error f
    | .ok s => (Json.readValue valueDepth s).map fun (v, s) => ((key, StateValue.ofJson v) :: acc, s)
  let (pairs, s) ← Json.readMembers .map member [] s
  return (KeyMap.ofList pairs.reverse, s)

/-- Reads the files of a record. -/
def readFiles (s : List Char) : Reading (List String) :=
  Json.readItems (Json.readText .path) s

/-- Reads a member of a record behind its key. -/
def readMember (fields : Fields) (key : String) (s : List Char) :
    Except Fault (Fields × List Char) :=
  match key with
  | "builder_id" => do
    let (v, s) ← Json.readField key fields.builderId (Json.readText .string) s
    return ({ fields with builderId := some v }, s)
  | "id" => do
    let (v, s) ← Json.readField key fields.id (Json.readText .string) s
    return ({ fields with id := some v }, s)
  | "state" => do
    let (v, s) ← Json.readField key fields.state readState s
    return ({ fields with state := some v }, s)
  | "files" => do
    let (v, s) ← Json.readField key fields.files readFiles s
    return ({ fields with files := some v }, s)
  | _ => do
    let s ← Json.colon s
    let s ← Json.passValue s
    return (fields, s)

/-- The record with the fields that were met. -/
def ofFields (fields : Fields) : Except Json.Cause Artifact :=
  match fields.builderId, fields.id with
  | none, _ => .error (.missingField "builder_id")
  | _, none => .error (.missingField "id")
  | some builderId, some id =>
    .ok ⟨builderId, id, fields.state.getD [], fields.files.getD []⟩

/-- Reads a record that is written as an object. -/
def readObject (s : List Char) : Except Fault (Artifact × List Char) := do
  let (fields, s) ← Json.readMembers (.record recordName) readMember {} s
  match ofFields fields with
  | .ok a => return (a, s)
  | .error cause => faultHere cause s

/-- Reads a record behind the bracket of the array it is written as. -/
def readRow (s : List Char) : Except Fault (Artifact × List Char) := do
  match ← Json.nextItem true s with
  | .close s => faultHere (.tooShort 0 recordName 4) s
  | .item s =>
    let (builderId, s) ← Json.readText .string s
    match ← Json.nextItem false s with
    | .close s => faultHere (.tooShort 1 recordName 4) s
    | .item s =>
      let (id, s) ← Json.readText .string s
      match ← Json.nextItem false s with
      | .close s => return ({ builderId, id }, s)
      | .item s =>
        let (state, s) ← readState s
        match ← Json.nextItem false s with
        | .close s => return ({ builderId, id, state }, s)
        | .item s =>
          let (files, s) ← readFiles s
          let s ← Json.closeArray s
          return ({ builderId, id, state, files }, s)

/-- Reads a record. -/
def read (s : List Char) : Reading Artifact :=
  match Json.skipBlanks s with
  | '[' :: r => readRow r
  | s => readObject s

/-- The record that a text holds. -/
def parse (text : List Char) : Except Json.Error Artifact :=
  Json.ofText read text

/-! ### Files -/

/-- The content of the file of a record. -/
def toBytes (a : Artifact) : List UInt8 :=
  Text.Utf8.encode a.pretty

/-- The record in the content of a file. -/
def ofBytes (content : List UInt8) : Except PushError Artifact :=
  match Text.Utf8.decode? content with
  | none => .error (.io .notText)
  | some text => (parse text).mapError .text

end ImagePush.Artifact
