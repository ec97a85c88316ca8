import ImagePush.Config.Basic
import ImagePush.Json.Reader
import ImagePush.Json.Writer

/-!
# Configuration as JSON

A configuration is one flat object. Seven of its members are decoded as they are met. The members about
the cloud are read as values first, like those that are not known, and examined only behind the closing
brace. Missing members leave their setting empty.
-/

namespace ImagePush.Config

open Json (Reading faultHere)

/-! ### Writing -/

/-- The JSON value of the settings. -/
def toJson (c : Config) : Json :=
  .object
    [("docker_path", .string c.executable),
      ("login", .bool c.login),
      ("login_username", .string c.username),
      ("login_password", .string c.password),
      ("login_server", .string c.server),
      ("ecr_login", .bool c.cloudLogin),
      ("platform", .string c.platform),
      ("aws_access_key", .string c.cloud.accessKey),
      ("aws_secret_key", .string c.cloud.secretKey),
      ("aws_token", .string c.cloud.token),
      ("aws_profile", .string c.cloud.profile)]

/-- The text of the settings without blanks. -/
def compact (c : Config) : List Char :=
  c.toJson.compact

/-- The text of the settings on several lines. -/
def pretty (c : Config) : List Char :=
  c.toJson.pretty

/-! ### Reading -/

/-- The name of the settings in faults. -/
def recordName : String := "Config"

/-- The members that have been met so far. -/
structure Fields where
  executable : Option String := none
  login : Option Bool := none
  username : Option String := none
  password : Option String := none
  server : Option String := none
  cloudLogin : Option Bool := none
  platform : Option String := none
  /-- The members decoded later, the last one first. -/
  others : List (String × Json) := []

/-- Reads a member behind its key. -/
def readMember (fields : Fields) (key : String) (s : List Char) : Reading Fields :=
  let text (met : Option String) := Json.readField key met (Json.readText .string) s
  let truth (met : Option Bool) := Json.readField key met Json.readBool s
  match key with
  | "docker_path" => (text fields.executable).map fun (v, s) => ({ fields with executable := some v }, s)
  | "login" => (truth fields.login).map fun (v, s) => ({ fields with login := some v }, s)
  | "login_username" => (text fields.username).map fun (v, s) => ({ fields with username := some v }, s)
  | "login_password" => (text fields.password).map fun (v, s) => ({ fields with password := some v }, s)
  | "login_server" => (text fields.server).map fun (v, s) => ({ fields with server := some v }, s)
  | "ecr_login" => (truth fields.cloudLogin).map fun (v, s) => ({ fields with cloudLogin := some v }, s)
  | "platform" => (text fields.platform).map fun (v, s) => ({ fields with platform := some v }, s)
  | _ =>
    match Json.colon s with
    | .error f => .error f
    | .ok s =>
      (Json.readValue (Json.maxDepth - 1) s).map fun (v, s) =>
        ({ fields with others := (key, v) :: fields.others }, s)

/-- The settings about the cloud that have been examined so far. -/
structure CloudFields where
  accessKey : Option String := none
  secretKey : Option String := none
  token : Option String := none
  profile : Option String := none

/-- Examines the value of a member, unless the member was met before. -/
def examine (name : String) (met : Option String) (v : Json) : Except Json.Cause (Option String) :=
  if met.isSome then .error (.duplicateField name)
  else
    match v with
    | .string text => .ok (some text)
    | v => .error (.wrongType v.found .string)

/-- Examines one of the members decoded later; only those about the cloud count. -/
def examineMember (fields : CloudFields) : String × Json → Except Json.Cause CloudFields
  | (key, v) =>
    match key with
    | "aws_access_key" => (examine key fields.accessKey v).map fun t => { fields with accessKey := t }
    | "aws_secret_key" => (examine key fields.secretKey v).map fun t => { fields with secretKey := t }
    | "aws_token" => (examine key fields.token v).map fun t => { fields with token := t }
    | "aws_profile" => (examine key fields.profile v).map fun t => { fields with profile := t }
    | _ => .ok fields

/-- Examines members in their order. -/
def examineAll (fields : CloudFields) : List (String × Json) → Except Json.Cause CloudFields
  | [] => .ok fields
  | m :: ms =>
    match examineMember fields m with
    | .error cause => .error cause
    | .ok fields => examineAll fields ms

/-- The access to the cloud with the settings that were met. -/
def CloudFields.access (fields : CloudFields) : CloudAccess where
  accessKey := fields.accessKey.getD ""
  secretKey := fields.secretKey.getD ""
  token := fields.token.getD ""
  profile := fields.profile.getD ""

/-- The settings with the members that were met. -/
def ofFields (fields : Fields) : Except Json.Cause Config :=
  (examineAll {} fields.others.reverse).map fun cloud =>
    { executable := fields.executable.getD ""
      login := fields.login.getD false
      username := fields.username.getD ""
      password := fields.password.getD ""
      server := fields.server.getD ""
      cloudLogin := fields.cloudLogin.getD false
      platform := fields.platform.getD ""
      cloud := cloud.access }

/-- Reads the settings. -/
def read (s : List Char) : Reading Config :=
  match Json.readMembers (.record recordName) readMember {} s with
  | .error f => .error f
  | .ok (fields, s) =>
    match ofFields fields with
    | .ok c => .ok (c, s)
    | .error cause => faultHere cause s

/-- The settings that a text holds. -/
def parse (text : List Char) : Except Json.Error Config :=
  Json.ofText read text

/-- The settings in the content of a file. -/
def ofBytes (content : List UInt8) : Except PushError Config :=
  match Text.Utf8.decode? content with
  | none => .error (.io .notText)
  | some text => (parse text).mapError .text

end ImagePush.Config
