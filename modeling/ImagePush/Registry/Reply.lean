import ImagePush.Error
import ImagePush.Json.Loose

/-!
# What the service answers

The answer to a request for credentials is an object with a list of items, each of which may hold a token.
Members are read as they are met: a member that is met again replaces the earlier one, and a fault in the
earlier one counts all the same. Members that are not known are passed over.
-/

namespace ImagePush.Registry

/-- An answer of the service. -/
structure Reply where
  status : Nat
  body : String
  deriving Repr

/-- Whether an answer reports success. -/
def Reply.succeeded (r : Reply) : Bool :=
  200 ≤ r.status && r.status < 300

/-- The status of an answer that has no content. -/
def noContent : Nat := 204

/-- The text of an answer. Without content it is empty, whatever is sent behind it. -/
def Reply.content (r : Reply) : String :=
  if r.status = noContent then "" else r.body

/-- Reads the value of a member of an item; `token` is the token met so far. -/
def readItemMember (token : Option String) (key : String) (s : List Char) : Json.Reading (Option String) :=
  match key with
  | "authorizationToken" => Json.Loose.readText s
  | "expiresAt" => (Json.Loose.passNumberValue s).map (token, ·)
  | "proxyEndpoint" => (Json.Loose.readText s).map fun (_, s) => (token, s)
  | _ => (Json.Loose.passValue s).map (token, ·)

/-- Reads an item: the token in it. -/
def readItem (s : List Char) : Json.Reading (Option String) :=
  Json.Loose.readMembers readItemMember none s

/-- Reads the value of a member of an answer; `tokens` are the tokens met so far. -/
def readReplyMember (tokens : List (Option String)) (key : String) (s : List Char) :
    Json.Reading (List (Option String)) :=
  match key with
  | "authorizationData" => Json.Loose.readItems readItem s
  | _ => (Json.Loose.passValue s).map (tokens, ·)

/-- The tokens in the items of a text. An empty text stands for an empty object. -/
def tokensOf (text : String) : Except Fault (List (Option String)) :=
  if text.isEmpty then .ok []
  else
    match Json.ofText (Json.Loose.readMembers readReplyMember []) text.toList with
    | .ok tokens => .ok tokens
    | .error _ => .error .service

/-- The token in an answer to a request for an account: that of the first item. -/
def Reply.token (accountId : String) (r : Reply) : Except Fault String :=
  if !r.succeeded then .error .service
  else
    match tokensOf r.content with
    | .error f => .error f
    | .ok (some token :: _) => .ok token
    | .ok _ => .error (.noToken accountId)

end ImagePush.Registry
