import ImagePush.Text.Base64
import ImagePush.Text.Blank
import ImagePush.Text.Diagnostic
import ImagePush.Text.Search
import ImagePush.Text.Utf8

/-!
# Registry credentials

A user name and a password for a registry login, and the token that carries both: the Base64 encoding of
`<user>:<password>`. The user name ends at the first colon.
-/

namespace ImagePush.Registry

/-- What a registry login takes. -/
structure Credentials where
  username : String
  password : String
  deriving DecidableEq, Repr

/-- Credentials in diagnostics: the password is never shown. -/
def Credentials.diagnostic (c : Credentials) : String :=
  Text.record "RegistryCredentials"
    [("username", Text.quoted c.username), ("password", Text.quoted Text.redacted)]

/-- Why a token carries no credentials. -/
inductive TokenFault where
  | encoding (fault : Text.Base64.Fault)
  | notText (fault : Text.Utf8.Malformed)
  | noSeparator
  deriving DecidableEq, Repr

/-- The wording of a fault. -/
def TokenFault.message : TokenFault → String
  | .encoding f => f.message
  | .notText f => f.message
  | .noSeparator => "missing ':' separator"

/-- The token that carries credentials. -/
def Credentials.token (c : Credentials) : List Char :=
  (Text.Base64.encode (Text.Utf8.encode (c.username.toList ++ ':' :: c.password.toList))).map
    fun b => Char.ofNat b.toNat

/-- The credentials that a token carries; blanks around the token do not count. -/
def Credentials.ofToken (token : String) : Except TokenFault Credentials := do
  let bytes ← (Text.Base64.decode (Text.Utf8.encode (Text.trimChars token.toList))).mapError .encoding
  let text ← (Text.Utf8.decode bytes).mapError .notText
  match Text.splitFirst [':'] text with
  | some (username, password) => return ⟨String.ofList username, String.ofList password⟩
  | none => throw .noSeparator

end ImagePush.Registry
