import ImagePush.Config.Basic
import ImagePush.Registry.Identity

/-!
# Who signs a request

Keys that are configured sign a request; without them the environment and then a profile are tried. Access
key and token travel in the headers of the request, so that neither may hold control characters, and the
blanks around the token get lost.
-/

namespace ImagePush.Registry

/-- Where signers are found that are not configured. -/
structure Signers where
  environment : Option Signer := none
  /-- The text of the profiles. -/
  profiles : String := ""
  deriving Repr

/-- The profile that is used when none is named. -/
def defaultProfile : String := "default"

/-- A text, if it is not empty. -/
def nonempty? (s : String) : Option String :=
  if s.isEmpty then none else some s

/-- Whether a text holds nothing but blanks. -/
def isBlankText (s : String) : Bool :=
  (Text.trim s).isEmpty

/-- A signer of the environment. One with a blank key does not count, and neither does a blank token; the
blanks around the token are dropped. -/
def Signer.usable? (s : Signer) : Option Signer :=
  if isBlankText s.accessKey || isBlankText s.secretKey then none
  else some { s with token := (s.token.map Text.trim).bind nonempty? }

/-- The profiles that were found; a text that cannot be read holds none. -/
def Signers.known (found : Signers) : Profiles :=
  (Profiles.ofText? found.profiles).getD []

/-- The name of the profile that is in use. Beside keys that are configured a profile cannot be named. -/
def profileName (access : CloudAccess) : String :=
  if access.hasKeys then defaultProfile else (nonempty? access.profile).getD defaultProfile

/-- Who signs a request. -/
def identity? (access : CloudAccess) (found : Signers) : Option Identity :=
  if access.hasKeys then some (.keys ⟨access.accessKey, access.secretKey, nonempty? access.token⟩)
  else
    match found.environment.bind Signer.usable? with
    | some s => some (.keys s)
    | none => Profiles.identity? found.known (profileName access)

/-- Whether the profile that is in use asks for a host of a special kind, whoever signs. -/
def asksSpecialHost (access : CloudAccess) (found : Signers) : Bool :=
  (KeyMap.get? (profileName access) found.known).any Profiles.asksSpecialHost

/-- A character that may stand in a header. -/
def isHeaderChar (c : Char) : Bool :=
  c = '\t' || (0x20 ≤ c.toNat && c.toNat ≠ 0x7F)

/-- A text that may stand in a header. -/
def isHeaderText (s : String) : Bool :=
  s.toList.all isHeaderChar

/-- A signer as the headers show it, if they can. -/
def Signer.inHeaders? (s : Signer) : Option Signer :=
  if isHeaderText s.accessKey && s.token.all isHeaderText then
    some { s with token := s.token.map Text.trim }
  else none

end ImagePush.Registry
