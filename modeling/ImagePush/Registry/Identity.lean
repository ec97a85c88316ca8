import ImagePush.Registry.Profiles

/-!
# Identities of profiles

A profile signs with keys of its own, or it names a role and a profile from which the role is taken; that
profile may name a role in turn. Keys that a profile gets elsewhere cannot be had. What says so counts more
than the keys of the profile, but most of it less than the role.
-/

namespace ImagePush.Registry

/-- Who signs. -/
inductive Identity where
  | keys (signer : Signer)
  /-- A role that is still to be taken; `source` signs for that. -/
  | role (source : Signer)
  deriving DecidableEq, Repr

/-- The keys that sign. -/
def Identity.signer : Identity → Signer
  | .keys s => s
  | .role s => s

namespace Profiles

/-- The property that names a role. -/
def roleName : String := "role_arn"

/-- The property that names the profile from which a role is taken. -/
def sourceName : String := "source_profile"

/-- The properties that say where else a profile gets its keys, or those that sign for its role. -/
def elsewhereForRoleNames : List String := ["credential_source", "web_identity_token_file"]

/-- The properties that say where else a profile gets its keys if it names no other one. -/
def elsewhereNames : List String :=
  ["credential_process", "login_session", "sso_account_id", "sso_region", "sso_role_name", "sso_session",
    "sso_start_url"]

/-- The properties that ask for a host of a special kind. -/
def specialHostNames : List String := ["use_fips_endpoint", "use_dualstack_endpoint"]

/-- Whether the value of a property is true. -/
def isSet (properties : Properties) (name : String) : Bool :=
  (KeyMap.get? name properties).any fun value => value.toList.map Char.toLower == "true".toList

/-- Whether a profile asks for a host of a special kind. -/
def asksSpecialHost (properties : Properties) : Bool :=
  specialHostNames.any (isSet properties)

/-- Whether a profile has one of some properties. -/
def hasAny (names : List String) (properties : Properties) : Bool :=
  names.any fun name => (KeyMap.get? name properties).isSome

/-- Where the keys of a profile come from. -/
inductive Origin where
  | own
  /-- A role that is taken from the profile with the name. -/
  | role (source : String)
  | elsewhere
  deriving DecidableEq, Repr

/-- Where the keys of a profile come from. A role without a profile to take it from leads nowhere. -/
def origin (properties : Properties) : Origin :=
  if hasAny elsewhereForRoleNames properties then .elsewhere
  else
    match KeyMap.get? roleName properties, KeyMap.get? sourceName properties with
    | none, _ => .own
    | some _, some source => .role source
    | some _, none => .elsewhere

/-- The keys that a profile holds. -/
def keys? (properties : Properties) : Option Signer := do
  let accessKey ← KeyMap.get? accessKeyName properties
  let secretKey ← KeyMap.get? secretKeyName properties
  return ⟨accessKey, secretKey, KeyMap.get? tokenName properties⟩

/-- The keys that a profile holds, unless it gets them elsewhere. -/
def ownKeys? (properties : Properties) : Option Signer :=
  if hasAny elsewhereNames properties then none else keys? properties

/-- The keys that sign for a role which is taken from the profile with a name: those that it holds, or else
those behind its own role. No profile is asked twice. -/
def sourceKeys? (profiles : Profiles) (name : String) : Option Signer :=
  match h : KeyMap.get? name profiles with
  | none => none
  | some properties =>
    have := KeyMap.length_erase_lt h
    match keys? properties, origin properties with
    | some s, _ => some s
    | none, .role source => sourceKeys? (KeyMap.erase name profiles) source
    | none, _ => none
termination_by profiles.length

/-- The identity of the profile with a name. A role may be taken from the profile that names it. -/
def identity? (profiles : Profiles) (name : String) : Option Identity :=
  match KeyMap.get? name profiles with
  | none => none
  | some properties =>
    match origin properties with
    | .own => (ownKeys? properties).map .keys
    | .role source =>
      if source = name then (ownKeys? properties).map .role
      else (sourceKeys? (KeyMap.erase name profiles) source).map .role
    | .elsewhere => none

end Profiles

end ImagePush.Registry
