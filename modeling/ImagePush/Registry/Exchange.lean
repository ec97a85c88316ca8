import ImagePush.Registry.Address
import ImagePush.Registry.Reply
import ImagePush.Registry.Signer

/-!
# Credentials from the cloud

A registry in the cloud hands out short-lived credentials: a signed request to its service is answered
with a token. The service has a host in the region of the registry, so that the region has to fit into the
name of a host; hosts of a special kind are out of reach. For a role another service is asked first, whose
answers are not read here, so that the exchange ends with it.
-/

namespace ImagePush.Registry

/-- The services that are asked. -/
inductive Service where
  /-- Hands out tokens for a registry. -/
  | tokens
  /-- Hands out the keys of a role. -/
  | roles
  deriving DecidableEq, Repr

/-- The service that an identity asks first. -/
def Identity.service : Identity → Service
  | .keys _ => .tokens
  | .role _ => .roles

/-- A signed request. -/
structure SignedRequest where
  service : Service := .tokens
  signer : Signer
  region : String
  deriving DecidableEq, Repr

/-- The first request for the credentials of a server, with the account it is about. -/
def request (access : CloudAccess) (found : Signers) (server : String) :
    Except Fault (String × SignedRequest) :=
  match Address.ofUrl? server with
  | none => .error (.address server)
  | some address =>
    match identity? access found with
    | none => .error .service
    | some identity =>
      match identity.signer.inHeaders?, address.fitsHost && !asksSpecialHost access found with
      | some signer, true => .ok (address.accountId, ⟨identity.service, signer, address.region⟩)
      | _, _ => .error .service

/-- The credentials in an answer to a request for an account. -/
def credentialsOfReply (accountId : String) (reply : Reply) : Except Fault Credentials :=
  match reply.token accountId with
  | .error f => .error f
  | .ok token => (Credentials.ofToken token).mapError .token

/-- The credentials of a server, where `service` answers requests. -/
def exchange (access : CloudAccess) (found : Signers) (service : SignedRequest → Reply)
    (server : String) : Except Fault Credentials :=
  match request access found server with
  | .error f => .error f
  | .ok (accountId, r) =>
    match r.service with
    | .tokens => credentialsOfReply accountId (service r)
    | .roles => .error .service

end ImagePush.Registry
