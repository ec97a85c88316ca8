import ImagePush.Json.Fault
import ImagePush.Registry.Credentials
import ImagePush.SystemError
import ImagePush.Text.Blank

/-!
# Errors

Everything that can end a push, by its cause, and the wording of each cause. Causes nest: a failed login
carries what made it fail.
-/

namespace ImagePush

/-! ### Input and output -/

/-- Why a file, a directory or a process could not be used. -/
inductive IoError where
  | system (error : SystemError)
  /-- An error with the path it is about. -/
  | systemAt (error : SystemError) (path : String)
  /-- A file that should be text is not. -/
  | notText
  /-- A line of a process's output is not text. -/
  | malformed (fault : Text.Utf8.Malformed)
  /-- A word of a command line holds a NUL. -/
  | nulByte
  /-- The name of a file holds a NUL. -/
  | nulName
  | other (message : String)
  deriving DecidableEq, Repr

/-- The wording of an error. -/
def IoError.message : IoError → String
  | .system e => e.message
  | .systemAt e path => s!"{e.message} at path \"{path}\""
  | .notText => "stream did not contain valid UTF-8"
  | .malformed f => f.message
  | .nulByte => "nul byte found in provided data"
  | .nulName => "file name contained an unexpected NUL byte"
  | .other message => message

/-! ### Settings and registries -/

/-- Why a configuration cannot be used. -/
inductive ConfigFault where
  /-- A registry login through the cloud needs to know the registry. -/
  | noServer
  | other (message : String)
  deriving DecidableEq, Repr

/-- The wording of a fault. -/
def ConfigFault.message : ConfigFault → String
  | .noServer => "ECR login requires login server to be provided."
  | .other message => message

namespace Registry

/-- Why a registry hands out no credentials. -/
inductive Fault where
  /-- The server is not the address of a registry. -/
  | address (url : String)
  | token (fault : TokenFault)
  /-- The answer of the service holds no token. -/
  | noToken (accountId : String)
  /-- The service could not be asked, or refused. -/
  | service
  | other (message : String)
  deriving DecidableEq, Repr

/-- The wording of a fault. -/
def Fault.message : Fault → String
  | .address url =>
    s!"Failed to parse the ECR URL: {url} it should be on the form " ++
      "<account number>.dkr.ecr.<region>.amazonaws.com"
  | .token f => s!"Error decoding ECR AuthorizationToken: {f.message}"
  | .noToken account => s!"ECR returned no authorization token for account {account}"
  | .service => "<sdk error>"
  | .other message => message

end Registry

/-! ### All errors -/

/-- What ends a push. -/
inductive PushError where
  | configuration (fault : ConfigFault)
  /-- The artifact does not come from a step whose images can be pushed. -/
  | unknownArtifact (builderId : String)
  | scratchDir (cause : IoError)
  | registry (fault : Registry.Fault)
  | login (cause : PushError)
  /-- A command of the engine did not succeed. -/
  | command (command : String) (exitCode : Int) (stderr : String)
  | io (cause : IoError)
  | text (cause : Json.Error)

namespace PushError

/-- The wording of an error. -/
def message : PushError → String
  | configuration f => f.message
  | unknownArtifact id =>
    s!"Unknown artifact type: {id}\nCan only import from docker-import and docker-tag artifacts."
  | scratchDir e => s!"Error creating temporary Docker configuration directory: {e.message}"
  | registry f => f.message
  | login e => s!"Error logging in to Docker: {e.message}"
  | command c code stderr => s!"`{c}` failed with exit code {code}: {Text.trim stderr}"
  | io e => s!"IO error: {e.message}"
  | text e => s!"Serialization error: {e.message}"

/-- The wordings of the causes of an error, the nearest first. -/
def causes : PushError → List String
  | scratchDir e => [e.message]
  | login e => e.message :: causes e
  | io e => [e.message]
  | text e => [e.message]
  | _ => []

end PushError

end ImagePush
