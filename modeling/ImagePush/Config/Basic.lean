import ImagePush.Environment
import ImagePush.Error
import ImagePush.Text.Diagnostic

/-!
# Configuration

The settings of a push. An empty string stands for a setting that was not given. Settings come in layers:
a file, then the command line, then the environment, which only fills in what is missing; `prepare` sets
the last default and checks that a registry login through the cloud knows its registry.
-/

namespace ImagePush

/-- How to reach the cloud that hands out registry credentials. -/
structure CloudAccess where
  accessKey : String := ""
  secretKey : String := ""
  token : String := ""
  profile : String := ""
  deriving DecidableEq, Repr, Inhabited

/-- Whether both keys were given. -/
def CloudAccess.hasKeys (a : CloudAccess) : Bool :=
  !a.accessKey.isEmpty && !a.secretKey.isEmpty

/-- The settings of a push. -/
structure Config where
  /-- The executable of the engine. -/
  executable : String := ""
  /-- Log in with the user name and the password given. -/
  login : Bool := false
  username : String := ""
  password : String := ""
  server : String := ""
  /-- Log in with credentials from the cloud. -/
  cloudLogin : Bool := false
  platform : String := ""
  cloud : CloudAccess := {}
  deriving DecidableEq, Repr, Inhabited

namespace Config

/-- The executable of the engine when none is given. -/
def defaultExecutable : String := "docker"

/-- The environment variable with the user name. -/
def usernameVariable : String := "DOCKER_PUSH_USERNAME"

/-- The environment variable with the password. -/
def passwordVariable : String := "DOCKER_PUSH_PASSWORD"

/-- Whether a push logs in. -/
def wantsLogin (c : Config) : Bool :=
  c.login || c.cloudLogin

/-! ### Layers -/

/-- A setting, or what the environment holds for it if it is missing. -/
def orElseFrom (setting : String) (held : Option String) : String :=
  if setting.isEmpty then held.getD setting else setting

/-- The settings with missing credentials filled in from the environment. -/
def fillFrom (c : Config) (env : Environment) : Config :=
  { c with
    username := orElseFrom c.username (env.text? usernameVariable)
    password := orElseFrom c.password (env.text? passwordVariable) }

/-- The settings with the executable of the engine filled in. -/
def withDefaults (c : Config) : Config :=
  if c.executable.isEmpty then { c with executable := defaultExecutable } else c

/-- The settings ready for use. -/
def prepare (c : Config) : Except ConfigFault Config :=
  if c.cloudLogin && c.server.isEmpty then .error .noServer else .ok c.withDefaults

/-! ### Diagnostics -/

/-- The access to the cloud in diagnostics. -/
def cloudDiagnostic (a : CloudAccess) : String :=
  Text.record "AwsAccessConfig"
    [("aws_access_key", Text.quoted a.accessKey),
      ("aws_secret_key", Text.quoted (Text.shownSecret a.secretKey)),
      ("aws_token", Text.quoted (Text.shownSecret a.token)),
      ("aws_profile", Text.quoted a.profile)]

/-- The settings in diagnostics. Secrets are not shown. -/
def diagnostic (c : Config) : String :=
  Text.record "Config"
    [("executable", Text.quoted c.executable),
      ("login", toString c.login),
      ("login_username", Text.quoted c.username),
      ("login_password", Text.quoted (Text.shownSecret c.password)),
      ("login_server", Text.quoted c.server),
      ("ecr_login", toString c.cloudLogin),
      ("platform", Text.quoted c.platform),
      ("aws", cloudDiagnostic c.cloud)]

end Config

end ImagePush
