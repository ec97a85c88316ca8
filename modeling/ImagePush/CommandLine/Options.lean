import ImagePush.Config.Basic

/-!
# Options

The options of the command line, and the arguments that a command line gives.
-/

namespace ImagePush.CommandLine

/-- An option. -/
inductive Opt where
  | artifact
  | config
  | output
  | dockerPath
  | login
  | loginUsername
  | loginPassword
  | loginServer
  | ecrLogin
  | platform
  | awsProfile
  | verbose
  | quiet
  | help
  | version
  deriving DecidableEq, Repr

namespace Opt

/-- All options, in the order of the help. -/
def all : List Opt :=
  [artifact, config, output, dockerPath, login, loginUsername, loginPassword, loginServer, ecrLogin,
    platform, awsProfile, verbose, quiet, help, version]

/-- The long name of an option. -/
def long : Opt → String
  | artifact => "artifact"
  | config => "config"
  | output => "output"
  | dockerPath => "docker-path"
  | login => "login"
  | loginUsername => "login-username"
  | loginPassword => "login-password"
  | loginServer => "login-server"
  | ecrLogin => "ecr-login"
  | platform => "platform"
  | awsProfile => "aws-profile"
  | verbose => "verbose"
  | quiet => "quiet"
  | help => "help"
  | version => "version"

/-- The letter of an option. -/
def short? : Opt → Option Char
  | artifact => some 'a'
  | config => some 'c'
  | output => some 'o'
  | loginUsername => some 'u'
  | loginPassword => some 'p'
  | loginServer => some 's'
  | verbose => some 'v'
  | quiet => some 'q'
  | help => some 'h'
  | version => some 'V'
  | _ => none

/-- What the value of an option is called, if it takes one. -/
def valueName? : Opt → Option String
  | artifact => some "ARTIFACT"
  | config => some "CONFIG"
  | output => some "OUTPUT"
  | dockerPath => some "DOCKER_PATH"
  | loginUsername => some "LOGIN_USERNAME"
  | loginPassword => some "LOGIN_PASSWORD"
  | loginServer => some "LOGIN_SERVER"
  | platform => some "PLATFORM"
  | awsProfile => some "AWS_PROFILE"
  | _ => none

/-- Whether an option takes a value. -/
def takesValue (o : Opt) : Bool :=
  o.valueName?.isSome

/-- Whether an option asks for a text instead of setting something. -/
def isRequest (o : Opt) : Bool :=
  o = help ∨ o = version

/-- What an option is for. -/
def purpose : Opt → String
  | artifact => "Input artifact (JSON) produced by the import or tag step"
  | config => "Configuration file (JSON)"
  | output => "Where to write the resulting artifact; printed to stdout when omitted"
  | dockerPath => "Docker executable to run"
  | login => "Log in to the registry before pushing"
  | loginUsername => "Username for registry authentication"
  | loginPassword => "Password for registry authentication"
  | loginServer => "Registry server to log in to"
  | ecrLogin => "Fetch login credentials from AWS ECR"
  | platform => "Platform to push, e.g. linux/amd64"
  | awsProfile => "AWS profile used for ECR login"
  | verbose => "Enable verbose output"
  | quiet => "Only print errors"
  | help => "Print help"
  | version => "Print version"

/-- The option with a long name. -/
def ofLong? (name : String) : Option Opt :=
  all.find? (·.long == name)

/-- The option with a letter. -/
def ofShort? (c : Char) : Option Opt :=
  all.find? (·.short? == some c)

/-- An option as it is written, with the name of its value. -/
def shown (o : Opt) : String :=
  match o.valueName? with
  | some v => s!"--{o.long} <{v}>"
  | none => s!"--{o.long}"

end Opt

/-- What a command line gives. -/
structure Args where
  artifact : String
  config : Option String := none
  output : Option String := none
  dockerPath : Option String := none
  login : Bool := false
  loginUsername : Option String := none
  loginPassword : Option String := none
  loginServer : Option String := none
  ecrLogin : Bool := false
  platform : Option String := none
  awsProfile : Option String := none
  verbose : Bool := false
  quiet : Bool := false
  deriving DecidableEq, Repr, Inhabited

/-- The settings with those of the command line laid over them. A flag only ever switches on. -/
def Args.applyTo (args : Args) (c : Config) : Config where
  executable := args.dockerPath.getD c.executable
  login := c.login || args.login
  username := args.loginUsername.getD c.username
  password := args.loginPassword.getD c.password
  server := args.loginServer.getD c.server
  cloudLogin := c.cloudLogin || args.ecrLogin
  platform := args.platform.getD c.platform
  cloud := { c.cloud with profile := args.awsProfile.getD c.cloud.profile }

end ImagePush.CommandLine
