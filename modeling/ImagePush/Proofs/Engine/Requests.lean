import ImagePush.Engine.Process
import ImagePush.Proofs.Engine.Command
import Mathlib.Logic.Function.Basic

/-!
# Requests read back

What the engine is started with tells the request that was meant (`requestOf?_ofRequest`), although arguments that are
empty are left out and nothing keeps an argument from looking like an option. The name of the command tells the kind
of the request, and the number of the words behind it, with the standard input, tells which arguments are there. Hence
no two requests are alike to the engine (`requests_told_apart`).
-/

namespace ImagePush.Engine

namespace Command

/-! ### The words of a request -/

/-- The words of a login for the user name. -/
def nameWords (username : String) : List String :=
  if username.isEmpty then [] else ["-u", username]

/-- The word for a server. -/
def serverWords (server : String) : List String :=
  if server.isEmpty then [] else [server]

/-- The words of a push for the platform. -/
def platformWords (platform : String) : List String :=
  if platform.isEmpty then [] else ["--platform", platform]

theorem args_ofRequest_login (server username secret : String) :
    (ofRequest (.login server username secret)).args =
      "login" :: (nameWords username ++
        ((if secret.isEmpty then [] else [passwordOption]) ++ serverWords server)) := by
  simp [ofRequest, nameWords, serverWords]

theorem args_ofRequest_logout (server : String) :
    (ofRequest (.logout server)).args = "logout" :: serverWords server := by
  simp [ofRequest, serverWords]

theorem args_ofRequest_push (name platform : String) :
    (ofRequest (.push name platform)).args = "push" :: (platformWords platform ++ [name]) := by
  simp [ofRequest, platformWords]

/-! ### Reading a request -/

/-- The login that the words behind its name tell. Without a password there are two words for the user name and one
for the server; with a password the option for it stands between them. -/
def loginOf? : List String → Option String → Option Request
  | [], none => some (.login "" "" "")
  | [server], none => some (.login server "" "")
  | [_, username], none => some (.login "" username "")
  | [_, username, server], none => some (.login server username "")
  | [_], some secret => some (.login "" "" secret)
  | [_, server], some secret => some (.login server "" secret)
  | [_, username, _], some secret => some (.login "" username secret)
  | [_, username, _, server], some secret => some (.login server username secret)
  | _, _ => none

/-- The logout that the words behind its name tell. -/
def logoutOf? : List String → Option Request
  | [] => some (.logout "")
  | [server] => some (.logout server)
  | _ => none

/-- The push that the words behind its name tell. -/
def pushOf? : List String → Option Request
  | [name] => some (.push name "")
  | [_, platform, name] => some (.push name platform)
  | _ => none

/-- The request that the words of a command and its standard input tell. -/
def requestOf? : List String → Option String → Option Request
  | "login" :: words, input => loginOf? words input
  | "logout" :: words, _ => logoutOf? words
  | "push" :: words, _ => pushOf? words
  | ["inspect", _, _, id], _ => some (.digest id)
  | ["rmi", id], _ => some (.remove id)
  | _, _ => none

theorem loginOf?_words (server username secret : String) :
    loginOf? (nameWords username ++ ((if secret.isEmpty then [] else [passwordOption]) ++ serverWords server))
      (if secret.isEmpty then none else some secret) = some (.login server username secret) := by
  -- each argument may be empty or not, which makes one case for each pattern
  by_cases husername : username = "" <;> by_cases hsecret : secret = "" <;> by_cases hserver : server = "" <;>
    simp [loginOf?, nameWords, serverWords, husername, hsecret, hserver]

theorem logoutOf?_words (server : String) : logoutOf? (serverWords server) = some (.logout server) := by
  by_cases hserver : server = "" <;> simp [logoutOf?, serverWords, hserver]

theorem pushOf?_words (name platform : String) :
    pushOf? (platformWords platform ++ [name]) = some (.push name platform) := by
  by_cases hplatform : platform = "" <;> simp [pushOf?, platformWords, hplatform]

/-- **The command for a request tells the request**, whatever its arguments look like. -/
theorem requestOf?_ofRequest (r : Request) : requestOf? (ofRequest r).args (ofRequest r).input = some r := by
  cases r with
  | login server username secret =>
    rw [args_ofRequest_login, input_login]
    exact loginOf?_words server username secret
  | logout server =>
    rw [args_ofRequest_logout]
    exact logoutOf?_words server
  | push name platform =>
    rw [args_ofRequest_push]
    exact pushOf?_words name platform
  | digest id => rfl
  | remove id => rfl

end Command

/-! ### What a process is started with -/

/-- The options in front of every command. -/
def globalOptions (e : Engine) : List String :=
  match e.configDir with
  | some dir => ["--config", dir]
  | none => []

theorem allArgs_eq (e : Engine) (c : Command) : e.allArgs c = e.globalOptions ++ c.args := by
  unfold allArgs globalOptions
  cases e.configDir <;> rfl

/-- A login has the option for a password beside what the caller gives exactly if its standard input is the password;
otherwise it has no standard input. -/
theorem input_login_iff (e : Engine) (server username secret : String) :
    ((e.invocation (.ofRequest (.login server username secret))).input = some secret ↔
      (e.invocation (.ofRequest (.login server username secret))).args =
        e.globalOptions ++ "login" :: (Command.nameWords username ++
          Command.passwordOption :: Command.serverWords server)) ∧
    ((e.invocation (.ofRequest (.login server username secret))).input = none ↔
      (e.invocation (.ofRequest (.login server username secret))).args =
        e.globalOptions ++ "login" :: (Command.nameWords username ++ Command.serverWords server)) := by
  have hinput : (e.invocation (.ofRequest (.login server username secret))).input =
      if secret.isEmpty then none else some secret := Command.input_login server username secret
  have hargs : (e.invocation (.ofRequest (.login server username secret))).args = e.globalOptions ++ _ :=
    allArgs_eq e _
  rw [hinput, hargs, Command.args_ofRequest_login]
  -- with the option there is one word more
  by_cases hsecret : secret = "" <;> simp [hsecret]

/-- **No two requests are alike to the engine.** Whether it keeps its configuration in a directory of its own or not,
requests that differ in their kind or in any argument start processes with different arguments or different standard
inputs, also if arguments are empty or look like options. A login has the option for a password beside what the caller
gives exactly if its standard input is the password, lacks it exactly if there is none, and there is no other standard
input. -/
theorem requests_told_apart (e : Engine) :
    (Function.Injective fun r : Request =>
      ((e.invocation (.ofRequest r)).args, (e.invocation (.ofRequest r)).input)) ∧
    ∀ server username secret : String,
      ((e.invocation (.ofRequest (.login server username secret))).input = some secret ↔
        (e.invocation (.ofRequest (.login server username secret))).args =
          e.globalOptions ++ "login" :: (Command.nameWords username ++
            Command.passwordOption :: Command.serverWords server)) ∧
      ((e.invocation (.ofRequest (.login server username secret))).input = none ↔
        (e.invocation (.ofRequest (.login server username secret))).args =
          e.globalOptions ++ "login" :: (Command.nameWords username ++ Command.serverWords server)) ∧
      ∀ text, (e.invocation (.ofRequest (.login server username secret))).input = some text → text = secret := by
  constructor
  · intro r r' h
    obtain ⟨hargs, hinput⟩ := Prod.mk.inj h
    have hwords : (Command.ofRequest r).args = (Command.ofRequest r').args := by
      apply @List.append_cancel_left _ e.globalOptions
      rw [← allArgs_eq, ← allArgs_eq]
      exact hargs
    have hinput : (Command.ofRequest r).input = (Command.ofRequest r').input := hinput
    apply Option.some.inj
    rw [← Command.requestOf?_ofRequest r, ← Command.requestOf?_ofRequest r', hwords, hinput]
  · intro server username secret
    obtain ⟨hadded, hlacking⟩ := input_login_iff e server username secret
    refine ⟨hadded, hlacking, ?_⟩
    intro text htext
    have hinput := (Command.input_login server username secret).symm.trans htext
    split at hinput
    · cases hinput
    · exact (Option.some.inj hinput).symm

/-- A server and a user name that look like options, with and without a password. -/
example :
    (Engine.invocation ⟨"docker", none⟩ (.ofRequest (.login "--password-stdin" "" ""))).args =
        ["login", "--password-stdin"] ∧
      (Engine.invocation ⟨"docker", none⟩ (.ofRequest (.login "" "" "x"))).args =
        ["login", "--password-stdin"] ∧
      (Engine.invocation ⟨"docker", none⟩ (.ofRequest (.login "" "" "x"))).input = some "x" := by
  decide

end ImagePush.Engine
