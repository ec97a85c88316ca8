import ImagePush.CommandLine.Options
import ImagePush.Proofs.Config.Spellings

/-!
# Layers of settings

The settings of a push come from a file, the command line and the environment. What each setting is in the end is
told by the layers alone (`Layered`, `resolve_eq_ok_iff`), and settings that were resolved once are not changed by
the same layers again (`Layered.again`), also when they are written to a file in between (`resolve_layers`).
-/

namespace ImagePush.Config

open CommandLine (Args)

/-- The settings of a push: those of the file, with those of the command line laid over them, then with what the
environment holds for missing credentials, made ready for use. -/
def resolve (args : Args) (file : Config) (env : Environment) : Except ConfigFault Config :=
  ((args.applyTo file).fillFrom env).prepare

/-! ### Settings from the environment -/

/-- The setting is filled in: with what the environment holds, exactly if it is missing and something is held. -/
def Filled (setting : String) (held : Option String) (filled : String) : Prop :=
  setting = "" ∧ held = some filled ∨ ¬ (setting = "" ∧ held.isSome) ∧ filled = setting

theorem filled_iff {setting filled : String} {held : Option String} :
    Filled setting held filled ↔ orElseFrom setting held = filled := by
  by_cases hempty : setting = ""
  · cases held with
    | none => simp [Filled, orElseFrom, hempty]
    | some x => simp [Filled, orElseFrom, hempty]
  · simpa [Filled, orElseFrom, hempty] using eq_comm

/-- A setting that was filled in is not filled in again. -/
theorem Filled.again {setting filled : String} {held : Option String} (hfilled : Filled setting held filled) :
    Filled filled held filled := by
  rcases hfilled with ⟨-, hheld⟩ | ⟨hnone, rfl⟩
  · by_cases hempty : filled = ""
    · exact .inl ⟨hempty, hheld⟩
    · exact .inr ⟨fun h => hempty h.1, rfl⟩
  · exact .inr ⟨hnone, rfl⟩

/-- An environment that holds credentials. -/
def holding (username password : Option String) : Environment where
  entries := (username.map fun x => (usernameVariable, Text.Utf8.encode x.toList)).toList ++
    (password.map fun x => (passwordVariable, Text.Utf8.encode x.toList)).toList

/-- **The environment can hold any credentials**, and lack any. -/
theorem text?_holding (username password : Option String) :
    (holding username password).text? usernameVariable = username ∧
      (holding username password).text? passwordVariable = password := by
  have hne : (passwordVariable == usernameVariable) = false ∧ (usernameVariable == passwordVariable) = false := by
    decide
  cases username <;> cases password <;>
    simp [holding, Environment.text?, Environment.value?, List.lookup_cons, hne, Text.Utf8.decode?_encode]

/-! ### All layers -/

/-- The registry is missing that a login through the cloud needs. -/
def MissesServer (args : Args) (file : Config) : Prop :=
  (file.cloudLogin || args.ecrLogin) = true ∧ args.loginServer.getD file.server = ""

/-- What the layers make of the settings, each by itself. -/
structure Layered (args : Args) (file : Config) (env : Environment) (c : Config) : Prop where
  executable : c.executable =
    if args.dockerPath.getD file.executable = "" then "docker" else args.dockerPath.getD file.executable
  login : c.login = (file.login || args.login)
  username : Filled (args.loginUsername.getD file.username) (env.text? "DOCKER_PUSH_USERNAME") c.username
  password : Filled (args.loginPassword.getD file.password) (env.text? "DOCKER_PUSH_PASSWORD") c.password
  server : c.server = args.loginServer.getD file.server
  cloudLogin : c.cloudLogin = (file.cloudLogin || args.ecrLogin)
  platform : c.platform = args.platform.getD file.platform
  accessKey : c.cloud.accessKey = file.cloud.accessKey
  secretKey : c.cloud.secretKey = file.cloud.secretKey
  token : c.cloud.token = file.cloud.token
  profile : c.cloud.profile = args.awsProfile.getD file.cloud.profile

section

variable {args : Args} {file c : Config} {env : Environment}

theorem withDefaults_eq (c : Config) : c.withDefaults =
    { c with executable := if c.executable = "" then defaultExecutable else c.executable } := by
  unfold withDefaults
  split <;> simp_all

theorem layered_withDefaults (args : Args) (file : Config) (env : Environment) :
    Layered args file env ((args.applyTo file).fillFrom env).withDefaults := by
  rw [withDefaults_eq]
  exact ⟨rfl, rfl, filled_iff.2 rfl, filled_iff.2 rfl, rfl, rfl, rfl, rfl, rfl, rfl, rfl⟩

/-- The layers tell all settings. -/
theorem Layered.unique {d : Config} (hc : Layered args file env c) (hd : Layered args file env d) : c = d := by
  have husername := (filled_iff.1 hc.username).symm.trans (filled_iff.1 hd.username)
  have hpassword := (filled_iff.1 hc.password).symm.trans (filled_iff.1 hd.password)
  obtain ⟨_, _, _, _, _, _, _, _, _, _, _⟩ := c
  obtain ⟨_, _, _, _, _, _, _, _, _, _, _⟩ := d
  simp only [mk.injEq, CloudAccess.mk.injEq]
  exact ⟨hc.executable.trans hd.executable.symm, hc.login.trans hd.login.symm, husername, hpassword,
    hc.server.trans hd.server.symm, hc.cloudLogin.trans hd.cloudLogin.symm, hc.platform.trans hd.platform.symm,
    hc.accessKey.trans hd.accessKey.symm, hc.secretKey.trans hd.secretKey.symm, hc.token.trans hd.token.symm,
    hc.profile.trans hd.profile.symm⟩

theorem resolve_of_missesServer (hmisses : MissesServer args file) : resolve args file env = .error .noServer := by
  have hserver : (args.loginServer.getD file.server).isEmpty = true := String.isEmpty_iff.2 hmisses.2
  have hcondition : ((file.cloudLogin || args.ecrLogin) && (args.loginServer.getD file.server).isEmpty) = true := by
    rw [hmisses.1, hserver, Bool.and_self]
  exact if_pos hcondition

theorem resolve_of_not_missesServer (hmisses : ¬ MissesServer args file) :
    resolve args file env = .ok ((args.applyTo file).fillFrom env).withDefaults := by
  refine if_neg fun hcondition => hmisses ?_
  rw [Bool.and_eq_true] at hcondition
  exact ⟨hcondition.1, String.isEmpty_iff.1 hcondition.2⟩

/-- **Settings are resolved exactly if no registry is missing, to what the layers make of each of them.** -/
theorem resolve_eq_ok_iff : resolve args file env = .ok c ↔ ¬ MissesServer args file ∧ Layered args file env c := by
  by_cases hmisses : MissesServer args file
  · simp [resolve_of_missesServer hmisses, hmisses]
  · rw [resolve_of_not_missesServer hmisses]
    have hlayered := layered_withDefaults args file env
    constructor
    · rintro heq
      cases heq
      exact ⟨hmisses, hlayered⟩
    · rintro ⟨-, hc⟩
      rw [hlayered.unique hc]

theorem getD_getD {α : Type} (o : Option α) (x : α) : o.getD (o.getD x) = o.getD x := by
  cases o <;> rfl

/-- **The layers leave settings as they are that they have made.** -/
theorem Layered.again (hc : Layered args file env c) : Layered args c env c where
  executable := by
    rw [hc.executable]
    cases args.dockerPath with
    | some path => rfl
    | none =>
      simp only [Option.getD_none]
      split <;> simp_all
  login := by rw [hc.login, Bool.or_assoc, Bool.or_self]
  username := by
    cases hgiven : args.loginUsername with
    | some x => simpa [hgiven] using hc.username
    | none => exact hc.username.again
  password := by
    cases hgiven : args.loginPassword with
    | some x => simpa [hgiven] using hc.password
    | none => exact hc.password.again
  server := by rw [hc.server, getD_getD]
  cloudLogin := by rw [hc.cloudLogin, Bool.or_assoc, Bool.or_self]
  platform := by rw [hc.platform, getD_getD]
  accessKey := rfl
  secretKey := rfl
  token := rfl
  profile := by rw [hc.profile, getD_getD]

/-- The layers do not come to miss a registry. -/
theorem Layered.missesServer_iff (hc : Layered args file env c) : MissesServer args c ↔ MissesServer args file := by
  rw [MissesServer, MissesServer, hc.cloudLogin, hc.server, Bool.or_assoc, Bool.or_self, getD_getD]

end

/-! ### Main result -/

/-- **Settings come in layers, and resolving them settles them.** No settings come out exactly if a login through the
cloud is wanted and its registry is missing. Otherwise each setting is what the layers make of it, and settings that
are written to a file are resolved by the same layers to themselves. -/
theorem resolve_layers (args : Args) (file : Config) (env : Environment) :
    (resolve args file env = .error .noServer ↔ MissesServer args file) ∧
    (¬ MissesServer args file → ∃ c, resolve args file env = .ok c ∧ Layered args file env c ∧
      ∀ text ∈ [c.compact, c.pretty], ∃ written,
        ofBytes (Text.Utf8.encode text) = .ok written ∧ resolve args written env = .ok c) := by
  constructor
  · constructor
    · intro herror
      by_contra hmisses
      rw [resolve_of_not_missesServer hmisses] at herror
      cases herror
    · exact resolve_of_missesServer
  · intro hmisses
    obtain ⟨c, hresolve⟩ : ∃ c, resolve args file env = .ok c := ⟨_, resolve_of_not_missesServer hmisses⟩
    have hc := (resolve_eq_ok_iff.1 hresolve).2
    refine ⟨c, hresolve, hc, fun text htext => ?_⟩
    have hspells : Json.Spells c.toJson text := by
      rcases List.mem_pair.1 htext with rfl | rfl
      · exact Json.spells_compact _
      · exact Json.spells_pretty _
    exact ⟨_, ofBytes_spells hspells, resolve_eq_ok_iff.2 ⟨hc.missesServer_iff.not.2 hmisses, hc.again⟩⟩

/-- A command line that asks for a login through the cloud at a registry, with an empty user name. -/
def cloudArgs : Args where
  artifact := "a"
  loginUsername := some ""
  loginServer := some "s"
  ecrLogin := true

theorem resolve_layers_cloud : ¬ MissesServer cloudArgs {} ∧
    ∃ c, resolve cloudArgs {} (holding (some "u") none) = .ok c ∧ c.username = "u" ∧
      ∃ written, ofBytes (Text.Utf8.encode c.compact) = .ok written ∧
        resolve cloudArgs written (holding (some "u") none) = .ok c := by
  have hserver : ¬ MissesServer cloudArgs {} := fun hmisses => absurd hmisses.2 (by decide)
  obtain ⟨c, hresolve, hc, hagain⟩ := (resolve_layers cloudArgs {} (holding (some "u") none)).2 hserver
  have husername : Filled "" (some "u") c.username := by
    rw [← (text?_holding (some "u") none).1]
    exact hc.username
  exact ⟨hserver, c, hresolve, (filled_iff.1 husername).symm, hagain _ (by simp)⟩

end ImagePush.Config
