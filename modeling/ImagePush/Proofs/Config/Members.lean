import ImagePush.Config.Json
import ImagePush.Proofs.Json.Typed

/-!
# Members of a configuration

Seven members of a configuration are decoded as they are met, the four about the cloud behind the closing brace. Both
passes fill slots, each with the one member of its key (`Slots`), so that together they do not depend on the order
of the members: an object is read as the settings exactly if each of the eleven keys has one member at most, with
the value of the setting, and none only if the setting is empty (`Configures`, `reads_config`).
-/

namespace ImagePush.Config

open Json (Reading Reads ReadsKeyed Ends Blanks Through Denotes TextOf valuesOf)

/-! ### Slots -/

section

variable {σ : Type} {met : σ → String → Option Json} {keys : List String} {Fits : String → Json → Prop}
  {Step : σ → String × Json → σ → Prop}

/-- Steps that fill slots, each by the member with its key: a value that fits is put in if nothing was met before,
and all other slots stay as they are. -/
structure Slots (met : σ → String → Option Json) (keys : List String) (Fits : String → Json → Prop)
    (Step : σ → String × Json → σ → Prop) : Prop where
  filled : ∀ {s key v s'}, Step s (key, v) s' → key ∈ keys → met s key = none ∧ met s' key = some v
  kept : ∀ {s key v s' key'}, Step s (key, v) s' → key' ∈ keys → key ≠ key' → met s' key' = met s key'
  fill : ∀ {s key v}, (key ∈ keys → met s key = none ∧ Fits key v) → ∃ s', Step s (key, v) s'

/-- One step adds the value of its member. -/
theorem Slots.step (hslots : Slots met keys Fits Step) {s s' : σ} {m : String × Json} (hstep : Step s m s')
    {key : String} (hkey : key ∈ keys) : (met s' key).toList = (met s key).toList ++ valuesOf key [m] := by
  obtain ⟨key', v⟩ := m
  by_cases heq : key' = key
  · subst heq
    obtain ⟨hnone, hsome⟩ := hslots.filled hstep hkey
    simp [hnone, hsome]
  · rw [hslots.kept hstep hkey heq, Json.valuesOf_cons_of_ne heq]
    simp

/-- **What is met in a slot in the end are the values of its key.** -/
theorem Slots.met_through (hslots : Slots met keys Fits Step) {ms : List (String × Json)} {s s' : σ}
    (hthrough : Through Step ms s s') {key : String} (hkey : key ∈ keys) :
    (met s' key).toList = (met s key).toList ++ valuesOf key ms := by
  induction hthrough with
  | nil => simp
  | @cons m ms _ _ _ hstep _ ih =>
    rw [ih, hslots.step hstep hkey, List.append_assoc, ← Json.valuesOf_append]
    rfl

/-- The members are taken step by step if there is room for them. -/
theorem Slots.exists_through (hslots : Slots met keys Fits Step) {ms : List (String × Json)} :
    ∀ {s : σ}, (∀ key ∈ keys, ((met s key).toList ++ valuesOf key ms).length ≤ 1) →
      (∀ m ∈ ms, m.1 ∈ keys → Fits m.1 m.2) → ∃ s', Through Step ms s s' := by
  induction ms with
  | nil => exact fun _ _ => ⟨_, .nil⟩
  | cons m ms ih =>
    intro s hroom hfits
    rw [List.forall_mem_cons] at hfits
    obtain ⟨key, v⟩ := m
    obtain ⟨next, hstep⟩ : ∃ next, Step s (key, v) next := by
      refine hslots.fill fun hkey => ⟨?_, hfits.1 hkey⟩
      have hone := hroom key hkey
      rw [Json.valuesOf_cons_self] at hone
      cases hmet : met s key with
      | none => rfl
      | some w =>
        rw [hmet] at hone
        simp at hone
    have hrest : ∀ key ∈ keys, ((met next key).toList ++ valuesOf key ms).length ≤ 1 := by
      intro key' hkey'
      rw [hslots.step hstep hkey', List.append_assoc, ← Json.valuesOf_append]
      exact hroom key' hkey'
    obtain ⟨s', hthrough⟩ := ih hrest hfits.2
    exact ⟨s', .cons hstep hthrough⟩

end

/-! ### Settings by their keys -/

/-- The keys of the members that are decoded as they are met. -/
def directNames : List String :=
  ["docker_path", "login", "login_username", "login_password", "login_server", "ecr_login", "platform"]

/-- The keys of the members about the cloud. -/
def cloudNames : List String := ["aws_access_key", "aws_secret_key", "aws_token", "aws_profile"]

/-- The keys of the settings. -/
def settingNames : List String := directNames ++ cloudNames

/-- The value of the setting of a key. -/
def setting (c : Config) (key : String) : Json :=
  match key with
  | "docker_path" => .string c.executable
  | "login" => .bool c.login
  | "login_username" => .string c.username
  | "login_password" => .string c.password
  | "login_server" => .string c.server
  | "ecr_login" => .bool c.cloudLogin
  | "platform" => .string c.platform
  | "aws_access_key" => .string c.cloud.accessKey
  | "aws_secret_key" => .string c.cloud.secretKey
  | "aws_token" => .string c.cloud.token
  | "aws_profile" => .string c.cloud.profile
  | _ => .null

theorem not_mem_directNames {key : String} (hkey : key ∈ cloudNames) : key ∉ directNames := by
  simp only [cloudNames, List.mem_cons, List.not_mem_nil, or_false] at hkey
  rcases hkey with rfl | rfl | rfl | rfl <;> decide

/-- The members that the settings are written with. -/
def members (c : Config) : List (String × Json) :=
  settingNames.map fun key => (key, c.setting key)

theorem toJson_eq (c : Config) : c.toJson = .object c.members := rfl

/-- Settings are told by their values. -/
theorem eq_of_setting {c d : Config} (hall : ∀ key ∈ settingNames, c.setting key = d.setting key) : c = d := by
  obtain ⟨_, _, _, _, _, _, _, _, _, _, _⟩ := c
  obtain ⟨_, _, _, _, _, _, _, _, _, _, _⟩ := d
  simpa [settingNames, directNames, cloudNames, setting] using hall

/-- What holds of each of seven keys holds of those decoded as they are met. -/
theorem forall_directNames {P : String → Prop} : (∀ key ∈ directNames, P key) ↔
    P "docker_path" ∧ P "login" ∧ P "login_username" ∧ P "login_password" ∧ P "login_server" ∧ P "ecr_login" ∧
      P "platform" := by
  simp [directNames]

/-! ### Members decoded as they are met -/

/-- The value is of the type of the setting. -/
def FitsDirect (key : String) (v : Json) : Prop :=
  if key = "login" ∨ key = "ecr_login" then ∃ b, v = .bool b else ∃ x, v = .string x

theorem fitsDirect_setting (c : Config) {key : String} (hkey : key ∈ directNames) : FitsDirect key (c.setting key) := by
  simp only [directNames, List.mem_cons, List.not_mem_nil, or_false] at hkey
  rcases hkey with rfl | rfl | rfl | rfl | rfl | rfl | rfl <;> exact ⟨_, rfl⟩

theorem exists_setting_cloud (c : Config) {key : String} (hkey : key ∈ cloudNames) :
    ∃ x, c.setting key = .string x := by
  simp only [cloudNames, List.mem_cons, List.not_mem_nil, or_false] at hkey
  rcases hkey with rfl | rfl | rfl | rfl <;> exact ⟨_, rfl⟩

/-- What was met in the field of a key. -/
def Fields.met (fields : Fields) (key : String) : Option Json :=
  match key with
  | "docker_path" => fields.executable.map .string
  | "login" => fields.login.map .bool
  | "login_username" => fields.username.map .string
  | "login_password" => fields.password.map .string
  | "login_server" => fields.server.map .string
  | "ecr_login" => fields.cloudLogin.map .bool
  | "platform" => fields.platform.map .string
  | _ => none

theorem met_no_fields (key : String) : Fields.met {} key = none := by
  unfold Fields.met
  split <;> rfl

/-- What a member makes of the fields so far: it fills the field of its key, or it is kept for later. -/
inductive MemberStep : Fields → String × Json → Fields → Prop where
  | executable {fields : Fields} {x : String} (hmet : fields.executable = none) :
      MemberStep fields ("docker_path", .string x) { fields with executable := some x }
  | login {fields : Fields} {b : Bool} (hmet : fields.login = none) :
      MemberStep fields ("login", .bool b) { fields with login := some b }
  | username {fields : Fields} {x : String} (hmet : fields.username = none) :
      MemberStep fields ("login_username", .string x) { fields with username := some x }
  | password {fields : Fields} {x : String} (hmet : fields.password = none) :
      MemberStep fields ("login_password", .string x) { fields with password := some x }
  | server {fields : Fields} {x : String} (hmet : fields.server = none) :
      MemberStep fields ("login_server", .string x) { fields with server := some x }
  | cloudLogin {fields : Fields} {b : Bool} (hmet : fields.cloudLogin = none) :
      MemberStep fields ("ecr_login", .bool b) { fields with cloudLogin := some b }
  | platform {fields : Fields} {x : String} (hmet : fields.platform = none) :
      MemberStep fields ("platform", .string x) { fields with platform := some x }
  /-- A member with any other key is looked at once the object is closed. -/
  | other {fields : Fields} {key : String} {v : Json} (hkey : key ∉ directNames) :
      MemberStep fields (key, v) { fields with others := (key, v) :: fields.others }

theorem slots_memberStep : Slots Fields.met directNames FitsDirect MemberStep where
  filled := by
    intro s key v s' hstep hkey
    cases hstep with
    | other hother => exact absurd hkey hother
    | _ hmet => simp [Fields.met, hmet]
  kept := by
    intro s key v s' key' hstep hkey' hne
    revert key'
    cases hstep <;> simp [forall_directNames, Fields.met]
  fill := by
    intro s key v hfits
    by_cases hkey : key ∈ directNames
    · obtain ⟨hmet, hfits⟩ := hfits hkey
      simp only [directNames, List.mem_cons, List.not_mem_nil, or_false] at hkey
      rcases hkey with rfl | rfl | rfl | rfl | rfl | rfl | rfl <;> obtain ⟨x, rfl⟩ := hfits <;>
        simp only [Fields.met, Option.map_eq_none_iff] at hmet
      · exact ⟨_, .executable hmet⟩
      · exact ⟨_, .login hmet⟩
      · exact ⟨_, .username hmet⟩
      · exact ⟨_, .password hmet⟩
      · exact ⟨_, .server hmet⟩
      · exact ⟨_, .cloudLogin hmet⟩
      · exact ⟨_, .platform hmet⟩
    · exact ⟨_, .other hkey⟩

/-- A member with another key is kept for later. -/
theorem readMember_other {key : String} (hkey : key ∉ directNames) (fields : Fields) (s : List Char) :
    readMember fields key s =
      (Json.pairWith (Json.readValue (Json.maxDepth - 1)) fields.others key s).map fun (others, s) =>
        ({ fields with others }, s) := by
  simp only [directNames, List.mem_cons, List.not_mem_nil, or_false, not_or] at hkey
  unfold readMember Json.pairWith
  split
  case h_8 =>
    cases Json.colon s with
    | error f => rfl
    | ok s =>
      show (Json.readValue (Json.maxDepth - 1) s).map _ = ((Json.readValue (Json.maxDepth - 1) s).map _).map _
      cases Json.readValue (Json.maxDepth - 1) s <;> rfl
  all_goals simp at hkey

/-- The text of the value of a member. -/
def ValueText (t : List Char) (v : Json) : Prop :=
  Denotes t v ∧ v.depth ≤ Json.maxDepth - 1

theorem reads_text : Reads (Json.readText .string) fun t x => Denotes t (.string x) :=
  Json.reads_text .string

theorem valueText_string {t : List Char} {x : String} (ht : Denotes t (.string x)) : ValueText t (.string x) :=
  ⟨ht, Nat.zero_le _⟩

theorem valueText_bool {t : List Char} {b : Bool} (ht : Denotes t (.bool b)) : ValueText t (.bool b) :=
  ⟨ht, Nat.zero_le _⟩

theorem reads_member :
    ReadsKeyed readMember fun fields m next => ∃ v, ValueText m.2 v ∧ MemberStep fields (m.1, v) next where
  give := by
    rintro fields key p next b b' rest ⟨v, ⟨hp, hdepth⟩, hstep⟩ hb hb' hends
    cases hstep with
    | executable hmet | username hmet | password hmet | server hmet | platform hmet =>
      show (Json.readField _ _ _ _).map _ = _
      rw [hmet, reads_text.give_field _ hp hb hb' hends]
      rfl
    | login hmet | cloudLogin hmet =>
      show (Json.readField _ _ _ _).map _ = _
      rw [hmet, Json.reads_bool.give_field _ hp hb hb' hends]
      rfl
    | other hkey =>
      have hpair : Json.pairWith _ fields.others key _ = .ok _ :=
        (Json.reads_value (Json.maxDepth - 1)).pairWith.give ⟨v, ⟨hp, hdepth⟩, rfl⟩ hb hb' hends
      rw [readMember_other hkey, hpair]
      rfl
  take := by
    intro fields key s r next hread hends
    by_cases hkey : key ∈ directNames
    · simp only [directNames, List.mem_cons, List.not_mem_nil, or_false] at hkey
      rcases hkey with rfl | rfl | rfl | rfl | rfl | rfl | rfl <;>
        obtain ⟨⟨x, s'⟩, hfield, heq⟩ := map_eq_ok.1 hread <;> cases heq
      · obtain ⟨hmet, b, b', p, hb, hb', hp, rfl⟩ := reads_text.take_field hfield hends
        exact ⟨b, b', p, hb, hb', ⟨_, valueText_string hp, .executable hmet⟩, rfl⟩
      · obtain ⟨hmet, b, b', p, hb, hb', hp, rfl⟩ := Json.reads_bool.take_field hfield hends
        exact ⟨b, b', p, hb, hb', ⟨_, valueText_bool hp, .login hmet⟩, rfl⟩
      · obtain ⟨hmet, b, b', p, hb, hb', hp, rfl⟩ := reads_text.take_field hfield hends
        exact ⟨b, b', p, hb, hb', ⟨_, valueText_string hp, .username hmet⟩, rfl⟩
      · obtain ⟨hmet, b, b', p, hb, hb', hp, rfl⟩ := reads_text.take_field hfield hends
        exact ⟨b, b', p, hb, hb', ⟨_, valueText_string hp, .password hmet⟩, rfl⟩
      · obtain ⟨hmet, b, b', p, hb, hb', hp, rfl⟩ := reads_text.take_field hfield hends
        exact ⟨b, b', p, hb, hb', ⟨_, valueText_string hp, .server hmet⟩, rfl⟩
      · obtain ⟨hmet, b, b', p, hb, hb', hp, rfl⟩ := Json.reads_bool.take_field hfield hends
        exact ⟨b, b', p, hb, hb', ⟨_, valueText_bool hp, .cloudLogin hmet⟩, rfl⟩
      · obtain ⟨hmet, b, b', p, hb, hb', hp, rfl⟩ := reads_text.take_field hfield hends
        exact ⟨b, b', p, hb, hb', ⟨_, valueText_string hp, .platform hmet⟩, rfl⟩
    · rw [readMember_other hkey] at hread
      obtain ⟨⟨others, s'⟩, hpair, heq⟩ := map_eq_ok.1 hread
      cases heq
      obtain ⟨b, b', p, hb, hb', ⟨v, hv, rfl⟩, rfl⟩ :=
        (Json.reads_value (Json.maxDepth - 1)).pairWith.take hpair hends
      exact ⟨b, b', p, hb, hb', ⟨v, hv, .other hkey⟩, rfl⟩

/-- The members kept for later are those with other keys, the last one first. -/
theorem others_through {ms : List (String × Json)} {fields final : Fields}
    (hthrough : Through MemberStep ms fields final) :
    final.others = (ms.filter fun m => m.1 ∉ directNames).reverse ++ fields.others := by
  induction hthrough with
  | nil => rfl
  | @cons m ms _ _ _ hstep _ ih =>
    rw [ih]
    cases hstep with
    | other hkey => simp [hkey]
    | _ => simp [directNames]

/-! ### Members about the cloud -/

/-- What was met in the field of a key about the cloud. -/
def CloudFields.met (fields : CloudFields) (key : String) : Option Json :=
  match key with
  | "aws_access_key" => fields.accessKey.map .string
  | "aws_secret_key" => fields.secretKey.map .string
  | "aws_token" => fields.token.map .string
  | "aws_profile" => fields.profile.map .string
  | _ => none

theorem met_no_cloudFields (key : String) : CloudFields.met {} key = none := by
  unfold CloudFields.met
  split <;> rfl

/-- The member is examined. -/
def CloudStep (fields : CloudFields) (m : String × Json) (next : CloudFields) : Prop :=
  examineMember fields m = .ok next

theorem examineAll_iff {ms : List (String × Json)} {fields final : CloudFields} :
    examineAll fields ms = .ok final ↔ Through CloudStep ms fields final := by
  induction ms generalizing fields with
  | nil =>
    constructor
    · rintro ⟨⟩
      exact .nil
    · rintro ⟨⟩
      rfl
  | cons m ms ih =>
    rw [examineAll]
    constructor
    · intro hall
      cases hnext : examineMember fields m with
      | error cause =>
        rw [hnext] at hall
        cases hall
      | ok next =>
        rw [hnext] at hall
        exact .cons hnext (ih.1 hall)
    · rintro (_ | ⟨hnext, hrest⟩)
      rw [show examineMember fields m = _ from hnext]
      exact ih.2 hrest

theorem examine_eq_ok {name : String} {met result : Option String} {v : Json} :
    examine name met v = .ok result ↔ met = none ∧ ∃ x, v = .string x ∧ result = some x := by
  cases met with
  | some y => simp [examine]
  | none =>
    cases v <;> simp [examine, eq_comm]

/-- A member with another key does not count. -/
theorem examineMember_other {key : String} (hkey : key ∉ cloudNames) (fields : CloudFields) (v : Json) :
    examineMember fields (key, v) = .ok fields := by
  simp only [cloudNames, List.mem_cons, List.not_mem_nil, or_false, not_or] at hkey
  simp only [examineMember]
  split
  case h_5 => rfl
  all_goals simp at hkey

theorem slots_cloudStep : Slots CloudFields.met cloudNames (fun _ v => ∃ x, v = .string x) CloudStep where
  filled := by
    intro s key v s' hstep hkey
    simp only [cloudNames, List.mem_cons, List.not_mem_nil, or_false] at hkey
    rcases hkey with rfl | rfl | rfl | rfl <;>
      · obtain ⟨t, hexamine, rfl⟩ := map_eq_ok.1 hstep
        obtain ⟨hmet, x, rfl, rfl⟩ := examine_eq_ok.1 hexamine
        simp [CloudFields.met, hmet]
  kept := by
    intro s key v s' key' hstep hkey' hne
    by_cases hkey : key ∈ cloudNames
    · simp only [cloudNames, List.mem_cons, List.not_mem_nil, or_false] at hkey hkey'
      rcases hkey with rfl | rfl | rfl | rfl <;>
        · obtain ⟨t, -, rfl⟩ := map_eq_ok.1 hstep
          rcases hkey' with rfl | rfl | rfl | rfl <;> first | exact absurd rfl hne | rfl
    · rw [CloudStep, examineMember_other hkey] at hstep
      cases hstep
      rfl
  fill := by
    intro s key v hfits
    by_cases hkey : key ∈ cloudNames
    · obtain ⟨hmet, x, rfl⟩ := hfits hkey
      simp only [cloudNames, List.mem_cons, List.not_mem_nil, or_false] at hkey
      rcases hkey with rfl | rfl | rfl | rfl <;> simp only [CloudFields.met, Option.map_eq_none_iff] at hmet <;>
        exact ⟨_, map_eq_ok.2 ⟨_, examine_eq_ok.2 ⟨hmet, x, rfl, rfl⟩, rfl⟩⟩
    · exact ⟨s, examineMember_other hkey s v⟩

/-! ### Settings and members -/

/-- The members configure the settings: each key has one member at most, with the value of the setting, and none only
if the setting is empty. -/
def Configures (ms : List (String × Json)) (c : Config) : Prop :=
  ∀ key ∈ settingNames,
    valuesOf key ms = [c.setting key] ∨ valuesOf key ms = [] ∧ c.setting key = setting {} key

/-- The settings with the members that were met in both passes. -/
def Fields.config (fields : Fields) (cloud : CloudFields) : Config where
  executable := fields.executable.getD ""
  login := fields.login.getD false
  username := fields.username.getD ""
  password := fields.password.getD ""
  server := fields.server.getD ""
  cloudLogin := fields.cloudLogin.getD false
  platform := fields.platform.getD ""
  cloud := cloud.access

theorem ofFields_eq_ok {fields : Fields} {c : Config} : ofFields fields = .ok c ↔
    ∃ cloud, Through CloudStep fields.others.reverse {} cloud ∧ fields.config cloud = c := by
  simp only [← examineAll_iff]
  exact map_eq_ok

theorem setting_config_direct {key : String} (hkey : key ∈ directNames) (fields : Fields) (cloud : CloudFields) :
    (fields.config cloud).setting key = (fields.met key).getD (setting {} key) := by
  simp only [directNames, List.mem_cons, List.not_mem_nil, or_false] at hkey
  obtain ⟨executable, login, username, password, server, cloudLogin, platform, others⟩ := fields
  rcases hkey with rfl | rfl | rfl | rfl | rfl | rfl | rfl
  · cases executable <;> rfl
  · cases login <;> rfl
  · cases username <;> rfl
  · cases password <;> rfl
  · cases server <;> rfl
  · cases cloudLogin <;> rfl
  · cases platform <;> rfl

theorem setting_config_cloud {key : String} (hkey : key ∈ cloudNames) (fields : Fields) (cloud : CloudFields) :
    (fields.config cloud).setting key = (cloud.met key).getD (setting {} key) := by
  simp only [cloudNames, List.mem_cons, List.not_mem_nil, or_false] at hkey
  obtain ⟨accessKey, secretKey, token, profile⟩ := cloud
  rcases hkey with rfl | rfl | rfl | rfl
  · cases accessKey <;> rfl
  · cases secretKey <;> rfl
  · cases token <;> rfl
  · cases profile <;> rfl

/-- The members kept for later have the values of the keys about the cloud. -/
theorem valuesOf_others {key : String} (hkey : key ∈ cloudNames) (ms : List (String × Json)) :
    valuesOf key (ms.filter fun m => m.1 ∉ directNames) = valuesOf key ms :=
  Json.valuesOf_filter (p := fun k => k ∉ directNames) (decide_eq_true (not_mem_directNames hkey)) ms

/-- A slot that holds what has been met. -/
theorem values_of_met {met : Option Json} {values : List Json} (hmet : met.toList = values) (d : Json) :
    values = [met.getD d] ∨ values = [] ∧ met.getD d = d := by
  subst hmet
  cases met with
  | none => exact .inr ⟨rfl, rfl⟩
  | some v => exact .inl rfl

/-- What the two passes make of the members is configured by them. -/
theorem configures_of_through {ms : List (String × Json)} {final : Fields} {cloud : CloudFields}
    (hfinal : Through MemberStep ms {} final) (hcloud : Through CloudStep final.others.reverse {} cloud) :
    Configures ms (final.config cloud) := by
  have hothers := others_through hfinal
  rw [List.append_nil] at hothers
  rw [hothers, List.reverse_reverse] at hcloud
  intro key hkey
  rcases List.mem_append.1 hkey with hdirect | hcloudName
  · have hmet := slots_memberStep.met_through hfinal hdirect
    rw [met_no_fields] at hmet
    rw [setting_config_direct hdirect]
    exact values_of_met hmet _
  · have hmet := slots_cloudStep.met_through hcloud hcloudName
    rw [met_no_cloudFields, valuesOf_others hcloudName] at hmet
    rw [setting_config_cloud hcloudName]
    exact values_of_met hmet _

theorem Configures.unique {ms : List (String × Json)} {c d : Config} (hc : Configures ms c) (hd : Configures ms d) :
    c = d := by
  refine eq_of_setting fun key hkey => ?_
  rcases hc key hkey with hvalues | ⟨hvalues, hc⟩ <;> rcases hd key hkey with hvalues' | ⟨hvalues', hd⟩
  · exact List.singleton_injective (hvalues.symm.trans hvalues')
  · rw [hvalues] at hvalues'
    cases hvalues'
  · rw [hvalues] at hvalues'
    cases hvalues'
  · exact hc.trans hd.symm

theorem Configures.length_le {ms : List (String × Json)} {c : Config} (hms : Configures ms c) {key : String}
    (hkey : key ∈ settingNames) : (valuesOf key ms).length ≤ 1 := by
  rcases hms key hkey with hvalues | ⟨hvalues, -⟩ <;> simp [hvalues]

/-- The value of a member is that of the setting. -/
theorem Configures.eq_setting {ms : List (String × Json)} {c : Config} (hms : Configures ms c) {m : String × Json}
    (hm : m ∈ ms) (hkey : m.1 ∈ settingNames) : m.2 = c.setting m.1 := by
  have hmem := Json.mem_valuesOf.2 hm
  rcases hms _ hkey with hvalues | ⟨hvalues, -⟩ <;> rw [hvalues] at hmem
  · exact List.mem_singleton.1 hmem
  · cases hmem

/-- Members that configure settings are taken in both passes. -/
theorem Configures.exists_through {ms : List (String × Json)} {c : Config} (hms : Configures ms c) :
    ∃ final cloud, Through MemberStep ms {} final ∧ Through CloudStep final.others.reverse {} cloud := by
  obtain ⟨final, hfinal⟩ : ∃ final, Through MemberStep ms {} final := by
    refine slots_memberStep.exists_through (fun key hkey => ?_) fun m hm hkey => ?_
    · rw [met_no_fields]
      exact hms.length_le (List.mem_append_left _ hkey)
    · rw [hms.eq_setting hm (List.mem_append_left _ hkey)]
      exact fitsDirect_setting c hkey
  have hothers := others_through hfinal
  rw [List.append_nil] at hothers
  obtain ⟨cloud, hcloud⟩ : ∃ cloud, Through CloudStep final.others.reverse {} cloud := by
    rw [hothers, List.reverse_reverse]
    refine slots_cloudStep.exists_through (fun key hkey => ?_) fun m hm hkey => ?_
    · rw [met_no_cloudFields, valuesOf_others hkey]
      exact hms.length_le (List.mem_append_right _ hkey)
    · rw [hms.eq_setting (List.mem_of_mem_filter hm) (List.mem_append_right _ hkey)]
      exact exists_setting_cloud c hkey
  exact ⟨final, cloud, hfinal, hcloud⟩

/-- **What the two passes make of the members are the settings that the members configure.** -/
theorem through_iff {ms : List (String × Json)} {c : Config} :
    (∃ final, Through MemberStep ms {} final ∧ ofFields final = .ok c) ↔ Configures ms c := by
  simp only [ofFields_eq_ok]
  constructor
  · rintro ⟨final, hfinal, cloud, hcloud, rfl⟩
    exact configures_of_through hfinal hcloud
  · intro hms
    obtain ⟨final, cloud, hfinal, hcloud⟩ := hms.exists_through
    exact ⟨final, hfinal, cloud, hcloud, (configures_of_through hfinal hcloud).unique hms⟩

/-! ### Texts -/

theorem read_iff {s r : List Char} {c : Config} : read s = .ok (c, r) ↔
    ∃ fields, Json.readMembers (.record recordName) readMember {} s = .ok (fields, r) ∧ ofFields fields = .ok c := by
  unfold read
  constructor
  · intro hread
    split at hread
    · cases hread
    · next fields s' hmembers =>
      split at hread
      · next c' hfields =>
        cases hread
        exact ⟨fields, hmembers, hfields⟩
      · cases hread
  · rintro ⟨fields, hmembers, hfields⟩
    simp only [hmembers, hfields]

/-- **A text is read as settings exactly if it is one of an object whose members configure them**, and which is nested
no deeper than the reader allows. -/
theorem reads_config : Reads read fun t c => ∃ ms : List (String × Json),
    Denotes t (.object ms) ∧ (∀ m ∈ ms, m.2.depth ≤ Json.maxDepth - 1) ∧ Configures ms c := by
  have hfields := reads_member.readMembers_values (.record recordName) {}
  refine (hfields.comp read_iff).congr fun t c => ?_
  simp only [← through_iff]
  constructor
  · rintro ⟨final, ⟨ms, ht, hdepth, hthrough⟩, hfinal⟩
    exact ⟨ms, ht, hdepth, final, hthrough, hfinal⟩
  · rintro ⟨ms, ht, hdepth, final, hthrough, hfinal⟩
    exact ⟨final, ⟨ms, ht, hdepth, hthrough⟩, hfinal⟩

end ImagePush.Config
