import ImagePush.Proofs.Config.Members
import ImagePush.Proofs.Text.Utf8

/-!
# Spellings of a configuration

The settings that a text is read as are those that the members of its object configure (`parse_iff`), so that the
order of the members does not matter, nor do the members that are no settings (`settings_read_alike`). What is
written is read back as it was, from a text (`parse_spells`) and from the content of a file (`ofBytes_spells`).
-/

namespace ImagePush.Config

open Json (Denotes Spells TextOf valuesOf)

/-! ### Texts of objects -/

/-- The values of members that are no settings are nested no deeper than the reader allows. -/
def OthersWithin (ms : List (String × Json)) : Prop :=
  ∀ m ∈ ms, m.1 ∉ settingNames → m.2.depth ≤ Json.maxDepth - 1

theorem depth_setting (c : Config) (key : String) : (c.setting key).depth = 0 := by
  unfold setting
  split <;> rfl

theorem Configures.depth_le {ms : List (String × Json)} {c : Config} (hms : Configures ms c)
    (hothers : OthersWithin ms) : ∀ m ∈ ms, m.2.depth ≤ Json.maxDepth - 1 := by
  intro m hm
  by_cases hkey : m.1 ∈ settingNames
  · rw [hms.eq_setting hm hkey, depth_setting]
    exact Nat.zero_le _
  · exact hothers m hm hkey

/-- **A text is read as settings exactly if it is one of an object whose members configure them.** -/
theorem parse_iff {text : List Char} {c : Config} :
    parse text = .ok c ↔ ∃ ms, TextOf (.object ms) text ∧ OthersWithin ms ∧ Configures ms c := by
  rw [parse, reads_config.ofText_iff]
  constructor
  · rintro ⟨b, t, b', hb, hb', ⟨ms, ht, hdepth, hms⟩, rfl⟩
    exact ⟨ms, ⟨b, t, b', hb, hb', ht, rfl⟩, fun m hm _ => hdepth m hm, hms⟩
  · rintro ⟨ms, ⟨b, t, b', hb, hb', ht, rfl⟩, hothers, hms⟩
    exact ⟨b, t, b', hb, hb', ⟨ms, ht, hms.depth_le hothers, hms⟩, rfl⟩

theorem parse_object_iff {ms : List (String × Json)} {text : List Char} {c : Config}
    (htext : TextOf (.object ms) text) : parse text = .ok c ↔ OthersWithin ms ∧ Configures ms c := by
  rw [parse_iff]
  constructor
  · rintro ⟨ns, htext', hms⟩
    cases htext.unique htext'
    exact hms
  · exact fun hms => ⟨ms, htext, hms⟩

/-! ### Members in any order -/

/-- The members that are settings. -/
def known (ms : List (String × Json)) : List (String × Json) :=
  ms.filter fun m => m.1 ∈ settingNames

theorem valuesOf_known {key : String} (hkey : key ∈ settingNames) (ms : List (String × Json)) :
    valuesOf key (known ms) = valuesOf key ms :=
  Json.valuesOf_filter (p := fun k => k ∈ settingNames) (decide_eq_true hkey) ms

/-- Members configure the same settings in any order, and among any others. -/
theorem Configures.of_perm {ms ns : List (String × Json)} {c : Config} (hms : Configures ms c)
    (hperm : (known ns).Perm (known ms)) : Configures ns c := by
  intro key hkey
  have hvalues : (valuesOf key ns).Perm (valuesOf key ms) := by
    rw [← valuesOf_known hkey ns, ← valuesOf_known hkey ms]
    exact (hperm.filter _).map _
  rcases hms key hkey with heq | ⟨heq, hempty⟩ <;> rw [heq] at hvalues
  · exact .inl (List.perm_singleton.1 hvalues)
  · exact .inr ⟨List.perm_nil.1 hvalues, hempty⟩

/-! ### What is written -/

theorem configures_members (c : Config) : Configures c.members c :=
  fun _ hkey => .inl (Json.valuesOf_map (by decide) c.setting hkey)

theorem othersWithin_members (c : Config) : OthersWithin c.members :=
  List.forall_mem_map.2 fun _ hkey hother => absurd hkey hother

theorem exact_toJson (c : Config) : c.toJson.Exact := by
  rw [toJson_eq]
  refine Json.allNumbers_object.2 (List.forall_mem_map.2 fun key _ => ?_)
  show (c.setting key).Exact
  unfold setting
  split <;> trivial

/-- **What is written is read back as it was**, whatever its layout. -/
theorem parse_spells {c : Config} {t : List Char} (ht : Spells c.toJson t) : parse t = .ok c :=
  (parse_object_iff (ht.denotes (exact_toJson c)).textOf).2 ⟨othersWithin_members c, configures_members c⟩

/-- **The content of the file of settings is read back as they were.** -/
theorem ofBytes_spells {c : Config} {t : List Char} (ht : Spells c.toJson t) :
    ofBytes (Text.Utf8.encode t) = .ok c := by
  rw [ofBytes, Text.Utf8.decode?_encode]
  show (parse t).mapError _ = _
  rw [parse_spells ht]
  rfl

/-! ### Main result -/

/-- **Settings are read back as they were written, and the order of their members does not matter.** Both texts that
are written are read back. Whatever is read as settings is the text of an object, each setting is the value of the
one member with its key or empty if there is none, and every other text of an object reads alike if it has the same
members for settings, in any order and among any others that are not nested too deep. -/
theorem settings_read_alike :
    (∀ c : Config, parse c.compact = .ok c ∧ parse c.pretty = .ok c) ∧
    (∀ text c, parse text = .ok c → ∃ ms, TextOf (.object ms) text) ∧
    ∀ ms text c, TextOf (.object ms) text → parse text = .ok c →
      (∀ key ∈ settingNames,
        valuesOf key ms = [c.setting key] ∨ valuesOf key ms = [] ∧ c.setting key = setting {} key) ∧
      ∀ ns text', TextOf (.object ns) text' → (known ns).Perm (known ms) → OthersWithin ns → parse text' = .ok c := by
  refine ⟨fun c => ⟨parse_spells (Json.spells_compact _), parse_spells (Json.spells_pretty _)⟩, ?_, ?_⟩
  · intro text c hparse
    obtain ⟨ms, htext, -⟩ := parse_iff.1 hparse
    exact ⟨ms, htext⟩
  · intro ms text c htext hparse
    obtain ⟨-, hms⟩ := (parse_object_iff htext).1 hparse
    refine ⟨hms, fun ns text' htext' hperm hothers => ?_⟩
    exact (parse_object_iff htext').2 ⟨hothers, hms.of_perm hperm⟩

/-- Settings for a login through the cloud. -/
def cloudSettings : Config where
  server := "s"
  cloudLogin := true
  cloud := { profile := "p" }

/-- Their members, the last one first and behind one that is no setting. -/
def reversedMembers : List (String × Json) := ("z", .array [.null]) :: cloudSettings.members.reverse

theorem settings_read_alike_reversed : parse (Json.compact (.object reversedMembers)) = .ok cloudSettings := by
  have hexact : (Json.object reversedMembers).Exact := by
    refine Json.allNumbers_object.2 (List.forall_mem_cons.2 ⟨?_, fun m hm => ?_⟩)
    · exact Json.allNumbers_array.2 (List.forall_mem_singleton.2 trivial)
    · exact Json.allNumbers_object.1 (exact_toJson cloudSettings) m (List.mem_reverse.1 hm)
  have htext : ∀ v : Json, v.Exact → TextOf v v.compact := fun v hv => ((Json.spells_compact v).denotes hv).textOf
  have hread := settings_read_alike.2.2 cloudSettings.members _ cloudSettings (htext _ (exact_toJson _))
    (settings_read_alike.1 cloudSettings).1
  refine hread.2 reversedMembers _ (htext _ hexact) ?_ ?_
  · rw [reversedMembers, known, List.filter_cons_of_neg (by decide), List.filter_reverse]
    exact List.reverse_perm _
  · refine List.forall_mem_cons.2 ⟨fun _ => by decide, fun m hm hkey => ?_⟩
    exact othersWithin_members cloudSettings m (List.mem_reverse.1 hm) hkey

end ImagePush.Config
