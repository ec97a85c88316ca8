import ImagePush.Program.Setup
import ImagePush.Proofs.KeyMap
import Mathlib.Data.List.Induction

/-!
# Shapes of an artifact's state

The tags and the data of an artifact come in several shapes, of which a list of strings and a map are the native
ones. A push sees nothing of an artifact but its builder, its id and its image state (`run_congr`). Hence an
artifact is pushed as its native form: a loose list counts as the strings in it, pairs count as the map of the
last value for each string, and any other shape as nothing (`pushed_as_native`).
-/

namespace ImagePush

/-! ### Native forms -/

/-- The last pair with a string for its key has the value. -/
def LastEntry (pairs : List (StateValue × StateValue)) (k : String) (v : StateValue) : Prop :=
  ∃ before after, pairs = before ++ (.string k, v) :: after ∧ ∀ p ∈ after, p.1 ≠ .string k

/-- What is kept under the name of the tags, if anything is, and a native form of it. -/
inductive NativeTags : Option StateValue → Option StateValue → Prop where
  | same (kept : Option StateValue) : NativeTags kept kept
  /-- A list counts as the strings in it, in their order. -/
  | list (items : List StateValue) :
      NativeTags (some (.list items)) (some (.strings (items.filterMap StateValue.string?)))
  /-- Any other shape counts as nothing. -/
  | other {v : StateValue} (hstrings : ∀ tags, v ≠ .strings tags) (hlist : ∀ items, v ≠ .list items) :
      NativeTags (some v) none

/-- What is kept under the name of the data, if anything is, and a native form of it. -/
inductive NativeData : Option StateValue → Option StateValue → Prop where
  | same (kept : Option StateValue) : NativeData kept kept
  /-- Pairs count as the map that has, for each string among the keys, the value of the last pair with it. -/
  | entries {pairs : List (StateValue × StateValue)} {members : KeyMap StateValue} (hsorted : members.Sorted)
      (hlast : ∀ k v, members.get? k = some v ↔ LastEntry pairs k v) :
      NativeData (some (.entries pairs)) (some (.map members))
  /-- Any other shape counts as nothing. -/
  | other {v : StateValue} (hmap : ∀ members, v ≠ .map members) (hentries : ∀ pairs, v ≠ .entries pairs) :
      NativeData (some v) none

/-- An artifact and another one that is the same, but for native forms of its tags and data. What else the two
carry does not matter. -/
structure NativeOf (a b : Artifact) : Prop where
  builderId_eq : a.builderId = b.builderId
  id_eq : a.id = b.id
  tags : NativeTags (a.value? Artifact.tagsKey) (b.value? Artifact.tagsKey)
  data : NativeData (a.value? Artifact.dataKey) (b.value? Artifact.dataKey)

/-- The tags and the data of an artifact have their native shapes, if there are any. -/
structure IsNative (a : Artifact) : Prop where
  tags : ∀ v, a.value? Artifact.tagsKey = some v → ∃ tags, v = .strings tags
  data : ∀ v, a.value? Artifact.dataKey = some v → ∃ members, v = .map members

/-! ### The map of some pairs -/

theorem lastEntry_nil {k : String} {v : StateValue} : ¬ LastEntry [] k v := by
  rintro ⟨before, after, hsplit, -⟩
  simp at hsplit

theorem lastEntry_concat_self {pairs : List (StateValue × StateValue)} {k : String} {v w : StateValue} :
    LastEntry (pairs ++ [(.string k, w)]) k v ↔ w = v := by
  constructor
  · rintro ⟨before, after, hsplit, hafter⟩
    rcases List.eq_nil_or_concat' after with rfl | ⟨rest, last, rfl⟩
    · have hlast := List.append_inj_right' hsplit rfl
      simpa using hlast
    · have hlast : (StateValue.string k, w) = last := by
        have hsplit' : pairs ++ [(.string k, w)] = (before ++ (.string k, v) :: rest) ++ [last] := by
          simpa using hsplit
        simpa using List.append_inj_right' hsplit' rfl
      subst hlast
      exact absurd rfl (hafter _ (List.mem_append_right _ (List.mem_singleton_self _)))
  · rintro rfl
    exact ⟨pairs, [], rfl, by simp⟩

theorem lastEntry_concat_of_ne {pairs : List (StateValue × StateValue)} {k : String} {v : StateValue}
    {p : StateValue × StateValue} (hp : p.1 ≠ .string k) :
    LastEntry (pairs ++ [p]) k v ↔ LastEntry pairs k v := by
  constructor
  · rintro ⟨before, after, hsplit, hafter⟩
    rcases List.eq_nil_or_concat' after with rfl | ⟨rest, last, rfl⟩
    · obtain rfl : p = (.string k, v) := by simpa using List.append_inj_right' hsplit rfl
      exact absurd rfl hp
    · have hsplit' : pairs ++ [p] = (before ++ (.string k, v) :: rest) ++ [last] := by
        simpa using hsplit
      exact ⟨before, rest, List.append_inj_left' hsplit' rfl, fun q hq => hafter q (List.mem_append_left _ hq)⟩
  · rintro ⟨before, after, rfl, hafter⟩
    refine ⟨before, after ++ [p], by simp, fun q hq => ?_⟩
    rcases List.mem_append.1 hq with hq | hq
    · exact hafter q hq
    · rw [List.mem_singleton.1 hq]
      exact hp

namespace ImageState

/-- **The map of some pairs has the last value for each string among their keys.** -/
theorem get?_dataOf_entries (pairs : List (StateValue × StateValue)) (k : String) (v : StateValue) :
    (dataOf (.entries pairs)).get? k = some v ↔ LastEntry pairs k v := by
  -- The induction goes from the end, where pairs are put in last.
  induction pairs using List.reverseRecOn with
  | nil => exact iff_of_false (by simp [dataOf, KeyMap.ofList]) lastEntry_nil
  | append_singleton pairs p ih =>
    obtain ⟨key, w⟩ := p
    have hkept : dataEntry? (key, w) = none →
        dataOf (.entries (pairs ++ [(key, w)])) = dataOf (.entries pairs) := by
      intro hnone
      simp [dataOf, hnone]
    cases key with
    | string j =>
      have hput : dataOf (.entries (pairs ++ [(.string j, w)])) =
          KeyMap.insert j w (dataOf (.entries pairs)) := by
        simp [dataOf, dataEntry?, StateValue.string?, KeyMap.ofList_concat]
      rw [hput]
      by_cases hjk : k = j
      · subst hjk
        rw [KeyMap.get?_insert_self, Option.some.injEq, lastEntry_concat_self]
      · have hne : StateValue.string j ≠ .string k := fun heq => hjk (StateValue.string.inj heq).symm
        rw [KeyMap.get?_insert_of_ne hjk, lastEntry_concat_of_ne hne, ih]
    | _ => rw [hkept rfl, lastEntry_concat_of_ne (by simp), ih]

theorem sorted_dataOf_entries (pairs : List (StateValue × StateValue)) :
    (dataOf (.entries pairs)).Sorted :=
  KeyMap.sorted_ofList _

end ImageState

section

variable {kept native : Option StateValue}

theorem NativeTags.tags_eq (hnative : NativeTags kept native) :
    (kept.map ImageState.tagsOf).getD [] = (native.map ImageState.tagsOf).getD [] := by
  cases hnative with
  | same => rfl
  | list items => rfl
  | @other v hstrings hlist =>
    cases v with
    | strings tags => exact absurd rfl (hstrings tags)
    | list items => exact absurd rfl (hlist items)
    | _ => rfl

theorem NativeData.data_eq (hnative : NativeData kept native) :
    (kept.map ImageState.dataOf).getD [] = (native.map ImageState.dataOf).getD [] := by
  cases hnative with
  | same => rfl
  | @entries pairs members hsorted hlast =>
    refine KeyMap.Sorted.ext (ImageState.sorted_dataOf_entries pairs) hsorted fun k => ?_
    refine Option.ext fun v => ?_
    exact (ImageState.get?_dataOf_entries pairs k v).trans (hlast k v).symm
  | @other v hmap hentries =>
    cases v with
    | map members => exact absurd rfl (hmap members)
    | entries pairs => exact absurd rfl (hentries pairs)
    | _ => rfl

end

/-- An artifact and its native form stand for the same image state. -/
theorem NativeOf.imageState_eq {a b : Artifact} (hnative : NativeOf a b) :
    ImageState.ofArtifact a = ImageState.ofArtifact b := by
  rw [ImageState.ofArtifact, hnative.tags.tags_eq, hnative.data.data_eq, ← ImageState.ofArtifact]

/-! ### Every artifact has a native form -/

theorem exists_nativeTags (kept : Option StateValue) :
    ∃ native, NativeTags kept native ∧ ∀ v, native = some v → ∃ tags, v = .strings tags := by
  cases kept with
  | none => exact ⟨none, .same none, by simp⟩
  | some v =>
    cases v with
    | strings tags => exact ⟨_, .same _, fun v hv => ⟨tags, (Option.some.inj hv).symm⟩⟩
    | list items => exact ⟨_, .list items, fun v hv => ⟨_, (Option.some.inj hv).symm⟩⟩
    | _ => exact ⟨none, .other (by simp) (by simp), by simp⟩

theorem exists_nativeData (kept : Option StateValue) :
    ∃ native, NativeData kept native ∧ ∀ v, native = some v → ∃ members, v = .map members := by
  cases kept with
  | none => exact ⟨none, .same none, by simp⟩
  | some v =>
    cases v with
    | map members => exact ⟨_, .same _, fun v hv => ⟨members, (Option.some.inj hv).symm⟩⟩
    | entries pairs =>
      exact ⟨_, .entries (ImageState.sorted_dataOf_entries pairs) (ImageState.get?_dataOf_entries pairs),
        fun v hv => ⟨_, (Option.some.inj hv).symm⟩⟩
    | _ => exact ⟨none, .other (by simp) (by simp), by simp⟩

/-- The artifact that keeps a value, or nothing, under a name. -/
def Artifact.keeping (a : Artifact) (key : String) : Option StateValue → Artifact
  | some v => a.bind key v
  | none => { a with state := a.state.erase key }

section

variable (a : Artifact) (key : String) (kept : Option StateValue)

@[simp]
theorem Artifact.builderId_keeping : (a.keeping key kept).builderId = a.builderId := by
  cases kept <;> rfl

@[simp]
theorem Artifact.id_keeping : (a.keeping key kept).id = a.id := by
  cases kept <;> rfl

@[simp]
theorem Artifact.files_keeping : (a.keeping key kept).files = a.files := by
  cases kept <;> rfl

@[simp]
theorem Artifact.value?_keeping_self : (a.keeping key kept).value? key = kept := by
  cases kept with
  | some v => exact KeyMap.get?_insert_self key v a.state
  | none => exact KeyMap.get?_erase_self key a.state

theorem Artifact.value?_keeping_of_ne {k : String} (hne : k ≠ key) :
    (a.keeping key kept).value? k = a.value? k := by
  cases kept with
  | some v => exact KeyMap.get?_insert_of_ne hne v a.state
  | none => exact KeyMap.get?_erase_of_ne hne a.state

end

/-- Every artifact has a native form, which differs from it in its tags and data only. -/
theorem exists_nativeOf (a : Artifact) :
    ∃ b, NativeOf a b ∧ IsNative b ∧ b.files = a.files ∧
      ∀ k, k ≠ Artifact.tagsKey → k ≠ Artifact.dataKey → b.value? k = a.value? k := by
  obtain ⟨tags, htags, hstrings⟩ := exists_nativeTags (a.value? Artifact.tagsKey)
  obtain ⟨data, hdata, hmap⟩ := exists_nativeData (a.value? Artifact.dataKey)
  have hkeys : Artifact.tagsKey ≠ Artifact.dataKey := by decide
  have hbtags : ((a.keeping Artifact.tagsKey tags).keeping Artifact.dataKey data).value? Artifact.tagsKey = tags := by
    rw [Artifact.value?_keeping_of_ne _ _ _ hkeys, Artifact.value?_keeping_self]
  have hbdata : ((a.keeping Artifact.tagsKey tags).keeping Artifact.dataKey data).value? Artifact.dataKey = data :=
    Artifact.value?_keeping_self _ _ _
  refine ⟨(a.keeping Artifact.tagsKey tags).keeping Artifact.dataKey data, ⟨by simp, by simp, ?_, ?_⟩, ⟨?_, ?_⟩,
    by simp, fun k htagsKey hdataKey => ?_⟩
  · rw [hbtags]
    exact htags
  · rw [hbdata]
    exact hdata
  · rw [hbtags]
    exact hstrings
  · rw [hbdata]
    exact hmap
  · rw [Artifact.value?_keeping_of_ne _ _ _ hdataKey, Artifact.value?_keeping_of_ne _ _ _ htagsKey]

/-! ### Pushes of artifacts in different shapes -/

namespace Push

variable {m : Type → Type} [Monad m] {a b : Artifact}

theorem pushArtifact_congr (p : Peers m) (platform : String) (hid : a.id = b.id)
    (hstate : ImageState.ofArtifact a = ImageState.ofArtifact b) :
    pushArtifact p platform a = pushArtifact p platform b := by
  simp only [pushArtifact, pushed, hid, hstate]

theorem loginAndPush_congr (p : Peers m) (c : Config) (hid : a.id = b.id)
    (hstate : ImageState.ofArtifact a = ImageState.ofArtifact b) : loginAndPush p c a = loginAndPush p c b := by
  simp only [loginAndPush, pushArtifact_congr p c.platform hid hstate]

/-- **A push sees nothing of an artifact but its builder, its id and its image state.** -/
theorem run_congr (w : Workplace m) (own : Bool) (c : Config) (hbuilder : a.builderId = b.builderId)
    (hid : a.id = b.id) (hstate : ImageState.ofArtifact a = ImageState.ofArtifact b) :
    run w own c a = run w own c b := by
  have himage : a.isImage = b.isImage := by rw [Artifact.isImage, hbuilder, ← Artifact.isImage]
  simp only [run, himage, hbuilder, loginAndPush_congr _ c hid hstate]

end Push

/-- **An artifact is pushed as its native form**, by the engine as by a driver of the caller: the same is asked
and told, and the same comes of it. Every artifact has a native form. -/
theorem pushed_as_native :
    (∀ a b : Artifact, NativeOf a b → ∀ {m : Type → Type} [Monad m],
      (∀ (w : Push.Workplace m) (own : Bool) (c : Config), Push.run w own c a = Push.run w own c b) ∧
      ∀ (h : Host m) (notify : Notice → m Unit) (x : Program.Setup m), x.push h notify a = x.push h notify b) ∧
    ∀ a : Artifact, ∃ b, NativeOf a b ∧ IsNative b ∧ b.files = a.files ∧
      ∀ k, k ≠ Artifact.tagsKey → k ≠ Artifact.dataKey → b.value? k = a.value? k := by
  refine ⟨fun a b hnative => ?_, exists_nativeOf⟩
  intro m _
  have hrun : ∀ (w : Push.Workplace m) (own : Bool) (c : Config), Push.run w own c a = Push.run w own c b :=
    fun w own c => Push.run_congr w own c hnative.builderId_eq hnative.id_eq hnative.imageState_eq
  refine ⟨hrun, fun h notify x => ?_⟩
  simp only [Program.Setup.push, hrun]

/-- Pairs of which two have the same string for a key, and one has none. -/
def doubled : List (StateValue × StateValue) :=
  [(.string "Size", .integer 1), (.null, .string "lost"), (.string "Size", .string "2")]

/-- An artifact with loose tags, one of them twice, and with such pairs. -/
def paired : Artifact where
  builderId := Artifact.tagBuilder
  id := "app"
  state :=
    [(Artifact.tagsKey, .list [.string "v1", .integer 7, .string "v1"]), (Artifact.dataKey, .entries doubled)]

/-- The same artifact in native shapes. -/
def unpaired : Artifact where
  builderId := Artifact.tagBuilder
  id := "app"
  state := [(Artifact.tagsKey, .strings ["v1", "v1"]), (Artifact.dataKey, .map [("Size", .string "2")])]

theorem pushed_as_native_paired :
    NativeOf paired unpaired ∧
      ∀ {m : Type → Type} [Monad m] (w : Push.Workplace m) (own : Bool) (c : Config),
        Push.run w own c paired = Push.run w own c unpaired := by
  have hmap : ImageState.dataOf (.entries doubled) = [("Size", .string "2")] := rfl
  have hsorted := ImageState.sorted_dataOf_entries doubled
  have hlast := ImageState.get?_dataOf_entries doubled
  rw [hmap] at hsorted hlast
  have hnative : NativeOf paired unpaired :=
    ⟨rfl, rfl, .list [.string "v1", .integer 7, .string "v1"], .entries hsorted hlast⟩
  exact ⟨hnative, fun w own c => (pushed_as_native.1 paired unpaired hnative).1 w own c⟩

end ImagePush
