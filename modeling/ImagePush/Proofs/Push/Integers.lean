import ImagePush.Proofs.Artifact.Integers
import ImagePush.Proofs.Push.Rerun

/-!
# Whole numbers in what a push hands on

The record of a pushed image has the data of the artifact at the same places, under every key but the one of the
digest (`at?_pushed_data`), and no whole number but those of the artifact (`at?_of_at?_pushed`). So a number that fits
64 bits and is written in the data of an artifact has the same digits in the record that a push hands on
(`integers_carried_exactly`). A number elsewhere in the state is not handed on (`number_outside_data_dropped`).
-/

namespace ImagePush.Push

open Json (Step WrittenIn DigitsAt Fits Spells)
open StateValue (StandsFor)
open Artifact (WrittenInState)

/-! ### Places in the record of a pushed image -/

/-- The data of a record that is read stand under their name. -/
theorem at?_data {a : Artifact} (ha : Artifact.LoadedState a.state) (k : String) (path : List Step) :
    a.at? (.key Artifact.dataKey :: .key k :: path) =
      ((ImageState.ofArtifact a).data.get? k).bind fun v => v.at? path := by
  rw [data_ofArtifact ha]
  show ((a.value? Artifact.dataKey).bind fun v => v.at? (.key k :: path)) = _
  unfold dataIn
  split
  · next members hvalue =>
    rw [hvalue]
    rfl
  · next hother =>
    cases hvalue : a.value? Artifact.dataKey with
    | none => rfl
    | some v =>
      cases v with
      | map members => exact absurd hvalue (hother members)
      | _ => rfl

section

variable (dir : Option Directory) {a : Artifact} (digest : String)

/-- The data of the artifact stand in the record of the pushed image with the digest. -/
theorem at?_pushed (k : String) (path : List Step) :
    (pushed dir a digest).image.record.at? (.key Artifact.dataKey :: .key k :: path) =
      (((ImageState.ofArtifact a).data.insert ImageState.digestKey (.string digest)).get? k).bind
        fun v => v.at? path := by
  have hkeys : Artifact.tagsKey ≠ Artifact.dataKey := by decide
  rw [Artifact.at?, state_pushed, StateValue.at?, KeyMap.get?, if_neg hkeys, KeyMap.get?, if_pos rfl]
  rfl

/-- **Under every key but the one of the digest the record has the data of the artifact**, at the same places. -/
theorem at?_pushed_data (ha : Artifact.LoadedState a.state) {k : String} (hk : k ≠ ImageState.digestKey)
    (path : List Step) :
    (pushed dir a digest).image.record.at? (.key Artifact.dataKey :: .key k :: path) =
      a.at? (.key Artifact.dataKey :: .key k :: path) := by
  rw [at?_pushed, KeyMap.get?_insert_of_ne hk, at?_data ha]

/-- **The record has no whole number but those of the artifact**, at the same places. -/
theorem at?_of_at?_pushed (ha : Artifact.LoadedState a.state) {path : List Step} {u : StateValue}
    (hu : (pushed dir a digest).image.record.at? path = some u) (hinteger : u.IsInteger) : a.at? path = some u := by
  have hmap : ∀ ms : List (String × StateValue), (StateValue.map ms).at? [] ≠ some u := by
    intro ms hms
    obtain rfl := Option.some.inj hms
    rcases hinteger with ⟨k, hk⟩ | ⟨k, hk⟩ <;> cases hk
  match path, hu with
  | [], hu => exact absurd hu (hmap _)
  | .item i :: path, hu => cases hu
  | .key k :: path, hu =>
    obtain ⟨v, hv, hpart⟩ := Option.bind_eq_some_iff.1 hu
    rw [state_pushed] at hv
    have hmem := KeyMap.mem_of_get? hv
    simp only [List.mem_cons, List.not_mem_nil, or_false, Prod.mk.injEq] at hmem
    rcases hmem with ⟨rfl, rfl⟩ | ⟨rfl, rfl⟩
    · exact absurd hinteger (StateValue.not_isInteger_of_at?_strings hpart)
    · match path, hpart with
      | [], hpart => exact absurd hpart (hmap _)
      | .item i :: path, hpart => cases hpart
      | .key k :: path, hpart =>
        by_cases hk : k = ImageState.digestKey
        · subst hk
          rw [at?_pushed, KeyMap.get?_insert_self] at hu
          exact absurd hinteger (StateValue.not_isInteger_of_at?_string hu)
        · rw [at?_pushed_data dir digest ha hk] at hu
          exact hu

/-- The state of the record is in order if the artifact was read. -/
theorem ordered_pushed (ha : Artifact.LoadedState a.state) :
    (StateValue.map (pushed dir a digest).image.record.state).Ordered := by
  have hdata := (loadedData_ofArtifact ha).insert_string ImageState.digestKey digest
  refine StateValue.everywhere_map.2 ⟨KeyMap.sorted_ofList _, ?_⟩
  refine forall_state_pushed dir a digest (fun _ => trivial) ?_
  exact StateValue.everywhere_map.2 ⟨hdata.sorted, hdata.ordered⟩

/-- **Where something in the data of the artifact stands for a number that fits, each text of the record has the
digits.** -/
theorem digitsAt_pushed (ha : Artifact.LoadedState a.state) {k : String} (hk : k ≠ ImageState.digestKey)
    {n : Int} (hn : Fits n) {path : List Step} {u : StateValue}
    (hu : a.at? (.key Artifact.dataKey :: .key k :: path) = some u) (hstands : StandsFor n u) {t : List Char}
    (ht : Spells (pushed dir a digest).image.record.toJson t) :
    DigitsAt n (.key "state" :: .key Artifact.dataKey :: .key k :: path)
      (pushed dir a digest).image.record.toJson t := by
  apply Artifact.digitsAt_of_standsFor hn (ordered_pushed dir digest ha) _ hstands ht
  rw [at?_pushed_data dir digest ha hk]
  exact hu

end

/-! ### Main result -/

/-- **Whole numbers are carried exactly, or not as whole numbers at all.** A text with a whole number in it, wherever
it stands, is read as a value with an integer, a natural number or a double at the place, by the range of the number,
unless it does not fit 64 bits and is out of range; and where it fits, the texts of the value have its digits at the
place. The same holds of a number in the state of an artifact that is read and written. A push that succeeds hands on
no whole number but those that the artifact has at the same places, and it hands on the data under every key but the
one of the digest, so that a number that fits and is written there has its digits in the texts of the record. -/
theorem integers_carried_exactly (n : Int) :
    (∀ place text, WrittenIn n place text →
      (∃ v, StateValue.parse text = .ok v ∧ ∀ path ∈ place, (∃ u, v.at? path = some u ∧ StandsFor n u) ∧
        (Fits n → DigitsAt n path v.toJson v.compact ∧ DigitsAt n path v.toJson v.pretty)) ∨
      ¬ Fits n ∧ ∃ e, StateValue.parse text = .error e ∧ e.cause = .numberOutOfRange) ∧
    (∀ place a text, WrittenInState n place a text →
      Artifact.ofBytes (Text.Utf8.encode text) = .ok a ∧
      ∀ path ∈ place, (∃ u, a.at? path = some u ∧ StandsFor n u) ∧
        (Fits n → DigitsAt n (.key "state" :: path) a.toJson a.compact ∧
          DigitsAt n (.key "state" :: path) a.toJson a.pretty)) ∧
    ∀ (s : Script) (own : Bool) (c : Config) (a : Artifact) (text : List Char) (h h' : History) (p : Pushed),
      Artifact.parse text = .ok a → s.run own c a h = (.ok p, h') →
      (∀ path u, p.image.record.at? path = some u → u.IsInteger → a.at? path = some u) ∧
      ∀ k path, k ≠ ImageState.digestKey →
        p.image.record.at? (.key Artifact.dataKey :: .key k :: path) =
          a.at? (.key Artifact.dataKey :: .key k :: path) ∧
        (Fits n → WrittenInState n (some (.key Artifact.dataKey :: .key k :: path)) a text →
          DigitsAt n (.key "state" :: .key Artifact.dataKey :: .key k :: path) p.image.record.toJson
            p.image.record.compact ∧
          DigitsAt n (.key "state" :: .key Artifact.dataKey :: .key k :: path) p.image.record.toJson
            p.image.record.pretty) := by
  refine ⟨fun place text htext => ?_, fun place a text htext => ?_, ?_⟩
  · rcases StateValue.parse_of_writtenIn htext with ⟨v, hparse, hplace⟩ | hrange
    · refine .inl ⟨v, hparse, fun path hpath => ⟨hplace path hpath, fun hn => ?_⟩⟩
      obtain ⟨u, hu, hstands⟩ := hplace path hpath
      have hordered := (StateValue.of_parse hparse).2
      exact ⟨StateValue.digitsAt_of_standsFor hn hordered hu hstands (Json.spells_compact _),
        StateValue.digitsAt_of_standsFor hn hordered hu hstands (Json.spells_pretty _)⟩
    · exact .inr hrange
  · have hparse := htext.parse_eq
    refine ⟨?_, fun path hpath => ⟨htext.standsFor path hpath, fun hn => ?_⟩⟩
    · rw [Artifact.ofBytes, Text.Utf8.decode?_encode]
      show (Artifact.parse text).mapError _ = _
      rw [hparse]
      rfl
    · obtain ⟨u, hu, hstands⟩ := htext.standsFor path hpath
      have hordered := (Artifact.loadedState_of_parse hparse).ordered_map
      exact ⟨Artifact.digitsAt_of_standsFor hn hordered hu hstands (Json.spells_compact _),
        Artifact.digitsAt_of_standsFor hn hordered hu hstands (Json.spells_pretty _)⟩
  · intro s own c a text h h' p hparse hrun
    have ha := Artifact.loadedState_of_parse hparse
    obtain ⟨es, -, hcourse⟩ := run_course s hrun (by simp)
    obtain ⟨dir, answer, rfl, -⟩ := hcourse.pushed_eq
    refine ⟨fun path u hu hinteger => at?_of_at?_pushed dir _ ha hu hinteger, fun k path hk => ?_⟩
    refine ⟨at?_pushed_data dir _ ha hk path, fun hn htext => ?_⟩
    obtain ⟨u, hu, hstands⟩ := htext.standsFor _ rfl
    exact ⟨digitsAt_pushed dir _ ha hk hn hu hstands (Json.spells_compact _),
      digitsAt_pushed dir _ ha hk hn hu hstands (Json.spells_pretty _)⟩

/-- An artifact with the largest number among its data, and a small one beside them. -/
def counted : Artifact where
  builderId := Artifact.tagBuilder
  id := "app"
  state := [(Artifact.dataKey, .map [("Size", .unsigned 18446744073709551615)]), ("retries", .integer 5)]

/-- What happens when it is pushed by a willing engine. -/
def countedEvents : History :=
  headline counted :: pushEvents none "" ["app"] ++ [.request none (.digest "app")]

theorem storable_counted : counted.Storable := by
  have hkeys : Artifact.dataKey < "retries" := by decide
  have hdata : KeyMap.Sorted [("Size", StateValue.unsigned 18446744073709551615)] := List.pairwise_singleton _ _
  refine ⟨List.pairwise_pair.2 hkeys, ?_, ?_, by decide⟩
  · simp [counted, StateValue.Ordered, StateValue.Everywhere, StateValue.EverywhereInMembers,
      StateValue.KeysIncrease, hdata]
  · simp [counted, StateValue.NoFiniteFloat, StateValue.Everywhere, StateValue.EverywhereInMembers,
      StateValue.NotFinite]

/-- Its text has the number that is put in its state. -/
theorem writtenInState_counted {n : Int} {path : List Step} {u : StateValue} (hu : counted.at? path = some u)
    (hn : u.toJson = .int n) : WrittenInState n (some path) counted counted.pretty :=
  Artifact.writtenInState_of_spells storable_counted hu hn (Json.spells_pretty _)

theorem integers_carried_exactly_counted :
    (willing (.ok "app@sha256:2")).run false {} counted [] =
        (.ok (pushed none counted "app@sha256:2"), countedEvents) ∧
      DigitsAt 18446744073709551615 [.key "state", .key "generated_data", .key "Size"]
        (pushed none counted "app@sha256:2").image.record.toJson
        (pushed none counted "app@sha256:2").image.record.pretty := by
  have htext : WrittenInState 18446744073709551615 (some [.key Artifact.dataKey, .key "Size"]) counted counted.pretty :=
    writtenInState_counted rfl rfl
  have hpush := (integers_carried_exactly 18446744073709551615).2.2 (willing (.ok "app@sha256:2")) false {} counted
    counted.pretty [] countedEvents (pushed none counted "app@sha256:2") htext.parse_eq rfl
  exact ⟨rfl, ((hpush.2 "Size" [] (by decide)).2 (by unfold Fits; omega) htext).2⟩

/-- A number that fits and is written in the state, but not among the data, is not in the record that is handed on. -/
theorem number_outside_data_dropped :
    Fits 5 ∧ WrittenInState 5 (some [.key "retries"]) counted counted.pretty ∧
      (willing (.ok "app@sha256:2")).run false {} counted [] =
        (.ok (pushed none counted "app@sha256:2"), countedEvents) ∧
      ¬ DigitsAt 5 [.key "state", .key "retries"] (pushed none counted "app@sha256:2").image.record.toJson
        (pushed none counted "app@sha256:2").image.record.pretty := by
  refine ⟨by unfold Fits; omega, writtenInState_counted rfl rfl, rfl, ?_⟩
  rintro ⟨value, hholds, hvalue⟩
  have hplace := hholds.at?_value (.int 5) _ rfl
  rw [hvalue, Artifact.at?_toJson, state_pushed] at hplace
  cases hplace

end ImagePush.Push
