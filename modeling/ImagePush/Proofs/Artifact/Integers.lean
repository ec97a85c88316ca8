import ImagePush.Proofs.Artifact.Spellings
import ImagePush.Proofs.StateValue.Integers

/-!
# Whole numbers in artifacts

The text of a record may have its state as the member of an object or as the third item of an array (`RecordText`). A
whole number that is written in the text of the state stands in the state that is read
(`WrittenInState.standsFor`), and where the state of a record has a number that fits, the texts of the record have
its digits (`digitsAt_of_standsFor`).
-/

namespace ImagePush.Artifact

open Json (Step Blanks Enclosed Listed Denotes WellFormed ObjectText Holds DigitsAt Fits intText Spells valuesOf)
open StateValue (StandsFor)

/-- The part of the state of a record at the end of a path. -/
def at? (a : Artifact) (path : List Step) : Option StateValue :=
  (StateValue.map a.state).at? path

/-! ### Texts of records -/

/-- The text is one of a record, in which the text of the state is as given. -/
inductive RecordText (st : List Char) (a : Artifact) : List Char → Prop where
  /-- An object in which one member has the state. -/
  | object {ms : List (String × List Char)} {text : List Char} (htext : ObjectText ms text)
      (hvalues : ∀ m ∈ ms, WellFormed m.2) (htells : Tells ms a) (hstate : valuesOf "state" ms = [st]) :
      RecordText st a text
  /-- An array without files. -/
  | row {b b' p q body : List Char} (hb : Blanks b) (hb' : Blanks b') (hp : StringText p a.builderId)
      (hq : StringText q a.id) (hst : StateText st a.state) (hfiles : a.files = [])
      (hbody : Enclosed ']' [p, q, st] body) : RecordText st a (b ++ ('[' :: body ++ b'))
  /-- An array with all its values. -/
  | rowWithFiles {b b' p q fs body : List Char} (hb : Blanks b) (hb' : Blanks b') (hp : StringText p a.builderId)
      (hq : StringText q a.id) (hst : StateText st a.state) (hfs : FilesText fs a.files)
      (hbody : Enclosed ']' [p, q, st, fs] body) : RecordText st a (b ++ ('[' :: body ++ b'))

section

variable {st text : List Char} {a : Artifact}

/-- The text of a record is read as the record. -/
theorem RecordText.parse_eq (htext : RecordText st a text) : parse text = .ok a := by
  cases htext with
  | object htext hvalues htells _ => exact (parse_object_iff htext hvalues).2 htells
  | row hb hb' hp hq hst hfiles hbody =>
    apply parse_row hb hb'
    obtain ⟨t, hlisted, hrow⟩ := readRow_append hp hq hbody
    rw [hrow, readRowFrom_state hst hlisted, ← hfiles]
  | rowWithFiles hb hb' hp hq hst hfs hbody =>
    apply parse_row hb hb'
    obtain ⟨t, hlisted, hrow⟩ := readRow_append hp hq hbody
    rw [hrow, readRowFrom_files hst hfs hlisted]

theorem RecordText.stateText (htext : RecordText st a text) : StateText st a.state := by
  cases htext with
  | object _ _ htells hstate =>
    rcases htells.state with ⟨hnone, -⟩ | ⟨p, hvalues, hp⟩
    · rw [hstate] at hnone
      cases hnone
    · rw [hstate] at hvalues
      obtain rfl := List.singleton_inj.1 hvalues
      exact hp
  | row _ _ _ _ hst _ _ => exact hst
  | rowWithFiles _ _ _ _ hst _ _ => exact hst

/-- The text of a state has a value that is read as the state. -/
theorem StateText.exists_json {state : StateMap} (hst : StateText st state) :
    ∃ j, Denotes st j ∧ StateValue.ofJson j = .map state := by
  obtain ⟨ms, hms, -, rfl⟩ := hst
  refine ⟨_, hms, ?_⟩
  rw [StateValue.ofJson, StateValue.ofJsonMembers_eq]

end

/-! ### Whole numbers -/

/-- The text is one of a record, and a whole number is written in its state, as a value at the place. -/
def WrittenInState (n : Int) (place : Option (List Step)) (a : Artifact) (text : List Char) : Prop :=
  ∃ st value, RecordText st a text ∧ Holds Denotes (intText n) place st value

section

variable {n : Int} {place : Option (List Step)} {a : Artifact}

theorem WrittenInState.parse_eq {text : List Char} (htext : WrittenInState n place a text) : parse text = .ok a := by
  obtain ⟨st, value, hrecord, -⟩ := htext
  exact hrecord.parse_eq

/-- **The state has what stands for a number that is written in its text.** -/
theorem WrittenInState.standsFor {text : List Char} (htext : WrittenInState n place a text) :
    ∀ path ∈ place, ∃ u, a.at? path = some u ∧ StandsFor n u := by
  obtain ⟨st, value, hrecord, hholds⟩ := htext
  obtain ⟨j, hj, hstate⟩ := hrecord.stateText.exists_json
  have hstands := StateValue.standsFor_of_holds hholds hj
  rw [hstate] at hstands
  exact hstands

/-- The state of a record that is read is in order as one value. -/
theorem LoadedState.ordered_map {state : StateMap} (hstate : LoadedState state) : (StateValue.map state).Ordered :=
  StateValue.everywhere_map.2 ⟨hstate.sorted, hstate.ordered⟩

theorem valuesOf_state (a : Artifact) : valuesOf "state" a.jsonMembers = [(StateValue.map a.state).toJson] := by
  simp [jsonMembers, valuesOf, StateValue.toJson]

/-- The JSON value of a record has its state behind one key. -/
theorem at?_toJson (a : Artifact) (path : List Step) :
    a.toJson.at? (.key "state" :: path) = (StateValue.map a.state).toJson.at? path := by
  rw [toJson_eq, Json.at?, valuesOf_state]
  rfl

/-- **Where something in the state of a record stands for a number that fits, each text of the record has the
digits.** -/
theorem digitsAt_of_standsFor (hn : Fits n) {path : List Step} {u : StateValue}
    (ha : (StateValue.map a.state).Ordered) (hu : a.at? path = some u) (hstands : StandsFor n u) {t : List Char}
    (ht : Spells a.toJson t) : DigitsAt n (.key "state" :: path) a.toJson t := by
  apply Json.digitsAt_of_at? _ ht
  rw [at?_toJson, StateValue.at?_toJson path ha hu, hstands.toJson_eq hn]

/-- A text of a record has its members, and one of them is the state. -/
theorem exists_state_text {t : List Char} (ht : Spells a.toJson t) :
    ∃ ms st, ObjectText ms t ∧ (∀ m ∈ ms, ∃ v, (m.1, v) ∈ a.jsonMembers ∧ Spells v m.2) ∧
      valuesOf "state" ms = [st] ∧ Spells (StateValue.map a.state).toJson st := by
  rw [toJson_eq] at ht
  obtain ⟨pieces, body, hpieces, hbody, rfl⟩ := ht
  obtain ⟨texts, hmembers, htexts, hpieces⟩ := hpieces.exists_members
  have hvalues := Json.forall₂_valuesOf (R := fun p v => Spells v p) htexts "state"
  rw [hmembers, valuesOf_state, List.forall₂_cons_right_iff] at hvalues
  obtain ⟨st, rest, hst, hnone, hvalues⟩ := hvalues
  obtain rfl := List.forall₂_nil_right_iff.1 hnone
  refine ⟨_, st, ⟨[], body, [], Json.blanks_nil, Json.blanks_nil, ⟨_, hpieces, hbody⟩, by simp⟩, ?_, hvalues, hst⟩
  refine List.forall_mem_map.2 fun m hm => ⟨m.2.2, ?_, htexts m hm⟩
  rw [← hmembers]
  exact List.mem_map_of_mem (f := fun m : String × List Char × Json => (m.1, m.2.2)) hm

/-- **A number that is written is one that is read again**, if the record survives its text. -/
theorem writtenInState_of_spells (ha : a.Storable) {path : List Step} {u : StateValue} (hu : a.at? path = some u)
    (hn : u.toJson = .int n) {t : List Char} (ht : Spells a.toJson t) : WrittenInState n (some path) a.norm t := by
  obtain ⟨ms, st, htext, hms, hstate, hst⟩ := exists_state_text ht
  obtain ⟨ns, htext', hspelled⟩ := exists_spelledBy (ht.denotes ha.exact_toJson)
  have hexact : ∀ m ∈ a.jsonMembers, m.2.Exact := Json.allNumbers_object.1 (toJson_eq a ▸ ha.exact_toJson)
  have hwellFormed : ∀ m ∈ ms, WellFormed m.2 := by
    intro m hm
    obtain ⟨v, hmem, hv⟩ := hms m hm
    exact (hv.denotes (hexact _ hmem)).wellFormed
  obtain rfl := htext.unique htext' hwellFormed (hspelled.wellFormed ha)
  refine ⟨st, ?_⟩
  have hordered : (StateValue.map a.state).Ordered := StateValue.everywhere_map.2 ⟨ha.sorted, ha.ordered⟩
  obtain ⟨s, value, hs, hholds, hvalue⟩ := Json.holdsPart_of_at? (StateValue.at?_toJson path hordered hu) hst
  rw [hn] at hs hvalue
  obtain rfl : s = intText n := hs
  have hvalueExact : (value (.int n)).Exact := by
    rw [hvalue]
    exact hexact ("state", (StateValue.map a.state).toJson) (by simp [jsonMembers, StateValue.toJson])
  exact ⟨value, .object htext hwellFormed (hspelled.tells ha) hstate, hholds.of_exact hvalueExact⟩

end

end ImagePush.Artifact
