import ImagePush.Proofs.Artifact.Members
import ImagePush.Proofs.StateValue.RoundTrip
import ImagePush.Proofs.Text.Utf8

/-!
# Round trip of artifacts

The text of a record is read as the record with the normal forms of its values (`parse_spells`), and so is the
content of its file (`ofBytes_toBytes`). The state of every record that is read is in order, its values are
normal, and they are nested no deeper than a record allows (`loadedState_of_parse`).
-/

namespace ImagePush.Artifact

open Json (Reading Spells Denotes WellFormed ObjectText valuesOf)

/-- The record with the normal forms of its values. -/
def norm (a : Artifact) : Artifact :=
  { a with state := a.state.map fun p => (p.1, p.2.norm) }

/-- A record that survives its text: its state and the maps in it are in order, no finite double occurs in
it, and its values are nested no deeper than a record allows. -/
structure Storable (a : Artifact) : Prop where
  sorted : KeyMap.Sorted a.state
  ordered : ∀ p ∈ a.state, p.2.Ordered
  noFiniteFloat : ∀ p ∈ a.state, p.2.NoFiniteFloat
  depth_le : ∀ p ∈ a.state, p.2.toJson.depth ≤ valueDepth

/-- A record of normal values is its normal form. -/
theorem norm_eq {a : Artifact} (ha : ∀ p ∈ a.state, p.2.Normal) : a.norm = a := by
  have hself : (a.state.map fun p => (p.1, p.2.norm)) = a.state.map fun p => p :=
    List.map_congr_left fun p hp => Prod.ext rfl (ha p hp).norm_eq
  rw [norm, hself, List.map_id']

/-! ### The JSON value of a record -/

/-- The members that a record is written with. -/
def jsonMembers (a : Artifact) : List (String × Json) :=
  [("builder_id", .string a.builderId), ("id", .string a.id),
    ("state", .object (StateValue.toJsonMembers a.state))] ++
  if a.files.isEmpty then [] else [("files", .array (a.files.map .string))]

theorem toJson_eq (a : Artifact) : a.toJson = .object a.jsonMembers := rfl

/-- What holds of the four members that a record can have holds of those it has. -/
theorem forall_jsonMembers {a : Artifact} {P : String × Json → Prop}
    (hbuilder : P ("builder_id", .string a.builderId)) (hid : P ("id", .string a.id))
    (hstate : P ("state", .object (StateValue.toJsonMembers a.state)))
    (hfiles : P ("files", .array (a.files.map .string))) : ∀ m ∈ a.jsonMembers, P m := by
  intro m hm
  rcases List.mem_append.1 hm with hm | hm
  · simp only [List.mem_cons, List.not_mem_nil, or_false] at hm
    rcases hm with rfl | rfl | rfl
    · exact hbuilder
    · exact hid
    · exact hstate
  · split at hm
    · cases hm
    · rw [List.mem_singleton.1 hm]
      exact hfiles

/-- The members of an object spell the record: its builder and its id once each, its state and its files once at
most and not at all only if they are empty, and any others with other keys. -/
structure SpelledBy (a : Artifact) (ms : List (String × List Char)) : Prop where
  builderId : ∃ p, valuesOf "builder_id" ms = [p] ∧ Denotes p (.string a.builderId)
  id : ∃ p, valuesOf "id" ms = [p] ∧ Denotes p (.string a.id)
  state : valuesOf "state" ms = [] ∧ a.state = [] ∨
    ∃ p, valuesOf "state" ms = [p] ∧ Denotes p (.object (StateValue.toJsonMembers a.state))
  files : valuesOf "files" ms = [] ∧ a.files = [] ∨
    ∃ p, valuesOf "files" ms = [p] ∧ Denotes p (.array (a.files.map .string))
  others : ∀ m ∈ ms, m.1 ∉ fieldNames → WellFormed m.2

/-- The text of the state has the normal forms of its values as the state. -/
theorem Storable.stateText {a : Artifact} (ha : a.Storable) {p : List Char}
    (hp : Denotes p (.object (StateValue.toJsonMembers a.state))) : StateText p a.norm.state := by
  refine ⟨_, hp, ?_, ?_⟩
  · rw [StateValue.toJsonMembers_eq]
    exact List.forall_mem_map.2 ha.depth_le
  · have hnorm : (StateValue.toJsonMembers a.state).map (fun m => (m.1, StateValue.ofJson m.2)) = a.norm.state := by
      rw [StateValue.toJsonMembers_eq, List.map_map]
      exact List.map_congr_left fun p hp => Prod.ext rfl (StateValue.ofJson_toJson (ha.ordered p hp))
    rw [hnorm]
    exact KeyMap.ofList_of_sorted (KeyMap.Sorted.map ha.sorted StateValue.norm)

theorem SpelledBy.tells {a : Artifact} {ms : List (String × List Char)} (hms : a.SpelledBy ms) (ha : a.Storable) :
    Tells ms a.norm where
  builderId := hms.builderId
  id := hms.id
  state := by
    rcases hms.state with ⟨hnone, hempty⟩ | ⟨p, hvalues, hp⟩
    · exact .inl ⟨hnone, by rw [norm, hempty]; rfl⟩
    · exact .inr ⟨p, hvalues, ha.stateText hp⟩
  files := hms.files

theorem SpelledBy.wellFormed {a : Artifact} {ms : List (String × List Char)} (hms : a.SpelledBy ms)
    (ha : a.Storable) : ∀ m ∈ ms, WellFormed m.2 :=
  (hms.tells ha).wellFormed hms.others

/-- **Each object that spells a record is read as the record with the normal forms of its values.** -/
theorem SpelledBy.parse_eq {a : Artifact} {ms : List (String × List Char)} (hms : a.SpelledBy ms) (ha : a.Storable)
    {t : List Char} (ht : ObjectText ms t) : parse t = .ok a.norm :=
  (parse_object_iff ht (hms.wellFormed ha)).2 (hms.tells ha)

/-- The texts of the JSON value of a record are objects that spell it. -/
theorem exists_spelledBy {a : Artifact} {t : List Char} (ht : Denotes t a.toJson) :
    ∃ ms, ObjectText ms t ∧ a.SpelledBy ms := by
  obtain ⟨texts, body, hmembers, htexts, hbody, rfl⟩ := Json.denotes_object_iff.1 (toJson_eq a ▸ ht)
  have hvalues : ∀ key, List.Forall₂ Denotes (valuesOf key (texts.map fun m => (m.1, m.2.1)))
      (valuesOf key a.jsonMembers) := fun key => hmembers ▸ Json.forall₂_valuesOf htexts key
  have hone : ∀ {key v}, valuesOf key a.jsonMembers = [v] →
      ∃ p, valuesOf key (texts.map fun m => (m.1, m.2.1)) = [p] ∧ Denotes p v := by
    intro key v hkey
    have hforall := hvalues key
    rw [hkey] at hforall
    obtain ⟨p, ps, hp, hps, hcons⟩ := List.forall₂_cons_right_iff.1 hforall
    cases hps
    exact ⟨p, hcons, hp⟩
  refine ⟨_, ⟨[], body, [], Json.blanks_nil, Json.blanks_nil, hbody, by simp⟩, hone ?_, hone ?_, .inr (hone ?_),
    ?_, List.forall_mem_map.2 fun m hm _ => (htexts m hm).wellFormed⟩
  · simp [jsonMembers, valuesOf]
  · simp [jsonMembers, valuesOf]
  · simp [jsonMembers, valuesOf]
  · by_cases hempty : a.files.isEmpty
    · refine .inl ⟨?_, List.isEmpty_iff.1 hempty⟩
      have hforall := hvalues "files"
      rwa [show valuesOf "files" a.jsonMembers = [] by simp [jsonMembers, valuesOf, hempty],
        List.forall₂_nil_right_iff] at hforall
    · exact .inr (hone (by simp [jsonMembers, valuesOf, hempty]))

/-- The numbers of a record are whole and fit if no finite double occurs in its state. -/
theorem Storable.exact_toJson {a : Artifact} (ha : a.Storable) : a.toJson.Exact := by
  refine Json.allNumbers_object.2 (forall_jsonMembers trivial trivial ?_ ?_)
  · refine Json.allNumbers_object.2 ?_
    rw [StateValue.toJsonMembers_eq]
    exact List.forall_mem_map.2 fun p hp => StateValue.exact_toJson (ha.noFiniteFloat p hp)
  · exact Json.allNumbers_array.2 (List.forall_mem_map.2 fun _ _ => trivial)

/-- Blanks behind the text of a record change nothing. -/
theorem parse_spells_before {a : Artifact} (ha : a.Storable) {t b : List Char} (ht : Spells a.toJson t)
    (hb : Json.Blanks b) : parse (t ++ b) = .ok a.norm := by
  obtain ⟨ms, htext, hms⟩ := exists_spelledBy (ht.denotes ha.exact_toJson)
  exact hms.parse_eq ha (htext.before hb)

/-- **The text of a record is read as the record with the normal forms of its values**, whatever its
layout. -/
theorem parse_spells {a : Artifact} (ha : a.Storable) {t : List Char} (ht : Spells a.toJson t) :
    parse t = .ok a.norm := by
  have hparse := parse_spells_before ha ht Json.blanks_nil
  rwa [List.append_nil] at hparse

/-- **The content of the file of a record is read as the record with the normal forms of its values.** -/
theorem ofBytes_toBytes {a : Artifact} (ha : a.Storable) : ofBytes a.toBytes = .ok a.norm := by
  have hparse : parse a.pretty = .ok a.norm := parse_spells ha (Json.spells_pretty a.toJson)
  rw [ofBytes, toBytes, Text.Utf8.decode?_encode]
  show (parse a.pretty).mapError _ = _
  rw [hparse]
  rfl

/-! ### Records that are read -/

/-- A state as it is read: it is in order, and so are the maps in its values, which are normal and nested no
deeper than a record allows. -/
structure LoadedState (state : StateMap) : Prop where
  sorted : KeyMap.Sorted state
  normal : ∀ p ∈ state, p.2.Normal
  ordered : ∀ p ∈ state, p.2.Ordered
  depth_le : ∀ p ∈ state, p.2.toJson.depth ≤ valueDepth

theorem loadedState_nil : LoadedState [] :=
  ⟨.nil, by simp, by simp, by simp⟩

theorem loadedState_of_readState {s r : List Char} {state : StateMap} (hread : readState s = .ok (state, r)) :
    LoadedState state := by
  rw [readState_eq, map_eq_ok] at hread
  obtain ⟨⟨pairs, s'⟩, hmembers, heq⟩ := hread
  cases heq
  have hvalue : ∀ s v r, readStateValue s = .ok (v, r) →
      v.Normal ∧ v.Ordered ∧ v.toJson.depth ≤ valueDepth := by
    intro s v r hv
    obtain ⟨⟨j, s'⟩, hj, heq⟩ := map_eq_ok.1 hv
    cases heq
    obtain ⟨hdepth, hsound⟩ := Json.readValue_accepted valueDepth hj
    exact ⟨StateValue.normal_ofJson hsound, StateValue.ordered_ofJson j,
      Nat.le_trans (StateValue.depth_toJson_ofJson_le j) hdepth⟩
  have hpairs : ∀ p ∈ pairs, p.2.Normal ∧ p.2.Ordered ∧ p.2.toJson.depth ≤ valueDepth :=
    Json.invariant_of_readMembers
      (P := fun pairs => ∀ p ∈ pairs, p.2.Normal ∧ p.2.Ordered ∧ p.2.toJson.depth ≤ valueDepth)
      (fun acc key s next r => Json.forall_of_pairWith hvalue) (by simp) hmembers
  have hstate := KeyMap.forall_mem_ofList fun p hp => hpairs p (List.mem_reverse.1 hp)
  exact ⟨KeyMap.sorted_ofList _, fun p hp => (hstate p hp).1, fun p hp => (hstate p hp).2.1,
    fun p hp => (hstate p hp).2.2⟩

/-- A member of a record keeps the state of its fields as it was, or puts in one that is read. -/
theorem loadedState_of_readMember {fields next : Fields} {key : String} {s r : List Char}
    (hfields : ∀ state, fields.state = some state → LoadedState state)
    (hread : readMember fields key s = .ok (next, r)) :
    ∀ state, next.state = some state → LoadedState state := by
  unfold readMember at hread
  split at hread
  · obtain ⟨⟨v, s'⟩, -, heq⟩ := bind_eq_ok.1 hread
    cases heq
    exact hfields
  · obtain ⟨⟨v, s'⟩, -, heq⟩ := bind_eq_ok.1 hread
    cases heq
    exact hfields
  · obtain ⟨⟨v, s'⟩, hstate, heq⟩ := bind_eq_ok.1 hread
    cases heq
    rintro state ⟨rfl⟩
    obtain ⟨-, s'', -, hstate⟩ := Json.readField_iff.1 hstate
    exact loadedState_of_readState hstate
  · obtain ⟨⟨v, s'⟩, -, heq⟩ := bind_eq_ok.1 hread
    cases heq
    exact hfields
  · obtain ⟨s', -, hread⟩ := bind_eq_ok.1 hread
    obtain ⟨s'', -, heq⟩ := bind_eq_ok.1 hread
    cases heq
    exact hfields

theorem loadedState_of_readObject {s r : List Char} {a : Artifact} (hread : readObject s = .ok (a, r)) :
    LoadedState a.state := by
  obtain ⟨⟨fields, s'⟩, hmembers, hread⟩ := bind_eq_ok.1 hread
  have hfields : ∀ state, fields.state = some state → LoadedState state :=
    Json.invariant_of_readMembers
      (P := fun fields => ∀ state, fields.state = some state → LoadedState state)
      (fun _ _ _ _ _ => loadedState_of_readMember) (fun _ h => absurd h (by simp)) hmembers
  simp only at hread
  split at hread
  · next a' hofFields =>
    cases hread
    unfold ofFields at hofFields
    split at hofFields
    · cases hofFields
    · cases hofFields
    · cases hofFields
      show LoadedState (fields.state.getD [])
      cases hstate : fields.state with
      | none => exact loadedState_nil
      | some state => exact hfields state hstate
  · cases hread

theorem loadedState_of_readRow {s r : List Char} {a : Artifact} (hread : readRow s = .ok (a, r)) :
    LoadedState a.state := by
  unfold readRow at hread
  -- the row may end behind the id or behind the state, which are the cases that leave a record
  obtain ⟨first, -, hread⟩ := bind_eq_ok.1 hread
  cases first with
  | close s => cases hread
  | item s =>
    obtain ⟨⟨builderId, s⟩, -, hread⟩ := bind_eq_ok.1 hread
    obtain ⟨second, -, hread⟩ := bind_eq_ok.1 hread
    cases second with
    | close s => cases hread
    | item s =>
      obtain ⟨⟨id, s⟩, -, hread⟩ := bind_eq_ok.1 hread
      obtain ⟨third, -, hread⟩ := bind_eq_ok.1 hread
      cases third with
      | close s =>
        cases hread
        exact loadedState_nil
      | item s =>
        obtain ⟨⟨state, s⟩, hstate, hread⟩ := bind_eq_ok.1 hread
        obtain ⟨fourth, -, hread⟩ := bind_eq_ok.1 hread
        cases fourth with
        | close s =>
          cases hread
          exact loadedState_of_readState hstate
        | item s =>
          obtain ⟨⟨files, s⟩, -, hread⟩ := bind_eq_ok.1 hread
          obtain ⟨s, -, hread⟩ := bind_eq_ok.1 hread
          cases hread
          exact loadedState_of_readState hstate

/-- **The state of every record that is read is in order, and its values are normal.** -/
theorem loadedState_of_parse {text : List Char} {a : Artifact} (hparse : parse text = .ok a) :
    LoadedState a.state := by
  obtain ⟨s, hread, -⟩ := Json.ofText_eq_ok.1 hparse
  unfold read at hread
  split at hread
  · exact loadedState_of_readRow hread
  · exact loadedState_of_readObject hread

theorem loadedState_of_ofBytes {content : List UInt8} {a : Artifact} (hread : ofBytes content = .ok a) :
    LoadedState a.state := by
  unfold ofBytes at hread
  split at hread
  · cases hread
  · next text _ =>
    cases hparse : parse text with
    | error e =>
      rw [hparse] at hread
      cases hread
    | ok b =>
      rw [hparse] at hread
      cases hread
      exact loadedState_of_parse hparse

end ImagePush.Artifact
