import ImagePush.Proofs.Artifact.RoundTrip

/-!
# Nesting of artifacts

The record of an artifact and its state take one level each, so that a record is nested no deeper than the reader
allows if its values leave these two (`depth_toJson_le`). A record that is nested deeper is written all the same,
but not read (`ofBytes_toBytes_error`), whatever else is in it.
-/

namespace ImagePush.Artifact

open Json (Reading Spells Blanks IgnoresBlanks MemberStopsWithin)

/-! ### Depth -/

theorem depth_files (files : List String) : (Json.array (files.map .string)).depth ≤ 1 := by
  refine Json.depth_array_le.2 fun v hv => ?_
  obtain ⟨text, -, rfl⟩ := List.mem_map.1 hv
  exact Nat.le_refl _

theorem depth_state_le {state : StateMap} {d : Nat} :
    (Json.object (StateValue.toJsonMembers state)).depth ≤ d + 1 ↔ ∀ p ∈ state, p.2.toJson.depth ≤ d := by
  rw [Json.depth_object_le, StateValue.toJsonMembers_eq, List.forall_mem_map]

/-- **A record is nested no deeper than the reader allows exactly if its values leave a level for the record and
one for its state.** -/
theorem depth_toJson_le {a : Artifact} :
    a.toJson.depth ≤ Json.maxDepth ↔ ∀ p ∈ a.state, p.2.toJson.depth ≤ valueDepth := by
  have hlevels : Json.maxDepth = valueDepth + 1 + 1 := rfl
  rw [toJson_eq, hlevels, Json.depth_object_le]
  constructor
  · intro hall
    exact depth_state_le.1 (hall ("state", .object (StateValue.toJsonMembers a.state)) (by simp [jsonMembers]))
  · intro hstate
    refine forall_jsonMembers (Nat.zero_le _) (Nat.zero_le _) (depth_state_le.2 hstate) ?_
    exact Nat.le_trans (depth_files a.files) (Nat.le_add_left _ _)

/-! ### Records that are nested too deep -/

theorem readText_quote (expected : Json.Expected) (text : String) (rest : List Char) :
    Json.readText expected (Json.quote text ++ rest) = .ok (text, rest) := by
  have hquote : Json.quote text ++ rest = '"' :: (text.toList.flatMap Json.escapeChar ++ '"' :: rest) := by
    simp [Json.quote]
  rw [hquote]
  exact Json.readString_escaped text rest

theorem ignoresBlanks_readState : IgnoresBlanks readState := by
  intro b s hb
  rw [readState_eq, readState_eq, Json.readMembers, Json.skipBlanks_append hb, ← Json.readMembers]

theorem ignoresBlanks_readFiles : IgnoresBlanks readFiles := by
  intro b s hb
  rw [readFiles, Json.readItems, Json.skipBlanks_append hb, ← Json.readItems, ← readFiles]

theorem ignoresBlanks_readStateValue : IgnoresBlanks readStateValue := by
  intro b s hb
  rw [readStateValue, Json.readValue_blanks hb, ← readStateValue]

/-- A field that was not met before is read behind its key. -/
theorem readField_append {α : Type} {read : List Char → Reading α} (hblanks : IgnoresBlanks read)
    (name : String) {b b' : List Char} (hb : Blanks b) (hb' : Blanks b') (p rest : List Char) :
    Json.readField name none read ((b ++ ':' :: (b' ++ p)) ++ rest) = read (p ++ rest) := by
  rw [Json.readField, if_neg (by simp), Json.colon_append hb]
  exact hblanks b' _ hb'

theorem readStateValue_stops (v : Json) : v.StopsWithin readStateValue valueDepth := by
  intro t rest s w hspells hends hread
  obtain ⟨⟨j, s'⟩, hj, heq⟩ := map_eq_ok.1 hread
  cases heq
  exact Json.readValue_stops v valueDepth hspells hends hj

theorem readState_stops (ms : List (String × Json)) : (Json.object ms).StopsWithin readState (valueDepth + 1) := by
  rintro t rest s state ⟨pieces, body, hpieces, hbody, rfl⟩ - hread
  rw [readState_eq] at hread
  obtain ⟨⟨pairs, s'⟩, hpairs, heq⟩ := map_eq_ok.1 hread
  cases heq
  have hmembers : Json.members Json.reading (Json.pairWith readStateValue) [] (body ++ rest) = .ok (pairs, s) :=
    hpairs
  have hstops := hpieces.stops hbody
    (fun m _ => Json.StopsWithin.pairWith ignoresBlanks_readStateValue (readStateValue_stops m.2)) hmembers
  exact ⟨hstops.1, Json.depth_object_le.2 hstops.2⟩

theorem readText_stops (expected : Json.Expected) (text : String) (bound : Nat) :
    (Json.string text).StopsWithin (Json.readText expected) bound := by
  rintro t rest s w rfl - hread
  rw [readText_quote] at hread
  cases hread
  exact ⟨rfl, Nat.zero_le _⟩

theorem readFiles_stops (files : List String) {bound : Nat} (hbound : 1 ≤ bound) :
    (Json.array (files.map .string)).StopsWithin readFiles bound := by
  intro t rest s w hspells hends hread
  have hexact : (Json.array (files.map .string)).Exact :=
    Json.allNumbers_array.2 (List.forall_mem_map.2 fun _ _ => trivial)
  have hfiles := reads_files.give (b := []) (hspells.denotes hexact) Json.blanks_nil hends
  rw [List.nil_append, hread] at hfiles
  cases hfiles
  exact ⟨rfl, Nat.le_trans (depth_files files) hbound⟩

/-- A member that is read as a field of the record stops where the value of the field does. -/
theorem memberStops_of_field {α : Type} {read : List Char → Reading α} (hblanks : IgnoresBlanks read)
    {bound : Nat} {m : String × Json} (hstops : m.2.StopsWithin read bound) (met : Fields → Option α)
    (put : Fields → α → Fields)
    (hmember : ∀ fields s, readMember fields m.1 s = do
      let (v, s) ← Json.readField m.1 (met fields) read s
      return (put fields v, s)) : MemberStopsWithin readMember bound m := by
  rintro piece fields next rest s ⟨b, b', p, hb, hb', hspells, rfl⟩ hends hread
  obtain ⟨⟨v, s'⟩, hfield, heq⟩ := bind_eq_ok.1 ((hmember fields _).symm.trans hread)
  cases heq
  rw [(Json.readField_iff.1 hfield).1, readField_append hblanks m.1 hb hb'] at hfield
  exact hstops hspells hends hfield

theorem readMember_stops (a : Artifact) :
    ∀ m ∈ a.jsonMembers, MemberStopsWithin readMember (valueDepth + 1) m := by
  have htext := Json.ignoresBlanks_readText .string
  refine forall_jsonMembers ?_ ?_ ?_ ?_
  · exact memberStops_of_field htext (readText_stops .string _ _) Fields.builderId
      (fun fields v => { fields with builderId := some v }) fun _ _ => rfl
  · exact memberStops_of_field htext (readText_stops .string _ _) Fields.id
      (fun fields v => { fields with id := some v }) fun _ _ => rfl
  · exact memberStops_of_field ignoresBlanks_readState (readState_stops _) Fields.state
      (fun fields v => { fields with state := some v }) fun _ _ => rfl
  · exact memberStops_of_field ignoresBlanks_readFiles (readFiles_stops _ (Nat.le_add_left _ _)) Fields.files
      (fun fields v => { fields with files := some v }) fun _ _ => rfl

/-- **No text of a record that is nested too deep is read**, whatever its layout. -/
theorem depth_le_of_parse_spells {a b : Artifact} {t : List Char} (ht : Spells a.toJson t)
    (hparse : parse t = .ok b) : a.toJson.depth ≤ Json.maxDepth := by
  obtain ⟨pieces, body, hpieces, hbody, rfl⟩ := ht
  obtain ⟨s, hread, -⟩ := Json.ofText_eq_ok.1 hparse
  obtain ⟨⟨fields, s'⟩, hfields, -⟩ := bind_eq_ok.1 hread
  have hmembers : Json.members Json.reading readMember {} (body ++ []) = .ok (fields, s') := by
    rw [List.append_nil]
    exact hfields
  have hstops := hpieces.stops hbody (readMember_stops a) hmembers
  exact Json.depth_object_le.2 hstops.2

theorem ofBytes_toBytes_error {a : Artifact} (hdepth : Json.maxDepth < a.toJson.depth) :
    ∃ e, ofBytes a.toBytes = .error (.text e) := by
  rw [ofBytes, toBytes, Text.Utf8.decode?_encode]
  cases hparse : parse a.pretty with
  | error e => exact ⟨e, by simp [hparse, Except.mapError]⟩
  | ok b => exact absurd (depth_le_of_parse_spells (Json.spells_pretty _) hparse) (Nat.not_le_of_lt hdepth)

end ImagePush.Artifact
