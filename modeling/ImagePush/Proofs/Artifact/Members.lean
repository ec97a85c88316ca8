import ImagePush.Artifact.Json
import ImagePush.Proofs.Json.Passing

/-!
# Members of records

A record is read from the members of an object one by one, each by a step of its own (`MemberStep`). The steps only
meet in the fields that they fill, so that what counts are the values of the four keys, and that all other values
are well formed (`through_memberStep_iff`). An object is read as a record exactly if its members tell it
(`parse_object_iff`).
-/

namespace ImagePush.Artifact

open Json (Reading Reads ReadsKeyed Ends Blanks Through Denotes WellFormed ObjectText FieldOf valuesOf
  fieldOf_own_iff fieldOf_behind_iff)

/-! ### State and files -/

/-- Reads a value of the state. -/
def readStateValue (s : List Char) : Reading StateValue :=
  (Json.readValue valueDepth s).map fun (v, s) => (StateValue.ofJson v, s)

/-- The state is read as pairs, of which it is the map. -/
theorem readState_eq (s : List Char) :
    readState s = (Json.readMembers .map (Json.pairWith readStateValue) [] s).map fun (pairs, s) =>
      (KeyMap.ofList pairs.reverse, s) := by
  have hread : ∀ member, member = Json.pairWith readStateValue →
      (Json.readMembers .map member [] s).bind (fun (pairs, s) => .ok (KeyMap.ofList pairs.reverse, s)) =
        (Json.readMembers .map (Json.pairWith readStateValue) [] s).map fun (pairs, s) =>
          (KeyMap.ofList pairs.reverse, s) := by
    rintro member rfl
    cases Json.readMembers .map (Json.pairWith readStateValue) [] s <;> rfl
  refine hread _ ?_
  funext acc key s
  unfold Json.pairWith readStateValue
  cases Json.colon s with
  | error f => rfl
  | ok s =>
    show (Json.readValue valueDepth s).map _ = ((Json.readValue valueDepth s).map _).map _
    cases Json.readValue valueDepth s <;> rfl

/-- The text is one of the string. -/
def StringText (t : List Char) (x : String) : Prop :=
  Denotes t (.string x)

/-- The text is one of an array of the files. -/
def FilesText (t : List Char) (files : List String) : Prop :=
  Denotes t (.array (files.map .string))

/-- The text is one of an object that is the state. -/
def StateText (t : List Char) (state : StateMap) : Prop :=
  ∃ ms : List (String × Json), Denotes t (.object ms) ∧ (∀ m ∈ ms, m.2.depth ≤ valueDepth) ∧
    KeyMap.ofList (ms.map fun m => (m.1, StateValue.ofJson m.2)) = state

theorem reads_stateValue :
    Reads readStateValue fun t v => ∃ j, (Denotes t j ∧ j.depth ≤ valueDepth) ∧ StateValue.ofJson j = v :=
  (Json.reads_value valueDepth).map StateValue.ofJson

theorem reads_state : Reads readState StateText := by
  have hmember : Json.ReadsKeyed (Json.pairWith readStateValue) fun acc m next =>
      ∃ j, (Denotes m.2 j ∧ j.depth ≤ valueDepth) ∧ next = (m.1, StateValue.ofJson j) :: acc := by
    refine reads_stateValue.pairWith.congr fun acc m next => ?_
    constructor
    · rintro ⟨v, ⟨j, hj, rfl⟩, rfl⟩
      exact ⟨j, hj, rfl⟩
    · rintro ⟨j, hj, rfl⟩
      exact ⟨_, ⟨j, hj, rfl⟩, rfl⟩
  have hpairs : Reads (Json.readMembers .map (Json.pairWith readStateValue) []) fun t final =>
      ∃ ms : List (String × Json), Denotes t (.object ms) ∧ (∀ m ∈ ms, m.2.depth ≤ valueDepth) ∧
        Through (fun acc m next => next = (m.1, StateValue.ofJson m.2) :: acc) ms [] final :=
    hmember.readMembers_values .map []
  have hstate := hpairs.map fun pairs => KeyMap.ofList pairs.reverse
  rw [← (funext readState_eq : readState = _)] at hstate
  refine hstate.congr fun t state => ?_
  simp only [Json.through_cons_iff, List.append_nil]
  constructor
  · rintro ⟨pairs, ⟨ms, hdenotes, hdepth, rfl⟩, rfl⟩
    exact ⟨ms, hdenotes, hdepth, by rw [List.reverse_reverse]⟩
  · rintro ⟨ms, hdenotes, hdepth, rfl⟩
    exact ⟨_, ⟨ms, hdenotes, hdepth, rfl⟩, by rw [List.reverse_reverse]⟩

theorem reads_string : Reads (Json.readText .string) StringText :=
  Json.reads_text .string

theorem reads_files : Reads readFiles FilesText := by
  refine (Json.reads_text .path).readItems.congr fun t files => ?_
  rw [FilesText, Json.denotes_array_iff]
  simp only [List.forall₂_map_right_iff]

/-! ### Steps -/

/-- The keys of a record. -/
def fieldNames : List String := ["builder_id", "id", "state", "files"]

/-- What a member of an object makes of the fields so far: it fills the field of its key, or it is passed over. -/
inductive MemberStep : Fields → String × List Char → Fields → Prop where
  | builderId {fields : Fields} {p : List Char} {x : String} (hmet : fields.builderId = none)
      (hp : StringText p x) : MemberStep fields ("builder_id", p) { fields with builderId := some x }
  | id {fields : Fields} {p : List Char} {x : String} (hmet : fields.id = none) (hp : StringText p x) :
      MemberStep fields ("id", p) { fields with id := some x }
  | state {fields : Fields} {p : List Char} {x : StateMap} (hmet : fields.state = none) (hp : StateText p x) :
      MemberStep fields ("state", p) { fields with state := some x }
  | files {fields : Fields} {p : List Char} {x : List String} (hmet : fields.files = none)
      (hp : FilesText p x) : MemberStep fields ("files", p) { fields with files := some x }
  /-- A member with any other key need only have the form of a value. -/
  | other {fields : Fields} {key : String} {p : List Char} (hkey : key ∉ fieldNames) (hp : WellFormed p) :
      MemberStep fields (key, p) fields

/-- A member with another key is passed over. -/
theorem readMember_other {key : String} (hkey : key ∉ fieldNames) (fields : Fields) (s : List Char) :
    readMember fields key s = do
      let s ← Json.colon s
      let s ← Json.passValue s
      return (fields, s) := by
  simp only [fieldNames, List.mem_cons, List.not_mem_nil, or_false, not_or] at hkey
  unfold readMember
  split <;> simp_all

theorem reads_member : ReadsKeyed readMember MemberStep where
  give := by
    intro fields key p next b b' rest hstep hb hb' hends
    cases hstep with
    | builderId hmet hp | id hmet hp =>
      show Except.bind (Json.readField _ _ _ _) _ = _
      rw [hmet, reads_string.give_field _ hp hb hb' hends]
      rfl
    | state hmet hp =>
      show Except.bind (Json.readField _ fields.state _ _) _ = _
      rw [hmet, reads_state.give_field _ hp hb hb' hends]
      rfl
    | files hmet hp =>
      show Except.bind (Json.readField _ fields.files _ _) _ = _
      rw [hmet, reads_files.give_field _ hp hb hb' hends]
      rfl
    | other hkey hp =>
      obtain ⟨r, hpass, heq⟩ := map_eq_ok.1 (Json.reads_passValue.give (v := ()) hp hb' hends)
      cases heq
      rw [readMember_other hkey, Json.colon_iff.2 ⟨b, hb, rfl⟩]
      show Except.bind (Json.passValue _) _ = _
      rw [hpass]
      rfl
  take := by
    intro fields key s r next hread hends
    unfold readMember at hread
    -- the four keys in their order, and the others
    split at hread
    · obtain ⟨⟨x, s'⟩, hfield, heq⟩ := bind_eq_ok.1 hread
      cases heq
      obtain ⟨hmet, b, b', p, hb, hb', hp, rfl⟩ := reads_string.take_field hfield hends
      exact ⟨b, b', p, hb, hb', .builderId hmet hp, rfl⟩
    · obtain ⟨⟨x, s'⟩, hfield, heq⟩ := bind_eq_ok.1 hread
      cases heq
      obtain ⟨hmet, b, b', p, hb, hb', hp, rfl⟩ := reads_string.take_field hfield hends
      exact ⟨b, b', p, hb, hb', .id hmet hp, rfl⟩
    · obtain ⟨⟨x, s'⟩, hfield, heq⟩ := bind_eq_ok.1 hread
      cases heq
      obtain ⟨hmet, b, b', p, hb, hb', hp, rfl⟩ := reads_state.take_field hfield hends
      exact ⟨b, b', p, hb, hb', .state hmet hp, rfl⟩
    · obtain ⟨⟨x, s'⟩, hfield, heq⟩ := bind_eq_ok.1 hread
      cases heq
      obtain ⟨hmet, b, b', p, hb, hb', hp, rfl⟩ := reads_files.take_field hfield hends
      exact ⟨b, b', p, hb, hb', .files hmet hp, rfl⟩
    · next hbuilder hid hstate hfiles =>
      obtain ⟨s', hcolon, hpass⟩ := bind_eq_ok.1 hread
      obtain ⟨s'', hpass, heq⟩ := bind_eq_ok.1 hpass
      cases heq
      obtain ⟨b, hb, rfl⟩ := Json.colon_iff.1 hcolon
      obtain ⟨b', p, hb', hp, rfl⟩ := Json.reads_passValue.take (v := ()) (map_eq_ok.2 ⟨r, hpass, rfl⟩) hends
      refine ⟨b, b', p, hb, hb', .other ?_ hp, rfl⟩
      simpa [fieldNames] using ⟨hbuilder, hid, hstate, hfiles⟩

/-! ### Fields -/

/-- What the members of an object make of the fields: each field is filled by the one member with its key, if there
is one, and all other members are well formed. -/
structure Fills (ms : List (String × List Char)) (fields final : Fields) : Prop where
  builderId : FieldOf StringText fields.builderId (valuesOf "builder_id" ms) final.builderId
  id : FieldOf StringText fields.id (valuesOf "id" ms) final.id
  state : FieldOf StateText fields.state (valuesOf "state" ms) final.state
  files : FieldOf FilesText fields.files (valuesOf "files" ms) final.files
  others : ∀ m ∈ ms, m.1 ∉ fieldNames → WellFormed m.2

theorem fills_nil_iff {fields final : Fields} : Fills [] fields final ↔ fields = final := by
  constructor
  · rintro ⟨hbuilder, hid, hstate, hfiles, -⟩
    obtain ⟨builderId, id, state, files⟩ := fields
    obtain ⟨builderId', id', state', files'⟩ := final
    simp only [Json.fieldOf_nil_iff, Json.valuesOf_nil] at hbuilder hid hstate hfiles
    simp only [hbuilder, hid, hstate, hfiles]
  · rintro rfl
    exact ⟨.kept, .kept, .kept, .kept, by simp⟩

theorem ne_of_not_mem_fieldNames {key key' : String} (hkey : key ∉ fieldNames) (hkey' : key' ∈ fieldNames) :
    key ≠ key' := by
  rintro rfl
  exact hkey hkey'

/-- The first member makes a step if the fields are filled. -/
theorem Fills.exists_step {m : String × List Char} {ms : List (String × List Char)} {fields final : Fields}
    (hfills : Fills (m :: ms) fields final) : ∃ next, MemberStep fields m next ∧ Fills ms next final := by
  obtain ⟨hbuilder, hid, hstate, hfiles, hothers⟩ := hfills
  obtain ⟨key, p⟩ := m
  rw [List.forall_mem_cons] at hothers
  by_cases hkey : key ∈ fieldNames
  · simp only [fieldNames, List.mem_cons, List.not_mem_nil, or_false] at hkey
    rcases hkey with rfl | rfl | rfl | rfl
    · rw [fieldOf_behind_iff (by decide)] at hid hstate hfiles
      obtain ⟨hmet, x, hp, hbuilder⟩ := fieldOf_own_iff.1 hbuilder
      exact ⟨_, .builderId hmet hp, hbuilder, hid, hstate, hfiles, hothers.2⟩
    · rw [fieldOf_behind_iff (by decide)] at hbuilder hstate hfiles
      obtain ⟨hmet, x, hp, hid⟩ := fieldOf_own_iff.1 hid
      exact ⟨_, .id hmet hp, hbuilder, hid, hstate, hfiles, hothers.2⟩
    · rw [fieldOf_behind_iff (by decide)] at hbuilder hid hfiles
      obtain ⟨hmet, x, hp, hstate⟩ := fieldOf_own_iff.1 hstate
      exact ⟨_, .state hmet hp, hbuilder, hid, hstate, hfiles, hothers.2⟩
    · rw [fieldOf_behind_iff (by decide)] at hbuilder hid hstate
      obtain ⟨hmet, x, hp, hfiles⟩ := fieldOf_own_iff.1 hfiles
      exact ⟨_, .files hmet hp, hbuilder, hid, hstate, hfiles, hothers.2⟩
  · rw [fieldOf_behind_iff (ne_of_not_mem_fieldNames hkey (by decide))] at hbuilder hid hstate hfiles
    exact ⟨fields, .other hkey (hothers.1 hkey), hbuilder, hid, hstate, hfiles, hothers.2⟩

/-- The fields are filled if the first member makes a step. -/
theorem MemberStep.fills {m : String × List Char} {ms : List (String × List Char)} {fields next final : Fields}
    (hstep : MemberStep fields m next) (hfills : Fills ms next final) : Fills (m :: ms) fields final := by
  obtain ⟨hbuilder, hid, hstate, hfiles, hothers⟩ := hfills
  have hknown : ∀ {key : String} {p : List Char}, key ∈ fieldNames →
      ∀ m ∈ (key, p) :: ms, m.1 ∉ fieldNames → WellFormed m.2 :=
    fun hkey => List.forall_mem_cons.2 ⟨fun h => absurd hkey h, hothers⟩
  cases hstep with
  | builderId hmet hp =>
    refine ⟨fieldOf_own_iff.2 ⟨hmet, _, hp, hbuilder⟩, ?_, ?_, ?_, hknown (by decide)⟩
    all_goals rw [fieldOf_behind_iff (by decide)]; assumption
  | id hmet hp =>
    refine ⟨?_, fieldOf_own_iff.2 ⟨hmet, _, hp, hid⟩, ?_, ?_, hknown (by decide)⟩
    all_goals rw [fieldOf_behind_iff (by decide)]; assumption
  | state hmet hp =>
    refine ⟨?_, ?_, fieldOf_own_iff.2 ⟨hmet, _, hp, hstate⟩, ?_, hknown (by decide)⟩
    all_goals rw [fieldOf_behind_iff (by decide)]; assumption
  | files hmet hp =>
    refine ⟨?_, ?_, ?_, fieldOf_own_iff.2 ⟨hmet, _, hp, hfiles⟩, hknown (by decide)⟩
    all_goals rw [fieldOf_behind_iff (by decide)]; assumption
  | other hkey hp =>
    refine ⟨?_, ?_, ?_, ?_, List.forall_mem_cons.2 ⟨fun _ => hp, hothers⟩⟩
    all_goals rw [fieldOf_behind_iff (ne_of_not_mem_fieldNames hkey (by decide))]; assumption

/-- **The members of an object are taken step by step exactly if the fields come out as the values of the four keys
tell them.** -/
theorem through_memberStep_iff {ms : List (String × List Char)} {fields final : Fields} :
    Through MemberStep ms fields final ↔ Fills ms fields final := by
  induction ms generalizing fields with
  | nil =>
    rw [fills_nil_iff]
    constructor
    · rintro ⟨⟩
      rfl
    · rintro rfl
      exact .nil
  | cons m ms ih =>
    constructor
    · rintro (_ | ⟨hstep, hrest⟩)
      exact hstep.fills (ih.1 hrest)
    · intro hfills
      obtain ⟨next, hstep, hrest⟩ := hfills.exists_step
      exact .cons hstep (ih.2 hrest)

/-! ### Objects -/

/-- The members tell the record: its builder and its id once each, its state and its files once at most, and an
empty one perhaps not at all. -/
structure Tells (ms : List (String × List Char)) (a : Artifact) : Prop where
  builderId : ∃ p, valuesOf "builder_id" ms = [p] ∧ StringText p a.builderId
  id : ∃ p, valuesOf "id" ms = [p] ∧ StringText p a.id
  state : valuesOf "state" ms = [] ∧ a.state = [] ∨ ∃ p, valuesOf "state" ms = [p] ∧ StateText p a.state
  files : valuesOf "files" ms = [] ∧ a.files = [] ∨ ∃ p, valuesOf "files" ms = [p] ∧ FilesText p a.files

/-- A required field is filled by exactly one member. -/
theorem fieldOf_some_iff {α τ : Type} {P : τ → α → Prop} {ps : List τ} {v : α} :
    FieldOf P none ps (some v) ↔ ∃ p, ps = [p] ∧ P p v := by
  constructor
  · rintro ⟨⟩
    exact ⟨_, rfl, ‹_›⟩
  · rintro ⟨p, rfl, hp⟩
    exact .filled hp

/-- An optional field is filled by one member at most. -/
theorem exists_fieldOf_iff {α τ : Type} {P : τ → List α → Prop} {ps : List τ} {v : List α} :
    (∃ o, FieldOf P none ps o ∧ o.getD [] = v) ↔ ps = [] ∧ v = [] ∨ ∃ p, ps = [p] ∧ P p v := by
  constructor
  · rintro ⟨o, hfield, rfl⟩
    cases hfield with
    | kept => exact .inl ⟨rfl, rfl⟩
    | filled hp => exact .inr ⟨_, rfl, hp⟩
  · rintro (⟨rfl, rfl⟩ | ⟨p, rfl, hp⟩)
    · exact ⟨none, .kept, rfl⟩
    · exact ⟨some v, .filled hp, rfl⟩

theorem ofFields_eq_ok {fields : Fields} {a : Artifact} : ofFields fields = .ok a ↔
    fields.builderId = some a.builderId ∧ fields.id = some a.id ∧ fields.state.getD [] = a.state ∧
      fields.files.getD [] = a.files := by
  obtain ⟨builderId, id, state, files⟩ := fields
  obtain ⟨builderId', id', state', files'⟩ := a
  cases builderId <;> cases id <;> simp [ofFields]

/-- The fields that the members fill make up the record that they tell. -/
theorem tells_iff {ms : List (String × List Char)} {a : Artifact}
    (hothers : ∀ m ∈ ms, m.1 ∉ fieldNames → WellFormed m.2) :
    (∃ final, Fills ms {} final ∧ ofFields final = .ok a) ↔ Tells ms a := by
  constructor
  · rintro ⟨final, hfills, hfinal⟩
    obtain ⟨hbuilder, hid, hstate, hfiles⟩ := ofFields_eq_ok.1 hfinal
    exact ⟨fieldOf_some_iff.1 (hbuilder ▸ hfills.builderId), fieldOf_some_iff.1 (hid ▸ hfills.id),
      exists_fieldOf_iff.1 ⟨_, hfills.state, hstate⟩, exists_fieldOf_iff.1 ⟨_, hfills.files, hfiles⟩⟩
  · intro htells
    obtain ⟨state, hstate, hstateValue⟩ := exists_fieldOf_iff.2 htells.state
    obtain ⟨files, hfiles, hfilesValue⟩ := exists_fieldOf_iff.2 htells.files
    exact ⟨⟨some a.builderId, some a.id, state, files⟩,
      ⟨fieldOf_some_iff.2 htells.builderId, fieldOf_some_iff.2 htells.id, hstate, hfiles, hothers⟩,
      ofFields_eq_ok.2 ⟨rfl, rfl, hstateValue, hfilesValue⟩⟩

theorem readObject_iff {s r : List Char} {a : Artifact} : readObject s = .ok (a, r) ↔
    ∃ fields, Json.readMembers (.record recordName) readMember {} s = .ok (fields, r) ∧ ofFields fields = .ok a := by
  unfold readObject
  rw [bind_eq_ok]
  constructor
  · rintro ⟨⟨fields, r'⟩, hmembers, hread⟩
    simp only at hread
    split at hread
    · next hfields =>
      cases hread
      exact ⟨fields, hmembers, hfields⟩
    · cases hread
  · rintro ⟨fields, hmembers, hfields⟩
    refine ⟨(fields, r), hmembers, ?_⟩
    simp only [hfields]
    rfl

theorem reads_object : Reads readObject fun t a =>
    ∃ ms body, Json.MembersText Json.SpellsKey ms body ∧
      (∀ m ∈ ms, m.1 ∉ fieldNames → WellFormed m.2) ∧ Tells ms a ∧ t = '\x7b' :: body := by
  refine ((reads_member.readMembers _ {}).comp readObject_iff).congr fun t a => ?_
  constructor
  · rintro ⟨final, ⟨ms, body, hbody, hthrough, rfl⟩, hfinal⟩
    have hfills := through_memberStep_iff.1 hthrough
    exact ⟨ms, body, hbody, hfills.others, (tells_iff hfills.others).1 ⟨final, hfills, hfinal⟩, rfl⟩
  · rintro ⟨ms, body, hbody, hothers, htells, rfl⟩
    obtain ⟨final, hfills, hfinal⟩ := (tells_iff hothers).2 htells
    exact ⟨final, ⟨ms, body, hbody, through_memberStep_iff.2 hfills, rfl⟩, hfinal⟩

/-- A text that begins with a brace is read as an object. -/
theorem parse_eq_ofText {b s : List Char} (hb : Blanks b) :
    parse (b ++ '\x7b' :: s) = Json.ofText readObject (b ++ '\x7b' :: s) := by
  have hskip := Json.skipBlanks_blanks_cons hb (show Json.isBlank '\x7b' = false by decide) s
  have hread : read (b ++ '\x7b' :: s) = readObject (b ++ '\x7b' :: s) := by
    rw [read, hskip]
    show readObject ('\x7b' :: s) = _
    rw [readObject, readObject, Json.readMembers, Json.readMembers, hskip, Json.skipBlanks_cons (by decide)]
  rw [parse, Json.ofText, hread, Json.ofText]

theorem wellFormed_of_only {key : String} {p q : List Char} {ms : List (String × List Char)}
    (hvalues : valuesOf key ms = [q]) (hq : WellFormed q) (hm : (key, p) ∈ ms) : WellFormed p := by
  have hmem := Json.mem_valuesOf.2 hm
  rw [hvalues, List.mem_singleton] at hmem
  exact hmem ▸ hq

theorem not_mem_of_none {key : String} {p : List Char} {ms : List (String × List Char)}
    (hvalues : valuesOf key ms = []) : (key, p) ∉ ms := by
  intro hm
  have hmem := Json.mem_valuesOf.2 hm
  rw [hvalues] at hmem
  cases hmem

/-- The values that tell a record are well formed, too. -/
theorem Tells.wellFormed {ms : List (String × List Char)} {a : Artifact} (htells : Tells ms a)
    (hothers : ∀ m ∈ ms, m.1 ∉ fieldNames → WellFormed m.2) : ∀ m ∈ ms, WellFormed m.2 := by
  rintro ⟨key, p⟩ hm
  by_cases hkey : key ∈ fieldNames
  · simp only [fieldNames, List.mem_cons, List.not_mem_nil, or_false] at hkey
    rcases hkey with rfl | rfl | rfl | rfl
    · obtain ⟨q, hvalues, hq⟩ := htells.builderId
      exact wellFormed_of_only hvalues hq.wellFormed hm
    · obtain ⟨q, hvalues, hq⟩ := htells.id
      exact wellFormed_of_only hvalues hq.wellFormed hm
    · rcases htells.state with ⟨hnone, -⟩ | ⟨q, hvalues, ns, hq, -⟩
      · exact absurd hm (not_mem_of_none hnone)
      · exact wellFormed_of_only hvalues hq.wellFormed hm
    · rcases htells.files with ⟨hnone, -⟩ | ⟨q, hvalues, hq⟩
      · exact absurd hm (not_mem_of_none hnone)
      · exact wellFormed_of_only hvalues hq.wellFormed hm
  · exact hothers _ hm hkey

/-- **The text of an object is read as a record exactly if its members tell the record.** -/
theorem parse_object_iff {ms : List (String × List Char)} {t : List Char} {a : Artifact} (ht : ObjectText ms t)
    (hvalues : ∀ m ∈ ms, WellFormed m.2) : parse t = .ok a ↔ Tells ms a := by
  obtain ⟨b, body, b', hb, hb', hbody, rfl⟩ := ht
  rw [List.cons_append, parse_eq_ofText hb, ← List.cons_append, reads_object.ofText_iff]
  constructor
  · rintro ⟨c, p, c', hc, hc', ⟨ns, body', hbody', hothers, htells, rfl⟩, htext⟩
    obtain rfl : ms = ns := ObjectText.unique ⟨b, body, b', hb, hb', hbody, rfl⟩
      ⟨c, body', c', hc, hc', hbody', htext⟩ hvalues (htells.wellFormed hothers)
    exact htells
  · intro htells
    exact ⟨b, _, b', hb, hb', ⟨ms, body, hbody, fun m hm _ => hvalues m hm, htells, rfl⟩, rfl⟩

end ImagePush.Artifact
