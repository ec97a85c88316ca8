import ImagePush.Proofs.Artifact.Nesting

/-!
# Spellings of a record

A record can be written as an object, whose members may come in any order and among others, or as an array, and an
empty state and empty files may be left out. All these texts are read alike (`spellings_read_alike`), while an
object without a builder or an id, or with one of the four keys twice, is read as no record at all.
-/

namespace ImagePush.Artifact

open Json (Ends Blanks Enclosed Listed Denotes WellFormed ObjectText TextOf valuesOf)

/-! ### Rows -/

/-- Reads a row behind the id. -/
def readRowFrom (builderId id : String) (s : List Char) : Except Json.Fault (Artifact × List Char) := do
  match ← Json.nextItem false s with
  | .close s => return ({ builderId, id }, s)
  | .item s =>
    let (state, s) ← readState s
    match ← Json.nextItem false s with
    | .close s => return ({ builderId, id, state }, s)
    | .item s =>
      let (files, s) ← readFiles s
      let s ← Json.closeArray s
      return ({ builderId, id, state, files }, s)

/-- A row begins with the builder and the id. -/
theorem readRow_append {p q : List Char} {builderId id : String} (hp : StringText p builderId)
    (hq : StringText q id) {ps : List (List Char)} {body : List Char} (hbody : Enclosed ']' (p :: q :: ps) body) :
    ∃ t, Listed ']' ps t ∧ ∀ rest, readRow (body ++ rest) = readRowFrom builderId id (t ++ rest) := by
  obtain ⟨b, u, hb, hu, rfl⟩ := hbody
  obtain ⟨b₁, b₂, t, hb₁, hb₂, ht, rfl⟩ := hu
  refine ⟨t, ht, fun rest => ?_⟩
  have hcomma : Ends (b₁ ++ ',' :: (b₂ ++ (q ++ (t ++ rest)))) := Ends.blanks_append hb₁ (Json.ends_comma _)
  have hfirst := reads_string.give hp Json.blanks_nil hcomma
  have hsecond := reads_string.give hq Json.blanks_nil (ht.ends (.inl rfl) rest)
  rw [List.nil_append] at hfirst hsecond
  simp only [List.append_assoc, List.cons_append]
  rw [readRow, Json.nextItem_first hb (reads_string.begins hp)]
  show Except.bind (Json.readText .string _) _ = _
  rw [hfirst]
  show Except.bind (Json.nextItem false _) _ = _
  rw [Json.nextItem_comma hb₁ hb₂ (reads_string.begins hq)]
  show Except.bind (Json.readText .string _) _ = _
  rw [hsecond]
  rfl

theorem readRowFrom_close {t : List Char} (ht : Listed ']' [] t) (builderId id : String) (rest : List Char) :
    readRowFrom builderId id (t ++ rest) = .ok ({ builderId, id }, rest) := by
  obtain ⟨b, hb, rfl⟩ := ht
  rw [List.append_assoc, List.singleton_append, readRowFrom, Json.nextItem_close hb]
  rfl

theorem readRowFrom_state {p t : List Char} {state : StateMap} (hp : StateText p state) (ht : Listed ']' [p] t)
    (builderId id : String) (rest : List Char) :
    readRowFrom builderId id (t ++ rest) = .ok ({ builderId, id, state }, rest) := by
  obtain ⟨b, b', u, hb, hb', ⟨c, hc, rfl⟩, rfl⟩ := ht
  have hclose : Ends (c ++ ']' :: rest) := Ends.blanks_append hc (Json.IsClose.ends (.inl rfl) _)
  have hstate := reads_state.give hp Json.blanks_nil hclose
  rw [List.nil_append] at hstate
  simp only [List.append_assoc, List.cons_append, List.nil_append]
  rw [readRowFrom, Json.nextItem_comma hb hb' (reads_state.begins hp)]
  show Except.bind (readState _) _ = _
  rw [hstate]
  show Except.bind (Json.nextItem false _) _ = _
  rw [Json.nextItem_close hc]
  rfl

theorem readRowFrom_files {p q t : List Char} {state : StateMap} {files : List String} (hp : StateText p state)
    (hq : FilesText q files) (ht : Listed ']' [p, q] t) (builderId id : String) (rest : List Char) :
    readRowFrom builderId id (t ++ rest) = .ok ({ builderId, id, state, files }, rest) := by
  obtain ⟨b, b', u, hb, hb', ⟨c, c', w, hc, hc', ⟨e, he, rfl⟩, rfl⟩, rfl⟩ := ht
  have hcomma : Ends (c ++ ',' :: (c' ++ (q ++ (e ++ ']' :: rest)))) :=
    Ends.blanks_append hc (Json.ends_comma _)
  have hclose : Ends (e ++ ']' :: rest) := Ends.blanks_append he (Json.IsClose.ends (.inl rfl) _)
  have hstate := reads_state.give hp Json.blanks_nil hcomma
  have hfiles := reads_files.give hq Json.blanks_nil hclose
  rw [List.nil_append] at hstate hfiles
  simp only [List.append_assoc, List.cons_append, List.nil_append]
  rw [readRowFrom, Json.nextItem_comma hb hb' (reads_state.begins hp)]
  show Except.bind (readState _) _ = _
  rw [hstate]
  show Except.bind (Json.nextItem false _) _ = _
  rw [Json.nextItem_comma hc hc' (reads_files.begins hq)]
  show Except.bind (readFiles _) _ = _
  rw [hfiles]
  show Except.bind (Json.closeArray _) _ = _
  rw [Json.closeArray_close he]
  rfl

/-- A whole text that is a row is read as its record. -/
theorem parse_row {a : Artifact} {b b' body : List Char} (hb : Blanks b) (hb' : Blanks b')
    (hrow : readRow (body ++ b') = .ok (a, b')) : parse (b ++ ('[' :: body ++ b')) = .ok a := by
  have hskip := Json.skipBlanks_append hb' []
  rw [List.append_nil] at hskip
  refine Json.ofText_eq_ok.2 ⟨b', ?_, hskip⟩
  rw [read, List.cons_append, Json.skipBlanks_blanks_cons hb (by decide)]
  exact hrow

/-- The values of a record in their order. -/
def row (a : Artifact) : List Json :=
  [.string a.builderId, .string a.id, .object (StateValue.toJsonMembers a.state), .array (a.files.map .string)]

/-- The items of an array that stands for the record: all its values, or those before empty ones at the end. -/
inductive RowOf (a : Artifact) : List Json → Prop where
  | full : RowOf a a.row
  /-- The files are left out if there are none, -/
  | noFiles (hfiles : a.files = []) : RowOf a (a.row.take 3)
  /-- and then the state too, if it is empty. -/
  | noState (hstate : a.state = []) (hfiles : a.files = []) : RowOf a (a.row.take 2)

/-- **Each array that stands for a record is read as the record with the normal forms of its values.** -/
theorem RowOf.parse_eq {a : Artifact} (ha : a.Storable) {items : List Json} (hitems : a.RowOf items)
    {t : List Char} (ht : TextOf (.array items) t) : parse t = .ok a.norm := by
  obtain ⟨b, t, b', hb, hb', ht, rfl⟩ := ht
  obtain ⟨pieces, body, hpieces, hbody, rfl⟩ := Json.denotes_array_iff.1 ht
  apply parse_row hb hb'
  cases hitems with
  | full =>
    obtain ⟨p, ps, hp, hps, rfl⟩ := List.forall₂_cons_right_iff.1 hpieces
    obtain ⟨q, qs, hq, hqs, rfl⟩ := List.forall₂_cons_right_iff.1 hps
    obtain ⟨r, rs, hr, hrs, rfl⟩ := List.forall₂_cons_right_iff.1 hqs
    obtain ⟨w, ws, hw, hws, rfl⟩ := List.forall₂_cons_right_iff.1 hrs
    cases hws
    obtain ⟨t, hlisted, hrow⟩ := readRow_append hp hq hbody
    rw [hrow, readRowFrom_files (ha.stateText hr) hw hlisted]
    rfl
  | noFiles hfiles =>
    obtain ⟨p, ps, hp, hps, rfl⟩ := List.forall₂_cons_right_iff.1 hpieces
    obtain ⟨q, qs, hq, hqs, rfl⟩ := List.forall₂_cons_right_iff.1 hps
    obtain ⟨r, rs, hr, hrs, rfl⟩ := List.forall₂_cons_right_iff.1 hqs
    cases hrs
    obtain ⟨t, hlisted, hrow⟩ := readRow_append hp hq hbody
    rw [hrow, readRowFrom_state (ha.stateText hr) hlisted, norm, hfiles]
  | noState hstate hfiles =>
    obtain ⟨p, ps, hp, hps, rfl⟩ := List.forall₂_cons_right_iff.1 hpieces
    obtain ⟨q, qs, hq, hqs, rfl⟩ := List.forall₂_cons_right_iff.1 hps
    cases hqs
    obtain ⟨t, hlisted, hrow⟩ := readRow_append hp hq hbody
    rw [hrow, readRowFrom_close hlisted, norm, hfiles, hstate]
    rfl

/-! ### Objects that are no records -/

/-- The members lack the builder or the id, or have one of the four keys twice. -/
def Incomplete (ms : List (String × List Char)) : Prop :=
  valuesOf "builder_id" ms = [] ∨ valuesOf "id" ms = [] ∨ ∃ key ∈ fieldNames, 2 ≤ (valuesOf key ms).length

theorem Tells.not_incomplete {ms : List (String × List Char)} {a : Artifact} (htells : Tells ms a) :
    ¬ Incomplete ms := by
  obtain ⟨p, hp, -⟩ := htells.builderId
  obtain ⟨q, hq, -⟩ := htells.id
  rintro (hnone | hnone | ⟨key, hkey, htwice⟩)
  · rw [hp] at hnone
    cases hnone
  · rw [hq] at hnone
    cases hnone
  · simp only [fieldNames, List.mem_cons, List.not_mem_nil, or_false] at hkey
    rcases hkey with rfl | rfl | rfl | rfl
    · simp [hp] at htwice
    · simp [hq] at htwice
    · rcases htells.state with ⟨hvalues, -⟩ | ⟨r, hvalues, -⟩ <;> simp [hvalues] at htwice
    · rcases htells.files with ⟨hvalues, -⟩ | ⟨r, hvalues, -⟩ <;> simp [hvalues] at htwice

/-- No text of such an object is read. -/
theorem Incomplete.parse_error {ms : List (String × List Char)} (hms : Incomplete ms) {t : List Char}
    (ht : ObjectText ms t) (hvalues : ∀ m ∈ ms, WellFormed m.2) : ∃ e, parse t = .error e := by
  cases hparse : parse t with
  | error e => exact ⟨e, rfl⟩
  | ok a => exact absurd hms ((parse_object_iff ht hvalues).1 hparse).not_incomplete

/-! ### Main result -/

/-- **All spellings of a record are read alike.** A record that is nested no deeper than the reader allows, and in
which no finite double occurs, is read with the normal forms of its values from its compact text, from its text on
several lines, from every object with its members in any order and among any others, in which an empty state and
empty files may be missing, and from the array of its values, at the end of which they may be missing. An object
that lacks the builder or the id, or has one of the four keys twice, is read as no record. -/
theorem spellings_read_alike :
    (∀ a : Artifact, KeyMap.Sorted a.state → (∀ p ∈ a.state, p.2.Ordered ∧ p.2.NoFiniteFloat) →
      a.toJson.depth ≤ Json.maxDepth →
      parse a.compact = .ok a.norm ∧ parse a.pretty = .ok a.norm ∧
      (∀ ms t, ObjectText ms t → a.SpelledBy ms → parse t = .ok a.norm) ∧
      ∀ items t, a.RowOf items → TextOf (.array items) t → parse t = .ok a.norm) ∧
    ∀ ms t, ObjectText ms t → (∀ m ∈ ms, WellFormed m.2) → Incomplete ms → ∃ e, parse t = .error e := by
  constructor
  · intro a hsorted hvalues hdepth
    have ha : a.Storable := ⟨hsorted, fun p hp => (hvalues p hp).1, fun p hp => (hvalues p hp).2,
      depth_toJson_le.1 hdepth⟩
    refine ⟨parse_spells ha (Json.spells_compact _), parse_spells ha (Json.spells_pretty _), ?_, ?_⟩
    · intro ms t ht hms
      exact hms.parse_eq ha ht
    · intro items t hitems ht
      exact hitems.parse_eq ha ht
  · intro ms t ht hvalues hms
    exact hms.parse_error ht hvalues

/-- A record with a value that is read as another constructor. -/
def unsignedRecord : Artifact where
  builderId := "b"
  id := "i"
  state := [("k", .unsigned 5)]

/-- Its members, the last one first and behind one that only has the form of a string. -/
def shuffledMembers : List (String × List Char) :=
  [("z", "\"\\ud800\"".toList), ("state", "\x7b\"k\":5\x7d".toList), ("id", "\"i\"".toList),
    ("builder_id", "\"b\"".toList)]

/-- The members behind the first one, without blanks, and the brace. -/
def plainMembers : List (String × List Char) → List Char
  | [] => ['\x7d']
  | m :: ms => ',' :: (Json.quote m.1 ++ ':' :: m.2 ++ plainMembers ms)

/-- The text of an object without blanks. -/
def plainText : List (String × List Char) → List Char
  | [] => ['\x7b', '\x7d']
  | m :: ms => '\x7b' :: (Json.quote m.1 ++ ':' :: m.2 ++ plainMembers ms)

theorem objectText_plainText (ms : List (String × List Char)) : ObjectText ms (plainText ms) := by
  have hpieces : List.Forall₂ (fun m p => Json.MemberText (Json.SpellsKey m.1) m.2 p) ms
      (ms.map fun m => Json.quote m.1 ++ ':' :: m.2) := by
    refine List.forall₂_map_right_iff.2 (List.forall₂_same.2 fun m _ => ?_)
    have hmember : Json.MemberText (Json.SpellsKey m.1) m.2 _ :=
      .intro (Json.spellsChars_flatMap m.1.toList) Json.blanks_nil Json.blanks_nil
    simpa [Json.quote] using hmember
  have hlisted : ∀ ms : List (String × List Char),
      Listed '\x7d' (ms.map fun m => Json.quote m.1 ++ ':' :: m.2) (plainMembers ms) := by
    intro ms
    induction ms with
    | nil => exact ⟨[], Json.blanks_nil, rfl⟩
    | cons m ms ih => exact ⟨[], [], _, Json.blanks_nil, Json.blanks_nil, ih, rfl⟩
  cases ms with
  | nil => exact ⟨[], _, [], Json.blanks_nil, Json.blanks_nil, ⟨_, hpieces, [], Json.blanks_nil, rfl⟩, rfl⟩
  | cons m ms =>
    exact ⟨[], _, [], Json.blanks_nil, Json.blanks_nil, ⟨_, hpieces, [], _, Json.blanks_nil, hlisted ms, rfl⟩,
      by simp [plainText]⟩

theorem spellings_read_alike_shuffled :
    parse (plainText shuffledMembers) = .ok ⟨"b", "i", [("k", .integer 5)], []⟩ ∧
      ∃ e, parse (plainText [("id", "\"i\"".toList)]) = .error e := by
  have hstring : ∀ c : Char, Json.escapeChar c = [c] → Denotes ['"', c, '"'] (.string (String.ofList [c])) := by
    intro c hc
    have hspells := Json.spellsChars_flatMap [c]
    rw [List.flatMap_cons, hc] at hspells
    exact Json.denotes_string_iff.2 ⟨[c], by simpa using hspells, rfl⟩
  have hstate : Denotes "\x7b\"k\":5\x7d".toList (.object [("k", .int 5)]) := by
    refine (Json.spells_compact (.object [("k", .int 5)])).denotes (Json.allNumbers_object.2 ?_)
    simp [Json.AllNumbers, Json.Fits]
  have hspelled : unsignedRecord.SpelledBy shuffledMembers := by
    refine ⟨⟨_, rfl, hstring 'b' (by decide)⟩, ⟨_, rfl, hstring 'i' (by decide)⟩, .inr ⟨_, rfl, hstate⟩,
      .inl ⟨rfl, rfl⟩, ?_⟩
    -- the only other member has a surrogate without the other half
    have hother : WellFormed "\"\\ud800\"".toList := ⟨0, .string (.number rfl .nil)⟩
    simp only [shuffledMembers, List.forall_mem_cons]
    exact ⟨fun _ => hother, fun h => absurd (by decide) h, fun h => absurd (by decide) h,
      fun h => absurd (by decide) h, List.forall_mem_nil _⟩
  have hvalues : ∀ p ∈ unsignedRecord.state, p.2.Ordered ∧ p.2.NoFiniteFloat := by
    simp [unsignedRecord, StateValue.Ordered, StateValue.NoFiniteFloat, StateValue.Everywhere,
      StateValue.KeysIncrease, StateValue.NotFinite]
  have hread := spellings_read_alike.1 unsignedRecord (List.pairwise_singleton _ _) hvalues (by decide)
  constructor
  · exact hread.2.2.1 _ _ (objectText_plainText _) hspelled
  · refine spellings_read_alike.2 _ _ (objectText_plainText _) (fun m hm => ?_) (.inl rfl)
    rw [List.mem_singleton.1 hm]
    exact (hstring 'i' (by decide)).wellFormed

end ImagePush.Artifact
