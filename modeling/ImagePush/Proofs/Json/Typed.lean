import ImagePush.Proofs.Json.Language

/-!
# What the readers of a given type take

The readers of strings, truth values, arrays and objects take the texts of the values of their type, and a field of
a record that was not met before is read behind its key as its own reader does. What members make of a record is
told by the values of each of its keys (`valuesOf`, `FieldOf`).
-/

namespace ImagePush.Json

/-! ### Values of a given type -/

theorem denotes_string_iff {t : List Char} {x : String} :
    Denotes t (string x) ↔ ∃ body, SpellsChars x.toList body ∧ t = '"' :: (body ++ ['"']) := by
  constructor
  · intro ht
    cases ht with
    | string hbody => exact ⟨_, hbody, rfl⟩
    | number _ _ hv => cases sound_of_readNumber hv
  · rintro ⟨body, hbody, rfl⟩
    exact .string hbody

theorem denotes_bool_iff {t : List Char} {b : Bool} : Denotes t (bool b) ↔ t = boolText b := by
  constructor
  · intro ht
    cases ht with
    | bool => rfl
    | number _ _ hv => cases sound_of_readNumber hv
  · rintro rfl
    exact .bool b

theorem denotes_array_iff {t : List Char} {vs : List Json} :
    Denotes t (array vs) ↔
      ∃ pieces body, List.Forall₂ Denotes pieces vs ∧ Enclosed ']' pieces body ∧ t = '[' :: body := by
  constructor
  · intro ht
    cases ht with
    | array hitems hbody => exact ⟨_, _, forall₂_pairs hitems, hbody, rfl⟩
    | number _ _ hv => cases sound_of_readNumber hv
  · rintro ⟨pieces, body, hpieces, hbody, rfl⟩
    obtain ⟨items, rfl, rfl, hitems⟩ := exists_pairs hpieces
    exact .array hitems hbody

theorem denotes_object_iff {t : List Char} {ms : List (String × Json)} :
    Denotes t (object ms) ↔ ∃ (texts : List (String × List Char × Json)) (body : List Char),
      (texts.map fun m => (m.1, m.2.2)) = ms ∧ (∀ m ∈ texts, Denotes m.2.1 m.2.2) ∧
        MembersText SpellsKey (texts.map fun m => (m.1, m.2.1)) body ∧ t = '\x7b' :: body := by
  constructor
  · intro ht
    cases ht with
    | object hms hbody => exact ⟨_, _, rfl, hms, hbody, rfl⟩
    | number _ _ hv => cases sound_of_readNumber hv
  · rintro ⟨texts, body, rfl, htexts, hbody, rfl⟩
    exact .object htexts hbody

theorem ignoresBlanks_readText (expected : Expected) : IgnoresBlanks (readText expected) := by
  intro b s hb
  rw [readText, skipBlanks_append hb, ← readText]

theorem reads_text (expected : Expected) : Reads (readText expected) fun t x => Denotes t (string x) := by
  refine .of_first (ignoresBlanks_readText expected) (by rintro x ⟨⟩) (fun hp => hp.formedWithin.beginsItem) ?_ ?_
  · intro p x rest hp _
    obtain ⟨body, hbody, rfl⟩ := denotes_string_iff.1 hp
    rw [List.cons_append, List.append_assoc]
    exact readString_spells hbody rest
  · intro c s r x hc hread _
    rw [readText, skipBlanks_cons hc] at hread
    simp only at hread
    split at hread
    · next hquote =>
      obtain ⟨body, hbody, rfl⟩ := readString_iff.1 hread
      exact ⟨_, .string hbody, by rw [hquote]; simp⟩
    · exact absurd hread refuse_ne_ok

theorem reads_bool : Reads readBool fun t b => Denotes t (bool b) := by
  refine .of_first (fun b s hb => ?_) (by rintro x ⟨⟩) (fun hp => hp.formedWithin.beginsItem) ?_ ?_
  · rw [readBool, skipBlanks_append hb, ← readBool]
  · intro p b rest hp _
    obtain rfl := denotes_bool_iff.1 hp
    cases b <;> rfl
  · intro c s r b hc hread _
    rw [readBool, skipBlanks_cons hc] at hread
    simp only at hread
    split at hread
    · next ht =>
      obtain ⟨s', hword, heq⟩ := map_eq_ok.1 hread
      cases heq
      exact ⟨_, .bool true, by rw [ht, word_iff.1 hword]; rfl⟩
    split at hread
    · next hf =>
      obtain ⟨s', hword, heq⟩ := map_eq_ok.1 hread
      cases heq
      exact ⟨_, .bool false, by rw [hf, word_iff.1 hword]; rfl⟩
    · exact absurd hread refuse_ne_ok

theorem Reads.readItems {α : Type} {item : List Char → Reading α} {P : List Char → α → Prop}
    (hitem : Reads item P) : Reads (readItems item) fun t vs =>
      ∃ pieces body, List.Forall₂ P pieces vs ∧ Enclosed ']' pieces body ∧ t = '[' :: body := by
  refine .of_first (fun b s hb => ?_) (by rintro x ⟨⟩) ?_ ?_ ?_
  · rw [Json.readItems, skipBlanks_append hb, ← Json.readItems]
  · rintro p vs ⟨pieces, body, -, -, rfl⟩
    exact ⟨'[', body, rfl, by decide, by decide⟩
  · rintro p vs rest ⟨pieces, body, hpieces, hbody, rfl⟩ -
    exact hitem.items_iff.2 ⟨pieces, body, hpieces, hbody, rfl⟩
  · intro c s r vs hc hread _
    rw [Json.readItems, skipBlanks_cons hc] at hread
    simp only at hread
    split at hread
    · next hbracket =>
      obtain ⟨pieces, body, hpieces, hbody, rfl⟩ := hitem.items_iff.1 hread
      exact ⟨'[' :: body, ⟨pieces, body, hpieces, hbody, rfl⟩, by rw [hbracket]; rfl⟩
    · exact absurd hread refuse_ne_ok

theorem ReadsKeyed.readMembers {σ : Type} {member : σ → String → List Char → Reading σ}
    {Step : σ → String × List Char → σ → Prop} (hmember : ReadsKeyed member Step) (expected : Expected)
    (state : σ) : Reads (readMembers expected member state) fun t final =>
      ∃ ms body, MembersText SpellsKey ms body ∧ Through Step ms state final ∧ t = '\x7b' :: body := by
  refine .of_first (fun b s hb => ?_) (by rintro x ⟨⟩) ?_ ?_ ?_
  · rw [Json.readMembers, skipBlanks_append hb, ← Json.readMembers]
  · rintro p final ⟨ms, body, -, -, rfl⟩
    exact ⟨'\x7b', body, rfl, by decide, by decide⟩
  · rintro p final rest ⟨ms, body, hbody, hthrough, rfl⟩ -
    exact (hmember.members_iff readsKey_reading).2 ⟨ms, body, hbody, hthrough, rfl⟩
  · intro c s r final hc hread _
    rw [Json.readMembers, skipBlanks_cons hc] at hread
    simp only at hread
    split at hread
    · next hbrace =>
      obtain ⟨ms, body, hbody, hthrough, rfl⟩ := (hmember.members_iff readsKey_reading).1 hread
      exact ⟨'\x7b' :: body, ⟨ms, body, hbody, hthrough, rfl⟩, by rw [hbrace]; rfl⟩
    · exact absurd hread refuse_ne_ok

theorem ReadsKeyed.congr {κ σ : Type} {member : σ → κ → List Char → Reading σ}
    {Step Step' : σ → κ × List Char → σ → Prop} (hmember : ReadsKeyed member Step)
    (hiff : ∀ state m next, Step state m next ↔ Step' state m next) : ReadsKeyed member Step' where
  give hstep := hmember.give ((hiff _ _ _).2 hstep)
  take hread hends := by
    obtain ⟨b, b', p, hb, hb', hstep, heq⟩ := hmember.take hread hends
    exact ⟨b, b', p, hb, hb', (hiff _ _ _).1 hstep, heq⟩

/-- An object whose members go by their values is read as the object of the values is taken. -/
theorem ReadsKeyed.readMembers_values {σ : Type} {member : σ → String → List Char → Reading σ}
    {Step : σ → String × Json → σ → Prop} {depth : Nat}
    (hmember : ReadsKeyed member fun state m next =>
      ∃ v, (Denotes m.2 v ∧ v.depth ≤ depth) ∧ Step state (m.1, v) next) (expected : Expected) (state : σ) :
    Reads (Json.readMembers expected member state) fun t final => ∃ ms : List (String × Json),
      Denotes t (object ms) ∧ (∀ m ∈ ms, m.2.depth ≤ depth) ∧ Through Step ms state final := by
  have hvalues := fun ms final =>
    @through_values_iff Json (fun t v => Denotes t v ∧ v.depth ≤ depth) σ Step ms state final
  refine (hmember.readMembers expected state).congr fun t final => ?_
  constructor
  · rintro ⟨ms, body, hbody, hthrough, rfl⟩
    obtain ⟨texts, rfl, htexts, hthrough⟩ := (hvalues ms final).1 hthrough
    exact ⟨_, denotes_object_iff.2 ⟨texts, body, rfl, fun m hm => (htexts m hm).1, hbody, rfl⟩,
      List.forall_mem_map.2 fun m hm => (htexts m hm).2, hthrough⟩
  · rintro ⟨ms, hdenotes, hdepth, hthrough⟩
    obtain ⟨texts, body, rfl, htexts, hbody, rfl⟩ := denotes_object_iff.1 hdenotes
    rw [List.forall_mem_map] at hdepth
    refine ⟨_, body, hbody, (hvalues _ final).2 ⟨texts, rfl, fun m hm => ?_, hthrough⟩, rfl⟩
    exact ⟨htexts m hm, hdepth m hm⟩

/-! ### Fields of records -/

/-- A field is read behind its colon, unless it was met before. -/
theorem readField_iff {α : Type} {read : List Char → Reading α} {name : String} {met : Option α} {s : List Char}
    {result : α × List Char} : readField name met read s = .ok result ↔
      met = none ∧ ∃ s', colon s = .ok s' ∧ read s' = .ok result := by
  unfold readField faultAtClose
  cases met with
  | some v =>
    simp only [Option.isSome_some, ↓reduceIte, reduceCtorEq, false_and, iff_false]
    split
    · nofun
    · split <;> nofun
  | none =>
    simp only [Option.isSome_none, Bool.false_eq_true, ↓reduceIte, true_and]
    cases colon s with
    | error f => simp
    | ok s' => simp

section

variable {α : Type} {read : List Char → Reading α} {P : List Char → α → Prop}

theorem Reads.give_field (hread : Reads read P) (name : String) {p b b' rest : List Char} {v : α} (hp : P p v)
    (hb : Blanks b) (hb' : Blanks b') (hends : Ends rest) :
    readField name none read (b ++ ':' :: (b' ++ (p ++ rest))) = .ok (v, rest) :=
  readField_iff.2 ⟨rfl, _, colon_iff.2 ⟨b, hb, rfl⟩, hread.give hp hb' hends⟩

theorem Reads.take_field (hread : Reads read P) {name : String} {met : Option α} {s r : List Char} {v : α}
    (hfield : readField name met read s = .ok (v, r)) (hends : Ends r) :
    met = none ∧ ∃ b b' p, Blanks b ∧ Blanks b' ∧ P p v ∧ s = b ++ ':' :: (b' ++ (p ++ r)) := by
  obtain ⟨hmet, s', hcolon, hvalue⟩ := readField_iff.1 hfield
  obtain ⟨b, hb, rfl⟩ := colon_iff.1 hcolon
  obtain ⟨b', p, hb', hp, rfl⟩ := hread.take hvalue hends
  exact ⟨hmet, b, b', p, hb, hb', hp, rfl⟩

end

/-! ### Arrays read item by item -/

section

variable {b b' p : List Char}

theorem nextItem_first (hb : Blanks b) (hp : BeginsItem p) (s : List Char) :
    nextItem true (b ++ (p ++ s)) = .ok (.item (p ++ s)) := by
  obtain ⟨c, q, rfl, hc, hne⟩ := hp
  rw [nextItem, List.cons_append, skipBlanks_blanks_cons hb hc]
  exact if_neg hne

theorem nextItem_comma (hb : Blanks b) (hb' : Blanks b') (hp : BeginsItem p) (s : List Char) :
    nextItem false (b ++ ',' :: (b' ++ (p ++ s))) = .ok (.item (p ++ s)) := by
  obtain ⟨c, q, rfl, hc, hne⟩ := hp
  rw [nextItem, skipBlanks_blanks_cons hb (by decide)]
  simp only [List.cons_append, skipBlanks_blanks_cons hb' hc, if_neg hne]
  rfl

theorem nextItem_close (hb : Blanks b) (atStart : Bool) (rest : List Char) :
    nextItem atStart (b ++ ']' :: rest) = .ok (.close rest) := by
  rw [nextItem, skipBlanks_blanks_cons hb (by decide)]
  rfl

theorem closeArray_close (hb : Blanks b) (rest : List Char) : closeArray (b ++ ']' :: rest) = .ok rest := by
  rw [closeArray, skipBlanks_blanks_cons hb (by decide)]
  rfl

end

/-! ### Members by their keys -/

section

variable {α τ : Type} {P : τ → α → Prop}

/-- The values of a key among members, in their order. -/
def valuesOf (key : String) (ms : List (String × τ)) : List τ :=
  (ms.filter fun m => m.1 = key).map fun m => m.2

@[simp]
theorem valuesOf_nil (key : String) : valuesOf key ([] : List (String × τ)) = [] := rfl

@[simp]
theorem valuesOf_cons_self (key : String) (v : τ) (ms : List (String × τ)) :
    valuesOf key ((key, v) :: ms) = v :: valuesOf key ms := by
  simp [valuesOf]

theorem valuesOf_cons_of_ne {key key' : String} (hne : key ≠ key') (v : τ) (ms : List (String × τ)) :
    valuesOf key' ((key, v) :: ms) = valuesOf key' ms := by
  simp [valuesOf, hne]

theorem valuesOf_append (key : String) (ms ns : List (String × τ)) :
    valuesOf key (ms ++ ns) = valuesOf key ms ++ valuesOf key ns := by
  simp [valuesOf]

/-- Members with other keys do not matter. -/
theorem valuesOf_filter {p : String → Bool} {key : String} (hkey : p key = true) (ms : List (String × τ)) :
    valuesOf key (ms.filter fun m => p m.1) = valuesOf key ms := by
  unfold valuesOf
  rw [List.filter_filter]
  refine congrArg _ (List.filter_congr fun m _ => ?_)
  by_cases heq : m.1 = key
  · simp [heq, hkey]
  · simp [heq]

/-- Each of several keys has one value. -/
theorem valuesOf_map {keys : List String} (hkeys : keys.Nodup) (f : String → τ) {key : String} (hkey : key ∈ keys) :
    valuesOf key (keys.map fun k => (k, f k)) = [f key] := by
  induction keys with
  | nil => cases hkey
  | cons k keys ih =>
    rw [List.nodup_cons] at hkeys
    rw [List.map_cons]
    rcases List.mem_cons.1 hkey with rfl | hmem
    · rw [valuesOf_cons_self, List.cons_inj_right]
      refine List.map_eq_nil_iff.2 (List.filter_eq_nil_iff.2 fun m hm heq => hkeys.1 ?_)
      obtain ⟨k, hk, rfl⟩ := List.mem_map.1 hm
      rwa [← (of_decide_eq_true heq : k = _)]
    · have hne : k ≠ key := by
        rintro rfl
        exact hkeys.1 hmem
      rw [valuesOf_cons_of_ne hne]
      exact ih hkeys.2 hmem

theorem mem_valuesOf {key : String} {v : τ} {ms : List (String × τ)} : v ∈ valuesOf key ms ↔ (key, v) ∈ ms := by
  simp [valuesOf]

/-- Members in step have values in step. -/
theorem forall₂_valuesOf {β : Type} {R : τ → β → Prop} {ms : List (String × τ × β)} (hms : ∀ m ∈ ms, R m.2.1 m.2.2)
    (key : String) :
    List.Forall₂ R (valuesOf key (ms.map fun m => (m.1, m.2.1))) (valuesOf key (ms.map fun m => (m.1, m.2.2))) := by
  induction ms with
  | nil => exact .nil
  | cons m ms ih =>
    rw [List.forall_mem_cons] at hms
    rw [List.map_cons, List.map_cons]
    by_cases hkey : m.1 = key
    · subst hkey
      rw [valuesOf_cons_self, valuesOf_cons_self]
      exact .cons hms.1 (ih hms.2)
    · rw [valuesOf_cons_of_ne hkey, valuesOf_cons_of_ne hkey]
      exact ih hms.2

/-- What a field holds behind the members with its key: it is filled by one of them at most, and by none if it was
met before. -/
inductive FieldOf (P : τ → α → Prop) : Option α → List τ → Option α → Prop where
  /-- No member has the key. -/
  | kept {met : Option α} : FieldOf P met [] met
  /-- One member has the key, and it was not met before. -/
  | filled {p : τ} {v : α} (hp : P p v) : FieldOf P none [p] (some v)

theorem fieldOf_nil_iff {met result : Option α} : FieldOf P met [] result ↔ met = result := by
  constructor
  · rintro ⟨⟩
    rfl
  · rintro rfl
    exact .kept

theorem fieldOf_cons_iff {met result : Option α} {p : τ} {ps : List τ} :
    FieldOf P met (p :: ps) result ↔ met = none ∧ ∃ v, P p v ∧ FieldOf P (some v) ps result := by
  constructor
  · intro hfield
    cases hfield with
    | filled hp => exact ⟨rfl, _, hp, .kept⟩
  · rintro ⟨rfl, v, hp, hfield⟩
    cases hfield
    exact .filled hp

/-- A member with the key of a field comes first. -/
theorem fieldOf_own_iff {met result : Option α} {key : String} {p : τ} {ms : List (String × τ)} :
    FieldOf P met (valuesOf key ((key, p) :: ms)) result ↔
      met = none ∧ ∃ v, P p v ∧ FieldOf P (some v) (valuesOf key ms) result := by
  rw [valuesOf_cons_self, fieldOf_cons_iff]

/-- A member with another key comes first. -/
theorem fieldOf_behind_iff {met result : Option α} {key key' : String} (hne : key ≠ key') {p : τ}
    {ms : List (String × τ)} :
    FieldOf P met (valuesOf key' ((key, p) :: ms)) result ↔ FieldOf P met (valuesOf key' ms) result := by
  rw [valuesOf_cons_of_ne hne]

end

end ImagePush.Json
