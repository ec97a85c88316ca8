import ImagePush.Proofs.Json.Reads

/-!
# What the reader of values takes

The reader of values takes the texts that have a value and are nested no deeper than it allows (`reads_value`). A
text has one value at most, and a whole text is read exactly if it is one of a value that is not nested too deep
(`parse_iff`).
-/

namespace ImagePush.Json

/-! ### Scalars -/

theorem signText_append (negative : Bool) (t : List Char) :
    signText negative ++ t = if negative then '-' :: t else t := by
  cases negative <;> rfl

theorem FormedWithin.beginsItem {depth : Nat} {t : List Char} (ht : FormedWithin depth t) : BeginsItem t := by
  cases ht with
  | null => exact ⟨'n', _, rfl, by decide, by decide⟩
  | bool b =>
    cases b
    · exact ⟨'f', _, rfl, by decide, by decide⟩
    · exact ⟨'t', _, rfl, by decide, by decide⟩
  | string hbody => exact ⟨'"', _, rfl, by decide, by decide⟩
  | number negative ht =>
    rw [signText_append]
    exact beginsItem_numeral ht.numeral negative
  | array _ _ => exact ⟨'[', _, rfl, by decide, by decide⟩
  | object _ _ => exact ⟨'\x7b', _, rfl, by decide, by decide⟩


/-! ### Arrays and objects -/

section

variable {α : Type} {P : List Char → α → Prop}

/-- Texts and values in step are pairs. -/
theorem exists_pairs {pieces : List (List Char)} {vs : List α} (hpieces : List.Forall₂ P pieces vs) :
    ∃ items : List (List Char × α), (items.map fun i => i.1) = pieces ∧ (items.map fun i => i.2) = vs ∧
      ∀ i ∈ items, P i.1 i.2 := by
  induction hpieces with
  | nil => exact ⟨[], rfl, rfl, by simp⟩
  | @cons p v _ _ hp _ ih =>
    obtain ⟨items, rfl, rfl, hitems⟩ := ih
    exact ⟨(p, v) :: items, rfl, rfl, List.forall_mem_cons.2 ⟨hp, hitems⟩⟩

theorem forall₂_pairs {items : List (List Char × α)} (hitems : ∀ i ∈ items, P i.1 i.2) :
    List.Forall₂ P (items.map fun i => i.1) (items.map fun i => i.2) := by
  rw [List.forall₂_map_left_iff, List.forall₂_map_right_iff]
  exact List.forall₂_same.2 hitems

/-- Steps that go by the values of texts are steps of the values. -/
theorem through_values_iff {σ : Type} {Step : σ → String × α → σ → Prop} {ms : List (String × List Char)}
    {state final : σ} :
    Through (fun state m next => ∃ v, P m.2 v ∧ Step state (m.1, v) next) ms state final ↔
      ∃ texts : List (String × List Char × α), (texts.map fun m => (m.1, m.2.1)) = ms ∧
        (∀ m ∈ texts, P m.2.1 m.2.2) ∧ Through Step (texts.map fun m => (m.1, m.2.2)) state final := by
  constructor
  · intro hthrough
    induction hthrough with
    | nil => exact ⟨[], rfl, by simp, .nil⟩
    | @cons m _ _ _ _ hstep _ ih =>
      obtain ⟨v, hv, hstep⟩ := hstep
      obtain ⟨texts, rfl, htexts, hrest⟩ := ih
      exact ⟨(m.1, m.2, v) :: texts, rfl, List.forall_mem_cons.2 ⟨hv, htexts⟩, .cons hstep hrest⟩
  · rintro ⟨texts, rfl, htexts, hthrough⟩
    induction texts generalizing state with
    | nil =>
      cases hthrough
      exact .nil
    | cons m texts ih =>
      rw [List.forall_mem_cons] at htexts
      cases hthrough with
      | cons hstep hrest => exact .cons ⟨m.2.2, htexts.1, hstep⟩ (ih htexts.2 hrest)

/-- Steps that put what they make of a member in front. -/
theorem through_cons_iff {τ π : Type} {f : π → τ} {ms : List π} {acc final : List τ} :
    Through (fun acc m next => next = f m :: acc) ms acc final ↔ final = (ms.map f).reverse ++ acc := by
  induction ms generalizing acc with
  | nil =>
    constructor
    · rintro ⟨⟩
      rfl
    · rintro rfl
      exact .nil
  | cons m ms ih =>
    have hfront : (List.map f (m :: ms)).reverse ++ acc = (ms.map f).reverse ++ f m :: acc := by simp
    rw [hfront, ← ih]
    constructor
    · rintro (_ | ⟨rfl, hrest⟩)
      exact hrest
    · exact .cons rfl

/-- Puts the pair of a key and the value of a text in front. -/
def PairStep (P : List Char → α → Prop) (acc : List (String × α)) (m : String × List Char)
    (next : List (String × α)) : Prop :=
  ∃ v, P m.2 v ∧ next = (m.1, v) :: acc

/-- The pairs of an object are its members, the last one first. -/
theorem through_pairStep_iff {ms : List (String × List Char)} {acc final : List (String × α)} :
    Through (PairStep P) ms acc final ↔
      ∃ texts : List (String × List Char × α), (texts.map fun m => (m.1, m.2.1)) = ms ∧
        (∀ m ∈ texts, P m.2.1 m.2.2) ∧ final = (texts.map fun m => (m.1, m.2.2)).reverse ++ acc := by
  have hvalues := @through_values_iff α P _ (fun acc m next => next = m :: acc) ms acc final
  simp only [through_cons_iff, List.map_id'] at hvalues
  exact hvalues

theorem Reads.pairWith {read : List Char → Reading α} (hread : Reads read P) :
    ReadsKeyed (pairWith read) (PairStep P) where
  give := by
    rintro acc key p next b b' rest ⟨v, hp, rfl⟩ hb hb' hends
    rw [Json.pairWith, colon_iff.2 ⟨b, hb, rfl⟩]
    show (read (b' ++ (p ++ rest))).map _ = _
    rw [hread.give hp hb' hends]
    rfl
  take := by
    intro acc key s r next hpair hends
    unfold Json.pairWith at hpair
    split at hpair
    · cases hpair
    · next s' hcolon =>
      obtain ⟨⟨v, r'⟩, hv, heq⟩ := map_eq_ok.1 hpair
      cases heq
      obtain ⟨b, hb, rfl⟩ := colon_iff.1 hcolon
      obtain ⟨b', p, hb', hp, rfl⟩ := hread.take hv hends
      exact ⟨b, b', p, hb, hb', ⟨v, hp, rfl⟩, rfl⟩

end

/-! ### Values -/

theorem ignoresBlanks_readValue (depth : Nat) : IgnoresBlanks (readValue depth) :=
  fun _ s hb => readValue_blanks hb depth s

/-- A text that has a value is read as the value, if what it holds is. -/
theorem readValue_denotes {depth : Nat} {t rest : List Char} {v : Json}
    (hlower : ∀ d, depth = d + 1 → Reads (readValue d) fun t v => Denotes t v ∧ v.depth ≤ d) (ht : Denotes t v)
    (hdepth : v.depth ≤ depth) (hends : Ends rest) : readValue depth (t ++ rest) = .ok (v, rest) := by
  cases ht with
  | null => exact readValue_null depth rest
  | bool b => exact readValue_bool depth b rest
  | string hbody =>
    rw [List.cons_append, List.append_assoc]
    exact readValue_string depth hbody rest
  | @number negative t v ht hv =>
    have hread := (readNumber_iff hends).2 ⟨t, ht, hv, rfl⟩
    cases negative with
    | true => exact (readValue_minus depth _).trans hread
    | false =>
      obtain ⟨ds, fs, es, hds, -, -, rfl⟩ := ht
      obtain ⟨d, ds, rfl⟩ := List.exists_cons_of_ne_nil hds.digits_of.ne_nil
      exact (readValue_digit depth (hds.digits_of.all d List.mem_cons_self) _).trans hread
  | @array items body hitems hbody =>
    obtain ⟨d, rfl⟩ := Nat.exists_eq_succ_of_ne_zero (Nat.ne_of_gt (Nat.zero_lt_of_lt hdepth))
    have hall := depth_array_le.1 hdepth
    have hread := (hlower d rfl).items_iff (m := reading) (s := body ++ rest) |>.2
      ⟨_, body, forall₂_pairs fun i hi => ⟨hitems i hi, hall _ (List.mem_map_of_mem hi)⟩, hbody, rfl⟩
    rw [List.cons_append, readValue_array, hread]
    rfl
  | @object ms body hms hbody =>
    obtain ⟨d, rfl⟩ := Nat.exists_eq_succ_of_ne_zero (Nat.ne_of_gt (Nat.zero_lt_of_lt hdepth))
    have hall := depth_object_le.1 hdepth
    have hvalues : ∀ m ∈ ms, Denotes m.2.1 m.2.2 ∧ m.2.2.depth ≤ d := fun m hm =>
      ⟨hms m hm, hall _ (List.mem_map_of_mem (f := fun m : String × List Char × Json => (m.1, m.2.2)) hm)⟩
    have hthrough : Through (PairStep fun t v => Denotes t v ∧ v.depth ≤ d) _ [] _ :=
      through_pairStep_iff.2 ⟨ms, rfl, hvalues, rfl⟩
    have hread := ((hlower d rfl).pairWith.members_iff readsKey_reading (s := body ++ rest)).2
      ⟨_, body, hbody, hthrough, rfl⟩
    rw [List.cons_append, readValue_object, hread]
    simp [Except.map]

/-- What is read as a value has the value, if what it holds does. -/
theorem denotes_of_readValue {depth : Nat} {c : Char} {s r : List Char} {v : Json}
    (hlower : ∀ d, depth = d + 1 → Reads (readValue d) fun t v => Denotes t v ∧ v.depth ≤ d)
    (hc : isBlank c = false) (hread : readValue depth (c :: s) = .ok (v, r)) (hends : Ends r) :
    ∃ p, Denotes p v ∧ c :: s = p ++ r := by
  rw [readValue, skipBlanks_cons hc] at hread
  simp only at hread
  -- one case for each first character, in the order in which they are tried
  split at hread
  · next hc =>
    obtain ⟨s', hword, heq⟩ := map_eq_ok.1 hread
    cases heq
    exact ⟨nullText, .null, by rw [hc, word_iff.1 hword]; rfl⟩
  split at hread
  · next hc =>
    obtain ⟨s', hword, heq⟩ := map_eq_ok.1 hread
    cases heq
    exact ⟨boolText true, .bool true, by rw [hc, word_iff.1 hword]; rfl⟩
  split at hread
  · next hc =>
    obtain ⟨s', hword, heq⟩ := map_eq_ok.1 hread
    cases heq
    exact ⟨boolText false, .bool false, by rw [hc, word_iff.1 hword]; rfl⟩
  split at hread
  · next hc =>
    obtain ⟨⟨x, s'⟩, hstring, heq⟩ := map_eq_ok.1 hread
    cases heq
    obtain ⟨t, ht, rfl⟩ := readString_iff.1 hstring
    exact ⟨_, .string ht, by rw [hc]; simp⟩
  split at hread
  · next hc =>
    obtain ⟨t, ht, hv, rfl⟩ := (readNumber_iff hends).1 hread
    exact ⟨_, .number true ht hv, by rw [hc]; rfl⟩
  split at hread
  · obtain ⟨t, ht, hv, heq⟩ := (readNumber_iff hends).1 hread
    exact ⟨_, .number false ht hv, heq⟩
  split at hread
  · next hc =>
    cases depth with
    | zero => cases hread
    | succ d =>
      obtain ⟨⟨vs, s'⟩, hitems, heq⟩ := map_eq_ok.1 hread
      cases heq
      obtain ⟨pieces, body, hpieces, hbody, rfl⟩ := (hlower d rfl).items_iff.1 hitems
      obtain ⟨items, rfl, rfl, hvalues⟩ := exists_pairs hpieces
      exact ⟨'[' :: body, .array (fun i hi => (hvalues i hi).1) hbody, by rw [hc]; rfl⟩
  split at hread
  · next hc =>
    cases depth with
    | zero => cases hread
    | succ d =>
      obtain ⟨⟨ms, s'⟩, hmembers, heq⟩ := map_eq_ok.1 hread
      cases heq
      obtain ⟨ms, body, hbody, hthrough, rfl⟩ :=
        ((hlower d rfl).pairWith.members_iff readsKey_reading).1 hmembers
      obtain ⟨texts, rfl, htexts, rfl⟩ := through_pairStep_iff.1 hthrough
      refine ⟨'\x7b' :: body, ?_, by rw [hc]; rfl⟩
      rw [List.append_nil, List.reverse_reverse]
      exact .object (fun m hm => (htexts m hm).1) hbody
  · cases hread

/-- **The reader of values takes the texts that have a value and are nested no deeper than it allows.** -/
theorem reads_value (depth : Nat) : Reads (readValue depth) fun t v => Denotes t v ∧ v.depth ≤ depth := by
  induction depth using Nat.strongRecOn with
  | ind depth ih =>
    have hlower : ∀ d, depth = d + 1 → Reads (readValue d) fun t v => Denotes t v ∧ v.depth ≤ d :=
      fun d hd => ih d (by omega)
    refine .of_first (ignoresBlanks_readValue depth) (fun x hnil => ?_) (fun hp => hp.1.formedWithin.beginsItem)
      (fun hp hends => readValue_denotes hlower hp.1 hp.2 hends) fun hc hread hends => ?_
    · rw [readValue] at hnil
      cases hnil
    · obtain ⟨p, hp, heq⟩ := denotes_of_readValue hlower hc hread hends
      exact ⟨p, ⟨hp, (readValue_accepted depth hread).1⟩, heq⟩

/-- A text has one value at most. -/
theorem Denotes.unique {t : List Char} {v w : Json} (hv : Denotes t v) (hw : Denotes t w) : v = w :=
  (reads_value (max v.depth w.depth)).unique ⟨hv, Nat.le_max_left _ _⟩ ⟨hw, Nat.le_max_right _ _⟩

/-- A whole text is one of one value at most. -/
theorem TextOf.unique {text : List Char} {v w : Json} (hv : TextOf v text) (hw : TextOf w text) : v = w := by
  have hread : ∀ {u : Json}, TextOf u text → u.depth ≤ max v.depth w.depth →
      ofText (readValue (max v.depth w.depth)) text = .ok u := by
    rintro u ⟨b, t, b', hb, hb', ht, rfl⟩ hdepth
    exact (reads_value _).ofText_iff.2 ⟨b, t, b', hb, hb', ⟨ht, hdepth⟩, rfl⟩
  exact Except.ok.inj ((hread hv (Nat.le_max_left _ _)).symm.trans (hread hw (Nat.le_max_right _ _)))

/-- **A whole text is read as a value exactly if it is a text of the value, which is not nested too deep.** -/
theorem parse_iff {text : List Char} {v : Json} : parse text = .ok v ↔ TextOf v text ∧ v.depth ≤ maxDepth := by
  rw [parse, (reads_value maxDepth).ofText_iff]
  constructor
  · rintro ⟨b, p, b', hb, hb', ⟨hp, hdepth⟩, rfl⟩
    exact ⟨⟨b, p, b', hb, hb', hp, rfl⟩, hdepth⟩
  · rintro ⟨⟨b, p, b', hb, hb', hp, rfl⟩, hdepth⟩
    exact ⟨b, p, b', hb, hb', ⟨hp, hdepth⟩, rfl⟩

end ImagePush.Json
