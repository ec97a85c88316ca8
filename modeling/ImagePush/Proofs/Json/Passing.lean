import ImagePush.Proofs.Json.Typed

/-!
# What is passed over

Passing over takes the texts that have the form of a value (`reads_passValue`), whatever their strings, numbers and
depth. Hence the text of an object tells its members, also those whose values are never read (`ObjectText.unique`).
-/

namespace ImagePush.Json

/-! ### Values passed over -/

theorem ignoresBlanks_passNested (leaves : Scalars) (depth : Nat) : IgnoresBlanks (passNested leaves depth) := by
  intro b s hb
  rw [passNested, skipBlanks_append hb, ← passNested]

theorem passNested_digit (depth : Nat) {c : Char} (hc : c.isDigit = true) (s : List Char) :
    passNested scalars depth (c :: s) = (passNumber (c :: s)).map ((), ·) := by
  have hne := isDigit_ne hc
  rw [passNested, skipBlanks_cons (isBlank_of_isDigit hc)]
  simp only [hne 'n' (by decide), hne 't' (by decide), hne 'f' (by decide), hne '"' (by decide),
    hne '-' (by decide), hc, ↓reduceIte]
  rfl

/-- Passes over what stands behind a key. -/
def passBehind (depth : Nat) (_ _ : Unit) (s : List Char) : Reading Unit :=
  match colon s with
  | .error f => .error f
  | .ok s => passNested scalars depth s

theorem passNested_object (depth : Nat) (s : List Char) :
    passNested scalars (depth + 1) ('\x7b' :: s) = members (passing scalars) (passBehind depth) () s := by
  rw [passNested]
  rfl

theorem reads_passBehind {depth : Nat} (hread : Reads (passNested scalars depth) fun t _ => FormedWithin depth t) :
    ReadsKeyed (passBehind depth) fun _ m _ => FormedWithin depth m.2 where
  give := by
    intro _ _ p _ b b' rest hp hb hb' hends
    rw [passBehind, colon_iff.2 ⟨b, hb, rfl⟩]
    exact hread.give hp hb' hends
  take := by
    intro _ _ s r _ hpass hends
    unfold passBehind at hpass
    split at hpass
    · cases hpass
    · next s' hcolon =>
      obtain ⟨b, hb, rfl⟩ := colon_iff.1 hcolon
      obtain ⟨b', p, hb', hp, rfl⟩ := hread.take hpass hends
      exact ⟨b, b', p, hb, hb', hp, rfl⟩

theorem through_unit_iff {P : List Char → Prop} {ms : List (Unit × List Char)} {u w : Unit} :
    Through (fun (_ : Unit) m _ => P m.2) ms u w ↔ ∀ m ∈ ms, P m.2 := by
  constructor
  · intro hthrough
    induction hthrough with
    | nil => simp
    | cons hp _ ih => exact List.forall_mem_cons.2 ⟨hp, ih⟩
  · intro hms
    induction ms with
    | nil => exact .nil
    | cons m ms ih =>
      rw [List.forall_mem_cons] at hms
      exact .cons hms.1 (ih hms.2)

theorem forall₂_unit_iff {P : List Char → Prop} {pieces : List (List Char)} :
    (∃ us : List Unit, List.Forall₂ (fun p _ => P p) pieces us) ↔ ∀ p ∈ pieces, P p := by
  constructor
  · rintro ⟨us, hpieces⟩
    induction hpieces with
    | nil => simp
    | cons hp _ ih => exact List.forall_mem_cons.2 ⟨hp, ih⟩
  · intro hpieces
    refine ⟨pieces.map fun _ => (), ?_⟩
    rw [List.forall₂_map_right_iff]
    exact List.forall₂_same.2 hpieces

theorem passNested_formedWithin {depth : Nat} {t rest : List Char}
    (hlower : ∀ d, depth = d + 1 → Reads (passNested scalars d) fun t _ => FormedWithin d t)
    (ht : FormedWithin depth t) (hends : Ends rest) : passNested scalars depth (t ++ rest) = .ok ((), rest) := by
  cases ht with
  | null =>
    rw [passNested]
    rfl
  | bool b =>
    rw [passNested]
    cases b <;> rfl
  | string hbody =>
    rw [List.cons_append, List.append_assoc, passNested]
    show (passString _).map _ = _
    rw [List.singleton_append, passString_loose hbody]
    rfl
  | @number _ negative t ht =>
    have hpass := passNumber_append ht hends
    cases negative with
    | true =>
      rw [passNested]
      show (passNumber (t ++ rest)).map _ = _
      rw [hpass]
      rfl
    | false =>
      obtain ⟨ds, fs, es, hds, -, -, rfl⟩ := ht
      obtain ⟨d, ds, rfl⟩ := List.exists_cons_of_ne_nil hds.digits_of.ne_nil
      refine (passNested_digit depth (hds.digits_of.all d List.mem_cons_self) _).trans ?_
      exact congrArg (Except.map ((), ·)) hpass
  | @array d pieces body hpieces hbody =>
    obtain ⟨us, hunits⟩ := forall₂_unit_iff.2 hpieces
    have hread := ((hlower d rfl).items_iff (m := passing scalars) (s := body ++ rest)).2
      ⟨pieces, body, hunits, hbody, rfl⟩
    rw [List.cons_append, passNested]
    show (items (passing scalars) (passNested scalars d) (body ++ rest)).map _ = _
    rw [hread]
    rfl
  | @object d ms body hms hbody =>
    rw [List.cons_append, passNested_object]
    exact ((reads_passBehind (hlower d rfl)).members_iff readsKey_passing).2
      ⟨ms, body, hbody, through_unit_iff.2 hms, rfl⟩

theorem formedWithin_of_passNested {depth : Nat} {c : Char} {s r : List Char} {u : Unit}
    (hlower : ∀ d, depth = d + 1 → Reads (passNested scalars d) fun t _ => FormedWithin d t)
    (hc : isBlank c = false) (hpass : passNested scalars depth (c :: s) = .ok (u, r)) :
    ∃ p, FormedWithin depth p ∧ c :: s = p ++ r := by
  rw [passNested, skipBlanks_cons hc] at hpass
  simp only at hpass
  -- one case for each first character, in the order in which they are tried
  split at hpass
  · next hc =>
    obtain ⟨s', hword, heq⟩ := map_eq_ok.1 hpass
    cases heq
    exact ⟨nullText, .null, by rw [hc, word_iff.1 hword]; rfl⟩
  split at hpass
  · next hc =>
    obtain ⟨s', hword, heq⟩ := map_eq_ok.1 hpass
    cases heq
    exact ⟨boolText true, .bool true, by rw [hc, word_iff.1 hword]; rfl⟩
  split at hpass
  · next hc =>
    obtain ⟨s', hword, heq⟩ := map_eq_ok.1 hpass
    cases heq
    exact ⟨boolText false, .bool false, by rw [hc, word_iff.1 hword]; rfl⟩
  split at hpass
  · next hc =>
    obtain ⟨s', hstring, heq⟩ := map_eq_ok.1 hpass
    cases heq
    obtain ⟨t, ht, rfl⟩ := passString_iff.1 hstring
    exact ⟨_, .string ht, by rw [hc]; simp⟩
  split at hpass
  · next hc =>
    obtain ⟨s', hnumber, heq⟩ := map_eq_ok.1 hpass
    cases heq
    obtain ⟨t, ht, rfl⟩ := isNumber_of_passNumber hnumber
    exact ⟨_, .number true ht, by rw [hc]; rfl⟩
  split at hpass
  · obtain ⟨s', hnumber, heq⟩ := map_eq_ok.1 hpass
    cases heq
    have hnumber : passNumber (c :: s) = .ok r := hnumber
    obtain ⟨t, ht, heq⟩ := isNumber_of_passNumber hnumber
    exact ⟨_, .number false ht, heq⟩
  split at hpass
  · next hc =>
    cases depth with
    | zero => cases hpass
    | succ d =>
      obtain ⟨⟨us, s'⟩, hitems, heq⟩ := map_eq_ok.1 hpass
      cases heq
      obtain ⟨pieces, body, hpieces, hbody, rfl⟩ := (hlower d rfl).items_iff.1 hitems
      exact ⟨'[' :: body, .array (forall₂_unit_iff.1 ⟨us, hpieces⟩) hbody, by rw [hc]; rfl⟩
  split at hpass
  · next hc =>
    cases depth with
    | zero => cases hpass
    | succ d =>
      obtain ⟨ms, body, hbody, hthrough, rfl⟩ :=
        ((reads_passBehind (hlower d rfl)).members_iff readsKey_passing).1 hpass
      exact ⟨'\x7b' :: body, .object (through_unit_iff.1 hthrough) hbody, by rw [hc]; rfl⟩
  · cases hpass

theorem reads_passNested (depth : Nat) : Reads (passNested scalars depth) fun t _ => FormedWithin depth t := by
  induction depth using Nat.strongRecOn with
  | ind depth ih =>
    have hlower : ∀ d, depth = d + 1 → Reads (passNested scalars d) fun t _ => FormedWithin d t :=
      fun d hd => ih d (by omega)
    refine .of_first (ignoresBlanks_passNested scalars depth) (fun x hnil => ?_) FormedWithin.beginsItem
      (fun hp hends => passNested_formedWithin hlower hp hends)
      fun hc hpass _ => formedWithin_of_passNested hlower hc hpass
    rw [passNested] at hnil
    cases hnil

/-- **What is passed over has the form of a value**, and everything that has it is passed over. -/
theorem reads_passValue : Reads (fun s => (passValue s).map ((), ·)) fun t (_ : Unit) => WellFormed t where
  begins := fun ⟨_, hp⟩ => hp.beginsItem
  give := by
    rintro p u b rest ⟨d, hp⟩ hb hends
    have hlength : p.length ≤ (b ++ (p ++ rest)).length := by
      simp only [List.length_append]
      omega
    have hpass := (reads_passNested _).give (v := ()) (hp.of_length.mono hlength) hb hends
    show (passValue _).map _ = _
    rw [passValue, hpass]
    rfl
  take := by
    intro s r u hpass hends
    obtain ⟨r', hvalue, heq⟩ := map_eq_ok.1 hpass
    cases heq
    obtain ⟨⟨u, r'⟩, hnested, rfl⟩ := map_eq_ok.1 hvalue
    obtain ⟨b, p, hb, hp, rfl⟩ := (reads_passNested _).take hnested hends
    exact ⟨b, p, hb, ⟨_, hp⟩, rfl⟩

/-! ### Objects and their members -/

/-- The text of an object with the members, each a key and the text of its value, with any blanks around it. -/
def ObjectText (ms : List (String × List Char)) (text : List Char) : Prop :=
  ∃ b body b', Blanks b ∧ Blanks b' ∧ MembersText SpellsKey ms body ∧ text = b ++ ('\x7b' :: body ++ b')

theorem ObjectText.before {ms : List (String × List Char)} {text b : List Char} (htext : ObjectText ms text)
    (hb : Blanks b) : ObjectText ms (text ++ b) := by
  obtain ⟨b₁, body, b₂, hb₁, hb₂, hbody, rfl⟩ := htext
  exact ⟨b₁, body, b₂ ++ b, hb₁, List.forall_mem_append.2 ⟨hb₂, hb⟩, hbody, by simp⟩

/-- Takes the text of a value as it is. -/
def rawText (s : List Char) : Reading (List Char) :=
  (passValue s).map fun r => ((skipBlanks s).take ((skipBlanks s).length - r.length), r)

/-- What is read before the rest is what is missing from it. -/
theorem take_length_sub (p r : List Char) : (p ++ r).take ((p ++ r).length - r.length) = p := by
  rw [List.length_append, Nat.add_sub_cancel, List.take_left]

theorem reads_rawText : Reads rawText fun t x => WellFormed t ∧ x = t where
  begins := fun hp => reads_passValue.begins (v := ()) hp.1
  give := by
    rintro p x b rest ⟨hp, rfl⟩ hb hends
    have hpass := reads_passValue.give (v := ()) hp hb hends
    obtain ⟨r, hpass, heq⟩ := map_eq_ok.1 hpass
    cases heq
    obtain ⟨c, q, rfl, hc, -⟩ := reads_passValue.begins (v := ()) hp
    have hskip : skipBlanks (b ++ (c :: q ++ rest)) = c :: q ++ rest := skipBlanks_blanks_cons hb hc _
    rw [rawText, hpass, hskip]
    exact congrArg (fun x => Except.ok (x, rest)) (take_length_sub (c :: q) rest)
  take := by
    intro s r x hraw hends
    obtain ⟨r', hpass, heq⟩ := map_eq_ok.1 hraw
    cases heq
    obtain ⟨b, p, hb, hp, rfl⟩ := reads_passValue.take (v := ()) (map_eq_ok.2 ⟨r, hpass, rfl⟩) hends
    refine ⟨b, p, hb, ⟨hp, ?_⟩, rfl⟩
    obtain ⟨c, q, rfl, hc, -⟩ := reads_passValue.begins (v := ()) hp
    rw [skipBlanks_append hb, List.cons_append, skipBlanks_cons hc, ← List.cons_append, take_length_sub]

theorem through_rawText {ms : List (String × List Char)} (hvalues : ∀ m ∈ ms, WellFormed m.2)
    (acc : List (String × List Char)) :
    Through (PairStep fun t x => WellFormed t ∧ x = t) ms acc (ms.reverse ++ acc) := by
  induction ms generalizing acc with
  | nil => exact .nil
  | cons m ms ih =>
    rw [List.forall_mem_cons] at hvalues
    have hrest := ih hvalues.2 (m :: acc)
    refine .cons ⟨m.2, ⟨hvalues.1, rfl⟩, rfl⟩ ?_
    simpa using hrest

/-- **The text of an object tells its members**, if they have the form of values. -/
theorem ObjectText.unique {ms ns : List (String × List Char)} {text : List Char} (hms : ObjectText ms text)
    (hns : ObjectText ns text) (hvalues : ∀ m ∈ ms, WellFormed m.2) (hvalues' : ∀ m ∈ ns, WellFormed m.2) :
    ms = ns := by
  have hread : ∀ {ms : List (String × List Char)}, ObjectText ms text → (∀ m ∈ ms, WellFormed m.2) →
      ofText (readMembers .map (pairWith rawText) []) text = .ok ms.reverse := by
    rintro ms ⟨b, body, b', hb, hb', hbody, rfl⟩ hvalues
    refine (reads_rawText.pairWith.readMembers .map []).ofText_iff.2
      ⟨b, '\x7b' :: body, b', hb, hb', ⟨ms, body, hbody, ?_, rfl⟩, rfl⟩
    simpa using through_rawText hvalues []
  have heq := (hread hms hvalues).symm.trans (hread hns hvalues')
  exact List.reverse_injective (Except.ok.inj heq)

end ImagePush.Json
