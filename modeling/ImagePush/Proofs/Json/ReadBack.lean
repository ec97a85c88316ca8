import ImagePush.Proofs.Json.Language

/-!
# Texts read back

A value whose numbers are whole and fit 64 bits (`Exact`) is read back from each of its texts if it is not
nested too deep (`parse_spells`). Any other value, doubles included, is only read from its texts if it is
not nested too deep, and then to their ends (`readValue_stops`).
-/

namespace ImagePush.Json

/-! ### Pieces -/

theorem intText_eq (n : Int) :
    intText n = if decide (n < 0) then '-' :: Nat.toDigits 10 n.natAbs else Nat.toDigits 10 n.natAbs := by
  simp [intText]

theorem Spells.beginsItem {v : Json} {t : List Char} (ht : Spells v t) : BeginsItem t := by
  cases v with
  | null =>
    obtain rfl : t = nullText := ht
    exact ⟨'n', _, rfl, by decide, by decide⟩
  | bool b =>
    obtain rfl : t = boolText b := ht
    cases b
    · exact ⟨'f', _, rfl, by decide, by decide⟩
    · exact ⟨'t', _, rfl, by decide, by decide⟩
  | int n =>
    obtain rfl : t = intText n := ht
    rw [intText_eq]
    exact beginsItem_numeral (numeral_toDigits _) _
  | float x =>
    obtain rfl : t = floatText x := ht
    unfold floatText
    split
    · exact beginsItem_numeral (numeral_magnitude .json x) x.isNegative
    · exact ⟨'n', _, rfl, by decide, by decide⟩
  | string s =>
    obtain rfl : t = quote s := ht
    exact ⟨'"', _, rfl, by decide, by decide⟩
  | array vs =>
    obtain ⟨pieces, body, -, -, rfl⟩ := ht
    exact ⟨'[', body, rfl, by decide, by decide⟩
  | object ms =>
    obtain ⟨pieces, body, -, -, rfl⟩ := ht
    exact ⟨'\x7b', body, rfl, by decide, by decide⟩

/-- What stands behind a key is read behind its colon. -/
theorem colon_append {b b' : List Char} (hb : Blanks b) (p rest : List Char) :
    colon ((b ++ ':' :: (b' ++ p)) ++ rest) = .ok (b' ++ (p ++ rest)) := by
  rw [List.append_assoc, List.cons_append, List.append_assoc, colon, skipBlanks_blanks_cons hb (by decide)]
  rfl

theorem pairWith_append {α : Type} {read : List Char → Reading α} (hblanks : IgnoresBlanks read)
    {b b' : List Char} (hb : Blanks b) (hb' : Blanks b') (acc : List (String × α)) (key : String)
    (p rest : List Char) :
    pairWith read acc key ((b ++ ':' :: (b' ++ p)) ++ rest) =
      (read (p ++ rest)).map fun (v, s) => ((key, v) :: acc, s) := by
  rw [pairWith, colon_append hb]
  show (read (b' ++ (p ++ rest))).map _ = _
  rw [hblanks b' _ hb']

/-! ### Texts that are nested too deep -/

theorem SpellsItems.exists_item {vs : List Json} :
    ∀ {pieces : List (List Char)}, SpellsItems vs pieces →
      (∀ p ∈ pieces, ∃ v ∈ vs, Spells v p) ∧ ∀ v ∈ vs, ∃ p ∈ pieces, Spells v p := by
  induction vs with
  | nil =>
    rintro pieces rfl
    simp
  | cons v vs ih =>
    rintro pieces ⟨p, ps, hp, hps, rfl⟩
    obtain ⟨hvalue, hpiece⟩ := ih hps
    constructor
    · refine List.forall_mem_cons.2 ⟨⟨v, List.mem_cons_self, hp⟩, fun q hq => ?_⟩
      obtain ⟨w, hw, hspells⟩ := hvalue q hq
      exact ⟨w, List.mem_cons_of_mem v hw, hspells⟩
    · refine List.forall_mem_cons.2 ⟨⟨p, List.mem_cons_self, hp⟩, fun w hw => ?_⟩
      obtain ⟨q, hq, hspells⟩ := hpiece w hw
      exact ⟨q, List.mem_cons_of_mem p hq, hspells⟩

/-- The piece is a text of the member of an object. -/
def SpellsMember (m : String × Json) (piece : String × List Char) : Prop :=
  ∃ b b' p, Blanks b ∧ Blanks b' ∧ Spells m.2 p ∧ piece = (m.1, b ++ ':' :: (b' ++ p))

theorem SpellsMembers.exists_member {ms : List (String × Json)} :
    ∀ {pieces : List (String × List Char)}, SpellsMembers ms pieces →
      (∀ p ∈ pieces, ∃ m ∈ ms, SpellsMember m p) ∧ ∀ m ∈ ms, ∃ p ∈ pieces, SpellsMember m p := by
  induction ms with
  | nil =>
    rintro pieces rfl
    simp
  | cons m ms ih =>
    obtain ⟨k, v⟩ := m
    rintro pieces ⟨b, b', p, ps, hb, hb', hp, hps, rfl⟩
    obtain ⟨hvalue, hpiece⟩ := ih hps
    have hfirst : SpellsMember (k, v) (k, b ++ ':' :: (b' ++ p)) := ⟨b, b', p, hb, hb', hp, rfl⟩
    constructor
    · refine List.forall_mem_cons.2 ⟨⟨_, List.mem_cons_self, hfirst⟩, fun q hq => ?_⟩
      obtain ⟨w, hw, hspells⟩ := hvalue q hq
      exact ⟨w, List.mem_cons_of_mem _ hw, hspells⟩
    · refine List.forall_mem_cons.2 ⟨⟨_, List.mem_cons_self, hfirst⟩, fun w hw => ?_⟩
      obtain ⟨q, hq, hspells⟩ := hpiece w hw
      exact ⟨q, List.mem_cons_of_mem _ hq, hspells⟩

/-- A text of the value is only read if the value is nested no deeper than the bound, and then to its end. What
is read differs from the value at most in its doubles, which are not followed here. -/
def StopsWithin {α : Type} (read : List Char → Reading α) (bound : Nat) (v : Json) : Prop :=
  ∀ ⦃t rest s : List Char⦄ ⦃w : α⦄, Spells v t → Ends rest →
    read (t ++ rest) = .ok (w, s) → s = rest ∧ v.depth ≤ bound

/-- A text of the value is only read as a value if it is not nested too deep, and then to its end. -/
def Stops (depth : Nat) (v : Json) : Prop :=
  StopsWithin (readValue depth) depth v

/-- A text of the member is only read if its value is nested no deeper than the bound, and then to its end. -/
def MemberStopsWithin {σ : Type} (member : σ → String → List Char → Reading σ) (bound : Nat)
    (m : String × Json) : Prop :=
  ∀ ⦃piece : String × List Char⦄ ⦃state next : σ⦄ ⦃rest s : List Char⦄, SpellsMember m piece → Ends rest →
    member state piece.1 (piece.2 ++ rest) = .ok (next, s) → s = rest ∧ m.2.depth ≤ bound

theorem SpellsItems.stops {depth : Nat} {vs ws : List Json} {pieces : List (List Char)}
    {body rest s : List Char} (hpieces : SpellsItems vs pieces) (hbody : Enclosed ']' pieces body)
    (hall : ∀ v ∈ vs, v.Stops depth)
    (hread : items reading (readValue depth) (body ++ rest) = .ok (ws, s)) :
    s = rest ∧ ∀ v ∈ vs, v.depth ≤ depth := by
  obtain ⟨hvalue, hpiece⟩ := hpieces.exists_item
  have hstops : ∀ p ∈ pieces,
      StopsItem (readValue depth) (fun p => ∀ v ∈ vs, Spells v p → v.depth ≤ depth) p := by
    intro p hp
    obtain ⟨v, hv, hspells⟩ := hvalue p hp
    refine ⟨hspells.beginsItem, fun rest w s hends hread => ?_⟩
    exact ⟨(hall v hv hspells hends hread).1, fun v' hv' hspells' => (hall v' hv' hspells' hends hread).2⟩
  obtain ⟨hs, hdepths⟩ := items_stops hstops hbody hread
  refine ⟨hs, fun v hv => ?_⟩
  obtain ⟨p, hp, hspells⟩ := hpiece v hv
  exact hdepths p hp v hv hspells

theorem SpellsMembers.stops {σ : Type} {member : σ → String → List Char → Reading σ} {bound : Nat}
    {ms : List (String × Json)} {pieces : List (String × List Char)} {body rest s : List Char} {state final : σ}
    (hpieces : SpellsMembers ms pieces) (hbody : Enclosed '\x7d' (pieces.map memberText) body)
    (hall : ∀ m ∈ ms, MemberStopsWithin member bound m)
    (hread : members reading member state (body ++ rest) = .ok (final, s)) :
    s = rest ∧ ∀ m ∈ ms, m.2.depth ≤ bound := by
  obtain ⟨hvalue, hpiece⟩ := hpieces.exists_member
  have hstops : ∀ piece ∈ pieces,
      StopsMember member (fun piece => ∀ m ∈ ms, SpellsMember m piece → m.2.depth ≤ bound) piece := by
    intro piece hp state next rest s hends hread
    obtain ⟨m, hm, hspells⟩ := hvalue piece hp
    exact ⟨(hall m hm hspells hends hread).1, fun m' hm' hspells' => (hall m' hm' hspells' hends hread).2⟩
  obtain ⟨hs, hdepths⟩ := members_stops hstops hbody hread
  refine ⟨hs, fun m hm => ?_⟩
  obtain ⟨piece, hp, hspells⟩ := hpiece m hm
  exact hdepths piece hp m hm hspells

/-- A pair is read as far as its value is. -/
theorem StopsWithin.pairWith {α : Type} {read : List Char → Reading α} (hblanks : IgnoresBlanks read)
    {bound : Nat} {m : String × Json} (hstops : m.2.StopsWithin read bound) :
    MemberStopsWithin (pairWith read) bound m := by
  rintro piece acc next rest s ⟨b, b', p, hb, hb', hspells, rfl⟩ hends hread
  rw [pairWith_append hblanks hb hb', map_eq_ok] at hread
  obtain ⟨⟨w, s'⟩, hw, heq⟩ := hread
  cases heq
  exact hstops hspells hends hw

/-- **A value is only read from its texts if it is not nested too deep**, and then to their ends. -/
theorem readValue_stops (v : Json) : ∀ depth, v.Stops depth := by
  induction v using nested with
  | null =>
    rintro depth t rest s w rfl - hread
    rw [readValue_null] at hread
    cases hread
    exact ⟨rfl, Nat.zero_le _⟩
  | bool b =>
    rintro depth t rest s w rfl - hread
    rw [readValue_bool] at hread
    cases hread
    exact ⟨rfl, Nat.zero_le _⟩
  | int n =>
    rintro depth t rest s w rfl hends hread
    rw [intText_eq] at hread
    exact ⟨eq_of_readValue_numeral (numeral_toDigits _) _ hends hread, Nat.zero_le _⟩
  | float x =>
    rintro depth t rest s w rfl hends hread
    refine ⟨?_, Nat.zero_le _⟩
    unfold floatText at hread
    split at hread
    · exact eq_of_readValue_numeral (numeral_magnitude .json x) x.isNegative hends hread
    · rw [readValue_null] at hread
      cases hread
      rfl
  | string x =>
    rintro depth t rest s w rfl - hread
    rw [readValue_quote] at hread
    cases hread
    exact ⟨rfl, Nat.zero_le _⟩
  | array vs ih =>
    rintro depth t rest s w ⟨pieces, body, hpieces, hbody, rfl⟩ - hread
    cases depth with
    | zero =>
      rw [readValue] at hread
      cases hread
    | succ depth =>
      rw [List.cons_append, readValue_array, map_eq_ok] at hread
      obtain ⟨⟨ws, s'⟩, hitems, heq⟩ := hread
      cases heq
      obtain ⟨hs, hdepths⟩ := hpieces.stops hbody (fun v hv => ih v hv depth) hitems
      exact ⟨hs, depth_array_le.2 hdepths⟩
  | object ms ih =>
    rintro depth t rest s w ⟨pieces, body, hpieces, hbody, rfl⟩ - hread
    cases depth with
    | zero =>
      rw [readValue] at hread
      cases hread
    | succ depth =>
      rw [List.cons_append, readValue_object, map_eq_ok] at hread
      obtain ⟨⟨ns, s'⟩, hmembers, heq⟩ := hread
      cases heq
      obtain ⟨hs, hdepths⟩ := hpieces.stops hbody
        (fun m hm => StopsWithin.pairWith (ignoresBlanks_readValue depth) (ih m hm depth)) hmembers
      exact ⟨hs, depth_object_le.2 hdepths⟩

/-! ### Whole texts -/

/-- **A value of whole numbers that fit is the value of each of its texts**, unless it is nested too deep. -/
theorem parse_spells {v : Json} {t : List Char} (ht : Spells v t) (hexact : v.Exact)
    (hdepth : v.depth ≤ maxDepth) : parse t = .ok v :=
  parse_iff.2 ⟨(ht.denotes hexact).textOf, hdepth⟩

/-- No text of a value that is nested too deep is read. -/
theorem depth_le_of_parse_spells {v w : Json} {t : List Char} (ht : Spells v t) (hparse : parse t = .ok w) :
    v.depth ≤ maxDepth := by
  obtain ⟨s, hread, -⟩ := ofText_eq_ok.1 hparse
  rw [← List.append_nil t] at hread
  exact (readValue_stops v maxDepth ht ends_nil hread).2

end ImagePush.Json
