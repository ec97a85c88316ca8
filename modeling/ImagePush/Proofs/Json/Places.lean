import ImagePush.Proofs.Json.Integers
import ImagePush.Proofs.Json.Typed

/-!
# Places in a text

A text holds the text of another value somewhere inside, at the end of a path through arrays and objects (`Holds`). What
it has for a value is told by what the piece has (`Holds.denotes`), and the value of the piece stands at the same path
of the whole value (`Holds.at?_value`), unless a later member has the same key. If the piece is not read, then neither
is the whole, for the same cause (`Holds.parse_fails`). The other way, where the value has a part, each of its texts
holds a text of the part (`holdsPart_of_at?`).
-/

namespace ImagePush.Json

/-! ### Paths -/

/-- A step from a value to a part of it. -/
inductive Step where
  /-- To an item of an array, counted from zero. -/
  | item (i : Nat)
  /-- To the member of an object with a key; of several the last one. -/
  | key (k : String)
  deriving DecidableEq, Repr

/-- The part of a value at the end of a path. -/
def at? (v : Json) : List Step → Option Json
  | [] => some v
  | .item i :: path =>
    match v with
    | array vs => vs[i]?.bind fun w => at? w path
    | _ => none
  | .key k :: path =>
    match v with
    | object ms => (valuesOf k ms).getLast?.bind fun w => at? w path
    | _ => none

theorem at?_nil (v : Json) : v.at? [] = some v := by
  cases v <;> rfl

/-! ### Values of a key -/

section

variable {τ : Type} {k : String} {v : τ} {ms before after : List (String × τ)}

theorem valuesOf_eq_nil (hk : k ∉ ms.map Prod.fst) : valuesOf k ms = [] := by
  rw [List.eq_nil_iff_forall_not_mem]
  intro v hv
  exact hk (List.mem_map_of_mem (f := Prod.fst) (mem_valuesOf.1 hv))

theorem valuesOf_map_values {β : Type} (f : τ → β) (k : String) (ms : List (String × τ)) :
    valuesOf k (ms.map fun m => (m.1, f m.2)) = (valuesOf k ms).map f := by
  simp [valuesOf, List.filter_map, Function.comp_def]

/-- The last member with a key has the last value. -/
theorem getLast?_valuesOf_append (hk : k ∉ after.map Prod.fst) :
    (valuesOf k (before ++ (k, v) :: after)).getLast? = some v := by
  rw [valuesOf_append, valuesOf_cons_self, valuesOf_eq_nil hk, List.getLast?_concat]

/-- The last value belongs to the last member with the key. -/
theorem exists_of_getLast?_valuesOf (h : (valuesOf k ms).getLast? = some v) :
    ∃ before after, ms = before ++ (k, v) :: after ∧ k ∉ after.map Prod.fst := by
  induction ms with
  | nil => cases h
  | cons m ms ih =>
    by_cases hk : k ∈ ms.map Prod.fst
    · -- the member in front is not the last one
      obtain ⟨⟨k', w⟩, hmem, rfl⟩ := List.mem_map.1 hk
      have hne : valuesOf k' ms ≠ [] := List.ne_nil_of_mem (mem_valuesOf.2 hmem)
      have hrest : (valuesOf k' ms).getLast? = some v := by
        by_cases hm : m.1 = k'
        · subst hm
          rw [valuesOf_cons_self, List.getLast?_cons_of_ne_nil hne] at h
          exact h
        · rw [valuesOf_cons_of_ne hm] at h
          exact h
      obtain ⟨before, after, rfl, hafter⟩ := ih hrest
      exact ⟨m :: before, after, rfl, hafter⟩
    · obtain ⟨k', w⟩ := m
      by_cases hm : k' = k
      · subst hm
        rw [valuesOf_cons_self, valuesOf_eq_nil hk] at h
        obtain rfl := Option.some.inj h
        exact ⟨[], ms, rfl, hk⟩
      · rw [valuesOf_cons_of_ne hm, valuesOf_eq_nil hk] at h
        cases h

end

/-! ### Texts with a piece inside -/

/-- The text holds a piece of text: it is the piece, or an array or an object of which one value holds it and the other
values have texts as `P` tells. The place is the path to the piece, if no later member has the same key. The value of
the text is told by the value of the piece. -/
inductive Holds (P : List Char → Json → Prop) (piece : List Char) :
    Option (List Step) → List Char → (Json → Json) → Prop where
  /-- The piece itself. -/
  | here : Holds P piece (some []) piece fun w => w
  /-- An array of which one item holds the piece. -/
  | item {before after : List (List Char × Json)} {place : Option (List Step)} {t body : List Char}
      {value : Json → Json} (hbefore : ∀ i ∈ before, P i.1 i.2) (hafter : ∀ i ∈ after, P i.1 i.2)
      (ht : Holds P piece place t value)
      (hbody : Enclosed ']' ((before.map fun i => i.1) ++ t :: after.map fun i => i.1) body) :
      Holds P piece (place.map (.item before.length :: ·)) ('[' :: body)
        fun w => array ((before.map fun i => i.2) ++ value w :: after.map fun i => i.2)
  /-- An object of which one member holds the piece. A later member with the same key hides it. -/
  | member {before after : List (String × List Char × Json)} {key : String} {place : Option (List Step)}
      {t body : List Char} {value : Json → Json} (hbefore : ∀ m ∈ before, P m.2.1 m.2.2)
      (hafter : ∀ m ∈ after, P m.2.1 m.2.2) (ht : Holds P piece place t value)
      (hbody : MembersText SpellsKey
        ((before.map fun m => (m.1, m.2.1)) ++ (key, t) :: after.map fun m => (m.1, m.2.1)) body) :
      Holds P piece (if key ∈ after.map Prod.fst then none else place.map (.key key :: ·)) ('\x7b' :: body)
        fun w => object ((before.map fun m => (m.1, m.2.2)) ++ (key, value w) :: after.map fun m => (m.1, m.2.2))

section

variable {piece t : List Char} {place : Option (List Step)} {value : Json → Json}

/-- **The value of a text is told by the value of the piece inside.** -/
theorem Holds.denotes (ht : Holds Denotes piece place t value) {w : Json} (hw : Denotes piece w) :
    Denotes t (value w) := by
  induction ht with
  | here => exact hw
  | @item before after place t body value hbefore hafter _ hbody ih =>
    have hitems : ∀ i ∈ before ++ (t, value w) :: after, Denotes i.1 i.2 :=
      List.forall_mem_append.2 ⟨hbefore, List.forall_mem_cons.2 ⟨ih, hafter⟩⟩
    have harray := @Denotes.array _ body hitems
    rw [List.map_append, List.map_append, List.map_cons, List.map_cons] at harray
    exact harray hbody
  | @member before after key place t body value hbefore hafter _ hbody ih =>
    have hmembers : ∀ m ∈ before ++ (key, t, value w) :: after, Denotes m.2.1 m.2.2 :=
      List.forall_mem_append.2 ⟨hbefore, List.forall_mem_cons.2 ⟨ih, hafter⟩⟩
    have hobject := @Denotes.object _ body hmembers
    rw [List.map_append, List.map_append, List.map_cons, List.map_cons] at hobject
    exact hobject hbody

/-- **The value of the piece stands at its place in the whole value.** -/
theorem Holds.at?_value {P : List Char → Json → Prop} (ht : Holds P piece place t value) (w : Json) :
    ∀ path ∈ place, (value w).at? path = some w := by
  induction ht with
  | here =>
    intro path hpath
    obtain rfl := Option.some.inj hpath
    exact at?_nil w
  | item _ _ _ _ ih =>
    intro path hpath
    obtain ⟨path, hplace, rfl⟩ := Option.map_eq_some_iff.1 hpath
    rw [at?, List.getElem?_append_right (by simp)]
    simpa using ih path hplace
  | @member before after key place t body value _ _ _ _ ih =>
    intro path hpath
    split at hpath
    · cases hpath
    · next hkey =>
      obtain ⟨path, hplace, rfl⟩ := Option.map_eq_some_iff.1 hpath
      have hkeys : key ∉ (after.map fun m => (m.1, m.2.2)).map Prod.fst := by
        rw [List.map_map]
        exact hkey
      rw [at?, getLast?_valuesOf_append hkeys]
      exact ih path hplace

/-- The pieces of an object with a member among others. -/
theorem MembersText.exists_pieces {κ : Type} {Key : κ → List Char → Prop} {before after : List (κ × List Char)}
    {m : κ × List Char} {body : List Char} (hbody : MembersText Key (before ++ m :: after) body) :
    ∃ ps p qs, List.Forall₂ (fun m p => MemberText (Key m.1) m.2 p) before ps ∧ MemberText (Key m.1) m.2 p ∧
      Enclosed '\x7d' (ps ++ p :: qs) body := by
  obtain ⟨pieces, hpieces, henclosed⟩ := hbody
  have hfront := (List.forall₂_take_append _ _ _ hpieces.flip).flip
  have hback := (List.forall₂_drop_append _ _ _ hpieces.flip).flip
  obtain ⟨p, qs, hp, -, hdrop⟩ := List.forall₂_cons_left_iff.1 hback
  refine ⟨_, p, qs, hfront, hp, ?_⟩
  rw [← hdrop, List.take_append_drop]
  exact henclosed

theorem Holds.beginsItem {P : List Char → Json → Prop} (ht : Holds P piece place t value)
    (hpiece : BeginsItem piece) : BeginsItem t := by
  cases ht with
  | here => exact hpiece
  | item => exact ⟨'[', _, rfl, by decide, by decide⟩
  | member => exact ⟨'\x7b', _, rfl, by decide, by decide⟩

/-- Pieces that are nested alike make values that are nested alike. -/
theorem Holds.depth_value_le {P : List Char → Json → Prop} (ht : Holds P piece place t value) {w w' : Json}
    (hw : w'.depth ≤ w.depth) : ∀ {d}, (value w).depth ≤ d → (value w').depth ≤ d := by
  induction ht with
  | here => exact fun hd => Nat.le_trans hw hd
  | item _ _ _ _ ih =>
    intro d hd
    obtain ⟨d, rfl⟩ := Nat.exists_eq_succ_of_ne_zero (Nat.ne_of_gt (Nat.zero_lt_of_lt hd))
    rw [depth_array_le, List.forall_mem_append, List.forall_mem_cons] at hd ⊢
    exact ⟨hd.1, ih hd.2.1, hd.2.2⟩
  | member _ _ _ _ ih =>
    intro d hd
    obtain ⟨d, rfl⟩ := Nat.exists_eq_succ_of_ne_zero (Nat.ne_of_gt (Nat.zero_lt_of_lt hd))
    rw [depth_object_le, List.forall_mem_append, List.forall_mem_cons] at hd ⊢
    exact ⟨hd.1, ih hd.2.1, hd.2.2⟩

/-- An array is not read if an item behind others that are read is not. -/
theorem readValue_array_fails {cause : Cause} {depth : Nat} {before : List (List Char × Json)}
    {after : List (List Char)} {t body : List Char} (hbefore : ∀ i ∈ before, Denotes i.1 i.2 ∧ i.2.depth ≤ depth)
    (ht : FailsItem (readValue depth) cause t)
    (hbody : Enclosed ']' ((before.map fun i => i.1) ++ t :: after) body) (rest : List Char) :
    FailsFor cause (readValue (depth + 1) ('[' :: (body ++ rest))) := by
  have hread : List.Forall₂ (ReadsItem (readValue depth)) (before.map fun i => i.1) (before.map fun i => i.2) :=
    forall₂_pairs fun i hi => (reads_value depth).readsItem (hbefore i hi)
  rw [readValue_array]
  exact (items_fail hread ht hbody rest).map _

/-- An object is not read if the value of a member behind others that are read is not. -/
theorem readValue_object_fails {cause : Cause} {depth : Nat} {before : List (String × List Char × Json)}
    {after : List (String × List Char)} {key : String} {t body : List Char}
    (hbefore : ∀ m ∈ before, Denotes m.2.1 m.2.2 ∧ m.2.2.depth ≤ depth)
    (ht : ∀ rest, Ends rest → FailsFor cause (readValue depth (t ++ rest)))
    (hbody : MembersText SpellsKey ((before.map fun m => (m.1, m.2.1)) ++ (key, t) :: after) body)
    (rest : List Char) : FailsFor cause (readValue (depth + 1) ('\x7b' :: (body ++ rest))) := by
  have hthrough : Through (PairStep fun t v => Denotes t v ∧ v.depth ≤ depth) _ [] _ :=
    through_pairStep_iff.2 ⟨before, rfl, hbefore, rfl⟩
  obtain ⟨ps, p, qs, hps, hp, hbody⟩ := hbody.exists_pieces
  have hread := (reads_value depth).pairWith.through readsKey_reading hthrough hps
  have hmember : ∀ acc, FailsMember reading (pairWith (readValue depth)) cause acc p := by
    intro acc
    apply failsMember_of_text readsKey_reading hp
    intro b b' rest hb hb' hends
    rw [pairWith, colon_iff.2 ⟨b, hb, rfl⟩]
    simp only [readValue_blanks hb']
    exact (ht rest hends).map _
  rw [readValue_object]
  exact (members_fail hread (hmember _) hbody rest).map _

/-- A text is not read if the piece inside is not. -/
theorem Holds.readValue_fails (ht : Holds Denotes piece place t value) (hbegins : BeginsItem piece) {cause : Cause}
    (hpiece : ∀ depth rest, Ends rest → FailsFor cause (readValue depth (piece ++ rest))) :
    ∀ {depth : Nat} {rest : List Char}, (value null).depth ≤ depth → Ends rest →
      FailsFor cause (readValue depth (t ++ rest)) := by
  induction ht with
  | here => exact fun _ hends => hpiece _ _ hends
  | item hbefore hafter ht hbody ih =>
    intro depth rest hdepth hends
    obtain ⟨depth, rfl⟩ := Nat.exists_eq_succ_of_ne_zero (Nat.ne_of_gt (Nat.zero_lt_of_lt hdepth))
    rw [depth_array_le, List.forall_mem_append, List.forall_mem_cons, List.forall_mem_map] at hdepth
    obtain ⟨hfront, hdepth, -⟩ := hdepth
    exact readValue_array_fails (fun i hi => ⟨hbefore i hi, hfront i hi⟩)
      ⟨ht.beginsItem hbegins, fun rest hends => ih hdepth hends⟩ hbody rest
  | member hbefore hafter ht hbody ih =>
    intro depth rest hdepth hends
    obtain ⟨depth, rfl⟩ := Nat.exists_eq_succ_of_ne_zero (Nat.ne_of_gt (Nat.zero_lt_of_lt hdepth))
    rw [depth_object_le, List.forall_mem_append, List.forall_mem_cons, List.forall_mem_map] at hdepth
    obtain ⟨hfront, hdepth, -⟩ := hdepth
    exact readValue_object_fails (fun m hm => ⟨hbefore m hm, hfront m hm⟩) (fun rest hends => ih hdepth hends)
      hbody rest

/-- **A whole text is not read if the piece inside is not**, for the same cause. -/
theorem Holds.parse_fails (ht : Holds Denotes piece place t value) (hbegins : BeginsItem piece) {cause : Cause}
    (hpiece : ∀ depth rest, Ends rest → FailsFor cause (readValue depth (piece ++ rest)))
    (hdepth : (value null).depth ≤ maxDepth) {b b' : List Char} (hb : Blanks b) (hb' : Blanks b') :
    ∃ e, parse (b ++ (t ++ b')) = .error e ∧ e.cause = cause := by
  have hends : Ends (b' ++ []) := Ends.blanks_append hb' ends_nil
  rw [List.append_nil] at hends
  apply ofText_fails
  rw [readValue_blanks hb]
  exact ht.readValue_fails hbegins hpiece hdepth hends

end

/-! ### Pieces of the texts of a value -/

theorem exists_split {α : Type} {xs : List α} {i : Nat} {x : α} (hx : xs[i]? = some x) :
    ∃ before after, xs = before ++ x :: after ∧ before.length = i := by
  obtain ⟨hi, rfl⟩ := List.getElem?_eq_some_iff.1 hx
  refine ⟨xs.take i, xs.drop (i + 1), ?_, List.length_take_of_le (Nat.le_of_lt hi)⟩
  rw [← List.drop_eq_getElem_cons hi, List.take_append_drop]

/-- The text is one of the value, and it holds a text of the part at the end of the path. -/
def HoldsPart (w : Json) (path : List Step) (v : Json) (t : List Char) : Prop :=
  ∃ s value, Spells w s ∧ Holds (fun t v => Spells v t) s (some path) t value ∧ value w = v

section

variable {w u : Json} {path : List Step} {t : List Char}

theorem holdsPart_item {vs : List Json} {i : Nat} (hu : vs[i]? = some u)
    (hpart : ∀ {p}, Spells u p → HoldsPart w path u p) (ht : Spells (array vs) t) :
    HoldsPart w (.item i :: path) (array vs) t := by
  obtain ⟨pieces, body, hpieces, hbody, rfl⟩ := ht
  obtain ⟨items, rfl, rfl, hitems⟩ := hpieces.exists_items
  rw [List.getElem?_map] at hu
  obtain ⟨⟨p, u⟩, hi, rfl⟩ := Option.map_eq_some_iff.1 hu
  obtain ⟨before, after, rfl, rfl⟩ := exists_split hi
  rw [List.forall_mem_append, List.forall_mem_cons] at hitems
  obtain ⟨s, value, hs, hp, hvalue⟩ := hpart hitems.2.1
  rw [List.map_append, List.map_cons] at hbody
  exact ⟨s, _, hs, .item hitems.1 hitems.2.2 hp hbody, by simp [hvalue]⟩

theorem holdsPart_key {ms : List (String × Json)} {k : String} (hu : (valuesOf k ms).getLast? = some u)
    (hpart : ∀ {p}, Spells u p → HoldsPart w path u p) (ht : Spells (object ms) t) :
    HoldsPart w (.key k :: path) (object ms) t := by
  obtain ⟨pieces, body, hpieces, hbody, rfl⟩ := ht
  obtain ⟨texts, rfl, htexts, hmembers⟩ := hpieces.exists_members
  rw [valuesOf_map_values, List.getLast?_map] at hu
  obtain ⟨⟨p, u⟩, hlast, rfl⟩ := Option.map_eq_some_iff.1 hu
  obtain ⟨before, after, rfl, hafter⟩ := exists_of_getLast?_valuesOf hlast
  rw [List.forall_mem_append, List.forall_mem_cons] at htexts
  obtain ⟨s, value, hs, hp, hvalue⟩ := hpart htexts.2.1
  rw [List.map_append, List.map_cons] at hmembers
  have hholds := Holds.member htexts.1 htexts.2.2 hp ⟨_, hmembers, hbody⟩
  rw [if_neg hafter] at hholds
  exact ⟨s, _, hs, hholds, by simp [hvalue]⟩

end

/-- **A text of a value holds a text of each part**, at the end of the path to the part. -/
theorem holdsPart_of_at? {w : Json} {path : List Step} :
    ∀ {v : Json} {t : List Char}, v.at? path = some w → Spells v t → HoldsPart w path v t := by
  induction path with
  | nil =>
    intro v t hw ht
    rw [at?_nil] at hw
    obtain rfl := Option.some.inj hw
    exact ⟨t, _, ht, .here, rfl⟩
  | cons step path ih =>
    intro v t hw ht
    cases step with
    | item i =>
      cases v with
      | array vs =>
        obtain ⟨u, hu, hpart⟩ := Option.bind_eq_some_iff.1 hw
        exact holdsPart_item hu (fun hp => ih hpart hp) ht
      | _ => cases hw
    | key k =>
      cases v with
      | object ms =>
        obtain ⟨u, hu, hpart⟩ := Option.bind_eq_some_iff.1 hw
        exact holdsPart_key hu (fun hp => ih hpart hp) ht
      | _ => cases hw

/-- If all numbers of the value are whole and fit 64 bits, then the texts beside the piece have their values. -/
theorem Holds.of_exact {piece t : List Char} {place : Option (List Step)} {value : Json → Json} {w : Json}
    (ht : Holds (fun t v => Spells v t) piece place t value) (hexact : (value w).Exact) :
    Holds Denotes piece place t value := by
  induction ht with
  | here => exact .here
  | item hbefore hafter _ hbody ih =>
    have hitems := allNumbers_array.1 hexact
    rw [List.forall_mem_append, List.forall_mem_cons, List.forall_mem_map, List.forall_mem_map] at hitems
    obtain ⟨hfront, hpart, hback⟩ := hitems
    exact .item (fun i hi => (hbefore i hi).denotes (hfront i hi)) (fun i hi => (hafter i hi).denotes (hback i hi))
      (ih hpart) hbody
  | member hbefore hafter _ hbody ih =>
    have hmembers := allNumbers_object.1 hexact
    rw [List.forall_mem_append, List.forall_mem_cons, List.forall_mem_map, List.forall_mem_map] at hmembers
    obtain ⟨hfront, hpart, hback⟩ := hmembers
    exact .member (fun m hm => (hbefore m hm).denotes (hfront m hm)) (fun m hm => (hafter m hm).denotes (hback m hm))
      (ih hpart) hbody

end ImagePush.Json
