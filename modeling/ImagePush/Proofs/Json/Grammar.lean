import ImagePush.Proofs.Json.Basic
import ImagePush.Proofs.Json.NumberTexts
import ImagePush.Proofs.Json.Spelling

/-!
# The grammar of JSON text

Two relations say what a JSON text is, apart from any reader. `Denotes t v` says that the text has the value: its
strings may use any escape, its arrays and objects may be laid out in any way, and its numbers may be of any length
if they can be told as a double. `WellFormed t` asks for the form alone, as it is enough for what is passed over:
surrogates need not be paired, and numbers need not have a value. Whatever has a value is well formed
(`Denotes.wellFormed`), and what the writer makes of a value has it (`Spells.denotes`).
-/

namespace ImagePush.Json

/-! ### Members of objects -/

/-- The text of a member of an object: its key between quotes, a colon and the text of its value, with any blanks
around the colon. -/
inductive MemberText (Key : List Char → Prop) (value : List Char) : List Char → Prop where
  | intro {k b b' : List Char} (hkey : Key k) (hb : Blanks b) (hb' : Blanks b') :
      MemberText Key value ('"' :: (k ++ '"' :: (b ++ ':' :: (b' ++ value))))

/-- The text behind the opening brace of an object with the members, each a key and the text of its value. -/
def MembersText {κ : Type} (Key : κ → List Char → Prop) (ms : List (κ × List Char)) (body : List Char) : Prop :=
  ∃ pieces, List.Forall₂ (fun m p => MemberText (Key m.1) m.2 p) ms pieces ∧ Enclosed '\x7d' pieces body

/-- What may stand between the quotes of a key. -/
def SpellsKey (key : String) (t : List Char) : Prop :=
  SpellsChars key.toList t

/-- What may stand between the quotes of a key that is passed over. -/
def LooseKey (_ : Unit) (t : List Char) : Prop :=
  LooseChars t

theorem MemberText.mono {Key Key' : List Char → Prop} (hsub : ∀ k, Key k → Key' k) {value p : List Char}
    (hp : MemberText Key value p) : MemberText Key' value p := by
  obtain ⟨hkey, hb, hb'⟩ := hp
  exact .intro (hsub _ hkey) hb hb'

/-- The keys of members may be forgotten. -/
theorem MembersText.loose {ms : List (String × List Char)} {body : List Char} (hms : MembersText SpellsKey ms body) :
    MembersText LooseKey (ms.map fun m => ((), m.2)) body := by
  obtain ⟨pieces, hpieces, hbody⟩ := hms
  refine ⟨pieces, ?_, hbody⟩
  rw [List.forall₂_map_left_iff]
  exact hpieces.imp fun _ _ hp => hp.mono fun _ => SpellsChars.loose

/-- Each value is shorter than the text of the members. -/
theorem MembersText.length_lt {κ : Type} {Key : κ → List Char → Prop} {ms : List (κ × List Char)}
    {body : List Char} (hms : MembersText Key ms body) : ∀ m ∈ ms, m.2.length < body.length := by
  obtain ⟨pieces, hpieces, hbody⟩ := hms
  have hlength := hbody.length_le
  clear hbody
  induction hpieces with
  | nil => simp
  | cons hmember _ ih =>
    rw [List.forall_mem_cons] at hlength ⊢
    refine ⟨?_, ih hlength.2⟩
    obtain ⟨hkey, hb, hb'⟩ := hmember
    have hle := hlength.1
    simp only [List.length_cons, List.length_append] at hle
    omega

/-! ### Values -/

/-- The sign of a number. -/
def signText (negative : Bool) : List Char :=
  if negative then ['-'] else []

/-- The text has the value. -/
inductive Denotes : List Char → Json → Prop where
  | null : Denotes nullText null
  | bool (b : Bool) : Denotes (boolText b) (bool b)
  /-- The text between the quotes spells the characters of the string, each in any of the ways to write it. -/
  | string {s : String} {body : List Char} (hbody : SpellsChars s.toList body) :
      Denotes ('"' :: (body ++ ['"'])) (string s)
  /-- A number has the value that is read from its digits. -/
  | number (negative : Bool) {t : List Char} {v : Json} (ht : IsNumber t)
      (hv : readNumber negative t = .ok (v, [])) : Denotes (signText negative ++ t) v
  /-- The items stand in brackets, with commas and blanks between them. -/
  | array {items : List (List Char × Json)} {body : List Char} (hitems : ∀ i ∈ items, Denotes i.1 i.2)
      (hbody : Enclosed ']' (items.map fun i => i.1) body) : Denotes ('[' :: body) (array (items.map fun i => i.2))
  /-- The members stand in braces; a key may occur more than once, and all its members count here. -/
  | object {ms : List (String × List Char × Json)} {body : List Char} (hms : ∀ m ∈ ms, Denotes m.2.1 m.2.2)
      (hbody : MembersText SpellsKey (ms.map fun m => (m.1, m.2.1)) body) :
      Denotes ('\x7b' :: body) (object (ms.map fun m => (m.1, m.2.2)))

/-- The text has the form of a value that is nested so deep at most. -/
inductive FormedWithin : Nat → List Char → Prop where
  | null {depth : Nat} : FormedWithin depth nullText
  | bool {depth : Nat} (b : Bool) : FormedWithin depth (boolText b)
  /-- Only the form of the escapes counts, not which characters they stand for. -/
  | string {depth : Nat} {body : List Char} (hbody : LooseChars body) : FormedWithin depth ('"' :: (body ++ ['"']))
  /-- A number may be too large for any value. -/
  | number {depth : Nat} (negative : Bool) {t : List Char} (ht : IsNumber t) :
      FormedWithin depth (signText negative ++ t)
  /-- The items are nested one level less. -/
  | array {depth : Nat} {pieces : List (List Char)} {body : List Char} (hpieces : ∀ p ∈ pieces, FormedWithin depth p)
      (hbody : Enclosed ']' pieces body) : FormedWithin (depth + 1) ('[' :: body)
  | object {depth : Nat} {ms : List (Unit × List Char)} {body : List Char} (hms : ∀ m ∈ ms, FormedWithin depth m.2)
      (hbody : MembersText LooseKey ms body) : FormedWithin (depth + 1) ('\x7b' :: body)

/-- The text has the form of a value. -/
def WellFormed (t : List Char) : Prop :=
  ∃ depth, FormedWithin depth t

theorem FormedWithin.mono {d : Nat} {t : List Char} (ht : FormedWithin d t) : ∀ {d'}, d ≤ d' → FormedWithin d' t := by
  induction ht with
  | null => exact fun _ => .null
  | bool b => exact fun _ => .bool b
  | string hbody => exact fun _ => .string hbody
  | number negative ht => exact fun _ => .number negative ht
  | array _ hbody ih =>
    intro d' hd
    obtain ⟨d', rfl⟩ := Nat.exists_eq_succ_of_ne_zero (Nat.ne_of_gt (Nat.zero_lt_of_lt hd))
    exact .array (fun p hp => ih p hp (Nat.le_of_succ_le_succ hd)) hbody
  | object _ hbody ih =>
    intro d' hd
    obtain ⟨d', rfl⟩ := Nat.exists_eq_succ_of_ne_zero (Nat.ne_of_gt (Nat.zero_lt_of_lt hd))
    exact .object (fun m hm => ih m hm (Nat.le_of_succ_le_succ hd)) hbody

/-- No text is nested deeper than it is long. -/
theorem FormedWithin.of_length {d : Nat} {t : List Char} (ht : FormedWithin d t) : FormedWithin t.length t := by
  induction ht with
  | null => exact .null
  | bool b => exact .bool b
  | string hbody => exact .string hbody
  | number negative ht => exact .number negative ht
  | array _ hbody ih =>
    exact .array (fun p hp => (ih p hp).mono (hbody.length_le p hp)) hbody
  | object _ hbody ih =>
    exact .object (fun m hm => (ih m hm).mono (Nat.le_of_lt (hbody.length_lt m hm))) hbody

/-- A text that has a value is well formed, and nested as deep as the value. -/
theorem Denotes.formedWithin {t : List Char} {v : Json} (ht : Denotes t v) : FormedWithin v.depth t := by
  induction ht with
  | null => exact .null
  | bool b => exact .bool b
  | string hbody => exact .string hbody.loose
  | number negative ht => exact .number negative ht
  | @array items body _ hbody ih =>
    rw [depth]
    refine .array (List.forall_mem_map.2 fun i hi => (ih i hi).mono ?_) hbody
    exact depthOfItems_le.1 (Nat.le_refl _) _ (List.mem_map_of_mem hi)
  | @object ms body _ hbody ih =>
    rw [depth]
    have hloose := hbody.loose
    rw [List.map_map] at hloose
    refine .object (List.forall_mem_map.2 fun m hm => (ih m hm).mono ?_) hloose
    exact depthOfMembers_le.1 (Nat.le_refl _) _
      (List.mem_map_of_mem (f := fun m : String × List Char × Json => (m.1, m.2.2)) hm)

/-- **A text that has a value is well formed.** -/
theorem Denotes.wellFormed {t : List Char} {v : Json} (ht : Denotes t v) : WellFormed t :=
  ⟨v.depth, ht.formedWithin⟩

/-- A whole text: the text of a value, with any blanks around it. -/
def TextOf (v : Json) (text : List Char) : Prop :=
  ∃ b t b', Blanks b ∧ Blanks b' ∧ Denotes t v ∧ text = b ++ (t ++ b')

theorem Denotes.textOf {t : List Char} {v : Json} (ht : Denotes t v) : TextOf v t :=
  ⟨[], t, [], blanks_nil, blanks_nil, ht, by simp⟩

/-! ### What the writer makes of a value -/

theorem SpellsItems.exists_items {vs : List Json} :
    ∀ {pieces : List (List Char)}, SpellsItems vs pieces →
      ∃ items : List (List Char × Json), (items.map fun i => i.1) = pieces ∧ (items.map fun i => i.2) = vs ∧
        ∀ i ∈ items, Spells i.2 i.1 := by
  induction vs with
  | nil =>
    rintro pieces rfl
    exact ⟨[], rfl, rfl, by simp⟩
  | cons v vs ih =>
    rintro pieces ⟨p, ps, hp, hps, rfl⟩
    obtain ⟨items, rfl, rfl, hitems⟩ := ih hps
    exact ⟨(p, v) :: items, rfl, rfl, List.forall_mem_cons.2 ⟨hp, hitems⟩⟩

theorem SpellsMembers.exists_members {ms : List (String × Json)} :
    ∀ {pieces : List (String × List Char)}, SpellsMembers ms pieces →
      ∃ texts : List (String × List Char × Json), (texts.map fun m => (m.1, m.2.2)) = ms ∧
        (∀ m ∈ texts, Spells m.2.2 m.2.1) ∧
        List.Forall₂ (fun m p => MemberText (SpellsKey m.1) m.2 p) (texts.map fun m => (m.1, m.2.1))
          (pieces.map memberText) := by
  induction ms with
  | nil =>
    rintro pieces rfl
    exact ⟨[], rfl, by simp, .nil⟩
  | cons m ms ih =>
    obtain ⟨key, v⟩ := m
    rintro pieces ⟨b, b', p, ps, hb, hb', hp, hps, rfl⟩
    obtain ⟨texts, rfl, hspells, hpieces⟩ := ih hps
    refine ⟨(key, p, v) :: texts, rfl, List.forall_mem_cons.2 ⟨hp, hspells⟩, .cons ?_ hpieces⟩
    have hmember : MemberText (SpellsKey key) p _ := .intro (spellsChars_flatMap key.toList) hb hb'
    simpa [memberText, quote] using hmember

/-- A whole number that fits is told by its sign and its digits. -/
theorem denotes_intText {n : Int} (hn : Fits n) : Denotes (intText n) (int n) := by
  obtain ⟨hlow, hhigh⟩ := hn
  have hword : n.natAbs ≤ maxWord := by
    unfold maxWord
    omega
  have hread := readNumber_toDigits (decide (n < 0)) hword ends_nil
  rw [List.append_nil] at hread
  have hwhole : whole (decide (n < 0)) n.natAbs = .int n := by
    by_cases hneg : n < 0
    · have hfits : 0 < n.natAbs ∧ n.natAbs ≤ 0x8000000000000000 := by omega
      have habs : -(n.natAbs : Int) = n := by omega
      simp only [whole, hneg, decide_true, Bool.not_true, Bool.false_eq_true, if_false, if_pos hfits, habs]
    · have habs : (n.natAbs : Int) = n := by omega
      simp only [whole, hneg, decide_false, Bool.not_false, if_true, habs]
  have htext : intText n = signText (decide (n < 0)) ++ Nat.toDigits 10 n.natAbs := by
    by_cases hneg : n < 0 <;> simp [intText, signText, hneg]
  rw [hwhole] at hread
  rw [htext]
  exact .number _ (isNumber_toDigits _) hread

/-- **What the writer makes of a value has the value**, in any layout, if its numbers are whole and fit 64 bits. -/
theorem Spells.denotes {v : Json} : ∀ {t : List Char}, Spells v t → v.Exact → Denotes t v := by
  induction v using nested with
  | null =>
    rintro t rfl -
    exact .null
  | bool b =>
    rintro t rfl -
    exact .bool b
  | int n =>
    rintro t rfl hexact
    exact denotes_intText hexact
  | float x => exact fun _ hexact => absurd hexact id
  | string s =>
    rintro t rfl -
    exact .string (spellsChars_flatMap s.toList)
  | array vs ih =>
    rintro t ⟨pieces, body, hpieces, hbody, rfl⟩ hexact
    obtain ⟨items, rfl, rfl, hspells⟩ := hpieces.exists_items
    refine .array (fun i hi => ?_) hbody
    have hmem := List.mem_map_of_mem (f := fun i : List Char × Json => i.2) hi
    exact ih i.2 hmem (hspells i hi) (allNumbers_array.1 hexact i.2 hmem)
  | object ms ih =>
    rintro t ⟨pieces, body, hpieces, hbody, rfl⟩ hexact
    obtain ⟨texts, rfl, hspells, htexts⟩ := hpieces.exists_members
    refine .object (fun m hm => ?_) ⟨_, htexts, hbody⟩
    have hmem := List.mem_map_of_mem (f := fun m : String × List Char × Json => (m.1, m.2.2)) hm
    exact ih _ hmem (hspells m hm) (allNumbers_object.1 hexact _ hmem)

end ImagePush.Json
