import ImagePush.Proofs.Json.Basic
import ImagePush.Proofs.Json.Layout
import ImagePush.Proofs.Json.Numbers

/-!
# Reading values

What the first character of a text makes of a value, for the texts that the writer gives scalars and, the
other way, for every text that is read (`readAs_of_readValue`).
-/

namespace ImagePush.Json

/-! ### What the first character decides -/

theorem readValue_null (depth : Nat) (rest : List Char) :
    readValue depth (nullText ++ rest) = .ok (null, rest) := by
  rw [readValue]
  rfl

theorem readValue_bool (depth : Nat) (b : Bool) (rest : List Char) :
    readValue depth (boolText b ++ rest) = .ok (bool b, rest) := by
  rw [readValue]
  cases b <;> rfl

theorem readValue_string (depth : Nat) {s : String} {t : List Char} (ht : SpellsChars s.toList t)
    (rest : List Char) : readValue depth ('"' :: (t ++ '"' :: rest)) = .ok (string s, rest) := by
  rw [readValue]
  show (readString _).map _ = _
  rw [readString_spells ht]
  rfl

theorem readValue_quote (depth : Nat) (s : String) (rest : List Char) :
    readValue depth (quote s ++ rest) = .ok (string s, rest) := by
  have hquote : quote s ++ rest = '"' :: (s.toList.flatMap escapeChar ++ '"' :: rest) := by simp [quote]
  rw [hquote, readValue_string depth (spellsChars_flatMap s.toList)]

theorem readValue_minus (depth : Nat) (s : List Char) : readValue depth ('-' :: s) = readNumber true s := by
  rw [readValue]
  rfl

/-- A digit is no other character that decides what comes. -/
theorem isDigit_ne {c : Char} (hc : c.isDigit = true) (d : Char) (hd : d.isDigit = false) : c ≠ d := by
  rintro rfl
  rw [hc] at hd
  cases hd

theorem isBlank_of_isDigit {c : Char} (hc : c.isDigit = true) : isBlank c = false := by
  have hne := isDigit_ne hc
  simp [isBlank, hne ' ' (by decide), hne '\t' (by decide), hne '\n' (by decide), hne '\r' (by decide)]

theorem readValue_digit (depth : Nat) {c : Char} (hc : c.isDigit = true) (s : List Char) :
    readValue depth (c :: s) = readNumber false (c :: s) := by
  have hne := isDigit_ne hc
  rw [readValue, skipBlanks_cons (isBlank_of_isDigit hc)]
  simp only [hne 'n' (by decide), hne 't' (by decide), hne 'f' (by decide), hne '"' (by decide),
    hne '-' (by decide), hc, ↓reduceIte]

theorem readValue_array (depth : Nat) (s : List Char) :
    readValue (depth + 1) ('[' :: s) =
      (items reading (readValue depth) s).map fun (vs, s) => (array vs, s) := by
  rw [readValue]
  rfl

/-- Reads what stands behind a key, and puts the pair in front of those so far. -/
def pairWith {α : Type} (read : List Char → Reading α) (acc : List (String × α)) (key : String)
    (s : List Char) : Reading (List (String × α)) :=
  match colon s with
  | .error f => .error f
  | .ok s => (read s).map fun (v, s) => ((key, v) :: acc, s)

theorem readValue_object (depth : Nat) (s : List Char) :
    readValue (depth + 1) ('\x7b' :: s) =
      (members reading (pairWith (readValue depth)) [] s).map fun (ms, s) => (object ms.reverse, s) := by
  rw [readValue]
  rfl

theorem readValue_blanks {b : List Char} (hb : Blanks b) (depth : Nat) (s : List Char) :
    readValue depth (b ++ s) = readValue depth s := by
  rw [readValue, skipBlanks_append hb, ← readValue]

/-- What a value that may nest some deep is read as, up to the input that is left. -/
inductive ReadAs (r : List Char) : Nat → Json → Prop where
  | null {depth : Nat} : ReadAs r depth null
  | bool {depth : Nat} (b : Bool) : ReadAs r depth (bool b)
  | string {depth : Nat} (t : String) : ReadAs r depth (string t)
  | number {depth : Nat} {v : Json} {negative : Bool} {s : List Char}
      (hnumber : readNumber negative s = .ok (v, r)) : ReadAs r depth v
  | array {depth : Nat} {vs : List Json} {s : List Char}
      (hitems : items reading (readValue depth) s = .ok (vs, r)) : ReadAs r (depth + 1) (array vs)
  | object {depth : Nat} {ms : List (String × Json)} {s : List Char}
      (hmembers : members reading (pairWith (readValue depth)) [] s = .ok (ms, r)) :
      ReadAs r (depth + 1) (object ms.reverse)

theorem readAs_of_readValue {depth : Nat} {s r : List Char} {v : Json}
    (hread : readValue depth s = .ok (v, r)) : ReadAs r depth v := by
  have hword : ∀ {letters s : List Char} {w : Json}, (word letters s).map (w, ·) = .ok (v, r) → w = v := by
    intro letters s w hmap
    obtain ⟨s', -, heq⟩ := map_eq_ok.1 hmap
    cases heq
    rfl
  rw [readValue] at hread
  -- one case for each first character, in the order in which they are tried
  split at hread
  · cases hread
  split at hread
  · obtain rfl := hword hread
    exact .null
  split at hread
  · obtain rfl := hword hread
    exact .bool true
  split at hread
  · obtain rfl := hword hread
    exact .bool false
  split at hread
  · obtain ⟨⟨t, s'⟩, -, heq⟩ := map_eq_ok.1 hread
    cases heq
    exact .string t
  split at hread
  · exact .number hread
  split at hread
  · exact .number hread
  split at hread
  · cases depth with
    | zero => cases hread
    | succ depth =>
      obtain ⟨⟨vs, s'⟩, hitems, heq⟩ := map_eq_ok.1 hread
      cases heq
      exact .array hitems
  split at hread
  · cases depth with
    | zero => cases hread
    | succ depth =>
      obtain ⟨⟨ms, s'⟩, hmembers, heq⟩ := map_eq_ok.1 hread
      cases heq
      exact .object hmembers
  · cases hread

/-! ### Numbers and doubles -/

/-- The first character of a text tells it from the end of an array. -/
theorem beginsItem_numeral {t : List Char} (ht : Numeral t) (negative : Bool) :
    BeginsItem (if negative then '-' :: t else t) := by
  cases negative with
  | true => exact ⟨'-', t, rfl, by decide, by decide⟩
  | false =>
    obtain ⟨ds, fs, es, hds, -, -, rfl⟩ := ht
    obtain ⟨d, ds, rfl⟩ := List.exists_cons_of_ne_nil hds.ne_nil
    have hd : d.isDigit = true := hds.all d List.mem_cons_self
    exact ⟨d, _, rfl, isBlank_of_isDigit hd, isDigit_ne hd ']' (by decide)⟩

/-- A number that is read from a text in its shape is read to the end of the text. -/
theorem eq_of_readValue_numeral {t : List Char} (ht : Numeral t) (negative : Bool) {depth : Nat}
    {rest s : List Char} {v : Json} (hends : Ends rest)
    (hread : readValue depth ((if negative then '-' :: t else t) ++ rest) = .ok (v, s)) : s = rest := by
  have hnumber : readNumber negative (t ++ rest) = .ok (v, s) := by
    cases negative with
    | true => exact readValue_minus depth _ ▸ hread
    | false =>
      obtain ⟨ds, fs, es, hds, -, -, rfl⟩ := ht
      obtain ⟨d, ds, rfl⟩ := List.exists_cons_of_ne_nil hds.ne_nil
      exact readValue_digit depth (hds.all d List.mem_cons_self) _ ▸ hread
  exact eq_of_passNumber_numeral ht hends (passNumber_of_readNumber hnumber)

/-! ### Whole texts -/

/-- A whole text is read if only blanks follow what is read from it. -/
theorem ofText_eq_ok {α : Type} {read : List Char → Reading α} {text : List Char} {v : α} :
    ofText read text = .ok v ↔ ∃ s, read text = .ok (v, s) ∧ skipBlanks s = [] := by
  rw [ofText]
  cases hread : read text with
  | error f => simp [Except.mapError]
  | ok result =>
    obtain ⟨w, s⟩ := result
    cases hs : skipBlanks s with
    | nil => simp [Except.mapError, hs]
    | cons c r => simp [Except.mapError, faultNext, hs]

end ImagePush.Json
