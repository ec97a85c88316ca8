import ImagePush.Json.Reader
import ImagePush.Json.Writer
import ImagePush.Proofs.Results

/-!
# Tokens read back

The texts of a string, in all the ways to spell its characters, are exactly what is read as the string
(`readString_iff`), and those that have the form of a string are exactly what is passed over (`passString_iff`).
A whole number is read back from its digits, behind which the text must not go on with a number (`Ends`).
-/

namespace ImagePush.Json

/-! ### Strings -/

/-- One character of a string, in any of the ways to write it: as it is, by a letter behind a backslash, or by its
number, for which a character past the first 65536 takes two escapes. -/
inductive SpellsChar : Char → List Char → Prop where
  /-- As it is, if it needs no escape. -/
  | plain {c : Char} (hquote : c ≠ '"') (hslash : c ≠ '\\') (hcontrol : isControl c = false) : SpellsChar c [c]
  /-- By a letter behind a backslash. -/
  | letter {e c : Char} (he : shortEscape? e = some c) : SpellsChar c ['\\', e]
  /-- By its number in four digits, which is no surrogate. -/
  | number {a b c d : Char} {n : Nat} (hn : fourHex? a b c d = some n) (hlow : isLowSurrogate n = false)
      (hhigh : isHighSurrogate n = false) : SpellsChar (Char.ofNat n) ['\\', 'u', a, b, c, d]
  /-- By two surrogates, the high one first. -/
  | pair {a b c d a' b' c' d' : Char} {n m : Nat} (hn : fourHex? a b c d = some n)
      (hm : fourHex? a' b' c' d' = some m) (hhigh : isHighSurrogate n = true) (hlow : isLowSurrogate m = true) :
      SpellsChar (Char.ofNat ((n - 0xD800) * 0x400 + (m - 0xDC00) + 0x10000))
        ['\\', 'u', a, b, c, d, '\\', 'u', a', b', c', d']

/-- The characters of a string, and what may stand between its quotes. -/
inductive SpellsChars : List Char → List Char → Prop where
  | nil : SpellsChars [] []
  | cons {c : Char} {cs u t : List Char} (hc : SpellsChar c u) (ht : SpellsChars cs t) :
      SpellsChars (c :: cs) (u ++ t)

/-- What may stand between the quotes of a string of which only the form counts: surrogates need not be paired. -/
inductive LooseChars : List Char → Prop where
  | nil : LooseChars []
  | plain {c : Char} {t : List Char} (hquote : c ≠ '"') (hslash : c ≠ '\\') (hcontrol : isControl c = false)
      (ht : LooseChars t) : LooseChars (c :: t)
  | letter {e c : Char} {t : List Char} (he : shortEscape? e = some c) (ht : LooseChars t) :
      LooseChars ('\\' :: e :: t)
  | number {a b c d : Char} {n : Nat} {t : List Char} (hn : fourHex? a b c d = some n) (ht : LooseChars t) :
      LooseChars ('\\' :: 'u' :: a :: b :: c :: d :: t)

theorem SpellsChars.loose {cs t : List Char} (ht : SpellsChars cs t) : LooseChars t := by
  induction ht with
  | nil => exact .nil
  | cons hc _ ih =>
    cases hc with
    | plain hquote hslash hcontrol => exact .plain hquote hslash hcontrol ih
    | letter he => exact .letter he ih
    | number hn => exact .number hn ih
    | pair hn hm => exact .number hn (.number hm ih)

/-! ### Strings as they are written -/

theorem hexValue?_digitChar {n : Nat} (hn : n < 16) : hexValue? (Nat.digitChar n) = some n := by
  revert n
  decide

/-- The number of a control character in hexadecimal digits. -/
theorem fourHex?_control {c : Char} (hc : c.toNat < 0x20) :
    fourHex? '0' '0' (Nat.digitChar (c.toNat / 16)) (Nat.digitChar (c.toNat % 16)) = some c.toNat := by
  have hzero : hexValue? '0' = some 0 := by decide
  have hhigh := hexValue?_digitChar (n := c.toNat / 16) (by omega)
  have hlow := hexValue?_digitChar (n := c.toNat % 16) (by omega)
  have hvalue : ((0 * 16 + 0) * 16 + c.toNat / 16) * 16 + c.toNat % 16 = c.toNat := by omega
  simp only [fourHex?, hzero, hhigh, hlow, Option.bind_eq_bind, Option.bind_some, Option.pure_def, hvalue]

theorem spellsChar_escapeChar (c : Char) : SpellsChar c (escapeChar c) := by
  unfold escapeChar
  -- the characters with an escape of one letter
  iterate 7
    split
    · next hc => subst hc; exact .letter rfl
  split
  · next hcontrol =>
    have hspells := SpellsChar.number (fourHex?_control hcontrol) (by simp [isLowSurrogate]; omega)
      (by simp [isHighSurrogate]; omega)
    rwa [Char.ofNat_toNat] at hspells
  · next hquote hslash _ _ _ _ _ hcontrol => exact .plain hquote hslash (by simpa [isControl] using hcontrol)

theorem spellsChars_flatMap (cs : List Char) : SpellsChars cs (cs.flatMap escapeChar) := by
  induction cs with
  | nil => exact .nil
  | cons c cs ih => exact .cons (spellsChar_escapeChar c) ih

/-! ### Strings read back -/

theorem fourHex_append {a b c d : Char} {n : Nat} (hn : fourHex? a b c d = some n) (rest : List Char) :
    fourHex (a :: b :: c :: d :: rest) = .ok (n, rest) := by
  simp only [fourHex, hn]

/-- The letter of an escape is not the one of a number. -/
theorem shortEscape?_ne {e c : Char} (he : shortEscape? e = some c) : e ≠ 'u' := by
  rintro rfl
  cases he

/-- One character of a string is read back. -/
theorem stringFrom_spellsChar {c : Char} {u : List Char} (hc : SpellsChar c u) (fuel : Nat) (acc rest : List Char) :
    stringFrom (fuel + 1) acc (u ++ rest) = stringFrom fuel (c :: acc) rest := by
  have hescape : ∀ {s}, escape s = .ok (c, rest) →
      stringFrom (fuel + 1) acc ('\\' :: s) = stringFrom fuel (c :: acc) rest := by
    intro s hs
    simp [stringFrom, hs]
  cases hc with
  | plain hquote hslash hcontrol => simp [stringFrom, hquote, hslash, hcontrol]
  | letter he =>
    refine hescape ?_
    simp [escape, shortEscape?_ne he, he]
  | number hn hlow hhigh =>
    refine hescape ?_
    show unicodeEscape _ = _
    simp [unicodeEscape, fourHex_append hn, hlow, hhigh, bind, Except.bind, pure, Except.pure]
  | @pair _ _ _ _ _ _ _ _ n m hn hm hhigh hlow =>
    refine hescape ?_
    have hnotLow : isLowSurrogate n = false := by
      simp only [isHighSurrogate, Bool.and_eq_true, decide_eq_true_eq] at hhigh
      simp [isLowSurrogate]
      omega
    show unicodeEscape _ = _
    simp [unicodeEscape, fourHex_append hn, fourHex_append hm, hnotLow, hhigh, hlow, secondHalf, bind, Except.bind,
      pure, Except.pure]

theorem SpellsChars.length_le {cs t : List Char} (ht : SpellsChars cs t) : cs.length ≤ t.length := by
  induction ht with
  | nil => exact Nat.le_refl _
  | cons hc _ ih =>
    have hpos : ∀ {c u}, SpellsChar c u → 0 < u.length := by
      intro c u hc
      cases hc <;> simp
    have hu := hpos hc
    simp only [List.length_cons, List.length_append]
    omega

theorem stringFrom_spellsChars {cs t : List Char} (ht : SpellsChars cs t) :
    ∀ {fuel : Nat} (acc rest : List Char), cs.length < fuel →
      stringFrom fuel acc (t ++ '"' :: rest) = .ok (acc.reverse ++ cs, rest) := by
  induction ht with
  | nil =>
    intro fuel acc rest hfuel
    obtain ⟨fuel, rfl⟩ := Nat.exists_eq_succ_of_ne_zero (Nat.ne_of_gt hfuel)
    simp [stringFrom]
  | cons hc _ ih =>
    intro fuel acc rest hfuel
    obtain ⟨fuel, rfl⟩ := Nat.exists_eq_succ_of_ne_zero (Nat.ne_of_gt (Nat.zero_lt_of_lt hfuel))
    rw [List.append_assoc, stringFrom_spellsChar hc, ih]
    · simp
    · simpa using hfuel

/-- **A string is read back behind its opening quote**, however it is spelled. -/
theorem readString_spells {s : String} {t : List Char} (ht : SpellsChars s.toList t) (rest : List Char) :
    readString (t ++ '"' :: rest) = .ok (s, rest) := by
  have hlength := ht.length_le
  rw [readString, stringFrom_spellsChars ht]
  · simp [Except.map]
  · simp only [List.length_append, List.length_cons]
    omega

theorem readString_escaped (s : String) (rest : List Char) :
    readString (s.toList.flatMap escapeChar ++ '"' :: rest) = .ok (s, rest) :=
  readString_spells (spellsChars_flatMap s.toList) rest

/-! ### What is read as a string -/

theorem fourHex_eq_ok {s r : List Char} {n : Nat} (hread : fourHex s = .ok (n, r)) :
    ∃ a b c d, fourHex? a b c d = some n ∧ s = a :: b :: c :: d :: r := by
  have hbad : ∀ {s : List Char},
      (if byteLength s < 4 then faultHere .endInString [] else .error ⟨.invalidEscape, s, 4⟩ : Reading Nat) ≠
        .ok (n, r) := by
    intro s
    split <;> nofun
  unfold fourHex at hread
  simp only at hread
  split at hread
  · split at hread
    · next hn =>
      cases hread
      exact ⟨_, _, _, _, hn, rfl⟩
    · exact absurd hread hbad
  · exact absurd hread hbad

theorem secondHalf_eq_ok {e : Char} {s r : List Char} (hread : secondHalf e s = .ok r) : s = e :: r := by
  cases s with
  | nil => cases hread
  | cons c s =>
    rw [secondHalf] at hread
    split at hread
    · next hc =>
      cases hread
      rw [hc]
    · cases hread

/-- What is read behind a backslash spells the character. -/
theorem spellsChar_of_escape {s r : List Char} {c : Char} (hread : escape s = .ok (c, r)) :
    ∃ u, SpellsChar c ('\\' :: u) ∧ s = u ++ r := by
  cases s with
  | nil => cases hread
  | cons e s =>
    rw [escape] at hread
    split at hread
    · next hu =>
      obtain rfl : e = 'u' := hu
      unfold unicodeEscape at hread
      obtain ⟨⟨n, s₁⟩, hfirst, hunpaired⟩ := bind_eq_ok.1 hread
      obtain ⟨x₁, x₂, x₃, x₄, hn, rfl⟩ := fourHex_eq_ok hfirst
      simp only at hunpaired
      split at hunpaired
      · cases hunpaired
      split at hunpaired
      · next hhigh =>
        obtain ⟨s₂, hslash, hletter⟩ := bind_eq_ok.1 hunpaired
        obtain ⟨s₃, hletter, hsecond⟩ := bind_eq_ok.1 hletter
        obtain ⟨⟨m, s₄⟩, hsecond, hpaired⟩ := bind_eq_ok.1 hsecond
        obtain ⟨y₁, y₂, y₃, y₄, hm, rfl⟩ := fourHex_eq_ok hsecond
        obtain rfl := secondHalf_eq_ok hletter
        obtain rfl := secondHalf_eq_ok hslash
        simp only at hpaired
        split at hpaired
        · next hlow =>
          obtain ⟨rfl, rfl⟩ := Prod.mk.inj (Except.ok.inj hpaired)
          exact ⟨_, .pair hn hm hhigh hlow, rfl⟩
        · cases hpaired
      · next hlow hhigh =>
        cases hunpaired
        exact ⟨_, .number hn (by simpa using hlow) (by simpa using hhigh), rfl⟩
    · split at hread
      · next he =>
        cases hread
        exact ⟨[e], .letter he, rfl⟩
      · cases hread

theorem spellsChars_of_stringFrom {fuel : Nat} :
    ∀ {acc cs s r : List Char}, stringFrom fuel acc s = .ok (cs, r) →
      ∃ ds t, SpellsChars ds t ∧ cs = acc.reverse ++ ds ∧ s = t ++ '"' :: r := by
  induction fuel with
  | zero =>
    intro acc cs s r hread
    cases hread
  | succ fuel ih =>
    intro acc cs s r hread
    cases s with
    | nil => cases hread
    | cons c s =>
      rw [stringFrom] at hread
      split at hread
      · next hquote =>
        cases hread
        exact ⟨[], [], .nil, by simp, by rw [hquote]; rfl⟩
      · next hquote =>
        -- a character, however it is spelled, and the characters that follow it
        have hstep : ∀ {e : Char} {u s' : List Char}, SpellsChar e u → c :: s = u ++ s' →
            stringFrom fuel (e :: acc) s' = .ok (cs, r) →
            ∃ ds t, SpellsChars ds t ∧ cs = acc.reverse ++ ds ∧ c :: s = t ++ '"' :: r := by
          intro e u s' he hs hread
          obtain ⟨ds, t, ht, rfl, rfl⟩ := ih hread
          exact ⟨e :: ds, u ++ t, .cons he ht, by simp, by rw [hs, List.append_assoc]⟩
        split at hread
        · next hslash =>
          split at hread
          · next e s' hescape =>
            obtain ⟨u, he, rfl⟩ := spellsChar_of_escape hescape
            exact hstep he (by rw [hslash]; rfl) hread
          · cases hread
        · next hslash =>
          split at hread
          · cases hread
          · next hcontrol => exact hstep (.plain hquote hslash (by simpa using hcontrol)) rfl hread

/-- **What is read as a string are the texts that spell it**, up to its closing quote. -/
theorem readString_iff {s r : List Char} {x : String} :
    readString s = .ok (x, r) ↔ ∃ t, SpellsChars x.toList t ∧ s = t ++ '"' :: r := by
  constructor
  · intro hread
    obtain ⟨⟨cs, r'⟩, hchars, heq⟩ := map_eq_ok.1 hread
    cases heq
    obtain ⟨ds, t, ht, rfl, hs⟩ := spellsChars_of_stringFrom hchars
    exact ⟨t, by simpa using ht, hs⟩
  · rintro ⟨t, ht, rfl⟩
    exact readString_spells ht r

/-! ### Strings passed over -/

theorem passStringFrom_loose {t : List Char} (ht : LooseChars t) :
    ∀ {fuel : Nat} (rest : List Char), t.length < fuel → passStringFrom fuel (t ++ '"' :: rest) = .ok rest := by
  induction ht with
  | nil =>
    intro fuel rest hfuel
    obtain ⟨fuel, rfl⟩ := Nat.exists_eq_succ_of_ne_zero (Nat.ne_of_gt hfuel)
    simp [passStringFrom]
  | plain hquote hslash hcontrol _ ih =>
    intro fuel rest hfuel
    obtain ⟨fuel, rfl⟩ := Nat.exists_eq_succ_of_ne_zero (Nat.ne_of_gt (Nat.zero_lt_of_lt hfuel))
    simp only [List.length_cons] at hfuel
    simpa [passStringFrom, hquote, hslash, hcontrol] using ih rest (by omega)
  | letter he _ ih =>
    intro fuel rest hfuel
    obtain ⟨fuel, rfl⟩ := Nat.exists_eq_succ_of_ne_zero (Nat.ne_of_gt (Nat.zero_lt_of_lt hfuel))
    simp only [List.length_cons] at hfuel
    simpa [passStringFrom, passEscape, shortEscape?_ne he, he] using ih rest (by omega)
  | number hn _ ih =>
    intro fuel rest hfuel
    obtain ⟨fuel, rfl⟩ := Nat.exists_eq_succ_of_ne_zero (Nat.ne_of_gt (Nat.zero_lt_of_lt hfuel))
    simp only [List.length_cons] at hfuel
    simpa [passStringFrom, passEscape, fourHex_append hn, Except.map] using ih rest (by omega)

/-- A string is passed over behind its opening quote if it has the form of one. -/
theorem passString_loose {t : List Char} (ht : LooseChars t) (rest : List Char) :
    passString (t ++ '"' :: rest) = .ok rest := by
  refine passStringFrom_loose ht rest ?_
  simp only [List.length_append, List.length_cons]
  omega

theorem looseChars_of_passStringFrom {fuel : Nat} :
    ∀ {s r : List Char}, passStringFrom fuel s = .ok r → ∃ t, LooseChars t ∧ s = t ++ '"' :: r := by
  induction fuel with
  | zero =>
    intro s r hpass
    cases hpass
  | succ fuel ih =>
    intro s r hpass
    cases s with
    | nil => cases hpass
    | cons c s =>
      rw [passStringFrom] at hpass
      split at hpass
      · next hquote =>
        cases hpass
        exact ⟨[], .nil, by rw [hquote]; rfl⟩
      · next hquote =>
        split at hpass
        · next hslash =>
          split at hpass
          · next s' hescape =>
            obtain ⟨t, ht, rfl⟩ := ih hpass
            cases s with
            | nil => cases hescape
            | cons e s =>
              rw [passEscape] at hescape
              split at hescape
              · next hu =>
                obtain ⟨⟨n, s''⟩, hfour, heq⟩ := map_eq_ok.1 hescape
                cases heq
                obtain ⟨x₁, x₂, x₃, x₄, hn, rfl⟩ := fourHex_eq_ok hfour
                exact ⟨_, .number hn ht, by rw [hslash, hu]; rfl⟩
              · split at hescape
                · next he =>
                  cases hescape
                  exact ⟨_, .letter he ht, by rw [hslash]; rfl⟩
                · cases hescape
          · cases hpass
        · next hslash =>
          split at hpass
          · cases hpass
          · next hcontrol =>
            obtain ⟨t, ht, rfl⟩ := ih hpass
            exact ⟨_, .plain hquote hslash (by simpa using hcontrol) ht, rfl⟩

/-- **What is passed over as a string are the texts that have its form**, up to the closing quote. -/
theorem passString_iff {s r : List Char} :
    passString s = .ok r ↔ ∃ t, LooseChars t ∧ s = t ++ '"' :: r := by
  constructor
  · exact looseChars_of_passStringFrom
  · rintro ⟨t, ht, rfl⟩
    exact passString_loose ht r

/-! ### Words -/

theorem word_append (letters rest : List Char) : word letters (letters ++ rest) = .ok rest := by
  induction letters with
  | nil => rfl
  | cons e letters ih => simp [word, ih]

theorem word_iff {letters s r : List Char} : word letters s = .ok r ↔ s = letters ++ r := by
  constructor
  · intro hword
    induction letters generalizing s with
    | nil =>
      cases hword
      rfl
    | cons e letters ih =>
      cases s with
      | nil => cases hword
      | cons c s =>
        rw [word] at hword
        split at hword
        · next hc => rw [hc, ih hword, List.cons_append]
        · cases hword
  · rintro rfl
    exact word_append letters r

/-! ### Whole numbers -/

/-- A text that does not go on with a number. -/
def Ends (rest : List Char) : Prop :=
  ∀ c ∈ rest.head?, c.isDigit = false ∧ c ≠ '.' ∧ c ≠ 'e' ∧ c ≠ 'E'

theorem ends_nil : Ends [] := by simp [Ends]

theorem ends_cons {c : Char} (rest : List Char) (hdigit : c.isDigit = false) (hpoint : c ≠ '.')
    (he : c ≠ 'e') (hE : c ≠ 'E') : Ends (c :: rest) := by
  intro d hd
  obtain rfl : c = d := by simpa using hd
  exact ⟨hdigit, hpoint, he, hE⟩

theorem Ends.startsWithDigit {rest : List Char} (hends : Ends rest) : startsWithDigit rest = false := by
  cases rest with
  | nil => rfl
  | cons c rest => exact (hends c rfl).1

/-- Digits within the limit are gathered to their value. -/
theorem gather_digits {limit : Nat} (digits : List Char) :
    ∀ {n : Nat} {rest : List Char}, (∀ c ∈ digits, c.isDigit = true) → Nat.ofDigitChars 10 digits n ≤ limit →
      startsWithDigit rest = false →
      gather limit n (digits ++ rest) = (Nat.ofDigitChars 10 digits n, rest) := by
  induction digits with
  | nil =>
    intro n rest _ _ hrest
    cases rest with
    | nil => rfl
    | cons c rest =>
      have hc : c.isDigit = false := hrest
      simp [gather, hc]
  | cons d digits ih =>
    intro n rest hdigits hlimit hrest
    have hd : d.isDigit = true := hdigits d (by simp)
    have hvalue : n * 10 + digitValue d = 10 * n + (d.toNat - '0'.toNat) := by
      rw [digitValue, Nat.mul_comm]
    rw [Nat.ofDigitChars_cons, ← hvalue] at hlimit
    have hfits : n * 10 + digitValue d ≤ limit := by
      refine Nat.le_trans ?_ hlimit
      rw [Nat.ofDigitChars_eq_ofDigitChars_zero]
      have hpos : 0 < 10 ^ digits.length := Nat.pow_pos (by omega)
      exact Nat.le_trans (Nat.le_mul_of_pos_left _ hpos) (Nat.le_add_right _ _)
    rw [List.cons_append, gather, if_pos ⟨hd, hfits⟩, ih (fun c hc => hdigits c (by simp [hc])) hlimit hrest,
      Nat.ofDigitChars_cons, ← hvalue]

/-- The digits of a positive number do not begin with a zero. -/
theorem toDigits_eq_cons {n : Nat} (hn : 0 < n) :
    ∃ d digits, Nat.toDigits 10 n = d :: digits ∧ d.isDigit = true ∧ d ≠ '0' := by
  induction n using Nat.strongRecOn with
  | ind n ih =>
    by_cases hsmall : n < 10
    · refine ⟨n.digitChar, [], Nat.toDigits_of_lt_base hsmall, ?_, ?_⟩
      · simpa [Nat.isDigit_digitChar] using hsmall
      · simp only [ne_eq, Nat.digitChar_eq_zero]
        omega
    · obtain ⟨d, digits, hdigits, hd, hne⟩ := ih (n / 10) (by omega) (by omega)
      refine ⟨d, digits ++ [(n % 10).digitChar], ?_, hd, hne⟩
      rw [Nat.toDigits_of_base_le (by omega) (by omega), hdigits, List.cons_append]

/-- A number that ends behind its whole part. -/
theorem afterWhole_ends (negative : Bool) (n : Nat) {rest : List Char} (hends : Ends rest) :
    afterWhole negative n rest = .ok (whole negative n, rest) := by
  cases rest with
  | nil => rfl
  | cons c rest =>
    obtain ⟨hdigit, hpoint, he, hE⟩ := hends c rfl
    have htaken : ((c :: rest).takeWhile Char.isDigit).length = 0 := by simp [hdigit]
    have hdropped : dropDigits (c :: rest) = c :: rest := by simp [dropDigits, hdigit]
    simp only [afterWhole, htaken, hdropped]
    split <;> simp_all

/-- A whole number that fits a 64-bit word is read back from its digits. -/
theorem readNumber_toDigits (negative : Bool) {n : Nat} (hn : n ≤ maxWord) {rest : List Char}
    (hends : Ends rest) :
    readNumber negative (Nat.toDigits 10 n ++ rest) = .ok (whole negative n, rest) := by
  have hstart := hends.startsWithDigit
  by_cases hzero : n = 0
  · subst hzero
    have hdigits : Nat.toDigits 10 0 = ['0'] := by decide
    rw [hdigits, List.singleton_append, readNumber, if_pos rfl, if_neg (by simp [hstart])]
    exact afterWhole_ends negative 0 hends
  · obtain ⟨d, digits, hdigits, hd, hne⟩ := toDigits_eq_cons (Nat.pos_of_ne_zero hzero)
    have hall : ∀ c ∈ Nat.toDigits 10 n, c.isDigit = true := fun c hc =>
      Nat.isDigit_of_mem_toDigits (by omega) (by omega) hc
    have hgather : gather maxWord 0 (Nat.toDigits 10 n ++ rest) = (n, rest) := by
      rw [gather_digits _ hall _ hstart, Nat.ofDigitChars_ten_toDigits]
      rw [Nat.ofDigitChars_ten_toDigits]
      exact hn
    rw [hdigits, List.cons_append] at hgather ⊢
    rw [readNumber, if_neg hne, if_pos hd, hgather]
    exact afterWhole_ends negative n hends

end ImagePush.Json
