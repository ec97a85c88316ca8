import ImagePush.Proofs.Json.Tokens

/-!
# Where a number ends

A number that is read ends where it would end if it were passed over (`passNumber_of_readNumber`). A text in
the shape of a number (`Numeral`), as every number is written, can only be passed over as a whole.
-/

namespace ImagePush.Json

/-! ### Digits -/

theorem dropDigits_of_not_startsWithDigit {s : List Char} (hs : startsWithDigit s = false) :
    dropDigits s = s := by
  cases s with
  | nil => rfl
  | cons c s =>
    have hc : c.isDigit = false := hs
    simp [dropDigits, hc]

theorem dropDigits_append {digits : List Char} (hdigits : ∀ c ∈ digits, c.isDigit = true) {s : List Char}
    (hs : startsWithDigit s = false) : dropDigits (digits ++ s) = s := by
  rw [dropDigits, List.dropWhile_append_of_pos hdigits]
  exact dropDigits_of_not_startsWithDigit hs

/-- The digits that do not fit are the last ones. -/
theorem dropDigits_gather (limit n : Nat) (s : List Char) :
    dropDigits (gather limit n s).2 = dropDigits s := by
  induction s generalizing n with
  | nil => rfl
  | cons c s ih =>
    rw [gather]
    split
    · next hc =>
      rw [ih, dropDigits, dropDigits, List.dropWhile_cons_of_pos hc.1]
    · rfl

/-- Nothing is gathered only if there are no digits or the word is full. -/
theorem startsWithDigit_of_length_gather {limit n : Nat} {s : List Char}
    (hs : s.length - (gather limit n s).2.length ≠ 0) : startsWithDigit s = true := by
  cases s with
  | nil => simp [gather] at hs
  | cons c s =>
    by_cases hc : c.isDigit = true
    · exact hc
    · rw [gather, if_neg (fun h => hc h.1)] at hs
      simp at hs

/-! ### Reading and passing over -/

theorem eq_of_readFloat {negative : Bool} {significand : Nat} {exponent : Int} {s r : List Char} {v : Json}
    (hread : readFloat negative significand exponent s = .ok (v, r)) : r = s := by
  rw [readFloat] at hread
  split at hread
  · cases hread
    rfl
  · cases hread

/-- Reads the digits of an exponent behind its sign. -/
def exponentDigits (negative : Bool) (significand : Nat) (base : Int) (down : Bool) (s : List Char) :
    Reading Json :=
  match s with
  | [] => faultHere .endInValue []
  | c :: _ =>
    if !c.isDigit then faultNext .invalidNumber s
    else
      let (n, rest) := gather maxExponent 0 s
      if startsWithDigit rest then
        if significand ≠ 0 ∧ !down then faultNext .numberOutOfRange rest
        else .ok (.float (signed negative ⟨0⟩), dropDigits rest)
      else readFloat negative significand (if down then base - n else base + n) rest

/-- Passes over the digits of an exponent behind its sign. -/
def passExponentDigits (s : List Char) : Except Fault (List Char) :=
  match s with
  | [] => faultHere .invalidNumber []
  | c :: _ => if c.isDigit then .ok (dropDigits s) else faultNext .invalidNumber s

/-- Reading and passing over take the same sign off an exponent. -/
theorem exists_exponentDigits (negative : Bool) (significand : Nat) (base : Int) (s : List Char) :
    ∃ down u, exponentPart negative significand base s = exponentDigits negative significand base down u ∧
      passExponent s = passExponentDigits u := by
  cases s with
  | nil => exact ⟨false, [], rfl, rfl⟩
  | cons c s =>
    by_cases hplus : c = '+'
    · subst hplus
      exact ⟨false, s, rfl, rfl⟩
    · by_cases hminus : c = '-'
      · subst hminus
        exact ⟨true, s, rfl, rfl⟩
      · refine ⟨false, c :: s, ?_, ?_⟩
        · simp [exponentPart, exponentDigits, hplus, hminus]
        · simp [passExponent, passExponentDigits, hplus, hminus]

theorem passExponent_of_exponentPart {negative : Bool} {significand : Nat} {base : Int} {s r : List Char}
    {v : Json} (hread : exponentPart negative significand base s = .ok (v, r)) : passExponent s = .ok r := by
  obtain ⟨down, u, hreads, hpasses⟩ := exists_exponentDigits negative significand base s
  rw [hreads] at hread
  rw [hpasses]
  unfold exponentDigits at hread
  unfold passExponentDigits
  cases u with
  | nil => cases hread
  | cons c u =>
    have hdropped := dropDigits_gather maxExponent 0 (c :: u)
    by_cases hc : c.isDigit = true
    · simp only [hc, Bool.not_true, Bool.false_eq_true, ↓reduceIte] at hread ⊢
      split at hread
      · split at hread
        · cases hread
        · cases hread
          rw [hdropped]
      · next hrest =>
        rw [eq_of_readFloat hread, ← hdropped, dropDigits_of_not_startsWithDigit (by simpa using hrest)]
    · simp only [Bool.not_eq_true] at hc
      simp only [hc, Bool.not_false, ↓reduceIte] at hread
      cases hread

theorem passExponentOrEnd_of_exponentOrEnd {negative : Bool} {significand : Nat} {base : Int}
    {s r : List Char} {v : Json} (hread : exponentOrEnd negative significand base s = .ok (v, r)) :
    passExponentOrEnd s = .ok r := by
  cases s with
  | nil =>
    rw [exponentOrEnd] at hread
    rw [eq_of_readFloat hread]
    rfl
  | cons c s =>
    rw [exponentOrEnd] at hread
    split at hread
    · next hc =>
      rcases hc with rfl | rfl <;> exact passExponent_of_exponentPart hread
    · next hc =>
      rw [eq_of_readFloat hread]
      unfold passExponentOrEnd
      split <;> simp_all

/-- The digits behind the point, and what may follow them. -/
theorem passExponentOrEnd_of_fraction {negative : Bool} {significand : Nat} {base : Int} {s r : List Char}
    {v : Json} (hread : fraction negative significand base s = .ok (v, r)) :
    startsWithDigit s = true ∧ passExponentOrEnd (dropDigits s) = .ok r := by
  have hdropped := dropDigits_gather maxWord significand s
  have hstarts := @startsWithDigit_of_length_gather maxWord significand s
  rw [fraction] at hread
  generalize hgather : gather maxWord significand s = gathered at hread hdropped hstarts
  obtain ⟨n, rest⟩ := gathered
  simp only at hread hdropped hstarts
  split at hread
  · next hrest =>
    rw [hdropped] at hread
    refine ⟨?_, passExponentOrEnd_of_exponentOrEnd hread⟩
    -- digits that are left belong to the text
    cases s with
    | nil =>
      rw [gather] at hgather
      cases hgather
      cases hrest
    | cons c s =>
      rw [gather] at hgather
      split at hgather
      · next hc => exact hc.1
      · cases hgather
        exact hrest
  · next hrest =>
    rw [dropDigits_of_not_startsWithDigit (by simpa using hrest)] at hdropped
    split at hread
    · split at hread <;> cases hread
    · next hused =>
      refine ⟨hstarts hused, ?_⟩
      rw [← hdropped]
      exact passExponentOrEnd_of_exponentOrEnd hread

theorem passAfterWhole_of_afterWhole {negative : Bool} {n : Nat} {s r : List Char} {v : Json}
    (hread : afterWhole negative n s = .ok (v, r)) : passAfterWhole (dropDigits s) = .ok r := by
  unfold afterWhole at hread
  simp only at hread
  split at hread
  · next u hu =>
    obtain ⟨hstarts, hpass⟩ := passExponentOrEnd_of_fraction hread
    rw [hu, passAfterWhole, if_pos hstarts]
    exact hpass
  · next u hu =>
    rw [hu]
    exact passExponent_of_exponentPart hread
  · next u hu =>
    rw [hu]
    exact passExponent_of_exponentPart hread
  · next hpoint he hE =>
    have hr : r = dropDigits s := by
      split at hread
      · cases hread
        rfl
      · exact eq_of_readFloat hread
    rw [hr]
    unfold passAfterWhole
    split
    · next u hu => exact absurd hu (hpoint u)
    · unfold passExponentOrEnd
      split <;> simp_all

/-- **A number that is read ends where it would end if it were passed over.** -/
theorem passNumber_of_readNumber {negative : Bool} {s r : List Char} {v : Json}
    (hread : readNumber negative s = .ok (v, r)) : passNumber s = .ok r := by
  cases s with
  | nil => cases hread
  | cons c s =>
    rw [readNumber] at hread
    rw [passNumber]
    split at hread
    · next hc =>
      rw [if_pos hc]
      split at hread
      · cases hread
      · next hs =>
        have hpass := passAfterWhole_of_afterWhole hread
        rw [if_neg hs]
        rwa [dropDigits_of_not_startsWithDigit (by simpa using hs)] at hpass
    · next hc =>
      rw [if_neg hc]
      split at hread
      · next hdigit =>
        have hdropped := dropDigits_gather maxWord 0 (c :: s)
        rw [if_pos hdigit, show dropDigits s = dropDigits (c :: s) by simp [dropDigits, hdigit], ← hdropped]
        exact passAfterWhole_of_afterWhole hread
      · cases hread

/-! ### The shape of numbers -/

/-- Decimal digits, at least one. -/
structure Digits (ds : List Char) : Prop where
  ne_nil : ds ≠ []
  all : ∀ c ∈ ds, c.isDigit = true

/-- The point and the digits behind it, or nothing. -/
inductive Fraction : List Char → Prop
  | none : Fraction []
  | some {ds : List Char} (hds : Digits ds) : Fraction ('.' :: ds)

/-- The exponent with its letter and its sign, or nothing. -/
inductive Exponent : List Char → Prop
  | none : Exponent []
  | some {letter : Char} {sign ds : List Char} (hletter : letter = 'e' ∨ letter = 'E')
      (hsign : sign = [] ∨ sign = ['+'] ∨ sign = ['-']) (hds : Digits ds) :
      Exponent (letter :: (sign ++ ds))

/-- The shape of a number behind its sign. -/
def Numeral (t : List Char) : Prop :=
  ∃ ds fs es, Digits ds ∧ Fraction fs ∧ Exponent es ∧ t = ds ++ (fs ++ es)

theorem Digits.startsWithDigit {ds : List Char} (hds : Digits ds) (s : List Char) :
    startsWithDigit (ds ++ s) = true := by
  obtain ⟨d, ds, rfl⟩ := List.exists_cons_of_ne_nil hds.ne_nil
  exact hds.all d List.mem_cons_self

theorem Exponent.startsWithDigit {es : List Char} (hes : Exponent es) {rest : List Char} (hends : Ends rest) :
    startsWithDigit (es ++ rest) = false := by
  cases hes with
  | none => exact hends.startsWithDigit
  | some hletter => rcases hletter with rfl | rfl <;> rfl

theorem passExponent_digits {ds : List Char} (hds : Digits ds) {rest : List Char} (hends : Ends rest)
    {sign : List Char} (hsign : sign = [] ∨ sign = ['+'] ∨ sign = ['-']) :
    passExponent (sign ++ (ds ++ rest)) = .ok rest := by
  have hdropped := dropDigits_append hds.all hends.startsWithDigit
  have hpass : passExponentDigits (ds ++ rest) = .ok rest := by
    obtain ⟨d, ds, rfl⟩ := List.exists_cons_of_ne_nil hds.ne_nil
    have hd : d.isDigit = true := hds.all d List.mem_cons_self
    rw [List.cons_append] at hdropped ⊢
    unfold passExponentDigits
    simp only [hd, ↓reduceIte, hdropped]
  rcases hsign with rfl | rfl | rfl
  · obtain ⟨d, ds, rfl⟩ := List.exists_cons_of_ne_nil hds.ne_nil
    have hd : d.isDigit = true := hds.all d List.mem_cons_self
    have hplus : d ≠ '+' := by rintro rfl; exact absurd hd (by decide)
    have hminus : d ≠ '-' := by rintro rfl; exact absurd hd (by decide)
    rw [← hpass]
    simp [passExponent, passExponentDigits, hplus, hminus]
  · exact hpass
  · exact hpass

theorem passExponentOrEnd_exponent {es : List Char} (hes : Exponent es) {rest : List Char}
    (hends : Ends rest) : passExponentOrEnd (es ++ rest) = .ok rest := by
  cases hes with
  | none =>
    cases rest with
    | nil => rfl
    | cons c rest =>
      obtain ⟨-, -, he, hE⟩ := hends c rfl
      rw [List.nil_append]
      unfold passExponentOrEnd
      split <;> simp_all
  | some hletter hsign hds =>
    rw [List.cons_append, List.append_assoc]
    rcases hletter with rfl | rfl <;> exact passExponent_digits hds hends hsign

theorem passAfterWhole_fraction {fs es : List Char} (hfs : Fraction fs) (hes : Exponent es)
    {rest : List Char} (hends : Ends rest) : passAfterWhole (fs ++ (es ++ rest)) = .ok rest := by
  have hpass := passExponentOrEnd_exponent hes hends
  cases hfs with
  | none =>
    rw [List.nil_append, ← hpass]
    unfold passAfterWhole
    split
    · next u hu =>
      -- neither an exponent nor the text behind the number begins with a point
      cases hes with
      | none => exact absurd rfl ((hends '.' (by rw [← List.nil_append rest, hu]; rfl)).2.1)
      | some hletter => rcases hletter with rfl | rfl <;> cases hu
    · rfl
  | some hds =>
    rw [List.cons_append, passAfterWhole, if_pos (hds.startsWithDigit _),
      dropDigits_append hds.all (hes.startsWithDigit hends)]
    exact hpass

/-- A number that can be passed over is passed over as a whole. -/
theorem eq_of_passNumber_numeral {t : List Char} (ht : Numeral t) {rest r : List Char} (hends : Ends rest)
    (hpass : passNumber (t ++ rest) = .ok r) : r = rest := by
  obtain ⟨ds, fs, es, hds, hfs, hes, rfl⟩ := ht
  have hstop : startsWithDigit (fs ++ (es ++ rest)) = false := by
    cases hfs with
    | none => exact hes.startsWithDigit hends
    | some => rfl
  have hafter := passAfterWhole_fraction hfs hes hends
  have hdropped := dropDigits_append hds.all hstop
  obtain ⟨d, ds, rfl⟩ := List.exists_cons_of_ne_nil hds.ne_nil
  have hd : d.isDigit = true := hds.all d List.mem_cons_self
  rw [List.append_assoc, List.append_assoc, List.cons_append, passNumber] at hpass
  rw [dropDigits, List.cons_append, List.dropWhile_cons_of_pos hd] at hdropped
  split at hpass
  · split at hpass
    · cases hpass
    · next hs =>
      have hnone := dropDigits_of_not_startsWithDigit (Bool.not_eq_true _ ▸ hs)
      rw [← hnone, dropDigits, hdropped, hafter] at hpass
      cases hpass
      rfl
  · rw [dropDigits, hdropped, hafter] at hpass
    cases hpass
    rfl

/-! ### Numbers as they are written -/

theorem digits_toDigits (n : Nat) : Digits (Nat.toDigits 10 n) :=
  ⟨Nat.toDigits_ne_nil, fun _ hc => Nat.isDigit_of_mem_toDigits (by omega) (by omega) hc⟩

theorem numeral_toDigits (n : Nat) : Numeral (Nat.toDigits 10 n) :=
  ⟨Nat.toDigits 10 n, [], [], digits_toDigits n, .none, .none, by simp⟩

theorem numeral_positional {ds : List Char} (hds : Digits ds) (exponent : Int) :
    Numeral (NumberNotation.positional ds exponent) := by
  have hzeros : ∀ n, ∀ c ∈ List.replicate n '0', c.isDigit = true := fun n c hc => by
    rw [List.eq_of_mem_replicate hc]
    rfl
  unfold NumberNotation.positional
  split
  · refine ⟨['0'], '.' :: (List.replicate (-exponent - 1).toNat '0' ++ ds), [], ⟨by simp, by simp⟩,
      .some ⟨by simp [hds.ne_nil], ?_⟩, .none, by simp⟩
    intro c hc
    rcases List.mem_append.1 hc with hc | hc
    · exact hzeros _ c hc
    · exact hds.all c hc
  · refine ⟨ds.take (exponent.toNat + 1) ++ List.replicate (exponent.toNat + 1 - ds.length) '0',
      '.' :: (if (ds.drop (exponent.toNat + 1)).isEmpty then ['0'] else ds.drop (exponent.toNat + 1)), [],
      ⟨by simp [hds.ne_nil], ?_⟩, .some ⟨?_, ?_⟩, .none, by simp⟩
    · intro c hc
      rcases List.mem_append.1 hc with hc | hc
      · exact hds.all c (List.mem_of_mem_take hc)
      · exact hzeros _ c hc
    · split <;> simp_all
    · intro c hc
      split at hc
      · rw [List.mem_singleton.1 hc]
        rfl
      · exact hds.all c (List.mem_of_mem_drop hc)

theorem numeral_scientific {ds : List Char} (hds : Digits ds) (plus : Bool) (exponent : Int) :
    Numeral (NumberNotation.scientific plus ds exponent) := by
  refine ⟨ds.take 1, if (ds.drop 1).isEmpty then [] else '.' :: ds.drop 1,
    'e' :: ((if exponent < 0 then ['-'] else if plus then ['+'] else []) ++ Nat.toDigits 10 exponent.natAbs),
    ⟨by simp [hds.ne_nil], fun c hc => hds.all c (List.mem_of_mem_take hc)⟩, ?_,
    .some (.inl rfl) ?_ (digits_toDigits _), by simp [NumberNotation.scientific]⟩
  · split
    · exact .none
    · next hne =>
      refine .some ⟨?_, fun c hc => hds.all c (List.mem_of_mem_drop hc)⟩
      simpa using hne
  · by_cases hneg : exponent < 0
    · simp [hneg]
    · cases plus <;> simp [hneg]

theorem numeral_magnitude (n : NumberNotation) (x : Double) : Numeral (n.magnitude x) := by
  unfold NumberNotation.magnitude
  split
  · exact ⟨['0'], ['.', '0'], [], ⟨by simp, by simp⟩, .some ⟨by simp, by simp⟩, .none, rfl⟩
  · simp only
    split
    · exact numeral_positional (digits_toDigits _) _
    · exact numeral_scientific (digits_toDigits _) _ _

end ImagePush.Json
