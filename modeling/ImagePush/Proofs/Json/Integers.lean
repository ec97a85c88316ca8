import ImagePush.Proofs.Json.Faults
import ImagePush.Proofs.Json.Language
import ImagePush.Proofs.Json.ReadBack

/-!
# Whole numbers that do not fit

The digits of a number past 64 bits are gathered as long as they fit, and some are left. The number is then read as a
double, or it is out of range, whatever follows it; so is a negative number past the signed range
(`denotes_intText_of_not_fits`).
-/

namespace ImagePush.Json

/-- Digits of which none are left have a value within the limit. -/
theorem ofDigitChars_le_of_gather {limit : Nat} (digits : List Char) :
    ∀ {n : Nat}, n ≤ limit → (gather limit n digits).2 = [] → Nat.ofDigitChars 10 digits n ≤ limit := by
  induction digits with
  | nil =>
    intro n hn _
    exact hn
  | cons d digits ih =>
    intro n hn hleft
    rw [gather] at hleft
    split at hleft
    · next hd =>
      have hvalue : n * 10 + digitValue d = 10 * n + (d.toNat - '0'.toNat) := by
        rw [digitValue, Nat.mul_comm]
      rw [Nat.ofDigitChars_cons, ← hvalue]
      exact ih hd.2 hleft
    · cases hleft

/-- What a number past 64 bits is read as does not depend on what follows it. -/
theorem readNumber_of_maxWord_lt (negative : Bool) {n : Nat} (hn : maxWord < n) :
    ∃ (significand : Nat) (dropped : Int), ∀ rest, Ends rest →
      readNumber negative (Nat.toDigits 10 n ++ rest) = readFloat negative significand dropped rest := by
  have hpos : 0 < n := Nat.zero_lt_of_lt hn
  obtain ⟨d, digits, hdigits, hd, hne⟩ := toDigits_eq_cons hpos
  have hall := (digits_toDigits n).all
  have hleft := forall_gather maxWord hall 0
  have hsome : (gather maxWord 0 (Nat.toDigits 10 n)).2 ≠ [] := by
    intro hnone
    have hle := ofDigitChars_le_of_gather (Nat.toDigits 10 n) (Nat.zero_le maxWord) hnone
    rw [Nat.ofDigitChars_ten_toDigits] at hle
    omega
  refine ⟨(gather maxWord 0 (Nat.toDigits 10 n)).1, (gather maxWord 0 (Nat.toDigits 10 n)).2.length,
    fun rest hends => ?_⟩
  have hgather := gather_append maxWord hall hends.startsWithDigit 0
  rw [hdigits, List.cons_append] at hgather ⊢
  rw [readNumber, if_neg hne, if_pos hd, hgather]
  simp only
  rw [← hdigits, afterWhole_append negative _ hleft hends.startsWithDigit, afterDigits_ends negative _ _ hends,
    if_neg (mt List.length_eq_zero_iff.1 hsome)]

theorem intText_eq_signText (n : Int) : intText n = signText (decide (n < 0)) ++ Nat.toDigits 10 n.natAbs := by
  rw [intText_eq, signText_append]

theorem beginsItem_intText (n : Int) : BeginsItem (intText n) := by
  rw [intText_eq]
  exact beginsItem_numeral (numeral_toDigits n.natAbs) (decide (n < 0))

/-- A whole number is read by its sign and its digits. -/
theorem readValue_intText (depth : Nat) (n : Int) (rest : List Char) :
    readValue depth (intText n ++ rest) = readNumber (decide (n < 0)) (Nat.toDigits 10 n.natAbs ++ rest) := by
  rw [intText_eq]
  by_cases hneg : n < 0
  · simp only [hneg, decide_true, if_true]
    exact readValue_minus depth _
  · obtain ⟨d, digits, hdigits⟩ := List.exists_cons_of_ne_nil (digits_toDigits n.natAbs).ne_nil
    have hd : d.isDigit = true := (digits_toDigits n.natAbs).all d (by rw [hdigits]; exact List.mem_cons_self)
    simp only [hneg, decide_false, Bool.false_eq_true, if_false, hdigits]
    exact readValue_digit depth hd _

/-- **A whole number that does not fit 64 bits is the text of a double, or it is out of range**, whatever follows. -/
theorem denotes_intText_of_not_fits {n : Int} (hn : ¬ Fits n) :
    (∃ x, Denotes (intText n) (float x)) ∨
      ∀ depth rest, Ends rest → FailsFor .numberOutOfRange (readValue depth (intText n ++ rest)) := by
  have hfloat : ∀ {x}, readNumber (decide (n < 0)) (Nat.toDigits 10 n.natAbs) = .ok (.float x, []) →
      Denotes (intText n) (float x) := by
    intro x hread
    rw [intText_eq_signText]
    exact .number _ (isNumber_toDigits _) hread
  by_cases hword : n.natAbs ≤ maxWord
  · -- a negative number past the signed range
    have hread := readNumber_toDigits (decide (n < 0)) hword ends_nil
    have hneg : n < 0 ∧ 0x8000000000000000 < n.natAbs := by
      unfold Fits at hn
      unfold maxWord at hword
      omega
    have hlarge : ¬ (0 < n.natAbs ∧ n.natAbs ≤ 0x8000000000000000) := by omega
    rw [List.append_nil, whole, decide_eq_true hneg.1, if_neg (by decide), if_neg hlarge] at hread
    exact .inl ⟨_, hfloat (by rw [decide_eq_true hneg.1]; exact hread)⟩
  · obtain ⟨significand, dropped, hread⟩ := readNumber_of_maxWord_lt (decide (n < 0)) (Nat.lt_of_not_le hword)
    cases hscale : scale (Double.ofNat significand) dropped with
    | some x =>
      left
      have hnil := hread [] ends_nil
      rw [List.append_nil, readFloat, hscale] at hnil
      exact ⟨_, hfloat hnil⟩
    | none =>
      right
      intro depth rest hends
      rw [readValue_intText, hread rest hends, readFloat, hscale]
      exact ⟨_, rfl, rfl⟩

end ImagePush.Json
