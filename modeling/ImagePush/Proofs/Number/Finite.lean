import ImagePush.Number.Double
import Mathlib.Algebra.Order.Field.Power
import Mathlib.Data.Rat.Cast.Order
import Mathlib.Tactic.Positivity
import Mathlib.Tactic.Ring

/-!
# Finite doubles

Rounding never gives a NaN, and it gives a finite double for every ratio below `2 ^ 1022`
(`isFinite_ofRatio`): the grid exponent leaves a mantissa of at most 53 bits (`lt_two_pow_gridExponent`) and
is itself bounded (`gridExponent_le`). So whole numbers of 64 bits are finite, and dividing a finite double by
a power of ten gives a finite one.
-/

namespace ImagePush.Double

/-! ### The grid -/

/-- The comparison of a shifted ratio with a power of two, as one of rationals. -/
theorem shifted_lt_iff {num den : Nat} (m : Nat) (q : Int) :
    (shifted num den q).1 < 2 ^ m * (shifted num den q).2 ↔ (num : ℚ) < 2 ^ (m + q) * den := by
  unfold shifted
  split
  · next hq =>
    obtain ⟨k, rfl⟩ := Int.eq_ofNat_of_zero_le hq
    rw [Int.toNat_natCast, ← Nat.cast_add, zpow_natCast, pow_add]
    rw [mul_assoc, mul_comm (2 ^ k : ℚ)]
    show num < 2 ^ m * (den <<< k) ↔ _
    rw [Nat.shiftLeft_eq]
    exact_mod_cast Iff.rfl
  · next hq =>
    obtain ⟨k, hk⟩ := Int.eq_ofNat_of_zero_le (show 0 ≤ -q by omega)
    obtain rfl : q = -(k : Int) := by omega
    have hpos : (0 : ℚ) < 2 ^ k := by positivity
    rw [neg_neg, Int.toNat_natCast, zpow_add₀ two_ne_zero, zpow_neg, zpow_natCast, zpow_natCast,
      mul_right_comm, ← div_eq_mul_inv, lt_div_iff₀ hpos]
    show num <<< k < 2 ^ m * den ↔ _
    rw [Nat.shiftLeft_eq]
    exact_mod_cast Iff.rfl

/-- The ratio lies below the power of two that is 53 places above the first guess for the grid. -/
theorem lt_two_pow_log2 (num : Nat) {den : Nat} (hden : 0 < den) :
    (num : ℚ) < 2 ^ (53 + ((num.log2 : Int) - den.log2 - 52)) * den := by
  have hnum : (num : ℚ) < 2 ^ (num.log2 + 1) := by exact_mod_cast Nat.lt_log2_self
  have hlow : (2 : ℚ) ^ den.log2 ≤ den := by exact_mod_cast Nat.log2_self_le (Nat.ne_of_gt hden)
  have hexponent : (53 : Int) + ((num.log2 : Int) - den.log2 - 52) =
      (num.log2 + 1 : Nat) - (den.log2 : Nat) := by
    push_cast
    omega
  rw [hexponent, zpow_sub₀ two_ne_zero, zpow_natCast, zpow_natCast, div_mul_eq_mul_div,
    lt_div_iff₀ (by positivity)]
  exact mul_lt_mul hnum hlow (by positivity) (by positivity)

/-- On its grid a ratio has at most 53 bits. -/
theorem lt_two_pow_gridExponent (num : Nat) {den : Nat} (hden : 0 < den) :
    (num : ℚ) < 2 ^ (53 + gridExponent num den) * den := by
  have hlift : ∀ {q q' : Int}, q ≤ q' → (num : ℚ) < 2 ^ (53 + q) * den →
      (num : ℚ) < 2 ^ (53 + q') * den := by
    intro q q' hq hlt
    refine lt_of_lt_of_le hlt (mul_le_mul_of_nonneg_right ?_ (by positivity))
    exact zpow_le_zpow_right₀ (by norm_num) (by omega)
  refine hlift (le_max_right _ _) ?_
  split
  · next hsmall =>
    have hlower := (shifted_lt_iff 52 _).1 hsmall
    rw [show (53 : Int) + ((num.log2 : Int) - den.log2 - 52 - 1) = (52 : Nat) + (num.log2 - den.log2 - 52) by
      push_cast
      omega]
    exact hlower
  · exact lt_two_pow_log2 num hden

/-- The grid of a ratio below `2 ^ 1022` is that of a finite double. -/
theorem gridExponent_le {num den k : Nat} (hlt : num < 2 ^ k * den) (hk : k ≤ 1022) :
    gridExponent num den ≤ 970 := by
  have hlog : num.log2 ≤ k + den.log2 := by
    by_cases hnum : num = 0
    · subst hnum
      simp
    · have hden : den < 2 ^ (den.log2 + 1) := Nat.lt_log2_self
      have hbound : num < 2 ^ (k + den.log2 + 1) := by
        rw [Nat.add_assoc, Nat.pow_add]
        exact lt_trans hlt (Nat.mul_lt_mul_of_pos_left hden (by positivity))
      exact Nat.lt_succ_iff.1 ((Nat.log2_lt hnum).2 hbound)
  unfold gridExponent
  refine max_le (by norm_num) ?_
  simp only
  split <;> omega

/-! ### Rounding -/

theorem divideToEven_le {num den m : Nat} (hlt : num < m * den) : divideToEven num den ≤ m := by
  have hquotient : num / den < m := Nat.div_lt_of_lt_mul (by rwa [Nat.mul_comm])
  unfold divideToEven
  simp only
  split
  · omega
  · split <;> omega

theorem patternOfRatio_lt {num den k : Nat} (hlt : num < 2 ^ k * den) (hk : k ≤ 1022) :
    patternOfRatio num den < infinityBits := by
  have hden : 0 < den := Nat.pos_of_ne_zero (by rintro rfl; simp at hlt)
  have hgrid := gridExponent_le hlt hk
  have hmantissa := (shifted_lt_iff 53 _).2 (lt_two_pow_gridExponent num hden)
  have hrounded := divideToEven_le hmantissa
  have hplace : (gridExponent num den + 1074).toNat ≤ 2044 := by omega
  unfold patternOfRatio infinityBits hiddenBit
  simp only
  omega

/-- The pattern of a rounded ratio is the one that rounding computes. -/
theorem unsignedBits_ofRatio (num den : Nat) :
    (ofRatio false num den).unsignedBits = if num = 0 then 0 else patternOfRatio num den := by
  have hle : (if num = 0 then 0 else patternOfRatio num den) ≤ infinityBits := by
    split
    · exact Nat.zero_le _
    · exact Nat.min_le_left _ _
  have hsmall : infinityBits < 0x8000000000000000 := by decide
  unfold ofRatio unsignedBits signBit
  simp only [Bool.false_eq_true, if_false, UInt64.toNat_ofNat']
  omega

/-- A rounded ratio is finite or infinite, never a NaN. -/
theorem unsignedBits_ofRatio_le (num den : Nat) : (ofRatio false num den).unsignedBits ≤ infinityBits := by
  rw [unsignedBits_ofRatio]
  split
  · exact Nat.zero_le _
  · exact Nat.min_le_left _ _

/-- **A ratio below `2 ^ 1022` is rounded to a finite double.** -/
theorem isFinite_ofRatio {num den k : Nat} (hlt : num < 2 ^ k * den) (hk : k ≤ 1022) :
    (ofRatio false num den).isFinite = true := by
  rw [isFinite, unsignedBits_ofRatio, decide_eq_true_eq]
  split
  · decide
  · exact patternOfRatio_lt hlt hk

theorem isFinite_ofNat {n : Nat} (hn : n < 2 ^ 64) : (ofNat n).isFinite = true := by
  rw [← Nat.mul_one (2 ^ 64)] at hn
  exact isFinite_ofRatio hn (by omega)

/-! ### Sign -/

@[simp]
theorem unsignedBits_neg (x : Double) : x.neg.unsignedBits = x.unsignedBits := by
  have hbit : signBit = 2 ^ 63 := rfl
  have hsign : (0x8000000000000000 : UInt64).toNat % 2 ^ 63 = 0 := by decide
  rw [neg, unsignedBits, unsignedBits, hbit, UInt64.toNat_xor, Nat.xor_mod_two_pow, hsign, Nat.xor_zero]

@[simp]
theorem isFinite_neg (x : Double) : x.neg.isFinite = x.isFinite := by
  rw [isFinite, isFinite, unsignedBits_neg]

/-! ### Powers of ten -/

/-- The powers of ten that a number is divided by are at least four. -/
theorem four_le_powerOfTen :
    ∀ k < 309, 0 < k → 4 * (powerOfTen k).toRatio.2 ≤ (powerOfTen k).toRatio.1 := by
  decide +kernel

theorem toRatio_snd_pos (x : Double) : 0 < x.toRatio.2 := by
  unfold toRatio
  split
  · exact Nat.one_pos
  · rw [Nat.one_shiftLeft]
    exact Nat.two_pow_pos _

/-- A finite double is less than `2 ^ 1024`. -/
theorem toRatio_lt {x : Double} (hx : x.isFinite = true) {k : Nat} (hk : 1024 ≤ k) :
    x.toRatio.1 < 2 ^ k * x.toRatio.2 := by
  rw [isFinite, decide_eq_true_eq] at hx
  unfold infinityBits hiddenBit at hx
  have hmantissa : x.mantissa < 2 ^ 53 := by
    unfold mantissa hiddenBit
    split <;> omega
  have hexponent : x.exponent ≤ 971 := by
    unfold exponent hiddenBit
    split <;> omega
  unfold toRatio
  split
  · have hplaces : x.exponent.toNat ≤ k - 53 := by omega
    show x.mantissa <<< x.exponent.toNat < 2 ^ k * 1
    rw [Nat.shiftLeft_eq]
    calc x.mantissa * 2 ^ x.exponent.toNat
        < 2 ^ 53 * 2 ^ x.exponent.toNat := Nat.mul_lt_mul_of_pos_right hmantissa (by positivity)
      _ ≤ 2 ^ 53 * 2 ^ (k - 53) := Nat.mul_le_mul_left _ (Nat.pow_le_pow_right (by omega) hplaces)
      _ = 2 ^ k * 1 := by rw [← Nat.pow_add, Nat.mul_one, show 53 + (k - 53) = k by omega]
  · show x.mantissa < 2 ^ k * 1 <<< (-x.exponent).toNat
    rw [Nat.one_shiftLeft, ← Nat.pow_add]
    exact lt_of_lt_of_le hmantissa (Nat.pow_le_pow_right (by omega) (by omega))

/-- A finite double divided by a power of ten is finite. -/
theorem isFinite_divide_powerOfTen {x : Double} (hx : x.isFinite = true) {k : Nat} (hpos : 0 < k)
    (hk : k < 309) : (x.divide (powerOfTen k)).isFinite = true := by
  have hfour := four_le_powerOfTen k hk hpos
  have hden := toRatio_snd_pos (powerOfTen k)
  obtain ⟨m, hm⟩ : ∃ m, m = 1022 := ⟨1022, rfl⟩
  have hbelow : x.toRatio.1 < 2 ^ (m + 2) * x.toRatio.2 := toRatio_lt hx (by omega)
  show (ofRatio false (x.toRatio.1 * (powerOfTen k).toRatio.2)
    (x.toRatio.2 * (powerOfTen k).toRatio.1)).isFinite = true
  refine isFinite_ofRatio ?_ hm.le
  calc x.toRatio.1 * (powerOfTen k).toRatio.2
      < 2 ^ (m + 2) * x.toRatio.2 * (powerOfTen k).toRatio.2 := Nat.mul_lt_mul_of_pos_right hbelow hden
    _ = 2 ^ m * (x.toRatio.2 * (4 * (powerOfTen k).toRatio.2)) := by ring
    _ ≤ 2 ^ m * (x.toRatio.2 * (powerOfTen k).toRatio.1) :=
      Nat.mul_le_mul_left _ (Nat.mul_le_mul_left _ hfour)

end ImagePush.Double
