import ImagePush.Text.Search

/-!
# Where a text is cut

The parts of a cut and what is cut out make up the text again. The first occurrence of a separator is found behind
any text without its first letter; the last one leaves the longest part in front of it (`exists_splitLast`).
-/

namespace ImagePush.Text

variable {α : Type} [BEq α] [LawfulBEq α] {sep s before behind : List α}

theorem append_drop_of_isPrefixOf (h : sep.isPrefixOf s = true) : sep ++ s.drop sep.length = s :=
  List.prefix_iff_eq_append.1 (List.isPrefixOf_iff_prefix.1 h)

theorem isPrefixOf_append (sep rest : List α) : sep.isPrefixOf (sep ++ rest) = true :=
  List.isPrefixOf_iff_prefix.2 (List.prefix_append sep rest)

/-! ### The front -/

theorem dropFront?_append (front rest : List α) : dropFront? front (front ++ rest) = some rest := by
  rw [dropFront?, if_pos (isPrefixOf_append front rest), List.drop_left]

theorem eq_of_dropFront? {front rest : List α} (h : dropFront? front s = some rest) : s = front ++ rest := by
  unfold dropFront? at h
  split at h
  · next hpre =>
    cases h
    exact (append_drop_of_isPrefixOf hpre).symm
  · cases h

theorem dropFront?_eq_none_iff {front : List α} : dropFront? front s = none ↔ ¬ front <+: s := by
  constructor
  · rintro h ⟨rest, rfl⟩
    rw [dropFront?_append] at h
    cases h
  · intro h
    exact if_neg (mt List.isPrefixOf_iff_prefix.1 h)

/-! ### The first occurrence -/

theorem eq_of_splitFirst (h : splitFirst sep s = some (before, behind)) : s = before ++ (sep ++ behind) := by
  induction s generalizing before with
  | nil =>
    rw [splitFirst] at h
    split at h
    · next hsep =>
      cases h
      rw [List.isEmpty_iff.1 hsep]
      rfl
    · cases h
  | cons c s ih =>
    rw [splitFirst] at h
    split at h
    · next hpre =>
      cases h
      exact (append_drop_of_isPrefixOf hpre).symm
    · obtain ⟨⟨before', behind'⟩, hrest, heq⟩ := Option.map_eq_some_iff.1 h
      cases heq
      rw [ih hrest]
      rfl

/-- A text without the first letter of the separator is passed. -/
theorem splitFirst_append_of_not_mem {c : α} {front : List α} (hfront : c ∉ front) (sep rest : List α) :
    splitFirst (c :: sep) (front ++ (c :: sep ++ rest)) = some (front, rest) := by
  induction front with
  | nil =>
    rw [List.nil_append, List.cons_append, splitFirst, ← List.cons_append, if_pos (isPrefixOf_append _ rest),
      List.drop_left]
  | cons d front ih =>
    obtain ⟨hd, hfront⟩ := not_or.1 (mt List.mem_cons.2 hfront)
    have hpre : (c :: sep).isPrefixOf (d :: (front ++ (c :: sep ++ rest))) = false := by
      rw [List.isPrefixOf_cons_cons, beq_eq_false_iff_ne.2 hd, Bool.false_and]
    rw [List.cons_append, splitFirst, hpre, ih hfront]
    rfl

/-- In front of the first occurrence of a letter it does not occur. -/
theorem not_mem_of_splitFirst {c : α} (h : splitFirst [c] s = some (before, behind)) : c ∉ before := by
  induction s generalizing before with
  | nil => cases h
  | cons d s ih =>
    rw [splitFirst] at h
    split at h
    · cases h
      exact List.not_mem_nil
    · next hpre =>
      obtain ⟨⟨before', behind'⟩, hrest, heq⟩ := Option.map_eq_some_iff.1 h
      cases heq
      intro hc
      rcases List.mem_cons.1 hc with rfl | hc
      · simp at hpre
      · exact ih hrest hc

/-- **A text is cut at the first occurrence of a letter.** -/
theorem splitFirst_letter_eq_some_iff {c : α} :
    splitFirst [c] s = some (before, behind) ↔ s = before ++ c :: behind ∧ c ∉ before := by
  constructor
  · intro h
    exact ⟨eq_of_splitFirst h, not_mem_of_splitFirst h⟩
  · rintro ⟨rfl, hc⟩
    exact splitFirst_append_of_not_mem hc [] behind

/-! ### The last occurrence -/

theorem eq_of_splitLast (h : splitLast sep s = some (before, behind)) : s = before ++ (sep ++ behind) := by
  induction s generalizing before with
  | nil =>
    rw [splitLast] at h
    split at h
    · next hsep =>
      cases h
      rw [List.isEmpty_iff.1 hsep]
      rfl
    · cases h
  | cons c s ih =>
    rw [splitLast] at h
    split at h
    · next before' behind' hrest =>
      cases h
      rw [ih hrest]
      rfl
    · split at h
      · next hpre =>
        cases h
        exact (append_drop_of_isPrefixOf hpre).symm
      · cases h

/-- **Where there is an occurrence, the last one is found**, and no other one has more in front of it. -/
theorem exists_splitLast (sep front rest : List α) :
    ∃ before behind, splitLast sep (front ++ (sep ++ rest)) = some (before, behind) ∧
      front.length ≤ before.length := by
  induction front with
  | nil =>
    rw [List.nil_append]
    cases hs : sep ++ rest with
    | nil =>
      obtain ⟨rfl, -⟩ := List.append_eq_nil_iff.1 hs
      exact ⟨[], [], rfl, Nat.le_refl 0⟩
    | cons c s =>
      rw [splitLast]
      cases hlater : splitLast sep s with
      | some parts => exact ⟨c :: parts.1, parts.2, rfl, Nat.zero_le _⟩
      | none =>
        refine ⟨[], (c :: s).drop sep.length, ?_, Nat.le_refl 0⟩
        rw [← hs]
        exact if_pos (isPrefixOf_append sep rest)
  | cons c front ih =>
    obtain ⟨before, behind, hlast, hle⟩ := ih
    refine ⟨c :: before, behind, ?_, Nat.succ_le_succ hle⟩
    rw [List.cons_append, splitLast, hlast]

/-- No occurrence has more in front of it than the last one. -/
theorem length_le_of_splitLast {front rest : List α} (h : splitLast sep s = some (before, behind))
    (hs : s = front ++ (sep ++ rest)) : front.length ≤ before.length := by
  obtain ⟨before', behind', hlast, hle⟩ := exists_splitLast sep front rest
  rw [← hs, h] at hlast
  cases hlast
  exact hle

end ImagePush.Text
