import ImagePush.KeyMap
import Mathlib.Data.List.Sort

/-!
# Sorted maps

A list of pairs whose keys increase is the map it builds (`ofList_of_sorted`), and a map keeps its order when
its values are replaced. Maps in order are the same if they are looked up alike (`Sorted.ext`).
-/

namespace ImagePush.KeyMap

variable {α β : Type}

/-- A key behind all keys of the map is put in at the end. -/
theorem insert_of_forall_lt {k : String} {v : α} {m : KeyMap α} (hm : ∀ p ∈ m, p.1 < k) :
    insert k v m = m ++ [(k, v)] := by
  induction m with
  | nil => rfl
  | cons p m ih =>
    obtain ⟨k', v'⟩ := p
    rw [List.forall_mem_cons] at hm
    have hlt : k' < k := hm.1
    have hnlt : ¬ k < k' := String.lt_asymm hlt
    have hne : k' ≠ k := by
      rintro rfl
      exact String.lt_irrefl k' hlt
    rw [insert, if_neg hnlt, if_neg hne, ih hm.2, List.cons_append]

theorem foldl_insert_of_sorted {pairs m : KeyMap α} (hsorted : Sorted (m ++ pairs)) :
    pairs.foldl (fun m p => insert p.1 p.2 m) m = m ++ pairs := by
  induction pairs generalizing m with
  | nil => simp
  | cons p pairs ih =>
    have hlt : ∀ q ∈ m, q.1 < p.1 := fun q hq =>
      (List.pairwise_append.1 hsorted).2.2 q hq p List.mem_cons_self
    rw [List.foldl_cons, insert_of_forall_lt hlt, ih (by simpa using hsorted)]
    simp

/-- A list whose keys increase is the map it builds. -/
theorem ofList_of_sorted {m : KeyMap α} (hsorted : Sorted m) : ofList m = m :=
  foldl_insert_of_sorted (m := []) hsorted

theorem Sorted.map {m : KeyMap α} (hsorted : Sorted m) (f : α → β) : Sorted (m.map fun p => (p.1, f p.2)) :=
  List.Pairwise.map _ (fun _ _ hlt => hlt) hsorted

/-- A map holds only what was put in. -/
theorem forall_mem_ofList {P : String × α → Prop} {pairs : List (String × α)} (hpairs : ∀ p ∈ pairs, P p) :
    ∀ p ∈ ofList pairs, P p := by
  have hfold : ∀ (pairs : List (String × α)) (m : KeyMap α), (∀ p ∈ pairs, P p) → (∀ p ∈ m, P p) →
      ∀ p ∈ pairs.foldl (fun m p => insert p.1 p.2 m) m, P p := by
    intro pairs
    induction pairs with
    | nil => exact fun m _ hm => hm
    | cons q pairs ih =>
      intro m hpairs hm
      rw [List.forall_mem_cons] at hpairs
      refine ih _ hpairs.2 fun p hp => ?_
      rcases mem_insert hp with rfl | hp
      · exact hpairs.1
      · exact hm p hp
  exact hfold pairs [] hpairs (by simp)

theorem mem_of_get? {k : String} {v : α} {m : KeyMap α} (hget : get? k m = some v) : (k, v) ∈ m := by
  induction m with
  | nil => cases hget
  | cons p m ih =>
    obtain ⟨k', v'⟩ := p
    rw [get?] at hget
    split at hget
    · next hk =>
      obtain rfl : k' = k := hk
      cases hget
      exact List.mem_cons_self
    · exact List.mem_cons_of_mem _ (ih hget)

theorem get?_mapValues (f : α → β) (k : String) (m : KeyMap α) : get? k (m.mapValues f) = (get? k m).map f := by
  induction m with
  | nil => rfl
  | cons p m ih =>
    by_cases hk : p.1 = k
    · simp [mapValues, get?, hk]
    · simpa [mapValues, get?, hk] using ih

/-! ### Look-up in order -/

/-- A map in order has one value for each key. -/
theorem Sorted.get?_eq_some_iff {m : KeyMap α} (hsorted : Sorted m) {k : String} {v : α} :
    get? k m = some v ↔ (k, v) ∈ m := by
  constructor
  · exact mem_of_get?
  · intro hmem
    induction m with
    | nil => cases hmem
    | cons p m ih =>
      rcases List.mem_cons.1 hmem with rfl | hmem
      · simp [get?]
      · have hlt : p.1 < k := List.rel_of_pairwise_cons hsorted hmem
        have hne : p.1 ≠ k := by
          rintro rfl
          exact String.lt_irrefl _ hlt
        rw [get?, if_neg hne]
        exact ih hsorted.of_cons hmem

/-- **Maps in order are the same if they are looked up alike.** -/
theorem Sorted.ext {m n : KeyMap α} (hm : Sorted m) (hn : Sorted n) (hget : ∀ k, get? k m = get? k n) :
    m = n := by
  have hirrefl : Std.Irrefl fun p q : String × α => p.1 < q.1 := ⟨fun p => String.lt_irrefl p.1⟩
  have hantisymm : Std.Antisymm fun p q : String × α => p.1 < q.1 :=
    ⟨fun p q hpq hqp => absurd hqp (String.lt_asymm hpq)⟩
  refine List.Pairwise.eq_of_mem_iff hm hn ?_
  rintro ⟨k, v⟩
  rw [← hm.get?_eq_some_iff, ← hn.get?_eq_some_iff, hget]

/-- The last pair of a list is put in last. -/
theorem ofList_concat (pairs : List (String × α)) (p : String × α) :
    ofList (pairs ++ [p]) = insert p.1 p.2 (ofList pairs) := by
  simp [ofList]

@[simp]
theorem get?_erase_self (k : String) (m : KeyMap α) : get? k (erase k m) = none := by
  induction m with
  | nil => rfl
  | cons p m ih =>
    by_cases hk : p.1 = k
    · simpa [erase, hk] using ih
    · simpa [erase, hk, get?] using ih

theorem get?_erase_of_ne {j k : String} (hne : j ≠ k) (m : KeyMap α) : get? j (erase k m) = get? j m := by
  induction m with
  | nil => rfl
  | cons p m ih =>
    have herase : get? j (List.filter (fun p => p.1 != k) m) = get? j m := ih
    by_cases hk : p.1 = k
    · simp [erase, hk, get?, herase, Ne.symm hne]
    · simp [erase, hk, get?, herase]

end ImagePush.KeyMap
