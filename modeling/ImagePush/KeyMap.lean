/-!
# Keyed maps

Maps from strings, kept as lists of pairs in increasing order of the keys. Strings are ordered by
their code points, which is also the order of their UTF-8 bytes.

The laws of look-up hold for every list of pairs; the order of the keys is kept by `insert`
(`Sorted.insert`) and holds for every map built by `ofList` (`sorted_ofList`).

The order is a predicate and not part of the type: the values of an artifact are an inductive type nested in its own
maps, and no such type can be nested in a structure that proves something about its members. It is asked for
together with all else that a text needs to be read back (`StateValue.Storable`, `Artifact.Storable`), and everything
that is read or built has it (`StateValue.ordered_ofJson`, `Artifact.LoadedState`).
-/

namespace ImagePush

/-- A map from strings, as pairs in increasing order of the keys. -/
abbrev KeyMap (α : Type) := List (String × α)

namespace KeyMap

variable {α β : Type}

/-- The keys increase. -/
def Sorted (m : KeyMap α) : Prop :=
  m.Pairwise fun a b => a.1 < b.1

/-- The value of a key. -/
def get? (k : String) : KeyMap α → Option α
  | [] => none
  | (k', v) :: rest => if k' = k then some v else get? k rest

/-- The map with the key bound to the value. -/
def insert (k : String) (v : α) : KeyMap α → KeyMap α
  | [] => [(k, v)]
  | (k', v') :: rest =>
    if k < k' then (k, v) :: (k', v') :: rest
    else if k' = k then (k, v) :: rest
    else (k', v') :: insert k v rest

/-- The map without a key. -/
def erase (k : String) (m : KeyMap α) : KeyMap α :=
  m.filter fun p => p.1 != k

/-- The map with the pairs of another one put in. -/
def merge (m more : KeyMap α) : KeyMap α :=
  more.foldl (fun m p => insert p.1 p.2 m) m

/-- The map of a list of pairs; of equal keys the last one counts. -/
def ofList (pairs : List (String × α)) : KeyMap α :=
  pairs.foldl (fun m p => insert p.1 p.2 m) []

/-- The map with every value replaced. -/
def mapValues (f : α → β) (m : KeyMap α) : KeyMap β :=
  m.map fun p => (p.1, f p.2)

/-! ### Look-up -/

@[simp]
theorem get?_nil (k : String) : get? k ([] : KeyMap α) = none := rfl

@[simp]
theorem get?_insert_self (k : String) (v : α) (m : KeyMap α) : get? k (insert k v m) = some v := by
  induction m with
  | nil => simp [insert, get?]
  | cons p rest ih =>
    obtain ⟨k', v'⟩ := p
    unfold insert
    split
    · simp [get?]
    · split
      · simp [get?]
      · simp_all [get?]

theorem get?_insert_of_ne {k j : String} (h : j ≠ k) (v : α) (m : KeyMap α) :
    get? j (insert k v m) = get? j m := by
  induction m with
  | nil => simp [insert, get?, Ne.symm h]
  | cons p rest ih =>
    obtain ⟨k', v'⟩ := p
    unfold insert
    split
    · simp [get?, Ne.symm h]
    · split
      · rename_i heq
        subst heq
        simp [get?, Ne.symm h]
      · simp only [get?, ih]

/-- A map loses a pair by the erasure of a key in it. -/
theorem length_erase_lt {k : String} {v : α} {m : KeyMap α} (h : get? k m = some v) :
    (erase k m).length < m.length := by
  induction m with
  | nil => simp at h
  | cons p rest ih =>
    obtain ⟨k', v'⟩ := p
    by_cases hk : k' = k
    · have := List.length_filter_le (fun p : String × α => p.1 != k) rest
      simp only [erase, List.filter_cons, hk, bne_self_eq_false, Bool.false_eq_true, if_false,
        List.length_cons]
      omega
    · have := ih (by simpa [get?, hk] using h)
      simp only [erase, List.filter_cons, bne_iff_ne, ne_eq, hk, not_false_eq_true, if_true,
        List.length_cons] at this ⊢
      omega

/-! ### Order -/

theorem mem_insert {k : String} {v : α} {m : KeyMap α} {p : String × α} (h : p ∈ insert k v m) :
    p = (k, v) ∨ p ∈ m := by
  induction m with
  | nil => simpa [insert] using h
  | cons q rest ih =>
    obtain ⟨k', v'⟩ := q
    unfold insert at h
    split at h
    · simpa using h
    · split at h
      · simp only [List.mem_cons] at h ⊢
        rcases h with h | h
        · exact .inl h
        · exact .inr (.inr h)
      · simp only [List.mem_cons] at h ⊢
        rcases h with h | h
        · exact .inr (.inl h)
        · rcases ih h with h | h
          · exact .inl h
          · exact .inr (.inr h)

theorem Sorted.insert {m : KeyMap α} (h : Sorted m) (k : String) (v : α) :
    Sorted (insert k v m) := by
  induction m with
  | nil => simp [KeyMap.insert, Sorted]
  | cons p rest ih =>
    obtain ⟨k', v'⟩ := p
    have hrest : Sorted rest := List.Pairwise.of_cons h
    have hhead : ∀ q ∈ rest, k' < q.1 := fun q hq => List.rel_of_pairwise_cons h hq
    unfold KeyMap.insert
    split
    · rename_i hlt
      refine List.Pairwise.cons ?_ h
      intro q hq
      rcases List.mem_cons.1 hq with rfl | hq
      · exact hlt
      · exact String.lt_trans hlt (hhead q hq)
    · split
      · rename_i heq
        subst heq
        exact List.Pairwise.cons hhead hrest
      · rename_i hnlt hne
        refine List.Pairwise.cons ?_ (ih hrest)
        intro q hq
        rcases mem_insert hq with rfl | hq
        · exact Std.lt_of_le_of_ne hnlt hne
        · exact hhead q hq

theorem sorted_foldl_insert (pairs : List (String × α)) {m : KeyMap α} (h : Sorted m) :
    Sorted (pairs.foldl (fun m p => KeyMap.insert p.1 p.2 m) m) := by
  induction pairs generalizing m with
  | nil => exact h
  | cons p rest ih => exact ih (h.insert p.1 p.2)

theorem sorted_ofList (pairs : List (String × α)) : Sorted (ofList pairs) :=
  sorted_foldl_insert pairs List.Pairwise.nil

end KeyMap

end ImagePush
