import ImagePush.Json.Basic

/-!
# Nesting and numbers of JSON values

Induction over the nesting of a value, its depth in terms of its items and members, and what holds of all
numbers in it (`AllNumbers`).
-/

namespace ImagePush.Json

/-! ### Nesting -/

/-- Induction over the nesting: an array and an object may count on all that they hold. -/
@[elab_as_elim]
theorem nested {motive : Json → Prop} (null : motive .null) (bool : ∀ b, motive (.bool b))
    (int : ∀ n, motive (.int n)) (float : ∀ x, motive (.float x)) (string : ∀ s, motive (.string s))
    (array : ∀ vs, (∀ v ∈ vs, motive v) → motive (.array vs))
    (object : ∀ ms : List (String × Json), (∀ m ∈ ms, motive m.2) → motive (.object ms))
    (v : Json) : motive v :=
  @Json.rec motive (fun vs => ∀ v ∈ vs, motive v) (fun ms => ∀ m ∈ ms, motive m.2) (fun m => motive m.2)
    null bool int float string array object
    (fun _ h => absurd h List.not_mem_nil)
    (fun _ _ hv hvs => List.forall_mem_cons.2 ⟨hv, hvs⟩)
    (fun _ h => absurd h List.not_mem_nil)
    (fun _ _ hm hms => List.forall_mem_cons.2 ⟨hm, hms⟩)
    (fun _ _ hv => hv) v

theorem depthOfItems_le {vs : List Json} {d : Nat} : depthOfItems vs ≤ d ↔ ∀ v ∈ vs, v.depth ≤ d := by
  induction vs with
  | nil => simp [depthOfItems]
  | cons v vs ih => rw [depthOfItems, Nat.max_le, ih, List.forall_mem_cons]

theorem depthOfMembers_le {ms : List (String × Json)} {d : Nat} :
    depthOfMembers ms ≤ d ↔ ∀ m ∈ ms, m.2.depth ≤ d := by
  induction ms with
  | nil => simp [depthOfMembers]
  | cons m ms ih => rw [depthOfMembers, Nat.max_le, ih, List.forall_mem_cons]

theorem depth_array_le {vs : List Json} {d : Nat} : (array vs).depth ≤ d + 1 ↔ ∀ v ∈ vs, v.depth ≤ d := by
  rw [depth, Nat.add_le_add_iff_right, depthOfItems_le]

theorem depth_object_le {ms : List (String × Json)} {d : Nat} :
    (object ms).depth ≤ d + 1 ↔ ∀ m ∈ ms, m.2.depth ≤ d := by
  rw [depth, Nat.add_le_add_iff_right, depthOfMembers_le]

/-! ### Numbers -/

section

variable (P : Int → Prop) (Q : Double → Prop)

mutual

/-- All whole numbers and all doubles of the value satisfy their condition. -/
def AllNumbers : Json → Prop
  | int n => P n
  | float x => Q x
  | array vs => AllNumbersOfItems vs
  | object ms => AllNumbersOfMembers ms
  | _ => True

/-- The same for the items of an array. -/
def AllNumbersOfItems : List Json → Prop
  | [] => True
  | v :: vs => AllNumbers v ∧ AllNumbersOfItems vs

/-- The same for the members of an object. -/
def AllNumbersOfMembers : List (String × Json) → Prop
  | [] => True
  | (_, v) :: ms => AllNumbers v ∧ AllNumbersOfMembers ms

end

variable {P Q}

theorem allNumbers_array {vs : List Json} : (array vs).AllNumbers P Q ↔ ∀ v ∈ vs, v.AllNumbers P Q := by
  rw [AllNumbers]
  induction vs with
  | nil => simp [AllNumbersOfItems]
  | cons v vs ih => rw [AllNumbersOfItems, ih, List.forall_mem_cons]

theorem allNumbers_object {ms : List (String × Json)} :
    (object ms).AllNumbers P Q ↔ ∀ m ∈ ms, m.2.AllNumbers P Q := by
  rw [AllNumbers]
  induction ms with
  | nil => simp [AllNumbersOfMembers]
  | cons m ms ih => rw [AllNumbersOfMembers, ih, List.forall_mem_cons]

end

/-- A number of 64 bits, signed or unsigned. -/
def Fits (n : Int) : Prop :=
  -0x8000000000000000 ≤ n ∧ n < 0x10000000000000000

/-- All numbers of the value are whole and fit 64 bits. -/
def Exact (v : Json) : Prop :=
  v.AllNumbers Fits fun _ => False

/-- All whole numbers of the value fit 64 bits, and all its doubles are finite. -/
def Sound (v : Json) : Prop :=
  v.AllNumbers Fits fun x => x.isFinite = true

end ImagePush.Json
