import ImagePush.Proofs.Json.Places
import ImagePush.Proofs.StateValue.Normal

/-!
# Places in a state value

A state value has its parts at the same places as its JSON value, whether it is read (`at?_ofJson`) or written
(`at?_toJson`).
-/

namespace ImagePush.StateValue

open Json (Step valuesOf)

/-- The part of a value at the end of a path. -/
def at? (v : StateValue) : List Step → Option StateValue
  | [] => some v
  | .item i :: path =>
    match v with
    | strings ts => ts[i]?.bind fun t => at? (string t) path
    | list vs => vs[i]?.bind fun w => at? w path
    | _ => none
  | .key k :: path =>
    match v with
    | map ms => (KeyMap.get? k ms).bind fun w => at? w path
    | _ => none

theorem at?_nil (v : StateValue) : v.at? [] = some v := by
  cases v <;> rfl

/-- A map has the last one of the values of a key. -/
theorem get?_ofList {α : Type} (k : String) (pairs : List (String × α)) :
    KeyMap.get? k (KeyMap.ofList pairs) = (valuesOf k pairs).getLast? := by
  induction pairs using List.reverseRecOn with
  | nil => rfl
  | append_singleton pairs p ih =>
    rw [KeyMap.ofList_concat, Json.valuesOf_append]
    by_cases hk : p.1 = k
    · subst hk
      rw [KeyMap.get?_insert_self, Json.valuesOf_cons_self]
      exact List.getLast?_concat.symm
    · rw [KeyMap.get?_insert_of_ne (Ne.symm hk), Json.valuesOf_cons_of_ne hk, ih]
      simp [valuesOf]

/-! ### Reading -/

theorem at?_ofItems (vs : List StateValue) (i : Nat) (path : List Step) :
    (ofItems vs).at? (.item i :: path) = vs[i]?.bind fun w => w.at? path := by
  rcases ofItems_cases vs with ⟨texts, rfl, heq⟩ | ⟨-, heq⟩
  · rw [heq, at?, List.getElem?_map, Option.bind_map]
    rfl
  · rw [heq, at?]

/-- **What is read from JSON has its parts at the same places.** -/
theorem at?_ofJson (path : List Step) : ∀ j : Json, (ofJson j).at? path = (j.at? path).map ofJson := by
  induction path with
  | nil => exact fun j => by rw [at?_nil, Json.at?_nil, Option.map_some]
  | cons step path ih =>
    intro j
    cases step with
    | item i =>
      cases j with
      | array vs =>
        rw [ofJson, ofJsonItems_eq, at?_ofItems, Json.at?, List.getElem?_map, Option.bind_map, Option.map_bind]
        exact Option.bind_congr fun w _ => ih w
      | int n =>
        rw [ofJson, ofInt]
        split <;> rfl
      | _ => rfl
    | key k =>
      cases j with
      | object ms =>
        rw [ofJson, ofJsonMembers_eq, at?, get?_ofList, Json.valuesOf_map_values, List.getLast?_map, Json.at?,
          Option.bind_map, Option.map_bind]
        exact Option.bind_congr fun w _ => ih w
      | int n =>
        rw [ofJson, ofInt]
        split <;> rfl
      | array vs =>
        rw [ofJson]
        rcases ofItems_cases (ofJsonItems vs) with ⟨texts, -, heq⟩ | ⟨-, heq⟩ <;> rw [heq] <;> rfl
      | _ => rfl

/-! ### Writing -/

/-- **What is written has the parts at the same places.** -/
theorem at?_toJson {w : StateValue} (path : List Step) :
    ∀ {v : StateValue}, v.Ordered → v.at? path = some w → v.toJson.at? path = some w.toJson := by
  induction path with
  | nil =>
    intro v _ hw
    rw [at?_nil] at hw
    obtain rfl := Option.some.inj hw
    exact Json.at?_nil _
  | cons step path ih =>
    intro v hv hw
    cases step with
    | item i =>
      cases v with
      | strings ts =>
        obtain ⟨t, ht, hpart⟩ := Option.bind_eq_some_iff.1 hw
        rw [toJson, Json.at?, List.getElem?_map, ht]
        exact ih (v := string t) trivial hpart
      | list vs =>
        obtain ⟨u, hu, hpart⟩ := Option.bind_eq_some_iff.1 hw
        rw [toJson, toJsonItems_eq, Json.at?, List.getElem?_map, hu]
        exact ih ((everywhere_list.1 hv).2 u (List.mem_of_getElem? hu)) hpart
      | _ => cases hw
    | key k =>
      cases v with
      | map ms =>
        obtain ⟨u, hu, hpart⟩ := Option.bind_eq_some_iff.1 hw
        obtain ⟨hsorted, hms⟩ := everywhere_map.1 hv
        have hlast : (valuesOf k ms).getLast? = some u := by
          rw [← get?_ofList, KeyMap.ofList_of_sorted hsorted]
          exact hu
        rw [toJson, toJsonMembers_eq, Json.at?, Json.valuesOf_map_values, List.getLast?_map, hlast]
        exact ih (hms _ (KeyMap.mem_of_get? hu)) hpart
      | _ => cases hw

end ImagePush.StateValue
