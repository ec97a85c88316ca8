import ImagePush.Proofs.Json.Basic
import ImagePush.Proofs.KeyMap
import ImagePush.StateValue.Json

/-!
# Normal forms of state values

The constructors of a state value overlap in JSON. `norm` picks for each value the constructors that reading
picks: the value is written as before (`toJson_norm`), its JSON is read as its normal form
(`ofJson_toJson`), and whatever is read from sound JSON is normal (`normal_ofJson`).
-/

namespace ImagePush.StateValue

/-! ### Values within values -/

/-- Induction over the nesting of a value. -/
@[elab_as_elim]
theorem nested {motive : StateValue → Prop} (null : motive .null) (bool : ∀ b, motive (.bool b))
    (integer : ∀ n, motive (.integer n)) (unsigned : ∀ n, motive (.unsigned n))
    (float : ∀ x, motive (.float x)) (string : ∀ s, motive (.string s)) (strings : ∀ ts, motive (.strings ts))
    (list : ∀ vs, (∀ v ∈ vs, motive v) → motive (.list vs))
    (map : ∀ ms : List (String × StateValue), (∀ m ∈ ms, motive m.2) → motive (.map ms))
    (entries : ∀ ps : List (StateValue × StateValue), (∀ p ∈ ps, motive p.1 ∧ motive p.2) →
      motive (.entries ps))
    (v : StateValue) : motive v :=
  @StateValue.rec motive (fun vs => ∀ v ∈ vs, motive v) (fun ms => ∀ m ∈ ms, motive m.2)
    (fun ps => ∀ p ∈ ps, motive p.1 ∧ motive p.2) (fun m => motive m.2) (fun p => motive p.1 ∧ motive p.2)
    null bool integer unsigned float string strings list map entries
    (fun _ h => absurd h List.not_mem_nil)
    (fun _ _ hv hvs => List.forall_mem_cons.2 ⟨hv, hvs⟩)
    (fun _ h => absurd h List.not_mem_nil)
    (fun _ _ hm hms => List.forall_mem_cons.2 ⟨hm, hms⟩)
    (fun _ h => absurd h List.not_mem_nil)
    (fun _ _ hp hps => List.forall_mem_cons.2 ⟨hp, hps⟩)
    (fun _ _ hv => hv) (fun _ _ hk hv => ⟨hk, hv⟩) v

section

variable (P : StateValue → Prop)

mutual

/-- The value and all values within it satisfy the condition. -/
def Everywhere : StateValue → Prop
  | list vs => P (list vs) ∧ EverywhereInItems vs
  | map ms => P (map ms) ∧ EverywhereInMembers ms
  | entries ps => P (entries ps) ∧ EverywhereInPairs ps
  | v => P v

/-- The same for the items of a list. -/
def EverywhereInItems : List StateValue → Prop
  | [] => True
  | v :: vs => Everywhere v ∧ EverywhereInItems vs

/-- The same for the members of a map. -/
def EverywhereInMembers : List (String × StateValue) → Prop
  | [] => True
  | (_, v) :: ms => Everywhere v ∧ EverywhereInMembers ms

/-- The same for both sides of pairs. -/
def EverywhereInPairs : List (StateValue × StateValue) → Prop
  | [] => True
  | (k, v) :: ps => (Everywhere k ∧ Everywhere v) ∧ EverywhereInPairs ps

end

variable {P}

theorem everywhere_list {vs : List StateValue} :
    (list vs).Everywhere P ↔ P (list vs) ∧ ∀ v ∈ vs, v.Everywhere P := by
  have hitems : EverywhereInItems P vs ↔ ∀ v ∈ vs, v.Everywhere P := by
    induction vs with
    | nil => simp [EverywhereInItems]
    | cons v vs ih => rw [EverywhereInItems, ih, List.forall_mem_cons]
  rw [Everywhere, hitems]

theorem everywhere_map {ms : List (String × StateValue)} :
    (map ms).Everywhere P ↔ P (map ms) ∧ ∀ m ∈ ms, m.2.Everywhere P := by
  have hmembers : EverywhereInMembers P ms ↔ ∀ m ∈ ms, m.2.Everywhere P := by
    induction ms with
    | nil => simp [EverywhereInMembers]
    | cons m ms ih => rw [EverywhereInMembers, ih, List.forall_mem_cons]
  rw [Everywhere, hmembers]

theorem everywhere_entries {ps : List (StateValue × StateValue)} :
    (entries ps).Everywhere P ↔ P (entries ps) ∧ ∀ p ∈ ps, p.1.Everywhere P ∧ p.2.Everywhere P := by
  have hpairs : EverywhereInPairs P ps ↔ ∀ p ∈ ps, p.1.Everywhere P ∧ p.2.Everywhere P := by
    induction ps with
    | nil => simp [EverywhereInPairs]
    | cons p ps ih => rw [EverywhereInPairs, ih, List.forall_mem_cons]
  rw [Everywhere, hpairs]

end

/-- The keys of a map increase, as the constructor has it. -/
def KeysIncrease : StateValue → Prop
  | map ms => KeyMap.Sorted ms
  | _ => True

/-- The keys of all maps in the value increase. -/
def Ordered (v : StateValue) : Prop :=
  v.Everywhere KeysIncrease

/-- The value is not a finite double. -/
def NotFinite : StateValue → Prop
  | float x => x.isFinite = false
  | _ => True

/-- No finite double occurs in the value. -/
def NoFiniteFloat (v : StateValue) : Prop :=
  v.Everywhere NotFinite

/-- The constructor is the one that reading picks: no `entries`, no `unsigned` within the signed range, no
`list` that holds strings only, also none that is empty, and no double that is not finite. -/
def Picked : StateValue → Prop
  | unsigned n => 0x8000000000000000 ≤ n.toNat
  | float x => x.isFinite = true
  | list vs => ¬ ∀ v ∈ vs, ∃ s, v = string s
  | entries _ => False
  | _ => True

/-- All constructors in the value are those that reading picks. -/
def Normal (v : StateValue) : Prop :=
  v.Everywhere Picked

/-! ### Normal forms -/

mutual

/-- The normal form of a value. -/
def norm : StateValue → StateValue
  | unsigned n => if n.toNat < 0x8000000000000000 then integer (Int64.ofNat n.toNat) else unsigned n
  | float x => if x.isFinite then float x else null
  | list vs => ofItems (normItems vs)
  | map ms => map (normMembers ms)
  | entries ps => if ps.isEmpty then strings [] else list (normPairs ps)
  | v => v

/-- The normal forms of the items of a list. -/
def normItems : List StateValue → List StateValue
  | [] => []
  | v :: vs => norm v :: normItems vs

/-- The members of a map with the normal forms of their values. -/
def normMembers : List (String × StateValue) → List (String × StateValue)
  | [] => []
  | (k, v) :: ms => (k, norm v) :: normMembers ms

/-- The normal forms of pairs, each taken as a list of two. -/
def normPairs : List (StateValue × StateValue) → List StateValue
  | [] => []
  | (a, v) :: ps => ofItems [norm a, norm v] :: normPairs ps

end

/-! ### Items, members and pairs -/

theorem toJsonItems_eq (vs : List StateValue) : toJsonItems vs = vs.map toJson := by
  induction vs with
  | nil => rfl
  | cons v vs ih => rw [toJsonItems, ih, List.map_cons]

theorem toJsonMembers_eq (ms : List (String × StateValue)) :
    toJsonMembers ms = ms.map fun m => (m.1, m.2.toJson) := by
  induction ms with
  | nil => rfl
  | cons m ms ih => rw [toJsonMembers, ih, List.map_cons]

theorem toJsonPairs_eq (ps : List (StateValue × StateValue)) :
    toJsonPairs ps = ps.map fun p => .array [p.1.toJson, p.2.toJson] := by
  induction ps with
  | nil => rfl
  | cons p ps ih => rw [toJsonPairs, ih, List.map_cons]

theorem ofJsonItems_eq (vs : List Json) : ofJsonItems vs = vs.map ofJson := by
  induction vs with
  | nil => rfl
  | cons v vs ih => rw [ofJsonItems, ih, List.map_cons]

theorem ofJsonMembers_eq (ms : List (String × Json)) :
    ofJsonMembers ms = ms.map fun m => (m.1, ofJson m.2) := by
  induction ms with
  | nil => rfl
  | cons m ms ih => rw [ofJsonMembers, ih, List.map_cons]

theorem normItems_eq (vs : List StateValue) : normItems vs = vs.map norm := by
  induction vs with
  | nil => rfl
  | cons v vs ih => rw [normItems, ih, List.map_cons]

theorem normMembers_eq (ms : List (String × StateValue)) :
    normMembers ms = ms.map fun m => (m.1, m.2.norm) := by
  induction ms with
  | nil => rfl
  | cons m ms ih => rw [normMembers, ih, List.map_cons]

theorem normPairs_eq (ps : List (StateValue × StateValue)) :
    normPairs ps = ps.map fun p => ofItems [p.1.norm, p.2.norm] := by
  induction ps with
  | nil => rfl
  | cons p ps ih => rw [normPairs, ih, List.map_cons]

/-! ### Lists of strings -/

theorem allStrings?_eq_some {vs : List StateValue} {texts : List String} :
    allStrings? vs = some texts ↔ vs = texts.map string := by
  induction vs generalizing texts with
  | nil => cases texts <;> simp [allStrings?]
  | cons v vs ih =>
    cases texts with
    | nil => cases v <;> simp [allStrings?, string?, Option.bind_eq_some_iff]
    | cons t texts =>
      cases v with
      | string s =>
        simp only [allStrings?, string?, Option.bind_eq_bind, Option.bind_some, Option.bind_eq_some_iff,
          Option.pure_def, Option.some.injEq, List.cons.injEq, ih, List.map_cons, string.injEq]
        constructor
        · rintro ⟨rest, hrest, rfl, rfl⟩
          exact ⟨rfl, hrest⟩
        · rintro ⟨rfl, hrest⟩
          exact ⟨texts, hrest, rfl, rfl⟩
      | _ => simp [allStrings?, string?]

theorem ofItems_strings (texts : List String) : ofItems (texts.map string) = strings texts := by
  rw [ofItems, allStrings?_eq_some.2 rfl]

theorem ofItems_of_not_strings {vs : List StateValue} (hvs : ¬ ∀ v ∈ vs, ∃ s, v = string s) :
    ofItems vs = list vs := by
  rw [ofItems]
  split
  · next texts htexts =>
    refine absurd ?_ hvs
    rw [allStrings?_eq_some.1 htexts]
    intro v hv
    obtain ⟨t, -, rfl⟩ := List.mem_map.1 hv
    exact ⟨t, rfl⟩
  · rfl

/-- A list is one of strings or it is kept as it is. -/
theorem ofItems_cases (vs : List StateValue) :
    (∃ texts, vs = texts.map string ∧ ofItems vs = strings texts) ∨
      (¬ ∀ v ∈ vs, ∃ s, v = string s) ∧ ofItems vs = list vs := by
  by_cases hvs : ∀ v ∈ vs, ∃ s, v = string s
  · obtain ⟨texts, rfl⟩ : ∃ texts : List String, vs = texts.map string := by
      induction vs with
      | nil => exact ⟨[], rfl⟩
      | cons v vs ih =>
        rw [List.forall_mem_cons] at hvs
        obtain ⟨s, rfl⟩ := hvs.1
        obtain ⟨texts, rfl⟩ := ih hvs.2
        exact ⟨s :: texts, rfl⟩
    exact .inl ⟨texts, rfl, ofItems_strings texts⟩
  · exact .inr ⟨hvs, ofItems_of_not_strings hvs⟩

theorem ofItems_ne_string (vs : List StateValue) (s : String) : ofItems vs ≠ string s := by
  rcases ofItems_cases vs with ⟨texts, -, heq⟩ | ⟨-, heq⟩ <;>
  · rw [heq]
    exact StateValue.noConfusion

/-- A list of pairs is not one of strings. -/
theorem ofItems_normPairs {ps : List (StateValue × StateValue)} (hps : ps.isEmpty = false) :
    ofItems (normPairs ps) = list (normPairs ps) := by
  refine ofItems_of_not_strings fun hstrings => ?_
  cases ps with
  | nil => cases hps
  | cons p ps =>
    obtain ⟨s, hs⟩ := hstrings _ List.mem_cons_self
    exact ofItems_ne_string _ s hs

/-- The normal form of pairs is that of the list of them, each taken as a list of two. -/
theorem norm_entries (ps : List (StateValue × StateValue)) : (entries ps).norm = ofItems (normPairs ps) := by
  rw [norm]
  split
  · next hempty =>
    rw [List.isEmpty_iff.1 hempty]
    rfl
  · next hne => exact (ofItems_normPairs (by simpa using hne)).symm

@[simp]
theorem string?_ofItems (vs : List StateValue) : (ofItems vs).string? = none := by
  rcases ofItems_cases vs with ⟨texts, -, heq⟩ | ⟨-, heq⟩ <;>
  · rw [heq]
    rfl

/-- A value is a string if its normal form is one, which is the same. -/
@[simp]
theorem string?_norm (v : StateValue) : v.norm.string? = v.string? := by
  cases v with
  | unsigned n => rw [norm]; split <;> rfl
  | float x => rw [norm]; split <;> rfl
  | list vs => exact string?_ofItems _
  | entries ps => rw [norm_entries]; exact string?_ofItems _
  | _ => rfl

/-- The constructor for a list does not show in its JSON. -/
theorem toJson_ofItems (vs : List StateValue) : (ofItems vs).toJson = .array (vs.map toJson) := by
  rcases ofItems_cases vs with ⟨texts, rfl, heq⟩ | ⟨-, heq⟩
  · rw [heq, toJson, List.map_map]
    rfl
  · rw [heq, toJson, toJsonItems_eq]

theorem normal_ofItems {vs : List StateValue} (hvs : ∀ v ∈ vs, v.Normal) : (ofItems vs).Normal := by
  rcases ofItems_cases vs with ⟨texts, -, heq⟩ | ⟨hmixed, heq⟩
  · rw [heq]
    trivial
  · rw [heq]
    exact everywhere_list.2 ⟨hmixed, hvs⟩

/-! ### Writing -/

/-- **A value is written as its normal form is.** -/
theorem toJson_norm (v : StateValue) : v.norm.toJson = v.toJson := by
  induction v using nested with
  | null | bool b | integer n | string s | strings ts => rfl
  | unsigned n =>
    rw [norm]
    split
    · next hn =>
      show Json.int (Int64.ofNat n.toNat).toInt = Json.int n.toNat
      rw [Int64.toInt_ofNat_of_lt hn]
    · rfl
  | float x =>
    rw [norm]
    split
    · rfl
    · next hx => rw [toJson, toJson, if_neg hx]
  | list vs ih =>
    rw [norm, toJson_ofItems, toJson, toJsonItems_eq, normItems_eq, List.map_map]
    exact congrArg Json.array (List.map_congr_left ih)
  | map ms ih =>
    rw [norm, toJson, toJson, toJsonMembers_eq, toJsonMembers_eq, normMembers_eq, List.map_map]
    exact congrArg Json.object (List.map_congr_left fun m hm => Prod.ext rfl (ih m hm))
  | entries ps ih =>
    rw [norm_entries, toJson_ofItems, toJson, toJsonPairs_eq, normPairs_eq, List.map_map]
    refine congrArg Json.array (List.map_congr_left fun p hp => ?_)
    show (ofItems [p.1.norm, p.2.norm]).toJson = _
    rw [toJson_ofItems, List.map_cons, List.map_singleton, (ih p hp).1, (ih p hp).2]

/-- The whole numbers of what is written fit 64 bits, and no double is written unless there is a finite
one. -/
theorem exact_toJson {v : StateValue} (hv : v.NoFiniteFloat) : v.toJson.Exact := by
  induction v using nested with
  | null | bool b | string s => trivial
  | integer n =>
    have hlow := n.le_toInt
    have hhigh := n.toInt_lt
    exact ⟨by omega, by omega⟩
  | unsigned n =>
    have hhigh := n.toNat_lt
    exact ⟨by omega, by omega⟩
  | float x =>
    have hx : x.isFinite = false := hv
    rw [toJson, if_neg (by simp [hx])]
    trivial
  | strings ts =>
    rw [toJson]
    refine Json.allNumbers_array.2 fun v hv => ?_
    obtain ⟨t, -, rfl⟩ := List.mem_map.1 hv
    trivial
  | list vs ih =>
    rw [toJson, toJsonItems_eq]
    refine Json.allNumbers_array.2 fun w hw => ?_
    obtain ⟨v, hmem, rfl⟩ := List.mem_map.1 hw
    exact ih v hmem ((everywhere_list.1 hv).2 v hmem)
  | map ms ih =>
    rw [toJson, toJsonMembers_eq]
    refine Json.allNumbers_object.2 fun w hw => ?_
    obtain ⟨m, hmem, rfl⟩ := List.mem_map.1 hw
    exact ih m hmem ((everywhere_map.1 hv).2 m hmem)
  | entries ps ih =>
    rw [toJson, toJsonPairs_eq]
    refine Json.allNumbers_array.2 fun w hw => ?_
    obtain ⟨p, hmem, rfl⟩ := List.mem_map.1 hw
    obtain ⟨hkey, hvalue⟩ := (everywhere_entries.1 hv).2 p hmem
    obtain ⟨ihkey, ihvalue⟩ := ih p hmem
    exact Json.allNumbers_array.2
      (List.forall_mem_cons.2 ⟨ihkey hkey, List.forall_mem_singleton.2 (ihvalue hvalue)⟩)

/-! ### Reading what is written -/

theorem ofJson_int_toNat (n : UInt64) :
    ofJson (.int n.toNat) =
      if n.toNat < 0x8000000000000000 then integer (Int64.ofNat n.toNat) else unsigned n := by
  rw [ofJson, ofInt]
  by_cases hn : n.toNat < 0x8000000000000000
  · rw [if_pos (by omega), if_pos hn]
    rfl
  · rw [if_neg (by omega), if_neg hn, Int.toNat_natCast, UInt64.ofNat_toNat]

/-- **What a value is written as is read as its normal form.** -/
theorem ofJson_toJson {v : StateValue} (hv : v.Ordered) : ofJson v.toJson = v.norm := by
  induction v using nested with
  | null | bool b | string s => rfl
  | integer n =>
    have hhigh := n.toInt_lt
    rw [toJson, ofJson, ofInt, if_pos (by omega), Int64.ofInt_toInt]
    rfl
  | unsigned n =>
    rw [toJson, norm]
    exact ofJson_int_toNat n
  | float x =>
    rw [toJson, norm]
    split <;> rfl
  | strings ts =>
    rw [toJson, ofJson, ofJsonItems_eq, List.map_map]
    exact ofItems_strings ts
  | list vs ih =>
    rw [toJson, ofJson, ofJsonItems_eq, toJsonItems_eq, norm, normItems_eq, List.map_map]
    exact congrArg ofItems (List.map_congr_left fun v hmem => ih v hmem ((everywhere_list.1 hv).2 v hmem))
  | map ms ih =>
    obtain ⟨hsorted, hms⟩ := everywhere_map.1 hv
    have hvalues : (ms.map fun m => (m.1, m.2.toJson)).map (fun m => (m.1, ofJson m.2)) =
        ms.map fun m => (m.1, m.2.norm) := by
      rw [List.map_map]
      exact List.map_congr_left fun m hmem => Prod.ext rfl (ih m hmem (hms m hmem))
    rw [toJson, ofJson, ofJsonMembers_eq, toJsonMembers_eq, norm, normMembers_eq, hvalues]
    exact congrArg map (KeyMap.ofList_of_sorted (KeyMap.Sorted.map hsorted norm))
  | entries ps ih =>
    have hps := (everywhere_entries.1 hv).2
    have hpairs : (ps.map fun p => Json.array [p.1.toJson, p.2.toJson]).map ofJson = normPairs ps := by
      rw [normPairs_eq, List.map_map]
      refine List.map_congr_left fun p hmem => ?_
      show ofItems [ofJson p.1.toJson, ofJson p.2.toJson] = _
      rw [(ih p hmem).1 (hps p hmem).1, (ih p hmem).2 (hps p hmem).2]
    rw [toJson, ofJson, ofJsonItems_eq, toJsonPairs_eq, hpairs, norm_entries]

/-- **What is read from sound JSON is normal.** -/
theorem normal_ofJson {j : Json} (hj : j.Sound) : (ofJson j).Normal := by
  induction j using Json.nested with
  | null | bool b | string s => trivial
  | int n =>
    rw [ofJson, ofInt]
    split
    · trivial
    · next hn =>
      obtain ⟨-, hhigh⟩ := hj
      show 0x8000000000000000 ≤ (UInt64.ofNat n.toNat).toNat
      rw [UInt64.toNat_ofNat']
      omega
  | float x => exact hj
  | array vs ih =>
    rw [ofJson, ofJsonItems_eq]
    refine normal_ofItems fun w hw => ?_
    obtain ⟨v, hmem, rfl⟩ := List.mem_map.1 hw
    exact ih v hmem (Json.allNumbers_array.1 hj v hmem)
  | object ms ih =>
    rw [ofJson, ofJsonMembers_eq]
    refine everywhere_map.2 ⟨trivial, KeyMap.forall_mem_ofList fun w hw => ?_⟩
    obtain ⟨m, hmem, rfl⟩ := List.mem_map.1 hw
    exact ih m hmem (Json.allNumbers_object.1 hj m hmem)

/-- The maps that are read are in order. -/
theorem ordered_ofJson (j : Json) : (ofJson j).Ordered := by
  induction j using Json.nested with
  | null | bool b | string s | float x => trivial
  | int n =>
    rw [ofJson, ofInt]
    split <;> trivial
  | array vs ih =>
    rw [ofJson, ofJsonItems_eq]
    rcases ofItems_cases (vs.map ofJson) with ⟨texts, -, heq⟩ | ⟨-, heq⟩
    · rw [heq]
      trivial
    · rw [heq]
      refine everywhere_list.2 ⟨trivial, fun w hw => ?_⟩
      obtain ⟨v, hmem, rfl⟩ := List.mem_map.1 hw
      exact ih v hmem
  | object ms ih =>
    rw [ofJson, ofJsonMembers_eq]
    refine everywhere_map.2 ⟨KeyMap.sorted_ofList _, KeyMap.forall_mem_ofList fun w hw => ?_⟩
    obtain ⟨m, hmem, rfl⟩ := List.mem_map.1 hw
    exact ih m hmem

/-- What is read from JSON is written no deeper. -/
theorem depth_toJson_ofJson_le (j : Json) : (ofJson j).toJson.depth ≤ j.depth := by
  induction j using Json.nested with
  | null | bool b | string s => exact Nat.le_refl _
  | int n =>
    rw [ofJson, ofInt]
    split <;> exact Nat.le_refl _
  | float x =>
    rw [ofJson, toJson]
    split <;> exact Nat.le_refl _
  | array vs ih =>
    rw [ofJson, ofJsonItems_eq, toJson_ofItems]
    refine Json.depth_array_le.2 fun w hw => ?_
    rw [List.map_map] at hw
    obtain ⟨v, hmem, rfl⟩ := List.mem_map.1 hw
    exact Nat.le_trans (ih v hmem) (Json.depthOfItems_le.1 (Nat.le_refl _) v hmem)
  | object ms ih =>
    rw [ofJson, toJson, toJsonMembers_eq, ofJsonMembers_eq]
    refine Json.depth_object_le.2 fun w hw => ?_
    obtain ⟨m, hmem, rfl⟩ := List.mem_map.1 hw
    have hall : ∀ p ∈ KeyMap.ofList (ms.map fun m => (m.1, ofJson m.2)),
        p.2.toJson.depth ≤ Json.depthOfMembers ms := by
      refine KeyMap.forall_mem_ofList fun p hp => ?_
      obtain ⟨m, hmem, rfl⟩ := List.mem_map.1 hp
      exact Nat.le_trans (ih m hmem) (Json.depthOfMembers_le.1 (Nat.le_refl _) m hmem)
    exact hall m hmem

/-! ### Normal values -/

/-- A normal value is its normal form. -/
theorem Normal.norm_eq {v : StateValue} (hv : v.Normal) : v.norm = v := by
  induction v using nested with
  | null | bool b | integer n | string s | strings ts => rfl
  | unsigned n =>
    have hn : 0x8000000000000000 ≤ n.toNat := hv
    rw [norm, if_neg (by omega)]
  | float x =>
    have hx : x.isFinite = true := hv
    rw [norm, if_pos hx]
  | list vs ih =>
    obtain ⟨hmixed, hvs⟩ := everywhere_list.1 hv
    have hself : vs.map norm = vs.map id := List.map_congr_left fun v hmem => ih v hmem (hvs v hmem)
    rw [norm, normItems_eq, hself, List.map_id, ofItems_of_not_strings hmixed]
  | map ms ih =>
    have hself : (ms.map fun m => (m.1, m.2.norm)) = ms.map id :=
      List.map_congr_left fun m hmem => Prod.ext rfl (ih m hmem ((everywhere_map.1 hv).2 m hmem))
    rw [norm, normMembers_eq, hself, List.map_id]
  | entries ps ih => exact absurd (everywhere_entries.1 hv).1 id

/-- A normal form is normal. -/
theorem normal_norm (v : StateValue) : v.norm.Normal := by
  induction v using nested with
  | null | bool b | integer n | string s | strings ts => trivial
  | unsigned n =>
    rw [norm]
    split
    · trivial
    · next hn => exact Nat.le_of_not_lt hn
  | float x =>
    rw [norm]
    split
    · next hx => exact hx
    · trivial
  | list vs ih =>
    rw [norm, normItems_eq]
    refine normal_ofItems fun w hw => ?_
    obtain ⟨v, hmem, rfl⟩ := List.mem_map.1 hw
    exact ih v hmem
  | map ms ih =>
    rw [norm, normMembers_eq]
    refine everywhere_map.2 ⟨trivial, fun w hw => ?_⟩
    obtain ⟨m, hmem, rfl⟩ := List.mem_map.1 hw
    exact ih m hmem
  | entries ps ih =>
    rw [norm_entries, normPairs_eq]
    refine normal_ofItems fun w hw => ?_
    obtain ⟨p, hmem, rfl⟩ := List.mem_map.1 hw
    obtain ⟨hkey, hvalue⟩ := ih p hmem
    exact normal_ofItems (List.forall_mem_cons.2 ⟨hkey, List.forall_mem_singleton.2 hvalue⟩)

end ImagePush.StateValue
