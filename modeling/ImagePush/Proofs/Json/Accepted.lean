import ImagePush.Proofs.Json.Values
import ImagePush.Proofs.Number.Finite

/-!
# Accepted texts

Whatever text is read, the value is nested as deep as allowed at most, its whole numbers fit 64 bits and its
doubles are finite (`readValue_accepted`). What holds of everything that `items` and `members` take from a
text is an invariant of taking one thing.
-/

namespace ImagePush.Json

/-! ### Numbers -/

/-- Scaling a finite double gives a finite one. -/
theorem isFinite_scale {x y : Double} {exponent : Int} (hscale : scale x exponent = some y)
    (hx : x.isFinite = true) : y.isFinite = true := by
  induction x, exponent using scale.induct with
  | case1 x exponent hsmall hpos z hinfinite =>
    rw [scale, if_pos hsmall, if_pos hpos] at hscale
    simp [z, hinfinite] at hscale
  | case2 x exponent hsmall hpos z hfinite =>
    rw [scale, if_pos hsmall, if_pos hpos, if_neg hfinite] at hscale
    cases hscale
    have hle : z.unsignedBits ≤ Double.infinityBits := Double.unsignedBits_ofRatio_le _ _
    have hne : z.unsignedBits ≠ Double.infinityBits := by simpa [Double.isInfinite] using hfinite
    show decide (z.unsignedBits < Double.infinityBits) = true
    rw [decide_eq_true_eq]
    omega
  | case3 x exponent hsmall hneg =>
    rw [scale, if_pos hsmall, if_neg hneg] at hscale
    cases hscale
    exact Double.isFinite_divide_powerOfTen hx (by omega) (by omega)
  | case4 x exponent hlarge hzero =>
    rw [scale, if_neg hlarge, if_pos hzero] at hscale
    cases hscale
    exact hx
  | case5 x exponent hlarge hzero hpos =>
    rw [scale, if_neg hlarge, if_neg hzero, if_pos hpos] at hscale
    cases hscale
  | case6 x exponent hlarge hzero hneg ih =>
    rw [scale, if_neg hlarge, if_neg hzero, if_neg hneg] at hscale
    exact ih hscale (Double.isFinite_divide_powerOfTen hx (by omega) (by omega))

/-- A whole number that fits 64 bits, or a finite double. -/
inductive SoundNumber : Json → Prop
  | int {n : Int} (hn : Fits n) : SoundNumber (int n)
  | float {x : Double} (hx : x.isFinite = true) : SoundNumber (float x)

theorem SoundNumber.sound {v : Json} (hv : SoundNumber v) : v.Sound := by
  cases hv with
  | int hn => exact hn
  | float hx => exact hx

theorem SoundNumber.depth_eq {v : Json} (hv : SoundNumber v) : v.depth = 0 := by
  cases hv <;> rfl

theorem sound_signed {x : Double} (hx : x.isFinite = true) (negative : Bool) :
    SoundNumber (float (signed negative x)) := by
  cases negative with
  | false => exact .float hx
  | true => exact .float ((Double.isFinite_neg x).trans hx)

theorem gather_le {limit n : Nat} (hn : n ≤ limit) (s : List Char) : (gather limit n s).1 ≤ limit := by
  induction s generalizing n with
  | nil => exact hn
  | cons c s ih =>
    rw [gather]
    split
    · next hc => exact ih hc.2
    · exact hn

variable {negative : Bool} {significand : Nat} {base : Int} {s r : List Char} {v : Json}

theorem sound_of_readFloat (hword : significand ≤ maxWord)
    (hread : readFloat negative significand base s = .ok (v, r)) : SoundNumber v := by
  rw [readFloat] at hread
  split at hread
  · next x hscale =>
    cases hread
    refine sound_signed (isFinite_scale hscale (Double.isFinite_ofNat ?_)) negative
    exact Nat.lt_of_le_of_lt hword (by decide)
  · cases hread

theorem sound_of_exponentPart (hword : significand ≤ maxWord)
    (hread : exponentPart negative significand base s = .ok (v, r)) : SoundNumber v := by
  unfold exponentPart at hread
  split at hread
  split at hread
  · cases hread
  · split at hread
    · cases hread
    · simp only at hread
      split at hread
      · split at hread
        · cases hread
        · cases hread
          exact sound_signed (by decide) negative
      · exact sound_of_readFloat hword hread

theorem sound_of_exponentOrEnd (hword : significand ≤ maxWord)
    (hread : exponentOrEnd negative significand base s = .ok (v, r)) : SoundNumber v := by
  unfold exponentOrEnd at hread
  split at hread
  · exact sound_of_readFloat hword hread
  · split at hread
    · exact sound_of_exponentPart hword hread
    · exact sound_of_readFloat hword hread

theorem sound_of_fraction (hword : significand ≤ maxWord)
    (hread : fraction negative significand base s = .ok (v, r)) : SoundNumber v := by
  have hgathered := gather_le hword s
  unfold fraction at hread
  simp only at hread
  split at hread
  · exact sound_of_exponentOrEnd hgathered hread
  · split at hread
    · split at hread <;> cases hread
    · exact sound_of_exponentOrEnd hgathered hread

theorem sound_whole {n : Nat} (hword : n ≤ maxWord) (negative : Bool) : SoundNumber (whole negative n) := by
  unfold maxWord at hword
  unfold whole
  split
  · refine .int ⟨?_, ?_⟩ <;> omega
  · split
    · refine .int ⟨?_, ?_⟩ <;> omega
    · refine .float ((Double.isFinite_neg _).trans (Double.isFinite_ofNat ?_))
      omega

theorem sound_of_afterWhole (hword : significand ≤ maxWord)
    (hread : afterWhole negative significand s = .ok (v, r)) : SoundNumber v := by
  unfold afterWhole at hread
  simp only at hread
  split at hread
  · exact sound_of_fraction hword hread
  · exact sound_of_exponentPart hword hread
  · exact sound_of_exponentPart hword hread
  · split at hread
    · cases hread
      exact sound_whole hword negative
    · exact sound_of_readFloat hword hread

theorem sound_of_readNumber (hread : readNumber negative s = .ok (v, r)) : SoundNumber v := by
  cases s with
  | nil => cases hread
  | cons c s =>
    rw [readNumber] at hread
    split at hread
    · split at hread
      · cases hread
      · exact sound_of_afterWhole (Nat.zero_le _) hread
    · split at hread
      · have hgathered : (gather maxWord 0 (c :: s)).1 ≤ maxWord := gather_le (Nat.zero_le _) _
        exact sound_of_afterWhole hgathered hread
      · cases hread

/-! ### Arrays and objects -/

section

variable {κ α σ : Type} {m : Manner κ}

theorem forall_of_moreItems {item : List Char → Reading α} {P : α → Prop}
    (hitem : ∀ s v r, item s = .ok (v, r) → P v) (fuel : Nat) :
    ∀ {acc vs : List α} {s r : List Char}, (∀ v ∈ acc, P v) → moreItems m item fuel acc s = .ok (vs, r) →
      ∀ v ∈ vs, P v := by
  induction fuel with
  | zero =>
    intro acc vs s r _ hread
    cases hread
  | succ fuel ih =>
    intro acc vs s r hacc hread
    rcases moreItems_cases hread with ⟨b, -, -, rfl⟩ | ⟨b, b', u, v, s', -, -, -, hv, hread⟩
    · simpa using hacc
    · exact ih (List.forall_mem_cons.2 ⟨hitem _ v s' hv, hacc⟩) hread

/-- What holds of every item that is read holds of the items of an array. -/
theorem forall_of_items {item : List Char → Reading α} {P : α → Prop}
    (hitem : ∀ s v r, item s = .ok (v, r) → P v) {vs : List α} {s r : List Char}
    (hread : items m item s = .ok (vs, r)) : ∀ v ∈ vs, P v := by
  rcases items_cases hread with ⟨b, -, -, rfl⟩ | ⟨b, u, v, s', -, -, hv, hread⟩
  · simp
  · exact forall_of_moreItems hitem _ (by simpa using hitem _ v s' hv) hread

/-- A member with its key preserves what members preserve. -/
theorem invariant_of_keyed {member : σ → κ → List Char → Reading σ} {P : σ → Prop}
    (hmember : ∀ state key s next r, P state → member state key s = .ok (next, r) → P next) {state next : σ}
    {s r : List Char} (hstate : P state) (hread : keyed m member state s = .ok (next, r)) : P next := by
  unfold keyed at hread
  split at hread
  · cases hread
  · exact hmember _ _ _ _ _ hstate hread

theorem invariant_of_moreMembers {member : σ → κ → List Char → Reading σ} {P : σ → Prop}
    (hmember : ∀ state key s next r, P state → member state key s = .ok (next, r) → P next) (fuel : Nat) :
    ∀ {state final : σ} {s r : List Char}, P state → moreMembers m member fuel state s = .ok (final, r) →
      P final := by
  induction fuel with
  | zero =>
    intro state final s r _ hread
    cases hread
  | succ fuel ih =>
    intro state final s r hstate hread
    rcases moreMembers_cases hread with ⟨b, -, -, rfl⟩ | ⟨b, b', q, next, s', -, -, -, hnext, hread⟩
    · exact hstate
    · exact ih (invariant_of_keyed hmember hstate hnext) hread

/-- What every member preserves holds of the state behind an object. -/
theorem invariant_of_members {member : σ → κ → List Char → Reading σ} {P : σ → Prop}
    (hmember : ∀ state key s next r, P state → member state key s = .ok (next, r) → P next)
    {state final : σ} {s r : List Char} (hstate : P state)
    (hread : members m member state s = .ok (final, r)) :
    P final := by
  rcases members_cases hread with ⟨b, -, -, rfl⟩ | ⟨b, q, next, s', -, -, hnext, hread⟩
  · exact hstate
  · exact invariant_of_moreMembers hmember _ (invariant_of_keyed hmember hstate hnext) hread

end

/-- A value that is not of the expected type is never taken. -/
theorem refuse_ne_ok {α : Type} {expected : Expected} {s : List Char} {v : α} :
    refuse expected s ≠ .ok v := by
  have hbind : ∀ {β : Type} {x : Except Fault β} {f : β → Except Fault α}, (∀ b, f b ≠ .ok v) →
      x >>= f ≠ .ok v := by
    intro β x f hf hread
    obtain ⟨b, -, hb⟩ := bind_eq_ok.1 hread
    exact hf b hb
  have hfault : ∀ {fault : Fault}, (Except.error fault : Except Fault α) ≠ .ok v := by
    intro fault hread
    cases hread
  unfold refuse
  simp only
  split
  · exact hfault
  · split_ifs <;> first | exact hfault | exact hbind fun _ => hfault

/-- What holds of the state before an object and is preserved by its members holds of the state after it, if
the text is that of an object at all. -/
theorem invariant_of_readMembers {σ : Type} {member : σ → String → List Char → Reading σ} {P : σ → Prop}
    (hmember : ∀ state key s next r, P state → member state key s = .ok (next, r) → P next)
    {expected : Expected} {state final : σ} {s r : List Char} (hstate : P state)
    (hread : readMembers expected member state s = .ok (final, r)) : P final := by
  unfold readMembers at hread
  split at hread
  · cases hread
  · split at hread
    · exact invariant_of_members hmember hstate hread
    · exact absurd hread refuse_ne_ok

/-! ### Values -/

/-- Taking a pair preserves what holds of all pairs so far, if it holds of every value that is read. -/
theorem forall_of_pairWith {α : Type} {read : List Char → Reading α} {P : α → Prop}
    (hread : ∀ s v r, read s = .ok (v, r) → P v) {acc next : List (String × α)} {key : String}
    {s r : List Char} (hacc : ∀ p ∈ acc, P p.2) (hpair : pairWith read acc key s = .ok (next, r)) :
    ∀ p ∈ next, P p.2 := by
  rw [pairWith] at hpair
  split at hpair
  · cases hpair
  · next s' _ =>
    obtain ⟨⟨v, s''⟩, hv, heq⟩ := map_eq_ok.1 hpair
    cases heq
    exact List.forall_mem_cons.2 ⟨hread _ v r hv, hacc⟩

/-- **Every value that is read is nested as deep as allowed at most, its whole numbers fit 64 bits and its
doubles are finite.** -/
theorem readValue_accepted (depth : Nat) :
    ∀ {s r : List Char} {v : Json}, readValue depth s = .ok (v, r) → v.depth ≤ depth ∧ v.Sound := by
  induction depth using Nat.strongRecOn with
  | ind depth ih =>
    intro s r v hread
    cases readAs_of_readValue hread with
    | null | bool | string => exact ⟨Nat.zero_le _, trivial⟩
    | number hnumber =>
      have hsound := sound_of_readNumber hnumber
      exact ⟨by rw [hsound.depth_eq]; exact Nat.zero_le _, hsound.sound⟩
    | @array d vs s' hitems =>
      have hall := forall_of_items (fun s v r => ih d (Nat.lt_succ_self d)) hitems
      exact ⟨depth_array_le.2 fun v hv => (hall v hv).1, allNumbers_array.2 fun v hv => (hall v hv).2⟩
    | @object d ms s' hmembers =>
      have hall : ∀ m ∈ ms, m.2.depth ≤ d ∧ m.2.Sound :=
        invariant_of_members (P := fun ms => ∀ m ∈ ms, m.2.depth ≤ d ∧ m.2.Sound)
          (fun acc key s next r => forall_of_pairWith fun s v r => ih d (Nat.lt_succ_self d))
          (by simp) hmembers
      exact ⟨depth_object_le.2 fun m hm => (hall m (List.mem_reverse.1 hm)).1,
        allNumbers_object.2 fun m hm => (hall m (List.mem_reverse.1 hm)).2⟩

/-- The same for the value of a whole text. -/
theorem parse_accepted {text : List Char} {v : Json} (hparse : parse text = .ok v) :
    v.depth ≤ maxDepth ∧ v.Sound := by
  obtain ⟨s, hread, -⟩ := ofText_eq_ok.1 hparse
  exact readValue_accepted maxDepth hread

end ImagePush.Json
