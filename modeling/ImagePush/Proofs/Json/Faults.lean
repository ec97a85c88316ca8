import ImagePush.Proofs.Json.Reads

/-!
# Faults inside a text

The first piece of an array or an object that cannot be read is the fault of the whole: if the pieces in front of it
are read, then the array or the object fails for the cause for which the piece fails (`items_fail`, `members_fail`), and
so does the text (`ofText_fails`).
-/

namespace ImagePush.Json

/-- Reading fails for the cause. -/
def FailsFor {α : Type} (cause : Cause) (x : Except Fault α) : Prop :=
  ∃ f, x = .error f ∧ f.cause = cause

section

variable {α β : Type} {cause : Cause}

theorem FailsFor.map {x : Except Fault α} (hx : FailsFor cause x) (g : α → β) : FailsFor cause (x.map g) := by
  obtain ⟨f, rfl, hf⟩ := hx
  exact ⟨f, rfl, hf⟩

/-- A whole text fails for the cause for which the value in it fails. -/
theorem ofText_fails {read : List Char → Reading α} {text : List Char} (hread : FailsFor cause (read text)) :
    ∃ e, ofText read text = .error e ∧ e.cause = cause := by
  obtain ⟨f, hfault, hf⟩ := hread
  refine ⟨f.locate text, ?_, hf⟩
  rw [ofText, hfault]
  rfl

end

/-! ### Arrays -/

section

variable {κ α : Type} {m : Manner κ} {item : List Char → Reading α} {cause : Cause}

/-- A piece fails as an item wherever it stands. -/
def FailsItem (item : List Char → Reading α) (cause : Cause) (p : List Char) : Prop :=
  BeginsItem p ∧ ∀ rest, Ends rest → FailsFor cause (item (p ++ rest))

theorem moreItems_fail {before after : List (List Char)} {vs : List α} {p : List Char}
    (hbefore : List.Forall₂ (ReadsItem item) before vs) (hp : FailsItem item cause p) :
    ∀ {fuel : Nat} {t : List Char} (acc : List α) (rest : List Char), Listed ']' (before ++ p :: after) t →
      before.length < fuel → FailsFor cause (moreItems m item fuel acc (t ++ rest)) := by
  induction hbefore with
  | nil =>
    intro fuel t acc rest ht hfuel
    obtain ⟨fuel, rfl⟩ := Nat.exists_eq_succ_of_ne_zero (Nat.ne_of_gt hfuel)
    obtain ⟨b, b', u, hb, hb', hu, rfl⟩ := ht
    obtain ⟨f, hitem, hf⟩ := hp.2 _ (hu.ends (.inl rfl) rest)
    refine ⟨f, ?_, hf⟩
    rw [List.append_assoc, List.cons_append, List.append_assoc, List.append_assoc, moreItems_comma hb hb' hp.1, hitem]
  | cons hq _ ih =>
    intro fuel t acc rest ht hfuel
    obtain ⟨fuel, rfl⟩ := Nat.exists_eq_succ_of_ne_zero (Nat.ne_of_gt (Nat.zero_lt_of_lt hfuel))
    obtain ⟨b, b', u, hb, hb', hu, rfl⟩ := ht
    rw [List.append_assoc, List.cons_append, List.append_assoc, List.append_assoc, moreItems_comma hb hb' hq.1,
      hq.2 _ (hu.ends (.inl rfl) rest)]
    exact ih _ rest hu (by simpa using hfuel)

/-- **An array fails for the cause for which its first piece fails that is not read.** -/
theorem items_fail {before after : List (List Char)} {vs : List α} {p : List Char}
    (hbefore : List.Forall₂ (ReadsItem item) before vs) (hp : FailsItem item cause p) {t : List Char}
    (ht : Enclosed ']' (before ++ p :: after) t) (rest : List Char) :
    FailsFor cause (items m item (t ++ rest)) := by
  cases hbefore with
  | nil =>
    obtain ⟨b, u, hb, hu, rfl⟩ := ht
    obtain ⟨f, hitem, hf⟩ := hp.2 _ (hu.ends (.inl rfl) rest)
    refine ⟨f, ?_, hf⟩
    rw [List.append_assoc, List.append_assoc, items_first hb hp.1, hitem]
  | @cons _ _ qs _ hq hqs =>
    rw [List.cons_append] at ht
    obtain ⟨b, u, hb, hu, rfl⟩ := ht
    have hlength := hu.length_lt
    rw [List.append_assoc, List.append_assoc, items_first hb hq.1, hq.2 _ (hu.ends (.inl rfl) rest)]
    refine moreItems_fail hqs hp _ rest hu ?_
    simp only [List.length_append] at hlength ⊢
    omega

end

/-! ### Objects -/

section

variable {κ σ : Type} {m : Manner κ} {member : σ → κ → List Char → Reading σ} {cause : Cause}

/-- A piece fails as a member wherever it stands. -/
def FailsMember (m : Manner κ) (member : σ → κ → List Char → Reading σ) (cause : Cause) (state : σ)
    (p : List Char) : Prop :=
  ∃ q, p = '"' :: q ∧ ∀ rest, Ends rest → FailsFor cause (keyed m member state (q ++ rest))

theorem moreMembers_fail {before after : List (List Char)} {state next : σ} {p : List Char}
    (hbefore : Through (ReadsMember m member) before state next) (hp : FailsMember m member cause next p) :
    ∀ {fuel : Nat} {t : List Char} (rest : List Char), Listed '\x7d' (before ++ p :: after) t →
      before.length < fuel → FailsFor cause (moreMembers m member fuel state (t ++ rest)) := by
  induction hbefore with
  | nil =>
    intro fuel t rest ht hfuel
    obtain ⟨fuel, rfl⟩ := Nat.exists_eq_succ_of_ne_zero (Nat.ne_of_gt hfuel)
    obtain ⟨b, b', u, hb, hb', hu, rfl⟩ := ht
    obtain ⟨q, rfl, hq⟩ := hp
    obtain ⟨f, hmember, hf⟩ := hq _ (hu.ends (.inr rfl) rest)
    refine ⟨f, ?_, hf⟩
    rw [List.append_assoc, List.cons_append, List.append_assoc, List.append_assoc, List.cons_append,
      moreMembers_comma hb hb', hmember]
  | cons hq _ ih =>
    intro fuel t rest ht hfuel
    obtain ⟨fuel, rfl⟩ := Nat.exists_eq_succ_of_ne_zero (Nat.ne_of_gt (Nat.zero_lt_of_lt hfuel))
    obtain ⟨b, b', u, hb, hb', hu, rfl⟩ := ht
    obtain ⟨q, rfl, hmember⟩ := hq
    rw [List.append_assoc, List.cons_append, List.append_assoc, List.append_assoc, List.cons_append,
      moreMembers_comma hb hb', hmember _ (hu.ends (.inr rfl) rest)]
    exact ih hp rest hu (by simpa using hfuel)

/-- **An object fails for the cause for which its first member fails that is not read.** -/
theorem members_fail {before after : List (List Char)} {state next : σ} {p : List Char}
    (hbefore : Through (ReadsMember m member) before state next) (hp : FailsMember m member cause next p)
    {t : List Char} (ht : Enclosed '\x7d' (before ++ p :: after) t) (rest : List Char) :
    FailsFor cause (members m member state (t ++ rest)) := by
  cases hbefore with
  | nil =>
    obtain ⟨b, u, hb, hu, rfl⟩ := ht
    obtain ⟨q, rfl, hq⟩ := hp
    obtain ⟨f, hmember, hf⟩ := hq _ (hu.ends (.inr rfl) rest)
    refine ⟨f, ?_, hf⟩
    rw [List.append_assoc, List.append_assoc, List.cons_append, members_first hb, hmember]
  | cons hq hqs =>
    rw [List.cons_append] at ht
    obtain ⟨b, u, hb, hu, rfl⟩ := ht
    obtain ⟨q, rfl, hmember⟩ := hq
    have hlength := hu.length_lt
    rw [List.append_assoc, List.append_assoc, List.cons_append, members_first hb,
      hmember _ (hu.ends (.inr rfl) rest)]
    refine moreMembers_fail hqs hp rest hu ?_
    simp only [List.length_append] at hlength ⊢
    omega

/-- A member fails for the cause for which what stands behind its key fails. -/
theorem failsMember_of_text {Key : κ → List Char → Prop} (hkey : ReadsKey m Key) {state : σ} {key : κ}
    {value p : List Char} (hp : MemberText (Key key) value p)
    (hvalue : ∀ b b' rest, Blanks b → Blanks b' → Ends rest →
      FailsFor cause (member state key (b ++ ':' :: (b' ++ (value ++ rest))))) :
    FailsMember m member cause state p := by
  obtain @⟨k, b, b', hk, hb, hb'⟩ := hp
  refine ⟨_, rfl, fun rest hends => ?_⟩
  have hread : m.key (k ++ '"' :: (b ++ ':' :: (b' ++ (value ++ rest)))) =
      .ok (key, b ++ ':' :: (b' ++ (value ++ rest))) := hkey.2 ⟨k, hk, rfl⟩
  simp only [List.append_assoc, List.cons_append, keyed, hread]
  exact hvalue b b' rest hb hb' hends

end

end ImagePush.Json
