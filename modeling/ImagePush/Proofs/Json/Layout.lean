import ImagePush.Proofs.Json.Tokens
import Mathlib.Data.List.Forall2

/-!
# Layouts of arrays and objects

An array or an object is laid out as the texts of its items or members, its pieces, with commas between them
and any blanks around them (`Enclosed`, `Listed`). `items` and `members` read every layout whose pieces are
read, and stop right behind it. Where they succeed on a layout whose pieces stop where they end, they do so
too.
-/

namespace ImagePush.Json

/-! ### Blanks -/

/-- A text of blanks. -/
def Blanks (b : List Char) : Prop :=
  ∀ c ∈ b, isBlank c = true

theorem blanks_nil : Blanks [] := by simp [Blanks]

theorem skipBlanks_append {b : List Char} (hb : Blanks b) (s : List Char) :
    skipBlanks (b ++ s) = skipBlanks s := by
  induction b with
  | nil => rfl
  | cons c b ih =>
    have hc : isBlank c = true := hb c List.mem_cons_self
    rw [List.cons_append, skipBlanks, List.dropWhile_cons_of_pos hc]
    exact ih fun d hd => hb d (List.mem_cons_of_mem c hd)

theorem skipBlanks_cons {c : Char} (hc : isBlank c = false) (s : List Char) :
    skipBlanks (c :: s) = c :: s := by
  rw [skipBlanks, List.dropWhile_cons_of_neg (by simp [hc])]

theorem skipBlanks_blanks_cons {b : List Char} (hb : Blanks b) {c : Char} (hc : isBlank c = false)
    (s : List Char) : skipBlanks (b ++ c :: s) = c :: s := by
  rw [skipBlanks_append hb, skipBlanks_cons hc]

/-- The blanks that are skipped. -/
theorem exists_blanks (s : List Char) : ∃ b, Blanks b ∧ s = b ++ skipBlanks s :=
  ⟨s.takeWhile isBlank, List.all_eq_true.1 List.all_takeWhile, List.takeWhile_append_dropWhile.symm⟩

theorem isBlank_of_skipBlanks {s r : List Char} {c : Char} (hs : skipBlanks s = c :: r) : isBlank c = false := by
  induction s with
  | nil => cases hs
  | cons d s ih =>
    rw [skipBlanks, List.dropWhile_cons] at hs
    split at hs
    · exact ih hs
    · next hd =>
      cases hs
      simpa using hd

theorem isBlank_eq_true {c : Char} (hc : isBlank c = true) : c = ' ' ∨ c = '\t' ∨ c = '\n' ∨ c = '\r' := by
  simpa [isBlank, or_assoc] using hc

/-- Blanks do not go on with a number. -/
theorem Ends.blanks_append {b s : List Char} (hb : Blanks b) (hends : Ends s) : Ends (b ++ s) := by
  cases b with
  | nil => exact hends
  | cons c b =>
    rcases isBlank_eq_true (hb c List.mem_cons_self) with rfl | rfl | rfl | rfl <;>
      exact ends_cons _ (by decide) (by decide) (by decide) (by decide)

theorem ends_comma (s : List Char) : Ends (',' :: s) :=
  ends_cons s (by decide) (by decide) (by decide) (by decide)

/-! ### Layouts -/

/-- The closing marks. -/
def IsClose (close : Char) : Prop :=
  close = ']' ∨ close = '\x7d'

theorem IsClose.ends {close : Char} (hclose : IsClose close) (s : List Char) : Ends (close :: s) := by
  rcases hclose with rfl | rfl <;> exact ends_cons s (by decide) (by decide) (by decide) (by decide)

/-- The text behind a piece: the pieces that follow, each behind a comma, and the closing mark. -/
def Listed (close : Char) : List (List Char) → List Char → Prop
  | [], t => ∃ b, Blanks b ∧ t = b ++ [close]
  | p :: ps, t => ∃ b b' u, Blanks b ∧ Blanks b' ∧ Listed close ps u ∧ t = b ++ ',' :: (b' ++ (p ++ u))

/-- The text behind the opening mark: the pieces with commas between them, and the closing mark. -/
def Enclosed (close : Char) : List (List Char) → List Char → Prop
  | [], t => ∃ b, Blanks b ∧ t = b ++ [close]
  | p :: ps, t => ∃ b u, Blanks b ∧ Listed close ps u ∧ t = b ++ (p ++ u)

/-- What stands behind a piece does not go on with a number. -/
theorem Listed.ends {close : Char} (hclose : IsClose close) {pieces : List (List Char)} {t : List Char}
    (ht : Listed close pieces t) (rest : List Char) : Ends (t ++ rest) := by
  cases pieces with
  | nil =>
    obtain ⟨b, hb, rfl⟩ := ht
    rw [List.append_assoc]
    exact Ends.blanks_append hb (hclose.ends _)
  | cons p ps =>
    obtain ⟨b, b', u, hb, -, -, rfl⟩ := ht
    rw [List.append_assoc]
    exact Ends.blanks_append hb (ends_comma _)

/-- A layout is longer than it has pieces, which bounds the fuel it takes. -/
theorem Listed.length_lt {close : Char} {pieces : List (List Char)} {t : List Char}
    (ht : Listed close pieces t) : pieces.length < t.length := by
  induction pieces generalizing t with
  | nil =>
    obtain ⟨b, -, rfl⟩ := ht
    simp
  | cons p ps ih =>
    obtain ⟨b, b', u, -, -, hu, rfl⟩ := ht
    have hlength := ih hu
    simp only [List.length_cons, List.length_append]
    omega

/-- No piece is longer than the text it stands in. -/
theorem Listed.length_le {close : Char} {pieces : List (List Char)} {t : List Char} (ht : Listed close pieces t) :
    ∀ p ∈ pieces, p.length ≤ t.length := by
  induction pieces generalizing t with
  | nil => simp
  | cons p ps ih =>
    obtain ⟨b, b', u, -, -, hu, rfl⟩ := ht
    refine List.forall_mem_cons.2 ⟨?_, fun q hq => Nat.le_trans (ih hu q hq) ?_⟩ <;>
      · simp only [List.length_cons, List.length_append]
        omega

theorem Enclosed.length_le {close : Char} {pieces : List (List Char)} {t : List Char}
    (ht : Enclosed close pieces t) : ∀ p ∈ pieces, p.length ≤ t.length := by
  cases pieces with
  | nil => simp
  | cons p ps =>
    obtain ⟨b, u, -, hu, rfl⟩ := ht
    refine List.forall_mem_cons.2 ⟨?_, fun q hq => Nat.le_trans (hu.length_le q hq) ?_⟩ <;>
      · simp only [List.length_append]
        omega

/-! ### Arrays -/

section

variable {κ α : Type} {m : Manner κ} {item : List Char → Reading α}

/-- A text that an item can begin with: neither a blank nor the closing bracket comes first. -/
def BeginsItem (p : List Char) : Prop :=
  ∃ c q, p = c :: q ∧ isBlank c = false ∧ c ≠ ']'

theorem moreItems_close {b : List Char} (hb : Blanks b) (fuel : Nat) (acc : List α) (rest : List Char) :
    moreItems m item (fuel + 1) acc (b ++ ']' :: rest) = .ok (acc.reverse, rest) := by
  rw [moreItems, skipBlanks_blanks_cons hb (by decide)]
  rfl

theorem moreItems_comma {b b' p : List Char} (hb : Blanks b) (hb' : Blanks b') (hp : BeginsItem p)
    (fuel : Nat) (acc : List α) (s : List Char) :
    moreItems m item (fuel + 1) acc (b ++ ',' :: (b' ++ (p ++ s))) =
      match item (p ++ s) with
      | .ok (v, s) => moreItems m item fuel (v :: acc) s
      | .error f => .error f := by
  obtain ⟨c, q, rfl, hc, hne⟩ := hp
  rw [moreItems, skipBlanks_blanks_cons hb (by decide)]
  simp only [List.cons_append, skipBlanks_blanks_cons hb' hc, if_neg hne]
  rfl

theorem items_close {b : List Char} (hb : Blanks b) (rest : List Char) :
    items m item (b ++ ']' :: rest) = .ok ([], rest) := by
  rw [items, skipBlanks_blanks_cons hb (by decide)]
  rfl

theorem items_first {b p : List Char} (hb : Blanks b) (hp : BeginsItem p) (s : List Char) :
    items m item (b ++ (p ++ s)) =
      match item (p ++ s) with
      | .ok (v, s) => moreItems m item (s.length + 1) [v] s
      | .error f => .error f := by
  obtain ⟨c, q, rfl, hc, hne⟩ := hp
  rw [items, List.cons_append, skipBlanks_blanks_cons hb hc]
  exact if_neg hne

/-- What can stand behind an item. -/
theorem moreItems_cases {fuel : Nat} {acc vs : List α} {s r : List Char}
    (hread : moreItems m item (fuel + 1) acc s = .ok (vs, r)) :
    (∃ b, Blanks b ∧ s = b ++ ']' :: r ∧ vs = acc.reverse) ∨
      ∃ b b' u v s', Blanks b ∧ Blanks b' ∧ s = b ++ ',' :: (b' ++ u) ∧ item u = .ok (v, s') ∧
        moreItems m item fuel (v :: acc) s' = .ok (vs, r) := by
  obtain ⟨b, hb, hs⟩ := exists_blanks s
  rw [moreItems] at hread
  split at hread
  · cases hread
  · next c u hfirst =>
    rw [hfirst] at hs
    split at hread
    · next hc =>
      cases hread
      exact .inl ⟨b, hb, by rw [hs, hc], rfl⟩
    · split at hread
      · next hc =>
        obtain ⟨b', hb', hu⟩ := exists_blanks u
        split at hread
        · cases hread
        · next d t hsecond =>
          rw [hsecond] at hu
          split at hread
          · cases hread
          · split at hread
            · next v s' hitem => exact .inr ⟨b, b', d :: t, v, s', hb, hb', by rw [hs, hc, ← hu], hitem, hread⟩
            · cases hread
      · cases hread

/-- What can stand behind the bracket of an array. -/
theorem items_cases {vs : List α} {s r : List Char} (hread : items m item s = .ok (vs, r)) :
    (∃ b, Blanks b ∧ s = b ++ ']' :: r ∧ vs = []) ∨
      ∃ b u v s', Blanks b ∧ s = b ++ u ∧ item u = .ok (v, s') ∧
        moreItems m item (s'.length + 1) [v] s' = .ok (vs, r) := by
  obtain ⟨b, hb, hs⟩ := exists_blanks s
  rw [items] at hread
  split at hread
  · cases hread
  · next c u hfirst =>
    rw [hfirst] at hs
    split at hread
    · next hc =>
      cases hread
      exact .inl ⟨b, hb, by rw [hs, hc], rfl⟩
    · split at hread
      · next v s' hitem => exact .inr ⟨b, c :: u, v, s', hb, hs, hitem, hread⟩
      · cases hread

/-- A piece is read as an item wherever it stands. -/
def ReadsItem (item : List Char → Reading α) (p : List Char) (v : α) : Prop :=
  BeginsItem p ∧ ∀ rest, Ends rest → item (p ++ rest) = .ok (v, rest)

theorem moreItems_listed {pieces : List (List Char)} {vs : List α}
    (hpieces : List.Forall₂ (ReadsItem item) pieces vs) :
    ∀ {fuel : Nat} {t : List Char} (acc : List α) (rest : List Char), Listed ']' pieces t →
      pieces.length < fuel → moreItems m item fuel acc (t ++ rest) = .ok (acc.reverse ++ vs, rest) := by
  induction hpieces with
  | nil =>
    intro fuel t acc rest ht hfuel
    obtain ⟨fuel, rfl⟩ := Nat.exists_eq_succ_of_ne_zero (Nat.ne_of_gt hfuel)
    obtain ⟨b, hb, rfl⟩ := ht
    rw [List.append_assoc, List.singleton_append, moreItems_close hb, List.append_nil]
  | cons hp _ ih =>
    intro fuel t acc rest ht hfuel
    obtain ⟨fuel, rfl⟩ := Nat.exists_eq_succ_of_ne_zero (Nat.ne_of_gt (Nat.zero_lt_of_lt hfuel))
    obtain ⟨b, b', u, hb, hb', hu, rfl⟩ := ht
    rw [List.append_assoc, List.cons_append, List.append_assoc, List.append_assoc,
      moreItems_comma hb hb' hp.1, hp.2 _ (hu.ends (.inl rfl) rest)]
    show moreItems m item fuel _ (u ++ rest) = _
    rw [ih _ rest hu (by simpa using hfuel)]
    simp

/-- **An array is read back from every layout of its pieces.** -/
theorem items_enclosed {pieces : List (List Char)} {vs : List α}
    (hpieces : List.Forall₂ (ReadsItem item) pieces vs) {t : List Char} (ht : Enclosed ']' pieces t)
    (rest : List Char) : items m item (t ++ rest) = .ok (vs, rest) := by
  cases hpieces with
  | nil =>
    obtain ⟨b, hb, rfl⟩ := ht
    rw [List.append_assoc, List.singleton_append, items_close hb]
  | cons hp hps =>
    obtain ⟨b, u, hb, hu, rfl⟩ := ht
    have hlength := hu.length_lt
    rw [List.append_assoc, List.append_assoc, items_first hb hp.1, hp.2 _ (hu.ends (.inl rfl) rest)]
    show moreItems m item _ _ (u ++ rest) = _
    rw [moreItems_listed hps _ rest hu (by simp only [List.length_append]; omega)]
    rfl

/-- A piece stops where it ends if it is read at all, and it is read only if it has the property. -/
def StopsItem (item : List Char → Reading α) (P : List Char → Prop) (p : List Char) : Prop :=
  BeginsItem p ∧ ∀ rest v s, Ends rest → item (p ++ rest) = .ok (v, s) → s = rest ∧ P p

theorem moreItems_stops {P : List Char → Prop} {pieces : List (List Char)}
    (hpieces : ∀ p ∈ pieces, StopsItem item P p) :
    ∀ {fuel : Nat} {acc vs : List α} {t rest s : List Char}, Listed ']' pieces t →
      moreItems m item fuel acc (t ++ rest) = .ok (vs, s) → s = rest ∧ ∀ p ∈ pieces, P p := by
  induction pieces with
  | nil =>
    intro fuel acc vs t rest s ht hread
    obtain ⟨b, hb, rfl⟩ := ht
    cases fuel with
    | zero => cases hread
    | succ fuel =>
      rw [List.append_assoc, List.singleton_append, moreItems_close hb] at hread
      cases hread
      exact ⟨rfl, by simp⟩
  | cons p ps ih =>
    intro fuel acc vs t rest s ht hread
    obtain ⟨b, b', u, hb, hb', hu, rfl⟩ := ht
    obtain ⟨hbegins, hstops⟩ := hpieces p List.mem_cons_self
    cases fuel with
    | zero => cases hread
    | succ fuel =>
      rw [List.append_assoc, List.cons_append, List.append_assoc, List.append_assoc,
        moreItems_comma hb hb' hbegins] at hread
      cases hitem : item (p ++ (u ++ rest)) with
      | error f => rw [hitem] at hread; cases hread
      | ok result =>
        obtain ⟨v, s'⟩ := result
        obtain ⟨rfl, hp⟩ := hstops _ v s' (hu.ends (.inl rfl) rest) hitem
        rw [hitem] at hread
        obtain ⟨hs, hps⟩ := ih (fun q hq => hpieces q (List.mem_cons_of_mem p hq)) hu hread
        exact ⟨hs, List.forall_mem_cons.2 ⟨hp, hps⟩⟩

/-- An array that is read at all is read to the end of its layout, and so is each of its pieces. -/
theorem items_stops {P : List Char → Prop} {pieces : List (List Char)}
    (hpieces : ∀ p ∈ pieces, StopsItem item P p) {vs : List α} {t rest s : List Char}
    (ht : Enclosed ']' pieces t) (hread : items m item (t ++ rest) = .ok (vs, s)) :
    s = rest ∧ ∀ p ∈ pieces, P p := by
  cases pieces with
  | nil =>
    obtain ⟨b, hb, rfl⟩ := ht
    rw [List.append_assoc, List.singleton_append, items_close hb] at hread
    cases hread
    exact ⟨rfl, by simp⟩
  | cons p ps =>
    obtain ⟨b, u, hb, hu, rfl⟩ := ht
    obtain ⟨hbegins, hstops⟩ := hpieces p List.mem_cons_self
    rw [List.append_assoc, List.append_assoc, items_first hb hbegins] at hread
    cases hitem : item (p ++ (u ++ rest)) with
    | error f => rw [hitem] at hread; cases hread
    | ok result =>
      obtain ⟨v, s'⟩ := result
      obtain ⟨rfl, hp⟩ := hstops _ v s' (hu.ends (.inl rfl) rest) hitem
      rw [hitem] at hread
      obtain ⟨hs, hps⟩ := moreItems_stops (fun q hq => hpieces q (List.mem_cons_of_mem p hq)) hu hread
      exact ⟨hs, List.forall_mem_cons.2 ⟨hp, hps⟩⟩

end

/-! ### Objects -/

section

variable {σ π : Type}

/-- The pieces lead from one state to another, each by a step of its own. -/
inductive Through (P : σ → π → σ → Prop) : List π → σ → σ → Prop where
  | nil {state : σ} : Through P [] state state
  | cons {p : π} {ps : List π} {state next final : σ} (hp : P state p next) (hps : Through P ps next final) :
      Through P (p :: ps) state final

end

section

variable {κ σ : Type} {m : Manner κ} {member : σ → κ → List Char → Reading σ}

/-- Takes a key behind its opening quote, and the member behind the key. -/
def keyed (m : Manner κ) (member : σ → κ → List Char → Reading σ) (state : σ) (s : List Char) : Reading σ :=
  match m.key s with
  | .error f => .error f
  | .ok (key, s) => member state key s

theorem moreMembers_close {b : List Char} (hb : Blanks b) (fuel : Nat) (state : σ) (rest : List Char) :
    moreMembers m member (fuel + 1) state (b ++ '\x7d' :: rest) = .ok (state, rest) := by
  rw [moreMembers, skipBlanks_blanks_cons hb (by decide)]
  rfl

theorem moreMembers_comma {b b' : List Char} (hb : Blanks b) (hb' : Blanks b') (q : List Char) (fuel : Nat)
    (state : σ) :
    moreMembers m member (fuel + 1) state (b ++ ',' :: (b' ++ '"' :: q)) =
      match keyed m member state q with
      | .ok (state, s) => moreMembers m member fuel state s
      | .error f => .error f := by
  rw [moreMembers, skipBlanks_blanks_cons hb (by decide)]
  simp only [Char.reduceEq, ↓reduceIte, skipBlanks_blanks_cons hb' (show isBlank '"' = false by decide), keyed]
  cases m.key q <;> rfl

theorem members_close {b : List Char} (hb : Blanks b) (state : σ) (rest : List Char) :
    members m member state (b ++ '\x7d' :: rest) = .ok (state, rest) := by
  rw [members, skipBlanks_blanks_cons hb (by decide)]
  rfl

theorem members_first {b : List Char} (hb : Blanks b) (q : List Char) (state : σ) :
    members m member state (b ++ '"' :: q) =
      match keyed m member state q with
      | .ok (state, s) => moreMembers m member (s.length + 1) state s
      | .error f => .error f := by
  rw [members, skipBlanks_blanks_cons hb (by decide)]
  simp only [Char.reduceEq, ↓reduceIte, keyed]
  cases m.key q <;> rfl

/-- What can stand behind a member. -/
theorem moreMembers_cases {fuel : Nat} {state final : σ} {s r : List Char}
    (hread : moreMembers m member (fuel + 1) state s = .ok (final, r)) :
    (∃ b, Blanks b ∧ s = b ++ '\x7d' :: r ∧ final = state) ∨
      ∃ b b' q next s', Blanks b ∧ Blanks b' ∧ s = b ++ ',' :: (b' ++ '"' :: q) ∧
        keyed m member state q = .ok (next, s') ∧ moreMembers m member fuel next s' = .ok (final, r) := by
  obtain ⟨b, hb, hs⟩ := exists_blanks s
  rw [moreMembers] at hread
  split at hread
  · cases hread
  · next c u hfirst =>
    rw [hfirst] at hs
    split at hread
    · next hc =>
      cases hread
      exact .inl ⟨b, hb, by rw [hs, hc], rfl⟩
    · split at hread
      · next hc =>
        obtain ⟨b', hb', hu⟩ := exists_blanks u
        split at hread
        · cases hread
        · next d q hsecond =>
          rw [hsecond] at hu
          split at hread
          · next hd =>
            split at hread
            · cases hread
            · next key t hkey =>
              split at hread
              · next next s' hmember =>
                exact .inr ⟨b, b', q, next, s', hb, hb', by rw [hs, hc, ← hd, ← hu],
                  by simpa only [keyed, hkey] using hmember, hread⟩
              · cases hread
          · split at hread <;> cases hread
      · cases hread

/-- What can stand behind the brace of an object. -/
theorem members_cases {state final : σ} {s r : List Char} (hread : members m member state s = .ok (final, r)) :
    (∃ b, Blanks b ∧ s = b ++ '\x7d' :: r ∧ final = state) ∨
      ∃ b q next s', Blanks b ∧ s = b ++ '"' :: q ∧ keyed m member state q = .ok (next, s') ∧
        moreMembers m member (s'.length + 1) next s' = .ok (final, r) := by
  obtain ⟨b, hb, hs⟩ := exists_blanks s
  rw [members] at hread
  split at hread
  · cases hread
  · next c q hfirst =>
    rw [hfirst] at hs
    split at hread
    · next hc =>
      cases hread
      exact .inl ⟨b, hb, by rw [hs, hc], rfl⟩
    · split at hread
      · next hd =>
        split at hread
        · cases hread
        · next key t hkey =>
          split at hread
          · next next s' hmember =>
            exact .inr ⟨b, q, next, s', hb, by rw [hs, hd], by simpa only [keyed, hkey] using hmember, hread⟩
          · cases hread
      · cases hread

/-- A piece is read as a member wherever it stands. -/
def ReadsMember (m : Manner κ) (member : σ → κ → List Char → Reading σ) (state : σ) (p : List Char)
    (next : σ) : Prop :=
  ∃ q, p = '"' :: q ∧ ∀ rest, Ends rest → keyed m member state (q ++ rest) = .ok (next, rest)

theorem moreMembers_listed {pieces : List (List Char)} {state final : σ}
    (hpieces : Through (ReadsMember m member) pieces state final) :
    ∀ {fuel : Nat} {t : List Char} (rest : List Char), Listed '\x7d' pieces t → pieces.length < fuel →
      moreMembers m member fuel state (t ++ rest) = .ok (final, rest) := by
  induction hpieces with
  | nil =>
    intro fuel t rest ht hfuel
    obtain ⟨fuel, rfl⟩ := Nat.exists_eq_succ_of_ne_zero (Nat.ne_of_gt hfuel)
    obtain ⟨b, hb, rfl⟩ := ht
    rw [List.append_assoc, List.singleton_append, moreMembers_close hb]
  | cons hp _ ih =>
    intro fuel t rest ht hfuel
    obtain ⟨fuel, rfl⟩ := Nat.exists_eq_succ_of_ne_zero (Nat.ne_of_gt (Nat.zero_lt_of_lt hfuel))
    obtain ⟨b, b', u, hb, hb', hu, rfl⟩ := ht
    obtain ⟨q, rfl, hmember⟩ := hp
    rw [List.append_assoc, List.cons_append, List.append_assoc, List.append_assoc, List.cons_append,
      moreMembers_comma hb hb', hmember _ (hu.ends (.inr rfl) rest)]
    exact ih rest hu (by simpa using hfuel)

/-- **An object is read back from every layout of its pieces.** -/
theorem members_enclosed {pieces : List (List Char)} {state final : σ}
    (hpieces : Through (ReadsMember m member) pieces state final) {t : List Char}
    (ht : Enclosed '\x7d' pieces t) (rest : List Char) :
    members m member state (t ++ rest) = .ok (final, rest) := by
  cases hpieces with
  | nil =>
    obtain ⟨b, hb, rfl⟩ := ht
    rw [List.append_assoc, List.singleton_append, members_close hb]
  | cons hp hps =>
    obtain ⟨b, u, hb, hu, rfl⟩ := ht
    obtain ⟨q, rfl, hmember⟩ := hp
    have hlength := hu.length_lt
    rw [List.append_assoc, List.append_assoc, List.cons_append, members_first hb,
      hmember _ (hu.ends (.inr rfl) rest)]
    refine moreMembers_listed hps rest hu ?_
    rw [List.length_append]
    omega

end

/-! ### Members with their keys as they are written -/

section

variable {σ : Type} {member : σ → String → List Char → Reading σ}

/-- The text of a member: its key, and what stands behind the key. -/
def memberText (piece : String × List Char) : List Char :=
  quote piece.1 ++ piece.2

theorem keyed_quote (state : σ) (key : String) (s : List Char) :
    keyed reading member state (key.toList.flatMap escapeChar ++ '"' :: s) = member state key s := by
  have hkey : reading.key (key.toList.flatMap escapeChar ++ '"' :: s) = .ok (key, s) := readString_escaped key s
  rw [keyed, hkey]

theorem memberText_append (piece : String × List Char) (s : List Char) :
    memberText piece ++ s = '"' :: (piece.1.toList.flatMap escapeChar ++ '"' :: (piece.2 ++ s)) := by
  simp [memberText, quote]

/-- A member stops where it ends if it is read at all, and it is read only if it has the property. -/
def StopsMember (member : σ → String → List Char → Reading σ) (P : String × List Char → Prop)
    (piece : String × List Char) : Prop :=
  ∀ state next rest s, Ends rest → member state piece.1 (piece.2 ++ rest) = .ok (next, s) → s = rest ∧ P piece

theorem moreMembers_stops {P : String × List Char → Prop} {pieces : List (String × List Char)}
    (hpieces : ∀ piece ∈ pieces, StopsMember member P piece) :
    ∀ {fuel : Nat} {state final : σ} {t rest s : List Char}, Listed '\x7d' (pieces.map memberText) t →
      moreMembers reading member fuel state (t ++ rest) = .ok (final, s) →
      s = rest ∧ ∀ piece ∈ pieces, P piece := by
  induction pieces with
  | nil =>
    intro fuel state final t rest s ht hread
    obtain ⟨b, hb, rfl⟩ := ht
    cases fuel with
    | zero => cases hread
    | succ fuel =>
      rw [List.append_assoc, List.singleton_append, moreMembers_close hb] at hread
      cases hread
      exact ⟨rfl, by simp⟩
  | cons piece pieces ih =>
    intro fuel state final t rest s ht hread
    obtain ⟨b, b', u, hb, hb', hu, rfl⟩ := ht
    cases fuel with
    | zero => cases hread
    | succ fuel =>
      rw [List.append_assoc, List.cons_append, List.append_assoc, List.append_assoc, memberText_append,
        moreMembers_comma hb hb', keyed_quote] at hread
      cases hmember : member state piece.1 (piece.2 ++ (u ++ rest)) with
      | error f => rw [hmember] at hread; cases hread
      | ok result =>
        obtain ⟨next, s'⟩ := result
        obtain ⟨rfl, hp⟩ :=
          hpieces piece List.mem_cons_self _ next _ s' (hu.ends (.inr rfl) rest) hmember
        rw [hmember] at hread
        obtain ⟨hs, hps⟩ := ih (fun q hq => hpieces q (List.mem_cons_of_mem piece hq)) hu hread
        exact ⟨hs, List.forall_mem_cons.2 ⟨hp, hps⟩⟩

/-- An object that is read at all is read to the end of its layout, and so is each of its pieces. -/
theorem members_stops {P : String × List Char → Prop} {pieces : List (String × List Char)}
    (hpieces : ∀ piece ∈ pieces, StopsMember member P piece) {state final : σ} {t rest s : List Char}
    (ht : Enclosed '\x7d' (pieces.map memberText) t)
    (hread : members reading member state (t ++ rest) = .ok (final, s)) :
    s = rest ∧ ∀ piece ∈ pieces, P piece := by
  cases pieces with
  | nil =>
    obtain ⟨b, hb, rfl⟩ := ht
    rw [List.append_assoc, List.singleton_append, members_close hb] at hread
    cases hread
    exact ⟨rfl, by simp⟩
  | cons piece pieces =>
    obtain ⟨b, u, hb, hu, rfl⟩ := ht
    rw [List.append_assoc, List.append_assoc, memberText_append, members_first hb, keyed_quote] at hread
    cases hmember : member state piece.1 (piece.2 ++ (u ++ rest)) with
    | error f => rw [hmember] at hread; cases hread
    | ok result =>
      obtain ⟨next, s'⟩ := result
      obtain ⟨rfl, hp⟩ := hpieces piece List.mem_cons_self _ next _ s' (hu.ends (.inr rfl) rest) hmember
      rw [hmember] at hread
      obtain ⟨hs, hps⟩ := moreMembers_stops (fun q hq => hpieces q (List.mem_cons_of_mem piece hq)) hu hread
      exact ⟨hs, List.forall_mem_cons.2 ⟨hp, hps⟩⟩

end

end ImagePush.Json
