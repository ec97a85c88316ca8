import ImagePush.Proofs.Json.Accepted
import ImagePush.Proofs.Json.Grammar

/-!
# Readers and what they read

A reader takes a relation between texts and values if it reads the texts of the relation and nothing else, each as
its value and to its end (`Reads`). Arrays and objects pass this on from their items and members (`Reads.items_iff`,
`ReadsKeyed.members_iff`), and a whole text is read exactly if it is one of the relation with blanks around it
(`Reads.ofText_iff`).
-/

namespace ImagePush.Json

/-! ### Readers -/

/-- The reader takes the relation: it reads each of its texts, behind any blanks and before anything that does not
go on with a number, and what it reads before such a text is one of them. -/
structure Reads {α : Type} (read : List Char → Reading α) (P : List Char → α → Prop) : Prop where
  begins : ∀ {p v}, P p v → BeginsItem p
  give : ∀ {p v b rest}, P p v → Blanks b → Ends rest → read (b ++ (p ++ rest)) = .ok (v, rest)
  take : ∀ {s r v}, read s = .ok (v, r) → Ends r → ∃ b p, Blanks b ∧ P p v ∧ s = b ++ (p ++ r)

/-- Blanks in front do not matter. -/
def IgnoresBlanks {α : Type} (read : List Char → Reading α) : Prop :=
  ∀ b s, Blanks b → read (b ++ s) = read s

section

variable {α β : Type} {read : List Char → Reading α} {P : List Char → α → Prop}

/-- A reader that skips blanks takes what it takes behind them. -/
theorem Reads.of_first (hblanks : IgnoresBlanks read) (hnil : ∀ x, read [] ≠ .ok x)
    (hbegins : ∀ {p v}, P p v → BeginsItem p)
    (hgive : ∀ {p v rest}, P p v → Ends rest → read (p ++ rest) = .ok (v, rest))
    (htake : ∀ {c s r v}, isBlank c = false → read (c :: s) = .ok (v, r) → Ends r → ∃ p, P p v ∧ c :: s = p ++ r) :
    Reads read P where
  begins := hbegins
  give hp hb hends := by rw [hblanks _ _ hb, hgive hp hends]
  take := by
    intro s r v hread hends
    obtain ⟨b, hb, hs⟩ := exists_blanks s
    rw [hs, hblanks _ _ hb] at hread
    cases hfirst : skipBlanks s with
    | nil =>
      rw [hfirst] at hread
      exact absurd hread (hnil _)
    | cons c u =>
      rw [hfirst] at hread hs
      obtain ⟨p, hp, hu⟩ := htake (isBlank_of_skipBlanks hfirst) hread hends
      exact ⟨b, p, hb, hp, by rw [hs, hu]⟩

theorem Reads.congr {Q : List Char → α → Prop} (hread : Reads read P) (hiff : ∀ p v, P p v ↔ Q p v) :
    Reads read Q where
  begins hp := hread.begins ((hiff _ _).2 hp)
  give hp := hread.give ((hiff _ _).2 hp)
  take hs hends := by
    obtain ⟨b, p, hb, hp, heq⟩ := hread.take hs hends
    exact ⟨b, p, hb, (hiff _ _).1 hp, heq⟩

/-- A reader that makes something of what another one reads takes what the other takes. -/
theorem Reads.comp {read' : List Char → Reading β} {Q : α → β → Prop} (hread : Reads read P)
    (hiff : ∀ {s r w}, read' s = .ok (w, r) ↔ ∃ v, read s = .ok (v, r) ∧ Q v w) :
    Reads read' fun p w => ∃ v, P p v ∧ Q v w where
  begins := by
    rintro p w ⟨v, hp, -⟩
    exact hread.begins hp
  give := by
    rintro p w b rest ⟨v, hp, hw⟩ hb hends
    exact hiff.2 ⟨v, hread.give hp hb hends, hw⟩
  take := by
    intro s r w hs hends
    obtain ⟨v, hv, hw⟩ := hiff.1 hs
    obtain ⟨b, p, hb, hp, heq⟩ := hread.take hv hends
    exact ⟨b, p, hb, ⟨v, hp, hw⟩, heq⟩

theorem Reads.map (hread : Reads read P) (f : α → β) :
    Reads (fun s => (read s).map fun (v, s) => (f v, s)) fun p w => ∃ v, P p v ∧ f v = w := by
  refine hread.comp fun {s r w} => ?_
  rw [map_eq_ok]
  constructor
  · rintro ⟨⟨v, r'⟩, hv, heq⟩
    cases heq
    exact ⟨v, hv, rfl⟩
  · rintro ⟨v, hv, rfl⟩
    exact ⟨(v, r), hv, rfl⟩

/-- A text is read as one value only. -/
theorem Reads.unique (hread : Reads read P) {p : List Char} {v w : α} (hv : P p v) (hw : P p w) : v = w := by
  have hread₁ := hread.give hv blanks_nil ends_nil
  rw [hread.give hw blanks_nil ends_nil] at hread₁
  cases hread₁
  rfl

/-- **A whole text is read exactly if it is a text of the relation with blanks around it.** -/
theorem Reads.ofText_iff (hread : Reads read P) {text : List Char} {v : α} :
    ofText read text = .ok v ↔ ∃ b p b', Blanks b ∧ Blanks b' ∧ P p v ∧ text = b ++ (p ++ b') := by
  rw [ofText_eq_ok]
  constructor
  · rintro ⟨s, hs, hblank⟩
    obtain ⟨b', hb', heq⟩ := exists_blanks s
    rw [hblank, List.append_nil] at heq
    have hends : Ends s := by
      rw [heq, ← List.append_nil b']
      exact Ends.blanks_append hb' ends_nil
    obtain ⟨b, p, hb, hp, rfl⟩ := hread.take hs hends
    exact ⟨b, p, s, hb, heq ▸ hb', hp, rfl⟩
  · rintro ⟨b, p, b', hb, hb', hp, rfl⟩
    have hends : Ends (b' ++ []) := Ends.blanks_append hb' ends_nil
    have hskip := skipBlanks_append hb' []
    rw [List.append_nil] at hends hskip
    exact ⟨b', hread.give hp hb hends, hskip⟩

end

/-! ### Arrays -/

section

variable {κ α : Type} {m : Manner κ} {item : List Char → Reading α} {P : List Char → α → Prop}

theorem Reads.readsItem (hitem : Reads item P) {p : List Char} {v : α} (hp : P p v) : ReadsItem item p v :=
  ⟨hitem.begins hp, fun _ hends => hitem.give hp blanks_nil hends⟩

theorem Reads.listed_of_moreItems (hitem : Reads item P) (fuel : Nat) :
    ∀ {acc vs : List α} {s r : List Char}, moreItems m item fuel acc s = .ok (vs, r) →
      ∃ pieces us t, List.Forall₂ P pieces us ∧ Listed ']' pieces t ∧ vs = acc.reverse ++ us ∧ s = t ++ r := by
  induction fuel with
  | zero =>
    intro acc vs s r hread
    cases hread
  | succ fuel ih =>
    intro acc vs s r hread
    rcases moreItems_cases hread with ⟨b, hb, rfl, rfl⟩ | ⟨b, b', u, v, s', hb, hb', rfl, hv, hread⟩
    · exact ⟨[], [], b ++ [']'], .nil, ⟨b, hb, rfl⟩, by simp, by simp⟩
    · obtain ⟨pieces, us, t, hpieces, ht, rfl, rfl⟩ := ih hread
      obtain ⟨b'', p, hb'', hp, rfl⟩ := hitem.take hv (ht.ends (.inl rfl) r)
      refine ⟨p :: pieces, v :: us, _, .cons hp hpieces, ⟨b, b' ++ b'', t, hb, ?_, ht, rfl⟩, by simp, by simp⟩
      exact List.forall_mem_append.2 ⟨hb', hb''⟩

/-- **An array is read exactly if it is a layout of texts that are read.** -/
theorem Reads.items_iff (hitem : Reads item P) {s r : List Char} {vs : List α} :
    items m item s = .ok (vs, r) ↔
      ∃ pieces body, List.Forall₂ P pieces vs ∧ Enclosed ']' pieces body ∧ s = body ++ r := by
  constructor
  · intro hread
    rcases items_cases hread with ⟨b, hb, rfl, rfl⟩ | ⟨b, u, v, s', hb, rfl, hv, hread⟩
    · exact ⟨[], b ++ [']'], .nil, ⟨b, hb, rfl⟩, by simp⟩
    · obtain ⟨pieces, us, t, hpieces, ht, rfl, rfl⟩ := hitem.listed_of_moreItems _ hread
      obtain ⟨b', p, hb', hp, rfl⟩ := hitem.take hv (ht.ends (.inl rfl) r)
      refine ⟨p :: pieces, _, .cons hp hpieces, ⟨b ++ b', t, ?_, ht, rfl⟩, by simp⟩
      exact List.forall_mem_append.2 ⟨hb, hb'⟩
  · rintro ⟨pieces, body, hpieces, hbody, rfl⟩
    exact items_enclosed (hpieces.imp fun _ _ => hitem.readsItem) hbody r

end

/-! ### Objects -/

theorem colon_iff {s r : List Char} : colon s = .ok r ↔ ∃ b, Blanks b ∧ s = b ++ ':' :: r := by
  constructor
  · intro hread
    obtain ⟨b, hb, hs⟩ := exists_blanks s
    unfold colon at hread
    split at hread
    · cases hread
    · next c u hfirst =>
      rw [hfirst] at hs
      split at hread
      · next hc =>
        cases hread
        exact ⟨b, hb, by rw [hs, hc]⟩
      · cases hread
  · rintro ⟨b, hb, rfl⟩
    rw [colon, skipBlanks_blanks_cons hb (by decide)]
    rfl

section

variable {κ σ : Type} {m : Manner κ} {member : σ → κ → List Char → Reading σ}
  {Key : κ → List Char → Prop} {Step : σ → κ × List Char → σ → Prop}

/-- The manner takes a relation between keys and what stands between their quotes. -/
def ReadsKey (m : Manner κ) (Key : κ → List Char → Prop) : Prop :=
  ∀ {s r : List Char} {k : κ}, m.key s = .ok (k, r) ↔ ∃ t, Key k t ∧ s = t ++ '"' :: r

/-- The members of an object are read as steps from one state to the next, each by its key and by the text of its
value. -/
structure ReadsKeyed (member : σ → κ → List Char → Reading σ) (Step : σ → κ × List Char → σ → Prop) : Prop where
  give : ∀ {state key p next b b' rest}, Step state (key, p) next → Blanks b → Blanks b' → Ends rest →
    member state key (b ++ ':' :: (b' ++ (p ++ rest))) = .ok (next, rest)
  take : ∀ {state key s r next}, member state key s = .ok (next, r) → Ends r →
    ∃ b b' p, Blanks b ∧ Blanks b' ∧ Step state (key, p) next ∧ s = b ++ ':' :: (b' ++ (p ++ r))

theorem ReadsKeyed.readsMember (hmember : ReadsKeyed member Step) (hkey : ReadsKey m Key) {state next : σ}
    {key : κ} {value p : List Char} (hstep : Step state (key, value) next) (hp : MemberText (Key key) value p) :
    ReadsMember m member state p next := by
  obtain @⟨k, b, b', hk, hb, hb'⟩ := hp
  refine ⟨_, rfl, fun rest hends => ?_⟩
  have hread : m.key (k ++ '"' :: (b ++ ':' :: (b' ++ (value ++ rest)))) =
      .ok (key, b ++ ':' :: (b' ++ (value ++ rest))) := hkey.2 ⟨k, hk, rfl⟩
  simp only [List.append_assoc, List.cons_append, keyed, hread]
  exact hmember.give hstep hb hb' hends

theorem ReadsKeyed.memberText_of_keyed (hmember : ReadsKeyed member Step) (hkey : ReadsKey m Key)
    {state next : σ} {q r : List Char} (hread : keyed m member state q = .ok (next, r)) (hends : Ends r) :
    ∃ key value p, MemberText (Key key) value p ∧ Step state (key, value) next ∧ '"' :: q = p ++ r := by
  unfold keyed at hread
  split at hread
  · cases hread
  · next key s hs =>
    obtain ⟨k, hk, rfl⟩ := hkey.1 hs
    obtain ⟨b, b', value, hb, hb', hstep, rfl⟩ := hmember.take hread hends
    exact ⟨key, value, _, .intro hk hb hb', hstep, by simp⟩

theorem ReadsKeyed.through (hmember : ReadsKeyed member Step) (hkey : ReadsKey m Key)
    {ms : List (κ × List Char)} {state final : σ} (hthrough : Through Step ms state final)
    {pieces : List (List Char)} (hpieces : List.Forall₂ (fun m p => MemberText (Key m.1) m.2 p) ms pieces) :
    Through (ReadsMember m member) pieces state final := by
  induction hthrough generalizing pieces with
  | nil =>
    cases hpieces
    exact .nil
  | cons hstep _ ih =>
    cases hpieces with
    | cons hp hps => exact .cons (hmember.readsMember hkey hstep hp) (ih hps)

theorem ReadsKeyed.listed_of_moreMembers (hmember : ReadsKeyed member Step) (hkey : ReadsKey m Key) (fuel : Nat) :
    ∀ {state final : σ} {s r : List Char}, moreMembers m member fuel state s = .ok (final, r) →
      ∃ ms pieces t, List.Forall₂ (fun m p => MemberText (Key m.1) m.2 p) ms pieces ∧ Listed '\x7d' pieces t ∧
        Through Step ms state final ∧ s = t ++ r := by
  induction fuel with
  | zero =>
    intro state final s r hread
    cases hread
  | succ fuel ih =>
    intro state final s r hread
    rcases moreMembers_cases hread with ⟨b, hb, rfl, rfl⟩ | ⟨b, b', q, next, s', hb, hb', rfl, hnext, hread⟩
    · exact ⟨[], [], b ++ ['\x7d'], .nil, ⟨b, hb, rfl⟩, .nil, by simp⟩
    · obtain ⟨ms, pieces, t, hpieces, ht, hthrough, rfl⟩ := ih hread
      obtain ⟨key, value, p, hp, hstep, hq⟩ :=
        hmember.memberText_of_keyed hkey hnext (ht.ends (.inr rfl) r)
      exact ⟨(key, value) :: ms, p :: pieces, _, .cons hp hpieces, ⟨b, b', t, hb, hb', ht, rfl⟩,
        .cons hstep hthrough, by simp [hq]⟩

/-- **An object is read exactly if it is a layout of members that are read**, one after the other. -/
theorem ReadsKeyed.members_iff (hmember : ReadsKeyed member Step) (hkey : ReadsKey m Key) {s r : List Char}
    {state final : σ} : members m member state s = .ok (final, r) ↔
      ∃ ms body, MembersText Key ms body ∧ Through Step ms state final ∧ s = body ++ r := by
  constructor
  · intro hread
    rcases members_cases hread with ⟨b, hb, rfl, rfl⟩ | ⟨b, q, next, s', hb, rfl, hnext, hread⟩
    · exact ⟨[], b ++ ['\x7d'], ⟨[], .nil, b, hb, rfl⟩, .nil, by simp⟩
    · obtain ⟨ms, pieces, t, hpieces, ht, hthrough, rfl⟩ := hmember.listed_of_moreMembers hkey _ hread
      obtain ⟨key, value, p, hp, hstep, hq⟩ :=
        hmember.memberText_of_keyed hkey hnext (ht.ends (.inr rfl) r)
      exact ⟨(key, value) :: ms, _, ⟨p :: pieces, .cons hp hpieces, b, t, hb, ht, rfl⟩, .cons hstep hthrough,
        by simp [hq]⟩
  · rintro ⟨ms, body, ⟨pieces, hpieces, hbody⟩, hthrough, rfl⟩
    exact members_enclosed (hmember.through hkey hthrough hpieces) hbody r

end

theorem readsKey_reading : ReadsKey reading SpellsKey :=
  readString_iff

theorem readsKey_passing : ReadsKey (passing scalars) LooseKey := by
  intro s r k
  show (passString s).map _ = _ ↔ _
  rw [map_eq_ok]
  constructor
  · rintro ⟨r', hpass, heq⟩
    cases heq
    exact passString_iff.1 hpass
  · exact fun ht => ⟨r, passString_iff.2 ht, rfl⟩

end ImagePush.Json
