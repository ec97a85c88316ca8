import ImagePush.Proofs.CommandLine.Words
import Mathlib.Data.List.Nodup

/-!
# What a command line says

A command line gives options with values, word by word (`Gives`): each word spells options, and behind a word whose
last option waits for its value stands that value. Only words that give options are taken (`gives_of_takeWords`), and
these exactly if no option is there twice and the values are text (`Gives.takeWords_eq_ok_iff`).
-/

namespace ImagePush.CommandLine

/-- The options that the words of a command line give, in order, with the bytes of their values. -/
inductive Gives : List Word → List (Opt × Word) → Prop where
  | nil : Gives [] []
  /-- Two hyphens end the options, and no words may follow. -/
  | endMark : Gives [[hyphen, hyphen]] []
  /-- A word that gives all its values itself. -/
  | word {w : Word} {ws : List Word} {given given' : List (Opt × Word)} (hw : Spells w given none)
      (hws : Gives ws given') : Gives (w :: ws) (given ++ given')
  /-- The value of the last option of a word is the next word. -/
  | valued {w v : Word} {ws : List Word} {given given' : List (Opt × Word)} {o : Opt} (hw : Spells w given (some o))
      (hv : Plain v) (hws : Gives ws given') : Gives (w :: v :: ws) (given ++ (o, v) :: given')

variable {w v : Word} {ws : List Word} {given : List (Opt × Word)} {p q : Progress} {o : Opt}

/-! ### Values that fit -/

/-- A value that an option may have: a flag has the empty one, and a request is no option of this kind. -/
def Fits (g : Opt × Word) : Prop :=
  g.1.takesValue = true ∨ g.1.IsFlag ∧ g.2 = []

theorem Cluster.fits {next : Option Opt} (hw : Cluster w given next) :
    (∀ g ∈ given, Fits g) ∧ ∀ o ∈ next, o.takesValue = true := by
  induction hw with
  | nil => simp
  | flag hc ho hw ih => exact ⟨List.forall_mem_cons.2 ⟨.inr ⟨ho, rfl⟩, ih.1⟩, ih.2⟩
  | waits hc ho => simp [ho]
  | attached hc ho => simp [Fits, ho]
  | equals hc ho => simp [Fits, ho]

theorem Spells.fits {next : Option Opt} (hw : Spells w given next) :
    (∀ g ∈ given, Fits g) ∧ ∀ o ∈ next, o.takesValue = true := by
  cases hw with
  | flag ho => simp [Fits, ho]
  | waits ho => simp [ho]
  | attached ho => simp [Fits, ho]
  | letters hw => exact hw.fits

theorem Gives.fits (hws : Gives ws given) : ∀ g ∈ given, Fits g := by
  induction hws with
  | nil => simp
  | endMark => simp
  | word hw hws ih => exact List.forall_mem_append.2 ⟨hw.fits.1, ih⟩
  | valued hw hv hws ih =>
    refine List.forall_mem_append.2 ⟨hw.fits.1, List.forall_mem_cons.2 ⟨?_, ih⟩⟩
    exact .inl (hw.fits.2 _ rfl)

/-! ### Taking the words -/

theorem Progress.takeAll_none (p : Progress) (given : List (Opt × Word)) :
    p.takeAll given none = p.resolve >>= fun q => q.settleAll given := by
  unfold takeAll
  cases p.resolve with
  | error r => rfl
  | ok q => exact bind_pure (q.settleAll given)

/-- The value of the option that waits is settled with the next one. -/
theorem Progress.resolve_valued (h : p.pending = none) (o : Opt) (v : Word) :
    Progress.resolve { p with pending := some (o, some v) } = p.settle o v := by
  cases p
  cases h
  rfl

/-- **The options that the words give are settled one after another.** -/
theorem takeWords_of_gives (hws : Gives ws given) (p : Progress) :
    takeWords p ws = p.resolve >>= fun q => q.settleAll given := by
  induction hws generalizing p with
  | nil =>
    rw [takeWords]
    exact (bind_pure _).symm
  | endMark =>
    rw [takeWords.eq_def]
    exact (bind_pure _).symm
  | @word w ws given given' hw hws ih =>
    rw [takeWords_cons hw.ne_endMark, takeWord_of_spells hw, Progress.takeAll_none]
    cases hresolve : p.resolve with
    | error r => rfl
    | ok p₁ =>
      show p₁.settleAll given >>= _ = p₁.settleAll (given ++ given')
      rw [Progress.settleAll_append]
      cases hsettle : p₁.settleAll given with
      | error r => rfl
      | ok p₂ =>
        have hnone := (Progress.pending_settleAll hsettle).trans (Progress.pending_resolve hresolve)
        show takeWords p₂ ws = p₂.settleAll given'
        rw [ih, Progress.resolve_of_pending hnone]
        rfl
  | @valued w v ws given given' o hw hv hws ih =>
    rw [takeWords_cons hw.ne_endMark, takeWord_of_spells hw, Progress.takeAll]
    cases hresolve : p.resolve with
    | error r => rfl
    | ok p₁ =>
      show (p₁.settleAll given >>= fun q => .ok (q.waiting (some o))) >>= _ = p₁.settleAll (given ++ (o, v) :: given')
      rw [Progress.settleAll_append]
      cases hsettle : p₁.settleAll given with
      | error r => rfl
      | ok p₂ =>
        have hnone := (Progress.pending_settleAll hsettle).trans (Progress.pending_resolve hresolve)
        have hmark : v ≠ [hyphen, hyphen] := by
          rintro rfl
          simp [Plain] at hv
        show takeWords (p₂.waiting (some o)) (v :: ws) = p₂.settleAll ((o, v) :: given')
        rw [takeWords_cons hmark, takeWord, shape_plain hv, Progress.settleAll_cons]
        show takeWords { p₂ with pending := some (o, some v) } ws = _
        rw [ih, Progress.resolve_valued hnone]

/-- **Words that are taken give options**, but for the first one if an option waits for it. -/
theorem gives_of_takeWords (h : takeWords p ws = .ok q) :
    (∃ given, Gives ws given) ∨
      ∃ o v rest given, p.pending = some (o, none) ∧ ws = v :: rest ∧ Plain v ∧ Gives rest given := by
  induction ws generalizing p with
  | nil => exact .inl ⟨[], .nil⟩
  | cons w ws ih =>
    by_cases hmark : w = [hyphen, hyphen]
    · subst hmark
      cases ws with
      | nil => exact .inl ⟨[], .endMark⟩
      | cons w' ws =>
        rw [takeWords.eq_def] at h
        cases h
    rw [takeWords_cons hmark] at h
    obtain ⟨p', hword, h⟩ := bind_eq_ok.1 h
    rcases spells_of_takeWord hmark hword with ⟨given, next, hw⟩ | ⟨hplain, o, hpending, rfl⟩
    · left
      rcases ih h with ⟨given', hws⟩ | ⟨o, v, rest, given', hpending', rfl, hv, hws⟩
      · cases next with
        | none => exact ⟨_, .word hw hws⟩
        | some o =>
          -- the option would be left without its value
          rw [takeWord_of_spells hw] at hword
          obtain ⟨p₁, -, hword⟩ := bind_eq_ok.1 hword
          obtain ⟨p₂, -, hword⟩ := bind_eq_ok.1 hword
          cases hword
          rw [takeWords_of_gives hws] at h
          cases h
      · rw [takeWord_of_spells hw] at hword
        obtain ⟨p₁, hresolve, hword⟩ := bind_eq_ok.1 hword
        obtain ⟨p₂, hsettle, hword⟩ := bind_eq_ok.1 hword
        cases hword
        cases next with
        | none =>
          have hnone := (Progress.pending_settleAll hsettle).trans (Progress.pending_resolve hresolve)
          rw [Progress.waiting, hnone] at hpending'
          cases hpending'
        | some o' => exact ⟨_, .valued hw hv hws⟩
    · right
      rcases ih h with ⟨given', hws⟩ | ⟨_, _, _, _, hpending', -⟩
      · exact ⟨o, w, ws, given', hpending, rfl, hplain, hws⟩
      · cases hpending'

/-! ### Settling -/

/-- An option with the bytes of its value. -/
def inBytes (item : Opt × String) : Opt × Word :=
  (item.1, Text.Utf8.ofString item.2)

/-- Progress with more settled options. -/
def Progress.extend (p : Progress) (items : List (Opt × String)) : Progress :=
  { p with settled := p.settled ++ items }

theorem Progress.extend_nil (p : Progress) : p.extend [] = p := by
  rw [extend, List.append_nil]

theorem Progress.extend_extend (p : Progress) (items items' : List (Opt × String)) :
    (p.extend items).extend items' = p.extend (items ++ items') := by
  simp only [extend, List.append_assoc]

theorem Progress.options_extend (p : Progress) (items : List (Opt × String)) :
    (p.extend items).options = p.options ++ items.map Prod.fst :=
  List.map_append

theorem Progress.settle_eq_ok_iff :
    p.settle o v = .ok q ↔
      ∃ text, v = Text.Utf8.ofString text ∧ o ∉ p.options ∧ q = p.extend [(o, text)] := by
  have hhas : p.has o = true ↔ o ∈ p.options := by simp [has]
  unfold settle
  constructor
  · intro h
    split at h
    · cases h
    · next ho =>
      split at h
      · cases h
      · next cs hdecode =>
        cases h
        refine ⟨String.ofList cs, ?_, mt hhas.2 ho, rfl⟩
        rw [Text.Utf8.ofString, String.toList_ofList]
        exact Text.Utf8.decode?_eq_some_iff.1 hdecode
  · rintro ⟨text, rfl, ho, rfl⟩
    rw [if_neg (mt hhas.1 ho), Text.Utf8.ofString, Text.Utf8.decode?_encode]
    simp only [String.ofList_toList]
    rfl

/-- **Options are settled exactly if none of them is there already, none is there twice, and their values are text.** -/
theorem Progress.settleAll_eq_ok_iff (hp : p.options.Nodup) :
    p.settleAll given = .ok q ↔
      ∃ items : List (Opt × String), given = items.map inBytes ∧ (p.options ++ items.map Prod.fst).Nodup ∧
        q = p.extend items := by
  induction given generalizing p with
  | nil =>
    constructor
    · intro h
      cases h
      refine ⟨[], rfl, ?_, (extend_nil _).symm⟩
      rw [List.map_nil, List.append_nil]
      exact hp
    · rintro ⟨items, hitems, -, rfl⟩
      rw [List.map_eq_nil_iff.1 hitems.symm, extend_nil]
      rfl
  | cons g given ih =>
    have hstep : ∀ {text : String}, g.1 ∉ p.options →
        ((p.extend [(g.1, text)]).settleAll given = .ok q ↔
          ∃ items : List (Opt × String), given = items.map inBytes ∧
            (p.options ++ (g.1 :: items.map Prod.fst)).Nodup ∧ q = p.extend ((g.1, text) :: items)) := by
      intro text hg
      have hnodup : (p.extend [(g.1, text)]).options.Nodup := by
        rw [options_extend]
        exact hp.append (List.nodup_singleton _) (List.disjoint_singleton.2 hg)
      rw [ih hnodup]
      simp only [options_extend, extend_extend, List.append_assoc, List.map_cons, List.map_nil, List.singleton_append]
    rw [settleAll_cons, bind_eq_ok]
    constructor
    · rintro ⟨p', hsettle, h⟩
      obtain ⟨text, hv, ho, rfl⟩ := settle_eq_ok_iff.1 hsettle
      obtain ⟨items, rfl, hnodup, rfl⟩ := (hstep ho).1 h
      refine ⟨(g.1, text) :: items, ?_, hnodup, rfl⟩
      rw [List.map_cons, inBytes, ← hv]
    · rintro ⟨items, hitems, hnodup, rfl⟩
      cases items with
      | nil => cases hitems
      | cons item items =>
        obtain ⟨rfl, rfl⟩ := List.cons.inj hitems
        have ho : item.1 ∉ p.options := fun hmem => List.disjoint_of_nodup_append hnodup hmem List.mem_cons_self
        exact ⟨_, settle_eq_ok_iff.2 ⟨item.2, rfl, ho, rfl⟩, (hstep ho).2 ⟨items, rfl, hnodup, rfl⟩⟩

/-- **Words that give options are taken exactly if the values are text and no option is there twice.** -/
theorem Gives.takeWords_eq_ok_iff (hws : Gives ws given) :
    takeWords {} ws = .ok q ↔
      ∃ items : List (Opt × String), given = items.map inBytes ∧ (items.map Prod.fst).Nodup ∧ q = ⟨items, none⟩ := by
  have hsettle : takeWords {} ws = Progress.settleAll {} given := takeWords_of_gives hws {}
  have hnone : (Progress.options {}).Nodup := List.nodup_nil
  rw [hsettle]
  exact Progress.settleAll_eq_ok_iff hnone

/-- Only words that give options are taken. -/
theorem exists_gives (h : takeWords {} ws = .ok q) : ∃ given, Gives ws given := by
  rcases gives_of_takeWords h with hgives | ⟨_, _, _, _, hpending, -⟩
  · exact hgives
  · cases hpending

end ImagePush.CommandLine
