import ImagePush.Proofs.Json.Numbers

/-!
# Texts of numbers

`IsNumber t` says that the text is a number behind its sign. Such texts are exactly what is passed over as a number
(`passNumber_iff`), and what is read as one if it has a value (`readNumber_iff`). That the value is told by the text
alone, whatever follows it, is shown part by part (`Settled`).
-/

namespace ImagePush.Json

/-! ### The texts -/

/-- The digits before the point: a zero, or digits that do not begin with one. -/
inductive Whole : List Char → Prop where
  | zero : Whole ['0']
  | digits {d : Char} {ds : List Char} (hd : d.isDigit = true) (hne : d ≠ '0') (hds : ∀ c ∈ ds, c.isDigit = true) :
      Whole (d :: ds)

/-- A number behind its sign. -/
def IsNumber (t : List Char) : Prop :=
  ∃ ds fs es, Whole ds ∧ Fraction fs ∧ Exponent es ∧ t = ds ++ (fs ++ es)

theorem Whole.digits_of {ds : List Char} (hds : Whole ds) : Digits ds := by
  cases hds with
  | zero => exact ⟨by simp, by simp⟩
  | digits hd _ hds => exact ⟨by simp, List.forall_mem_cons.2 ⟨hd, hds⟩⟩

theorem IsNumber.numeral {t : List Char} (ht : IsNumber t) : Numeral t := by
  obtain ⟨ds, fs, es, hds, hfs, hes, rfl⟩ := ht
  exact ⟨ds, fs, es, hds.digits_of, hfs, hes, rfl⟩

theorem isNumber_toDigits (n : Nat) : IsNumber (Nat.toDigits 10 n) := by
  refine ⟨Nat.toDigits 10 n, [], [], ?_, .none, .none, by simp⟩
  by_cases hzero : n = 0
  · subst hzero
    exact .zero
  · obtain ⟨d, ds, hdigits, hd, hne⟩ := toDigits_eq_cons (Nat.pos_of_ne_zero hzero)
    have hall := (digits_toDigits n).all
    rw [hdigits] at hall ⊢
    exact .digits hd hne fun c hc => hall c (List.mem_cons_of_mem d hc)

/-- What follows the whole part does not go on with its digits. -/
theorem Fraction.startsWithDigit {fs es : List Char} (hfs : Fraction fs) (hes : Exponent es) {rest : List Char}
    (hends : Ends rest) : startsWithDigit (fs ++ (es ++ rest)) = false := by
  cases hfs with
  | none => exact hes.startsWithDigit hends
  | some => rfl

/-! ### Numbers passed over -/

theorem passNumber_append {t : List Char} (ht : IsNumber t) {rest : List Char} (hends : Ends rest) :
    passNumber (t ++ rest) = .ok rest := by
  obtain ⟨ds, fs, es, hds, hfs, hes, rfl⟩ := ht
  have hstop := hfs.startsWithDigit hes hends
  have hafter := passAfterWhole_fraction hfs hes hends
  rw [List.append_assoc, List.append_assoc]
  cases hds with
  | zero => rw [List.singleton_append, passNumber, if_pos rfl, if_neg (by simp [hstop]), hafter]
  | digits hd hne hds =>
    rw [List.cons_append, passNumber, if_neg hne, if_pos hd, dropDigits_append hds hstop, hafter]

theorem eq_append_dropDigits {s : List Char} :
    ∃ ds : List Char, (∀ c ∈ ds, c.isDigit = true) ∧ s = ds ++ dropDigits s :=
  ⟨s.takeWhile Char.isDigit, List.all_eq_true.1 List.all_takeWhile, List.takeWhile_append_dropWhile.symm⟩

theorem digits_append_dropDigits {s : List Char} (hs : startsWithDigit s = true) :
    ∃ ds, Digits ds ∧ s = ds ++ dropDigits s := by
  cases s with
  | nil => cases hs
  | cons c s =>
    have hc : c.isDigit = true := hs
    obtain ⟨ds, hds, heq⟩ := eq_append_dropDigits (s := s)
    refine ⟨c :: ds, ⟨by simp, List.forall_mem_cons.2 ⟨hc, hds⟩⟩, ?_⟩
    rw [dropDigits, List.dropWhile_cons_of_pos hc, List.cons_append]
    exact congrArg (c :: ·) heq

theorem digits_of_passExponent {s r : List Char} (hpass : passExponent s = .ok r) :
    ∃ sign ds, (sign = [] ∨ sign = ['+'] ∨ sign = ['-']) ∧ Digits ds ∧ s = sign ++ (ds ++ r) := by
  have hdigits : ∀ {u : List Char}, passExponentDigits u = .ok r → ∃ ds, Digits ds ∧ u = ds ++ r := by
    intro u hu
    cases u with
    | nil => cases hu
    | cons c u =>
      unfold passExponentDigits at hu
      simp only at hu
      split at hu
      · next hc =>
        cases hu
        exact digits_append_dropDigits hc
      · cases hu
  unfold passExponent at hpass
  split at hpass
  · obtain ⟨ds, hds, rfl⟩ := hdigits hpass
    exact ⟨['+'], ds, .inr (.inl rfl), hds, rfl⟩
  · obtain ⟨ds, hds, rfl⟩ := hdigits hpass
    exact ⟨['-'], ds, .inr (.inr rfl), hds, rfl⟩
  · obtain ⟨ds, hds, rfl⟩ := hdigits hpass
    exact ⟨[], ds, .inl rfl, hds, rfl⟩

theorem exponent_of_passExponentOrEnd {s r : List Char} (hpass : passExponentOrEnd s = .ok r) :
    ∃ es, Exponent es ∧ s = es ++ r := by
  unfold passExponentOrEnd at hpass
  split at hpass
  · obtain ⟨sign, ds, hsign, hds, rfl⟩ := digits_of_passExponent hpass
    exact ⟨_, .some (.inl rfl) hsign hds, by simp⟩
  · obtain ⟨sign, ds, hsign, hds, rfl⟩ := digits_of_passExponent hpass
    exact ⟨_, .some (.inr rfl) hsign hds, by simp⟩
  · cases hpass
    exact ⟨[], .none, rfl⟩

theorem fraction_of_passAfterWhole {s r : List Char} (hpass : passAfterWhole s = .ok r) :
    ∃ fs es, Fraction fs ∧ Exponent es ∧ s = fs ++ (es ++ r) := by
  unfold passAfterWhole at hpass
  split at hpass
  · split at hpass
    · next hs =>
      obtain ⟨ds, hds, heq⟩ := digits_append_dropDigits hs
      obtain ⟨es, hes, hrest⟩ := exponent_of_passExponentOrEnd hpass
      refine ⟨_, es, .some hds, hes, ?_⟩
      rw [List.cons_append, ← hrest, ← heq]
    · cases hpass
  · obtain ⟨es, hes, rfl⟩ := exponent_of_passExponentOrEnd hpass
    exact ⟨[], es, .none, hes, rfl⟩

theorem isNumber_of_passNumber {s r : List Char} (hpass : passNumber s = .ok r) :
    ∃ t, IsNumber t ∧ s = t ++ r := by
  have hwhole : ∀ {ds u : List Char}, Whole ds → passAfterWhole u = .ok r → ∃ t, IsNumber t ∧ ds ++ u = t ++ r := by
    intro ds u hds hu
    obtain ⟨fs, es, hfs, hes, rfl⟩ := fraction_of_passAfterWhole hu
    exact ⟨_, ⟨ds, fs, es, hds, hfs, hes, rfl⟩, by simp⟩
  cases s with
  | nil => cases hpass
  | cons c s =>
    rw [passNumber] at hpass
    split at hpass
    · next hc =>
      split at hpass
      · cases hpass
      · rw [hc]
        exact hwhole .zero hpass
    · next hne =>
      split at hpass
      · next hc =>
        obtain ⟨ds, hds, heq⟩ := eq_append_dropDigits (s := s)
        rw [heq]
        exact hwhole (.digits hc hne hds) hpass
      · cases hpass

/-! ### The value of a number -/

/-- Whether the text is read, and as what, does not depend on the text behind it. -/
def Settled (read : List Char → Reading Json) (t : List Char) : Prop :=
  ∃ o : Option Json, ∀ rest, Ends rest → (read (t ++ rest)).toOption = o.map fun v => (v, rest)

theorem settled_readFloat (negative : Bool) (significand : Nat) (exponent : Int) :
    Settled (readFloat negative significand exponent) [] := by
  refine ⟨(scale (Double.ofNat significand) exponent).map fun x => float (signed negative x), fun rest _ => ?_⟩
  rw [List.nil_append, readFloat]
  cases scale (Double.ofNat significand) exponent <;> rfl

/-- Digits are gathered alike, whatever stands behind them. -/
theorem gather_append (limit : Nat) {ds rest : List Char} (hds : ∀ c ∈ ds, c.isDigit = true)
    (hrest : startsWithDigit rest = false) (n : Nat) :
    gather limit n (ds ++ rest) = ((gather limit n ds).1, (gather limit n ds).2 ++ rest) := by
  induction ds generalizing n with
  | nil =>
    cases rest with
    | nil => rfl
    | cons c rest =>
      have hc : c.isDigit = false := hrest
      simp [gather, hc]
  | cons d ds ih =>
    rw [List.forall_mem_cons] at hds
    rw [List.cons_append, gather, gather]
    split
    · exact ih hds.2 _
    · rfl

/-- What is not gathered of digits are digits. -/
theorem forall_gather (limit : Nat) {ds : List Char} (hds : ∀ c ∈ ds, c.isDigit = true) (n : Nat) :
    ∀ c ∈ (gather limit n ds).2, c.isDigit = true := by
  induction ds generalizing n with
  | nil => exact hds
  | cons d ds ih =>
    rw [gather]
    split
    · exact ih (List.forall_mem_cons.1 hds).2 _
    · exact hds

theorem exponentDigits_of_gather (negative : Bool) (significand : Nat) (base : Int) (down : Bool) {s u : List Char}
    {n : Nat} (hs : startsWithDigit s = true) (hgather : gather maxExponent 0 s = (n, u)) :
    exponentDigits negative significand base down s =
      if startsWithDigit u then
        if significand ≠ 0 ∧ !down then faultNext .numberOutOfRange u
        else .ok (.float (signed negative ⟨0⟩), dropDigits u)
      else readFloat negative significand (if down then base - n else base + n) u := by
  cases s with
  | nil => cases hs
  | cons c s =>
    have hc : c.isDigit = true := hs
    simp [exponentDigits, hc, hgather]

theorem settled_exponentDigits (negative : Bool) (significand : Nat) (base : Int) (down : Bool) {ds : List Char}
    (hds : Digits ds) : Settled (exponentDigits negative significand base down) ds := by
  have hleft := forall_gather maxExponent hds.all 0
  have hdigits : ∀ {rest : List Char}, Ends rest → _ := fun {rest} hends =>
    exponentDigits_of_gather negative significand base down (hds.startsWithDigit rest)
      (gather_append maxExponent hds.all hends.startsWithDigit 0)
  generalize gather maxExponent 0 ds = gathered at hleft hdigits
  obtain ⟨n, left⟩ := gathered
  cases left with
  | nil =>
    obtain ⟨o, ho⟩ := settled_readFloat negative significand (if down then base - n else base + n)
    refine ⟨o, fun rest hends => ?_⟩
    rw [← ho rest hends, hdigits hends, List.nil_append, if_neg (by simp [hends.startsWithDigit])]
  | cons c left =>
    -- digits that are left make the exponent too large, and are dropped
    refine ⟨if significand ≠ 0 ∧ !down then none else some (float (signed negative ⟨0⟩)), fun rest hends => ?_⟩
    have hstarts : startsWithDigit (c :: left ++ rest) = true := hleft c List.mem_cons_self
    rw [hdigits hends, if_pos hstarts, dropDigits_append hleft hends.startsWithDigit]
    split <;> rfl

theorem settled_exponentPart (negative : Bool) (significand : Nat) (base : Int) {sign ds : List Char}
    (hsign : sign = [] ∨ sign = ['+'] ∨ sign = ['-']) (hds : Digits ds) :
    Settled (exponentPart negative significand base) (sign ++ ds) := by
  rcases hsign with rfl | rfl | rfl
  · obtain ⟨o, ho⟩ := settled_exponentDigits negative significand base false hds
    refine ⟨o, fun rest hends => ?_⟩
    rw [← ho rest hends]
    obtain ⟨d, ds, rfl⟩ := List.exists_cons_of_ne_nil hds.ne_nil
    have hd : d.isDigit = true := hds.all d List.mem_cons_self
    have hplus : d ≠ '+' := by rintro rfl; exact absurd hd (by decide)
    have hminus : d ≠ '-' := by rintro rfl; exact absurd hd (by decide)
    simp [exponentPart, exponentDigits, hplus, hminus]
  · exact settled_exponentDigits negative significand base false hds
  · exact settled_exponentDigits negative significand base true hds

theorem settled_exponentOrEnd (negative : Bool) (significand : Nat) (base : Int) {es : List Char}
    (hes : Exponent es) : Settled (exponentOrEnd negative significand base) es := by
  cases hes with
  | none =>
    obtain ⟨o, ho⟩ := settled_readFloat negative significand base
    refine ⟨o, fun rest hends => ?_⟩
    rw [← ho rest hends]
    cases rest with
    | nil => rfl
    | cons c rest =>
      obtain ⟨-, -, he, hE⟩ := hends c rfl
      simp [exponentOrEnd, he, hE]
  | some hletter hsign hds =>
    obtain ⟨o, ho⟩ := settled_exponentPart negative significand base hsign hds
    refine ⟨o, fun rest hends => ?_⟩
    rw [← ho rest hends, List.cons_append, exponentOrEnd, if_pos hletter]

theorem settled_fraction (negative : Bool) (significand : Nat) (base : Int) {ds es : List Char} (hds : Digits ds)
    (hes : Exponent es) : Settled (fraction negative significand base) (ds ++ es) := by
  have hleft := forall_gather maxWord hds.all significand
  have hgather : ∀ {rest : List Char}, Ends rest → gather maxWord significand (ds ++ (es ++ rest)) =
      ((gather maxWord significand ds).1, (gather maxWord significand ds).2 ++ (es ++ rest)) :=
    fun hends => gather_append maxWord hds.all (hes.startsWithDigit hends) significand
  have hpos : 0 < ds.length := List.length_pos_iff.2 hds.ne_nil
  generalize gather maxWord significand ds = gathered at hleft hgather
  obtain ⟨n, left⟩ := gathered
  obtain ⟨o, ho⟩ := settled_exponentOrEnd negative n (base - ((ds.length - left.length : Nat) : Int)) hes
  refine ⟨o, fun rest hends => ?_⟩
  rw [← ho rest hends, List.append_assoc, fraction, hgather hends]
  have hdrop := dropDigits_append hleft (hes.startsWithDigit hends)
  have hused : (ds ++ (es ++ rest)).length - (left ++ (es ++ rest)).length = ds.length - left.length := by
    simp only [List.length_append]
    omega
  simp only [hdrop, hused]
  cases left with
  | nil => simp [hes.startsWithDigit hends, Nat.ne_of_gt hpos]
  | cons c left =>
    have hstarts : startsWithDigit (c :: left ++ (es ++ rest)) = true := hleft c List.mem_cons_self
    rw [if_pos hstarts]

/-- Reads what follows the whole part of a number, some digits of which were dropped. -/
def afterDigits (negative : Bool) (n dropped : Nat) (s : List Char) : Reading Json :=
  match s with
  | '.' :: r => fraction negative n dropped r
  | 'e' :: r => exponentPart negative n dropped r
  | 'E' :: r => exponentPart negative n dropped r
  | _ => if dropped = 0 then .ok (whole negative n, s) else readFloat negative n dropped s

theorem afterWhole_append (negative : Bool) (n : Nat) {left s : List Char} (hleft : ∀ c ∈ left, c.isDigit = true)
    (hs : startsWithDigit s = false) : afterWhole negative n (left ++ s) = afterDigits negative n left.length s := by
  have htaken : (left ++ s).takeWhile Char.isDigit = left := by
    rw [List.takeWhile_append_of_pos hleft]
    cases s with
    | nil => simp
    | cons c s =>
      have hc : c.isDigit = false := hs
      simp [hc]
  unfold afterWhole
  simp only [htaken, dropDigits_append hleft hs]
  rfl

theorem afterDigits_ends (negative : Bool) (n dropped : Nat) {rest : List Char} (hends : Ends rest) :
    afterDigits negative n dropped rest =
      if dropped = 0 then .ok (whole negative n, rest) else readFloat negative n dropped rest := by
  unfold afterDigits
  split
  · exact absurd rfl (hends '.' rfl).2.1
  · exact absurd rfl (hends 'e' rfl).2.2.1
  · exact absurd rfl (hends 'E' rfl).2.2.2
  · rfl

theorem settled_afterWhole (negative : Bool) (n : Nat) {left fs es : List Char}
    (hleft : ∀ c ∈ left, c.isDigit = true) (hfs : Fraction fs) (hes : Exponent es) :
    Settled (afterWhole negative n) (left ++ (fs ++ es)) := by
  have hafter : ∀ rest, Ends rest → afterWhole negative n (left ++ (fs ++ (es ++ rest))) =
      afterDigits negative n left.length (fs ++ (es ++ rest)) :=
    fun rest hends => afterWhole_append negative n hleft (hfs.startsWithDigit hes hends)
  simp only [Settled, List.append_assoc]
  cases hfs with
  | some hds =>
    obtain ⟨o, ho⟩ := settled_fraction negative n left.length hds hes
    refine ⟨o, fun rest hends => ?_⟩
    rw [← ho rest hends, hafter rest hends, List.append_assoc]
    rfl
  | none =>
    cases hes with
    | some hletter hsign hds =>
      obtain ⟨o, ho⟩ := settled_exponentPart negative n left.length hsign hds
      refine ⟨o, fun rest hends => ?_⟩
      rw [← ho rest hends, hafter rest hends]
      rcases hletter with rfl | rfl <;> rfl
    | none =>
      have hsettled : Settled (fun rest => if left.length = 0 then .ok (whole negative n, rest)
          else readFloat negative n left.length rest) [] := by
        split
        · exact ⟨some (whole negative n), fun _ _ => rfl⟩
        · exact settled_readFloat negative n left.length
      obtain ⟨o, ho⟩ := hsettled
      refine ⟨o, fun rest hends => ?_⟩
      rw [← ho rest hends, hafter rest hends]
      exact congrArg Except.toOption (afterDigits_ends negative n left.length hends)

theorem settled_readNumber (negative : Bool) {t : List Char} (ht : IsNumber t) : Settled (readNumber negative) t := by
  obtain ⟨ds, fs, es, hds, hfs, hes, rfl⟩ := ht
  simp only [Settled, List.append_assoc]
  cases hds with
  | zero =>
    obtain ⟨o, ho⟩ := settled_afterWhole negative 0 (List.forall_mem_nil _) hfs hes
    refine ⟨o, fun rest hends => ?_⟩
    have hstop := hfs.startsWithDigit hes hends
    rw [← ho rest hends, List.singleton_append, readNumber, if_pos rfl, if_neg (Bool.eq_false_iff.1 hstop),
      List.nil_append, List.append_assoc]
  | @digits d ds hd hne hds =>
    have hall : ∀ c ∈ d :: ds, c.isDigit = true := List.forall_mem_cons.2 ⟨hd, hds⟩
    obtain ⟨o, ho⟩ := settled_afterWhole negative (gather maxWord 0 (d :: ds)).1
      (forall_gather maxWord hall 0) hfs hes
    refine ⟨o, fun rest hends => ?_⟩
    have hgather := gather_append maxWord hall (hfs.startsWithDigit hes hends) 0
    rw [List.cons_append] at hgather ⊢
    rw [← ho rest hends, readNumber, if_neg hne, if_pos hd, hgather]
    simp only [List.append_assoc]

/-- **What is read as a number are the texts of numbers that have a value**, if no text follows that goes on with
them. -/
theorem readNumber_iff {negative : Bool} {s r : List Char} {v : Json} (hends : Ends r) :
    readNumber negative s = .ok (v, r) ↔
      ∃ t, IsNumber t ∧ readNumber negative t = .ok (v, []) ∧ s = t ++ r := by
  have hsettled : ∀ {t : List Char}, IsNumber t →
      (readNumber negative (t ++ r) = .ok (v, r) ↔ readNumber negative t = .ok (v, [])) := by
    intro t ht
    have hoption : ∀ {x : Reading Json} {y : Json × List Char}, x = .ok y ↔ x.toOption = some y := by
      intro x y
      cases x <;> simp [Except.toOption]
    obtain ⟨o, ho⟩ := settled_readNumber negative ht
    have hnil := ho [] ends_nil
    rw [List.append_nil] at hnil
    rw [hoption, hoption, ho r hends, hnil]
    simp
  constructor
  · intro hread
    obtain ⟨t, ht, rfl⟩ := isNumber_of_passNumber (passNumber_of_readNumber hread)
    exact ⟨t, ht, (hsettled ht).1 hread, rfl⟩
  · rintro ⟨t, ht, hread, rfl⟩
    exact (hsettled ht).2 hread

end ImagePush.Json
