import ImagePush.CommandLine.Parse
import ImagePush.Proofs.Text.Utf8

/-!
# What a word of a command line says

A word is plain, or it spells options: a long name, with a value behind an equals sign or without one, or a cluster of
letters (`Spells`). The last option of a word may still wait for its value. A word is taken exactly if it spells
options, or if it is plain and an option waits for it (`takeWord_of_spells`, `spells_of_takeWord`).
-/

namespace ImagePush.CommandLine

/-! ### Names of options -/

namespace Opt

variable {o : Opt} {c : Char}

/-- An option that is set by being there. -/
def IsFlag (o : Opt) : Prop :=
  o.takesValue = false ∧ o.isRequest = false

theorem mem_all (o : Opt) : o ∈ all := by
  cases o <;> decide

theorem ofLong?_eq_some_iff {name : String} : ofLong? name = some o ↔ name = o.long := by
  constructor
  · intro h
    have hname := List.find?_some h
    exact (beq_iff_eq.1 hname).symm
  · rintro rfl
    cases o <;> rfl

theorem ofShort?_eq_some_iff : ofShort? c = some o ↔ o.short? = some c := by
  constructor
  · intro h
    have hshort := @List.find?_some _ (fun o : Opt => o.short? == some c) o all h
    exact beq_iff_eq.1 hshort
  · intro h
    cases o <;> cases h <;> rfl

/-- The bytes of a long name are those of ASCII letters, and none is an equals sign. -/
theorem long_ascii (o : Opt) : ∀ b ∈ Text.Utf8.ofString o.long, b < 0x80 ∧ b ≠ equals := by
  have hall : ((Text.Utf8.ofString o.long).all fun b => decide (b.toNat < 0x80) && b != equals) = true := by
    cases o <;> rfl
  intro b hb
  have hbyte := List.all_eq_true.1 hall b hb
  simpa [UInt8.lt_iff_toNat_lt] using hbyte

theorem long_ne_nil (o : Opt) : Text.Utf8.ofString o.long ≠ [] := by
  cases o <;> decide

/-- A letter is one byte, which is no hyphen. -/
theorem encodeChar_short (h : o.short? = some c) : ∃ b, Text.Utf8.encodeChar c = [b] ∧ b ≠ hyphen := by
  cases o <;> cases h <;> exact ⟨_, rfl, by decide⟩

end Opt

/-! ### Shapes -/

variable {w name v more : Word} {value : Option Word} {cs : List Char} {rest : Word}

/-- The bytes of a value behind its equals sign. -/
def attachedBytes : Option Word → Word
  | none => []
  | some v => equals :: v

theorem splitValue_append (hname : equals ∉ name) (value : Option Word) :
    splitValue (name ++ attachedBytes value) = (name, value) := by
  induction name with
  | nil => cases value <;> rfl
  | cons b name ih =>
    obtain ⟨hb, hname⟩ := not_or.1 (mt List.mem_cons.2 hname)
    rw [List.cons_append, splitValue, if_neg (Ne.symm hb), ih hname]

theorem eq_of_splitValue (h : splitValue w = (name, value)) : w = name ++ attachedBytes value := by
  induction w generalizing name with
  | nil =>
    cases h
    rfl
  | cons b w ih =>
    rw [splitValue] at h
    split at h
    · next hb =>
      cases h
      rw [hb]
      rfl
    · cases h
      exact congrArg (b :: ·) (ih rfl)

/-- The text at the front of a word is the longest one. -/
theorem frontText_eq_iff :
    frontText w = (cs, rest) ↔ w = Text.Utf8.encode cs ++ rest ∧ Text.Utf8.Broken rest := by
  have hfront : ∃ cs rest, frontText w = (cs, rest) ∧ w = Text.Utf8.encode cs ++ rest ∧ Text.Utf8.Broken rest := by
    unfold frontText
    cases hdecode : Text.Utf8.decode w with
    | ok cs =>
      refine ⟨cs, [], rfl, ?_, Text.Utf8.broken_nil⟩
      rw [List.append_nil, Text.Utf8.decode_eq_ok_iff.1 hdecode]
    | error m =>
      obtain ⟨cs, rest, rfl, hindex, hbroken⟩ := Text.Utf8.of_decodeFrom_eq_error hdecode
      rw [Nat.zero_add] at hindex
      refine ⟨cs, rest, ?_, rfl, hbroken⟩
      simp only [hindex, List.take_left, List.drop_left, Text.Utf8.decode?_encode, Option.getD_some]
  obtain ⟨cs', rest', hsplit, hparts, hbroken⟩ := hfront
  rw [hsplit, Prod.mk.injEq]
  constructor
  · rintro ⟨rfl, rfl⟩
    exact ⟨hparts, hbroken⟩
  · rintro ⟨hparts', hbroken'⟩
    exact Text.Utf8.encode_append_inj hbroken hbroken' (hparts.symm.trans hparts')

/-- A word that is shown as a long name is that name. -/
theorem displayed_eq_long {o : Opt} : displayed name = o.long ↔ name = Text.Utf8.ofString o.long := by
  constructor
  · intro h
    have hname : Text.Utf8.decodeLossy name = o.long.toList := by
      rw [← h, displayed, String.toList_ofList]
    rw [Text.Utf8.ofString, ← hname]
    apply Text.Utf8.eq_encode_of_decodeLossy
    rw [hname]
    cases o <;> decide
  · rintro rfl
    rw [displayed, Text.Utf8.ofString, Text.Utf8.decodeLossy_encode, String.ofList_toList]

/-- A word that is no option: it does not begin with a hyphen, or it is a hyphen. -/
def Plain (w : Word) : Prop :=
  w.head? ≠ some hyphen ∨ w = [hyphen]

theorem shape_plain (h : Plain w) : shape w = .plain := by
  rcases h with h | rfl
  · cases w with
    | nil => rfl
    | cons b rest =>
      have hb : b ≠ hyphen := fun hb => h (by rw [hb]; rfl)
      rw [shape.eq_def]
      exact if_pos hb
  · rfl

theorem shape_long (hname : equals ∉ name) (hne : name ≠ []) (value : Option Word) :
    shape (hyphen :: hyphen :: (name ++ attachedBytes value)) = .long name value := by
  have hempty : (name ++ attachedBytes value).isEmpty = false := by
    rw [List.isEmpty_eq_false_iff]
    exact List.append_ne_nil_of_left_ne_nil hne _
  simp [shape, hempty, splitValue_append hname]

theorem shape_letters {b : UInt8} (hb : b ≠ hyphen) (hparts : b :: more = Text.Utf8.encode cs ++ rest)
    (hbroken : Text.Utf8.Broken rest) : shape (hyphen :: b :: more) = .letters cs rest := by
  have hfront : frontText (b :: more) = (cs, rest) := frontText_eq_iff.2 ⟨hparts, hbroken⟩
  simp [shape, hb, hfront]

/-- What the words of each shape are. -/
theorem of_shape (w : Word) :
    match shape w with
    | .endMark => w = [hyphen, hyphen]
    | .long name value => w = hyphen :: hyphen :: (name ++ attachedBytes value)
    | .letters cs rest => w = hyphen :: (Text.Utf8.encode cs ++ rest) ∧ Text.Utf8.encode cs ++ rest ≠ []
    | .plain => Plain w := by
  match w with
  | [] => exact .inl (by simp)
  | b :: rest =>
    by_cases hb : b = hyphen
    · subst hb
      match rest with
      | [] => exact .inr rfl
      | c :: more =>
        by_cases hc : c = hyphen
        · subst hc
          match more with
          | [] => rfl
          | d :: more =>
            cases hsplit : splitValue (d :: more) with
            | mk name value =>
              have hshape : shape (hyphen :: hyphen :: d :: more) = .long name value := by simp [shape, hsplit]
              rw [hshape]
              exact congrArg (hyphen :: hyphen :: ·) (eq_of_splitValue hsplit)
        · cases hfront : frontText (c :: more) with
          | mk cs rest =>
            have hparts := (frontText_eq_iff.1 hfront).1
            have hshape : shape (hyphen :: c :: more) = .letters cs rest := by simp [shape, hc, hfront]
            rw [hshape]
            refine ⟨congrArg (hyphen :: ·) hparts, ?_⟩
            rw [← hparts]
            exact List.cons_ne_nil c more
    · have hplain : Plain (b :: rest) := .inl (by simpa using hb)
      rw [shape_plain hplain]
      exact hplain

/-! ### Settling options -/

namespace Progress

variable {p q : Progress} {o : Opt}

/-- Settles options one after another. -/
def settleAll (p : Progress) (given : List (Opt × Word)) : Except Refusal Progress :=
  given.foldlM (fun p g => p.settle g.1 g.2) p

theorem settleAll_cons (p : Progress) (g : Opt × Word) (given : List (Opt × Word)) :
    p.settleAll (g :: given) = p.settle g.1 g.2 >>= fun q => q.settleAll given :=
  List.foldlM_cons

theorem settleAll_append (p : Progress) (given given' : List (Opt × Word)) :
    p.settleAll (given ++ given') = p.settleAll given >>= fun q => q.settleAll given' :=
  List.foldlM_append

/-- An option that waits for its value, or none. -/
def waiting (p : Progress) (next : Option Opt) : Progress :=
  match next with
  | none => p
  | some o => { p with pending := some (o, none) }

/-- Settles options behind the one that is pending. The last of them may wait for its value. -/
def takeAll (p : Progress) (given : List (Opt × Word)) (next : Option Opt) : Except Refusal Progress :=
  p.resolve >>= fun q => q.settleAll given >>= fun q => .ok (q.waiting next)

theorem pending_settle (h : p.settle o v = .ok q) : q.pending = p.pending := by
  unfold settle at h
  split at h
  · cases h
  · split at h
    · cases h
    · cases h
      rfl

theorem pending_resolve (h : p.resolve = .ok q) : q.pending = none := by
  unfold resolve at h
  split at h
  · next hpending =>
    cases h
    exact hpending
  · cases h
  · rw [pending_settle h]

theorem resolve_of_pending (h : p.pending = none) : p.resolve = .ok p := by
  rw [resolve, h]

theorem pending_settleAll {given : List (Opt × Word)} (h : p.settleAll given = .ok q) : q.pending = p.pending := by
  induction given generalizing p with
  | nil =>
    cases h
    rfl
  | cons g given ih =>
    rw [settleAll_cons] at h
    obtain ⟨p', hsettle, h⟩ := bind_eq_ok.1 h
    rw [ih h, pending_settle hsettle]

/-- A single option is settled. -/
theorem takeAll_singleton (p : Progress) (o : Opt) (v : Word) :
    p.takeAll [(o, v)] none = p.resolve >>= fun q => q.settle o v := by
  unfold takeAll
  cases p.resolve with
  | error r => rfl
  | ok q =>
    show q.settleAll [(o, v)] >>= pure = q.settle o v
    rw [bind_pure, settleAll, List.foldlM_cons]
    exact bind_pure _

theorem takeFlag_eq (ho : o.IsFlag) (p : Progress) : p.takeFlag o = p.takeAll [(o, [])] none := by
  obtain ⟨-, hrequest⟩ := ho
  rw [takeAll_singleton, takeFlag.eq_def]
  cases p.resolve with
  | error r => rfl
  | ok q =>
    cases o with
    | help => cases hrequest
    | version => cases hrequest
    | _ => rfl

theorem takeAttached_eq (p : Progress) (o : Opt) (v : Word) :
    p.takeAttached o v = p.takeAll [(o, v)] none := by
  rw [takeAll_singleton, takeAttached]
  cases p.resolve <;> rfl

theorem takeOpen_eq (p : Progress) (o : Opt) :
    p.takeOpen o = p.takeAll [] (some o) := by
  unfold takeOpen takeAll
  cases p.resolve <;> rfl

/-- No request is taken as a flag. -/
theorem isFlag_of_takeFlag (ho : o.takesValue = false) (h : p.takeFlag o = .ok q) : o.IsFlag := by
  refine ⟨ho, ?_⟩
  unfold takeFlag at h
  split at h
  · cases h
  · cases o with
    | help => cases h
    | version => cases h
    | _ => rfl

end Progress

/-! ### Options in a word -/

/-- The letters of a cluster, with the options that they give and the option that waits for its value. -/
inductive Cluster : Word → List (Opt × Word) → Option Opt → Prop where
  | nil : Cluster [] [] none
  /-- A flag, behind which more letters may stand. -/
  | flag {o : Opt} {c : Char} {w : Word} {given : List (Opt × Word)} {next : Option Opt} (hc : o.short? = some c)
      (ho : o.IsFlag) (hw : Cluster w given next) : Cluster (Text.Utf8.encodeChar c ++ w) ((o, []) :: given) next
  /-- The value is the next word. -/
  | waits {o : Opt} {c : Char} (hc : o.short? = some c) (ho : o.takesValue = true) :
      Cluster (Text.Utf8.encodeChar c ++ []) [] (some o)
  /-- The value is what follows the letter. -/
  | attached {o : Opt} {c : Char} {v : Word} (hc : o.short? = some c) (ho : o.takesValue = true) (hne : v ≠ [])
      (hv : v.head? ≠ some equals) : Cluster (Text.Utf8.encodeChar c ++ v) [(o, v)] none
  /-- The value is what follows the letter and an equals sign. -/
  | equals {o : Opt} {c : Char} {v : Word} (hc : o.short? = some c) (ho : o.takesValue = true) :
      Cluster (Text.Utf8.encodeChar c ++ CommandLine.equals :: v) [(o, v)] none

/-- A long option in a word, with its value or without one. -/
def longWord (o : Opt) (value : Option Word) : Word :=
  hyphen :: hyphen :: (Text.Utf8.ofString o.long ++ attachedBytes value)

/-- A word spells options, the last of which may wait for its value. -/
inductive Spells : Word → List (Opt × Word) → Option Opt → Prop where
  /-- The long name of a flag. -/
  | flag {o : Opt} (ho : o.IsFlag) : Spells (longWord o none) [(o, [])] none
  /-- A long name whose value is the next word. -/
  | waits {o : Opt} (ho : o.takesValue = true) : Spells (longWord o none) [] (some o)
  /-- A long name with its value behind an equals sign. -/
  | attached {o : Opt} (ho : o.takesValue = true) (v : Word) : Spells (longWord o (some v)) [(o, v)] none
  /-- Letters behind one hyphen. -/
  | letters {w : Word} {given : List (Opt × Word)} {next : Option Opt} (hw : Cluster w given next) (hne : w ≠ []) :
      Spells (hyphen :: w) given next

variable {given : List (Opt × Word)} {next : Option Opt} {p q : Progress}

theorem shape_longWord (o : Opt) (value : Option Word) :
    shape (longWord o value) = .long (Text.Utf8.ofString o.long) value :=
  shape_long (fun hmem => (o.long_ascii _ hmem).2 rfl) o.long_ne_nil value

theorem takeLong_eq (p : Progress) (o : Opt) (value : Option Word) :
    takeLong p (Text.Utf8.ofString o.long) value =
      match o.takesValue, value with
      | true, some v => p.takeAttached o v
      | true, none => p.takeOpen o
      | false, some v => .error (.unexpectedValue (displayed v) o p.options)
      | false, none => p.takeFlag o := by
  have hname : Opt.ofLong? (displayed (Text.Utf8.ofString o.long)) = some o := by
    rw [displayed_eq_long.2 rfl, Opt.ofLong?_eq_some_iff]
  unfold takeLong
  cases hvalued : o.takesValue <;> cases value <;> simp only [hname, hvalued]

/-- A letter is taken as its option. -/
theorem takeLetters_cons {o : Opt} {c : Char} (hc : o.short? = some c) (p : Progress) :
    takeLetters p rest (c :: cs) =
      if o.takesValue then
        match Text.Utf8.encode cs ++ rest with
        | [] => p.takeOpen o
        | b :: bs => p.takeAttached o (if b = equals then bs else b :: bs)
      else p.takeFlag o >>= fun q => takeLetters q rest cs := by
  rw [takeLetters, Opt.ofShort?_eq_some_iff.2 hc]
  simp only
  split
  · rfl
  · cases p.takeFlag o <;> rfl

/-- The text of a cluster begins with its letter. -/
theorem cluster_text {c : Char} (hbroken : Text.Utf8.Broken rest)
    (h : Text.Utf8.encodeChar c ++ w = Text.Utf8.encode cs ++ rest) :
    ∃ cs', cs = c :: cs' ∧ w = Text.Utf8.encode cs' ++ rest := by
  cases cs with
  | nil => exact absurd h.symm (hbroken c w)
  | cons c' cs =>
    rw [Text.Utf8.encode_cons, List.append_assoc] at h
    obtain ⟨rfl, hw⟩ := Text.Utf8.encodeChar_append_inj h
    exact ⟨cs, rfl, hw⟩

/-- The options of a cluster are settled one after another. -/
theorem takeLetters_of_cluster (hw : Cluster w given next) (hbroken : Text.Utf8.Broken rest)
    (hparts : w = Text.Utf8.encode cs ++ rest) (hpending : w = [] → p.pending = none) :
    takeLetters p rest cs = p.takeAll given next := by
  induction hw generalizing cs p with
  | nil =>
    obtain ⟨hcs, rfl⟩ := List.append_eq_nil_iff.1 hparts.symm
    obtain rfl : cs = [] := Text.Utf8.encode_injective hcs
    rw [Progress.takeAll, Progress.resolve_of_pending (hpending rfl)]
    rfl
  | @flag o c w given next hc ho hw ih =>
    obtain ⟨cs, rfl, rfl⟩ := cluster_text hbroken hparts
    rw [takeLetters_cons hc, ho.1, Progress.takeFlag_eq ho, if_neg (by decide), Progress.takeAll_singleton,
      Progress.takeAll]
    cases hresolve : p.resolve with
    | error r => rfl
    | ok p₁ =>
      show p₁.settle o [] >>= _ = p₁.settleAll _ >>= _
      rw [Progress.settleAll_cons, bind_assoc]
      cases hsettle : p₁.settle o [] with
      | error r => rfl
      | ok p₂ =>
        -- behind the first letter nothing is pending
        have hnone : p₂.pending = none := (Progress.pending_settle hsettle).trans (Progress.pending_resolve hresolve)
        show takeLetters p₂ rest cs = p₂.settleAll given >>= _
        rw [ih rfl fun _ => hnone, Progress.takeAll, Progress.resolve_of_pending hnone]
        rfl
  | @waits o c hc ho =>
    obtain ⟨cs, rfl, hrest⟩ := cluster_text hbroken hparts
    rw [takeLetters_cons hc, ho, if_pos rfl, ← hrest]
    exact Progress.takeOpen_eq p o
  | @attached o c v hc ho hne hv =>
    obtain ⟨cs, rfl, hrest⟩ := cluster_text hbroken hparts
    rw [takeLetters_cons hc, ho, if_pos rfl, ← hrest, ← Progress.takeAttached_eq]
    cases v with
    | nil => exact absurd rfl hne
    | cons b bs =>
      have hb : b ≠ equals := fun hb => hv (congrArg some hb)
      simp only
      rw [if_neg hb]
  | @equals o c v hc ho =>
    obtain ⟨cs, rfl, hrest⟩ := cluster_text hbroken hparts
    rw [takeLetters_cons hc, ho, if_pos rfl, ← hrest, ← Progress.takeAttached_eq]
    exact congrArg (p.takeAttached o) (if_pos rfl)

/-- Letters that are taken are a cluster. -/
theorem cluster_of_takeLetters (h : takeLetters p rest cs = .ok q) :
    ∃ given next, Cluster (Text.Utf8.encode cs ++ rest) given next := by
  induction cs generalizing p with
  | nil =>
    rw [takeLetters] at h
    split at h
    · next hrest =>
      rw [List.isEmpty_iff.1 hrest]
      exact ⟨[], none, .nil⟩
    · cases h
  | cons c cs ih =>
    cases ho : Opt.ofShort? c with
    | none =>
      rw [takeLetters, ho] at h
      cases h
    | some o =>
      have hc := Opt.ofShort?_eq_some_iff.1 ho
      rw [takeLetters_cons hc] at h
      rw [Text.Utf8.encode_cons, List.append_assoc]
      cases hvalue : o.takesValue with
      | true =>
        cases hmore : Text.Utf8.encode cs ++ rest with
        | nil => exact ⟨_, _, .waits hc hvalue⟩
        | cons b bs =>
          by_cases hb : b = equals
          · subst hb
            exact ⟨_, _, .equals hc hvalue⟩
          · exact ⟨_, _, .attached hc hvalue (List.cons_ne_nil b bs) fun heq => hb (Option.some.inj heq)⟩
      | false =>
        rw [hvalue, if_neg (by decide)] at h
        obtain ⟨p', hflag, h⟩ := bind_eq_ok.1 h
        obtain ⟨given, next, hcluster⟩ := ih h
        exact ⟨_, _, .flag hc (Progress.isFlag_of_takeFlag hvalue hflag) hcluster⟩

/-! ### Taking a word -/

/-- Takes a word that does not end the options. -/
def takeWord (p : Progress) (w : Word) : Except Refusal Progress :=
  match shape w with
  | .endMark => .ok p
  | .long name value => takeLong p name value
  | .letters cs rest => takeLetters p rest cs
  | .plain => takePlain p w

theorem takeWords_cons (h : w ≠ [hyphen, hyphen]) (p : Progress) (ws : List Word) :
    takeWords p (w :: ws) = takeWord p w >>= fun q => takeWords q ws := by
  have hshape := of_shape w
  rw [takeWords.eq_def, takeWord]
  cases hw : shape w with
  | endMark =>
    rw [hw] at hshape
    exact absurd hshape h
  | long name value =>
    simp only [hw]
    cases takeLong p name value <;> rfl
  | letters cs rest =>
    simp only [hw]
    cases takeLetters p rest cs <;> rfl
  | plain =>
    simp only [hw]
    cases takePlain p w <;> rfl

theorem takeWord_longWord (p : Progress) (o : Opt) (value : Option Word) :
    takeWord p (longWord o value) = takeLong p (Text.Utf8.ofString o.long) value := by
  rw [takeWord, shape_longWord]

/-- Behind the hyphen of a cluster there is no other one. -/
theorem Cluster.head (hw : Cluster w given next) (hne : w ≠ []) : ∃ b more, w = b :: more ∧ b ≠ hyphen := by
  have hletter : ∀ {o : Opt} {c : Char} {v : Word}, o.short? = some c →
      ∃ b more, Text.Utf8.encodeChar c ++ v = b :: more ∧ b ≠ hyphen := by
    intro o c v hc
    obtain ⟨b, hbyte, hb⟩ := Opt.encodeChar_short hc
    exact ⟨b, v, by rw [hbyte]; rfl, hb⟩
  cases hw with
  | nil => exact absurd rfl hne
  | flag hc => exact hletter hc
  | waits hc => exact hletter hc
  | attached hc => exact hletter hc
  | equals hc => exact hletter hc

theorem Spells.ne_endMark (hw : Spells w given next) : w ≠ [hyphen, hyphen] := by
  have hlong : ∀ (o : Opt) (value : Option Word), longWord o value ≠ [hyphen, hyphen] := by
    intro o value h
    have hname : Text.Utf8.ofString o.long ++ attachedBytes value = [] := (List.cons.inj (List.cons.inj h).2).2
    exact o.long_ne_nil (List.append_eq_nil_iff.1 hname).1
  cases hw with
  | flag => exact hlong _ _
  | waits => exact hlong _ _
  | attached => exact hlong _ _
  | letters hw hne =>
    obtain ⟨b, more, rfl, hb⟩ := hw.head hne
    intro h
    exact hb (List.cons.inj (List.cons.inj h).2).1

/-- **The options that a word spells are settled one after another, behind the one that was pending.** -/
theorem takeWord_of_spells (hw : Spells w given next) (p : Progress) : takeWord p w = p.takeAll given next := by
  cases hw with
  | @flag o ho =>
    rw [takeWord_longWord, takeLong_eq, ho.1]
    exact Progress.takeFlag_eq ho p
  | @waits o ho =>
    rw [takeWord_longWord, takeLong_eq, ho]
    exact Progress.takeOpen_eq p o
  | @attached o ho v =>
    rw [takeWord_longWord, takeLong_eq, ho]
    exact Progress.takeAttached_eq p o v
  | @letters w given next hw hne =>
    obtain ⟨b, more, rfl, hb⟩ := hw.head hne
    cases hfront : frontText (b :: more) with
    | mk cs rest =>
      obtain ⟨hparts, hbroken⟩ := frontText_eq_iff.1 hfront
      rw [takeWord, shape_letters hb hparts hbroken]
      exact takeLetters_of_cluster hw hbroken hparts fun h => absurd h hne

/-- **A word that is taken spells options, or it is plain and is the value of the option that waits for one.** -/
theorem spells_of_takeWord (hmark : w ≠ [hyphen, hyphen]) (h : takeWord p w = .ok q) :
    (∃ given next, Spells w given next) ∨
      Plain w ∧ ∃ o, p.pending = some (o, none) ∧ q = { p with pending := some (o, some w) } := by
  have hshape := of_shape w
  rw [takeWord] at h
  cases hw : shape w with
  | endMark =>
    rw [hw] at hshape
    exact absurd hshape hmark
  | long name value =>
    rw [hw] at h hshape
    simp only at h hshape
    left
    cases ho : Opt.ofLong? (displayed name) with
    | none =>
      rw [takeLong, ho] at h
      cases h
    | some o =>
      obtain rfl := displayed_eq_long.1 (Opt.ofLong?_eq_some_iff.1 ho)
      rw [takeLong_eq] at h
      rw [hshape]
      cases hvalue : o.takesValue with
      | true =>
        cases value with
        | none => exact ⟨_, _, .waits hvalue⟩
        | some v => exact ⟨_, _, .attached hvalue v⟩
      | false =>
        rw [hvalue] at h
        cases value with
        | none => exact ⟨_, _, .flag (Progress.isFlag_of_takeFlag hvalue h)⟩
        | some v => cases h
  | letters cs rest =>
    rw [hw] at h hshape
    simp only at h hshape
    obtain ⟨rfl, hne⟩ := hshape
    obtain ⟨given, next, hcluster⟩ := cluster_of_takeLetters h
    exact .inl ⟨given, next, .letters hcluster hne⟩
  | plain =>
    rw [hw] at h hshape
    simp only at h hshape
    refine .inr ⟨hshape, ?_⟩
    unfold takePlain at h
    split at h
    · next o hpending =>
      cases h
      exact ⟨o, hpending, rfl⟩
    · cases h

end ImagePush.CommandLine
