import ImagePush.Proofs.CommandLine.Arguments

/-!
# Arguments through their renderings

Arguments are rendered as a command line option by option, in any order: a value behind an equals sign or, where the
option has a letter and the value does not look like an option, in a word of its own (`Renders`). Whatever the
rendering, the arguments are read from it again (`parse_undoes_rendering`).
-/

namespace ImagePush.CommandLine

/-- A letter as a word. -/
def letterWord (c : Char) : Word :=
  hyphen :: Text.Utf8.encodeChar c

/-- The words for one option. -/
inductive RendersItem : Opt × String → List Word → Prop where
  /-- A long name with the value behind an equals sign, whatever the value is. -/
  | attached {o : Opt} (ho : o.takesValue = true) (text : String) :
      RendersItem (o, text) [longWord o (some (Text.Utf8.ofString text))]
  /-- A letter and the value in a word of its own. -/
  | separate {o : Opt} {c : Char} {text : String} (ho : o.takesValue = true) (hc : o.short? = some c)
      (htext : text.toList.head? ≠ some '-') : RendersItem (o, text) [letterWord c, Text.Utf8.ofString text]
  /-- The long name of a flag that is set. -/
  | long {o : Opt} (ho : o.IsFlag) : RendersItem (o, "") [longWord o none]
  /-- The letter of a flag that is set. -/
  | short {o : Opt} {c : Char} (ho : o.IsFlag) (hc : o.short? = some c) : RendersItem (o, "") [letterWord c]

/-- The words for options, one after another. -/
inductive Renders : List (Opt × String) → List Word → Prop where
  /-- No options, no words. -/
  | nil : Renders [] []
  /-- The words for the first option stand in front, in any of its forms. -/
  | cons {item : Opt × String} {items : List (Opt × String)} {ws ws' : List Word} (hitem : RendersItem item ws)
      (hitems : Renders items ws') : Renders (item :: items) (ws ++ ws')

variable {args : Args} {items : List (Opt × String)} {ws : List Word} {given : List (Opt × Word)}

/-- A text that does not begin with a hyphen is a plain word. -/
theorem plain_ofString {text : String} (htext : text.toList.head? ≠ some '-') : Plain (Text.Utf8.ofString text) := by
  left
  rw [Text.Utf8.ofString]
  cases hcs : text.toList with
  | nil => simp [Text.Utf8.encode]
  | cons c cs =>
    rw [hcs] at htext
    intro hhead
    obtain ⟨b, bs, hbytes, -⟩ := Text.Utf8.head_encodeChar c []
    rw [Text.Utf8.encode_cons, hbytes, List.cons_append, List.head?_cons] at hhead
    have hmem : hyphen ∈ Text.Utf8.encodeChar c := by
      rw [hbytes, Option.some.inj hhead]
      exact List.mem_cons_self
    exact htext (congrArg some (Text.Utf8.eq_of_mem_encodeChar hmem (by decide)))

/-- What an option is rendered as gives the option, whatever is given behind it. -/
theorem RendersItem.gives {item : Opt × String} (hitem : RendersItem item ws) {ws' : List Word}
    (hgives : Gives ws' given) : Gives (ws ++ ws') (inBytes item :: given) := by
  have hletter : ∀ {o c next given}, Cluster (Text.Utf8.encodeChar c ++ []) given next →
      Opt.short? o = some c → Spells (letterWord c) given next := by
    intro o c next given hcluster hc
    obtain ⟨b, hbyte, -⟩ := Opt.encodeChar_short hc
    rw [List.append_nil] at hcluster
    exact .letters hcluster (by rw [hbyte]; exact List.cons_ne_nil b [])
  cases hitem with
  | attached ho text => exact .word (.attached ho _) hgives
  | separate ho hc htext => exact .valued (hletter (.waits hc ho) hc) (plain_ofString htext) hgives
  | long ho => exact .word (.flag ho) hgives
  | short ho hc => exact .word (hletter (.flag hc ho .nil) hc) hgives

theorem Renders.gives (h : Renders items ws) : Gives ws (items.map inBytes) := by
  induction h with
  | nil => exact .nil
  | cons hitem _ ih => exact hitem.gives ih

/-- Options that are not among those of any arguments, or in which an option is there twice, are not accepted. -/
theorem Gives.not_accepted (hws : Gives ws given)
    (h : Opt.verbose ∈ given.map Prod.fst ∧ Opt.quiet ∈ given.map Prod.fst ∨ Opt.artifact ∉ given.map Prod.fst ∨
      ¬ (given.map Prod.fst).Nodup) : parse ws ≠ .ok args := by
  intro haccepted
  obtain ⟨hboth, items, hperm, rfl⟩ := hws.parse_eq_ok_iff.1 haccepted
  have hkeys : ((items.map inBytes).map Prod.fst).Perm (args.items.map Prod.fst) := by
    rw [List.map_map]
    exact hperm.map Prod.fst
  rcases h with ⟨hverbose, hquiet⟩ | hartifact | htwice
  · rw [hkeys.mem_iff, Args.mem_keys_items] at hverbose hquiet
    exact hboth ⟨by simpa [Args.value?] using hverbose, by simpa [Args.value?] using hquiet⟩
  · rw [hkeys.mem_iff, Args.mem_keys_items] at hartifact
    exact hartifact rfl
  · exact htwice (hkeys.nodup_iff.2 args.nodup_items)

/-- **Reading a command line undoes rendering it, in any order.** Arguments in which verbose and quiet are not both set
are read from every line that their options are rendered as, in every order. Words that give verbose and quiet, no
artifact or an option twice are not accepted, in whatever way the options are spelled; and accepted are only words that
give the options of the arguments, each of them once. -/
theorem parse_undoes_rendering :
    (∀ (args : Args) (items : List (Opt × String)) (ws : List Word), ¬ (args.verbose = true ∧ args.quiet = true) →
      items.Perm args.items → Renders items ws → parse ws = .ok args) ∧
    (∀ (ws : List Word) (given : List (Opt × Word)), Gives ws given →
      (Opt.verbose ∈ given.map Prod.fst ∧ Opt.quiet ∈ given.map Prod.fst ∨ Opt.artifact ∉ given.map Prod.fst ∨
        ¬ (given.map Prod.fst).Nodup) →
      ∀ args, parse ws ≠ .ok args) ∧
    ∀ (ws : List Word) (args : Args), parse ws = .ok args →
      ∃ items : List (Opt × String), items.Perm args.items ∧ Gives ws (items.map inBytes) := by
  refine ⟨?_, ?_, ?_⟩
  · intro args items ws hboth hperm hrenders
    exact parse_eq_ok_iff.2 ⟨hboth, items, hperm, hrenders.gives⟩
  · intro ws given hws h args
    exact hws.not_accepted h
  · intro ws args h
    exact (parse_eq_ok_iff.1 h).2

/-- A line with a value that looks like an option, and with the artifact at its end. -/
def shuffledLine : List Word :=
  ["--config=--quiet", "-v", "-a", "in.json"].map Text.Utf8.ofString

/-- A line that gives verbose and quiet. -/
def clashingLine : List Word :=
  ["-v", "--quiet", "-a", "in.json"].map Text.Utf8.ofString

/-- Options are read in an order of their own, a value is not taken for an option, and a clash is not accepted. -/
theorem parse_undoes_rendering_shuffled :
    [(Opt.config, "--quiet"), (.verbose, ""), (.artifact, "in.json")].Perm
        (Args.items { artifact := "in.json", config := some "--quiet", verbose := true }) ∧
      Renders [(.config, "--quiet"), (.verbose, ""), (.artifact, "in.json")] shuffledLine ∧
      parse shuffledLine = .ok { artifact := "in.json", config := some "--quiet", verbose := true } ∧
      Renders [(.verbose, ""), (.quiet, ""), (.artifact, "in.json")] clashingLine ∧
      ∀ args, parse clashingLine ≠ .ok args := by
  have hperm : [(Opt.config, "--quiet"), (.verbose, ""), (.artifact, "in.json")].Perm
      (Args.items { artifact := "in.json", config := some "--quiet", verbose := true }) := by decide
  have hplain : "in.json".toList.head? ≠ some '-' := by decide
  have hartifact : Renders [(.artifact, "in.json")] (["-a", "in.json"].map Text.Utf8.ofString) :=
    .cons (.separate (c := 'a') rfl rfl hplain) .nil
  have hverbose : RendersItem (.verbose, "") (["-v"].map Text.Utf8.ofString) := .short (c := 'v') ⟨rfl, rfl⟩ rfl
  have hquiet : RendersItem (.quiet, "") (["--quiet"].map Text.Utf8.ofString) := .long (o := .quiet) ⟨rfl, rfl⟩
  have hconfig : RendersItem (.config, "--quiet") (["--config=--quiet"].map Text.Utf8.ofString) :=
    .attached (o := .config) rfl "--quiet"
  have hshuffled : Renders [(.config, "--quiet"), (.verbose, ""), (.artifact, "in.json")] shuffledLine :=
    .cons hconfig (.cons hverbose hartifact)
  have hclashing : Renders [(.verbose, ""), (.quiet, ""), (.artifact, "in.json")] clashingLine :=
    .cons hverbose (.cons hquiet hartifact)
  refine ⟨hperm, hshuffled, parse_undoes_rendering.1 _ _ _ (by simp) hperm hshuffled, hclashing, ?_⟩
  exact parse_undoes_rendering.2.1 _ _ hclashing.gives (.inl ⟨by decide, by decide⟩)

end ImagePush.CommandLine
