import ImagePush.Proofs.CommandLine.Lines
import Mathlib.Data.List.Perm.Basic

/-!
# Arguments and the command lines that give them

Arguments are a set of options with values (`Args.items`). A command line is accepted exactly if it gives these options
in some order and verbose and quiet are not both among them (`parse_eq_ok_iff`).
-/

namespace ImagePush.CommandLine

/-! ### Arguments as options -/

/-- The value that a flag has if it is set. -/
def flagValue? (set : Bool) : Option String :=
  if set then some "" else none

@[simp] theorem isSome_flagValue? (set : Bool) : (flagValue? set).isSome = set := by
  cases set <;> rfl

/-- The value of an option in the arguments. -/
def Args.value? (args : Args) : Opt → Option String
  | .artifact => some args.artifact
  | .config => args.config
  | .output => args.output
  | .dockerPath => args.dockerPath
  | .login => flagValue? args.login
  | .loginUsername => args.loginUsername
  | .loginPassword => args.loginPassword
  | .loginServer => args.loginServer
  | .ecrLogin => flagValue? args.ecrLogin
  | .platform => args.platform
  | .awsProfile => args.awsProfile
  | .verbose => flagValue? args.verbose
  | .quiet => flagValue? args.quiet
  | .help => none
  | .version => none

/-- The options that are present in the arguments, with their values. -/
def Args.items (args : Args) : List (Opt × String) :=
  Opt.all.filterMap fun o => (args.value? o).map (o, ·)

variable {args : Args} {items : List (Opt × String)} {o : Opt} {v : String}

theorem Args.mem_items : (o, v) ∈ args.items ↔ args.value? o = some v := by
  rw [items, List.mem_filterMap]
  constructor
  · rintro ⟨o', -, h⟩
    obtain ⟨v', hv', heq⟩ := Option.map_eq_some_iff.1 h
    cases heq
    exact hv'
  · intro h
    exact ⟨o, o.mem_all, by rw [h]; rfl⟩

theorem Args.nodup_items (args : Args) : (args.items.map Prod.fst).Nodup := by
  have hkeys : args.items.map Prod.fst = Opt.all.filter fun o => (args.value? o).isSome := by
    rw [items, List.map_filterMap, ← List.filterMap_eq_filter]
    congr
    funext o
    cases h : args.value? o <;> simp [Option.guard, h]
  rw [hkeys]
  exact List.Nodup.filter _ (by decide)

theorem Args.mem_keys_items : o ∈ args.items.map Prod.fst ↔ (args.value? o).isSome = true := by
  rw [List.mem_map, Option.isSome_iff_exists]
  constructor
  · rintro ⟨⟨o, v⟩, hitem, rfl⟩
    exact ⟨v, mem_items.1 hitem⟩
  · rintro ⟨v, hv⟩
    exact ⟨(o, v), mem_items.2 hv, rfl⟩

/-! ### Options by their values -/

theorem lookup_eq_some_iff (hnodup : (items.map Prod.fst).Nodup) : items.lookup o = some v ↔ (o, v) ∈ items := by
  rw [List.lookup_eq_some_iff]
  constructor
  · rintro ⟨front, back, rfl, -⟩
    exact List.mem_append_right front List.mem_cons_self
  · intro hmem
    obtain ⟨front, back, rfl⟩ := List.append_of_mem hmem
    refine ⟨front, back, rfl, fun item hitem => ?_⟩
    rw [List.map_append, List.map_cons] at hnodup
    -- the option is not there a second time
    have hfront : o ∉ front.map Prod.fst := fun ho => List.disjoint_of_nodup_append hnodup ho List.mem_cons_self
    rw [bne_iff_ne]
    rintro rfl
    exact hfront (List.mem_map_of_mem hitem)

/-- Options of which none is there twice are those of the arguments exactly if their values are. -/
theorem perm_items_iff (hnodup : (items.map Prod.fst).Nodup) :
    items.Perm args.items ↔ ∀ o, items.lookup o = args.value? o := by
  have hperm : items.Perm args.items ↔ ∀ item, item ∈ items ↔ item ∈ args.items :=
    List.perm_ext_iff_of_nodup (List.Nodup.of_map _ hnodup) (List.Nodup.of_map _ args.nodup_items)
  rw [hperm]
  constructor
  · intro h o
    apply Option.ext
    intro v
    rw [lookup_eq_some_iff hnodup, h, Args.mem_items]
  · rintro h ⟨o, v⟩
    rw [← lookup_eq_some_iff hnodup, h, Args.mem_items]

/-! ### The arguments of settled options -/

namespace Progress

variable {p : Progress}

theorem has_eq (p : Progress) (o : Opt) : p.has o = (p.value? o).isSome := by
  rw [Bool.eq_iff_iff, has, options, value?, List.contains_iff_mem, List.lookup_isSome_iff, List.mem_map]
  constructor
  · rintro ⟨item, hitem, rfl⟩
    exact ⟨item, hitem, beq_self_eq_true _⟩
  · rintro ⟨item, hitem, ho⟩
    exact ⟨item, hitem, (beq_iff_eq.1 ho).symm⟩

/-- Options exclude each other exactly if they are verbose and quiet. -/
theorem conflict?_eq_none_iff (hnodup : p.options.Nodup) :
    p.conflict? = none ↔ ¬ (p.has .verbose = true ∧ p.has .quiet = true) := by
  have hmem : ∀ o, o ∈ p.options.filter (fun o => o = .verbose ∨ o = .quiet) ↔
      p.has o = true ∧ (o = .verbose ∨ o = .quiet) := by
    intro o
    rw [List.mem_filter, has, List.contains_iff_mem, decide_eq_true_eq]
  have hfilter := hnodup.filter fun o => o = .verbose ∨ o = .quiet
  unfold conflict?
  generalize p.options.filter (fun o => o = .verbose ∨ o = .quiet) = excluded at hmem hfilter
  cases excluded with
  | nil =>
    simp only [true_iff]
    rintro ⟨hverbose, -⟩
    exact absurd ((hmem .verbose).2 ⟨hverbose, .inl rfl⟩) List.not_mem_nil
  | cons o more =>
    cases more with
    | nil =>
      simp only [true_iff]
      rintro ⟨hverbose, hquiet⟩
      have ho := List.mem_singleton.1 ((hmem .verbose).2 ⟨hverbose, .inl rfl⟩)
      have ho' := List.mem_singleton.1 ((hmem .quiet).2 ⟨hquiet, .inr rfl⟩)
      rw [← ho] at ho'
      cases ho'
    | cons other more =>
      simp only [reduceCtorEq, false_iff, not_not]
      have hne : o ≠ other := fun h => (List.nodup_cons.1 hfilter).1 (h ▸ List.mem_cons_self)
      obtain ⟨ho, hname⟩ := (hmem o).1 List.mem_cons_self
      obtain ⟨hother, hname'⟩ := (hmem other).1 (List.mem_cons_of_mem o List.mem_cons_self)
      rcases hname with rfl | rfl <;> rcases hname' with rfl | rfl
      · exact absurd rfl hne
      · exact ⟨ho, hother⟩
      · exact ⟨hother, ho⟩
      · exact absurd rfl hne

/-- Among the settled options a flag has the empty value, and a request is not there. -/
theorem value?_of_takesValue (hfits : ∀ item ∈ p.settled, Fits (inBytes item)) (ho : o.takesValue = false) :
    p.value? o = flagValue? (p.has o) ∧ (p.has o = true → o.IsFlag) := by
  rw [has_eq]
  cases hvalue : p.value? o with
  | none => exact ⟨rfl, nofun⟩
  | some v =>
    obtain ⟨front, back, hsettled, -⟩ := List.lookup_eq_some_iff.1 hvalue
    have hmem : (o, v) ∈ p.settled := by
      rw [hsettled]
      exact List.mem_append_right front List.mem_cons_self
    rcases hfits (o, v) hmem with htakes | ⟨hflag, hempty⟩
    · exact absurd (htakes.symm.trans ho) (by decide)
    · have hv : v.toList = [] := Text.Utf8.encode_injective hempty
      rw [String.toList_eq_nil_iff.1 hv]
      exact ⟨rfl, fun _ => hflag⟩

/-- Settled options give the arguments that have the same values, if no two of them exclude each other. -/
theorem args_eq_ok_iff (hfits : ∀ item ∈ p.settled, Fits (inBytes item)) :
    p.args = .ok args ↔ p.conflict? = none ∧ ∀ o, p.value? o = args.value? o := by
  have hrequest : ∀ o : Opt, o.takesValue = false → o.isRequest = true → p.value? o = none := by
    intro o ho hrequest
    obtain ⟨hvalue, hflag⟩ := value?_of_takesValue hfits ho
    cases hhas : p.has o with
    | false => rw [hvalue, hhas]; rfl
    | true => exact absurd (hrequest.symm.trans (hflag hhas).2) (by decide)
  constructor
  · intro h
    unfold Progress.args at h
    split at h
    · cases h
    · cases h
    · next artifact hconflict hartifact =>
      cases h
      refine ⟨hconflict, fun o => ?_⟩
      cases o with
      | artifact => exact hartifact
      | login | ecrLogin | verbose | quiet => exact (value?_of_takesValue hfits rfl).1
      | help | version => exact hrequest _ rfl rfl
      | _ => rfl
  · rintro ⟨hconflict, hvalue⟩
    have hartifact : p.value? .artifact = some args.artifact := hvalue .artifact
    unfold Progress.args
    rw [hconflict, hartifact]
    simp only [has_eq, hvalue, Args.value?, isSome_flagValue?]

end Progress

variable {ws : List Word} {given : List (Opt × Word)}

/-- Options that are settled give the arguments with the same options, if verbose and quiet are not both among them. -/
theorem args_settled_iff (hws : Gives ws (items.map inBytes)) (hnodup : (items.map Prod.fst).Nodup) :
    Progress.args ⟨items, none⟩ = .ok args ↔
      ¬ (args.verbose = true ∧ args.quiet = true) ∧ items.Perm args.items := by
  have hfits : ∀ item ∈ items, Fits (inBytes item) := List.forall_mem_map.1 hws.fits
  have hoptions : (Progress.options ⟨items, none⟩).Nodup := hnodup
  rw [Progress.args_eq_ok_iff hfits, Progress.conflict?_eq_none_iff hoptions, perm_items_iff hnodup]
  apply and_congr_left
  intro hvalue
  rw [Progress.has_eq, Progress.has_eq, hvalue .verbose, hvalue .quiet]
  simp only [Args.value?, isSome_flagValue?]

theorem parse_eq_ok_iff_takeWords : parse ws = .ok args ↔ ∃ p, takeWords {} ws = .ok p ∧ p.args = .ok args := by
  unfold parse
  cases takeWords {} ws <;> simp

/-- **Words that give options are accepted exactly if these are the options of the arguments, in some order, and
verbose and quiet are not both among them.** -/
theorem Gives.parse_eq_ok_iff (hws : Gives ws given) :
    parse ws = .ok args ↔
      ¬ (args.verbose = true ∧ args.quiet = true) ∧
        ∃ items : List (Opt × String), items.Perm args.items ∧ given = items.map inBytes := by
  rw [parse_eq_ok_iff_takeWords]
  constructor
  · rintro ⟨p, htake, h⟩
    obtain ⟨items, rfl, hnodup, rfl⟩ := hws.takeWords_eq_ok_iff.1 htake
    obtain ⟨hboth, hperm⟩ := (args_settled_iff hws hnodup).1 h
    exact ⟨hboth, items, hperm, rfl⟩
  · rintro ⟨hboth, items, hperm, rfl⟩
    have hnodup : (items.map Prod.fst).Nodup := (hperm.map Prod.fst).nodup_iff.2 args.nodup_items
    exact ⟨_, hws.takeWords_eq_ok_iff.2 ⟨items, rfl, hnodup, rfl⟩, (args_settled_iff hws hnodup).2 ⟨hboth, hperm⟩⟩

/-- **A command line is accepted exactly if it gives the options of the arguments**, in some order, and verbose and
quiet are not both among them. -/
theorem parse_eq_ok_iff :
    parse ws = .ok args ↔
      ¬ (args.verbose = true ∧ args.quiet = true) ∧
        ∃ items : List (Opt × String), items.Perm args.items ∧ Gives ws (items.map inBytes) := by
  constructor
  · intro h
    obtain ⟨p, htake, -⟩ := parse_eq_ok_iff_takeWords.1 h
    obtain ⟨given, hws⟩ := exists_gives htake
    obtain ⟨hboth, items, hperm, rfl⟩ := hws.parse_eq_ok_iff.1 h
    exact ⟨hboth, items, hperm, hws⟩
  · rintro ⟨hboth, items, hperm, hws⟩
    exact hws.parse_eq_ok_iff.2 ⟨hboth, items, hperm, rfl⟩

end ImagePush.CommandLine
