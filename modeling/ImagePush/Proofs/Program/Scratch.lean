import ImagePush.Proofs.Directory
import ImagePush.Proofs.Engine.Command
import ImagePush.Proofs.Program.Acts
import ImagePush.Proofs.Push.Session
import Mathlib.Data.List.Basic

/-!
# The life of a scratch directory

A push by the engine keeps the configuration of the engine in a scratch directory, unless another one is
shared. The directory is created first, then every process of the engine is pointed to it while it stands, and
at the end it is removed once, whatever the push came to (`scratch_dir_encloses_push`). The processes may do
anything but remove the directory; `Standing` says what is known of it. An argument of a process is text, so that
the directory is named there by what is shown of its path: if that path is not text, it is another directory that
the engine is pointed to, and this is the only way to miss.
-/

namespace ImagePush

namespace Push

/-! ### What a push does besides -/

/-- The user is told about a scratch directory. -/
def IsScratchNotice (n : Notice) : Prop :=
  n = .message "Creating temporary Docker configuration directory" ∨
    n = .message "Removing temporary Docker configuration directory" ∨
    ∃ text : String, n = .problem s!"Error removing temporary Docker configuration directory: {text}"

theorem getElem?_append {p x : String} {i : Nat} (hi : i < p.toList.length) :
    (p ++ x).toList[i]? = p.toList[i]? := by
  rw [String.toList_append, List.getElem?_append_left hi]

/-- The messages about scratch directories begin with two letters only. -/
theorem message_not_scratch {text : String} (first : Char) (hfirst : text.toList[0]? = some first)
    (hC : first ≠ 'C') (hR : first ≠ 'R') : ¬ IsScratchNotice (.message text) := by
  rintro (hsame | hsame | ⟨rest, hsame⟩)
  · rw [Notice.message.inj hsame] at hfirst
    exact hC (Option.some.inj hfirst).symm
  · rw [Notice.message.inj hsame] at hfirst
    exact hR (Option.some.inj hfirst).symm
  · cases hsame

theorem logout_problem_not_scratch (text : String) :
    ¬ IsScratchNotice (.problem s!"Error logging out: {text}") := by
  have hl : (s!"Error logging out: {text}").toList[6]? = some 'l' := getElem?_append (by decide)
  rintro (hsame | hsame | ⟨rest, hsame⟩)
  · cases hsame
  · cases hsame
  · have hr : (s!"Error removing temporary Docker configuration directory: {rest}").toList[6]? = some 'r' :=
      getElem?_append (by decide)
    rw [Notice.problem.inj hsame, hr] at hl
    exact absurd hl (by decide)

/-- An event of a push besides its scratch directory, by an engine that keeps its configuration in the
directory, if one is given. -/
inductive IsPlainEvent (dir : Option Directory) : Event → Prop where
  | notice {n : Notice} (hn : ¬ IsScratchNotice n) : IsPlainEvent dir (.notice n)
  | exchange (server : String) : IsPlainEvent dir (.exchange server)
  | request {r : Request} (hr : ∀ id, r ≠ .remove id) : IsPlainEvent dir (.request dir r)

section

variable {dir : Option Directory} {c : Config} {a : Artifact} {es fs : History} {log : List Reply}

theorem plainEvents_append (hes : ∀ e ∈ es, IsPlainEvent dir e) (hfs : ∀ e ∈ fs, IsPlainEvent dir e) :
    ∀ e ∈ es ++ fs, IsPlainEvent dir e := by
  intro e hmem
  rcases List.mem_append.1 hmem with hmem | hmem
  · exact hes e hmem
  · exact hfs e hmem

theorem compositional_plainEvents : Compositional fun es _ => ∀ e ∈ es, IsPlainEvent dir e where
  nil := by simp
  append := plainEvents_append

theorem ArtifactCourse.plainEvents {platform : String} {out : Outcome Pushed}
    (hcourse : ArtifactCourse dir platform a out es log) : ∀ e ∈ es, IsPlainEvent dir e := by
  refine hcourse.compositional compositional_plainEvents ?_ ?_ ?_
  · intro e hmem
    obtain rfl := List.mem_singleton.1 hmem
    exact .notice (by simp [IsScratchNotice])
  · intro name _ _ e hmem
    have hcases : e = pushing name ∨ e = .request dir (.push name platform) := by
      simpa [pushEvents] using hmem
    rcases hcases with rfl | rfl
    · exact .notice (message_not_scratch 'P' (getElem?_append (by decide)) (by decide) (by decide))
    · exact .request (by simp)
  · intro digest es log hdigest e hmem
    cases hdigest with
    | found =>
      obtain rfl := List.mem_singleton.1 hmem
      exact .request (by simp)
    | missing =>
      rcases List.mem_cons.1 hmem with rfl | hmem
      · exact .request (by simp)
      · obtain rfl := List.mem_singleton.1 hmem
        exact .notice (message_not_scratch 'U' (by decide) (by decide) (by decide))

theorem CredentialsCourse.plainEvents {out : Outcome Registry.Credentials}
    (hcourse : CredentialsCourse c out es log) : ∀ e ∈ es, IsPlainEvent dir e := by
  have hcloud : ∀ e ∈ [Event.notice (.message "Fetching ECR credentials..."), .exchange c.server],
      IsPlainEvent dir e := by
    intro e hmem
    rcases List.mem_cons.1 hmem with rfl | hmem
    · exact .notice (message_not_scratch 'F' (by decide) (by decide) (by decide))
    · obtain rfl := List.mem_singleton.1 hmem
      exact .exchange _
  cases hcourse with
  | configured => simp
  | cloud | failed => exact hcloud

theorem OpeningCourse.plainEvents {given : Registry.Credentials} {out : Outcome Unit}
    (hcourse : OpeningCourse dir c given out es log) : ∀ e ∈ es, IsPlainEvent dir e := by
  have hopening : ∀ e ∈ [Event.notice (.message "Logging in..."), .request dir (loginOf c given)],
      IsPlainEvent dir e := by
    intro e hmem
    rcases List.mem_cons.1 hmem with rfl | hmem
    · exact .notice (message_not_scratch 'L' (by decide) (by decide) (by decide))
    · obtain rfl := List.mem_singleton.1 hmem
      exact .request (by simp [loginOf])
  cases hcourse <;> exact hopening

theorem ClosingCourse.plainEvents {server : String} (hcourse : ClosingCourse dir server es log) :
    ∀ e ∈ es, IsPlainEvent dir e := by
  have hclosing : ∀ e ∈ [Event.notice (.message "Logging out..."), .request dir (.logout server)],
      IsPlainEvent dir e := by
    intro e hmem
    rcases List.mem_cons.1 hmem with rfl | hmem
    · exact .notice (message_not_scratch 'L' (by decide) (by decide) (by decide))
    · obtain rfl := List.mem_singleton.1 hmem
      exact .request (by simp)
  cases hcourse with
  | closed => exact hclosing
  | @failed e =>
    refine plainEvents_append hclosing fun e' hmem => ?_
    obtain rfl := List.mem_singleton.1 hmem
    exact .notice (logout_problem_not_scratch e.message)

theorem SessionCourse.plainEvents {out : Outcome Pushed} (hcourse : SessionCourse dir c a out es log) :
    ∀ e ∈ es, IsPlainEvent dir e :=
  hcourse.compositional compositional_plainEvents CredentialsCourse.plainEvents OpeningCourse.plainEvents
    ArtifactCourse.plainEvents ClosingCourse.plainEvents

end

end Push

namespace Program

open Push

/-! ### Directories that stand -/

/-- `stands` tells by what was done whether a directory exists: it does once it was created, nothing but its
removal ends that, and it does not once it was removed. -/
structure Standing (s : Script) (stands : List Act → Directory → Prop) : Prop where
  made : ∀ h dir, s.makeScratch h = .ok dir → stands (h ++ [.makeScratch]) dir
  kept : ∀ h act dir, stands h dir → act ≠ .dropScratch dir → stands (h ++ [act]) dir
  gone : ∀ h dir, s.dropScratch h dir = .ok () → ¬ stands (h ++ [.dropScratch dir]) dir

/-- A process that runs the engine for a request of a push, with options in front of the command. -/
def RunsEngine (c : Config) (options : List String) (i : Engine.Invocation) : Prop :=
  ∃ r, (∀ id, r ≠ .remove id) ∧ i.executable = c.executable ∧
    i.args = options ++ (Engine.Command.ofRequest r).args

/-- What is done to create a scratch directory. -/
def making : List Act :=
  [.notice (.message "Creating temporary Docker configuration directory"), .makeScratch]

/-- What is done to remove a scratch directory. -/
def removing (dir : Directory) : List Act :=
  [.notice (.message "Removing temporary Docker configuration directory"), .dropScratch dir]

/-- No scratch directory is created or removed, and the user is told of none. -/
structure WithoutScratch (acts : List Act) : Prop where
  not_made : .makeScratch ∉ acts
  not_dropped : ∀ dir, .dropScratch dir ∉ acts
  not_told : ∀ n, .notice n ∈ acts → ¬ IsScratchNotice n

/-- The life of a scratch directory: `work` is done while it stands, and `reports` once it was removed. -/
structure Encloses (s : Script) (stands : List Act → Directory → Prop) (c : Config) (h : List Act) (dir : Directory)
    (work reports : List Act) : Prop where
  /-- The directory is created before anything else is done. -/
  created : s.makeScratch (h ++ making.take 1) = .ok dir
  /-- It is the only one, and nobody removes it before the end. -/
  work_without : WithoutScratch work
  /-- Each process of the engine gets what is shown of its path, and the directory stands when it is started. -/
  processes : ∀ before i after, work = before ++ .start i :: after →
    RunsEngine c ["--config", dir.shown] i ∧ stands (h ++ making ++ before) dir
  /-- What is shown is the name of that same directory exactly if its path is text. -/
  pointed : Directory.named dir.shown = dir ↔ Text.Utf8.IsText dir.path
  /-- In the end it is gone, or its removal failed, of which the user is told. -/
  removed : (reports = [] ∧ ¬ stands (h ++ making ++ work ++ removing dir) dir) ∨
    ∃ e, s.dropScratch (h ++ making ++ work ++ (removing dir).take 1) dir = .error e ∧
      reports = [.notice (.problem
        s!"Error removing temporary Docker configuration directory: {e.message}")]

/-! ### Acts of such events -/

/-- The options that point the engine to a directory. -/
def optionsFor : Option Directory → List String
  | some dir => ["--config", dir.shown]
  | none => []

/-- What is done for an event of a push besides its scratch directory. -/
inductive IsPlainAct (s : Script) (c : Config) (dir : Option Directory) : Act → Prop where
  | notice {n : Notice} (hn : ¬ IsScratchNotice n) : IsPlainAct s c dir (.notice n)
  | exchange (server : String) : IsPlainAct s c dir (.exchange server)
  | request (r : Request) : IsPlainAct s c dir (.request r)
  | start {i : Engine.Invocation} (hdriver : s.driver = none) (hi : RunsEngine c (optionsFor dir) i) :
      IsPlainAct s c dir (.start i)

section

variable {s : Script} {stands : List Act → Directory → Prop} {c : Config} {dir : Option Directory}

theorem plainAct_of_event {e : Event} (he : IsPlainEvent dir e) : IsPlainAct s c dir (s.act .notice c e) := by
  cases he with
  | notice hn => exact .notice hn
  | exchange server => exact .exchange server
  | @request r hr =>
    cases hdriver : s.driver with
    | some answer =>
      have hact : s.act .notice c (.request dir r) = .request r := by simp [Script.act, hdriver]
      rw [hact]
      exact .request r
    | none =>
      have hact : s.act .notice c (.request dir r) = .start (invocationOf c dir r) := by simp [Script.act, hdriver]
      rw [hact]
      refine .start hdriver ⟨r, hr, rfl, ?_⟩
      cases dir <;> rfl

theorem plainActs {es : History} (hes : ∀ e ∈ es, IsPlainEvent dir e) :
    ∀ act ∈ s.acts .notice c es, IsPlainAct s c dir act := by
  intro act hmem
  obtain ⟨e, he, rfl⟩ := List.mem_map.1 hmem
  exact plainAct_of_event (hes e he)

theorem withoutScratch_of_plain {acts : List Act} (hacts : ∀ act ∈ acts, IsPlainAct s c dir act) :
    WithoutScratch acts where
  not_made := fun hmem => by cases hacts _ hmem
  not_dropped := fun path hmem => by cases hacts _ hmem
  not_told := by
    intro n hmem
    cases hacts _ hmem with
    | notice hn => exact hn

/-- A directory stands on while nobody removes it. -/
theorem Standing.kept_along (hstanding : Standing s stands) {h acts : List Act} {path : Directory}
    (hstands : stands h path) (hacts : .dropScratch path ∉ acts) : stands (h ++ acts) path := by
  induction acts generalizing h with
  | nil =>
    rw [List.append_nil]
    exact hstands
  | cons act acts ih =>
    rw [List.mem_cons, not_or] at hacts
    have hkept := hstanding.kept h act path hstands (Ne.symm hacts.1)
    have hrest := ih hkept hacts.2
    rwa [List.append_assoc] at hrest

/-- While plain acts are done behind the creation of a directory, each process is pointed to it, and it
stands. -/
theorem processes_within (hstanding : Standing s stands) {h work : List Act} {path : Directory}
    (hmade : s.makeScratch (h ++ making.take 1) = .ok path)
    (hwork : ∀ act ∈ work, IsPlainAct s c (some path) act) {before after : List Act}
    {i : Engine.Invocation} (hsplit : work = before ++ .start i :: after) :
    RunsEngine c ["--config", path.shown] i ∧ stands (h ++ making ++ before) path := by
  subst hsplit
  constructor
  · cases hwork (.start i) (by simp) with
    | start hdriver hi => exact hi
  · have hstands := hstanding.made _ _ hmade
    rw [List.append_assoc] at hstands
    refine hstanding.kept_along hstands fun hmem => ?_
    cases hwork _ (List.mem_append_left _ hmem)

end

/-! ### The life of the directory -/

section

variable {s : Script} {stands : List Act → Directory → Prop} {c : Config} {h : List Act} {a : Artifact}

/-- What is learnt from the removal of a directory that follows what was done before. -/
theorem removal_reports (hstanding : Standing s stands) {path : Directory} {es fs : History}
    {log : List Reply} (hcourse : RemovalCourse path fs log)
    (hlog : (s.answers .notice c h).replies es fs = log) :
    ∃ reports, s.acts .notice c fs = removing path ++ reports ∧
      ((reports = [] ∧ ¬ stands (h ++ s.acts .notice c es ++ removing path) path) ∨
        ∃ e, s.dropScratch (h ++ s.acts .notice c es ++ (removing path).take 1) path = .error e ∧
          reports = [.notice (.problem
            s!"Error removing temporary Docker configuration directory: {e.message}")]) := by
  have hacts : h ++ s.acts .notice c (es ++ [.notice (.message "Removing temporary Docker configuration directory")]) =
      h ++ s.acts .notice c es ++ (removing path).take 1 := by
    rw [Script.acts_append, ← List.append_assoc]
    rfl
  cases hcourse with
  | removed =>
    have hdropped : s.dropScratch (h ++ s.acts .notice c _) path = .ok () :=
      (Reply.dropScratch.inj (List.cons.inj hlog).1).2
    rw [hacts] at hdropped
    refine ⟨[], rfl, .inl ⟨rfl, ?_⟩⟩
    have hgone := hstanding.gone _ _ hdropped
    rwa [List.append_assoc] at hgone
  | @failed e =>
    have hdropped : s.dropScratch (h ++ s.acts .notice c _) path = .error e :=
      (Reply.dropScratch.inj (List.cons.inj hlog).1).2
    rw [hacts] at hdropped
    exact ⟨_, rfl, .inr ⟨e, hdropped, rfl⟩⟩

theorem encloses_of_course (hstanding : Standing s stands) {path : Directory} {out : Outcome Pushed}
    {es₁ es₂ : History} {log₁ log₂ : List Reply} (hsession : SessionCourse (some path) c a out es₁ log₁)
    (hremove : RemovalCourse path es₂ log₂)
    (hlog : (s.answers .notice c h).replies [] (scratchEvents ++ es₁ ++ es₂) =
      .makeScratch (.ok path) :: log₁ ++ log₂) :
    ∃ reports, s.acts .notice c (scratchEvents ++ es₁ ++ es₂) =
        making ++ s.acts .notice c es₁ ++ removing path ++ reports ∧
      Encloses s stands c h path (s.acts .notice c es₁) reports := by
  rw [Script.replies_append, List.nil_append] at hlog
  have hlength : ((s.answers .notice c h).replies (scratchEvents ++ es₁) es₂).length = log₂.length := by
    cases hremove <;> rfl
  have hmade : s.makeScratch (h ++ making.take 1) = .ok path := by
    have hfirst := List.append_inj_left' hlog hlength
    simp only [scratchEvents, List.cons_append, Script.replies_notice, Script.replies_makeScratch] at hfirst
    exact Reply.makeScratch.inj (List.cons.inj hfirst).1
  have hdropped := List.append_inj_right' hlog hlength
  obtain ⟨reports, hreports, hremoved⟩ := removal_reports hstanding hremove hdropped
  have hwork := plainActs (s := s) (c := c) hsession.plainEvents
  refine ⟨reports, ?_, hmade, withoutScratch_of_plain hwork, fun _ _ _ => processes_within hstanding hmade hwork,
    Directory.named_shown_iff, ?_⟩
  · rw [Script.acts_append, Script.acts_append, hreports, ← List.append_assoc]
    rfl
  · rw [Script.acts_append, ← List.append_assoc] at hremoved
    exact hremoved

/-- The command comes first if no options stand in front of it. -/
theorem RunsEngine.head_ne {i : Engine.Invocation} (hi : RunsEngine c [] i) :
    i.args.head? ≠ some "--config" := by
  obtain ⟨r, -, -, hargs⟩ := hi
  have hname := Engine.Command.head_args_ofRequest r
  rw [hargs, List.nil_append]
  intro hconfig
  rw [hconfig] at hname
  exact absurd hname (by decide)

end

/-- A push does without a scratch directory of its own: the artifact is not known, or the caller brings a
driver or shares a directory. -/
def DoesWithout (s : Script) (a : Artifact) : Prop :=
  a.isImage = false ∨ s.driver.isSome = true ∨ s.sharedDir.isSome = true

theorem not_doesWithout {s : Script} {a : Artifact} (himage : a.isImage = true)
    (hown : s.ownScratch = true) : ¬ DoesWithout s a := by
  simp only [Script.ownScratch, Bool.and_eq_true, Option.isNone_iff_eq_none] at hown
  simp [DoesWithout, himage, hown]

/-- The last directory that was created stands until its removal is tried. -/
def standsByActs (path : Directory) (h : List Act) (dir : Directory) : Prop :=
  dir = path ∧ ∃ before after, h = before ++ .makeScratch :: after ∧ .dropScratch dir ∉ after

/-- Surroundings in which everything succeeds, but nothing can be pushed under the name `v2`. -/
def obliging : Script where
  readFile _ _ := .ok []
  writeFile _ _ _ := .ok ()
  start _ i := .ok { code := some (if i.args.getLast? = some "v2" then 1 else 0) }
  cloud _ _ _ := .ok ⟨"AWS", "token"⟩
  makeScratch _ := .ok "/tmp/docker-push"
  dropScratch _ _ := .ok ()
  elapsed _ := 0

theorem standing_of_makeScratch {s : Script} {path : Directory} (hmake : ∀ h, s.makeScratch h = .ok path) :
    Standing s (standsByActs path) where
  made := by
    intro h dir hmade
    rw [hmake h] at hmade
    exact ⟨(Except.ok.inj hmade).symm, h, [], rfl, List.not_mem_nil⟩
  kept := by
    rintro h act dir ⟨hdir, before, after, rfl, hafter⟩ hact
    refine ⟨hdir, before, after ++ [act], by simp, ?_⟩
    simp [hafter, Ne.symm hact]
  gone := by
    rintro h dir - ⟨-, before, after, hsplit, hafter⟩
    rcases List.eq_nil_or_concat' after with rfl | ⟨rest, last, rfl⟩
    · cases List.append_inj_right' hsplit rfl
    · have hsplit' : h ++ [.dropScratch dir] = (before ++ .makeScratch :: rest) ++ [last] := by
        simpa using hsplit
      obtain rfl : Act.dropScratch dir = last := by simpa using List.append_inj_right' hsplit' rfl
      exact hafter (List.mem_append_right _ (List.mem_singleton_self _))

/-- All processes of a push are run while its scratch directory stands. -/
theorem Encloses.start_mem_work {s : Script} {stands : List Act → Directory → Prop} {c : Config}
    {h work reports : List Act} {dir : Directory} (hencloses : Encloses s stands c h dir work reports)
    {i : Engine.Invocation} (hmem : .start i ∈ making ++ work ++ removing dir ++ reports) : .start i ∈ work := by
  have hreports : .start i ∉ reports := by
    rcases hencloses.removed with ⟨rfl, -⟩ | ⟨e, -, rfl⟩ <;> simp
  simpa [making, removing, hreports] using hmem

/-- Settings for a session of the engine. -/
def dockerSession : Config :=
  { executable := "docker", login := true, password := "hunter2" }

end Program

end ImagePush
