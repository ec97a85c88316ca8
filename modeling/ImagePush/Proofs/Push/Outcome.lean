import ImagePush.Proofs.Push.Session

/-!
# The names of a push and its outcome

Once the engine is at hand and a session is open, the names of the image are pushed in their order until one
is refused, and the digest is looked up if none is (`PushLoop`). The push succeeds iff all of its stages do,
and otherwise ends with the error of the first one that failed, as that stage presents it. Failures to look
up the digest, to close the session and to remove the scratch directory do not count.
-/

namespace ImagePush.Push

/-! ### The stage of the names -/

/-- The engine is at hand, and a session is open if one is wanted. -/
def Ready (own : Bool) (c : Config) (a : Artifact) (log : List Reply) : Prop :=
  a.isImage = true ∧ Acquired own log ∧ (SessionWanted c → LoggedIn log)

/-- An event of the stage of the names. -/
def IsPushEvent : Event → Prop
  | .notice (.headline _) => True
  | .request _ (.push _ _) => True
  | .request _ (.digest _) => True
  | _ => False

/-- Events before or after the stage of the names. -/
def Plain (es : History) : Prop :=
  ∀ e ∈ es, ¬ IsPushEvent e

/-- Names that the engine took, as `pushes` lists them. -/
def takenNames (platform : String) (names : List String) : List (String × String × Outcome Unit) :=
  names.map fun name => (name, platform, .ok ())

/-- The headline counts the names, and each name is announced right before it is pushed. Either all names are
taken, in their order, and the digest is looked up; or the names up to the first one that is refused are
pushed, and nothing more. -/
inductive PushLoop (c : Config) (a : Artifact) (es : History) (log : List Reply) : Prop where
  /-- No name is refused: all are pushed, and the digest is looked up once, behind them. -/
  | whole {dir : Option Directory} {before after : History}
      (hes : es = before ++ headline a :: pushEvents dir c.platform (namesOf a) ++
        .request dir (.digest a.id) :: after)
      (hbefore : Plain before) (hafter : Plain after)
      (hpushes : pushes log = takenNames c.platform (namesOf a))
  /-- A name is refused: it is the last one that is pushed, and no digest is looked up. -/
  | stopped {dir : Option Directory} {before after : History} {done rest : List String} {name : String}
      {halt : Halt} (hnames : namesOf a = done ++ name :: rest)
      (hes : es = before ++ headline a :: pushEvents dir c.platform (done ++ [name]) ++ after)
      (hbefore : Plain before) (hafter : Plain after)
      (hpushes : pushes log = takenNames c.platform done ++ [(name, c.platform, .error halt)])

/-! ### The outcome -/

/-- The failure of a stage, as the stage presents it. -/
def Reply.failure? : Reply → Option PushError
  | .makeScratch (.error e) => some (.scratchDir e)
  | .exchange _ (.error (.failed e)) => some e
  | .request _ (.login _ _ _) (.error (.failed e)) => some (.login e)
  | .request _ (.push _ _) (.error (.failed e)) => some e
  | _ => none

/-- The failures of the stages of a push, in order. -/
def failures (log : List Reply) : List PushError :=
  log.filterMap Reply.failure?

/-- The error of the first stage that fails; the first stage of all is to know the artifact. -/
def firstFailure? (a : Artifact) (log : List Reply) : Option PushError :=
  if a.isImage = true then (failures log).head? else some (.unknownArtifact a.builderId)

/-- Every stage of a push succeeds: the artifact is known, the engine is at hand, the cloud gives credentials
and a login succeeds where these are wanted, and every name is taken. -/
structure Succeeds (own : Bool) (c : Config) (a : Artifact) (log : List Reply) : Prop where
  image : a.isImage = true
  acquired : Acquired own log
  exchange : c.cloudLogin = true → ∃ given, Reply.exchange c.server (.ok given) ∈ log
  login : SessionWanted c → LoggedIn log
  pushes_eq : pushes log = takenNames c.platform (namesOf a)

/-! ### Lists put together -/

theorem plain_nil : Plain [] := by simp [Plain]

theorem Plain.append {es fs : History} (hes : Plain es) (hfs : Plain fs) : Plain (es ++ fs) := by
  intro e hmem
  rcases List.mem_append.1 hmem with hmem | hmem
  · exact hes e hmem
  · exact hfs e hmem

theorem pushes_append (l₁ l₂ : List Reply) : pushes (l₁ ++ l₂) = pushes l₁ ++ pushes l₂ :=
  List.filterMap_append

theorem failures_append (l₁ l₂ : List Reply) : failures (l₁ ++ l₂) = failures l₁ ++ failures l₂ :=
  List.filterMap_append

@[simp]
theorem pushes_taken (dir : Option Directory) (platform : String) (names : List String) :
    pushes (taken dir platform names) = takenNames platform names := by
  simp [pushes, taken, takenNames, List.filterMap_map, Function.comp_def, Reply.push?]

@[simp]
theorem failures_taken (dir : Option Directory) (platform : String) (names : List String) :
    failures (taken dir platform names) = [] := by
  simp [failures, taken, List.filterMap_map, Function.comp_def, Reply.failure?]

/-! ### The failures of each level -/

/-- The error of an outcome, if it has one. -/
def errorsOf {α : Type} : Outcome α → List PushError
  | .error (.failed e) => [e]
  | _ => []

section

variable {dir : Option Directory} {c : Config} {a : Artifact} {es : History} {log : List Reply}

theorem NamesCourse.failures_eq {platform : String} {names : List String} {out : Outcome Unit}
    (hcourse : NamesCourse dir platform names out es log) : failures log = errorsOf out := by
  cases hcourse with
  | all => exact failures_taken dir platform names
  | refused before hnames =>
    rw [failures_append, failures_taken]
    rfl

theorem ArtifactCourse.failures_eq {platform : String} {out : Outcome Pushed}
    (hcourse : ArtifactCourse dir platform a out es log) : failures log = errorsOf out := by
  cases hcourse with
  | refused hnames => exact hnames.failures_eq
  | pushed hnames hdigest =>
    rw [failures_append, hnames.failures_eq]
    cases hdigest <;> rfl

theorem CredentialsCourse.failures_eq {out : Outcome Registry.Credentials}
    (hcourse : CredentialsCourse c out es log) : failures log = errorsOf out := by
  cases hcourse <;> rfl

theorem OpeningCourse.failures_eq {given : Registry.Credentials} {out : Outcome Unit}
    (hcourse : OpeningCourse dir c given out es log) : failures log = errorsOf out := by
  cases hcourse <;> rfl

theorem ClosingCourse.failures_eq {server : String} (hcourse : ClosingCourse dir server es log) :
    failures log = [] := by
  cases hcourse <;> rfl

theorem SessionCourse.failures_eq {out : Outcome Pushed} (hcourse : SessionCourse dir c a out es log) :
    failures log = errorsOf out := by
  cases hcourse with
  | without hwants hpush => exact hpush.failures_eq
  | noCredentials hwants hgiven => exact hgiven.failures_eq
  | notOpened hwants hgiven hopen =>
    rw [failures_append, hgiven.failures_eq, hopen.failures_eq]
    rfl
  | within hwants hgiven hopen hpush hclose =>
    rw [failures_append, failures_append, failures_append, hgiven.failures_eq, hopen.failures_eq,
      hpush.failures_eq, hclose.failures_eq, List.append_nil]
    rfl

theorem RemovalCourse.failures_eq {path : Directory} (hcourse : RemovalCourse path es log) :
    failures log = [] := by
  cases hcourse <;> rfl

/-- The stages of a push of a known artifact fail with the error of the push, if it has one. -/
theorem Course.failures_eq {own : Bool} {out : Outcome Pushed} (hcourse : Course own c a out es log)
    (himage : a.isImage = true) : failures log = errorsOf out := by
  cases hcourse with
  | unknown hunknown => exact absurd (himage.symm.trans hunknown) (by simp)
  | noScratch => rfl
  | shared _ hown hsession => exact hsession.failures_eq
  | scratch _ hown hsession hremove =>
    rw [failures_append, hremove.failures_eq, List.append_nil]
    exact hsession.failures_eq

/-- A push that takes a course ends with an error iff that is the one of the first stage that fails. -/
theorem Course.firstFailure_eq {own : Bool} {out : Outcome Pushed} (hcourse : Course own c a out es log) :
    firstFailure? a log = (errorsOf out).head? := by
  by_cases himage : a.isImage = true
  · rw [firstFailure?, if_pos himage, hcourse.failures_eq himage]
  · cases hcourse with
    | unknown => simp [firstFailure?, himage, errorsOf]
    | noScratch hknown | shared hknown | scratch hknown => exact absurd hknown himage

end

/-! ### Whether the stage of the names is reached -/

/-- The stage of the names with what happens around it. -/
inductive Reaches (c : Config) (a : Artifact) (out : Outcome Pushed) (es : History) (log : List Reply) :
    Prop where
  | intro (dir : Option Directory) (es₁ es₂ es₃ : History) (l₁ l₂ l₃ : List Reply)
      (hes : es = es₁ ++ es₂ ++ es₃) (hlog : log = l₁ ++ l₂ ++ l₃)
      (hbefore : Plain es₁) (hafter : Plain es₃) (hl₁ : pushes l₁ = []) (hl₃ : pushes l₃ = [])
      (hpush : ArtifactCourse dir c.platform a out es₂ l₂)

section

variable {c : Config} {a : Artifact} {out : Outcome Pushed} {es es' : History} {log log' : List Reply}

theorem Reaches.behind (hreaches : Reaches c a out es log) (hplain : Plain es')
    (hpushes : pushes log' = []) : Reaches c a out (es' ++ es) (log' ++ log) := by
  cases hreaches with
  | intro dir es₁ es₂ es₃ l₁ l₂ l₃ hes hlog hbefore hafter hl₁ hl₃ hpush =>
    refine .intro dir (es' ++ es₁) es₂ es₃ (log' ++ l₁) l₂ l₃ ?_ ?_ (hplain.append hbefore) hafter ?_
      hl₃ hpush
    · simp only [hes, List.append_assoc]
    · simp only [hlog, List.append_assoc]
    · rw [pushes_append, hpushes, hl₁, List.nil_append]

theorem Reaches.before (hreaches : Reaches c a out es log) (hplain : Plain es')
    (hpushes : pushes log' = []) : Reaches c a out (es ++ es') (log ++ log') := by
  cases hreaches with
  | intro dir es₁ es₂ es₃ l₁ l₂ l₃ hes hlog hbefore hafter hl₁ hl₃ hpush =>
    refine .intro dir es₁ es₂ (es₃ ++ es') l₁ l₂ (l₃ ++ log') ?_ ?_ hbefore (hafter.append hplain)
      hl₁ ?_ hpush
    · simp only [hes, List.append_assoc]
    · simp only [hlog, List.append_assoc]
    · rw [pushes_append, hl₃, hpushes, List.nil_append]

theorem ArtifactCourse.reaches {dir : Option Directory}
    (hcourse : ArtifactCourse dir c.platform a out es log) : Reaches c a out es log :=
  .intro dir [] es [] [] log [] (by simp) (by simp) plain_nil plain_nil rfl rfl hcourse

theorem CredentialsCourse.plain {answer : Outcome Registry.Credentials}
    (hcourse : CredentialsCourse c answer es log) : Plain es ∧ pushes log = [] := by
  cases hcourse <;> simp [Plain, IsPushEvent, pushes, Reply.push?]

theorem OpeningCourse.plain {dir : Option Directory} {given : Registry.Credentials} {answer : Outcome Unit}
    (hcourse : OpeningCourse dir c given answer es log) : Plain es ∧ pushes log = [] := by
  cases hcourse <;> simp [Plain, IsPushEvent, pushes, Reply.push?, loginOf]

theorem ClosingCourse.plain {dir : Option Directory} {server : String}
    (hcourse : ClosingCourse dir server es log) : Plain es ∧ pushes log = [] := by
  cases hcourse <;> simp [Plain, IsPushEvent, pushes, Reply.push?]

theorem RemovalCourse.plain {path : Directory} (hcourse : RemovalCourse path es log) :
    Plain es ∧ pushes log = [] := by
  cases hcourse <;> simp [Plain, IsPushEvent, pushes, Reply.push?]

/-- The stage of the names is reached iff a session is open or none is wanted; otherwise nothing of it
happens and the push fails. -/
theorem SessionCourse.reaches_or {dir : Option Directory} (hcourse : SessionCourse dir c a out es log) :
    ((SessionWanted c → LoggedIn log) ∧
      (c.cloudLogin = true → ∃ given, Reply.exchange c.server (.ok given) ∈ log) ∧
      Reaches c a out es log) ∨
    (¬ (SessionWanted c → LoggedIn log) ∧ Plain es ∧ ∀ p, out ≠ .ok p) := by
  cases hcourse with
  | without hwants hpush =>
    have hcloud : c.cloudLogin = false := by
      simp only [Config.wantsLogin, Bool.or_eq_false_iff] at hwants
      exact hwants.2
    exact .inl ⟨fun hwanted => absurd hwanted (not_sessionWanted hwants), by simp [hcloud], hpush.reaches⟩
  | noCredentials hwants hgiven =>
    exact .inr ⟨fun hlogged => hgiven.not_loggedIn (hlogged (sessionWanted_iff.2 hwants)), hgiven.plain.1, by simp⟩
  | notOpened hwants hgiven hopen =>
    refine .inr ⟨fun hlogged => ?_, hgiven.plain.1.append hopen.plain.1, by simp⟩
    rcases loggedIn_append.1 (hlogged (sessionWanted_iff.2 hwants)) with hlogged | hlogged
    · exact hgiven.not_loggedIn hlogged
    · exact absurd (hopen.loggedIn_iff.1 hlogged) (by simp)
  | within hwants hgiven hopen hpush hclose =>
    refine .inl ⟨fun _ => ?_, fun hcloud => ?_, ?_⟩
    · simp only [loggedIn_append, hopen.loggedIn_iff, true_or, or_true]
    · have hmem := hgiven.given
      rw [Given, if_pos hcloud] at hmem
      exact ⟨_, by simp only [List.mem_append]; exact .inl (.inl (.inl hmem))⟩
    · refine ((hpush.reaches.behind ?_ ?_).before hclose.plain.1 hclose.plain.2)
      · exact hgiven.plain.1.append hopen.plain.1
      · rw [pushes_append, hgiven.plain.2, hopen.plain.2, List.nil_append]

theorem Course.reaches_or {own : Bool} (hcourse : Course own c a out es log) :
    (Ready own c a log ∧ (c.cloudLogin = true → ∃ given, Reply.exchange c.server (.ok given) ∈ log) ∧
      Reaches c a out es log) ∨
    (¬ Ready own c a log ∧ Plain es ∧ ∀ p, out ≠ .ok p) := by
  cases hcourse with
  | unknown himage => exact .inr ⟨by simp [Ready, himage], plain_nil, by simp⟩
  | noScratch himage hown =>
    exact .inr ⟨by simp [Ready, Acquired, hown], by simp [Plain, scratchEvents, IsPushEvent], by simp⟩
  | shared himage hown hsession =>
    rcases hsession.reaches_or with ⟨hlogged, hcloud, hreaches⟩ | ⟨hlogged, hplain, hfails⟩
    · exact .inl ⟨⟨himage, by simp [Acquired, hown], hlogged⟩, hcloud, hreaches⟩
    · exact .inr ⟨fun hready => hlogged hready.2.2, hplain, hfails⟩
  | @scratch path out es es' log log' himage hown hsession hremove =>
    have hscratch : Plain scratchEvents := by simp [Plain, scratchEvents, IsPushEvent]
    have hlogged : LoggedIn (.makeScratch (.ok path) :: log ++ log') ↔ LoggedIn log := by
      have hcalls : calls log' = [] := by cases hremove <;> rfl
      simp only [loggedIn_append, (quiet_of_calls_eq_nil hcalls).2.2, or_false]
      simp [LoggedIn]
    rcases hsession.reaches_or with ⟨hready, hcloud, hreaches⟩ | ⟨hready, hplain, hfails⟩
    · refine .inl ⟨⟨himage, fun _ => ⟨path, by simp⟩, by rwa [hlogged]⟩, fun hc => ?_, ?_⟩
      · obtain ⟨given, hmem⟩ := hcloud hc
        exact ⟨given, by simp [hmem]⟩
      · have hpushes : pushes [.makeScratch (.ok path)] = [] := rfl
        exact (hreaches.behind hscratch hpushes).before hremove.plain.1 hremove.plain.2
    · refine .inr ⟨fun hall => hready ?_, (hscratch.append hplain).append hremove.plain.1, hfails⟩
      rw [← hlogged]
      exact hall.2.2

end

/-! ### The stage of the names and the outcome, exactly -/

theorem takenNames_append_refused_ne {platform name : String} {done names : List String} {halt : Halt} :
    takenNames platform done ++ [(name, platform, .error halt)] ≠ takenNames platform names := by
  intro heq
  have hmem : (name, platform, (.error halt : Outcome Unit)) ∈ takenNames platform names := by
    rw [← heq]
    simp
  simp [takenNames] at hmem

section

variable {c : Config} {a : Artifact} {out : Outcome Pushed} {es : History} {log : List Reply}

theorem Reaches.pushLoop (hreaches : Reaches c a out es log) : PushLoop c a es log := by
  cases hreaches with
  | intro dir es₁ es₂ es₃ l₁ l₂ l₃ hes hlog hbefore hafter hl₁ hl₃ hpush =>
    have hpushes : pushes log = pushes l₂ := by simp [hlog, pushes_append, hl₁, hl₃]
    cases hpush with
    | @refused _ _ e hnames =>
      cases hnames with
      | @refused done rest name _ hnames =>
        rw [pushes_append, pushes_taken] at hpushes
        exact .stopped hnames hes hbefore hafter hpushes
    | @pushed es₄ es₅ log₄ log₅ digest hnames hdigest =>
      have hwhole : pushes log = takenNames c.platform (namesOf a) := by
        rw [hpushes, pushes_append]
        cases hnames
        rw [pushes_taken]
        cases hdigest <;> exact List.append_nil _
      obtain ⟨rest, hrest, hplain⟩ : ∃ rest, es₅ = .request dir (.digest a.id) :: rest ∧ Plain rest := by
        cases hdigest with
        | found => exact ⟨[], rfl, plain_nil⟩
        | missing => exact ⟨_, rfl, by simp [Plain, IsPushEvent]⟩
      cases hnames with
      | all =>
        have hall : es = es₁ ++ headline a :: pushEvents dir c.platform (namesOf a) ++
            .request dir (.digest a.id) :: (rest ++ es₃) := by
          rw [hes, hrest]
          simp only [List.append_assoc, List.cons_append]
        exact .whole hall hbefore (hplain.append hafter) hwhole

theorem Reaches.ok_iff (hreaches : Reaches c a out es log) :
    (∃ p, out = .ok p) ↔ pushes log = takenNames c.platform (namesOf a) := by
  cases hreaches with
  | intro dir es₁ es₂ es₃ l₁ l₂ l₃ hes hlog hbefore hafter hl₁ hl₃ hpush =>
    have hpushes : pushes log = pushes l₂ := by simp [hlog, pushes_append, hl₁, hl₃]
    rw [hpushes]
    cases hpush with
    | refused hnames =>
      cases hnames with
      | refused done hnames =>
        rw [pushes_append, pushes_taken]
        exact iff_of_false (by simp) takenNames_append_refused_ne
    | @pushed _ _ _ _ digest hnames hdigest =>
      cases hnames with
      | all =>
        refine iff_of_true ⟨_, rfl⟩ ?_
        rw [pushes_append, pushes_taken]
        cases hdigest <;> exact List.append_nil _

theorem Course.ok_iff {own : Bool} (hcourse : Course own c a out es log) :
    (∃ p, out = .ok p) ↔ Succeeds own c a log := by
  rcases hcourse.reaches_or with ⟨hready, hcloud, hreaches⟩ | ⟨hready, -, hfails⟩
  · rw [hreaches.ok_iff]
    exact ⟨fun hpushes => ⟨hready.1, hready.2.1, hcloud, hready.2.2, hpushes⟩, fun h => h.pushes_eq⟩
  · refine iff_of_false (fun ⟨p, hp⟩ => hfails p hp) fun h => hready ⟨h.image, h.acquired, h.login⟩

end

/-- **The names are pushed in order until one is refused, and the outcome is that of the first stage that
fails**, whatever the answers are, in every push that is not given up. -/
theorem outcome_of_first_failure (s : Script) (own : Bool) (c : Config) (a : Artifact) (h : History)
    (hdone : (s.run own c a h).1 ≠ .error .abandoned) :
    ∃ es, (s.run own c a h).2 = h ++ es ∧
      (Ready own c a (s.replies h es) → PushLoop c a es (s.replies h es)) ∧
      (¬ Ready own c a (s.replies h es) → Plain es) ∧
      ((∃ p, (s.run own c a h).1 = .ok p) ↔ Succeeds own c a (s.replies h es)) ∧
      ∀ e, (s.run own c a h).1 = .error (.failed e) ↔
        firstFailure? a (s.replies h es) = some e := by
  obtain ⟨es, hes, hcourse⟩ := run_course s rfl hdone
  refine ⟨es, hes, fun hready => ?_, fun hready => ?_, hcourse.ok_iff, fun e => ?_⟩
  · rcases hcourse.reaches_or with ⟨-, -, hreaches⟩ | ⟨hnot, -, -⟩
    · exact hreaches.pushLoop
    · exact absurd hready hnot
  · rcases hcourse.reaches_or with ⟨hyes, -, -⟩ | ⟨-, hplain, -⟩
    · exact absurd hyes hready
    · exact hplain
  · rw [hcourse.firstFailure_eq]
    match (s.run own c a h).1 with
    | .ok p => simp [errorsOf]
    | .error .abandoned => simp [errorsOf]
    | .error (.failed e') => simp [errorsOf]

/-- The id and the first tag are pushed, then the second tag is refused. That refusal is the outcome; that of the
logout is not. -/
theorem outcome_of_refused_name :
    (stubborn.run true cloudSession threeNames []).1 ≠ .error .abandoned ∧
      ∃ es, (stubborn.run true cloudSession threeNames []).2 = [] ++ es ∧
        Ready true cloudSession threeNames (stubborn.replies [] es) ∧
        PushLoop cloudSession threeNames es (stubborn.replies [] es) ∧
        pushes (stubborn.replies [] es) =
          [("app", "", .ok ()), ("v1", "", .ok ()), ("v2", "", .error (.failed (.io (.other "denied"))))] ∧
        Event.notice (.headline "Pushing 3 name(s) to the registry") ∈ es ∧
        (stubborn.run true cloudSession threeNames []).1 = .error (.failed (.io (.other "denied"))) ∧
        firstFailure? threeNames (stubborn.replies [] es) = some (.io (.other "denied")) := by
  have hdone : (stubborn.run true cloudSession threeNames []).1 ≠ .error .abandoned := by
    intro habandoned
    cases habandoned
  obtain ⟨es, hes, hloop, -, -, herror⟩ := outcome_of_first_failure stubborn true cloudSession threeNames [] hdone
  have hready : Ready true cloudSession threeNames (stubborn.replies [] es) := by
    obtain rfl : _ = es := hes
    refine ⟨rfl, fun _ => ⟨"/tmp/docker-push", .head _⟩, fun _ => ?_⟩
    exact ⟨some "/tmp/docker-push", "registry", "AWS", "token", .tail _ (.tail _ (.head _))⟩
  refine ⟨hdone, es, hes, hready, hloop hready, ?_, ?_, rfl, (herror _).1 rfl⟩
  · obtain rfl : _ = es := hes
    rfl
  · obtain rfl : _ = es := hes
    exact .tail _ (.tail _ (.tail _ (.tail _ (.tail _ (.tail _ (.head _))))))

end ImagePush.Push
