import ImagePush.Proofs.Push.Replies

/-!
# The courses of a push

All the ways in which a push that is not given up can go, level by level: the names and the digest, the
session around them, the scratch directory around the session. Each relation lists the outcome of its level,
its events, and its questions with their answers; no script occurs in them. `run_course` says that every
run by a script takes one of these courses, with the answers of the script.
-/

namespace ImagePush.Push

/-! ### The courses of the push itself -/

/-- The notice before a name is pushed. -/
def pushing (name : String) : Event :=
  .notice (.message s!"Pushing: {name}")

/-- The events of pushing names, one after the other. -/
def pushEvents (dir : Option Directory) (platform : String) (names : List String) : History :=
  names.flatMap fun name => [pushing name, .request dir (.push name platform)]

/-- The questions of pushing names that the engine takes. -/
def taken (dir : Option Directory) (platform : String) (names : List String) : List Reply :=
  names.map fun name => .request dir (.push name platform) (.ok ())

/-- All names of an artifact: its id, then its tags. -/
def namesOf (a : Artifact) : List String :=
  a.id :: (ImageState.ofArtifact a).tags

/-- The notice that opens a push. -/
def headline (a : Artifact) : Event :=
  .notice (.headline s!"Pushing {(namesOf a).length} name(s) to the registry")

/-- Pushing names ends with the first one that is refused, or with the last one. -/
inductive NamesCourse (dir : Option Directory) (platform : String) (names : List String) :
    Outcome Unit → History → List Reply → Prop where
  /-- The engine takes every name. -/
  | all : NamesCourse dir platform names (.ok ()) (pushEvents dir platform names)
      (taken dir platform names)
  /-- The engine takes the names before the one that it refuses; those behind it are not pushed. -/
  | refused (before : List String) {after : List String} {name : String} {e : PushError}
      (hnames : names = before ++ name :: after) :
      NamesCourse dir platform names (.error (.failed e)) (pushEvents dir platform (before ++ [name]))
        (taken dir platform before ++ [.request dir (.push name platform) (.error (.failed e))])

/-- The digest is found, or it is missing and the user is told. -/
inductive DigestCourse (dir : Option Directory) (id : String) : String → History → List Reply → Prop where
  | found {digest : String} : DigestCourse dir id digest [.request dir (.digest id)]
      [.request dir (.digest id) (.ok digest)]
  | missing {e : PushError} : DigestCourse dir id ""
      [.request dir (.digest id),
        .notice (.message "Unable to determine digest for source image, ignoring it for now")]
      [.request dir (.digest id) (.error (.failed e))]

/-- The digest is looked up once all names are pushed. -/
inductive ArtifactCourse (dir : Option Directory) (platform : String) (a : Artifact) :
    Outcome Pushed → History → List Reply → Prop where
  | refused {es : History} {log : List Reply} {e : PushError}
      (hnames : NamesCourse dir platform (namesOf a) (.error (.failed e)) es log) :
      ArtifactCourse dir platform a (.error (.failed e)) (headline a :: es) log
  | pushed {es es' : History} {log log' : List Reply} {digest : String}
      (hnames : NamesCourse dir platform (namesOf a) (.ok ()) es log)
      (hdigest : DigestCourse dir a.id digest es' log') :
      ArtifactCourse dir platform a (.ok (pushed dir a digest)) (headline a :: es ++ es') (log ++ log')

/-! ### The courses of a session -/

/-- The credentials of a login are those that are configured, or the cloud is asked for them. -/
inductive CredentialsCourse (c : Config) :
    Outcome Registry.Credentials → History → List Reply → Prop where
  /-- The cloud is not asked. -/
  | configured (hcloud : c.cloudLogin = false) :
      CredentialsCourse c (.ok ⟨c.username, c.password⟩) [] []
  | cloud {given : Registry.Credentials} (hcloud : c.cloudLogin = true) :
      CredentialsCourse c (.ok given)
        [.notice (.message "Fetching ECR credentials..."), .exchange c.server]
        [.exchange c.server (.ok given)]
  | failed {e : PushError} (hcloud : c.cloudLogin = true) :
      CredentialsCourse c (.error (.failed e))
        [.notice (.message "Fetching ECR credentials..."), .exchange c.server]
        [.exchange c.server (.error (.failed e))]

/-- The request for a login. -/
def loginOf (c : Config) (given : Registry.Credentials) : Request :=
  .login c.server given.username given.password

/-- A session is opened, or the engine refuses the login. -/
inductive OpeningCourse (dir : Option Directory) (c : Config) (given : Registry.Credentials) :
    Outcome Unit → History → List Reply → Prop where
  | opened : OpeningCourse dir c given (.ok ())
      [.notice (.message "Logging in..."), .request dir (loginOf c given)]
      [.request dir (loginOf c given) (.ok ())]
  | refused {e : PushError} : OpeningCourse dir c given (.error (.failed (.login e)))
      [.notice (.message "Logging in..."), .request dir (loginOf c given)]
      [.request dir (loginOf c given) (.error (.failed e))]

/-- A session is closed once, whether that succeeds or not. -/
inductive ClosingCourse (dir : Option Directory) (server : String) : History → List Reply → Prop where
  | closed : ClosingCourse dir server
      [.notice (.message "Logging out..."), .request dir (.logout server)]
      [.request dir (.logout server) (.ok ())]
  | failed {e : PushError} : ClosingCourse dir server
      [.notice (.message "Logging out..."), .request dir (.logout server),
        .notice (.problem s!"Error logging out: {e.message}")]
      [.request dir (.logout server) (.error (.failed e))]

/-- A push without a session, or within one, or not at all if no session can be opened. -/
inductive SessionCourse (dir : Option Directory) (c : Config) (a : Artifact) :
    Outcome Pushed → History → List Reply → Prop where
  /-- No session is wanted. -/
  | without {out : Outcome Pushed} {es : History} {log : List Reply} (hwants : c.wantsLogin = false)
      (hpush : ArtifactCourse dir c.platform a out es log) : SessionCourse dir c a out es log
  /-- The cloud gives no credentials, so that no login is tried. -/
  | noCredentials {es : History} {log : List Reply} {e : PushError} (hwants : c.wantsLogin = true)
      (hgiven : CredentialsCourse c (.error (.failed e)) es log) :
      SessionCourse dir c a (.error (.failed e)) es log
  /-- The engine refuses the login, so that there is nothing to close. -/
  | notOpened {given : Registry.Credentials} {es es' : History} {log log' : List Reply} {e : PushError}
      (hwants : c.wantsLogin = true) (hgiven : CredentialsCourse c (.ok given) es log)
      (hopen : OpeningCourse dir c given (.error (.failed e)) es' log') :
      SessionCourse dir c a (.error (.failed e)) (es ++ es') (log ++ log')
  /-- The session is closed whatever the push came to. -/
  | within {given : Registry.Credentials} {out : Outcome Pushed} {es₁ es₂ es₃ es₄ : History}
      {log₁ log₂ log₃ log₄ : List Reply} (hwants : c.wantsLogin = true)
      (hgiven : CredentialsCourse c (.ok given) es₁ log₁)
      (hopen : OpeningCourse dir c given (.ok ()) es₂ log₂)
      (hpush : ArtifactCourse dir c.platform a out es₃ log₃)
      (hclose : ClosingCourse dir c.server es₄ log₄) :
      SessionCourse dir c a out (es₁ ++ es₂ ++ es₃ ++ es₄) (log₁ ++ log₂ ++ log₃ ++ log₄)

/-! ### The courses of a whole push -/

/-- A scratch directory is removed once, whether that succeeds or not. -/
inductive RemovalCourse (path : Directory) : History → List Reply → Prop where
  | removed : RemovalCourse path
      [.notice (.message "Removing temporary Docker configuration directory"), .dropScratch path]
      [.dropScratch path (.ok ())]
  | failed {e : IoError} : RemovalCourse path
      [.notice (.message "Removing temporary Docker configuration directory"), .dropScratch path,
        .notice (.problem
          s!"Error removing temporary Docker configuration directory: {e.message}")]
      [.dropScratch path (.error e)]

/-- The events of creating a scratch directory. -/
def scratchEvents : History :=
  [.notice (.message "Creating temporary Docker configuration directory"), .makeScratch]

/-- A push that takes place if the artifact is known, within a scratch directory if one is wanted. -/
inductive Course (ownScratch : Bool) (c : Config) (a : Artifact) :
    Outcome Pushed → History → List Reply → Prop where
  /-- Nothing happens to an artifact that is not known. -/
  | unknown (himage : a.isImage = false) :
      Course ownScratch c a (.error (.failed (.unknownArtifact a.builderId))) [] []
  /-- Without the scratch directory that is wanted nothing is pushed. -/
  | noScratch {e : IoError} (himage : a.isImage = true) (hown : ownScratch = true) :
      Course ownScratch c a (.error (.failed (.scratchDir e))) scratchEvents [.makeScratch (.error e)]
  /-- The engine has its configuration where it always is. -/
  | shared {out : Outcome Pushed} {es : History} {log : List Reply} (himage : a.isImage = true)
      (hown : ownScratch = false) (hsession : SessionCourse none c a out es log) :
      Course ownScratch c a out es log
  /-- The scratch directory is removed whatever the push came to. -/
  | scratch {path : Directory} {out : Outcome Pushed} {es es' : History} {log log' : List Reply}
      (himage : a.isImage = true) (hown : ownScratch = true)
      (hsession : SessionCourse (some path) c a out es log) (hremove : RemovalCourse path es' log') :
      Course ownScratch c a out (scratchEvents ++ es ++ es')
        (.makeScratch (.ok path) :: log ++ log')

/-! ### Properties of parts of a push -/

/-- A property of parts of a push, by their events and answers, that goes over from two parts to both of them one
after the other. -/
structure Compositional (P : History → List Reply → Prop) : Prop where
  nil : P [] []
  append : ∀ {es fs : History} {l₁ l₂ : List Reply}, P es l₁ → P fs l₂ → P (es ++ fs) (l₁ ++ l₂)

section

variable {P : History → List Reply → Prop} {dir : Option Directory} {platform : String} {c : Config}
  {a : Artifact} {es : History} {log : List Reply}

theorem NamesCourse.compositional (hP : Compositional P) {names : List String} {out : Outcome Unit}
    (hname : ∀ (name : String) (answer : Outcome Unit), answer ≠ .error .abandoned →
      P (pushEvents dir platform [name]) [.request dir (.push name platform) answer])
    (hcourse : NamesCourse dir platform names out es log) : P es log := by
  have htaken : ∀ names, P (pushEvents dir platform names) (taken dir platform names) := by
    intro names
    induction names with
    | nil => exact hP.nil
    | cons name rest ih => exact hP.append (hname name (.ok ()) (by simp)) ih
  cases hcourse with
  | all => exact htaken names
  | @refused before after name e hnames =>
    have hall := hP.append (htaken before) (hname name (.error (.failed e)) (by simp))
    rwa [pushEvents, pushEvents, ← List.flatMap_append] at hall

theorem ArtifactCourse.compositional (hP : Compositional P) {out : Outcome Pushed}
    (hheadline : P [headline a] [])
    (hname : ∀ (name : String) (answer : Outcome Unit), answer ≠ .error .abandoned →
      P (pushEvents dir platform [name]) [.request dir (.push name platform) answer])
    (hdigest : ∀ {digest es log}, DigestCourse dir a.id digest es log → P es log)
    (hcourse : ArtifactCourse dir platform a out es log) : P es log := by
  cases hcourse with
  | refused hnames => exact hP.append hheadline (hnames.compositional hP hname)
  | pushed hnames hfound =>
    exact hP.append (hP.append hheadline (hnames.compositional hP hname)) (hdigest hfound)

theorem SessionCourse.compositional (hP : Compositional P) {out : Outcome Pushed}
    (hgiven : ∀ {out es log}, CredentialsCourse c out es log → P es log)
    (hopen : ∀ {given out es log}, OpeningCourse dir c given out es log → P es log)
    (hpush : ∀ {out es log}, ArtifactCourse dir c.platform a out es log → P es log)
    (hclose : ∀ {es log}, ClosingCourse dir c.server es log → P es log)
    (hcourse : SessionCourse dir c a out es log) : P es log := by
  cases hcourse with
  | without hwants hpushed => exact hpush hpushed
  | noCredentials hwants hmissing => exact hgiven hmissing
  | notOpened hwants hfound hrefused => exact hP.append (hgiven hfound) (hopen hrefused)
  | within hwants hfound hopened hpushed hclosed =>
    exact hP.append (hP.append (hP.append (hgiven hfound) (hopen hopened)) (hpush hpushed)) (hclose hclosed)

end

/-! ### Steps of a scripted push -/

/-- A step follows a relation if each of its runs that is not given up only adds events, and its outcome, these
events and the answers to them are related. -/
def Follows {α : Type} (s : Script) (step : StateM History (Outcome α))
    (course : Outcome α → History → List Reply → Prop) : Prop :=
  ∀ h h' out, step h = (out, h') → out ≠ .error .abandoned →
    ∃ es, h' = h ++ es ∧ course out es (s.replies h es)

namespace Follows

variable {s : Script} {dir : Option Directory} {α β : Type}
  {course : Outcome α → History → List Reply → Prop}

theorem pure {out : Outcome α} (hcourse : course out [] []) : Follows s (pure out) course := by
  rintro h h' _ hrun -
  obtain ⟨rfl, rfl⟩ := Prod.mk.inj hrun
  exact ⟨[], by simp, hcourse⟩

theorem given_up : Follows s (Pure.pure (.error .abandoned)) course := by
  rintro h h' out hrun hdone
  exact absurd (Prod.mk.inj hrun).1.symm hdone

theorem mono {step : StateM History (Outcome α)} {stronger : Outcome α → History → List Reply → Prop}
    (hstep : Follows s step stronger) (himp : ∀ out es log, stronger out es log → course out es log) :
    Follows s step course := by
  intro h h' out hrun hdone
  obtain ⟨es, hes, hcourse⟩ := hstep h h' out hrun hdone
  exact ⟨es, hes, himp _ _ _ hcourse⟩

theorem notify {n : Notice} {step : StateM History (Outcome α)}
    (hstep : Follows s step fun out es log => course out (.notice n :: es) log) :
    Follows s (do (s.workplace.peers dir).notify n; step) course := by
  intro h h' out hrun hdone
  obtain ⟨es, rfl, hcourse⟩ := hstep _ _ _ hrun hdone
  exact ⟨.notice n :: es, by simp, hcourse⟩

theorem workplace_notify {n : Notice} {step : StateM History (Outcome α)}
    (hstep : Follows s step fun out es log => course out (.notice n :: es) log) :
    Follows s (do s.workplace.notify n; step) course :=
  @notify s none _ _ _ _ hstep

theorem ask {r : Request} {rest : Outcome r.Result → StateM History (Outcome α)}
    (hrest : ∀ answer, Follows s (rest answer) fun out es log =>
      course out (.request dir r :: es) (.request dir r answer :: log)) :
    Follows s (do rest (← (s.workplace.peers dir).ask r)) course := by
  intro h h' out hrun hdone
  obtain ⟨es, rfl, hcourse⟩ := hrest _ _ _ _ hrun hdone
  exact ⟨.request dir r :: es, by simp, hcourse⟩

theorem exchange {server : String} {rest : Outcome Registry.Credentials → StateM History (Outcome α)}
    (hrest : ∀ answer, Follows s (rest answer) fun out es log =>
      course out (.exchange server :: es) (.exchange server answer :: log)) :
    Follows s (do rest (← (s.workplace.peers dir).exchange server)) course := by
  intro h h' out hrun hdone
  obtain ⟨es, rfl, hcourse⟩ := hrest _ _ _ _ hrun hdone
  exact ⟨.exchange server :: es, by simp, hcourse⟩

theorem makeScratch {rest : Except IoError Directory → StateM History (Outcome α)}
    (hrest : ∀ answer, Follows s (rest answer) fun out es log =>
      course out (.makeScratch :: es) (.makeScratch answer :: log)) :
    Follows s (do rest (← s.workplace.makeScratch)) course := by
  intro h h' out hrun hdone
  obtain ⟨es, rfl, hcourse⟩ := hrest _ _ _ _ hrun hdone
  exact ⟨.makeScratch :: es, by simp, hcourse⟩

theorem dropScratch {path : Directory} {rest : Except IoError Unit → StateM History (Outcome α)}
    (hrest : ∀ answer, Follows s (rest answer) fun out es log =>
      course out (.dropScratch path :: es) (.dropScratch path answer :: log)) :
    Follows s (do rest (← s.workplace.dropScratch path)) course := by
  intro h h' out hrun hdone
  obtain ⟨es, rfl, hcourse⟩ := hrest _ _ _ _ hrun hdone
  exact ⟨.dropScratch path :: es, by simp, hcourse⟩

/-- A step that follows a relation, and what comes after it; that is given up where the step is. -/
theorem bind {first : StateM History (Outcome β)} {rest : Outcome β → StateM History (Outcome α)}
    {firstCourse : Outcome β → History → List Reply → Prop} (hfirst : Follows s first firstCourse)
    (hgiven : ∀ h, (rest (.error .abandoned) h).1 = .error .abandoned)
    (hrest : ∀ mid es log, firstCourse mid es log →
      Follows s (rest mid) fun out es' log' => course out (es ++ es') (log ++ log')) :
    Follows s (do rest (← first)) course := by
  intro h h' out hrun hdone
  rcases hmid : first h with ⟨mid, hist⟩
  have hrun' : rest mid hist = (out, h') := by
    rw [← hrun]
    exact (congrArg (fun p => rest p.1 p.2) hmid).symm
  have hmiddone : mid ≠ .error .abandoned := by
    rintro rfl
    exact hdone (by rw [← hgiven hist, hrun'])
  obtain ⟨es, rfl, hcourse⟩ := hfirst _ _ _ hmid hmiddone
  obtain ⟨es', rfl, hcourse'⟩ := hrest mid es _ hcourse _ _ _ hrun' hdone
  exact ⟨es ++ es', by simp, by rw [Script.replies_append]; exact hcourse'⟩

end Follows

/-! ### Every run takes a course -/

variable (s : Script) (dir : Option Directory)

/-- A course of the later names is one of all names if the first name is taken. -/
theorem NamesCourse.cons {dir : Option Directory} {platform name : String} {rest : List String}
    {out : Outcome Unit} {es : History} {log : List Reply}
    (hcourse : NamesCourse dir platform rest out es log) :
    NamesCourse dir platform (name :: rest) out
      (pushing name :: .request dir (.push name platform) :: es)
      (.request dir (.push name platform) (.ok ()) :: log) := by
  cases hcourse with
  | all => exact .all
  | refused before hnames =>
    subst hnames
    exact .refused (name :: before) rfl

theorem pushNames_follows (platform : String) (names : List String) :
    Follows s (pushNames (s.workplace.peers dir) platform names) (NamesCourse dir platform names) := by
  induction names with
  | nil => exact .pure .all
  | cons name rest ih =>
    refine .notify (.ask fun answer => ?_)
    match answer with
    | .ok () => exact ih.mono fun _ _ _ hrest => hrest.cons
    | .error .abandoned => exact .given_up
    | .error (.failed e) => exact .pure (.refused [] rfl)

theorem lookUpDigest_follows (id : String) :
    Follows s (lookUpDigest (s.workplace.peers dir) id) fun out es log =>
      ∃ digest, out = .ok digest ∧ DigestCourse dir id digest es log := by
  refine .ask fun answer => ?_
  match answer with
  | .ok digest => exact .pure ⟨digest, rfl, .found⟩
  | .error (.failed e) => exact .notify (.pure ⟨"", rfl, .missing⟩)
  | .error .abandoned => exact .given_up

theorem pushArtifact_follows (platform : String) (a : Artifact) :
    Follows s (pushArtifact (s.workplace.peers dir) platform a) (ArtifactCourse dir platform a) := by
  refine .notify (.bind (pushNames_follows s dir platform (namesOf a)) (fun _ => rfl) ?_)
  intro mid es log hnames
  match mid with
  | .error .abandoned => exact .given_up
  | .error (.failed e) =>
    refine .pure ?_
    rw [List.append_nil, List.append_nil]
    exact .refused hnames
  | .ok () =>
    refine .bind (lookUpDigest_follows s dir a.id) (fun _ => rfl) ?_
    rintro mid es' log' ⟨digest, rfl, hdigest⟩
    refine .pure ?_
    rw [List.append_nil, List.append_nil]
    exact .pushed hnames hdigest

theorem closeSession_follows (server : String) :
    Follows s (closeSession (s.workplace.peers dir) server) fun out es log =>
      out = .ok () ∧ ClosingCourse dir server es log := by
  refine .notify (.ask fun answer => ?_)
  match answer with
  | .ok () => exact .pure ⟨rfl, .closed⟩
  | .error (.failed e) => exact .notify (.pure ⟨rfl, .failed⟩)
  | .error .abandoned => exact .given_up

/-- A step within a session is followed by the closing of the session and keeps its outcome. -/
theorem withinSession_follows {α : Type} (server : String) {step : StateM History (Outcome α)}
    {course : Outcome α → History → List Reply → Prop} (hstep : Follows s step course) :
    Follows s (withinSession (s.workplace.peers dir) server step) fun out es log =>
      ∃ es₁ es₂ log₁ log₂, es = es₁ ++ es₂ ∧ log = log₁ ++ log₂ ∧ course out es₁ log₁ ∧
        ClosingCourse dir server es₂ log₂ := by
  refine .bind hstep (fun _ => rfl) ?_
  intro mid es log hcourse
  match mid with
  | .error .abandoned =>
    intro h h' out hrun hdone
    exact absurd (Prod.mk.inj hrun).1.symm hdone
  | .error (.failed e) | .ok x =>
    refine .bind (closeSession_follows s dir server) (fun _ => rfl) ?_
    rintro _ es' log' ⟨rfl, hclosing⟩
    exact .pure ⟨es, es', log, log', by simp, by simp, hcourse, hclosing⟩

theorem credentials_follows (c : Config) :
    Follows s (credentials (s.workplace.peers dir) c) (CredentialsCourse c) := by
  unfold credentials
  by_cases hcloud : c.cloudLogin = true
  · rw [if_pos hcloud]
    refine .notify ?_
    intro h h' out hrun hdone
    obtain ⟨rfl, rfl⟩ := Prod.mk.inj hrun
    refine ⟨[.exchange c.server], rfl, ?_⟩
    rw [Script.replies_exchange, Script.replies_nil]
    match hans : s.credentials h c.server with
    | .ok given => exact .cloud hcloud
    | .error (.failed e) => exact .failed hcloud
    | .error .abandoned => exact absurd hans hdone
  · rw [if_neg hcloud]
    exact .pure (.configured (by simpa using hcloud))

theorem openSession_follows (c : Config) (given : Registry.Credentials) :
    Follows s (openSession (s.workplace.peers dir) c.server given) (OpeningCourse dir c given) := by
  refine .notify (.ask fun answer => ?_)
  match answer with
  | .ok () => exact .pure .opened
  | .error (.failed e) => exact .pure .refused
  | .error .abandoned => exact .given_up

theorem loginAndPush_follows (c : Config) (a : Artifact) :
    Follows s (loginAndPush (s.workplace.peers dir) c a) (SessionCourse dir c a) := by
  unfold loginAndPush
  by_cases hwants : c.wantsLogin = true
  · rw [if_pos hwants]
    refine .bind (credentials_follows s dir c) (fun _ => rfl) ?_
    intro mid es₁ log₁ hgiven
    match mid with
    | .error .abandoned => exact .given_up
    | .error (.failed e) =>
      refine .pure ?_
      rw [List.append_nil, List.append_nil]
      exact .noCredentials hwants hgiven
    | .ok given =>
      refine .bind (openSession_follows s dir c given) (fun _ => rfl) ?_
      intro mid es₂ log₂ hopen
      match mid with
      | .error .abandoned => exact .given_up
      | .error (.failed e) =>
        refine .pure ?_
        rw [List.append_nil, List.append_nil]
        exact .notOpened hwants hgiven hopen
      | .ok () =>
        refine (withinSession_follows s dir c.server (pushArtifact_follows s dir c.platform a)).mono ?_
        rintro out _ _ ⟨es₃, es₄, log₃, log₄, rfl, rfl, hpush, hclose⟩
        have hcourse := SessionCourse.within hwants hgiven hopen hpush hclose
        simpa using hcourse
  · rw [if_neg hwants]
    exact (pushArtifact_follows s dir c.platform a).mono fun _ _ _ hpush =>
      .without (by simpa using hwants) hpush

/-! ### The whole push -/

/-- A step behind the removal of a scratch directory. -/
theorem removeScratch_follows {α : Type} (path : Directory) {step : StateM History (Outcome α)}
    {course : Outcome α → History → List Reply → Prop}
    (hstep : ∀ es log, RemovalCourse path es log →
      Follows s step fun out es' log' => course out (es ++ es') (log ++ log')) :
    Follows s (do removeScratch s.workplace path; step) course := by
  unfold removeScratch
  rw [bind_assoc]
  refine .workplace_notify ?_
  rw [bind_assoc]
  refine .dropScratch fun answer => ?_
  match answer with
  | .ok () => exact hstep _ _ .removed
  | .error e => exact .workplace_notify (hstep _ _ .failed)

/-- A step with a scratch directory is followed by the removal of the directory and keeps its outcome. -/
theorem withScratch_follows {α : Type} {step : Directory → StateM History (Outcome α)}
    {course : Directory → Outcome α → History → List Reply → Prop}
    (hstep : ∀ path, Follows s (step path) (course path)) :
    Follows s (withScratch s.workplace step) fun out es log =>
      (∃ e, out = .error (.failed (.scratchDir e)) ∧ es = scratchEvents ∧ log = [.makeScratch (.error e)]) ∨
      ∃ path es₁ es₂ log₁ log₂, es = scratchEvents ++ es₁ ++ es₂ ∧
        log = .makeScratch (.ok path) :: log₁ ++ log₂ ∧ course path out es₁ log₁ ∧
        RemovalCourse path es₂ log₂ := by
  refine .workplace_notify (.makeScratch fun answer => ?_)
  match answer with
  | .error e => exact .pure (.inl ⟨e, rfl, rfl, rfl⟩)
  | .ok path =>
    refine .bind (hstep path) (fun _ => rfl) ?_
    intro mid es₁ log₁ hcourse
    match mid with
    | .error .abandoned =>
      intro h h' out hrun hdone
      exact absurd (Prod.mk.inj hrun).1.symm hdone
    | .error (.failed e) | .ok x =>
      refine removeScratch_follows s path fun es₂ log₂ hremoval => .pure (.inr ?_)
      exact ⟨path, es₁, es₂, log₁, log₂, by simp [scratchEvents], by simp, hcourse, hremoval⟩

theorem run_follows (own : Bool) (c : Config) (a : Artifact) :
    Follows s (run s.workplace own c a) (Course own c a) := by
  unfold run
  by_cases himage : a.isImage = true
  · rw [if_neg (by simp [himage])]
    cases own with
    | true =>
      refine (withScratch_follows s fun path => loginAndPush_follows s (some path) c a).mono ?_
      rintro out es log (⟨e, rfl, rfl, rfl⟩ | ⟨path, es₁, es₂, log₁, log₂, rfl, rfl, hsession, hremove⟩)
      · exact .noScratch himage rfl
      · exact .scratch himage rfl hsession hremove
    | false =>
      exact (loginAndPush_follows s none c a).mono fun _ _ _ hsession => .shared himage rfl hsession
  · have hunknown : a.isImage = false := by simpa using himage
    rw [if_pos (by simp [hunknown])]
    exact .pure (.unknown hunknown)

/-- Every run by a script that is not given up takes one of the courses, with the answers of the script. -/
theorem run_course {own : Bool} {c : Config} {a : Artifact} {h h' : History} {out : Outcome Pushed}
    (hrun : s.run own c a h = (out, h')) (hdone : out ≠ .error .abandoned) :
    ∃ es, h' = h ++ es ∧ Course own c a out es (s.replies h es) :=
  run_follows s own c a h h' out hrun hdone

end ImagePush.Push
