import ImagePush.Proofs.Push.Session
import Mathlib.Data.List.Basic

/-!
# Releases that fail

At the end of a push the session is closed and the scratch directory is removed. Whether that succeeds is
reported and nothing else depends on it: two pushes whose workplaces answer alike until then end with the
same outcome, and their events are the same apart from the reports (`release_failures_change_nothing`). The
problems that a push reports are exactly its failed releases, each right behind the notice of the release
(`ReleasesReported`).
-/

namespace ImagePush

/-- A notice of a problem. -/
def Notice.isProblem : Notice → Bool
  | .problem _ => true
  | _ => false

/-- What the user is told by an event. -/
def Event.notice? : Event → Option Notice
  | .notice n => some n
  | _ => none

/-- What the engine is asked by an event, and where it keeps its configuration. -/
def Event.asked? : Event → Option (Option Directory × Request)
  | .request dir r => some (dir, r)
  | _ => none

/-- An event that tells the user of a problem. -/
def Event.isProblem (e : Event) : Bool :=
  e.notice?.any Notice.isProblem

namespace Push

/-! ### What a push shows -/

/-- What the user is told, in order. -/
def notices (es : History) : List Notice :=
  es.filterMap Event.notice?

/-- What the engine is asked, in order. -/
def asked (es : History) : List (Option Directory × Request) :=
  es.filterMap Event.asked?

/-- The events that tell of no problem. -/
def calm (es : History) : History :=
  es.filter fun e => !e.isProblem

/-- The answer to a logout. -/
def Reply.logout? : Reply → Option (Outcome Unit)
  | .request _ (.logout _) answer => some answer
  | _ => none

/-- The answer to the removal of a scratch directory. -/
def Reply.removal? : Reply → Option (Except IoError Unit)
  | .dropScratch _ answer => some answer
  | _ => none

/-- The scratch directory that was created. -/
def Reply.created? : Reply → Option Directory
  | .makeScratch (.ok path) => some path
  | _ => none

/-- The answers to the logouts, in order. -/
def logouts (log : List Reply) : List (Outcome Unit) :=
  log.filterMap Reply.logout?

/-- The answers to the removals of a scratch directory, in order. -/
def removals (log : List Reply) : List (Except IoError Unit) :=
  log.filterMap Reply.removal?

/-- The scratch directories that were created, in order. -/
def created (log : List Reply) : List Directory :=
  log.filterMap Reply.created?

/-- What the user is told about a logout, by its answer. -/
def closingNotices : Outcome Unit → List Notice
  | .error (.failed e) => [.message "Logging out...", .problem s!"Error logging out: {e.message}"]
  | _ => [.message "Logging out..."]

/-- What the user is told about the removal of a scratch directory, by its answer. -/
def removalNotices : Except IoError Unit → List Notice
  | .error e =>
    [.message "Removing temporary Docker configuration directory",
      .problem s!"Error removing temporary Docker configuration directory: {e.message}"]
  | .ok () => [.message "Removing temporary Docker configuration directory"]

/-- The problems that the user is told of are the releases that failed: at the end there is one logout at
most, and then one removal if a directory was created. -/
structure ReleasesReported (es : History) (log : List Reply) : Prop where
  notices_eq : ∃ before, notices es = before ++ (logouts log).flatMap closingNotices ++
    (removals log).flatMap removalNotices ∧ ∀ n ∈ before, n.isProblem = false
  logouts_le : (logouts log).length ≤ 1
  created_le : (created log).length ≤ 1
  removals_length : (removals log).length = (created log).length

/-! ### The reports of a push -/

theorem notices_append (es fs : History) : notices (es ++ fs) = notices es ++ notices fs :=
  List.filterMap_append

theorem calm_append (es fs : History) : calm (es ++ fs) = calm es ++ calm fs :=
  List.filter_append _ _

theorem logouts_append (l₁ l₂ : List Reply) : logouts (l₁ ++ l₂) = logouts l₁ ++ logouts l₂ :=
  List.filterMap_append

theorem removals_append (l₁ l₂ : List Reply) : removals (l₁ ++ l₂) = removals l₁ ++ removals l₂ :=
  List.filterMap_append

theorem created_append (l₁ l₂ : List Reply) : created (l₁ ++ l₂) = created l₁ ++ created l₂ :=
  List.filterMap_append

/-- A part of a push that tells of no problem and neither acquires nor releases a scratch directory, nor
closes a session. -/
structure Quiet (es : History) (log : List Reply) : Prop where
  no_problem : ∀ n ∈ notices es, n.isProblem = false
  logouts_eq : logouts log = []
  removals_eq : removals log = []
  created_eq : created log = []

theorem compositional_quiet : Compositional Quiet where
  nil := ⟨by simp [notices], rfl, rfl, rfl⟩
  append := by
    intro es fs l₁ l₂ h₁ h₂
    refine ⟨fun n hmem => ?_, ?_, ?_, ?_⟩
    · rw [notices_append] at hmem
      rcases List.mem_append.1 hmem with hmem | hmem
      · exact h₁.no_problem n hmem
      · exact h₂.no_problem n hmem
    · rw [logouts_append, h₁.logouts_eq, h₂.logouts_eq, List.append_nil]
    · rw [removals_append, h₁.removals_eq, h₂.removals_eq, List.append_nil]
    · rw [created_append, h₁.created_eq, h₂.created_eq, List.append_nil]

section

variable {dir : Option Directory} {c : Config} {a : Artifact} {es : History} {log : List Reply}

theorem ArtifactCourse.quiet {platform : String} {out : Outcome Pushed}
    (hcourse : ArtifactCourse dir platform a out es log) : Quiet es log := by
  refine hcourse.compositional compositional_quiet ?_ ?_ ?_
  · exact ⟨by simp [notices, headline, Event.notice?, Notice.isProblem], rfl, rfl, rfl⟩
  · intro name answer _
    exact ⟨by simp [notices, pushEvents, pushing, Event.notice?, Notice.isProblem], rfl, rfl, rfl⟩
  · intro digest es log hdigest
    cases hdigest <;> exact ⟨by simp [notices, Event.notice?, Notice.isProblem], rfl, rfl, rfl⟩

theorem CredentialsCourse.quiet {out : Outcome Registry.Credentials}
    (hcourse : CredentialsCourse c out es log) : Quiet es log := by
  cases hcourse <;> exact ⟨by simp [notices, Event.notice?, Notice.isProblem], rfl, rfl, rfl⟩

theorem OpeningCourse.quiet {given : Registry.Credentials} {out : Outcome Unit}
    (hcourse : OpeningCourse dir c given out es log) : Quiet es log := by
  cases hcourse <;> exact ⟨by simp [notices, Event.notice?, Notice.isProblem], rfl, rfl, rfl⟩

theorem ClosingCourse.notices_eq {server : String} (hcourse : ClosingCourse dir server es log) :
    notices es = (logouts log).flatMap closingNotices ∧ (logouts log).length = 1 ∧
      removals log = [] ∧ created log = [] := by
  cases hcourse <;> exact ⟨rfl, rfl, rfl, rfl⟩

theorem RemovalCourse.notices_eq {path : Directory} (hcourse : RemovalCourse path es log) :
    notices es = (removals log).flatMap removalNotices ∧ (removals log).length = 1 ∧
      logouts log = [] ∧ created log = [] := by
  cases hcourse <;> exact ⟨rfl, rfl, rfl, rfl⟩

/-- The only problem that a session reports is that it cannot be closed. -/
theorem SessionCourse.notices_eq {out : Outcome Pushed} (hcourse : SessionCourse dir c a out es log) :
    (∃ before, notices es = before ++ (logouts log).flatMap closingNotices ∧
      ∀ n ∈ before, n.isProblem = false) ∧
      (logouts log).length ≤ 1 ∧ removals log = [] ∧ created log = [] := by
  -- Only a push within a session comes to a logout; all other ones are quiet to the end.
  have hquiet : ∀ {es : History} {log : List Reply}, Quiet es log →
      (∃ before, notices es = before ++ (logouts log).flatMap closingNotices ∧
        ∀ n ∈ before, n.isProblem = false) ∧
        (logouts log).length ≤ 1 ∧ removals log = [] ∧ created log = [] := by
    intro es log h
    exact ⟨⟨notices es, by simp [h.logouts_eq], h.no_problem⟩, by simp [h.logouts_eq], h.removals_eq,
      h.created_eq⟩
  cases hcourse with
  | without hwants hpush => exact hquiet hpush.quiet
  | noCredentials hwants hgiven => exact hquiet hgiven.quiet
  | notOpened hwants hgiven hopen => exact hquiet (compositional_quiet.append hgiven.quiet hopen.quiet)
  | within hwants hgiven hopen hpush hclose =>
    have hbefore := compositional_quiet.append (compositional_quiet.append hgiven.quiet hopen.quiet) hpush.quiet
    obtain ⟨hnotices, hone, hremovals, hcreated⟩ := hclose.notices_eq
    refine ⟨⟨_, ?_, hbefore.no_problem⟩, ?_, ?_, ?_⟩
    · rw [notices_append, logouts_append, hbefore.logouts_eq, List.nil_append, hnotices]
    · rw [logouts_append, hbefore.logouts_eq, List.nil_append]
      exact Nat.le_of_eq hone
    · rw [removals_append, hbefore.removals_eq, hremovals, List.append_nil]
    · rw [created_append, hbefore.created_eq, hcreated, List.append_nil]

theorem Course.releasesReported {own : Bool} {out : Outcome Pushed} (hcourse : Course own c a out es log) :
    ReleasesReported es log := by
  have hscratch : ∀ n ∈ notices scratchEvents, n.isProblem = false := by
    simp [scratchEvents, notices, Event.notice?, Notice.isProblem]
  cases hcourse with
  | unknown himage => exact ⟨⟨[], rfl, by simp⟩, by simp [logouts], by simp [created], rfl⟩
  | noScratch himage hown =>
    exact ⟨⟨notices scratchEvents, rfl, hscratch⟩, Nat.zero_le _, Nat.zero_le _, rfl⟩
  | shared himage hown hsession =>
    obtain ⟨⟨before, hnotices, hbefore⟩, hone, hremovals, hcreated⟩ := hsession.notices_eq
    exact ⟨⟨before, by rw [hnotices, hremovals, List.flatMap_nil, List.append_nil], hbefore⟩, hone,
      by simp [hcreated], by simp [hremovals, hcreated]⟩
  | @scratch path out es₂ es₃ log₂ log₃ himage hown hsession hremove =>
    obtain ⟨⟨before, hnotices, hbefore⟩, hone, hremovals, hcreated⟩ := hsession.notices_eq
    obtain ⟨hnotices', hone', hlogouts', hcreated'⟩ := hremove.notices_eq
    have hlogouts : logouts (.makeScratch (.ok path) :: log₂ ++ log₃) = logouts log₂ := by
      rw [logouts_append, hlogouts', List.append_nil]
      rfl
    have hremovals' : removals (.makeScratch (.ok path) :: log₂ ++ log₃) = removals log₃ := by
      rw [removals_append, show removals (.makeScratch (.ok path) :: log₂) = removals log₂ from rfl,
        hremovals, List.nil_append]
    have hcreated'' : created (.makeScratch (.ok path) :: log₂ ++ log₃) = [path] := by
      rw [created_append, hcreated', List.append_nil,
        show created (.makeScratch (.ok path) :: log₂) = path :: created log₂ from rfl, hcreated]
    refine ⟨⟨notices scratchEvents ++ before, ?_, ?_⟩, ?_, ?_, ?_⟩
    · rw [notices_append, notices_append, hnotices, hnotices', hlogouts, hremovals']
      simp only [List.append_assoc]
    · intro n hmem
      rcases List.mem_append.1 hmem with hmem | hmem
      · exact hscratch n hmem
      · exact hbefore n hmem
    · rwa [hlogouts]
    · rw [hcreated'']
      exact Nat.le_refl 1
    · rw [hremovals', hcreated'', hone']
      rfl

end

/-! ### Two pushes that differ in their releases -/

/-- Two workplaces that answer alike, but for logouts and the removal of scratch directories. -/
structure AgreeUntilRelease (s t : Script) : Prop where
  answer : ∀ h dir r, (∀ server, r ≠ .logout server) → s.answer h dir r = t.answer h dir r
  credentials : s.credentials = t.credentials
  makeScratch : s.makeScratch = t.makeScratch

/-- Two steps that, unless one of them is given up, come to the same outcome with the same events, apart from
the problems they tell of. -/
def Twins {α : Type} (first second : StateM History (Outcome α)) : Prop :=
  ∀ h, (first h).1 ≠ .error .abandoned → (second h).1 ≠ .error .abandoned →
    (first h).1 = (second h).1 ∧ calm (first h).2 = calm (second h).2

namespace Twins

variable {α β : Type}

theorem refl (step : StateM History (Outcome α)) : Twins step step :=
  fun _ _ _ => ⟨rfl, rfl⟩

/-- The same step before two steps. -/
theorem behind {step : StateM History β} {rest rest' : β → StateM History (Outcome α)}
    (hrest : ∀ mid, Twins (rest mid) (rest' mid)) :
    Twins (do rest (← step)) (do rest' (← step)) :=
  fun h => hrest (step h).1 (step h).2

end Twins

section

variable {s t : Script} (hagree : AgreeUntilRelease s t) (dir : Option Directory)

include hagree

theorem ask_agree {r : Request} (hr : ∀ server, r ≠ .logout server) :
    (s.workplace.peers dir).ask r = (t.workplace.peers dir).ask r := by
  funext h
  rw [Script.ask_apply, Script.ask_apply, hagree.answer h dir r hr]

theorem pushNames_agree (platform : String) (names : List String) :
    pushNames (s.workplace.peers dir) platform names = pushNames (t.workplace.peers dir) platform names := by
  induction names with
  | nil => rfl
  | cons name rest ih =>
    unfold pushNames
    rw [ask_agree hagree dir (by simp), ih]
    rfl

theorem lookUpDigest_agree (id : String) :
    lookUpDigest (s.workplace.peers dir) id = lookUpDigest (t.workplace.peers dir) id := by
  unfold lookUpDigest
  rw [ask_agree hagree dir (by simp)]
  rfl

theorem pushArtifact_agree (platform : String) (a : Artifact) :
    pushArtifact (s.workplace.peers dir) platform a = pushArtifact (t.workplace.peers dir) platform a := by
  simp only [pushArtifact, pushNames_agree hagree dir, lookUpDigest_agree hagree dir]
  rfl

theorem credentials_agree (c : Config) :
    credentials (s.workplace.peers dir) c = credentials (t.workplace.peers dir) c := by
  have hexchange : (s.workplace.peers dir).exchange = (t.workplace.peers dir).exchange := by
    funext server h
    rw [Script.exchange_apply, Script.exchange_apply, hagree.credentials]
  unfold credentials
  rw [hexchange]
  rfl

theorem openSession_agree (server : String) (given : Registry.Credentials) :
    openSession (s.workplace.peers dir) server given = openSession (t.workplace.peers dir) server given := by
  unfold openSession
  rw [ask_agree hagree dir (by simp)]
  rfl

end

/-! ### The releases themselves -/

/-- The notice before a scratch directory is created. -/
def creating : Event :=
  .notice (.message "Creating temporary Docker configuration directory")

/-- The events of closing a session, apart from the report of a failure. -/
def closingEvents (dir : Option Directory) (server : String) : History :=
  [.notice (.message "Logging out..."), .request dir (.logout server)]

/-- The events of removing a scratch directory, apart from the report of a failure. -/
def removalEvents (path : Directory) : History :=
  [.notice (.message "Removing temporary Docker configuration directory"), .dropScratch path]

theorem ClosingCourse.calm_eq {dir : Option Directory} {server : String} {es : History} {log : List Reply}
    (hcourse : ClosingCourse dir server es log) : calm es = closingEvents dir server := by
  cases hcourse <;> rfl

section

variable {s t : Script} {dir : Option Directory} {α : Type} {h h' : History}

theorem closeSession_calm (server : String) (h : History)
    (hdone : (closeSession (s.workplace.peers dir) server h).1 ≠ .error .abandoned) :
    (closeSession (s.workplace.peers dir) server h).1 = .ok () ∧
      calm (closeSession (s.workplace.peers dir) server h).2 = calm h ++ closingEvents dir server := by
  rcases hclose : closeSession (s.workplace.peers dir) server h with ⟨out, h'⟩
  rw [hclose] at hdone
  obtain ⟨es, rfl, hout, hcourse⟩ := closeSession_follows s dir server h h' out hclose hdone
  exact ⟨hout, by rw [calm_append, hcourse.calm_eq]⟩

theorem withinSession_of_step (server : String) {step : StateM History (Outcome α)} {mid : Outcome α}
    (hstep : step h = (mid, h')) (hmid : mid ≠ .error .abandoned) :
    withinSession (s.workplace.peers dir) server step h =
      ((closeSession (s.workplace.peers dir) server h').1.bind fun _ => mid,
        (closeSession (s.workplace.peers dir) server h').2) := by
  rcases hclose : closeSession (s.workplace.peers dir) server h' with ⟨out, h''⟩
  match mid with
  | .error .abandoned => exact absurd rfl hmid
  | .error (.failed e) | .ok x =>
    unfold withinSession
    rw [bind_of_eq hstep]
    refine (bind_of_eq hclose).trans ?_
    cases out <;> rfl

theorem withinSession_of_given_up (server : String) {step : StateM History (Outcome α)}
    (hstep : step h = (.error .abandoned, h')) :
    withinSession (s.workplace.peers dir) server step h =
      (.error .abandoned, ((s.workplace.peers dir).closeLater server h').2) :=
  bind_of_eq hstep

/-- Whether or not a session can be closed, the outcome is that of the step within it. -/
theorem withinSession_calm (server : String) (step : StateM History (Outcome α)) (h : History)
    (hdone : (withinSession (s.workplace.peers dir) server step h).1 ≠ .error .abandoned) :
    (withinSession (s.workplace.peers dir) server step h).1 = (step h).1 ∧
      calm (withinSession (s.workplace.peers dir) server step h).2 =
        calm (step h).2 ++ closingEvents dir server := by
  rcases hstep : step h with ⟨mid, h'⟩
  by_cases hmid : mid = .error .abandoned
  · subst hmid
    rw [withinSession_of_given_up server hstep] at hdone
    exact absurd rfl hdone
  · rw [withinSession_of_step server hstep hmid] at hdone ⊢
    have hclosed : (closeSession (s.workplace.peers dir) server h').1 ≠ .error .abandoned := by
      intro habandoned
      rw [habandoned] at hdone
      exact hdone rfl
    obtain ⟨hout, hcalm⟩ := closeSession_calm server h' hclosed
    exact ⟨by rw [hout]; rfl, hcalm⟩

theorem removeScratch_calm (path : Directory) (h : History) :
    calm (removeScratch s.workplace path h).2 = calm h ++ removalEvents path := by
  unfold removeScratch
  rw [bind_of_eq (s.workplace_notify_apply h _), bind_of_eq (s.dropScratch_apply _ path), List.append_assoc]
  cases s.dropScratch _ path with
  | ok _ => exact calm_append h _
  | error e =>
    change calm (h ++ _ ++ [_]) = _
    rw [List.append_assoc, calm_append]
    rfl

theorem withScratch_of_unmade {step : Directory → StateM History (Outcome α)} {e : IoError}
    (hmade : s.makeScratch (h ++ [creating]) = .error e) :
    withScratch s.workplace step h = (.error (.failed (.scratchDir e)), h ++ scratchEvents) := by
  unfold withScratch
  rw [bind_of_eq (s.workplace_notify_apply h _), bind_of_eq (s.makeScratch_apply _), ← creating, hmade,
    List.append_assoc]
  rfl

theorem withScratch_of_step {step : Directory → StateM History (Outcome α)} {path : Directory} {mid : Outcome α}
    (hmade : s.makeScratch (h ++ [creating]) = .ok path)
    (hstep : step path (h ++ scratchEvents) = (mid, h')) (hmid : mid ≠ .error .abandoned) :
    withScratch s.workplace step h = (mid, (removeScratch s.workplace path h').2) := by
  unfold withScratch
  rw [bind_of_eq (s.workplace_notify_apply h _), bind_of_eq (s.makeScratch_apply _), ← creating, hmade,
    List.append_assoc]
  match mid with
  | .error .abandoned => exact absurd rfl hmid
  | .error (.failed e) | .ok x => exact bind_of_eq hstep

theorem withScratch_of_given_up {step : Directory → StateM History (Outcome α)} {path : Directory}
    (hmade : s.makeScratch (h ++ [creating]) = .ok path)
    (hstep : step path (h ++ scratchEvents) = (.error .abandoned, h')) :
    withScratch s.workplace step h = (.error .abandoned, h' ++ [.dropScratch path]) := by
  unfold withScratch
  rw [bind_of_eq (s.workplace_notify_apply h _), bind_of_eq (s.makeScratch_apply _), ← creating, hmade,
    List.append_assoc]
  exact bind_of_eq hstep

/-- Whether or not a scratch directory can be removed, the outcome is that of the step that used it. -/
theorem withScratch_calm {step : Directory → StateM History (Outcome α)} {path : Directory}
    (hmade : s.makeScratch (h ++ [creating]) = .ok path)
    (hdone : (withScratch s.workplace step h).1 ≠ .error .abandoned) :
    (withScratch s.workplace step h).1 = (step path (h ++ scratchEvents)).1 ∧
      calm (withScratch s.workplace step h).2 =
        calm (step path (h ++ scratchEvents)).2 ++ removalEvents path := by
  rcases hstep : step path (h ++ scratchEvents) with ⟨mid, h'⟩
  by_cases hmid : mid = .error .abandoned
  · subst hmid
    rw [withScratch_of_given_up hmade hstep] at hdone
    exact absurd rfl hdone
  · rw [withScratch_of_step hmade hstep hmid]
    exact ⟨rfl, removeScratch_calm path h'⟩

end

/-! ### Two pushes -/

section

variable {s t : Script} (hagree : AgreeUntilRelease s t)

theorem twins_withinSession {dir : Option Directory} {α : Type} (server : String)
    (step : StateM History (Outcome α)) :
    Twins (withinSession (s.workplace.peers dir) server step)
      (withinSession (t.workplace.peers dir) server step) := by
  intro h hs ht
  obtain ⟨houtS, hcalmS⟩ := withinSession_calm server step h hs
  obtain ⟨houtT, hcalmT⟩ := withinSession_calm server step h ht
  exact ⟨houtS.trans houtT.symm, hcalmS.trans hcalmT.symm⟩

include hagree

theorem twins_loginAndPush (dir : Option Directory) (c : Config) (a : Artifact) :
    Twins (loginAndPush (s.workplace.peers dir) c a) (loginAndPush (t.workplace.peers dir) c a) := by
  simp only [loginAndPush, credentials_agree hagree dir, openSession_agree hagree dir,
    pushArtifact_agree hagree dir]
  by_cases hwants : c.wantsLogin = true
  · rw [if_pos hwants, if_pos hwants]
    refine .behind fun mid => ?_
    match mid with
    | .error e => exact .refl _
    | .ok given =>
      refine .behind fun opened => ?_
      match opened with
      | .error e => exact .refl _
      | .ok () => exact twins_withinSession c.server _
  · rw [if_neg hwants, if_neg hwants]
    exact .refl _

theorem twins_withScratch {α : Type} {first second : Directory → StateM History (Outcome α)}
    (hsteps : ∀ path, Twins (first path) (second path)) :
    Twins (withScratch s.workplace first) (withScratch t.workplace second) := by
  intro h hs ht
  match hmade : s.makeScratch (h ++ [creating]) with
  | .error e =>
    rw [withScratch_of_unmade hmade, withScratch_of_unmade (hagree.makeScratch ▸ hmade)]
    exact ⟨rfl, rfl⟩
  | .ok path =>
    obtain ⟨houtS, hcalmS⟩ := withScratch_calm hmade hs
    obtain ⟨houtT, hcalmT⟩ := withScratch_calm (hagree.makeScratch ▸ hmade) ht
    rw [houtS] at hs
    rw [houtT] at ht
    obtain ⟨hout, hcalm⟩ := hsteps path _ hs ht
    exact ⟨by rw [houtS, houtT, hout], by rw [hcalmS, hcalmT, hcalm]⟩

theorem twins_run (own : Bool) (c : Config) (a : Artifact) :
    Twins (run s.workplace own c a) (run t.workplace own c a) := by
  unfold run
  by_cases himage : (!a.isImage) = true
  · rw [if_pos himage, if_pos himage]
    exact .refl _
  · rw [if_neg himage, if_neg himage]
    cases own with
    | true => exact twins_withScratch hagree fun path => twins_loginAndPush hagree (some path) c a
    | false => exact twins_loginAndPush hagree none c a

end

/-! ### What depends on a release -/

theorem asked_calm (es : History) : asked (calm es) = asked es := by
  unfold asked calm
  rw [List.filterMap_filter]
  refine List.filterMap_congr fun e _ => ?_
  cases e with
  | notice n => cases n <;> rfl
  | _ => rfl

theorem notices_calm (es : History) : notices (calm es) = (notices es).filter fun n => !n.isProblem := by
  unfold notices calm
  rw [List.filterMap_filter, List.filter_filterMap]
  refine List.filterMap_congr fun e _ => ?_
  cases e with
  | notice n => cases n <;> rfl
  | _ => rfl

/-- **No release that fails changes anything but what is reported of it.** Two pushes whose workplaces answer
alike, but for logouts and the removal of scratch directories, ask the engine the same and end alike. -/
theorem release_failures_change_nothing (s t : Script) (hagree : AgreeUntilRelease s t) (own : Bool)
    (c : Config) (a : Artifact) (h : History) (hs : (s.run own c a h).1 ≠ .error .abandoned)
    (ht : (t.run own c a h).1 ≠ .error .abandoned) :
    (s.run own c a h).1 = (t.run own c a h).1 ∧
      ∃ es fs, (s.run own c a h).2 = h ++ es ∧ (t.run own c a h).2 = h ++ fs ∧ asked es = asked fs ∧
        (notices es).filter (fun n => !n.isProblem) = (notices fs).filter (fun n => !n.isProblem) ∧
        calm es = calm fs ∧ ReleasesReported es (s.replies h es) ∧
        ReleasesReported fs (t.replies h fs) := by
  obtain ⟨hout, hcalm⟩ := twins_run hagree own c a h hs ht
  have hrunS : s.run own c a h = ((s.run own c a h).1, (s.run own c a h).2) := rfl
  have hrunT : t.run own c a h = ((t.run own c a h).1, (t.run own c a h).2) := rfl
  obtain ⟨es, hes, hcourseS⟩ := run_course s hrunS hs
  obtain ⟨fs, hfs, hcourseT⟩ := run_course t hrunT ht
  have hevents : calm es = calm fs := by
    have hall : calm (s.run own c a h).2 = calm (t.run own c a h).2 := hcalm
    rw [hes, hfs, calm_append, calm_append] at hall
    exact List.append_cancel_left hall
  refine ⟨hout, es, fs, hes, hfs, ?_, ?_, hevents, hcourseS.releasesReported, hcourseT.releasesReported⟩
  · rw [← asked_calm, hevents, asked_calm]
  · rw [← notices_calm, hevents, notices_calm]

/-- A workplace like `stubborn`, but its engine takes logouts and its scratch directories cannot be removed. -/
def clinging : Script where
  answer h dir
    | .logout _ => .ok ()
    | r => stubborn.answer h dir r
  credentials := stubborn.credentials
  makeScratch := stubborn.makeScratch
  dropScratch _ _ := .error (.other "busy")

/-- A logout that is refused and a directory that stays make no difference to a push whose second tag is
refused. -/
theorem release_failures_keep_refusal :
    AgreeUntilRelease stubborn clinging ∧
      (stubborn.run true { login := true } threeNames []).1 ≠ .error .abandoned ∧
      (clinging.run true { login := true } threeNames []).1 ≠ .error .abandoned ∧
      (stubborn.run true { login := true } threeNames []).1 =
        (clinging.run true { login := true } threeNames []).1 := by
  have hagree : AgreeUntilRelease stubborn clinging := by
    refine ⟨fun h dir r hr => ?_, rfl, rfl⟩
    cases r with
    | logout server => exact absurd rfl (hr server)
    | _ => rfl
  have hs : (stubborn.run true { login := true } threeNames []).1 ≠ .error .abandoned := by
    intro habandoned
    cases habandoned
  have ht : (clinging.run true { login := true } threeNames []).1 ≠ .error .abandoned := by
    intro habandoned
    cases habandoned
  exact ⟨hagree, hs, ht,
    (release_failures_change_nothing stubborn clinging hagree true _ threeNames [] hs ht).1⟩

end Push

end ImagePush
