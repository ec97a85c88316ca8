import ImagePush.Proofs.Push.Divergence
import ImagePush.Proofs.Push.Session

/-!
# Pushes given up

Whoever runs a push may give it up while it waits for an answer of the cloud or of the engine. If a session is
open then, it is closed in the background. Wherever a push is given up, and also if it never is, the session
is closed exactly once if the login succeeded and not at all otherwise; a push that is given up asks for
nothing any more but this (`closed_once_wherever_given_up`).

`Leaves` is for runs that are given up what `Follows` is for the others: it says what stands before the
question that is left without an answer and what stands behind it.
-/

namespace ImagePush

/-- An event at which a push waits for an answer. -/
def Event.isAwaited : Event → Bool
  | .exchange _ | .request _ _ => true
  | _ => false

/-- The server whose session is closed by an event. -/
def Event.closed? : Event → Option String
  | .request _ (.logout server) => some server
  | _ => none

namespace Push

/-- Nobody waits for the answer to the question any more. -/
def Reply.IsLeft : Reply → Prop
  | .exchange _ answer => answer = .error .abandoned
  | .request _ _ answer => answer = .error .abandoned
  | .makeScratch _ | .dropScratch _ _ => False

/-- The servers whose sessions are closed, in order. -/
def closings (es : History) : List String :=
  es.filterMap Event.closed?

/-- An event that closes the session with a server or removes a scratch directory. -/
def IsRelease (server : String) (e : Event) : Prop :=
  (∃ dir, e = .request dir (.logout server)) ∨ ∃ path, e = .dropScratch path

/-- The only session that is closed is that with a server, once, if a login succeeded; otherwise none is. -/
def ClosedOnce (server : String) (log : List Reply) (es : History) : Prop :=
  (LoggedIn log ∧ closings es = [server]) ∨ (¬ LoggedIn log ∧ closings es = [])

/-- The workplace of a push that is given up while it waits for the answer behind a history. -/
def Script.givenUpAt (s : Script) (point : History) : Script :=
  { s with
    answer := fun h dir r => if h = point then .error .abandoned else s.answer h dir r
    credentials := fun h server => if h = point then .error .abandoned else s.credentials h server }

theorem closings_append (es fs : History) : closings (es ++ fs) = closings es ++ closings fs :=
  List.filterMap_append

/-! ### Parts of a push that keep the session as it is -/

/-- A part of a push in which all questions are answered, and which neither opens nor closes a session. -/
structure Neutral (es : History) (log : List Reply) : Prop where
  answered : ∀ reply ∈ log, ¬ reply.IsLeft
  closings_eq : closings es = []
  not_loggedIn : ¬ LoggedIn log

theorem answered_append {l₁ l₂ : List Reply} (h₁ : ∀ reply ∈ l₁, ¬ reply.IsLeft)
    (h₂ : ∀ reply ∈ l₂, ¬ reply.IsLeft) : ∀ reply ∈ l₁ ++ l₂, ¬ reply.IsLeft := by
  intro reply hmem
  rcases List.mem_append.1 hmem with hmem | hmem
  · exact h₁ reply hmem
  · exact h₂ reply hmem

theorem compositional_neutral : Compositional Neutral where
  nil := ⟨by simp, rfl, by simp [LoggedIn]⟩
  append := by
    intro es fs l₁ l₂ h₁ h₂
    refine ⟨answered_append h₁.answered h₂.answered, ?_, ?_⟩
    · rw [closings_append, h₁.closings_eq, h₂.closings_eq, List.append_nil]
    · rw [loggedIn_append]
      exact not_or.2 ⟨h₁.not_loggedIn, h₂.not_loggedIn⟩

section

variable {dir : Option Directory} {c : Config} {a : Artifact} {es : History} {log : List Reply}

theorem neutral_headline : Neutral [headline a] [] :=
  ⟨by simp, rfl, by simp [LoggedIn]⟩

theorem neutral_name (platform name : String) (answer : Outcome Unit) (hanswer : answer ≠ .error .abandoned) :
    Neutral (pushEvents dir platform [name]) [.request dir (.push name platform) answer] :=
  ⟨by simpa [Reply.IsLeft] using hanswer, rfl, by simp [LoggedIn]⟩

theorem NamesCourse.neutral {platform : String} {names : List String} {out : Outcome Unit}
    (hcourse : NamesCourse dir platform names out es log) : Neutral es log :=
  hcourse.compositional compositional_neutral (neutral_name platform)

theorem DigestCourse.neutral {id digest : String} (hcourse : DigestCourse dir id digest es log) :
    Neutral es log := by
  cases hcourse <;> exact ⟨by simp [Reply.IsLeft], rfl, by simp [LoggedIn]⟩

theorem ArtifactCourse.neutral {platform : String} {out : Outcome Pushed}
    (hcourse : ArtifactCourse dir platform a out es log) : Neutral es log :=
  hcourse.compositional compositional_neutral neutral_headline (neutral_name platform) DigestCourse.neutral

theorem CredentialsCourse.neutral {out : Outcome Registry.Credentials}
    (hcourse : CredentialsCourse c out es log) : Neutral es log := by
  have hlogged := hcourse.not_loggedIn
  cases hcourse <;> exact ⟨by simp [Reply.IsLeft], rfl, hlogged⟩

theorem OpeningCourse.answered {given : Registry.Credentials} {out : Outcome Unit}
    (hcourse : OpeningCourse dir c given out es log) :
    (∀ reply ∈ log, ¬ reply.IsLeft) ∧ closings es = [] := by
  cases hcourse <;> exact ⟨by simp [Reply.IsLeft], rfl⟩

theorem ClosingCourse.answered {server : String} (hcourse : ClosingCourse dir server es log) :
    (∀ reply ∈ log, ¬ reply.IsLeft) ∧ closings es = [server] := by
  cases hcourse <;> exact ⟨by simp [Reply.IsLeft], rfl⟩

theorem RemovalCourse.neutral {path : Directory} (hcourse : RemovalCourse path es log) : Neutral es log := by
  cases hcourse <;> exact ⟨by simp [Reply.IsLeft], rfl, by simp [LoggedIn]⟩

/-! ### Pushes that are not given up -/

theorem Neutral.closedOnce (hneutral : Neutral es log) (server : String) : ClosedOnce server log es :=
  .inr ⟨hneutral.not_loggedIn, hneutral.closings_eq⟩

/-- Parts before and behind that keep the session as it is make no difference. -/
theorem ClosedOnce.between {server : String} {es₁ es₂ : History} {log₁ log₂ : List Reply}
    (hclosed : ClosedOnce server log es) (hbefore : Neutral es₁ log₁) (hbehind : Neutral es₂ log₂) :
    ClosedOnce server (log₁ ++ log ++ log₂) (es₁ ++ es ++ es₂) := by
  unfold ClosedOnce
  rw [closings_append, closings_append, hbefore.closings_eq, hbehind.closings_eq, List.nil_append,
    List.append_nil, loggedIn_append, loggedIn_append, or_iff_right hbefore.not_loggedIn,
    or_iff_left hbehind.not_loggedIn]
  exact hclosed

theorem compositional_answered : Compositional fun _ log => ∀ reply ∈ log, ¬ reply.IsLeft where
  nil := by simp
  append := answered_append

theorem SessionCourse.answered {out : Outcome Pushed} (hcourse : SessionCourse dir c a out es log) :
    ∀ reply ∈ log, ¬ reply.IsLeft :=
  hcourse.compositional compositional_answered (fun hgiven => hgiven.neutral.answered)
    (fun hopen => hopen.answered.1) (fun hpush => hpush.neutral.answered) fun hclose => hclose.answered.1

theorem SessionCourse.closedOnce {out : Outcome Pushed} (hcourse : SessionCourse dir c a out es log) :
    ClosedOnce c.server log es := by
  cases hcourse with
  | without hwants hpush => exact hpush.neutral.closedOnce _
  | noCredentials hwants hgiven => exact hgiven.neutral.closedOnce _
  | @notOpened given es₁ es₂ log₁ log₂ e hwants hgiven hopen =>
    have hlogged : ¬ LoggedIn log₂ := by simp [hopen.loggedIn_iff]
    have hopened : Neutral es₂ log₂ := ⟨hopen.answered.1, hopen.answered.2, hlogged⟩
    exact (compositional_neutral.append hgiven.neutral hopened).closedOnce _
  | @within given out es₁ es₂ es₃ es₄ log₁ log₂ log₃ log₄ hwants hgiven hopen hpush hclose =>
    refine .inl ⟨?_, ?_⟩
    · simp only [loggedIn_append, hopen.loggedIn_iff, or_true, true_or]
    · simp only [closings_append, hgiven.neutral.closings_eq, hopen.answered.2, hpush.neutral.closings_eq,
        hclose.answered.2, List.nil_append]

theorem neutral_scratchEvents (made : Except IoError Directory) : Neutral scratchEvents [.makeScratch made] :=
  ⟨by simp [Reply.IsLeft], rfl, by simp [LoggedIn]⟩

theorem Course.answered {own : Bool} {out : Outcome Pushed} (hcourse : Course own c a out es log) :
    ∀ reply ∈ log, ¬ reply.IsLeft := by
  cases hcourse with
  | unknown himage => simp
  | noScratch himage hown => exact (neutral_scratchEvents _).answered
  | shared himage hown hsession => exact hsession.answered
  | @scratch path out es₂ es₃ log₂ log₃ himage hown hsession hremove =>
    have hbefore := answered_append (neutral_scratchEvents (.ok path)).answered hsession.answered
    exact answered_append hbefore hremove.neutral.answered

theorem Course.closedOnce {own : Bool} {out : Outcome Pushed} (hcourse : Course own c a out es log) :
    ClosedOnce c.server log es := by
  cases hcourse with
  | unknown himage => exact compositional_neutral.nil.closedOnce _
  | @noScratch e himage hown => exact (neutral_scratchEvents (.error e)).closedOnce _
  | shared himage hown hsession => exact hsession.closedOnce
  | @scratch path out es₂ es₃ log₂ log₃ himage hown hsession hremove =>
    exact hsession.closedOnce.between (neutral_scratchEvents (.ok path)) hremove.neutral

end

/-! ### The question that is left -/

/-- A question behind these events is the first one for whose answer nobody waits. -/
structure FirstLeft (s : Script) (h before : History) (e : Event) : Prop where
  answered : ∀ reply ∈ s.replies h before, ¬ reply.IsLeft
  left : ∃ reply, s.reply? (h ++ before) e = some reply ∧ reply.IsLeft

namespace FirstLeft

variable {s : Script} {h before : History} {e : Event}

theorem behind {es : History} (hes : ∀ reply ∈ s.replies h es, ¬ reply.IsLeft)
    (hfirst : FirstLeft s (h ++ es) before e) : FirstLeft s h (es ++ before) e where
  answered := by
    rw [Script.replies_append]
    exact answered_append hes hfirst.answered
  left := by
    rw [← List.append_assoc]
    exact hfirst.left

theorem tail {x : Event} (hfirst : FirstLeft s h (x :: before) e) : FirstLeft s (h ++ [x]) before e where
  answered := fun reply hmem => hfirst.answered reply (List.mem_append_right _ hmem)
  left := by
    rw [List.append_assoc]
    exact hfirst.left

/-- The first event of a run cannot be left and answered. -/
theorem not_cons {x : Event} (hfirst : FirstLeft s h (x :: before) e)
    (hleft : ∃ reply, s.reply? h x = some reply ∧ reply.IsLeft) : False := by
  obtain ⟨reply, hreply, hisLeft⟩ := hleft
  have hmem : reply ∈ s.replies h (x :: before) := by simp [Script.replies, hreply]
  exact hfirst.answered reply hmem hisLeft

theorem mem_replies (hfirst : FirstLeft s h before e) (after : History) :
    ∃ reply ∈ s.replies h (before ++ e :: after), reply.IsLeft := by
  obtain ⟨reply, hreply, hisLeft⟩ := hfirst.left
  refine ⟨reply, ?_, hisLeft⟩
  rw [Script.replies_append]
  exact List.mem_append_right _ (by simp [Script.replies, hreply])

/-- There is one such question only among the events of a run. -/
theorem unique {before' after after' : History} {e' : Event} (hfirst : FirstLeft s h before e)
    (hfirst' : FirstLeft s h before' e') (hsame : before ++ e :: after = before' ++ e' :: after') :
    before = before' ∧ e = e' ∧ after = after' := by
  induction before generalizing h before' with
  | nil =>
    cases before' with
    | nil =>
      obtain ⟨rfl, rfl⟩ := List.cons.inj hsame
      exact ⟨rfl, rfl, rfl⟩
    | cons x before' =>
      obtain ⟨rfl, -⟩ := List.cons.inj hsame
      have hleft := hfirst.left
      rw [List.append_nil] at hleft
      exact absurd hleft hfirst'.not_cons
  | cons x before ih =>
    cases before' with
    | nil =>
      obtain ⟨rfl, -⟩ := List.cons.inj hsame
      have hleft := hfirst'.left
      rw [List.append_nil] at hleft
      exact absurd hleft hfirst.not_cons
    | cons y before' =>
      obtain ⟨rfl, htail⟩ := List.cons.inj hsame
      obtain ⟨rfl, rfl, rfl⟩ := ih hfirst.tail hfirst'.tail htail
      exact ⟨rfl, rfl, rfl⟩

end FirstLeft

/-! ### Steps that are given up -/

/-- In each run of a step that is given up, the events before the question that is left, the answers to them,
the question and the events behind it are related. -/
def Leaves {α : Type} (s : Script) (step : StateM History (Outcome α))
    (left : History → List Reply → Event → History → Prop) : Prop :=
  ∀ h h', step h = (.error .abandoned, h') → ∃ before e after, h' = h ++ before ++ e :: after ∧
    FirstLeft s h before e ∧ left before (s.replies h before) e after

namespace Leaves

variable {s : Script} {dir : Option Directory} {α β : Type}
  {left : History → List Reply → Event → History → Prop}

theorem never {step : StateM History (Outcome α)} (hdone : ∀ h, (step h).1 ≠ .error .abandoned) :
    Leaves s step left := by
  intro h h' hrun
  exact absurd (congrArg Prod.fst hrun) (hdone h)

theorem ok (x : α) : Leaves s (pure (.ok x)) left :=
  never fun _ hgiven => by cases hgiven

theorem failed (e : PushError) : Leaves s (pure (.error (.failed e) : Outcome α)) left :=
  never fun _ hgiven => by cases hgiven

theorem mono {step : StateM History (Outcome α)} {stronger : History → List Reply → Event → History → Prop}
    (hstep : Leaves s step stronger)
    (himp : ∀ before log e after, stronger before log e after → left before log e after) :
    Leaves s step left := by
  intro h h' hrun
  obtain ⟨before, e, after, hes, hfirst, hleft⟩ := hstep h h' hrun
  exact ⟨before, e, after, hes, hfirst, himp _ _ _ _ hleft⟩

/-- A step behind events that are known, all questions among which are answered. -/
theorem behind {step rest : StateM History (Outcome α)} {h : History} (es : History)
    (hrun : step h = rest (h ++ es)) (hes : ∀ reply ∈ s.replies h es, ¬ reply.IsLeft)
    (hrest : Leaves s rest fun before log e after => left (es ++ before) (s.replies h es ++ log) e after) :
    ∀ h', step h = (.error .abandoned, h') → ∃ before e after, h' = h ++ before ++ e :: after ∧
      FirstLeft s h before e ∧ left before (s.replies h before) e after := by
  intro h' hstep
  obtain ⟨before, e, after, rfl, hfirst, hleft⟩ := hrest (h ++ es) h' (hrun.symm.trans hstep)
  refine ⟨es ++ before, e, after, by simp, hfirst.behind hes, ?_⟩
  rw [Script.replies_append]
  exact hleft

theorem notify {n : Notice} {step : StateM History (Outcome α)}
    (hstep : Leaves s step fun before log e after => left (.notice n :: before) log e after) :
    Leaves s (do (s.workplace.peers dir).notify n; step) left :=
  fun _ => behind [.notice n] rfl (by simp) hstep

theorem workplace_notify {n : Notice} {step : StateM History (Outcome α)}
    (hstep : Leaves s step fun before log e after => left (.notice n :: before) log e after) :
    Leaves s (do s.workplace.notify n; step) left :=
  fun _ => behind [.notice n] rfl (by simp) hstep

theorem makeScratch {rest : Except IoError Directory → StateM History (Outcome α)}
    (hrest : ∀ answer, Leaves s (rest answer) fun before log e after =>
      left (.makeScratch :: before) (.makeScratch answer :: log) e after) :
    Leaves s (do rest (← s.workplace.makeScratch)) left :=
  fun _ => behind [.makeScratch] rfl (by simp [Reply.IsLeft]) (hrest _)

/-- A question to the engine, which may be the one that is left. -/
theorem ask {r : Request} {rest : Outcome r.Result → StateM History (Outcome α)}
    (hleft : left [] [] (.request dir r) [])
    (hgiven : ∀ h, rest (.error .abandoned) h = (.error .abandoned, h))
    (hok : ∀ result, Leaves s (rest (.ok result)) fun before log e after =>
      left (.request dir r :: before) (.request dir r (.ok result) :: log) e after)
    (hfailed : ∀ f, Leaves s (rest (.error (.failed f))) fun before log e after =>
      left (.request dir r :: before) (.request dir r (.error (.failed f)) :: log) e after) :
    Leaves s (do rest (← (s.workplace.peers dir).ask r)) left := by
  intro h
  by_cases hanswer : s.answer h dir r = .error .abandoned
  · intro h' hrun
    have hrun' : rest (s.answer h dir r) (h ++ [.request dir r]) = (.error .abandoned, h') := hrun
    rw [hanswer, hgiven] at hrun'
    obtain rfl := (Prod.mk.inj hrun').2
    refine ⟨[], .request dir r, [], by simp, ⟨by simp, ?_⟩, hleft⟩
    rw [List.append_nil]
    exact ⟨_, rfl, hanswer⟩
  · refine behind [.request dir r] rfl (by simpa [Reply.IsLeft] using hanswer) ?_
    change Leaves s (rest (s.answer h dir r)) fun before log e after =>
      left (.request dir r :: before) (.request dir r (s.answer h dir r) :: log) e after
    match s.answer h dir r, hanswer with
    | .ok result, _ => exact hok result
    | .error (.failed f), _ => exact hfailed f
    | .error .abandoned, hanswer => exact absurd rfl hanswer

/-- A question to the cloud, which may be the one that is left. -/
theorem exchange {server : String} (hleft : left [] [] (.exchange server) []) :
    Leaves s ((s.workplace.peers dir).exchange server) left := by
  intro h h' hrun
  obtain ⟨hanswer, rfl⟩ := Prod.mk.inj hrun
  refine ⟨[], .exchange server, [], by simp, ⟨by simp, ?_⟩, hleft⟩
  rw [List.append_nil]
  exact ⟨_, rfl, hanswer⟩

/-- A step, and what comes after it; that only adds the events of `tail` if the step is given up. -/
theorem bind_releasing {first : StateM History (Outcome β)} {rest : Outcome β → StateM History (Outcome α)}
    {firstCourse : Outcome β → History → List Reply → Prop} (tail : History)
    (hfollows : Follows s first firstCourse)
    (hanswered : ∀ mid es log, firstCourse mid es log → ∀ reply ∈ log, ¬ reply.IsLeft)
    (hfirst : Leaves s first fun before log e after => left before log e (after ++ tail))
    (hgiven : ∀ h, rest (.error .abandoned) h = (.error .abandoned, h ++ tail))
    (hok : ∀ x es log, firstCourse (.ok x) es log →
      Leaves s (rest (.ok x)) fun before log' e after => left (es ++ before) (log ++ log') e after)
    (hfailed : ∀ f es log, firstCourse (.error (.failed f)) es log →
      Leaves s (rest (.error (.failed f))) fun before log' e after =>
        left (es ++ before) (log ++ log') e after) :
    Leaves s (do rest (← first)) left := by
  intro h
  rcases hmid : first h with ⟨mid, hist⟩
  have hbind : (do rest (← first)) h = rest mid hist := bind_of_eq hmid
  match mid with
  | .error .abandoned =>
    intro h' hrun
    rw [hbind, hgiven] at hrun
    obtain rfl := (Prod.mk.inj hrun).2
    obtain ⟨before, e, after, rfl, hleft⟩ := hfirst h hist hmid
    exact ⟨before, e, after ++ tail, by simp, hleft⟩
  | .ok x =>
    obtain ⟨es, rfl, hcourse⟩ := hfollows _ _ _ hmid (by simp)
    exact behind es hbind (hanswered _ _ _ hcourse) (hok x es _ hcourse)
  | .error (.failed f) =>
    obtain ⟨es, rfl, hcourse⟩ := hfollows _ _ _ hmid (by simp)
    exact behind es hbind (hanswered _ _ _ hcourse) (hfailed f es _ hcourse)

/-- A step, and what comes after it; that is given up where the step is. -/
theorem bind {first : StateM History (Outcome β)} {rest : Outcome β → StateM History (Outcome α)}
    {firstCourse : Outcome β → History → List Reply → Prop} (hfollows : Follows s first firstCourse)
    (hanswered : ∀ mid es log, firstCourse mid es log → ∀ reply ∈ log, ¬ reply.IsLeft)
    (hfirst : Leaves s first left)
    (hgiven : ∀ h, rest (.error .abandoned) h = (.error .abandoned, h))
    (hok : ∀ x es log, firstCourse (.ok x) es log →
      Leaves s (rest (.ok x)) fun before log' e after => left (es ++ before) (log ++ log') e after)
    (hfailed : ∀ f es log, firstCourse (.error (.failed f)) es log →
      Leaves s (rest (.error (.failed f))) fun before log' e after =>
        left (es ++ before) (log ++ log') e after) :
    Leaves s (do rest (← first)) left := by
  refine bind_releasing [] hfollows hanswered ?_ ?_ hok hfailed
  · simpa only [List.append_nil] using hfirst
  · simpa only [List.append_nil] using hgiven

end Leaves

/-! ### What a push that is given up leaves -/

/-- A part of a push that is given up: no login succeeded in it, these sessions are closed in it, and the
question that is left is followed by releases only. -/
structure LeftWith (server : String) (closed : List String) (before : History) (log : List Reply) (e : Event)
    (after : History) : Prop where
  not_loggedIn : ¬ LoggedIn log
  closings_eq : closings (before ++ e :: after) = closed
  releases : ∀ f ∈ after, IsRelease server f

/-- A push that is given up: its session is closed once if it was opened, and the question that is left is
followed by releases only. -/
structure LeftClosed (server : String) (before : History) (log : List Reply) (e : Event)
    (after : History) : Prop where
  closed_once : ClosedOnce server log (before ++ e :: after)
  releases : ∀ f ∈ after, IsRelease server f

section

variable {server : String} {closed : List String} {before after es : History} {log l : List Reply} {e : Event}

theorem LeftWith.behind (hneutral : Neutral es l) (hleft : LeftWith server closed before log e after) :
    LeftWith server closed (es ++ before) (l ++ log) e after where
  not_loggedIn := by
    rw [loggedIn_append]
    exact not_or.2 ⟨hneutral.not_loggedIn, hleft.not_loggedIn⟩
  closings_eq := by
    rw [List.append_assoc, closings_append, hneutral.closings_eq, List.nil_append, hleft.closings_eq]
  releases := hleft.releases

theorem LeftWith.append_logout (hleft : LeftWith server [] before log e after) (dir : Option Directory) :
    LeftWith server [server] before log e (after ++ [.request dir (.logout server)]) where
  not_loggedIn := hleft.not_loggedIn
  closings_eq := by
    rw [← List.cons_append, ← List.append_assoc, closings_append, hleft.closings_eq]
    rfl
  releases := by
    intro f hmem
    rcases List.mem_append.1 hmem with hmem | hmem
    · exact hleft.releases f hmem
    · exact .inl ⟨dir, List.mem_singleton.1 hmem⟩

theorem LeftWith.leftClosed (hleft : LeftWith server [] before log e after) :
    LeftClosed server before log e after :=
  ⟨.inr ⟨hleft.not_loggedIn, hleft.closings_eq⟩, hleft.releases⟩

/-- Behind a login that succeeded, the session is closed once. -/
theorem LeftWith.behind_login (hleft : LeftWith server [server] before log e after) (hlogged : LoggedIn l)
    (hes : closings es = []) : LeftClosed server (es ++ before) (l ++ log) e after where
  closed_once := by
    refine .inl ⟨loggedIn_append.2 (.inl hlogged), ?_⟩
    rw [List.append_assoc, closings_append, hes, List.nil_append, hleft.closings_eq]
  releases := hleft.releases

theorem LeftClosed.behind (hneutral : Neutral es l) (hleft : LeftClosed server before log e after) :
    LeftClosed server (es ++ before) (l ++ log) e after where
  closed_once := by
    have hclosed := hleft.closed_once.between hneutral compositional_neutral.nil
    simpa only [List.append_nil, List.append_assoc] using hclosed
  releases := hleft.releases

theorem LeftClosed.append_dropScratch (hleft : LeftClosed server before log e after) (path : Directory) :
    LeftClosed server before log e (after ++ [.dropScratch path]) where
  closed_once := by
    have hdropped : Neutral [.dropScratch path] [] := ⟨by simp, rfl, by simp [LoggedIn]⟩
    have hclosed := hleft.closed_once.between compositional_neutral.nil hdropped
    simpa only [List.nil_append, List.append_nil, List.append_assoc, List.cons_append] using hclosed
  releases := by
    intro f hmem
    rcases List.mem_append.1 hmem with hmem | hmem
    · exact hleft.releases f hmem
    · exact .inr ⟨path, List.mem_singleton.1 hmem⟩

end

section

variable (s : Script) (dir : Option Directory) (server : String)

theorem pushNames_leaves (platform : String) (names : List String) :
    Leaves s (pushNames (s.workplace.peers dir) platform names) (LeftWith server []) := by
  induction names with
  | nil => exact .ok ()
  | cons name rest ih =>
    have hone : Neutral [pushing name, .request dir (.push name platform)]
        [.request dir (.push name platform) (.ok ())] := neutral_name platform name (.ok ()) (by simp)
    exact .notify (.ask ⟨by simp [LoggedIn], rfl, by simp⟩ (fun _ => rfl)
      (fun _ => ih.mono fun _ _ _ _ hleft => hleft.behind hone) fun f => .failed f)

theorem lookUpDigest_leaves (id : String) :
    Leaves s (lookUpDigest (s.workplace.peers dir) id) (LeftWith server []) :=
  .ask ⟨by simp [LoggedIn], rfl, by simp⟩ (fun _ => rfl) (fun digest => .ok digest)
    fun _ => .notify (.ok "")

theorem pushArtifact_leaves (platform : String) (a : Artifact) :
    Leaves s (pushArtifact (s.workplace.peers dir) platform a) (LeftWith server []) := by
  refine .notify (.bind (pushNames_follows s dir platform (namesOf a))
    (fun _ _ _ hcourse => hcourse.neutral.answered) ?_ (fun _ => rfl) ?_ fun f _ _ _ => .failed f)
  · exact (pushNames_leaves s dir server platform (namesOf a)).mono fun _ _ _ _ hleft =>
      hleft.behind neutral_headline
  · intro _ es log hcourse
    refine .bind (lookUpDigest_follows s dir a.id) ?_ ?_ (fun _ => rfl) (fun digest _ _ _ => .ok _)
      fun f _ _ _ => .failed f
    · rintro _ _ _ ⟨digest, -, hdigest⟩
      exact hdigest.neutral.answered
    · exact (lookUpDigest_leaves s dir server a.id).mono fun _ _ _ _ hleft =>
        hleft.behind (compositional_neutral.append neutral_headline hcourse.neutral)

theorem closeSession_leaves :
    Leaves s (closeSession (s.workplace.peers dir) server) (LeftWith server [server]) :=
  .notify (.ask ⟨by simp [LoggedIn], rfl, by simp⟩ (fun _ => rfl) (fun _ => .ok ())
    fun _ => .notify (.ok ()))

theorem credentials_leaves (c : Config) :
    Leaves s (credentials (s.workplace.peers dir) c) (LeftWith server []) := by
  unfold credentials
  by_cases hcloud : c.cloudLogin = true
  · rw [if_pos hcloud]
    exact .notify (.exchange ⟨by simp [LoggedIn], rfl, by simp⟩)
  · rw [if_neg hcloud]
    exact .ok _

theorem openSession_leaves (host : String) (given : Registry.Credentials) :
    Leaves s (openSession (s.workplace.peers dir) host given) (LeftWith server []) :=
  .notify (.ask ⟨by simp [LoggedIn], rfl, by simp⟩ (fun _ => rfl) (fun _ => .ok ()) fun f => .failed _)

variable {s} (hlive : s.background = true)

include hlive

/-- A session that is left open is closed in the background. -/
theorem withinSession_leaves {α : Type} {step : StateM History (Outcome α)}
    {course : Outcome α → History → List Reply → Prop} (hfollows : Follows s step course)
    (hneutral : ∀ out es log, course out es log → Neutral es log) (hstep : Leaves s step (LeftWith server [])) :
    Leaves s (withinSession (s.workplace.peers dir) server step) (LeftWith server [server]) := by
  have hanswered : ∀ out es log, course out es log → ∀ reply ∈ log, ¬ reply.IsLeft :=
    fun out es log hcourse => (hneutral out es log hcourse).answered
  have hclose : ∀ out es log, course out es log →
      Leaves s (closeSession (s.workplace.peers dir) server) fun before log' e after =>
        LeftWith server [server] (es ++ before) (log ++ log') e after :=
    fun out es log hcourse => (closeSession_leaves s dir server).mono fun _ _ _ _ hleft =>
      hleft.behind (hneutral out es log hcourse)
  have hclosed : ∀ (out : Outcome Unit) es log, out = .ok () ∧ ClosingCourse dir server es log →
      ∀ reply ∈ log, ¬ reply.IsLeft := fun _ _ _ hclosing => hclosing.2.answered.1
  refine .bind_releasing [.request dir (.logout server)] hfollows hanswered
    (hstep.mono fun _ _ _ _ hleft => hleft.append_logout dir) (fun h => ?_) ?_ ?_
  · change (do (if s.background then _ else _); _ : StateM History (Outcome α)) h = _
    rw [hlive]
    rfl
  · intro x es log hcourse
    exact .bind (closeSession_follows s dir server) hclosed (hclose _ _ _ hcourse) (fun _ => rfl)
      (fun _ _ _ _ => .ok x) fun f _ _ _ => .failed f
  · intro f es log hcourse
    exact .bind (closeSession_follows s dir server) hclosed (hclose _ _ _ hcourse) (fun _ => rfl)
      (fun _ _ _ _ => .failed f) fun g _ _ _ => .failed g

theorem loginAndPush_leaves (c : Config) (a : Artifact) :
    Leaves s (loginAndPush (s.workplace.peers dir) c a) (LeftClosed c.server) := by
  unfold loginAndPush
  by_cases hwants : c.wantsLogin = true
  · rw [if_pos hwants]
    refine .bind (credentials_follows s dir c) (fun _ _ _ hgiven => hgiven.neutral.answered)
      ((credentials_leaves s dir c.server c).mono fun _ _ _ _ hleft => hleft.leftClosed) (fun _ => rfl) ?_
      fun f _ _ _ => .failed f
    intro given es₁ log₁ hgiven
    refine .bind (openSession_follows s dir c given) (fun _ _ _ hopen => hopen.answered.1)
      ((openSession_leaves s dir c.server c.server given).mono fun _ _ _ _ hleft =>
        (hleft.behind hgiven.neutral).leftClosed) (fun _ => rfl) ?_ fun f _ _ _ => .failed f
    intro _ es₂ log₂ hopen
    have hwork := withinSession_leaves dir c.server hlive (pushArtifact_follows s dir c.platform a)
      (fun _ _ _ hpush => hpush.neutral) (pushArtifact_leaves s dir c.server c.platform a)
    refine hwork.mono fun _ _ _ _ hleft => ?_
    exact (hleft.behind_login (hopen.loggedIn_iff.2 rfl) hopen.answered.2).behind hgiven.neutral
  · rw [if_neg hwants]
    exact (pushArtifact_leaves s dir c.server c.platform a).mono fun _ _ _ _ hleft => hleft.leftClosed

omit hlive in
theorem withScratch_leaves {α : Type} {step : Directory → StateM History (Outcome α)}
    {course : Directory → Outcome α → History → List Reply → Prop}
    (hfollows : ∀ path, Follows s (step path) (course path))
    (hanswered : ∀ path out es log, course path out es log → ∀ reply ∈ log, ¬ reply.IsLeft)
    (hstep : ∀ path, Leaves s (step path) (LeftClosed server)) :
    Leaves s (withScratch s.workplace step) (LeftClosed server) := by
  refine .workplace_notify (.makeScratch fun made => ?_)
  match made with
  | .error e => exact .failed _
  | .ok path =>
    refine .bind_releasing [.dropScratch path] (hfollows path) (hanswered path) ?_ (fun _ => rfl)
      (fun _ _ _ _ => .never fun _ hgiven => by cases hgiven)
      fun _ _ _ _ => .never fun _ hgiven => by cases hgiven
    exact (hstep path).mono fun _ _ _ _ hleft =>
      (hleft.append_dropScratch path).behind (neutral_scratchEvents (.ok path))

theorem run_leaves (own : Bool) (c : Config) (a : Artifact) :
    Leaves s (run s.workplace own c a) (LeftClosed c.server) := by
  unfold run
  by_cases hunknown : (!a.isImage) = true
  · rw [if_pos hunknown]
    exact .failed _
  · rw [if_neg hunknown]
    cases own with
    | true =>
      exact withScratch_leaves c.server (fun path => loginAndPush_follows s (some path) c a)
        (fun _ _ _ _ hcourse => hcourse.answered) fun path => loginAndPush_leaves (some path) hlive c a
    | false => exact loginAndPush_leaves none hlive c a

end

/-! ### Giving up at any point -/

section

variable (s : Script) {h before : History} {e : Event}

/-- A workplace whose push is given up behind a history answers as before everywhere else. -/
theorem reply_givenUpAt {point hist : History} (hne : hist ≠ point) (e : Event) :
    (s.givenUpAt point).reply? hist e = s.reply? hist e := by
  cases e <;> simp [Script.reply?, Script.givenUpAt, hne]

theorem replies_givenUpAt (h before : History) :
    (s.givenUpAt (h ++ before)).replies h before = s.replies h before := by
  induction before generalizing h with
  | nil => rfl
  | cons x before ih =>
    have hne : h ≠ h ++ x :: before := by simp
    have hrest : (s.givenUpAt (h ++ x :: before)).replies (h ++ [x]) before =
        s.replies (h ++ [x]) before := by
      have hih := ih (h ++ [x])
      rwa [List.append_assoc] at hih
    unfold Script.replies
    rw [reply_givenUpAt s hne, hrest]

/-- An awaited question behind which a push is given up is the first one that is left, if all questions before
it are answered. -/
theorem firstLeft_givenUpAt (hawaited : e.isAwaited = true)
    (hanswered : ∀ reply ∈ s.replies h before, ¬ reply.IsLeft) :
    FirstLeft (s.givenUpAt (h ++ before)) h before e where
  answered := by
    rw [replies_givenUpAt]
    exact hanswered
  left := by
    cases e with
    | exchange server => exact ⟨_, rfl, if_pos rfl⟩
    | request dir r => exact ⟨_, rfl, if_pos rfl⟩
    | _ => exact absurd hawaited (by simp [Event.isAwaited])

/-- A push that is given up behind a point goes the same way until there. -/
theorem run_givenUpAt {own : Bool} {c : Config} {a : Artifact} {after : History}
    (hrun : (s.run own c a h).2 = h ++ (before ++ e :: after)) :
    ∃ rest, ((s.givenUpAt (h ++ before)).run own c a h).2 = h ++ (before ++ e :: rest) := by
  have hparallel := run_parallel (s := s) (t := s.givenUpAt (h ++ before)) rfl own c a
  rcases hparallel.parts h with hsame | ⟨before', e', es, fs, hs, ht, hne⟩
  · exact ⟨after, (congrArg Prod.snd hsame).symm.trans hrun⟩
  · have hpoint : h ++ before' = h ++ before := by
      by_contra hother
      exact hne (reply_givenUpAt s hother e').symm
    obtain rfl := List.append_cancel_left hpoint
    have hevents : h ++ (before' ++ e :: after) = h ++ before' ++ e' :: es := hrun.symm.trans hs
    rw [← List.append_assoc] at hevents
    obtain ⟨rfl, -⟩ := List.cons.inj (List.append_cancel_left hevents)
    exact ⟨fs, ht.trans (List.append_assoc _ _ _)⟩

/-- **A session is closed exactly once, wherever its push is given up.** In a push that is not given up, the
session is closed once if it was opened. At whatever question `e` a push is given up, it ends there; from then
on only releases take place, and the session is closed once, before or behind, if the login succeeded before. -/
theorem closed_once_wherever_given_up (hlive : s.background = true) (own : Bool) (c : Config) (a : Artifact)
    (h : History) :
    ∃ es, (s.run own c a h).2 = h ++ es ∧
      ((s.run own c a h).1 ≠ .error .abandoned → ClosedOnce c.server (s.replies h es) es) ∧
      ∀ before e after, es = before ++ e :: after → e.isAwaited = true →
        (∀ reply ∈ s.replies h before, ¬ reply.IsLeft) →
        ∃ rest, (s.givenUpAt (h ++ before)).run own c a h =
            (.error .abandoned, h ++ before ++ e :: rest) ∧
          LeftClosed c.server before (s.replies h before) e rest := by
  obtain ⟨es, hes⟩ := (run_parallel (s := s) (t := s) rfl own c a).first_grows h
  refine ⟨es, hes, fun hdone => ?_, ?_⟩
  · obtain ⟨es', hes', hcourse⟩ := run_course s rfl hdone
    obtain rfl := List.append_cancel_left (hes.symm.trans hes')
    exact hcourse.closedOnce
  · rintro before e after rfl hawaited hanswered
    -- The push that is given up goes the same way up to `e`, its first question without an answer; since that
    -- question is the only one of its kind, what `run_leaves` says is about `e`.
    obtain ⟨rest, hrest⟩ := run_givenUpAt s hes
    have hfirst := firstLeft_givenUpAt s hawaited hanswered
    have hleft : ((s.givenUpAt (h ++ before)).run own c a h).1 = .error .abandoned := by
      by_contra hdone
      obtain ⟨es', hes', hcourse⟩ := run_course _ rfl hdone
      obtain rfl := List.append_cancel_left (hrest.symm.trans hes')
      obtain ⟨reply, hmem, hisLeft⟩ := hfirst.mem_replies rest
      exact hcourse.answered reply hmem hisLeft
    have hrun : (s.givenUpAt (h ++ before)).run own c a h = (.error .abandoned, h ++ (before ++ e :: rest)) :=
      Prod.ext hleft hrest
    obtain ⟨before', e', after', hevents, hfirst', hclosed⟩ :=
      run_leaves (s := s.givenUpAt (h ++ before)) hlive own c a h _ hrun
    rw [List.append_assoc] at hevents
    obtain ⟨rfl, rfl, rfl⟩ := hfirst.unique hfirst' (List.append_cancel_left hevents)
    rw [replies_givenUpAt] at hclosed
    exact ⟨rest, by rw [hrun, List.append_assoc], hclosed⟩

/-- The events of a push until the id of the image is pushed. -/
def untilFirstName : History :=
  [.notice (.message "Logging in..."), .request none (.login "registry" "" ""), headline threeNames,
    pushing "app"]

/-- A push that is given up while the id of the image is pushed still closes its session. -/
theorem closed_once_given_up_at_first_name :
    stubborn.background = true ∧
      ∃ rest, (stubborn.givenUpAt untilFirstName).run false { login := true, server := "registry" }
          threeNames [] =
            (.error .abandoned, untilFirstName ++ .request none (.push "app" "") :: rest) ∧
        LeftClosed "registry" untilFirstName (stubborn.replies [] untilFirstName)
          (.request none (.push "app" "")) rest := by
  refine ⟨rfl, ?_⟩
  obtain ⟨es, hes, -, hany⟩ := closed_once_wherever_given_up stubborn rfl false
    { login := true, server := "registry" } threeNames []
  refine hany untilFirstName (.request none (.push "app" "")) (es.drop 5) ?_ rfl ?_
  · obtain rfl : _ = es := hes
    rfl
  · intro reply hmem
    obtain rfl : reply = .request none (.login "registry" "" "") (.ok ()) := List.mem_singleton.1 hmem
    simp [Reply.IsLeft]

end

end Push

end ImagePush
