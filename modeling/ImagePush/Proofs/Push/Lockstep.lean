import ImagePush.Push.Workflow

/-!
# Pushes in lockstep

Two pushes at two workplaces, each with states of its own. If the workplaces do the same at every step, as far
as a relation between their states tells, then the pushes end alike, in related states (`run_lockstep`). The
credentials of the two pushes need not be equal, only related; they are handed to the engine at the login and
nowhere else. Nor need their directories and errors be equal: the directories are handed to the engine, and the
errors are reported. No question is left without an answer.
-/

namespace ImagePush.Push

/-- Two outcomes of steps that were not given up: both failed with related errors, or the results are related. -/
inductive Settled {α β : Type} (E : PushError → PushError → Prop) (Q : α → β → Prop) :
    Outcome α → Outcome β → Prop where
  | ok {a : α} {b : β} (hab : Q a b) : Settled E Q (.ok a) (.ok b)
  | failed {e f : PushError} (hef : E e f) : Settled E Q (.error (.failed e)) (.error (.failed f))

theorem Settled.eq {α : Type} {first second : Outcome α} (hsettled : Settled Eq Eq first second) :
    first = second := by
  cases hsettled with
  | ok hab => rw [hab]
  | failed hef => rw [hef]

theorem Settled.mono {α β : Type} {E : PushError → PushError → Prop} {Q Q' : α → β → Prop}
    (hsub : ∀ a b, Q a b → Q' a b) {first : Outcome α} {second : Outcome β}
    (hsettled : Settled E Q first second) : Settled E Q' first second := by
  cases hsettled with
  | ok hab => exact .ok (hsub _ _ hab)
  | failed hef => exact .failed hef

theorem Settled.done {α β : Type} {E : PushError → PushError → Prop} {Q : α → β → Prop} {first : Outcome α}
    {second : Outcome β} (hsettled : Settled E Q first second) : second ≠ .error .abandoned := by
  cases hsettled <;> simp

/-- Two steps that, from related states, come to related results in related states. -/
def Lockstep {σ τ α β : Type} (R : σ → τ → Prop) (Q : α → β → Prop) (first : StateM σ α)
    (second : StateM τ β) : Prop :=
  ∀ h k, R h k → Q (first h).1 (second k).1 ∧ R (first h).2 (second k).2

namespace Lockstep

variable {σ τ α β γ δ : Type} {R : σ → τ → Prop} {P : γ → δ → Prop} {Q : α → β → Prop}

theorem pure {a : α} {b : β} (hab : Q a b) : Lockstep R Q (pure a) (pure b) :=
  fun _ _ hstates => ⟨hab, hstates⟩

theorem bind {first : StateM σ γ} {second : StateM τ δ} {rest : γ → StateM σ α} {rest' : δ → StateM τ β}
    (hfirst : Lockstep R P first second) (hrest : ∀ c d, P c d → Lockstep R Q (rest c) (rest' d)) :
    Lockstep R Q (do rest (← first)) (do rest' (← second)) := by
  intro h k hstates
  obtain ⟨hmid, hstates'⟩ := hfirst h k hstates
  exact hrest _ _ hmid _ _ hstates'

/-- Steps behind two that give the same. -/
theorem same {first : StateM σ γ} {second : StateM τ γ} {rest : γ → StateM σ α} {rest' : γ → StateM τ β}
    (hfirst : Lockstep R Eq first second) (hrest : ∀ c, Lockstep R Q (rest c) (rest' c)) :
    Lockstep R Q (do rest (← first)) (do rest' (← second)) := by
  refine hfirst.bind ?_
  rintro c _ rfl
  exact hrest c

theorem mono {Q' : α → β → Prop} (hsub : ∀ a b, Q a b → Q' a b) {first : StateM σ α} {second : StateM τ β}
    (hstep : Lockstep R Q first second) : Lockstep R Q' first second :=
  fun h k hstates => ⟨hsub _ _ (hstep h k hstates).1, (hstep h k hstates).2⟩

end Lockstep

/-- A relation between errors that does not tell apart the same error, nor failed logins with related causes. -/
structure Tolerates (E : PushError → PushError → Prop) : Prop where
  same : ∀ e, E e e
  login : ∀ {e f}, E e f → E (.login e) (.login f)

theorem tolerates_eq : Tolerates Eq where
  same _ := rfl
  login hef := congrArg PushError.login hef

/-- Two directories that were made are related, or making them failed alike. -/
inductive Made (D : Option Directory → Option Directory → Prop) : Except IoError Directory → Except IoError Directory → Prop where
  | ok {dir dir' : Directory} (hdir : D (some dir) (some dir')) : Made D (.ok dir) (.ok dir')
  | error (e : IoError) : Made D (.error e) (.error e)

theorem made_eq (made : Except IoError Directory) : Made Eq made made := by
  cases made with
  | ok dir => exact .ok rfl
  | error e => exact .error e

/-- Two workplaces that do the same at every step, as far as the states tell. Their clouds give related
credentials, and a login does not tell related credentials apart. Related directories are not told apart, and of
related errors it is not told which is reported. -/
structure Alike {σ τ : Type} (R : σ → τ → Prop) (D : Option Directory → Option Directory → Prop)
    (E : PushError → PushError → Prop) (Q : Registry.Credentials → Registry.Credentials → Prop)
    (w : Workplace (StateM σ)) (v : Workplace (StateM τ)) : Prop where
  errors : Tolerates E
  usual : D none none
  notify : ∀ n, Lockstep R Eq (w.notify n) (v.notify n)
  problem : ∀ text {e f}, E e f →
    Lockstep R Eq (w.notify (.problem (text ++ e.message))) (v.notify (.problem (text ++ f.message)))
  exchange : ∀ server, Lockstep R (Settled E Q) (w.exchange server) (v.exchange server)
  ask : ∀ {dir dir'} r, D dir dir' → (∀ server username password, r ≠ .login server username password) →
    Lockstep R (Settled E Eq) (w.ask dir r) (v.ask dir' r)
  login : ∀ {dir dir'} server {given given'}, D dir dir' → Q given given' →
    Lockstep R (Settled E Eq) (w.ask dir (.login server given.username given.password))
      (v.ask dir' (.login server given'.username given'.password))
  makeScratch : Lockstep R (Made D) w.makeScratch v.makeScratch
  dropScratch : ∀ {dir dir'}, D (some dir) (some dir') → Lockstep R Eq (w.dropScratch dir) (v.dropScratch dir')

/-- Two configurations of pushes that differ in their credentials only, and these are related. -/
structure SameButCredentials (Q : Registry.Credentials → Registry.Credentials → Prop) (c d : Config) :
    Prop where
  login : c.login = d.login
  cloudLogin : c.cloudLogin = d.cloudLogin
  server : c.server = d.server
  platform : c.platform = d.platform
  credentials : Q ⟨c.username, c.password⟩ ⟨d.username, d.password⟩

/-- Two pushed images that are the same, held by engines with related directories. -/
structure SamePushed (D : Option Directory → Option Directory → Prop) (p q : Pushed) : Prop where
  engineDir : D p.engineDir q.engineDir
  image : p.image = q.image
  keep : p.keep = q.keep
  forceOverride : p.forceOverride = q.forceOverride

theorem SamePushed.eq {p q : Pushed} (hpushed : SamePushed Eq p q) : p = q := by
  obtain ⟨image, keep, forceOverride, engineDir⟩ := p
  obtain ⟨rfl, rfl, rfl, rfl⟩ := hpushed
  rfl

section

variable {σ τ : Type} {R : σ → τ → Prop} {D : Option Directory → Option Directory → Prop}
  {E : PushError → PushError → Prop} {Q : Registry.Credentials → Registry.Credentials → Prop}
variable {w : Workplace (StateM σ)} {v : Workplace (StateM τ)} (halike : Alike R D E Q w v)
variable {dir dir' : Option Directory}

include halike

theorem pushNames_lockstep (hdir : D dir dir') (platform : String) (names : List String) :
    Lockstep R (Settled E Eq) (pushNames (w.peers dir) platform names)
      (pushNames (v.peers dir') platform names) := by
  induction names with
  | nil => exact .pure (.ok rfl)
  | cons name rest ih =>
    refine .same (halike.notify _) fun _ => .bind (halike.ask _ hdir (by simp)) ?_
    rintro _ _ (_ | hef)
    · exact ih
    · exact .pure (.failed hef)

theorem lookUpDigest_lockstep (hdir : D dir dir') (id : String) :
    Lockstep R (Settled E Eq) (lookUpDigest (w.peers dir) id) (lookUpDigest (v.peers dir') id) := by
  refine .bind (halike.ask _ hdir (by simp)) ?_
  rintro _ _ (hsame | hef)
  · exact .pure (.ok hsame)
  · exact .same (halike.notify _) fun _ => .pure (.ok rfl)

theorem pushArtifact_lockstep (hdir : D dir dir') (platform : String) (a : Artifact) :
    Lockstep R (Settled E (SamePushed D)) (pushArtifact (w.peers dir) platform a)
      (pushArtifact (v.peers dir') platform a) := by
  refine .same (halike.notify _) fun _ => .bind (pushNames_lockstep halike hdir platform _) ?_
  rintro _ _ (_ | hef)
  · refine .bind (lookUpDigest_lockstep halike hdir a.id) ?_
    rintro _ _ (rfl | hef)
    · exact .pure (.ok ⟨hdir, rfl, rfl, rfl⟩)
    · exact .pure (.failed hef)
  · exact .pure (.failed hef)

theorem closeSession_lockstep (hdir : D dir dir') (server : String) :
    Lockstep R (Settled E Eq) (closeSession (w.peers dir) server) (closeSession (v.peers dir') server) := by
  refine .same (halike.notify _) fun _ => .bind (halike.ask _ hdir (by simp)) ?_
  rintro _ _ (_ | hef)
  · exact .pure (.ok rfl)
  · exact .same (halike.problem _ hef) fun _ => .pure (.ok rfl)

theorem withinSession_lockstep {α β : Type} {P : α → β → Prop} (hdir : D dir dir') (server : String)
    {first : StateM σ (Outcome α)} {second : StateM τ (Outcome β)}
    (hstep : Lockstep R (Settled E P) first second) :
    Lockstep R (Settled E P) (withinSession (w.peers dir) server first)
      (withinSession (v.peers dir') server second) := by
  refine .bind hstep ?_
  rintro _ _ (hab | hef) <;> refine .bind (closeSession_lockstep halike hdir server) ?_
  · rintro _ _ (_ | hef)
    · exact .pure (.ok hab)
    · exact .pure (.failed hef)
  · rintro _ _ (_ | hef')
    · exact .pure (.failed hef)
    · exact .pure (.failed hef')

theorem credentials_lockstep {c d : Config} (hconfig : SameButCredentials Q c d) :
    Lockstep R (Settled E Q) (credentials (w.peers dir) c) (credentials (v.peers dir') d) := by
  unfold credentials
  rw [hconfig.cloudLogin, hconfig.server]
  by_cases hcloud : d.cloudLogin = true
  · rw [if_pos hcloud, if_pos hcloud]
    exact .same (halike.notify _) fun _ => halike.exchange d.server
  · rw [if_neg hcloud, if_neg hcloud]
    exact .pure (.ok hconfig.credentials)

theorem openSession_lockstep (hdir : D dir dir') (server : String) {given given' : Registry.Credentials}
    (hgiven : Q given given') :
    Lockstep R (Settled E Eq) (openSession (w.peers dir) server given)
      (openSession (v.peers dir') server given') := by
  refine .same (halike.notify _) fun _ => .bind (halike.login server hdir hgiven) ?_
  rintro _ _ (_ | hef)
  · exact .pure (.ok rfl)
  · exact .pure (.failed (halike.errors.login hef))

theorem loginAndPush_lockstep {c d : Config} (hconfig : SameButCredentials Q c d) (hdir : D dir dir')
    (a : Artifact) :
    Lockstep R (Settled E (SamePushed D)) (loginAndPush (w.peers dir) c a) (loginAndPush (v.peers dir') d a) := by
  unfold loginAndPush
  rw [show c.wantsLogin = d.wantsLogin by rw [Config.wantsLogin, hconfig.login, hconfig.cloudLogin]; rfl,
    hconfig.server, hconfig.platform]
  by_cases hwants : d.wantsLogin = true
  · rw [if_pos hwants, if_pos hwants]
    refine .bind (credentials_lockstep halike hconfig) ?_
    rintro _ _ (hgiven | hef)
    · refine .bind (openSession_lockstep halike hdir d.server hgiven) ?_
      rintro _ _ (_ | hef)
      · exact withinSession_lockstep halike hdir d.server (pushArtifact_lockstep halike hdir d.platform a)
      · exact .pure (.failed hef)
    · exact .pure (.failed hef)
  · rw [if_neg hwants, if_neg hwants]
    exact pushArtifact_lockstep halike hdir d.platform a

theorem removeScratch_lockstep {dir dir' : Directory} (hdir : D (some dir) (some dir')) :
    Lockstep R Eq (removeScratch w dir) (removeScratch v dir') := by
  refine .same (halike.notify _) fun _ => .same (halike.dropScratch hdir) fun removed => ?_
  match removed with
  | .ok () => exact .pure rfl
  | .error e => exact halike.notify _

theorem withScratch_lockstep {α β : Type} {P : α → β → Prop} {first : Directory → StateM σ (Outcome α)}
    {second : Directory → StateM τ (Outcome β)}
    (hsteps : ∀ dir dir', D (some dir) (some dir') → Lockstep R (Settled E P) (first dir) (second dir')) :
    Lockstep R (Settled E P) (withScratch w first) (withScratch v second) := by
  refine .same (halike.notify _) fun _ => .bind halike.makeScratch ?_
  rintro _ _ (hdir | e)
  · refine .bind (hsteps _ _ hdir) ?_
    rintro _ _ (hab | hef) <;> refine .same (removeScratch_lockstep halike hdir) fun _ => ?_
    · exact .pure (.ok hab)
    · exact .pure (.failed hef)
  · exact .pure (.failed (halike.errors.same _))

/-- Pushes of one artifact at workplaces that do the same, with configurations that differ in related
credentials only, end alike. -/
theorem run_lockstep {c d : Config} (hconfig : SameButCredentials Q c d) (own : Bool) (a : Artifact) :
    Lockstep R (Settled E (SamePushed D)) (run w own c a) (run v own d a) := by
  unfold run
  by_cases hunknown : (!a.isImage) = true
  · rw [if_pos hunknown, if_pos hunknown]
    exact .pure (.failed (halike.errors.same _))
  · rw [if_neg hunknown, if_neg hunknown]
    cases own with
    | true => exact withScratch_lockstep halike fun _ _ hdir => loginAndPush_lockstep halike hconfig hdir a
    | false => exact loginAndPush_lockstep halike hconfig halike.usual a

end

end ImagePush.Push
