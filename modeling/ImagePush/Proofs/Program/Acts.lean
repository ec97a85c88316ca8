import ImagePush.Program.Script
import ImagePush.Proofs.Push.Courses
import ImagePush.Proofs.Push.Lockstep

/-!
# What is done for a push

The events of a push become acts on its host: a request becomes a process of the engine, or a question to the
driver in its place. A push on a scripted host goes one of the courses of a push, with the answers that the
script gives to these acts (`push_course`).
A program pushes in the same way; it tells its console what happens (`program_push_eq`).
-/

namespace ImagePush.Program

open Push

/-- The engine of a push, which keeps its configuration in the directory, if one is given. -/
def engineOf (c : Config) (dir : Option Directory) : Engine where
  executable := c.executable
  dir := dir

/-- The process of the engine for a request. -/
def invocationOf (c : Config) (dir : Option Directory) (r : Request) : Engine.Invocation :=
  (engineOf c dir).invocation (.ofRequest r)

namespace Script

variable (s : Script) (shown : Notice → Act) (c : Config) (h₀ : List Act)

/-- What is done for an event. -/
def act : Event → Act
  | .notice n => shown n
  | .exchange server => .exchange server
  | .request dir r => if s.driver.isSome then .request r else .start (invocationOf c dir r)
  | .makeScratch => .makeScratch
  | .dropScratch dir => .dropScratch dir

/-- What is done for some events, one after the other. -/
def acts (es : History) : List Act :=
  es.map (s.act shown c)

/-- The credentials that are handed out for a server. -/
def handedOut (h : List Act) (server : String) : Except PushError Registry.Credentials :=
  match s.exchange with
  | some given => given h server
  | none => (s.cloud h c.cloud server).mapError .registry

/-- The answers to the questions of a push that follows what was done before. -/
def answers : Push.Script where
  answer h dir r :=
    match s.driver with
    | some answer => (answer (h₀ ++ s.acts shown c h) r).mapError .failed
    | none =>
      ((engineOf c dir).result r (s.start (h₀ ++ s.acts shown c h) (invocationOf c dir r))).mapError .failed
  credentials h server := (s.handedOut c (h₀ ++ s.acts shown c h) server).mapError .failed
  makeScratch h := s.makeScratch (h₀ ++ s.acts shown c h)
  dropScratch h dir := s.dropScratch (h₀ ++ s.acts shown c h) dir
  background := false

theorem acts_append (es fs : History) : s.acts shown c (es ++ fs) = s.acts shown c es ++ s.acts shown c fs :=
  List.map_append

/-! ### Questions on a scripted host -/

theorem ask_of_driver {answer : List Act → (r : Request) → Except PushError r.Result}
    (hdriver : s.driver = some answer) (dir : Option Directory) (r : Request) :
    ((s.setup c).workplace s.host (tell shown)).ask dir r =
      fun h => ((answer h r).mapError .failed, h ++ [.request r]) := by
  simp only [Setup.workplace, setup, hdriver, Option.map_some]
  rfl

theorem ask_of_engine (hdriver : s.driver = none) (dir : Option Directory) (r : Request) :
    ((s.setup c).workplace s.host (tell shown)).ask dir r =
      fun h => (((engineOf c dir).result r (s.start h (invocationOf c dir r))).mapError .failed,
        h ++ [.start (invocationOf c dir r)]) := by
  funext h
  have hanswer : (engineOf c dir).answer s.host.start r h =
      ((engineOf c dir).result r (s.start h (invocationOf c dir r)),
        h ++ [.start (invocationOf c dir r)]) := rfl
  simp only [Setup.workplace, setup, hdriver, Option.map_none, Program.workplace]
  refine (bind_of_eq hanswer).trans ?_
  cases (engineOf c dir).result r (s.start h (invocationOf c dir r)) <;> rfl

theorem exchange_eq (server : String) :
    ((s.setup c).workplace s.host (tell shown)).exchange server =
      fun h => ((s.handedOut c h server).mapError .failed, h ++ [.exchange server]) := by
  funext h
  cases hexchange : s.exchange with
  | some given =>
    simp only [Setup.workplace, setup, handedOut, hexchange, Option.map_some]
    rfl
  | none =>
    have hcloud : s.host.exchange c.cloud server h =
        (s.cloud h c.cloud server, h ++ [.exchange server]) := rfl
    simp only [Setup.workplace, setup, handedOut, hexchange, Option.map_none, Program.workplace]
    refine (bind_of_eq hcloud).trans ?_
    cases s.cloud h c.cloud server <;> rfl

/-! ### A push and its events -/

/-- What was done in all, by the events of the push. -/
def Shows (h : List Act) (es : History) : Prop :=
  h = h₀ ++ s.acts shown c es

variable {s shown c h₀}

theorem Shows.add {h : List Act} {es : History} (hshows : s.Shows shown c h₀ h es) {act : Act} {e : Event}
    (hact : s.act shown c e = act) : s.Shows shown c h₀ (h ++ [act]) (es ++ [e]) := by
  subst hact hshows
  unfold Shows
  rw [acts_append, List.append_assoc]
  rfl

/-- A step that does what one event stands for, with the same answer. -/
theorem lockstep_of_act {α β : Type} {Q : α → β → Prop} {act : Act} {e : Event} {first : StateM (List Act) α}
    {second : StateM History β} (hact : s.act shown c e = act) (hfirst : ∀ h, (first h).2 = h ++ [act])
    (hsecond : ∀ es, (second es).2 = es ++ [e])
    (hanswer : ∀ es, Q (first (h₀ ++ s.acts shown c es)).1 (second es).1) :
    Lockstep (s.Shows shown c h₀) Q first second := by
  intro h es hshows
  rw [hfirst, hsecond]
  refine ⟨?_, hshows.add hact⟩
  obtain rfl : h = h₀ ++ s.acts shown c es := hshows
  exact hanswer es

theorem settled_mapError {α : Type} (answer : Except PushError α) :
    Settled Eq Eq (answer.mapError Halt.failed) (answer.mapError Halt.failed) := by
  cases answer with
  | ok a => exact .ok rfl
  | error e => exact .failed rfl

variable (s shown c h₀)

theorem ask_lockstep (dir : Option Directory) (r : Request) :
    Lockstep (s.Shows shown c h₀) (Settled Eq Eq) (((s.setup c).workplace s.host (tell shown)).ask dir r)
      ((s.answers shown c h₀).workplace.ask dir r) := by
  cases hdriver : s.driver with
  | some answer =>
    rw [s.ask_of_driver shown c hdriver]
    refine lockstep_of_act (e := .request dir r) (by simp [act, hdriver]) (fun _ => rfl) (fun _ => rfl)
      fun es => ?_
    show Settled Eq Eq _ ((s.answers shown c h₀).answer es dir r)
    simp only [answers, hdriver]
    exact settled_mapError _
  | none =>
    rw [s.ask_of_engine shown c hdriver]
    refine lockstep_of_act (e := .request dir r) (by simp [act, hdriver]) (fun _ => rfl) (fun _ => rfl)
      fun es => ?_
    show Settled Eq Eq _ ((s.answers shown c h₀).answer es dir r)
    simp only [answers, hdriver]
    exact settled_mapError _

/-- A scripted host and the script of its answers do the same. -/
theorem alike_answers :
    Alike (s.Shows shown c h₀) Eq Eq Eq ((s.setup c).workplace s.host (tell shown))
      (s.answers shown c h₀).workplace where
  errors := tolerates_eq
  usual := rfl
  notify n := lockstep_of_act (e := .notice n) rfl (fun _ => rfl) (fun _ => rfl) fun _ => rfl
  problem := by
    rintro text e _ rfl
    exact lockstep_of_act (e := .notice (.problem (text ++ e.message))) rfl (fun _ => rfl) (fun _ => rfl) fun _ => rfl
  exchange server := by
    rw [s.exchange_eq shown c]
    exact lockstep_of_act (e := .exchange server) rfl (fun _ => rfl) (fun _ => rfl) fun _ => settled_mapError _
  ask := by
    rintro dir _ r rfl -
    exact s.ask_lockstep shown c h₀ dir r
  login := by
    rintro dir _ server given _ rfl rfl
    exact s.ask_lockstep shown c h₀ dir _
  makeScratch := lockstep_of_act (e := .makeScratch) rfl (fun _ => rfl) (fun _ => rfl) fun _ => made_eq _
  dropScratch := by
    rintro dir _ heq
    obtain rfl := Option.some.inj heq
    exact lockstep_of_act (e := .dropScratch dir) rfl (fun _ => rfl) (fun _ => rfl) fun _ => rfl

theorem ownScratch_eq : (s.setup c).ownScratch = s.ownScratch := by
  simp only [Setup.ownScratch, ownScratch, setup, Option.isNone_map]

/-- The result of a push that is not given up. -/
theorem pushTelling_eq (a : Artifact) {h h' : List Act} {result : Except PushError Pushed}
    (hrun : Push.run ((s.setup c).workplace s.host (tell shown)) s.ownScratch c a h =
      (result.mapError Halt.failed, h')) :
    s.pushTelling shown c a h = (result, h') := by
  unfold pushTelling Setup.push
  rw [ownScratch_eq]
  refine (bind_of_eq hrun).trans ?_
  cases result <;> rfl

/-- **Every push on a scripted host goes one of the courses of a push**, with the answers of the script to
what is done. -/
theorem push_course (a : Artifact) :
    ∃ es, (s.pushTelling shown c a h₀).2 = h₀ ++ s.acts shown c es ∧
      Course s.ownScratch c a ((s.pushTelling shown c a h₀).1.mapError .failed) es
        ((s.answers shown c h₀).replies [] es) := by
  have hconfig : SameButCredentials Eq c c := ⟨rfl, rfl, rfl, rfl, rfl⟩
  have hstart : s.Shows shown c h₀ h₀ [] := (List.append_nil h₀).symm
  -- The script of the answers runs in lockstep with the host, so that its course is the one of the push.
  have hboth := run_lockstep (s.alike_answers shown c h₀) hconfig s.ownScratch a h₀ [] hstart
  rcases hrun : Push.run ((s.setup c).workplace s.host (tell shown)) s.ownScratch c a h₀ with ⟨out, h'⟩
  rcases hrun' : Push.run (s.answers shown c h₀).workplace s.ownScratch c a [] with ⟨out', es⟩
  rw [hrun, hrun'] at hboth
  obtain ⟨hsettled, hshows⟩ := hboth
  replace hsettled := hsettled.mono fun _ _ hpushed => hpushed.eq
  obtain ⟨es, rfl, hcourse⟩ := run_course (s.answers shown c h₀) hrun' hsettled.done
  obtain ⟨result, rfl⟩ : ∃ result : Except PushError Pushed, out' = result.mapError .failed := by
    cases hsettled with
    | ok _ => exact ⟨.ok _, rfl⟩
    | failed _ => exact ⟨.error _, rfl⟩
  obtain rfl := hsettled.eq
  rw [s.pushTelling_eq shown c a hrun]
  exact ⟨es, hshows, hcourse⟩

/-! ### Pushes of a program -/

/-- What is done on a console for a notice. -/
def shownOn (console : Console) : Notice → Act
  | .message text => .print (console.info text)
  | .headline text => .print (console.step text)
  | .problem text => .printError (Console.problem text)

theorem shownOn_ne_start (console : Console) (n : Notice) (i : Engine.Invocation) :
    shownOn console n ≠ .start i := by
  cases n <;> simp [shownOn]

/-- The same surroundings for a program, which is set up by its environment alone. -/
def alone : Script :=
  { s with
    sharedDir := (s.environment.value? configDirVariable).map Directory.mk
    driver := none
    exchange := none }

/-- A push of a program, by the push that it sets up. -/
theorem program_push_eq (console : Console) (a : Artifact) :
    Program.push s.host console c a =
      match c.prepare with
      | .error f => pure (.error (.configuration f))
      | .ok c => s.alone.pushTelling (shownOn console) c a := by
  have hnotify : notify s.host console = tell (shownOn console) := by
    funext n
    cases n <;> rfl
  rw [push_eq, hnotify]
  rfl

end Script

end ImagePush.Program
