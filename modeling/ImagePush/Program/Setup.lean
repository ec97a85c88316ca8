import ImagePush.Program

/-!
# Pushes by a caller

How a push is set up by a caller that uses it as a library. The engine gets a scratch directory for its
configuration unless the caller names a directory that is shared; a caller may also bring a driver that takes
the requests in the place of the engine, and a source of credentials in the place of the cloud. A program
sets its pushes up by its environment (`push_eq`).
-/

namespace ImagePush.Program

variable {m : Type → Type} [Monad m]

/-- How a push is set up. -/
structure Setup (m : Type → Type) where
  /-- The settings, ready for use. -/
  config : Config
  /-- The directory, managed by others, in which the engine keeps its configuration. -/
  sharedDir : Option Directory := none
  /-- Takes the requests in the place of the engine. -/
  driver : Option ((r : Request) → m (Except PushError r.Result)) := none
  /-- Hands out credentials in the place of the cloud. -/
  exchange : Option (String → m (Except PushError Registry.Credentials)) := none

namespace Setup

/-- Whether the engine gets a scratch directory of its own. -/
def ownScratch (x : Setup m) : Bool :=
  x.driver.isNone && x.sharedDir.isNone

/-- The workplace of a push that is set up. -/
def workplace (h : Host m) (notify : Notice → m Unit) (x : Setup m) : Push.Workplace m :=
  let plain := Program.workplace h notify x.config
  { plain with
    exchange := fun server =>
      match x.exchange with
      | some given => do return (← given server).mapError .failed
      | none => plain.exchange server
    ask := fun dir r =>
      match x.driver with
      | some answer => do return (← answer r).mapError .failed
      | none => plain.ask dir r }

/-- Pushes an artifact. -/
def push (h : Host m) (notify : Notice → m Unit) (x : Setup m) (a : Artifact) :
    m (Except PushError Pushed) := do
  match ← Push.run (x.workplace h notify) x.ownScratch x.config a with
  | .ok p => return .ok p
  | .error (.failed e) => return .error e
  | .error .abandoned => return .error (.io (.other "abandoned"))

end Setup

/-- How a program sets its pushes up. -/
def setupOf (h : Host m) (c : Config) : Setup m where
  config := c
  sharedDir := (h.environment.value? configDirVariable).map Directory.mk

theorem push_eq (h : Host m) (console : Console) (c : Config) (a : Artifact) :
    push h console c a =
      match c.prepare with
      | .error f => return .error (.configuration f)
      | .ok c => (setupOf h c).push h (notify h console) a := by
  unfold push
  cases c.prepare with
  | error f => rfl
  | ok c =>
    have hown : (setupOf h c).ownScratch = !h.environment.isSet configDirVariable := by
      simp [Setup.ownScratch, setupOf, Environment.isSet]
    show _ = (setupOf h c).push h (notify h console) a
    unfold Setup.push
    rw [hown]
    rfl

end ImagePush.Program
