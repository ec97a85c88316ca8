import ImagePush.Push.Workflow

/-!
# Scripted pushes

A push at a workplace that answers as a script says. The answers may depend on everything that happened
before, so that scripts stand for any workplace at all. Running a push by a script gives its outcome and
its events.
-/

namespace ImagePush.Push

/-- The answers of a workplace, by what happened before. -/
structure Script where
  answer : History → Option Directory → (r : Request) → Outcome r.Result
  credentials : History → String → Outcome Registry.Credentials
  makeScratch : History → Except IoError Directory
  dropScratch : History → Directory → Except IoError Unit
  /-- Whether a session that is left open by a push given up is closed in the background. The history has this logout
  where it is set off, before the removal of the scratch directory, although it takes place behind that. -/
  background : Bool := true

namespace Script

/-- Adds an event to the history and gives what happened before. -/
def note (e : Event) : StateM History History :=
  modifyGet fun h => (h, h ++ [e])

/-- The workplace that answers by a script and keeps the history. -/
def workplace (s : Script) : Workplace (StateM History) where
  notify n := do
    let _ ← note (.notice n)
  exchange server := do return s.credentials (← note (.exchange server)) server
  ask dir r := do return s.answer (← note (.request dir r)) dir r
  closeLater dir server := do
    if s.background then
      let _ ← note (.request dir (.logout server))
  makeScratch := do return s.makeScratch (← note .makeScratch)
  dropScratch dir := do return s.dropScratch (← note (.dropScratch dir)) dir

/-- Runs a push by a script, with what happened before. -/
def run (s : Script) (ownScratch : Bool) (c : Config) (a : Artifact) (h : History) :
    Outcome Pushed × History :=
  (Push.run s.workplace ownScratch c a).run h

end Script

end ImagePush.Push
