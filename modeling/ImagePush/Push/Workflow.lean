import ImagePush.Artifact.Imported
import ImagePush.Config.Basic
import ImagePush.ImageState
import ImagePush.Push.Request

/-!
# The push of an image

An image is pushed under its id and every tag, within a login session if one is wanted, and its digest is
looked up afterwards. Two things are acquired on the way and released in reverse order however the push
ends: the session is closed first, then the scratch directory for the configuration of the engine is
removed. A release that fails is reported and changes nothing else.

A push that is given up waits for nothing any more. It sets the closing of its session off and removes the scratch
directory at once, so that the session is closed behind that, by an engine that does not find the directory.

The push runs in any monad that provides what it needs of its surroundings.
-/

namespace ImagePush

/-- A pushed image. -/
structure Pushed where
  image : ImportedImage
  /-- The artifact that was pushed is to be kept. -/
  keep : Bool
  /-- Whether `keep` overrides what the user chose. -/
  forceOverride : Bool
  /-- The directory in which the engine that holds the image kept its configuration, if one was given. -/
  engineDir : Option Directory
  deriving Repr, Inhabited

namespace Push

variable {m : Type → Type} [Monad m]

/-- Whom a push talks to. -/
structure Peers (m : Type → Type) where
  /-- The directory in which the engine keeps its configuration, if one is given. -/
  dir : Option Directory
  /-- Shows the user a notice. -/
  notify : Notice → m Unit
  /-- Asks the cloud for the credentials of a server. -/
  exchange : String → m (Outcome Registry.Credentials)
  /-- Asks the engine. -/
  ask : (r : Request) → m (Outcome r.Result)
  /-- Sets off the closing of the session with a server when the push is given up. It takes place once the push is
  gone. -/
  closeLater : String → m Unit

/-! ### Names and digest -/

/-- Pushes names one after the other; the first failure ends it. -/
def pushNames (p : Peers m) (platform : String) : List String → m (Outcome Unit)
  | [] => return .ok ()
  | name :: rest => do
    p.notify (.message s!"Pushing: {name}")
    match ← p.ask (.push name platform) with
    | .ok _ => pushNames p platform rest
    | .error h => return .error h

/-- The digest of an image, or the empty string if the engine does not tell. -/
def lookUpDigest (p : Peers m) (id : String) : m (Outcome String) := do
  match ← p.ask (.digest id) with
  | .ok digest => return .ok digest
  | .error (.failed _) =>
    p.notify (.message "Unable to determine digest for source image, ignoring it for now")
    return .ok ""
  | .error .abandoned => return .error .abandoned

/-- What an artifact becomes by a push. -/
def pushed (dir : Option Directory) (a : Artifact) (digest : String) : Pushed where
  image :=
    { builderId := Artifact.importBuilder
      id := a.id
      state := ((ImageState.ofArtifact a).setDigest digest).toState }
  keep := true
  forceOverride := false
  engineDir := dir

/-- Pushes an artifact under all its names and looks up its digest. -/
def pushArtifact (p : Peers m) (platform : String) (a : Artifact) : m (Outcome Pushed) := do
  let names := (ImageState.ofArtifact a).names a.id
  p.notify (.headline s!"Pushing {names.length} name(s) to the registry")
  match ← pushNames p platform names with
  | .error h => return .error h
  | .ok _ =>
    match ← lookUpDigest p a.id with
    | .error h => return .error h
    | .ok digest => return .ok (pushed p.dir a digest)

/-! ### The session -/

/-- Closes the session with a server. -/
def closeSession (p : Peers m) (server : String) : m (Outcome Unit) := do
  p.notify (.message "Logging out...")
  match ← p.ask (.logout server) with
  | .ok _ => return .ok ()
  | .error (.failed e) =>
    p.notify (.problem s!"Error logging out: {e.message}")
    return .ok ()
  | .error .abandoned => return .error .abandoned

/-- Runs a step within the open session with a server, which is closed however the step ends. -/
def withinSession {α : Type} (p : Peers m) (server : String) (step : m (Outcome α)) :
    m (Outcome α) := do
  match ← step with
  | .error .abandoned =>
    -- it stands here as what is set off first; what it sets off comes behind all else that the push still does
    p.closeLater server
    return .error .abandoned
  | outcome =>
    match ← closeSession p server with
    | .ok _ => return outcome
    | .error h => return .error h

/-- The credentials for a login: those of the cloud, or those that are configured. -/
def credentials (p : Peers m) (c : Config) : m (Outcome Registry.Credentials) := do
  if c.cloudLogin then
    p.notify (.message "Fetching ECR credentials...")
    p.exchange c.server
  else
    return .ok ⟨c.username, c.password⟩

/-- Opens a session. -/
def openSession (p : Peers m) (server : String) (c : Registry.Credentials) : m (Outcome Unit) := do
  p.notify (.message "Logging in...")
  match ← p.ask (.login server c.username c.password) with
  | .ok _ => return .ok ()
  | .error (.failed e) => return .error (.failed (.login e))
  | .error .abandoned => return .error .abandoned

/-- Pushes an artifact, within a session if one is wanted. -/
def loginAndPush (p : Peers m) (c : Config) (a : Artifact) : m (Outcome Pushed) := do
  if c.wantsLogin then
    match ← credentials p c with
    | .error h => return .error h
    | .ok given =>
      match ← openSession p c.server given with
      | .error h => return .error h
      | .ok _ => withinSession p c.server (pushArtifact p c.platform a)
  else
    pushArtifact p c.platform a

/-! ### The scratch directory -/

/-- Where a push takes place. -/
structure Workplace (m : Type → Type) where
  /-- Shows the user a notice. -/
  notify : Notice → m Unit
  /-- Asks the cloud for the credentials of a server. -/
  exchange : String → m (Outcome Registry.Credentials)
  /-- Asks the engine, which keeps its configuration in the directory given. -/
  ask : Option Directory → (r : Request) → m (Outcome r.Result)
  /-- Sets off the closing of the session with a server when the push is given up. It takes place once the push is
  gone. -/
  closeLater : Option Directory → String → m Unit
  /-- Creates a scratch directory. -/
  makeScratch : m (Except IoError Directory)
  /-- Removes a scratch directory. -/
  dropScratch : Directory → m (Except IoError Unit)

/-- The peers of a push whose engine keeps its configuration in the directory given. -/
def Workplace.peers (w : Workplace m) (dir : Option Directory) : Peers m :=
  ⟨dir, w.notify, w.exchange, w.ask dir, w.closeLater dir⟩

/-- Removes a scratch directory and reports a failure. -/
def removeScratch (w : Workplace m) (dir : Directory) : m Unit := do
  w.notify (.message "Removing temporary Docker configuration directory")
  match ← w.dropScratch dir with
  | .ok _ => return ()
  | .error e =>
    w.notify (.problem s!"Error removing temporary Docker configuration directory: {e.message}")

/-- Runs a step with a scratch directory, which is removed however the step ends. -/
def withScratch {α : Type} (w : Workplace m) (step : Directory → m (Outcome α)) : m (Outcome α) := do
  w.notify (.message "Creating temporary Docker configuration directory")
  match ← w.makeScratch with
  | .error e => return .error (.failed (.scratchDir e))
  | .ok dir =>
    match ← step dir with
    | .error .abandoned =>
      -- this does not wait for a session that is closed in the background
      let _ ← w.dropScratch dir
      return .error .abandoned
    | outcome =>
      removeScratch w dir
      return outcome

/-- Pushes an artifact. `ownScratch` tells whether the engine gets a scratch directory of its own. Only
artifacts of steps that are known are pushed. -/
def run (w : Workplace m) (ownScratch : Bool) (c : Config) (a : Artifact) : m (Outcome Pushed) := do
  if !a.isImage then
    return .error (.failed (.unknownArtifact a.builderId))
  else if ownScratch then
    withScratch w fun dir => loginAndPush (w.peers (some dir)) c a
  else
    loginAndPush (w.peers none) c a

/-- Removes a pushed image from the engine. -/
def remove (w : Workplace m) (p : Pushed) : m (Outcome Unit) :=
  w.ask p.engineDir (.remove p.image.id)

end Push

end ImagePush
