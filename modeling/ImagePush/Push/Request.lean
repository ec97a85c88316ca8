import ImagePush.Console
import ImagePush.Directory
import ImagePush.Error
import ImagePush.Registry.Credentials

/-!
# Requests of a push

What a push asks of the engine and of the cloud, how each request may end, and what happens during a push
as a list of events.
-/

namespace ImagePush

/-- What is asked of the engine. -/
inductive Request where
  | login (server username password : String)
  | logout (server : String)
  /-- Pushes a name, for one platform only if that is not empty. -/
  | push (name platform : String)
  /-- Looks up the digest of an image. -/
  | digest (id : String)
  | remove (id : String)
  deriving DecidableEq, Repr

/-- What a request gives if it succeeds. -/
abbrev Request.Result : Request → Type
  | .digest _ => String
  | _ => Unit

/-- How a step of a push ends early. -/
inductive Halt where
  | failed (e : PushError)
  /-- Nobody waits for the push any more. -/
  | abandoned

/-- How a step of a push ends. -/
abbrev Outcome (α : Type) := Except Halt α

/-- An event during a push. -/
inductive Event where
  | notice (n : Notice)
  /-- The cloud is asked for the credentials of a server. -/
  | exchange (server : String)
  /-- The engine is asked; it keeps its configuration in the directory, if one is given. -/
  | request (dir : Option Directory) (r : Request)
  /-- A scratch directory is to be created. -/
  | makeScratch
  /-- A scratch directory is to be removed. -/
  | dropScratch (dir : Directory)
  deriving DecidableEq, Repr

/-- The events of a push, the first one first. -/
abbrev History := List Event

end ImagePush
