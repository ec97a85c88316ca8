import ImagePush.Artifact.Basic
import ImagePush.StateValue.Diagnostic

/-!
# Imported images

An image that lives in the engine. Unlike the record of an image it has no files, and removing it takes
the engine.
-/

namespace ImagePush

/-- An image in the engine. -/
structure ImportedImage where
  /-- The step that produced the image. -/
  builderId : String
  id : String
  state : StateMap := []
  deriving Repr, Inhabited

namespace ImportedImage

/-- The record of an image. -/
def record (i : ImportedImage) : Artifact where
  builderId := i.builderId
  id := i.id
  state := i.state

/-- The value of a name. -/
def value? (i : ImportedImage) (key : String) : Option StateValue :=
  i.state.get? key

/-- An image in a few words. -/
def description (i : ImportedImage) : String :=
  s!"Imported Docker image: {i.id}"

/-- An image in diagnostics. -/
def diagnostic (i : ImportedImage) : String :=
  Text.openRecord "ImportArtifact"
    [("builder_id", Text.quoted i.builderId), ("id", Text.quoted i.id),
      ("state", StateValue.diagnosticMap i.state)]

end ImportedImage

end ImagePush
