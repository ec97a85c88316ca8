import ImagePush.StateValue.Basic

/-!
# Artifacts

The record in which one step of an image build hands its image to the next: who built it, its id, and an
open-ended map of named values.
-/

namespace ImagePush

/-- The record of an image. -/
structure Artifact where
  /-- The step that produced the image. -/
  builderId : String
  id : String
  state : StateMap := []
  files : List String := []
  deriving Repr, Inhabited

namespace Artifact

/-- The step that imports an image. -/
def importBuilder : String := "packer.post-processor.docker-import"

/-- The step that tags an image. -/
def tagBuilder : String := "packer.post-processor.docker-tag"

/-- The name under which the tags of an image are kept. -/
def tagsKey : String := "docker_tags"

/-- The name under which the data gathered about an image are kept. -/
def dataKey : String := "generated_data"

/-- The value of a name. -/
def value? (a : Artifact) (key : String) : Option StateValue :=
  a.state.get? key

/-- The record with a name bound to a value. -/
def bind (a : Artifact) (key : String) (v : StateValue) : Artifact :=
  { a with state := a.state.insert key v }

/-- Whether the record comes from a step whose images can be pushed. -/
def isImage (a : Artifact) : Bool :=
  a.builderId == importBuilder || a.builderId == tagBuilder

/-- The record in a few words. -/
def description (a : Artifact) : String :=
  s!"Docker image: {a.id}"

/-- Equality of records; doubles are compared as numbers. -/
def same (a b : Artifact) : Bool :=
  a.builderId == b.builderId && a.id == b.id && StateValue.sameMembers a.state b.state &&
    a.files == b.files

end Artifact

end ImagePush
