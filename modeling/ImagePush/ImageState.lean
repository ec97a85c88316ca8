import ImagePush.Artifact.Basic

/-!
# Image state

What a push needs of the state of an artifact, in one shape: the tags as a list of strings and the
generated data as a map from strings. `ofArtifact` is the only place where the looser shapes of the state
are interpreted; elements that do not fit are dropped.
-/

namespace ImagePush

/-- The tags of an image and the data gathered about it. -/
structure ImageState where
  /-- Further names of the image, in the order of the artifact. -/
  tags : List String := []
  data : KeyMap StateValue := []
  deriving Repr, Inhabited

namespace ImageState

/-- The name under which the digest of a pushed image is kept among its data. -/
def digestKey : String := "Digest"

/-- The strings that a value lists. -/
def tagsOf : StateValue → List String
  | .strings tags => tags
  | .list items => items.filterMap StateValue.string?
  | _ => []

/-- The pair of a string and a value. -/
def dataEntry? (pair : StateValue × StateValue) : Option (String × StateValue) :=
  pair.1.string?.map (·, pair.2)

/-- The map that a value stands for. -/
def dataOf : StateValue → KeyMap StateValue
  | .map members => members
  | .entries pairs => KeyMap.ofList (pairs.filterMap dataEntry?)
  | _ => []

/-- The image state of an artifact. -/
def ofArtifact (a : Artifact) : ImageState where
  tags := ((a.value? Artifact.tagsKey).map tagsOf).getD []
  data := ((a.value? Artifact.dataKey).map dataOf).getD []

/-- All names of an image: the one it is known by, then its tags. -/
def names (s : ImageState) (primary : String) : List String :=
  primary :: s.tags

/-- The state with the digest of the pushed image. -/
def setDigest (s : ImageState) (digest : String) : ImageState :=
  { s with data := s.data.insert digestKey (.string digest) }

/-- The state as an artifact carries it. -/
def toState (s : ImageState) : StateMap :=
  KeyMap.ofList [(Artifact.tagsKey, .strings s.tags), (Artifact.dataKey, .map s.data)]

end ImageState

end ImagePush
