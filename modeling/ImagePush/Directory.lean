import ImagePush.Text.Utf8

/-!
# Directories

A directory is known by the bytes of its path, which need not be text. The arguments of a process are text, though:
there the path is shown with a replacement character for each malformed sequence, and what is shown of a path that is
not text names another directory.
-/

namespace ImagePush

/-- A directory, by the bytes of its path. -/
structure Directory where
  path : List UInt8
  deriving DecidableEq, Repr

namespace Directory

/-- The directory that a text names. -/
def named (text : String) : Directory := ⟨Text.Utf8.ofString text⟩

/-- A text may stand for the directory that it names, -/
instance : Coe String Directory := ⟨named⟩

/-- also where no directory may be given. -/
instance : Coe (Option String) (Option Directory) := ⟨Option.map named⟩

/-- What is shown of the path. -/
def shown (dir : Directory) : String :=
  String.ofList (Text.Utf8.decodeLossy dir.path)

end Directory

end ImagePush
