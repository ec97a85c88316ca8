import ImagePush.Directory
import ImagePush.Proofs.Text.Utf8

/-!
# What is shown of a directory

What is shown of a path names the directory itself exactly if the path is text (`named_shown_iff`). Any other path is
shown with replacement characters, which name another directory.
-/

namespace ImagePush.Directory

@[simp]
theorem shown_named (text : String) : (named text).shown = text := by
  rw [shown, named, Text.Utf8.ofString, Text.Utf8.decodeLossy_encode, String.ofList_toList]

/-- **What is shown of a directory names it exactly if its path is text.** -/
theorem named_shown_iff {dir : Directory} : named dir.shown = dir ↔ Text.Utf8.IsText dir.path := by
  constructor
  · intro h
    rw [← h]
    exact Text.Utf8.isText_ofString dir.shown
  · rintro ⟨cs, hpath⟩
    have hshown : dir.shown = String.ofList cs := by rw [shown, hpath, Text.Utf8.decodeLossy_encode]
    cases dir
    rw [hshown, named, Text.Utf8.ofString, String.toList_ofList, ← hpath]

/-- The path `/tmp/` with the byte FF behind it is shown as that of another directory. -/
example : shown ⟨[0x2F, 0x74, 0x6D, 0x70, 0x2F, 0xFF]⟩ = "/tmp/\uFFFD" := by
  simp [shown, Text.Utf8.decodeLossy, Text.Utf8.head, Text.Utf8.replacement]

end ImagePush.Directory
