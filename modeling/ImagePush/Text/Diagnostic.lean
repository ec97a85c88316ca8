import ImagePush.Text.Quoted

/-!
# Diagnostics

The layout of composite values in diagnostics: lists between brackets, maps between braces, records with
named fields, and what stands for a secret.
-/

namespace ImagePush.Text

/-- Texts with a separator between them. -/
def joined (separator : String) (texts : List String) : String :=
  separator.intercalate texts

/-- Parts between brackets. -/
def bracketed (parts : List String) : String :=
  "[" ++ joined ", " parts ++ "]"

/-- Parts between braces. -/
def braced (parts : List String) : String :=
  "\x7b" ++ joined ", " parts ++ "\x7d"

/-- A record: its name and its named fields. -/
def record (name : String) (fields : List (String × String)) : String :=
  name ++ " \x7b " ++ joined ", " (fields.map fun (k, v) => k ++ ": " ++ v) ++ " \x7d"

/-- A record that has more fields than those shown. -/
def openRecord (name : String) (fields : List (String × String)) : String :=
  name ++ " \x7b " ++ String.join (fields.map fun (k, v) => k ++ ": " ++ v ++ ", ") ++ ".. \x7d"

/-- What stands for a secret. -/
def redacted : String := "<redacted>"

/-- What is shown for a secret that may be missing. -/
def shownSecret (secret : String) : String :=
  if secret.isEmpty then "" else redacted

end ImagePush.Text
