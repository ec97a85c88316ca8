import ImagePush.Text.Utf8

/-!
# Environment

The environment variables that a program was started with. Their values are bytes; one that is not text
counts as missing where text is wanted.
-/

namespace ImagePush

/-- The variables and their values. -/
structure Environment where
  entries : List (String × List UInt8) := []

namespace Environment

/-- The value of a variable. -/
def value? (env : Environment) (name : String) : Option (List UInt8) :=
  env.entries.lookup name

/-- The value of a variable that holds text. -/
def text? (env : Environment) (name : String) : Option String := do
  let bytes ← env.value? name
  let text ← Text.Utf8.decode? bytes
  return String.ofList text

/-- Whether a variable is set. -/
def isSet (env : Environment) (name : String) : Bool :=
  (env.value? name).isSome

end Environment

end ImagePush
