import ImagePush.Text.Utf8

/-!
# Text on a terminal

A terminal takes control characters as commands, and also the sequences that an escape character opens. The
visible part of a text is what is left without both; of the control characters it keeps tabs, line feeds,
form feeds and carriage returns.
-/

namespace ImagePush.Text.Terminal

/-- What the next character belongs to. -/
inductive Place where
  | text
  /-- A sequence that an escape character has opened. -/
  | escape
  /-- A sequence that its next letter or digit closes. -/
  | designation
  /-- A sequence of parameters that a letter closes. -/
  | parameters
  /-- A command to the system around the terminal, which the bell closes. -/
  | command
  /-- The beginning of a string for the device. -/
  | device
  /-- The parameters of a string for the device. -/
  | deviceParameters
  /-- The name of a string for the device. -/
  | deviceName
  /-- A string for the device. -/
  | string
  deriving DecidableEq, Repr

/-- The code point of a character lies in a closed range. -/
def within (low high : Nat) (c : Char) : Bool :=
  low ≤ c.toNat && c.toNat ≤ high

/-- The control characters that are visible. -/
def isSpacing (c : Char) : Bool :=
  c = '\t' || c = '\n' || c = '\x0c' || c = '\r'

/-- The byte that closes a string for the device. -/
def stringEnd : UInt8 := 0x9C

namespace Place

/-- Whether a character is visible. Spacing is so even inside of a short sequence. -/
def shows (p : Place) (c : Char) : Bool :=
  match p with
  | text => isSpacing c || within 0x20 0x7E c || 0x80 ≤ c.toNat
  | escape | designation | parameters => isSpacing c
  | _ => false

/-- What the character behind `c` belongs to. An escape character opens a sequence anywhere, and two
control characters end one anywhere. A string for the device is taken byte by byte. -/
def next (p : Place) (c : Char) : Place :=
  if c = '\x1b' then escape
  else if c = '\x18' ∨ c = '\x1a' then text
  else
    match p with
    | text => text
    | escape =>
      match c with
      | '[' => parameters
      | ']' => command
      | 'P' => device
      | 'X' | '^' | '_' => string
      | c =>
        if within 0x20 0x2F c then designation
        else if within 0x30 0x7E c then text else escape
    | designation => if within 0x30 0x7E c then text else designation
    | parameters => if within 0x40 0x7E c then text else parameters
    | command => if c = '\x07' then text else command
    | device =>
      if within 0x20 0x2F c then deviceName
      else if within 0x30 0x3F c then deviceParameters
      else if within 0x40 0x7E c then string else device
    | deviceParameters =>
      if within 0x20 0x2F c then deviceName
      else if within 0x3C 0x7E c then string else deviceParameters
    | deviceName => if within 0x30 0x7E c then string else deviceName
    | string => if (Utf8.encodeChar c).contains stringEnd then text else string

end Place

/-- The visible part of a text; `p` is what its first character belongs to, and `running` says that the
character before it was visible. Behind a visible character the text runs on up to the next one that is
not. The sequence that it broke up then goes on if `resumes` says so and all that was visible is ASCII. -/
def visibleFrom (resumes : Bool) (p : Place) (running : Bool) : List Char → List Char
  | [] => []
  | c :: s =>
    if (if running then Place.text else p).shows c then
      c :: visibleFrom resumes (if resumes && c.toNat < 0x80 then p else .text) true s
    else visibleFrom resumes (p.next c) false s

/-- The visible part of a text. -/
def visible (resumes : Bool) (s : String) : String :=
  String.ofList (visibleFrom resumes .text false s.toList)

end ImagePush.Text.Terminal
