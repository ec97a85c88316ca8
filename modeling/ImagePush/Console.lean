/-!
# Console

What the user is told: the notices of a push, and the lines that a program prints. A quiet console prints
errors only, a verbose one details too. Each function gives the text that goes to standard output, which
is empty for what is not to be shown; `problem` goes to standard error.
-/

namespace ImagePush

/-- What a push tells the user. -/
inductive Notice where
  | message (text : String)
  /-- The heading of a major step. -/
  | headline (text : String)
  /-- A problem that does not end the push. -/
  | problem (text : String)
  deriving DecidableEq, Repr

/-- How much a console shows. -/
structure Console where
  verbose : Bool := false
  quiet : Bool := false
  deriving DecidableEq, Repr

namespace Console

/-- A console that is verbose or not. -/
def ofVerbose (verbose : Bool) : Console := ⟨verbose, false⟩

/-- A console that prints errors only. -/
def silent : Console := ⟨false, true⟩

/-- A text, unless the console is quiet. -/
def unlessQuiet (c : Console) (text : String) : String :=
  if c.quiet then "" else text

/-- The heading of a section. -/
def heading (c : Console) (title : String) : String :=
  c.unlessQuiet s!"\n=== {title} ===\n"

def info (c : Console) (text : String) : String :=
  c.unlessQuiet s!"ℹ️  {text}\n"

def success (c : Console) (text : String) : String :=
  c.unlessQuiet s!"✅ {text}\n"

def warning (c : Console) (text : String) : String :=
  c.unlessQuiet s!"⚠️  WARNING: {text}\n"

def step (c : Console) (text : String) : String :=
  c.unlessQuiet s!"▶️  {text}\n"

/-- A detail, which only a verbose console shows. -/
def detail (c : Console) (text : String) : String :=
  if c.verbose then c.unlessQuiet s!"   {text}\n" else ""

/-- A summary of named values. -/
def summary (c : Console) (title : String) (items : List (String × String)) : String :=
  c.unlessQuiet (s!"\n--- {title} ---\n" ++ String.join (items.map fun (k, v) => s!"  {k}: {v}\n"))

/-- An error, whatever the console shows. -/
def problem (text : String) : String :=
  s!"❌ ERROR: {text}\n"

end Console

/-- A time span in whole seconds for people. -/
def durationText (seconds : Nat) : String :=
  if seconds < 60 then s!"{seconds}s"
  else if seconds < 3600 then s!"{seconds / 60}m{seconds % 60}s"
  else s!"{seconds / 3600}h{seconds % 3600 / 60}m{seconds % 60}s"

end ImagePush
