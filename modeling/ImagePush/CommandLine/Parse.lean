import ImagePush.CommandLine.Refusal
import ImagePush.Text.Similarity
import ImagePush.Text.Utf8

/-!
# Reading a command line

A command line is a list of words, which are bytes. A word is a long option, a cluster of letters, the
end of the options or anything else; an option without an attached value takes the next word, unless that
looks like an option. An option with a value is settled only when the next one is met or the words end,
so that of two faults the earlier one is not always the one that is named.
-/

namespace ImagePush.CommandLine

/-- The bytes of a word. -/
abbrev Word := List UInt8

/-- A hyphen. -/
def hyphen : UInt8 := 0x2D

/-- An equals sign. -/
def equals : UInt8 := 0x3D

/-- What a word looks like. -/
inductive Shape where
  /-- The end of the options. -/
  | endMark
  | long (name : Word) (value : Option Word)
  /-- Letters, and behind them what is not text. -/
  | letters (chars : List Char) (rest : Word)
  | plain

/-- Splits a word behind its first equals sign. -/
def splitValue : Word → Word × Option Word
  | [] => ([], none)
  | b :: rest =>
    if b = equals then ([], some rest)
    else
      let (name, value) := splitValue rest
      (b :: name, value)

/-- The text at the front of a word and the bytes behind it that are not text. -/
def frontText (w : Word) : List Char × Word :=
  match Text.Utf8.decode w with
  | .ok cs => (cs, [])
  | .error m => ((Text.Utf8.decode? (w.take m.index)).getD [], w.drop m.index)

/-- What a word looks like. -/
def shape : Word → Shape
  | [] => .plain
  | b :: rest =>
    if b ≠ hyphen then .plain
    else
      match rest with
      | [] => .plain
      | c :: more =>
        if c = hyphen then
          if more.isEmpty then .endMark
          else
            let (name, value) := splitValue more
            .long name value
        else
          let (chars, behind) := frontText (c :: more)
          .letters chars behind

/-- A word as far as it is text. -/
def displayed (w : Word) : String :=
  String.ofList (Text.Utf8.decodeLossy w)

/-! ### Progress -/

/-- What has been read. -/
structure Progress where
  /-- The options that are settled, in order, with their values; a flag has the empty value. -/
  settled : List (Opt × String) := []
  /-- The option that is not settled yet, with its value if that was met. -/
  pending : Option (Opt × Option Word) := none

namespace Progress

/-- The options that are settled. -/
def options (p : Progress) : List Opt :=
  p.settled.map Prod.fst

/-- Whether an option is settled. -/
def has (p : Progress) (o : Opt) : Bool :=
  p.options.contains o

/-- Settles an option with a value. -/
def settle (p : Progress) (o : Opt) (value : Word) : Except Refusal Progress :=
  if p.has o then .error (.repeated o)
  else
    match Text.Utf8.decode? value with
    | none => .error .notText
    | some text => .ok { p with settled := p.settled ++ [(o, String.ofList text)] }

/-- Settles the option that is not settled yet. -/
def resolve (p : Progress) : Except Refusal Progress :=
  match p.pending with
  | none => .ok p
  | some (o, none) => .error (.noValue o)
  | some (o, some value) => { p with pending := none }.settle o value

/-- The options that count as given when an unknown one is met: those that are settled and the pending
one, if it has a value. An option that is given twice does not count. -/
def given (p : Progress) : List Opt :=
  match p.pending with
  | some (o, some _) => if p.has o then p.options.erase o else p.options ++ [o]
  | _ => p.options

/-- Takes an option that has no value. -/
def takeFlag (p : Progress) (o : Opt) : Except Refusal Progress :=
  match p.resolve with
  | .error r => .error r
  | .ok p =>
    match o with
    | .help => .error .help
    | .version => .error .version
    | o => p.settle o []

/-- Takes an option with its value attached. -/
def takeAttached (p : Progress) (o : Opt) (value : Word) : Except Refusal Progress :=
  match p.resolve with
  | .error r => .error r
  | .ok p => p.settle o value

/-- Takes an option whose value is to follow. -/
def takeOpen (p : Progress) (o : Opt) : Except Refusal Progress :=
  match p.resolve with
  | .error r => .error r
  | .ok p => .ok { p with pending := some (o, none) }

end Progress

/-! ### Words -/

/-- The similarity above which a name counts as similar. -/
def threshold : Double := Double.ofRatio false 7 10

/-- The option whose long name is most like a name; of equally similar ones the last. -/
def similarTo (name : String) : Option Opt :=
  let likeness (o : Opt) := Text.Similarity.jaro name.toList o.long.toList
  let candidates := Opt.all.filter fun o => threshold.isBelow (likeness o)
  candidates.foldl (fun best o =>
    match best with
    | none => some o
    | some b => if (likeness o).isBelow (likeness b) then some b else some o) none

/-- Takes a long option. -/
def takeLong (p : Progress) (name : Word) (value : Option Word) : Except Refusal Progress :=
  match Opt.ofLong? (displayed name) with
  | none =>
    let name := displayed name
    .error (.unknownName name (similarTo name) p.given)
  | some o =>
    match o.takesValue, value with
    | true, some v => p.takeAttached o v
    | true, none => p.takeOpen o
    | false, some v => .error (.unexpectedValue (displayed v) o p.options)
    | false, none => p.takeFlag o

/-- Takes the letters of a cluster; `rest` stands behind them. What follows the letter of an option with
a value is that value, less one equals sign. -/
def takeLetters (p : Progress) (rest : Word) : List Char → Except Refusal Progress
  | [] => if rest.isEmpty then .ok p else .error (.unexpected ("-" ++ displayed rest))
  | c :: cs =>
    match Opt.ofShort? c with
    | none => .error (.unexpected (String.ofList ['-', c]))
    | some o =>
      if o.takesValue then
        match Text.Utf8.encode cs ++ rest with
        | [] => p.takeOpen o
        | b :: bs => p.takeAttached o (if b = equals then bs else b :: bs)
      else
        match p.takeFlag o with
        | .error r => .error r
        | .ok p => takeLetters p rest cs

/-- Takes a word that is no option: the value of the option that waits for one. -/
def takePlain (p : Progress) (w : Word) : Except Refusal Progress :=
  match p.pending with
  | some (o, none) => .ok { p with pending := some (o, some w) }
  | _ => .error (.unexpected (displayed w))

/-- Takes the words of a command line. Behind the end of the options no word is expected. -/
def takeWords (p : Progress) : List Word → Except Refusal Progress
  | [] => p.resolve
  | w :: ws =>
    let next (taken : Except Refusal Progress) : Except Refusal Progress :=
      match taken with
      | .error r => .error r
      | .ok p => takeWords p ws
    match shape w with
    | .endMark =>
      match ws with
      | [] => p.resolve
      | w :: _ => .error (.unexpected (displayed w))
    | .long name value => next (takeLong p name value)
    | .letters chars rest => next (takeLetters p rest chars)
    | .plain => next (takePlain p w)

/-! ### Arguments -/

/-- The value of an option. -/
def Progress.value? (p : Progress) (o : Opt) : Option String :=
  p.settled.lookup o

/-- The refusal of options that exclude each other; the one that came first is named first. -/
def Progress.conflict? (p : Progress) : Option Refusal :=
  match p.options.filter fun o => o = .verbose ∨ o = .quiet with
  | o :: other :: _ => some (.conflict o other (p.options.erase other))
  | _ => none

/-- The arguments that the settled options give. -/
def Progress.args (p : Progress) : Except Refusal Args :=
  match p.conflict?, p.value? .artifact with
  | some r, _ => .error r
  | none, none => .error (.noArtifact p.options)
  | none, some artifact =>
    .ok
      { artifact
        config := p.value? .config
        output := p.value? .output
        dockerPath := p.value? .dockerPath
        login := p.has .login
        loginUsername := p.value? .loginUsername
        loginPassword := p.value? .loginPassword
        loginServer := p.value? .loginServer
        ecrLogin := p.has .ecrLogin
        platform := p.value? .platform
        awsProfile := p.value? .awsProfile
        verbose := p.has .verbose
        quiet := p.has .quiet }

/-- The arguments that the words of a command line give, without the name of the program. -/
def parse (words : List Word) : Except Refusal Args :=
  match takeWords {} words with
  | .error r => .error r
  | .ok p => p.args

/-- A slash. -/
def slash : UInt8 := 0x2F

/-- A full stop. -/
def dot : UInt8 := 0x2E

/-- The parts of a path that name something: neither empty nor the place itself. -/
def pathParts (w : Word) : List Word :=
  (w.splitOn slash).filter fun part => part != [] && part != [dot]

/-- The name of the program in the usage: the last part of the word that it was started by, if that part
is text and not the place above. -/
def programOf (word : Option Word) : String :=
  let name := do
    let part ← (pathParts (← word)).getLast?
    if part = [dot, dot] then none else Text.Utf8.decode? part
  (name.map String.ofList).getD programName

end ImagePush.CommandLine
