import ImagePush.Text.Utf8

/-!
# Lines of a byte stream

A line ends in LF or CR LF; the last one may lack its end. `textOf` reads a stream line by line,
writes each line back with a single LF, and fails on the first line that is not text.
-/

namespace ImagePush.Text.Lines

/-- Line feed. -/
def lf : UInt8 := 0x0A

/-- Carriage return. -/
def cr : UInt8 := 0x0D

/-- The bytes of a line without the CR that stood before its LF. -/
def dropCr (bs : List UInt8) : List UInt8 :=
  if bs.getLast? = some cr then bs.dropLast else bs

/-- Splits a stream into lines without their ends. The first argument holds the bytes of the current
line in reverse order. -/
def splitFrom (current : List UInt8) : List UInt8 → List (List UInt8)
  | [] => if current.isEmpty then [] else [current.reverse]
  | b :: rest =>
    if b = lf then dropCr current.reverse :: splitFrom [] rest
    else splitFrom (b :: current) rest

/-- The lines of a stream, without their ends. -/
def split (bs : List UInt8) : List (List UInt8) :=
  splitFrom [] bs

/-- The text of a list of lines, each closed by one LF. -/
def join : List (List UInt8) → Except Utf8.Malformed (List Char)
  | [] => .ok []
  | line :: rest => do
    let text ← Utf8.decode line
    let more ← join rest
    return text ++ '\n' :: more

/-- The text of a stream read line by line. The index of a malformed sequence counts from the start
of its line. The end of a line is taken off before the line is decoded, so that a character that it cuts
short is incomplete, and not followed by a wrong byte. -/
def textOf (bs : List UInt8) : Except Utf8.Malformed (List Char) :=
  join (split bs)

end ImagePush.Text.Lines
