/-
This file holds the report of one problem at one place. A report is shown in three
ways: on one line; over a few lines, with the source line and a row of carets below
the words at fault; and as a JSON record. The marked words are found by counting
characters, so a source line may hold any character before, inside or after them.
-/

import Idl.Json
import Idl.Span

namespace Idl

/-- A report of one problem: what is wrong, and as much as is known of where. -/
structure Diagnostic where
  message : String
  file : String
  line : UInt32
  column : Option UInt32
  spanLength : Option UInt32
  sourceLine : Option String
deriving DecidableEq, Repr

namespace Diagnostic

/-- A report that knows its line and nothing more. -/
def atLine (message file : String) (line : UInt32) : Diagnostic :=
  ⟨message, file, line, none, none, none⟩

/-! ### One line -/

/-- The place of the problem: the file and the line, and the column if it is known. -/
def location (diagnostic : Diagnostic) : String :=
  let line := diagnostic.file ++ ":" ++ toString diagnostic.line.toNat
  match diagnostic.column with
  | none => line
  | some column => line ++ ":" ++ toString column.toNat

/-- The report on one line: its place and its message. -/
def display (diagnostic : Diagnostic) : String :=
  diagnostic.location ++ ": " ++ diagnostic.message

/-! ### With the source line -/

/-- The colour sequence that opens the marked words: bold red. -/
def highlight : List Char := ['\x1b', '[', '1', ';', '3', '1', 'm']

/-- The sequence that ends the colour. -/
def reset : List Char := ['\x1b', '[', '0', 'm']

/-- How many carets are drawn: one at least, and one if the length is not known. -/
def width (diagnostic : Diagnostic) : Nat :=
  max 1 (diagnostic.spanLength.getD 1).toNat

/-- The marked words, in colour if that is asked for and there is a character to colour. -/
def mark (colored : Bool) (words : List Char) : List Char :=
  if colored && !words.isEmpty then highlight ++ (words ++ reset) else words

/-- The rows below the message: the place alone if no source line is known; the place and the
source line if no column is known; and otherwise also a row of carets below the marked words. -/
def rows (colored : Bool) (diagnostic : Diagnostic) : List (List Char) :=
  let place := '[' :: (diagnostic.location.toList ++ [']'])
  match diagnostic.sourceLine, diagnostic.column with
  | none, _ => [place]
  | some line, none => [place ++ ' ' :: line.toList]
  | some line, some column =>
    let before := line.toList.take column.toNat
    let marked := (line.toList.drop column.toNat).take diagnostic.width
    let after := (line.toList.drop column.toNat).drop diagnostic.width
    [place ++ ' ' :: (before ++ (mark colored marked ++ after)),
      List.replicate (place.length + 1 + before.length) ' ' ++
        List.replicate diagnostic.width '^']

/-- The report over a few lines, each of them closed by a line feed. -/
def render (colored : Bool) (diagnostic : Diagnostic) : String :=
  String.ofList (diagnostic.message.toList ++ ':' :: '\n' ::
    (diagnostic.rows colored).flatMap fun row => row ++ ['\n'])

/-! ### As a record -/

/-- The number of a column or a length, or `null`. -/
def jsonNumber (value : Option UInt32) : Json :=
  Json.ofOption (fun number => .number number.toNat) value

/-- The report as a record. An unknown column or length is `null`; an unknown source line is
left out. -/
def json (diagnostic : Diagnostic) : Json :=
  .object ([
    ("message", .text diagnostic.message),
    ("file", .text diagnostic.file),
    ("line", .number diagnostic.line.toNat),
    ("column", jsonNumber diagnostic.column),
    ("span_length", jsonNumber diagnostic.spanLength)] ++
    match diagnostic.sourceLine with
    | none => []
    | some line => [("source_line", .text line)])

end Diagnostic

end Idl
