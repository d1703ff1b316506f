/-
OfferAnswer/Text/Lines.lean

Numbered lines.  A line feed ends a line, and one carriage return right before
it belongs to the ending; the last line may go without an ending, and then
keeps a carriage return.  No line is empty.
-/
import OfferAnswer.Text.Utf8

namespace OfferAnswer

/-- A line with its number, counted from one. -/
structure Line where
  number : Nat
  text : Text
  deriving DecidableEq

namespace Line

/-- Why a text has no lines. -/
inductive Fault where
  | empty (number : Nat)
  | encoding (number : Nat) (reason : Text.Utf8.Reason)
  deriving DecidableEq

/-- The text without the carriage return of a line ending. -/
def dropReturn (t : Text) : Text :=
  if t.getLast? = some '\r' then t.dropLast else t

/-- The lines, from the parts between line feeds: the last part is a line only
if it is not empty. -/
def ofParts : List Text → List Text
  | [] => []
  | [last] => if last = [] then [] else [last]
  | part :: rest => dropReturn part :: ofParts rest

/-- The lines in order, numbered from `n`, up to an empty one. -/
def numberFrom (n : Nat) : List Text → Except Fault (List Line)
  | [] => .ok []
  | t :: rest =>
    if t = [] then .error (.empty n) else (⟨n, t⟩ :: ·) <$> numberFrom (n + 1) rest

/-- The lines of a text. -/
def ofText (t : Text) : Except Fault (List Line) :=
  numberFrom 1 (ofParts (t.splitOn '\n'))

/-- The lines of a text given by its bytes.  A fault of the encoding lies on
the line after as many line feeds as stand before it. -/
def ofBytes (bytes : List UInt8) : Except Fault (List Line) :=
  match Text.Utf8.decode bytes with
  | .ok t => ofText t
  | .error f => .error (.encoding ((bytes.take f.offset).count 10 + 1) f.reason)

end Line

end OfferAnswer
