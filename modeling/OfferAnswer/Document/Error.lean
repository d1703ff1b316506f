/-
OfferAnswer/Document/Error.lean

Why a document is refused, and where.
-/
import OfferAnswer.Field.Basic
import OfferAnswer.Text.Lines

namespace OfferAnswer

/-- The parts that a session must have. -/
inductive SessionPart where
  | version
  | origin
  | name
  deriving DecidableEq

def SessionPart.label : SessionPart → String
  | version => "'version'"
  | origin => "'origin'"
  | name => "'name'"

namespace Document

/-- Why a document is refused. -/
inductive Fault where
  | encoding (reason : Text.Utf8.Reason)
  | emptyLine
  | emptyDocument
  | malformedLine
  | notFirst (wanted : Char)
  | unknownLetter (letter : Char)
  | misplaced (letter : Char)
  | field (fault : Field.Fault)
  | missing (parts : List SessionPart)
  | noTime

/-- Labels in a sentence. -/
def enumerate : List String → String
  | [] => ""
  | [a] => a
  | [a, b] => a ++ " and " ++ b
  | labels => ", ".intercalate labels.dropLast ++ ", and " ++ labels.getLastD ""

/-- What the maker of a value lacks. -/
def lacking (title : String) (labels : List String) : String :=
  title ++ ".__init__() missing " ++ Decimal.toString labels.length
    ++ " required positional argument" ++ (if labels.length = 1 then "" else "s") ++ ": "
    ++ enumerate labels

def Fault.message : Fault → String
  | encoding reason => "Invalid UTF-8 data: " ++ reason.message
  | emptyLine => "Empty line"
  | emptyDocument => "Empty SDP"
  | malformedLine => "Invalid SDP line"
  | notFirst wanted => "Expected " ++ Text.toString [wanted] ++ "= field first"
  | unknownLetter letter => "Unknown SDP field type " ++ Text.toString [letter]
  | misplaced letter => "Unexpected " ++ Text.toString [letter] ++ "= field"
  | field fault => fault.message
  | missing parts =>
    "Missing required fields in SDPSession: " ++ lacking "SDPSession" (parts.map SessionPart.label)
  | noTime => "SDP session must have at least one time field"

/-- A fault, with the number of the line and the line where they are known. -/
structure Error where
  fault : Fault
  number : Option Nat
  line : Option Text

namespace Error

def message (e : Error) : String :=
  match e.number with
  | some n =>
    "line " ++ Decimal.toString n ++ " (" ++ Text.quoted? e.line ++ "): " ++ e.fault.message
  | none => e.fault.message

/-- A fault of a line. -/
def onLine (l : Line) (fault : Fault) : Error := ⟨fault, some l.number, some l.text⟩

/-- Why a text has no lines, as an error. -/
def ofLineFault : Line.Fault → Error
  | .empty n => ⟨.emptyLine, some n, some []⟩
  | .encoding n reason => ⟨.encoding reason, some n, none⟩

end Error

end Document

end OfferAnswer
