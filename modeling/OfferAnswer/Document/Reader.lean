/-
OfferAnswer/Document/Reader.lean

Reading documents.

Every line is judged in turn: its form, its place in the order of lines, and
its value.  The first line that fails decides, so what stands after it has no
say; the required parts are counted at the end.  What a document lacks is
reported after the last line that the session looked at itself, which are its
own lines and the first lines of its times and media.
-/
import OfferAnswer.Document.Error
import OfferAnswer.Document.Order
import OfferAnswer.Document.Section

namespace OfferAnswer

namespace Document

/-! ### Single lines -/

/-- The letter and the value of a line. -/
def splitLine (l : Line) : Except Error (Char × Text) :=
  match Field.split? l.text with
  | some parts => .ok parts
  | none => .error (.onLine l .malformedLine)

/-- Why a line with a letter is refused. -/
def refusal (letter : Char) : Shape.Admission → Fault
  | .notFirst wanted => .notFirst wanted
  | .unknown => .unknownLetter letter
  | .misplaced | .slot _ => .misplaced letter

/-- Read a line with the fields of its owner. -/
def readField (owner : Owner) (letter : Char) (value : Text) :
    Except Field.Fault DocumentField :=
  match owner with
  | .session => .session <$> SessionField.read letter value
  | .time => .time <$> TimeField.read letter value
  | .media => .media <$> MediaField.read letter value

/-- Judge a line from where reading stands. -/
def readLine (p : Position) (l : Line) : Except Error (Position × DocumentField) := do
  let (letter, value) ← splitLine l
  let (p, owner) ← (p.next letter).mapError fun r => .onLine l (refusal letter r)
  let field ← (readField owner letter value).mapError fun f => .onLine l (.field f)
  return (p, field)

/-! ### Whole documents -/

/-- A field with the number of its line. -/
structure NumberedField where
  number : Nat
  field : DocumentField

/-- Read the lines one after the other. -/
def readLines (p : Position) : List Line → Except Error (List NumberedField)
  | [] => .ok []
  | l :: rest => do
    let (p, field) ← readLine p l
    return ⟨l.number, field⟩ :: (← readLines p rest)

/-- A line that the session looks at itself. -/
def isOwnLine : DocumentField → Bool
  | .session _ | .time (.active _) | .media (.medium _) => true
  | .time _ | .media _ => false

/-- The number of the last line that the session looked at. -/
def lastOwnNumber (fs : List NumberedField) : Nat :=
  ((fs.filter fun f => isOwnLine f.field).getLast?.map NumberedField.number).getD 0

end Document

open Document

/-- The parts that are missing. -/
def Draft.missing (d : Draft) : List SessionPart :=
  (if d.version.isNone then [.version] else [])
    ++ (if d.origin.isNone then [.origin] else [])
    ++ (if d.name.isNone then [.name] else [])

/-- The session, if nothing is missing. -/
def Draft.toSession (d : Draft) : Except Fault Session :=
  match d.version, d.origin, d.name with
  | some version, some origin, some name =>
    if h : d.times = [] then .error .noTime
    else .ok { d.toSessionDetails with version, origin, name, times_ne_nil := h }
  | _, _, _ => .error (.missing d.missing)

namespace Session

/-- The session of the lines of a document. -/
def ofLines (ls : List Line) : Except Error Session :=
  if ls = [] then .error ⟨.emptyDocument, some 1, none⟩
  else do
    let fs ← readLines .start ls
    (Draft.ofFields (fs.map NumberedField.field)).toSession.mapError fun fault =>
      ⟨fault, some (lastOwnNumber fs + 1), none⟩

/-- The session that a text stands for. -/
def ofText (t : Text) : Except Error Session :=
  (Line.ofText t).mapError .ofLineFault >>= ofLines

/-- The session that the bytes of a text stand for. -/
def ofBytes (bytes : List UInt8) : Except Error Session :=
  (Line.ofBytes bytes).mapError .ofLineFault >>= ofLines

end Session

/-! ### Sections on their own -/

namespace Document

/-- Read the lines of a single section. -/
def readSectionLines {φ : Type} (shape : Shape) (read : Char → Text → Except Field.Fault φ)
    (last : Option Nat) : List Line → Except Error (List φ)
  | [] => .ok []
  | l :: rest => do
    let (letter, value) ← splitLine l
    match shape.place last letter with
    | .slot i =>
      let field ← (read letter value).mapError fun f => .onLine l (.field f)
      return field :: (← readSectionLines shape read (some i) rest)
    | r => throw (.onLine l (refusal letter r))

/-- Read a single section and put it together.  A section that has lines has
its first one, without which there would be an error before. -/
def readSection {φ σ : Type} (shape : Shape) (read : Char → Text → Except Field.Fault φ)
    (ofFields? : List φ → Option σ) (ls : List Line) : Except Error σ := do
  match ofFields? (← readSectionLines shape read none ls) with
  | some s => return s
  | none => throw ⟨.emptyDocument, some 1, none⟩

end Document

namespace TimeSection

def ofLines : List Line → Except Error TimeSection :=
  readSection .time TimeField.read ofFields?

/-- The time section that a text stands for. -/
def ofText (t : Text) : Except Error TimeSection :=
  (Line.ofText t).mapError .ofLineFault >>= ofLines

def ofBytes (bytes : List UInt8) : Except Error TimeSection :=
  (Line.ofBytes bytes).mapError .ofLineFault >>= ofLines

end TimeSection

namespace MediaSection

def ofLines : List Line → Except Error MediaSection :=
  readSection .media MediaField.read ofFields?

/-- The media section that a text stands for. -/
def ofText (t : Text) : Except Error MediaSection :=
  (Line.ofText t).mapError .ofLineFault >>= ofLines

def ofBytes (bytes : List UInt8) : Except Error MediaSection :=
  (Line.ofBytes bytes).mapError .ofLineFault >>= ofLines

end MediaSection

end OfferAnswer
