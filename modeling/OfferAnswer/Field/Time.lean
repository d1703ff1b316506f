/-
OfferAnswer/Field/Time.lean

The fields of a time section: when the session is active, how it repeats, and
how the clock is adjusted in between.  Times are kept in seconds and written
without a unit.
-/
import OfferAnswer.Duration
import OfferAnswer.Field.Basic

namespace OfferAnswer

open OfferAnswer.Field

/-- When the session begins and ends. -/
structure ActiveTime where
  start : Int
  stop : Int
  deriving BEq

/-- How often the session repeats, how long it lasts, and when each repetition
begins. -/
structure Repetition where
  interval : Int
  duration : Int
  offsets : List Int
  deriving BEq

/-- An adjustment of the clock at a time. -/
structure Adjustment where
  time : Int
  offset : Int
  deriving BEq

/-- A line of a time section. -/
inductive TimeField where
  | active (a : ActiveTime)
  | repetition (r : Repetition)
  | zone (adjustments : List Adjustment)
  deriving BEq

namespace TimeField

/-! ### Reading -/

/-- A time on the line with a letter. -/
def seconds (letter : Char) (signed : Bool) (t : Text) : Except Fault Int :=
  (Duration.read signed t).mapError fun
    | .malformed raw => .time raw
    | .tooLong digits => .value letter (.number (.tooLong digits))

def readActive (raw : Text) : Except Fault ActiveTime := do
  match ← exactly 2 raw with
  | [start, stop] =>
    return { start := ← seconds 't' false start, stop := ← seconds 't' false stop }
  | _ => throw (.wordCount 2 raw)

def readRepetition (raw : Text) : Except Fault Repetition := do
  let ws := Text.words raw
  if ws.contains [] then throw (.repeats raw)
  match ws with
  | interval :: duration :: offset :: offsets =>
    return {
      interval := ← seconds 'r' false interval
      duration := ← seconds 'r' false duration
      offsets := ← (offset :: offsets).mapM (seconds 'r' false) }
  | _ => throw (.repeats raw)

/-- Words two by two as adjustments. -/
def readAdjustments (raw : Text) : List Text → Except Fault (List Adjustment)
  | [] => .ok []
  | [_] => .error (.zone raw)
  | time :: offset :: rest => do
    let adjustment : Adjustment :=
      { time := ← seconds 'z' false time, offset := ← seconds 'z' true offset }
    return adjustment :: (← readAdjustments raw rest)

def readZone (raw : Text) : Except Fault (List Adjustment) :=
  let ws := Text.words raw
  if ws.length % 2 ≠ 0 ∨ ws.contains [] then .error (.zone raw) else readAdjustments raw ws

/-- The field with a letter and a value. -/
def read (letter : Char) (raw : Text) : Except Fault TimeField :=
  match letter with
  | 't' => active <$> readActive raw
  | 'r' => repetition <$> readRepetition raw
  | 'z' => zone <$> readZone raw
  | _ => .error (.unknownLetter letter)

/-! ### Writing -/

def letter : TimeField → Char
  | active _ => 't'
  | repetition _ => 'r'
  | zone _ => 'z'

/-- The integers of a field, in the order in which they are written. -/
def integers : TimeField → List Int
  | active a => [a.start, a.stop]
  | repetition r => r.interval :: r.duration :: r.offsets
  | zone adjustments => adjustments.flatMap fun a => [a.time, a.offset]

/-- The value of a field: its integers between blanks. -/
def value (f : TimeField) : Text := Text.unwords (f.integers.map Decimal.text)

def text (f : TimeField) : Text := line f.letter f.value

/-- Whether every integer of the field is short enough to be written. -/
def isWritable (f : TimeField) : Bool := f.integers.all Decimal.isWritable

def description : TimeField → String
  | active _ => "time the session is active"
  | repetition _ => "zero or more repeat times"
  | zone _ => "time zone adjustments"

end TimeField

end OfferAnswer
