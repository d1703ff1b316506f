/-
OfferAnswer/Document/Edit.lean

Edits of a session: its own parts and those of its media are set or taken out,
attributes are added and removed, and whole times and media come and go.

Edits work on worksheets, because a part that is required may be taken out too.
An edit of a part that has been taken out fails, and an edit that fails changes
nothing.
-/
import OfferAnswer.Document.Worksheet
import OfferAnswer.Index

namespace OfferAnswer

/-- What an edit is aimed at: the session itself or one of its media. -/
inductive Target where
  | session
  | media (i : Int)

/-- A change to a session. -/
inductive Edit where
  /-- Put a field at the place of a single line. -/
  | setLine (t : Target) (place : Char) (f : DocumentField)
  /-- Take out the part at a place. -/
  | strike (t : Target) (place : Char)
  | putBandwidth (t : Target) (b : Bandwidth)
  | dropBandwidth (t : Target) (kind : Token BandwidthKind)
  | append (t : Target) (name : Text) (value : Option Text)
  | remove (t : Target) (name : Text)
  | moveMedia (i j : Int)
  | dropMedia (i : Int)
  | addMedia (m : MediaSection)
  | addTime (t : TimeSection)
  /-- Keep the times at some indexes, in this order. -/
  | keepTimes (is : List Int)
  /-- Take out the zone of a time. -/
  | strikeZone (i : Int)

namespace Edit

/-- What a part is there for: to take an entry, to give one of its elements or
all of them, or to do something that has a name. -/
inductive Use where
  | entry
  | element
  | each
  | named (name : String)

/-- Why an edit fails. -/
inductive Fault where
  | noSection
  | noTime
  | attr (fault : Attribute.Fault)
  /-- The part has been taken out. -/
  | absent (use : Use)

def Use.complaint : Use → String
  | entry => "does not support item assignment"
  | element => "is not subscriptable"
  | each => "is not iterable"
  | named name => "has no attribute '" ++ name ++ "'"

/-- What is said where a part is used that has been taken out. -/
def Use.message (u : Use) : String := "'NoneType' object " ++ u.complaint

/-- A part, which is there to be used. -/
def part {α : Type} (use : Use) (p : Option α) : Except Fault α :=
  p.elim (.error (.absent use)) .ok

/-- What stands at an index. -/
def atIndex {α : Type} (r : Option α) : Except Fault α := r.elim (.error .noSection) .ok

/-! ### Targets -/

/-- The sheet of the target. -/
def sheetAt (w : Worksheet) : Target → Except Fault Sheet
  | .session => .ok w.toSheet
  | .media i => do atIndex (Index.get? (← part .element w.media) i)

/-- The worksheet with another sheet for the target. -/
def putSheet (w : Worksheet) (s : Sheet) : Target → Worksheet
  | .session => { w with toSheet := s }
  | .media i => { w with media := w.media.bind fun ss => Index.modify? ss i fun _ => s }

/-- Change the sheet of the target. -/
def inSheet (w : Worksheet) (t : Target) (f : Sheet → Except Fault Sheet) :
    Except Fault Worksheet := do
  return putSheet w (← f (← sheetAt w t)) t

/-- The field at a place of the target, for the sake of something in it. -/
def lineAt (w : Worksheet) (t : Target) (place : Char) (name : String) :
    Except Fault DocumentField := do
  part (.named name) ((← sheetAt w t).line place)

/-! ### Edits -/

/-- Change the bandwidths of a sheet. -/
def inBandwidths (use : Use) (f : Bandwidths → Bandwidths) (s : Sheet) : Except Fault Sheet := do
  return { s with bandwidths := some (f (← part use s.bandwidths)) }

/-- Carry out an edit. -/
def apply (w : Worksheet) : Edit → Except Fault Worksheet
  | setLine t place f => inSheet w t fun s => .ok (s.setLine place (some f))
  | strike .session place => .ok (w.strike place)
  | strike t place => inSheet w t fun s => .ok (s.strike place)
  | putBandwidth t b => inSheet w t (inBandwidths .entry (·.put b))
  | dropBandwidth t kind => inSheet w t (inBandwidths (.named "pop") (·.erase kind))
  | append t name value => inSheet w t fun s => do
    let as ← part (.named "append_raw") s.attributes
    let a ← (Attribute.ofNameValue name value).mapError .attr
    return { s with attributes := some (as ++ [a]) }
  | remove t name => inSheet w t fun s => do
    let as ← part (.named "remove_all") s.attributes
    return { s with attributes := some (as.without name) }
  | moveMedia i j => do
    let (m, rest) ← atIndex (Index.take? (← part (.named "pop") w.media) i)
    return { w with media := some (Index.insert rest j m) }
  | dropMedia i => do
    let (_, rest) ← atIndex (Index.take? (← part (.named "pop") w.media) i)
    return { w with media := some rest }
  | addMedia m => do
    return { w with media := some ((← part (.named "append") w.media) ++ [m.sheet]) }
  | addTime t => do
    return { w with times := some ((← part (.named "append") w.times) ++ [t]) }
  -- A session has a time, so one at least is kept.
  | keepTimes [] => .error .noTime
  | keepTimes is => do
    let times ← atIndex (is.mapM (Index.get? (← part .element w.times)))
    return { w with times := some times }
  | strikeZone i => do
    let times ← atIndex (Index.modify? (← part .element w.times) i ({ · with zone := none }))
    return { w with times := some times }

/-! ### Looking at a worksheet -/

/-- Amounts of bandwidth by kind. -/
abbrev Amounts := OrderedMap (Token BandwidthKind) Int

/-- The amounts of the bandwidths of a sheet. -/
def amounts (s : Sheet) : Except Fault Amounts :=
  Bandwidths.amounts <$> part (.named "items") s.bandwidths

/-- The medium of a media section. -/
def medium (s : Sheet) : Except Fault Medium :=
  match s.line 'm' with
  | some (.media (.medium m)) => .ok m
  | _ => .error (.absent (.named "media"))

/-- The amounts of the session, and each medium with its own. -/
def overview (w : Worksheet) : Except Fault (Amounts × List (Medium × Amounts)) := do
  let own ← amounts w.toSheet
  let media ← part .each w.media
  return (own, ← media.mapM fun s => return (← medium s, ← amounts s))

end Edit

end OfferAnswer
