/-
OfferAnswer/Document/Section.lean

The sections of a description: times, media, and the session that holds them.

A draft is a session in which the required parts may still be missing; a
session has them all, and a time at least.  A section is a list of fields in a
fixed order, `fields`, and its text is the text of these fields line by line.
-/
import OfferAnswer.Document.Order
import OfferAnswer.Field.Media
import OfferAnswer.Field.Session
import OfferAnswer.Field.Time
import OfferAnswer.Text.Utf8

namespace OfferAnswer

/-- Change the last element of a list. -/
def updateLast {α : Type} (f : α → α) : List α → List α
  | [] => []
  | [x] => [f x]
  | x :: rest => x :: updateLast f rest

/-- A line as written. -/
def endLine (t : Text) : Text := t ++ AttributeList.lineEnd

/-! ### Times -/

/-- A time section. -/
structure TimeSection where
  active : ActiveTime
  repetitions : List Repetition
  zone : Option (List Adjustment)
  deriving BEq

namespace TimeSection

def ofActive (a : ActiveTime) : TimeSection := ⟨a, [], none⟩

/-- Enter a field. -/
def add (t : TimeSection) : TimeField → TimeSection
  | .active a => { t with active := a }
  | .repetition r => { t with repetitions := t.repetitions ++ [r] }
  | .zone adjustments => { t with zone := some adjustments }

/-- The section that begins with the first field and goes on with the others. -/
def ofFields? : List TimeField → Option TimeSection
  | .active a :: rest => some (rest.foldl add (ofActive a))
  | _ => none

def fields (t : TimeSection) : List TimeField :=
  .active t.active :: t.repetitions.map .repetition ++ (t.zone.map .zone).toList

def text (t : TimeSection) : Text := t.fields.flatMap fun f => endLine f.text

end TimeSection

/-! ### Media -/

/-- A media section. -/
structure MediaSection where
  medium : Medium
  title : Option Text
  connection : Option Connection
  bandwidths : Bandwidths
  key : Option EncryptionKey
  attributes : AttributeList
  deriving BEq

namespace MediaSection

def ofMedium (m : Medium) : MediaSection := ⟨m, none, none, .empty, none, []⟩

/-- Enter a field. -/
def add (m : MediaSection) : MediaField → MediaSection
  | .medium medium => { m with medium }
  | .title t => { m with title := some t }
  | .connection c => { m with connection := some c }
  | .bandwidth b => { m with bandwidths := m.bandwidths.put b }
  | .key k => { m with key := some k }
  | .attr a => { m with attributes := m.attributes ++ [a] }

/-- The section that begins with the first field and goes on with the others. -/
def ofFields? : List MediaField → Option MediaSection
  | .medium m :: rest => some (rest.foldl add (ofMedium m))
  | _ => none

def fields (m : MediaSection) : List MediaField :=
  .medium m.medium
    :: (m.title.map .title).toList
    ++ (m.connection.map .connection).toList
    ++ m.bandwidths.entries.map (fun e => .bandwidth e.2)
    ++ (m.key.map .key).toList
    ++ m.attributes.map .attr

def text (m : MediaSection) : Text := m.fields.flatMap fun f => endLine f.text

end MediaSection

/-! ### Sessions -/

/-- The parts of a session that it may lack, and its times. -/
structure SessionDetails where
  information : Option Text
  uri : Option Text
  email : Option Text
  phone : Option Text
  connection : Option Connection
  bandwidths : Bandwidths
  times : List TimeSection
  key : Option EncryptionKey
  attributes : AttributeList
  media : List MediaSection
  deriving BEq

/-- A session in which anything may be missing. -/
structure Draft extends SessionDetails where
  version : Option Text
  origin : Option Origin
  name : Option (Option Text)
  deriving BEq

/-- A session. -/
structure Session extends SessionDetails where
  version : Text
  origin : Origin
  name : Option Text
  times_ne_nil : times ≠ []

/-- A field of a document, with the section that owns it. -/
inductive DocumentField where
  | session (f : SessionField)
  | time (f : TimeField)
  | media (f : MediaField)
  deriving BEq

namespace DocumentField

def owner : DocumentField → Owner
  | session _ => .session
  | time _ => .time
  | media _ => .media

def letter : DocumentField → Char
  | session f => f.letter
  | time f => f.letter
  | media f => f.letter

def text : DocumentField → Text
  | session f => f.text
  | time f => f.text
  | media f => f.text

def description : DocumentField → String
  | session f => f.description
  | time f => f.description
  | media f => f.description

/-- Whether the field is short enough to be written; only times can be too
long. -/
def isWritable : DocumentField → Bool
  | time f => f.isWritable
  | session _ | media _ => true

end DocumentField

namespace Draft

def empty : Draft where
  information := none
  uri := none
  email := none
  phone := none
  connection := none
  bandwidths := .empty
  times := []
  key := none
  attributes := []
  media := []
  version := none
  origin := none
  name := none

/-- Enter a field of the session itself. -/
def addOwn (d : Draft) : SessionField → Draft
  | .version v => { d with version := some v }
  | .origin o => { d with origin := some o }
  | .name n => { d with name := some n }
  | .information t => { d with information := some t }
  | .uri t => { d with uri := some t }
  | .email t => { d with email := some t }
  | .phone t => { d with phone := some t }
  | .connection c => { d with connection := some c }
  | .bandwidth b => { d with bandwidths := d.bandwidths.put b }
  | .key k => { d with key := some k }
  | .attr a => { d with attributes := d.attributes ++ [a] }

/-- Enter a field: an active time and a medium begin a section, and the other
fields of times and media belong to the last one. -/
def add (d : Draft) : DocumentField → Draft
  | .session f => d.addOwn f
  | .time (.active a) => { d with times := d.times ++ [.ofActive a] }
  | .time f => { d with times := updateLast (·.add f) d.times }
  | .media (.medium m) => { d with media := d.media ++ [.ofMedium m] }
  | .media f => { d with media := updateLast (·.add f) d.media }

/-- The draft that the fields build up. -/
def ofFields (fs : List DocumentField) : Draft := fs.foldl add empty

/-- The session's own fields in front of the times. -/
def ownBefore (d : Draft) : List SessionField :=
  (d.version.map .version).toList
    ++ (d.origin.map .origin).toList
    ++ (d.name.map .name).toList
    ++ (d.information.map .information).toList
    ++ (d.uri.map .uri).toList
    ++ (d.email.map .email).toList
    ++ (d.phone.map .phone).toList
    ++ (d.connection.map .connection).toList
    ++ d.bandwidths.entries.map fun e => .bandwidth e.2

/-- The session's own fields between the times and the media. -/
def ownAfter (d : Draft) : List SessionField :=
  (d.key.map .key).toList ++ d.attributes.map .attr

/-- The fields in the order in which they are written. -/
def fields (d : Draft) : List DocumentField :=
  d.ownBefore.map .session
    ++ d.times.flatMap (fun t => t.fields.map .time)
    ++ d.ownAfter.map .session
    ++ d.media.flatMap (fun m => m.fields.map .media)

def text (d : Draft) : Text := d.fields.flatMap fun f => endLine f.text

end Draft

namespace Session

/-- The session as a draft that lacks nothing. -/
def draft (s : Session) : Draft :=
  { s.toSessionDetails with
    version := some s.version, origin := some s.origin, name := some s.name }

instance : BEq Session where
  beq a b := a.draft == b.draft

def text (s : Session) : Text := s.draft.text

/-- The session in UTF-8. -/
def bytes (s : Session) : List UInt8 := Text.Utf8.encode s.text

/-- What kind of data a description is. -/
def mimeType : String := "application/sdp"

end Session

end OfferAnswer
