/-
OfferAnswer/Bundle/Encoding.lean

Encodings: the forms in which a medium is sent, each known by a stream
identifier or by a source.

All identified streams without restrictions are encodings.  One source at most
is: the first member of the first flow group, or else the first source that is
named, and only if it has a canonical name.
-/
import OfferAnswer.Attribute.View

namespace OfferAnswer

/-- A form in which a medium is sent. -/
inductive Encoding where
  | stream (id : Text) (direction : StreamDirection)
  | source (cname : Text) (source : Int) (retransmission : Option Int)
  deriving DecidableEq

namespace Encoding

def isStream : Encoding → Bool
  | stream .. => true
  | source .. => false

/-! ### Reading -/

/-- A stream identifier as an encoding. -/
def ofStreamId? (s : StreamId) : Option Encoding :=
  if s.restrictions.isNone then some (.stream s.id s.direction) else none

/-- The source that sends, and the one that retransmits for it. -/
def sender? (as : AttributeList) : Option (Int × Option Int) :=
  match as.sourceGroups.find? fun g => g.meaning == .known .flow with
  | some g => some (g.sources.head g.ne_nil, g.sources.tail.head?)
  | none => as.sources.head?.map fun a => (a.source, none)

/-- The canonical name of a source, in its last attribute of that name. -/
def canonicalName? (as : AttributeList) (s : Int) : Option Text :=
  (as.sources.filter fun a =>
    a.source == s && Text.lower a.name == "cname".toList).getLast?.bind
      SourceAttribute.value

/-- The encoding known by a source. -/
def ofSources? (as : AttributeList) : Option Encoding := do
  let (s, retransmission) ← sender? as
  let cname ← canonicalName? as s
  return .source cname s retransmission

/-- The encodings of a medium. -/
def ofAttributes (as : AttributeList) : List Encoding :=
  as.streamIds.filterMap ofStreamId? ++ (ofSources? as).toList

/-! ### Writing -/

/-- An attribute that gives a source its canonical name. -/
def nameAttribute (source : Int) (cname : Text) : Attribute :=
  .source { source, name := "cname".toList, value := some cname }

/-- The attributes of one encoding. -/
def ownAttributes : Encoding → List Attribute
  | stream id direction => [.streamId { id, direction, restrictions := none }]
  | source cname s none => [nameAttribute s cname]
  | source cname s (some r) =>
    [nameAttribute s cname, nameAttribute r cname,
     .sourceGroup {
      meaning := .known .flow
      sources := [s, r]
      ne_nil := List.cons_ne_nil _ _ }]

/-- The streams in one direction. -/
def streamsIn (d : StreamDirection) (es : List Encoding) : List Text :=
  es.filterMap fun
    | stream id direction => if direction = d then some id else none
    | source .. => none

/-- The streams of each direction that has some, each without alternatives. -/
def simulcastStreams (es : List Encoding) :
    OrderedMap StreamDirection (List (List Text)) :=
  .ofList <| [StreamDirection.send, .recv].filterMap fun d =>
    let ids := streamsIn d es
    if ids.isEmpty then none else some (d, ids.map ([·]))

/-- The attributes of the encodings of a medium. -/
def attributes (es : List Encoding) : List Attribute :=
  -- A direction without streams is not listed, and no direction makes no line.
  let streams := simulcastStreams es
  es.flatMap ownAttributes ++ if streams.isEmpty then [] else [.simulcast ⟨streams⟩]

/-! ### The other end -/

/-- The encoding that answers this one: streams turn round, and sources are
not reflected. -/
def answer? : Encoding → Option Encoding
  | stream id direction => some (.stream id direction.reverse)
  | source .. => none

end Encoding

end OfferAnswer
