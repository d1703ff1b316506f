/-
OfferAnswer/Bundle/Payload.lean

Payloads: what the attributes of a medium say of one payload type, joined.

`Payload.ofAttributes` joins the codec, the format parameters, the feedback
and the payload type for retransmission under the number that they share;
`Payload.attributes` takes a payload apart again.  Where several attributes
set the same thing, the last one holds, at the place of the first.
-/
import OfferAnswer.Attribute.View

namespace OfferAnswer

/-- A payload type with all that is known of it. -/
structure Payload where
  payloadType : Int
  codec : Token Codec
  clockRate : Int
  channels : Option Int
  parameters : OrderedMap Text Text
  feedback : List (Text × Option Text)
  /-- The payload type in which lost packets are sent again. -/
  retransmission : Option Int
  deriving BEq

namespace Payload

/-! ### Joining -/

/-- Whether a codec carries media of its own, and neither repairs nor repeats
that of another. -/
def isMedia (c : Token Codec) : Bool :=
  !([Codec.rtx, .red, .ulpfec, .flexfec].any fun k => c == .known k)

/-- The number that digits stand for; other texts are no number. -/
def number? (t : Text) : Except Decimal.Fault (Option Int) :=
  if Decimal.isDigits t then some <$> Decimal.ofText? t else .ok none

/-- The codecs by payload type. -/
def codecs (as : AttributeList) : OrderedMap Int RtpMap :=
  .ofList (as.rtpMaps.map fun m => (m.payloadType, m))

/-- The format parameters by payload type. -/
def parameterSets (as : AttributeList) : OrderedMap Int (OrderedMap Text Text) :=
  .ofList (as.formatParameters.map fun p => (p.payloadType, p.byName))

/-- Enter a payload type under the one that it retransmits. -/
def addRetransmission (parameters : OrderedMap Int (OrderedMap Text Text))
    (found : OrderedMap Int Int) (entry : Int × RtpMap) :
    Except Decimal.Fault (OrderedMap Int Int) := do
  if entry.2.codec == .known .rtx then
    match (parameters.get? entry.1).bind (·.get? "apt".toList) with
    | some apt =>
      match ← number? apt with
      | some repeated => return found.insert repeated entry.1
      | none => return found
    | none => return found
  else return found

/-- The payload types for retransmission by the one that they retransmit. -/
def retransmissions (as : AttributeList) : Except Decimal.Fault (OrderedMap Int Int) :=
  (codecs as).entries.foldlM (addRetransmission (parameterSets as)) .empty

/-- The feedback that a payload type takes by its own number. -/
def feedbackFor (as : AttributeList) (payloadType : Int) : List (Text × Option Text) :=
  (as.feedback.filter fun f => f.payloadType == some payloadType).map fun f =>
    (f.id, f.parameter)

/-- The payload behind a payload type, if its codec is named and carries
media. -/
def behind? (as : AttributeList) (retransmissions : OrderedMap Int Int) (payloadType : Int) :
    Option Payload :=
  match (codecs as).get? payloadType with
  | some m =>
    if isMedia m.codec then some {
      payloadType
      codec := m.codec
      clockRate := m.clockRate
      channels := m.channels
      parameters := ((parameterSets as).get? payloadType).getD .empty
      feedback := feedbackFor as payloadType
      retransmission := retransmissions.get? payloadType }
    else none
  | none => none

/-- The payloads of a medium in the order of its formats. -/
def ofAttributes (formats : List Text) (as : AttributeList) :
    Except Decimal.Fault (List Payload) := do
  let retransmissions ← retransmissions as
  let numbers ← formats.mapM number?
  return numbers.filterMap fun n => n.bind (behind? as retransmissions)

/-! ### Taking apart -/

/-- The formats that a payload takes up. -/
def formats (p : Payload) : List Text :=
  Decimal.text p.payloadType :: (p.retransmission.map Decimal.text).toList

/-- Parameters as one text. -/
def parameterText (ps : OrderedMap Text Text) : Text :=
  [';'].intercalate (ps.entries.map fun e => e.1 ++ '=' :: e.2)

/-- The codec and the parameter of the payload type for retransmission. -/
def retransmissionAttributes (p : Payload) (payloadType : Int) : List Attribute :=
  [.rtpMap { payloadType, codec := .known .rtx, clockRate := p.clockRate, channels := p.channels },
   .formatParameters { payloadType, parameters := "apt=".toList ++ Decimal.text p.payloadType }]

/-- The attributes of a payload. -/
def attributes (p : Payload) : List Attribute :=
  .rtpMap { payloadType := p.payloadType, codec := p.codec, clockRate := p.clockRate,
            channels := p.channels }
    :: (p.feedback.map fun f =>
      .feedback { payloadType := some p.payloadType, id := f.1, parameter := f.2 })
    ++ (if p.parameters.isEmpty then []
        else [.formatParameters
          { payloadType := p.payloadType, parameters := parameterText p.parameters }])
    ++ (p.retransmission.map p.retransmissionAttributes).getD []

end Payload

end OfferAnswer
