/-
OfferAnswer/Bundle/Media.lean

RTP media: a media section as a member of a bundle.

What a section says of the transport is left out, since the bundle keeps that
once for all its media.
-/
import OfferAnswer.Bundle.Encoding
import OfferAnswer.Bundle.Error
import OfferAnswer.Bundle.Payload
import OfferAnswer.Document.Section

namespace OfferAnswer

/-- A medium of a bundle. -/
structure RtpMedia where
  kind : Token MediaKind
  protocol : Token Protocol
  mid : Text
  port : Int
  bandwidths : OrderedMap (Token BandwidthKind) Int
  payloads : List Payload
  direction : MediaDirection
  encodings : List Encoding
  extensions : OrderedMap Text Int
  rtcpMux : Bool
  rtcpMuxOnly : Bool
  rtcpReducedSize : Bool
  deriving BEq

/-! ### Directions -/

namespace MediaDirection

/-- The attribute that states a direction. -/
def toAttribute (d : MediaDirection) : Attribute := .flag (.direction d)

/-- The one direction that is stated; both ways, if none is. -/
def ofAttributes (as : AttributeList) : Except Bundle.Fault MediaDirection :=
  match (Vocabulary.members (κ := MediaDirection)).filter fun d => as.hasFlag (.direction d) with
  | [] => .ok .sendRecv
  | [d] => .ok d
  | _ => .error .directions

end MediaDirection

namespace RtpMedia

/-- The port that stands for no port of its own. -/
def discardPort : Int := 9

/-- A medium of which nothing more is known. -/
def blank (kind : Token MediaKind) (protocol : Token Protocol) (mid : Text) : RtpMedia where
  kind
  protocol
  mid
  port := discardPort
  bandwidths := .empty
  payloads := []
  direction := .sendRecv
  encodings := []
  extensions := .empty
  rtcpMux := false
  rtcpMuxOnly := false
  rtcpReducedSize := false

/-! ### Reading -/

/-- The header extensions by their names, without those that have a direction
or attributes. -/
def extensionsOf (as : AttributeList) : OrderedMap Text Int :=
  .ofList <| (as.extensions.filter fun e => e.direction.isNone && e.attributes.isEmpty).map
    fun e => (e.uri, e.id)

/-- The medium of a section. -/
def ofSection (m : MediaSection) : Except Bundle.Fault RtpMedia :=
  match m.attributes.findSome? (Attribute.labelled? .mid) with
  | none => .error .noMid
  | some mid => do
    let payloads ← (Payload.ofAttributes m.medium.formats m.attributes).mapError .number
    let direction ← MediaDirection.ofAttributes m.attributes
    return {
      kind := m.medium.kind
      protocol := m.medium.protocol
      mid
      port := m.medium.port
      bandwidths := m.bandwidths.amounts
      payloads
      direction
      encodings := Encoding.ofAttributes m.attributes
      extensions := extensionsOf m.attributes
      rtcpMux := m.attributes.hasFlag .rtcpMux
      rtcpMuxOnly := m.attributes.hasFlag .rtcpMuxOnly
      rtcpReducedSize := m.attributes.hasFlag .rtcpReducedSize }

/-! ### Writing -/

/-- The address that stands for no address. -/
def anyAddress : Text := "0.0.0.0".toList

/-- The flags that are set. -/
def flags (m : RtpMedia) : List Attribute :=
  (if m.rtcpMux then [.flag .rtcpMux] else [])
    ++ (if m.rtcpMuxOnly then [.flag .rtcpMuxOnly] else [])
    ++ (if m.rtcpReducedSize then [.flag .rtcpReducedSize] else [])

/-- The attributes of a medium on a transport. -/
def attributes (m : RtpMedia) (transport : List Attribute) : List Attribute :=
  .controlPort
      { port := discardPort, network := some .internet, family := some .ip4,
        address := some anyAddress }
    :: transport
    ++ .label .mid m.mid
    :: (m.extensions.entries.map fun e =>
      .extension { id := e.2, uri := e.1, direction := none, attributes := [] })
    ++ m.direction.toAttribute :: m.flags
    ++ m.payloads.flatMap Payload.attributes
    ++ Encoding.attributes m.encodings

/-- The section of a medium on a transport. -/
def toSection (m : RtpMedia) (transport : List Attribute) : MediaSection where
  medium :=
    { kind := m.kind, port := discardPort, protocol := m.protocol,
      formats := m.payloads.flatMap Payload.formats, ports := none }
  title := none
  connection := some { network := .internet, family := .ip4, address := anyAddress }
  bandwidths := m.bandwidths.map fun kind amount => { kind, amount }
  key := none
  attributes := m.attributes transport

/-! ### The other end -/

/-- The medium that answers this one: directions turn round, sources are not
reflected, and bandwidths are left open. -/
def answer (m : RtpMedia) : RtpMedia :=
  { m with
    bandwidths := .empty
    direction := m.direction.reverse
    encodings := m.encodings.filterMap Encoding.answer? }

end RtpMedia

end OfferAnswer
