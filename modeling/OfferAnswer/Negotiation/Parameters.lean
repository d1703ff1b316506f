/-
OfferAnswer/Negotiation/Parameters.lean

The properties that a negotiation hands to the engine: those of the
connection, and those of the audio and the video of either end.
-/
import OfferAnswer.Bundle.Basic
import OfferAnswer.Properties

namespace OfferAnswer

/-! ### Media -/

/-- The name of a property of a medium. -/
def RtpMedia.propertyName (m : RtpMedia) (path : List Text) : Text :=
  ['.'].intercalate (m.kind.text :: path)

/-- An index as part of a name. -/
def indexText (i : Nat) : Text := Decimal.text i

/-- The properties of a payload. -/
def RtpMedia.payloadProperties (m : RtpMedia) (i : Nat) (p : Payload) :
    List (Text × Property) :=
  let name (last : String) := m.propertyName ["codecs".toList, indexText i, last.toList]
  [(name "codec", .text p.codec.text), (name "pt", .number p.payloadType)]
    ++ (p.retransmission.map fun n => (name "rtx", .number n)).toList

/-- The properties of a header extension. -/
def RtpMedia.extensionProperties (m : RtpMedia) (i : Nat) (e : Text × Int) :
    List (Text × Property) :=
  let name (last : String) := m.propertyName ["ext".toList, indexText i, last.toList]
  [(name "id", .number e.2), (name "uri", .text e.1)]

/-- The properties of a medium: its payloads and its extensions, each with
their number. -/
def RtpMedia.properties (m : RtpMedia) : List (Text × Property) :=
  let length (list : String) := m.propertyName [list.toList, "length".toList]
  (m.payloads.mapIdx m.payloadProperties).flatten
    ++ [(length "codecs", .number m.payloads.length)]
    ++ (m.extensions.entries.mapIdx m.extensionProperties).flatten
    ++ [(length "ext", .number m.extensions.size)]

/-- The properties of the first audio and the first video of a bundle. -/
def Bundle.mediaProperties (b : Bundle) : Properties :=
  .ofList <| [MediaKind.audio, .video].flatMap fun kind =>
    match b.media.find? fun m => m.kind == .known kind with
    | some m => m.properties
    | none => []

/-! ### Connections -/

/-- The properties of the connection between an offer and its answer. -/
def connectionProperties (offer answer : Bundle) (function : Token HashFunction)
    (remote : Fingerprint) : Properties :=
  .ofList [
    ("ice.localUsername".toList, .text answer.iceUser),
    ("ice.localPassword".toList, .text answer.icePassword),
    ("ice.remoteUsername".toList, .text offer.iceUser),
    ("ice.remotePassword".toList, .text offer.icePassword),
    ("dtls.setup".toList, .text (Vocabulary.spelling offer.role)),
    ("dtls.hash".toList, .text (Text.upper function.text)),
    ("dtls.fingerprint".toList, .text remote.text),
    ("disableSTUNKeepAlive".toList, .flag false),
    ("srtpProtectionProfiles".toList, .text [])]

end OfferAnswer
