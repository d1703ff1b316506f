/-
OfferAnswer/Capability.lean

What the media engine can handle, for each kind of media, and the restriction
of bundles to it.

Nothing is refused: what is not supported is left out, and a medium of an
unknown kind keeps neither payloads nor extensions.
-/
import OfferAnswer.Bundle.Basic

namespace OfferAnswer

/-- What is supported of a medium. -/
structure Capability where
  codecs : List Codec
  feedback : List (Text × Option Text)
  extensions : List Text

namespace Capability

def audio : Capability where
  codecs := [.opus, .pcmu, .pcma]
  feedback := []
  extensions := [
    "urn:ietf:params:rtp-hdrext:ssrc-audio-level".toList,
    "urn:ietf:params:rtp-hdrext:sdes:mid".toList,
    "urn:ietf:params:rtp-hdrext:sdes:rtp-stream-id".toList,
    "http://www.webrtc.org/experiments/rtp-hdrext/abs-send-time".toList]

def video : Capability where
  codecs := [.vp8, .vp9, .h264]
  feedback := [
    ("goog-remb".toList, none),
    ("transport-cc".toList, none),
    ("ccm".toList, some "fir".toList),
    ("nack".toList, none),
    ("nack".toList, some "pli".toList)]
  extensions := [
    "urn:3gpp:video-orientation".toList,
    "http://www.ietf.org/id/draft-holmer-rmcat-transport-wide-cc-extensions-01".toList,
    "urn:ietf:params:rtp-hdrext:sdes:mid".toList,
    "urn:ietf:params:rtp-hdrext:sdes:rtp-stream-id".toList,
    "urn:ietf:params:rtp-hdrext:sdes:repaired-rtp-stream-id".toList,
    "http://www.webrtc.org/experiments/rtp-hdrext/abs-send-time".toList]

/-- Nothing at all. -/
def nothing : Capability := ⟨[], [], []⟩

/-- What is supported of a kind of media. -/
def ofKind (kind : Token MediaKind) : Capability :=
  if kind == .known .audio then audio
  else if kind == .known .video then video
  else nothing

/-- Whether the packets of a payload come in a supported form; for H.264 they
have to be in the mode that is not interleaved. -/
def supportsMode (p : Payload) : Bool :=
  !(p.codec == .known .h264)
    || p.parameters.get? "packetization-mode".toList == some ['1']

/-- Whether a payload is supported. -/
def supports (c : Capability) (p : Payload) : Bool :=
  c.codecs.any (fun k => p.codec == .known k) && supportsMode p

/-- The payload with supported feedback only. -/
def restrictPayload (c : Capability) (p : Payload) : Payload :=
  { p with feedback := p.feedback.filter (· ∈ c.feedback) }

/-- The medium with what is supported only. -/
def restrictMedia (c : Capability) (m : RtpMedia) : RtpMedia :=
  { m with
    payloads := (m.payloads.filter c.supports).map c.restrictPayload
    extensions := m.extensions.filter fun uri _ => c.extensions.contains uri }

end Capability

/-- The medium restricted to what is supported of its kind. -/
def RtpMedia.toCapability (m : RtpMedia) : RtpMedia :=
  (Capability.ofKind m.kind).restrictMedia m

/-- The bundle restricted to what is supported of each medium. -/
def Bundle.toCapability (b : Bundle) : Bundle :=
  { b with media := b.media.map RtpMedia.toCapability }

end OfferAnswer
