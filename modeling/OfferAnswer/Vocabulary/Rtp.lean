/-
OfferAnswer/Vocabulary/Rtp.lean

The words of RTP media: codecs, directions of media, streams and header
extensions, and the meaning of a group of sources.
-/
import OfferAnswer.Vocabulary

namespace OfferAnswer

/-- What a group of sources stands for. -/
inductive SourceGroupMeaning where
  | flow
  | errorCorrection
  deriving DecidableEq

instance : Vocabulary SourceGroupMeaning where
  title := "SsrcGroupSemantics"
  members := [.flow, .errorCorrection]
  spelling
    | .flow => "FID".toList
    | .errorCorrection => "FEC".toList
  complete k := by cases k <;> decide
  spelling_inj := by decide +kernel

/-- Directions of header extensions. -/
inductive ExtensionDirection where
  | sendOnly
  | recvOnly
  | sendRecv
  | inactive
  deriving DecidableEq

instance : Vocabulary ExtensionDirection where
  title := "ExtensionMapDirection"
  members := [.sendOnly, .recvOnly, .sendRecv, .inactive]
  spelling
    | .sendOnly => "sendonly".toList
    | .recvOnly => "recvonly".toList
    | .sendRecv => "sendrecv".toList
    | .inactive => "inactive".toList
  complete k := by cases k <;> decide
  spelling_inj := by decide +kernel

/-- Directions of identified streams. -/
inductive StreamDirection where
  | send
  | recv
  deriving DecidableEq

instance : Vocabulary StreamDirection where
  title := "RidDirection"
  members := [.send, .recv]
  spelling
    | .send => "send".toList
    | .recv => "recv".toList
  complete k := by cases k <;> decide
  spelling_inj := by decide +kernel

/-- The direction seen from the other end. -/
def StreamDirection.reverse : StreamDirection → StreamDirection
  | .send => .recv
  | .recv => .send

@[simp] theorem StreamDirection.reverse_reverse (d : StreamDirection) :
    d.reverse.reverse = d := by
  cases d <;> rfl

/-- Directions in which media flow. -/
inductive MediaDirection where
  | sendOnly
  | recvOnly
  | sendRecv
  | inactive
  deriving DecidableEq

instance : Vocabulary MediaDirection where
  title := "MediaDirection"
  members := [.sendOnly, .recvOnly, .sendRecv, .inactive]
  spelling
    | .sendOnly => "sendonly".toList
    | .recvOnly => "recvonly".toList
    | .sendRecv => "sendrecv".toList
    | .inactive => "inactive".toList
  complete k := by cases k <;> decide
  spelling_inj := by decide +kernel

/-- The direction seen from the other end. -/
def MediaDirection.reverse : MediaDirection → MediaDirection
  | .sendOnly => .recvOnly
  | .recvOnly => .sendOnly
  | .sendRecv => .sendRecv
  | .inactive => .inactive

@[simp] theorem MediaDirection.reverse_reverse (d : MediaDirection) :
    d.reverse.reverse = d := by
  cases d <;> rfl

/-- Codecs and other payload formats. -/
inductive Codec where
  | pcma
  | pcmu
  | g722
  | opus
  | comfortNoise
  | telephoneEvent
  | h264
  | vp8
  | vp9
  | rtx
  | red
  | ulpfec
  | flexfec
  deriving DecidableEq

instance : Vocabulary Codec where
  title := "RtpCodecName"
  members :=
    [.pcma, .pcmu, .g722, .opus, .comfortNoise, .telephoneEvent, .h264, .vp8, .vp9,
     .rtx, .red, .ulpfec, .flexfec]
  spelling
    | .pcma => "PCMA".toList
    | .pcmu => "PCMU".toList
    | .g722 => "G722".toList
    | .opus => "opus".toList
    | .comfortNoise => "CN".toList
    | .telephoneEvent => "telephone-event".toList
    | .h264 => "H264".toList
    | .vp8 => "VP8".toList
    | .vp9 => "VP9".toList
    | .rtx => "rtx".toList
    | .red => "red".toList
    | .ulpfec => "ulpfec".toList
    | .flexfec => "flexfec".toList
  complete k := by cases k <;> decide
  spelling_inj := by decide +kernel

end OfferAnswer
