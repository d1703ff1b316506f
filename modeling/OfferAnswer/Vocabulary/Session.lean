/-
OfferAnswer/Vocabulary/Session.lean

The words of the session and media lines: networks, addresses, bandwidths,
media, transport protocols, and the meaning of a group of media.
-/
import OfferAnswer.Vocabulary

namespace OfferAnswer

/-- Networks of origin and connection lines. -/
inductive Network where
  | internet
  deriving DecidableEq

instance : Vocabulary Network where
  title := "NetworkType"
  members := [.internet]
  spelling
    | .internet => "IN".toList
  complete k := by cases k; decide
  spelling_inj := by decide +kernel

/-- Address families of origin and connection lines. -/
inductive AddressFamily where
  | ip4
  | ip6
  deriving DecidableEq

instance : Vocabulary AddressFamily where
  title := "AddressType"
  members := [.ip4, .ip6]
  spelling
    | .ip4 => "IP4".toList
    | .ip6 => "IP6".toList
  complete k := by cases k <;> decide
  spelling_inj := by decide +kernel

/-- What a bandwidth line limits. -/
inductive BandwidthKind where
  | conferenceTotal
  | applicationSpecific
  | transportIndependent
  deriving DecidableEq

instance : Vocabulary BandwidthKind where
  title := "BandwidthType"
  members := [.conferenceTotal, .applicationSpecific, .transportIndependent]
  spelling
    | .conferenceTotal => "CT".toList
    | .applicationSpecific => "AS".toList
    | .transportIndependent => "TIAS".toList
  complete k := by cases k <;> decide
  spelling_inj := by decide +kernel

/-- Kinds of media. -/
inductive MediaKind where
  | audio
  | video
  | text
  | application
  | message
  deriving DecidableEq

instance : Vocabulary MediaKind where
  title := "MediaType"
  members := [.audio, .video, .text, .application, .message]
  spelling
    | .audio => "audio".toList
    | .video => "video".toList
    | .text => "text".toList
    | .application => "application".toList
    | .message => "message".toList
  complete k := by cases k <;> decide
  spelling_inj := by decide +kernel

/-- Transport protocols of media. -/
inductive Protocol where
  | udp
  | rtpAvp
  | rtpAvpf
  | rtpSavp
  | rtpSavpf
  | tcpTlsRtpSavp
  | tcpTlsRtpSavpf
  | udpTlsRtpSavp
  | udpTlsRtpSavpf
  | udpDtlsSctp
  | tcpDtlsSctp
  | dtlsSctp
  deriving DecidableEq

instance : Vocabulary Protocol where
  title := "TransportProtocol"
  members :=
    [.udp, .rtpAvp, .rtpAvpf, .rtpSavp, .rtpSavpf, .tcpTlsRtpSavp, .tcpTlsRtpSavpf,
     .udpTlsRtpSavp, .udpTlsRtpSavpf, .udpDtlsSctp, .tcpDtlsSctp, .dtlsSctp]
  spelling
    | .udp => "udp".toList
    | .rtpAvp => "RTP/AVP".toList
    | .rtpAvpf => "RTP/AVPF".toList
    | .rtpSavp => "RTP/SAVP".toList
    | .rtpSavpf => "RTP/SAVPF".toList
    | .tcpTlsRtpSavp => "TCP/TLS/RTP/SAVP".toList
    | .tcpTlsRtpSavpf => "TCP/TLS/RTP/SAVPF".toList
    | .udpTlsRtpSavp => "UDP/TLS/RTP/SAVP".toList
    | .udpTlsRtpSavpf => "UDP/TLS/RTP/SAVPF".toList
    | .udpDtlsSctp => "UDP/DTLS/SCTP".toList
    | .tcpDtlsSctp => "TCP/DTLS/SCTP".toList
    | .dtlsSctp => "DTLS/SCTP".toList
  complete k := by cases k <;> decide
  spelling_inj := by decide +kernel

/-- What a group of media stands for. -/
inductive GroupMeaning where
  | lipSync
  | flow
  | bundle
  deriving DecidableEq

instance : Vocabulary GroupMeaning where
  title := "GroupSemantics"
  members := [.lipSync, .flow, .bundle]
  spelling
    | .lipSync => "LS".toList
    | .flow => "FID".toList
    | .bundle => "BUNDLE".toList
  complete k := by cases k <;> decide
  spelling_inj := by decide +kernel

end OfferAnswer
