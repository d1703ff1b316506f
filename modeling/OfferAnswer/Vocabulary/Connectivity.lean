/-
OfferAnswer/Vocabulary/Connectivity.lean

The words of connection set-up: ICE candidates and options, the roles of the
two ends, and the hash functions of certificate fingerprints.
-/
import OfferAnswer.Vocabulary

namespace OfferAnswer

/-- Transports of ICE candidates. -/
inductive CandidateTransport where
  | udp
  | tcp
  deriving DecidableEq

instance : Vocabulary CandidateTransport where
  title := "IceTransportType"
  members := [.udp, .tcp]
  spelling
    | .udp => "UDP".toList
    | .tcp => "TCP".toList
  complete k := by cases k <;> decide
  spelling_inj := by decide +kernel

/-- Kinds of ICE candidates. -/
inductive CandidateKind where
  | host
  | serverReflexive
  | peerReflexive
  | relay
  deriving DecidableEq

instance : Vocabulary CandidateKind where
  title := "IceCandidateType"
  members := [.host, .serverReflexive, .peerReflexive, .relay]
  spelling
    | .host => "host".toList
    | .serverReflexive => "srflx".toList
    | .peerReflexive => "prflx".toList
    | .relay => "relay".toList
  complete k := by cases k <;> decide
  spelling_inj := by decide +kernel

/-- ICE options. -/
inductive IceOption where
  | trickle
  deriving DecidableEq

instance : Vocabulary IceOption where
  title := "IceOption"
  members := [.trickle]
  spelling
    | .trickle => "trickle".toList
  complete k := by cases k; decide
  spelling_inj := by decide +kernel

/-- Roles of TCP candidates. -/
inductive TcpRole where
  | active
  | passive
  | simultaneousOpen
  deriving DecidableEq

instance : Vocabulary TcpRole where
  title := "IceTcpType"
  members := [.active, .passive, .simultaneousOpen]
  spelling
    | .active => "active".toList
    | .passive => "passive".toList
    | .simultaneousOpen => "so".toList
  complete k := by cases k <;> decide
  spelling_inj := by decide +kernel

/-- Roles in setting up the secured connection. -/
inductive SetupRole where
  | active
  | passive
  | actpass
  | holdconn
  deriving DecidableEq

instance : Vocabulary SetupRole where
  title := "SetupRole"
  members := [.active, .passive, .actpass, .holdconn]
  spelling
    | .active => "active".toList
    | .passive => "passive".toList
    | .actpass => "actpass".toList
    | .holdconn => "holdconn".toList
  complete k := by cases k <;> decide
  spelling_inj := by decide +kernel

/-- The role that answers an active or passive one; the others have no single
counterpart. -/
def SetupRole.reverse? : SetupRole → Option SetupRole
  | .active => some .passive
  | .passive => some .active
  | .actpass | .holdconn => none

/-- Hash functions of certificate fingerprints. -/
inductive HashFunction where
  | sha1
  | sha224
  | sha256
  | sha384
  | sha512
  | md5
  | md2
  deriving DecidableEq

instance : Vocabulary HashFunction where
  title := "FingerprintHashFunction"
  members := [.sha1, .sha224, .sha256, .sha384, .sha512, .md5, .md2]
  spelling
    | .sha1 => "sha-1".toList
    | .sha224 => "sha-224".toList
    | .sha256 => "sha-256".toList
    | .sha384 => "sha-384".toList
    | .sha512 => "sha-512".toList
    | .md5 => "md5".toList
    | .md2 => "md2".toList
  complete k := by cases k <;> decide
  spelling_inj := by decide +kernel

end OfferAnswer
