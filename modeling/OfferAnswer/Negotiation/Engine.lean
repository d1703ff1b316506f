/-
OfferAnswer/Negotiation/Engine.lean

The media engine, as far as a negotiation sees it: the calls that it takes,
what it returns, and which calls it refuses.
-/
import OfferAnswer.Properties
import OfferAnswer.Vocabulary.Connectivity
import OfferAnswer.Vocabulary.Session

namespace OfferAnswer

/-- A group of sources that is to come in, known by its stream identifier or
by its sources. -/
structure SourceRequest where
  kind : Token MediaKind
  mid : Text
  stream : Option Text
  source : Option Int
  retransmission : Option Int

/-- A call to the engine. -/
inductive Call where
  | createTransport (port : Option Int)
  | certificateFingerprint (function : Token HashFunction)
  | addConnection (username : Text) (properties : Properties)
  | setRemoteProperties (properties : Properties)
  | setLocalProperties (properties : Properties)
  | addSource (request : SourceRequest)

/-- An engine: the port of a transport that is asked for with or without a
port, the fingerprint of its certificate, and why it refuses a call, if it
does, after the calls before it. -/
structure Engine where
  port : Option Int → Int
  fingerprint : Token HashFunction → Text
  refusal? : List Call → Call → Option String

end OfferAnswer
