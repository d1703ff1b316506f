/-
OfferAnswer/Negotiation/Basic.lean

Negotiations: an offer is answered, and the engine is set up for the media
that it announces.

A negotiation draws its random choices, looks up the public address and calls
the engine.  All of this is kept in its surroundings, also when it fails: a
fault undoes nothing, and nothing is done after it.
-/
import OfferAnswer.Bundle.Answer
import OfferAnswer.Capability
import OfferAnswer.Negotiation.Engine
import OfferAnswer.Negotiation.Parameters
import OfferAnswer.PublicAddress

namespace OfferAnswer

namespace Negotiation

/-- What a negotiation is told beforehand. -/
structure Config where
  /-- The address to announce; without one it is looked up. -/
  publicAddress : Option Text
  function : Token HashFunction
  iceLite : Bool
  localPort : Option Int

def Config.standard : Config where
  publicAddress := none
  function := .known .sha256
  iceLite := true
  localPort := none

/-- Why a negotiation fails. -/
inductive Fault where
  | missingCertificate (function : Token HashFunction)
  | bundle (fault : Bundle.Fault)
  | address (fault : PublicAddress.Fault)
  | fingerprint (raw : Text)
  | engine (reason : String)

def Fault.message : Fault → String
  | missingCertificate function =>
    function.text.toString ++ " dtls fingerprint missing from offer"
  | bundle fault => fault.message
  | address fault => fault.message
  | fingerprint raw => (ValueFault.fingerprint raw).message
  | engine reason => reason

/-- What a negotiation finds around it and leaves behind. -/
structure Surroundings where
  now : Int
  entropy : Entropy
  address : Cache Text
  exchange : Network.Exchange
  /-- The calls to the engine, the first one first. -/
  calls : List Call

end Negotiation

open Negotiation

/-- A step of a negotiation; what it changes stays also when it fails. -/
abbrev Negotiating := ExceptT Fault (StateM Surroundings)

namespace Negotiation

/-! ### Steps -/

/-- Draw random choices. -/
def draw {α : Type} (d : Draw α) : Negotiating α := ExceptT.lift fun s =>
  let (a, entropy) := d s.entropy
  (a, { s with entropy })

/-- The address to announce. -/
def publicAddress (c : Config) : Negotiating Text := fun s =>
  match c.publicAddress with
  | some address => (.ok address, s)
  | none =>
    let (found, (address, exchange)) := PublicAddress.get s.now (s.address, s.exchange)
    (found.mapError .address, { s with address, exchange })

/-- Call the engine.  The call counts also where it is refused. -/
def call (e : Engine) (c : Call) : Negotiating Unit := fun s =>
  let refused := e.refusal? s.calls c
  let s := { s with calls := s.calls ++ [c] }
  match refused with
  | some reason => (.error (.engine reason), s)
  | none => (.ok (), s)

/-! ### Answering -/

/-- The priority of the only candidate of a host. -/
def hostPriority : Int := 0x1000000 * 126 + 0x100 * (65535 - 1) + 255

/-- The candidate of this host. -/
def hostCandidate (address : Text) (port : Int) : Candidate where
  foundation := ['1']
  component := 1
  transport := .udp
  priority := hostPriority
  address
  port
  kind := .known .host
  options := .empty

/-- The role to answer with: an offer to take either role is answered
passively, and any other role by its counterpart. -/
def roleFor (offer : Bundle) : Option SetupRole :=
  if offer.role = .actpass then some .passive else none

/-- An answer with the candidate and the certificate of this host. -/
def announce (c : Config) (answer : Bundle) (candidate : Candidate) (own : Fingerprint) : Bundle :=
  { answer with
    iceLite := c.iceLite
    candidates := answer.candidates ++ [candidate]
    certificates := answer.certificates ++ [{ function := c.function, fingerprint := own }] }

/-- The answer to an offer, on a transport with a port. -/
def buildAnswer (c : Config) (e : Engine) (offer : Bundle) (port : Int) :
    Negotiating Bundle := do
  match ← draw (offer.answer (roleFor offer)) with
  | .error fault => throw (.bundle fault)
  | .ok answer =>
    let address ← publicAddress c
    call e (.certificateFingerprint c.function)
    match Fingerprint.ofText? (e.fingerprint c.function) with
    | none => throw (.fingerprint (e.fingerprint c.function))
    | some own => return announce c answer.toCapability (hostCandidate address port) own

/-! ### Setting up the engine -/

/-- Whether the engine takes a kind of media. -/
def isHandled (kind : Token MediaKind) : Bool :=
  kind == .known .audio || kind == .known .video

/-- The request for an encoding of a medium. -/
def requestFor (m : RtpMedia) : Encoding → SourceRequest
  | .stream id _ => ⟨m.kind, m.mid, some id, none, none⟩
  | .source _ source retransmission => ⟨m.kind, m.mid, none, some source, retransmission⟩

/-- The requests for all that an offer sends. -/
def sourceRequests (offer : Bundle) : List SourceRequest :=
  (offer.media.filter fun m => isHandled m.kind).flatMap fun m => m.encodings.map (requestFor m)

/-- What comes of a negotiation. -/
structure Outcome where
  answer : Bundle
  sources : List SourceRequest

end Negotiation

/-- Answer an offer and set up the engine for it. -/
def negotiate (c : Config) (e : Engine) (offer : Bundle) : Negotiating Outcome := do
  match offer.fingerprint? c.function with
  | none => throw (.missingCertificate c.function)
  | some remote =>
    call e (.createTransport c.localPort)
    let answer ← buildAnswer c e offer (e.port c.localPort)
    call e (.addConnection (answer.iceUser ++ ':' :: offer.iceUser)
      (connectionProperties offer answer c.function remote))
    call e (.setRemoteProperties offer.mediaProperties)
    call e (.setLocalProperties answer.mediaProperties)
    let sources := sourceRequests offer
    for request in sources do
      call e (.addSource request)
    return { answer, sources }

end OfferAnswer
