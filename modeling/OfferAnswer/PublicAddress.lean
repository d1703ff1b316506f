/-
OfferAnswer/PublicAddress.lean

The address under which this host is seen from outside.

Services are asked one after the other until one of them answers with an
address.  A request that is not answered, bytes that are no text and a text
that is no address all count as no answer.  A response that breaks off, or
breaks the protocol, ends the lookup.  What is found is kept for a minute.
-/
import OfferAnswer.Cache
import OfferAnswer.IpAddress
import OfferAnswer.Text.Blank
import OfferAnswer.Text.Utf8

namespace OfferAnswer

/-- A service that tells a host its address, and where in the answer. -/
structure Resolver where
  url : String
  extract : Text → Option Text

/-- How a request fails. -/
inductive Network.Failure where
  /-- No connection, no response in time, or one that tells of an error. -/
  | unavailable
  /-- A response that breaks off, or that is none in the sense of the protocol:
  its body is cut short, its status cannot be read, a line of it is too long. -/
  | broken (reason : String)

/-- What comes of a request: the body of a page, or a failure. -/
abbrev Network.Response := Except Network.Failure (List UInt8)

/-- The network as seen from here: the responses that are still to come, and
the addresses that have been requested. -/
structure Network.Exchange where
  responses : List Network.Response
  requested : List String

/-- Request a page.  When no response is left, none is available. -/
def Network.request (url : String) : StateM Network.Exchange Network.Response := fun x =>
  (x.responses.head?.getD (.error .unavailable),
    { responses := x.responses.tail, requested := x.requested ++ [url] })

namespace PublicAddress

/-! ### Services -/

/-- The address on a line of a trace, if the line tells it. -/
def addressOnLine? : Text → Option Text
  | 'i' :: 'p' :: '=' :: address =>
    if address ≠ [] ∧ !address.any Text.isBlank then some address else none
  | _ => none

/-- The address in a trace: that of the first line that tells one. -/
def traceAddress? (body : Text) : Option Text :=
  (body.splitOn '\n').findSome? addressOnLine?

/-- The services in the order in which they are asked. -/
def resolvers : List Resolver := [
  ⟨"https://cloudflare.com/cdn-cgi/trace", traceAddress?⟩,
  ⟨"https://ident.me", some⟩,
  ⟨"https://ifconfig.me/ip", some⟩,
  ⟨"https://icanhazip.com/", some⟩]

/-! ### Looking up -/

/-- Why there is no address. -/
inductive Fault where
  /-- All services have been asked, and none has answered. -/
  | noAddress
  | broken (reason : String)
  deriving DecidableEq

def Fault.message : Fault → String
  | noAddress => "Could not resolve the public IP address"
  | broken reason => reason

/-- The address in the body of a response. -/
def inBody? (r : Resolver) (body : List UInt8) : Option Text := do
  let t ← (Text.Utf8.decode body).toOption
  let found ← r.extract t
  let address ← IpAddress.ofText? (Text.trim found)
  return address.text

/-- How a response to a service ends the lookup, if it does. -/
def ending? (r : Resolver) : Network.Response → Option (Except Fault Text)
  | .ok body => (inBody? r body).map .ok
  | .error .unavailable => none
  | .error (.broken reason) => some (.error (.broken reason))

/-- Ask the services until a response ends the lookup. -/
def resolve : List Resolver → StateM Network.Exchange (Except Fault Text)
  | [] => pure (.error .noAddress)
  | r :: rest => do
    match ending? r (← Network.request r.url) with
    | some result => return result
    | none => resolve rest

/-- How many seconds an address is kept. -/
def lifetime : Int := 60

/-- The public address, kept or looked up now. -/
def get (now : Int) : StateM (Cache Text × Network.Exchange) (Except Fault Text) :=
  Cache.get lifetime now (resolve resolvers)

end PublicAddress

end OfferAnswer
