/-
OfferAnswer/Attribute/Candidate.lean

ICE candidates.

After eight fixed words a candidate has pairs of a key and a value.  The first
pair for the related address, the related port and the TCP role goes to a
place of its own, under its key in any case; every other pair is an extension,
under its key as written.
-/
import OfferAnswer.Attribute.Codec
import OfferAnswer.OrderedMap
import OfferAnswer.Vocabulary.Connectivity

namespace OfferAnswer

/-- The optional parts of a candidate. -/
structure Candidate.Options where
  relatedAddress : Option Text
  relatedPort : Option Int
  tcpRole : Option TcpRole
  extensions : OrderedMap Text Text
  deriving BEq

/-- An ICE candidate. -/
structure Candidate where
  foundation : Text
  component : Int
  transport : CandidateTransport
  priority : Int
  address : Text
  port : Int
  kind : Token CandidateKind
  options : Candidate.Options
  deriving BEq

namespace Candidate

open Attribute

def Options.empty : Options := ⟨none, none, none, .empty⟩

/-! ### Reading -/

/-- Enter one pair. -/
def Options.add (o : Options) (pair : Text × Text) : Except CodecFault Options :=
  let key := Text.lower pair.1
  if key = "raddr".toList ∧ o.relatedAddress.isNone then
    .ok { o with relatedAddress := pair.2 }
  else if key = "rport".toList ∧ o.relatedPort.isNone then do
    let port ← integer (.upTo maxPort) pair.2
    return { o with relatedPort := port }
  else if key = "tcptype".toList ∧ o.tcpRole.isNone then do
    let role ← word pair.2
    return { o with tcpRole := some role }
  else .ok { o with extensions := o.extensions.insert pair.1 pair.2 }

/-- The words two by two. -/
def pairs? : List Text → Option (List (Text × Text))
  | [] => some []
  | [_] => none
  | key :: value :: rest => ((key, value) :: ·) <$> pairs? rest

/-- The candidate that a value stands for. -/
def read (raw : Text) : Except CodecFault Candidate := do
  match ← wordsOf 8 raw with
  | foundation :: component :: transport :: priority :: address :: port :: typ :: kind :: rest =>
    if Text.lower typ ≠ "typ".toList then
      throw (.shape (.typWord typ))
    match pairs? rest with
    | none => throw (.shape (.unpaired raw))
    | some pairs =>
      -- The pairs are read before the words in front of them.
      let options ← pairs.foldlM Options.add .empty
      return {
        foundation
        component := ← integer (.upTo maxPort) component
        transport := ← word transport
        priority := ← integer (.upTo max32) priority
        address
        port := ← integer (.upTo maxPort) port
        kind := Token.ofText kind
        options }
  | _ => throw (.shape (.fewWords 8 raw))

/-! ### Writing -/

/-- The pairs in the order in which they are written. -/
def Options.pairs (o : Options) : List (Text × Text) :=
  (o.relatedAddress.map fun address => ("raddr".toList, address)).toList
    ++ (o.relatedPort.map fun port => ("rport".toList, Decimal.text port)).toList
    ++ (o.tcpRole.map fun role => ("tcptype".toList, Vocabulary.spelling role)).toList
    ++ o.extensions.entries

/-- The value of the candidate attribute. -/
def text (c : Candidate) : Text :=
  Text.unwords <|
    [c.foundation, Decimal.text c.component, Vocabulary.spelling c.transport,
      Decimal.text c.priority, c.address, Decimal.text c.port, "typ".toList, c.kind.text]
    ++ c.options.pairs.flatMap fun pair => [pair.1, pair.2]

end Candidate

end OfferAnswer
