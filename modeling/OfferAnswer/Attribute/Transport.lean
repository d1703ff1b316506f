/-
OfferAnswer/Attribute/Transport.lean

Attributes of the transport below the media: certificate fingerprints, the
address for control packets, header extensions, and groups of media.
-/
import OfferAnswer.Attribute.Codec
import OfferAnswer.Fingerprint
import OfferAnswer.Vocabulary.Connectivity
import OfferAnswer.Vocabulary.Session

namespace OfferAnswer

open Attribute

/-! ### Certificates -/

/-- The fingerprint of a certificate under a hash function. -/
structure CertificateHash where
  function : Token HashFunction
  fingerprint : Fingerprint
  deriving BEq

namespace CertificateHash

def read (raw : Text) : Except CodecFault CertificateHash := do
  match ← wordsUpTo 2 2 raw with
  | [function, fingerprint] =>
    match Fingerprint.ofText? fingerprint with
    | some fingerprint => return { function := Token.ofText function, fingerprint }
    | none => throw (.value (.fingerprint fingerprint))
  | _ => throw (.shape (.fewWords 2 raw))

def text (h : CertificateHash) : Text :=
  h.function.text ++ ' ' :: h.fingerprint.text

end CertificateHash

/-! ### Control packets -/

/-- Where control packets go.  An address is written only if all its parts are
there. -/
structure ControlPort where
  port : Int
  network : Option Network
  family : Option AddressFamily
  address : Option Text
  deriving BEq

namespace ControlPort

def read (raw : Text) : Except CodecFault ControlPort := do
  match ← wordsOf 1 raw with
  | [port] => return ⟨← integer (.upTo maxPort) port, none, none, none⟩
  | [port, network, family, address] =>
    return ⟨← integer (.upTo maxPort) port, some (← word network), some (← word family), address⟩
  | _ => throw (.shape (.rtcp raw))

def text (c : ControlPort) : Text :=
  match c.network, c.family, c.address with
  | some network, some family, some address =>
    Text.unwords
      [Decimal.text c.port, Vocabulary.spelling network, Vocabulary.spelling family, address]
  | _, _, _ => Decimal.text c.port

end ControlPort

/-! ### Header extensions -/

/-- The header extension behind a local identifier. -/
structure ExtensionMap where
  id : Int
  uri : Text
  direction : Option ExtensionDirection
  attributes : List Text
  deriving BEq

namespace ExtensionMap

/-- The direction after the slash; none is meant where nothing follows it. -/
def direction? : Option Text → Except CodecFault (Option ExtensionDirection)
  | some [] | none => .ok none
  | some t => some <$> word t

def read (raw : Text) : Except CodecFault ExtensionMap := do
  match ← wordsOf 2 raw with
  | spec :: uri :: attributes =>
    let (id, direction) := Text.cut '/' spec
    return {
      id := ← integer (.upTo 255) id
      uri
      direction := ← direction? direction
      attributes }
  | _ => throw (.shape (.fewWords 2 raw))

def text (e : ExtensionMap) : Text :=
  let id := Decimal.text e.id
  let spec := match e.direction with
    | some d => id ++ '/' :: Vocabulary.spelling d
    | none => id
  Text.unwords (spec :: e.uri :: e.attributes)

end ExtensionMap

/-! ### Groups of media -/

/-- A group of media, by their identifiers. -/
structure MediaGroup where
  meaning : Token GroupMeaning
  mids : List Text
  deriving BEq

namespace MediaGroup

def read (raw : Text) : Except CodecFault MediaGroup := do
  match ← wordsOf 2 raw with
  | meaning :: mids => return { meaning := Token.ofText meaning, mids }
  | [] => throw (.shape (.fewWords 2 raw))

def text (g : MediaGroup) : Text :=
  Text.unwords (g.meaning.text :: g.mids)

end MediaGroup

end OfferAnswer
