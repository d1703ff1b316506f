/-
OfferAnswer/Attribute/Payload.lean

Attributes of payload types: the codec behind a payload type, its format
parameters, and the feedback that it takes.
-/
import OfferAnswer.Attribute.Codec
import OfferAnswer.OrderedMap

namespace OfferAnswer

open Attribute

/-! ### Codecs -/

/-- The codec, clock rate and channels of a payload type. -/
structure RtpMap where
  payloadType : Int
  codec : Token Codec
  clockRate : Int
  channels : Option Int
  deriving BEq

namespace RtpMap

def read (raw : Text) : Except CodecFault RtpMap := do
  match ← wordsUpTo 2 2 raw with
  | [payloadType, encoding] =>
    match Text.splitAtMost '/' 2 encoding with
    | codec :: clockRate :: more =>
      if codec = [] then throw (.shape (.encodingName raw))
      return {
        payloadType := ← integer (.upTo maxPayloadType) payloadType
        codec := Token.ofText codec
        clockRate := ← integer .natural clockRate
        channels := ← more.head?.mapM (integer (.upTo 255)) }
    | _ => throw (.value .clockRate)
  | _ => throw (.shape (.fewWords 2 raw))

def text (m : RtpMap) : Text :=
  Decimal.text m.payloadType ++ ' ' :: m.codec.text ++ '/' :: Decimal.text m.clockRate
    ++ match m.channels with
      | some n => '/' :: Decimal.text n
      | none => []

end RtpMap

/-! ### Format parameters -/

/-- The parameters of a payload type, as one text. -/
structure FormatParameters where
  payloadType : Int
  parameters : Text
  deriving BEq

namespace FormatParameters

def read (raw : Text) : Except CodecFault FormatParameters := do
  match ← wordsUpTo 2 2 raw with
  | [payloadType, parameters] =>
    return { payloadType := ← integer (.upTo maxPayloadType) payloadType, parameters }
  | _ => throw (.shape (.fewWords 2 raw))

def text (p : FormatParameters) : Text :=
  Decimal.text p.payloadType ++ ' ' :: p.parameters

/-- The parameters that have a name and a value, by name. -/
def byName (p : FormatParameters) : OrderedMap Text Text :=
  .ofList <| (p.parameters.splitOn ';').filterMap fun parameter =>
    match Text.cut '=' parameter with
    | (name, some value) => some (name, value)
    | (_, none) => none

end FormatParameters

/-! ### Feedback -/

/-- A kind of feedback that a payload type takes; all of them, where none is
named. -/
structure Feedback where
  payloadType : Option Int
  id : Text
  parameter : Option Text
  deriving BEq

namespace Feedback

def read (raw : Text) : Except CodecFault Feedback := do
  match ← wordsUpTo 2 3 raw with
  | payloadType :: id :: more =>
    return {
      payloadType :=
        ← if payloadType = ['*'] then pure none
          else some <$> integer (.upTo maxPayloadType) payloadType
      id
      parameter := more.head? }
  | _ => throw (.shape (.fewWords 2 raw))

def text (f : Feedback) : Text :=
  Text.unwords <|
    [(f.payloadType.map Decimal.text).getD ['*'], f.id] ++ f.parameter.toList

end Feedback

end OfferAnswer
