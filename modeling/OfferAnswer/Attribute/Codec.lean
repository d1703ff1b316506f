/-
OfferAnswer/Attribute/Codec.lean

What the readers of attribute values share: the faults they find, and the
splitting of a value into words.

A value is refused either for its shape, that is, for how many words it has
and where they stand, or for one value in it.
-/
import OfferAnswer.ValueFault
import OfferAnswer.Vocabulary.Rtp

namespace OfferAnswer.Attribute

/-- What is wrong with the shape of an attribute value. -/
inductive ShapeFault where
  | fewWords (least : Nat) (raw : Text)
  | typWord (word : Text)
  | unpaired (raw : Text)
  | encodingName (raw : Text)
  | rtcp (raw : Text)
  | simulcast (raw : Text)
  | repeatedDirection (direction : StreamDirection)

def ShapeFault.message : ShapeFault → String
  | fewWords least raw =>
    "Expected at least " ++ Decimal.toString least ++ " space-separated values, got: "
      ++ Text.quoted raw
  | typWord word => "Expected 'typ' in candidate attribute, got: " ++ Text.quoted word
  | unpaired raw => "Unpaired extension in candidate attribute: " ++ Text.quoted raw
  | encodingName raw => "Missing encoding name in rtpmap attribute: " ++ Text.quoted raw
  | rtcp raw => "Invalid rtcp attribute: " ++ Text.quoted raw
  | simulcast raw => "Invalid simulcast attribute: " ++ Text.quoted raw
  | repeatedDirection direction =>
    "Duplicate " ++ Text.toString (Vocabulary.spelling direction) ++ " in simulcast attribute"

/-- Why an attribute value cannot be read. -/
inductive CodecFault where
  | shape (fault : ShapeFault)
  | value (fault : ValueFault)

/-! ### Words of a value -/

/-- The words, if there are enough of them and none is empty. -/
def enough (least : Nat) (raw : Text) (ws : List Text) : Except CodecFault (List Text) :=
  if ws.length < least ∨ ws.contains [] then .error (.shape (.fewWords least raw)) else .ok ws

/-- The words of a value, `least` or more. -/
def wordsOf (least : Nat) (raw : Text) : Except CodecFault (List Text) :=
  enough least raw (Text.words raw)

/-- The first words of a value, `least` or more; the last of `most` keeps what
remains. -/
def wordsUpTo (least most : Nat) (raw : Text) : Except CodecFault (List Text) :=
  enough least raw (Text.splitAtMost ' ' (most - 1) raw)

/-! ### Single values -/

/-- An integer within bounds. -/
def integer (b : Decimal.Bounds) (t : Text) : Except CodecFault Int :=
  (Decimal.read b t).mapError fun fault => .value (.number fault)

/-- A word of a closed vocabulary. -/
def word {κ : Type} [Vocabulary κ] (t : Text) : Except CodecFault κ :=
  (Vocabulary.ofText t).mapError fun fault => .value (.token fault)

/-- The highest payload type. -/
def maxPayloadType : Int := 127

/-- The highest port. -/
def maxPort : Int := 65535

/-- The highest source identifier, and the highest candidate priority. -/
def max32 : Int := 4294967295

end OfferAnswer.Attribute
