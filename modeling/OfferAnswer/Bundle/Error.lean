/-
OfferAnswer/Bundle/Error.lean

Why a well-formed description cannot be seen as a bundle, and why a bundle
cannot be answered.
-/
import OfferAnswer.Document.Error
import OfferAnswer.Vocabulary.Connectivity

namespace OfferAnswer.Bundle

/-- Why a description means no bundle. -/
inductive Fault where
  | noMedia
  | noUser
  | noPassword
  | noMid
  | directions
  /-- A format, or the target of a retransmission, has too many digits. -/
  | number (fault : Decimal.Fault)
  /-- No single role answers the role that is offered. -/
  | irreversible (role : SetupRole)

def Fault.message : Fault → String
  | noMedia => "at least one m-line is required"
  | noUser => "ice-ufrag is required"
  | noPassword => "ice-pwd is required"
  | noMid => "mid is required"
  | directions => "multiple direction attributes"
  | number fault => fault.message
  | irreversible role =>
    "Setup role " ++ Text.toString (Vocabulary.spelling role) ++ " cannot be reversed"

/-- Why a text stands for no bundle. -/
inductive Error where
  | document (e : Document.Error)
  | meaning (fault : Fault)

end OfferAnswer.Bundle
