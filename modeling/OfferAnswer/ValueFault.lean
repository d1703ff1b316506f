/-
OfferAnswer/ValueFault.lean

What can be wrong with a single value inside a line.  Whoever reads the line
says which line it was.
-/
import OfferAnswer.Vocabulary

namespace OfferAnswer

/-- Why a value is refused. -/
inductive ValueFault where
  | number (fault : Decimal.Fault)
  | token (fault : Vocabulary.Fault)
  | fingerprint (raw : Text)
  /-- A payload format without a clock rate. -/
  | clockRate

namespace ValueFault

def message : ValueFault → String
  | number fault => fault.message
  | token fault => fault.message
  | fingerprint raw => "Invalid certificate fingerprint: " ++ Text.quoted raw
  | clockRate => "not enough values to unpack (expected at least 2, got 1)"

end ValueFault

end OfferAnswer
