/-
OfferAnswer/Text/Ranges.lean

Tables of character codes: membership in a list of ranges in rising order.
-/

namespace OfferAnswer.Text

/-- Membership in one of the ranges `(first, last)`, which stand in rising
order: a code below the next range is in none of those that follow. -/
def inRanges : List (Nat × Nat) → Nat → Bool
  | [], _ => false
  | (first, last) :: rest, n =>
    if n < first then false
    else if n ≤ last then true
    else inRanges rest n

end OfferAnswer.Text
