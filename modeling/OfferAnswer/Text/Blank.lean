/-
OfferAnswer/Text/Blank.lean

Blank characters in the sense of Unicode: the separators, the control
characters that move the writing position, and the four information
separators U+001C to U+001F.
-/
import OfferAnswer.Text.Basic
import OfferAnswer.Text.Ranges

namespace OfferAnswer.Text

def blankRanges : List (Nat × Nat) := [
    (0x0009, 0x000D), (0x001C, 0x0020), (0x0085, 0x0085), (0x00A0, 0x00A0), (0x1680, 0x1680),
    (0x2000, 0x200A), (0x2028, 0x2029), (0x202F, 0x202F), (0x205F, 0x205F), (0x3000, 0x3000)]

def isBlank (c : Char) : Bool := inRanges blankRanges c.toNat

/-- Blanks removed at both ends. -/
def trim (t : Text) : Text :=
  ((t.dropWhile isBlank).reverse.dropWhile isBlank).reverse

end OfferAnswer.Text
