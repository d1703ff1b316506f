/-
OfferAnswer/Fingerprint.lean

Certificate fingerprints: octets in hexadecimal, joined by colons.

An octet is read from one digit or two, in either case, and written with two
digits in upper case.
-/
import OfferAnswer.Text.Hex

namespace OfferAnswer

/-- A fingerprint as its digest. -/
structure Fingerprint where
  digest : List UInt8
  deriving DecidableEq

namespace Fingerprint

/-- The octet that one digit or two stand for. -/
def octet? : Text → Option UInt8
  | [a] => (Text.hexDigit? a).map UInt8.ofNat
  | [a, b] => Text.octet? a b
  | _ => none

/-- The fingerprint that a text stands for. -/
def ofText? (t : Text) : Option Fingerprint :=
  ((t.splitOn ':').mapM octet?).map Fingerprint.mk

/-- The two digits of an octet. -/
def octetText (b : UInt8) : Text :=
  (Text.hex 2 b.toNat).map Char.toUpper

/-- The text of a fingerprint. -/
def text (f : Fingerprint) : Text :=
  [':'].intercalate (f.digest.map octetText)

end Fingerprint

end OfferAnswer
