/-
OfferAnswer/Text/Hex.lean

Hexadecimal numbers and octets: read from digits in either case, written in
lower case.
-/
import OfferAnswer.Text.Basic

namespace OfferAnswer.Text

/-- `n` in hexadecimal, filled up with zeros to `width` digits. -/
def hex (width n : Nat) : Text :=
  let digits := Nat.toDigits 16 n
  List.replicate (width - digits.length) '0' ++ digits

/-- The value of a hexadecimal digit. -/
def hexDigit? (c : Char) : Option Nat :=
  if '0' ≤ c ∧ c ≤ '9' then some (c.toNat - '0'.toNat)
  else if 'a' ≤ c ∧ c ≤ 'f' then some (c.toNat - 'a'.toNat + 10)
  else if 'A' ≤ c ∧ c ≤ 'F' then some (c.toNat - 'A'.toNat + 10)
  else none

/-- The number that hexadecimal digits stand for. -/
def hexNumber? (t : Text) : Option Nat :=
  if t = [] then none else t.foldlM (fun n c => (hexDigit? c).map (16 * n + ·)) 0

/-- Octets in hexadecimal, two digits each. -/
def hexOctets (bytes : List UInt8) : Text := bytes.flatMap fun b => hex 2 b.toNat

/-- The octet that two hexadecimal digits stand for. -/
def octet? (high low : Char) : Option UInt8 := do
  return UInt8.ofNat (16 * (← hexDigit? high) + (← hexDigit? low))

/-- The octets that hexadecimal digits stand for, two each. -/
def octets? : Text → Option (List UInt8)
  | [] => some []
  | [_] => none
  | high :: low :: rest => do
    let b ← octet? high low
    return b :: (← octets? rest)

end OfferAnswer.Text
