/-
OfferAnswer/Decimal.lean

Decimal integers as a description writes them: digits of ASCII, after at most
one minus sign, with no other sign, no blank and no group mark.

At most `maxDigits` digits are read or written, leading zeros counted.  Bounds
are checked last, the lower one first.
-/
import OfferAnswer.Text.Quoted

namespace OfferAnswer

namespace Decimal

/-- The most digits of an integer that is read or written. -/
def maxDigits : Nat := 4300

/-- Why a token is not an integer of the wanted kind. -/
inductive Fault where
  | malformed (token : Text)
  | tooLong (digits : Nat)
  | below (value least : Int)
  | above (value most : Int)
  deriving DecidableEq

/-- The bounds that an integer is held to. -/
structure Bounds where
  least : Option Int
  most : Option Int

/-- Not negative. -/
def Bounds.natural : Bounds := ⟨some 0, none⟩

/-- From zero to `n`. -/
def Bounds.upTo (n : Int) : Bounds := ⟨some 0, some n⟩

/-! ### Writing -/

/-- The digits of an integer, after a minus sign where it is negative. -/
def text (n : Int) : Text :=
  if n < 0 then '-' :: Nat.toDigits 10 n.natAbs else Nat.toDigits 10 n.natAbs

/-- Whether an integer is short enough to be written. -/
def isWritable (n : Int) : Bool := (Nat.toDigits 10 n.natAbs).length ≤ maxDigits

def toString (n : Int) : String := String.ofList (text n)

/-- What is said of an integer too long to be written. -/
def unwritable : String :=
  "Exceeds the limit (" ++ toString maxDigits ++ " digits) for integer string conversion; "
    ++ "use sys.set_int_max_str_digits() to increase the limit"

/-- What is said of an integer out of bounds, if the bound can be written. -/
def outOfBounds (value : Int) (side : String) (bound : Int) : String :=
  if isWritable bound then "Integer " ++ toString value ++ " is " ++ side ++ " " ++ toString bound
  else unwritable

def Fault.message : Fault → String
  | .malformed token => "Invalid integer " ++ Text.quoted token
  | .tooLong digits =>
    "Exceeds the limit (" ++ toString maxDigits ++ " digits) for integer string conversion: "
      ++ "value has " ++ toString digits ++ " digits; "
      ++ "use sys.set_int_max_str_digits() to increase the limit"
  | .below value least => outOfBounds value "below" least
  | .above value most => outOfBounds value "above" most

/-! ### Reading -/

/-- One digit at least, and digits only. -/
def isDigits (t : Text) : Bool := !t.isEmpty && t.all Char.isDigit

/-- The number that digits stand for. -/
def ofDigits (digits : Text) : Nat := Nat.ofDigitChars 10 digits 0

/-- Whether a minus sign leads, and what follows it. -/
def splitSign : Text → Bool × Text
  | '-' :: digits => (true, digits)
  | digits => (false, digits)

/-- The integer that a token stands for, without regard to bounds. -/
def ofText? (t : Text) : Except Fault Int :=
  let (negative, digits) := splitSign t
  if !isDigits digits then .error (.malformed t)
  else if maxDigits < digits.length then .error (.tooLong digits.length)
  else .ok (if negative then -(ofDigits digits : Int) else ofDigits digits)

/-- Hold an integer to its bounds. -/
def Bounds.check (b : Bounds) (n : Int) : Except Fault Int :=
  match b.least, b.most with
  | some least, most =>
    if n < least then .error (.below n least)
    else checkMost most
  | none, most => checkMost most
where
  checkMost : Option Int → Except Fault Int
    | some most => if most < n then .error (.above n most) else .ok n
    | none => .ok n

/-- The integer within bounds that a token stands for. -/
def read (b : Bounds) (t : Text) : Except Fault Int := ofText? t >>= b.check

/-- Digits are read back as the number that wrote them. -/
theorem ofDigits_toDigits (n : Nat) : ofDigits (Nat.toDigits 10 n) = n :=
  Nat.ofDigitChars_toDigits (by decide) (by decide)

end Decimal

end OfferAnswer
