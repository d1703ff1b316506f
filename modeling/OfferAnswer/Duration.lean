/-
OfferAnswer/Duration.lean

Times with a unit: digits, and then at most one letter for days, hours,
minutes or seconds.  Without a letter they are seconds.
-/
import OfferAnswer.Decimal

namespace OfferAnswer.Duration

/-- Why a text is no time. -/
inductive Fault where
  | malformed (t : Text)
  | tooLong (digits : Nat)
  deriving DecidableEq

/-- The seconds in a unit. -/
def unit? : Char → Option Nat
  | 'd' => some 86400
  | 'h' => some 3600
  | 'm' => some 60
  | 's' => some 1
  | _ => none

/-- The count, and the seconds of the unit that it counts. -/
def split (t : Text) : Text × Nat :=
  match t.getLast?.bind unit? with
  | some seconds => (t.dropLast, seconds)
  | none => (t, 1)

/-- The seconds that a text stands for.  `signed` allows a minus sign. -/
def read (signed : Bool) (t : Text) : Except Fault Int :=
  let (count, seconds) := split t
  if t.head? = some '-' ∧ !signed then .error (.malformed t)
  else
    match Decimal.ofText? count with
    | .ok n => .ok (n * seconds)
    | .error (.tooLong digits) => .error (.tooLong digits)
    | .error _ => .error (.malformed t)

end OfferAnswer.Duration
