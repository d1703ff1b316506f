/-
OfferAnswer/Value.lean

Values whose kind is not fixed beforehand: what a package description holds,
and what a caller may hand to a property bag.

`display` is how messages show such a value: texts quoted, lists in brackets,
records in braces.
-/
import OfferAnswer.Decimal
import OfferAnswer.Index

namespace OfferAnswer

/-- A value of any kind; a fraction is an integer number of tenths,
hundredths, ... by its number of places. -/
inductive Value where
  | null
  | flag (b : Bool)
  | number (n : Int)
  | fraction (units : Int) (places : Nat)
  | text (t : Text)
  | list (items : List Value)
  | record (fields : List (Text × Value))
  deriving Inhabited

namespace Value

/-- A fraction with all its places, and one digit at least before the point. -/
def displayFraction (units : Int) (places : Nat) : String :=
  let digits := Nat.toDigits 10 units.natAbs
  let padded := List.replicate (places + 1 - digits.length) '0' ++ digits
  let whole := padded.length - places
  (if units < 0 then "-" else "")
    ++ String.ofList (padded.take whole) ++ "." ++ String.ofList (padded.drop whole)

mutual

/-- The value as messages show it. -/
def display : Value → String
  | null => "None"
  | flag b => if b then "True" else "False"
  | number n => Decimal.toString n
  | fraction units places => displayFraction units places
  | text t => Text.quoted t
  | list items => "[" ++ ", ".intercalate (displayItems items) ++ "]"
  | record fields => "\x7b" ++ ", ".intercalate (displayFields fields) ++ "\x7d"

def displayItems : List Value → List String
  | [] => []
  | v :: rest => display v :: displayItems rest

def displayFields : List (Text × Value) → List String
  | [] => []
  | (name, v) :: rest => (Text.quoted name ++ ": " ++ display v) :: displayFields rest

end

example : display (list [flag true, fraction 25 1, record [("a".toList, null)]])
    = "[True, 2.5, \x7b'a': None\x7d]" := by decide +kernel

/-! ### Paths into a value -/

/-- One step of a path: a name leads into a record, an index into a list or a
text, and a truth value serves as an index of zero or one. -/
def step? : Value → Value → Option Value
  | record fields, text name => fields.lookup name
  | list items, number i => Index.get? items i
  | list items, flag b => Index.get? items (if b then 1 else 0)
  | text t, number i => (Index.get? t i).map fun c => text [c]
  | text t, flag b => (Index.get? t (if b then 1 else 0)).map fun c => text [c]
  | _, _ => none

/-- Follow a path. -/
def follow? (v : Value) (path : List Value) : Option Value :=
  path.foldlM step? v

end Value

end OfferAnswer
