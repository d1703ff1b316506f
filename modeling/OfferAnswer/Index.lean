/-
OfferAnswer/Index.lean

Indexes into lists that count from either end: zero is the first element and
minus one the last.
-/

namespace OfferAnswer.Index

/-- The position that an index stands for in a list of a size. -/
def position? (size : Nat) (i : Int) : Option Nat :=
  let j := if i < 0 then i + size else i
  if 0 ≤ j ∧ j < size then some j.toNat else none

/-- The position at which an element is inserted; an index past either end
means that end. -/
def insertion (size : Nat) (i : Int) : Nat :=
  min (if i < 0 then i + size else i).toNat size

variable {α : Type}

/-- The element at an index. -/
def get? (xs : List α) (i : Int) : Option α :=
  (position? xs.length i).bind fun n => xs[n]?

/-- The list with the element at an index changed. -/
def modify? (xs : List α) (i : Int) (f : α → α) : Option (List α) :=
  (position? xs.length i).map fun n => xs.modify n f

/-- The element at an index, and the list without it. -/
def take? (xs : List α) (i : Int) : Option (α × List α) := do
  let n ← position? xs.length i
  let x ← xs[n]?
  return (x, xs.eraseIdx n)

/-- The list with an element inserted at an index. -/
def insert (xs : List α) (i : Int) (x : α) : List α :=
  xs.insertIdx (insertion xs.length i) x

end OfferAnswer.Index
