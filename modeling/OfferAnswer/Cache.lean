/-
OfferAnswer/Cache.lean

A cache for one value that expires.

An entry is good for a number of seconds after its value was asked for, and
once more than these have passed, the value is computed anew.  A failed
computation leaves the entry as it is.
-/

namespace OfferAnswer

/-- The value last computed, with the time at which it was asked for. -/
structure Cache (α : Type) where
  entry : Option (Int × α)

namespace Cache

variable {α σ ε : Type}

def empty : Cache α := ⟨none⟩

/-- The value, if at most `seconds` have passed since it was asked for. -/
def fresh? (c : Cache α) (seconds now : Int) : Option α :=
  c.entry.bind fun e => if now - e.1 ≤ seconds then some e.2 else none

/-- The fresh value, or else the one computed now. -/
def get (seconds now : Int) (compute : StateM σ (Except ε α)) :
    StateM (Cache α × σ) (Except ε α) := fun (c, s) =>
  match c.fresh? seconds now with
  | some v => (.ok v, (c, s))
  | none =>
    match compute s with
    | (.ok v, s) => (.ok v, (⟨some (now, v)⟩, s))
    | (.error e, s) => (.error e, (c, s))

/-- A fresh value is returned without computing anything. -/
theorem get_of_fresh {c : Cache α} {seconds now : Int} {v : α}
    (h : c.fresh? seconds now = some v) (compute : StateM σ (Except ε α)) (s : σ) :
    get seconds now compute (c, s) = (.ok v, (c, s)) := by
  simp [get, h]

/-- Without a fresh value, it is computed, and what is computed is kept with
the time; a failed computation leaves the entry as it is. -/
theorem get_of_stale {c : Cache α} {seconds now : Int} (h : c.fresh? seconds now = none)
    (compute : StateM σ (Except ε α)) (s : σ) :
    get seconds now compute (c, s) = ((compute s).1,
      ((compute s).1.toOption.elim c fun v => ⟨some (now, v)⟩, (compute s).2)) := by
  rcases hcompute : compute s with ⟨_ | v, s'⟩ <;> simp [get, h, hcompute, Except.toOption]

end Cache

end OfferAnswer
