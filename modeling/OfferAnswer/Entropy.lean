/-
OfferAnswer/Entropy.lean

Random choices as numbers drawn from a source, one after the other.

A choice among `n` takes one number modulo `n`, whatever the number is, so
that every law about the choices holds for every source.
-/
import OfferAnswer.Text.Basic

namespace OfferAnswer

/-- A source of numbers, and how many have been drawn. -/
structure Entropy where
  numbers : Nat → Nat
  drawn : Nat

/-- A computation that draws numbers. -/
abbrev Draw := StateM Entropy

namespace Draw

/-- The source that runs through a list again and again. -/
def cycle (numbers : List Nat) : Entropy :=
  ⟨fun i => numbers.getD (i % numbers.length) 0, 0⟩

/-- A number below `n`. -/
def below (n : Nat) : Draw Nat := fun e =>
  (e.numbers e.drawn % n, { e with drawn := e.drawn + 1 })

/-- Letters of both cases and digits. -/
def alphanumeric : Text :=
  "abcdefghijklmnopqrstuvwxyzABCDEFGHIJKLMNOPQRSTUVWXYZ0123456789".toList

/-- A text of characters of an alphabet. -/
def token (alphabet : Text) (length : Nat) : Draw Text := fun e =>
  ((List.range length).filterMap fun i =>
      alphabet[e.numbers (e.drawn + i) % alphabet.length]?,
    { e with drawn := e.drawn + length })

/-- A token consists of characters of the alphabet. -/
theorem mem_of_mem_token {alphabet : Text} {length : Nat} {e : Entropy} {c : Char}
    (h : c ∈ (token alphabet length e).1) : c ∈ alphabet := by
  obtain ⟨i, -, hi⟩ := List.mem_filterMap.mp h
  exact List.mem_of_getElem? hi

/-- Over an alphabet with characters a token is as long as it is asked to be. -/
theorem length_token {alphabet : Text} (h : alphabet ≠ []) (length : Nat) (e : Entropy) :
    ((token alphabet length e).1).length = length := by
  have hpos : 0 < alphabet.length := List.length_pos_iff.mpr h
  suffices ∀ is : List Nat, (is.filterMap fun i =>
      alphabet[e.numbers (e.drawn + i) % alphabet.length]?).length = is.length by
    simpa [token] using this (List.range length)
  intro is
  induction is with
  | nil => rfl
  | cons i is ih =>
    have : e.numbers (e.drawn + i) % alphabet.length < alphabet.length := Nat.mod_lt _ hpos
    rw [List.filterMap_cons, List.getElem?_eq_getElem this]
    simp [ih]

end Draw

end OfferAnswer
