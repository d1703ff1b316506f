/-
OfferAnswer/OrderedMap.lean

Mappings that remember the order in which their keys arrived.

A later value for an equal key takes the place of the earlier one, and the key
first seen stays, which shows where equal keys can be spelled differently.
Equality of two mappings looks at what they map, not at the order.

Mappings that cannot be changed once they are made are of this type too: the
extensions of a candidate and the streams of a simulcast.  What is assumed of
them is that they keep the same entries in the same order, and that they are
equal as mappings are.
-/

namespace OfferAnswer

/-- A mapping as its entries in order; no two keys are equal. -/
structure OrderedMap (κ ν : Type) [BEq κ] where
  entries : List (κ × ν)
  distinct : entries.Pairwise fun a b => (a.1 == b.1) = false

namespace OrderedMap

variable {κ ν μ : Type} [BEq κ]

def empty : OrderedMap κ ν := ⟨[], .nil⟩

instance : Inhabited (OrderedMap κ ν) := ⟨empty⟩

def keys (m : OrderedMap κ ν) : List κ := m.entries.map (·.1)

def size (m : OrderedMap κ ν) : Nat := m.entries.length

def isEmpty (m : OrderedMap κ ν) : Bool := m.entries.isEmpty

/-- The value of the key equal to `k`. -/
def get? (m : OrderedMap κ ν) (k : κ) : Option ν :=
  (m.entries.find? (·.1 == k)).map (·.2)

def contains (m : OrderedMap κ ν) (k : κ) : Bool := m.entries.any (·.1 == k)

/-! ### Changing a mapping -/

/-- Give `k` the value `v`: in its place where an equal key is present, at the
end otherwise. -/
def insert (m : OrderedMap κ ν) (k : κ) (v : ν) : OrderedMap κ ν :=
  if h : m.contains k then
    -- The old key stays, even where the new one is spelled differently.
    ⟨m.entries.map fun e => if e.1 == k then (e.1, v) else e, by
      rw [List.pairwise_map]
      refine m.distinct.imp fun {a b} hab => ?_
      split <;> split <;> exact hab⟩
  else
    ⟨m.entries ++ [(k, v)], by
      refine List.pairwise_append.mpr ⟨m.distinct, List.pairwise_singleton _ _, ?_⟩
      intro a ha b hb
      rw [List.mem_singleton] at hb
      subst hb
      simp only [contains, List.any_eq_true, not_exists, not_and, Bool.not_eq_true] at h
      exact h a ha⟩

/-- Keep the entries that pass a test. -/
def filter (m : OrderedMap κ ν) (p : κ → ν → Bool) : OrderedMap κ ν :=
  ⟨m.entries.filter fun e => p e.1 e.2, m.distinct.filter _⟩

/-- Drop the entry of the key equal to `k`. -/
def erase (m : OrderedMap κ ν) (k : κ) : OrderedMap κ ν :=
  m.filter fun key _ => !(key == k)

/-- The same keys with other values. -/
def map (m : OrderedMap κ ν) (f : κ → ν → μ) : OrderedMap κ μ :=
  ⟨m.entries.map fun e => (e.1, f e.1 e.2), by
    rw [List.pairwise_map]
    exact m.distinct⟩

/-- Enter the pairs one after the other. -/
def ofList (pairs : List (κ × ν)) : OrderedMap κ ν :=
  pairs.foldl (fun m p => m.insert p.1 p.2) empty

/-- The same keys with equal values, in any order. -/
instance [BEq ν] : BEq (OrderedMap κ ν) where
  beq a b :=
    a.size == b.size && a.entries.all fun e =>
      match b.get? e.1 with
      | some v => e.2 == v
      | none => false

/-! ### What an insertion changes -/

theorem get?_insert_self [ReflBEq κ] (m : OrderedMap κ ν) (k : κ) (v : ν) :
    (m.insert k v).get? k = some v := by
  unfold insert
  split
  · next h =>
    simp only [contains, List.any_eq_true] at h
    obtain ⟨e, he, hk⟩ := h
    suffices ∀ es : List (κ × ν), e ∈ es →
        ((es.map fun e => if e.1 == k then (e.1, v) else e).find? (·.1 == k)).map (·.2)
          = some v from this m.entries he
    intro es
    induction es with
    | nil => simp
    | cons a es ih =>
      intro hmem
      by_cases ha : a.1 == k
      · simp [ha]
      · have : e ∈ es := by
          rcases List.mem_cons.mp hmem with rfl | h
          · exact absurd hk ha
          · exact h
        simpa [ha] using ih this
  · next h =>
    have hn : m.entries.find? (·.1 == k) = none := by
      rw [List.find?_eq_none]
      intro e he hk
      exact h (List.any_eq_true.mpr ⟨e, he, hk⟩)
    simp [get?, List.find?_append, hn]

/-- Keys stay where they are; a new one comes last. -/
theorem keys_insert (m : OrderedMap κ ν) (k : κ) (v : ν) :
    (m.insert k v).keys = if m.contains k then m.keys else m.keys ++ [k] := by
  unfold insert
  split
  · simp only [keys, List.map_map]
    refine List.map_congr_left fun e _ => ?_
    simp only [Function.comp_apply]
    split <;> rfl
  · simp [keys]

end OrderedMap

end OfferAnswer
