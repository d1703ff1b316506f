/-
OfferAnswer/Proofs/OrderedMap.lean

What an ordered mapping holds.

A mapping is settled by its entries.  Pairs whose keys are all different make
a mapping of just these entries (`entries_ofList`), which is why a mapping
that is written entry by entry is read again as it was.  Other pairs make a
mapping of each key once, in the order of their first occurrences, with the
last of its values (`entries_ofList_eq_settled`).
-/
import OfferAnswer.OrderedMap
import OfferAnswer.Proofs.Outcome
import Mathlib.Data.List.Induction
import Mathlib.Data.List.Perm.Subperm

namespace OfferAnswer.OrderedMap

variable {κ ν μ : Type} [BEq κ] {m : OrderedMap κ ν} {k : κ} {v : ν} {e : κ × ν}
  {es : List (κ × ν)}

theorem ext {a b : OrderedMap κ ν} (h : a.entries = b.entries) : a = b := by
  cases a
  cases b
  congr

@[simp] theorem entries_empty : (empty : OrderedMap κ ν).entries = [] := rfl

theorem entries_insert_of_contains (h : m.contains k = true) :
    (m.insert k v).entries = m.entries.map fun e => if e.1 == k then (e.1, v) else e := by
  simp [insert, h]

theorem entries_insert_of_not_contains (h : m.contains k = false) :
    (m.insert k v).entries = m.entries ++ [(k, v)] := by
  simp [insert, h]

theorem contains_eq_false_iff :
    m.contains k = false ↔ ∀ e ∈ m.entries, (e.1 == k) = false := by
  simp [contains, List.any_eq_false]

/-- After an insertion there is the new entry, entries that were there before,
and old keys that equal the new one, with its value. -/
theorem mem_insert (h : e ∈ (m.insert k v).entries) :
    e = (k, v) ∨ e ∈ m.entries ∨ (e.1 == k) = true ∧ e.2 = v ∧ ∃ w, (e.1, w) ∈ m.entries := by
  by_cases hc : m.contains k = true
  · rw [entries_insert_of_contains hc, List.mem_map] at h
    obtain ⟨a, ha, he⟩ := h
    split at he
    · next hk =>
      obtain rfl := he
      exact .inr (.inr ⟨hk, rfl, a.2, ha⟩)
    · exact .inr (.inl (he ▸ ha))
  · rw [entries_insert_of_not_contains (by simpa using hc), List.mem_append,
      List.mem_singleton] at h
    exact h.elim (fun h => .inr (.inl h)) .inl

/-- What holds of all entries still does after an insertion, if it holds of the
new value under the new key and under every key equal to it. -/
theorem forall_insert {P : κ → ν → Prop} (h : ∀ e ∈ m.entries, P e.1 e.2) (hnew : P k v)
    (hold : ∀ j w, (j == k) = true → P j w → P j v) :
    ∀ e ∈ (m.insert k v).entries, P e.1 e.2 := by
  intro e he
  rcases mem_insert he with rfl | he | ⟨hk, hv, w, hw⟩
  · exact hnew
  · exact h e he
  · rw [hv]
    exact hold e.1 w hk (h _ hw)

/-! ### Many entries -/

theorem foldl_insert_append (h : (m.entries ++ es).Pairwise fun a b => (a.1 == b.1) = false) :
    (es.foldl (fun m e => m.insert e.1 e.2) m).entries = m.entries ++ es := by
  induction es generalizing m with
  | nil => simp
  | cons e es ih =>
    have hc : m.contains e.1 = false := by
      rw [contains_eq_false_iff]
      intro a ha
      exact (List.pairwise_append.mp h).2.2 a ha e (by simp)
    have hm : (m.insert e.1 e.2).entries = m.entries ++ [e] :=
      entries_insert_of_not_contains hc
    rw [List.foldl_cons, ih (by simpa [hm] using h), hm, List.append_assoc, List.singleton_append]

theorem distinct_of_nodup [LawfulBEq κ] (h : (es.map Prod.fst).Nodup) :
    es.Pairwise fun a b => (a.1 == b.1) = false :=
  (List.pairwise_map.mp h).imp fun hne => beq_eq_false_iff_ne.mpr hne

/-- Different keys make a mapping of just these entries. -/
theorem entries_ofList (h : es.Pairwise fun a b => (a.1 == b.1) = false) :
    (ofList es).entries = es :=
  foldl_insert_append (m := empty) h

theorem ofList_entries (m : OrderedMap κ ν) : ofList m.entries = m :=
  ext (entries_ofList m.distinct)

theorem ofList_concat : ofList (es ++ [e]) = (ofList es).insert e.1 e.2 := by
  simp [ofList]

/-- Where equal keys are the same, an entry is one of the pairs. -/
theorem mem_of_mem_ofList [LawfulBEq κ] (h : e ∈ (ofList es).entries) : e ∈ es := by
  induction es using List.reverseRecOn with
  | nil => exact absurd h List.not_mem_nil
  | append_singleton es a ih =>
    rw [ofList_concat] at h
    rcases mem_insert h with rfl | h | ⟨hk, hv, -⟩
    · exact List.mem_append_right _ List.mem_cons_self
    · exact List.mem_append_left _ (ih h)
    · obtain rfl : e = a := Prod.ext (eq_of_beq hk) hv
      exact List.mem_append_right _ List.mem_cons_self

/-! ### Looking up -/

theorem mem_of_get? (h : m.get? k = some v) : ∃ j, (j == k) = true ∧ (j, v) ∈ m.entries := by
  obtain ⟨e, he, rfl⟩ := Option.map_eq_some_iff.mp h
  exact ⟨e.1, List.find?_some (p := fun e : κ × ν => e.1 == k) he, List.mem_of_find?_eq_some he⟩

/-- An entry is found under every key equal to its own. -/
theorem get?_of_mem [PartialEquivBEq κ] {j : κ} (h : (j, v) ∈ m.entries) (hk : (j == k) = true) :
    m.get? k = some v := by
  obtain ⟨before, after, hes⟩ := List.append_of_mem h
  have hd := m.distinct
  rw [hes, List.pairwise_append] at hd
  -- An earlier entry with an equal key would be a second one for it.
  have hbefore : before.find? (fun e => e.1 == k) = none := by
    rw [List.find?_eq_none]
    intro e he hek
    have := hd.2.2 e he (j, v) (by simp)
    exact Bool.false_ne_true (this.symm.trans (PartialEquivBEq.trans hek (PartialEquivBEq.symm hk)))
  simp [get?, hes, List.find?_append, hbefore, hk]

/-- Different keys are found with their values. -/
theorem get?_ofList [EquivBEq κ] (h : es.Pairwise fun a b => (a.1 == b.1) = false)
    (hm : (k, v) ∈ es) : (ofList es).get? k = some v :=
  get?_of_mem ((entries_ofList h).symm ▸ hm) BEq.rfl

theorem get?_eq_none (h : ∀ e ∈ m.entries, (e.1 == k) = false) : m.get? k = none := by
  rw [get?, Option.map_eq_none_iff, List.find?_eq_none]
  exact fun e he => by simp [h e he]

/-- Where equal keys are the same, what is found is what there is. -/
theorem get?_eq_some_iff [LawfulBEq κ] : m.get? k = some v ↔ (k, v) ∈ m.entries := by
  refine ⟨fun h => ?_, fun h => get?_of_mem h BEq.rfl⟩
  obtain ⟨j, hj, hm⟩ := mem_of_get? h
  rwa [← eq_of_beq hj]

theorem get?_eq_none_iff [LawfulBEq κ] : m.get? k = none ↔ k ∉ m.keys := by
  rw [get?, Option.map_eq_none_iff, List.find?_eq_none, keys, List.mem_map]
  simp only [beq_iff_eq, not_exists, not_and]

/-! ### Repeated keys -/

/-- The last of the values that pairs give a key. -/
def lastValue? (es : List (κ × ν)) (k : κ) : Option ν :=
  (es.filter fun e => e.1 == k).getLast?.map Prod.snd

theorem lastValue?_concat :
    lastValue? (es ++ [e]) k = if e.1 == k then some e.2 else lastValue? es k := by
  rw [lastValue?, List.filter_append, List.filter_singleton, lastValue?]
  cases e.1 == k <;> simp

section Repeated

variable [LawfulBEq κ]

theorem eraseDups_concat (ks : List κ) (k : κ) :
    (ks ++ [k]).eraseDups = if ks.contains k then ks.eraseDups else ks.eraseDups ++ [k] := by
  rw [List.eraseDups_append, List.cons_removeAll]
  cases ks.contains k <;> simp [List.removeAll, List.eraseDups_cons]

/-- First occurrences stand in the order in which they occur. -/
theorem pairwise_idxOf_eraseDups (ks : List κ) :
    ks.eraseDups.Pairwise fun a b => ks.idxOf a < ks.idxOf b := by
  induction ks using List.reverseRecOn with
  | nil => exact .nil
  | append_singleton ks k ih =>
    have hks : ks.eraseDups.Pairwise fun a b => (ks ++ [k]).idxOf a < (ks ++ [k]).idxOf b := by
      refine ih.imp_of_mem fun {a b} ha hb hab => ?_
      rwa [List.idxOf_append_of_mem (List.mem_eraseDups.mp ha),
        List.idxOf_append_of_mem (List.mem_eraseDups.mp hb)]
    rw [eraseDups_concat]
    split
    · exact hks
    · next hk =>
      refine List.pairwise_append.mpr ⟨hks, List.pairwise_singleton _ _, fun a ha b hb => ?_⟩
      obtain rfl := List.mem_singleton.mp hb
      rw [List.mem_eraseDups] at ha
      rw [List.idxOf_append_of_mem ha, List.idxOf_append_of_notMem (by simpa using hk)]
      exact Nat.lt_add_right _ (List.idxOf_lt_length_iff.mpr ha)

/-- Keys stand in the order of their first pairs. -/
theorem keys_ofList (es : List (κ × ν)) : (ofList es).keys = (es.map Prod.fst).eraseDups := by
  induction es using List.reverseRecOn with
  | nil => rfl
  | append_singleton es e ih =>
    have hcontains : (ofList es).contains e.1 = (es.map Prod.fst).contains e.1 := by
      rw [Bool.eq_iff_iff, List.contains_iff_mem, ← List.mem_eraseDups, ← ih, keys, contains,
        List.any_eq_true, List.mem_map]
      simp only [beq_iff_eq]
    rw [ofList_concat, keys_insert, hcontains, ih, List.map_append, List.map_singleton,
      eraseDups_concat]

theorem get?_insert (m : OrderedMap κ ν) (j k : κ) (v : ν) :
    (m.insert j v).get? k = if j == k then some v else m.get? k := by
  split
  · next hjk =>
    obtain rfl := eq_of_beq hjk
    exact get?_insert_self m j v
  · next hjk =>
    cases hj : m.contains j with
    | false =>
      rw [get?, entries_insert_of_not_contains hj, List.find?_append, get?]
      simp [hjk]
    | true =>
      -- The keys stay, and only the value of another one changes.
      have hkeys : (fun e : κ × ν => e.1 == k) ∘ (fun e => if e.1 == j then (e.1, v) else e)
          = fun e => e.1 == k := funext fun e => by
        rw [Function.comp_apply]
        split <;> rfl
      rw [get?, entries_insert_of_contains hj, List.find?_map, hkeys, Option.map_map, get?]
      refine Option.map_congr fun e he => ?_
      have hek : (e.1 == k) = true := List.find?_some (p := fun e : κ × ν => e.1 == k) he
      have hej : ¬ (e.1 == j) = true := fun hej => hjk (eq_of_beq hej ▸ hek)
      rw [Function.comp_apply, if_neg hej]

/-- Of several values for a key the last one holds. -/
theorem get?_ofList_eq (es : List (κ × ν)) (k : κ) : (ofList es).get? k = lastValue? es k := by
  induction es using List.reverseRecOn with
  | nil => rfl
  | append_singleton es e ih => rw [ofList_concat, get?_insert, ih, lastValue?_concat]

/-- A mapping is settled by its keys and what it maps them to. -/
theorem entries_eq_filterMap_keys (m : OrderedMap κ ν) :
    m.entries = m.keys.filterMap fun k => (m.get? k).map fun v => (k, v) := by
  rw [keys, List.filterMap_map]
  refine (List.filterMap_some.symm.trans (List.filterMap_congr fun e he => ?_))
  rw [Function.comp_apply, get?_of_mem he BEq.rfl, Option.map_some]

/-- What pairs settle: each key once, where it first occurs, with its last
value. -/
def settled (es : List (κ × ν)) : List (κ × ν) :=
  (es.map Prod.fst).eraseDups.filterMap fun k => (lastValue? es k).map fun v => (k, v)

theorem entries_ofList_eq_settled (es : List (κ × ν)) : (ofList es).entries = settled es := by
  rw [entries_eq_filterMap_keys, keys_ofList, settled]
  simp only [get?_ofList_eq]

end Repeated

/-! ### Equality -/

theorem beq_iff [BEq ν] {a b : OrderedMap κ ν} : (a == b) = true ↔
    a.entries.length = b.entries.length
      ∧ ∀ e ∈ a.entries, ∃ v, b.get? e.1 = some v ∧ (e.2 == v) = true := by
  show (a.size == b.size && a.entries.all _) = true ↔ _
  rw [Bool.and_eq_true, beq_iff_eq, List.all_eq_true]
  refine and_congr_right fun _ => forall₂_congr fun e _ => ?_
  cases b.get? e.1 <;> simp

/-- Mappings that are equal have the same entries, where equal keys and equal
values are the same. -/
theorem perm_of_beq [LawfulBEq κ] [BEq ν] [LawfulBEq ν] {a b : OrderedMap κ ν}
    (h : (a == b) = true) : a.entries.Perm b.entries := by
  obtain ⟨hlength, hfound⟩ := beq_iff.mp h
  have hsub : a.entries ⊆ b.entries := by
    intro e he
    obtain ⟨v, hv, hbeq⟩ := hfound e he
    rw [← eq_of_beq hbeq] at hv
    exact get?_eq_some_iff.mp hv
  -- No entry occurs twice, so as many as there are fill the other mapping.
  have hnodup : a.entries.Nodup := a.distinct.imp fun hne he => by simp [he] at hne
  exact (List.subperm_of_subset hnodup hsub).perm_of_length_le (Nat.le_of_eq hlength.symm)

/-- The order of the entries makes no difference. -/
theorem beq_of_perm [LawfulBEq κ] [BEq ν] [ReflBEq ν] {a b : OrderedMap κ ν}
    (h : a.entries.Perm b.entries) : (a == b) = true := by
  refine beq_iff.mpr ⟨h.length_eq, fun e he => ?_⟩
  exact ⟨e.2, get?_eq_some_iff.mpr (h.mem_iff.mp he), BEq.rfl⟩

/-- Mappings that are equal have the same keys. -/
theorem keys_perm_of_beq [LawfulBEq κ] [BEq ν] {a b : OrderedMap κ ν} (h : (a == b) = true) :
    a.keys.Perm b.keys := by
  obtain ⟨hlength, hfound⟩ := beq_iff.mp h
  have hsub : a.keys ⊆ b.keys := by
    intro k hk
    obtain ⟨e, he, rfl⟩ := List.mem_map.mp hk
    obtain ⟨v, hv, -⟩ := hfound e he
    exact List.mem_map.mpr ⟨(e.1, v), get?_eq_some_iff.mp hv, rfl⟩
  -- No key occurs twice, so the keys of the one fill the other.
  have hnodup : a.keys.Nodup :=
    List.pairwise_map.mpr (a.distinct.imp fun hne => beq_eq_false_iff_ne.mp hne)
  refine (List.subperm_of_subset hnodup hsub).perm_of_length_le (Nat.le_of_eq ?_)
  rw [keys, keys, List.length_map, List.length_map, hlength]

/-- Mappings that are equal give equal values to the same keys, and none to the
others. -/
theorem get?_rel_of_beq [LawfulBEq κ] [BEq ν] {a b : OrderedMap κ ν} (h : (a == b) = true)
    (k : κ) : Option.Rel (fun v w => (v == w) = true) (a.get? k) (b.get? k) := by
  cases hget : a.get? k with
  | none =>
    rw [get?_eq_none_iff, (keys_perm_of_beq h).mem_iff] at hget
    rw [get?_eq_none_iff.mpr hget]
    exact .none
  | some v =>
    obtain ⟨w, hw, hvw⟩ := (beq_iff.mp h).2 (k, v) (get?_eq_some_iff.mp hget)
    rw [hw]
    exact .some hvw

/-- Equal mappings stay equal when their values are changed alike. -/
theorem map_beq [PartialEquivBEq κ] [BEq ν] [BEq μ] {f : κ → ν → μ}
    (hf : ∀ j k v w, (j == k) = true → (v == w) = true → (f j v == f k w) = true)
    {a b : OrderedMap κ ν} (h : (a == b) = true) : (a.map f == b.map f) = true := by
  obtain ⟨hlength, hfound⟩ := beq_iff.mp h
  refine beq_iff.mpr ⟨by simpa [map] using hlength, List.forall_mem_map.mpr fun e he => ?_⟩
  obtain ⟨v, hv, hbeq⟩ := hfound e he
  obtain ⟨j, hj, hm⟩ := mem_of_get? hv
  have hmap : (j, f j v) ∈ (b.map f).entries := List.mem_map.mpr ⟨(j, v), hm, rfl⟩
  exact ⟨f j v, get?_of_mem hmap hj, hf e.1 j e.2 v (PartialEquivBEq.symm hj) hbeq⟩

/-- Mappings with the same entries are equal. -/
instance [EquivBEq κ] [BEq ν] [ReflBEq ν] : ReflBEq (OrderedMap κ ν) where
  rfl {m} := by
    exact beq_iff.mpr ⟨rfl, fun e he => ⟨e.2, get?_of_mem he BEq.rfl, BEq.rfl⟩⟩

/-! ### Related mappings -/

section Rel

variable {R : ν → μ → Prop} {m' : OrderedMap κ μ}

/-- The same keys in the same order, with related values. -/
def Rel (R : ν → μ → Prop) (m : OrderedMap κ ν) (m' : OrderedMap κ μ) : Prop :=
  List.Forall₂ (fun e e' => e.1 = e'.1 ∧ R e.2 e'.2) m.entries m'.entries

theorem Rel.contains_eq (h : Rel R m m') (k : κ) : m.contains k = m'.contains k := by
  rw [contains, contains]
  unfold Rel at h
  generalize m.entries = es, m'.entries = es' at h
  induction h with
  | nil => rfl
  | cons he _ ih => rw [List.any_cons, List.any_cons, he.1, ih]

theorem Rel.insert (h : Rel R m m') {k : κ} {v : ν} {v' : μ} (hv : R v v') :
    Rel R (m.insert k v) (m'.insert k v') := by
  rw [Rel]
  cases hk : m'.contains k with
  | true =>
    rw [entries_insert_of_contains hk, entries_insert_of_contains ((h.contains_eq k).trans hk),
      List.forall₂_map_left_iff, List.forall₂_map_right_iff]
    refine h.imp fun e e' he => ?_
    rw [he.1]
    split
    · exact ⟨rfl, hv⟩
    · exact he
  | false =>
    rw [entries_insert_of_not_contains hk,
      entries_insert_of_not_contains ((h.contains_eq k).trans hk)]
    exact List.rel_append h (.cons ⟨rfl, hv⟩ .nil)

theorem Rel.ofList {es : List (κ × ν)} {es' : List (κ × μ)}
    (h : List.Forall₂ (fun e e' => e.1 = e'.1 ∧ R e.2 e'.2) es es') :
    Rel R (ofList es) (ofList es') := by
  suffices ∀ {m : OrderedMap κ ν} {m' : OrderedMap κ μ}, Rel R m m' →
      Rel R (es.foldl (fun m e => m.insert e.1 e.2) m)
        (es'.foldl (fun m e => m.insert e.1 e.2) m') from this .nil
  induction h with
  | nil => exact id
  | cons he _ ih =>
    intro m m' hm
    rw [List.foldl_cons, List.foldl_cons, he.1]
    exact ih (hm.insert he.2)

theorem Rel.get? (h : Rel R m m') (k : κ) : Option.Rel R (m.get? k) (m'.get? k) := by
  have hfound := Outcome.find?_rel (p := (·.1 == k)) (q := (·.1 == k)) h fun _ _ he => by rw [he.1]
  rw [OrderedMap.get?, OrderedMap.get?]
  generalize m.entries.find? _ = o, m'.entries.find? _ = o' at hfound
  cases hfound with
  | none => exact .none
  | some he => exact .some he.2

end Rel

end OfferAnswer.OrderedMap
