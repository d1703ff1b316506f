/-
OfferAnswer/Proofs/Collapse.lean

Lists in which alike elements are collapsed into one: it stands where the first
of them stood, and is the last of them.

The list is described from the front (`collapseAfter`), element by element with
what stands before it.  `collapse_concat` describes it from the back: one more
element takes the place of the one that it is alike to, or else comes last.
-/
import Mathlib.Data.List.Induction

namespace OfferAnswer

section

variable {α : Type} (alike : α → α → Bool)

/-- The elements that are alike to none before them, each as the last one that
is alike to it. -/
def collapseAfter (before : List α) : List α → List α
  | [] => []
  | x :: rest =>
    if before.any (alike · x) then collapseAfter (before ++ [x]) rest
    else (rest.filter (alike x)).getLastD x :: collapseAfter (before ++ [x]) rest

/-- The list with alike elements collapsed: the first place, the last
element. -/
def collapse (xs : List α) : List α := collapseAfter alike [] xs

/-- Let an element take the place of those that it is alike to, or come
last. -/
def enter (xs : List α) (y : α) : List α :=
  if xs.any (alike · y) then xs.map fun x => if alike x y then y else x else xs ++ [y]

end

variable {α : Type} {alike : α → α → Bool} {before xs : List α} {x y : α}

/-! ### Entering -/

theorem enter_of_not_alike (h : ∀ x ∈ xs, alike x y = false) : enter alike xs y = xs ++ [y] := by
  rw [enter, if_neg]
  simpa using h

/-- What stands in front and is not alike stays as it is. -/
theorem enter_append_of_not_alike {ys : List α} (h : ∀ x ∈ xs, alike x y = false) :
    enter alike (xs ++ ys) y = xs ++ enter alike ys y := by
  have hmap : xs.map (fun x => if alike x y then y else x) = xs :=
    (List.map_congr_left fun x hx => if_neg (by simp [h x hx])).trans (List.map_id' xs)
  have hany : xs.any (alike · y) = false := by simpa using h
  rw [enter, enter, List.any_append, hany, Bool.false_or, List.map_append, hmap]
  split <;> simp

theorem enter_map {β : Type} {alike' : β → β → Bool} {f : α → β}
    (h : ∀ x ∈ xs, alike' (f x) (f y) = alike x y) :
    enter alike' (xs.map f) (f y) = (enter alike xs y).map f := by
  have hany : (xs.map f).any (alike' · (f y)) = xs.any (alike · y) := by
    rw [List.any_map, Bool.eq_iff_iff, List.any_eq_true, List.any_eq_true]
    exact exists_congr fun x => and_congr_right fun hx => by rw [Function.comp_apply, h x hx]
  rw [enter, enter, hany]
  split
  · rw [List.map_map, List.map_map]
    refine List.map_congr_left fun x hx => ?_
    rw [Function.comp_apply, Function.comp_apply, h x hx]
    split <;> rfl
  · rw [List.map_append, List.map_singleton]

/-! ### Without alike elements -/

theorem collapseAfter_eq_self (hbefore : ∀ x ∈ xs, before.any (alike · x) = false)
    (hxs : xs.Pairwise fun x y => alike x y = false) : collapseAfter alike before xs = xs := by
  induction xs generalizing before with
  | nil => rfl
  | cons x xs ih =>
    rw [List.forall_mem_cons] at hbefore
    obtain ⟨hx, hrest⟩ := List.pairwise_cons.mp hxs
    have hnone : xs.filter (alike x) = [] := by
      rw [List.filter_eq_nil_iff]
      exact fun y hy => by simp [hx y hy]
    have hbefore' : ∀ y ∈ xs, (before ++ [x]).any (alike · y) = false := fun y hy => by
      simp [hbefore.2 y hy, hx y hy]
    rw [collapseAfter, hbefore.1, hnone, ih hbefore' hrest]
    rfl

/-- Where no two elements are alike nothing is collapsed. -/
theorem collapse_eq_self (h : xs.Pairwise fun x y => alike x y = false) :
    collapse alike xs = xs :=
  collapseAfter_eq_self (fun _ _ => rfl) h

/-! ### Members -/

theorem getLastD_mem (xs : List α) (x : α) : xs.getLastD x = x ∨ xs.getLastD x ∈ xs := by
  cases xs with
  | nil => exact .inl rfl
  | cons y ys =>
    rw [List.getLastD_cons]
    exact .inr List.getLastD_mem_cons

/-- What is left is an element of the list. -/
theorem mem_of_mem_collapseAfter (h : y ∈ collapseAfter alike before xs) : y ∈ xs := by
  induction xs generalizing before with
  | nil => exact absurd h List.not_mem_nil
  | cons x xs ih =>
    rw [collapseAfter] at h
    split at h
    · exact List.mem_cons_of_mem _ (ih h)
    · rcases List.mem_cons.mp h with rfl | h
      · rcases getLastD_mem (xs.filter (alike x)) x with he | hm
        · rw [he]
          exact List.mem_cons_self
        · exact List.mem_cons_of_mem _ (List.mem_filter.mp hm).1
      · exact List.mem_cons_of_mem _ (ih h)

/-- An element that is alike to none is left. -/
theorem mem_collapseAfter (hx : ∀ y, alike x y = false) (hx' : ∀ y, alike y x = false)
    (h : x ∈ xs) : x ∈ collapseAfter alike before xs := by
  induction xs generalizing before with
  | nil => exact absurd h List.not_mem_nil
  | cons y xs ih =>
    rw [collapseAfter]
    rcases List.mem_cons.mp h with rfl | h
    · have hbefore : before.any (alike · x) = false := by simp [hx']
      have hnone : xs.filter (alike x) = [] := by simp [hx]
      rw [hbefore, hnone]
      exact List.mem_cons_self
    · split
      · exact ih h
      · exact List.mem_cons_of_mem _ (ih h)

/-! ### One more element -/

section

variable (hsymm : ∀ a b, alike a b = true → alike b a = true)
  (htrans : ∀ a b c, alike a b = true → alike b c = true → alike a c = true)
include hsymm htrans

/-- What stands for an element is alike to the same ones. -/
theorem alike_getLastD (xs : List α) :
    alike ((xs.filter (alike x)).getLastD x) y = alike x y := by
  rcases getLastD_mem (xs.filter (alike x)) x with he | hm
  · rw [he]
  · have hx := (List.mem_filter.mp hm).2
    rw [Bool.eq_iff_iff]
    exact ⟨htrans _ _ _ hx, htrans _ _ _ (hsymm _ _ hx)⟩

/-- Nothing that is left is alike to what stands before. -/
theorem not_alike_of_mem_collapseAfter (h : y ∈ collapseAfter alike before xs) :
    before.any (alike · y) = false := by
  induction xs generalizing before with
  | nil => exact absurd h List.not_mem_nil
  | cons x xs ih =>
    have hrest : y ∈ collapseAfter alike (before ++ [x]) xs →
        before.any (alike · y) = false := fun hy => by
      have := ih hy
      rw [List.any_append, Bool.or_eq_false_iff] at this
      exact this.1
    rw [collapseAfter] at h
    split at h
    · exact hrest h
    · next hx =>
      rcases List.mem_cons.mp h with rfl | h
      · rw [List.any_eq_false]
        intro b hb hby
        -- Alike to the one that stands for `x` is alike to `x`.
        have hxb := hsymm _ _ hby
        rw [alike_getLastD hsymm htrans] at hxb
        exact hx (List.any_eq_true.mpr ⟨b, hb, hsymm _ _ hxb⟩)
      · exact hrest h

/-- An element that is alike to one before changes nothing. -/
theorem collapseAfter_concat_of_alike (h : before.any (alike · y) = true) :
    collapseAfter alike before (xs ++ [y]) = collapseAfter alike before xs := by
  induction xs generalizing before with
  | nil => simp [collapseAfter, h]
  | cons x xs ih =>
    have hrest : collapseAfter alike (before ++ [x]) (xs ++ [y])
        = collapseAfter alike (before ++ [x]) xs := ih (by rw [List.any_append, h]; rfl)
    rw [List.cons_append, collapseAfter, collapseAfter, hrest]
    split
    · rfl
    · next hx =>
      have hxy : alike x y = false := by
        rw [← Bool.not_eq_true]
        intro hxy
        obtain ⟨b, hb, hby⟩ := List.any_eq_true.mp h
        exact hx (List.any_eq_true.mpr ⟨b, hb, htrans _ _ _ hby (hsymm _ _ hxy)⟩)
      simp [hxy]

theorem collapseAfter_concat (h : before.any (alike · y) = false) :
    collapseAfter alike before (xs ++ [y]) = enter alike (collapseAfter alike before xs) y := by
  induction xs generalizing before with
  | nil => simp [collapseAfter, enter, h]
  | cons x xs ih =>
    rw [List.cons_append, collapseAfter, collapseAfter]
    cases hxy : alike x y with
    | true =>
      -- `y` stands for `x` from now on, and for nothing else.
      have hx : before.any (alike · x) = false := by
        rw [List.any_eq_false] at h ⊢
        exact fun b hb hbx => h b hb (htrans _ _ _ hbx hxy)
      have hbefore : (before ++ [x]).any (alike · y) = true := by simp [hxy]
      have hothers : (collapseAfter alike (before ++ [x]) xs).map
          (fun z => if alike z y then y else z) = collapseAfter alike (before ++ [x]) xs := by
        refine (List.map_congr_left fun z hz => if_neg fun hzy => ?_).trans (List.map_id' _)
        have hxz := not_alike_of_mem_collapseAfter hsymm htrans hz
        rw [List.any_append, Bool.or_eq_false_iff] at hxz
        simp [htrans _ _ _ hxy (hsymm _ _ hzy)] at hxz
      have hlast : ((xs ++ [y]).filter (alike x)).getLastD x = y := by simp [hxy]
      have hfirst : alike ((xs.filter (alike x)).getLastD x) y = true := by
        rw [alike_getLastD hsymm htrans, hxy]
      rw [collapseAfter_concat_of_alike hsymm htrans hbefore, hx, hlast]
      simp only [Bool.false_eq_true, ↓reduceIte, enter, List.any_cons, hfirst, Bool.true_or,
        List.map_cons, hothers]
    | false =>
      have hbefore : (before ++ [x]).any (alike · y) = false := by simp [h, hxy]
      have hfilter : (xs ++ [y]).filter (alike x) = xs.filter (alike x) := by simp [hxy]
      rw [ih hbefore, hfilter]
      split
      · rfl
      · simp only [enter, List.any_cons, alike_getLastD hsymm htrans, hxy, Bool.false_or,
          List.map_cons, Bool.false_eq_true, ↓reduceIte, List.cons_append]
        split <;> rfl

/-- One more element takes the place of the one that it is alike to, or comes
last. -/
theorem collapse_concat : collapse alike (xs ++ [y]) = enter alike (collapse alike xs) y :=
  collapseAfter_concat hsymm htrans rfl

/-- The elements enter one after the other. -/
theorem collapse_eq_foldl (xs : List α) : collapse alike xs = xs.foldl (enter alike) [] := by
  induction xs using List.reverseRecOn with
  | nil => rfl
  | append_singleton xs x ih =>
    rw [collapse_concat hsymm htrans, ih, List.foldl_append, List.foldl_cons, List.foldl_nil]

end

end OfferAnswer
