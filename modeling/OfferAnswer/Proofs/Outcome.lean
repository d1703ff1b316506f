/-
OfferAnswer/Proofs/Outcome.lean

When a computation that may fail succeeds or fails, and with what.

Readers are written as sequences of steps, each of which may fail.  The lemmas
take such a sequence apart into the steps that succeeded and the first one that
did not, so that no later proof looks at how the steps are chained.
-/
import Mathlib.Data.List.Forall2

namespace OfferAnswer.Outcome

variable {ε ε' α β : Type} {x : Except ε α} {a : α} {b : β}

@[simp] theorem ok_bind {f : α → Except ε β} : (.ok a >>= f) = f a := rfl

@[simp] theorem error_bind {e : ε} {f : α → Except ε β} : (.error e >>= f) = .error e := rfl

@[simp] theorem map_ok {f : α → β} : (f <$> (.ok a : Except ε α)) = .ok (f a) := rfl

@[simp] theorem map_error {e : ε} {f : α → β} : (f <$> (.error e : Except ε α)) = .error e := rfl

@[simp] theorem pure_eq : (pure a : Except ε α) = .ok a := rfl

theorem bind_eq_ok {f : α → Except ε β} :
    (x >>= f) = .ok b ↔ ∃ a, x = .ok a ∧ f a = .ok b := by
  cases x <;> simp [bind, Except.bind]

theorem map_eq_ok {f : α → β} : (f <$> x) = .ok b ↔ ∃ a, x = .ok a ∧ f a = b := by
  cases x <;> simp [Functor.map, Except.map]

theorem mapError_eq_ok {f : ε → ε'} : x.mapError f = .ok a ↔ x = .ok a := by
  cases x <;> simp [Except.mapError]

/-- A sequence fails with its first step that fails. -/
theorem bind_eq_error {f : α → Except ε β} {e : ε} :
    (x >>= f) = .error e ↔ x = .error e ∨ ∃ a, x = .ok a ∧ f a = .error e := by
  cases x <;> simp [bind, Except.bind]

theorem map_eq_error {f : α → β} {e : ε} : (f <$> x) = .error e ↔ x = .error e := by
  cases x <;> simp [Functor.map, Except.map]

theorem mapError_eq_error {f : ε → ε'} {e : ε'} :
    x.mapError f = .error e ↔ ∃ e', x = .error e' ∧ f e' = e := by
  cases x <;> simp [Except.mapError]

theorem pure_eq_ok {a' : α} : (pure a : Except ε α) = .ok a' ↔ a = a' := by
  simp [pure, Except.pure]

theorem throw_ne_ok {e : ε} : (throw e : Except ε α) = .ok a ↔ False := by
  simp [throw, throwThe, MonadExceptOf.throw]

/-- A list is read element by element. -/
theorem mapM_eq_ok {f : α → Except ε β} {xs : List α} {ys : List β} :
    xs.mapM f = .ok ys ↔ List.Forall₂ (fun x y => f x = .ok y) xs ys := by
  induction xs generalizing ys with
  | nil => rw [List.mapM_nil, pure_eq_ok, List.forall₂_nil_left_iff, eq_comm]
  | cons x xs ih =>
    simp only [List.mapM_cons, bind_eq_ok, pure_eq_ok, ih, List.forall₂_cons_left_iff]
    constructor
    · rintro ⟨y, hy, ys', hys, rfl⟩
      exact ⟨y, ys', hy, hys, rfl⟩
    · rintro ⟨y, ys', hy, hys, rfl⟩
      exact ⟨y, hy, ys', hys, rfl⟩

/-- Everything read from a list was read from one of its elements. -/
theorem mem_of_mapM {f : α → Except ε β} {xs : List α} {ys : List β} (h : xs.mapM f = .ok ys) :
    ∀ y ∈ ys, ∃ x ∈ xs, f x = .ok y := by
  have h := mapM_eq_ok.mp h
  induction h with
  | nil => simp
  | cons hxy _ ih =>
    rintro z (_ | ⟨_, hz⟩)
    · exact ⟨_, List.mem_cons_self, hxy⟩
    · obtain ⟨x, hx, hxz⟩ := ih (mapM_eq_ok.mpr ‹_›) z hz
      exact ⟨x, List.mem_cons_of_mem _ hx, hxz⟩

/-- A list fails with its first element that fails. -/
theorem mapM_eq_error {f : α → Except ε β} {xs : List α} {e : ε} :
    xs.mapM f = .error e ↔ ∃ before x after, xs = before ++ x :: after
      ∧ (∀ y ∈ before, ∃ b, f y = .ok b) ∧ f x = .error e := by
  induction xs with
  | nil => simp
  | cons x xs ih =>
    simp only [List.mapM_cons, bind_eq_error, ih]
    constructor
    · rintro (hx | ⟨b, hb, ⟨before, y, after, rfl, hbefore, hy⟩ | ⟨_, _, h⟩⟩)
      · exact ⟨[], x, xs, rfl, by simp, hx⟩
      · exact ⟨x :: before, y, after, rfl, List.forall_mem_cons.mpr ⟨⟨b, hb⟩, hbefore⟩, hy⟩
      · exact nomatch h
    · rintro ⟨before, y, after, hxs, hbefore, hy⟩
      cases before with
      | nil =>
        obtain ⟨rfl, rfl⟩ := List.cons.inj hxs
        exact .inl hy
      | cons _ before =>
        obtain ⟨rfl, rfl⟩ := List.cons.inj hxs
        obtain ⟨⟨b, hb⟩, hbefore⟩ := List.forall_mem_cons.mp hbefore
        exact .inr ⟨b, hb, .inl ⟨before, y, after, rfl, hbefore, hy⟩⟩

/-- A list fails if one of its elements does. -/
theorem exists_mapM_eq_error_iff {f : α → Except ε β} {xs : List α} :
    (∃ e, xs.mapM f = .error e) ↔ ∃ x ∈ xs, ∃ e, f x = .error e := by
  induction xs with
  | nil => simp
  | cons x xs ih =>
    simp only [List.mapM_cons, bind_eq_error, List.exists_mem_cons_iff, ← ih]
    cases f x <;> simp

/-- Steps of which it does not depend on the state whether they fail: a run
fails if one of them does. -/
theorem exists_foldlM_eq_error_iff {f : β → α → Except ε β} {P : α → Prop}
    (hf : ∀ b x, (∃ e, f b x = .error e) ↔ P x) {xs : List α} :
    (∃ e, xs.foldlM f b = .error e) ↔ ∃ x ∈ xs, P x := by
  induction xs generalizing b with
  | nil => simp
  | cons x xs ih =>
    simp only [List.foldlM_cons, bind_eq_error, List.exists_mem_cons_iff, ← hf b x]
    cases f b x with
    | error e => simp
    | ok b' => simpa using ih

/-- A list that is written element by element is read again. -/
theorem mapM_map {f : α → Except ε β} {g : β → α} {ys : List β}
    (h : ∀ y ∈ ys, f (g y) = .ok y) : (ys.map g).mapM f = .ok ys := by
  rw [mapM_eq_ok, List.forall₂_map_left_iff]
  exact List.forall₂_same.mpr h

/-- A list whose elements may have no value is read element by element too. -/
theorem mapM_eq_some {f : α → Option β} {xs : List α} {ys : List β} :
    xs.mapM f = some ys ↔ List.Forall₂ (fun x y => f x = some y) xs ys := by
  induction xs generalizing ys with
  | nil => simp [eq_comm]
  | cons x xs ih =>
    simp only [List.mapM_cons, Option.bind_eq_bind, Option.bind_eq_some_iff, Option.pure_def,
      Option.some.injEq, List.forall₂_cons_left_iff, ih]
    constructor
    · rintro ⟨y, hy, ys, hys, rfl⟩
      exact ⟨y, ys, hy, hys, rfl⟩
    · rintro ⟨y, ys, hy, hys, rfl⟩
      exact ⟨y, hy, ys, hys, rfl⟩

theorem mapM_map_eq_some {f : α → Option β} {g : β → α} {ys : List β}
    (h : ∀ y ∈ ys, f (g y) = some y) : (ys.map g).mapM f = some ys := by
  rw [mapM_eq_some, List.forall₂_map_left_iff]
  exact List.forall₂_same.mpr h

/-- A list that was read element by element is written as it was, if its
elements are. -/
theorem map_eq_of_mapM {f : α → Except ε β} {g : β → α} {xs : List α} {ys : List β}
    (h : xs.mapM f = .ok ys) (hg : ∀ x ∈ xs, ∀ y, f x = .ok y → g y = x) : ys.map g = xs := by
  have h := mapM_eq_ok.mp h
  induction h with
  | nil => rfl
  | cons hxy _ ih =>
    rw [List.forall_mem_cons] at hg
    rw [List.map_cons, hg.1 _ hxy, ih (mapM_eq_ok.mpr ‹_›) hg.2]

/-- An optional value is read if it is there. -/
theorem mem_of_optionMapM {f : α → Except ε β} {o : Option α} {r : Option β}
    (h : o.mapM f = .ok r) : ∀ y ∈ r, ∃ x ∈ o, f x = .ok y := by
  cases o with
  | none =>
    obtain rfl : none = r := pure_eq_ok.mp h
    simp
  | some x =>
    obtain ⟨y, hy, rfl⟩ := map_eq_ok.mp h
    rintro _ ⟨⟩
    exact ⟨x, rfl, hy⟩

theorem optionMapM_map {f : α → Except ε β} {g : β → α} {r : Option β}
    (h : ∀ y ∈ r, f (g y) = .ok y) : (r.map g).mapM f = .ok r := by
  cases r with
  | none => rfl
  | some y => exact map_eq_ok.mpr ⟨y, h y rfl, rfl⟩

theorem optionMap_eq_of_mapM {f : α → Except ε β} {g : β → α} {o : Option α} {r : Option β}
    (h : o.mapM f = .ok r) (hg : ∀ x ∈ o, ∀ y, f x = .ok y → g y = x) : r.map g = o := by
  cases o with
  | none =>
    obtain rfl : none = r := pure_eq_ok.mp h
    rfl
  | some x =>
    obtain ⟨y, hy, rfl⟩ := map_eq_ok.mp h
    exact congrArg some (hg x rfl y hy)

/-- What holds of the start of a run of steps, and is kept by each step that
succeeds, holds of its end. -/
theorem foldlM_induction {f : β → α → Except ε β} {P : β → Prop} {xs : List α} {b b' : β}
    (h : xs.foldlM f b = .ok b') (h₀ : P b)
    (hstep : ∀ b x b', x ∈ xs → P b → f b x = .ok b' → P b') : P b' := by
  induction xs generalizing b with
  | nil =>
    rw [List.foldlM_nil, pure_eq_ok] at h
    exact h ▸ h₀
  | cons x xs ih =>
    rw [List.foldlM_cons, bind_eq_ok] at h
    obtain ⟨b₁, h₁, hrest⟩ := h
    exact ih hrest (hstep b x b₁ (by simp) h₀ h₁)
      fun b x b' hx => hstep b x b' (List.mem_cons_of_mem _ hx)

/-- A computation that is seen to succeed, with a result that is seen to be as
it should. -/
theorem exists_ok_of_any {P : α → Prop} [DecidablePred P]
    (h : (x.toOption.any fun a => decide (P a)) = true) : ∃ a, x = .ok a ∧ P a := by
  cases x with
  | error e => simp [Except.toOption] at h
  | ok a => exact ⟨a, rfl, by simpa [Except.toOption] using h⟩

/-- A computation that is seen to fail, with an error that is seen to be as it
should. -/
theorem exists_error_of_any {P : ε → Prop} [DecidablePred P]
    (h : (match x with | .ok _ => false | .error e => decide (P e)) = true) :
    ∃ e, x = .error e ∧ P e := by
  cases x with
  | error e => exact ⟨e, rfl, by simpa using h⟩
  | ok a => exact nomatch h

/-! ### Two computations -/

section Rel

variable {γ δ : Type} {R : α → β → Prop} {S : γ → δ → Prop} {y : Except ε β}

/-- Two computations that fail alike, or succeed with related results. -/
inductive Rel (R : α → β → Prop) : Except ε α → Except ε β → Prop
  | error (e : ε) : Rel R (.error e) (.error e)
  | ok {a : α} {b : β} (h : R a b) : Rel R (.ok a) (.ok b)

theorem Rel.bind {f : α → Except ε γ} {g : β → Except ε δ} (h : Rel R x y)
    (hfg : ∀ a b, R a b → Rel S (f a) (g b)) : Rel S (x >>= f) (y >>= g) := by
  cases h with
  | error e => exact .error e
  | ok hab => exact hfg _ _ hab

theorem Rel.mapError {f : ε → ε'} (h : Rel R x y) : Rel R (x.mapError f) (y.mapError f) := by
  cases h with
  | error e => exact .error (f e)
  | ok hab => exact .ok hab

theorem Rel.mapM {xs : List γ} {ys : List δ} {f : γ → Except ε α} {g : δ → Except ε β}
    (h : List.Forall₂ S xs ys) (hfg : ∀ a b, S a b → Rel R (f a) (g b)) :
    Rel (List.Forall₂ R) (xs.mapM f) (ys.mapM g) := by
  induction h with
  | nil => exact .ok .nil
  | cons hab _ ih =>
    rw [List.mapM_cons, List.mapM_cons]
    exact (hfg _ _ hab).bind fun _ _ hhead => ih.bind fun _ _ htail => .ok (.cons hhead htail)

/-- The first of related elements to pass related tests. -/
theorem find?_rel {xs : List γ} {ys : List δ} {p : γ → Bool} {q : δ → Bool}
    (h : List.Forall₂ S xs ys) (hpq : ∀ x y, S x y → p x = q y) :
    Option.Rel S (xs.find? p) (ys.find? q) := by
  induction h with
  | nil => exact .none
  | cons hxy _ ih =>
    rw [List.find?_cons, List.find?_cons, hpq _ _ hxy]
    split
    · exact .some hxy
    · exact ih

/-- Related elements are folded alike, if each changes the result alike. -/
theorem foldlM_congr {xs : List γ} {ys : List δ} {f : α → γ → Except ε α} {g : α → δ → Except ε α}
    (h : List.Forall₂ S xs ys) (hfg : ∀ a x y, S x y → f a x = g a y) (a : α) :
    xs.foldlM f a = ys.foldlM g a := by
  induction h generalizing a with
  | nil => rfl
  | cons hxy _ ih =>
    rw [List.foldlM_cons, List.foldlM_cons, hfg a _ _ hxy]
    exact bind_congr fun a' => ih a'
end Rel

end OfferAnswer.Outcome
