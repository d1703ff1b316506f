/-
OfferAnswer/Text/Basic.lean

Texts as lists of characters, and the three ways in which lines are taken
apart: at every blank, at the first few blanks only, and at the first
occurrence of a separator.

Each way has a law that says what it loses, which is nothing: `cut_some` and
`cut_none` for the first occurrence, `intercalate_splitAtMost` for the first
few.  For every occurrence the standard library has both directions.
-/

namespace OfferAnswer

/-- A text is its list of characters; lengths and cuts count characters. -/
abbrev Text := List Char

namespace Text

/-- The text as a string, for messages. -/
def toString (t : Text) : String := String.ofList t

/-! ### Cutting at the first separator -/

/-- What stands before the first `sep`, and, where it occurs, what stands
after it. -/
def cut (sep : Char) : Text → Text × Option Text
  | [] => ([], none)
  | c :: rest =>
    if c = sep then ([], some rest)
    else ((c :: (cut sep rest).1), (cut sep rest).2)

theorem cut_some {sep : Char} {t a b : Text} (h : cut sep t = (a, some b)) :
    t = a ++ sep :: b ∧ sep ∉ a := by
  induction t generalizing a with
  | nil => simp [cut] at h
  | cons c rest ih =>
    by_cases hc : c = sep
    · simp only [cut, hc, ↓reduceIte, Prod.mk.injEq, Option.some.injEq] at h
      simp [← h.1, h.2, hc]
    · simp only [cut, hc, ↓reduceIte, Prod.mk.injEq] at h
      obtain ⟨ha, hb⟩ := h
      have := ih (a := (cut sep rest).1) (Prod.ext rfl hb)
      exact ⟨by rw [← ha, List.cons_append, ← this.1],
        by rw [← ha]; simp [this.2, Ne.symm hc]⟩

theorem cut_none {sep : Char} {t a : Text} (h : cut sep t = (a, none)) :
    t = a ∧ sep ∉ a := by
  induction t generalizing a with
  | nil => simp [cut] at h; simp [h]
  | cons c rest ih =>
    by_cases hc : c = sep
    · simp [cut, hc] at h
    · simp only [cut, hc, ↓reduceIte, Prod.mk.injEq] at h
      obtain ⟨ha, hb⟩ := h
      have := ih (a := (cut sep rest).1) (Prod.ext rfl hb)
      exact ⟨by rw [← ha, ← this.1], by rw [← ha]; simp [this.2, Ne.symm hc]⟩

/-- A text without the separator in front of one is cut exactly there. -/
theorem cut_append {sep : Char} {a : Text} (h : sep ∉ a) (b : Text) :
    cut sep (a ++ sep :: b) = (a, some b) := by
  induction a with
  | nil => simp [cut]
  | cons c a ih =>
    rw [List.mem_cons, not_or] at h
    simp [cut, Ne.symm h.1, ih h.2]

/-- A text without the separator is not cut. -/
theorem cut_eq_none {sep : Char} {t : Text} (h : sep ∉ t) :
    cut sep t = (t, none) := by
  induction t with
  | nil => rfl
  | cons c t ih =>
    rw [List.mem_cons, not_or] at h
    simp [cut, Ne.symm h.1, ih h.2]

/-! ### Splitting at the first few separators -/

/-- Split at the first `n` occurrences of `sep`; the last part keeps the
others. -/
def splitAtMost (sep : Char) : Nat → Text → List Text
  | 0, t => [t]
  | n + 1, t =>
    match cut sep t with
    | (a, none) => [a]
    | (a, some b) => a :: splitAtMost sep n b

theorem splitAtMost_ne_nil (sep : Char) (n : Nat) (t : Text) :
    splitAtMost sep n t ≠ [] := by
  cases n with
  | zero => simp [splitAtMost]
  | succ n =>
    rw [splitAtMost]
    split <;> simp

/-- Nothing is lost by splitting. -/
theorem intercalate_splitAtMost (sep : Char) (n : Nat) (t : Text) :
    [sep].intercalate (splitAtMost sep n t) = t := by
  induction n generalizing t with
  | zero => simp [splitAtMost, List.intercalate]
  | succ n ih =>
    rw [splitAtMost]
    split
    · next a h => simp [List.intercalate, (cut_none h).1]
    · next a b h =>
      obtain ⟨c, rest, hs⟩ : ∃ c rest, splitAtMost sep n b = c :: rest :=
        List.exists_cons_of_ne_nil (splitAtMost_ne_nil sep n b)
      have hb := ih b
      rw [hs] at hb
      rw [hs, (cut_some h).1, ← hb]
      simp [List.intercalate, List.intersperse]

/-! ### Words -/

/-- The parts between single blanks; two blanks in a row give an empty
word. -/
def words (t : Text) : List Text := t.splitOn ' '

/-- Words joined by single blanks. -/
def unwords (ws : List Text) : Text := [' '].intercalate ws

theorem unwords_words (t : Text) : unwords (words t) = t :=
  List.intercalate_splitOn ' '

theorem words_unwords {ws : List Text} (hne : ws ≠ [])
    (h : ∀ w ∈ ws, ' ' ∉ w) : words (unwords ws) = ws :=
  List.splitOn_intercalate ' ' h hne

end Text

end OfferAnswer
