/-
OfferAnswer/Proofs/Document/Cut.lean

Texts put together from lines, and cut between them.

A text is either a last line without an ending, or a line with its ending and a
text behind it; most proofs go by these two cases (`Text.rec_lines`).  A text
that ends with a line feed can be continued, and the lines of the whole are
those of the two parts (`Line.texts_append`); and every text that has lines can
be cut again between any two of them (`Line.exists_append_of_texts`).
-/
import OfferAnswer.Proofs.LineCount

namespace OfferAnswer

/-! ### Cutting lists -/

section

variable {α : Type} {p : α → Bool} {x : α} {xs ys : List α}

/-- Cut a list before each member with a property: the members in front of the
first cut, and the pieces behind the cuts. -/
def cutBefore (p : α → Bool) : List α → List α × List (List α)
  | [] => ([], [])
  | x :: xs =>
    if p x then ([], (x :: (cutBefore p xs).1) :: (cutBefore p xs).2)
    else (x :: (cutBefore p xs).1, (cutBefore p xs).2)

/-- Nothing is lost by cutting. -/
theorem flatten_cutBefore (p : α → Bool) (xs : List α) :
    (cutBefore p xs).1 ++ (cutBefore p xs).2.flatten = xs := by
  induction xs with
  | nil => rfl
  | cons x xs ih =>
    rw [cutBefore]
    split <;> simp [ih]

theorem cutBefore_of_forall (h : ∀ x ∈ xs, p x = false) : cutBefore p xs = (xs, []) := by
  induction xs with
  | nil => rfl
  | cons x xs ih =>
    rw [List.forall_mem_cons] at h
    rw [cutBefore, ih h.2, if_neg (by simp [h.1])]

/-- The last cut leaves those in front of it as they are. -/
theorem cutBefore_append (hx : p x = true) (hys : ∀ y ∈ ys, p y = false) :
    cutBefore p (xs ++ x :: ys) = ((cutBefore p xs).1, (cutBefore p xs).2 ++ [x :: ys]) := by
  induction xs with
  | nil =>
    show cutBefore p (x :: ys) = ([], [x :: ys])
    rw [cutBefore, cutBefore_of_forall hys, if_pos hx]
  | cons y xs ih =>
    rw [List.cons_append, cutBefore, ih, cutBefore]
    split <;> rfl

end

/-! ### Lines and their endings -/

/-- A text is a last line, or a line with its ending and a text behind it. -/
theorem Text.rec_lines {motive : Text → Prop} (last : ∀ t, '\n' ∉ t → motive t)
    (line : ∀ x t, '\n' ∉ x → motive t → motive (x ++ '\n' :: t)) (t : Text) : motive t := by
  induction hn : t.length using Nat.strongRecOn generalizing t with
  | ind n ih =>
    by_cases h : '\n' ∈ t
    · obtain ⟨x, rest, rfl, hx⟩ := List.eq_append_cons_of_mem h
      refine line x rest hx (ih rest.length ?_ rest rfl)
      rw [← hn, List.length_append, List.length_cons]
      omega
    · exact last t h

namespace Line

variable {f : Text → Text} {t x a b : Text} {ts us : List Text}

/-- The lines from the parts between line feeds, those with an ending in some
form. -/
def ofPartsWith (f : Text → Text) : List Text → List Text
  | [] => []
  | [last] => if last = [] then [] else [last]
  | part :: rest => f part :: ofPartsWith f rest

/-- The lines of a text, those with an ending in some form. -/
def linesWith (f : Text → Text) (t : Text) : List Text := ofPartsWith f (t.splitOn '\n')

/-- The lines of a text with their endings. -/
def whole (t : Text) : List Text := linesWith (· ++ ['\n']) t

theorem texts_eq_linesWith (t : Text) : texts t = linesWith dropReturn t := by
  have hparts : ∀ parts, ofParts parts = ofPartsWith dropReturn parts := by
    intro parts
    fun_induction ofParts parts <;> simp_all [ofPartsWith]
  exact hparts _

theorem linesWith_of_not_mem (h : '\n' ∉ t) :
    linesWith f t = if t = [] then [] else [t] := by
  rw [linesWith, List.splitOn_eq_singleton h]
  rfl

theorem linesWith_line (h : '\n' ∉ x) : linesWith f (x ++ '\n' :: t) = f x :: linesWith f t := by
  obtain ⟨part, rest, hparts⟩ := List.exists_cons_of_ne_nil (List.splitOn_ne_nil '\n' t)
  rw [linesWith, linesWith, List.splitOn_append_cons_self, List.splitOn_eq_singleton h, hparts]
  rfl

/-- A text that ends with a line feed can be continued. -/
theorem linesWith_append (ha : a.getLast? = some '\n') :
    linesWith f (a ++ b) = linesWith f a ++ linesWith f b := by
  induction a using Text.rec_lines with
  | last a h => exact absurd (List.mem_of_getLast? ha) h
  | line x a hx ih =>
    rw [List.append_assoc, List.cons_append, linesWith_line hx, linesWith_line hx]
    cases a with
    | nil => rfl
    | cons c a =>
      rw [ih (by simpa [List.getLast?_append] using ha), List.cons_append]

theorem texts_append (ha : a.getLast? = some '\n') : texts (a ++ b) = texts a ++ texts b := by
  simp only [texts_eq_linesWith, linesWith_append ha]

theorem whole_append (ha : a.getLast? = some '\n') : whole (a ++ b) = whole a ++ whole b :=
  linesWith_append ha

theorem flatten_whole (t : Text) : (whole t).flatten = t := by
  induction t using Text.rec_lines with
  | last t h =>
    rw [whole, linesWith_of_not_mem h]
    split <;> simp_all
  | line x t hx ih =>
    rw [whole, linesWith_line hx, List.flatten_cons]
    exact (List.append_assoc x ['\n'] _).trans (congrArg (x ++ '\n' :: ·) ih)

theorem dropReturn_isPrefix (t : Text) : dropReturn t <+: t := by
  unfold dropReturn
  split
  · exact List.dropLast_prefix t
  · exact List.prefix_refl t

/-- A line is what its whole begins with. -/
theorem isPrefix_whole (t : Text) : List.Forall₂ (· <+: ·) (texts t) (whole t) := by
  rw [texts_eq_linesWith]
  induction t using Text.rec_lines with
  | last t h =>
    rw [whole, linesWith_of_not_mem h, linesWith_of_not_mem h]
    split
    · exact .nil
    · exact .cons (List.prefix_refl t) .nil
  | line x t hx ih =>
    rw [whole, linesWith_line hx, linesWith_line hx]
    exact .cons ((dropReturn_isPrefix x).trans (List.prefix_append x _)) ih

/-- A text can be cut between any two of its lines. -/
theorem exists_append_of_texts (hts : ts ≠ []) (hus : us ≠ []) (h : texts t = ts ++ us) :
    ∃ a b, t = a ++ b ∧ a.getLast? = some '\n' ∧ texts a = ts ∧ texts b = us := by
  rw [texts_eq_linesWith] at h
  induction t using Text.rec_lines generalizing ts with
  | last t ht =>
    have hlength := congrArg List.length h
    rw [linesWith_of_not_mem ht, List.length_append] at hlength
    have := List.length_pos_iff.mpr hts
    have := List.length_pos_iff.mpr hus
    split at hlength <;> simp at hlength <;> omega
  | line x t hx ih =>
    rw [linesWith_line hx] at h
    obtain ⟨u, ts, rfl⟩ := List.exists_cons_of_ne_nil hts
    obtain ⟨rfl, hrest⟩ := List.cons.inj h
    by_cases hnil : ts = []
    · -- The cut is right behind this line.
      subst hnil
      refine ⟨x ++ ['\n'], t, by simp, by simp, ?_, (texts_eq_linesWith t).trans hrest⟩
      rw [texts_eq_linesWith, linesWith_line hx]
      rfl
    · obtain ⟨a, b, rfl, ha, hta, htb⟩ := ih hnil hrest
      refine ⟨x ++ '\n' :: a, b, by simp, ?_, ?_, htb⟩
      · rw [List.getLast?_append, List.getLast?_cons, ha]
        rfl
      · rw [texts_eq_linesWith, linesWith_line hx, ← texts_eq_linesWith, hta]

end Line

end OfferAnswer
