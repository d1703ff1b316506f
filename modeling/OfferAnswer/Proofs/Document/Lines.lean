/-
OfferAnswer/Proofs/Document/Lines.lean

Texts made of lines.

Lines that are not empty and hold no line feed are found again in the text
that they are written to, a carriage return at their end included.
-/
import OfferAnswer.Document.Section
import OfferAnswer.Proofs.Outcome
import OfferAnswer.Proofs.Text
import OfferAnswer.Text.Lines

namespace OfferAnswer.Line

open Text Outcome

variable {n : Nat} {t : Text} {ts : List Text} {ls : List Line}

/-! ### Numbering -/

theorem map_text_of_numberFrom :
    numberFrom n ts = .ok ls → ls.map Line.text = ts ∧ [] ∉ ts := by
  induction ts generalizing n ls with
  | nil =>
    intro h
    obtain rfl := Except.ok.inj h
    simp
  | cons t ts ih =>
    intro h
    unfold numberFrom at h
    split at h
    · simp at h
    · next hne =>
      obtain ⟨rest, hrest, rfl⟩ := map_eq_ok.mp h
      obtain ⟨rfl, hmem⟩ := ih hrest
      rw [List.mem_cons, not_or]
      exact ⟨rfl, Ne.symm hne, hmem⟩

theorem exists_numberFrom (h : [] ∉ ts) (n : Nat) :
    ∃ ls, numberFrom n ts = .ok ls ∧ ls.map Line.text = ts := by
  induction ts generalizing n with
  | nil => exact ⟨[], rfl, rfl⟩
  | cons t ts ih =>
    rw [List.mem_cons, not_or] at h
    obtain ⟨ls, hls, hmap⟩ := ih h.2 (n + 1)
    refine ⟨⟨n, t⟩ :: ls, ?_, by rw [List.map_cons, hmap]⟩
    rw [numberFrom, if_neg (Ne.symm h.1), hls]
    rfl

/-! ### Parts and lines -/

theorem mem_dropReturn {c : Char} (h : c ∈ dropReturn t) : c ∈ t := by
  unfold dropReturn at h
  split at h
  · exact List.dropLast_subset t h
  · exact h

theorem not_mem_of_mem_ofParts {c : Char} {parts : List Text} (h : ∀ t ∈ parts, c ∉ t)
    (ht : t ∈ ofParts parts) : c ∉ t := by
  induction parts with
  | nil => simp [ofParts] at ht
  | cons part rest ih =>
    rw [List.forall_mem_cons] at h
    -- The last part keeps a carriage return at its end, and is no line if it is empty.
    cases rest with
    | nil =>
      unfold ofParts at ht
      split at ht
      · simp at ht
      · exact List.mem_singleton.mp ht ▸ h.1
    | cons part' rest =>
      rcases List.mem_cons.mp ht with rfl | ht
      · exact fun hm => h.1 (mem_dropReturn hm)
      · exact ih h.2 ht

/-- Lines are not empty and hold no line feed. -/
theorem inLine_of_ofText (h : Line.ofText t = .ok ls) :
    ∀ l ∈ ls, l.text ≠ [] ∧ Over InLine l.text := by
  obtain ⟨hmap, hne⟩ := map_text_of_numberFrom h
  intro l hl
  have hmem : l.text ∈ ofParts (t.splitOn '\n') := hmap ▸ List.mem_map_of_mem hl
  refine ⟨fun he => hne (he ▸ hmem), over_inLine.mpr ?_⟩
  exact not_mem_of_mem_ofParts (fun a ha => not_mem_of_mem_splitOn ha) hmem

theorem dropReturn_concat (t : Text) : dropReturn (t ++ ['\r']) = t := by
  simp [dropReturn]

theorem ofParts_written (ts : List Text) : ofParts (ts.map (· ++ ['\r']) ++ [[]]) = ts := by
  induction ts with
  | nil => rfl
  | cons t ts ih =>
    have hne : ts.map (· ++ ['\r']) ++ [[]] ≠ [] := by simp
    rw [List.map_cons, List.cons_append, ofParts.eq_3 _ _ fun he => hne he, ih, dropReturn_concat]

theorem splitOn_written (h : ∀ t ∈ ts, '\n' ∉ t) :
    (ts.flatMap endLine).splitOn '\n' = ts.map (· ++ ['\r']) ++ [[]] := by
  induction ts with
  | nil => rfl
  | cons t ts ih =>
    rw [List.forall_mem_cons] at h
    have ht : '\n' ∉ t ++ ['\r'] := by simpa using h.1
    have hline : (t :: ts).flatMap endLine = (t ++ ['\r']) ++ '\n' :: ts.flatMap endLine := by
      simp [endLine, AttributeList.lineEnd]
    rw [hline, List.splitOn_append_cons_self, ih h.2, List.splitOn_eq_singleton ht]
    rfl

/-- Lines are found again in the text that they are written to. -/
theorem exists_ofText_written (h : ∀ t ∈ ts, t ≠ [] ∧ Over InLine t) :
    ∃ ls, Line.ofText (ts.flatMap endLine) = .ok ls ∧ ls.map Line.text = ts := by
  have hfeed : ∀ t ∈ ts, '\n' ∉ t := fun t ht => over_inLine.mp (h t ht).2
  rw [Line.ofText, splitOn_written hfeed, ofParts_written]
  exact exists_numberFrom (fun hm => (h [] hm).1 rfl) 1

end OfferAnswer.Line
