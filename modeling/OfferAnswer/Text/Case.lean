/-
OfferAnswer/Text/Case.lean

Lower and upper case of whole texts, by the full case mappings of Unicode.

Two rules go beyond a table from characters to characters.  The dotted
capital I becomes an i and a combining dot; and a capital sigma becomes a
final sigma where it ends a word, that is, where a cased letter stands before
it and none after it, case-ignorable characters not counted.
-/
import OfferAnswer.Text.Basic
import OfferAnswer.Text.CaseTable
import OfferAnswer.Text.CaseContext

namespace OfferAnswer.Text

/-! ### Single characters -/

/-- The image in the first run that holds the character. -/
def imageIn (runs : List CaseRun) (c : Char) : Char :=
  match runs.findSome? (·.image? c.toNat) with
  | some n => Char.ofNat n
  | none => c

/-- The lower-case image of a character other than a capital sigma. -/
def lowerChar (c : Char) : Text :=
  if c.toNat < 0x80 then [c.toLower]
  else if c = 'İ' then ['i', '\u0307']
  else [imageIn lowerRuns c]

/-- The upper-case image of a character. -/
def upperChar (c : Char) : Text :=
  if c.toNat < 0x80 then [c.toUpper]
  else
    match upperExpansions.lookup c.toNat with
    | some ns => ns.map Char.ofNat
    | none => [imageIn upperRuns c]

/-! ### Whole texts -/

/-- Whether the first character that is not passed over is a cased letter. -/
def startsCased (t : Text) : Bool :=
  match t.find? (!isCaseIgnorable ·) with
  | some c => isCased c
  | none => false

/-- Lower case of a text; `inWord` says whether the last character before it
that is not passed over is a cased letter. -/
def lowerAfter (inWord : Bool) : Text → Text
  | [] => []
  | c :: rest =>
    (if c = 'Σ' then [if inWord && !startsCased rest then 'ς' else 'σ'] else lowerChar c)
      ++ lowerAfter (if isCaseIgnorable c then inWord else isCased c) rest

/-- The text in lower case. -/
def lower (t : Text) : Text := lowerAfter false t

/-- The text in upper case. -/
def upper (t : Text) : Text := t.flatMap upperChar

/-- Two texts that differ only in case. -/
def sameLower (a b : Text) : Bool := lower a == lower b

theorem sameLower_iff {a b : Text} : sameLower a b = true ↔ lower a = lower b :=
  beq_iff_eq

/-! ### ASCII texts -/

/-- On ASCII the lower case of a text is that of its characters. -/
theorem lower_of_ascii {t : Text} (h : ∀ c ∈ t, c.toNat < 0x80) :
    lower t = t.map Char.toLower := by
  suffices ∀ inWord, lowerAfter inWord t = t.map Char.toLower from this false
  induction t with
  | nil => simp [lowerAfter]
  | cons c rest ih =>
    intro inWord
    have hc : c.toNat < 0x80 := h c (by simp)
    have hs : c ≠ 'Σ' := by rintro rfl; exact absurd hc (by decide)
    rw [lowerAfter, ih fun d hd => h d (List.mem_cons_of_mem _ hd)]
    simp [hs, lowerChar, hc]

/-- On ASCII the upper case of a text is that of its characters. -/
theorem upper_of_ascii {t : Text} (h : ∀ c ∈ t, c.toNat < 0x80) :
    upper t = t.map Char.toUpper := by
  have hchar : ∀ c ∈ t, upperChar c = [c.toUpper] := fun c hc => if_pos (h c hc)
  rw [upper, List.flatMap_def, List.map_congr_left hchar, ← List.flatMap_def, List.map_eq_flatMap]

end OfferAnswer.Text
