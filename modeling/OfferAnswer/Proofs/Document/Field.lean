/-
OfferAnswer/Proofs/Document/Field.lean

The fields of all sections, written and read again.
-/
import OfferAnswer.Document.Reader
import OfferAnswer.Proofs.Field.Media
import OfferAnswer.Proofs.Field.Session
import OfferAnswer.Proofs.Field.Time

namespace OfferAnswer

open Text Outcome Document

variable {p : Char → Prop} {raw : Text} {f : DocumentField} {c : Char} {o : Owner}

namespace DocumentField

/-- The value of a field, as written. -/
def value : DocumentField → Text
  | session f => f.value
  | time f => f.value
  | media f => f.value

/-- What the reader of its section assures of a field. -/
def WellFormed (p : Char → Prop) : DocumentField → Prop
  | session f => f.WellFormed p
  | time f => f.WellFormed
  | media f => f.WellFormed p

theorem text_eq (f : DocumentField) : f.text = Field.line f.letter f.value := by
  cases f <;> rfl

theorem letter_mem (f : DocumentField) :
    f.letter ∈ ['v', 'o', 's', 'i', 'u', 'e', 'p', 'c', 'b', 't', 'r', 'z', 'k', 'a', 'm'] := by
  rcases f with f | f | f <;> cases f <;>
    simp [letter, SessionField.letter, TimeField.letter, MediaField.letter]

/-- A letter is plain and not the equals sign. -/
theorem letter_spec (f : DocumentField) : IsPlain f.letter ∧ f.letter ≠ '=' := by
  have hall : ∀ c ∈ ['v', 'o', 's', 'i', 'u', 'e', 'p', 'c', 'b', 't', 'r', 'z', 'k', 'a', 'm'],
      IsPlain c ∧ c ≠ '=' := List.all_iff_forall_prop.mp (by decide)
  exact hall _ f.letter_mem

theorem split?_text (f : DocumentField) : Field.split? f.text = some (f.letter, f.value) :=
  Field.split?_eq_some_iff.mpr ⟨f.text_eq, f.letter_spec.2⟩

end DocumentField

namespace Document

/-- A field that was read is well-formed, and has the letter of its line and
the owner whose reader was asked. -/
theorem wellFormed_of_readField [Alphabet p] (hraw : Over p raw) (h : readField o c raw = .ok f) :
    f.WellFormed p ∧ f.letter = c ∧ f.owner = o := by
  cases o with
  | session =>
    obtain ⟨g, hg, rfl⟩ := map_eq_ok.mp h
    obtain ⟨hwf, hletter⟩ := SessionField.wellFormed_of_read hraw hg
    exact ⟨hwf, hletter, rfl⟩
  | time =>
    obtain ⟨g, hg, rfl⟩ := map_eq_ok.mp h
    obtain ⟨hwf, hletter⟩ := TimeField.wellFormed_of_read hg
    exact ⟨hwf, hletter, rfl⟩
  | media =>
    obtain ⟨g, hg, rfl⟩ := map_eq_ok.mp h
    obtain ⟨hwf, hletter⟩ := MediaField.wellFormed_of_read hraw hg
    exact ⟨hwf, hletter, rfl⟩

theorem letter_owner_of_readField (h : readField o c raw = .ok f) :
    f.letter = c ∧ f.owner = o :=
  have : Alphabet fun _ => True := ⟨fun _ _ => trivial⟩
  (wellFormed_of_readField (p := fun _ => True) (fun _ _ => trivial) h).2

/-- A well-formed field that is writable is read from its own value. -/
theorem readField_value [Alphabet p] (h : f.WellFormed p) (hw : f.isWritable = true) :
    readField f.owner f.letter f.value = .ok f := by
  cases f with
  | session f => exact map_eq_ok.mpr ⟨f, f.read_value h, rfl⟩
  | time f => exact map_eq_ok.mpr ⟨f, f.read_value h hw, rfl⟩
  | media f => exact map_eq_ok.mpr ⟨f, f.read_value h, rfl⟩

end Document

theorem DocumentField.over_value [Alphabet p] (h : f.WellFormed p) : Over p f.value := by
  cases f with
  | session f => exact f.over_value h
  | time f => exact f.over_value
  | media f => exact f.over_value h

theorem DocumentField.over_text [Alphabet p] (h : Over p f.value) : Over p f.text := by
  rw [text_eq, Field.line, over_cons, over_cons]
  exact ⟨Alphabet.plain _ f.letter_spec.1, Alphabet.plain _ (by decide), h⟩

end OfferAnswer
