/-
OfferAnswer/Proofs/Document/Reread.lean

Sessions with attributes that are read differently from how they were written.

A group or a simulcast whose parts hold separators can be written, and what it
is read as has more parts.  `reread` puts what they are read as in the place of
all attributes; the other fields stay as they are.
-/
import OfferAnswer.Proofs.Document.Written

namespace OfferAnswer

open Text Outcome Document

/-! ### Attributes -/

namespace Attribute

variable {a b : Attribute}

/-- What an attribute is read as when it has been written. -/
def reread (a : Attribute) : Attribute := (ofText a.text).toOption.getD a

theorem reread_of_ofText (h : ofText a.text = .ok b) : a.reread = b := by
  rw [reread, h]
  rfl

theorem WellFormed.reread (h : a.WellFormed InLine) : a.reread = a :=
  reread_of_ofText (a.ofText_text h)

/-- An attribute that can be read when it has been written. -/
structure Legible (a : Attribute) : Prop where
  chars : Over InLine a.text
  ofText : ofText a.text = .ok a.reread

theorem legible_of_ofText (ha : Over InLine a.text) (h : ofText a.text = .ok b) : a.Legible :=
  ⟨ha, reread_of_ofText h ▸ h⟩

theorem WellFormed.legible (h : a.WellFormed InLine) : a.Legible :=
  legible_of_ofText (a.over_text h) (a.ofText_text h)

theorem map_reread {as : List Attribute} (h : ∀ a ∈ as, a.WellFormed InLine) :
    as.map Attribute.reread = as :=
  (List.map_congr_left fun a ha => (h a ha).reread).trans (List.map_id' as)

end Attribute

/-! ### Fields -/

def MediaField.reread : MediaField → MediaField
  | attr a => attr a.reread
  | f => f

def SessionField.reread : SessionField → SessionField
  | attr a => attr a.reread
  | f => f

namespace DocumentField

variable {f : DocumentField}

def reread : DocumentField → DocumentField
  | session f => session f.reread
  | time f => time f
  | media f => media f.reread

/-- A field that can be read when it has been written. -/
structure Legible (f : DocumentField) : Prop where
  chars : Over InLine f.value
  readField : readField f.owner f.letter f.value = .ok f.reread

/-- A well-formed field is read as it is. -/
theorem WellFormed.reread (h : f.WellFormed InLine) : f.reread = f := by
  rcases f with f | f | f
  · cases f with
    | attr a => exact congrArg (session ∘ .attr) (Attribute.WellFormed.reread h)
    | _ => rfl
  · rfl
  · cases f with
    | attr a => exact congrArg (media ∘ .attr) (Attribute.WellFormed.reread h)
    | _ => rfl

theorem WellFormed.legible (h : f.WellFormed InLine) (hw : f.isWritable = true) : f.Legible :=
  ⟨over_value h, by rw [h.reread]; exact readField_value h hw⟩

theorem legible_session {a : Attribute} (h : a.Legible) :
    (DocumentField.session (.attr a)).Legible where
  chars := h.chars
  readField := map_eq_ok.mpr
    ⟨.attr a.reread, map_eq_ok.mpr ⟨_, mapError_eq_ok.mpr h.ofText, rfl⟩, rfl⟩

theorem legible_media {a : Attribute} (h : a.Legible) :
    (DocumentField.media (.attr a)).Legible where
  chars := h.chars
  readField := map_eq_ok.mpr
    ⟨.attr a.reread, map_eq_ok.mpr ⟨_, mapError_eq_ok.mpr h.ofText, rfl⟩, rfl⟩

end DocumentField

/-! ### Sections -/

def MediaSection.reread (m : MediaSection) : MediaSection :=
  { m with attributes := m.attributes.map Attribute.reread }

/-- The session of what its attributes are read as. -/
def Session.reread (s : Session) : Session :=
  { s with
    attributes := s.attributes.map Attribute.reread
    media := s.media.map MediaSection.reread }

theorem MediaSection.fields_reread (m : MediaSection) :
    m.reread.fields = m.fields.map MediaField.reread := by
  simp only [fields, reread, Option.toList_map, List.map_append, List.map_cons, List.map_map,
    Function.comp_def, MediaField.reread]

namespace Session

variable {s : Session}

theorem fields_reread (s : Session) :
    s.reread.draft.fields = s.draft.fields.map DocumentField.reread := by
  simp only [Draft.fields, Draft.ownBefore, Draft.ownAfter, draft, reread, Option.toList_map,
    List.map_append, List.map_map, List.map_flatMap, List.flatMap_map, MediaSection.fields_reread,
    Function.comp_def, DocumentField.reread, SessionField.reread]

/-- A session whose fields can be read is read as what they are read as. -/
theorem ofText_text_of_legible (h : ∀ f ∈ s.draft.fields, f.Legible) :
    ofText s.text = .ok s.reread.rekeyed := by
  have hread : List.Forall₂ RereadsAs s.draft.fields s.reread.draft.fields := by
    rw [fields_reread]
    exact List.forall₂_map_right_iff.mpr (List.forall₂_same.mpr fun f hf => (h f hf).readField)
  obtain ⟨s', hs', hdraft⟩ := exists_ofText_text (fun f hf => (h f hf).chars) hread
  have hself : s.reread.draft.rekeyed.toSession = .ok s.reread.rekeyed :=
    dif_neg s.reread.times_ne_nil
  rw [Draft.ofFields_fields, hself] at hdraft
  obtain rfl := Except.ok.inj hdraft
  exact hs'

end Session

end OfferAnswer
