/-
OfferAnswer/Proofs/Document/Appending.lean

Sessions that were read and had attributes added.

An attribute that is added under a name and a value does not come from a line,
and its name may have a colon, or its text a line feed.  Written and read
again, a name ends at its first colon and an attribute at its line feed; so
the session is found again if and only if no attribute that was added has
either (`keepsAdditions_iff`).
-/
import OfferAnswer.Proofs.Document.Edit

namespace OfferAnswer

open Text Outcome

/-! ### All attributes of a session -/

/-- The attributes of the session and of its media. -/
def Session.allAttributes (s : Session) : List Attribute :=
  s.attributes ++ s.media.flatMap (·.attributes)

/-- The attributes that are on a worksheet. -/
def Worksheet.allAttributes (w : Worksheet) : List Attribute :=
  w.attributes.getD [] ++ (w.media.getD []).flatMap (·.attributes.getD [])

theorem Session.allAttributes_worksheet (s : Session) :
    s.worksheet.allAttributes = s.allAttributes := by
  simp [Worksheet.allAttributes, allAttributes, worksheet, MediaSection.sheet, List.flatMap_map]

theorem Session.wellFormed_of_mem_allAttributes {s : Session} (hs : s.draft.Sound) :
    ∀ a ∈ s.allAttributes, a.WellFormed InLine := by
  refine List.forall_mem_append.mpr
    ⟨fun a ha => ?_, List.forall_mem_flatMap.mpr fun m hm a ha => ?_⟩
  · exact hs.own (.attr a) (by simp [draft, Draft.ownAfter, ha])
  · exact (hs.media m hm).attributes a ha

theorem MediaSection.attributes_beq {m m' : MediaSection} (h : (m == m') = true) :
    (m.attributes == m'.attributes) = true := by
  change (_ && (_ && (_ && (_ && (_ && m.attributes == m'.attributes))))) = true at h
  simp only [Bool.and_eq_true] at h
  exact h.2.2.2.2.2

/-- Equal sessions have equal attributes, and equal media. -/
theorem Session.attributes_beq {s s' : Session} (h : (s == s') = true) :
    (s.attributes == s'.attributes) = true ∧ (s.media == s'.media) = true := by
  have hdetails : (s.toSessionDetails == s'.toSessionDetails) = true :=
    (Bool.and_eq_true_iff.mp h).1
  change (_ && (_ && (_ && (_ && (_ && (_ && (_ && (_ && (s.attributes == s'.attributes
    && s.media == s'.media))))))))) = true at hdetails
  simp only [Bool.and_eq_true] at hdetails
  exact hdetails.2.2.2.2.2.2.2.2

/-- Every attribute of a session equals one of an equal session. -/
theorem Session.exists_beq_of_beq {s s' : Session} (h : (s == s') = true) :
    ∀ a ∈ s'.allAttributes, ∃ b ∈ s.allAttributes, (b == a) = true := by
  obtain ⟨hattributes, hmedia⟩ := attributes_beq h
  refine List.forall_mem_append.mpr ⟨?_, List.forall_mem_flatMap.mpr ?_⟩
  · exact forall_of_forall₂ (forall₂_beq_iff.mp hattributes)
      (fun b _ hb hbeq => ⟨b, List.mem_append_left _ hb, hbeq⟩) fun _ hb => hb
  · refine forall_of_forall₂ (P := (· ∈ s.media)) (forall₂_beq_iff.mp hmedia) ?_ fun _ hm => hm
    intro m m' hm hbeq
    refine forall_of_forall₂ (forall₂_beq_iff.mp (MediaSection.attributes_beq hbeq))
      (fun b _ hb hbeq => ⟨b, List.mem_append_right _ ?_, hbeq⟩) fun _ hb => hb
    exact List.mem_flatMap.mpr ⟨m, hm, hb⟩

/-! ### Additions -/

namespace Edit

variable {w : Worksheet} {t : Target} {sheet : Sheet}

/-- A sheet with more attributes in the place of one leaves no attribute out. -/
theorem subset_allAttributes_putSheet (h : sheetAt w t = .ok sheet) (sheet' : Sheet)
    (hsub : sheet.attributes.getD [] ⊆ sheet'.attributes.getD []) :
    w.allAttributes ⊆ (putSheet w sheet' t).allAttributes
      ∧ sheet'.attributes.getD [] ⊆ (putSheet w sheet' t).allAttributes := by
  cases t with
  | session =>
    obtain rfl := Except.ok.inj h
    refine ⟨List.append_subset.mpr ⟨?_, ?_⟩, List.subset_append_left _ _⟩
    · exact List.Subset.trans hsub (List.subset_append_left _ _)
    · exact List.subset_append_right _ _
  | media i =>
    obtain ⟨sheets, hmedia, h⟩ := bind_eq_ok.mp h
    have hmedia : w.media = some sheets := part_eq_ok hmedia
    have hget := atIndex_eq_ok h
    obtain ⟨ys, hys⟩ := Index.exists_modify?_of_get? hget fun _ => sheet'
    obtain ⟨hnew, hold⟩ := Index.mem_modify? hget hys
    have hput : (putSheet w sheet' (.media i)).allAttributes
        = w.attributes.getD [] ++ ys.flatMap (·.attributes.getD []) := by
      simp [Worksheet.allAttributes, putSheet, hmedia, hys]
    have hadded : sheet'.attributes.getD [] ⊆ ys.flatMap (·.attributes.getD []) := fun a ha =>
      List.mem_flatMap.mpr ⟨sheet', hnew, ha⟩
    rw [hput]
    refine ⟨List.append_subset.mpr ⟨List.subset_append_left _ _, fun a ha => ?_⟩,
      List.Subset.trans hadded (List.subset_append_right _ _)⟩
    rw [hmedia, Option.getD_some] at ha
    obtain ⟨y, hy, ha⟩ := List.mem_flatMap.mp ha
    refine List.mem_append_right _ ?_
    rcases hold y hy with rfl | hy
    · exact hadded (hsub ha)
    · exact List.mem_flatMap.mpr ⟨y, hy, ha⟩

end Edit

/-- A name and a value that are added to the attributes of a target. -/
structure Addition where
  target : Target
  name : Text
  value : Option Text

namespace Addition

def edit (c : Addition) : Edit := .append c.target c.name c.value

/-- The attribute that is added. -/
def attribute? (c : Addition) : Except Attribute.Fault Attribute :=
  Attribute.ofNameValue c.name c.value

variable {c : Addition} {cs : List Addition} {w w' : Worksheet}

/-- One addition adds its attribute and leaves no other out. -/
theorem mem_of_apply (h : c.edit.apply w = .ok w') :
    w.allAttributes ⊆ w'.allAttributes
      ∧ ∃ a, c.attribute? = .ok a ∧ a ∈ w'.allAttributes := by
  obtain ⟨sheet, hsheet, h⟩ := bind_eq_ok.mp h
  obtain ⟨sheet', hsheet', h⟩ := bind_eq_ok.mp h
  obtain rfl := pure_eq_ok.mp h
  obtain ⟨as, has, hsheet'⟩ := bind_eq_ok.mp hsheet'
  obtain ⟨a, ha, hsheet'⟩ := bind_eq_ok.mp hsheet'
  obtain rfl := pure_eq_ok.mp hsheet'
  have has : sheet.attributes = some as := Edit.part_eq_ok has
  obtain ⟨hold, hnew⟩ := Edit.subset_allAttributes_putSheet hsheet
    { sheet with attributes := some (as ++ [a]) } (by simp [has])
  exact ⟨hold, a, mapError_eq_ok.mp ha, hnew (by simp)⟩

/-- Whatever was added is there in the end. -/
theorem mem_of_foldlM (h : (cs.map edit).foldlM Edit.apply w = .ok w') :
    w.allAttributes ⊆ w'.allAttributes
      ∧ ∀ c ∈ cs, ∃ a, c.attribute? = .ok a ∧ a ∈ w'.allAttributes := by
  induction cs generalizing w with
  | nil =>
    obtain rfl := pure_eq_ok.mp h
    exact ⟨List.Subset.refl _, List.forall_mem_nil _⟩
  | cons c cs ih =>
    obtain ⟨w₁, hw₁, h⟩ := bind_eq_ok.mp h
    obtain ⟨hold, a, ha, hmem⟩ := mem_of_apply hw₁
    obtain ⟨hrest, hall⟩ := ih h
    exact ⟨List.Subset.trans hold hrest, List.forall_mem_cons.mpr ⟨⟨a, ha, hrest hmem⟩, hall⟩⟩

end Addition

/-! ### What may be added -/

namespace Attribute

variable {a b : Attribute}

/-- Can be told from the lines around it, and its name from its value. -/
def IsContained (a : Attribute) : Prop := ':' ∉ a.name ∧ '\n' ∉ a.text

/-- An attribute that equals one from a line is contained. -/
theorem isContained_of_beq (h : (b == a) = true) (hb : b.WellFormed InLine) : a.IsContained := by
  have hsimilar := similar_of_beq h
  refine ⟨hsimilar.name_eq ▸ colon_not_mem_name hb, ?_⟩
  exact over_inLine.mp (hsimilar.over_text (b.over_text hb))

/-- An attribute that is contained is as a line would have it. -/
theorem IsContained.wellFormed {name : Text} {value : Option Text} (h : a.IsContained)
    (ha : ofNameValue name value = .ok a) : a.WellFormed InLine := by
  -- Over all characters it is well-formed, so it is read from its text, which is a line.
  have hall : a.WellFormed AnyChar := by
    refine wellFormed_of_ofNameValue (fun t he => ⟨?_, over_anyChar⟩) (fun _ _ => over_anyChar) ha
    subst he
    exact h.1
  exact wellFormed_of_ofText (over_inLine.mpr h.2) (ofText_text hall)

end Attribute

/-! ### Reading again -/

namespace Session

/-- Whatever session a text or bytes stand for, if attributes can be added to
it one after the other, and it is short enough to be written then, it is read
from its text again. -/
def KeepsAdditions (raw : Text ⊕ List UInt8) (cs : List Addition) : Prop :=
  ∀ (s : Session) (w : Worksheet), raw.elim ofText ofBytes = .ok s →
    (cs.map Addition.edit).foldlM Edit.apply s.worksheet = .ok w → w.isWritable = true →
      ∃ s₁ s₂ : Session, w = s₁.worksheet ∧ ofText w.text = .ok s₂ ∧ (s₂ == s₁) = true

/-- A session with additions is found again if all of them are contained, and
otherwise it is not. -/
theorem keepsAdditions_iff (raw : Text ⊕ List UInt8) (cs : List Addition) :
    KeepsAdditions raw cs ↔
      ∀ (s : Session) (w : Worksheet), raw.elim ofText ofBytes = .ok s →
        (cs.map Addition.edit).foldlM Edit.apply s.worksheet = .ok w → w.isWritable = true →
          ∀ c ∈ cs, ∀ a, c.attribute? = .ok a → a.IsContained := by
  refine forall₂_congr fun s w => forall₃_congr fun hs hw hwrite => ?_
  have hsound := sound_of_ofRaw hs
  constructor
  · rintro ⟨s₁, s₂, rfl, hs₂, hbeq⟩ c hc a ha
    obtain ⟨-, hadded⟩ := Addition.mem_of_foldlM hw
    obtain ⟨a', ha', hmem⟩ := hadded c hc
    obtain rfl := Except.ok.inj (ha.symm.trans ha')
    rw [allAttributes_worksheet] at hmem
    -- What was added equals an attribute that was read from a line.
    obtain ⟨b, hb, hba⟩ := exists_beq_of_beq hbeq a hmem
    exact Attribute.isContained_of_beq hba
      (wellFormed_of_mem_allAttributes (sound_of_ofText hs₂) b hb)
  · intro hcontained
    have hall : w.Sound := by
      refine foldlM_induction hw ⟨s, hsound, rfl⟩ fun w e w' he hw h => ?_
      obtain ⟨c, hc, rfl⟩ := List.mem_map.mp he
      exact Edit.sound_append hw (fun a ha => (hcontained c hc a ha).wellFormed ha) h
    obtain ⟨s₁, s₂, hw₁, hs₂, hbeq, -⟩ := hall.reread hwrite
    exact ⟨s₁, s₂, hw₁, hs₂, hbeq⟩

/-- A session whose attributes are seen to be read differently is not found
again. -/
theorem not_keepsAdditions_of_any {t : Text} {cs : List Addition}
    (h : ((ofText t).toOption.any fun s =>
      ((cs.map Addition.edit).foldlM Edit.apply s.worksheet).toOption.any fun w =>
        w.isWritable && (ofText w.text).toOption.all fun s₂ =>
          !(s₂.attributes == w.attributes.getD [])) = true) :
    ¬ KeepsAdditions (.inl t) cs := by
  intro hkeeps
  cases hs : ofText t with
  | error => simp [hs, Except.toOption] at h
  | ok s =>
    rw [hs, Except.toOption, Option.any_some] at h
    cases hw : (cs.map Addition.edit).foldlM Edit.apply s.worksheet with
    | error => simp [hw, Except.toOption] at h
    | ok w =>
      rw [hw, Except.toOption, Option.any_some, Bool.and_eq_true] at h
      obtain ⟨s₁, s₂, rfl, hs₂, hbeq⟩ := hkeeps s w hs hw h.1
      have hdiffer := h.2
      rw [hs₂] at hdiffer
      have hsame : (s₂.attributes == s₁.worksheet.attributes.getD []) = true :=
        (attributes_beq hbeq).1
      simp [Except.toOption, hsame] at hdiffer

/-- A name with a colon, and a value with a line feed, are read differently. -/
theorem not_keepsAdditions_sample :
    ¬ KeepsAdditions (.inl sample) [⟨.session, "x:y".toList, none⟩]
      ∧ ¬ KeepsAdditions (.inl sample) [⟨.session, "x".toList, some "y\r\na=z".toList⟩] :=
  ⟨not_keepsAdditions_of_any (by decide +kernel), not_keepsAdditions_of_any (by decide +kernel)⟩

end Session

end OfferAnswer
