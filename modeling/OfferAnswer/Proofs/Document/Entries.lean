/-
OfferAnswer/Proofs/Document/Entries.lean

The written session, field by field.

An entry is a field with its home: the session, or the time or medium that it
stands in, by number.  A session that was read has the entries of its lines, in
their order and at home where they stood, but for one thing: of the bandwidths
of one kind in one section the first place is kept, and the last value.
-/
import OfferAnswer.Proofs.Document.Parts
import OfferAnswer.Proofs.Document.Sound
import OfferAnswer.Proofs.Document.Acceptance

namespace OfferAnswer

open Outcome Document
open Bandwidth (sameKind)

/-! ### Homes and entries -/

/-- Where a field is at home; times and media are counted from one. -/
inductive Home where
  | session
  | time (number : Nat)
  | media (number : Nat)
  deriving DecidableEq

namespace DocumentField

/-- Whether a time begins with the field. -/
def opensTime : DocumentField → Bool
  | time (.active _) => true
  | _ => false

/-- Whether a medium begins with the field. -/
def opensMedia : DocumentField → Bool
  | media (.medium _) => true
  | _ => false

def bandwidth? : DocumentField → Option Bandwidth
  | session f => f.bandwidth?
  | time _ => none
  | media f => f.bandwidth?

theorem opensTime_of_owner {f : DocumentField} (h : f.owner = .session) :
    f.opensTime = false := by
  cases f with
  | session f => rfl
  | _ => simp [owner] at h

theorem opensMedia_of_owner {f : DocumentField} (h : f.owner = .session) :
    f.opensMedia = false := by
  cases f with
  | session f => rfl
  | _ => simp [owner] at h

/-- The home of a field, given all fields up to it: the time or medium that
began last. -/
def home (upTo : List DocumentField) (f : DocumentField) : Home :=
  match f.owner with
  | .session => .session
  | .time => .time (upTo.countP opensTime)
  | .media => .media (upTo.countP opensMedia)

end DocumentField

/-- A field and its home. -/
structure Entry where
  home : Home
  field : DocumentField

namespace Entry

/-- Whether two entries are bandwidths of one kind in one section. -/
def alike (a b : Entry) : Bool :=
  decide (a.home = b.home) && sameKind a.field.bandwidth? b.field.bandwidth?

theorem alike_iff {a b : Entry} : alike a b = true ↔
    a.home = b.home ∧ sameKind a.field.bandwidth? b.field.bandwidth? = true := by
  rw [alike, Bool.and_eq_true, decide_eq_true_eq]

theorem alike_symm (a b : Entry) (h : alike a b = true) : alike b a = true := by
  rw [alike_iff] at h ⊢
  exact ⟨h.1.symm, Bandwidth.sameKind_symm h.2⟩

theorem alike_trans (a b c : Entry) (hab : alike a b = true) (hbc : alike b c = true) :
    alike a c = true := by
  rw [alike_iff] at hab hbc ⊢
  exact ⟨hab.1.trans hbc.1, Bandwidth.sameKind_trans hab.2 hbc.2⟩

/-- Only bandwidths are alike. -/
theorem not_alike {a : Entry} (h : a.field.bandwidth? = none) (b : Entry) :
    alike a b = false ∧ alike b a = false := by
  constructor
  · rw [alike, h]
    exact Bool.and_false _
  · rw [alike, h]
    cases b.field.bandwidth? <;> exact Bool.and_false _

end Entry

/-- The entries of fields that stand after some others. -/
def entriesAfter (before : List DocumentField) : List DocumentField → List Entry
  | [] => []
  | f :: rest => ⟨f.home (before ++ [f]), f⟩ :: entriesAfter (before ++ [f]) rest

/-- The entries of the fields of a document. -/
def entries (fs : List DocumentField) : List Entry := entriesAfter [] fs

variable {before before' fs gs : List DocumentField} {f : DocumentField} {e : Entry} {n : Nat}

theorem entriesAfter_append :
    entriesAfter before (fs ++ gs) = entriesAfter before fs ++ entriesAfter (before ++ fs) gs := by
  induction fs generalizing before with
  | nil => simp [entriesAfter]
  | cons f fs ih =>
    rw [List.cons_append, entriesAfter, entriesAfter, ih, List.cons_append, List.append_assoc]
    rfl

theorem entries_concat : entries (fs ++ [f]) = entries fs ++ [⟨f.home (fs ++ [f]), f⟩] :=
  entriesAfter_append

/-- Every field has an entry, in order. -/
theorem map_field_entriesAfter : (entriesAfter before fs).map Entry.field = fs := by
  induction fs generalizing before with
  | nil => rfl
  | cons f fs ih => rw [entriesAfter, List.map_cons, ih]

theorem map_field_entries (fs : List DocumentField) : (entries fs).map Entry.field = fs :=
  map_field_entriesAfter

/-- The home of an entry is one of its owner. -/
theorem exists_home_of_mem (h : e ∈ entriesAfter before fs) :
    ∃ upTo, e.home = e.field.home upTo := by
  induction fs generalizing before with
  | nil => exact absurd h List.not_mem_nil
  | cons f fs ih =>
    rcases List.mem_cons.mp h with rfl | h
    · exact ⟨_, rfl⟩
    · exact ih h

/-- Homes are looked at through the number of times and media alone. -/
theorem DocumentField.home_congr (ht : before.countP opensTime = before'.countP opensTime)
    (hm : before.countP opensMedia = before'.countP opensMedia) (f : DocumentField) :
    f.home before = f.home before' := by
  rw [home, home, ht, hm]

/-- At home in a medium is what stands after as many have begun. -/
theorem DocumentField.countP_of_home (h : f.home before = .media n) :
    before.countP opensMedia = n := by
  cases hf : f.owner <;> simp only [home, hf] at h
  · simp at h
  · simp at h
  · exact Home.media.inj h

/-- No medium has begun that has not been counted. -/
theorem le_of_home_eq_media (h : e ∈ entriesAfter before fs) (he : e.home = .media n) :
    n ≤ (before ++ fs).countP DocumentField.opensMedia := by
  induction fs generalizing before with
  | nil => exact absurd h List.not_mem_nil
  | cons f fs ih =>
    rcases List.mem_cons.mp h with rfl | h
    · have hle := (List.sublist_append_left (before ++ [f]) fs).countP_le
        (p := DocumentField.opensMedia)
      rwa [DocumentField.countP_of_home he, List.append_assoc] at hle
    · have := ih h
      rwa [List.append_assoc] at this

/-- What stands later is not at home in an earlier medium. -/
theorem countP_le_of_home_eq_media (h : e ∈ entriesAfter before fs) (he : e.home = .media n) :
    before.countP DocumentField.opensMedia ≤ n := by
  induction fs generalizing before with
  | nil => exact absurd h List.not_mem_nil
  | cons f fs ih =>
    have hle := (List.sublist_append_left before [f]).countP_le (p := DocumentField.opensMedia)
    rcases List.mem_cons.mp h with rfl | h
    · exact DocumentField.countP_of_home he ▸ hle
    · exact hle.trans (ih h)

/-! ### Entering a field -/

/-- Fields of the session may be changed without moving any other field. -/
theorem entriesAfter_map {r : DocumentField → DocumentField}
    (hr : ∀ f, r f = f ∨ (r f).owner = .session ∧ f.owner = .session) :
    entriesAfter (before.map r) (fs.map r)
      = (entriesAfter before fs).map fun e => ⟨e.home, r e.field⟩ := by
  have hopens : DocumentField.opensTime ∘ r = DocumentField.opensTime
      ∧ DocumentField.opensMedia ∘ r = DocumentField.opensMedia := by
    constructor <;> funext f <;> rw [Function.comp_apply] <;>
      rcases hr f with h | ⟨hr, hf⟩
    · rw [h]
    · rw [DocumentField.opensTime_of_owner hr, DocumentField.opensTime_of_owner hf]
    · rw [h]
    · rw [DocumentField.opensMedia_of_owner hr, DocumentField.opensMedia_of_owner hf]
  have hhome : ∀ upTo f, (r f).home (upTo.map r) = f.home upTo := fun upTo f => by
    have howner : (r f).owner = f.owner := by
      rcases hr f with h | ⟨hr, hf⟩
      · rw [h]
      · rw [hr, hf]
    rw [DocumentField.home, DocumentField.home, howner, List.countP_map, List.countP_map,
      hopens.1, hopens.2]
  induction fs generalizing before with
  | nil => rfl
  | cons f fs ih =>
    have hbefore : before.map r ++ [r f] = (before ++ [f]).map r := by simp
    rw [List.map_cons, entriesAfter, entriesAfter, List.map_cons, hbefore, hhome, ih]

theorem entries_map {r : DocumentField → DocumentField}
    (hr : ∀ f, r f = f ∨ (r f).owner = .session ∧ f.owner = .session) :
    entries (fs.map r) = (entries fs).map fun e => ⟨e.home, r e.field⟩ :=
  show entriesAfter ([].map r) (fs.map r) = _ from entriesAfter_map hr

/-- A field of the session enters the session's own entries. -/
theorem entries_enter_ownAlike (hf : isOwnLine f = true) :
    entries (enter Draft.ownAlike fs f)
      = enter Entry.alike (entries fs) ⟨f.home (fs ++ [f]), f⟩ := by
  by_cases hb : ∃ b, f = .session (.bandwidth b)
  · obtain ⟨b, rfl⟩ := hb
    -- The session's own bandwidths are those at home in the session.
    have halike : ∀ e ∈ entries fs, Draft.ownAlike e.field (.session (.bandwidth b))
        = Entry.alike e ⟨.session, .session (.bandwidth b)⟩ := by
      rintro ⟨home, f⟩ he
      obtain ⟨upTo, rfl⟩ : ∃ upTo, home = f.home upTo := exists_home_of_mem he
      cases f <;> rfl
    have hany : fs.any (Draft.ownAlike · (.session (.bandwidth b)))
        = (entries fs).any (Entry.alike · ⟨.session, .session (.bandwidth b)⟩) := by
      conv_lhs => rw [← map_field_entries fs, List.any_map]
      rw [Bool.eq_iff_iff, List.any_eq_true, List.any_eq_true]
      exact exists_congr fun e => and_congr_right fun he => by rw [Function.comp_apply, halike e he]
    show _ = enter Entry.alike (entries fs) ⟨.session, .session (.bandwidth b)⟩
    rw [enter, enter, ← hany]
    split
    · refine (entries_map fun g => ?_).trans (List.map_congr_left fun e he => ?_)
      · split
        · next h => exact .inr ⟨rfl, Draft.owner_of_ownAlike h⟩
        · exact .inl rfl
      · rw [← halike e he]
        split
        · next h =>
          obtain ⟨upTo, hhome⟩ := exists_home_of_mem he
          rw [hhome, DocumentField.home, Draft.owner_of_ownAlike h]
        · rfl
    · exact entries_concat
  · have hnone : f.bandwidth? = none := by
      rcases f with f | f | f
      · cases f with
        | bandwidth b => exact absurd ⟨b, rfl⟩ hb
        | _ => rfl
      · rfl
      · cases f with
        | medium medium => rfl
        | _ => simp [isOwnLine] at hf
    rw [enter_of_not_alike fun g _ => Draft.ownAlike_eq_false (fun b he => hb ⟨b, he⟩) g,
      enter_of_not_alike fun e _ => (Entry.not_alike hnone e).2, entries_concat]

/-! ### A medium -/

/-- Fields of a medium that has begun. -/
theorem entriesAfter_map_media {fs : List MediaField} (h : ∀ f ∈ fs, ∀ medium, f ≠ .medium medium) :
    entriesAfter before (fs.map .media)
      = fs.map fun f => ⟨.media (before.countP DocumentField.opensMedia), .media f⟩ := by
  induction fs generalizing before with
  | nil => rfl
  | cons f fs ih =>
    rw [List.forall_mem_cons] at h
    have hf : DocumentField.opensMedia (.media f) = false := by
      cases f with
      | medium medium => exact absurd rfl (h.1 medium)
      | _ => rfl
    have hcount : (before ++ [DocumentField.media f]).countP DocumentField.opensMedia
        = before.countP DocumentField.opensMedia := by simp [hf]
    rw [List.map_cons, entriesAfter, ih h.2, List.map_cons, hcount, DocumentField.home, hcount]
    rfl

/-- The fields of a medium are at home in the next one. -/
theorem entriesAfter_media (m : MediaSection) :
    entriesAfter before (m.fields.map .media)
      = m.fields.map fun f => ⟨.media (before.countP DocumentField.opensMedia + 1), .media f⟩ := by
  obtain ⟨rest, hrest, hne⟩ := m.exists_fields_eq_cons
  have hcount : (before ++ [DocumentField.media (.medium m.medium)]).countP DocumentField.opensMedia
      = before.countP DocumentField.opensMedia + 1 := by
    simp [DocumentField.opensMedia]
  rw [hrest, List.map_cons, entriesAfter, entriesAfter_map_media hne, List.map_cons, hcount,
    DocumentField.home, hcount]
  rfl

end OfferAnswer
