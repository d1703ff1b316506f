/-
OfferAnswer/Proofs/Document/Incomplete.lean

Documents with nothing wrong in their lines, and too few of them.

The lines of an incomplete document are in order, aside from the required parts
that are missing, and every one is accepted on its own (`Grammar.Lacks`).  So
all of them are read, and what is missing is reported without a line, after the
last line that the session looked at itself.  That is past the end of the
document if its last line is such a line, and otherwise it is not
(`reportsPastEnd_iff`): the lines inside a time or a medium are passed over.
-/
import OfferAnswer.Proofs.Document.Acceptance
import OfferAnswer.Proofs.Document.Located
import OfferAnswer.Proofs.LineEnding

namespace OfferAnswer

open Outcome Document
open RegularExpression (char star)

/-! ### Incomplete documents -/

namespace Grammar

/-- The lines of a document without its origin, its name or its times, in which
nothing is wrong with a line. -/
structure Lacks (ls : List Line) : Prop where
  formed : ∀ l ∈ ls, ∃ c v, c ≠ '=' ∧ l.text = c :: '=' :: v
  order : Line.letters ls ∈
    (sessionWith (optional (char 'o')) (optional (char 's')) (star time)).matches'
  accepted : List.Forall₂ Owner.Accepts (owners .session (Line.letters ls)) (ls.map Line.text)
  missing : 'o' ∉ Line.letters ls ∨ 's' ∉ Line.letters ls ∨ 't' ∉ Line.letters ls

/-- The last line is the session's own, or it is the first line of a time or a
medium. -/
def EndsInSession (cs : List Char) : Prop :=
  (owners .session cs).getLast? = some .session ∨ cs.getLast? = some 't' ∨ cs.getLast? = some 'm'

theorem Lacks.ne_nil {ls : List Line} (h : Lacks ls) : ls ≠ [] := by
  rintro rfl
  have horder := h.order
  rw [matches'_sessionWith] at horder
  obtain ⟨a, ha, b, -, hab⟩ := horder
  obtain rfl : a = ['v'] := ha
  simp [Line.letters] at hab

end Grammar

namespace Document

variable {f : DocumentField} {fs : List NumberedField} {ls : List Line}

theorem isOwnLine_iff :
    isOwnLine f = true ↔ f.owner = .session ∨ f.letter = 't' ∨ f.letter = 'm' := by
  rcases f with f | f | f <;> cases f <;>
    simp [isOwnLine, DocumentField.owner, DocumentField.letter, TimeField.letter, MediaField.letter]

/-- The last line that the session looked at is the last line if it looked at
that one. -/
theorem lastOwnNumber_eq_length_iff (hne : fs ≠ [])
    (hfs : fs.map NumberedField.number = List.range' 1 fs.length) :
    lastOwnNumber fs = fs.length ↔ ∃ f, fs.getLast? = some f ∧ isOwnLine f.field = true := by
  obtain ⟨gs, f, rfl⟩ := (List.eq_nil_or_concat' fs).resolve_left hne
  rw [List.length_append, List.length_singleton, List.map_append, List.range'_1_concat] at hfs
  obtain ⟨hgs, hf⟩ := List.append_inj hfs (by simp)
  have hf : f.number = gs.length + 1 := by simpa [Nat.add_comm] using hf
  have hle : lastOwnNumber gs ≤ gs.length := by
    refine lastOwnNumber_le_of_forall fun g hg => ?_
    have hg := List.mem_map_of_mem (f := NumberedField.number) hg
    rw [hgs, List.mem_range'_1] at hg
    omega
  rw [List.getLast?_concat, List.length_append, List.length_singleton]
  cases hown : isOwnLine f.field with
  | true =>
    have hlast : lastOwnNumber (gs ++ [f]) = f.number := by
      simp [lastOwnNumber, List.filter_append, hown]
    simp [hlast, hf, hown]
  | false =>
    have hlast : lastOwnNumber (gs ++ [f]) = lastOwnNumber gs := by
      simp [lastOwnNumber, List.filter_append, hown]
    have hlt : lastOwnNumber gs ≠ gs.length + 1 := by omega
    simp [hlast, hown, hlt]

/-- The session looks at a line itself if the letter and the owner of the line
say so. -/
theorem endsInSession_iff
    (howners : (fs.map fun f => f.field.owner) = Grammar.owners .session (lettersOf fs)) :
    Grammar.EndsInSession (lettersOf fs)
      ↔ ∃ f, fs.getLast? = some f ∧ isOwnLine f.field = true := by
  rw [Grammar.EndsInSession, ← howners, lettersOf, List.getLast?_map, List.getLast?_map]
  cases fs.getLast? <;> simp [isOwnLine_iff]

end Document

/-! ### What is reported -/

namespace Session

variable {t : Text} {ls : List Line}

/-- The lines of a session, whether or not a required part is missing. -/
theorem readLines_start_eq_ok_iff {fs : List NumberedField} (hne : ls ≠ []) :
    readLines .start ls = .ok fs ↔ lettersOf fs ∈ (Grammar.sessionWith
        (Grammar.optional (char 'o')) (Grammar.optional (char 's')) (star Grammar.time)).matches'
      ∧ (fs.map fun f => f.field.owner) = Grammar.owners .session (lettersOf fs)
      ∧ List.Forall₂ ReadsAs ls fs := by
  rw [← ahead_start]
  exact readLines_eq_ok_iff (.outside none) fun he => absurd he hne

/-- A document is incomplete if all its lines are read and still make no
session. -/
theorem lacks_iff (hne : ls ≠ []) : Grammar.Lacks ls ↔ ∃ fs, readLines .start ls = .ok fs
    ∧ ∃ fault, (Draft.ofFields (fs.map NumberedField.field)).toSession = .error fault := by
  constructor
  · intro h
    obtain ⟨fs, hreads, howners⟩ := exists_readsAs h.accepted
    obtain ⟨-, hletters⟩ := letters_of_readsAs hreads
    have horder := h.order
    have hmissing := h.missing
    rw [hletters] at horder howners hmissing
    refine ⟨fs, (readLines_start_eq_ok_iff hne).mpr ⟨horder, howners, hreads⟩, ?_⟩
    cases hs : (Draft.ofFields (fs.map NumberedField.field)).toSession with
    | error fault => exact ⟨fault, rfl⟩
    | ok s =>
      obtain ⟨-, ho, hn, ht⟩ := Draft.exists_toSession_ofFields_iff.mp ⟨s, hs⟩
      rw [List.map_map] at ho hn ht
      exact absurd hmissing (by simpa using ⟨ho, hn, ht⟩)
  · rintro ⟨fs, hread, fault, hfault⟩
    obtain ⟨horder, howners, hreads⟩ := (readLines_start_eq_ok_iff hne).mp hread
    obtain ⟨hformed, hletters⟩ := letters_of_readsAs hreads
    refine ⟨hformed, hletters ▸ horder, ?_, ?_⟩
    · rw [hletters, ← howners]
      exact accepted_of_readsAs hreads
    · -- With all required letters there would be a session.
      by_contra hall
      rw [not_or, not_or, not_not, not_not, not_not, hletters] at hall
      obtain ⟨s, hs⟩ := exists_toSession (Grammar.mem_session_iff.mpr ⟨horder, hall⟩)
      rw [hfault] at hs
      simp at hs

/-- What is missing is reported after the last line that the session looked
at. -/
theorem exists_ofText_of_lacks (hls : Line.ofText t = .ok ls) (h : Grammar.Lacks ls) :
    ∃ fs fault, readLines .start ls = .ok fs
      ∧ ofText t = .error ⟨fault, some (lastOwnNumber fs + 1), none⟩ := by
  obtain ⟨fs, hread, fault, hfault⟩ := (lacks_iff h.ne_nil).mp h
  refine ⟨fs, fault, hread, ?_⟩
  rw [ofText, hls]
  show ofLines ls = _
  rw [ofLines, if_neg h.ne_nil, hread]
  show (Draft.toSession _).mapError _ = _
  rw [hfault]
  rfl

/-- An incomplete document is reported one past its last line, without a line. -/
def ReportsPastEnd (t : Text) : Prop :=
  ∀ ls, Line.ofText t = .ok ls → Grammar.Lacks ls →
    ∃ e, ofText t = .error e ∧ e.line = none ∧ e.number = some (ls.length + 1)

/-- An incomplete document is reported one past its last line if this line is
the session's own or begins a time or a medium, and otherwise earlier. -/
theorem reportsPastEnd_iff (t : Text) : ReportsPastEnd t ↔
    ∀ ls, Line.ofText t = .ok ls → Grammar.Lacks ls →
      Grammar.EndsInSession (Line.letters ls) := by
  refine forall_congr' fun ls => forall_congr' fun hls => forall_congr' fun h => ?_
  obtain ⟨fs, fault, hread, herror⟩ := exists_ofText_of_lacks hls h
  have hnumbers : fs.map NumberedField.number = List.range' 1 ls.length :=
    (map_number_of_readLines hread).trans (Line.map_number_of_ofText hls)
  have hlength : fs.length = ls.length := by simpa using congrArg List.length hnumbers
  have hne : fs ≠ [] := fun he => h.ne_nil (List.length_eq_zero_iff.mp (hlength ▸ he ▸ rfl))
  obtain ⟨-, howners, hreads⟩ := (readLines_start_eq_ok_iff h.ne_nil).mp hread
  rw [(letters_of_readsAs hreads).2, endsInSession_iff howners,
    ← lastOwnNumber_eq_length_iff hne (hlength ▸ hnumbers), hlength]
  constructor
  · rintro ⟨e, he, -, hnumber⟩
    obtain rfl := Except.error.inj (herror.symm.trans he)
    exact Nat.succ.inj (Option.some.inj hnumber)
  · intro hlast
    exact ⟨_, herror, rfl, by rw [hlast]⟩

/-- A document without an origin that ends with a repetition. -/
def originless : Text := "v=0\r\ns=-\r\nt=0 0\r\nr=7d 1h 0\r\n".toList

/-- A document without a time that ends with an attribute of a medium. -/
def timeless : Text :=
  "v=0\r\no=- 0 0 IN IP4 x\r\ns=-\r\nm=audio 9 RTP/AVP 0\r\na=mid:0\r\n".toList

/-- The last line is passed over, be it one of a time or of a medium. -/
theorem not_reportsPastEnd_samples : ¬ ReportsPastEnd originless ∧ ¬ ReportsPastEnd timeless := by
  constructor
  · intro h
    have hlacks : Grammar.Lacks (Line.numbered 1 (Line.texts originless)) :=
      (lacks_iff (by decide)).mpr ⟨_, rfl, _, rfl⟩
    obtain ⟨e, he, -, hnumber⟩ := h _ rfl hlacks
    obtain rfl := Except.error.inj he
    exact absurd hnumber (by decide)
  · intro h
    have hlacks : Grammar.Lacks (Line.numbered 1 (Line.texts timeless)) :=
      (lacks_iff (by decide)).mpr ⟨_, rfl, _, rfl⟩
    obtain ⟨e, he, -, hnumber⟩ := h _ rfl hlacks
    obtain rfl := Except.error.inj he
    exact absurd hnumber (by decide)

end Session

end OfferAnswer
