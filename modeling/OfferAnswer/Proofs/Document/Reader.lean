/-
OfferAnswer/Proofs/Document/Reader.lean

What is read from lines, and which texts are read at all.

Reading a line has two sides that do not touch: its letter has to be admitted
where it stands, and its value has to be accepted by the reader of its owner.
`readLines_eq_ok_iff` takes them apart for all lines of a document at once, and
`exists_ofText_eq_ok_iff` is the same without the fields that are read: a text
is accepted if and only if its lines are in the grammar and every line is
accepted on its own.
-/
import OfferAnswer.Document.Basic
import OfferAnswer.Proofs.Document.Field
import OfferAnswer.Proofs.Document.Lines
import OfferAnswer.Proofs.Document.Slots

namespace OfferAnswer

open Text Outcome Document

variable {p p' : Position} {l : Line} {ls : List Line} {f : DocumentField}
  {fs : List NumberedField}

namespace Document

/-! ### Lines of a session -/

theorem ofLine_eq_ok_iff {φ : Type} {read : Char → Text → Except Field.Fault φ} {t : Text}
    {f : φ} : Field.ofLine read t = .ok f ↔
      ∃ c v, Field.split? t = some (c, v) ∧ read c v = .ok f := by
  unfold Field.ofLine
  rcases Field.split? t with - | ⟨c, v⟩ <;> simp

theorem splitLine_eq_ok_iff {c : Char} {v : Text} :
    splitLine l = .ok (c, v) ↔ Field.split? l.text = some (c, v) := by
  unfold splitLine
  cases Field.split? l.text <;> simp

/-- The order of lines looks at the letter and the owner of a field, and the
reader of the owner at the line alone. -/
theorem readLine_eq_ok_iff : readLine p l = .ok (p', f) ↔
    p.next f.letter = .ok (p', f.owner) ∧ Field.ofLine (readField f.owner) l.text = .ok f := by
  unfold readLine
  simp only [bind_eq_ok, mapError_eq_ok, Prod.exists, splitLine_eq_ok_iff, ofLine_eq_ok_iff,
    pure_eq_ok, Prod.mk.injEq]
  constructor
  · rintro ⟨c, v, hl, p'', o, hnext, f', hf, rfl, rfl⟩
    obtain ⟨rfl, rfl⟩ := letter_owner_of_readField hf
    exact ⟨hnext, f'.letter, v, hl, hf⟩
  · rintro ⟨hnext, c, v, hl, hf⟩
    obtain ⟨rfl, -⟩ := letter_owner_of_readField hf
    exact ⟨_, v, hl, p', _, hnext, f, hf, rfl, rfl⟩

/-- A field is what a line stands for. -/
def ReadsAs (l : Line) (f : NumberedField) : Prop :=
  f.number = l.number ∧ Field.ofLine (readField f.field.owner) l.text = .ok f.field

/-- The letters of some fields. -/
def lettersOf (fs : List NumberedField) : List Char := fs.map fun f => f.field.letter

/-- Lines are read as fields if these are in order and each is what its line
stands for. -/
theorem readLines_eq_ok_iff (hp : p.Valid) (hls : ls = [] → p.slot ≠ none) :
    readLines p ls = .ok fs ↔ lettersOf fs ∈ p.ahead
      ∧ (fs.map fun f => f.field.owner) = Grammar.owners p.owner (lettersOf fs)
      ∧ List.Forall₂ ReadsAs ls fs := by
  induction ls generalizing p fs with
  | nil =>
    have hnil : [] ∈ p.ahead := Position.nil_mem_ahead (hls rfl)
    rw [readLines, List.forall₂_nil_left_iff, Except.ok.injEq]
    constructor
    · rintro rfl
      exact ⟨hnil, rfl, rfl⟩
    · rintro ⟨-, -, rfl⟩
      rfl
  | cons l ls ih =>
    simp only [readLines, bind_eq_ok, pure_eq_ok, Prod.exists, List.forall₂_cons_left_iff]
    constructor
    · rintro ⟨p', f, hl, rest, hrest, rfl⟩
      obtain ⟨hnext, hf⟩ := readLine_eq_ok_iff.mp hl
      obtain ⟨ho, howner, hvalid, hslot⟩ := Position.owner_of_next hp hnext
      obtain ⟨hahead, howners, hreads⟩ := (ih hvalid fun _ => hslot).mp hrest
      refine ⟨(Position.cons_mem_ahead hp).mpr ⟨p', _, hnext, hahead⟩, ?_,
        ⟨l.number, f⟩, rest, ⟨rfl, hf⟩, hreads, rfl⟩
      show f.owner :: _ = Grammar.owner p.owner f.letter :: _
      rw [howners, howner, ← ho]
      rfl
    · rintro ⟨hahead, howners, f, rest, ⟨hnumber, hf⟩, hreads, rfl⟩
      -- The owner that the order gives to the line is the one whose reader was asked.
      obtain ⟨p', o, hnext, hrest⟩ := (Position.cons_mem_ahead hp).mp hahead
      obtain ⟨ho, howner, hvalid, hslot⟩ := Position.owner_of_next hp hnext
      obtain ⟨hfo, howners⟩ : f.field.owner = Grammar.owner p.owner f.field.letter
          ∧ (rest.map fun f => f.field.owner)
            = Grammar.owners (Grammar.owner p.owner f.field.letter) (lettersOf rest) :=
        List.cons.inj howners
      rw [← hfo.trans ho.symm] at hnext
      refine ⟨p', f.field, readLine_eq_ok_iff.mpr ⟨hnext, hf⟩, rest, ?_, by rw [← hnumber]⟩
      refine (ih hvalid fun _ => hslot).mpr ⟨hrest, ?_, hreads⟩
      rw [howners, howner, ho]

end Document

/-! ### Required parts -/

namespace Draft

variable {d : Draft} {gs : List DocumentField}

theorem updateLast_ne_nil {α : Type} {g : α → α} {xs : List α} :
    updateLast g xs ≠ [] ↔ xs ≠ [] := by
  rcases xs with - | ⟨x, - | ⟨y, xs⟩⟩ <;> simp [updateLast]

/-- A field adds the part with its letter, and takes no part away. -/
theorem required_add (d : Draft) (f : DocumentField) :
    ((d.add f).version.isSome ↔ d.version.isSome ∨ f.letter = 'v')
      ∧ ((d.add f).origin.isSome ↔ d.origin.isSome ∨ f.letter = 'o')
      ∧ ((d.add f).name.isSome ↔ d.name.isSome ∨ f.letter = 's')
      ∧ ((d.add f).times ≠ [] ↔ d.times ≠ [] ∨ f.letter = 't') := by
  rcases f with f | f | f <;> cases f <;>
    simp [add, addOwn, DocumentField.letter, SessionField.letter, TimeField.letter,
      MediaField.letter, updateLast_ne_nil]

theorem required_foldl :
    ((gs.foldl add d).version.isSome ↔ d.version.isSome ∨ 'v' ∈ gs.map (·.letter))
    ∧ ((gs.foldl add d).origin.isSome ↔ d.origin.isSome ∨ 'o' ∈ gs.map (·.letter))
    ∧ ((gs.foldl add d).name.isSome ↔ d.name.isSome ∨ 's' ∈ gs.map (·.letter))
    ∧ ((gs.foldl add d).times ≠ [] ↔ d.times ≠ [] ∨ 't' ∈ gs.map (·.letter)) := by
  induction gs generalizing d with
  | nil => simp
  | cons g gs ih =>
    obtain ⟨hv, ho, hs, ht⟩ := required_add d g
    obtain ⟨ihv, iho, ihs, iht⟩ := ih (d := d.add g)
    simp only [List.foldl_cons, List.map_cons, List.mem_cons, ihv, iho, ihs, iht, hv, ho, hs, ht,
      or_assoc, eq_comm, and_self]

/-- A draft is a session if all required parts are there. -/
theorem exists_toSession_iff : (∃ s, d.toSession = .ok s) ↔
    d.version.isSome ∧ d.origin.isSome ∧ d.name.isSome ∧ d.times ≠ [] := by
  unfold toSession
  split
  · next hv ho hn =>
    by_cases h : d.times = [] <;> simp [h, hv, ho, hn]
  · next hmissing =>
    refine ⟨fun h => by simp at h, ?_⟩
    rintro ⟨hv, ho, hn, -⟩
    obtain ⟨v, hv⟩ := Option.isSome_iff_exists.mp hv
    obtain ⟨o, ho⟩ := Option.isSome_iff_exists.mp ho
    obtain ⟨n, hn⟩ := Option.isSome_iff_exists.mp hn
    exact absurd hn (hmissing v o n hv ho)

/-- Fields make a session if the letters of the required parts occur. -/
theorem exists_toSession_ofFields_iff : (∃ s, (ofFields gs).toSession = .ok s) ↔
    'v' ∈ gs.map (·.letter) ∧ 'o' ∈ gs.map (·.letter) ∧ 's' ∈ gs.map (·.letter)
      ∧ 't' ∈ gs.map (·.letter) := by
  rw [exists_toSession_iff]
  obtain ⟨hv, ho, hs, ht⟩ : _ ∧ _ ∧ _ ∧ _ := required_foldl (d := empty)
  rw [ofFields, hv, ho, hs, ht]
  simp [empty]

end Draft

namespace Session

variable {s : Session}

theorem ofLines_eq_ok_iff_readLines : ofLines ls = .ok s ↔ ls ≠ [] ∧
    ∃ fs, readLines .start ls = .ok fs
      ∧ (Draft.ofFields (fs.map NumberedField.field)).toSession = .ok s := by
  unfold ofLines
  split
  · next h => simp [h]
  · next h => simp only [bind_eq_ok, mapError_eq_ok, ne_eq, h, not_false_eq_true, true_and]

/-- What may come at the start is what the grammar allows, required parts
aside. -/
theorem ahead_start : Position.start.ahead = (Grammar.sessionWith (Grammar.optional (.char 'o'))
    (Grammar.optional (.char 's')) (.star Grammar.time)).matches' :=
  (one_mul _).trans Shape.matches'_sessionWith.symm

/-- The letters of a session have all that is required. -/
theorem required_of_mem_session {cs : List Char} (h : cs ∈ Grammar.session.matches') :
    'v' ∈ cs ∧ 'o' ∈ cs ∧ 's' ∈ cs ∧ 't' ∈ cs := by
  obtain ⟨hahead, ho, hn, ht⟩ := Grammar.mem_session_iff.mp h
  rw [Shape.matches'_sessionWith] at hahead
  obtain ⟨a, ha, b, -, rfl⟩ := hahead
  obtain rfl : a = ['v'] := ha
  exact ⟨List.mem_cons_self, ho, hn, ht⟩

/-- The lines of a session: their letters are in the grammar, each line is read
by the reader of its owner, and the fields make the session. -/
theorem ofLines_eq_ok_iff : ofLines ls = .ok s ↔
    ∃ fs, lettersOf fs ∈ Grammar.session.matches'
      ∧ (fs.map fun f => f.field.owner) = Grammar.owners .session (lettersOf fs)
      ∧ List.Forall₂ ReadsAs ls fs
      ∧ (Draft.ofFields (fs.map NumberedField.field)).toSession = .ok s := by
  rw [ofLines_eq_ok_iff_readLines]
  constructor
  · rintro ⟨hne, fs, hfs, hs⟩
    obtain ⟨hahead, howners, hreads⟩ :=
      (readLines_eq_ok_iff (.outside none) fun he => absurd he hne).mp hfs
    obtain ⟨-, ho, hn, ht⟩ := Draft.exists_toSession_ofFields_iff.mp ⟨s, hs⟩
    rw [List.map_map] at ho hn ht
    refine ⟨fs, Grammar.mem_session_iff.mpr ⟨ahead_start ▸ hahead, ho, hn, ht⟩, howners, hreads, hs⟩
  · rintro ⟨fs, hletters, howners, hreads, hs⟩
    -- Without lines there are no letters, and a session has at least its version.
    have hne : ls ≠ [] := by
      rintro rfl
      obtain rfl := List.forall₂_nil_left_iff.mp hreads
      exact List.not_mem_nil (required_of_mem_session hletters).1
    have hahead : lettersOf fs ∈ Position.start.ahead :=
      ahead_start ▸ (Grammar.mem_session_iff.mp hletters).1
    exact ⟨hne, fs, (readLines_eq_ok_iff (.outside none) fun he => absurd he hne).mpr
      ⟨hahead, howners, hreads⟩, hs⟩

/-- Fields whose letters are those of a session make one. -/
theorem exists_toSession {fs : List NumberedField}
    (h : lettersOf fs ∈ Grammar.session.matches') :
    ∃ s, (Draft.ofFields (fs.map NumberedField.field)).toSession = .ok s := by
  rw [Draft.exists_toSession_ofFields_iff, List.map_map]
  exact required_of_mem_session h

theorem exists_ofLines_iff : (∃ s, ofLines ls = .ok s) ↔
    ∃ fs, lettersOf fs ∈ Grammar.session.matches'
      ∧ (fs.map fun f => f.field.owner) = Grammar.owners .session (lettersOf fs)
      ∧ List.Forall₂ ReadsAs ls fs := by
  simp only [ofLines_eq_ok_iff]
  constructor
  · rintro ⟨s, fs, hletters, howners, hreads, -⟩
    exact ⟨fs, hletters, howners, hreads⟩
  · rintro ⟨fs, hletters, howners, hreads⟩
    obtain ⟨s, hs⟩ := exists_toSession hletters
    exact ⟨s, fs, hletters, howners, hreads, hs⟩

end Session

/-! ### Lines of a single section -/

namespace Document

variable {φ σ : Type} {shape : Shape} {read : Char → Text → Except Field.Fault φ}
  {letter : φ → Char} {ofFields? : List φ → Option σ} {gs : List φ} {last : Nat}

theorem readSectionLines_cons_eq_ok_iff {last : Option Nat}
    (hread : ∀ c v g, read c v = .ok g → letter g = c) :
    readSectionLines shape read last (l :: ls) = .ok gs ↔ ∃ g rest i, gs = g :: rest
      ∧ shape.place last (letter g) = .slot i ∧ Field.ofLine read l.text = .ok g
      ∧ readSectionLines shape read (some i) ls = .ok rest := by
  simp only [readSectionLines, bind_eq_ok, Prod.exists, splitLine_eq_ok_iff]
  constructor
  · rintro ⟨c, v, hl, h⟩
    split at h
    · next i hi =>
      simp only [bind_eq_ok, mapError_eq_ok] at h
      obtain ⟨g, hg, rest, hrest, h⟩ := h
      obtain rfl := pure_eq_ok.mp h
      exact ⟨g, rest, i, rfl, hread c v g hg ▸ hi, ofLine_eq_ok_iff.mpr ⟨c, v, hl, hg⟩, hrest⟩
    · simp [throw_ne_ok] at h
  · rintro ⟨g, rest, i, rfl, hi, hl, hrest⟩
    obtain ⟨c, v, hsplit, hg⟩ := ofLine_eq_ok_iff.mp hl
    obtain rfl := hread c v g hg
    exact ⟨_, v, hsplit, by simp [hi, mapError_eq_ok.mpr hg, hrest]⟩

theorem readSectionLines_eq_ok_iff (hs : (shape.slots.map Prod.fst).Nodup)
    (hread : ∀ c v g, read c v = .ok g → letter g = c) :
    readSectionLines shape read (some last) ls = .ok gs ↔
      gs.map letter ∈ Shape.after Shape.single shape last
        ∧ List.Forall₂ (fun l g => Field.ofLine read l.text = .ok g) ls gs := by
  induction ls generalizing last gs with
  | nil =>
    rw [readSectionLines, List.forall₂_nil_left_iff, Except.ok.injEq]
    refine ⟨?_, fun h => h.2.symm⟩
    rintro rfl
    exact ⟨Shape.nil_mem_after, rfl⟩
  | cons l ls ih =>
    rw [readSectionLines_cons_eq_ok_iff hread, List.forall₂_cons_left_iff]
    constructor
    · rintro ⟨g, rest, i, rfl, hi, hl, hrest⟩
      obtain ⟨hletters, hreads⟩ := ih.mp hrest
      exact ⟨(Shape.cons_mem_after_single hs).mpr ⟨i, hi, hletters⟩, g, rest, hl, hreads, rfl⟩
    · rintro ⟨hletters, g, rest, hl, hreads, rfl⟩
      obtain ⟨i, hi, hrest⟩ := (Shape.cons_mem_after_single hs).mp hletters
      exact ⟨g, rest, i, rfl, hi, hl, ih.mpr ⟨hrest, hreads⟩⟩

section

variable {first : Char} (hs : (shape.slots.map Prod.fst).Nodup)
  (hread : ∀ c v g, read c v = .ok g → letter g = c)
  (hfirst : ∀ c i, shape.place none c = .slot i ↔ c = first ∧ i = 0)
include hs hread hfirst

/-- The lines of a single section begin with its first letter. -/
theorem readSectionLines_none_eq_ok_iff :
    readSectionLines shape read none (l :: ls) = .ok gs ↔
      gs.map letter ∈ ({[first]} * Shape.after Shape.single shape 0 : Language Char)
        ∧ List.Forall₂ (fun l g => Field.ofLine read l.text = .ok g) (l :: ls) gs := by
  rw [readSectionLines_cons_eq_ok_iff hread, List.forall₂_cons_left_iff]
  constructor
  · rintro ⟨g, rest, i, rfl, hi, hl, hrest⟩
    obtain ⟨hg, rfl⟩ := (hfirst _ i).mp hi
    obtain ⟨hletters, hreads⟩ := (readSectionLines_eq_ok_iff hs hread).mp hrest
    refine ⟨⟨[first], rfl, _, hletters, ?_⟩, g, rest, hl, hreads, rfl⟩
    rw [List.map_cons, hg]
    rfl
  · rintro ⟨⟨a, ha, b, hb, hab⟩, g, rest, hl, hreads, rfl⟩
    obtain rfl : a = [first] := ha
    obtain ⟨hg, rfl⟩ : first = letter g ∧ b = rest.map letter := List.cons.inj hab
    refine ⟨g, rest, 0, rfl, (hfirst _ 0).mpr ⟨hg.symm, rfl⟩, hl, ?_⟩
    exact (readSectionLines_eq_ok_iff hs hread).mpr ⟨hb, hreads⟩

/-- The lines of a single section: their letters are in order, each line is
read, and the section is made of the fields. -/
theorem readSection_eq_ok_iff (hnil : ofFields? [] = none) {s : σ} :
    readSection shape read ofFields? ls = .ok s ↔
      ∃ gs, gs.map letter ∈ ({[first]} * Shape.after Shape.single shape 0 : Language Char)
        ∧ List.Forall₂ (fun l g => Field.ofLine read l.text = .ok g) ls gs
        ∧ ofFields? gs = some s := by
  have hsection : readSection shape read ofFields? ls = .ok s ↔
      ∃ gs, readSectionLines shape read none ls = .ok gs ∧ ofFields? gs = some s := by
    unfold readSection
    rw [bind_eq_ok]
    refine exists_congr fun gs => and_congr_right fun _ => ?_
    cases ofFields? gs <;> simp [throw_ne_ok]
  rw [hsection]
  cases ls with
  | nil =>
    -- No lines have no fields, and no section is made of these.
    constructor
    · rintro ⟨gs, h, hs⟩
      obtain rfl := Except.ok.inj h
      simp [hnil] at hs
    · rintro ⟨gs, -, h, hs⟩
      obtain rfl := List.forall₂_nil_left_iff.mp h
      simp [hnil] at hs
  | cons l ls => simp only [readSectionLines_none_eq_ok_iff hs hread hfirst, and_assoc]

/-- The lines of a single section, if a section can be made of the fields that
begin with the right letter. -/
theorem exists_readSection_iff
    (hof : ∀ g gs, letter g = first → (ofFields? (g :: gs)).isSome) (hnil : ofFields? [] = none) :
    (∃ s, readSection shape read ofFields? ls = .ok s) ↔
      ∃ gs, gs.map letter ∈ ({[first]} * Shape.after Shape.single shape 0 : Language Char)
        ∧ List.Forall₂ (fun l g => Field.ofLine read l.text = .ok g) ls gs := by
  simp only [readSection_eq_ok_iff hs hread hfirst hnil]
  constructor
  · rintro ⟨s, gs, hletters, hreads, -⟩
    exact ⟨gs, hletters, hreads⟩
  · rintro ⟨gs, hletters, hreads⟩
    have ⟨a, ha, b, _, hab⟩ := hletters
    obtain rfl : a = [first] := ha
    obtain ⟨g, rest, rfl, hg, -⟩ := List.map_eq_cons_iff.mp hab.symm
    obtain ⟨s, hs⟩ := Option.isSome_iff_exists.mp (hof g rest hg)
    exact ⟨s, g :: rest, hletters, hreads, hs⟩

end

end Document

end OfferAnswer
