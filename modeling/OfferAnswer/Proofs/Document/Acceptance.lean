/-
OfferAnswer/Proofs/Document/Acceptance.lean

Which texts are accepted.

A text of a kind is accepted if and only if it has lines, every line has the
form of a field, the letters of the lines are in the grammar of the kind, and
every line on its own is accepted by the fields of the section that owns it.
-/
import OfferAnswer.Proofs.Document.Reader

namespace OfferAnswer

open Text Outcome Document

/-- Whether a line on its own is accepted by the fields of a section. -/
def Owner.Accepts (o : Owner) (t : Text) : Prop :=
  match o with
  | .session => ∃ f, Field.ofLine SessionField.read t = .ok f
  | .time => ∃ f, Field.ofLine TimeField.read t = .ok f
  | .media => ∃ f, Field.ofLine MediaField.read t = .ok f

/-- The letters of lines: their first characters. -/
def Line.letters (ls : List Line) : List Char := ls.filterMap fun l => l.text.head?

namespace Grammar

/-- The owners of lines with some letters, in a document of a kind. -/
def ownersIn (kind : Owner) (cs : List Char) : List Owner :=
  match kind with
  | .session => owners .session cs
  | .time | .media => cs.map fun _ => kind

/-- The lines of a document of a kind. -/
structure Admits (kind : Owner) (ls : List Line) : Prop where
  ne_nil : ls ≠ []
  formed : ∀ l ∈ ls, ∃ c v, c ≠ '=' ∧ l.text = c :: '=' :: v
  order : Line.letters ls ∈ (ofKind kind).matches'
  accepted : List.Forall₂ Owner.Accepts (ownersIn kind (Line.letters ls)) (ls.map Line.text)

end Grammar

namespace Document

variable {ls : List Line} {fs : List NumberedField} {os : List Owner} {t : Text} {o : Owner}

/-! ### Single lines -/

theorem exists_ofLine_map {φ ψ : Type} {read : Char → Text → Except Field.Fault φ} (mk : φ → ψ) :
    (∃ f, Field.ofLine read t = .ok f) ↔
      ∃ g, Field.ofLine (fun c v => mk <$> read c v) t = .ok g := by
  unfold Field.ofLine
  rcases Field.split? t with - | ⟨c, v⟩
  · simp
  · simp [map_eq_ok]

theorem accepts_iff : o.Accepts t ↔ ∃ f, Field.ofLine (readField o) t = .ok f := by
  cases o with
  | session => exact exists_ofLine_map DocumentField.session
  | time => exact exists_ofLine_map DocumentField.time
  | media => exact exists_ofLine_map DocumentField.media

/-- A line that is read has the form of a field with the letter that is read. -/
theorem formed_of_ofLine {φ : Type} {read : Char → Text → Except Field.Fault φ}
    {letter : φ → Char} (hread : ∀ c v g, read c v = .ok g → letter g = c) {g : φ}
    (h : Field.ofLine read t = .ok g) :
    (∃ c v, c ≠ '=' ∧ t = c :: '=' :: v) ∧ t.head? = some (letter g) := by
  obtain ⟨c, v, hsplit, hg⟩ := ofLine_eq_ok_iff.mp h
  obtain ⟨rfl, hc⟩ := Field.split?_eq_some_iff.mp hsplit
  exact ⟨⟨c, v, hc, rfl⟩, by rw [hread c v g hg]; rfl⟩

/-- Lines that are read have the form of fields with the letters that are
read. -/
theorem formed_of_forall₂ {ψ : Type} {letter : ψ → Char} {R : Line → ψ → Prop} {gs : List ψ}
    (hR : ∀ l g, R l g → (∃ c v, c ≠ '=' ∧ l.text = c :: '=' :: v)
      ∧ l.text.head? = some (letter g)) (h : List.Forall₂ R ls gs) :
    (∀ l ∈ ls, ∃ c v, c ≠ '=' ∧ l.text = c :: '=' :: v) ∧ Line.letters ls = gs.map letter := by
  induction h with
  | nil => simp [Line.letters]
  | cons hlg _ ih =>
    obtain ⟨hformed, hhead⟩ := hR _ _ hlg
    refine ⟨List.forall_mem_cons.mpr ⟨hformed, ih.1⟩, ?_⟩
    rw [List.map_cons, ← ih.2]
    simp [Line.letters, hhead]

/-! ### Sessions -/

theorem letters_of_readsAs (h : List.Forall₂ ReadsAs ls fs) :
    (∀ l ∈ ls, ∃ c v, c ≠ '=' ∧ l.text = c :: '=' :: v) ∧ Line.letters ls = lettersOf fs :=
  have hread : ∀ o c v g, readField o c v = .ok g → g.letter = c :=
    fun _ _ _ _ hg => (letter_owner_of_readField hg).1
  formed_of_forall₂ (fun _ _ hlf => formed_of_ofLine (hread _) hlf.2) h

theorem exists_readsAs (h : List.Forall₂ Owner.Accepts os (ls.map Line.text)) :
    ∃ fs, List.Forall₂ ReadsAs ls fs ∧ (fs.map fun f => f.field.owner) = os := by
  induction ls generalizing os with
  | nil =>
    obtain rfl := List.forall₂_nil_right_iff.mp h
    exact ⟨[], .nil, rfl⟩
  | cons l ls ih =>
    obtain ⟨o, os, ho, hos, rfl⟩ := List.forall₂_cons_right_iff.mp h
    obtain ⟨f, hf⟩ := accepts_iff.mp ho
    obtain ⟨fs, hfs, rfl⟩ := ih hos
    obtain ⟨c, v, -, hread⟩ := ofLine_eq_ok_iff.mp hf
    obtain ⟨-, rfl⟩ := letter_owner_of_readField hread
    exact ⟨⟨l.number, f⟩ :: fs, .cons ⟨rfl, hf⟩ hfs, rfl⟩

theorem accepted_of_readsAs (h : List.Forall₂ ReadsAs ls fs) :
    List.Forall₂ Owner.Accepts (fs.map fun f => f.field.owner) (ls.map Line.text) := by
  induction h with
  | nil => exact .nil
  | cons hlf _ ih => exact .cons (accepts_iff.mpr ⟨_, hlf.2⟩) ih

theorem exists_session_iff : (∃ s, Session.ofLines ls = .ok s) ↔ Grammar.Admits .session ls := by
  rw [Session.exists_ofLines_iff]
  constructor
  · rintro ⟨fs, horder, howners, hreads⟩
    obtain ⟨hformed, hletters⟩ := letters_of_readsAs hreads
    refine ⟨?_, hformed, hletters ▸ horder, ?_⟩
    · rintro rfl
      obtain rfl := List.forall₂_nil_left_iff.mp hreads
      have hv := (Grammar.mem_session_iff.mp horder).2.1
      exact List.not_mem_nil hv
    · show List.Forall₂ Owner.Accepts (Grammar.owners .session (Line.letters ls)) _
      rw [hletters, ← howners]
      exact accepted_of_readsAs hreads
  · rintro ⟨-, -, horder, haccepted⟩
    obtain ⟨fs, hreads, howners⟩ := exists_readsAs haccepted
    obtain ⟨-, hletters⟩ := letters_of_readsAs hreads
    exact ⟨fs, hletters ▸ horder, hletters ▸ howners, hreads⟩

/-! ### Single sections -/

/-- Lines that are accepted one by one are read one by one. -/
theorem exists_forall₂_of_accepts {φ : Type} {read : Char → Text → Except Field.Fault φ}
    (hkind : ∀ t, o.Accepts t ↔ ∃ f, Field.ofLine read t = .ok f) (h : ∀ l ∈ ls, o.Accepts l.text) :
    ∃ gs, List.Forall₂ (fun l g => Field.ofLine read l.text = .ok g) ls gs := by
  induction ls with
  | nil => exact ⟨[], .nil⟩
  | cons l ls ih =>
    obtain ⟨hl, hls⟩ := List.forall_mem_cons.mp h
    obtain ⟨g, hg⟩ := (hkind _).mp hl
    obtain ⟨gs, hgs⟩ := ih hls
    exact ⟨g :: gs, .cons hg hgs⟩

/-- Lines that are all read by the fields of one section. -/
theorem exists_forall₂_iff {φ : Type} {read : Char → Text → Except Field.Fault φ}
    {letter : φ → Char} (hread : ∀ c v g, read c v = .ok g → letter g = c)
    (hkind : ∀ t, o.Accepts t ↔ ∃ f, Field.ofLine read t = .ok f)
    (howners : Grammar.ownersIn o (Line.letters ls) = (Line.letters ls).map fun _ => o)
    {first : Char} {L : Language Char} (horder : (Grammar.ofKind o).matches' = {[first]} * L) :
    (∃ gs, gs.map letter ∈ ({[first]} * L : Language Char)
      ∧ List.Forall₂ (fun l g => Field.ofLine read l.text = .ok g) ls gs)
      ↔ Grammar.Admits o ls := by
  have hformed : ∀ {gs}, List.Forall₂ (fun l g => Field.ofLine read l.text = .ok g) ls gs →
      (∀ l ∈ ls, ∃ c v, c ≠ '=' ∧ l.text = c :: '=' :: v) ∧ Line.letters ls = gs.map letter :=
    fun h => formed_of_forall₂ (fun _ _ hlg => formed_of_ofLine hread hlg) h
  constructor
  · rintro ⟨gs, hletters, hreads⟩
    obtain ⟨hform, heq⟩ := hformed hreads
    refine ⟨?_, hform, by rw [horder, heq]; exact hletters, ?_⟩
    · rintro rfl
      obtain rfl := List.forall₂_nil_left_iff.mp hreads
      obtain ⟨a, ha, b, -, hab⟩ := hletters
      obtain rfl : a = [first] := ha
      simp at hab
    · rw [howners, heq, List.map_map, List.forall₂_map_left_iff, List.forall₂_map_right_iff]
      exact (hreads.imp fun l g h => (hkind l.text).mpr ⟨g, h⟩).flip
  · rintro ⟨-, hform, hletters, haccepted⟩
    rw [howners, List.forall₂_map_left_iff, List.forall₂_map_right_iff] at haccepted
    -- All letters have the same owner, so the letters do not matter.
    have haccepts : ∀ l ∈ ls, o.Accepts l.text := by
      intro l hl
      obtain ⟨i, hi, rfl⟩ := List.getElem_of_mem hl
      exact haccepted.get (haccepted.length_eq.symm ▸ hi) hi
    obtain ⟨gs, hgs⟩ := exists_forall₂_of_accepts hkind haccepts
    exact ⟨gs, by rw [← (hformed hgs).2, ← horder]; exact hletters, hgs⟩

theorem exists_time_iff : (∃ s, TimeSection.ofLines ls = .ok s) ↔ Grammar.Admits .time ls := by
  have hread : ∀ c v f, TimeField.read c v = .ok f → f.letter = c := fun _ _ _ h =>
    (TimeField.wellFormed_of_read h).2
  have hnodup : (Shape.time.slots.map Prod.fst).Nodup := Shape.nodup_letters .time
  have hfirst : ∀ c i, Shape.time.place none c = .slot i ↔ c = 't' ∧ i = 0 :=
    fun c i => Shape.place_none_eq_slot_iff rfl
  have hof : ∀ f fs, TimeField.letter f = 't' → (TimeSection.ofFields? (f :: fs)).isSome := by
    intro f fs h
    cases f with
    | active a => rfl
    | _ => simp [TimeField.letter] at h
  exact (exists_readSection_iff hnodup hread hfirst hof rfl).trans
    (exists_forall₂_iff hread (fun _ => Iff.rfl) rfl Shape.matches'_time)

theorem exists_media_iff : (∃ s, MediaSection.ofLines ls = .ok s) ↔ Grammar.Admits .media ls := by
  have hread : ∀ c v f, MediaField.read c v = .ok f → f.letter = c := fun _ _ _ h =>
    MediaField.letter_of_read h
  have hnodup : (Shape.media.slots.map Prod.fst).Nodup := Shape.nodup_letters .media
  have hfirst : ∀ c i, Shape.media.place none c = .slot i ↔ c = 'm' ∧ i = 0 :=
    fun c i => Shape.place_none_eq_slot_iff rfl
  have hof : ∀ f fs, MediaField.letter f = 'm' → (MediaSection.ofFields? (f :: fs)).isSome := by
    intro f fs h
    cases f with
    | medium m => rfl
    | _ => simp [MediaField.letter] at h
  exact (exists_readSection_iff hnodup hread hfirst hof rfl).trans
    (exists_forall₂_iff hread (fun _ => Iff.rfl) rfl Shape.matches'_media)

/-! ### Documents -/

/-- A text of a kind is accepted if and only if its lines are in the grammar of
the kind and accepted one by one. -/
theorem exists_ofText_iff (kind : Owner) (t : Text) :
    (∃ d, ofText kind t = .ok d) ↔ ∃ ls, Line.ofText t = .ok ls ∧ Grammar.Admits kind ls := by
  have hlines : ∀ {σ : Type} (ofLines : List Line → Except Error σ),
      (∃ s, ((Line.ofText t).mapError Error.ofLineFault >>= ofLines) = .ok s) ↔
        ∃ ls, Line.ofText t = .ok ls ∧ ∃ s, ofLines ls = .ok s := by
    intro σ ofLines
    simp only [bind_eq_ok, mapError_eq_ok]
    exact ⟨fun ⟨s, ls, hls, hs⟩ => ⟨ls, hls, s, hs⟩, fun ⟨ls, hls, s, hs⟩ => ⟨s, ls, hls, hs⟩⟩
  have hmap : ∀ {σ : Type} (mk : σ → Document) (x : Except Error σ),
      (∃ d, mk <$> x = .ok d) ↔ ∃ s, x = .ok s := by
    intro σ mk x
    simp [map_eq_ok]
  cases kind with
  | session =>
    refine (hmap session _).trans ((hlines Session.ofLines).trans ?_)
    simp only [exists_session_iff]
  | time =>
    refine (hmap time _).trans ((hlines TimeSection.ofLines).trans ?_)
    simp only [exists_time_iff]
  | media =>
    refine (hmap media _).trans ((hlines MediaSection.ofLines).trans ?_)
    simp only [exists_media_iff]

end Document

end OfferAnswer
