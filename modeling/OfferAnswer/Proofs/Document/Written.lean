/-
OfferAnswer/Proofs/Document/Written.lean

Sessions, written and read again.

The fields of a session stand in the order of the grammar, and each is owned by
the section that wrote it.  So reading a written session comes to reading each
of its fields from its own value (`exists_ofText_text_iff`), and if these are
well-formed the session is found again (`ofText_text`).
-/
import OfferAnswer.Proofs.Document.Acceptance
import OfferAnswer.Proofs.Document.Assembly
import OfferAnswer.Proofs.Document.Field
import OfferAnswer.Proofs.Document.Lines

namespace OfferAnswer

open Text Outcome Document
open scoped Computability
open RegularExpression (char star)
open Language (append_mem_mul)

/-! ### Letters in order -/

namespace Grammar

variable {α φ : Type} {c : Char} {P : RegularExpression Char} {xs : List α} {letter : φ → Char}
  {mk : α → φ} {b : Owner} {fs gs : List DocumentField}

theorem char_mem (c : Char) : [c] ∈ (char c).matches' := rfl

theorem option_mem (h : ∀ x, letter (mk x) = c) (o : Option α) :
    (o.map mk).toList.map letter ∈ (optional (char c)).matches' := by
  cases o with
  | none => exact .inl rfl
  | some x => exact .inr (by rw [← h x]; rfl)

theorem flatMap_mem {f : α → List Char} (h : ∀ x ∈ xs, f x ∈ P.matches') :
    xs.flatMap f ∈ (star P).matches' :=
  ⟨xs.map f, List.flatMap_def, List.forall_mem_map.mpr h⟩

theorem list_mem (h : ∀ x, letter (mk x) = c) (xs : List α) :
    (xs.map mk).map letter ∈ (star (char c)).matches' := by
  rw [List.map_map, List.map_eq_flatMap]
  exact flatMap_mem fun x _ => by rw [Function.comp_apply, h x]; exact char_mem c

theorem time_mem (t : TimeSection) : t.fields.map TimeField.letter ∈ time.matches' := by
  rw [TimeSection.fields, List.map_append, List.map_cons]
  refine append_mem_mul (append_mem_mul (char_mem 't') (list_mem ?_ _))
    (option_mem ?_ _)
  all_goals exact fun _ => rfl

theorem media_mem (m : MediaSection) : m.fields.map MediaField.letter ∈ media.matches' := by
  rw [MediaSection.fields, List.map_append, List.map_append, List.map_append, List.map_append,
    List.map_cons]
  refine append_mem_mul (append_mem_mul (append_mem_mul
    (append_mem_mul (append_mem_mul (char_mem 'm') (option_mem ?_ _))
      (option_mem ?_ _)) (list_mem ?_ _)) (option_mem ?_ _)) (list_mem ?_ _)
  all_goals exact fun _ => rfl

/-- The lines of a session are written in order. -/
theorem session_mem (s : Session) : (s.draft.fields.map (·.letter)) ∈ session.matches' := by
  obtain ⟨t, ts, hts⟩ := List.exists_cons_of_ne_nil s.times_ne_nil
  have htimes : (s.times.flatMap fun t => t.fields.map TimeField.letter)
      ∈ (time * star time).matches' := by
    rw [hts, List.flatMap_cons]
    exact append_mem_mul (time_mem t) (flatMap_mem fun t _ => time_mem t)
  have hmedia : (s.media.flatMap fun m => m.fields.map MediaField.letter)
      ∈ (star media).matches' := flatMap_mem fun m _ => media_mem m
  have hfields : s.draft.fields.map (·.letter) = s.draft.ownBefore.map SessionField.letter
      ++ (s.times.flatMap fun t => t.fields.map TimeField.letter)
      ++ s.draft.ownAfter.map SessionField.letter
      ++ (s.media.flatMap fun m => m.fields.map MediaField.letter) := by
    simp only [Draft.fields, List.map_append, List.map_flatMap, List.map_map]
    rfl
  rw [hfields, Draft.ownBefore, Draft.ownAfter]
  -- One part after the other, in the order of the grammar.
  simp only [List.map_append, ← List.append_assoc]
  refine append_mem_mul (append_mem_mul (append_mem_mul (append_mem_mul ?_ htimes)
    (option_mem ?_ _)) (list_mem ?_ _)) hmedia
  · refine append_mem_mul (append_mem_mul (append_mem_mul (append_mem_mul (append_mem_mul
      (append_mem_mul (append_mem_mul (append_mem_mul (char_mem 'v') (char_mem 'o'))
        (char_mem 's')) (option_mem ?_ _)) (option_mem ?_ _)) (option_mem ?_ _))
          (option_mem ?_ _)) (option_mem ?_ _)) (list_mem ?_ _)
    all_goals exact fun _ => rfl
  all_goals exact fun _ => rfl

/-! ### Owners -/

/-- Fields that have their own owners after an owner. -/
def OwnedAfter (b : Owner) (fs : List DocumentField) : Prop :=
  owners b (fs.map (·.letter)) = fs.map (·.owner)

theorem ownedAfter_cons {f : DocumentField} :
    OwnedAfter b (f :: fs) ↔ owner b f.letter = f.owner ∧ OwnedAfter f.owner fs := by
  rw [OwnedAfter, List.map_cons, List.map_cons, owners, List.cons.injEq]
  exact and_congr_right fun h => by rw [h]; rfl

/-- Fields follow others if they do so after any owner that may stand there. -/
theorem OwnedAfter.append (hf : OwnedAfter b fs) (hb : OwnedAfter b gs)
    (hg : ∀ f ∈ fs, OwnedAfter f.owner gs) : OwnedAfter b (fs ++ gs) := by
  induction fs generalizing b with
  | nil => exact hb
  | cons f fs ih =>
    rw [List.forall_mem_cons] at hg
    obtain ⟨hfo, hfs⟩ := ownedAfter_cons.mp hf
    exact ownedAfter_cons.mpr ⟨hfo, ih hfs hg.1 hg.2⟩

/-- What a session owns itself does not begin a section, nor go on with one. -/
theorem ownedAfter_session (hb : b ≠ .media) (fs : List SessionField) :
    OwnedAfter b (fs.map .session) := by
  induction fs generalizing b with
  | nil => rfl
  | cons f fs ih =>
    refine ownedAfter_cons.mpr ⟨?_, ih nofun⟩
    cases f <;> simp [owner, hb, DocumentField.letter, SessionField.letter, DocumentField.owner]

theorem ownedAfter_time (hb : b ≠ .media) (t : TimeSection) :
    OwnedAfter b (t.fields.map .time) := by
  have hrest : ∀ fs : List TimeField, OwnedAfter .time (fs.map .time) := by
    intro fs
    induction fs with
    | nil => rfl
    | cons f fs ih =>
      refine ownedAfter_cons.mpr ⟨?_, ih⟩
      cases f <;> rfl
  refine ownedAfter_cons.mpr ⟨?_, hrest _⟩
  cases b <;> first | rfl | exact absurd rfl hb

/-- Fields of media stay in the medium that is open. -/
theorem ownedAfter_inside_media (fs : List MediaField) : OwnedAfter .media (fs.map .media) := by
  induction fs with
  | nil => rfl
  | cons f fs ih => exact ownedAfter_cons.mpr ⟨if_pos (.inr rfl), ih⟩

theorem ownedAfter_media (b : Owner) (m : MediaSection) : OwnedAfter b (m.fields.map .media) :=
  ownedAfter_cons.mpr ⟨if_pos (.inl rfl), ownedAfter_inside_media _⟩

theorem owner_eq_media (h : OwnedAfter .media fs) : ∀ f ∈ fs, f.owner = .media := by
  induction fs with
  | nil => simp
  | cons f fs ih =>
    obtain ⟨hf, hfs⟩ := ownedAfter_cons.mp h
    have hf : f.owner = .media := hf.symm.trans (if_pos (.inr rfl))
    exact List.forall_mem_cons.mpr ⟨hf, ih (hf ▸ hfs)⟩

theorem ownedAfter_times (hb : b ≠ .media) (ts : List TimeSection) :
    OwnedAfter b (ts.flatMap fun t => t.fields.map .time) := by
  induction ts generalizing b with
  | nil => rfl
  | cons t ts ih =>
    refine (ownedAfter_time hb t).append (ih hb) ?_
    exact List.forall_mem_map.mpr fun _ _ => ih nofun

theorem ownedAfter_allMedia (b : Owner) (ms : List MediaSection) :
    OwnedAfter b (ms.flatMap fun m => m.fields.map .media) := by
  induction ms generalizing b with
  | nil => rfl
  | cons m ms ih => exact (ownedAfter_media b m).append (ih b) fun f _ => ih f.owner

/-- Every line of a session is owned by the section that wrote it. -/
theorem ownedAfter_draft (d : Draft) : OwnedAfter .session d.fields := by
  have hmedia := fun b => ownedAfter_allMedia b d.media
  have hown : ∀ {b}, b ≠ .media → OwnedAfter b (d.ownAfter.map .session
      ++ d.media.flatMap fun m => m.fields.map .media) := fun hb =>
    (ownedAfter_session hb _).append (hmedia _) fun f _ => hmedia f.owner
  have htimes : ∀ {b}, b ≠ .media → OwnedAfter b (d.times.flatMap (fun t => t.fields.map .time)
      ++ (d.ownAfter.map .session ++ d.media.flatMap fun m => m.fields.map .media)) := by
    intro b hb
    -- A field of a time is owned by that time, so no medium is open after it.
    refine (ownedAfter_times hb _).append (hown hb) fun f hf => hown ?_
    obtain ⟨t, -, hf⟩ := List.mem_flatMap.mp hf
    obtain ⟨g, -, rfl⟩ := List.mem_map.mp hf
    exact nofun
  have hsession : Owner.session ≠ .media := nofun
  rw [Draft.fields, List.append_assoc, List.append_assoc]
  refine (ownedAfter_session hsession _).append (htimes hsession) ?_
  exact List.forall_mem_map.mpr fun _ _ => htimes hsession

end Grammar

/-! ### Reading again -/

namespace Session

variable {s : Session} {ls : List Line} {gs : List DocumentField}

/-- What a field is read as when it has been written. -/
def RereadsAs (f g : DocumentField) : Prop := readField f.owner f.letter f.value = .ok g

/-- A line that a field was written to. -/
theorem ofLine_text {o : Owner} {f g : DocumentField} :
    Field.ofLine (readField o) f.text = .ok g ↔ readField o f.letter f.value = .ok g := by
  rw [ofLine_eq_ok_iff, f.split?_text]
  constructor
  · rintro ⟨c, v, heq, h⟩
    obtain ⟨rfl, rfl⟩ := Prod.mk.inj (Option.some.inj heq)
    exact h
  · exact fun h => ⟨_, _, rfl, h⟩

theorem exists_readsAs_of_rereadsAs {fs : List DocumentField} (h : List.Forall₂ RereadsAs fs gs)
    (hls : ls.map Line.text = fs.map (·.text)) :
    ∃ ns, List.Forall₂ ReadsAs ls ns ∧ ns.map NumberedField.field = gs := by
  induction h generalizing ls with
  | nil =>
    obtain rfl := List.map_eq_nil_iff.mp hls
    exact ⟨[], .nil, rfl⟩
  | @cons f g fs gs hfg _ ih =>
    obtain ⟨l, ls, rfl, hl, hls⟩ := List.map_eq_cons_iff.mp hls
    obtain ⟨ns, hns, rfl⟩ := ih hls
    obtain ⟨-, howner⟩ := letter_owner_of_readField hfg
    refine ⟨⟨l.number, g⟩ :: ns, .cons ⟨rfl, ?_⟩ hns, rfl⟩
    show Field.ofLine (readField g.owner) l.text = .ok g
    rw [howner, hl]
    exact ofLine_text.mpr hfg

theorem letters_of_rereadsAs {fs : List DocumentField} (h : List.Forall₂ RereadsAs fs gs) :
    gs.map (·.letter) = fs.map (·.letter) ∧ gs.map (·.owner) = fs.map (·.owner) := by
  induction h with
  | nil => exact ⟨rfl, rfl⟩
  | cons hfg _ ih =>
    obtain ⟨hletter, howner⟩ := letter_owner_of_readField hfg
    exact ⟨congrArg₂ List.cons hletter ih.1, congrArg₂ List.cons howner ih.2⟩

/-- The lines of a written session. -/
theorem exists_lines (h : ∀ f ∈ s.draft.fields, Over InLine f.value) :
    ∃ ls, Line.ofText s.text = .ok ls ∧ ls.map Line.text = s.draft.fields.map (·.text) := by
  have htexts : ∀ t ∈ s.draft.fields.map (·.text), t ≠ [] ∧ Over InLine t := by
    rw [List.forall_mem_map]
    exact fun f hf => ⟨by rw [f.text_eq]; exact List.cons_ne_nil _ _, f.over_text (h f hf)⟩
  obtain ⟨ls, hls, hmap⟩ := Line.exists_ofText_written htexts
  rw [List.flatMap_map] at hls
  exact ⟨ls, hls, hmap⟩

/-- A written session is read as the session of what its fields are read as. -/
theorem exists_ofText_text (h : ∀ f ∈ s.draft.fields, Over InLine f.value)
    (hgs : List.Forall₂ RereadsAs s.draft.fields gs) :
    ∃ s', ofText s.text = .ok s' ∧ (Draft.ofFields gs).toSession = .ok s' := by
  obtain ⟨ls, hls, hmap⟩ := exists_lines h
  obtain ⟨ns, hns, rfl⟩ := exists_readsAs_of_rereadsAs hgs hmap
  obtain ⟨hletters, howners⟩ := letters_of_rereadsAs hgs
  rw [List.map_map] at hletters howners
  have horder : lettersOf ns = s.draft.fields.map (·.letter) := hletters
  have howned : Grammar.owners .session (s.draft.fields.map (·.letter)) = _ :=
    Grammar.ownedAfter_draft s.draft
  have hmem : lettersOf ns ∈ Grammar.session.matches' := horder ▸ Grammar.session_mem s
  obtain ⟨s', hs'⟩ := exists_toSession hmem
  refine ⟨s', bind_eq_ok.mpr ⟨ls, mapError_eq_ok.mpr hls, ?_⟩, hs'⟩
  exact ofLines_eq_ok_iff.mpr ⟨ns, hmem, by rw [horder, howned]; exact howners, hns, hs'⟩

/-- A written session is accepted if and only if each of its fields is read
from its own value. -/
theorem exists_ofText_text_iff (h : ∀ f ∈ s.draft.fields, Over InLine f.value) :
    (∃ s', ofText s.text = .ok s') ↔ ∀ f ∈ s.draft.fields, ∃ g, RereadsAs f g := by
  constructor
  · rintro ⟨s', hs'⟩
    obtain ⟨ls, hls, hmap⟩ := exists_lines h
    obtain ⟨ls', hls', hlines⟩ := bind_eq_ok.mp hs'
    obtain rfl := Except.ok.inj (hls.symm.trans (mapError_eq_ok.mp hls'))
    -- The lines are those of the fields, so they have their letters and owners.
    have hletters : Line.letters ls = s.draft.fields.map (·.letter) := by
      have hhead : ∀ f ∈ s.draft.fields, f.text.head? = some f.letter := fun f _ => by
        rw [f.text_eq]
        rfl
      have hheads : Line.letters ls = (ls.map Line.text).filterMap List.head? := by
        rw [List.filterMap_map]
        rfl
      rw [hheads, hmap, List.filterMap_map, ← List.filterMap_eq_map]
      exact List.filterMap_congr hhead
    have haccepted : List.Forall₂ Owner.Accepts
        (Grammar.owners .session (Line.letters ls)) (ls.map Line.text) :=
      (exists_session_iff.mp ⟨s', hlines⟩).accepted
    have howned : Grammar.owners .session (s.draft.fields.map (·.letter)) = _ :=
      Grammar.ownedAfter_draft s.draft
    rw [hletters, howned, hmap, List.forall₂_map_left_iff, List.forall₂_map_right_iff,
      List.forall₂_same] at haccepted
    intro f hf
    obtain ⟨g, hg⟩ := accepts_iff.mp (haccepted f hf)
    exact ⟨g, ofLine_text.mp hg⟩
  · intro hread
    choose! g hg using hread
    have hall : List.Forall₂ RereadsAs s.draft.fields (s.draft.fields.map g) :=
      List.forall₂_map_right_iff.mpr (List.forall₂_same.mpr hg)
    obtain ⟨s', hs', -⟩ := exists_ofText_text h hall
    exact ⟨s', hs'⟩

/-- The session with every bandwidth under its own spelling. -/
def rekeyed (s : Session) : Session :=
  { s with
    bandwidths := s.bandwidths.rekeyed
    media := s.media.map MediaSection.rekeyed }

/-- A session whose fields are as their readers leave them is found again. -/
theorem ofText_text
    (h : ∀ f ∈ s.draft.fields, f.WellFormed InLine ∧ f.isWritable = true) :
    ofText s.text = .ok s.rekeyed := by
  have hvalue : ∀ f ∈ s.draft.fields, Over InLine f.value := fun f hf => f.over_value (h f hf).1
  have hread : List.Forall₂ RereadsAs s.draft.fields s.draft.fields :=
    List.forall₂_same.mpr fun f hf => readField_value (h f hf).1 (h f hf).2
  obtain ⟨s', hs', hdraft⟩ := exists_ofText_text hvalue hread
  have hself : s.draft.rekeyed.toSession = .ok s.rekeyed := dif_neg s.times_ne_nil
  rw [Draft.ofFields_fields, hself] at hdraft
  obtain rfl := Except.ok.inj hdraft
  exact hs'

end Session

end OfferAnswer
