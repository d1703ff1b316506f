/-
OfferAnswer/Proofs/Document/Composition.lean

Sessions composed of a head and media.

A media section means the same on its own and inside a session.  A session with
a medium behind it is a session (`Session.IsMadeOf.append`), and a session with
media is made of one without the last medium and of this medium
(`Session.IsMadeOf.split`).  The main statement (`Session.ofText_composed`) says
so of texts: documents and media are joined as texts, and a document is cut in
front of the lines that begin its media.
-/
import OfferAnswer.Proofs.Document.Cut
import OfferAnswer.Proofs.Document.Sound

namespace OfferAnswer

open Text Outcome Document
open Grammar (OwnedAfter ownedAfter_cons)

variable {s : Session} {m : MediaSection} {t : Text} {ts us : List Text} {ls : List Line}
  {fs : List DocumentField} {gs : List MediaField}

/-! ### Lines without their numbers -/

theorem Line.exists_lines_iff :
    (∃ ls, ofText t = .ok ls ∧ ls.map text = ts) ↔ texts t = ts ∧ [] ∉ ts := by
  constructor
  · rintro ⟨ls, hls, rfl⟩
    obtain ⟨hmap, hne⟩ := map_text_of_numberFrom hls
    exact ⟨hmap.symm, hmap ▸ hne⟩
  · rintro ⟨rfl, hne⟩
    exact exists_numberFrom hne 1

/-- A field is what a line stands for. -/
def Document.StandsFor (t : Text) (f : DocumentField) : Prop :=
  Field.ofLine (readField f.owner) t = .ok f

theorem Document.exists_readsAs_iff :
    (∃ ns, List.Forall₂ ReadsAs ls ns ∧ ns.map NumberedField.field = fs)
      ↔ List.Forall₂ StandsFor (ls.map Line.text) fs := by
  rw [List.forall₂_map_left_iff]
  constructor
  · rintro ⟨ns, hns, rfl⟩
    exact List.forall₂_map_right_iff.mpr (hns.imp fun _ _ h => h.2)
  · intro h
    induction h with
    | nil => exact ⟨[], .nil, rfl⟩
    | @cons l f _ _ hf _ ih =>
      obtain ⟨ns, hns, rfl⟩ := ih
      exact ⟨⟨l.number, f⟩ :: ns, .cons ⟨rfl, hf⟩ hns, rfl⟩

/-- A session is what lines stand for. -/
def Session.IsMadeOf (s : Session) (ts : List Text) : Prop :=
  ∃ fs : List DocumentField, fs.map (·.letter) ∈ Grammar.session.matches'
    ∧ OwnedAfter .session fs ∧ List.Forall₂ StandsFor ts fs
    ∧ (Draft.ofFields fs).toSession = .ok s

/-- A medium is what lines stand for. -/
def MediaSection.IsMadeOf (m : MediaSection) (ts : List Text) : Prop :=
  ∃ gs : List MediaField, gs.map (·.letter) ∈ Grammar.media.matches'
    ∧ List.Forall₂ StandsFor ts (gs.map .media) ∧ ofFields? gs = some m

theorem Session.ofLines_eq_ok_iff_isMadeOf :
    ofLines ls = .ok s ↔ s.IsMadeOf (ls.map Line.text) := by
  have hfields : ∀ ns : List NumberedField,
      lettersOf ns = (ns.map NumberedField.field).map (·.letter)
        ∧ (ns.map fun n => n.field.owner) = (ns.map NumberedField.field).map (·.owner) := by
    simp [lettersOf]
  simp only [IsMadeOf, ofLines_eq_ok_iff, ← exists_readsAs_iff, hfields]
  constructor
  · rintro ⟨ns, hletters, howners, hreads, hs⟩
    exact ⟨_, hletters, howners.symm, ⟨ns, hreads, rfl⟩, hs⟩
  · rintro ⟨_, hletters, howned, ⟨ns, hreads, rfl⟩, hs⟩
    exact ⟨ns, hletters, howned.symm, hreads, hs⟩

theorem Document.standsFor_media {g : MediaField} :
    StandsFor t (.media g) ↔ Field.ofLine MediaField.read t = .ok g := by
  simp only [StandsFor, DocumentField.owner, ofLine_eq_ok_iff]
  refine exists_congr fun c => exists_congr fun v => and_congr_right fun _ => ?_
  refine map_eq_ok.trans ⟨?_, fun h => ⟨g, h, rfl⟩⟩
  rintro ⟨_, h, hg⟩
  exact DocumentField.media.inj hg ▸ h

theorem MediaSection.ofLines_eq_ok_iff_isMadeOf :
    ofLines ls = .ok m ↔ m.IsMadeOf (ls.map Line.text) := by
  simp only [IsMadeOf, List.forall₂_map_left_iff, List.forall₂_map_right_iff, standsFor_media,
    Shape.matches'_media]
  exact readSection_eq_ok_iff (Shape.nodup_letters .media)
    (fun _ _ _ h => MediaField.letter_of_read h) (fun _ _ => Shape.place_none_eq_slot_iff rfl) rfl

/-- What is read from the lines of a text, if that does not depend on their
numbers. -/
theorem Line.bind_ofText_eq_ok_iff {σ : Type} {read : List Line → Except Error σ} {a : σ}
    {P : List Text → Prop} (h : ∀ ls, read ls = .ok a ↔ P (ls.map text)) :
    (ofText t).mapError Error.ofLineFault >>= read = .ok a ↔ [] ∉ texts t ∧ P (texts t) := by
  simp only [bind_eq_ok, mapError_eq_ok, h]
  constructor
  · rintro ⟨ls, hls, ha⟩
    obtain ⟨htexts, hne⟩ := exists_lines_iff.mp ⟨ls, hls, rfl⟩
    rw [htexts]
    exact ⟨hne, ha⟩
  · rintro ⟨hne, ha⟩
    obtain ⟨ls, hls, htexts⟩ := exists_lines_iff.mpr ⟨rfl, hne⟩
    exact ⟨ls, hls, htexts ▸ ha⟩

theorem Session.ofText_eq_ok_iff :
    ofText t = .ok s ↔ [] ∉ Line.texts t ∧ s.IsMadeOf (Line.texts t) :=
  Line.bind_ofText_eq_ok_iff fun _ => ofLines_eq_ok_iff_isMadeOf

theorem MediaSection.ofText_eq_ok_iff :
    ofText t = .ok m ↔ [] ∉ Line.texts t ∧ m.IsMadeOf (Line.texts t) :=
  Line.bind_ofText_eq_ok_iff fun _ => ofLines_eq_ok_iff_isMadeOf

/-! ### Letters and owners -/

namespace Grammar

open RegularExpression (char star)

variable {v w : List Char} {b : Owner}

/-- The lines of a session without media. -/
def head : RegularExpression Char :=
  char 'v' * char 'o' * char 's' * optional (char 'i') * optional (char 'u') * optional (char 'e')
    * optional (char 'p') * optional (char 'c') * star (char 'b') * (time * star time)
    * optional (char 'k') * star (char 'a')

/-- The lines of a medium after the first one. -/
def afterMedium : RegularExpression Char :=
  optional (char 'i') * optional (char 'c') * star (char 'b') * optional (char 'k')
    * star (char 'a')

/-- A medium begins with its letter, and does not begin again. -/
theorem eq_cons_of_mem_media (h : v ∈ media.matches') : ∃ rest, v = 'm' :: rest ∧ 'm' ∉ rest := by
  have hmedia : media.matches' = {['m']} * afterMedium.matches' := by
    simp only [afterMedium, media, RegularExpression.matches'_mul,
      RegularExpression.matches'_char, mul_assoc]
  rw [hmedia] at h
  obtain ⟨_, rfl, rest, hrest, rfl⟩ := h
  exact ⟨rest, rfl, fun hm => absurd (mem_letters hrest hm) (by decide)⟩

/-- A medium behind a session makes a session. -/
theorem append_mem_session (hw : w ∈ session.matches') (hv : v ∈ media.matches') :
    w ++ v ∈ session.matches' := by
  obtain ⟨a, ha, b, ⟨L, rfl, hL⟩, rfl⟩ : w ∈ (head * star media).matches' := hw
  refine ⟨a, ha, L.flatten ++ v, ⟨L ++ [v], by simp, ?_⟩, (List.append_assoc ..).symm⟩
  exact List.forall_mem_append.mpr ⟨hL, List.forall_mem_singleton.mpr hv⟩

/-- A session has no medium, or it is a session with a medium behind it. -/
theorem split_of_mem_session (h : w ∈ session.matches') :
    'm' ∉ w ∨ ∃ a v, w = a ++ v ∧ a ∈ session.matches' ∧ v ∈ media.matches' := by
  obtain ⟨a, ha, _, ⟨L, rfl, hL⟩, rfl⟩ : w ∈ (head * star media).matches' := h
  cases L using List.reverseRecOn with
  | nil =>
    refine .inl fun hm => absurd (mem_letters ha (c := 'm') ?_) (by decide)
    simpa using hm
  | append_singleton L v =>
    rw [List.forall_mem_append, List.forall_mem_singleton] at hL
    refine .inr ⟨a ++ L.flatten, v, by simp, ⟨a, ha, L.flatten, ⟨L, rfl, hL.1⟩, rfl⟩, hL.2⟩

/-- The first of two parts has its owners, and the second one after some
owner. -/
theorem OwnedAfter.of_append {gs : List DocumentField} (h : OwnedAfter b (fs ++ gs)) :
    OwnedAfter b fs ∧ ∃ o, OwnedAfter o gs := by
  induction fs generalizing b with
  | nil => exact ⟨rfl, b, h⟩
  | cons f fs ih =>
    obtain ⟨hf, hrest⟩ := ownedAfter_cons.mp h
    obtain ⟨hfs, hgs⟩ := ih hrest
    exact ⟨ownedAfter_cons.mpr ⟨hf, hfs⟩, hgs⟩

/-- The lines of a medium have their owners wherever they stand. -/
theorem ownedAfter_of_letters (h : gs.map (·.letter) = 'm' :: w) (b : Owner) :
    OwnedAfter b (gs.map .media) := by
  obtain ⟨g, gs, rfl, hg, -⟩ := List.map_eq_cons_iff.mp h
  exact ownedAfter_cons.mpr ⟨if_pos (.inl hg), ownedAfter_inside_media gs⟩

/-- What stands behind the first line of a medium belongs to media. -/
theorem exists_map_media {o : Owner} (h : OwnedAfter o fs)
    (hletters : fs.map (·.letter) = 'm' :: w) : ∃ gs : List MediaField, fs = gs.map .media := by
  obtain ⟨f, fs, rfl, hf, -⟩ := List.map_eq_cons_iff.mp hletters
  obtain ⟨hfo, hfs⟩ := ownedAfter_cons.mp h
  have hmedia : f.owner = .media := hfo.symm.trans (if_pos (.inl hf))
  have howners : ∀ g ∈ f :: fs, g.owner = .media :=
    List.forall_mem_cons.mpr ⟨hmedia, owner_eq_media (hmedia ▸ hfs)⟩
  have hrange : f :: fs ∈ Set.range (List.map DocumentField.media) := by
    rw [Set.range_list_map]
    intro g hg
    have howner := howners g hg
    cases g with
    | media g => exact ⟨g, rfl⟩
    | _ => exact nomatch howner
  obtain ⟨gs, hgs⟩ := hrange
  exact ⟨gs, hgs.symm⟩

end Grammar

/-! ### Media behind a session -/

namespace Draft

variable {d : Draft}

/-- The media are no required part. -/
theorem toSession_withMedia (h : d.toSession = .ok s) (ms : List MediaSection) :
    { d with media := ms }.toSession = .ok { s with media := ms } := by
  obtain rfl := draft_of_toSession h
  exact dif_neg s.times_ne_nil

/-- Without the first line of a medium there is none. -/
theorem media_ofFields_eq_nil (h : 'm' ∉ fs.map (·.letter)) : (ofFields fs).media = [] := by
  have hempty : empty.media = [] := rfl
  refine List.foldlRecOn (motive := fun d : Draft => d.media = []) fs add hempty
    fun d hd f hf => ?_
  have hletter : f.letter ≠ 'm' := fun he => h (he ▸ List.mem_map_of_mem hf)
  rcases f with f | f | f
  · cases f <;> exact hd
  · cases f <;> exact hd
  · cases f with
    | medium medium => exact absurd rfl hletter
    | _ => exact congrArg (updateLast _) hd

theorem exists_ofFields?_of_letters {w : List Char} (h : gs.map (·.letter) = 'm' :: w) :
    ∃ m, MediaSection.ofFields? gs = some m := by
  obtain ⟨g, gs, rfl, hg, -⟩ := List.map_eq_cons_iff.mp h
  cases g with
  | medium medium => exact ⟨_, rfl⟩
  | _ => simp [MediaField.letter] at hg

/-- Entering the fields of a medium adds the medium. -/
theorem foldl_add_ofFields? (h : MediaSection.ofFields? gs = some m)
    (hgs : 'm' ∉ gs.tail.map (·.letter)) :
    (gs.map .media).foldl add d = { d with media := d.media ++ [m] } := by
  cases gs with
  | nil => exact nomatch h
  | cons g gs =>
    cases g with
    | medium medium =>
      obtain rfl := Option.some.inj h
      refine foldl_add_media _ gs fun f hf medium hmedium => hgs ?_
      exact List.mem_map.mpr ⟨f, hf, by rw [hmedium]; rfl⟩
    | _ => exact nomatch h

end Draft

namespace Session

/-- A medium behind a session makes a session. -/
theorem IsMadeOf.append (hs : s.IsMadeOf ts) (hm : m.IsMadeOf us) :
    IsMadeOf { s with media := s.media ++ [m] } (ts ++ us) := by
  obtain ⟨fs, hletters, howned, hreads, hs⟩ := hs
  obtain ⟨gs, hgs, hmedia, hm⟩ := hm
  obtain ⟨rest, hrest, hnot⟩ := Grammar.eq_cons_of_mem_media hgs
  refine ⟨fs ++ gs.map .media, ?_, ?_, List.rel_append hreads hmedia, ?_⟩
  · rw [List.map_append, List.map_map]
    exact Grammar.append_mem_session hletters hgs
  · have hgs := Grammar.ownedAfter_of_letters hrest
    exact howned.append (hgs _) fun f _ => hgs f.owner
  · have hd : (Draft.ofFields fs).media = s.media :=
      congrArg (·.media) (Draft.draft_of_toSession hs).symm
    have hadd := Draft.foldl_add_ofFields? (d := Draft.ofFields fs) hm (by
      rwa [List.map_tail, hrest])
    rw [Draft.ofFields, List.foldl_append, ← Draft.ofFields, hadd, hd]
    exact Draft.toSession_withMedia hs _

/-- A session has no media, or it is made of a session with a medium behind
it. -/
theorem IsMadeOf.split (hs : s.IsMadeOf ts) :
    (∃ fs : List DocumentField, List.Forall₂ StandsFor ts fs ∧ 'm' ∉ fs.map (·.letter)
        ∧ s.media = [])
      ∨ ∃ ts' us s' m, ts = ts' ++ us ∧ IsMadeOf s' ts' ∧ MediaSection.IsMadeOf m us
        ∧ s = { s' with media := s'.media ++ [m] } := by
  obtain ⟨fs, hletters, howned, hreads, hs⟩ := hs
  have hmedia : s.media = (Draft.ofFields fs).media :=
    congrArg (·.media) (Draft.draft_of_toSession hs)
  rcases Grammar.split_of_mem_session hletters with hm | ⟨w, v, hsplit, hw, hv⟩
  · exact .inl ⟨fs, hreads, hm, hmedia.trans (Draft.media_ofFields_eq_nil hm)⟩
  · obtain ⟨fs, gs, rfl, rfl, rfl⟩ := List.map_eq_append_iff.mp hsplit
    obtain ⟨rest, hrest, hnot⟩ := Grammar.eq_cons_of_mem_media hv
    obtain ⟨hfs, o, hgs⟩ := Grammar.OwnedAfter.of_append howned
    obtain ⟨gs, rfl⟩ := Grammar.exists_map_media hgs hrest
    have hgletters : (gs.map DocumentField.media).map (·.letter) = gs.map MediaField.letter :=
      List.map_map
    rw [hgletters] at hrest hv
    obtain ⟨m, hm⟩ := Draft.exists_ofFields?_of_letters hrest
    have hadd := Draft.foldl_add_ofFields? (d := Draft.ofFields fs) hm (by
      rwa [List.map_tail, hrest])
    rw [Draft.ofFields, List.foldl_append, ← Draft.ofFields, hadd] at hs hmedia
    refine .inr ⟨ts.take fs.length, ts.drop fs.length,
      { s with media := (Draft.ofFields fs).media }, m, (List.take_append_drop ..).symm,
      ⟨fs, hw, hfs, List.forall₂_take_append _ _ _ hreads, ?_⟩,
      ⟨gs, hv, List.forall₂_drop_append _ _ _ hreads, hm⟩, ?_⟩
    · exact Draft.toSession_withMedia hs (Draft.ofFields fs).media
    · replace hmedia : s.media = (Draft.ofFields fs).media ++ [m] := hmedia
      show s = { s with media := (Draft.ofFields fs).media ++ [m] }
      rw [← hmedia]

theorem IsMadeOf.ne_nil (hs : s.IsMadeOf ts) : ts ≠ [] := by
  rintro rfl
  obtain ⟨fs, hletters, -, hreads, -⟩ := hs
  obtain rfl := List.forall₂_nil_left_iff.mp hreads
  exact List.not_mem_nil (required_of_mem_session hletters).1

end Session

/-! ### Texts -/

theorem MediaSection.IsMadeOf.ne_nil (hm : m.IsMadeOf us) : us ≠ [] := by
  rintro rfl
  obtain ⟨gs, hletters, hreads, hm⟩ := hm
  obtain rfl := List.map_eq_nil_iff.mp (List.forall₂_nil_left_iff.mp hreads)
  exact nomatch hm

/-- Whether a line begins a medium. -/
def beginsMedia (line : Text) : Bool := "m=".toList.isPrefixOf line

/-- Cut a text before each line that begins a medium: what stands in front of
the first of these lines, and the pieces. -/
def cutAtMedia (t : Text) : Text × List Text :=
  ((cutBefore beginsMedia (Line.whole t)).1.flatten,
    (cutBefore beginsMedia (Line.whole t)).2.map List.flatten)

theorem flatten_cutAtMedia (t : Text) : (cutAtMedia t).1 ++ (cutAtMedia t).2.flatten = t := by
  rw [cutAtMedia, ← List.flatten_flatten, ← List.flatten_append, flatten_cutBefore,
    Line.flatten_whole]

/-- The letters of its fields tell which lines of a text begin a medium. -/
theorem map_beginsMedia (h : List.Forall₂ StandsFor (Line.texts t) fs) :
    (Line.whole t).map beginsMedia = (fs.map (·.letter)).map (· == 'm') := by
  have hwhole := Line.isPrefix_whole t
  generalize Line.texts t = ts at h hwhole
  generalize Line.whole t = ws at hwhole ⊢
  induction hwhole generalizing fs with
  | nil =>
    obtain rfl := List.forall₂_nil_left_iff.mp h
    rfl
  | @cons u w _ _ huw _ ih =>
    obtain ⟨f, fs, hf, hfs, rfl⟩ := List.forall₂_cons_left_iff.mp h
    obtain ⟨c, v, hsplit, hread⟩ := ofLine_eq_ok_iff.mp hf
    obtain ⟨rfl, -⟩ := Field.split?_eq_some_iff.mp hsplit
    obtain ⟨rfl, -⟩ := letter_owner_of_readField hread
    obtain ⟨ending, rfl⟩ := huw
    rw [List.map_cons, List.map_cons, List.map_cons, ih hfs]
    simp [beginsMedia, Field.line, List.isPrefixOf, BEq.comm]

/-- The lines of a medium are one that begins it, and others that begin
none. -/
theorem MediaSection.whole_of_ofText (h : ofText t = .ok m) : ∃ w ws, Line.whole t = w :: ws
    ∧ beginsMedia w = true ∧ ∀ w ∈ ws, beginsMedia w = false := by
  obtain ⟨-, gs, hletters, hreads, -⟩ := ofText_eq_ok_iff.mp h
  obtain ⟨rest, hrest, hnot⟩ := Grammar.eq_cons_of_mem_media hletters
  have hgletters : (gs.map DocumentField.media).map (·.letter) = 'm' :: rest :=
    List.map_map.trans hrest
  have hmap := map_beginsMedia hreads
  rw [hgletters, List.map_cons] at hmap
  obtain ⟨w, ws, hw, hbegins, hothers⟩ := List.map_eq_cons_iff.mp hmap
  refine ⟨w, ws, hw, hbegins, fun u hu => ?_⟩
  obtain ⟨c, hc, hcu⟩ := List.mem_map.mp (hothers ▸ List.mem_map_of_mem hu)
  rw [← hcu, beq_eq_false_iff_ne]
  exact fun he => hnot (he ▸ hc)

namespace Session

/-- A medium that stands behind a text is the last piece that is cut off. -/
theorem cutAtMedia_append {a b : Text} (ha : a.getLast? = some '\n')
    (hb : MediaSection.ofText b = .ok m) :
    cutAtMedia (a ++ b) = ((cutAtMedia a).1, (cutAtMedia a).2 ++ [b]) := by
  obtain ⟨w, ws, hw, hbegins, hothers⟩ := MediaSection.whole_of_ofText hb
  rw [cutAtMedia, Line.whole_append ha, hw, cutBefore_append hbegins hothers, List.map_append,
    List.map_singleton, ← hw, Line.flatten_whole]
  rfl

/-- A medium behind the text of a session is a medium of the session. -/
theorem ofText_append {a b : Text} (ha : ofText a = .ok s) (hlast : a.getLast? = some '\n')
    (hb : MediaSection.ofText b = .ok m) :
    ofText (a ++ b) = .ok { s with media := s.media ++ [m] } := by
  obtain ⟨hane, hs⟩ := ofText_eq_ok_iff.mp ha
  obtain ⟨hbne, hm⟩ := MediaSection.ofText_eq_ok_iff.mp hb
  rw [ofText_eq_ok_iff, Line.texts_append hlast, List.mem_append, not_or]
  exact ⟨⟨hane, hbne⟩, hs.append hm⟩

/-- The text of a session has no medium to cut at, or ends with the text of a
medium. -/
theorem exists_append_of_ofText (h : ofText t = .ok s) :
    (cutAtMedia t = (t, []) ∧ s.media = [])
      ∨ ∃ a b s' m, t = a ++ b ∧ a.getLast? = some '\n' ∧ ofText a = .ok s'
        ∧ MediaSection.ofText b = .ok m ∧ s = { s' with media := s'.media ++ [m] } := by
  obtain ⟨hne, hs⟩ := ofText_eq_ok_iff.mp h
  rcases hs.split with ⟨fs, hreads, hnot, hmedia⟩ | ⟨ts, us, s', m, htexts, hs', hm, rfl⟩
  · have hothers : ∀ w ∈ Line.whole t, beginsMedia w = false := by
      intro w hw
      obtain ⟨c, hc, hcw⟩ := List.mem_map.mp (map_beginsMedia hreads ▸ List.mem_map_of_mem hw)
      rw [← hcw, beq_eq_false_iff_ne]
      exact fun he => hnot (he ▸ hc)
    refine .inl ⟨?_, hmedia⟩
    rw [cutAtMedia, cutBefore_of_forall hothers, Line.flatten_whole]
    rfl
  · obtain ⟨a, b, rfl, hlast, rfl, rfl⟩ := Line.exists_append_of_texts hs'.ne_nil hm.ne_nil htexts
    rw [htexts, List.mem_append, not_or] at hne
    exact .inr ⟨a, b, s', m, rfl, hlast, ofText_eq_ok_iff.mpr ⟨hne.1, hs'⟩,
      MediaSection.ofText_eq_ok_iff.mpr ⟨hne.2, hm⟩, rfl⟩

/-- The text of a session is cut into that of the session without media and
those of its media. -/
theorem ofText_cutAtMedia (h : ofText t = .ok s) :
    ofText (cutAtMedia t).1 = .ok { s with media := [] }
      ∧ List.Forall₂ (fun piece m => MediaSection.ofText piece = .ok m) (cutAtMedia t).2
        s.media := by
  induction hn : s.media.length generalizing s t with
  | zero =>
    rcases exists_append_of_ofText h with ⟨hcut, hmedia⟩ | ⟨a, b, s', m, -, -, -, -, rfl⟩
    · rw [hcut, hmedia, ← hmedia]
      exact ⟨h, hmedia ▸ .nil⟩
    · simp at hn
  | succ n ih =>
    rcases exists_append_of_ofText h with ⟨-, hmedia⟩ | ⟨a, b, s', m, rfl, hlast, ha, hb, rfl⟩
    · simp [hmedia] at hn
    · obtain ⟨hhead, hpieces⟩ := ih ha (by simpa using hn)
      rw [cutAtMedia_append hlast hb]
      exact ⟨hhead, List.rel_append hpieces (.cons hb .nil)⟩

/-- Documents are composed of sections.  A document that ends with a line feed
and a medium make a document, with the medium added to the media and nothing
else changed.  And a document cut in front of the lines that begin its media is
a head and pieces: the head is the document without media, and the pieces are
its media. -/
theorem ofText_composed :
    (∀ a b s m, ofText a = .ok s → a.getLast? = some '\n' → MediaSection.ofText b = .ok m →
      ofText (a ++ b) = .ok { s with media := s.media ++ [m] })
    ∧ ∀ t s, ofText t = .ok s →
      (cutAtMedia t).1 ++ (cutAtMedia t).2.flatten = t
        ∧ ofText (cutAtMedia t).1 = .ok { s with media := [] }
        ∧ List.Forall₂ (fun piece m => MediaSection.ofText piece = .ok m) (cutAtMedia t).2
          s.media :=
  ⟨fun _ _ _ _ ha hlast hb => ofText_append ha hlast hb,
    fun t _ h => ⟨flatten_cutAtMedia t, ofText_cutAtMedia h⟩⟩

/-- The text of a session with a medium. -/
def voiceOnly : Text :=
  "v=0\r\no=- 1 1 IN IP4 x\r\ns=-\r\nt=0 0\r\na=ice-lite\r\nm=audio 9 RTP/AVP 0\r\n".toList
    ++ "a=mid:0\r\n".toList

/-- The text of a medium, which breaks off before the end of its last line. -/
def pictureOnly : Text := "m=video 9 RTP/AVP 96\r\nc=IN IP4 y\r\na=mid:1".toList

theorem ofText_composed_sample : ∃ s m,
    ofText voiceOnly = .ok s ∧ MediaSection.ofText pictureOnly = .ok m
    ∧ ofText (voiceOnly ++ pictureOnly) = .ok { s with media := s.media ++ [m] }
    ∧ ofText (cutAtMedia (voiceOnly ++ pictureOnly)).1 = .ok { s with media := [] }
    ∧ List.Forall₂ (fun piece m => MediaSection.ofText piece = .ok m)
      (cutAtMedia (voiceOnly ++ pictureOnly)).2 (s.media ++ [m]) := by
  obtain ⟨s, hs, -⟩ := exists_ok_of_any (x := ofText voiceOnly) (P := fun _ => True)
    (by decide +kernel)
  obtain ⟨m, hm, -⟩ := exists_ok_of_any (x := MediaSection.ofText pictureOnly)
    (P := fun _ => True) (by decide +kernel)
  have hboth := ofText_composed.1 voiceOnly pictureOnly s m hs (by decide +kernel) hm
  obtain ⟨-, hhead, hpieces⟩ := ofText_composed.2 _ _ hboth
  exact ⟨s, m, hs, hm, hboth, hhead, hpieces⟩

end Session

end OfferAnswer
