/-
OfferAnswer/Proofs/LineEnding.lean

Lines and what stands behind them.

A text is its lines with their endings, and in one way only
(`existsUnique_joined`): a line feed ends a line, a carriage return in front of
it is a part of the ending and never of the line, and the ending can be absent
behind the last line, which is not empty then.  So the lines do not depend on
which endings they have (`ofText_joined_congr`), and whether there is an empty
one among them decides if the text has lines at all (`ofText_eq_ok_iff`,
`ofText_eq_error_iff`).

Bytes have the lines of the text that they encode.  Where they encode none, the
first byte at which no character begins tells the line.
-/
import OfferAnswer.Proofs.Document.Cut
import OfferAnswer.Proofs.Document.Located
import OfferAnswer.Proofs.Utf8

namespace OfferAnswer.Line

open Outcome

/-- What stands behind a line. -/
inductive Ending where
  | feed
  | returnFeed
  | absent
  deriving DecidableEq

def Ending.text : Ending → Text
  | .feed => ['\n']
  | .returnFeed => ['\r', '\n']
  | .absent => []

/-- The text of lines with their endings. -/
def joined (ps : List (Text × Ending)) : Text := ps.flatMap fun p => p.1 ++ p.2.text

/-- Only the last line goes without an ending, and is not empty then. -/
structure AreEnded (ps : List (Text × Ending)) : Prop where
  front : ∀ p ∈ ps.dropLast, p.2 ≠ .absent
  last : ∀ p ∈ ps, p.2 = .absent → p.1 ≠ []

/-- Lines with their endings: no ending begins earlier than it is said to. -/
structure AreLines (ps : List (Text × Ending)) : Prop extends AreEnded ps where
  noFeed : ∀ p ∈ ps, '\n' ∉ p.1
  noReturn : ∀ p ∈ ps, p.2 = .feed → p.1.getLast? ≠ some '\r'

variable {p : Text × Ending} {ps qs : List (Text × Ending)} {x t : Text} {ts : List Text}
  {ls : List Line} {f : Fault} {n : Nat} {bytes : List UInt8}

/-! ### One line more -/

theorem areEnded_cons_iff :
    AreEnded (p :: ps) ↔ (p.2 = .absent → p.1 ≠ [] ∧ ps = []) ∧ AreEnded ps := by
  cases ps with
  | nil =>
    constructor
    · exact fun h => ⟨fun hp => ⟨h.last p List.mem_cons_self hp, rfl⟩, by simp, by simp⟩
    · exact fun h => ⟨by simp, by simpa using fun hp => (h.1 hp).1⟩
  | cons q qs =>
    constructor
    · intro h
      have hfront := h.front
      rw [List.dropLast_cons_cons, List.forall_mem_cons] at hfront
      have hlast := List.forall_mem_cons.mp h.last
      exact ⟨fun hp => absurd hp hfront.1, hfront.2, hlast.2⟩
    · rintro ⟨hp, hqs⟩
      have hne : p.2 ≠ .absent := fun he => List.cons_ne_nil q qs (hp he).2
      refine ⟨?_, List.forall_mem_cons.mpr ⟨fun he => absurd he hne, hqs.last⟩⟩
      rw [List.dropLast_cons_cons, List.forall_mem_cons]
      exact ⟨hne, hqs.front⟩

theorem areLines_nil : AreLines [] := ⟨⟨by simp, by simp⟩, by simp, by simp⟩

theorem areLines_cons_iff : AreLines (p :: ps) ↔ (p.2 = .absent → p.1 ≠ [] ∧ ps = [])
    ∧ '\n' ∉ p.1 ∧ (p.2 = .feed → p.1.getLast? ≠ some '\r') ∧ AreLines ps := by
  constructor
  · intro h
    obtain ⟨hp, hps⟩ := areEnded_cons_iff.mp h.toAreEnded
    obtain ⟨hfeed, hfeeds⟩ := List.forall_mem_cons.mp h.noFeed
    obtain ⟨hreturn, hreturns⟩ := List.forall_mem_cons.mp h.noReturn
    exact ⟨hp, hfeed, hreturn, hps, hfeeds, hreturns⟩
  · rintro ⟨hp, hfeed, hreturn, hps⟩
    exact ⟨areEnded_cons_iff.mpr ⟨hp, hps.toAreEnded⟩, List.forall_mem_cons.mpr ⟨hfeed, hps.noFeed⟩,
      List.forall_mem_cons.mpr ⟨hreturn, hps.noReturn⟩⟩

/-! ### Texts and their lines -/

theorem joined_cons (x : Text) (e : Ending) (ps : List (Text × Ending)) :
    joined ((x, e) :: ps) = x ++ (e.text ++ joined ps) := List.append_assoc _ _ _

theorem dropReturn_eq_self (h : x.getLast? ≠ some '\r') : dropReturn x = x := if_neg h

theorem texts_line (h : '\n' ∉ x) (t : Text) :
    texts (x ++ '\n' :: t) = dropReturn x :: texts t := by
  rw [texts_eq_linesWith, texts_eq_linesWith, linesWith_line h]

theorem texts_of_not_mem (h : '\n' ∉ t) : texts t = if t = [] then [] else [t] := by
  rw [texts_eq_linesWith, linesWith_of_not_mem h]

/-- The lines are those that were joined. -/
theorem texts_joined (h : AreLines ps) : texts (joined ps) = ps.map Prod.fst := by
  induction ps with
  | nil => rfl
  | cons p ps ih =>
    obtain ⟨x, e⟩ := p
    obtain ⟨hlast, hfeed, hreturn, hps⟩ := areLines_cons_iff.mp h
    rw [List.map_cons, ← ih hps]
    cases e with
    | feed =>
      have hjoined : joined ((x, .feed) :: ps) = x ++ '\n' :: joined ps := joined_cons x .feed ps
      rw [hjoined, texts_line hfeed, dropReturn_eq_self (hreturn rfl)]
    | returnFeed =>
      have hjoined : joined ((x, .returnFeed) :: ps) = (x ++ ['\r']) ++ '\n' :: joined ps := by
        rw [joined_cons, List.append_assoc]
        rfl
      rw [hjoined, texts_line (by simpa using hfeed), dropReturn_concat]
    | absent =>
      obtain ⟨hne, rfl⟩ := hlast rfl
      have hjoined : joined [(x, .absent)] = x := by simp [joined, Ending.text]
      rw [hjoined, texts_of_not_mem hfeed, if_neg hne]
      rfl

/-- Every text is made of lines with their endings. -/
theorem exists_joined (t : Text) : ∃ ps, AreLines ps ∧ joined ps = t := by
  induction t using Text.rec_lines with
  | last t h =>
    rcases eq_or_ne t [] with rfl | hne
    · exact ⟨[], areLines_nil, rfl⟩
    · have hline : AreLines [(t, .absent)] :=
        areLines_cons_iff.mpr ⟨fun _ => ⟨hne, rfl⟩, h, nofun, areLines_nil⟩
      exact ⟨_, hline, by simp [joined, Ending.text]⟩
  | line x t hx ih =>
    obtain ⟨ps, hps, rfl⟩ := ih
    by_cases hreturn : x.getLast? = some '\r'
    · -- The carriage return belongs to the ending.
      obtain ⟨y, rfl⟩ := List.getLast?_eq_some_iff.mp hreturn
      have hy : '\n' ∉ y := fun hm => hx (List.mem_append_left _ hm)
      refine ⟨(y, .returnFeed) :: ps, areLines_cons_iff.mpr ⟨nofun, hy, nofun, hps⟩, ?_⟩
      simp [joined, Ending.text]
    · refine ⟨(x, .feed) :: ps, areLines_cons_iff.mpr ⟨nofun, hx, fun _ => hreturn, hps⟩, ?_⟩
      simp [joined, Ending.text]

/-- A text is made of lines with their endings in one way only. -/
theorem eq_of_joined_eq (hps : AreLines ps) (hqs : AreLines qs) (h : joined ps = joined qs) :
    ps = qs := by
  have hfst : ps.map Prod.fst = qs.map Prod.fst := by rw [← texts_joined hps, h, texts_joined hqs]
  induction ps generalizing qs with
  | nil => exact (List.map_eq_nil_iff.mp hfst.symm).symm
  | cons p ps ih =>
    obtain ⟨q, qs, rfl⟩ := List.exists_cons_of_ne_nil (l := qs) (by rintro rfl; simp at hfst)
    obtain ⟨x, e⟩ := p
    obtain ⟨y, d⟩ := q
    obtain ⟨rfl, hrest⟩ := List.cons.inj hfst
    obtain ⟨hp, -, -, hps'⟩ := areLines_cons_iff.mp hps
    obtain ⟨hq, -, -, hqs'⟩ := areLines_cons_iff.mp hqs
    rw [joined_cons, joined_cons] at h
    have htail : e.text ++ joined ps = d.text ++ joined qs := List.append_cancel_left h
    have hending : e = d ∧ joined ps = joined qs := by
      cases e <;> cases d <;> simp_all [Ending.text, joined]
    obtain ⟨rfl, hjoined⟩ := hending
    rw [ih hps' hqs' hjoined hrest]

/-! ### Numbers -/

/-- A text has lines if it is made of lines that are not empty, and then these
are its lines, numbered from one. -/
theorem ofText_eq_ok_iff : ofText t = .ok ls ↔ ∃ ps, AreLines ps ∧ (∀ p ∈ ps, p.1 ≠ [])
    ∧ joined ps = t ∧ ls.map text = ps.map Prod.fst
    ∧ ls.map number = List.range' 1 ps.length := by
  have hne : ∀ {ps : List (Text × Ending)}, [] ∉ ps.map Prod.fst ↔ ∀ p ∈ ps, p.1 ≠ [] := by
    grind
  show numberFrom 1 (texts t) = _ ↔ _
  rw [numberFrom_eq_ok_iff, eq_numbered_iff]
  constructor
  · rintro ⟨hempty, htext, hnumber⟩
    obtain ⟨ps, hps, rfl⟩ := exists_joined t
    rw [texts_joined hps] at hempty htext hnumber
    rw [List.length_map] at hnumber
    exact ⟨ps, hps, hne.mp hempty, rfl, htext, hnumber⟩
  · rintro ⟨ps, hps, hempty, rfl, htext, hnumber⟩
    rw [texts_joined hps, List.length_map]
    exact ⟨hne.mpr hempty, htext, hnumber⟩

theorem map_number_of_ofText (h : ofText t = .ok ls) :
    ls.map number = List.range' 1 ls.length := by
  obtain ⟨ps, -, -, -, htext, hnumber⟩ := ofText_eq_ok_iff.mp h
  have hlength : ls.length = ps.length := by simpa using congrArg List.length htext
  rw [hnumber, hlength]

/-- Otherwise the first empty line is at fault. -/
theorem ofText_eq_error_iff : ofText t = .error f ↔ ∃ ps, AreLines ps ∧ joined ps = t
    ∧ [] ∈ ps.map Prod.fst ∧ f = .empty ((ps.map Prod.fst).idxOf [] + 1) := by
  show numberFrom 1 (texts t) = _ ↔ _
  rw [numberFrom_eq_error_iff, Nat.add_comm 1]
  constructor
  · rintro ⟨hempty, hf⟩
    obtain ⟨ps, hps, rfl⟩ := exists_joined t
    rw [texts_joined hps] at hempty hf
    exact ⟨ps, hps, rfl, hempty, hf⟩
  · rintro ⟨ps, hps, rfl, hempty, hf⟩
    rw [texts_joined hps]
    exact ⟨hempty, hf⟩

/-- What ends the lines makes no difference. -/
theorem ofText_joined_congr (hps : AreLines ps) (hqs : AreLines qs)
    (h : ps.map Prod.fst = qs.map Prod.fst) : ofText (joined ps) = ofText (joined qs) := by
  show numberFrom 1 (texts (joined ps)) = numberFrom 1 (texts (joined qs))
  rw [texts_joined hps, texts_joined hqs, h]

/-- Lines that no carriage return ends can have any endings. -/
theorem AreEnded.areLines (h : AreEnded ps)
    (hps : ∀ x ∈ ps.map Prod.fst, '\n' ∉ x ∧ x.getLast? ≠ some '\r') : AreLines ps :=
  ⟨h, fun _ hp => (hps _ (List.mem_map_of_mem hp)).1,
    fun _ hp _ => (hps _ (List.mem_map_of_mem hp)).2⟩

/-! ### Bytes -/

theorem ofBytes_encode (t : Text) : ofBytes (Text.Utf8.encode t) = ofText t := by
  rw [ofBytes, Text.Utf8.decode_encode]

theorem ofBytes_of_failsAt {k : Nat} (h : Text.Utf8.FailsAt bytes k) :
    ∃ reason, ofBytes bytes = .error (.encoding ((bytes.take k).count 10 + 1) reason) := by
  obtain ⟨reason, hreason⟩ := Text.Utf8.decode_of_failsAt h
  exact ⟨reason, by rw [ofBytes, hreason]⟩

/-- A text is split into lines at its line endings and nowhere else: it has the
lines that it is made of, unless one of them is empty, and which endings they
have makes no difference.  Bytes that encode a text have its lines, and others
are refused on the line of the first byte that is at fault. -/
theorem splits_exactly :
    (∀ t ls, ofText t = .ok ls ↔ ∃ ps, AreLines ps ∧ (∀ p ∈ ps, p.1 ≠ []) ∧ joined ps = t
      ∧ ls.map text = ps.map Prod.fst ∧ ls.map number = List.range' 1 ps.length)
    ∧ (∀ t f, ofText t = .error f ↔ ∃ ps, AreLines ps ∧ joined ps = t
      ∧ [] ∈ ps.map Prod.fst ∧ f = .empty ((ps.map Prod.fst).idxOf [] + 1))
    ∧ (∀ t, ∃! ps, AreLines ps ∧ joined ps = t)
    ∧ (∀ ps qs, AreEnded ps → AreEnded qs → ps.map Prod.fst = qs.map Prod.fst →
      (∀ x ∈ ps.map Prod.fst, '\n' ∉ x ∧ x.getLast? ≠ some '\r') →
      ofText (joined ps) = ofText (joined qs))
    ∧ (∀ t, ofBytes (Text.Utf8.encode t) = ofText t)
    ∧ (∀ bytes, (∀ t, bytes ≠ Text.Utf8.encode t) → ∃ k reason, Text.Utf8.FailsAt bytes k
      ∧ ofBytes bytes = .error (.encoding ((bytes.take k).count 10 + 1) reason)) := by
  refine ⟨fun t ls => ofText_eq_ok_iff, fun t f => ofText_eq_error_iff, fun t => ?_,
    fun ps qs hps hqs hlines hplain => ?_, ofBytes_encode, fun bytes hbytes => ?_⟩
  · obtain ⟨ps, hps, ht⟩ := exists_joined t
    exact ⟨ps, ⟨hps, ht⟩, fun qs hqs => eq_of_joined_eq hqs.1 hps (hqs.2.trans ht.symm)⟩
  · exact ofText_joined_congr (hps.areLines hplain) (hqs.areLines (hlines ▸ hplain)) hlines
  · rcases Text.Utf8.exists_encode_or_failsAt bytes with ⟨t, ht⟩ | ⟨k, hk⟩
    · exact absurd ht (hbytes t)
    · obtain ⟨reason, hreason⟩ := ofBytes_of_failsAt hk
      exact ⟨k, reason, hk, hreason⟩

/-- The last ending can be left out, and a byte at fault is told from the
others. -/
theorem splits_exactly_sample :
    ofText (joined [("v=0".toList, .returnFeed), ("s=-".toList, .absent)])
      = ofText (joined [("v=0".toList, .feed), ("s=-".toList, .feed)])
    ∧ ∃ k reason, Text.Utf8.FailsAt [118, 10, 255] k ∧ ofBytes [118, 10, 255]
      = .error (.encoding ((([118, 10, 255] : List UInt8).take k).count 10 + 1) reason) := by
  obtain ⟨-, -, -, hendings, -, hbytes⟩ := splits_exactly
  constructor
  · exact hendings _ _ ⟨by decide, by decide⟩ ⟨by decide, by decide⟩ rfl (by decide)
  · refine hbytes _ fun t ht => ?_
    have hdecode := Text.Utf8.decode_encode t
    rw [← ht] at hdecode
    exact absurd hdecode nofun

end OfferAnswer.Line
