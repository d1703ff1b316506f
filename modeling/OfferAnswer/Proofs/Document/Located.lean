/-
OfferAnswer/Proofs/Document/Located.lean

Where documents are refused.

Lines are judged from the first one on, and the first that fails decides.  So
an error that names a line is settled by the lines up to that one: without it
nothing is wrong with a line, and with it the error is the same whatever
follows (`readLines_eq_error`).  Errors that name no line still have a number,
at most one past the last line.
-/
import OfferAnswer.Proofs.Document.Sound
import OfferAnswer.Proofs.LineCount

namespace OfferAnswer

open Outcome Document

/-! ### Numbered lines -/

namespace Line

variable {n k : Nat} {t : Text} {ts : List Text} {ls : List Line} {f : Fault}

/-- The lines numbered from `n`, whether or not they are empty. -/
def numbered (n : Nat) : List Text → List Line
  | [] => []
  | t :: rest => ⟨n, t⟩ :: numbered (n + 1) rest

theorem getElem?_numbered : (numbered n ts)[k]? = ts[k]?.map (⟨n + k, ·⟩) := by
  induction ts generalizing n k with
  | nil => rfl
  | cons t ts ih =>
    cases k with
    | zero => rfl
    | succ k =>
      rw [numbered, List.getElem?_cons_succ, List.getElem?_cons_succ, ih, Nat.add_right_comm]
      rfl

theorem numbered_take : numbered n (ts.take k) = (numbered n ts).take k := by
  induction ts generalizing n k with
  | nil => simp [numbered]
  | cons t ts ih =>
    cases k with
    | zero => rfl
    | succ k => rw [List.take_succ_cons, numbered, numbered, List.take_succ_cons, ih]

theorem numberFrom_eq_ok (h : [] ∉ ts) : numberFrom n ts = .ok (numbered n ts) := by
  induction ts generalizing n with
  | nil => rfl
  | cons t ts ih =>
    rw [List.mem_cons, not_or] at h
    rw [numberFrom, if_neg (Ne.symm h.1), ih h.2]
    rfl

theorem numberFrom_eq_ok_iff : numberFrom n ts = .ok ls ↔ [] ∉ ts ∧ ls = numbered n ts := by
  constructor
  · intro h
    have hts := (map_text_of_numberFrom h).2
    exact ⟨hts, Except.ok.inj (h.symm.trans (numberFrom_eq_ok hts))⟩
  · rintro ⟨hts, rfl⟩
    exact numberFrom_eq_ok hts

/-- Lines are numbered up to an empty one. -/
theorem numberFrom_eq_error_iff :
    numberFrom n ts = .error f ↔ [] ∈ ts ∧ f = .empty (n + ts.idxOf []) := by
  induction ts generalizing n with
  | nil => simp [numberFrom]
  | cons t ts ih =>
    rw [numberFrom]
    split
    · next ht =>
      subst ht
      simp [eq_comm]
    · next ht =>
      rw [map_eq_error, ih, List.idxOf_cons_ne _ ht, List.mem_cons, or_iff_right (Ne.symm ht),
        Nat.succ_eq_add_one, Nat.add_right_comm, Nat.add_assoc]

theorem eq_numbered_iff :
    ls = numbered n ts ↔ ls.map text = ts ∧ ls.map number = List.range' n ts.length := by
  induction ts generalizing n ls with
  | nil => simp [numbered]
  | cons t ts ih =>
    cases ls with
    | nil => simp [numbered]
    | cons l ls =>
      obtain ⟨k, u⟩ := l
      simp only [numbered, List.cons.injEq, ih, List.map_cons, List.length_cons, List.range'_succ,
        Line.mk.injEq]
      tauto

theorem ofText_eq_ok (h : [] ∉ texts t) : ofText t = .ok (numbered 1 (texts t)) :=
  numberFrom_eq_ok h

end Line

namespace Document

variable {p : Position} {l : Line} {ls : List Line} {e : Error} {fs : List NumberedField}

/-! ### The first line that fails -/

/-- What is wrong with a line is said of that line. -/
theorem readLine_eq_error (h : readLine p l = .error e) : ∃ fault, e = .onLine l fault := by
  unfold readLine at h
  rcases bind_eq_error.mp h with h | ⟨⟨c, v⟩, -, h⟩
  · unfold splitLine at h
    split at h
    · simp at h
    · exact ⟨_, (Except.error.inj h).symm⟩
  · rcases bind_eq_error.mp h with h | ⟨⟨p', o⟩, -, h⟩
    · obtain ⟨r, -, rfl⟩ := mapError_eq_error.mp h
      exact ⟨_, rfl⟩
    · rcases bind_eq_error.mp h with h | ⟨f, -, h⟩
      · obtain ⟨r, -, rfl⟩ := mapError_eq_error.mp h
        exact ⟨_, rfl⟩
      · simp at h

/-- The first line that fails decides: what stands before it is read, and what
stands after it has no say. -/
theorem readLines_eq_error (h : readLines p ls = .error e) :
    ∃ k l fault, ls[k]? = some l ∧ e = .onLine l fault
      ∧ (∃ fs, readLines p (ls.take k) = .ok fs)
      ∧ ∀ ls', ls'.take (k + 1) = ls.take (k + 1) → readLines p ls' = .error e := by
  induction ls generalizing p with
  | nil => simp [readLines] at h
  | cons l ls ih =>
    -- Lines that begin alike begin with the same line.
    have hhead : ∀ {k : Nat} {ls' : List Line}, ls'.take (k + 1) = (l :: ls).take (k + 1) →
        ∃ rest, ls' = l :: rest ∧ rest.take k = ls.take k := by
      rintro k (- | ⟨l', rest⟩) hls'
      · simp at hls'
      · obtain ⟨rfl, hrest⟩ := List.cons.inj hls'
        exact ⟨rest, rfl, hrest⟩
    rcases bind_eq_error.mp h with hl | ⟨⟨p', f⟩, hl, h⟩
    · obtain ⟨fault, rfl⟩ := readLine_eq_error hl
      refine ⟨0, l, fault, rfl, rfl, ⟨[], rfl⟩, fun ls' hls' => ?_⟩
      obtain ⟨rest, rfl, -⟩ := hhead hls'
      exact bind_eq_error.mpr (.inl hl)
    · have hrest : readLines p' ls = .error e := by
        rcases bind_eq_error.mp h with h | ⟨fs, -, h⟩
        · exact h
        · simp at h
      obtain ⟨k, l', fault, hk, he, ⟨fs, hfs⟩, hafter⟩ := ih hrest
      refine ⟨k + 1, l', fault, hk, he, ⟨⟨l.number, f⟩ :: fs, ?_⟩, fun ls' hls' => ?_⟩
      · rw [List.take_succ_cons]
        exact bind_eq_ok.mpr ⟨_, hl, bind_eq_ok.mpr ⟨fs, hfs, rfl⟩⟩
      · obtain ⟨rest, rfl, hrest⟩ := hhead hls'
        exact bind_eq_error.mpr (.inr ⟨_, hl, bind_eq_error.mpr (.inl (hafter rest hrest))⟩)

/-- Fields have the numbers of their lines. -/
theorem map_number_of_readLines (h : readLines p ls = .ok fs) :
    fs.map NumberedField.number = ls.map Line.number := by
  induction ls generalizing p fs with
  | nil =>
    obtain rfl := Except.ok.inj h
    rfl
  | cons l ls ih =>
    obtain ⟨⟨p', f⟩, -, htail⟩ := bind_eq_ok.mp h
    obtain ⟨rest, hrest, hfs⟩ := bind_eq_ok.mp htail
    obtain rfl := pure_eq_ok.mp hfs
    rw [List.map_cons, List.map_cons, ih hrest]

theorem lastOwnNumber_le_of_forall {n : Nat} (h : ∀ f ∈ fs, f.number ≤ n) :
    lastOwnNumber fs ≤ n := by
  unfold lastOwnNumber
  cases hlast : (fs.filter fun f => isOwnLine f.field).getLast? with
  | none => exact Nat.zero_le n
  | some f => exact h f (List.mem_filter.mp (List.mem_of_getLast? hlast)).1

/-- The last line that the session looked at is one of the lines. -/
theorem lastOwnNumber_le {n : Nat} (h : readLines p ls = .ok fs) (hls : ∀ l ∈ ls, l.number ≤ n) :
    lastOwnNumber fs ≤ n := by
  refine lastOwnNumber_le_of_forall ?_
  rw [← List.forall_mem_map (P := (· ≤ n)), map_number_of_readLines h, List.forall_mem_map]
  exact hls

end Document

namespace Session

variable {t t' : Text} {ls : List Line} {e : Error} {n k : Nat}

/-- A session is refused for one of its lines, or else without naming a line
and at most one past the last line. -/
theorem ofLines_eq_error (h : ofLines ls = .error e) (hls : ∀ l ∈ ls, l.number ≤ n) :
    readLines .start ls = .error e
      ∨ e.line = none ∧ ∃ m, e.number = some m ∧ 1 ≤ m ∧ m ≤ n + 1 := by
  unfold ofLines at h
  split at h
  · obtain rfl := (Except.error.inj h).symm
    exact .inr ⟨rfl, 1, rfl, Nat.le_refl 1, Nat.le_add_left 1 n⟩
  · rcases bind_eq_error.mp h with h | ⟨fs, hfs, h⟩
    · exact .inl h
    · obtain ⟨fault, -, rfl⟩ := mapError_eq_error.mp h
      refine .inr ⟨rfl, _, rfl, Nat.le_add_left 1 _, ?_⟩
      exact Nat.succ_le_succ (lastOwnNumber_le hfs hls)

theorem number_le_of_mem_numbered {l : Line} (h : l ∈ Line.numbered 1 (Line.texts t)) :
    1 ≤ l.number ∧ l.number ≤ (Line.texts t).length := by
  obtain ⟨k, hk⟩ := List.mem_iff_getElem?.mp h
  rw [Line.getElem?_numbered] at hk
  obtain ⟨u, hu, rfl⟩ := Option.map_eq_some_iff.mp hk
  obtain ⟨hlt, -⟩ := List.getElem?_eq_some_iff.mp hu
  exact ⟨Nat.le_add_right 1 k, by show 1 + k ≤ _; omega⟩

theorem ofText_eq (h : [] ∉ Line.texts t) :
    ofText t = ofLines (Line.numbered 1 (Line.texts t)) := by
  rw [ofText, Line.ofText_eq_ok h]
  rfl

/-! ### Errors that name a line -/

/-- An error at the line with the index `k` that is decided by the lines up to
that one. -/
structure LocatedAt (t : Text) (e : Error) (k : Nat) : Prop where
  number : e.number = some (k + 1)
  line : (Line.texts t)[k]? = e.line
  /-- With the lines before it alone, no line is wrong. -/
  before : ∀ t', [] ∉ Line.texts t' → Line.texts t' = (Line.texts t).take k →
    ∀ e', ofText t' = .error e' → e'.line = none
  /-- Whatever follows, the error is the same. -/
  after : ∀ t', [] ∉ Line.texts t' → (Line.texts t').take (k + 1) = (Line.texts t).take (k + 1) →
    ofText t' = .error e

theorem exists_locatedAt (ht : [] ∉ Line.texts t) (h : ofText t = .error e) (hl : e.line ≠ none) :
    ∃ k, LocatedAt t e k := by
  rw [ofText_eq ht] at h
  rcases ofLines_eq_error h fun l hl => (number_le_of_mem_numbered hl).2 with h | ⟨hnone, -⟩
  · obtain ⟨k, l, fault, hk, rfl, ⟨fs, hfs⟩, hafter⟩ := readLines_eq_error h
    rw [Line.getElem?_numbered] at hk
    obtain ⟨u, hu, rfl⟩ := Option.map_eq_some_iff.mp hk
    refine ⟨k, by rw [Nat.add_comm]; rfl, hu, fun t' ht' htake e' he' => ?_, fun t' ht' htake => ?_⟩
    · rw [ofText_eq ht', htake, Line.numbered_take] at he'
      rcases ofLines_eq_error (n := (Line.texts t).length) he' fun l hl =>
        (number_le_of_mem_numbered (List.mem_of_mem_take hl)).2 with he' | ⟨hnone, -⟩
      · rw [hfs] at he'
        simp at he'
      · exact hnone
    · have herror := hafter (Line.numbered 1 (Line.texts t'))
        (by rw [← Line.numbered_take, ← Line.numbered_take, htake])
      have hne : Line.numbered 1 (Line.texts t') ≠ [] := fun he => by
        rw [he] at herror
        simp [readLines] at herror
      rw [ofText_eq ht', ofLines, if_neg hne]
      exact bind_eq_error.mpr (.inl herror)
  · exact absurd hnone hl

/-! ### Numbers of errors -/

theorem exists_number_of_ofText (h : ofText t = .error e) :
    ∃ n, e.number = some n ∧ 1 ≤ n ∧ n ≤ lineCount '\n' t + 1 := by
  rw [← Line.length_texts]
  by_cases ht : [] ∈ Line.texts t
  · -- The lines are not even numbered, for one of them is empty.
    rcases bind_eq_error.mp h with h | ⟨ls, hls, -⟩
    · obtain ⟨f, hf, rfl⟩ := mapError_eq_error.mp h
      obtain ⟨-, rfl⟩ := Line.numberFrom_eq_error_iff.mp hf
      have hk : (Line.texts t).idxOf [] < (Line.texts t).length := List.idxOf_lt_length_of_mem ht
      refine ⟨_, rfl, Nat.le_add_right 1 _, ?_⟩
      exact (Nat.add_comm 1 _).trans_le (Nat.add_le_add_right hk.le 1)
    · exact absurd ht (Line.map_text_of_numberFrom (mapError_eq_ok.mp hls)).2
  · rw [ofText_eq ht] at h
    rcases ofLines_eq_error h fun l hl => (number_le_of_mem_numbered hl).2 with h | ⟨-, h⟩
    · obtain ⟨k, l, fault, hk, rfl, -⟩ := readLines_eq_error h
      obtain ⟨hone, hle⟩ := number_le_of_mem_numbered (List.mem_of_getElem? hk)
      exact ⟨l.number, rfl, hone, Nat.le_succ_of_le hle⟩
    · exact h

theorem exists_number_of_ofBytes {bytes : List UInt8} (h : ofBytes bytes = .error e) :
    ∃ n, e.number = some n ∧ 1 ≤ n ∧ n ≤ lineCount 10 bytes + 1 := by
  cases hdecode : Text.Utf8.decode bytes with
  | ok t =>
    have hlines : Line.ofBytes bytes = Line.ofText t := by rw [Line.ofBytes, hdecode]
    rw [ofBytes, hlines] at h
    rw [Text.Utf8.lineCount_of_decode hdecode]
    exact exists_number_of_ofText h
  | error f =>
    have hlines : Line.ofBytes bytes
        = .error (.encoding ((bytes.take f.offset).count 10 + 1) f.reason) := by
      rw [Line.ofBytes, hdecode]
    rw [ofBytes, hlines] at h
    obtain rfl := (Except.error.inj h).symm
    refine ⟨_, rfl, Nat.le_add_left 1 _, Nat.succ_le_succ ?_⟩
    exact ((List.take_sublist _ _).count_le 10).trans count_le_lineCount

/-- Errors are located, and decided by what stands in front.  An error that
names a line stands for that line and is settled by the lines up to it; and
every text and every byte list stands for a session or has an error with the
number of a line, at most one past the last. -/
theorem errors_located :
    (∀ t e, [] ∉ Line.texts t → ofText t = .error e → e.line ≠ none → ∃ k, LocatedAt t e k)
      ∧ (∀ t, (∃ s, ofText t = .ok s) ∨ ∃ e n, ofText t = .error e ∧ e.number = some n ∧ 1 ≤ n
        ∧ n ≤ lineCount '\n' t + 1)
      ∧ ∀ bytes, (∃ s, ofBytes bytes = .ok s) ∨ ∃ e n, ofBytes bytes = .error e
        ∧ e.number = some n ∧ 1 ≤ n ∧ n ≤ lineCount 10 bytes + 1 := by
  refine ⟨fun t e ht h hl => exists_locatedAt ht h hl, fun t => ?_, fun bytes => ?_⟩
  · cases h : ofText t with
    | ok s => exact .inl ⟨s, rfl⟩
    | error e =>
      obtain ⟨n, hn⟩ := exists_number_of_ofText h
      exact .inr ⟨e, n, rfl, hn⟩
  · cases h : ofBytes bytes with
    | ok s => exact .inl ⟨s, rfl⟩
    | error e =>
      obtain ⟨n, hn⟩ := exists_number_of_ofBytes h
      exact .inr ⟨e, n, rfl, hn⟩

/-- A session whose fifth line is out of order. -/
def disordered : Text := "v=0\r\no=- 0 0 IN IP4 x\r\ns=-\r\nt=0 0\r\ns=x\r\na=y\r\n".toList

theorem errors_located_disordered : ∃ e, ofText disordered = .error e
    ∧ e.line = some "s=x".toList ∧ e.number = some 5 ∧ ∃ k, LocatedAt disordered e k :=
  ⟨_, rfl, rfl, rfl, errors_located.1 disordered _ (by decide) rfl (by simp [Error.onLine])⟩

end Session

end OfferAnswer
