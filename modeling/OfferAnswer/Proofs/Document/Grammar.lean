/-
OfferAnswer/Proofs/Document/Grammar.lean

The grammar of a document over the letters of its lines: a regular expression
for each kind of document, and the section that owns each line.

A session must have an origin, a name and a time.  The order of lines alone
does not ask for them, they are counted at the end; `mem_session_iff` says that
counting letters is enough.
-/
import OfferAnswer.Document.Order
import Mathlib.Computability.RegularExpressions

namespace OfferAnswer

open scoped Computability
open RegularExpression (char star)

/-! ### Grammars -/

namespace Grammar

/-- At most one of what an expression stands for. -/
def optional (P : RegularExpression Char) : RegularExpression Char := 1 + P

/-- The lines of a time section. -/
def time : RegularExpression Char := char 't' * star (char 'r') * optional (char 'z')

/-- The lines of a media section. -/
def media : RegularExpression Char :=
  char 'm' * optional (char 'i') * optional (char 'c') * star (char 'b') * optional (char 'k')
    * star (char 'a')

/-- The lines of a session, given what stands in the places for its origin, its
name and its times. -/
def sessionWith (origin name times : RegularExpression Char) : RegularExpression Char :=
  char 'v' * origin * name * optional (char 'i') * optional (char 'u') * optional (char 'e')
    * optional (char 'p') * optional (char 'c') * star (char 'b') * times * optional (char 'k')
    * star (char 'a') * star media

/-- The lines of a session. -/
def session : RegularExpression Char := sessionWith (char 'o') (char 's') (time * star time)

/-- The lines of a document of a kind. -/
def ofKind : Owner → RegularExpression Char
  | .session => session
  | .time => time
  | .media => media

/-- Who owns a line with a letter, after a line of some owner. -/
def owner (before : Owner) (letter : Char) : Owner :=
  if letter = 'm' ∨ before = .media then .media
  else if letter = 't' ∨ (before = .time ∧ (letter = 'r' ∨ letter = 'z')) then .time
  else .session

/-- The owners of lines with some letters. -/
def owners (before : Owner) : List Char → List Owner
  | [] => []
  | c :: cs => owner before c :: owners (owner before c) cs

/-! ### Letters of a grammar -/

/-- The letters that occur in an expression. -/
def letters : RegularExpression Char → List Char
  | .zero | .epsilon => []
  | .char c => [c]
  | .plus P Q | .comp P Q => letters P ++ letters Q
  | .star P => letters P

theorem mem_letters {P : RegularExpression Char} {w : List Char} {c : Char}
    (hw : w ∈ P.matches') (hc : c ∈ w) : c ∈ letters P := by
  induction P generalizing w with
  | zero => exact absurd hw (Language.notMem_zero w)
  | epsilon =>
    obtain rfl : w = [] := hw
    exact absurd hc List.not_mem_nil
  | char d =>
    obtain rfl : w = [d] := hw
    exact hc
  | plus P Q ihP ihQ =>
    rcases hw with hw | hw
    · exact List.mem_append_left _ (ihP hw hc)
    · exact List.mem_append_right _ (ihQ hw hc)
  | comp P Q ihP ihQ =>
    obtain ⟨a, ha, b, hb, rfl⟩ := hw
    rcases List.mem_append.mp hc with hc | hc
    · exact List.mem_append_left _ (ihP ha hc)
    · exact List.mem_append_right _ (ihQ hb hc)
  | star P ih =>
    obtain ⟨L, rfl, hL⟩ := hw
    obtain ⟨a, ha, hc⟩ := List.mem_flatten.mp hc
    exact ih (hL a ha) hc

/-- What may be missing is there, if a letter is that occurs nowhere else. -/
theorem mem_mul_optional_iff {A X B : RegularExpression Char} {w : List Char} {c : Char}
    (hA : c ∉ letters A) (hB : c ∉ letters B) (hX : ∀ x ∈ X.matches', c ∈ x) :
    w ∈ (A * X * B).matches' ↔ w ∈ (A * optional X * B).matches' ∧ c ∈ w := by
  constructor
  · rintro ⟨_, ⟨a, ha, x, hx, rfl⟩, b, hb, rfl⟩
    refine ⟨⟨a ++ x, ⟨a, ha, x, .inr hx, rfl⟩, b, hb, rfl⟩, ?_⟩
    exact List.mem_append_left _ (List.mem_append_right _ (hX x hx))
  · rintro ⟨⟨_, ⟨a, ha, x, hx | hx, rfl⟩, b, hb, rfl⟩, hc⟩
    · obtain rfl : x = [] := hx
      have hc : c ∈ a ++ [] ++ b := hc
      rw [List.append_nil, List.mem_append] at hc
      exact hc.elim (fun hc => absurd (mem_letters ha hc) hA)
        fun hc => absurd (mem_letters hb hc) hB
    · exact ⟨a ++ x, ⟨a, ha, x, hx, rfl⟩, b, hb, rfl⟩

/-! ### Required parts -/

/-- The lines of a session between its name and its times. -/
def beforeTimes : RegularExpression Char :=
  optional (char 'i') * optional (char 'u') * optional (char 'e') * optional (char 'p')
    * optional (char 'c') * star (char 'b')

/-- The lines of a session after its times. -/
def afterTimes : RegularExpression Char := optional (char 'k') * star (char 'a') * star media

theorem matches'_sessionWith (O S T : RegularExpression Char) :
    (sessionWith O S T).matches' = {['v']} * (O.matches' * (S.matches'
      * (beforeTimes.matches' * (T.matches' * afterTimes.matches')))) := by
  simp only [sessionWith, beforeTimes, afterTimes, RegularExpression.matches'_mul,
    RegularExpression.matches'_char, mul_assoc]

/-- Some times are at most one or more times. -/
theorem matches'_star_time :
    (star time).matches' = (optional (time * star time)).matches' :=
  (Language.one_add_self_mul_kstar_eq_kstar time.matches').symm

theorem mem_time_of_mem {x : List Char} (h : x ∈ time.matches') : 't' ∈ x := by
  obtain ⟨_, ⟨a, ha, b, -, rfl⟩, z, -, rfl⟩ := h
  obtain rfl : a = ['t'] := ha
  simp

/-- A session is a sequence of lines in order that has all required parts. -/
theorem mem_session_iff {w : List Char} :
    w ∈ session.matches' ↔
      w ∈ (sessionWith (optional (char 'o')) (optional (char 's')) (star time)).matches'
        ∧ 'o' ∈ w ∧ 's' ∈ w ∧ 't' ∈ w := by
  have hone : ∀ c : Char, ∀ x ∈ (char c).matches', c ∈ x := fun c x hx => by
    obtain rfl : x = [c] := hx
    simp
  have htimes : ∀ x ∈ (time * star time).matches', 't' ∈ x := by
    rintro _ ⟨a, ha, b, -, rfl⟩
    exact List.mem_append_left _ (mem_time_of_mem ha)
  -- One part after the other is allowed to be missing, the times first.
  have ht := mem_mul_optional_iff (w := w) (c := 't')
    (A := char 'v' * char 'o' * char 's' * beforeTimes)
    (X := time * star time) (B := afterTimes) (by decide) (by decide) htimes
  have hs := mem_mul_optional_iff (w := w) (c := 's') (A := char 'v' * char 'o') (X := char 's')
    (B := beforeTimes * star time * afterTimes) (by decide) (by decide) (hone 's')
  have ho := mem_mul_optional_iff (w := w) (c := 'o') (A := char 'v') (X := char 'o')
    (B := optional (char 's') * beforeTimes * star time * afterTimes) (by decide) (by decide)
    (hone 'o')
  simp only [RegularExpression.matches'_mul, ← matches'_star_time,
    RegularExpression.matches'_char, mul_assoc] at ht hs ho
  rw [session, matches'_sessionWith, matches'_sessionWith]
  simp only [RegularExpression.matches'_mul, RegularExpression.matches'_char, mul_assoc]
  rw [ht, hs, ho, and_assoc, and_assoc]

end Grammar

end OfferAnswer
