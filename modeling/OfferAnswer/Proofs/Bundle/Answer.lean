/-
OfferAnswer/Proofs/Bundle/Answer.lean

What an answer has of the bundle that it answers.

An answer turns every direction round: what one end sends the other receives,
of a medium (`MediaDirection.Faces`) as of each stream (`Encoding.Turned`).
Bandwidths and sources are not answered, and the transport is new.  Everything
else stays, medium by medium and in order.  So the answer to an answer has the
media that were offered, but for what no answer has (`answer_isAnswerTo`).
-/
import Mathlib.Algebra.Ring.Int.Defs
import Mathlib.Data.List.Forall2
import OfferAnswer.Bundle.Answer

namespace OfferAnswer

/-! ### Directions -/

namespace MediaDirection

/-- Whether the end that states a direction sends. -/
def sends : MediaDirection → Bool
  | sendOnly | sendRecv => true
  | recvOnly | inactive => false

/-- Whether the end that states a direction receives. -/
def receives : MediaDirection → Bool
  | recvOnly | sendRecv => true
  | sendOnly | inactive => false

/-- Two ends face each other if each sends just what the other receives. -/
def Faces (d d' : MediaDirection) : Prop := d.sends = d'.receives ∧ d.receives = d'.sends

theorem faces_reverse (d : MediaDirection) : d.reverse.Faces d := by
  cases d <;> exact ⟨rfl, rfl⟩

end MediaDirection

/-! ### Encodings -/

namespace Encoding

/-- The same stream in the other direction. -/
inductive Turned : Encoding → Encoding → Prop
  | mk {id : Text} {d d' : StreamDirection} (h : d ≠ d') : Turned (.stream id d) (.stream id d')

/-- Streams are turned round one by one, and nothing else is answered. -/
theorem forall₂_turned (es : List Encoding) :
    List.Forall₂ Turned (es.filterMap answer?) (es.filter isStream) := by
  induction es with
  | nil => exact .nil
  | cons e es ih =>
    cases e with
    | stream id d =>
      have hturned : Turned (.stream id d.reverse) (.stream id d) := by
        apply Turned.mk
        cases d <;> decide
      exact .cons hturned ih
    | source cname s r => exact ih

/-- Turned round twice, streams are as they were. -/
theorem filterMap_answer?_twice (es : List Encoding) :
    (es.filterMap answer?).filterMap answer? = es.filter isStream := by
  induction es with
  | nil => rfl
  | cons e es ih =>
    cases e with
    | stream id d =>
      show Encoding.stream id d.reverse.reverse :: (es.filterMap answer?).filterMap answer? = _
      rw [ih, StreamDirection.reverse_reverse]
      rfl
    | source cname s r => exact ih

end Encoding

/-! ### Media -/

namespace RtpMedia

/-- A medium that answers another faces it, has its streams turned round and no
bandwidths.  Everything else is as it was: the kind, the protocol, the
identifier, the port, the payloads, the extensions and the flags. -/
structure IsAnswerTo (a m : RtpMedia) : Prop where
  direction : a.direction.Faces m.direction
  encodings : List.Forall₂ Encoding.Turned a.encodings (m.encodings.filter Encoding.isStream)
  bandwidths : a.bandwidths.entries = []
  others : { a with
    direction := m.direction
    encodings := m.encodings
    bandwidths := m.bandwidths } = m

theorem isAnswerTo_answer (m : RtpMedia) : m.answer.IsAnswerTo m where
  direction := m.direction.faces_reverse
  encodings := Encoding.forall₂_turned m.encodings
  bandwidths := rfl
  others := rfl

/-- What is left of a medium when no bandwidths and no sources are. -/
def answerable (m : RtpMedia) : RtpMedia :=
  { m with
    bandwidths := .empty
    encodings := m.encodings.filter Encoding.isStream }

theorem answer_answer (m : RtpMedia) : m.answer.answer = m.answerable := by
  simp only [answer, answerable, MediaDirection.reverse_reverse,
    Encoding.filterMap_answer?_twice]

end RtpMedia

/-! ### Bundles -/

namespace Bundle

/-- A bundle that answers another in a role: its media answer those of the
other, and of the rest it has only whether extension maps may be mixed. -/
structure IsAnswerTo (a : Bundle) (role : SetupRole) (b : Bundle) : Prop where
  media : List.Forall₂ RtpMedia.IsAnswerTo a.media b.media
  mixedExtensions : a.mixedExtensions = b.mixedExtensions
  role : a.role = role
  version : a.version = 1
  iceLite : a.iceLite = false
  iceOptions : a.iceOptions = []
  candidates : a.candidates = []
  certificates : a.certificates = []

/-- A text of some length, of letters and digits only. -/
structure IsToken (length : Nat) (t : Text) : Prop where
  length : t.length = length
  alphanumeric : ∀ c ∈ t, c.isAlphanum = true

/-- A bundle with an identifier and credentials as they are drawn. -/
structure IsDrawn (a : Bundle) : Prop where
  id_nonneg : 0 ≤ a.id
  id_lt : a.id < 2 ^ 63 - 1
  iceUser : IsToken 8 a.iceUser
  icePassword : IsToken 24 a.icePassword

theorem isToken_drawn (length : Nat) (e : Entropy) :
    IsToken length (Draw.token Draw.alphanumeric length e).1 where
  length := Draw.length_token (by decide) length e
  alphanumeric := by
    have halphabet : ∀ c ∈ Draw.alphanumeric, c.isAlphanum = true :=
      List.all_eq_true.mp (by decide)
    intro c hc
    exact halphabet c (Draw.mem_of_mem_token hc)

theorem isDrawn_answering (b : Bundle) (role : SetupRole) (e : Entropy) :
    (b.answering role (drawCredentials e).1).IsDrawn where
  id_nonneg := Int.natCast_nonneg _
  id_lt := by
    have hlt : (drawCredentials e).1.id < idBound := Nat.mod_lt _ (by decide)
    show ((drawCredentials e).1.id : Int) < 2 ^ 63 - 1
    have hbound : (idBound : Int) = 2 ^ 63 - 1 := by decide
    omega
  iceUser := isToken_drawn 8 _
  icePassword := isToken_drawn 24 _

theorem isAnswerTo_answering (b : Bundle) (role : SetupRole) (c : Credentials) :
    (b.answering role c).IsAnswerTo role b where
  media := List.forall₂_map_left_iff.mpr
    (List.forall₂_same.mpr fun m _ => m.isAnswerTo_answer)
  mixedExtensions := rfl
  role := rfl
  version := rfl
  iceLite := rfl
  iceOptions := rfl
  candidates := rfl
  certificates := rfl

/-- In a role that is asked for there is an answer, whatever is drawn for it,
and what is drawn is as it should be.  The answer to this answer has the media
of the first bundle again, without bandwidths and without sources. -/
theorem answer_isAnswerTo (b : Bundle) (role role' : SetupRole) (e e' : Entropy) :
    ∃ a a', (b.answer (some role) e).1 = .ok a ∧ a.IsAnswerTo role b ∧ a.IsDrawn
      ∧ (a.answer (some role') e').1 = .ok a' ∧ a'.media = b.media.map RtpMedia.answerable := by
  refine ⟨b.answering role (drawCredentials e).1,
    (b.answering role (drawCredentials e).1).answering role' (drawCredentials e').1,
    rfl, b.isAnswerTo_answering role _, b.isDrawn_answering role e, rfl, ?_⟩
  show (b.media.map RtpMedia.answer).map RtpMedia.answer = _
  rw [List.map_map]
  apply List.map_congr_left
  intro m _
  exact m.answer_answer

end Bundle

end OfferAnswer
