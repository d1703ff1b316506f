/-
OfferAnswer/Vocabulary/Catalog.lean

All vocabularies under their titles.

A closed vocabulary gives only its registered words as tokens; an open one
gives a token for every text, registered or not.
-/
import OfferAnswer.Vocabulary.Connectivity
import OfferAnswer.Vocabulary.Rtp
import OfferAnswer.Vocabulary.Session

namespace OfferAnswer.Catalog

/-- A token of any vocabulary. -/
structure Word where
  text : Text
  isKnown : Bool

/-- Like tokens, words are compared by their lower-case texts. -/
instance : BEq Word where
  beq a b := Text.sameLower a.text b.text

/-- The hash of the lower-case text, so that equal words have equal hashes. -/
instance : Hashable Word where
  hash w := hash (String.ofList (Text.lower w.text))

/-- A vocabulary: its title, whether it is closed, its registered words, and
the word for a value. -/
structure Entry where
  title : String
  isClosed : Bool
  words : List Text
  word : Value → Except Vocabulary.Fault Word

namespace Entry

/-- A closed vocabulary. -/
def closed (κ : Type) [Vocabulary κ] : Entry where
  title := Vocabulary.title κ
  isClosed := true
  words := (Vocabulary.members (κ := κ)).map Vocabulary.spelling
  word v := (fun k => ⟨Vocabulary.spelling k, true⟩) <$> Vocabulary.ofValue (κ := κ) v

/-- An open vocabulary. -/
def extensible (κ : Type) [Vocabulary κ] : Entry where
  title := Vocabulary.title κ
  isClosed := false
  words := (Vocabulary.members (κ := κ)).map Vocabulary.spelling
  word v := (fun t => ⟨t.text, t.isKnown⟩) <$> Token.ofValue (κ := κ) v

/-- The word for an unregistered text, which only open vocabularies have. -/
def unregistered (e : Entry) (t : Text) : Except Vocabulary.Fault Word :=
  if e.isClosed then .error (.closed e.title) else .ok ⟨t, false⟩

/-- A closed vocabulary gives registered words only. -/
theorem isKnown_of_word_closed {κ : Type} [Vocabulary κ] {v : Value} {w : Word}
    (h : (closed κ).word v = .ok w) : w.isKnown = true := by
  change (fun k => ⟨Vocabulary.spelling k, true⟩) <$> Vocabulary.ofValue (κ := κ) v = .ok w at h
  rcases hv : Vocabulary.ofValue (κ := κ) v with fault | k <;> rw [hv] at h <;> cases h
  rfl

end Entry

def all : List Entry := [
  .closed Network,
  .closed AddressFamily,
  .extensible BandwidthKind,
  .extensible MediaKind,
  .extensible Protocol,
  .extensible GroupMeaning,
  .closed CandidateTransport,
  .extensible CandidateKind,
  .extensible IceOption,
  .closed TcpRole,
  .closed SetupRole,
  .extensible HashFunction,
  .extensible SourceGroupMeaning,
  .closed ExtensionDirection,
  .closed StreamDirection,
  .closed MediaDirection,
  .extensible Codec]

/-- The vocabulary with a title. -/
def find? (title : String) : Option Entry := all.find? fun e => e.title == title

end OfferAnswer.Catalog
