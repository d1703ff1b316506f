/-
OfferAnswer/Vocabulary.lean

Vocabularies of registered tokens.

A registered token is found without regard to case, and then written in its
registered spelling.  A closed vocabulary refuses every other token; an open
one keeps it as it is, and compares it, like the registered ones, by its
lower-case form.
-/
import OfferAnswer.Text.Case
import OfferAnswer.Value

namespace OfferAnswer

/-- A vocabulary: its title in messages, its words in order, and the
registered spelling of each, unmistakable even in lower case. -/
class Vocabulary (κ : Type) where
  title : String
  members : List κ
  spelling : κ → Text
  complete : ∀ k, k ∈ members
  spelling_inj : ∀ a ∈ members, ∀ b ∈ members,
    Text.lower (spelling a) = Text.lower (spelling b) → a = b

namespace Vocabulary

variable {κ : Type} [Vocabulary κ]

/-- Why there is no such word. -/
inductive Fault where
  /-- The value is no word of the closed vocabulary. -/
  | unregistered (value : Value) (title : String)
  /-- The closed vocabulary has no unregistered words. -/
  | closed (title : String)

def Fault.message : Fault → String
  | .unregistered value title => value.display ++ " is not a valid " ++ title
  | .closed title => title ++ " does not allow unknown values"

/-- The word with this spelling, in any case. -/
def find? (t : Text) : Option κ :=
  (members (κ := κ)).find? fun k => Text.sameLower (spelling k) t

/-- The word with this spelling, in a closed vocabulary. -/
def ofText (t : Text) : Except Fault κ :=
  match find? t with
  | some k => .ok k
  | none => .error (.unregistered (.text t) (title κ))

/-- The word for a value of any kind, in a closed vocabulary. -/
def ofValue : Value → Except Fault κ
  | .text t => ofText t
  | v => .error (.unregistered v (title κ))

/-- The word that is found spells the text in some case. -/
theorem lower_spelling_of_find? {t : Text} {k : κ} (h : find? t = some k) :
    Text.lower (spelling k) = Text.lower t :=
  Text.sameLower_iff.mp (List.find?_some (p := fun k => Text.sameLower (spelling k) t) h)

/-- A text finds the word that it spells in some case, and no other. -/
theorem find?_eq_some_iff {t : Text} {k : κ} :
    find? t = some k ↔ Text.lower (spelling k) = Text.lower t := by
  refine ⟨lower_spelling_of_find?, fun h => ?_⟩
  rcases hf : find? (κ := κ) t with - | k'
  · exact absurd (Text.sameLower_iff.mpr h) (List.find?_eq_none.mp hf k (complete k))
  · rw [spelling_inj k' (complete k') k (complete k)
      ((lower_spelling_of_find? hf).trans h.symm)]

/-- A registered spelling finds its word. -/
theorem find?_spelling (k : κ) : find? (spelling k) = some k :=
  find?_eq_some_iff.mpr rfl

end Vocabulary

/-- A word of an open vocabulary: registered, or any other text. -/
inductive Token (κ : Type) where
  | known (word : κ)
  | other (text : Text)

namespace Token

variable {κ : Type} [Vocabulary κ]

/-- The registered spelling, or the text as it is. -/
def text : Token κ → Text
  | known k => Vocabulary.spelling k
  | other t => t

/-- The token that a text stands for. -/
def ofText (t : Text) : Token κ :=
  match Vocabulary.find? t with
  | some k => known k
  | none => other t

/-- The token for a value of any kind. -/
def ofValue : Value → Except Vocabulary.Fault (Token κ)
  | .text t => .ok (ofText t)
  | v => .error (.unregistered v (Vocabulary.title κ))

def isKnown : Token κ → Bool
  | known _ => true
  | other _ => false

/-- Tokens are compared by their lower-case texts, registered or not. -/
instance : BEq (Token κ) where
  beq a b := Text.sameLower a.text b.text

theorem beq_iff {a b : Token κ} :
    (a == b) = true ↔ Text.lower a.text = Text.lower b.text :=
  Text.sameLower_iff

instance : EquivBEq (Token κ) where
  rfl := beq_iff.mpr rfl
  symm h := beq_iff.mpr (beq_iff.mp h).symm
  trans h₁ h₂ := beq_iff.mpr ((beq_iff.mp h₁).trans (beq_iff.mp h₂))

/-- The hash of the lower-case text, so that equal tokens have equal hashes. -/
instance : Hashable (Token κ) where
  hash t := hash (String.ofList (Text.lower t.text))

instance : LawfulHashable (Token κ) where
  hash_eq a b h := by
    change hash (String.ofList (Text.lower a.text)) = hash (String.ofList (Text.lower b.text))
    rw [beq_iff.mp h]

end Token

end OfferAnswer
