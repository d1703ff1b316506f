/-
OfferAnswer/Attribute/Map.lean

Attributes under their names.

A map keeps its attributes in the order in which they came, each under its
name in lower case, and several under one name side by side.  It is asked by
names in any case, or by registered kinds; for a kind the registered spelling
is looked up as it is.
-/
import OfferAnswer.Attribute.List

namespace OfferAnswer

/-- Attributes in order, each under its name in lower case. -/
structure AttributeMap where
  entries : List (Text × Attribute)
  deriving BEq

namespace AttributeMap

def empty : AttributeMap := ⟨[]⟩

/-- The attributes without what they are kept under. -/
def attributes (m : AttributeMap) : AttributeList := m.entries.map Prod.snd

/-! ### Changing -/

/-- Add an attribute at the end. -/
def append (m : AttributeMap) (a : Attribute) : AttributeMap :=
  ⟨m.entries ++ [(Text.lower a.name, a)]⟩

/-- Add attributes at the end, one by one. -/
def extend (m : AttributeMap) (as : List Attribute) : AttributeMap := as.foldl append m

/-- The map of attributes. -/
def ofList (as : List Attribute) : AttributeMap := empty.extend as

/-- Read an attribute and add it at the end. -/
def appendText (m : AttributeMap) (name : Text) (value : Option Text) :
    Except Attribute.Fault (Attribute × AttributeMap) :=
  (fun a => (a, m.append a)) <$> Attribute.ofNameValue name value

/-- The entries under other names. -/
def without (m : AttributeMap) (name : Text) : AttributeMap :=
  ⟨m.entries.filter fun e => e.1 ≠ Text.lower name⟩

def copy (m : AttributeMap) : AttributeMap := ofList m.attributes

/-- What can be done to a map. -/
inductive Change where
  | appendText (name : Text) (value : Option Text)
  | append (a : Attribute)
  | extend (as : List Attribute)
  | remove (name : Text)

/-- The map after a change, unless the change is refused. -/
def apply (m : AttributeMap) : Change → Except Attribute.Fault AttributeMap
  | .appendText name value => Prod.snd <$> m.appendText name value
  | .append a => .ok (m.append a)
  | .extend as => .ok (m.extend as)
  | .remove name => .ok (m.without name)

/-! ### Looking up -/

/-- The first entry under the spelling of a registered kind, if it is of that
kind. -/
def firstOfKind (m : AttributeMap) (k : Attribute.Kind) : Option Attribute :=
  match m.entries.find? fun e => e.1 = Vocabulary.spelling k with
  | some (_, a) => if a.kind? = some k then some a else none
  | none => none

/-- The entries of a registered kind under its spelling. -/
def ofKind (m : AttributeMap) (k : Attribute.Kind) : List Attribute :=
  (m.entries.filter fun e => e.1 = Vocabulary.spelling k ∧ e.2.kind? = some k).map Prod.snd

/-- The value of the first entry under a name, if there is one. -/
def valueNamed (m : AttributeMap) (name : Text) (otherwise : Option Text) : Option Text :=
  match m.entries.find? fun e => e.1 = Text.lower name with
  | some (_, a) => a.value?
  | none => otherwise

/-- The values of the entries under a name; a flag has none. -/
def valuesNamed (m : AttributeMap) (name : Text) : List (Option Text) :=
  (m.entries.filter fun e => e.1 = Text.lower name).map fun e => e.2.value?

/-- Whether there is an entry under a name. -/
def has (m : AttributeMap) (name : Text) : Bool := m.entries.any fun e => e.1 = Text.lower name

/-! ### Writing -/

/-- The lines of the attributes. -/
def text (m : AttributeMap) : Text :=
  m.entries.flatMap fun e => 'a' :: '=' :: e.2.text ++ AttributeList.lineEnd

end AttributeMap

end OfferAnswer
