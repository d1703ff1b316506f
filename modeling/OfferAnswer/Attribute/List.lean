/-
OfferAnswer/Attribute/List.lean

The attributes of a session or a medium, in order.

An attribute is found by its name in any case.  Several attributes of one name
stay side by side.
-/
import OfferAnswer.Attribute.Basic

namespace OfferAnswer

/-- Attributes in order. -/
abbrev AttributeList := List Attribute

namespace AttributeList

/-! ### Looking up -/

/-- The attributes of a name. -/
def named (as : AttributeList) (name : Text) : List Attribute :=
  as.filter fun a => Text.sameLower a.name name

/-- Whether there is an attribute of a name. -/
def has (as : AttributeList) (name : Text) : Bool :=
  as.any fun a => Text.sameLower a.name name

/-- Whether there is an attribute under the name of a registered kind. -/
def hasKind (as : AttributeList) (k : Attribute.Kind) : Bool :=
  as.has (Vocabulary.spelling k)

/-- The attributes of a registered kind. -/
def ofKind (as : AttributeList) (k : Attribute.Kind) : List Attribute :=
  (as.named (Vocabulary.spelling k)).filter fun a => a.kind? = some k

/-! ### Changing -/

/-- Read an attribute and add it at the end. -/
def appendText (as : AttributeList) (name : Text) (value : Option Text) :
    Except Attribute.Fault AttributeList :=
  (as ++ [·]) <$> Attribute.ofNameValue name value

/-- The attributes of other names. -/
def without (as : AttributeList) (name : Text) : AttributeList :=
  as.filter fun a => !Text.sameLower a.name name

/-! ### Writing -/

/-- The end of a written line. -/
def lineEnd : Text := ['\r', '\n']

end AttributeList

end OfferAnswer
