/-
OfferAnswer/Attribute/Source.lean

Attributes of the sources and streams inside a medium: what is said of one
source, groups of sources, identified streams, their simulcast, and the media
stream that the medium belongs to.
-/
import OfferAnswer.Attribute.Codec
import OfferAnswer.OrderedMap

namespace OfferAnswer

open Attribute

/-! ### Sources -/

/-- One attribute of a source, with or without a value. -/
structure SourceAttribute where
  source : Int
  name : Text
  value : Option Text
  deriving BEq

namespace SourceAttribute

def read (raw : Text) : Except CodecFault SourceAttribute := do
  match ← wordsUpTo 2 2 raw with
  | [source, described] =>
    let (name, value) := Text.cut ':' described
    return { source := ← integer (.upTo max32) source, name, value }
  | _ => throw (.shape (.fewWords 2 raw))

def text (a : SourceAttribute) : Text :=
  Decimal.text a.source ++ ' ' :: a.name
    ++ match a.value with
      | some value => ':' :: value
      | none => []

end SourceAttribute

/-- A group of sources, of which there is one at least. -/
structure SourceGroup where
  meaning : Token SourceGroupMeaning
  sources : List Int
  ne_nil : sources ≠ []

instance : BEq SourceGroup where
  beq g g' := g.meaning == g'.meaning && g.sources == g'.sources

namespace SourceGroup

def read (raw : Text) : Except CodecFault SourceGroup := do
  match ← wordsOf 2 raw with
  | meaning :: first :: rest =>
    return {
      meaning := Token.ofText meaning
      sources := (← integer (.upTo max32) first) :: (← rest.mapM (integer (.upTo max32)))
      ne_nil := List.cons_ne_nil _ _ }
  | _ => throw (.shape (.fewWords 2 raw))

def text (g : SourceGroup) : Text :=
  Text.unwords (g.meaning.text :: g.sources.map Decimal.text)

end SourceGroup

/-! ### Identified streams -/

/-- A stream with an identifier and a direction, and any restrictions. -/
structure StreamId where
  id : Text
  direction : StreamDirection
  restrictions : Option Text
  deriving BEq

namespace StreamId

def read (raw : Text) : Except CodecFault StreamId := do
  match ← wordsUpTo 2 3 raw with
  | id :: direction :: more =>
    return { id, direction := ← word direction, restrictions := more.head? }
  | _ => throw (.shape (.fewWords 2 raw))

def text (s : StreamId) : Text :=
  Text.unwords ([s.id, Vocabulary.spelling s.direction] ++ s.restrictions.toList)

end StreamId

/-- The simulcast streams in each direction, each as its alternatives. -/
structure Simulcast where
  streams : OrderedMap StreamDirection (List (List Text))
  deriving BEq

namespace Simulcast

/-- Enter the streams of one direction, which occurs once. -/
def add (streams : OrderedMap StreamDirection (List (List Text))) (direction listed : Text) :
    Except CodecFault (OrderedMap StreamDirection (List (List Text))) := do
  let direction ← word direction
  if streams.contains direction then throw (.shape (.repeatedDirection direction))
  return streams.insert direction ((listed.splitOn ';').map (·.splitOn ','))

def read (raw : Text) : Except CodecFault Simulcast := do
  match ← wordsOf 2 raw with
  | [d, s] => return ⟨← add .empty d s⟩
  | [d₁, s₁, d₂, s₂] => return ⟨← add (← add .empty d₁ s₁) d₂ s₂⟩
  | _ => throw (.shape (.simulcast raw))

def text (s : Simulcast) : Text :=
  Text.unwords <| s.streams.entries.map fun (direction, streams) =>
    Vocabulary.spelling direction ++ ' ' ::
      [';'].intercalate (streams.map fun alternatives => [','].intercalate alternatives)

/-- The streams in one direction. -/
def inDirection (s : Simulcast) (d : StreamDirection) : List (List Text) :=
  (s.streams.get? d).getD []

end Simulcast

/-! ### Media streams -/

/-- The media stream of a medium, and the track in it. -/
structure MediaStream where
  stream : Text
  track : Option Text
  deriving BEq

namespace MediaStream

def read (raw : Text) : Except CodecFault MediaStream := do
  match ← wordsUpTo 1 2 raw with
  | stream :: more => return { stream, track := more.head? }
  | [] => throw (.shape (.fewWords 1 raw))

def text (m : MediaStream) : Text :=
  Text.unwords (m.stream :: m.track.toList)

end MediaStream

end OfferAnswer
