/-
OfferAnswer/Document/Order.lean

The order of lines.  Every section has slots, each with a letter; lines fill
the slots from left to right, and some slots take any number of lines.

A section inside the session ends at the first line that it does not admit.
That line is then the session's to admit or refuse, and its refusal names the
reason.
-/

namespace OfferAnswer

/-- The slots of a section: their letters, and whether they take many lines. -/
structure Shape where
  slots : List (Char × Bool)

namespace Shape

/-- Whether and where a line with a letter may stand. -/
inductive Admission where
  | notFirst (wanted : Char)
  | unknown
  | misplaced
  | slot (i : Nat)
  deriving DecidableEq

/-- Whether a line with a letter may follow one in the slot `last`.  Without a
line before it, it stands in the first slot. -/
def place (s : Shape) (last : Option Nat) (letter : Char) : Admission :=
  match last with
  | none =>
    match s.slots with
    | (first, _) :: _ => if letter = first then .slot 0 else .notFirst first
    | [] => .unknown
  | some last =>
    match s.slots.findIdx? fun slot => slot.1 = letter with
    | none => .unknown
    | some i =>
      if i < last then .misplaced
      -- A slot for a single line is closed once it is filled.
      else if i = last ∧ !(s.slots[i]?.any (·.2)) then .misplaced
      else .slot i

/-- A time section: active time, repetitions, zone. -/
def time : Shape := ⟨[('t', false), ('r', true), ('z', false)]⟩

/-- A media section: medium, title, connection, bandwidths, key, attributes. -/
def media : Shape :=
  ⟨[('m', false), ('i', false), ('c', false), ('b', true), ('k', false), ('a', true)]⟩

/-- A session; its slots t and m take whole sections. -/
def session : Shape :=
  ⟨[('v', false), ('o', false), ('s', false), ('i', false), ('u', false), ('e', false),
    ('p', false), ('c', false), ('b', true), ('t', true), ('k', false), ('a', true),
    ('m', true)]⟩

end Shape

/-- The section that owns a line. -/
inductive Owner where
  | session
  | time
  | media
  deriving DecidableEq

/-- Where reading stands in a document: the slot of the session that was filled
last, and the section inside it that is open, with its own slot. -/
structure Position where
  slot : Option Nat
  inner : Option (Owner × Nat)
  deriving DecidableEq

namespace Position

/-- Before the first line. -/
def start : Position := ⟨none, none⟩

/-- The slots of a section. -/
def shapeOf : Owner → Shape
  | .session => .session
  | .time => .time
  | .media => .media

/-- The owner of a section that a line of the session opens. -/
def opened : Char → Option Owner
  | 't' => some .time
  | 'm' => some .media
  | _ => none

/-- Let the session admit a line. -/
def nextInSession (p : Position) (letter : Char) :
    Except Shape.Admission (Position × Owner) :=
  match Shape.session.place p.slot letter with
  | .slot i =>
    match opened letter with
    | some owner => .ok (⟨some i, some (owner, 0)⟩, owner)
    | none => .ok (⟨some i, none⟩, .session)
  | refusal => .error refusal

/-- Where reading stands after a line with a letter, and who owns the line. -/
def next (p : Position) (letter : Char) : Except Shape.Admission (Position × Owner) :=
  match p.inner with
  | some (owner, last) =>
    match (shapeOf owner).place (some last) letter with
    | .slot i => .ok (⟨p.slot, some (owner, i)⟩, owner)
    | _ => p.nextInSession letter
  | none => p.nextInSession letter

end Position

end OfferAnswer
