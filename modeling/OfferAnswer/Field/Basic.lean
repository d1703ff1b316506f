/-
OfferAnswer/Field/Basic.lean

Fields: single lines of a description, each a letter, an equals sign and a
value.  This module has what the fields of sessions, media and times share:
the faults of their readers, and the fields that occur in more than one place.
-/
import OfferAnswer.Attribute.List

namespace OfferAnswer

namespace Field

/-- Why a line is no field. -/
inductive Fault where
  | malformed (line : Text)
  | unknownLetter (letter : Char)
  | wordCount (count : Nat) (raw : Text)
  | bandwidth (raw : Text)
  | emptyName
  | version (raw : Text)
  | media (raw : Text)
  | repeats (raw : Text)
  | zone (raw : Text)
  | time (raw : Text)
  | attr (fault : Attribute.Fault)
  | value (letter : Char) (fault : ValueFault)

def Fault.message : Fault → String
  | malformed line => "Invalid SDP line " ++ Text.quoted line
  | unknownLetter letter => "Unknown SDP field type " ++ Text.toString [letter]
  | wordCount count raw =>
    "Expected " ++ Decimal.toString count ++ " space-separated values, got: " ++ Text.quoted raw
  | bandwidth raw => "Invalid bandwidth " ++ Text.quoted raw
  | emptyName => "Empty session name"
  | version raw => "Unsupported SDP version " ++ raw.toString
  | media raw => "Media field needs media, port, proto and formats: " ++ raw.toString
  | repeats raw => "Repeat field needs interval, duration and offsets: " ++ raw.toString
  | zone raw => "Time zone field needs adjustment time and offset pairs: " ++ raw.toString
  | time raw => "Invalid time string \"" ++ raw.toString ++ "\""
  | attr fault => fault.message
  | value letter fault => "Invalid " ++ Text.toString [letter] ++ "= field: " ++ fault.message

/-! ### Taking a line apart -/

/-- The letter and the value of a line. -/
def split? : Text → Option (Char × Text)
  | letter :: '=' :: value => if letter = '=' then none else some (letter, value)
  | _ => none

/-- The line of a letter and a value. -/
def line (letter : Char) (value : Text) : Text := letter :: '=' :: value

theorem split?_eq_some_iff {t value : Text} {letter : Char} :
    split? t = some (letter, value) ↔ t = line letter value ∧ letter ≠ '=' := by
  constructor
  · intro h
    unfold split? at h
    split at h
    · split at h
      · simp at h
      · next hne =>
        simp only [Option.some.injEq, Prod.mk.injEq] at h
        obtain ⟨rfl, rfl⟩ := h
        exact ⟨rfl, hne⟩
    · simp at h
  · rintro ⟨rfl, hne⟩
    simp [split?, line, hne]

/-- The field that a line stands for, by the reader of its section. -/
def ofLine {φ : Type} (read : Char → Text → Except Fault φ) (t : Text) : Except Fault φ :=
  match split? t with
  | some (letter, value) => read letter value
  | none => .error (.malformed t)

/-- The words of a value, exactly `count` and none empty. -/
def exactly (count : Nat) (raw : Text) : Except Fault (List Text) :=
  let ws := Text.words raw
  if ws.length ≠ count ∨ ws.contains [] then .error (.wordCount count raw) else .ok ws

/-- An integer within bounds, on the line with a letter. -/
def integer (letter : Char) (b : Decimal.Bounds) (t : Text) : Except Fault Int :=
  (Decimal.read b t).mapError fun fault => .value letter (.number fault)

/-- A word of a closed vocabulary, on the line with a letter. -/
def word {κ : Type} [Vocabulary κ] (letter : Char) (t : Text) : Except Fault κ :=
  (Vocabulary.ofText t).mapError fun fault => .value letter (.token fault)

end Field

open OfferAnswer.Field

/-! ### Connections -/

/-- The address that media are sent to, with any multicast suffixes. -/
structure Connection where
  network : Network
  family : AddressFamily
  address : Text
  deriving BEq

namespace Connection

def read (raw : Text) : Except Fault Connection := do
  match ← exactly 3 raw with
  | [network, family, address] =>
    return { network := ← word 'c' network, family := ← word 'c' family, address }
  | _ => throw (.wordCount 3 raw)

def text (c : Connection) : Text :=
  Text.unwords [Vocabulary.spelling c.network, Vocabulary.spelling c.family, c.address]

end Connection

/-! ### Bandwidths -/

/-- A limit on bandwidth, and what it limits. -/
structure Bandwidth where
  kind : Token BandwidthKind
  amount : Int
  deriving BEq

namespace Bandwidth

def read (raw : Text) : Except Fault Bandwidth :=
  match Text.cut ':' raw with
  | ([], _) | (_, none) => .error (.bandwidth raw)
  | (kind, some amount) => do
    return { kind := Token.ofText kind, amount := ← integer 'b' .natural amount }

def text (b : Bandwidth) : Text := b.kind.text ++ ':' :: Decimal.text b.amount

end Bandwidth

/-- The bandwidths of a section, one for each kind. -/
abbrev Bandwidths := OrderedMap (Token BandwidthKind) Bandwidth

namespace Bandwidths

/-- Enter a bandwidth under its kind. -/
def put (bs : Bandwidths) (b : Bandwidth) : Bandwidths := bs.insert b.kind b

/-- The amounts by kind. -/
def amounts (bs : Bandwidths) : OrderedMap (Token BandwidthKind) Int :=
  bs.map fun _ b => b.amount

end Bandwidths

/-! ### Encryption keys -/

/-- A way to obtain an encryption key, and the key or where to find it. -/
structure EncryptionKey where
  method : Text
  key : Option Text
  deriving BEq

namespace EncryptionKey

def ofText (raw : Text) : EncryptionKey :=
  let (method, key) := Text.cut ':' raw
  { method, key }

def text (k : EncryptionKey) : Text := Attribute.nameValueText k.method k.key

end EncryptionKey

end OfferAnswer
