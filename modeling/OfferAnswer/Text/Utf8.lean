/-
OfferAnswer/Text/Utf8.lean

Strict UTF-8, one byte at a time.

The reader keeps what it still owes to the character that has begun: how many
bytes, and between which bounds the next one lies.  The bounds of the second
byte shut out overlong forms, surrogates and codes past U+10FFFF, so that
every character that comes to its end is a valid one.  A fault is charged to
the first byte of the character that it breaks.
-/
import OfferAnswer.Text.Basic

namespace OfferAnswer.Text.Utf8

/-- What rules a byte sequence out. -/
inductive Reason where
  | startByte
  | continuationByte
  | endOfData
  deriving DecidableEq

def Reason.message : Reason → String
  | .startByte => "invalid start byte"
  | .continuationByte => "invalid continuation byte"
  | .endOfData => "unexpected end of data"

/-- A fault at the byte with this offset. -/
structure Fault where
  offset : Nat
  reason : Reason
  deriving DecidableEq

/-- A character that has begun at `start`: `more` bytes follow the next one,
which lies from `low` to `high`; `code` holds the bits so far. -/
structure Pending where
  start : Nat
  more : Nat
  low : Nat
  high : Nat
  code : Nat

/-- The character that a first byte above U+007F begins. -/
def begin? (start b : Nat) : Option Pending :=
  if 0xC2 ≤ b ∧ b ≤ 0xDF then some ⟨start, 0, 0x80, 0xBF, b - 0xC0⟩
  else if b = 0xE0 then some ⟨start, 1, 0xA0, 0xBF, 0⟩
  else if b = 0xED then some ⟨start, 1, 0x80, 0x9F, 0xD⟩
  else if 0xE1 ≤ b ∧ b ≤ 0xEF then some ⟨start, 1, 0x80, 0xBF, b - 0xE0⟩
  else if b = 0xF0 then some ⟨start, 2, 0x90, 0xBF, 0⟩
  else if b = 0xF4 then some ⟨start, 2, 0x80, 0x8F, 4⟩
  else if 0xF1 ≤ b ∧ b ≤ 0xF3 then some ⟨start, 2, 0x80, 0xBF, b - 0xF0⟩
  else none

/-- Read on from `offset`, inside a character or between two. -/
def decodeFrom (offset : Nat) : Option Pending → List UInt8 → Except Fault Text
  | none, [] => .ok []
  | some p, [] => .error ⟨p.start, .endOfData⟩
  | none, b :: rest =>
    if b < 0x80 then
      (Char.ofNat b.toNat :: ·) <$> decodeFrom (offset + 1) none rest
    else
      match begin? offset b.toNat with
      | some p => decodeFrom (offset + 1) (some p) rest
      | none => .error ⟨offset, .startByte⟩
  | some p, b :: rest =>
    if p.low ≤ b.toNat ∧ b.toNat ≤ p.high then
      -- Only the first continuation byte has bounds of its own.
      let code := p.code * 64 + b.toNat % 64
      match p.more with
      | 0 => (Char.ofNat code :: ·) <$> decodeFrom (offset + 1) none rest
      | more + 1 => decodeFrom (offset + 1) (some ⟨p.start, more, 0x80, 0xBF, code⟩) rest
    else .error ⟨p.start, .continuationByte⟩

/-- The text that the bytes stand for. -/
def decode (bytes : List UInt8) : Except Fault Text := decodeFrom 0 none bytes

/-- The bytes of one character. -/
def encodeChar (c : Char) : List UInt8 :=
  let n := c.toNat
  let lead (mark unit : Nat) : UInt8 := UInt8.ofNat (mark + n / unit)
  let tail (unit : Nat) : UInt8 := UInt8.ofNat (0x80 + n / unit % 0x40)
  if n < 0x80 then [UInt8.ofNat n]
  else if n < 0x800 then [lead 0xC0 0x40, tail 1]
  else if n < 0x10000 then [lead 0xE0 0x1000, tail 0x40, tail 1]
  else [lead 0xF0 0x40000, tail 0x1000, tail 0x40, tail 1]

/-- The bytes of a text. -/
def encode (t : Text) : List UInt8 := t.flatMap encodeChar

example : (decode (encode "aé€😀".toList)).toOption = some "aé€😀".toList := by
  decide +kernel

end OfferAnswer.Text.Utf8
