/-
OfferAnswer/Proofs/Utf8.lean

Strict UTF-8 decodes what was encoded, and nothing else.

The reader works byte by byte.  What it still owes to a character that has
begun is settled by the bytes that end the character (`Pending.EndsWith`): they
are read as that character, and otherwise the character that has begun is at
fault.  A first byte and the bytes that end what it begins are the encoding of
the character (`encodeChar_of_endsWith`), and every encoding is of this form
(`exists_endsWith_of_encodeChar`).

So bytes are the encoding of a text, which is then decoded, or there is a first
byte at which no character begins, and that byte is at fault
(`exists_encode_or_failsAt`, `decode_of_failsAt`).
-/
import Mathlib.Data.List.Basic
import OfferAnswer.Proofs.Outcome
import OfferAnswer.Text.Utf8

namespace OfferAnswer.Text.Utf8

open Outcome

variable {o k : Nat} {p : Pending} {b : UInt8} {bs bytes rest : List UInt8} {c : Char} {t : Text}

/-! ### What has begun -/

/-- Whether a byte lies between the bounds of the next one. -/
def Pending.Allows (p : Pending) (b : UInt8) : Prop := p.low ≤ b.toNat ∧ b.toNat ≤ p.high

/-- The bits of a character with those of one more byte. -/
def Pending.codeWith (p : Pending) (b : UInt8) : Nat := p.code * 64 + b.toNat % 64

/-- What has begun, one byte later. -/
def Pending.after (p : Pending) (b : UInt8) (more : Nat) : Pending :=
  ⟨p.start, more, 0x80, 0xBF, p.codeWith b⟩

/-- What has begun comes to be a character with some bytes. -/
def Pending.EndsWith (p : Pending) : List UInt8 → Char → Prop
  | [], _ => False
  | b :: bs, c => p.Allows b ∧
    match p.more with
    | 0 => bs = [] ∧ c = Char.ofNat (p.codeWith b)
    | more + 1 => (p.after b more).EndsWith bs c

theorem endsWith_iff_of_more_eq_zero (hmore : p.more = 0) : p.EndsWith bs c ↔
    ∃ b, bs = [b] ∧ p.Allows b ∧ c = Char.ofNat (p.codeWith b) := by
  rcases bs with - | ⟨b, bs⟩
  · simp [Pending.EndsWith]
  · simp only [Pending.EndsWith, hmore, List.cons.injEq]
    constructor
    · rintro ⟨hb, rfl, rfl⟩
      exact ⟨b, ⟨rfl, rfl⟩, hb, rfl⟩
    · rintro ⟨_, ⟨rfl, rfl⟩, hb, rfl⟩
      exact ⟨hb, rfl, rfl⟩

theorem endsWith_iff_of_more_eq_succ {more : Nat} (hmore : p.more = more + 1) :
    p.EndsWith bs c ↔ ∃ b rest, bs = b :: rest ∧ p.Allows b ∧ (p.after b more).EndsWith rest c := by
  rcases bs with - | ⟨b, bs⟩
  · simp [Pending.EndsWith]
  · simp only [Pending.EndsWith, hmore, List.cons.injEq]
    constructor
    · rintro ⟨hb, hbs⟩
      exact ⟨b, bs, ⟨rfl, rfl⟩, hb, hbs⟩
    · rintro ⟨_, _, ⟨rfl, rfl⟩, hb, hbs⟩
      exact ⟨hb, hbs⟩

/-! ### Reading on inside a character -/

theorem decodeFrom_of_not_allows (h : ¬ p.Allows b) :
    decodeFrom o (some p) (b :: rest) = .error ⟨p.start, .continuationByte⟩ := by
  rw [decodeFrom]
  exact if_neg h

theorem decodeFrom_last (h : p.Allows b) (hmore : p.more = 0) :
    decodeFrom o (some p) (b :: rest)
      = (Char.ofNat (p.codeWith b) :: ·) <$> decodeFrom (o + 1) none rest := by
  rw [decodeFrom, if_pos (show p.low ≤ b.toNat ∧ b.toNat ≤ p.high from h), hmore]
  rfl

theorem decodeFrom_next {more : Nat} (h : p.Allows b) (hmore : p.more = more + 1) :
    decodeFrom o (some p) (b :: rest) = decodeFrom (o + 1) (some (p.after b more)) rest := by
  rw [decodeFrom, if_pos (show p.low ≤ b.toNat ∧ b.toNat ≤ p.high from h), hmore]
  rfl

theorem decodeFrom_append_of_endsWith (h : p.EndsWith bs c) (o : Nat) (rest : List UInt8) :
    decodeFrom o (some p) (bs ++ rest) = (c :: ·) <$> decodeFrom (o + bs.length) none rest := by
  induction bs generalizing p o with
  | nil => exact h.elim
  | cons b bs ih =>
    obtain ⟨hb, h⟩ := h
    split at h
    · next hmore =>
      obtain ⟨rfl, rfl⟩ := h
      exact decodeFrom_last hb hmore
    · next hmore =>
      rw [List.cons_append, decodeFrom_next hb hmore, ih h, Nat.add_right_comm]
      rfl

/-- What has begun comes to be a character, or is at fault. -/
theorem endsWith_or_error (o : Nat) (p : Pending) (bytes : List UInt8) :
    (∃ bs c rest, bytes = bs ++ rest ∧ p.EndsWith bs c)
      ∨ ∃ reason, decodeFrom o (some p) bytes = .error ⟨p.start, reason⟩ := by
  induction bytes generalizing o p with
  | nil => exact .inr ⟨_, rfl⟩
  | cons b rest ih =>
    by_cases hb : p.Allows b
    · cases hmore : p.more with
      | zero =>
        have hends : p.EndsWith [b] (Char.ofNat (p.codeWith b)) :=
          (endsWith_iff_of_more_eq_zero hmore).mpr ⟨b, rfl, hb, rfl⟩
        exact .inl ⟨[b], _, rest, rfl, hends⟩
      | succ more =>
        rcases ih (o + 1) (p.after b more) with ⟨bs, c, rest, rfl, hrest⟩ | ⟨reason, herror⟩
        · have hends : p.EndsWith (b :: bs) c :=
            (endsWith_iff_of_more_eq_succ hmore).mpr ⟨b, bs, rfl, hb, hrest⟩
          exact .inl ⟨b :: bs, c, rest, rfl, hends⟩
        · exact .inr ⟨reason, (decodeFrom_next hb hmore).trans herror⟩
    · exact .inr ⟨_, decodeFrom_of_not_allows hb⟩

/-! ### First bytes -/

/-- What a first byte begins, by the number of bytes that are to come. -/
theorem begin?_eq_some_iff {n : Nat} : begin? o n = some p ↔ p.start = o ∧
    (p.more = 0 ∧ n = 0xC0 + p.code ∧ 2 ≤ p.code ∧ p.code < 32 ∧ p.low = 0x80 ∧ p.high = 0xBF
      ∨ p.more = 1 ∧ n = 0xE0 + p.code ∧ p.code < 16
        ∧ (p.code = 0 → p.low = 0xA0) ∧ (p.code ≠ 0 → p.low = 0x80)
        ∧ (p.code = 13 → p.high = 0x9F) ∧ (p.code ≠ 13 → p.high = 0xBF)
      ∨ p.more = 2 ∧ n = 0xF0 + p.code ∧ p.code < 5
        ∧ (p.code = 0 → p.low = 0x90) ∧ (p.code ≠ 0 → p.low = 0x80)
        ∧ (p.code = 4 → p.high = 0x8F) ∧ (p.code ≠ 4 → p.high = 0xBF)) := by
  obtain ⟨start, more, low, high, code⟩ := p
  unfold begin?
  split_ifs <;> simp only [Option.some.injEq, Pending.mk.injEq] <;> grind

theorem exists_begin? (o : Nat) {n : Nat} (hlow : 0xC2 ≤ n) (hhigh : n ≤ 0xF4) :
    ∃ p, begin? o n = some p := by
  unfold begin?
  split_ifs <;> first | exact ⟨_, rfl⟩ | omega

/-! ### The bytes of a character -/

theorem encodeChar_one (h : c.toNat < 0x80) : encodeChar c = [UInt8.ofNat c.toNat] := if_pos h

theorem encodeChar_two (hlow : 0x80 ≤ c.toNat) (hhigh : c.toNat < 0x800) : encodeChar c
    = [UInt8.ofNat (0xC0 + c.toNat / 0x40), UInt8.ofNat (0x80 + c.toNat / 1 % 0x40)] := by
  unfold encodeChar
  rw [if_neg (Nat.not_lt.mpr hlow), if_pos hhigh]

theorem encodeChar_three (hlow : 0x800 ≤ c.toNat) (hhigh : c.toNat < 0x10000) : encodeChar c
    = [UInt8.ofNat (0xE0 + c.toNat / 0x1000), UInt8.ofNat (0x80 + c.toNat / 0x40 % 0x40),
      UInt8.ofNat (0x80 + c.toNat / 1 % 0x40)] := by
  unfold encodeChar
  rw [if_neg (by omega), if_neg (Nat.not_lt.mpr hlow), if_pos hhigh]

theorem encodeChar_four (hlow : 0x10000 ≤ c.toNat) : encodeChar c
    = [UInt8.ofNat (0xF0 + c.toNat / 0x40000), UInt8.ofNat (0x80 + c.toNat / 0x1000 % 0x40),
      UInt8.ofNat (0x80 + c.toNat / 0x40 % 0x40), UInt8.ofNat (0x80 + c.toNat / 1 % 0x40)] := by
  unfold encodeChar
  rw [if_neg (by omega), if_neg (by omega), if_neg (Nat.not_lt.mpr hlow)]

theorem encodeChar_ne_nil (c : Char) : encodeChar c ≠ [] := by
  unfold encodeChar
  dsimp only
  split_ifs <;> exact List.cons_ne_nil _ _

/-- They are the bytes that the standard library gives the character. -/
theorem encodeChar_eq (c : Char) : encodeChar c = String.utf8EncodeChar c := by
  have hvalid : c.toNat < 0xD800 ∨ 0xDFFF < c.toNat ∧ c.toNat < 0x110000 := c.valid
  have hbyte : ∀ {m n : Nat} {bs cs : List UInt8}, m = n → bs = cs →
      UInt8.ofNat m :: bs = UInt8.ofNat n :: cs := fun hmn hbs => hmn ▸ hbs ▸ rfl
  unfold encodeChar String.utf8EncodeChar
  rw [Char.toNat_val]
  dsimp only
  split_ifs
  all_goals try omega
  all_goals repeat refine hbyte (by omega) ?_
  all_goals rfl

theorem encode_eq (t : Text) : (encode t).toByteArray = t.utf8Encode := by
  rw [encode, funext encodeChar_eq]
  rfl

theorem toNat_ofNat {n : Nat} (h : n.isValidChar) : (Char.ofNat n).toNat = n := by
  rw [Char.ofNat, dif_pos h]
  rfl

theorem ofNat_eq {n : Nat} (h : b.toNat = n) : UInt8.ofNat n = b := by
  rw [← h, UInt8.ofNat_toNat]

/-- The bytes with which a character begins and ends are its own. -/
theorem encodeChar_of_endsWith (hb : begin? o b.toNat = some p) (h : p.EndsWith bs c) :
    encodeChar c = b :: bs := by
  have hcode : ∀ {n : Nat}, c = Char.ofNat n → n.isValidChar → c.toNat = n := fun hc hn =>
    hc ▸ toNat_ofNat hn
  obtain ⟨-, ⟨hmore, hb, _, _, hlow, hhigh⟩ | ⟨hmore, hb, _, hlow, hlow', hhigh, hhigh'⟩
    | ⟨hmore, hb, _, hlow, hlow', hhigh, hhigh'⟩⟩ := begin?_eq_some_iff.mp hb
  · -- two bytes
    obtain ⟨b₁, rfl, ⟨h₁, h₁'⟩, hc⟩ := (endsWith_iff_of_more_eq_zero hmore).mp h
    rw [Pending.codeWith] at hc
    have hn := hcode hc (by rw [Nat.isValidChar]; omega)
    rw [encodeChar_two, ofNat_eq (b := b), ofNat_eq (b := b₁)] <;> omega
  · -- three bytes
    obtain ⟨b₁, _, rfl, ⟨h₁, h₁'⟩, h⟩ := (endsWith_iff_of_more_eq_succ hmore).mp h
    obtain ⟨b₂, rfl, ⟨h₂, h₂'⟩, hc⟩ := (endsWith_iff_of_more_eq_zero rfl).mp h
    simp only [Pending.after, Pending.codeWith] at h₂ h₂' hc
    have hn := hcode hc (by rw [Nat.isValidChar]; omega)
    rw [encodeChar_three, ofNat_eq (b := b), ofNat_eq (b := b₁), ofNat_eq (b := b₂)] <;> omega
  · -- four bytes
    obtain ⟨b₁, _, rfl, ⟨h₁, h₁'⟩, h⟩ := (endsWith_iff_of_more_eq_succ hmore).mp h
    obtain ⟨b₂, _, rfl, ⟨h₂, h₂'⟩, h⟩ := (endsWith_iff_of_more_eq_succ rfl).mp h
    obtain ⟨b₃, rfl, ⟨h₃, h₃'⟩, hc⟩ := (endsWith_iff_of_more_eq_zero rfl).mp h
    simp only [Pending.after, Pending.codeWith] at h₂ h₂' h₃ h₃' hc
    have hn := hcode hc (by rw [Nat.isValidChar]; omega)
    rw [encodeChar_four, ofNat_eq (b := b), ofNat_eq (b := b₁), ofNat_eq (b := b₂),
      ofNat_eq (b := b₃)] <;> omega

/-- A character past U+007F begins with the first of its bytes and ends with
the others. -/
theorem exists_endsWith_of_encodeChar (o : Nat) (hc : 0x80 ≤ c.toNat) :
    ∃ b bs p, encodeChar c = b :: bs ∧ 0x80 ≤ b.toNat ∧ begin? o b.toNat = some p
      ∧ p.EndsWith bs c := by
  -- Surrogates are no characters, and no character lies past U+10FFFF.
  have hvalid : c.toNat < 0xD800 ∨ 0xDFFF < c.toNat ∧ c.toNat < 0x110000 := c.valid
  have hself : ∀ n, n = c.toNat → c = Char.ofNat n := fun n hn => by rw [hn, Char.ofNat_toNat]
  have hbyte : ∀ {n : Nat}, n < 256 → (UInt8.ofNat n).toNat = n := UInt8.toNat_ofNat_of_lt'
  by_cases htwo : c.toNat < 0x800
  · have h₀ := hbyte (n := 0xC0 + c.toNat / 0x40) (by omega)
    have h₁ := hbyte (n := 0x80 + c.toNat / 1 % 0x40) (by omega)
    obtain ⟨p, hp⟩ := exists_begin? o (n := 0xC0 + c.toNat / 0x40) (by omega) (by omega)
    refine ⟨_, _, p, encodeChar_two hc htwo, by omega, by rw [h₀, hp], ?_⟩
    obtain ⟨-, ⟨hmore, h⟩ | ⟨-, h⟩ | ⟨-, h⟩⟩ := begin?_eq_some_iff.mp hp
    · refine (endsWith_iff_of_more_eq_zero hmore).mpr ⟨_, rfl, ⟨by omega, by omega⟩, hself _ ?_⟩
      rw [Pending.codeWith]
      omega
    · omega
    · omega
  · by_cases hthree : c.toNat < 0x10000
    · have h₀ := hbyte (n := 0xE0 + c.toNat / 0x1000) (by omega)
      have h₁ := hbyte (n := 0x80 + c.toNat / 0x40 % 0x40) (by omega)
      have h₂ := hbyte (n := 0x80 + c.toNat / 1 % 0x40) (by omega)
      obtain ⟨p, hp⟩ := exists_begin? o (n := 0xE0 + c.toNat / 0x1000) (by omega) (by omega)
      refine ⟨_, _, p, encodeChar_three (by omega) hthree, by omega, by rw [h₀, hp], ?_⟩
      obtain ⟨-, ⟨-, h⟩ | ⟨hmore, h⟩ | ⟨-, h⟩⟩ := begin?_eq_some_iff.mp hp
      · omega
      · refine (endsWith_iff_of_more_eq_succ hmore).mpr ⟨_, _, rfl, ⟨by omega, by omega⟩, ?_⟩
        refine (endsWith_iff_of_more_eq_zero rfl).mpr ⟨_, rfl, ?_, hself _ ?_⟩
        · simp only [Pending.Allows, Pending.after]
          omega
        · simp only [Pending.codeWith, Pending.after]
          omega
      · omega
    · have h₀ := hbyte (n := 0xF0 + c.toNat / 0x40000) (by omega)
      have h₁ := hbyte (n := 0x80 + c.toNat / 0x1000 % 0x40) (by omega)
      have h₂ := hbyte (n := 0x80 + c.toNat / 0x40 % 0x40) (by omega)
      have h₃ := hbyte (n := 0x80 + c.toNat / 1 % 0x40) (by omega)
      obtain ⟨p, hp⟩ := exists_begin? o (n := 0xF0 + c.toNat / 0x40000) (by omega) (by omega)
      refine ⟨_, _, p, encodeChar_four (by omega), by omega, by rw [h₀, hp], ?_⟩
      obtain ⟨-, ⟨-, h⟩ | ⟨-, h⟩ | ⟨hmore, h⟩⟩ := begin?_eq_some_iff.mp hp
      · omega
      · omega
      · refine (endsWith_iff_of_more_eq_succ hmore).mpr ⟨_, _, rfl, ⟨by omega, by omega⟩, ?_⟩
        refine (endsWith_iff_of_more_eq_succ rfl).mpr ⟨_, _, rfl, ?_, ?_⟩
        · simp only [Pending.Allows, Pending.after]
          omega
        · refine (endsWith_iff_of_more_eq_zero rfl).mpr ⟨_, rfl, ?_, hself _ ?_⟩
          · simp only [Pending.Allows, Pending.after]
            omega
          · simp only [Pending.codeWith, Pending.after]
            omega

/-! ### Characters and texts -/

theorem decodeFrom_encodeChar (o : Nat) (c : Char) (rest : List UInt8) :
    decodeFrom o none (encodeChar c ++ rest)
      = (c :: ·) <$> decodeFrom (o + (encodeChar c).length) none rest := by
  by_cases hc : c.toNat < 0x80
  · have hb : (UInt8.ofNat c.toNat).toNat = c.toNat :=
      UInt8.toNat_ofNat_of_lt' (Nat.lt_trans hc (by decide))
    have hlt : UInt8.ofNat c.toNat < 0x80 := UInt8.lt_iff_toNat_lt.mpr (by rw [hb]; exact hc)
    rw [encodeChar_one hc, List.singleton_append, decodeFrom, if_pos hlt, hb, Char.ofNat_toNat]
    rfl
  · obtain ⟨b, bs, p, hbytes, hb, hp, hends⟩ := exists_endsWith_of_encodeChar o (Nat.not_lt.mp hc)
    have hlt : ¬ b < 0x80 := fun h => absurd (UInt8.lt_iff_toNat_lt.mp h) (Nat.not_lt.mpr hb)
    rw [hbytes, List.cons_append, decodeFrom, if_neg hlt, hp]
    show decodeFrom (o + 1) (some p) (bs ++ rest) = _
    rw [decodeFrom_append_of_endsWith hends, List.length_cons, Nat.add_right_comm, Nat.add_assoc]

theorem decodeFrom_encode (o : Nat) (t : Text) (rest : List UInt8) :
    decodeFrom o none (encode t ++ rest)
      = (t ++ ·) <$> decodeFrom (o + (encode t).length) none rest := by
  induction t generalizing o with
  | nil => cases h : decodeFrom o none rest <;> simp [encode, h]
  | cons c t ih =>
    have hencode : encode (c :: t) = encodeChar c ++ encode t := rfl
    rw [hencode, List.append_assoc, decodeFrom_encodeChar, ih, List.length_append, Nat.add_assoc]
    cases decodeFrom (o + ((encodeChar c).length + (encode t).length)) none rest <;> rfl

/-- What was encoded is decoded. -/
theorem decode_encode (t : Text) : decode (encode t) = .ok t := by
  have h := decodeFrom_encode 0 t []
  rwa [List.append_nil, decodeFrom, map_ok, List.append_nil] at h

/-! ### Faults -/

/-- The byte with the index `k` is the first at which there is no character:
before it stands a text, and no character begins with it. -/
structure FailsAt (bytes : List UInt8) (k : Nat) : Prop where
  lt : k < bytes.length
  text : ∃ t, bytes.take k = encode t
  none : ∀ c, ¬ encodeChar c <+: bytes.drop k

theorem decodeFrom_of_forall_not_isPrefix (hne : bytes ≠ []) (h : ∀ c, ¬ encodeChar c <+: bytes)
    (o : Nat) : ∃ reason, decodeFrom o none bytes = .error ⟨o, reason⟩ := by
  obtain ⟨b, rest, rfl⟩ := List.exists_cons_of_ne_nil hne
  rw [decodeFrom]
  split
  · next hb =>
    -- a byte of ASCII is a character of its own
    have hlt : b.toNat < 0x80 := UInt8.lt_iff_toNat_lt.mp hb
    have hn : (Char.ofNat b.toNat).toNat = b.toNat :=
      toNat_ofNat (.inl (Nat.lt_trans hlt (by decide)))
    refine absurd ?_ (h (Char.ofNat b.toNat))
    rw [encodeChar_one (by rwa [hn]), hn, UInt8.ofNat_toNat]
    exact List.prefix_append [b] rest
  · split
    · next p hp =>
      rcases endsWith_or_error (o + 1) p rest with ⟨bs, c, rest, rfl, hends⟩ | ⟨reason, herror⟩
      · refine absurd ?_ (h c)
        rw [encodeChar_of_endsWith hp hends]
        exact List.prefix_append (b :: bs) rest
      · exact ⟨reason, (begin?_eq_some_iff.mp hp).1 ▸ herror⟩
    · exact ⟨_, rfl⟩

/-- The first byte at which there is no character is at fault. -/
theorem decode_of_failsAt (h : FailsAt bytes k) :
    ∃ reason, decode bytes = .error ⟨k, reason⟩ := by
  obtain ⟨t, ht⟩ := h.text
  have hne : bytes.drop k ≠ [] := by simpa using h.lt
  have hlength : (encode t).length = k := by
    rw [← ht, List.length_take, Nat.min_eq_left (Nat.le_of_lt h.lt)]
  obtain ⟨reason, hreason⟩ := decodeFrom_of_forall_not_isPrefix hne h.none k
  refine ⟨reason, ?_⟩
  rw [decode, ← List.take_append_drop k bytes, ht, decodeFrom_encode, Nat.zero_add, hlength,
    hreason]
  rfl

/-- Bytes stand for a text, or there is a first byte at which there is no
character. -/
theorem exists_encode_or_failsAt (bytes : List UInt8) :
    (∃ t, bytes = encode t) ∨ ∃ k, FailsAt bytes k := by
  induction hn : bytes.length using Nat.strongRecOn generalizing bytes with
  | ind n ih =>
    rcases eq_or_ne bytes [] with rfl | hne
    · exact .inl ⟨[], rfl⟩
    · by_cases h : ∃ c, encodeChar c <+: bytes
      · obtain ⟨c, rest, rfl⟩ := h
        have hpos : 0 < (encodeChar c).length := List.length_pos_iff.mpr (encodeChar_ne_nil c)
        have hlt : rest.length < n := by
          rw [← hn, List.length_append]
          omega
        rcases ih rest.length hlt rest rfl with ⟨t, rfl⟩ | ⟨k, hk⟩
        · exact .inl ⟨c :: t, rfl⟩
        · obtain ⟨t, ht⟩ := hk.text
          refine .inr ⟨(encodeChar c).length + k, ?_, ⟨c :: t, ?_⟩, ?_⟩
          · rw [List.length_append]
            exact Nat.add_lt_add_left hk.lt _
          · rw [List.take_length_add_append, ht]
            rfl
          · rw [List.drop_length_add_append]
            exact hk.none
      · exact .inr ⟨0, List.length_pos_iff.mpr hne, ⟨[], rfl⟩, not_exists.mp h⟩

/-- Bytes are decoded if they are the encoding of a text, and as that text. -/
theorem decode_eq_ok_iff : decode bytes = .ok t ↔ bytes = encode t := by
  constructor
  · intro h
    rcases exists_encode_or_failsAt bytes with ⟨u, rfl⟩ | ⟨k, hk⟩
    · rw [decode_encode] at h
      rw [Except.ok.inj h]
    · obtain ⟨reason, herror⟩ := decode_of_failsAt hk
      simp [h] at herror
  · rintro rfl
    exact decode_encode t

end OfferAnswer.Text.Utf8
