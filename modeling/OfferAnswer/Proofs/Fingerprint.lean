/-
OfferAnswer/Proofs/Fingerprint.lean

Fingerprints written and read again.

A fingerprint with octets is read from its own text.  None without octets is
ever read, and written it would be no word.

What is read are octets of one hexadecimal digit or two between colons, and
nothing else (`exists_ofText?_iff`).  An octet is judged by its digits
(`spells_of_octet?`), of which there are few enough to look at all, and the
text is judged octet by octet (`ofText?_eq_some_iff`).  A change of case leaves
the colons where they are, so it changes the octets one by one
(`ofText?_map`).
-/
import OfferAnswer.Fingerprint
import OfferAnswer.Proofs.Outcome
import OfferAnswer.Proofs.Text
import OfferAnswer.Text.Case

namespace OfferAnswer.Fingerprint

open Text

variable {f : Fingerprint} {t a : Text} {b : UInt8}

/-! ### Octets -/

/-- An octet is read from its two digits, which are plain and no separators. -/
theorem octetText_spec (b : UInt8) :
    octet? (octetText b) = some b ∧ octetText b ≠ [] ∧ ':' ∉ octetText b
      ∧ ∀ c ∈ octetText b, IsPlain c ∧ c ≠ ' ' := by
  -- There are few octets, so all of them are looked at.
  have h : ∀ n < 256, octet? (octetText (UInt8.ofNat n)) = some (UInt8.ofNat n)
      ∧ octetText (UInt8.ofNat n) ≠ [] ∧ ':' ∉ octetText (UInt8.ofNat n)
      ∧ (octetText (UInt8.ofNat n)).all fun c => IsPlain c ∧ c ≠ ' ' := by
    decide +kernel
  have hb := h b.toNat b.toNat_lt
  rwa [UInt8.ofNat_toNat, List.all_iff_forall_prop] at hb

/-! ### Fingerprints -/

theorem ofText?_text (h : f.digest ≠ []) : ofText? f.text = some f := by
  have hsplit : f.text.splitOn ':' = f.digest.map octetText := by
    rw [splitOn_eq_iff]
    refine ⟨rfl, by simpa using h, fun a ha => ?_⟩
    obtain ⟨b, -, rfl⟩ := List.mem_map.mp ha
    exact (octetText_spec b).2.2.1
  have hread : (f.digest.map octetText).mapM octet? = some f.digest :=
    Outcome.mapM_map_eq_some fun b _ => (octetText_spec b).1
  rw [ofText?, hsplit, hread]
  rfl

/-- A fingerprint that was read has octets. -/
theorem digest_ne_nil_of_ofText? (h : ofText? t = some f) : f.digest ≠ [] := by
  obtain ⟨bs, hbs, rfl⟩ := Option.map_eq_some_iff.mp h
  rintro rfl
  obtain ⟨a, rest, hs⟩ := List.exists_cons_of_ne_nil (List.splitOn_ne_nil ':' t)
  rw [hs, List.mapM_cons] at hbs
  simp only [Option.bind_eq_bind, Option.bind_eq_some_iff] at hbs
  obtain ⟨b, -, bs, -, h⟩ := hbs
  exact List.cons_ne_nil b bs (Option.some.inj h)

theorem isWord_text (h : f.digest ≠ []) : IsWord IsPlain f.text := by
  have hmem : ∀ a ∈ f.digest.map octetText, ∀ c ∈ a, IsPlain c ∧ c ≠ ' ' := by
    intro a ha
    obtain ⟨b, -, rfl⟩ := List.mem_map.mp ha
    exact (octetText_spec b).2.2.2
  obtain ⟨b, bs, hd⟩ := List.exists_cons_of_ne_nil h
  have hover : Over (fun c => IsPlain c ∧ c ≠ ' ') f.text :=
    over_intercalate (by decide) hmem
  exact {
    ne_nil := intercalate_ne_nil (a := octetText b) (by simp [hd]) (octetText_spec b).2.1
    blank_not_mem := fun hm => (hover _ hm).2 rfl
    chars := fun c hc => (hover c hc).1 }

/-! ### Octets in any case -/

def hexDigits : List Char := "0123456789abcdefABCDEF".toList

/-- One hexadecimal digit or two. -/
def IsOctet (a : Text) : Prop := (a.length = 1 ∨ a.length = 2) ∧ ∀ c ∈ a, c ∈ hexDigits

/-- The digits of an octet with a zero in front of a single one. -/
def padded (a : Text) : Text := List.leftpad 2 '0' a

theorem isSome_hexDigit?_iff {c : Char} : (hexDigit? c).isSome = true ↔ c ∈ hexDigits := by
  by_cases hc : c.toNat < 0x80
  · have hall : ∀ n < 0x80,
        (hexDigit? (Char.ofNat n)).isSome = true ↔ Char.ofNat n ∈ hexDigits := by
      decide +kernel
    have h := hall c.toNat hc
    rwa [Char.ofNat_toNat] at h
  · have hascii : ∀ d ∈ hexDigits, d.toNat < 0x80 := List.all_iff_forall_prop.mp (by decide)
    have hhigh (d : Char) (hd : d.toNat < 0x80) : ¬ c ≤ d := by
      intro hle
      exact hc (Nat.lt_of_le_of_lt (Char.le_def.mp hle) hd)
    have hnone : hexDigit? c = none := by
      simp [hexDigit?, hhigh '9' (by decide), hhigh 'f' (by decide), hhigh 'F' (by decide)]
    rw [hnone]
    exact ⟨nofun, fun hmem => absurd (hascii c hmem) hc⟩

theorem isSome_octet?_iff : (octet? a).isSome = true ↔ IsOctet a := by
  match a with
  | [] => simp [octet?, IsOctet]
  | [x] => simp [octet?, IsOctet, isSome_hexDigit?_iff]
  | [x, y] =>
    simp only [IsOctet, List.forall_mem_cons, ← isSome_hexDigit?_iff]
    simp only [octet?, Text.octet?]
    cases hexDigit? x <;> cases hexDigit? y <;> simp
  | _ :: _ :: _ :: _ => simp [octet?, IsOctet]

/-- Digits in any case spell an octet: it is written with them in upper case,
and read from them in either. -/
structure Spells (a : Text) (b : UInt8) : Prop where
  text : octetText b = padded (a.map Char.toUpper)
  upper : octet? (a.map Char.toUpper) = some b
  lower : octet? (a.map Char.toLower) = some b

instance : Decidable (Spells a b) :=
  decidable_of_iff (octetText b = padded (a.map Char.toUpper)
      ∧ octet? (a.map Char.toUpper) = some b ∧ octet? (a.map Char.toLower) = some b)
    ⟨fun ⟨text, upper, lower⟩ => ⟨text, upper, lower⟩, fun h => ⟨h.text, h.upper, h.lower⟩⟩

theorem spells_of_octet? (h : octet? a = some b) : Spells a b := by
  have hone : (hexDigits.all fun x => (octet? [x]).all fun b => Spells [x] b) = true := by
    decide +kernel
  have htwo : (hexDigits.all fun x => hexDigits.all fun y =>
      (octet? [x, y]).all fun b => Spells [x, y] b) = true := by
    decide +kernel
  simp only [List.all_eq_true, Option.all_eq_true, decide_eq_true_eq] at hone htwo
  obtain ⟨hlength | hlength, hdigits⟩ : IsOctet a := isSome_octet?_iff.mp (by rw [h]; rfl)
  · obtain ⟨x, rfl⟩ := List.length_eq_one_iff.mp hlength
    exact hone x (hdigits x (by simp)) b h
  · obtain ⟨x, y, rfl⟩ := List.length_eq_two.mp hlength
    exact htwo x (hdigits x (by simp)) y (hdigits y (by simp)) b h

/-! ### Fingerprints in any case -/

/-- A fingerprint is read octet by octet. -/
theorem ofText?_eq_some_iff : ofText? t = some f ↔
    List.Forall₂ (fun a b => octet? a = some b) (t.splitOn ':') f.digest := by
  rw [ofText?, Option.map_eq_some_iff, ← Outcome.mapM_eq_some]
  constructor
  · rintro ⟨bs, hbs, rfl⟩
    exact hbs
  · intro h
    exact ⟨f.digest, h, rfl⟩

theorem isSome_mapM_octet?_iff {os : List Text} :
    (os.mapM octet?).isSome = true ↔ ∀ a ∈ os, IsOctet a := by
  induction os with
  | nil => simp
  | cons a os ih =>
    rw [List.forall_mem_cons, ← isSome_octet?_iff, ← ih, List.mapM_cons]
    cases octet? a <;> cases os.mapM octet? <;> simp

/-- What is read are octets between colons. -/
theorem exists_ofText?_iff : (∃ f, ofText? t = some f) ↔
    ∃ os, os ≠ [] ∧ (∀ a ∈ os, IsOctet a) ∧ t = [':'].intercalate os := by
  have hparts : (∃ f, ofText? t = some f) ↔ ∀ a ∈ t.splitOn ':', IsOctet a := by
    rw [← isSome_mapM_octet?_iff, ← Option.isSome_iff_exists, ofText?, Option.isSome_map]
  rw [hparts]
  constructor
  · intro h
    exact ⟨t.splitOn ':', List.splitOn_ne_nil ':' t, h, (List.intercalate_splitOn ':').symm⟩
  · rintro ⟨os, hne, hos, rfl⟩
    have hcolon : ':' ∉ hexDigits := by decide
    have hsplit : ([':'].intercalate os).splitOn ':' = os :=
      splitOn_eq_iff.mpr ⟨rfl, hne, fun a ha hm => hcolon ((hos a ha).2 _ hm)⟩
    rwa [hsplit]

/-- The characters of a text that is read. -/
theorem over_of_ofText? (h : ofText? t = some f) : Over (· ∈ ':' :: hexDigits) t := by
  obtain ⟨os, -, hos, rfl⟩ := exists_ofText?_iff.mp ⟨f, h⟩
  apply over_intercalate (List.mem_cons_self ..)
  intro a ha c hc
  exact List.mem_cons_of_mem _ ((hos a ha).2 c hc)

/-- A change of digits that leaves every octet what it is leaves the
fingerprint what it is. -/
theorem ofText?_map {g : Char → Char} (hcolon : ∀ c ∈ ':' :: hexDigits, g c = ':' ↔ c = ':')
    (hoctet : ∀ a b, octet? a = some b → octet? (a.map g) = some b) (h : ofText? t = some f) :
    ofText? (t.map g) = some f := by
  rw [ofText?_eq_some_iff] at h ⊢
  rw [splitOn_map fun c hc => hcolon c (over_of_ofText? (ofText?_eq_some_iff.mpr h) c hc),
    List.forall₂_map_left_iff]
  exact h.imp fun a b hab => hoctet a b hab

theorem toNat_lt_of_mem : ∀ c ∈ ':' :: hexDigits, c.toNat < 0x80 :=
  List.all_iff_forall_prop.mp (by decide)

theorem toUpper_eq_colon_iff : ∀ c ∈ ':' :: hexDigits, c.toUpper = ':' ↔ c = ':' :=
  List.all_iff_forall_prop.mp (by decide)

theorem toLower_eq_colon_iff : ∀ c ∈ ':' :: hexDigits, c.toLower = ':' ↔ c = ':' :=
  List.all_iff_forall_prop.mp (by decide)

theorem upper_of_ofText? (h : ofText? t = some f) : upper t = t.map Char.toUpper :=
  upper_of_ascii fun c hc => toNat_lt_of_mem c (over_of_ofText? h c hc)

theorem lower_of_ofText? (h : ofText? t = some f) : lower t = t.map Char.toLower :=
  lower_of_ascii fun c hc => toNat_lt_of_mem c (over_of_ofText? h c hc)

/-- In upper case, a text stands for the same fingerprint. -/
theorem ofText?_upper (h : ofText? t = some f) : ofText? (upper t) = some f := by
  rw [upper_of_ofText? h]
  exact ofText?_map toUpper_eq_colon_iff (fun a b hab => (spells_of_octet? hab).upper) h

/-- In lower case, a text stands for the same fingerprint. -/
theorem ofText?_lower (h : ofText? t = some f) : ofText? (lower t) = some f := by
  rw [lower_of_ofText? h]
  exact ofText?_map toLower_eq_colon_iff (fun a b hab => (spells_of_octet? hab).lower) h

/-- A fingerprint is written with the octets it was read from, in upper case and
with a zero in front of single digits. -/
theorem text_eq_upper (h : ofText? t = some f) :
    f.text = [':'].intercalate (((upper t).splitOn ':').map padded) := by
  have hmap : f.digest.map octetText
      = (t.splitOn ':').map fun a => padded (a.map Char.toUpper) := by
    rw [← List.forall₂_eq_eq_eq, List.forall₂_map_left_iff, List.forall₂_map_right_iff]
    apply List.Forall₂.flip
    exact (ofText?_eq_some_iff.mp h).imp fun a b hab => (spells_of_octet? hab).text
  rw [text, hmap, upper_of_ofText? h,
    splitOn_map fun c hc => toUpper_eq_colon_iff c (over_of_ofText? h c hc), List.map_map]
  rfl

/-- Reading and writing fingerprints: a digest that is not empty comes back from
its own text, the texts that are read are octets between colons, and each is
written in upper case with two digits for every octet and stands for the same
fingerprint in either case. -/
theorem reads_octets_writes_upper :
    (∀ d, d ≠ [] → ofText? (text ⟨d⟩) = some ⟨d⟩)
      ∧ ∀ t, ((∃ f, ofText? t = some f) ↔
          ∃ os, os ≠ [] ∧ (∀ a ∈ os, IsOctet a) ∧ t = [':'].intercalate os)
        ∧ ∀ f, ofText? t = some f →
          f.text = [':'].intercalate (((upper t).splitOn ':').map padded)
            ∧ ofText? (upper t) = some f ∧ ofText? (lower t) = some f := by
  refine ⟨fun d hd => ofText?_text hd, fun t => ⟨exists_ofText?_iff, fun f hf => ?_⟩⟩
  exact ⟨text_eq_upper hf, ofText?_upper hf, ofText?_lower hf⟩

example : (ofText? "a:1B:c".toList).map text = some "0A:1B:0C".toList := by decide +kernel
example : ofText? "a::c".toList = none := by decide +kernel

end OfferAnswer.Fingerprint
