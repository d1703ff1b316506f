/-
OfferAnswer/Proofs/Attribute/Transport.lean

Attributes of the transport, written and read again.
-/
import OfferAnswer.Attribute.Transport
import OfferAnswer.Proofs.Attribute.Codec
import OfferAnswer.Proofs.Fingerprint

namespace OfferAnswer

open Text Attribute Outcome

variable {p : Char → Prop} {raw : Text}

/-! ### Certificates -/

namespace CertificateHash

variable {h : CertificateHash}

structure WellFormed (p : Char → Prop) (h : CertificateHash) : Prop where
  function_canonical : h.function.IsCanonical
  function : IsWord p h.function.text
  digest_ne_nil : h.fingerprint.digest ≠ []

theorem text_eq : h.text = unwords [h.function.text, h.fingerprint.text] := by
  simp [text]

theorem wellFormed_of_read [Alphabet p] (hraw : Over p raw) (hr : read raw = .ok h) :
    h.WellFormed p := by
  obtain ⟨ws, hws, hr⟩ := bind_eq_ok.mp hr
  obtain ⟨hwords, -⟩ := isWord_of_wordsUpTo hraw hws
  split at hr
  · next function fingerprint =>
    split at hr
    · next f hf =>
      obtain rfl := pure_eq_ok.mp hr
      exact ⟨Token.isCanonical_ofText function,
        Token.isWord_text_ofText (hwords function (by simp)),
        Fingerprint.digest_ne_nil_of_ofText? hf⟩
    · simp [throw_ne_ok] at hr
  · simp [throw_ne_ok] at hr

/-- What is read again when it has been written, but for the spelling of the
hash function. -/
structure Recoverable (p : Char → Prop) (h : CertificateHash) : Prop where
  function : IsWord p h.function.text
  digest_ne_nil : h.fingerprint.digest ≠ []

theorem WellFormed.recoverable (hh : h.WellFormed p) : h.Recoverable p :=
  ⟨hh.function, hh.digest_ne_nil⟩

/-- With the hash function as it is read from its own text. -/
def settled (h : CertificateHash) : CertificateHash :=
  { h with function := .ofText h.function.text }

theorem read_text_of_recoverable (hh : h.Recoverable p) : read h.text = .ok h.settled := by
  have hne : h.fingerprint.text ≠ [] := (Fingerprint.isWord_text hh.digest_ne_nil).ne_nil
  have hwords : wordsUpTo 2 2 h.text = .ok [h.function.text, h.fingerprint.text] := by
    rw [text_eq]
    exact wordsUpTo_pair hh.function hne
  rw [read, hwords]
  simp [Fingerprint.ofText?_text hh.digest_ne_nil, settled]

theorem read_text (hh : h.WellFormed p) : read h.text = .ok h := by
  rw [read_text_of_recoverable hh.recoverable, settled, hh.function_canonical.eq]

theorem over_text [Alphabet p] (hh : h.WellFormed p) : Over p h.text := by
  rw [text_eq, over_unwords]
  simpa using ⟨hh.function.chars, (Fingerprint.isWord_text hh.digest_ne_nil).chars.of_plain⟩

end CertificateHash

/-! ### Control packets -/

namespace ControlPort

variable {c : ControlPort}

/-- An address is there with all its parts or with none. -/
inductive Whole (p : Char → Prop) : Option Network → Option AddressFamily → Option Text → Prop
  | none : Whole p none none none
  | some {n : Network} {f : AddressFamily} {a : Text} (ha : IsWord p a) :
    Whole p (some n) (some f) (some a)

structure WellFormed (p : Char → Prop) (c : ControlPort) : Prop where
  port : Decimal.Fits (.upTo maxPort) c.port
  whole : Whole p c.network c.family c.address

theorem wellFormed_of_read (hraw : Over p raw) (h : read raw = .ok c) : c.WellFormed p := by
  obtain ⟨ws, hws, h⟩ := bind_eq_ok.mp h
  have hwords := isWord_of_wordsOf hraw hws
  split at h
  · obtain ⟨port, hport, h⟩ := bind_eq_ok.mp h
    obtain rfl := pure_eq_ok.mp h
    exact ⟨fits_of_integer hport, .none⟩
  · next address =>
    simp only [bind_eq_ok] at h
    obtain ⟨port, hport, n, -, f, -, h⟩ := h
    obtain rfl := pure_eq_ok.mp h
    exact ⟨fits_of_integer hport, .some (hwords address (by simp))⟩
  · simp [throw_ne_ok] at h

/-- The words as written. -/
theorem exists_words [Alphabet p] (h : c.WellFormed p) :
    ∃ ws, c.text = unwords ws ∧ ws ≠ [] ∧ (∀ w ∈ ws, IsWord p w)
      ∧ (wordsOf 1 c.text = .ok ws → read c.text = .ok c) := by
  obtain ⟨port, network, family, address⟩ := c
  obtain ⟨hport, hwhole⟩ := h
  have hportWord : IsWord p (Decimal.text port) := (Decimal.isWord_text port).of_plain
  cases hwhole with
  | none =>
    refine ⟨[Decimal.text port], by simp [text], by simp, by simpa using hportWord, fun hw => ?_⟩
    rw [read, hw]
    simp [integer_text hport]
  | @some n f a ha =>
    refine ⟨[Decimal.text port, Vocabulary.spelling n, Vocabulary.spelling f, a], rfl, by simp,
      ?_, fun hw => ?_⟩
    · simpa using ⟨hportWord, (Vocabulary.isWord_spelling n).of_plain,
        (Vocabulary.isWord_spelling f).of_plain, ha⟩
    · rw [read, hw]
      simp [integer_text hport]

theorem read_text [Alphabet p] (h : c.WellFormed p) : read c.text = .ok c := by
  obtain ⟨ws, htext, hne, hws, hread⟩ := exists_words h
  refine hread ?_
  rw [htext]
  exact wordsOf_unwords (List.length_pos_iff.mpr hne) hne hws

theorem over_text [Alphabet p] (h : c.WellFormed p) : Over p c.text := by
  obtain ⟨ws, htext, -, hws, -⟩ := exists_words h
  rw [htext, over_unwords]
  exact fun w hw => (hws w hw).chars

end ControlPort

/-! ### Header extensions -/

namespace ExtensionMap

variable {e : ExtensionMap}

structure WellFormed (p : Char → Prop) (e : ExtensionMap) : Prop where
  id : Decimal.Fits (.upTo 255) e.id
  uri : IsWord p e.uri
  attributes : ∀ a ∈ e.attributes, IsWord p a

/-- The identifier and the direction as written. -/
def spec (e : ExtensionMap) : Text :=
  withTail '/' (Decimal.text e.id) (e.direction.map Vocabulary.spelling)

theorem text_eq : e.text = unwords (e.spec :: e.uri :: e.attributes) := by
  cases h : e.direction <;> simp [text, spec, h]

theorem isWord_spec (e : ExtensionMap) : IsWord IsPlain e.spec := by
  refine isWord_withTail (by decide) (by decide) (Decimal.isWord_text e.id) fun t ht => ?_
  obtain ⟨d, -, rfl⟩ := Option.map_eq_some_iff.mp ht
  exact Vocabulary.isWord_spelling d

theorem direction?_map (d : Option ExtensionDirection) :
    direction? (d.map Vocabulary.spelling) = .ok d := by
  cases d with
  | none => rfl
  | some d => cases d <;> rfl

theorem wellFormed_of_read (hraw : Over p raw) (h : read raw = .ok e) : e.WellFormed p := by
  obtain ⟨ws, hws, h⟩ := bind_eq_ok.mp h
  have hwords := isWord_of_wordsOf hraw hws
  split at h
  · next spec uri attributes =>
    simp only [bind_eq_ok] at h
    obtain ⟨id, hid, d, -, h⟩ := h
    obtain rfl := pure_eq_ok.mp h
    exact ⟨fits_of_integer hid, hwords uri (by simp), fun a ha => hwords a (by simp [ha])⟩
  · simp [throw_ne_ok] at h

theorem isWord_of_mem [Alphabet p] (h : e.WellFormed p) :
    ∀ w ∈ e.spec :: e.uri :: e.attributes, IsWord p w := by
  rw [List.forall_mem_cons, List.forall_mem_cons]
  exact ⟨e.isWord_spec.of_plain, h.uri, h.attributes⟩

theorem read_text [Alphabet p] (h : e.WellFormed p) : read e.text = .ok e := by
  have hwords : wordsOf 2 e.text = .ok (e.spec :: e.uri :: e.attributes) := by
    rw [text_eq]
    exact wordsOf_unwords (by simp) (by simp) (isWord_of_mem h)
  have hcut : cut '/' e.spec = (Decimal.text e.id, e.direction.map Vocabulary.spelling) :=
    cut_eq_iff.mpr ⟨rfl, Decimal.not_mem_text (by decide) (by decide)⟩
  rw [read, hwords]
  simp [hcut, integer_text h.id, direction?_map]

theorem over_text [Alphabet p] (h : e.WellFormed p) : Over p e.text := by
  rw [text_eq, over_unwords]
  exact fun w hw => (isWord_of_mem h w hw).chars

end ExtensionMap

/-! ### Groups of media -/

namespace MediaGroup

variable {g : MediaGroup}

structure WellFormed (p : Char → Prop) (g : MediaGroup) : Prop where
  meaning_canonical : g.meaning.IsCanonical
  meaning : IsWord p g.meaning.text
  mids_ne_nil : g.mids ≠ []
  mids : ∀ m ∈ g.mids, IsWord p m

theorem wellFormed_of_read [Alphabet p] (hraw : Over p raw) (h : read raw = .ok g) :
    g.WellFormed p := by
  obtain ⟨ws, hws, h⟩ := bind_eq_ok.mp h
  have hwords := isWord_of_wordsOf hraw hws
  split at h
  · next meaning mids =>
    obtain rfl := pure_eq_ok.mp h
    refine ⟨Token.isCanonical_ofText meaning, Token.isWord_text_ofText (hwords meaning (by simp)),
      ?_, fun m hm => hwords m (List.mem_cons_of_mem _ hm)⟩
    rintro rfl
    obtain ⟨hsplit, hlen, -⟩ := enough_eq_ok_iff.mp hws
    rw [hsplit] at hlen
    simp at hlen
  · simp [throw_ne_ok] at h

/-- What is read again when it has been written, but for the spelling of the
meaning. -/
structure Recoverable (p : Char → Prop) (g : MediaGroup) : Prop where
  meaning : IsWord p g.meaning.text
  mids_ne_nil : g.mids ≠ []
  mids : ∀ m ∈ g.mids, IsWord p m

theorem WellFormed.recoverable (h : g.WellFormed p) : g.Recoverable p :=
  ⟨h.meaning, h.mids_ne_nil, h.mids⟩

/-- With the meaning as it is read from its own text. -/
def settled (g : MediaGroup) : MediaGroup := { g with meaning := .ofText g.meaning.text }

theorem read_text_of_recoverable (h : g.Recoverable p) : read g.text = .ok g.settled := by
  have hwords : wordsOf 2 g.text = .ok (g.meaning.text :: g.mids) :=
    wordsOf_unwords (Nat.succ_le_succ (List.length_pos_iff.mpr h.mids_ne_nil)) (by simp)
      (List.forall_mem_cons.mpr ⟨h.meaning, h.mids⟩)
  rw [read, hwords]
  rfl

theorem read_text (h : g.WellFormed p) : read g.text = .ok g := by
  rw [read_text_of_recoverable h.recoverable, settled, h.meaning_canonical.eq]

theorem over_text [Alphabet p] (h : g.WellFormed p) : Over p g.text :=
  over_unwords.mpr <| List.forall_mem_cons.mpr
    ⟨h.meaning.chars, fun m hm => (h.mids m hm).chars⟩

/-- A group of any texts is read, if none of them has an empty word. -/
theorem exists_read_text_iff (h : ' ' ∉ g.meaning.text) (hne : g.meaning.text ≠ [])
    (hmids : g.mids ≠ []) : (∃ g', read g.text = .ok g') ↔ ∀ m ∈ g.mids, [] ∉ words m := by
  have hmeaning : words g.meaning.text = [g.meaning.text] := by
    have hword : words (unwords [g.meaning.text]) = [g.meaning.text] :=
      words_unwords (List.cons_ne_nil _ _) (List.forall_mem_singleton.mpr h)
    rwa [unwords_singleton] at hword
  have hwords : words g.text = g.meaning.text :: g.mids.flatMap words := by
    rw [text, words_unwords_eq_flatMap (List.cons_ne_nil _ _), List.flatMap_cons, hmeaning]
    rfl
  constructor
  · rintro ⟨g', hg'⟩ m hm hnil
    obtain ⟨ws, hws, -⟩ := bind_eq_ok.mp hg'
    obtain ⟨rfl, -, hfilled⟩ := enough_eq_ok_iff.mp hws
    rw [hwords] at hfilled
    exact hfilled (List.mem_cons_of_mem _ (List.mem_flatMap.mpr ⟨m, hm, hnil⟩))
  · intro hm
    -- There is an identifier, and it has a word.
    obtain ⟨m, hmem⟩ := List.exists_mem_of_ne_nil g.mids hmids
    obtain ⟨w, hw⟩ := List.exists_mem_of_ne_nil (words m) (words_ne_nil m)
    have hpos := List.length_pos_of_mem (List.mem_flatMap.mpr ⟨m, hmem, hw⟩)
    have hread : wordsOf 2 g.text = .ok (g.meaning.text :: g.mids.flatMap words) := by
      rw [wordsOf, hwords]
      refine enough_eq_ok_iff.mpr ⟨rfl, Nat.succ_le_succ hpos, ?_⟩
      rw [List.mem_cons, not_or]
      refine ⟨hne.symm, fun hnil => ?_⟩
      obtain ⟨m', hm', hnil⟩ := List.mem_flatMap.mp hnil
      exact hm m' hm' hnil
    exact ⟨_, by rw [read, hread]; rfl⟩

end MediaGroup

end OfferAnswer
