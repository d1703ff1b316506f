/-
OfferAnswer/Proofs/Field/Media.lean

The fields of a media section, written and read again.
-/
import OfferAnswer.Field.Media
import OfferAnswer.Proofs.Field.Basic

namespace OfferAnswer

open Text OfferAnswer.Field Outcome

variable {p : Char → Prop} {raw : Text}

/-! ### Media -/

namespace Medium

variable {m : Medium}

/-- A medium that can be written; formats it may have or not. -/
structure Spelled (p : Char → Prop) (m : Medium) : Prop where
  kind_canonical : m.kind.IsCanonical
  kind : IsWord p m.kind.text
  port : Decimal.Fits (.upTo 65535) m.port
  protocol_canonical : m.protocol.IsCanonical
  protocol : IsWord p m.protocol.text
  formats : ∀ f ∈ m.formats, IsWord p f
  ports : ∀ n ∈ m.ports, Decimal.Fits ⟨some 1, none⟩ n

structure WellFormed (p : Char → Prop) (m : Medium) : Prop extends m.Spelled p where
  formats_ne_nil : m.formats ≠ []

/-- The port and the number of ports as written. -/
def spec (m : Medium) : Text := withTail '/' (Decimal.text m.port) (m.ports.map Decimal.text)

theorem text_eq : m.text = unwords (m.kind.text :: m.spec :: m.protocol.text :: m.formats) := by
  cases h : m.ports <;> simp [text, spec, h]

theorem isWord_spec (m : Medium) : IsWord IsPlain m.spec := by
  refine isWord_withTail (by decide) (by decide) (Decimal.isWord_text m.port) fun t ht => ?_
  obtain ⟨n, -, rfl⟩ := Option.map_eq_some_iff.mp ht
  exact Decimal.isWord_text n

theorem wellFormed_of_read [Alphabet p] (hraw : Over p raw) (h : read raw = .ok m) :
    m.WellFormed p := by
  unfold read at h
  simp only at h
  split at h
  · simp [throw_ne_ok, bind_eq_ok] at h
  · next hne =>
    rw [List.contains_iff_mem] at hne
    have hwords : ∀ w ∈ words raw, IsWord p w := fun w hw =>
      ⟨fun he => hne (he ▸ hw), not_mem_of_mem_splitOn hw, hraw.of_mem_words hw⟩
    split at h
    · next kind spec protocol format formats hws =>
      rw [hws] at hwords
      simp only [bind_eq_ok] at h
      obtain ⟨port, hport, ports, hports, h⟩ := h
      obtain rfl := pure_eq_ok.mp h
      exact {
        kind_canonical := Token.isCanonical_ofText kind
        kind := Token.isWord_text_ofText (hwords kind (by simp))
        port := fits_of_integer hport
        protocol_canonical := Token.isCanonical_ofText protocol
        protocol := Token.isWord_text_ofText (hwords protocol (by simp))
        formats_ne_nil := by simp
        formats := fun f hf =>
          hwords f (List.mem_cons_of_mem _ (List.mem_cons_of_mem _ (List.mem_cons_of_mem _ hf)))
        ports := fun n hn => by
          obtain ⟨t, -, ht⟩ := mem_of_optionMapM hports n hn
          exact fits_of_integer ht }
    · simp [throw_ne_ok] at h

theorem isWord_of_mem [Alphabet p] (h : m.Spelled p) :
    ∀ w ∈ m.kind.text :: m.spec :: m.protocol.text :: m.formats, IsWord p w := by
  rw [List.forall_mem_cons, List.forall_mem_cons, List.forall_mem_cons]
  exact ⟨h.kind, m.isWord_spec.of_plain, h.protocol, h.formats⟩

theorem words_text [Alphabet p] (h : m.Spelled p) :
    words m.text = m.kind.text :: m.spec :: m.protocol.text :: m.formats := by
  rw [text_eq]
  exact words_unwords (by simp) fun w hw => (isWord_of_mem h w hw).blank_not_mem

theorem read_text [Alphabet p] (h : m.WellFormed p) : read m.text = .ok m := by
  have hwords := words_text h.toSpelled
  have hne : ¬ (m.kind.text :: m.spec :: m.protocol.text :: m.formats).contains [] := by
    rw [List.contains_iff_mem]
    exact fun hm => (isWord_of_mem h.toSpelled [] hm).ne_nil rfl
  have hcut : cut '/' m.spec = (Decimal.text m.port, m.ports.map Decimal.text) :=
    cut_eq_iff.mpr ⟨rfl, Decimal.not_mem_text (by decide) (by decide)⟩
  have hports : (m.ports.map Decimal.text).mapM (integer 'm' ⟨some 1, none⟩) = .ok m.ports :=
    optionMapM_map fun n hn => integer_text (h.ports n hn)
  obtain ⟨format, formats, hformats⟩ := List.exists_cons_of_ne_nil h.formats_ne_nil
  unfold read
  simp only [hwords, if_neg hne]
  simp only [hformats, hcut, integer_text h.port, hports, ok_bind, pure_eq, h.kind_canonical.eq,
    h.protocol_canonical.eq]
  rw [← hformats]

theorem over_text [Alphabet p] (h : m.Spelled p) : Over p m.text := by
  rw [text_eq, over_unwords]
  exact fun w hw => (isWord_of_mem h w hw).chars

/-- Without formats a medium can be written, but not read. -/
theorem exists_read_text_iff [Alphabet p] (h : m.Spelled p) :
    (∃ m', read m.text = .ok m') ↔ m.formats ≠ [] := by
  refine ⟨?_, fun hne => ⟨m, read_text ⟨h, hne⟩⟩⟩
  rintro ⟨m', hm'⟩ hnil
  unfold read at hm'
  simp only [words_text h, hnil] at hm'
  split at hm' <;> simp [bind_eq_ok, throw_ne_ok] at hm'

end Medium

/-! ### Fields -/

namespace MediaField

variable {f : MediaField} {c : Char}

def WellFormed (p : Char → Prop) : MediaField → Prop
  | medium m => m.WellFormed p
  | title t => Over p t
  | connection c => c.WellFormed p
  | bandwidth b => b.WellFormed p
  | key k => k.WellFormed p
  | attr a => a.WellFormed p

/-- A field that was read is well-formed, and has the letter of its line. -/
theorem wellFormed_of_read [Alphabet p] (hraw : Over p raw) (h : read c raw = .ok f) :
    f.WellFormed p ∧ f.letter = c := by
  unfold read at h
  split at h
  · -- m
    obtain ⟨m, hm, rfl⟩ := map_eq_ok.mp h
    exact ⟨Medium.wellFormed_of_read hraw hm, rfl⟩
  · -- i: any text will do
    obtain rfl := Except.ok.inj h
    exact ⟨hraw, rfl⟩
  · -- c
    obtain ⟨m, hm, rfl⟩ := map_eq_ok.mp h
    exact ⟨Connection.wellFormed_of_read hraw hm, rfl⟩
  · -- b
    obtain ⟨b, hb, rfl⟩ := map_eq_ok.mp h
    exact ⟨Bandwidth.wellFormed_of_read hraw hb, rfl⟩
  · -- k: never refused
    obtain rfl := Except.ok.inj h
    exact ⟨EncryptionKey.wellFormed_ofText hraw, rfl⟩
  · -- a
    obtain ⟨a, ha, rfl⟩ := map_eq_ok.mp h
    exact ⟨Attribute.wellFormed_of_ofText hraw (mapError_eq_ok.mp ha), rfl⟩
  · simp at h

theorem letter_of_read (h : read c raw = .ok f) : f.letter = c :=
  have : Alphabet fun _ => True := ⟨fun _ _ => trivial⟩
  (wellFormed_of_read (p := fun _ => True) (fun _ _ => trivial) h).2

theorem read_value [Alphabet p] (h : f.WellFormed p) : read f.letter f.value = .ok f := by
  cases f with
  | medium m => exact map_eq_ok.mpr ⟨m, m.read_text h, rfl⟩
  | title t => rfl
  | connection c => exact map_eq_ok.mpr ⟨c, c.read_text h, rfl⟩
  | bandwidth b => exact map_eq_ok.mpr ⟨b, b.read_text h, rfl⟩
  | key k => exact congrArg (Except.ok ∘ key) (k.ofText_text h)
  | attr a => exact map_eq_ok.mpr ⟨a, mapError_eq_ok.mpr (a.ofText_text h), rfl⟩

theorem over_value [Alphabet p] (h : f.WellFormed p) : Over p f.value := by
  cases f with
  | medium m => exact m.over_text h.toSpelled
  | title t => exact h
  | connection c => exact c.over_text h
  | bandwidth b => exact b.over_text h
  | key k => exact h.chars
  | attr a => exact a.over_text h

end MediaField

end OfferAnswer
