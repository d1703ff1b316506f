/-
OfferAnswer/Proofs/Canonical/Field.lean

Lines that are written as they were read.

A letter means the same in every section where it may stand, so the letter
alone settles when a line is canonical.
-/
import OfferAnswer.Proofs.Canonical.Attribute
import OfferAnswer.Proofs.Document.Field

namespace OfferAnswer

open Text OfferAnswer.Field Outcome Vocabulary

variable {raw t : Text} {c : Char}

namespace Field

variable {n : Nat} {ws : List Text}

/-! ### Words and single values -/

theorem unwords_of_exactly (h : exactly n raw = .ok ws) : words raw = ws ∧ unwords ws = raw := by
  unfold exactly at h
  simp only at h
  split at h
  · simp at h
  · obtain rfl := Except.ok.inj h
    exact ⟨rfl, unwords_words raw⟩

theorem text_of_integer {b : Decimal.Bounds} {i : Int} (h : integer c b t = .ok i)
    (hc : Decimal.isCanonical t = true) : Decimal.text i = t :=
  Decimal.text_of_read (mapError_eq_ok.mp h) hc

theorem spelling_of_word {κ : Type} [Vocabulary κ] {k : κ} (h : word c t = .ok k)
    (hc : isSpelled κ t = true) : spelling k = t :=
  spelling_of_ofText (mapError_eq_ok.mp h) hc

end Field

/-! ### Fields of sessions and media -/

namespace Connection

def isCanonical (raw : Text) : Bool :=
  match words raw with
  | network :: family :: _ => isSpelled Network network && isSpelled AddressFamily family
  | _ => true

theorem text_of_read {c : Connection} (h : read raw = .ok c) (hc : isCanonical raw = true) :
    c.text = raw := by
  obtain ⟨ws, hws, h⟩ := bind_eq_ok.mp h
  obtain ⟨hsplit, hraw⟩ := unwords_of_exactly hws
  split at h
  · next network family address =>
    simp only [bind_eq_ok] at h
    obtain ⟨n, hn, f, hf, h⟩ := h
    obtain rfl := pure_eq_ok.mp h
    simp only [isCanonical, hsplit, Bool.and_eq_true] at hc
    rw [text, spelling_of_word hn hc.1, spelling_of_word hf hc.2, hraw]
  · simp [throw_ne_ok] at h

end Connection

namespace Bandwidth

def isCanonical (raw : Text) : Bool :=
  let (kind, amount) := cut ':' raw
  isSpelled BandwidthKind kind && amount.all Decimal.isCanonical

theorem text_of_read {b : Bandwidth} (h : read raw = .ok b) (hc : isCanonical raw = true) :
    b.text = raw := by
  unfold read at h
  split at h
  · simp at h
  · simp at h
  · next kind amount _ hcut =>
    obtain ⟨n, hn, h⟩ := bind_eq_ok.mp h
    obtain rfl := pure_eq_ok.mp h
    simp only [isCanonical, hcut, Bool.and_eq_true, Option.all_some] at hc
    obtain ⟨rfl, -⟩ := cut_eq_iff.mp hcut
    rw [text, Token.text_ofText hc.1, text_of_integer hn hc.2]
    rfl

end Bandwidth

/-- Nothing in an encryption key has two spellings. -/
theorem EncryptionKey.text_ofText (raw : Text) : (ofText raw).text = raw := by
  rw [text_eq]
  exact (cut_eq_iff.mp (Prod.eta (cut ':' raw)).symm).1

namespace Medium

def isCanonical (raw : Text) : Bool :=
  match words raw with
  | kind :: spec :: protocol :: _ =>
    let (port, ports) := cut '/' spec
    isSpelled MediaKind kind && Decimal.isCanonical port && ports.all Decimal.isCanonical
      && isSpelled Protocol protocol
  | _ => true

theorem text_of_read {m : Medium} (h : read raw = .ok m) (hc : isCanonical raw = true) :
    m.text = raw := by
  have hraw : unwords (words raw) = raw := unwords_words raw
  unfold read at h
  simp only at h
  split at h
  · simp [throw_ne_ok, bind_eq_ok] at h
  · split at h
    · next kind second protocol format formats hws =>
      simp only [bind_eq_ok] at h
      obtain ⟨port, hport, ports, hports, h⟩ := h
      obtain rfl := pure_eq_ok.mp h
      obtain ⟨hsecond, -⟩ := cut_eq_iff.mp (Prod.eta (cut '/' second)).symm
      simp only [isCanonical, hws, Bool.and_eq_true, Option.all_eq_true] at hc
      obtain ⟨⟨⟨hc₁, hc₂⟩, hc₃⟩, hc₄⟩ := hc
      have hspec : spec ⟨Token.ofText kind, port, Token.ofText protocol, format :: formats, ports⟩
          = second := by
        rw [spec, text_of_integer hport hc₂,
          optionMap_eq_of_mapM hports fun t ht n hn => text_of_integer hn (hc₃ t ht), hsecond]
      rw [text_eq, hspec, Token.text_ofText hc₁, Token.text_ofText hc₄, ← hraw, hws]
    · simp [throw_ne_ok] at h

end Medium

namespace Origin

def isCanonical (raw : Text) : Bool :=
  match words raw with
  | _ :: id :: version :: network :: family :: _ =>
    Decimal.isCanonical id && Decimal.isCanonical version && isSpelled Network network
      && isSpelled AddressFamily family
  | _ => true

theorem getD_readUser (t : Text) : (readUser t).getD ['-'] = t := by
  unfold readUser
  split
  · next h => exact h.symm
  · rfl

theorem text_of_read {o : Origin} (h : read raw = .ok o) (hc : isCanonical raw = true) :
    o.text = raw := by
  obtain ⟨ws, hws, h⟩ := bind_eq_ok.mp h
  obtain ⟨hsplit, hraw⟩ := unwords_of_exactly hws
  split at h
  · simp only [bind_eq_ok] at h
    obtain ⟨i, hi, v, hv, n, hn, f, hf, h⟩ := h
    obtain rfl := pure_eq_ok.mp h
    simp only [isCanonical, hsplit, Bool.and_eq_true] at hc
    obtain ⟨⟨⟨hc₁, hc₂⟩, hc₃⟩, hc₄⟩ := hc
    rw [text, getD_readUser, text_of_integer hi hc₁, text_of_integer hv hc₂,
      spelling_of_word hn hc₃, spelling_of_word hf hc₄, hraw]
  · simp [throw_ne_ok] at h

end Origin

/-- A name that is not a single blank is written as it was read. -/
theorem SessionField.getD_of_readName {n : Option Text} (h : readName raw = .ok n)
    (hc : raw ≠ [' ']) : n.getD ['-'] = raw := by
  unfold readName at h
  split at h
  · next hdash =>
    obtain rfl := Except.ok.inj h
    exact (hdash.resolve_right hc).symm
  · split at h
    · simp at h
    · obtain rfl := Except.ok.inj h
      rfl

/-! ### Times -/

namespace TimeField

variable {f : TimeField} {signed : Bool} {n : Int} {ws : List Text} {rs : List Adjustment}

/-- Integers that stand for words, and are short enough to be written. -/
def Spells (is : List Int) (ws : List Text) : Prop :=
  is.map Decimal.text = ws ∧ ∀ n ∈ is, Decimal.isWritable n = true

theorem Spells.cons {w : Text} {is : List Int} (h : seconds c signed w = .ok n)
    (hc : Duration.isCanonical w = true) (hrest : Spells is ws) : Spells (n :: is) (w :: ws) := by
  obtain ⟨htext, hwritable⟩ := Duration.text_of_read (mapError_eq_ok.mp h) hc
  refine ⟨?_, ?_⟩
  · rw [List.map_cons, htext, hrest.1]
  · rw [List.forall_mem_cons]
    exact ⟨hwritable, hrest.2⟩

theorem Spells.nil : Spells [] [] := ⟨rfl, by simp⟩

theorem spells_of_mapM {is : List Int} (h : ws.mapM (seconds c signed) = .ok is)
    (hc : ∀ w ∈ ws, Duration.isCanonical w = true) : Spells is ws := by
  have h := mapM_eq_ok.mp h
  induction h with
  | nil => exact .nil
  | cons hw _ ih =>
    rw [List.forall_mem_cons] at hc
    exact .cons hw hc.1 (ih (mapM_eq_ok.mpr ‹_›) hc.2)

theorem spells_of_readAdjustments (h : readAdjustments raw ws = .ok rs)
    (hc : ∀ w ∈ ws, Duration.isCanonical w = true) : Spells (zone rs).integers ws := by
  induction ws using readAdjustments.induct generalizing rs with
  | case1 =>
    obtain rfl := Except.ok.inj h
    exact .nil
  | case2 w => simp [readAdjustments] at h
  | case3 time offset rest ih =>
    simp only [readAdjustments, bind_eq_ok] at h
    obtain ⟨t, ht, o, ho, others, hothers, h⟩ := h
    obtain rfl := pure_eq_ok.mp h
    rw [List.forall_mem_cons, List.forall_mem_cons] at hc
    exact .cons ht hc.1 (.cons ho hc.2.1 (ih hothers hc.2.2))

/-- The words of a canonical line are its integers as written. -/
theorem spells_of_read (h : read c raw = .ok f)
    (hc : ∀ w ∈ words raw, Duration.isCanonical w = true) : Spells f.integers (words raw) := by
  unfold read at h
  split at h
  · -- t
    obtain ⟨a, ha, rfl⟩ := map_eq_ok.mp h
    obtain ⟨ws, hws, ha⟩ := bind_eq_ok.mp ha
    obtain ⟨hsplit, -⟩ := unwords_of_exactly hws
    split at ha
    · next start stop =>
      simp only [bind_eq_ok] at ha
      obtain ⟨b, hb, e, he, ha⟩ := ha
      obtain rfl := pure_eq_ok.mp ha
      rw [hsplit] at hc ⊢
      exact .cons hb (hc start (by simp)) (.cons he (hc stop (by simp)) .nil)
    · simp [throw_ne_ok] at ha
  · -- r
    obtain ⟨r, hr, rfl⟩ := map_eq_ok.mp h
    unfold readRepetition at hr
    simp only at hr
    split at hr
    · simp [throw_ne_ok, bind_eq_ok] at hr
    · split at hr
      · next interval duration offset offsets hws =>
        simp only [bind_eq_ok] at hr
        obtain ⟨i, hi, d, hd, os, hos, hr⟩ := hr
        obtain rfl := pure_eq_ok.mp hr
        rw [hws, List.forall_mem_cons, List.forall_mem_cons] at hc
        rw [hws]
        exact .cons hi hc.1 (.cons hd hc.2.1 (spells_of_mapM hos hc.2.2))
      · simp [throw_ne_ok] at hr
  · -- z
    obtain ⟨rs, hrs, rfl⟩ := map_eq_ok.mp h
    unfold readZone at hrs
    simp only at hrs
    split at hrs
    · simp at hrs
    · exact spells_of_readAdjustments hrs hc
  · simp at h

end TimeField

/-! ### Lines -/

namespace Field

/-- Whether the value of a line with a letter is canonical. -/
def isCanonicalValue (letter : Char) (raw : Text) : Bool :=
  match letter with
  | 'o' => Origin.isCanonical raw
  | 's' => raw != [' ']
  | 'c' => Connection.isCanonical raw
  | 'b' => Bandwidth.isCanonical raw
  | 't' | 'r' | 'z' => (words raw).all Duration.isCanonical
  | 'm' => Medium.isCanonical raw
  | 'a' => Attribute.isCanonical raw
  | _ => true

/-- Whether a line is canonical. -/
def isCanonical (t : Text) : Bool :=
  (split? t).all fun (letter, raw) => isCanonicalValue letter raw

end Field

theorem SessionField.value_of_read {f : SessionField} (h : read c raw = .ok f)
    (hc : isCanonicalValue c raw = true) : f.value = raw := by
  unfold read at h
  split at h
  · -- v: the one version there is
    obtain ⟨v, hv, rfl⟩ := map_eq_ok.mp h
    unfold readVersion at hv
    split at hv
    · exact (Except.ok.inj hv).symm
    · simp at hv
  · -- o
    obtain ⟨o, ho, rfl⟩ := map_eq_ok.mp h
    exact Origin.text_of_read ho hc
  · -- s
    obtain ⟨n, hn, rfl⟩ := map_eq_ok.mp h
    exact getD_of_readName hn (bne_iff_ne.mp hc)
  · -- i, u, e and p
    obtain rfl := Except.ok.inj h
    rfl
  · obtain rfl := Except.ok.inj h
    rfl
  · obtain rfl := Except.ok.inj h
    rfl
  · obtain rfl := Except.ok.inj h
    rfl
  · -- c
    obtain ⟨n, hn, rfl⟩ := map_eq_ok.mp h
    exact Connection.text_of_read hn hc
  · -- b
    obtain ⟨b, hb, rfl⟩ := map_eq_ok.mp h
    exact Bandwidth.text_of_read hb hc
  · -- k
    obtain rfl := Except.ok.inj h
    exact EncryptionKey.text_ofText raw
  · -- a
    obtain ⟨a, ha, rfl⟩ := map_eq_ok.mp h
    exact Attribute.text_of_ofText (mapError_eq_ok.mp ha) hc
  · simp at h

theorem MediaField.value_of_read {f : MediaField} (h : read c raw = .ok f)
    (hc : isCanonicalValue c raw = true) : f.value = raw := by
  unfold read at h
  split at h
  · -- m
    obtain ⟨m, hm, rfl⟩ := map_eq_ok.mp h
    exact Medium.text_of_read hm hc
  · -- i
    obtain rfl := Except.ok.inj h
    rfl
  · -- c
    obtain ⟨n, hn, rfl⟩ := map_eq_ok.mp h
    exact Connection.text_of_read hn hc
  · -- b
    obtain ⟨b, hb, rfl⟩ := map_eq_ok.mp h
    exact Bandwidth.text_of_read hb hc
  · -- k
    obtain rfl := Except.ok.inj h
    exact EncryptionKey.text_ofText raw
  · -- a
    obtain ⟨a, ha, rfl⟩ := map_eq_ok.mp h
    exact Attribute.text_of_ofText (mapError_eq_ok.mp ha) hc
  · simp at h

theorem TimeField.value_of_read {f : TimeField} (h : read c raw = .ok f)
    (hc : isCanonicalValue c raw = true) : f.value = raw ∧ f.isWritable = true := by
  have hwords : ∀ w ∈ words raw, Duration.isCanonical w = true := by
    -- A time line has one of three letters, and they are treated alike.
    have hletter : c = 't' ∨ c = 'r' ∨ c = 'z' := by
      unfold read at h
      split at h <;> simp at h ⊢
    rcases hletter with rfl | rfl | rfl <;> exact List.all_eq_true.mp hc
  obtain ⟨hspells, hwritable⟩ := spells_of_read h hwords
  exact ⟨by rw [value, hspells, unwords_words], List.all_eq_true.mpr hwritable⟩

namespace Document

/-- A canonical line is written as it was read, and can be written. -/
theorem text_of_readField {o : Owner} {f : DocumentField} (h : ofLine (readField o) t = .ok f)
    (hc : Field.isCanonical t = true) : f.text = t ∧ f.isWritable = true := by
  unfold ofLine at h
  split at h
  · next letter raw hsplit =>
    simp only [Field.isCanonical, hsplit, Option.all_some] at hc
    obtain ⟨rfl, -⟩ := split?_eq_some_iff.mp hsplit
    obtain ⟨rfl, -⟩ := letter_owner_of_readField h
    suffices hvalue : f.value = raw ∧ f.isWritable = true from
      ⟨by rw [f.text_eq, hvalue.1], hvalue.2⟩
    cases o with
    | session =>
      obtain ⟨g, hg, rfl⟩ := map_eq_ok.mp h
      exact ⟨SessionField.value_of_read hg hc, rfl⟩
    | time =>
      obtain ⟨g, hg, rfl⟩ := map_eq_ok.mp h
      exact TimeField.value_of_read hg hc
    | media =>
      obtain ⟨g, hg, rfl⟩ := map_eq_ok.mp h
      exact ⟨MediaField.value_of_read hg hc, rfl⟩
  · simp at h

end Document

end OfferAnswer
