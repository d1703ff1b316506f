/-
OfferAnswer/Proofs/Text.lean

Alphabets, and texts put together from parts.

A text is over an alphabet if all its characters belong to it.  Two alphabets
matter: the plain characters, which are what writers put between values and
what registered words are made of, and the characters that may stand inside a
line.  Every alphabet here has the plain characters.

Each of the three ways to take a text apart is described exactly, by the text
that the parts make when they are joined and by the parts that hold no
separator: `splitOn_eq_iff`, `splitAtMost_eq_iff` and `cut_eq_iff`.  Readers
use these from left to right and writers from right to left.  What is left of a
text that is trimmed is described in the same way (`trim_eq_iff`).
-/
import OfferAnswer.Text.Blank
import Mathlib.Data.Bool.AllAny
import Mathlib.Data.List.Forall2
import Mathlib.Data.List.TakeWhile

namespace OfferAnswer.Text

variable {p : Char → Prop} {sep c : Char} {n : Nat} {t a b w : Text} {ps ws : List Text}

/-! ### Alphabets -/

/-- A text all of whose characters belong to an alphabet. -/
def Over (p : Char → Prop) (t : Text) : Prop := ∀ c ∈ t, p c

instance [DecidablePred p] : Decidable (Over p t) := List.decidableBAll p t

@[simp] theorem over_nil : Over p [] := by simp [Over]

@[simp] theorem over_cons : Over p (c :: t) ↔ p c ∧ Over p t := by simp [Over]

@[simp] theorem over_append : Over p (a ++ b) ↔ Over p a ∧ Over p b := by
  simp only [Over, List.mem_append]
  exact ⟨fun h => ⟨fun c hc => h c (.inl hc), fun c hc => h c (.inr hc)⟩,
    fun h c hc => hc.elim (h.1 c) (h.2 c)⟩

/-- A printable character of ASCII, the blank included. -/
def IsPlain (c : Char) : Prop := ' ' ≤ c ∧ c ≤ '~'

instance : DecidablePred IsPlain := fun c => inferInstanceAs (Decidable (' ' ≤ c ∧ c ≤ '~'))

/-- An alphabet that has all plain characters. -/
class Alphabet (p : Char → Prop) : Prop where
  plain : ∀ c, IsPlain c → p c

/-- A character that may stand inside a line. -/
def InLine (c : Char) : Prop := c ≠ '\n'

instance : Alphabet InLine where
  plain _ hc := by
    rintro rfl
    exact absurd hc (by decide)

/-- Any character at all. -/
def AnyChar (_ : Char) : Prop := True

instance : Alphabet AnyChar where
  plain _ _ := trivial

@[simp] theorem over_anyChar : Over AnyChar t := fun _ _ => trivial

/-- A text without some character. -/
theorem over_ne_iff : Over (· ≠ c) t ↔ c ∉ t :=
  ⟨fun h hm => h _ hm rfl, fun h _ hc he => h (he ▸ hc)⟩

theorem over_inLine : Over InLine t ↔ '\n' ∉ t := over_ne_iff

/-- A plain text is over every alphabet. -/
theorem Over.of_plain [Alphabet p] (h : Over IsPlain t) : Over p t :=
  fun c hc => Alphabet.plain c (h c hc)

/-! ### Words -/

/-- A text that is found again between blanks. -/
structure IsWord (p : Char → Prop) (w : Text) : Prop where
  ne_nil : w ≠ []
  blank_not_mem : ' ' ∉ w
  chars : Over p w

theorem isWord_anyChar : IsWord AnyChar w ↔ w ≠ [] ∧ ' ' ∉ w :=
  ⟨fun h => ⟨h.ne_nil, h.blank_not_mem⟩, fun h => ⟨h.1, h.2, over_anyChar⟩⟩

theorem IsWord.of_plain [Alphabet p] (h : IsWord IsPlain w) : IsWord p w :=
  ⟨h.ne_nil, h.blank_not_mem, h.chars.of_plain⟩

@[simp] theorem unwords_singleton : unwords [a] = a := by simp [unwords, List.intercalate]

@[simp] theorem unwords_cons_cons :
    unwords (a :: b :: ws) = a ++ ' ' :: unwords (b :: ws) := by
  simp [unwords, List.intercalate]

/-! ### Joining -/

theorem mem_intercalate_of_mem (h : a ∈ ps) (hc : c ∈ a) : c ∈ [sep].intercalate ps := by
  induction ps with
  | nil => simp at h
  | cons b rest ih =>
    rcases eq_or_ne rest [] with rfl | hne
    · obtain rfl : a = b := by simpa using h
      simpa [List.intercalate] using hc
    · rw [List.intercalate_cons_of_ne_nil hne, List.mem_append, List.mem_append]
      rcases List.mem_cons.mp h with rfl | h
      · exact .inl (.inl hc)
      · exact .inr (ih h)

theorem over_of_over_intercalate (h : Over p ([sep].intercalate ps)) (ha : a ∈ ps) :
    Over p a :=
  fun c hc => h c (mem_intercalate_of_mem ha hc)

theorem over_intercalate (hsep : p sep) (h : ∀ a ∈ ps, Over p a) :
    Over p ([sep].intercalate ps) := by
  induction ps with
  | nil => simp [List.intercalate]
  | cons a rest ih =>
    rcases eq_or_ne rest [] with rfl | hne
    · simpa [List.intercalate] using h a (by simp)
    · rw [List.intercalate_cons_of_ne_nil hne, over_append, over_append]
      exact ⟨⟨h a (by simp), by simpa using hsep⟩, ih fun b hb => h b (List.mem_cons_of_mem _ hb)⟩

theorem over_unwords [Alphabet p] : Over p (unwords ws) ↔ ∀ w ∈ ws, Over p w :=
  ⟨fun h _ hw => over_of_over_intercalate h hw,
    over_intercalate (Alphabet.plain _ (by decide))⟩

/-- Nothing is written for no parts, and for a single one that is empty. -/
theorem intercalate_eq_nil_iff : [sep].intercalate ps = [] ↔ ps = [] ∨ ps = [[]] := by
  rcases ps with - | ⟨a, - | ⟨b, rest⟩⟩ <;> simp [List.intercalate]

theorem intercalate_ne_nil (ha : a ∈ ps) (hne : a ≠ []) : [sep].intercalate ps ≠ [] := by
  obtain ⟨c, hc⟩ := List.exists_mem_of_ne_nil a hne
  exact List.ne_nil_of_mem (mem_intercalate_of_mem ha hc)

/-! ### Splitting at every separator -/

theorem not_mem_of_mem_splitOn (h : a ∈ t.splitOn sep) : sep ∉ a := by
  induction t generalizing a with
  | nil =>
    obtain rfl : a = [] := by simpa using h
    simp
  | cons c t ih =>
    rw [List.splitOn_cons_eq_if_modifyHead] at h
    split at h
    · rcases List.mem_cons.mp h with rfl | h
      · simp
      · exact ih h
    · next hc =>
      -- Any other character joins the first part of the rest.
      obtain ⟨b, rest, hs⟩ := List.exists_cons_of_ne_nil (List.splitOn_ne_nil sep t)
      rw [hs, List.modifyHead_cons, List.mem_cons] at h
      rcases h with rfl | h
      · have hb : sep ∉ b := ih (by simp [hs])
        simpa [hb] using fun he : sep = c => hc (by simp [he])
      · exact ih (by simp [hs, h])

/-- The parts between all separators. -/
theorem splitOn_eq_iff :
    t.splitOn sep = ps ↔ [sep].intercalate ps = t ∧ ps ≠ [] ∧ ∀ a ∈ ps, sep ∉ a := by
  constructor
  · rintro rfl
    exact ⟨List.intercalate_splitOn sep, List.splitOn_ne_nil sep t,
      fun a => not_mem_of_mem_splitOn⟩
  · rintro ⟨rfl, hne, h⟩
    exact List.splitOn_intercalate sep h hne

/-- A change of characters that neither makes nor loses a separator changes the
parts one by one. -/
theorem splitOn_map {g : Char → Char} (h : ∀ d ∈ t, g d = sep ↔ d = sep) :
    (t.map g).splitOn sep = (t.splitOn sep).map (List.map g) := by
  induction t with
  | nil => simp
  | cons d t ih =>
    rw [List.forall_mem_cons] at h
    rw [List.map_cons, List.splitOn_cons_eq_if_modifyHead, List.splitOn_cons_eq_if_modifyHead,
      ih h.2]
    by_cases hd : d = sep
    · subst hd
      have hgd : g d = d := h.1.mpr rfl
      simp [hgd]
    · obtain ⟨a, ps, hs⟩ := List.exists_cons_of_ne_nil (List.splitOn_ne_nil sep t)
      have hgd : ¬ g d = sep := fun he => hd (h.1.mp he)
      simp [hd, hgd, hs]

theorem words_ne_nil (t : Text) : words t ≠ [] := List.splitOn_ne_nil ' ' t

theorem Over.of_mem_splitOn (h : Over p t) (ha : a ∈ t.splitOn sep) : Over p a := by
  have hjoined : [sep].intercalate (t.splitOn sep) = t := List.intercalate_splitOn sep
  exact over_of_over_intercalate (hjoined.symm ▸ h) ha

theorem Over.of_mem_words (h : Over p t) (hw : w ∈ words t) : Over p w := h.of_mem_splitOn hw

/-- The words of a joined text are those of its parts. -/
theorem words_unwords_eq_flatMap (h : ws ≠ []) : words (unwords ws) = ws.flatMap words := by
  induction ws with
  | nil => exact absurd rfl h
  | cons a rest ih =>
    rcases eq_or_ne rest [] with rfl | hne
    · simp
    · rw [unwords, List.intercalate_cons_of_ne_nil hne, List.append_assoc,
        List.singleton_append, words, List.splitOn_append_cons_self, List.flatMap_cons, ← ih hne]
      rfl

/-! ### Splitting at the first few separators -/

/-- The parts between the first few separators: the last one may hold more of
them. -/
theorem splitAtMost_eq_iff :
    splitAtMost sep n t = ps ↔
      [sep].intercalate ps = t ∧ ps ≠ [] ∧ ps.length ≤ n + 1 ∧ ∀ a ∈ ps.take n, sep ∉ a := by
  constructor
  · rintro rfl
    refine ⟨intercalate_splitAtMost sep n t, splitAtMost_ne_nil sep n t, ?_⟩
    -- Each of the cuts that are left takes one part off the front.
    induction n generalizing t with
    | zero => simp [splitAtMost]
    | succ n ih =>
      rw [splitAtMost]
      split
      · next a h => simpa using (cut_none h).2
      · next a b h =>
        refine ⟨by simpa using (ih (t := b)).1, ?_⟩
        rw [List.take_succ_cons, List.forall_mem_cons]
        exact ⟨(cut_some h).2, (ih (t := b)).2⟩
  · rintro ⟨rfl, hne, hlen, h⟩
    induction n generalizing ps with
    | zero =>
      obtain ⟨a, rfl⟩ : ∃ a, ps = [a] := List.length_eq_one_iff.mp (by
        have := List.length_pos_iff.mpr hne
        omega)
      simp [splitAtMost, List.intercalate]
    | succ n ih =>
      obtain ⟨a, rest, rfl⟩ := List.exists_cons_of_ne_nil hne
      rw [List.take_succ_cons, List.forall_mem_cons] at h
      rcases eq_or_ne rest [] with rfl | hrest
      · have : cut sep a = (a, none) := cut_eq_none h.1
        simp [splitAtMost, List.intercalate, this]
      · rw [List.intercalate_cons_of_ne_nil hrest, List.append_assoc, List.singleton_append,
          splitAtMost, cut_append h.1]
        simp only [List.cons.injEq, true_and]
        exact ih hrest (by simpa using hlen) h.2

/-! ### Cutting at the first separator -/

/-- A text and, after a separator, an optional second one. -/
def withTail (sep : Char) (a : Text) (o : Option Text) : Text := a ++ o.elim [] (sep :: ·)

@[simp] theorem withTail_none : withTail sep a none = a := by simp [withTail]

@[simp] theorem withTail_some : withTail sep a (some b) = a ++ sep :: b := rfl

theorem cut_eq_iff {o : Option Text} :
    cut sep t = (a, o) ↔ withTail sep a o = t ∧ sep ∉ a := by
  cases o with
  | none =>
    rw [withTail_none]
    refine ⟨fun h => ⟨(cut_none h).1.symm, (cut_none h).2⟩, ?_⟩
    rintro ⟨rfl, h⟩
    exact cut_eq_none h
  | some b =>
    refine ⟨fun h => ⟨(cut_some h).1.symm, (cut_some h).2⟩, ?_⟩
    rintro ⟨rfl, h⟩
    exact cut_append h b

theorem over_withTail (hsep : p sep) {o : Option Text} :
    Over p (withTail sep a o) ↔ Over p a ∧ ∀ b ∈ o, Over p b := by
  cases o <;> simp [hsep]

/-- Two words with a separator between them that is no blank are one word. -/
theorem isWord_withTail (hsep : p sep) (hblank : sep ≠ ' ') {o : Option Text} (ha : IsWord p a)
    (ho : ∀ b ∈ o, IsWord p b) : IsWord p (withTail sep a o) where
  ne_nil h := ha.ne_nil (List.append_eq_nil_iff.mp h).1
  blank_not_mem := by
    cases o with
    | none => simpa using ha.blank_not_mem
    | some b => simp [ha.blank_not_mem, (ho b rfl).blank_not_mem, hblank.symm]
  chars := (over_withTail hsep).mpr ⟨ha.chars, fun b hb => (ho b hb).chars⟩

/-! ### Blanks at both ends -/

/-- What a text holds between blanks: it neither begins nor ends with one. -/
def IsCore (core t : Text) : Prop :=
  ∃ before after, t = before ++ (core ++ after)
    ∧ Over (isBlank · = true) before ∧ Over (isBlank · = true) after
    ∧ (∀ c ∈ core.head?, isBlank c = false) ∧ ∀ c ∈ core.getLast?, isBlank c = false

theorem dropWhile_append_eq {p : Char → Bool} (ha : Over (p · = true) a)
    (hb : ∀ c ∈ b.head?, p c = false) : (a ++ b).dropWhile p = b := by
  rw [List.dropWhile_append_of_pos ha]
  cases b with
  | nil => rfl
  | cons c b => exact List.dropWhile_cons_of_neg (Bool.not_eq_true _ ▸ hb c rfl)

theorem eq_false_of_mem_head?_dropWhile {p : Char → Bool} (h : c ∈ (t.dropWhile p).head?) :
    p c = false := by
  have hhead := List.head?_dropWhile_not p t
  rwa [Option.mem_def.mp h] at hhead

/-- Trimming strips the blanks at both ends, all of them and nothing else. -/
theorem trim_eq_iff : trim t = a ↔ IsCore a t := by
  constructor
  · rintro rfl
    have hrest : t.dropWhile isBlank
        = trim t ++ ((t.dropWhile isBlank).reverse.takeWhile isBlank).reverse := by
      rw [trim, ← List.reverse_append, List.takeWhile_append_dropWhile, List.reverse_reverse]
    refine ⟨t.takeWhile isBlank, ((t.dropWhile isBlank).reverse.takeWhile isBlank).reverse,
      ?_, fun c hc => ?_, fun c hc => ?_, fun c hc => ?_, fun c hc => ?_⟩
    · rw [← hrest, List.takeWhile_append_dropWhile]
    · exact List.mem_takeWhile_imp hc
    · exact List.mem_takeWhile_imp (List.mem_reverse.mp hc)
    · -- what is left begins as the text does without the blanks in front
      refine eq_false_of_mem_head?_dropWhile (t := t) ?_
      rw [hrest, List.head?_append, hc]
      rfl
    · rw [trim, List.getLast?_reverse] at hc
      exact eq_false_of_mem_head?_dropWhile hc
  · rintro ⟨before, after, rfl, hbefore, hafter, hfirst, hlast⟩
    rcases a with - | ⟨c, a⟩
    · have hblank : (before ++ ([] ++ after)).dropWhile isBlank = [] :=
        List.dropWhile_eq_nil_iff.mpr (over_append.mpr ⟨hbefore, hafter⟩)
      rw [trim, hblank]
      rfl
    · have hfront : (before ++ (c :: a ++ after)).dropWhile isBlank = c :: a ++ after :=
        dropWhile_append_eq hbefore hfirst
      have hback : (c :: a ++ after).reverse.dropWhile isBlank = (c :: a).reverse := by
        rw [List.reverse_append]
        refine dropWhile_append_eq (fun d hd => hafter d (List.mem_reverse.mp hd)) fun d hd => ?_
        exact hlast d (by rwa [List.head?_reverse] at hd)
      rw [trim, hfront, hback, List.reverse_reverse]

end OfferAnswer.Text
