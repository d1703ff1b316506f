/-
OfferAnswer/Proofs/Attribute/Source.lean

Attributes of sources and streams, written and read again.

The streams of a simulcast attribute are kept apart by semicolons and commas,
and any word can be taken apart in this way; so a simulcast attribute is
described by the words that list its streams (`Simulcast.read_unwords`).
-/
import OfferAnswer.Attribute.Source
import OfferAnswer.Proofs.Attribute.Codec
import OfferAnswer.Proofs.OrderedMap

namespace OfferAnswer

open Text Attribute Outcome

variable {p : Char → Prop} {raw : Text}

/-! ### Sources -/

namespace SourceAttribute

variable {a : SourceAttribute}

/-- The name and the value as written. -/
def described (a : SourceAttribute) : Text := withTail ':' a.name a.value

structure WellFormed (p : Char → Prop) (a : SourceAttribute) : Prop where
  source : Decimal.Fits (.upTo max32) a.source
  colon_not_mem_name : ':' ∉ a.name
  described_ne_nil : a.described ≠ []
  described_over : Over p a.described

theorem described_ne_nil_iff : a.described ≠ [] ↔ (a.value = none → a.name ≠ []) := by
  cases h : a.value <;> simp [described, h]

theorem text_eq : a.text = unwords [Decimal.text a.source, a.described] := by
  cases h : a.value <;> simp [text, described, h]

theorem wellFormed_of_read (hraw : Over p raw) (h : read raw = .ok a) : a.WellFormed p := by
  obtain ⟨ws, hws, h⟩ := bind_eq_ok.mp h
  obtain ⟨-, hfilled⟩ := isWord_of_wordsUpTo hraw hws
  split at h
  · next source described =>
    simp only [bind_eq_ok] at h
    obtain ⟨s, hs, h⟩ := h
    obtain rfl := pure_eq_ok.mp h
    obtain ⟨htail, hcolon⟩ := cut_eq_iff.mp (Prod.eta (cut ':' described)).symm
    obtain ⟨hne, hover⟩ := hfilled described (by simp)
    rw [← htail] at hne hover
    exact ⟨fits_of_integer hs, hcolon, hne, hover⟩
  · simp [throw_ne_ok] at h

theorem read_text (h : a.WellFormed p) : read a.text = .ok a := by
  have hwords : wordsUpTo 2 2 a.text = .ok [Decimal.text a.source, a.described] := by
    rw [text_eq]
    exact wordsUpTo_pair (Decimal.isWord_text a.source) h.described_ne_nil
  have hcut : cut ':' a.described = (a.name, a.value) :=
    cut_eq_iff.mpr ⟨rfl, h.colon_not_mem_name⟩
  rw [read, hwords]
  simp [hcut, integer_text h.source]

theorem over_text [Alphabet p] (h : a.WellFormed p) : Over p a.text := by
  rw [text_eq, over_unwords]
  simpa using ⟨Decimal.over_text a.source, h.described_over⟩

end SourceAttribute

namespace SourceGroup

variable {g : SourceGroup}

structure WellFormed (p : Char → Prop) (g : SourceGroup) : Prop where
  meaning_canonical : g.meaning.IsCanonical
  meaning : IsWord p g.meaning.text
  sources : ∀ s ∈ g.sources, Decimal.Fits (.upTo max32) s

theorem wellFormed_of_read [Alphabet p] (hraw : Over p raw) (h : read raw = .ok g) :
    g.WellFormed p := by
  obtain ⟨ws, hws, h⟩ := bind_eq_ok.mp h
  have hwords := isWord_of_wordsOf hraw hws
  split at h
  · next meaning first rest =>
    obtain ⟨s, hs, h⟩ := bind_eq_ok.mp h
    obtain ⟨ss, hss, h⟩ := bind_eq_ok.mp h
    obtain rfl := pure_eq_ok.mp h
    refine ⟨Token.isCanonical_ofText meaning, Token.isWord_text_ofText (hwords meaning (by simp)),
      List.forall_mem_cons.mpr ⟨fits_of_integer hs, fun s' hs' => ?_⟩⟩
    obtain ⟨t, -, ht⟩ := mem_of_mapM hss s' hs'
    exact fits_of_integer ht
  · simp [throw_ne_ok] at h

/-- What is read again when it has been written, but for the spelling of the
meaning. -/
structure Recoverable (p : Char → Prop) (g : SourceGroup) : Prop where
  meaning : IsWord p g.meaning.text
  sources : ∀ s ∈ g.sources, Decimal.Fits (.upTo max32) s

theorem WellFormed.recoverable (h : g.WellFormed p) : g.Recoverable p := ⟨h.meaning, h.sources⟩

/-- With the meaning as it is read from its own text. -/
def settled (g : SourceGroup) : SourceGroup := { g with meaning := .ofText g.meaning.text }

theorem isWord_of_mem [Alphabet p] (h : g.Recoverable p) :
    ∀ w ∈ g.meaning.text :: g.sources.map Decimal.text, IsWord p w := by
  rw [List.forall_mem_cons, List.forall_mem_map]
  exact ⟨h.meaning, fun s _ => (Decimal.isWord_text s).of_plain⟩

theorem read_text_of_recoverable [Alphabet p] (h : g.Recoverable p) :
    read g.text = .ok g.settled := by
  have hlen : 1 ≤ (g.sources.map Decimal.text).length := by
    rw [List.length_map]
    exact List.length_pos_iff.mpr g.ne_nil
  have hwords : wordsOf 2 g.text = .ok (g.meaning.text :: g.sources.map Decimal.text) :=
    wordsOf_unwords (Nat.succ_le_succ hlen) (by simp) (isWord_of_mem h)
  obtain ⟨meaning, _ | ⟨s, rest⟩, hne⟩ := g
  · exact absurd rfl hne
  · obtain ⟨hs, hrest⟩ := List.forall_mem_cons.mp h.sources
    have hread : (rest.map Decimal.text).mapM (integer (.upTo max32)) = .ok rest :=
      mapM_map fun s' hs' => integer_text (hrest s' hs')
    rw [read, hwords]
    simp only [List.map_cons, ok_bind, integer_text hs, hread]
    rfl

theorem read_text [Alphabet p] (h : g.WellFormed p) : read g.text = .ok g := by
  rw [read_text_of_recoverable h.recoverable, settled, h.meaning_canonical.eq]

theorem over_text [Alphabet p] (h : g.WellFormed p) : Over p g.text :=
  over_unwords.mpr fun w hw => (isWord_of_mem h.recoverable w hw).chars

end SourceGroup

/-! ### Identified streams -/

namespace StreamId

variable {s : StreamId}

structure WellFormed (p : Char → Prop) (s : StreamId) : Prop where
  id : IsWord p s.id
  restrictions : ∀ t ∈ s.restrictions, t ≠ [] ∧ Over p t

theorem wellFormed_of_read (hraw : Over p raw) (h : read raw = .ok s) : s.WellFormed p := by
  obtain ⟨ws, hws, h⟩ := bind_eq_ok.mp h
  obtain ⟨hwords, hfilled⟩ := isWord_of_wordsUpTo hraw hws
  split at h
  · next id direction more =>
    obtain ⟨d, -, h⟩ := bind_eq_ok.mp h
    obtain rfl := pure_eq_ok.mp h
    refine ⟨hwords id (by simp), fun t ht => hfilled t ?_⟩
    exact List.mem_cons_of_mem _ (List.mem_cons_of_mem _ (List.mem_of_mem_head? ht))
  · simp [throw_ne_ok] at h

theorem read_text [Alphabet p] (h : s.WellFormed p) : read s.text = .ok s := by
  have hwords : wordsUpTo 2 3 s.text
      = .ok ([s.id, Vocabulary.spelling s.direction] ++ s.restrictions.toList) :=
    wordsUpTo_triple h.id (Vocabulary.isWord_spelling s.direction).of_plain
      fun t ht => (h.restrictions t ht).1
  rw [read, hwords]
  simp

theorem over_text [Alphabet p] (h : s.WellFormed p) : Over p s.text := by
  rw [text, over_unwords]
  intro w hw
  rcases List.mem_append.mp hw with hw | hw
  · have : ∀ w ∈ [s.id, Vocabulary.spelling s.direction], Over p w := by
      simpa using ⟨h.id.chars, (Vocabulary.isWord_spelling s.direction).chars.of_plain⟩
    exact this w hw
  · exact (h.restrictions w (Option.mem_toList.mp hw)).2

end StreamId

/-! ### Simulcast -/

namespace Simulcast

variable {s : Simulcast} {ss : List (List Text)}

/-- Streams as they are listed. -/
def listing (ss : List (List Text)) : Text :=
  [';'].intercalate (ss.map fun alternatives => [','].intercalate alternatives)

/-- The streams that a text lists. -/
def listed (t : Text) : List (List Text) := (t.splitOn ';').map (·.splitOn ',')

@[simp] theorem listing_listed (t : Text) : listing (listed t) = t := by
  have hinner : (t.splitOn ';').map (fun part => [','].intercalate (part.splitOn ','))
      = t.splitOn ';' := by
    simp only [List.intercalate_splitOn, List.map_id']
  rw [listing, listed, List.map_map]
  exact (congrArg _ hinner).trans (List.intercalate_splitOn ';')

/-- Streams that are found again in their listing: there are some, each has
alternatives, and no identifier has a separator in it. -/
structure KeptApart (ss : List (List Text)) : Prop where
  ne_nil : ss ≠ []
  /-- A single empty identifier would be listed like no stream at all. -/
  not_blank : ss ≠ [[[]]]
  alternatives_ne_nil : ∀ as ∈ ss, as ≠ []
  ids : ∀ as ∈ ss, ∀ id ∈ as, ' ' ∉ id ∧ ';' ∉ id ∧ ',' ∉ id

theorem not_mem_listing {c : Char} (hsemicolon : c ≠ ';') (hcomma : c ≠ ',')
    (hc : ∀ as ∈ ss, ∀ id ∈ as, c ∉ id) : c ∉ listing ss := by
  refine over_ne_iff.mp (over_intercalate hsemicolon.symm (List.forall_mem_map.mpr ?_))
  exact fun as has => over_intercalate hcomma.symm fun id hid => over_ne_iff.mpr (hc as has id hid)

theorem KeptApart.listed_listing (h : KeptApart ss) : listed (listing ss) = ss := by
  have hparts : (listing ss).splitOn ';' = ss.map [','].intercalate := by
    refine splitOn_eq_iff.mpr ⟨rfl, by simpa using h.ne_nil, List.forall_mem_map.mpr ?_⟩
    intro as has
    exact over_ne_iff.mp (over_intercalate (by decide) fun id hid =>
      over_ne_iff.mpr (h.ids as has id hid).2.1)
  rw [listed, hparts, List.map_map]
  refine (List.map_congr_left fun as has => ?_).trans (List.map_id ss)
  exact splitOn_eq_iff.mpr
    ⟨rfl, h.alternatives_ne_nil as has, fun id hid => (h.ids as has id hid).2.2⟩

/-- Streams are kept apart if they are listed as one word, from which they are
read again. -/
theorem keptApart_iff :
    KeptApart ss ↔ IsWord AnyChar (listing ss) ∧ listed (listing ss) = ss := by
  constructor
  · refine fun h => ⟨isWord_anyChar.mpr ⟨fun hnil => ?_, ?_⟩, h.listed_listing⟩
    · exact h.not_blank (h.listed_listing.symm.trans (congrArg listed hnil))
    · exact not_mem_listing (by decide) (by decide) fun as has id hid => (h.ids as has id hid).1
  · rintro ⟨hword, hlisted⟩
    obtain ⟨hne, hblank⟩ := isWord_anyChar.mp hword
    -- What is found in the listing has none of its separators.
    generalize listing ss = t at hne hblank hlisted
    subst hlisted
    refine ⟨by simp [listed, List.splitOn_ne_nil], fun hlone => hne ?_, ?_, ?_⟩
    · rw [← listing_listed t, hlone]
      rfl
    · exact List.forall_mem_map.mpr fun as _ => List.splitOn_ne_nil ',' as
    · refine List.forall_mem_map.mpr fun as has id hid => ⟨?_, ?_, not_mem_of_mem_splitOn hid⟩
      · exact over_ne_iff.mp (((over_ne_iff.mpr hblank).of_mem_splitOn has).of_mem_splitOn hid)
      · exact over_ne_iff.mp
          ((over_ne_iff.mpr (not_mem_of_mem_splitOn has)).of_mem_splitOn hid)

/-- What can be read when it has been written, though maybe as other
streams. -/
structure Legible (p : Char → Prop) (s : Simulcast) : Prop where
  size : s.streams.entries.length = 1 ∨ s.streams.entries.length = 2
  listing : ∀ e ∈ s.streams.entries, IsWord p (listing e.2)

structure WellFormed (p : Char → Prop) (s : Simulcast) : Prop extends s.Legible p where
  listed : ∀ e ∈ s.streams.entries, listed (Simulcast.listing e.2) = e.2

/-- What is read again when it has been written. -/
structure Recoverable (s : Simulcast) : Prop where
  size : s.streams.entries.length = 1 ∨ s.streams.entries.length = 2
  keptApart : ∀ e ∈ s.streams.entries, KeptApart e.2

theorem recoverable_iff : s.Recoverable ↔ s.WellFormed AnyChar := by
  constructor
  · intro h
    exact ⟨⟨h.size, fun e he => (keptApart_iff.mp (h.keptApart e he)).1⟩,
      fun e he => (h.keptApart e he).listed_listing⟩
  · intro h
    exact ⟨h.size, fun e he => keptApart_iff.mpr ⟨h.listing e he, h.listed e he⟩⟩

theorem text_eq : s.text = unwords
    ((s.streams.entries.map fun e => (e.1, listing e.2)).flatMap
      fun e => [Vocabulary.spelling e.1, e.2]) := by
  rw [text]
  generalize s.streams.entries = es
  induction es with
  | nil => rfl
  | cons e es ih =>
    cases es with
    | nil => simp [listing]
    | cons e' es => simpa [listing, unwords] using ih

/-- Entering the streams of one more direction. -/
theorem add_spelling {m : OrderedMap StreamDirection (List (List Text))} {d : StreamDirection}
    {t : Text} (h : ∀ e ∈ m.entries, (e.1 == d) = false) :
    ∃ m', add m (Vocabulary.spelling d) t = .ok m' ∧ m'.entries = m.entries ++ [(d, listed t)] := by
  have hm := OrderedMap.contains_eq_false_iff.mpr h
  exact ⟨m.insert d (listed t), by simp [add, hm, listed],
    OrderedMap.entries_insert_of_not_contains hm⟩

theorem add_eq_ok {m m' : OrderedMap StreamDirection (List (List Text))} {d t : Text}
    (h : add m d t = .ok m') :
    ∃ k, word d = .ok k ∧ m'.entries = m.entries ++ [(k, listed t)] := by
  obtain ⟨k, hword, h⟩ := bind_eq_ok.mp h
  split at h
  · simp [throw_ne_ok, bind_eq_ok] at h
  · next hk =>
    obtain rfl := pure_eq_ok.mp h
    exact ⟨k, hword, OrderedMap.entries_insert_of_not_contains (by simpa using hk)⟩

theorem wellFormed_of_read (hraw : Over p raw) (h : read raw = .ok s) : s.WellFormed p := by
  obtain ⟨ws, hws, h⟩ := bind_eq_ok.mp h
  have hwords := isWord_of_wordsOf hraw hws
  split at h
  · next d t =>
    obtain ⟨m, hm, h⟩ := bind_eq_ok.mp h
    obtain rfl := pure_eq_ok.mp h
    obtain ⟨k, -, hk⟩ := add_eq_ok hm
    have ht := hwords t (by simp)
    exact ⟨⟨by simp [hk], by simpa [hk] using ht⟩, by simp [hk]⟩
  · next d₁ t₁ d₂ t₂ =>
    obtain ⟨m₁, hm₁, h⟩ := bind_eq_ok.mp h
    obtain ⟨m₂, hm₂, h⟩ := bind_eq_ok.mp h
    obtain rfl := pure_eq_ok.mp h
    obtain ⟨k₁, -, hk₁⟩ := add_eq_ok hm₁
    obtain ⟨k₂, -, hk₂⟩ := add_eq_ok hm₂
    have ht₁ := hwords t₁ (by simp)
    have ht₂ := hwords t₂ (by simp)
    refine ⟨⟨by simp [hk₂, hk₁], ?_⟩, by simp [hk₂, hk₁]⟩
    simpa [hk₂, hk₁] using ⟨ht₁, ht₂⟩
  · simp [throw_ne_ok] at h

/-- One direction or two are read, whatever words list their streams. -/
theorem read_unwords [Alphabet p] {es : List (StreamDirection × Text)}
    (hlen : es.length = 1 ∨ es.length = 2) (hd : es.Pairwise fun a b => (a.1 == b.1) = false)
    (hw : ∀ e ∈ es, IsWord p e.2) :
    ∃ s, read (unwords (es.flatMap fun e => [Vocabulary.spelling e.1, e.2])) = .ok s
      ∧ s.streams.entries = es.map fun e => (e.1, listed e.2) := by
  have hwords : ∀ w ∈ es.flatMap (fun e => [Vocabulary.spelling e.1, e.2]), IsWord p w := by
    intro w hm
    obtain ⟨e, he, hm⟩ := List.mem_flatMap.mp hm
    rcases List.mem_cons.mp hm with rfl | hm
    · exact (Vocabulary.isWord_spelling e.1).of_plain
    · exact List.mem_singleton.mp hm ▸ hw e he
  rcases hlen with hlen | hlen
  · obtain ⟨⟨d, t⟩, rfl⟩ := List.length_eq_one_iff.mp hlen
    have hread : wordsOf 2 _ = .ok _ := wordsOf_unwords (by simp) (by simp) hwords
    obtain ⟨m, hm, hentries⟩ := add_spelling (m := .empty) (d := d) (t := t) (by simp)
    refine ⟨⟨m⟩, ?_, hentries⟩
    rw [read, hread]
    simp [hm]
  · -- the second direction is entered because it differs from the first
    obtain ⟨⟨d₁, t₁⟩, ⟨d₂, t₂⟩, rfl⟩ := List.length_eq_two.mp hlen
    have hread : wordsOf 2 _ = .ok _ := wordsOf_unwords (by simp) (by simp) hwords
    have hne : (d₁ == d₂) = false := by simpa using hd
    obtain ⟨m₁, hm₁, hentries₁⟩ := add_spelling (m := .empty) (d := d₁) (t := t₁) (by simp)
    obtain ⟨m₂, hm₂, hentries₂⟩ := add_spelling (m := m₁) (d := d₂) (t := t₂)
      (by simpa [hentries₁] using hne)
    refine ⟨⟨m₂⟩, ?_, by simp [hentries₂, hentries₁]⟩
    rw [read, hread]
    simp [hm₁, hm₂]

theorem exists_read_text [Alphabet p] (h : s.Legible p) : ∃ s', read s.text = .ok s'
    ∧ s'.streams.entries = s.streams.entries.map fun e => (e.1, listed (listing e.2)) := by
  have hsize : (s.streams.entries.map fun e => (e.1, listing e.2)).length = 1
      ∨ (s.streams.entries.map fun e => (e.1, listing e.2)).length = 2 := by
    simpa using h.size
  have hdistinct : (s.streams.entries.map fun e => (e.1, listing e.2)).Pairwise
      fun a b => (a.1 == b.1) = false := by
    simpa [List.pairwise_map] using s.streams.distinct
  obtain ⟨s', hs', hentries⟩ :=
    read_unwords hsize hdistinct (List.forall_mem_map.mpr h.listing)
  rw [List.map_map] at hentries
  exact ⟨s', by rw [text_eq, hs'], hentries⟩

theorem read_text [Alphabet p] (h : s.WellFormed p) : read s.text = .ok s := by
  obtain ⟨s', hs', hentries⟩ := exists_read_text h.toLegible
  have hsame : s'.streams = s.streams := by
    refine OrderedMap.ext ?_
    rw [hentries, ← List.map_id s.streams.entries, List.map_map]
    exact List.map_congr_left fun e he => Prod.ext rfl (h.listed e he)
  rw [hs']
  exact congrArg (fun m => Except.ok (Simulcast.mk m)) hsame

theorem over_text [Alphabet p] (h : s.Legible p) : Over p s.text := by
  rw [text_eq, over_unwords]
  intro w hw
  obtain ⟨_, hm, hw⟩ := List.mem_flatMap.mp hw
  obtain ⟨e, he, rfl⟩ := List.mem_map.mp hm
  rcases List.mem_cons.mp hw with rfl | hw
  · exact (Vocabulary.isWord_spelling e.1).chars.of_plain
  · exact List.mem_singleton.mp hw ▸ (h.listing e he).chars

end Simulcast

/-! ### Media streams -/

namespace MediaStream

variable {m : MediaStream}

structure WellFormed (p : Char → Prop) (m : MediaStream) : Prop where
  stream : IsWord p m.stream
  track : ∀ t ∈ m.track, t ≠ [] ∧ Over p t

theorem wellFormed_of_read (hraw : Over p raw) (h : read raw = .ok m) : m.WellFormed p := by
  obtain ⟨ws, hws, h⟩ := bind_eq_ok.mp h
  obtain ⟨hwords, hfilled⟩ := isWord_of_wordsUpTo hraw hws
  split at h
  · next stream more =>
    obtain rfl := pure_eq_ok.mp h
    exact ⟨hwords stream (by simp),
      fun t ht => hfilled t (List.mem_cons_of_mem _ (List.mem_of_mem_head? ht))⟩
  · simp [throw_ne_ok] at h

theorem read_text (h : m.WellFormed p) : read m.text = .ok m := by
  have hstream : ∀ w ∈ [m.stream], IsWord p w := by simpa using h.stream
  have hwords : wordsUpTo 1 2 m.text = .ok ([m.stream] ++ m.track.toList) :=
    wordsUpTo_unwords rfl (List.cons_ne_nil _ _) (by simp) hstream fun t ht => (h.track t ht).1
  rw [read, hwords]
  simp

theorem over_text [Alphabet p] (h : m.WellFormed p) : Over p m.text := by
  rw [text, over_unwords, List.forall_mem_cons]
  exact ⟨h.stream.chars, fun w hw => (h.track w (Option.mem_toList.mp hw)).2⟩

end MediaStream

end OfferAnswer
