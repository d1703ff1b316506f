/-
OfferAnswer/Proofs/Attribute/Candidate.lean

Candidates, written and read again.

A pair under one of the three reserved keys is an extension only if the place
for that key is already taken (`Options.WellFormed.reserved`).  Written, the
places come first, so reading fills them before it meets the extensions, and
every extension is an extension again.
-/
import OfferAnswer.Attribute.Candidate
import OfferAnswer.Proofs.Attribute.Codec
import OfferAnswer.Proofs.OrderedMap

namespace OfferAnswer.Candidate

open Text Attribute Outcome

variable {p : Char → Prop} {raw : Text} {c : Candidate} {o o' : Options} {pair : Text × Text}
  {pairs : List (Text × Text)} {ws : List Text}

/-! ### Pairs -/

/-- The words of some pairs. -/
def pairWords (pairs : List (Text × Text)) : List Text :=
  pairs.flatMap fun pair => [pair.1, pair.2]

theorem pairs?_pairWords (pairs : List (Text × Text)) : pairs? (pairWords pairs) = some pairs := by
  induction pairs with
  | nil => rfl
  | cons pair pairs ih =>
    show (fun rest => pair :: rest) <$> pairs? (pairWords pairs) = _
    rw [ih]
    rfl

theorem pairWords_of_pairs? (h : pairs? ws = some pairs) : pairWords pairs = ws := by
  induction ws using pairs?.induct generalizing pairs with
  | case1 =>
    obtain rfl : [] = pairs := by simpa [pairs?] using h
    rfl
  | case2 w => simp [pairs?] at h
  | case3 key value rest ih =>
    obtain ⟨others, hrest, rfl⟩ := Option.map_eq_some_iff.mp h
    show key :: value :: pairWords others = _
    rw [ih hrest]

theorem mem_pairWords (h : pair ∈ pairs) : pair.1 ∈ pairWords pairs ∧ pair.2 ∈ pairWords pairs :=
  ⟨List.mem_flatMap.mpr ⟨pair, h, by simp⟩, List.mem_flatMap.mpr ⟨pair, h, by simp⟩⟩

theorem forall_mem_pairWords {P : Text → Prop} :
    (∀ w ∈ pairWords pairs, P w) ↔ ∀ pair ∈ pairs, P pair.1 ∧ P pair.2 := by
  refine ⟨fun h pair hp => ⟨h _ (mem_pairWords hp).1, h _ (mem_pairWords hp).2⟩, fun h w hw => ?_⟩
  obtain ⟨pair, hp, hw⟩ := List.mem_flatMap.mp hw
  rcases List.mem_cons.mp hw with rfl | hw
  · exact (h pair hp).1
  · exact List.mem_singleton.mp hw ▸ (h pair hp).2

/-! ### Optional parts -/

/-- Whether a key has no place of its own left. -/
def Options.Taken (o : Options) (key : Text) : Prop :=
  (lower key = "raddr".toList → o.relatedAddress.isSome)
    ∧ (lower key = "rport".toList → o.relatedPort.isSome)
    ∧ (lower key = "tcptype".toList → o.tcpRole.isSome)

structure Options.WellFormed (p : Char → Prop) (o : Options) : Prop where
  relatedAddress : ∀ a ∈ o.relatedAddress, IsWord p a
  relatedPort : ∀ n ∈ o.relatedPort, Decimal.Fits (.upTo maxPort) n
  extensions : ∀ e ∈ o.extensions.entries, (IsWord p e.1 ∧ o.Taken e.1) ∧ IsWord p e.2

theorem Options.wellFormed_empty : Options.empty.WellFormed p :=
  ⟨by simp [empty], by simp [empty], by simp [empty]⟩

/-- What is taken stays taken. -/
theorem Options.Taken.mono {key : Text} (h : o.Taken key)
    (ha : o.relatedAddress.isSome → o'.relatedAddress.isSome)
    (hp : o.relatedPort.isSome → o'.relatedPort.isSome)
    (hr : o.tcpRole.isSome → o'.tcpRole.isSome) : o'.Taken key :=
  ⟨fun he => ha (h.1 he), fun he => hp (h.2.1 he), fun he => hr (h.2.2 he)⟩

theorem Options.WellFormed.add (h : o.WellFormed p) (hkey : IsWord p pair.1)
    (hvalue : IsWord p pair.2) (hadd : o.add pair = .ok o') : o'.WellFormed p := by
  unfold Options.add at hadd
  simp only at hadd
  split at hadd
  · -- raddr: all that was taken stays taken, here as in the next two cases
    obtain rfl := Except.ok.inj hadd
    refine ⟨by simpa using hvalue, h.relatedPort, fun e he => ?_⟩
    obtain ⟨⟨hk, ht⟩, hv⟩ := h.extensions e he
    exact ⟨⟨hk, ht.mono (fun _ => rfl) id id⟩, hv⟩
  · next haddress =>
    split at hadd
    · -- rport
      obtain ⟨n, hn, hadd⟩ := bind_eq_ok.mp hadd
      obtain rfl := pure_eq_ok.mp hadd
      refine ⟨h.relatedAddress, by simpa using fits_of_integer hn, fun e he => ?_⟩
      obtain ⟨⟨hk, ht⟩, hv⟩ := h.extensions e he
      exact ⟨⟨hk, ht.mono id (fun _ => rfl) id⟩, hv⟩
    · next hport =>
      split at hadd
      · -- tcptype
        obtain ⟨r, -, hadd⟩ := bind_eq_ok.mp hadd
        obtain rfl := pure_eq_ok.mp hadd
        refine ⟨h.relatedAddress, h.relatedPort, fun e he => ?_⟩
        obtain ⟨⟨hk, ht⟩, hv⟩ := h.extensions e he
        exact ⟨⟨hk, ht.mono id id fun _ => rfl⟩, hv⟩
      · next hrole =>
        -- no place was free for the key, so it is an extension and taken
        obtain rfl := Except.ok.inj hadd
        have htaken : o.Taken pair.1 := by
          simp only [not_and, Option.isNone_iff_eq_none, ← Option.isSome_iff_ne_none]
            at haddress hport hrole
          exact ⟨haddress, hport, hrole⟩
        refine ⟨h.relatedAddress, h.relatedPort, ?_⟩
        exact OrderedMap.forall_insert (P := fun k v => (IsWord p k ∧ o.Taken k) ∧ IsWord p v)
          h.extensions ⟨⟨hkey, htaken⟩, hvalue⟩ fun _ _ _ hj => ⟨hj.1, hvalue⟩

/-- A place that is taken is not empty. -/
theorem not_and_isNone {α : Type} {q : Prop} {x : Option α} (h : q → x.isSome) :
    ¬ (q ∧ x.isNone) := by
  rintro ⟨hq, hn⟩
  simp [Option.isNone_iff_eq_none.mp hn] at h
  exact h hq

/-- An extension is entered as one. -/
theorem Options.add_of_taken (h : o.Taken pair.1) :
    o.add pair = .ok { o with extensions := o.extensions.insert pair.1 pair.2 } := by
  obtain ⟨ha, hp, hr⟩ := h
  simp only [Options.add, not_and_isNone ha, not_and_isNone hp, not_and_isNone hr, ↓reduceIte]

theorem Options.foldlM_add_of_taken (h : ∀ pair ∈ pairs, o.Taken pair.1) :
    pairs.foldlM add o = .ok { o with
      extensions := pairs.foldl (fun m pair => m.insert pair.1 pair.2) o.extensions } := by
  induction pairs generalizing o with
  | nil => rfl
  | cons pair pairs ih =>
    have hrest : ∀ e ∈ pairs, (⟨o.relatedAddress, o.relatedPort, o.tcpRole,
        o.extensions.insert pair.1 pair.2⟩ : Options).Taken e.1 := fun e he =>
      (h e (List.mem_cons_of_mem _ he)).mono id id id
    rw [List.foldlM_cons, add_of_taken (h pair (by simp)), ok_bind, ih hrest]
    rfl

theorem Options.foldlM_add_address (a : Option Text) {n : Option Int} {r : Option TcpRole}
    {es : OrderedMap Text Text} :
    (a.map fun a => ("raddr".toList, a)).toList.foldlM add ⟨none, n, r, es⟩
      = .ok ⟨a, n, r, es⟩ := by
  have hlower : lower ['r', 'a', 'd', 'd', 'r'] = ['r', 'a', 'd', 'd', 'r'] := by decide
  cases a with
  | none => rfl
  | some a => simp [Options.add, hlower]

theorem Options.foldlM_add_port (t : Option Text) {a : Option Text} {r : Option TcpRole}
    {es : OrderedMap Text Text} :
    (t.map fun t => ("rport".toList, t)).toList.foldlM add ⟨a, none, r, es⟩
      = (fun n => ⟨a, n, r, es⟩) <$> t.mapM (integer (.upTo maxPort)) := by
  have hlower : lower ['r', 'p', 'o', 'r', 't'] = ['r', 'p', 'o', 'r', 't'] := by decide
  cases t with
  | none => rfl
  | some t => cases h : integer (.upTo maxPort) t <;> simp [Options.add, hlower, h]

theorem Options.foldlM_add_role (t : Option Text) {a : Option Text} {n : Option Int}
    {es : OrderedMap Text Text} :
    (t.map fun t => ("tcptype".toList, t)).toList.foldlM add ⟨a, n, none, es⟩
      = (fun r => ⟨a, n, r, es⟩) <$> t.mapM word := by
  have hlower : lower ['t', 'c', 'p', 't', 'y', 'p', 'e']
      = ['t', 'c', 'p', 't', 'y', 'p', 'e'] := by decide
  cases t with
  | none => rfl
  | some t => cases h : (word t : Except CodecFault TcpRole) <;> simp [Options.add, hlower, h]

theorem Options.foldlM_add_pairs (h : o.WellFormed p) : o.pairs.foldlM add .empty = .ok o := by
  obtain ⟨a, n, r, es⟩ := o
  have hport : (n.map Decimal.text).mapM (integer (.upTo maxPort)) = .ok n :=
    optionMapM_map fun i hi => integer_text (h.relatedPort i hi)
  have hrole : (r.map Vocabulary.spelling).mapM word = .ok r :=
    optionMapM_map fun k _ => word_spelling k
  -- The places are written first, so they are filled before the extensions are met.
  have htaken : ∀ e ∈ es.entries, (⟨a, n, r, .empty⟩ : Options).Taken e.1 := fun e he =>
    (h.extensions e he).1.2.mono id id id
  have hpairs : pairs ⟨a, n, r, es⟩ = (a.map fun t => ("raddr".toList, t)).toList
      ++ ((n.map Decimal.text).map fun t => ("rport".toList, t)).toList
      ++ ((r.map Vocabulary.spelling).map fun t => ("tcptype".toList, t)).toList
      ++ es.entries := by
    simp only [pairs, Option.map_map, Function.comp_def]
  rw [hpairs]
  simp only [empty, List.foldlM_append, foldlM_add_address, ok_bind, foldlM_add_port, hport,
    foldlM_add_role, hrole, map_ok, foldlM_add_of_taken htaken]
  exact congrArg (fun es => Except.ok (Options.mk a n r es)) es.ofList_entries

theorem Options.isWord_of_mem_pairs [Alphabet p] (h : o.WellFormed p) :
    ∀ w ∈ pairWords o.pairs, IsWord p w := by
  rw [forall_mem_pairWords]
  have hkey : ∀ key ∈ ["raddr".toList, "rport".toList, "tcptype".toList], IsWord p key := by
    intro key hkey
    have hplain : isPlainWord key = true := by
      revert key
      decide
    exact (isPlainWord_iff.mp hplain).1.of_plain
  intro pair hp
  simp only [pairs, List.mem_append, Option.mem_toList, Option.map_eq_some_iff] at hp
  rcases hp with ((⟨a, ha, rfl⟩ | ⟨n, -, rfl⟩) | ⟨r, -, rfl⟩) | hp
  · exact ⟨hkey _ (by simp), h.relatedAddress a ha⟩
  · exact ⟨hkey _ (by simp), (Decimal.isWord_text n).of_plain⟩
  · exact ⟨hkey _ (by simp), (Vocabulary.isWord_spelling r).of_plain⟩
  · exact ⟨(h.extensions pair hp).1.1, (h.extensions pair hp).2⟩

/-! ### Candidates -/

structure WellFormed (p : Char → Prop) (c : Candidate) : Prop where
  foundation : IsWord p c.foundation
  component : Decimal.Fits (.upTo maxPort) c.component
  priority : Decimal.Fits (.upTo max32) c.priority
  address : IsWord p c.address
  port : Decimal.Fits (.upTo maxPort) c.port
  kind_canonical : c.kind.IsCanonical
  kind : IsWord p c.kind.text
  options : c.options.WellFormed p

theorem wellFormed_of_read [Alphabet p] (hraw : Over p raw) (h : read raw = .ok c) :
    c.WellFormed p := by
  obtain ⟨ws, hws, h⟩ := bind_eq_ok.mp h
  have hwords := isWord_of_wordsOf hraw hws
  split at h
  · next foundation component transport priority address port typ kind rest =>
    split at h
    · split at h <;> simp [throw_ne_ok, bind_eq_ok] at h
    · next pairs hpairs =>
      split at h
      · simp [throw_ne_ok, bind_eq_ok] at h
      · simp only [bind_eq_ok] at h
        obtain ⟨o, ho, n, hn, t, -, i, hi, q, hq, h⟩ := h
        obtain rfl := pure_eq_ok.mp h
        -- The options are made of the words that are left, two by two.
        have hpairWords : ∀ pair ∈ pairs, IsWord p pair.1 ∧ IsWord p pair.2 := by
          rw [← forall_mem_pairWords, pairWords_of_pairs? hpairs]
          exact fun w hw => hwords w (by simp [hw])
        exact {
          foundation := hwords foundation (by simp)
          component := fits_of_integer hn
          priority := fits_of_integer hi
          address := hwords address (by simp)
          port := fits_of_integer hq
          kind_canonical := Token.isCanonical_ofText kind
          kind := Token.isWord_text_ofText (hwords kind (by simp))
          options := foldlM_induction ho Options.wellFormed_empty fun o pair o' hp hwf hadd =>
            hwf.add (hpairWords pair hp).1 (hpairWords pair hp).2 hadd }
  · simp [throw_ne_ok] at h

/-- What is read again when it has been written, but for the spelling of the
kind. -/
structure Recoverable (p : Char → Prop) (c : Candidate) : Prop where
  foundation : IsWord p c.foundation
  component : Decimal.Fits (.upTo maxPort) c.component
  priority : Decimal.Fits (.upTo max32) c.priority
  address : IsWord p c.address
  port : Decimal.Fits (.upTo maxPort) c.port
  kind : IsWord p c.kind.text
  options : c.options.WellFormed p

theorem WellFormed.recoverable (h : c.WellFormed p) : c.Recoverable p :=
  ⟨h.foundation, h.component, h.priority, h.address, h.port, h.kind, h.options⟩

/-- With the kind as it is read from its own text. -/
def settled (c : Candidate) : Candidate := { c with kind := .ofText c.kind.text }

/-- The words as written. -/
def textWords (c : Candidate) : List Text :=
  [c.foundation, Decimal.text c.component, Vocabulary.spelling c.transport,
    Decimal.text c.priority, c.address, Decimal.text c.port, "typ".toList, c.kind.text]
  ++ pairWords c.options.pairs

theorem isWord_of_mem_textWords [Alphabet p] (h : c.Recoverable p) :
    ∀ w ∈ c.textWords, IsWord p w := by
  have htyp : IsWord p "typ".toList := (isPlainWord_iff.mp (by decide)).1.of_plain
  intro w hw
  rcases List.mem_append.mp hw with hw | hw
  · simp only [List.mem_cons, List.not_mem_nil, or_false] at hw
    rcases hw with rfl | rfl | rfl | rfl | rfl | rfl | rfl | rfl
    exacts [h.foundation, (Decimal.isWord_text _).of_plain,
      (Vocabulary.isWord_spelling _).of_plain, (Decimal.isWord_text _).of_plain, h.address,
      (Decimal.isWord_text _).of_plain, htyp, h.kind]
  · exact Options.isWord_of_mem_pairs h.options w hw

theorem read_text_of_recoverable [Alphabet p] (h : c.Recoverable p) :
    read c.text = .ok c.settled := by
  have hwords : wordsOf 8 c.text = .ok c.textWords :=
    wordsOf_unwords (by simp) (List.cons_ne_nil _ _) (isWord_of_mem_textWords h)
  have htyp : ¬ lower "typ".toList ≠ "typ".toList := by decide
  rw [read, hwords]
  simp only [textWords, List.cons_append, List.nil_append, ok_bind, htyp, ↓reduceIte,
    pairs?_pairWords, Options.foldlM_add_pairs h.options, integer_text h.component,
    integer_text h.priority, integer_text h.port, word_spelling]
  rfl

theorem read_text [Alphabet p] (h : c.WellFormed p) : read c.text = .ok c := by
  rw [read_text_of_recoverable h.recoverable, settled, h.kind_canonical.eq]

theorem over_text [Alphabet p] (h : c.WellFormed p) : Over p c.text :=
  over_unwords.mpr fun w hw => (isWord_of_mem_textWords h.recoverable w hw).chars

end OfferAnswer.Candidate
