/-
OfferAnswer/Proofs/Attribute/PairOrder.lean

The order of the pairs of a candidate.

Pairs whose keys differ in more than case are all kept: the value under a
reserved key goes to the place for that key (`Place`), and any other pair is an
extension (`Options.Holds`).  No place is asked for twice then, so reading the pairs comes
to asking which value stands under which key (`foldlM_add_eq_ok_iff`), and the
answer is the same in every order of the pairs.  What the order leaves behind is
the order of the extensions, which equality looks past.
-/
import OfferAnswer.Proofs.Attribute.Map

namespace OfferAnswer.Candidate

open Text Attribute Outcome

variable {raw name key : Text} {c : Candidate} {o : Options} {pair : Text × Text}
  {pairs pairs' : List (Text × Text)}

/-! ### Pairs by their keys -/

/-- Keys that differ in more than case. -/
def KeysDiffer (pairs : List (Text × Text)) : Prop :=
  pairs.Pairwise fun a b => lower a.1 ≠ lower b.1

instance : Decidable (KeysDiffer pairs) :=
  inferInstanceAs (Decidable (pairs.Pairwise fun a b => lower a.1 ≠ lower b.1))

/-- The value of the first pair under a key in lower case. -/
def valueUnder? (key : Text) (pairs : List (Text × Text)) : Option Text :=
  (pairs.find? fun pair => lower pair.1 = key).map Prod.snd

/-- The keys that have a place of their own. -/
def reservedKeys : List Text := ["raddr".toList, "rport".toList, "tcptype".toList]

/-- Whether the key of a pair has no place of its own. -/
def isExtension (pair : Text × Text) : Bool := !reservedKeys.contains (lower pair.1)

theorem isExtension_iff : isExtension pair = true ↔ lower pair.1 ≠ "raddr".toList
    ∧ lower pair.1 ≠ "rport".toList ∧ lower pair.1 ≠ "tcptype".toList := by
  simp [isExtension, reservedKeys]

/-- A pair under a reserved key is no extension. -/
theorem filter_isExtension_concat (h : lower pair.1 ∈ reservedKeys) :
    (pairs ++ [pair]).filter isExtension = pairs.filter isExtension := by
  simp [isExtension, h]

theorem keysDiffer_concat_iff : KeysDiffer (pairs ++ [pair]) ↔
    KeysDiffer pairs ∧ ∀ a ∈ pairs, lower a.1 ≠ lower pair.1 := by
  simp [KeysDiffer, List.pairwise_append]

theorem KeysDiffer.perm (h : KeysDiffer pairs) (hp : pairs'.Perm pairs) : KeysDiffer pairs' :=
  (hp.pairwise_iff fun hab => hab.symm).mpr h

theorem valueUnder?_eq_none (h : ∀ a ∈ pairs, lower a.1 ≠ key) : valueUnder? key pairs = none := by
  rw [valueUnder?, Option.map_eq_none_iff, List.find?_eq_none]
  simpa using h

/-- Where the keys differ, the last pair is the only one under its key. -/
theorem valueUnder?_concat (h : KeysDiffer (pairs ++ [pair])) (key : Text) :
    valueUnder? key (pairs ++ [pair])
      = if lower pair.1 = key then some pair.2 else valueUnder? key pairs := by
  by_cases hkey : lower pair.1 = key
  · have hothers : ∀ a ∈ pairs, lower a.1 ≠ key := by
      intro a ha
      rw [← hkey]
      exact (keysDiffer_concat_iff.mp h).2 a ha
    have hnone : pairs.find? (fun pair => lower pair.1 = key) = none := by simpa using hothers
    rw [valueUnder?, List.find?_append, hnone, if_pos hkey]
    simp [hkey]
  · rw [valueUnder?, List.find?_append, if_neg hkey, valueUnder?]
    simp [hkey]

/-- Where the keys differ, one pair at most stands under a key. -/
theorem KeysDiffer.filter_eq_toList (h : KeysDiffer pairs) (key : Text) :
    pairs.filter (fun pair => lower pair.1 = key)
      = (pairs.find? fun pair => lower pair.1 = key).toList := by
  induction pairs with
  | nil => rfl
  | cons pair pairs ih =>
    obtain ⟨hpair, hpairs⟩ := List.pairwise_cons.mp h
    by_cases hkey : lower pair.1 = key
    · have hothers : pairs.filter (fun pair => lower pair.1 = key) = [] := by
        rw [List.filter_eq_nil_iff]
        intro a ha hak
        exact hpair a ha (hkey.trans (of_decide_eq_true hak).symm)
      simp [hkey, hothers]
    · simp only [hkey, decide_false, List.filter_cons_of_neg, List.find?_cons_of_neg,
        Bool.false_eq_true, not_false_eq_true, ih hpairs]

theorem KeysDiffer.valueUnder?_perm (h : KeysDiffer pairs) (hp : pairs'.Perm pairs) (key : Text) :
    valueUnder? key pairs' = valueUnder? key pairs := by
  have hfilter := hp.filter fun pair => lower pair.1 = key
  rw [(h.perm hp).filter_eq_toList, h.filter_eq_toList] at hfilter
  rw [valueUnder?, valueUnder?]
  generalize pairs'.find? _ = a, pairs.find? _ = b at hfilter
  cases a <;> cases b <;> simp_all

/-- Keys that differ in more than case are different texts. -/
theorem KeysDiffer.distinct (h : KeysDiffer pairs) :
    (pairs.filter isExtension).Pairwise fun a b => (a.1 == b.1) = false := by
  apply OrderedMap.distinct_of_nodup
  rw [List.Nodup, List.pairwise_map]
  exact (List.Pairwise.imp (fun hab he => hab (congrArg lower he)) h).filter isExtension

/-! ### Places -/

/-- A place of options for the value under a reserved key. -/
structure Place (β : Type) where
  key : Text
  read : Text → Except CodecFault β
  get : Options → Option β
  set : Options → Option β → Options
  get_set : ∀ o b, get (set o b) = b
  set_get : ∀ o, set o (get o) = o
  set_set : ∀ o b b', set (set o b) b' = set o b'
  /-- The value of a pair under the key is entered where the place is empty. -/
  add_eq : ∀ o pair, lower pair.1 = key → get o = none →
    o.add pair = (fun b => set o (some b)) <$> read pair.2

namespace Place

def address : Place Text where
  key := "raddr".toList
  read := .ok
  get := Options.relatedAddress
  set o a := { o with relatedAddress := a }
  get_set _ _ := rfl
  set_get _ := rfl
  set_set _ _ _ := rfl
  add_eq o pair hkey hfree := by
    simp only [Options.add, hkey, hfree]
    rfl

def port : Place Int where
  key := "rport".toList
  read := integer (.upTo maxPort)
  get := Options.relatedPort
  set o n := { o with relatedPort := n }
  get_set _ _ := rfl
  set_get _ := rfl
  set_set _ _ _ := rfl
  add_eq o pair hkey hfree := by
    simp only [Options.add, hkey, hfree]
    rfl

def role : Place TcpRole where
  key := "tcptype".toList
  read := word
  get := Options.tcpRole
  set o r := { o with tcpRole := r }
  get_set _ _ := rfl
  set_get _ := rfl
  set_set _ _ _ := rfl
  add_eq o pair hkey hfree := by
    simp only [Options.add, hkey, hfree]
    rfl

variable {β : Type} {p : Place β}

/-- The place has the value under its key, and nothing where there is none. -/
def Filled (p : Place β) (o : Options) (pairs : List (Text × Text)) : Prop :=
  (valueUnder? p.key pairs).mapM p.read = .ok (p.get o)

theorem Filled.perm (h : KeysDiffer pairs) (hp : pairs'.Perm pairs) (hfilled : p.Filled o pairs) :
    p.Filled o pairs' := by
  rw [Filled, h.valueUnder?_perm hp]
  exact hfilled

/-- Where no pair has the key, the place is filled if it is empty. -/
theorem filled_iff_of_ne (h : ∀ a ∈ pairs, lower a.1 ≠ p.key) :
    p.Filled o pairs ↔ p.get o = none := by
  rw [Filled, valueUnder?_eq_none h]
  show Except.ok none = Except.ok (p.get o) ↔ p.get o = none
  rw [Except.ok.injEq, eq_comm]

end Place

/-! ### What options hold -/

/-- Of each reserved key its value, and the pairs under other keys in order. -/
structure Options.Holds (o : Options) (pairs : List (Text × Text)) : Prop where
  address : Place.address.Filled o pairs
  port : Place.port.Filled o pairs
  role : Place.role.Filled o pairs
  extensions : o.extensions.entries = pairs.filter isExtension

theorem Options.holds_nil_iff : o.Holds [] ↔ o = .empty := by
  constructor
  · intro h
    obtain ⟨a, n, r, es⟩ := o
    have haddress : none = a := Except.ok.inj h.address
    have hport : none = n := Except.ok.inj h.port
    have hrole : none = r := Except.ok.inj h.role
    have hextensions : es = .empty := OrderedMap.ext h.extensions
    rw [← haddress, ← hport, ← hrole, hextensions]
    rfl
  · rintro rfl
    exact ⟨rfl, rfl, rfl, rfl⟩

/-! ### One pair more

A pair under a key that no other pair has finds its place empty, or is a new
extension. -/

section Concat

variable {β : Type} (p : Place β) (h : KeysDiffer (pairs ++ [pair]))
include h

theorem Place.filled_concat_of_eq (hkey : lower pair.1 = p.key) :
    p.Filled o (pairs ++ [pair]) ↔ some <$> p.read pair.2 = .ok (p.get o) := by
  rw [Filled, valueUnder?_concat h, if_pos hkey]
  rfl

theorem Place.filled_concat_of_ne (hkey : lower pair.1 ≠ p.key) :
    p.Filled o (pairs ++ [pair]) ↔ p.Filled o pairs := by
  rw [Filled, valueUnder?_concat h, if_neg hkey]
  rfl

theorem Place.lower_ne_key (hkey : lower pair.1 = p.key) : ∀ a ∈ pairs, lower a.1 ≠ p.key := by
  rw [← hkey]
  exact (keysDiffer_concat_iff.mp h).2

theorem Place.filled_set_none (hkey : lower pair.1 = p.key) : p.Filled (p.set o none) pairs :=
  (filled_iff_of_ne (p.lower_ne_key h hkey)).mpr (p.get_set o none)

/-- A pair under the key of a place is held with the others if it can be entered
after them. -/
theorem Place.holds_concat_iff_add (hkey : lower pair.1 = p.key)
    (hbefore : ∀ o' : Options, o'.Holds pairs → p.Filled o' pairs)
    (hsplit : o.Holds (pairs ++ [pair]) ↔
      p.Filled o (pairs ++ [pair]) ∧ (p.set o none).Holds pairs) :
    o.Holds (pairs ++ [pair]) ↔ ∃ o' : Options, o'.Holds pairs ∧ o'.add pair = .ok o := by
  have hfree : ∀ o' : Options, o'.Holds pairs → p.get o' = none := by
    intro o' ho'
    exact (filled_iff_of_ne (p.lower_ne_key h hkey)).mp (hbefore o' ho')
  rw [hsplit, p.filled_concat_of_eq h hkey]
  constructor
  · rintro ⟨hread, ho⟩
    obtain ⟨b, hb, hsome⟩ := map_eq_ok.mp hread
    refine ⟨p.set o none, ho, ?_⟩
    rw [p.add_eq _ pair hkey (p.get_set o none), hb, map_ok, p.set_set, hsome, p.set_get]
  · rintro ⟨o', ho', ho⟩
    rw [p.add_eq o' pair hkey (hfree o' ho')] at ho
    obtain ⟨b, hb, rfl⟩ := map_eq_ok.mp ho
    refine ⟨?_, ?_⟩
    · rw [hb, map_ok, p.get_set]
    · rw [p.set_set, ← hfree o' ho', p.set_get]
      exact ho'

theorem Options.holds_concat_iff_add_of_isExtension (hkey : isExtension pair = true) :
    o.Holds (pairs ++ [pair]) ↔ ∃ o' : Options, o'.Holds pairs ∧ o'.add pair = .ok o := by
  obtain ⟨haddress, hport, hrole⟩ := isExtension_iff.mp hkey
  have hadd : ∀ o' : Options,
      o'.add pair = .ok { o' with extensions := o'.extensions.insert pair.1 pair.2 } := by
    intro o'
    exact add_of_taken ⟨fun he => absurd he haddress, fun he => absurd he hport,
      fun he => absurd he hrole⟩
  have hinsert : ∀ es : OrderedMap Text Text, es.entries = pairs.filter isExtension →
      (es.insert pair.1 pair.2).entries = (pairs ++ [pair]).filter isExtension := by
    intro es hes
    have hnew : es.contains pair.1 = false := by
      rw [OrderedMap.contains_eq_false_iff, hes]
      intro e he
      rw [beq_eq_false_iff_ne]
      intro hkey
      exact (keysDiffer_concat_iff.mp h).2 e (List.mem_of_mem_filter he) (congrArg lower hkey)
    rw [OrderedMap.entries_insert_of_not_contains hnew, hes, List.filter_append]
    simp [hkey]
  constructor
  · intro ho
    have hothers : (OrderedMap.ofList (pairs.filter isExtension)).entries
        = pairs.filter isExtension :=
      OrderedMap.entries_ofList (keysDiffer_concat_iff.mp h).1.distinct
    have hes : (OrderedMap.ofList (pairs.filter isExtension)).insert pair.1 pair.2
        = o.extensions := OrderedMap.ext ((hinsert _ hothers).trans ho.extensions.symm)
    refine ⟨{ o with extensions := .ofList (pairs.filter isExtension) }, ⟨?_, ?_, ?_, hothers⟩, ?_⟩
    · exact (Place.address.filled_concat_of_ne h haddress).mp ho.address
    · exact (Place.port.filled_concat_of_ne h hport).mp ho.port
    · exact (Place.role.filled_concat_of_ne h hrole).mp ho.role
    · rw [hadd, hes]
  · rintro ⟨o', ho', ho⟩
    rw [hadd] at ho
    obtain rfl := Except.ok.inj ho
    refine ⟨?_, ?_, ?_, hinsert _ ho'.extensions⟩
    · exact (Place.address.filled_concat_of_ne h haddress).mpr ho'.address
    · exact (Place.port.filled_concat_of_ne h hport).mpr ho'.port
    · exact (Place.role.filled_concat_of_ne h hrole).mpr ho'.role

/-- A pair with a new key is held with the others if it can be entered after them. -/
theorem Options.holds_concat_iff_add :
    o.Holds (pairs ++ [pair]) ↔ ∃ o' : Options, o'.Holds pairs ∧ o'.add pair = .ok o := by
  by_cases haddress : lower pair.1 = "raddr".toList
  · have hport' := Place.port.filled_concat_of_ne (o := o) h (by rw [haddress]; decide)
    have hrole' := Place.role.filled_concat_of_ne (o := o) h (by rw [haddress]; decide)
    have hplaced : (pairs ++ [pair]).filter isExtension = pairs.filter isExtension :=
      filter_isExtension_concat (by rw [haddress]; decide)
    refine Place.address.holds_concat_iff_add h haddress (fun _ ho' => ho'.address) ⟨?_, ?_⟩
    · intro ho
      exact ⟨ho.address, ⟨Place.address.filled_set_none h haddress, hport'.mp ho.port,
        hrole'.mp ho.role, ho.extensions.trans hplaced⟩⟩
    · rintro ⟨hfilled, ho⟩
      exact ⟨hfilled, hport'.mpr ho.port, hrole'.mpr ho.role, ho.extensions.trans hplaced.symm⟩
  by_cases hport : lower pair.1 = "rport".toList
  · have haddress' := Place.address.filled_concat_of_ne (o := o) h (by rw [hport]; decide)
    have hrole' := Place.role.filled_concat_of_ne (o := o) h (by rw [hport]; decide)
    have hplaced : (pairs ++ [pair]).filter isExtension = pairs.filter isExtension :=
      filter_isExtension_concat (by rw [hport]; decide)
    refine Place.port.holds_concat_iff_add h hport (fun _ ho' => ho'.port) ⟨?_, ?_⟩
    · intro ho
      exact ⟨ho.port, ⟨haddress'.mp ho.address, Place.port.filled_set_none h hport,
        hrole'.mp ho.role, ho.extensions.trans hplaced⟩⟩
    · rintro ⟨hfilled, ho⟩
      exact ⟨haddress'.mpr ho.address, hfilled, hrole'.mpr ho.role,
        ho.extensions.trans hplaced.symm⟩
  by_cases hrole : lower pair.1 = "tcptype".toList
  · have haddress' := Place.address.filled_concat_of_ne (o := o) h (by rw [hrole]; decide)
    have hport' := Place.port.filled_concat_of_ne (o := o) h (by rw [hrole]; decide)
    have hplaced : (pairs ++ [pair]).filter isExtension = pairs.filter isExtension :=
      filter_isExtension_concat (by rw [hrole]; decide)
    refine Place.role.holds_concat_iff_add h hrole (fun _ ho' => ho'.role) ⟨?_, ?_⟩
    · intro ho
      exact ⟨ho.role, ⟨haddress'.mp ho.address, hport'.mp ho.port,
        Place.role.filled_set_none h hrole, ho.extensions.trans hplaced⟩⟩
    · rintro ⟨hfilled, ho⟩
      exact ⟨haddress'.mpr ho.address, hport'.mpr ho.port, hfilled,
        ho.extensions.trans hplaced.symm⟩
  exact holds_concat_iff_add_of_isExtension h (isExtension_iff.mpr ⟨haddress, hport, hrole⟩)

end Concat

/-- Reading pairs comes to asking which value stands under which key. -/
theorem Options.foldlM_add_eq_ok_iff (h : KeysDiffer pairs) :
    pairs.foldlM add .empty = .ok o ↔ o.Holds pairs := by
  induction pairs using List.reverseRecOn generalizing o with
  | nil => rw [List.foldlM_nil, pure_eq_ok, holds_nil_iff, eq_comm]
  | append_singleton pairs pair ih =>
    have hpairs := (keysDiffer_concat_iff.mp h).1
    simp only [List.foldlM_append, List.foldlM_cons, List.foldlM_nil, bind_pure, bind_eq_ok,
      ih hpairs, holds_concat_iff_add h]

/-- The options that hold the same pairs in another order. -/
def Options.reordered (o : Options) (pairs : List (Text × Text)) : Options :=
  { o with extensions := .ofList (pairs.filter isExtension) }

theorem Options.Holds.reordered (h : KeysDiffer pairs) (hp : pairs'.Perm pairs)
    (ho : o.Holds pairs) : (o.reordered pairs').Holds pairs' where
  address := ho.address.perm h hp
  port := ho.port.perm h hp
  role := ho.role.perm h hp
  extensions := OrderedMap.entries_ofList (h.perm hp).distinct

theorem Options.Holds.reordered_beq (h : KeysDiffer pairs) (hp : pairs'.Perm pairs)
    (ho : o.Holds pairs) : (o.reordered pairs' == o) = true := by
  refine beq_iff.mpr ⟨rfl, rfl, rfl, OrderedMap.beq_of_perm ?_⟩
  rw [(ho.reordered h hp).extensions, ho.extensions]
  exact hp.filter isExtension

/-! ### Every pair once -/

/-- What is kept of a pair. -/
inductive Part where
  | relatedAddress (address : Text)
  | relatedPort (port : Int)
  | tcpRole (role : TcpRole)
  | extension (key value : Text)

/-- Whether this is what is kept of a pair. -/
inductive Part.KeptOf : Part → Text × Text → Prop
  | relatedAddress {pair : Text × Text} (hkey : lower pair.1 = "raddr".toList) :
    KeptOf (.relatedAddress pair.2) pair
  | relatedPort {pair : Text × Text} {port : Int} (hkey : lower pair.1 = "rport".toList)
    (hport : integer (.upTo maxPort) pair.2 = .ok port) : KeptOf (.relatedPort port) pair
  | tcpRole {pair : Text × Text} {role : TcpRole} (hkey : lower pair.1 = "tcptype".toList)
    (hrole : word pair.2 = .ok role) : KeptOf (.tcpRole role) pair
  | extension {pair : Text × Text} (hkey : lower pair.1 ∉ reservedKeys) :
    KeptOf (.extension pair.1 pair.2) pair

/-- All that options keep. -/
def Options.parts (o : Options) : List Part :=
  o.relatedAddress.toList.map .relatedAddress ++ (o.relatedPort.toList.map .relatedPort
    ++ (o.tcpRole.toList.map .tcpRole ++ o.extensions.entries.map fun e => .extension e.1 e.2))

/-- Each part is kept of one pair, and each pair is kept as one part. -/
def Options.KeepsOnce (o : Options) (pairs : List (Text × Text)) : Prop :=
  ∃ ps, ps.Perm pairs ∧ List.Forall₂ Part.KeptOf o.parts ps

/-- Every pair has one of the reserved keys or is an extension. -/
theorem perm_by_keys (pairs : List (Text × Text)) :
    (pairs.filter (fun pair => lower pair.1 = "raddr".toList)
      ++ (pairs.filter (fun pair => lower pair.1 = "rport".toList)
        ++ (pairs.filter (fun pair => lower pair.1 = "tcptype".toList)
          ++ pairs.filter isExtension))).Perm pairs := by
  rw [List.perm_iff_count]
  intro pair
  have hcount : ∀ p : Text × Text → Bool,
      (pairs.filter p).count pair = if p pair = true then pairs.count pair else 0 := by
    intro p
    split
    · next hp => exact List.count_filter hp
    · next hp => exact List.count_eq_zero.mpr fun hm => hp (List.of_mem_filter hm)
  simp only [List.count_append, hcount, decide_eq_true_eq, isExtension_iff]
  split_ifs <;> simp_all

/-- A place is filled from the pair under its key. -/
theorem Place.Filled.forall₂ {β : Type} {p : Place β} (h : p.Filled o pairs) :
    List.Forall₂ (fun b pair => lower pair.1 = p.key ∧ p.read pair.2 = .ok b) (p.get o).toList
      (pairs.find? fun pair => lower pair.1 = p.key).toList := by
  rw [Filled, valueUnder?] at h
  cases hfind : pairs.find? fun pair => lower pair.1 = p.key with
  | none =>
    rw [hfind] at h
    have hnone : none = p.get o := Except.ok.inj h
    rw [← hnone]
    exact .nil
  | some pair =>
    rw [hfind] at h
    obtain ⟨b, hb, hsome⟩ := map_eq_ok.mp h
    have hkey : lower pair.1 = p.key := by simpa using List.find?_some hfind
    rw [← hsome]
    exact .cons ⟨hkey, hb⟩ .nil

theorem Options.Holds.keepsOnce (h : KeysDiffer pairs) (ho : o.Holds pairs) :
    o.KeepsOnce pairs := by
  refine ⟨_, perm_by_keys pairs, ?_⟩
  rw [h.filter_eq_toList, h.filter_eq_toList, h.filter_eq_toList, parts]
  apply List.rel_append
  · rw [List.forall₂_map_left_iff]
    refine ho.address.forall₂.imp fun a pair hpair => ?_
    obtain ⟨hkey, hvalue⟩ := hpair
    rw [← Except.ok.inj hvalue]
    exact .relatedAddress hkey
  apply List.rel_append
  · rw [List.forall₂_map_left_iff]
    exact ho.port.forall₂.imp fun n pair hpair => .relatedPort hpair.1 hpair.2
  apply List.rel_append
  · rw [List.forall₂_map_left_iff]
    exact ho.role.forall₂.imp fun r pair hpair => .tcpRole hpair.1 hpair.2
  · rw [List.forall₂_map_left_iff, ho.extensions, List.forall₂_same]
    intro pair hpair
    exact .extension (by simpa [isExtension] using List.of_mem_filter hpair)

/-! ### Values -/

/-- The pairs behind the kind of a candidate. -/
def optionalPairs (raw : Text) : List (Text × Text) := (pairs? ((words raw).drop 8)).getD []

/-- The value with other pairs behind the kind. -/
def withPairs (raw : Text) (pairs : List (Text × Text)) : Text :=
  unwords ((words raw).take 8 ++ pairWords pairs)

/-- The words in front of the pairs, as written. -/
def firstWords (c : Candidate) : List Text :=
  [c.foundation, Decimal.text c.component, Vocabulary.spelling c.transport,
    Decimal.text c.priority, c.address, Decimal.text c.port, "typ".toList, c.kind.text]

/-- The pairs that are written in front of the extensions. -/
def Options.placed (o : Options) : List (Text × Text) :=
  (o.relatedAddress.map fun address => ("raddr".toList, address)).toList
    ++ (o.relatedPort.map fun port => ("rport".toList, Decimal.text port)).toList
    ++ (o.tcpRole.map fun role => ("tcptype".toList, Vocabulary.spelling role)).toList

/-- The pairs are read apart from the words in front of them. -/
theorem read_apart (h : read raw = .ok c) :
    words raw = (words raw).take 8 ++ pairWords (optionalPairs raw)
    ∧ (optionalPairs raw).foldlM Options.add .empty = .ok c.options
    ∧ ∀ pairs o, wordsOf 8 (withPairs raw pairs) = .ok ((words raw).take 8 ++ pairWords pairs) →
      pairs.foldlM Options.add .empty = .ok o →
      read (withPairs raw pairs) = .ok { c with options := o } := by
  obtain ⟨ws, hws, h⟩ := bind_eq_ok.mp h
  obtain ⟨rfl, -, -⟩ := enough_eq_ok_iff.mp hws
  split at h
  · next foundation component transport priority address port typ kind rest hraw =>
    split at h
    · split at h <;> simp [throw_ne_ok, bind_eq_ok] at h
    · next pairs hpairs =>
      split at h
      · simp [throw_ne_ok, bind_eq_ok] at h
      · next htyp =>
        simp only [bind_eq_ok] at h
        obtain ⟨o, ho, n, hn, t, ht, i, hi, q, hq, h⟩ := h
        obtain rfl := pure_eq_ok.mp h
        have hoptional : optionalPairs raw = pairs := by
          rw [optionalPairs, hraw]
          show (pairs? rest).getD [] = pairs
          rw [hpairs]
          rfl
        refine ⟨?_, hoptional ▸ ho, fun pairs' o' hws' ho' => ?_⟩
        · rw [hoptional, pairWords_of_pairs? hpairs, hraw]
          rfl
        · rw [read, hws', hraw]
          simp only [List.take_succ_cons, List.take_zero, List.cons_append, List.nil_append,
            ok_bind, htyp, ↓reduceIte, pairs?_pairWords, ho', hn, ht, hi, hq]
          rfl
  · simp [throw_ne_ok] at h

/-- The words stay words in another order of the pairs. -/
theorem wordsOf_withPairs (h : read raw = .ok c) (hp : pairs.Perm (optionalPairs raw)) :
    wordsOf 8 (withPairs raw pairs) = .ok ((words raw).take 8 ++ pairWords pairs) := by
  obtain ⟨hsplit, -, -⟩ := read_apart h
  obtain ⟨ws, hws, -⟩ := bind_eq_ok.mp h
  have hwords := isWord_of_wordsOf over_anyChar hws
  obtain ⟨rfl, hlength, -⟩ := enough_eq_ok_iff.mp hws
  have hpairs : ∀ w ∈ pairWords pairs, IsWord AnyChar w := by
    intro w hw
    apply hwords w
    rw [hsplit]
    exact List.mem_append_right _ ((hp.flatMap_right _).mem_iff.mp hw)
  have htake : ((words raw).take 8).length = 8 := by
    rw [List.length_take, Nat.min_eq_left hlength]
  apply wordsOf_unwords (p := AnyChar)
  · rw [List.length_append, htake]
    exact Nat.le_add_right 8 _
  · intro hnil
    rw [(List.append_eq_nil_iff.mp hnil).1] at htake
    exact absurd htake (by decide)
  · exact List.forall_mem_append.mpr ⟨fun w hw => hwords w (List.mem_of_mem_take hw), hpairs⟩

/-- A candidate is what is read behind the name of candidates, in whatever case. -/
theorem ofText_eq_candidate_iff (hname : ':' ∉ name) :
    Attribute.ofText (name ++ ':' :: raw) = .ok (.candidate c)
      ↔ Vocabulary.find? name = some Kind.candidate ∧ read raw = .ok c := by
  have hcut : Attribute.ofText (name ++ ':' :: raw) = ofNameValue name (some raw) := by
    rw [Attribute.ofText, cut_append hname]
  rw [hcut]
  constructor
  · intro h
    have hkind : Vocabulary.find? name = some Kind.candidate := (kind?_of_ofNameValue h).1.symm
    refine ⟨hkind, ?_⟩
    unfold ofNameValue at h
    split at h
    · simp at h
    · simp only [hkind] at h
      obtain ⟨c', hread, hc⟩ := map_eq_ok.mp (mapError_eq_ok.mp h)
      rw [hread, Attribute.candidate.inj hc]
  · rintro ⟨hkind, hread⟩
    have hne : name ≠ [] := by
      rintro rfl
      exact absurd hkind (by decide)
    unfold ofNameValue
    rw [if_neg hne]
    simp only [hkind]
    exact mapError_eq_ok.mpr (map_eq_ok.mpr ⟨c, hread, rfl⟩)

/-- The pairs behind the kind of a candidate can stand in any order, if their keys
differ in more than case: every order is accepted and gives an equal candidate.
Each pair is kept once, and written are those with a place of their own first, and
then the extensions in the order in which they came. -/
theorem ofText_permuted (hname : ':' ∉ name)
    (h : Attribute.ofText (name ++ ':' :: raw) = .ok (.candidate c)) :
    withPairs raw (optionalPairs raw) = raw
    ∧ (KeysDiffer (optionalPairs raw) → ∀ pairs, pairs.Perm (optionalPairs raw) → ∃ c',
      Attribute.ofText (name ++ ':' :: withPairs raw pairs) = .ok (.candidate c')
        ∧ (Attribute.candidate c' == .candidate c) = true
        ∧ c'.options.KeepsOnce pairs
        ∧ (Attribute.candidate c').text = "candidate".toList ++ ':' :: unwords
          (c'.firstWords ++ pairWords (c'.options.placed ++ pairs.filter isExtension))) := by
  obtain ⟨hkind, hread⟩ := (ofText_eq_candidate_iff hname).mp h
  obtain ⟨hsplit, hoptions, hother⟩ := read_apart hread
  refine ⟨?_, fun hkeys pairs hp => ?_⟩
  · rw [withPairs, ← hsplit, unwords_words]
  · have hholds : c.options.Holds (optionalPairs raw) :=
      (Options.foldlM_add_eq_ok_iff hkeys).mp hoptions
    have hholds' := hholds.reordered hkeys hp
    have hkeys' := hkeys.perm hp
    refine ⟨{ c with options := c.options.reordered pairs }, ?_, ?_, ?_, ?_⟩
    · exact (ofText_eq_candidate_iff hname).mpr ⟨hkind, hother pairs _ (wordsOf_withPairs hread hp)
        ((Options.foldlM_add_eq_ok_iff hkeys').mpr hholds')⟩
    · have hequal : ({ c with options := c.options.reordered pairs } == c) = true :=
        Candidate.beq_iff.mpr ⟨rfl, rfl, rfl, rfl, rfl, rfl, BEq.rfl,
          hholds.reordered_beq hkeys hp⟩
      exact (Attribute.Similar.candidate hequal).beq
    · exact hholds'.keepsOnce hkeys'
    · have hpairs : (c.options.reordered pairs).pairs
          = (c.options.reordered pairs).placed ++ pairs.filter isExtension := by
        rw [← hholds'.extensions]
        rfl
      rw [← hpairs]
      rfl

/-- The pairs of a relayed candidate the other way round. -/
theorem ofText_permuted_sample :
    let raw := "1 1 udp 9 192.0.2.7 3478 typ relay generation 0 RPort 9 raddr 10.0.0.2".toList
    let pairs := [("raddr".toList, "10.0.0.2".toList), ("RPort".toList, ['9']),
      ("generation".toList, ['0'])]
    ':' ∉ "Candidate".toList ∧ KeysDiffer (optionalPairs raw) ∧ pairs.Perm (optionalPairs raw)
    ∧ withPairs raw pairs
      = "1 1 udp 9 192.0.2.7 3478 typ relay raddr 10.0.0.2 RPort 9 generation 0".toList
    ∧ ∃ c c', Attribute.ofText ("Candidate".toList ++ ':' :: raw) = .ok (.candidate c)
      ∧ Attribute.ofText ("Candidate".toList ++ ':' :: withPairs raw pairs) = .ok (.candidate c')
      ∧ (Attribute.candidate c' == .candidate c) = true ∧ c'.options.KeepsOnce pairs := by
  intro raw pairs
  have hname : ':' ∉ "Candidate".toList := by decide
  have hkeys : KeysDiffer (optionalPairs raw) := by decide +kernel
  have hp : pairs.Perm (optionalPairs raw) := by decide +kernel
  obtain ⟨c, hc⟩ : ∃ c, Attribute.ofText ("Candidate".toList ++ ':' :: raw) = .ok (.candidate c) :=
    ⟨_, rfl⟩
  obtain ⟨c', hc', hequal, honce, -⟩ := (ofText_permuted hname hc).2 hkeys pairs hp
  exact ⟨hname, hkeys, hp, by decide +kernel, c, c', hc, hc', hequal, honce⟩

end OfferAnswer.Candidate
