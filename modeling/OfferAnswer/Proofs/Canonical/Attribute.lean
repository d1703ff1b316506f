/-
OfferAnswer/Proofs/Canonical/Attribute.lean

Attributes that are written as they were read.

The value of an attribute is taken apart into words, and writing joins these
words again; so the text comes back if every word does that is read as a
number, as a registered word or as octets (`isCanonical`, kind by kind).  Words
that are kept as they are may be anything.
-/
import OfferAnswer.Proofs.Attribute.Basic
import OfferAnswer.Proofs.Canonical.Value

namespace OfferAnswer

open Text Attribute Outcome Vocabulary

variable {raw t : Text}

/-! ### Words and single values -/

namespace Attribute

variable {least most : Nat} {ws : List Text}

/-- The words of a value make up the value. -/
theorem unwords_of_wordsOf (h : wordsOf least raw = .ok ws) :
    words raw = ws ∧ unwords ws = raw := by
  obtain ⟨rfl, -⟩ := enough_eq_ok_iff.mp h
  exact ⟨rfl, unwords_words raw⟩

theorem unwords_of_wordsUpTo (h : wordsUpTo least most raw = .ok ws) :
    splitAtMost ' ' (most - 1) raw = ws ∧ unwords ws = raw := by
  obtain ⟨rfl, -⟩ := enough_eq_ok_iff.mp h
  exact ⟨rfl, intercalate_splitAtMost ' ' _ raw⟩

theorem text_of_integer {b : Decimal.Bounds} {n : Int} (h : integer b t = .ok n)
    (hc : Decimal.isCanonical t = true) : Decimal.text n = t :=
  Decimal.text_of_read (integer_eq_ok_iff.mp h) hc

theorem spelling_of_word {κ : Type} [Vocabulary κ] {k : κ} (h : word t = .ok k)
    (hc : isSpelled κ t = true) : spelling k = t :=
  spelling_of_ofText (mapError_eq_ok.mp h) hc

/-- The only word that is left is the first one. -/
theorem toList_head? {more : List Text} (h : more.length ≤ 1) : more.head?.toList = more := by
  match more, h with
  | [], _ => rfl
  | [_], _ => rfl

end Attribute

/-! ### Payload types -/

namespace RtpMap

def isCanonical (raw : Text) : Bool :=
  match splitAtMost ' ' 1 raw with
  | [payloadType, encoding] =>
    match splitAtMost '/' 2 encoding with
    | codec :: numbers =>
      Decimal.isCanonical payloadType && isSpelled Codec codec
        && numbers.all Decimal.isCanonical
    | [] => true
  | _ => true

theorem text_of_read {m : RtpMap} (h : read raw = .ok m) (hc : isCanonical raw = true) :
    m.text = raw := by
  obtain ⟨ws, hws, h⟩ := bind_eq_ok.mp h
  obtain ⟨hsplit, hraw⟩ := unwords_of_wordsUpTo hws
  split at h
  · next payloadType encoding =>
    split at h
    · next codec clockRate more hparts =>
      obtain ⟨hencoding, -, hlen, -⟩ := splitAtMost_eq_iff.mp hparts
      split at h
      · simp [throw_ne_ok, bind_eq_ok] at h
      · simp only [bind_eq_ok, pure_eq_ok] at h
        obtain ⟨pt, hpt, rate, hrate, channels, hchannels, rfl⟩ := h
        simp only [isCanonical, hsplit, hparts, List.all_cons, Bool.and_eq_true,
          List.all_eq_true] at hc
        obtain ⟨⟨hc₁, hc₂⟩, hc₃, hc₄⟩ := hc
        -- At most one word is left for the channels.
        have hmore : (channels.map Decimal.text).toList = more := by
          rw [optionMap_eq_of_mapM hchannels fun t ht n hn =>
            text_of_integer hn (hc₄ t (List.mem_of_mem_head? ht))]
          rw [List.length_cons, List.length_cons] at hlen
          exact toList_head? (by omega)
        have hwhole : parts ⟨pt, Token.ofText codec, rate, channels⟩
            = codec :: clockRate :: more := by
          rw [parts, Token.text_ofText hc₂, text_of_integer hrate hc₃, hmore]
        rw [text_eq, hwhole, hencoding, text_of_integer hpt hc₁, hraw]
    · simp [throw_ne_ok] at h
  · simp [throw_ne_ok] at h

end RtpMap

namespace FormatParameters

def isCanonical (raw : Text) : Bool :=
  match splitAtMost ' ' 1 raw with
  | payloadType :: _ => Decimal.isCanonical payloadType
  | [] => true

theorem text_of_read {f : FormatParameters} (h : read raw = .ok f)
    (hc : isCanonical raw = true) : f.text = raw := by
  obtain ⟨ws, hws, h⟩ := bind_eq_ok.mp h
  obtain ⟨hsplit, hraw⟩ := unwords_of_wordsUpTo hws
  split at h
  · next payloadType parameters =>
    obtain ⟨pt, hpt, h⟩ := bind_eq_ok.mp h
    obtain rfl := pure_eq_ok.mp h
    simp only [isCanonical, hsplit] at hc
    rw [text_eq, text_of_integer hpt hc, hraw]
  · simp [throw_ne_ok] at h

end FormatParameters

namespace Feedback

/-- A star for all payload types is no integer, and passes. -/
def isCanonical (raw : Text) : Bool :=
  match splitAtMost ' ' 2 raw with
  | payloadType :: _ => Decimal.isCanonical payloadType
  | [] => true

theorem text_of_read {f : Feedback} (h : read raw = .ok f) (hc : isCanonical raw = true) :
    f.text = raw := by
  obtain ⟨ws, hws, h⟩ := bind_eq_ok.mp h
  obtain ⟨hsplit, hraw⟩ := unwords_of_wordsUpTo hws
  obtain ⟨-, -, hlen, -⟩ := splitAtMost_eq_iff.mp hsplit
  split at h
  · next target id more =>
    simp only [isCanonical, hsplit] at hc
    rw [List.length_cons, List.length_cons] at hlen
    have hmore : more.head?.toList = more := toList_head? (by omega)
    simp only [pure_eq, ok_bind] at h
    split at h
    · next hstar =>
      obtain rfl := pure_eq_ok.mp h
      rw [text, hmore, ← hraw, hstar]
      rfl
    · simp only [bind_eq_ok, map_eq_ok] at h
      obtain ⟨_, ⟨n, hn, rfl⟩, h⟩ := h
      obtain rfl := pure_eq_ok.mp h
      rw [text, hmore, ← hraw, Option.map_some, Option.getD_some, text_of_integer hn hc]
      rfl
  · simp [throw_ne_ok] at h

end Feedback

/-! ### Sources and streams -/

namespace SourceAttribute

def isCanonical (raw : Text) : Bool :=
  match splitAtMost ' ' 1 raw with
  | source :: _ => Decimal.isCanonical source
  | [] => true

theorem text_of_read {a : SourceAttribute} (h : read raw = .ok a)
    (hc : isCanonical raw = true) : a.text = raw := by
  obtain ⟨ws, hws, h⟩ := bind_eq_ok.mp h
  obtain ⟨hsplit, hraw⟩ := unwords_of_wordsUpTo hws
  split at h
  · next source rest =>
    simp only [bind_eq_ok] at h
    obtain ⟨s, hs, h⟩ := h
    obtain rfl := pure_eq_ok.mp h
    obtain ⟨hrest, -⟩ := cut_eq_iff.mp (Prod.eta (cut ':' rest)).symm
    simp only [isCanonical, hsplit] at hc
    rw [text_eq, described, hrest, text_of_integer hs hc, hraw]
  · simp [throw_ne_ok] at h

end SourceAttribute

namespace SourceGroup

def isCanonical (raw : Text) : Bool :=
  match words raw with
  | meaning :: sources => isSpelled SourceGroupMeaning meaning && sources.all Decimal.isCanonical
  | [] => true

theorem text_of_read {g : SourceGroup} (h : read raw = .ok g) (hc : isCanonical raw = true) :
    g.text = raw := by
  obtain ⟨ws, hws, h⟩ := bind_eq_ok.mp h
  obtain ⟨hsplit, hraw⟩ := unwords_of_wordsOf hws
  split at h
  · next meaning first rest =>
    obtain ⟨n, hn, h⟩ := bind_eq_ok.mp h
    obtain ⟨ns, hns, h⟩ := bind_eq_ok.mp h
    obtain rfl := pure_eq_ok.mp h
    simp only [isCanonical, hsplit, Bool.and_eq_true, List.all_cons, List.all_eq_true] at hc
    have hfirst : Decimal.text n = first := text_of_integer hn hc.2.1
    have hrest : ns.map Decimal.text = rest :=
      map_eq_of_mapM hns fun t ht n hn => text_of_integer hn (hc.2.2 t ht)
    rw [text, List.map_cons, hfirst, hrest, Token.text_ofText hc.1, hraw]
  · simp [throw_ne_ok] at h

end SourceGroup

namespace StreamId

def isCanonical (raw : Text) : Bool :=
  match splitAtMost ' ' 2 raw with
  | _ :: direction :: _ => isSpelled StreamDirection direction
  | _ => true

theorem text_of_read {s : StreamId} (h : read raw = .ok s) (hc : isCanonical raw = true) :
    s.text = raw := by
  obtain ⟨ws, hws, h⟩ := bind_eq_ok.mp h
  obtain ⟨hsplit, hraw⟩ := unwords_of_wordsUpTo hws
  obtain ⟨-, -, hlen, -⟩ := splitAtMost_eq_iff.mp hsplit
  split at h
  · next id direction more =>
    obtain ⟨d, hd, h⟩ := bind_eq_ok.mp h
    obtain rfl := pure_eq_ok.mp h
    simp only [isCanonical, hsplit] at hc
    rw [List.length_cons, List.length_cons] at hlen
    have hmore : more.head?.toList = more := toList_head? (by omega)
    rw [text, hmore, spelling_of_word hd hc, ← hraw]
    rfl
  · simp [throw_ne_ok] at h

end StreamId

namespace Simulcast

def isCanonical (raw : Text) : Bool :=
  match words raw with
  | [d, _] => isSpelled StreamDirection d
  | [d₁, _, d₂, _] => isSpelled StreamDirection d₁ && isSpelled StreamDirection d₂
  | _ => true

theorem text_of_read {s : Simulcast} (h : read raw = .ok s) (hc : isCanonical raw = true) :
    s.text = raw := by
  obtain ⟨ws, hws, h⟩ := bind_eq_ok.mp h
  obtain ⟨hsplit, hraw⟩ := unwords_of_wordsOf hws
  split at h
  · next d t =>
    obtain ⟨m, hm, h⟩ := bind_eq_ok.mp h
    obtain rfl := pure_eq_ok.mp h
    simp only [isCanonical, hsplit] at hc
    obtain ⟨k, hword, hk⟩ := add_eq_ok hm
    rw [text_eq, hk, ← hraw, ← spelling_of_word hword hc]
    simp
  · next d₁ t₁ d₂ t₂ =>
    obtain ⟨m₁, hm₁, h⟩ := bind_eq_ok.mp h
    obtain ⟨m₂, hm₂, h⟩ := bind_eq_ok.mp h
    obtain rfl := pure_eq_ok.mp h
    simp only [isCanonical, hsplit, Bool.and_eq_true] at hc
    obtain ⟨k₁, hword₁, hk₁⟩ := add_eq_ok hm₁
    obtain ⟨k₂, hword₂, hk₂⟩ := add_eq_ok hm₂
    rw [text_eq, hk₂, hk₁, ← hraw, ← spelling_of_word hword₁ hc.1,
      ← spelling_of_word hword₂ hc.2]
    simp
  · simp [throw_ne_ok] at h

end Simulcast

/-- Nothing in a media stream has two spellings. -/
theorem MediaStream.text_of_read {m : MediaStream} (h : read raw = .ok m) : m.text = raw := by
  obtain ⟨ws, hws, h⟩ := bind_eq_ok.mp h
  obtain ⟨hsplit, hraw⟩ := unwords_of_wordsUpTo hws
  obtain ⟨-, -, hlen, -⟩ := splitAtMost_eq_iff.mp hsplit
  split at h
  · next stream more =>
    obtain rfl := pure_eq_ok.mp h
    rw [List.length_cons] at hlen
    have hmore : more.head?.toList = more := toList_head? (by omega)
    rw [text, hmore, hraw]
  · simp [throw_ne_ok] at h

/-! ### Transport -/

namespace CertificateHash

def isCanonical (raw : Text) : Bool :=
  match splitAtMost ' ' 1 raw with
  | [function, fingerprint] =>
    isSpelled HashFunction function && Fingerprint.isCanonical fingerprint
  | _ => true

theorem text_of_read {h : CertificateHash} (hr : read raw = .ok h)
    (hc : isCanonical raw = true) : h.text = raw := by
  obtain ⟨ws, hws, hr⟩ := bind_eq_ok.mp hr
  obtain ⟨hsplit, hraw⟩ := unwords_of_wordsUpTo hws
  split at hr
  · next function fingerprint =>
    split at hr
    · next f hf =>
      obtain rfl := pure_eq_ok.mp hr
      simp only [isCanonical, hsplit, Bool.and_eq_true] at hc
      rw [text_eq, Token.text_ofText hc.1, Fingerprint.text_of_ofText? hf hc.2, hraw]
    · simp [throw_ne_ok] at hr
  · simp [throw_ne_ok] at hr

end CertificateHash

namespace ControlPort

def isCanonical (raw : Text) : Bool :=
  match words raw with
  | [port] => Decimal.isCanonical port
  | port :: network :: family :: _ =>
    Decimal.isCanonical port && isSpelled Network network && isSpelled AddressFamily family
  | _ => true

theorem text_of_read {c : ControlPort} (h : read raw = .ok c) (hc : isCanonical raw = true) :
    c.text = raw := by
  obtain ⟨ws, hws, h⟩ := bind_eq_ok.mp h
  obtain ⟨hsplit, hraw⟩ := unwords_of_wordsOf hws
  split at h
  · obtain ⟨n, hn, h⟩ := bind_eq_ok.mp h
    obtain rfl := pure_eq_ok.mp h
    simp only [isCanonical, hsplit] at hc
    rw [← hraw, unwords_singleton]
    exact text_of_integer hn hc
  · simp only [bind_eq_ok] at h
    obtain ⟨n, hn, network, hnetwork, family, hfamily, h⟩ := h
    obtain rfl := pure_eq_ok.mp h
    simp only [isCanonical, hsplit, Bool.and_eq_true] at hc
    obtain ⟨⟨hc₁, hc₂⟩, hc₃⟩ := hc
    simp only [text]
    rw [text_of_integer hn hc₁, spelling_of_word hnetwork hc₂, spelling_of_word hfamily hc₃, hraw]
  · simp [throw_ne_ok] at h

end ControlPort

namespace ExtensionMap

/-- After a slash there is a direction. -/
def isCanonical (raw : Text) : Bool :=
  match words raw with
  | spec :: _ =>
    let (id, direction) := cut '/' spec
    Decimal.isCanonical id && direction.all fun t => t != [] && isSpelled ExtensionDirection t
  | [] => true

theorem map_spelling_of_direction? {o : Option Text} {d : Option ExtensionDirection}
    (h : direction? o = .ok d)
    (hc : ∀ t ∈ o, t ≠ [] ∧ isSpelled ExtensionDirection t = true) :
    d.map spelling = o := by
  unfold direction? at h
  split at h
  · exact absurd rfl (hc [] rfl).1
  · obtain rfl := Except.ok.inj h
    rfl
  · next t _ =>
    obtain ⟨k, hk, rfl⟩ := map_eq_ok.mp h
    exact congrArg some (spelling_of_word hk (hc t rfl).2)

theorem text_of_read {e : ExtensionMap} (h : read raw = .ok e) (hc : isCanonical raw = true) :
    e.text = raw := by
  obtain ⟨ws, hws, h⟩ := bind_eq_ok.mp h
  obtain ⟨hsplit, hraw⟩ := unwords_of_wordsOf hws
  split at h
  · next first uri attributes =>
    simp only [bind_eq_ok] at h
    obtain ⟨id, hid, d, hd, h⟩ := h
    obtain rfl := pure_eq_ok.mp h
    obtain ⟨hfirst, -⟩ := cut_eq_iff.mp (Prod.eta (cut '/' first)).symm
    simp only [isCanonical, hsplit, Bool.and_eq_true, Option.all_eq_true, bne_iff_ne] at hc
    have hspec : spec ⟨id, uri, d, attributes⟩ = first := by
      rw [spec, text_of_integer hid hc.1, map_spelling_of_direction? hd hc.2, hfirst]
    rw [text_eq, hspec, hraw]
  · simp [throw_ne_ok] at h

end ExtensionMap

namespace MediaGroup

def isCanonical (raw : Text) : Bool :=
  match words raw with
  | meaning :: _ => isSpelled GroupMeaning meaning
  | [] => true

theorem text_of_read {g : MediaGroup} (h : read raw = .ok g) (hc : isCanonical raw = true) :
    g.text = raw := by
  obtain ⟨ws, hws, h⟩ := bind_eq_ok.mp h
  obtain ⟨hsplit, hraw⟩ := unwords_of_wordsOf hws
  split at h
  · next meaning mids =>
    obtain rfl := pure_eq_ok.mp h
    simp only [isCanonical, hsplit] at hc
    rw [text, Token.text_ofText hc, hraw]
  · simp [throw_ne_ok] at h

end MediaGroup

/-! ### Candidates -/

namespace Candidate

variable {pairs rest : List (Text × Text)} {o : Options} {key : Text}

/-- The value of a first pair under this very key, and the pairs after it. -/
def takePlace (key : Text) : List (Text × Text) → Option Text × List (Text × Text)
  | [] => (none, [])
  | (k, value) :: rest => if k = key then (some value, rest) else (none, (k, value) :: rest)

theorem eq_of_takePlace {value : Option Text} (h : takePlace key pairs = (value, rest)) :
    pairs = (value.map fun t => (key, t)).toList ++ rest := by
  unfold takePlace at h
  split at h
  · obtain ⟨rfl, rfl⟩ := Prod.mk.inj h
    rfl
  · split at h
    · next hk =>
      obtain ⟨rfl, rfl⟩ := Prod.mk.inj h
      rw [hk]
      rfl
    · obtain ⟨rfl, rfl⟩ := Prod.mk.inj h
      rfl

/-- Whether the pairs for the three places come first, in order and in lower
case, and all others have different keys.  A pair under the key of a place is
one of the others only if the place is taken. -/
def arePairsCanonical (pairs : List (Text × Text)) : Bool :=
  let (address, pairs) := takePlace "raddr".toList pairs
  let (port, pairs) := takePlace "rport".toList pairs
  let (role, others) := takePlace "tcptype".toList pairs
  port.all Decimal.isCanonical && role.all (isSpelled TcpRole)
    && decide (others.map Prod.fst).Nodup
    && others.all fun other =>
      (lower other.1 != "raddr".toList || address.isSome)
        && (lower other.1 != "rport".toList || port.isSome)
        && (lower other.1 != "tcptype".toList || role.isSome)

def isCanonical (raw : Text) : Bool :=
  match words raw with
  | _ :: component :: transport :: priority :: _ :: port :: typ :: kind :: rest =>
    Decimal.isCanonical component && isSpelled CandidateTransport transport
      && Decimal.isCanonical priority && Decimal.isCanonical port && typ == "typ".toList
      && isSpelled CandidateKind kind && (pairs? rest).all arePairsCanonical
  | _ => true

/-- The pairs of a candidate are written as they were read. -/
theorem pairs_of_foldlM_add (h : pairs.foldlM Options.add .empty = .ok o)
    (hc : arePairsCanonical pairs = true) : o.pairs = pairs := by
  rcases haddress : takePlace "raddr".toList pairs with ⟨address, pairs₁⟩
  rcases hport : takePlace "rport".toList pairs₁ with ⟨port, pairs₂⟩
  rcases hrole : takePlace "tcptype".toList pairs₂ with ⟨role, others⟩
  simp only [arePairsCanonical, haddress, hport, hrole, Bool.and_eq_true, Bool.or_eq_true,
    bne_iff_ne, Option.all_eq_true, List.all_eq_true, decide_eq_true_eq] at hc
  obtain ⟨⟨⟨hc₁, hc₂⟩, hnodup⟩, htaken⟩ := hc
  rw [eq_of_takePlace haddress, eq_of_takePlace hport, eq_of_takePlace hrole] at h ⊢
  simp only [Options.empty, List.foldlM_append, Options.foldlM_add_address, ok_bind,
    Options.foldlM_add_port, bind_eq_ok, map_eq_ok] at h
  obtain ⟨_, ⟨n, hn, rfl⟩, _, hplaced, h⟩ := h
  rw [Options.foldlM_add_role] at hplaced
  obtain ⟨r, hr, rfl⟩ := map_eq_ok.mp hplaced
  have hport : n.map Decimal.text = port :=
    optionMap_eq_of_mapM hn fun t ht i hi => text_of_integer hi (hc₁ t ht)
  have hrole : r.map spelling = role :=
    optionMap_eq_of_mapM hr fun t ht k hk => spelling_of_word hk (hc₂ t ht)
  -- All places are filled or stay empty before the other pairs are met.
  have hothers : ∀ pair ∈ others, Options.Taken ⟨address, n, r, .empty⟩ pair.1 := by
    intro pair hp
    obtain ⟨⟨ha, hp⟩, hr⟩ := htaken pair hp
    rw [← hport, Option.isSome_map] at hp
    rw [← hrole, Option.isSome_map] at hr
    exact ⟨fun he => ha.resolve_left fun hne => hne he,
      fun he => hp.resolve_left fun hne => hne he, fun he => hr.resolve_left fun hne => hne he⟩
  rw [Options.foldlM_add_of_taken hothers] at h
  obtain rfl := Except.ok.inj h
  have hentries := OrderedMap.entries_ofList (OrderedMap.distinct_of_nodup hnodup)
  rw [OrderedMap.ofList] at hentries
  simp only [Options.pairs, hentries, ← hport, ← hrole, Option.map_map, Function.comp_def,
    List.append_assoc]

theorem text_of_read {c : Candidate} (h : read raw = .ok c) (hc : isCanonical raw = true) :
    c.text = raw := by
  obtain ⟨ws, hws, h⟩ := bind_eq_ok.mp h
  obtain ⟨hsplit, hraw⟩ := unwords_of_wordsOf hws
  split at h
  · next foundation component transport priority address port typ kind rest =>
    split at h
    · split at h <;> simp [throw_ne_ok, bind_eq_ok] at h
    · next pairs hpairs =>
      split at h
      · simp [throw_ne_ok, bind_eq_ok] at h
      · simp only [bind_eq_ok] at h
        obtain ⟨o, ho, n, hn, tr, htr, i, hi, q, hq, h⟩ := h
        obtain rfl := pure_eq_ok.mp h
        simp only [isCanonical, hsplit, hpairs, Option.all_some, Bool.and_eq_true,
          beq_iff_eq] at hc
        obtain ⟨⟨⟨⟨⟨⟨hc₁, hc₂⟩, hc₃⟩, hc₄⟩, rfl⟩, hc₅⟩, hc₆⟩ := hc
        have hrest : (o.pairs.flatMap fun pair => [pair.1, pair.2]) = rest := by
          rw [pairs_of_foldlM_add ho hc₆]
          exact pairWords_of_pairs? hpairs
        rw [text, hrest, text_of_integer hn hc₁, spelling_of_word htr hc₂, text_of_integer hi hc₃,
          text_of_integer hq hc₄, Token.text_ofText hc₅]
        exact hraw
  · simp [throw_ne_ok] at h

end Candidate

/-! ### All kinds -/

namespace Attribute

variable {a : Attribute} {k : Kind}

/-- Whether the value of an attribute of a kind is canonical. -/
def isCanonicalValue (k : Kind) (raw : Text) : Bool :=
  match k with
  | .flag _ | .label _ | .mediaStream => true
  | .quantity _ => Decimal.isCanonical raw
  | .candidate => Candidate.isCanonical raw
  | .certificate => CertificateHash.isCanonical raw
  | .group => MediaGroup.isCanonical raw
  | .iceOptions => (words raw).all (isSpelled IceOption)
  | .setup => isSpelled SetupRole raw
  | .extension => ExtensionMap.isCanonical raw
  | .rtpMap => RtpMap.isCanonical raw
  | .formatParameters => FormatParameters.isCanonical raw
  | .feedback => Feedback.isCanonical raw
  | .controlPort => ControlPort.isCanonical raw
  | .source => SourceAttribute.isCanonical raw
  | .sourceGroup => SourceGroup.isCanonical raw
  | .streamId => StreamId.isCanonical raw
  | .simulcast => Simulcast.isCanonical raw

/-- Whether an attribute is canonical: a registered name is in lower case, and
the value is canonical for its kind.  With another name anything is. -/
def isCanonical (t : Text) : Bool :=
  let (name, value) := cut ':' t
  (find? (κ := Kind) name).all fun k => lower name == name && value.all (isCanonicalValue k)

theorem unwords_iceOptionsOf (hc : ∀ w ∈ words raw, isSpelled IceOption w = true) :
    unwords ((iceOptionsOf raw).map Token.text) = raw := by
  unfold iceOptionsOf
  split
  · next hempty =>
    rw [hempty]
    rfl
  · have hwords : ((words raw).map Token.ofText).map (Token.text (κ := IceOption)) = words raw := by
      rw [List.map_map, ← List.map_id (words raw), List.map_map]
      exact List.map_congr_left fun w hw => Token.text_ofText (hc w hw)
    rw [hwords, unwords_words]

/-- A canonical value is written as it was read. -/
theorem value?_of_readValue (h : readValue k raw = .ok a) (hk : ∀ f, k ≠ .flag f)
    (hc : isCanonicalValue k raw = true) : a.kind? = some k ∧ a.value? = some raw := by
  cases k with
  | flag f => exact absurd rfl (hk f)
  | label l =>
    obtain rfl := Except.ok.inj h
    exact ⟨rfl, rfl⟩
  | iceOptions =>
    obtain rfl := Except.ok.inj h
    exact ⟨rfl, congrArg some (unwords_iceOptionsOf (List.all_eq_true.mp hc))⟩
  | quantity q =>
    obtain ⟨n, hn, rfl⟩ := map_eq_ok.mp h
    exact ⟨rfl, congrArg some (text_of_integer hn hc)⟩
  | setup =>
    obtain ⟨r, hr, rfl⟩ := map_eq_ok.mp h
    exact ⟨rfl, congrArg some (spelling_of_word hr hc)⟩
  | candidate =>
    obtain ⟨c, hread, rfl⟩ := map_eq_ok.mp h
    exact ⟨rfl, congrArg some (Candidate.text_of_read hread hc)⟩
  | certificate =>
    obtain ⟨c, hread, rfl⟩ := map_eq_ok.mp h
    exact ⟨rfl, congrArg some (CertificateHash.text_of_read hread hc)⟩
  | group =>
    obtain ⟨g, hread, rfl⟩ := map_eq_ok.mp h
    exact ⟨rfl, congrArg some (MediaGroup.text_of_read hread hc)⟩
  | extension =>
    obtain ⟨e, hread, rfl⟩ := map_eq_ok.mp h
    exact ⟨rfl, congrArg some (ExtensionMap.text_of_read hread hc)⟩
  | rtpMap =>
    obtain ⟨m, hread, rfl⟩ := map_eq_ok.mp h
    exact ⟨rfl, congrArg some (RtpMap.text_of_read hread hc)⟩
  | formatParameters =>
    obtain ⟨f, hread, rfl⟩ := map_eq_ok.mp h
    exact ⟨rfl, congrArg some (FormatParameters.text_of_read hread hc)⟩
  | feedback =>
    obtain ⟨f, hread, rfl⟩ := map_eq_ok.mp h
    exact ⟨rfl, congrArg some (Feedback.text_of_read hread hc)⟩
  | controlPort =>
    obtain ⟨c, hread, rfl⟩ := map_eq_ok.mp h
    exact ⟨rfl, congrArg some (ControlPort.text_of_read hread hc)⟩
  | mediaStream =>
    obtain ⟨m, hread, rfl⟩ := map_eq_ok.mp h
    exact ⟨rfl, congrArg some (MediaStream.text_of_read hread)⟩
  | source =>
    obtain ⟨s, hread, rfl⟩ := map_eq_ok.mp h
    exact ⟨rfl, congrArg some (SourceAttribute.text_of_read hread hc)⟩
  | sourceGroup =>
    obtain ⟨s, hread, rfl⟩ := map_eq_ok.mp h
    exact ⟨rfl, congrArg some (SourceGroup.text_of_read hread hc)⟩
  | streamId =>
    obtain ⟨s, hread, rfl⟩ := map_eq_ok.mp h
    exact ⟨rfl, congrArg some (StreamId.text_of_read hread hc)⟩
  | simulcast =>
    obtain ⟨s, hread, rfl⟩ := map_eq_ok.mp h
    exact ⟨rfl, congrArg some (Simulcast.text_of_read hread hc)⟩

/-- Registered names are in lower case. -/
theorem lower_spelling (k : Kind) : lower (spelling k) = spelling k := by
  have hall : ∀ k ∈ members (κ := Kind), lower (spelling k) = spelling k := by decide
  exact hall k (complete k)

/-- A canonical attribute is written as it was read. -/
theorem text_of_ofText (h : ofText t = .ok a) (hc : isCanonical t = true) : a.text = t := by
  rcases hcut : cut ':' t with ⟨name, value⟩
  obtain ⟨rfl, -⟩ := cut_eq_iff.mp hcut
  simp only [isCanonical, hcut, Option.all_eq_true, Bool.and_eq_true, beq_iff_eq] at hc
  simp only [ofText, hcut] at h
  have hname : ∀ k, find? (κ := Kind) name = some k → spelling k = name := fun k hk =>
    (lower_spelling k).symm.trans ((lower_spelling_of_find? hk).trans (hc k hk).1)
  unfold ofNameValue at h
  rw [text_eq]
  split at h
  · simp at h
  · split at h
    · obtain rfl := Except.ok.inj h
      rfl
    · next f hf =>
      obtain rfl := Except.ok.inj h
      exact congrArg (withTail ':' · none) (hname _ hf)
    · simp at h
    · simp at h
    · next k raw hflag hk =>
      have hread := mapError_eq_ok.mp h
      obtain ⟨hkind, hvalue⟩ :=
        value?_of_readValue hread hflag ((hc k hk).2 raw rfl)
      rw [name_of_kind? hkind, hname k hk, hvalue]

end Attribute

end OfferAnswer
