/-
OfferAnswer/Proofs/Negotiation/Parameters.lean

The properties of the media, read back from their bag.

A property of a medium is named by the kind and a path (`MediaProperty.name`).
No part of a name holds a dot, and no two indices are written alike, so the
name tells which property it is of which kind (`MediaProperty.name_inj`).

What a bag says of a medium is its summary, and the properties of the medium
are those of the summary under their names (`RtpMedia.properties_eq`).  So the
bag of a bundle is a table from names to what the summaries say
(`Bundle.get?_mediaProperties`), and reading the table by index gives back the
summaries (`Properties.summary?_eq`).
-/
import OfferAnswer.Negotiation.Parameters
import OfferAnswer.Proofs.Bundle.Reachable
import OfferAnswer.Proofs.OrderedMap

namespace OfferAnswer

open Text

/-! ### Names -/

/-- The properties that a medium can have: of a payload or an extension with an
index, or the number of these. -/
inductive MediaProperty where
  | codec (i : Nat)
  | payloadType (i : Nat)
  | retransmission (i : Nat)
  | payloads
  | extensionId (i : Nat)
  | extensionUri (i : Nat)
  | extensions
  deriving DecidableEq

namespace MediaProperty

variable {kind kind' : MediaKind} {p p' : MediaProperty}

/-- The parts of the name that follow the kind. -/
def path : MediaProperty → List Text
  | codec i => ["codecs".toList, indexText i, "codec".toList]
  | payloadType i => ["codecs".toList, indexText i, "pt".toList]
  | retransmission i => ["codecs".toList, indexText i, "rtx".toList]
  | payloads => ["codecs".toList, "length".toList]
  | extensionId i => ["ext".toList, indexText i, "id".toList]
  | extensionUri i => ["ext".toList, indexText i, "uri".toList]
  | extensions => ["ext".toList, "length".toList]

/-- The name of a property of the medium of a kind. -/
def name (kind : MediaKind) (p : MediaProperty) : Text :=
  ['.'].intercalate (Vocabulary.spelling kind :: p.path)

/-- The index that a property is of, unless it is a number of all. -/
def index? : MediaProperty → Option Nat
  | codec i | payloadType i | retransmission i | extensionId i | extensionUri i => some i
  | payloads | extensions => none

/-- Whether a property is one of the payloads. -/
def isOfPayloads : MediaProperty → Bool
  | codec _ | payloadType _ | retransmission _ | payloads => true
  | extensionId _ | extensionUri _ | extensions => false

theorem dot_not_mem_path {t : Text} (h : t ∈ p.path) : '.' ∉ t := by
  have hindex : ∀ i, '.' ∉ indexText i := fun i => Decimal.not_mem_text (by decide) (by decide)
  have hword : ∀ w ∈ ["codecs", "codec", "pt", "rtx", "length", "ext", "id", "uri"],
      '.' ∉ w.toList := by decide
  cases p <;> simp only [path, List.mem_cons, List.not_mem_nil, or_false] at h <;>
    rcases h with rfl | rfl | rfl <;> first | exact hindex _ | exact hword _ (by decide)

theorem path_inj : p.path = p'.path ↔ p = p' := by
  refine ⟨fun h => ?_, fun h => h ▸ rfl⟩
  cases p <;> cases p' <;> simp_all [path, indexText, Decimal.text_natCast_inj]

/-- Its name tells a property and the kind. -/
theorem name_inj : name kind p = name kind' p' ↔ kind = kind' ∧ p = p' := by
  refine ⟨fun h => ?_, fun h => by rw [h.1, h.2]⟩
  have hsplit : ∀ (k : MediaKind) (q : MediaProperty),
      (name k q).splitOn '.' = Vocabulary.spelling k :: q.path := by
    intro k q
    refine splitOn_eq_iff.mpr ⟨rfl, List.cons_ne_nil _ _, List.forall_mem_cons.mpr ⟨?_, ?_⟩⟩
    · cases k <;> decide
    · exact fun t => dot_not_mem_path
  have hparts : Vocabulary.spelling kind :: p.path = Vocabulary.spelling kind' :: p'.path := by
    rw [← hsplit, ← hsplit, h]
  obtain ⟨hkind, hpath⟩ := List.cons_eq_cons.mp hparts
  exact ⟨Vocabulary.spelling_inj _ (Vocabulary.complete _) _ (Vocabulary.complete _)
    (congrArg lower hkind), path_inj.mp hpath⟩

end MediaProperty

/-! ### Summaries -/

/-- What a bag says of a medium: the codec, the type and the retransmission type
of each payload, and the name and the identifier of each extension. -/
structure MediaSummary where
  payloads : List (Text × Int × Option Int)
  extensions : List (Text × Int)
  deriving DecidableEq

namespace MediaSummary

variable {s : MediaSummary} {p : MediaProperty} {v : Property}

/-- What is said of a property. -/
def value? (s : MediaSummary) : MediaProperty → Option Property
  | .codec i => s.payloads[i]?.map fun p => .text p.1
  | .payloadType i => s.payloads[i]?.map fun p => .number p.2.1
  | .retransmission i => s.payloads[i]?.bind fun p => p.2.2.map .number
  | .payloads => some (.number s.payloads.length)
  | .extensionId i => s.extensions[i]?.map fun e => .number e.2
  | .extensionUri i => s.extensions[i]?.map fun e => .text e.1
  | .extensions => some (.number s.extensions.length)

/-- What is said of a payload. -/
def payloadProperties (i : Nat) (p : Text × Int × Option Int) : List (MediaProperty × Property) :=
  [(.codec i, .text p.1), (.payloadType i, .number p.2.1)]
    ++ (p.2.2.map fun n => (.retransmission i, .number n)).toList

/-- What is said of an extension. -/
def extensionProperties (i : Nat) (e : Text × Int) : List (MediaProperty × Property) :=
  [(.extensionId i, .number e.2), (.extensionUri i, .text e.1)]

/-- What is said of the elements of a list, and then their number. -/
def numbered {α : Type} (f : Nat → α → List (MediaProperty × Property)) (length : MediaProperty)
    (l : List α) : List (MediaProperty × Property) :=
  (l.mapIdx f).flatten ++ [(length, .number l.length)]

/-- All that is said, in order. -/
def properties (s : MediaSummary) : List (MediaProperty × Property) :=
  numbered payloadProperties .payloads s.payloads
    ++ numbered extensionProperties .extensions s.extensions

section Numbered

variable {α : Type} {f : Nat → α → List (MediaProperty × Property)} {length : MediaProperty}
  {l : List α} {e : MediaProperty × Property}

theorem mem_numbered : e ∈ numbered f length l ↔
    (∃ i a, l[i]? = some a ∧ e ∈ f i a) ∨ e = (length, .number l.length) := by
  simp only [numbered, List.mem_append, List.mem_flatten, List.mem_mapIdx, List.mem_singleton,
    List.getElem?_eq_some_iff]
  refine or_congr_left ⟨?_, ?_⟩
  · rintro ⟨_, ⟨i, hi, rfl⟩, he⟩
    exact ⟨i, l[i], ⟨hi, rfl⟩, he⟩
  · rintro ⟨i, _, ⟨hi, rfl⟩, he⟩
    exact ⟨_, ⟨i, hi, rfl⟩, he⟩

/-- The index tells the element, so that no name is given twice. -/
theorem nodup_numbered (hf : ∀ i a, ((f i a).map Prod.fst).Nodup)
    (hindex : ∀ i a, ∀ e ∈ f i a, e.1.index? = some i) (hlength : length.index? = none) :
    ((numbered f length l).map Prod.fst).Nodup := by
  rw [numbered, List.map_append, List.nodup_append']
  refine ⟨?_, List.nodup_singleton _, ?_⟩
  · rw [List.mapIdx_eq_zipIdx_map, ← List.flatMap_def, List.map_flatMap, List.nodup_flatMap]
    have hdiff : l.zipIdx.Pairwise fun x y => x.2 ≠ y.2 := by
      apply List.pairwise_map.mp
      show (l.zipIdx.map Prod.snd).Nodup
      rw [List.zipIdx_map_snd]
      exact List.nodup_range'
    refine ⟨fun x _ => hf x.2 x.1, hdiff.imp fun {x y} hxy => ?_⟩
    intro k hx hy
    obtain ⟨e, he, rfl⟩ := List.mem_map.mp hx
    obtain ⟨e', he', hkey⟩ := List.mem_map.mp hy
    apply hxy
    apply Option.some.inj
    rw [← hindex _ _ _ he, ← hindex _ _ _ he', hkey]
  · rw [List.map_singleton, List.disjoint_singleton, List.mem_map]
    rintro ⟨e, he, rfl⟩
    obtain ⟨fs, hfs, he⟩ := List.mem_flatten.mp he
    obtain ⟨i, hi, rfl⟩ := List.mem_mapIdx.mp hfs
    rw [hindex _ _ _ he] at hlength
    exact absurd hlength nofun

theorem map_numbered {β γ : Type} {g : β → α} {h : MediaProperty × Property → γ}
    {F : Nat → β → List γ} {l : List β} (hF : ∀ i b, F i b = (f i (g b)).map h) :
    (numbered f length (l.map g)).map h
      = (l.mapIdx F).flatten ++ [h (length, .number l.length)] := by
  have hparts : ((l.map g).mapIdx f).map (List.map h) = l.mapIdx F := by
    refine List.ext_getElem? fun i => ?_
    simp [← hF, Function.comp_def]
  rw [numbered, List.map_append, List.map_flatten, hparts, List.length_map, List.map_singleton]

theorem forall_mem_numbered {P : MediaProperty → Prop} (hf : ∀ i a, ∀ e ∈ f i a, P e.1)
    (hlength : P length) : ∀ p ∈ (numbered f length l).map Prod.fst, P p := by
  refine List.forall_mem_map.mpr fun e he => ?_
  rcases mem_numbered.mp he with ⟨i, a, -, he⟩ | rfl
  · exact hf i a e he
  · exact hlength

end Numbered

theorem mem_properties : (p, v) ∈ s.properties ↔ s.value? p = some v := by
  rw [properties, List.mem_append, mem_numbered, mem_numbered]
  cases p <;> simp [value?, payloadProperties, extensionProperties, Option.bind_eq_some_iff,
    @eq_comm Property v]

/-- No property is said of twice. -/
theorem nodup_properties (s : MediaSummary) : (s.properties.map Prod.fst).Nodup := by
  rw [properties, List.map_append, List.nodup_append']
  refine ⟨nodup_numbered ?_ ?_ rfl, nodup_numbered ?_ ?_ rfl, fun p hp hp' => ?_⟩
  · rintro i ⟨codec, type, - | rtx⟩ <;> simp [payloadProperties]
  · rintro i ⟨codec, type, - | rtx⟩ <;> simp [payloadProperties, MediaProperty.index?]
  · simp [extensionProperties]
  · simp [extensionProperties, MediaProperty.index?]
  · have hpayload : p.isOfPayloads = true := by
      refine forall_mem_numbered (P := fun p => p.isOfPayloads = true) ?_ rfl p hp
      rintro i ⟨codec, type, - | rtx⟩ <;> simp [payloadProperties, MediaProperty.isOfPayloads]
    have hextension : p.isOfPayloads = false := by
      refine forall_mem_numbered (P := fun p => p.isOfPayloads = false) ?_ rfl p hp'
      simp [extensionProperties, MediaProperty.isOfPayloads]
    exact absurd (hpayload.symm.trans hextension) nofun

end MediaSummary

/-! ### Reading a bag -/

namespace Property

/-- The text that a property is. -/
def text? : Property → Option Text
  | text t => some t
  | flag _ | number _ => none

/-- Properties are equal if they are the same text or count as the same
integer. -/
theorem beq_iff {v w : Property} :
    (v == w) = true ↔ v.text? = w.text? ∧ v.amount? = w.amount? := by
  rcases v with t | x | n <;> rcases w with u | y | m
  · show (t == u) = true ↔ _
    simp [text?, amount?]
  all_goals
    show (_ && _) = true ↔ _
    simp [text?, amount?]

instance : ReflBEq Property where
  rfl := beq_iff.mpr ⟨rfl, rfl⟩

end Property

namespace Properties

variable {ps qs : Properties} {kind : MediaKind} {media : Option MediaSummary}

/-- The text under a name. -/
def text? (ps : Properties) (name : Text) : Option Text :=
  (ps.get? name).bind Property.text?

/-- The number under a name. -/
def number? (ps : Properties) (name : Text) : Option Int :=
  (ps.get? name).bind Property.amount?

/-- The payload with an index. -/
def payload? (ps : Properties) (kind : MediaKind) (i : Nat) : Option (Text × Int × Option Int) := do
  let codec ← ps.text? (MediaProperty.name kind (.codec i))
  let payloadType ← ps.number? (MediaProperty.name kind (.payloadType i))
  return (codec, payloadType, ps.number? (MediaProperty.name kind (.retransmission i)))

/-- The extension with an index. -/
def extension? (ps : Properties) (kind : MediaKind) (i : Nat) : Option (Text × Int) := do
  let id ← ps.number? (MediaProperty.name kind (.extensionId i))
  let uri ← ps.text? (MediaProperty.name kind (.extensionUri i))
  return (uri, id)

/-- The payloads and the extensions of the medium of a kind, as many as there
are said to be. -/
def summary? (ps : Properties) (kind : MediaKind) : Option MediaSummary := do
  let payloads ← ps.number? (MediaProperty.payloads.name kind)
  let extensions ← ps.number? (MediaProperty.extensions.name kind)
  return {
    payloads := ← (List.range payloads.toNat).mapM (ps.payload? kind)
    extensions := ← (List.range extensions.toNat).mapM (ps.extension? kind) }

/-- Elements that are found by their indices are found in order. -/
theorem mapM_range_eq {α : Type} {l : List α} {f : Nat → Option α} (h : ∀ i, f i = l[i]?) :
    (List.range l.length).mapM f = some l := by
  obtain rfl : f = fun i => l[i]? := funext h
  clear h
  induction l with
  | nil => rfl
  | cons a l ih =>
    rw [List.length_cons, List.range_succ_eq_map, List.mapM_cons, List.mapM_map]
    simp [Function.comp_def, ih]

/-- A bag that is a table of what is said of a medium is read back. -/
theorem summary?_eq
    (h : ∀ p, ps.get? (MediaProperty.name kind p) = media.bind fun s => s.value? p) :
    ps.summary? kind = media := by
  cases media with
  | none => simp [summary?, number?, h]
  | some s =>
    have hpayload : ∀ i, ps.payload? kind i = s.payloads[i]? := by
      intro i
      simp only [payload?, text?, number?, h, Option.bind_some, MediaSummary.value?]
      rcases s.payloads[i]? with - | ⟨codec, type, - | rtx⟩ <;>
        simp [Property.amount?, Property.text?]
    have hextension : ∀ i, ps.extension? kind i = s.extensions[i]? := by
      intro i
      simp only [extension?, text?, number?, h, Option.bind_some, MediaSummary.value?]
      rcases s.extensions[i]? with - | ⟨uri, id⟩ <;> simp [Property.amount?, Property.text?]
    simp [summary?, number?, h, MediaSummary.value?, Property.amount?, mapM_range_eq hpayload,
      mapM_range_eq hextension]

theorem bind_get?_eq_of_beq {α : Type} {f : Property → Option α}
    (hf : ∀ v w, (v == w) = true → f v = f w) (h : (ps == qs) = true) (name : Text) :
    (ps.get? name).bind f = (qs.get? name).bind f := by
  have hrel := OrderedMap.get?_rel_of_beq h name
  generalize ps.get? name = o, qs.get? name = o' at hrel
  cases hrel with
  | none => rfl
  | some hvw => exact hf _ _ hvw

/-- Equal bags are read alike. -/
theorem summary?_eq_of_beq (h : (ps == qs) = true) : ps.summary? kind = qs.summary? kind := by
  have htext : ps.text? = qs.text? :=
    funext (bind_get?_eq_of_beq (fun v w h => (Property.beq_iff.mp h).1) h)
  have hnumber : ps.number? = qs.number? :=
    funext (bind_get?_eq_of_beq (fun v w h => (Property.beq_iff.mp h).2) h)
  have hpayload : ps.payload? kind = qs.payload? kind := by
    funext i
    rw [payload?, payload?, htext, hnumber]
  have hextension : ps.extension? kind = qs.extension? kind := by
    funext i
    rw [extension?, extension?, htext, hnumber]
  rw [summary?, summary?, hnumber, hpayload, hextension]

end Properties

/-! ### The bag of a bundle -/

/-- What a bag says of a medium. -/
def RtpMedia.summary (m : RtpMedia) : MediaSummary where
  payloads := m.payloads.map fun p => (p.codec.text, p.payloadType, p.retransmission)
  extensions := m.extensions.entries

/-- Properties under their names. -/
def MediaSummary.named (kind : MediaKind) (s : MediaSummary) : List (Text × Property) :=
  s.properties.map fun e => (e.1.name kind, e.2)

theorem MediaSummary.keys_named (kind : MediaKind) (s : MediaSummary) :
    (s.named kind).map Prod.fst = (s.properties.map Prod.fst).map (MediaProperty.name kind) := by
  rw [named, List.map_map, List.map_map]
  rfl

theorem RtpMedia.properties_eq {m : RtpMedia} {kind : MediaKind} (h : m.kind = .known kind) :
    m.properties = m.summary.named kind := by
  have hname : ∀ p : MediaProperty, m.propertyName p.path = p.name kind := by
    intro p
    rw [propertyName, h]
    rfl
  have hpayloads : (MediaSummary.numbered MediaSummary.payloadProperties .payloads
      m.summary.payloads).map (fun e => (e.1.name kind, e.2))
      = (m.payloads.mapIdx m.payloadProperties).flatten
        ++ [(MediaProperty.payloads.name kind, .number m.payloads.length)] := by
    refine MediaSummary.map_numbered fun i p => ?_
    simp only [payloadProperties, MediaSummary.payloadProperties, ← hname]
    rcases p.retransmission with - | rtx <;> rfl
  have hextensions : (MediaSummary.numbered MediaSummary.extensionProperties .extensions
      (m.summary.extensions.map id)).map (fun e => (e.1.name kind, e.2))
      = (m.extensions.entries.mapIdx m.extensionProperties).flatten
        ++ [(MediaProperty.extensions.name kind, .number m.extensions.size)] := by
    refine MediaSummary.map_numbered fun i e => ?_
    simp only [extensionProperties, MediaSummary.extensionProperties, ← hname]
    rfl
  rw [List.map_id] at hextensions
  rw [MediaSummary.named, MediaSummary.properties, List.map_append, hpayloads, hextensions]
  simp only [properties, ← hname, List.append_assoc]
  rfl

namespace Bundle

variable {b b' : Bundle} {kind : MediaKind} {t : Text} {v : Property}

/-- The kinds of media that a bag is about. -/
def bagKinds : List MediaKind := [.audio, .video]

/-- The first medium of a kind. -/
def medium? (b : Bundle) (kind : MediaKind) : Option RtpMedia :=
  b.media.find? fun m => m.kind == .known kind

/-- What is entered into a bag, in order. -/
def enteredProperties (b : Bundle) : List (Text × Property) :=
  bagKinds.flatMap fun kind => (b.medium? kind).elim [] RtpMedia.properties

theorem mediaProperties_eq (b : Bundle) : b.mediaProperties = .ofList b.enteredProperties := by
  refine congrArg OrderedMap.ofList (List.flatMap_congr fun kind _ => ?_)
  rw [medium?]
  cases b.media.find? fun m => m.kind == .known kind <;> rfl

theorem medium?_eq_some (hb : b.Sound) {m : RtpMedia} (h : b.medium? kind = some m) :
    m.kind = .known kind :=
  (hb.media m (List.mem_of_find?_eq_some h)).kind_canonical.eq_known
    (List.find?_some (p := fun m : RtpMedia => m.kind == .known kind) h)

/-- What is entered depends on the summaries of the media. -/
theorem enteredProperties_eq (hb : b.Sound) : b.enteredProperties
    = bagKinds.flatMap fun kind => ((b.medium? kind).map RtpMedia.summary).elim []
        (MediaSummary.named kind) := by
  refine List.flatMap_congr fun kind _ => ?_
  cases h : b.medium? kind with
  | none => rfl
  | some m => exact RtpMedia.properties_eq (medium?_eq_some hb h)

theorem mem_enteredProperties (hb : b.Sound) : (t, v) ∈ b.enteredProperties ↔
    ∃ kind ∈ bagKinds, ∃ m, b.medium? kind = some m
      ∧ ∃ p, m.summary.value? p = some v ∧ MediaProperty.name kind p = t := by
  rw [enteredProperties_eq hb, List.mem_flatMap]
  refine exists_congr fun kind => and_congr_right fun _ => ?_
  cases b.medium? kind with
  | none => simp
  | some m => simp [MediaSummary.named, MediaSummary.mem_properties]

/-- No name is entered twice. -/
theorem nodup_enteredProperties (hb : b.Sound) : (b.enteredProperties.map Prod.fst).Nodup := by
  rw [enteredProperties_eq hb, List.map_flatMap, List.nodup_flatMap]
  constructor
  · intro kind _
    cases b.medium? kind with
    | none => exact List.nodup_nil
    | some m =>
      show ((m.summary.named kind).map Prod.fst).Nodup
      rw [MediaSummary.keys_named]
      exact m.summary.nodup_properties.map fun _ _ h => (MediaProperty.name_inj.mp h).2
  · have hkinds : bagKinds.Nodup := by decide
    refine hkinds.imp fun {kind kind'} hne t ht ht' => hne ?_
    cases h : b.medium? kind <;> cases h' : b.medium? kind' <;> simp only [h, h'] at ht ht'
    · exact absurd ht List.not_mem_nil
    · exact absurd ht List.not_mem_nil
    · exact absurd ht' List.not_mem_nil
    · obtain ⟨p, -, hp⟩ := List.mem_map.mp (MediaSummary.keys_named kind _ ▸ ht)
      obtain ⟨p', -, hp'⟩ := List.mem_map.mp (MediaSummary.keys_named kind' _ ▸ ht')
      exact (MediaProperty.name_inj.mp (hp.trans hp'.symm)).1

theorem entries_mediaProperties (hb : b.Sound) :
    b.mediaProperties.entries = b.enteredProperties := by
  rw [mediaProperties_eq]
  exact OrderedMap.entries_ofList (OrderedMap.distinct_of_nodup (nodup_enteredProperties hb))

/-- The bag is a table of what the summaries say. -/
theorem get?_mediaProperties (hb : b.Sound) (hkind : kind ∈ bagKinds) (p : MediaProperty) :
    b.mediaProperties.get? (p.name kind)
      = ((b.medium? kind).map RtpMedia.summary).bind fun s => s.value? p := by
  refine Option.ext fun v => ?_
  rw [OrderedMap.get?_eq_some_iff, entries_mediaProperties hb, mem_enteredProperties hb,
    Option.bind_eq_some_iff]
  constructor
  · rintro ⟨kind', -, m, hm, p', hv, hname⟩
    obtain ⟨rfl, rfl⟩ := MediaProperty.name_inj.mp hname
    exact ⟨m.summary, Option.map_eq_some_iff.mpr ⟨m, hm, rfl⟩, hv⟩
  · rintro ⟨_, hs, hv⟩
    obtain ⟨m, hm, rfl⟩ := Option.map_eq_some_iff.mp hs
    exact ⟨kind, hkind, m, hm, p, hv, rfl⟩

/-- The names in the bag are those of the properties that there are. -/
theorem mem_keys_mediaProperties (hb : b.Sound) : t ∈ b.mediaProperties.keys ↔
    ∃ kind ∈ bagKinds, ∃ m, b.medium? kind = some m
      ∧ ∃ p, (m.summary.value? p).isSome = true ∧ MediaProperty.name kind p = t := by
  rw [OrderedMap.keys, entries_mediaProperties hb, List.mem_map]
  constructor
  · rintro ⟨⟨t, v⟩, he, rfl⟩
    obtain ⟨kind, hkind, m, hm, p, hv, hp⟩ := (mem_enteredProperties hb).mp he
    exact ⟨kind, hkind, m, hm, p, Option.isSome_of_eq_some hv, hp⟩
  · rintro ⟨kind, hkind, m, hm, p, hv, rfl⟩
    obtain ⟨v, hv⟩ := Option.isSome_iff_exists.mp hv
    exact ⟨(p.name kind, v), (mem_enteredProperties hb).mpr ⟨kind, hkind, m, hm, p, hv, rfl⟩, rfl⟩

/-- What is said of every medium is there if there is a medium of the kind. -/
theorem mem_keys_iff_exists_medium (hb : b.Sound) (hkind : kind ∈ bagKinds) {p : MediaProperty}
    (hp : ∀ s : MediaSummary, (s.value? p).isSome = true) :
    p.name kind ∈ b.mediaProperties.keys ↔ ∃ m ∈ b.media, (m.kind == .known kind) = true := by
  rw [mem_keys_mediaProperties hb, ← List.find?_isSome, Option.isSome_iff_exists]
  constructor
  · rintro ⟨kind', -, m, hm, p', -, hname⟩
    obtain ⟨rfl, -⟩ := MediaProperty.name_inj.mp hname
    exact ⟨m, hm⟩
  · rintro ⟨m, hm⟩
    exact ⟨kind, hkind, m, hm, p, hp _, rfl⟩

/-- The media of a bundle are read back from its bag: no name is entered twice;
how many payloads and extensions there are is said of the kinds that there are
media of; by index, the payloads and the extensions of the first medium of a
kind are read as they are, in order; and there is nothing else to be read. -/
structure ReadsBack (b : Bundle) : Prop where
  entered : b.mediaProperties = .ofList b.enteredProperties
  nodup : (b.enteredProperties.map Prod.fst).Nodup
  payloads : ∀ kind ∈ bagKinds, MediaProperty.payloads.name kind ∈ b.mediaProperties.keys
    ↔ ∃ m ∈ b.media, (m.kind == .known kind) = true
  extensions : ∀ kind ∈ bagKinds, MediaProperty.extensions.name kind ∈ b.mediaProperties.keys
    ↔ ∃ m ∈ b.media, (m.kind == .known kind) = true
  summary : ∀ kind ∈ bagKinds,
    b.mediaProperties.summary? kind = (b.medium? kind).map RtpMedia.summary
  only : ∀ t ∈ b.mediaProperties.keys, ∃ kind ∈ bagKinds, ∃ m, b.medium? kind = some m
    ∧ ∃ p, (m.summary.value? p).isSome = true ∧ MediaProperty.name kind p = t

theorem Sound.readsBack (hb : b.Sound) : b.ReadsBack where
  entered := mediaProperties_eq b
  nodup := nodup_enteredProperties hb
  payloads _ hkind := mem_keys_iff_exists_medium hb hkind fun _ => rfl
  extensions _ hkind := mem_keys_iff_exists_medium hb hkind fun _ => rfl
  summary _ hkind := Properties.summary?_eq (get?_mediaProperties hb hkind)
  only _ := (mem_keys_mediaProperties hb).mp

/-- The media of every bundle that is reached are read back from its bag, and
so the bags of two of them are equal if and only if the payloads and the
extensions of the first audio and of the first video agree. -/
theorem readsBack_and_beq_iff (hb : b.Reachable) (hb' : b'.Reachable) :
    b.ReadsBack ∧ ((b.mediaProperties == b'.mediaProperties) = true
      ↔ ∀ kind ∈ bagKinds,
        (b.medium? kind).map RtpMedia.summary = (b'.medium? kind).map RtpMedia.summary) := by
  refine ⟨hb.sound.readsBack, fun h kind hkind => ?_, fun h => ?_⟩
  · rw [← hb.sound.readsBack.summary kind hkind, ← hb'.sound.readsBack.summary kind hkind,
      Properties.summary?_eq_of_beq h]
  · have hentered : b.enteredProperties = b'.enteredProperties := by
      rw [enteredProperties_eq hb.sound, enteredProperties_eq hb'.sound]
      refine List.flatMap_congr fun kind hkind => ?_
      rw [h kind hkind]
    rw [mediaProperties_eq, mediaProperties_eq, hentered]
    exact BEq.rfl

/-- Two videos, of which the first has an extension that is not supported. -/
def videosSample : Text :=
  "v=0\r\no=- 1 1 IN IP4 127.0.0.1\r\ns=-\r\nt=0 0\r\na=ice-ufrag:u\r\na=ice-pwd:p\r\n".toList
    ++ "m=video 9 RTP/AVP 96 97 98\r\na=mid:0\r\na=rtpmap:96 VP8/90000\r\n".toList
    ++ "a=rtpmap:97 rtx/90000\r\na=fmtp:97 apt=96\r\na=rtpmap:98 VP9/90000\r\n".toList
    ++ "a=extmap:3 urn:x\r\nm=video 9 RTP/AVP 99\r\na=mid:1\r\na=rtpmap:99 H264/90000\r\n".toList

theorem readsBack_and_beq_iff_videosSample : ∃ b : Bundle, ofText videosSample = .ok b
    ∧ (b.medium? .video).map RtpMedia.summary
      = some ⟨[("VP8".toList, 96, some 97), ("VP9".toList, 98, none)], [("urn:x".toList, 3)]⟩
    ∧ b.ReadsBack ∧ ((b.mediaProperties == b.toCapability.mediaProperties) = true
      ↔ ∀ kind ∈ bagKinds, (b.medium? kind).map RtpMedia.summary
        = (b.toCapability.medium? kind).map RtpMedia.summary) := by
  obtain ⟨b, hb, hsummary⟩ := Outcome.exists_ok_of_any (x := ofText videosSample)
    (P := fun b => (b.medium? .video).map RtpMedia.summary
      = some ⟨[("VP8".toList, 96, some 97), ("VP9".toList, 98, none)], [("urn:x".toList, 3)]⟩)
    (by decide +kernel)
  have hreached : b.Reachable := .read (.inl ⟨_, hb⟩)
  exact ⟨b, hb, hsummary, readsBack_and_beq_iff hreached hreached.toCapability⟩

/-- Besides the payloads with their number, and the extensions, the bag tells
the number of the extensions. -/
theorem mem_keys_extensions_videosSample : ∃ b : Bundle, ofText videosSample = .ok b
    ∧ ∃ t ∈ b.mediaProperties.keys,
      ∀ kind ∈ bagKinds, ∀ p, p ≠ .extensions → MediaProperty.name kind p ≠ t := by
  obtain ⟨b, hb, hmem⟩ := Outcome.exists_ok_of_any (x := ofText videosSample)
    (P := fun b => MediaProperty.extensions.name .video ∈ b.mediaProperties.keys)
    (by decide +kernel)
  refine ⟨b, hb, _, hmem, fun kind _ p hp h => ?_⟩
  exact hp (MediaProperty.name_inj.mp h).2

end Bundle

end OfferAnswer
