/-
OfferAnswer/Proofs/Document/Assembly.lean

The fields of a draft, entered one after the other.

Entering the fields that a draft is written as gives the draft again, but for
one thing: a bandwidth comes back under the spelling that it is written in,
while it may have been kept under one that was seen before (`rekeyed`).
-/
import OfferAnswer.Document.Section
import OfferAnswer.Proofs.OrderedMap

namespace OfferAnswer

/-! ### Bandwidths -/

namespace Bandwidths

/-- Every bandwidth under its own spelling. -/
def rekeyed (bs : Bandwidths) : Bandwidths :=
  .ofList (bs.entries.map fun e => (e.2.kind, e.2))

/-- Every bandwidth is kept under some spelling of its kind. -/
def Keyed (bs : Bandwidths) : Prop := ∀ e ∈ bs.entries, (e.1 == e.2.kind) = true

variable {bs : Bandwidths} {b : Bandwidth}

theorem keyed_empty : Keyed .empty := by simp [Keyed]

theorem Keyed.put (h : bs.Keyed) (b : Bandwidth) : (bs.put b).Keyed :=
  OrderedMap.forall_insert (P := fun k (b : Bandwidth) => (k == b.kind) = true) h BEq.rfl
    fun _ _ hj _ => hj

theorem Keyed.erase (h : bs.Keyed) (kind : Token BandwidthKind) : Keyed (bs.erase kind) :=
  fun e he => h e (List.mem_filter.mp he).1

/-- Different keys have values of different kinds. -/
theorem entries_rekeyed (h : bs.Keyed) :
    bs.rekeyed.entries = bs.entries.map fun e => (e.2.kind, e.2) := by
  refine OrderedMap.entries_ofList ?_
  rw [List.pairwise_map]
  refine bs.distinct.imp_of_mem fun {a b} ha hb hab => ?_
  rw [← Bool.not_eq_true] at hab ⊢
  exact fun he => hab (BEq.trans (h a ha) (BEq.trans he (BEq.symm (h b hb))))

theorem rekeyed_beq (h : bs.Keyed) [ReflBEq Bandwidth] : (bs.rekeyed == bs) = true := by
  show (bs.rekeyed.size == bs.size && bs.rekeyed.entries.all _) = true
  rw [Bool.and_eq_true, List.all_eq_true, OrderedMap.size, OrderedMap.size, entries_rekeyed h,
    List.length_map]
  refine ⟨beq_self_eq_true _, List.forall_mem_map.mpr fun e he => ?_⟩
  rw [OrderedMap.get?_of_mem he (h e he)]
  exact BEq.rfl

/-- Entering the bandwidths of a mapping. -/
theorem foldl_put (bs : Bandwidths) :
    (bs.entries.map (·.2)).foldl put .empty = bs.rekeyed := by
  rw [rekeyed, OrderedMap.ofList, List.foldl_map, List.foldl_map]
  rfl

end Bandwidths

/-! ### Sections -/

@[simp] theorem updateLast_append_singleton {α : Type} (f : α → α) (xs : List α) (x : α) :
    updateLast f (xs ++ [x]) = xs ++ [f x] := by
  induction xs with
  | nil => rfl
  | cons y xs ih =>
    obtain ⟨z, zs, hz⟩ : ∃ z zs, xs ++ [x] = z :: zs :=
      List.exists_cons_of_ne_nil (by simp)
    rw [hz] at ih
    rw [List.cons_append, hz, updateLast.eq_3 _ _ _ (List.cons_ne_nil z zs), ih,
      List.cons_append]

namespace MediaSection

variable {m : MediaSection}

/-- The medium with every bandwidth under its own spelling. -/
def rekeyed (m : MediaSection) : MediaSection := { m with bandwidths := m.bandwidths.rekeyed }

theorem foldl_add_bandwidths (bs : List Bandwidth) :
    (bs.map .bandwidth).foldl add m
      = { m with bandwidths := bs.foldl Bandwidths.put m.bandwidths } := by
  induction bs generalizing m with
  | nil => rfl
  | cons b bs ih => exact ih

theorem foldl_add_attributes (as : List Attribute) :
    (as.map .attr).foldl add m = { m with attributes := m.attributes ++ as } := by
  induction as generalizing m with
  | nil => simp
  | cons a as ih =>
    rw [List.map_cons, List.foldl_cons, ih]
    simp [add]

/-- A medium begins with its first field, and does not begin again. -/
theorem exists_fields_eq_cons (m : MediaSection) : ∃ rest, m.fields = .medium m.medium :: rest
    ∧ ∀ f ∈ rest, ∀ medium, f ≠ .medium medium := by
  refine ⟨_, rfl, fun f hf medium => ?_⟩
  rintro rfl
  simp at hf

/-- A medium is made of its fields. -/
theorem ofFields?_fields (m : MediaSection) : ofFields? m.fields = some m.rekeyed := by
  obtain ⟨medium, title, connection, bandwidths, key, attributes⟩ := m
  have hb : bandwidths.entries.map (fun e => MediaField.bandwidth e.2)
      = (bandwidths.entries.map (·.2)).map .bandwidth := by simp
  -- What is there so far after each of the fields, in the order they are written.
  have htitle : (title.map MediaField.title).toList.foldl add (ofMedium medium)
      = ⟨medium, title, none, .empty, none, []⟩ := by
    cases title <;> rfl
  have hconnection : (connection.map MediaField.connection).toList.foldl add
      ⟨medium, title, none, .empty, none, []⟩
      = ⟨medium, title, connection, .empty, none, []⟩ := by
    cases connection <;> rfl
  have hkey : (key.map MediaField.key).toList.foldl add
      ⟨medium, title, connection, bandwidths.rekeyed, none, []⟩
      = ⟨medium, title, connection, bandwidths.rekeyed, key, []⟩ := by
    cases key <;> rfl
  simp only [fields, hb, List.cons_append]
  show some (List.foldl add (ofMedium medium) _) = _
  rw [List.foldl_append, List.foldl_append, List.foldl_append, List.foldl_append, htitle,
    hconnection, foldl_add_bandwidths, Bandwidths.foldl_put, hkey, foldl_add_attributes]
  rfl

end MediaSection

namespace TimeSection

theorem foldl_add_repetitions {t : TimeSection} (rs : List Repetition) :
    (rs.map .repetition).foldl add t = { t with repetitions := t.repetitions ++ rs } := by
  induction rs generalizing t with
  | nil => simp
  | cons r rs ih =>
    rw [List.map_cons, List.foldl_cons, ih]
    simp [add]

/-- A time begins with its first field, and does not begin again. -/
theorem exists_fields_eq_cons (t : TimeSection) : ∃ rest, t.fields = .active t.active :: rest
    ∧ ∀ f ∈ rest, ∀ a, f ≠ .active a := by
  refine ⟨_, rfl, fun f hf a => ?_⟩
  rintro rfl
  simp at hf

/-- A time is made of its fields. -/
theorem ofFields?_fields (t : TimeSection) : ofFields? t.fields = some t := by
  obtain ⟨active, repetitions, zone⟩ := t
  simp only [fields, List.cons_append]
  show some (List.foldl add (ofActive active) _) = _
  rw [List.foldl_append, foldl_add_repetitions]
  cases zone <;> rfl

end TimeSection

/-! ### Drafts -/

namespace Draft

variable {d : Draft}

/-- The draft with every bandwidth under its own spelling. -/
def rekeyed (d : Draft) : Draft :=
  { d with
    bandwidths := d.bandwidths.rekeyed
    media := d.media.map MediaSection.rekeyed }

/-- Fields of an open medium go to the last one. -/
theorem foldl_add_media (m : MediaSection) (fs : List MediaField)
    (h : ∀ f ∈ fs, ∀ medium, f ≠ .medium medium) :
    (fs.map .media).foldl add { d with media := d.media ++ [m] }
      = { d with media := d.media ++ [fs.foldl MediaSection.add m] } := by
  induction fs generalizing m with
  | nil => rfl
  | cons f fs ih =>
    rw [List.forall_mem_cons] at h
    have hstep : add { d with media := d.media ++ [m] } (.media f)
        = { d with media := d.media ++ [m.add f] } := by
      cases f with
      | medium medium => exact absurd rfl (h.1 medium)
      | _ => simp [add]
    rw [List.map_cons, List.foldl_cons, hstep, ih _ h.2, List.foldl_cons]

theorem foldl_add_time (t : TimeSection) (fs : List TimeField)
    (h : ∀ f ∈ fs, ∀ a, f ≠ .active a) :
    (fs.map .time).foldl add { d with times := d.times ++ [t] }
      = { d with times := d.times ++ [fs.foldl TimeSection.add t] } := by
  induction fs generalizing t with
  | nil => rfl
  | cons f fs ih =>
    rw [List.forall_mem_cons] at h
    have hstep : add { d with times := d.times ++ [t] } (.time f)
        = { d with times := d.times ++ [t.add f] } := by
      cases f with
      | active a => exact absurd rfl (h.1 a)
      | _ => simp [add]
    rw [List.map_cons, List.foldl_cons, hstep, ih _ h.2, List.foldl_cons]

/-- A whole medium is entered. -/
theorem foldl_add_mediaFields (m : MediaSection) :
    (m.fields.map .media).foldl add d = { d with media := d.media ++ [m.rekeyed] } := by
  obtain ⟨rest, hrest, hne⟩ := m.exists_fields_eq_cons
  -- The first field opens the medium, and the others stay in it.
  have hfold : rest.foldl MediaSection.add (.ofMedium m.medium) = m.rekeyed := by
    have := m.ofFields?_fields
    rw [hrest] at this
    exact Option.some.inj this
  rw [hrest, List.map_cons, List.foldl_cons, ← hfold]
  exact foldl_add_media _ rest hne

/-- A whole time is entered. -/
theorem foldl_add_timeFields (t : TimeSection) :
    (t.fields.map .time).foldl add d = { d with times := d.times ++ [t] } := by
  obtain ⟨rest, hrest, hne⟩ := t.exists_fields_eq_cons
  have hfold : rest.foldl TimeSection.add (.ofActive t.active) = t := by
    have := t.ofFields?_fields
    rw [hrest] at this
    exact Option.some.inj this
  rw [hrest, List.map_cons, List.foldl_cons]
  conv_rhs => rw [← hfold]
  exact foldl_add_time _ rest hne

theorem foldl_add_allMedia (ms : List MediaSection) :
    (ms.flatMap fun m => m.fields.map .media).foldl add d
      = { d with media := d.media ++ ms.map MediaSection.rekeyed } := by
  induction ms generalizing d with
  | nil => simp
  | cons m ms ih =>
    rw [List.flatMap_cons, List.foldl_append, foldl_add_mediaFields, ih]
    simp

theorem foldl_add_allTimes (ts : List TimeSection) :
    (ts.flatMap fun t => t.fields.map .time).foldl add d = { d with times := d.times ++ ts } := by
  induction ts generalizing d with
  | nil => simp
  | cons t ts ih =>
    rw [List.flatMap_cons, List.foldl_append, foldl_add_timeFields, ih]
    simp

theorem foldl_addOwn_bandwidths (bs : List Bandwidth) :
    (bs.map .bandwidth).foldl addOwn d
      = { d with bandwidths := bs.foldl Bandwidths.put d.bandwidths } := by
  induction bs generalizing d with
  | nil => rfl
  | cons b bs ih => exact ih

theorem foldl_addOwn_attributes (as : List Attribute) :
    (as.map .attr).foldl addOwn d = { d with attributes := d.attributes ++ as } := by
  induction as generalizing d with
  | nil => simp
  | cons a as ih =>
    rw [List.map_cons, List.foldl_cons, ih]
    simp [addOwn]

theorem foldl_add_session (fs : List SessionField) :
    (fs.map .session).foldl add d = fs.foldl addOwn d := by
  rw [List.foldl_map]
  rfl

/-- The session's own fields in front of the times are entered. -/
theorem foldl_ownBefore (d : Draft) :
    d.ownBefore.foldl addOwn empty
      = { d with
          bandwidths := d.bandwidths.rekeyed
          times := []
          key := none
          attributes := []
          media := [] } := by
  obtain ⟨⟨information, uri, email, phone, connection, bandwidths, _, _, _, _⟩, version, origin,
    name⟩ := d
  have hb : bandwidths.entries.map (fun e => SessionField.bandwidth e.2)
      = (bandwidths.entries.map (·.2)).map .bandwidth := by simp
  -- One part after the other, each into the draft that the parts before it left.
  have hversion : (version.map SessionField.version).toList.foldl addOwn empty
      = { empty with version } := by
    cases version <;> rfl
  have horigin : (origin.map SessionField.origin).toList.foldl addOwn { empty with version }
      = { empty with version, origin } := by
    cases origin <;> rfl
  have hname : (name.map SessionField.name).toList.foldl addOwn { empty with version, origin }
      = { empty with version, origin, name } := by
    cases name <;> rfl
  have hinformation : (information.map SessionField.information).toList.foldl addOwn
      { empty with version, origin, name }
      = { empty with version, origin, name, information } := by
    cases information <;> rfl
  have huri : (uri.map SessionField.uri).toList.foldl addOwn
      { empty with version, origin, name, information }
      = { empty with version, origin, name, information, uri } := by
    cases uri <;> rfl
  have hemail : (email.map SessionField.email).toList.foldl addOwn
      { empty with version, origin, name, information, uri }
      = { empty with version, origin, name, information, uri, email } := by
    cases email <;> rfl
  have hphone : (phone.map SessionField.phone).toList.foldl addOwn
      { empty with version, origin, name, information, uri, email }
      = { empty with version, origin, name, information, uri, email, phone } := by
    cases phone <;> rfl
  have hconnection : (connection.map SessionField.connection).toList.foldl addOwn
      { empty with version, origin, name, information, uri, email, phone }
      = { empty with version, origin, name, information, uri, email, phone, connection } := by
    cases connection <;> rfl
  simp only [ownBefore, hb, List.foldl_append]
  rw [hversion, horigin, hname, hinformation, huri, hemail, hphone, hconnection,
    foldl_addOwn_bandwidths, ← Bandwidths.foldl_put]
  rfl

/-- A draft is made of its fields. -/
theorem ofFields_fields (d : Draft) : ofFields d.fields = d.rekeyed := by
  have hkey (e : Draft) : (d.key.map SessionField.key).toList.foldl addOwn { e with key := none }
      = { e with key := d.key } := by
    cases d.key <;> rfl
  rw [ofFields, fields, ownAfter, List.foldl_append, List.foldl_append, List.foldl_append,
    foldl_add_session, foldl_add_session, foldl_ownBefore, foldl_add_allTimes, List.foldl_append,
    hkey { d with
      bandwidths := d.bandwidths.rekeyed
      times := [] ++ d.times
      attributes := []
      media := [] },
    foldl_addOwn_attributes, foldl_add_allMedia]
  rfl

end Draft

end OfferAnswer
