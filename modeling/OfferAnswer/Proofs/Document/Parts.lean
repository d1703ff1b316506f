/-
OfferAnswer/Proofs/Document/Parts.lean

Sections as the parts that their slots are filled with.

The fields of a section stand slot by slot (`parts`).  A line is placed in a
slot behind which nothing has been filled in yet, so that its field comes last
(`Appends.flatten`); the exception is a bandwidth of a kind that is there
already, which takes the place of the one before (`enter`).
-/
import OfferAnswer.Proofs.Collapse
import OfferAnswer.Proofs.Document.Assembly
import OfferAnswer.Proofs.Document.Slots
import OfferAnswer.Document.Reader

namespace OfferAnswer

/-! ### Parts -/

section

variable {α : Type} {parts parts' : List (List α)} {s : Shape} {c : Char} {x : α}
  {last : Option Nat} {n m i j : Nat}

/-- No part is filled from a place on. -/
def EmptyFrom (parts : List (List α)) (n : Nat) : Prop := ∀ part ∈ parts.drop n, part = []

theorem EmptyFrom.mono (h : EmptyFrom parts n) (hnm : n ≤ m) : EmptyFrom parts m :=
  fun part hpart => h part (List.drop_subset_drop_left parts hnm hpart)

theorem EmptyFrom.getElem?_eq (h : EmptyFrom parts n) (hni : n ≤ i) (hi : i < parts.length) :
    parts[i]? = some [] := by
  have hget : parts[i]? = some parts[i] := List.getElem?_eq_getElem hi
  have hdrop : parts[i] ∈ parts.drop n := by
    rw [List.mem_iff_getElem?]
    exact ⟨i - n, by rw [List.getElem?_drop, Nat.add_sub_cancel' hni, hget]⟩
  rw [hget, h _ hdrop]

theorem EmptyFrom.modify (h : EmptyFrom parts (i + 1)) (f : List α → List α) :
    EmptyFrom (parts.modify i f) (i + 1) := by
  rw [EmptyFrom, List.drop_modify_of_lt _ _ _ _ (Nat.lt_succ_self i)]
  exact h

/-- What enters the last part that is filled enters the whole, if nothing in
front is alike to it. -/
theorem flatten_modify_enter {alike : α → α → Bool} (hi : i < parts.length)
    (hfront : ∀ part ∈ parts.take i, ∀ y ∈ part, alike y x = false)
    (h : EmptyFrom parts (i + 1)) :
    (parts.modify i (enter alike · x)).flatten = enter alike parts.flatten x := by
  induction parts generalizing i with
  | nil => exact absurd hi (Nat.not_lt_zero i)
  | cons part parts ih =>
    cases i with
    | zero =>
      have hrest : parts.flatten = [] := List.flatten_eq_nil_iff.mpr h
      simp [hrest]
    | succ i =>
      rw [List.take_succ_cons, List.forall_mem_cons] at hfront
      rw [List.modify_succ_cons, List.flatten_cons,
        ih (Nat.lt_of_succ_lt_succ hi) hfront.2 h, List.flatten_cons,
        enter_append_of_not_alike hfront.1]

/-- How many slots may be filled after a line in the last one. -/
def filled (last : Option Nat) : Nat := last.elim 0 (· + 1)

/-- A letter is placed in its slot, behind which no slot is filled; and nor is
the slot itself, if it takes a single line. -/
theorem Shape.slot_of_place (hs : (s.slots.map Prod.fst).Nodup)
    (h : s.place last c = .slot i) : ∃ many, s.slots[i]? = some (c, many)
      ∧ filled last ≤ i + 1 ∧ (many = false → filled last ≤ i) := by
  cases last with
  | none =>
    obtain ⟨slots⟩ := s
    rcases slots with - | ⟨⟨first, many⟩, slots⟩
    · simp [Shape.place] at h
    · obtain ⟨rfl, rfl⟩ := (Shape.place_none_eq_slot_iff rfl).mp h
      exact ⟨many, rfl, Nat.zero_le _, fun _ => Nat.zero_le _⟩
  | some last =>
    obtain ⟨hle, many, hi⟩ := (Shape.place_eq_slot_iff hs).mp h
    have hopen := Shape.opening_le_iff.mp hle
    refine ⟨many, hi, Nat.succ_le_succ (Nat.le_of_not_lt hopen.1), ?_⟩
    rintro rfl
    have hne : i ≠ last := by simpa [hi] using hopen.2
    exact Nat.lt_of_le_of_ne (Nat.le_of_not_lt hopen.1) (Ne.symm hne)

/-- A field enters the part of its letter and no other, if the slot is not
filled for good. -/
def Enters (alike : α → α → Bool) (s : Shape) (parts parts' : List (List α)) (c : Char) (x : α) :
    Prop :=
  ∃ i many, s.slots[i]? = some (c, many) ∧ i < parts.length
    ∧ (∀ part ∈ parts.take i, ∀ y ∈ part, alike y x = false)
    ∧ ((many = false → parts[i]? = some []) → parts' = parts.modify i (enter alike · x))

/-- A field that is alike to none comes last in its part. -/
theorem enters_of_not_alike {alike : α → α → Bool} (halike : ∀ y, alike y x = false)
    (h : ∃ i many, s.slots[i]? = some (c, many) ∧ i < parts.length
      ∧ ((many = false → parts[i]? = some []) → parts' = parts.modify i (· ++ [x]))) :
    Enters alike s parts parts' c x := by
  obtain ⟨i, many, hi, hlt, hmodify⟩ := h
  have henter : (enter alike · x) = (· ++ [x]) :=
    funext fun _ => enter_of_not_alike fun y _ => halike y
  exact ⟨i, many, hi, hlt, fun _ _ y _ => halike y, henter ▸ hmodify⟩

/-- A field whose line is placed enters the fields of the section. -/
theorem Enters.flatten {alike : α → α → Bool} (h : Enters alike s parts parts' c x)
    (hs : (s.slots.map Prod.fst).Nodup) (hempty : EmptyFrom parts (filled last))
    (hplace : s.place last c = .slot i) :
    parts'.flatten = enter alike parts.flatten x ∧ EmptyFrom parts' (i + 1) := by
  obtain ⟨j, many, hj, hlt, hfront, hmodify⟩ := h
  obtain ⟨many', hi, hle, hsingle⟩ := Shape.slot_of_place hs hplace
  -- A letter has one slot.
  obtain rfl : j = i := Option.some.inj <|
    ((Shape.findIdx?_eq_some_iff hs).mpr ⟨many, hj⟩).symm.trans
      ((Shape.findIdx?_eq_some_iff hs).mpr ⟨many', hi⟩)
  obtain rfl : many = many' := (Prod.mk.inj (Option.some.inj (hj.symm.trans hi))).2
  have hslot : many = false → parts[j]? = some [] := fun hm =>
    hempty.getElem?_eq (hsingle hm) hlt
  obtain rfl := hmodify hslot
  have hlater : EmptyFrom parts (j + 1) := hempty.mono hle
  exact ⟨flatten_modify_enter hlt hfront hlater, hlater.modify _⟩

end

/-! ### Bandwidths of a kind -/

/-- Whether two fields are bandwidths of one kind, case aside. -/
def Bandwidth.sameKind : Option Bandwidth → Option Bandwidth → Bool
  | some a, some b => a.kind == b.kind
  | _, _ => false

open Bandwidth (sameKind)

namespace Bandwidth

theorem sameKind_symm {a b : Option Bandwidth} (h : sameKind a b = true) :
    sameKind b a = true := by
  cases a <;> cases b <;> simp only [sameKind, Bool.false_eq_true] at h ⊢
  exact BEq.symm h

theorem sameKind_trans {a b c : Option Bandwidth} (hab : sameKind a b = true)
    (hbc : sameKind b c = true) : sameKind a c = true := by
  cases a <;> cases b <;> cases c <;> simp only [sameKind, Bool.false_eq_true] at hab hbc ⊢
  exact BEq.trans hab hbc

end Bandwidth

/-- A bandwidth takes the place of the one of its kind, or comes last. -/
theorem Bandwidths.map_put {bs : Bandwidths} (h : bs.Keyed) {φ : Type} (mk : Bandwidth → φ)
    (alike : φ → φ → Bool) (halike : ∀ a b, alike (mk a) (mk b) = (a.kind == b.kind))
    (b : Bandwidth) :
    (bs.put b).entries.map (fun e => mk e.2)
      = enter alike (bs.entries.map fun e => mk e.2) (mk b) := by
  -- The kind of an entry is found under its key.
  have hkey : ∀ e ∈ bs.entries, (e.1 == b.kind) = alike (mk e.2) (mk b) := fun e he => by
    rw [halike, Bool.eq_iff_iff]
    exact ⟨BEq.trans (BEq.symm (h e he)), BEq.trans (h e he)⟩
  have hany : bs.contains b.kind = (bs.entries.map fun e => mk e.2).any (alike · (mk b)) := by
    rw [OrderedMap.contains, List.any_map, Bool.eq_iff_iff, List.any_eq_true, List.any_eq_true]
    exact exists_congr fun e => and_congr_right fun he => by rw [hkey e he, Function.comp_apply]
  rw [put, enter, ← hany]
  split
  · next hc =>
    rw [OrderedMap.entries_insert_of_contains hc, List.map_map, List.map_map]
    refine List.map_congr_left fun e he => ?_
    rw [Function.comp_apply, Function.comp_apply, hkey e he]
    split <;> rfl
  · next hc =>
    rw [OrderedMap.entries_insert_of_not_contains (Bool.eq_false_iff.mpr hc), List.map_append]
    rfl

def SessionField.bandwidth? : SessionField → Option Bandwidth
  | .bandwidth b => some b
  | _ => none

def MediaField.bandwidth? : MediaField → Option Bandwidth
  | .bandwidth b => some b
  | _ => none

/-! ### Times -/

namespace TimeSection

variable {t : TimeSection} {f : TimeField} {last i : Nat}

/-- What each slot is filled with. -/
def parts (t : TimeSection) : List (List TimeField) :=
  [[.active t.active], t.repetitions.map .repetition, (t.zone.map .zone).toList]

theorem flatten_parts (t : TimeSection) : t.parts.flatten = t.fields := by
  simp [parts, fields]

theorem enters_add (t : TimeSection) (f : TimeField) :
    Enters (fun _ _ => false) .time t.parts (t.add f).parts f.letter f := by
  refine enters_of_not_alike (fun _ => rfl) ?_
  cases f with
  | active a => exact ⟨0, false, rfl, by simp [parts], by simp [parts]⟩
  | repetition r => exact ⟨1, true, rfl, by simp [parts], by simp [parts, add]⟩
  | zone z => exact ⟨2, false, rfl, by simp [parts], by simp +contextual [parts, add]⟩

/-- A field of the open time comes last. -/
theorem fields_add (hempty : EmptyFrom t.parts (last + 1))
    (hplace : Shape.time.place (some last) f.letter = .slot i) :
    (t.add f).fields = t.fields ++ [f] ∧ EmptyFrom (t.add f).parts (i + 1) := by
  have h := (t.enters_add f).flatten (Shape.nodup_letters .time)
    (show EmptyFrom t.parts (filled (some last)) from hempty) hplace
  rw [flatten_parts, flatten_parts, enter_of_not_alike fun _ _ => rfl] at h
  exact h

end TimeSection

/-! ### Media -/

namespace MediaSection

variable {m : MediaSection} {f : MediaField} {last i : Nat}

/-- What each slot is filled with. -/
def parts (m : MediaSection) : List (List MediaField) :=
  [[.medium m.medium], (m.title.map .title).toList, (m.connection.map .connection).toList,
    m.bandwidths.entries.map fun e => .bandwidth e.2, (m.key.map .key).toList,
    m.attributes.map .attr]

theorem flatten_parts (m : MediaSection) : m.parts.flatten = m.fields := by
  simp [parts, fields]

/-- Whether two fields are bandwidths of one kind. -/
def alike (f g : MediaField) : Bool := sameKind f.bandwidth? g.bandwidth?

theorem alike_eq_false {f : MediaField} (h : f.bandwidth? = none) (g : MediaField) :
    alike g f = false := by
  rw [alike, h]
  cases g.bandwidth? <;> rfl

theorem enters_add (h : m.bandwidths.Keyed) (f : MediaField) :
    Enters alike .media m.parts (m.add f).parts f.letter f := by
  cases f with
  | medium medium =>
    exact enters_of_not_alike (alike_eq_false rfl)
      ⟨0, false, rfl, by simp [parts], by simp [parts]⟩
  | title t =>
    exact enters_of_not_alike (alike_eq_false rfl)
      ⟨1, false, rfl, by simp [parts], by simp +contextual [parts, add]⟩
  | connection c =>
    exact enters_of_not_alike (alike_eq_false rfl)
      ⟨2, false, rfl, by simp [parts], by simp +contextual [parts, add]⟩
  | bandwidth b =>
    have hfront : ∀ part ∈ m.parts.take 3, ∀ f ∈ part, alike f (.bandwidth b) = false := by
      simp [parts, alike, MediaField.bandwidth?, sameKind]
    refine ⟨3, true, rfl, by simp [parts], hfront, fun _ => ?_⟩
    have hput := Bandwidths.map_put h .bandwidth alike (fun _ _ => rfl) b
    simp only [parts, add, hput, List.modify_succ_cons, List.modify_zero_cons]
  | key k =>
    exact enters_of_not_alike (alike_eq_false rfl)
      ⟨4, false, rfl, by simp [parts], by simp +contextual [parts, add]⟩
  | attr a =>
    exact enters_of_not_alike (alike_eq_false rfl)
      ⟨5, true, rfl, by simp [parts], by simp [parts, add]⟩

/-- A field of the open medium enters its fields. -/
theorem fields_add (h : m.bandwidths.Keyed) (hempty : EmptyFrom m.parts (last + 1))
    (hplace : Shape.media.place (some last) f.letter = .slot i) :
    (m.add f).fields = enter alike m.fields f ∧ EmptyFrom (m.add f).parts (i + 1) := by
  have h := (enters_add h f).flatten (Shape.nodup_letters .media)
    (show EmptyFrom m.parts (filled (some last)) from hempty) hplace
  rwa [flatten_parts, flatten_parts] at h

end MediaSection

/-! ### Sessions -/

namespace Draft

variable {d : Draft} {f : DocumentField} {last : Option Nat} {i : Nat}

/-- What each slot is filled with, whole sections in the slots for them. -/
def parts (d : Draft) : List (List DocumentField) :=
  [(d.version.map .version).toList.map .session, (d.origin.map .origin).toList.map .session,
    (d.name.map .name).toList.map .session, (d.information.map .information).toList.map .session,
    (d.uri.map .uri).toList.map .session, (d.email.map .email).toList.map .session,
    (d.phone.map .phone).toList.map .session,
    (d.connection.map .connection).toList.map .session,
    d.bandwidths.entries.map fun e => .session (.bandwidth e.2),
    d.times.flatMap fun t => t.fields.map .time,
    (d.key.map .key).toList.map .session, d.attributes.map fun a => .session (.attr a),
    d.media.flatMap fun m => m.fields.map .media]

theorem flatten_parts (d : Draft) : d.parts.flatten = d.fields := by
  simp [parts, fields, ownBefore, ownAfter, Function.comp_def]

/-- Whether two fields are the session's own bandwidths of one kind. -/
def ownAlike (f g : DocumentField) : Bool :=
  match f, g with
  | .session f, .session g => sameKind f.bandwidth? g.bandwidth?
  | _, _ => false

theorem ownAlike_eq_false (h : ∀ b, f ≠ .session (.bandwidth b)) (g : DocumentField) :
    ownAlike g f = false := by
  rcases f with f | f | f
  · rcases g with g | g | g
    · cases f with
      | bandwidth b => exact absurd rfl (h b)
      | _ => cases g <;> rfl
    · rfl
    · rfl
  · cases g <;> rfl
  · cases g <;> rfl

theorem owner_of_ownAlike {f g : DocumentField} (h : ownAlike f g = true) :
    f.owner = .session := by
  cases f with
  | session f => rfl
  | _ => simp [ownAlike] at h

theorem enters_add (h : d.bandwidths.Keyed) (hf : Document.isOwnLine f = true) :
    Enters ownAlike .session d.parts (d.add f).parts f.letter f := by
  have hone : ∀ i many, (∀ b, f ≠ .session (.bandwidth b)) →
      Shape.session.slots[i]? = some (f.letter, many) →
      ((many = false → d.parts[i]? = some []) → (d.add f).parts = d.parts.modify i (· ++ [f])) →
      Enters ownAlike .session d.parts (d.add f).parts f.letter f := fun i many hb hi hmodify =>
    enters_of_not_alike (ownAlike_eq_false hb) ⟨i, many, hi, (List.getElem?_eq_some_iff.mp hi).1,
      hmodify⟩
  rcases f with f | f | f
  · cases f with
    | version v => exact hone 0 false (by simp) rfl (by simp +contextual [parts, add, addOwn])
    | origin o => exact hone 1 false (by simp) rfl (by simp +contextual [parts, add, addOwn])
    | name n => exact hone 2 false (by simp) rfl (by simp +contextual [parts, add, addOwn])
    | information t => exact hone 3 false (by simp) rfl (by simp +contextual [parts, add, addOwn])
    | uri t => exact hone 4 false (by simp) rfl (by simp +contextual [parts, add, addOwn])
    | email t => exact hone 5 false (by simp) rfl (by simp +contextual [parts, add, addOwn])
    | phone t => exact hone 6 false (by simp) rfl (by simp +contextual [parts, add, addOwn])
    | connection c => exact hone 7 false (by simp) rfl (by simp +contextual [parts, add, addOwn])
    | bandwidth b =>
      have hfront : ∀ part ∈ d.parts.take 8, ∀ f ∈ part,
          ownAlike f (.session (.bandwidth b)) = false := by
        simp [parts, ownAlike, SessionField.bandwidth?, sameKind]
      refine ⟨8, true, rfl, by simp [parts], hfront, fun _ => ?_⟩
      have hput := Bandwidths.map_put h (fun b => DocumentField.session (.bandwidth b)) ownAlike
        (fun _ _ => rfl) b
      simp only [parts, add, addOwn, hput, List.modify_succ_cons, List.modify_zero_cons]
    | key k => exact hone 10 false (by simp) rfl (by simp +contextual [parts, add, addOwn])
    | attr a => exact hone 11 true (by simp) rfl (by simp [parts, add, addOwn])
  · cases f with
    | active a =>
      exact hone 9 true (by simp) rfl
        (by simp [parts, add, TimeSection.ofActive, TimeSection.fields])
    | _ => simp [Document.isOwnLine] at hf
  · cases f with
    | medium m =>
      exact hone 12 true (by simp) rfl
        (by simp [parts, add, MediaSection.ofMedium, MediaSection.fields])
    | _ => simp [Document.isOwnLine] at hf

/-- A line of the session itself enters its fields. -/
theorem fields_add_own (h : d.bandwidths.Keyed) (hf : Document.isOwnLine f = true)
    (hempty : EmptyFrom d.parts (filled last))
    (hplace : Shape.session.place last f.letter = .slot i) :
    (d.add f).fields = enter ownAlike d.fields f ∧ EmptyFrom (d.add f).parts (i + 1) := by
  have h := (enters_add h hf).flatten (Shape.nodup_letters .session) hempty hplace
  rwa [flatten_parts, flatten_parts] at h

end Draft

end OfferAnswer
