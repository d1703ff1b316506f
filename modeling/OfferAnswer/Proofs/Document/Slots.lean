/-
OfferAnswer/Proofs/Document/Slots.lean

The order of lines as an automaton for the grammar.

Reading knows no grammar: it compares positions in tables of slots.  What may
still come at a position is a language (`ahead`), and a step of reading takes
the next letter off that language (`cons_mem_ahead`).  That is an equation for
each position, and none of them is solved by hand: a table of slots has a
language of its own (`tail`), whose derivatives are again languages of tables.
-/
import Mathlib.Data.Bool.AllAny
import OfferAnswer.Proofs.Document.Grammar

namespace OfferAnswer

open scoped Computability

/-! ### Tables of slots -/

namespace Shape

variable {body : Char → Language Char} {slots : List (Char × Bool)} {s : Shape} {c : Char}
  {w : List Char} {last i k : Nat}

/-- What may fill a slot, given what each of its letters begins. -/
def slotLanguage (body : Char → Language Char) (slot : Char × Bool) : Language Char :=
  if slot.2 then (body slot.1)∗ else 1 + body slot.1

/-- What may fill some slots. -/
def tail (body : Char → Language Char) (slots : List (Char × Bool)) : Language Char :=
  (slots.map (slotLanguage body)).prod

theorem cons_mem_kstar {L : Language Char} :
    c :: w ∈ L∗ ↔ ∃ a b, a ++ b = w ∧ c :: a ∈ L ∧ b ∈ L∗ := by
  constructor
  · intro h
    obtain ⟨S, hS, hL⟩ := Language.mem_kstar_iff_exists_nonempty.mp h
    cases S with
    | nil => simp at hS
    | cons x S =>
      obtain ⟨d, a, rfl⟩ := List.exists_cons_of_ne_nil (hL x (by simp)).2
      rw [List.flatten_cons, List.cons_append, List.cons.injEq] at hS
      obtain ⟨rfl, rfl⟩ := hS
      refine ⟨a, S.flatten, rfl, (hL _ (by simp)).1, Language.join_mem_kstar fun y hy => ?_⟩
      exact (hL y (List.mem_cons_of_mem _ hy)).1
  · rintro ⟨a, b, rfl, ha, S, rfl, hS⟩
    exact ⟨(c :: a) :: S, rfl, List.forall_mem_cons.mpr ⟨ha, hS⟩⟩

theorem nil_mem_slotLanguage (slot : Char × Bool) : [] ∈ slotLanguage body slot := by
  unfold slotLanguage
  split
  · exact Language.nil_mem_kstar _
  · exact .inl rfl

theorem nil_mem_tail : [] ∈ tail body slots := by
  induction slots with
  | nil => exact Language.nil_mem_one
  | cons slot slots ih => exact ⟨[], nil_mem_slotLanguage slot, [], ih, rfl⟩

/-- A word that begins what a slot may be filled with. -/
theorem cons_mem_slotLanguage {slot : Char × Bool} :
    c :: w ∈ slotLanguage body slot ↔ ∃ a b, a ++ b = w ∧ c :: a ∈ body slot.1
      ∧ b ∈ (if slot.2 then slotLanguage body slot else 1) := by
  obtain ⟨d, _ | _⟩ := slot
  · constructor
    · rintro (h | h)
      · exact absurd h (List.cons_ne_nil c w)
      · exact ⟨w, [], List.append_nil w, h, rfl⟩
    · rintro ⟨a, b, rfl, ha, hb⟩
      obtain rfl : b = [] := hb
      rw [List.append_nil]
      exact .inr ha
  · exact cons_mem_kstar

/-- The first letter chooses the slot, and what may follow it is again what
may fill slots: the later ones, and the slot itself if it takes many. -/
theorem cons_mem_tail (hbody : ∀ d a, c :: a ∈ body d → d = c) :
    c :: w ∈ tail body slots ↔
      ∃ (i : Nat) (many : Bool), slots[i]? = some (c, many) ∧ ∃ a b, a ++ b = w
      ∧ c :: a ∈ body c ∧ b ∈ tail body (slots.drop (if many then i else i + 1)) := by
  induction slots generalizing w with
  | nil =>
    refine ⟨fun h => ?_, by simp⟩
    exact absurd ((Language.mem_one _).mp h) (List.cons_ne_nil c w)
  | cons slot slots ih =>
    obtain ⟨d, many⟩ := slot
    constructor
    · rintro ⟨_ | ⟨e, a⟩, hslot, b, hb, hab⟩
      · -- the first slot is left empty
        obtain rfl : b = c :: w := hab
        obtain ⟨i, m, hi, rest⟩ := ih.mp hb
        refine ⟨i + 1, m, hi, ?_⟩
        cases m <;> exact rest
      · -- the first slot is the one that is chosen
        obtain ⟨rfl, rfl⟩ : e = c ∧ a ++ b = w := List.cons.inj hab
        obtain ⟨a₁, a₂, rfl, ha₁, ha₂⟩ := cons_mem_slotLanguage.mp hslot
        obtain rfl : d = e := hbody d a₁ ha₁
        refine ⟨0, many, rfl, a₁, a₂ ++ b, by simp, ha₁, ?_⟩
        cases many with
        | false =>
          obtain rfl : a₂ = [] := ha₂
          exact hb
        | true => exact ⟨a₂, ha₂, b, hb, rfl⟩
    · rintro ⟨_ | i, m, hi, a, b, rfl, ha, hb⟩
      · obtain ⟨rfl, rfl⟩ : d = c ∧ many = m := by simpa using hi
        cases many with
        | false =>
          refine ⟨d :: a, cons_mem_slotLanguage.mpr ⟨a, [], by simp, ha, rfl⟩, b, hb, rfl⟩
        | true =>
          obtain ⟨b₁, hb₁, b₂, hb₂, rfl⟩ := hb
          exact ⟨d :: (a ++ b₁), cons_mem_slotLanguage.mpr ⟨a, b₁, rfl, ha, hb₁⟩, b₂, hb₂,
            by simp⟩
      · have htail : c :: (a ++ b) ∈ tail body slots :=
          ih.mpr ⟨i, m, hi, a, b, rfl, ha, by cases m <;> exact hb⟩
        exact ⟨[], nil_mem_slotLanguage _, c :: (a ++ b), htail, rfl⟩

/-- Where the slots begin that are still open after one was filled. -/
def opening (s : Shape) (last : Nat) : Nat :=
  if s.slots[last]?.any (·.2) then last else last + 1

/-- What may still come in a section after a slot was filled. -/
def after (body : Char → Language Char) (s : Shape) (last : Nat) : Language Char :=
  tail body (s.slots.drop (s.opening last))

/-- Where letters do not repeat, the slot of a letter is the only one with it. -/
theorem findIdx?_eq_some_iff (hs : (s.slots.map Prod.fst).Nodup) :
    s.slots.findIdx? (fun slot => slot.1 = c) = some i ↔ ∃ many, s.slots[i]? = some (c, many) := by
  rw [List.findIdx?_eq_some_iff_getElem]
  constructor
  · rintro ⟨hi, hc, -⟩
    have hc : s.slots[i].1 = c := of_decide_eq_true hc
    exact ⟨s.slots[i].2, by rw [List.getElem?_eq_getElem hi, ← hc]⟩
  · rintro ⟨many, hm⟩
    obtain ⟨hi, hslot⟩ := List.getElem?_eq_some_iff.mp hm
    refine ⟨hi, by simp [hslot], fun k hk => ?_⟩
    rw [decide_eq_true_eq]
    intro hc
    -- An earlier slot with the letter would repeat it.
    have hil : i < (s.slots.map Prod.fst).length := by rwa [List.length_map]
    have heq : (s.slots.map Prod.fst)[k] = (s.slots.map Prod.fst)[i] := by
      rw [List.getElem_map, List.getElem_map, hc, hslot]
    exact absurd ((hs.getElem_inj_iff).mp heq) (Nat.ne_of_lt hk)

/-- The slots that are open are not passed, and not filled for good. -/
theorem opening_le_iff :
    s.opening last ≤ i ↔ ¬ i < last ∧ ¬ (i = last ∧ (!(s.slots[i]?.any (·.2))) = true) := by
  unfold opening
  by_cases hl : i = last
  · subst hl
    cases hany : s.slots[i]?.any (·.2) <;> simp
  · split <;> omega

/-- A letter is placed in the slot that has it, if that slot is still open. -/
theorem place_eq_slot_iff (hs : (s.slots.map Prod.fst).Nodup) :
    s.place (some last) c = .slot i ↔
      s.opening last ≤ i ∧ ∃ many, s.slots[i]? = some (c, many) := by
  rw [← findIdx?_eq_some_iff hs]
  unfold place
  simp only
  split
  · next hnone => simp [hnone]
  · next j hj =>
    rw [hj, Option.some.injEq]
    split
    · next hlt =>
      -- The slot is behind the last one.
      refine ⟨fun h => absurd h (by simp), ?_⟩
      rintro ⟨ho, rfl⟩
      exact absurd hlt (opening_le_iff.mp ho).1
    · next hlt =>
      split
      · next hmis =>
        -- The slot is the last one, and takes no second line.
        refine ⟨fun h => absurd h (by simp), ?_⟩
        rintro ⟨ho, rfl⟩
        exact absurd hmis (opening_le_iff.mp ho).2
      · next hmis =>
        rw [Admission.slot.injEq]
        exact ⟨fun he => ⟨he ▸ opening_le_iff.mpr ⟨hlt, hmis⟩, he⟩, fun h => h.2⟩

/-- Without a line before it, the first letter is wanted. -/
theorem place_none_eq_slot_iff {first : Char} {many : Bool}
    (h : s.slots = (first, many) :: slots) : s.place none c = .slot i ↔ c = first ∧ i = 0 := by
  rw [place, h]
  show (if c = first then Admission.slot 0 else .notFirst first) = _ ↔ _
  split <;> simp_all [eq_comm]

/-- The next letter chooses an open slot, and what follows begins in it. -/
theorem cons_mem_after (hs : (s.slots.map Prod.fst).Nodup)
    (hbody : ∀ d a, c :: a ∈ body d → d = c) :
    c :: w ∈ after body s last ↔ ∃ i, s.place (some last) c = .slot i ∧ ∃ a b, a ++ b = w
      ∧ c :: a ∈ body c ∧ b ∈ after body s i := by
  have hopening : ∀ {i many}, s.slots[i]? = some (c, many) →
      s.opening i = if many then i else i + 1 := by
    intro i many hi
    simp [opening, hi]
  rw [after, cons_mem_tail hbody]
  simp only [List.getElem?_drop, List.drop_drop]
  constructor
  · rintro ⟨i, many, hi, a, b, hab, ha, hb⟩
    -- Slots of the tail are counted from the first one that is open.
    refine ⟨s.opening last + i, (place_eq_slot_iff hs).mpr ⟨by omega, many, hi⟩, a, b, hab, ha, ?_⟩
    rw [after, hopening hi]
    cases many <;> exact hb
  · rintro ⟨i, hplace, a, b, hab, ha, hb⟩
    obtain ⟨hle, many, hi⟩ := (place_eq_slot_iff hs).mp hplace
    obtain ⟨k, rfl⟩ := Nat.exists_eq_add_of_le hle
    refine ⟨k, many, hi, a, b, hab, ha, ?_⟩
    rw [after, hopening hi] at hb
    cases many <;> exact hb

theorem nil_mem_after : [] ∈ after body s last := nil_mem_tail

/-! ### Sections -/

/-- Each letter stands for one line. -/
def single (c : Char) : Language Char := {[c]}

theorem cons_mem_after_single (hs : (s.slots.map Prod.fst).Nodup) :
    c :: w ∈ after single s last ↔
      ∃ i, s.place (some last) c = .slot i ∧ w ∈ after single s i := by
  have hbody : ∀ d a, c :: a ∈ single d → d = c := fun d a h => (List.cons.inj h).1.symm
  rw [cons_mem_after hs hbody]
  refine exists_congr fun i => and_congr_right fun _ => ⟨?_, fun hw => ⟨[], w, rfl, rfl, hw⟩⟩
  rintro ⟨a, b, rfl, ha, hb⟩
  obtain rfl : a = [] := (List.cons.inj ha).2
  exact hb

theorem nodup_letters (o : Owner) : ((Position.shapeOf o).slots.map Prod.fst).Nodup := by
  cases o <;> decide

theorem matches'_time : Grammar.time.matches' = {['t']} * after single .time 0 := by
  simp [Grammar.time, Grammar.optional, after, tail, slotLanguage, single, time, opening, mul_assoc]

theorem matches'_media : Grammar.media.matches' = {['m']} * after single .media 0 := by
  simp [Grammar.media, Grammar.optional, after, tail, slotLanguage, single, media, opening,
    mul_assoc]

/-- What a letter begins in a session: a whole section, or one line. -/
def begun (c : Char) : Language Char :=
  match Position.opened c with
  | some o => {[c]} * after single (Position.shapeOf o) 0
  | none => single c

theorem matches'_sessionWith : (Grammar.sessionWith (Grammar.optional (.char 'o'))
      (Grammar.optional (.char 's')) (.star Grammar.time)).matches'
    = {['v']} * after begun .session 0 := by
  have ht : begun 't' = Grammar.time.matches' := matches'_time.symm
  have hm : begun 'm' = Grammar.media.matches' := matches'_media.symm
  have hlines : begun 'o' = {['o']} ∧ begun 's' = {['s']} ∧ begun 'i' = {['i']}
      ∧ begun 'u' = {['u']} ∧ begun 'e' = {['e']} ∧ begun 'p' = {['p']} ∧ begun 'c' = {['c']}
      ∧ begun 'b' = {['b']} ∧ begun 'k' = {['k']} ∧ begun 'a' = {['a']} :=
    ⟨rfl, rfl, rfl, rfl, rfl, rfl, rfl, rfl, rfl, rfl⟩
  simp [Grammar.sessionWith, Grammar.optional, after, tail, slotLanguage, session, opening, ht, hm,
    hlines, mul_assoc]

/-- What follows a letter in what it begins. -/
theorem cons_mem_begun {d : Char} :
    c :: w ∈ begun d ↔ d = c ∧ w ∈ ((Position.opened d).elim 1
      fun o => after single (Position.shapeOf o) 0 : Language Char) := by
  unfold begun
  cases Position.opened d with
  | none =>
    constructor
    · intro h
      obtain ⟨rfl, rfl⟩ : c = d ∧ w = [] := List.cons.inj h
      exact ⟨rfl, rfl⟩
    · rintro ⟨rfl, hw⟩
      obtain rfl : w = [] := hw
      rfl
  | some o =>
    constructor
    · rintro ⟨a, ha, b, hb, hab⟩
      obtain rfl : a = [d] := ha
      obtain ⟨rfl, rfl⟩ : d = c ∧ b = w := List.cons.inj hab
      exact ⟨rfl, hb⟩
    · rintro ⟨rfl, hw⟩
      exact ⟨[d], rfl, w, hw, rfl⟩

end Shape

/-! ### Positions -/

namespace Position

variable {p p' : Position} {c : Char} {w : List Char} {o : Owner}

/-- A section is open only inside the slot of the session that is for it. -/
inductive Valid : Position → Prop
  | outside (slot : Option Nat) : Valid ⟨slot, none⟩
  | time (last : Nat) : Valid ⟨some 9, some (.time, last)⟩
  | media (last : Nat) : Valid ⟨some 12, some (.media, last)⟩

/-- What may still come in the session itself. -/
def outer (slot : Option Nat) : Language Char :=
  match slot with
  | some last => Shape.after Shape.begun .session last
  | none => {['v']} * Shape.after Shape.begun .session 0

/-- What may still come: the rest of the open section, and then that of the
session. -/
def ahead (p : Position) : Language Char :=
  (p.inner.elim 1 fun i => Shape.after Shape.single (shapeOf i.1) i.2) * outer p.slot

/-- The owner of the last line. -/
def owner (p : Position) : Owner := p.inner.elim .session (·.1)

/-! ### Lines of the session -/

theorem nextInSession_eq_ok_iff : p.nextInSession c = .ok (p', o) ↔
    ∃ i, Shape.session.place p.slot c = .slot i ∧ p' = ⟨some i, (opened c).map (·, 0)⟩
      ∧ o = (opened c).getD .session := by
  unfold nextInSession
  cases hplace : Shape.session.place p.slot c with
  | slot i => cases opened c <;> simp [eq_comm]
  | _ => simp

theorem cons_mem_outer {slot : Option Nat} : c :: w ∈ outer slot ↔
    ∃ i, Shape.session.place slot c = .slot i
      ∧ w ∈ ahead ⟨some i, (opened c).map (·, 0)⟩ := by
  have hbegun : ∀ d a, c :: a ∈ Shape.begun d → d = c := fun d a h => (Shape.cons_mem_begun.mp h).1
  have hahead : ∀ i, w ∈ ahead ⟨some i, (opened c).map (·, 0)⟩ ↔ ∃ a b, a ++ b = w
      ∧ c :: a ∈ Shape.begun c ∧ b ∈ Shape.after Shape.begun .session i := by
    intro i
    have hinner : ((opened c).map fun o => (o, 0)).elim (1 : Language Char)
        (fun i => Shape.after Shape.single (shapeOf i.1) i.2)
        = (opened c).elim 1 fun o => Shape.after Shape.single (shapeOf o) 0 := by
      cases opened c <;> rfl
    simp only [ahead, outer, hinner, Language.mem_mul, Shape.cons_mem_begun, true_and]
    constructor
    · rintro ⟨a, ha, b, hb, hab⟩
      exact ⟨a, b, hab, ha, hb⟩
    · rintro ⟨a, b, hab, ha, hb⟩
      exact ⟨a, ha, b, hb, hab⟩
  simp only [hahead]
  cases slot with
  | some last => exact Shape.cons_mem_after (Shape.nodup_letters .session) hbegun
  | none =>
    have hplace : ∀ i, Shape.session.place none c = .slot i ↔ c = 'v' ∧ i = 0 :=
      fun i => Shape.place_none_eq_slot_iff rfl
    simp only [hplace]
    constructor
    · rintro ⟨a, ha, b, hb, hab⟩
      obtain rfl : a = ['v'] := ha
      obtain ⟨rfl, rfl⟩ : 'v' = c ∧ b = w := List.cons.inj hab
      exact ⟨0, ⟨rfl, rfl⟩, [], b, rfl, rfl, hb⟩
    · rintro ⟨_, ⟨rfl, rfl⟩, a, b, rfl, ha, hb⟩
      exact ⟨'v' :: a, ha, b, hb, rfl⟩

/-! ### Lines of an open section -/

/-- After its first line a section admits only its other letters. -/
theorem mem_drop_of_place {last i : Nat}
    (h : (shapeOf o).place (some last) c = .slot i) :
    c ∈ ((shapeOf o).slots.drop 1).map Prod.fst := by
  obtain ⟨hle, many, hi⟩ := (Shape.place_eq_slot_iff (Shape.nodup_letters o)).mp h
  have hopen : 1 ≤ (shapeOf o).opening last := by
    unfold Shape.opening
    split
    · next hany =>
      rcases last with - | last
      · cases o <;> simp [shapeOf, Shape.time, Shape.media, Shape.session] at hany
      · omega
    · omega
  refine List.mem_map.mpr ⟨(c, many), List.mem_of_getElem? (i := i - 1) ?_, rfl⟩
  rw [List.getElem?_drop, Nat.add_sub_cancel' (Nat.le_trans hopen hle)]
  exact hi

/-- The letters of a section that the session refuses inside it. -/
theorem place_ne_slot_of_mem :
    (∀ c ∈ (Shape.time.slots.drop 1).map Prod.fst, ∀ i, Shape.session.place (some 9) c ≠ .slot i)
      ∧ ∀ c ∈ (Shape.media.slots.drop 1).map Prod.fst, ∀ i,
        Shape.session.place (some 12) c ≠ .slot i := by
  have htime : ∀ c ∈ (Shape.time.slots.drop 1).map Prod.fst,
      Shape.session.place (some 9) c = .unknown := List.all_iff_forall_prop.mp (by decide)
  have hmedia : ∀ c ∈ (Shape.media.slots.drop 1).map Prod.fst,
      Shape.session.place (some 12) c = .misplaced := List.all_iff_forall_prop.mp (by decide)
  exact ⟨fun c hc i => by simp [htime c hc], fun c hc i => by simp [hmedia c hc]⟩

theorem cons_mem_mul {A B : Language Char} (hA : [] ∈ A) :
    c :: w ∈ A * B ↔ (∃ a b, a ++ b = w ∧ c :: a ∈ A ∧ b ∈ B) ∨ c :: w ∈ B := by
  constructor
  · rintro ⟨_ | ⟨d, a⟩, ha, b, hb, hab⟩
    · exact .inr (hab ▸ hb)
    · obtain ⟨rfl, rfl⟩ : d = c ∧ a ++ b = w := List.cons.inj hab
      exact .inl ⟨a, b, rfl, ha, hb⟩
  · rintro (⟨a, b, rfl, ha, hb⟩ | hb)
    · exact ⟨c :: a, ha, b, hb, rfl⟩
    · exact ⟨[], hA, c :: w, hb, rfl⟩

theorem next_of_place {slot : Option Nat} {last i : Nat}
    (h : (shapeOf o).place (some last) c = .slot i) :
    next ⟨slot, some (o, last)⟩ c = .ok (⟨slot, some (o, i)⟩, o) := by
  simp [next, h]

theorem next_of_not_place {slot : Option Nat} {last : Nat}
    (h : ∀ i, (shapeOf o).place (some last) c ≠ .slot i) :
    next ⟨slot, some (o, last)⟩ c = nextInSession ⟨slot, some (o, last)⟩ c := by
  unfold next
  split
  · next o' last' he =>
    obtain ⟨rfl, rfl⟩ := Prod.mk.inj (Option.some.inj he)
    split
    · next i hi => exact absurd hi (h i)
    · rfl
  · next he => simp at he

/-- What the session may admit next, it admits. -/
theorem cons_mem_outer_iff_nextInSession : c :: w ∈ outer p.slot ↔
    ∃ p' o, p.nextInSession c = .ok (p', o) ∧ w ∈ p'.ahead := by
  simp only [cons_mem_outer, nextInSession_eq_ok_iff]
  constructor
  · rintro ⟨i, hi, hw⟩
    exact ⟨_, _, ⟨i, hi, rfl, rfl⟩, hw⟩
  · rintro ⟨_, _, ⟨i, hi, rfl, rfl⟩, hw⟩
    exact ⟨i, hi, hw⟩

/-- A step inside a section, if the session does not want its letters. -/
theorem cons_mem_ahead_inside {slot last : Nat}
    (hdisjoint : ∀ c ∈ ((shapeOf o).slots.drop 1).map Prod.fst, ∀ i,
      Shape.session.place (some slot) c ≠ .slot i) :
    c :: w ∈ ahead ⟨some slot, some (o, last)⟩ ↔
      ∃ p' o', next ⟨some slot, some (o, last)⟩ c = .ok (p', o') ∧ w ∈ p'.ahead := by
  have hsplit : c :: w ∈ ahead ⟨some slot, some (o, last)⟩ ↔
      (∃ i, (shapeOf o).place (some last) c = .slot i ∧ w ∈ ahead ⟨some slot, some (o, i)⟩)
        ∨ c :: w ∈ outer (some slot) := by
    refine (cons_mem_mul Shape.nil_mem_after).trans (or_congr_left ?_)
    simp only [Shape.cons_mem_after_single (Shape.nodup_letters o)]
    constructor
    · rintro ⟨a, b, rfl, ⟨i, hi, ha⟩, hb⟩
      exact ⟨i, hi, a, ha, b, hb, rfl⟩
    · rintro ⟨i, hi, a, ha, b, hb, rfl⟩
      exact ⟨a, b, rfl, ⟨i, hi, ha⟩, hb⟩
  rw [hsplit]
  by_cases hplace : ∃ i, (shapeOf o).place (some last) c = .slot i
  · -- the section takes the letter, and the session would not
    obtain ⟨i, hi⟩ := hplace
    have houter : c :: w ∉ outer (some slot) := by
      rw [cons_mem_outer]
      rintro ⟨j, hj, -⟩
      exact hdisjoint c (mem_drop_of_place hi) j hj
    simp [next_of_place hi, hi, houter]
  · -- the section leaves the letter to the session
    rw [not_exists] at hplace
    have hinner : ¬ ∃ i, (shapeOf o).place (some last) c = .slot i
        ∧ w ∈ ahead ⟨some slot, some (o, i)⟩ := fun ⟨i, hi, _⟩ => hplace i hi
    rw [next_of_not_place hplace, or_iff_right hinner]
    exact cons_mem_outer_iff_nextInSession (p := ⟨some slot, some (o, last)⟩)

/-! ### Steps -/

/-- A step of reading takes the next letter off what may still come. -/
theorem cons_mem_ahead (hp : p.Valid) :
    c :: w ∈ p.ahead ↔ ∃ p' o, p.next c = .ok (p', o) ∧ w ∈ p'.ahead := by
  cases hp with
  | outside slot =>
    have houter : ahead ⟨slot, none⟩ = outer slot := one_mul _
    rw [houter]
    exact cons_mem_outer_iff_nextInSession (p := ⟨slot, none⟩)
  | time last => exact cons_mem_ahead_inside place_ne_slot_of_mem.1
  | media last => exact cons_mem_ahead_inside place_ne_slot_of_mem.2

/-- After the first line there may be no more. -/
theorem nil_mem_ahead (h : p.slot ≠ none) : [] ∈ p.ahead := by
  have hinner : [] ∈ (p.inner.elim 1 fun i => Shape.after Shape.single (shapeOf i.1) i.2 :
      Language Char) := by
    cases p.inner with
    | none => exact Language.nil_mem_one
    | some i => exact Shape.nil_mem_after
  obtain ⟨last, hlast⟩ := Option.ne_none_iff_exists'.mp h
  have houter : [] ∈ outer p.slot := by
    rw [hlast]
    exact Shape.nil_mem_after
  exact ⟨[], hinner, [], houter, rfl⟩

/-- The place of a letter is that of its slot. -/
theorem findIdx?_of_place {slot : Option Nat} {i : Nat}
    (h : Shape.session.place slot c = .slot i) :
    Shape.session.slots.findIdx? (fun s => s.1 = c) = some i := by
  cases slot with
  | none =>
    obtain ⟨rfl, rfl⟩ := (Shape.place_none_eq_slot_iff rfl).mp h
    decide
  | some last =>
    unfold Shape.place at h
    simp only at h
    split at h
    · simp at h
    · next j hj =>
      split at h
      · simp at h
      · split at h
        · simp at h
        · exact Shape.Admission.slot.inj h ▸ hj

theorem getD_opened (c : Char) :
    (opened c).getD .session = if c = 'm' then .media else if c = 't' then .time else .session := by
  unfold opened
  split <;> simp_all

theorem valid_of_nextInSession (h : p.nextInSession c = .ok (p', o)) :
    p'.Valid ∧ p'.owner = o ∧ p'.slot ≠ none := by
  obtain ⟨i, hi, rfl, rfl⟩ := nextInSession_eq_ok_iff.mp h
  have hidx := findIdx?_of_place hi
  unfold opened
  split
  · obtain rfl : 9 = i := Option.some.inj hidx
    exact ⟨.time 0, rfl, by simp⟩
  · obtain rfl : 12 = i := Option.some.inj hidx
    exact ⟨.media 0, rfl, by simp⟩
  · exact ⟨.outside _, rfl, by simp⟩

/-- The letters that a session places have a slot there. -/
theorem not_mem_time_of_place {slot : Option Nat} {i : Nat}
    (h : Shape.session.place slot c = .slot i) : c ∉ ['r', 'z'] := by
  have hnone : ∀ d ∈ ['r', 'z'], Shape.session.slots.findIdx? (fun s => s.1 = d) = none :=
    List.all_iff_forall_prop.mp (by decide)
  intro hc
  exact absurd ((hnone c hc).symm.trans (findIdx?_of_place h)) (by simp)

/-- After a medium the session admits only another one. -/
theorem eq_of_place_after_media {i : Nat} (h : Shape.session.place (some 12) c = .slot i) :
    c = 'm' := by
  obtain ⟨hle, many, hslot⟩ := (Shape.place_eq_slot_iff (Shape.nodup_letters .session)).mp h
  have hle : 12 ≤ i := hle
  have hlast : Shape.session.slots.drop 12 = [('m', true)] := rfl
  have hc : (c, many) ∈ Shape.session.slots.drop 12 := by
    refine List.mem_of_getElem? (i := i - 12) ?_
    rw [List.getElem?_drop, Nat.add_sub_cancel' hle]
    exact hslot
  exact congrArg Prod.fst (List.mem_singleton.mp (hlast ▸ hc))

/-- A step tells the owner of its line and leads to a position of that owner. -/
theorem owner_of_next (hp : p.Valid) (h : p.next c = .ok (p', o)) :
    o = Grammar.owner p.owner c ∧ p'.owner = o ∧ p'.Valid ∧ p'.slot ≠ none := by
  -- Where the section does not take the letter, the session does.
  have hsession : p.nextInSession c = .ok (p', o) →
      (∀ i, Shape.session.place p.slot c = .slot i →
        (opened c).getD .session = Grammar.owner p.owner c) →
      o = Grammar.owner p.owner c ∧ p'.owner = o ∧ p'.Valid ∧ p'.slot ≠ none := by
    intro h ho
    obtain ⟨hv, howner, hslot⟩ := valid_of_nextInSession h
    obtain ⟨i, hi, -, rfl⟩ := nextInSession_eq_ok_iff.mp h
    exact ⟨ho i hi, howner, hv, hslot⟩
  cases hp with
  | outside slot =>
    refine hsession h fun i _ => ?_
    rw [getD_opened]
    simp [Grammar.owner, owner]
  | time last =>
    by_cases hplace : ∃ i, (shapeOf .time).place (some last) c = .slot i
    · obtain ⟨i, hi⟩ := hplace
      have hc : c ∈ ['r', 'z'] := mem_drop_of_place hi
      rw [next_of_place hi] at h
      obtain ⟨rfl, rfl⟩ := Prod.mk.inj (Except.ok.inj h)
      refine ⟨?_, rfl, .time i, by simp⟩
      rcases List.mem_pair.mp hc with rfl | rfl <;> rfl
    · rw [not_exists] at hplace
      rw [next_of_not_place hplace] at h
      refine hsession h fun i hi => ?_
      have hc := not_mem_time_of_place hi
      rw [getD_opened]
      simp only [List.mem_cons, List.not_mem_nil, or_false] at hc
      simp [Grammar.owner, owner, hc]
  | media last =>
    by_cases hplace : ∃ i, (shapeOf .media).place (some last) c = .slot i
    · obtain ⟨i, hi⟩ := hplace
      rw [next_of_place hi] at h
      obtain ⟨rfl, rfl⟩ := Prod.mk.inj (Except.ok.inj h)
      exact ⟨by simp [Grammar.owner, owner], rfl, .media i, by simp⟩
    · rw [not_exists] at hplace
      rw [next_of_not_place hplace] at h
      refine hsession h fun i hi => ?_
      obtain rfl := eq_of_place_after_media hi
      rfl

end Position

end OfferAnswer
