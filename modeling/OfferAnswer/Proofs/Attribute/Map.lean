/-
OfferAnswer/Proofs/Attribute/Map.lean

Maps of attributes over whole runs.

Three questions about case have one answer for an attribute that was read: the
kind registered for the name it was given, the name in lower case under which
it is kept, and the name in which it is asked for.  So every entry of a map is
of the kind registered for what it is kept under (`IsKeyed`), each change keeps
this, and lookups find all that is there (`IsKeyed.answers`).

What a run leaves in a map is told by what happened to the map and to those it
was copied from (`history`): the attributes that were added and whose name was
not removed later, in the order in which they came (`remaining`).
-/
import Mathlib.Logic.Function.Basic
import OfferAnswer.Attribute.Map
import OfferAnswer.Proofs.Canonical.Attribute
import OfferAnswer.Proofs.Document.Appending

namespace OfferAnswer

open Outcome

/-! ### Attributes that were read -/

namespace Attribute

variable {a : Attribute} {k : Kind} {name raw : Text} {value : Option Text}

/-- Read from a name and a value. -/
def IsParsed (a : Attribute) : Prop := ∃ name value, ofNameValue name value = .ok a

theorem kind?_of_readValue (h : readValue k raw = .ok a) : a.kind? = some k := by
  cases k <;> first
    | exact Except.ok.inj h ▸ rfl
    | obtain ⟨-, -, rfl⟩ := map_eq_ok.mp h
      rfl

/-- An attribute is of the kind that is registered for the name it was given,
and goes by this name. -/
theorem kind?_of_ofNameValue (h : ofNameValue name value = .ok a) :
    a.kind? = Vocabulary.find? name ∧ Text.lower a.name = Text.lower name := by
  have hname : ∀ {k : Kind}, Vocabulary.find? name = some k → a.kind? = some k →
      a.kind? = Vocabulary.find? name ∧ Text.lower a.name = Text.lower name := by
    intro k hk ha
    rw [name_of_kind? ha]
    exact ⟨ha.trans hk.symm, Vocabulary.lower_spelling_of_find? hk⟩
  unfold ofNameValue at h
  split at h
  · simp at h
  · split at h
    · next hnone =>
      obtain rfl := Except.ok.inj h
      exact ⟨hnone.symm, rfl⟩
    · next f hf =>
      obtain rfl := Except.ok.inj h
      exact hname hf rfl
    · simp at h
    · simp at h
    · next k raw _ hk => exact hname hk (kind?_of_readValue (mapError_eq_ok.mp h))

/-- The kind is told by the name in lower case. -/
theorem IsParsed.kind?_eq_some_iff (h : a.IsParsed) :
    a.kind? = some k ↔ Vocabulary.spelling k = Text.lower a.name := by
  obtain ⟨name, value, h⟩ := h
  obtain ⟨hkind, hname⟩ := kind?_of_ofNameValue h
  rw [hkind, hname, Vocabulary.find?_eq_some_iff, lower_spelling]

theorem WellFormed.isParsed {p : Char → Prop} [Text.Alphabet p] (h : a.WellFormed p) :
    a.IsParsed :=
  ⟨_, _, (ofText_eq (colon_not_mem_name h)).symm.trans (ofText_text h)⟩

end Attribute

/-- The attributes of a session that was read were read. -/
theorem Session.isParsed_of_mem_allAttributes {t : Text} {s : Session} (h : ofText t = .ok s) :
    ∀ a ∈ s.allAttributes, a.IsParsed := fun a ha =>
  (wellFormed_of_mem_allAttributes (sound_of_ofText h) a ha).isParsed

namespace AttributeMap

variable {m m' : AttributeMap} {as : List Attribute} {a : Attribute} {k : Attribute.Kind}
  {name : Text} {value : Option Text} {c : Change}

/-! ### Maps of lists -/

@[simp] theorem entries_append (m : AttributeMap) (a : Attribute) :
    (m.append a).entries = m.entries ++ [(Text.lower a.name, a)] := rfl

@[simp] theorem entries_extend (m : AttributeMap) (as : List Attribute) :
    (m.extend as).entries = m.entries ++ as.map fun a => (Text.lower a.name, a) := by
  unfold extend
  induction as generalizing m with
  | nil => simp
  | cons a as ih => simp [ih]

@[simp] theorem entries_ofList (as : List Attribute) :
    (ofList as).entries = as.map fun a => (Text.lower a.name, a) := by
  simp [ofList, empty]

@[simp] theorem attributes_ofList (as : List Attribute) : (ofList as).attributes = as := by
  simp [attributes, Function.comp_def]

theorem eq_iff : m = m' ↔ m.entries = m'.entries := by
  cases m
  cases m'
  simp

theorem extend_ofList (as bs : List Attribute) : (ofList as).extend bs = ofList (as ++ bs) := by
  simp [eq_iff]

/-- What is kept under a name in lower case goes by that name in some case. -/
theorem sameLower_eq (s t : Text) : Text.sameLower s t = decide (Text.lower s = Text.lower t) :=
  beq_eq_decide _ _

theorem without_ofList (as : AttributeList) (name : Text) :
    (ofList as).without name = ofList (as.without name) := by
  simp [eq_iff, without, AttributeList.without, List.filter_map, Function.comp_def, sameLower_eq]

theorem appendText_ofList (as : AttributeList) (name : Text) (value : Option Text) :
    Prod.snd <$> (ofList as).appendText name value = ofList <$> as.appendText name value := by
  unfold appendText AttributeList.appendText
  cases Attribute.ofNameValue name value with
  | error f => rfl
  | ok a => exact congrArg Except.ok (extend_ofList as [a])

theorem has_ofList (as : AttributeList) (name : Text) : (ofList as).has name = as.has name := by
  simp [has, AttributeList.has, Function.comp_def, sameLower_eq]

theorem ofKind_ofList (as : AttributeList) (k : Attribute.Kind) :
    (ofList as).ofKind k = as.ofKind k := by
  simp [ofKind, AttributeList.ofKind, AttributeList.named, List.filter_map, Function.comp_def,
    sameLower_eq, Attribute.lower_spelling, and_comm]

/-! ### Entries and lookups -/

/-- Every entry is kept under the name of its attribute in lower case, and the
attribute is of the kind that is registered for it. -/
structure IsKeyed (m : AttributeMap) : Prop where
  key : ∀ e ∈ m.entries, e.1 = Text.lower e.2.name
  kind : ∀ e ∈ m.entries, ∀ k, e.2.kind? = some k ↔ Vocabulary.spelling k = e.1

/-- Lookups find what is there: of a kind, all entries under its spelling, and
of a name, all entries under it. -/
structure Answers (m : AttributeMap) : Prop where
  firstOfKind : ∀ k, m.firstOfKind k = (m.ofKind k).head?
  ofKind : ∀ k, m.ofKind k
    = (m.entries.filter fun e => e.1 = Vocabulary.spelling k).map Prod.snd
  has : ∀ name, m.has name = true ↔ m.valuesNamed name ≠ []
  valueNamed : ∀ name otherwise,
    m.valueNamed name otherwise = (m.valuesNamed name).head?.getD otherwise
  text : m.text = m.entries.flatMap fun e => 'a' :: '=' :: e.2.text ++ ['\r', '\n']

theorem isKeyed_ofList (h : ∀ a ∈ as, a.IsParsed) : (ofList as).IsKeyed := by
  have hentry : ∀ e ∈ (ofList as).entries, e.1 = Text.lower e.2.name ∧ e.2.IsParsed := by
    simpa using h
  refine ⟨fun e he => (hentry e he).1, fun e he k => ?_⟩
  rw [(hentry e he).1]
  exact (hentry e he).2.kind?_eq_some_iff

theorem IsKeyed.ofKind_eq (h : m.IsKeyed) (k : Attribute.Kind) : m.ofKind k
    = (m.entries.filter fun e => e.1 = Vocabulary.spelling k).map Prod.snd := by
  refine congrArg _ (List.filter_congr fun e he => ?_)
  rw [decide_eq_decide, and_iff_left_iff_imp]
  exact fun hkey => (h.kind e he k).mpr hkey.symm

theorem IsKeyed.firstOfKind_eq (h : m.IsKeyed) (k : Attribute.Kind) :
    m.firstOfKind k = (m.ofKind k).head? := by
  rw [h.ofKind_eq, List.head?_map, List.head?_filter, firstOfKind]
  cases hfind : m.entries.find? fun e => e.1 = Vocabulary.spelling k with
  | none => rfl
  | some e =>
    have hkey : e.1 = Vocabulary.spelling k := by simpa using List.find?_some hfind
    have hkind : e.2.kind? = some k :=
      (h.kind e (List.mem_of_find?_eq_some hfind) k).mpr hkey.symm
    exact if_pos hkind

theorem has_iff (m : AttributeMap) (name : Text) : m.has name = true ↔ m.valuesNamed name ≠ [] := by
  simp [has, valuesNamed]

theorem valueNamed_eq (m : AttributeMap) (name : Text) (otherwise : Option Text) :
    m.valueNamed name otherwise = (m.valuesNamed name).head?.getD otherwise := by
  rw [valuesNamed, List.head?_map, List.head?_filter, valueNamed]
  cases m.entries.find? fun e => e.1 = Text.lower name <;> rfl

theorem IsKeyed.answers (h : m.IsKeyed) : m.Answers :=
  ⟨h.firstOfKind_eq, h.ofKind_eq, m.has_iff, m.valueNamed_eq, rfl⟩

/-! ### Steps -/

/-- The attributes that come with a change were read. -/
def Change.IsParsed : Change → Prop
  | .append a => a.IsParsed
  | .extend as => ∀ a ∈ as, a.IsParsed
  | .appendText _ _ | .remove _ => True

/-- The map after a change; a refused one leaves it as it was. -/
def after (m : AttributeMap) (c : Change) : AttributeMap :=
  match m.apply c with
  | .ok m' => m'
  | .error _ => m

theorem after_appendText_of_ok (h : Attribute.ofNameValue name value = .ok a) :
    m.after (.appendText name value) = m.append a := by
  simp [after, apply, appendText, h]

theorem after_appendText_of_error {f : Attribute.Fault}
    (h : Attribute.ofNameValue name value = .error f) : m.after (.appendText name value) = m := by
  simp [after, apply, appendText, h]

theorem IsKeyed.extend (h : m.IsKeyed) (has : ∀ a ∈ as, a.IsParsed) : (m.extend as).IsKeyed := by
  have hnew := isKeyed_ofList has
  have hentries : (m.extend as).entries = m.entries ++ (ofList as).entries := by simp
  refine ⟨?_, ?_⟩ <;> rw [hentries]
  · exact List.forall_mem_append.mpr ⟨h.key, hnew.key⟩
  · exact List.forall_mem_append.mpr ⟨h.kind, hnew.kind⟩

theorem IsKeyed.append (h : m.IsKeyed) (ha : a.IsParsed) : (m.append a).IsKeyed := by
  have hall : ∀ b ∈ [a], b.IsParsed := List.forall_mem_singleton.mpr ha
  exact h.extend hall

/-- A change keeps what entries are kept under. -/
theorem IsKeyed.after (h : m.IsKeyed) (hc : c.IsParsed) : (m.after c).IsKeyed := by
  cases c with
  | appendText name value =>
    cases hread : Attribute.ofNameValue name value with
    | error f => rwa [after_appendText_of_error hread]
    | ok a =>
      rw [after_appendText_of_ok hread]
      exact h.append ⟨name, value, hread⟩
  | append a => exact h.append hc
  | extend as => exact h.extend hc
  | remove name =>
    exact ⟨fun e he => h.key e (List.mem_of_mem_filter he),
      fun e he => h.kind e (List.mem_of_mem_filter he)⟩

/-- A copy is kept under the same names. -/
theorem IsKeyed.copy_eq (h : m.IsKeyed) : m.copy = m := by
  rw [eq_iff, copy, entries_ofList, attributes, List.map_map]
  refine (List.map_congr_left fun e he => ?_).trans (List.map_id _)
  exact Prod.ext (h.key e he).symm rfl

/-! ### Runs -/

variable {ι : Type} [DecidableEq ι]

/-- What can be done to several maps: change one of them, or copy one to the
place of another. -/
inductive Step (ι : Type) where
  | change (i : ι) (c : Change)
  | copy (i j : ι)

def Step.IsParsed : Step ι → Prop
  | .change _ c => c.IsParsed
  | .copy _ _ => True

def step (ms : ι → AttributeMap) : Step ι → ι → AttributeMap
  | .change i c => Function.update ms i ((ms i).after c)
  | .copy i j => Function.update ms j (ms i).copy

/-- The maps after some steps. -/
def run (ms : ι → AttributeMap) (ss : List (Step ι)) : ι → AttributeMap := ss.foldl step ms

/-- What happens to a map. -/
inductive Event where
  | added (a : Attribute)
  | removed (name : Text)

/-- Whether the attribute goes: its name is removed, in whatever case. -/
def Event.removes (a : Attribute) : Event → Bool
  | .added _ => false
  | .removed name => Text.sameLower a.name name

/-- What happens with a change; with a refused one nothing does. -/
def Change.events : Change → List Event
  | .appendText name value =>
    match Attribute.ofNameValue name value with
    | .ok a => [.added a]
    | .error _ => []
  | .append a => [.added a]
  | .extend as => as.map .added
  | .remove name => [.removed name]

/-- What has happened after one more step.  To a copy has happened what had
happened to the map that was copied. -/
def record (hs : ι → List Event) : Step ι → ι → List Event
  | .change i c => Function.update hs i (hs i ++ c.events)
  | .copy i j => Function.update hs j (hs i)

/-- What has happened to the maps after some steps, beginning with the
attributes that they had before. -/
def history (as : ι → List Attribute) (ss : List (Step ι)) : ι → List Event :=
  ss.foldl record fun i => (as i).map .added

/-- The attributes that were added and not removed later, in the order in which
they were added. -/
def remaining : List Event → List Attribute
  | [] => []
  | .added a :: es => if es.any (·.removes a) then remaining es else a :: remaining es
  | .removed _ :: es => remaining es

variable {es fs : List Event} {ms : ι → AttributeMap} {ss : List (Step ι)}

theorem remaining_append (es fs : List Event) : remaining (es ++ fs)
    = ((remaining es).filter fun a => !fs.any (·.removes a)) ++ remaining fs := by
  induction es with
  | nil => rfl
  | cons e es ih =>
    cases e with
    | removed name => exact ih
    | added a =>
      rw [List.cons_append, remaining, remaining, List.any_append, ih]
      by_cases hes : es.any (·.removes a) = true <;> by_cases hfs : fs.any (·.removes a) = true <;>
        simp [hes, hfs]

/-- What is added remains. -/
theorem remaining_append_added (es : List Event) (as : List Attribute) :
    remaining (es ++ as.map .added) = remaining es ++ as := by
  have hany : ∀ (as : List Attribute) (a : Attribute),
      (as.map Event.added).any (·.removes a) = false := fun as a => by
    simp [Event.removes]
  have hremaining : remaining (as.map .added) = as := by
    induction as with
    | nil => rfl
    | cons a as ih => rw [List.map_cons, remaining, hany, ih, if_neg Bool.false_ne_true]
  rw [remaining_append, hremaining]
  simp [hany]

/-- What goes by another name than the one removed remains. -/
theorem remaining_append_removed (es : List Event) (name : Text) :
    remaining (es ++ [.removed name]) = AttributeList.without (remaining es) name := by
  rw [remaining_append, remaining, remaining, List.append_nil]
  exact List.filter_congr fun a _ => by simp [Event.removes]

/-- A change leaves what remains after what happens with it. -/
theorem after_ofList (es : List Event) (c : Change) :
    (ofList (remaining es)).after c = ofList (remaining (es ++ c.events)) := by
  cases c with
  | appendText name value =>
    cases hread : Attribute.ofNameValue name value with
    | error f =>
      have hevents : (Change.appendText name value).events = [] := by simp [Change.events, hread]
      rw [after_appendText_of_error hread, hevents, List.append_nil]
    | ok a =>
      have hevents : (Change.appendText name value).events = [a].map .added := by
        simp [Change.events, hread]
      rw [after_appendText_of_ok hread, hevents, remaining_append_added]
      exact extend_ofList _ [a]
  | append a => exact (extend_ofList _ [a]).trans (congrArg _ (remaining_append_added es [a]).symm)
  | extend as => exact (extend_ofList _ as).trans (congrArg _ (remaining_append_added es as).symm)
  | remove name =>
    exact (without_ofList _ name).trans (congrArg _ (remaining_append_removed es name).symm)

/-- A step leaves what remains after what happens with it. -/
theorem step_ofList (hs : ι → List Event) (s : Step ι) :
    step (fun i => ofList (remaining (hs i))) s = fun i => ofList (remaining (record hs s i)) := by
  have hupdate : ∀ (i : ι) (es : List Event),
      Function.update (fun i => ofList (remaining (hs i))) i (ofList (remaining es))
        = fun j => ofList (remaining (Function.update hs i es j)) := fun i es => by
    funext j
    by_cases hj : j = i
    · subst hj
      simp
    · simp [hj]
  cases s with
  | change i c =>
    rw [step, after_ofList]
    exact hupdate i _
  | copy i j =>
    rw [step, copy, attributes_ofList]
    exact hupdate j _

/-- A run leaves what remains after what has happened. -/
theorem run_ofList (as : ι → List Attribute) (ss : List (Step ι)) :
    run (fun i => ofList (as i)) ss = fun i => ofList (remaining (history as ss i)) := by
  have hrun : ∀ hs : ι → List Event, run (fun i => ofList (remaining (hs i))) ss
      = fun i => ofList (remaining (ss.foldl record hs i)) := by
    unfold run
    induction ss with
    | nil => exact fun _ => rfl
    | cons s ss ih =>
      intro hs
      rw [List.foldl_cons, step_ofList, ih]
      rfl
  have hstart : as = fun i => remaining ((as i).map .added) :=
    funext fun i => (remaining_append_added [] (as i)).symm
  conv_lhs => rw [hstart]
  exact hrun _

theorem IsKeyed.step {s : Step ι} (h : ∀ i, (ms i).IsKeyed) (hs : s.IsParsed) :
    ∀ i, (step ms s i).IsKeyed := by
  have hupdate : ∀ (i : ι) {m : AttributeMap}, m.IsKeyed →
      ∀ j, (Function.update ms i m j).IsKeyed := fun i m hm j => by
    by_cases hj : j = i
    · subst hj
      simpa using hm
    · simpa [hj] using h j
  cases s with
  | change i c => exact hupdate i ((h i).after hs)
  | copy i j =>
    refine hupdate j ?_
    rw [(h i).copy_eq]
    exact h i

theorem IsKeyed.run (h : ∀ i, (ms i).IsKeyed) (hss : ∀ s ∈ ss, s.IsParsed) :
    ∀ i, (run ms ss i).IsKeyed := by
  induction ss generalizing ms with
  | nil => exact h
  | cons s ss ih =>
    rw [List.forall_mem_cons] at hss
    exact ih (IsKeyed.step h hss.1) hss.2

/-- Maps of attributes that were read stay in order over a whole run.  Every
entry is kept under the name of its attribute and is of the kind registered for
it; the entries are the attributes that were added and not removed later; and
lookups find all of them.  A text that is refused changes no map. -/
theorem run_settled (as : ι → List Attribute) (has : ∀ i, ∀ a ∈ as i, a.IsParsed)
    (ss : List (Step ι)) (hss : ∀ s ∈ ss, s.IsParsed) (i : ι) :
    let ms := run (fun i => ofList (as i)) ss
    (ms i).IsKeyed
      ∧ (ms i).entries = (remaining (history as ss i)).map (fun a => (Text.lower a.name, a))
      ∧ (ms i).Answers
      ∧ ∀ name value f, (ms i).appendText name value = .error f →
        run (fun i => ofList (as i)) (ss ++ [.change i (.appendText name value)]) = ms := by
  intro ms
  have hkeyed : (ms i).IsKeyed := IsKeyed.run (fun i => isKeyed_ofList (has i)) hss i
  refine ⟨hkeyed, ?_, hkeyed.answers, fun name value f hf => ?_⟩
  · show (run _ ss i).entries = _
    rw [run_ofList, entries_ofList]
  · have hafter : (ms i).after (.appendText name value) = ms i :=
      after_appendText_of_error (map_eq_error.mp hf)
    rw [run, List.foldl_append]
    exact (congrArg (Function.update ms i) hafter).trans (Function.update_eq_self i ms)

/-- A copy keeps what is removed later from the map that was copied. -/
theorem run_settled_sample :
    let ss : List (Step Bool) := [.change false (.appendText "MID".toList (some ['0'])),
      .change false (.appendText "mid".toList none), .copy false true,
      .change false (.remove "Mid".toList)]
    let ms := run (fun _ => ofList []) ss
    (∀ i, ∀ a ∈ (fun _ => [] : Bool → List Attribute) i, a.IsParsed) ∧ (∀ s ∈ ss, s.IsParsed)
      ∧ (ms true).entries = [("mid".toList, .label .mid ['0'])]
      ∧ (ms true).firstOfKind (.label .mid) = ((ms true).ofKind (.label .mid)).head?
      ∧ (ms false).entries = [] := by
  intro ss ms
  have has : ∀ i, ∀ a ∈ (fun _ => [] : Bool → List Attribute) i, a.IsParsed := by simp
  have hss : ∀ s ∈ ss, s.IsParsed := by simp [ss, Step.IsParsed, Change.IsParsed]
  obtain ⟨-, hcopy, hanswers, -⟩ := run_settled _ has ss hss true
  obtain ⟨-, hfirst, -, -⟩ := run_settled _ has ss hss false
  exact ⟨has, hss, hcopy.trans rfl, hanswers.firstOfKind _, hfirst.trans rfl⟩

end AttributeMap

end OfferAnswer
