/-
OfferAnswer/Proofs/Canonical/Document.lean

Sessions that are written as they were read.

A session has the fields of its lines, unless a section has two bandwidths of
one kind; and a canonical line is written as it was read.  Where a section
begins is seen from the lines: a line with the letter m begins one, and nothing
else matters for bandwidths, since times have none.
-/
import OfferAnswer.Proofs.Canonical.Field
import OfferAnswer.Proofs.Document.LineByLine

namespace OfferAnswer

open Text Outcome Document Grammar

variable {ts : List Text} {t : Text} {f : DocumentField} {fs before : List DocumentField}
  {b : Bandwidth} {o : Owner} {e : Entry}

namespace Document

/-! ### Bandwidths on lines -/

/-- Whether a medium begins with a line. -/
def beginsMedium (t : Text) : Bool := (Field.split? t).any fun (letter, _) => letter == 'm'

/-- The kind on a bandwidth line, in lower case. -/
def bandwidthKind? (t : Text) : Option Text :=
  match Field.split? t with
  | some ('b', raw) => some (lower (cut ':' raw).1)
  | _ => none

/-- Whether the bandwidths of each section are of different kinds, case
aside. -/
def bandwidthsDiffer (ts : List Text) : Bool :=
  (ts.splitOnP beginsMedium).all fun lines => decide (lines.filterMap bandwidthKind?).Nodup

theorem beginsMedium_eq (h : Field.ofLine (readField f.owner) t = .ok f) :
    beginsMedium t = f.opensMedia := by
  obtain ⟨c, v, hsplit, hf⟩ := ofLine_eq_ok_iff.mp h
  obtain ⟨rfl, -⟩ := letter_owner_of_readField hf
  rw [beginsMedium, hsplit]
  rcases f with f | f | f <;> cases f <;> rfl

/-- A bandwidth was read from a bandwidth line, whoever owns it. -/
theorem read_of_bandwidth? {c : Char} {raw : Text} (h : readField o c raw = .ok f)
    (hb : f.bandwidth? = some b) : c = 'b' ∧ Bandwidth.read raw = .ok b := by
  obtain ⟨rfl, rfl⟩ := letter_owner_of_readField h
  rcases f with f | f | f
  · cases f with
    | bandwidth b' =>
      obtain rfl := Option.some.inj hb
      obtain ⟨g, hg, he⟩ := map_eq_ok.mp h
      obtain ⟨b'', hread, rfl⟩ := map_eq_ok.mp hg
      obtain rfl : b'' = b' := by simpa using he
      exact ⟨rfl, hread⟩
    | _ => simp [DocumentField.bandwidth?, SessionField.bandwidth?] at hb
  · simp [DocumentField.bandwidth?] at hb
  · cases f with
    | bandwidth b' =>
      obtain rfl := Option.some.inj hb
      obtain ⟨g, hg, he⟩ := map_eq_ok.mp h
      obtain ⟨b'', hread, rfl⟩ := map_eq_ok.mp hg
      obtain rfl : b'' = b' := by simpa using he
      exact ⟨rfl, hread⟩
    | _ => simp [DocumentField.bandwidth?, MediaField.bandwidth?] at hb

theorem bandwidthKind?_eq (h : Field.ofLine (readField f.owner) t = .ok f)
    (hb : f.bandwidth? = some b) : bandwidthKind? t = some (lower b.kind.text) := by
  obtain ⟨c, raw, hsplit, hf⟩ := ofLine_eq_ok_iff.mp h
  obtain ⟨rfl, hread⟩ := read_of_bandwidth? hf hb
  have hkind : lower (cut ':' raw).1 = lower b.kind.text := by
    unfold Bandwidth.read at hread
    split at hread
    · simp at hread
    · simp at hread
    · next kind amount _ hcut =>
      obtain ⟨n, -, hread⟩ := bind_eq_ok.mp hread
      obtain rfl := pure_eq_ok.mp hread
      rw [hcut, Token.lower_text_ofText]
  simp [bandwidthKind?, hsplit, hkind]

/-! ### Bandwidths of one section -/

/-- No medium begins with a bandwidth. -/
theorem opensMedia_of_bandwidth? (hb : f.bandwidth? = some b) : f.opensMedia = false := by
  rcases f with f | f | f
  · rfl
  · rfl
  · cases f with
    | medium m => simp [DocumentField.bandwidth?, MediaField.bandwidth?] at hb
    | _ => rfl

/-- What stands after the first line of a medium is at home in this medium or
in a later one. -/
theorem home_ne_of_opensMedia (hf : f.opensMedia = true) (h : OwnedAfter o (f :: fs))
    (he : e ∈ entriesAfter (before ++ [f]) fs) :
    e.home ≠ .session ∧ e.home ≠ .media (before.countP DocumentField.opensMedia) := by
  have howner : f.owner = .media := by
    rcases f with f | f | f
    · simp [DocumentField.opensMedia] at hf
    · simp [DocumentField.opensMedia] at hf
    · rfl
  obtain ⟨-, hfs⟩ := ownedAfter_cons.mp h
  rw [howner] at hfs
  have hmap : (entriesAfter (before ++ [f]) fs).map Entry.field = fs := map_field_entriesAfter
  have hmem : e.field ∈ fs := hmap ▸ List.mem_map_of_mem he
  constructor
  · obtain ⟨upTo, hhome⟩ := exists_home_of_mem he
    rw [hhome, DocumentField.home, owner_eq_media hfs e.field hmem]
    simp
  · intro hhome
    have hle := countP_le_of_home_eq_media he hhome
    rw [List.countP_append, List.countP_singleton, if_pos hf] at hle
    omega

theorem countP_concat_of_not_opensMedia (hf : f.opensMedia = false) :
    (before ++ [f]).countP DocumentField.opensMedia
      = before.countP DocumentField.opensMedia := by
  simp [hf]

/-- A bandwidth that is at home in the section that is open stands on one of
the lines up to the next medium. -/
theorem exists_line_of_home
    (h : List.Forall₂ (fun t f => Field.ofLine (readField f.owner) t = .ok f) ts fs)
    (howned : OwnedAfter o fs) (he : e ∈ entriesAfter before fs)
    (hb : e.field.bandwidth? = some b)
    (hhome : e.home = .session ∨ e.home = .media (before.countP DocumentField.opensMedia)) :
    ∃ lines rest, ts.splitOnP beginsMedium = lines :: rest
      ∧ lower b.kind.text ∈ lines.filterMap bandwidthKind? := by
  induction h generalizing before o with
  | nil => exact absurd he List.not_mem_nil
  | @cons t f ts fs hline _ ih =>
    obtain ⟨lines, rest, hsplit⟩ :=
      List.exists_cons_of_ne_nil (List.splitOnP_ne_nil beginsMedium ts)
    rw [List.splitOnP_cons_eq_if_modifyHead, beginsMedium_eq hline, hsplit]
    rcases List.mem_cons.mp he with rfl | he
    · have hopens := opensMedia_of_bandwidth? hb
      refine ⟨t :: lines, rest, by simp [hopens], ?_⟩
      exact List.mem_filterMap.mpr ⟨t, List.mem_cons_self, bandwidthKind?_eq hline hb⟩
    · cases hopens : f.opensMedia with
      | true =>
        obtain ⟨hs, hm⟩ := home_ne_of_opensMedia hopens howned he
        exact absurd hhome (not_or.mpr ⟨hs, hm⟩)
      | false =>
        obtain ⟨lines', rest', hsplit', hmem⟩ := ih (ownedAfter_cons.mp howned).2 he
          (by rwa [countP_concat_of_not_opensMedia hopens])
        obtain ⟨rfl, -⟩ := List.cons.inj (hsplit.symm.trans hsplit')
        obtain ⟨l, hl, hkind⟩ := List.mem_filterMap.mp hmem
        refine ⟨t :: lines, rest, by simp, ?_⟩
        exact List.mem_filterMap.mpr ⟨l, List.mem_cons_of_mem _ hl, hkind⟩

/-- A bandwidth is at home in the session or in the medium that is open. -/
theorem home_of_bandwidth? (hb : f.bandwidth? = some b) :
    f.home (before ++ [f]) = .session
      ∨ f.home (before ++ [f]) = .media ((before ++ [f]).countP DocumentField.opensMedia) := by
  rcases f with f | f | f
  · exact .inl rfl
  · simp [DocumentField.bandwidth?] at hb
  · exact .inr rfl

/-- Where the lines of each section have bandwidths of different kinds, no two
entries are bandwidths of one kind in one section. -/
theorem pairwise_of_bandwidthsDiffer
    (h : List.Forall₂ (fun t f => Field.ofLine (readField f.owner) t = .ok f) ts fs)
    (howned : OwnedAfter o fs)
    (hts : ∀ lines ∈ ts.splitOnP beginsMedium, (lines.filterMap bandwidthKind?).Nodup) :
    (entriesAfter before fs).Pairwise fun x y => Entry.alike x y = false := by
  induction h generalizing before o with
  | nil => exact .nil
  | @cons t f ts fs hline hlines ih =>
    have hrest := (ownedAfter_cons.mp howned).2
    obtain ⟨lines, rest, hsplit⟩ :=
      List.exists_cons_of_ne_nil (List.splitOnP_ne_nil beginsMedium ts)
    rw [List.splitOnP_cons_eq_if_modifyHead, beginsMedium_eq hline, hsplit] at hts
    rw [entriesAfter, List.pairwise_cons]
    constructor
    · intro e he
      rw [← Bool.not_eq_true, Entry.alike_iff]
      rintro ⟨hhome, hkind⟩
      cases hb : f.bandwidth? with
      | none => simp [hb, Bandwidth.sameKind] at hkind
      | some b =>
        cases hb' : e.field.bandwidth? with
        | none => simp [hb, hb', Bandwidth.sameKind] at hkind
        | some b' =>
          -- Both kinds stand on lines of one section, the first on its first line.
          obtain ⟨lines', rest', hsplit', hmem⟩ := exists_line_of_home hlines hrest he hb'
            (hhome ▸ home_of_bandwidth? hb)
          obtain ⟨rfl, -⟩ := List.cons.inj (hsplit.symm.trans hsplit')
          have hnodup := hts (t :: lines) (by simp [opensMedia_of_bandwidth? hb])
          rw [List.filterMap_cons_some (bandwidthKind?_eq hline hb), List.nodup_cons] at hnodup
          have hsame : lower b.kind.text = lower b'.kind.text :=
            Token.beq_iff.mp (by simpa [hb, hb', Bandwidth.sameKind] using hkind)
          exact hnodup.1 (hsame ▸ hmem)
    · refine ih hrest fun part hpart => ?_
      rw [hsplit] at hpart
      cases hopens : f.opensMedia with
      | true =>
        rw [hopens, if_pos rfl, List.forall_mem_cons] at hts
        exact hts.2 part hpart
      | false =>
        rw [hopens, if_neg Bool.false_ne_true, List.modifyHead_cons, List.forall_mem_cons] at hts
        rcases List.mem_cons.mp hpart with rfl | hpart
        · exact hts.1.sublist ((List.sublist_cons_self t part).filterMap _)
        · exact hts.2 part hpart

/-! ### Canonical lines -/

theorem map_text_of_forall₂
    (h : List.Forall₂ (fun t f => Field.ofLine (readField f.owner) t = .ok f) ts fs)
    (hc : ∀ t ∈ ts, Field.isCanonical t = true) :
    fs.map DocumentField.text = ts ∧ ∀ f ∈ fs, f.isWritable = true := by
  induction h with
  | nil => simp
  | cons hline _ ih =>
    rw [List.forall_mem_cons] at hc
    obtain ⟨htext, hwritable⟩ := text_of_readField hline hc.1
    obtain ⟨htexts, hwritables⟩ := ih hc.2
    exact ⟨by rw [List.map_cons, htext, htexts], List.forall_mem_cons.mpr ⟨hwritable, hwritables⟩⟩

end Document

/-! ### Whole sessions -/

namespace Session

variable {s : Session}

/-- A session is written exactly as it was read, if every line ends with a
carriage return and a line feed, no section has two bandwidths of one kind, and
every line is canonical. -/
theorem text_of_isCanonical (hfeed : ∀ t ∈ ts, '\n' ∉ t)
    (hs : ofText (ts.flatMap endLine) = .ok s) (hkinds : bandwidthsDiffer ts = true)
    (hlines : ∀ t ∈ ts, Field.isCanonical t = true) :
    (session s).isWritable = true ∧ s.text = ts.flatMap endLine := by
  obtain ⟨ls, fs, hls, hreads, hentries⟩ := readsLines_of_ofText hs
  have htexts : ls.map Line.text = ts := by
    rw [Line.ofText, Line.splitOn_written hfeed, Line.ofParts_written] at hls
    exact (Line.map_text_of_numberFrom hls).1
  have hread : List.Forall₂ (fun t f => Field.ofLine (readField f.owner) t = .ok f) ts fs :=
    htexts ▸ List.forall₂_map_left_iff.mpr hreads.reads
  have howned : OwnedAfter .session fs := by
    have hletters : Line.letters ls = fs.map (·.letter) := (formed_of_forall₂ (fun _ _ h =>
      formed_of_ofLine (fun _ _ _ hg => (letter_owner_of_readField hg).1) h) hreads.reads).2
    rw [OwnedAfter, ← hletters]
    exact hreads.owners.symm
  have hdiffer : (entries fs).Pairwise fun x y => Entry.alike x y = false := by
    refine pairwise_of_bandwidthsDiffer hread howned fun lines hl => ?_
    exact of_decide_eq_true (List.all_eq_true.mp hkinds lines hl)
  have hfields : s.draft.fields = fs := by
    rw [← map_field_entries s.draft.fields, hentries, collapse_eq_self hdiffer, map_field_entries]
  obtain ⟨htexts, hwritable⟩ := map_text_of_forall₂ hread hlines
  constructor
  · rw [isWritable, Document.fields, hfields, List.all_eq_true]
    exact hwritable
  · rw [text, Draft.text, hfields, ← htexts, List.flatMap_map]

/-- Lines with much that could be spelled otherwise, and some that only looks
as if it could. -/
def faithful : List Text :=
  ["v=0", "o=- 0 18446744073709551615 IN IP4 x", "s=  ", "b=zz:0", "b=AS:5", "t=0 0",
    "r=604800 3600 0 90000", "z=0 -3600", "a=group:BUNDLE 0", "a=ice-options:", "a=X:a:b:",
    "m=audio 9/2 UDP/TLS/RTP/SAVPF 111", "c=IN IP4 h", "b=AS:6",
    "a=candidate:1 1 UDP 1 h 9 typ srflx raddr x rport 0 RADDR y", "a=fingerprint:sha-256 0A:FF",
    "a=extmap:1/sendonly u", "a=rtcp-fb:* nack  pli", "a=rtpmap:111 opus/48000/2",
    "a=simulcast:send 1;~2,3 recv 4"].map String.toList

theorem text_of_isCanonical_faithful : ∃ s : Session, ofText (faithful.flatMap endLine) = .ok s
    ∧ (session s).isWritable = true ∧ s.text = faithful.flatMap endLine :=
  ⟨_, rfl, text_of_isCanonical (by decide) rfl (by decide) (by decide)⟩

end Session

end OfferAnswer
