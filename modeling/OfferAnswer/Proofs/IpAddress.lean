/-
OfferAnswer/Proofs/IpAddress.lean

Internet addresses, written and read again.

An address that has been read is read again from the text in which it is
written (`ofText?_text`), so no two addresses are written alike, and what is
read from such a text is written as it was.  Of the groups of version 6 the
text leaves out the first of the longest runs of zeros, if it has two at least
(`groupsText_cases`), and the reader puts back as many as are missing.
-/
import OfferAnswer.IpAddress
import OfferAnswer.Proofs.Decimal
import OfferAnswer.Proofs.Outcome
import OfferAnswer.Proofs.Text

namespace OfferAnswer

/-! ### Hexadecimal numbers -/

namespace Text

/-- The digits that are written. -/
def lowerHex : List Char := "0123456789abcdef".toList

theorem hex_one (n : Nat) : hex 1 n = Nat.toDigits 16 n := by
  have hlen : 1 - (Nat.toDigits 16 n).length = 0 :=
    Nat.sub_eq_zero_of_le Nat.length_toDigits_pos
  rw [hex, hlen]
  rfl

theorem hex_one_ne_nil (n : Nat) : hex 1 n ≠ [] := hex_one n ▸ Nat.toDigits_ne_nil

theorem mem_lowerHex_of_mem_hex {n : Nat} {c : Char} (h : c ∈ hex 1 n) : c ∈ lowerHex := by
  have hdigit : ∀ k < 16, k.digitChar ∈ lowerHex := by decide
  rw [hex_one] at h
  induction n using Nat.strongRecOn with
  | ind n ih =>
    by_cases hn : n < 16
    · rw [Nat.toDigits_of_lt_base hn, List.mem_singleton] at h
      exact h ▸ hdigit n hn
    · rw [Nat.toDigits_of_base_le (by decide) (Nat.not_lt.mp hn), List.mem_append,
        List.mem_singleton] at h
      rcases h with h | rfl
      · exact ih (n / 16) (by omega) h
      · exact hdigit (n % 16) (Nat.mod_lt n (by decide))

/-- Digits are read back as the number that wrote them. -/
theorem hexNumber?_toDigits (n : Nat) : hexNumber? (Nat.toDigits 16 n) = some n := by
  have hdigit : ∀ k < 16, hexDigit? k.digitChar = some k := by decide
  rw [hexNumber?, if_neg Nat.toDigits_ne_nil]
  induction n using Nat.strongRecOn with
  | ind n ih =>
    by_cases hn : n < 16
    · rw [Nat.toDigits_of_lt_base hn, List.foldlM_cons, hdigit n hn]
      simp
    · rw [Nat.toDigits_of_base_le (by decide) (Nat.not_lt.mp hn), List.foldlM_append,
        ih (n / 16) (by omega)]
      simp only [Option.bind_eq_bind, Option.bind_some, List.foldlM_cons,
        hdigit (n % 16) (Nat.mod_lt n (by decide)), Option.map_some, List.foldlM_nil,
        Option.pure_def, Nat.div_add_mod]

end Text

namespace IpAddress

open Text Outcome

variable {t : Text} {ip : IpAddress} {octets : List UInt8} {groups : List UInt16}

/-! ### Version 4 -/

theorem octet?_text (b : UInt8) : octet? (Decimal.text b.toNat) = some b := by
  have hbyte : ∀ n : Nat, n < 256 → octet? (Decimal.text n) = some (UInt8.ofNat n) := by
    decide +kernel
  rw [hbyte b.toNat b.toNat_lt, UInt8.ofNat_toNat]

theorem octets?_text (h : octets.length = 4) : octets? (text (.v4 octets)) = some octets := by
  have hne : octets.map (fun b => Decimal.text b.toNat) ≠ [] := by
    rw [Ne, List.map_eq_nil_iff, ← List.length_eq_zero_iff, h]
    decide
  have hpoint : ∀ a ∈ octets.map (fun b => Decimal.text b.toNat), '.' ∉ a := by
    refine List.forall_mem_map.mpr fun b _ hmem => ?_
    rw [Decimal.text_natCast] at hmem
    exact absurd (Decimal.isDigit_of_mem_toDigits hmem) (by decide)
  have hsplit : (text (.v4 octets)).splitOn '.' = octets.map fun b => Decimal.text b.toNat :=
    List.splitOn_intercalate '.' hpoint hne
  have hread : (octets.map fun b => Decimal.text b.toNat).mapM octet? = some octets :=
    mapM_map_eq_some fun b _ => octet?_text b
  simp [octets?, hsplit, h, hread]

theorem mapM_of_octets? (h : octets? t = some octets) :
    (t.splitOn '.').length = 4 ∧ (t.splitOn '.').mapM octet? = some octets := by
  dsimp only [octets?] at h
  split at h
  · next hlen => exact ⟨hlen, h⟩
  · cases h

theorem length_of_octets? (h : octets? t = some octets) : octets.length = 4 := by
  obtain ⟨hlen, h⟩ := mapM_of_octets? h
  rw [← (mapM_eq_some.mp h).length_eq, hlen]

theorem isDigits_of_octet? {b : UInt8} (h : octet? t = some b) : Decimal.isDigits t = true := by
  unfold octet? at h
  split at h
  · next hdigits => exact hdigits.1
  · cases h

/-- Octets are digits between points. -/
theorem colon_not_mem_of_octets? (h : octets? t = some octets) : ':' ∉ t := by
  obtain ⟨-, h⟩ := mapM_of_octets? h
  have hdigits : ∀ a ∈ t.splitOn '.', Decimal.isDigits a = true :=
    ((List.forall₂_and_left _ _).mp ((mapM_eq_some.mp h).imp fun _ _ hb =>
      ⟨isDigits_of_octet? hb, hb⟩)).1
  have hjoin : ['.'].intercalate (t.splitOn '.') = t := List.intercalate_splitOn '.'
  rw [← hjoin]
  refine over_ne_iff.mp (over_intercalate (by decide) fun a ha c hc => ?_)
  rintro rfl
  exact absurd ((Decimal.isDigits_iff.mp (hdigits a ha)).2 _ hc) (by decide)

/-! ### Groups -/

theorem colon_not_mem_hex (n : Nat) : ':' ∉ hex 1 n := fun hmem =>
  absurd (mem_lowerHex_of_mem_hex hmem) (by decide)

theorem mem_joinGroups {c : Char} (h : c ∈ joinGroups groups) : c ∈ ':' :: lowerHex := by
  refine over_intercalate (p := (· ∈ ':' :: lowerHex)) (by simp) ?_ c h
  exact List.forall_mem_map.mpr fun g _ c hc =>
    List.mem_cons_of_mem _ (mem_lowerHex_of_mem_hex hc)

theorem group?_hex (g : UInt16) : group? (hex 1 g.toNat) = some g := by
  have hlen : (Nat.toDigits 16 g.toNat).length ≤ 4 :=
    (Nat.length_toDigits_le_iff (by decide) (by decide)).mpr g.toNat_lt
  rw [hex_one, group?, if_pos hlen, hexNumber?_toDigits]
  simp

theorem splitOn_joinGroups (h : groups ≠ []) :
    (joinGroups groups).splitOn ':' = groups.map fun g => hex 1 g.toNat := by
  have hcolon : ∀ a ∈ groups.map (fun g => hex 1 g.toNat), ':' ∉ a :=
    List.forall_mem_map.mpr fun g _ => colon_not_mem_hex _
  exact List.splitOn_intercalate ':' hcolon (by simpa using h)

/-- Groups between colons are read one by one, and the last of them has no
point in it, be it allowed or not. -/
theorem groupsOf_map_hex (mixed : Bool) (groups : List UInt16) :
    groupsOf mixed (groups.map fun g => hex 1 g.toNat) = some groups := by
  induction groups with
  | nil => rfl
  | cons g groups ih =>
    cases groups with
    | nil =>
      have hpoint : '.' ∉ hex 1 g.toNat := fun hmem =>
        absurd (mem_lowerHex_of_mem_hex hmem) (by decide)
      simp [groupsOf, hpoint, group?_hex]
    | cons g' groups =>
      rw [List.map_cons] at ih
      simp [groupsOf, group?_hex, ih]

theorem joinGroups_eq_nil_iff : joinGroups groups = [] ↔ groups = [] := by
  cases groups with
  | nil => simp [joinGroups]
  | cons g groups =>
    have hmem : hex 1 g.toNat ∈ (g :: groups).map fun g => hex 1 g.toNat := List.mem_cons_self
    exact iff_of_false (intercalate_ne_nil hmem (hex_one_ne_nil _)) (List.cons_ne_nil _ _)

theorem side?_joinGroups (mixed : Bool) (groups : List UInt16) :
    side? mixed (joinGroups groups) = some groups := by
  unfold side?
  split
  · next hnil => rw [joinGroups_eq_nil_iff.mp hnil]
  · next hne =>
    rw [splitOn_joinGroups (mt joinGroups_eq_nil_iff.mpr hne), groupsOf_map_hex]

/-! ### Two colons -/

theorem cutDoubleColon_cons {c : Char} (h : c = ':' → t.head? ≠ some ':') :
    cutDoubleColon (c :: t) = (cutDoubleColon t).map fun cut => (c :: cut.1, cut.2) := by
  conv => lhs; unfold cutDoubleColon
  split
  · next rest heq =>
    obtain ⟨rfl, rfl⟩ := List.cons.inj heq
    exact absurd rfl (h rfl)
  · next heq =>
    obtain ⟨rfl, rfl⟩ := List.cons.inj heq
    rfl
  · next heq => cases heq

theorem cutDoubleColon_append {a : Text} (h : ':' ∉ a) (t : Text) :
    cutDoubleColon (a ++ t) = (cutDoubleColon t).map fun cut => (a ++ cut.1, cut.2) := by
  induction a with
  | nil => simp
  | cons c a ih =>
    rw [List.mem_cons, not_or] at h
    rw [List.cons_append, cutDoubleColon_cons fun hc => absurd hc.symm h.1, ih h.2, Option.map_map]
    rfl

theorem joinGroups_singleton (g : UInt16) : joinGroups [g] = hex 1 g.toNat := by
  simp [joinGroups, List.intercalate]

theorem joinGroups_cons_cons (g g' : UInt16) (groups : List UInt16) :
    joinGroups (g :: g' :: groups) = hex 1 g.toNat ++ ':' :: joinGroups (g' :: groups) := by
  simp [joinGroups, List.intercalate]

theorem head?_joinGroups_ne (g : UInt16) (groups : List UInt16) (t : Text) :
    (joinGroups (g :: groups) ++ t).head? ≠ some ':' := by
  have hne := hex_one_ne_nil g.toNat
  have hhead : (joinGroups (g :: groups) ++ t).head? = (hex 1 g.toNat).head? := by
    cases groups with
    | nil => rw [joinGroups_singleton, List.head?_append_of_ne_nil _ hne]
    | cons g' groups =>
      rw [joinGroups_cons_cons, List.append_assoc, List.head?_append_of_ne_nil _ hne]
  rw [hhead]
  exact fun hcolon => colon_not_mem_hex _ (List.mem_of_mem_head? hcolon)

/-- Groups have no two colons in a row, and no colon at the end. -/
theorem cutDoubleColon_joinGroups (groups : List UInt16) (t : Text) :
    cutDoubleColon (joinGroups groups ++ t)
      = (cutDoubleColon t).map fun cut => (joinGroups groups ++ cut.1, cut.2) := by
  induction groups with
  | nil => simp [joinGroups]
  | cons g groups ih =>
    cases groups with
    | nil => rw [joinGroups_singleton, cutDoubleColon_append (colon_not_mem_hex _)]
    | cons g' groups =>
      rw [joinGroups_cons_cons, List.append_assoc, cutDoubleColon_append (colon_not_mem_hex _),
        List.cons_append, cutDoubleColon_cons fun _ => head?_joinGroups_ne g' groups t, ih,
        Option.map_map, Option.map_map]
      simp [Function.comp_def]

/-! ### Runs of zeros -/

/-- A run of zero groups that no other exceeds, and that none before it
reaches. -/
structure IsLongestRun (groups : List UInt16) (start length : Nat) : Prop where
  most : ∀ i, leadingZeros (groups.drop i) ≤ length
  first : ∀ i < start, leadingZeros (groups.drop i) < length
  reached : leadingZeros (groups.drop start) = length

/-- A scan for the greatest value keeps the first place where it occurs. -/
theorem foldl_range_greatest (f : Nat → Nat) (k : Nat) (best : Nat × Nat)
    (h : (List.range k).foldl (fun best i => if best.2 < f i then (i, f i) else best) (0, 0)
      = best) :
    (∀ i < k, f i ≤ best.2) ∧ (∀ i < best.1, f i < best.2) ∧ (best = (0, 0) ∨ f best.1 = best.2) := by
  induction k generalizing best with
  | zero =>
    subst h
    exact ⟨nofun, nofun, .inl rfl⟩
  | succ k ih =>
    obtain ⟨hmost, hfirst, hreached⟩ := ih _ rfl
    rw [List.range_succ, List.foldl_append, List.foldl_cons, List.foldl_nil] at h
    split at h
    · next hlt =>
      subst h
      refine ⟨fun i hi => ?_, fun i hi => Nat.lt_of_le_of_lt (hmost i hi) hlt, .inr rfl⟩
      rcases Nat.lt_succ_iff_lt_or_eq.mp hi with hi | rfl
      · exact Nat.le_of_lt (Nat.lt_of_le_of_lt (hmost i hi) hlt)
      · exact Nat.le_refl _
    · next hle =>
      subst h
      refine ⟨fun i hi => ?_, hfirst, hreached⟩
      rcases Nat.lt_succ_iff_lt_or_eq.mp hi with hi | rfl
      · exact hmost i hi
      · exact Nat.not_lt.mp hle

theorem isLongestRun_longestZeros (groups : List UInt16) :
    IsLongestRun groups (longestZeros groups).1 (longestZeros groups).2 := by
  obtain ⟨hmost, hfirst, hreached⟩ :=
    foldl_range_greatest (fun i => leadingZeros (groups.drop i)) groups.length
      (longestZeros groups) rfl
  have hall : ∀ i, leadingZeros (groups.drop i) ≤ (longestZeros groups).2 := by
    intro i
    by_cases hi : i < groups.length
    · exact hmost i hi
    · rw [List.drop_eq_nil_of_le (Nat.not_lt.mp hi)]
      exact Nat.zero_le _
  refine ⟨hall, hfirst, hreached.elim (fun hnone => ?_) id⟩
  have hzero := hall 0
  rw [hnone] at hzero ⊢
  exact Nat.le_zero.mp hzero

/-- What is written of groups: all of them, or those around the first of the
longest runs of zeros, if two zeros stand together anywhere. -/
theorem groupsText_cases (groups : List UInt16) :
    (∃ start length, IsLongestRun groups start length ∧ 2 ≤ length
      ∧ groupsText groups = joinGroups (groups.take start)
        ++ ':' :: ':' :: joinGroups (groups.drop (start + length)))
    ∨ (∀ i, leadingZeros (groups.drop i) < 2) ∧ groupsText groups = joinGroups groups := by
  have hrun := isLongestRun_longestZeros groups
  by_cases hlong : 2 ≤ (longestZeros groups).2
  · exact .inl ⟨_, _, hrun, hlong, if_pos hlong⟩
  · exact .inr ⟨fun i => Nat.lt_of_le_of_lt (hrun.most i) (Nat.not_le.mp hlong), if_neg hlong⟩

/-- The zeros of a run can be put back. -/
theorem IsLongestRun.eq_append {start length : Nat} (h : IsLongestRun groups start length) :
    groups = groups.take start ++ (List.replicate length 0 ++ groups.drop (start + length)) := by
  have hzeros : (groups.drop start).takeWhile (· == 0) = List.replicate length 0 := by
    refine List.eq_replicate_iff.mpr ⟨h.reached, fun g hg => ?_⟩
    simpa using List.mem_takeWhile_imp hg
  have hrest : groups.drop (start + length) = (groups.drop start).dropWhile (· == 0) := by
    rw [← List.drop_drop]
    conv_lhs => rw [← List.takeWhile_append_dropWhile (p := (· == 0)) (l := groups.drop start)]
    rw [hzeros, List.drop_left' (List.length_replicate ..)]
  rw [hrest, ← hzeros, List.takeWhile_append_dropWhile, List.take_append_drop]

/-! ### Version 6 -/

theorem groups?_joinGroups (h : groups.length = 8) : groups? (joinGroups groups) = some groups := by
  have hne : groups ≠ [] := by
    rintro rfl
    cases h
  have hcut : cutDoubleColon (joinGroups groups) = none := by
    simpa [cutDoubleColon] using cutDoubleColon_joinGroups groups []
  simp [groups?, hcut, splitOn_joinGroups hne, groupsOf_map_hex, h]

/-- Groups are read back from around the zeros that are left out. -/
theorem groups?_of_isLongestRun (h : groups.length = 8) {start length : Nat}
    (hrun : IsLongestRun groups start length) (hlong : 2 ≤ length) :
    groups? (joinGroups (groups.take start)
      ++ ':' :: ':' :: joinGroups (groups.drop (start + length))) = some groups := by
  have hcut : cutDoubleColon (joinGroups (groups.take start)
      ++ ':' :: ':' :: joinGroups (groups.drop (start + length)))
      = some (joinGroups (groups.take start), joinGroups (groups.drop (start + length))) := by
    rw [cutDoubleColon_joinGroups]
    simp [cutDoubleColon]
  have hlen : groups.length
      = (groups.take start).length + (length + (groups.drop (start + length)).length) := by
    conv_lhs => rw [hrun.eq_append]
    rw [List.length_append, List.length_append, List.length_replicate]
  have hmissing : 8 - ((groups.take start).length + (groups.drop (start + length)).length)
      = length := by omega
  have hshort : (groups.take start).length + (groups.drop (start + length)).length < 8 := by omega
  simp only [groups?, hcut, side?_joinGroups, Option.bind_eq_bind, Option.bind_some, hmissing,
    if_pos hshort, Option.pure_def, List.append_assoc, ← hrun.eq_append]

theorem groups?_groupsText (h : groups.length = 8) : groups? (groupsText groups) = some groups := by
  obtain ⟨start, length, hrun, hlong, htext⟩ | ⟨-, htext⟩ := groupsText_cases groups
  · rw [htext, groups?_of_isLongestRun h hrun hlong]
  · rw [htext, groups?_joinGroups h]

/-- The text of groups is of hexadecimal digits and colons. -/
theorem mem_groupsText {c : Char} (hc : c ∈ groupsText groups) : c ∈ ':' :: lowerHex := by
  obtain ⟨start, length, -, -, htext⟩ | ⟨-, htext⟩ := groupsText_cases groups
  · rw [htext, List.mem_append, List.mem_cons, List.mem_cons] at hc
    obtain hc | rfl | rfl | hc := hc
    · exact mem_joinGroups hc
    · exact List.mem_cons_self
    · exact List.mem_cons_self
    · exact mem_joinGroups hc
  · exact mem_joinGroups (htext ▸ hc)

theorem colon_mem_groupsText (h : groups.length = 8) : ':' ∈ groupsText groups := by
  obtain ⟨start, length, -, -, htext⟩ | ⟨-, htext⟩ := groupsText_cases groups
  · rw [htext]
    exact List.mem_append_right _ List.mem_cons_self
  · rw [htext]
    match groups, h with
    | g :: g' :: groups, _ =>
      rw [joinGroups_cons_cons]
      exact List.mem_append_right _ List.mem_cons_self

/-! ### Addresses -/

/-- What reading assures of an address: four octets, or eight groups, and a
zone that can be read. -/
def WellFormed : IpAddress → Prop
  | v4 octets => octets.length = 4
  | v6 groups zone => groups.length = 8 ∧ ∀ z ∈ zone, z ≠ [] ∧ '%' ∉ z ∧ '/' ∉ z

theorem length_of_groups? (h : groups? t = some groups) : groups.length = 8 := by
  unfold groups? at h
  split at h
  · obtain ⟨high, -, h⟩ := Option.bind_eq_some_iff.mp h
    obtain ⟨low, -, h⟩ := Option.bind_eq_some_iff.mp h
    split at h
    · obtain rfl := Option.some.inj h
      simp only [List.length_append, List.length_replicate]
      omega
    · cases h
  · exact of_decide_eq_true (Option.filter_eq_some_iff.mp h).2

theorem wellFormed_of_ofText? (h : ofText? t = some ip) : ip.WellFormed := by
  unfold ofText? at h
  split at h
  · next octets hoctets =>
    obtain rfl := Option.some.inj h
    exact length_of_octets? hoctets
  · split at h
    · cases h
    · next hslash =>
      split at h
      · obtain ⟨groups, hgroups, rfl⟩ := Option.map_eq_some_iff.mp h
        exact ⟨length_of_groups? hgroups, nofun⟩
      · next address zone hcut =>
        obtain ⟨rfl, -⟩ := cut_some hcut
        split at h
        · cases h
        · next hzone =>
          obtain ⟨hne, hpercent⟩ := not_or.mp hzone
          obtain ⟨groups, hgroups, rfl⟩ := Option.map_eq_some_iff.mp h
          refine ⟨length_of_groups? hgroups, fun z hz => ?_⟩
          obtain rfl : zone = z := Option.some.inj hz
          exact ⟨hne, hpercent, fun hmem => hslash (by simp [hmem])⟩

theorem ofText?_text_of_wellFormed (h : ip.WellFormed) : ofText? ip.text = some ip := by
  cases ip with
  | v4 octets => rw [ofText?, octets?_text h]
  | v6 groups zone =>
    obtain ⟨hlen, hzone⟩ := h
    have hoctets : octets? (text (.v6 groups zone)) = none := by
      refine Option.eq_none_iff_forall_ne_some.mpr fun octets hoctets => ?_
      exact colon_not_mem_of_octets? hoctets
        (List.mem_append_left _ (colon_mem_groupsText hlen))
    have hpercent : '%' ∉ groupsText groups := fun hmem =>
      absurd (mem_groupsText hmem) (by decide)
    have hslash : '/' ∉ groupsText groups := fun hmem => absurd (mem_groupsText hmem) (by decide)
    rw [ofText?, hoctets]
    cases zone with
    | none =>
      have htext : text (.v6 groups none) = groupsText groups := List.append_nil _
      simp only [htext, if_neg hslash, cut_eq_none hpercent, groups?_groupsText hlen,
        Option.map_some]
    | some zone =>
      obtain ⟨hne, hzone, hslash'⟩ := hzone zone rfl
      have htext : text (.v6 groups (some zone)) = groupsText groups ++ '%' :: zone := rfl
      have hslash : '/' ∉ groupsText groups ++ '%' :: zone := by simp [hslash, hslash']
      simp only [htext, if_neg hslash, cut_append hpercent, hne, hzone, or_self, if_false,
        groups?_groupsText hlen, Option.map_some]

/-- An address that has been read is read again from its own text. -/
theorem ofText?_text (h : ofText? t = some ip) : ofText? ip.text = some ip :=
  ofText?_text_of_wellFormed (wellFormed_of_ofText? h)

end IpAddress

end OfferAnswer
