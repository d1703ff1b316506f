/-
OfferAnswer/IpAddress.lean

Internet addresses of both versions.

A version 4 address is four octets in decimal without leading zeros.  A
version 6 address is eight groups in hexadecimal, of which two colons stand
for as many zero groups as are missing; its last two groups may be spelled as
a version 4 address, and a zone may follow after a percent sign.

Addresses are written in one way: lower case, no leading zeros, and the first
of the longest runs of two zero groups or more as two colons.
-/
import OfferAnswer.Decimal
import OfferAnswer.Text.Hex

namespace OfferAnswer

/-- An internet address. -/
inductive IpAddress where
  | v4 (octets : List UInt8)
  | v6 (groups : List UInt16) (zone : Option Text)
  deriving DecidableEq

namespace IpAddress

/-! ### Reading version 4 -/

/-- A decimal octet. -/
def octet? (t : Text) : Option UInt8 :=
  if Decimal.isDigits t ∧ t.length ≤ 3 ∧ (t = ['0'] ∨ t.head? ≠ some '0')
      ∧ Decimal.ofDigits t ≤ 255 then
    some (UInt8.ofNat (Decimal.ofDigits t))
  else none

/-- The octets between points. -/
def octets? (t : Text) : Option (List UInt8) :=
  let parts := t.splitOn '.'
  if parts.length = 4 then parts.mapM octet? else none

/-! ### Reading version 6 -/

/-- A group of four hexadecimal digits at most. -/
def group? (t : Text) : Option UInt16 :=
  if t.length ≤ 4 then (Text.hexNumber? t).map UInt16.ofNat else none

/-- The two groups that octets fill. -/
def pairUp : List UInt8 → List UInt16
  | a :: b :: rest => UInt16.ofNat (256 * a.toNat + b.toNat) :: pairUp rest
  | _ => []

/-- The groups of the parts between colons; the last part may be a version 4
address where `mixed` allows it. -/
def groupsOf (mixed : Bool) : List Text → Option (List UInt16)
  | [] => some []
  | [last] =>
    if mixed && last.contains '.' then (octets? last).map pairUp else (group? last).map ([·])
  | part :: rest => do
    let group ← group? part
    return group :: (← groupsOf mixed rest)

/-- The groups on one side of two colons; none, where nothing stands there. -/
def side? (mixed : Bool) (t : Text) : Option (List UInt16) :=
  if t = [] then some [] else groupsOf mixed (t.splitOn ':')

/-- What stands before and after the first two colons in a row. -/
def cutDoubleColon : Text → Option (Text × Text)
  | ':' :: ':' :: rest => some ([], rest)
  | c :: rest => (cutDoubleColon rest).map fun (before, after) => (c :: before, after)
  | [] => none

/-- The eight groups of an address. -/
def groups? (t : Text) : Option (List UInt16) :=
  match cutDoubleColon t with
  | some (before, after) => do
    let high ← side? false before
    let low ← side? true after
    if high.length + low.length < 8 then
      return high ++ List.replicate (8 - (high.length + low.length)) 0 ++ low
    else none
  | none => (groupsOf true (t.splitOn ':')).filter fun groups => groups.length = 8

/-- The address that a text stands for. -/
def ofText? (t : Text) : Option IpAddress :=
  match octets? t with
  | some octets => some (.v4 octets)
  | none =>
    if '/' ∈ t then none
    else
      match Text.cut '%' t with
      | (address, none) => (groups? address).map (.v6 · none)
      | (address, some zone) =>
        if zone = [] ∨ '%' ∈ zone then none else (groups? address).map (.v6 · (some zone))

/-! ### Writing -/

/-- How many zero groups stand in front. -/
def leadingZeros (groups : List UInt16) : Nat := (groups.takeWhile (· == 0)).length

/-- Where the first of the longest runs of zero groups begins, and its
length. -/
def longestZeros (groups : List UInt16) : Nat × Nat :=
  (List.range groups.length).foldl
    (fun best i =>
      let n := leadingZeros (groups.drop i)
      if best.2 < n then (i, n) else best)
    (0, 0)

/-- Groups between colons. -/
def joinGroups (groups : List UInt16) : Text :=
  [':'].intercalate (groups.map fun g => Text.hex 1 g.toNat)

/-- Groups with the longest run of zeros shortened. -/
def groupsText (groups : List UInt16) : Text :=
  let (start, length) := longestZeros groups
  if 2 ≤ length then
    joinGroups (groups.take start) ++ ':' :: ':' :: joinGroups (groups.drop (start + length))
  else joinGroups groups

/-- The address as it is written. -/
def text : IpAddress → Text
  | v4 octets => ['.'].intercalate (octets.map fun b => Decimal.text b.toNat)
  | v6 groups zone =>
    groupsText groups
      ++ match zone with
        | some zone => '%' :: zone
        | none => []

example : (ofText? "2001:DB8::0:1".toList).map text = some "2001:db8::1".toList := by
  decide +kernel
example : (ofText? "::ffff:192.0.2.33".toList).map text = some "::ffff:c000:221".toList := by
  decide +kernel

end IpAddress

end OfferAnswer
