/-
OfferAnswer/Document/Worksheet.lean

Worksheets: sessions while they are edited.

A worksheet has a place for every part of a session, named by the letter of the
part.  Any field may stand at the place of a single line, and any part may be
missing, also one that a session must have; what is missing is not written.  A
session on a worksheet is written as it is without one.
-/
import OfferAnswer.Document.Section

namespace OfferAnswer

/-- What a session and a medium have alike: places for single lines, bandwidths
and attributes. -/
structure Sheet where
  line : Char → Option DocumentField
  bandwidths : Option Bandwidths
  attributes : Option AttributeList

namespace Sheet

/-- Put a field at a place, or leave the place empty. -/
def setLine (s : Sheet) (place : Char) (f : Option DocumentField) : Sheet :=
  { s with line := fun c => if c = place then f else s.line c }

@[simp] theorem line_setLine_self (s : Sheet) (place : Char) (f : Option DocumentField) :
    (s.setLine place f).line place = f := by
  simp [setLine]

theorem line_setLine_ne (s : Sheet) {c place : Char} (f : Option DocumentField)
    (h : c ≠ place) : (s.setLine place f).line c = s.line c := by
  simp [setLine, h]

/-- Take out the part at a place. -/
def strike (s : Sheet) (place : Char) : Sheet :=
  match place with
  | 'b' => { s with bandwidths := none }
  | 'a' => { s with attributes := none }
  | _ => s.setLine place none

/-- The lines at some places, and then the bandwidths. -/
def opening (s : Sheet) (places : List Char) (bandwidth : Bandwidth → DocumentField) :
    List DocumentField :=
  (places.flatMap fun c => (s.line c).toList)
    ++ (s.bandwidths.getD .empty).entries.map fun e => bandwidth e.2

/-- The key, and then the attributes. -/
def closing (s : Sheet) (attr : Attribute → DocumentField) : List DocumentField :=
  (s.line 'k').toList ++ (s.attributes.getD []).map attr

/-- The fields of a medium in the order in which they are written. -/
def mediaFields (s : Sheet) : List DocumentField :=
  s.opening ['m', 'i', 'c'] (fun b => .media (.bandwidth b))
    ++ s.closing fun a => .media (.attr a)

end Sheet

/-- A session on a worksheet. -/
structure Worksheet extends Sheet where
  times : Option (List TimeSection)
  media : Option (List Sheet)

namespace Worksheet

/-- Take out the part at a place. -/
def strike (w : Worksheet) (place : Char) : Worksheet :=
  match place with
  | 't' => { w with times := none }
  | 'm' => { w with media := none }
  | _ => { w with toSheet := w.toSheet.strike place }

/-- The fields in the order in which they are written. -/
def fields (w : Worksheet) : List DocumentField :=
  w.opening ['v', 'o', 's', 'i', 'u', 'e', 'p', 'c'] (fun b => .session (.bandwidth b))
    ++ (w.times.getD []).flatMap (fun t => t.fields.map .time)
    ++ w.closing (fun a => .session (.attr a))
    ++ (w.media.getD []).flatMap Sheet.mediaFields

def text (w : Worksheet) : Text := w.fields.flatMap fun f => endLine f.text

/-- Whether every time is short enough to be written. -/
def isWritable (w : Worksheet) : Bool := w.fields.all DocumentField.isWritable

end Worksheet

/-! ### Sections on a worksheet -/

/-- The field of a medium at a place. -/
def MediaSection.line (m : MediaSection) : Char → Option MediaField
  | 'm' => some (.medium m.medium)
  | 'i' => m.title.map .title
  | 'c' => m.connection.map .connection
  | 'k' => m.key.map .key
  | _ => none

/-- The medium on a worksheet. -/
def MediaSection.sheet (m : MediaSection) : Sheet where
  line c := (m.line c).map .media
  bandwidths := some m.bandwidths
  attributes := some m.attributes

/-- The field of a session at a place. -/
def Session.line (s : Session) : Char → Option SessionField
  | 'v' => some (.version s.version)
  | 'o' => some (.origin s.origin)
  | 's' => some (.name s.name)
  | 'i' => s.information.map .information
  | 'u' => s.uri.map .uri
  | 'e' => s.email.map .email
  | 'p' => s.phone.map .phone
  | 'c' => s.connection.map .connection
  | 'k' => s.key.map .key
  | _ => none

/-- The session on a worksheet. -/
def Session.worksheet (s : Session) : Worksheet where
  line c := (s.line c).map .session
  bandwidths := some s.bandwidths
  attributes := some s.attributes
  times := some s.times
  media := some (s.media.map MediaSection.sheet)

/-! ### Writing a section from its worksheet -/

theorem MediaSection.mediaFields_sheet (m : MediaSection) :
    m.sheet.mediaFields = m.fields.map .media := by
  simp [Sheet.mediaFields, Sheet.opening, Sheet.closing, sheet, line, fields,
    Function.comp_def, Option.toList_map]

theorem Session.fields_worksheet (s : Session) : s.worksheet.fields = s.draft.fields := by
  simp [Worksheet.fields, Sheet.opening, Sheet.closing, worksheet, line, draft, Draft.fields,
    Draft.ownBefore, Draft.ownAfter, List.flatMap_map, MediaSection.mediaFields_sheet,
    Function.comp_def, Option.toList_map]

/-- A session is written alike with and without a worksheet. -/
theorem Session.text_worksheet (s : Session) : s.worksheet.text = s.text := by
  rw [Worksheet.text, fields_worksheet]
  rfl

end OfferAnswer
