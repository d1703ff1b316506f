/-
OfferAnswer/Document/Basic.lean

Documents: a whole session, or a single section on its own.
-/
import OfferAnswer.Document.Reader

namespace OfferAnswer

/-- A document of one of the three kinds. -/
inductive Document where
  | session (s : Session)
  | time (t : TimeSection)
  | media (m : MediaSection)
  deriving BEq

namespace Document

/-- The document of a kind that a text stands for. -/
def ofText (kind : Owner) (t : Text) : Except Error Document :=
  match kind with
  | .session => session <$> Session.ofText t
  | .time => time <$> TimeSection.ofText t
  | .media => media <$> MediaSection.ofText t

/-- The document of a kind that the bytes of a text stand for. -/
def ofBytes (kind : Owner) (bytes : List UInt8) : Except Error Document :=
  match kind with
  | .session => session <$> Session.ofBytes bytes
  | .time => time <$> TimeSection.ofBytes bytes
  | .media => media <$> MediaSection.ofBytes bytes

def fields : Document → List DocumentField
  | session s => s.draft.fields
  | time t => t.fields.map .time
  | media m => m.fields.map .media

/-- The text of a document: its fields line by line. -/
def text (d : Document) : Text := d.fields.flatMap fun f => endLine f.text

/-- Whether every time is short enough to be written. -/
def isWritable (d : Document) : Bool := d.fields.all DocumentField.isWritable

theorem text_session (s : Session) : (session s).text = s.text := rfl

theorem text_time (t : TimeSection) : (time t).text = t.text := by
  simp [text, fields, TimeSection.text, List.flatMap_map, DocumentField.text]

theorem text_media (m : MediaSection) : (media m).text = m.text := by
  simp [text, fields, MediaSection.text, List.flatMap_map, DocumentField.text]

end Document

end OfferAnswer
