/-
OfferAnswer/Metadata.lean

What is known of a package: nothing, the headers of its distribution, or the
record of its project file.
-/
import OfferAnswer.Text.Case
import OfferAnswer.Value

namespace OfferAnswer

/-- The data of a package. -/
inductive Metadata where
  | nothing
  | headers (hs : List (Text × Text))
  | project (data : Value)

namespace Metadata

/-- What the package says: under a header, in any case and the first of its
name, or at the end of a path into the project file. -/
def find (m : Metadata) (header : Text) (path : List Value) : Value :=
  match m with
  | nothing => .null
  | headers hs =>
    match hs.find? fun h => Text.sameLower h.1 header with
    | some h => .text h.2
    | none => .null
  | project data => (data.follow? path).getD .null

/-- A record, from names and values. -/
def recordOf (fields : List (String × Value)) : Value :=
  .record (fields.map fun f => (f.1.toList, f.2))

/-- The project file of this package. -/
def own : Metadata :=
  let text (s : String) : Value := .text s.toList
  .project <| recordOf [("project", recordOf [
    ("name", text "rtcsdp"),
    ("version", text "0.1.0"),
    ("description", text "SDP parsing and WebRTC offer/answer negotiation in pure Python"),
    ("license", recordOf [("text", text "MIT")]),
    ("authors", .list [recordOf [("name", text "rtcsdp developers")]])])]

/-- The fields of the package, each with its header and its path. -/
def fields : List (String × String × List Value) :=
  let text (s : String) : Value := .text s.toList
  let project (path : List Value) : List Value := text "project" :: path
  [("title", "Name", project [text "name"]),
   ("description", "Summary", project [text "description"]),
   ("url", "Home-page", project [text "homepage"]),
   ("author", "Author", project [text "authors", .number 0, text "name"]),
   ("author_email", "Author-email", project [text "authors", .number 0, text "email"]),
   ("version", "Version", project [text "version"]),
   ("license", "License", project [text "license", text "text"])]

/-- What a package says of itself, field by field. -/
def describe (m : Metadata) : List (String × Value) :=
  fields.map fun (name, header, path) => (name, m.find header.toList path)

end Metadata

end OfferAnswer
