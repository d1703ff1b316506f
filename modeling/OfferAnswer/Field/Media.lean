/-
OfferAnswer/Field/Media.lean

The fields of a media section.
-/
import OfferAnswer.Field.Basic

namespace OfferAnswer

open OfferAnswer.Field

/-- A medium: its kind, where it is sent, and in which formats.  What a format
means depends on the protocol, so formats are kept as they are. -/
structure Medium where
  kind : Token MediaKind
  port : Int
  protocol : Token Protocol
  formats : List Text
  ports : Option Int
  deriving BEq

namespace Medium

def read (raw : Text) : Except Fault Medium := do
  let ws := Text.words raw
  if ws.contains [] then throw (.media raw)
  match ws with
  | kind :: spec :: protocol :: format :: formats =>
    let (port, ports) := Text.cut '/' spec
    return {
      kind := Token.ofText kind
      port := ← integer 'm' (.upTo 65535) port
      protocol := Token.ofText protocol
      formats := format :: formats
      ports := ← ports.mapM (integer 'm' ⟨some 1, none⟩) }
  | _ => throw (.media raw)

def text (m : Medium) : Text :=
  let spec := Decimal.text m.port ++
    match m.ports with
    | some n => '/' :: Decimal.text n
    | none => []
  Text.unwords (m.kind.text :: spec :: m.protocol.text :: m.formats)

end Medium

/-- A line of a media section. -/
inductive MediaField where
  | medium (m : Medium)
  | title (t : Text)
  | connection (c : Connection)
  | bandwidth (b : Bandwidth)
  | key (k : EncryptionKey)
  | attr (a : Attribute)
  deriving BEq

namespace MediaField

/-- The field with a letter and a value. -/
def read (letter : Char) (raw : Text) : Except Fault MediaField :=
  match letter with
  | 'm' => medium <$> Medium.read raw
  | 'i' => .ok (title raw)
  | 'c' => connection <$> Connection.read raw
  | 'b' => bandwidth <$> Bandwidth.read raw
  | 'k' => .ok (key (.ofText raw))
  | 'a' => attr <$> (Attribute.ofText raw).mapError .attr
  | _ => .error (.unknownLetter letter)

def letter : MediaField → Char
  | medium _ => 'm'
  | title _ => 'i'
  | connection _ => 'c'
  | bandwidth _ => 'b'
  | key _ => 'k'
  | attr _ => 'a'

def value : MediaField → Text
  | medium m => m.text
  | title t => t
  | connection c => c.text
  | bandwidth b => b.text
  | key k => k.text
  | attr a => a.text

def text (f : MediaField) : Text := line f.letter f.value

def description : MediaField → String
  | medium _ => "media name and transport address"
  | title _ => "media title"
  | connection _ => "connection information -- optional if included at session-level"
  | bandwidth _ => "zero or more bandwidth information lines"
  | key _ => "encryption key"
  | attr _ => "zero or more media attribute lines"

end MediaField

end OfferAnswer
