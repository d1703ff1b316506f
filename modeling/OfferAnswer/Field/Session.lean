/-
OfferAnswer/Field/Session.lean

The fields of a session that stand outside its times and media.
-/
import OfferAnswer.Field.Basic

namespace OfferAnswer

open OfferAnswer.Field

/-- Who made the session, and which version of it this is. -/
structure Origin where
  user : Option Text
  id : Int
  version : Int
  network : Network
  family : AddressFamily
  address : Text
  deriving BEq

namespace Origin

/-- The highest session identifier and version. -/
def maxNumber : Int := 18446744073709551615

/-- A hyphen stands for no user. -/
def readUser (t : Text) : Option Text := if t = ['-'] then none else some t

def read (raw : Text) : Except Fault Origin := do
  match ← exactly 6 raw with
  | [user, id, version, network, family, address] =>
    return {
      user := readUser user
      id := ← integer 'o' (.upTo maxNumber) id
      version := ← integer 'o' (.upTo maxNumber) version
      network := ← word 'o' network
      family := ← word 'o' family
      address }
  | _ => throw (.wordCount 6 raw)

def text (o : Origin) : Text :=
  Text.unwords [o.user.getD ['-'], Decimal.text o.id, Decimal.text o.version,
    Vocabulary.spelling o.network, Vocabulary.spelling o.family, o.address]

end Origin

/-- A line of a session. -/
inductive SessionField where
  | version (v : Text)
  | origin (o : Origin)
  | name (n : Option Text)
  | information (t : Text)
  | uri (t : Text)
  | email (t : Text)
  | phone (t : Text)
  | connection (c : Connection)
  | bandwidth (b : Bandwidth)
  | key (k : EncryptionKey)
  | attr (a : Attribute)
  deriving BEq

namespace SessionField

/-- The one version that is understood. -/
def readVersion (raw : Text) : Except Fault Text :=
  if raw = ['0'] then .ok raw else .error (.version raw)

/-- A hyphen or a single blank stands for no name. -/
def readName (raw : Text) : Except Fault (Option Text) :=
  if raw = ['-'] ∨ raw = [' '] then .ok none
  else if raw = [] then .error .emptyName
  else .ok (some raw)

/-- The field with a letter and a value. -/
def read (letter : Char) (raw : Text) : Except Fault SessionField :=
  match letter with
  | 'v' => version <$> readVersion raw
  | 'o' => origin <$> Origin.read raw
  | 's' => name <$> readName raw
  | 'i' => .ok (information raw)
  | 'u' => .ok (uri raw)
  | 'e' => .ok (email raw)
  | 'p' => .ok (phone raw)
  | 'c' => connection <$> Connection.read raw
  | 'b' => bandwidth <$> Bandwidth.read raw
  | 'k' => .ok (key (.ofText raw))
  | 'a' => attr <$> (Attribute.ofText raw).mapError .attr
  | _ => .error (.unknownLetter letter)

def letter : SessionField → Char
  | version _ => 'v'
  | origin _ => 'o'
  | name _ => 's'
  | information _ => 'i'
  | uri _ => 'u'
  | email _ => 'e'
  | phone _ => 'p'
  | connection _ => 'c'
  | bandwidth _ => 'b'
  | key _ => 'k'
  | attr _ => 'a'

def value : SessionField → Text
  | version v => v
  | origin o => o.text
  | name n => n.getD ['-']
  | information t | uri t | email t | phone t => t
  | connection c => c.text
  | bandwidth b => b.text
  | key k => k.text
  | attr a => a.text

def text (f : SessionField) : Text := line f.letter f.value

def description : SessionField → String
  | version _ => "protocol version"
  | origin _ => "originator and session identifier"
  | name _ => "session name"
  | information _ => "session information"
  | uri _ => "URI of description"
  | email _ => "email address"
  | phone _ => "phone number"
  | connection _ => "connection information -- not required if included in all media"
  | bandwidth _ => "zero or more bandwidth information lines"
  | key _ => "encryption key"
  | attr _ => "zero or more session attribute lines"

end SessionField

end OfferAnswer
