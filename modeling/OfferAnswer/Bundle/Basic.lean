/-
OfferAnswer/Bundle/Basic.lean

Bundles: sessions whose media all share one transport.

The transport of a session is that of its first medium, and where that says
nothing, that of the session.  Written out, every medium repeats it.
-/
import OfferAnswer.Bundle.Media
import OfferAnswer.Document.Reader

namespace OfferAnswer

/-- A session whose media share one transport. -/
structure Bundle where
  id : Int
  version : Int
  iceUser : Text
  icePassword : Text
  iceLite : Bool
  iceOptions : List (Token IceOption)
  candidates : List Candidate
  certificates : List CertificateHash
  role : SetupRole
  mixedExtensions : Bool
  media : List RtpMedia
  deriving BEq

namespace Bundle

/-! ### Reading -/

/-- The bundle of a session. -/
def ofSession (s : Session) : Except Fault Bundle :=
  match s.media with
  | [] => .error .noMedia
  | first :: _ =>
    -- All media share one transport, so the first of them speaks for it, and then the session.
    let inner := first.attributes
    let outer := s.attributes
    let firstOf {α : Type} (view : Attribute → Option α) : Option α :=
      (inner.findSome? view).or (outer.findSome? view)
    match firstOf (Attribute.labelled? .iceUser), firstOf (Attribute.labelled? .icePassword) with
    | none, _ => .error .noUser
    | _, none => .error .noPassword
    | some iceUser, some icePassword => do
      let media ← s.media.mapM RtpMedia.ofSection
      return {
        id := s.origin.id
        version := s.origin.version
        iceUser
        icePassword
        iceLite := outer.hasFlag .iceLite
        iceOptions := (firstOf Attribute.iceOptions?).getD []
        candidates := inner.candidates
        certificates := inner.certificates ++ outer.certificates
        role := (firstOf Attribute.setup?).getD .actpass
        mixedExtensions := inner.hasFlag .extmapAllowMixed || outer.hasFlag .extmapAllowMixed
        media }

/-- The bundle that a text stands for. -/
def ofText (t : Text) : Except Error Bundle :=
  (Session.ofText t).mapError .document >>= fun s => (ofSession s).mapError .meaning

/-- The bundle that the bytes of a text stand for. -/
def ofBytes (bytes : List UInt8) : Except Error Bundle :=
  (Session.ofBytes bytes).mapError .document >>= fun s => (ofSession s).mapError .meaning

/-! ### Writing -/

/-- The attributes of the transport. -/
def transportAttributes (b : Bundle) : List Attribute :=
  [.label .iceUser b.iceUser, .label .icePassword b.icePassword]
    ++ (if b.iceOptions.isEmpty then [] else [.iceOptions b.iceOptions])
    ++ b.candidates.map .candidate
    ++ b.certificates.map .certificate
    ++ [.setup b.role]

/-- The attributes of the session itself. -/
def sessionAttributes (b : Bundle) : List Attribute :=
  (if b.iceLite then [.flag .iceLite] else [])
    ++ (if b.media.isEmpty then []
        else [.group { meaning := .known .bundle, mids := b.media.map RtpMedia.mid }])
    ++ (if b.mixedExtensions then [.flag .extmapAllowMixed] else [])

/-- The origin of a session without a user, on this host. -/
def origin (b : Bundle) : Origin where
  user := none
  id := b.id
  version := b.version
  network := .internet
  family := .ip4
  address := "127.0.0.1".toList

/-- The session of a bundle. -/
def toSession (b : Bundle) : Session where
  version := ['0']
  origin := b.origin
  name := none
  information := none
  uri := none
  email := none
  phone := none
  connection := none
  bandwidths := .empty
  times := [.ofActive ⟨0, 0⟩]
  times_ne_nil := List.cons_ne_nil _ _
  key := none
  attributes := b.sessionAttributes
  media := b.media.map fun m => m.toSection b.transportAttributes

def text (b : Bundle) : Text := b.toSession.text

/-! ### Certificates -/

/-- The first fingerprint under a hash function. -/
def fingerprint? (b : Bundle) (function : Token HashFunction) : Option Fingerprint :=
  (b.certificates.find? fun h => h.function == function).map CertificateHash.fingerprint

end Bundle

end OfferAnswer
