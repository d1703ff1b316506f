/-
OfferAnswer/Bundle/Answer.lean

New bundles, and the answer to a bundle that is offered.

Either draws its identifier, its ICE user and its ICE password, in this order.
An answer that fails for want of a role has drawn all three.
-/
import OfferAnswer.Bundle.Basic
import OfferAnswer.Entropy

namespace OfferAnswer.Bundle

/-- Above the highest identifier that is drawn. -/
def idBound : Nat := 0x7FFFFFFFFFFFFFFF

/-- What a bundle draws for itself. -/
structure Credentials where
  id : Nat
  iceUser : Text
  icePassword : Text

def drawCredentials : Draw Credentials := do
  let id ← Draw.below idBound
  let iceUser ← Draw.token Draw.alphanumeric 8
  let icePassword ← Draw.token Draw.alphanumeric 24
  return { id, iceUser, icePassword }

/-- A bundle without media, to be offered. -/
def offering (c : Credentials) : Bundle where
  id := c.id
  version := 1
  iceUser := c.iceUser
  icePassword := c.icePassword
  iceLite := true
  iceOptions := []
  candidates := []
  certificates := []
  role := .actpass
  mixedExtensions := true
  media := []

/-- Draw a bundle without media. -/
def new : Draw Bundle := offering <$> drawCredentials

/-- The answer in a role.  Candidates and certificates are the caller's to
add. -/
def answering (b : Bundle) (role : SetupRole) (c : Credentials) : Bundle where
  id := c.id
  version := 1
  iceUser := c.iceUser
  icePassword := c.icePassword
  iceLite := false
  iceOptions := []
  candidates := []
  certificates := []
  role
  mixedExtensions := b.mixedExtensions
  media := b.media.map RtpMedia.answer

/-- The role that is asked for, or else the one that answers the offered
one. -/
def answeringRole (b : Bundle) : Option SetupRole → Except Fault SetupRole
  | some role => .ok role
  | none =>
    match b.role.reverse? with
    | some role => .ok role
    | none => .error (.irreversible b.role)

/-- Draw the answer to a bundle. -/
def answer (b : Bundle) (role : Option SetupRole) : Draw (Except Fault Bundle) := do
  let c ← drawCredentials
  return (b.answeringRole role).map fun r => b.answering r c

end OfferAnswer.Bundle
