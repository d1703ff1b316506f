/-
OfferAnswer/Proofs/Bundle/Restriction.lean

Restricting bundles to what is supported, and answering them.

Restricting looks at the kind, the codecs and the names of extensions, none of
which it changes, and answering changes none of them either.  So restricting is
a projection, and it does not matter whether a bundle is restricted before it
is answered or after.
-/
import OfferAnswer.Bundle.Answer
import OfferAnswer.Capability
import OfferAnswer.Proofs.OrderedMap

namespace OfferAnswer

open Text

/-! ### What is supported -/

namespace Capability

variable (c : Capability) (p : Payload) (m : RtpMedia)

end Capability

/-! ### Media -/

namespace RtpMedia

/-- Answering leaves the kind, the payloads and the extensions alone, and
restricting leaves everything else. -/
theorem answer_toCapability (m : RtpMedia) : m.toCapability.answer = m.answer.toCapability := rfl

end RtpMedia

/-! ### Bundles -/

namespace Bundle

theorem answering_toCapability (b : Bundle) (r : SetupRole) (c : Credentials) :
    b.toCapability.answering r c = (b.answering r c).toCapability := by
  have hmedia : (b.media.map RtpMedia.toCapability).map RtpMedia.answer
      = (b.media.map RtpMedia.answer).map RtpMedia.toCapability := by
    rw [List.map_map, List.map_map]
    exact List.map_congr_left fun m _ => m.answer_toCapability
  simp only [answering, toCapability, hmedia]

/-- The answer to a restricted bundle is the restricted answer to the bundle,
or fails as that does, and as much is drawn for it. -/
theorem answer_toCapability (b : Bundle) (role : Option SetupRole) (e : Entropy) :
    b.toCapability.answer role e
      = ((b.answer role e).1.map toCapability, (b.answer role e).2) := by
  have hrole : b.toCapability.answeringRole role = b.answeringRole role := by
    cases role <;> rfl
  show ((b.toCapability.answeringRole role).map fun r =>
      b.toCapability.answering r (drawCredentials e).1, (drawCredentials e).2)
    = (((b.answeringRole role).map fun r => b.answering r (drawCredentials e).1).map toCapability,
      (drawCredentials e).2)
  rw [hrole]
  cases b.answeringRole role with
  | error f => rfl
  | ok r => exact congrArg (fun a => (Except.ok a, _)) (b.answering_toCapability r _)

end Bundle

end OfferAnswer
