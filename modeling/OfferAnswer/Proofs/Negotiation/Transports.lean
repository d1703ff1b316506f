/-
OfferAnswer/Proofs/Negotiation/Transports.lean

What failed negotiations leave behind.

A negotiation that fails for what the offer means should not have touched the
engine.  That is so if no fingerprint suits, for this is looked at first.  An
offer to hold the connection is found to have no answering role only when the
transport has been created, and the transport stays
(`leavesNoTransport_iff`).
-/
import OfferAnswer.Negotiation.Basic
import OfferAnswer.Proofs.Outcome

namespace OfferAnswer

open Negotiation

/-! ### Transports of an engine -/

namespace Engine

/-- The transport that a call creates after some others, as the port that it is
asked for with. -/
def created (e : Engine) (before : List Call) : Call → List (Option Int)
  | .createTransport port =>
    if (e.refusal? before (.createTransport port)).isNone then [port] else []
  | _ => []

/-- The transports that calls create after some others. -/
def transportsAfter (e : Engine) (before : List Call) : List Call → List (Option Int)
  | [] => []
  | c :: rest => e.created before c ++ e.transportsAfter (before ++ [c]) rest

/-- The transports that an engine has after some calls. -/
def transports (e : Engine) (calls : List Call) : List (Option Int) := e.transportsAfter [] calls

variable {e : Engine} {before calls : List Call} {c : Call}

theorem transportsAfter_concat : e.transportsAfter before (calls ++ [c])
    = e.transportsAfter before calls ++ e.created (before ++ calls) c := by
  induction calls generalizing before with
  | nil => simp [transportsAfter]
  | cons call calls ih =>
    rw [List.cons_append, transportsAfter, transportsAfter, ih, List.append_assoc,
      List.append_assoc, List.singleton_append]

theorem transports_concat :
    e.transports (calls ++ [c]) = e.transports calls ++ e.created calls c :=
  transportsAfter_concat

end Engine

namespace Negotiation

/-! ### Faults of meaning -/

/-- Whether a negotiation fails for what the offer means, and not for the
engine, the network or a value that is none. -/
def Fault.isSemantic : Fault → Bool
  | missingCertificate _ => true
  | bundle (.number _) => false
  | bundle _ => true
  | address _ | fingerprint _ | engine _ => false

variable {α β : Type} {c : Config} {e : Engine} {offer : Bundle} {s s' : Surroundings}

/-- A step that does not fail for what the offer means. -/
def Technical (x : Negotiating α) : Prop :=
  ∀ s f s', x.run.run s = (.error f, s') → f.isSemantic = false

theorem run_bind (x : Negotiating α) (f : α → Negotiating β) (s : Surroundings) :
    (x >>= f).run.run s = match x.run.run s with
      | (.ok a, s') => (f a).run.run s'
      | (.error fault, s') => (.error fault, s') := by
  show ExceptT.bindCont f (x.run.run s).1 (x.run.run s).2 = _
  rcases x.run.run s with ⟨fault | a, s'⟩ <;> rfl

theorem technical_pure (a : α) : Technical (pure a) := by
  rintro s f s' ⟨⟩

theorem technical_throw {f : Fault} (h : f.isSemantic = false) :
    Technical (throw f : Negotiating α) := by
  rintro s _ s' ⟨⟩
  exact h

theorem Technical.bind {x : Negotiating α} {f : α → Negotiating β} (hx : Technical x)
    (hf : ∀ a, Technical (f a)) : Technical (x >>= f) := by
  intro s fault s' h
  rw [run_bind] at h
  split at h
  · next a s'' _ => exact hf a s'' fault s' h
  · next fault' s'' hrun =>
    obtain ⟨hfault, -⟩ := Prod.mk.inj h
    obtain rfl := Except.error.inj hfault
    exact hx s fault' s'' hrun

theorem run_call (e : Engine) (call : Call) (s : Surroundings) :
    (Negotiation.call e call).run.run s
      = ((e.refusal? s.calls call).elim (.ok ()) fun reason => .error (.engine reason),
        { s with calls := s.calls ++ [call] }) := by
  show Negotiation.call e call s = _
  cases hr : e.refusal? s.calls call <;> simp only [Negotiation.call, hr] <;> rfl

theorem technical_call (e : Engine) (call : Call) : Technical (Negotiation.call e call) := by
  intro s f s' h
  rw [run_call] at h
  cases hr : e.refusal? s.calls call with
  | none =>
    rw [hr] at h
    exact nomatch (Prod.mk.inj h).1
  | some reason =>
    rw [hr] at h
    obtain rfl := Except.error.inj (Prod.mk.inj h).1
    rfl

theorem technical_publicAddress (c : Config) : Technical (publicAddress c) := by
  intro s f s' h
  replace h : publicAddress c s = (.error f, s') := h
  unfold publicAddress at h
  split at h
  · exact nomatch (Prod.mk.inj h).1
  · have hfound : (PublicAddress.get s.now (s.address, s.exchange)).1.mapError Fault.address
        = .error f := (Prod.mk.inj h).1
    cases hget : (PublicAddress.get s.now (s.address, s.exchange)).1 with
    | ok address =>
      rw [hget] at hfound
      exact nomatch hfound
    | error fault =>
      rw [hget] at hfound
      obtain rfl := Except.error.inj hfound
      rfl

theorem technical_forIn {γ : Type} {xs : List γ} {f : γ → PUnit → Negotiating (ForInStep PUnit)}
    (hf : ∀ x b, Technical (f x b)) (b : PUnit) : Technical (forIn xs b f) := by
  induction xs generalizing b with
  | nil => exact technical_pure b
  | cons x xs ih =>
    rw [List.forIn_cons]
    refine (hf x b).bind fun step => ?_
    cases step with
    | done b => exact technical_pure b
    | yield b => exact ih b

/-! ### The answer -/

/-- Only an offer to hold the connection has no answering role. -/
theorem answeringRole_roleFor (offer : Bundle) :
    offer.answeringRole (roleFor offer) = .error (.irreversible .holdconn)
        ∧ offer.role = .holdconn
      ∨ (∃ role, offer.answeringRole (roleFor offer) = .ok role) ∧ offer.role ≠ .holdconn := by
  unfold roleFor Bundle.answeringRole
  cases offer.role <;> simp [SetupRole.reverse?]

/-- Drawing an answer fails only for want of a role, and does not touch the
engine. -/
theorem run_draw_answer (offer : Bundle) (role : Option SetupRole) (s : Surroundings) :
    ∃ credentials s', s'.calls = s.calls ∧ (draw (offer.answer role)).run.run s
      = (.ok ((offer.answeringRole role).map fun r => offer.answering r credentials), s') :=
  ⟨(Bundle.drawCredentials s.entropy).1,
    { s with entropy := (Bundle.drawCredentials s.entropy).2 }, rfl, rfl⟩

/-- With an answering role, building the answer does not fail for what the
offer means. -/
theorem technical_buildAnswer (hrole : offer.role ≠ .holdconn) (port : Int) :
    Technical (buildAnswer c e offer port) := by
  obtain ⟨role, hrole⟩ : ∃ role, offer.answeringRole (roleFor offer) = .ok role :=
    (answeringRole_roleFor offer).elim (fun h => absurd h.2 hrole) And.left
  intro s f s' h
  obtain ⟨credentials, s₁, -, hdraw⟩ := run_draw_answer offer (roleFor offer) s
  rw [buildAnswer, run_bind, hdraw, hrole] at h
  refine Technical.bind (technical_publicAddress c) (fun address => ?_) s₁ f s' h
  refine (technical_call e _).bind fun _ => ?_
  split
  · exact technical_throw rfl
  · exact technical_pure _

/-- An offer to hold the connection is refused before anything else is
done. -/
theorem run_buildAnswer_of_holdconn (hrole : offer.role = .holdconn) (port : Int)
    (s : Surroundings) : ∃ s', s'.calls = s.calls ∧ (buildAnswer c e offer port).run.run s
      = (.error (.bundle (.irreversible .holdconn)), s') := by
  have hnone : offer.answeringRole (roleFor offer) = .error (.irreversible .holdconn) :=
    (answeringRole_roleFor offer).elim And.left fun h => absurd hrole h.2
  obtain ⟨credentials, s', hcalls, hdraw⟩ := run_draw_answer offer (roleFor offer) s
  refine ⟨s', hcalls, ?_⟩
  rw [buildAnswer, run_bind, hdraw, hnone]
  rfl

/-! ### Negotiations -/

/-- With a fingerprint and an answering role, nothing fails for what the offer
means. -/
theorem technical_negotiate {remote : Fingerprint}
    (hremote : offer.fingerprint? c.function = some remote) (hrole : offer.role ≠ .holdconn) :
    Technical (negotiate c e offer) := by
  rw [negotiate, hremote]
  refine (technical_call e _).bind fun _ => ?_
  refine (technical_buildAnswer hrole _).bind fun answer => ?_
  refine (technical_call e _).bind fun _ => ?_
  refine (technical_call e _).bind fun _ => ?_
  refine (technical_call e _).bind fun _ => ?_
  refine (technical_forIn (fun _ _ => ?_) _).bind fun _ => technical_pure _
  exact (technical_call e _).bind fun _ => technical_pure _

/-- An offer to hold the connection is refused with the transport created. -/
theorem run_negotiate_of_holdconn {remote : Fingerprint}
    (hremote : offer.fingerprint? c.function = some remote) (hrole : offer.role = .holdconn)
    (hrefusal : e.refusal? s.calls (.createTransport c.localPort) = none) :
    ∃ s', s'.calls = s.calls ++ [.createTransport c.localPort]
      ∧ (negotiate c e offer).run.run s = (.error (.bundle (.irreversible .holdconn)), s') := by
  obtain ⟨s', hcalls, hrun⟩ := run_buildAnswer_of_holdconn (c := c) (e := e) hrole
    (e.port c.localPort) { s with calls := s.calls ++ [.createTransport c.localPort] }
  refine ⟨s', hcalls, ?_⟩
  rw [negotiate, hremote]
  show (Negotiation.call e _ >>= _).run.run s = _
  rw [run_bind, run_call, hrefusal]
  show (buildAnswer c e offer _ >>= _).run.run _ = _
  rw [run_bind, hrun]

/-- If a negotiation fails for what the offer means, the engine has the
transports that it had before. -/
def LeavesNoTransport (c : Config) (e : Engine) (offer : Bundle) (s : Surroundings) : Prop :=
  ∀ f s', (negotiate c e offer).run.run s = (.error f, s') → f.isSemantic = true →
    e.transports s'.calls = e.transports s.calls

/-- A failed negotiation leaves no transport behind, except where an offer to
hold the connection, with a fingerprint that suits, came to a transport. -/
theorem leavesNoTransport_iff (c : Config) (e : Engine) (offer : Bundle) (s : Surroundings) :
    LeavesNoTransport c e offer s ↔
      ¬ (offer.role = .holdconn ∧ (offer.fingerprint? c.function).isSome
        ∧ e.refusal? s.calls (.createTransport c.localPort) = none) := by
  cases hremote : offer.fingerprint? c.function with
  | none =>
    -- The fingerprint is looked for before the engine is called.
    have hrun : (negotiate c e offer).run.run s = (.error (.missingCertificate c.function), s) := by
      rw [negotiate, hremote]
      rfl
    refine iff_of_true (fun f s' h _ => ?_) fun h => nomatch h.2.1
    rw [hrun] at h
    obtain rfl := (Prod.mk.inj h).2
    rfl
  | some remote =>
    cases hrefusal : e.refusal? s.calls (.createTransport c.localPort) with
    | some reason =>
      have hrun : (negotiate c e offer).run.run s = (.error (.engine reason),
          { s with calls := s.calls ++ [.createTransport c.localPort] }) := by
        rw [negotiate, hremote]
        show (Negotiation.call e _ >>= _).run.run s = _
        rw [run_bind, run_call, hrefusal]
        rfl
      refine iff_of_true (fun f s' h hf => ?_) fun h => nomatch h.2.2
      rw [hrun] at h
      obtain rfl := Except.error.inj (Prod.mk.inj h).1
      exact absurd hf Bool.false_ne_true
    | none =>
      by_cases hrole : offer.role = .holdconn
      · obtain ⟨s', hcalls, hrun⟩ := run_negotiate_of_holdconn hremote hrole hrefusal
        refine iff_of_false (fun h => ?_) fun h => h ⟨hrole, rfl, rfl⟩
        have hkept := h _ s' hrun rfl
        rw [hcalls, Engine.transports_concat, Engine.created, hrefusal] at hkept
        simp at hkept
      · refine iff_of_true (fun f s' h hf => ?_) fun h => hrole h.1
        exact absurd (technical_negotiate hremote hrole s f s' h) (by simp [hf])

/-- An offer to hold the connection. -/
def onHold : Text :=
  "v=0\r\no=- 1 1 IN IP4 127.0.0.1\r\ns=-\r\nt=0 0\r\nm=audio 9 UDP/TLS/RTP/SAVPF 0\r\n".toList
    ++ "a=ice-ufrag:u\r\na=ice-pwd:p\r\na=fingerprint:sha-256 AB\r\na=setup:holdconn\r\n".toList
    ++ "a=mid:0\r\na=rtpmap:0 PCMU/8000\r\n".toList

/-- An engine that refuses nothing. -/
def willing : Engine where
  port port := port.getD 40000
  fingerprint _ := "00:11:22:AA".toList
  refusal? _ _ := none

/-- Surroundings without a past. -/
def fresh : Surroundings := ⟨0, Draw.cycle [0], .empty, ⟨[], []⟩, []⟩

/-- The offer is refused for its role, and the engine has a transport that it
did not have. -/
theorem not_leavesNoTransport_onHold : ∃ offer, Bundle.ofText onHold = .ok offer
    ∧ (∃ s', (negotiate .standard willing offer).run.run fresh
        = (.error (.bundle (.irreversible .holdconn)), s')
      ∧ willing.transports fresh.calls = [] ∧ willing.transports s'.calls = [none])
    ∧ ¬ LeavesNoTransport .standard willing offer fresh :=
  ⟨_, rfl, ⟨_, rfl, rfl, rfl⟩, fun h => nomatch h _ _ rfl rfl⟩

end Negotiation

end OfferAnswer
