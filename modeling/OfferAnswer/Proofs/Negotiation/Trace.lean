/-
OfferAnswer/Proofs/Negotiation/Trace.lean

The calls of a negotiation, and what comes of it.

A negotiation makes its calls in an order that the offer and the answer to it
lay down in advance.  It stops at the first call that is refused, with the
reason of the engine, and it succeeds only when all calls have been made.  What
it returns is then the drawn answer, restricted to what is supported, with the
candidate and the certificate of this host (`run_negotiate`).
-/
import OfferAnswer.Negotiation.Basic
import OfferAnswer.Proofs.Negotiation.Transports

namespace OfferAnswer

open Negotiation

/-- Which role answers an offered one.  An offer to take either role leaves it
to the offering end to connect. -/
inductive SetupRole.AnsweredBy : SetupRole → SetupRole → Prop where
  | active : AnsweredBy .active .passive
  | passive : AnsweredBy .passive .active
  | actpass : AnsweredBy .actpass .passive

namespace Negotiation

variable {α β : Type} {c : Config} {e : Engine} {offer : Bundle} {s s' : Surroundings}

/-! ### Following a plan -/

/-- The surroundings after a call. -/
def Surroundings.after (s : Surroundings) (call : Call) : Surroundings :=
  { s with calls := s.calls ++ [call] }

/-- How calls to an engine went that were to be made after some others: the
calls that were planned, those that were made, and the result. -/
structure Course (e : Engine) (before plan made : List Call) (result : Except Fault α) :
    Prop where
  /-- The calls are those at the start of the plan. -/
  made_isPrefix : made <+: plan
  /-- Only the whole plan leads to success. -/
  complete : ∀ a, result = .ok a → made = plan
  /-- No call is made after one that is refused, and its reason comes out. -/
  refused : ∀ earlier call later reason, made = earlier ++ call :: later →
    e.refusal? (before ++ earlier) call = some reason →
      later = [] ∧ result = .error (.engine reason)
  /-- A reason that comes out is that of the last call. -/
  engine : ∀ reason, result = .error (.engine reason) →
    ∃ earlier call, made = earlier ++ [call] ∧ e.refusal? (before ++ earlier) call = some reason

namespace Course

variable {before plan rest made more : List Call} {fault : Fault}

/-- Calls that stop early have also stopped early in a longer plan. -/
theorem of_error (h : Course e before plan made (.error fault : Except Fault α))
    (rest : List Call) : Course e before (plan ++ rest) made (.error fault : Except Fault β) where
  made_isPrefix := h.made_isPrefix.trans (List.prefix_append ..)
  complete := nofun
  refused earlier call later reason hmade hrefusal := by
    obtain ⟨hlater, hfault⟩ := h.refused earlier call later reason hmade hrefusal
    exact ⟨hlater, congrArg _ (Except.error.inj hfault)⟩
  engine reason hreason := h.engine reason (congrArg _ (Except.error.inj hreason))

/-- After a plan that was carried out, the rest goes on as a plan of its
own. -/
theorem append {a : α} {result : Except Fault β} (h : Course e before plan made (.ok a))
    (hrest : Course e (before ++ plan) rest more result) :
    Course e before (plan ++ rest) (plan ++ more) result where
  made_isPrefix := (List.prefix_append_right_inj plan).mpr hrest.made_isPrefix
  complete b hb := congrArg (plan ++ ·) (hrest.complete b hb)
  refused earlier call later reason hmade hrefusal := by
    obtain rfl := h.complete a rfl
    obtain ⟨middle, rfl, hmore⟩ | ⟨middle, hplan, hlater⟩ :=
      List.append_eq_append_iff.mp hmade
    · exact hrest.refused middle call later reason hmore (by rwa [List.append_assoc])
    · cases middle with
      | nil =>
        obtain rfl : made = earlier := by simpa using hplan
        exact hrest.refused [] call later reason hlater.symm (by rwa [List.append_nil])
      | cons first middle =>
        -- A call that was refused would have been the last.
        obtain ⟨rfl, -⟩ := List.cons.inj hlater
        exact nomatch (h.refused earlier call middle reason hplan hrefusal).2
  engine reason hreason := by
    obtain ⟨earlier, call, rfl, hrefusal⟩ := hrest.engine reason hreason
    exact ⟨plan ++ earlier, call, (List.append_assoc ..).symm, by rwa [← List.append_assoc]⟩

end Course

/-- A step that makes the calls of a plan, as far as it comes. -/
def Follows (e : Engine) (s : Surroundings) (plan : List Call) (x : Negotiating α) : Prop :=
  ∃ made, (x.run.run s).2.calls = s.calls ++ made ∧ Course e s.calls plan made (x.run.run s).1

/-- A step that neither calls the engine nor fails as the engine does. -/
theorem follows_silent {x : Negotiating α} (hcalls : (x.run.run s).2.calls = s.calls)
    (hresult : ∀ reason, (x.run.run s).1 ≠ .error (.engine reason)) : Follows e s [] x := by
  refine ⟨[], by rw [hcalls, List.append_nil], List.nil_prefix, fun _ _ => rfl, ?_, ?_⟩
  · intro earlier call later reason hmade
    exact absurd hmade.symm (by simp)
  · intro reason hreason
    exact absurd hreason (hresult reason)

theorem follows_pure (a : α) : Follows e s [] (pure a : Negotiating α) :=
  follows_silent rfl nofun

theorem follows_call (e : Engine) (s : Surroundings) (call : Call) :
    Follows e s [call] (Negotiation.call e call) := by
  refine ⟨[call], by rw [run_call], List.prefix_refl _, fun _ _ => rfl, ?_, ?_⟩
  · intro earlier called later reason hmade hrefusal
    obtain ⟨rfl, rfl, rfl⟩ : earlier = [] ∧ called = call ∧ later = [] := by
      cases earlier <;> simp_all
    rw [List.append_nil] at hrefusal
    rw [run_call, hrefusal]
    exact ⟨rfl, rfl⟩
  · intro reason hreason
    refine ⟨[], call, rfl, ?_⟩
    rw [run_call] at hreason
    rw [List.append_nil]
    cases hr : e.refusal? s.calls call with
    | none => exact nomatch hr ▸ hreason
    | some found =>
      rw [hr] at hreason
      exact congrArg some (Fault.engine.inj (Except.error.inj hreason))

theorem Follows.bind {x : Negotiating α} {f : α → Negotiating β} {plan rest : List Call}
    (hx : Follows e s plan x)
    (hf : ∀ a s', x.run.run s = (.ok a, s') → Follows e s' rest (f a)) :
    Follows e s (plan ++ rest) (x >>= f) := by
  obtain ⟨made, hmade, hcourse⟩ := hx
  rw [Follows, run_bind]
  rcases hrun : x.run.run s with ⟨fault | a, s'⟩
  all_goals rw [hrun] at hmade hcourse
  · exact ⟨made, hmade, hcourse.of_error rest⟩
  · obtain rfl := hcourse.complete a rfl
    obtain ⟨more, hmore, hrest⟩ := hf a s' hrun
    rw [hmade] at hmore hrest
    exact ⟨made ++ more, by rw [hmore, List.append_assoc], hcourse.append hrest⟩

theorem Follows.silent_bind {x : Negotiating α} {f : α → Negotiating β} {plan : List Call}
    (hx : Follows e s [] x) (hf : ∀ a s', x.run.run s = (.ok a, s') → Follows e s' plan (f a)) :
    Follows e s plan (x >>= f) :=
  hx.bind hf

theorem Follows.call_bind {call : Call} {f : Unit → Negotiating β} {plan : List Call}
    (hf : Follows e (s.after call) plan (f ())) :
    Follows e s (call :: plan) (Negotiation.call e call >>= f) :=
  (follows_call e s call).bind fun _ s' hrun => by
    obtain rfl := (Prod.mk.inj (hrun.symm.trans (run_call e call s))).2
    exact hf

/-- One call for each member of a list. -/
theorem follows_forIn {γ : Type} (request : γ → Call) (xs : List γ) (s : Surroundings) :
    Follows e s (xs.map request) (forIn xs PUnit.unit fun x _ => do
      Negotiation.call e (request x)
      return .yield PUnit.unit) := by
  induction xs generalizing s with
  | nil => exact follows_pure _
  | cons x xs ih =>
    rw [List.forIn_cons, List.map_cons, bind_assoc]
    refine .call_bind ?_
    rw [pure_bind]
    exact ih _

/-! ### The plan -/

/-- The requests that a medium gives rise to: one for each encoding of an audio
or a video, with its stream identifier or with its sources. -/
def requestsOf (m : RtpMedia) : List Call :=
  if m.kind == .known .audio || m.kind == .known .video then
    m.encodings.map fun
      | .stream id _ => .addSource ⟨m.kind, m.mid, some id, none, none⟩
      | .source _ source retransmission =>
        .addSource ⟨m.kind, m.mid, none, some source, retransmission⟩
  else []

/-- The calls for an offer and its answer.  The credentials of the answer are
those of this end of the connection, and the role and the fingerprint are those
of the other end. -/
def plan (c : Config) (remote : Fingerprint) (offer answer : Bundle) : List Call :=
  [.createTransport c.localPort,
    .certificateFingerprint c.function,
    .addConnection (answer.iceUser ++ ':' :: offer.iceUser) (.ofList [
      ("ice.localUsername".toList, .text answer.iceUser),
      ("ice.localPassword".toList, .text answer.icePassword),
      ("ice.remoteUsername".toList, .text offer.iceUser),
      ("ice.remotePassword".toList, .text offer.icePassword),
      ("dtls.setup".toList, .text (Vocabulary.spelling offer.role)),
      ("dtls.hash".toList, .text (Text.upper c.function.text)),
      ("dtls.fingerprint".toList, .text remote.text),
      ("disableSTUNKeepAlive".toList, .flag false),
      ("srtpProtectionProfiles".toList, .text [])]),
    .setRemoteProperties offer.mediaProperties,
    .setLocalProperties answer.mediaProperties]
  ++ offer.media.flatMap requestsOf

/-- The calls for an offer: none without a certificate under the hash function
of this host, and only a transport where no role answers the offered one.  Of
several certificates it is the first. -/
def planned (c : Config) (offer : Bundle) (entropy : Entropy) : List Call :=
  match offer.certificates.find? (fun h => h.function == c.function),
    (offer.answer (roleFor offer) entropy).1 with
  | none, _ => []
  | some _, .error _ => [.createTransport c.localPort]
  | some h, .ok answer => plan c h.fingerprint offer answer.toCapability

/-- The requests for an encoding of a medium, as a call. -/
theorem requestsOf_eq (m : RtpMedia) : requestsOf m
    = if isHandled m.kind then (m.encodings.map (requestFor m)).map .addSource else [] := by
  rw [List.map_map]
  refine if_congr Iff.rfl (List.map_congr_left fun encoding _ => ?_) rfl
  cases encoding <;> rfl

theorem map_addSource_sourceRequests (offer : Bundle) :
    (sourceRequests offer).map .addSource = offer.media.flatMap requestsOf := by
  unfold sourceRequests
  induction offer.media with
  | nil => rfl
  | cons m media ih =>
    rw [List.flatMap_cons, ← ih, requestsOf_eq, List.filter_cons]
    split <;> simp

/-! ### The answer -/

/-- A sequence succeeds if each of its two parts does. -/
theorem run_bind_eq_ok {x : Negotiating α} {f : α → Negotiating β} {b : β} :
    (x >>= f).run.run s = (.ok b, s')
      ↔ ∃ a s₁, x.run.run s = (.ok a, s₁) ∧ (f a).run.run s₁ = (.ok b, s') := by
  rw [run_bind]
  rcases x.run.run s with ⟨_ | a, s₁⟩
  · exact ⟨nofun, nofun⟩
  · exact ⟨fun h => ⟨a, s₁, rfl, h⟩, fun ⟨_, _, h, hf⟩ => by cases h; exact hf⟩

/-- What a negotiation returns: the drawn answer, restricted to what is
supported, with one candidate more, which is this host on the port of the
transport, and with one certificate more, and the requests that have been
made. -/
structure IsOutcome (c : Config) (e : Engine) (offer : Bundle) (s : Surroundings) (o : Outcome) :
    Prop where
  answer : ∃ answer address own, (offer.answer (roleFor offer) s.entropy).1 = .ok answer
    ∧ (c.publicAddress.or
        (PublicAddress.get s.now (s.address, s.exchange)).1.toOption) = some address
    ∧ Fingerprint.ofText? (e.fingerprint c.function) = some own
    ∧ o.answer = { answer.toCapability with
        iceLite := c.iceLite
        candidates := answer.candidates ++ [{
          foundation := "1".toList
          component := 1
          transport := .udp
          priority := 2130706175
          address := address
          port := e.port c.localPort
          kind := .known .host
          options := ⟨none, none, none, .empty⟩ }]
        certificates := answer.certificates ++ [⟨c.function, own⟩] }
  role : offer.role.AnsweredBy o.answer.role
  sources : o.sources.map .addSource = offer.media.flatMap requestsOf

theorem run_draw (d : Draw α) (s : Surroundings) : (draw d).run.run s
    = (.ok (d s.entropy).1, { s with entropy := (d s.entropy).2 }) := rfl

/-- The address that was told beforehand, or else what the lookup says. -/
theorem run_publicAddress (c : Config) (s : Surroundings) :
    ∃ s', (publicAddress c).run.run s = (c.publicAddress.elim
          ((PublicAddress.get s.now (s.address, s.exchange)).1.mapError .address) .ok, s')
      ∧ s'.calls = s.calls := by
  show ∃ s', publicAddress c s = _ ∧ _
  unfold publicAddress
  cases c.publicAddress <;> exact ⟨_, rfl, rfl⟩

/-- An address comes of the one or the other. -/
theorem or_toOption_of_elim {told : Option Text} {found : Except PublicAddress.Fault Text}
    {address : Text} (h : told.elim (found.mapError Fault.address) .ok = .ok address) :
    told.or found.toOption = some address := by
  cases told with
  | some t => exact congrArg some (Except.ok.inj h)
  | none =>
    cases found with
    | ok t => exact congrArg some (Except.ok.inj h)
    | error fault => exact nomatch h

/-- An answer that could be drawn takes the role that answers the offered
one. -/
theorem answeredBy_of_answer {entropy : Entropy} {answer : Bundle}
    (h : (offer.answer (roleFor offer) entropy).1 = .ok answer) :
    offer.role.AnsweredBy answer.role := by
  replace h : (offer.answeringRole (roleFor offer)).map
      (fun r => offer.answering r (Bundle.drawCredentials entropy).1) = .ok answer := h
  unfold roleFor Bundle.answeringRole at h
  cases hrole : offer.role <;> simp [hrole, SetupRole.reverse?, Except.map] at h
  all_goals subst h
  · exact .active
  · exact .passive
  · exact .actpass

/-- Where no answer can be drawn, none is built. -/
theorem run_buildAnswer_of_error {fault : Bundle.Fault}
    (h : (offer.answer (roleFor offer) s.entropy).1 = .error fault) (port : Int) :
    (buildAnswer c e offer port).run.run s = (.error (.bundle fault),
      { s with entropy := (offer.answer (roleFor offer) s.entropy).2 }) := by
  rw [buildAnswer, run_bind, run_draw, h]
  rfl

/-- Building the answer, where one is drawn, calls the engine for the
fingerprint only. -/
theorem follows_buildAnswer {answer : Bundle}
    (h : (offer.answer (roleFor offer) s.entropy).1 = .ok answer) (port : Int) :
    Follows e s [.certificateFingerprint c.function] (buildAnswer c e offer port) := by
  refine .silent_bind (follows_silent rfl nofun) fun a s' hrun => ?_
  obtain ⟨ha, rfl⟩ := Prod.mk.inj (hrun.symm.trans (run_draw _ s))
  obtain rfl : a = .ok answer := (Except.ok.inj ha).trans h
  obtain ⟨s₂, haddress, hcalls⟩ := run_publicAddress c
    { s with entropy := (offer.answer (roleFor offer) s.entropy).2 }
  refine .silent_bind (follows_silent (by rw [haddress, hcalls]) fun reason => ?_)
    fun address s' _ => .call_bind ?_
  · rw [haddress]
    cases c.publicAddress with
    | some address => exact nofun
    | none =>
      rcases PublicAddress.get s.now (s.address, s.exchange) with ⟨_ | found, rest⟩ <;>
        exact nofun
  · cases Fingerprint.ofText? (e.fingerprint c.function) with
    | none => exact follows_silent rfl nofun
    | some own => exact follows_pure _

/-- What building the answer returns. -/
theorem of_run_buildAnswer {answer built : Bundle} {port : Int}
    (h : (offer.answer (roleFor offer) s.entropy).1 = .ok answer)
    (hrun : (buildAnswer c e offer port).run.run s = (.ok built, s')) :
    ∃ address own,
      (c.publicAddress.or
        (PublicAddress.get s.now (s.address, s.exchange)).1.toOption) = some address
      ∧ Fingerprint.ofText? (e.fingerprint c.function) = some own
      ∧ built = announce c answer.toCapability (hostCandidate address port) own := by
  rw [buildAnswer, run_bind, run_draw, h] at hrun
  obtain ⟨address, s₁, haddress, hrun⟩ := run_bind_eq_ok.mp hrun
  obtain ⟨-, s₂, -, hrun⟩ := run_bind_eq_ok.mp hrun
  obtain ⟨s₃, hlookup, -⟩ := run_publicAddress c
    { s with entropy := (offer.answer (roleFor offer) s.entropy).2 }
  have hfound := or_toOption_of_elim (Prod.mk.inj (hlookup.symm.trans haddress)).1
  cases hown : Fingerprint.ofText? (e.fingerprint c.function) with
  | none =>
    rw [hown] at hrun
    cases (Prod.mk.inj hrun).1
  | some own =>
    rw [hown] at hrun
    exact ⟨address, own, hfound, rfl, (Except.ok.inj (Prod.mk.inj hrun).1).symm⟩

/-! ### Negotiations -/

/-- A negotiation makes the calls that are laid down for the offer, as far as
it comes. -/
theorem follows_negotiate (c : Config) (e : Engine) (offer : Bundle) (s : Surroundings) :
    Follows e s (planned c offer s.entropy) (negotiate c e offer) := by
  unfold negotiate planned Bundle.fingerprint?
  cases offer.certificates.find? fun h => h.function == c.function with
  | none => exact follows_silent rfl nofun
  | some h =>
    cases hanswer : (offer.answer (roleFor offer) s.entropy).1 with
    | error fault =>
      have hbuild := run_buildAnswer_of_error (c := c) (e := e)
        (s := s.after (.createTransport c.localPort)) hanswer (e.port c.localPort)
      refine .call_bind <| .silent_bind (follows_silent ?_ ?_) fun _ _ h => ?_
      · rw [hbuild]
      · rw [hbuild]
        exact nofun
      · exact nomatch hbuild.symm.trans h
    | ok answer =>
      have hbuild := follows_buildAnswer (c := c) (e := e)
        (s := s.after (.createTransport c.localPort)) hanswer (e.port c.localPort)
      refine .call_bind <| hbuild.bind fun built s₂ h₂ => ?_
      obtain ⟨address, own, -, -, rfl⟩ := of_run_buildAnswer
        (s := s.after (.createTransport c.localPort)) hanswer h₂
      refine .call_bind <| .call_bind <| .call_bind ?_
      rw [← map_addSource_sourceRequests, ← List.append_nil (List.map ..)]
      exact (follows_forIn .addSource _ _).bind fun _ _ _ => follows_pure _

/-- What a negotiation returns if it succeeds. -/
theorem isOutcome_of_run {o : Outcome} (h : (negotiate c e offer).run.run s = (.ok o, s')) :
    IsOutcome c e offer s o := by
  unfold negotiate at h
  cases hremote : offer.fingerprint? c.function with
  | none =>
    rw [hremote] at h
    exact nomatch (Prod.mk.inj h).1
  | some remote =>
    rw [hremote] at h
    obtain ⟨_, s₁, h₁, h⟩ := run_bind_eq_ok.mp h
    obtain rfl := (Prod.mk.inj (h₁.symm.trans (run_call ..))).2
    obtain ⟨built, s₂, h₂, h⟩ := run_bind_eq_ok.mp h
    obtain ⟨_, s₃, -, h⟩ := run_bind_eq_ok.mp h
    obtain ⟨_, s₄, -, h⟩ := run_bind_eq_ok.mp h
    obtain ⟨_, s₅, -, h⟩ := run_bind_eq_ok.mp h
    obtain ⟨_, s₆, -, h⟩ := run_bind_eq_ok.mp h
    obtain rfl := Except.ok.inj (Prod.mk.inj h).1
    cases hanswer : (offer.answer (roleFor offer) s.entropy).1 with
    | error fault =>
      have hbuild := run_buildAnswer_of_error (c := c) (e := e)
        (s := s.after (.createTransport c.localPort)) hanswer (e.port c.localPort)
      exact nomatch hbuild.symm.trans h₂
    | ok answer =>
      obtain ⟨address, own, haddress, hown, rfl⟩ := of_run_buildAnswer
        (s := s.after (.createTransport c.localPort)) hanswer h₂
      exact {
        answer := ⟨answer, address, own, hanswer, haddress, hown, rfl⟩
        role := (answeredBy_of_answer hanswer : offer.role.AnsweredBy answer.role)
        sources := map_addSource_sourceRequests offer }

/-- The calls of a negotiation are those that are laid down for the offer, up
to the first one that is refused or the first step that fails for another
reason; and what it returns is the answer that was drawn. -/
theorem run_negotiate (c : Config) (e : Engine) (offer : Bundle) (s : Surroundings) :
    ∃ made result s', (negotiate c e offer).run.run s = (result, s')
      ∧ s'.calls = s.calls ++ made
      ∧ Course e s.calls (planned c offer s.entropy) made result
      ∧ ∀ o, result = .ok o → IsOutcome c e offer s o := by
  obtain ⟨made, hmade, hcourse⟩ := follows_negotiate c e offer s
  refine ⟨made, _, _, rfl, hmade, hcourse, fun o ho => ?_⟩
  have hrun : (negotiate c e offer).run.run s = (.ok o, ((negotiate c e offer).run.run s).2) :=
    Prod.ext ho rfl
  exact isOutcome_of_run hrun

/-- An offer of an audio from one source, of a video in two streams, and of a
channel for data. -/
def threeMedia : Text :=
  "v=0\r\no=- 1 1 IN IP4 127.0.0.1\r\ns=-\r\nt=0 0\r\na=fingerprint:sha-256 AB\r\n".toList
    ++ "m=audio 9 UDP/TLS/RTP/SAVPF 0\r\na=ice-ufrag:u\r\na=ice-pwd:p\r\n".toList
    ++ "a=setup:actpass\r\na=mid:0\r\na=rtpmap:0 PCMU/8000\r\na=ssrc:1001 cname:x\r\n".toList
    ++ "m=application 9 UDP/DTLS/SCTP webrtc-datachannel\r\na=mid:1\r\n".toList
    ++ "m=video 9 UDP/TLS/RTP/SAVPF 96\r\na=mid:2\r\na=rtpmap:96 VP8/90000\r\n".toList
    ++ "a=rid:h send\r\na=rid:l send\r\na=simulcast:send h;l\r\n".toList

/-- A host that knows its address. -/
def atHome : Config := { Config.standard with publicAddress := "198.51.100.7".toList }

/-- The offer is answered, and all calls that it asks for are made. -/
theorem run_negotiate_threeMedia : ∃ offer, Bundle.ofText threeMedia = .ok offer
    ∧ ∃ o s', (negotiate atHome willing offer).run.run fresh = (.ok o, s')
      ∧ s'.calls = planned atHome offer fresh.entropy ∧ s'.calls.length = 8
      ∧ IsOutcome atHome willing offer fresh o := by
  obtain ⟨offer, hoffer, hsuccess, hlength⟩ := Outcome.exists_ok_of_any
    (x := Bundle.ofText threeMedia) (P := fun offer =>
      ((negotiate atHome willing offer).run.run fresh).1.toOption.isSome = true
        ∧ ((negotiate atHome willing offer).run.run fresh).2.calls.length = 8) (by decide +kernel)
  obtain ⟨made, result, s', hrun, hmade, hcourse, houtcome⟩ :=
    run_negotiate atHome willing offer fresh
  rw [hrun] at hsuccess hlength
  cases result with
  | error fault => exact nomatch hsuccess
  | ok o =>
    rw [hcourse.complete o rfl] at hmade
    exact ⟨offer, hoffer, o, s', hrun, hmade, hlength, houtcome o rfl⟩

end Negotiation

end OfferAnswer
