/-
OfferAnswer/Proofs/PublicAddress.lean

When the public address is looked up, what a lookup does, and what is kept of
it, over whole runs.

A run is a list of calls.  Between two of them the clock moves by any number of
seconds, also back, and each finds its own responses on the network.  A single
call either returns what is kept, without a request, or else asks the services
(`reply_cases`).  What is kept is what the last lookup that succeeded has found,
with the time of its call (`entry_after`), so that the replies alone tell
whether a call asks the services.  A lookup ends at the first service whose
response says an address or is broken (`resolve_endsAt`).

The services behind a broken response are not asked, though one of them may
have answered.  Where this happens, and only there, a lookup does not come to
what the answers alone lay down (`reply_after`).  A call that fails in either
way leaves nothing behind but the time that has passed
(`replies_next_of_failure`).
-/
import Mathlib.Data.List.Induction
import OfferAnswer.Proofs.IpAddress
import OfferAnswer.Proofs.Utf8
import OfferAnswer.PublicAddress

namespace OfferAnswer

namespace Cache

variable {α : Type} {c : Cache α} {seconds now : Int} {v : α}

theorem fresh?_eq_some_iff :
    c.fresh? seconds now = some v ↔ ∃ time, c.entry = some (time, v) ∧ now - time ≤ seconds := by
  simp only [fresh?, Option.bind_eq_some_iff, Option.ite_none_right_eq_some, Option.some.injEq,
    Prod.exists]
  constructor
  · rintro ⟨time, _, hentry, htime, rfl⟩
    exact ⟨time, hentry, htime⟩
  · rintro ⟨time, hentry, htime⟩
    exact ⟨time, v, hentry, htime, rfl⟩

theorem fresh?_eq_none_iff :
    c.fresh? seconds now = none ↔ ∀ e, c.entry = some e → seconds < now - e.1 := by
  simp only [fresh?, Option.bind_eq_none_iff, ite_eq_right_iff, reduceCtorEq, imp_false,
    Int.not_le]

end Cache

namespace PublicAddress

variable {t line value found address : Text} {reason : String} {urls : List String}
  {responses : List Network.Response} {i : Nat} {r : Resolver} {rs : List Resolver}
  {result : Except Fault Text}

/-! ### Where a service says the address -/

/-- A line of the form `ip=value`, whose value is not empty and has no
blanks. -/
def IsValueOn (line value : Text) : Prop :=
  line = 'i' :: 'p' :: '=' :: value ∧ value ≠ [] ∧ ∀ c ∈ value, ¬ Text.isBlank c

theorem addressOnLine?_eq_some_iff :
    addressOnLine? line = some value ↔ IsValueOn line value := by
  constructor
  · intro h
    unfold addressOnLine? at h
    split at h
    · split at h
      · next rest hrest =>
        obtain rfl : rest = value := Option.some.inj h
        refine ⟨rfl, hrest.1, fun c hc hblank => ?_⟩
        have : rest.any Text.isBlank = true := List.any_eq_true.mpr ⟨c, hc, hblank⟩
        simp [this] at hrest
      · cases h
    · cases h
  · rintro ⟨rfl, hne, hblank⟩
    have : value.any Text.isBlank = false := by simpa using hblank
    simp [addressOnLine?, hne, this]

/-- The value on the first line of a text that has one. -/
def IsFirstValue (t value : Text) : Prop :=
  ∃ before line after, t.splitOn '\n' = before ++ line :: after ∧ IsValueOn line value
    ∧ ∀ l ∈ before, ∀ v, ¬ IsValueOn l v

theorem traceAddress?_eq_some_iff : traceAddress? t = some value ↔ IsFirstValue t value := by
  simp only [traceAddress?, List.findSome?_eq_some_iff, addressOnLine?_eq_some_iff,
    IsFirstValue, Option.eq_none_iff_forall_ne_some, ne_eq]

/-- Where services say the address: the first of them by a line `ip=value`,
the others with all that they say. -/
def Says : Nat → Text → Text → Prop
  | 0, t, found => IsFirstValue t found
  | _ + 1, t, found => t = found

theorem extract_eq_some_iff (h : resolvers[i]? = some r) :
    r.extract t = some found ↔ Says i t found := by
  match i with
  | 0 =>
    obtain rfl : _ = r := Option.some.inj h
    exact traceAddress?_eq_some_iff
  | i + 1 =>
    have hextract : ∀ r ∈ resolvers.tail, r.extract = some := by
      simp [resolvers]
    have hmem : r ∈ resolvers.tail := by
      apply List.mem_of_getElem? (i := i)
      rwa [List.getElem?_tail]
    rw [hextract r hmem, Option.some.injEq]
    rfl

/-- The service with this index answers with an address: it responds with an
encoded text, and what the text says, between the blanks around it, is an
internet address, which is written in this way. -/
def Answers (responses : List Network.Response) (i : Nat) (address : Text) : Prop :=
  ∃ body t found core ip, i < resolvers.length ∧ responses[i]? = some (.ok body)
    ∧ body.toByteArray = t.utf8Encode ∧ Says i t found ∧ Text.IsCore core found
    ∧ IpAddress.ofText? core = some ip ∧ address = ip.text

/-- The response to the service with this index is broken. -/
def Breaks (responses : List Network.Response) (i : Nat) (reason : String) : Prop :=
  i < resolvers.length ∧ responses[i]? = some (.error (.broken reason))

/-- What comes of a service that answers. -/
inductive Answered (responses : List Network.Response) (i : Nat) : Except Fault Text → Prop
  | address {address : Text} (h : Answers responses i address) : Answered responses i (.ok address)

/-- What comes of a service that ends the lookup, by an answer or by a broken
response. -/
inductive Ends (responses : List Network.Response) (i : Nat) : Except Fault Text → Prop
  | address {address : Text} (h : Answers responses i address) : Ends responses i (.ok address)
  | broken {reason : String} (h : Breaks responses i reason) :
    Ends responses i (.error (.broken reason))

/-! ### A lookup -/

/-- A service of a list ends the lookup by the response to it. -/
def Finds (rs : List Resolver) (responses : List Network.Response) (i : Nat)
    (result : Except Fault Text) : Prop :=
  ∃ r, rs[i]? = some r ∧ ending? r (responses[i]?.getD (.error .unavailable)) = some result

theorem inBody?_eq_some_iff {body : List UInt8} :
    inBody? r body = some address ↔ ∃ t found core ip, body.toByteArray = t.utf8Encode
      ∧ r.extract t = some found ∧ Text.IsCore core found ∧ IpAddress.ofText? core = some ip
      ∧ address = ip.text := by
  have hdecode (t : Text) :
      (Text.Utf8.decode body).toOption = some t ↔ body.toByteArray = t.utf8Encode := by
    rw [← Text.Utf8.encode_eq, List.toByteArray_inj, ← Text.Utf8.decode_eq_ok_iff]
    cases Text.Utf8.decode body <;> simp [Except.toOption]
  simp only [inBody?, Option.bind_eq_bind, Option.bind_eq_some_iff, hdecode, Option.pure_def,
    Option.some.injEq]
  constructor
  · rintro ⟨t, hbody, found, hfound, ip, hip, rfl⟩
    exact ⟨t, found, _, ip, hbody, hfound, Text.trim_eq_iff.mp rfl, hip, rfl⟩
  · rintro ⟨t, found, core, ip, hbody, hfound, hcore, hip, rfl⟩
    exact ⟨t, hbody, found, hfound, ip, Text.trim_eq_iff.mpr hcore ▸ hip, rfl⟩

theorem ending?_eq_some_iff {response : Network.Response} :
    ending? r response = some result
      ↔ (∃ body address, response = .ok body ∧ inBody? r body = some address
          ∧ result = .ok address)
        ∨ ∃ reason, response = .error (.broken reason) ∧ result = .error (.broken reason) := by
  rcases response with (- | reason) | body
  · simp [ending?]
  · simp [ending?, eq_comm]
  · simp [ending?, Option.map_eq_some_iff, @eq_comm _ result]

/-- A response that is available has been given. -/
theorem eq_some_of_getD_unavailable {o : Option Network.Response} {response : Network.Response}
    (h : o.getD (.error .unavailable) = response) (hne : response ≠ .error .unavailable) :
    o = some response := by
  cases o with
  | none => exact absurd h.symm hne
  | some given => exact congrArg some h

theorem finds_resolvers_iff : Finds resolvers responses i result ↔ Ends responses i result := by
  constructor
  · rintro ⟨r, hr, h⟩
    have hi : i < resolvers.length := (List.getElem?_eq_some_iff.mp hr).1
    obtain ⟨body, address, hresponse, haddress, rfl⟩ | ⟨reason, hresponse, rfl⟩ :=
      ending?_eq_some_iff.mp h
    · obtain ⟨t, found, core, ip, hbody, hfound, hcore, hip, rfl⟩ := inBody?_eq_some_iff.mp haddress
      exact .address ⟨body, t, found, core, ip, hi, eq_some_of_getD_unavailable hresponse nofun,
        hbody, (extract_eq_some_iff hr).mp hfound, hcore, hip, rfl⟩
    · exact .broken ⟨hi, eq_some_of_getD_unavailable hresponse nofun⟩
  · intro h
    cases h with
    | address h =>
      obtain ⟨body, t, found, core, ip, hi, hresponse, hbody, hfound, hcore, hip, rfl⟩ := h
      have hr : resolvers[i]? = some resolvers[i] := List.getElem?_eq_getElem hi
      refine ⟨resolvers[i], hr, ending?_eq_some_iff.mpr (.inl ⟨body, ip.text, ?_, ?_, rfl⟩)⟩
      · rw [hresponse, Option.getD_some]
      · exact inBody?_eq_some_iff.mpr
          ⟨t, found, core, ip, hbody, (extract_eq_some_iff hr).mpr hfound, hcore, hip, rfl⟩
    | broken h =>
      obtain ⟨hi, hresponse⟩ := h
      refine ⟨resolvers[i], List.getElem?_eq_getElem hi,
        ending?_eq_some_iff.mpr (.inr ⟨_, ?_, rfl⟩)⟩
      rw [hresponse, Option.getD_some]

/-- How a lookup among services ends, when it is known which of them end it:
with the first of these, and no service behind it is asked, or without an
address when all have been asked. -/
inductive EndsAt (rs : List Resolver) (ends : Nat → Except Fault Text → Prop) :
    List String → Except Fault Text → Prop
  | first {i : Nat} {result : Except Fault Text} (hends : ends i result)
    (hbefore : ∀ j < i, ∀ other, ¬ ends j other) :
    EndsAt rs ends ((rs.take (i + 1)).map Resolver.url) result
  | never (hnone : ∀ j other, ¬ ends j other) :
    EndsAt rs ends (rs.map Resolver.url) (.error .noAddress)

theorem finds_zero_iff : Finds (r :: rs) responses 0 result ↔
    ending? r (responses.head?.getD (.error .unavailable)) = some result := by
  simp [Finds, List.head?_eq_getElem?]

theorem finds_succ_iff :
    Finds (r :: rs) responses (i + 1) result ↔ Finds rs responses.tail i result := by
  simp [Finds]

/-- A service that ends nothing is passed over. -/
theorem EndsAt.cons (hfirst : ∀ other, ¬ Finds (r :: rs) responses 0 other)
    (h : EndsAt rs (Finds rs responses.tail) urls result) :
    EndsAt (r :: rs) (Finds (r :: rs) responses) (r.url :: urls) result := by
  cases h with
  | first hends hbefore =>
    refine .first (finds_succ_iff.mpr hends) fun j hj other => ?_
    cases j with
    | zero => exact hfirst other
    | succ j => exact finds_succ_iff.not.mpr (hbefore j (Nat.lt_of_succ_lt_succ hj) other)
  | never hnone =>
    refine .never fun j other => ?_
    cases j with
    | zero => exact hfirst other
    | succ j => exact finds_succ_iff.not.mpr (hnone j other)

theorem resolve_cons (r : Resolver) (rs : List Resolver) (x : Network.Exchange) :
    resolve (r :: rs) x =
      (ending? r (x.responses.head?.getD (.error .unavailable))).elim
        (resolve rs ⟨x.responses.tail, x.requested ++ [r.url]⟩)
        fun result => (result, ⟨x.responses.tail, x.requested ++ [r.url]⟩) := by
  have hrequest : Network.request r.url x = (x.responses.head?.getD (.error .unavailable),
      ⟨x.responses.tail, x.requested ++ [r.url]⟩) := rfl
  cases hending : ending? r (x.responses.head?.getD (.error .unavailable)) with
  | none =>
    simp only [resolve, bind, StateT.bind, hrequest, hending, Option.elim]
  | some result =>
    simp only [resolve, bind, StateT.bind, hrequest, hending, Option.elim]
    rfl

/-- A lookup ends as it should among any services. -/
theorem resolve_endsAt (rs : List Resolver) (x : Network.Exchange) :
    ∃ urls, (resolve rs x).2.requested = x.requested ++ urls
      ∧ EndsAt rs (Finds rs x.responses) urls (resolve rs x).1 := by
  induction rs generalizing x with
  | nil =>
    refine ⟨[], (List.append_nil _).symm, .never fun j other h => ?_⟩
    obtain ⟨r, hr, -⟩ := h
    cases hr
  | cons r rs ih =>
    rw [resolve_cons]
    cases hfirst : ending? r (x.responses.head?.getD (.error .unavailable)) with
    | some result =>
      exact ⟨[r.url], rfl, .first (i := 0) (finds_zero_iff.mpr hfirst) nofun⟩
    | none =>
      obtain ⟨urls, hurls, hends⟩ := ih ⟨x.responses.tail, x.requested ++ [r.url]⟩
      refine ⟨r.url :: urls, ?_, hends.cons fun other h => ?_⟩
      · show (resolve rs _).2.requested = _
        rw [hurls, List.append_assoc]
        rfl
      · rw [finds_zero_iff, hfirst] at h
        cases h

/-- Something is asked in every lookup. -/
theorem EndsAt.urls_ne_nil {ends : Nat → Except Fault Text → Prop}
    (h : EndsAt resolvers ends urls result) : urls ≠ [] := by
  cases h <;> exact List.cons_ne_nil _ _

theorem resolve_resolvers (responses : List Network.Response) :
    EndsAt resolvers (Ends responses) (resolve resolvers ⟨responses, []⟩).2.requested
      (resolve resolvers ⟨responses, []⟩).1 := by
  have hends : Finds resolvers responses = Ends responses := by
    funext i result
    exact propext finds_resolvers_iff
  obtain ⟨urls, hurls, h⟩ := resolve_endsAt resolvers ⟨responses, []⟩
  rw [hurls, List.nil_append, ← hends]
  exact h

/-! ### Broken responses -/

/-- A broken response comes before any answer. -/
def BreaksOff (responses : List Network.Response) : Prop :=
  ∃ i reason, Breaks responses i reason ∧ ∀ j < i, ∀ address, ¬ Answers responses j address

/-- A response is of one kind only. -/
theorem Breaks.not_answers (h : Breaks responses i reason) : ¬ Answers responses i address := by
  rintro ⟨body, t, found, core, ip, -, hresponse, -⟩
  cases h.2.symm.trans hresponse

/-- A lookup comes to what the answers lay down, the first of them or none,
just where no broken response comes before. -/
theorem EndsAt.answered_iff (h : EndsAt resolvers (Ends responses) urls result) :
    EndsAt resolvers (Answered responses) urls result ↔ ¬ BreaksOff responses := by
  have hanswered : ∀ {j other}, Answered responses j other → Ends responses j other := by
    rintro j _ ⟨h⟩
    exact .address h
  cases h with
  | never hnone =>
    refine iff_of_true (.never fun j other h => hnone j other (hanswered h)) ?_
    rintro ⟨i, reason, hbreaks, -⟩
    exact hnone i _ (.broken hbreaks)
  | @first i result hends hbefore =>
    cases hends with
    | address haddress =>
      refine iff_of_true (.first (.address haddress) fun j hj other h =>
        hbefore j hj other (hanswered h)) ?_
      rintro ⟨k, reason, hbreaks, hnone⟩
      obtain hk | rfl | hk := Nat.lt_trichotomy k i
      · exact hbefore k hk _ (.broken hbreaks)
      · exact hbreaks.not_answers haddress
      · exact hnone i hk _ haddress
    | broken hbreaks =>
      refine iff_of_false (fun h => ?_) (not_not_intro ⟨i, _, hbreaks, fun j hj address h =>
        hbefore j hj _ (.address h)⟩)
      generalize hurls : (resolvers.take (i + 1)).map Resolver.url = urls at h
      cases h with
      | first h => cases h

/-! ### Addresses in their own text -/

/-- An address in the one way in which it is written. -/
def IsWritten (address : Text) : Prop :=
  ∃ ip, IpAddress.ofText? address = some ip ∧ address = ip.text

theorem Ends.isWritten (h : Ends responses i (.ok address)) : IsWritten address := by
  obtain ⟨body, t, found, core, ip, -, -, -, -, -, hip, rfl⟩ := h
  exact ⟨ip, IpAddress.ofText?_text hip, rfl⟩

theorem EndsAt.isWritten (h : EndsAt resolvers (Ends responses) urls (.ok address)) :
    IsWritten address := by
  cases h with
  | first hends => exact hends.isWritten

/-! ### Runs -/

/-- A call: by how many seconds the clock has moved since the call before, and
what the network responds to the requests of this one.  Requests for which
there is no response fail. -/
structure Call where
  elapsed : Int
  responses : List Network.Response

/-- The time to which calls bring the clock. -/
def timeAfter (clock : Int) (calls : List Call) : Int :=
  calls.foldl (fun time c => time + c.elapsed) clock

/-- What comes of a call: its time, the addresses that it has requested, and
the public address or the fault. -/
structure Reply where
  time : Int
  requested : List String
  outcome : Except Fault Text

/-- What lies between two calls: the time and what is kept. -/
structure State where
  clock : Int
  kept : Cache Text

namespace State

/-- The start of a run, with nothing kept. -/
def start (clock : Int) : State := ⟨clock, .empty⟩

def reply (s : State) (c : Call) : Reply :=
  let r := get (s.clock + c.elapsed) (s.kept, ⟨c.responses, []⟩)
  ⟨s.clock + c.elapsed, r.2.2.requested, r.1⟩

def next (s : State) (c : Call) : State :=
  ⟨s.clock + c.elapsed, (get (s.clock + c.elapsed) (s.kept, ⟨c.responses, []⟩)).2.1⟩

/-- The replies to the calls of a run. -/
def replies (s : State) : List Call → List Reply
  | [] => []
  | c :: calls => s.reply c :: (s.next c).replies calls

/-- The state after the calls of a run. -/
def after (s : State) (calls : List Call) : State := calls.foldl next s

/-- What one call can do: return what is kept, if that is young enough, or ask
the services and keep what they say. -/
theorem reply_cases (s : State) (c : Call) :
    (∃ time kept, s.kept.entry = some (time, kept) ∧ s.clock + c.elapsed - time ≤ lifetime
      ∧ s.reply c = ⟨s.clock + c.elapsed, [], .ok kept⟩
      ∧ s.next c = ⟨s.clock + c.elapsed, s.kept⟩)
    ∨ (∀ e, s.kept.entry = some e → lifetime < s.clock + c.elapsed - e.1)
      ∧ ∃ urls result, EndsAt resolvers (Ends c.responses) urls result
        ∧ s.reply c = ⟨s.clock + c.elapsed, urls, result⟩
        ∧ s.next c = ⟨s.clock + c.elapsed, result.toOption.elim s.kept fun found =>
            ⟨some (s.clock + c.elapsed, found)⟩⟩ := by
  cases hfresh : s.kept.fresh? lifetime (s.clock + c.elapsed) with
  | some kept =>
    have hget := Cache.get_of_fresh hfresh (resolve resolvers) ⟨c.responses, []⟩
    obtain ⟨time, hentry, htime⟩ := Cache.fresh?_eq_some_iff.mp hfresh
    refine .inl ⟨time, kept, hentry, htime, ?_, ?_⟩
    · rw [reply, PublicAddress.get, hget]
    · rw [next, PublicAddress.get, hget]
  | none =>
    have hget := Cache.get_of_stale hfresh (resolve resolvers) ⟨c.responses, []⟩
    refine .inr ⟨Cache.fresh?_eq_none_iff.mp hfresh, _, _, resolve_resolvers c.responses, ?_, ?_⟩
    · rw [reply, PublicAddress.get, hget]
    · rw [next, PublicAddress.get, hget]

end State

/-- What a lookup has found, with its time; nothing, if there was no lookup or
it failed. -/
def Reply.found? (r : Reply) : Option (Int × Text) :=
  if r.requested = [] then none else r.outcome.toOption.map (r.time, ·)

/-- What the last lookup that succeeded has found, with its time. -/
def lastFound? (rs : List Reply) : Option (Int × Text) := rs.reverse.findSome? Reply.found?

theorem lastFound?_concat (rs : List Reply) (r : Reply) :
    lastFound? (rs ++ [r]) = r.found?.or (lastFound? rs) := by
  rw [lastFound?, List.reverse_append, List.reverse_singleton, List.singleton_append,
    List.findSome?_cons]
  cases r.found? <;> rfl

namespace State

variable {s : State} {c : Call}

/-- A call keeps what it finds, and else what was kept before. -/
theorem entry_next (s : State) (c : Call) :
    (s.next c).kept.entry = (s.reply c).found?.or s.kept.entry := by
  obtain ⟨time, kept, -, -, hreply, hnext⟩ | ⟨-, urls, result, hends, hreply, hnext⟩ :=
    reply_cases s c
  · rw [hreply, hnext]
    rfl
  · rw [hreply, hnext, Reply.found?, if_neg hends.urls_ne_nil]
    cases result <;> rfl

theorem after_concat (s : State) (calls : List Call) (c : Call) :
    s.after (calls ++ [c]) = (s.after calls).next c := List.foldl_concat ..

theorem replies_concat (s : State) (calls : List Call) (c : Call) :
    s.replies (calls ++ [c]) = s.replies calls ++ [(s.after calls).reply c] := by
  induction calls generalizing s with
  | nil => rfl
  | cons d calls ih =>
    show s.reply d :: (s.next d).replies (calls ++ [c]) = _
    rw [ih]
    rfl

/-- Through a whole run, what is kept is what the last lookup that succeeded
has found. -/
theorem entry_after (clock : Int) (calls : List Call) :
    ((start clock).after calls).kept.entry = lastFound? ((start clock).replies calls) := by
  induction calls using List.reverseRecOn with
  | nil => rfl
  | append_singleton calls c ih =>
    rw [after_concat, replies_concat, entry_next, lastFound?_concat, ih]

theorem clock_after (s : State) (calls : List Call) :
    (s.after calls).clock = timeAfter s.clock calls := by
  induction calls generalizing s with
  | nil => rfl
  | cons c calls ih => exact ih (s.next c)

/-! ### What is kept and returned -/

/-- An address that is kept is kept in its own text. -/
def KeepsWritten (s : State) : Prop := ∀ time address, s.kept.entry = some (time, address) →
  IsWritten address

theorem KeepsWritten.isWritten (h : s.KeepsWritten) {address : Text}
    (houtcome : (s.reply c).outcome = .ok address) : IsWritten address := by
  obtain ⟨time, kept, hentry, -, hreply, -⟩ | ⟨-, urls, result, hends, hreply, -⟩ :=
    reply_cases s c
  · rw [hreply] at houtcome
    exact Except.ok.inj houtcome ▸ h time kept hentry
  · rw [hreply] at houtcome
    obtain rfl : result = .ok address := houtcome
    exact hends.isWritten

theorem KeepsWritten.next (h : s.KeepsWritten) (c : Call) : (s.next c).KeepsWritten := by
  obtain ⟨_, _, -, -, -, hnext⟩ | ⟨-, urls, result, hends, -, hnext⟩ := reply_cases s c
  · rw [hnext]
    exact h
  · cases result with
    | error fault =>
      rw [hnext]
      exact h
    | ok found =>
      intro time address hentry
      rw [hnext] at hentry
      obtain ⟨-, rfl⟩ := Prod.mk.inj (Option.some.inj hentry)
      exact hends.isWritten

theorem keepsWritten_after (clock : Int) (calls : List Call) :
    ((start clock).after calls).KeepsWritten := by
  induction calls using List.reverseRecOn with
  | nil => exact nofun
  | append_singleton calls c ih =>
    rw [after_concat]
    exact ih.next c

/-! ### Calls that fail -/

/-- A call that fails leaves nothing behind but the time that has passed. -/
theorem next_of_failure {fault : Fault} (h : (s.reply c).outcome = .error fault) :
    s.next c = ⟨s.clock + c.elapsed, s.kept⟩ := by
  obtain ⟨_, kept, -, -, hreply, -⟩ | ⟨-, urls, result, -, hreply, hnext⟩ := reply_cases s c
  · rw [hreply] at h
    cases h
  · rw [hreply] at h
    obtain rfl : result = .error fault := h
    exact hnext

/-- Calls of which the first comes later by some seconds. -/
def delayed (seconds : Int) : List Call → List Call
  | [] => []
  | c :: calls => ⟨seconds + c.elapsed, c.responses⟩ :: calls

/-- All calls after one that fails get the replies that they would get without
it. -/
theorem replies_next_of_failure {fault : Fault} (h : (s.reply c).outcome = .error fault)
    (calls : List Call) : (s.next c).replies calls = s.replies (delayed c.elapsed calls) := by
  rw [next_of_failure h]
  cases calls with
  | nil => rfl
  | cons d calls =>
    show reply _ d :: replies (next _ d) calls = s.reply _ :: (s.next _).replies calls
    simp only [reply, next, Int.add_assoc]

end State

/-! ### The law of a run -/

/-- How a call is answered, with all replies before it known. -/
structure Reply.ComesAfter (earlier : List Reply) (c : Call) (r : Reply) : Prop where
  /-- The services are asked if no lookup has succeeded, or the last that has
  lies more than a minute back, and only then. -/
  asks_iff : r.requested ≠ [] ↔
    ∀ time found, lastFound? earlier = some (time, found) → 60 < r.time - time
  /-- Without a request, the address is what that lookup has found. -/
  kept : r.requested = [] →
    ∃ time found, lastFound? earlier = some (time, found) ∧ r.outcome = .ok found
  /-- Requests go to the services in turn, up to the first whose response says
  an address or is broken. -/
  asked : r.requested ≠ [] →
    EndsAt resolvers (Ends c.responses) r.requested r.outcome

/-- A lookup that comes to what the answers of the services lay down: the first
of them, or that there is none, and no other fault. -/
def Reply.GoesByAnswers (c : Call) (r : Reply) : Prop :=
  r.requested ≠ [] → EndsAt resolvers (Answered c.responses) r.requested r.outcome

namespace State

variable {s : State} {earlier : List Reply}

theorem reply_comesAfter (h : s.kept.entry = lastFound? earlier) (c : Call) :
    (s.reply c).ComesAfter earlier c := by
  obtain ⟨time, kept, hentry, htime, hreply, -⟩ | ⟨hold, urls, result, hends, hreply, -⟩ :=
    reply_cases s c
  all_goals
    rw [hreply]
  · rw [h] at hentry
    refine ⟨⟨fun hne => absurd rfl hne, fun hold => ?_⟩, ?_, fun hne => absurd rfl hne⟩
    · exact absurd (hold time kept hentry) (Int.not_lt.mpr htime)
    · exact fun _ => ⟨time, kept, hentry, rfl⟩
  · rw [h] at hold
    refine ⟨⟨fun _ time found hlast => hold _ hlast, fun _ => hends.urls_ne_nil⟩, ?_, ?_⟩
    · exact fun hnil => absurd hnil hends.urls_ne_nil
    · exact fun _ => hends

theorem goesByAnswers_iff {c : Call} {r : Reply} (h : r.ComesAfter earlier c) :
    r.GoesByAnswers c ↔ ¬ (r.requested ≠ [] ∧ BreaksOff c.responses) := by
  rw [not_and]
  exact forall_congr' fun hasked => (h.asked hasked).answered_iff

/-- Every call of a run is answered by what the replies before it and its own
responses say, at the time to which the clock has come, and an address comes out
in its own text.  If the call fails, what is kept stays as it was, and the calls
behind it get the replies that they would get without it.  It comes to what the
answers of the services lay down, except where a broken response comes before
any answer. -/
theorem reply_after (clock : Int) (before : List Call) (c : Call) :
    let s := (start clock).after before
    (s.reply c).time = timeAfter clock (before ++ [c])
      ∧ (s.reply c).ComesAfter ((start clock).replies before) c
      ∧ (∀ address, (s.reply c).outcome = .ok address → IsWritten address)
      ∧ (∀ fault, (s.reply c).outcome = .error fault → (s.next c).kept = s.kept
        ∧ ∀ calls, (s.next c).replies calls = s.replies (delayed c.elapsed calls))
      ∧ ((s.reply c).GoesByAnswers c
        ↔ ¬ ((s.reply c).requested ≠ [] ∧ BreaksOff c.responses)) := by
  intro s
  have hlaw : (s.reply c).ComesAfter ((start clock).replies before) c :=
    reply_comesAfter (entry_after clock before) c
  refine ⟨?_, hlaw, fun address h => (keepsWritten_after clock before).isWritten h,
    fun fault h => ⟨?_, ?_⟩, goesByAnswers_iff hlaw⟩
  · rw [timeAfter, List.foldl_concat]
    show s.clock + c.elapsed = timeAfter clock before + c.elapsed
    rw [clock_after]
    rfl
  · rw [next_of_failure h]
  · exact replies_next_of_failure h

/-- Calls without a network, at home, where the first service is not reached,
and away. -/
def travels : List Call :=
  let home := .ok "203.0.113.5\n".toUTF8.toList
  let away := .ok "h=x\nip=2001:DB8::1\n".toUTF8.toList
  [⟨0, []⟩, ⟨10, [.error .unavailable, home]⟩, ⟨60, [away]⟩, ⟨1, []⟩, ⟨0, [away]⟩]

/-- A call with a first response that is cut short and a second that says an
address. -/
def cutShort : Call :=
  ⟨61, [.error (.broken "cut short"), .ok (Text.Utf8.encode "203.0.113.5".toList)]⟩

/-- The last call asks the services, for what is kept is too old, and fails, so
that the address found before stays. -/
theorem reply_after_travels :
    ((start 0).replies (travels ++ [cutShort])).map
        (fun r => (r.time, r.requested.length, r.outcome))
      = [(0, 4, .error .noAddress), (10, 2, .ok "203.0.113.5".toList),
        (70, 0, .ok "203.0.113.5".toList), (71, 4, .error .noAddress),
        (71, 1, .ok "2001:db8::1".toList), (132, 1, .error (.broken "cut short"))]
      ∧ ∃ s, (start 0).after travels = s
        ∧ (s.reply cutShort).ComesAfter ((start 0).replies travels) cutShort
        ∧ (s.next cutShort).kept = s.kept
        ∧ ∀ calls, (s.next cutShort).replies calls = s.replies (delayed 61 calls) := by
  obtain ⟨-, hlaw, -, hfailure, -⟩ := reply_after 0 travels cutShort
  obtain ⟨hkept, hlater⟩ := hfailure (.broken "cut short") (by decide +kernel)
  exact ⟨by decide +kernel, _, rfl, hlaw, hkept, hlater⟩

/-- The second service would answer, and is not asked. -/
theorem not_goesByAnswers_cutShort :
    Answers cutShort.responses 1 "203.0.113.5".toList
      ∧ (∀ address, ¬ Answers cutShort.responses 0 address)
      ∧ (start 0).reply cutShort
        = ⟨61, ["https://cloudflare.com/cdn-cgi/trace"], .error (.broken "cut short")⟩
      ∧ ¬ ((start 0).reply cutShort).GoesByAnswers cutShort := by
  have hreply : (start 0).reply cutShort
      = ⟨61, ["https://cloudflare.com/cdn-cgi/trace"], .error (.broken "cut short")⟩ := rfl
  have hbreaks : Breaks cutShort.responses 0 "cut short" := ⟨by decide, rfl⟩
  refine ⟨?_, fun address => hbreaks.not_answers, hreply, fun h => ?_⟩
  · exact ⟨_, "203.0.113.5".toList, _, "203.0.113.5".toList, .v4 [203, 0, 113, 5], by decide, rfl,
      Text.Utf8.encode_eq _, rfl, Text.trim_eq_iff.mp (by decide), by decide +kernel,
      by decide +kernel⟩
  · rw [hreply] at h
    generalize hurls : ["https://cloudflare.com/cdn-cgi/trace"] = urls at h
    cases h (hurls ▸ List.cons_ne_nil _ _) with
    | first h => cases h

end State

end PublicAddress

end OfferAnswer
