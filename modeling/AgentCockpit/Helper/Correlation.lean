import AgentCockpit.Core.Arena
import AgentCockpit.Helper.CallbackService

/-!
# The callback replies

A reply of the app is delivered to a request through a channel that nobody else reads: when the
request stops waiting for another reason while the channel holds a reply, or before one is put
there, the app is told that its reply was delivered and the client receives another one. Runs in
which a wait ends only without a reply in the channel, and in which a reply is put only into the
channel of a request that still waits, correlate every reply.
-/

namespace AgentCockpit.Helper

open AgentCockpit.Core

variable {κ : Type}

/-- The reply a request has been decided to receive. -/
def RequestPhase.reply? : RequestPhase κ → Option (CallbackReply κ)
  | .leaving reply | .answering reply | .replied reply => some reply
  | .decoded | .forwarding | .registered | .waiting => none

/-- The request may still take a reply out of its channel. -/
def RequestPhase.listens : RequestPhase κ → Bool
  | .registered | .waiting => true
  | _ => false

namespace CallbackServer

/-- A step of the goroutine of a request. -/
def owns (id : ℕ) : CallbackStep κ → Bool
  | .screen request _ _ | .register request | .enqueue request | .written request
  | .receive request | .timeout request | .shutdown request | .unregister request
  | .answer request => request = id
  | _ => false

/-- Every request is answered once under its own id, and the app's replies reach the requests
they name. -/
structure Correlated (encodes : CallbackReply κ → Bool) (server : CallbackServer κ) : Prop where
  /-- A request has at most one reply, and the reply carries its id. -/
  answered : ∀ (id : ℕ) (request : CallbackRequest κ), server.requests[id]? = some request →
    request.frames.length ≤ 1 ∧ ∀ frame ∈ request.frames, frame.id = request.envelope.id
  /-- The goroutine of a request without a reply can go on. -/
  progress : ∀ (id : ℕ) (request : CallbackRequest κ), server.requests[id]? = some request →
    request.frames = [] → ∃ label, owns id label ∧ (server.step encodes label).isSome
  /-- A reply of the app goes to the request it names. -/
  relayed : ∀ (id n : ℕ) (request : CallbackRequest κ), server.requests[id]? = some request →
    request.relayed = some n → ∃ call, server.calls[n]? = some call ∧
      request.connID = some call.connID
  /-- A reply of the app goes to one request. -/
  once : ∀ (i j n : ℕ) (request other : CallbackRequest κ), server.requests[i]? = some request →
    server.requests[j]? = some other → request.relayed = some n → other.relayed = some n → i = j
  /-- A reply reported as delivered is the one the client receives. -/
  delivered : ∀ (n : ℕ) (call : ReplyCall κ), server.calls[n]? = some call →
    call.phase = .answered true → ∃ (id : ℕ) (request : CallbackRequest κ),
      server.requests[id]? = some request ∧ request.connID = some call.connID ∧
        ∀ frame ∈ request.frames, frame = normalizeMainReply request.envelope.id call.reply

/-- A wait ends without a reply in the channel, a reply is put into the channel of a request that
waits, and replies fit into frames. -/
def Prompt (encodes : CallbackReply κ → Bool) (server : CallbackServer κ) :
    CallbackStep κ → Prop
  | .timeout id | .shutdown id =>
    (server.requests[id]?).all (·.channel.isNone)
  | .written id =>
    (server.requests[id]?).all fun request => request.done = some true ∨ request.channel.isNone
  | .enqueue id =>
    (server.requests[id]?).all fun request =>
      (server.services[request.service]?).any (·.events.length < callbackEventBacklog) ∨
        request.channel.isNone
  | .deliver id =>
    (server.calls[id]?).all fun call =>
      match call.phase with
      | .found target =>
        (server.requests[target]?).all fun request =>
          request.channel.isSome ∨ request.phase.listens
      | _ => true
  | .answer id =>
    (server.requests[id]?).all fun request => request.phase.reply?.all encodes
  | _ => True

instance (encodes : CallbackReply κ → Bool) (server : CallbackServer κ) :
    DecidablePred (Prompt encodes server) := fun label => by
  cases label <;> unfold Prompt <;> infer_instance

/-! ### Invariant -/

/-- What a request knows of its reply. -/
structure RequestSound (calls : List (ReplyCall κ)) (request : CallbackRequest κ) : Prop where
  /-- A correlation id comes with the registration. -/
  early : (request.phase = .decoded ∨ request.phase = .forwarding) → request.connID = none
  channel : ∀ (n : ℕ) (reply : MainReply κ), request.channel = some (n, reply) →
    request.phase.reply? = none ∧ ∃ call, calls[n]? = some call ∧ call.reply = reply ∧
      request.connID = some call.connID
  relayed : ∀ n, request.relayed = some n → ∃ call, calls[n]? = some call ∧
    request.connID = some call.connID ∧
      request.phase.reply? = some (normalizeMainReply request.envelope.id call.reply)
  own : ∀ reply, request.phase.reply? = some reply → reply.id = request.envelope.id
  frames : request.frames = [] ∧ (∀ reply, request.phase ≠ .replied reply) ∨
    ∃ reply, request.phase = .replied reply ∧ request.frames = [reply]

/-- Correlation ids are never given twice, and lead to the requests they were given to. -/
structure Sound (server : CallbackServer κ) : Prop where
  request : ∀ (id : ℕ) (request : CallbackRequest κ), server.requests[id]? = some request →
    RequestSound server.calls request
  fresh : ∀ (id connID : ℕ) (request : CallbackRequest κ), server.requests[id]? = some request →
    request.connID = some connID → connID ≤ server.connSeq
  unique : ∀ (i j connID : ℕ) (request other : CallbackRequest κ),
    server.requests[i]? = some request → server.requests[j]? = some other →
      request.connID = some connID → other.connID = some connID → i = j
  pending : ∀ (s : ℕ) (service : CallbackService), server.services[s]? = some service →
    ∀ entry ∈ service.pending, ∃ request, server.requests[entry.2]? = some request ∧
      request.connID = some entry.1
  found : ∀ (n target : ℕ) (call : ReplyCall κ), server.calls[n]? = some call →
    call.phase = .found target → ∃ request, server.requests[target]? = some request ∧
      request.connID = some call.connID
  delivered : ∀ (n : ℕ) (call : ReplyCall κ), server.calls[n]? = some call →
    call.phase = .answered true → ∃ (id : ℕ) (request : CallbackRequest κ),
      server.requests[id]? = some request ∧ request.connID = some call.connID ∧
        (request.channel = some (n, call.reply) ∨ request.relayed = some n)

variable {server next : CallbackServer κ} {request request' : CallbackRequest κ}
  {call call' : ReplyCall κ} {calls calls' : List (ReplyCall κ)} {id n : ℕ}
  {reply : CallbackReply κ} {label : CallbackStep κ} {encodes : CallbackReply κ → Bool}

theorem sound_initial : Sound ({} : CallbackServer κ) where
  request _ _ h := nomatch h
  fresh _ _ _ h := nomatch h
  unique _ _ _ _ _ h := nomatch h
  pending _ _ h := nomatch h
  found _ _ _ h := nomatch h
  delivered _ _ h := nomatch h

/-! ### Replies -/

@[simp] theorem normalizeMainReply_id (id : ℤ) (raw : MainReply κ) :
    (normalizeMainReply id raw).id = id := by
  unfold normalizeMainReply
  grind [errorReply, okReply]

theorem screen_id {envelope : Envelope} {allowed marshals : Bool}
    (h : screen envelope allowed marshals = some reply) : reply.id = envelope.id := by
  unfold screen at h
  grind [errorReply]

/-! ### Changes of one party -/

/-- What a request knows survives a change of a call that keeps what the call says. -/
theorem RequestSound.mono (h : RequestSound calls request)
    (hcalls : ∀ (n : ℕ) (call : ReplyCall κ), calls[n]? = some call →
      ∃ call', calls'[n]? = some call' ∧ call'.connID = call.connID ∧ call'.reply = call.reply) :
    RequestSound calls' request := by
  refine { h with channel := fun n reply hchannel => ?_, relayed := fun n hrelayed => ?_ }
  · obtain ⟨hopen, call, hcall, hreply, hconn⟩ := h.channel n reply hchannel
    obtain ⟨call', hcall', hconn', hreply'⟩ := hcalls n call hcall
    exact ⟨hopen, call', hcall', hreply'.trans hreply, hconn'.symm ▸ hconn⟩
  · obtain ⟨call, hcall, hconn, hreply⟩ := h.relayed n hrelayed
    obtain ⟨call', hcall', hconn', hreply'⟩ := hcalls n call hcall
    exact ⟨call', hcall', hconn'.symm ▸ hconn, hreply'.symm ▸ hreply⟩

/-- A service forgets correlation ids, or changes otherwise. -/
theorem Sound.updateService (h : Sound server) {s : ℕ} {f : CallbackService → CallbackService}
    (hpending : ∀ service, (f service).pending ⊆ service.pending) :
    Sound (server.updateService s f) where
  __ := h
  pending t service hservice entry hentry := by
    obtain ⟨old, hold, rfl⟩ := of_getElem?_modify hservice
    refine h.pending t old hold entry ?_
    split at hentry
    · exact hpending old hentry
    · exact hentry

/-- A request goes on under its correlation id, and keeps the reply it was sent. -/
theorem Sound.setRequest (h : Sound server) (hrequest : server.requests[id]? = some request)
    (hsound : RequestSound server.calls request') (hconn : request'.connID = request.connID)
    (hchannel : ∀ n reply, request.channel = some (n, reply) →
      request'.channel = some (n, reply) ∨ request'.relayed = some n)
    (hrelayed : ∀ n, request.relayed = some n → request'.relayed = some n) :
    Sound (server.setRequest id request') := by
  have hback : ∀ (i : ℕ) (other : CallbackRequest κ),
      (server.requests.set id request')[i]? = some other →
        ∃ old, server.requests[i]? = some old ∧ other.connID = old.connID := by
    intro i other hother
    rcases of_getElem?_set hother with ⟨rfl, rfl⟩ | ⟨_, hold⟩
    · exact ⟨request, hrequest, hconn⟩
    · exact ⟨other, hold, rfl⟩
  have hforth : ∀ (i : ℕ) (old : CallbackRequest κ), server.requests[i]? = some old →
      ∃ other, (server.requests.set id request')[i]? = some other ∧ other.connID = old.connID ∧
        ∀ n reply, old.channel = some (n, reply) ∨ old.relayed = some n →
          other.channel = some (n, reply) ∨ other.relayed = some n := by
    intro i old hold
    rcases eq_or_ne i id with rfl | hne
    · obtain rfl := Option.some.inj (hrequest.symm.trans hold)
      refine ⟨request', getElem?_set_of_some hrequest, hconn, fun n reply hor => ?_⟩
      exact hor.elim (hchannel n reply) fun hr => .inr (hrelayed n hr)
    · exact ⟨old, (getElem?_set_of_ne hne).trans hold, rfl, fun _ _ hor => hor⟩
  refine ⟨fun i other hother => ?_, fun i connID other hother hc => ?_,
    fun i j connID other other' hother hother' hc hc' => ?_,
    fun s service hservice entry hentry => ?_, fun n target call hcall hphase => ?_,
    fun n call hcall hphase => ?_⟩
  · rcases of_getElem?_set hother with ⟨rfl, rfl⟩ | ⟨_, hold⟩
    · exact hsound
    · exact h.request i other hold
  · obtain ⟨old, hold, heq⟩ := hback i other hother
    exact h.fresh i connID old hold (heq ▸ hc)
  · obtain ⟨old, hold, heq⟩ := hback i other hother
    obtain ⟨old', hold', heq'⟩ := hback j other' hother'
    exact h.unique i j connID old old' hold hold' (heq ▸ hc) (heq' ▸ hc')
  · obtain ⟨old, hold, hc⟩ := h.pending s service hservice entry hentry
    obtain ⟨other, hother, heq, _⟩ := hforth entry.2 old hold
    exact ⟨other, hother, heq.trans hc⟩
  · obtain ⟨old, hold, hc⟩ := h.found n target call hcall hphase
    obtain ⟨other, hother, heq, _⟩ := hforth target old hold
    exact ⟨other, hother, heq.trans hc⟩
  · obtain ⟨i, old, hold, hc, hor⟩ := h.delivered n call hcall hphase
    obtain ⟨other, hother, heq, hkeep⟩ := hforth i old hold
    exact ⟨i, other, hother, heq.trans hc, hkeep n call.reply hor⟩

/-- A call goes on without an answer, or with the answer that nobody waits. -/
theorem Sound.setCall (h : Sound server) (hcall : server.calls[n]? = some call)
    (hconn : call'.connID = call.connID) (hreply : call'.reply = call.reply)
    (hfound : ∀ target, call'.phase = .found target → ∃ request,
      server.requests[target]? = some request ∧ request.connID = some call.connID)
    (hdelivered : call'.phase = .answered true → ∃ (id : ℕ) (request : CallbackRequest κ),
      server.requests[id]? = some request ∧ request.connID = some call.connID ∧
        (request.channel = some (n, call.reply) ∨ request.relayed = some n)) :
    Sound (server.setCall n call') where
  request i other hother := (h.request i other hother).mono fun m old hold => by
    rcases eq_or_ne m n with rfl | hne
    · obtain rfl := Option.some.inj (hcall.symm.trans hold)
      exact ⟨call', getElem?_set_of_some hcall, hconn, hreply⟩
    · exact ⟨old, (getElem?_set_of_ne hne).trans hold, rfl, rfl⟩
  fresh := h.fresh
  unique := h.unique
  pending := h.pending
  found m target other hother hphase := by
    rcases of_getElem?_set hother with ⟨rfl, rfl⟩ | ⟨_, hold⟩
    · exact hconn ▸ hfound target hphase
    · exact h.found m target other hold hphase
  delivered m other hother hphase := by
    rcases of_getElem?_set hother with ⟨rfl, rfl⟩ | ⟨_, hold⟩
    · exact hconn ▸ hreply ▸ hdelivered hphase
    · exact h.delivered m other hold hphase

/-! ### Steps of a request -/

/-- Before it has a correlation id no reply reaches a request. -/
theorem RequestSound.channel_eq_none (h : RequestSound calls request)
    (hconn : request.connID = none) : request.channel = none := by
  cases hchannel : request.channel with
  | none => rfl
  | some entry =>
    obtain ⟨_, _, _, _, hsome⟩ := h.channel entry.1 entry.2 hchannel
    exact nomatch hconn.symm.trans hsome

theorem RequestSound.relayed_eq_none (h : RequestSound calls request)
    (hopen : request.phase.reply? = none) : request.relayed = none := by
  cases hrelayed : request.relayed with
  | none => rfl
  | some n =>
    obtain ⟨_, _, _, hreply⟩ := h.relayed n hrelayed
    exact nomatch hopen.symm.trans hreply

theorem RequestSound.frames_eq_nil (h : RequestSound calls request)
    (hphase : ∀ reply, request.phase ≠ .replied reply) : request.frames = [] := by
  rcases h.frames with ⟨hnil, _⟩ | ⟨reply, hreplied, _⟩
  · exact hnil
  · exact absurd hreplied (hphase reply)

/-- A request that is not decided yet goes on undecided. -/
theorem RequestSound.proceed (h : RequestSound calls request) {phase : RequestPhase κ}
    (hopen : request.phase.reply? = none) (hphase : phase.reply? = none)
    (hearly : phase = .decoded ∨ phase = .forwarding → request.connID = none)
    (done : Option Bool) : RequestSound calls { request with phase, done } where
  early := hearly
  channel n reply hchannel := ⟨hphase, (h.channel n reply hchannel).2⟩
  relayed n hrelayed := (nomatch (h.relayed_eq_none hopen).symm.trans hrelayed)
  own reply hreply := nomatch hphase.symm.trans hreply
  frames := by
    refine .inl ⟨h.frames_eq_nil fun reply heq => ?_, fun reply heq => ?_⟩
    · rw [heq] at hopen
      exact nomatch hopen
    · obtain rfl : phase = .replied reply := heq
      exact nomatch hphase

/-- The helper decides the reply of a request whose channel is empty. -/
theorem RequestSound.decide (h : RequestSound calls request) {phase : RequestPhase κ}
    (hopen : request.phase.reply? = none) (hchannel : request.channel = none)
    (hphase : phase = .leaving reply ∨ phase = .answering reply)
    (hid : reply.id = request.envelope.id) : RequestSound calls { request with phase } where
  early hearly := by rcases hphase with rfl | rfl <;> simp at hearly
  channel n reply hsome := nomatch hchannel.symm.trans hsome
  relayed n hrelayed := nomatch (h.relayed_eq_none hopen).symm.trans hrelayed
  own other hother := by
    have heq : phase.reply? = some reply := by rcases hphase with rfl | rfl <;> rfl
    exact Option.some.inj (heq.symm.trans hother) ▸ hid
  frames := by
    refine .inl ⟨h.frames_eq_nil fun reply heq => ?_, fun reply heq => ?_⟩
    · rw [heq] at hopen
      exact nomatch hopen
    · rcases hphase with rfl | rfl <;> exact nomatch heq

/-- The request takes the app's reply out of its channel. -/
theorem RequestSound.receive (h : RequestSound calls request) {raw : MainReply κ}
    (hchannel : request.channel = some (n, raw)) :
    RequestSound calls { request with
      channel := none
      relayed := some n
      phase := .leaving (normalizeMainReply request.envelope.id raw) } := by
  obtain ⟨hopen, call, hcall, hreply, hconn⟩ := h.channel n raw hchannel
  refine ⟨fun hearly => ?_, nofun, fun m hm => ?_, fun reply heq => ?_, .inl ⟨?_, nofun⟩⟩
  · simp at hearly
  · obtain rfl := Option.some.inj hm
    exact ⟨call, hcall, hconn, hreply ▸ rfl⟩
  · obtain rfl := Option.some.inj heq
    exact normalizeMainReply_id _ _
  · refine h.frames_eq_nil fun reply heq => ?_
    rw [heq] at hopen
    exact nomatch hopen

/-- The deferred end of a wait. -/
theorem RequestSound.unregister (h : RequestSound calls request)
    (hphase : request.phase = .leaving reply) :
    RequestSound calls { request with phase := .answering reply } where
  early hearly := by simp at hearly
  channel n raw hchannel := by
    have hopen := (h.channel n raw hchannel).1
    rw [hphase] at hopen
    exact nomatch hopen
  relayed n hrelayed := by
    have hcall := h.relayed n hrelayed
    rwa [hphase] at hcall
  own other hother := by
    refine h.own other ?_
    rwa [hphase]
  frames := by
    refine .inl ⟨h.frames_eq_nil fun other heq => ?_, nofun⟩
    exact nomatch hphase.symm.trans heq

/-- The decided reply is written. -/
theorem RequestSound.answer (h : RequestSound calls request)
    (hphase : request.phase = .answering reply) :
    RequestSound calls { request with
      phase := .replied reply, frames := request.frames ++ [reply] } where
  early hearly := by simp at hearly
  channel n raw hchannel := by
    have hopen := (h.channel n raw hchannel).1
    rw [hphase] at hopen
    exact nomatch hopen
  relayed n hrelayed := by
    have hcall := h.relayed n hrelayed
    rwa [hphase] at hcall
  own other hother := by
    refine h.own other ?_
    rwa [hphase]
  frames := by
    have hnil := h.frames_eq_nil fun other heq => nomatch hphase.symm.trans heq
    exact .inr ⟨reply, rfl, by rw [hnil, List.nil_append]⟩

/-- A request changes its phase, or forgets the outcome of its event. -/
theorem Sound.setPhase (h : Sound server) (hrequest : server.requests[id]? = some request)
    {phase : RequestPhase κ} {done : Option Bool}
    (hsound : RequestSound server.calls { request with phase, done }) :
    Sound (server.setRequest id { request with phase, done }) :=
  h.setRequest hrequest hsound rfl (fun _ _ => .inl) fun _ hr => hr

/-- The request is decided by the helper while nobody has answered it. -/
theorem Sound.leave (h : Sound server) (hrequest : server.requests[id]? = some request)
    (hopen : request.phase.reply? = none) (hchannel : request.channel = none)
    (hid : reply.id = request.envelope.id) : Sound (server.leave id request reply) :=
  h.setPhase hrequest ((h.request id request hrequest).decide hopen hchannel (.inl rfl) hid)

theorem Sound.refuse (h : Sound server) (hrequest : server.requests[id]? = some request)
    (hearly : request.phase = .decoded ∨ request.phase = .forwarding)
    (hid : reply.id = request.envelope.id) : Sound (server.refuse id request reply) := by
  have hsound := h.request id request hrequest
  have hopen : request.phase.reply? = none := by rcases hearly with heq | heq <;> rw [heq] <;> rfl
  exact h.setPhase hrequest
    (hsound.decide hopen (hsound.channel_eq_none (hsound.early hearly)) (.inr rfl) hid)

/-- A correlation id is given to a request that has none. -/
theorem Sound.registerRequest (h : Sound server) (hrequest : server.requests[id]? = some request)
    (hphase : request.phase = .forwarding) : Sound (server.registerRequest id request) := by
  have hsound := h.request id request hrequest
  have hnone := hsound.early (.inr hphase)
  have hopen : request.phase.reply? = none := by rw [hphase]; rfl
  unfold CallbackServer.registerRequest
  split
  · exact h.refuse hrequest (.inr hphase) rfl
  -- the new number is larger than all given before, so it leads to this request only
  have hback : ∀ (i connID : ℕ) (other : CallbackRequest κ),
      (server.requests.set id { request with
        phase := .registered, connID := some (server.connSeq + 1) })[i]? = some other →
      other.connID = some connID → i = id ∧ connID = server.connSeq + 1 ∨
        server.requests[i]? = some other := by
    intro i connID other hother hconn
    rcases of_getElem?_set hother with ⟨rfl, rfl⟩ | ⟨_, hold⟩
    · exact .inl ⟨rfl, (Option.some.inj hconn).symm⟩
    · exact .inr hold
  have hforth : ∀ (i connID : ℕ) (old : CallbackRequest κ), server.requests[i]? = some old →
      old.connID = some connID → (server.requests.set id { request with
        phase := .registered, connID := some (server.connSeq + 1) })[i]? = some old := by
    intro i connID old hold hconn
    refine (getElem?_set_of_ne ?_).trans hold
    rintro rfl
    obtain rfl := Option.some.inj (hrequest.symm.trans hold)
    exact nomatch hnone.symm.trans hconn
  refine ⟨fun i other hother => ?_, fun i connID other hother hc => ?_,
    fun i j connID other other' hother hother' hc hc' => ?_,
    fun s service hservice entry hentry => ?_, fun m target call hcall hphase => ?_,
    fun m call hcall hphase => ?_⟩
  · rcases of_getElem?_set hother with ⟨rfl, rfl⟩ | ⟨_, hold⟩
    · have hchannel := hsound.channel_eq_none hnone
      refine ⟨fun hearly => ?_, fun n raw hsome => (nomatch hchannel.symm.trans hsome),
        fun n hrelayed => (nomatch (hsound.relayed_eq_none hopen).symm.trans hrelayed), nofun,
        .inl ⟨hsound.frames_eq_nil fun other heq => (nomatch hphase.symm.trans heq), nofun⟩⟩
      simp at hearly
    · exact h.request i other hold
  · rcases hback i connID other hother hc with ⟨_, rfl⟩ | hold
    · exact le_rfl
    · exact Nat.le_succ_of_le (h.fresh i _ other hold hc)
  · rcases hback i connID other hother hc with ⟨rfl, rfl⟩ | hold <;>
      rcases hback j _ other' hother' hc' with ⟨rfl, heq⟩ | hold'
    · rfl
    · exact absurd (h.fresh j _ other' hold' hc') (Nat.not_succ_le_self _)
    · exact absurd (heq ▸ h.fresh i _ other hold hc) (Nat.not_succ_le_self _)
    · exact h.unique i j _ other other' hold hold' hc hc'
  · obtain ⟨old, hold, rfl⟩ := of_getElem?_modify hservice
    have hentry' : entry = (server.connSeq + 1, id) ∨ entry ∈ old.pending := by
      split at hentry
      · exact List.mem_cons.mp hentry
      · exact .inr hentry
    rcases hentry' with rfl | hpending
    · exact ⟨_, getElem?_set_of_some hrequest, rfl⟩
    · obtain ⟨other, hother, hc⟩ := h.pending s old hold entry hpending
      exact ⟨other, hforth entry.2 entry.1 other hother hc, hc⟩
  · obtain ⟨other, hother, hc⟩ := h.found m target call hcall hphase
    exact ⟨other, hforth target call.connID other hother hc, hc⟩
  · obtain ⟨i, other, hother, hc, hor⟩ := h.delivered m call hcall hphase
    exact ⟨i, other, hforth i call.connID other hother hc, hc, hor⟩

theorem Sound.unregisterRequest (h : Sound server) (hrequest : server.requests[id]? = some request)
    (hphase : request.phase = .leaving reply) :
    Sound (server.unregisterRequest id request reply) := by
  have hforget : Sound (server.updateService request.service fun service =>
      { service with pending := service.pending.filter fun entry =>
          request.connID ≠ some entry.1 }) :=
    h.updateService fun service => (List.filter_sublist (l := service.pending)).subset
  exact hforget.setPhase hrequest ((h.request id request hrequest).unregister hphase)

/-- The event of a request is queued, or its wait ends before it began. -/
theorem Sound.enqueueRequest (h : Sound server) (hrequest : server.requests[id]? = some request)
    (hphase : request.phase = .registered)
    (hadmits : (server.services[request.service]?).any
      (·.events.length < callbackEventBacklog) = true ∨ request.channel = none) :
    Sound (server.enqueueRequest id request) := by
  have hopen : request.phase.reply? = none := by rw [hphase]; rfl
  unfold CallbackServer.enqueueRequest
  split
  · have hqueued : Sound (server.updateService request.service fun service =>
        { service with events := service.events ++ [id] }) :=
      h.updateService fun service => List.Subset.refl service.pending
    refine hqueued.setPhase hrequest
      ((h.request id request hrequest).proceed hopen rfl (fun hearly => ?_) request.done)
    simp at hearly
  · next hfull => exact h.leave hrequest hopen (hadmits.resolve_left hfull) rfl

/-- A reply is put into the channel of a request that listens, or finds a reply there. -/
theorem Sound.deliverReply (h : Sound server) (hcall : server.calls[n]? = some call)
    (hphase : call.phase = .found id) (hrequest : server.requests[id]? = some request)
    (hadmits : request.channel.isSome = true ∨ request.phase.listens = true) :
    Sound (server.deliverReply n call id request) := by
  obtain ⟨_, hfound, hconn⟩ := h.found n id call hcall hphase
  obtain rfl := Option.some.inj (hrequest.symm.trans hfound)
  unfold CallbackServer.deliverReply
  split
  · next hchannel =>
    have hlistens := hadmits.resolve_left (by rw [hchannel]; exact Bool.false_ne_true)
    have hopen : request.phase.reply? = none ∧
        ¬ (request.phase = .decoded ∨ request.phase = .forwarding) := by
      revert hlistens
      cases request.phase <;> simp [RequestPhase.listens, RequestPhase.reply?]
    have hsound := h.request id request hrequest
    have hnew : RequestSound server.calls { request with channel := some (n, call.reply) } := by
      refine { hsound with
        channel := fun m raw hsome => ?_
        relayed := fun m hrelayed =>
          (nomatch (hsound.relayed_eq_none hopen.1).symm.trans hrelayed) }
      obtain ⟨rfl, rfl⟩ := Prod.mk.inj (Option.some.inj hsome)
      exact ⟨hopen.1, call, hcall, rfl, hconn⟩
    have hput := h.setRequest hrequest hnew rfl
      (fun m raw hsome => (nomatch hchannel.symm.trans hsome)) fun _ hr => hr
    exact hput.setCall hcall rfl rfl nofun fun _ =>
      ⟨id, _, getElem?_set_of_some hrequest, hconn, .inl rfl⟩
  · exact h.setCall hcall rfl rfl nofun nofun

/-! ### Steps -/

theorem Sound.handshake (h : Sound server) : Sound { server with
    services := server.services ++ [{}], current := some server.services.length } where
  __ := h
  pending s service hservice entry hentry := by
    rcases of_getElem?_concat hservice with hold | ⟨_, rfl⟩
    · exact h.pending s service hold entry hentry
    · exact absurd hentry List.not_mem_nil

theorem Sound.decode (h : Sound server) (service : ℕ) (envelope : Envelope) :
    Sound { server with requests := server.requests ++ [{ service, envelope }] } := by
  have hback : ∀ (i connID : ℕ) (other : CallbackRequest κ),
      (server.requests ++ [({ service, envelope } : CallbackRequest κ)])[i]? = some other →
        other.connID = some connID → server.requests[i]? = some other := by
    intro i connID other hother hconn
    rcases of_getElem?_concat hother with hold | ⟨_, rfl⟩
    · exact hold
    · exact nomatch hconn
  refine ⟨fun i other hother => ?_, fun i c other hother hc => ?_,
    fun i j c other other' hother hother' hc hc' => ?_,
    fun s old hold entry hentry => ?_, fun m target call hcall hphase => ?_,
    fun m call hcall hphase => ?_⟩
  · rcases of_getElem?_concat hother with hold | ⟨_, rfl⟩
    · exact h.request i other hold
    · exact ⟨fun _ => rfl, nofun, nofun, nofun, .inl ⟨rfl, nofun⟩⟩
  · exact h.fresh i c other (hback i c other hother hc) hc
  · exact h.unique i j c other other' (hback i c other hother hc) (hback j c other' hother' hc')
      hc hc'
  · obtain ⟨other, hother, hc⟩ := h.pending s old hold entry hentry
    exact ⟨other, getElem?_concat_of_some hother, hc⟩
  · obtain ⟨other, hother, hc⟩ := h.found m target call hcall hphase
    exact ⟨other, getElem?_concat_of_some hother, hc⟩
  · obtain ⟨i, other, hother, hc, hor⟩ := h.delivered m call hcall hphase
    exact ⟨i, other, getElem?_concat_of_some hother, hc, hor⟩

theorem Sound.startCall (h : Sound server) (connID : ℕ) (reply : MainReply κ) :
    Sound { server with calls := server.calls ++ [{ connID, reply }] } where
  request i other hother := (h.request i other hother).mono fun m old hold =>
    ⟨old, getElem?_concat_of_some hold, rfl, rfl⟩
  fresh := h.fresh
  unique := h.unique
  pending := h.pending
  found m target other hother hphase := by
    rcases of_getElem?_concat hother with hold | ⟨_, rfl⟩
    · exact h.found m target other hold hphase
    · exact nomatch hphase
  delivered m other hother hphase := by
    rcases of_getElem?_concat hother with hold | ⟨_, rfl⟩
    · exact h.delivered m other hold hphase
    · exact nomatch hphase

/-- The call looks the correlation id up in the service it has read. -/
theorem Sound.lookup (h : Sound server) (hcall : server.calls[n]? = some call)
    (service : Option ℕ) : Sound (server.setCall n { call with
      phase := match (service.bind (server.services[·]?)).bind (·.pending.lookup call.connID) with
        | some request => .found request
        | none => .answered false }) := by
  refine h.setCall hcall rfl rfl (fun target htarget => ?_) fun hanswered => ?_
  · split at htarget
    · next other hlookup =>
      obtain rfl := ReplyPhase.found.inj htarget
      obtain ⟨found, hfound, hlookup⟩ := Option.bind_eq_some_iff.mp hlookup
      obtain ⟨s, _, hservice⟩ := Option.bind_eq_some_iff.mp hfound
      obtain ⟨front, back, hpending, _⟩ := List.lookup_eq_some_iff.mp hlookup
      exact h.pending s found hservice (call.connID, _) (by rw [hpending]; simp)
    · exact nomatch htarget
  · split at hanswered <;> exact nomatch hanswered

/-- Every prompt step keeps the correlation. -/
theorem Sound.step (h : Sound server) (hadmits : Prompt encodes server label)
    (hstep : server.step encodes label = some next) : Sound next := by
  cases label with
  | handshake =>
    obtain rfl := Option.some.inj hstep
    exact h.handshake
  | closeCallback =>
    obtain rfl := Option.some.inj hstep
    exact ⟨h.request, h.fresh, h.unique, h.pending, h.found, h.delivered⟩
  | shut s =>
    obtain ⟨_, rfl⟩ := of_ite_some hstep
    exact h.updateService fun service => List.Subset.refl service.pending
  | decode service envelope =>
    obtain ⟨_, rfl⟩ := of_ite_some hstep
    exact h.decode service envelope
  | screen id allowed marshals =>
    simp only [CallbackServer.step] at hstep
    split at hstep
    · next request hrequest =>
      split at hstep
      · next hphase =>
        have hopen : request.phase.reply? = none := by rw [hphase]; rfl
        split at hstep
        · next reply hscreen =>
          obtain rfl := Option.some.inj hstep
          exact h.refuse hrequest (.inl hphase) (screen_id hscreen)
        · obtain rfl := Option.some.inj hstep
          have hsound := h.request id request hrequest
          exact h.setPhase hrequest
            (hsound.proceed hopen rfl (fun _ => hsound.early (.inl hphase)) request.done)
      · exact nomatch hstep
    · exact nomatch hstep
  | register id =>
    simp only [CallbackServer.step] at hstep
    split at hstep
    · next request hrequest =>
      split at hstep
      · next hphase =>
        obtain rfl := Option.some.inj hstep
        exact h.registerRequest hrequest hphase
      · exact nomatch hstep
    · exact nomatch hstep
  | enqueue id =>
    simp only [CallbackServer.step] at hstep
    split at hstep
    · next request hrequest =>
      split at hstep
      · next hphase =>
        obtain rfl := Option.some.inj hstep
        -- a full backlog refuses the request, which loses nothing while its channel is empty
        refine h.enqueueRequest hrequest hphase ?_
        simpa [Prompt, hrequest] using hadmits
      · exact nomatch hstep
    · exact nomatch hstep
  | takeEvent s =>
    simp only [CallbackServer.step] at hstep
    split at hstep
    · split at hstep
      · obtain ⟨_, rfl⟩ := of_ite_some hstep
        exact h.updateService fun service => List.Subset.refl service.pending
      · exact nomatch hstep
    · exact nomatch hstep
  | emitted s ok =>
    simp only [CallbackServer.step] at hstep
    split at hstep
    · next target _ =>
      split at hstep
      · next request hrequest =>
        obtain rfl := Option.some.inj hstep
        have hidle : Sound (server.updateService s ({ · with writing := none })) :=
          h.updateService fun service => List.Subset.refl service.pending
        have hsound := h.request target request hrequest
        exact hidle.setPhase hrequest
          ⟨hsound.early, hsound.channel, hsound.relayed, hsound.own, hsound.frames⟩
      · exact nomatch hstep
    · exact nomatch hstep
  | stopWriter s =>
    simp only [CallbackServer.step] at hstep
    split at hstep
    · obtain ⟨_, rfl⟩ := of_ite_some hstep
      exact h.updateService fun service => List.Subset.refl service.pending
    · exact nomatch hstep
  | written id =>
    simp only [CallbackServer.step] at hstep
    split at hstep
    · next request hrequest =>
      have hsound := h.request id request hrequest
      split at hstep
      · obtain rfl := Option.some.inj hstep
        exact h.setPhase hrequest
          ⟨hsound.early, hsound.channel, hsound.relayed, hsound.own, hsound.frames⟩
      · next hphase hdone =>
        obtain rfl := Option.some.inj hstep
        -- a failed write ends the wait; a reply in the channel would be lost with it
        refine h.leave hrequest (by rw [hphase]; rfl) ?_ rfl
        simpa [Prompt, hrequest, hdone] using hadmits
      · exact nomatch hstep
    · exact nomatch hstep
  | receive id =>
    simp only [CallbackServer.step] at hstep
    split at hstep
    · next request hrequest =>
      split at hstep
      · next n raw _ hchannel =>
        obtain rfl := Option.some.inj hstep
        have hsound := h.request id request hrequest
        have hopen := (hsound.channel n raw hchannel).1
        refine h.setRequest hrequest (hsound.receive hchannel) rfl (fun m other hm => ?_)
          fun m hm =>
          (nomatch (hsound.relayed_eq_none hopen).symm.trans hm)
        -- the call of the reply in the channel is from here on the one relayed
        obtain ⟨rfl, _⟩ := Prod.mk.inj (Option.some.inj (hchannel.symm.trans hm))
        exact .inr rfl
      · exact nomatch hstep
    · exact nomatch hstep
  | timeout id =>
    simp only [CallbackServer.step] at hstep
    split at hstep
    · next request hrequest =>
      split at hstep
      · next hphase =>
        obtain rfl := Option.some.inj hstep
        refine h.leave hrequest (by rw [hphase]; rfl) ?_ rfl
        simpa [Prompt, hrequest] using hadmits
      · exact nomatch hstep
    · exact nomatch hstep
  | shutdown id =>
    simp only [CallbackServer.step] at hstep
    split at hstep
    · next request hrequest =>
      split at hstep
      · next hphase =>
        obtain ⟨_, rfl⟩ := of_ite_some hstep
        refine h.leave hrequest (by rw [hphase]; rfl) ?_ rfl
        simpa [Prompt, hrequest] using hadmits
      · exact nomatch hstep
    · exact nomatch hstep
  | unregister id =>
    simp only [CallbackServer.step] at hstep
    split at hstep
    · next request hrequest =>
      split at hstep
      · next reply hphase =>
        obtain rfl := Option.some.inj hstep
        exact h.unregisterRequest hrequest hphase
      · exact nomatch hstep
    · exact nomatch hstep
  | answer id =>
    simp only [CallbackServer.step] at hstep
    split at hstep
    · next request hrequest =>
      split at hstep
      · next reply hphase =>
        obtain rfl := Option.some.inj hstep
        have hencodes : encodes reply = true := by
          simpa [Prompt, hrequest, hphase, RequestPhase.reply?] using hadmits
        -- a reply that does not fit would be answered with another frame
        rw [encodeReply, if_pos hencodes]
        exact h.setRequest hrequest ((h.request id request hrequest).answer hphase) rfl
          (fun _ _ => .inl) fun _ hr => hr
      · exact nomatch hstep
    · exact nomatch hstep
  | call connID reply =>
    obtain rfl := Option.some.inj hstep
    exact h.startCall connID reply
  | reach n =>
    simp only [CallbackServer.step] at hstep
    split at hstep
    · next call hcall =>
      obtain ⟨_, rfl⟩ := of_ite_some hstep
      exact h.setCall hcall rfl rfl nofun nofun
    · exact nomatch hstep
  | lookup n =>
    simp only [CallbackServer.step] at hstep
    split at hstep
    · next call hcall =>
      split at hstep
      · next service _ =>
        obtain rfl := Option.some.inj hstep
        exact h.lookup hcall service
      · exact nomatch hstep
    · exact nomatch hstep
  | deliver n =>
    simp only [CallbackServer.step] at hstep
    split at hstep
    · next call hcall =>
      split at hstep
      · next target hphase =>
        split at hstep
        · next request hrequest =>
          obtain rfl := Option.some.inj hstep
          refine h.deliverReply hcall hphase hrequest ?_
          simpa [Prompt, hcall, hphase, hrequest] using hadmits
        · exact nomatch hstep
      · exact nomatch hstep
    · exact nomatch hstep

/-! ### What runs keep -/

/-- The goroutine of a request goes on until the reply is written. -/
theorem progress (hrequest : server.requests[id]? = some request)
    (hphase : ∀ reply, request.phase ≠ .replied reply) :
    ∃ label, owns id label ∧ (server.step encodes label).isSome := by
  cases heq : request.phase with
  | decoded =>
    refine ⟨.screen id true true, by simp [owns], ?_⟩
    simp only [CallbackServer.step, hrequest, heq]
    split <;> rfl
  | forwarding =>
    exact ⟨.register id, by simp [owns], by simp [CallbackServer.step, hrequest, heq]⟩
  | registered =>
    exact ⟨.enqueue id, by simp [owns], by simp [CallbackServer.step, hrequest, heq]⟩
  | waiting => exact ⟨.timeout id, by simp [owns], by simp [CallbackServer.step, hrequest, heq]⟩
  | leaving reply =>
    exact ⟨.unregister id, by simp [owns], by simp [CallbackServer.step, hrequest, heq]⟩
  | answering reply =>
    exact ⟨.answer id, by simp [owns], by simp [CallbackServer.step, hrequest, heq]⟩
  | replied reply => exact absurd heq (hphase reply)

theorem Sound.correlated (h : Sound server) : Correlated encodes server where
  answered id request hrequest := by
    have hsound := h.request id request hrequest
    rcases hsound.frames with ⟨hnil, _⟩ | ⟨reply, hphase, hframes⟩
    · rw [hnil]
      exact ⟨Nat.zero_le 1, nofun⟩
    · rw [hframes]
      refine ⟨le_rfl, fun frame hframe => ?_⟩
      obtain rfl := List.mem_singleton.mp hframe
      exact hsound.own frame (by rw [hphase]; rfl)
  progress id request hrequest hnil := by
    refine CallbackServer.progress hrequest fun reply hphase => ?_
    rcases (h.request id request hrequest).frames with ⟨_, hne⟩ | ⟨other, _, hframes⟩
    · exact hne reply hphase
    · exact List.cons_ne_nil _ _ (hframes.symm.trans hnil)
  relayed id n request hrequest hrelayed := by
    obtain ⟨call, hcall, hconn, _⟩ := (h.request id request hrequest).relayed n hrelayed
    exact ⟨call, hcall, hconn⟩
  once i j n request other hrequest hother hrelayed hrelayed' := by
    obtain ⟨call, hcall, hconn, _⟩ := (h.request i request hrequest).relayed n hrelayed
    obtain ⟨call', hcall', hconn', _⟩ := (h.request j other hother).relayed n hrelayed'
    obtain rfl := Option.some.inj (hcall.symm.trans hcall')
    exact h.unique i j call.connID request other hrequest hother hconn hconn'
  delivered n call hcall hphase := by
    obtain ⟨id, request, hrequest, hconn, hor⟩ := h.delivered n call hcall hphase
    refine ⟨id, request, hrequest, hconn, fun frame hframe => ?_⟩
    have hsound := h.request id request hrequest
    rcases hsound.frames with ⟨hnil, _⟩ | ⟨reply, hreplied, hframes⟩
    · exact absurd (hnil ▸ hframe) List.not_mem_nil
    obtain rfl := List.mem_singleton.mp (hframes ▸ hframe)
    rcases hor with hchannel | hrelayed
    · have hopen := (hsound.channel n call.reply hchannel).1
      rw [hreplied] at hopen
      exact nomatch hopen
    · obtain ⟨call', hcall', _, hreply⟩ := hsound.relayed n hrelayed
      obtain rfl := Option.some.inj (hcall.symm.trans hcall')
      rw [hreplied] at hreply
      exact Option.some.inj hreply

end CallbackServer

open CallbackServer

/-- In every prompt run each decoded request gets one reply under its own id, a reply of the app
reaches only the request it names, and one reported as delivered is the one the client receives. -/
theorem replies_correlated (encodes : CallbackReply κ → Bool) {labels : List (CallbackStep κ)}
    {server : CallbackServer κ}
    (hrun : Run (CallbackServer.step encodes) (Prompt encodes) {} labels server) :
    server.Correlated encodes :=
  (hrun.invariant (fun _ _ _ hinv hadmits hstep => Sound.step hinv hadmits hstep)
    sound_initial).correlated

/-- An `open` of the client, and the app's answer to it. -/
def openRequest : Envelope := { ok := true, id := 7, op := "open" }

def opened : MainReply ℕ := { decodes := true, ok := some true, result := some 0 }

/-- A reply to the older service's request comes after a second handshake, and the newer one's
request gets the reply under its own correlation id. -/
theorem replies_correlated_rehandshake :
    ∃ server : CallbackServer ℕ, Run (CallbackServer.step fun _ => true) (Prompt fun _ => true) {}
        [.handshake, .decode 0 openRequest, .screen 0 true true, .register 0, .enqueue 0,
          .handshake, .decode 1 { openRequest with id := 8 }, .screen 1 true true, .register 1,
          .shut 0, .enqueue 1, .shutdown 0, .call 1 opened, .reach 0, .lookup 0, .unregister 0,
          .answer 0, .call 2 opened, .reach 1, .lookup 1, .deliver 1, .receive 1, .unregister 1,
          .answer 1] server ∧
      server.requests.map (·.frames) =
        [[errorReply 7 "not-connected" "the helper is shutting down"], [okReply 8 0]] ∧
      server.calls.map (·.phase) = [.answered false, .answered true] ∧
      server.Correlated fun _ => true := by
  have hreplay : (replay (CallbackServer.step fun _ => true) (Prompt fun _ => true)
      ({} : CallbackServer ℕ)
      [.handshake, .decode 0 openRequest, .screen 0 true true, .register 0, .enqueue 0,
        .handshake, .decode 1 { openRequest with id := 8 }, .screen 1 true true, .register 1,
        .shut 0, .enqueue 1, .shutdown 0, .call 1 opened, .reach 0, .lookup 0, .unregister 0,
        .answer 0, .call 2 opened, .reach 1, .lookup 1, .deliver 1, .receive 1, .unregister 1,
        .answer 1]).any (fun server => server.requests.map (·.frames) =
        [[errorReply 7 "not-connected" "the helper is shutting down"], [okReply 8 0]] ∧
      server.calls.map (·.phase) = [.answered false, .answered true]) = true := by
    decide +kernel
  obtain ⟨server, hrun, hframes, hphases⟩ := exists_run_of_replay hreplay
  exact ⟨server, hrun, hframes, hphases, replies_correlated (fun _ => true) hrun⟩

/-- The app's reply is put into the channel after the timer has fired: it is reported as delivered,
and the client is told that there was no confirmation. -/
theorem not_replies_correlated :
    ¬ ∀ (encodes : CallbackReply ℕ → Bool) (labels : List (CallbackStep ℕ))
      (server : CallbackServer ℕ), Run (CallbackServer.step encodes) Always {} labels server →
        server.Correlated encodes := by
  intro hall
  have hreplay : (replay (CallbackServer.step fun _ => true) Always ({} : CallbackServer ℕ)
      [.handshake, .decode 0 openRequest, .screen 0 true true, .register 0, .enqueue 0,
        .call 1 opened, .reach 0, .lookup 0, .timeout 0, .deliver 0, .unregister 0,
        .answer 0]).any (fun server => server.requests.map (·.frames) =
        [[errorReply 7 "timeout" "no confirmation within the deadline"]] ∧
      server.calls = [⟨1, opened, .answered true⟩]) = true := by
    decide +kernel
  obtain ⟨server, hrun, hframes, hcalls⟩ := exists_run_of_replay hreplay
  have hdelivered := (hall _ _ server hrun).delivered 0 ⟨1, opened,
    .answered true⟩
    (by rw [hcalls]; rfl) rfl
  obtain ⟨id, request, hrequest, _, hframe⟩ := hdelivered
  have hget : (server.requests.map (·.frames))[id]? = some request.frames := by
    rw [List.getElem?_map, hrequest]
    rfl
  rw [hframes, List.getElem?_singleton] at hget
  split at hget
  · have hwrong := hframe (errorReply 7 "timeout" "no confirmation within the deadline")
      (by rw [← Option.some.inj hget]; exact List.mem_singleton.mpr rfl)
    simp [normalizeMainReply, errorReply, okReply, opened] at hwrong
  · exact nomatch hget

end AgentCockpit.Helper
