import AgentCockpit.Core.Framing
import AgentCockpit.Core.Run
import Mathlib.Data.List.Induction
import Mathlib.Data.List.Nodup

/-!
# Requests and responses of a mux client

A client numbers its requests and keeps the numbers of those without an answer. Frames come in on
one byte stream: an event is handed on, a response settles the request whose number it carries, and
a frame over the cap or one that cannot be decoded fails the client, which rejects all that is
pending. The decoded value is trusted to be an object, and its error to have a text.

Decoding is the work of the message library: it is a parameter, which tells of a decoded value what
the client reads from it. So is which events a handler throws on.
-/

namespace AgentCockpit.Remote.RequestCorrelation

open AgentCockpit.Core

def maxFrameBytes : ℕ := 16 <<< 20

/-- The `error` of a response: what is not there or counts as false, a value with a text, and a
value that has none because its conversion throws. -/
inductive ErrorField
  | absent
  | text (message : String)
  | unprintable
  deriving DecidableEq, Repr

/-- The `data` of a response: nothing, a value that is itself encoded, and what is not. -/
inductive DataField (δ : Type*)
  | absent
  | decoded (value : δ)
  | undecodable
  deriving DecidableEq, Repr

/-- A decoded frame. A response carries the number of a request if its `id` is one. -/
inductive Frame (ε δ : Type*)
  /-- Nil, a boolean, a number or a string: the operator `in` throws on it. -/
  | primitive
  | event (event : ε)
  | response (id : Option ℕ) (error : ErrorField) (data : DataField δ)
  deriving DecidableEq, Repr

/-- Why a client has failed. -/
inductive Failure
  | closed | ended | channel | oversize | undecodable
  deriving DecidableEq, Repr

inductive MuxClientError
  | failed (failure : Failure)
  | write (message : String)
  | response (message : String)
  | responsePayload
  deriving DecidableEq, Repr

/-- How the promise of a request has settled. -/
inductive Settlement (δ : Type*)
  | resolved (data : Option δ)
  | rejected (error : MuxClientError)
  deriving DecidableEq, Repr

/-- The settlement that a response makes, unless its error has no text. -/
def settlement {δ : Type*} : ErrorField → DataField δ → Option (Settlement δ)
  | .unprintable, _ => none
  | .text message, _ => some (.rejected (.response message))
  | .absent, .absent => some (.resolved none)
  | .absent, .decoded value => some (.resolved (some value))
  | .absent, .undecodable => some (.rejected .responsePayload)

/-- What a client keeps of its requests, and what is seen of it. -/
structure Requests (ε δ : Type*) where
  nextId : ℕ := 1
  closed : Bool := false
  pending : List ℕ := []
  settled : List (ℕ × Settlement δ) := []
  /-- Requests that were refused because the client was closed. They have no number. -/
  refused : ℕ := 0
  events : List ε := []
  /-- The frames that were decoded. -/
  received : List (Frame ε δ) := []
  deriving DecidableEq, Repr

/-- A client: its requests and the bytes it has not read yet. -/
structure MuxClient (ε δ : Type*) extends Requests ε δ where
  buffered : List UInt8 := []
  /-- Some call of `ingest` has thrown. -/
  threw : Bool := false
  deriving DecidableEq, Repr

variable {ε δ : Type*}

namespace Requests

variable (requests : Requests ε δ)

/-- The first failure closes the client and rejects what is pending. -/
def fail (failure : Failure) : Requests ε δ :=
  if requests.closed then requests
  else
    { requests with
      closed := true
      pending := []
      settled := requests.settled ++
        requests.pending.map fun id => (id, .rejected (.failed failure)) }

/-- A response settles the pending request with its number. The second value tells that making the
error of the rejection has thrown; the request is not pending any more by then. -/
def respond (id : Option ℕ) (error : ErrorField) (data : DataField δ) : Requests ε δ × Bool :=
  match id with
  | none => (requests, false)
  | some id =>
    if id ∈ requests.pending then
      match settlement error data with
      | some result =>
        ({ requests with
            pending := requests.pending.erase id
            settled := requests.settled ++ [(id, result)] }, false)
      | none => ({ requests with pending := requests.pending.erase id }, true)
    else (requests, false)

end Requests

section Ingest

variable (decode : List UInt8 → Option (Frame ε δ)) (throws : ε → Bool)

/-- One turn of the loop: what is done with a decoded frame. The second value tells that the turn
has thrown. -/
def onFrame (requests : Requests ε δ) : Option (Frame ε δ) → Requests ε δ × Bool
  | none => (requests.fail .undecodable, false)
  | some frame =>
    let requests := { requests with received := requests.received ++ [frame] }
    match frame with
    | .primitive => (requests, true)
    | .event event => ({ requests with events := requests.events ++ [event] }, throws event)
    | .response id error data => requests.respond id error data

/-- The loop of `ingest`: it ends when the client has failed or a turn has thrown. -/
def ingestLoop : Receiver (Requests ε δ × Bool) where
  frame state body := onFrame throws state.1 (decode body)
  oversize state _ := (state.1.fail .oversize, state.2)
  halted state := state.1.closed || state.2
  halted_oversize state _ := by
    dsimp only
    rw [Requests.fail]
    split
    · rename_i hclosed
      rw [hclosed, Bool.true_or]
    · rfl

namespace MuxClient

/-- A chunk of the stream. What is left of the buffer waits for the next one. -/
def ingest (client : MuxClient ε δ) (chunk : List UInt8) : MuxClient ε δ :=
  if client.closed then client
  else
    let result := (ingestLoop decode throws).feed maxFrameBytes
      ((client.toRequests, false), client.buffered) chunk
    { toRequests := result.1.1, buffered := result.2, threw := client.threw || result.1.2 }

/-- A request is registered under the next number and written. If the write throws, it is taken back
and rejected. -/
def request (client : MuxClient ε δ) (failure : Option String) : MuxClient ε δ :=
  if client.closed then { client with refused := client.refused + 1 }
  else
    let id := client.nextId
    let pending := client.pending ++ [id]
    match failure with
    | none => { client with nextId := id + 1, pending }
    | some message =>
      { client with
        nextId := id + 1
        pending := pending.erase id
        settled := client.settled ++ [(id, .rejected (.write message))] }

def fail (client : MuxClient ε δ) (failure : Failure) : MuxClient ε δ :=
  { client with toRequests := client.toRequests.fail failure }

def close (client : MuxClient ε δ) : MuxClient ε δ := client.fail .closed

end MuxClient

/-- What happens to a client. A request tells the error of its write, if there is one. -/
inductive Step
  | request (failure : Option String)
  | close
  | ended
  | channelError
  | data (chunk : List UInt8)
  deriving DecidableEq, Repr

def MuxClient.step (client : MuxClient ε δ) : Step → MuxClient ε δ
  | .request failure => client.request failure
  | .close => client.close
  | .ended => client.fail .ended
  | .channelError => client.fail .channel
  | .data chunk => client.ingest decode throws chunk

/-- The step as a step of a system: it is always possible. -/
def next (client : MuxClient ε δ) (event : Step) : Option (MuxClient ε δ) :=
  some (client.step decode throws event)

/-- The step with the bytes of its chunk one by one. -/
def Step.bytewise : Step → List Step
  | .data chunk => chunk.map fun byte => .data [byte]
  | step => [step]

/-! ### Calm frames -/

/-- No turn of the loop throws on these frames while these requests are pending: none is a
primitive, no handler throws on an event, and the first response to a pending request has an error
with a text or none. Nothing is read behind a frame that cannot be decoded. -/
def Calm : List ℕ → List (Option (Frame ε δ)) → Prop
  | _, [] => True
  | _, none :: _ => True
  | _, some .primitive :: _ => False
  | pending, some (.event event) :: frames => throws event = false ∧ Calm pending frames
  | pending, some (.response none _ _) :: frames => Calm pending frames
  | pending, some (.response (some id) error _) :: frames =>
    (id ∈ pending → error ≠ .unprintable) ∧ Calm (pending.erase id) frames

/-- A step is calm if the frames that its chunk completes are. -/
def CalmStep (client : MuxClient ε δ) : Step → Prop
  | .data chunk =>
    client.closed = false →
      Calm throws client.pending ((bodies maxFrameBytes (client.buffered ++ chunk)).map decode)
  | _ => True

instance decidableCalm : ∀ (pending : List ℕ) (frames : List (Option (Frame ε δ))),
    Decidable (Calm throws pending frames)
  | _, [] => isTrue trivial
  | _, none :: _ => isTrue trivial
  | _, some .primitive :: _ => isFalse id
  | pending, some (.event _) :: frames =>
    have := decidableCalm pending frames
    inferInstanceAs (Decidable (_ ∧ _))
  | pending, some (.response none _ _) :: frames => decidableCalm pending frames
  | pending, some (.response (some id) _ _) :: frames =>
    have := decidableCalm (pending.erase id) frames
    inferInstanceAs (Decidable ((_ → _) ∧ _))

instance (client : MuxClient ε δ) : ∀ event, Decidable (CalmStep decode throws client event)
  | .data chunk => inferInstanceAs (Decidable (client.closed = false →
      Calm throws client.pending ((bodies maxFrameBytes (client.buffered ++ chunk)).map decode)))
  | .request _ => isTrue trivial
  | .close => isTrue trivial
  | .ended => isTrue trivial
  | .channelError => isTrue trivial

end Ingest

/-! ### When a chunk throws -/

section Throws

variable {decode : List UInt8 → Option (Frame ε δ)} {throws : ε → Bool}
variable {requests : Requests ε δ} {client : MuxClient ε δ} {body buffer chunk more : List UInt8}

theorem settlement_eq_none_iff {error : ErrorField} {data : DataField δ} :
    settlement error data = none ↔ error = .unprintable := by
  cases error <;> cases data <;> simp [settlement]

theorem Requests.closed_fail (requests : Requests ε δ) (failure : Failure) :
    (requests.fail failure).closed = true := by
  unfold fail
  split
  · assumption
  · rfl

@[simp] theorem halted_ingestLoop (state : Requests ε δ × Bool) :
    (ingestLoop decode throws).halted state = (state.1.closed || state.2) := rfl

@[simp] theorem frame_ingestLoop (state : Requests ε δ × Bool) (body : List UInt8) :
    (ingestLoop decode throws).frame state body = onFrame throws state.1 (decode body) := rfl

@[simp] theorem oversize_ingestLoop (state : Requests ε δ × Bool) (length : ℕ) :
    (ingestLoop decode throws).oversize state length = (state.1.fail .oversize, state.2) := rfl

/-- A thrown turn ends the loop. -/
theorem drain_of_thrown (requests : Requests ε δ) (buffer : List UInt8) :
    (ingestLoop decode throws).drain maxFrameBytes (requests, true) buffer =
      ((requests, true), buffer) :=
  Receiver.drain_of_halted (Bool.or_true _)

theorem drain_of_closed {thrown : Bool} (h : requests.closed = true) (buffer : List UInt8) :
    (ingestLoop decode throws).drain maxFrameBytes (requests, thrown) buffer =
      ((requests, thrown), buffer) :=
  Receiver.drain_of_halted (by rw [halted_ingestLoop, h, Bool.true_or])

/-- A turn is calm if it does not throw and the frames behind it, if they are read, are calm. -/
theorem calm_cons_iff (requests : Requests ε δ) (frame : Option (Frame ε δ))
    (frames : List (Option (Frame ε δ))) :
    Calm throws requests.pending (frame :: frames) ↔
      (onFrame throws requests frame).2 = false ∧
        (frame ≠ none → Calm throws (onFrame throws requests frame).1.pending frames) := by
  cases frame with
  | none => simp [Calm, onFrame]
  | some frame =>
    cases frame with
    | primitive => simp [Calm, onFrame]
    | event event => simp [Calm, onFrame]
    | response id error data =>
      cases id with
      | none => simp [Calm, onFrame, Requests.respond]
      | some id =>
        simp only [Calm, onFrame, Requests.respond]
        split_ifs with hpending
        · cases hresult : settlement error data with
          | none => simp [settlement_eq_none_iff.mp hresult, hpending]
          | some result =>
            have herror : error ≠ .unprintable := fun herror =>
              by cases hresult.symm.trans (settlement_eq_none_iff.mpr herror)
            simp [herror]
        · simp [hpending, List.erase_of_not_mem hpending]

theorem closed_onFrame (requests : Requests ε δ) (frame : Option (Frame ε δ))
    (hopen : requests.closed = false) :
    (onFrame throws requests frame).1.closed = true ↔ frame = none := by
  cases frame with
  | none => simp [onFrame, Requests.closed_fail]
  | some frame =>
    cases frame with
    | primitive => simp [onFrame, hopen]
    | event event => simp [onFrame, hopen]
    | response id error data =>
      simp only [onFrame, Requests.respond]
      split
      · simp [hopen]
      · split_ifs
        · split <;> simp [hopen]
        · simp [hopen]

/-- The loop throws exactly when the frames of the buffer are not calm. -/
theorem drain_throws_iff (requests : Requests ε δ) (buffer : List UInt8)
    (hopen : requests.closed = false) :
    ((ingestLoop decode throws).drain maxFrameBytes (requests, false) buffer).1.2 = true ↔
      ¬ Calm throws requests.pending ((bodies maxFrameBytes buffer).map decode) := by
  suffices hsuffices : ∀ state : Requests ε δ × Bool, state.1.closed = false → state.2 = false →
      (((ingestLoop decode throws).drain maxFrameBytes state buffer).1.2 = true ↔
        ¬ Calm throws state.1.pending ((bodies maxFrameBytes buffer).map decode)) from
    hsuffices (requests, false) hopen rfl
  intro state
  induction state, buffer using
    Receiver.drain_induction (ingestLoop decode throws) maxFrameBytes with
  | halted state buffer h =>
    intro hopen hquiet
    rw [halted_ingestLoop, hopen, hquiet] at h
    exact nomatch h
  | incomplete state buffer hrun h =>
    intro _ hquiet
    rw [Receiver.drain_of_incomplete h, bodies_of_not_frame (by simp [h]), hquiet]
    simp [Calm]
  | oversize state buffer length hrun h =>
    intro _ hquiet
    rw [Receiver.drain_of_oversize hrun h, bodies_of_not_frame (by simp [h])]
    simp [Calm, hquiet]
  | frame state buffer body rest hrun h ih =>
    intro hopen _
    rw [Receiver.drain_of_frame hrun h, bodies_of_frame h, List.map_cons, calm_cons_iff]
    rw [frame_ingestLoop] at ih ⊢
    have hclosed : (onFrame throws state.1 (decode body)).1.closed = true ↔ decode body = none :=
      closed_onFrame state.1 (decode body) hopen
    cases hthrown : (onFrame throws state.1 (decode body)).2 with
    | true =>
      rw [← Prod.eta (onFrame throws state.1 (decode body)), hthrown, drain_of_thrown]
      simp
    | false =>
      by_cases hnone : decode body = none
      · rw [← Prod.eta (onFrame throws state.1 (decode body)), drain_of_closed (hclosed.mpr hnone),
          hthrown]
        simp [hnone]
      · rw [ih (Bool.eq_false_iff.mpr fun h => hnone (hclosed.mp h)) hthrown]
        simp [hnone]

/-- Reading the chunk does not throw. -/
def Quiet (decode : List UInt8 → Option (Frame ε δ)) (throws : ε → Bool) (client : MuxClient ε δ)
    (chunk : List UInt8) : Prop :=
  client.closed = false →
    ((ingestLoop decode throws).drain maxFrameBytes (client.toRequests, false)
      (client.buffered ++ chunk)).1.2 = false

theorem calmStep_data_iff :
    CalmStep decode throws client (.data chunk) ↔ Quiet decode throws client chunk := by
  refine forall_congr' fun hopen => ?_
  rw [Bool.eq_false_iff, Ne, drain_throws_iff _ _ hopen, not_not]

end Throws

/-! ### Chunks -/

section Chunks

variable {decode : List UInt8 → Option (Frame ε δ)} {throws : ε → Bool}
variable {client other : MuxClient ε δ} {chunk more : List UInt8}

/-- Two clients are the same to their users; a closed one does not look at its buffer any more. -/
def MuxClient.Same (client other : MuxClient ε δ) : Prop :=
  client.toRequests = other.toRequests ∧ (client.closed = false → client.buffered = other.buffered)

/-- An open client waits for the rest of a frame. -/
def MuxClient.Waits (client : MuxClient ε δ) : Prop :=
  client.closed = false → head maxFrameBytes client.buffered = .incomplete

namespace MuxClient

theorem Same.rfl : client.Same client := ⟨Eq.refl _, fun _ => Eq.refl _⟩

theorem Same.trans {third : MuxClient ε δ} (h : client.Same other) (h' : other.Same third) :
    client.Same third :=
  ⟨h.1.trans h'.1, fun hopen => (h.2 hopen).trans (h'.2 (h.1 ▸ hopen))⟩

theorem ingest_of_closed (h : client.closed = true) :
    client.ingest decode throws chunk = client := by
  rw [ingest, if_pos h]

theorem ingest_of_open (h : client.closed = false) :
    client.ingest decode throws chunk =
      { toRequests := ((ingestLoop decode throws).drain maxFrameBytes (client.toRequests, false)
          (client.buffered ++ chunk)).1.1
        buffered := ((ingestLoop decode throws).drain maxFrameBytes (client.toRequests, false)
          (client.buffered ++ chunk)).2
        threw := client.threw || ((ingestLoop decode throws).drain maxFrameBytes
          (client.toRequests, false) (client.buffered ++ chunk)).1.2 } := by
  rw [ingest, if_neg (Bool.eq_false_iff.mp h)]
  exact Eq.refl _

theorem Same.step (h : client.Same other) (event : Step) :
    (client.step decode throws event).Same (other.step decode throws event) := by
  obtain ⟨requests, buffered, threw⟩ := client
  obtain ⟨requests', buffered', threw'⟩ := other
  obtain ⟨hrequests, hbuffered⟩ := h
  obtain rfl : requests = requests' := hrequests
  cases hclosed : requests.closed with
  | true =>
    -- Nothing but the count of refused requests changes any more.
    cases event with
    | request failure =>
      simp only [MuxClient.step, request, hclosed, if_true]
      exact ⟨Eq.refl _, fun hopen => Bool.noConfusion (show true = false from hopen)⟩
    | data chunk =>
      rw [MuxClient.step, MuxClient.step, ingest_of_closed hclosed, ingest_of_closed hclosed]
      exact ⟨Eq.refl _, hbuffered⟩
    | _ => exact ⟨Eq.refl _, fun hopen => nomatch (requests.closed_fail _).symm.trans hopen⟩
  | false =>
    obtain rfl : buffered = buffered' := hbuffered hclosed
    cases event with
    | request failure =>
      simp only [MuxClient.step, request, hclosed, Bool.false_eq_true, if_false]
      cases failure <;> exact ⟨Eq.refl _, fun _ => Eq.refl _⟩
    | data chunk =>
      rw [MuxClient.step, MuxClient.step, ingest_of_open hclosed, ingest_of_open hclosed]
      exact ⟨Eq.refl _, fun _ => Eq.refl _⟩
    | _ => exact ⟨Eq.refl _, fun _ => Eq.refl _⟩

theorem Same.foldl (h : client.Same other) (events : List Step) :
    (events.foldl (MuxClient.step decode throws) client).Same
      (events.foldl (MuxClient.step decode throws) other) := by
  induction events generalizing client other with
  | nil => exact h
  | cons event events ih => exact ih (h.step event)

/-- A chunk that does not throw may be cut in two. -/
theorem ingest_append (hquiet : Quiet decode throws client (chunk ++ more)) :
    Quiet decode throws client chunk ∧
      (client.ingest decode throws (chunk ++ more)).Same
        ((client.ingest decode throws chunk).ingest decode throws more) := by
  cases hclosed : client.closed with
  | true =>
    refine ⟨fun hopen => (by cases hclosed.symm.trans hopen), ?_⟩
    rw [ingest_of_closed hclosed, ingest_of_closed hclosed, ingest_of_closed hclosed]
    exact Same.rfl
  | false =>
    have hwhole := hquiet hclosed
    rw [ingest_of_open hclosed, ingest_of_open hclosed]
    rw [← List.append_assoc, Receiver.drain_append, Receiver.feed] at hwhole ⊢
    unfold Quiet
    obtain ⟨⟨⟨requests, thrown⟩, rest⟩, hfirst⟩ : ∃ first,
        (ingestLoop decode throws).drain maxFrameBytes (client.toRequests, false)
          (client.buffered ++ chunk) = first := ⟨_, Eq.refl _⟩
    rw [hfirst] at hwhole ⊢
    dsimp only at hwhole ⊢
    -- Had the first piece thrown, the whole chunk would have.
    cases thrown with
    | true =>
      rw [drain_of_thrown] at hwhole
      cases hwhole
    | false =>
      refine ⟨fun _ => Eq.refl _, ?_⟩
      cases hfailed : requests.closed with
      | true =>
        rw [drain_of_closed hfailed, ingest_of_closed hfailed]
        exact ⟨Eq.refl _, fun hopen => by cases hfailed.symm.trans hopen⟩
      | false =>
        rw [ingest_of_open hfailed]
        exact Same.rfl

theorem waits_ingest (hquiet : Quiet decode throws client chunk) :
    (client.ingest decode throws chunk).Waits := by
  intro hopen
  cases hclosed : client.closed with
  | true =>
    rw [ingest_of_closed hclosed] at hopen
    exact nomatch hclosed.symm.trans hopen
  | false =>
    rw [ingest_of_open hclosed] at hopen ⊢
    have hquiet := hquiet hclosed
    have hends := (ingestLoop decode throws).drain_ends maxFrameBytes (client.toRequests, false)
      (client.buffered ++ chunk)
    rcases hends with hhalted | hwaiting
    · rw [halted_ingestLoop, hquiet, Bool.or_false] at hhalted
      exact nomatch hhalted.symm.trans hopen
    · exact hwaiting

theorem waits_step (hwaits : client.Waits) {event : Step}
    (hcalm : CalmStep decode throws client event) : (client.step decode throws event).Waits := by
  cases event with
  | request failure =>
    rw [step, request]
    split_ifs with hclosed
    · exact hwaits
    · cases failure <;> exact hwaits
  | data chunk => exact waits_ingest (calmStep_data_iff.mp hcalm)
  | _ => exact fun hopen => (nomatch (client.closed_fail _).symm.trans hopen)

/-- A chunk that does not throw may be cut into bytes. -/
theorem ingest_bytewise (hwaits : client.Waits) (hquiet : Quiet decode throws client chunk) :
    (client.ingest decode throws chunk).Same
      ((Step.data chunk).bytewise.foldl (MuxClient.step decode throws) client) := by
  rw [Step.bytewise]
  induction chunk using List.reverseRecOn with
  | nil =>
    cases hclosed : client.closed with
    | true =>
      rw [ingest_of_closed hclosed]
      exact Same.rfl
    | false =>
      rw [ingest_of_open hclosed, List.append_nil, Receiver.drain_of_incomplete (hwaits hclosed)]
      exact Same.rfl
  | append_singleton chunk byte ih =>
    obtain ⟨hfirst, hcut⟩ := ingest_append hquiet
    rw [List.map_append, List.foldl_append]
    exact hcut.trans ((ih hfirst).step (.data [byte]))

/-- A calm run comes to the same as the run in which each byte arrives alone. -/
theorem run_bytewise {events : List Step} {final : MuxClient ε δ}
    (h : Run (next decode throws) (CalmStep decode throws) client events final)
    (hwaits : client.Waits) (hsame : client.Same other) :
    final.Same ((events.flatMap Step.bytewise).foldl (MuxClient.step decode throws) other) := by
  induction h generalizing other with
  | nil client => exact hsame
  | cons hcalm hstep hrest ih =>
    rename_i event events client next final
    obtain rfl := Option.some.inj hstep
    rw [List.flatMap_cons, List.foldl_append]
    apply ih (waits_step hwaits hcalm)
    refine Same.trans ?_ (hsame.foldl event.bytewise)
    cases event with
    | data chunk => exact ingest_bytewise hwaits (calmStep_data_iff.mp hcalm)
    | _ => exact Same.rfl

end MuxClient

end Chunks

/-! ### Settling once -/

/-- The settlement was made by a response. -/
def Settlement.ByResponse {δ : Type*} : Settlement δ → Prop
  | .resolved _ => True
  | .rejected (.response _) => True
  | .rejected .responsePayload => True
  | .rejected _ => False

namespace Requests

/-- Each number that was given out is settled once or pending, a settlement that was made by a
response is the one that a response with its number makes, and a closed client has nothing
pending. -/
structure Sound (requests : Requests ε δ) : Prop where
  started : 1 ≤ requests.nextId
  once : (requests.settled.map Prod.fst ++ requests.pending).Perm
    (List.range' 1 (requests.nextId - 1))
  own : ∀ (id : ℕ) (result : Settlement δ), (id, result) ∈ requests.settled → result.ByResponse →
    ∃ error data, Frame.response (some id) error data ∈ requests.received ∧
      settlement error data = some result
  closed : requests.closed = true → requests.pending = []

namespace Sound

variable {requests : Requests ε δ} {throws : ε → Bool}

theorem init : Sound ({} : Requests ε δ) := by
  refine ⟨le_rfl, List.Perm.refl [], ?_, fun _ => rfl⟩
  intro id result h
  exact nomatch h

theorem fail (h : requests.Sound) (failure : Failure) : (requests.fail failure).Sound := by
  unfold Requests.fail
  split_ifs
  · exact h
  · refine ⟨h.started, ?_, ?_, fun _ => rfl⟩
    · simpa [Function.comp_def] using h.once
    · intro id result hresult hby
      rcases List.mem_append.mp hresult with hold | hnew
      · exact h.own id result hold hby
      · obtain ⟨id, -, hpair⟩ := List.mem_map.mp hnew
        obtain ⟨rfl, rfl⟩ := Prod.mk.inj hpair
        exact hby.elim

/-- A request that is answered moves from the pending ones to the settled ones. -/
theorem once_settle {settled pending numbers : List ℕ} {id : ℕ}
    (h : (settled ++ pending).Perm numbers) (hpending : id ∈ pending) :
    (settled ++ [id] ++ pending.erase id).Perm numbers := by
  rw [List.append_assoc]
  exact ((List.perm_cons_erase hpending).symm.append_left settled).trans h

theorem respond (h : requests.Sound) {id : Option ℕ} {error : ErrorField} {data : DataField δ}
    (hreceived : Frame.response id error data ∈ requests.received)
    (hquiet : (requests.respond id error data).2 = false) :
    (requests.respond id error data).1.Sound := by
  unfold Requests.respond at hquiet ⊢
  cases id with
  | none => exact h
  | some id =>
    dsimp only at hquiet ⊢
    split_ifs at hquiet ⊢ with hpending
    · cases hresult : settlement error data with
      | none =>
        rw [hresult] at hquiet
        exact nomatch hquiet
      | some result =>
        refine ⟨h.started, ?_, ?_, ?_⟩
        · rw [List.map_append]
          exact once_settle h.once hpending
        · intro other made hmade hby
          rcases List.mem_append.mp hmade with hold | hnew
          · exact h.own other made hold hby
          · obtain ⟨rfl, rfl⟩ := Prod.mk.inj (List.mem_singleton.mp hnew)
            exact ⟨error, data, hreceived, hresult⟩
        · intro hclosed
          rw [h.closed hclosed] at hpending
          exact nomatch hpending
    · exact h

/-- What a turn adds to the frames and the events does not matter to the requests. -/
theorem receive (h : requests.Sound) (frame : Frame ε δ) (events : List ε) :
    Sound { requests with received := requests.received ++ [frame], events } := by
  refine ⟨h.started, h.once, ?_, h.closed⟩
  intro id result hresult hby
  obtain ⟨error, data, hreceived, hsettles⟩ := h.own id result hresult hby
  exact ⟨error, data, List.mem_append_left _ hreceived, hsettles⟩

theorem onFrame (h : requests.Sound) {frame : Option (Frame ε δ)}
    (hquiet : (onFrame throws requests frame).2 = false) :
    (RequestCorrelation.onFrame throws requests frame).1.Sound := by
  cases frame with
  | none => exact h.fail .undecodable
  | some frame =>
    cases frame with
    | primitive => exact nomatch hquiet
    | event event => exact h.receive _ _
    | response id error data =>
      apply (h.receive (.response id error data) requests.events).respond
      · exact List.mem_append_right _ (List.mem_singleton_self _)
      · exact hquiet

/-- The loop keeps the requests sound unless it throws. -/
theorem drain {decode : List UInt8 → Option (Frame ε δ)} (h : requests.Sound) (buffer : List UInt8)
    (hquiet : ((ingestLoop decode throws).drain maxFrameBytes (requests, false) buffer).1.2 =
      false) :
    ((ingestLoop decode throws).drain maxFrameBytes (requests, false) buffer).1.1.Sound := by
  suffices hsuffices : ∀ state : Requests ε δ × Bool, state.1.Sound →
      ((ingestLoop decode throws).drain maxFrameBytes state buffer).1.2 = false →
        ((ingestLoop decode throws).drain maxFrameBytes state buffer).1.1.Sound from
    hsuffices (requests, false) h hquiet
  clear h hquiet
  intro state
  induction state, buffer using
    Receiver.drain_induction (ingestLoop decode throws) maxFrameBytes with
  | halted state buffer h =>
    intro hsound _
    rw [Receiver.drain_of_halted h]
    exact hsound
  | incomplete state buffer hrun h =>
    intro hsound _
    rw [Receiver.drain_of_incomplete h]
    exact hsound
  | oversize state buffer length hrun h =>
    intro hsound _
    rw [Receiver.drain_of_oversize hrun h]
    exact hsound.fail .oversize
  | frame state buffer body rest hrun h ih =>
    intro hsound hquiet
    rw [Receiver.drain_of_frame hrun h, frame_ingestLoop] at hquiet ⊢
    rw [frame_ingestLoop] at ih
    -- A turn that throws ends the loop, so this one has not.
    cases hthrown : (RequestCorrelation.onFrame throws state.1 (decode body)).2 with
    | true =>
      rw [← Prod.eta (RequestCorrelation.onFrame throws state.1 (decode body)), hthrown,
        drain_of_thrown] at hquiet
      exact nomatch hquiet
    | false => exact ih (hsound.onFrame hthrown) hquiet

end Sound

end Requests

namespace MuxClient

variable {decode : List UInt8 → Option (Frame ε δ)} {throws : ε → Bool} {client : MuxClient ε δ}

theorem sound_request (h : client.Sound) (failure : Option String) :
    (client.request failure).Sound := by
  unfold request
  split_ifs with hclosed
  · exact ⟨h.started, h.once, h.own, h.closed⟩
  · have hstarted := h.started
    have hnumbers : List.range' 1 (client.nextId + 1 - 1) =
        List.range' 1 (client.nextId - 1) ++ [client.nextId] := by
      obtain ⟨count, hcount⟩ := Nat.exists_eq_add_of_le' hstarted
      rw [hcount, Nat.add_sub_cancel, Nat.add_sub_cancel, List.range'_concat, Nat.one_mul,
        Nat.add_comm 1 count]
    have honce : (client.settled.map Prod.fst ++ (client.pending ++ [client.nextId])).Perm
        (List.range' 1 (client.nextId + 1 - 1)) := by
      rw [← List.append_assoc, hnumbers]
      exact h.once.append_right _
    cases failure with
    | none => exact ⟨Nat.le_add_left 1 _, honce, h.own, fun h => absurd h hclosed⟩
    | some message =>
      refine ⟨Nat.le_add_left 1 _, ?_, ?_, fun h => absurd h hclosed⟩
      · rw [List.map_append]
        exact Requests.Sound.once_settle honce (List.mem_append_right _ (List.mem_singleton_self _))
      · intro id result hresult hby
        rcases List.mem_append.mp hresult with hold | hnew
        · exact h.own id result hold hby
        · obtain ⟨rfl, rfl⟩ := Prod.mk.inj (List.mem_singleton.mp hnew)
          exact hby.elim

/-- A calm step throws nothing and keeps the requests sound. -/
theorem sound_step (h : client.Sound) (hthrew : client.threw = false) {event : Step}
    (hcalm : CalmStep decode throws client event) :
    (client.step decode throws event).Sound ∧ (client.step decode throws event).threw = false := by
  cases event with
  | request failure =>
    refine ⟨sound_request h failure, ?_⟩
    rw [step, request]
    split_ifs
    · exact hthrew
    · cases failure <;> exact hthrew
  | data chunk =>
    rw [step]
    cases hclosed : client.closed with
    | true =>
      rw [ingest_of_closed hclosed]
      exact ⟨h, hthrew⟩
    | false =>
      have hquiet := calmStep_data_iff.mp hcalm hclosed
      rw [ingest_of_open hclosed]
      refine ⟨h.drain _ hquiet, ?_⟩
      rw [hthrew, hquiet, Bool.or_false]
  | _ => exact ⟨h.fail _, hthrew⟩

end MuxClient

theorem sound_of_calm {decode : List UInt8 → Option (Frame ε δ)} {throws : ε → Bool}
    {events : List Step} {client : MuxClient ε δ}
    (h : Run (next decode throws) (CalmStep decode throws) {} events client) :
    client.Sound ∧ client.threw = false := by
  have hpreserved : ∀ (client : MuxClient ε δ) event client',
      (client.Sound ∧ client.threw = false) → CalmStep decode throws client event →
        next decode throws client event = some client' →
          client'.Sound ∧ client'.threw = false := by
    rintro client event _ ⟨hsound, hthrew⟩ hcalm hstep
    obtain rfl := Option.some.inj hstep
    exact client.sound_step hsound hthrew hcalm
  have hinit : ({} : MuxClient ε δ).Sound ∧ ({} : MuxClient ε δ).threw = false :=
    ⟨Requests.Sound.init, rfl⟩
  have hfinal := h.invariant hpreserved hinit
  exact hfinal

/-- **Each request settles once.** In a run whose frames are calm no chunk throws, each request is
pending or settled once, by the response with its number if by one at all, and none is pending once
the client has failed. Two such runs that differ only in how the stream was cut have the same
requests, settlements and events. -/
theorem settled_once (decode : List UInt8 → Option (Frame ε δ)) (throws : ε → Bool)
    {events events' : List Step} {client client' : MuxClient ε δ}
    (h : Run (next decode throws) (CalmStep decode throws) {} events client)
    (h' : Run (next decode throws) (CalmStep decode throws) {} events' client')
    (hbytes : events.flatMap Step.bytewise = events'.flatMap Step.bytewise) :
    client.threw = false ∧ client.Sound ∧ client.toRequests = client'.toRequests := by
  obtain ⟨hsound, hthrew⟩ := sound_of_calm h
  have hwaits : ({} : MuxClient ε δ).Waits := fun _ => rfl
  have hbytewise := MuxClient.run_bytewise h hwaits MuxClient.Same.rfl
  have hbytewise' := MuxClient.run_bytewise h' hwaits MuxClient.Same.rfl
  rw [← hbytes] at hbytewise'
  exact ⟨hthrew, hsound, hbytewise.1.trans hbytewise'.1.symm⟩

/-! ### A frame that is nil -/

/-- The decoded values of three payloads: nil, `{id: 1}`, and `{id: 1, data: nil}`. -/
def decodeSample : List UInt8 → Option (Frame Unit Unit)
  | [0xc0] => some .primitive
  | [0x81, 0xa2, 0x69, 0x64, 0x01] => some (.response (some 1) .absent .absent)
  | [0x82, 0xa2, 0x69, 0x64, 0x01, 0xa4, 0x64, 0x61, 0x74, 0x61, 0xc0] =>
    some (.response (some 1) .absent .absent)
  | _ => none

def nilFrame : List UInt8 := [0, 0, 0, 1, 0xc0]

def responseFrame : List UInt8 := [0, 0, 0, 5, 0x81, 0xa2, 0x69, 0x64, 0x01]

/-- A frame that is nil makes the chunk throw, and the response behind it in the same chunk settles
nothing; in a chunk of its own it does. -/
theorem not_settled_once :
    ¬ ∀ (events events' : List Step) (client client' : MuxClient Unit Unit),
      Run (next decodeSample fun _ => false) Always {} events client →
        Run (next decodeSample fun _ => false) Always {} events' client' →
          events.flatMap Step.bytewise = events'.flatMap Step.bytewise →
            client.threw = false ∧ client.Sound ∧ client.toRequests = client'.toRequests := by
  intro hclaim
  have hwhole := hclaim [.request none, .data (nilFrame ++ responseFrame)]
    [.request none, .data nilFrame, .data responseFrame] _ _
    (run_iff_replay.mpr rfl) (run_iff_replay.mpr rfl) (by decide)
  exact absurd hwhole.1 (by decide +kernel)

/-- A response cut after its header, and the same response in one piece. -/
theorem settled_once_response :
    ∃ client client' : MuxClient Unit Unit, client.settled = [(1, .resolved none)] ∧
      client.threw = false ∧ client.Sound ∧ client.toRequests = client'.toRequests := by
  have hcut : (replay (next decodeSample fun _ => false) (CalmStep decodeSample fun _ => false) {}
      [.request none, .data (responseFrame.take 4), .data (responseFrame.drop 4)]).any
        (fun client => client.settled = [(1, .resolved none)]) = true := by
    decide +kernel
  have hwhole : (replay (next decodeSample fun _ => false) (CalmStep decodeSample fun _ => false) {}
      [.request none, .data responseFrame]).any (fun _ => true) = true := by
    decide +kernel
  obtain ⟨client, hrun, hsettled⟩ := exists_run_of_replay hcut
  obtain ⟨client', hrun', -⟩ := (Option.any_eq_true _ _).mp hwhole
  exact ⟨client, client', hsettled,
    settled_once decodeSample _ hrun (run_iff_replay.mpr hrun') (by decide)⟩

end AgentCockpit.Remote.RequestCorrelation
