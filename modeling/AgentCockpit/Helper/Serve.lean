import AgentCockpit.Core.Run
import AgentCockpit.Mux.Protocol

/-!
# The RPC loop of the remote helper

A reader decodes requests, answers `callback.reply` itself and queues every other request for one
worker, which executes them in arrival order. The reader, the worker and any number of event
emitters write frames under one lock: the holder writes the header and then the body, and nobody
else writes in between. A payload that does not encode, or encodes to more than a frame may hold,
is logged and not written.

The encoder of payloads and the outcome of each method are parameters: an encoder is any function
to bytes, and the label of a step carries the outcome. In the runs in which every response encodes
to a frame, every request is answered exactly once.
-/

namespace AgentCockpit.Helper

open AgentCockpit.Core AgentCockpit.Mux

/-- A request without its parameters, which only its method reads. -/
structure Request where
  id : ℤ
  method : String
  deriving DecidableEq, Repr

/-- What the helper writes, over the results of its methods. -/
inductive Payload (ρ : Type)
  | result (id : ℤ) (result : ρ)
  | error (id : ℤ) (message : String)
  | event (name : String) (data : ρ)
  deriving DecidableEq, Repr

/-- The request that a payload answers. -/
def Payload.responseID {ρ : Type} : Payload ρ → Option ℤ
  | .result id _ | .error id _ => some id
  | .event _ _ => none

/-- The largest framed message. -/
def maxMessageBytes : ℕ := 16 <<< 20

/-- The response to a request, from the outcome of its method. -/
def respond {ρ : Type} (request : Request) : Except String ρ → Payload ρ
  | .ok result => .result request.id result
  | .error message => .error request.id message

/-- The body of the frame of a payload, or why there is none. -/
def encodeFrame {ρ : Type} (marshal : Payload ρ → Except String Bytes) (payload : Payload ρ) :
    Except String Bytes :=
  match marshal payload with
  | .error message => .error ("marshal frame: " ++ message)
  | .ok body =>
    if maxMessageBytes < body.length then
      .error ("frame too large: " ++ toString body.length ++ " bytes")
    else .ok body

/-- Where the reader is. -/
inductive ReaderPhase (ρ : Type)
  | reading
  | invoking (request : Request)
  | sending (payload : Payload ρ)
  | ended
  deriving DecidableEq, Repr

/-- Where the worker is. -/
inductive WorkerPhase (ρ : Type)
  | idle
  | invoking (request : Request)
  | sending (payload : Payload ρ)
  | done
  deriving DecidableEq, Repr

inductive Writer
  | reader
  | worker
  | emitter
  deriving DecidableEq, Repr

/-- A frame whose header is written. -/
structure OpenFrame (ρ : Type) where
  writer : Writer
  payload : Payload ρ
  body : Bytes
  deriving DecidableEq, Repr

structure RpcServer (ρ : Type) where
  /-- The requests that are still to be read before the stream ends. -/
  input : List Request
  /-- The requests that were read. -/
  arrived : List Request := []
  queue : List Request := []
  queueClosed : Bool := false
  reader : ReaderPhase ρ := .reading
  worker : WorkerPhase ρ := .idle
  /-- The requests that the worker has begun. -/
  executed : List Request := []
  /-- The events that emitters are about to write. -/
  emitting : List (Payload ρ) := []
  /-- The write lock: who holds it, and what is still to be written. -/
  holder : Option (OpenFrame ρ) := none
  /-- The bytes on the output stream. -/
  out : Bytes := []
  /-- The payloads whose frames are complete. -/
  written : List (Payload ρ) := []
  logged : List String := []
  deriving DecidableEq, Repr

inductive RpcStep (ρ : Type)
  /-- The reader decodes the next request. -/
  | read
  | endOfStream
  /-- The reader has the outcome of a `callback.reply`. -/
  | answered (outcome : Except String ρ)
  | pop
  /-- The worker finds the queue closed and drained. -/
  | drained
  /-- The worker has the outcome of a method. -/
  | returned (outcome : Except String ρ)
  | emit (name : String) (data : ρ)
  /-- A writer takes the lock and writes its header, or finds that there is no frame. -/
  | begin (writer : Writer)
  /-- The holder of the lock writes its body. -/
  | finish

namespace RpcServer

variable {ρ : Type} (marshal : Payload ρ → Except String Bytes) (server : RpcServer ρ)

/-- The payload that a writer is about to write. -/
def outgoing : Writer → Option (Payload ρ)
  | .reader => match server.reader with
    | .sending payload => some payload
    | _ => none
  | .worker => match server.worker with
    | .sending payload => some payload
    | _ => none
  | .emitter => server.emitting.head?

/-- A writer goes on after its frame, written or not. -/
def release : Writer → RpcServer ρ
  | .reader => { server with reader := .reading }
  | .worker => { server with worker := .idle }
  | .emitter => { server with emitting := server.emitting.tail }

/-- Take the write lock. -/
def beginFrame (writer : Writer) (payload : Payload ρ) : RpcServer ρ :=
  match encodeFrame marshal payload with
  | .error message =>
    { server with logged := server.logged ++ ["write frame failed: " ++ message] }.release writer
  | .ok body =>
    { server with
      holder := some ⟨writer, payload, body⟩
      out := server.out ++ frameHeader body.length }

/-- Write the body and release the lock. -/
def finishFrame (frame : OpenFrame ρ) : RpcServer ρ :=
  { server with
    holder := none
    out := server.out ++ frame.body
    written := server.written ++ [frame.payload] }.release frame.writer

/-- One step of a goroutine. -/
def step (server : RpcServer ρ) : RpcStep ρ → Option (RpcServer ρ)
  | .read =>
    match server.reader, server.input with
    | .reading, request :: input =>
      let server := { server with input, arrived := server.arrived ++ [request] }
      if request.method = "callback.reply" then
        some { server with reader := .invoking request }
      else some { server with queue := server.queue ++ [request] }
    | _, _ => none
  | .endOfStream =>
    match server.reader, server.input with
    | .reading, [] => some { server with reader := .ended, queueClosed := true }
    | _, _ => none
  | .answered outcome =>
    match server.reader with
    | .invoking request => some { server with reader := .sending (respond request outcome) }
    | _ => none
  | .pop =>
    match server.worker, server.queue with
    | .idle, request :: queue =>
      some { server with
        queue, worker := .invoking request, executed := server.executed ++ [request] }
    | _, _ => none
  | .drained =>
    match server.worker, server.queue with
    | .idle, [] => if server.queueClosed then some { server with worker := .done } else none
    | _, _ => none
  | .returned outcome =>
    match server.worker with
    | .invoking request => some { server with worker := .sending (respond request outcome) }
    | _ => none
  | .emit name data => some { server with emitting := server.emitting ++ [.event name data] }
  | .begin writer =>
    match server.holder, server.outgoing writer with
    | none, some payload => some (server.beginFrame marshal writer payload)
    | _, _ => none
  | .finish =>
    match server.holder with
    | some frame => some (server.finishFrame frame)
    | none => none

/-! ### What is promised -/

/-- The requests that the worker executes. -/
def queued (requests : List Request) : List Request :=
  requests.filter (·.method ≠ "callback.reply")

/-- The stream has ended, and the worker has drained the queue. -/
def Finished : Prop := server.reader = .ended ∧ server.worker = .done

instance [DecidableEq ρ] : Decidable server.Finished :=
  inferInstanceAs (Decidable (server.reader = .ended ∧ server.worker = .done))

/-- What a run over the requests of a stream keeps. -/
structure Serves (requests : List Request) : Prop where
  /-- Requests are executed in arrival order. -/
  inOrder : server.executed <+: queued requests
  /-- At the end every request was executed, and answered exactly once. -/
  answered : server.Finished → server.executed = queued requests ∧
    (server.written.filterMap (·.responseID)).Perm (requests.map (·.id))
  /-- Between frames the output is a sequence of whole frames, one for each payload. -/
  framed : server.holder = none → ∃ bodies, readFrames server.out.length server.out = .ok bodies ∧
    List.Forall₂ (fun payload body => marshal payload = .ok body) server.written bodies
  /-- Before the end some goroutine can go on. -/
  progress : ¬ server.Finished → ∃ label, (∀ name data, label ≠ .emit name data) ∧
    (server.step marshal label).isSome

/-- The response to every request encodes to a frame. -/
def Fits (server : RpcServer ρ) : RpcStep ρ → Prop
  | .answered outcome => ∀ request, server.reader = .invoking request →
      (encodeFrame marshal (respond request outcome)).isOk
  | .returned outcome => ∀ request, server.worker = .invoking request →
      (encodeFrame marshal (respond request outcome)).isOk
  | _ => True

instance (label : RpcStep ρ) : Decidable (Fits marshal server label) :=
  match label with
  | .answered outcome =>
    match hreader : server.reader with
    | .invoking request =>
      decidable_of_iff ((encodeFrame marshal (respond request outcome)).isOk = true)
        ⟨fun hok other hother => by cases hreader.symm.trans hother; exact hok,
          fun hall => hall request hreader⟩
    | .reading | .sending _ | .ended => isTrue fun _ hother => nomatch hreader.symm.trans hother
  | .returned outcome =>
    match hworker : server.worker with
    | .invoking request =>
      decidable_of_iff ((encodeFrame marshal (respond request outcome)).isOk = true)
        ⟨fun hok other hother => by cases hworker.symm.trans hother; exact hok,
          fun hall => hall request hworker⟩
    | .idle | .sending _ | .done => isTrue fun _ hother => nomatch hworker.symm.trans hother
  | .read | .endOfStream | .pop | .drained | .emit _ _ | .begin _ | .finish => isTrue trivial

/-! ### The requests that wait for an answer -/

/-- The request that the reader has not answered yet. -/
def readerIDs : List ℤ :=
  match server.reader with
  | .invoking request => [request.id]
  | .sending payload => payload.responseID.toList
  | .reading | .ended => []

/-- The request that the worker has not answered yet. -/
def workerIDs : List ℤ :=
  match server.worker with
  | .invoking request => [request.id]
  | .sending payload => payload.responseID.toList
  | .idle | .done => []

/-- The requests that were read and not answered. -/
def waiting : List ℤ := server.readerIDs ++ (server.workerIDs ++ server.queue.map (·.id))

variable {marshal} {server} {requests : List Request} {writer : Writer} {payload : Payload ρ}
  {frame : OpenFrame ρ} {label : RpcStep ρ} {next : RpcServer ρ}

@[simp] theorem responseID_respond (request : Request) (outcome : Except String ρ) :
    (respond request outcome).responseID = some request.id := by
  cases outcome <;> rfl

/-- A frame that is written takes its request off those that wait. -/
theorem count_waiting_release (hpayload : server.outgoing writer = some payload)
    (hevents : ∀ event ∈ server.emitting, event.responseID = none) (id : ℤ) :
    server.waiting.count id =
      payload.responseID.toList.count id + (server.release writer).waiting.count id := by
  cases writer with
  | reader =>
    simp only [outgoing] at hpayload
    split at hpayload
    · next sent hreader =>
      obtain rfl := Option.some.inj hpayload
      simp [waiting, readerIDs, workerIDs, release, hreader]
    · exact nomatch hpayload
  | worker =>
    simp only [outgoing] at hpayload
    split at hpayload
    · next sent hworker =>
      obtain rfl := Option.some.inj hpayload
      simp only [waiting, readerIDs, workerIDs, release, hworker, List.count_append,
        List.count_nil]
      omega
    · exact nomatch hpayload
  | emitter =>
    have hevent := hevents payload (List.mem_of_head? hpayload)
    rw [hevent]
    exact (Nat.zero_add _).symm

/-- Requests are executed in order, and every one that was read waits or was answered. -/
structure Accounts (requests : List Request) (server : RpcServer ρ) : Prop where
  arrived : server.arrived ++ server.input = requests
  inOrder : server.executed ++ server.queue = queued server.arrived
  answered : ∀ id, (server.written.filterMap (·.responseID)).count id + server.waiting.count id =
    (server.arrived.map (·.id)).count id
  ended : server.reader = .ended → server.input = [] ∧ server.queueClosed = true
  closed : server.queueClosed = true → server.reader = .ended
  done : server.worker = .done → server.queue = [] ∧ server.queueClosed = true
  events : ∀ event ∈ server.emitting, event.responseID = none

/-- The responses encode, and the output is whole frames and the header of an open one. -/
structure Writes (marshal : Payload ρ → Except String Bytes) (server : RpcServer ρ) : Prop where
  fits : ∀ writer payload, writer ≠ .emitter → server.outgoing writer = some payload →
    (encodeFrame marshal payload).isOk
  holder : ∀ frame, server.holder = some frame → server.outgoing frame.writer = some frame.payload ∧
    encodeFrame marshal frame.payload = .ok frame.body
  framed : ∃ bodies, server.out = bodies.flatMap Mux.frame ++
      (server.holder.map fun frame => frameHeader frame.body.length).getD [] ∧
    List.Forall₂ (fun payload body => encodeFrame marshal payload = .ok body) server.written bodies

theorem accounts_initial (requests : List Request) :
    Accounts requests ({ input := requests } : RpcServer ρ) where
  arrived := rfl
  inOrder := rfl
  answered _ := rfl
  ended h := nomatch h
  closed h := nomatch h
  done h := nomatch h
  events _ h := absurd h List.not_mem_nil

theorem writes_initial (requests : List Request) :
    Writes marshal ({ input := requests } : RpcServer ρ) where
  fits writer payload hwriter hpayload := by cases writer <;> exact nomatch hpayload
  holder _ h := nomatch h
  framed := ⟨[], rfl, .nil⟩

/-- A writer goes on without having written an answer, or having written one. -/
theorem Accounts.release (h : Accounts requests server)
    (hpayload : server.outgoing writer = some payload) {written : List (Payload ρ)}
    {holder : Option (OpenFrame ρ)} {out : Bytes} {logged : List String}
    (hwritten : ∀ id, (written.filterMap (·.responseID)).count id =
      (server.written.filterMap (·.responseID)).count id + payload.responseID.toList.count id) :
    Accounts requests ({ server with written, holder, out, logged }.release writer) := by
  have hcount := count_waiting_release hpayload h.events
  have hlive : writer = .reader → server.reader ≠ .ended := by
    rintro rfl hended
    simp [outgoing, hended] at hpayload
  have hbusy : writer = .worker → server.worker ≠ .done := by
    rintro rfl hdone
    simp [outgoing, hdone] at hpayload
  have hanswered : ∀ id, (written.filterMap (·.responseID)).count id +
      (server.release writer).waiting.count id = (server.arrived.map (·.id)).count id :=
        fun id => by
    have hold := h.answered id
    have hnew := hcount id
    have hmore := hwritten id
    omega
  cases writer with
  | reader =>
    exact { h with
      answered := hanswered
      ended := nofun
      closed := fun hclosed => absurd (h.closed hclosed) (hlive rfl) }
  | worker =>
    exact { h with
      answered := hanswered
      done := nofun }
  | emitter =>
    exact { h with
      answered := hanswered
      events := fun event hevent => h.events event (List.mem_of_mem_tail hevent) }

theorem queued_concat (request : Request) :
    queued (requests ++ [request]) =
      queued requests ++ if request.method = "callback.reply" then [] else [request] := by
  by_cases h : request.method = "callback.reply" <;> simp [queued, h]

/-- The reader decodes a request. -/
theorem Accounts.read (h : Accounts requests server) {request : Request} {input : List Request}
    (hreader : server.reader = .reading) (hinput : server.input = request :: input)
    (hstep : server.step marshal .read = some next) : Accounts requests next := by
  have harrived : server.arrived ++ [request] ++ input = requests := by
    rw [List.append_assoc, List.singleton_append, ← hinput]
    exact h.arrived
  have hopen : server.queueClosed = true → False := fun hclosed =>
    nomatch hreader.symm.trans (h.closed hclosed)
  have hanswered := h.answered
  simp only [waiting, readerIDs, hreader, List.nil_append] at hanswered
  simp only [RpcServer.step, hreader, hinput] at hstep
  split at hstep
  · next hmethod =>
    obtain rfl := Option.some.inj hstep
    exact {
      arrived := harrived
      inOrder := by rw [queued_concat, if_pos hmethod, List.append_nil]; exact h.inOrder
      answered := fun id => by
        have hid := hanswered id
        simp only [waiting, readerIDs, workerIDs, List.map_append, List.map_cons, List.map_nil,
          List.count_append] at hid ⊢
        omega
      ended := nofun
      closed := fun hclosed => (hopen hclosed).elim
      done := h.done
      events := h.events }
  · next hmethod =>
    obtain rfl := Option.some.inj hstep
    exact {
      arrived := harrived
      inOrder := by
        rw [queued_concat, if_neg hmethod, ← List.append_assoc, h.inOrder]
      answered := fun id => by
        have hid := hanswered id
        simp only [waiting, readerIDs, workerIDs, List.map_append, List.map_cons, List.map_nil,
          List.count_append, List.count_nil] at hid ⊢
        omega
      ended := nofun
      closed := fun hclosed => (hopen hclosed).elim
      done := fun hdone => (hopen (h.done hdone).2).elim
      events := h.events }

/-- Every step keeps the accounts, as long as the responses encode. -/
theorem Accounts.step (h : Accounts requests server) (hwrites : Writes marshal server)
    (hstep : server.step marshal label = some next) : Accounts requests next := by
  have hanswered := h.answered
  cases label with
  | read =>
    have hread := hstep
    simp only [RpcServer.step] at hstep
    split at hstep
    · next request input hreader hinput => exact h.read hreader hinput hread
    · exact nomatch hstep
  | endOfStream =>
    simp only [RpcServer.step] at hstep
    split at hstep
    · next hreader hinput =>
      obtain rfl := Option.some.inj hstep
      simp only [waiting, readerIDs, hreader] at hanswered
      exact { h with
        answered := hanswered
        ended := fun _ => ⟨hinput, rfl⟩
        closed := fun _ => rfl
        done := fun hdone => ⟨(h.done hdone).1, rfl⟩ }
    · exact nomatch hstep
  | answered outcome =>
    simp only [RpcServer.step] at hstep
    split at hstep
    · next request hreader =>
      obtain rfl := Option.some.inj hstep
      simp only [waiting, readerIDs, hreader] at hanswered
      exact { h with
        answered := fun id => by
          have hid := hanswered id
          simp only [waiting, readerIDs, workerIDs, responseID_respond] at hid ⊢
          exact hid
        ended := nofun
        closed := fun hclosed => nomatch hreader.symm.trans (h.closed hclosed) }
    · exact nomatch hstep
  | pop =>
    simp only [RpcServer.step] at hstep
    split at hstep
    · next request queue hworker hqueue =>
      obtain rfl := Option.some.inj hstep
      simp only [waiting, workerIDs, hworker, hqueue] at hanswered
      exact { h with
        inOrder := by
          rw [List.append_assoc, List.singleton_append, ← hqueue]
          exact h.inOrder
        answered := hanswered
        done := nofun }
    · exact nomatch hstep
  | drained =>
    simp only [RpcServer.step] at hstep
    split at hstep
    · next hworker hqueue =>
      obtain ⟨hclosed, rfl⟩ := of_ite_some hstep
      simp only [waiting, workerIDs, hworker] at hanswered
      exact { h with
        answered := hanswered
        done := fun _ => ⟨hqueue, hclosed⟩ }
    · exact nomatch hstep
  | returned outcome =>
    simp only [RpcServer.step] at hstep
    split at hstep
    · next request hworker =>
      obtain rfl := Option.some.inj hstep
      simp only [waiting, workerIDs, hworker] at hanswered
      exact { h with
        answered := fun id => by
          have hid := hanswered id
          simp only [waiting, readerIDs, workerIDs, responseID_respond] at hid ⊢
          exact hid
        done := nofun }
    · exact nomatch hstep
  | emit name data =>
    obtain rfl := Option.some.inj hstep
    exact { h with
      events := fun event hevent => by
        rcases List.mem_append.mp hevent with hold | hnew
        · exact h.events event hold
        · obtain rfl := List.mem_singleton.mp hnew
          rfl }
  | begin writer =>
    simp only [RpcServer.step] at hstep
    split at hstep
    · next payload hholder hpayload =>
      obtain rfl := Option.some.inj hstep
      unfold beginFrame
      split
      · next message hnone =>
        -- a response encodes, so this is an event, which answers nothing
        refine h.release hpayload fun id => ?_
        have hevent : payload.responseID = none := by
          cases writer with
          | emitter => exact h.events payload (List.mem_of_head? hpayload)
          | reader =>
            have hfits := hwrites.fits .reader payload nofun hpayload
            rw [hnone] at hfits
            exact nomatch hfits
          | worker =>
            have hfits := hwrites.fits .worker payload nofun hpayload
            rw [hnone] at hfits
            exact nomatch hfits
        rw [hevent]
        rfl
      · exact { h with }
    · exact nomatch hstep
  | finish =>
    simp only [RpcServer.step] at hstep
    split at hstep
    · next frame hframe =>
      obtain rfl := Option.some.inj hstep
      refine h.release (hwrites.holder frame hframe).1 fun id => ?_
      rw [List.filterMap_append, List.count_append]
      cases hid : frame.payload.responseID <;> simp [hid]
    · exact nomatch hstep

@[simp] theorem outgoing_reader :
    server.outgoing .reader = some payload ↔ server.reader = .sending payload := by
  simp only [outgoing]
  split <;> simp_all

@[simp] theorem outgoing_worker :
    server.outgoing .worker = some payload ↔ server.worker = .sending payload := by
  simp only [outgoing]
  split <;> simp_all

/-- What a writer still has to write after one has gone on was there before. -/
theorem outgoing_of_release {other : Writer} (hother : other ≠ .emitter)
    (h : (server.release writer).outgoing other = some payload) :
    server.outgoing other = some payload := by
  cases other with
  | emitter => exact absurd rfl hother
  | reader =>
    rw [outgoing_reader] at h ⊢
    cases writer with
    | reader => exact nomatch h
    | worker | emitter => exact h
  | worker =>
    rw [outgoing_worker] at h ⊢
    cases writer with
    | worker => exact nomatch h
    | reader | emitter => exact h

/-- A step of the reader or the worker that leaves the lock and the output alone. -/
theorem Writes.enter (h : Writes marshal server) {reader : ReaderPhase ρ} {worker : WorkerPhase ρ}
    {input arrived queue executed : List Request} {queueClosed : Bool}
    (hreader : ∀ payload, reader = .sending payload → server.reader = .sending payload ∨
      (encodeFrame marshal payload).isOk)
    (hworker : ∀ payload, worker = .sending payload → server.worker = .sending payload ∨
      (encodeFrame marshal payload).isOk)
    (hreader' : ∀ payload, server.reader = .sending payload → reader = .sending payload)
    (hworker' : ∀ payload, server.worker = .sending payload → worker = .sending payload) :
    Writes marshal
      { server with input, arrived, queue, queueClosed, reader, worker, executed } where
  fits writer payload hwriter hpayload := by
    cases writer with
    | emitter => exact absurd rfl hwriter
    | reader =>
      rcases hreader payload (outgoing_reader.mp hpayload) with hold | hok
      · exact h.fits .reader payload nofun (outgoing_reader.mpr hold)
      · exact hok
    | worker =>
      rcases hworker payload (outgoing_worker.mp hpayload) with hold | hok
      · exact h.fits .worker payload nofun (outgoing_worker.mpr hold)
      · exact hok
  holder frame hframe := by
    obtain ⟨hpayload, hbody⟩ := h.holder frame hframe
    refine ⟨?_, hbody⟩
    cases hwriter : frame.writer with
    | emitter =>
      rw [hwriter] at hpayload
      exact hpayload
    | reader =>
      rw [hwriter, outgoing_reader] at hpayload
      exact outgoing_reader.mpr (hreader' _ hpayload)
    | worker =>
      rw [hwriter, outgoing_worker] at hpayload
      exact outgoing_worker.mpr (hworker' _ hpayload)
  framed := h.framed

/-- The writer that holds no lock finds that its payload has no frame. -/
theorem Writes.drop (h : Writes marshal server) (hholder : server.holder = none)
    (logged : List String) : Writes marshal ({ server with logged }.release writer) := by
  have hrest : Writes marshal { server with logged } := ⟨h.fits, h.holder, h.framed⟩
  have hfits : ∀ other payload, other ≠ .emitter →
      ({ server with logged }.release writer).outgoing other = some payload →
        (encodeFrame marshal payload).isOk := fun other payload hother hpayload =>
    hrest.fits other payload hother (outgoing_of_release hother hpayload)
  cases writer with
  | reader | worker | emitter =>
    exact ⟨hfits, fun frame hframe => (nomatch hholder.symm.trans hframe), h.framed⟩

/-- The header of a frame. -/
theorem Writes.begin (h : Writes marshal server) (hholder : server.holder = none)
    (hpayload : server.outgoing writer = some payload) {body : Bytes}
    (hbody : encodeFrame marshal payload = .ok body) :
    Writes marshal { server with
      holder := some ⟨writer, payload, body⟩
      out := server.out ++ frameHeader body.length } where
  fits := h.fits
  holder frame hframe := by
    obtain rfl := Option.some.inj hframe
    exact ⟨hpayload, hbody⟩
  framed := by
    obtain ⟨bodies, hout, hwritten⟩ := h.framed
    rw [hholder, Option.map_none, Option.getD_none, List.append_nil] at hout
    exact ⟨bodies, by rw [hout]; rfl, hwritten⟩

/-- The body of a frame. -/
theorem Writes.finish (h : Writes marshal server) (hframe : server.holder = some frame) :
    Writes marshal (server.finishFrame frame) := by
  obtain ⟨hpayload, hbody⟩ := h.holder frame hframe
  have hfits : ∀ other payload, other ≠ .emitter →
      (server.finishFrame frame).outgoing other = some payload →
        (encodeFrame marshal payload).isOk := fun other payload hother hpayload => by
    have hbefore : ({ server with
        holder := none
        out := server.out ++ frame.body
        written := server.written ++ [frame.payload] } : RpcServer ρ).outgoing other =
          some payload := outgoing_of_release hother hpayload
    exact h.fits other payload hother hbefore
  have hframed : ∃ bodies, server.out ++ frame.body = bodies.flatMap Mux.frame ∧
      List.Forall₂ (fun payload body => encodeFrame marshal payload = .ok body)
        (server.written ++ [frame.payload]) bodies := by
    obtain ⟨bodies, hout, hwritten⟩ := h.framed
    rw [hframe, Option.map_some, Option.getD_some] at hout
    refine ⟨bodies ++ [frame.body], ?_, List.rel_append hwritten (.cons hbody .nil)⟩
    rw [hout, List.flatMap_append, List.flatMap_singleton, Mux.frame, List.append_assoc]
  obtain ⟨bodies, hout, hwritten⟩ := hframed
  have hwhole : server.out ++ frame.body = bodies.flatMap Mux.frame ++
      ((none : Option (OpenFrame ρ)).map fun frame => frameHeader frame.body.length).getD [] := by
    rw [hout, Option.map_none, Option.getD_none, List.append_nil]
  unfold finishFrame at hfits ⊢
  cases hwriter : frame.writer with
  | reader | worker | emitter =>
    rw [hwriter] at hfits
    exact ⟨hfits, fun _ hnone => (by cases hnone), bodies, hwhole, hwritten⟩

/-- Every step whose response encodes keeps the output. -/
theorem Writes.step (h : Writes marshal server) (hadmits : Fits marshal server label)
    (hstep : server.step marshal label = some next) : Writes marshal next := by
  cases label with
  | read =>
    simp only [RpcServer.step] at hstep
    split at hstep
    · next request input hreader hinput =>
      have hidle : ∀ payload, server.reader = .sending payload → False := fun payload hsending =>
        nomatch hreader.symm.trans hsending
      split at hstep
      · obtain rfl := Option.some.inj hstep
        exact h.enter nofun (fun _ => .inl) (fun payload hs => (hidle payload hs).elim)
          fun _ hs => hs
      · obtain rfl := Option.some.inj hstep
        exact h.enter (fun _ => .inl) (fun _ => .inl) (fun _ hs => hs) fun _ hs => hs
    · exact nomatch hstep
  | endOfStream =>
    simp only [RpcServer.step] at hstep
    split at hstep
    · next hreader hinput =>
      obtain rfl := Option.some.inj hstep
      exact h.enter nofun (fun _ => .inl) (fun payload hs => nomatch hreader.symm.trans hs)
        fun _ hs => hs
    · exact nomatch hstep
  | answered outcome =>
    simp only [RpcServer.step] at hstep
    split at hstep
    · next request hreader =>
      obtain rfl := Option.some.inj hstep
      refine h.enter (fun payload hs => ?_) (fun _ => .inl)
        (fun payload hs => nomatch hreader.symm.trans hs) fun _ hs => hs
      obtain rfl := ReaderPhase.sending.inj hs
      -- the guard: the response encodes to a frame
      exact .inr (hadmits request hreader)
    · exact nomatch hstep
  | pop =>
    simp only [RpcServer.step] at hstep
    split at hstep
    · next request queue hworker hqueue =>
      obtain rfl := Option.some.inj hstep
      exact h.enter (fun _ => .inl) nofun (fun _ hs => hs)
        fun payload hs => nomatch hworker.symm.trans hs
    · exact nomatch hstep
  | drained =>
    simp only [RpcServer.step] at hstep
    split at hstep
    · next hworker hqueue =>
      obtain ⟨_, rfl⟩ := of_ite_some hstep
      exact h.enter (fun _ => .inl) nofun (fun _ hs => hs)
        fun payload hs => nomatch hworker.symm.trans hs
    · exact nomatch hstep
  | returned outcome =>
    simp only [RpcServer.step] at hstep
    split at hstep
    · next request hworker =>
      obtain rfl := Option.some.inj hstep
      refine h.enter (fun _ => .inl) (fun payload hs => ?_) (fun _ hs => hs)
        fun payload hs => nomatch hworker.symm.trans hs
      obtain rfl := WorkerPhase.sending.inj hs
      exact .inr (hadmits request hworker)
    · exact nomatch hstep
  | emit name data =>
    obtain rfl := Option.some.inj hstep
    refine ⟨fun writer payload hwriter hpayload => ?_, fun frame hframe => ?_, h.framed⟩
    · refine h.fits writer payload hwriter ?_
      cases writer with
      | emitter => exact absurd rfl hwriter
      | reader | worker => exact hpayload
    · obtain ⟨hpayload, hbody⟩ := h.holder frame hframe
      refine ⟨?_, hbody⟩
      cases hwriter : frame.writer with
      | reader | worker =>
        rw [hwriter] at hpayload
        exact hpayload
      | emitter =>
        rw [hwriter, outgoing] at hpayload
        -- the queue grows at its end, so the payload being written stays its head
        rw [outgoing, List.head?_append, hpayload]
        rfl
  | begin writer =>
    simp only [RpcServer.step] at hstep
    split at hstep
    · next payload hholder hpayload =>
      obtain rfl := Option.some.inj hstep
      unfold beginFrame
      split
      · exact h.drop hholder _
      · next body hbody => exact h.begin hholder hpayload hbody
    · exact nomatch hstep
  | finish =>
    simp only [RpcServer.step] at hstep
    split at hstep
    · next frame hframe =>
      obtain rfl := Option.some.inj hstep
      exact h.finish hframe
    · exact nomatch hstep

/-! ### What runs keep -/

theorem encodeFrame_ok {body : Bytes} (h : encodeFrame marshal payload = .ok body) :
    marshal payload = .ok body ∧ body.length ≤ maxMessageBytes := by
  unfold encodeFrame at h
  split at h
  · exact nomatch h
  · next other hother =>
    split at h
    · exact nomatch h
    · next hsize =>
      obtain rfl := Except.ok.inj h
      exact ⟨hother, Nat.le_of_not_lt hsize⟩

/-- Between frames the output reads back as the bodies that were written. -/
theorem Writes.read (h : Writes marshal server) (hholder : server.holder = none) :
    ∃ bodies, readFrames server.out.length server.out = .ok bodies ∧
      List.Forall₂ (fun payload body => marshal payload = .ok body) server.written bodies := by
  obtain ⟨bodies, hout, hwritten⟩ := h.framed
  rw [hholder, Option.map_none, Option.getD_none, List.append_nil] at hout
  have hboth : List.Forall₂ (fun payload body => marshal payload = .ok body ∧
      body.length ≤ maxMessageBytes) server.written bodies :=
    hwritten.imp fun _ _ hbody => encodeFrame_ok hbody
  have hsizes : ∀ body ∈ bodies, body.length ≤ maxFrameBytes := by
    clear hout hwritten
    generalize server.written = payloads at hboth
    induction hboth with
    | nil => exact fun body hbody => absurd hbody List.not_mem_nil
    | cons hhead _ ih =>
      intro body hbody
      rcases List.mem_cons.mp hbody with rfl | hbody
      · exact hhead.2
      · exact ih body hbody
  rw [hout]
  exact ⟨bodies, CompleteFrames.readFrames_flatMap hsizes, hboth.imp fun _ _ hbody => hbody.1⟩

/-- Before the end, some goroutine can go on: nobody waits for ever. -/
theorem progress (h : Accounts requests server) (hunfinished : ¬ server.Finished) :
    ∃ label, (∀ name data, label ≠ .emit name data) ∧ (server.step marshal label).isSome := by
  cases hholder : server.holder with
  | some frame => exact ⟨.finish, nofun, by simp [RpcServer.step, hholder]⟩
  | none =>
    cases hreader : server.reader with
    | reading =>
      cases hinput : server.input with
      | nil => exact ⟨.endOfStream, nofun, by simp [RpcServer.step, hreader, hinput]⟩
      | cons request input =>
        refine ⟨.read, nofun, ?_⟩
        simp only [RpcServer.step, hreader, hinput]
        split <;> rfl
    | invoking request =>
      exact ⟨.answered (.error ""), nofun, by simp [RpcServer.step, hreader]⟩
    | sending payload =>
      exact ⟨.begin .reader, nofun, by simp [RpcServer.step, hholder, outgoing, hreader]⟩
    | ended =>
      have hclosed := (h.ended hreader).2
      cases hworker : server.worker with
      | idle =>
        cases hqueue : server.queue with
        | nil => exact ⟨.drained, nofun, by simp [RpcServer.step, hworker, hqueue, hclosed]⟩
        | cons request queue => exact ⟨.pop, nofun, by simp [RpcServer.step, hworker, hqueue]⟩
      | invoking request =>
        exact ⟨.returned (.error ""), nofun, by simp [RpcServer.step, hworker]⟩
      | sending payload =>
        exact ⟨.begin .worker, nofun, by simp [RpcServer.step, hholder, outgoing, hworker]⟩
      | done => exact absurd ⟨hreader, hworker⟩ hunfinished

/-- At the end nothing waits. -/
theorem Accounts.finished (h : Accounts requests server) (hfinished : server.Finished) :
    server.executed = queued requests ∧
      (server.written.filterMap (·.responseID)).Perm (requests.map (·.id)) := by
  obtain ⟨hreader, hworker⟩ := hfinished
  have hinput := (h.ended hreader).1
  have hqueue := (h.done hworker).1
  have harrived := h.arrived
  rw [hinput, List.append_nil] at harrived
  have horder := h.inOrder
  rw [hqueue, List.append_nil, harrived] at horder
  refine ⟨horder, List.perm_iff_count.mpr fun id => ?_⟩
  have hanswered := h.answered id
  rw [harrived] at hanswered
  simpa [waiting, readerIDs, workerIDs, hreader, hworker, hqueue] using hanswered

theorem serves_of_invariants (h : Accounts requests server) (hwrites : Writes marshal server) :
    Serves marshal server requests where
  inOrder := by
    have horder : server.executed <+: queued server.arrived := ⟨server.queue, h.inOrder⟩
    refine horder.trans ?_
    rw [← h.arrived, queued, queued, List.filter_append]
    exact List.prefix_append _ _
  answered := h.finished
  framed := hwrites.read
  progress := progress h

end RpcServer

open RpcServer

/-- If every response encodes to a frame, every request of the stream is executed in arrival order
and answered exactly once, and the output is a sequence of whole frames. -/
theorem every_request_answered {ρ : Type} (marshal : Payload ρ → Except String Bytes)
    (requests : List Request) {labels : List (RpcStep ρ)} {server : RpcServer ρ}
    (hrun : Run (RpcServer.step marshal) (Fits marshal) { input := requests } labels server) :
    server.Serves marshal requests := by
  have hpreserved : ∀ (s : RpcServer ρ) (label : RpcStep ρ) (t : RpcServer ρ),
      Accounts requests s ∧ Writes marshal s → Fits marshal s label →
        s.step marshal label = some t → Accounts requests t ∧ Writes marshal t :=
    fun _ _ _ hinv hadmits hstep => ⟨hinv.1.step hinv.2 hstep, hinv.2.step hadmits hstep⟩
  obtain ⟨haccounts, hwrites⟩ := hrun.invariant hpreserved
    ⟨accounts_initial requests, writes_initial requests⟩
  exact serves_of_invariants haccounts hwrites

/-! ### One encoder -/

/-- Payloads as JSON, over results that are JSON already. -/
def jsonText : Payload Bytes → Except String Bytes
  | .result id result =>
    .ok (("\x7b\"id\":" ++ toString id ++ ",\"result\":").toUTF8.toList ++ result ++
      ",\"error\":null\x7d".toUTF8.toList)
  | .error id message =>
    .ok ("\x7b\"id\":" ++ toString id ++ ",\"result\":null,\"error\":\"" ++ message ++
      "\"\x7d").toUTF8.toList
  | .event name data =>
    .ok (("\x7b\"event\":\"" ++ name ++ "\",\"data\":").toUTF8.toList ++ data ++
      "\x7d".toUTF8.toList)

/-- A slow status request, overtaken by a `callback.reply`, and an event between the two. -/
theorem every_request_answered_overtaken :
    ∃ server : RpcServer Bytes, Run (RpcServer.step jsonText) (Fits jsonText)
        { input := [⟨1, "gitStatus"⟩, ⟨2, "callback.reply"⟩] }
        [.read, .pop, .read, .answered (.ok [116]), .emit "watch" [48], .begin .reader, .finish,
          .begin .emitter, .finish, .returned (.error "no repository"), .begin .worker, .finish,
          .endOfStream, .drained] server ∧
      server.Finished ∧ server.Serves jsonText [⟨1, "gitStatus"⟩, ⟨2, "callback.reply"⟩] := by
  exact exists_run_and_of_replay (by decide +kernel)
    fun _ hrun => every_request_answered jsonText _ hrun

/-- A result whose encoding is larger than a frame. -/
theorem exists_oversize (request : Request) :
    ∃ (result : Bytes) (message : String),
      encodeFrame jsonText (respond request (.ok result)) = .error message := by
  have hsize : ∀ front back : Bytes, maxMessageBytes <
      (front ++ List.replicate (maxMessageBytes + 1) 97 ++ back).length := fun front back => by
    rw [List.length_append, List.length_append, List.length_replicate]
    omega
  simp only [respond, encodeFrame, jsonText]
  exact ⟨List.replicate (maxMessageBytes + 1) 97, _, if_pos (hsize _ _)⟩

/-- An oversize response is logged, and the request is never answered. -/
theorem not_every_request_answered :
    ¬ ∀ (marshal : Payload Bytes → Except String Bytes) (requests : List Request)
      (labels : List (RpcStep Bytes)) (server : RpcServer Bytes),
      Run (RpcServer.step marshal) Always { input := requests } labels server →
        server.Serves marshal requests := by
  intro hall
  obtain ⟨result, message, hbig⟩ := exists_oversize ⟨1, "getDiffBundle"⟩
  let sending : RpcServer Bytes := {
    input := []
    arrived := [⟨1, "getDiffBundle"⟩]
    executed := [⟨1, "getDiffBundle"⟩]
    worker := .sending (respond ⟨1, "getDiffBundle"⟩ (.ok result)) }
  have hbegin : RpcServer.step jsonText sending (.begin .worker) = some { sending with
      worker := .idle, logged := ["write frame failed: " ++ message] } := by
    simp only [RpcServer.step, outgoing, beginFrame, hbig, sending]
    rfl
  have hrun : Run (RpcServer.step jsonText) Always { input := [⟨1, "getDiffBundle"⟩] }
      [.read, .pop, .returned (.ok result), .begin .worker, .endOfStream, .drained] _ :=
    .cons trivial rfl (.cons trivial rfl (.cons trivial rfl (.cons trivial hbegin
      (.cons trivial rfl (.single trivial rfl)))))
  have hanswered := ((hall jsonText _ _ _ hrun).answered ⟨rfl, rfl⟩).2
  exact Nat.zero_ne_one hanswered.length_eq

end AgentCockpit.Helper
