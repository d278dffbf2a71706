import AgentCockpit.Core.Run
import AgentCockpit.Mux.Stream

/-!
# The callback service of the remote helper

A connection to the callback socket carries one request. The helper checks it, forwards it to the
app as an event with a correlation id, and waits for the first of the app's reply, the outcome of
writing the event, the timeout and the shutdown. The app answers with `callback.reply`, which looks
the correlation id up in the current service and puts the reply into the channel of the request that
waits for it. A handshake replaces the service; the old one is shut down after that.

Every goroutine is a party of one labelled system. A request is decoded JSON: its envelope and the
problem with its arguments; a reply of the app is what its JSON decodes to, over any type of result
objects. Whether a reply encodes to a frame is a parameter. The rate limit is a label's choice.
-/

namespace AgentCockpit.Helper

open AgentCockpit.Mux

/-- The most bytes of an error message that are relayed. -/
def maxRelayedMessageBytes : ℕ := 512

/-- The number of events that may wait for the writer. -/
def callbackEventBacklog : ℕ := 64

def callbackOps : List String := ["open"]

def callbackErrorCodes : List String :=
  ["unsupported-op", "bad-request", "rate-limited", "timeout", "not-connected", "internal"]

/-- The outcome of decoding a request: its own id is 0 when it has none. -/
structure Envelope where
  ok : Bool
  id : ℤ
  message : String := ""
  op : String := ""
  /-- What is wrong with the arguments of an `open`. -/
  problem : String := ""
  deriving DecidableEq, Repr

inductive ReplyBody (κ : Type)
  | ok (result : κ)
  | error (code : String) (message : Bytes)
  deriving DecidableEq, Repr

/-- What the client of a connection receives. -/
structure CallbackReply (κ : Type) where
  id : ℤ
  body : ReplyBody κ
  deriving DecidableEq, Repr

/-- What a reply of the app decodes to. -/
structure MainReply (κ : Type) where
  /-- The JSON has the shape of a reply. -/
  decodes : Bool
  ok : Option Bool := none
  /-- The result, if it is an object. -/
  result : Option κ := none
  error : Option (String × Bytes) := none
  deriving DecidableEq, Repr

section Replies

variable {κ : Type}

def okReply (id : ℤ) (result : κ) : CallbackReply κ := ⟨id, .ok result⟩

def errorReply (id : ℤ) (code message : String) : CallbackReply κ :=
  ⟨id, .error code message.toUTF8.toList⟩

/-- Move a cut back to the start of a character. -/
def runeStart (text : Bytes) : ℕ → ℕ
  | 0 => 0
  | cut + 1 =>
    if (text[cut + 1]?).any (fun byte => byte &&& 0xc0 == 0x80) then runeStart text cut
    else cut + 1

/-- Cut a text without splitting a character. -/
def truncateUTF8 (text : Bytes) (max : ℕ) : Bytes :=
  if text.length ≤ max then text else text.take (runeStart text max)

/-- The app's reply as the client receives it, under the request's own id. -/
def normalizeMainReply (id : ℤ) (raw : MainReply κ) : CallbackReply κ :=
  if raw.decodes = false then errorReply id "internal" "internal error"
  else
    match raw.ok with
    | none => errorReply id "internal" "internal error"
    | some true =>
      match raw.result with
      | some result => okReply id result
      | none => errorReply id "internal" "internal error"
    | some false =>
      match raw.error with
      | some (code, message) =>
        if code ∈ callbackErrorCodes then
          ⟨id, .error code (truncateUTF8 message maxRelayedMessageBytes)⟩
        else errorReply id "internal" "internal error"
      | none => errorReply id "internal" "internal error"

/-- The checks of a decoded request; none of them fails for one that is forwarded. -/
def screen (envelope : Envelope) (allowed marshals : Bool) : Option (CallbackReply κ) :=
  if envelope.ok = false then some (errorReply envelope.id "bad-request" envelope.message)
  else if envelope.op ∉ callbackOps then
    some (errorReply envelope.id "unsupported-op" "unsupported operation")
  else if envelope.problem ≠ "" then
    some (errorReply envelope.id "bad-request" envelope.problem)
  else if allowed = false then some (errorReply envelope.id "rate-limited" "too many requests")
  else if marshals = false then some (errorReply envelope.id "internal" "internal error")
  else none

end Replies

/-- Where the goroutine of a connection is. -/
inductive RequestPhase (κ : Type)
  | decoded
  /-- The checks have passed. -/
  | forwarding
  /-- It has a correlation id, and its event is not queued yet. -/
  | registered
  | waiting
  /-- It has a reply, and its correlation id is still registered. -/
  | leaving (reply : CallbackReply κ)
  | answering (reply : CallbackReply κ)
  | replied (reply : CallbackReply κ)
  deriving DecidableEq, Repr

/-- A connection with its one request. -/
structure CallbackRequest (κ : Type) where
  service : ℕ
  envelope : Envelope
  phase : RequestPhase κ := .decoded
  connID : Option ℕ := none
  /-- The channel of replies, which holds at most one, with the call that put it there. -/
  channel : Option (ℕ × MainReply κ) := none
  /-- The channel of the outcome of writing the event. -/
  done : Option Bool := none
  /-- The call whose reply it took out of the channel. -/
  relayed : Option ℕ := none
  /-- The replies written to the connection. -/
  frames : List (CallbackReply κ) := []
  deriving DecidableEq, Repr

structure CallbackService where
  /-- The requests that wait, by correlation id. -/
  pending : List (ℕ × ℕ) := []
  closing : Bool := false
  /-- The requests whose events are queued. -/
  events : List ℕ := []
  /-- The request whose event is being written. -/
  writing : Option ℕ := none
  stopped : Bool := false
  deriving DecidableEq, Repr

/-- Where a call of `callback.reply` is. -/
inductive ReplyPhase
  | called
  /-- It has read the current service. -/
  | reached (service : Option ℕ)
  /-- It has found the channel of a request. -/
  | found (request : ℕ)
  | answered (delivered : Bool)
  deriving DecidableEq, Repr

structure ReplyCall (κ : Type) where
  connID : ℕ
  reply : MainReply κ
  phase : ReplyPhase := .called
  deriving DecidableEq, Repr

structure CallbackServer (κ : Type) where
  services : List CallbackService := []
  /-- The service that `callback.reply` reaches. -/
  current : Option ℕ := none
  /-- The last correlation id, for every service. -/
  connSeq : ℕ := 0
  requests : List (CallbackRequest κ) := []
  calls : List (ReplyCall κ) := []
  deriving DecidableEq, Repr

inductive CallbackStep (κ : Type)
  /-- A handshake installs a new service. -/
  | handshake
  /-- The stream ends: there is no service any more. -/
  | closeCallback
  /-- A service that is not the current one is retired or closed. -/
  | shut (service : ℕ)
  /-- A connection of a service has decoded its request. -/
  | decode (service : ℕ) (envelope : Envelope)
  | screen (request : ℕ) (allowed marshals : Bool)
  | register (request : ℕ)
  | enqueue (request : ℕ)
  /-- The writer of a service takes the next event. -/
  | takeEvent (service : ℕ)
  /-- The write of an event has ended, with or without an error. -/
  | emitted (service : ℕ) (ok : Bool)
  | stopWriter (service : ℕ)
  /-- The request sees the outcome of writing its event. -/
  | written (request : ℕ)
  /-- The request takes a reply out of its channel. -/
  | receive (request : ℕ)
  | timeout (request : ℕ)
  | shutdown (request : ℕ)
  | unregister (request : ℕ)
  /-- The reply is written to the connection. -/
  | answer (request : ℕ)
  | call (connID : ℕ) (reply : MainReply κ)
  | reach (call : ℕ)
  | lookup (call : ℕ)
  | deliver (call : ℕ)
  deriving DecidableEq, Repr

namespace CallbackServer

variable {κ : Type} (encodes : CallbackReply κ → Bool) (server : CallbackServer κ)

def setRequest (id : ℕ) (request : CallbackRequest κ) : CallbackServer κ :=
  { server with requests := server.requests.set id request }

def setCall (id : ℕ) (call : ReplyCall κ) : CallbackServer κ :=
  { server with calls := server.calls.set id call }

def updateService (id : ℕ) (f : CallbackService → CallbackService) : CallbackServer κ :=
  { server with services := server.services.modify id f }

def closing (service : ℕ) : Bool := (server.services[service]?).any (·.closing)

/-- The request is answered without a correlation id. -/
def refuse (id : ℕ) (request : CallbackRequest κ) (reply : CallbackReply κ) : CallbackServer κ :=
  server.setRequest id { request with phase := .answering reply }

/-- The request stops waiting; its correlation id is still registered. -/
def leave (id : ℕ) (request : CallbackRequest κ) (reply : CallbackReply κ) : CallbackServer κ :=
  server.setRequest id { request with phase := .leaving reply }

/-- The frame of a reply; one that is too large becomes an error without an id. -/
def encodeReply (reply : CallbackReply κ) : CallbackReply κ :=
  if encodes reply then reply else errorReply 0 "internal" "internal error"

def registerRequest (id : ℕ) (request : CallbackRequest κ) : CallbackServer κ :=
  if server.closing request.service then
    server.refuse id request
      (errorReply request.envelope.id "not-connected" "the helper is shutting down")
  else
    let connID := server.connSeq + 1
    let server : CallbackServer κ := { server with connSeq := connID }
    (server.updateService request.service fun service =>
      { service with pending := (connID, id) :: service.pending }).setRequest id
        { request with phase := .registered, connID := some connID }

def enqueueRequest (id : ℕ) (request : CallbackRequest κ) : CallbackServer κ :=
  if (server.services[request.service]?).any (·.events.length < callbackEventBacklog) then
    (server.updateService request.service fun service =>
      { service with events := service.events ++ [id] }).setRequest id
        { request with phase := .waiting }
  else
    server.leave id request (errorReply request.envelope.id "not-connected"
      "the helper cannot reach the app (its output is backed up)")

/-- Forget a correlation id. -/
def unregisterRequest (id : ℕ) (request : CallbackRequest κ) (reply : CallbackReply κ) :
    CallbackServer κ :=
  (server.updateService request.service fun service =>
    { service with pending := service.pending.filter fun entry =>
        request.connID ≠ some entry.1 }).setRequest id { request with phase := .answering reply }

/-- Put a reply into the channel of a request, unless it holds one. -/
def deliverReply (id : ℕ) (call : ReplyCall κ) (target : ℕ) (request : CallbackRequest κ) :
    CallbackServer κ :=
  match request.channel with
  | none =>
    (server.setRequest target { request with channel := some (id, call.reply) }).setCall id
      { call with phase := .answered true }
  | some _ => server.setCall id { call with phase := .answered false }

/-- One step of a goroutine. -/
def step (server : CallbackServer κ) : CallbackStep κ → Option (CallbackServer κ)
  | .handshake =>
    some { server with
      services := server.services ++ [{}], current := some server.services.length }
  | .closeCallback => some { server with current := none }
  | .shut id =>
    if id < server.services.length ∧ server.current ≠ some id then
      some (server.updateService id ({ · with closing := true }))
    else none
  | .decode service envelope =>
    if service < server.services.length then
      some { server with requests := server.requests ++ [{ service, envelope }] }
    else none
  | .screen id allowed marshals =>
    match server.requests[id]? with
    | some request =>
      match request.phase with
      | .decoded =>
        match screen request.envelope allowed marshals with
        | some reply => some (server.refuse id request reply)
        | none => some (server.setRequest id { request with phase := .forwarding })
      | _ => none
    | none => none
  | .register id =>
    match server.requests[id]? with
    | some request =>
      match request.phase with
      | .forwarding => some (server.registerRequest id request)
      | _ => none
    | none => none
  | .enqueue id =>
    match server.requests[id]? with
    | some request =>
      match request.phase with
      | .registered => some (server.enqueueRequest id request)
      | _ => none
    | none => none
  | .takeEvent id =>
    match server.services[id]? with
    | some service =>
      match service.events with
      | event :: events =>
        if service.writing = none ∧ service.stopped = false then
          some (server.updateService id ({ · with events, writing := some event }))
        else none
      | [] => none
    | none => none
  | .emitted id ok =>
    match (server.services[id]?).bind (·.writing) with
    | some target =>
      match server.requests[target]? with
      | some request =>
        some ((server.updateService id ({ · with writing := none })).setRequest target
          { request with done := some ok })
      | none => none
    | none => none
  | .stopWriter id =>
    match server.services[id]? with
    | some service =>
      if service.closing ∧ service.writing = none then
        some (server.updateService id ({ · with stopped := true }))
      else none
    | none => none
  | .written id =>
    match server.requests[id]? with
    | some request =>
      match request.phase, request.done with
      | .waiting, some true => some (server.setRequest id { request with done := none })
      | .waiting, some false =>
        some (server.leave id request (errorReply request.envelope.id "not-connected"
          "the helper cannot reach the app"))
      | _, _ => none
    | none => none
  | .receive id =>
    match server.requests[id]? with
    | some request =>
      match request.phase, request.channel with
      | .waiting, some (call, reply) =>
        some (server.setRequest id { request with
          channel := none
          relayed := some call
          phase := .leaving (normalizeMainReply request.envelope.id reply) })
      | _, _ => none
    | none => none
  | .timeout id =>
    match server.requests[id]? with
    | some request =>
      match request.phase with
      | .waiting =>
        some (server.leave id request
          (errorReply request.envelope.id "timeout" "no confirmation within the deadline"))
      | _ => none
    | none => none
  | .shutdown id =>
    match server.requests[id]? with
    | some request =>
      match request.phase with
      | .waiting =>
        if server.closing request.service then
          some (server.leave id request
            (errorReply request.envelope.id "not-connected" "the helper is shutting down"))
        else none
      | _ => none
    | none => none
  | .unregister id =>
    match server.requests[id]? with
    | some request =>
      match request.phase with
      | .leaving reply => some (server.unregisterRequest id request reply)
      | _ => none
    | none => none
  | .answer id =>
    match server.requests[id]? with
    | some request =>
      match request.phase with
      | .answering reply =>
        some (server.setRequest id { request with
          phase := .replied reply, frames := request.frames ++ [encodeReply encodes reply] })
      | _ => none
    | none => none
  | .call connID reply => some { server with calls := server.calls ++ [{ connID, reply }] }
  | .reach id =>
    match server.calls[id]? with
    | some call =>
      if call.phase = .called then
        some (server.setCall id { call with phase := .reached server.current })
      else none
    | none => none
  | .lookup id =>
    match server.calls[id]? with
    | some call =>
      match call.phase with
      | .reached service =>
        let target := (service.bind (server.services[·]?)).bind (·.pending.lookup call.connID)
        some (server.setCall id { call with
          phase := match target with
            | some request => .found request
            | none => .answered false })
      | _ => none
    | none => none
  | .deliver id =>
    match server.calls[id]? with
    | some call =>
      match call.phase with
      | .found target =>
        match server.requests[target]? with
        | some request => some (server.deliverReply id call target request)
        | none => none
      | _ => none
    | none => none

end CallbackServer

end AgentCockpit.Helper
