import AgentCockpit.Callback.Protocol
import AgentCockpit.Core.Run

/-!
# The client of the helper

Calls go out with a number, and what comes back is one stream of frames: events, which are handed
to the handlers of their name and, for a `watch` event, to the handler of its token, and responses,
which settle the call whose number they carry. The frames that a chunk completes are decoded
together and then dispatched one by one; a bad frame fails the client and with it all pending calls.

An event without `data` breaks the dispatch of a `watch` event, as does a watch handler that
throws; what other handlers throw is caught. A handler may call the client itself. What handlers do
is a parameter, and so is the JSON library, with the value that it makes of a text.
-/

namespace AgentCockpit.Remote.HelperRpc

open AgentCockpit.Core AgentCockpit.Callback

/-- The cap of the helper's frames. -/
def maxMessageBytes : ℕ := 16 <<< 20

/-! ### Decoded frames -/

def units (text : String) : JsString := Utf16.encode text.toList

/-- A property of a decoded value. What is not an object has none of those that are read. -/
def field (name : String) (value : JsValue) : Option JsValue :=
  value.asObject.bind (JsonValue.lookup (units name))

/-- The value unless it is missing or null. -/
def present (value : Option JsValue) : Option JsValue :=
  value.filter (!·.isNull)

mutual

/-- Whether a value can be converted to a text. An object with a `toString` of its own cannot, as
no decoded value can be called, and an array cannot if one of its items cannot. -/
def printable : JsValue → Bool
  | .array items => printableItems items
  | .object members => (JsonValue.lookup (units "toString") members).isNone
  | _ => true

def printableItems : List JsValue → Bool
  | [] => true
  | item :: items => printable item && printableItems items

end

/-- The name of an event. -/
def eventName (message : JsValue) : Option JsString :=
  (field "event" message).bind JsonValue.asString

/-- The number that a response carries, if a call can have it. -/
def responseId (message : JsValue) : Option ℕ :=
  ((field "id" message).bind JsonValue.asNumber).bind fun number =>
    number.bind fun value => if value.den = 1 ∧ 0 ≤ value.num then some value.num.toNat else none

/-! ### Calls -/

inductive Cause
  /-- The helper has reported an error. -/
  | response (error : JsValue)
  | failed (reason : String)
  | write (message : String)

structure HelperRpcError where
  cause : Cause
  method : String

/-- How the promise of a call has settled. -/
inductive Settlement
  | resolved (result : Option JsValue)
  | rejected (error : HelperRpcError)

structure PendingCall where
  id : ℕ
  method : String
  deriving DecidableEq

/-- The settlement that a response makes, unless its error has no text. -/
def settlement (method : String) (message : JsValue) : Option Settlement :=
  match present (field "error" message) with
  | none => some (.resolved (field "result" message))
  | some error => if printable error then some (.rejected ⟨.response error, method⟩) else none

/-- The calls of a client. -/
structure Calls where
  nextId : ℕ := 1
  closed : Bool := false
  pending : List PendingCall := []
  settled : List (ℕ × Settlement) := []
  /-- The calls that were rejected because the client was closed. They have no number. -/
  refused : List String := []
  /-- The events that were dispatched. -/
  events : List (JsString × Option JsValue) := []

/-- What a handler does with an event: the calls it makes, each with the error of its write if
there is one, and whether it throws in the end. -/
structure Reaction where
  calls : List (String × Option String) := []
  throws : Bool := false

/-- The handlers of events. What they do may depend on all that has happened. -/
structure Handlers where
  /-- The handler of a token, if there is one. -/
  watch : Calls → JsString → JsValue → Option Reaction
  event : Calls → JsString → Option JsValue → List Reaction

namespace Calls

variable (handlers : Handlers) (calls : Calls)

/-- The first failure closes the client and rejects what is pending. -/
def failAll (reason : String) : Calls :=
  if calls.closed then calls
  else
    { calls with
      closed := true
      pending := []
      settled := calls.settled ++
        calls.pending.map fun call => (call.id, .rejected ⟨.failed reason, call.method⟩) }

/-- A call is registered under the next number and written. If the write throws, it is taken back
and rejected. -/
def call (method : String) (failure : Option String) : Calls :=
  if calls.closed then { calls with refused := calls.refused ++ [method] }
  else
    let id := calls.nextId
    match failure with
    | none =>
      { calls with
        nextId := id + 1
        pending := calls.pending ++ [⟨id, method⟩] }
    | some message =>
      { calls with
        nextId := id + 1
        settled := calls.settled ++ [(id, .rejected ⟨.write message, method⟩)] }

/-- The calls that a handler makes. -/
def react (reaction : Reaction) : Calls :=
  reaction.calls.foldl (fun calls made => calls.call made.1 made.2) calls

def emitEvent (event : JsString) (data : Option JsValue) : Calls :=
  (handlers.event calls event data).foldl react calls

/-- An event. The second value tells that the dispatch has thrown. -/
def onEvent (event : JsString) (data : Option JsValue) : Calls × Bool :=
  let calls := { calls with events := calls.events ++ [(event, data)] }
  if event = units "watch" then
    match present data with
    | none => (calls, true)
    | some value =>
      match ((field "token" value).bind JsonValue.asString).bind (handlers.watch calls · value) with
      | none => (calls.emitEvent handlers event data, false)
      | some reaction =>
        if reaction.throws then (calls.react reaction, true)
        else ((calls.react reaction).emitEvent handlers event data, false)
  else (calls.emitEvent handlers event data, false)

/-- A response. The call is not pending any more when its error is converted. -/
def respond (id : ℕ) (message : JsValue) : Calls × Bool :=
  match calls.pending.find? (·.id = id) with
  | none => (calls, false)
  | some call =>
    let calls := { calls with pending := calls.pending.filter (·.id ≠ id) }
    match settlement call.method message with
    | some result => ({ calls with settled := calls.settled ++ [(id, result)] }, false)
    | none => (calls, true)

def dispatch (message : JsValue) : Calls × Bool :=
  match eventName message with
  | some event => calls.onEvent handlers event (field "data" message)
  | none =>
    match responseId message with
    | some id => calls.respond id message
    | none => (calls, false)

/-- The loop over the frames of a chunk. It ends when a dispatch throws. -/
def dispatchAll : Calls → List JsValue → Calls
  | calls, [] => calls
  | calls, message :: messages =>
    match calls.dispatch handlers message with
    | (calls, true) => calls
    | (calls, false) => dispatchAll calls messages

end Calls

/-! ### The client -/

structure HelperRpcClient extends Calls where
  decoder : FrameDecoder := { maxFrameBytes := maxMessageBytes }

/-- What happens to a client. A call tells the error of its write, if there is one. -/
inductive Step
  | call (method : String) (failure : Option String)
  | data (chunk : List UInt8)
  | closed
  | ended
  | error (message : String)
  deriving DecidableEq

/-- The reason of a step that fails the client. -/
def Step.reason : Step → String
  | .call _ _ => ""
  | .data _ => ""
  | .closed => "helper stream closed"
  | .ended => "helper stream ended"
  | .error message => s!"helper stream error: {message}"

/-- The step with the bytes of its chunk one by one. -/
def Step.bytewise : Step → List Step
  | .data chunk => chunk.map fun byte => .data [byte]
  | step => [step]

section Client

variable {V : Type} (json : JavaScriptJson V) (read : V → JsValue) (handlers : Handlers)

namespace HelperRpcClient

variable (client : HelperRpcClient)

/-- All frames of the chunk are decoded before the first one is dispatched. -/
def onData (chunk : List UInt8) : HelperRpcClient :=
  match client.decoder.push json chunk with
  | (.error error, decoder) => { toCalls := client.failAll error.message, decoder }
  | (.ok messages, decoder) =>
    { toCalls := client.toCalls.dispatchAll handlers (messages.map read), decoder }

def step : Step → HelperRpcClient
  | .call method failure => { client with toCalls := client.toCalls.call method failure }
  | .data chunk => client.onData json read handlers chunk
  | step => { client with toCalls := client.failAll step.reason }

/-- The step as a step of a system: it is always possible. -/
def next (event : Step) : Option HelperRpcClient :=
  some (client.step json read handlers event)

end HelperRpcClient

/-! ### The account of a stream -/

/-- The calls of a client that dispatches each good frame of the stream in its turn, up to the
first bad one, with the frames that came while it was open. `since` is the number of frames that
were there when a call was made; for a call that is not made yet it is the number of all. -/
structure Account where
  calls : Calls := {}
  received : List JsValue := []
  since : ℕ → ℕ := fun _ => 0
  failure : Option FrameError := none

namespace Account

/-- Record a frame. -/
def log (account : Account) (message : JsValue) : Account :=
  let received :=
    if account.calls.closed then account.received else account.received ++ [message]
  { account with
    received
    since := fun id => if id < account.calls.nextId then account.since id else received.length }

def receive (account : Account) (message : JsValue) : Account :=
  { account.log message with calls := (account.calls.dispatch handlers message).1 }

def fail (account : Account) (reason : String) : Account :=
  { account with calls := account.calls.failAll reason }

/-- A bad frame: nothing is read behind it. -/
def spoil (account : Account) (error : FrameError) : Account :=
  { account.fail error.message with failure := some error }

/-- The frames of a stream, one by one. -/
def receiver : Receiver Account where
  frame account body :=
    match FrameDecoder.accept json body with
    | .ok value => account.receive handlers (read value)
    | .error message => account.spoil ⟨.malformed, message⟩
  oversize account length := account.spoil (.tooLarge length)
  halted account := account.failure.isSome
  halted_oversize _ _ := rfl

/-- An account with the bytes that wait for the rest of their frame. -/
def step (pair : Account × List UInt8) : Step → Account × List UInt8
  | .call method failure =>
    ({ pair.1 with calls := pair.1.calls.call method failure }, pair.2)
  | .data chunk => (receiver json read handlers).feed maxMessageBytes pair chunk
  | step => (pair.1.fail step.reason, pair.2)

/-- The account of what has happened to a client. -/
def ofSteps (events : List Step) : Account :=
  (events.foldl (step json read handlers) ({}, [])).1

end Account

/-- The message is a response that carries the number. -/
def answers (id : ℕ) (message : JsValue) : Bool :=
  (eventName message).isNone && responseId message = some id

/-- The first response to a call among the frames that came since it was made. -/
def Account.first (account : Account) (id : ℕ) : Option JsValue :=
  (account.received.drop (account.since id)).find? (answers id)

/-- The call was rejected because its write has thrown. -/
def Settlement.ByWrite (result : Settlement) : Prop :=
  ∃ message method, result = .rejected ⟨.write message, method⟩

/-- The call was rejected because the client has failed. -/
def Settlement.ByFailure (result : Settlement) : Prop :=
  ∃ reason method, result = .rejected ⟨.failed reason, method⟩

/-- The result that is a call's own: that of the first response to it, else a rejection. -/
def Settlement.Own (result : Settlement) : Option JsValue → Prop
  | some message => ∃ method, settlement method message = some result
  | none => result.ByFailure

/-- Each call is pending, as long as there is no response to it, or settled once with the result
that is its own; none is pending once the client has failed. -/
structure Account.Fair (account : Account) : Prop where
  once : (account.calls.settled.map Prod.fst ++ account.calls.pending.map PendingCall.id).Perm
    (List.range' 1 (account.calls.nextId - 1))
  waiting : ∀ call ∈ account.calls.pending, account.first call.id = none
  own : ∀ id result, (id, result) ∈ account.calls.settled →
    result.ByWrite ∨ result.Own (account.first id)
  closed : account.calls.closed = true → account.calls.pending = []

/-! ### Calm steps -/

/-- The message is no event and no response to a pending call. -/
def Idle (calls : Calls) (message : JsValue) : Prop :=
  eventName message = none ∧ ∀ call ∈ calls.pending, responseId message ≠ some call.id

instance (calls : Calls) (message : JsValue) : Decidable (Idle calls message) :=
  inferInstanceAs (Decidable (_ ∧ _))

/-- A message that is a response to a pending call has an error with a text, or none. -/
def Legible (calls : Calls) (message : JsValue) : Prop :=
  ¬ Idle calls message → eventName message = none →
    (present (field "error" message)).all printable = true

instance (calls : Calls) (message : JsValue) : Decidable (Legible calls message) :=
  inferInstanceAs (Decidable (_ → _ → _))

/-- Behind a message whose dispatch throws, there are only idle ones. -/
def Calm : Calls → List JsValue → Prop
  | _, [] => True
  | calls, message :: messages =>
    Legible calls message ∧
      match calls.dispatch handlers message with
      | (calls, true) => ∀ other ∈ messages, Idle calls other
      | (calls, false) => Calm calls messages

instance decidableCalm : ∀ calls messages, Decidable (Calm handlers calls messages)
  | _, [] => isTrue trivial
  | calls, message :: messages =>
    match hdispatch : calls.dispatch handlers message with
    | (next, true) =>
      decidable_of_iff (Legible calls message ∧ ∀ other ∈ messages, Idle next other) <| by
        rw [Calm, hdispatch]
    | (next, false) =>
      have := decidableCalm next messages
      decidable_of_iff (Legible calls message ∧ Calm handlers next messages) <| by
        rw [Calm, hdispatch]

/-- The good frames that a chunk completes are calm, and idle if a bad one stands behind them. -/
def CalmStep (client : HelperRpcClient) : Step → Prop
  | .data chunk => client.decoder.failure = none →
      let delivery := ((taker (FrameDecoder.accept json)).feed maxMessageBytes
        ({}, client.decoder.chunks.flatten) chunk).1
      if delivery.failure = none then Calm handlers client.toCalls (delivery.out.map read)
      else ∀ message ∈ delivery.out.map read, Idle client.toCalls message
  | _ => True

instance (client : HelperRpcClient) : ∀ event, Decidable (CalmStep json read handlers client event)
  | .data _ => inferInstanceAs (Decidable (_ → ite _ _ _))
  | .call _ _ => isTrue trivial
  | .closed => isTrue trivial
  | .ended => isTrue trivial
  | .error _ => isTrue trivial

end Client

end AgentCockpit.Remote.HelperRpc
