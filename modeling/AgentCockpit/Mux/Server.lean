import AgentCockpit.Core.Run
import AgentCockpit.Mux.Operations.Clients
import AgentCockpit.Mux.Protocol

/-!
# The socket server

The daemon serves every connection in a goroutine of its own. A goroutine reads a request,
runs the request handler, claims the session when the request was a successful attach, and
writes the response; a claim may first send an event to the connection that owned the
session and then closes it. When a goroutine ends it gives up the sessions its connection
owns. The goroutines interleave at every step: a frame is two writes, and the handler, the
claim and the clean-up take different locks.

The handler is any function on a state of its own, as the server has it. What MessagePack
does is a parameter.
-/

namespace AgentCockpit.Mux

/-- The request handler of a server over a state of type `σ`; a value of type `ε` settles
what the handler meets in its environment. -/
structure Wire (ε σ : Type) where
  handler : ε → σ → WireRequest → Except String Bytes × σ
  marshal : Message → Bytes
  decodeAttach : Bytes → Option AttachSessionRequest
  encodeDetach : DetachSessionRequest → Bytes

structure ConnectionOwner where
  connection : ℕ
  clientID : String
  clientKind : String
  projectID : String
  deriving DecidableEq, Repr

structure DetachedOwner where
  sessionID : String
  clientID : String
  projectID : String
  deriving DecidableEq, Repr

/-- What the goroutine of a connection does next. The flag of a write says that the header
has been written and the payload has not. -/
inductive Phase
  | unused
  | hello
  | reading
  | handling (request : WireRequest)
  | claiming (input : AttachSessionRequest) (projectID : String) (response : Bytes)
  | stealing (previous : ℕ) (event : Bytes) (half : Bool) (response : Bytes)
  | evicting (previous : ℕ) (response : Bytes)
  | responding (response : Bytes) (half last : Bool)
  | leaving
  | detaching (owners : List DetachedOwner)
  | closed
  deriving DecidableEq, Repr

/-- The server with the state of its handler. Connections are numbered; `reachable` says
that the peer has not gone. -/
structure Server (σ : Type) where
  operations : σ
  owners : List (String × ConnectionOwner) := []
  phase : ℕ → Phase := fun _ => .unused
  isOpen : ℕ → Bool := fun _ => false
  reachable : ℕ → Bool := fun _ => false
  written : ℕ → Bytes := fun _ => []

/-- One step of the server, by the connection whose goroutine takes it. -/
inductive ServerStep (ε : Type)
  | accept (connection : ℕ)
  | hello (connection version : ℕ)
  | request (connection : ℕ) (request : WireRequest)
  | handle (connection : ℕ) (env : ε)
  | claim (connection : ℕ)
  | write (connection : ℕ)
  | evict (connection : ℕ)
  | leave (connection : ℕ)
  | release (connection : ℕ) (order : List DetachedOwner)
  | detach (connection : ℕ) (env : ε)
  | close (connection : ℕ)
  | drop (connection : ℕ)

def methodSessionAttach : String := "session.attach"

def methodSessionDetach : String := "session.detach"

/-- What the owner of a session is told when another client takes it. -/
def stolenEvent (input : AttachSessionRequest) : Message :=
  .event "session.stolen" input.sessionID input.clientKind

namespace Server

variable {ε σ : Type} (wire : Wire ε σ) (server : Server σ)

/-- Move the goroutine of a connection on. -/
def enter (connection : ℕ) (phase : Phase) : Server σ :=
  { server with phase := Function.update server.phase connection phase }

def owner (sessionID : String) : Option ConnectionOwner :=
  (server.owners.find? (·.1 = sessionID)).map (·.2)

def setOwner (sessionID : String) (owner : ConnectionOwner) : Server σ :=
  { server with owners := server.owners.filter (·.1 ≠ sessionID) ++ [(sessionID, owner)] }

/-- Bytes reach a connection while it is open and its peer has not gone. -/
def writable (connection : ℕ) : Bool :=
  server.isOpen connection && server.reachable connection

/-- Append to the byte stream of a connection. -/
def send (connection : ℕ) (data : Bytes) : Server σ :=
  { server with
    written := Function.update server.written connection (server.written connection ++ data) }

/-- One of the two calls with which a frame is written. A payload that is too large is not
written at all. The next phases are those after the header, after the payload, and after
an error. -/
def writeFrame (connection target : ℕ) (payload : Bytes) (half : Bool)
    (header done failed : Phase) : Server σ :=
  if half = false ∧ maxFrameBytes < payload.length then server.enter connection failed
  else if server.writable target then
    if half then (server.send target payload).enter connection done
    else (server.send target (frameHeader payload.length)).enter connection header
  else server.enter connection failed

/-- The phase after the handler has answered. -/
def answered (request : WireRequest) (outcome : Except String Bytes) : Phase :=
  match outcome with
  | .error err => .responding (wire.marshal (.response request.id [] err)) false false
  | .ok data =>
    let response := wire.marshal (.response request.id data "")
    match if request.method = methodSessionAttach then wire.decodeAttach request.data else none with
    | some input => .claiming input request.projectID response
    | none => .responding response false false

/-- `claimAttach`, up to the event: the connection becomes the owner of the session. -/
def claimAttach (connection : ℕ) (input : AttachSessionRequest) (projectID : String)
    (response : Bytes) : Server σ :=
  if input.sessionID = "" ∨ input.clientID = "" then
    server.enter connection (.responding response false false)
  else
    let claimed := server.setOwner input.sessionID
      ⟨connection, input.clientID, input.clientKind, projectID⟩
    match server.owner input.sessionID with
    | none => claimed.enter connection (.responding response false false)
    | some previous =>
      if previous.connection = connection then
        claimed.enter connection (.responding response false false)
      else if previous.clientID ≠ input.clientID then
        claimed.enter connection
          (.stealing previous.connection (wire.marshal (stolenEvent input)) false response)
      else claimed.enter connection (.evicting previous.connection response)

/-- The sessions a connection owns. -/
def owned (connection : ℕ) : List DetachedOwner :=
  (server.owners.filter (·.2.connection = connection)).map fun entry =>
    ⟨entry.1, entry.2.clientID, entry.2.projectID⟩

def disown (connection : ℕ) : Server σ :=
  { server with owners := server.owners.filter (·.2.connection ≠ connection) }

/-- The request with which the clean-up of a connection gives up a session. -/
def detachRequest (owner : DetachedOwner) : WireRequest where
  id := 0
  method := methodSessionDetach
  projectID := owner.projectID
  data := wire.encodeDetach ⟨owner.sessionID, owner.clientID⟩

def step : ServerStep ε → Option (Server σ)
  | .accept connection =>
    match server.phase connection with
    | .unused => some
        { server.enter connection .hello with
          isOpen := Function.update server.isOpen connection true
          reachable := Function.update server.reachable connection true }
    | _ => none
  | .hello connection version =>
    match server.phase connection with
    | .hello =>
      if version = protocolVersion then some (server.enter connection .reading)
      else some (server.enter connection
        (.responding (wire.marshal (.response 0 [] (versionMismatch version))) false true))
    | _ => none
  | .request connection request =>
    match server.phase connection with
    | .reading =>
      some (server.enter connection (if request.valid then .handling request else .leaving))
    | _ => none
  | .handle connection env =>
    match server.phase connection with
    | .handling request =>
      let (outcome, operations) := wire.handler env server.operations request
      some ({ server with operations }.enter connection (answered wire request outcome))
    | _ => none
  | .claim connection =>
    match server.phase connection with
    | .claiming input projectID response =>
      some (server.claimAttach wire connection input projectID response)
    | _ => none
  | .write connection =>
    match server.phase connection with
    | .stealing previous event half response =>
      some (server.writeFrame connection previous event half
        (.stealing previous event true response) (.evicting previous response)
        (.evicting previous response))
    | .responding response half last =>
      some (server.writeFrame connection connection response half
        (.responding response true last) (if last then .leaving else .reading) .leaving)
    | _ => none
  | .evict connection =>
    match server.phase connection with
    | .evicting previous response => some
        { server.enter connection (.responding response false false) with
          isOpen := Function.update server.isOpen previous false }
    | _ => none
  | .leave connection =>
    match server.phase connection with
    | .hello | .reading => some (server.enter connection .leaving)
    | _ => none
  | .release connection order =>
    match server.phase connection with
    | .leaving =>
      if order.Perm (server.owned connection) then
        some ((server.disown connection).enter connection (.detaching order))
      else none
    | _ => none
  | .detach connection env =>
    match server.phase connection with
    | .detaching (owner :: rest) =>
      let (_, operations) := wire.handler env server.operations (detachRequest wire owner)
      some ({ server with operations }.enter connection (.detaching rest))
    | _ => none
  | .close connection =>
    match server.phase connection with
    | .detaching [] => some
        { server.enter connection .closed with
          isOpen := Function.update server.isOpen connection false }
    | _ => none
  | .drop connection => some
      { server with reachable := Function.update server.reachable connection false }

end Server

end AgentCockpit.Mux
