import AgentCockpit.Core.Run
import AgentCockpit.Mux.Operations.Clients

/-!
# Requests

The requests the daemon serves. A request is two steps under the daemon's lock: its ids are
checked against the project of the client, and then its handler runs. Between the two the
daemon may serve others. Processes end and attachments write to the databases at any time.

The check reads the ids of a request from a MessagePack map, the handler from a record. An
id encoded as binary is no string for the first and is one for the second.
-/

namespace AgentCockpit.Mux

open AgentCockpit.Core

inductive Operation
  | sessionCreate (input : CreateSessionRequest)
  | paneWrite (input : WritePaneRequest)
  | paneResize (input : ResizePaneRequest)
  | paneOutput (input : ReadPaneOutputRequest)
  | paneBroadcast (input : SetPaneBroadcastRequest)
  | scrollbackQuery (input : ScrollbackQueryRequest)
  | muxConfigure (input : ConfigureMuxRequest)
  | muxShutdown
  | sessionAttach (input : AttachSessionRequest)
  | sessionDetach (input : DetachSessionRequest)
  | sessionDestroy (input : DestroySessionRequest)
  | sessionList
  | sessionTopology
  | sessionPin (input : PinSessionRequest)
  | sessionBroadcastScope (input : SetBroadcastScopeRequest)
  | windowSelect (input : SelectWindowRequest)
  | paneSelect (input : SelectPaneRequest)
  | paneZoom (input : ZoomPaneRequest)
  | paneSplit (input : SplitPaneRequest)
  | paneResizeSplit (input : ResizeSplitRequest)
  | windowNew (input : NewWindowRequest)
  | windowDestroy (input : DestroyWindowRequest)
  | unknown (method : String)
  deriving DecidableEq, Repr

namespace Operation

/-- The `session_id` of a request, empty when it has none. -/
def sessionID : Operation → String
  | sessionAttach input => input.sessionID
  | sessionDetach input => input.sessionID
  | sessionDestroy input => input.sessionID
  | sessionPin input => input.sessionID
  | sessionBroadcastScope input => input.sessionID
  | windowSelect input => input.sessionID
  | paneSelect input => input.sessionID
  | paneZoom input => input.sessionID
  | paneResizeSplit input => input.sessionID
  | windowNew input => input.sessionID
  | windowDestroy input => input.sessionID
  | _ => ""

/-- The `pane_id` of a request, empty when it has none. -/
def paneID : Operation → String
  | paneWrite input => input.paneID
  | paneResize input => input.paneID
  | paneOutput input => input.paneID
  | paneBroadcast input => input.paneID
  | scrollbackQuery input => input.paneID
  | paneSelect input => input.paneID
  | paneZoom input => input.paneID
  | paneSplit input => input.paneID
  | paneResizeSplit input => input.paneID
  | _ => ""

/-- The requests that name no session or pane. -/
def isUnscoped : Operation → Bool
  | sessionCreate _ | sessionList | sessionTopology | muxConfigure _ | muxShutdown => true
  | _ => false

end Operation

/-- A request of a client. The flags say which of its ids are encoded as text. -/
structure Request where
  operation : Operation
  projectID : String := ""
  sessionText : Bool := true
  paneText : Bool := true
  deriving DecidableEq, Repr

/-- The project a request acts in. Only a listing may have none. -/
def Request.project (request : Request) : String :=
  if request.projectID = "" ∧ request.operation ≠ .sessionList then "standalone"
  else request.projectID

/-- An id is checked when it is text and not empty. -/
def checked (text : Bool) (id : String) : Prop :=
  text = true ∧ id ≠ ""

instance (text : Bool) (id : String) : Decidable (checked text id) :=
  inferInstanceAs (Decidable (_ ∧ _))

variable (env : Env)

/-- A session found under a checked id belongs to the project. -/
def inProject (found : Option ManagedSession) (projectID : String) : Prop :=
  ∀ session ∈ found, session.projectID = projectID

instance (found : Option ManagedSession) (projectID : String) :
    Decidable (inProject found projectID) :=
  match found with
  | none => .isTrue nofun
  | some session => decidable_of_iff (session.projectID = projectID) (by simp [inProject])

/-- The first step of a request. -/
def authorizeProject (request : Request) : OpsM Unit := do
  let operations ← get
  require (request.operation.isUnscoped = false →
    (checked request.sessionText request.operation.sessionID →
      inProject (logicalSession env operations.sessions request.operation.sessionID)
        request.project) ∧
    (checked request.paneText request.operation.paneID →
      inProject (findPane operations.sessions request.operation.paneID) request.project))
    .projectScope

inductive Response
  | done
  | created (response : CreateSessionResponse)
  | written (count : ℕ)
  | outputs (response : ReadPaneOutputResponse)
  | lines (lines : List ScrollbackLine)
  | configured (response : ConfigureMuxResponse)
  | attached (response : AttachSessionResponse)
  | destroyed (sessionID : String)
  | sessions (items : List SessionListItem)
  | topology (response : TopologyResponse)

def responding {α : Type} (response : α → Response) (x : OpsM α) : OpsM Response := do
  let value ← x
  pure (response value)

/-- The second step of a request. -/
def handleMethod (request : Request) : OpsM Response :=
  match request.operation with
  | .sessionCreate input => responding .created (create env input request.project)
  | .paneWrite input => responding .written (write env input)
  | .paneResize input => responding (fun _ => .done) (resize env input)
  | .paneOutput input => responding .outputs (output env input)
  | .paneBroadcast input => responding (fun _ => .done) (setBroadcast input)
  | .scrollbackQuery input => responding .lines (scrollback env input)
  | .muxConfigure input => responding .configured (configure env input)
  | .muxShutdown => responding (fun _ => .done) shutdown
  | .sessionAttach input => responding .attached (attach env input)
  | .sessionDetach input => responding (fun _ => .done) (detach input)
  | .sessionDestroy input => responding .destroyed (destroy env input)
  | .sessionList => responding .sessions (list request.project)
  | .sessionTopology => responding .topology (topology env request.project)
  | .sessionPin input => responding (fun _ => .done) (pin env input)
  | .sessionBroadcastScope input => responding (fun _ => .done) (setBroadcastScope env input)
  | .windowSelect input => responding .topology (selectWindow env input)
  | .paneSelect input => responding .topology (selectPane env input)
  | .paneZoom input => responding .topology (zoomPane env input)
  | .paneSplit input => responding .created (split env input)
  | .paneResizeSplit input => responding .topology (resizeSplit env input)
  | .windowNew input => responding .created (newWindow env input)
  | .windowDestroy input => responding .topology (destroyWindow env input)
  | .unknown method => throw (.unknownOperation method)

/-- The attachment of a registered pane writes on its own. -/
def backgroundWrite (paneID : String) (write : AttachmentWrite) : OpsM Unit := do
  let session ← requirePane paneID
  require session.attached .paneNotFound
  attachmentWrites env paneID [write]

/-- A step of the daemon: a handler runs, a process ends, or an attachment writes. -/
inductive Event
  | handle (env : Env) (request : Request)
  | paneExit (env : Env) (sessionID : String) (diagnostic : Option String)
  | attachmentWrite (env : Env) (paneID : String) (write : AttachmentWrite)

/-- The state after a step; a step that fails keeps what it did before. -/
def Operations.after (operations : Operations) : Event → Operations
  | .handle env request => (exec (handleMethod env request) operations).2
  | .paneExit env sessionID diagnostic =>
    (exec (watchPaneExit env sessionID diagnostic) operations).2
  | .attachmentWrite env paneID write => (exec (backgroundWrite env paneID write) operations).2

def Operations.step (operations : Operations) (event : Event) : Option Operations :=
  some (operations.after event)

/-- A daemon without sessions over empty databases. The empty path stands for a daemon
without a home. -/
def Operations.fresh (persistencePath topologyEpoch : String) (persistScrollback : Bool)
    (scrollbackLines : ℕ) : Operations :=
  { persistencePath, topologyEpoch, persistScrollback, scrollbackLines }

end AgentCockpit.Mux
