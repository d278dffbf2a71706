import AgentCockpit.Mux.Operations.Lifecycle

/-!
# Requests on a single pane

Reading and writing a pane, attaching to it and detaching from it, its broadcast and pin
flags, and the policy that is common to all panes.
-/

namespace AgentCockpit.Mux

open AgentCockpit.Core

variable (env : Env)

/-! ### Input and output -/

structure WritePaneRequest where
  paneID : String
  clientID : String := ""
  data : Bytes
  kind : String := ""
  deriving DecidableEq, Repr

/-- Input that is repeated on the peers of a pane. -/
def broadcasts (session : ManagedSession) (kind : String) : Prop :=
  session.broadcast ∧ session.clientKind ≠ "tty" ∧ (kind = "" ∨ kind = "input")

instance (session : ManagedSession) (kind : String) : Decidable (broadcasts session kind) :=
  inferInstanceAs (Decidable (_ ∧ _))

/-- The panes that repeat the input of a pane. -/
def broadcastPeers (sessions : List ManagedSession) (session : ManagedSession) :
    List ManagedSession :=
  (env.walk .broadcast sessions).filter fun peer =>
    peer.id ≠ session.id ∧ peer.broadcastGroup = session.broadcastGroup ∧
      peer.logicalSessionID = session.logicalSessionID ∧ peer.broadcast ∧ peer.pane.isSome ∧
      (session.broadcastScope = "window" → peer.windowID = session.windowID)

def broadcastWrite (data : Bytes) (peer : ManagedSession) : OpsM Unit := do
  let _ ← callPane env peer.paneID (.write data) (env.writeInput peer.paneID)
    s!"broadcast mux pane {peer.paneID}: "

def broadcastInput (session : ManagedSession) (input : WritePaneRequest) : OpsM Unit := do
  let operations ← get
  if broadcasts session input.kind then
    (broadcastPeers env operations.sessions session).forM (broadcastWrite env input.data)
  else pure ()

def write (input : WritePaneRequest) : OpsM ℕ := do
  requireMutable
  let session ← requirePane input.paneID
  requireClient session input.clientID
  require session.pane.isSome (.paneExited "")
  let written ← callPane env session.paneID (.write input.data) (env.writeInput session.paneID) ""
  broadcastInput env session input
  pure written

structure ReadPaneOutputRequest where
  paneID : String
  clientID : String := ""
  fromSequence : ℕ
  deriving DecidableEq, Repr

structure ReadPaneOutputResponse where
  outputs : List Output
  exited : Bool
  deriving DecidableEq

def maxOutputResponseBytes : ℕ := 8 <<< 20

/-- The output of a pane; a pane without an output history has none. -/
def readOutputs (session : ManagedSession) (fromSequence : ℕ) : OpsM (List Output) :=
  if session.outputHistory then
    callPane env session.paneID (.outputs fromSequence maxOutputResponseBytes)
      (.ok (env.outputs session.paneID)) ""
  else pure []

def output (input : ReadPaneOutputRequest) : OpsM ReadPaneOutputResponse := do
  let session ← requirePane input.paneID
  requireClient session input.clientID
  let outputs ← readOutputs env session input.fromSequence
  pure ⟨outputs, session.pane.isNone⟩

structure ScrollbackQueryRequest where
  paneID : String
  clientID : String := ""
  before : ℕ
  count : ℕ
  deriving DecidableEq, Repr

def readScrollback (session : ManagedSession) (before count : ℕ) : OpsM (List ScrollbackLine) :=
  if session.attached then
    callPane env session.paneID (.scrollback before count) (env.scrollback session.paneID)
      "query mux scrollback: "
  else pure []

def scrollback (input : ScrollbackQueryRequest) : OpsM (List ScrollbackLine) := do
  require (input.count ≠ 0 ∧ input.count ≤ 1000)
    (.failed "scrollback query count must be between 1 and 1000")
  let session ← requirePane input.paneID
  requireClient session input.clientID
  readScrollback env session input.before input.count

/-! ### Geometry and ownership -/

structure ResizePaneRequest where
  paneID : String
  clientID : String := ""
  cols : ℕ
  rows : ℕ
  deriving DecidableEq, Repr

def setGeometry (cols rows : ℕ) (session : ManagedSession) : ManagedSession :=
  { session with cols, rows }

def resize (input : ResizePaneRequest) : OpsM Unit := do
  require (input.cols ≠ 0 ∧ input.rows ≠ 0) .invalidGeometry
  requireMutable
  let session ← requirePane input.paneID
  requireClient session input.clientID
  require session.pane.isSome (.paneExited "")
  callPane env session.paneID (.resize input.cols input.rows) (env.resize session.paneID)
    "resize mux pane: "
  modifySession session.id (setGeometry input.cols input.rows)
  persistTopology env (setGeometry input.cols input.rows session)

structure AttachSessionRequest where
  sessionID : String
  clientID : String := ""
  clientKind : String := ""
  rendererFeatures : List String := []
  cols : ℕ
  rows : ℕ
  cellWidth : ℕ := 0
  cellHeight : ℕ := 0
  deriving DecidableEq, Repr

structure AttachSessionResponse where
  sessionID : String
  paneID : String
  seed : Bytes := []
  graphicsSeed : Bytes := []
  resumeSequence : ℕ := 0
  stole : Bool := false
  deriving DecidableEq, Repr

def supportsDirectGraphics (features : List String) : Bool :=
  features.any (· = "direct_graphics_v1")

def setOwner (clientID clientKind : String) (session : ManagedSession) : ManagedSession :=
  if clientID = "" then session else { session with clientID, clientKind }

def requireReadable : OpsM Unit := do
  let operations ← get
  match operations.recoveryErr with
  | some err => throw (.failed err)
  | none => pure ()

/-- The seed of an attached pane; a pane without a data path is only resized. -/
def seedPane (session : ManagedSession) (input : AttachSessionRequest) : OpsM (Option Seed) :=
  if session.attached then do
    let seed ← callPane env session.paneID
      (.attach input.cols input.rows input.cellWidth input.cellHeight) (env.attach session.paneID)
      "seed mux pane: "
    pure (some seed)
  else
    match session.pane with
    | none => throw (.paneExited session.recoveryDiagnostic)
    | some _ => do
      callPane env session.paneID (.resize input.cols input.rows) (env.resize session.paneID)
        "resize mux pane before attach: "
      pure none

def attachResponse (session : ManagedSession) (input : AttachSessionRequest)
    (seed : Option Seed) : AttachSessionResponse where
  sessionID := session.id
  paneID := session.paneID
  seed := (seed.map (·.data)).getD []
  graphicsSeed :=
    if supportsDirectGraphics input.rendererFeatures then (seed.map (·.graphics)).getD [] else []
  resumeSequence := (seed.map (·.resumeSequence)).getD 0
  stole := input.clientID ≠ "" ∧ session.clientID ≠ "" ∧ session.clientID ≠ input.clientID

def attach (input : AttachSessionRequest) : OpsM AttachSessionResponse := do
  require (input.cols ≠ 0 ∧ input.rows ≠ 0) .invalidGeometry
  requireMutable
  requireReadable
  let session ← requireSession input.sessionID
  -- the client owns the session from here on, whether or not the rest succeeds
  modifySession session.id (setOwner input.clientID input.clientKind)
  let seed ← seedPane env session input
  modifySession session.id (setGeometry input.cols input.rows)
  persistTopology env (setGeometry input.cols input.rows session)
  pure (attachResponse session input seed)

structure DetachSessionRequest where
  sessionID : String
  clientID : String := ""
  deriving DecidableEq, Repr

def clearOwner (session : ManagedSession) : ManagedSession :=
  { session with clientID := "", clientKind := "" }

def detach (input : DetachSessionRequest) : OpsM Unit := do
  requireMutable
  let session ← requireSession input.sessionID
  requireClient session input.clientID
  modifySession session.id clearOwner

/-! ### Flags -/

structure SetPaneBroadcastRequest where
  paneID : String
  clientID : String := ""
  enabled : Bool
  deriving DecidableEq, Repr

def setBroadcast (input : SetPaneBroadcastRequest) : OpsM Unit := do
  requireMutable
  let session ← requirePane input.paneID
  requireClient session input.clientID
  modifySession session.id fun session => { session with broadcast := input.enabled }

structure PinSessionRequest where
  sessionID : String
  pinned : Bool
  deriving DecidableEq, Repr

def setPinned (pinned : Bool) (session : ManagedSession) : ManagedSession :=
  { session with pinned }

def pin (input : PinSessionRequest) : OpsM Unit := do
  requireMutable
  let session ← requireSession input.sessionID
  modifySession session.id (setPinned input.pinned)
  onError (persistPin env (setPinned input.pinned session))
    (modifySession session.id (setPinned session.pinned))

structure SetBroadcastScopeRequest where
  sessionID : String
  scope : String
  deriving DecidableEq, Repr

def setScope (logicalSessionID scope : String) (session : ManagedSession) : ManagedSession :=
  if session.logicalSessionID = logicalSessionID then { session with broadcastScope := scope }
  else session

def setBroadcastScope (input : SetBroadcastScopeRequest) : OpsM Unit := do
  require (input.scope = "window" ∨ input.scope = "session")
    (.failed "mux broadcast scope must be window or session")
  requireMutable
  let root ← requireLogicalSession env input.sessionID
  modify fun operations =>
    { operations with
      sessions := operations.sessions.map (setScope root.logicalSessionID input.scope) }

/-! ### The common policy -/

structure ConfigureMuxRequest where
  persistScrollback : Bool
  scrollbackLines : ℕ := 0
  deriving DecidableEq, Repr

structure ConfigureMuxResponse where
  persistScrollback : Bool
  scrollbackLines : ℕ
  deriving DecidableEq, Repr

/-- Erase the recorded terminal content of every pane, and record the catalog again. -/
def eraseContent : OpsM Unit :=
  whenPersistent do
    openHistory env "open mux history archive for privacy change: "
    historyCall env "erase mux history archive for privacy change: " fun history =>
      .ok history.clear
    openHistory env "close mux history archive for privacy change: "
    openStore env "open mux recovery record for privacy change: "
    storeCall env "erase mux recovery content for privacy change: " fun store =>
      .ok store.clearContent
    openStore env "close mux recovery record for privacy change: "
    let operations ← get
    (env.walk .policy operations.sessions).forM (persistTopology env)

def applyPolicy (policy : ConfigureMuxResponse) (session : ManagedSession) : OpsM Unit :=
  if session.attached then do
    callPane env session.paneID (.setPersistScrollback policy.persistScrollback)
      (env.setPersistScrollback session.paneID) "apply mux persistence policy: "
    callPane env session.paneID (.setScrollbackLines policy.scrollbackLines)
      (env.setScrollbackLines session.paneID) "apply mux scrollback line target: "
  else pure ()

def eraseUnlessKept (policy : ConfigureMuxResponse) : OpsM Unit :=
  if policy.persistScrollback then pure () else eraseContent env

/-- Change the policy and carry it to every attachment. -/
def changePolicy (policy : ConfigureMuxResponse) : OpsM Unit := do
  eraseUnlessKept env policy
  modify fun operations =>
    { operations with
      persistScrollback := policy.persistScrollback
      scrollbackLines := policy.scrollbackLines }
  let operations ← get
  (env.walk .policy operations.sessions).forM (applyPolicy env policy)

/-- Nothing is done when the daemon already has the policy. -/
def adoptPolicy (policy : ConfigureMuxResponse) : OpsM Unit := do
  let operations ← get
  if operations.persistScrollback = policy.persistScrollback ∧
      operations.scrollbackLines = policy.scrollbackLines then pure ()
  else changePolicy env policy

/-- The policy a request asks for; zero lines stand for the default. -/
def requestedPolicy (input : ConfigureMuxRequest) : ConfigureMuxResponse where
  persistScrollback := input.persistScrollback
  scrollbackLines :=
    if input.scrollbackLines = 0 then defaultScrollbackLines else input.scrollbackLines

def configure (input : ConfigureMuxRequest) : OpsM ConfigureMuxResponse := do
  requireMutable
  require ((requestedPolicy input).scrollbackLines ≤ maxScrollbackLines)
    (.failed s!"mux scrollback line target must be between 1 and {maxScrollbackLines}")
  adoptPolicy env (requestedPolicy input)
  pure (requestedPolicy input)

/-- The daemon is not stopped while a process runs. -/
def shutdown : OpsM Unit := do
  let operations ← get
  require (operations.sessions.all (·.pane.isNone)) .liveSessions

end AgentCockpit.Mux
