import AgentCockpit.Core.Effect
import AgentCockpit.Mux.Operations.State

/-!
# The daemon and its databases

What the daemon meets outside its own state, and how it writes its catalog. `Env` carries
the outcome of every call one request makes: to processes and terminals, to the databases,
and the order in which Go walks a map. The database calls of a daemon are numbered, and
`fault` fails the call with a given number; a failed call leaves the database as it was.
-/

namespace AgentCockpit.Mux

open AgentCockpit.Core

inductive MuxError
  | sessionExists
  | sessionNotFound
  | paneNotFound
  | invalidGeometry
  | commandRequired
  | paneExited (diagnostic : String)
  | liveSessions
  | sessionStolen
  | handoffInProgress
  | recoveryConflict (cause : String)
  | projectScope
  | unknownOperation (method : String)
  | failed (message : String)
  deriving DecidableEq, Repr

def MuxError.message : MuxError → String
  | sessionExists => "mux session already exists"
  | sessionNotFound => "mux session not found"
  | paneNotFound => "mux pane not found"
  | invalidGeometry => "mux pane geometry must be non-zero"
  | commandRequired => "mux pane command is required"
  | paneExited diagnostic =>
    if diagnostic = "" then "mux pane is recovered and read-only"
    else "mux pane is recovered and read-only: " ++ diagnostic
  | liveSessions => "mux shutdown refused while live sessions exist"
  | sessionStolen => "mux session is attached by another client"
  | handoffInProgress => "mux handoff is in progress"
  | recoveryConflict cause =>
    "mux recovery record must be explicitly destroyed before creating a session: " ++ cause
  | projectScope => "mux request cannot access another project's session"
  | unknownOperation method => "unknown mux operation: " ++ method
  | failed message => message

structure CreateSessionRequest where
  command : String
  args : List String := []
  cwd : String := ""
  key : String := ""
  broadcastGroup : String := ""
  projectID : String := ""
  deriving DecidableEq, Repr

/-- The places where a request walks the map of sessions. -/
inductive MapWalk
  | logicalSession | broadcast | windowPanes | focus | remaining | policy | reap
  deriving DecidableEq, Repr

/-- What the attachment of a pane writes to the databases: a keyframe, the chunks it
held back, or a batch of the archive. -/
inductive AttachmentWrite
  | keyframe (keyframe : Keyframe)
  | tail (chunks : List TailChunk)
  | archive (firstLine lastLine : ℕ) (data : Bytes)
  deriving DecidableEq, Repr

/-- The outcomes of the calls of one request, by the pane they are made on.
`startAttachment` has no keyframe in a build without the terminal engine, and `writes` is
what an attachment writes while it serves a call. -/
structure Env where
  startPane : CreateSessionRequest → Except String Pane
  startAttachment : Except String (Option Keyframe)
  writeInput : String → Except String ℕ
  resize : String → Except String Unit
  attach : String → Except String Seed
  outputs : String → List Output
  scrollback : String → Except String (List ScrollbackLine)
  setPersistScrollback : String → Except String Unit
  setScrollbackLines : String → Except String Unit
  terminate : String → Except String Unit
  geometry : String → Except String (ℕ × ℕ)
  writes : String → PaneAction → List AttachmentWrite
  walk : MapWalk → List ManagedSession → List ManagedSession
  walk_perm : ∀ site sessions, (walk site sessions).Perm sessions
  fault : ℕ → Option String
  now : ℕ

/-- The environment in which every call succeeds, over terminals that show one byte. -/
def Env.calm : Env where
  startPane _ := .ok ⟨3, 100, "100:1"⟩
  startAttachment := .ok (some ⟨"engine", [46], [46], [], "grounded"⟩)
  writeInput _ := .ok 1
  resize _ := .ok ()
  attach _ := .ok ⟨[46], [], 0⟩
  outputs _ := []
  scrollback _ := .ok []
  setPersistScrollback _ := .ok ()
  setScrollbackLines _ := .ok ()
  terminate _ := .ok ()
  geometry _ := .ok (80, 24)
  writes _ _ := []
  walk _ sessions := sessions
  walk_perm _ _ := .refl _
  fault _ := none
  now := 0

/-- A step of the daemon: it may fail, and keeps what it did before. -/
abbrev OpsM := ExceptT MuxError (StateM Operations)

variable (env : Env)

/-! ### Database calls -/

def Operations.tick (operations : Operations) : Operations :=
  { operations with storeCalls := operations.storeCalls + 1 }

/-- One call to `state.db`. -/
def storeCall (context : String) (call : Store → Except String Store) : OpsM Unit := do
  let operations ← get
  set operations.tick
  let store ← orRaise (orFail (env.fault operations.storeCalls) (call operations.store))
    fun err => .failed (context ++ err)
  modify fun operations => { operations with store }

/-- One call to `history.db`. -/
def historyCall (context : String) (call : HistoryStore → Except String HistoryStore) :
    OpsM Unit := do
  let operations ← get
  set operations.tick
  let history ← orRaise (orFail (env.fault operations.storeCalls) (call operations.history))
    fun err => .failed (context ++ err)
  modify fun operations => { operations with history }

/-- Opening a database, or closing one whose error is looked at. -/
def openStore (context : String) : OpsM Unit :=
  storeCall env context .ok

def openHistory (context : String) : OpsM Unit :=
  historyCall env context .ok

/-- A daemon without a home keeps nothing. -/
def whenPersistent (x : OpsM Unit) : OpsM Unit := do
  let operations ← get
  if operations.persistencePath = "" then pure () else x

/-! ### Panes and their attachments -/

/-- The pane whose recorder also keeps the legacy record. -/
def primaryPane : String := paneName 1

/-- The legacy record is kept for the primary pane only. -/
def mirrorLegacy (paneID : String) (x : OpsM Unit) : OpsM Unit :=
  if paneID = primaryPane then x else pure ()

/-- One write of an attachment: the legacy record first, then the record of the pane. -/
def attachmentWrite (paneID : String) : AttachmentWrite → OpsM Unit
  | .keyframe keyframe => do
    mirrorLegacy paneID (storeCall env "save mux recovery keyframe: " (·.saveKeyframe keyframe))
    storeCall env "save mux catalog keyframe: " (·.savePaneKeyframe paneID keyframe)
  | .tail chunks => do
    mirrorLegacy paneID (storeCall env "append mux recovery tail batch: " (·.appendBatch chunks))
    storeCall env "append mux catalog tail batch: " (·.appendPaneBatch paneID chunks)
  | .archive firstLine lastLine data =>
    historyCall env "append mux history batch: "
      (·.append ⟨paneID, paneID, firstLine, lastLine, data⟩)

def attachmentWrites (paneID : String) (writes : List AttachmentWrite) : OpsM Unit :=
  whenPersistent (writes.forM fun write => bestEffort (attachmentWrite env paneID write))

def recordCall (paneID : String) (action : PaneAction) : OpsM Unit :=
  modify fun operations =>
    { operations with paneCalls := operations.paneCalls ++ [⟨paneID, action⟩] }

/-- One call to a pane. -/
def callPane {α : Type} (paneID : String) (action : PaneAction) (outcome : Except String α)
    (context : String) : OpsM α := do
  recordCall paneID action
  attachmentWrites env paneID (env.writes paneID action)
  orRaise outcome fun err => .failed (context ++ err)

/-- Start the native data path of a new pane; its recorder writes a first keyframe. -/
def newSessionAttachment (session : ManagedSession) : OpsM Bool := do
  let shadow ← orRaise env.startAttachment fun err => .failed ("start mux shadow: " ++ err)
  match shadow with
  | none => pure false
  | some keyframe => do
    whenPersistent do
      openStore env "start mux shadow: "
      attachmentWrite env session.paneID (.keyframe keyframe)
      openHistory env "start mux shadow: "
    pure true

/-! ### Interaction state -/

/-- Reconcile the state of a logical session with the registered panes. -/
def Operations.normalizeTopology (operations : Operations) (logicalID : String) : Operations :=
  { operations with
    topologyState := setAt operations.topologyState logicalID
      (normalizeState operations.sessions logicalID (operations.topologyState logicalID)) }

def topologyState (logicalID : String) : OpsM TopologyState := do
  modify (·.normalizeTopology logicalID)
  let operations ← get
  pure (operations.topologyState logicalID)

def setTopologyState (logicalID : String) (state : TopologyState) : OpsM Unit :=
  modify fun operations =>
    { operations with topologyState := setAt operations.topologyState logicalID state }

/-- The position of a window in the placement of its session, or the next free one. -/
def windowPlacementIndex (session : ManagedSession) : OpsM ℕ := do
  let state ← topologyState (logicalSessionID session)
  pure (state.windowOrder.idxOf session.windowID)

/-! ### Writers of the catalog -/

def sessionRecord (session : ManagedSession) : SessionRecord where
  id := session.logicalSessionID
  name := if session.key = "" then session.logicalSessionID else session.key
  projectID := session.projectID
  kind := "local"
  status := "live"
  pinned := session.pinned
  createdAt := env.now
  lastAttachedAt := env.now

def paneRecord (session : ManagedSession) : PaneRecord where
  id := session.paneID
  windowID := session.windowID
  sessionID := session.logicalSessionID
  cwd := session.cwd
  command := session.command
  cols := session.cols
  rows := session.rows
  broadcast := session.broadcast

/-- Record a pane with its window and session. The window's layout is reset. -/
def persistTopology (session : ManagedSession) : OpsM Unit :=
  whenPersistent do
    openStore env "open mux lifecycle catalog: "
    storeCall env "persist mux session lifecycle: " (·.upsertSession (sessionRecord env session))
    let index ← windowPlacementIndex session
    storeCall env "persist mux window lifecycle: " (·.upsertWindow
      { id := session.windowID, sessionID := session.logicalSessionID, name := session.windowID
        index, layoutJSON := {} })
    storeCall env "persist mux pane lifecycle: " (·.upsertPane (paneRecord session))

/-- The text of a tree can be written when its ratios are finite. -/
def TopologyLayoutNode.encodable : TopologyLayoutNode → Bool
  | .nil => true
  | .node _ _ ratio first second =>
    isFiniteSplitRatio ratio && first.encodable && second.encodable

def windowSnapshot (state : TopologyState) (windowID : String) : PersistedWindowTopology where
  activeWindow := state.activeWindowID = windowID
  activePaneID := state.activePaneByWindow windowID
  zoomedPaneID := state.zoomedPaneByWindow windowID
  layout := state.layoutByWindow windowID

def persistWindow (logicalID : String) (state : TopologyState) (placed : String × ℕ) :
    OpsM Unit := do
  require ((state.layoutByWindow placed.1).encodable)
    (.failed "encode mux window topology: unsupported value")
  storeCall env "persist mux window topology: " (·.upsertWindow
    { id := placed.1, sessionID := logicalID, name := placed.1, index := placed.2
      layoutJSON := windowSnapshot state placed.1 })

/-- Record which logical session is selected, while the focus is on it. -/
def persistActiveLogicalSession (logicalID : String) : OpsM Unit :=
  whenPersistent do
    let operations ← get
    match operations.session with
    | none => pure ()
    | some session =>
      if logicalSessionID session ≠ logicalID then pure ()
      else do
        openStore env "open mux active-session catalog: "
        storeCall env "persist mux active logical session: "
          (·.setActiveLogicalSession session.projectID logicalID)

/-- Record the interaction state of a logical session. -/
def persistTopologyInteraction (logicalID : String) : OpsM Unit :=
  whenPersistent do
    let state ← topologyState logicalID
    openStore env "open mux topology catalog: "
    state.windowOrder.zipIdx.forM (persistWindow env logicalID state)
    persistActiveLogicalSession env logicalID

def persistPin (session : ManagedSession) : OpsM Unit :=
  whenPersistent do
    openStore env "open mux lifecycle catalog: "
    storeCall env "persist mux session pin: "
      (·.setSessionPinned session.logicalSessionID session.pinned)

/-- Remove a pane from both databases. -/
def destroyPersistedPane (session : ManagedSession) : OpsM Unit :=
  whenPersistent do
    openStore env "open mux lifecycle catalog: "
    openHistory env "open mux history archive: "
    historyCall env "reap mux pane history: " (·.reapPane session.paneID)
    storeCall env "destroy mux pane lifecycle: " fun store => .ok (store.destroyPane session.paneID)

/-- Drop the legacy recovery record. -/
def clearRecovery : OpsM Unit := do
  whenPersistent do
    openStore env "open mux recovery record for explicit destruction: "
    storeCall env "clear mux recovery record: " fun store => .ok store.clear
  modify fun operations => { operations with recoveryErr := none }

end AgentCockpit.Mux
