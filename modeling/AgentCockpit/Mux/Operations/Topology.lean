import AgentCockpit.Mux.Operations.Catalog

/-!
# Selection and topology

How a request finds the session or pane it names, how the daemon moves its selection, and
the requests that read or edit the interaction state.
-/

namespace AgentCockpit.Mux

open AgentCockpit.Core

variable (env : Env)

/-! ### Lookups -/

def requireMutable : OpsM Unit := do
  let operations ← get
  require (operations.handoffPrepared = false) .handoffInProgress

/-- The session with a runtime id, or else some session with it as its logical id. -/
def logicalSession (sessions : List ManagedSession) (sessionID : String) : Option ManagedSession :=
  match findSession sessions sessionID with
  | some session => some session
  | none => (env.walk .logicalSession sessions).find? (logicalSessionID · = sessionID)

def requireSession (sessionID : String) : OpsM ManagedSession := do
  let operations ← get
  orThrow (findSession operations.sessions sessionID) .sessionNotFound

def requireLogicalSession (sessionID : String) : OpsM ManagedSession := do
  let operations ← get
  orThrow (logicalSession env operations.sessions sessionID) .sessionNotFound

def requirePane (paneID : String) : OpsM ManagedSession := do
  let operations ← get
  orThrow (findPane operations.sessions paneID) .paneNotFound

/-- A client that names itself must own the session, unless nobody does. -/
def requireClient (session : ManagedSession) (clientID : String) : OpsM Unit :=
  require (clientID = "" ∨ session.clientID = "" ∨ clientID = session.clientID) .sessionStolen

def modifySession (sessionID : String) (change : ManagedSession → ManagedSession) : OpsM Unit :=
  modify fun operations =>
    { operations with sessions := updateSession operations.sessions sessionID change }

/-! ### Focus -/

/-- The selected logical session of a project, empty when it has none. -/
def Operations.activeLogical (operations : Operations) (projectID : String) : String :=
  (operations.activeLogicalByProject.lookup projectID).getD ""

/-- Put the focus on a session. -/
def Operations.focus (operations : Operations) (session : ManagedSession) (logicalID : String) :
    Operations :=
  { operations with
    session := some session
    activeLogicalByProject := operations.activeLogicalByProject.insert session.projectID logicalID }

/-- The sessions a lost focus can go to; the empty project stands for all. -/
def remainingSessions (sessions : List ManagedSession) (projectID : String) :
    List ManagedSession :=
  ((env.walk .remaining sessions).filter fun session =>
    projectID = "" ∨ session.projectID = projectID).insertionSort
      (logicalSessionID · ≤ logicalSessionID ·)

/-- Take the focus away from the sessions of a project. -/
def Operations.unfocus (operations : Operations) (projectID : String) : Operations :=
  if operations.session.any fun session => projectID = "" ∨ session.projectID = projectID then
    { operations with session := none }
  else operations

/-- Forget the selection of a project. -/
def Operations.deselect (operations : Operations) (projectID : String) : Operations :=
  if projectID = "" then operations
  else
    { operations with
      activeLogicalByProject := operations.activeLogicalByProject.erase projectID }

def Operations.selectRemainingSession (operations : Operations) (projectID : String) :
    Operations :=
  match remainingSessions env operations.sessions projectID with
  | candidate :: _ => (operations.unfocus projectID).focus candidate (logicalSessionID candidate)
  | [] => (operations.unfocus projectID).deselect projectID

def Operations.selectLogicalSession (operations : Operations) (logicalID : String) : Operations :=
  match (env.walk .focus operations.sessions).find? (logicalSessionID · = logicalID) with
  | some candidate => operations.focus candidate logicalID
  | none => operations.selectRemainingSession env ""

/-! ### Snapshots -/

structure TopologyPane where
  sessionID : String
  paneID : String
  key : String
  exited : Bool
  cols : ℕ
  rows : ℕ
  actualCols : ℕ
  actualRows : ℕ
  deriving DecidableEq, Repr

structure TopologyWindow where
  windowID : String
  panes : List TopologyPane
  activePaneID : String
  zoomedPaneID : String
  layout : TopologyLayoutNode
  deriving DecidableEq, Repr

structure TopologySession where
  sessionID : String
  windowOrder : List String
  windows : List TopologyWindow
  activeWindowID : String
  deriving DecidableEq, Repr

structure TopologyResponse where
  epoch : String
  revision : ℕ
  activeSessionID : String
  sessions : List TopologySession
  deriving DecidableEq, Repr

/-- The size the terminal reports, or the recorded one when there is none. -/
def actualGeometry (session : ManagedSession) : ℕ × ℕ :=
  match session.pane, env.geometry session.paneID with
  | some _, .ok geometry => geometry
  | _, _ => (session.cols, session.rows)

def topologyPane (session : ManagedSession) : TopologyPane where
  sessionID := session.id
  paneID := session.paneID
  key := session.key
  exited := session.pane.isNone
  cols := session.cols
  rows := session.rows
  actualCols := (actualGeometry env session).1
  actualRows := (actualGeometry env session).2

/-- The sessions of a project. -/
def projectSessions (sessions : List ManagedSession) (projectID : String) : List ManagedSession :=
  sessions.filter (·.projectID = projectID)

def topologyWindow (own : List ManagedSession) (logicalID : String) (state : TopologyState)
    (windowID : String) : TopologyWindow where
  windowID := windowID
  panes := ((own.filter fun session =>
    logicalSessionID session = logicalID ∧ windowKey session = windowID).map
      (topologyPane env)).insertionSort (·.paneID ≤ ·.paneID)
  activePaneID := state.activePaneByWindow windowID
  zoomedPaneID := state.zoomedPaneByWindow windowID
  layout := state.layoutByWindow windowID

def topologySession (own : List ManagedSession) (state : TopologyState) (logicalID : String) :
    TopologySession where
  sessionID := logicalID
  windowOrder := state.windowOrder
  windows := state.windowOrder.map (topologyWindow env own logicalID state)
  activeWindowID := state.activeWindowID

/-- The logical sessions of a project. -/
def projectLogicalIDs (operations : Operations) (projectID : String) : List String :=
  sortedKeys ((projectSessions operations.sessions projectID).map logicalSessionID)

/-- The snapshot of a project. -/
def topologyResponse (operations : Operations) (projectID : String) : TopologyResponse where
  epoch := operations.topologyEpoch
  revision := operations.topologyRevision
  activeSessionID :=
    if operations.activeLogical projectID ∈ projectLogicalIDs operations projectID then
      operations.activeLogical projectID
    else firstString (projectLogicalIDs operations projectID)
  sessions := (projectLogicalIDs operations projectID).map fun logicalID =>
    topologySession env (projectSessions operations.sessions projectID)
      (operations.topologyState logicalID) logicalID

/-- Number a snapshot and reconcile every logical session in it. -/
def Operations.reviseTopology (operations : Operations) (projectID : String) : Operations :=
  (projectLogicalIDs operations projectID).foldl Operations.normalizeTopology
    { operations with topologyRevision := operations.topologyRevision + 1 }

def topologyLocked (projectID : String) : OpsM TopologyResponse := do
  modify (·.reviseTopology projectID)
  let operations ← get
  pure (topologyResponse env operations projectID)

def topology (projectID : String) : OpsM TopologyResponse :=
  topologyLocked env projectID

structure SessionListItem where
  sessionID : String
  paneID : String
  projectID : String
  key : String
  exited : Bool
  broadcast : Bool
  pinned : Bool
  attachedKind : String
  logicalSessionID : String
  windowID : String
  broadcastScope : String
  recoveryDiagnostic : String
  deriving DecidableEq, Repr

def sessionListItem (session : ManagedSession) : SessionListItem where
  sessionID := session.id
  paneID := session.paneID
  projectID := session.projectID
  key := session.key
  exited := session.pane.isNone
  broadcast := session.broadcast
  pinned := session.pinned
  attachedKind := session.clientKind
  logicalSessionID := session.logicalSessionID
  windowID := session.windowID
  broadcastScope := session.broadcastScope
  recoveryDiagnostic := session.recoveryDiagnostic

/-- The sessions of a project; the empty project stands for all. -/
def list (projectID : String) : OpsM (List SessionListItem) := do
  let operations ← get
  pure (((operations.sessions.filter fun session =>
    projectID = "" ∨ session.projectID = projectID).map sessionListItem).insertionSort
      (·.sessionID ≤ ·.sessionID))

/-! ### Requests on the interaction state -/

structure SelectWindowRequest where
  sessionID : String
  windowID : String
  deriving DecidableEq, Repr

structure SelectPaneRequest where
  sessionID : String
  windowID : String
  paneID : String
  deriving DecidableEq, Repr

structure ZoomPaneRequest where
  sessionID : String
  windowID : String
  paneID : String := ""
  deriving DecidableEq, Repr

structure ResizeSplitRequest where
  sessionID : String
  windowID : String
  paneID : String
  ratio : Float64
  deriving DecidableEq, Repr

/-- The pane of a request lies in the window and session it names. -/
def requirePaneIn (paneID logicalID windowID : String) : OpsM ManagedSession := do
  let pane ← requirePane paneID
  require (logicalSessionID pane = logicalID ∧ pane.windowID = windowID) .paneNotFound
  pure pane

def requireWindow (logicalID windowID : String) : OpsM Unit := do
  let operations ← get
  require (windowBelongsToLogicalSession operations.sessions logicalID windowID) .sessionNotFound

def selectWindow (input : SelectWindowRequest) : OpsM TopologyResponse := do
  requireMutable
  let root ← requireLogicalSession env input.sessionID
  requireWindow (logicalSessionID root) input.windowID
  modify (·.focus root (logicalSessionID root))
  let state ← topologyState (logicalSessionID root)
  setTopologyState (logicalSessionID root) { state with activeWindowID := input.windowID }
  persistTopologyInteraction env (logicalSessionID root)
  topologyLocked env root.projectID

def selectPane (input : SelectPaneRequest) : OpsM TopologyResponse := do
  requireMutable
  let root ← requireLogicalSession env input.sessionID
  let pane ← requirePaneIn input.paneID (logicalSessionID root) input.windowID
  let state ← topologyState (logicalSessionID root)
  modify (·.focus pane (logicalSessionID root))
  setTopologyState (logicalSessionID root)
    { state with
      activeWindowID := input.windowID
      activePaneByWindow := setAt state.activePaneByWindow input.windowID input.paneID }
  persistTopologyInteraction env (logicalSessionID root)
  topologyLocked env root.projectID

/-- The pane a zoom request names, if any, lies in the window. -/
def requireZoomed (paneID logicalID windowID : String) : OpsM Unit := do
  if paneID = "" then pure ()
  else do
    let _ ← requirePaneIn paneID logicalID windowID

def zoomPane (input : ZoomPaneRequest) : OpsM TopologyResponse := do
  requireMutable
  let root ← requireLogicalSession env input.sessionID
  requireWindow (logicalSessionID root) input.windowID
  requireZoomed input.paneID (logicalSessionID root) input.windowID
  let state ← topologyState (logicalSessionID root)
  setTopologyState (logicalSessionID root)
    { state with
      activeWindowID := input.windowID
      activePaneByWindow :=
        if input.paneID = "" then state.activePaneByWindow
        else setAt state.activePaneByWindow input.windowID input.paneID
      zoomedPaneByWindow := setAt state.zoomedPaneByWindow input.windowID input.paneID }
  persistTopologyInteraction env (logicalSessionID root)
  topologyLocked env root.projectID

def resizeSplit (input : ResizeSplitRequest) : OpsM TopologyResponse := do
  require (isFiniteSplitRatio input.ratio) (.failed "mux split ratio must be finite")
  requireMutable
  let root ← requireLogicalSession env input.sessionID
  let _ ← requirePaneIn input.paneID (logicalSessionID root) input.windowID
  let state ← topologyState (logicalSessionID root)
  let resized := resizeLayoutPane (state.layoutByWindow input.windowID) input.paneID input.ratio
  require resized.2 (.failed s!"mux pane {input.paneID} has no resizable split")
  setTopologyState (logicalSessionID root)
    { state with layoutByWindow := setAt state.layoutByWindow input.windowID resized.1 }
  persistTopologyInteraction env (logicalSessionID root)
  topologyLocked env root.projectID

end AgentCockpit.Mux
