import AgentCockpit.Mux.Operations.Catalog

/-!
# The handoff manifest

What one daemon process tells the next about its panes and their placement, and the check
that both sides make of it. Formatted identifiers are quoted without escapes.
-/

namespace AgentCockpit.Mux

open AgentCockpit.Core

def handoffManifestVersion : ℕ := 5

structure HandoffTopologyWindow where
  windowID : String
  activePaneID : String
  zoomedPaneID : String
  layout : TopologyLayoutNode
  deriving DecidableEq, Repr

/-- The interaction state of one logical session. -/
structure HandoffTopologySession where
  sessionID : String
  windowOrder : List String
  activeWindowID : String
  windows : List HandoffTopologyWindow
  deriving DecidableEq, Repr

/-- One transferred pane. `masterIndex` is the position of its descriptor. -/
structure HandoffPane where
  sessionID : String
  paneID : String
  key : String
  projectID : String
  broadcastGroup : String
  logicalSessionID : String
  windowID : String
  broadcastScope : String
  broadcast : Bool
  pinned : Bool
  masterIndex : ℤ
  processGroupID : ℤ
  leaderStartToken : String
  boundary : String
  snapshot : Bytes
  primarySnapshot : Bytes
  metadata : Bytes
  deriving DecidableEq, Repr

structure HandoffManifest where
  version : ℕ := handoffManifestVersion
  engineVersion : String
  /-- `-1` until the handoff is committed. -/
  listenerIndex : ℤ := -1
  panes : List HandoffPane := []
  topology : List HandoffTopologySession
  activeLogicalByProject : AList fun _ : String => String

def quoted (text : String) : String := "\"" ++ text ++ "\""

/-! ### Placement -/

/-- The placement of one logical session, which the daemon reconciles on the way. -/
def Operations.handoffTopologySession (operations : Operations) (logicalID : String) :
    HandoffTopologySession :=
  let state := normalizeState operations.sessions logicalID (operations.topologyState logicalID)
  let windowIDs := reconcile state.windowOrder
    ((operations.sessions.filter (logicalSessionID · = logicalID)).map (·.windowID))
  { sessionID := logicalID
    windowOrder := windowIDs
    activeWindowID := state.activeWindowID
    windows := windowIDs.map fun windowID =>
      { windowID
        activePaneID := state.activePaneByWindow windowID
        zoomedPaneID := state.zoomedPaneByWindow windowID
        layout := state.layoutByWindow windowID } }

/-- `handoffTopologyLocked` for a handoff of every registered pane. -/
def Operations.handoffTopology (operations : Operations) :
    Operations × List HandoffTopologySession :=
  let logicalIDs := sortedKeys (operations.sessions.map logicalSessionID)
  (logicalIDs.foldl Operations.normalizeTopology operations,
    logicalIDs.map operations.handoffTopologySession)

/-! ### Validation -/

/-- Refuse with an error unless a condition holds. -/
def demand (condition : Prop) [Decidable condition] (err : String) : Except String Unit :=
  if condition then .ok () else .error err

/-- What every transferred pane names. -/
def HandoffPane.complete (pane : HandoffPane) : Bool :=
  pane.sessionID ≠ "" && pane.paneID ≠ "" && pane.logicalSessionID ≠ "" && pane.windowID ≠ "" &&
    0 ≤ pane.masterIndex && 0 < pane.processGroupID && pane.leaderStartToken ≠ "" &&
    pane.boundary = "grounded" && pane.snapshot ≠ []

/-- One pane after those in `seen`. -/
def checkHandoffPane (listenerIndex : ℤ) (seen : List HandoffPane) (pane : HandoffPane) :
    Except String Unit := do
  demand pane.complete ("invalid mux handoff pane " ++ quoted pane.paneID)
  demand (pane.masterIndex ≠ listenerIndex)
    ("mux handoff pane " ++ quoted pane.paneID ++ " overlaps the listener descriptor")
  demand (pane.masterIndex ∉ seen.map (·.masterIndex))
    ("duplicate mux handoff descriptor index " ++ toString pane.masterIndex)
  demand (pane.sessionID ∉ seen.map (·.sessionID))
    ("duplicate mux handoff session " ++ quoted pane.sessionID)
  demand (pane.paneID ∉ seen.map (·.paneID))
    ("duplicate mux handoff pane " ++ quoted pane.paneID)

def checkHandoffPanes (listenerIndex : ℤ) (seen : List HandoffPane) :
    List HandoffPane → Except String Unit
  | [] => .ok ()
  | pane :: rest => do
    checkHandoffPane listenerIndex seen pane
    checkHandoffPanes listenerIndex (seen ++ [pane]) rest

/-- A ratio at or outside the ends of the unit interval; the code's comparisons let a NaN
through. -/
def Float64.offUnit : Float64 → Bool
  | nan => false
  | inf _ => true
  | finite value => value ≤ 0 || 1 ≤ value

/-- Visit a tree from left to right with the leaves seen so far. -/
def visitHandoffLayout (expected leaves : List String) :
    TopologyLayoutNode → Except String (List String)
  | .nil => .error "has an empty layout node"
  | .node paneID direction ratio first second =>
    if paneID ≠ "" then do
      demand (direction = "" ∧ first = .nil ∧ second = .nil)
        ("leaf pane " ++ quoted paneID ++ " has split fields")
      demand (paneID ∈ expected) ("references unknown pane " ++ quoted paneID)
      demand (paneID ∉ leaves) ("references pane " ++ quoted paneID ++ " twice")
      pure (leaves ++ [paneID])
    else do
      demand ((direction = "horizontal" ∨ direction = "vertical") ∧ ratio.offUnit = false)
        "has an invalid split"
      let leaves ← visitHandoffLayout expected leaves first
      visitHandoffLayout expected leaves second

def validateHandoffLayout (layout : TopologyLayoutNode) (expected : List String) :
    Except String Unit := do
  demand (layout ≠ .nil) "has no layout"
  let leaves ← visitHandoffLayout expected [] layout
  demand (leaves.length = expected.length) "does not include every pane"

namespace HandoffManifest

variable (manifest : HandoffManifest)

def logicalSessionIDs : List String := (manifest.panes.map (·.logicalSessionID)).dedup

/-- The windows of a logical session. -/
def windowIDs (logicalID : String) : List String :=
  ((manifest.panes.filter (·.logicalSessionID = logicalID)).map (·.windowID)).dedup

/-- The panes of a window. -/
def paneIDs (logicalID windowID : String) : List String :=
  ((manifest.panes.filter fun pane =>
    pane.logicalSessionID = logicalID ∧ pane.windowID = windowID).map (·.paneID)).dedup

def checkWindowOrder (windowIDs seen : List String) : List String → Except String Unit
  | [] => .ok ()
  | windowID :: rest => do
    demand (windowID ∈ windowIDs)
      ("mux handoff topology window order has unknown window " ++ quoted windowID)
    demand (windowID ∉ seen) ("duplicate mux handoff topology window order " ++ quoted windowID)
    checkWindowOrder windowIDs (seen ++ [windowID]) rest

/-- Report an error of a window's tree. -/
def inWindow (windowID : String) : Except String Unit → Except String Unit
  | .ok () => .ok ()
  | .error err => .error ("mux handoff topology window " ++ quoted windowID ++ ": " ++ err)

def checkWindows (sessionID : String) (seen : List String) :
    List HandoffTopologyWindow → Except String Unit
  | [] => .ok ()
  | window :: rest => do
    let panes := manifest.paneIDs sessionID window.windowID
    demand (window.windowID ∈ manifest.windowIDs sessionID)
      ("mux handoff topology has unknown window " ++ quoted window.windowID)
    demand (window.windowID ∉ seen)
      ("duplicate mux handoff topology window " ++ quoted window.windowID)
    demand (window.activePaneID = "" ∨ window.activePaneID ∈ panes)
      ("mux handoff topology active pane " ++ quoted window.activePaneID ++
        " is not in window " ++ quoted window.windowID)
    demand (window.zoomedPaneID = "" ∨ window.zoomedPaneID ∈ panes)
      ("mux handoff topology zoomed pane " ++ quoted window.zoomedPaneID ++
        " is not in window " ++ quoted window.windowID)
    inWindow window.windowID (validateHandoffLayout window.layout panes)
    checkWindows sessionID (seen ++ [window.windowID]) rest

def checkSession (seen : List String) (state : HandoffTopologySession) : Except String Unit := do
  demand (state.sessionID ≠ "") "mux handoff topology has no session id"
  demand (state.sessionID ∉ seen)
    ("duplicate mux handoff topology session " ++ quoted state.sessionID)
  let windowIDs := manifest.windowIDs state.sessionID
  demand (state.sessionID ∈ manifest.logicalSessionIDs ∧ state.windows.length = windowIDs.length)
    ("mux handoff topology windows do not match logical session " ++ quoted state.sessionID)
  demand (state.windowOrder.length = windowIDs.length)
    ("mux handoff topology window order does not match logical session " ++
      quoted state.sessionID)
  checkWindowOrder windowIDs [] state.windowOrder
  manifest.checkWindows state.sessionID [] state.windows
  demand (state.activeWindowID = "" ∨
      state.activeWindowID ∈ state.windows.map (·.windowID))
    ("mux handoff topology active window " ++ quoted state.activeWindowID ++
      " is not in logical session " ++ quoted state.sessionID)

def checkSessions (seen : List String) : List HandoffTopologySession → Except String Unit
  | [] => .ok ()
  | state :: rest => do
    manifest.checkSession seen state
    checkSessions (seen ++ [state.sessionID]) rest

def validate : Except String Unit := do
  demand (manifest.version = handoffManifestVersion)
    ("unsupported mux handoff manifest version " ++ toString manifest.version)
  demand (manifest.engineVersion ≠ "") "mux handoff manifest has no engine version"
  demand (-1 ≤ manifest.listenerIndex)
    ("invalid mux handoff listener descriptor index " ++ toString manifest.listenerIndex)
  checkHandoffPanes manifest.listenerIndex [] manifest.panes
  demand (manifest.topology.length = manifest.logicalSessionIDs.length)
    ("mux handoff topology has " ++ toString manifest.topology.length ++
      " logical sessions, want " ++ toString manifest.logicalSessionIDs.length)
  manifest.checkSessions [] manifest.topology

end HandoffManifest

end AgentCockpit.Mux
