import AgentCockpit.Core.Run
import Mathlib.Data.Rat.Defs

/-!
# The mux topology of the terminal panel

The terminal panel asks the daemon of the active project for its topology, over and over, and
answers come back in any order. A snapshot carries the epoch of the daemon process that
answered and a revision that the process counts. `commitTopology` keeps the snapshot that is
shown and drops answers that are out of date.

Sessions are compared by their JSON text in the source. The values compared are all built by
one function, with their fields in one order and finite numbers, so that two of them have the
same text exactly when they are equal.
-/

namespace AgentCockpit.Renderer

open AgentCockpit.Core

/-! ### Snapshots -/

structure MuxTopologyPane where
  sessionId : String
  paneId : String
  key : String
  exited : Bool
  cols : ℕ
  rows : ℕ
  actualCols : ℕ
  actualRows : ℕ
  deriving DecidableEq

inductive LayoutDirection
  | horizontal | vertical
  deriving DecidableEq

/-- A node of a layout tree, or the null that stands for no tree. -/
inductive MuxTopologyLayoutNode
  | null
  | node (paneId : Option String) (direction : Option LayoutDirection) (ratio : Option ℚ)
    (first second : MuxTopologyLayoutNode)
  deriving DecidableEq

structure MuxTopologyWindow where
  windowId : String
  panes : List MuxTopologyPane
  activePaneId : Option String
  zoomedPaneId : Option String
  layout : MuxTopologyLayoutNode
  deriving DecidableEq

structure MuxTopologySession where
  sessionId : String
  windowOrder : List String
  windows : List MuxTopologyWindow
  activeWindowId : Option String
  deriving DecidableEq

/-- The outer option of `activeSessionId` is the missing field, the inner one is null. -/
structure MuxTopologySnapshot where
  epoch : String
  revision : ℕ
  activeSessionId : Option (Option String) := none
  sessions : List MuxTopologySession
  deriving DecidableEq

/-- `EMPTY_MUX_TOPOLOGY` -/
def emptyMuxTopology : MuxTopologySnapshot where
  epoch := ""
  revision := 0
  sessions := []

def muxRunTerminalKey : String := "run"

/-- Leave out the sessions that only run a command. -/
def interactiveTopology (snapshot : MuxTopologySnapshot) : MuxTopologySnapshot :=
  let sessions := snapshot.sessions.filter fun session =>
    session.windows.any fun window => window.panes.any fun pane => pane.key ≠ muxRunTerminalKey
  { snapshot with
    activeSessionId :=
      if sessions.any fun session => some (some session.sessionId) = snapshot.activeSessionId then
        snapshot.activeSessionId
      else some (sessions.head?.map (·.sessionId))
    sessions }

@[simp] theorem interactiveTopology_epoch (snapshot : MuxTopologySnapshot) :
    (interactiveTopology snapshot).epoch = snapshot.epoch :=
  rfl

/-- The snapshot to commit, or nothing when the current one stays. -/
def reconcileMuxTopology (current incoming : MuxTopologySnapshot) (retiredEpochs : List String) :
    Option MuxTopologySnapshot :=
  if incoming.epoch ≠ current.epoch ∧ incoming.epoch ∈ retiredEpochs then none
  else if incoming.epoch ≠ current.epoch then some incoming
  else if incoming.revision < current.revision then none
  else if incoming.activeSessionId = current.activeSessionId ∧
      incoming.sessions = current.sessions then
    if incoming.revision = current.revision then none
    else some { incoming with sessions := current.sessions }
  else some incoming

section Reconcile

variable {current incoming next : MuxTopologySnapshot} {retiredEpochs : List String}

/-- An answer of another process is committed unless the process is retired. -/
theorem reconcile_of_epoch_ne (h : incoming.epoch ≠ current.epoch) :
    reconcileMuxTopology current incoming retiredEpochs =
      if incoming.epoch ∈ retiredEpochs then none else some incoming := by
  unfold reconcileMuxTopology
  by_cases hretired : incoming.epoch ∈ retiredEpochs
  · rw [if_pos ⟨h, hretired⟩, if_pos hretired]
  · rw [if_neg fun hboth => hretired hboth.2, if_pos h, if_neg hretired]

theorem reconcile_interactive_of_epoch_ne (retiredEpochs : List String)
    (h : incoming.epoch ≠ current.epoch) :
    reconcileMuxTopology current (interactiveTopology incoming) retiredEpochs =
      if incoming.epoch ∈ retiredEpochs then none else some (interactiveTopology incoming) :=
  reconcile_of_epoch_ne h

/-- An answer of the same process that is not committed is older or changes nothing. -/
theorem reconcile_of_epoch_eq (retiredEpochs : List String) (h : incoming.epoch = current.epoch) :
    reconcileMuxTopology current incoming retiredEpochs = none ∧
        (incoming.revision < current.revision ∨ incoming = current) ∨
      reconcileMuxTopology current incoming retiredEpochs = some incoming ∧
        current.revision ≤ incoming.revision := by
  unfold reconcileMuxTopology
  rw [if_neg fun hboth => hboth.1 h, if_neg (not_not_intro h)]
  split_ifs with hold hsame hrevision
  · exact .inl ⟨rfl, .inl hold⟩
  · refine .inl ⟨rfl, .inr ?_⟩
    obtain ⟨epoch, revision, activeSessionId, sessions⟩ := incoming
    obtain ⟨epoch', revision', activeSessionId', sessions'⟩ := current
    dsimp only at h hsame hrevision
    obtain ⟨rfl, rfl⟩ := hsame
    rw [h, hrevision]
  · refine .inr ⟨?_, Nat.le_of_not_lt hold⟩
    rw [← hsame.2]
  · exact .inr ⟨rfl, Nat.le_of_not_lt hold⟩

end Reconcile

/-! ### The panel -/

/-- What the panel keeps. `activeId` and `muxBackend` are read from the stores; the refs and
the React state are named after it. -/
structure TopologyPanel where
  activeId : Option String := none
  muxBackend : Bool := true
  topologyProjectId : Option String := none
  topologySnapshotRef : MuxTopologySnapshot := emptyMuxTopology
  retiredTopologyEpochs : List String := []
  topologySnapshot : MuxTopologySnapshot := emptyMuxTopology

namespace TopologyPanel

variable (panel : TopologyPanel)

/-- The refs a project starts with. -/
def track (projectId : String) : TopologyPanel :=
  if panel.topologyProjectId ≠ some projectId then
    { panel with
      topologyProjectId := some projectId
      topologySnapshotRef := emptyMuxTopology
      retiredTopologyEpochs := [] }
  else panel

/-- Show a snapshot, and retire the epoch it takes over from. -/
def commit (next : MuxTopologySnapshot) : TopologyPanel :=
  let current := panel.topologySnapshotRef
  { panel with
    retiredTopologyEpochs :=
      if current.epoch ≠ "" ∧ current.epoch ≠ next.epoch then
        current.epoch :: panel.retiredTopologyEpochs
      else panel.retiredTopologyEpochs
    topologySnapshotRef := next
    topologySnapshot := next }

/-- Commit an answer for a project; the flag says whether it was committed. -/
def commitTopology (projectId : String) (snapshot : MuxTopologySnapshot) : Bool × TopologyPanel :=
  if panel.activeId ≠ some projectId then (false, panel)
  else
    let panel := panel.track projectId
    match reconcileMuxTopology panel.topologySnapshotRef (interactiveTopology snapshot)
      panel.retiredTopologyEpochs with
    | none => (false, panel)
    | some next => (true, panel.commit next)

/-- The effect that follows the active project and the backend. -/
def followProject : TopologyPanel :=
  match panel.muxBackend, panel.activeId with
  | true, some projectId =>
    if panel.topologyProjectId ≠ some projectId then
      { panel.track projectId with topologySnapshot := emptyMuxTopology }
    else panel
  | _, _ =>
    { panel with
      topologyProjectId := none
      topologySnapshotRef := emptyMuxTopology
      retiredTopologyEpochs := []
      topologySnapshot := emptyMuxTopology }

end TopologyPanel

/-! ### The view of the answers -/

/-- An answer for a project. -/
structure Answer where
  projectId : String
  snapshot : MuxTopologySnapshot
  deriving DecidableEq

/-- The panel, the answers it received while their project was active, and those it
committed, both newest first. -/
structure TopologyView where
  panel : TopologyPanel := {}
  received : List Answer := []
  committed : List Answer := []

/-- The stores change, the effect runs, or an answer reaches `commitTopology`. -/
inductive TopologyEvent
  | select (activeId : Option String) (muxBackend : Bool)
  | follow
  | respond (answer : Answer)

def TopologyView.after (view : TopologyView) : TopologyEvent → TopologyView
  | .select activeId muxBackend => { view with panel := { view.panel with activeId, muxBackend } }
  | .follow => { view with panel := view.panel.followProject }
  | .respond answer =>
    let (accepted, panel) := view.panel.commitTopology answer.projectId answer.snapshot
    { panel
      received :=
        if view.panel.activeId = some answer.projectId then answer :: view.received
        else view.received
      committed := if accepted then answer :: view.committed else view.committed }

def TopologyView.step (view : TopologyView) (event : TopologyEvent) : Option TopologyView :=
  some (view.after event)

end AgentCockpit.Renderer
