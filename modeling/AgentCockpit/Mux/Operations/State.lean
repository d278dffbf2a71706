import AgentCockpit.Mux.Persistence.History
import AgentCockpit.Mux.Persistence.Store
import Mathlib.Data.List.AList
import Std.Data.String.ToNat

/-!
# Daemon state

The state of the mux daemon: the registered pane sessions, the interaction state of each
logical session, the selected logical session of each project, the policy, and the two
databases behind them. The daemon keeps a session under its runtime id and under its pane
id in two maps that always change together; here they are one list that is read by either
id. Per-window maps are functions, with the zero value for a missing key; the code never
tells the two apart.
-/

namespace AgentCockpit.Mux

open AgentCockpit.Core

/-- A live PTY: its master descriptor and the identity of its session leader. -/
structure Pane where
  descriptor : ℕ
  processGroupID : ℕ
  leaderStartToken : String
  deriving DecidableEq, Repr

/-- One registered pane. `attached` says that its native data path is open,
`outputHistory` that its in-memory output can be read. -/
structure ManagedSession where
  id : String
  paneID : String
  key : String := ""
  projectID : String
  broadcastGroup : String := ""
  logicalSessionID : String
  windowID : String
  broadcastScope : String := ""
  pane : Option Pane := none
  attached : Bool := false
  outputHistory : Bool := false
  broadcast : Bool := false
  pinned : Bool := false
  cwd : String := ""
  command : String := ""
  cols : ℕ := 0
  rows : ℕ := 0
  clientID : String := ""
  clientKind : String := ""
  recoveryDiagnostic : String := ""
  deriving DecidableEq, Repr

/-- The interaction state of one logical session. -/
structure TopologyState where
  activeWindowID : String := ""
  windowOrder : List String := []
  activePaneByWindow : String → String := fun _ => ""
  zoomedPaneByWindow : String → String := fun _ => ""
  layoutByWindow : String → TopologyLayoutNode := fun _ => .nil

/-- A call that reaches the process, the terminal or the output of a pane. -/
inductive PaneAction
  | write (data : Bytes)
  | resize (cols rows : ℕ)
  | attach (cols rows cellWidth cellHeight : ℕ)
  | outputs (fromSequence maximumBytes : ℕ)
  | scrollback (before count : ℕ)
  | setPersistScrollback (enabled : Bool)
  | setScrollbackLines (lines : ℕ)
  | terminate
  | close
  deriving DecidableEq, Repr

structure PaneCall where
  paneID : String
  action : PaneAction
  deriving DecidableEq, Repr

/-- The daemon's sessions with the databases behind them. `storeCalls` counts the database
calls made so far and `paneCalls` lists the calls that reached a pane. -/
structure Operations where
  persistencePath : String := ""
  handoffPersistencePath : String := ""
  persistScrollback : Bool := false
  scrollbackLines : ℕ := 10000
  recoveryErr : Option String := none
  session : Option ManagedSession := none
  sessions : List ManagedSession := []
  nextSession : ℕ := 0
  nextWindow : ℕ := 0
  topologyState : String → TopologyState := fun _ => {}
  activeLogicalByProject : AList fun _ : String => String := ∅
  topologyEpoch : String := ""
  topologyRevision : ℕ := 0
  handoffPrepared : Bool := false
  store : Store := {}
  history : HistoryStore := {}
  storeCalls : ℕ := 0
  paneCalls : List PaneCall := []

def defaultScrollbackLines : ℕ := 10000

def maxScrollbackLines : ℕ := 1000000

/-! ### Identifiers -/

def sessionName (n : ℕ) : String := "session-" ++ Nat.repr n

def paneName (n : ℕ) : String := "pane-" ++ Nat.repr n

def windowName (n : ℕ) : String := "window-" ++ Nat.repr n

theorem sessionName_injective : Function.Injective sessionName :=
  fun _ _ h => Nat.repr_injective (String.append_right_inj _ |>.mp h)

theorem paneName_injective : Function.Injective paneName :=
  fun _ _ h => Nat.repr_injective (String.append_right_inj _ |>.mp h)

theorem windowName_injective : Function.Injective windowName :=
  fun _ _ h => Nat.repr_injective (String.append_right_inj _ |>.mp h)

theorem sessionName_ne_empty (n : ℕ) : sessionName n ≠ "" := by
  simp [sessionName]

theorem paneName_ne_empty (n : ℕ) : paneName n ≠ "" := by
  simp [paneName]

theorem windowName_ne_empty (n : ℕ) : windowName n ≠ "" := by
  simp [windowName]

/-! ### The registry -/

def logicalSessionID (session : ManagedSession) : String :=
  if session.logicalSessionID ≠ "" then session.logicalSessionID else session.id

/-- The window of a pane; a pane without one is its own window. -/
def windowKey (session : ManagedSession) : String :=
  if session.windowID = "" then session.paneID else session.windowID

/-- The panes of a window of a logical session. -/
def windowPanes (sessions : List ManagedSession) (logicalID windowID : String) : List String :=
  (sessions.filter fun session =>
    logicalSessionID session = logicalID ∧ windowKey session = windowID).map (·.paneID)

/-- The windows of a logical session, once for each of their panes. -/
def windowKeys (sessions : List ManagedSession) (logicalID : String) : List String :=
  (sessions.filter (logicalSessionID · = logicalID)).map windowKey

def firstString (values : List String) : String :=
  values.headD ""

variable {sessions sessions' : List ManagedSession} {logicalID windowID paneID : String}

theorem mem_windowPanes : paneID ∈ windowPanes sessions logicalID windowID ↔
    ∃ session ∈ sessions, logicalSessionID session = logicalID ∧ windowKey session = windowID ∧
      session.paneID = paneID := by
  simp only [windowPanes, List.mem_map, List.mem_filter, decide_eq_true_eq, and_assoc]

theorem mem_windowKeys : windowID ∈ windowKeys sessions logicalID ↔
    ∃ session ∈ sessions, logicalSessionID session = logicalID ∧ windowKey session = windowID := by
  simp only [windowKeys, List.mem_map, List.mem_filter, decide_eq_true_eq, and_assoc]

theorem mem_windowKeys_iff_windowPanes : windowID ∈ windowKeys sessions logicalID ↔
    windowPanes sessions logicalID windowID ≠ [] := by
  rw [mem_windowKeys, ne_eq, List.eq_nil_iff_forall_not_mem]
  simp only [mem_windowPanes, not_forall, not_not]
  constructor
  · rintro ⟨session, hmem, hlogical, hwindow⟩
    exact ⟨_, session, hmem, hlogical, hwindow, rfl⟩
  · rintro ⟨_, session, hmem, hlogical, hwindow, -⟩
    exact ⟨session, hmem, hlogical, hwindow⟩

def findSession (sessions : List ManagedSession) (sessionID : String) : Option ManagedSession :=
  sessions.find? (·.id = sessionID)

def findPane (sessions : List ManagedSession) (paneID : String) : Option ManagedSession :=
  sessions.find? (·.paneID = paneID)

theorem of_findSession {session : ManagedSession} {sessionID : String}
    (h : findSession sessions sessionID = some session) :
    session ∈ sessions ∧ session.id = sessionID := by
  unfold findSession at h
  exact ⟨List.mem_of_find?_eq_some h, by simpa using List.find?_some h⟩

theorem of_findPane {session : ManagedSession} (h : findPane sessions paneID = some session) :
    session ∈ sessions ∧ session.paneID = paneID := by
  unfold findPane at h
  exact ⟨List.mem_of_find?_eq_some h, by simpa using List.find?_some h⟩

/-- Enter a session under its id. -/
def register (sessions : List ManagedSession) (session : ManagedSession) : List ManagedSession :=
  sessions.filter (·.id ≠ session.id) ++ [session]

def unregister (sessions : List ManagedSession) (sessionID : String) : List ManagedSession :=
  sessions.filter (·.id ≠ sessionID)

/-- Change the session with an id in place. -/
def updateSession (sessions : List ManagedSession) (sessionID : String)
    (change : ManagedSession → ManagedSession) : List ManagedSession :=
  sessions.map fun session => if session.id = sessionID then change session else session

/-- A session after the record of one of them changed. -/
theorem findSession_updateSession {sessionID other : String}
    {change : ManagedSession → ManagedSession}
    (hchange : ∀ session, (change session).id = session.id) :
    findSession (updateSession sessions sessionID change) other =
      (findSession sessions other).map fun session =>
        if session.id = sessionID then change session else session := by
  unfold findSession updateSession
  rw [List.find?_map]
  congr 2
  funext session
  simp only [Function.comp_apply]
  split
  · rw [hchange]
  · rfl

def hasLogicalSession (sessions : List ManagedSession) (logicalID : String) : Bool :=
  sessions.any (logicalSessionID · = logicalID)

def windowBelongsToLogicalSession (sessions : List ManagedSession) (logicalID windowID : String) :
    Bool :=
  sessions.any fun session => logicalSessionID session = logicalID ∧ session.windowID = windowID

def windowPaneCount (sessions : List ManagedSession) (logicalID windowID : String) : ℕ :=
  sessions.countP fun session => logicalSessionID session = logicalID ∧ session.windowID = windowID

/-! ### Interaction state -/

/-- The active pane of a window: the recorded one while it is in the window. -/
def normalizeActivePane (panes : List String) (paneID : String) : String :=
  if paneID ∈ panes then paneID else firstString (sortedKeys panes)

/-- The zoomed pane of a window: the recorded one while it is in the window. -/
def normalizeZoomedPane (panes : List String) (paneID : String) : String :=
  if paneID ≠ "" ∧ paneID ∉ panes then "" else paneID

/-- `topologyStateLocked`: reconcile the state of a logical session with its panes. -/
def normalizeState (sessions : List ManagedSession) (logicalID : String) (state : TopologyState) :
    TopologyState :=
  let windows := windowKeys sessions logicalID
  let windowOrder := reconcile state.windowOrder windows
  let panes := windowPanes sessions logicalID
  { windowOrder
    activeWindowID :=
      if state.activeWindowID ∈ windows then state.activeWindowID else firstString windowOrder
    activePaneByWindow := fun windowID =>
      if windowID ∈ windows then
        normalizeActivePane (panes windowID) (state.activePaneByWindow windowID)
      else ""
    zoomedPaneByWindow := fun windowID =>
      if windowID ∈ windows then
        normalizeZoomedPane (panes windowID) (state.zoomedPaneByWindow windowID)
      else ""
    layoutByWindow := fun windowID =>
      if windowID ∈ windows then normalizeLayout (state.layoutByWindow windowID) (panes windowID)
      else .nil }

/-- Close a window: its successor becomes active, or the last window when it has none. -/
def removeWindowPlacement (state : TopologyState) (windowID : String) : TopologyState :=
  let index := state.windowOrder.findIdx? (· = windowID)
  let windowOrder := match index with
    | some index => state.windowOrder.eraseIdx index
    | none => state.windowOrder
  let successor := match index with
    | some index => windowOrder[index]?
    | none => none
  { windowOrder
    activeWindowID :=
      if state.activeWindowID = windowID then
        match successor with
        | some successor => successor
        | none => windowOrder.getLastD ""
      else state.activeWindowID
    activePaneByWindow := fun other =>
      if other = windowID then "" else state.activePaneByWindow other
    zoomedPaneByWindow := fun other =>
      if other = windowID then "" else state.zoomedPaneByWindow other
    layoutByWindow := fun other => if other = windowID then .nil else state.layoutByWindow other }

/-- Every tree of a state is proper and has no pane twice. -/
def TopologyState.LayoutsProper (state : TopologyState) : Prop :=
  ∀ windowID, (state.layoutByWindow windowID).ProperOrNil ∧
    (state.layoutByWindow windowID).leaves.Nodup

/-- A state that agrees with the registered panes of its logical session. -/
structure TopologyState.Settled (sessions : List ManagedSession) (logicalID : String)
    (state : TopologyState) : Prop where
  order_nodup : state.windowOrder.Nodup
  mem_order : ∀ windowID, windowID ∈ state.windowOrder ↔ windowID ∈ windowKeys sessions logicalID
  active : state.windowOrder ≠ [] → state.activeWindowID ∈ state.windowOrder
  active_empty : state.windowOrder = [] → state.activeWindowID = ""
  activePane : ∀ windowID ∈ state.windowOrder,
    state.activePaneByWindow windowID ∈ windowPanes sessions logicalID windowID
  zoomedPane : ∀ windowID ∈ state.windowOrder, state.zoomedPaneByWindow windowID = "" ∨
    state.zoomedPaneByWindow windowID ∈ windowPanes sessions logicalID windowID
  layout : ∀ windowID ∈ state.windowOrder, (state.layoutByWindow windowID).Proper ∧
    (state.layoutByWindow windowID).leaves.Nodup ∧
    ∀ paneID, paneID ∈ (state.layoutByWindow windowID).leaves ↔
      paneID ∈ windowPanes sessions logicalID windowID
  retired : ∀ windowID ∉ state.windowOrder, state.activePaneByWindow windowID = "" ∧
    state.zoomedPaneByWindow windowID = "" ∧ state.layoutByWindow windowID = .nil

theorem firstString_mem {values : List String} (h : values ≠ []) : firstString values ∈ values := by
  cases values with
  | nil => exact absurd rfl h
  | cons value rest => exact List.mem_cons_self

theorem normalizeActivePane_mem {panes : List String} (h : panes ≠ []) (paneID : String) :
    normalizeActivePane panes paneID ∈ panes := by
  unfold normalizeActivePane
  split
  · assumption
  · exact mem_sortedKeys.mp (firstString_mem (mt sortedKeys_eq_nil.mp h))

theorem normalizeZoomedPane_eq_or_mem (panes : List String) (paneID : String) :
    normalizeZoomedPane panes paneID = "" ∨ normalizeZoomedPane panes paneID ∈ panes := by
  unfold normalizeZoomedPane
  split
  · exact .inl rfl
  · next h => tauto

/-- Normalization settles a state whose trees are proper. -/
theorem settled_normalizeState {state : TopologyState} (hlayouts : state.LayoutsProper)
    (hpanes : ∀ session ∈ sessions, session.paneID ≠ "") :
    (normalizeState sessions logicalID state).Settled sessions logicalID := by
  have hmem : ∀ windowID, windowID ∈ (normalizeState sessions logicalID state).windowOrder ↔
      windowID ∈ windowKeys sessions logicalID := fun windowID => mem_reconcile
  have hne : ∀ windowID paneID, paneID ∈ windowPanes sessions logicalID windowID → paneID ≠ "" := by
    intro windowID paneID h
    obtain ⟨session, hsession, -, -, rfl⟩ := mem_windowPanes.mp h
    exact hpanes session hsession
  refine ⟨nodup_reconcile _ _, hmem, fun horder => ?_, fun horder => ?_, fun windowID h => ?_,
    fun windowID h => ?_, fun windowID h => ?_, fun windowID h => ?_⟩
  · simp only [normalizeState] at horder ⊢
    split
    · exact mem_reconcile.mpr ‹_›
    · exact firstString_mem horder
  · have hnone : state.activeWindowID ∉ windowKeys sessions logicalID := by
      rw [← hmem, horder]
      exact List.not_mem_nil
    simp only [normalizeState] at horder ⊢
    rw [if_neg hnone, horder]
    rfl
  · rw [hmem] at h
    simp only [normalizeState, if_pos h]
    exact normalizeActivePane_mem (mem_windowKeys_iff_windowPanes.mp h) _
  · rw [hmem] at h
    simp only [normalizeState, if_pos h]
    exact normalizeZoomedPane_eq_or_mem _ _
  · rw [hmem] at h
    simp only [normalizeState, if_pos h]
    obtain ⟨hproper, hnodup, hleaves⟩ :=
      (hlayouts windowID).1.normalizeLayout (hlayouts windowID).2 (hne windowID)
    refine ⟨hproper.proper_of_leaves fun hnil => ?_, hnodup, hleaves⟩
    -- a window has at least one pane, so its tree is not empty
    obtain ⟨paneID, hpane⟩ :=
      List.exists_mem_of_ne_nil _ (mem_windowKeys_iff_windowPanes.mp h)
    rw [← hleaves, hnil] at hpane
    exact List.not_mem_nil hpane
  · rw [hmem] at h
    simp only [normalizeState, if_neg h, and_self]

/-- A settled state has proper trees. -/
theorem TopologyState.Settled.layoutsProper {state : TopologyState}
    (h : state.Settled sessions logicalID) : state.LayoutsProper := by
  intro windowID
  by_cases hmem : windowID ∈ state.windowOrder
  · exact ⟨(h.layout windowID hmem).1.orNil, (h.layout windowID hmem).2.1⟩
  · rw [(h.retired windowID hmem).2.2]
    exact ⟨.nil, List.nodup_nil⟩

/-- A settled state is not changed by normalization. -/
theorem TopologyState.Settled.normalizeState_eq {state : TopologyState}
    (h : state.Settled sessions logicalID) : normalizeState sessions logicalID state = state := by
  have horder : reconcile state.windowOrder (windowKeys sessions logicalID) = state.windowOrder :=
    reconcile_eq_self h.order_nodup h.mem_order
  have hretired : ∀ windowID, windowID ∉ windowKeys sessions logicalID →
      state.activePaneByWindow windowID = "" ∧ state.zoomedPaneByWindow windowID = "" ∧
        state.layoutByWindow windowID = .nil :=
    fun windowID hnot => h.retired windowID (mt (h.mem_order windowID).mp hnot)
  obtain ⟨active, order, activePane, zoomedPane, layout⟩ := state
  simp only [normalizeState, TopologyState.mk.injEq]
  refine ⟨?_, horder, ?_, ?_, ?_⟩
  · split
    · rfl
    · next hactive =>
      rw [← h.mem_order] at hactive
      have hnil : order = [] := by_contra fun hne => hactive (h.active hne)
      have hempty : active = "" := h.active_empty hnil
      rw [horder, hnil, hempty]
      rfl
  · funext windowID
    split
    · next hmem => exact if_pos (h.activePane windowID ((h.mem_order windowID).mpr hmem))
    · next hnot => exact (hretired windowID hnot).1.symm
  · funext windowID
    split
    · next hmem =>
      refine if_neg fun hzoom => ?_
      rcases h.zoomedPane windowID ((h.mem_order windowID).mpr hmem) with hnone | hpane
      · exact hzoom.1 hnone
      · exact hzoom.2 hpane
    · next hnot => exact (hretired windowID hnot).2.1.symm
  · funext windowID
    split
    · next hmem =>
      obtain ⟨hproper, -, hleaves⟩ := h.layout windowID ((h.mem_order windowID).mpr hmem)
      exact hproper.orNil.normalizeLayout_eq_self hleaves
    · next hnot => exact (hretired windowID hnot).2.2.symm

theorem removeWindowPlacement_layoutsProper {state : TopologyState} (h : state.LayoutsProper)
    (windowID : String) : (removeWindowPlacement state windowID).LayoutsProper := by
  intro other
  simp only [removeWindowPlacement]
  split
  · exact ⟨.nil, List.nodup_nil⟩
  · exact h other

end AgentCockpit.Mux
