import AgentCockpit.Mux.Operations.Interaction

/-!
# Selections that fail

A request that selects a window or a pane, zooms a pane or resizes a split sets the interaction
state in memory first and records it afterwards. When the catalog does not take it, the request
fails and what was set stays. The catalog does not take it when a call to it fails, and also
when all panes of the session have ended, because the row of the session was then removed.

## Main results

* `selection_atomic_iff` — **exactly these requests may fail without an effect**
-/

namespace AgentCockpit.Mux

open AgentCockpit.Core

variable {env : Env} {o o' : Operations}

/-- The requests that set interaction state. -/
def Operation.Selects : Operation → Prop
  | windowSelect _ | paneSelect _ | paneZoom _ | paneResizeSplit _ => True
  | _ => False

/-- What a request sets: the session that gets the focus, if any, and the interaction state of
the logical session of `root`. -/
structure Edit where
  root : ManagedSession
  focus : Option ManagedSession := none
  state : TopologyState

namespace Edit

def logicalID (edit : Edit) : String := logicalSessionID edit.root

end Edit

/-- The pane with an id, if it lies in a window of a logical session. -/
def paneIn (sessions : List ManagedSession) (paneID logicalID windowID : String) :
    Option ManagedSession :=
  (findPane sessions paneID).filter fun pane =>
    logicalSessionID pane = logicalID ∧ pane.windowID = windowID

namespace Operations

/-- What a request on the window of a root sets. -/
def editRoot (o : Operations) (root : ManagedSession) : Operation → Option Edit
  | .windowSelect input =>
    if windowBelongsToLogicalSession o.sessions (logicalSessionID root) input.windowID then
      some
        { root, focus := some root
          state := { o.shown (logicalSessionID root) with activeWindowID := input.windowID } }
    else none
  | .paneSelect input =>
    (paneIn o.sessions input.paneID (logicalSessionID root) input.windowID).map fun pane =>
      { root, focus := some pane
        state :=
          { o.shown (logicalSessionID root) with
            activeWindowID := input.windowID
            activePaneByWindow := setAt (o.shown (logicalSessionID root)).activePaneByWindow
              input.windowID input.paneID } }
  | .paneZoom input =>
    if windowBelongsToLogicalSession o.sessions (logicalSessionID root) input.windowID ∧
        (input.paneID = "" ∨
          (paneIn o.sessions input.paneID (logicalSessionID root) input.windowID).isSome) then
      some
        { root
          state :=
            { o.shown (logicalSessionID root) with
              activeWindowID := input.windowID
              activePaneByWindow :=
                if input.paneID = "" then (o.shown (logicalSessionID root)).activePaneByWindow
                else setAt (o.shown (logicalSessionID root)).activePaneByWindow input.windowID
                  input.paneID
              zoomedPaneByWindow := setAt (o.shown (logicalSessionID root)).zoomedPaneByWindow
                input.windowID input.paneID } }
    else none
  | .paneResizeSplit input =>
    let resized := resizeLayoutPane
      ((o.shown (logicalSessionID root)).layoutByWindow input.windowID) input.paneID input.ratio
    if isFiniteSplitRatio input.ratio ∧ resized.2 ∧
        (paneIn o.sessions input.paneID (logicalSessionID root) input.windowID).isSome then
      some
        { root
          state :=
            { o.shown (logicalSessionID root) with
              layoutByWindow := setAt (o.shown (logicalSessionID root)).layoutByWindow
                input.windowID resized.1 } }
    else none
  | _ => none

/-- What a request sets when it passes its checks. -/
def edit (o : Operations) (env : Env) (operation : Operation) : Option Edit :=
  if o.handoffPrepared then none
  else (logicalSession env o.sessions operation.sessionID).bind (o.editRoot · operation)

/-- The daemon once an edit is made in memory. -/
def editing (o : Operations) (edit : Edit) : Operations :=
  { (match edit.focus with
      | some session => o.focus session edit.logicalID
      | none => o) with
    topologyState := setAt o.topologyState edit.logicalID edit.state }

/-- The catalog takes an edit: none of the calls is failed, two of which record the selection
while the focus is on the session, and it still has the row of the session. -/
def CatalogTakes (o : Operations) (env : Env) (edit : Edit) : Prop :=
  o.persistencePath ≠ "" →
    env.Serves o.storeCalls (1 + edit.state.windowOrder.length +
        (if edit.focus.isSome then 2 else o.selectionCalls edit.logicalID)) ∧
      o.store.hasSession edit.logicalID

/-- An edit asks for what is there. -/
structure AsksNothing (o : Operations) (edit : Edit) : Prop where
  state : edit.state = o.shown edit.logicalID
  focus : ∀ session ∈ edit.focus, o.activeLogical session.projectID = edit.logicalID

end Operations

/-! ### The run of a selecting request -/

/-- Record an edit and answer with a snapshot. -/
def keep (env : Env) (edit : Edit) : OpsM TopologyResponse := do
  persistTopologyInteraction env edit.logicalID
  topologyLocked env edit.root.projectID

/-- A request makes an edit and records it, or is refused and shows no effect. -/
def Follows (env : Env) (o : Operations) (x : OpsM TopologyResponse) : Option Edit → Prop
  | some edit => exec x o = exec (keep env edit) (o.editing edit)
  | none => ∃ err t, exec x o = (.error err, t) ∧ Unseen o t

theorem Follows.congr {x y : OpsM TopologyResponse} {edit : Option Edit}
    (h : Follows env o y edit) (hexec : exec x o = exec y o) : Follows env o x edit := by
  cases edit with
  | some edit => exact hexec.trans h
  | none =>
    obtain ⟨err, t, hrun, hunseen⟩ := h
    exact ⟨err, t, hexec.trans hrun, hunseen⟩

theorem setAt_setAt {α : Type} (table : String → α) (key : String) (first second : α) :
    setAt (setAt table key first) key second = setAt table key second := by
  funext other
  by_cases hother : other = key
  · rw [hother, setAt_self, setAt_self]
  · rw [setAt_of_ne _ _ hother, setAt_of_ne _ _ hother, setAt_of_ne _ _ hother]

/-- What holds of the entries of a table after one of them was set. -/
theorem setAt_induction {α : Type} {table : String → α} {key : String} {value : α}
    {motive : String → α → Prop} (hkey : motive key value)
    (hothers : ∀ other, other ≠ key → motive other (table other)) (other : String) :
    motive other (setAt table key value other) := by
  by_cases hother : other = key
  · rw [hother, setAt_self]
    exact hkey
  · rw [setAt_of_ne _ _ hother]
    exact hothers other hother

/-- The checks that all selecting requests begin with. -/
theorem follows_root {operation : Operation} {f : ManagedSession → OpsM TopologyResponse}
    (hf : ∀ root, logicalSession env o.sessions operation.sessionID = some root →
      Follows env o (f root) (o.editRoot root operation)) :
    Follows env o (do
      requireMutable
      let root ← requireLogicalSession env operation.sessionID
      f root) (o.edit env operation) := by
  have hexec : ∀ g : Unit → OpsM TopologyResponse, exec (requireMutable >>= g) o =
      if o.handoffPrepared = false then exec (g ()) o else (.error .handoffInProgress, o) :=
    fun g => exec_require_bind
  rw [Operations.edit]
  cases hprepared : o.handoffPrepared with
  | true =>
    refine ⟨.handoffInProgress, o, ?_, .refl o⟩
    rw [hexec, if_neg (by rw [hprepared]; exact nofun)]
  | false =>
    rw [if_neg Bool.false_ne_true]
    have hroot : exec (requireLogicalSession env operation.sessionID >>= f) o =
        match logicalSession env o.sessions operation.sessionID with
        | some root => exec (f root) o
        | none => (.error .sessionNotFound, o) := by
      rw [requireLogicalSession, bind_assoc, exec_get_bind, exec_orThrow_bind]
      cases logicalSession env o.sessions operation.sessionID <;> rfl
    cases hfound : logicalSession env o.sessions operation.sessionID with
    | none =>
      refine ⟨.sessionNotFound, o, ?_, .refl o⟩
      rw [hexec, if_pos hprepared, hroot, hfound]
    | some root =>
      have hfollows := hf root hfound
      rw [Option.bind_some]
      have hsame : exec (do
          requireMutable
          let root ← requireLogicalSession env operation.sessionID
          f root) o = exec (f root) o := by
        rw [hexec, if_pos hprepared, hroot, hfound]
      cases hedit : o.editRoot root operation with
      | none =>
        rw [hedit] at hfollows
        obtain ⟨err, t, hrun, hunseen⟩ := hfollows
        exact ⟨err, t, hsame.trans hrun, hunseen⟩
      | some edit =>
        rw [hedit] at hfollows
        exact hsame.trans hfollows

theorem exec_requireWindow_bind {logicalID windowID : String} {α : Type} {f : Unit → OpsM α} :
    exec (requireWindow logicalID windowID >>= f) o =
      if windowBelongsToLogicalSession o.sessions logicalID windowID then exec (f ()) o
      else (.error .sessionNotFound, o) := by
  rw [requireWindow, bind_assoc, exec_get_bind, exec_require_bind]

theorem exec_requirePaneIn_bind {paneID logicalID windowID : String} {α : Type}
    {f : ManagedSession → OpsM α} :
    exec (requirePaneIn paneID logicalID windowID >>= f) o =
      match paneIn o.sessions paneID logicalID windowID with
      | some pane => exec (f pane) o
      | none => (.error .paneNotFound, o) := by
  rw [requirePaneIn, requirePane, bind_assoc, bind_assoc, exec_get_bind, exec_orThrow_bind, paneIn]
  cases findPane o.sessions paneID with
  | none => rfl
  | some pane =>
    rw [Option.filter_some]
    by_cases hin : logicalSessionID pane = logicalID ∧ pane.windowID = windowID
    · simp only [hin, and_self, decide_true, if_true, bind_assoc, exec_require_bind]
      rfl
    · simp only [hin, decide_false, Bool.false_eq_true, if_false, bind_assoc, exec_require_bind]

/-- Setting the state of a logical session that was just reconciled. -/
theorem exec_setTopologyState_bind {logicalID : String} {state : TopologyState} {α : Type}
    {f : PUnit → OpsM α} :
    exec (setTopologyState logicalID state >>= f) (o.normalizeTopology logicalID) =
      exec (f ⟨⟩) { o with topologyState := setAt o.topologyState logicalID state } := by
  have hset : setAt (o.normalizeTopology logicalID).topologyState logicalID state =
      setAt o.topologyState logicalID state := setAt_setAt _ _ _ _
  rw [setTopologyState, exec_modify_bind, hset]
  rfl

theorem follows_selectWindow (input : SelectWindowRequest) :
    Follows env o (selectWindow env input) (o.edit env (.windowSelect input)) := by
  refine @follows_root env o (.windowSelect input) _ fun root _ => ?_
  simp only [Operations.editRoot]
  by_cases hwindow :
      windowBelongsToLogicalSession o.sessions (logicalSessionID root) input.windowID
  · rw [if_pos hwindow, Follows, exec_requireWindow_bind, if_pos hwindow, exec_modify_bind,
      exec_topologyState_bind, exec_setTopologyState_bind]
    rfl
  · rw [if_neg hwindow]
    refine ⟨.sessionNotFound, o, ?_, .refl o⟩
    rw [exec_requireWindow_bind, if_neg hwindow]

theorem follows_selectPane (input : SelectPaneRequest) :
    Follows env o (selectPane env input) (o.edit env (.paneSelect input)) := by
  refine @follows_root env o (.paneSelect input) _ fun root _ => ?_
  simp only [Operations.editRoot]
  cases hpane : paneIn o.sessions input.paneID (logicalSessionID root) input.windowID with
  | none =>
    refine ⟨.paneNotFound, o, ?_, .refl o⟩
    rw [exec_requirePaneIn_bind, hpane]
  | some pane =>
    rw [Option.map_some, Follows, exec_requirePaneIn_bind, hpane]
    -- the focus moves between the reconciliation and the new state
    have hfocus : (o.normalizeTopology (logicalSessionID root)).focus pane (logicalSessionID root) =
        (o.focus pane (logicalSessionID root)).normalizeTopology (logicalSessionID root) := rfl
    dsimp only
    rw [exec_topologyState_bind, exec_modify_bind, hfocus, exec_setTopologyState_bind]
    rfl

theorem exec_requireZoomed_bind {paneID logicalID windowID : String} {α : Type}
    {f : Unit → OpsM α} :
    exec (requireZoomed paneID logicalID windowID >>= f) o =
      if paneID = "" ∨ (paneIn o.sessions paneID logicalID windowID).isSome then exec (f ()) o
      else (.error .paneNotFound, o) := by
  rw [requireZoomed]
  by_cases hnone : paneID = ""
  · rw [if_pos hnone, if_pos (.inl hnone)]
    rfl
  · rw [if_neg hnone, bind_assoc, exec_requirePaneIn_bind]
    cases paneIn o.sessions paneID logicalID windowID with
    | none => exact (if_neg fun h => h.elim hnone Bool.false_ne_true).symm
    | some pane => exact (if_pos (.inr rfl)).symm

theorem follows_zoomPane (input : ZoomPaneRequest) :
    Follows env o (zoomPane env input) (o.edit env (.paneZoom input)) := by
  refine @follows_root env o (.paneZoom input) _ fun root _ => ?_
  simp only [Operations.editRoot]
  by_cases hwindow :
      windowBelongsToLogicalSession o.sessions (logicalSessionID root) input.windowID
  · by_cases hpane : input.paneID = "" ∨
        (paneIn o.sessions input.paneID (logicalSessionID root) input.windowID).isSome
    · rw [if_pos ⟨hwindow, hpane⟩, Follows, exec_requireWindow_bind, if_pos hwindow,
        exec_requireZoomed_bind, if_pos hpane, exec_topologyState_bind, exec_setTopologyState_bind]
      rfl
    · rw [if_neg fun h => hpane h.2]
      refine ⟨.paneNotFound, o, ?_, .refl o⟩
      rw [exec_requireWindow_bind, if_pos hwindow, exec_requireZoomed_bind, if_neg hpane]
  · rw [if_neg fun h => hwindow h.1]
    refine ⟨.sessionNotFound, o, ?_, .refl o⟩
    rw [exec_requireWindow_bind, if_neg hwindow]

theorem follows_resizeSplit (h : Reconcilable o) (input : ResizeSplitRequest) :
    Follows env o (resizeSplit env input) (o.edit env (.paneResizeSplit input)) := by
  by_cases hfinite : isFiniteSplitRatio input.ratio
  · refine Follows.congr ?_ ((exec_require_bind).trans (if_pos hfinite))
    refine @follows_root env o (.paneResizeSplit input) _ fun root _ => ?_
    simp only [Operations.editRoot]
    cases hpane : paneIn o.sessions input.paneID (logicalSessionID root) input.windowID with
    | none =>
      rw [if_neg fun h => Bool.false_ne_true h.2.2]
      refine ⟨.paneNotFound, o, ?_, .refl o⟩
      rw [exec_requirePaneIn_bind, hpane]
    | some pane =>
      by_cases hresized : (resizeLayoutPane
          ((o.shown (logicalSessionID root)).layoutByWindow input.windowID) input.paneID
          input.ratio).2
      · rw [if_pos ⟨hfinite, hresized, rfl⟩, Follows, exec_requirePaneIn_bind, hpane]
        dsimp only
        rw [exec_topologyState_bind, exec_require_bind, if_pos hresized,
          exec_setTopologyState_bind]
        rfl
      · rw [if_neg fun h => hresized h.2.1]
        refine ⟨.failed s!"mux pane {input.paneID} has no resizable split", _, ?_,
          h.unseen_normalizeTopology (logicalSessionID root)⟩
        rw [exec_requirePaneIn_bind, hpane]
        dsimp only
        rw [exec_topologyState_bind, exec_require_bind, if_neg hresized]
  · have hnone : o.edit env (.paneResizeSplit input) = none := by
      rw [Operations.edit]
      by_cases hprepared : o.handoffPrepared
      · exact if_pos hprepared
      · rw [if_neg hprepared, Option.bind_eq_none_iff]
        exact fun root _ => if_neg fun h => hfinite h.1
    rw [hnone]
    exact ⟨.failed "mux split ratio must be finite", o,
      (exec_require_bind).trans (if_neg hfinite), .refl o⟩

/-- **A selecting request** is refused and shows no effect, or makes its edit in memory and
records it. -/
theorem exec_selects (h : Reconcilable o) {request : Request}
    (hselects : request.operation.Selects) :
    match o.edit env request.operation with
    | some edit => exec (handleMethod env request) o =
        exec (responding .topology (keep env edit)) (o.editing edit)
    | none => ∃ err t, exec (handleMethod env request) o = (.error err, t) ∧ Unseen o t := by
  have hrespond : ∀ {x : OpsM TopologyResponse} {edit : Option Edit}, Follows env o x edit →
      match edit with
      | some edit => exec (responding .topology x) o =
          exec (responding .topology (keep env edit)) (o.editing edit)
      | none => ∃ err t, exec (responding .topology x) o = (.error err, t) ∧ Unseen o t := by
    intro x edit hfollows
    cases edit with
    | some edit =>
      simp only [responding]
      rw [exec_bind, exec_bind, hfollows]
    | none =>
      obtain ⟨err, t, hrun, hunseen⟩ := hfollows
      refine ⟨err, t, ?_, hunseen⟩
      rw [responding, exec_bind, hrun]
  obtain ⟨operation, projectID, sessionText, paneText⟩ := request
  cases operation with
  | windowSelect input => exact hrespond (follows_selectWindow input)
  | paneSelect input => exact hrespond (follows_selectPane input)
  | paneZoom input => exact hrespond (follows_zoomPane input)
  | paneResizeSplit input => exact hrespond (follows_resizeSplit h input)
  | _ => exact hselects.elim

/-! ### Edits -/

namespace TopologyState.Settled

variable {sessions : List ManagedSession} {logicalID windowID paneID : String}
variable {state : TopologyState}

theorem activate (h : state.Settled sessions logicalID) (hwindow : windowID ∈ state.windowOrder) :
    Settled sessions logicalID { state with activeWindowID := windowID } :=
  ⟨h.order_nodup, h.mem_order, fun _ => hwindow,
    fun hempty => absurd hempty (List.ne_nil_of_mem hwindow), h.activePane, h.zoomedPane, h.layout,
    h.retired⟩

theorem setActivePane (h : state.Settled sessions logicalID)
    (hwindow : windowID ∈ state.windowOrder)
    (hpane : paneID ∈ windowPanes sessions logicalID windowID) :
    Settled sessions logicalID
      { state with activePaneByWindow := setAt state.activePaneByWindow windowID paneID } := by
  refine ⟨h.order_nodup, h.mem_order, h.active, h.active_empty, fun other => ?_, h.zoomedPane,
    h.layout, fun other hother => ⟨?_, (h.retired other hother).2⟩⟩
  · exact setAt_induction (motive := fun other id => other ∈ state.windowOrder →
      id ∈ windowPanes sessions logicalID other) (fun _ => hpane)
      (fun other _ => h.activePane other) other
  · exact setAt_induction (motive := fun other id => other ∉ state.windowOrder → id = "")
      (absurd hwindow) (fun other _ hother => (h.retired other hother).1) other hother

theorem setZoomedPane (h : state.Settled sessions logicalID)
    (hwindow : windowID ∈ state.windowOrder)
    (hpane : paneID = "" ∨ paneID ∈ windowPanes sessions logicalID windowID) :
    Settled sessions logicalID
      { state with zoomedPaneByWindow := setAt state.zoomedPaneByWindow windowID paneID } := by
  refine ⟨h.order_nodup, h.mem_order, h.active, h.active_empty, h.activePane, fun other => ?_,
    h.layout, fun other hother => ⟨(h.retired other hother).1, ?_, (h.retired other hother).2.2⟩⟩
  · exact setAt_induction (motive := fun other id => other ∈ state.windowOrder →
      id = "" ∨ id ∈ windowPanes sessions logicalID other) (fun _ => hpane)
      (fun other _ => h.zoomedPane other) other
  · exact setAt_induction (motive := fun other id => other ∉ state.windowOrder → id = "")
      (absurd hwindow) (fun other _ hother => (h.retired other hother).2.1) other hother

theorem resize (h : state.Settled sessions logicalID) (hwindow : windowID ∈ state.windowOrder)
    (paneID : String) (ratio : Float64) :
    Settled sessions logicalID
      { state with
        layoutByWindow := setAt state.layoutByWindow windowID
          (resizeLayoutPane (state.layoutByWindow windowID) paneID ratio).1 } := by
  obtain ⟨hproper, hnodup, hleaves⟩ := h.layout windowID hwindow
  obtain ⟨hresized, hsame⟩ := hproper.resizeLayoutPane paneID ratio
  refine ⟨h.order_nodup, h.mem_order, h.active, h.active_empty, h.activePane, h.zoomedPane,
    fun other => ?_,
    fun other hother => ⟨(h.retired other hother).1, (h.retired other hother).2.1, ?_⟩⟩
  · refine setAt_induction (motive := fun other (layout : TopologyLayoutNode) =>
      other ∈ state.windowOrder →
      layout.Proper ∧ layout.leaves.Nodup ∧
        ∀ id, id ∈ layout.leaves ↔ id ∈ windowPanes sessions logicalID other)
      (fun _ => ⟨hresized, ?_⟩) (fun other _ => h.layout other) other
    rw [hsame]
    exact ⟨hnodup, hleaves⟩
  · exact setAt_induction (motive := fun other (layout : TopologyLayoutNode) =>
      other ∉ state.windowOrder → layout = .nil) (absurd hwindow)
      (fun other _ hother => (h.retired other hother).2.2) other hother

end TopologyState.Settled

theorem of_paneIn {sessions : List ManagedSession} {paneID logicalID windowID : String}
    {pane : ManagedSession} (h : paneIn sessions paneID logicalID windowID = some pane) :
    pane ∈ sessions ∧ pane.paneID = paneID ∧ logicalSessionID pane = logicalID ∧
      pane.windowID = windowID := by
  obtain ⟨hfound, hin⟩ := Option.filter_eq_some_iff.mp h
  obtain ⟨hmem, hpane⟩ := of_findPane hfound
  exact ⟨hmem, hpane, of_decide_eq_true hin⟩

/-- The windows a selecting request may name are those of the logical session. -/
theorem Consistent.mem_windowOrder_shown (h : Consistent o) {pane : ManagedSession}
    (hmem : pane ∈ o.sessions) :
    pane.windowID ∈ (o.shown (logicalSessionID pane)).windowOrder := by
  rw [(h.reconcilable.settled_shown _).mem_order, mem_windowKeys]
  exact ⟨pane, hmem, rfl, h.windowKey_eq hmem⟩

theorem Consistent.mem_windowPanes (h : Consistent o) {pane : ManagedSession}
    (hmem : pane ∈ o.sessions) :
    pane.paneID ∈ windowPanes o.sessions (logicalSessionID pane) pane.windowID :=
  Mux.mem_windowPanes.mpr ⟨pane, hmem, rfl, h.windowKey_eq hmem, rfl⟩

theorem Consistent.mem_windowOrder_of_belongs (h : Consistent o) {logicalID windowID : String}
    (hwindow : windowBelongsToLogicalSession o.sessions logicalID windowID) :
    windowID ∈ (o.shown logicalID).windowOrder := by
  rw [windowBelongsToLogicalSession, List.any_eq_true] at hwindow
  obtain ⟨pane, hmem, hin⟩ := hwindow
  obtain ⟨rfl, rfl⟩ := of_decide_eq_true hin
  exact h.mem_windowOrder_shown hmem

/-- An edit is made in the logical session of a registered root: it sets a settled state, and
the focus moves within the session. -/
structure Edit.Sound (edit : Edit) (o : Operations) : Prop where
  root : edit.root ∈ o.sessions
  settled : edit.state.Settled o.sessions edit.logicalID
  focus : ∀ session ∈ edit.focus, logicalSessionID session = edit.logicalID

theorem Consistent.sound_edit (h : Consistent o) {operation : Operation} {edit : Edit}
    (hedit : o.edit env operation = some edit) : edit.Sound o := by
  rw [Operations.edit] at hedit
  split at hedit
  · exact nomatch hedit
  obtain ⟨root, hroot, hedit⟩ := Option.bind_eq_some_iff.mp hedit
  have hmem := logicalSession_some hroot
  have hsettled := h.reconcilable.settled_shown (logicalSessionID root)
  cases operation with
  | windowSelect input =>
    obtain ⟨hwindow, hsome⟩ := Option.ite_none_right_eq_some.mp hedit
    obtain rfl := Option.some.inj hsome
    refine ⟨hmem, hsettled.activate (h.mem_windowOrder_of_belongs hwindow),
      fun session hfocus => ?_⟩
    rw [← Option.some.inj hfocus]
    rfl
  | paneSelect input =>
    obtain ⟨pane, hpane, rfl⟩ := Option.map_eq_some_iff.mp hedit
    obtain ⟨hpaneMem, hpaneID, hlogical, hwindowID⟩ := of_paneIn hpane
    have hwindow := h.mem_windowOrder_shown hpaneMem
    have hin := h.mem_windowPanes hpaneMem
    -- the pane was found in the window of the request, so both ids are those of the request
    rw [hlogical, hwindowID] at hwindow hin
    rw [hpaneID] at hin
    refine ⟨hmem, (hsettled.setActivePane hwindow hin).activate hwindow, fun session hfocus => ?_⟩
    rw [← Option.some.inj hfocus]
    exact hlogical
  | paneZoom input =>
    obtain ⟨⟨hwindow, hpane⟩, hsome⟩ := Option.ite_none_right_eq_some.mp hedit
    obtain rfl := Option.some.inj hsome
    have hwindow := h.mem_windowOrder_of_belongs hwindow
    refine ⟨hmem, ?_, nofun⟩
    by_cases hnone : input.paneID = ""
    · have hzoomed := (hsettled.setZoomedPane hwindow (.inl hnone)).activate hwindow
      simp only [if_pos hnone]
      exact hzoomed
    · obtain ⟨pane, hpane⟩ := Option.isSome_iff_exists.mp (hpane.resolve_left hnone)
      obtain ⟨hpaneMem, hpaneID, hlogical, hwindowID⟩ := of_paneIn hpane
      have hin := h.mem_windowPanes hpaneMem
      rw [hlogical, hwindowID, hpaneID] at hin
      have hzoomed :=
        ((hsettled.setActivePane hwindow hin).setZoomedPane hwindow (.inr hin)).activate hwindow
      simp only [if_neg hnone]
      exact hzoomed
  | paneResizeSplit input =>
    obtain ⟨⟨-, -, hpane⟩, hsome⟩ := Option.ite_none_right_eq_some.mp hedit
    obtain rfl := Option.some.inj hsome
    obtain ⟨pane, hpane⟩ := Option.isSome_iff_exists.mp hpane
    obtain ⟨hpaneMem, -, hlogical, hwindowID⟩ := of_paneIn hpane
    have hwindow := h.mem_windowOrder_shown hpaneMem
    rw [hlogical, hwindowID] at hwindow
    exact ⟨hmem, hsettled.resize hwindow input.paneID input.ratio, nofun⟩
  | _ => exact nomatch hedit

/-! ### Failures -/

section Editing

variable {edit : Edit}

theorem Operations.sessions_editing : (o.editing edit).sessions = o.sessions := by
  rw [Operations.editing]
  cases edit.focus <;> rfl

/-- What is shown once an edit is made. -/
theorem Operations.shown_editing (hsettled : edit.state.Settled o.sessions edit.logicalID)
    (logicalID : String) :
    (o.editing edit).shown logicalID = setAt o.shown edit.logicalID edit.state logicalID := by
  rw [← shown_setAt hsettled, Operations.shown, Operations.shown, Operations.sessions_editing]
  rfl

/-- An edit that asks for what is there shows no effect, and no other one does. -/
theorem sameInteraction_editing_iff (hsettled : edit.state.Settled o.sessions edit.logicalID) :
    SameInteraction o (o.editing edit) ↔ o.AsksNothing edit := by
  have hactive : ∀ session ∈ edit.focus, ∀ projectID, (o.editing edit).activeLogical projectID =
      if projectID = session.projectID then edit.logicalID else o.activeLogical projectID := by
    intro session hfocus projectID
    have hfocus : edit.focus = some session := hfocus
    simp only [Operations.editing, hfocus, Operations.activeLogical, Operations.focus]
    by_cases hproject : projectID = session.projectID
    · rw [if_pos hproject, hproject, AList.lookup_insert]
      rfl
    · rw [if_neg hproject, AList.lookup_insert_ne hproject]
  constructor
  · intro hsame
    refine ⟨?_, fun session hfocus => ?_⟩
    · rw [← hsame.shown, Operations.shown_editing hsettled, setAt_self]
    · rw [← hsame.selected, hactive session hfocus, if_pos rfl]
  · intro hasks
    refine ⟨fun projectID => ?_, fun logicalID => ?_⟩
    · cases hfocus : edit.focus with
      | none => simp only [Operations.editing, hfocus, Operations.activeLogical]
      | some session =>
        rw [hactive session hfocus]
        split
        · next hproject => rw [hproject, hasks.focus session hfocus]
        · rfl
    · rw [Operations.shown_editing hsettled]
      refine setAt_induction (motive := fun other state => state = o.shown other) hasks.state
        (fun _ _ => rfl) logicalID

/-- The catalog takes an edit exactly when it takes the interaction state that was set. -/
theorem recordable_editing_iff (hsettled : edit.state.Settled o.sessions edit.logicalID)
    (hfocus : ∀ session ∈ edit.focus, logicalSessionID session = edit.logicalID) :
    (o.editing edit).Recordable env edit.logicalID ↔ o.CatalogTakes env edit := by
  rw [Operations.Recordable, Operations.CatalogTakes, Operations.shown_editing hsettled,
    setAt_self]
  cases hedit : edit.focus with
  | none => simp only [Operations.editing, Operations.selectionCalls, hedit]; rfl
  | some session =>
    have hlogical := hfocus session hedit
    have hcalls : (o.editing edit).selectionCalls edit.logicalID = 2 := by
      simp only [Operations.editing, Operations.selectionCalls, hedit, Operations.focus]
      exact if_pos hlogical
    rw [hcalls]
    simp only [Operations.editing, hedit, Operations.focus]
    rfl

theorem Consistent.editing (h : Consistent o)
    (hsettled : edit.state.Settled o.sessions edit.logicalID) : Consistent (o.editing edit) := by
  have hset := fun t (ht : Consistent t) =>
    @Consistent.topology t edit.logicalID ht edit.state hsettled.layoutsProper
  cases hedit : edit.focus with
  | none =>
    simp only [Operations.editing, hedit]
    exact hset o h
  | some session =>
    simp only [Operations.editing, hedit]
    exact hset _ (h.update (update_focus trivial edit.logicalID :
      Update (fun _ => True) o (o.focus session edit.logicalID)))

end Editing

/-- An edit is kept exactly when its interaction state is recorded. -/
theorem exec_keep (edit : Edit) : exec (responding .topology (keep env edit)) o =
    match exec (persistTopologyInteraction env edit.logicalID) o with
    | (.ok _, t) =>
      (.ok (.topology (topologyResponse env (t.reviseTopology edit.root.projectID)
        edit.root.projectID)), t.reviseTopology edit.root.projectID)
    | (.error err, t) => (.error err, t) := by
  rw [responding, keep, bind_assoc, exec_bind]
  rcases exec (persistTopologyInteraction env edit.logicalID) o with ⟨err | _, t⟩ <;> rfl

/-- A request that makes an edit fails exactly when the catalog does not take it, and then the
edit stays. -/
theorem failed_edit (h : Consistent o) {request : Request} (hselects : request.operation.Selects)
    {edit : Edit} (hedit : o.edit env request.operation = some edit) :
    (o.CatalogTakes env edit → ∀ err o', exec (handleMethod env request) o ≠ (.error err, o')) ∧
      (¬ o.CatalogTakes env edit → ∃ err o', exec (handleMethod env request) o = (.error err, o') ∧
        SameInteraction (o.editing edit) o') := by
  have hsound := h.sound_edit hedit
  have hconsistent := h.editing hsound.settled
  have hrun := @exec_selects env o h.reconcilable request hselects
  rw [hedit] at hrun
  dsimp only at hrun
  have hroot : edit.root ∈ (o.editing edit).sessions := by
    rw [Operations.sessions_editing]
    exact hsound.root
  have hrecorded : (exec (persistTopologyInteraction env edit.logicalID) (o.editing edit)).1.isOk ↔
      o.CatalogTakes env edit :=
    (persistTopologyInteraction_isOk_iff hconsistent hroot rfl).trans
      (recordable_editing_iff hsound.settled hsound.focus)
  have hunseen : Unseen (o.editing edit)
      (exec (persistTopologyInteraction env edit.logicalID) (o.editing edit)).2 :=
    hconsistent.reconcilable.unseen_persistTopologyInteraction.1
  rw [exec_keep] at hrun
  rw [hrun, ← hrecorded]
  rcases hpersist : exec (persistTopologyInteraction env edit.logicalID) (o.editing edit)
    with ⟨err | _, t⟩
  · rw [hpersist] at hunseen
    exact ⟨fun hok => absurd hok Bool.false_ne_true,
      fun _ => ⟨err, t, rfl, hunseen.sameInteraction⟩⟩
  · exact ⟨fun _ _ _ hexec => (nomatch hexec), fun hfailed => absurd rfl hfailed⟩

/-- **Failed selections.** In every reachable state, a request that selects, zooms or resizes and
fails leaves the selections and the interaction state as they were exactly when it is refused by
a check, the catalog takes what it sets, or it asks for what is there. -/
theorem selection_atomic_iff (persistencePath topologyEpoch : String) (persistScrollback : Bool)
    (scrollbackLines : ℕ) (hreach : Reaches Operations.step Always
      (.fresh persistencePath topologyEpoch persistScrollback scrollbackLines) o)
    (request : Request) (hselects : request.operation.Selects) :
    (∀ err o', exec (handleMethod env request) o = (.error err, o') → SameInteraction o o') ↔
      ∀ edit, o.edit env request.operation = some edit →
        o.CatalogTakes env edit ∨ o.AsksNothing edit := by
  have h := (Consistent.fresh persistencePath topologyEpoch persistScrollback
    scrollbackLines).of_reaches hreach
  constructor
  · intro hatomic edit hedit
    by_cases htakes : o.CatalogTakes env edit
    · exact .inl htakes
    · obtain ⟨err, o', hexec, hstays⟩ := (failed_edit h hselects hedit).2 htakes
      have hsame := (hatomic err o' hexec).trans hstays.symm
      exact .inr ((sameInteraction_editing_iff (h.sound_edit hedit).settled).mp hsame)
  · intro hcondition err o' hexec
    by_cases hedit : ∃ edit, o.edit env request.operation = some edit
    · obtain ⟨edit, hedit⟩ := hedit
      obtain ⟨hnever, hfails⟩ := failed_edit h hselects hedit
      by_cases htakes : o.CatalogTakes env edit
      · exact absurd hexec (hnever htakes err o')
      · obtain ⟨err', t, hrun, hstays⟩ := hfails htakes
        obtain rfl : t = o' := congrArg Prod.snd (hrun.symm.trans hexec)
        have hasks := (hcondition edit hedit).resolve_left htakes
        exact ((sameInteraction_editing_iff (h.sound_edit hedit).settled).mpr hasks).trans hstays
    · have hnone : o.edit env request.operation = none :=
        Option.eq_none_iff_forall_ne_some.mpr fun edit hsome => hedit ⟨edit, hsome⟩
      have hrun := @exec_selects env o h.reconcilable request hselects
      rw [hnone] at hrun
      obtain ⟨err', t, hrun, hunseen⟩ := hrun
      obtain rfl : t = o' := congrArg Prod.snd (hrun.symm.trans hexec)
      exact hunseen.sameInteraction

/-- A session whose only pane has ended, so that its row was removed from the catalog. -/
def endedSession : Operations :=
  ((Operations.fresh "state.db" "epoch" true 10000).after
    (.handle .calm { operation := .sessionCreate { command := "sh" } })).after
    (.paneExit .calm "session-1" none)

theorem endedSession_reaches :
    Reaches Operations.step Always (.fresh "state.db" "epoch" true 10000) endedSession :=
  ⟨[.handle .calm { operation := .sessionCreate { command := "sh" } },
    .paneExit .calm "session-1" none], .cons trivial rfl (.single trivial rfl)⟩

def zoomEnded : Request where
  operation := .paneZoom { sessionID := "session-1", windowID := "window-1", paneID := "pane-1" }

/-- Zooming the pane of such a session fails, and the pane is zoomed. -/
theorem not_selection_atomic : ¬ ∀ o,
    Reaches Operations.step Always (.fresh "state.db" "epoch" true 10000) o →
      ∀ (env : Env) (request : Request), request.operation.Selects →
        ∀ err o', exec (handleMethod env request) o = (.error err, o') → SameInteraction o o' := by
  intro hclaim
  have hfailed : (exec (handleMethod .calm zoomEnded) endedSession).1.isOk = false := by
    decide +kernel
  have hzoomed : ((exec (handleMethod .calm zoomEnded) endedSession).2.shown
      "session-1").zoomedPaneByWindow "window-1" = "pane-1" := by
    decide +kernel
  have hbefore : (endedSession.shown "session-1").zoomedPaneByWindow "window-1" = "" := by
    decide +kernel
  rcases hexec : exec (handleMethod .calm zoomEnded) endedSession with ⟨err | _, o'⟩
  · have hsame := hclaim endedSession endedSession_reaches .calm zoomEnded trivial err o' hexec
    rw [hexec, hsame.shown, hbefore] at hzoomed
    exact absurd hzoomed (by decide)
  · rw [hexec] at hfailed
    exact nomatch hfailed

theorem state_windowSelect {input : SelectWindowRequest} {edit : Edit}
    (hedit : o.edit env (.windowSelect input) = some edit) :
    edit.state = { o.shown edit.logicalID with activeWindowID := input.windowID } := by
  rw [Operations.edit] at hedit
  split at hedit
  · exact nomatch hedit
  · obtain ⟨root, -, hedit⟩ := Option.bind_eq_some_iff.mp hedit
    obtain ⟨-, hsome⟩ := Option.ite_none_right_eq_some.mp hedit
    obtain rfl := Option.some.inj hsome
    rfl

theorem activate_self {state : TopologyState} {windowID : String}
    (h : state.activeWindowID = windowID) : { state with activeWindowID := windowID } = state := by
  subst h
  rfl

def selectEnded : Request where
  operation := .windowSelect { sessionID := "session-1", windowID := "window-1" }

/-- Selecting the window that is active already fails as well, and changes nothing. -/
theorem selection_atomic_iff_selectEnded :
    (exec (handleMethod .calm selectEnded) endedSession).1.isOk = false ∧
      ∀ err o', exec (handleMethod .calm selectEnded) endedSession = (.error err, o') →
        SameInteraction endedSession o' := by
  refine ⟨by decide +kernel, (selection_atomic_iff "state.db" "epoch" true 10000
    endedSession_reaches selectEnded trivial).mpr fun edit hedit => .inr ?_⟩
  have hroot : (endedSession.edit .calm selectEnded.operation).map (fun edit =>
      (edit.logicalID, edit.focus.map (·.projectID))) = some ("session-1", some "standalone") := by
    decide +kernel
  have hactive : (endedSession.shown "session-1").activeWindowID = "window-1" := by
    decide +kernel
  rw [hedit, Option.map_some, Option.some.injEq, Prod.mk.injEq] at hroot
  refine ⟨?_, fun session hfocus => ?_⟩
  · rw [state_windowSelect hedit, hroot.1]
    exact activate_self hactive
  · have hproject := hroot.2
    rw [show edit.focus = some session from hfocus] at hproject
    have hproject : session.projectID = "standalone" := Option.some.inj hproject
    rw [hproject, hroot.1]
    decide +kernel

end AgentCockpit.Mux
