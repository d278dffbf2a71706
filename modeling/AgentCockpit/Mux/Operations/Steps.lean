import AgentCockpit.Mux.Operations.CatalogWrites

/-!
# Handlers act on behalf of projects

Every handler is a sequence of updates on behalf of the project of the session or pane it
is addressed to, and what it answers is about that project. The proofs follow the handlers
statement by statement.
-/

namespace AgentCockpit.Mux

open AgentCockpit.Core

variable {scope : String → Prop} {env : Env} {o : Operations} {session : ManagedSession}
variable {logicalID paneID : String}

/-! ### Lookups -/

section Lookups

variable {α : Type} {R : Operations → Operations → Prop} [Std.Refl R]
variable {goal : α → Operations → Prop}

theorem requireMutable_bind {f : Unit → OpsM α} (h : Leads R (f ()) o goal) :
    Leads R (requireMutable >>= f) o goal :=
  .assoc (.get_bind (.require_bind fun _ => h))

theorem requireSession_bind {sessionID : String} {f : ManagedSession → OpsM α}
    (h : ∀ session ∈ o.sessions, session.id = sessionID → Leads R (f session) o goal) :
    Leads R (requireSession sessionID >>= f) o goal :=
  .assoc (.get_bind (.orThrow_bind fun session hfound =>
    h session (of_findSession hfound).1 (of_findSession hfound).2))

theorem requirePane_bind {f : ManagedSession → OpsM α}
    (h : ∀ session ∈ o.sessions, session.paneID = paneID → Leads R (f session) o goal) :
    Leads R (requirePane paneID >>= f) o goal :=
  .assoc (.get_bind (.orThrow_bind fun session hfound =>
    h session (of_findPane hfound).1 (of_findPane hfound).2))

theorem logicalSession_some {sessionID : String}
    (h : logicalSession env o.sessions sessionID = some session) : session ∈ o.sessions := by
  unfold logicalSession at h
  split at h
  · next hfound => exact Option.some.inj h ▸ (of_findSession hfound).1
  · exact (env.walk_perm _ _).mem_iff.mp (List.mem_of_find?_eq_some h)

theorem requireLogicalSession_bind {sessionID : String} {f : ManagedSession → OpsM α}
    (h : ∀ session, logicalSession env o.sessions sessionID = some session →
      Leads R (f session) o goal) :
    Leads R (requireLogicalSession env sessionID >>= f) o goal :=
  .assoc (.get_bind (.orThrow_bind h))

theorem requirePaneIn_bind {windowID : String} {f : ManagedSession → OpsM α}
    (h : ∀ pane ∈ o.sessions, pane.paneID = paneID → logicalSessionID pane = logicalID →
      pane.windowID = windowID → Leads R (f pane) o goal) :
    Leads R (requirePaneIn paneID logicalID windowID >>= f) o goal :=
  .assoc (requirePane_bind fun pane hmem hpane => .assoc (.require_bind fun hin =>
    .pure_bind (h pane hmem hpane hin.1 hin.2)))

theorem requireWindow_bind {windowID : String} {f : Unit → OpsM α}
    (h : windowBelongsToLogicalSession o.sessions logicalID windowID → Leads R (f ()) o goal) :
    Leads R (requireWindow logicalID windowID >>= f) o goal :=
  .assoc (.get_bind (.require_bind h))

end Lookups

/-! ### Successful lookups -/

section Successful

variable {α : Type} {a : α} {o' : Operations}

theorem exec_requireMutable_bind_ok {f : Unit → OpsM α}
    (h : exec (requireMutable >>= f) o = (.ok a, o')) : exec (f ()) o = (.ok a, o') := by
  rw [requireMutable, bind_assoc, exec_get_bind] at h
  exact (exec_require_bind_ok h).2

theorem exec_requirePane_bind_ok {f : ManagedSession → OpsM α}
    (h : exec (requirePane paneID >>= f) o = (.ok a, o')) :
    ∃ session, findPane o.sessions paneID = some session ∧ exec (f session) o = (.ok a, o') := by
  rw [requirePane, bind_assoc, exec_get_bind] at h
  exact exec_orThrow_bind_ok h

theorem exec_requireLogicalSession_bind_ok {sessionID : String} {f : ManagedSession → OpsM α}
    (h : exec (requireLogicalSession env sessionID >>= f) o = (.ok a, o')) :
    ∃ session, logicalSession env o.sessions sessionID = some session ∧
      exec (f session) o = (.ok a, o') := by
  rw [requireLogicalSession, bind_assoc, exec_get_bind] at h
  exact exec_orThrow_bind_ok h

end Successful

/-! ### Calls to panes -/

theorem leads_recordCall (action : PaneAction) (hscope : InScope scope o (·.paneID = paneID)) :
    Leads (Updates scope) (recordCall paneID action) o fun _ t =>
      t.sessions = o.sessions := by
  refine (Leads.of_modify (.single (.quiet ?_))).mono fun _ _ ht => ht ▸ rfl
  refine ⟨rfl, rfl, rfl, rfl, rfl, rfl, rfl, _, rfl, fun call hcall => ?_⟩
  obtain rfl := List.mem_singleton.mp hcall
  exact hscope

/-- A call to a pane in scope; the sessions stay as they are. -/
theorem leads_callPane {α : Type} {action : PaneAction} {outcome : Except String α}
    {context : String} (hscope : InScope scope o (·.paneID = paneID)) :
    Leads (Updates scope) (callPane env paneID action outcome context) o fun _ t =>
      t.sessions = o.sessions := by
  refine (leads_recordCall action hscope).bind fun _ t _ ht => ?_
  refine ((leads_attachmentWrites _).relate.weaken fun _ _ => Records.updates).bind
    fun _ u _ hu => Leads.of_orRaise.mono fun _ _ h => ?_
  rw [h.2, hu.1.sessions, ht]

/-! ### Snapshots -/

/-- The interaction state of every logical session of a project is settled. -/
def SettledIn (o : Operations) (projectID : String) : Prop :=
  ∀ logicalID ∈ projectLogicalIDs o projectID,
    (o.topologyState logicalID).Settled o.sessions logicalID

/-- A snapshot of a project in scope, taken in a settled state. -/
def Answer (scope : String → Prop) (env : Env) (response : TopologyResponse) (o : Operations) :
    Prop :=
  ∃ projectID, scope projectID ∧ SettledIn o projectID ∧
    response = topologyResponse env o projectID

theorem mem_projectLogicalIDs {projectID : String} : logicalID ∈ projectLogicalIDs o projectID ↔
    ∃ session ∈ o.sessions, session.projectID = projectID ∧
      logicalSessionID session = logicalID := by
  simp only [projectLogicalIDs, projectSessions, mem_sortedKeys, List.mem_map, List.mem_filter,
    decide_eq_true_eq, and_assoc]

/-- Reconciling the logical sessions of a list settles them. -/
theorem normalizeTopologies (h : Consistent o) {logicalIDs : List String}
    (hscope : ∀ logicalID ∈ logicalIDs, InScope scope o (logicalSessionID · = logicalID)) :
    Updates scope o (logicalIDs.foldl Operations.normalizeTopology o) ∧
      (logicalIDs.foldl Operations.normalizeTopology o).sessions = o.sessions ∧
      ∀ logicalID, logicalID ∈ logicalIDs ∨
          (o.topologyState logicalID).Settled o.sessions logicalID →
        ((logicalIDs.foldl Operations.normalizeTopology o).topologyState logicalID).Settled
          o.sessions logicalID := by
  induction logicalIDs generalizing o with
  | nil => exact ⟨.refl, rfl, fun logicalID hin => hin.resolve_left List.not_mem_nil⟩
  | cons first rest ih =>
    have hstep : CatalogWrite scope (fun _ _ => False) o (o.normalizeTopology first) :=
      catalogWrite_normalizeTopology h (hscope first List.mem_cons_self)
    obtain ⟨hupdates, hsessions, hsettled⟩ := ih (h.updates hstep.updates)
      fun logicalID hmem => (hscope logicalID (List.mem_cons_of_mem _ hmem)).updates
        (byIdentity_logical _) hstep.updates
    refine ⟨hstep.updates.trans hupdates, hsessions, fun logicalID hin => hsettled logicalID ?_⟩
    by_cases hfirst : logicalID = first
    · subst hfirst
      exact .inr (settled_normalizeTopology h logicalID)
    · have hother : (o.normalizeTopology first).topologyState logicalID =
        o.topologyState logicalID :=
        setAt_of_ne _ _ hfirst
      rw [hother]
      exact hin.imp_left fun hmem => (List.mem_cons.mp hmem).resolve_left hfirst

/-- **A snapshot is taken in a settled state.** -/
theorem leads_topologyLocked (h : Consistent o) {projectID : String} (hscope : scope projectID) :
    Leads (Updates scope) (topologyLocked env projectID) o (Answer scope env) := by
  have hrevised : Quiet scope o { o with topologyRevision := o.topologyRevision + 1 } :=
    ⟨rfl, rfl, rfl, rfl, rfl, rfl, rfl, [], (List.append_nil _).symm, nofun⟩
  have hall : ∀ logicalID ∈ projectLogicalIDs o projectID,
      InScope scope { o with topologyRevision := o.topologyRevision + 1 }
        (logicalSessionID · = logicalID) := by
    intro logicalID hmem
    obtain ⟨session, hsession, hproject, hlogical⟩ := mem_projectLogicalIDs.mp hmem
    exact .of_logical (h.quiet hrevised) hsession (hproject ▸ hscope) hlogical
  obtain ⟨hupdates, hsessions, hsettled⟩ := normalizeTopologies (h.quiet hrevised) hall
  refine .modify_bind (.head (.quiet hrevised) hupdates) (.get_bind (.of_pure ?_))
  refine ⟨projectID, hscope, fun logicalID hmem => ?_, rfl⟩
  have hkept : (o.reviseTopology projectID).sessions = o.sessions := hsessions
  rw [mem_projectLogicalIDs, hkept, ← mem_projectLogicalIDs] at hmem
  rw [hkept]
  exact hsettled logicalID (.inl hmem)

/-! ### Requests on the interaction state -/

theorem update_focus (hscope : scope session.projectID) (logicalID : String) :
    Update scope o (o.focus session logicalID) := by
  refine .select (some session) _ fun projectID hother => AList.lookup_insert_ne ?_
  rintro rfl
  exact hother hscope

theorem update_topology (hscope : InScope scope o (logicalSessionID · = logicalID))
    {state : TopologyState} (hstate : state.LayoutsProper) :
    Updates scope o { o with topologyState := setAt o.topologyState logicalID state } :=
  .single (.topology logicalID state hscope hstate)

/-- Replacing the layout of one window by a proper one. -/
theorem TopologyState.LayoutsProper.setAt {state : TopologyState} (h : state.LayoutsProper)
    {windowID : String} {layout : TopologyLayoutNode} (hlayout : layout.ProperOrNil)
    (hnodup : layout.leaves.Nodup) (other : String) :
    (Mux.setAt state.layoutByWindow windowID layout other).ProperOrNil ∧
      (Mux.setAt state.layoutByWindow windowID layout other).leaves.Nodup := by
  unfold Mux.setAt
  split
  · exact ⟨hlayout, hnodup⟩
  · exact h other

/-- Recording the interaction state keeps the sessions. -/
theorem leads_recordInteraction (h : Consistent o)
    (hscope : InScope scope o (logicalSessionID · = logicalID)) :
    Leads (Updates scope) (persistTopologyInteraction env logicalID) o fun _ t =>
      t.sessions = o.sessions := by
  have hwrite : Leads (CatalogWrite scope fun _ _ => False)
      (persistTopologyInteraction env logicalID) o fun _ _ => True :=
    leads_persistTopologyInteraction h hscope
  exact (hwrite.relate.weaken fun _ _ => CatalogWrite.updates).mono fun _ _ ht => ht.1.sessions

/-- Keep a new interaction state, record it, and answer with a snapshot. -/
theorem leads_keepTopology (h : Consistent o)
    (hscope : InScope scope o (logicalSessionID · = logicalID)) {state : TopologyState}
    (hstate : state.LayoutsProper) {projectID : String} (hproject : scope projectID) :
    Leads (Updates scope) (do
      setTopologyState logicalID state
      persistTopologyInteraction env logicalID
      topologyLocked env projectID) o (Answer scope env) := by
  have hset := update_topology hscope hstate
  have hconsistent := h.updates hset
  refine .modify_bind hset ?_
  refine (leads_recordInteraction hconsistent
    (hscope.updates (byIdentity_logical _) hset)).bind fun _ t ht _ => ?_
  exact leads_topologyLocked (hconsistent.updates ht) hproject

/-- Reading the interaction state of a logical session in scope. -/
theorem topologyState_bind {α : Type} {f : TopologyState → OpsM α} {goal : α → Operations → Prop}
    (h : Consistent o) (hscope : InScope scope o (logicalSessionID · = logicalID))
    (hf : ∀ state t, Updates scope o t → t.sessions = o.sessions →
      state.Settled o.sessions logicalID → Leads (Updates scope) (f state) t goal) :
    Leads (Updates scope) (topologyState logicalID >>= f) o goal := by
  have hwrite : Leads (CatalogWrite scope fun _ _ => False) (topologyState logicalID) o _ :=
    leads_topologyState h hscope
  exact (hwrite.relate.weaken fun _ _ => CatalogWrite.updates).bind
    fun state t ht hstate => hf state t ht hstate.1.sessions hstate.2.1

section Interaction

variable (h : Consistent o)
include h

theorem leads_selectWindow (input : SelectWindowRequest)
    (hscope : ∀ root, logicalSession env o.sessions input.sessionID = some root →
      scope root.projectID) :
    Leads (Updates scope) (selectWindow env input) o (Answer scope env) := by
  refine requireMutable_bind (requireLogicalSession_bind fun root hroot =>
    requireWindow_bind fun _ => ?_)
  have hproject := hscope root hroot
  have hlogical := InScope.of_logical h (logicalSession_some hroot) hproject rfl
  have hfocus : Updates scope o (o.focus root (logicalSessionID root)) :=
    .single (update_focus hproject _)
  refine .modify_bind hfocus (topologyState_bind (h.updates hfocus) hlogical
    fun state t ht _ hsettled => ?_)
  have hlogical := hlogical.updates (byIdentity_logical _) (hfocus.trans ht)
  refine leads_keepTopology ((h.updates hfocus).updates ht) hlogical ?_ hproject
  exact hsettled.layoutsProper

theorem leads_selectPane (input : SelectPaneRequest)
    (hscope : ∀ root, logicalSession env o.sessions input.sessionID = some root →
      scope root.projectID) :
    Leads (Updates scope) (selectPane env input) o (Answer scope env) := by
  refine requireMutable_bind (requireLogicalSession_bind fun root hroot =>
    requirePaneIn_bind fun pane hpane _ hsame _ => ?_)
  have hproject := hscope root hroot
  have hlogical := InScope.of_logical h (logicalSession_some hroot) hproject rfl
  refine topologyState_bind h hlogical fun state t ht _ hsettled => ?_
  have hfocus : Updates scope t (t.focus pane (logicalSessionID root)) :=
    .single (update_focus (hlogical pane hpane hsame) _)
  refine .modify_bind hfocus ?_
  have hlogical := hlogical.updates (byIdentity_logical _) (ht.trans hfocus)
  refine leads_keepTopology ((h.updates ht).updates hfocus) hlogical ?_ hproject
  exact hsettled.layoutsProper

theorem leads_zoomPane (input : ZoomPaneRequest)
    (hscope : ∀ root, logicalSession env o.sessions input.sessionID = some root →
      scope root.projectID) :
    Leads (Updates scope) (zoomPane env input) o (Answer scope env) := by
  refine requireMutable_bind (requireLogicalSession_bind fun root hroot =>
    requireWindow_bind fun _ => ?_)
  have hproject := hscope root hroot
  have hlogical := InScope.of_logical h (logicalSession_some hroot) hproject rfl
  have hzoomed : Leads (Updates scope)
      (requireZoomed input.paneID (logicalSessionID root) input.windowID) o
      fun _ t => t = o := by
    unfold requireZoomed
    split
    · exact .of_pure rfl
    · exact requirePaneIn_bind fun _ _ _ _ _ => .of_pure rfl
  refine hzoomed.bind fun _ t _ ht => ?_
  subst ht
  refine topologyState_bind h hlogical fun state u hu _ hsettled => ?_
  have hlogical := hlogical.updates (byIdentity_logical _) hu
  refine leads_keepTopology (h.updates hu) hlogical ?_ hproject
  exact hsettled.layoutsProper

theorem leads_resizeSplit (input : ResizeSplitRequest)
    (hscope : ∀ root, logicalSession env o.sessions input.sessionID = some root →
      scope root.projectID) :
    Leads (Updates scope) (resizeSplit env input) o (Answer scope env) := by
  refine .require_bind fun _ => requireMutable_bind (requireLogicalSession_bind fun root hroot =>
    requirePaneIn_bind fun pane hpane _ hsame hwindow => ?_)
  have hproject := hscope root hroot
  have hlogical := InScope.of_logical h (logicalSession_some hroot) hproject rfl
  refine topologyState_bind h hlogical fun state t ht _ hsettled => .require_bind fun _ => ?_
  refine leads_keepTopology (h.updates ht) (hlogical.updates (byIdentity_logical _) ht) ?_ hproject
  -- the pane is in the window, so the window has a tree to resize
  have hordered : input.windowID ∈ state.windowOrder :=
    (hsettled.mem_order _).mpr
      (mem_windowKeys.mpr ⟨pane, hpane, hsame, (h.windowKey_eq hpane).trans hwindow⟩)
  obtain ⟨hproper, hnodup, -⟩ := hsettled.layout _ hordered
  obtain ⟨hresized, hleaves⟩ := hproper.resizeLayoutPane input.paneID input.ratio
  exact fun other => hsettled.layoutsProper.setAt hresized.orNil (hleaves ▸ hnodup) other

end Interaction

end AgentCockpit.Mux
