import AgentCockpit.Mux.Operations.Updates

/-!
# Writes to the databases

What the daemon's own bookkeeping can change. A record keeps everything in memory and binds
no window. A catalog write may also reconcile interaction state, and may bind one window.
-/

namespace AgentCockpit.Mux

open AgentCockpit.Core

/-- Only the databases change, and no window is bound that was not. -/
structure Records (o o' : Operations) : Prop where
  sessions : o'.sessions = o.sessions
  nextSession : o'.nextSession = o.nextSession
  nextWindow : o'.nextWindow = o.nextWindow
  topologyState : o'.topologyState = o.topologyState
  session : o'.session = o.session
  activeLogicalByProject : o'.activeLogicalByProject = o.activeLogicalByProject
  paneCalls : o'.paneCalls = o.paneCalls
  bound : ∀ window logical, o'.store.Bound window logical → o.store.Bound window logical

/-- The catalog is written on behalf of the projects in scope. The windows it binds are the
ones that were bound, and those in `extra`. -/
structure CatalogWrite (scope : String → Prop) (extra : String → String → Prop)
    (o o' : Operations) : Prop where
  updates : Updates scope o o'
  sessions : o'.sessions = o.sessions
  nextSession : o'.nextSession = o.nextSession
  nextWindow : o'.nextWindow = o.nextWindow
  bound : ∀ window logical, Bound o' window logical → Bound o window logical ∨ extra window logical

variable {scope : String → Prop} {extra : String → String → Prop} {o o' o'' : Operations}
variable {session : ManagedSession} {logicalID : String}

namespace Records

theorem refl (o : Operations) : Records o o :=
  ⟨rfl, rfl, rfl, rfl, rfl, rfl, rfl, fun _ _ => id⟩

theorem trans (h : Records o o') (h' : Records o' o'') : Records o o'' where
  sessions := h'.sessions.trans h.sessions
  nextSession := h'.nextSession.trans h.nextSession
  nextWindow := h'.nextWindow.trans h.nextWindow
  topologyState := h'.topologyState.trans h.topologyState
  session := h'.session.trans h.session
  activeLogicalByProject := h'.activeLogicalByProject.trans h.activeLogicalByProject
  paneCalls := h'.paneCalls.trans h.paneCalls
  bound := fun w l hl => h.bound w l (h'.bound w l hl)

theorem updates (h : Records o o') : Updates scope o o' := by
  have hshrink : Update scope o { o with store := o'.store } := .shrink o'.store h.bound
  refine .tail (.single hshrink) (.quiet ⟨h.sessions, h.nextSession, h.nextWindow,
    h.topologyState, h.session, h.activeLogicalByProject, rfl, [], ?_, nofun⟩)
  rw [h.paneCalls, List.append_nil]

theorem catalogWrite (h : Records o o') : CatalogWrite scope extra o o' := by
  refine ⟨h.updates, h.sessions, h.nextSession, h.nextWindow, fun w l hl => .inl ?_⟩
  rw [Bound, h.sessions] at hl
  exact hl.imp_right (h.bound w l)

theorem tick (o : Operations) : Records o o.tick :=
  ⟨rfl, rfl, rfl, rfl, rfl, rfl, rfl, fun _ _ => id⟩

end Records

instance : Std.Refl Records := ⟨.refl⟩

instance : IsTrans Operations Records := ⟨fun _ _ _ => .trans⟩

namespace CatalogWrite

theorem refl (o : Operations) : CatalogWrite scope extra o o :=
  ⟨.refl, rfl, rfl, rfl, fun _ _ => .inl⟩

theorem trans (h : CatalogWrite scope extra o o') (h' : CatalogWrite scope extra o' o'') :
    CatalogWrite scope extra o o'' where
  updates := h.updates.trans h'.updates
  sessions := h'.sessions.trans h.sessions
  nextSession := h'.nextSession.trans h.nextSession
  nextWindow := h'.nextWindow.trans h.nextWindow
  bound := fun w l hl => (h'.bound w l hl).elim (h.bound w l) .inr

/-- A window that may be bound may still be bound after a write that binds it. -/
theorem placed (h : CatalogWrite scope (fun w l => w = session.windowID ∧
    l = session.logicalSessionID) o o') (hplaced : Placed o session.windowID
    session.logicalSessionID) : Placed o' session.windowID session.logicalSessionID := by
  refine ⟨fun other hother => ?_, ?_⟩
  · rcases h.bound _ _ hother with hold | ⟨-, rfl⟩
    · exact hplaced.unique other hold
    · rfl
  · rw [h.nextWindow]
    exact hplaced.numbered

theorem admissible (h : CatalogWrite scope (fun w l => w = session.windowID ∧
    l = session.logicalSessionID) o o') (hsession : Admissible o session) :
    Admissible o' session where
  numbered := h.nextSession ▸ hsession.numbered
  logical := h.nextSession ▸ hsession.logical
  fresh := h.sessions ▸ hsession.fresh
  named := hsession.named
  project := h.sessions ▸ hsession.project
  placed := h.placed hsession.placed

end CatalogWrite

instance : Std.Refl (CatalogWrite scope extra) := ⟨.refl⟩

instance : IsTrans Operations (CatalogWrite scope extra) := ⟨fun _ _ _ => .trans⟩

/-! ### Bindings under the store's operations -/

namespace Store

variable {store store' : Store} {windowID : String}

/-- An operation that binds no window. -/
def Shrinks (call : Store → Except String Store) : Prop :=
  ∀ store store', call store = .ok store' →
    ∀ window logical, store'.Bound window logical → store.Bound window logical

/-- Only the bindings of windows and panes matter. -/
theorem Bound.mono
    (hwindows : ∀ row ∈ store'.windows, ∃ old ∈ store.windows,
      old.id = row.id ∧ old.sessionID = row.sessionID)
    (hpanes : ∀ row ∈ store'.panes, ∃ old ∈ store.panes,
      old.windowID = row.windowID ∧ old.sessionID = row.sessionID)
    (h : store'.Bound windowID logicalID) : store.Bound windowID logicalID := by
  rcases h with ⟨row, hrow, rfl, rfl⟩ | ⟨row, hrow, rfl, rfl⟩
  · exact .inl (hwindows row hrow)
  · exact .inr (hpanes row hrow)

theorem Bound.of_sublist (hwindows : store'.windows.Sublist store.windows)
    (hpanes : store'.panes.Sublist store.panes) (h : store'.Bound windowID logicalID) :
    store.Bound windowID logicalID :=
  h.mono (fun row hrow => ⟨row, hwindows.mem hrow, rfl, rfl⟩)
    fun row hrow => ⟨row, hpanes.mem hrow, rfl, rfl⟩

/-- An operation that keeps the rows of windows and panes. -/
theorem shrinks_of_rows {call : Store → Except String Store}
    (h : ∀ store store', call store = .ok store' →
      store'.windows = store.windows ∧ store'.panes = store.panes) : Shrinks call := by
  intro store store' hcall w l
  obtain ⟨hwindows, hpanes⟩ := h store store' hcall
  exact Bound.of_sublist (hwindows ▸ .refl _) (hpanes ▸ .refl _)

theorem shrinks_ok : Shrinks .ok :=
  shrinks_of_rows fun _ _ h => Except.ok.inj h ▸ ⟨rfl, rfl⟩

theorem shrinks_saveKeyframe (keyframe : Keyframe) : Shrinks (·.saveKeyframe keyframe) := by
  refine shrinks_of_rows fun store store' h => ?_
  simp only [saveKeyframe] at h
  split at h
  · exact Except.ok.inj h ▸ ⟨rfl, rfl⟩
  · exact nomatch h

theorem shrinks_savePaneKeyframe (paneID : String) (keyframe : Keyframe) :
    Shrinks (·.savePaneKeyframe paneID keyframe) := by
  refine shrinks_of_rows fun store store' h => ?_
  simp only [savePaneKeyframe] at h
  split at h
  · exact nomatch h
  · split at h
    · exact Except.ok.inj h ▸ ⟨rfl, rfl⟩
    · exact nomatch h

theorem shrinks_appendBatch (chunks : List TailChunk) : Shrinks (·.appendBatch chunks) := by
  refine shrinks_of_rows fun store store' h => ?_
  simp only [appendBatch] at h
  split at h
  · next first last _ _ =>
    cases hcheck : checkBatch chunks ((store.tailBatches.map (·.data.length)).sum)
        (store.tailBatches.getLast?.map (·.lastSequence)) with
    | error _ =>
      rw [hcheck] at h
      exact nomatch h
    | ok _ =>
      rw [hcheck] at h
      exact Except.ok.inj h ▸ ⟨rfl, rfl⟩
  · exact Except.ok.inj h ▸ ⟨rfl, rfl⟩

theorem shrinks_appendPaneBatch (paneID : String) (chunks : List TailChunk) :
    Shrinks (·.appendPaneBatch paneID chunks) := by
  refine shrinks_of_rows fun store store' h => ?_
  simp only [appendPaneBatch] at h
  split at h
  · exact nomatch h
  split at h
  · exact Except.ok.inj h ▸ ⟨rfl, rfl⟩
  obtain ⟨_, -, h⟩ := bind_eq_ok h
  split at h
  · exact Except.ok.inj h ▸ ⟨rfl, rfl⟩
  · exact nomatch h

theorem shrinks_upsertSession (record : SessionRecord) : Shrinks (·.upsertSession record) := by
  refine shrinks_of_rows fun store store' h => ?_
  simp only [upsertSession] at h
  split at h
  · exact nomatch h
  · exact Except.ok.inj h ▸ ⟨rfl, rfl⟩

theorem shrinks_setSessionPinned (id : String) (pinned : Bool) :
    Shrinks (·.setSessionPinned id pinned) := by
  refine shrinks_of_rows fun store store' h => ?_
  simp only [setSessionPinned] at h
  split at h
  · exact Except.ok.inj h ▸ ⟨rfl, rfl⟩
  · exact nomatch h

theorem shrinks_setActiveLogicalSession (projectID sessionID : String) :
    Shrinks (·.setActiveLogicalSession projectID sessionID) := by
  refine shrinks_of_rows fun store store' h => ?_
  simp only [setActiveLogicalSession] at h
  split at h
  · exact Except.ok.inj h ▸ ⟨rfl, rfl⟩
  · exact nomatch h

theorem shrinks_clear : Shrinks fun store => .ok store.clear :=
  shrinks_of_rows fun _ _ h => Except.ok.inj h ▸ ⟨rfl, rfl⟩

theorem shrinks_clearContent : Shrinks fun store => .ok store.clearContent :=
  shrinks_of_rows fun _ _ h => Except.ok.inj h ▸ ⟨rfl, rfl⟩

theorem panes_deletePanes_sublist (store : Store) (doomed : PaneRecord → Bool) :
    (store.deletePanes doomed).panes.Sublist store.panes :=
  List.filter_sublist

theorem panes_deleteWindows_sublist (store : Store) (doomed : WindowRecord → Bool) :
    (store.deleteWindows doomed).panes.Sublist store.panes :=
  panes_deletePanes_sublist _ _

theorem windows_deleteWindows_sublist (store : Store) (doomed : WindowRecord → Bool) :
    (store.deleteWindows doomed).windows.Sublist store.windows :=
  List.filter_sublist

theorem panes_deleteSessions_sublist (store : Store) (doomed : SessionRecord → Bool) :
    (store.deleteSessions doomed).panes.Sublist store.panes :=
  (panes_deletePanes_sublist _ _).trans (panes_deleteWindows_sublist _ _)

theorem windows_deleteSessions_sublist (store : Store) (doomed : SessionRecord → Bool) :
    (store.deleteSessions doomed).windows.Sublist store.windows :=
  windows_deleteWindows_sublist _ _

theorem windows_destroyPane_sublist (store : Store) (id : String) :
    (store.destroyPane id).windows.Sublist store.windows :=
  (windows_deleteSessions_sublist _ _).trans (windows_deleteWindows_sublist _ _)

theorem panes_destroyPane_sublist (store : Store) (id : String) :
    (store.destroyPane id).panes.Sublist store.panes :=
  (panes_deleteSessions_sublist _ _).trans ((panes_deleteWindows_sublist _ _).trans
    (panes_deletePanes_sublist _ _))

theorem shrinks_destroySession (id : String) :
    Shrinks fun store => .ok (store.destroySession id) := by
  intro store store' h w l
  obtain rfl := Except.ok.inj h
  exact Bound.of_sublist (windows_deleteSessions_sublist _ _) (panes_deleteSessions_sublist _ _)

theorem shrinks_destroyPane (id : String) : Shrinks fun store => .ok (store.destroyPane id) := by
  intro store store' h w l
  obtain rfl := Except.ok.inj h
  exact Bound.of_sublist (windows_destroyPane_sublist _ _) (panes_destroyPane_sublist _ _)

theorem mem_upsertBy {α : Type} {key : α → String} {update : α → α → α} {row other : α}
    {rows : List α} (h : other ∈ upsertBy key update row rows) :
    other ∈ rows ∨ other = row ∨ ∃ old ∈ rows, key old = key row ∧ other = update old row := by
  unfold upsertBy at h
  split at h
  · obtain ⟨old, hold, heq⟩ := List.mem_map.mp h
    split at heq
    · next hkey => exact .inr (.inr ⟨old, hold, hkey, heq.symm⟩)
    · exact .inl (heq ▸ hold)
  · rcases List.mem_append.mp h with hold | hnew
    · exact .inl hold
    · exact .inr (.inl (List.mem_singleton.mp hnew))

/-- Recording a window binds at most it. -/
theorem bound_upsertWindow {record : WindowRecord} (h : store.upsertWindow record = .ok store')
    (hbound : store'.Bound windowID logicalID) :
    store.Bound windowID logicalID ∨ windowID = record.id ∧ logicalID = record.sessionID := by
  unfold upsertWindow at h
  split at h
  · exact nomatch h
  split at h
  · obtain rfl := Except.ok.inj h
    rcases hbound with ⟨row, hrow, rfl, rfl⟩ | hpane
    · have hrow : row ∈ upsertBy (·.id) (fun _ new => new) record store.windows := hrow
      rcases mem_upsertBy hrow with hold | rfl | ⟨old, -, -, rfl⟩
      · exact .inl (.inl ⟨row, hold, rfl, rfl⟩)
      · exact .inr ⟨rfl, rfl⟩
      · exact .inr ⟨rfl, rfl⟩
    · exact .inl (.inr hpane)
  · exact nomatch h

theorem bound_upsertPane {record : PaneRecord} (h : store.upsertPane record = .ok store')
    (hbound : store'.Bound windowID logicalID) :
    store.Bound windowID logicalID ∨
      windowID = record.windowID ∧ logicalID = record.sessionID := by
  unfold upsertPane at h
  split at h
  · exact nomatch h
  split at h
  · obtain rfl := Except.ok.inj h
    rcases hbound with hwindow | ⟨row, hrow, rfl, rfl⟩
    · exact .inl (.inl hwindow)
    · have hrow : row ∈ upsertBy (·.id) (fun _ new => new) record store.panes := hrow
      rcases mem_upsertBy hrow with hold | rfl | ⟨old, -, -, rfl⟩
      · exact .inl (.inr ⟨row, hold, rfl, rfl⟩)
      · exact .inr ⟨rfl, rfl⟩
      · exact .inr ⟨rfl, rfl⟩
  · exact nomatch h

end Store

/-! ### Calls -/

section Calls

variable {env : Env} {context : String}
variable {R : Operations → Operations → Prop} [Std.Refl R]

/-- **One call to `state.db`.** It leaves the database as it was, or changed by the call. -/
theorem leads_storeCall [IsTrans Operations R] {call : Store → Except String Store}
    (htick : R o o.tick)
    (hcall : ∀ store, call o.store = .ok store → R o.tick { o.tick with store }) :
    Leads R (storeCall env context call) o fun _ t =>
      ∃ store, call o.store = .ok store ∧ t = { o.tick with store } := by
  refine .get_bind (.set_bind htick (.orRaise_bind fun store hstore => ?_))
  have hok := (orFail_eq_ok hstore).2
  exact (Leads.of_modify (hcall store hok)).mono fun _ t ht => ⟨store, hok, ht⟩

/-- One call to `history.db`. -/
theorem leads_historyCall [IsTrans Operations R] {call : HistoryStore → Except String HistoryStore}
    (htick : R o o.tick)
    (hcall : ∀ history, call o.history = .ok history → R o.tick { o.tick with history }) :
    Leads R (historyCall env context call) o fun _ t =>
      ∃ history, call o.history = .ok history ∧ t = { o.tick with history } := by
  refine .get_bind (.set_bind htick (.orRaise_bind fun history hhistory => ?_))
  have hok := (orFail_eq_ok hhistory).2
  exact (Leads.of_modify (hcall history hok)).mono fun _ t ht => ⟨history, hok, ht⟩

theorem exec_storeCall_ok {call : Store → Except String Store} {a : Unit}
    (h : exec (storeCall env context call) o = (.ok a, o')) :
    ∃ store, call o.store = .ok store ∧ o' = { o.tick with store } := by
  rw [storeCall, exec_get_bind, exec_set_bind] at h
  obtain ⟨store, _, hstore, hset⟩ := exec_bind_ok h
  obtain ⟨hok, rfl⟩ := exec_orRaise_ok hstore
  exact ⟨store, (orFail_eq_ok hok).2, (congrArg Prod.snd hset).symm⟩

theorem exec_whenPersistent (x : OpsM Unit) :
    exec (whenPersistent x) o = if o.persistencePath = "" then (.ok (), o) else exec x o := by
  change exec (if o.persistencePath = "" then pure () else x) o = _
  split <;> rfl

theorem leads_whenPersistent {x : OpsM Unit} (hx : Leads R x o fun _ _ => True) :
    Leads R (whenPersistent x) o fun _ _ => True := by
  refine .get_bind ?_
  split
  · exact .of_pure trivial
  · exact hx

/-- An attachment makes three calls, if the emulator gives a keyframe. -/
theorem leads_startAttachment [IsTrans Operations R] {session : ManagedSession}
    (hopen : ∀ t, Leads R (openStore env "start mux shadow: ") t fun _ _ => True)
    (hwrite : ∀ keyframe t,
      Leads R (attachmentWrite env session.paneID (.keyframe keyframe)) t fun _ _ => True)
    (hhistory : ∀ t, Leads R (openHistory env "start mux shadow: ") t fun _ _ => True) :
    Leads R (newSessionAttachment env session) o fun _ _ => True := by
  refine .orRaise_bind fun shadow _ => ?_
  cases shadow with
  | none => exact .of_pure trivial
  | some keyframe =>
    refine .bind (leads_whenPersistent ?_) fun _ _ _ _ => .of_pure trivial
    exact (hopen _).bind fun _ _ _ _ => (hwrite keyframe _).bind fun _ _ _ _ => hhistory _

/-- The active session is recorded by two calls. -/
theorem leads_recordActive [IsTrans Operations R] {logicalID : String}
    (hopen : ∀ t, Leads R (openStore env "open mux active-session catalog: ") t fun _ _ => True)
    (hset : ∀ projectID t, Leads R (storeCall env "persist mux active logical session: "
      (·.setActiveLogicalSession projectID logicalID)) t fun _ _ => True) :
    Leads R (persistActiveLogicalSession env logicalID) o fun _ _ => True := by
  refine leads_whenPersistent (.get_bind ?_)
  split
  · exact .of_pure trivial
  · split
    · exact .of_pure trivial
    · exact (hopen _).bind fun _ _ _ _ => hset _ _

end Calls

/-! ### Records -/

section Records

variable {env : Env} {context paneID : String}

theorem leads_record {call : Store → Except String Store} (hcall : Store.Shrinks call) :
    Leads Records (storeCall env context call) o fun _ _ => True := by
  refine (leads_storeCall (.tick o) fun store hstore => ?_).mono fun _ _ _ => trivial
  exact ⟨rfl, rfl, rfl, rfl, rfl, rfl, rfl, hcall _ _ hstore⟩

theorem leads_recordHistory {call : HistoryStore → Except String HistoryStore} :
    Leads Records (historyCall env context call) o fun _ _ => True := by
  refine (leads_historyCall (.tick o) fun history _ => ?_).mono fun _ _ _ => trivial
  exact ⟨rfl, rfl, rfl, rfl, rfl, rfl, rfl, fun _ _ => id⟩

theorem leads_openStore : Leads Records (openStore env context) o fun _ _ => True :=
  leads_record Store.shrinks_ok

theorem leads_openHistory : Leads Records (openHistory env context) o fun _ _ => True :=
  leads_recordHistory

theorem leads_mirrorLegacy {x : OpsM Unit} (hx : Leads Records x o fun _ _ => True) :
    Leads Records (mirrorLegacy paneID x) o fun _ _ => True := by
  unfold mirrorLegacy
  split
  · exact hx
  · exact .of_pure trivial

theorem leads_attachmentWrite (write : AttachmentWrite) :
    Leads Records (attachmentWrite env paneID write) o fun _ _ => True := by
  cases write with
  | keyframe keyframe =>
    rw [attachmentWrite]
    refine (leads_mirrorLegacy (leads_record (Store.shrinks_saveKeyframe keyframe))).bind ?_
    exact fun _ _ _ _ => leads_record (Store.shrinks_savePaneKeyframe paneID keyframe)
  | tail chunks =>
    rw [attachmentWrite]
    refine (leads_mirrorLegacy (leads_record (Store.shrinks_appendBatch chunks))).bind ?_
    exact fun _ _ _ _ => leads_record (Store.shrinks_appendPaneBatch paneID chunks)
  | archive firstLine lastLine data =>
    rw [attachmentWrite]
    exact leads_recordHistory

theorem leads_attachmentWrites (writes : List AttachmentWrite) :
    Leads Records (attachmentWrites env paneID writes) o fun _ _ => True :=
  leads_whenPersistent
    (.forM fun write _ _ _ => .bestEffort (leads_attachmentWrite write))

theorem leads_newSessionAttachment :
    Leads Records (newSessionAttachment env session) o fun _ _ => True :=
  leads_startAttachment (fun _ => leads_openStore) (fun _ _ => leads_attachmentWrite _)
    fun _ => leads_openHistory

theorem leads_persistActiveLogicalSession :
    Leads Records (persistActiveLogicalSession env logicalID) o fun _ _ => True :=
  leads_recordActive (fun _ => leads_openStore) fun _ _ =>
    leads_record (Store.shrinks_setActiveLogicalSession _ _)

theorem leads_persistPin : Leads Records (persistPin env session) o fun _ _ => True :=
  leads_whenPersistent <| leads_openStore.bind fun _ _ _ _ =>
    leads_record (Store.shrinks_setSessionPinned _ _)

theorem leads_destroyPersistedPane :
    Leads Records (destroyPersistedPane env session) o fun _ _ => True :=
  leads_whenPersistent <| leads_openStore.bind fun _ _ _ _ =>
    leads_openHistory.bind fun _ _ _ _ => leads_recordHistory.bind fun _ _ _ _ =>
      leads_record (Store.shrinks_destroyPane _)

theorem leads_clearRecovery : Leads Records (clearRecovery env) o fun _ _ => True := by
  refine .bind (leads_whenPersistent ?_) fun _ t _ _ => ?_
  · exact leads_openStore.bind fun _ _ _ _ => leads_record Store.shrinks_clear
  · exact (Leads.of_modify ⟨rfl, rfl, rfl, rfl, rfl, rfl, rfl, fun _ _ => id⟩).mono
      fun _ _ _ => trivial

end Records

/-! ### The catalog writers -/

section Writers

variable {env : Env}

/-- Reconciling a logical session in scope is a catalog write. -/
theorem catalogWrite_normalizeTopology (h : Consistent o)
    (hscope : InScope scope o (logicalSessionID · = logicalID)) :
    CatalogWrite scope extra o (o.normalizeTopology logicalID) := by
  have hsettled : (normalizeState o.sessions logicalID (o.topologyState logicalID)).Settled
      o.sessions logicalID :=
    settled_normalizeState (h.layouts logicalID) fun session hmem => h.paneID_ne hmem
  exact ⟨.single (.topology logicalID _ hscope hsettled.layoutsProper), rfl, rfl, rfl,
    fun _ _ => .inl⟩

theorem settled_normalizeTopology (h : Consistent o) (logicalID : String) :
    ((o.normalizeTopology logicalID).topologyState logicalID).Settled o.sessions logicalID := by
  have hself : (o.normalizeTopology logicalID).topologyState logicalID =
      normalizeState o.sessions logicalID (o.topologyState logicalID) := setAt_self _ _ _
  rw [hself]
  exact settled_normalizeState (h.layouts logicalID) fun session hmem => h.paneID_ne hmem

theorem leads_topologyState (h : Consistent o)
    (hscope : InScope scope o (logicalSessionID · = logicalID)) :
    Leads (CatalogWrite scope extra) (topologyState logicalID) o fun state t =>
      state.Settled o.sessions logicalID ∧ t = o.normalizeTopology logicalID ∧
        state = t.topologyState logicalID :=
  .modify_bind (catalogWrite_normalizeTopology h hscope)
    (.get_bind (.of_pure ⟨settled_normalizeTopology h logicalID, rfl, rfl⟩))

theorem leads_windowPlacementIndex (h : Consistent o) (hmem : session.logicalSessionID ≠ "")
    (hscope : InScope scope o (logicalSessionID · = session.logicalSessionID)) :
    Leads (CatalogWrite scope extra) (windowPlacementIndex session) o fun _ _ => True := by
  rw [← show logicalSessionID session = session.logicalSessionID from if_pos hmem] at hscope
  exact (leads_topologyState h hscope).bind fun _ _ _ _ => .of_pure trivial

/-- **Recording a pane** binds at most its window. -/
theorem leads_persistTopology (h : Consistent o) (hlogical : session.logicalSessionID ≠ "")
    (hscope : InScope scope o (logicalSessionID · = session.logicalSessionID))
    (hplaced : Placed o session.windowID session.logicalSessionID) :
    Leads (CatalogWrite scope fun w l => w = session.windowID ∧ l = session.logicalSessionID)
      (persistTopology env session) o fun _ _ => True := by
  have hplace : ∀ t, CatalogWrite scope (fun w l => w = session.windowID ∧
      l = session.logicalSessionID) o t → ∀ store : Store,
      (∀ w l, store.Bound w l →
        t.store.Bound w l ∨ w = session.windowID ∧ l = session.logicalSessionID) →
      CatalogWrite scope (fun w l => w = session.windowID ∧ l = session.logicalSessionID)
        t.tick { t.tick with store } := by
    intro t ht store hgrow
    have htick : CatalogWrite scope (fun w l => w = session.windowID ∧
        l = session.logicalSessionID) o t.tick := ht.trans (Records.tick t).catalogWrite
    refine ⟨.single (.place store _ _ (htick.placed hplaced) hgrow), rfl, rfl, rfl,
      fun w l hbound => ?_⟩
    rcases hbound with hmem | hstore
    · exact .inl (.inl hmem)
    · exact (hgrow w l hstore).imp_left .inr
  refine leads_whenPersistent ?_
  refine .bind (leads_openStore.weaken fun _ _ => Records.catalogWrite) fun _ t ht _ => ?_
  refine .bind ((leads_record (Store.shrinks_upsertSession _)).weaken fun _ _ =>
    Records.catalogWrite) fun _ t' ht' _ => ?_
  have hwrite := ht.trans ht'
  refine .bind (leads_windowPlacementIndex (h.updates hwrite.updates) hlogical
    (hscope.updates (byIdentity_logical _) hwrite.updates)) fun index u hu _ => ?_
  have hwrite := hwrite.trans hu
  refine .bind (leads_storeCall (Records.tick u).catalogWrite fun store hstore =>
    hplace u hwrite store fun w l => Store.bound_upsertWindow hstore) fun _ u' hu' _ => ?_
  refine (leads_storeCall (Records.tick u').catalogWrite fun store hstore =>
    hplace u' (hwrite.trans hu') store fun w l => Store.bound_upsertPane hstore).mono
      fun _ _ _ => trivial

/-- Recording a window of a registered pane binds nothing new. -/
theorem leads_persistWindow (h : Consistent o) {state : TopologyState} {placed : String × ℕ}
    (hmem : placed.1 ∈ windowKeys o.sessions logicalID) :
    Leads (CatalogWrite scope extra) (persistWindow env logicalID state placed) o
      fun _ _ => True := by
  obtain ⟨session, hsession, hlogical, hwindow⟩ := mem_windowKeys.mp hmem
  rw [h.logicalSessionID_eq hsession] at hlogical
  rw [h.windowKey_eq hsession] at hwindow
  have hplaced : Placed o placed.1 logicalID := hlogical ▸ hwindow ▸ h.placed hsession
  refine .require_bind fun _ => ?_
  refine (leads_storeCall (Records.tick o).catalogWrite fun store hstore => ?_).mono
    fun _ _ _ => trivial
  have hgrow : ∀ w l, store.Bound w l → o.store.Bound w l ∨ w = placed.1 ∧ l = logicalID :=
    fun w l => Store.bound_upsertWindow hstore
  refine ⟨.single (.place store _ _ ⟨hplaced.unique, hplaced.numbered⟩ hgrow), rfl, rfl, rfl,
    fun w l hbound => .inl ?_⟩
  rcases hbound with hold | hnew
  · exact .inl hold
  · rcases hgrow w l hnew with hold | ⟨rfl, rfl⟩
    · exact .inr hold
    · exact .inl ⟨session, hsession, hwindow, hlogical⟩

/-- **Recording the interaction state** of a logical session binds nothing new. -/
theorem leads_persistTopologyInteraction (h : Consistent o)
    (hscope : InScope scope o (logicalSessionID · = logicalID)) :
    Leads (CatalogWrite scope extra) (persistTopologyInteraction env logicalID) o
      fun _ _ => True := by
  refine leads_whenPersistent ?_
  refine .bind (leads_topologyState h hscope) fun state t ht hstate => ?_
  refine .bind (leads_openStore.weaken fun _ _ => Records.catalogWrite) fun _ t' ht' _ => ?_
  refine .bind (.forM fun placed hplaced u hu => ?_) fun _ _ _ _ =>
    leads_persistActiveLogicalSession.weaken fun _ _ => Records.catalogWrite
  have hwrite := (ht.trans ht').trans hu
  have horder : placed.1 ∈ state.windowOrder := List.fst_mem_of_mem_zipIdx hplaced
  refine leads_persistWindow (h.updates hwrite.updates) ?_
  rw [hwrite.sessions]
  exact (hstate.1.mem_order placed.1).mp horder

end Writers

end AgentCockpit.Mux
