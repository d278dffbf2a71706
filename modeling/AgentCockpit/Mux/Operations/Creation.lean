import AgentCockpit.Mux.Operations.Interaction

/-!
# The creation of a pane, stage by stage

A pane is created in two stages. It is entered: its process and its data path are started, it is
recorded, and the focus is put on it. Then the selection is recorded. A creation that fails while
the pane is entered undoes what it did; one that fails afterwards leaves the pane registered.
-/

namespace AgentCockpit.Mux

open AgentCockpit.Core

variable {env : Env} {o o' o'' : Operations} {session : ManagedSession} {context : String}
variable {input : CreateSessionRequest} {logicalID windowID : String}

/-! ### Rows of sessions -/

/-- A database operation that keeps the rows of the sessions. -/
def Store.KeepsSessions (call : Store → Except String Store) : Prop :=
  ∀ store store', call store = .ok store' → ∀ id, store.hasSession id → store'.hasSession id

namespace Store

theorem keepsSessions_of_rows {call : Store → Except String Store}
    (h : ∀ store store', call store = .ok store' → store'.sessions = store.sessions) :
    KeepsSessions call := by
  intro store store' hcall id hrow
  rw [hasSession, h store store' hcall]
  exact hrow

theorem keepsSessions_ok : KeepsSessions .ok :=
  keepsSessions_of_rows fun _ _ h => by rw [Except.ok.inj h]

theorem keepsSessions_saveKeyframe (keyframe : Keyframe) :
    KeepsSessions (·.saveKeyframe keyframe) := by
  refine keepsSessions_of_rows fun store store' h => ?_
  simp only [saveKeyframe] at h
  split at h
  · exact Except.ok.inj h ▸ rfl
  · cases h

theorem keepsSessions_savePaneKeyframe (paneID : String) (keyframe : Keyframe) :
    KeepsSessions (·.savePaneKeyframe paneID keyframe) := by
  refine keepsSessions_of_rows fun store store' h => ?_
  simp only [savePaneKeyframe] at h
  split at h
  · cases h
  · split at h
    · exact Except.ok.inj h ▸ rfl
    · cases h

theorem keepsSessions_upsertWindow (record : WindowRecord) :
    KeepsSessions (·.upsertWindow record) := by
  refine keepsSessions_of_rows fun store store' h => ?_
  simp only [upsertWindow] at h
  split at h
  · cases h
  · split at h
    · exact Except.ok.inj h ▸ rfl
    · cases h

theorem keepsSessions_upsertPane (record : PaneRecord) :
    KeepsSessions (·.upsertPane record) := by
  refine keepsSessions_of_rows fun store store' h => ?_
  simp only [upsertPane] at h
  split at h
  · cases h
  · split at h
    · exact Except.ok.inj h ▸ rfl
    · cases h

theorem keepsSessions_setActiveLogicalSession (projectID sessionID : String) :
    KeepsSessions (·.setActiveLogicalSession projectID sessionID) := by
  refine keepsSessions_of_rows fun store store' h => ?_
  simp only [setActiveLogicalSession] at h
  split at h
  · exact Except.ok.inj h ▸ rfl
  · cases h

/-- The keys of the rows after one was recorded. -/
theorem exists_upsertBy {α : Type} {key : α → String} {update : α → α → α} {row : α}
    {rows : List α} (hkey : ∀ old, key (update old row) = key row) (id : String) :
    (∃ other ∈ upsertBy key update row rows, key other = id) ↔
      (∃ other ∈ rows, key other = id) ∨ id = key row := by
  unfold upsertBy
  split
  · next hany =>
    have hchanged : ∀ old, key (if key old = key row then update old row else old) = key old := by
      intro old
      split
      · next hsame => rw [hkey, hsame]
      · rfl
    obtain ⟨same, hsame, hrow⟩ := List.any_eq_true.mp hany
    have hrow := of_decide_eq_true hrow
    constructor
    · rintro ⟨_, hmem, hid⟩
      obtain ⟨old, hold, rfl⟩ := List.mem_map.mp hmem
      exact .inl ⟨old, hold, (hchanged old).symm.trans hid⟩
    · rintro (⟨old, hold, hid⟩ | hid)
      · exact ⟨_, List.mem_map_of_mem hold, (hchanged old).trans hid⟩
      · exact ⟨_, List.mem_map_of_mem hsame, (hchanged same).trans (hrow.trans hid.symm)⟩
  · constructor
    · rintro ⟨other, hmem, hid⟩
      rcases List.mem_append.mp hmem with hold | hnew
      · exact .inl ⟨other, hold, hid⟩
      · exact .inr (by rw [← hid, List.mem_singleton.mp hnew])
    · rintro (⟨other, hmem, hid⟩ | hid)
      · exact ⟨other, List.mem_append_left _ hmem, hid⟩
      · exact ⟨row, List.mem_append_right _ (List.mem_singleton_self row), hid.symm⟩

/-- A recorded session has a row, and the others keep theirs. -/
theorem hasSession_upsertSession {store store' : Store} {record : SessionRecord}
    (h : store.upsertSession record = .ok store') (id : String) :
    store'.hasSession id ↔ store.hasSession id ∨ id = record.id := by
  rw [upsertSession] at h
  split at h
  · cases h
  · obtain rfl := Except.ok.inj h
    simp only [hasSession, List.any_eq_true, decide_eq_true_eq]
    exact exists_upsertBy (fun _ => rfl) id

end Store

/-- The panes stay, and the catalog keeps the rows of its sessions. -/
structure KeepsRows (o o' : Operations) : Prop where
  sessions : o'.sessions = o.sessions
  nextSession : o'.nextSession = o.nextSession
  session : o'.session = o.session
  persistencePath : o'.persistencePath = o.persistencePath
  rows : ∀ id, o.store.hasSession id → o'.store.hasSession id

instance : Std.Refl KeepsRows := ⟨fun _ => ⟨rfl, rfl, rfl, rfl, fun _ => id⟩⟩

instance : IsTrans Operations KeepsRows :=
  ⟨fun _ _ _ h h' => ⟨h'.sessions.trans h.sessions, h'.nextSession.trans h.nextSession,
    h'.session.trans h.session, h'.persistencePath.trans h.persistencePath,
    fun id hrow => h'.rows id (h.rows id hrow)⟩⟩

theorem keeps_storeCall {call : Store → Except String Store} (hcall : Store.KeepsSessions call) :
    Leads KeepsRows (storeCall env context call) o fun _ t =>
      ∃ store, call o.store = .ok store ∧ t = { o.tick with store } :=
  leads_storeCall ⟨rfl, rfl, rfl, rfl, fun _ => id⟩
    fun store hstore => ⟨rfl, rfl, rfl, rfl, hcall _ store hstore⟩

theorem keeps_openStore : Leads KeepsRows (openStore env context) o fun _ _ => True :=
  (keeps_storeCall Store.keepsSessions_ok).mono fun _ _ _ => trivial

theorem keeps_openHistory : Leads KeepsRows (openHistory env context) o fun _ _ => True :=
  (leads_historyCall ⟨rfl, rfl, rfl, rfl, fun _ => id⟩
    fun _ _ => ⟨rfl, rfl, rfl, rfl, fun _ => id⟩).mono fun _ _ _ => trivial

theorem keeps_topologyState : Leads KeepsRows (topologyState logicalID) o fun _ _ => True :=
  .modify_bind ⟨rfl, rfl, rfl, rfl, fun _ => id⟩ (.get_bind (.of_pure trivial))

/-- A recorded pane has the row of its session. -/
theorem keeps_persistTopology : Leads KeepsRows (persistTopology env session) o fun _ t =>
    t.persistencePath ≠ "" → t.store.hasSession session.logicalSessionID := by
  unfold persistTopology whenPersistent
  refine .get_bind ?_
  by_cases hpath : o.persistencePath = ""
  · rw [if_pos hpath]
    exact .of_pure fun hne => absurd hpath hne
  rw [if_neg hpath]
  have hupsert : Store.KeepsSessions (·.upsertSession (sessionRecord env session)) :=
    fun store store' h id hrow => (Store.hasSession_upsertSession h id).mpr (.inl hrow)
  refine keeps_openStore.bind fun _ t _ _ => (keeps_storeCall hupsert).bind fun _ u _ hu => ?_
  obtain ⟨store, hstore, rfl⟩ := hu
  have hrow : store.hasSession session.logicalSessionID :=
    (Store.hasSession_upsertSession hstore _).mpr (.inr rfl)
  have hindex : ∀ t : Operations,
      Leads KeepsRows (windowPlacementIndex session) t fun _ _ => True :=
    fun _ => keeps_topologyState.bind fun _ _ _ _ => .of_pure trivial
  refine ((hindex _).relate.bind fun index v _ hv => ?_)
  refine (keeps_storeCall (Store.keepsSessions_upsertWindow _)).relate.bind fun _ w _ hw => ?_
  refine (keeps_storeCall (Store.keepsSessions_upsertPane _)).relate.mono fun _ x hx _ => ?_
  exact hx.1.rows _ (hw.1.rows _ (hv.1.rows _ hrow))

theorem keeps_newSessionAttachment :
    Leads KeepsRows (newSessionAttachment env session) o fun _ _ => True := by
  refine leads_startAttachment (fun _ => keeps_openStore) (fun keyframe t => ?_)
    fun _ => keeps_openHistory
  have hlegacy : Leads KeepsRows (mirrorLegacy session.paneID
      (storeCall env "save mux recovery keyframe: " (·.saveKeyframe keyframe))) t
      fun _ _ => True := by
    unfold mirrorLegacy
    split
    · exact (keeps_storeCall (Store.keepsSessions_saveKeyframe _)).mono fun _ _ _ => trivial
    · exact .of_pure trivial
  rw [attachmentWrite]
  exact hlegacy.bind fun _ _ _ _ =>
    (keeps_storeCall (Store.keepsSessions_savePaneKeyframe _ _)).mono fun _ _ _ => trivial

theorem keeps_persistTopologyInteraction :
    Leads KeepsRows (persistTopologyInteraction env logicalID) o fun _ _ => True := by
  have hselect : ∀ t, Leads KeepsRows (persistActiveLogicalSession env logicalID) t
      fun _ _ => True := fun t =>
    leads_recordActive (fun _ => keeps_openStore) fun _ _ =>
      (keeps_storeCall (Store.keepsSessions_setActiveLogicalSession _ _)).mono fun _ _ _ => trivial
  refine leads_whenPersistent (keeps_topologyState.bind fun _ _ _ _ => ?_)
  refine keeps_openStore.bind fun _ _ _ _ => .bind (.forM fun _ _ _ _ => ?_) fun _ t _ _ =>
    hselect t
  exact .require_bind fun _ =>
    (keeps_storeCall (Store.keepsSessions_upsertWindow _)).mono fun _ _ _ => trivial

/-! ### What a failed creation leaves -/

/-- No pane is registered and nothing that is shown changes; panes may have been called. -/
structure Withheld (o o' : Operations) : Prop where
  sessions : o'.sessions = o.sessions
  nextSession : o.nextSession ≤ o'.nextSession
  unseen : Reconcilable o → Unseen o o'
  paneCalls : o.paneCalls <+: o'.paneCalls

instance : Std.Refl Withheld := ⟨fun o => ⟨rfl, Nat.le_refl _, fun _ => .refl o, List.prefix_rfl⟩⟩

instance : IsTrans Operations Withheld :=
  ⟨fun _ _ _ h h' => ⟨h'.sessions.trans h.sessions, Nat.le_trans h.nextSession h'.nextSession,
    fun hreconcilable => (h.unseen hreconcilable).trans
      (h'.unseen ((h.unseen hreconcilable).reconcilable hreconcilable)),
    h.paneCalls.trans h'.paneCalls⟩⟩

theorem Withheld.of_memory (h : SameMemory o o') (hcalls : o.paneCalls <+: o'.paneCalls) :
    Withheld o o' := by
  have hnext : o'.nextSession = o.nextSession := h.read fun _ => rfl
  exact ⟨h.sessions, hnext.ge, fun _ => .of_memory h, hcalls⟩

/-- A computation that only makes database calls. -/
theorem withheld_of_calls {α : Type} {x : OpsM α} {post post' : α → Operations → Prop}
    (hmemory : Leads SameMemory x o post) (hrecords : Leads Records x o post') :
    Leads Withheld x o fun _ _ => True :=
  ⟨.of_memory hmemory.1 (hrecords.1.paneCalls ▸ List.prefix_rfl), fun _ _ => trivial⟩

theorem withheld_storeCall {call : Store → Except String Store} :
    Leads Withheld (storeCall env context call) o fun _ _ => True :=
  (leads_storeCall (.of_memory rfl List.prefix_rfl) fun _ _ =>
    .of_memory rfl List.prefix_rfl).mono fun _ _ _ => trivial

theorem withheld_topologyState : Leads Withheld (topologyState logicalID) o fun _ _ => True := by
  have hwithheld : Withheld o (o.normalizeTopology logicalID) :=
    ⟨rfl, Nat.le_refl _, fun h => h.unseen_normalizeTopology logicalID, List.prefix_rfl⟩
  exact .modify_bind hwithheld (.get_bind (.of_pure trivial))

theorem withheld_persistTopology :
    Leads Withheld (persistTopology env session) o fun _ _ => True := by
  refine leads_whenPersistent (withheld_storeCall.bind fun _ _ _ _ => ?_)
  refine withheld_storeCall.bind fun _ _ _ _ => ?_
  have hindex : ∀ t, Leads Withheld (windowPlacementIndex session) t fun _ _ => True :=
    fun _ => withheld_topologyState.bind fun _ _ _ _ => .of_pure trivial
  exact (hindex _).bind fun _ _ _ _ => withheld_storeCall.bind fun _ _ _ _ => withheld_storeCall

theorem withheld_newSessionAttachment :
    Leads Withheld (newSessionAttachment env session) o fun _ _ => True :=
  withheld_of_calls memory_newSessionAttachment leads_newSessionAttachment

theorem withheld_destroyPersistedPane :
    Leads Withheld (destroyPersistedPane env session) o fun _ _ => True :=
  withheld_of_calls memory_destroyPersistedPane leads_destroyPersistedPane

/-- The process of a pane was told to end after a state. -/
def Terminated (o o' : Operations) (paneID : String) : Prop :=
  ∃ calls, o'.paneCalls = o.paneCalls ++ calls ∧ ⟨paneID, .terminate⟩ ∈ calls

namespace Terminated

variable {paneID : String}

theorem after (h : Terminated o' o'' paneID) (hbefore : o.paneCalls <+: o'.paneCalls) :
    Terminated o o'' paneID := by
  obtain ⟨calls, hcalls, hmem⟩ := h
  obtain ⟨before, hbefore⟩ := hbefore
  refine ⟨before ++ calls, ?_, List.mem_append_right _ hmem⟩
  rw [hcalls, ← hbefore, List.append_assoc]

theorem before (h : Terminated o o' paneID) (hlater : o'.paneCalls <+: o''.paneCalls) :
    Terminated o o'' paneID := by
  obtain ⟨calls, hcalls, hmem⟩ := h
  obtain ⟨later, hlater⟩ := hlater
  refine ⟨calls ++ later, ?_, List.mem_append_left _ hmem⟩
  rw [← hlater, hcalls, List.append_assoc]

end Terminated

/-- A pane is told to end even where the call fails. -/
theorem withheld_terminate (env : Env) (o : Operations) (paneID : String) :
    Withheld o (exec (terminate env paneID) o).2 ∧
      Terminated o (exec (terminate env paneID) o).2 paneID := by
  let called : Operations := { o with paneCalls := o.paneCalls ++ [⟨paneID, .terminate⟩] }
  have hcalled : Withheld o called := .of_memory rfl (List.prefix_append _ _)
  have hwrites : Leads SameMemory (attachmentWrites env paneID (env.writes paneID .terminate))
      called fun _ _ => True :=
    leads_whenPersistent (.forM fun write _ _ _ => .bestEffort (memory_attachmentWrite write))
  have hrest : Leads Withheld (do
      attachmentWrites env paneID (env.writes paneID .terminate)
      orRaise (env.terminate paneID) fun err => .failed ("" ++ err)) called fun _ _ => True :=
    (withheld_of_calls hwrites (leads_attachmentWrites _)).bind fun _ _ _ _ =>
      Leads.of_orRaise.mono fun _ _ _ => trivial
  have hfinal : Withheld called (exec (terminate env paneID) o).2 := hrest.1
  have hterminated : Terminated o called paneID := ⟨_, rfl, List.mem_singleton_self _⟩
  exact ⟨IsTrans.trans _ _ _ hcalled hfinal, hterminated.before hfinal.paneCalls⟩

/-! ### The two stages -/

/-- Start, record and register a pane. -/
def enterPane (env : Env) (input : CreateSessionRequest) (logicalID windowID : String) :
    OpsM ManagedSession := do
  require (input.command ≠ "") .commandRequired
  let allocated ← allocate input logicalID windowID
  let pane ← orRaise (env.startPane input) .failed
  let started : ManagedSession := { allocated with pane := some pane }
  onError (persistTopology env started) (terminate env started.paneID)
  let attached ← onError (newSessionAttachment env started) do
    bestEffort (terminate env started.paneID)
    destroyPersistedPane env started
  let session : ManagedSession := { started with attached, outputHistory := attached }
  registerSession session
  observePaneTopology env session
  pure session

/-- A pane is entered, and then its logical session is recorded as the selected one. -/
theorem createLocked_eq : createLocked env input logicalID windowID =
    enterPane env input logicalID windowID >>= fun session =>
      persistActiveLogicalSession env session.logicalSessionID >>= fun _ => pure session := by
  simp only [createLocked, enterPane, bind_assoc, pure_bind]

/-- What a new pane is known by. -/
structure Named (o : Operations) (input : CreateSessionRequest) (logicalID : String)
    (session : ManagedSession) : Prop where
  id : session.id = sessionName (o.nextSession + 1)
  paneID : session.paneID = paneName (o.nextSession + 1)
  logicalSessionID : session.logicalSessionID =
    if logicalID = "" then sessionName (o.nextSession + 1) else logicalID
  projectID : session.projectID = input.projectID
  broadcastScope : session.broadcastScope = "window"

/-- A pane was entered: it is registered and has the focus, and its logical session has a row. -/
structure Entered (o : Operations) (input : CreateSessionRequest) (logicalID : String)
    (session : ManagedSession) (o' : Operations) : Prop where
  named : Named o input logicalID session
  pane : session.pane.isSome
  sessions : o'.sessions = register o.sessions session
  nextSession : o'.nextSession = o.nextSession + 1
  focused : o'.session = some session
  persistencePath : o'.persistencePath = o.persistencePath
  recorded : o.persistencePath ≠ "" → o'.store.hasSession session.logicalSessionID

/-- A pane was not entered: it is not registered, and a process that was started was told to
end. -/
structure Abandoned (env : Env) (o : Operations) (input : CreateSessionRequest)
    (o' : Operations) : Prop where
  withheld : Withheld o o'
  terminated : input.command ≠ "" → (env.startPane input).isOk →
    Terminated o o' (paneName (o.nextSession + 1))

theorem ends_allocate {failed : Operations → Prop} :
    Ends (allocate input logicalID windowID) o (fun session t =>
      Named o input logicalID session ∧ Withheld o t ∧ t.nextSession = o.nextSession + 1 ∧
        t.session = o.session ∧ t.persistencePath = o.persistencePath) failed := by
  refine .modify_bind (.modify_bind (.get_bind (.of_pure ⟨⟨rfl, rfl, rfl, rfl, rfl⟩, ?_, ?_⟩)))
  · refine ⟨rfl, Nat.le_succ _, fun h => ⟨rfl, rfl, rfl, rfl, fun _ => rfl, fun h => ?_⟩,
      List.prefix_rfl⟩
    exact ⟨h.paneID_ne, h.layouts⟩
  · exact ⟨rfl, rfl, rfl⟩

theorem ends_topologyState {failed : Operations → Prop} :
    Ends (topologyState logicalID) o (fun _ t => KeepsRows o t) failed :=
  .modify_bind (.get_bind (.of_pure ⟨rfl, rfl, rfl, rfl, fun _ => id⟩))

theorem ends_setTopologyState {state : TopologyState} {failed : Operations → Prop} :
    Ends (setTopologyState logicalID state) o (fun _ t => KeepsRows o t) failed := by
  refine Ends.of_modify.mono (fun _ t ht => ?_) fun _ => id
  rw [ht]
  exact ⟨rfl, rfl, rfl, rfl, fun _ => id⟩

theorem ends_registerSession {failed : Operations → Prop} :
    Ends (registerSession session) o (fun _ t =>
      t = ({ o with sessions := register o.sessions session } : Operations).focus session
        session.logicalSessionID) failed :=
  .modify_bind .of_modify

/-- Making a new pane active does not fail, and the catalog keeps its rows. -/
theorem ends_observePaneTopology {failed : Operations → Prop} :
    Ends (observePaneTopology env session) o (fun _ t => KeepsRows o t) failed := by
  refine ends_topologyState.bind fun state t ht => ends_setTopologyState.bind fun _ u hu => ?_
  have hset : KeepsRows o u := IsTrans.trans _ _ _ ht hu
  exact .bestEffort ((Ends.of_leads keeps_persistTopologyInteraction).mono
    (fun _ _ h => IsTrans.trans _ _ _ hset h.1) fun _ h => IsTrans.trans _ _ _ hset h)

theorem ends_persistTopology :
    Ends (persistTopology env session) o (fun _ t => KeepsRows o t ∧ Withheld o t ∧
      (t.persistencePath ≠ "" → t.store.hasSession session.logicalSessionID)) (Withheld o) :=
  ((Ends.of_leads keeps_persistTopology).and (.of_leads withheld_persistTopology)).mono
    (fun _ _ h => ⟨h.1.1, h.2.1, h.1.2⟩) fun _ h => h.2

theorem ends_newSessionAttachment :
    Ends (newSessionAttachment env session) o (fun _ t => KeepsRows o t) (Withheld o) :=
  ((Ends.of_leads keeps_newSessionAttachment).and (.of_leads withheld_newSessionAttachment)).mono
    (fun _ _ h => h.1.1) fun _ h => h.2

/-- **A pane is entered, or nothing is left of it.** -/
theorem ends_enterPane : Ends (enterPane env input logicalID windowID) o
    (Entered o input logicalID) (Abandoned env o input) := by
  refine .require_bind (fun hempty => ⟨refl o, fun hne => absurd hne hempty⟩) fun _ => ?_
  refine ends_allocate.bind fun allocated t ⟨hnamed, ht, hnext, hfocus, hpath⟩ => ?_
  refine .orRaise_bind (fun err herr => ⟨ht, fun _ hok => ?_⟩) fun pane _ => ?_
  · rw [herr] at hok
    exact nomatch hok
  -- a failure from here on ends the process
  have hend : ∀ u, Withheld t u → Abandoned env o input
      (exec (terminate env allocated.paneID) u).2 := by
    intro u hu
    have hwithheld : Withheld o u := IsTrans.trans _ _ _ ht hu
    obtain ⟨hlater, hterminated⟩ := withheld_terminate env u allocated.paneID
    refine ⟨IsTrans.trans _ _ _ hwithheld hlater, fun _ _ => ?_⟩
    rw [← hnamed.paneID]
    exact hterminated.after hwithheld.paneCalls
  refine (ends_persistTopology.onError fun u hu => .of_final (hend u hu)).bind fun _ u hu => ?_
  obtain ⟨hkept, hu, hrow⟩ := hu
  refine (ends_newSessionAttachment.onError fun v hv => ?_).bind fun attached v hv => ?_
  · have hended := hend v (IsTrans.trans _ _ _ hu hv)
    refine (Ends.bestEffort (.of_final hended)).bind fun _ w hw => .of_final ?_
    have hlater : Withheld w
        (exec (destroyPersistedPane env { allocated with pane := some pane }) w).2 :=
      withheld_destroyPersistedPane.1
    exact ⟨IsTrans.trans _ _ _ hw.withheld hlater, fun hcommand hok =>
      (hw.terminated hcommand hok).before hlater.paneCalls⟩
  have hrow : o.persistencePath ≠ "" → v.store.hasSession allocated.logicalSessionID := by
    intro hpersistent
    refine hv.rows _ (hrow ?_)
    rwa [hkept.persistencePath, hpath]
  have hkept : KeepsRows t v := IsTrans.trans _ _ _ hkept hv
  refine ends_registerSession.bind fun _ w hw => ?_
  refine ends_observePaneTopology.bind fun _ x hx => .of_pure ?_
  subst hw
  have hsessions : v.sessions = o.sessions := hkept.sessions.trans ht.sessions
  refine ⟨⟨hnamed.id, hnamed.paneID, hnamed.logicalSessionID, hnamed.projectID,
    hnamed.broadcastScope⟩, rfl, ?_, ?_, hx.session, ?_, fun hpersistent => ?_⟩
  · rw [hx.sessions, ← hsessions]
    rfl
  · exact hx.nextSession.trans (hkept.nextSession.trans hnext)
  · exact hx.persistencePath.trans (hkept.persistencePath.trans hpath)
  · exact hx.rows _ (hrow hpersistent)

/-- **When the second stage succeeds:** when neither call that records the selection fails. -/
theorem Entered.selection_isOk_iff (h : Entered o input logicalID session o') :
    (exec (persistActiveLogicalSession env session.logicalSessionID) o').1.isOk ↔
      (o.persistencePath ≠ "" → env.Serves o'.storeCalls 2) := by
  by_cases hpath : o.persistencePath = ""
  · have hnone : o'.persistencePath = "" := h.persistencePath.trans hpath
    refine iff_of_true ?_ fun hne => absurd hpath hne
    rw [persistActiveLogicalSession, exec_whenPersistent, if_pos hnone]
    rfl
  have hlogical : logicalSessionID session = session.logicalSessionID := by
    refine if_pos ?_
    rw [h.named.logicalSessionID]
    split
    · exact sessionName_ne_empty _
    · assumption
  have hcalls : o'.selectionCalls session.logicalSessionID = 2 := by
    rw [Operations.selectionCalls, h.focused]
    exact if_pos hlogical
  rw [persistActiveLogicalSession_isOk_iff (h.persistencePath ▸ hpath) (h.recorded hpath), hcalls,
    imp_iff_right hpath]

/-- The selection of a pane that was entered was not recorded; the pane stays. -/
def SelectionLost (env : Env) (o : Operations) (input : CreateSessionRequest)
    (logicalID windowID : String) (o' : Operations) : Prop :=
  ∃ session t, exec (enterPane env input logicalID windowID) o = (.ok session, t) ∧
    Entered o input logicalID session t ∧
    ¬ (o.persistencePath ≠ "" → env.Serves t.storeCalls 2) ∧ SameMemory t o'

/-- **A pane is created, nothing is left of it, or its selection was lost.** -/
theorem ends_createLocked : Ends (createLocked env input logicalID windowID) o
    (fun session t => ∃ u, Entered o input logicalID session u ∧ SameMemory u t)
    fun t => Abandoned env o input t ∨ SelectionLost env o input logicalID windowID t := by
  rw [createLocked_eq]
  refine ((Ends.of_exec.and ends_enterPane).mono (fun _ _ => id) fun _ h => .inl h.2).bind
    fun session u hu => ?_
  have hselect : Ends (persistActiveLogicalSession env session.logicalSessionID) u
      (fun _ t => SameMemory u t) fun t =>
        Abandoned env o input t ∨ SelectionLost env o input logicalID windowID t := by
    refine ((Ends.of_leads memory_persistActiveLogicalSession).and .of_exec).mono
      (fun _ _ h => h.1.1) fun t h => .inr ⟨session, u, hu.1, hu.2, fun hserves => ?_, h.1⟩
    obtain ⟨err, hexec⟩ := h.2
    have hok := hu.2.selection_isOk_iff.mpr hserves
    rw [hexec] at hok
    exact nomatch hok
  exact hselect.bind fun _ t ht => .of_pure ⟨u, hu.2, ht⟩

/-! ### The requests that create a pane -/

/-- Where a pane goes that is made from another one. -/
structure Origin where
  source : ManagedSession
  placed : ManagedSession → TopologyState → TopologyState

/-- What a request asks of `createLocked` once it has passed its checks. -/
structure Creation where
  input : CreateSessionRequest
  logicalID : String := ""
  windowID : String := ""
  origin : Option Origin := none

/-- What a request does with the pane it created. -/
def Creation.place (env : Env) (creation : Creation) (created : ManagedSession) :
    OpsM CreateSessionResponse :=
  match creation.origin with
  | none => pure ⟨created.id, created.paneID⟩
  | some origin => do
    modifySession created.id (inheritFrom origin.source)
    let state ← topologyState origin.source.logicalSessionID
    setTopologyState origin.source.logicalSessionID (origin.placed created state)
    persistTopologyInteraction env origin.source.logicalSessionID
    persistPin env (inheritFrom origin.source created)
    pure ⟨created.id, created.paneID⟩

def Operation.Creates : Operation → Prop
  | sessionCreate _ | paneSplit _ | windowNew _ => True
  | _ => False

/-- A pane that shares the window of another one, in a split of its place. -/
def splitCreation (input : SplitPaneRequest) (source : ManagedSession) : Creation where
  input :=
    { command := input.command, args := input.args, cwd := input.cwd, key := input.key
      projectID := source.projectID, broadcastGroup := source.broadcastGroup }
  logicalID := source.logicalSessionID
  windowID := source.windowID
  origin := some
    { source
      placed := fun created state =>
        { state with
          layoutByWindow := setAt state.layoutByWindow source.windowID
            (splitLayoutPane
              (removeLayoutPane (state.layoutByWindow source.windowID) created.paneID)
              source.paneID created.paneID input.direction input.ratio)
          activeWindowID := source.windowID
          activePaneByWindow :=
            setAt state.activePaneByWindow source.windowID created.paneID } }

/-- A pane in a new window of the logical session of another one. -/
def windowCreation (input : NewWindowRequest) (source : ManagedSession) : Creation where
  input :=
    { command := input.command, args := input.args, cwd := input.cwd, key := input.key
      projectID := source.projectID, broadcastGroup := source.broadcastGroup }
  logicalID := source.logicalSessionID
  origin := some
    { source
      placed := fun created state =>
        { state with
          activeWindowID := created.windowID
          activePaneByWindow :=
            setAt state.activePaneByWindow created.windowID created.paneID } }

/-- The creation a request leads to; a request without one is refused by its checks. -/
def Operations.creation (o : Operations) (env : Env) (request : Request) : Option Creation :=
  match request.operation with
  | .sessionCreate input =>
    if input.command ≠ "" then
      if o.handoffPrepared = false then
        if o.recoveryErr = none ∧ findSession o.sessions "recovered-session" = none then
          some { input := { input with projectID := request.project } }
        else none
      else none
    else none
  | .paneSplit input =>
    if isFiniteSplitRatio input.ratio then
      if o.handoffPrepared = false then
        (findPane o.sessions input.paneID).map (splitCreation input)
      else none
    else none
  | .windowNew input =>
    if o.handoffPrepared = false then
      (logicalSession env o.sessions input.sessionID).map (windowCreation input)
    else none
  | _ => none

/-- A computation creates a pane and places it, or it is refused. -/
def Performs (env : Env) (o : Operations) (x : OpsM CreateSessionResponse) :
    Option Creation → Prop
  | some creation => exec x o =
      exec (createLocked env creation.input creation.logicalID creation.windowID >>=
        creation.place env) o
  | none => ∃ err, exec x o = (.error err, o)

namespace Performs

variable {α : Type} {creation : Option Creation} {make : α → Creation}

theorem require_bind {condition : Prop} [Decidable condition] {err : MuxError}
    {f : Unit → OpsM CreateSessionResponse} (h : condition → Performs env o (f ()) creation) :
    Performs env o (require condition err >>= f) (if condition then creation else none) := by
  by_cases hcondition : condition
  · rw [require, if_pos hcondition, if_pos hcondition]
    exact h hcondition
  · rw [require, if_neg hcondition, if_neg hcondition]
    exact ⟨err, rfl⟩

theorem orThrow_bind {value : Option α} {err : MuxError} {f : α → OpsM CreateSessionResponse}
    (h : ∀ a, value = some a → Performs env o (f a) (some (make a))) :
    Performs env o (orThrow value err >>= f) (value.map make) := by
  cases value with
  | none => exact ⟨err, rfl⟩
  | some a => exact h a rfl

theorem get_bind {f : Operations → OpsM CreateSessionResponse}
    (h : Performs env o (f o) creation) : Performs env o (get >>= f) creation := by
  cases creation with
  | none => exact h
  | some creation => exact h

theorem assoc {f : α → OpsM CreateSessionResponse} {β : Type} {x : OpsM β} {g : β → OpsM α}
    (h : Performs env o (x >>= fun b => g b >>= f) creation) :
    Performs env o ((x >>= g) >>= f) creation := by
  rw [bind_assoc]
  exact h

theorem requireMutable_bind {f : Unit → OpsM CreateSessionResponse}
    (h : Performs env o (f ()) creation) : Performs env o (requireMutable >>= f)
      (if o.handoffPrepared = false then creation else none) :=
  .assoc (.get_bind (.require_bind fun _ => h))

theorem requireRecovered_bind {f : Unit → OpsM CreateSessionResponse}
    (h : Performs env o (f ()) creation) : Performs env o (requireRecovered >>= f)
      (if o.recoveryErr = none ∧ findSession o.sessions "recovered-session" = none then creation
        else none) := by
  refine .assoc (.get_bind ?_)
  cases hrecovery : o.recoveryErr with
  | some cause =>
    rw [if_neg fun hnone => nomatch hnone.1]
    exact ⟨.recoveryConflict cause, rfl⟩
  | none =>
    simp only [true_and, ← Option.isNone_iff_eq_none (o := findSession o.sessions _)]
    exact .require_bind fun _ => h

end Performs

/-- **The requests that create a pane** pass their checks and create it, or are refused. -/
theorem performs_creation {request : Request} (h : request.operation.Creates) :
    ∃ x, handleMethod env request = responding .created x ∧
      Performs env o x (o.creation env request) := by
  obtain ⟨operation, projectID, sessionText, paneText⟩ := request
  cases operation
  case sessionCreate input =>
    refine ⟨_, rfl, ?_⟩
    exact .require_bind fun _ => .requireMutable_bind (.requireRecovered_bind rfl)
  case paneSplit input =>
    refine ⟨_, rfl, ?_⟩
    refine .require_bind fun _ => .requireMutable_bind ?_
    exact .assoc (.get_bind (.orThrow_bind fun _ _ => rfl))
  case windowNew input =>
    refine ⟨_, rfl, ?_⟩
    exact .requireMutable_bind (.assoc (.get_bind (.orThrow_bind fun _ _ => rfl)))
  all_goals exact h.elim

theorem creates_of_creation {request : Request} {creation : Creation}
    (h : o.creation env request = some creation) : request.operation.Creates := by
  obtain ⟨operation, projectID, sessionText, paneText⟩ := request
  cases operation
  case sessionCreate input => trivial
  case paneSplit input => trivial
  case windowNew input => trivial
  all_goals exact nomatch h

/-- What is left when the selection of a pane that was entered is not recorded. -/
theorem exec_createLocked_lost {t : Operations}
    (hexec : exec (enterPane env input logicalID windowID) o = (.ok session, t))
    (hlost : ¬ (o.persistencePath ≠ "" → env.Serves t.storeCalls 2)) :
    ∃ err o', exec (createLocked env input logicalID windowID) o = (.error err, o') ∧
      Entered o input logicalID session t ∧ SameMemory t o' := by
  have hentered : Entered o input logicalID session t := ends_enterPane.1 _ _ hexec
  have hmemory : SameMemory t
      (exec (persistActiveLogicalSession env session.logicalSessionID) t).2 :=
    memory_persistActiveLogicalSession.1
  rw [createLocked_eq, exec_bind, hexec]
  dsimp only
  rw [exec_bind]
  rcases hselect : exec (persistActiveLogicalSession env session.logicalSessionID) t with
    ⟨err | _, o'⟩
  · rw [hselect] at hmemory
    exact ⟨err, o', rfl, hentered, hmemory⟩
  · have hok : (exec (persistActiveLogicalSession env session.logicalSessionID) t).1.isOk ↔
        (o.persistencePath ≠ "" → env.Serves t.storeCalls 2) := hentered.selection_isOk_iff
    rw [hselect] at hok
    exact absurd (hok.mp rfl) hlost

/-! ### The exits of the checks -/

section Checks

variable {α : Type} {goal : α → Operations → Prop} {failed : Operations → Prop}

theorem ends_requireMutable {f : Unit → OpsM α} (hfailed : failed o)
    (h : o.handoffPrepared = false → Ends (f ()) o goal failed) :
    Ends (requireMutable >>= f) o goal failed := by
  rw [requireMutable, bind_assoc]
  exact .get_bind (.require_bind (fun _ => hfailed) h)

theorem ends_requireLogicalSession {sessionID : String} {f : ManagedSession → OpsM α}
    (hfailed : failed o) (h : ∀ session, logicalSession env o.sessions sessionID = some session →
      Ends (f session) o goal failed) :
    Ends (requireLogicalSession env sessionID >>= f) o goal failed := by
  rw [requireLogicalSession, bind_assoc]
  exact .get_bind (.orThrow_bind hfailed h)

end Checks

end AgentCockpit.Mux
