import AgentCockpit.Mux.Operations.ClientSteps
import AgentCockpit.Mux.Persistence.Cascade

/-!
# Destroying a pane

A request that destroys panes removes their records from both databases. The record of
every other pane stays, whatever cascades. The legacy record of the primary pane is the
exception: it is dropped with any pane of the first session, also while the primary pane is
alive and its recorder goes on appending to it.
-/

namespace AgentCockpit.Mux

open AgentCockpit.Core

/-- The catalog row and the recovery record of a pane are the same. -/
structure Store.SameRecord (paneID : String) (store store' : Store) : Prop where
  row : store'.panes.filter (·.id = paneID) = store.panes.filter (·.id = paneID)
  keyframe : store'.sessionKeyframes paneID = store.sessionKeyframes paneID
  tail : store'.sessionTails paneID = store.sessionTails paneID

/-- The legacy record is the same. -/
structure Store.SameLegacy (store store' : Store) : Prop where
  keyframe : store'.keyframe = store.keyframe
  tailBatches : store'.tailBatches = store.tailBatches

/-- The records of the panes that are not doomed are the same. -/
structure Store.Spares (doomed : String → Prop) (store store' : Store) : Prop where
  record : ∀ paneID, ¬ doomed paneID → Store.SameRecord paneID store store'
  legacy : ¬ doomed primaryPane → Store.SameLegacy store store'

/-- The sessions and the records of the panes that are not doomed are the same. -/
structure Spares (doomed : String → Prop) (o o' : Operations) : Prop where
  persistencePath : o'.persistencePath = o.persistencePath
  sessions : ∀ session ∈ o'.sessions, session ∈ o.sessions
  kept : ∀ session ∈ o.sessions, ¬ doomed session.paneID → session ∈ o'.sessions
  store : Store.Spares doomed o.store o'.store
  archive : ∀ paneID, ¬ doomed paneID → o'.history.panes paneID = o.history.panes paneID

/-- Moreover no window is bound that was not. -/
structure Removes (doomed : String → Prop) (o o' : Operations) : Prop
    extends Spares doomed o o' where
  bound : ∀ window logical, o'.store.Bound window logical → o.store.Bound window logical

/-- The records of the panes that are registered after a step are the same as before it. -/
def Local (o o' : Operations) : Prop :=
  ∀ session ∈ o'.sessions,
    (Store.SameRecord session.paneID o.store o'.store ∧
      o'.history.panes session.paneID = o.history.panes session.paneID) ∧
    (session.paneID = primaryPane → session.pane.isSome → Store.SameLegacy o.store o'.store)

variable {doomed : String → Prop} {env : Env} {o o' o'' : Operations}
variable {store store' store'' : Store} {session : ManagedSession} {paneID logicalID : String}

/-! ### Steps that spare panes -/

theorem Store.Spares.of_same (hpanes : store'.panes = store.panes)
    (hkeyframes : store'.sessionKeyframes = store.sessionKeyframes)
    (htails : store'.sessionTails = store.sessionTails)
    (hlegacy : ¬ doomed primaryPane → Store.SameLegacy store store') :
    Store.Spares doomed store store' :=
  ⟨fun _ _ => ⟨by rw [hpanes], by rw [hkeyframes], by rw [htails]⟩, hlegacy⟩

theorem Store.SameRecord.trans (h : Store.SameRecord paneID store store')
    (h' : Store.SameRecord paneID store' store'') : Store.SameRecord paneID store store'' :=
  ⟨h'.row.trans h.row, h'.keyframe.trans h.keyframe, h'.tail.trans h.tail⟩

theorem Store.Spares.refl (store : Store) : Store.Spares doomed store store :=
  .of_same rfl rfl rfl fun _ => ⟨rfl, rfl⟩

theorem Store.Spares.trans (h : Store.Spares doomed store store')
    (h' : Store.Spares doomed store' store'') : Store.Spares doomed store store'' where
  record paneID hnot := (h.record paneID hnot).trans (h'.record paneID hnot)
  legacy hnot := ⟨(h'.legacy hnot).keyframe.trans (h.legacy hnot).keyframe,
    (h'.legacy hnot).tailBatches.trans (h.legacy hnot).tailBatches⟩

theorem Spares.refl (o : Operations) : Spares doomed o o :=
  ⟨rfl, fun _ => id, fun _ hmem _ => hmem, .refl _, fun _ _ => rfl⟩

theorem Spares.trans (h : Spares doomed o o') (h' : Spares doomed o' o'') :
    Spares doomed o o'' where
  persistencePath := h'.persistencePath.trans h.persistencePath
  sessions session hmem := h.sessions session (h'.sessions session hmem)
  kept session hmem hnot := h'.kept session (h.kept session hmem hnot) hnot
  store := h.store.trans h'.store
  archive paneID hnot := (h'.archive paneID hnot).trans (h.archive paneID hnot)

/-- A step that leaves the sessions and the databases alone. -/
theorem Removes.of_same (hpath : o'.persistencePath = o.persistencePath)
    (hsessions : o'.sessions = o.sessions) (hstore : o'.store = o.store)
    (hhistory : o'.history = o.history) : Removes doomed o o' where
  persistencePath := hpath
  sessions := hsessions ▸ fun _ => id
  kept := hsessions ▸ fun _ hmem _ => hmem
  store := hstore ▸ .refl _
  archive := hhistory ▸ fun _ _ => rfl
  bound := hstore ▸ fun _ _ => id

theorem Removes.trans (h : Removes doomed o o') (h' : Removes doomed o' o'') :
    Removes doomed o o'' :=
  ⟨h.toSpares.trans h'.toSpares, fun w l hl => h.bound w l (h'.bound w l hl)⟩

theorem Removes.unique (h : Removes doomed o o') (hunique : o.store.Unique) : o'.store.Unique :=
  fun w l l' hl hl' => hunique w l l' (h.bound w l hl) (h.bound w l' hl')

instance : Std.Refl (Spares doomed) := ⟨.refl⟩

instance : IsTrans Operations (Spares doomed) := ⟨fun _ _ _ => .trans⟩

instance : Std.Refl (Removes doomed) := ⟨fun _ => .of_same rfl rfl rfl rfl⟩

instance : IsTrans Operations (Removes doomed) := ⟨fun _ _ _ => .trans⟩

theorem Consistent.store_unique (h : Consistent o) : o.store.Unique :=
  fun w l l' hl hl' => h.bound_unique w l l' (.inr hl) (.inr hl')

/-! ### Calls on behalf of doomed panes -/

section Calls

variable {context : String}

theorem leads_removes_storeCall {call : Store → Except String Store}
    (hshrinks : Store.Shrinks call)
    (hcall : ∀ store, call o.store = .ok store → Store.Spares doomed o.store store) :
    Leads (Removes doomed) (storeCall env context call) o fun _ t =>
      ∃ store, call o.store = .ok store ∧ t = { o.tick with store } :=
  leads_storeCall (.of_same rfl rfl rfl rfl) fun store hstore =>
    ⟨⟨rfl, fun _ => id, fun _ hmem _ => hmem, hcall store hstore, fun _ _ => rfl⟩,
      hshrinks _ _ hstore⟩

theorem leads_removes_historyCall {call : HistoryStore → Except String HistoryStore}
    (hcall : ∀ history, call o.history = .ok history →
      ∀ paneID, ¬ doomed paneID → history.panes paneID = o.history.panes paneID) :
    Leads (Removes doomed) (historyCall env context call) o fun _ _ => True :=
  (leads_historyCall (.of_same rfl rfl rfl rfl) fun history hhistory =>
    ⟨⟨rfl, fun _ => id, fun _ hmem _ => hmem, .refl _, hcall history hhistory⟩,
      fun _ _ => id⟩).mono fun _ _ _ => trivial

theorem leads_removes_openStore :
    Leads (Removes doomed) (openStore env context) o fun _ t => t.store = o.store := by
  refine (leads_removes_storeCall Store.shrinks_ok fun store hstore => ?_).mono fun _ t ht => ?_
  · exact Except.ok.inj hstore ▸ .refl _
  · obtain ⟨store, hstore, rfl⟩ := ht
    exact (Except.ok.inj hstore).symm

theorem leads_removes_openHistory :
    Leads (Removes doomed) (openHistory env context) o fun _ _ => True :=
  leads_removes_historyCall fun _ hhistory _ _ => Except.ok.inj hhistory ▸ rfl

/-- The legacy record is written for the primary pane only. -/
theorem leads_removes_mirrorLegacy (hdoomed : doomed paneID) {x : OpsM Unit}
    (hx : doomed primaryPane → Leads (Removes doomed) x o fun _ _ => True) :
    Leads (Removes doomed) (mirrorLegacy paneID x) o fun _ _ => True := by
  unfold mirrorLegacy
  split
  · next hprimary => exact hx (hprimary ▸ hdoomed)
  · exact .of_pure trivial

theorem Store.spares_saveKeyframe {keyframe : Keyframe} (hdoomed : doomed primaryPane)
    (h : store.saveKeyframe keyframe = .ok store') : Store.Spares doomed store store' := by
  unfold Store.saveKeyframe at h
  split at h
  · obtain rfl := Except.ok.inj h
    exact .of_same rfl rfl rfl fun hnot => absurd hdoomed hnot
  · exact nomatch h

theorem Store.spares_appendBatch {chunks : List TailChunk} (hdoomed : doomed primaryPane)
    (h : store.appendBatch chunks = .ok store') : Store.Spares doomed store store' := by
  unfold Store.appendBatch at h
  split at h
  · cases hcheck : checkBatch chunks ((store.tailBatches.map (·.data.length)).sum)
        (store.tailBatches.getLast?.map (·.lastSequence)) with
    | error _ =>
      rw [hcheck] at h
      exact nomatch h
    | ok _ =>
      rw [hcheck] at h
      obtain rfl := Except.ok.inj h
      exact .of_same rfl rfl rfl fun hnot => absurd hdoomed hnot
  · exact Except.ok.inj h ▸ .refl _

theorem Store.spares_savePaneKeyframe {keyframe : Keyframe} (hdoomed : doomed paneID)
    (h : store.savePaneKeyframe paneID keyframe = .ok store') :
    Store.Spares doomed store store' := by
  unfold Store.savePaneKeyframe at h
  split at h
  · exact nomatch h
  split at h
  · obtain rfl := Except.ok.inj h
    refine ⟨fun other hnot => ?_, fun _ => ⟨rfl, rfl⟩⟩
    have hne : other ≠ paneID := fun hsame => hnot (hsame ▸ hdoomed)
    exact ⟨rfl, setAt_of_ne _ _ hne, setAt_of_ne _ _ hne⟩
  · exact nomatch h

theorem Store.spares_appendPaneBatch {chunks : List TailChunk} (hdoomed : doomed paneID)
    (h : store.appendPaneBatch paneID chunks = .ok store') :
    Store.Spares doomed store store' := by
  unfold Store.appendPaneBatch at h
  split at h
  · exact nomatch h
  split at h
  · exact Except.ok.inj h ▸ .refl _
  obtain ⟨_, -, h⟩ := bind_eq_ok h
  split at h
  · obtain rfl := Except.ok.inj h
    refine ⟨fun other hnot => ?_, fun _ => ⟨rfl, rfl⟩⟩
    exact ⟨rfl, rfl, setAt_of_ne _ _ fun hsame => hnot (hsame ▸ hdoomed)⟩
  · exact nomatch h

theorem Store.spares_destroyPane (hunique : store.Unique) (hdoomed : doomed paneID) :
    Store.Spares doomed store (store.destroyPane paneID) := by
  refine ⟨fun other hnot => ?_, fun _ => ⟨rfl, rfl⟩⟩
  obtain ⟨hrow, hkeyframe, htail⟩ :=
    Store.destroyPane_recovery_of_ne hunique fun hsame : other = paneID => hnot (hsame ▸ hdoomed)
  exact ⟨hrow, hkeyframe, htail⟩

/-- What the attachment of a doomed pane writes. -/
theorem leads_removes_attachmentWrite (hdoomed : doomed paneID) (write : AttachmentWrite) :
    Leads (Removes doomed) (attachmentWrite env paneID write) o fun _ _ => True := by
  cases write with
  | keyframe keyframe =>
    rw [attachmentWrite]
    refine .bind (leads_removes_mirrorLegacy hdoomed fun hprimary => ?_) fun _ t _ _ => ?_
    · exact (leads_removes_storeCall (Store.shrinks_saveKeyframe keyframe) fun _ hstore =>
        Store.spares_saveKeyframe hprimary hstore).mono fun _ _ _ => trivial
    · exact (leads_removes_storeCall (Store.shrinks_savePaneKeyframe paneID keyframe)
        fun _ hstore => Store.spares_savePaneKeyframe hdoomed hstore).mono fun _ _ _ => trivial
  | tail chunks =>
    rw [attachmentWrite]
    refine .bind (leads_removes_mirrorLegacy hdoomed fun hprimary => ?_) fun _ t _ _ => ?_
    · exact (leads_removes_storeCall (Store.shrinks_appendBatch chunks) fun _ hstore =>
        Store.spares_appendBatch hprimary hstore).mono fun _ _ _ => trivial
    · exact (leads_removes_storeCall (Store.shrinks_appendPaneBatch paneID chunks)
        fun _ hstore => Store.spares_appendPaneBatch hdoomed hstore).mono fun _ _ _ => trivial
  | archive firstLine lastLine data =>
    rw [attachmentWrite]
    exact leads_removes_historyCall fun _ hhistory other hnot =>
      HistoryStore.panes_append_of_ne hhistory fun hsame => hnot (hsame ▸ hdoomed)

theorem leads_removes_callPane {α : Type} {action : PaneAction} {outcome : Except String α}
    (hdoomed : doomed paneID) :
    Leads (Removes doomed) (callPane env paneID action outcome context) o fun _ _ => True := by
  refine .modify_bind (.of_same rfl rfl rfl rfl) ?_
  refine .bind (leads_whenPersistent (.forM fun write _ _ _ => ?_)) fun _ _ _ _ => ?_
  · exact .bestEffort (leads_removes_attachmentWrite hdoomed write)
  · exact Leads.of_orRaise.mono fun _ _ _ => trivial

theorem leads_removes_destroyPersistedPane (hunique : o.store.Unique)
    (hdoomed : doomed session.paneID) :
    Leads (Removes doomed) (destroyPersistedPane env session) o fun _ _ => True := by
  refine leads_whenPersistent (leads_removes_openStore.bind fun _ t ht _ =>
    leads_removes_openHistory.bind fun _ t' ht' _ => ?_)
  refine .bind (leads_removes_historyCall fun _ hhistory other hnot =>
    HistoryStore.panes_reapPane_of_ne hhistory fun hsame => hnot (hsame ▸ hdoomed))
    fun _ u hu _ => ?_
  have hleft := (ht.trans ht').trans hu
  refine (leads_removes_storeCall (Store.shrinks_destroyPane _) fun store hstore => ?_).mono
    fun _ _ _ => trivial
  obtain rfl := Except.ok.inj hstore
  exact Store.spares_destroyPane (hleft.unique hunique) hdoomed

/-- **A pane is removed on its own**: its session goes and no other record changes. -/
theorem leads_removes_destroyManagedSession (hunique : o.store.Unique)
    (hdoomed : doomed session.paneID)
    (hid : ∀ other ∈ o.sessions, other.id = session.id → doomed other.paneID) :
    Leads (Removes doomed) (destroyManagedSession env session) o fun _ t =>
      ∀ other ∈ t.sessions, other.id ≠ session.id := by
  have hstop : Leads (Removes doomed) (stopPane env session) o fun _ _ => True := by
    unfold stopPane
    split
    · exact leads_removes_callPane hdoomed
    · exact .of_pure trivial
  refine hstop.bind fun _ t ht _ => ?_
  have hclose : Leads (Removes doomed) (closeAttachment env session) t fun _ _ => True := by
    unfold closeAttachment
    split
    · exact leads_removes_callPane hdoomed
    · exact .of_pure trivial
  refine hclose.bestEffort.bind fun _ u hu _ => ?_
  have hleft := ht.trans hu
  refine (leads_removes_destroyPersistedPane (hleft.unique hunique) hdoomed).bind
    fun _ v hv _ => ?_
  have hleft := hleft.trans hv
  have hremoved : Removes doomed v { v with sessions := unregister v.sessions session.id } := by
    refine ⟨⟨rfl, fun other hother => (mem_unregister.mp hother).1, fun other hother hnot => ?_,
      .refl _, fun _ _ => rfl⟩, fun _ _ => id⟩
    exact mem_unregister.mpr
      ⟨hother, fun hsame => hnot (hid other (hleft.sessions other hother) hsame)⟩
  refine (Leads.of_modify hremoved).mono fun _ w hw other hother => ?_
  subst hw
  exact (mem_unregister.mp hother).2

end Calls

/-! ### After the panes have gone -/

section Settling

theorem leads_removes_topologyState (logicalID : String) :
    Leads (Removes doomed) (topologyState logicalID) o fun _ _ => True :=
  .modify_bind (.of_same rfl rfl rfl rfl) (.get_bind (.of_pure trivial))

theorem leads_removes_retireWindow (logicalID windowID : String) :
    Leads (Removes doomed) (retireWindow logicalID windowID) o fun _ _ => True :=
  (leads_removes_topologyState logicalID).bind fun _ _ _ _ =>
    (Leads.of_modify (.of_same rfl rfl rfl rfl)).mono fun _ _ _ => trivial

theorem leads_removes_retireLastPane (logicalID windowID : String) :
    Leads (Removes doomed) (retireLastPane logicalID windowID) o fun _ _ => True := by
  refine .get_bind ?_
  split
  · exact leads_removes_retireWindow logicalID windowID
  · exact .of_pure trivial

theorem leads_removes_persistActiveLogicalSession :
    Leads (Removes doomed) (persistActiveLogicalSession env logicalID) o fun _ _ => True := by
  refine leads_recordActive (fun _ => leads_removes_openStore.mono fun _ _ _ => trivial)
    fun _ _ => ?_
  refine (leads_removes_storeCall (Store.shrinks_setActiveLogicalSession _ _)
    fun store hstore => ?_).mono fun _ _ _ => trivial
  simp only [Store.setActiveLogicalSession] at hstore
  split at hstore
  · exact Except.ok.inj hstore ▸ .of_same rfl rfl rfl fun _ => ⟨rfl, rfl⟩
  · cases hstore

/-- Recording the interaction state rewrites windows only. -/
theorem leads_spares_persistTopologyInteraction :
    Leads (Spares doomed) (persistTopologyInteraction env logicalID) o fun _ _ => True := by
  refine leads_whenPersistent ?_
  refine .bind ((leads_removes_topologyState logicalID).weaken fun _ _ => Removes.toSpares)
    fun state t _ _ => ?_
  refine .bind (leads_removes_openStore.weaken fun _ _ => Removes.toSpares) fun _ t' _ _ => ?_
  refine .bind (.forM fun placed _ u _ => .require_bind fun _ => ?_) fun _ _ _ _ =>
    leads_removes_persistActiveLogicalSession.weaken fun _ _ => Removes.toSpares
  have htick : Removes doomed u u.tick := .of_same rfl rfl rfl rfl
  refine (leads_storeCall htick.toSpares fun store hstore => ?_).mono fun _ _ _ => trivial
  refine ⟨rfl, fun _ => id, fun _ hmem _ => hmem, ?_, fun _ _ => rfl⟩
  simp only [Store.upsertWindow] at hstore
  split at hstore
  · exact nomatch hstore
  split at hstore
  · exact Except.ok.inj hstore ▸ .of_same rfl rfl rfl fun _ => ⟨rfl, rfl⟩
  · exact nomatch hstore

theorem removes_selectRemainingSession (projectID : String) :
    Removes doomed o (o.selectRemainingSession env projectID) := by
  have hunfocused : Removes doomed o (o.unfocus projectID) := by
    unfold Operations.unfocus
    split <;> exact .of_same rfl rfl rfl rfl
  refine hunfocused.trans ?_
  unfold Operations.selectRemainingSession
  split
  · exact .of_same rfl rfl rfl rfl
  · unfold Operations.deselect
    split <;> exact .of_same rfl rfl rfl rfl

theorem removes_selectLogicalSession (logicalID : String) :
    Removes doomed o (o.selectLogicalSession env logicalID) := by
  unfold Operations.selectLogicalSession
  split
  · exact .of_same rfl rfl rfl rfl
  · exact removes_selectRemainingSession ""

theorem leads_removes_keepSelection (wasActive : Bool) :
    Leads (Removes doomed) (keepSelection env logicalID wasActive) o fun _ _ => True := by
  unfold keepSelection
  split
  · exact (Leads.of_modify (removes_selectLogicalSession logicalID)).mono fun _ _ _ => trivial
  · exact .of_pure trivial

theorem leads_removes_selectReplacement (projectID : String) (wasActive : Bool) :
    Leads (Removes doomed) (selectReplacement env logicalID projectID wasActive) o
      fun _ _ => True := by
  refine .modify_bind (.of_same rfl rfl rfl rfl) ?_
  split
  · refine .modify_bind (removes_selectRemainingSession projectID) (.get_bind ?_)
    split
    · exact .of_pure trivial
    · exact leads_removes_persistActiveLogicalSession
  · exact .of_pure trivial

theorem leads_spares_settleDestroyed (projectID : String) (wasActive : Bool) :
    Leads (Spares doomed) (settleDestroyed env logicalID projectID wasActive) o
      fun _ _ => True := by
  refine .get_bind ?_
  split
  · refine .bind ((leads_removes_topologyState logicalID).weaken fun _ _ => Removes.toSpares)
      fun _ _ _ _ => ?_
    refine .bind ((leads_removes_keepSelection wasActive).weaken fun _ _ => Removes.toSpares)
      fun _ _ _ _ => leads_spares_persistTopologyInteraction.bestEffort
  · exact (leads_removes_selectReplacement projectID wasActive).weaken fun _ _ =>
      Removes.toSpares

theorem leads_spares_settleWindowDestroyed (projectID : String) (wasActive : Bool) :
    Leads (Spares doomed) (settleWindowDestroyed env logicalID projectID wasActive) o
      fun _ _ => True := by
  refine .get_bind ?_
  split
  · refine .bind ((leads_removes_topologyState logicalID).weaken fun _ _ => Removes.toSpares)
      fun _ _ _ _ => leads_spares_persistTopologyInteraction.bind fun _ _ _ _ => ?_
    exact (leads_removes_keepSelection wasActive).weaken fun _ _ => Removes.toSpares
  · exact (leads_removes_selectReplacement projectID wasActive).weaken fun _ _ =>
      Removes.toSpares

theorem leads_removes_topologyLocked (projectID : String) :
    Leads (Removes doomed) (topologyLocked env projectID) o fun _ _ => True := by
  refine .modify_bind ?_ (.get_bind (.of_pure trivial))
  have hfold : ∀ (logicalIDs : List String) (o : Operations),
      Removes doomed o (logicalIDs.foldl Operations.normalizeTopology o) := by
    intro logicalIDs
    induction logicalIDs with
    | nil => exact fun o => .of_same rfl rfl rfl rfl
    | cons first rest ih =>
      intro o
      have hfirst : Removes doomed o (o.normalizeTopology first) := .of_same rfl rfl rfl rfl
      exact hfirst.trans (ih _)
  have hnumbered : Removes doomed o { o with topologyRevision := o.topologyRevision + 1 } :=
    .of_same rfl rfl rfl rfl
  exact hnumbered.trans (hfold (projectLogicalIDs o projectID) _)

end Settling

/-! ### The legacy record -/

/-- A step after which no pane is doomed and the records of the others are the same. -/
theorem Spares.local_of_gone (h : Spares doomed o o')
    (hgone : ∀ session ∈ o'.sessions, ¬ doomed session.paneID) : Local o o' := by
  refine fun session hmem => ⟨⟨h.store.record _ (hgone session hmem),
    h.archive _ (hgone session hmem)⟩, fun hprimary _ => h.store.legacy ?_⟩
  rw [← hprimary]
  exact hgone session hmem

theorem exec_clearRecovery_ok {a : Unit} (h : exec (clearRecovery env) o = (.ok a, o')) :
    o'.sessions = o.sessions ∧ o'.history = o.history ∧
      o'.store = if o.persistencePath = "" then o.store else o.store.clear := by
  obtain ⟨_, t, hclear, hset⟩ := exec_bind_ok h
  obtain rfl : { t with recoveryErr := none } = o' := congrArg Prod.snd hset
  rw [exec_whenPersistent] at hclear
  split at hclear
  · next hpath =>
    obtain rfl : o = t := congrArg Prod.snd hclear
    exact ⟨rfl, rfl, (if_pos hpath).symm⟩
  · next hpath =>
    obtain ⟨_, u, hopen, hcall⟩ := exec_bind_ok hclear
    obtain ⟨_, hsame, rfl⟩ := exec_storeCall_ok hopen
    obtain ⟨_, hcleared, rfl⟩ := exec_storeCall_ok hcall
    obtain rfl := Except.ok.inj hsame
    obtain rfl := Except.ok.inj hcleared
    exact ⟨rfl, rfl, (if_neg hpath).symm⟩

/-- The legacy record has content. -/
def Store.HasLegacy (store : Store) : Prop :=
  store.keyframe ≠ none ∨ store.tailBatches ≠ []

/-- Clearing is seen when there was content. -/
theorem Store.sameLegacy_clear : Store.SameLegacy store store'.clear ↔ ¬ store.HasLegacy := by
  rw [Store.HasLegacy, not_or, not_not, not_not]
  constructor
  · exact fun h => ⟨h.keyframe.symm, h.tailBatches.symm⟩
  · exact fun h => ⟨h.1.symm, h.2.symm⟩

/-- The requests that destroy panes. -/
def Request.Destroys (request : Request) : Prop :=
  (∃ input, request.operation = .sessionDestroy input) ∨
    ∃ input, request.operation = .windowDestroy input

/-- A session is destroyed that is not the primary pane, but shares the first logical session
with it, while the primary pane is alive and has a legacy record. -/
def DropsLegacy (o : Operations) (request : Request) : Prop :=
  ∃ input session, request.operation = .sessionDestroy input ∧
    requireDestroySession o.sessions input.sessionID = some session ∧
    logicalSessionID session = sessionName 1 ∧ session.paneID ≠ primaryPane ∧
    (∃ primary ∈ o.sessions, primary.paneID = primaryPane ∧ primary.pane.isSome) ∧
    o.persistencePath ≠ "" ∧ o.store.HasLegacy

theorem sessionName_ne_recovered (n : ℕ) : sessionName n ≠ "recovered-session" := by
  intro h
  have hhead := congrArg (fun name : String => name.toList.head?) h
  simp [sessionName] at hhead

/-- Only the primary pane, when it is alive, can lose its record with another pane. -/
theorem destroySession_local_iff (h : Consistent o) (hmem : session ∈ o.sessions) {id : String}
    (hexec : exec (destroySession env session) o = (.ok id, o')) :
    Local o o' ↔ ¬ (logicalSessionID session = sessionName 1 ∧ session.paneID ≠ primaryPane ∧
      (∃ primary ∈ o.sessions, primary.paneID = primaryPane ∧ primary.pane.isSome) ∧
      o.persistencePath ≠ "" ∧ o.store.HasLegacy) := by
  rw [destroySession, exec_get_bind] at hexec
  obtain ⟨_, t, hretire, hexec⟩ := exec_bind_ok hexec
  obtain ⟨_, u, hdestroy, hexec⟩ := exec_bind_ok hexec
  obtain ⟨_, v, hsettle, hexec⟩ := exec_bind_ok hexec
  obtain ⟨_, w, hlegacy, hexec⟩ := exec_bind_ok hexec
  obtain rfl : w = o' := congrArg Prod.snd hexec
  -- up to the clearing of the recovery only records of the destroyed pane go
  have hretired : Removes (· = session.paneID) o t :=
    ((leads_removes_retireLastPane _ _).of_exec hretire).1
  have hids : ∀ other ∈ t.sessions, other.id = session.id → other.paneID = session.paneID :=
    fun other hother hsame =>
      congrArg (·.paneID) (h.eq_of_id (hretired.sessions other hother) hmem hsame)
  have hremoves : Leads (Removes (· = session.paneID)) (destroyManagedSession env session) t _ :=
    leads_removes_destroyManagedSession (hretired.unique h.store_unique) rfl hids
  obtain ⟨hdestroyed, hgone⟩ := hremoves.of_exec hdestroy
  have hsettled : Spares (· = session.paneID) u v :=
    ((leads_spares_settleDestroyed _ _).of_exec hsettle).1
  have hspares : Spares (· = session.paneID) o v :=
    (hretired.trans hdestroyed).toSpares.trans hsettled
  have hleft : ∀ other ∈ v.sessions, other.paneID ≠ session.paneID := by
    intro other hother hsame
    refine hgone other (hsettled.sessions other hother) ?_
    exact congrArg (·.id) (h.eq_of_paneID (hspares.sessions other hother) hmem hsame)
  have hlocal : Local o v := hspares.local_of_gone hleft
  have hne : session.id ≠ "recovered-session" := by
    obtain ⟨n, -, hn, -⟩ := h.numbered session hmem
    exact hn ▸ sessionName_ne_recovered n
  unfold clearLegacy at hlegacy
  split at hlegacy
  · next hfirst =>
    have hfirst := hfirst.resolve_right hne
    obtain ⟨hsessions, hhistory, hstore⟩ := exec_clearRecovery_ok hlegacy
    rw [hspares.persistencePath] at hstore
    have hrecord : ∀ paneID, Store.SameRecord paneID v.store w.store := by
      rw [hstore]
      split <;> exact fun _ => ⟨rfl, rfl, rfl⟩
    -- the legacy record is dropped with the first session, whichever pane that had
    have hclears : session.paneID ≠ primaryPane →
        (Store.SameLegacy o.store w.store ↔ ¬ (o.persistencePath ≠ "" ∧ o.store.HasLegacy)) := by
      intro hother
      rw [hstore]
      split
      · next hpath =>
        exact iff_of_true (hspares.store.legacy hother.symm) fun hdrops => hdrops.1 hpath
      · next hpath => rw [Store.sameLegacy_clear, not_and, imp_iff_right hpath]
    constructor
    · rintro hkept ⟨-, hother, ⟨primary, hprimary, hpane, hlive⟩, hdrops⟩
      -- the primary pane is still there and has lost its record
      have hsurvives : primary ∈ w.sessions :=
        hsessions ▸ hspares.kept primary hprimary fun hsame => hother (hsame.symm.trans hpane)
      exact (hclears hother).mp ((hkept primary hsurvives).2 hpane hlive) hdrops
    · intro hnot primary hprimary
      rw [hsessions] at hprimary
      obtain ⟨⟨hsame, harchive⟩, -⟩ := hlocal primary hprimary
      refine ⟨⟨hsame.trans (hrecord _), hhistory ▸ harchive⟩, fun hpane hlive => ?_⟩
      have hother : session.paneID ≠ primaryPane :=
        fun hsame => hleft primary hprimary (hpane.trans hsame.symm)
      exact (hclears hother).mpr fun hdrops => hnot ⟨hfirst, hother,
        ⟨primary, hspares.sessions primary hprimary, hpane, hlive⟩, hdrops⟩
  · next hfirst =>
    obtain rfl : v = w := congrArg Prod.snd hlegacy
    exact iff_of_true hlocal fun hdrops => hfirst (.inl hdrops.1)

/-- Destroying a window is local: it never drops the legacy record. -/
theorem destroyWindow_local (h : Consistent o) {input : DestroyWindowRequest}
    {response : TopologyResponse}
    (hexec : exec (destroyWindow env input) o = (.ok response, o')) : Local o o' := by
  obtain ⟨root, hroot, hexec⟩ :=
    exec_requireLogicalSession_bind_ok (exec_requireMutable_bind_ok hexec)
  rw [exec_get_bind] at hexec
  obtain ⟨-, hexec⟩ := exec_require_bind_ok hexec
  obtain ⟨_, t, hretire, hexec⟩ := exec_bind_ok hexec
  obtain ⟨_, u, hdestroy, hexec⟩ := exec_bind_ok hexec
  obtain ⟨_, v, hsettle, hexec⟩ := exec_bind_ok hexec
  -- the doomed panes are those of the window
  let targets := windowTargets env o.sessions (logicalSessionID root) input.windowID
  let doomed := fun paneID => ∃ target ∈ targets, target.paneID = paneID
  have hretired : Removes doomed o t := ((leads_removes_retireWindow _ _).of_exec hretire).1
  have hmem : ∀ target ∈ targets, target ∈ o.sessions :=
    fun target htarget => (mem_windowTargets.mp htarget).1
  have hremoves : Leads (Removes doomed) (targets.forM (destroyManagedSession env)) t fun _ u =>
      ∀ target ∈ targets, ∀ other ∈ u.sessions, other.id ≠ target.id := by
    refine .forM_each (fun target t u hkept hgone other hother =>
      hgone other (hkept.sessions other hother)) fun target htarget t' ht' => ?_
    have hleft := hretired.trans ht'
    refine leads_removes_destroyManagedSession (hleft.unique h.store_unique)
      ⟨target, htarget, rfl⟩ fun other hother hsame => ⟨target, htarget, ?_⟩
    rw [h.eq_of_id (hleft.sessions other hother) (hmem target htarget) hsame]
  obtain ⟨hdestroyed, hgone⟩ := hremoves.of_exec hdestroy
  have hsettled : Spares doomed u v := ((leads_spares_settleWindowDestroyed _ _).of_exec hsettle).1
  have hanswered : Removes doomed v o' := ((leads_removes_topologyLocked _).of_exec hexec).1
  have hlater := hsettled.trans hanswered.toSpares
  have hspares := (hretired.trans hdestroyed).toSpares.trans hlater
  refine hspares.local_of_gone fun session hsession hdoomed => ?_
  obtain ⟨target, htarget, hsame⟩ := hdoomed
  refine hgone target htarget session (hlater.sessions session hsession) ?_
  rw [h.eq_of_paneID (hspares.sessions session hsession) (hmem target htarget) hsame.symm]

theorem exec_handleMethod_of_isOk {request : Request}
    (hok : (exec (handleMethod env request) o).1.isOk) :
    ∃ response, exec (handleMethod env request) o =
      (.ok response, o.after (.handle env request)) := by
  cases hexec : exec (handleMethod env request) o with
  | mk outcome t =>
    rw [hexec] at hok
    cases outcome with
    | error _ => exact nomatch hok
    | ok response => exact ⟨response, by rw [Operations.after, hexec]⟩

/-- **Destroying panes is local to them**, except that it drops the legacy record of a live
primary pane whose sibling is destroyed on its own. -/
theorem destroy_local_iff (persistencePath topologyEpoch : String) (persistScrollback : Bool)
    (scrollbackLines : ℕ)
    (hreach : Reaches Operations.step Always
      (.fresh persistencePath topologyEpoch persistScrollback scrollbackLines) o)
    {request : Request} (hdestroys : request.Destroys)
    (hok : (exec (handleMethod env request) o).1.isOk) :
    Local o (o.after (.handle env request)) ↔ ¬ DropsLegacy o request := by
  have h : Consistent o := (Consistent.fresh _ _ _ _).of_reaches hreach
  obtain ⟨response, hexec⟩ := exec_handleMethod_of_isOk hok
  obtain ⟨operation, projectID, sessionText, paneText⟩ := request
  rcases hdestroys with ⟨input, hoperation⟩ | ⟨input, hoperation⟩
  · obtain rfl : operation = .sessionDestroy input := hoperation
    obtain ⟨id, t, hdestroy, hpure⟩ := exec_bind_ok hexec
    have hafter : t = o.after (.handle env ⟨.sessionDestroy input, projectID, sessionText,
      paneText⟩) := congrArg Prod.snd hpure
    rw [← hafter]
    have hdestroy := exec_requireMutable_bind_ok hdestroy
    rw [exec_get_bind] at hdestroy
    split at hdestroy
    · next session hfound =>
      rw [destroySession_local_iff h (requireDestroySession_names hfound).1 hdestroy]
      refine not_congr ⟨fun hdrops => ⟨input, session, rfl, hfound, hdrops⟩, ?_⟩
      rintro ⟨_, other, ⟨rfl⟩, hother, hdrops⟩
      obtain rfl := Option.some.inj (hfound.symm.trans hother)
      exact hdrops
    · next hnone =>
      rw [destroyRecovery, exec_get_bind] at hdestroy
      obtain ⟨⟨hempty, -, -⟩, hdestroy⟩ := exec_require_bind_ok hdestroy
      obtain ⟨_, u, hclear, hpure⟩ := exec_bind_ok hdestroy
      obtain rfl : u = t := congrArg Prod.snd hpure
      obtain ⟨hsessions, -, -⟩ := exec_clearRecovery_ok hclear
      refine iff_of_true (fun session hmem => ?_) ?_
      · rw [hsessions, hempty] at hmem
        exact nomatch hmem
      · rintro ⟨_, session, ⟨rfl⟩, hfound, -⟩
        exact nomatch hnone.symm.trans hfound
  · obtain rfl : operation = .windowDestroy input := hoperation
    obtain ⟨answer, t, hdestroy, hpure⟩ := exec_bind_ok hexec
    obtain rfl : t = _ := congrArg Prod.snd hpure
    refine iff_of_true (destroyWindow_local h hdestroy) ?_
    rintro ⟨_, _, hsession, -⟩
    exact nomatch hsession

/-- A daemon with two panes in the window of its first session. -/
def siblings : Operations :=
  ((Operations.fresh "state.db" "epoch" true 10000).after
    (.handle .calm { operation := .sessionCreate { command := "sh" }, projectID := "alpha" })).after
    (.handle .calm
      { operation := .paneSplit { paneID := "pane-1", command := "sh" }, projectID := "alpha" })

theorem siblings_reaches :
    Reaches Operations.step Always (.fresh "state.db" "epoch" true 10000) siblings :=
  ⟨_, .cons trivial rfl (.single trivial rfl)⟩

/-- The request that destroys the second pane. -/
def destroySibling : Request :=
  { operation := .sessionDestroy ⟨"session-2"⟩, projectID := "alpha" }

theorem destroy_local_siblings :
    Local siblings (siblings.after (.handle .calm destroySibling)) ↔
      ¬ DropsLegacy siblings destroySibling :=
  destroy_local_iff "state.db" "epoch" true 10000 siblings_reaches (.inl ⟨_, rfl⟩)
    (by decide +kernel)

/-- The primary pane is alive and loses its legacy record when its sibling is destroyed. -/
theorem destroy_not_local :
    ∃ o request, Reaches Operations.step Always (.fresh "state.db" "epoch" true 10000) o ∧
      request.Destroys ∧ (exec (handleMethod .calm request) o).1.isOk ∧
      ¬ Local o (o.after (.handle .calm request)) := by
  refine ⟨siblings, destroySibling, siblings_reaches, .inl ⟨_, rfl⟩, by decide +kernel,
    fun hlocal => ?_⟩
  have hsurvives : ∃ session ∈ (siblings.after (.handle .calm destroySibling)).sessions,
      session.paneID = primaryPane ∧ session.pane.isSome := by
    decide +kernel
  have hrecorded : siblings.store.keyframe.isSome := by decide +kernel
  have hdropped : (siblings.after (.handle .calm destroySibling)).store.keyframe.isSome =
    false := by
    decide +kernel
  obtain ⟨session, hmem, hprimary, hlive⟩ := hsurvives
  rw [((hlocal session hmem).2 hprimary hlive).keyframe, hrecorded] at hdropped
  exact nomatch hdropped

end AgentCockpit.Mux
