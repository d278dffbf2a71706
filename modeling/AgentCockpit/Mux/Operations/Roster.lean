import AgentCockpit.Mux.Operations.Interaction
import Mathlib.Data.List.Sublists

/-!
# The roster of panes

What a pane is known by: its ids, its logical session, its project and its broadcast scope. The
requests that neither create a pane nor set a scope only drop panes from the roster. The ids of a
roster are distinct, and the panes of one logical session are in one project; a pane with the
next ids keeps it so when it joins a logical session in the project of that session.
-/

namespace AgentCockpit.Mux

open AgentCockpit.Core

variable {env : Env} {o o' o'' : Operations} {session : ManagedSession}
variable {logicalID context : String}

/-- What a pane is known by. -/
structure Badge where
  id : String
  paneID : String
  logicalSessionID : String
  projectID : String
  broadcastScope : String
  deriving DecidableEq, Repr

def ManagedSession.badge (session : ManagedSession) : Badge where
  id := session.id
  paneID := session.paneID
  logicalSessionID := session.logicalSessionID
  projectID := session.projectID
  broadcastScope := session.broadcastScope

def Operations.roster (operations : Operations) : List Badge :=
  operations.sessions.map (·.badge)

/-- The panes of one logical session agree on a value. -/
def Agree (value : Badge → String) (roster : List Badge) : Prop :=
  ∀ badge ∈ roster, ∀ other ∈ roster, badge.logicalSessionID = other.logicalSessionID →
    value badge = value other

/-- The ids are distinct and were handed out, and a logical session is in one project. -/
structure Numbered (roster : List Badge) (nextSession : ℕ) : Prop where
  ids : (roster.map (·.id)).Nodup
  panes : (roster.map (·.paneID)).Nodup
  fresh : ∀ n, nextSession < n → ∀ badge ∈ roster, badge.id ≠ sessionName n ∧
    badge.paneID ≠ paneName n ∧ badge.logicalSessionID ≠ sessionName n
  project : Agree (·.projectID) roster

namespace Agree

variable {value : Badge → String} {roster roster' : List Badge} {badge : Badge}

theorem sublist (h : Agree value roster) (hsub : roster'.Sublist roster) : Agree value roster' :=
  fun first hfirst second hsecond => h first (hsub.subset hfirst) second (hsub.subset hsecond)

/-- A pane with the value of the panes it joins. -/
theorem append (h : Agree value roster) (hjoins : ∀ other ∈ roster,
    other.logicalSessionID = badge.logicalSessionID → value other = value badge) :
    Agree value (roster ++ [badge]) := by
  intro first hfirst second hsecond hsame
  rcases List.mem_append.mp hfirst with hold | hnew <;>
    rcases List.mem_append.mp hsecond with hold' | hnew'
  · exact h first hold second hold' hsame
  · rw [List.mem_singleton.mp hnew'] at hsame ⊢
    exact hjoins first hold hsame
  · rw [List.mem_singleton.mp hnew] at hsame ⊢
    exact (hjoins second hold' hsame.symm).symm
  · rw [List.mem_singleton.mp hnew, List.mem_singleton.mp hnew']

end Agree

/-- The badge of a pane once it carries a scope. -/
def Badge.withScope (badge : Badge) (scope : String) : Badge :=
  { badge with broadcastScope := scope }

namespace Numbered

variable {roster roster' : List Badge} {nextSession : ℕ} {badge : Badge}

theorem sublist (h : Numbered roster nextSession) (hsub : roster'.Sublist roster)
    {later : ℕ} (hlater : nextSession ≤ later) : Numbered roster' later where
  ids := h.ids.sublist (hsub.map _)
  panes := h.panes.sublist (hsub.map _)
  fresh n hn badge hbadge := h.fresh n (lt_of_le_of_lt hlater hn) badge (hsub.subset hbadge)
  project := h.project.sublist hsub

/-- A pane with the next ids is new to the roster. It begins a logical session, or joins one in
the project of that session. -/
theorem append (h : Numbered roster nextSession) (hid : badge.id = sessionName (nextSession + 1))
    (hpane : badge.paneID = paneName (nextSession + 1))
    (hlogical : badge.logicalSessionID = sessionName (nextSession + 1) ∨
      ∃ other ∈ roster, other.logicalSessionID = badge.logicalSessionID ∧
        other.projectID = badge.projectID) :
    Numbered (roster ++ [badge]) (nextSession + 1) := by
  have hnew := h.fresh (nextSession + 1) (Nat.lt_succ_self _)
  have hproject : ∀ other ∈ roster, other.logicalSessionID = badge.logicalSessionID →
      other.projectID = badge.projectID := by
    intro other hother hsame
    rcases hlogical with hbegins | ⟨member, hmember, hjoins, hin⟩
    · exact absurd (hsame.trans hbegins) (hnew other hother).2.2
    · rw [← hin]
      exact h.project other hother member hmember (hsame.trans hjoins.symm)
  refine ⟨?_, ?_, fun n hn => ?_, ?_⟩
  · rw [List.map_append, List.map_singleton]
    refine h.ids.append (List.nodup_singleton _) fun id hmem hbadge => ?_
    obtain ⟨other, hother, rfl⟩ := List.mem_map.mp hmem
    exact (hnew other hother).1 ((List.mem_singleton.mp hbadge).trans hid)
  · rw [List.map_append, List.map_singleton]
    refine h.panes.append (List.nodup_singleton _) fun id hmem hbadge => ?_
    obtain ⟨other, hother, rfl⟩ := List.mem_map.mp hmem
    exact (hnew other hother).2.1 ((List.mem_singleton.mp hbadge).trans hpane)
  · refine List.forall_mem_append.mpr ⟨h.fresh n (by omega), ?_⟩
    have hne : nextSession + 1 ≠ n := by omega
    refine List.forall_mem_singleton.mpr ⟨?_, ?_, ?_⟩
    · rw [hid]
      exact sessionName_injective.ne hne
    · rw [hpane]
      exact paneName_injective.ne hne
    · rcases hlogical with hbegins | ⟨member, hmember, hjoins, -⟩
      · rw [hbegins]
        exact sessionName_injective.ne hne
      · rw [← hjoins]
        exact (h.fresh n (by omega) member hmember).2.2
  · exact h.project.append hproject

/-- The scopes may change. -/
theorem map (h : Numbered roster nextSession) {rescope : Badge → Badge}
    (hrescope : ∀ badge, (rescope badge).withScope "" = badge.withScope "") :
    Numbered (roster.map rescope) nextSession := by
  have hkeeps : ∀ {α : Type} (field : Badge → α), (∀ badge, field (badge.withScope "") =
      field badge) → ∀ badge, field (rescope badge) = field badge := by
    intro α field hfield badge
    rw [← hfield, hrescope, hfield]
  have hid : ∀ badge, (rescope badge).id = badge.id := hkeeps Badge.id fun _ => rfl
  have hpane : ∀ badge, (rescope badge).paneID = badge.paneID := hkeeps Badge.paneID fun _ => rfl
  have hlogical : ∀ badge, (rescope badge).logicalSessionID = badge.logicalSessionID :=
    hkeeps Badge.logicalSessionID fun _ => rfl
  have hproject : ∀ badge, (rescope badge).projectID = badge.projectID :=
    hkeeps Badge.projectID fun _ => rfl
  refine ⟨?_, ?_, fun n hn badge hbadge => ?_, ?_⟩
  · have hids : (roster.map rescope).map (·.id) = roster.map (·.id) := by
      rw [List.map_map]
      exact List.map_congr_left fun badge _ => hid badge
    exact hids ▸ h.ids
  · have hpanes : (roster.map rescope).map (·.paneID) = roster.map (·.paneID) := by
      rw [List.map_map]
      exact List.map_congr_left fun badge _ => hpane badge
    exact hpanes ▸ h.panes
  · obtain ⟨old, hold, rfl⟩ := List.mem_map.mp hbadge
    rw [hid, hpane, hlogical]
    exact h.fresh n hn old hold
  · intro first hfirst second hsecond hsame
    obtain ⟨old, hold, rfl⟩ := List.mem_map.mp hfirst
    obtain ⟨old', hold', rfl⟩ := List.mem_map.mp hsecond
    rw [hlogical, hlogical] at hsame
    exact (hproject old).trans ((h.project old hold old' hold' hsame).trans (hproject old').symm)

end Numbered

/-! ### Panes that go -/

/-- Panes may go; the others stay as they are, and no id is handed out twice. -/
structure Sheds (o o' : Operations) : Prop where
  roster : o'.roster.Sublist o.roster
  nextSession : o.nextSession ≤ o'.nextSession

instance : Std.Refl Sheds := ⟨fun _ => ⟨.refl _, Nat.le_refl _⟩⟩

instance : IsTrans Operations Sheds :=
  ⟨fun _ _ _ h h' => ⟨h'.roster.trans h.roster, Nat.le_trans h.nextSession h'.nextSession⟩⟩

namespace Sheds

theorem of_sessions (hsessions : o'.sessions = o.sessions)
    (hnext : o'.nextSession = o.nextSession) : Sheds o o' := by
  refine ⟨?_, hnext.ge⟩
  rw [Operations.roster, Operations.roster, hsessions]

theorem of_records (h : Records o o') : Sheds o o' :=
  of_sessions h.sessions h.nextSession

/-- The records of panes change, and not what they are known by. -/
theorem of_map {change : ManagedSession → ManagedSession}
    (hchange : ∀ session ∈ o.sessions, (change session).badge = session.badge) :
    Sheds o { o with sessions := o.sessions.map change } := by
  refine ⟨?_, Nat.le_refl _⟩
  rw [Operations.roster, Operations.roster, List.map_map]
  have hsame : o.sessions.map (ManagedSession.badge ∘ change) = o.sessions.map (·.badge) :=
    List.map_congr_left hchange
  exact hsame ▸ .refl _

end Sheds

/-! ### Steps that only drop panes -/

theorem sheds_topologyState : Leads Sheds (topologyState logicalID) o fun _ _ => True :=
  .modify_bind (.of_sessions rfl rfl) (.get_bind (.of_pure trivial))

theorem sheds_setTopologyState {state : TopologyState} :
    Leads Sheds (setTopologyState logicalID state) o fun _ _ => True :=
  (Leads.of_modify (.of_sessions rfl rfl)).mono fun _ _ _ => trivial

theorem sheds_storeCall {call : Store → Except String Store} :
    Leads Sheds (storeCall env context call) o fun _ _ => True :=
  (leads_storeCall (.of_sessions rfl rfl) fun _ _ => .of_sessions rfl rfl).mono fun _ _ _ => trivial

theorem sheds_of_records {α : Type} {x : OpsM α} {post : α → Operations → Prop}
    (h : Leads Records x o post) : Leads Sheds x o post :=
  h.weaken fun _ _ => .of_records

theorem sheds_callPane {α : Type} {paneID : String} {action : PaneAction}
    {outcome : Except String α} :
    Leads Sheds (callPane env paneID action outcome context) o fun _ _ => True := by
  refine .modify_bind (.of_sessions rfl rfl) ?_
  exact (sheds_of_records (leads_attachmentWrites _)).bind fun _ _ _ _ =>
    Leads.of_orRaise.mono fun _ _ _ => trivial

theorem sheds_windowPlacementIndex :
    Leads Sheds (windowPlacementIndex session) o fun _ _ => True :=
  sheds_topologyState.bind fun _ _ _ _ => .of_pure trivial

theorem sheds_persistTopology : Leads Sheds (persistTopology env session) o fun _ _ => True := by
  refine leads_whenPersistent ?_
  refine sheds_storeCall.bind fun _ _ _ _ => sheds_storeCall.bind fun _ _ _ _ => ?_
  exact sheds_windowPlacementIndex.bind fun _ _ _ _ =>
    sheds_storeCall.bind fun _ _ _ _ => sheds_storeCall

theorem sheds_persistTopologyInteraction :
    Leads Sheds (persistTopologyInteraction env logicalID) o fun _ _ => True := by
  refine leads_whenPersistent (sheds_topologyState.bind fun _ _ _ _ => ?_)
  refine sheds_storeCall.bind fun _ _ _ _ => ?_
  refine .bind (.forM fun _ _ _ _ => .require_bind fun _ => sheds_storeCall) fun _ _ _ _ => ?_
  exact sheds_of_records leads_persistActiveLogicalSession

theorem sheds_modifySession {sessionID : String} (change : ManagedSession → ManagedSession)
    (hchange : ∀ session, (change session).badge = session.badge) :
    Leads Sheds (modifySession sessionID change) o fun _ _ => True := by
  refine (Leads.of_modify (.of_map fun session _ => ?_)).mono fun _ _ _ => trivial
  split
  · exact hchange session
  · rfl

theorem sheds_topologyLocked {projectID : String} :
    Leads Sheds (topologyLocked env projectID) o fun _ _ => True := by
  have hrevise : ∀ (logicalIDs : List String) (t : Operations),
      (logicalIDs.foldl Operations.normalizeTopology t).sessions = t.sessions ∧
        (logicalIDs.foldl Operations.normalizeTopology t).nextSession = t.nextSession := by
    intro logicalIDs
    induction logicalIDs with
    | nil => exact fun _ => ⟨rfl, rfl⟩
    | cons first rest ih => exact fun t => ih (t.normalizeTopology first)
  have hsame := hrevise (projectLogicalIDs o projectID)
    { o with topologyRevision := o.topologyRevision + 1 }
  exact .modify_bind (.of_sessions hsame.1 hsame.2) (.get_bind (.of_pure trivial))

/-! ### Requests on a single pane -/

theorem sheds_write (input : WritePaneRequest) :
    Leads Sheds (write env input) o fun _ _ => True := by
  refine requireMutable_bind (requirePane_bind fun session _ _ => requireClient_bind
    (.require_bind fun _ => ?_))
  refine sheds_callPane.bind fun _ t _ _ => ?_
  have hbroadcast : Leads Sheds (broadcastInput env session input) t fun _ _ => True := by
    refine .get_bind ?_
    split
    · exact .forM fun _ _ _ _ => sheds_callPane.bind fun _ _ _ _ => .of_pure trivial
    · exact .of_pure trivial
  exact hbroadcast.bind fun _ _ _ _ => .of_pure trivial

theorem sheds_output (input : ReadPaneOutputRequest) :
    Leads Sheds (output env input) o fun _ _ => True := by
  refine requirePane_bind fun session _ _ => requireClient_bind ?_
  have hread : Leads Sheds (readOutputs env session input.fromSequence) o fun _ _ => True := by
    unfold readOutputs
    split
    · exact sheds_callPane
    · exact .of_pure trivial
  exact hread.bind fun _ _ _ _ => .of_pure trivial

theorem sheds_scrollback (input : ScrollbackQueryRequest) :
    Leads Sheds (scrollback env input) o fun _ _ => True := by
  refine .require_bind fun _ => requirePane_bind fun session _ _ => requireClient_bind ?_
  unfold readScrollback
  split
  · exact sheds_callPane
  · exact .of_pure trivial

theorem sheds_resize (input : ResizePaneRequest) :
    Leads Sheds (resize env input) o fun _ _ => True := by
  refine .require_bind fun _ => requireMutable_bind (requirePane_bind fun session _ _ =>
    requireClient_bind (.require_bind fun _ => ?_))
  refine sheds_callPane.bind fun _ _ _ _ => ?_
  exact (sheds_modifySession (setGeometry input.cols input.rows) fun _ => rfl).bind
    fun _ _ _ _ => sheds_persistTopology

theorem sheds_attach (input : AttachSessionRequest) :
    Leads Sheds (attach env input) o fun _ _ => True := by
  refine .require_bind fun _ => requireMutable_bind ?_
  have hreadable : Leads Sheds requireReadable o fun _ _ => True := by
    refine .get_bind ?_
    split
    · exact .of_throw
    · exact .of_pure trivial
  refine hreadable.bind fun _ t _ _ => requireSession_bind fun session _ _ => ?_
  have howner : ∀ session,
      (setOwner input.clientID input.clientKind session).badge = session.badge := by
    intro session
    unfold setOwner
    split <;> rfl
  refine (sheds_modifySession _ howner).bind fun _ u _ _ => ?_
  have hseed : Leads Sheds (seedPane env session input) u fun _ _ => True := by
    unfold seedPane
    split
    · exact sheds_callPane.bind fun _ _ _ _ => .of_pure trivial
    · split
      · exact .of_throw
      · exact sheds_callPane.bind fun _ _ _ _ => .of_pure trivial
  refine hseed.bind fun _ _ _ _ => ?_
  exact (sheds_modifySession (setGeometry input.cols input.rows) fun _ => rfl).bind
    fun _ _ _ _ => sheds_persistTopology.bind fun _ _ _ _ => .of_pure trivial

theorem sheds_detach (input : DetachSessionRequest) :
    Leads Sheds (detach input) o fun _ _ => True :=
  requireMutable_bind (requireSession_bind fun _ _ _ => requireClient_bind
    (sheds_modifySession clearOwner fun _ => rfl))

theorem sheds_setBroadcast (input : SetPaneBroadcastRequest) :
    Leads Sheds (setBroadcast input) o fun _ _ => True :=
  requireMutable_bind (requirePane_bind fun _ _ _ => requireClient_bind
    (sheds_modifySession (fun session => { session with broadcast := input.enabled })
      fun _ => rfl))

theorem sheds_pin (input : PinSessionRequest) : Leads Sheds (pin env input) o fun _ _ => True := by
  refine requireMutable_bind (requireSession_bind fun session _ _ => ?_)
  refine (sheds_modifySession (setPinned input.pinned) fun _ => rfl).bind fun _ _ _ _ => ?_
  exact .onError (sheds_of_records leads_persistPin) fun _ _ =>
    sheds_modifySession (setPinned session.pinned) fun _ => rfl

theorem sheds_configure (input : ConfigureMuxRequest) :
    Leads Sheds (configure env input) o fun _ _ => True := by
  have herase : Leads Sheds (eraseUnlessKept env (requestedPolicy input)) o fun _ _ => True := by
    unfold eraseUnlessKept
    split
    · exact .of_pure trivial
    · refine leads_whenPersistent ?_
      refine (sheds_of_records leads_openHistory).bind fun _ _ _ _ => ?_
      refine (sheds_of_records leads_recordHistory).bind fun _ _ _ _ => ?_
      refine (sheds_of_records leads_openHistory).bind fun _ _ _ _ => ?_
      refine sheds_storeCall.bind fun _ _ _ _ => sheds_storeCall.bind fun _ _ _ _ => ?_
      exact sheds_storeCall.bind fun _ _ _ _ => .get_bind (.forM fun _ _ _ _ =>
        sheds_persistTopology)
  have happly : ∀ (session : ManagedSession) (t : Operations),
      Leads Sheds (applyPolicy env (requestedPolicy input) session) t fun _ _ => True := by
    intro session t
    unfold applyPolicy
    split
    · exact sheds_callPane.bind fun _ _ _ _ => sheds_callPane
    · exact .of_pure trivial
  have hadopt : Leads Sheds (adoptPolicy env (requestedPolicy input)) o fun _ _ => True := by
    refine .get_bind ?_
    split
    · exact .of_pure trivial
    · exact herase.bind fun _ _ _ _ => .modify_bind (.of_sessions rfl rfl)
        (.get_bind (.forM fun session _ t _ => happly session t))
  exact requireMutable_bind (.require_bind fun _ => hadopt.bind fun _ _ _ _ => .of_pure trivial)

/-! ### Requests on the interaction state -/

theorem sheds_selectWindow (input : SelectWindowRequest) :
    Leads Sheds (selectWindow env input) o fun _ _ => True := by
  refine requireMutable_bind (requireLogicalSession_bind fun root _ =>
    requireWindow_bind fun _ => .modify_bind (.of_sessions rfl rfl) ?_)
  exact sheds_topologyState.bind fun _ _ _ _ => sheds_setTopologyState.bind fun _ _ _ _ =>
    sheds_persistTopologyInteraction.bind fun _ _ _ _ => sheds_topologyLocked

theorem sheds_selectPane (input : SelectPaneRequest) :
    Leads Sheds (selectPane env input) o fun _ _ => True := by
  refine requireMutable_bind (requireLogicalSession_bind fun root _ =>
    requirePaneIn_bind fun pane _ _ _ _ => sheds_topologyState.bind fun _ _ _ _ => ?_)
  refine .modify_bind (.of_sessions rfl rfl) ?_
  exact sheds_setTopologyState.bind fun _ _ _ _ =>
    sheds_persistTopologyInteraction.bind fun _ _ _ _ => sheds_topologyLocked

theorem sheds_zoomPane (input : ZoomPaneRequest) :
    Leads Sheds (zoomPane env input) o fun _ _ => True := by
  refine requireMutable_bind (requireLogicalSession_bind fun root _ =>
    requireWindow_bind fun _ => ?_)
  have hzoomed : Leads Sheds
      (requireZoomed input.paneID (logicalSessionID root) input.windowID) o fun _ _ => True := by
    unfold requireZoomed
    split
    · exact .of_pure trivial
    · exact requirePaneIn_bind fun _ _ _ _ _ => .of_pure trivial
  exact hzoomed.bind fun _ _ _ _ => sheds_topologyState.bind fun _ _ _ _ =>
    sheds_setTopologyState.bind fun _ _ _ _ =>
      sheds_persistTopologyInteraction.bind fun _ _ _ _ => sheds_topologyLocked

theorem sheds_resizeSplit (input : ResizeSplitRequest) :
    Leads Sheds (resizeSplit env input) o fun _ _ => True := by
  refine .require_bind fun _ => requireMutable_bind (requireLogicalSession_bind fun root _ =>
    requirePaneIn_bind fun pane _ _ _ _ => sheds_topologyState.bind fun _ _ _ _ =>
      .require_bind fun _ => ?_)
  exact sheds_setTopologyState.bind fun _ _ _ _ =>
    sheds_persistTopologyInteraction.bind fun _ _ _ _ => sheds_topologyLocked

/-! ### Panes that are destroyed, and processes that end -/

theorem sheds_unregisterSession (sessionID : String) :
    Leads Sheds (unregisterSession sessionID) o fun _ _ => True := by
  refine (Leads.of_modify ⟨?_, Nat.le_refl _⟩).mono fun _ _ _ => trivial
  exact (List.filter_sublist).map _

theorem sheds_closeAttachment : Leads Sheds (closeAttachment env session) o fun _ _ => True := by
  unfold closeAttachment
  split
  · exact sheds_callPane
  · exact .of_pure trivial

theorem sheds_destroyManagedSession :
    Leads Sheds (destroyManagedSession env session) o fun _ _ => True := by
  have hstop : Leads Sheds (stopPane env session) o fun _ _ => True := by
    unfold stopPane
    split
    · exact sheds_callPane
    · exact .of_pure trivial
  refine hstop.bind fun _ _ _ _ => sheds_closeAttachment.bestEffort.bind fun _ _ _ _ => ?_
  exact (sheds_of_records leads_destroyPersistedPane).bind fun _ _ _ _ =>
    sheds_unregisterSession session.id

theorem sheds_retireWindow (windowID : String) :
    Leads Sheds (retireWindow logicalID windowID) o fun _ _ => True :=
  sheds_topologyState.bind fun _ _ _ _ => sheds_setTopologyState

theorem sheds_selectRemainingSession (projectID : String) :
    Sheds o (o.selectRemainingSession env projectID) := by
  have hunfocus : (o.unfocus projectID).sessions = o.sessions ∧
      (o.unfocus projectID).nextSession = o.nextSession := by
    unfold Operations.unfocus
    split <;> exact ⟨rfl, rfl⟩
  unfold Operations.selectRemainingSession
  split
  · exact .of_sessions hunfocus.1 hunfocus.2
  · unfold Operations.deselect
    split <;> exact .of_sessions hunfocus.1 hunfocus.2

theorem sheds_selectReplacement (projectID : String) (wasActive : Bool) :
    Leads Sheds (selectReplacement env logicalID projectID wasActive) o fun _ _ => True := by
  refine sheds_setTopologyState.bind fun _ t _ _ => ?_
  split
  · refine .modify_bind (sheds_selectRemainingSession projectID) (.get_bind ?_)
    split
    · exact .of_pure trivial
    · exact sheds_of_records leads_persistActiveLogicalSession
  · exact .of_pure trivial

theorem sheds_keepSelection (wasActive : Bool) :
    Leads Sheds (keepSelection env logicalID wasActive) o fun _ _ => True := by
  unfold keepSelection
  split
  · refine (Leads.of_modify ?_).mono fun _ _ _ => trivial
    unfold Operations.selectLogicalSession
    split
    · exact .of_sessions rfl rfl
    · exact sheds_selectRemainingSession ""
  · exact .of_pure trivial

theorem sheds_destroy (input : DestroySessionRequest) :
    Leads Sheds (destroy env input) o fun _ _ => True := by
  refine requireMutable_bind (.get_bind ?_)
  split
  · next session _ =>
    have hretire : Leads Sheds (retireLastPane (logicalSessionID session) session.windowID) o
        fun _ _ => True := by
      refine .get_bind ?_
      split
      · exact sheds_retireWindow session.windowID
      · exact .of_pure trivial
    refine .get_bind (hretire.bind fun _ _ _ _ =>
      sheds_destroyManagedSession.bind fun _ t _ _ => ?_)
    have hsettle : ∀ wasActive, Leads Sheds (settleDestroyed env (logicalSessionID session)
        session.projectID wasActive) t fun _ _ => True := by
      intro wasActive
      refine .get_bind ?_
      split
      · exact sheds_topologyState.bind fun _ _ _ _ => (sheds_keepSelection wasActive).bind
          fun _ _ _ _ => sheds_persistTopologyInteraction.bestEffort
      · exact sheds_selectReplacement session.projectID wasActive
    exact (hsettle _).bind fun _ _ _ _ => (sheds_of_records leads_clearLegacy).bind
      fun _ _ _ _ => .of_pure trivial
  · exact .get_bind (.require_bind fun _ => (sheds_of_records leads_clearRecovery).bind
      fun _ _ _ _ => .of_pure trivial)

theorem sheds_destroyWindow (input : DestroyWindowRequest) :
    Leads Sheds (destroyWindow env input) o fun _ _ => True := by
  refine requireMutable_bind (requireLogicalSession_bind fun root _ => .get_bind
    (.require_bind fun _ => (sheds_retireWindow input.windowID).bind fun _ _ _ _ => ?_))
  refine .bind (.forM fun _ _ _ _ => sheds_destroyManagedSession) fun _ t _ _ => ?_
  have hsettle : ∀ wasActive, Leads Sheds (settleWindowDestroyed env (logicalSessionID root)
      root.projectID wasActive) t fun _ _ => True := by
    intro wasActive
    refine .get_bind ?_
    split
    · exact sheds_topologyState.bind fun _ _ _ _ =>
        sheds_persistTopologyInteraction.bind fun _ _ _ _ => sheds_keepSelection wasActive
    · exact sheds_selectReplacement root.projectID wasActive
  exact (hsettle _).bind fun _ _ _ _ => sheds_topologyLocked

theorem sheds_watchPaneExit (sessionID : String) (diagnostic : Option String) :
    Leads Sheds (watchPaneExit env sessionID diagnostic) o fun _ _ => True := by
  refine requireSession_bind fun session _ _ => .require_bind fun _ => ?_
  refine sheds_closeAttachment.bestEffort.bind fun _ _ _ _ => ?_
  refine (sheds_modifySession (exited diagnostic) fun _ => rfl).bind fun _ _ _ _ => ?_
  refine (sheds_of_records leads_markLogicalSessionDead).attempt.bind fun err _ _ _ => ?_
  cases err with
  | none => exact .of_pure trivial
  | some err =>
    exact sheds_modifySession (fun session => { session with recoveryDiagnostic := err.message })
      fun _ => rfl

theorem sheds_backgroundWrite (paneID : String) (write : AttachmentWrite) :
    Leads Sheds (backgroundWrite env paneID write) o fun _ _ => True :=
  requirePane_bind fun _ _ _ => .require_bind fun _ =>
    sheds_of_records (leads_attachmentWrites [write])

end AgentCockpit.Mux
