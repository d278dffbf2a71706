import AgentCockpit.Core.Exits
import AgentCockpit.Mux.Operations.ClientSteps

/-!
# Interaction state as clients see it

A snapshot shows the interaction state of a logical session reconciled with its panes, so two
daemons show the same when their reconciled states agree. Recording the interaction state
changes nothing of that, and it succeeds exactly when the catalog takes the row of each window
and, while the focus is on the session, the selection.

## Main results

* `persistTopologyInteraction_isOk_iff` — **when recording the interaction state succeeds**
-/

namespace AgentCockpit.Mux

open AgentCockpit.Core

variable {env : Env} {o o' o'' : Operations} {logicalID context : String}

/-! ### Memory -/

/-- What a daemon holds in memory, apart from the record of its calls. -/
def Operations.memory (operations : Operations) : Operations :=
  { operations with store := {}, history := {}, storeCalls := 0, paneCalls := [] }

/-- Only the databases and the record of calls change. -/
def SameMemory (o o' : Operations) : Prop := o'.memory = o.memory

instance : Std.Refl SameMemory := ⟨fun _ => rfl⟩

instance : IsTrans Operations SameMemory := ⟨fun _ _ _ h h' => Eq.trans h' h⟩

/-- What is read off the memory does not change. -/
theorem SameMemory.read {α : Type} (h : SameMemory o o') {field : Operations → α}
    (hfield : ∀ operations, field operations.memory = field operations) : field o' = field o := by
  rw [← hfield o', ← hfield o]
  exact congrArg field h

theorem SameMemory.sessions (h : SameMemory o o') : o'.sessions = o.sessions :=
  h.read fun _ => rfl

theorem SameMemory.persistencePath (h : SameMemory o o') :
    o'.persistencePath = o.persistencePath :=
  h.read fun _ => rfl

section Memory

variable {session : ManagedSession} {paneID : String}

theorem memory_storeCall {call : Store → Except String Store} :
    Leads SameMemory (storeCall env context call) o fun _ _ => True :=
  (leads_storeCall rfl fun _ _ => rfl).mono fun _ _ _ => trivial

theorem memory_historyCall {call : HistoryStore → Except String HistoryStore} :
    Leads SameMemory (historyCall env context call) o fun _ _ => True :=
  (leads_historyCall rfl fun _ _ => rfl).mono fun _ _ _ => trivial

theorem memory_mirrorLegacy {call : Store → Except String Store} :
    Leads SameMemory (mirrorLegacy paneID (storeCall env context call)) o fun _ _ => True := by
  unfold mirrorLegacy
  split
  · exact memory_storeCall
  · exact .of_pure trivial

theorem memory_attachmentWrite (write : AttachmentWrite) :
    Leads SameMemory (attachmentWrite env paneID write) o fun _ _ => True := by
  cases write with
  | keyframe keyframe =>
    rw [attachmentWrite]
    exact memory_mirrorLegacy.bind fun _ _ _ _ => memory_storeCall
  | tail chunks =>
    rw [attachmentWrite]
    exact memory_mirrorLegacy.bind fun _ _ _ _ => memory_storeCall
  | archive firstLine lastLine data =>
    rw [attachmentWrite]
    exact memory_historyCall

theorem memory_callPane {α : Type} {action : PaneAction} {outcome : Except String α} :
    Leads SameMemory (callPane env paneID action outcome context) o fun _ _ => outcome.isOk := by
  refine .modify_bind rfl ?_
  have hwrites : ∀ t, Leads SameMemory (attachmentWrites env paneID (env.writes paneID action)) t
      fun _ _ => True := fun t =>
    leads_whenPersistent (.forM fun write _ _ _ => .bestEffort (memory_attachmentWrite write))
  refine (hwrites _).bind fun _ _ _ _ => Leads.of_orRaise.mono fun value _ h => ?_
  rw [h.1]
  rfl

theorem memory_newSessionAttachment :
    Leads SameMemory (newSessionAttachment env session) o fun _ _ => True :=
  leads_startAttachment (fun _ => memory_storeCall) (fun _ _ => memory_attachmentWrite _)
    fun _ => memory_historyCall

theorem memory_persistActiveLogicalSession :
    Leads SameMemory (persistActiveLogicalSession env logicalID) o fun _ _ => True :=
  leads_recordActive (fun _ => memory_storeCall) fun _ _ => memory_storeCall

theorem memory_destroyPersistedPane :
    Leads SameMemory (destroyPersistedPane env session) o fun _ _ => True :=
  leads_whenPersistent <| memory_storeCall.bind fun _ _ _ _ =>
    memory_historyCall.bind fun _ _ _ _ => memory_historyCall.bind fun _ _ _ _ => memory_storeCall

theorem memory_persistWindow {state : TopologyState} {placed : String × ℕ} :
    Leads SameMemory (persistWindow env logicalID state placed) o fun _ _ => True :=
  .require_bind fun _ => memory_storeCall

end Memory

/-! ### What clients see -/

/-- The interaction state of a logical session, reconciled with its panes. -/
def Operations.shown (operations : Operations) (logicalID : String) : TopologyState :=
  normalizeState operations.sessions logicalID (operations.topologyState logicalID)

/-- Clients see the same selections and the same interaction state. -/
structure SameInteraction (o o' : Operations) : Prop where
  selected : ∀ projectID, o'.activeLogical projectID = o.activeLogical projectID
  shown : ∀ logicalID, o'.shown logicalID = o.shown logicalID

/-- The interaction state can be reconciled: the panes have ids and the trees are proper. -/
structure Reconcilable (o : Operations) : Prop where
  paneID_ne : ∀ session ∈ o.sessions, session.paneID ≠ ""
  layouts : ∀ logicalID, (o.topologyState logicalID).LayoutsProper

theorem Consistent.reconcilable (h : Consistent o) : Reconcilable o :=
  ⟨fun _ => h.paneID_ne, h.layouts⟩

/-- Interaction state may be reconciled; nothing that is shown changes. -/
structure Unseen (o o' : Operations) : Prop where
  sessions : o'.sessions = o.sessions
  session : o'.session = o.session
  activeLogicalByProject : o'.activeLogicalByProject = o.activeLogicalByProject
  persistencePath : o'.persistencePath = o.persistencePath
  shown : ∀ logicalID, o'.shown logicalID = o.shown logicalID
  reconcilable : Reconcilable o → Reconcilable o'

namespace SameInteraction

theorem refl (o : Operations) : SameInteraction o o := ⟨fun _ => rfl, fun _ => rfl⟩

theorem symm (h : SameInteraction o o') : SameInteraction o' o :=
  ⟨fun projectID => (h.selected projectID).symm, fun logicalID => (h.shown logicalID).symm⟩

theorem trans (h : SameInteraction o o') (h' : SameInteraction o' o'') : SameInteraction o o'' :=
  ⟨fun projectID => (h'.selected projectID).trans (h.selected projectID),
    fun logicalID => (h'.shown logicalID).trans (h.shown logicalID)⟩

end SameInteraction

namespace Unseen

theorem refl (o : Operations) : Unseen o o := ⟨rfl, rfl, rfl, rfl, fun _ => rfl, id⟩

theorem trans (h : Unseen o o') (h' : Unseen o' o'') : Unseen o o'' where
  sessions := h'.sessions.trans h.sessions
  session := h'.session.trans h.session
  activeLogicalByProject := h'.activeLogicalByProject.trans h.activeLogicalByProject
  persistencePath := h'.persistencePath.trans h.persistencePath
  shown logicalID := (h'.shown logicalID).trans (h.shown logicalID)
  reconcilable := h'.reconcilable ∘ h.reconcilable

theorem sameInteraction (h : Unseen o o') : SameInteraction o o' := by
  refine ⟨fun projectID => ?_, h.shown⟩
  rw [Operations.activeLogical, Operations.activeLogical, h.activeLogicalByProject]

theorem of_memory (h : SameMemory o o') : Unseen o o' := by
  have htopology : o'.topologyState = o.topologyState := h.read fun _ => rfl
  refine ⟨h.sessions, h.read fun _ => rfl, h.read fun _ => rfl, h.persistencePath,
    fun logicalID => ?_, fun hreconcilable => ⟨?_, ?_⟩⟩
  · rw [Operations.shown, Operations.shown, h.sessions, htopology]
  · rw [h.sessions]
    exact hreconcilable.paneID_ne
  · rw [htopology]
    exact hreconcilable.layouts

end Unseen

instance : Std.Refl Unseen := ⟨.refl⟩

instance : IsTrans Operations Unseen := ⟨fun _ _ _ => .trans⟩

/-! ### Reconciled states -/

/-- A reconciled state is settled. -/
theorem Reconcilable.settled_shown (h : Reconcilable o) (logicalID : String) :
    (o.shown logicalID).Settled o.sessions logicalID :=
  settled_normalizeState (h.layouts logicalID) h.paneID_ne

/-- What is shown after the state of one logical session was set to a settled one. -/
theorem shown_setAt {state : TopologyState} (h : state.Settled o.sessions logicalID)
    (other : String) :
    ({ o with topologyState := setAt o.topologyState logicalID state } : Operations).shown other =
      setAt o.shown logicalID state other := by
  by_cases hother : other = logicalID
  · rw [hother, setAt_self, Operations.shown]
    change normalizeState o.sessions logicalID (setAt o.topologyState logicalID state logicalID) = _
    rw [setAt_self, h.normalizeState_eq]
  · rw [setAt_of_ne _ _ hother, Operations.shown, Operations.shown]
    change normalizeState o.sessions other (setAt o.topologyState logicalID state other) = _
    rw [setAt_of_ne _ _ hother]

/-- Reconciling a logical session changes nothing that is shown. -/
theorem Reconcilable.unseen_normalizeTopology (h : Reconcilable o) (logicalID : String) :
    Unseen o (o.normalizeTopology logicalID) := by
  have hsettled := h.settled_shown logicalID
  refine ⟨rfl, rfl, rfl, rfl, fun other => ?_, fun _ => ⟨h.paneID_ne, fun other => ?_⟩⟩
  · change ({ o with topologyState := setAt o.topologyState logicalID (o.shown logicalID) } :
      Operations).shown other = _
    rw [shown_setAt hsettled]
    by_cases hother : other = logicalID
    · rw [hother, setAt_self]
    · rw [setAt_of_ne _ _ hother]
  · change (setAt o.topologyState logicalID (o.shown logicalID) other).LayoutsProper
    by_cases hother : other = logicalID
    · rw [hother, setAt_self]
      exact hsettled.layoutsProper
    · rw [setAt_of_ne _ _ hother]
      exact h.layouts other

theorem Reconcilable.unseen_topologyState (h : Reconcilable o) :
    Leads Unseen (topologyState logicalID) o fun state t =>
      state = o.shown logicalID ∧ t = o.normalizeTopology logicalID := by
  refine .modify_bind (h.unseen_normalizeTopology logicalID) (.get_bind (.of_pure ⟨?_, rfl⟩))
  exact setAt_self _ _ _

/-! ### Calls that succeed -/

/-- None of a row of database calls is failed. -/
def Env.Serves (env : Env) (first count : ℕ) : Prop :=
  ∀ n < count, env.fault (first + n) = none

theorem Env.serves_add {first count more : ℕ} : env.Serves first (count + more) ↔
    env.Serves first count ∧ env.Serves (first + count) more := by
  constructor
  · intro h
    refine ⟨fun n hn => h n (by omega), fun n hn => ?_⟩
    rw [Nat.add_assoc]
    exact h (count + n) (by omega)
  · rintro ⟨hfirst, hmore⟩ n hn
    by_cases hbefore : n < count
    · exact hfirst n hbefore
    · have hrest := hmore (n - count) (by omega)
      rwa [show first + count + (n - count) = first + n by omega] at hrest

theorem Env.serves_one {first : ℕ} : env.Serves first 1 ↔ env.fault first = none := by
  constructor
  · exact fun h => h 0 Nat.one_pos
  · intro h n hn
    obtain rfl : n = 0 := by omega
    exact h

/-- Some calls to the databases were made; the catalog has the rows of the same sessions. -/
structure Advanced (calls : ℕ) (o o' : Operations) : Prop where
  memory : SameMemory o o'
  storeCalls : o'.storeCalls = o.storeCalls + calls
  hasSession : ∀ id, o'.store.hasSession id = o.store.hasSession id

theorem Advanced.trans {calls more : ℕ} (h : Advanced calls o o') (h' : Advanced more o' o'') :
    Advanced (calls + more) o o'' where
  memory := Eq.trans h'.memory h.memory
  storeCalls := by rw [h'.storeCalls, h.storeCalls, Nat.add_assoc]
  hasSession id := (h'.hasSession id).trans (h.hasSession id)

/-- One call to `state.db`, with its outcome. -/
theorem exec_storeCall {call : Store → Except String Store} :
    exec (storeCall env context call) o =
      match orFail (env.fault o.storeCalls) (call o.store) with
      | .ok store => (.ok (), { o.tick with store })
      | .error err => (.error (.failed (context ++ err)), o.tick) := by
  rw [storeCall, exec_get_bind, exec_set_bind, exec_bind]
  cases orFail (env.fault o.storeCalls) (call o.store) <;> rfl

/-- A call that is not failed and that the database takes. -/
theorem exec_storeCall_of_ok (context : String) {call : Store → Except String Store}
    {store : Store} (hfault : env.fault o.storeCalls = none) (hcall : call o.store = .ok store)
    (hsame : ∀ id, store.hasSession id = o.store.hasSession id) :
    ∃ t, exec (storeCall env context call) o = (.ok (), t) ∧ Advanced 1 o t := by
  refine ⟨{ o.tick with store }, ?_, rfl, rfl, hsame⟩
  rw [exec_storeCall, hfault, hcall]
  rfl

theorem exec_openStore (context : String) (hfault : env.fault o.storeCalls = none) :
    ∃ t, exec (openStore env context) o = (.ok (), t) ∧ Advanced 1 o t :=
  exec_storeCall_of_ok context hfault rfl fun _ => rfl

/-- A call that succeeded was not failed. -/
theorem fault_of_storeCall {call : Store → Except String Store} {a : Unit}
    (h : exec (storeCall env context call) o = (.ok a, o')) : env.fault o.storeCalls = none := by
  rw [exec_storeCall] at h
  cases hfault : env.fault o.storeCalls with
  | none => rfl
  | some err =>
    rw [hfault] at h
    exact nomatch h

/-! ### Recording the interaction state -/

section Windows

variable {state : TopologyState}

/-- The catalog takes the row of a window. -/
theorem exec_persistWindow {placed : String × ℕ} (hlogical : logicalID ≠ "")
    (hwindow : placed.1 ≠ "") (hfault : env.fault o.storeCalls = none)
    (hsession : o.store.hasSession logicalID)
    (hencodable : (state.layoutByWindow placed.1).encodable) :
    ∃ t, exec (persistWindow env logicalID state placed) o = (.ok (), t) ∧ Advanced 1 o t := by
  have hvalid : ¬ (placed.1 = "" ∨ logicalID = "" ∨ placed.1 = "") := by tauto
  rw [persistWindow, exec_require_bind, if_pos hencodable]
  exact exec_storeCall_of_ok _ hfault ((if_neg hvalid).trans (if_pos hsession)) fun _ => rfl

theorem of_persistWindow {placed : String × ℕ} {a : Unit}
    (h : exec (persistWindow env logicalID state placed) o = (.ok a, o')) :
    env.fault o.storeCalls = none ∧ o.store.hasSession logicalID := by
  obtain ⟨-, hcall⟩ := exec_require_bind_ok h
  refine ⟨fault_of_storeCall hcall, ?_⟩
  obtain ⟨store, hstore, -⟩ := exec_storeCall_ok hcall
  rw [Store.upsertWindow] at hstore
  split at hstore
  · exact nomatch hstore
  · split at hstore
    · assumption
    · exact nomatch hstore

/-- The catalog takes the rows of all windows. -/
theorem exec_persistWindows {placed : List (String × ℕ)} (hlogical : logicalID ≠ "")
    (hwindows : ∀ window ∈ placed, window.1 ≠ "")
    (hserves : env.Serves o.storeCalls placed.length) (hsession : o.store.hasSession logicalID)
    (hencodable : ∀ window ∈ placed, (state.layoutByWindow window.1).encodable) :
    ∃ t, exec (placed.forM (persistWindow env logicalID state)) o = (.ok (), t) ∧
      Advanced placed.length o t := by
  induction placed generalizing o with
  | nil => exact ⟨o, rfl, rfl, rfl, fun _ => rfl⟩
  | cons window rest ih =>
    rw [List.forall_mem_cons] at hwindows hencodable
    rw [List.length_cons, Nat.add_comm, Env.serves_add, Env.serves_one] at hserves
    obtain ⟨t, hfirst, hadvanced⟩ :=
      exec_persistWindow hlogical hwindows.1 hserves.1 hsession hencodable.1
    obtain ⟨u, hrest, hadvanced'⟩ := ih (o := t) hwindows.2
      (by rw [hadvanced.storeCalls]; exact hserves.2)
      ((hadvanced.hasSession logicalID).trans hsession) hencodable.2
    refine ⟨u, ?_, ?_⟩
    · change exec (persistWindow env logicalID state window >>= fun _ =>
        rest.forM (persistWindow env logicalID state)) o = _
      rw [exec_bind, hfirst]
      exact hrest
    · rw [List.length_cons, Nat.add_comm]
      exact hadvanced.trans hadvanced'

theorem of_persistWindows {placed : List (String × ℕ)} {a : Unit}
    (h : exec (placed.forM (persistWindow env logicalID state)) o = (.ok a, o')) :
    env.Serves o.storeCalls placed.length ∧
      (placed ≠ [] → o.store.hasSession logicalID) := by
  induction placed generalizing o with
  | nil => exact ⟨nofun, fun hne => absurd rfl hne⟩
  | cons window rest ih =>
    obtain ⟨_, t, hfirst, hrest⟩ := exec_bind_ok (f := fun _ =>
      rest.forM (persistWindow env logicalID state)) h
    obtain ⟨hfault, hsession⟩ := of_persistWindow hfirst
    obtain ⟨-, hcall⟩ := exec_require_bind_ok hfirst
    obtain ⟨_, -, rfl⟩ := exec_storeCall_ok hcall
    obtain ⟨hserves, -⟩ := ih hrest
    refine ⟨?_, fun _ => hsession⟩
    rw [List.length_cons, Nat.add_comm, Env.serves_add, Env.serves_one]
    exact ⟨hfault, hserves⟩

end Windows

/-- The number of calls that record the selection: none while the focus is elsewhere. -/
def Operations.selectionCalls (o : Operations) (logicalID : String) : ℕ :=
  match o.session with
  | some session => if logicalSessionID session = logicalID then 2 else 0
  | none => 0

/-- The selection is recorded while the focus is on the session. -/
theorem exec_persistActiveLogicalSession (hpath : o.persistencePath ≠ "") :
    exec (persistActiveLogicalSession env logicalID) o =
      match o.session with
      | some session =>
        if logicalSessionID session = logicalID then
          exec (do
            openStore env "open mux active-session catalog: "
            storeCall env "persist mux active logical session: "
              (·.setActiveLogicalSession session.projectID logicalID)) o
        else (.ok (), o)
      | none => (.ok (), o) := by
  rw [persistActiveLogicalSession, exec_whenPersistent, if_neg hpath, exec_get_bind]
  cases o.session with
  | none => rfl
  | some session =>
    by_cases hfocus : logicalSessionID session = logicalID
    · simp only [hfocus, ne_eq, not_true_eq_false, if_false, if_true]
    · simp only [hfocus, ne_eq, not_false_eq_true, if_true, if_false]
      rfl

theorem persistActiveLogicalSession_isOk_iff (hpath : o.persistencePath ≠ "")
    (hsession : o.store.hasSession logicalID) :
    (exec (persistActiveLogicalSession env logicalID) o).1.isOk ↔
      env.Serves o.storeCalls (o.selectionCalls logicalID) := by
  rw [exec_persistActiveLogicalSession hpath, Operations.selectionCalls]
  cases o.session with
  | none => exact iff_of_true rfl nofun
  | some session =>
    by_cases hfocus : logicalSessionID session = logicalID
    · simp only [hfocus, if_true]
      rw [show 2 = 1 + 1 from rfl, Env.serves_add, Env.serves_one, Env.serves_one, exec_isOk_iff]
      constructor
      · rintro ⟨_, _, hok⟩
        obtain ⟨_, t, hopen, hcall⟩ := exec_bind_ok hok
        obtain ⟨store, -, rfl⟩ := exec_storeCall_ok hopen
        exact ⟨fault_of_storeCall hopen, fault_of_storeCall hcall⟩
      · rintro ⟨hopen, hcall⟩
        obtain ⟨t, hexec, hadvanced⟩ := exec_openStore "open mux active-session catalog: " hopen
        have hsession := (hadvanced.hasSession logicalID).trans hsession
        rw [← hadvanced.storeCalls] at hcall
        have hset : t.store.setActiveLogicalSession session.projectID logicalID = .ok _ :=
          if_pos hsession
        obtain ⟨u, hexec', -⟩ : ∃ u, exec (storeCall env "persist mux active logical session: "
            (·.setActiveLogicalSession session.projectID logicalID)) t = (.ok (), u) ∧
            Advanced 1 t u :=
          exec_storeCall_of_ok _ hcall hset fun _ => rfl
        rw [exec_bind, hexec]
        exact ⟨_, u, hexec'⟩
    · simp only [hfocus, if_false]
      exact iff_of_true rfl nofun

/-- The catalog takes the interaction state of a logical session: none of the calls is failed,
and it still has the row of the session. A daemon without a home has no catalog. -/
def Operations.Recordable (o : Operations) (env : Env) (logicalID : String) : Prop :=
  o.persistencePath ≠ "" →
    env.Serves o.storeCalls
        (1 + (o.shown logicalID).windowOrder.length + o.selectionCalls logicalID) ∧
      o.store.hasSession logicalID

/-- The text of a proper tree can be written: its ratios are in range. -/
theorem TopologyLayoutNode.Proper.encodable {layout : TopologyLayoutNode} (h : layout.Proper) :
    layout.encodable := by
  induction h with
  | leaf paneID hpane => rfl
  | split direction ratio first second hdirection hratio hfirst hsecond ihfirst ihsecond =>
    cases ratio with
    | finite value =>
      rw [TopologyLayoutNode.split, TopologyLayoutNode.encodable, ihfirst, ihsecond]
      rfl
    | nan => exact hratio.elim
    | inf negative => exact hratio.elim

theorem exec_topologyState_bind {α : Type} {f : TopologyState → OpsM α} :
    exec (topologyState logicalID >>= f) o =
      exec (f (o.shown logicalID)) (o.normalizeTopology logicalID) := by
  change exec (f ((o.normalizeTopology logicalID).topologyState logicalID)) _ = _
  rw [show (o.normalizeTopology logicalID).topologyState logicalID = o.shown logicalID from
    setAt_self _ _ _]

/-- **Recording the interaction state** changes nothing that is shown. -/
theorem Reconcilable.unseen_persistTopologyInteraction (h : Reconcilable o) :
    Leads Unseen (persistTopologyInteraction env logicalID) o fun _ _ => True := by
  have hmemory : ∀ {α : Type} {x : OpsM α} {t : Operations} {post : α → Operations → Prop},
      Leads SameMemory x t post → Leads Unseen x t post := fun hx => hx.weaken fun _ _ => .of_memory
  refine leads_whenPersistent (h.unseen_topologyState.bind fun state _ _ _ => ?_)
  refine (hmemory memory_storeCall).bind fun _ _ _ _ => ?_
  refine .bind (.forM fun _ _ _ _ => hmemory memory_persistWindow) fun _ _ _ _ => ?_
  exact hmemory memory_persistActiveLogicalSession

/-- **When recording the interaction state succeeds:** exactly when the catalog takes it. -/
theorem persistTopologyInteraction_isOk_iff (h : Consistent o) {session : ManagedSession}
    (hmem : session ∈ o.sessions) (hlogical : logicalSessionID session = logicalID) :
    (exec (persistTopologyInteraction env logicalID) o).1.isOk ↔ o.Recordable env logicalID := by
  rw [persistTopologyInteraction, exec_whenPersistent, Operations.Recordable]
  by_cases hpath : o.persistencePath = ""
  · exact iff_of_true (by rw [if_pos hpath]; rfl) fun hpersistent => absurd hpath hpersistent
  rw [if_neg hpath, imp_iff_right hpath]
  have hsettled := h.reconcilable.settled_shown logicalID
  have hne : logicalID ≠ "" := by
    rw [← hlogical, h.logicalSessionID_eq hmem]
    exact h.logicalSessionID_ne hmem
  -- a logical session with a pane has a window, and every window has a name
  have horder : (o.shown logicalID).windowOrder ≠ [] := by
    have hwindow := (hsettled.mem_order (windowKey session)).mpr
      (mem_windowKeys.mpr ⟨session, hmem, hlogical, rfl⟩)
    exact List.ne_nil_of_mem hwindow
  have hwindows : ∀ windowID ∈ (o.shown logicalID).windowOrder, windowID ≠ "" := by
    intro windowID hordered
    obtain ⟨other, hother, -, rfl⟩ := mem_windowKeys.mp ((hsettled.mem_order _).mp hordered)
    rw [h.windowKey_eq hother]
    exact h.windowID_ne hother
  rw [exec_topologyState_bind, Env.serves_add, Env.serves_add, Env.serves_one]
  have hencodable : ∀ windowID ∈ (o.shown logicalID).windowOrder,
      ((o.shown logicalID).layoutByWindow windowID).encodable :=
    fun windowID hordered => (hsettled.layout windowID hordered).1.encodable
  generalize o.shown logicalID = state at horder hwindows hencodable ⊢
  have hplaced : ∀ window ∈ state.windowOrder.zipIdx, window.1 ≠ "" :=
    fun window hwindow => hwindows window.1 (List.fst_mem_of_mem_zipIdx hwindow)
  have hlength : state.windowOrder.zipIdx.length = state.windowOrder.length :=
    List.length_zipIdx
  have hencodable : ∀ window ∈ state.windowOrder.zipIdx,
      (state.layoutByWindow window.1).encodable :=
    fun window hwindow => hencodable window.1 (List.fst_mem_of_mem_zipIdx hwindow)
  -- the calls after the windows are those that record the selection
  have hselection : ∀ t, Advanced (1 + state.windowOrder.length) (o.normalizeTopology logicalID) t →
      o.store.hasSession logicalID →
      ((exec (persistActiveLogicalSession env logicalID) t).1.isOk ↔
        env.Serves (o.storeCalls + (1 + state.windowOrder.length))
          (o.selectionCalls logicalID)) := by
    intro t ht hsession
    have hfocus : t.session = o.session := ht.memory.read fun _ => rfl
    have hcalls : t.selectionCalls logicalID = o.selectionCalls logicalID := by
      rw [Operations.selectionCalls, Operations.selectionCalls, hfocus]
    rw [persistActiveLogicalSession_isOk_iff (by rwa [ht.memory.persistencePath])
      ((ht.hasSession logicalID).trans hsession), hcalls, ht.storeCalls]
    rfl
  rw [exec_isOk_iff]
  constructor
  · rintro ⟨_, u, hok⟩
    obtain ⟨_, t, hopen, hrest⟩ := exec_bind_ok hok
    have hfault := fault_of_storeCall hopen
    obtain ⟨t', hopen', hadvanced⟩ := exec_openStore "open mux topology catalog: " hfault
    obtain rfl : t' = t := congrArg Prod.snd (hopen'.symm.trans hopen)
    obtain ⟨_, v, hrows, hactive⟩ := exec_bind_ok hrest
    obtain ⟨hserves, hsession⟩ := of_persistWindows hrows
    have hsession := hsession fun hnil => horder (by simpa using hnil)
    obtain ⟨v', hrows', hadvanced'⟩ := exec_persistWindows hne hplaced hserves hsession hencodable
    obtain rfl : v' = v := congrArg Prod.snd (hrows'.symm.trans hrows)
    rw [hlength, hadvanced.storeCalls] at hserves
    rw [hadvanced.hasSession] at hsession
    rw [hlength] at hadvanced'
    exact ⟨⟨⟨hfault, hserves⟩, (hselection _ (hadvanced.trans hadvanced') hsession).mp
      (exec_isOk_iff.mpr ⟨_, _, hactive⟩)⟩, hsession⟩
  · rintro ⟨⟨⟨hopen, hserves⟩, hcalls⟩, hsession⟩
    obtain ⟨t, hexec, hadvanced⟩ := exec_openStore (o := o.normalizeTopology logicalID)
      "open mux topology catalog: " hopen
    have hserves' : env.Serves t.storeCalls state.windowOrder.zipIdx.length := by
      rw [hlength, hadvanced.storeCalls]
      exact hserves
    obtain ⟨v, hrows, hadvanced'⟩ := exec_persistWindows hne hplaced hserves'
      ((hadvanced.hasSession logicalID).trans hsession) hencodable
    rw [hlength] at hadvanced'
    obtain ⟨_, u, hactive⟩ := exec_isOk_iff.mp
      ((hselection _ (hadvanced.trans hadvanced') hsession).mpr hcalls)
    rw [exec_bind, hexec]
    refine ⟨(), u, ?_⟩
    change exec (state.windowOrder.zipIdx.forM (persistWindow env logicalID state) >>= fun _ =>
      persistActiveLogicalSession env logicalID) t = _
    rw [exec_bind, hrows]
    exact hactive

end AgentCockpit.Mux
