import AgentCockpit.Mux.Operations.Creation

/-!
# Creations that fail

A pane is registered, and gets the focus, before the selection is recorded, and a request that makes
it from another pane records its place and its pin still later. Nothing takes the pane back when one
of these calls to the catalog fails. What fails up to the registration leaves nothing.

## Main results

* `create_failure_iff` — **creations fail without an effect exactly without a catalog**
-/

namespace AgentCockpit.Mux

open AgentCockpit.Core

variable {env : Env} {o o' t : Operations} {session : ManagedSession} {context : String}
variable {input : CreateSessionRequest} {logicalID windowID : String} {limit : ℕ}

/-! ### Effects -/

/-- Every registered pane with a process has exactly one watcher. -/
def Watched (o : Operations) (watchers : List String) : Prop :=
  ∀ session ∈ o.sessions, session.pane.isSome → watchers.count session.id = 1

/-- The watchers that a request starts: one, once `createLocked` returns a pane. -/
def Operations.watchers (o : Operations) (env : Env) (request : Request) : List String :=
  match o.creation env request with
  | none => []
  | some creation =>
    match (exec (createLocked env creation.input creation.logicalID creation.windowID) o).1 with
    | .ok session => [session.id]
    | .error _ => []

/-- A request that failed has no lasting effect: the panes are as they were, clients see what they
saw, a process that it started was told to end, and the panes are watched as they were. -/
structure Unaffected (env : Env) (request : Request) (o o' : Operations) : Prop where
  sessions : o'.sessions = o.sessions
  focus : o'.session = o.session
  interaction : SameInteraction o o'
  ended : ∀ creation, o.creation env request = some creation → creation.input.command ≠ "" →
    (env.startPane creation.input).isOk → Terminated o o' (paneName (o.nextSession + 1))
  watched : ∀ watchers, Watched o watchers → Watched o' (watchers ++ o.watchers env request)

/-- A request passes its checks, and asks for a pane with a command. -/
def Operations.Accepts (o : Operations) (request : Request) : Prop :=
  ∃ env creation, o.creation env request = some creation ∧ creation.input.command ≠ ""

/-! ### Calls that are served -/

/-- Some calls to the databases were made, and the catalog is now the given one. -/
structure Called (calls : ℕ) (store : Store) (o o' : Operations) : Prop where
  storeCalls : o'.storeCalls = o.storeCalls + calls
  persistencePath : o'.persistencePath = o.persistencePath
  store : o'.store = store

theorem Called.trans {calls more : ℕ} {store store' : Store} (h : Called calls store o o')
    (h' : Called more store' o' t) : Called (calls + more) store' o t where
  storeCalls := by rw [h'.storeCalls, h.storeCalls, Nat.add_assoc]
  persistencePath := h'.persistencePath.trans h.persistencePath
  store := h'.store

section Served

variable {failed : Operations → Prop} {calls : ℕ} {store : Store}

/-- A call that is not failed and that the catalog takes. -/
theorem ends_storeCall {call : Store → Except String Store}
    (hfault : env.fault o.storeCalls = none) (hcall : call o.store = .ok store) :
    Ends (storeCall env context call) o (fun _ => Called 1 store o) failed := by
  unfold Ends
  rw [exec_storeCall, hfault, hcall]
  refine ⟨fun _ u hexec => ?_, fun _ _ hexec => nomatch hexec⟩
  obtain ⟨-, rfl⟩ := Prod.mk.inj hexec
  exact ⟨rfl, rfl, rfl⟩

theorem ends_openHistory (hfault : env.fault o.storeCalls = none) :
    Ends (openHistory env context) o (fun _ => Called 1 o.store o) failed := by
  unfold Ends openHistory historyCall
  rw [exec_get_bind, exec_set_bind, hfault]
  refine ⟨fun _ u hexec => ?_, fun _ _ hexec => nomatch hexec⟩
  obtain ⟨-, rfl⟩ := Prod.mk.inj hexec
  exact ⟨rfl, rfl, rfl⟩

theorem ends_windowPlacementIndex :
    Ends (windowPlacementIndex session) o (fun _ => Called 0 o.store o) failed := by
  have hstate : Ends (topologyState (logicalSessionID session)) o (fun _ => Called 0 o.store o)
      failed := .modify_bind (.get_bind (.of_pure ⟨rfl, rfl, rfl⟩))
  exact hstate.bind fun _ _ h => .of_pure h

theorem ends_whenPersistent {x : OpsM Unit} {post : Unit → Operations → Prop}
    (hpath : o.persistencePath ≠ "") (h : Ends x o post failed) :
    Ends (whenPersistent x) o post failed := by
  unfold Ends
  rw [exec_whenPersistent, if_neg hpath]
  exact h

/-- The databases are served up to a limit, and what the catalog keeps of a pane is named. -/
structure Recorded (env : Env) (limit : ℕ) (session : ManagedSession) : Prop where
  serves : ∀ n < limit, env.fault n = none
  logicalSessionID : session.logicalSessionID ≠ ""
  projectID : session.projectID ≠ ""
  windowID : session.windowID ≠ ""
  paneID : session.paneID ≠ ""

namespace Recorded

/-- Another call is made after some that were. -/
theorem fault (h : Recorded env limit session) (hcalled : Called calls store o t)
    (hlimit : o.storeCalls + calls < limit) : env.fault t.storeCalls = none := by
  rw [hcalled.storeCalls]
  exact h.serves _ hlimit

/-- The catalog takes the row of the session. -/
theorem upsertSession (h : Recorded env limit session) (store : Store) :
    ∃ store', store.upsertSession (sessionRecord env session) = .ok store' ∧
      store'.hasSession session.logicalSessionID := by
  have hname : (sessionRecord env session).name ≠ "" := by
    change (if session.key = "" then session.logicalSessionID else session.key) ≠ ""
    split
    · exact h.logicalSessionID
    · assumption
  have hvalid : ¬ ((sessionRecord env session).id = "" ∨ (sessionRecord env session).name = "" ∨
      (sessionRecord env session).projectID = "" ∨
      ((sessionRecord env session).kind ≠ "local" ∧ (sessionRecord env session).kind ≠ "remote") ∨
      ((sessionRecord env session).status ≠ "live" ∧
        (sessionRecord env session).status ≠ "dead")) := by
    rintro (hid | hempty | hproject | ⟨hkind, -⟩ | ⟨hstatus, -⟩)
    · exact h.logicalSessionID hid
    · exact hname hempty
    · exact h.projectID hproject
    · exact hkind rfl
    · exact hstatus rfl
  obtain ⟨store', hstore⟩ : ∃ store',
      store.upsertSession (sessionRecord env session) = .ok store' := ⟨_, if_neg hvalid⟩
  exact ⟨store', hstore, (Store.hasSession_upsertSession hstore _).mpr (.inr rfl)⟩

end Recorded

/-- A new row is found. -/
theorem hasWindow_upsertBy (record : WindowRecord) :
    { store with windows := upsertBy (·.id) (fun _ new => new) record store.windows }.hasWindow
      record.id := by
  simp only [Store.hasWindow, List.any_eq_true, decide_eq_true_eq]
  exact (Store.exists_upsertBy (fun _ => rfl) record.id).mpr (.inr rfl)

theorem hasPane_upsertBy (record : PaneRecord) :
    { store with panes := upsertBy (·.id) (fun _ new => new) record store.panes }.hasPane
      record.id := by
  simp only [Store.hasPane, List.any_eq_true, decide_eq_true_eq]
  exact (Store.exists_upsertBy (fun _ => rfl) record.id).mpr (.inr rfl)

/-- A pane is recorded with four calls. -/
theorem ends_persistTopology_served (h : Recorded env limit session)
    (hpath : o.persistencePath ≠ "") (hlimit : o.storeCalls + 4 ≤ limit) :
    Ends (persistTopology env session) o (fun _ u => ∃ store, Called 4 store o u ∧
      store.hasPane session.paneID) failed := by
  have hfault : ∀ {calls : ℕ} {store : Store} {u : Operations}, Called calls store o u →
      calls < 4 → env.fault u.storeCalls = none := fun hu hcalls => h.fault hu (by omega)
  have hstart : Called 0 o.store o o := ⟨rfl, rfl, rfl⟩
  refine ends_whenPersistent hpath ?_
  refine (ends_storeCall (hfault hstart (by omega)) rfl).bind fun _ u hu => ?_
  -- the row of the session
  obtain ⟨store, hstore, hsession⟩ := h.upsertSession u.store
  refine (ends_storeCall (hfault hu (by omega)) hstore).bind fun _ v hv => ?_
  refine ends_windowPlacementIndex.bind fun index w hw => ?_
  have hcalled := (hu.trans hv).trans hw
  have hsession : w.store.hasSession session.logicalSessionID := by
    rw [hw.store, hv.store, hsession]
  -- the row of the window
  have hwindow : w.store.upsertWindow
      { id := session.windowID, sessionID := session.logicalSessionID, name := session.windowID
        index, layoutJSON := {} } = .ok _ :=
    (if_neg (by simp [h.windowID, h.logicalSessionID])).trans (if_pos hsession)
  refine (ends_storeCall (hfault hcalled (by omega)) hwindow).bind fun _ x hx => ?_
  have hcalled := hcalled.trans hx
  have hrows : x.store.hasWindow session.windowID ∧
      x.store.hasSession session.logicalSessionID := by
    rw [hx.store]
    exact ⟨hasWindow_upsertBy _, hsession⟩
  -- the row of the pane
  have hpane : x.store.upsertPane (paneRecord session) = .ok _ :=
    (if_neg (by simp [paneRecord, h.windowID, h.logicalSessionID, h.paneID])).trans (if_pos hrows)
  refine (ends_storeCall (hfault hcalled (by omega)) hpane).mono (fun _ y hy => ?_) fun _ => id
  exact ⟨_, hcalled.trans hy, hasPane_upsertBy (paneRecord session)⟩

/-- The calls that start the data path of a pane; the first pane has the legacy record too. -/
def attachmentCalls (paneID : String) : ℕ := if paneID = primaryPane then 4 else 3

/-- The data path of a pane is started. -/
theorem ends_newSessionAttachment_served {keyframe : Keyframe} (h : Recorded env limit session)
    (hstart : env.startAttachment = .ok (some keyframe)) (hkeyframe : keyframe.valid)
    (hpane : o.store.hasPane session.paneID) (hpath : o.persistencePath ≠ "")
    (hlimit : o.storeCalls + attachmentCalls session.paneID ≤ limit) :
    Ends (newSessionAttachment env session) o (fun _ u => ∃ store,
      Called (attachmentCalls session.paneID) store o u) failed := by
  unfold newSessionAttachment
  rw [hstart]
  refine .orRaise_bind (fun err herr => by cases herr) fun shadow hshadow => ?_
  obtain rfl := Except.ok.inj hshadow
  have hopened : Called 0 o.store o o := ⟨rfl, rfl, rfl⟩
  have hpositive : 3 ≤ attachmentCalls session.paneID := by
    unfold attachmentCalls
    split <;> omega
  -- the legacy record is kept for the first pane
  have hlegacy : ∀ t, Called 1 o.store o t → Ends (mirrorLegacy session.paneID
      (storeCall env "save mux recovery keyframe: " (·.saveKeyframe keyframe))) t (fun _ u =>
        ∃ store, Called (attachmentCalls session.paneID - 2) store o u ∧
          store.hasPane session.paneID) failed := by
    intro t ht
    unfold mirrorLegacy attachmentCalls
    by_cases hprimary : session.paneID = primaryPane
    · rw [if_pos hprimary, if_pos hprimary]
      have hsave : t.store.saveKeyframe keyframe = .ok _ := if_pos hkeyframe
      refine (ends_storeCall (h.fault ht (by omega)) hsave).mono (fun _ u hu => ?_) fun _ => id
      refine ⟨_, ht.trans hu, ?_⟩
      rw [ht.store]
      exact hpane
    · rw [if_neg hprimary, if_neg hprimary]
      exact .of_pure ⟨_, ht, hpane⟩
  suffices hopen : Ends (whenPersistent do
      openStore env "start mux shadow: "
      attachmentWrite env session.paneID (.keyframe keyframe)
      openHistory env "start mux shadow: ") o (fun _ u => ∃ store,
        Called (attachmentCalls session.paneID) store o u) failed by
    exact hopen.bind fun _ u hu => .of_pure hu
  refine ends_whenPersistent hpath ?_
  refine (ends_storeCall (h.fault hopened (by omega)) rfl).bind fun _ t ht => ?_
  rw [attachmentWrite, bind_assoc]
  refine (hlegacy t (hopened.trans ht)).bind fun _ u hkept => ?_
  obtain ⟨store, hu, hrow⟩ := hkept
  have hvalid : u.store.savePaneKeyframe session.paneID keyframe = .ok _ :=
    (if_neg (by simp [h.paneID, hkeyframe])).trans (if_pos (by rw [hu.store, hrow]))
  refine (ends_storeCall (h.fault hu (by omega)) hvalid).bind fun _ v hv => ?_
  refine (ends_openHistory (h.fault (hu.trans hv) (by omega))).mono (fun _ w hw => ?_) fun _ => id
  have hcalled := (hu.trans hv).trans hw
  rw [show attachmentCalls session.paneID - 2 + 1 + 1 = attachmentCalls session.paneID by omega]
    at hcalled
  exact ⟨_, hcalled⟩

/-- Calls to the databases are counted. -/
def CallsCounted (o o' : Operations) : Prop := o.storeCalls ≤ o'.storeCalls

instance : Std.Refl CallsCounted := ⟨fun _ => Nat.le_refl _⟩

instance : IsTrans Operations CallsCounted := ⟨fun _ _ _ => Nat.le_trans⟩

theorem counted_storeCall {call : Store → Except String Store} :
    Leads CallsCounted (storeCall env context call) o fun _ _ => True :=
  (leads_storeCall (Nat.le_succ _) fun _ _ => Nat.le_refl _).mono fun _ _ _ => trivial

theorem counted_persistActiveLogicalSession :
    Leads CallsCounted (persistActiveLogicalSession env logicalID) o fun _ _ => True :=
  leads_recordActive (fun _ => counted_storeCall) fun _ _ => counted_storeCall

theorem counted_persistTopologyInteraction :
    Leads CallsCounted (persistTopologyInteraction env logicalID) o fun _ _ => True := by
  have hstate : Leads CallsCounted (topologyState logicalID) o fun _ _ => True :=
    .modify_bind (Nat.le_refl _) (.get_bind (.of_pure trivial))
  refine leads_whenPersistent (hstate.bind fun _ _ _ _ => counted_storeCall.bind fun _ _ _ _ => ?_)
  refine .bind (.forM fun _ _ _ _ => ?_) fun _ _ _ _ => counted_persistActiveLogicalSession
  exact .require_bind fun _ => counted_storeCall

theorem ends_observePaneTopology_counted :
    Ends (observePaneTopology env session) o (fun _ => CallsCounted o) failed := by
  unfold observePaneTopology
  have hstate : Ends (topologyState (logicalSessionID session)) o (fun _ => CallsCounted o)
      failed := .modify_bind (.get_bind (.of_pure (Nat.le_refl _)))
  refine hstate.bind fun state t ht => ?_
  have hset : ∀ state, Ends (setTopologyState (logicalSessionID session) state) t
      (fun _ => CallsCounted o) failed := by
    intro state
    refine Ends.of_modify.mono (fun _ u hu => ?_) fun _ => id
    rw [hu]
    exact ht
  refine (hset _).bind fun _ u hu => .bestEffort ?_
  refine (Ends.of_leads counted_persistTopologyInteraction).mono (fun _ v hv => ?_) fun v hv => ?_
  · exact Nat.le_trans hu hv.1
  · exact Nat.le_trans hu hv

/-- **A pane is entered if the databases serve it until then.** -/
theorem ends_enterPane_served {keyframe : Keyframe} (hserves : ∀ n < limit, env.fault n = none)
    (hstart : env.startAttachment = .ok (some keyframe)) (hkeyframe : keyframe.valid)
    (hpane : (env.startPane input).isOk) (hcommand : input.command ≠ "")
    (hproject : input.projectID ≠ "") (hpath : o.persistencePath ≠ "")
    (hlimit : o.storeCalls + 4 + attachmentCalls (paneName (o.nextSession + 1)) = limit) :
    Ends (enterPane env input logicalID windowID) o (fun _ u => limit ≤ u.storeCalls)
      fun _ => False := by
  refine .require_bind (fun hempty => hempty hcommand) fun _ => ?_
  have hallocate : Ends (allocate input logicalID windowID) o (fun allocated t =>
      Called 0 o.store o t ∧ Recorded env limit allocated ∧
        allocated.paneID = paneName (o.nextSession + 1)) fun _ => False := by
    refine .modify_bind (.modify_bind (.get_bind (.of_pure ⟨⟨rfl, rfl, rfl⟩, ?_, rfl⟩)))
    refine ⟨hserves, ?_, hproject, ?_, paneName_ne_empty _⟩
    · dsimp only
      split
      · exact sessionName_ne_empty _
      · assumption
    · dsimp only
      split
      · exact windowName_ne_empty _
      · assumption
  refine hallocate.bind fun allocated t ⟨ht, hrecorded, hname⟩ => ?_
  refine .orRaise_bind (fun err herr => ?_) fun pane _ => ?_
  · rw [herr] at hpane
    exact nomatch hpane
  have hrecorded : Recorded env limit { allocated with pane := some pane } :=
    ⟨hserves, hrecorded.logicalSessionID, hrecorded.projectID, hrecorded.windowID,
      hrecorded.paneID⟩
  have hcalls : t.storeCalls = o.storeCalls := ht.storeCalls
  have htopology : Ends (persistTopology env { allocated with pane := some pane }) t (fun _ u =>
      ∃ store, Called 4 store t u ∧ store.hasPane allocated.paneID) fun _ => False :=
    ends_persistTopology_served hrecorded (ht.persistencePath ▸ hpath) (by omega)
  refine (htopology.onError fun _ h => h.elim).bind fun _ u ⟨store, hu, hrow⟩ => ?_
  have hcalls : u.storeCalls = o.storeCalls + 4 := by rw [hu.storeCalls, hcalls]
  have hattach : Ends (newSessionAttachment env { allocated with pane := some pane }) u (fun _ v =>
      ∃ store, Called (attachmentCalls allocated.paneID) store u v) fun _ => False :=
    ends_newSessionAttachment_served hrecorded hstart hkeyframe (by rw [hu.store]; exact hrow)
      (hu.persistencePath ▸ ht.persistencePath ▸ hpath) (by rw [hname]; omega)
  refine (hattach.onError fun _ h => h.elim).bind fun attached v ⟨_, hv⟩ => ?_
  refine ends_registerSession.bind fun _ w hw => ?_
  refine ends_observePaneTopology_counted.bind fun _ x hx => .of_pure ?_
  have hcalls : w.storeCalls = limit := by
    rw [hw]
    change v.storeCalls = limit
    rw [hv.storeCalls, hcalls, hname, hlimit]
  exact hcalls ▸ hx

end Served

/-! ### Failures -/

/-- A build with the terminal engine, whose databases fail from some call on. -/
def Env.failingFrom (env : Env) (limit : ℕ) : Env :=
  { env with
    startPane := Env.calm.startPane
    startAttachment := Env.calm.startAttachment
    fault := fun n => if n < limit then none else some "disk I/O error" }

variable {request : Request} {creation : Creation}

/-- The checks of a request do not ask the databases. -/
theorem creation_failingFrom (env : Env) (limit : ℕ) :
    o.creation (env.failingFrom limit) request = o.creation env request := rfl

/-- A creation acts in a project. -/
theorem Consistent.creation_projectID_ne (h : Consistent o)
    (hcreation : o.creation env request = some creation) : creation.input.projectID ≠ "" := by
  obtain ⟨operation, projectID, sessionText, paneText⟩ := request
  cases operation
  case sessionCreate input =>
    simp only [Operations.creation, Option.ite_none_right_eq_some] at hcreation
    obtain ⟨-, -, -, hsome⟩ := hcreation
    obtain rfl := Option.some.inj hsome
    change Request.project _ ≠ ""
    rw [Request.project]
    split
    · decide
    · next hnamed => exact fun hempty => hnamed ⟨hempty, nofun⟩
  case paneSplit input =>
    simp only [Operations.creation, Option.ite_none_right_eq_some] at hcreation
    obtain ⟨-, -, hsome⟩ := hcreation
    obtain ⟨source, hsource, rfl⟩ := Option.map_eq_some_iff.mp hsome
    exact h.named source (of_findPane hsource).1
  case windowNew input =>
    simp only [Operations.creation, Option.ite_none_right_eq_some] at hcreation
    obtain ⟨-, hsome⟩ := hcreation
    obtain ⟨source, hsource, rfl⟩ := Option.map_eq_some_iff.mp hsome
    exact h.named source (logicalSession_some hsource)
  all_goals exact nomatch hcreation

theorem exec_responding_error_iff {α : Type} {response : α → Response} {x : OpsM α}
    {err : MuxError} : exec (responding response x) o = (.error err, o') ↔
      exec x o = (.error err, o') := by
  rw [responding, exec_bind]
  rcases exec x o with ⟨cause | _, u⟩
  · constructor
    all_goals
      intro h
      obtain ⟨herr, rfl⟩ := Prod.mk.inj h
      obtain rfl := Except.error.inj herr
      rfl
  · exact iff_of_false nofun nofun

/-- A request fails as its creation does. -/
theorem failed_creation_iff (hcreation : o.creation env request = some creation) {err : MuxError} :
    exec (handleMethod env request) o = (.error err, o') ↔
      exec (createLocked env creation.input creation.logicalID creation.windowID >>=
        creation.place env) o = (.error err, o') := by
  obtain ⟨x, hhandle, hperforms⟩ : ∃ x, handleMethod env request = responding .created x ∧
      Performs env o x (o.creation env request) := performs_creation (creates_of_creation hcreation)
  rw [hcreation] at hperforms
  rw [hhandle, exec_responding_error_iff, show exec x o = _ from hperforms]

/-- A request that is refused by its checks changes nothing. -/
theorem failed_refused (hcreates : request.operation.Creates)
    (hcreation : o.creation env request = none) {err : MuxError}
    (hexec : exec (handleMethod env request) o = (.error err, o')) : o' = o := by
  obtain ⟨x, hhandle, hperforms⟩ : ∃ x, handleMethod env request = responding .created x ∧
      Performs env o x (o.creation env request) := performs_creation hcreates
  rw [hcreation] at hperforms
  obtain ⟨err', hrefused⟩ := hperforms
  rw [hhandle, exec_responding_error_iff, hrefused] at hexec
  exact (Prod.mk.inj hexec).2.symm

/-- What fails before the pane is registered has no effect. -/
theorem Abandoned.unaffected (h : Abandoned env o creation.input o')
    (hreconcilable : Reconcilable o) (hcreation : o.creation env request = some creation)
    {err : MuxError} (hexec : exec (createLocked env creation.input creation.logicalID
      creation.windowID) o = (.error err, o')) : Unaffected env request o o' := by
  have hunseen := h.withheld.unseen hreconcilable
  refine ⟨h.withheld.sessions, hunseen.session, hunseen.sameInteraction, ?_, fun watchers hw => ?_⟩
  · intro other hother
    obtain rfl := Option.some.inj (hcreation.symm.trans hother)
    exact h.terminated
  · have hnone : o.watchers env request = [] := by
      simp only [Operations.watchers, hcreation, hexec]
    rw [hnone, List.append_nil, Watched, h.withheld.sessions]
    exact hw

theorem unaffected_refl (hcreation : ∀ creation, o.creation env request = some creation →
    creation.input.command = "") (hwatchers : o.watchers env request = []) :
    Unaffected env request o o := by
  refine ⟨rfl, rfl, .refl o, fun creation hsome hcommand => ?_, fun watchers hw => ?_⟩
  · exact absurd (hcreation creation hsome) hcommand
  · rw [hwatchers, List.append_nil]
    exact hw

/-- Without a catalog, a pane that was created is placed. -/
theorem ends_place {created : ManagedSession} (hpath : o.persistencePath = "") :
    Ends (creation.place env created) o (fun _ _ => True) fun _ => False := by
  have hskip : ∀ (x : OpsM Unit) (t : Operations), t.persistencePath = "" →
      Ends (whenPersistent x) t (fun _ u => u = t) fun _ => False := by
    intro x t ht
    unfold Ends
    rw [exec_whenPersistent, if_pos ht]
    exact ⟨fun _ _ hexec => (Prod.mk.inj hexec).2.symm, fun _ _ hexec => nomatch hexec⟩
  unfold Creation.place
  split
  · exact .of_pure trivial
  · next origin _ =>
    refine .modify_bind ?_
    have hstate : ∀ t : Operations, t.persistencePath = "" →
        Ends (topologyState origin.source.logicalSessionID) t (fun _ u => u.persistencePath = "")
          fun _ => False := fun t ht => .modify_bind (.get_bind (.of_pure ht))
    refine Ends.bind (hstate _ ?_) fun state t ht => .modify_bind ?_
    · exact hpath
    refine Ends.bind (hskip _ _ ?_) fun _ u hu => ?_
    · exact ht
    · subst hu
      refine Ends.bind (hskip _ _ ?_) fun _ _ _ => .of_pure trivial
      exact ht

theorem createLocked_of_command (hcommand : input.command = "") :
    exec (createLocked env input logicalID windowID) o = (.error .commandRequired, o) := by
  unfold createLocked
  rw [require, if_neg (not_not.mpr hcommand)]
  rfl

/-- A registered pane was not there before. -/
theorem Entered.not_mem (h : Consistent o) (hentered : Entered o input logicalID session t) :
    session ∈ t.sessions ∧ session ∉ o.sessions := by
  refine ⟨?_, fun hmem => ?_⟩
  · rw [hentered.sessions]
    exact mem_register.mpr (.inr rfl)
  · obtain ⟨n, hn, hid, -⟩ := h.numbered session hmem
    have hnext := sessionName_injective (hid.symm.trans hentered.named.id)
    omega

/-- **With a catalog, an accepted creation fails behind the registration of its pane** when the
databases fail from there on. -/
theorem exists_lost_creation (h : Consistent o) (hpath : o.persistencePath ≠ "")
    (haccepts : o.Accepts request) : ∃ env err o',
      exec (handleMethod env request) o = (.error err, o') ∧ o'.sessions ≠ o.sessions := by
  obtain ⟨env, creation, hcreation, hcommand⟩ := haccepts
  let limit := o.storeCalls + 4 + attachmentCalls (paneName (o.nextSession + 1))
  have hcreation : o.creation (env.failingFrom limit) request = some creation :=
    (creation_failingFrom env limit).trans hcreation
  have hserves : ∀ n < limit, (env.failingFrom limit).fault n = none := fun n hn => if_pos hn
  have hends : Ends (enterPane (env.failingFrom limit) creation.input creation.logicalID
      creation.windowID) o (fun _ u => limit ≤ u.storeCalls) fun _ => False :=
    ends_enterPane_served hserves rfl (by decide) rfl hcommand
      (h.creation_projectID_ne hcreation) hpath rfl
  rcases hexec : exec (enterPane (env.failingFrom limit) creation.input creation.logicalID
      creation.windowID) o with ⟨err | session, t⟩
  · exact (hends.2 err t hexec).elim
  · have hlimit : limit ≤ t.storeCalls := hends.1 session t hexec
    have hlost : ¬ (o.persistencePath ≠ "" → (env.failingFrom limit).Serves t.storeCalls 2) := by
      intro hserves
      have hfault : (env.failingFrom limit).fault t.storeCalls = none := hserves hpath 0 (by omega)
      exact nomatch (if_neg (Nat.not_lt.mpr hlimit)).symm.trans hfault
    obtain ⟨err, o', hfailed, hentered, hmemory⟩ := exec_createLocked_lost hexec hlost
    refine ⟨env.failingFrom limit, err, o', ?_, fun hsame => ?_⟩
    · rw [failed_creation_iff hcreation, exec_bind, hfailed]
    · obtain ⟨hnew, hold⟩ := hentered.not_mem h
      rw [← hmemory.sessions, hsame] at hnew
      exact hold hnew

/-- **Failed creations.** In every reachable state, a request that creates a pane has no lasting
effect when it fails, whatever fails, exactly if there is no catalog or it does not pass its
checks. -/
theorem create_failure_iff (persistencePath topologyEpoch : String) (persistScrollback : Bool)
    (scrollbackLines : ℕ) (hreach : Reaches Operations.step Always
      (.fresh persistencePath topologyEpoch persistScrollback scrollbackLines) o)
    (request : Request) (hcreates : request.operation.Creates) :
    (∀ env err o', exec (handleMethod env request) o = (.error err, o') →
        Unaffected env request o o') ↔
      (o.persistencePath ≠ "" → ¬ o.Accepts request) := by
  have h := (Consistent.fresh persistencePath topologyEpoch persistScrollback
    scrollbackLines).of_reaches hreach
  constructor
  · intro hunaffected hpath haccepts
    -- an environment in which the catalog write fails after the pane was entered
    obtain ⟨env, err, o', hexec, hsessions⟩ := exists_lost_creation h hpath haccepts
    exact hsessions (hunaffected env err o' hexec).sessions
  · intro hcondition env err o' hexec
    cases hcreation : o.creation env request with
    | none =>
      obtain rfl := failed_refused hcreates hcreation hexec
      refine unaffected_refl (fun creation hsome => ?_) ?_
      · exact nomatch hcreation.symm.trans hsome
      · simp only [Operations.watchers, hcreation]
    | some creation =>
      have hpath : creation.input.command ≠ "" → o.persistencePath = "" := by
        intro hcommand
        by_contra hpath
        exact hcondition hpath ⟨env, creation, hcreation, hcommand⟩
      rw [failed_creation_iff hcreation, exec_bind] at hexec
      rcases hcreated : exec (createLocked env creation.input creation.logicalID
          creation.windowID) o with ⟨cause | created, t⟩
      · rw [hcreated] at hexec
        obtain ⟨-, rfl⟩ := Prod.mk.inj hexec
        by_cases hcommand : creation.input.command = ""
        · rw [createLocked_of_command hcommand] at hcreated
          obtain ⟨hcause, rfl⟩ := Prod.mk.inj hcreated
          refine unaffected_refl (fun other hother => ?_) ?_
          · obtain rfl := Option.some.inj (hcreation.symm.trans hother)
            exact hcommand
          · simp only [Operations.watchers, hcreation, createLocked_of_command hcommand]
        · -- without a catalog the selection is not lost
          rcases ends_createLocked.2 _ _ hcreated with habandoned | ⟨_, _, -, -, hlost, -⟩
          · exact habandoned.unaffected h.reconcilable hcreation hcreated
          · exact absurd (fun hne => absurd (hpath hcommand) hne) hlost
      · -- nor is a place or a pin
        by_cases hcommand : creation.input.command = ""
        · rw [createLocked_of_command hcommand] at hcreated
          exact nomatch hcreated
        · obtain ⟨u, hentered, hmemory⟩ := ends_createLocked.1 _ _ hcreated
          have ht : t.persistencePath = "" := by
            rw [hmemory.persistencePath, hentered.persistencePath, hpath hcommand]
          rw [hcreated] at hexec
          exact ((ends_place ht).2 err o' hexec).elim

/-- A request for a session with a shell. -/
def createShellRequest : Request where
  operation := .sessionCreate { command := "sh" }

/-- No process can be started. -/
def Env.processless : Env :=
  { Env.calm with startPane := fun _ => .error "fork/exec sh: resource temporarily unavailable" }

/-- A daemon without a home cannot start a process. -/
theorem create_failure_iff_processless : ∃ err o',
    exec (handleMethod .processless createShellRequest) (.fresh "" "epoch" true 10000) =
      (.error err, o') ∧
    Unaffected .processless createShellRequest (.fresh "" "epoch" true 10000) o' := by
  have hfailed : (exec (handleMethod .processless createShellRequest)
      (.fresh "" "epoch" true 10000)).1.isOk = false := by
    decide +kernel
  rcases hexec : exec (handleMethod .processless createShellRequest)
      (.fresh "" "epoch" true 10000) with ⟨err | _, o'⟩
  · refine ⟨err, o', rfl, ?_⟩
    exact (create_failure_iff "" "epoch" true 10000 ⟨[], .nil _⟩ createShellRequest trivial).mpr
      (fun hpath => absurd rfl hpath) .processless err o' hexec
  · rw [hexec] at hfailed
    exact nomatch hfailed

/-- A catalog that fails once the data path of the first pane has started leaves the pane. -/
theorem not_create_failure : ¬ ∀ o,
    Reaches Operations.step Always (.fresh "state.db" "epoch" true 10000) o →
      ∀ (env : Env) (request : Request), request.operation.Creates →
        ∀ err o', exec (handleMethod env request) o = (.error err, o') →
          Unaffected env request o o' := by
  intro hclaim
  have hfailed : (exec (handleMethod (.failingFrom .calm 8) createShellRequest)
      (.fresh "state.db" "epoch" true 10000)).1.isOk = false := by
    decide +kernel
  have hleft : (exec (handleMethod (.failingFrom .calm 8) createShellRequest)
      (.fresh "state.db" "epoch" true 10000)).2.sessions.length = 1 := by
    decide +kernel
  rcases hexec : exec (handleMethod (.failingFrom .calm 8) createShellRequest)
      (.fresh "state.db" "epoch" true 10000) with ⟨err | _, o'⟩
  · have hsame := (hclaim _ ⟨[], .nil _⟩ (.failingFrom .calm 8) createShellRequest trivial err o'
      hexec).sessions
    rw [hexec, hsame] at hleft
    exact nomatch hleft
  · rw [hexec] at hfailed
    exact nomatch hfailed

end AgentCockpit.Mux
