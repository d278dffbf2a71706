import AgentCockpit.Mux.Operations.Interaction

/-!
# Attaches that fail

An attach takes the session for its client before it seeds the pane, and sets the geometry of
the session before it records the pane. When one of the later calls fails, what was set stays.

## Main results

* `attach_undisturbed_iff` — **exactly these attaches may fail without an effect**
-/

namespace AgentCockpit.Mux

open AgentCockpit.Core

variable {env : Env} {o o' : Operations} {session : ManagedSession} {input : AttachSessionRequest}

/-- Who owns a session, and its geometry. -/
structure Standing where
  clientID : String
  clientKind : String
  cols : ℕ
  rows : ℕ
  deriving DecidableEq, Repr

def ManagedSession.standing (session : ManagedSession) : Standing where
  clientID := session.clientID
  clientKind := session.clientKind
  cols := session.cols
  rows := session.rows

/-- The sessions have the owners and the geometry they had, and let the same clients write to
their panes and drain them. -/
structure Undisturbed (o o' : Operations) : Prop where
  standing : ∀ sessionID, (findSession o'.sessions sessionID).map (·.standing) =
    (findSession o.sessions sessionID).map (·.standing)
  owner : ∀ sessionID session session', findSession o.sessions sessionID = some session →
    findSession o'.sessions sessionID = some session' → ∀ clientID,
      requireClient session' clientID = requireClient session clientID

/-- Who may use a session is read off its standing. -/
theorem Undisturbed.of_standing
    (h : ∀ sessionID, (findSession o'.sessions sessionID).map (·.standing) =
      (findSession o.sessions sessionID).map (·.standing)) : Undisturbed o o' := by
  refine ⟨h, fun sessionID session session' hsession hsession' clientID => ?_⟩
  have hstanding := h sessionID
  rw [hsession, hsession', Option.map_some, Option.map_some] at hstanding
  have hclient := congrArg Standing.clientID (Option.some.inj hstanding)
  change session'.clientID = session.clientID at hclient
  rw [requireClient, requireClient, hclient]

/-! ### Panes and databases -/

/-- The sessions and the place of the catalog stay. -/
structure Steady (o o' : Operations) : Prop where
  sessions : o'.sessions = o.sessions
  persistencePath : o'.persistencePath = o.persistencePath

instance : Std.Refl Steady := ⟨fun _ => ⟨rfl, rfl⟩⟩

instance : IsTrans Operations Steady :=
  ⟨fun _ _ _ h h' => ⟨h'.sessions.trans h.sessions, h'.persistencePath.trans h.persistencePath⟩⟩

section Steady

variable {context paneID : String}

/-- Calls that change the databases only are steady. -/
theorem Steady.of_sameMemory (h : SameMemory o o') : Steady o o' := ⟨h.sessions, h.persistencePath⟩

theorem steady_storeCall {call : Store → Except String Store} :
    Leads Steady (storeCall env context call) o fun _ _ => True :=
  memory_storeCall.weaken fun _ _ => Steady.of_sameMemory

theorem steady_callPane {α : Type} {action : PaneAction} {outcome : Except String α} :
    Leads Steady (callPane env paneID action outcome context) o fun _ _ => outcome.isOk :=
  memory_callPane.weaken fun _ _ => Steady.of_sameMemory

/-- The placement of a window is looked up in interaction state that is first normalized. -/
theorem steady_windowPlacementIndex :
    Leads Steady (windowPlacementIndex session) o fun _ _ => True := by
  have hstate : Leads Steady (topologyState (logicalSessionID session)) o fun _ _ => True :=
    .modify_bind ⟨rfl, rfl⟩ (.get_bind (.of_pure trivial))
  exact hstate.bind fun _ _ _ _ => .of_pure trivial

theorem steady_persistTopology (env : Env) (session : ManagedSession) (o : Operations) :
    Leads Steady (persistTopology env session) o fun _ _ => True := by
  refine leads_whenPersistent ?_
  refine steady_storeCall.bind fun _ _ _ _ => ?_
  refine steady_storeCall.bind fun _ _ _ _ => ?_
  refine steady_windowPlacementIndex.bind fun _ _ _ _ => ?_
  exact steady_storeCall.bind fun _ _ _ _ => steady_storeCall

/-- A seed is an answer of the data path or of the process, and there is none without them. -/
theorem steady_seedPane (env : Env) (session : ManagedSession) (input : AttachSessionRequest)
    (o : Operations) : Leads Steady (seedPane env session input) o fun _ _ =>
    session.attached = true ∧ (env.attach session.paneID).isOk ∨
      session.pane.isSome = true ∧ (env.resize session.paneID).isOk := by
  unfold seedPane
  split
  · next hattached =>
    exact steady_callPane.bind fun _ _ _ hok => .of_pure (.inl ⟨hattached, hok⟩)
  · split
    · exact .of_throw
    · next pane hpane =>
      exact steady_callPane.bind fun _ _ _ hok => .of_pure (.inr ⟨hpane ▸ rfl, hok⟩)

end Steady

/-! ### The run of an attach -/

/-- The attach passes its checks and takes the session. -/
structure Operations.Takes (o : Operations) (input : AttachSessionRequest)
    (session : ManagedSession) : Prop where
  geometry : input.cols ≠ 0 ∧ input.rows ≠ 0
  mutable : o.handoffPrepared = false
  readable : o.recoveryErr = none
  found : findSession o.sessions input.sessionID = some session

/-- The session belongs to the client of the attach. -/
def Operations.owned (o : Operations) (input : AttachSessionRequest) (session : ManagedSession) :
    Operations :=
  { o with sessions :=
      updateSession o.sessions session.id (setOwner input.clientID input.clientKind) }

/-- The session also has the geometry of the attach. -/
def Operations.resized (o : Operations) (input : AttachSessionRequest)
    (session : ManagedSession) : Operations :=
  { o with sessions := updateSession o.sessions session.id (setGeometry input.cols input.rows) }

theorem exec_setOwner_bind {α : Type} {f : Unit → OpsM α} :
    exec (modifySession session.id (setOwner input.clientID input.clientKind) >>= f) o =
      exec (f ()) (o.owned input session) :=
  rfl

theorem exec_setGeometry_bind {α : Type} {f : Unit → OpsM α} :
    exec (modifySession session.id (setGeometry input.cols input.rows) >>= f) o =
      exec (f ()) (o.resized input session) :=
  rfl

/-- An attach that is refused by a check changes nothing. -/
theorem exec_attach_refused (env : Env) (h : ∀ session, ¬ o.Takes input session) :
    (exec (attach env input) o).2 = o := by
  rw [attach, exec_require_bind]
  split
  · next hgeometry =>
    rw [requireMutable, bind_assoc, exec_get_bind, exec_require_bind]
    split
    · next hmutable =>
      rw [requireReadable, bind_assoc, exec_get_bind]
      cases hreadable : o.recoveryErr with
      | some err => rfl
      | none =>
        dsimp only
        rw [pure_bind, requireSession, bind_assoc, exec_get_bind, exec_orThrow_bind]
        cases hfound : findSession o.sessions input.sessionID with
        | none => rfl
        | some session => exact absurd ⟨hgeometry, hmutable, hreadable, hfound⟩ (h session)
    · rfl
  · rfl

/-- An attach that passes its checks takes the session, seeds the pane, sets the geometry and
records the pane. -/
theorem exec_attach (h : o.Takes input session) : exec (attach env input) o =
    match exec (seedPane env session input) (o.owned input session) with
    | (.error err, t) => (.error err, t)
    | (.ok seed, t) =>
      match exec (persistTopology env (setGeometry input.cols input.rows session))
        (t.resized input session) with
      | (.error err, u) => (.error err, u)
      | (.ok _, u) => (.ok (attachResponse session input seed), u) := by
  rw [attach, exec_require_bind, if_pos h.geometry, requireMutable, bind_assoc, exec_get_bind,
    exec_require_bind, if_pos h.mutable, requireReadable, bind_assoc, exec_get_bind, h.readable]
  dsimp only
  rw [pure_bind, requireSession, bind_assoc, exec_get_bind, exec_orThrow_bind, h.found]
  dsimp only
  rw [exec_setOwner_bind, exec_bind]
  rcases exec (seedPane env session input) (o.owned input session) with ⟨err | seed, t⟩
  · rfl
  · dsimp only
    rw [exec_setGeometry_bind, exec_bind]
    rcases exec (persistTopology env (setGeometry input.cols input.rows session))
      (t.resized input session) with ⟨err | _, u⟩ <;> rfl

/-! ### What a failure leaves -/

/-- The attach takes the session from nobody, and a failure after the geometry is set leaves
the geometry that the session has. -/
structure Operations.Harmless (o : Operations) (input : AttachSessionRequest)
    (session : ManagedSession) : Prop where
  owner : input.clientID = "" ∨
    session.clientID = input.clientID ∧ session.clientKind = input.clientKind
  geometry : session.attached = true ∨ session.pane.isSome = true → o.persistencePath ≠ "" →
    session.cols = input.cols ∧ session.rows = input.rows

/-- The attach is refused by a check, or it is harmless. -/
def Operations.FailureSafe (o : Operations) (input : AttachSessionRequest) : Prop :=
  ∀ session, o.Takes input session → o.Harmless input session

/-- An attach that fails after its checks stops before or after it sets the geometry. -/
theorem attach_failed (h : o.Takes input session) {err : MuxError}
    (hexec : exec (attach env input) o = (.error err, o')) :
    o'.sessions = (o.owned input session).sessions ∨
      (session.attached = true ∨ session.pane.isSome = true) ∧ o.persistencePath ≠ "" ∧
        o'.sessions = ((o.owned input session).resized input session).sessions := by
  rw [exec_attach h] at hexec
  have hseed := steady_seedPane env session input (o.owned input session)
  unfold Leads at hseed
  split at hexec
  · next err' t hrun =>
    obtain ⟨-, rfl⟩ := Prod.mk.inj hexec
    rw [hrun] at hseed
    exact .inl hseed.1.sessions
  · next seed t hrun =>
    rw [hrun] at hseed
    obtain ⟨hsteady, hseedable⟩ := hseed
    have hpersist := (steady_persistTopology env (setGeometry input.cols input.rows session)
      (t.resized input session)).1
    split at hexec
    · next err' u hwrite =>
      obtain ⟨-, rfl⟩ := Prod.mk.inj hexec
      rw [hwrite] at hpersist
      refine .inr ⟨(hseedable _ rfl).imp And.left And.left, fun hnone => ?_, ?_⟩
      · -- without a catalog there is no write that could fail
        have hpath : (t.resized input session).persistencePath = "" :=
          hsteady.persistencePath.trans hnone
        rw [persistTopology, whenPersistent, exec_get_bind, if_pos hpath] at hwrite
        exact nomatch hwrite
      · rw [hpersist.sessions, Operations.resized, Operations.resized, hsteady.sessions]
    · exact nomatch hexec

/-- An attach to a pane without a process and without a data path. -/
theorem exec_attach_exited (h : o.Takes input session) (hattached : session.attached = false)
    (hpane : session.pane = none) : exec (attach env input) o =
      (.error (.paneExited session.recoveryDiagnostic), o.owned input session) := by
  have hseed : exec (seedPane env session input) (o.owned input session) =
      (.error (.paneExited session.recoveryDiagnostic), o.owned input session) := by
    rw [seedPane, if_neg (by simp [hattached]), hpane]
    rfl
  rw [exec_attach h, hseed]

section Standing

variable {sessions : List ManagedSession} {sessionID : String}
  {change : ManagedSession → ManagedSession}

/-- A change that spares owner and geometry of the session with an id spares all sessions. -/
theorem standing_updateSession (hid : ∀ session, (change session).id = session.id)
    (hfound : findSession sessions sessionID = some session)
    (hsame : (change session).standing = session.standing) (other : String) :
    (findSession (updateSession sessions sessionID change) other).map (·.standing) =
      (findSession sessions other).map (·.standing) := by
  rw [findSession_updateSession hid, Option.map_map]
  refine Option.map_congr fun found hother => ?_
  simp only [Function.comp_apply]
  split
  · next hname =>
    -- it is the session itself, for a session is found under its own id
    have hself : other = sessionID := (of_findSession hother).2.symm.trans hname
    rw [hself, hfound] at hother
    exact Option.some.inj hother ▸ hsame
  · rfl

theorem setOwner_id (clientID clientKind : String) (session : ManagedSession) :
    (setOwner clientID clientKind session).id = session.id := by
  unfold setOwner
  split <;> rfl

theorem setGeometry_id (cols rows : ℕ) (session : ManagedSession) :
    (setGeometry cols rows session).id = session.id :=
  rfl

/-- The session of an attach that has gone through. -/
theorem findSession_owned (h : o.Takes input session) :
    findSession (o.owned input session).sessions input.sessionID =
      some (setOwner input.clientID input.clientKind session) := by
  rw [Operations.owned, findSession_updateSession (setOwner_id _ _), h.found, Option.map_some,
    if_pos rfl]

theorem findSession_resized (h : o.Takes input session) :
    findSession ((o.owned input session).resized input session).sessions input.sessionID =
      some (setGeometry input.cols input.rows
        (setOwner input.clientID input.clientKind session)) := by
  rw [Operations.resized, findSession_updateSession (setGeometry_id _ _), findSession_owned h,
    Option.map_some, if_pos (setOwner_id _ _ session)]

end Standing

/-- A harmless attach that fails changes nobody's standing. -/
theorem Operations.Harmless.undisturbed (hharmless : o.Harmless input session)
    (h : o.Takes input session) {err : MuxError}
    (hexec : exec (attach env input) o = (.error err, o')) : Undisturbed o o' := by
  have hid : session.id = input.sessionID := (of_findSession h.found).2
  have howner : (setOwner input.clientID input.clientKind session).standing =
      session.standing := by
    unfold setOwner
    split
    · rfl
    · next hclient =>
      obtain ⟨hid, hkind⟩ := hharmless.owner.resolve_left hclient
      simp only [ManagedSession.standing, hid, hkind]
  have howned : ∀ sessionID,
      (findSession (o.owned input session).sessions sessionID).map (·.standing) =
        (findSession o.sessions sessionID).map (·.standing) :=
    standing_updateSession (setOwner_id _ _) (hid ▸ h.found) howner
  refine .of_standing fun sessionID => ?_
  rcases attach_failed h hexec with hsessions | ⟨hseedable, hpath, hsessions⟩
  · rw [hsessions, howned]
  · obtain ⟨hcols, hrows⟩ := hharmless.geometry hseedable hpath
    have hgeometry : (setGeometry input.cols input.rows
        (setOwner input.clientID input.clientKind session)).standing =
        (setOwner input.clientID input.clientKind session).standing := by
      rw [howner]
      have hclient := congrArg Standing.clientID howner
      have hkind := congrArg Standing.clientKind howner
      simp only [ManagedSession.standing] at hclient hkind ⊢
      simp only [setGeometry, hclient, hkind, hcols, hrows]
    rw [hsessions, Operations.resized, standing_updateSession (setGeometry_id _ _)
      (hid ▸ findSession_owned h) hgeometry, howned]

/-! ### Failures that leave something -/

/-- Neither data paths nor processes answer. -/
def Env.unseeded : Env :=
  { Env.calm with
    attach := fun _ => .error "terminal closed"
    resize := fun _ => .error "bad file descriptor" }

/-- No call to a database succeeds. -/
def Env.unrecorded : Env :=
  { Env.calm with fault := fun _ => some "disk full" }

/-- Without a seed an attach fails when it has taken the session. -/
theorem exec_attach_unseeded (h : o.Takes input session) : ∃ err o',
    exec (attach .unseeded input) o = (.error err, o') ∧
      o'.sessions = (o.owned input session).sessions := by
  have hseed := steady_seedPane .unseeded session input (o.owned input session)
  rw [exec_attach h]
  unfold Leads at hseed
  rcases hrun : exec (seedPane .unseeded session input) (o.owned input session) with ⟨err | seed, t⟩
  all_goals rw [hrun] at hseed
  · exact ⟨err, t, rfl, hseed.1.sessions⟩
  · rcases hseed.2 seed rfl with ⟨-, hok⟩ | ⟨-, hok⟩
    · exact nomatch hok
    · exact nomatch hok

/-- A call to a pane whose attachment writes nothing meanwhile. -/
theorem exec_callPane_of_silent {α : Type} {paneID context : String} {action : PaneAction}
    {value : α} (h : env.writes paneID action = []) :
    exec (callPane env paneID action (.ok value) context) o =
      (.ok value, { o with paneCalls := o.paneCalls ++ [⟨paneID, action⟩] }) := by
  rw [callPane, recordCall, exec_modify_bind, attachmentWrites, h, whenPersistent, bind_assoc,
    exec_get_bind]
  split <;> rfl

/-- A pane that answers is seeded also when no database does. -/
theorem exec_seedPane_unrecorded (input : AttachSessionRequest) (o : Operations)
    (hseedable : session.attached = true ∨ session.pane.isSome = true) :
    ∃ seed t, exec (seedPane .unrecorded session input) o = (.ok seed, t) := by
  unfold seedPane
  split
  · have hcall : exec (callPane .unrecorded session.paneID
        (.attach input.cols input.rows input.cellWidth input.cellHeight)
        (Env.unrecorded.attach session.paneID) "seed mux pane: ") o = (.ok ⟨[46], [], 0⟩, _) :=
      exec_callPane_of_silent rfl
    rw [exec_bind, hcall]
    exact ⟨_, _, rfl⟩
  · next hnot =>
    obtain ⟨pane, hpane⟩ := Option.isSome_iff_exists.mp (hseedable.resolve_left hnot)
    have hcall : exec (callPane .unrecorded session.paneID (.resize input.cols input.rows)
        (Env.unrecorded.resize session.paneID) "resize mux pane before attach: ") o = (.ok (), _) :=
      exec_callPane_of_silent rfl
    rw [hpane]
    dsimp only
    rw [exec_bind, hcall]
    exact ⟨_, _, rfl⟩

/-- Without its catalog an attach fails when it has set the geometry. -/
theorem exec_attach_unrecorded (h : o.Takes input session)
    (hseedable : session.attached = true ∨ session.pane.isSome = true)
    (hpath : o.persistencePath ≠ "") : ∃ err o',
      exec (attach .unrecorded input) o = (.error err, o') ∧
        o'.sessions = ((o.owned input session).resized input session).sessions := by
  obtain ⟨seed, t, hrun⟩ := exec_seedPane_unrecorded input (o.owned input session) hseedable
  have hsteady := (steady_seedPane .unrecorded session input (o.owned input session)).1
  rw [hrun] at hsteady
  have hpath : (t.resized input session).persistencePath ≠ "" :=
    hsteady.persistencePath.symm ▸ hpath
  rw [exec_attach h, hrun]
  dsimp only
  rw [persistTopology, whenPersistent, exec_get_bind, if_neg hpath]
  refine ⟨_, _, rfl, ?_⟩
  change (t.resized input session).sessions = _
  rw [Operations.resized, Operations.resized, hsteady.sessions]

/-- An attach whose every failure goes without an effect takes no session over, and keeps the
geometry as far as it could fail later. -/
theorem Operations.harmless_of_undisturbed (h : o.Takes input session)
    (hclean : ∀ env err o', exec (attach env input) o = (.error err, o') → Undisturbed o o') :
    o.Harmless input session := by
  have hunseeded : (setOwner input.clientID input.clientKind session).standing =
      session.standing := by
    obtain ⟨err, o', hexec, hsessions⟩ := exec_attach_unseeded h
    have hstanding := (hclean _ _ _ hexec).standing input.sessionID
    rw [hsessions, findSession_owned h, h.found] at hstanding
    exact Option.some.inj hstanding
  refine ⟨?_, fun hseedable hpath => ?_⟩
  · by_cases hclient : input.clientID = ""
    · exact .inl hclient
    · rw [setOwner, if_neg hclient] at hunseeded
      have hid := congrArg Standing.clientID hunseeded
      have hkind := congrArg Standing.clientKind hunseeded
      exact .inr ⟨hid.symm, hkind.symm⟩
  · obtain ⟨err, o', hexec, hsessions⟩ := exec_attach_unrecorded h hseedable hpath
    have hstanding := (hclean _ _ _ hexec).standing input.sessionID
    rw [hsessions, findSession_resized h, h.found] at hstanding
    have hsame := Option.some.inj hstanding
    have hcols := congrArg Standing.cols hsame
    have hrows := congrArg Standing.rows hsame
    exact ⟨hcols.symm, hrows.symm⟩

/-- **Failed attaches.** Whatever the panes and the databases answer, an attach that fails
leaves the sessions of the daemon as they were exactly when it is refused by a check, or it
takes no session over and asks for the geometry there is. -/
theorem attach_undisturbed_iff :
    (∀ env err o', exec (attach env input) o = (.error err, o') → Undisturbed o o') ↔
      o.FailureSafe input := by
  constructor
  · exact fun hclean session htakes => Operations.harmless_of_undisturbed htakes hclean
  · intro hsafe env err o' hexec
    by_cases htakes : ∃ session, o.Takes input session
    · obtain ⟨session, htakes⟩ := htakes
      exact (hsafe session htakes).undisturbed htakes hexec
    · rw [not_exists] at htakes
      have hsame := exec_attach_refused env htakes
      rw [hexec] at hsame
      obtain rfl : o' = o := hsame
      exact .of_standing fun _ => rfl

/-- A pane whose process has ended; what it wrote last is still to be drained. -/
def exitedPane : Operations :=
  ((Operations.fresh "state.db" "epoch" true 10000).after
    (.handle .calm { operation := .sessionCreate { command := "sh" } })).after
    (.paneExit .calm "session-1" none)

def lateAttach : AttachSessionRequest where
  sessionID := "session-1"
  clientID := "b"
  clientKind := "cockpit"
  cols := 80
  rows := 24

/-- An attach to a pane whose process has ended fails and leaves the pane with the client that
asked for it, so that no other client can drain it. -/
theorem not_attach_undisturbed : ¬ ∀ o,
    Reaches Operations.step Always (.fresh "state.db" "epoch" true 10000) o →
      ∀ (env : Env) (input : AttachSessionRequest) (err : MuxError) (o' : Operations),
        exec (attach env input) o = (.error err, o') → Undisturbed o o' := by
  intro hclaim
  have hreach : Reaches Operations.step Always (.fresh "state.db" "epoch" true 10000) exitedPane :=
    ⟨[.handle .calm { operation := .sessionCreate { command := "sh" } },
      .paneExit .calm "session-1" none], .cons trivial rfl (.single trivial rfl)⟩
  have hexited : (findSession exitedPane.sessions "session-1").map
      (fun session => (session.attached, session.pane, session.clientID)) =
        some (false, none, "") := by
    decide +kernel
  obtain ⟨session, hfound, hsession⟩ := Option.map_eq_some_iff.mp hexited
  simp only [Prod.mk.injEq] at hsession
  obtain ⟨hattached, hpane, hnobody⟩ := hsession
  have htakes : exitedPane.Takes lateAttach session :=
    ⟨by decide, by decide +kernel, by decide +kernel, hfound⟩
  have hundisturbed := hclaim exitedPane hreach .calm lateAttach _ _
    (exec_attach_exited htakes hattached hpane)
  have hstanding := hundisturbed.standing lateAttach.sessionID
  rw [findSession_owned htakes, htakes.found] at hstanding
  have hclient : "b" = session.clientID :=
    congrArg Standing.clientID (Option.some.inj hstanding)
  rw [hnobody] at hclient
  exact absurd hclient (by decide)

end AgentCockpit.Mux
