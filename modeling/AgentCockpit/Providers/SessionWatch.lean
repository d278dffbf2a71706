import AgentCockpit.Core.Arena
import AgentCockpit.Providers.SessionManager

/-!
# The watches that sessions own

The entries of the maps belong to the provider in `sessions` throughout: its listener is wired, the
last state is its state, and the recorded watch is its watch. A subscription that is handed out to
the live session is recorded even when the session has left `connected` meanwhile, or when another
one is recorded already: runs in which that does not happen leave no subscription behind.
-/

namespace AgentCockpit.Providers

open AgentCockpit.Core

namespace Project

/-- Nothing is in flight for the project: no connect or disconnect, no subscription, and no
reattach of the session's provider. -/
structure Quiescent (project : Project) : Prop where
  connects : ∀ provider ∈ project.providers, provider.connecting = false
  disconnects : project.disconnects = []
  watches : ∀ watch ∈ project.watches,
    watch.phase ≠ .subscribing ∧ ∀ stopping, watch.phase ≠ .unsubscribing stopping
  settled : ∀ (id : ℕ) (provider : Provider), project.session = some id →
    project.providers[id]? = some provider →
      provider.state ≠ .connecting ∧ provider.state ≠ .reconnecting

/-- The entries of the maps belong to the provider in `sessions`. -/
structure Wired (project : Project) : Prop where
  listener : project.statusOff = project.session
  known : ∀ id, project.session = some id → ∃ provider, project.providers[id]? = some provider ∧
    project.lastState = some provider.state
  recorded : ∀ id, project.watchSub = some id → ∃ watch, project.watches[id]? = some watch ∧
    project.session = some watch.provider

variable {loadSpec : Option ConnectionSpec} {project next : Project} {id : ℕ}
  {state : ConnectionState} {label : ProjectStep} {watch : Watch}

theorem wired_initial : Wired {} := ⟨rfl, nofun, nofun⟩

/-- A project without a session has no entries. -/
theorem Wired.watchSub_eq_none (h : Wired project) (hsession : project.session = none) :
    project.watchSub = none := by
  cases hsub : project.watchSub with
  | none => rfl
  | some id =>
    obtain ⟨_, _, hsome⟩ := h.recorded id hsub
    exact nomatch hsession.symm.trans hsome

/-- The phase of a watch changes. -/
theorem Wired.setWatch (h : Wired project) (id : ℕ) (phase : WatchPhase) :
    Wired (project.setWatch id phase) where
  listener := h.listener
  known := h.known
  recorded other hsub := by
    obtain ⟨watch, hwatch, hsession⟩ := h.recorded other hsub
    refine ⟨_, getElem?_modify_of_some hwatch, ?_⟩
    split
    · exact hsession
    · exact hsession

theorem Wired.sameSession (h : Wired project) (hsame : SameSession project next) :
    Wired next := by
  obtain ⟨_, _, _, _, rfl⟩ := hsame
  exact ⟨h.listener, h.known, h.recorded⟩

/-- The session's provider has a new status, and the listener hears of it. -/
theorem handleStatus_wired (hlistener : project.statusOff = project.session)
    (hknown : ∀ id, project.session = some id → ∃ provider,
      project.providers[id]? = some provider ∧ provider.state = state)
    (hrecorded : ∀ id, project.watchSub = some id → ∃ watch, project.watches[id]? = some watch ∧
      project.session = some watch.provider) : Wired (project.handleStatus state) := by
  have hbefore : Wired { project with lastState := some state } := by
    refine ⟨hlistener, fun id hsession => ?_, hrecorded⟩
    obtain ⟨provider, hprovider, hstate⟩ := hknown id hsession
    exact ⟨provider, hprovider, by rw [hstate]⟩
  have hstop : Wired ({ project with lastState := some state } : Project).stopWatch := by
    obtain ⟨_, _, _, _, _, heq⟩ :=
      stopWatch_frame ({ project with lastState := some state } : Project)
    rw [heq]
    exact ⟨hbefore.listener, hbefore.known, nofun⟩
  have hstart : Wired ({ project with lastState := some state } : Project).startWatch := by
    unfold startWatch
    split
    · next hnone _ =>
      exact ⟨hbefore.listener, hbefore.known, fun id hsub => nomatch hnone.symm.trans hsub⟩
    · exact hbefore
  cases state with
  | connected =>
    unfold handleStatus
    dsimp only
    split
    · exact hbefore
    · exact hstart
  | disconnected | failed => exact hstop
  | connecting | reconnecting => exact hbefore

/-- A provider changes without a change of its state. -/
theorem Wired.modifyProvider (h : Wired project) {f : Provider → Provider}
    (hstate : ∀ provider, (f provider).state = provider.state) :
    Wired { project with providers := project.providers.modify id f } where
  listener := h.listener
  known other hsession := by
    obtain ⟨provider, hprovider, hlast⟩ := h.known other hsession
    refine ⟨_, getElem?_modify_of_some hprovider, hlast.trans ?_⟩
    split
    · rw [hstate]
    · rfl
  recorded := h.recorded

theorem Wired.emit (h : Wired project) (id : ℕ) (state : ConnectionState) :
    Wired (project.emit id state) := by
  unfold Project.emit
  dsimp only
  split
  · next hlistener =>
    refine handleStatus_wired h.listener (fun other hsession => ?_) h.recorded
    obtain ⟨provider, hprovider, _⟩ := h.known other hsession
    obtain rfl := Option.some.inj (hlistener.symm.trans (h.listener.trans hsession))
    exact ⟨_, getElem?_modify_of_some hprovider, by rw [if_pos rfl]⟩
  · next hlistener =>
    refine ⟨h.listener, fun other hsession => ?_, h.recorded⟩
    obtain ⟨provider, hprovider, hlast⟩ := h.known other hsession
    refine ⟨_, getElem?_modify_of_some hprovider, ?_⟩
    rw [if_neg fun heq : id = other => hlistener (h.listener.trans (heq ▸ hsession))]
    exact hlast

theorem evict_wired : Wired project.evict := by
  obtain ⟨_, _, _, _, _, heq⟩ := stopWatch_frame project
  unfold evict notifyEviction unwireStatus
  rw [heq]
  exact ⟨rfl, nofun, nofun⟩

theorem Wired.openProject (h : Wired project) : Wired (project.openProject loadSpec) := by
  unfold Project.openProject
  split
  · next hsession =>
    refine handleStatus_wired rfl (fun other hother => ?_) fun other hsub => ?_
    · obtain rfl := Option.some.inj hother
      exact ⟨_, List.getElem?_concat_length, rfl⟩
    · exact nomatch (h.watchSub_eq_none hsession).symm.trans hsub
  · exact h

theorem Wired.subscribed (h : Wired project) (hwatch : project.watches[id]? = some watch) :
    Wired (project.subscribed id watch) := by
  unfold Project.subscribed
  split
  · next hsession =>
    refine ⟨h.listener, h.known, fun other hsub => ?_⟩
    obtain rfl := Option.some.inj hsub
    exact ⟨_, getElem?_modify_of_some hwatch, by rw [if_pos rfl]; exact hsession⟩
  · exact h.setWatch id _

theorem Wired.callDisconnect (h : Wired project) (id : ℕ) (reopens : Bool) :
    Wired (project.callDisconnect id reopens) := ⟨h.listener, h.known, h.recorded⟩

theorem Wired.disconnected (h : Wired project) (id : ℕ) (call : DisconnectCall) :
    Wired (project.disconnected loadSpec id call) := by
  have hprovider : Wired { project with
      providers := project.providers.modify call.provider ({ · with connected := false }) } :=
    h.modifyProvider fun _ => rfl
  have hsettled : Wired { project with
      providers := project.providers.modify call.provider ({ · with connected := false })
      disconnects := project.disconnects.eraseIdx id } :=
    ⟨hprovider.listener, hprovider.known, hprovider.recorded⟩
  unfold Project.disconnected
  dsimp only
  split
  · exact hsettled.openProject
  · exact hsettled

/-- Every step keeps the entries of the maps together. -/
theorem Wired.step (h : Wired project) (htakes : Takes loadSpec project label next) :
    Wired next := by
  cases htakes with
  | open_ | reopen => exact h.openProject
  | disconnect => exact h.callDisconnect _ _
  | evict => exact evict_wired.callDisconnect _ _
  | idle => exact h
  | setActiveWorktree => exact h.sameSession (setActiveWorktree_frame _ _)
  | transition | shortCircuitConnected => exact h.emit _ _
  | connected => exact h.modifyProvider fun _ => rfl
  | connectFailed => exact evict_wired.callDisconnect _ _
  | disconnected => exact h.disconnected _ _
  | subscribed hwatch => exact h.subscribed hwatch
  | subscribeFailed | unsubscribed => exact h.setWatch _ _
  | stopped => exact (h.setWatch _ _).sameSession (stopWorktreeWatch_frame _)
  | resume => exact h.sameSession (resumeRequest_frame _)
  | worktreeSubscribed => exact h.sameSession (worktreeSubscribed_frame _)
  | worktreeSubscribeFailed => exact h.sameSession (worktreeSubscribeFailed_frame _)
  | worktreeUnsubscribed => exact h.sameSession ⟨_, _, _, _, rfl⟩

/-! ### Live subscriptions -/

/-- Every step of the manager's watch is timely: a subscription is handed out to another session
than the live one, or to the live one while it is connected and has no watch. -/
def Timely (project : Project) : ProjectStep → Prop
  | .subscribed id => (project.watches[id]?).all fun watch =>
      project.session ≠ some watch.provider ∨
        (project.watchSub = none ∧ (project.providers[watch.provider]?).any fun provider =>
          provider.state = .connected ∨ provider.state = .reconnecting)
  | _ => True

instance (project : Project) : DecidablePred (Timely project) := fun label => by
  cases label <;> dsimp only [Timely] <;> infer_instance

/-- Every subscription that is handed out is recorded or has been unsubscribed. -/
structure WatchesOwned (project : Project) : Prop where
  owned : ∀ (id : ℕ) (watch : Watch), project.watches[id]? = some watch → watch.phase = .live →
    project.watchSub = some id
  atMostOne : ∀ (i j : ℕ) (watch other : Watch), project.watches[i]? = some watch →
    project.watches[j]? = some other → watch.phase = .live → other.phase = .live → i = j
  /-- At rest a project has a watch only if its provider is connected. -/
  connected : Quiescent project → project.watchSub.isSome → ∃ (id : ℕ) (provider : Provider),
    project.session = some id ∧ project.providers[id]? = some provider ∧
      provider.state = .connected

/-- Live subscriptions are recorded, and recorded ones belong to a connected session. -/
structure Owned (project : Project) : Prop where
  live : ∀ (id : ℕ) (watch : Watch), project.watches[id]? = some watch → watch.phase = .live →
    project.watchSub = some id
  connected : project.watchSub.isSome →
    project.lastState = some .connected ∨ project.lastState = some .reconnecting

theorem owned_initial : Owned {} := ⟨nofun, nofun⟩

theorem Owned.setWatch (h : Owned project) (id : ℕ) {phase : WatchPhase} (hphase : phase ≠ .live) :
    Owned (project.setWatch id phase) where
  live other watch hwatch hlive := by
    obtain ⟨old, hold, rfl⟩ := of_getElem?_modify hwatch
    split at hlive
    · exact absurd hlive hphase
    · exact h.live other old hold hlive
  connected := h.connected

/-- After a teardown no subscription is live. -/
theorem stopWatch_owned (hlive : ∀ (id : ℕ) (watch : Watch), project.watches[id]? = some watch →
    watch.phase = .live → project.watchSub = some id) : Owned project.stopWatch := by
  unfold stopWatch
  dsimp only
  split
  · next id hsub =>
    refine ⟨fun other watch hwatch hphase => ?_, nofun⟩
    obtain ⟨old, hold, rfl⟩ := of_getElem?_modify hwatch
    split at hphase
    · exact nomatch hphase
    · next hne =>
      exact absurd (Option.some.inj (hsub.symm.trans (hlive other old hold hphase))) hne
  · next hnone =>
    obtain ⟨_, _, _, _, heq⟩ := stopWorktreeWatch_frame
      ({ project with requested := none } : Project)
    rw [heq]
    refine ⟨hlive, fun hsome => ?_⟩
    rw [show project.watchSub = none from hnone] at hsome
    exact nomatch hsome

theorem Owned.startWatch (h : Owned project) : Owned project.startWatch := by
  unfold Project.startWatch
  split
  · refine ⟨fun other watch hwatch hlive => ?_, h.connected⟩
    rcases of_getElem?_concat hwatch with hold | ⟨_, rfl⟩
    · exact h.live other watch hold hlive
    · exact nomatch hlive
  · exact h

/-- A new status keeps the live subscriptions recorded; a session that attempts to connect has
none. -/
theorem Owned.handleStatus (h : Owned project)
    (hstate : state = .connecting → project.watchSub = none) :
    Owned (project.handleStatus state) := by
  cases state with
  | connected =>
    have hconnected : Owned { project with lastState := some .connected } :=
      ⟨h.live, fun _ => .inl rfl⟩
    unfold Project.handleStatus
    dsimp only
    split
    · exact hconnected
    · exact hconnected.startWatch
  | disconnected | failed => exact stopWatch_owned h.live
  | connecting =>
    have hnone : (project.handleStatus .connecting).watchSub = none := hstate rfl
    refine ⟨h.live, fun hsome => ?_⟩
    rw [hnone] at hsome
    exact nomatch hsome
  | reconnecting => exact ⟨h.live, fun _ => .inr rfl⟩

theorem Owned.evict (h : Owned project) : Owned project.evict := by
  have hstop := stopWatch_owned h.live
  obtain ⟨_, _, _, _, _, heq⟩ := stopWatch_frame project
  unfold Project.evict notifyEviction unwireStatus
  rw [heq] at hstop ⊢
  exact ⟨hstop.live, nofun⟩

theorem Owned.openProject (h : Owned project) (hwired : Wired project) :
    Owned (project.openProject loadSpec) := by
  unfold Project.openProject
  split
  · next hsession =>
    exact Owned.handleStatus ⟨h.live, h.connected⟩ fun _ => hwired.watchSub_eq_none hsession
  · exact h

/-- A transition into `connecting` starts where no session has a watch. -/
theorem Owned.emit (h : Owned project) (hwired : Wired project)
    (hlegal : state = .connecting → ∃ provider, project.providers[id]? = some provider ∧
      isLegal provider.state .connecting = true) : Owned (project.emit id state) := by
  unfold Project.emit
  dsimp only
  split
  · next hlistener =>
    refine Owned.handleStatus ⟨h.live, h.connected⟩ fun hconnecting => ?_
    obtain ⟨provider, hprovider, hedge⟩ := hlegal hconnecting
    obtain ⟨known, hknown, hlast⟩ := hwired.known id (hwired.listener.symm.trans hlistener)
    obtain rfl := Option.some.inj (hprovider.symm.trans hknown)
    refine Option.not_isSome_iff_eq_none.mp fun hsome => ?_
    rcases h.connected hsome with heq | heq <;>
      obtain hstate := Option.some.inj (hlast.symm.trans heq) <;>
      rw [hstate] at hedge <;> exact nomatch hedge
  · exact ⟨h.live, h.connected⟩

theorem Owned.sameSession (h : Owned project) (hsame : SameSession project next) :
    Owned next := by
  obtain ⟨_, _, _, _, rfl⟩ := hsame
  exact ⟨h.live, h.connected⟩

theorem Owned.disconnected (h : Owned project) (hwired : Wired project) (id : ℕ)
    (call : DisconnectCall) : Owned (project.disconnected loadSpec id call) := by
  unfold Project.disconnected
  dsimp only
  split
  · unfold Project.openProject
    split
    · next hsession =>
      exact Owned.handleStatus ⟨h.live, h.connected⟩ fun _ => hwired.watchSub_eq_none hsession
    · exact ⟨h.live, h.connected⟩
  · exact ⟨h.live, h.connected⟩

/-- A subscription is recorded for a session that is connected and has none. -/
theorem Owned.subscribed (h : Owned project) (hwired : Wired project)
    (htimely : project.session = some watch.provider → project.watchSub = none ∧
      ∃ provider, project.providers[watch.provider]? = some provider ∧
        (provider.state = .connected ∨ provider.state = .reconnecting)) :
    Owned (project.subscribed id watch) := by
  unfold Project.subscribed
  split
  · next hsession =>
    obtain ⟨hnone, provider, hprovider, hstate⟩ := htimely hsession
    refine ⟨fun other live hlive hphase => ?_, fun _ => ?_⟩
    · obtain ⟨old, hold, rfl⟩ := of_getElem?_modify hlive
      split at hphase
      · next heq => rw [heq]
      · exact nomatch hnone.symm.trans (h.live other old hold hphase)
    · obtain ⟨known, hknown, hlast⟩ := hwired.known watch.provider hsession
      obtain rfl := Option.some.inj (hprovider.symm.trans hknown)
      exact hstate.imp (fun heq => hlast.trans (by rw [heq])) fun heq => hlast.trans (by rw [heq])
  · exact h.setWatch id nofun

/-- Every timely step leaves no subscription behind. -/
theorem Owned.step (h : Owned project) (hwired : Wired project) (hadmits : Timely project label)
    (htakes : Takes loadSpec project label next) : Owned next := by
  cases htakes with
  | open_ | reopen => exact h.openProject hwired
  | disconnect => exact ⟨h.live, h.connected⟩
  | evict => exact ⟨h.evict.live, h.evict.connected⟩
  | idle => exact h
  | setActiveWorktree => exact h.sameSession (setActiveWorktree_frame _ _)
  | transition hprovider hlegal => exact h.emit hwired fun heq => ⟨_, hprovider, heq ▸ hlegal⟩
  | shortCircuitConnected => exact h.emit hwired nofun
  | connected => exact ⟨h.live, h.connected⟩
  | @connectFailed id =>
    have hevict : Owned (Project.evict { project with
        providers := project.providers.modify id ({ · with connecting := false }) }) :=
      Owned.evict ⟨h.live, h.connected⟩
    exact ⟨hevict.live, hevict.connected⟩
  | disconnected => exact h.disconnected hwired _ _
  | subscribed hwatch =>
    refine h.subscribed hwired fun hsession => ?_
    simpa [Timely, hwatch, hsession, Option.any_eq_true] using hadmits
  | subscribeFailed | unsubscribed => exact h.setWatch _ nofun
  | @stopped id =>
    have hended : Owned (project.setWatch id .unsubscribed) := h.setWatch id nofun
    exact hended.sameSession (stopWorktreeWatch_frame _)
  | resume => exact h.sameSession (resumeRequest_frame _)
  | worktreeSubscribed => exact h.sameSession (worktreeSubscribed_frame _)
  | worktreeSubscribeFailed => exact h.sameSession (worktreeSubscribeFailed_frame _)
  | worktreeUnsubscribed => exact h.sameSession ⟨_, _, _, _, rfl⟩

theorem Owned.watchesOwned (h : Owned project) (hwired : Wired project) :
    WatchesOwned project where
  owned := h.live
  atMostOne i j watch other hwatch hother hlive hlive' :=
    Option.some.inj ((h.live i watch hwatch hlive).symm.trans (h.live j other hother hlive'))
  connected hquiescent hsome := by
    obtain ⟨id, hsub⟩ := Option.isSome_iff_exists.mp hsome
    obtain ⟨watch, _, hsession⟩ := hwired.recorded id hsub
    obtain ⟨provider, hprovider, hlast⟩ := hwired.known watch.provider hsession
    refine ⟨watch.provider, provider, hsession, hprovider, ?_⟩
    rcases h.connected hsome with heq | heq
    · exact Option.some.inj (hlast.symm.trans heq)
    · exact absurd (Option.some.inj (hlast.symm.trans heq))
        (hquiescent.settled watch.provider provider hsession hprovider).2

end Project

open Project

/-- In every run in which subscriptions are handed out in time, every subscription that is handed
out is the recorded one or has been unsubscribed, and at rest a watched project is connected. -/
theorem watches_owned (loadSpec : String → Option ConnectionSpec)
    {labels : List (String × ProjectStep)} {manager : SessionManager}
    (hrun : Run (SessionManager.step loadSpec) (familyAdmits fun _ => Timely) (fun _ => {}) labels
      manager) (projectId : String) : WatchesOwned (manager projectId) := by
  have hpreserved : ∀ (projectId : String) (project : Project) (label : ProjectStep)
      (next : Project), Owned project ∧ Wired project → Timely project label →
        project.step (loadSpec projectId) label = some next → Owned next ∧ Wired next :=
    fun _ _ _ _ hinv hadmits hstep =>
      have htakes := takes_of_step hstep
      ⟨hinv.1.step hinv.2 hadmits htakes, hinv.2.step htakes⟩
  obtain ⟨howned, hwired⟩ :=
    hrun.family_invariant hpreserved (fun _ => ⟨owned_initial, wired_initial⟩) projectId
  exact howned.watchesOwned hwired

/-- A project on a remote host. -/
def remoteSpec : String → Option ConnectionSpec := fun _ => some ⟨.remote, "/srv/repo".toList⟩

/-- The first steps of a remote session, until it subscribes. -/
def connectSteps : List (String × ProjectStep) :=
  [("p", .open_), ("p", .transition 0 .connecting), ("p", .transition 0 .connected),
    ("p", .connected 0)]

/-- A session is replaced while it subscribes, and its subscription is given back. -/
theorem watches_owned_reconnect :
    ∃ manager : SessionManager, Run (SessionManager.step remoteSpec)
        (familyAdmits fun _ => Timely) (fun _ => {})
        (connectSteps ++ [("p", .reconnect), ("p", .disconnected 0), ("p", .subscribed 0),
          ("p", .transition 1 .connecting), ("p", .transition 1 .connected), ("p", .connected 1),
          ("p", .subscribed 1), ("p", .unsubscribed 0)]) manager ∧
      (manager "p").watches.map (·.phase) = [.unsubscribed, .live] ∧
      WatchesOwned (manager "p") := by
  exact exists_run_and_of_replay (by decide +kernel) fun _ hrun => watches_owned remoteSpec hrun "p"

/-- A session whose terminal channel is reattached while it subscribes subscribes twice, and loses
the first subscription. -/
theorem not_watches_owned :
    ¬ ∀ (loadSpec : String → Option ConnectionSpec) (labels : List (String × ProjectStep))
      (manager : SessionManager), Run (SessionManager.step loadSpec) Always (fun _ => {}) labels
        manager → ∀ projectId, WatchesOwned (manager projectId) := by
  intro hall
  have hreplay : (replay (SessionManager.step remoteSpec) Always (fun _ => {})
      (connectSteps ++ [("p", .transition 0 .reconnecting), ("p", .transition 0 .connected),
        ("p", .subscribed 0), ("p", .subscribed 1)])).any
      (fun manager => (manager "p").watches = [⟨0, .live⟩, ⟨0, .live⟩] ∧
        (manager "p").watchSub = some 1) = true := by
    decide +kernel
  obtain ⟨manager, hrun, hwatches, hsub⟩ := exists_run_of_replay hreplay
  have howned := (hall remoteSpec _ manager hrun "p").owned 0 ⟨0, .live⟩
    (by rw [hwatches]; rfl) rfl
  exact nomatch hsub.symm.trans howned

end AgentCockpit.Providers
