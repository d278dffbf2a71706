import AgentCockpit.Providers.SessionWatch

/-!
# Evictions

A provider that leaves `sessions` is disconnected after that, so a connected one is the session's
or about to be disconnected. When its `connect` fails the maps are cleaned up by project, whoever
is in them by then, and when it succeeds late nobody looks: runs in which a connect settles only
while its provider is in `sessions`, or before its disconnect does, evict what they should.
-/

namespace AgentCockpit.Providers

open AgentCockpit.Core

/-- The provider of the subscription of a request. -/
def WorktreeRequest.provider? (request : WorktreeRequest) : Option ℕ :=
  match request.phase with
  | .subscribing provider | .live provider | .unsubscribing provider
  | .unsubscribed provider => some provider
  | .stopping _ | .finished => none

namespace Project

/-- The provider of the recorded worktree watch. -/
def worktreeOwner (project : Project) : Option ℕ :=
  (project.worktreeWatchSub.bind (project.requests[·]?)).bind (·.provider?)

/-- The entries that leave the maps belong to one provider. -/
structure KeepsOthers (id : ℕ) (project next : Project) : Prop where
  session : ∀ other, project.session = some other → other ≠ id → next.session = some other
  statusOff : ∀ other, project.statusOff = some other → other ≠ id → next.statusOff = some other
  watchSub : ∀ sub watch, project.watchSub = some sub → project.watches[sub]? = some watch →
    watch.provider ≠ id → next.watchSub = some sub
  worktreeWatchSub : ∀ sub other, project.worktreeWatchSub = some sub →
    project.worktreeOwner = some other → other ≠ id → next.worktreeWatchSub = some sub

/-- Cleaning up after a provider removes its own entries, the session's listener is wired, and at
rest one provider is connected. -/
structure EvictsOwn (admits : Project → ProjectStep → Prop) (loadSpec : Option ConnectionSpec)
    (project : Project) : Prop where
  failed : ∀ id next, admits project (.connectFailed id) →
    project.step loadSpec (.connectFailed id) = some next → KeepsOthers id project next
  /-- The rest of the cleanup, after the session's watch has ended. -/
  stopped : ∀ id watch next, admits project (.unsubscribed id) →
    project.watches[id]? = some watch → project.step loadSpec (.unsubscribed id) = some next →
      KeepsOthers watch.provider project next
  wired : ∀ id, project.session = some id → project.statusOff = some id
  connected : Quiescent project → ∀ (i j : ℕ) (provider other : Provider),
    project.providers[i]? = some provider → project.providers[j]? = some other →
      provider.connected = true → other.connected = true → i = j

/-- The recorded worktree watch belongs to a provider, if to any. -/
def ownsWorktree (project : Project) (id : ℕ) : Bool := project.worktreeOwner.all (· = id)

/-- A connect fails while its provider is in place, or nobody is; it succeeds before the disconnect
of its provider has settled; and a teardown ends before another provider has a worktree watch. -/
def InPlace (project : Project) : ProjectStep → Prop
  | .connectFailed id => project.session.all (· = id) ∧ project.ownsWorktree id
  | .connected id => project.session = some id ∨ project.disconnects.any (·.provider = id)
  | .unsubscribed id => (project.watches[id]?).all fun watch =>
      watch.phase = .unsubscribing false ∨ project.ownsWorktree watch.provider
  | _ => True

instance (project : Project) : DecidablePred (InPlace project)
  | .connectFailed _ | .connected _ | .unsubscribed _ => by dsimp only [InPlace]; infer_instance
  | .open_ | .disconnect | .reconnect | .close | .setActiveWorktree _ | .transition _ _
  | .shortCircuitConnected _ | .disconnected _ | .subscribed _ | .subscribeFailed _ | .resume _
  | .worktreeSubscribed _ | .worktreeSubscribeFailed _ | .worktreeUnsubscribed _ => isTrue trivial

/-! ### Connected providers -/

/-- A connected provider is in place or about to be disconnected. -/
def Held (project : Project) : Prop :=
  ∀ (id : ℕ) (provider : Provider), project.providers[id]? = some provider →
    provider.connected = true →
      project.session = some id ∨ ∃ call ∈ project.disconnects, call.provider = id

variable {loadSpec : Option ConnectionSpec} {project next : Project} {id : ℕ}
  {state : ConnectionState} {label : ProjectStep} {watch : Watch}

theorem held_initial : Held {} := nofun

/-- A status leaves the providers, the session and the disconnects alone. -/
theorem handleStatus_frame : (project.handleStatus state).providers = project.providers ∧
    (project.handleStatus state).session = project.session ∧
      (project.handleStatus state).disconnects = project.disconnects := by
  have hstop : ∀ project : Project, project.stopWatch.providers = project.providers ∧
      project.stopWatch.session = project.session ∧
        project.stopWatch.disconnects = project.disconnects := fun project => by
    obtain ⟨_, _, _, _, _, heq⟩ := stopWatch_frame project
    rw [heq]
    exact ⟨rfl, rfl, rfl⟩
  cases state with
  | connected =>
    unfold handleStatus startWatch
    dsimp only
    split
    · exact ⟨rfl, rfl, rfl⟩
    · split
      · exact ⟨rfl, rfl, rfl⟩
      · exact ⟨rfl, rfl, rfl⟩
  | disconnected | failed => exact hstop { project with lastState := some _ }
  | connecting | reconnecting => exact ⟨rfl, rfl, rfl⟩

theorem Held.congr (h : Held project) (hproviders : next.providers = project.providers)
    (hsession : next.session = project.session)
    (hdisconnects : next.disconnects = project.disconnects) : Held next := by
  intro id provider hprovider hconnected
  rw [hsession, hdisconnects]
  exact h id provider (hproviders ▸ hprovider) hconnected

theorem Held.handleStatus (h : Held project) (state : ConnectionState) :
    Held (project.handleStatus state) :=
  h.congr handleStatus_frame.1 handleStatus_frame.2.1 handleStatus_frame.2.2

theorem Held.sameSession (h : Held project) (hsame : SameSession project next) : Held next := by
  obtain ⟨_, _, _, _, rfl⟩ := hsame
  exact h

/-- A provider changes, and is not connected by that unless it is held. -/
theorem Held.modifyProvider (h : Held project) {f : Provider → Provider}
    (hheld : ∀ provider, (f provider).connected = true → provider.connected = false →
      project.session = some id ∨ ∃ call ∈ project.disconnects, call.provider = id) :
    Held { project with providers := project.providers.modify id f } := by
  intro other provider hprovider hconnected
  obtain ⟨old, hold, rfl⟩ := of_getElem?_modify hprovider
  by_cases holdConnected : old.connected = true
  · exact h other old hold holdConnected
  · split at hconnected
    · next heq =>
      subst heq
      exact hheld old hconnected ((Bool.not_eq_true _).mp holdConnected)
    · exact absurd hconnected holdConnected

theorem Held.emit (h : Held project) (id : ℕ) (state : ConnectionState) :
    Held (project.emit id state) := by
  have hprovider : Held { project with
      providers := project.providers.modify id ({ · with state }) } :=
    h.modifyProvider fun provider hconnected hnot => nomatch hnot.symm.trans hconnected
  unfold Project.emit
  dsimp only
  split
  · exact hprovider.handleStatus state
  · exact hprovider

theorem Held.openProject (h : Held project) : Held (project.openProject loadSpec) := by
  unfold Project.openProject
  split
  · next spec hsession =>
    refine Held.handleStatus (fun id provider hprovider hconnected => ?_) _
    rcases of_getElem?_concat hprovider with hold | ⟨_, rfl⟩
    · rcases h id provider hold hconnected with hsome | hcall
      · exact nomatch hsession.symm.trans hsome
      · exact .inr hcall
    · unfold Provider.create at hconnected
      split at hconnected <;> exact nomatch hconnected
  · exact h

/-- The session leaves the maps, and a disconnect of its provider is under way. -/
theorem Held.evict (h : Held project)
    (hsession : ∀ other, project.session = some other → other = id)
    (reopens : Bool) : Held (project.evict.callDisconnect id reopens) := by
  obtain ⟨_, _, _, _, _, heq⟩ := stopWatch_frame project
  unfold Project.evict notifyEviction unwireStatus callDisconnect
  rw [heq]
  intro other provider hprovider hconnected
  refine .inr ?_
  rcases h other provider hprovider hconnected with hsome | ⟨call, hcall, heq⟩
  · obtain rfl := hsession other hsome
    exact ⟨⟨other, reopens⟩, by simp, rfl⟩
  · exact ⟨call, List.mem_append_left _ hcall, heq⟩

theorem Held.disconnected (h : Held project) {call : DisconnectCall}
    (hcall : project.disconnects[id]? = some call) :
    Held (project.disconnected loadSpec id call) := by
  have hsettled : Held { project with
      providers := project.providers.modify call.provider ({ · with connected := false })
      disconnects := project.disconnects.eraseIdx id } := by
    intro other provider hprovider hconnected
    obtain ⟨old, hold, rfl⟩ := of_getElem?_modify hprovider
    split at hconnected
    · exact nomatch hconnected
    · next hne =>
      refine (h other old hold hconnected).imp_right fun ⟨rest, hrest, heq⟩ => ?_
      obtain ⟨i, hi⟩ := List.mem_iff_getElem?.mp hrest
      refine ⟨rest, List.mem_eraseIdx_iff_getElem?.mpr ⟨i, ?_, hi⟩, heq⟩
      rintro rfl
      obtain rfl := Option.some.inj (hcall.symm.trans hi)
      exact hne heq
  unfold Project.disconnected
  dsimp only
  split
  · exact hsettled.openProject
  · exact hsettled

/-- Every step in place keeps the connected providers held. -/
theorem Held.step (h : Held project) (hadmits : InPlace project label)
    (htakes : Takes loadSpec project label next) : Held next := by
  cases htakes with
  | open_ | reopen => exact h.openProject
  | disconnect =>
    intro other provider hprovider hconnected
    refine (h other provider hprovider hconnected).imp_right fun ⟨call, hcall, heq⟩ => ?_
    exact ⟨call, List.mem_append_left _ hcall, heq⟩
  | evict reopens _ hsession =>
    exact h.evict (fun other hother => Option.some.inj (hother.symm.trans hsession)) reopens
  | idle => exact h
  | setActiveWorktree => exact h.sameSession (setActiveWorktree_frame _ _)
  | transition | shortCircuitConnected => exact h.emit _ _
  | @connected id =>
    refine h.modifyProvider fun _ _ _ => ?_
    simpa [InPlace] using hadmits
  | @connectFailed id =>
    have hprovider : Held { project with
        providers := project.providers.modify id ({ · with connecting := false }) } :=
      h.modifyProvider fun provider hconnected hnot => nomatch hnot.symm.trans hconnected
    refine hprovider.evict (fun other hother => ?_) false
    have hplace := hadmits.1
    rw [show project.session = some other from hother] at hplace
    simpa using hplace
  | disconnected hcall => exact h.disconnected hcall
  | subscribed =>
    unfold Project.subscribed
    split
    · exact h
    · exact h
  | subscribeFailed | unsubscribed => exact h
  | @stopped id =>
    have hended : Held (project.setWatch id .unsubscribed) := h
    exact hended.sameSession (stopWorktreeWatch_frame _)
  | resume => exact h.sameSession (resumeRequest_frame _)
  | worktreeSubscribed => exact h.sameSession (worktreeSubscribed_frame _)
  | worktreeSubscribeFailed => exact h.sameSession (worktreeSubscribeFailed_frame _)
  | worktreeUnsubscribed => exact h

/-! ### What leaves the maps -/

theorem ownsWorktree_eq {other : ℕ} (h : project.ownsWorktree id = true)
    (howner : project.worktreeOwner = some other) : other = id := by
  unfold ownsWorktree at h
  rw [howner] at h
  simpa using h

/-- The provider of a failed connect is in place, so every entry that leaves is its own. -/
theorem keepsOthers_of_connectFailed (hwired : Wired project)
    (hsession : project.session.all (· = id) = true) (hworktree : project.ownsWorktree id = true) :
    KeepsOthers id project next := by
  have hown : ∀ other, project.session = some other → other = id := fun other hother => by
    rw [hother] at hsession
    simpa using hsession
  refine ⟨fun other hother hne => absurd (hown other hother) hne,
    fun other hother hne => absurd (hown other (hwired.listener ▸ hother)) hne,
    fun sub watch hsub hwatch hne => ?_,
    fun sub other _ howner hne => absurd (ownsWorktree_eq hworktree howner) hne⟩
  obtain ⟨recorded, hrecorded, hprovider⟩ := hwired.recorded sub hsub
  obtain rfl := Option.some.inj (hwatch.symm.trans hrecorded)
  exact absurd (hown watch.provider hprovider) hne

/-- The rest of a teardown leaves the session alone, and removes the worktree watch of its
provider. -/
theorem keepsOthers_of_unsubscribed (hadmits : InPlace project (.unsubscribed id))
    (hwatch : project.watches[id]? = some watch)
    (htakes : Takes loadSpec project (.unsubscribed id) next) :
    KeepsOthers watch.provider project next := by
  cases htakes with
  | evict _ hlabel | idle hlabel => exact hlabel.elim nofun nofun
  | unsubscribed => exact ⟨fun _ h _ => h, fun _ h _ => h, fun _ _ h _ _ => h, fun _ _ h _ _ => h⟩
  | stopped hsome hphase =>
    obtain rfl := Option.some.inj (hwatch.symm.trans hsome)
    have hown : project.ownsWorktree watch.provider = true := by
      simpa [InPlace, hwatch, hphase] using hadmits
    obtain ⟨_, _, _, _, heq⟩ := stopWorktreeWatch_frame (project.setWatch id .unsubscribed)
    rw [heq]
    exact ⟨fun _ h _ => h, fun _ h _ => h, fun _ _ h _ _ => h,
      fun _ _ _ howner hne => absurd (ownsWorktree_eq hown howner) hne⟩

theorem Held.evictsOwn (h : Held project) (hwired : Wired project) :
    EvictsOwn InPlace loadSpec project where
  failed id next hadmits _ := keepsOthers_of_connectFailed hwired hadmits.1 hadmits.2
  stopped id watch next hadmits hwatch hstep :=
    keepsOthers_of_unsubscribed hadmits hwatch (takes_of_step hstep)
  wired id hsession := hwired.listener.trans hsession
  connected hquiescent i j provider other hprovider hother hconnected hconnected' := by
    have hsession : ∀ (i : ℕ) (provider : Provider), project.providers[i]? = some provider →
        provider.connected = true → project.session = some i := by
      intro i provider hprovider hconnected
      refine (h i provider hprovider hconnected).resolve_right fun ⟨call, hcall, _⟩ => ?_
      rw [hquiescent.disconnects] at hcall
      exact List.not_mem_nil hcall
    exact Option.some.inj ((hsession i provider hprovider hconnected).symm.trans
      (hsession j other hother hconnected'))

end Project

open Project

/-- In every run in which connects settle while their providers are in place, cleaning up after a
failed connect removes the entries of its own provider, sessions have their listeners wired, and at
rest one provider of a project is connected. -/
theorem failed_connect_evicts_own (loadSpec : String → Option ConnectionSpec)
    {labels : List (String × ProjectStep)} {manager : SessionManager}
    (hrun : Run (SessionManager.step loadSpec) (familyAdmits fun _ => InPlace) (fun _ => {}) labels
      manager) (projectId : String) :
    EvictsOwn InPlace (loadSpec projectId) (manager projectId) := by
  have hpreserved : ∀ (projectId : String) (project : Project) (label : ProjectStep)
      (next : Project), Held project ∧ Wired project → InPlace project label →
        project.step (loadSpec projectId) label = some next → Held next ∧ Wired next :=
    fun _ _ _ _ hinv hadmits hstep =>
      have htakes := takes_of_step hstep
      ⟨hinv.1.step hadmits htakes, hinv.2.step htakes⟩
  obtain ⟨hheld, hwired⟩ :=
    hrun.family_invariant hpreserved (fun _ => ⟨held_initial, wired_initial⟩) projectId
  exact hheld.evictsOwn hwired

/-- A connect fails after a close, another one before its provider is disconnected, and the next
session is the connected one. -/
theorem failed_connect_evicts_own_retry :
    ∃ manager : SessionManager, Run (SessionManager.step remoteSpec)
        (familyAdmits fun _ => InPlace) (fun _ => {})
        [("p", .open_), ("p", .close), ("p", .connectFailed 0), ("p", .open_), ("p", .reconnect),
          ("p", .connected 1), ("p", .disconnected 2), ("p", .connected 2), ("p", .disconnected 0),
          ("p", .disconnected 0)] manager ∧
      (manager "p").session = some 2 ∧
      EvictsOwn InPlace (remoteSpec "p") (manager "p") := by
  exact exists_run_and_of_replay (by decide +kernel)
    fun _ hrun => failed_connect_evicts_own remoteSpec hrun "p"

/-- The connect of a provider fails after a reconnect has installed the next one, which is
connected: it leaves the maps. -/
theorem not_failed_connect_evicts_own :
    ¬ ∀ (loadSpec : String → Option ConnectionSpec) (labels : List (String × ProjectStep))
      (manager : SessionManager), Run (SessionManager.step loadSpec) Always (fun _ => {}) labels
        manager → ∀ projectId, EvictsOwn Always (loadSpec projectId) (manager projectId) := by
  intro hall
  have hreplay : (replay (SessionManager.step remoteSpec) Always (fun _ => {})
      [("p", .open_), ("p", .reconnect), ("p", .disconnected 0), ("p", .transition 1 .connecting),
        ("p", .transition 1 .connected), ("p", .connected 1)]).any
      (fun manager => (manager "p").session = some 1 ∧
        ((manager "p").step (remoteSpec "p") (.connectFailed 0)).any (·.session = none)) =
          true := by
    decide +kernel
  obtain ⟨manager, hrun, hsession, hevicted⟩ := exists_run_of_replay hreplay
  obtain ⟨next, hstep, hnone⟩ := (Option.any_eq_true _ _).mp hevicted
  have hevicts := hall remoteSpec _ manager hrun "p"
  have hkeeps := hevicts.failed 0 next trivial hstep
  have hkept := hkeeps.session 1 hsession (by decide)
  exact nomatch hkept.symm.trans (of_decide_eq_true hnone)

end AgentCockpit.Providers
