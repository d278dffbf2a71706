import AgentCockpit.Providers.SessionWatch

/-!
# The watch on the active worktree

Each call of `setActiveWorktree` that changes the target takes a number, gives the recorded watch
back, and subscribes; its subscription is recorded only under the latest number. The check for the
same target reads the recorded watch, though, and not the call that is about to record another one;
the numbers start again after an eviction; and the second half of a teardown stops whatever is
recorded by then. Runs without these overlaps record the watch of the last target.
-/

namespace AgentCockpit.Providers

open AgentCockpit.Core

namespace Project

/-- The call has not ended, and its session is the live one. -/
def isPending (project : Project) (request : WorktreeRequest) : Bool :=
  match request.phase with
  | .stopping _ => true
  | .subscribing provider => project.session = some provider
  | _ => false

/-- The call will record its subscription, if it makes one. -/
def Current (project : Project) (request : WorktreeRequest) : Prop :=
  project.isPending request = true ∧ project.worktreeWatchSeq = some request.seq

/-- No call of `setActiveWorktree` is in flight, and no teardown has only begun. -/
structure WorktreeAtRest (project : Project) : Prop where
  requests : ∀ request ∈ project.requests, (∀ former, request.phase ≠ .stopping former) ∧
    ∀ provider, request.phase ≠ .subscribing provider
  teardowns : ∀ watch ∈ project.watches, watch.phase ≠ .unsubscribing true

/-- At rest a live session has a watch on its last target, if that is external, and no other. -/
structure Converged (loadSpec : Option ConnectionSpec) (project : Project) : Prop where
  watched : ∀ target, project.requested = some target → WorktreeAtRest project →
    isExternalTarget loadSpec target = true → ∃ (id : ℕ) (request : WorktreeRequest) (owner : ℕ),
      project.worktreeWatchSub = some id ∧ project.requests[id]? = some request ∧
        request.target = target ∧ request.phase = .live owner ∧ project.session = some owner
  unwatched : ∀ target, project.requested = some target → WorktreeAtRest project →
    isExternalTarget loadSpec target = false → project.worktreeWatchSub = none
  /-- Every other subscription that was handed out has been given back. -/
  owned : ∀ (id owner : ℕ) (request : WorktreeRequest), project.requests[id]? = some request →
    request.phase = .live owner → project.worktreeWatchSub = some id

/-- A target that is watched already is not requested over a call that will record another one, a
new call does not get the number of one before an eviction, and a teardown does not end after the
next target was requested and is watched. -/
def Orderly (loadSpec : Option ConnectionSpec) (project : Project) : ProjectStep → Prop
  | .setActiveWorktree worktreePath => ∀ request ∈ project.requests, project.isPending request →
      if project.worktreePath = normalizeTarget worktreePath then
        project.worktreeWatchSeq ≠ some request.seq ∨
          isExternalTarget loadSpec request.target = false
      else request.seq ≠ project.nextSeq
  | .unsubscribed id => (project.watches[id]?).all fun watch =>
      watch.phase = .unsubscribing false ∨ project.requested = none ∨
        project.worktreeWatchSub = none
  | _ => True

instance (loadSpec : Option ConnectionSpec) (project : Project) :
    DecidablePred (Orderly loadSpec project)
  | .setActiveWorktree _ | .unsubscribed _ => by dsimp only [Orderly]; infer_instance
  | .open_ | .disconnect | .reconnect | .close | .transition _ _ | .shortCircuitConnected _
  | .connected _ | .connectFailed _ | .disconnected _ | .subscribed _ | .subscribeFailed _
  | .resume _ | .worktreeSubscribed _ | .worktreeSubscribeFailed _ | .worktreeUnsubscribed _ =>
    isTrue trivial

/-! ### Invariant -/

/-- The watch on a worktree is stopped when the first half of a teardown has ended. -/
def TearingDown (project : Project) : Prop :=
  ∃ watch ∈ project.watches, watch.phase = .unsubscribing true

/-- One call is current, and what is recorded is what the earlier ones have left. -/
structure Tracked (loadSpec : Option ConnectionSpec) (project : Project) : Prop where
  subscribing : ∀ (id owner : ℕ) (request : WorktreeRequest),
    project.requests[id]? = some request → request.phase = .subscribing owner →
      owner < project.providers.length ∧ isExternalTarget loadSpec request.target = true
  unique : ∀ (i j : ℕ) (request other : WorktreeRequest), project.requests[i]? = some request →
    project.requests[j]? = some other → project.Current request → project.Current other → i = j
  empty : ∀ (id : ℕ) (request : WorktreeRequest), project.requests[id]? = some request →
    project.Current request → project.worktreeWatchSub = none
  recorded : ∀ id, project.worktreeWatchSub = some id → ∃ request owner,
    project.requests[id]? = some request ∧ request.phase = .live owner ∧
      isExternalTarget loadSpec request.target = true ∧
        (project.session = some owner ∨ project.TearingDown)
  owned : ∀ (id owner : ℕ) (request : WorktreeRequest), project.requests[id]? = some request →
    request.phase = .live owner → project.worktreeWatchSub = some id
  live : ∀ target, project.requested = some target → project.session.isSome
  served : ∀ target, project.requested = some target →
    (∃ (id : ℕ) (request : WorktreeRequest), project.requests[id]? = some request ∧
      project.Current request ∧ request.target = target) ∨
    (∀ (id : ℕ) (request : WorktreeRequest), project.requests[id]? = some request →
      project.Current request → isExternalTarget loadSpec request.target = false) ∧
    project.worktreePath = if isExternalTarget loadSpec target then target else none

variable {loadSpec : Option ConnectionSpec} {project next : Project} {id owner : ℕ}
  {state : ConnectionState} {label : ProjectStep} {request : WorktreeRequest}

theorem tracked_initial : Tracked loadSpec {} where
  subscribing _ _ _ h := nomatch h
  unique _ _ _ _ h := nomatch h
  empty _ _ h := nomatch h
  recorded _ h := nomatch h
  owned _ _ _ h := nomatch h
  live _ h := nomatch h
  served _ h := nomatch h

/-- Current calls depend on the session and the number. -/
theorem current_congr (hsession : next.session = project.session)
    (hseq : next.worktreeWatchSeq = project.worktreeWatchSeq) :
    next.Current request ↔ project.Current request := by
  unfold Current isPending
  rw [hsession, hseq]

/-- A change elsewhere: nothing that concerns worktrees is touched, and no teardown is lost. -/
theorem Tracked.elsewhere (h : Tracked loadSpec project)
    (hproviders : project.providers.length ≤ next.providers.length)
    (hsession : next.session = project.session)
    (hrequests : next.requests = project.requests)
    (hsub : next.worktreeWatchSub = project.worktreeWatchSub)
    (hseq : next.worktreeWatchSeq = project.worktreeWatchSeq)
    (hrequested : ∀ target, next.requested = some target → project.requested = some target)
    (hteardown : project.TearingDown → next.TearingDown) : Tracked loadSpec next where
  subscribing id owner request hrequest hphase := by
    obtain ⟨hlt, hexternal⟩ := h.subscribing id owner request (hrequests ▸ hrequest) hphase
    exact ⟨hlt.trans_le hproviders, hexternal⟩
  unique i j request other hrequest hother hcurrent hcurrent' :=
    h.unique i j request other (hrequests ▸ hrequest) (hrequests ▸ hother)
      ((current_congr hsession hseq).mp hcurrent) ((current_congr hsession hseq).mp hcurrent')
  empty id request hrequest hcurrent := hsub.trans
    (h.empty id request (hrequests ▸ hrequest) ((current_congr hsession hseq).mp hcurrent))
  recorded id hid := by
    obtain ⟨request, owner, hrequest, hphase, hexternal, hor⟩ := h.recorded id (hsub ▸ hid)
    exact ⟨request, owner, hrequests ▸ hrequest, hphase, hexternal,
      hor.imp hsession.trans hteardown⟩
  owned id owner request hrequest hphase :=
    hsub.trans (h.owned id owner request (hrequests ▸ hrequest) hphase)
  live target htarget := by
    rw [hsession]
    exact h.live target (hrequested target htarget)
  served target htarget := by
    have hpath : next.worktreePath = project.worktreePath := by
      unfold worktreePath
      rw [hsub, hrequests]
    rcases h.served target (hrequested target htarget) with
      ⟨id, request, hrequest, hcurrent, htarget'⟩ | ⟨hnone, heq⟩
    · exact .inl ⟨id, request, hrequests ▸ hrequest, (current_congr hsession hseq).mpr hcurrent,
        htarget'⟩
    · refine .inr ⟨fun id request hrequest hcurrent => ?_, hpath.trans heq⟩
      exact hnone id request (hrequests ▸ hrequest) ((current_congr hsession hseq).mp hcurrent)

/-! ### Teardowns -/

theorem unsubscribeWorktree_seq : (unsubscribeWorktree request).seq = request.seq := by
  unfold unsubscribeWorktree
  split <;> rfl

theorem unsubscribeWorktree_target : (unsubscribeWorktree request).target = request.target := by
  unfold unsubscribeWorktree
  split <;> rfl

theorem unsubscribeWorktree_ne_live : (unsubscribeWorktree request).phase ≠ .live owner := by
  unfold unsubscribeWorktree
  split
  · exact nofun
  · next hne => exact hne owner

theorem unsubscribeWorktree_subscribing
    (h : (unsubscribeWorktree request).phase = .subscribing owner) :
    request.phase = .subscribing owner := by
  unfold unsubscribeWorktree at h
  split at h
  · exact nomatch h
  · exact h

theorem isPending_unsubscribeWorktree :
    project.isPending (unsubscribeWorktree request) = project.isPending request := by
  unfold isPending unsubscribeWorktree
  cases hphase : request.phase <;> simp [hphase]

theorem current_unsubscribeWorktree :
    project.Current (unsubscribeWorktree request) ↔ project.Current request := by
  unfold Current
  rw [isPending_unsubscribeWorktree, unsubscribeWorktree_seq]

/-- A call after the recorded watch is stopped is one from before it, perhaps with its
subscription given back. -/
theorem of_getElem?_stopWorktreeWatch
    (h : project.stopWorktreeWatch.requests[id]? = some request) :
    ∃ old, project.requests[id]? = some old ∧
      request = if project.worktreeWatchSub = some id then unsubscribeWorktree old else old := by
  rw [stopWorktreeWatch_requests] at h
  split at h
  · next recorded hsub =>
    obtain ⟨old, hold, rfl⟩ := of_getElem?_modify h
    refine ⟨old, hold, ?_⟩
    rw [hsub]
    simp only [Option.some.injEq]
  · next hnone =>
    refine ⟨request, h, ?_⟩
    rw [hnone, if_neg nofun]

/-- The recorded watch is given back, if nobody has asked for it since. -/
theorem Tracked.release (h : Tracked loadSpec project)
    (hproviders : project.providers.length ≤ next.providers.length)
    (hsession : next.session = project.session)
    (hrequests : next.requests = project.stopWorktreeWatch.requests)
    (hsub : next.worktreeWatchSub = none)
    (hseq : next.worktreeWatchSeq = project.worktreeWatchSeq)
    (hrequested : next.requested = none ∨
      next.requested = project.requested ∧ project.worktreeWatchSub = none) :
    Tracked loadSpec next := by
  have hback : ∀ (id : ℕ) (request : WorktreeRequest), next.requests[id]? = some request →
      ∃ old, project.requests[id]? = some old ∧ request.target = old.target ∧
        (next.Current request ↔ project.Current old) ∧
        (∀ owner, request.phase = .subscribing owner → old.phase = .subscribing owner) ∧
        ∀ owner, request.phase ≠ .live owner := by
    intro id request hrequest
    -- the recorded call is told to end, and no other call is live
    obtain ⟨old, hold, heq⟩ := of_getElem?_stopWorktreeWatch (hrequests ▸ hrequest)
    refine ⟨old, hold, ?_⟩
    split at heq
    · subst heq
      exact ⟨unsubscribeWorktree_target,
        (current_congr hsession hseq).trans current_unsubscribeWorktree,
        fun _ => unsubscribeWorktree_subscribing, fun _ => unsubscribeWorktree_ne_live⟩
    · next hne =>
      subst heq
      exact ⟨rfl, current_congr hsession hseq, fun _ hphase => hphase,
        fun owner hphase => hne (h.owned id owner request hold hphase)⟩
  refine ⟨fun id owner request hrequest hphase => ?_,
    fun i j request other hrequest hother hcurrent hcurrent' => ?_, fun _ _ _ _ => hsub,
    fun id hid => (nomatch hsub.symm.trans hid), fun id owner request hrequest hphase => ?_,
    fun target htarget => ?_, fun target htarget => ?_⟩
  · obtain ⟨old, hold, htarget, _, hphase', _⟩ := hback id request hrequest
    obtain ⟨hlt, hexternal⟩ := h.subscribing id owner old hold (hphase' owner hphase)
    exact ⟨hlt.trans_le hproviders, htarget ▸ hexternal⟩
  · obtain ⟨old, hold, _, hiff, _⟩ := hback i request hrequest
    obtain ⟨old', hold', _, hiff', _⟩ := hback j other hother
    exact h.unique i j old old' hold hold' (hiff.mp hcurrent) (hiff'.mp hcurrent')
  · obtain ⟨_, _, _, _, _, hne⟩ := hback id request hrequest
    exact absurd hphase (hne owner)
  · rcases hrequested with hnone | ⟨hsame, _⟩
    · exact nomatch hnone.symm.trans htarget
    · rw [hsession]
      exact h.live target (hsame ▸ htarget)
  · rcases hrequested with hnone | ⟨hsame, hempty⟩
    · exact nomatch hnone.symm.trans htarget
    have hpath : next.worktreePath = project.worktreePath := by
      unfold worktreePath
      rw [hsub, hempty]
      rfl
    have hkept : next.requests = project.requests := by
      rw [hrequests, stopWorktreeWatch_requests, hempty]
    rcases h.served target (hsame ▸ htarget) with ⟨id, request, hrequest, hcurrent, htarget'⟩ |
      ⟨hnone, heq⟩
    · exact .inl ⟨id, request, hkept ▸ hrequest, (current_congr hsession hseq).mpr hcurrent,
        htarget'⟩
    · refine .inr ⟨fun id request hrequest hcurrent => ?_, hpath.trans heq⟩
      exact hnone id request (hkept ▸ hrequest) ((current_congr hsession hseq).mp hcurrent)

theorem TearingDown.setWatch (h : project.TearingDown) (id : ℕ) {phase : WatchPhase}
    (hphase : phase = .unsubscribing true ∨ ∀ watch, project.watches[id]? = some watch →
      watch.phase ≠ .unsubscribing true) : (project.setWatch id phase).TearingDown := by
  obtain ⟨watch, hwatch, hteardown⟩ := h
  obtain ⟨i, hi⟩ := List.mem_iff_getElem?.mp hwatch
  refine ⟨_, List.mem_iff_getElem?.mpr ⟨i, getElem?_modify_of_some hi⟩, ?_⟩
  split
  · next heq =>
    rcases hphase with heq' | hne
    · exact heq'
    · exact absurd hteardown (hne watch (heq ▸ hi))
  · exact hteardown

/-- A teardown withdraws the target, and stops the watch on it at once or after the other one. -/
theorem Tracked.stopWatch (h : Tracked loadSpec project) : Tracked loadSpec project.stopWatch := by
  unfold Project.stopWatch
  dsimp only
  split
  · next id _ =>
    exact h.elsewhere le_rfl rfl rfl rfl rfl nofun fun hteardown => hteardown.setWatch id (.inl rfl)
  · rw [stopWorktreeWatch_eq]
    refine h.release le_rfl rfl ?_ rfl rfl (.inl rfl)
    rw [stopWorktreeWatch_requests, stopWorktreeWatch_requests]

theorem stopWatch_requested : project.stopWatch.requested = none := by
  unfold stopWatch
  dsimp only
  split
  · rfl
  · rw [stopWorktreeWatch_eq]

/-- A teardown has stopped the watch on the worktree or is about to. -/
theorem stopWatch_worktreeWatchSub (hwired : Wired project) :
    project.stopWatch.worktreeWatchSub = none ∨ project.stopWatch.TearingDown := by
  unfold stopWatch
  dsimp only
  split
  · next id hsub =>
    obtain ⟨watch, hwatch, _⟩ := hwired.recorded id hsub
    exact .inr ⟨_, List.mem_iff_getElem?.mpr ⟨id, getElem?_modify_of_some hwatch⟩,
      by rw [if_pos rfl]⟩
  · rw [stopWorktreeWatch_eq]
    exact .inl rfl

/-- After an eviction no call is current. -/
theorem Tracked.evict (h : Tracked loadSpec project) (hwired : Wired project) :
    Tracked loadSpec project.evict := by
  have hstop := h.stopWatch
  have hteardown := stopWatch_worktreeWatchSub hwired
  have hrequested : project.stopWatch.requested = none := stopWatch_requested
  unfold Project.evict notifyEviction unwireStatus
  refine ⟨hstop.subscribing, fun _ _ _ _ _ _ hcurrent => (nomatch hcurrent.2),
    fun _ _ _ hcurrent => (nomatch hcurrent.2), fun id hid => ?_, hstop.owned,
    fun target htarget => (nomatch hrequested.symm.trans htarget),
    fun target htarget => (nomatch hrequested.symm.trans htarget)⟩
  obtain ⟨request, owner, hrequest, hphase, hexternal, _⟩ := hstop.recorded id hid
  exact ⟨request, owner, hrequest, hphase, hexternal,
    .inr (hteardown.resolve_left fun hnone => nomatch hnone.symm.trans hid)⟩

/-! ### Statuses and sessions -/

theorem Tracked.handleStatus (h : Tracked loadSpec project) (state : ConnectionState) :
    Tracked loadSpec (project.handleStatus state) := by
  have hstate : Tracked loadSpec { project with lastState := some state } :=
    h.elsewhere le_rfl rfl rfl rfl rfl (fun _ htarget => htarget) fun hteardown => hteardown
  cases state with
  | connected =>
    unfold Project.handleStatus startWatch
    dsimp only
    split
    · exact hstate
    · split
      · refine hstate.elsewhere le_rfl rfl rfl rfl rfl (fun _ htarget => htarget) ?_
        rintro ⟨watch, hwatch, hphase⟩
        exact ⟨watch, List.mem_append_left _ hwatch, hphase⟩
      · exact hstate
  | disconnected | failed => exact hstate.stopWatch
  | connecting | reconnecting => exact hstate

theorem Tracked.modifyProvider (h : Tracked loadSpec project) (f : Provider → Provider) :
    Tracked loadSpec { project with providers := project.providers.modify id f } :=
  h.elsewhere (List.length_modify f project.providers id).ge rfl rfl rfl rfl
    (fun _ htarget => htarget)
    fun hteardown => hteardown

theorem Tracked.emit (h : Tracked loadSpec project) (id : ℕ) (state : ConnectionState) :
    Tracked loadSpec (project.emit id state) := by
  unfold Project.emit
  dsimp only
  split
  · exact (h.modifyProvider _).handleStatus state
  · exact h.modifyProvider _

/-- The calls that are current in a new session were so before it. -/
theorem Tracked.openProject (h : Tracked loadSpec project) :
    Tracked loadSpec (project.openProject loadSpec) := by
  unfold Project.openProject
  split
  · next spec hsession =>
    refine Tracked.handleStatus ?_ _
    have hcurrent : ∀ (id : ℕ) (request : WorktreeRequest), project.requests[id]? = some request →
        Current { project with
          providers := project.providers ++ [Provider.create spec.kind]
          session := some project.providers.length
          statusOff := some project.providers.length } request → project.Current request := by
      intro id request hrequest ⟨hpending, hseq⟩
      refine ⟨?_, hseq⟩
      revert hpending
      unfold isPending
      cases hphase : request.phase with
      | subscribing owner =>
        intro hpending
        have hlt := (h.subscribing id owner request hrequest hphase).1
        have heq : project.providers.length = owner := by simpa using hpending
        exact absurd heq.symm hlt.ne
      | stopping | live | unsubscribing | unsubscribed | finished =>
        exact fun hpending => hpending
    have hrequested : project.requested = none := Option.eq_none_iff_forall_ne_some.mpr
      fun target htarget => by
        have hsome := h.live target htarget
        rw [hsession] at hsome
        exact nomatch hsome
    refine ⟨fun id owner request hrequest hphase => ?_,
      fun i j request other hrequest hother hcur hcur' => ?_,
      fun id request hrequest hcur => ?_, fun id hid => ?_, h.owned,
      fun target htarget => (nomatch hrequested.symm.trans htarget),
      fun target htarget => (nomatch hrequested.symm.trans htarget)⟩
    · obtain ⟨hlt, hexternal⟩ := h.subscribing id owner request hrequest hphase
      refine ⟨?_, hexternal⟩
      rw [List.length_append]
      exact hlt.trans_le (Nat.le_add_right _ _)
    · exact h.unique i j request other hrequest hother (hcurrent i request hrequest hcur)
        (hcurrent j other hother hcur')
    · exact h.empty id request hrequest (hcurrent id request hrequest hcur)
    · obtain ⟨request, owner, hrequest, hphase, hexternal, hor⟩ := h.recorded id hid
      refine ⟨request, owner, hrequest, hphase, hexternal, .inr (hor.resolve_left ?_)⟩
      exact fun hsome => nomatch hsession.symm.trans hsome
  · exact h

theorem Tracked.disconnected (h : Tracked loadSpec project) (id : ℕ) (call : DisconnectCall) :
    Tracked loadSpec (project.disconnected loadSpec id call) := by
  have hprovider : Tracked loadSpec { project with
      providers := project.providers.modify call.provider ({ · with connected := false }) } :=
    h.modifyProvider _
  have hsettled : Tracked loadSpec { project with
      providers := project.providers.modify call.provider ({ · with connected := false })
      disconnects := project.disconnects.eraseIdx id } :=
    hprovider.elsewhere le_rfl rfl rfl rfl rfl (fun _ htarget => htarget) fun hteardown => hteardown
  unfold Project.disconnected
  dsimp only
  split
  · exact hsettled.openProject
  · exact hsettled

/-! ### Calls of `setActiveWorktree` -/

/-- The recorded watch has an external target. -/
theorem Tracked.worktreePath_eq_none (h : Tracked loadSpec project) {target : Option Path}
    (hpath : project.worktreePath = target)
    (hinternal : isExternalTarget loadSpec target = false) : project.worktreeWatchSub = none := by
  refine Option.eq_none_iff_forall_ne_some.mpr fun id hid => ?_
  obtain ⟨request, owner, hrequest, _, hexternal, _⟩ := h.recorded id hid
  have htarget : project.worktreePath = request.target := by
    unfold worktreePath
    rw [hid, Option.bind_some, hrequest, Option.bind_some]
  rw [← hpath, htarget] at hinternal
  exact Bool.false_ne_true (hinternal.symm.trans hexternal)

theorem isExternalTarget_none : isExternalTarget loadSpec none = false := rfl

/-- A target that is watched already is requested: the session has it. -/
theorem Tracked.sameTarget (h : Tracked loadSpec project) {target : Option Path}
    (hpath : project.worktreePath = target)
    (hadmits : ∀ request ∈ project.requests, project.isPending request →
      project.worktreeWatchSeq ≠ some request.seq ∨
        isExternalTarget loadSpec request.target = false) :
    Tracked loadSpec { project with requested := project.session.map fun _ => target } where
  __ := h
  live other hother := by
    obtain ⟨_, hsession, _⟩ := Option.map_eq_some_iff.mp hother
    exact Option.isSome_iff_exists.mpr ⟨_, hsession⟩
  served other hother := by
    obtain ⟨_, _, rfl⟩ := Option.map_eq_some_iff.mp hother
    refine .inr ⟨fun id request hrequest hcurrent => ?_, ?_⟩
    · have hmem := List.mem_iff_getElem?.mpr ⟨id, hrequest⟩
      exact (hadmits request hmem hcurrent.1).resolve_left fun hne => hne hcurrent.2
    · cases hexternal : isExternalTarget loadSpec target with
      | true => exact hpath
      | false =>
        show project.worktreePath = none
        unfold worktreePath
        rw [h.worktreePath_eq_none hpath hexternal]
        rfl

/-- Another target takes a number that no pending call has, and is the only current one. -/
theorem Tracked.newTarget (h : Tracked loadSpec project) (hsub : project.worktreeWatchSub = none)
    (target : Option Path) {seq : ℕ} (former : Option ℕ)
    (hadmits : ∀ (id : ℕ) (request : WorktreeRequest), project.requests[id]? = some request →
      project.isPending request = true → request.seq ≠ seq) :
    Tracked loadSpec { project with
      requested := project.session.map fun _ => target
      worktreeWatchSeq := some seq
      requests := project.requests ++ [⟨target, seq, .stopping former⟩] } := by
  have hcurrent : ∀ (id : ℕ) (request : WorktreeRequest),
      (project.requests ++ [⟨target, seq, .stopping former⟩])[id]? = some request →
        Current { project with
          requested := project.session.map fun _ => target
          worktreeWatchSeq := some seq
          requests := project.requests ++ [⟨target, seq, .stopping former⟩] } request →
            id = project.requests.length := by
    rintro id request hrequest ⟨hpending, hseq⟩
    rcases of_getElem?_concat hrequest with hold | ⟨heq, _⟩
    · exact absurd (Option.some.inj hseq).symm (hadmits id request hold hpending)
    · exact heq
  refine ⟨fun id owner request hrequest hphase => ?_,
    fun i j request other hrequest hother hcur hcur' => ?_, fun _ _ _ _ => hsub,
    fun id hid => (nomatch hsub.symm.trans hid), fun id owner request hrequest hphase => ?_,
    fun other hother => ?_, fun other hother => .inl ?_⟩
  · rcases of_getElem?_concat hrequest with hold | ⟨_, rfl⟩
    · exact h.subscribing id owner request hold hphase
    · exact nomatch hphase
  · exact (hcurrent i request hrequest hcur).trans (hcurrent j other hother hcur').symm
  · rcases of_getElem?_concat hrequest with hold | ⟨_, rfl⟩
    · exact h.owned id owner request hold hphase
    · exact nomatch hphase
  · obtain ⟨_, hsession, _⟩ := Option.map_eq_some_iff.mp hother
    exact Option.isSome_iff_exists.mpr ⟨_, hsession⟩
  · obtain ⟨_, _, rfl⟩ := Option.map_eq_some_iff.mp hother
    exact ⟨project.requests.length, _, List.getElem?_concat_length, ⟨rfl, rfl⟩, rfl⟩

theorem Tracked.setActiveWorktree (h : Tracked loadSpec project) {worktreePath : Option Path}
    (hadmits : Orderly loadSpec project (.setActiveWorktree worktreePath)) :
    Tracked loadSpec (project.setActiveWorktree worktreePath) := by
  rw [setActiveWorktree_eq]
  split
  · next hpath =>
    refine h.sameTarget hpath fun request hmem hpending => ?_
    have hrequest := hadmits request hmem hpending
    rwa [if_pos hpath] at hrequest
  · next hpath =>
    have hreleased : Tracked loadSpec { project with
        requests := project.stopWorktreeWatch.requests
        worktreeWatchSub := none
        requested := none } := h.release le_rfl rfl rfl rfl rfl (.inl rfl)
    have hnumber : ∀ (id : ℕ) (request : WorktreeRequest),
        project.stopWorktreeWatch.requests[id]? = some request →
          project.isPending request = true → request.seq ≠ project.nextSeq := by
      intro id request hrequest hpending
      obtain ⟨old, hold, heq⟩ := of_getElem?_stopWorktreeWatch hrequest
      have hsame : project.isPending old = true ∧ request.seq = old.seq := by
        split at heq
        · rw [heq, isPending_unsubscribeWorktree] at hpending
          exact ⟨hpending, heq ▸ unsubscribeWorktree_seq⟩
        · exact ⟨heq ▸ hpending, heq ▸ rfl⟩
      rw [hsame.2]
      have hrequest := hadmits old (List.mem_iff_getElem?.mpr ⟨id, hold⟩) hsame.1
      rwa [if_neg hpath] at hrequest
    exact hreleased.newTarget rfl (normalizeTarget worktreePath) project.worktreeWatchSub hnumber

/-- A call goes on, or ends, without a subscription that is recorded. -/
theorem Tracked.setRequest (h : Tracked loadSpec project)
    (hrequest : project.requests[id]? = some request) (phase : WorktreePhase)
    (requested : Option (Option Path))
    (hphase : ∀ owner, phase ≠ .live owner ∧ request.phase ≠ .live owner)
    (hsubscribing : ∀ owner, phase = .subscribing owner → owner < project.providers.length ∧
      isExternalTarget loadSpec request.target = true)
    (hcurrent : project.Current { request with phase } → project.Current request)
    (hkept : requested = none ∨ requested = project.requested ∧ (project.Current request →
      project.Current { request with phase } ∨
        isExternalTarget loadSpec request.target = false)) :
    Tracked loadSpec { project.setRequest id phase with requested } := by
  have hback : ∀ (i : ℕ) (other : WorktreeRequest),
      (project.setRequest id phase).requests[i]? = some other →
        i = id ∧ other = { request with phase } ∨ i ≠ id ∧ project.requests[i]? = some other := by
    intro i other hother
    obtain ⟨old, hold, rfl⟩ := of_getElem?_modify hother
    split
    · next heq =>
      subst heq
      obtain rfl := Option.some.inj (hrequest.symm.trans hold)
      exact .inl ⟨rfl, rfl⟩
    · next hne => exact .inr ⟨Ne.symm hne, hold⟩
  have hforth : ∀ (i : ℕ) (other : WorktreeRequest), i ≠ id → project.requests[i]? = some other →
      (project.setRequest id phase).requests[i]? = some other := by
    intro i other hne hother
    refine (getElem?_modify_of_some hother).trans ?_
    rw [if_neg hne.symm]
  have hself : (project.setRequest id phase).requests[id]? = some { request with phase } := by
    refine (getElem?_modify_of_some hrequest).trans ?_
    rw [if_pos rfl]
  -- A call that is current afterwards was so before, in its place.
  have hbefore : ∀ (i : ℕ) (other : WorktreeRequest),
      (project.setRequest id phase).requests[i]? = some other → project.Current other →
        ∃ old, project.requests[i]? = some old ∧ project.Current old ∧
          old.target = other.target := by
    intro i other hother hcur
    rcases hback i other hother with ⟨rfl, rfl⟩ | ⟨_, hold⟩
    · exact ⟨request, hrequest, hcurrent hcur, rfl⟩
    · exact ⟨other, hold, hcur, rfl⟩
  have hpath : (project.setRequest id phase).worktreePath = project.worktreePath := by
    unfold worktreePath Project.setRequest
    cases project.worktreeWatchSub with
    | none => rfl
    | some i =>
      rw [Option.bind_some, Option.bind_some, List.getElem?_modify]
      cases project.requests[i]? with
      | none => rfl
      | some other =>
        show (if id = i then _ else _ : WorktreeRequest).target = other.target
        split
        · rfl
        · rfl
  refine ⟨fun i owner other hother hsub => ?_,
    fun i j other other' hother hother' hcur hcur' => ?_, fun i other hother hcur => ?_,
    fun i hi => ?_, fun i owner other hother hlive => ?_, fun target htarget => ?_,
    fun target htarget => ?_⟩
  · rcases hback i other hother with ⟨_, rfl⟩ | ⟨_, hold⟩
    · exact hsubscribing owner hsub
    · exact h.subscribing i owner other hold hsub
  · obtain ⟨old, hold, hcur, _⟩ := hbefore i other hother hcur
    obtain ⟨old', hold', hcur', _⟩ := hbefore j other' hother' hcur'
    exact h.unique i j old old' hold hold' hcur hcur'
  · obtain ⟨old, hold, hcur, _⟩ := hbefore i other hother hcur
    exact h.empty i old hold hcur
  · obtain ⟨recorded, owner, hrecorded, hlive, hrest⟩ := h.recorded i hi
    refine ⟨recorded, owner, hforth i recorded ?_ hrecorded, hlive, hrest⟩
    rintro rfl
    obtain rfl := Option.some.inj (hrequest.symm.trans hrecorded)
    exact (hphase owner).2 hlive
  · rcases hback i other hother with ⟨_, rfl⟩ | ⟨_, hold⟩
    · exact absurd hlive (hphase owner).1
    · exact h.owned i owner other hold hlive
  · rcases hkept with hnone | ⟨hsame, _⟩
    · exact nomatch hnone.symm.trans htarget
    · exact h.live target (hsame ▸ htarget)
  · rcases hkept with hnone | ⟨hsame, hstays⟩
    · exact nomatch hnone.symm.trans htarget
    rcases h.served target (hsame ▸ htarget) with ⟨i, other, hother, hcur, rfl⟩ | ⟨hnone, heq⟩
    · rcases eq_or_ne i id with rfl | hne
      · obtain rfl := Option.some.inj (hrequest.symm.trans hother)
        rcases hstays hcur with hstill | hinternal
        · exact .inl ⟨i, _, hself, hstill, rfl⟩
        -- The call needed no watch: it is done.
        · refine .inr ⟨fun j later hlater hcur' => ?_, hpath.trans ?_⟩
          · obtain ⟨old, hold, hcur', htarget'⟩ := hbefore j later hlater hcur'
            obtain rfl := h.unique i j request old hrequest hold hcur hcur'
            obtain rfl := Option.some.inj (hrequest.symm.trans hold)
            exact htarget' ▸ hinternal
          · rw [hinternal]
            unfold worktreePath
            rw [h.empty i request hrequest hcur]
            rfl
      · exact .inl ⟨i, other, hforth i other hne hother, hcur, rfl⟩
    · refine .inr ⟨fun i other hother hcur => ?_, hpath.trans heq⟩
      obtain ⟨old, hold, hcur', htarget'⟩ := hbefore i other hother hcur
      exact htarget' ▸ hnone i old hold hcur'

/-- The current call records its subscription. -/
theorem Tracked.record (h : Tracked loadSpec project)
    (hrequest : project.requests[id]? = some request) (hphase : request.phase = .subscribing owner)
    (hsession : project.session = some owner)
    (hseq : project.worktreeWatchSeq = some request.seq) :
    Tracked loadSpec { project.setRequest id (.live owner) with worktreeWatchSub := some id } := by
  have hcur : project.Current request := by
    refine ⟨?_, hseq⟩
    unfold isPending
    rw [hphase]
    exact decide_eq_true hsession
  have hempty := h.empty id request hrequest hcur
  have hexternal := (h.subscribing id owner request hrequest hphase).2
  have hself : (project.setRequest id (.live owner)).requests[id]? =
      some { request with phase := .live owner } := by
    refine (getElem?_modify_of_some hrequest).trans ?_
    rw [if_pos rfl]
  -- a live call waits for nothing, and no other call was current
  have hnone : ∀ (i : ℕ) (other : WorktreeRequest),
      (project.setRequest id (.live owner)).requests[i]? = some other →
        ¬ project.Current other := by
    intro i other hother hcur'
    obtain ⟨old, hold, rfl⟩ := of_getElem?_modify hother
    split at hcur'
    · exact nomatch hcur'.1
    · next hne => exact hne (h.unique id i request old hrequest hold hcur hcur')
  refine ⟨fun i other request' hother hsub => ?_,
    fun i _ other _ hother _ hcur' => absurd hcur' (hnone i other hother),
    fun i other hother hcur' => absurd hcur' (hnone i other hother), fun i hi => ?_,
    fun i other request' hother hlive => ?_, h.live, fun target htarget => .inr ⟨?_, ?_⟩⟩
  · obtain ⟨old, hold, rfl⟩ := of_getElem?_modify hother
    split at hsub
    · exact nomatch hsub
    · next hne =>
      rw [if_neg hne]
      exact h.subscribing i other old hold hsub
  · obtain rfl := Option.some.inj hi
    exact ⟨_, owner, hself, rfl, hexternal, .inl hsession⟩
  · obtain ⟨old, hold, rfl⟩ := of_getElem?_modify hother
    split at hlive
    · next heq => rw [heq]
    · exact nomatch hempty.symm.trans (h.owned i other old hold hlive)
  · exact fun i other hother hcur' => absurd hcur' (hnone i other hother)
  · have hpath : worktreePath { project.setRequest id (.live owner) with
        worktreeWatchSub := some id } = request.target := by
      unfold worktreePath
      rw [Option.bind_some, hself]
      rfl
    rcases h.served target htarget with ⟨i, other, hother, hcur', rfl⟩ | ⟨hinternal, _⟩
    · obtain rfl := h.unique id i request other hrequest hother hcur hcur'
      obtain rfl := Option.some.inj (hrequest.symm.trans hother)
      rw [hexternal]
      exact hpath
    · exact absurd ((hinternal id request hrequest hcur).symm.trans hexternal) Bool.false_ne_true

theorem Tracked.resumeRequest (h : Tracked loadSpec project) (hwired : Wired project)
    (hrequest : project.requests[id]? = some request) {former : Option ℕ}
    (hphase : request.phase = .stopping former) :
    Tracked loadSpec (project.resumeRequest loadSpec id request) := by
  have hlive : ∀ owner, request.phase ≠ .live owner := fun owner heq =>
    nomatch hphase.symm.trans heq
  have hpending : project.isPending request = true := by
    unfold isPending
    rw [hphase]
  unfold Project.resumeRequest
  split
  · next owner hsession =>
    split
    · next hexternal =>
      refine h.setRequest hrequest (.subscribing owner) project.requested
        (fun other => ⟨nofun, hlive other⟩) (fun other heq => ?_)
        (fun hcur => ⟨hpending, hcur.2⟩)
        (.inr ⟨rfl, fun hcur => .inl ⟨decide_eq_true hsession, hcur.2⟩⟩)
      obtain rfl := WorktreePhase.subscribing.inj heq
      obtain ⟨provider, hprovider, _⟩ := hwired.known owner hsession
      exact ⟨(List.getElem?_eq_some_iff.mp hprovider).1, hexternal⟩
    · next hinternal =>
      exact h.setRequest hrequest .finished project.requested
        (fun other => ⟨nofun, hlive other⟩) nofun (nomatch ·.1)
        (.inr ⟨rfl, fun _ => .inr ((Bool.not_eq_true _).mp hinternal)⟩)
  · next hsession =>
    refine h.setRequest hrequest .finished project.requested
      (fun other => ⟨nofun, hlive other⟩) nofun (nomatch ·.1)
      (.inl (Option.eq_none_iff_forall_ne_some.mpr fun target htarget => ?_))
    have hsome := h.live target htarget
    rw [hsession] at hsome
    exact nomatch hsome

/-- The subscription of a call that is not current is given back. -/
theorem Tracked.worktreeSubscribed (h : Tracked loadSpec project)
    (hrequest : project.requests[id]? = some request)
    (hphase : request.phase = .subscribing owner) :
    Tracked loadSpec (project.worktreeSubscribed id owner request.seq) := by
  unfold Project.worktreeSubscribed
  split
  · next hcurrent => exact h.record hrequest hphase hcurrent.1 hcurrent.2
  · next hstale =>
    refine h.setRequest hrequest (.unsubscribing owner) project.requested
      (fun other => ⟨nofun, fun heq => ?_⟩) nofun (nomatch ·.1)
      (.inr ⟨rfl, fun hcur => absurd ?_ hstale⟩)
    · exact nomatch hphase.symm.trans heq
    · have hpending := hcur.1
      unfold isPending at hpending
      rw [hphase] at hpending
      exact ⟨of_decide_eq_true hpending, hcur.2⟩

theorem Tracked.worktreeSubscribeFailed (h : Tracked loadSpec project)
    (hrequest : project.requests[id]? = some request)
    (hphase : request.phase = .subscribing owner) :
    Tracked loadSpec (project.worktreeSubscribeFailed id owner request.seq) := by
  have hlive : ∀ other, WorktreePhase.finished ≠ .live other ∧ request.phase ≠ .live other :=
    fun other => ⟨nofun, fun heq => nomatch hphase.symm.trans heq⟩
  unfold Project.worktreeSubscribeFailed
  split
  · exact h.setRequest hrequest .finished none hlive nofun (nomatch ·.1) (.inl rfl)
  · next hstale =>
    refine h.setRequest hrequest .finished project.requested hlive nofun (nomatch ·.1)
      (.inr ⟨rfl, fun hcur => absurd ?_ hstale⟩)
    have hpending := hcur.1
    unfold isPending at hpending
    rw [hphase] at hpending
    exact ⟨of_decide_eq_true hpending, hcur.2⟩

/-- Every orderly step keeps track of the last target. -/
theorem Tracked.step (h : Tracked loadSpec project) (hwired : Wired project)
    (hadmits : Orderly loadSpec project label) (htakes : Takes loadSpec project label next) :
    Tracked loadSpec next := by
  have hevict : Tracked loadSpec project.evict := h.evict hwired
  cases htakes with
  | open_ | reopen => exact h.openProject
  | disconnect =>
    exact h.elsewhere le_rfl rfl rfl rfl rfl (fun _ htarget => htarget) fun hteardown => hteardown
  | evict =>
    exact hevict.elsewhere le_rfl rfl rfl rfl rfl (fun _ htarget => htarget) fun hteardown =>
      hteardown
  | idle => exact h
  | setActiveWorktree => exact h.setActiveWorktree hadmits
  | transition | shortCircuitConnected => exact h.emit _ _
  | connected => exact h.modifyProvider _
  | @connectFailed id =>
    have hprovider : Tracked loadSpec { project with
        providers := project.providers.modify id ({ · with connecting := false }) } :=
      h.modifyProvider _
    have hfailed := hprovider.evict (hwired.modifyProvider fun _ => rfl)
    exact hfailed.elsewhere le_rfl rfl rfl rfl rfl (fun _ htarget => htarget) fun hteardown =>
      hteardown
  | disconnected => exact h.disconnected _ _
  | @subscribed id watch hwatch hphase =>
    have hkept : ∀ phase, project.TearingDown → (project.setWatch id phase).TearingDown :=
      fun phase hteardown => hteardown.setWatch id (.inr fun other hother heq => by
        obtain rfl := Option.some.inj (hwatch.symm.trans hother)
        exact nomatch hphase.symm.trans heq)
    unfold Project.subscribed
    split
    · exact h.elsewhere le_rfl rfl rfl rfl rfl (fun _ htarget => htarget) (hkept _)
    · exact h.elsewhere le_rfl rfl rfl rfl rfl (fun _ htarget => htarget) (hkept _)
  | @subscribeFailed id watch hwatch hphase | @unsubscribed id watch hwatch hphase =>
    refine h.elsewhere le_rfl rfl rfl rfl rfl (fun _ htarget => htarget) fun hteardown =>
      hteardown.setWatch id (.inr fun other hother heq => ?_)
    obtain rfl := Option.some.inj (hwatch.symm.trans hother)
    exact nomatch hphase.symm.trans heq
  | @stopped id watch hwatch hphase =>
    rw [stopWorktreeWatch_eq]
    refine h.release le_rfl rfl ?_ rfl rfl ?_
    · rw [stopWorktreeWatch_requests, stopWorktreeWatch_requests]
      rfl
    · -- the guard: when a teardown ends, no next target is both requested and watched
      have hover : project.requested = none ∨ project.worktreeWatchSub = none := by
        simpa [Orderly, hwatch, hphase] using hadmits
      exact hover.imp_right fun hnone => ⟨rfl, hnone⟩
  | resume hrequest hphase => exact h.resumeRequest hwired hrequest hphase
  | worktreeSubscribed hrequest hphase => exact h.worktreeSubscribed hrequest hphase
  | worktreeSubscribeFailed hrequest hphase => exact h.worktreeSubscribeFailed hrequest hphase
  | @worktreeUnsubscribed _ _ owner hrequest hphase =>
    refine h.setRequest hrequest (.unsubscribed owner) project.requested
      (fun other => ⟨nofun, fun heq => ?_⟩) nofun (nomatch ·.1) (.inr ⟨rfl, fun hcur => ?_⟩)
    · exact nomatch hphase.symm.trans heq
    · have hpending := hcur.1
      unfold isPending at hpending
      rw [hphase] at hpending
      exact nomatch hpending

/-! ### What runs keep -/

/-- At rest no call is current. -/
theorem WorktreeAtRest.not_current (h : WorktreeAtRest project)
    (hrequest : project.requests[id]? = some request) : ¬ project.Current request := by
  intro hcur
  obtain ⟨hstopping, hsubscribing⟩ := h.requests request (List.mem_iff_getElem?.mpr ⟨id, hrequest⟩)
  have hpending := hcur.1
  unfold isPending at hpending
  split at hpending
  · next heq => exact hstopping _ heq
  · next heq => exact hsubscribing _ heq
  · exact nomatch hpending

/-- At rest the recorded watch is on the last target. -/
theorem Tracked.worktreePath_eq (h : Tracked loadSpec project) (hrest : WorktreeAtRest project)
    {target : Option Path} (htarget : project.requested = some target) :
    project.worktreePath = if isExternalTarget loadSpec target then target else none := by
  rcases h.served target htarget with ⟨id, request, hrequest, hcur, _⟩ | ⟨_, hpath⟩
  · exact absurd hcur (hrest.not_current hrequest)
  · exact hpath

theorem Tracked.converged (h : Tracked loadSpec project) : Converged loadSpec project where
  watched target htarget hrest hexternal := by
    have hpath := h.worktreePath_eq hrest htarget
    rw [hexternal, if_pos rfl] at hpath
    cases hsub : project.worktreeWatchSub with
    | none =>
      have hnone : project.worktreePath = none := by
        unfold worktreePath
        rw [hsub]
        rfl
      rw [← hpath, hnone] at hexternal
      exact nomatch hexternal
    | some id =>
      obtain ⟨request, owner, hrequest, hphase, _, hor⟩ := h.recorded id hsub
      have hsame : project.worktreePath = request.target := by
        unfold worktreePath
        rw [hsub, Option.bind_some, hrequest, Option.bind_some]
      refine ⟨id, request, owner, rfl, hrequest, hsame.symm.trans hpath, hphase, ?_⟩
      refine hor.resolve_right fun ⟨watch, hwatch, hteardown⟩ => ?_
      exact hrest.teardowns watch hwatch hteardown
  unwatched target htarget hrest hinternal := by
    have hpath := h.worktreePath_eq hrest htarget
    rw [hinternal, if_neg Bool.false_ne_true] at hpath
    exact h.worktreePath_eq_none hpath isExternalTarget_none
  owned := h.owned

end Project

open Project

/-- In every orderly run, at rest, a live session watches the last target that was requested of it
exactly if that target is external, and every other subscription has been given back. -/
theorem worktree_watch_converges (loadSpec : String → Option ConnectionSpec)
    {labels : List (String × ProjectStep)} {manager : SessionManager}
    (hrun : Run (SessionManager.step loadSpec)
      (familyAdmits fun projectId => Orderly (loadSpec projectId)) (fun _ => {}) labels manager)
    (projectId : String) : Converged (loadSpec projectId) (manager projectId) := by
  have hpreserved : ∀ (projectId : String) (project : Project) (label : ProjectStep)
      (next : Project), Tracked (loadSpec projectId) project ∧ Wired project →
        Orderly (loadSpec projectId) project label →
          project.step (loadSpec projectId) label = some next →
            Tracked (loadSpec projectId) next ∧ Wired next :=
    fun _ _ _ _ hinv hadmits hstep =>
      have htakes := takes_of_step hstep
      ⟨hinv.1.step hinv.2 hadmits htakes, hinv.2.step htakes⟩
  exact (hrun.family_invariant hpreserved (fun _ => ⟨tracked_initial, wired_initial⟩)
    projectId).1.converged

/-- Two worktrees outside of the root, and one below it. -/
def outer : Option Path := some "/srv/outer".toList

def other : Option Path := some "/srv/other/".toList

def nested : Option Path := some "/srv/repo/nested".toList

/-- The selection moves on while a worktree is subscribed, through the nested one, and comes back:
the late subscriptions are given back, and the last one stays. -/
theorem worktree_watch_converges_switched :
    ∃ manager : SessionManager, Run (SessionManager.step remoteSpec)
        (familyAdmits fun projectId => Orderly (remoteSpec projectId)) (fun _ => {})
        (connectSteps ++ [("p", .setActiveWorktree outer), ("p", .resume 0),
          ("p", .setActiveWorktree other), ("p", .resume 1), ("p", .setActiveWorktree nested),
          ("p", .worktreeSubscribed 1), ("p", .setActiveWorktree outer), ("p", .resume 2),
          ("p", .resume 3), ("p", .worktreeSubscribed 3), ("p", .worktreeSubscribed 0),
          ("p", .worktreeUnsubscribed 1), ("p", .worktreeUnsubscribed 0)]) manager ∧
      ((manager "p").requested = some outer ∧ (manager "p").requests.map (·.phase) =
        [.unsubscribed 0, .unsubscribed 0, .finished, .live 0]) ∧
      Converged (remoteSpec "p") (manager "p") := by
  exact exists_run_and_of_replay (by decide +kernel)
    fun _ hrun => worktree_watch_converges remoteSpec hrun "p"

/-- An external worktree is deselected while it is subscribed: its watch stays. -/
theorem not_worktree_watch_converges :
    ¬ ∀ (loadSpec : String → Option ConnectionSpec) (labels : List (String × ProjectStep))
      (manager : SessionManager), Run (SessionManager.step loadSpec) Always (fun _ => {}) labels
        manager → ∀ projectId, Converged (loadSpec projectId) (manager projectId) := by
  intro hall
  have hreplay : (replay (SessionManager.step remoteSpec) Always (fun _ => {})
      (connectSteps ++ [("p", .subscribed 0), ("p", .setActiveWorktree outer), ("p", .resume 0),
        ("p", .setActiveWorktree none), ("p", .worktreeSubscribed 0)])).any
      (fun manager => (manager "p").requested = some none ∧
        (manager "p").worktreeWatchSub = some 0 ∧ (manager "p").watches = [⟨0, .live⟩] ∧
          (manager "p").requests = [⟨outer, 1, .live 0⟩]) = true := by
    decide +kernel
  obtain ⟨manager, hrun, hrequested, hsub, hwatches, hrequests⟩ := exists_run_of_replay hreplay
  have hconverged := hall remoteSpec _ manager hrun "p"
  have hrest : WorktreeAtRest (manager "p") := by
    refine ⟨fun request hrequest => ?_, fun watch hwatch => ?_⟩
    · rw [hrequests] at hrequest
      obtain rfl := List.mem_singleton.mp hrequest
      exact ⟨nofun, nofun⟩
    · rw [hwatches] at hwatch
      obtain rfl := List.mem_singleton.mp hwatch
      exact nofun
  exact nomatch hsub.symm.trans (hconverged.unwatched none hrequested hrest rfl)

end AgentCockpit.Providers
