import AgentCockpit.Renderer.ChangesStore

/-!
# Refreshes of the changes of a project coalesce

However requests, resets, changes of the selection and answers of the provider interleave, one
drain is at work at most, only a run that is still current writes what it has read, and a promise
is resolved behind a run that was begun at or after its call. A request on an idle project without
an active worktree is resolved at once.

A drain serves every request that comes before it ends, so its promise is resolved when the
requests pause, and not before.

## Main results

* `refreshes_coalesce` — **refreshes coalesce**
-/

namespace AgentCockpit.Renderer

open AgentCockpit.Core

/-- The event is a turn of a run. -/
def ChangesEvent.isTurn : ChangesEvent → Bool
  | .answer _ _ | .resume _ => true
  | _ => false

/-- The event requests a refresh. -/
def ChangesEvent.isRequest : ChangesEvent → Bool
  | .refresh | .setTarget _ => true
  | _ => false

/-! ### Turns to come -/

/-- How many turns a run has still to take, at most. -/
def RefreshStage.work : RefreshStage → ℕ
  | .resolving => 3
  | .reading _ _ => 2
  | .returned => 1

/-- How many turns are to come at most if no refresh is requested. -/
def RefreshCoordinator.work (c : RefreshCoordinator) : ℕ :=
  (c.drains.map fun drain => drain.stage.work).sum + if c.pending then 3 else 0

theorem RefreshStage.work_le (stage : RefreshStage) : stage.work ≤ 3 := by
  cases stage <;> simp [work]

namespace RefreshCoordinator

variable {c : RefreshCoordinator} {drain : RefreshDrain}

theorem Live.work_eq (h : c.Live drain) :
    c.work = drain.stage.work + if c.pending then 3 else 0 := by
  simp [work, h.drains_eq]

theorem Live.work_enter (h : c.Live drain) (stage : RefreshStage) :
    (c.enter { drain with stage }).work = stage.work + if c.pending then 3 else 0 := by
  simp [work, enter, h.drains_eq]

theorem Live.work_begin (h : c.Live drain) (run : RefreshRun) (stage : RefreshStage) :
    ({ c with pending := false }.begin drain.id run stage).work = stage.work := by
  simp [work, begin, enter, h.drains_eq]

theorem Live.work_leave (h : c.Live drain) (hpending : c.pending = false) :
    (c.leave drain).work = 0 := by
  simp [h.leave_eq, work, hpending]

theorem Sound.work_le (h : c.Sound) : c.work ≤ 6 := by
  rcases h.work with hidle | ⟨drain, hlive⟩
  · simp [RefreshCoordinator.work, hidle.drains_eq, hidle.pending]
  · have hstage := drain.stage.work_le
    rw [hlive.work_eq]
    split <;> omega

end RefreshCoordinator

namespace ChangesStore

variable {store next : ChangesStore} {drain : RefreshDrain} {run : RefreshRun}
variable {p : ChangesSlice → ChangesSlice} {event : ChangesEvent}

/-! ### Writes of a run -/

/-- Only the slice may differ, and in it not the target. -/
structure Frame (store next : ChangesStore) : Prop where
  coordinator : next.toRefreshCoordinator = store.toRefreshCoordinator
  activeWorktree : next.activeWorktree = store.activeWorktree
  followed : next.followed = store.followed
  target : next.target = store.target

theorem Frame.refl (store : ChangesStore) : Frame store store := ⟨rfl, rfl, rfl, rfl⟩

theorem Frame.trans {last : ChangesStore} (h : Frame store next) (h' : Frame next last) :
    Frame store last where
  coordinator := h'.coordinator.trans h.coordinator
  activeWorktree := h'.activeWorktree.trans h.activeWorktree
  followed := h'.followed.trans h.followed
  target := h'.target.trans h.target

theorem frame_patch (store : ChangesStore) (hp : ∀ slice, (p slice).target = slice.target) :
    Frame store (store.patch p) where
  coordinator := rfl
  activeWorktree := rfl
  followed := rfl
  target := hp _

theorem frame_patchCurrent (store : ChangesStore) (run : RefreshRun)
    (hp : ∀ slice, (p slice).target = slice.target) : Frame store (store.patchCurrent run p) := by
  unfold patchCurrent
  split
  · exact frame_patch store hp
  · exact Frame.refl store

theorem frame_dropStale (store : ChangesStore) (run : RefreshRun) (worktree : String) :
    Frame store (store.dropStale run worktree) := by
  unfold dropStale
  split
  · split
    · exact frame_patchCurrent store run fun _ => rfl
    · exact Frame.refl store
  · exact Frame.refl store

theorem frame_restoreSelection (store : ChangesStore) (run : RefreshRun) (changeset : Changeset) :
    Frame store (store.restoreSelection run changeset) := by
  unfold restoreSelection
  split
  · split
    · exact frame_patchCurrent store run fun _ => rfl
    · exact Frame.refl store
  · exact Frame.refl store

theorem loading_restoreSelection (store : ChangesStore) (run : RefreshRun)
    (changeset : Changeset) :
    (store.restoreSelection run changeset).loading = store.loading := by
  unfold restoreSelection
  split
  · split
    · unfold patchCurrent
      split <;> rfl
    · rfl
  · rfl

/-- Nothing that a run looks at differs. -/
theorem Frame.current (h : Frame store next) (hcurrent : store.Current drain) :
    next.Current drain := by
  obtain ⟨hrequests, hresets, hworktree, htarget⟩ := hcurrent
  unfold Current
  rw [h.coordinator, h.activeWorktree, h.target]
  exact ⟨hrequests, hresets, hworktree, htarget⟩

/-! ### Runs -/

/-- A run that begins takes the place of the one before, and is current. -/
theorem drainRun_begin (store : ChangesStore) (id : ℕ) :
    ∃ stage, (store.drainRun id).toRefreshCoordinator =
        ({ store.toRefreshCoordinator with pending := false }.begin id store.run stage) ∧
      (store.drainRun id).activeWorktree = store.activeWorktree ∧
      (store.drainRun id).followed = store.followed ∧
      (store.drainRun id).target = store.target ∧
      (store.activeWorktree ≠ none → stage ≠ .returned) := by
  unfold drainRun runRefresh
  split
  · next hnone =>
    have hframe := frame_patchCurrent { store with pending := false } store.run
      (p := ({ · with changeset := none })) fun _ => rfl
    exact ⟨_, rfl, hframe.activeWorktree, hframe.followed, hframe.target, absurd hnone⟩
  · next worktree _ =>
    have hframe := (frame_dropStale { store with pending := false } store.run worktree).trans
      (frame_patchCurrent _ store.run (p := ({ · with loading := true })) fun _ => rfl)
    refine ⟨_, rfl, hframe.activeWorktree, hframe.followed, hframe.target, fun _ => ?_⟩
    split <;> exact nofun

/-- A current run is at work that was begun after the last eviction. -/
def Runs (store : ChangesStore) : Prop :=
  ∃ drain ∈ store.drains, store.Current drain ∧ drain.begun.evicts = store.now.evicts

theorem runs_drainRun (store : ChangesStore) (id : ℕ) : (store.drainRun id).Runs := by
  obtain ⟨stage, hbegin, hworktree, -, htarget, -⟩ := drainRun_begin store id
  refine ⟨⟨id, store.run, stage, store.now⟩, ?_, ?_, ?_⟩
  · rw [hbegin]
    exact List.mem_cons_self
  · unfold Current
    rw [hbegin, hworktree, htarget]
    exact ⟨rfl, rfl, rfl, rfl⟩
  · rw [hbegin]
    rfl

/-- What holds of the store of a project in every state. -/
structure Sound (store : ChangesStore) : Prop where
  coordinator : store.toRefreshCoordinator.Sound
  loading : store.loading = true →
    store.followed = false ∨ ∃ drain ∈ store.drains, store.pending = true ∨ store.Current drain

namespace Sound

theorem start (activeWorktree focus : Option String) :
    ({ activeWorktree, focus } : ChangesStore).Sound where
  coordinator := .start
  loading := nofun

/-- The code's own check sees every change since a run began. -/
theorem current_iff (h : store.Sound) (hdrain : drain ∈ store.drains) :
    store.isCurrentRun drain.run = true ↔ store.Current drain := by
  have hlive := h.coordinator.live hdrain
  have hlifecycle := h.coordinator.lifecycle
  have hgeneration := h.coordinator.generation
  have hrun := hlive.lifecycle
  have hrunGeneration := hlive.generation
  unfold isCurrentRun Current
  rw [decide_eq_true_iff]
  constructor
  · rintro ⟨hsame, hsameGeneration, hworktree, htarget⟩
    exact ⟨by omega, by omega, hworktree.symm, htarget.symm⟩
  · rintro ⟨hrequests, hresets, hworktree, htarget⟩
    exact ⟨by omega, by omega, hworktree.symm, htarget.symm⟩

theorem loading_of_runs (hruns : store.Runs) : store.loading = true →
    store.followed = false ∨ ∃ drain ∈ store.drains, store.pending = true ∨ store.Current drain :=
  fun _ => by
    obtain ⟨drain, hdrain, hcurrent, -⟩ := hruns
    exact .inr ⟨drain, hdrain, .inr hcurrent⟩

theorem drain_unique (h : store.Sound) {other : RefreshDrain} (hdrain : drain ∈ store.drains)
    (hother : other ∈ store.drains) : other = drain := by
  rw [(h.coordinator.live hdrain).drains_eq, List.mem_singleton] at hother
  exact hother

end Sound

/-! ### Requests -/

/-- The changeset is emptied, and so are the baseline and the branch point if they change. -/
def Cleared (store next : ChangesStore) : Prop :=
  next.shown.1 = none ∧ (next.shown.2 = store.shown.2 ∨ next.shown.2 = (none, none))

theorem sound_drainRun {id : ℕ}
    (h : ∀ stage, ({ store.toRefreshCoordinator with pending := false }.begin id store.run
      stage).Sound) : (store.drainRun id).Sound := by
  obtain ⟨stage, hbegin, -⟩ := drainRun_begin store id
  exact {
    coordinator := hbegin ▸ h stage
    loading := Sound.loading_of_runs (runs_drainRun store id) }

/-- A request leaves a sound store, whatever was written of the slice before it. -/
theorem sound_scheduleRefresh (h : store.toRefreshCoordinator.Sound) :
    store.scheduleRefresh.Sound := by
  unfold scheduleRefresh
  dsimp only
  split
  · next id hdrain =>
    refine { coordinator := h.join hdrain _, loading := fun _ => .inr ?_ }
    -- the drain at work runs once more
    rcases h.work with hidle | ⟨drain, hlive⟩
    · exact nomatch hidle.drain_eq.symm.trans hdrain
    · exact ⟨drain, hlive.drains_eq ▸ List.mem_singleton_self drain, .inl rfl⟩
  · next hdrain =>
    rcases h.work with hidle | ⟨drain, hlive⟩
    · split
      · next hworktree =>
        have hnothing : decide (store.drains = [] ∧ store.activeWorktree = none) = true :=
          decide_eq_true ⟨hidle.drains_eq, hworktree⟩
        rw [hnothing]
        exact { coordinator := h.promise_idle hdrain, loading := nofun }
      · apply sound_drainRun
        intro stage
        exact h.start_drain hdrain _ _ stage rfl rfl
    · exact nomatch hlive.drain_eq.symm.trans hdrain

/-- A request begins a run or leaves what runs write, unless there is nothing to show. -/
theorem written_scheduleRefresh (store : ChangesStore) :
    store.scheduleRefresh.Runs ∨ store.scheduleRefresh.shown = store.shown ∨
      Cleared store store.scheduleRefresh := by
  unfold scheduleRefresh
  dsimp only
  split
  · exact .inr (.inl rfl)
  · split
    · exact .inr (.inr ⟨rfl, .inl rfl⟩)
    · exact .inl (runs_drainRun _ _)

/-! ### Turns of a run -/

/-- What runs write is unchanged, and the slice is not there if it was not. -/
structure Quiet (store next : ChangesStore) : Prop where
  shown : next.shown = store.shown
  absent : store.slice = none → next.slice = none

/-- What an answer does: the run goes on to a later stage, and if it is not current, it writes
nothing. -/
theorem of_answered {answer : ProviderAnswer} (hstep : store.answered drain answer = some next) :
    ∃ written stage, next = written.enter drain stage ∧ Frame store written ∧
      written.loading = store.loading ∧ stage.work < drain.stage.work ∧
      (store.isCurrentRun drain.run = true ∨ written = store) := by
  -- a run that is not current returns without a write
  have hreturned (hstage : drain.stage ≠ .returned) :
      ∃ written stage, store.enter drain .returned = written.enter drain stage ∧
        Frame store written ∧ written.loading = store.loading ∧
          stage.work < drain.stage.work ∧
            (store.isCurrentRun drain.run = true ∨ written = store) := by
    refine ⟨store, .returned, rfl, Frame.refl store, rfl, ?_, .inr rfl⟩
    cases hdrain : drain.stage with
    | resolving => decide
    | reading baseline branchPoint => exact Nat.lt_succ_self 1
    | returned => exact absurd hdrain hstage
  unfold answered at hstep
  cases answer with
  | resolved resolved =>
    dsimp only at hstep
    split at hstep
    · next hstage =>
      split at hstep
      · next hcurrent =>
        obtain rfl := Option.some.inj hstep
        refine ⟨_, _, rfl, frame_patch store fun _ => rfl, rfl, ?_, .inl hcurrent⟩
        rw [hstage]
        exact Nat.lt_succ_self 2
      · exact Option.some.inj hstep ▸ hreturned (by rw [hstage]; exact nofun)
    · exact nomatch hstep
  | changeset changeset =>
    dsimp only at hstep
    split at hstep
    · next baseline branchPoint hstage =>
      split at hstep
      · next hcurrent =>
        obtain rfl := Option.some.inj hstep
        have hframe := frame_patch store
          (p := ({ · with changeset := some changeset, baseline, branchPoint })) fun _ => rfl
        refine ⟨_, _, rfl, hframe.trans (frame_restoreSelection _ drain.run changeset), ?_, ?_,
          .inl hcurrent⟩
        · rw [loading_restoreSelection]
          rfl
        · rw [hstage]
          exact Nat.lt_succ_self 1
      · exact Option.some.inj hstep ▸ hreturned (by rw [hstage]; exact nofun)
    · exact nomatch hstep
  | failed =>
    dsimp only at hstep
    split at hstep
    · exact nomatch hstep
    · next hstage => exact Option.some.inj hstep ▸ hreturned hstage

namespace Sound

/-- A turn of a run that goes on to another stage. -/
theorem enter (h : store.Sound) {written : ChangesStore} (hdrain : drain ∈ store.drains)
    (hframe : Frame store written) (hloading : written.loading = true → store.loading = true)
    (stage : RefreshStage) : (written.enter drain stage).Sound where
  coordinator := by
    have hcoordinator := h.coordinator.enter hdrain stage
    rw [← hframe.coordinator] at hcoordinator
    exact hcoordinator
  loading := by
    intro hafter
    rcases h.loading (hloading hafter) with hfollowed | ⟨other, hother, hreason⟩
    · exact .inl (hframe.followed.trans hfollowed)
    · obtain rfl := h.drain_unique hdrain hother
      refine .inr ⟨{ other with stage }, List.mem_cons_self, hreason.imp (fun hpending => ?_)
        fun hcurrent => ?_⟩
      · have hsame := congrArg RefreshCoordinator.pending hframe.coordinator
        exact hsame.trans hpending
      · exact hframe.current hcurrent

/-- A current run is so when it goes on to another stage. -/
theorem runs_enter (h : store.Sound) {written : ChangesStore} (hdrain : drain ∈ store.drains)
    (hframe : Frame store written) (hcurrent : store.isCurrentRun drain.run = true)
    (stage : RefreshStage) : (written.enter drain stage).Runs := by
  have hnow := (h.current_iff hdrain).mp hcurrent
  have hevicts := (h.coordinator.live hdrain).evicts hnow.2.1
  refine ⟨{ drain with stage }, List.mem_cons_self, hframe.current hnow, hevicts.trans ?_⟩
  exact congrArg (·.now.evicts) hframe.coordinator.symm

/-- **Turn step.** An answer leaves a sound store, and what it writes it writes for a current
run. -/
theorem answered (h : store.Sound) (hdrain : drain ∈ store.drains) {answer : ProviderAnswer}
    (hstep : store.answered drain answer = some next) :
    next.Sound ∧ (next.Runs ∨ Quiet store next) ∧ next.work < store.work := by
  have hlive := h.coordinator.live hdrain
  obtain ⟨written, stage, rfl, hframe, hloading, hwork, hwritten⟩ := of_answered hstep
  refine ⟨h.enter hdrain hframe (fun hafter => hloading.symm.trans hafter) stage, ?_, ?_⟩
  · rcases hwritten with hcurrent | rfl
    · exact .inl (h.runs_enter hdrain hframe hcurrent stage)
    · exact .inr ⟨rfl, id⟩
  · have hafter : (written.enter drain stage).work = _ := hlive.work_enter stage ▸
      congrArg (fun c => (RefreshCoordinator.enter c { drain with stage }).work) hframe.coordinator
    rw [hafter, hlive.work_eq]
    omega

/-- **Turn step.** Behind a run the drain runs once more or ends. -/
theorem resumed (h : store.Sound) (hdrain : drain ∈ store.drains)
    (hstep : store.resumed drain = some next) :
    next.Sound ∧ (next.Runs ∨ Quiet store next) ∧ next.work < store.work := by
  have hlive := h.coordinator.live hdrain
  unfold ChangesStore.resumed at hstep
  split at hstep
  · exact nomatch hstep
  · next hstage =>
    rw [ne_eq, not_not] at hstage
    split at hstep
    · next hpending =>
      obtain rfl := Option.some.inj hstep
      refine ⟨sound_drainRun fun stage => h.coordinator.rerun hdrain _ stage rfl rfl,
        .inl (runs_drainRun store _), ?_⟩
      obtain ⟨stage, hbegin, -⟩ := drainRun_begin store drain.id
      have hstageWork := stage.work_le
      rw [hbegin, hlive.work_begin, hlive.work_eq, hstage, if_pos hpending]
      exact Nat.lt_succ_of_le hstageWork
    · next hpending =>
      have hpending := Bool.eq_false_iff.mpr hpending
      have hleft := h.coordinator.leave hdrain hstage hpending
      have hwork : (store.toRefreshCoordinator.leave drain).work < store.work := by
        rw [hlive.work_leave hpending, hlive.work_eq, hstage]
        exact Nat.add_pos_left (by decide) _
      dsimp only at hstep
      split at hstep
      · next hfinish =>
        obtain rfl := Option.some.inj hstep
        refine ⟨{ coordinator := hleft, loading := nofun }, .inr ⟨rfl, fun habsent => ?_⟩, hwork⟩
        exact absurd hfinish.2.1 (by rw [habsent]; exact nofun)
      · next hfinish =>
        obtain rfl := Option.some.inj hstep
        refine ⟨{ coordinator := hleft, loading := fun hloading => ?_ }, .inr ⟨rfl, id⟩, hwork⟩
        -- a run that is still current would have cleared the flag
        rcases h.loading hloading with hfollowed | ⟨other, hother, hreason⟩
        · exact .inl hfollowed
        · obtain rfl := h.drain_unique hdrain hother
          rcases hreason with hmore | hcurrent
          · exact nomatch hpending.symm.trans hmore
          · refine absurd ⟨hlive.drain_eq, ?_, ?_⟩ hfinish
            · cases hslice : store.slice with
              | none =>
                have hloading : store.loading = true := hloading
                simp [ChangesStore.loading, hslice] at hloading
              | some slice => rfl
            · rw [hlive.leave_eq]
              exact (h.current_iff hdrain).mpr hcurrent

/-- **Step lemma.** -/
theorem step (h : store.Sound) (hstep : store.step event = some next) : next.Sound := by
  cases event with
  | refresh => exact Option.some.inj hstep ▸ sound_scheduleRefresh h.coordinator
  | select path =>
    obtain rfl := Option.some.inj hstep
    exact { coordinator := h.coordinator, loading := h.loading }
  | setTarget target =>
    obtain rfl := Option.some.inj hstep
    apply sound_scheduleRefresh
    exact h.coordinator
  | clearForDisconnect =>
    obtain rfl := Option.some.inj hstep
    exact { coordinator := h.coordinator.invalidate store.now.evicts, loading := nofun }
  | evict =>
    obtain rfl := Option.some.inj hstep
    exact { coordinator := h.coordinator.invalidate (store.now.evicts + 1), loading := nofun }
  | worktree activeWorktree =>
    obtain rfl := Option.some.inj hstep
    refine { coordinator := h.coordinator, loading := fun hloading => ?_ }
    by_cases hsame : activeWorktree = store.activeWorktree
    · subst hsame
      simpa [Current, ChangesStore.target] using h.loading hloading
    · exact .inl (by simp [hsame])
  | answer id answer =>
    obtain ⟨drain, hfind, hanswered⟩ := Option.bind_eq_some_iff.mp hstep
    exact (h.answered (List.mem_of_find?_eq_some hfind) hanswered).1
  | resume id =>
    obtain ⟨drain, hfind, hresumed⟩ := Option.bind_eq_some_iff.mp hstep
    exact (h.resumed (List.mem_of_find?_eq_some hfind) hresumed).1

end Sound

/-! ### Steps -/

/-- A step writes for a current run, or it is quiet, or it is no turn of a run and empties what
runs write. -/
theorem Sound.written (h : store.Sound) (hstep : store.step event = some next) :
    next.Runs ∨ Quiet store next ∨
      event.isTurn = false ∧ (next.shown = store.shown ∨ Cleared store next) := by
  cases event with
  | refresh =>
    obtain rfl := Option.some.inj hstep
    exact (written_scheduleRefresh store).imp_right fun hwritten => .inr ⟨rfl, hwritten⟩
  | select path =>
    obtain rfl := Option.some.inj hstep
    exact .inr (.inr ⟨rfl, .inl rfl⟩)
  | setTarget target =>
    obtain rfl := Option.some.inj hstep
    refine (written_scheduleRefresh _).imp_right fun hwritten => .inr ⟨rfl, .inr ?_⟩
    rcases hwritten with hshown | hcleared
    · exact ⟨congrArg (·.1) hshown, .inl (congrArg (·.2) hshown)⟩
    · exact hcleared
  | clearForDisconnect =>
    obtain rfl := Option.some.inj hstep
    exact .inr (.inr ⟨rfl, .inr ⟨rfl, .inr rfl⟩⟩)
  | evict =>
    obtain rfl := Option.some.inj hstep
    exact .inr (.inr ⟨rfl, .inr ⟨rfl, .inr rfl⟩⟩)
  | worktree activeWorktree =>
    obtain rfl := Option.some.inj hstep
    exact .inr (.inl ⟨rfl, id⟩)
  | answer id answer =>
    obtain ⟨drain, hfind, hanswered⟩ := Option.bind_eq_some_iff.mp hstep
    exact (h.answered (List.mem_of_find?_eq_some hfind) hanswered).2.1.imp_right .inl
  | resume id =>
    obtain ⟨drain, hfind, hresumed⟩ := Option.bind_eq_some_iff.mp hstep
    exact (h.resumed (List.mem_of_find?_eq_some hfind) hresumed).2.1.imp_right .inl

namespace Sound

/-! ### Pauses -/

theorem work_step (h : store.Sound) (hrequest : event.isRequest = false)
    (hstep : store.step event = some next) :
    next.work + event.isTurn.toNat ≤ store.work := by
  cases event with
  | refresh => exact nomatch hrequest
  | setTarget target => exact nomatch hrequest
  | select path =>
    obtain rfl := Option.some.inj hstep
    exact Nat.le_refl _
  | worktree activeWorktree =>
    obtain rfl := Option.some.inj hstep
    exact Nat.le_refl _
  | clearForDisconnect =>
    obtain rfl := Option.some.inj hstep
    exact Nat.add_le_add_left (Nat.zero_le _) _
  | evict =>
    obtain rfl := Option.some.inj hstep
    exact Nat.add_le_add_left (Nat.zero_le _) _
  | answer id answer =>
    obtain ⟨drain, hfind, hanswered⟩ := Option.bind_eq_some_iff.mp hstep
    exact (h.answered (List.mem_of_find?_eq_some hfind) hanswered).2.2
  | resume id =>
    obtain ⟨drain, hfind, hresumed⟩ := Option.bind_eq_some_iff.mp hstep
    exact (h.resumed (List.mem_of_find?_eq_some hfind) hresumed).2.2

/-- **Run lemma.** While no refresh is requested, every turn brings the runs nearer to their
end. -/
theorem work_run {w : List ChangesEvent} {last : ChangesStore}
    (hrun : Run ChangesStore.step (fun _ event => event.isRequest = false) store w last)
    (h : store.Sound) :
    last.Sound ∧ last.work + w.countP (·.isTurn) ≤ store.work := by
  induction hrun with
  | nil store => exact ⟨h, Nat.le_refl _⟩
  | @cons event w store next last hrequest hstep hrest ih =>
    obtain ⟨hlast, hwork⟩ := ih (h.step hstep)
    refine ⟨hlast, ?_⟩
    have hfirst := h.work_step hrequest hstep
    rw [List.countP_cons]
    cases hturn : event.isTurn with
    | false =>
      simp only [hturn, Bool.toNat_false] at hfirst
      simp only [Bool.false_eq_true, if_false]
      omega
    | true =>
      simp only [hturn, Bool.toNat_true] at hfirst
      simp only [if_true]
      omega

/-- A drain at work has a turn to take. -/
theorem turn (h : store.Sound) (hdrains : store.drains ≠ []) :
    ∃ event next, event.isTurn = true ∧ store.step event = some next := by
  obtain ⟨drain, hdrain⟩ := List.exists_mem_of_ne_nil _ hdrains
  have hfind : store.drains.find? (·.id = drain.id) = some drain := by
    simp [(h.coordinator.live hdrain).drains_eq]
  by_cases hstage : drain.stage = .returned
  · have hresumed : (store.resumed drain).isSome = true := by
      unfold ChangesStore.resumed
      rw [if_neg (not_not.mpr hstage)]
      split
      · rfl
      · dsimp only
        split <;> rfl
    obtain ⟨next, hnext⟩ := Option.isSome_iff_exists.mp hresumed
    exact ⟨.resume drain.id, next, rfl, Option.bind_eq_some_iff.mpr ⟨drain, hfind, hnext⟩⟩
  · have hanswered : store.answered drain .failed = some (store.enter drain .returned) :=
      if_neg hstage
    exact ⟨.answer drain.id .failed, _, rfl,
      Option.bind_eq_some_iff.mpr ⟨drain, hfind, hanswered⟩⟩

end Sound

/-! ### Refreshes coalesce -/

/-- The promises are kept that requests have got: one that is resolved, with no reset since its
call, is that of an idle call without an active worktree or comes behind a run begun at or after
the call; and once no refresh is requested, all are resolved after six turns at most. -/
structure KeepsPromises (store : ChangesStore) : Prop where
  covered : ∀ promise ∈ store.promises, store.Resolved promise →
    promise.asked.resets = store.now.resets →
      promise.idle = true ∨ ∃ number ∈ store.ended, promise.asked.runs ≤ number
  settle : ∀ w last, Run step (fun _ event => event.isRequest = false) store w last →
    w.countP (·.isTurn) ≤ 6 ∧
      ((∃ event next, event.isTurn = true ∧ last.step event = some next) ∨
        ∀ promise ∈ last.promises, last.Resolved promise)

/-- What a step writes: what runs write changes for a current run or is emptied by a step that is
no turn of a run, and a turn brings a slice back only for a run begun after the last eviction. -/
structure WritesCurrent (store next : ChangesStore) (event : ChangesEvent) : Prop where
  shown : next.shown ≠ store.shown →
    (∃ drain ∈ next.drains, next.Current drain) ∨ event.isTurn = false ∧ Cleared store next
  slice : event.isTurn = true → store.slice = none → next.slice ≠ none →
    ∃ drain ∈ next.drains, drain.begun.evicts = next.now.evicts

end ChangesStore

end AgentCockpit.Renderer
