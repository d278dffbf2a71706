import AgentCockpit.Renderer.MuxTopology
import Mathlib.Data.String.Basic

/-!
# The newest daemon is shown

The panel compares revisions within one epoch, and it remembers the epochs it has seen
replaced. It does not know which of two epochs is older. An answer of an older process that
comes after one of a newer process is told apart only when its epoch was committed before, and
every change of the project empties that memory.

Here the processes have an order of age that the panel cannot see.

## Main results

* `converges_iff_timely` — **a run shows the newest daemon exactly when its events are timely**
-/

namespace AgentCockpit.Renderer

open AgentCockpit.Core

variable {τ : Type*} [LinearOrder τ] (age : String → τ)

/-- The panel shows, of the process it follows, the answer with the largest revision, and what
it commits of one process never gets older. -/
structure TopologyView.Latest (view : TopologyView) : Prop where
  newest : ∀ projectId, view.panel.topologyProjectId = some projectId →
    view.panel.topologySnapshotRef.epoch ≠ "" →
      (∃ answer ∈ view.received, answer.projectId = projectId ∧
        view.panel.topologySnapshotRef = interactiveTopology answer.snapshot) ∧
      ∀ answer ∈ view.received, answer.projectId = projectId →
        answer.snapshot.epoch = view.panel.topologySnapshotRef.epoch →
          answer.snapshot.revision ≤ view.panel.topologySnapshotRef.revision
  monotone : view.committed.Pairwise fun later earlier =>
    later.projectId = earlier.projectId → later.snapshot.epoch = earlier.snapshot.epoch →
      earlier.snapshot.revision ≤ later.snapshot.revision
  shown : view.panel.topologySnapshot = view.panel.topologySnapshotRef

/-- The effect an event ought to have. -/
structure Converges (view : TopologyView) (event : TopologyEvent) : Prop where
  latest : (view.after event).Latest
  /-- An older process does not replace a newer one. -/
  keeps : ∀ answer, event = .respond answer →
    view.panel.topologyProjectId = some answer.projectId →
      view.panel.topologySnapshotRef.epoch ≠ "" →
        age answer.snapshot.epoch < age view.panel.topologySnapshotRef.epoch →
          (view.after event).panel.topologySnapshotRef = view.panel.topologySnapshotRef
  /-- An answer of the newest process counts. -/
  accounted : ∀ answer, event = .respond answer →
    view.panel.activeId = some answer.projectId →
      (∀ earlier ∈ view.received, earlier.projectId = answer.projectId →
        age earlier.snapshot.epoch ≤ age answer.snapshot.epoch) →
      (view.after event).panel.topologyProjectId = some answer.projectId ∧
        (view.after event).panel.topologySnapshotRef.epoch = answer.snapshot.epoch ∧
        answer.snapshot.revision ≤ (view.after event).panel.topologySnapshotRef.revision

/-- Every process has an epoch. -/
def Answered (_ : TopologyView) : TopologyEvent → Prop
  | .respond answer => answer.snapshot.epoch ≠ ""
  | _ => True

/-- An answer is in time: it is of the process that the panel follows, or of one that it has
retired, or of a younger process than the one it follows, and then no other answer of its own
process has overtaken it. -/
def InTime (received : List Answer) (panel : TopologyPanel) (answer : Answer) : Prop :=
  answer.snapshot.epoch = panel.topologySnapshotRef.epoch ∨
    answer.snapshot.epoch ∈ panel.retiredTopologyEpochs ∨
    (panel.topologySnapshotRef.epoch = "" ∨
      age panel.topologySnapshotRef.epoch < age answer.snapshot.epoch) ∧
    ∀ earlier ∈ received, earlier.projectId = answer.projectId →
      earlier.snapshot.epoch = answer.snapshot.epoch →
        earlier.snapshot.revision ≤ answer.snapshot.revision

/-- The answers of the active project arrive in time. -/
def Timely (view : TopologyView) : TopologyEvent → Prop
  | .respond answer => view.panel.activeId = some answer.projectId →
    InTime age view.received (view.panel.track answer.projectId) answer
  | _ => True

variable {age} {view : TopologyView} {panel : TopologyPanel} {answer : Answer}
  {received : List Answer} {projectId : String} {event : TopologyEvent}

/-! ### What the panel knows of one project -/

/-- The refs of a project against the answers it received. -/
structure Follows (age : String → τ) (received : List Answer) (projectId : String)
    (panel : TopologyPanel) : Prop where
  source : panel.topologySnapshotRef.epoch ≠ "" → ∃ answer ∈ received,
    answer.projectId = projectId ∧
      panel.topologySnapshotRef = interactiveTopology answer.snapshot
  newest : ∀ answer ∈ received, answer.projectId = projectId →
    answer.snapshot.epoch = panel.topologySnapshotRef.epoch →
      answer.snapshot.revision ≤ panel.topologySnapshotRef.revision
  retired : ∀ epoch ∈ panel.retiredTopologyEpochs, age epoch < age panel.topologySnapshotRef.epoch
  empty : panel.topologySnapshotRef.epoch = "" → panel.retiredTopologyEpochs = []

/-- A panel without a memory. -/
theorem Follows.of_empty (hepoch : ∀ answer ∈ received, answer.snapshot.epoch ≠ "")
    (hsnapshot : panel.topologySnapshotRef = emptyMuxTopology)
    (hretired : panel.retiredTopologyEpochs = []) : Follows age received projectId panel where
  source h := absurd (congrArg MuxTopologySnapshot.epoch hsnapshot) h
  newest answer hmem _ h :=
    absurd (h.trans (congrArg MuxTopologySnapshot.epoch hsnapshot)) (hepoch answer hmem)
  retired epoch h := by
    rw [hretired] at h
    exact absurd h List.not_mem_nil
  empty _ := hretired

/-- An answer that is not committed: of another process, or not newer. -/
theorem Follows.keep (h : Follows age received answer.projectId panel)
    (hne : panel.topologySnapshotRef.epoch ≠ "")
    (hold : answer.snapshot.epoch = panel.topologySnapshotRef.epoch →
      answer.snapshot.revision ≤ panel.topologySnapshotRef.revision) :
    Follows age (answer :: received) answer.projectId panel := by
  refine ⟨fun _ => ?_, fun earlier hmem hproject hepoch => ?_, h.retired, h.empty⟩
  · obtain ⟨source, hmem, hsource⟩ := h.source hne
    exact ⟨source, List.mem_cons_of_mem _ hmem, hsource⟩
  · rcases List.mem_cons.mp hmem with rfl | hmem
    · exact hold hepoch
    · exact h.newest earlier hmem hproject hepoch

/-- An answer that is committed: the newest of its process, which is not older than the one
that was followed. -/
theorem Follows.commit (h : Follows age received answer.projectId panel)
    (hepoch : answer.snapshot.epoch ≠ "")
    (hage : panel.topologySnapshotRef.epoch = "" ∨
      panel.topologySnapshotRef.epoch = answer.snapshot.epoch ∨
      age panel.topologySnapshotRef.epoch < age answer.snapshot.epoch)
    (hnewest : ∀ earlier ∈ received, earlier.projectId = answer.projectId →
      earlier.snapshot.epoch = answer.snapshot.epoch →
        earlier.snapshot.revision ≤ answer.snapshot.revision) :
    Follows age (answer :: received) answer.projectId
      (panel.commit (interactiveTopology answer.snapshot)) := by
  refine ⟨fun _ => ⟨answer, List.mem_cons_self, rfl, rfl⟩, fun earlier hmem hproject hearlier => ?_,
    fun epoch hmem => ?_, fun hnone => absurd hnone hepoch⟩
  · rcases List.mem_cons.mp hmem with rfl | hmem
    · exact Nat.le_refl _
    · exact hnewest earlier hmem hproject hearlier
  · change epoch ∈ (if _ then _ else _) at hmem
    change age epoch < age answer.snapshot.epoch
    rcases hage with hnone | hsame | hlt
    · -- nothing was followed, so nothing is retired
      rw [if_neg fun hboth => hboth.1 hnone, h.empty hnone] at hmem
      exact absurd hmem List.not_mem_nil
    · rw [if_neg fun hboth => hboth.2 hsame] at hmem
      exact hsame ▸ h.retired epoch hmem
    · split at hmem
      · rcases List.mem_cons.mp hmem with rfl | hmem
        · exact hlt
        · exact (h.retired epoch hmem).trans hlt
      · exact (h.retired epoch hmem).trans hlt

/-- **One answer.** The panel drops it or commits it, and follows all answers either way. -/
theorem Follows.respond (h : Follows age received answer.projectId panel)
    (hepoch : answer.snapshot.epoch ≠ "") (htimely : InTime age received panel answer) :
    reconcileMuxTopology panel.topologySnapshotRef (interactiveTopology answer.snapshot)
        panel.retiredTopologyEpochs = none ∧ panel.topologySnapshotRef.epoch ≠ "" ∧
        Follows age (answer :: received) answer.projectId panel ∨
      reconcileMuxTopology panel.topologySnapshotRef (interactiveTopology answer.snapshot)
          panel.retiredTopologyEpochs = some (interactiveTopology answer.snapshot) ∧
        Follows age (answer :: received) answer.projectId
          (panel.commit (interactiveTopology answer.snapshot)) := by
  by_cases hsame : answer.snapshot.epoch = panel.topologySnapshotRef.epoch
  · have hne : panel.topologySnapshotRef.epoch ≠ "" := hsame ▸ hepoch
    rcases reconcile_of_epoch_eq panel.retiredTopologyEpochs
      (show (interactiveTopology answer.snapshot).epoch = _ from hsame) with
      ⟨hnone, hold⟩ | ⟨hsome, hnew⟩
    · refine .inl ⟨hnone, hne, h.keep hne fun _ => ?_⟩
      rcases hold with hlt | heq
      · exact Nat.le_of_lt hlt
      · rw [← heq]
        exact Nat.le_refl _
    · exact .inr ⟨hsome, h.commit hepoch (.inr (.inl hsame.symm)) fun earlier hmem hproject heq =>
        (h.newest earlier hmem hproject (heq.trans hsame)).trans hnew⟩
  · have hreconcile := reconcile_interactive_of_epoch_ne panel.retiredTopologyEpochs hsame
    by_cases hretired : answer.snapshot.epoch ∈ panel.retiredTopologyEpochs
    · rw [if_pos hretired] at hreconcile
      have hne : panel.topologySnapshotRef.epoch ≠ "" := by
        intro hnone
        rw [h.empty hnone] at hretired
        exact absurd hretired List.not_mem_nil
      exact .inl ⟨hreconcile, hne, h.keep hne fun heq => absurd heq hsame⟩
    · rw [if_neg hretired] at hreconcile
      obtain ⟨hage, hnewest⟩ := (htimely.resolve_left hsame).resolve_left hretired
      exact .inr ⟨hreconcile, h.commit hepoch (hage.imp_right .inr) hnewest⟩

/-! ### One event -/

theorem track_topologyProjectId (panel : TopologyPanel) (projectId : String) :
    (panel.track projectId).topologyProjectId = some projectId := by
  unfold TopologyPanel.track
  split
  · rfl
  · next h => exact not_not.mp h

/-- An answer for a project that is not active is dropped. -/
theorem after_respond_inactive (h : view.panel.activeId ≠ some answer.projectId) :
    view.after (.respond answer) = view := by
  rw [TopologyView.after, TopologyPanel.commitTopology, if_pos h, if_neg h]
  rfl

theorem after_respond_none (h : view.panel.activeId = some answer.projectId)
    (hnone : reconcileMuxTopology (view.panel.track answer.projectId).topologySnapshotRef
      (interactiveTopology answer.snapshot)
      (view.panel.track answer.projectId).retiredTopologyEpochs = none) :
    view.after (.respond answer) =
      { panel := view.panel.track answer.projectId
        received := answer :: view.received
        committed := view.committed } := by
  rw [TopologyView.after, TopologyPanel.commitTopology, if_neg (not_not_intro h), if_pos h]
  dsimp only
  rw [hnone]
  rfl

theorem after_respond_some (h : view.panel.activeId = some answer.projectId)
    {next : MuxTopologySnapshot}
    (hsome : reconcileMuxTopology (view.panel.track answer.projectId).topologySnapshotRef
      (interactiveTopology answer.snapshot)
      (view.panel.track answer.projectId).retiredTopologyEpochs = some next) :
    view.after (.respond answer) =
      { panel := (view.panel.track answer.projectId).commit next
        received := answer :: view.received
        committed := answer :: view.committed } := by
  rw [TopologyView.after, TopologyPanel.commitTopology, if_neg (not_not_intro h), if_pos h]
  dsimp only
  rw [hsome]
  rfl

/-- The invariant of timely runs. -/
structure Ordered (age : String → τ) (view : TopologyView) : Prop where
  follows : ∀ projectId, view.panel.topologyProjectId = some projectId →
    Follows age view.received projectId view.panel
  epochs : ∀ answer ∈ view.received, answer.snapshot.epoch ≠ ""
  committed : ∀ answer ∈ view.committed, answer ∈ view.received
  monotone : view.committed.Pairwise fun later earlier =>
    later.projectId = earlier.projectId → later.snapshot.epoch = earlier.snapshot.epoch →
      earlier.snapshot.revision ≤ later.snapshot.revision
  shown : view.panel.topologySnapshot = view.panel.topologySnapshotRef

namespace Ordered

theorem start : Ordered age {} where
  follows _ h := nomatch h
  epochs _ h := absurd h List.not_mem_nil
  committed _ h := h
  monotone := .nil
  shown := rfl

theorem latest (h : Ordered age view) : view.Latest where
  newest projectId hproject hne :=
    ⟨(h.follows projectId hproject).source hne, (h.follows projectId hproject).newest⟩
  monotone := h.monotone
  shown := h.shown

/-- Whatever project an answer is for, the panel follows the answers for it. -/
theorem track (h : Ordered age view) (projectId : String) :
    Follows age view.received projectId (view.panel.track projectId) := by
  unfold TopologyPanel.track
  split
  · exact .of_empty h.epochs rfl rfl
  · next hproject => exact h.follows projectId (not_not.mp hproject)

/-- An answer in time keeps the invariant. -/
theorem respond (h : Ordered age view) (hactive : view.panel.activeId = some answer.projectId)
    (hepoch : answer.snapshot.epoch ≠ "")
    (htimely : InTime age view.received (view.panel.track answer.projectId) answer) :
    Ordered age (view.after (.respond answer)) := by
  have hepochs : ∀ earlier ∈ answer :: view.received, earlier.snapshot.epoch ≠ "" :=
    List.forall_mem_cons.mpr ⟨hepoch, h.epochs⟩
  rcases (h.track answer.projectId).respond hepoch htimely with
    ⟨hnone, hne, hfollows⟩ | ⟨hsome, hfollows⟩
  · rw [after_respond_none hactive hnone]
    refine ⟨fun projectId hproject => ?_, hepochs, fun earlier hmem =>
      List.mem_cons_of_mem _ (h.committed earlier hmem), h.monotone, ?_⟩
    · obtain rfl := Option.some.inj ((track_topologyProjectId _ _).symm.trans hproject)
      exact hfollows
    · -- a panel that has just lost its memory does not drop an answer
      change (view.panel.track answer.projectId).topologySnapshot = _
      unfold TopologyPanel.track at hne ⊢
      split at hne
      · exact absurd rfl hne
      · next hproject =>
        rw [if_neg hproject]
        exact h.shown
  · rw [after_respond_some hactive hsome]
    refine ⟨fun projectId hproject => ?_, hepochs, fun earlier hmem => ?_,
      List.pairwise_cons.mpr ⟨fun earlier hmem hproject heq => ?_, h.monotone⟩, rfl⟩
    · obtain rfl := Option.some.inj ((track_topologyProjectId _ _).symm.trans hproject)
      exact hfollows
    · rcases List.mem_cons.mp hmem with rfl | hmem
      · exact List.mem_cons_self
      · exact List.mem_cons_of_mem _ (h.committed earlier hmem)
    · exact hfollows.newest earlier (List.mem_cons_of_mem _ (h.committed earlier hmem))
        hproject.symm heq.symm

/-- A timely event keeps the invariant. -/
theorem after (h : Ordered age view) (hanswered : Answered view event)
    (htimely : Timely age view event) : Ordered age (view.after event) := by
  cases event with
  | select activeId muxBackend =>
    refine ⟨fun projectId hproject => ?_, h.epochs, h.committed, h.monotone, h.shown⟩
    obtain ⟨hsource, hnewest, hretired, hempty⟩ := h.follows projectId hproject
    exact ⟨hsource, hnewest, hretired, hempty⟩
  | follow =>
    have hlost : ∀ panel : TopologyPanel, panel.topologySnapshotRef = emptyMuxTopology →
        panel.retiredTopologyEpochs = [] → panel.topologySnapshot = emptyMuxTopology →
          Ordered age { view with panel } := fun panel href hretired hshown =>
      ⟨fun _ _ => .of_empty h.epochs href hretired, h.epochs, h.committed, h.monotone,
        hshown.trans href.symm⟩
    change Ordered age { view with panel := view.panel.followProject }
    unfold TopologyPanel.followProject
    split
    · next projectId _ _ =>
      split
      · next hproject =>
        rw [TopologyPanel.track, if_pos hproject]
        exact hlost _ rfl rfl rfl
      · exact h
    · exact hlost _ rfl rfl rfl
  | respond answer =>
    by_cases hactive : view.panel.activeId = some answer.projectId
    · exact h.respond hactive hanswered (htimely hactive)
    · rw [after_respond_inactive hactive]
      exact h

/-- In a panel that follows another process, an answer of a process that is not retired is
committed. -/
theorem after_respond_taken (hactive : view.panel.activeId = some answer.projectId)
    (hne : answer.snapshot.epoch ≠
      (view.panel.track answer.projectId).topologySnapshotRef.epoch)
    (hretired : answer.snapshot.epoch ∉
      (view.panel.track answer.projectId).retiredTopologyEpochs) :
    view.after (.respond answer) =
      { panel := (view.panel.track answer.projectId).commit (interactiveTopology answer.snapshot)
        received := answer :: view.received
        committed := answer :: view.committed } := by
  refine after_respond_some hactive ?_
  rw [reconcile_interactive_of_epoch_ne _ hne, if_neg hretired]

/-- An answer of a retired process is dropped. -/
theorem after_respond_retired (hactive : view.panel.activeId = some answer.projectId)
    (hne : answer.snapshot.epoch ≠
      (view.panel.track answer.projectId).topologySnapshotRef.epoch)
    (hretired : answer.snapshot.epoch ∈
      (view.panel.track answer.projectId).retiredTopologyEpochs) :
    view.after (.respond answer) =
      { panel := view.panel.track answer.projectId
        received := answer :: view.received
        committed := view.committed } := by
  refine after_respond_none hactive ?_
  rw [reconcile_interactive_of_epoch_ne _ hne, if_pos hretired]

theorem track_of_tracked (h : view.panel.topologyProjectId = some projectId) :
    view.panel.track projectId = view.panel :=
  if_neg (not_not_intro h)

/-- A timely event has the effect it ought to have. -/
theorem converges (h : Ordered age view) (hanswered : Answered view event)
    (htimely : Timely age view event) : Converges age view event := by
  refine ⟨(h.after hanswered htimely).latest, ?_, ?_⟩
  · rintro answer rfl hproject hne hlt
    by_cases hactive : view.panel.activeId = some answer.projectId
    · have htrack := track_of_tracked hproject
      have hepoch : answer.snapshot.epoch ≠ view.panel.topologySnapshotRef.epoch :=
        fun heq => absurd (congrArg age heq) hlt.ne
      have hintime := htimely hactive
      rw [InTime, htrack] at hintime
      rcases hintime with hsame | hretired | ⟨hage, -⟩
      · exact absurd hsame hepoch
      · rw [← htrack] at hepoch hretired
        rw [after_respond_retired hactive hepoch hretired, htrack]
      · exact absurd (hage.resolve_left hne) hlt.not_gt
    · rw [after_respond_inactive hactive]
  · rintro answer rfl hactive hnewest
    have hfollows := h.track answer.projectId
    rcases hfollows.respond hanswered (htimely hactive) with ⟨hnone, hne, hkept⟩ | ⟨hsome, -⟩
    · rw [after_respond_none hactive hnone]
      refine ⟨track_topologyProjectId _ _, ?_⟩
      by_cases hsame : answer.snapshot.epoch =
          (view.panel.track answer.projectId).topologySnapshotRef.epoch
      · exact ⟨hsame.symm, hkept.newest answer List.mem_cons_self rfl hsame⟩
      · -- what is followed came from a process that is not younger, so it is not retired
        rw [reconcile_interactive_of_epoch_ne _ hsame] at hnone
        have hretired : answer.snapshot.epoch ∈
            (view.panel.track answer.projectId).retiredTopologyEpochs := by
          by_contra hnot
          rw [if_neg hnot] at hnone
          exact nomatch hnone
        obtain ⟨source, hmem, hproject, hsource⟩ := hfollows.source hne
        have hlt := hfollows.retired _ hretired
        rw [hsource, interactiveTopology_epoch] at hlt
        exact absurd (hnewest source hmem hproject) hlt.not_ge
    · rw [after_respond_some hactive hsome]
      exact ⟨track_topologyProjectId _ _, rfl, Nat.le_refl _⟩

/-- An event that is not timely misses the effect it ought to have. -/
theorem timely_of_converges (hage : Function.Injective age) (hanswered : Answered view event)
    (hconverges : Converges age view event) : Timely age view event := by
  cases event with
  | select activeId muxBackend => trivial
  | follow => trivial
  | respond answer =>
    intro hactive
    by_cases hsame : answer.snapshot.epoch =
        (view.panel.track answer.projectId).topologySnapshotRef.epoch
    · exact .inl hsame
    by_cases hretired : answer.snapshot.epoch ∈
        (view.panel.track answer.projectId).retiredTopologyEpochs
    · exact .inr (.inl hretired)
    have htaken := after_respond_taken hactive hsame hretired
    refine .inr (.inr ⟨?_, fun earlier hmem hproject heq => ?_⟩)
    · by_contra hold
      obtain ⟨hne, hle⟩ := not_or.mp hold
      have hlt : age answer.snapshot.epoch <
          age (view.panel.track answer.projectId).topologySnapshotRef.epoch :=
        lt_of_le_of_ne (not_lt.mp hle) fun heq => hsame (hage heq)
      by_cases hproject : view.panel.topologyProjectId = some answer.projectId
      · rw [track_of_tracked hproject] at hne hlt hsame
        have hkeeps := hconverges.keeps answer rfl hproject hne hlt
        have hepoch := congrArg MuxTopologySnapshot.epoch hkeeps
        rw [htaken] at hepoch
        exact hsame hepoch
      · refine hne ?_
        rw [TopologyPanel.track, if_pos hproject]
        rfl
    · have hnewest := hconverges.latest.newest answer.projectId
      rw [htaken] at hnewest
      exact (hnewest (track_topologyProjectId _ _) hanswered).2 earlier
        (List.mem_cons_of_mem _ hmem) hproject heq

end Ordered

/-- **The newest daemon is shown.** In a run every event of which has the effect it ought to
have, every event is timely, and the other way round. -/
theorem converges_iff_timely (hage : Function.Injective age) (w : List TopologyEvent)
    (last : TopologyView) :
    Run TopologyView.step (fun view event => Answered view event ∧ Converges age view event)
        {} w last ↔
      Run TopologyView.step (fun view event => Answered view event ∧ Timely age view event)
        {} w last := by
  symm
  refine Run.congr_guard (fun view event next (h : Ordered age view) hadmits hstep => ?_)
    (fun view event h => ?_) .start
  · exact Option.some.inj hstep ▸ h.after hadmits.1 hadmits.2
  · exact and_congr_right fun hanswered =>
      ⟨h.converges hanswered, Ordered.timely_of_converges hage hanswered⟩

/-- The first answer of the process that is alive. -/
def aliveAnswer : Answer where
  projectId := "p"
  snapshot := { epoch := "b", revision := 1, sessions := [] }

/-- An answer of the process before it, which took longer. -/
def lateAnswer : Answer where
  projectId := "p"
  snapshot := { epoch := "a", revision := 7, sessions := [] }

def aliveView : TopologyView :=
  (TopologyView.after {} (.select (some "p") true)).after (.respond aliveAnswer)

theorem converges_iff_timely_aliveView :
    Run TopologyView.step (fun view event => Answered view event ∧ Converges id view event)
      {} [.select (some "p") true, .respond aliveAnswer] aliveView := by
  refine (converges_iff_timely Function.injective_id _ _).mpr ?_
  have hintime : InTime id [] (TopologyPanel.track { activeId := some "p" } "p") aliveAnswer :=
    .inr (.inr ⟨.inl rfl, fun _ hmem => absurd hmem List.not_mem_nil⟩)
  exact .cons ⟨trivial, trivial⟩ rfl (.single ⟨by simp [Answered, aliveAnswer],
    fun _ => hintime⟩ rfl)

/-- The first answer of the process before is shown in place of the process that is alive. -/
theorem late_answer_shown : ¬ ∀ w last, Run TopologyView.step Answered {} w last →
    Run TopologyView.step (fun view event => Answered view event ∧ Converges id view event)
      {} w last := by
  intro hclaim
  have hnamed : ∀ view : TopologyView, Answered view (.respond aliveAnswer) ∧
      Answered view (.respond lateAnswer) := fun view => by
    simp [Answered, aliveAnswer, lateAnswer]
  have hrun : Run TopologyView.step Answered {}
      ([.select (some "p") true, .respond aliveAnswer] ++ [.respond lateAnswer])
      (aliveView.after (.respond lateAnswer)) :=
    .cons trivial rfl (.cons (hnamed _).1 rfl (.single (hnamed _).2 rfl))
  obtain ⟨view, hbefore, hafter⟩ := (hclaim _ _ hrun).split
  have hview : view = aliveView := by
    obtain _ | ⟨-, hselect, _ | ⟨-, hrespond, _ | _⟩⟩ := hbefore
    obtain rfl := Option.some.inj hselect
    exact (Option.some.inj hrespond).symm
  obtain _ | ⟨⟨-, hconverges⟩, -, -⟩ := hafter
  have hkeeps := hconverges.keeps lateAnswer rfl (by rw [hview]; rfl)
    (by rw [hview]; decide) (by rw [hview]; decide)
  rw [hview] at hkeeps
  exact absurd (congrArg MuxTopologySnapshot.epoch hkeeps) (by decide)

end AgentCockpit.Renderer
