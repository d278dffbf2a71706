import AgentCockpit.Core.Run

/-!
# Re-initialisation of a control session

A channel that attaches announces its epoch, and the renderer re-initialises the project: it reads
the windows of the session, reconciles the reserved ones, reads the windows again and adopts the
active one. The run suspends at each of these commands and ends by remembering the epoch that it
began for. One run is to be in flight at a time; what is asked for meanwhile is looked at when it
ends, and a run that could not read the windows is retried some times. A reply that reports an
error is read like any other, so its text may pass for windows.

One project is modelled. A reply resumes its run, which goes on up to its next command or to its
end; how many commands a reconciliation has is left to the environment.

## Main results

* `reinit_follows_epoch` — **in undisturbed runs re-initialisation follows the epoch**
-/

namespace AgentCockpit.Renderer

open AgentCockpit.Core

/-- The command that a run waits for: the first list of windows, the reconciliation, the two lists
of the synchronisation, and the query of the active window. -/
inductive ReinitStage
  | listing | reconciling | syncing | layouts | restoring
  deriving DecidableEq

/-- A run, with the moment at which it began; `read` tells whether its synchronisation has read
windows. -/
structure ReinitRun where
  id : ℕ
  target : ℕ
  stage : ReinitStage := .listing
  begun : ℕ
  read : Bool := false
  deriving DecidableEq

/-- The windows among the lines of a reply: an identifier, a space and the rest. -/
def listWindows (lines : List (List Char)) : List (List Char × List Char) :=
  lines.filterMap fun line =>
    let id := line.takeWhile (· ≠ ' ')
    if id = [] ∨ id = line then none else some (id, (line.dropWhile (· ≠ ' ')).drop 1)

/-- How a command ends. Behind a list of windows the reconciliation may have a command to send, and
behind a command another one. -/
inductive CommandReply
  | lines (error : Bool) (lines : List (List Char)) (reconciles : Bool)
  | done (again : Bool)
  | failed
  deriving DecidableEq

/-- One project. The clock counts attaches and resets; `failed` tells whether a list of windows
failed or was empty since the last attach, `openFailed` whether the open of the last acquisition
was rejected. -/
structure ControlReinit where
  active : Bool := false
  channelEpoch : Option ℕ := none
  initializedEpoch : Option ℕ := none
  reinitInFlight : Option ℕ := none
  reinitPending : Bool := false
  /-- The retry timer is set. -/
  reinitRetry : Bool := false
  reinitRetryAttempts : ℕ := 0
  /-- The open that an acquisition awaits. -/
  inFlight : Option ℕ := none
  runs : List ReinitRun := []
  opens : List ℕ := []
  /-- How many runs and opens there were. -/
  issued : ℕ := 0
  clock : ℕ := 0
  resetAt : ℕ := 0
  /-- The epochs that were announced, with the moments. -/
  announced : List (ℕ × ℕ) := []
  failed : Bool := false
  openFailed : Bool := false
  deriving DecidableEq

inductive ReinitEvent
  | attached (epoch : ℕ)
  | acquire
  /-- Another project is acquired. -/
  | leave
  | teardown
  | opened (id : ℕ)
  | openFailed (id : ℕ)
  | reply (id : ℕ) (reply : CommandReply)
  | retry
  deriving DecidableEq

def reinitRetryMax : ℕ := 15

namespace ControlReinit

variable (s : ControlReinit)

def clearReinitRetry : ControlReinit :=
  { s with reinitRetry := false, reinitRetryAttempts := 0 }

def scheduleReinitRetry : ControlReinit :=
  let attempts := s.reinitRetryAttempts + 1
  if attempts > reinitRetryMax then s.clearReinitRetry
  else { s with reinitRetry := true, reinitRetryAttempts := attempts }

def maybeReinit : ControlReinit :=
  if s.active = false then s
  else
    match s.channelEpoch with
    | none => s
    | some target =>
      if s.initializedEpoch = some target then s
      else if s.reinitInFlight.isSome then { s with reinitPending := true }
      else
        { s with
          runs := { id := s.issued, target, begun := s.clock } :: s.runs
          reinitInFlight := some s.issued
          issued := s.issued + 1 }

/-- A run has ended. -/
def settle (run : ReinitRun) : ControlReinit :=
  let settled := { s with
    runs := s.runs.filter (·.id ≠ run.id)
    reinitInFlight := if s.reinitInFlight = some run.id then none else s.reinitInFlight
    reinitPending := false }
  if s.reinitPending ∨ s.initializedEpoch.isSome ∧ s.channelEpoch ≠ s.initializedEpoch then
    settled.maybeReinit
  else settled

/-- A run that could not synchronise ends with a retry. -/
def unsynced (run : ReinitRun) : ControlReinit :=
  s.scheduleReinitRetry.settle run

def enter (run : ReinitRun) (stage : ReinitStage) : ControlReinit :=
  { s with runs := { run with stage } :: s.runs.filter (·.id ≠ run.id) }

def replied (run : ReinitRun) : CommandReply → Option ControlReinit
  | .lines error lines reconciles =>
    match run.stage with
    | .listing =>
      let s := { s with failed := s.failed ∨ error ∨ listWindows lines = [] }
      some (if s.active = false ∨ listWindows lines = [] then s.unsynced run
        else s.enter run (if reconciles then .reconciling else .syncing))
    | .syncing =>
      let s := { s with failed := s.failed ∨ error ∨ listWindows lines = [] }
      some (if s.active = false ∨ listWindows lines = [] then s.unsynced run
        else s.enter { run with read := !error } .layouts)
    | .layouts =>
      let s := { s with failed := s.failed ∨ error }
      some (if s.active = false then s.unsynced run
        else s.clearReinitRetry.enter run .restoring)
    | _ => none
  | .done again =>
    match run.stage with
    | .reconciling => some (s.enter run (if again then .reconciling else .syncing))
    | .restoring => some ({ s with initializedEpoch := some run.target }.settle run)
    | _ => none
  | .failed =>
    match run.stage with
    | .listing => some ({ s with failed := true }.enter run .syncing)
    | .reconciling => some (s.enter run .syncing)
    | .syncing | .layouts => some ({ s with failed := true }.unsynced run)
    | .restoring => some ({ s with initializedEpoch := some run.target }.settle run)

def settleOpen (id : ℕ) : ControlReinit :=
  { s with
    opens := s.opens.filter (· ≠ id)
    inFlight := if s.inFlight = some id then none else s.inFlight }

/-- Both the lifecycle and the view of the project are reset, so that it is no longer active. -/
def teardownControlSession : ControlReinit :=
  { s.clearReinitRetry with
    initializedEpoch := none
    reinitInFlight := none
    reinitPending := false
    inFlight := none
    active := false
    clock := s.clock + 1
    resetAt := s.clock + 1 }

def step : ReinitEvent → Option ControlReinit
  | .attached epoch => some { s with
      channelEpoch := some epoch
      clock := s.clock + 1
      announced := (epoch, s.clock + 1) :: s.announced
      failed := false }.maybeReinit
  | .acquire =>
    let s := { s with active := true, openFailed := false }
    some (match s.inFlight with
      | some _ => s
      | none => { s with
          opens := s.issued :: s.opens, inFlight := some s.issued, issued := s.issued + 1 })
  | .leave => some { s with active := false }
  | .teardown => some s.teardownControlSession
  | .opened id => if id ∈ s.opens then some (s.maybeReinit.settleOpen id) else none
  | .openFailed id =>
    if id ∈ s.opens then
      some { s.settleOpen id with openFailed := s.openFailed ∨ s.inFlight = some id }
    else none
  | .reply id reply => (s.runs.find? (·.id = id)).bind (s.replied · reply)
  | .retry =>
    if s.reinitRetry then some { s with reinitRetry := false }.maybeReinit else none

/-- The run was begun after the attach of its epoch was announced and after the last reset. -/
def Current (run : ReinitRun) : Prop :=
  s.resetAt ≤ run.begun ∧ (∃ moment, (run.target, moment) ∈ s.announced) ∧
    ∀ moment, (run.target, moment) ∈ s.announced → moment ≤ run.begun

/-- Neither a teardown nor the attach of the epoch of a run finds that run in flight, and an error
never passes for the windows that a synchronisation reads. -/
def Undisturbed : ReinitEvent → Prop
  | .teardown => s.runs = []
  | .attached epoch => ∀ run ∈ s.runs, run.target ≠ epoch
  | .reply id (.lines error lines _) => ∀ run ∈ s.runs, run.id = id → run.stage = .syncing →
      error = true → listWindows lines = []
  | _ => True

/-- Epochs increase from one reset to the next. -/
def EpochsIncrease : ReinitEvent → Prop
  | .attached epoch => ∀ earlier ∈ s.announced, s.resetAt < earlier.2 → earlier.1 < epoch
  | _ => True

instance : DecidablePred s.Undisturbed := fun event => by
  unfold Undisturbed
  split <;> infer_instance

instance : DecidablePred s.EpochsIncrease := fun event => by
  unfold EpochsIncrease
  split <;> infer_instance

variable {s} {next : ControlReinit} {run : ReinitRun} {event : ReinitEvent}

/-! ### One run at a time -/

/-- One run at most is in flight, the one that is remembered; it is current, and past its
synchronisation it has read windows. -/
structure Base (s : ControlReinit) : Prop where
  single : (s.runs = [] ∧ s.reinitInFlight = none) ∨
    ∃ run, s.runs = [run] ∧ s.reinitInFlight = some run.id
  current : ∀ run ∈ s.runs, s.Current run
  read : ∀ run ∈ s.runs, run.stage = .layouts ∨ run.stage = .restoring → run.read = true
  clock : s.resetAt ≤ s.clock
  moments : ∀ earlier ∈ s.announced, earlier.2 ≤ s.clock
  announced : ∀ epoch, s.channelEpoch = some epoch → ∃ moment, (epoch, moment) ∈ s.announced
  absent : s.channelEpoch = none → s.initializedEpoch = none ∧ s.runs = []
  opens : ∀ id, s.inFlight = some id → id ∈ s.opens

/-- Whatever an active project has not caught up with is in flight or scheduled, unless its windows
could not be listed or its open was rejected. -/
structure Sound (s : ControlReinit) : Prop extends Base s where
  caught : s.active = true → s.initializedEpoch ≠ s.channelEpoch →
    s.runs ≠ [] ∨ s.reinitRetry = true ∨ s.inFlight ≠ none ∨ s.failed = true ∨
      s.openFailed = true

theorem Sound.start : ({} : ControlReinit).Sound where
  single := .inl ⟨rfl, rfl⟩
  current := nofun
  read := nofun
  clock := Nat.le_refl 0
  moments := nofun
  announced := nofun
  absent _ := ⟨rfl, rfl⟩
  opens := nofun
  caught := nofun

/-- What a request for a run does. -/
theorem maybeReinit_cases (s : ControlReinit) :
    s.maybeReinit = s ∧
        (s.active = true → s.channelEpoch = none ∨ s.initializedEpoch = s.channelEpoch) ∨
      s.maybeReinit = { s with reinitPending := true } ∧ s.reinitInFlight.isSome = true ∨
      ∃ target, s.channelEpoch = some target ∧ s.reinitInFlight = none ∧
        s.maybeReinit = { s with
          runs := { id := s.issued, target, begun := s.clock } :: s.runs
          reinitInFlight := some s.issued
          issued := s.issued + 1 } := by
  unfold maybeReinit
  split
  · next hactive =>
    exact .inl ⟨rfl, fun htrue => nomatch hactive.symm.trans htrue⟩
  · split
    · next hchannel => exact .inl ⟨rfl, fun _ => .inl hchannel⟩
    · next target hchannel =>
      split
      · next hcaught => exact .inl ⟨rfl, fun _ => .inr (hcaught.trans hchannel.symm)⟩
      · split
        · next hbusy => exact .inr (.inl ⟨rfl, hbusy⟩)
        · next hidle =>
          exact .inr (.inr ⟨target, hchannel, Option.not_isSome_iff_eq_none.mp hidle, rfl⟩)

namespace Base

theorem eq_of_mem (h : s.Base) (hrun : run ∈ s.runs) :
    s.runs = [run] ∧ s.reinitInFlight = some run.id := by
  rcases h.single with ⟨hnone, -⟩ | ⟨other, hruns, hflight⟩
  · exact absurd hrun (hnone ▸ List.not_mem_nil)
  · rw [hruns, List.mem_singleton] at hrun
    exact hrun ▸ ⟨hruns, hflight⟩

/-- A run that begins is current. -/
theorem maybeReinit (h : s.Base) : s.maybeReinit.Base := by
  rcases maybeReinit_cases s with ⟨heq, -⟩ | ⟨heq, -⟩ | ⟨target, hchannel, hidle, heq⟩
  · rw [heq]
    exact h
  · rw [heq]
    exact { h with }
  · have hruns : s.runs = [] := by
      rcases h.single with ⟨hnone, -⟩ | ⟨other, -, hflight⟩
      · exact hnone
      · exact nomatch hidle.symm.trans hflight
    rw [heq, hruns]
    refine { h with single := .inr ⟨_, rfl, rfl⟩, current := ?_, read := ?_, absent := ?_ }
    · intro run hrun
      rw [List.mem_singleton] at hrun
      subst hrun
      exact ⟨h.clock, h.announced target hchannel, fun moment hmoment => h.moments _ hmoment⟩
    · intro run hrun hstage
      rw [List.mem_singleton] at hrun
      subst hrun
      exact nomatch hstage
    · exact fun habsent => nomatch hchannel.symm.trans habsent

/-- After a request for a run an active project has caught up or has a run in flight. -/
theorem caught_maybeReinit (h : s.Base) :
    s.maybeReinit.active = true →
      s.maybeReinit.initializedEpoch ≠ s.maybeReinit.channelEpoch → s.maybeReinit.runs ≠ [] := by
  rcases maybeReinit_cases s with ⟨heq, hcaught⟩ | ⟨heq, hbusy⟩ | ⟨target, -, -, heq⟩
  · rw [heq]
    intro hactive hbehind
    rcases hcaught hactive with habsent | hsame
    · exact absurd ((h.absent habsent).1.trans habsent.symm) hbehind
    · exact absurd hsame hbehind
  · rw [heq]
    intro _ _ hnone
    rcases h.single with ⟨-, hflight⟩ | ⟨run, hruns, -⟩
    · exact nomatch (hflight ▸ hbusy)
    · exact nomatch hruns.symm.trans hnone
  · rw [heq]
    exact fun _ _ => nofun

theorem sound_maybeReinit (h : s.Base) : s.maybeReinit.Sound :=
  { h.maybeReinit with
    caught := fun hactive hbehind => .inl (h.caught_maybeReinit hactive hbehind) }

/-- A run ends; what has changed since it began is looked at. -/
theorem settle (h : s.Base) (hrun : run ∈ s.runs)
    (hreason : s.active = true → s.initializedEpoch = none → s.initializedEpoch ≠ s.channelEpoch →
      s.reinitRetry = true ∨ s.inFlight ≠ none ∨ s.failed = true ∨ s.openFailed = true) :
    (s.settle run).Sound := by
  obtain ⟨hruns, hflight⟩ := h.eq_of_mem hrun
  have hsettled : { s with runs := [], reinitInFlight := none, reinitPending := false }.Base :=
    { h with
      single := .inl ⟨rfl, rfl⟩
      current := nofun
      read := nofun
      absent := fun habsent => ⟨(h.absent habsent).1, rfl⟩ }
  have heq : s.settle run =
      if s.reinitPending ∨ s.initializedEpoch.isSome ∧ s.channelEpoch ≠ s.initializedEpoch then
        { s with runs := [], reinitInFlight := none, reinitPending := false }.maybeReinit
      else { s with runs := [], reinitInFlight := none, reinitPending := false } := by
    simp [ControlReinit.settle, hruns, hflight]
  rw [heq]
  split
  · exact hsettled.sound_maybeReinit
  · next hquiet =>
    refine { hsettled with caught := fun hactive hbehind => .inr ?_ }
    rw [not_or, not_and] at hquiet
    cases hinitialized : s.initializedEpoch with
    | none => exact hreason hactive hinitialized hbehind
    | some epoch => exact absurd (hquiet.2 (by rw [hinitialized]; rfl)) (not_not.mpr hbehind.symm)

/-- A run that could not synchronise is retried, unless its windows could not be listed. -/
theorem unsynced (h : s.Base) (hrun : run ∈ s.runs)
    (hreason : s.active = false ∨ s.failed = true) : (s.unsynced run).Sound := by
  unfold ControlReinit.unsynced scheduleReinitRetry clearReinitRetry
  dsimp only
  split
  · refine Base.settle (s := { s with reinitRetry := false, reinitRetryAttempts := 0 }) { h with }
      hrun fun hactive _ _ => ?_
    rcases hreason with hinactive | hfailed
    · exact nomatch hinactive.symm.trans hactive
    · exact .inr (.inr (.inl hfailed))
  · exact Base.settle (s := { s with reinitRetry := true, reinitRetryAttempts := _ }) { h with }
      hrun fun _ _ _ => .inl rfl

/-- A run goes on to another command. -/
theorem enter (h : s.Base) (hrun : run ∈ s.runs) (read : Bool) (stage : ReinitStage)
    (hread : stage = .layouts ∨ stage = .restoring → read = true) :
    (s.enter { run with read } stage).Sound := by
  obtain ⟨hruns, hflight⟩ := h.eq_of_mem hrun
  have hcurrent := h.current run hrun
  have hnone : s.runs.filter (·.id ≠ run.id) = [] := by simp [hruns]
  unfold ControlReinit.enter
  dsimp only
  rw [hnone]
  refine { h with
    single := .inr ⟨_, rfl, hflight⟩, current := ?_, read := ?_, absent := ?_
    caught := fun _ _ => .inl nofun }
  · intro other hother
    rw [List.mem_singleton] at hother
    subst hother
    exact hcurrent
  · intro other hother hstage
    rw [List.mem_singleton] at hother
    subst hother
    exact hread hstage
  · intro habsent
    exact nomatch hruns.symm.trans (h.absent habsent).2

/-- An open that has ended is no longer awaited. -/
theorem settleOpen (h : s.Base) (id : ℕ) : (s.settleOpen id).Base where
  __ := h
  opens := by
    intro other hother
    dsimp only [ControlReinit.settleOpen] at hother ⊢
    split at hother
    · exact nomatch hother
    · next hid =>
      refine List.mem_filter.mpr ⟨h.opens other hother, decide_eq_true fun hsame => hid ?_⟩
      exact hsame ▸ hother

theorem flagged (h : s.Base) (failed : Bool) : { s with failed }.Base :=
  { h with }

theorem cleared (h : s.Base) : s.clearReinitRetry.Base :=
  { h with }

/-- A run that has restored the active window ends with the epoch that it began for. -/
theorem restored (h : s.Base) (hrun : run ∈ s.runs) :
    ({ s with initializedEpoch := some run.target }.settle run).Sound := by
  have hwritten : { s with initializedEpoch := some run.target }.Base :=
    { h with absent := fun habsent => absurd hrun ((h.absent habsent).2 ▸ List.not_mem_nil) }
  exact hwritten.settle hrun nofun

/-- A reply moves its run on or ends it. -/
theorem replied (h : s.Base) (hrun : run ∈ s.runs) {reply : CommandReply}
    (hadmits : s.Undisturbed (.reply run.id reply)) (hstep : s.replied run reply = some next) :
    next.Sound := by
  unfold ControlReinit.replied at hstep
  cases reply with
  | lines error lines reconciles =>
    dsimp only at hstep
    split at hstep
    · obtain rfl := Option.some.inj hstep
      split
      · next hbail =>
        refine (h.flagged _).unsynced hrun (hbail.imp_right fun hempty => ?_)
        exact decide_eq_true (.inr (.inr hempty))
      · refine (h.flagged (s.failed ∨ error ∨ listWindows lines = [])).enter hrun run.read _ ?_
        split <;> exact nofun
    · next hstage =>
      obtain rfl := Option.some.inj hstep
      split
      · next hbail =>
        refine (h.flagged _).unsynced hrun (hbail.imp_right fun hempty => ?_)
        exact decide_eq_true (.inr (.inr hempty))
      · next hread =>
        -- the guard: an error does not come with windows
        rw [not_or] at hread
        refine (h.flagged (s.failed ∨ error ∨ listWindows lines = [])).enter hrun _ _ fun _ => ?_
        cases error with
        | false => rfl
        | true => exact absurd (hadmits run hrun rfl hstage rfl) hread.2
    · next hstage =>
      obtain rfl := Option.some.inj hstep
      split
      · next hinactive => exact (h.flagged _).unsynced hrun (.inl hinactive)
      · exact (h.flagged _).cleared.enter hrun run.read _ fun _ => h.read run hrun (.inl hstage)
    · exact nomatch hstep
  | done again =>
    dsimp only at hstep
    split at hstep
    · obtain rfl := Option.some.inj hstep
      refine h.enter hrun run.read _ ?_
      split <;> exact nofun
    · exact Option.some.inj hstep ▸ h.restored hrun
    · exact nomatch hstep
  | failed =>
    dsimp only at hstep
    split at hstep
    · exact Option.some.inj hstep ▸ (h.flagged true).enter hrun run.read _ nofun
    · exact Option.some.inj hstep ▸ h.enter hrun run.read _ nofun
    · exact Option.some.inj hstep ▸ (h.flagged true).unsynced hrun (.inr rfl)
    · exact Option.some.inj hstep ▸ (h.flagged true).unsynced hrun (.inr rfl)
    · exact Option.some.inj hstep ▸ h.restored hrun

end Base

/-- **Step lemma.** -/
theorem Sound.step (h : s.Sound) (hadmits : s.Undisturbed event)
    (hstep : s.step event = some next) : next.Sound := by
  cases event with
  | attached epoch =>
    obtain rfl := Option.some.inj hstep
    apply Base.sound_maybeReinit
    refine { h with
      current := ?_, clock := Nat.le_succ_of_le h.clock, moments := ?_, announced := ?_
      absent := nofun }
    · intro run hrun
      obtain ⟨hreset, ⟨moment, hmoment⟩, hlatest⟩ := h.current run hrun
      refine ⟨hreset, ⟨moment, List.mem_cons_of_mem _ hmoment⟩, fun other hother => ?_⟩
      rcases List.mem_cons.mp hother with hnew | hother
      · exact absurd (congrArg Prod.fst hnew) (hadmits run hrun)
      · exact hlatest other hother
    · intro earlier hearlier
      rcases List.mem_cons.mp hearlier with rfl | hearlier
      · exact Nat.le_refl _
      · exact Nat.le_succ_of_le (h.moments earlier hearlier)
    · intro other hother
      obtain rfl := Option.some.inj hother
      exact ⟨s.clock + 1, List.mem_cons_self⟩
  | acquire =>
    obtain rfl := Option.some.inj hstep
    dsimp only
    split
    · next id hid =>
      exact { h with caught := fun _ _ => .inr (.inr (.inl (hid ▸ nofun))) }
    · refine { h with opens := ?_, caught := fun _ _ => .inr (.inr (.inl nofun)) }
      intro id hid
      obtain rfl := Option.some.inj hid
      exact List.mem_cons_self
  | leave =>
    obtain rfl := Option.some.inj hstep
    exact { h with caught := nofun }
  | teardown =>
    obtain rfl := Option.some.inj hstep
    -- the guard: no run is under way at a teardown
    have hruns : s.runs = [] := hadmits
    exact {
      single := .inl ⟨hruns, rfl⟩
      current := fun run hrun => absurd hrun (hruns ▸ List.not_mem_nil)
      read := h.read
      clock := Nat.le_refl _
      moments := fun earlier hearlier => Nat.le_succ_of_le (h.moments earlier hearlier)
      announced := h.announced
      absent := fun _ => ⟨rfl, hruns⟩
      opens := nofun
      caught := nofun }
  | opened id =>
    obtain ⟨_, rfl⟩ := of_ite_some hstep
    exact { h.maybeReinit.settleOpen id with
      caught := fun hactive hbehind => .inl (h.caught_maybeReinit hactive hbehind) }
  | openFailed id =>
    obtain ⟨_, rfl⟩ := of_ite_some hstep
    refine { h.toBase.settleOpen id with caught := fun hactive hbehind => ?_ }
    refine (h.caught hactive hbehind).imp_right (.imp_right fun hreason => ?_)
    dsimp only [ControlReinit.settleOpen]
    by_cases hawaited : s.inFlight = some id
    · exact .inr (.inr (decide_eq_true (.inr hawaited)))
    · rw [if_neg hawaited]
      exact hreason.imp_right (.imp_right fun hfailed => decide_eq_true (.inl hfailed))
  | reply id reply =>
    obtain ⟨run, hfind, hreplied⟩ := Option.bind_eq_some_iff.mp hstep
    obtain rfl : run.id = id := by simpa using List.find?_some hfind
    exact h.replied (List.mem_of_find?_eq_some hfind) hadmits hreplied
  | retry =>
    obtain ⟨_, rfl⟩ := of_ite_some hstep
    apply Base.sound_maybeReinit
    exact { h with }

/-! ### Writes of the initialised epoch -/

theorem initializedEpoch_maybeReinit (s : ControlReinit) :
    s.maybeReinit.initializedEpoch = s.initializedEpoch := by
  rcases maybeReinit_cases s with ⟨heq, -⟩ | ⟨heq, -⟩ | ⟨target, -, -, heq⟩ <;> rw [heq]

theorem initializedEpoch_settle (s : ControlReinit) (run : ReinitRun) :
    (s.settle run).initializedEpoch = s.initializedEpoch := by
  unfold settle
  dsimp only
  split
  · exact initializedEpoch_maybeReinit _
  · rfl

theorem initializedEpoch_unsynced (s : ControlReinit) (run : ReinitRun) :
    (s.unsynced run).initializedEpoch = s.initializedEpoch := by
  rw [unsynced, initializedEpoch_settle, scheduleReinitRetry]
  split <;> rfl

/-- Only a run that has restored the active window writes the initialised epoch. -/
theorem initializedEpoch_replied {reply : CommandReply}
    (hstep : s.replied run reply = some next) :
    next.initializedEpoch = s.initializedEpoch ∨
      run.stage = .restoring ∧ next.initializedEpoch = some run.target := by
  unfold replied at hstep
  cases reply with
  | lines error lines reconciles =>
    dsimp only at hstep
    split at hstep
    · obtain rfl := Option.some.inj hstep
      split
      · exact .inl (initializedEpoch_unsynced _ _)
      · exact .inl rfl
    · obtain rfl := Option.some.inj hstep
      split
      · exact .inl (initializedEpoch_unsynced _ _)
      · exact .inl rfl
    · obtain rfl := Option.some.inj hstep
      split
      · exact .inl (initializedEpoch_unsynced _ _)
      · exact .inl rfl
    · exact nomatch hstep
  | done again =>
    dsimp only at hstep
    split at hstep
    · exact .inl (Option.some.inj hstep ▸ rfl)
    · next hstage =>
      exact .inr ⟨hstage, Option.some.inj hstep ▸ initializedEpoch_settle _ _⟩
    · exact nomatch hstep
  | failed =>
    dsimp only at hstep
    split at hstep
    · exact .inl (Option.some.inj hstep ▸ rfl)
    · exact .inl (Option.some.inj hstep ▸ rfl)
    · exact .inl (Option.some.inj hstep ▸ initializedEpoch_unsynced _ _)
    · exact .inl (Option.some.inj hstep ▸ initializedEpoch_unsynced _ _)
    · next hstage =>
      exact .inr ⟨hstage, Option.some.inj hstep ▸ initializedEpoch_settle _ _⟩

/-- The initialised epoch becomes that of a current run which has read windows. -/
theorem Sound.written (h : s.Sound) (hstep : s.step event = some next) {epoch : ℕ}
    (hchange : next.initializedEpoch ≠ s.initializedEpoch)
    (hepoch : next.initializedEpoch = some epoch) :
    ∃ run ∈ s.runs, run.target = epoch ∧ run.read = true ∧ s.Current run := by
  cases event with
  | attached other =>
    obtain rfl := Option.some.inj hstep
    exact absurd (initializedEpoch_maybeReinit _) hchange
  | acquire =>
    obtain rfl := Option.some.inj hstep
    refine absurd ?_ hchange
    dsimp only
    split <;> rfl
  | leave =>
    obtain rfl := Option.some.inj hstep
    exact absurd rfl hchange
  | teardown =>
    obtain rfl := Option.some.inj hstep
    exact nomatch hepoch
  | opened id =>
    obtain ⟨_, rfl⟩ := of_ite_some hstep
    exact absurd (initializedEpoch_maybeReinit s) hchange
  | openFailed id =>
    obtain ⟨_, rfl⟩ := of_ite_some hstep
    exact absurd rfl hchange
  | reply id reply =>
    obtain ⟨run, hfind, hreplied⟩ := Option.bind_eq_some_iff.mp hstep
    have hrun := List.mem_of_find?_eq_some hfind
    rcases initializedEpoch_replied hreplied with hsame | ⟨hstage, htarget⟩
    · exact absurd hsame hchange
    · exact ⟨run, hrun, Option.some.inj (htarget.symm.trans hepoch),
        h.read run hrun (.inr hstage), h.current run hrun⟩
  | retry =>
    obtain ⟨_, rfl⟩ := of_ite_some hstep
    exact absurd (initializedEpoch_maybeReinit _) hchange

/-- One run at most is in flight; an epoch is initialised by a current run that has read windows;
and with nothing in flight or scheduled an active project has caught up, if since the last attach
the windows could be listed and the open of the last acquisition was not rejected. -/
structure Follows (s : ControlReinit) : Prop where
  one : s.runs.length ≤ 1
  written : ∀ event next epoch, s.step event = some next →
    next.initializedEpoch ≠ s.initializedEpoch → next.initializedEpoch = some epoch →
      ∃ run ∈ s.runs, run.target = epoch ∧ run.read = true ∧ s.Current run
  caught : s.runs = [] → s.opens = [] → s.reinitRetry = false → s.active = true →
    s.failed = false → s.openFailed = false → s.initializedEpoch = s.channelEpoch

/-- **Re-initialisation follows the epoch** in every state of an undisturbed run. -/
theorem reinit_follows_epoch (h : Reaches step Undisturbed {} s) : s.Follows := by
  have hsound : s.Sound :=
    h.invariant (fun _ _ _ hsound hadmits hstep => hsound.step hadmits hstep) .start
  refine {
    one := ?_
    written := fun event next epoch hstep => hsound.written hstep
    caught := fun hruns hopens hretry hactive hfailed hopenFailed => ?_ }
  · rcases hsound.single with ⟨hnone, -⟩ | ⟨run, hruns, -⟩
    · exact hnone ▸ Nat.zero_le 1
    · exact hruns ▸ Nat.le_refl 1
  · by_contra hbehind
    rcases hsound.caught hactive hbehind with hrun | hset | hawaited | hlist | hopen
    · exact hrun hruns
    · exact nomatch hretry.symm.trans hset
    · obtain ⟨id, hid⟩ := Option.ne_none_iff_exists'.mp hawaited
      exact absurd (hsound.opens id hid) (hopens ▸ List.not_mem_nil)
    · exact nomatch hfailed.symm.trans hlist
    · exact nomatch hopenFailed.symm.trans hopen

/-- A line of a list of windows. -/
def windowLine : List Char := "@1 main".toList

/-- A first attach, with a run that reads the windows twice. -/
theorem reinit_follows_epoch_once :
    ∃ s : ControlReinit, s.initializedEpoch = some 1 ∧ s.runs = [] ∧ s.Follows := by
  have hreplay : (replay step Undisturbed {}
      [.acquire, .attached 1, .opened 0, .reply 1 (.lines false [windowLine] false),
        .reply 1 (.lines false [windowLine] false), .reply 1 (.lines false [windowLine] false),
        .reply 1 (.done false)]).any (fun s =>
          s.initializedEpoch = some 1 ∧ s.runs = []) = true := by
    decide +kernel
  obtain ⟨s, hs, hepoch, hruns⟩ := exists_run_of_replay hreplay
  exact ⟨s, hepoch, hruns, reinit_follows_epoch ⟨_, hs⟩⟩

/-- A teardown under a run: with the next channel another run begins beside it. -/
theorem not_reinit_follows_epoch :
    ¬ ∀ s : ControlReinit, Reaches step EpochsIncrease {} s → s.Follows := by
  intro hclaim
  have hreplay : (replay step EpochsIncrease {}
      [.acquire, .attached 1, .opened 0, .teardown, .acquire, .attached 1]).any
        (fun s => s.runs.length = 2) = true := by
    decide +kernel
  obtain ⟨s, hs, htwo⟩ := exists_run_of_replay hreplay
  have hone := (hclaim s ⟨_, hs⟩).one
  omega

end ControlReinit

end AgentCockpit.Renderer
