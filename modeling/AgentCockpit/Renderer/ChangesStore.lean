import AgentCockpit.Core.Run
import Mathlib

/-!
# The changes store of a project

A refresh reads the changes of the active worktree from the provider and writes them into the
slice of the project. Refreshes coalesce: while a drain is at work a further request only marks
that another run is wanted, and all requests that one drain serves share its promise. A run
remembers what it began with, and writes only as long as that is still so.

One project is modelled. Each turn of a run is a step of its own: the answer of a read resumes
the run, and the drain resumes in a later turn than the one in which its run returned.
-/

namespace AgentCockpit.Renderer

open AgentCockpit.Core

inductive DiffTarget
  | head | branchPoint
  deriving DecidableEq

/-- What is read of a branch point. -/
structure BranchPoint where
  mergeBase : String
  deriving DecidableEq

/-- What is read of a changeset: its worktree and the new paths of its files. -/
structure Changeset where
  worktree : String
  newPaths : List String
  deriving DecidableEq

/-- The slice of a project. The branch point is `none` where it has not been resolved and
`some none` where no parent could be. -/
structure ChangesSlice where
  baseline : Option String := none
  changeset : Option Changeset := none
  loading : Bool := false
  selectedPath : Option String := none
  target : DiffTarget := .head
  branchPoint : Option (Option BranchPoint) := none
  deriving DecidableEq

structure RefreshRun where
  lifecycle : ℕ
  requestGeneration : ℕ
  activeWorktree : Option String
  target : DiffTarget
  deriving DecidableEq

inductive RefreshStage
  | resolving
  | reading (baseline : Option String) (branchPoint : Option (Option BranchPoint))
  | returned
  deriving DecidableEq

/-- How many runs were begun, refreshes requested, slices cleared or evicted, and slices
evicted. -/
structure Moment where
  runs : ℕ := 0
  requests : ℕ := 0
  resets : ℕ := 0
  evicts : ℕ := 0
  deriving DecidableEq

/-- A drain at work, with its run and the moment at which that began; the runs are numbered as
they begin. -/
structure RefreshDrain where
  id : ℕ
  run : RefreshRun
  stage : RefreshStage
  begun : Moment
  deriving DecidableEq

/-- The promise of a request: the one of its drain, or one that is resolved when it is made. -/
structure RefreshPromise where
  drain : Option ℕ
  asked : Moment
  /-- There was no drain at the call and no active worktree. -/
  idle : Bool
  deriving DecidableEq

/-! ### The coordinator -/

/-- The coordinator of a project, the drains that are at work, the promises that were given, and
which drains have resolved theirs and which runs have ended. -/
structure RefreshCoordinator where
  lifecycle : ℕ := 0
  requestGeneration : ℕ := 0
  pending : Bool := false
  drain : Option ℕ := none
  drains : List RefreshDrain := []
  promises : List RefreshPromise := []
  resolved : List ℕ := []
  ended : List ℕ := []
  now : Moment := {}
  deriving DecidableEq

namespace RefreshCoordinator

variable (c : RefreshCoordinator)

def invalidateRefresh : RefreshCoordinator :=
  { c with
    lifecycle := c.lifecycle + 1
    requestGeneration := c.requestGeneration + 1
    pending := false
    now := { c.now with resets := c.now.resets + 1 } }

def request : RefreshCoordinator :=
  { c with
    requestGeneration := c.requestGeneration + 1
    now := { c.now with requests := c.now.requests + 1 } }

def promise (drain : Option ℕ) (idle : Bool) : RefreshCoordinator :=
  { c with promises := ⟨drain, c.now, idle⟩ :: c.promises }

/-- The drain takes a stage; a run that has returned has ended. -/
def enter (drain : RefreshDrain) : RefreshCoordinator :=
  { c with
    drains := drain :: c.drains.filter (·.id ≠ drain.id)
    ended := if drain.stage = .returned then drain.begun.runs :: c.ended else c.ended }

/-- A run of a drain begins. -/
def begin (id : ℕ) (run : RefreshRun) (stage : RefreshStage) : RefreshCoordinator :=
  { c.enter ⟨id, run, stage, c.now⟩ with now := { c.now with runs := c.now.runs + 1 } }

/-- The drain ends, and resolves its promise if it is still the one of the project. -/
def leave (drain : RefreshDrain) : RefreshCoordinator :=
  let c := { c with drains := c.drains.filter (·.id ≠ drain.id) }
  if c.drain ≠ some drain.id then c
  else { c with drain := none, resolved := drain.id :: c.resolved }

end RefreshCoordinator

/-! ### The store -/

/-- The store of a project. `followed` tells whether the last change of the worktree or the target
was followed by a refresh. -/
structure ChangesStore extends RefreshCoordinator where
  slice : Option ChangesSlice := none
  activeWorktree : Option String := none
  /-- The file that is remembered as selected. -/
  focus : Option String := none
  followed : Bool := true
  deriving DecidableEq

inductive ProviderAnswer
  | resolved (branchPoint : Option BranchPoint)
  | changeset (changeset : Changeset)
  | failed

inductive ChangesEvent
  | refresh
  | select (path : String)
  | setTarget (target : DiffTarget)
  | clearForDisconnect
  | evict
  | worktree (activeWorktree : Option String)
  | answer (id : ℕ) (answer : ProviderAnswer)
  | resume (id : ℕ)

namespace ChangesStore

variable (store : ChangesStore)

def patch (p : ChangesSlice → ChangesSlice) : ChangesStore :=
  { store with slice := some (p (store.slice.getD {})) }

def target : DiffTarget := (store.slice.getD {}).target

def isCurrentRun (run : RefreshRun) : Bool :=
  store.lifecycle = run.lifecycle ∧ store.requestGeneration = run.requestGeneration ∧
    store.activeWorktree = run.activeWorktree ∧ store.target = run.target

def patchCurrent (run : RefreshRun) (p : ChangesSlice → ChangesSlice) : ChangesStore :=
  if store.isCurrentRun run then store.patch p else store

/-- The run that begins now. -/
def run : RefreshRun :=
  ⟨store.lifecycle, store.requestGeneration, store.activeWorktree, store.target⟩

/-- A changeset of another worktree is dropped, and the selection with it. -/
def dropStale (run : RefreshRun) (worktree : String) : ChangesStore :=
  match (store.slice.getD {}).changeset with
  | some changeset =>
    if changeset.worktree ≠ worktree then
      store.patchCurrent run ({ · with changeset := none, selectedPath := none })
    else store
  | none => store

/-- A run up to its first read. -/
def runRefresh (id : ℕ) : ChangesStore :=
  match store.activeWorktree with
  | none =>
    let written := store.patchCurrent store.run ({ · with changeset := none })
    { written with
      toRefreshCoordinator := store.toRefreshCoordinator.begin id store.run .returned }
  | some worktree =>
    let written := (store.dropStale store.run worktree).patchCurrent store.run
      ({ · with loading := true })
    let stage :=
      match store.target with
      | .branchPoint => .resolving
      | .head => .reading none none
    { written with toRefreshCoordinator := store.toRefreshCoordinator.begin id store.run stage }

/-- The drain clears the pending request and runs. -/
def drainRun (id : ℕ) : ChangesStore :=
  { store with pending := false }.runRefresh id

def scheduleRefresh : ChangesStore :=
  let idle : Bool := store.drains = [] ∧ store.activeWorktree = none
  let store := { store with
    toRefreshCoordinator := store.toRefreshCoordinator.request, followed := true }
  match store.drain with
  | some id =>
    { store with
      toRefreshCoordinator := { store.toRefreshCoordinator.promise id idle with pending := true } }
  | none =>
    if store.activeWorktree = none then
      let written := store.patch ({ · with changeset := none, loading := false })
      { written with toRefreshCoordinator := store.toRefreshCoordinator.promise none idle }
    else
      let id := store.promises.length
      { store with
        toRefreshCoordinator :=
          { store.toRefreshCoordinator.promise id idle with drain := some id } }.drainRun id

/-- The remembered file is selected if none is and it is among the changes. -/
def restoreSelection (run : RefreshRun) (changeset : Changeset) : ChangesStore :=
  match (store.slice.getD {}).selectedPath, store.focus with
  | none, some saved =>
    if saved ≠ "" ∧ saved ∈ changeset.newPaths then
      store.patchCurrent run ({ · with selectedPath := some saved })
    else store
  | _, _ => store

def enter (drain : RefreshDrain) (stage : RefreshStage) : ChangesStore :=
  { store with toRefreshCoordinator := store.toRefreshCoordinator.enter { drain with stage } }

/-- The answer of a read resumes its run. -/
def answered (drain : RefreshDrain) : ProviderAnswer → Option ChangesStore
  | .resolved resolved =>
    match drain.stage with
    | .resolving =>
      if store.isCurrentRun drain.run then
        some ((store.patch ({ · with branchPoint := some resolved })).enter drain
          (.reading (resolved.map BranchPoint.mergeBase) (some resolved)))
      else some (store.enter drain .returned)
    | _ => none
  | .changeset changeset =>
    match drain.stage with
    | .reading baseline branchPoint =>
      if store.isCurrentRun drain.run then
        let written := store.patch ({ · with changeset := some changeset, baseline, branchPoint })
        some ((written.restoreSelection drain.run changeset).enter drain .returned)
      else some (store.enter drain .returned)
    | _ => none
  | .failed => if drain.stage = .returned then none else some (store.enter drain .returned)

/-- A drain resumes behind its run. -/
def resumed (drain : RefreshDrain) : Option ChangesStore :=
  if drain.stage ≠ .returned then none
  else if store.pending then some (store.drainRun drain.id)
  else
    let left := { store with toRefreshCoordinator := store.toRefreshCoordinator.leave drain }
    if store.drain = some drain.id ∧ left.slice.isSome ∧ left.isCurrentRun drain.run then
      some (left.patch ({ · with loading := false }))
    else some left

def step : ChangesEvent → Option ChangesStore
  | .refresh => some store.scheduleRefresh
  | .select path => some { store.patch ({ · with selectedPath := some path }) with focus := path }
  | .setTarget target =>
    some (store.patch ({ · with target, changeset := none, selectedPath := none })).scheduleRefresh
  | .clearForDisconnect =>
    some { store with
      toRefreshCoordinator := store.toRefreshCoordinator.invalidateRefresh, slice := some {} }
  | .evict =>
    let c := store.toRefreshCoordinator.invalidateRefresh
    some { store with
      toRefreshCoordinator := { c with now := { c.now with evicts := c.now.evicts + 1 } }
      slice := none }
  | .worktree activeWorktree =>
    some { store with
      activeWorktree, followed := store.followed ∧ activeWorktree = store.activeWorktree }
  | .answer id answer => (store.drains.find? (·.id = id)).bind (store.answered · answer)
  | .resume id => (store.drains.find? (·.id = id)).bind store.resumed

/-- Nothing has changed since the run of a drain began. -/
def Current (drain : RefreshDrain) : Prop :=
  drain.begun.requests = store.now.requests ∧ drain.begun.resets = store.now.resets ∧
    drain.run.activeWorktree = store.activeWorktree ∧ drain.run.target = store.target

def loading : Bool := (store.slice.getD {}).loading

/-- What runs write into the slice. -/
def shown : Option Changeset × Option String × Option (Option BranchPoint) :=
  let slice := store.slice.getD {}
  (slice.changeset, slice.baseline, slice.branchPoint)

end ChangesStore

/-! ### Promises are kept -/

namespace RefreshCoordinator

variable {c : RefreshCoordinator} {drain : RefreshDrain} {promise : RefreshPromise}

/-- The promise of a request is resolved. -/
def Resolved (c : RefreshCoordinator) (promise : RefreshPromise) : Prop :=
  ∀ id, promise.drain = some id → id ∈ c.resolved

/-- The one drain at work carries the latest run. -/
structure Live (c : RefreshCoordinator) (drain : RefreshDrain) : Prop where
  drain_eq : c.drain = some drain.id
  drains_eq : c.drains = [drain]
  unresolved : drain.id ∉ c.resolved
  promised : drain.id < c.promises.length
  runs : drain.begun.runs + 1 = c.now.runs
  requests : drain.begun.requests ≤ c.now.requests
  resets : drain.begun.resets ≤ c.now.resets
  evicts : drain.begun.resets = c.now.resets → drain.begun.evicts = c.now.evicts
  lifecycle : drain.run.lifecycle = drain.begun.resets
  generation : drain.run.requestGeneration = drain.begun.requests + drain.begun.resets
  ended : drain.stage = .returned → drain.begun.runs ∈ c.ended

structure Idle (c : RefreshCoordinator) : Prop where
  drain_eq : c.drain = none
  drains_eq : c.drains = []
  pending : c.pending = false

/-- A promise is resolved behind a run that was begun at or after the call; one that is not belongs
to the drain at work, which is in such a run or has one to come. Neither is said of calls from
before a reset, nor of those that found nothing to do. -/
structure Keeps (c : RefreshCoordinator) (promise : RefreshPromise) : Prop where
  idle : promise.drain = none → promise.idle = true
  covered : ∀ id, promise.drain = some id → id ∈ c.resolved →
    promise.asked.resets = c.now.resets → ∃ number ∈ c.ended, promise.asked.runs ≤ number
  waits : ∀ id, promise.drain = some id → id ∉ c.resolved → c.drain = some id
  served : ∀ id, promise.drain = some id → id ∉ c.resolved →
    promise.asked.resets = c.now.resets →
      c.pending = true ∨ ∀ drain ∈ c.drains, promise.asked.runs ≤ drain.begun.runs

/-- What the counters and the promises keep, whatever is at work. -/
structure Accounts (c : RefreshCoordinator) : Prop where
  lifecycle : c.lifecycle = c.now.resets
  generation : c.requestGeneration = c.now.requests + c.now.resets
  resolved : ∀ id ∈ c.resolved, id < c.promises.length
  asked : ∀ promise ∈ c.promises,
    promise.asked.runs ≤ c.now.runs ∧ promise.asked.resets ≤ c.now.resets
  keeps : ∀ promise ∈ c.promises, c.Keeps promise

structure Sound (c : RefreshCoordinator) : Prop extends Accounts c where
  work : c.Idle ∨ ∃ drain, c.Live drain

theorem Live.leave_eq (h : c.Live drain) :
    c.leave drain = { c with drains := [], drain := none, resolved := drain.id :: c.resolved } := by
  simp [leave, h.drain_eq, h.drains_eq]

namespace Sound

theorem start : ({} : RefreshCoordinator).Sound where
  lifecycle := rfl
  generation := rfl
  resolved := nofun
  asked := nofun
  keeps := nofun
  work := .inl ⟨rfl, rfl, rfl⟩

theorem live (h : c.Sound) (hdrain : drain ∈ c.drains) : c.Live drain := by
  rcases h.work with hidle | ⟨other, hlive⟩
  · exact absurd hdrain (hidle.drains_eq ▸ List.not_mem_nil)
  · rw [hlive.drains_eq, List.mem_singleton] at hdrain
    exact hdrain ▸ hlive

/-- A promise that is resolved and not of an idle call comes behind a run. -/
theorem covered (h : c.Sound) (hpromise : promise ∈ c.promises) (hresolved : c.Resolved promise)
    (hresets : promise.asked.resets = c.now.resets) :
    promise.idle = true ∨ ∃ number ∈ c.ended, promise.asked.runs ≤ number := by
  have hkeeps := h.keeps promise hpromise
  cases hid : promise.drain with
  | none => exact .inl (hkeeps.idle hid)
  | some id => exact .inr (hkeeps.covered id hid (hresolved id hid) hresets)

/-- With no drain at work every promise is resolved. -/
theorem resolved_of_idle (h : c.Sound) (hidle : c.drains = []) (hpromise : promise ∈ c.promises) :
    c.Resolved promise := by
  intro id hid
  by_contra hunresolved
  have hdrain := (h.keeps promise hpromise).waits id hid hunresolved
  rcases h.work with hwork | ⟨drain, hlive⟩
  · exact nomatch hwork.drain_eq.symm.trans hdrain
  · exact nomatch hlive.drains_eq.symm.trans hidle

end Sound

theorem mem_ended_enter {number : ℕ} (hnumber : number ∈ c.ended) :
    number ∈ (c.enter drain).ended := by
  unfold enter
  dsimp only
  split
  · exact List.mem_cons_of_mem _ hnumber
  · exact hnumber

/-- A run begins on the drain of the project. -/
theorem Accounts.sound_begin (h : c.Accounts) {id : ℕ} (run : RefreshRun) (stage : RefreshStage)
    (hdrain : c.drain = some id) (hdrains : ∀ drain ∈ c.drains, drain.id = id)
    (hunresolved : id ∉ c.resolved) (hpromised : id < c.promises.length)
    (hlifecycle : run.lifecycle = c.lifecycle)
    (hgeneration : run.requestGeneration = c.requestGeneration) :
    ({ c with pending := false }.begin id run stage).Sound := by
  have hothers : c.drains.filter (·.id ≠ id) = [] := by
    simpa [List.filter_eq_nil_iff] using hdrains
  refine { h with asked := ?_, keeps := ?_, work := .inr ⟨⟨id, run, stage, c.now⟩, ?_⟩ }
  · intro promise hpromise
    obtain ⟨hruns, hresets⟩ := h.asked promise hpromise
    exact ⟨Nat.le_succ_of_le hruns, hresets⟩
  · intro promise hpromise
    have hkeeps := h.keeps promise hpromise
    refine { hkeeps with covered := ?_, served := ?_ }
    · intro id hid hresolved hresets
      obtain ⟨number, hnumber, hle⟩ := hkeeps.covered id hid hresolved hresets
      exact ⟨number, mem_ended_enter hnumber, hle⟩
    · intro id hid hunresolved hresets
      refine .inr fun drain hdrain => ?_
      -- the only drain is that of the run that begins
      dsimp only [begin, enter] at hdrain
      rw [hothers, List.mem_singleton] at hdrain
      exact hdrain ▸ (h.asked promise hpromise).1
  · exact {
      drain_eq := hdrain
      drains_eq := congrArg (_ :: ·) hothers
      unresolved := hunresolved
      promised := hpromised
      runs := rfl
      requests := Nat.le_refl _
      resets := Nat.le_refl _
      evicts := fun _ => rfl
      lifecycle := hlifecycle.trans h.lifecycle
      generation := hgeneration.trans h.generation
      ended := fun hstage => by
        dsimp only at hstage
        simp [begin, enter, hstage] }

/-- A request adds its promise to the accounts. -/
theorem Accounts.asked_for (h : c.Accounts) (next drain : Option ℕ) (idle pending : Bool)
    (hidle : drain = none → idle = true) (hnext : ∀ id, drain = some id → next = some id)
    (hkept : ∀ id, c.drain = some id → next = some id) (hserved : pending = true ∨ c.drains = [])
    (hunresolved : ∀ id, drain = some id → id ∉ c.resolved) :
    { c.request.promise drain idle with pending, drain := next }.Accounts where
  lifecycle := h.lifecycle
  generation := by
    have hgeneration := h.generation
    dsimp only [promise, request]
    omega
  resolved id hid := Nat.lt_succ_of_lt (h.resolved id hid)
  asked := by
    intro promise hpromise
    rcases List.mem_cons.mp hpromise with rfl | hpromise
    · exact ⟨Nat.le_refl _, Nat.le_refl _⟩
    · exact h.asked promise hpromise
  keeps := by
    intro promise hpromise
    have hdrains : pending = true ∨
        ∀ drain ∈ c.drains, promise.asked.runs ≤ drain.begun.runs :=
      hserved.imp_right fun hnone => by simp [hnone]
    rcases List.mem_cons.mp hpromise with rfl | hpromise
    · exact {
        idle := hidle
        covered := fun id hid hresolved => absurd hresolved (hunresolved id hid)
        waits := fun id hid _ => hnext id hid
        served := fun _ _ _ _ => hdrains }
    · have hkeeps := h.keeps promise hpromise
      exact { hkeeps with
        waits := fun id hid hresolved => hkept id (hkeeps.waits id hid hresolved)
        served := fun _ _ _ _ => hdrains }

namespace Sound

/-- A request joins the drain at work, which runs once more. -/
theorem join (h : c.Sound) {id : ℕ} (hdrain : c.drain = some id) (idle : Bool) :
    { c.request.promise (some id) idle with pending := true }.Sound := by
  rcases h.work with hidle | ⟨drain, hlive⟩
  · exact nomatch hidle.drain_eq.symm.trans hdrain
  · obtain rfl : drain.id = id := Option.some.inj (hlive.drain_eq.symm.trans hdrain)
    refine { h.toAccounts.asked_for c.drain (some drain.id) idle true nofun
      (fun id hid => hid ▸ hdrain) (fun _ => id) (.inl rfl) (fun id hid => ?_) with
      work := .inr ⟨drain, { hlive with promised := ?_, requests := ?_ }⟩ }
    · exact Option.some.inj hid ▸ hlive.unresolved
    · exact Nat.lt_succ_of_lt hlive.promised
    · exact Nat.le_succ_of_le hlive.requests

/-- A request that finds nothing to do is resolved when it is made. -/
theorem promise_idle (h : c.Sound) (hdrain : c.drain = none) :
    (c.request.promise none true).Sound := by
  rcases h.work with hidle | ⟨drain, hlive⟩
  · exact { h.toAccounts.asked_for c.drain none true c.pending (fun _ => rfl) nofun
      (fun _ => id) (.inr hidle.drains_eq) nofun with
      work := .inl ⟨hidle.drain_eq, hidle.drains_eq, hidle.pending⟩ }
  · exact nomatch hlive.drain_eq.symm.trans hdrain

/-- A request starts a drain. -/
theorem start_drain (h : c.Sound) (hdrain : c.drain = none) (idle : Bool) (run : RefreshRun)
    (stage : RefreshStage) (hlifecycle : run.lifecycle = c.lifecycle)
    (hgeneration : run.requestGeneration = c.requestGeneration + 1) :
    ({ c.request.promise (some c.promises.length) idle with
      drain := some c.promises.length
      pending := false }.begin c.promises.length run stage).Sound := by
  rcases h.work with hidle | ⟨drain, hlive⟩
  · have hfresh : c.promises.length ∉ c.resolved := fun hmem =>
      Nat.lt_irrefl _ (h.resolved _ hmem)
    refine (h.toAccounts.asked_for (some c.promises.length) (some c.promises.length) idle
      c.pending nofun (fun _ => id) (fun id hid => ?_) (.inr hidle.drains_eq)
      (fun id hid => ?_)).sound_begin run stage rfl ?_ hfresh (Nat.lt_succ_self _) hlifecycle
        hgeneration
    · exact nomatch hidle.drain_eq.symm.trans hid
    · exact Option.some.inj hid ▸ hfresh
    · intro drain hdrain
      exact absurd hdrain (hidle.drains_eq ▸ List.not_mem_nil)
  · exact nomatch hlive.drain_eq.symm.trans hdrain

/-- A pending request is served by the next run of the drain. -/
theorem rerun (h : c.Sound) (hdrain : drain ∈ c.drains) (run : RefreshRun) (stage : RefreshStage)
    (hlifecycle : run.lifecycle = c.lifecycle)
    (hgeneration : run.requestGeneration = c.requestGeneration) :
    ({ c with pending := false }.begin drain.id run stage).Sound := by
  have hlive := h.live hdrain
  refine h.toAccounts.sound_begin run stage hlive.drain_eq (fun other hother => ?_)
    hlive.unresolved hlive.promised hlifecycle hgeneration
  rw [hlive.drains_eq, List.mem_singleton] at hother
  rw [hother]

/-- After a reset the promises from before it are owed no run. -/
theorem invalidate (h : c.Sound) (evicts : ℕ) :
    { c.invalidateRefresh with
      now := { c.invalidateRefresh.now with evicts } }.Sound where
  lifecycle := congrArg (· + 1) h.lifecycle
  generation := by
    have hgeneration := h.generation
    dsimp only [invalidateRefresh]
    omega
  resolved := h.resolved
  asked promise hpromise := by
    obtain ⟨hruns, hresets⟩ := h.asked promise hpromise
    exact ⟨hruns, Nat.le_succ_of_le hresets⟩
  keeps promise hpromise := by
    have hkeeps := h.keeps promise hpromise
    have hbefore : promise.asked.resets ≠ c.now.resets + 1 :=
      Nat.ne_of_lt (Nat.lt_succ_of_le (h.asked promise hpromise).2)
    exact { hkeeps with
      covered := fun _ _ _ hresets => absurd hresets hbefore
      served := fun _ _ _ hresets => absurd hresets hbefore }
  work := by
    rcases h.work with hidle | ⟨drain, hlive⟩
    · exact .inl ⟨hidle.drain_eq, hidle.drains_eq, rfl⟩
    · refine .inr ⟨drain, { hlive with resets := ?_, evicts := ?_ }⟩
      · exact Nat.le_succ_of_le hlive.resets
      · intro hresets
        exact absurd hresets (Nat.ne_of_lt (Nat.lt_succ_of_le hlive.resets))

/-- A run goes on to another stage. -/
theorem enter (h : c.Sound) (hdrain : drain ∈ c.drains) (stage : RefreshStage) :
    (c.enter { drain with stage }).Sound := by
  have hlive := h.live hdrain
  have hothers : (c.enter { drain with stage }).drains = [{ drain with stage }] := by
    simp [RefreshCoordinator.enter, hlive.drains_eq]
  refine { h with keeps := ?_, work := .inr ⟨{ drain with stage }, ?_⟩ }
  · intro promise hpromise
    have hkeeps := h.keeps promise hpromise
    refine { hkeeps with covered := ?_, served := ?_ }
    · intro id hid hresolved hresets
      obtain ⟨number, hnumber, hle⟩ := hkeeps.covered id hid hresolved hresets
      exact ⟨number, mem_ended_enter hnumber, hle⟩
    · intro id hid hresolved hresets
      refine (hkeeps.served id hid hresolved hresets).imp_right fun hserved other hother => ?_
      rw [hothers, List.mem_singleton] at hother
      exact hother ▸ hserved drain hdrain
  · exact { hlive with
      drains_eq := hothers
      ended := fun hstage => by
        dsimp only at hstage
        simp [RefreshCoordinator.enter, hstage] }

/-- A drain that is left with no request pending keeps every promise it serves. -/
theorem leave (h : c.Sound) (hdrain : drain ∈ c.drains) (hstage : drain.stage = .returned)
    (hpending : c.pending = false) : (c.leave drain).Sound := by
  have hlive := h.live hdrain
  rw [hlive.leave_eq]
  refine { h with resolved := ?_, keeps := ?_, work := .inl ⟨rfl, rfl, hpending⟩ }
  · intro id hid
    rcases List.mem_cons.mp hid with rfl | hid
    · exact hlive.promised
    · exact h.resolved id hid
  · intro promise hpromise
    have hkeeps := h.keeps promise hpromise
    have hwaits : ∀ id, promise.drain = some id → id ∉ drain.id :: c.resolved → False := by
      intro id hid hunresolved
      rw [List.mem_cons, not_or] at hunresolved
      have hsame := hlive.drain_eq.symm.trans (hkeeps.waits id hid hunresolved.2)
      exact hunresolved.1 (Option.some.inj hsame).symm
    refine {
      idle := hkeeps.idle
      covered := ?_
      waits := fun id hid hunresolved => (hwaits id hid hunresolved).elim
      served := fun id hid hunresolved => (hwaits id hid hunresolved).elim }
    intro id hid hresolved hresets
    by_cases hearlier : id ∈ c.resolved
    · exact hkeeps.covered id hid hearlier hresets
    · -- the promise of this drain: no run was to come, so this one was begun behind the call
      rcases hkeeps.served id hid hearlier hresets with hrun | hserved
      · exact nomatch hpending.symm.trans hrun
      · exact ⟨drain.begun.runs, hlive.ended hstage, hserved drain hdrain⟩

end Sound

end RefreshCoordinator

end AgentCockpit.Renderer
