import Mathlib.Data.List.Basic

/-!
# Promise chains

Asynchronous tasks that must not overlap are often put behind one another in a chain of promises:
behind the last promise goes a handler that swallows its rejection, and behind that the next task.
Each promise of the chain settles after the one before it. A task is a synchronous part, which
may return at once or start an operation, and waits for the operation then; the outcome of the
operation is the outcome of the task.
-/

namespace AgentCockpit.Core

variable {ι : Type}

/-- How a promise has settled. -/
inductive Settlement
  | fulfilled
  | rejected
  deriving DecidableEq, Repr

/-- A reaction in a chain: a handler that swallows a rejection, or a task that runs upon a
fulfilment. -/
inductive ChainLink (ι : Type)
  | caught
  | task (task : ι)
  deriving DecidableEq, Repr

/-- A chain: how the last promise that has settled has settled, the reactions behind it, and the
task whose operation is awaited. -/
structure PromiseChain (ι : Type) where
  last : Settlement := .fulfilled
  links : List (ChainLink ι) := []
  running : Option ι := none
  deriving DecidableEq, Repr

namespace PromiseChain

variable {chain next : PromiseChain ι}

/-- `chain.catch(() => {}).then(task)`. -/
def push (chain : PromiseChain ι) (task : ι) : PromiseChain ι :=
  { chain with links := chain.links ++ [.caught, .task task] }

/-- The reaction to the last settled promise; `starts` tells whether a task starts an operation or
returns at once. A rejection passes a task over. -/
def react (chain : PromiseChain ι) (starts : ι → Bool) : Option (PromiseChain ι) :=
  match chain.running, chain.links with
  | some _, _ => none
  | none, [] => none
  -- The handler swallows what has failed, so that the task behind it runs.
  | none, .caught :: links => some { chain with last := .fulfilled, links }
  | none, .task task :: links =>
    match chain.last with
    -- A task that no handler shields is passed over.
    | .rejected => some { chain with links }
    | .fulfilled =>
      some { chain with links, running := if starts task then some task else none }

/-- The operation that is awaited has an outcome. -/
def settle (chain : PromiseChain ι) (outcome : Settlement) : Option (PromiseChain ι) :=
  chain.running.map fun _ => { chain with last := outcome, running := none }

/-- The tasks that have not been reached yet, in order. -/
def tasks (chain : PromiseChain ι) : List ι :=
  chain.links.filterMap fun link =>
    match link with
    | .caught => none
    | .task task => some task

/-- Links of which each task is behind a handler. -/
def Paired : List (ChainLink ι) → Prop
  | [] => True
  | .caught :: .task _ :: links => Paired links
  | _ => False

/-- Each task is behind a handler, or behind a promise that was fulfilled. -/
inductive Guarded : PromiseChain ι → Prop
  | paired {chain : PromiseChain ι} (h : Paired chain.links) : Guarded chain
  | ready {task : ι} {links : List (ChainLink ι)} (h : Paired links) :
      Guarded ⟨.fulfilled, .task task :: links, none⟩

@[simp] theorem tasks_push (chain : PromiseChain ι) (task : ι) :
    (chain.push task).tasks = chain.tasks ++ [task] := by
  simp [push, tasks]

@[simp] theorem running_push (chain : PromiseChain ι) (task : ι) :
    (chain.push task).running = chain.running := rfl

theorem paired_append {links more : List (ChainLink ι)} (h : Paired links) (h' : Paired more) :
    Paired (links ++ more) := by
  induction links using Paired.induct with
  | case1 => exact h'
  | case2 task links ih => exact ih h
  | case3 links => simp_all [Paired]

theorem Guarded.push (h : Guarded chain) (task : ι) : Guarded (chain.push task) := by
  cases h with
  | paired h => exact .paired (paired_append h trivial)
  | ready h => exact .ready (paired_append h trivial)

theorem guarded_default : Guarded ({} : PromiseChain ι) := .paired trivial

theorem settle_eq_some {outcome : Settlement} (h : chain.settle outcome = some next) :
    ∃ task, chain.running = some task ∧ next = { chain with last := outcome, running := none } := by
  cases hrunning : chain.running with
  | none => simp [settle, hrunning] at h
  | some task =>
    rw [settle, hrunning] at h
    exact ⟨task, rfl, (Option.some.inj h).symm⟩

theorem Guarded.settle (h : Guarded chain) {outcome : Settlement}
    (hsettle : chain.settle outcome = some next) : Guarded next := by
  obtain ⟨task, hrunning, rfl⟩ := settle_eq_some hsettle
  cases h with
  | paired h => exact .paired h
  | ready h => cases hrunning

/-- A reaction settles a handler, or reaches the next task: it starts the task's operation, or the
task returns at once. -/
theorem Guarded.react (h : Guarded chain) {starts : ι → Bool}
    (hreact : chain.react starts = some next) :
    Guarded next ∧ chain.running = none ∧
      ((next.tasks = chain.tasks ∧ next.running = none) ∨
        ∃ task, chain.tasks = task :: next.tasks ∧
          next.running = if starts task then some task else none) := by
  cases h with
  | ready h =>
    cases hreact
    exact ⟨.paired h, rfl, Or.inr ⟨_, rfl, rfl⟩⟩
  | paired h =>
    obtain ⟨last, links, running⟩ := chain
    match running, links with
    | some _, _ => cases hreact
    | none, [] => cases hreact
    | none, .task task :: links => exact h.elim
    | none, [.caught] => exact h.elim
    | none, .caught :: .caught :: links => exact h.elim
    | none, .caught :: .task task :: links =>
      cases hreact
      exact ⟨.ready h, rfl, Or.inl ⟨rfl, rfl⟩⟩

/-! ### Progress -/

/-- The number of reactions and outcomes that are left. -/
def size (chain : PromiseChain ι) : ℕ :=
  2 * chain.links.length + if chain.running.isSome then 1 else 0

theorem exists_react (hrunning : chain.running = none) (hlinks : chain.links ≠ [])
    (starts : ι → Bool) : ∃ next, chain.react starts = some next := by
  obtain ⟨last, links, running⟩ := chain
  dsimp only at hrunning hlinks
  subst hrunning
  match links, last with
  | [], _ => exact absurd rfl hlinks
  | .caught :: links, _ => exact ⟨_, rfl⟩
  | .task task :: links, .rejected => exact ⟨_, rfl⟩
  | .task task :: links, .fulfilled => exact ⟨_, rfl⟩

theorem react_size_lt {starts : ι → Bool} (h : chain.react starts = some next) :
    next.size < chain.size := by
  obtain ⟨last, links, running⟩ := chain
  match running, links, last with
  | some _, _, _ => cases h
  | none, [], _ => cases h
  | none, .caught :: links, _ =>
    cases h
    simp [size]
  | none, .task task :: links, .rejected =>
    cases h
    simp [size]
  | none, .task task :: links, .fulfilled =>
    cases h
    have hone : (if (if starts task then some task else none).isSome then 1 else 0) ≤ 1 := by
      split
      · exact Nat.le_refl 1
      · exact Nat.zero_le 1
    simp only [size, List.length_cons]
    omega

theorem settle_size_lt {outcome : Settlement} (h : chain.settle outcome = some next) :
    next.size < chain.size := by
  obtain ⟨task, hrunning, rfl⟩ := settle_eq_some h
  simp [size, hrunning]

/-- At its end, a chain has reached all of its tasks. -/
theorem tasks_eq_nil {starts : ι → Bool} (hreact : chain.react starts = none)
    (hsettle : chain.settle .fulfilled = none) : chain.tasks = [] := by
  have hrunning : chain.running = none := by
    cases hrunning : chain.running with
    | none => rfl
    | some task => simp [settle, hrunning] at hsettle
  by_contra hne
  have hlinks : chain.links ≠ [] := by
    intro hnil
    exact hne (by simp [tasks, hnil])
  obtain ⟨next, hnext⟩ := exists_react hrunning hlinks starts
  rw [hreact] at hnext
  cases hnext

end PromiseChain

end AgentCockpit.Core
