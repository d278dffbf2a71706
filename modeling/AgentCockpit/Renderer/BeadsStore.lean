import AgentCockpit.Core.Loads
import Mathlib.Data.Int.Notation

/-!
# The Beads store of a project

A load restores the persisted view, asks whether the project has Beads, reads the task graph
and puts it into the slice of the project. A graph that compares equal to the one that is held
is not put there; the comparison looks at some fields of an issue. When a graph is put there,
selection and focus are restored from local storage as far as they are still in the graph.

Local storage is always there in the model; the source falls back to its absence when it is
not.
-/

namespace AgentCockpit.Renderer

open AgentCockpit.Core

/-! ### Task graphs -/

structure BeadsIssue where
  id : String
  title : String
  body : String
  status : String
  priority : ℤ
  issueType : String
  labels : List String
  externalRef : Option String
  createdAt : String
  updatedAt : String
  deriving DecidableEq

structure BeadsDep where
  from_ : String
  to_ : String
  type_ : String
  deriving DecidableEq

inductive BeadsSourceKind
  | sqlite | jsonl
  deriving DecidableEq

structure BeadsSource where
  kind : BeadsSourceKind
  path : String
  deriving DecidableEq

structure BeadsTaskGraph where
  source : BeadsSource
  schemaCompatible : Bool
  issues : List BeadsIssue
  deps : List BeadsDep
  deriving DecidableEq

/-- The fields of an issue that a refresh compares. -/
def sameIssue (x y : BeadsIssue) : Bool :=
  x.id = y.id ∧ x.status = y.status ∧ x.title = y.title ∧ x.priority = y.priority ∧
    x.issueType = y.issueType ∧ x.updatedAt = y.updatedAt

def sameDep (x y : BeadsDep) : Bool :=
  x.from_ = y.from_ ∧ x.to_ = y.to_ ∧ x.type_ = y.type_

def sameGraph (a b : BeadsTaskGraph) : Bool :=
  a.issues.length = b.issues.length ∧ a.deps.length = b.deps.length ∧
    (a.issues.zip b.issues).all (fun pair => sameIssue pair.1 pair.2) ∧
    (a.deps.zip b.deps).all (fun pair => sameDep pair.1 pair.2)

/-! ### The slice of a project -/

inductive WorkgraphView
  | flat | graph | tree | columns
  deriving DecidableEq

/-- What local storage keeps of a project: the view, the selected task, the focused task and
the focus set, each as the text that is stored. -/
structure FocusMemory where
  view : Option String := none
  selection : Option String := none
  focus : Option String := none
  focusSet : Option String := none
  deriving DecidableEq

def readView (memory : FocusMemory) : WorkgraphView :=
  match memory.view with
  | some "graph" => .graph
  | some "tree" => .tree
  | some "columns" => .columns
  | _ => .flat

def readFocusSet (memory : FocusMemory) : List String :=
  match memory.focusSet with
  | some raw => (raw.splitOn ",").filter (· ≠ "")
  | none => []

def writeFocusSet (ids : List String) (memory : FocusMemory) : FocusMemory :=
  { memory with focusSet := if ids = [] then none else some (",".intercalate ids) }

structure BeadsSlice where
  graph : Option BeadsTaskGraph
  loading : Bool
  error : Option String
  selectedId : Option String
  focusId : Option String
  focusEpicIds : List String
  view : WorkgraphView
  deriving DecidableEq

def emptySlice (memory : FocusMemory) : BeadsSlice where
  graph := none
  loading := false
  error := none
  selectedId := none
  focusId := memory.focus
  focusEpicIds := readFocusSet memory
  view := readView memory

/-- The slice of one project, next to its local storage. -/
structure BeadsStore where
  memory : FocusMemory := {}
  slice : Option BeadsSlice := none
  deriving DecidableEq

/-- Change the slice; an absent one starts empty. -/
def BeadsStore.patch (store : BeadsStore) (change : BeadsSlice → BeadsSlice) : BeadsStore :=
  { store with slice := some (change (store.slice.getD (emptySlice store.memory))) }

/-- The graph in the slice, if there is one. -/
def BeadsStore.graph (store : BeadsStore) : Option BeadsTaskGraph :=
  store.slice.bind (·.graph)

@[simp] theorem BeadsStore.graph_patch (store : BeadsStore) (change : BeadsSlice → BeadsSlice) :
    (store.patch change).graph =
      (change (store.slice.getD (emptySlice store.memory))).graph :=
  rfl

/-! ### Loading -/

/-- The two reads of a load: `detectBeads`, then `getTaskGraph`. -/
inductive BeadsRead
  | detectBeads | getTaskGraph
  deriving DecidableEq

/-- The answers of the reads. -/
inductive BeadsAnswer
  | present (present : Bool)
  | graph (graph : BeadsTaskGraph)
  | failed (error : String)
  deriving DecidableEq

/-- What a load has read: no Beads, a graph, or nothing because it failed. -/
inductive BeadsOutcome
  | absent
  | graph (graph : BeadsTaskGraph)
  | failed
  deriving DecidableEq

/-- An id that the graph still has. -/
def stillThere (graph : BeadsTaskGraph) (saved : Option String) : Option String :=
  saved.filter fun id => id ≠ "" ∧ graph.issues.any (·.id = id)

/-- The ids that the graph still has as epics. -/
def stillEpics (graph : BeadsTaskGraph) (ids : List String) : List String :=
  ids.filter fun id => graph.issues.any fun issue => issue.issueType = "epic" ∧ issue.id = id

/-- Put a graph into the slice that differs from the one there. -/
def BeadsStore.putGraph (store : BeadsStore) (graph : BeadsTaskGraph) : BeadsStore :=
  let focusEpicIds := stillEpics graph (readFocusSet store.memory)
  ({ store with memory := writeFocusSet focusEpicIds store.memory } : BeadsStore).patch
    fun slice =>
      { slice with
        graph := some graph
        loading := false
        error := none
        selectedId := stillThere graph store.memory.selection
        focusId := stillThere graph store.memory.focus
        focusEpicIds }

/-- The last good graph survives a failed read. -/
def BeadsStore.fail (store : BeadsStore) (error : String) : BeadsStore :=
  match store.graph with
  | some _ => store.patch fun slice => { slice with loading := false, error := none }
  | none => store.patch fun slice => { slice with loading := false, error := some error }

def BeadsStore.write (store : BeadsStore) : BeadsAnswer → BeadsStore
  | .present _ => store.patch fun slice =>
      { slice with graph := none, loading := false, error := none, selectedId := none }
  | .graph graph =>
    if ∃ prev ∈ store.graph, sameGraph prev graph then
      store.patch fun slice => { slice with loading := false, error := none }
    else store.putGraph graph
  | .failed error => store.fail error

/-- `load`, `clearForDisconnect` and `evict` of one project. -/
def beadsLoader : Loader BeadsStore BeadsRead BeadsAnswer BeadsOutcome where
  first := .detectBeads
  issue store := store.patch fun slice =>
    { slice with view := readView store.memory, loading := true, error := none }
  live store := store.slice.isSome
  answers
    | .detectBeads, .graph _ | .getTaskGraph, .present _ => false
    | _, _ => true
  next
    | .detectBeads, .present true => some .getTaskGraph
    | _, _ => none
  write _ answer store := store.write answer
  read
    | _, .present _ => .absent
    | _, .graph graph => .graph graph
    | _, .failed _ => .failed
  clear store := { store with slice := some (emptySlice store.memory) }
  evict store := { store with slice := none }

/-! ### What the slice holds -/

def BeadsStore.Loading (store : BeadsStore) : Prop :=
  ∃ slice ∈ store.slice, slice.loading = true

/-- The slice holds what a load has read. -/
def BeadsStore.Holds (store : BeadsStore) : BeadsOutcome → Prop
  | .absent => store.slice.isSome ∧ store.graph = none
  | .graph graph => store.graph = some graph
  | .failed => True

/-- The graph that is held compares equal to the one that is read only when it is that one. -/
def BeadsStore.Distinguishes (store : BeadsStore) : BeadsAnswer → Prop
  | .graph graph => ∀ prev ∈ store.graph, sameGraph prev graph = true → prev = graph
  | _ => True

/-- An answer that leaves the graph of the slice as it is. -/
def BeadsStore.Spares (store : BeadsStore) : BeadsAnswer → Prop
  | .present _ => store.slice.isSome ∧ store.graph = none
  | .graph graph => ∃ prev ∈ store.graph, sameGraph prev graph = true
  | .failed _ => store.slice.isSome

theorem BeadsStore.loading_patch {store : BeadsStore} {change : BeadsSlice → BeadsSlice}
    (h : ∀ slice, (change slice).loading = false) : ¬ (store.patch change).Loading := by
  rintro ⟨slice, hslice, hloading⟩
  obtain rfl := Option.some.inj hslice
  rw [h] at hloading
  exact Bool.false_ne_true hloading

theorem BeadsStore.not_loading_write (store : BeadsStore) (answer : BeadsAnswer) :
    ¬ (store.write answer).Loading := by
  cases answer with
  | present present => exact loading_patch fun _ => rfl
  | graph graph =>
    rw [write]
    split
    · exact loading_patch fun _ => rfl
    · exact loading_patch fun _ => rfl
  | failed error =>
    rw [write, fail]
    split
    · exact loading_patch fun _ => rfl
    · exact loading_patch fun _ => rfl

/-- A failed read keeps the graph. -/
theorem BeadsStore.graph_fail {store : BeadsStore} (error : String) (hlive : store.slice.isSome) :
    (store.fail error).graph = store.graph := by
  obtain ⟨slice, hslice⟩ := Option.isSome_iff_exists.mp hlive
  have hgraph : store.graph = slice.graph := by rw [graph, hslice]; rfl
  unfold fail
  split
  · rw [graph_patch, hgraph, hslice]
    rfl
  · rw [graph_patch, hgraph, hslice]
    rfl

/-- A graph that is told apart from the one that is held is put into the slice. -/
theorem BeadsStore.holds_write {store : BeadsStore} {answer : BeadsAnswer} (stage : BeadsRead)
    (hdistinct : store.Distinguishes answer) :
    (store.write answer).Holds (beadsLoader.read stage answer) := by
  cases answer with
  | present present => exact ⟨rfl, rfl⟩
  | graph graph =>
    change (store.write (.graph graph)).graph = some graph
    rw [write]
    split
    · next hsame =>
      obtain ⟨prev, hprev, hsame⟩ := hsame
      obtain rfl := hdistinct prev hprev hsame
      obtain ⟨slice, hslice, hgraph⟩ := Option.bind_eq_some_iff.mp hprev
      rw [graph_patch, hslice]
      exact hgraph
    · rfl
  | failed error => trivial

/-- An answer that spares the graph keeps what the slice holds. -/
theorem BeadsStore.holds_of_spares {store : BeadsStore} {answer : BeadsAnswer}
    {outcome : BeadsOutcome} (hspares : store.Spares answer) (h : store.Holds outcome) :
    (store.write answer).Holds outcome := by
  have hgraph : (store.write answer).slice.isSome = true ∧
      (store.write answer).graph = store.graph := by
    cases answer with
    | present present => exact ⟨rfl, hspares.2.symm⟩
    | graph graph =>
      obtain ⟨prev, hprev, hsame⟩ := hspares
      obtain ⟨slice, hslice, -⟩ := Option.bind_eq_some_iff.mp hprev
      rw [write, if_pos ⟨prev, hprev, hsame⟩]
      refine ⟨rfl, ?_⟩
      rw [graph_patch, BeadsStore.graph, hslice]
      rfl
    | failed error =>
      refine ⟨?_, graph_fail error hspares⟩
      rw [write, fail]
      split <;> rfl
  cases outcome with
  | absent => exact ⟨hgraph.1, hgraph.2.trans h.2⟩
  | graph graph => exact hgraph.2.trans h
  | failed => trivial

/-- What a load writes. -/
theorem beadsLoader_lawful : beadsLoader.Lawful BeadsStore.Loading
    (fun outcome store => store.Holds outcome) (fun _ answer store => store.Distinguishes answer)
    fun _ answer store => store.Spares answer where
  live_of_loading store h := by
    obtain ⟨slice, hslice, -⟩ := h
    exact Option.isSome_of_mem hslice
  not_loading_write _ answer store := store.not_loading_write answer
  not_loading_clear store := by
    rintro ⟨slice, hslice, hloading⟩
    obtain rfl := Option.some.inj hslice
    exact Bool.false_ne_true hloading
  not_loading_evict store := fun ⟨_, hslice, _⟩ => nomatch hslice
  holds_of_faithful stage _ _ _ hdistinct := BeadsStore.holds_write stage hdistinct
  holds_of_harmless _ _ _ _ hspares h := BeadsStore.holds_of_spares hspares h

end AgentCockpit.Renderer
