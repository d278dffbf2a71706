import AgentCockpit.Core.Joined
import AgentCockpit.Core.SortBy
import Mathlib

/-!
# The table of projects

The projects that were added are rows of a table, each with an id of its own, and one of them may be
the active one. The order in which they are shown is kept as a number in each row.
-/

namespace AgentCockpit.Projects

open AgentCockpit.Core

abbrev Text := List Char

inductive ProjectKind
  | local_
  | remote
  deriving DecidableEq, Repr

structure RemoteConnectionSpec where
  host : Text
  user : Text
  port : ℕ
  identityPath : Option Text
  remotePath : Text
  deriving DecidableEq, Repr

inductive ConnectionSpec
  | local_ (rootPath : Text)
  | remote (spec : RemoteConnectionSpec)
  deriving DecidableEq, Repr

def ConnectionSpec.kind : ConnectionSpec → ProjectKind
  | .local_ _ => .local_
  | .remote _ => .remote

/-- The row of a project. Its kind is that of its connection, from which it is taken. -/
structure ProjectRow where
  id : Text
  label : Text
  connection : ConnectionSpec
  createdAt : Text
  lastActiveAt : Option Text
  runCommand : Option Text
  sortOrder : ℤ
  deriving DecidableEq, Repr

def ProjectRow.kind (row : ProjectRow) : ProjectKind := row.connection.kind

/-- What is shown of a row. -/
structure CockpitProject where
  id : Text
  label : Text
  kind : ProjectKind
  connection : ConnectionSpec
  createdAt : Text
  lastActiveAt : Option Text
  runCommand : Option Text
  deriving DecidableEq, Repr

def rowToProject (row : ProjectRow) : CockpitProject :=
  ⟨row.id, row.label, row.kind, row.connection, row.createdAt, row.lastActiveAt, row.runCommand⟩

/-- The rows, no two of which have the same id, and the active project. -/
structure ProjectTable where
  rows : List ProjectRow := []
  active : Option Text := none
  nodup : (rows.map (·.id)).Nodup := by exact List.nodup_nil

/-- What the rows are listed by. -/
def ProjectRow.key (row : ProjectRow) : ℤ ×ₗ Text := toLex (row.sortOrder, row.createdAt)

def listProjectsOn (table : ProjectTable) : List CockpitProject :=
  (sortBy ProjectRow.key table.rows).map rowToProject

def ProjectTable.find? (table : ProjectTable) (id : Text) : Option ProjectRow :=
  table.rows.find? (·.id = id)

def getProjectOn (table : ProjectTable) (id : Text) : Option CockpitProject :=
  (table.find? id).map rowToProject

/-- One more than the greatest number in the table. -/
def ProjectTable.nextSortOrder (table : ProjectTable) : ℤ :=
  ((table.rows.map (·.sortOrder)).max?.getD (-1)) + 1

/-- The row of a new project. -/
def ProjectTable.newRow (table : ProjectTable) (id createdAt label : Text)
    (connection : ConnectionSpec) : ProjectRow :=
  ⟨id, label, connection, createdAt, none, none, table.nextSortOrder⟩

/-- Append a project with a new id and the time of its creation. -/
def addProjectOn (table : ProjectTable) (id createdAt label : Text) (connection : ConnectionSpec) :
    Except String (CockpitProject × ProjectTable) :=
  if h : id ∈ table.rows.map (·.id) then
    .error "UNIQUE constraint failed: agent_cockpit_projects.id"
  else
    let row := table.newRow id createdAt label connection
    .ok (rowToProject row,
      { table with
        rows := table.rows ++ [row]
        nodup := by
          rw [List.map_append, List.nodup_append]
          refine ⟨table.nodup, List.nodup_singleton _, fun a ha b hb => ?_⟩
          obtain rfl := List.mem_singleton.mp hb
          exact fun heq => h (heq ▸ ha) })

/-- Change the rows, but not their ids. -/
def ProjectTable.update (table : ProjectTable) (change : ProjectRow → ProjectRow)
    (h : ∀ row, (change row).id = row.id) : ProjectTable where
  rows := table.rows.map change
  active := table.active
  nodup := by
    rw [List.map_map, show (fun row : ProjectRow => row.id) ∘ change = (·.id) from funext h]
    exact table.nodup

/-- Number the row of a project. -/
def ProjectTable.setSortOrder (table : ProjectTable) (id : Text) (index : ℕ) : ProjectTable :=
  table.update (fun row => if row.id = id then { row with sortOrder := index } else row)
    fun row => by split <;> rfl

def reorderProjectsOn (table : ProjectTable) (orderedIds : List Text) : ProjectTable :=
  orderedIds.zipIdx.foldl (fun table entry => table.setSortOrder entry.1 entry.2) table

def setActiveProjectIdOn (table : ProjectTable) : Option Text → Except String ProjectTable
  | none => .ok { table with active := none }
  | some id =>
    if getProjectOn table id = none then
      .error ("cannot set active project: no such project " ++ String.ofList id)
    else .ok { table with active := some id }

/-- Forget a project, and that it was the active one. -/
def removeProjectOn (table : ProjectTable) (id : Text) : Except String ProjectTable :=
  let rest : ProjectTable :=
    { rows := table.rows.filter (·.id ≠ id)
      active := table.active
      nodup := table.nodup.sublist (List.filter_sublist.map _) }
  if rest.active = some id then setActiveProjectIdOn rest none else .ok rest

/-! ### Rows by their ids -/

namespace ProjectTable

variable {table : ProjectTable} {row other : ProjectRow} {id : Text}

theorem eq_of_id (hrow : row ∈ table.rows) (hother : other ∈ table.rows) (h : row.id = other.id) :
    row = other :=
  List.inj_on_of_nodup_map table.nodup hrow hother h

theorem find?_eq_some_iff : table.find? id = some row ↔ row ∈ table.rows ∧ row.id = id := by
  constructor
  · intro h
    have hfound : table.rows.find? (fun row => row.id = id) = some row := h
    have hid := List.find?_some hfound
    exact ⟨List.mem_of_find?_eq_some hfound, of_decide_eq_true hid⟩
  · rintro ⟨hrow, rfl⟩
    have hsome : (table.rows.find? fun other => other.id = row.id).isSome :=
      List.find?_isSome.mpr ⟨row, hrow, decide_eq_true rfl⟩
    obtain ⟨found, hfound⟩ := Option.isSome_iff_exists.mp hsome
    have hid := List.find?_some hfound
    rw [find?, hfound, eq_of_id (List.mem_of_find?_eq_some hfound) hrow (of_decide_eq_true hid)]

@[simp] theorem rows_update {change : ProjectRow → ProjectRow}
    (h : ∀ row, (change row).id = row.id) : (table.update change h).rows = table.rows.map change :=
  rfl

theorem lt_nextSortOrder (h : row ∈ table.rows) : row.sortOrder < table.nextSortOrder := by
  have hmem : row.sortOrder ∈ table.rows.map (·.sortOrder) := List.mem_map_of_mem h
  obtain ⟨greatest, hmax⟩ := Option.ne_none_iff_exists'.mp
    (mt List.max?_eq_none_iff.mp (List.ne_nil_of_mem hmem))
  have hle := (List.max?_eq_some_iff.mp hmax).2 _ hmem
  rw [nextSortOrder, hmax, Option.getD_some]
  omega

end ProjectTable

/-! ### Renumbering -/

/-- The number that a list of ids gives to a row. -/
def ProjectRow.place (orderedIds : List Text) (row : ProjectRow) : ProjectRow :=
  if row.id ∈ orderedIds then { row with sortOrder := orderedIds.idxOf row.id } else row

section Place

variable {table : ProjectTable} {row : ProjectRow} {orderedIds : List Text}

@[simp] theorem rowToProject_place : rowToProject (row.place orderedIds) = rowToProject row := by
  rw [ProjectRow.place]
  split <;> rfl

theorem place_of_notMem (h : row.id ∉ orderedIds) : row.place orderedIds = row := if_neg h

theorem key_place_of_mem (h : row.id ∈ orderedIds) :
    (row.place orderedIds).key = toLex ((orderedIds.idxOf row.id : ℤ), row.createdAt) := by
  rw [ProjectRow.place, if_pos h]
  rfl

/-- The ids are numbered one after the other; a later one changes no row that is numbered. -/
theorem rows_foldl_setSortOrder (h : orderedIds.Nodup) (table : ProjectTable) (start : ℕ) :
    ((orderedIds.zipIdx start).foldl (fun table entry => table.setSortOrder entry.1 entry.2)
        table).rows =
      table.rows.map fun row =>
        if row.id ∈ orderedIds then
          { row with sortOrder := (start + orderedIds.idxOf row.id : ℕ) }
        else row := by
  induction orderedIds generalizing table start with
  | nil => exact (List.map_id _).symm
  | cons id orderedIds ih =>
    obtain ⟨hid, hrest⟩ := List.nodup_cons.mp h
    rw [List.zipIdx_cons, List.foldl_cons, ih hrest, ProjectTable.setSortOrder,
      ProjectTable.rows_update, List.map_map]
    refine List.map_congr_left fun row _ => ?_
    dsimp only [Function.comp_apply]
    by_cases hrow : row.id = id
    · -- the row is numbered here, and no later id is its own
      rw [if_pos hrow, if_pos (List.mem_cons.mpr (.inl hrow))]
      dsimp only
      rw [if_neg (hrow ▸ hid), ← hrow, List.idxOf_cons_self, Nat.add_zero]
    · rw [if_neg hrow]
      by_cases hmem : row.id ∈ orderedIds
      · rw [if_pos hmem, if_pos (List.mem_cons_of_mem id hmem),
          List.idxOf_cons_ne _ (Ne.symm hrow), Nat.add_right_comm, Nat.add_assoc]
      · rw [if_neg hmem, if_neg fun hcons => hmem (List.mem_of_ne_of_mem hrow hcons)]

theorem rows_reorderProjectsOn (h : orderedIds.Nodup) (table : ProjectTable) :
    (reorderProjectsOn table orderedIds).rows = table.rows.map (·.place orderedIds) := by
  rw [reorderProjectsOn, rows_foldl_setSortOrder h]
  refine List.map_congr_left fun row _ => ?_
  rw [Nat.zero_add, ProjectRow.place]

end Place

end AgentCockpit.Projects
