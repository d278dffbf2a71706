import AgentCockpit.Core.Run
import AgentCockpit.Projects.ProjectTable

/-!
# The order of the projects

Projects are listed by a number in their rows, and by the time of their creation where two rows have
the same number. A new project gets a number above all others. A new order numbers the projects that
it names from zero on; the others keep what they had, however small it is.

## Main results

* `keepsOrder_iff` — **in every run the list is as it is meant to be exactly where the projects that
  a new order leaves out are behind the others**
-/

namespace AgentCockpit.Projects

open AgentCockpit.Core

inductive ProjectOp
  | add (id createdAt label : Text) (connection : ConnectionSpec)
  | remove (id : Text)
  | reorder (orderedIds : List Text)
  deriving DecidableEq

/-- What an operation makes of the table. One that throws changes nothing. -/
def step (table : ProjectTable) : ProjectOp → Option ProjectTable
  | .add id createdAt label connection =>
    (addProjectOn table id createdAt label connection).toOption.map (·.2)
  | .remove id => (removeProjectOn table id).toOption
  | .reorder orderedIds => some (reorderProjectsOn table orderedIds)

/-- A project is created later than all others, and ids are listed once. -/
def Admits (table : ProjectTable) : ProjectOp → Prop
  | .add _ createdAt _ _ => ∀ row ∈ table.rows, row.createdAt < createdAt
  | .remove _ => True
  | .reorder orderedIds => orderedIds.Nodup

instance (table : ProjectTable) : DecidablePred (Admits table)
  | .add _ createdAt _ _ =>
    inferInstanceAs (Decidable (∀ row ∈ table.rows, row.createdAt < createdAt))
  | .remove _ => isTrue trivial
  | .reorder orderedIds => inferInstanceAs (Decidable orderedIds.Nodup)

/-- The list as it is meant to be: a new project is last, one that goes leaves the others in their
order, and the projects of a new order come first, as it names them. -/
def KeepsOrder (table : ProjectTable) (op : ProjectOp) (next : ProjectTable) : Prop :=
  listProjectsOn next =
    match op with
    | .add id createdAt label connection => listProjectsOn table ++
        [⟨id, label, connection.kind, connection, createdAt, none, none⟩]
    | .remove id => (listProjectsOn table).filter (·.id ≠ id)
    | .reorder orderedIds => orderedIds.filterMap (getProjectOn table) ++
        (listProjectsOn table).filter (·.id ∉ orderedIds)

/-- A project that a new order leaves out has a number behind the places of those that it names, or
that of such a place if it is younger. -/
def InPlace (table : ProjectTable) : ProjectOp → Prop
  | .add _ _ _ _ => True
  | .remove _ => True
  | .reorder orderedIds => ∀ row ∈ table.rows, row.id ∈ orderedIds →
      ∀ other ∈ table.rows, other.id ∉ orderedIds →
        toLex ((orderedIds.idxOf row.id : ℤ), row.createdAt) < other.key

instance (table : ProjectTable) : DecidablePred (InPlace table)
  | .add _ _ _ _ => isTrue trivial
  | .remove _ => isTrue trivial
  | .reorder orderedIds => inferInstanceAs (Decidable (∀ row ∈ table.rows, row.id ∈ orderedIds →
      ∀ other ∈ table.rows, other.id ∉ orderedIds →
        toLex ((orderedIds.idxOf row.id : ℤ), row.createdAt) < other.key))

/-! ### Rows that are told apart -/

/-- No two projects were created at the same time. -/
def Dated (table : ProjectTable) : Prop := (table.rows.map (·.createdAt)).Nodup

variable {table next : ProjectTable} {row : ProjectRow} {id createdAt label : Text}
  {connection : ConnectionSpec} {orderedIds : List Text} {op : ProjectOp}

theorem Dated.nodup_key (h : Dated table) : (table.rows.map ProjectRow.key).Nodup := by
  have hmap : table.rows.map (·.createdAt) =
      (table.rows.map ProjectRow.key).map fun key => (ofLex key).2 := by
    rw [List.map_map]
    rfl
  rw [Dated, hmap] at h
  exact h.of_map _

theorem eq_of_map_rowToProject {l l' : List ProjectRow} (hl : ∀ row ∈ l, row ∈ table.rows)
    (hl' : ∀ row ∈ l', row ∈ table.rows) (h : l.map rowToProject = l'.map rowToProject) :
    l = l' := by
  have hlength : l.length = l'.length := by
    rw [← List.length_map rowToProject, h, List.length_map]
  refine List.ext_getElem hlength fun i hi hi' => ?_
  have hproject : rowToProject l[i] = rowToProject l'[i] := by
    rw [← List.getElem_map rowToProject (h := by rwa [List.length_map]),
      ← List.getElem_map rowToProject (h := by rwa [List.length_map])]
    simp only [h]
  exact ProjectTable.eq_of_id (hl _ (List.getElem_mem hi)) (hl' _ (List.getElem_mem hi'))
    (congrArg CockpitProject.id hproject)

/-! ### What an operation does -/

theorem of_addProjectOn {result : CockpitProject × ProjectTable}
    (h : addProjectOn table id createdAt label connection = .ok result) :
    result.2.rows = table.rows ++ [table.newRow id createdAt label connection] := by
  rw [addProjectOn] at h
  split at h
  · cases h
  · obtain rfl := Except.ok.inj h
    rfl

theorem exists_removeProjectOn (table : ProjectTable) (id : Text) :
    ∃ next, removeProjectOn table id = .ok next ∧ next.rows = table.rows.filter (·.id ≠ id) := by
  rw [removeProjectOn]
  dsimp only
  split
  · exact ⟨_, rfl, rfl⟩
  · exact ⟨_, rfl, rfl⟩

/-- **What an operation does** to the rows. -/
theorem step_rows (h : step table op = some next) : next.rows =
    match op with
    | .add id createdAt label connection =>
        table.rows ++ [table.newRow id createdAt label connection]
    | .remove id => table.rows.filter (·.id ≠ id)
    | .reorder orderedIds => (reorderProjectsOn table orderedIds).rows := by
  cases op with
  | add id createdAt label connection =>
    rw [step] at h
    cases hadd : addProjectOn table id createdAt label connection with
    | error message =>
      rw [hadd] at h
      cases h
    | ok result =>
      rw [hadd] at h
      obtain rfl := Option.some.inj h
      exact of_addProjectOn hadd
  | remove id =>
    obtain ⟨after, hremove, hrows⟩ := exists_removeProjectOn table id
    rw [step, hremove] at h
    obtain rfl := Option.some.inj h
    exact hrows
  | reorder orderedIds =>
    obtain rfl := Option.some.inj h
    rfl

theorem createdAt_place : (row.place orderedIds).createdAt = row.createdAt := by
  rw [ProjectRow.place]
  split <;> rfl

theorem Dated.step (h : Dated table) (hadmits : Admits table op)
    (hstep : Projects.step table op = some next) : Dated next := by
  have hrows := step_rows hstep
  rw [Dated, hrows]
  cases op with
  | add id createdAt label connection =>
    dsimp only
    rw [List.map_append, List.nodup_append]
    refine ⟨h, List.nodup_singleton _, fun time htime time' htime' => ?_⟩
    obtain ⟨row, hrow, rfl⟩ := List.mem_map.mp htime
    obtain rfl := List.mem_singleton.mp htime'
    -- the guard: a project is added at a later time than all others
    exact (hadmits row hrow).ne
  | remove id => exact h.sublist (List.filter_sublist.map _)
  | reorder orderedIds =>
    dsimp only
    rw [rows_reorderProjectsOn hadmits, List.map_map]
    have hsame : ProjectRow.createdAt ∘ ProjectRow.place orderedIds = ProjectRow.createdAt :=
      funext fun _ => createdAt_place
    rw [hsame]
    exact h

/-- In every run the creation times tell the projects apart. -/
theorem dated_of_reaches (h : Reaches step Admits {} table) : Dated table :=
  h.invariant (fun _ _ _ hdated hadmits hstep => Dated.step hdated hadmits hstep) List.nodup_nil

theorem list_addProjectOn (hdated : Dated table)
    (hrows : next.rows = table.rows ++ [table.newRow id createdAt label connection]) :
    listProjectsOn next = listProjectsOn table ++
      [⟨id, label, connection.kind, connection, createdAt, none, none⟩] := by
  have habove : ∀ row ∈ table.rows,
      row.key < (table.newRow id createdAt label connection).key := fun row hrow =>
    Prod.Lex.toLex_lt_toLex.mpr (.inl (ProjectTable.lt_nextSortOrder hrow))
  rw [listProjectsOn, hrows, sortBy_concat hdated.nodup_key habove, List.map_append]
  rfl

theorem list_removeProjectOn (hdated : Dated table)
    (hrows : next.rows = table.rows.filter (·.id ≠ id)) :
    listProjectsOn next = (listProjectsOn table).filter (·.id ≠ id) := by
  rw [listProjectsOn, hrows, ← filter_sortBy hdated.nodup_key, listProjectsOn, List.filter_map]
  rfl

/-! ### A new order -/

section Reorder

/-- The rows that a list of ids names, in its order. -/
def ProjectTable.named (table : ProjectTable) (orderedIds : List Text) : List ProjectRow :=
  orderedIds.filterMap table.find?

/-- The rows that a list of ids leaves out, as they are listed. -/
def ProjectTable.unnamed (table : ProjectTable) (orderedIds : List Text) : List ProjectRow :=
  (sortBy ProjectRow.key table.rows).filter (·.id ∉ orderedIds)

theorem mem_named : row ∈ table.named orderedIds ↔ row ∈ table.rows ∧ row.id ∈ orderedIds := by
  rw [ProjectTable.named, List.mem_filterMap]
  simp only [ProjectTable.find?_eq_some_iff]
  constructor
  · rintro ⟨id, hid, hrow, rfl⟩
    exact ⟨hrow, hid⟩
  · rintro ⟨hrow, hid⟩
    exact ⟨row.id, hid, hrow, rfl⟩

theorem mem_unnamed : row ∈ table.unnamed orderedIds ↔ row ∈ table.rows ∧ row.id ∉ orderedIds := by
  rw [ProjectTable.unnamed, List.mem_filter, mem_sortBy, decide_eq_true_iff]

theorem nodup_named (h : orderedIds.Nodup) : (table.named orderedIds).Nodup := by
  refine h.filterMap fun id id' row hid hid' => ?_
  exact (ProjectTable.find?_eq_some_iff.mp hid).2.symm.trans
    (ProjectTable.find?_eq_some_iff.mp hid').2

theorem nodup_rows (table : ProjectTable) : table.rows.Nodup := table.nodup.of_map _

/-- The rows are those that are named and those that are not. -/
theorem perm_named_append_unnamed (h : orderedIds.Nodup) :
    (table.named orderedIds ++ table.unnamed orderedIds).Perm table.rows := by
  have hunnamed : (table.unnamed orderedIds).Nodup :=
    ((perm_sortBy _ _).nodup_iff.mpr (nodup_rows table)).filter _
  have hdisjoint : (table.named orderedIds).Disjoint (table.unnamed orderedIds) :=
    fun row hrow hrow' => (mem_unnamed.mp hrow').2 (mem_named.mp hrow).2
  rw [List.perm_ext_iff_of_nodup ((nodup_named h).append hunnamed hdisjoint) (nodup_rows table)]
  intro row
  rw [List.mem_append, mem_named, mem_unnamed, ← and_or_left]
  exact and_iff_left (Classical.em _)

/-- The places of ids increase along the list. -/
theorem pairwise_idxOf (h : orderedIds.Nodup) :
    orderedIds.Pairwise fun id id' => orderedIds.idxOf id < orderedIds.idxOf id' := by
  refine List.pairwise_iff_getElem.mpr fun i j hi hj hlt => ?_
  rw [h.idxOf_getElem i hi, h.idxOf_getElem j hj]
  exact hlt

theorem pairwise_named (h : orderedIds.Nodup) :
    ((table.named orderedIds).map (·.place orderedIds)).Pairwise fun a b => a.key < b.key := by
  rw [List.pairwise_map, ProjectTable.named, List.pairwise_filterMap]
  refine (pairwise_idxOf h).imp_of_mem fun hid hid' hlt row hrow row' hrow' => ?_
  obtain ⟨-, rfl⟩ := ProjectTable.find?_eq_some_iff.mp hrow
  obtain ⟨-, rfl⟩ := ProjectTable.find?_eq_some_iff.mp hrow'
  rw [key_place_of_mem hid, key_place_of_mem hid']
  exact Prod.Lex.toLex_lt_toLex.mpr (.inl (Int.ofNat_lt.mpr hlt))

theorem map_place_unnamed (table : ProjectTable) (orderedIds : List Text) :
    (table.unnamed orderedIds).map (·.place orderedIds) = table.unnamed orderedIds := by
  refine (List.map_congr_left fun row hrow => ?_).trans (List.map_id _)
  exact place_of_notMem (mem_unnamed.mp hrow).2

theorem pairwise_unnamed (hdated : Dated table) (orderedIds : List Text) :
    ((table.unnamed orderedIds).map (·.place orderedIds)).Pairwise fun a b => a.key < b.key := by
  rw [map_place_unnamed]
  exact (pairwise_lt_sortBy hdated.nodup_key).filter _

/-- What the list is meant to be, as rows. -/
theorem map_rowToProject_order (table : ProjectTable) (orderedIds : List Text) :
    (((table.named orderedIds).map (·.place orderedIds)) ++
        (table.unnamed orderedIds).map (·.place orderedIds)).map rowToProject =
      orderedIds.filterMap (getProjectOn table) ++
        (listProjectsOn table).filter (·.id ∉ orderedIds) := by
  have hplace : rowToProject ∘ (fun row => row.place orderedIds) = rowToProject :=
    funext fun _ => rowToProject_place
  rw [List.map_append, List.map_map, List.map_map, hplace, listProjectsOn, List.filter_map,
    ProjectTable.named, List.map_filterMap]
  rfl

/-- **What a new order does**: the list is as it is meant to be where those that it leaves out are
behind the others. -/
theorem list_reorderProjectsOn_iff (hdated : Dated table) (h : orderedIds.Nodup) :
    KeepsOrder table (.reorder orderedIds) (reorderProjectsOn table orderedIds) ↔
      InPlace table (.reorder orderedIds) := by
  have hadmits : Admits table (.reorder orderedIds) := h
  have hnext : Dated (reorderProjectsOn table orderedIds) := hdated.step hadmits rfl
  have hrows := rows_reorderProjectsOn h table
  have hperm : (((table.named orderedIds).map (·.place orderedIds)) ++
      (table.unnamed orderedIds).map (·.place orderedIds)).Perm
        (reorderProjectsOn table orderedIds).rows := by
    rw [hrows, ← List.map_append]
    exact (perm_named_append_unnamed h).map _
  -- both parts are sorted, so together they are iff each named row is before each other one
  have hsorted := append_eq_sortBy_iff hnext.nodup_key hperm (pairwise_named h)
    (pairwise_unnamed hdated orderedIds)
  have hlist : KeepsOrder table (.reorder orderedIds) (reorderProjectsOn table orderedIds) ↔
      ((table.named orderedIds).map (·.place orderedIds)) ++
          (table.unnamed orderedIds).map (·.place orderedIds) =
        sortBy ProjectRow.key (reorderProjectsOn table orderedIds).rows := by
    rw [KeepsOrder, listProjectsOn, ← map_rowToProject_order]
    constructor
    · intro heq
      exact (eq_of_map_rowToProject (fun row hrow => mem_sortBy.mp hrow)
        (fun row hrow => hperm.mem_iff.mp hrow) heq).symm
    · intro heq
      rw [heq]
  rw [hlist, hsorted, map_place_unnamed]
  constructor
  · intro hacross row hrow hid other hother hother'
    have hlt := hacross (row.place orderedIds)
      (List.mem_map_of_mem (mem_named.mpr ⟨hrow, hid⟩)) other (mem_unnamed.mpr ⟨hother, hother'⟩)
    rwa [key_place_of_mem hid] at hlt
  · intro hplace placed hplaced other hother
    obtain ⟨row, hrow, rfl⟩ := List.mem_map.mp hplaced
    obtain ⟨hrow, hid⟩ := mem_named.mp hrow
    obtain ⟨hother, hother'⟩ := mem_unnamed.mp hother
    rw [key_place_of_mem hid]
    exact hplace row hrow hid other hother hother'

end Reorder

/-- **In every run the list is as it is meant to be** after an operation exactly where the projects
that a new order leaves out are behind the others. -/
theorem keepsOrder_iff (hreach : Reaches step Admits {} table) (hadmits : Admits table op)
    (hstep : step table op = some next) : KeepsOrder table op next ↔ InPlace table op := by
  have hdated := dated_of_reaches hreach
  have hrows := step_rows hstep
  cases op with
  | add id createdAt label connection =>
    exact iff_of_true (list_addProjectOn hdated hrows) trivial
  | remove id => exact iff_of_true (list_removeProjectOn hdated hrows) trivial
  | reorder orderedIds =>
    obtain rfl := Option.some.inj hstep
    exact list_reorderProjectsOn_iff hdated hadmits

/-! ### Two projects -/

def docsSpec : ConnectionSpec := .local_ "/srv/docs".toList

/-- Two projects, added one after the other. -/
def twoProjects : ProjectTable where
  rows := [⟨"a".toList, "docs".toList, docsSpec, "2026-01-01".toList, none, none, 0⟩,
    ⟨"b".toList, "tools".toList, docsSpec, "2026-01-02".toList, none, none, 1⟩]
  nodup := by decide

theorem reaches_twoProjects : Reaches step Admits {} twoProjects :=
  ⟨[.add "a".toList "2026-01-01".toList "docs".toList docsSpec,
      .add "b".toList "2026-01-02".toList "tools".toList docsSpec],
    .cons (by decide) rfl (.single (by decide) rfl)⟩

theorem keepsOrder_iff_swap : KeepsOrder twoProjects (.reorder ["b".toList, "a".toList])
    (reorderProjectsOn twoProjects ["b".toList, "a".toList]) :=
  (keepsOrder_iff reaches_twoProjects (by decide) rfl).mpr (by decide)

/-- The second project is named alone. It gets the number of the first one, which is older. -/
theorem not_keepsOrder_partial :
    ¬ ∀ (table next : ProjectTable) (op : ProjectOp), Reaches step Admits {} table →
      Admits table op → step table op = some next → KeepsOrder table op next := by
  intro hall
  have horder := hall twoProjects _ (.reorder ["b".toList]) reaches_twoProjects (by decide) rfl
  have hids := congrArg (List.map (·.id)) horder
  exact absurd hids (by decide)

end AgentCockpit.Projects
