import AgentCockpit.Core.BreadthFirst
import AgentCockpit.Core.Utf16
import AgentCockpit.Renderer.TaskTree

/-!
# The focused graph

Around an issue the graph shows what a few edges lead to. The search gives each issue a rank, one
less than where it comes from if it is upstream, and one more if it is downstream, and it stops at
ranks that are far enough from the centre. A rank can be nearer to the centre than the way there was
long, and then the search goes on. Columns are ranks; edges are drawn between whatever has a rank.

## Main results

* `isNeighbourhood_iff` — **what is meant to be shown is shown exactly in these graphs**
-/

namespace AgentCockpit.Renderer.FocusedGraph

open AgentCockpit.Core
open AgentCockpit.Renderer.TaskTree

inductive GraphEdgeKind
  | blocks
  | parentChild
  | reverseBlock
  deriving DecidableEq

structure LaidOutEdge where
  from_ : String
  to_ : String
  kind : GraphEdgeKind
  deriving DecidableEq

structure LaidOutNode where
  id : String
  issue : BeadsIssue
  state : WorkgraphState
  x : ℕ
  y : ℕ
  rank : ℤ
  deriving DecidableEq

structure LaidOutGraph where
  nodes : List LaidOutNode
  edges : List LaidOutEdge
  width : ℕ
  height : ℕ

def nodeW : ℕ := 220

def nodeH : ℕ := 56

def colGap : ℕ := 60

def rowGap : ℕ := 24

/-! ### The search -/

/-- An edge that is followed and drawn. -/
def Drawn (d : BeadsDep) : Prop := d.type_ = "blocks" ∨ d.type_ ∈ parentTypes

instance (d : BeadsDep) : Decidable (Drawn d) := inferInstanceAs (Decidable (_ ∨ _))

def downstream (graph : BeadsTaskGraph) : Buckets String String :=
  collect ((graph.deps.filter Drawn).map fun d => (d.to_, d.from_))

def upstream (graph : BeadsTaskGraph) : Buckets String String :=
  collect ((graph.deps.filter Drawn).map fun d => (d.from_, d.to_))

theorem mem_upstream {graph : BeadsTaskGraph} {id next : String} :
    next ∈ (upstream graph).get id ↔ ∃ d ∈ graph.deps, Drawn d ∧ d.from_ = id ∧ d.to_ = next := by
  rw [upstream, get_collect, valuesOf]
  simp [and_assoc]

theorem mem_downstream {graph : BeadsTaskGraph} {id next : String} :
    next ∈ (downstream graph).get id ↔ ∃ d ∈ graph.deps, Drawn d ∧ d.to_ = id ∧ d.from_ = next := by
  rw [downstream, get_collect, valuesOf]
  simp [and_assoc]

/-- What is upstream comes before what is downstream. -/
def spread (graph : BeadsTaskGraph) : Spread String ℤ where
  next id rank :=
    ((upstream graph).get id).map (fun next => (next, rank - 1)) ++
      ((downstream graph).get id).map (fun next => (next, rank + 1))
  range := graph.deps.map (·.to_) ++ graph.deps.map (·.from_)
  next_mem id rank entry hentry := by
    rcases List.mem_append.mp hentry with hup | hdown
    · obtain ⟨next, hnext, rfl⟩ := List.mem_map.mp hup
      obtain ⟨d, hd, -, -, rfl⟩ := mem_upstream.mp hnext
      exact List.mem_append_left _ (List.mem_map_of_mem hd)
    · obtain ⟨next, hnext, rfl⟩ := List.mem_map.mp hdown
      obtain ⟨d, hd, -, -, rfl⟩ := mem_downstream.mp hnext
      exact List.mem_append_right _ (List.mem_map_of_mem hd)

/-- The ranks of what is found. -/
def inRank (graph : BeadsTaskGraph) (centerId : String) (hops : ℕ) : List (String × ℤ) :=
  (spread graph).search (fun rank => hops ≤ rank.natAbs) [(centerId, 0)] [(centerId, 0)]

/-! ### Layout and edges -/

/-- The order of strings, by their UTF-16 code units. -/
def compareUnits : Comparator String :=
  Comparator.comap (fun id => (Utf16.encode id.toList).map UInt16.toNat) Comparator.ofOrder

def byRank (ranks : List (String × ℤ)) : Buckets ℤ String := collect (ranks.map Prod.swap)

def nodesOf (graph : BeadsTaskGraph) (ranks : List (String × ℤ)) : List LaidOutNode :=
  (((byRank ranks).map Prod.fst).insertionSort (· ≤ ·)).zipIdx.flatMap fun (rank, c) =>
    (Comparator.sort compareUnits ((byRank ranks).get rank)).zipIdx.filterMap fun (id, r) =>
      (byId graph id).map fun issue =>
        { id
          issue
          state := deriveState graph issue
          x := c * (nodeW + colGap)
          y := r * (nodeH + rowGap)
          rank }

def edgeKind (graph : BeadsTaskGraph) (d : BeadsDep) : GraphEdgeKind :=
  if d.type_ = "blocks" then .blocks
  else
    match byId graph d.from_ with
    | some child => if isTerminal child.status then .parentChild else .reverseBlock
    | none => .parentChild

def edgeOf (graph : BeadsTaskGraph) (d : BeadsDep) : LaidOutEdge :=
  { from_ := d.from_, to_ := d.to_, kind := edgeKind graph d }

def edgesOf (graph : BeadsTaskGraph) (ranks : List (String × ℤ)) : List LaidOutEdge :=
  graph.deps.filterMap fun d =>
    if d.from_ ∉ ranks.map Prod.fst ∨ d.to_ ∉ ranks.map Prod.fst then none
    else if Drawn d then some (edgeOf graph d)
    else none

def focusedSubgraph (graph : BeadsTaskGraph) (centerId : String) (hops : ℕ) : LaidOutGraph :=
  let ranks := inRank graph centerId hops
  let nodes := nodesOf graph ranks
  { nodes
    edges := edgesOf graph ranks
    width := (byRank ranks).length * (nodeW + colGap)
    height := nodes.foldl (fun height node => max height (node.y + (nodeH + rowGap))) 0 }

/-! ### What is meant to be shown -/

/-- An edge apart, in either direction. -/
def Adjacent (graph : BeadsTaskGraph) (id other : String) : Prop :=
  ∃ d ∈ graph.deps, Drawn d ∧ ((d.from_ = id ∧ d.to_ = other) ∨ (d.to_ = id ∧ d.from_ = other))

def Exists (graph : BeadsTaskGraph) (id : String) : Prop := ∃ issue ∈ graph.issues, issue.id = id

structure IsNeighbourhood (graph : BeadsTaskGraph) (centerId : String) (hops : ℕ)
    (result : LaidOutGraph) : Prop where
  nodup : (result.nodes.map (·.id)).Nodup
  mem_nodes : ∀ id, id ∈ result.nodes.map (·.id) ↔
    Exists graph id ∧ Near (Adjacent graph) centerId hops id
  issue_mem : ∀ node ∈ result.nodes, node.issue ∈ graph.issues ∧ node.issue.id = node.id
  positions : result.nodes.Pairwise fun node other => (node.x, node.y) ≠ (other.x, other.y)
  edges : result.edges = (graph.deps.filter fun d =>
    Drawn d ∧ d.from_ ∈ result.nodes.map (·.id) ∧ d.to_ ∈ result.nodes.map (·.id)).map
        (edgeOf graph)

/-- What is near exists, and what is first found at the full distance on a way that turns leads to
nothing further away. -/
structure Bounded (graph : BeadsTaskGraph) (centerId : String) (hops : ℕ) : Prop where
  existing : ∀ id, Near (Adjacent graph) centerId hops id → Exists graph id
  turned : ∀ entry ∈ ((spread graph).layers (centerId, 0) hops).2, entry.2.natAbs < hops →
    ∀ id, Adjacent graph entry.1 id → Near (Adjacent graph) centerId hops id

section Layout

variable {graph : BeadsTaskGraph} {ranks : List (String × ℤ)} {id : String} {rank : ℤ}

theorem mem_byRank : id ∈ (byRank ranks).get rank ↔ (id, rank) ∈ ranks := by
  rw [byRank, get_collect, valuesOf]
  simp

theorem mem_columns : rank ∈ (byRank ranks).map Prod.fst ↔ ∃ id, (id, rank) ∈ ranks := by
  rw [byRank, collect_eq, List.map_map]
  simp

theorem nodup_columns (ranks : List (String × ℤ)) : ((byRank ranks).map Prod.fst).Nodup := by
  rw [byRank, collect_eq, List.map_map]
  exact (List.map_id _).symm ▸ nodup_appearing _

theorem nodup_byRank (hkeys : (ranks.map Prod.fst).Nodup) (rank : ℤ) :
    ((byRank ranks).get rank).Nodup := by
  rw [byRank, get_collect, valuesOf]
  have hsub := (List.filter_sublist (p := fun entry : ℤ × String => decide (entry.1 = rank))
    (l := ranks.map Prod.swap)).map Prod.snd
  refine List.Nodup.sublist hsub ?_
  rwa [List.map_map]

theorem pairwise_zipIdx {α : Type*} {l : List α} (h : l.Nodup) :
    l.zipIdx.Pairwise fun a b => a.1 ≠ b.1 ∧ a.2 ≠ b.2 := by
  refine List.Pairwise.and ?_ ?_
  · rw [← List.pairwise_map (f := Prod.fst), List.zipIdx_map_fst]
    exact h
  · rw [← List.pairwise_map (f := Prod.snd), List.zipIdx_map_snd]
    exact List.nodup_range'

theorem exists_mem_zipIdx {α : Type*} {l : List α} {a : α} (h : a ∈ l) :
    ∃ i, (a, i) ∈ l.zipIdx := by
  rw [← List.zipIdx_map_fst 0 l] at h
  obtain ⟨⟨a, i⟩, hmem, rfl⟩ := List.mem_map.mp h
  exact ⟨i, hmem⟩

/-- A node is at the column and the row of its entry. -/
theorem mem_nodesOf {node : LaidOutNode} : node ∈ nodesOf graph ranks ↔
    ∃ c r, (node.rank, c) ∈ (((byRank ranks).map Prod.fst).insertionSort (· ≤ ·)).zipIdx ∧
      (node.id, r) ∈ (Comparator.sort compareUnits ((byRank ranks).get node.rank)).zipIdx ∧
      byId graph node.id = some node.issue ∧ node.state = deriveState graph node.issue ∧
      node.x = c * (nodeW + colGap) ∧ node.y = r * (nodeH + rowGap) := by
  rw [nodesOf, List.mem_flatMap]
  constructor
  · rintro ⟨⟨rank, c⟩, hc, hnode⟩
    obtain ⟨⟨id, r⟩, hr, hnode⟩ := List.mem_filterMap.mp hnode
    obtain ⟨issue, hissue, rfl⟩ := Option.map_eq_some_iff.mp hnode
    exact ⟨c, r, hc, hr, hissue, rfl, rfl, rfl⟩
  · rintro ⟨c, r, hc, hr, hissue, hstate, hx, hy⟩
    refine ⟨(node.rank, c), hc, List.mem_filterMap.mpr ⟨(node.id, r), hr, ?_⟩⟩
    change (byId graph node.id).map _ = some node
    rw [hissue, Option.map_some, ← hstate, ← hx, ← hy]

/-- No issue is shown twice, and no two at one place. -/
theorem pairwise_nodesOf (hkeys : (ranks.map Prod.fst).Nodup) (graph : BeadsTaskGraph) :
    (nodesOf graph ranks).Pairwise fun node other =>
      node.id ≠ other.id ∧ (node.x, node.y) ≠ (other.x, other.y) := by
  have hcolumns : (((byRank ranks).map Prod.fst).insertionSort (· ≤ ·)).Nodup :=
    (List.perm_insertionSort _ _).nodup_iff.mpr (nodup_columns ranks)
  rw [nodesOf, List.pairwise_flatMap]
  refine ⟨?_, ?_⟩
  · rintro ⟨rank, c⟩ -
    rw [List.pairwise_filterMap]
    refine (pairwise_zipIdx (Comparator.nodup_sort (nodup_byRank hkeys rank))).imp ?_
    rintro ⟨id, r⟩ ⟨id', r'⟩ ⟨hid, hrow⟩ node hnode other hother
    obtain ⟨issue, -, rfl⟩ := Option.map_eq_some_iff.mp hnode
    obtain ⟨issue', -, rfl⟩ := Option.map_eq_some_iff.mp hother
    refine ⟨hid, fun heq => hrow ?_⟩
    have hy := (Prod.ext_iff.mp heq).2
    simp only [nodeH, rowGap] at hy
    omega
  · refine (pairwise_zipIdx hcolumns).imp ?_
    rintro ⟨rank, c⟩ ⟨rank', c'⟩ ⟨hrank, hcolumn⟩ node hnode other hother
    obtain ⟨⟨id, r⟩, hr, hnode⟩ := List.mem_filterMap.mp hnode
    obtain ⟨⟨id', r'⟩, hr', hother⟩ := List.mem_filterMap.mp hother
    obtain ⟨issue, -, rfl⟩ := Option.map_eq_some_iff.mp hnode
    obtain ⟨issue', -, rfl⟩ := Option.map_eq_some_iff.mp hother
    have hin := mem_byRank.mp (Comparator.mem_sort.mp (List.fst_mem_of_mem_zipIdx hr))
    have hin' := mem_byRank.mp (Comparator.mem_sort.mp (List.fst_mem_of_mem_zipIdx hr'))
    refine ⟨?_, fun heq => hcolumn ?_⟩
    · rintro rfl
      exact hrank (Prod.ext_iff.mp (List.inj_on_of_nodup_map hkeys hin hin' rfl)).2
    · have hx := (Prod.ext_iff.mp heq).1
      simp only [nodeW, colGap] at hx
      omega

theorem mem_ids_nodesOf : id ∈ (nodesOf graph ranks).map (·.id) ↔
    id ∈ ranks.map Prod.fst ∧ ∃ issue, byId graph id = some issue := by
  constructor
  · intro h
    obtain ⟨node, hnode, rfl⟩ := List.mem_map.mp h
    obtain ⟨c, r, -, hr, hissue, -⟩ := mem_nodesOf.mp hnode
    exact ⟨List.mem_map.mpr ⟨_, mem_byRank.mp (Comparator.mem_sort.mp
      (List.fst_mem_of_mem_zipIdx hr)), rfl⟩, _, hissue⟩
  · rintro ⟨h, issue, hissue⟩
    obtain ⟨⟨id, rank⟩, hentry, rfl⟩ := List.mem_map.mp h
    have hcolumn : rank ∈ ((byRank ranks).map Prod.fst).insertionSort (· ≤ ·) :=
      (List.mem_insertionSort _).mpr (mem_columns.mpr ⟨id, hentry⟩)
    have hrow : id ∈ Comparator.sort compareUnits ((byRank ranks).get rank) :=
      Comparator.mem_sort.mpr (mem_byRank.mpr hentry)
    obtain ⟨c, hc⟩ := exists_mem_zipIdx hcolumn
    obtain ⟨r, hr⟩ := exists_mem_zipIdx hrow
    refine List.mem_map.mpr ⟨⟨id, issue, deriveState graph issue, c * (nodeW + colGap),
      r * (nodeH + rowGap), rank⟩, ?_, rfl⟩
    exact mem_nodesOf.mpr ⟨c, r, hc, hr, hissue, rfl, rfl, rfl⟩

theorem mem_edgesOf {edge : LaidOutEdge} : edge ∈ edgesOf graph ranks ↔
    ∃ d ∈ graph.deps, Drawn d ∧ d.from_ ∈ ranks.map Prod.fst ∧ d.to_ ∈ ranks.map Prod.fst ∧
      edgeOf graph d = edge := by
  rw [edgesOf, List.mem_filterMap]
  refine exists_congr fun d => and_congr_right fun _ => ?_
  by_cases hranks : d.from_ ∈ ranks.map Prod.fst ∧ d.to_ ∈ ranks.map Prod.fst
  · obtain ⟨hfrom, hto⟩ := hranks
    by_cases hdrawn : Drawn d
    · simp only [hfrom, hto, hdrawn, not_true, or_self, if_false, if_true, true_and,
        Option.some.injEq]
    · simp only [hfrom, hto, hdrawn, not_true, or_self, if_false, false_and, reduceCtorEq]
  · rw [if_pos (not_and_or.mp hranks)]
    refine iff_of_false nofun ?_
    rintro ⟨-, hfrom, hto, -⟩
    exact hranks ⟨hfrom, hto⟩

/-- Where everything that has a rank is shown, the edges are those between what is shown. -/
theorem edgesOf_eq {shown : List String} (h : ∀ id, id ∈ ranks.map Prod.fst ↔ id ∈ shown) :
    edgesOf graph ranks = (graph.deps.filter fun d =>
      Drawn d ∧ d.from_ ∈ shown ∧ d.to_ ∈ shown).map (edgeOf graph) := by
  conv_rhs => rw [← List.filterMap_eq_map, List.filterMap_filter]
  refine List.filterMap_congr fun d _ => ?_
  simp only [h]
  by_cases hdrawn : Drawn d
  · by_cases hfrom : d.from_ ∈ shown
    · by_cases hto : d.to_ ∈ shown
      · simp [hdrawn, hfrom, hto]
      · simp [hdrawn, hfrom, hto]
    · simp [hdrawn, hfrom]
  · simp [hdrawn]

end Layout

/-! ### The neighbourhood -/

section Neighbourhood

variable {graph : BeadsTaskGraph} {centerId : String} {hops : ℕ}

theorem mem_next (id : String) (rank : ℤ) (other : String) :
    other ∈ Spread.keys ((spread graph).next id rank) ↔ Adjacent graph id other := by
  have hkeys : Spread.keys ((spread graph).next id rank) =
      (upstream graph).get id ++ (downstream graph).get id := by
    simp [spread, Spread.keys, List.map_append, List.map_map, Function.comp_def]
  rw [hkeys, List.mem_append, mem_upstream, mem_downstream, Adjacent]
  simp only [← exists_or, ← and_or_left]

/-- Up to the last layer, the ranks are not far enough from the centre for the search to stop. -/
theorem natAbs_layers (graph : BeadsTaskGraph) (centerId : String) (k : ℕ) :
    ∀ entry ∈ ((spread graph).layers (centerId, 0) k).2, entry.2.natAbs ≤ k := by
  refine (spread graph).label_layers (fun k rank => rank.natAbs ≤ k) (centerId, 0)
    (Nat.le_refl 0) ?_ k
  intro k id rank hrank entry hentry
  rcases List.mem_append.mp hentry with hup | hdown
  · obtain ⟨next, -, rfl⟩ := List.mem_map.mp hup
    dsimp only
    omega
  · obtain ⟨next, -, rfl⟩ := List.mem_map.mp hdown
    dsimp only
    omega

theorem inRank_eq (graph : BeadsTaskGraph) (centerId : String) (hops : ℕ) :
    inRank graph centerId hops = (spread graph).search (fun rank => hops ≤ rank.natAbs)
      ((spread graph).layers (centerId, 0) hops).1
        ((spread graph).layers (centerId, 0) hops).2 := by
  refine (spread graph).search_layers (centerId, 0) hops fun k hk entry hentry => ?_
  have := natAbs_layers graph centerId k entry hentry
  exact decide_eq_false (by omega)

theorem nodup_inRank (graph : BeadsTaskGraph) (centerId : String) (hops : ℕ) :
    ((inRank graph centerId hops).map Prod.fst).Nodup := by
  have hstart : (Spread.keys [(centerId, (0 : ℤ))]).Nodup := List.nodup_singleton _
  exact (spread graph).nodup_search hstart _

/-- Whatever is near is found. -/
theorem mem_inRank_of_near {id : String} (h : Near (Adjacent graph) centerId hops id) :
    id ∈ (inRank graph centerId hops).map Prod.fst := by
  rw [inRank_eq]
  exact List.map_subset _ ((spread graph).found_subset_search _ _)
    (((spread graph).mem_layers mem_next (centerId, 0) hops id).mpr h)

/-- **What is meant to be shown is shown exactly** if what is near exists, and no rank misleads the
search. -/
theorem isNeighbourhood_iff (graph : BeadsTaskGraph) (hids : (graph.issues.map (·.id)).Nodup)
    (centerId : String) (hcenter : Exists graph centerId) (hops : ℕ) :
    IsNeighbourhood graph centerId hops (focusedSubgraph graph centerId hops) ↔
      Bounded graph centerId hops := by
  have hfound {id : String} : (∃ issue, byId graph id = some issue) ↔ Exists graph id := by
    constructor
    · exact fun ⟨issue, h⟩ => ⟨issue, byId_found h⟩
    · rintro ⟨issue, h, rfl⟩
      exact ⟨issue, byId_id hids h⟩
  constructor
  · intro h
    -- An edge between two ids with a rank is drawn, and so both of them are shown.
    have hshown {id other : String} (hadjacent : Adjacent graph id other)
        (hid : id ∈ (inRank graph centerId hops).map Prod.fst)
        (hother : other ∈ (inRank graph centerId hops).map Prod.fst) :
        other ∈ (focusedSubgraph graph centerId hops).nodes.map (·.id) := by
      obtain ⟨d, hd, hdrawn, hends⟩ := hadjacent
      have hedge : edgeOf graph d ∈ (focusedSubgraph graph centerId hops).edges := by
        refine mem_edgesOf.mpr ⟨d, hd, hdrawn, ?_⟩
        rcases hends with ⟨rfl, rfl⟩ | ⟨rfl, rfl⟩
        · exact ⟨hid, hother, rfl⟩
        · exact ⟨hother, hid, rfl⟩
      rw [h.edges] at hedge
      obtain ⟨d', hd', heq⟩ := List.mem_map.mp hedge
      obtain ⟨-, hends'⟩ := List.mem_filter.mp hd'
      obtain ⟨-, hfrom, hto⟩ := of_decide_eq_true hends'
      have heqFrom : d'.from_ = d.from_ := congrArg LaidOutEdge.from_ heq
      have heqTo : d'.to_ = d.to_ := congrArg LaidOutEdge.to_ heq
      rw [heqFrom] at hfrom
      rw [heqTo] at hto
      rcases hends with ⟨-, rfl⟩ | ⟨-, rfl⟩
      · exact hto
      · exact hfrom
    refine ⟨fun id hnear => ?_, fun entry hentry hturned id hadjacent => ?_⟩
    · by_cases hcentre : id = centerId
      · rw [hcentre]
        exact hcenter
      · obtain ⟨m, hm, hadjacent⟩ := hnear.exists_adjacent hcentre
        exact ((h.mem_nodes id).mp (hshown hadjacent (mem_inRank_of_near hm)
          (mem_inRank_of_near hnear))).1
    · -- The search goes on from what turned.
      obtain ⟨lead, hlead, rfl⟩ := List.mem_map.mp ((mem_next entry.1 entry.2 id).mpr hadjacent)
      have hreached : lead.1 ∈ (inRank graph centerId hops).map Prod.fst := by
        rw [inRank_eq]
        exact (spread graph).mem_search_of_next hentry (decide_eq_false (by omega)) hlead
      have hfrom : entry.1 ∈ (inRank graph centerId hops).map Prod.fst := by
        refine mem_inRank_of_near ?_
        exact ((spread graph).mem_layers mem_next (centerId, 0) hops entry.1).mp
          (List.mem_map_of_mem ((spread graph).layer_subset (centerId, 0) hops hentry))
      exact ((h.mem_nodes lead.1).mp (hshown hadjacent hfrom hreached)).2
  · intro h
    have hranks : inRank graph centerId hops = ((spread graph).layers (centerId, 0) hops).1 := by
      rw [inRank_eq]
      refine (spread graph).search_eq_self fun entry hentry hstop lead hlead => ?_
      refine ((spread graph).mem_layers mem_next (centerId, 0) hops lead.1).mpr ?_
      have hlt := of_decide_eq_false hstop
      exact h.turned entry hentry (by omega) lead.1
        ((mem_next entry.1 entry.2 lead.1).mp (List.mem_map_of_mem hlead))
    have hmem (id : String) : id ∈ (inRank graph centerId hops).map Prod.fst ↔
        Near (Adjacent graph) centerId hops id := by
      rw [hranks]
      exact (spread graph).mem_layers mem_next (centerId, 0) hops id
    have hnodes (id : String) : id ∈ (focusedSubgraph graph centerId hops).nodes.map (·.id) ↔
        Exists graph id ∧ Near (Adjacent graph) centerId hops id := by
      refine mem_ids_nodesOf.trans ?_
      rw [hmem, hfound, and_comm]
    have hpairwise := pairwise_nodesOf (nodup_inRank graph centerId hops) graph
    refine ⟨List.pairwise_map.mpr (hpairwise.imp And.left), hnodes, fun node hnode => ?_,
      hpairwise.imp And.right, edgesOf_eq fun id => ?_⟩
    · obtain ⟨c, r, -, -, hissue, -⟩ := mem_nodesOf.mp hnode
      exact byId_found hissue
    · rw [hmem, hnodes, iff_and_self]
      exact h.existing id

/-- A task that is blocked by one task and blocks another one. -/
def chainGraph : BeadsTaskGraph :=
  taskGraph ["a", "b", "c"] [⟨"b", "a", "blocks"⟩, ⟨"c", "b", "blocks"⟩]

theorem isNeighbourhood_iff_chain :
    IsNeighbourhood chainGraph "b" 1 (focusedSubgraph chainGraph "b" 1) := by
  have hall : ∀ id ∈ Spread.keys ((spread chainGraph).layers ("b", 0) 1).1,
      ∃ issue ∈ chainGraph.issues, issue.id = id := by decide
  have hlast : ∀ entry ∈ ((spread chainGraph).layers ("b", 0) 1).2,
      ¬ entry.2.natAbs < 1 := by decide
  refine (isNeighbourhood_iff chainGraph (by decide) "b" ⟨task "b", by decide, rfl⟩ 1).mpr
    ⟨fun id hid => ?_, fun entry hentry hturned => absurd hturned (hlast entry hentry)⟩
  exact hall id (((spread chainGraph).mem_layers mem_next ("b", 0) 1 id).mpr hid)

/-- Two tasks that wait for the same one, and one that waits for the second of them. -/
def hingeGraph : BeadsTaskGraph :=
  taskGraph ["c", "p", "s", "t"]
    [⟨"c", "p", "blocks"⟩, ⟨"s", "p", "blocks"⟩, ⟨"t", "s", "blocks"⟩]

/-- The last one is three edges away, and it is shown within two. -/
theorem not_isNeighbourhood_hinge :
    (hingeGraph.issues.map (·.id)).Nodup ∧ Exists hingeGraph "c" ∧
      ¬ IsNeighbourhood hingeGraph "c" 2 (focusedSubgraph hingeGraph "c" 2) := by
  refine ⟨by decide, ⟨task "c", by decide, rfl⟩, fun h => ?_⟩
  have hshown : "t" ∈ (focusedSubgraph hingeGraph "c" 2).nodes.map (·.id) :=
    mem_ids_nodesOf.mpr ⟨by decide +kernel, task "t", by decide⟩
  have hnear := ((h.mem_nodes "t").mp hshown).2
  rw [← (spread hingeGraph).mem_layers mem_next ("c", 0) 2 "t"] at hnear
  exact absurd hnear (by decide)

end Neighbourhood

end AgentCockpit.Renderer.FocusedGraph
