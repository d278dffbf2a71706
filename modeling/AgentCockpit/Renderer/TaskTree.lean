import AgentCockpit.Core.Buckets
import AgentCockpit.Core.Comparator
import AgentCockpit.Core.Lineage
import AgentCockpit.Renderer.BeadsStore
import Mathlib.Data.String.Basic

/-!
# The tree of tasks

Dependencies of issues on their parents are shown as a forest. An issue has its first declared
parent, and roots are the issues without one, so that what leads into a circle of parents is not in
the forest. The path to an issue is looked up apart, from parent to parent.

## Main results

* `buildTree_places` — **each issue that is not led into a circle is in the forest, once**
-/

namespace AgentCockpit.Renderer.TaskTree

open AgentCockpit.Core

/-! ### States and their order -/

def isTerminal (status : String) : Bool := status ∈ ["closed", "tombstone", "deleted"]

/-- A later issue with the same id takes the place of an earlier one. -/
def byId (graph : BeadsTaskGraph) (id : String) : Option BeadsIssue :=
  graph.issues.reverse.find? (·.id = id)

def parentTypes : List String := ["parent", "parent-child"]

def hasOpenBlockers (graph : BeadsTaskGraph) (issue : BeadsIssue) : Bool :=
  graph.deps.any fun d =>
    if d.type_ ≠ "blocks" ∨ d.from_ ≠ issue.id then false
    else
      match byId graph d.to_ with
      | some blocker => !isTerminal blocker.status
      | none => false

def childrenOf (graph : BeadsTaskGraph) (id : String) : List BeadsIssue :=
  (graph.deps.filter fun d => d.type_ ∈ parentTypes ∧ d.to_ = id).filterMap fun d =>
    byId graph d.from_

def hasOpenChildren (graph : BeadsTaskGraph) (issue : BeadsIssue) : Bool :=
  ((childrenOf graph issue.id).filter fun c => !isTerminal c.status).length > 0

inductive WorkgraphState
  | blocked | inProgress | ready | depBlocked | childBlocked | draft | deferred | unknown | done
  deriving DecidableEq

def deriveState (graph : BeadsTaskGraph) (issue : BeadsIssue) : WorkgraphState :=
  if isTerminal issue.status then .done
  else if issue.status = "blocked" then .blocked
  else if issue.status = "deferred" then .deferred
  else if issue.status = "draft" then .draft
  else if issue.status = "in_progress" then .inProgress
  else if issue.status = "open" then
    if hasOpenBlockers graph issue then .depBlocked
    else if hasOpenChildren graph issue then .childBlocked
    else .ready
  else .unknown

/-- `WG_STATE_ORDER` -/
def WorkgraphState.order : WorkgraphState → ℚ
  | .blocked => 0
  | .inProgress => 1
  | .ready => 2
  | .depBlocked => 3
  | .childBlocked => 4
  | .draft => 5
  | .deferred => 6
  | .unknown => 7
  | .done => 8

section Order

variable (compareBeadId : Comparator String)

/-- By priority, and then by id in the order of a natural language. -/
def compareIssues : Comparator BeadsIssue :=
  Comparator.thenBy (Comparator.comap (fun issue => (issue.priority : ℚ)) Comparator.difference)
    (Comparator.comap (·.id) compareBeadId)

def compareByState (graph : BeadsTaskGraph) : Comparator BeadsIssue :=
  Comparator.thenBy
    (Comparator.comap (fun issue => (deriveState graph issue).order) Comparator.difference)
    (compareIssues compareBeadId)

variable {compareBeadId}

theorem lawful_compareByState (h : Comparator.Lawful compareBeadId) (graph : BeadsTaskGraph) :
    Comparator.Lawful (compareByState compareBeadId graph) :=
  (Comparator.lawful_difference.comap _).thenBy
    ((Comparator.lawful_difference.comap _).thenBy (h.comap _))

end Order

/-! ### The forest -/

/-- One edge, on the map of parents. -/
def parentStep (graph : BeadsTaskGraph) (parents : List (String × String)) (d : BeadsDep) :
    List (String × String) :=
  if d.type_ ∉ parentTypes then parents
  else if (byId graph d.from_).isNone ∨ (byId graph d.to_).isNone then parents
  else if (parents.lookup d.from_).isSome then parents
  else parents ++ [(d.from_, d.to_)]

/-- The first declared parents, in the order of the edges. -/
def parentOf (graph : BeadsTaskGraph) : List (String × String) :=
  graph.deps.foldl (parentStep graph) []

def childIdsByParent (graph : BeadsTaskGraph) : Buckets String String :=
  collect ((parentOf graph).map Prod.swap)

inductive TreeNode
  | node (issue : BeadsIssue) (children : List TreeNode)

def TreeNode.issue : TreeNode → BeadsIssue
  | .node issue _ => issue

/-- The tree of an issue, which is not on the path to it; without a result if it is too deep. -/
def build (compareBeadId : Comparator String) (graph : BeadsTaskGraph) :
    ℕ → List String → String → Option TreeNode
  | 0, _, _ => none
  | fuel + 1, path, id => do
    let issue ← byId graph id
    let next := id :: path
    let children := ((childIdsByParent graph).get id).filter (· ∉ next)
    let sorted := Comparator.sort (compareByState compareBeadId graph)
      (children.filterMap (byId graph))
    let nodes ← sorted.mapM fun c => build compareBeadId graph fuel next c.id
    return .node issue nodes

def buildTree (compareBeadId : Comparator String) (graph : BeadsTaskGraph) (fuel : ℕ) :
    Option (List TreeNode) :=
  let roots := graph.issues.filter fun issue => ((parentOf graph).lookup issue.id).isNone
  (Comparator.sort (compareByState compareBeadId graph) roots).mapM fun issue =>
    build compareBeadId graph fuel [] issue.id

/-- From parent to parent; without a result if the path is too long. -/
def walk (graph : BeadsTaskGraph) : ℕ → List String → Option String → List BeadsIssue →
    Option (List BeadsIssue)
  | 0, _, _, _ => none
  | fuel + 1, seen, cur, chain =>
    match cur with
    | none => some chain.reverse
    | some id =>
      -- An empty id counts as none.
      if id = "" ∨ id ∈ seen then some chain.reverse
      else
        walk graph fuel (id :: seen) ((parentOf graph).lookup id)
          (chain ++ (byId graph id).toList)

def ancestorsOf (graph : BeadsTaskGraph) (fuel : ℕ) (id : String) : Option (List BeadsIssue) :=
  walk graph fuel [id] ((parentOf graph).lookup id) []

/-! ### What a forest shows -/

/-- The first declared parent that exists. -/
def declaredParent (graph : BeadsTaskGraph) (issue : BeadsIssue) : Option BeadsIssue :=
  graph.deps.findSome? fun d =>
    if d.type_ ∈ parentTypes ∧ d.from_ = issue.id then byId graph d.to_ else none

mutual

/-- The issues of a tree, each with the issues above it, the nearest first. -/
def TreeNode.places (above : List BeadsIssue) : TreeNode → List (BeadsIssue × List BeadsIssue)
  | .node issue children => (issue, above) :: placesOf (issue :: above) children

def placesOf (above : List BeadsIssue) : List TreeNode → List (BeadsIssue × List BeadsIssue)
  | [] => []
  | node :: nodes => node.places above ++ placesOf above nodes

end

mutual

/-- Siblings stand in order. -/
def TreeNode.Ordered (compare : Comparator BeadsIssue) : TreeNode → Prop
  | .node _ children =>
    (children.map TreeNode.issue).Pairwise (compare · · ≤ 0) ∧ OrderedAll compare children

def OrderedAll (compare : Comparator BeadsIssue) : List TreeNode → Prop
  | [] => True
  | node :: nodes => node.Ordered compare ∧ OrderedAll compare nodes

end

/-! ### Parents -/

section Parents

variable {graph : BeadsTaskGraph} {issue other : BeadsIssue} {id : String}

theorem byId_found (h : byId graph id = some issue) : issue ∈ graph.issues ∧ issue.id = id :=
  ⟨List.mem_reverse.mp (List.mem_of_find?_eq_some h), by simpa using List.find?_some h⟩

theorem byId_id (hids : (graph.issues.map (·.id)).Nodup) (h : issue ∈ graph.issues) :
    byId graph issue.id = some issue := by
  obtain ⟨found, hfound⟩ : ∃ found, byId graph issue.id = some found := by
    rw [← Option.isSome_iff_exists, byId, List.find?_isSome]
    exact ⟨issue, List.mem_reverse.mpr h, by simp⟩
  rw [hfound, List.inj_on_of_nodup_map hids (byId_found hfound).1 h (byId_found hfound).2]

theorem mem_of_declaredParent {parent : BeadsIssue} (h : declaredParent graph issue = some parent) :
    parent ∈ graph.issues := by
  obtain ⟨d, -, hd⟩ := List.exists_of_findSome?_eq_some h
  split at hd
  · exact (byId_found hd).1
  · exact absurd hd nofun

theorem lookup_parentStep (hids : (graph.issues.map (·.id)).Nodup) (h : issue ∈ graph.issues)
    (parents : List (String × String)) (d : BeadsDep) :
    (parentStep graph parents d).lookup issue.id = (parents.lookup issue.id).or
      ((if d.type_ ∈ parentTypes ∧ d.from_ = issue.id then byId graph d.to_ else none).map
        (·.id)) := by
  rw [parentStep]
  by_cases htype : d.type_ ∈ parentTypes
  · by_cases hfrom : d.from_ = issue.id
    · rw [hfrom, byId_id hids h]
      cases hto : byId graph d.to_ with
      | none => simp [htype]
      | some parent =>
        have hparent := (byId_found hto).2
        cases hknown : parents.lookup issue.id with
        | none => simp [htype, hknown, hparent, List.lookup_append]
        | some known => simp [htype, hknown]
    · have hother : (issue.id == d.from_) = false := by simpa using Ne.symm hfrom
      simp only [htype, hfrom, not_true, and_false, if_false, Option.map_none, Option.or_none]
      split
      · rfl
      · split
        · rfl
        · simp [List.lookup_append, List.lookup_cons, hother]
  · simp [htype]

/-- The map of parents holds the declared ones. -/
theorem lookup_parentOf (hids : (graph.issues.map (·.id)).Nodup) (h : issue ∈ graph.issues) :
    (parentOf graph).lookup issue.id = (declaredParent graph issue).map (·.id) := by
  have hfold (deps : List BeadsDep) (parents : List (String × String)) :
      (deps.foldl (parentStep graph) parents).lookup issue.id = (parents.lookup issue.id).or
        ((deps.findSome? fun d =>
          if d.type_ ∈ parentTypes ∧ d.from_ = issue.id then byId graph d.to_ else none).map
            (·.id)) := by
    induction deps generalizing parents with
    | nil => simp
    | cons d deps ih =>
      rw [List.foldl_cons, ih, lookup_parentStep hids h, Option.or_assoc, List.findSome?_cons]
      congr 1
      split
      · cases byId graph d.to_ <;> simp
      · simp
  rw [parentOf, hfold]
  rfl

theorem nodup_parentOf (graph : BeadsTaskGraph) : ((parentOf graph).map Prod.fst).Nodup := by
  have hfold (deps : List BeadsDep) (parents : List (String × String))
      (h : (parents.map Prod.fst).Nodup) :
      ((deps.foldl (parentStep graph) parents).map Prod.fst).Nodup := by
    induction deps generalizing parents with
    | nil => exact h
    | cons d deps ih =>
      refine ih _ ?_
      rw [parentStep]
      split
      · exact h
      · split
        · exact h
        · split
          · exact h
          · next hnone =>
            rw [Option.not_isSome_iff_eq_none, List.lookup_eq_none_iff] at hnone
            rw [List.map_append, List.map_singleton, List.nodup_append]
            refine ⟨h, List.nodup_singleton _, ?_⟩
            intro key hkey key' hkey'
            obtain ⟨entry, hentry, rfl⟩ := List.mem_map.mp hkey
            rw [List.mem_singleton.mp hkey']
            exact fun heq => absurd (hnone entry hentry) (by simp [heq])
  exact hfold _ _ List.nodup_nil

theorem mem_childIds (c : String) :
    c ∈ (childIdsByParent graph).get id ↔ (parentOf graph).lookup c = some id := by
  rw [lookup_eq_some_iff_mem (nodup_parentOf graph), childIdsByParent, get_collect, valuesOf]
  simp

theorem nodup_childIds (graph : BeadsTaskGraph) (id : String) :
    ((childIdsByParent graph).get id).Nodup := by
  rw [childIdsByParent, get_collect, valuesOf]
  have hsub := (List.filter_sublist (p := fun entry : String × String => decide (entry.1 = id))
    (l := (parentOf graph).map Prod.swap)).map Prod.snd
  refine List.Nodup.sublist hsub ?_
  rw [List.map_map]
  exact nodup_parentOf graph

theorem mem_of_lineage {above : List BeadsIssue} (h : Lineage (declaredParent graph) issue above) :
    ∀ a ∈ above, a ∈ graph.issues := by
  induction h with
  | root => exact nofun
  | child hparent _ ih =>
    exact List.forall_mem_cons.mpr ⟨mem_of_declaredParent hparent, ih⟩

end Parents

/-! ### The trees -/

section Trees

variable {graph : BeadsTaskGraph} {compareBeadId : Comparator String}

/-- Results that do not depend on an index are collected. -/
theorem exists_mapM {ι α β : Type*} {l : List α} {ok : ι → Prop} {f : ι → α → Option β}
    {keyOf : β → α} {good : β → Prop}
    (h : ∀ a ∈ l, ∃ b, (∀ i, ok i → f i a = some b) ∧ keyOf b = a ∧ good b) :
    ∃ bs, (∀ i, ok i → l.mapM (f i) = some bs) ∧ bs.map keyOf = l ∧ ∀ b ∈ bs, good b := by
  induction l with
  | nil => exact ⟨[], fun _ _ => rfl, rfl, nofun⟩
  | cons a l ih =>
    obtain ⟨b, hb, hkey, hgood⟩ := h a List.mem_cons_self
    obtain ⟨bs, hbs, hkeys, hgoods⟩ := ih fun a ha => h a (List.mem_cons_of_mem _ ha)
    refine ⟨b :: bs, fun i hi => ?_, by rw [List.map_cons, hkey, hkeys],
      List.forall_mem_cons.mpr ⟨hgood, hgoods⟩⟩
    rw [List.mapM_cons, hb i hi, hbs i hi]
    rfl

theorem placesOf_eq (above : List BeadsIssue) (nodes : List TreeNode) :
    placesOf above nodes = nodes.flatMap (TreeNode.places above) := by
  induction nodes with
  | nil => rfl
  | cons node nodes ih => rw [placesOf, List.flatMap_cons, ih]

theorem orderedAll_iff (compare : Comparator BeadsIssue) (nodes : List TreeNode) :
    OrderedAll compare nodes ↔ ∀ node ∈ nodes, node.Ordered compare := by
  induction nodes with
  | nil => simp [OrderedAll]
  | cons node nodes ih => rw [OrderedAll, ih, List.forall_mem_cons]

/-- The places of a tree are those of the descendants of an issue. -/
structure Shows (graph : BeadsTaskGraph) (compare : Comparator BeadsIssue) (above : List BeadsIssue)
    (node : TreeNode) : Prop where
  ordered : node.Ordered compare
  nodup : (node.places above).Nodup
  mem_iff : ∀ place, place ∈ node.places above ↔ place.1 ∈ graph.issues ∧
    Lineage (declaredParent graph) place.1 place.2 ∧
    (node.issue :: above) <:+ (place.1 :: place.2)

/-- Trees of different issues at one place have no place in common. -/
theorem nodup_placesOf {compare : Comparator BeadsIssue} {above : List BeadsIssue}
    {nodes : List TreeNode} (hnodes : ∀ node ∈ nodes, Shows graph compare above node)
    (hissues : (nodes.map TreeNode.issue).Nodup) : (placesOf above nodes).Nodup := by
  rw [placesOf_eq, List.nodup_flatMap]
  refine ⟨fun node hnode => (hnodes node hnode).nodup, ?_⟩
  rw [List.Nodup, List.pairwise_map] at hissues
  refine hissues.imp_of_mem fun {node other} hnode hother hne place hplace hplace' => hne ?_
  obtain ⟨-, -, hsuffix⟩ := ((hnodes node hnode).mem_iff place).mp hplace
  obtain ⟨-, -, hsuffix'⟩ := ((hnodes other hother).mem_iff place).mp hplace'
  have hheads := (List.suffix_of_suffix_length_le hsuffix hsuffix' le_rfl).eq_of_length rfl
  exact (List.cons.inj hheads).1

theorem mem_placesOf {compare : Comparator BeadsIssue} {above : List BeadsIssue}
    {nodes : List TreeNode} (hnodes : ∀ node ∈ nodes, Shows graph compare above node)
    (place : BeadsIssue × List BeadsIssue) :
    place ∈ placesOf above nodes ↔ place.1 ∈ graph.issues ∧
      Lineage (declaredParent graph) place.1 place.2 ∧
      ∃ issue ∈ nodes.map TreeNode.issue, (issue :: above) <:+ (place.1 :: place.2) := by
  rw [placesOf_eq, List.mem_flatMap]
  constructor
  · rintro ⟨node, hnode, hplace⟩
    obtain ⟨hmem, hlineage, hsuffix⟩ := ((hnodes node hnode).mem_iff place).mp hplace
    exact ⟨hmem, hlineage, node.issue, List.mem_map_of_mem hnode, hsuffix⟩
  · rintro ⟨hmem, hlineage, issue, hissue, hsuffix⟩
    obtain ⟨node, hnode, rfl⟩ := List.mem_map.mp hissue
    exact ⟨node, hnode, ((hnodes node hnode).mem_iff place).mpr ⟨hmem, hlineage, hsuffix⟩⟩

/-- The children of an issue, none of which is on the path to it. -/
theorem mem_children (hids : (graph.issues.map (·.id)).Nodup) {issue : BeadsIssue}
    {above : List BeadsIssue} (hissue : issue ∈ graph.issues)
    (h : Lineage (declaredParent graph) issue above) (c : BeadsIssue) :
    c ∈ (((childIdsByParent graph).get issue.id).filter
        (· ∉ issue.id :: above.map (·.id))).filterMap (byId graph) ↔
      c ∈ graph.issues ∧ declaredParent graph c = some issue := by
  have hparent {c : BeadsIssue} (hc : c ∈ graph.issues) :
      c.id ∈ (childIdsByParent graph).get issue.id ↔ declaredParent graph c = some issue := by
    rw [mem_childIds, lookup_parentOf hids hc, Option.map_eq_some_iff]
    constructor
    · rintro ⟨parent, hdeclared, hid⟩
      rwa [← List.inj_on_of_nodup_map hids (mem_of_declaredParent hdeclared) hissue hid]
    · exact fun hdeclared => ⟨issue, hdeclared, rfl⟩
  rw [List.mem_filterMap]
  constructor
  · rintro ⟨id, hid, hfound⟩
    obtain ⟨hc, rfl⟩ := byId_found hfound
    exact ⟨hc, (hparent hc).mp (List.mem_filter.mp hid).1⟩
  · rintro ⟨hc, hdeclared⟩
    refine ⟨c.id, List.mem_filter.mpr ⟨(hparent hc).mpr hdeclared, ?_⟩, byId_id hids hc⟩
    rw [decide_eq_true_iff]
    change c.id ∉ (issue :: above).map (·.id)
    intro hpath
    obtain ⟨a, ha, hid⟩ := List.mem_map.mp hpath
    have hmem : a ∈ graph.issues :=
      List.forall_mem_cons.mpr ⟨hissue, mem_of_lineage h⟩ a ha
    obtain rfl := List.inj_on_of_nodup_map hids hmem hc hid
    exact (Lineage.child hdeclared h).not_mem ha

/-- The tree of an issue comes to an end, and shows its descendants. -/
theorem build_eq (hcompare : Comparator.Lawful compareBeadId)
    (hids : (graph.issues.map (·.id)).Nodup) (depth : ℕ) {issue : BeadsIssue}
    {above : List BeadsIssue} (hissue : issue ∈ graph.issues)
    (h : Lineage (declaredParent graph) issue above)
    (hdepth : graph.issues.length = above.length + depth) :
    ∃ node, (∀ fuel, depth ≤ fuel →
        build compareBeadId graph fuel (above.map (·.id)) issue.id = some node) ∧
      node.issue = issue ∧ Shows graph (compareByState compareBeadId graph) above node := by
  induction depth generalizing issue above with
  | zero =>
    -- A path without repetition is not longer than the list of issues.
    have hsubset : (issue :: above) ⊆ graph.issues :=
      List.cons_subset.mpr ⟨hissue, mem_of_lineage h⟩
    have := (List.subperm_of_subset h.nodup hsubset).length_le
    rw [List.length_cons] at this
    omega
  | succ depth ih =>
    obtain ⟨children, hchildren⟩ : ∃ children, children =
      (((childIdsByParent graph).get issue.id).filter
        (· ∉ issue.id :: above.map (·.id))).filterMap (byId graph) := ⟨_, rfl⟩
    have hmem (c : BeadsIssue) : c ∈ children ↔
        c ∈ graph.issues ∧ declaredParent graph c = some issue := by
      rw [hchildren]
      exact mem_children hids hissue h c
    have hnodup : children.Nodup := by
      rw [hchildren]
      refine List.Nodup.filterMap (fun id id' c hc hc' => ?_) ((nodup_childIds graph _).filter _)
      rw [← (byId_found hc).2, ← (byId_found hc').2]
    obtain ⟨nodes, hnodes, hissues, hshows⟩ : ∃ nodes : List TreeNode,
        (∀ fuel, depth ≤ fuel →
          (Comparator.sort (compareByState compareBeadId graph) children).mapM (fun c =>
            build compareBeadId graph fuel ((issue :: above).map (·.id)) c.id) = some nodes) ∧
        nodes.map TreeNode.issue = Comparator.sort (compareByState compareBeadId graph) children ∧
        ∀ node ∈ nodes, Shows graph (compareByState compareBeadId graph) (issue :: above) node := by
      refine exists_mapM fun c hc => ?_
      obtain ⟨hcmem, hdeclared⟩ := (hmem c).mp (Comparator.mem_sort.mp hc)
      exact ih hcmem (Lineage.child hdeclared h) (by rw [List.length_cons]; omega)
    refine ⟨.node issue nodes, fun fuel hfuel => ?_, rfl, ?_, ?_, fun place => ?_⟩
    · obtain ⟨fuel, rfl⟩ : ∃ rest, fuel = rest + 1 := ⟨fuel - 1, by omega⟩
      have hmapM := hnodes fuel (by omega)
      rw [List.map_cons, hchildren] at hmapM
      rw [build, byId_id hids hissue]
      simp only [Option.bind_eq_bind, Option.bind_some]
      rw [hmapM]
      rfl
    · refine ⟨?_, (orderedAll_iff _ _).mpr fun node hnode => (hshows node hnode).ordered⟩
      rw [hissues]
      exact (Comparator.pairwise_sort (lawful_compareByState hcompare graph) hnodup).imp
        fun hab => hab.elim le_of_lt fun heq => heq.1.le
    · rw [TreeNode.places, List.nodup_cons]
      refine ⟨fun hplace => ?_, nodup_placesOf hshows ?_⟩
      · obtain ⟨-, -, c, -, hsuffix⟩ := (mem_placesOf hshows _).mp hplace
        have hlength := hsuffix.length_le
        simp only [List.length_cons] at hlength
        omega
      · rw [hissues]
        exact Comparator.nodup_sort hnodup
    · rw [TreeNode.places, List.mem_cons, mem_placesOf hshows, hissues]
      constructor
      · rintro (rfl | ⟨hplace, hlineage, c, -, hsuffix⟩)
        · exact ⟨hissue, h, List.suffix_refl _⟩
        · exact ⟨hplace, hlineage, (List.suffix_cons c _).trans hsuffix⟩
      · rintro ⟨hplace, hlineage, hsuffix⟩
        rcases List.suffix_cons_iff.mp hsuffix with heq | htail
        · obtain ⟨hfirst, hsecond⟩ := List.cons.inj heq
          exact .inl (Prod.ext hfirst.symm hsecond.symm)
        · -- The issue is above the place, and so one of its children is on the way.
          obtain ⟨c, hc⟩ := exists_suffix_of_suffix_tail (a := place.1) htail
          obtain ⟨hdeclared, -⟩ := lineage_cons_iff.mp (hlineage.of_suffix hc)
          refine .inr ⟨hplace, hlineage, c, Comparator.mem_sort.mpr
            ((hmem c).mpr ⟨?_, hdeclared⟩), hc⟩
          exact List.forall_mem_cons.mpr ⟨hplace, mem_of_lineage hlineage⟩ c
            (hc.subset List.mem_cons_self)

theorem mem_roots (hids : (graph.issues.map (·.id)).Nodup) (issue : BeadsIssue) :
    (issue ∈ graph.issues.filter fun issue => ((parentOf graph).lookup issue.id).isNone) ↔
      issue ∈ graph.issues ∧ declaredParent graph issue = none := by
  rw [List.mem_filter]
  refine and_congr_right fun h => ?_
  rw [lookup_parentOf hids h, Option.isNone_iff_eq_none, Option.map_eq_none_iff]

/-- The walk from an ancestor on finds all that are above it. -/
theorem walk_eq (hids : (graph.issues.map (·.id)).Nodup) {issue : BeadsIssue}
    {above : List BeadsIssue} (h : Lineage (declaredParent graph) issue above)
    (hissue : issue ∈ graph.issues) (hnames : ∀ a ∈ above, a.id ≠ "") {fuel : ℕ}
    (hfuel : above.length < fuel) (seen : List String) (hseen : ∀ a ∈ above, a.id ∉ seen)
    (chain : List BeadsIssue) :
    walk graph fuel seen ((parentOf graph).lookup issue.id) chain =
      some (chain ++ above).reverse := by
  obtain ⟨fuel, rfl⟩ : ∃ rest, fuel = rest + 1 := ⟨fuel - 1, by omega⟩
  induction h generalizing fuel seen chain with
  | root hroot =>
    rw [lookup_parentOf hids hissue, hroot, Option.map_none, walk, List.append_nil]
  | @child issue p above hparent h ih =>
    have hp := mem_of_declaredParent hparent
    rw [List.forall_mem_cons] at hnames hseen
    rw [List.length_cons] at hfuel
    obtain ⟨rest, rfl⟩ : ∃ rest, fuel = rest + 1 := ⟨fuel - 1, by omega⟩
    have hfresh : ∀ a ∈ above, a.id ∉ p.id :: seen := fun a ha => by
      rw [List.mem_cons, not_or]
      refine ⟨fun hid => ?_, hseen.2 a ha⟩
      obtain rfl := List.inj_on_of_nodup_map hids (mem_of_lineage h a ha) hp hid
      exact h.not_mem ha
    rw [lookup_parentOf hids hissue, hparent, Option.map_some, walk]
    simp only [hnames.1, hseen.1, or_self, if_false]
    rw [ih hp hnames.2 _ hfresh _ rest (by omega), byId_id hids hp]
    simp

end Trees

/-- **What leads to a root is shown once**: the forest has the issues from which the way from parent
to parent ends, each below its first declared parent and among siblings in order, and the path to an
issue is the way to its root, if no issue on it has an empty id. -/
theorem buildTree_places (compareBeadId : Comparator String)
    (hcompare : Comparator.Lawful compareBeadId) (graph : BeadsTaskGraph)
    (hids : (graph.issues.map (·.id)).Nodup) :
    ∃ forest : List TreeNode,
      (∀ fuel, graph.issues.length ≤ fuel → buildTree compareBeadId graph fuel = some forest) ∧
      ((placesOf [] forest).map Prod.fst).Nodup ∧
      (∀ issue, issue ∈ (placesOf [] forest).map Prod.fst ↔
        issue ∈ graph.issues ∧ Grounded (declaredParent graph) issue) ∧
      (∀ place ∈ placesOf [] forest, Lineage (declaredParent graph) place.1 place.2) ∧
      (forest.map TreeNode.issue).Pairwise (compareByState compareBeadId graph · · ≤ 0) ∧
      OrderedAll (compareByState compareBeadId graph) forest ∧
      ∀ place ∈ placesOf [] forest, (∀ a ∈ place.2, a.id ≠ "") →
        ∀ fuel, graph.issues.length ≤ fuel →
          ancestorsOf graph fuel place.1.id = some place.2.reverse := by
  obtain ⟨roots, hroots⟩ : ∃ roots, roots = graph.issues.filter
      fun issue => ((parentOf graph).lookup issue.id).isNone := ⟨_, rfl⟩
  have hnodup : roots.Nodup := hroots ▸ (List.Nodup.of_map _ hids).filter _
  obtain ⟨forest, hforest, hissues, hshows⟩ : ∃ forest : List TreeNode,
      (∀ fuel, graph.issues.length ≤ fuel →
        (Comparator.sort (compareByState compareBeadId graph) roots).mapM (fun issue =>
          build compareBeadId graph fuel [] issue.id) = some forest) ∧
      forest.map TreeNode.issue = Comparator.sort (compareByState compareBeadId graph) roots ∧
      ∀ node ∈ forest, Shows graph (compareByState compareBeadId graph) [] node := by
    refine exists_mapM fun issue hissue => ?_
    rw [Comparator.mem_sort, hroots, mem_roots hids] at hissue
    exact build_eq hcompare hids _ hissue.1 (.root hissue.2) (Nat.zero_add _).symm
  have hplaces (place : BeadsIssue × List BeadsIssue) : place ∈ placesOf [] forest ↔
      place.1 ∈ graph.issues ∧ Lineage (declaredParent graph) place.1 place.2 := by
    rw [mem_placesOf hshows, hissues]
    refine and_congr_right fun hmem => and_iff_left_of_imp fun hlineage => ?_
    -- The last one of the lineage is a root.
    obtain ⟨root, hroot⟩ := exists_suffix_of_suffix_tail (a := place.1)
      (List.nil_suffix (l := place.2))
    refine ⟨root, ?_, hroot⟩
    rw [Comparator.mem_sort, hroots, mem_roots hids]
    refine ⟨List.forall_mem_cons.mpr ⟨hmem, mem_of_lineage hlineage⟩ root
      (hroot.subset List.mem_cons_self), ?_⟩
    cases hlineage.of_suffix hroot with
    | root hnone => exact hnone
  refine ⟨forest, fun fuel hfuel => ?_, ?_, fun issue => ?_, ?_, ?_, ?_, ?_⟩
  · rw [buildTree, ← hroots]
    exact hforest fuel hfuel
  · refine List.Nodup.map_on (fun place hplace other hother heq => ?_) ?_
    · have hlineage := ((hplaces other).mp hother).2
      rw [← heq] at hlineage
      exact Prod.ext heq (((hplaces place).mp hplace).2.unique hlineage)
    · refine nodup_placesOf hshows ?_
      rw [hissues]
      exact Comparator.nodup_sort hnodup
  · rw [List.mem_map]
    constructor
    · rintro ⟨place, hplace, rfl⟩
      obtain ⟨hmem, hlineage⟩ := (hplaces place).mp hplace
      exact ⟨hmem, place.2, hlineage⟩
    · rintro ⟨hmem, above, hlineage⟩
      exact ⟨(issue, above), (hplaces _).mpr ⟨hmem, hlineage⟩, rfl⟩
  · exact fun place hplace => ((hplaces place).mp hplace).2
  · rw [hissues]
    exact (Comparator.pairwise_sort (lawful_compareByState hcompare graph) hnodup).imp
      fun hab => hab.elim le_of_lt fun heq => heq.1.le
  · exact (orderedAll_iff _ _).mpr fun node hnode => (hshows node hnode).ordered
  · intro place hplace hnames fuel hfuel
    obtain ⟨hmem, hlineage⟩ := (hplaces place).mp hplace
    have hlength : place.2.length < fuel := by
      have hsubset : (place.1 :: place.2) ⊆ graph.issues :=
        List.cons_subset.mpr ⟨hmem, mem_of_lineage hlineage⟩
      have := (List.subperm_of_subset hlineage.nodup hsubset).length_le
      rw [List.length_cons] at this
      omega
    rw [ancestorsOf, walk_eq hids hlineage hmem hnames hlength [place.1.id] ?_ [], List.nil_append]
    intro a ha hid
    obtain rfl := List.inj_on_of_nodup_map hids (mem_of_lineage hlineage a ha) hmem
      (List.mem_singleton.mp hid)
    exact hlineage.not_mem ha

def task (id : String) : BeadsIssue :=
  { id, title := id, body := "", status := "open", priority := 2, issueType := "task", labels := []
    externalRef := none, createdAt := "", updatedAt := "" }

def taskGraph (ids : List String) (deps : List BeadsDep) : BeadsTaskGraph :=
  { source := { kind := .jsonl, path := "" }, schemaCompatible := true,
    issues := ids.map task, deps }

/-- A leaf under a feature of an epic, beside two issues that are each other's parents. -/
def featureGraph : BeadsTaskGraph :=
  taskGraph ["epic", "feat", "leaf", "x", "y"]
    [⟨"feat", "epic", "parent-child"⟩, ⟨"leaf", "feat", "parent"⟩, ⟨"leaf", "epic", "parent"⟩,
      ⟨"x", "y", "parent"⟩, ⟨"y", "x", "parent"⟩]

/-- The leaf is shown below the feature, and the path to it leads there. -/
theorem buildTree_places_feature :
    ∃ forest : List TreeNode,
      buildTree Comparator.ofOrder featureGraph 5 = some forest ∧
      (task "leaf", [task "feat", task "epic"]) ∈ placesOf [] forest ∧
      ancestorsOf featureGraph 5 "leaf" = some [task "epic", task "feat"] := by
  obtain ⟨forest, hforest, -, hmem, hlineage, -, -, hpath⟩ :=
    buildTree_places Comparator.ofOrder Comparator.lawful_ofOrder featureGraph (by decide)
  have habove : Lineage (declaredParent featureGraph) (task "leaf") [task "feat", task "epic"] :=
    .child (by decide) (.child (by decide) (.root (by decide)))
  obtain ⟨⟨leaf, above⟩, hplace, hleaf⟩ :=
    List.mem_map.mp ((hmem (task "leaf")).mpr ⟨by decide, _, habove⟩)
  obtain rfl : leaf = task "leaf" := hleaf
  obtain rfl := (hlineage _ hplace).unique habove
  exact ⟨forest, hforest 5 (by decide), hplace, hpath _ hplace (by decide) 5 (by decide)⟩

/-- Two issues that are each other's parents. -/
def circleGraph : BeadsTaskGraph :=
  taskGraph ["a", "b"] [⟨"a", "b", "parent"⟩, ⟨"b", "a", "parent"⟩]

/-- Neither of them is in the forest. -/
theorem not_buildTree_circle :
    (circleGraph.issues.map (·.id)).Nodup ∧
      ¬ ∃ forest, (∀ fuel, 2 ≤ fuel →
          buildTree Comparator.ofOrder circleGraph fuel = some forest) ∧
        ∀ issue ∈ circleGraph.issues, issue ∈ (placesOf [] forest).map Prod.fst := by
  refine ⟨by decide, ?_⟩
  rintro ⟨forest, hforest, hall⟩
  have hnone : buildTree Comparator.ofOrder circleGraph 2 = some [] := by
    have hroots : (circleGraph.issues.filter fun issue =>
        ((parentOf circleGraph).lookup issue.id).isNone) = [] := by decide
    rw [buildTree, hroots]
    rfl
  obtain rfl := Option.some.inj ((hforest 2 le_rfl).symm.trans hnone)
  exact absurd (hall (task "a") (by decide)) (by decide)

end AgentCockpit.Renderer.TaskTree
