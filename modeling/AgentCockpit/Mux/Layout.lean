import AgentCockpit.Core.Keys
import Mathlib.Data.String.Basic
import Mathlib.Tactic.NormNum

/-!
# Split trees

The content-free binary tree of a mux window. A node is a Go record behind a
pointer: a nonempty pane id makes it a leaf whatever its other fields are, and the
pointer may be nil. Ratios are IEEE doubles; the code only compares them, so a
finite one is its rational value.
-/

namespace AgentCockpit.Mux

open AgentCockpit.Core

/-- An IEEE double, up to the sign of zero. -/
inductive Float64
  | nan
  | inf (negative : Bool)
  | finite (value : ℚ)
  deriving DecidableEq, Repr

/-- The double nearest to one tenth. -/
def ratioLow : ℚ := 3602879701896397 / 2 ^ 55

/-- The double nearest to nine tenths. -/
def ratioHigh : ℚ := 8106479329266893 / 2 ^ 53

/-- A ratio in the range of a split. -/
def Float64.InRange : Float64 → Prop
  | finite value => ratioLow ≤ value ∧ value ≤ ratioHigh
  | _ => False

instance : DecidablePred Float64.InRange
  | .nan | .inf _ => .isFalse id
  | .finite value => inferInstanceAs (Decidable (ratioLow ≤ value ∧ value ≤ ratioHigh))

def validSplitRatio (ratio : Float64) : Float64 :=
  if ratio.InRange then ratio else .finite (1 / 2)

def isFiniteSplitRatio : Float64 → Bool
  | .finite _ => true
  | _ => false

theorem inRange_validSplitRatio (ratio : Float64) : (validSplitRatio ratio).InRange := by
  unfold validSplitRatio
  split
  · assumption
  · exact ⟨by norm_num [ratioLow], by norm_num [ratioHigh]⟩

theorem validSplitRatio_of_inRange {ratio : Float64} (h : ratio.InRange) :
    validSplitRatio ratio = ratio :=
  if_pos h

/-- A pointer to a node of a split tree. -/
inductive TopologyLayoutNode
  | nil
  | node (paneID direction : String) (ratio : Float64) (first second : TopologyLayoutNode)
  deriving DecidableEq, Repr

namespace TopologyLayoutNode

/-- The node of one pane. -/
def leaf (paneID : String) : TopologyLayoutNode :=
  node paneID "" (.finite 0) nil nil

/-- A branch with two subtrees. -/
def split (direction : String) (ratio : Float64) (first second : TopologyLayoutNode) :
    TopologyLayoutNode :=
  node "" direction ratio first second

/-- The pane ids of a tree, left to right. -/
def leaves : TopologyLayoutNode → List String
  | nil => []
  | node paneID _ _ first second =>
    if paneID ≠ "" then [paneID] else first.leaves ++ second.leaves

end TopologyLayoutNode

open TopologyLayoutNode

def appendLayoutPane (layout : TopologyLayoutNode) (paneID : String) : TopologyLayoutNode :=
  if layout = nil then leaf paneID
  else split "horizontal" (.finite (1 / 2)) layout (leaf paneID)

def layoutHasPane : TopologyLayoutNode → String → Bool
  | nil, _ => false
  | node id _ _ first second, paneID =>
    id = paneID || layoutHasPane first paneID || layoutHasPane second paneID

/-- A branch over what is left of two subtrees. -/
def joinLayout (direction : String) (ratio : Float64) (first second : TopologyLayoutNode) :
    TopologyLayoutNode :=
  if first = nil then second
  else if second = nil then first
  else split direction ratio first second

def removeLayoutPane : TopologyLayoutNode → String → TopologyLayoutNode
  | nil, _ => nil
  | node id direction ratio first second, paneID =>
    if id = paneID then nil
    else if id ≠ "" then leaf id
    else joinLayout direction ratio (removeLayoutPane first paneID) (removeLayoutPane second paneID)

def splitLayoutPane (layout : TopologyLayoutNode) (sourcePaneID createdPaneID direction : String)
    (ratio : Float64) : TopologyLayoutNode :=
  match layout with
  | nil => leaf createdPaneID
  | node id direction' ratio' first second =>
    if id = sourcePaneID then
      split (if direction ≠ "horizontal" ∧ direction ≠ "vertical" then "horizontal" else direction)
        (validSplitRatio ratio) (leaf sourcePaneID) (leaf createdPaneID)
    else if id ≠ "" then leaf id
    else split direction' ratio'
      (splitLayoutPane first sourcePaneID createdPaneID direction ratio)
      (splitLayoutPane second sourcePaneID createdPaneID direction ratio)

/-- Set the ratio of the split next to a pane; the flag tells whether there is one. -/
def resizeLayoutPane : TopologyLayoutNode → String → Float64 → TopologyLayoutNode × Bool
  | nil, _, _ => (nil, false)
  | node id direction ratio' first second, paneID, ratio =>
    if id ≠ "" then (node id direction ratio' first second, false)
    else if layoutHasPane first paneID || layoutHasPane second paneID then
      (split direction (validSplitRatio ratio) first second, true)
    else
      let (first', changed) := resizeLayoutPane first paneID ratio
      if changed then (split direction ratio' first' second, true)
      else
        let (second', changed) := resizeLayoutPane second paneID ratio
        (split direction ratio' first second', changed)

def pruneLayout : TopologyLayoutNode → List String → TopologyLayoutNode
  | nil, _ => nil
  | node id direction ratio first second, panes =>
    if id ≠ "" then if id ∈ panes then leaf id else nil
    else joinLayout direction (validSplitRatio ratio) (pruneLayout first panes)
      (pruneLayout second panes)

/-- Append a pane unless the tree already has it. -/
def ensureLayoutPane (layout : TopologyLayoutNode) (paneID : String) : TopologyLayoutNode :=
  if layoutHasPane layout paneID then layout else appendLayoutPane layout paneID

def normalizeLayout (layout : TopologyLayoutNode) (panes : List String) : TopologyLayoutNode :=
  (sortedKeys panes).foldl ensureLayoutPane (pruneLayout layout panes)

/-- A tree whose leaves are panes and whose inner nodes have a direction, a ratio in
range and two subtrees. -/
inductive TopologyLayoutNode.Proper : TopologyLayoutNode → Prop
  | leaf (paneID : String) (hpane : paneID ≠ "") : Proper (leaf paneID)
  | split (direction : String) (ratio : Float64) (first second : TopologyLayoutNode)
      (hdirection : direction = "horizontal" ∨ direction = "vertical") (hratio : ratio.InRange)
      (hfirst : Proper first) (hsecond : Proper second) :
      Proper (split direction ratio first second)

/-- No pointer, or a proper tree. -/
def TopologyLayoutNode.ProperOrNil (layout : TopologyLayoutNode) : Prop :=
  layout = nil ∨ layout.Proper

variable {layout first second : TopologyLayoutNode} {paneID direction : String} {ratio : Float64}
variable {panes : List String}

@[simp] theorem leaves_nil : nil.leaves = [] := rfl

theorem leaves_leaf (hpane : paneID ≠ "") : (leaf paneID).leaves = [paneID] :=
  if_pos hpane

@[simp] theorem leaves_split : (split direction ratio first second).leaves =
    first.leaves ++ second.leaves :=
  if_neg fun h => h rfl

namespace TopologyLayoutNode

theorem ProperOrNil.nil : ProperOrNil nil := .inl rfl

theorem Proper.orNil (h : layout.Proper) : layout.ProperOrNil := .inr h

theorem Proper.leaves_ne_nil (h : layout.Proper) : layout.leaves ≠ [] := by
  induction h with
  | leaf paneID hpane => simp [leaves_leaf hpane]
  | split direction ratio first second _ _ _ _ hfirst _ => simp [hfirst]

theorem ProperOrNil.proper_of_leaves (h : layout.ProperOrNil) (hleaves : layout.leaves ≠ []) :
    layout.Proper :=
  h.resolve_left fun hnil => hleaves (by rw [hnil, leaves_nil])

theorem Proper.ne_nil (h : layout.Proper) : layout ≠ .nil := by
  rintro rfl
  exact h.leaves_ne_nil rfl

theorem Proper.leaf_ne_empty (h : layout.Proper) : ∀ id ∈ layout.leaves, id ≠ "" := by
  induction h with
  | leaf paneID hpane => simp [leaves_leaf hpane, hpane]
  | split direction ratio first second _ _ _ _ hfirst hsecond =>
    intro id hid
    rcases List.mem_append.mp (leaves_split ▸ hid) with h | h
    · exact hfirst id h
    · exact hsecond id h

theorem ProperOrNil.leaf_ne_empty (h : layout.ProperOrNil) : ∀ id ∈ layout.leaves, id ≠ "" := by
  rcases h with rfl | h
  · simp
  · exact h.leaf_ne_empty

/-- In a proper tree the search finds exactly the leaves. -/
theorem ProperOrNil.layoutHasPane_iff (h : layout.ProperOrNil) (hpane : paneID ≠ "") :
    layoutHasPane layout paneID = true ↔ paneID ∈ layout.leaves := by
  rcases h with rfl | h
  · simp [layoutHasPane]
  · induction h with
    | leaf id hid => simp [leaf, layoutHasPane, leaves, hid, eq_comm]
    | split direction ratio first second _ _ _ _ hfirst hsecond =>
      rw [leaves_split, List.mem_append, ← hfirst, ← hsecond]
      simp [split, layoutHasPane, hpane.symm]

theorem ProperOrNil.join (hfirst : first.ProperOrNil) (hsecond : second.ProperOrNil)
    (hdirection : direction = "horizontal" ∨ direction = "vertical") (hratio : ratio.InRange) :
    (joinLayout direction ratio first second).ProperOrNil := by
  rcases hfirst with rfl | hfirst
  · simpa [joinLayout] using hsecond
  · rcases hsecond with rfl | hsecond
    · simpa [joinLayout, hfirst.ne_nil] using hfirst.orNil
    · rw [joinLayout, if_neg hfirst.ne_nil, if_neg hsecond.ne_nil]
      exact .inr (.split direction ratio first second hdirection hratio hfirst hsecond)

end TopologyLayoutNode

theorem leaves_joinLayout :
    (joinLayout direction ratio first second).leaves = first.leaves ++ second.leaves := by
  unfold joinLayout
  split
  · next h => simp [h]
  · split
    · next h => simp [h]
    · exact leaves_split

theorem removeLayoutPane_joinLayout (hpane : paneID ≠ "") :
    removeLayoutPane (joinLayout direction ratio first second) paneID =
      joinLayout direction ratio (removeLayoutPane first paneID)
        (removeLayoutPane second paneID) := by
  by_cases hfirst : first = nil
  · simp [joinLayout, hfirst, removeLayoutPane]
  · by_cases hsecond : second = nil
    · rw [joinLayout, if_neg hfirst, if_pos hsecond, hsecond, removeLayoutPane, joinLayout,
        if_pos rfl, ite_eq_right_iff.mpr Eq.symm]
    · rw [joinLayout, if_neg hfirst, if_neg hsecond, split, removeLayoutPane, if_neg hpane.symm,
        if_neg (fun h => h rfl)]

namespace TopologyLayoutNode

/-- Appending adds one leaf at the end. -/
theorem ProperOrNil.appendLayoutPane (h : layout.ProperOrNil) (hpane : paneID ≠ "") :
    (appendLayoutPane layout paneID).Proper ∧
      (appendLayoutPane layout paneID).leaves = layout.leaves ++ [paneID] := by
  rcases h with rfl | h
  · exact ⟨.leaf paneID hpane, leaves_leaf hpane⟩
  · rw [Mux.appendLayoutPane, if_neg h.ne_nil, leaves_split, leaves_leaf hpane]
    exact ⟨.split _ _ _ _ (.inl rfl) ⟨by norm_num [ratioLow], by norm_num [ratioHigh]⟩ h
      (.leaf paneID hpane), rfl⟩

/-- Pruning keeps exactly the leaves of the window. -/
theorem ProperOrNil.pruneLayout (h : layout.ProperOrNil) (panes : List String) :
    (pruneLayout layout panes).ProperOrNil ∧
      (pruneLayout layout panes).leaves = layout.leaves.filter (· ∈ panes) := by
  rcases h with rfl | h
  · exact ⟨.nil, rfl⟩
  · induction h with
    | leaf id hid =>
      rw [leaf, Mux.pruneLayout, leaves, if_pos hid, if_pos hid]
      by_cases hmem : id ∈ panes
      · rw [if_pos hmem, leaves_leaf hid]
        exact ⟨.inr (.leaf id hid), by simp [hmem]⟩
      · simp [hmem, ProperOrNil]
    | split direction ratio first second hdirection hratio _ _ hfirst hsecond =>
      rw [split, Mux.pruneLayout, if_neg (fun h => h rfl), leaves_joinLayout, ← split,
        leaves_split, List.filter_append, hfirst.2, hsecond.2]
      exact ⟨hfirst.1.join hsecond.1 hdirection (inRange_validSplitRatio ratio), rfl⟩

/-- A proper tree over panes of the window is not pruned. -/
theorem ProperOrNil.pruneLayout_eq_self (h : layout.ProperOrNil)
    (hmem : ∀ id ∈ layout.leaves, id ∈ panes) : Mux.pruneLayout layout panes = layout := by
  rcases h with rfl | h
  · rfl
  · induction h with
    | leaf id hid =>
      rw [leaf, Mux.pruneLayout, if_pos hid, if_pos (hmem id (by simp [leaves_leaf hid]))]
      rfl
    | split direction ratio first second hdirection hratio hfirst hsecond ihfirst ihsecond =>
      simp only [leaves_split, List.mem_append] at hmem
      rw [split, Mux.pruneLayout, if_neg (fun h => h rfl),
        ihfirst fun id hid => hmem id (.inl hid), ihsecond fun id hid => hmem id (.inr hid),
        validSplitRatio_of_inRange hratio, joinLayout, if_neg hfirst.ne_nil,
        if_neg hsecond.ne_nil, split]

theorem ProperOrNil.removeLayoutPane_pruneLayout (h : layout.ProperOrNil) (hpane : paneID ≠ "")
    (panes : List String) :
    Mux.removeLayoutPane (Mux.pruneLayout layout panes) paneID =
      Mux.pruneLayout layout (panes.filter (· ≠ paneID)) := by
  rcases h with rfl | h
  · rfl
  · induction h with
    | leaf id hid =>
      simp only [leaf, Mux.pruneLayout, if_pos hid]
      rcases eq_or_ne id paneID with rfl | hne
      · by_cases hmem : id ∈ panes <;> simp [hmem, Mux.removeLayoutPane]
      · by_cases hmem : id ∈ panes <;> simp [hmem, hne, hid, Mux.removeLayoutPane, leaf]
    | split direction ratio first second _ _ _ _ hfirst hsecond =>
      rw [split, Mux.pruneLayout, Mux.pruneLayout, if_neg (fun h => h rfl),
        if_neg (fun h => h rfl), removeLayoutPane_joinLayout hpane, hfirst, hsecond]

/-- Removing drops exactly the pane's leaf. -/
theorem ProperOrNil.removeLayoutPane (h : layout.ProperOrNil) (hpane : paneID ≠ "") :
    (removeLayoutPane layout paneID).ProperOrNil ∧
      (removeLayoutPane layout paneID).leaves = layout.leaves.filter (· ≠ paneID) := by
  have hpruned := h.removeLayoutPane_pruneLayout hpane layout.leaves
  rw [h.pruneLayout_eq_self fun _ => id] at hpruned
  rw [hpruned]
  obtain ⟨hproper, hleaves⟩ := h.pruneLayout (layout.leaves.filter (· ≠ paneID))
  exact ⟨hproper, hleaves.trans (List.filter_congr fun id hid => by simp [hid])⟩

/-- **Closing panes one by one**, in any order, leaves the layout that is pruned to the panes that
stay. -/
theorem ProperOrNil.foldl_removeLayoutPane (h : layout.ProperOrNil) {ids : List String}
    (hids : ∀ id ∈ ids, id ≠ "") :
    ids.foldl Mux.removeLayoutPane layout =
      Mux.pruneLayout layout (layout.leaves.filter (· ∉ ids)) := by
  have hprune (panes) : ids.foldl Mux.removeLayoutPane (Mux.pruneLayout layout panes) =
      Mux.pruneLayout layout (panes.filter (· ∉ ids)) := by
    induction ids generalizing panes with
    | nil => simp
    | cons id ids ih =>
      rw [List.foldl_cons, h.removeLayoutPane_pruneLayout (hids id List.mem_cons_self),
        ih fun other hother => hids other (List.mem_cons_of_mem _ hother), List.filter_filter]
      simp [Bool.and_comm]
  rw [← hprune, h.pruneLayout_eq_self fun _ => id]

theorem ProperOrNil.foldl_removeLayoutPane_leaf :
    ["pane-1"].foldl Mux.removeLayoutPane (leaf "pane-1") = .nil :=
  have hids : ∀ id ∈ ["pane-1"], id ≠ "" := by decide
  ProperOrNil.foldl_removeLayoutPane (.inr (.leaf _ (by decide))) hids

/-- Splitting puts the created pane right after its source. -/
theorem Proper.splitLayoutPane (h : layout.Proper) {source created : String}
    (hsource : source ≠ "") (hcreated : created ≠ "") (direction : String) (ratio : Float64) :
    (splitLayoutPane layout source created direction ratio).Proper ∧
      (splitLayoutPane layout source created direction ratio).leaves =
        layout.leaves.flatMap fun id => if id = source then [source, created] else [id] := by
  induction h with
  | leaf id hid =>
    rw [TopologyLayoutNode.leaf, Mux.splitLayoutPane, leaves, if_pos hid]
    by_cases heq : id = source
    · rw [if_pos heq]
      refine ⟨.split _ _ _ _ ?_ (inRange_validSplitRatio ratio) (.leaf _ hsource)
        (.leaf _ hcreated), ?_⟩
      · split <;> tauto
      · simp [leaves_leaf hsource, leaves_leaf hcreated, heq, hsource]
    · rw [if_neg heq, if_pos hid, leaves_leaf hid]
      exact ⟨.leaf id hid, by simp [heq]⟩
  | split direction' ratio' first second hdirection hratio _ _ hfirst hsecond =>
    rw [TopologyLayoutNode.split, Mux.splitLayoutPane, if_neg hsource.symm,
      if_neg (fun h => h rfl), leaves_split,
      ← TopologyLayoutNode.split, leaves_split, List.flatMap_append, hfirst.2, hsecond.2]
    exact ⟨.split _ _ _ _ hdirection hratio hfirst.1 hsecond.1, rfl⟩

/-- **A split is undone** by removing the pane that it created: each branch, with its direction and
its ratio, is what it was. -/
theorem Proper.removeLayoutPane_splitLayoutPane (h : layout.Proper) {source created : String}
    (hsource : source ≠ "") (hcreated : created ≠ "") (hfresh : created ∉ layout.leaves)
    (direction : String) (ratio : Float64) :
    Mux.removeLayoutPane (Mux.splitLayoutPane layout source created direction ratio) created =
      layout := by
  induction h with
  | leaf id hid =>
    rw [leaves_leaf hid, List.mem_singleton] at hfresh
    rw [TopologyLayoutNode.leaf, Mux.splitLayoutPane]
    by_cases heq : id = source
    · subst heq
      simp [TopologyLayoutNode.split, TopologyLayoutNode.leaf, Mux.removeLayoutPane, joinLayout,
        hid, hcreated.symm, Ne.symm hfresh]
    · simp [TopologyLayoutNode.leaf, Mux.removeLayoutPane, heq, hid, Ne.symm hfresh]
  | split direction' ratio' first second _ _ hfirst hsecond ihfirst ihsecond =>
    rw [leaves_split, List.mem_append, not_or] at hfresh
    rw [TopologyLayoutNode.split, Mux.splitLayoutPane, if_neg hsource.symm, if_neg (fun h => h rfl),
      TopologyLayoutNode.split, Mux.removeLayoutPane, if_neg hcreated.symm, if_neg (fun h => h rfl),
      ihfirst hfresh.1, ihsecond hfresh.2, joinLayout, if_neg hfirst.ne_nil, if_neg hsecond.ne_nil,
      TopologyLayoutNode.split]

theorem Proper.removeLayoutPane_splitLayoutPane_leaf :
    Mux.removeLayoutPane (Mux.splitLayoutPane (.leaf "pane-1") "pane-1" "pane-2" "vertical"
      (.finite (1 / 2))) "pane-2" = .leaf "pane-1" :=
  Proper.removeLayoutPane_splitLayoutPane (.leaf "pane-1" (by decide)) (by decide) (by decide)
    (by decide) "vertical" _

/-- Resizing keeps the leaves. -/
theorem Proper.resizeLayoutPane (h : layout.Proper) (paneID : String) (ratio : Float64) :
    (resizeLayoutPane layout paneID ratio).1.Proper ∧
      (resizeLayoutPane layout paneID ratio).1.leaves = layout.leaves := by
  induction h with
  | leaf id hid =>
    rw [TopologyLayoutNode.leaf, Mux.resizeLayoutPane, if_pos hid]
    exact ⟨.leaf id hid, rfl⟩
  | split direction ratio' first second hdirection hratio hfirst hsecond ihfirst ihsecond =>
    rw [TopologyLayoutNode.split, Mux.resizeLayoutPane, if_neg (fun h => h rfl),
      ← TopologyLayoutNode.split]
    split
    · rw [leaves_split]
      exact ⟨.split _ _ _ _ hdirection (inRange_validSplitRatio ratio) hfirst hsecond,
        leaves_split.symm⟩
    · dsimp only
      split
      · rw [leaves_split, ihfirst.2]
        exact ⟨.split _ _ _ _ hdirection hratio ihfirst.1 hsecond, leaves_split.symm⟩
      · rw [leaves_split, ihsecond.2]
        exact ⟨.split _ _ _ _ hdirection hratio hfirst ihsecond.1, leaves_split.symm⟩

/-- Ensuring a list of panes appends the missing ones in order. -/
theorem ProperOrNil.foldl_ensureLayoutPane (h : layout.ProperOrNil) {ids : List String}
    (hids : ∀ id ∈ ids, id ≠ "") (hnodup : ids.Nodup) :
    (ids.foldl ensureLayoutPane layout).ProperOrNil ∧
      (ids.foldl ensureLayoutPane layout).leaves =
        layout.leaves ++ ids.filter (· ∉ layout.leaves) := by
  induction ids generalizing layout with
  | nil => exact ⟨h, by simp⟩
  | cons id rest ih =>
    obtain ⟨hid, hrest⟩ := List.forall_mem_cons.mp hids
    obtain ⟨hfresh, hnodup⟩ := List.nodup_cons.mp hnodup
    rw [List.foldl_cons, ensureLayoutPane]
    by_cases hmem : id ∈ layout.leaves
    · rw [if_pos ((h.layoutHasPane_iff hid).mpr hmem)]
      simpa [hmem] using ih h hrest hnodup
    · rw [if_neg fun hhas => hmem ((h.layoutHasPane_iff hid).mp hhas)]
      obtain ⟨hproper, hleaves⟩ := h.appendLayoutPane hid
      obtain ⟨hih, hihleaves⟩ := ih hproper.orNil hrest hnodup
      refine ⟨hih, ?_⟩
      rw [hihleaves, hleaves, List.append_assoc, List.singleton_append]
      have hsame : rest.filter (· ∉ layout.leaves ++ [id]) = rest.filter (· ∉ layout.leaves) := by
        refine List.filter_congr fun other hother => ?_
        have hne : other ≠ id := fun heq => hfresh (heq ▸ hother)
        simp [hne]
      rw [hsame, List.filter_cons_of_pos (by simpa using hmem)]

/-- A normalized tree has exactly the window's panes as leaves, each once. -/
theorem ProperOrNil.normalizeLayout (h : layout.ProperOrNil) (hnodup : layout.leaves.Nodup)
    (hpanes : ∀ id ∈ panes, id ≠ "") :
    (normalizeLayout layout panes).ProperOrNil ∧
      (normalizeLayout layout panes).leaves.Nodup ∧
      ∀ id, id ∈ (normalizeLayout layout panes).leaves ↔ id ∈ panes := by
  obtain ⟨hpruned, hleaves⟩ := h.pruneLayout panes
  have hids : ∀ id ∈ sortedKeys panes, id ≠ "" := fun id hid => hpanes id (mem_sortedKeys.mp hid)
  obtain ⟨hproper, hall⟩ := hpruned.foldl_ensureLayoutPane hids (nodup_sortedKeys panes)
  refine ⟨hproper, ?_, fun id => ?_⟩
  · rw [Mux.normalizeLayout, hall, List.nodup_append']
    refine ⟨hleaves ▸ hnodup.filter _, (nodup_sortedKeys panes).filter _, fun id hold hnew => ?_⟩
    rw [List.mem_filter, decide_eq_true_eq] at hnew
    exact hnew.2 hold
  · rw [Mux.normalizeLayout, hall, hleaves]
    simp only [List.mem_append, List.mem_filter, mem_sortedKeys, decide_eq_true_eq]
    tauto

/-- A proper tree over the window's panes is kept as it is. -/
theorem ProperOrNil.normalizeLayout_eq_self (h : layout.ProperOrNil)
    (hmem : ∀ id, id ∈ layout.leaves ↔ id ∈ panes) : Mux.normalizeLayout layout panes = layout := by
  have hkeep : ∀ ids : List String, (∀ id ∈ ids, id ∈ layout.leaves) →
      ids.foldl ensureLayoutPane layout = layout := by
    intro ids hids
    induction ids with
    | nil => rfl
    | cons id rest ih =>
      obtain ⟨hid, hrest⟩ := List.forall_mem_cons.mp hids
      have hhas := (h.layoutHasPane_iff (h.leaf_ne_empty id hid)).mpr hid
      rw [List.foldl_cons, ensureLayoutPane, if_pos hhas, ih hrest]
  rw [Mux.normalizeLayout, h.pruneLayout_eq_self fun id hid => (hmem id).mp hid]
  exact hkeep _ fun id hid => (hmem id).mpr (mem_sortedKeys.mp hid)

end TopologyLayoutNode

end AgentCockpit.Mux
