import AgentCockpit.Mux.Layout

/-!
# Dragging a divider

A request to resize a split names it by a pane: the renderer sends the first pane of the split's
first subtree. The daemon looks for a split with the pane in one of its subtrees, and tests this
before it descends, so it always takes the outermost split of the window. The ratio of an inner
split cannot be changed, and the drag of its divider changes that of the outermost one.

## Main results

* `divider_drag_iff` — **the drag of a divider resizes its split exactly at the root**
-/

namespace AgentCockpit.Mux

open TopologyLayoutNode

/-- A tree whose leaves are panes and whose inner nodes have two subtrees. -/
inductive TopologyLayoutNode.IsTree : TopologyLayoutNode → Prop
  | leaf (paneID : String) (hpane : paneID ≠ "") : IsTree (leaf paneID)
  | split (direction : String) (ratio : Float64) (first second : TopologyLayoutNode)
      (hfirst : IsTree first) (hsecond : IsTree second) :
      IsTree (split direction ratio first second)

/-- A side of a split. -/
inductive Side
  | first
  | second
  deriving DecidableEq, Repr

/-- An inner node. -/
structure LayoutSplit where
  direction : String
  ratio : Float64
  first : TopologyLayoutNode
  second : TopologyLayoutNode
  deriving DecidableEq, Repr

/-- The split at a position, if there is one. -/
def splitAt : TopologyLayoutNode → List Side → Option LayoutSplit
  | nil, _ => none
  | node paneID direction ratio first second, path =>
    if paneID ≠ "" then none
    else
      match path with
      | [] => some ⟨direction, ratio, first, second⟩
      | .first :: path => splitAt first path
      | .second :: path => splitAt second path

/-- The first pane of a tree, as the renderer looks for it. -/
def firstLayoutPane : TopologyLayoutNode → Option String
  | nil => none
  | node paneID _ _ first second =>
    if paneID ≠ "" then some paneID else (firstLayoutPane first).or (firstLayoutPane second)

/-- A resize reports a change, and sets the ratio of the split at a position and nothing else. -/
structure ResizesOnly (layout : TopologyLayoutNode) (path : List Side) (ratio : Float64)
    (resized : TopologyLayoutNode × Bool) : Prop where
  changed : resized.2 = true
  ratio : (splitAt resized.1 path).map LayoutSplit.ratio = some ratio
  others : ∀ other, other ≠ path → (splitAt resized.1 other).map LayoutSplit.ratio =
    (splitAt layout other).map LayoutSplit.ratio
  directions : ∀ other, (splitAt resized.1 other).map LayoutSplit.direction =
    (splitAt layout other).map LayoutSplit.direction
  leaves : resized.1.leaves = layout.leaves

variable {layout first second : TopologyLayoutNode} {paneID direction : String}
variable {ratio ratio' : Float64} {path : List Side} {node : LayoutSplit}

theorem splitAt_leaf (hpane : paneID ≠ "") (path : List Side) :
    splitAt (leaf paneID) path = none := by
  rw [leaf, splitAt.eq_def]
  exact if_pos hpane

theorem splitAt_split (path : List Side) :
    splitAt (split direction ratio first second) path = match path with
      | [] => some ⟨direction, ratio, first, second⟩
      | .first :: path => splitAt first path
      | .second :: path => splitAt second path := by
  rw [split, splitAt.eq_def]
  exact if_neg fun h => h rfl

namespace TopologyLayoutNode.IsTree

/-- The first pane of a tree is one of its leaves. -/
theorem exists_firstLayoutPane (h : layout.IsTree) :
    ∃ paneID ∈ layout.leaves, firstLayoutPane layout = some paneID := by
  induction h with
  | leaf paneID hpane =>
    exact ⟨paneID, by rw [leaves_leaf hpane]; exact List.mem_singleton_self paneID, if_pos hpane⟩
  | split direction ratio first second _ _ hfirst _ =>
    obtain ⟨paneID, hmem, hpane⟩ := hfirst
    refine ⟨paneID, ?_, ?_⟩
    · rw [leaves_split]
      exact List.mem_append_left _ hmem
    · rw [TopologyLayoutNode.split, firstLayoutPane, if_neg (fun h => h rfl), hpane]
      rfl

theorem leaf_ne_empty (h : layout.IsTree) : ∀ id ∈ layout.leaves, id ≠ "" := by
  induction h with
  | leaf paneID hpane =>
    rw [leaves_leaf hpane]
    exact List.forall_mem_singleton.mpr hpane
  | split direction ratio first second _ _ hfirst hsecond =>
    rw [leaves_split]
    exact List.forall_mem_append.mpr ⟨hfirst, hsecond⟩

/-- The search of a tree finds exactly its leaves. -/
theorem layoutHasPane_iff (h : layout.IsTree) (hpane : paneID ≠ "") :
    layoutHasPane layout paneID = true ↔ paneID ∈ layout.leaves := by
  induction h with
  | leaf id hid => simp [TopologyLayoutNode.leaf, layoutHasPane, leaves, hid, eq_comm]
  | split direction ratio first second _ _ hfirst hsecond =>
    rw [leaves_split, List.mem_append, ← hfirst, ← hsecond]
    simp [TopologyLayoutNode.split, layoutHasPane, hpane.symm]

/-- A split of a tree is a tree below its position, with leaves of the tree. -/
theorem of_splitAt (h : layout.IsTree) (hsplit : splitAt layout path = some node) :
    node.first.IsTree ∧ node.second.IsTree ∧ node.first.leaves ⊆ layout.leaves := by
  induction h generalizing path with
  | leaf paneID hpane =>
    exact nomatch (splitAt_leaf hpane path).symm.trans hsplit
  | split direction ratio first second hfirst hsecond ihfirst ihsecond =>
    rw [splitAt_split] at hsplit
    rw [leaves_split]
    match path with
    | [] =>
      obtain rfl := Option.some.inj hsplit
      exact ⟨hfirst, hsecond, List.subset_append_left _ _⟩
    | .first :: path =>
      obtain ⟨htree, htree', hsubset⟩ := ihfirst hsplit
      exact ⟨htree, htree', List.subset_append_of_subset_left _ hsubset⟩
    | .second :: path =>
      obtain ⟨htree, htree', hsubset⟩ := ihsecond hsplit
      exact ⟨htree, htree', List.subset_append_of_subset_right _ hsubset⟩

end TopologyLayoutNode.IsTree

/-- **A resize takes the outermost split.** -/
theorem resizeLayoutPane_of_mem (h : (split direction ratio first second).IsTree)
    (hmem : paneID ∈ (split direction ratio first second).leaves) (ratio' : Float64) :
    resizeLayoutPane (split direction ratio first second) paneID ratio' =
      (split direction (validSplitRatio ratio') first second, true) := by
  have hpane := h.leaf_ne_empty paneID hmem
  have hroot : splitAt (split direction ratio first second) [] = some _ := rfl
  obtain ⟨hfirst, hsecond, -⟩ := h.of_splitAt hroot
  have hhas : layoutHasPane first paneID || layoutHasPane second paneID := by
    rw [Bool.or_eq_true, hfirst.layoutHasPane_iff hpane, hsecond.layoutHasPane_iff hpane,
      ← List.mem_append, ← leaves_split]
    exact hmem
  rw [split, resizeLayoutPane, if_neg (fun h => h rfl), if_pos hhas]

/-- Setting the ratio of the outermost split sets just that. -/
theorem resizesOnly_root (hratio : ratio'.InRange) :
    ResizesOnly (split direction ratio first second) [] ratio'
      (split direction (validSplitRatio ratio') first second, true) := by
  rw [validSplitRatio_of_inRange hratio]
  refine ⟨rfl, by rw [splitAt_split]; rfl, fun other hother => ?_, fun other => ?_, ?_⟩
  · match other with
    | [] => exact absurd rfl hother
    | .first :: _ => rw [splitAt_split, splitAt_split]
    | .second :: _ => rw [splitAt_split, splitAt_split]
  · match other with
    | [] => rw [splitAt_split, splitAt_split]; rfl
    | .first :: _ => rw [splitAt_split, splitAt_split]
    | .second :: _ => rw [splitAt_split, splitAt_split]
  · rw [leaves_split, leaves_split]

/-- A resize of the outermost split is one of an inner split only if both have the ratio already. -/
theorem resizesOnly_inner_iff (hratio : ratio'.InRange) (hpath : path ≠ [])
    (hsplit : splitAt (split direction ratio first second) path = some node) :
    ResizesOnly (split direction ratio first second) path ratio'
        (split direction (validSplitRatio ratio') first second, true) ↔
      ratio = ratio' ∧ node.ratio = ratio' := by
  have hroot : ResizesOnly (split direction ratio first second) [] ratio'
      (split direction (validSplitRatio ratio') first second, true) := resizesOnly_root hratio
  constructor
  · intro h
    have hinner := h.ratio
    have houter := h.others [] (Ne.symm hpath)
    rw [hroot.others path hpath, hsplit] at hinner
    rw [hroot.ratio, splitAt_split] at houter
    exact ⟨(Option.some.inj houter).symm, Option.some.inj hinner⟩
  · rintro ⟨rfl, hnode⟩
    rw [validSplitRatio_of_inRange hratio]
    refine ⟨rfl, ?_, fun _ _ => rfl, fun _ => rfl, rfl⟩
    rw [hsplit, ← hnode]
    rfl

/-- A resize by a pane that is not there reports no change. -/
theorem resizeLayoutPane_of_not_mem (h : layout.IsTree) (hpane : paneID ≠ "")
    (hmem : paneID ∉ layout.leaves) (ratio : Float64) :
    resizeLayoutPane layout paneID ratio = (layout, false) := by
  induction h with
  | leaf id hid => rw [leaf, resizeLayoutPane, if_pos hid]
  | split direction ratio' first second hfirst hsecond ihfirst ihsecond =>
    rw [leaves_split, List.mem_append, not_or] at hmem
    have hhas : ¬ (layoutHasPane first paneID || layoutHasPane second paneID) := by
      rw [Bool.or_eq_true, hfirst.layoutHasPane_iff hpane, hsecond.layoutHasPane_iff hpane]
      exact not_or.mpr hmem
    rw [split, resizeLayoutPane, if_neg (fun h => h rfl), if_neg hhas, ihfirst hmem.1,
      ihsecond hmem.2]
    rfl

/-- **The drag of a divider resizes its split exactly at the root** of the window, and elsewhere
only if there is nothing to do. A pane that is not there changes nothing. -/
theorem divider_drag_iff (h : layout.IsTree) (hratio : ratio.InRange) :
    (∀ path node, splitAt layout path = some node →
      ∃ paneID, firstLayoutPane node.first = some paneID ∧
        (ResizesOnly layout path ratio (resizeLayoutPane layout paneID ratio) ↔
          path = [] ∨
            (splitAt layout []).map LayoutSplit.ratio = some ratio ∧ node.ratio = ratio)) ∧
      ∀ paneID, paneID ≠ "" → paneID ∉ layout.leaves →
        resizeLayoutPane layout paneID ratio = (layout, false) := by
  refine ⟨fun path node hsplit => ?_, fun paneID hpane hmem =>
    resizeLayoutPane_of_not_mem h hpane hmem ratio⟩
  obtain ⟨hfirst, -, hsubset⟩ := h.of_splitAt hsplit
  obtain ⟨paneID, hmem, hpane⟩ := hfirst.exists_firstLayoutPane
  refine ⟨paneID, hpane, ?_⟩
  cases h with
  | leaf id hid => exact nomatch (splitAt_leaf hid path).symm.trans hsplit
  | split direction ratio' first second htree htree' =>
    rw [resizeLayoutPane_of_mem (.split direction ratio' first second htree htree')
      (hsubset hmem)]
    by_cases hpath : path = []
    · rw [hpath]
      exact iff_of_true (resizesOnly_root hratio) (.inl rfl)
    · rw [resizesOnly_inner_iff hratio hpath hsplit, splitAt_split, Option.map_some,
        Option.some.injEq, or_iff_right hpath]

/-- A window with three panes, two of them below each other on the right. -/
def threePanes : TopologyLayoutNode :=
  split "horizontal" (.finite (1 / 2)) (leaf "pane-1")
    (split "vertical" (.finite (1 / 2)) (leaf "pane-2") (leaf "pane-3"))

theorem isTree_threePanes : threePanes.IsTree :=
  .split _ _ _ _ (.leaf _ (by decide)) (.split _ _ _ _ (.leaf _ (by decide)) (.leaf _ (by decide)))

/-- The divider between the two panes on the right is dragged: the left pane gets narrower. -/
theorem not_divider_drag :
    ¬ ∀ layout ratio path node paneID, IsTree layout → layout.leaves.Nodup →
      Float64.InRange ratio → splitAt layout path = some node →
      firstLayoutPane node.first = some paneID →
      ResizesOnly layout path ratio (resizeLayoutPane layout paneID ratio) := by
  intro hall
  have hresizes := hall threePanes (.finite (1 / 4)) [.second]
    ⟨"vertical", .finite (1 / 2), leaf "pane-2", leaf "pane-3"⟩ "pane-2" isTree_threePanes
    (by decide) (by decide +kernel) (by decide +kernel) (by decide)
  exact absurd hresizes.ratio (by decide +kernel)

/-- The divider of the outermost split. -/
theorem divider_drag_iff_threePanes :
    ResizesOnly threePanes [] (.finite (1 / 4))
      (resizeLayoutPane threePanes "pane-1" (.finite (1 / 4))) := by
  obtain ⟨paneID, hpane, hresizes⟩ := (divider_drag_iff isTree_threePanes
    (by decide +kernel : (Float64.finite (1 / 4)).InRange)).1 [] _ (splitAt_split [])
  obtain rfl := Option.some.inj (hpane.symm.trans (by decide : _ = some "pane-1"))
  exact hresizes.mpr (.inl rfl)

end AgentCockpit.Mux
