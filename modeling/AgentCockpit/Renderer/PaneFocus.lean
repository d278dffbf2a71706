import AgentCockpit.Core.Guillotine
import AgentCockpit.Renderer.MuxTopology
import Mathlib.Data.List.Sort
import Mathlib.Tactic.Ring

/-!
# Moving the focus to the pane beside

The panel draws the panes of a window as a rectangle that its layout cuts. To move the focus in a
direction it takes the panes that lie beyond the active pane's edge and overlap it, however far
beyond, and of these the one whose centre is nearest, where a distance across the direction counts
twice.
-/

namespace AgentCockpit.Renderer.PaneFocus

open AgentCockpit.Core (Slab Cut)

inductive PaneDirection
  | left | right | up | down
  deriving DecidableEq, Repr

structure PaneBounds where
  paneId : String
  x : ℚ
  y : ℚ
  width : ℚ
  height : ℚ
  deriving DecidableEq, Repr

/-- The rectangles of the panes of a layout. -/
def muxPaneBounds : MuxTopologyLayoutNode → ℚ → ℚ → ℚ → ℚ → List PaneBounds
  | .null, _, _, _, _ => []
  | .node paneId direction ratio first second, x, y, width, height =>
    match paneId.filter (· ≠ "") with
    | some paneId => [⟨paneId, x, y, width, height⟩]
    | none =>
      let ratio := ratio.getD (1 / 2)
      if direction = some .vertical then
        muxPaneBounds first x y width (height * ratio) ++
          muxPaneBounds second x (y + height * ratio) width (height * (1 - ratio))
      else
        muxPaneBounds first x y (width * ratio) height ++
          muxPaneBounds second (x + width * ratio) y (width * (1 - ratio)) height

def epsilon : ℚ := 1 / 10 ^ 6

def overlaps (start length otherStart otherLength : ℚ) : Bool :=
  min (start + length) (otherStart + otherLength) - max start otherStart > epsilon

def sharesDirectionalEdge (active candidate : PaneBounds) : PaneDirection → Bool
  -- The candidate begins at the edge or anywhere beyond it.
  | .left => candidate.x + candidate.width ≤ active.x + epsilon &&
      overlaps active.y active.height candidate.y candidate.height
  | .right => candidate.x ≥ active.x + active.width - epsilon &&
      overlaps active.y active.height candidate.y candidate.height
  | .up => candidate.y + candidate.height ≤ active.y + epsilon &&
      overlaps active.x active.width candidate.x candidate.width
  | .down => candidate.y ≥ active.y + active.height - epsilon &&
      overlaps active.x active.width candidate.x candidate.width

def paneDistance (active candidate : PaneBounds) (direction : PaneDirection) : ℚ :=
  let horizontal := direction = .left ∨ direction = .right
  let alongX := |candidate.x + candidate.width / 2 - (active.x + active.width / 2)|
  let alongY := |candidate.y + candidate.height / 2 - (active.y + active.height / 2)|
  let primary := if horizontal then alongX else alongY
  let cross := if horizontal then alongY else alongX
  primary + cross * 2

/-- The panes that the focus may move to. -/
def candidates (bounds : List PaneBounds) (active : PaneBounds) (direction : PaneDirection) :
    List PaneBounds :=
  bounds.filter fun candidate =>
    candidate.paneId ≠ active.paneId && sharesDirectionalEdge active candidate direction

/-- The nearest of them; the sort is stable. -/
def nearestDirectionalBound (bounds : List PaneBounds) (active : PaneBounds)
    (direction : PaneDirection) : Option PaneBounds :=
  ((candidates bounds active direction).insertionSort fun left right =>
    paneDistance active left direction ≤ paneDistance active right direction).head?

/-- The pane that the focus moves to. -/
def adjacentMuxPane (layout : MuxTopologyLayoutNode) (panes : List MuxTopologyPane)
    (activePaneId : String) (direction : PaneDirection) : Option MuxTopologyPane :=
  let bounds := muxPaneBounds layout 0 0 1 1
  match bounds.find? (·.paneId = activePaneId) with
  | none => none
  | some active =>
    match nearestDirectionalBound bounds active direction with
    | none => none
    | some target => panes.find? (·.paneId = target.paneId)

/-! ### Layouts and edges -/

/-- A layout whose nodes are panes or splits, with ratios that leave room for both sides. -/
inductive LayoutTree : MuxTopologyLayoutNode → Prop
  | pane {paneId : String} {direction ratio first second} (hne : paneId ≠ "") :
    LayoutTree (.node (some paneId) direction ratio first second)
  | split {paneId : Option String} {direction ratio first second}
      (hpane : paneId = none ∨ paneId = some "") (hlow : 1 / 10 ≤ ratio.getD (1 / 2))
      (hhigh : ratio.getD (1 / 2) ≤ 9 / 10) (hfirst : LayoutTree first)
      (hsecond : LayoutTree second) : LayoutTree (.node paneId direction ratio first second)

/-- No pane of the layout is thin. -/
def Roomy (bounds : List PaneBounds) : Prop :=
  ∀ pane ∈ bounds, 1 / 10 ^ 4 < pane.width ∧ 1 / 10 ^ 4 < pane.height

/-- A layout that is drawn: a tree of distinct panes none of which is thin. -/
structure Drawn (layout : MuxTopologyLayoutNode) : Prop where
  tree : LayoutTree layout
  distinct : ((muxPaneBounds layout 0 0 1 1).map (·.paneId)).Nodup
  roomy : Roomy (muxPaneBounds layout 0 0 1 1)

/-- A rectangle as it is seen in a direction. -/
def PaneBounds.slab (bounds : PaneBounds) : PaneDirection → Slab ℚ
  | .left => ⟨-(bounds.x + bounds.width), -bounds.x, bounds.y, bounds.y + bounds.height⟩
  | .right => ⟨bounds.x, bounds.x + bounds.width, bounds.y, bounds.y + bounds.height⟩
  | .up => ⟨-(bounds.y + bounds.height), -bounds.y, bounds.x, bounds.x + bounds.width⟩
  | .down => ⟨bounds.y, bounds.y + bounds.height, bounds.x, bounds.x + bounds.width⟩

/-- The rectangle of the whole layout. -/
def whole : PaneBounds := ⟨"", 0, 0, 1, 1⟩

/-- The edges of the two panes coincide on that side of the active one, up to epsilon. -/
def Touches (active candidate : PaneBounds) (direction : PaneDirection) : Prop :=
  |(candidate.slab direction).lo - (active.slab direction).hi| ≤ epsilon

/-- The panes overlap across the direction. -/
def Overlaps (active candidate : PaneBounds) (direction : PaneDirection) : Prop :=
  epsilon < (active.slab direction).overlap (candidate.slab direction)

/-- The active pane's edge on that side is the border of the layout. -/
def AtBorder (active : PaneBounds) (direction : PaneDirection) : Prop :=
  (active.slab direction).hi = (whole.slab direction).hi

/-- The focus moves to a pane that touches the active one and overlaps it, and stays where it is at
the border only. -/
def MovesToNeighbour (layout : MuxTopologyLayoutNode) (panes : List MuxTopologyPane)
    (active : PaneBounds) (direction : PaneDirection) : Prop :=
  (∀ pane, adjacentMuxPane layout panes active.paneId direction = some pane →
    ∃ target ∈ muxPaneBounds layout 0 0 1 1, target.paneId = pane.paneId ∧
      Touches active target direction ∧ Overlaps active target direction) ∧
  (adjacentMuxPane layout panes active.paneId direction = none ↔ AtBorder active direction)

/-- One pane is taken before another one: it is nearer, or as near and listed earlier. -/
def Precedes (layout : MuxTopologyLayoutNode) (active : PaneBounds) (direction : PaneDirection)
    (bound other : PaneBounds) : Prop :=
  paneDistance active bound direction < paneDistance active other direction ∨
    paneDistance active bound direction = paneDistance active other direction ∧
      [bound, other].Sublist (muxPaneBounds layout 0 0 1 1)

/-- Before every pane that lies beyond the edge without touching it and overlaps the active one, a
pane is taken that touches the edge and overlaps. -/
def NeighboursNearest (layout : MuxTopologyLayoutNode) (active : PaneBounds)
    (direction : PaneDirection) : Prop :=
  ∀ other ∈ candidates (muxPaneBounds layout 0 0 1 1) active direction,
    ¬ Touches active other direction →
      ∃ bound ∈ candidates (muxPaneBounds layout 0 0 1 1) active direction,
        Touches active bound direction ∧ Precedes layout active direction bound other

/-! ### The rectangles of a layout -/

section Bounds

variable {layout first second : MuxTopologyLayoutNode} {box : PaneBounds} {ratio : ℚ}
variable {α : Type*} {piece : α → Slab ℚ} {left right upper lower : Set α}

theorem cut_beside (hlow : 0 ≤ ratio) (hhigh : ratio ≤ 1) (hwidth : 0 ≤ box.width)
    (direction : PaneDirection)
    (hleft : Cut piece (PaneBounds.slab { box with width := box.width * ratio } direction) left)
    (hright : Cut piece (PaneBounds.slab { box with
      x := box.x + box.width * ratio, width := box.width * (1 - ratio) } direction) right) :
    Cut piece (box.slab direction) (left ∪ right) := by
  have hpart : 0 ≤ box.width * ratio := mul_nonneg hwidth hlow
  have hrest : box.width * ratio ≤ box.width := mul_le_of_le_one_right hwidth hhigh
  have hend : box.x + box.width * ratio + box.width * (1 - ratio) = box.x + box.width := by ring
  cases direction with
  | left =>
    -- Seen to the left, the right part comes first.
    rw [Set.union_comm]
    have hnear : PaneBounds.slab { box with
        x := box.x + box.width * ratio, width := box.width * (1 - ratio) } .left =
        { box.slab .left with hi := -(box.x + box.width * ratio) } :=
      Slab.ext (congrArg (- ·) hend) rfl rfl rfl
    rw [hnear] at hright
    apply Cut.behind (-(box.x + box.width * ratio)) _ _ hright hleft
    · exact neg_le_neg (by linarith)
    · exact neg_le_neg (by linarith)
  | right =>
    have hfar : PaneBounds.slab { box with
        x := box.x + box.width * ratio, width := box.width * (1 - ratio) } .right =
        { box.slab .right with lo := box.x + box.width * ratio } := Slab.ext rfl hend rfl rfl
    rw [hfar] at hright
    apply Cut.behind (box.x + box.width * ratio) _ _ hleft hright
    · exact le_add_of_nonneg_right hpart
    · exact (add_le_add_iff_left _).mpr hrest
  | up =>
    have hbeyond : PaneBounds.slab { box with
        x := box.x + box.width * ratio, width := box.width * (1 - ratio) } .up =
        { box.slab .up with start := box.x + box.width * ratio } := Slab.ext rfl rfl rfl hend
    rw [hbeyond] at hright
    apply Cut.beside (box.x + box.width * ratio) _ _ hleft hright
    · exact le_add_of_nonneg_right hpart
    · exact (add_le_add_iff_left _).mpr hrest
  | down =>
    have hbeyond : PaneBounds.slab { box with
        x := box.x + box.width * ratio, width := box.width * (1 - ratio) } .down =
        { box.slab .down with start := box.x + box.width * ratio } := Slab.ext rfl rfl rfl hend
    rw [hbeyond] at hright
    apply Cut.beside (box.x + box.width * ratio) _ _ hleft hright
    · exact le_add_of_nonneg_right hpart
    · exact (add_le_add_iff_left _).mpr hrest

/-- A rectangle with its axes exchanged. -/
def PaneBounds.transpose (bounds : PaneBounds) : PaneBounds :=
  ⟨bounds.paneId, bounds.y, bounds.x, bounds.height, bounds.width⟩

def PaneDirection.transpose : PaneDirection → PaneDirection
  | .left => .up
  | .right => .down
  | .up => .left
  | .down => .right

theorem slab_transpose (bounds : PaneBounds) (direction : PaneDirection) :
    bounds.transpose.slab direction.transpose = bounds.slab direction := by
  cases direction <;> rfl

theorem cut_stacked (hlow : 0 ≤ ratio) (hhigh : ratio ≤ 1) (hheight : 0 ≤ box.height)
    (direction : PaneDirection)
    (hupper : Cut piece (PaneBounds.slab { box with height := box.height * ratio } direction) upper)
    (hlower : Cut piece (PaneBounds.slab { box with
      y := box.y + box.height * ratio, height := box.height * (1 - ratio) } direction) lower) :
    Cut piece (box.slab direction) (upper ∪ lower) := by
  rw [← slab_transpose] at hupper hlower ⊢
  exact cut_beside hlow hhigh hheight direction.transpose hupper hlower

/-- A layout cuts the rectangle that it is drawn in. -/
theorem cut_muxPaneBounds (h : LayoutTree layout) (direction : PaneDirection)
    (hwidth : 0 ≤ box.width) (hheight : 0 ≤ box.height) :
    Cut (PaneBounds.slab · direction) (box.slab direction)
      {bounds | bounds ∈ muxPaneBounds layout box.x box.y box.width box.height} := by
  induction h generalizing box with
  | @pane paneId splits ratio first second hne =>
    have hleaf : muxPaneBounds (.node (some paneId) splits ratio first second) box.x box.y
        box.width box.height = [⟨paneId, box.x, box.y, box.width, box.height⟩] := by
      simp [muxPaneBounds, Option.filter, hne]
    have hset : {bounds : PaneBounds | bounds ∈
        [(⟨paneId, box.x, box.y, box.width, box.height⟩ : PaneBounds)]} =
        {⟨paneId, box.x, box.y, box.width, box.height⟩} := by
      ext bounds
      simp
    rw [hleaf, hset]
    apply Cut.whole
    cases direction <;> rfl
  | @split paneId splits ratio first second hpane hlow hhigh _ _ ihfirst ihsecond =>
    have hnone : paneId.filter (· ≠ "") = none := by
      rcases hpane with rfl | rfl <;> rfl
    have hzero : 0 ≤ ratio.getD (1 / 2) := by linarith
    have hone : ratio.getD (1 / 2) ≤ 1 := by linarith
    rw [muxPaneBounds, hnone]
    dsimp only
    split
    · have hunion := cut_stacked hzero hone hheight direction
        (@ihfirst { box with height := box.height * ratio.getD (1 / 2) } hwidth
          (mul_nonneg hheight hzero))
        (@ihsecond { box with
          y := box.y + box.height * ratio.getD (1 / 2)
          height := box.height * (1 - ratio.getD (1 / 2)) } hwidth
          (mul_nonneg hheight (by linarith)))
      simpa only [List.mem_append, Set.ofPred_or] using hunion
    · have hunion := cut_beside hzero hone hwidth direction
        (@ihfirst { box with width := box.width * ratio.getD (1 / 2) }
          (mul_nonneg hwidth hzero) hheight)
        (@ihsecond { box with
          x := box.x + box.width * ratio.getD (1 / 2)
          width := box.width * (1 - ratio.getD (1 / 2)) } (mul_nonneg hwidth (by linarith))
          hheight)
      simpa only [List.mem_append, Set.ofPred_or] using hunion

end Bounds

/-! ### The nearest candidate -/

section Nearest

variable {β : Type*} {weight : β → ℚ} {l : List β} {a b : β}

theorem pair_sublist_or (ha : a ∈ l) (hb : b ∈ l) (hne : a ≠ b) :
    [a, b].Sublist l ∨ [b, a].Sublist l := by
  obtain ⟨front, back, rfl⟩ := List.append_of_mem ha
  rcases List.mem_append.mp hb with hfront | hback
  · exact .inr ((List.singleton_sublist.mpr hfront).append
      (List.singleton_sublist.mpr List.mem_cons_self))
  · have hlater : b ∈ back := (List.mem_cons.mp hback).resolve_left (Ne.symm hne)
    exact .inl ((List.Sublist.cons_cons a (List.singleton_sublist.mpr hlater)).trans
      (List.sublist_append_right front _))

/-- The head of a list that is sorted stably: nothing weighs less, and nothing that weighs as much
was listed earlier. -/
theorem head?_insertionSort (hnodup : l.Nodup)
    (h : (l.insertionSort fun left right => weight left ≤ weight right).head? = some a) :
    a ∈ l ∧ ∀ b ∈ l, weight a ≤ weight b ∧
      (weight b = weight a → a ≠ b → ¬ [b, a].Sublist l) := by
  have hsorted := List.pairwise_insertionSort (fun left right => weight left ≤ weight right) l
  have hperm := List.perm_insertionSort (fun left right => weight left ≤ weight right) l
  obtain ⟨rest, hrest⟩ := List.head?_eq_some_iff.mp h
  have hmem : a ∈ l := hperm.mem_iff.mp (by rw [hrest]; exact List.mem_cons_self)
  refine ⟨hmem, fun b hb => ⟨?_, ?_⟩⟩
  · rw [hrest] at hsorted
    have hsort : b ∈ a :: rest := hrest ▸ hperm.mem_iff.mpr hb
    rcases List.mem_cons.mp hsort with rfl | hlater
    · exact le_rfl
    · exact List.rel_of_pairwise_cons hsorted hlater
  · intro heq hne hearlier
    -- The sort would keep the earlier one in front of its head.
    have hkept := List.pair_sublist_insertionSort (r := fun left right =>
      weight left ≤ weight right) heq.le hearlier
    rw [hrest] at hkept
    have hlater : a ∈ rest := by
      rcases List.sublist_cons_iff.mp hkept with hpair | ⟨tail, htail, hpair⟩
      · exact hpair.subset (by simp)
      · exact absurd (List.cons.inj htail).1.symm hne
    exact (List.nodup_cons.mp (hrest ▸ hperm.nodup_iff.mpr hnodup)).1 hlater

end Nearest

/-! ### Edges -/

section Edges

variable {layout : MuxTopologyLayoutNode} {active candidate : PaneBounds}
variable {direction : PaneDirection}

theorem sharesDirectionalEdge_iff : sharesDirectionalEdge active candidate direction = true ↔
    (active.slab direction).hi - epsilon ≤ (candidate.slab direction).lo ∧
      Overlaps active candidate direction := by
  unfold sharesDirectionalEdge overlaps Overlaps Slab.overlap
  cases direction with
  | left =>
    simp only [Bool.and_eq_true, decide_eq_true_eq, PaneBounds.slab, gt_iff_lt]
    exact and_congr_left fun _ => ⟨fun h => by linarith, fun h => by linarith⟩
  | right => simp only [Bool.and_eq_true, decide_eq_true_eq, PaneBounds.slab, gt_iff_lt, ge_iff_le]
  | up =>
    simp only [Bool.and_eq_true, decide_eq_true_eq, PaneBounds.slab, gt_iff_lt]
    exact and_congr_left fun _ => ⟨fun h => by linarith, fun h => by linarith⟩
  | down => simp only [Bool.and_eq_true, decide_eq_true_eq, PaneBounds.slab, gt_iff_lt, ge_iff_le]

theorem mem_candidates {bounds : List PaneBounds} :
    candidate ∈ candidates bounds active direction ↔ candidate ∈ bounds ∧
      candidate.paneId ≠ active.paneId ∧
      (active.slab direction).hi - epsilon ≤ (candidate.slab direction).lo ∧
      Overlaps active candidate direction := by
  rw [candidates, List.mem_filter, Bool.and_eq_true, sharesDirectionalEdge_iff,
    decide_eq_true_eq]

theorem Roomy.slab {bounds : List PaneBounds} (h : Roomy bounds) (hpane : candidate ∈ bounds)
    (direction : PaneDirection) :
    1 / 10 ^ 4 < (candidate.slab direction).hi - (candidate.slab direction).lo ∧
      1 / 10 ^ 4 < (candidate.slab direction).stop - (candidate.slab direction).start := by
  obtain ⟨hwidth, hheight⟩ := h candidate hpane
  cases direction <;> simp only [PaneBounds.slab]
  · exact ⟨by linarith, by linarith⟩
  · exact ⟨by linarith, by linarith⟩
  · exact ⟨by linarith, by linarith⟩
  · exact ⟨by linarith, by linarith⟩

theorem Drawn.cut (h : Drawn layout) (direction : PaneDirection) :
    Cut (PaneBounds.slab · direction) (whole.slab direction)
      {bounds | bounds ∈ muxPaneBounds layout 0 0 1 1} :=
  @cut_muxPaneBounds layout whole h.tree direction zero_le_one zero_le_one

theorem Drawn.eq_of_paneId (h : Drawn layout) (hactive : active ∈ muxPaneBounds layout 0 0 1 1)
    (hcandidate : candidate ∈ muxPaneBounds layout 0 0 1 1)
    (hpane : candidate.paneId = active.paneId) : candidate = active :=
  List.inj_on_of_nodup_map h.distinct hcandidate hactive hpane

/-- At the border there is nowhere to go. -/
theorem candidates_of_atBorder (h : Drawn layout) (hborder : AtBorder active direction) :
    candidates (muxPaneBounds layout 0 0 1 1) active direction = [] := by
  apply List.eq_nil_iff_forall_not_mem.mpr
  intro candidate hcandidate
  obtain ⟨hpane, -, hbeyond, -⟩ := mem_candidates.mp hcandidate
  have hwithin := ((h.cut direction).within hpane).hi
  have hdeep := (h.roomy.slab hpane direction).1
  rw [hborder] at hbeyond
  unfold epsilon at hbeyond
  linarith

/-- Elsewhere a pane touches the edge. -/
theorem exists_touching (h : Drawn layout) (hactive : active ∈ muxPaneBounds layout 0 0 1 1)
    (hborder : ¬ AtBorder active direction) :
    ∃ bound ∈ candidates (muxPaneBounds layout 0 0 1 1) active direction,
      Touches active bound direction := by
  have hwide (pane : PaneBounds) (hpane : pane ∈ muxPaneBounds layout 0 0 1 1) :
      1 / 10 ^ 4 ≤ (pane.slab direction).stop - (pane.slab direction).start :=
    (h.roomy.slab hpane direction).2.le
  rcases (h.cut direction).exists_adjacent hactive (by norm_num) hwide with hend | hnext
  · exact absurd hend hborder
  obtain ⟨bound, hbound, hmeet, hoverlap⟩ := hnext
  have hspan := (h.roomy.slab hactive direction).2
  have hdeep := (h.roomy.slab hactive direction).1
  refine ⟨bound, mem_candidates.mpr ⟨hbound, ?_, ?_, ?_⟩, ?_⟩
  · intro hpane
    obtain rfl := h.eq_of_paneId hactive hbound hpane
    rw [hmeet] at hdeep
    norm_num at hdeep
  · rw [hmeet]
    unfold epsilon
    linarith
  · -- The overlap is as long as the shorter side of the two, or as the least side there is.
    apply lt_of_lt_of_le _ hoverlap
    unfold epsilon
    apply lt_min
    · linarith
    · norm_num
  · rw [Touches, hmeet, sub_self, abs_zero]
    unfold epsilon
    norm_num

end Edges

/-! ### The focus -/

section Focus

variable {layout : MuxTopologyLayoutNode} {panes : List MuxTopologyPane}
variable {active target : PaneBounds} {direction : PaneDirection}

theorem adjacentMuxPane_eq (h : Drawn layout) (hactive : active ∈ muxPaneBounds layout 0 0 1 1) :
    adjacentMuxPane layout panes active.paneId direction =
      (nearestDirectionalBound (muxPaneBounds layout 0 0 1 1) active direction).bind fun target =>
        panes.find? (·.paneId = target.paneId) := by
  have hfind : (muxPaneBounds layout 0 0 1 1).find? (·.paneId = active.paneId) = some active := by
    have hsome : ((muxPaneBounds layout 0 0 1 1).find? (·.paneId = active.paneId)).isSome :=
      List.find?_isSome.mpr ⟨active, hactive, decide_eq_true rfl⟩
    obtain ⟨found, hfound⟩ := Option.isSome_iff_exists.mp hsome
    have hpane : found.paneId = active.paneId := by simpa using List.find?_some hfound
    rw [hfound, h.eq_of_paneId hactive (List.mem_of_find?_eq_some hfound) hpane]
  rw [adjacentMuxPane, hfind]
  dsimp only
  cases nearestDirectionalBound (muxPaneBounds layout 0 0 1 1) active direction with
  | none => rfl
  | some target => rfl

/-- The focus stays where it is at the border only. -/
theorem nearestDirectionalBound_eq_none_iff (h : Drawn layout)
    (hactive : active ∈ muxPaneBounds layout 0 0 1 1) :
    nearestDirectionalBound (muxPaneBounds layout 0 0 1 1) active direction = none ↔
      AtBorder active direction := by
  rw [nearestDirectionalBound, List.head?_eq_none_iff, ← List.length_eq_zero_iff,
    List.length_insertionSort, List.length_eq_zero_iff]
  constructor
  · intro hnone
    by_contra hborder
    -- Within the layout some pane touches the edge, and it would be a candidate.
    obtain ⟨bound, hbound, -⟩ := exists_touching h hactive hborder
    rw [hnone] at hbound
    exact nomatch hbound
  · exact candidates_of_atBorder h

/-- What is nearest touches the edge if and only if no pane farther beyond is taken first. -/
theorem nearest_touches_iff (h : Drawn layout)
    (htarget : nearestDirectionalBound (muxPaneBounds layout 0 0 1 1) active direction =
      some target) :
    Touches active target direction ↔ NeighboursNearest layout active direction := by
  have hnodup : (candidates (muxPaneBounds layout 0 0 1 1) active direction).Nodup :=
    List.Nodup.filter _ (List.Nodup.of_map _ h.distinct)
  obtain ⟨hmem, hfirst⟩ := head?_insertionSort hnodup htarget
  -- Nothing that is a candidate too is taken before the target.
  have hnearest (bound : PaneBounds)
      (hbound : bound ∈ candidates (muxPaneBounds layout 0 0 1 1) active direction)
      (hne : target ≠ bound) : ¬ Precedes layout active direction bound target := by
    obtain ⟨hle, hearlier⟩ := hfirst bound hbound
    rintro (hlt | ⟨heq, hlisted⟩)
    · exact absurd hlt (not_lt.mpr hle)
    · apply hearlier heq hne
      have hkept := hlisted.filter fun candidate =>
        candidate.paneId ≠ active.paneId && sharesDirectionalEdge active candidate direction
      have hboth : ∀ candidate ∈ [bound, target], (candidate.paneId ≠ active.paneId &&
          sharesDirectionalEdge active candidate direction) = true := by
        intro candidate hcandidate
        rcases List.mem_pair.mp hcandidate with rfl | rfl
        · exact (List.mem_filter.mp hbound).2
        · exact (List.mem_filter.mp hmem).2
      rwa [List.filter_eq_self.mpr hboth] at hkept
  constructor
  · intro htouches other hother hbeyond
    have hne : target ≠ other := by
      rintro rfl
      exact hbeyond htouches
    refine ⟨target, hmem, htouches, ?_⟩
    obtain ⟨hle, hearlier⟩ := hfirst other hother
    rcases hle.lt_or_eq with hlt | heq
    · exact .inl hlt
    · have hlisted := (pair_sublist_or hmem hother hne).resolve_right (hearlier heq.symm hne)
      exact .inr ⟨heq, hlisted.trans List.filter_sublist⟩
  · intro hneighbours
    by_contra hbeyond
    obtain ⟨bound, hbound, htouches, hprecedes⟩ := hneighbours target hmem hbeyond
    apply hnearest bound hbound _ hprecedes
    rintro rfl
    exact hbeyond htouches

end Focus

/-- **Directional focus.** For every layout, pane and direction: the focus stays where it is at the
border of the layout only, and it moves to a pane that touches the active one if and only if no pane
farther beyond is taken before all that touch. -/
theorem movesToNeighbour_iff {layout : MuxTopologyLayoutNode} {panes : List MuxTopologyPane}
    {active : PaneBounds} (h : Drawn layout) (hactive : active ∈ muxPaneBounds layout 0 0 1 1)
    (hpanes : ∀ bound ∈ muxPaneBounds layout 0 0 1 1, ∃ pane ∈ panes, pane.paneId = bound.paneId)
    (direction : PaneDirection) : MovesToNeighbour layout panes active direction ↔
      NeighboursNearest layout active direction := by
  have hborder := @nearestDirectionalBound_eq_none_iff layout active direction h hactive
  unfold MovesToNeighbour
  rw [adjacentMuxPane_eq h hactive]
  cases hnearest : nearestDirectionalBound (muxPaneBounds layout 0 0 1 1) active direction with
  | none =>
    have hhere := hborder.mp hnearest
    constructor
    · intro _ other hother
      rw [candidates_of_atBorder h hhere] at hother
      exact nomatch hother
    · intro _
      exact ⟨nofun, fun _ => hhere, fun _ => rfl⟩
  | some target =>
    have hinside : ¬ AtBorder active direction := by
      intro hhere
      rw [hborder.mpr hhere] at hnearest
      exact nomatch hnearest
    have hcandidate : target ∈ candidates (muxPaneBounds layout 0 0 1 1) active direction :=
      (head?_insertionSort (List.Nodup.filter _ (List.Nodup.of_map _ h.distinct)) hnearest).1
    obtain ⟨hbound, -, -, hoverlaps⟩ := mem_candidates.mp hcandidate
    -- The panel knows the pane that is drawn there.
    obtain ⟨pane, hpane⟩ : ∃ pane, panes.find? (·.paneId = target.paneId) = some pane := by
      obtain ⟨pane, hpane, hid⟩ := hpanes target hbound
      exact Option.isSome_iff_exists.mp (List.find?_isSome.mpr ⟨pane, hpane, by simpa using hid⟩)
    have hid : pane.paneId = target.paneId := by simpa using List.find?_some hpane
    rw [Option.bind_some, hpane, ← nearest_touches_iff h hnearest]
    constructor
    · rintro ⟨hmoves, -⟩
      obtain ⟨bound, hmem, hsame, htouches, -⟩ := hmoves pane rfl
      obtain rfl := h.eq_of_paneId hbound hmem (hsame.trans hid)
      exact htouches
    · intro htouches
      refine ⟨fun other hother => ?_, nofun, fun hhere => absurd hhere hinside⟩
      obtain rfl := Option.some.inj hother
      exact ⟨target, hbound, hid.symm, htouches, hoverlaps⟩

section Layouts

def leafNode (paneId : String) : MuxTopologyLayoutNode := .node (some paneId) none none .null .null

def splitNode (direction : LayoutDirection) (ratio : ℚ) (first second : MuxTopologyLayoutNode) :
    MuxTopologyLayoutNode := .node none (some direction) (some ratio) first second

def namedPane (paneId : String) : MuxTopologyPane := ⟨paneId, paneId, paneId, false, 80, 24, 80, 24⟩

/-- A pane, and two on top of each other beside it. -/
def stackedBeside : MuxTopologyLayoutNode :=
  splitNode .horizontal (1 / 2) (leafNode "left")
    (splitNode .vertical (1 / 2) (leafNode "top") (leafNode "bottom"))

theorem drawn_stackedBeside : Drawn stackedBeside where
  tree := .split (.inl rfl) (by norm_num) (by norm_num) (.pane (by decide))
    (.split (.inl rfl) (by norm_num) (by norm_num) (.pane (by decide)) (.pane (by decide)))
  distinct := by decide +kernel
  roomy := by
    unfold Roomy
    decide +kernel

/-- From the left pane the focus moves to the upper of the two. -/
theorem movesToNeighbour_iff_stackedBeside : MovesToNeighbour stackedBeside
    [namedPane "left", namedPane "top", namedPane "bottom"] ⟨"left", 0, 0, 1 / 2, 1⟩ .right := by
  apply (movesToNeighbour_iff drawn_stackedBeside (by decide +kernel) (by decide +kernel) _).mpr
  intro other hother hbeyond
  exfalso
  apply hbeyond
  clear hbeyond
  unfold Touches
  revert other
  decide +kernel

/-- A narrow pane, two on top of each other in a narrow column beside it, and one that fills the
rest. -/
def narrowColumns : MuxTopologyLayoutNode :=
  splitNode .horizontal (1 / 10) (leafNode "left")
    (splitNode .horizontal (1 / 10)
      (splitNode .vertical (1 / 2) (leafNode "top") (leafNode "bottom")) (leafNode "rest"))

theorem drawn_narrowColumns : Drawn narrowColumns where
  tree := .split (.inl rfl) (by norm_num) (by norm_num) (.pane (by decide))
    (.split (.inl rfl) (by norm_num) (by norm_num)
      (.split (.inl rfl) (by norm_num) (by norm_num) (.pane (by decide)) (.pane (by decide)))
      (.pane (by decide)))
  distinct := by decide +kernel
  roomy := by
    unfold Roomy
    decide +kernel

/-- From the left pane the focus leaps over the column beside it. -/
theorem not_movesToNeighbour_narrowColumns : ¬ ∀ (layout : MuxTopologyLayoutNode)
    (panes : List MuxTopologyPane) (active : PaneBounds), Drawn layout →
    active ∈ muxPaneBounds layout 0 0 1 1 →
    (∀ bound ∈ muxPaneBounds layout 0 0 1 1, ∃ pane ∈ panes, pane.paneId = bound.paneId) →
      ∀ direction, MovesToNeighbour layout panes active direction := by
  intro hall
  have hmoves := (hall narrowColumns
    [namedPane "left", namedPane "top", namedPane "bottom", namedPane "rest"]
    ⟨"left", 0, 0, 1 / 10, 1⟩ drawn_narrowColumns (by decide +kernel) (by decide +kernel) .right).1
  obtain ⟨target, hbound, hid, htouches, -⟩ := hmoves (namedPane "rest") (by decide +kernel)
  have hrest : target = ⟨"rest", 19 / 100, 0, 81 / 100, 1⟩ :=
    drawn_narrowColumns.eq_of_paneId (by decide +kernel) hbound hid
  rw [hrest] at htouches
  revert htouches
  unfold Touches
  decide +kernel

end Layouts

end AgentCockpit.Renderer.PaneFocus
