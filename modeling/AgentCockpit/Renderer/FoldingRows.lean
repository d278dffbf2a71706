import AgentCockpit.Core.Comparator
import AgentCockpit.Core.Elision
import AgentCockpit.Core.Uncovered
import Mathlib.Data.Finset.Basic
import Mathlib.Data.List.Pairwise
import Mathlib.Data.Nat.Cast.Order.Ring

/-!
# Rows of a folded text

A text is shown line by line. Of a collapsed region the row of its header is shown, with a
placeholder and what stands behind the region in its last line; the lines between are hidden. A
region whose header is not behind all lines hidden so far gets no row, as regions do that lie within
a collapsed one.

## Main results

* `shows_iff` — **the text is shown exactly where the regions do not get in each other's lines**
-/

namespace AgentCockpit.Renderer.FoldingRows

open AgentCockpit.Core

/-- UTF-16 code units. -/
abbrev Units := List UInt16

def lf : UInt16 := 10

/-- A region of a text. What is behind its header can be folded away. -/
structure FoldRegion where
  start : ℕ
  headerEnd : ℕ
  stop : ℕ
  start_le : start ≤ headerEnd
  headerEnd_le : headerEnd ≤ stop
  deriving DecidableEq

/-! ### Lines -/

def lineStartOffsets (text : Units) : List ℕ :=
  0 :: (List.range text.length).filterMap fun i => if text[i]? = some lf then some (i + 1) else none

/-- The binary search for the last line that starts at or before an offset. -/
def searchLine (starts : List ℕ) (offset lo hi : ℕ) : ℕ :=
  if lo < hi then
    let mid := (lo + hi + 1) / 2
    if starts.getD mid 0 ≤ offset then searchLine starts offset mid hi
    else searchLine starts offset lo (mid - 1)
  else lo
termination_by hi - lo

def offsetToLine (starts : List ℕ) (offset : ℕ) : ℕ :=
  searchLine starts offset 0 (starts.length - 1)

/-- The line of the last unit in front of an end, but no line in front of that of an offset. -/
def lastTouchedLine (starts : List ℕ) (exclusiveEnd minOffset : ℕ) : ℕ :=
  offsetToLine starts (max minOffset (exclusiveEnd - 1))

/-! ### The projection -/

structure FoldedRow where
  line : ℕ
  region : FoldRegion
  prefixEnd : ℕ
  suffixStart : ℕ
  deriving DecidableEq

inductive FoldRow
  | line (index : ℕ)
  | folded (row : FoldedRow)
  deriving DecidableEq

def FoldRow.lineIndex : FoldRow → ℕ
  | .line index => index
  | .folded row => row.line

/-- By `start`, and by `end` from the last to the first. -/
def compareRegions : Comparator FoldRegion :=
  Comparator.thenBy (Comparator.comap (fun region => (region.start : ℚ)) Comparator.difference)
    (Comparator.comap (fun region => (region.stop : ℚ)) (Comparator.reverse Comparator.difference))

def headerLine (starts : List ℕ) (region : FoldRegion) : ℕ :=
  lastTouchedLine starts region.headerEnd region.start

def endLine (starts : List ℕ) (region : FoldRegion) : ℕ :=
  max (headerLine starts region) (lastTouchedLine starts region.stop region.headerEnd)

def foldedRow (starts : List ℕ) (region : FoldRegion) : FoldedRow where
  line := headerLine starts region
  region := region
  prefixEnd := region.headerEnd
  suffixStart := region.stop

/-- What the pass over the regions has found. -/
structure Folding where
  hidden : ℕ → Bool
  foldedAt : ℕ → Option FoldedRow
  hiddenUntil : ℤ

/-- The lines behind the header are hidden. -/
def Folding.hide (folding : Folding) (starts : List ℕ) (region : FoldRegion) : Folding where
  hidden l := folding.hidden l ||
    (headerLine starts region < l && l ≤ endLine starts region && l < starts.length)
  foldedAt := folding.foldedAt
  hiddenUntil := max folding.hiddenUntil (endLine starts region)

def Folding.pass (starts : List ℕ) (collapsed : Finset ℕ) (folding : Folding)
    (region : FoldRegion) :
    Folding :=
  if (headerLine starts region : ℤ) ≤ folding.hiddenUntil then
    if region.start ∈ collapsed then folding.hide starts region else folding
  else if region.start ∈ collapsed then
    let foldedAt := Function.update folding.foldedAt (headerLine starts region)
      (some (foldedRow starts region))
    { folding with foldedAt }.hide starts region
  else folding

def foldRegions (starts : List ℕ) (regions : List FoldRegion) (collapsed : Finset ℕ) : Folding :=
  (Comparator.sort compareRegions regions).foldl (Folding.pass starts collapsed)
    { hidden := fun _ => false, foldedAt := fun _ => none, hiddenUntil := -1 }

def Folding.rowAt (folding : Folding) (line : ℕ) : Option FoldRow :=
  match folding.foldedAt line with
  | some row => some (.folded row)
  | none => if folding.hidden line then none else some (.line line)

def visibleFoldRows (starts : List ℕ) (regions : List FoldRegion) (collapsed : Finset ℕ) :
    List FoldRow :=
  (List.range starts.length).filterMap (foldRegions starts regions collapsed).rowAt

/-! ### What a row shows -/

/-- Where a line starts; behind the last line, where the text ends. -/
def lineStart (text : Units) (line : ℕ) : ℕ := (lineStartOffsets text).getD line text.length

/-- A line with its line break. -/
def lineText (text : Units) (line : ℕ) : Units :=
  slice text (lineStart text line) (lineStart text (line + 1))

section FoldedRowContent

variable (content : Units) (starts : List ℕ) (row : FoldedRow)

def FoldedRow.prefixText : Units := slice content (starts.getD row.line 0) row.prefixEnd

def FoldedRow.suffixLine : ℕ := lastTouchedLine starts row.suffixStart (starts.getD row.line 0)

def FoldedRow.suffixLineEnd : ℕ :=
  if row.suffixLine starts + 1 < starts.length then starts.getD (row.suffixLine starts + 1) 0 - 1
  else content.length

def FoldedRow.suffix : Units := slice content row.suffixStart (row.suffixLineEnd content starts)

end FoldedRowContent

/-- What is left of the last line behind the suffix. -/
def FoldedRow.lineBreak (text : Units) (row : FoldedRow) : Units :=
  slice text (max row.suffixStart (row.suffixLineEnd text (lineStartOffsets text)))
    (lineStart text (row.suffixLine (lineStartOffsets text) + 1))

/-- A row with its line break. A placeholder stands for its region. -/
def render (text : Units) : FoldRow → List (UInt16 ⊕ FoldRegion)
  | .line index => (lineText text index).map .inl
  | .folded row =>
    (row.prefixText text (lineStartOffsets text)).map .inl ++
      .inr row.region :: (row.suffix text (lineStartOffsets text) ++ row.lineBreak text).map .inl

/-! ### What is meant to be shown -/

/-- A region lies within another one. -/
def FoldRegion.Contains (outer inner : FoldRegion) : Prop :=
  outer.start ≤ inner.start ∧ inner.stop ≤ outer.stop

instance : DecidableRel FoldRegion.Contains := fun _ _ => inferInstanceAs (Decidable (_ ∧ _))

theorem contains_refl (region : FoldRegion) : region.Contains region :=
  ⟨Nat.le_refl _, Nat.le_refl _⟩

def NestedOrDisjoint (a b : FoldRegion) : Prop :=
  a.Contains b ∨ b.Contains a ∨ a.stop ≤ b.start ∨ b.stop ≤ a.start

instance : DecidableRel NestedOrDisjoint := fun _ _ => inferInstanceAs (Decidable (_ ∨ _))

/-- Regions of a text that are nested or disjoint. -/
structure FoldModel (text : Units) where
  regions : List FoldRegion
  within : ∀ region ∈ regions, region.stop ≤ text.length
  laminar : regions.Pairwise NestedOrDisjoint

/-- The collapsed regions from left to right, the larger ones first. -/
def collapsedRegions (regions : List FoldRegion) (collapsed : Finset ℕ) : List FoldRegion :=
  (Comparator.sort compareRegions regions).filter (·.start ∈ collapsed)

/-- The collapsed regions that do not lie within others. -/
def outermost (regions : List FoldRegion) (collapsed : Finset ℕ) : List FoldRegion :=
  uncovered FoldRegion.Contains (collapsedRegions regions collapsed)

/-- The rows are in the order of their lines, and show the text with placeholders for the outermost
collapsed regions. -/
structure Shows (text : Units) (regions : List FoldRegion) (collapsed : Finset ℕ)
    (rows : List FoldRow) : Prop where
  ascending : (rows.map FoldRow.lineIndex).Pairwise (· < ·)
  source : rows.flatMap (render text) =
    elided FoldRegion.headerEnd FoldRegion.stop text 0 (outermost regions collapsed)

/-- The header of a region is not behind the last line of another one. -/
def Reaches (starts : List ℕ) (earlier region : FoldRegion) : Prop :=
  headerLine starts region ≤ endLine starts earlier

instance (starts : List ℕ) : DecidableRel (Reaches starts) := fun _ _ =>
  inferInstanceAs (Decidable (_ ≤ _))

/-- The last line of which a placeholder's row shows something. -/
def suffixLineOf (starts : List ℕ) (region : FoldRegion) : ℕ :=
  (foldedRow starts region).suffixLine starts

/-- Collapsed regions share lines only with regions in which they lie, and hide no other lines than
those of the outermost ones. -/
structure LinesApart (text : Units) (regions : List FoldRegion) (collapsed : Finset ℕ) : Prop where
  reached : ∀ earlier region, earlier ++ [region] <+: collapsedRegions regions collapsed →
    ((∃ other ∈ earlier, other.Contains region) ↔
      ∃ other ∈ earlier, Reaches (lineStartOffsets text) other region)
  hides : ∀ region ∈ collapsedRegions regions collapsed, ∀ line,
    headerLine (lineStartOffsets text) region < line →
    line ≤ endLine (lineStartOffsets text) region →
      lineText text line = [] ∨ ∃ outer ∈ outermost regions collapsed,
        headerLine (lineStartOffsets text) outer ≤ line ∧
          line ≤ suffixLineOf (lineStartOffsets text) outer

/-! ### The outermost regions -/

section Outermost

variable {regions : List FoldRegion} {collapsed : Finset ℕ} {region : FoldRegion}

end Outermost

/-! ### Lines of a text -/

section Lines

variable {text : Units} {starts : List ℕ} {offset line : ℕ}

theorem pairwise_lineStartOffsets (text : Units) : (lineStartOffsets text).Pairwise (· < ·) := by
  rw [lineStartOffsets, List.pairwise_cons, List.pairwise_filterMap]
  constructor
  · intro start hstart
    obtain ⟨i, -, hi⟩ := List.mem_filterMap.mp hstart
    split at hi
    · obtain rfl := Option.some.inj hi
      exact Nat.succ_pos i
    · exact absurd hi nofun
  · refine List.pairwise_lt_range.imp fun hlt start hstart start' hstart' => ?_
    split at hstart
    · split at hstart'
      · obtain rfl := Option.some.inj hstart
        obtain rfl := Option.some.inj hstart'
        exact Nat.succ_lt_succ hlt
      · exact absurd hstart' nofun
    · exact absurd hstart nofun

theorem le_length_of_mem_lineStartOffsets {start : ℕ} (h : start ∈ lineStartOffsets text) :
    start ≤ text.length := by
  rcases List.mem_cons.mp h with rfl | h
  · exact Nat.zero_le _
  · obtain ⟨i, hi, heq⟩ := List.mem_filterMap.mp h
    split at heq
    · obtain rfl := Option.some.inj heq
      exact List.mem_range.mp hi
    · exact absurd heq nofun

theorem lineStart_zero (text : Units) : lineStart text 0 = 0 := rfl

theorem lineStart_of_lt (h : line < (lineStartOffsets text).length) :
    lineStart text line = (lineStartOffsets text)[line] := by
  rw [lineStart, List.getD_eq_getElem?_getD, List.getElem?_eq_getElem h, Option.getD_some]

theorem lineStart_of_le (h : (lineStartOffsets text).length ≤ line) :
    lineStart text line = text.length := by
  rw [lineStart, List.getD_eq_getElem?_getD, List.getElem?_eq_none h, Option.getD_none]

theorem lineStart_le_length (text : Units) (line : ℕ) : lineStart text line ≤ text.length := by
  rcases Nat.lt_or_ge line (lineStartOffsets text).length with hlt | hge
  · rw [lineStart_of_lt hlt]
    exact le_length_of_mem_lineStartOffsets (List.getElem_mem hlt)
  · exact (lineStart_of_le hge).le

theorem monotone_lineStart (text : Units) : Monotone (lineStart text) := by
  refine monotone_nat_of_le_succ fun line => ?_
  rcases Nat.lt_or_ge (line + 1) (lineStartOffsets text).length with hlt | hge
  · rw [lineStart_of_lt hlt, lineStart_of_lt (Nat.lt_of_succ_lt hlt)]
    exact (List.pairwise_iff_getElem.mp (pairwise_lineStartOffsets text) _ _ _ _
      (Nat.lt_succ_self _)).le
  · rw [lineStart_of_le hge]
    exact lineStart_le_length text line

/-- The search ends with the last line that starts at or before the offset, if that is between the
two lines. -/
theorem searchLine_spec (offset : ℕ) (hstarts : starts.Pairwise (· < ·)) {lo hi : ℕ}
    (hlohi : lo ≤ hi)
    (hhi : hi < starts.length) (hlo : starts.getD lo 0 ≤ offset)
    (hbehind : ∀ j, hi < j → j < starts.length → offset < starts.getD j 0) :
    searchLine starts offset lo hi < starts.length ∧
      ∀ j < starts.length, starts.getD j 0 ≤ offset ↔ j ≤ searchLine starts offset lo hi := by
  induction lo, hi using searchLine.induct starts offset with
  | case1 lo hi hlt mid hmid ih =>
    rw [searchLine, if_pos hlt, if_pos hmid]
    exact ih (by omega) hhi hmid hbehind
  | case2 lo hi hlt mid hmid ih =>
    rw [searchLine, if_pos hlt, if_neg hmid]
    refine ih (by omega) (by omega) hlo fun j hj hlength => ?_
    have hle : starts.getD mid 0 ≤ starts.getD j 0 := by
      rcases Nat.eq_or_lt_of_le (show mid ≤ j by omega) with rfl | hlater
      · exact Nat.le_refl _
      · have := List.pairwise_iff_getElem.mp hstarts mid j (by omega) hlength hlater
        simp only [List.getD_eq_getElem?_getD, List.getElem?_eq_getElem hlength,
          List.getElem?_eq_getElem (show mid < starts.length by omega), Option.getD_some]
        omega
    omega
  | case3 lo hi hlt =>
    rw [searchLine, if_neg hlt]
    obtain rfl : lo = hi := by omega
    refine ⟨hhi, fun j hj => ⟨fun hle => ?_, fun hle => ?_⟩⟩
    · by_contra hlater
      have := hbehind j (by omega) hj
      omega
    · rcases Nat.eq_or_lt_of_le hle with rfl | hearlier
      · exact hlo
      · have := List.pairwise_iff_getElem.mp hstarts j lo hj hhi hearlier
        simp only [List.getD_eq_getElem?_getD, List.getElem?_eq_getElem hhi,
          List.getElem?_eq_getElem hj, Option.getD_some] at hlo ⊢
        omega

theorem offsetToLine_spec (text : Units) (offset : ℕ) :
    offsetToLine (lineStartOffsets text) offset < (lineStartOffsets text).length ∧
      ∀ line < (lineStartOffsets text).length,
        lineStart text line ≤ offset ↔ line ≤ offsetToLine (lineStartOffsets text) offset := by
  have hpos : 0 < (lineStartOffsets text).length := Nat.succ_pos _
  have hspec := searchLine_spec offset (pairwise_lineStartOffsets text)
    (Nat.zero_le ((lineStartOffsets text).length - 1)) (by omega) (Nat.zero_le _)
    fun j hj hlength => absurd hj (by omega)
  refine ⟨hspec.1, fun line hline => ?_⟩
  rw [lineStart_of_lt hline, offsetToLine, ← hspec.2 line hline, List.getD_eq_getElem?_getD,
    List.getElem?_eq_getElem hline, Option.getD_some]

theorem offsetToLine_lt (text : Units) (offset : ℕ) :
    offsetToLine (lineStartOffsets text) offset < (lineStartOffsets text).length :=
  (offsetToLine_spec text offset).1

theorem lineStart_offsetToLine_le (text : Units) (offset : ℕ) :
    lineStart text (offsetToLine (lineStartOffsets text) offset) ≤ offset :=
  ((offsetToLine_spec text offset).2 _ (offsetToLine_lt text offset)).mpr (Nat.le_refl _)

theorem le_offsetToLine (hline : line < (lineStartOffsets text).length)
    (h : lineStart text line ≤ offset) : line ≤ offsetToLine (lineStartOffsets text) offset :=
  ((offsetToLine_spec text offset).2 line hline).mp h

theorem lt_lineStart_succ (h : offset < text.length) :
    offset < lineStart text (offsetToLine (lineStartOffsets text) offset + 1) := by
  rcases Nat.lt_or_ge (offsetToLine (lineStartOffsets text) offset + 1)
    (lineStartOffsets text).length
    with hlt | hge
  · by_contra hle
    have := le_offsetToLine hlt (Nat.le_of_not_lt hle)
    omega
  · rwa [lineStart_of_le hge]

theorem monotone_offsetToLine (text : Units) : Monotone (offsetToLine (lineStartOffsets text)) :=
  fun _ _ hle => le_offsetToLine (offsetToLine_lt text _)
    ((lineStart_offsetToLine_le text _).trans hle)

end Lines

/-! ### Regions among the lines -/

section Regions

variable {text : Units} {region other : FoldRegion}

theorem lineStart_headerLine_le (text : Units) (region : FoldRegion) :
    lineStart text (headerLine (lineStartOffsets text) region) ≤ region.headerEnd := by
  have hle := lineStart_offsetToLine_le text (max region.start (region.headerEnd - 1))
  have := region.start_le
  exact hle.trans (by omega)

theorem headerLine_lt (text : Units) (region : FoldRegion) :
    headerLine (lineStartOffsets text) region < (lineStartOffsets text).length :=
  offsetToLine_lt text _

theorem endLine_eq (text : Units) (region : FoldRegion) : endLine (lineStartOffsets text) region =
    lastTouchedLine (lineStartOffsets text) region.stop region.headerEnd := by
  refine Nat.max_eq_right (monotone_offsetToLine text ?_)
  have := region.start_le
  have := region.headerEnd_le
  omega

theorem endLine_lt (text : Units) (region : FoldRegion) :
    endLine (lineStartOffsets text) region < (lineStartOffsets text).length := by
  rw [endLine_eq]
  exact offsetToLine_lt text _

theorem suffixLineOf_eq (text : Units) (region : FoldRegion) :
    suffixLineOf (lineStartOffsets text) region = offsetToLine (lineStartOffsets text)
      (max (lineStart text (headerLine (lineStartOffsets text) region)) (region.stop - 1)) := by
  rw [suffixLineOf, FoldedRow.suffixLine, lastTouchedLine,
    lineStart_of_lt (headerLine_lt text region),
    List.getD_eq_getElem?_getD]
  simp only [foldedRow]
  rw [List.getElem?_eq_getElem (headerLine_lt text region), Option.getD_some]

theorem suffixLineOf_le_endLine (text : Units) (region : FoldRegion) :
    suffixLineOf (lineStartOffsets text) region ≤ endLine (lineStartOffsets text) region := by
  rw [suffixLineOf_eq, endLine_eq]
  refine monotone_offsetToLine text ?_
  have := lineStart_headerLine_le text region
  omega

theorem headerLine_le_suffixLineOf (text : Units) (region : FoldRegion) :
    headerLine (lineStartOffsets text) region ≤ suffixLineOf (lineStartOffsets text) region := by
  rw [suffixLineOf_eq]
  exact le_offsetToLine (headerLine_lt text region) (Nat.le_max_left _ _)

/-- Among the lines a region begins with its header and ends with the suffix behind it. -/
theorem fits_lines (hstop : region.stop ≤ text.length) :
    Fits FoldRegion.headerEnd FoldRegion.stop (headerLine (lineStartOffsets text))
      (suffixLineOf (lineStartOffsets text)) (lineStart text) (lineStartOffsets text).length region
      where
  first_le_last := headerLine_le_suffixLineOf text region
  last_lt := by
    rw [suffixLineOf_eq]
    exact offsetToLine_lt text _
  le_start := lineStart_headerLine_le text region
  stop_le := by
    rw [suffixLineOf_eq]
    have hle := lineStart_headerLine_le text region
    have hheader := region.headerEnd_le
    generalize hline : headerLine (lineStartOffsets text) region = line at hle ⊢
    generalize hoffset : max (lineStart text line) (region.stop - 1) = offset
    rcases Nat.lt_or_ge offset text.length with hlt | hge
    · have := lt_lineStart_succ hlt
      omega
    · -- The header ends where the text does, at the start of a last line.
      have hlater : line ≤ offsetToLine (lineStartOffsets text) offset :=
        le_offsetToLine (hline ▸ headerLine_lt text region) (hoffset ▸ Nat.le_max_left _ _)
      have hstart := monotone_lineStart text (Nat.le_add_right_of_le (k := 1) hlater)
      omega

/-- The suffix is what is left of the last line, without its line break. -/
theorem suffix_append_lineBreak (text : Units) (row : FoldedRow) :
    row.suffix text (lineStartOffsets text) ++ row.lineBreak text =
      slice text row.suffixStart (lineStart text (row.suffixLine (lineStartOffsets text) + 1)) := by
  rw [FoldedRow.suffix, FoldedRow.lineBreak]
  have hle : row.suffixLineEnd text (lineStartOffsets text) ≤
      lineStart text (row.suffixLine (lineStartOffsets text) + 1) := by
    rw [FoldedRow.suffixLineEnd]
    split
    · next hlt =>
      rw [lineStart_of_lt hlt, List.getD_eq_getElem?_getD, List.getElem?_eq_getElem hlt,
        Option.getD_some]
      exact Nat.sub_le _ _
    · next hge => rw [lineStart_of_le (Nat.le_of_not_lt hge)]
  rcases Nat.le_total row.suffixStart (row.suffixLineEnd text (lineStartOffsets text))
    with hfront | hbehind
  · rw [Nat.max_eq_right hfront, slice_append_slice text hfront hle]
  · rw [Nat.max_eq_left hbehind, slice_eq_nil hbehind, List.nil_append]

theorem render_foldedRow (text : Units) (region : FoldRegion) :
    render text (.folded (foldedRow (lineStartOffsets text) region)) =
      (slice text (lineStart text (headerLine (lineStartOffsets text) region))
        region.headerEnd).map .inl ++
        .inr region :: (slice text region.stop
          (lineStart text (suffixLineOf (lineStartOffsets text) region + 1))).map .inl := by
  rw [render, suffix_append_lineBreak, FoldedRow.prefixText,
    lineStart_of_lt (headerLine_lt text region)]
  simp only [foldedRow, List.getD_eq_getElem?_getD,
    List.getElem?_eq_getElem (headerLine_lt text region), Option.getD_some]
  rfl

end Regions

/-! ### The pass over the regions -/

section Pass

variable {starts : List ℕ} {collapsed : Finset ℕ} {region : FoldRegion}
  {done regions : List FoldRegion}
  {folding : Folding}

/-- What the pass has found, given the collapsed regions among those it has seen. -/
structure Folds (starts : List ℕ) (done : List FoldRegion) (folding : Folding) : Prop where
  hidden : ∀ line, folding.hidden line = true ↔ line < starts.length ∧
    ∃ region ∈ done, headerLine starts region < line ∧ line ≤ endLine starts region
  foldedAt : ∀ line, folding.foldedAt line =
    ((uncovered (Reaches starts) done).find? (headerLine starts · = line)).map (foldedRow starts)
  hiddenUntil : ∀ line : ℕ, (line : ℤ) ≤ folding.hiddenUntil ↔
    ∃ region ∈ done, line ≤ endLine starts region

theorem reaches_self (starts : List ℕ) (region : FoldRegion) : Reaches starts region region :=
  Nat.le_max_left _ _

theorem pass_of_notMem (h : region.start ∉ collapsed) :
    folding.pass starts collapsed region = folding := by
  rw [Folding.pass, if_neg h, if_neg h, ite_self]

theorem Folds.hidden_hide (h : Folds starts done folding) (line : ℕ) :
    (folding.hide starts region).hidden line = true ↔ line < starts.length ∧
      ∃ other ∈ done ++ [region], headerLine starts other < line ∧ line ≤ endLine starts other := by
  simp only [Folding.hide, Bool.or_eq_true, Bool.and_eq_true, decide_eq_true_eq, h.hidden line,
    List.mem_append, List.mem_singleton, or_and_right, exists_or, exists_eq_left]
  rw [and_or_left, and_comm (b := line < starts.length)]

theorem Folds.hiddenUntil_hide (h : Folds starts done folding) (line : ℕ) :
    (line : ℤ) ≤ (folding.hide starts region).hiddenUntil ↔
      ∃ other ∈ done ++ [region], line ≤ endLine starts other := by
  simp only [Folding.hide, le_max_iff, h.hiddenUntil line, Int.ofNat_le, List.mem_append,
    List.mem_singleton, or_and_right, exists_or, exists_eq_left]

/-- **One step of the pass**, at a collapsed region. -/
theorem Folds.pass (h : Folds starts done folding) (hcollapsed : region.start ∈ collapsed) :
    Folds starts (done ++ [region]) (folding.pass starts collapsed region) := by
  have hreached : (headerLine starts region : ℤ) ≤ folding.hiddenUntil ↔
      ∃ other ∈ done, Reaches starts other region := h.hiddenUntil _
  rw [Folding.pass, if_pos hcollapsed, if_pos hcollapsed]
  split
  · next hle =>
    exact {
      hidden := h.hidden_hide
      foldedAt := fun line => by
        rw [uncovered_concat, if_pos (hreached.mp hle), List.append_nil]
        exact h.foldedAt line
      hiddenUntil := h.hiddenUntil_hide }
  · next hlt =>
    exact {
      hidden := h.hidden_hide
      foldedAt := fun line => by
        rw [uncovered_concat, if_neg (hreached.not.mp hlt), List.find?_append]
        rcases eq_or_ne (headerLine starts region) line with rfl | hne
        · have hnone : (uncovered (Reaches starts) done).find?
              (headerLine starts · = headerLine starts region) = none := by
            refine List.find?_eq_none.mpr fun other hother heq => hlt (hreached.mpr ?_)
            refine ⟨other, mem_of_mem_uncovered hother, ?_⟩
            exact (of_decide_eq_true heq).ge.trans (reaches_self starts other)
          rw [hnone]
          simp [Folding.hide]
        · simp [Folding.hide, Function.update_of_ne hne.symm, hne, h.foldedAt line]
      hiddenUntil := h.hiddenUntil_hide }

theorem Folds.foldl (h : Folds starts done folding) (regions : List FoldRegion) :
    Folds starts (done ++ regions.filter (·.start ∈ collapsed))
      (regions.foldl (Folding.pass starts collapsed) folding) := by
  induction regions generalizing done folding with
  | nil =>
    rw [List.filter_nil, List.append_nil]
    exact h
  | cons region regions ih =>
    rw [List.foldl_cons]
    by_cases hcollapsed : region.start ∈ collapsed
    · rw [List.filter_cons_of_pos (by simpa using hcollapsed), List.append_cons]
      exact ih (h.pass hcollapsed)
    · rw [List.filter_cons_of_neg (by simpa using hcollapsed), pass_of_notMem hcollapsed]
      exact ih h

/-- The whole pass. -/
theorem folds_foldRegions (starts : List ℕ) (regions : List FoldRegion) (collapsed : Finset ℕ) :
    Folds starts (collapsedRegions regions collapsed) (foldRegions starts regions collapsed) := by
  have hinit : Folds starts []
      { hidden := fun _ => false, foldedAt := fun _ => none, hiddenUntil := -1 } := {
    hidden := fun line => by simp
    foldedAt := fun line => rfl
    hiddenUntil := fun line => by
      simp only [List.not_mem_nil, false_and, exists_false, iff_false]
      omega }
  exact hinit.foldl _

/-- The headers of the regions that get a row are behind the last lines of those before them. -/
theorem pairwise_rows (starts : List ℕ) (regions : List FoldRegion) :
    (uncovered (Reaches starts) regions).Pairwise fun a b =>
      endLine starts a < headerLine starts b :=
  pairwise_uncovered.imp fun h => Nat.lt_of_not_le h

/-- At the header of a region that gets a row, this row is found. -/
theorem Folds.foldedAt_headerLine (h : Folds starts done folding)
    (hregion : region ∈ uncovered (Reaches starts) done) :
    folding.foldedAt (headerLine starts region) = some (foldedRow starts region) := by
  have hnodup : ((uncovered (Reaches starts) done).map (headerLine starts)).Nodup := by
    refine List.pairwise_map.mpr ((pairwise_rows starts done).imp fun {a b} hlt => ?_)
    exact ((Nat.le_max_left _ _).trans_lt hlt).ne
  rw [h.foldedAt]
  rcases hfind : (uncovered (Reaches starts) done).find?
    (headerLine starts · = headerLine starts region) with _ | other
  · exact absurd (decide_eq_true rfl) (List.find?_eq_none.mp hfind region hregion)
  · have heq : headerLine starts other = headerLine starts region := by
      simpa using List.find?_some hfind
    rw [List.inj_on_of_nodup_map hnodup (List.mem_of_find?_eq_some hfind) hregion heq]
    rfl

theorem Folds.foldedAt_eq_none (h : Folds starts done folding) {line : ℕ}
    (hfree : ∀ region ∈ uncovered (Reaches starts) done, headerLine starts region ≠ line) :
    folding.foldedAt line = none := by
  rw [h.foldedAt, Option.map_eq_none_iff, List.find?_eq_none]
  exact fun region hregion heq => hfree region hregion (of_decide_eq_true heq)

end Pass

/-! ### What the rows show -/

section Rendering

variable {text : Units} {regions : List FoldRegion} {collapsed : Finset ℕ} {line : ℕ}

/-- The collapsed regions that get a row. -/
def rowRegions (text : Units) (regions : List FoldRegion) (collapsed : Finset ℕ) :
    List FoldRegion :=
  uncovered (Reaches (lineStartOffsets text)) (collapsedRegions regions collapsed)

/-- What stands in the place of a line. -/
def shownAt (text : Units) (regions : List FoldRegion) (collapsed : Finset ℕ) (line : ℕ) :
    List (UInt16 ⊕ FoldRegion) :=
  ((foldRegions (lineStartOffsets text) regions collapsed).rowAt line).elim [] (render text)

/-- A line is shown in part in the row of a region, or replaced by the placeholder. -/
def Replaced (text : Units) (regions : List FoldRegion) (collapsed : Finset ℕ) (line : ℕ) : Prop :=
  ∃ region ∈ rowRegions text regions collapsed, headerLine (lineStartOffsets text) region ≤ line ∧
    line ≤ suffixLineOf (lineStartOffsets text) region

instance : Decidable (Replaced text regions collapsed line) :=
  inferInstanceAs (Decidable (∃ _ ∈ _, _))

def Hides (text : Units) (regions : List FoldRegion) (collapsed : Finset ℕ) (line : ℕ) : Prop :=
  ∃ region ∈ collapsedRegions regions collapsed, headerLine (lineStartOffsets text) region < line ∧
    line ≤ endLine (lineStartOffsets text) region

instance : Decidable (Hides text regions collapsed line) := inferInstanceAs (Decidable (∃ _ ∈ _, _))

/-- A line that no row replaces, shown even where it is hidden. -/
def fullyShownAt (text : Units) (regions : List FoldRegion) (collapsed : Finset ℕ) (line : ℕ) :
    List (UInt16 ⊕ FoldRegion) :=
  if Replaced text regions collapsed line then shownAt text regions collapsed line
  else (lineText text line).map .inl

theorem flatMap_render (text : Units) (regions : List FoldRegion) (collapsed : Finset ℕ) :
    (visibleFoldRows (lineStartOffsets text) regions collapsed).flatMap (render text) =
      (List.range (lineStartOffsets text).length).flatMap (shownAt text regions collapsed) := by
  rw [visibleFoldRows, List.filterMap_eq_flatMap_toList, List.flatMap_assoc]
  refine List.flatMap_congr fun line _ => ?_
  rw [shownAt]
  cases (foldRegions (lineStartOffsets text) regions collapsed).rowAt line with
  | none => rfl
  | some row => exact List.flatMap_singleton (render text) row

theorem eq_or_apart {a b : FoldRegion} (ha : a ∈ rowRegions text regions collapsed)
    (hb : b ∈ rowRegions text regions collapsed) : a = b ∨
      endLine (lineStartOffsets text) a < headerLine (lineStartOffsets text) b ∨
        endLine (lineStartOffsets text) b < headerLine (lineStartOffsets text) a := by
  rcases eq_or_ne a b with heq | hne
  · exact .inl heq
  · have hrows := pairwise_rows (lineStartOffsets text) (collapsedRegions regions collapsed)
    exact .inr ((before_or_before ha hb hne).imp hrows.forall_sublist hrows.forall_sublist)

theorem shownAt_headerLine {region : FoldRegion} (h : region ∈ rowRegions text regions collapsed) :
    shownAt text regions collapsed (headerLine (lineStartOffsets text) region) =
      render text (.folded (foldedRow (lineStartOffsets text) region)) := by
  rw [shownAt, Folding.rowAt,
    (folds_foldRegions (lineStartOffsets text) regions collapsed).foldedAt_headerLine h]
  rfl

theorem shownAt_of_free
    (hfree : ∀ region ∈ rowRegions text regions collapsed,
      headerLine (lineStartOffsets text) region ≠ line)
    (hline : line < (lineStartOffsets text).length) :
    shownAt text regions collapsed line =
      if Hides text regions collapsed line then [] else (lineText text line).map .inl := by
  have hfolds := folds_foldRegions (lineStartOffsets text) regions collapsed
  have hhidden : (foldRegions (lineStartOffsets text) regions collapsed).hidden line = true ↔
      Hides text regions collapsed line :=
    (hfolds.hidden line).trans (and_iff_right hline)
  rw [shownAt, Folding.rowAt, hfolds.foldedAt_eq_none hfree]
  simp only [hhidden]
  split
  · rfl
  · rfl

/-- The other lines that a row replaces are not shown. -/
theorem shownAt_of_replaced {region : FoldRegion} (h : region ∈ rowRegions text regions collapsed)
    (hheader : headerLine (lineStartOffsets text) region < line)
    (hsuffix : line ≤ suffixLineOf (lineStartOffsets text) region) :
    shownAt text regions collapsed line = [] := by
  have hend := hsuffix.trans (suffixLineOf_le_endLine text region)
  rw [shownAt_of_free _ (hend.trans_lt (endLine_lt text region)),
    if_pos ⟨region, mem_of_mem_uncovered h, hheader, hend⟩]
  rintro other hother rfl
  have := reaches_self (lineStartOffsets text) region
  have hself := reaches_self (lineStartOffsets text) other
  rw [Reaches] at this hself
  rcases eq_or_apart hother h with rfl | hlt | hlt
  · omega
  · omega
  · omega

theorem shownAt_of_not_replaced (h : ¬ Replaced text regions collapsed line)
    (hline : line < (lineStartOffsets text).length) :
    shownAt text regions collapsed line =
      if Hides text regions collapsed line then [] else (lineText text line).map .inl := by
  refine shownAt_of_free (fun region hregion heq => h ⟨region, hregion, heq.le, ?_⟩) hline
  exact heq.ge.trans (headerLine_le_suffixLineOf text region)

theorem inRows_fullyShownAt (text : Units) (regions : List FoldRegion) (collapsed : Finset ℕ) :
    InRows FoldRegion.headerEnd FoldRegion.stop (headerLine (lineStartOffsets text))
      (suffixLineOf (lineStartOffsets text)) text (lineStart text) (lineStartOffsets text).length
      (fullyShownAt text regions collapsed) 0 (rowRegions text regions collapsed) where
  marked region hregion := by
    rw [fullyShownAt,
      if_pos ⟨region, hregion, Nat.le_refl _, headerLine_le_suffixLineOf text region⟩,
      shownAt_headerLine hregion, render_foldedRow]
  hidden region hregion line hheader hsuffix := by
    rw [fullyShownAt, if_pos ⟨region, hregion, hheader.le, hsuffix⟩,
      shownAt_of_replaced hregion hheader hsuffix]
  plain line _ _ hfree := by
    rw [fullyShownAt, if_neg]
    · rfl
    · rintro ⟨region, hregion, hheader, hsuffix⟩
      have := hfree region hregion
      omega

/-- **If nothing else were hidden**, the regions with a row would be replaced in the text. -/
theorem flatMap_fullyShownAt (collapsed : Finset ℕ)
    (hwithin : ∀ region ∈ regions, region.stop ≤ text.length) :
    (List.range (lineStartOffsets text).length).flatMap (fullyShownAt text regions collapsed) =
      elided FoldRegion.headerEnd FoldRegion.stop text 0 (rowRegions text regions collapsed) := by
  have hfits : ∀ region ∈ rowRegions text regions collapsed,
      Fits FoldRegion.headerEnd FoldRegion.stop
      (headerLine (lineStartOffsets text)) (suffixLineOf (lineStartOffsets text)) (lineStart text)
      (lineStartOffsets text).length region := by
    intro region hregion
    have hcollapsed := (List.mem_filter.mp (mem_of_mem_uncovered hregion)).1
    exact fits_lines (hwithin region (Comparator.mem_sort.mp hcollapsed))
  have hapart : (rowRegions text regions collapsed).Pairwise fun a b =>
      suffixLineOf (lineStartOffsets text) a < headerLine (lineStartOffsets text) b :=
    (pairwise_rows _ _).imp fun hlt => (suffixLineOf_le_endLine text _).trans_lt hlt
  rw [← lineStart_zero text, List.range_eq_range']
  exact flatMap_eq_elided (monotone_lineStart text) (lineStart_of_le (Nat.le_refl _)) hfits hapart
    (fun _ _ => Nat.zero_le _) (Nat.zero_le _) (inRows_fullyShownAt text regions collapsed)

/-- Nothing is shown of a line that the source does not have, and no placeholder is lost. -/
theorem shownAt_sublist (hline : line < (lineStartOffsets text).length) :
    (shownAt text regions collapsed line).Sublist (fullyShownAt text regions collapsed line) ∧
      (shownAt text regions collapsed line).filterMap Sum.getRight? =
        (fullyShownAt text regions collapsed line).filterMap Sum.getRight? := by
  by_cases hreplaced : Replaced text regions collapsed line
  · rw [fullyShownAt, if_pos hreplaced]
    exact ⟨List.Sublist.refl _, rfl⟩
  · rw [fullyShownAt, if_neg hreplaced, shownAt_of_not_replaced hreplaced hline]
    split
    · refine ⟨List.nil_sublist _, ?_⟩
      rw [List.filterMap_nil, List.filterMap_map]
      exact (List.filterMap_eq_nil_iff.mpr fun _ _ => rfl).symm
    · exact ⟨List.Sublist.refl _, rfl⟩

theorem shownAt_eq_iff (hline : line < (lineStartOffsets text).length) :
    shownAt text regions collapsed line = fullyShownAt text regions collapsed line ↔
      (Hides text regions collapsed line →
        lineText text line = [] ∨ Replaced text regions collapsed line) := by
  by_cases hreplaced : Replaced text regions collapsed line
  · rw [fullyShownAt, if_pos hreplaced]
    exact iff_of_true rfl fun _ => .inr hreplaced
  · rw [fullyShownAt, if_neg hreplaced, shownAt_of_not_replaced hreplaced hline]
    split
    · next hhides =>
      rw [eq_comm, List.map_eq_nil_iff]
      simp only [hhides, hreplaced, or_false, forall_const]
    · next hshown => exact iff_of_true rfl fun hhides => absurd hhides hshown

/-- What the rows show is the text with its placeholders if and only if the outermost regions get
rows, and no line is hidden that these do not replace. -/
theorem render_eq_iff (hwithin : ∀ region ∈ regions, region.stop ≤ text.length) :
    (visibleFoldRows (lineStartOffsets text) regions collapsed).flatMap (render text) =
        elided FoldRegion.headerEnd FoldRegion.stop text 0 (outermost regions collapsed) ↔
      outermost regions collapsed = rowRegions text regions collapsed ∧
        ∀ line < (lineStartOffsets text).length, Hides text regions collapsed line →
          lineText text line = [] ∨ Replaced text regions collapsed line := by
  have hfull := flatMap_fullyShownAt collapsed hwithin
  have hlines : (List.range (lineStartOffsets text).length).flatMap
        (shownAt text regions collapsed) =
      (List.range (lineStartOffsets text).length).flatMap (fullyShownAt text regions collapsed) ↔
        ∀ line < (lineStartOffsets text).length, Hides text regions collapsed line →
          lineText text line = [] ∨ Replaced text regions collapsed line := by
    rw [flatMap_eq_iff_of_sublist fun line hline => (shownAt_sublist (List.mem_range.mp hline)).1]
    simp only [List.mem_range]
    exact forall₂_congr fun line hline => shownAt_eq_iff hline
  rw [flatMap_render]
  constructor
  · intro heq
    -- The placeholders alone tell which regions got rows.
    have hmarks := congrArg (List.filterMap Sum.getRight?) heq
    have hfullMarks := congrArg (List.filterMap Sum.getRight?) hfull
    rw [List.filterMap_flatMap, filterMap_elided] at hmarks hfullMarks
    have hrows : outermost regions collapsed = rowRegions text regions collapsed := by
      rw [← hmarks, ← hfullMarks]
      exact List.flatMap_congr fun line hline => (shownAt_sublist (List.mem_range.mp hline)).2
    refine ⟨hrows, hlines.mp ?_⟩
    rw [heq, hfull, hrows]
  · rintro ⟨hrows, hshown⟩
    rw [hlines.mpr hshown, hfull, hrows]

theorem ascending_visibleFoldRows (starts : List ℕ) (regions : List FoldRegion)
    (collapsed : Finset ℕ) :
    ((visibleFoldRows starts regions collapsed).map FoldRow.lineIndex).Pairwise (· < ·) := by
  have hfolds := folds_foldRegions starts regions collapsed
  have hline {line : ℕ} {row : FoldRow}
      (h : (foldRegions starts regions collapsed).rowAt line = some row) :
      row.lineIndex = line := by
    rw [Folding.rowAt, hfolds.foldedAt] at h
    split at h
    · next folded hfolded =>
      obtain ⟨region, hregion, rfl⟩ := Option.map_eq_some_iff.mp hfolded
      obtain rfl := Option.some.inj h
      have hheader : headerLine starts region = line := by simpa using List.find?_some hregion
      exact hheader
    · split at h
      · exact absurd h nofun
      · obtain rfl := Option.some.inj h
        rfl
  rw [visibleFoldRows, List.pairwise_map, List.pairwise_filterMap]
  refine List.pairwise_lt_range.imp fun hlt row hrow row' hrow' => ?_
  rwa [hline hrow, hline hrow']

end Rendering

/-- **The rows show the text** with placeholders for the outermost collapsed regions if and only if
collapsed regions do not get in each other's lines. -/
theorem shows_iff {text : Units} (model : FoldModel text) (collapsed : Finset ℕ) :
    Shows text model.regions collapsed
        (visibleFoldRows (lineStartOffsets text) model.regions collapsed) ↔
      LinesApart text model.regions collapsed := by
  have hrows : outermost model.regions collapsed = rowRegions text model.regions collapsed ↔
      ∀ earlier region, earlier ++ [region] <+: collapsedRegions model.regions collapsed →
        ((∃ other ∈ earlier, other.Contains region) ↔
          ∃ other ∈ earlier, Reaches (lineStartOffsets text) other region) :=
    uncovered_eq_iff contains_refl (reaches_self (lineStartOffsets text))
  constructor
  · intro h
    obtain ⟨heq, hshown⟩ := (render_eq_iff model.within).mp h.source
    refine ⟨hrows.mp heq, fun region hregion line hheader hend => ?_⟩
    rw [heq]
    exact hshown line (hend.trans_lt (endLine_lt text region)) ⟨region, hregion, hheader, hend⟩
  · intro h
    have heq := hrows.mpr h.reached
    refine ⟨ascending_visibleFoldRows _ _ _, (render_eq_iff model.within).mpr ⟨heq, ?_⟩⟩
    rintro line - ⟨region, hregion, hheader, hend⟩
    have hhides := h.hides region hregion line hheader hend
    rwa [heq] at hhides

/-! ### Two regions that share a line -/

/-- `[{`, `}, {`, `}]` -/
def sharedLineText : Units := [91, 123, 10, 125, 44, 32, 123, 10, 125, 93]

/-- The array and its two objects. -/
def sharedLine : FoldModel sharedLineText where
  regions := [⟨0, 1, 10, by decide, by decide⟩, ⟨1, 2, 4, by decide, by decide⟩,
    ⟨6, 7, 9, by decide, by decide⟩]
  within := by decide
  laminar := by decide

/-- Where both objects are collapsed, the second one is lost with what stands behind it. -/
theorem not_shows_sharedLine : ¬ Shows sharedLineText sharedLine.regions {1, 6}
    (visibleFoldRows (lineStartOffsets sharedLineText) sharedLine.regions {1, 6}) := by
  intro h
  exact absurd h.source (by decide +kernel)

end AgentCockpit.Renderer.FoldingRows
