import AgentCockpit.Core.Run
import AgentCockpit.Renderer.FoldingRows

/-!
# The line of an offset

The line of an offset is the number of newlines in front of it. It is found in the array of the
line starts by a binary search whose middle is rounded up, so that either bound moves in each turn.

## Main results

* `offset_to_line` — **offsets have the lines of the newlines in front of them**
-/

namespace AgentCockpit.Renderer.FoldingRows

open AgentCockpit.Core

def newlinesBefore (text : Units) (offset : ℕ) : ℕ := (text.take offset).count lf

/-- The bounds of the search. -/
structure Bounds where
  lo : ℕ
  hi : ℕ
  deriving DecidableEq

namespace Bounds

/-- The entry that a turn reads. -/
def mid (bounds : Bounds) : ℕ := (bounds.lo + bounds.hi + 1) / 2

/-- A turn of the loop, unless it has ended. An entry that the array does not have is not at or
before the offset. -/
def turn (starts : List ℕ) (offset : ℕ) (bounds : Bounds) (_ : Unit) : Option Bounds :=
  if bounds.lo < bounds.hi then
    if starts[bounds.mid]?.any (· ≤ offset) then some { bounds with lo := bounds.mid }
    else some { bounds with hi := bounds.mid - 1 }
  else none

def full (starts : List ℕ) : Bounds := ⟨0, starts.length - 1⟩

/-- The bounds are entries of the array. -/
structure Within (starts : List ℕ) (bounds : Bounds) : Prop where
  le : bounds.lo ≤ bounds.hi
  lt : bounds.hi < starts.length

end Bounds

/-- The search reads entries of the array only, takes fewer turns than the array has entries, and
ends at a line. -/
structure Searches (starts : List ℕ) (offset line : ℕ) : Prop where
  reads : ∀ bounds, Core.Reaches (Bounds.turn starts offset) Always (.full starts) bounds →
    bounds.lo < bounds.hi → bounds.mid < starts.length
  bounded : ∀ turns bounds, Run (Bounds.turn starts offset) Always (.full starts) turns bounds →
    turns.length < starts.length
  ends : ∃ bounds, Core.Reaches (Bounds.turn starts offset) Always (.full starts) bounds ∧
    bounds.turn starts offset () = none ∧ bounds.lo = line

/-! ### The search -/

namespace Bounds

variable {starts : List ℕ} {offset : ℕ} {bounds next : Bounds} {turns : List Unit}

theorem Within.full (h : starts ≠ []) : (full starts).Within starts where
  le := Nat.zero_le _
  lt := Nat.sub_one_lt (List.length_pos_iff.mpr h).ne'

theorem Within.mid_lt (h : bounds.Within starts) (hlt : bounds.lo < bounds.hi) :
    bounds.mid < starts.length := by
  have := h.lt
  rw [mid]
  omega

/-- What a turn does: one of the bounds moves past the middle. -/
theorem Within.turn_eq_some (h : bounds.Within starts) {a : Unit}
    (hturn : bounds.turn starts offset a = some next) :
    next.Within starts ∧ next.hi - next.lo < bounds.hi - bounds.lo := by
  obtain ⟨hle, hlt⟩ := h
  rw [turn] at hturn
  split at hturn
  · next hlohi =>
    -- the middle is rounded up, so it is never the lower bound
    have hmid : bounds.lo < bounds.mid ∧ bounds.mid ≤ bounds.hi := by
      rw [mid]
      omega
    split at hturn
    · obtain rfl := Option.some.inj hturn
      refine ⟨⟨hmid.2, hlt⟩, ?_⟩
      dsimp only
      omega
    · obtain rfl := Option.some.inj hturn
      refine ⟨⟨Nat.le_sub_one_of_lt hmid.1, ?_⟩, ?_⟩ <;> dsimp only <;> omega
  · cases hturn

theorem Within.reaches (h : bounds.Within starts)
    (hreach : Core.Reaches (turn starts offset) Always bounds next) : next.Within starts :=
  Core.Reaches.invariant (fun _ _ _ hwithin _ hturn => (Within.turn_eq_some hwithin hturn).1)
    hreach h

theorem Within.length_add_le (h : bounds.Within starts)
    (hrun : Run (turn starts offset) Always bounds turns next) :
    turns.length + (next.hi - next.lo) ≤ bounds.hi - bounds.lo := by
  induction hrun with
  | nil => rw [List.length_nil, Nat.zero_add]
  | cons _ hstep _ ih =>
    obtain ⟨hwithin, hless⟩ := h.turn_eq_some hstep
    have := ih hwithin
    rw [List.length_cons]
    omega

/-- The search ends with both bounds at its result. -/
theorem Within.run (h : bounds.Within starts) :
    Core.Reaches (turn starts offset) Always bounds
      ⟨searchLine starts offset bounds.lo bounds.hi,
        searchLine starts offset bounds.lo bounds.hi⟩ := by
  obtain ⟨lo, hi⟩ := bounds
  induction lo, hi using searchLine.induct starts offset with
  | case1 lo hi hlt mid hmid ih =>
    -- the turn reads inside the array, so it takes the branch that the search takes
    have hin : mid < starts.length := h.mid_lt hlt
    have hturn : turn starts offset ⟨lo, hi⟩ () = some ⟨mid, hi⟩ := by
      rw [List.getD_eq_getElem?_getD, List.getElem?_eq_getElem hin, Option.getD_some] at hmid
      have hread : starts[(⟨lo, hi⟩ : Bounds).mid]?.any (· ≤ offset) = true := by
        rw [show (⟨lo, hi⟩ : Bounds).mid = mid from rfl, List.getElem?_eq_getElem hin]
        exact decide_eq_true hmid
      rw [turn, if_pos hlt, if_pos hread]
      rfl
    obtain ⟨turns, hrun⟩ := ih (h.turn_eq_some hturn).1
    rw [searchLine, if_pos hlt, if_pos hmid]
    exact ⟨() :: turns, .cons trivial hturn hrun⟩
  | case2 lo hi hlt mid hmid ih =>
    have hin : mid < starts.length := h.mid_lt hlt
    have hturn : turn starts offset ⟨lo, hi⟩ () = some ⟨lo, mid - 1⟩ := by
      rw [List.getD_eq_getElem?_getD, List.getElem?_eq_getElem hin, Option.getD_some] at hmid
      have hread : ¬ starts[(⟨lo, hi⟩ : Bounds).mid]?.any (· ≤ offset) = true := by
        rw [show (⟨lo, hi⟩ : Bounds).mid = mid from rfl, List.getElem?_eq_getElem hin]
        exact fun hle => hmid (of_decide_eq_true hle)
      rw [turn, if_pos hlt, if_neg hread]
      rfl
    obtain ⟨turns, hrun⟩ := ih (h.turn_eq_some hturn).1
    rw [searchLine, if_pos hlt, if_neg hmid]
    exact ⟨() :: turns, .cons trivial hturn hrun⟩
  | case3 lo hi hlt =>
    obtain rfl : lo = hi := Nat.le_antisymm h.le (Nat.le_of_not_lt hlt)
    rw [searchLine, if_neg hlt]
    exact ⟨[], .nil _⟩

end Bounds

theorem searches_offsetToLine {starts : List ℕ} (h : starts ≠ []) (offset : ℕ) :
    Searches starts offset (offsetToLine starts offset) where
  reads _ hreach hlt := ((Bounds.Within.full h).reaches hreach).mid_lt hlt
  bounded turns bounds hrun := by
    have hpos := List.length_pos_iff.mpr h
    have hle := (Bounds.Within.full h).length_add_le hrun
    dsimp only [Bounds.full] at hle
    omega
  ends := ⟨_, (Bounds.Within.full h).run, if_neg (Nat.lt_irrefl _), rfl⟩

/-! ### The lines in front of an offset -/

theorem lineStartOffsets_concat (text : Units) (unit : UInt16) :
    lineStartOffsets (text ++ [unit]) =
      lineStartOffsets text ++ if unit = lf then [text.length + 1] else [] := by
  have hlast : (text ++ [unit])[text.length]? = some unit := by
    rw [List.getElem?_append_right (Nat.le_refl _), Nat.sub_self, List.getElem?_cons_zero]
  rw [lineStartOffsets, lineStartOffsets, List.length_append, List.length_singleton,
    List.range_succ, List.filterMap_append, ← List.cons_append]
  congr 1
  · refine congrArg (0 :: ·) (List.filterMap_congr fun i hi => ?_)
    rw [List.getElem?_append_left (List.mem_range.mp hi)]
  · rw [List.filterMap_cons, List.filterMap_nil, hlast]
    by_cases hunit : unit = lf
    · rw [if_pos hunit, if_pos (congrArg some hunit)]
    · rw [if_neg hunit, if_neg fun h => hunit (Option.some.inj h)]

/-- As many lines start at or before an offset as there are newlines in front of it, and one. -/
theorem countP_lineStartOffsets (text : Units) (offset : ℕ) :
    (lineStartOffsets text).countP (· ≤ offset) = newlinesBefore text offset + 1 := by
  induction text using List.reverseRecOn with
  | nil => simp [lineStartOffsets, newlinesBefore]
  | append_singleton text unit ih =>
    rw [lineStartOffsets_concat, List.countP_append, ih, newlinesBefore, newlinesBefore,
      List.take_append, List.count_append]
    -- the last unit counts on either side if it is a newline in front of the offset
    rcases Nat.lt_or_ge text.length offset with hlt | hge
    · rw [List.take_of_length_le (l := [unit]) (by simp only [List.length_singleton]; omega)]
      split
      · next hunit =>
        have hle : decide (text.length + 1 ≤ offset) = true := decide_eq_true hlt
        rw [hunit, List.countP_singleton, if_pos hle, List.count_singleton_self]
      · next hunit =>
        rw [List.countP_nil, List.count_eq_zero_of_not_mem fun hmem =>
          hunit (List.mem_singleton.mp hmem).symm]
    · have hnone : (if unit = lf then [text.length + 1] else []).countP (· ≤ offset) = 0 := by
        refine List.countP_eq_zero.mpr fun start hstart => ?_
        split at hstart
        · obtain rfl := List.mem_singleton.mp hstart
          exact fun hle => absurd (of_decide_eq_true hle) (by omega)
        · exact absurd hstart List.not_mem_nil
      rw [hnone, Nat.sub_eq_zero_of_le hge, List.take_zero, List.count_nil]

/-- The lines up to the one that is found are those that start at or before the offset. -/
theorem countP_eq_offsetToLine (text : Units) (offset : ℕ) :
    (lineStartOffsets text).countP (· ≤ offset) =
      offsetToLine (lineStartOffsets text) offset + 1 := by
  obtain ⟨hlt, hspec⟩ := offsetToLine_spec text offset
  generalize offsetToLine (lineStartOffsets text) offset = found at hlt hspec
  have hbefore : ((lineStartOffsets text).take (found + 1)).countP (· ≤ offset) = found + 1 := by
    rw [List.countP_eq_length.mpr, List.length_take_of_le hlt]
    intro start hstart
    obtain ⟨line, hline, rfl⟩ := List.mem_take_iff_getElem.mp hstart
    have hin : line < (lineStartOffsets text).length := by omega
    rw [← lineStart_of_lt hin]
    exact decide_eq_true ((hspec line hin).mpr (by omega))
  have hbehind : ((lineStartOffsets text).drop (found + 1)).countP (· ≤ offset) = 0 := by
    refine List.countP_eq_zero.mpr fun start hstart hle => ?_
    obtain ⟨line, hline, rfl⟩ := List.mem_drop_iff_getElem.mp hstart
    have hin : found + 1 + line < (lineStartOffsets text).length := by omega
    rw [← lineStart_of_lt hin] at hle
    have := (hspec _ hin).mp (of_decide_eq_true hle)
    omega
  -- the array is cut behind the line that is found
  rw [← List.take_append_drop (found + 1) (lineStartOffsets text), List.countP_append, hbefore,
    hbehind]

theorem offsetToLine_eq_newlinesBefore (text : Units) (offset : ℕ) :
    offsetToLine (lineStartOffsets text) offset = newlinesBefore text offset :=
  Nat.succ.inj ((countP_eq_offsetToLine text offset).symm.trans
    (countP_lineStartOffsets text offset))

/-- **Offsets have the lines of the newlines in front of them**, the search for one ends inside the
array, and the last line that a span touches is that of its last unit. -/
theorem offset_to_line (text : Units) :
    (∀ offset ≤ text.length,
      offsetToLine (lineStartOffsets text) offset = newlinesBefore text offset ∧
        Searches (lineStartOffsets text) offset (newlinesBefore text offset)) ∧
      ∀ start stop, start < stop → stop ≤ text.length →
        lastTouchedLine (lineStartOffsets text) stop start = newlinesBefore text (stop - 1) := by
  constructor
  · intro offset _
    have hline := offsetToLine_eq_newlinesBefore text offset
    exact ⟨hline, hline ▸ searches_offsetToLine (List.cons_ne_nil _ _) offset⟩
  · intro start stop hlt _
    rw [lastTouchedLine, Nat.max_eq_right (Nat.le_sub_one_of_lt hlt),
      offsetToLine_eq_newlinesBefore]

/-- Two lines of one unit each. -/
theorem offset_to_line_two :
    offsetToLine (lineStartOffsets [97, lf, 98]) 2 = newlinesBefore [97, lf, 98] 2 ∧
      lastTouchedLine (lineStartOffsets [97, lf, 98]) 2 0 = newlinesBefore [97, lf, 98] 1 :=
  ⟨((offset_to_line [97, lf, 98]).1 2 (by decide)).1,
    (offset_to_line [97, lf, 98]).2 0 2 (by decide) (by decide)⟩

end AgentCockpit.Renderer.FoldingRows
