import AgentCockpit.Core.Trailing
import AgentCockpit.Mux.Persistence.History

/-!
# One line of the scrollback

The daemon reads a row of the history cell by cell, coalesces neighbours of one style into runs,
and trims the blanks at the end. What is left of the text does not depend on the styles.
-/

namespace AgentCockpit.Mux

/-! ### Cells and runs -/

/-- How a cell takes part in a wide character. -/
inductive CellWide
  | narrow
  | wide
  | spacerTail
  | spacerHead
  deriving DecidableEq, Repr

/-- A cell of a history row, with the parameters of its style. A cell that has text has a
character. -/
structure HistoryCell where
  wide : CellWide
  text : Option Char
  sgr : String
  text_ne : text ≠ some '\x00'
  deriving DecidableEq

namespace HistoryCell

/-- The cell only fills the room that a wide character takes. -/
def IsSpacer (cell : HistoryCell) : Prop := cell.wide = .spacerTail ∨ cell.wide = .spacerHead

instance (cell : HistoryCell) : Decidable cell.IsSpacer :=
  inferInstanceAs (Decidable (_ ∨ _))

/-- What a cell adds to the text of its line. -/
def spell (cell : HistoryCell) : List Char :=
  if cell.IsSpacer then [] else [cell.text.getD ' ']

end HistoryCell

/-- The characters of a row, blanks included. -/
def spelled (cells : List HistoryCell) : List Char := cells.flatMap (·.spell)

@[simp] theorem spelled_nil : spelled [] = [] := rfl

@[simp] theorem spelled_cons (cell : HistoryCell) (cells : List HistoryCell) :
    spelled (cell :: cells) = cell.spell ++ spelled cells := rfl

@[simp] theorem spelled_append (front back : List HistoryCell) :
    spelled (front ++ back) = spelled front ++ spelled back := List.flatMap_append

/-- The text of a line. -/
def lineText (runs : List ScrollbackRun) : List Char := runs.flatMap (·.text.toList)

@[simp] theorem lineText_append (front back : List ScrollbackRun) :
    lineText (front ++ back) = lineText front ++ lineText back := List.flatMap_append

@[simp] theorem lineText_singleton (run : ScrollbackRun) : lineText [run] = run.text.toList := by
  simp [lineText]

/-- The runs after one more cell. -/
def addCell (runs : List ScrollbackRun) (cell : HistoryCell) : List ScrollbackRun :=
  if cell.IsSpacer then runs
  else
    let text := String.singleton (cell.text.getD ' ')
    match runs.getLast? with
    | some last =>
      if last.sgr = cell.sgr then runs.dropLast ++ [{ last with text := last.text ++ text }]
      else runs ++ [⟨text, cell.sgr⟩]
    | none => [⟨text, cell.sgr⟩]

def trimRight (text : String) : String := String.ofList (text.toList.rdropWhile (· = ' '))

/-- Trim the blanks at the end of a line, whose last run comes first. -/
def trimRuns : List ScrollbackRun → List ScrollbackRun
  | [] => []
  | last :: runs =>
    if trimRight last.text ≠ "" then { last with text := trimRight last.text } :: runs
    else trimRuns runs

/-- The runs of a row. -/
def historyLine (cells : List HistoryCell) : List ScrollbackRun :=
  (trimRuns (cells.foldl addCell []).reverse).reverse

/-! ### The text of a line -/

theorem lineText_addCell (runs : List ScrollbackRun) (cell : HistoryCell) :
    lineText (addCell runs cell) = lineText runs ++ cell.spell := by
  unfold addCell HistoryCell.spell
  split
  · rw [List.append_nil]
  dsimp only
  split
  · next last hlast =>
    obtain ⟨front, rfl⟩ := List.getLast?_eq_some_iff.mp hlast
    split
    · simp
    · simp [lineText]
  · next hnone =>
    rw [List.getLast?_eq_none_iff.mp hnone]
    simp [lineText]

theorem lineText_foldl_addCell (cells : List HistoryCell) (runs : List ScrollbackRun) :
    lineText (cells.foldl addCell runs) = lineText runs ++ spelled cells := by
  induction cells generalizing runs with
  | nil => simp
  | cons cell cells ih =>
    rw [List.foldl_cons, ih, lineText_addCell, spelled_cons, List.append_assoc]

theorem lineText_trimRuns (runs : List ScrollbackRun) :
    lineText (trimRuns runs).reverse = (lineText runs.reverse).rdropWhile (· = ' ') := by
  induction runs with
  | nil => simp [trimRuns, lineText]
  | cons last runs ih =>
    rw [List.reverse_cons, lineText_append, lineText_singleton, trimRuns]
    split
    · next hshows =>
      -- The trim ends within this run.
      have hstays : ∃ c ∈ last.text.toList, ¬ decide (c = ' ') = true := by
        by_contra hall
        push Not at hall
        apply hshows
        rw [trimRight, List.rdropWhile_eq_nil_iff.mpr hall, String.ofList_nil]
      rw [Core.rdropWhile_append_of_exists hstays, List.reverse_cons, lineText_append,
        lineText_singleton, trimRight, String.toList_ofList]
    · next hblank =>
      rw [ih]
      symm
      apply Core.rdropWhile_append_of_forall
      rw [← List.rdropWhile_eq_nil_iff]
      simpa [trimRight] using hblank

/-- The runs of a row carry its characters up to the blanks at its end. -/
theorem lineText_historyLine (cells : List HistoryCell) :
    lineText (historyLine cells) = (spelled cells).rdropWhile (· = ' ') := by
  rw [historyLine, lineText_trimRuns, List.reverse_reverse, lineText_foldl_addCell]
  simp [lineText]

end AgentCockpit.Mux
