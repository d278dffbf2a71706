import AgentCockpit.Mux.Stream
import Mathlib.Data.List.Sort

/-!
# The history database

`history.db` as a table of immutable batches of terminal lines, keyed by pane and first
line. Batches are compressed on disk, which no query shows.
-/

namespace AgentCockpit.Mux

/-- Adjacent cells of one style. -/
structure ScrollbackRun where
  text : String
  sgr : String
  deriving DecidableEq, Repr

structure ScrollbackLine where
  line : ℕ
  runs : List ScrollbackRun
  deriving DecidableEq, Repr

/-- One immutable line range of a pane. -/
structure HistoryRecord where
  sessionID : String
  paneID : String
  firstLine : ℕ
  lastLine : ℕ
  data : Bytes
  deriving DecidableEq, Repr

/-- The batches in the order in which they were written. -/
structure HistoryStore where
  batches : List HistoryRecord := []
  deriving DecidableEq, Repr

namespace HistoryStore

/-- The batches of one pane. -/
def panes (history : HistoryStore) (paneID : String) : List HistoryRecord :=
  history.batches.filter (·.paneID = paneID)

/-- The last line of the batch of a pane that starts last. -/
def lastLine (history : HistoryStore) (paneID : String) : Option ℕ :=
  ((history.panes paneID).insertionSort (·.firstLine ≤ ·.firstLine)).getLast?.map (·.lastLine)

/-- Persist one line range; the ranges of a pane are contiguous. -/
def append (history : HistoryStore) (record : HistoryRecord) : Except String HistoryStore :=
  if record.sessionID = "" ∨ record.paneID = "" ∨ record.data = [] ∨
      record.lastLine < record.firstLine then
    .error "invalid mux history batch"
  else
    match history.lastLine record.paneID with
    | some last =>
      if record.firstLine ≠ last + 1 then
        .error s!"mux history batch starts at {record.firstLine} after committed line {last}"
      else .ok { batches := history.batches ++ [record] }
    | none => .ok { batches := history.batches ++ [record] }

/-- The records that meet a line interval, in line order. -/
def load (history : HistoryStore) (paneID : String) (firstLine lastLine : ℕ) :
    Except String (List HistoryRecord) :=
  if paneID = "" ∨ lastLine < firstLine then .error "invalid mux history range"
  else .ok (((history.panes paneID).filter fun record =>
    firstLine ≤ record.lastLine ∧ record.firstLine ≤ lastLine).insertionSort
      (·.firstLine ≤ ·.firstLine))

/-- The exclusive end of the committed range of a pane. -/
def nextLine (history : HistoryStore) (paneID : String) : Except String ℕ :=
  if paneID = "" then .error "mux history pane ID is required"
  else .ok (((history.lastLine paneID).map (· + 1)).getD 0)

/-- Remove the archive of one closed pane. -/
def reapPane (history : HistoryStore) (paneID : String) : Except String HistoryStore :=
  if paneID = "" then .error "mux history pane ID is required"
  else .ok { batches := history.batches.filter (·.paneID ≠ paneID) }

def clear (_ : HistoryStore) : HistoryStore := {}

variable {history history' : HistoryStore} {paneID other : String} {record : HistoryRecord}

/-- Reaping a pane keeps the batches of the others. -/
theorem panes_reapPane_of_ne (h : history.reapPane paneID = .ok history')
    (hother : other ≠ paneID) :
    history'.panes other = history.panes other := by
  unfold reapPane at h
  split at h
  · exact nomatch h
  obtain rfl := Except.ok.inj h
  simp only [panes, List.filter_filter]
  refine List.filter_congr fun record _ => ?_
  by_cases hrecord : record.paneID = other <;> simp [hrecord, hother]

/-- Appending to a pane keeps the batches of the others. -/
theorem panes_append_of_ne (h : history.append record = .ok history')
    (hother : other ≠ record.paneID) : history'.panes other = history.panes other := by
  have hbatches : history'.batches = history.batches ++ [record] := by
    unfold append at h
    split at h
    · exact nomatch h
    split at h
    · split at h
      · exact nomatch h
      · rw [← Except.ok.inj h]
    · rw [← Except.ok.inj h]
  simp [panes, hbatches, hother.symm]

end HistoryStore

end AgentCockpit.Mux
