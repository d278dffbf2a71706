import AgentCockpit.Core.Effect
import AgentCockpit.Mux.Persistence.History
import Mathlib

/-!
# The history archive of a pane

Rows that the terminal engine evicts from its finite live history are collected by a
tracker, held as pending rows, and flushed to `history.db` in batches. A row of the
engine carries the identity that a tracked reference follows; a reference loses its
value when its row is evicted.

The rows of a batch are stored as MessagePack, a third-party format given by `RowCodec`.
The failures of the engine and of the database are parameters of the operations.
-/

namespace AgentCockpit.Mux

open AgentCockpit.Core

/-- Give rows consecutive line numbers. -/
def numbered (first : ℕ) (rows : List (List ScrollbackRun)) : List ScrollbackLine :=
  rows.mapIdx fun index runs => ⟨first + index, runs⟩

@[simp] theorem length_numbered (first : ℕ) (rows : List (List ScrollbackRun)) :
    (numbered first rows).length = rows.length :=
  List.length_mapIdx

@[simp] theorem numbered_nil (first : ℕ) : numbered first [] = [] := rfl

theorem numbered_cons (first : ℕ) (runs : List ScrollbackRun) (rows : List (List ScrollbackRun)) :
    numbered first (runs :: rows) = ⟨first, runs⟩ :: numbered (first + 1) rows := by
  simp [numbered, List.mapIdx_cons, Nat.add_assoc, Nat.add_comm 1]

theorem numbered_append (first : ℕ) (rows later : List (List ScrollbackRun)) :
    numbered first (rows ++ later) = numbered first rows ++
      numbered (first + rows.length) later := by
  induction rows generalizing first with
  | nil => rfl
  | cons runs rows ih =>
    simp only [List.cons_append, numbered_cons, ih, List.length_cons]
    rw [Nat.add_assoc, Nat.add_comm 1]

@[simp] theorem map_runs_numbered (first : ℕ) (rows : List (List ScrollbackRun)) :
    (numbered first rows).map (·.runs) = rows := by
  induction rows generalizing first with
  | nil => rfl
  | cons runs rows ih => rw [numbered_cons, List.map_cons, ih]

theorem numbered_take (first n : ℕ) (rows : List (List ScrollbackRun)) :
    (numbered first rows).take n = numbered first (rows.take n) := by
  induction rows generalizing first n with
  | nil => simp
  | cons runs rows ih =>
    cases n with
    | zero => rfl
    | succ n => simp only [numbered_cons, List.take_succ_cons, ih]

theorem numbered_drop (first n : ℕ) (rows : List (List ScrollbackRun)) :
    (numbered first rows).drop n = numbered (first + n) (rows.drop n) := by
  induction rows generalizing first n with
  | nil => simp
  | cons runs rows ih =>
    cases n with
    | zero => rfl
    | succ n =>
      rw [numbered_cons, List.drop_succ_cons, List.drop_succ_cons, ih, Nat.add_assoc,
        Nat.add_comm 1]

/-- The lines of an inclusive range are a slice. -/
theorem filter_numbered (first a b : ℕ) (rows : List (List ScrollbackRun)) :
    ((numbered first rows).filter fun line => a ≤ line.line ∧ line.line ≤ b) =
      ((numbered first rows).take (b + 1 - first)).drop (a - first) := by
  induction rows generalizing first with
  | nil => simp
  | cons runs rows ih =>
    rw [numbered_cons, List.filter_cons, ih]
    rcases Nat.lt_or_ge b first with hafter | hbefore
    · rw [if_neg (by simp; omega), Nat.sub_eq_zero_of_le (by omega : b + 1 ≤ first + 1),
        Nat.sub_eq_zero_of_le (by omega : b + 1 ≤ first)]
      simp
    · have htake : b + 1 - first = (b + 1 - (first + 1)) + 1 := by omega
      rw [htake, List.take_succ_cons]
      rcases Nat.lt_or_ge first a with hbelow | habove
      · have hdrop : a - first = (a - (first + 1)) + 1 := by omega
        rw [if_neg (by simp; omega), hdrop, List.drop_succ_cons]
      · rw [if_pos (by simp; omega), Nat.sub_eq_zero_of_le habove,
          Nat.sub_eq_zero_of_le (by omega : a ≤ first + 1)]
        rfl

/-- MessagePack of the rows of a batch. -/
structure RowCodec where
  marshal : List ScrollbackLine → Bytes
  unmarshal : Bytes → Except String (List ScrollbackLine)
  unmarshal_marshal : ∀ lines, unmarshal (marshal lines) = .ok lines
  marshal_ne_nil : ∀ lines, marshal lines ≠ []

/-- The rows of a stored batch. -/
def HistoryRecord.rows (codec : RowCodec) (record : HistoryRecord) : List (List ScrollbackRun) :=
  match codec.unmarshal record.data with
  | .ok lines => lines.map (·.runs)
  | .error _ => []

/-- A row of the engine's live history. -/
structure NativeRow where
  ref : ℕ
  runs : List ScrollbackRun
  deriving DecidableEq, Repr

/-- A tracked reference and the row it was formatted to when tracking began. -/
structure TrackedHistoryLine where
  ref : ℕ
  line : ScrollbackLine
  deriving DecidableEq, Repr

structure HistoryTracker where
  entries : List TrackedHistoryLine := []
  deriving DecidableEq, Repr

/-- Return the rows that disappeared since the previous collection, then track every
resident row, in native order. A failure of the engine comes after the disappeared
rows were given up. -/
def HistoryTracker.collect (tracker : HistoryTracker) (native : List NativeRow)
    (engine : Option String) : HistoryTracker × Except String (List ScrollbackLine) :=
  let resident (entry : TrackedHistoryLine) : Bool := native.any (·.ref = entry.ref)
  let archived := (tracker.entries.filter (!resident ·)).map (·.line)
  let retained := tracker.entries.filter resident
  match engine with
  | some err => (⟨retained⟩, .error err)
  | none =>
    (⟨native.mapIdx fun y row =>
      (retained.find? (·.ref = row.ref)).getD ⟨row.ref, ⟨y, row.runs⟩⟩⟩, .ok archived)

/-- Archive writes are not one transaction for each line. -/
def targetBatchBytes : ℕ := 1 <<< 20

/-- Batches of rows the engine has evicted, and the rows not yet flushed. -/
structure HistoryArchive where
  tracker : HistoryTracker := {}
  session : String
  pane : String
  enabled : Bool := false
  next : ℕ
  pending : List ScrollbackLine := []
  bytes : ℕ := 0
  deriving DecidableEq, Repr

namespace HistoryArchive

variable (codec : RowCodec) (archive : HistoryArchive) (store : HistoryStore)

def lineCount : ℕ := archive.next + archive.pending.length

/-- The pending rows as they are numbered at the next flush. -/
def pendingLines : List ScrollbackLine := numbered archive.next (archive.pending.map (·.runs))

/-- The lines of one stored batch that lie in an inclusive range. -/
def decodeRange (first last : ℕ) (record : HistoryRecord) : Except String (List ScrollbackLine) :=
  match codec.unmarshal record.data with
  | .error err => .error ("decode mux archive history rows: " ++ err)
  | .ok decoded => .ok (decoded.filter fun line => first ≤ line.line ∧ line.line ≤ last)

/-- Read an inclusive archive range, including the rows not yet flushed. -/
def lines (first last : ℕ) : Except String (List ScrollbackLine) := do
  if last < first then throw "invalid mux archive line range"
  let records ← store.load archive.pane first last
  let stored ← records.mapM (decodeRange codec first last)
  return stored.flatten ++
    archive.pendingLines.filter fun line => first ≤ line.line ∧ line.line ≤ last

/-- Commit the pending rows as one batch. `fault` is a failure of the database. -/
def flush (fault : Option String) : (HistoryArchive × HistoryStore) × Option String :=
  if archive.pending = [] then ((archive, store), none)
  else
    let last := archive.next + archive.pending.length - 1
    let record : HistoryRecord :=
      ⟨archive.session, archive.pane, archive.next, last, codec.marshal archive.pendingLines⟩
    match orFail fault (store.append record) with
    | .error err => ((archive, store), some ("append mux history batch: " ++ err))
    | .ok store => (({ archive with next := last + 1, pending := [], bytes := 0 }, store), none)

/-- Commit a smaller batch, only after output has been quiet. -/
def flushIdle (quiet : Bool) (fault : Option String) :
    (HistoryArchive × HistoryStore) × Option String :=
  if archive.pending = [] ∨ quiet = false then ((archive, store), none)
  else archive.flush codec store fault

/-- The text bytes of evicted rows. -/
def rowBytes (lines : List ScrollbackLine) : ℕ :=
  ((lines.flatMap (·.runs)).map fun run => run.text.utf8ByteSize + run.sgr.utf8ByteSize).sum

/-- Observe native eviction after the primary terminal accepted output. -/
def record (native : List NativeRow) (engine fault : Option String) :
    (HistoryArchive × HistoryStore) × Option String :=
  if archive.enabled = false then ((archive, store), none)
  else
    match archive.tracker.collect native engine with
    | (tracker, .error err) => (({ archive with tracker }, store), some err)
    | (tracker, .ok lines) =>
      if lines = [] then (({ archive with tracker }, store), none)
      else
        let archive := { archive with
          tracker, pending := archive.pending ++ lines, bytes := archive.bytes + rowBytes lines }
        if archive.bytes < targetBatchBytes then ((archive, store), none)
        else archive.flush codec store fault

/-- Establish a new privacy boundary: enabling starts from the rows resident now. -/
def setEnabled (enabled : Bool) (native : List NativeRow) (engine : Option String) :
    HistoryArchive × Option String :=
  if archive.enabled = enabled then (archive, none)
  else
    let archive := { archive with pending := [], bytes := 0, tracker := {} }
    if enabled then
      match archive.tracker.collect native engine with
      | (tracker, .error err) => ({ archive with tracker }, some err)
      | (tracker, .ok _) => ({ archive with tracker, enabled }, none)
    else ({ archive with enabled }, none)

/-- The archive of a pane continues after the committed lines of the pane. -/
def new (session pane : String) (enabled : Bool) (native : List NativeRow)
    (engine : Option String) : Except String HistoryArchive :=
  if session = "" ∨ pane = "" then
    .error "mux history archive requires store, session, and pane IDs"
  else
    match store.nextLine pane with
    | .error err => .error ("read mux history archive boundary: " ++ err)
    | .ok next =>
      match ({ session, pane, next } : HistoryArchive).setEnabled enabled native engine with
      | (_, some err) => .error err
      | (archive, none) => .ok archive

end HistoryArchive

namespace HistoryStore

/-- Batches hold exactly `rows`, numbered consecutively from `first`. -/
inductive Holds (codec : RowCodec) : ℕ → List (List ScrollbackRun) → List HistoryRecord → Prop
  | nil (first : ℕ) : Holds codec first [] []
  | cons {first : ℕ} {rows later : List (List ScrollbackRun)} {record : HistoryRecord}
      {batches : List HistoryRecord} (hrows : rows ≠ []) (hfirst : record.firstLine = first)
      (hlast : record.lastLine + 1 = first + rows.length)
      (hdata : record.data = codec.marshal (numbered first rows))
      (hrest : Holds codec (first + rows.length) later batches) :
      Holds codec first (rows ++ later) (record :: batches)

variable {codec : RowCodec} {first : ℕ} {rows more : List (List ScrollbackRun)}
variable {batches : List HistoryRecord} {record : HistoryRecord}

/-- A further batch continues the rows. -/
theorem Holds.snoc (h : Holds codec first rows batches) (hmore : more ≠ [])
    (hfirst : record.firstLine = first + rows.length)
    (hlast : record.lastLine + 1 = first + rows.length + more.length)
    (hdata : record.data = codec.marshal (numbered (first + rows.length) more)) :
    Holds codec first (rows ++ more) (batches ++ [record]) := by
  induction h with
  | nil first =>
    have hsingle := Holds.cons hmore hfirst hlast hdata (.nil _)
    simpa using hsingle
  | @cons first rows later batch batches hrows hbatchFirst hbatchLast hbatchData _ ih =>
    rw [List.append_assoc]
    rw [List.length_append, ← Nat.add_assoc] at hfirst hlast hdata
    exact .cons hrows hbatchFirst hbatchLast hbatchData (ih hfirst hlast hdata)

/-- The rows are what the batches decode to. -/
theorem Holds.rows_eq (h : Holds codec first rows batches) :
    rows = batches.flatMap (·.rows codec) := by
  induction h with
  | nil _ => rfl
  | cons _ _ _ hdata _ ih =>
    rw [List.flatMap_cons, HistoryRecord.rows, hdata, codec.unmarshal_marshal, ← ih]
    simp only [map_runs_numbered]

/-- Batches without rows are none at all, so any line may be their first. -/
theorem Holds.restart (h : Holds codec first [] batches) {start : ℕ} :
    Holds codec start [] batches := by
  generalize hempty : ([] : List (List ScrollbackRun)) = rows at h
  cases h with
  | nil _ => exact .nil start
  | cons hrows _ _ _ _ => exact absurd (List.append_eq_nil_iff.mp hempty.symm).1 hrows

theorem Holds.le_firstLine (h : Holds codec first rows batches) :
    ∀ record ∈ batches, first ≤ record.firstLine := by
  induction h with
  | nil _ => exact nofun
  | cons _ hfirst _ _ _ ih =>
    intro record hmem
    rcases List.mem_cons.mp hmem with rfl | hmem
    · exact hfirst.ge
    · have := ih record hmem
      omega

/-- Such batches are in line order. -/
theorem Holds.sorted (h : Holds codec first rows batches) :
    batches.Pairwise (·.firstLine ≤ ·.firstLine) := by
  induction h with
  | nil _ => exact .nil
  | cons _ hfirst _ _ hrest ih =>
    refine .cons (fun record hmem => ?_) ih
    have := hrest.le_firstLine record hmem
    omega

theorem Holds.getLast (h : Holds codec first rows batches) :
    batches.getLast? = none ∧ rows = [] ∨
      ∃ record, batches.getLast? = some record ∧ record.lastLine + 1 = first + rows.length := by
  induction h with
  | nil _ => exact .inl ⟨rfl, rfl⟩
  | @cons first rows later record batches _ _ hlast _ _ ih =>
    right
    rcases ih with ⟨hnone, rfl⟩ | ⟨last, hsome, hend⟩
    · refine ⟨record, ?_, by simpa using hlast⟩
      rw [List.getLast?_eq_none_iff.mp hnone]
      rfl
    · refine ⟨last, ?_, by rw [hend, List.length_append, Nat.add_assoc]⟩
      rw [List.getLast?_cons, hsome]
      rfl

variable {store : HistoryStore} {pane : String}

theorem Holds.lastLine (h : Holds codec first rows (store.panes pane)) :
    store.lastLine pane = none ∧ rows = [] ∨
      ∃ last, store.lastLine pane = some last ∧ last + 1 = first + rows.length := by
  rw [HistoryStore.lastLine, h.sorted.insertionSort_eq]
  rcases h.getLast with ⟨hnone, hrows⟩ | ⟨record, hsome, hend⟩
  · exact .inl ⟨by rw [hnone]; rfl, hrows⟩
  · exact .inr ⟨_, by rw [hsome]; rfl, hend⟩

/-- The lines that a range query decodes from such batches. -/
theorem Holds.decode (h : Holds codec first rows batches) (a b : ℕ) :
    ∃ stored, (batches.filter fun record => a ≤ record.lastLine ∧ record.firstLine ≤ b).mapM
        (HistoryArchive.decodeRange codec a b) = .ok stored ∧
      stored.flatten = (numbered first rows).filter fun line => a ≤ line.line ∧ line.line ≤ b := by
  induction h with
  | nil _ => exact ⟨[], rfl, rfl⟩
  | @cons first rows later record batches _ hfirst hlast hdata _ ih =>
    obtain ⟨stored, hstored, hflatten⟩ := ih
    rw [numbered_append, List.filter_append, ← hflatten]
    have hrange : HistoryArchive.decodeRange codec a b record =
        .ok ((numbered first rows).filter fun line => a ≤ line.line ∧ line.line ≤ b) := by
      rw [HistoryArchive.decodeRange, hdata, codec.unmarshal_marshal]
    by_cases hmeet : a ≤ record.lastLine ∧ record.firstLine ≤ b
    · refine ⟨_ :: stored, ?_, rfl⟩
      rw [List.filter_cons_of_pos (by simpa using hmeet), List.mapM_cons, hrange, hstored]
      rfl
    · -- a batch outside the range has no line in it
      have hnone : ((numbered first rows).filter fun line => a ≤ line.line ∧
        line.line ≤ b) = [] := by
        rw [filter_numbered, ← List.length_eq_zero_iff, List.length_drop, List.length_take,
          length_numbered]
        omega
      refine ⟨stored, ?_, by rw [hnone]; rfl⟩
      rw [List.filter_cons_of_neg (by simpa using hmeet), hstored]

/-- A range query over such batches. -/
theorem Holds.load (h : Holds codec first rows (store.panes pane)) (hpane : pane ≠ "")
    {a b : ℕ} (hab : a ≤ b) :
    ∃ records stored, store.load pane a b = .ok records ∧
      records.mapM (HistoryArchive.decodeRange codec a b) = .ok stored ∧
      stored.flatten = (numbered first rows).filter fun line => a ≤ line.line ∧ line.line ≤ b := by
  obtain ⟨stored, hstored, hflatten⟩ := h.decode a b
  refine ⟨_, stored, ?_, hstored, hflatten⟩
  rw [HistoryStore.load, if_neg (by simp [hpane, hab]),
    (h.sorted.filter _).insertionSort_eq]

/-- The store accepts the batch that continues the rows of a pane. -/
theorem Holds.append (h : Holds codec first rows (store.panes pane)) (record : HistoryRecord)
    (more : List (List ScrollbackRun)) (hmore : more ≠ []) (hpane : record.paneID = pane)
    (hvalid : record.sessionID ≠ "" ∧ pane ≠ "")
    (hfirst : record.firstLine = first + rows.length)
    (hlast : record.lastLine + 1 = first + rows.length + more.length)
    (hdata : record.data = codec.marshal (numbered (first + rows.length) more)) :
    ∃ store', store.append record = .ok store' ∧
      Holds codec first (rows ++ more) (store'.panes pane) := by
  have hlen := List.length_pos_iff.mpr hmore
  have hpanes : panes ⟨store.batches ++ [record]⟩ pane = store.panes pane ++ [record] := by
    simp [panes, hpane]
  refine ⟨⟨store.batches ++ [record]⟩, ?_, hpanes ▸ h.snoc hmore hfirst hlast hdata⟩
  rw [HistoryStore.append, if_neg, hpane]
  · rcases h.lastLine with ⟨hnone, -⟩ | ⟨last, hsome, hend⟩
    · rw [hnone]
    · rw [hsome]
      exact if_neg (by omega)
  · have hmarshal := codec.marshal_ne_nil (numbered (first + rows.length) more)
    rw [hpane, hdata]
    simp only [not_or]
    exact ⟨hvalid.1, hvalid.2, hmarshal, by omega⟩

end HistoryStore

namespace HistoryArchive

variable {codec : RowCodec} {archive archive' : HistoryArchive} {store store' : HistoryStore}
variable {first : ℕ} {rows : List (List ScrollbackRun)}

/-- The rows that are not yet flushed. -/
def pendingRows (archive : HistoryArchive) : List (List ScrollbackRun) :=
  archive.pending.map (·.runs)

/-- The stored batches of the pane hold `rows` from line `first` on, and the archive's
counter is where they end. -/
structure Continues (codec : RowCodec) (archive : HistoryArchive) (store : HistoryStore)
    (first : ℕ) (rows : List (List ScrollbackRun)) : Prop where
  session_ne : archive.session ≠ ""
  pane_ne : archive.pane ≠ ""
  holds : HistoryStore.Holds codec first rows (store.panes archive.pane)
  next_eq : archive.next = first + rows.length

theorem Continues.lineCount (h : archive.Continues codec store first rows) :
    archive.lineCount = first + (rows ++ archive.pendingRows).length := by
  rw [HistoryArchive.lineCount, h.next_eq, List.length_append, pendingRows, List.length_map,
    Nat.add_assoc]

/-- A range of the archive is a slice of the stored and pending rows. -/
theorem Continues.lines (h : archive.Continues codec store first rows) {a b : ℕ} (hab : a ≤ b) :
    archive.lines codec store a b =
      .ok (((numbered first (rows ++ archive.pendingRows)).take (b + 1 - first)).drop
        (a - first)) := by
  obtain ⟨records, stored, hload, hstored, hflatten⟩ := h.holds.load h.pane_ne hab
  rw [← filter_numbered, numbered_append, List.filter_append, ← hflatten, ← h.next_eq]
  rw [HistoryArchive.lines, if_neg (by omega), hload]
  show (records.mapM (decodeRange codec a b) >>= _) = _
  rw [hstored]
  rfl

/-- A flush moves the pending rows behind the stored ones. -/
theorem Continues.flush (h : archive.Continues codec store first rows) {fault err : Option String}
    (hflush : archive.flush codec store fault = ((archive', store'), err)) :
    archive'.pane = archive.pane ∧ ∃ rows', rows <+: rows' ∧
      archive'.Continues codec store' first rows' ∧
        rows' ++ archive'.pendingRows = rows ++ archive.pendingRows := by
  rw [HistoryArchive.flush] at hflush
  split at hflush
  · cases hflush
    exact ⟨rfl, rows, List.prefix_rfl, h, rfl⟩
  · next hpending =>
    have hlen := List.length_pos_iff.mpr hpending
    have hnext := h.next_eq
    obtain ⟨written, happend, hholds⟩ := h.holds.append
      ⟨archive.session, archive.pane, archive.next,
        archive.next + archive.pending.length - 1, codec.marshal archive.pendingLines⟩
      archive.pendingRows
      (by simpa [pendingRows] using hpending) rfl ⟨h.session_ne, h.pane_ne⟩ hnext
      (by simp only [pendingRows, List.length_map]; omega) (by rw [← hnext]; rfl)
    dsimp only at hflush
    rw [happend] at hflush
    cases fault with
    | some err =>
      cases hflush
      exact ⟨rfl, rows, List.prefix_rfl, h, rfl⟩
    | none =>
      cases hflush
      refine ⟨rfl, rows ++ archive.pendingRows, List.prefix_append ..,
        ⟨h.session_ne, h.pane_ne, hholds, ?_⟩, by simp [pendingRows]⟩
      simp only [List.length_append, pendingRows, List.length_map]
      omega

theorem Continues.flushIdle (h : archive.Continues codec store first rows) {quiet : Bool}
    {fault err : Option String}
    (hflush : archive.flushIdle codec store quiet fault = ((archive', store'), err)) :
    archive'.pane = archive.pane ∧ ∃ rows', rows <+: rows' ∧
      archive'.Continues codec store' first rows' ∧
        rows' ++ archive'.pendingRows = rows ++ archive.pendingRows := by
  rw [HistoryArchive.flushIdle] at hflush
  split at hflush
  · cases hflush
    exact ⟨rfl, rows, List.prefix_rfl, h, rfl⟩
  · exact h.flush hflush

/-- A recording adds evicted rows behind the others. -/
theorem Continues.record (h : archive.Continues codec store first rows) {native : List NativeRow}
    {engine fault err : Option String}
    (hrecord : archive.record codec store native engine fault = ((archive', store'), err)) :
    archive'.pane = archive.pane ∧ ∃ rows' evicted, rows <+: rows' ∧
      archive'.Continues codec store' first rows' ∧
        rows' ++ archive'.pendingRows = rows ++ archive.pendingRows ++ evicted := by
  have hkeep (tracker : HistoryTracker) :
      ({ archive with tracker } : HistoryArchive).Continues codec store first rows :=
    ⟨h.session_ne, h.pane_ne, h.holds, h.next_eq⟩
  rw [HistoryArchive.record] at hrecord
  split at hrecord
  · cases hrecord
    exact ⟨rfl, rows, [], List.prefix_rfl, h, by simp⟩
  split at hrecord
  · next tracker failure _ =>
    cases hrecord
    exact ⟨rfl, rows, [], List.prefix_rfl, hkeep tracker, by simp [pendingRows]⟩
  · next tracker lines _ =>
    split at hrecord
    · cases hrecord
      exact ⟨rfl, rows, [], List.prefix_rfl, hkeep tracker, by simp [pendingRows]⟩
    · have hgrown : ({ archive with
          tracker, pending := archive.pending ++ lines,
          bytes := archive.bytes + rowBytes lines } : HistoryArchive).Continues
            codec store first rows :=
        ⟨h.session_ne, h.pane_ne, h.holds, h.next_eq⟩
      dsimp only at hrecord
      split at hrecord
      · cases hrecord
        exact ⟨rfl, rows, lines.map (·.runs), List.prefix_rfl, hgrown, by simp [pendingRows]⟩
      · obtain ⟨hpane, rows', hkept, hrows', heq⟩ := hgrown.flush hrecord
        exact ⟨hpane, rows', lines.map (·.runs), hkept, hrows',
          heq.trans (by simp [pendingRows])⟩

/-- The privacy switch drops the pending rows at most. -/
theorem Continues.setEnabled (h : archive.Continues codec store first rows) (enabled : Bool)
    (native : List NativeRow) (engine : Option String) :
    (archive.setEnabled enabled native engine).1.Continues codec store first rows := by
  unfold HistoryArchive.setEnabled
  split
  · exact h
  dsimp only
  split
  · split <;> exact ⟨h.session_ne, h.pane_ne, h.holds, h.next_eq⟩
  · exact ⟨h.session_ne, h.pane_ne, h.holds, h.next_eq⟩

theorem setEnabled_pane (archive : HistoryArchive) (enabled : Bool) (native : List NativeRow)
    (engine : Option String) :
    (archive.setEnabled enabled native engine).1.pane = archive.pane := by
  unfold setEnabled
  split
  · rfl
  dsimp only
  split
  · split <;> rfl
  · rfl

/-- A new archive continues the batches that the store already holds. -/
theorem Continues.of_new {session pane : String} {enabled : Bool} {native : List NativeRow}
    {engine : Option String}
    (hholds : HistoryStore.Holds codec first rows (store.panes pane))
    (hnew : new store session pane enabled native engine = .ok archive) :
    archive.pane = pane ∧ ∃ start, (rows ≠ [] → start = first) ∧
      archive.Continues codec store start rows := by
  unfold new at hnew
  split at hnew
  · exact nomatch hnew
  next hvalid =>
  simp only [not_or] at hvalid
  split at hnew
  · exact nomatch hnew
  next next hnext =>
  split at hnew
  · exact nomatch hnew
  next started hstarted =>
  obtain rfl := Except.ok.inj hnew
  have hboundary : ∃ start, (rows ≠ [] → start = first) ∧ next = start + rows.length ∧
      HistoryStore.Holds codec start rows (store.panes pane) := by
    rw [HistoryStore.nextLine, if_neg hvalid.2] at hnext
    obtain rfl := Except.ok.inj hnext
    rcases hholds.lastLine with ⟨hnone, rfl⟩ | ⟨last, hsome, hend⟩
    · exact ⟨0, absurd rfl, by rw [hnone]; rfl, hholds.restart⟩
    · exact ⟨first, fun _ => rfl, by rw [hsome]; exact hend, hholds⟩
  obtain ⟨start, hfirst, hstart, hrows⟩ := hboundary
  have hbase : ({ session, pane, next } : HistoryArchive).Continues codec store start rows :=
    ⟨hvalid.1, hvalid.2, hrows, hstart⟩
  have hcontinues := hbase.setEnabled enabled native engine
  have hpane := setEnabled_pane { session, pane, next } enabled native engine
  rw [hstarted] at hcontinues hpane
  exact ⟨hpane, start, hfirst, hcontinues⟩

end HistoryArchive

end AgentCockpit.Mux
