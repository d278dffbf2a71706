import AgentCockpit.Mux.Stream
import AgentCockpit.Mux.Layout

/-!
# The recovery database

`state.db` as tables: the legacy single-pane recovery record, the lifecycle catalog
of sessions, windows and panes, the per-pane recovery records, and the selected
session of each project. Every operation is one transaction: it yields the next
database or an error, and then the database is as before. Foreign keys are enforced
and deletions cascade.

Two things are left out because no operation reads them back as anything else:
snapshots are compressed on disk, and `layout_json` holds the JSON text of the
window's topology, which is kept here as the value it encodes.
-/

namespace AgentCockpit.Mux

structure Keyframe where
  engineVersion : String
  snapshot : Bytes
  primarySnapshot : Bytes
  metadata : Bytes
  boundary : String
  deriving DecidableEq, Repr

/-- An ordered raw-output fragment. -/
structure TailChunk where
  sequence : ℕ
  data : Bytes
  deriving DecidableEq, Repr

/-- A row of `tail_batches`, in the order of the autoincremented batch number. -/
structure TailBatch where
  firstSequence : ℕ
  lastSequence : ℕ
  data : Bytes
  deriving DecidableEq, Repr

structure SessionRecord where
  id : String
  name : String
  projectID : String
  kind : String
  status : String
  pinned : Bool
  createdAt : ℕ
  lastAttachedAt : ℕ
  deriving DecidableEq, Repr

/-- What `windows.layout_json` encodes; the default value is the text `{}`. -/
structure PersistedWindowTopology where
  activeWindow : Bool := false
  activePaneID : String := ""
  zoomedPaneID : String := ""
  layout : TopologyLayoutNode := .nil
  deriving DecidableEq, Repr

structure WindowRecord where
  id : String
  sessionID : String
  name : String
  index : ℕ
  layoutJSON : PersistedWindowTopology
  deriving DecidableEq, Repr

structure PaneRecord where
  id : String
  windowID : String
  sessionID : String
  cwd : String
  command : String
  cols : ℕ
  rows : ℕ
  broadcast : Bool
  title : String := ""
  deriving DecidableEq, Repr

/-- A pane that has a recoverable per-pane keyframe. -/
structure CatalogPane where
  paneID : String
  sessionID : String
  projectID : String
  windowID : String
  key : String
  broadcast : Bool
  pinned : Bool
  deriving DecidableEq, Repr

/-- The tables of `state.db`. The per-pane recovery tables are keyed by pane id, the
tail of a pane in the order of its sequences. -/
structure Store where
  keyframe : Option Keyframe := none
  tailBatches : List TailBatch := []
  sessions : List SessionRecord := []
  windows : List WindowRecord := []
  panes : List PaneRecord := []
  sessionKeyframes : String → Option Keyframe := fun _ => none
  sessionTails : String → List TailChunk := fun _ => []
  activeLogicalSessions : List (String × String) := []

/-- `INSERT … ON CONFLICT DO UPDATE` by a key: `update` combines the old row with the
new one. -/
def upsertBy {α : Type} (key : α → String) (update : α → α → α) (row : α) (rows : List α) :
    List α :=
  if rows.any (key · = key row) then
    rows.map fun old => if key old = key row then update old row else old
  else rows ++ [row]

/-- Replace the value of a table keyed by pane id. -/
def setAt {α : Type} (table : String → α) (key : String) (value : α) : String → α :=
  fun other => if other = key then value else table other

@[simp] theorem setAt_self {α : Type} (table : String → α) (key : String) (value : α) :
    setAt table key value key = value :=
  if_pos rfl

theorem setAt_of_ne {α : Type} (table : String → α) {key other : String} (value : α)
    (h : other ≠ key) : setAt table key value other = table other :=
  if_neg h

/-- The default cap of a tail. -/
def defaultTailCap : ℕ := 1 <<< 20

/-- The tail cap with which the daemon opens the database. -/
def storeTailCap : ℕ := defaultTailCap * 4

/-- The number of bytes of a list of chunks. -/
def chunkBytes (chunks : List TailChunk) : ℕ :=
  (chunks.map (·.data.length)).sum

/-- Sequences increase within a batch. -/
def increasing (chunks : List TailChunk) : Bool :=
  decide ((chunks.map (·.sequence)).Pairwise (· < ·))

def Keyframe.valid (keyframe : Keyframe) : Bool :=
  keyframe.engineVersion ≠ "" && keyframe.snapshot ≠ [] &&
    (keyframe.boundary = "grounded" || keyframe.boundary = "forced")

namespace Store

def foreignKeyError : String := "FOREIGN KEY constraint failed"

/-! ### Recovery records -/

def saveKeyframe (store : Store) (keyframe : Keyframe) : Except String Store :=
  if keyframe.valid then .ok { store with keyframe := some keyframe, tailBatches := [] }
  else .error "invalid mux keyframe"

/-- Remove the legacy recovery record. -/
def clear (store : Store) : Store :=
  { store with keyframe := none, tailBatches := [] }

/-- Remove all screen snapshots and raw tails, keeping the catalog. -/
def clearContent (store : Store) : Store :=
  { store with
    keyframe := none, tailBatches := []
    sessionKeyframes := fun _ => none, sessionTails := fun _ => [] }

/-- The first sequence of a batch follows the last committed one. -/
def checkFollows (chunks : List TailChunk) (lastSequence : Option ℕ) : Except String Unit :=
  match chunks.head?, lastSequence with
  | some chunk, some last =>
    if chunk.sequence ≤ last then
      .error s!"mux tail sequence {chunk.sequence} is not after committed sequence {last}"
    else .ok ()
  | _, _ => .ok ()

def tailCapError : String := s!"mux tail cap reached: {storeTailCap} bytes"

def increasingError : String := "mux tail sequences must increase within a batch"

/-- The checks of `AppendBatch`, given the stored bytes and the last committed
sequence. -/
def checkBatch (chunks : List TailChunk) (total : ℕ) (lastSequence : Option ℕ) :
    Except String Unit :=
  if chunks.any (·.data = []) then .error "empty mux tail chunk"
  else if storeTailCap < total + chunkBytes chunks then .error tailCapError
  else if ¬ increasing chunks then .error increasingError
  else checkFollows chunks lastSequence

/-- The scan of `AppendPaneBatch` over its chunks, after the sequence `last`. -/
def scanPaneBatch : List TailChunk → Option ℕ → Except String Unit
  | [], _ => .ok ()
  | chunk :: rest, last =>
    if chunk.data = [] then .error "empty mux tail chunk"
    else if (last.any (chunk.sequence ≤ ·)) then .error increasingError
    else scanPaneBatch rest (some chunk.sequence)

/-- The checks of `AppendPaneBatch`. -/
def checkPaneBatch (chunks : List TailChunk) (total : ℕ) (lastSequence : Option ℕ) :
    Except String Unit := do
  scanPaneBatch chunks none
  if storeTailCap < total + chunkBytes chunks then .error tailCapError
  else checkFollows chunks lastSequence

/-- Make all chunks durable together in the legacy tail. -/
def appendBatch (store : Store) (chunks : List TailChunk) : Except String Store :=
  match chunks.head?, chunks.getLast? with
  | some first, some last =>
    (checkBatch chunks ((store.tailBatches.map (·.data.length)).sum)
      (store.tailBatches.getLast?.map (·.lastSequence))).map fun _ =>
        { store with tailBatches := store.tailBatches ++
            [⟨first.sequence, last.sequence, chunks.flatMap (·.data)⟩] }
  | _, _ => .ok store

/-- A pane of the catalog, by id. -/
def hasPane (store : Store) (paneID : String) : Bool :=
  store.panes.any (·.id = paneID)

/-- Replace one pane's tail with a new keyframe. -/
def savePaneKeyframe (store : Store) (paneID : String) (keyframe : Keyframe) :
    Except String Store :=
  if paneID = "" ∨ ¬ keyframe.valid then .error "invalid mux pane keyframe"
  else if store.hasPane paneID then
    .ok { store with
      sessionKeyframes := setAt store.sessionKeyframes paneID (some keyframe)
      sessionTails := setAt store.sessionTails paneID [] }
  else .error foreignKeyError

/-- Make all chunks durable together in one pane's tail. -/
def appendPaneBatch (store : Store) (paneID : String) (chunks : List TailChunk) :
    Except String Store :=
  if paneID = "" then .error "mux pane ID is required"
  else if chunks = [] then .ok store
  else
    (checkPaneBatch chunks (chunkBytes (store.sessionTails paneID))
      ((store.sessionTails paneID).getLast?.map (·.sequence))).bind fun _ =>
        if store.hasPane paneID then
          .ok { store with
            sessionTails := setAt store.sessionTails paneID (store.sessionTails paneID ++ chunks) }
        else .error foreignKeyError

/-- A batch that either tail accepts: no empty chunk, room under the cap, increasing
sequences that follow the last committed one. -/
structure BatchFits (chunks : List TailChunk) (total : ℕ) (lastSequence : Option ℕ) : Prop where
  nonempty : ∀ chunk ∈ chunks, chunk.data ≠ []
  room : total + chunkBytes chunks ≤ storeTailCap
  increasing : (chunks.map (·.sequence)).Pairwise (· < ·)
  follows : ∀ last, lastSequence = some last → ∀ chunk ∈ chunks.head?, last < chunk.sequence

theorem checkFollows_eq_ok {chunks : List TailChunk} {lastSequence : Option ℕ}
    (h : ∀ last, lastSequence = some last → ∀ chunk ∈ chunks.head?, last < chunk.sequence) :
    checkFollows chunks lastSequence = .ok () := by
  unfold checkFollows
  split
  · next chunk last hhead =>
    have := h last rfl chunk (by simp [hhead])
    rw [if_neg (by omega)]
  · rfl

theorem BatchFits.checkBatch {chunks : List TailChunk} {total : ℕ} {lastSequence : Option ℕ}
    (h : BatchFits chunks total lastSequence) : checkBatch chunks total lastSequence = .ok () := by
  rw [Store.checkBatch, if_neg (by simpa using h.nonempty), if_neg (by have := h.room; omega),
    if_neg (by simpa [Mux.increasing] using h.increasing), checkFollows_eq_ok h.follows]

theorem scanPaneBatch_eq_ok {chunks : List TailChunk} {last : Option ℕ}
    (hnonempty : ∀ chunk ∈ chunks, chunk.data ≠ [])
    (hincreasing : (chunks.map (·.sequence)).Pairwise (· < ·))
    (hlast : ∀ n, last = some n → ∀ chunk ∈ chunks, n < chunk.sequence) :
    scanPaneBatch chunks last = .ok () := by
  induction chunks generalizing last with
  | nil => rfl
  | cons chunk rest ih =>
    obtain ⟨hdata, hnonempty⟩ := List.forall_mem_cons.mp hnonempty
    rw [List.map_cons, List.pairwise_cons, List.forall_mem_map] at hincreasing
    rw [scanPaneBatch, if_neg hdata, if_neg]
    · refine ih hnonempty hincreasing.2 fun n hn other hother => ?_
      obtain rfl := Option.some.inj hn
      exact hincreasing.1 other hother
    · cases last with
      | none => simp
      | some n => simpa using hlast n rfl chunk List.mem_cons_self

theorem BatchFits.checkPaneBatch {chunks : List TailChunk} {total : ℕ} {lastSequence : Option ℕ}
    (h : BatchFits chunks total lastSequence) :
    checkPaneBatch chunks total lastSequence = .ok () := by
  have hscan : scanPaneBatch chunks none = .ok () :=
    scanPaneBatch_eq_ok h.nonempty h.increasing (by simp)
  have hroom := h.room
  rw [Store.checkPaneBatch, hscan]
  exact (if_neg (by omega)).trans (checkFollows_eq_ok h.follows)

/-! ### Catalog -/

/-- Record a logical session; the creation time of an existing row is kept. -/
def upsertSession (store : Store) (record : SessionRecord) : Except String Store :=
  if record.id = "" ∨ record.name = "" ∨ record.projectID = "" ∨
      (record.kind ≠ "local" ∧ record.kind ≠ "remote") ∨
      (record.status ≠ "live" ∧ record.status ≠ "dead") then
    .error "invalid mux session record"
  else
    .ok { store with
      sessions := upsertBy (·.id) (fun old new => { new with createdAt := old.createdAt }) record
        store.sessions }

def hasSession (store : Store) (sessionID : String) : Bool :=
  store.sessions.any (·.id = sessionID)

def upsertWindow (store : Store) (record : WindowRecord) : Except String Store :=
  if record.id = "" ∨ record.sessionID = "" ∨ record.name = "" then
    .error "invalid mux window record"
  else if store.hasSession record.sessionID then
    .ok { store with windows := upsertBy (·.id) (fun _ new => new) record store.windows }
  else .error foreignKeyError

def hasWindow (store : Store) (windowID : String) : Bool :=
  store.windows.any (·.id = windowID)

def upsertPane (store : Store) (record : PaneRecord) : Except String Store :=
  if record.id = "" ∨ record.windowID = "" ∨ record.sessionID = "" then
    .error "invalid mux pane record"
  else if store.hasWindow record.windowID ∧ store.hasSession record.sessionID then
    .ok { store with panes := upsertBy (·.id) (fun _ new => new) record store.panes }
  else .error foreignKeyError

def setSessionPinned (store : Store) (id : String) (pinned : Bool) : Except String Store :=
  if store.hasSession id then
    .ok { store with
      sessions := store.sessions.map fun row => if row.id = id then { row with pinned } else row }
  else .error s!"mux session \"{id}\" not found"

/-- Select a logical session for a project. -/
def setActiveLogicalSession (store : Store) (projectID sessionID : String) :
    Except String Store :=
  if store.hasSession sessionID then
    .ok { store with
      activeLogicalSessions :=
        upsertBy (·.1) (fun _ new => new) (projectID, sessionID) store.activeLogicalSessions }
  else .error foreignKeyError

/-! ### Deletion -/

/-- Delete pane rows with their recovery records. -/
def deletePanes (store : Store) (doomed : PaneRecord → Bool) : Store :=
  let gone := fun paneID => store.panes.any fun row => doomed row && row.id = paneID
  { store with
    panes := store.panes.filter (! doomed ·)
    sessionKeyframes := fun paneID => if gone paneID then none else store.sessionKeyframes paneID
    sessionTails := fun paneID => if gone paneID then [] else store.sessionTails paneID }

/-- Delete window rows with the panes that refer to them. -/
def deleteWindows (store : Store) (doomed : WindowRecord → Bool) : Store :=
  let gone := fun windowID => store.windows.any fun row => doomed row && row.id = windowID
  { store.deletePanes (fun pane => gone pane.windowID) with
    windows := store.windows.filter (! doomed ·) }

/-- Delete session rows with the windows, panes and selections that refer to them. -/
def deleteSessions (store : Store) (doomed : SessionRecord → Bool) : Store :=
  let gone := fun sessionID => store.sessions.any fun row => doomed row && row.id = sessionID
  { (store.deleteWindows fun window => gone window.sessionID).deletePanes
      (fun pane => gone pane.sessionID) with
    sessions := store.sessions.filter (! doomed ·)
    activeLogicalSessions := store.activeLogicalSessions.filter fun row => ! gone row.2 }

def destroySession (store : Store) (id : String) : Store :=
  store.deleteSessions (·.id = id)

/-- Remove one pane, then the windows and sessions that have no pane left. -/
def destroyPane (store : Store) (id : String) : Store :=
  let store := store.deletePanes (·.id = id)
  let store := store.deleteWindows fun window => ! store.panes.any (·.windowID = window.id)
  store.deleteSessions fun session => ! store.panes.any (·.sessionID = session.id)

/-! ### Queries -/

/-- The panes with a keyframe, ordered by session and pane. -/
def catalogPanes (store : Store) : List CatalogPane :=
  let joined := store.panes.filterMap fun pane =>
    match store.sessions.find? (·.id = pane.sessionID) with
    | some session =>
      if (store.sessionKeyframes pane.id).isSome then
        some ⟨pane.id, pane.sessionID, session.projectID, pane.windowID, session.name,
          pane.broadcast, session.pinned⟩
      else none
    | none => none
  joined.insertionSort fun left right =>
    left.sessionID < right.sessionID ∨ (left.sessionID = right.sessionID ∧
      left.paneID ≤ right.paneID)

/-- The catalog has a window, or a pane of it, in a logical session. -/
def Bound (store : Store) (windowID logicalID : String) : Prop :=
  (∃ row ∈ store.windows, row.id = windowID ∧ row.sessionID = logicalID) ∨
    ∃ row ∈ store.panes, row.windowID = windowID ∧ row.sessionID = logicalID

end Store

end AgentCockpit.Mux
