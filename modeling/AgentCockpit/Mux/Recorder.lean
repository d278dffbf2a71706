import AgentCockpit.Core.Effect
import AgentCockpit.Mux.Persistence.Store

/-!
# The recorder

The recorder makes the output of one pane durable: a keyframe of the authoritative
terminal, then the raw chunks after it, which are held back until a flush. It writes
to the legacy single-pane record, to the record of a catalog pane, or to both, each
in a transaction of its own.

`RecorderCalls` carries the environment's part of one operation: the error, if any,
of every call the operation makes to the terminal engine or to the database. A result
lists, next to the final state, the database states that were durable on the way.
-/

namespace AgentCockpit.Mux

open AgentCockpit.Core

/-- The terminal engine behind a recorder, which has a version and never takes an empty
snapshot. `primary` and `metadata` are the recovery sources outside the active snapshot,
`none` when the recorder has no such source. -/
structure RecoveryEngine (T : Type*) where
  version : String
  feed : T → Bytes → T
  ground : T → Bool
  snapshot : T → Bytes
  primary : Option (T → Bytes)
  metadata : Option (T → Bytes)
  blankSnapshot : Bytes
  blankMetadata : Bytes
  version_ne : version ≠ ""
  snapshot_ne : ∀ terminal, snapshot terminal ≠ []
  blankSnapshot_ne : blankSnapshot ≠ []

/-- The errors of the calls one operation of the recorder makes. -/
structure RecorderCalls where
  ground : Option String := none
  snapshot : Option String := none
  primary : Option String := none
  metadata : Option String := none
  legacyAppend : Option String := none
  catalogAppend : Option String := none
  legacySave : Option String := none
  catalogSave : Option String := none
  deriving DecidableEq

structure Recorder where
  legacy : Bool
  catalogPane : String
  persistContent : Bool
  cap : ℕ := defaultTailCap
  tailSize : ℕ := 0
  pending : List TailChunk := []
  pendingSize : ℕ := 0

/-- What an operation leaves behind: `passed` are the database states that were durable
before the final one, and `settled` says whether a flush or a keyframe in it succeeded. -/
structure RecorderResult where
  recorder : Recorder
  store : Store
  passed : List Store := []
  settled : Bool := false
  err : Option String := none

namespace Recorder

variable {T : Type*} (engine : RecoveryEngine T) (calls : RecorderCalls)

def hardCap (recorder : Recorder) : ℕ := recorder.cap * 4

/-- A recorder with an empty buffer; the cap 0 stands for the default. -/
def newRecorder (cap : ℕ) (legacy : Bool) (catalogPane : String) (persistContent : Bool) :
    Recorder :=
  { legacy, catalogPane, persistContent, cap := if cap = 0 then defaultTailCap else cap }

/-- The buffered size at which a recorded chunk is flushed at once. -/
def flushSize : ℕ := 64 <<< 10

/-- A write to the active targets, the legacy record first: each is a transaction, and
`done` is the recorder after both. -/
def commit (recorder : Recorder) (store : Store) (legacyErr catalogErr : String)
    (legacyStep catalogStep : Store → Except String Store) (done : Recorder) : RecorderResult :=
  match (if recorder.legacy then legacyStep store else .ok store) with
  | .error err => { recorder, store, err := some (legacyErr ++ err) }
  | .ok mirrored =>
    match (if recorder.catalogPane ≠ "" then catalogStep mirrored else .ok mirrored) with
    | .error err => { recorder, store := mirrored, err := some (catalogErr ++ err) }
    | .ok saved => { recorder := done, store := saved, passed := [mirrored], settled := true }

/-- The recorder with an empty buffer. -/
def drained (recorder : Recorder) (tailSize : ℕ) : Recorder :=
  { recorder with tailSize, pending := [], pendingSize := 0 }

def flushLocked (recorder : Recorder) (store : Store) : RecorderResult :=
  if recorder.pending = [] then { recorder, store, settled := true }
  else
    recorder.commit store "append mux recovery tail batch: " "append mux catalog tail batch: "
      (fun store => orFail calls.legacyAppend (store.appendBatch recorder.pending))
      (fun store => orFail calls.catalogAppend
        (store.appendPaneBatch recorder.catalogPane recorder.pending))
      (recorder.drained (recorder.tailSize + recorder.pendingSize))

/-- A blank but valid snapshot when content persistence is disabled. -/
def snapshotForPersistence (recorder : Recorder) (terminal : T) : Except String Bytes :=
  orFail calls.snapshot <| .ok <|
    if recorder.persistContent then engine.snapshot terminal else engine.blankSnapshot

/-- The keyframe of a terminal under a content policy. -/
def image (persistContent : Bool) (boundary : String) (terminal : T) : Keyframe where
  engineVersion := engine.version
  boundary := boundary
  snapshot := if persistContent then engine.snapshot terminal else engine.blankSnapshot
  primarySnapshot :=
    match engine.primary with
    | some primary => if persistContent then primary terminal else engine.blankSnapshot
    | none => []
  metadata :=
    if persistContent then
      match engine.metadata with
      | some metadata => metadata terminal
      | none => []
    else engine.blankMetadata

/-- The primary-screen part of a keyframe, next to the snapshot built before it. -/
def primaryForPersistence (recorder : Recorder) (terminal : T) (snapshot : Bytes) :
    Except String Bytes :=
  match engine.primary with
  | some primary =>
    if recorder.persistContent then orFail calls.primary (.ok (primary terminal)) else .ok snapshot
  | none => .ok []

/-- The metadata part of a keyframe. -/
def metadataForPersistence (recorder : Recorder) (terminal : T) : Except String Bytes :=
  if recorder.persistContent then
    match engine.metadata with
    | some metadata => orFail calls.metadata (.ok (metadata terminal))
    | none => .ok []
  else orFail calls.metadata (.ok engine.blankMetadata)

/-- The keyframe value of `keyframe`, with the calls that build it. -/
def buildKeyframe (recorder : Recorder) (terminal : T) (boundary : String) :
    Except String Keyframe := do
  let snapshot ← recorder.snapshotForPersistence engine calls terminal
  let primarySnapshot ← recorder.primaryForPersistence engine calls terminal snapshot
  let metadata ← recorder.metadataForPersistence engine calls terminal
  pure { engineVersion := engine.version, boundary, snapshot, primarySnapshot, metadata }

def keyframe (recorder : Recorder) (store : Store) (terminal : T) (boundary : String) :
    RecorderResult :=
  match recorder.buildKeyframe engine calls terminal boundary with
  | .error err => { recorder, store, err := some err }
  | .ok keyframe =>
    recorder.commit store "save mux recovery keyframe: " "save mux catalog keyframe: "
      (fun store => orFail calls.legacySave (store.saveKeyframe keyframe))
      (fun store => orFail calls.catalogSave (store.savePaneKeyframe recorder.catalogPane keyframe))
      (recorder.drained 0)

/-- Buffer a chunk. -/
def push (recorder : Recorder) (chunk : TailChunk) : Recorder :=
  { recorder with
    pending := recorder.pending ++ [chunk]
    pendingSize := recorder.pendingSize + chunk.data.length }

/-- The recorded size with one more chunk. -/
def nextSize (recorder : Recorder) (chunk : TailChunk) : ℕ :=
  recorder.tailSize + recorder.pendingSize + chunk.data.length

/-- Whether recording a chunk takes a keyframe instead: at the cap on a grounded
terminal, at the hard cap in any case. -/
def keyframeDue (recorder : Recorder) (ground : Bool) (chunk : TailChunk) : Bool :=
  (recorder.cap ≤ recorder.nextSize chunk && ground) || recorder.hardCap ≤ recorder.nextSize chunk

/-- `RecordFed`: the caller has fed the chunk to the terminal already. -/
def recordFed (recorder : Recorder) (store : Store) (terminal : T) (chunk : TailChunk) :
    RecorderResult :=
  if chunk.data = [] then { recorder, store }
  else if ¬ recorder.persistContent then { recorder, store }
  else
    match orFail calls.ground (.ok (engine.ground terminal)) with
    | .error err => { recorder, store, err := some err }
    | .ok ground =>
      if recorder.cap ≤ recorder.nextSize chunk ∧ ground then
        recorder.keyframe engine calls store terminal "grounded"
      else if recorder.hardCap ≤ recorder.nextSize chunk then
        recorder.keyframe engine calls store terminal "forced"
      else
        let recorder := recorder.push chunk
        if flushSize ≤ recorder.pendingSize then recorder.flushLocked calls store
        else { recorder, store }

/-- `Flush`: establish a durable raw-tail boundary. -/
def flush (recorder : Recorder) (store : Store) : RecorderResult :=
  recorder.flushLocked calls store

/-- `Finalize`: the clean-shutdown recovery point. -/
def finalize (recorder : Recorder) (store : Store) (terminal : T) : RecorderResult :=
  let flushed := recorder.flushLocked calls store
  if flushed.err.isSome then flushed
  else
    match orFail calls.ground (.ok (engine.ground terminal)) with
    | .error err => { flushed with err := some err }
    | .ok ground =>
      let boundary := if ground then "grounded" else "forced"
      let saved := flushed.recorder.keyframe engine calls flushed.store terminal boundary
      { saved with passed := flushed.passed ++ flushed.store :: saved.passed, settled := true }

/-- `SetPersistScrollback`: change what is durable, not the live terminal. -/
def setPersistScrollback (recorder : Recorder) (store : Store) (terminal : T) (enabled : Bool) :
    RecorderResult :=
  if recorder.persistContent = enabled then { recorder, store }
  else { recorder with persistContent := enabled }.keyframe engine calls store terminal "grounded"

/-! ### What the operations do -/

variable {engine calls} {recorder : Recorder} {store : Store}

/-- Two consecutive transactions: the first fails, the second fails after the first is
durable, or both are durable. -/
theorem commit_cases {legacyErr catalogErr : String}
    {legacyStep catalogStep : Store → Except String Store} {done : Recorder}
    {result : RecorderResult}
    (h : recorder.commit store legacyErr catalogErr legacyStep catalogStep done = result) :
    (∃ err, recorder.legacy ∧ legacyStep store = .error err ∧
      result = { recorder, store, err := some (legacyErr ++ err) }) ∨
    (∃ mirrored err, (if recorder.legacy then legacyStep store else .ok store) = .ok mirrored ∧
      recorder.catalogPane ≠ "" ∧ catalogStep mirrored = .error err ∧
      result = { recorder, store := mirrored, err := some (catalogErr ++ err) }) ∨
    (∃ mirrored saved, (if recorder.legacy then legacyStep store else .ok store) = .ok mirrored ∧
      (if recorder.catalogPane ≠ "" then catalogStep mirrored else .ok mirrored) = .ok saved ∧
      result = { recorder := done, store := saved, passed := [mirrored], settled := true }) := by
  unfold commit at h
  cases hlegacy : (if recorder.legacy then legacyStep store else .ok store) with
  | error err =>
    rw [hlegacy] at h
    split at hlegacy
    · exact .inl ⟨err, ‹_›, hlegacy, h.symm⟩
    · exact nomatch hlegacy
  | ok mirrored =>
    rw [hlegacy] at h
    cases hcatalog : (if recorder.catalogPane ≠ "" then catalogStep mirrored else .ok mirrored) with
    | error err =>
      simp only [hcatalog] at h
      split at hcatalog
      · exact .inr (.inl ⟨mirrored, err, rfl, ‹_›, hcatalog, h.symm⟩)
      · exact nomatch hcatalog
    | ok saved =>
      simp only [hcatalog] at h
      exact .inr (.inr ⟨mirrored, saved, rfl, hcatalog, h.symm⟩)

/-- A keyframe that can be built is the image of the terminal. -/
theorem eq_image_of_buildKeyframe {terminal : T} {boundary : String} {keyframe : Keyframe}
    (h : recorder.buildKeyframe engine calls terminal boundary = .ok keyframe) :
    keyframe = image engine recorder.persistContent boundary terminal := by
  obtain ⟨snapshot, hsnapshot, h⟩ := bind_eq_ok h
  obtain ⟨primary, hprimary, h⟩ := bind_eq_ok h
  obtain ⟨metadata, hmetadata, h⟩ := bind_eq_ok h
  obtain rfl := Except.ok.inj h
  obtain rfl := Except.ok.inj (orFail_eq_ok hsnapshot).2
  unfold image
  congr 1
  · cases hsource : engine.primary with
    | none => simpa [primaryForPersistence, hsource] using hprimary.symm
    | some source =>
      simp only [primaryForPersistence, hsource] at hprimary
      split at hprimary
      · next hpersist => simpa [hpersist] using (orFail_eq_ok hprimary).2.symm
      · next hpersist => simpa [hpersist] using hprimary.symm
  · unfold metadataForPersistence at hmetadata
    split at hmetadata
    · next hpersist =>
      cases hsource : engine.metadata with
      | none => simpa [hpersist, hsource] using hmetadata.symm
      | some source =>
        simp only [hsource] at hmetadata
        simpa [hpersist] using (orFail_eq_ok hmetadata).2.symm
    · next hpersist => simpa [hpersist] using (orFail_eq_ok hmetadata).2.symm

/-- A keyframe is built when none of the calls for it fails. -/
theorem buildKeyframe_eq_ok {terminal : T} {boundary : String}
    (hsnapshot : calls.snapshot = none) (hprimary : calls.primary = none)
    (hmetadata : calls.metadata = none) :
    recorder.buildKeyframe engine calls terminal boundary =
      .ok (image engine recorder.persistContent boundary terminal) := by
  unfold buildKeyframe snapshotForPersistence primaryForPersistence metadataForPersistence image
  rw [hsnapshot, hprimary, hmetadata]
  cases engine.primary <;> cases engine.metadata <;> cases recorder.persistContent <;> rfl

/-- The database takes every keyframe of the engine. -/
theorem image_valid (engine : RecoveryEngine T) (persistContent : Bool) (terminal : T)
    {boundary : String} (hboundary : boundary = "grounded" ∨ boundary = "forced") :
    (image engine persistContent boundary terminal).valid := by
  have hversion := engine.version_ne
  have hsnapshot := engine.snapshot_ne terminal
  have hblank := engine.blankSnapshot_ne
  cases persistContent <;> simp [image, Keyframe.valid, *]

/-- Without content the keyframe is blank, whatever the terminal shows. -/
theorem image_blank (boundary : String) (terminal terminal' : T) :
    image engine false boundary terminal = image engine false boundary terminal' :=
  rfl

end Recorder

end AgentCockpit.Mux
