import AgentCockpit.Core.Checkpoint
import AgentCockpit.Mux.Recorder

/-!
# The recorder and its targets

A recorder writes to one or two targets, each of which holds a keyframe and the chunks
after it. `Steady` relates a recorder and its targets to the log of what was recorded:
every target holds the log up to one boundary, and the recorder holds back the rest.
This module says what each operation does to a steady recorder when the second of its
two transactions does not fail after the first one succeeded.
-/

namespace AgentCockpit.Mux

open AgentCockpit.Core

/-- Where a recorder writes. -/
inductive Target
  | legacy
  | catalog (paneID : String)
  deriving DecidableEq, Repr

namespace Target

variable {store store' : Store} {keyframe keyframe' : Keyframe} {chunks more : List TailChunk}
variable {target : Target} {paneID : String}

/-- A target holds a keyframe and the chunks after it. The legacy record keeps the bytes
of a batch together, with its last sequence. -/
def Holds : Target → Store → Keyframe → List TailChunk → Prop
  | .legacy, store, keyframe, chunks =>
    store.keyframe = some keyframe ∧
      store.tailBatches.flatMap (·.data) = chunks.flatMap (·.data) ∧
      store.tailBatches.getLast?.map (·.lastSequence) = chunks.getLast?.map (·.sequence)
  | .catalog paneID, store, keyframe, chunks =>
    store.sessionKeyframes paneID = some keyframe ∧ store.sessionTails paneID = chunks

/-- A transaction that leaves `target` with `keyframe` and `chunks` and every other
target as it was. -/
structure Rewrites (target : Target) (store store' : Store) (keyframe : Keyframe)
    (chunks : List TailChunk) : Prop where
  holds : target.Holds store' keyframe chunks
  frame : ∀ other ≠ target, ∀ k c, other.Holds store k c → other.Holds store' k c
  panes : ∀ paneID, store'.hasPane paneID = store.hasPane paneID

theorem length_flatMap_data (chunks : List TailChunk) :
    (chunks.flatMap (·.data)).length = chunkBytes chunks := by
  simp [List.length_flatMap, chunkBytes]

theorem chunkBytes_append (chunks more : List TailChunk) :
    chunkBytes (chunks ++ more) = chunkBytes chunks + chunkBytes more := by
  simp [chunkBytes]

/-- The legacy tail has the bytes of the chunks it holds. -/
theorem Holds.legacyBytes (h : Target.legacy.Holds store keyframe chunks) :
    (store.tailBatches.map (·.data.length)).sum = chunkBytes chunks := by
  rw [← length_flatMap_data, ← h.2.1, List.length_flatMap]

theorem getLast?_append_of_ne_nil {α β : Type} (f : α → β) {xs ys : List α} (h : ys ≠ []) :
    (xs ++ ys).getLast?.map f = ys.getLast?.map f := by
  rw [List.getLast?_append_of_ne_nil _ h]

theorem Holds.appendBatch (h : Target.legacy.Holds store keyframe chunks) (hmore : more ≠ [])
    (hok : store.appendBatch more = .ok store') :
    Rewrites .legacy store store' keyframe (chunks ++ more) := by
  unfold Store.appendBatch at hok
  split at hok
  · next first last hfirst hlast =>
    cases hcheck : Store.checkBatch more ((store.tailBatches.map (·.data.length)).sum)
        (store.tailBatches.getLast?.map (·.lastSequence)) with
    | error _ => rw [hcheck] at hok; exact nomatch hok
    | ok _ =>
      rw [hcheck] at hok
      obtain rfl := Except.ok.inj hok
      refine ⟨⟨h.1, ?_, ?_⟩, ?_, fun _ => rfl⟩
      · simp [h.2.1]
      · rw [getLast?_append_of_ne_nil _ hmore, hlast]
        simp
      · rintro (_ | paneID) hne k c hholds
        · exact absurd rfl hne
        · exact hholds
  · next hnone =>
    cases more with
    | nil => exact absurd rfl hmore
    | cons chunk rest => exact absurd (List.getLast?_cons ..) (hnone chunk _ rfl)

theorem Holds.appendBatch_eq_ok (h : Target.legacy.Holds store keyframe chunks)
    (hfits : Store.BatchFits more (chunkBytes chunks) (chunks.getLast?.map (·.sequence))) :
    ∃ store', store.appendBatch more = .ok store' := by
  unfold Store.appendBatch
  split
  · rw [h.legacyBytes, h.2.2, hfits.checkBatch]
    exact ⟨_, rfl⟩
  · exact ⟨_, rfl⟩

/-- Writing one pane's recovery record leaves the other targets alone. -/
theorem frame_setAt {store : Store} (keyframes : String → Option Keyframe)
    (tails : String → List TailChunk) (hkeyframes : ∀ other ≠ paneID,
      keyframes other = store.sessionKeyframes other)
    (htails : ∀ other ≠ paneID, tails other = store.sessionTails other) :
    ∀ other ≠ Target.catalog paneID, ∀ k c, other.Holds store k c →
      other.Holds { store with sessionKeyframes := keyframes, sessionTails := tails } k c := by
  rintro (_ | otherID) hne k c hholds
  · exact hholds
  · have hother : otherID ≠ paneID := fun h => hne (congrArg Target.catalog h)
    exact ⟨(hkeyframes otherID hother).trans hholds.1, (htails otherID hother).trans hholds.2⟩

theorem Holds.appendPaneBatch (h : (Target.catalog paneID).Holds store keyframe chunks)
    (hmore : more ≠ []) (hok : store.appendPaneBatch paneID more = .ok store') :
    Rewrites (.catalog paneID) store store' keyframe (chunks ++ more) := by
  unfold Store.appendPaneBatch at hok
  split at hok
  · exact nomatch hok
  obtain ⟨_, _, hok⟩ := bind_eq_ok hok
  split at hok
  · obtain rfl := Except.ok.inj hok
    refine ⟨⟨h.1, ?_⟩, ?_, fun _ => rfl⟩
    · exact (setAt_self ..).trans (by rw [h.2])
    · exact frame_setAt _ _ (fun _ _ => rfl) fun _ => setAt_of_ne _ _
  · exact nomatch hok

theorem Holds.appendPaneBatch_eq_ok (h : (Target.catalog paneID).Holds store keyframe chunks)
    (hpaneID : paneID ≠ "") (hpane : store.hasPane paneID)
    (hfits : Store.BatchFits more (chunkBytes chunks) (chunks.getLast?.map (·.sequence))) :
    ∃ store', store.appendPaneBatch paneID more = .ok store' := by
  unfold Store.appendPaneBatch
  rw [if_neg hpaneID]
  split
  · exact ⟨_, rfl⟩
  · rw [h.2, hfits.checkPaneBatch]
    exact ⟨_, rfl⟩

theorem saveKeyframe_rewrites (hok : store.saveKeyframe keyframe = .ok store') :
    Rewrites .legacy store store' keyframe [] := by
  unfold Store.saveKeyframe at hok
  split at hok
  · obtain rfl := Except.ok.inj hok
    refine ⟨⟨rfl, rfl, rfl⟩, ?_, fun _ => rfl⟩
    rintro (_ | paneID) hne k c hholds
    · exact absurd rfl hne
    · exact hholds
  · exact nomatch hok

theorem saveKeyframe_eq_ok (hvalid : keyframe.valid) :
    ∃ store', store.saveKeyframe keyframe = .ok store' :=
  ⟨_, if_pos hvalid⟩

theorem valid_of_saveKeyframe (hok : store.saveKeyframe keyframe = .ok store') :
    keyframe.valid := by
  unfold Store.saveKeyframe at hok
  split at hok
  · assumption
  · exact nomatch hok

theorem savePaneKeyframe_eq_ok (hpaneID : paneID ≠ "") (hvalid : keyframe.valid)
    (hpane : store.hasPane paneID) :
    ∃ store', store.savePaneKeyframe paneID keyframe = .ok store' := by
  refine ⟨_, (if_neg ?_).trans (if_pos hpane)⟩
  rintro (h | h)
  · exact hpaneID h
  · exact h hvalid

theorem hasPane_of_savePaneKeyframe (hok : store.savePaneKeyframe paneID keyframe = .ok store') :
    store.hasPane paneID := by
  unfold Store.savePaneKeyframe at hok
  split at hok
  · exact nomatch hok
  split at hok
  · assumption
  · exact nomatch hok

theorem savePaneKeyframe_rewrites (hok : store.savePaneKeyframe paneID keyframe = .ok store') :
    Rewrites (.catalog paneID) store store' keyframe [] := by
  unfold Store.savePaneKeyframe at hok
  split at hok
  · exact nomatch hok
  split at hok
  · obtain rfl := Except.ok.inj hok
    exact ⟨⟨setAt_self .., setAt_self ..⟩,
      frame_setAt _ _ (fun _ => setAt_of_ne _ _) fun _ => setAt_of_ne _ _, fun _ => rfl⟩
  · exact nomatch hok

end Target

namespace Recorder

variable {recorder : Recorder} {store : Store}

/-- The targets a recorder writes to. -/
def targets (recorder : Recorder) : List Target :=
  (if recorder.legacy then [.legacy] else []) ++
    if recorder.catalogPane ≠ "" then [.catalog recorder.catalogPane] else []

theorem mem_targets {target : Target} : target ∈ recorder.targets ↔
    (recorder.legacy ∧ target = .legacy) ∨
      (recorder.catalogPane ≠ "" ∧ target = .catalog recorder.catalogPane) := by
  unfold targets
  cases recorder.legacy <;> by_cases h : recorder.catalogPane = "" <;> simp [h]

section Commit

variable {legacyErr catalogErr : String} {legacyStep catalogStep : Store → Except String Store}
variable {done : Recorder} {keyframe keyframe' : Keyframe} {chunks chunks' : List TailChunk}
variable {mirrored : Store} {result : RecorderResult}

/-- After the first transaction the legacy record is the new one and the catalog record
still the old one. -/
theorem holds_mirrored (hold : ∀ target ∈ recorder.targets, target.Holds store keyframe chunks)
    (hlegacy : ∀ store', Target.legacy.Holds store keyframe chunks →
      legacyStep store = .ok store' → Target.legacy.Rewrites store store' keyframe' chunks')
    (hstep : (if recorder.legacy then legacyStep store else .ok store) = .ok mirrored) :
    (recorder.legacy → Target.legacy.Holds mirrored keyframe' chunks') ∧
      (recorder.catalogPane ≠ "" →
        (Target.catalog recorder.catalogPane).Holds mirrored keyframe chunks) ∧
      ∀ paneID, mirrored.hasPane paneID = store.hasPane paneID := by
  split at hstep
  · next hl =>
    have h := hlegacy mirrored (hold _ (mem_targets.mpr (.inl ⟨hl, rfl⟩))) hstep
    refine ⟨fun _ => h.holds, fun hpane => ?_, h.panes⟩
    exact h.frame _ (by simp) _ _ (hold _ (mem_targets.mpr (.inr ⟨hpane, rfl⟩)))
  · next hl =>
    obtain rfl := Except.ok.inj hstep
    exact ⟨fun h => absurd h hl, fun hpane => hold _ (mem_targets.mpr (.inr ⟨hpane, rfl⟩)),
      fun _ => rfl⟩

/-- Two transactions of which the second cannot fail after the first: nothing changes, or
every target is rewritten, and in between each target holds its old or its new record. -/
theorem commit_atomic
    (hresult : recorder.commit store legacyErr catalogErr legacyStep catalogStep done = result)
    (hold : ∀ target ∈ recorder.targets, target.Holds store keyframe chunks)
    (hlegacy : ∀ store', Target.legacy.Holds store keyframe chunks →
      legacyStep store = .ok store' → Target.legacy.Rewrites store store' keyframe' chunks')
    (hcatalog : ∀ mirrored store',
      (Target.catalog recorder.catalogPane).Holds mirrored keyframe chunks →
      catalogStep mirrored = .ok store' →
        (Target.catalog recorder.catalogPane).Rewrites mirrored store' keyframe' chunks')
    (htogether : recorder.legacy → recorder.catalogPane ≠ "" → ∀ mirrored,
      legacyStep store = .ok mirrored →
      (Target.catalog recorder.catalogPane).Holds mirrored keyframe chunks →
      (∀ paneID, mirrored.hasPane paneID = store.hasPane paneID) →
      ∃ saved, catalogStep mirrored = .ok saved) :
    (∃ err, result = { recorder, store, err := some err }) ∨
    (∃ mirrored saved,
      result = { recorder := done, store := saved, passed := [mirrored], settled := true } ∧
      (∀ target ∈ recorder.targets, target.Holds saved keyframe' chunks') ∧
      (∀ target ∈ recorder.targets,
        target.Holds mirrored keyframe chunks ∨ target.Holds mirrored keyframe' chunks') ∧
      ∀ paneID, saved.hasPane paneID = store.hasPane paneID) := by
  obtain ⟨err, -, -, hresult⟩ | ⟨mirrored, err, hmirrored, hpane, herr, hresult⟩ |
    ⟨mirrored, saved, hmirrored, hsaved, hresult⟩ := commit_cases hresult
  · exact .inl ⟨_, hresult⟩
  · by_cases hl : recorder.legacy
    · obtain ⟨-, hheld, hpanes⟩ := holds_mirrored hold hlegacy hmirrored
      rw [if_pos hl] at hmirrored
      -- the second transaction does not fail after the first
      obtain ⟨saved, hsaved⟩ := htogether hl hpane mirrored hmirrored (hheld hpane) hpanes
      exact absurd (herr.symm.trans hsaved) nofun
    · rw [if_neg hl] at hmirrored
      obtain rfl := Except.ok.inj hmirrored
      exact .inl ⟨_, hresult⟩
  · obtain ⟨hnew, hheld, hpanes⟩ := holds_mirrored hold hlegacy hmirrored
    refine .inr ⟨mirrored, saved, hresult, ?_⟩
    split at hsaved
    · next hpane =>
      have h := hcatalog mirrored saved (hheld hpane) hsaved
      refine ⟨fun target hmem => ?_, fun target hmem => ?_, fun paneID => ?_⟩
      · obtain ⟨hl, rfl⟩ | ⟨-, rfl⟩ := mem_targets.mp hmem
        · exact h.frame _ (by simp) _ _ (hnew hl)
        · exact h.holds
      · obtain ⟨hl, rfl⟩ | ⟨-, rfl⟩ := mem_targets.mp hmem
        · exact .inr (hnew hl)
        · exact .inl (hheld hpane)
      · exact (h.panes paneID).trans (hpanes paneID)
    · next hpane =>
      obtain rfl := Except.ok.inj hsaved
      refine ⟨fun target hmem => ?_, fun target hmem => ?_, hpanes⟩
      all_goals obtain ⟨hl, rfl⟩ | ⟨hother, -⟩ := mem_targets.mp hmem
      · exact hnew hl
      · exact absurd hother hpane
      · exact .inr (hnew hl)
      · exact absurd hother hpane

/-- Two transactions that cannot fail succeed together. -/
theorem commit_err_eq_none
    (hresult : recorder.commit store legacyErr catalogErr legacyStep catalogStep done = result)
    (hold : ∀ target ∈ recorder.targets, target.Holds store keyframe chunks)
    (hlegacy : ∀ store', Target.legacy.Holds store keyframe chunks →
      legacyStep store = .ok store' → Target.legacy.Rewrites store store' keyframe' chunks')
    (hlegacyStep : recorder.legacy → ∃ mirrored, legacyStep store = .ok mirrored)
    (hcatalogStep : recorder.catalogPane ≠ "" → ∀ mirrored,
      (Target.catalog recorder.catalogPane).Holds mirrored keyframe chunks →
      (∀ paneID, mirrored.hasPane paneID = store.hasPane paneID) →
      ∃ saved, catalogStep mirrored = .ok saved) :
    result.err = none := by
  obtain ⟨err, hl, herr, -⟩ | ⟨mirrored, err, hmirrored, hpane, herr, -⟩ |
    ⟨mirrored, saved, -, -, rfl⟩ := commit_cases hresult
  · obtain ⟨mirrored, hmirrored⟩ := hlegacyStep hl
    exact absurd (herr.symm.trans hmirrored) nofun
  · obtain ⟨-, hheld, hpanes⟩ := holds_mirrored hold hlegacy hmirrored
    obtain ⟨saved, hsaved⟩ := hcatalogStep hpane mirrored (hheld hpane) hpanes
    exact absurd (herr.symm.trans hsaved) nofun
  · rfl

end Commit

/-- Unless `first` fails, `second` does not fail either, where both calls are made. -/
def Together (recorder : Recorder) (first second : Option String) : Prop :=
  recorder.legacy → recorder.catalogPane ≠ "" → first = none → second = none

/-- No call of a keyframe fails. -/
def KeyframeSucceeds (recorder : Recorder) (calls : RecorderCalls) : Prop :=
  calls.snapshot = none ∧ calls.primary = none ∧ calls.metadata = none ∧
    (recorder.legacy → calls.legacySave = none) ∧
    (recorder.catalogPane ≠ "" → calls.catalogSave = none)

/-- A recorder in step with the log of what was recorded: its targets hold the log up to
the boundary `m`, and it holds back the rest. -/
structure Steady (image : List TailChunk → Keyframe) (recorder : Recorder) (store : Store)
    (log : List TailChunk) (keyframe : Keyframe) (chunks : List TailChunk) (n m : ℕ) : Prop where
  holds : ∀ target ∈ recorder.targets, target.Holds store keyframe chunks
  covers : Covers image log keyframe chunks n m
  pending : recorder.pending = log.drop m
  pendingSize : recorder.pendingSize = chunkBytes recorder.pending
  tailSize : recorder.tailSize = chunkBytes chunks
  room : recorder.tailSize + recorder.pendingSize < recorder.hardCap
  capacity : recorder.hardCap ≤ storeTailCap
  pane : recorder.catalogPane ≠ "" → store.hasPane recorder.catalogPane

/-- A log as the pump writes it. -/
structure Ordered (log : List TailChunk) : Prop where
  increasing : (log.map (·.sequence)).Pairwise (· < ·)
  nonempty : ∀ chunk ∈ log, chunk.data ≠ []

variable {calls : RecorderCalls} {image : List TailChunk → Keyframe} {log chunks : List TailChunk}
variable {keyframe : Keyframe} {n m : ℕ} {result : RecorderResult}

/-- What is held back fits behind the tail of every target. -/
theorem Steady.fits (h : Steady image recorder store log keyframe chunks n m)
    (hlog : Ordered log) :
    Store.BatchFits recorder.pending (chunkBytes chunks) (chunks.getLast?.map (·.sequence)) where
  nonempty := fun chunk hmem => hlog.nonempty chunk (List.mem_of_mem_drop (h.pending ▸ hmem))
  room := by
    have hroom := h.room
    have hcapacity := h.capacity
    have htail := h.tailSize
    have hpending := h.pendingSize
    omega
  increasing := by
    rw [h.pending, List.map_drop]
    exact hlog.increasing.drop
  follows := by
    intro last hlast chunk hchunk
    have hordered : ((chunks ++ recorder.pending).map (·.sequence)).Pairwise (· < ·) := by
      rw [h.pending, h.covers.tail_append_drop, List.map_drop]
      exact hlog.increasing.drop
    rw [List.map_append, List.pairwise_append] at hordered
    obtain ⟨before, hbefore, rfl⟩ := Option.map_eq_some_iff.mp hlast
    exact hordered.2.2 _ (List.mem_map_of_mem (List.mem_of_getLast? hbefore)) _
      (List.mem_map_of_mem (List.mem_of_head? hchunk))

theorem drained_eq_self {size : ℕ} (hpending : recorder.pending = [])
    (hpendingSize : recorder.pendingSize = 0) (htailSize : recorder.tailSize = size) :
    recorder.drained size = recorder := by
  cases recorder
  simp_all [drained]

/-- An empty buffer is in step when the targets hold the whole log. -/
theorem steady_drained (hholds : ∀ target ∈ recorder.targets, target.Holds store keyframe chunks)
    (hcovers : Covers image log keyframe chunks n log.length)
    (hroom : chunkBytes chunks < recorder.hardCap) (hcapacity : recorder.hardCap ≤ storeTailCap)
    (hpane : recorder.catalogPane ≠ "" → store.hasPane recorder.catalogPane) :
    Steady image (recorder.drained (chunkBytes chunks)) store log keyframe chunks n log.length where
  holds := hholds
  covers := hcovers
  pending := (List.drop_length ..).symm
  pendingSize := rfl
  tailSize := rfl
  room := hroom
  capacity := hcapacity
  pane := hpane

/-- The bytes of the tail and of what is held back. -/
theorem Steady.chunkBytes_eq (h : Steady image recorder store log keyframe chunks n m) :
    recorder.tailSize + recorder.pendingSize = chunkBytes (chunks ++ log.drop m) := by
  rw [Target.chunkBytes_append, h.tailSize, h.pendingSize, h.pending]

/-- A flush in step changes nothing or makes the whole log durable. -/
theorem Steady.flushLocked (h : Steady image recorder store log keyframe chunks n m)
    (hlog : Ordered log) (htogether : recorder.Together calls.legacyAppend calls.catalogAppend)
    (hresult : recorder.flushLocked calls store = result) :
    (∃ err, result = { recorder, store, err := some err }) ∨
    (∃ saved passed,
      result = ⟨recorder.drained (chunkBytes (chunks ++ log.drop m)), saved, passed, true, none⟩ ∧
      Steady image (recorder.drained (chunkBytes (chunks ++ log.drop m))) saved log keyframe
        (chunks ++ log.drop m) n log.length ∧
      ∀ between ∈ passed, ∀ target ∈ recorder.targets, target.Holds between keyframe chunks ∨
        target.Holds between keyframe (chunks ++ log.drop m)) := by
  have hroom : chunkBytes (chunks ++ log.drop m) < recorder.hardCap := h.chunkBytes_eq ▸ h.room
  unfold Recorder.flushLocked at hresult
  by_cases hpending : recorder.pending = []
  · have hrest : chunks ++ log.drop m = chunks := by rw [← h.pending, hpending, List.append_nil]
    have hself := drained_eq_self hpending (by rw [h.pendingSize, hpending]; rfl) h.tailSize
    have hcovers := h.covers.append
    have hsteady := steady_drained h.holds (hrest ▸ hcovers) (hrest ▸ hroom) h.capacity h.pane
    rw [if_pos hpending] at hresult
    rw [hrest]
    exact .inr ⟨store, [], by rw [hself, hresult], hsteady, nofun⟩
  · rw [if_neg hpending, h.chunkBytes_eq] at hresult
    obtain hfailed | ⟨mirrored, saved, hresult, hsaved, hmirrored, hpanes⟩ :=
      commit_atomic hresult h.holds
        (fun store' hheld hok => h.pending ▸ hheld.appendBatch hpending (orFail_eq_ok hok).2)
        (fun mirrored store' hheld hok =>
          h.pending ▸ hheld.appendPaneBatch hpending (orFail_eq_ok hok).2)
        (fun hl hpane mirrored hok hheld hpanes => by
          rw [htogether hl hpane (orFail_eq_ok hok).1]
          exact hheld.appendPaneBatch_eq_ok hpane ((hpanes _).trans (h.pane hpane)) (h.fits hlog))
    · exact .inl hfailed
    · refine .inr ⟨saved, [mirrored], hresult, ?_, ?_⟩
      · exact steady_drained hsaved h.covers.append hroom h.capacity fun hpane =>
          (hpanes _).trans (h.pane hpane)
      · exact List.forall_mem_singleton.mpr hmirrored

/-- Without a failing call a flush in step succeeds. -/
theorem Steady.flushLocked_err (h : Steady image recorder store log keyframe chunks n m)
    (hlog : Ordered log) (hresult : recorder.flushLocked {} store = result) :
    result.err = none := by
  unfold Recorder.flushLocked at hresult
  by_cases hpending : recorder.pending = []
  · rw [if_pos hpending] at hresult
    rw [← hresult]
  · rw [if_neg hpending] at hresult
    refine commit_err_eq_none hresult h.holds
      (fun store' hheld hok => hheld.appendBatch hpending hok) (fun hl => ?_)
      fun hpane mirrored hheld hpanes => ?_
    · exact (h.holds _ (mem_targets.mpr (.inl ⟨hl, rfl⟩))).appendBatch_eq_ok (h.fits hlog)
    · exact hheld.appendPaneBatch_eq_ok hpane ((hpanes _).trans (h.pane hpane)) (h.fits hlog)

/-- Holding back one more chunk. -/
theorem Steady.push (h : Steady image recorder store log keyframe chunks n m) {chunk : TailChunk}
    (hsmall : recorder.nextSize chunk < recorder.hardCap) :
    Steady image (recorder.push chunk) store (log ++ [chunk]) keyframe chunks n m where
  __ := h
  covers := h.covers.extend [chunk]
  pending := by
    rw [List.drop_append_of_le_length h.covers.boundary_le, ← h.pending]
    rfl
  pendingSize := by
    simp only [Recorder.push, Target.chunkBytes_append, h.pendingSize]
    rfl
  room := by
    simp only [nextSize] at hsmall
    simpa [Recorder.push, hardCap, Nat.add_assoc] using hsmall

theorem Ordered.of_append {more : List TailChunk} (h : Ordered (log ++ more)) : Ordered log where
  increasing := by
    have hincreasing := h.increasing
    rw [List.map_append] at hincreasing
    exact (List.pairwise_append.mp hincreasing).1
  nonempty := fun chunk hmem => h.nonempty chunk (List.mem_append_left _ hmem)

section Keyframe

variable {T : Type*} {engine : RecoveryEngine T} {terminal : T} {boundary : String}

/-- A keyframe that succeeds brings every target to the terminal. -/
theorem keyframe_holds (hsucceeded : result.err = none)
    (hresult : recorder.keyframe engine calls store terminal boundary = result) :
    result.recorder = recorder.drained 0 ∧
      (∀ target ∈ recorder.targets, target.Holds result.store
        (Recorder.image engine recorder.persistContent boundary terminal) []) ∧
      (recorder.catalogPane ≠ "" → result.store.hasPane recorder.catalogPane) := by
  unfold Recorder.keyframe at hresult
  split at hresult
  · subst hresult
    exact nomatch hsucceeded
  next built hbuilt =>
  obtain rfl := eq_image_of_buildKeyframe hbuilt
  obtain ⟨err, -, -, rfl⟩ | ⟨mirrored, err, -, -, -, rfl⟩ |
    ⟨mirrored, saved, hmirrored, hsaved, rfl⟩ := commit_cases hresult
  · exact nomatch hsucceeded
  · exact nomatch hsucceeded
  refine ⟨rfl, ?_⟩
  have hnew : recorder.legacy → Target.legacy.Holds mirrored
      (Recorder.image engine recorder.persistContent boundary terminal) [] := by
    intro hl
    rw [if_pos hl] at hmirrored
    exact (Target.saveKeyframe_rewrites (orFail_eq_ok hmirrored).2).holds
  split at hsaved
  · next hcatalog =>
    have hok := (orFail_eq_ok hsaved).2
    have h := Target.savePaneKeyframe_rewrites hok
    refine ⟨fun target hmem => ?_, fun _ => ?_⟩
    · obtain ⟨hl, rfl⟩ | ⟨-, rfl⟩ := mem_targets.mp hmem
      · exact h.frame .legacy (by simp) _ _ (hnew hl)
      · exact h.holds
    · exact (h.panes _).trans (Target.hasPane_of_savePaneKeyframe hok)
  · next hcatalog =>
    obtain rfl := Except.ok.inj hsaved
    refine ⟨fun target hmem => ?_, fun h => absurd h hcatalog⟩
    obtain ⟨hl, rfl⟩ | ⟨h, -⟩ := mem_targets.mp hmem
    · exact hnew hl
    · exact absurd h hcatalog

/-- A keyframe that cannot fail half way changes nothing or brings every target to the
terminal. -/
theorem keyframe_atomic
    (hold : ∀ target ∈ recorder.targets, target.Holds store keyframe chunks)
    (hpane : recorder.catalogPane ≠ "" → store.hasPane recorder.catalogPane)
    (htogether : recorder.Together calls.legacySave calls.catalogSave)
    (hresult : recorder.keyframe engine calls store terminal boundary = result) :
    (∃ err, result = { recorder, store, err := some err }) ∨
    (∃ saved passed, result = ⟨recorder.drained 0, saved, passed, true, none⟩ ∧
      (∀ target ∈ recorder.targets, target.Holds saved
        (Recorder.image engine recorder.persistContent boundary terminal) []) ∧
      (∀ between ∈ passed, ∀ target ∈ recorder.targets, target.Holds between keyframe chunks ∨
        target.Holds between
          (Recorder.image engine recorder.persistContent boundary terminal) []) ∧
      ∀ paneID, saved.hasPane paneID = store.hasPane paneID) := by
  unfold Recorder.keyframe at hresult
  split at hresult
  · exact .inl ⟨_, hresult.symm⟩
  · next built hbuilt =>
    obtain rfl := eq_image_of_buildKeyframe hbuilt
    obtain hfailed | ⟨mirrored, saved, hresult, hsaved, hmirrored, hpanes⟩ :=
      commit_atomic hresult hold
        (fun store' _ hok => Target.saveKeyframe_rewrites (orFail_eq_ok hok).2)
        (fun mirrored store' _ hok => Target.savePaneKeyframe_rewrites (orFail_eq_ok hok).2)
        (fun hl hcatalog mirrored hok hheld hpanes => by
          obtain ⟨hlegacy, hok⟩ := orFail_eq_ok hok
          rw [htogether hl hcatalog hlegacy]
          exact Target.savePaneKeyframe_eq_ok hcatalog (Target.valid_of_saveKeyframe hok)
            ((hpanes _).trans (hpane hcatalog)))
    · exact .inl hfailed
    · exact .inr ⟨saved, [mirrored], hresult, hsaved, List.forall_mem_singleton.mpr hmirrored,
        hpanes⟩

/-- A keyframe of a recorder in step changes nothing or puts it in step with every log that
the terminal shows. -/
theorem Steady.keyframe_result (h : Steady image recorder store log keyframe chunks n m)
    {image' : List TailChunk → Keyframe} {log' : List TailChunk}
    (himage : Recorder.image engine recorder.persistContent boundary terminal = image' log')
    (htogether : recorder.Together calls.legacySave calls.catalogSave)
    (hresult : recorder.keyframe engine calls store terminal boundary = result) :
    (∃ err, result = { recorder, store, err := some err }) ∨
    (∃ saved passed, result = ⟨recorder.drained 0, saved, passed, true, none⟩ ∧
      Steady image' (recorder.drained 0) saved log' (image' log') [] log'.length log'.length ∧
      ∀ between ∈ passed, ∀ target ∈ recorder.targets, target.Holds between keyframe chunks ∨
        target.Holds between (image' log') []) := by
  obtain hfailed | ⟨saved, passed, hresult, hsaved, hpassed, hpanes⟩ :=
    keyframe_atomic h.holds h.pane htogether hresult
  · exact .inl hfailed
  · rw [himage] at hsaved hpassed
    refine .inr ⟨saved, passed, hresult, ?_, hpassed⟩
    exact steady_drained hsaved (covers_checkpoint image' log') (Nat.zero_lt_of_lt h.room)
      h.capacity fun hpane => (hpanes _).trans (h.pane hpane)

/-- A keyframe of which no call fails succeeds. -/
theorem keyframe_err
    (hold : ∀ target ∈ recorder.targets, target.Holds store keyframe chunks)
    (hpane : recorder.catalogPane ≠ "" → store.hasPane recorder.catalogPane)
    (hsucceeds : recorder.KeyframeSucceeds calls)
    (hboundary : boundary = "grounded" ∨ boundary = "forced")
    (hresult : recorder.keyframe engine calls store terminal boundary = result) :
    result.err = none := by
  obtain ⟨hsnapshot, hprimary, hmetadata, hlegacySave, hcatalogSave⟩ := hsucceeds
  have hvalid := image_valid engine recorder.persistContent terminal hboundary
  unfold Recorder.keyframe at hresult
  rw [buildKeyframe_eq_ok hsnapshot hprimary hmetadata] at hresult
  refine commit_err_eq_none hresult hold
    (fun store' _ hok => Target.saveKeyframe_rewrites (orFail_eq_ok hok).2) (fun hl => ?_)
    fun hcatalog mirrored hheld hpanes => ?_
  · rw [hlegacySave hl]
    exact Target.saveKeyframe_eq_ok hvalid
  · rw [hcatalogSave hcatalog]
    exact Target.savePaneKeyframe_eq_ok hcatalog hvalid ((hpanes _).trans (hpane hcatalog))

end Keyframe

end Recorder

end AgentCockpit.Mux
