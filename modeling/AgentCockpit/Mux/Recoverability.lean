import AgentCockpit.Core.Run
import AgentCockpit.Mux.RecoveryTargets

/-!
# Recorder recoverability

A recorder writes one pane's output to one or two targets, each of which holds a
keyframe and a tail. A run interleaves the pump, which feeds a chunk to the terminal
and then records it, with flushes, keyframes and a finalization. Recoverability says
that every target, in every database state that was durable at some moment, holds the
output recorded up to some boundary, no earlier than the last flush or keyframe that
succeeded, and that the recorder does not get stuck.

Two things break it. A flush or keyframe whose first transaction succeeds and whose
second one fails leaves one target ahead of the buffer: its chunks are then stored
twice, or the batch is refused forever. And a keyframe that sees a chunk which is
not recorded yet, or a chunk that is dropped because the keyframe in its place
failed, puts the buffer and the terminal out of step.
-/

namespace AgentCockpit.Mux

open AgentCockpit.Core

/-- The terminal after the chunks of a log. -/
def RecoveryEngine.feedAll {T : Type*} (engine : RecoveryEngine T) (terminal : T)
    (log : List TailChunk) : T :=
  log.foldl (fun terminal chunk => engine.feed terminal chunk.data) terminal

theorem RecoveryEngine.feedAll_concat {T : Type*} (engine : RecoveryEngine T) (terminal : T)
    (log : List TailChunk) (chunk : TailChunk) :
    engine.feedAll terminal (log ++ [chunk]) =
      engine.feed (engine.feedAll terminal log) chunk.data := by
  simp [feedAll]

/-- The keyframe of a recorded log. -/
def RecoveryEngine.imageOf {T : Type*} (engine : RecoveryEngine T) (start : T)
    (persistContent : Bool) (boundary : String) (log : List TailChunk) : Keyframe :=
  Recorder.image engine persistContent boundary (engine.feedAll start log)

/-- A recorder with its pump. `recorded` is the log of the recorded chunks, `fed` the chunk
that the terminal has seen and the recorder has not. `confirmed` is the length of the log
at the last flush or keyframe that succeeded, `passed` are the database states that were
durable during the last operation, and `promised` is `confirmed` before it. -/
structure RecorderRun (T : Type*) where
  terminal : T
  recorder : Recorder
  store : Store
  recorded : List TailChunk := []
  fed : Option TailChunk := none
  confirmed : ℕ := 0
  passed : List Store := []
  promised : ℕ := 0

inductive RecorderStep
  /-- The pump feeds the next chunk to the terminal. -/
  | feed (chunk : TailChunk)
  /-- The pump records the chunk it fed. -/
  | recordFed (calls : RecorderCalls)
  | flush (calls : RecorderCalls)
  | keyframe (boundary : String) (calls : RecorderCalls)
  | finalize (calls : RecorderCalls)

namespace RecorderRun

variable {T : Type*} (engine : RecoveryEngine T)

/-- The run after an operation of its recorder. -/
def after (run : RecorderRun T) (result : RecorderResult) : RecorderRun T :=
  { run with
    recorder := result.recorder
    store := result.store
    passed := result.passed
    promised := run.confirmed
    confirmed := if result.settled then run.recorded.length else run.confirmed }

/-- The pump hands the fed chunk over; it counts as recorded when content is persisted. -/
def handOver (run : RecorderRun T) (chunk : TailChunk) : RecorderRun T :=
  { run with
    fed := none
    recorded := if run.recorder.persistContent then run.recorded ++ [chunk] else run.recorded }

/-- One step of the run. The pump feeds one chunk at a time, each with a later sequence. -/
def step (run : RecorderRun T) : RecorderStep → Option (RecorderRun T)
  | .feed chunk =>
    if run.fed = none ∧ chunk.data ≠ [] ∧ ∀ earlier ∈ run.recorded,
      earlier.sequence < chunk.sequence
    then some { run with
      terminal := engine.feed run.terminal chunk.data, fed := some chunk, passed := [],
      promised := run.confirmed }
    else none
  | .recordFed calls =>
    match run.fed with
    | some chunk => some <| (run.handOver chunk).after <|
        run.recorder.recordFed engine calls run.store run.terminal chunk
    | none => none
  | .flush calls => some (run.after (run.recorder.flush calls run.store))
  | .keyframe boundary calls =>
    some (run.after (run.recorder.keyframe engine calls run.store run.terminal boundary))
  | .finalize calls =>
    some (run.after (run.recorder.finalize engine calls run.store run.terminal))

/-- A database state holds, at every target, the recorded output up to some boundary that
is no earlier than `least`: no chunk is missing from it and none is in it twice. -/
def Holds (start : T) (run : RecorderRun T) (store : Store) (least : ℕ) : Prop :=
  ∀ target ∈ run.recorder.targets, ∃ boundary keyframe chunks n m,
    target.Holds store keyframe chunks ∧
      Covers (engine.imageOf start run.recorder.persistContent boundary) run.recorded keyframe
        chunks n m ∧ least ≤ m

/-- The promise of the recorder in one state: a crash, now or during the last operation,
loses nothing that was confirmed, and the next fault-free calls succeed. -/
structure Recoverable (start : T) (run : RecorderRun T) : Prop where
  passed : ∀ store ∈ run.passed, run.Holds engine start store run.promised
  durable : run.Holds engine start run.store run.confirmed
  flushes : (run.recorder.flush {} run.store).err = none
  records : ∀ chunk, run.fed = some chunk →
    (run.recorder.recordFed engine {} run.store run.terminal chunk).err = none

/-- The steps under which the promise holds. A second transaction does not fail after the
first one succeeded; a chunk that is recorded is not dropped, by a failing `Ground` call or
by a failing keyframe in its place; and no other keyframe sees a chunk before it is
recorded. -/
def InStep (run : RecorderRun T) : RecorderStep → Prop
  | .feed _ => True
  | .recordFed calls => ∀ chunk, run.fed = some chunk → run.recorder.persistContent →
      calls.ground = none ∧
        run.recorder.Together calls.legacyAppend calls.catalogAppend ∧
        (run.recorder.keyframeDue (engine.ground run.terminal) chunk →
          run.recorder.KeyframeSucceeds calls)
  | .flush calls => run.recorder.Together calls.legacyAppend calls.catalogAppend
  | .keyframe _ calls =>
    (run.recorder.persistContent → run.fed = none) ∧
      run.recorder.Together calls.legacySave calls.catalogSave
  | .finalize calls =>
    (run.recorder.persistContent → run.fed = none) ∧
      run.recorder.Together calls.legacyAppend calls.catalogAppend ∧
      run.recorder.Together calls.legacySave calls.catalogSave

/-- The invariant of the runs whose steps are in step. -/
structure Inv (start : T) (run : RecorderRun T) (boundary : String) (keyframe : Keyframe)
    (chunks : List TailChunk) (n m : ℕ) : Prop where
  steady : run.recorder.Steady (engine.imageOf start run.recorder.persistContent boundary)
    run.store run.recorded keyframe chunks n m
  ordered : Recorder.Ordered (run.recorded ++ run.fed.toList)
  terminal : run.recorder.persistContent →
    run.terminal = engine.feedAll start (run.recorded ++ run.fed.toList)
  blank : run.recorder.persistContent = false → run.recorded = []
  confirmed : run.confirmed ≤ m
  passed : ∀ store ∈ run.passed, run.Holds engine start store run.promised

variable {engine} {start : T} {run : RecorderRun T} {result : RecorderResult}
variable {boundary : String} {keyframe : Keyframe} {chunks : List TailChunk} {n m : ℕ}
variable {calls : RecorderCalls}

/-- A state in which every target holds one record is covered by it. -/
theorem holds_of_covers {store : Store} {least : ℕ}
    (hholds : ∀ target ∈ run.recorder.targets, target.Holds store keyframe chunks)
    (hcovers : Covers (engine.imageOf start run.recorder.persistContent boundary) run.recorded
      keyframe chunks n m) (hleast : least ≤ m) : run.Holds engine start store least :=
  fun target hmem => ⟨boundary, keyframe, chunks, n, m, hholds target hmem, hcovers, hleast⟩

/-- What an operation must establish to keep the invariant. -/
theorem inv_after (hordered : Recorder.Ordered (run.recorded ++ run.fed.toList))
    (hterminal : run.recorder.persistContent →
      run.terminal = engine.feedAll start (run.recorded ++ run.fed.toList))
    (hblank : run.recorder.persistContent = false → run.recorded = [])
    (hcontent : result.recorder.persistContent = run.recorder.persistContent)
    (htargets : result.recorder.targets = run.recorder.targets)
    (hsteady : result.recorder.Steady (engine.imageOf start run.recorder.persistContent boundary)
      result.store run.recorded keyframe chunks n m)
    (hconfirmed : run.confirmed ≤ m) (hsettled : result.settled → m = run.recorded.length)
    (hpassed : ∀ store ∈ result.passed, run.Holds engine start store run.confirmed) :
    (run.after result).Inv engine start boundary keyframe chunks n m where
  steady := by simpa only [after, hcontent] using hsteady
  ordered := hordered
  terminal := by simpa only [after, hcontent] using hterminal
  blank := by simpa only [after, hcontent] using hblank
  confirmed := by
    simp only [after]
    split
    · next h => rw [hsettled h]
    · exact hconfirmed
  passed := by
    intro store hmem target htarget
    rw [show (run.after result).recorder = result.recorder from rfl, htargets] at htarget
    simpa only [after, hcontent] using hpassed store hmem target htarget

/-- An operation that fails without an effect keeps the invariant. -/
theorem Inv.failed (h : run.Inv engine start boundary keyframe chunks n m) (err : String) :
    (run.after ⟨run.recorder, run.store, [], false, some err⟩).Inv engine start boundary keyframe
      chunks n m :=
  inv_after h.ordered h.terminal h.blank rfl rfl h.steady h.confirmed nofun nofun

/-- Between two transactions a target holds its old or its new record. -/
theorem holds_between {boundary' : String} {keyframe' : Keyframe} {chunks' : List TailChunk}
    {n' m' least : ℕ} {between : Store}
    (hcovers : Covers (engine.imageOf start run.recorder.persistContent boundary) run.recorded
      keyframe chunks n m) (hleast : least ≤ m)
    (hcovers' : Covers (engine.imageOf start run.recorder.persistContent boundary') run.recorded
      keyframe' chunks' n' m') (hleast' : least ≤ m')
    (hbetween : ∀ target ∈ run.recorder.targets,
      target.Holds between keyframe chunks ∨ target.Holds between keyframe' chunks') :
    run.Holds engine start between least := by
  intro target hmem
  rcases hbetween target hmem with hold | hnew
  · exact ⟨boundary, keyframe, chunks, n, m, hold, hcovers, hleast⟩
  · exact ⟨boundary', keyframe', chunks', n', m', hnew, hcovers', hleast'⟩

/-- What is confirmed is in the log. -/
theorem Inv.confirmed_le (h : run.Inv engine start boundary keyframe chunks n m) :
    run.confirmed ≤ run.recorded.length :=
  h.confirmed.trans h.steady.covers.boundary_le

/-- Flushing keeps the invariant. -/
theorem Inv.flush_step (h : run.Inv engine start boundary keyframe chunks n m)
    (htogether : run.recorder.Together calls.legacyAppend calls.catalogAppend) :
    ∃ chunks' m', (run.after (run.recorder.flush calls run.store)).Inv engine start boundary
      keyframe chunks' n m' := by
  obtain ⟨err, hresult⟩ | ⟨saved, passed, hresult, hsteady, hpassed⟩ :=
    h.steady.flushLocked h.ordered.of_append htogether rfl
  · refine ⟨chunks, m, ?_⟩
    rw [Recorder.flush, hresult]
    exact h.failed err
  · refine ⟨chunks ++ run.recorded.drop m, run.recorded.length, ?_⟩
    rw [Recorder.flush, hresult]
    exact inv_after h.ordered h.terminal h.blank rfl rfl hsteady h.confirmed_le (fun _ => rfl)
      fun between hmem => holds_between h.steady.covers h.confirmed hsteady.covers h.confirmed_le
        (hpassed between hmem)

/-- The image of the terminal is the image of the log, unless a chunk is fed and not yet
recorded. -/
theorem Inv.image_eq (h : run.Inv engine start boundary keyframe chunks n m)
    (hfed : run.recorder.persistContent → run.fed = none) (boundary' : String) :
    Recorder.image engine run.recorder.persistContent boundary' run.terminal =
      engine.imageOf start run.recorder.persistContent boundary' run.recorded := by
  cases hcontent : run.recorder.persistContent with
  | true => rw [h.terminal hcontent, hfed hcontent, Option.toList_none, List.append_nil]; rfl
  | false => exact Recorder.image_blank ..

/-- A keyframe keeps the invariant when the terminal shows exactly the log. -/
theorem Inv.keyframe_step (h : run.Inv engine start boundary keyframe chunks n m)
    {boundary' : String}
    (hfed : run.recorder.persistContent → run.fed = none)
    (htogether : run.recorder.Together calls.legacySave calls.catalogSave) :
    ∃ boundary keyframe chunks n m,
      (run.after (run.recorder.keyframe engine calls run.store run.terminal boundary')).Inv engine
        start boundary keyframe chunks n m := by
  obtain ⟨err, hresult⟩ | ⟨saved, passed, hresult, hsteady, hpassed⟩ :=
    h.steady.keyframe_result (h.image_eq hfed boundary') htogether rfl
  · rw [hresult]
    exact ⟨boundary, keyframe, chunks, n, m, h.failed err⟩
  · rw [hresult]
    exact ⟨boundary', _, _, _, _, inv_after h.ordered h.terminal h.blank rfl rfl hsteady
      h.confirmed_le (fun _ => rfl) fun between hmem => holds_between h.steady.covers h.confirmed
        hsteady.covers h.confirmed_le (hpassed between hmem)⟩

/-- The clean-shutdown point keeps the invariant. -/
theorem Inv.finalize_step (h : run.Inv engine start boundary keyframe chunks n m)
    (hfed : run.recorder.persistContent → run.fed = none)
    (hflush : run.recorder.Together calls.legacyAppend calls.catalogAppend)
    (hsave : run.recorder.Together calls.legacySave calls.catalogSave) :
    ∃ boundary keyframe chunks n m,
      (run.after (run.recorder.finalize engine calls run.store run.terminal)).Inv engine
        start boundary keyframe chunks n m := by
  have hend := h.confirmed_le
  unfold Recorder.finalize
  obtain ⟨err, hflushed⟩ | ⟨saved, passed, hflushed, hsteady, hpassed⟩ :=
    h.steady.flushLocked h.ordered.of_append hflush rfl
  · rw [hflushed]
    exact ⟨boundary, keyframe, chunks, n, m, h.failed err⟩
  have hbetween : ∀ between ∈ passed, run.Holds engine start between run.confirmed :=
    fun between hmem => holds_between h.steady.covers h.confirmed hsteady.covers hend
      (hpassed between hmem)
  have hflushedHolds : run.Holds engine start saved run.confirmed :=
    holds_of_covers hsteady.holds hsteady.covers hend
  simp only [hflushed, Option.isSome_none, Bool.false_eq_true, if_false]
  split
  · exact ⟨boundary, keyframe, _, n, _, inv_after h.ordered h.terminal h.blank rfl rfl hsteady hend
      (fun _ => rfl) hbetween⟩
  next ground _ =>
  obtain ⟨err, hsaved⟩ | ⟨saved', passed', hsaved, hsteady', hpassed'⟩ :=
    hsteady.keyframe_result (h.image_eq hfed (if ground then "grounded" else "forced")) hsave rfl
  · rw [hsaved]
    exact ⟨boundary, keyframe, _, n, _, inv_after h.ordered h.terminal h.blank rfl rfl hsteady hend
      (fun _ => rfl) (List.forall_mem_append.mpr
        ⟨hbetween, List.forall_mem_singleton.mpr hflushedHolds⟩)⟩
  · rw [hsaved]
    refine ⟨_, _, _, _, _, inv_after h.ordered h.terminal h.blank rfl rfl hsteady' hend
      (fun _ => rfl) (List.forall_mem_append.mpr ⟨hbetween, List.forall_mem_cons.mpr
        ⟨hflushedHolds, fun between hmem => ?_⟩⟩)⟩
    exact holds_between hsteady.covers hend hsteady'.covers hend (hpassed' between hmem)

theorem handOver_eq {chunk : TailChunk} (hcontent : run.recorder.persistContent) :
    run.handOver chunk = { run with fed := none, recorded := run.recorded ++ [chunk] } := by
  rw [handOver, if_pos hcontent]

/-- After a chunk is handed over the terminal shows exactly the log. -/
theorem Inv.handOver (h : run.Inv engine start boundary keyframe chunks n m) {chunk : TailChunk}
    (hfed : run.fed = some chunk) (hcontent : run.recorder.persistContent) :
    Recorder.Ordered (run.recorded ++ [chunk]) ∧
      run.terminal = engine.feedAll start (run.recorded ++ [chunk]) := by
  have hordered := h.ordered
  have hterminal := h.terminal hcontent
  rw [hfed] at hordered hterminal
  exact ⟨hordered, hterminal⟩

/-- What recording a chunk must establish to keep the invariant. -/
theorem Inv.after_handOver (h : run.Inv engine start boundary keyframe chunks n m)
    {chunk : TailChunk} (hfed : run.fed = some chunk) (hcontent : run.recorder.persistContent)
    {boundary' : String} {keyframe' : Keyframe} {chunks' : List TailChunk} {n' m' : ℕ}
    (hsame : result.recorder.persistContent = run.recorder.persistContent)
    (htargets : result.recorder.targets = run.recorder.targets)
    (hsteady : result.recorder.Steady (engine.imageOf start run.recorder.persistContent boundary')
      result.store (run.recorded ++ [chunk]) keyframe' chunks' n' m')
    (hconfirmed : run.confirmed ≤ m')
    (hsettled : result.settled → m' = (run.recorded ++ [chunk]).length)
    (hpassed : ∀ store ∈ result.passed, Holds engine start
      { run with fed := none, recorded := run.recorded ++ [chunk] } store run.confirmed) :
    ((run.handOver chunk).after result).Inv engine start boundary' keyframe' chunks' n' m' := by
  obtain ⟨hordered, hterminal⟩ := h.handOver hfed hcontent
  rw [handOver_eq hcontent]
  refine inv_after ?_ (fun _ => ?_) (fun hblank => ?_) hsame htargets hsteady hconfirmed hsettled
    hpassed
  · simpa using hordered
  · simpa using hterminal
  · exact Bool.noConfusion (hcontent.symm.trans hblank)

/-- A keyframe in place of a chunk covers the chunk. -/
theorem Inv.recordFed_keyframe (h : run.Inv engine start boundary keyframe chunks n m)
    {chunk : TailChunk} {boundary' : String} (hfed : run.fed = some chunk)
    (hcontent : run.recorder.persistContent) (hsucceeds : run.recorder.KeyframeSucceeds calls)
    (hboundary : boundary' = "grounded" ∨ boundary' = "forced") :
    ∃ boundary keyframe chunks n m,
      ((run.handOver chunk).after
        (run.recorder.keyframe engine calls run.store run.terminal boundary')).Inv engine
          start boundary keyframe chunks n m := by
  obtain ⟨hordered, hterminal⟩ := h.handOver hfed hcontent
  have himage : Recorder.image engine run.recorder.persistContent boundary' run.terminal =
      engine.imageOf start run.recorder.persistContent boundary' (run.recorded ++ [chunk]) := by
    rw [hterminal]
    rfl
  have htogether : run.recorder.Together calls.legacySave calls.catalogSave :=
    fun _ hpane _ => hsucceeds.2.2.2.2 hpane
  obtain ⟨err, hresult⟩ | ⟨saved, passed, hresult, hsteady, hpassed⟩ :=
    h.steady.keyframe_result himage htogether rfl
  · have herr := Recorder.keyframe_err h.steady.holds h.steady.pane hsucceeds hboundary hresult
    exact nomatch herr
  · have hcovers := h.steady.covers.extend [chunk]
    have hend : run.confirmed ≤ (run.recorded ++ [chunk]).length :=
      h.confirmed.trans hcovers.boundary_le
    rw [hresult]
    exact ⟨boundary', _, _, _, _, h.after_handOver hfed hcontent rfl rfl hsteady hend
      (fun _ => rfl) fun between hmem => holds_between hcovers h.confirmed hsteady.covers hend
        (hpassed between hmem)⟩

/-- Holding a chunk back, with a flush when the buffer is full. -/
theorem Inv.recordFed_push (h : run.Inv engine start boundary keyframe chunks n m)
    {chunk : TailChunk} (hfed : run.fed = some chunk) (hcontent : run.recorder.persistContent)
    (hsmall : run.recorder.nextSize chunk < run.recorder.hardCap)
    (htogether : run.recorder.Together calls.legacyAppend calls.catalogAppend) :
    ∃ boundary keyframe chunks n m,
      ((run.handOver chunk).after
        (if Recorder.flushSize ≤ (run.recorder.push chunk).pendingSize then
          (run.recorder.push chunk).flushLocked calls run.store
        else { recorder := run.recorder.push chunk, store := run.store })).Inv engine
          start boundary keyframe chunks n m := by
  obtain ⟨hordered, hterminal⟩ := h.handOver hfed hcontent
  have hpushed := h.steady.push hsmall
  have hkept : ∀ err, Inv engine start
      ((run.handOver chunk).after ⟨run.recorder.push chunk, run.store, [], false, err⟩) boundary
      keyframe chunks n m :=
    fun err => h.after_handOver hfed hcontent rfl rfl hpushed h.confirmed nofun nofun
  split
  · obtain ⟨err, hresult⟩ | ⟨saved, passed, hresult, hsteady, hpassed⟩ :=
      hpushed.flushLocked hordered htogether rfl
    · rw [hresult]
      exact ⟨boundary, keyframe, chunks, n, m, hkept (some err)⟩
    · have hend : run.confirmed ≤ (run.recorded ++ [chunk]).length :=
        h.confirmed.trans hpushed.covers.boundary_le
      rw [hresult]
      exact ⟨boundary, keyframe, _, n, _, h.after_handOver hfed hcontent rfl rfl hsteady hend
        (fun _ => rfl) fun between hmem => holds_between hpushed.covers h.confirmed hsteady.covers
          hend (hpassed between hmem)⟩
  · exact ⟨boundary, keyframe, chunks, n, m, hkept none⟩

/-- Recording a chunk keeps the invariant. -/
theorem Inv.recordFed_step (h : run.Inv engine start boundary keyframe chunks n m)
    {chunk : TailChunk} (hfed : run.fed = some chunk)
    (hstep : run.InStep engine (.recordFed calls)) :
    ∃ boundary keyframe chunks n m,
      ((run.handOver chunk).after
        (run.recorder.recordFed engine calls run.store run.terminal chunk)).Inv engine
          start boundary keyframe chunks n m := by
  have hdata : chunk.data ≠ [] :=
    h.ordered.nonempty chunk (List.mem_append_right _ (by simp [hfed]))
  unfold Recorder.recordFed
  rw [if_neg hdata]
  by_cases hcontent : run.recorder.persistContent
  case neg =>
    rw [if_pos hcontent]
    rw [RecorderRun.handOver, if_neg hcontent]
    exact ⟨boundary, keyframe, chunks, n, m, inv_after
      (by simpa using h.ordered.of_append) (fun hpersist => absurd hpersist hcontent)
        h.blank rfl rfl
      h.steady h.confirmed nofun nofun⟩
  rw [if_neg (not_not_intro hcontent)]
  obtain ⟨hground, htogether, hdue⟩ := hstep chunk hfed hcontent
  rw [hground, orFail_none]
  simp only
  split
  · next hcap =>
    refine h.recordFed_keyframe hfed hcontent (hdue ?_) (.inl rfl)
    simp [Recorder.keyframeDue, hcap.1, hcap.2]
  split
  · next hhard =>
    refine h.recordFed_keyframe hfed hcontent (hdue ?_) (.inr rfl)
    simp [Recorder.keyframeDue, hhard]
  next hsmall =>
  exact h.recordFed_push hfed hcontent (Nat.lt_of_not_le hsmall) htogether

theorem Inv.feed_step (h : run.Inv engine start boundary keyframe chunks n m)
    {chunk : TailChunk} (hfed : run.fed = none) (hdata : chunk.data ≠ [])
    (hlater : ∀ earlier ∈ run.recorded, earlier.sequence < chunk.sequence) :
    Inv engine start { run with
      terminal := engine.feed run.terminal chunk.data, fed := some chunk, passed := [],
      promised := run.confirmed } boundary keyframe chunks n m := by
  have hordered := h.ordered
  rw [hfed, Option.toList_none, List.append_nil] at hordered
  refine ⟨h.steady, ⟨?_, ?_⟩, fun hcontent => ?_, h.blank, h.confirmed, nofun⟩
  · rw [Option.toList_some, List.map_append, List.pairwise_append]
    refine ⟨hordered.increasing, List.pairwise_singleton .., fun earlier hmem later hlast => ?_⟩
    obtain ⟨other, hother, rfl⟩ := List.mem_map.mp hmem
    obtain rfl := List.mem_singleton.mp hlast
    exact hlater other hother
  · exact List.forall_mem_append.mpr ⟨hordered.nonempty, List.forall_mem_singleton.mpr hdata⟩
  · rw [h.terminal hcontent, hfed, Option.toList_none, List.append_nil, Option.toList_some,
      engine.feedAll_concat]

/-- Every step that is in step keeps the invariant. -/
theorem Inv.step (h : run.Inv engine start boundary keyframe chunks n m) {label : RecorderStep}
    {run' : RecorderRun T} (hinStep : run.InStep engine label)
    (hstep : run.step engine label = some run') :
    ∃ boundary keyframe chunks n m, run'.Inv engine start boundary keyframe chunks n m := by
  cases label with
  | feed chunk =>
    obtain ⟨hfeed, rfl⟩ := of_ite_some hstep
    obtain ⟨hfed, hdata, hlater⟩ := hfeed
    exact ⟨boundary, keyframe, chunks, n, m, h.feed_step hfed hdata hlater⟩
  | recordFed calls =>
    simp only [RecorderRun.step] at hstep
    split at hstep
    · next chunk hfed =>
      obtain rfl := Option.some.inj hstep
      exact h.recordFed_step hfed hinStep
    · exact nomatch hstep
  | flush calls =>
    obtain rfl := Option.some.inj hstep
    obtain ⟨chunks', m', h'⟩ := h.flush_step hinStep
    exact ⟨boundary, keyframe, chunks', n, m', h'⟩
  | keyframe boundary' calls =>
    obtain rfl := Option.some.inj hstep
    exact h.keyframe_step hinStep.1 hinStep.2
  | finalize calls =>
    obtain rfl := Option.some.inj hstep
    exact h.finalize_step hinStep.1 hinStep.2.1 hinStep.2.2

theorem keyframeSucceeds_default (recorder : Recorder) : recorder.KeyframeSucceeds {} :=
  ⟨rfl, rfl, rfl, fun _ => rfl, fun _ => rfl⟩

/-- Without a failing call a chunk is recorded. -/
theorem Inv.recordFed_err (h : run.Inv engine start boundary keyframe chunks n m)
    {chunk : TailChunk} (hfed : run.fed = some chunk) :
    (run.recorder.recordFed engine {} run.store run.terminal chunk).err = none := by
  have hkeyframe : ∀ boundary', boundary' = "grounded" ∨ boundary' = "forced" →
      (run.recorder.keyframe engine {} run.store run.terminal boundary').err = none :=
    fun boundary' hboundary => Recorder.keyframe_err h.steady.holds h.steady.pane
      (keyframeSucceeds_default _) hboundary rfl
  unfold Recorder.recordFed
  rw [orFail_none]
  split
  · rfl
  split
  · rfl
  next hcontent =>
  simp only
  split
  · exact hkeyframe _ (.inl rfl)
  split
  · exact hkeyframe _ (.inr rfl)
  next hsmall =>
  split
  · obtain ⟨hordered, -⟩ := h.handOver hfed (of_not_not hcontent)
    exact (h.steady.push (Nat.lt_of_not_le hsmall)).flushLocked_err hordered rfl
  · rfl

/-- The invariant gives the promise. -/
theorem Inv.recoverable (h : run.Inv engine start boundary keyframe chunks n m) :
    run.Recoverable engine start where
  passed := h.passed
  durable := holds_of_covers h.steady.holds h.steady.covers h.confirmed
  flushes := h.steady.flushLocked_err h.ordered.of_append rfl
  records := fun _ hfed => h.recordFed_err hfed

/-- Along a run whose steps are in step the invariant holds. -/
theorem Inv.of_run {run' : RecorderRun T} {w : List RecorderStep}
    (h : run.Inv engine start boundary keyframe chunks n m)
    (hrun : Run (RecorderRun.step engine) (InStep engine) run w run') :
    ∃ boundary keyframe chunks n m, run'.Inv engine start boundary keyframe chunks n m := by
  induction hrun generalizing boundary keyframe chunks n m with
  | nil _ => exact ⟨boundary, keyframe, chunks, n, m, h⟩
  | cons hinStep hstep _ ih =>
    obtain ⟨_, _, _, _, _, h'⟩ := h.step hinStep hstep
    exact ih h'

variable (engine start) in
/-- A recorder as an attachment opens it: its first keyframe, in front of the terminal,
succeeded. -/
def opened (legacy : Bool) (catalogPane : String) (persistContent : Bool) (calls : RecorderCalls)
    (store : Store) : Option (RecorderRun T) :=
  let result := (Recorder.newRecorder defaultTailCap legacy catalogPane persistContent).keyframe
    engine calls store start "grounded"
  if result.err = none then
    some { terminal := start, recorder := result.recorder, store := result.store }
  else none

/-- The first keyframe puts a new recorder in step with the empty log. -/
theorem inv_opened {legacy persistContent : Bool} {catalogPane : String} {store : Store}
    (hopened : opened engine start legacy catalogPane persistContent calls store = some run) :
    ∃ keyframe, run.Inv engine start "grounded" keyframe [] 0 0 := by
  generalize hrecorder : Recorder.newRecorder defaultTailCap legacy catalogPane persistContent =
    recorder
  simp only [opened, hrecorder] at hopened
  split at hopened
  swap
  · exact nomatch hopened
  next hsucceeded =>
  obtain rfl := Option.some.inj hopened
  generalize hresult : recorder.keyframe engine calls store start "grounded" = result
  rw [hresult] at hsucceeded
  obtain ⟨hresult, hholds, hpane⟩ := Recorder.keyframe_holds hsucceeded hresult
  have hcap : recorder.hardCap = storeTailCap := by
    rw [← hrecorder]
    rfl
  have hsteady := Recorder.steady_drained hholds
    (covers_checkpoint (engine.imageOf start recorder.persistContent "grounded") [])
    (by rw [hcap]; decide) hcap.le hpane
  refine ⟨Recorder.image engine recorder.persistContent "grounded" start, ?_,
    ⟨List.Pairwise.nil, nofun⟩, fun _ => rfl, fun _ => rfl, le_rfl, nofun⟩
  rw [hresult]
  exact hsteady

/-- **Recoverability.** In every run whose steps are in step, the promise holds in every
state. -/
theorem recoverable_of_inStep {legacy persistContent : Bool} {catalogPane : String} {store : Store}
    {run' : RecorderRun T} {w : List RecorderStep}
    (hopened : opened engine start legacy catalogPane persistContent calls store = some run)
    (hrun : Run (step engine) (InStep engine) run w run') : run'.Recoverable engine start := by
  obtain ⟨_, hinv⟩ := inv_opened hopened
  obtain ⟨_, _, _, _, _, h⟩ := hinv.of_run hrun
  exact h.recoverable

theorem zero_cons_ne_nil (terminal : Bytes) : 0 :: terminal ≠ [] := List.cons_ne_nil _ _

theorem zero_ne_nil : ([0] : Bytes) ≠ [] := List.cons_ne_nil _ _

/-- An engine whose terminal state is its own transcript. -/
def transcriptEngine : RecoveryEngine Bytes where
  version := "transcript"
  feed := (· ++ ·)
  ground := fun _ => true
  snapshot := fun terminal => 0 :: terminal
  primary := none
  metadata := none
  blankSnapshot := [0]
  blankMetadata := []
  version_ne := by decide
  snapshot_ne := zero_cons_ne_nil
  blankSnapshot_ne := zero_ne_nil

/-- A catalog with the primary pane. -/
def catalogued : Store where
  sessions := [⟨"session-1", "shell", "project", "local", "live", false, 0, 0⟩]
  windows := [⟨"window-1", "session-1", "window-1", 0, {}⟩]
  panes := [⟨"pane-1", "window-1", "session-1", "/", "sh", 80, 24, false, ""⟩]

/-- A keyframe whose catalog transaction fails is durable in the legacy record while its
chunk stays in the buffer: the next flush stores the chunk behind a keyframe that
already shows it. -/
theorem not_recoverable_of_catalog_failure :
    ¬ ∀ (run run' : RecorderRun Bytes) (w : List RecorderStep),
      opened transcriptEngine [] true "pane-1" true {} catalogued = some run →
        Run (step transcriptEngine) Always run w run' →
          run'.Recoverable transcriptEngine [] := by
  intro hall
  have hrun : ∃ run run' : RecorderRun Bytes,
      opened transcriptEngine [] true "pane-1" true {} catalogued = some run ∧
      Run (step transcriptEngine) Always run
        [.feed ⟨1, [0x41]⟩, .recordFed {}, .keyframe "grounded" { catalogSave := some "disk full" },
          .flush {}] run' ∧
      run'.recorded = [⟨1, [0x41]⟩] ∧ .legacy ∈ run'.recorder.targets ∧
      run'.store.keyframe.map (·.snapshot) = some [0, 0x41] ∧
      run'.store.tailBatches = [⟨1, 1, [0x41]⟩] ∧ run'.recorder.persistContent = true :=
    ⟨_, _, rfl, .cons trivial rfl (.cons trivial rfl (.cons trivial rfl (.single trivial rfl))),
      rfl,
      by decide, rfl, rfl, rfl⟩
  obtain ⟨run, run', hopened, hrun, hrecorded, htarget, hsnapshot, htail, hcontent⟩ := hrun
  obtain ⟨boundary, keyframe, chunks, n, m, ⟨hkeyframe, hbytes, -⟩, hcovers, -⟩ :=
    (hall run run' _ hopened hrun).durable _ htarget
  rw [hkeyframe, hcovers.base_eq, hcontent, hrecorded] at hsnapshot
  rw [htail, hcovers.tail_eq, hrecorded] at hbytes
  have hm := hcovers.boundary_le
  have hn := hcovers.start_le
  rw [hrecorded, List.length_singleton] at hm
  cases n with
  | zero => simp [RecoveryEngine.imageOf, Recorder.image, transcriptEngine,
      RecoveryEngine.feedAll] at hsnapshot
  | succ n =>
    obtain rfl : m = 1 := by omega
    simp at hbytes

/-- A run in step: a chunk, a keyframe that fails as a whole, and a flush. -/
theorem run_transcript : ∃ run run' : RecorderRun Bytes,
    opened transcriptEngine [] true "pane-1" true {} catalogued = some run ∧
      Run (step transcriptEngine) (InStep transcriptEngine) run
        [.feed ⟨1, [0x41]⟩, .recordFed {}, .keyframe "grounded" { legacySave := some "disk full" },
          .flush {}] run' ∧ run'.confirmed = 1 :=
  ⟨_, _, rfl,
    .cons trivial rfl <|
      .cons (fun _ _ _ => ⟨rfl, fun _ _ _ => rfl, fun _ => keyframeSucceeds_default _⟩) rfl <|
      .cons ⟨fun _ => rfl, fun _ _ h => nomatch h⟩ rfl <|
      .single (fun _ _ _ => rfl) rfl, rfl⟩

theorem recoverable_transcript : ∃ run run' : RecorderRun Bytes,
    opened transcriptEngine [] true "pane-1" true {} catalogued = some run ∧
      run'.Recoverable transcriptEngine [] ∧ run'.confirmed = 1 := by
  obtain ⟨run, run', hopened, hrun, hconfirmed⟩ := run_transcript
  exact ⟨run, run', hopened, recoverable_of_inStep hopened hrun, hconfirmed⟩

end RecorderRun

end AgentCockpit.Mux
