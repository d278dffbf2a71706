import AgentCockpit.Core.Run
import AgentCockpit.Mux.RecoveryTargets

/-!
# The boundary label of a keyframe

A keyframe labelled `grounded` may be restored and continued with raw output, which makes sense
only if the parser was outside an escape sequence when it was taken. Recording and the
finalization ask the terminal. The initialization and a change of the content policy do not: they
label their keyframe `grounded` whatever the parser is in the midst of.
-/

namespace AgentCockpit.Mux

open AgentCockpit.Core

/-- A keyframe that was stored, the terminal it was taken of and the content policy then. -/
structure SavedKeyframe (T : Type*) where
  keyframe : Keyframe
  terminal : T
  persistContent : Bool

/-- A recorder with the keyframes it has stored. -/
structure RecorderLog (T : Type*) where
  terminal : T
  recorder : Recorder
  store : Store
  saved : List (SavedKeyframe T) := []

/-- The operations of a recorder; `record` feeds the chunk to the terminal first. -/
inductive RecorderOp
  | initializeRecorder (calls : RecorderCalls)
  | record (chunk : TailChunk) (calls : RecorderCalls)
  | setPersistScrollback (enabled : Bool) (calls : RecorderCalls)
  | flush (calls : RecorderCalls)
  | finalize (calls : RecorderCalls)

namespace Recorder

variable {T : Type*} (engine : RecoveryEngine T) (calls : RecorderCalls)

/-- The keyframe that a call of `keyframe` stores at some target. -/
def savedBy (recorder : Recorder) (store : Store) (terminal : T) (boundary : String) :
    Option Keyframe :=
  match recorder.buildKeyframe engine calls terminal boundary with
  | .error _ => none
  | .ok keyframe =>
    match (if recorder.legacy then orFail calls.legacySave (store.saveKeyframe keyframe)
      else .ok store) with
    | .error _ => none
    | .ok mirrored =>
      if recorder.legacy then some keyframe
      else if recorder.catalogPane ≠ "" then
        match orFail calls.catalogSave
          (mirrored.savePaneKeyframe recorder.catalogPane keyframe) with
        | .error _ => none
        | .ok _ => some keyframe
      else none

/-- The boundary of the keyframe that recording a chunk takes, if it takes one. -/
def chosenBoundary (recorder : Recorder) (terminal : T) (chunk : TailChunk) : Option String :=
  if chunk.data = [] then none
  else if ¬ recorder.persistContent then none
  else
    match orFail calls.ground (.ok (engine.ground terminal)) with
    | .error _ => none
    | .ok ground =>
      if recorder.cap ≤ recorder.nextSize chunk ∧ ground then some "grounded"
      else if recorder.hardCap ≤ recorder.nextSize chunk then some "forced"
      else none

end Recorder

/-- A keyframe is stored at some target. -/
def StoredKeyframe (store : Store) (keyframe : Keyframe) : Prop :=
  store.keyframe = some keyframe ∨ ∃ paneID, store.sessionKeyframes paneID = some keyframe

namespace RecorderLog

variable {T : Type*} (engine : RecoveryEngine T)

/-- The terminal that an operation sees. -/
def terminalAfter (run : RecorderLog T) : RecorderOp → T
  | .record chunk _ =>
    if chunk.data = [] then run.terminal else engine.feed run.terminal chunk.data
  | _ => run.terminal

/-- What the recorder makes of an operation. -/
def result (run : RecorderLog T) : RecorderOp → RecorderResult
  | .initializeRecorder calls =>
    run.recorder.keyframe engine calls run.store run.terminal "grounded"
  | .record chunk calls =>
    run.recorder.recordFed engine calls run.store
      (run.terminalAfter engine (.record chunk calls)) chunk
  | .setPersistScrollback enabled calls =>
    run.recorder.setPersistScrollback engine calls run.store run.terminal enabled
  | .flush calls => run.recorder.flush calls run.store
  | .finalize calls => run.recorder.finalize engine calls run.store run.terminal

/-- The call of `keyframe` that an operation makes: the recorder, the database and the boundary it
is called with, and its environment. -/
def keyframeCall (run : RecorderLog T) :
    RecorderOp → Option (Recorder × Store × String × RecorderCalls)
  | .initializeRecorder calls => some (run.recorder, run.store, "grounded", calls)
  | .record chunk calls =>
    (run.recorder.chosenBoundary engine calls
      (run.terminalAfter engine (.record chunk calls)) chunk).map
        fun boundary => (run.recorder, run.store, boundary, calls)
  | .setPersistScrollback enabled calls =>
    if run.recorder.persistContent = enabled then none
    else some ({ run.recorder with persistContent := enabled }, run.store, "grounded", calls)
  | .flush _ => none
  | .finalize calls =>
    let flushed := run.recorder.flushLocked calls run.store
    if flushed.err.isSome then none
    else
      match orFail calls.ground (.ok (engine.ground run.terminal)) with
      | .error _ => none
      | .ok ground =>
        some (flushed.recorder, flushed.store, if ground then "grounded" else "forced", calls)

/-- The keyframe that an operation stores. -/
def saves (run : RecorderLog T) (op : RecorderOp) : Option (SavedKeyframe T) :=
  (run.keyframeCall engine op).bind fun (recorder, store, boundary, calls) =>
    (recorder.savedBy engine calls store (run.terminalAfter engine op) boundary).map
      fun keyframe => ⟨keyframe, run.terminalAfter engine op, recorder.persistContent⟩

def step (run : RecorderLog T) (op : RecorderOp) : Option (RecorderLog T) :=
  some
    { terminal := run.terminalAfter engine op
      recorder := (run.result engine op).recorder
      store := (run.result engine op).store
      saved := run.saved ++ (run.saves engine op).toList }

/-- The terminal is at ground when the recorder is initialized with content, or content is turned
on. -/
def AsksGround (run : RecorderLog T) : RecorderOp → Prop
  | .initializeRecorder _ => run.recorder.persistContent = true → engine.ground run.terminal = true
  | .setPersistScrollback enabled _ =>
    run.recorder.persistContent = false → enabled = true → engine.ground run.terminal = true
  | _ => True

/-- Every keyframe that was stored as grounded with content was taken at ground. -/
def Grounded (run : RecorderLog T) : Prop :=
  ∀ entry ∈ run.saved, entry.keyframe.boundary = "grounded" → entry.persistContent = true →
    engine.ground entry.terminal = true

/-- The log has every keyframe that was stored since the database `start`, each of them an image
of the terminal next to it. -/
structure Logged (start : Store) (run : RecorderLog T) : Prop where
  stored : ∀ keyframe, StoredKeyframe run.store keyframe →
    StoredKeyframe start keyframe ∨ ∃ entry ∈ run.saved, entry.keyframe = keyframe
  images : ∀ entry ∈ run.saved, entry.keyframe =
    Recorder.image engine entry.persistContent entry.keyframe.boundary entry.terminal

end RecorderLog

/-! ### What is stored -/

section Stored

variable {T : Type*} {engine : RecoveryEngine T} {calls : RecorderCalls} {recorder : Recorder}
variable {store store' : Store} {terminal : T} {boundary : String} {keyframe stored : Keyframe}

theorem StoredKeyframe.saveKeyframe (hok : store.saveKeyframe keyframe = .ok store') :
    StoredKeyframe store' stored → StoredKeyframe store stored ∨ keyframe = stored := by
  unfold Store.saveKeyframe at hok
  split at hok
  · obtain rfl := Except.ok.inj hok
    rintro (h | h)
    · exact .inr (Option.some.inj h)
    · exact .inl (.inr h)
  · exact nomatch hok

theorem StoredKeyframe.savePaneKeyframe {paneID : String}
    (hok : store.savePaneKeyframe paneID keyframe = .ok store') :
    StoredKeyframe store' stored → StoredKeyframe store stored ∨ keyframe = stored := by
  unfold Store.savePaneKeyframe at hok
  split at hok
  · exact nomatch hok
  split at hok
  · obtain rfl := Except.ok.inj hok
    rintro (h | ⟨otherID, h⟩)
    · exact .inl (.inl h)
    · by_cases hother : otherID = paneID
      · subst hother
        exact .inr (Option.some.inj ((setAt_self ..).symm.trans h))
      · exact .inl (.inr ⟨otherID, (setAt_of_ne _ _ hother).symm.trans h⟩)
  · exact nomatch hok

theorem StoredKeyframe.appendBatch {chunks : List TailChunk}
    (hok : store.appendBatch chunks = .ok store') (h : StoredKeyframe store' stored) :
    StoredKeyframe store stored := by
  unfold Store.appendBatch at hok
  split at hok
  · cases hcheck : Store.checkBatch chunks ((store.tailBatches.map (·.data.length)).sum)
        (store.tailBatches.getLast?.map (·.lastSequence)) with
    | error _ => rw [hcheck] at hok; exact nomatch hok
    | ok _ =>
      rw [hcheck] at hok
      obtain rfl := Except.ok.inj hok
      exact h
  · obtain rfl := Except.ok.inj hok
    exact h

theorem StoredKeyframe.appendPaneBatch {paneID : String} {chunks : List TailChunk}
    (hok : store.appendPaneBatch paneID chunks = .ok store') (h : StoredKeyframe store' stored) :
    StoredKeyframe store stored := by
  unfold Store.appendPaneBatch at hok
  split at hok
  · exact nomatch hok
  split at hok
  · obtain rfl := Except.ok.inj hok
    exact h
  obtain ⟨_, _, hok⟩ := bind_eq_ok hok
  split at hok
  · obtain rfl := Except.ok.inj hok
    exact h
  · exact nomatch hok

/-- A flush stores no keyframe. -/
theorem StoredKeyframe.flushLocked
    (h : StoredKeyframe (recorder.flushLocked calls store).store stored) :
    StoredKeyframe store stored := by
  unfold Recorder.flushLocked at h
  split at h
  · exact h
  have hlegacy : ∀ mirrored, (if recorder.legacy then
      orFail calls.legacyAppend (store.appendBatch recorder.pending) else .ok store) =
        .ok mirrored → StoredKeyframe mirrored stored → StoredKeyframe store stored := by
    intro mirrored hmirrored hstored
    split at hmirrored
    · exact hstored.appendBatch (orFail_eq_ok hmirrored).2
    · obtain rfl := Except.ok.inj hmirrored
      exact hstored
  obtain ⟨err, -, -, hresult⟩ | ⟨mirrored, err, hmirrored, -, -, hresult⟩ |
    ⟨mirrored, saved, hmirrored, hsaved, hresult⟩ := Recorder.commit_cases rfl
  · rw [hresult] at h
    exact h
  · rw [hresult] at h
    exact hlegacy mirrored hmirrored h
  · rw [hresult] at h
    apply hlegacy mirrored hmirrored
    split at hsaved
    · exact h.appendPaneBatch (orFail_eq_ok hsaved).2
    · obtain rfl := Except.ok.inj hsaved
      exact h

/-- What is stored after a call of `keyframe` was stored before it, or the call stored it. -/
theorem StoredKeyframe.before_keyframe
    (h : StoredKeyframe (recorder.keyframe engine calls store terminal boundary).store stored) :
    StoredKeyframe store stored ∨
      recorder.savedBy engine calls store terminal boundary = some stored := by
  unfold Recorder.keyframe at h
  cases hbuild : recorder.buildKeyframe engine calls terminal boundary with
  | error err =>
    rw [hbuild] at h
    exact .inl h
  | ok keyframe =>
    simp only [hbuild] at h
    have hlegacy : ∀ mirrored, (if recorder.legacy then
        orFail calls.legacySave (store.saveKeyframe keyframe) else .ok store) = .ok mirrored →
          StoredKeyframe mirrored stored →
            StoredKeyframe store stored ∨ recorder.legacy ∧ keyframe = stored := by
      intro mirrored hmirrored hstored
      split at hmirrored
      next hl =>
        exact (StoredKeyframe.saveKeyframe (orFail_eq_ok hmirrored).2 hstored).imp_right fun heq =>
          ⟨hl, heq⟩
      next =>
        obtain rfl := Except.ok.inj hmirrored
        exact .inl hstored
    -- no write, only the first one, or both
    obtain ⟨err, -, -, hresult⟩ | ⟨mirrored, err, hmirrored, -, -, hresult⟩ |
      ⟨mirrored, saved, hmirrored, hsaved, hresult⟩ := Recorder.commit_cases rfl
    · rw [hresult] at h
      exact .inl h
    · rw [hresult] at h
      apply (hlegacy mirrored hmirrored h).imp_right
      rintro ⟨hl, rfl⟩
      simp only [Recorder.savedBy, hbuild, hmirrored, if_pos hl]
    · rw [hresult] at h
      by_cases hpane : recorder.catalogPane = ""
      · rw [if_neg (not_not.mpr hpane)] at hsaved
        obtain rfl := Except.ok.inj hsaved
        apply (hlegacy mirrored hmirrored h).imp_right
        rintro ⟨hl, rfl⟩
        simp only [Recorder.savedBy, hbuild, hmirrored, if_pos hl]
      · rw [if_pos hpane] at hsaved
        rcases StoredKeyframe.savePaneKeyframe (orFail_eq_ok hsaved).2 h with h | rfl
        · apply (hlegacy mirrored hmirrored h).imp_right
          rintro ⟨hl, rfl⟩
          simp only [Recorder.savedBy, hbuild, hmirrored, if_pos hl]
        · right
          by_cases hl : recorder.legacy
          · simp only [Recorder.savedBy, hbuild, hmirrored, if_pos hl]
          · simp only [Recorder.savedBy, hbuild, hmirrored, if_neg hl, if_pos hpane, hsaved]

/-- A call of `keyframe` stores the image of the terminal. -/
theorem Recorder.savedBy_eq_image
    (h : recorder.savedBy engine calls store terminal boundary = some keyframe) :
    keyframe = image engine recorder.persistContent boundary terminal := by
  unfold savedBy at h
  split at h
  · exact nomatch h
  next built hbuild =>
    rw [← eq_image_of_buildKeyframe hbuild]
    split at h
    · exact nomatch h
    · split at h
      · exact (Option.some.inj h).symm
      · split at h
        · split at h
          · exact nomatch h
          · exact (Option.some.inj h).symm
        · exact nomatch h

/-- Recording a chunk is a call of `keyframe` where a boundary is chosen. -/
theorem Recorder.recordFed_of_chosenBoundary {chunk : TailChunk}
    (h : recorder.chosenBoundary engine calls terminal chunk = some boundary) :
    recorder.recordFed engine calls store terminal chunk =
      recorder.keyframe engine calls store terminal boundary := by
  unfold chosenBoundary at h
  unfold recordFed
  split at h
  · exact nomatch h
  next hdata =>
  split at h
  · exact nomatch h
  next hpersist =>
  rw [if_neg hdata, if_neg hpersist]
  cases hground : orFail calls.ground (.ok (engine.ground terminal)) with
  | error err =>
    rw [hground] at h
    exact nomatch h
  | ok ground =>
    simp only [hground] at h ⊢
    by_cases hcap : recorder.cap ≤ recorder.nextSize chunk ∧ ground = true
    · rw [if_pos hcap] at h ⊢
      rw [Option.some.inj h]
    · rw [if_neg hcap] at h ⊢
      split at h
      next hhard => rw [if_pos hhard, Option.some.inj h]
      next => exact nomatch h

/-- Recording a chunk chooses `grounded` at ground only. -/
theorem Recorder.ground_of_chosenBoundary {chunk : TailChunk}
    (h : recorder.chosenBoundary engine calls terminal chunk = some boundary)
    (hboundary : boundary = "grounded") : engine.ground terminal = true := by
  unfold chosenBoundary at h
  split at h
  · exact nomatch h
  split at h
  · exact nomatch h
  split at h
  · exact nomatch h
  next ground hground =>
  obtain rfl := Except.ok.inj (orFail_eq_ok hground).2
  split at h
  next hcap => exact hcap.2
  next =>
  split at h
  · exact absurd ((Option.some.inj h).trans hboundary) (by decide)
  · exact nomatch h

/-- Recording a chunk stores no keyframe where no boundary is chosen. -/
theorem StoredKeyframe.before_recordFed {chunk : TailChunk}
    (hchosen : recorder.chosenBoundary engine calls terminal chunk = none)
    (h : StoredKeyframe (recorder.recordFed engine calls store terminal chunk).store stored) :
    StoredKeyframe store stored := by
  unfold Recorder.chosenBoundary at hchosen
  unfold Recorder.recordFed at h
  split at h
  · exact h
  next hdata =>
  split at h
  · exact h
  next hpersist =>
  rw [if_neg hdata, if_neg hpersist] at hchosen
  split at h
  · exact h
  next ground hground =>
  rw [hground] at hchosen
  dsimp only at hchosen
  split at h
  next hcap => exact absurd hchosen (by rw [if_pos hcap]; exact nofun)
  next hcap =>
  split at h
  next hhard => exact absurd hchosen (by rw [if_neg hcap, if_pos hhard]; exact nofun)
  next =>
  dsimp only at h
  split at h
  · exact h.flushLocked
  · exact h

end Stored

namespace RecorderLog

variable {T : Type*} {engine : RecoveryEngine T} {run after : RecorderLog T} {op : RecorderOp}
variable {stored : Keyframe} {entry : SavedKeyframe T}

/-- What is stored after an operation was stored before it, or the operation stored it. -/
theorem stored_result (h : StoredKeyframe (run.result engine op).store stored) :
    StoredKeyframe run.store stored ∨
      ∃ entry, run.saves engine op = some entry ∧ entry.keyframe = stored := by
  have hcall : ∀ {recorder store boundary calls terminal},
      StoredKeyframe
        (recorder.keyframe engine calls store terminal boundary).store stored →
      run.keyframeCall engine op = some (recorder, store, boundary, calls) →
      run.terminalAfter engine op = terminal →
      StoredKeyframe store stored ∨
        ∃ entry, run.saves engine op = some entry ∧ entry.keyframe = stored := by
    intro recorder store boundary calls terminal hstored hcall hterminal
    apply hstored.before_keyframe.imp_right
    intro hsaved
    refine ⟨⟨stored, terminal, recorder.persistContent⟩, ?_, rfl⟩
    simp only [saves, hcall, Option.bind_some, hterminal, hsaved, Option.map_some]
  cases op with
  | initializeRecorder calls => exact hcall h rfl rfl
  | flush calls => exact .inl h.flushLocked
  | setPersistScrollback enabled calls =>
    simp only [result, Recorder.setPersistScrollback] at h
    split at h
    · exact .inl h
    next hne => exact hcall h (by simp only [keyframeCall, if_neg hne]) rfl
  | record chunk calls =>
    cases hchosen : run.recorder.chosenBoundary engine calls
        (run.terminalAfter engine (.record chunk calls)) chunk with
    | none => exact .inl (StoredKeyframe.before_recordFed hchosen h)
    | some boundary =>
      rw [result, Recorder.recordFed_of_chosenBoundary hchosen] at h
      exact hcall h (by simp only [keyframeCall, hchosen, Option.map_some]) rfl
  | finalize calls =>
    simp only [result, Recorder.finalize] at h
    split at h
    · exact .inl h.flushLocked
    next hflushed =>
    split at h
    · exact .inl h.flushLocked
    next ground hground =>
      refine (hcall h ?_ rfl).imp_left StoredKeyframe.flushLocked
      simp only [keyframeCall, if_neg hflushed, hground]

/-- An operation stores the keyframe of its call. -/
theorem saves_eq_some (h : run.saves engine op = some entry) :
    ∃ recorder store boundary calls,
      run.keyframeCall engine op = some (recorder, store, boundary, calls) ∧
      entry.persistContent = recorder.persistContent ∧ entry.keyframe.boundary = boundary ∧
      entry.terminal = run.terminalAfter engine op ∧
      entry.keyframe =
        Recorder.image engine entry.persistContent entry.keyframe.boundary entry.terminal := by
  obtain ⟨⟨recorder, store, boundary, calls⟩, hcall, hsaved⟩ := Option.bind_eq_some_iff.mp h
  obtain ⟨keyframe, hkeyframe, rfl⟩ := Option.map_eq_some_iff.mp hsaved
  have himage := Recorder.savedBy_eq_image hkeyframe
  have hboundary : keyframe.boundary = boundary := congrArg (·.boundary) himage
  refine ⟨recorder, store, boundary, calls, hcall, rfl, hboundary, rfl, ?_⟩
  rw [hboundary]
  exact himage

/-- Only a terminal at ground is called grounded, when the operation asks or is known to be at
ground. -/
theorem ground_of_keyframeCall {recorder : Recorder} {store : Store} {calls : RecorderCalls}
    (hasks : run.AsksGround engine op)
    (hcall : run.keyframeCall engine op = some (recorder, store, "grounded", calls))
    (hcontent : recorder.persistContent = true) :
    engine.ground (run.terminalAfter engine op) = true := by
  cases op with
  | initializeRecorder calls =>
    cases hcall
    exact hasks hcontent
  | flush calls => exact nomatch hcall
  | setPersistScrollback enabled calls =>
    simp only [keyframeCall] at hcall
    split at hcall
    · exact nomatch hcall
    next hne =>
      cases hcall
      simp only at hcontent
      subst hcontent
      exact hasks (Bool.not_eq_true _ ▸ hne) rfl
  | record chunk calls =>
    obtain ⟨chosen, hchosen, heq⟩ := Option.map_eq_some_iff.mp hcall
    cases heq
    exact Recorder.ground_of_chosenBoundary hchosen rfl
  | finalize calls =>
    simp only [keyframeCall] at hcall
    split at hcall
    · exact nomatch hcall
    split at hcall
    · exact nomatch hcall
    next ground hground =>
      obtain rfl := Except.ok.inj (orFail_eq_ok hground).2
      have hlabel : (if engine.ground run.terminal then "grounded" else "forced") = "grounded" :=
        congrArg (fun call => call.2.2.1) (Option.some.inj hcall)
      cases hground : engine.ground run.terminal with
      | true => exact hground
      | false =>
        rw [hground, if_neg Bool.false_ne_true] at hlabel
        exact absurd hlabel (by decide)

theorem Grounded.step (h : run.Grounded engine) (hasks : run.AsksGround engine op)
    (hstep : run.step engine op = some after) : after.Grounded engine := by
  obtain rfl := Option.some.inj hstep
  intro entry hentry hboundary hcontent
  rcases List.mem_append.mp hentry with hentry | hentry
  · exact h entry hentry hboundary hcontent
  · obtain ⟨recorder, store, boundary, calls, hcall, hpersist, hlabel, hterminal, -⟩ :=
      saves_eq_some (Option.mem_toList.mp hentry)
    rw [← hlabel, hboundary] at hcall
    rw [hterminal]
    exact ground_of_keyframeCall hasks hcall (hpersist ▸ hcontent)

theorem Logged.step {start : Store} (h : run.Logged engine start)
    (hstep : run.step engine op = some after) : after.Logged engine start := by
  obtain rfl := Option.some.inj hstep
  constructor
  · intro keyframe hstored
    rcases stored_result hstored with hbefore | ⟨entry, hsaves, rfl⟩
    · apply (h.stored keyframe hbefore).imp_right
      rintro ⟨entry, hentry, rfl⟩
      exact ⟨entry, List.mem_append_left _ hentry, rfl⟩
    · exact .inr ⟨entry, List.mem_append_right _ (Option.mem_toList.mpr hsaves), rfl⟩
  · intro entry hentry
    rcases List.mem_append.mp hentry with hentry | hentry
    · exact h.images entry hentry
    · obtain ⟨_, _, _, _, -, -, -, -, himage⟩ := saves_eq_some (Option.mem_toList.mp hentry)
      exact himage

/-- The log of a run has what the run stored. -/
theorem logged_of_run {admits : RecorderLog T → RecorderOp → Prop} {w : List RecorderOp}
    (hnew : run.saved = []) (hrun : Run (step engine) admits run w after) :
    after.Logged engine run.store := by
  refine hrun.invariant (fun _ _ _ hlogged _ hstep => hlogged.step hstep) ⟨fun _ h => .inl h, ?_⟩
  rw [hnew]
  exact nofun

end RecorderLog

/-- **A keyframe labelled grounded was taken at ground**, in every run in which the recorder is
initialized with content, and content is turned on, only while the parser is at ground. -/
theorem grounded_keyframes {T : Type*} (engine : RecoveryEngine T) {run after : RecorderLog T}
    {w : List RecorderOp} (hnew : run.saved = [])
    (hrun : Run (RecorderLog.step engine) (RecorderLog.AsksGround engine) run w after) :
    after.Grounded engine ∧ after.Logged engine run.store := by
  refine ⟨?_, RecorderLog.logged_of_run hnew hrun⟩
  refine hrun.invariant (fun _ _ _ hgrounded hasks hstep => hgrounded.step hasks hstep) ?_
  intro entry hentry
  rw [hnew] at hentry
  exact nomatch hentry

/-- An engine whose terminal is its transcript, in an escape sequence behind an ESC. -/
def escapeEngine : RecoveryEngine Bytes where
  version := "escape"
  feed := (· ++ ·)
  ground := fun terminal => terminal.getLast? ≠ some 0x1b
  snapshot := fun terminal => 0 :: terminal
  primary := none
  metadata := none
  blankSnapshot := [0]
  blankMetadata := []
  version_ne := by decide
  snapshot_ne := fun _ => List.cons_ne_nil _ _
  blankSnapshot_ne := by decide

/-- A recorder of the primary pane, without content. -/
def contentOff : RecorderLog Bytes where
  terminal := []
  recorder := Recorder.newRecorder 0 true "" false
  store := {}

theorem grounded_keyframes_contentOff : ∃ after : RecorderLog Bytes,
    Run (RecorderLog.step escapeEngine) (RecorderLog.AsksGround escapeEngine) contentOff
      [.record ⟨1, [0x41]⟩ {}, .setPersistScrollback true {}] after ∧
    after.store.keyframe.map (·.snapshot) = some [0, 0x41] ∧
    after.Grounded escapeEngine ∧ after.Logged escapeEngine contentOff.store := by
  have hrun : ∃ after : RecorderLog Bytes,
      Run (RecorderLog.step escapeEngine) (RecorderLog.AsksGround escapeEngine) contentOff
        [.record ⟨1, [0x41]⟩ {}, .setPersistScrollback true {}] after ∧
      after.store.keyframe.map (·.snapshot) = some [0, 0x41] :=
    ⟨_, .cons trivial rfl (.single (fun _ _ => by decide) rfl), rfl⟩
  obtain ⟨after, hrun, hstored⟩ := hrun
  exact ⟨after, hrun, hstored, grounded_keyframes escapeEngine rfl hrun⟩

/-- The output ends in an ESC while content is off; turning content on labels the keyframe of the
parser in the midst of the sequence as grounded. -/
theorem not_grounded_keyframes :
    ¬ ∀ (run after : RecorderLog Bytes) (w : List RecorderOp), run.saved = [] →
      Run (RecorderLog.step escapeEngine) Always run w after → after.Grounded escapeEngine := by
  intro hall
  have hrun : ∃ after : RecorderLog Bytes,
      Run (RecorderLog.step escapeEngine) Always contentOff
        [.record ⟨1, [0x1b]⟩ {}, .setPersistScrollback true {}] after ∧
      ∃ entry ∈ after.saved, entry.keyframe.boundary = "grounded" ∧
        entry.persistContent = true ∧ escapeEngine.ground entry.terminal = false :=
    ⟨_, .cons trivial rfl (.single trivial rfl), _, List.mem_singleton_self _, rfl, rfl,
      by decide⟩
  obtain ⟨after, hrun, entry, hentry, hboundary, hcontent, hground⟩ := hrun
  have hat := hall contentOff after _ rfl hrun entry hentry hboundary hcontent
  exact absurd (hground.symm.trans hat) (by decide)

end AgentCockpit.Mux
