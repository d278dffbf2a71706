import AgentCockpit.Mux.Handoff.Prepare
import AgentCockpit.Mux.Operations.LifecycleSteps

/-!
# A handoff while panes exit

A reader that pauses for a request stays paused until the request is released, and the
watcher of its pane waits for it. So a pane that the attempt has paused is live until the
attempt lets it go. A pane whose turn is still to come is not protected.
-/

namespace AgentCockpit.Mux

open AgentCockpit.Core

namespace ShadowAttachment

variable {attachment next : ShadowAttachment} {owed owed' : ℕ → Prop} {request : ℕ}

/-- The reader waits for a request that was not released. -/
def Waits (attachment : ShadowAttachment) (request : ℕ) : Prop :=
  attachment.pump = .waiting request ∧
    ∃ pause : HandoffPause, attachment.requests[request]? = some pause ∧ pause.released = false

/-- A request stands that was not released. -/
def Asked (attachment : ShadowAttachment) (request : ℕ) : Prop :=
  attachment.handoffRequest = some request ∧
    ∃ pause : HandoffPause, attachment.requests[request]? = some pause ∧ pause.released = false

/-- Every request that a reader may wait for was released, or its release is `owed`. -/
structure Accounted (attachment : ShadowAttachment) (owed : ℕ → Prop) : Prop where
  waiting : ∀ request, attachment.pump = .waiting request → ∃ pause : HandoffPause,
    attachment.requests[request]? = some pause ∧ pause.paused = true ∧
      (pause.released = true ∨ owed request)
  requested : ∀ request, attachment.handoffRequest = some request → ∃ pause : HandoffPause,
    attachment.requests[request]? = some pause ∧ (pause.released = true ∨ owed request)
  resumed : ∀ request, attachment.pump = .resumed request → ∃ pause : HandoffPause,
    attachment.requests[request]? = some pause ∧ pause.released = true
  paused : ∀ (request : ℕ) (pause : HandoffPause), attachment.requests[request]? = some pause →
    pause.paused = true → pause.released = false → attachment.pump = .waiting request

theorem accounted_new : Accounted {} owed :=
  ⟨nofun, nofun, nofun, nofun⟩

theorem Accounted.mono (h : attachment.Accounted owed)
    (himp : ∀ request, owed request → owed' request) :
    attachment.Accounted owed' where
  waiting request hpump := by
    obtain ⟨pause, hpause, hpaused, howed⟩ := h.waiting request hpump
    exact ⟨pause, hpause, hpaused, howed.imp_right (himp request)⟩
  requested request hrequest := by
    obtain ⟨pause, hpause, howed⟩ := h.requested request hrequest
    exact ⟨pause, hpause, howed.imp_right (himp request)⟩
  resumed := h.resumed
  paused := h.paused

/-- The requests stay as they are while the reader moves between phases in which it does not
wait. -/
theorem Accounted.move (h : attachment.Accounted owed) {pump : PumpPhase}
    (hfrom : ∀ request, attachment.pump ≠ .waiting request)
    (hto : ∀ request, pump ≠ .waiting request ∧ pump ≠ .resumed request) :
    Accounted { attachment with pump } owed :=
  ⟨fun request hpump => absurd hpump (hto request).1, h.requested,
    fun request hpump => absurd hpump (hto request).2,
    fun request pause hpause hpaused hreleased =>
      absurd (h.paused request pause hpause hpaused hreleased) (hfrom request)⟩

theorem getElem?_updateRequest (attachment : ShadowAttachment) (request other : ℕ)
    (change : HandoffPause → HandoffPause) :
    (attachment.updateRequest request change).requests[other]? =
      (attachment.requests[other]?).map fun pause =>
        if request = other then change pause else pause := by
  rw [updateRequest, List.getElem?_modify]
  rfl

/-- A request after a change of one of them. -/
theorem of_updateRequest {change : HandoffPause → HandoffPause} {other : ℕ} {pause : HandoffPause}
    (h : (attachment.updateRequest request change).requests[other]? = some pause) :
    ∃ before, attachment.requests[other]? = some before ∧
      pause = if request = other then change before else before := by
  rw [getElem?_updateRequest, Option.map_eq_some_iff] at h
  obtain ⟨before, hbefore, heq⟩ := h
  exact ⟨before, hbefore, heq.symm⟩

theorem updateRequest_of {change : HandoffPause → HandoffPause} {other : ℕ} {before : HandoffPause}
    (h : attachment.requests[other]? = some before) :
    (attachment.updateRequest request change).requests[other]? =
      some (if request = other then change before else before) := by
  rw [getElem?_updateRequest, h]
  rfl

/-- The reader pauses for the request that stands. -/
theorem Accounted.pause (h : attachment.Accounted owed)
    (hpump : attachment.pump = .grounded request)
    (hstands : attachment.handoffRequest = some request) :
    (({ attachment with pump := .waiting request } : ShadowAttachment).updateRequest request
      fun pause => { pause with paused := true }).Accounted owed where
  waiting other hother := by
    obtain rfl := PumpPhase.waiting.inj hother
    obtain ⟨standing, hstanding, howed⟩ := h.requested request hstands
    exact ⟨_, updateRequest_of hstanding, by rw [if_pos rfl], by rw [if_pos rfl]; exact howed⟩
  requested other hother := by
    obtain ⟨standing, hstanding, howed⟩ := h.requested other hother
    refine ⟨_, updateRequest_of hstanding, ?_⟩
    split <;> exact howed
  resumed _ hpump := nomatch hpump
  paused other pause hpause hpaused hreleased := by
    obtain ⟨before, hbefore, rfl⟩ := of_updateRequest hpause
    by_cases heq : request = other
    · exact congrArg PumpPhase.waiting heq
    · rw [if_neg heq] at hpaused hreleased
      exact nomatch hpump.symm.trans (h.paused other before hbefore hpaused hreleased)

/-- A step of the reader. -/
theorem Accounted.pumpStep (h : attachment.Accounted owed) {step : PumpStep}
    (hstep : attachment.pumpStep step = some next) : next.Accounted owed := by
  cases step with
  | check =>
    simp only [ShadowAttachment.pumpStep] at hstep
    split at hstep
    · next hpump =>
      have hfrom : ∀ request, attachment.pump ≠ .waiting request := by simp [hpump]
      split at hstep
      · obtain rfl := Option.some.inj hstep
        exact h.move hfrom fun _ => ⟨by simp, by simp⟩
      · obtain rfl := Option.some.inj hstep
        exact h.move hfrom fun _ => ⟨by simp, by simp⟩
    · cases hstep
  | ground grounded =>
    simp only [ShadowAttachment.pumpStep] at hstep
    split at hstep
    · next request hpump =>
      obtain rfl := Option.some.inj hstep
      refine h.move (by simp [hpump]) fun _ => ?_
      cases grounded <;> exact ⟨by simp, by simp⟩
    · cases hstep
  | pause =>
    simp only [ShadowAttachment.pumpStep] at hstep
    split at hstep
    · next request hpump =>
      split at hstep
      · split at hstep
        · obtain rfl := Option.some.inj hstep
          exact h.move (by simp [hpump]) fun _ => ⟨by simp, by simp⟩
        · next hstands =>
          obtain rfl := Option.some.inj hstep
          simp only [not_or, not_not] at hstands
          exact h.pause hpump hstands.1
      · cases hstep
    · cases hstep
  | resume =>
    simp only [ShadowAttachment.pumpStep] at hstep
    split at hstep
    · next request hpump =>
      split at hstep
      · next pause hpause =>
        obtain ⟨hreleased, rfl⟩ := of_ite_some hstep
        -- the reader goes on only after the release, so the pause it leaves is over
        refine ⟨by simp, h.requested, fun other hother => ?_,
          fun other old hold hpaused hopen => ?_⟩
        · obtain rfl := PumpPhase.resumed.inj hother
          exact ⟨pause, hpause, hreleased⟩
        · obtain rfl := PumpPhase.waiting.inj
            (hpump.symm.trans (h.paused other old hold hpaused hopen))
          obtain rfl := Option.some.inj (hpause.symm.trans hold)
          cases hreleased.symm.trans hopen
      · cases hstep
    · cases hstep
  | clear =>
    simp only [ShadowAttachment.pumpStep] at hstep
    split at hstep
    · next request hpump =>
      obtain rfl := Option.some.inj hstep
      refine ⟨by simp, fun other hother => ?_, by simp,
        fun other pause hpause hpaused hreleased => ?_⟩
      · dsimp only at hother
        split at hother
        · cases hother
        · exact h.requested other hother
      · cases hpump.symm.trans (h.paused other pause hpause hpaused hreleased)
    · cases hstep
  | read failed =>
    obtain ⟨hpump, rfl⟩ := of_ite_some hstep
    refine h.move (by simp [hpump]) fun _ => ?_
    split <;> exact ⟨by simp, by simp⟩

/-- A request that is made is owed. -/
theorem Accounted.ask (h : attachment.Accounted owed) :
    attachment.request.Accounted fun request => owed request ∨
      request = attachment.requests.length := by
  have hold {other : ℕ} {pause : HandoffPause} (hpause : attachment.requests[other]? = some pause) :
      attachment.request.requests[other]? = some pause :=
    (List.getElem?_append_left (List.getElem?_eq_some_iff.mp hpause).1).trans hpause
  refine ⟨fun other hother => ?_, fun other hother => ?_, fun other hother => ?_,
    fun other pause hpause hpaused hreleased => ?_⟩
  · obtain ⟨pause, hpause, hpaused, howed⟩ := h.waiting other hother
    exact ⟨pause, hold hpause, hpaused, howed.imp_right .inl⟩
  · obtain rfl := Option.some.inj hother
    exact ⟨{}, List.getElem?_concat_length, .inr (.inr rfl)⟩
  · obtain ⟨pause, hpause, hreleased⟩ := h.resumed other hother
    exact ⟨pause, hold hpause, hreleased⟩
  · have hlt := (List.getElem?_eq_some_iff.mp hpause).1
    rw [ShadowAttachment.request, List.length_append, List.length_singleton] at hlt
    rcases Nat.lt_succ_iff_lt_or_eq.mp hlt with hlt | rfl
    · exact h.paused other pause ((hold (List.getElem?_eq_getElem hlt)).symm.trans hpause ▸
        List.getElem?_eq_getElem hlt) hpaused hreleased
    · obtain rfl := Option.some.inj (List.getElem?_concat_length.symm.trans hpause)
      exact nomatch hpaused

/-- A request that is released, or given up while the reader does not pause for it, is owed no
longer. -/
theorem Accounted.release (h : attachment.Accounted owed) {change : HandoffPause → HandoffPause}
    {handoffRequest : Option ℕ} (hpaused : ∀ pause, (change pause).paused = pause.paused)
    (hreleased : ∀ pause, pause.released = true → (change pause).released = true)
    (hchange : ∀ pause, pause.paused = true → (change pause).released = true)
    (hstands : handoffRequest = attachment.handoffRequest ∧
      (∀ pause, (change pause).released = true) ∨
      handoffRequest = none) :
    (({ attachment with handoffRequest } : ShadowAttachment).updateRequest request change).Accounted
      fun other => owed other ∧ other ≠ request where
  waiting other hother := by
    obtain ⟨pause, hpause, hispaused, howed⟩ := h.waiting other hother
    refine ⟨_, updateRequest_of hpause, ?_⟩
    by_cases heq : request = other
    · rw [if_pos heq, hpaused]
      exact ⟨hispaused, .inl (hchange pause hispaused)⟩
    · rw [if_neg heq]
      exact ⟨hispaused, howed.imp_right fun howed => ⟨howed, Ne.symm heq⟩⟩
  requested other hother := by
    rcases hstands with ⟨hsame, hall⟩ | hnone
    · obtain ⟨pause, hpause, howed⟩ := h.requested other (hsame ▸ hother)
      refine ⟨_, updateRequest_of hpause, ?_⟩
      by_cases heq : request = other
      · rw [if_pos heq]
        exact .inl (hall pause)
      · rw [if_neg heq]
        exact howed.imp_right fun howed => ⟨howed, Ne.symm heq⟩
    · exact nomatch hnone.symm.trans hother
  resumed other hother := by
    obtain ⟨pause, hpause, hispaused⟩ := h.resumed other hother
    refine ⟨_, updateRequest_of hpause, ?_⟩
    split
    · exact hreleased pause hispaused
    · exact hispaused
  paused other pause hpause hispaused hopen := by
    obtain ⟨before, hbefore, rfl⟩ := of_updateRequest hpause
    by_cases heq : request = other
    · rw [if_pos heq] at hispaused hopen
      rw [hpaused] at hispaused
      exact nomatch (hchange before hispaused).symm.trans hopen
    · rw [if_neg heq] at hispaused hopen
      exact h.paused other before hbefore hispaused hopen

theorem Accounted.resume (h : attachment.Accounted owed) :
    (attachment.resume request).Accounted fun other => owed other ∧ other ≠ request :=
  h.release (fun _ => rfl) (fun _ _ => rfl) (fun _ _ => rfl) (.inl ⟨rfl, fun _ => rfl⟩)

/-- Giving up the request that stands lets a reader that paused for it go on. -/
theorem Accounted.abort (h : attachment.Accounted owed) (hasked : attachment.Asked request) :
    (attachment.abortHandoffRequest request).Accounted fun other => owed other ∧
      other ≠ request := by
  rw [abortHandoffRequest, if_pos hasked.1]
  refine h.release (fun _ => rfl) (fun pause hreleased => ?_) (fun pause hpaused => ?_) (.inr rfl)
  · show (pause.released || pause.paused) = true
    rw [hreleased, Bool.true_or]
  · show (pause.released || pause.paused) = true
    rw [hpaused, Bool.or_true]

/-- A reader that waits for an unreleased request stays where it is. -/
theorem Waits.pumpStep (h : attachment.Waits request) (step : PumpStep) :
    attachment.pumpStep step = none := by
  obtain ⟨hpump, pause, hpause, hopen⟩ := h
  cases step <;> simp [ShadowAttachment.pumpStep, hpump, hpause, hopen]

/-- No step of the reader takes an unreleased request back. -/
theorem Asked.pumpStep (h : attachment.Asked request) (haccounted : attachment.Accounted owed)
    {step : PumpStep} (hstep : attachment.pumpStep step = some next) : next.Asked request := by
  obtain ⟨hstands, pause, hpause, hopen⟩ := h
  cases step with
  | check =>
    simp only [ShadowAttachment.pumpStep] at hstep
    split at hstep
    · split at hstep <;>
      · obtain rfl := Option.some.inj hstep
        exact ⟨hstands, pause, hpause, hopen⟩
    · cases hstep
  | ground grounded =>
    simp only [ShadowAttachment.pumpStep] at hstep
    split at hstep
    · obtain rfl := Option.some.inj hstep
      exact ⟨hstands, pause, hpause, hopen⟩
    · cases hstep
  | pause =>
    simp only [ShadowAttachment.pumpStep] at hstep
    split at hstep
    · split at hstep
      · split at hstep
        · obtain rfl := Option.some.inj hstep
          exact ⟨hstands, pause, hpause, hopen⟩
        · obtain rfl := Option.some.inj hstep
          refine ⟨hstands, _, updateRequest_of hpause, ?_⟩
          split <;> exact hopen
      · cases hstep
    · cases hstep
  | resume =>
    simp only [ShadowAttachment.pumpStep] at hstep
    split at hstep
    · split at hstep
      · obtain ⟨_, rfl⟩ := of_ite_some hstep
        exact ⟨hstands, pause, hpause, hopen⟩
      · cases hstep
    · cases hstep
  | clear =>
    simp only [ShadowAttachment.pumpStep] at hstep
    split at hstep
    · next resumed hpump =>
      obtain rfl := Option.some.inj hstep
      refine ⟨?_, pause, hpause, hopen⟩
      dsimp only
      split
      · next heq =>
        -- a reader resumes from released requests only
        obtain rfl := Option.some.inj (hstands.symm.trans heq)
        obtain ⟨released, hreleased, htrue⟩ := haccounted.resumed request hpump
        obtain rfl := Option.some.inj (hpause.symm.trans hreleased)
        cases htrue.symm.trans hopen
      · exact hstands
    · cases hstep
  | read failed =>
    obtain ⟨_, rfl⟩ := of_ite_some hstep
    exact ⟨hstands, pause, hpause, hopen⟩

/-- A reader that has ended takes no step. -/
theorem pumpStep_ended (h : attachment.pump = .ended) (step : PumpStep) :
    attachment.pumpStep step = none := by
  cases step <;> simp [ShadowAttachment.pumpStep, h]

end ShadowAttachment

namespace PreparePhase

/-- The requests whose release is owed. -/
def owed : PreparePhase → List PauseRelease
  | visiting prepared _ | returned prepared => prepared.releases
  | pausing prepared pause _ | capturing prepared pause _ | appending prepared pause _ _ =>
    prepared.releases ++ [pause]
  | releasing releases _ => releases
  | _ => []

/-- The sessions that the attempt has yet to visit. -/
def unvisited : PreparePhase → List String
  | versioning rest | visiting _ rest | pausing _ _ rest | capturing _ _ rest
  | appending _ _ _ rest => rest
  | _ => []

/-- The panes of a returned manifest. -/
def listed : PreparePhase → List String
  | returned prepared => prepared.manifest.panes.map (·.paneID)
  | _ => []

def isPanicked : PreparePhase → Bool
  | panicked => true
  | _ => false

/-- `PrepareHandoff` returned an error, or `Release` was called. -/
def Over : PreparePhase → Prop
  | failed _ | released => True
  | _ => False

end PreparePhase

namespace HandoffDaemon

variable (daemon : HandoffDaemon)

/-- The record of a session has its pane and its attachment. -/
def Live (sessionID : String) : Prop :=
  ∃ session, findSession daemon.operations.sessions sessionID = some session ∧
    session.pane.isSome = true ∧ session.attached = true

/-- A session has this pane id. -/
def Registered (sessionID paneID : String) : Prop :=
  ∃ session, findSession daemon.operations.sessions sessionID = some session ∧
    session.paneID = paneID

/-- No step has dereferenced a cleared pane or attachment; a returned manifest lists only
registered panes that are live; and an attempt that is over leaves the flag down and no
reader waiting for its release. -/
structure PausesCleanly : Prop where
  noPanic : daemon.phase ≠ .panicked
  listed : ∀ prepared, daemon.phase = .returned prepared → ∀ pane ∈ prepared.manifest.panes,
    daemon.Registered pane.sessionID pane.paneID ∧ daemon.Live pane.sessionID
  unpaused : daemon.phase.Over → daemon.operations.handoffPrepared = false ∧
    ∀ sessionID request, ¬ (daemon.attachments sessionID).Waits request

/-- No watcher clears the record of a session that the attempt collected and has yet to
visit. -/
def Spares : HandoffStep → Prop
  | .clearRecord sessionID _ => sessionID ∉ daemon.phase.unvisited
  | _ => True

/-- The reader of a live pane is paused for an attempt. -/
def Holds (pause : PauseRelease) : Prop :=
  daemon.Live pause.sessionID ∧ (daemon.attachments pause.sessionID).Waits pause.request

/-- What the attempt has prepared so far. -/
structure Prepared (prepared : PreparedHandoff) : Prop where
  holds : ∀ pause ∈ prepared.releases, daemon.Holds pause
  lists : ∀ pane ∈ prepared.manifest.panes, daemon.Registered pane.sessionID pane.paneID ∧
    ∃ pause ∈ prepared.releases, pause.sessionID = pane.sessionID

/-- What holds where the attempt stands. A pane that it waits for is live, or its reader has
ended and will not pause. -/
def Fits : PreparePhase → Prop
  | .idle | .failed _ | .released => daemon.operations.handoffPrepared = false
  | .versioning rest => ∀ sessionID ∈ rest, daemon.Live sessionID
  | .visiting prepared rest =>
    daemon.Prepared prepared ∧ ∀ sessionID ∈ rest, daemon.Live sessionID
  | .pausing prepared pause rest =>
    daemon.Prepared prepared ∧ (∀ sessionID ∈ rest, daemon.Live sessionID) ∧
      (daemon.attachments pause.sessionID).Asked pause.request ∧
      (daemon.Live pause.sessionID ∨ (daemon.attachments pause.sessionID).pump = .ended)
  | .capturing prepared pause rest | .appending prepared pause _ rest =>
    daemon.Prepared prepared ∧ (∀ sessionID ∈ rest, daemon.Live sessionID) ∧ daemon.Holds pause
  | .releasing _ _ => True
  | .returned prepared => daemon.Prepared prepared
  | .panicked => False

/-- The invariant of an attempt that is spared. -/
structure Sound : Prop where
  accounted : ∀ sessionID, (daemon.attachments sessionID).Accounted fun request =>
    ⟨sessionID, request⟩ ∈ daemon.phase.owed
  fits : daemon.Fits daemon.phase

/-- What the readers and the watchers keep for an attempt in a phase: a record is cleared
only after its reader has ended, and not before the attempt has visited it. -/
structure Keeps (next : HandoffDaemon) (phase : PreparePhase) : Prop where
  prepared : next.operations.handoffPrepared = daemon.operations.handoffPrepared
  waits : ∀ sessionID request, (daemon.attachments sessionID).Waits request →
    (next.attachments sessionID).Waits request
  asked : ∀ sessionID request, (daemon.attachments sessionID).Asked request →
    (next.attachments sessionID).Asked request
  ended : ∀ sessionID, (daemon.attachments sessionID).pump = .ended →
    (next.attachments sessionID).pump = .ended
  live : ∀ sessionID, daemon.Live sessionID →
    (daemon.attachments sessionID).pump ≠ .ended ∨ sessionID ∈ phase.unvisited →
      next.Live sessionID
  registered : ∀ sessionID paneID, daemon.Registered sessionID paneID →
    next.Registered sessionID paneID

variable {daemon} {next : HandoffDaemon} {phase : PreparePhase} {sessionID : String}
  {prepared : PreparedHandoff} {pause : PauseRelease}

theorem Keeps.holds (h : daemon.Keeps next phase) (hholds : daemon.Holds pause) :
    next.Holds pause := by
  obtain ⟨hlive, hwaits⟩ := hholds
  refine ⟨h.live _ hlive (.inl ?_), h.waits _ _ hwaits⟩
  rw [hwaits.1]
  exact nofun

theorem Keeps.preparedHandoff (h : daemon.Keeps next phase) (hprepared : daemon.Prepared prepared) :
    next.Prepared prepared where
  holds pause hmem := h.holds (hprepared.holds pause hmem)
  lists pane hmem := (hprepared.lists pane hmem).imp_left (h.registered _ _)

theorem Keeps.fits (h : daemon.Keeps next phase) (hfits : daemon.Fits phase) : next.Fits phase := by
  have hrest : ∀ rest, phase.unvisited = rest → (∀ sessionID ∈ rest, daemon.Live sessionID) →
      ∀ sessionID ∈ rest, next.Live sessionID := fun rest heq hlive sessionID hmem =>
    h.live sessionID (hlive sessionID hmem) (.inr (heq ▸ hmem))
  cases phase with
  | idle => exact h.prepared.trans hfits
  | failed err => exact h.prepared.trans hfits
  | released => exact h.prepared.trans hfits
  | versioning rest => exact hrest rest rfl hfits
  | visiting prepared rest => exact ⟨h.preparedHandoff hfits.1, hrest rest rfl hfits.2⟩
  | pausing prepared pause rest =>
    obtain ⟨hprepared, hlive, hasked, hstate⟩ := hfits
    refine ⟨h.preparedHandoff hprepared, hrest rest rfl hlive, h.asked _ _ hasked, ?_⟩
    by_cases hended : (daemon.attachments pause.sessionID).pump = .ended
    · exact .inr (h.ended _ hended)
    · exact .inl (h.live _ (hstate.resolve_right hended) (.inl hended))
  | capturing prepared pause rest =>
    exact ⟨h.preparedHandoff hfits.1, hrest rest rfl hfits.2.1, h.holds hfits.2.2⟩
  | appending prepared pause state rest =>
    exact ⟨h.preparedHandoff hfits.1, hrest rest rfl hfits.2.1, h.holds hfits.2.2⟩
  | releasing releases err => trivial
  | returned prepared => exact h.preparedHandoff hfits
  | panicked => exact hfits

@[simp] theorem setAttachment_self (daemon : HandoffDaemon) (sessionID : String)
    (attachment : ShadowAttachment) :
    (daemon.setAttachment sessionID attachment).attachments sessionID = attachment :=
  Function.update_self ..

theorem setAttachment_of_ne (daemon : HandoffDaemon) {sessionID other : String}
    (attachment : ShadowAttachment) (h : other ≠ sessionID) :
    (daemon.setAttachment sessionID attachment).attachments other = daemon.attachments other :=
  Function.update_of_ne h ..

/-- Readers and watchers that change one attachment and no record. -/
theorem keeps_setAttachment {attachment : ShadowAttachment}
    (hwaits : ∀ request, (daemon.attachments sessionID).Waits request → attachment.Waits request)
    (hasked : ∀ request, (daemon.attachments sessionID).Asked request → attachment.Asked request)
    (hended : (daemon.attachments sessionID).pump = .ended → attachment.pump = .ended) :
    daemon.Keeps (daemon.setAttachment sessionID attachment) phase where
  prepared := rfl
  waits other request h := by
    by_cases heq : other = sessionID
    · subst heq
      rw [setAttachment_self]
      exact hwaits request h
    · rw [setAttachment_of_ne _ _ heq]
      exact h
  asked other request h := by
    by_cases heq : other = sessionID
    · subst heq
      rw [setAttachment_self]
      exact hasked request h
    · rw [setAttachment_of_ne _ _ heq]
      exact h
  ended other h := by
    by_cases heq : other = sessionID
    · subst heq
      rw [setAttachment_self]
      exact hended h
    · rw [setAttachment_of_ne _ _ heq]
      exact h
  live _ h _ := h
  registered _ _ h := h

/-- The attachments after one of them changed. -/
theorem accounted_setAttachment {owed owed' : List PauseRelease} {attachment : ShadowAttachment}
    (h : ∀ sessionID, (daemon.attachments sessionID).Accounted fun request =>
      ⟨sessionID, request⟩ ∈ owed)
    (hattachment : attachment.Accounted fun request => ⟨sessionID, request⟩ ∈ owed')
    (hothers : ∀ other request, other ≠ sessionID → ⟨other, request⟩ ∈ owed →
      (⟨other, request⟩ : PauseRelease) ∈ owed') (other : String) :
    ((daemon.setAttachment sessionID attachment).attachments other).Accounted fun request =>
      ⟨other, request⟩ ∈ owed' := by
  by_cases heq : other = sessionID
  · subst heq
    rw [setAttachment_self]
    exact hattachment
  · rw [setAttachment_of_ne _ _ heq]
    exact (h other).mono fun request => hothers other request heq

theorem Sound.pump (h : daemon.Sound) {step : PumpStep} {attachment : ShadowAttachment}
    (hstep : (daemon.attachments sessionID).pumpStep step = some attachment) :
    (daemon.setAttachment sessionID attachment).Sound where
  accounted := accounted_setAttachment h.accounted ((h.accounted sessionID).pumpStep hstep)
    fun _ _ _ hmem => hmem
  fits := by
    refine (keeps_setAttachment (fun request hwaits => ?_) (fun request hasked => ?_)
      fun hended => ?_).fits h.fits
    · exact nomatch (hwaits.pumpStep step).symm.trans hstep
    · exact hasked.pumpStep (h.accounted sessionID) hstep
    · exact nomatch (ShadowAttachment.pumpStep_ended hended step).symm.trans hstep

theorem Sound.stopReader (h : daemon.Sound) :
    (daemon.setAttachment sessionID (daemon.attachments sessionID).stopPump).Sound where
  accounted := by
    obtain ⟨hwaiting, hrequested, hresumed, hpaused⟩ := h.accounted sessionID
    exact accounted_setAttachment h.accounted ⟨hwaiting, hrequested, hresumed, hpaused⟩
      fun _ _ _ hmem => hmem
  fits := by
    have hkeeps : daemon.Keeps
        (daemon.setAttachment sessionID (daemon.attachments sessionID).stopPump) daemon.phase :=
      keeps_setAttachment (fun _ hwaits => hwaits) (fun _ hasked => hasked) fun hended => hended
    exact hkeeps.fits h.fits

theorem Sound.clearRecord (h : daemon.Sound) (diagnostic : Option String)
    (hended : (daemon.attachments sessionID).pump = .ended)
    (hspared : sessionID ∉ daemon.phase.unvisited) : (daemon.clear sessionID diagnostic).Sound where
  accounted := h.accounted
  fits := by
    have hsessions (other : String) :
        findSession (daemon.clear sessionID diagnostic).operations.sessions other =
          (findSession daemon.operations.sessions other).map fun session =>
            if session.id = sessionID then exited diagnostic session else session :=
      findSession_updateSession fun _ => rfl
    have hkeeps : daemon.Keeps (daemon.clear sessionID diagnostic) daemon.phase := by
      refine ⟨rfl, fun _ _ hwaits => hwaits, fun _ _ hasked => hasked, fun _ hpump => hpump,
        fun other hlive hkept => ?_, fun other paneID hregistered => ?_⟩
      · have hne : other ≠ sessionID := by
          rintro rfl
          exact hkept.elim (· hended) hspared
        obtain ⟨session, hfind, hpane, hattached⟩ := hlive
        refine ⟨session, ?_, hpane, hattached⟩
        rw [hsessions, hfind, Option.map_some, if_neg ((of_findSession hfind).2.symm ▸ hne)]
      · obtain ⟨session, hfind, rfl⟩ := hregistered
        refine ⟨_, (hsessions other).trans (congrArg _ hfind), ?_⟩
        dsimp only
        split <;> rfl
    exact hkeeps.fits h.fits

/-- What `Fits` speaks of does not depend on the phase that is entered, nor on the watchers. -/
theorem keeps_enter (daemon : HandoffDaemon) (ended : List String) (mu : Option String)
    (entered phase : PreparePhase) :
    daemon.Keeps { daemon with ended, mu, phase := entered } phase :=
  ⟨rfl, fun _ _ hwaits => hwaits, fun _ _ hasked => hasked, fun _ hended => hended,
    fun _ hlive _ => hlive, fun _ _ hregistered => hregistered⟩

/-- A phase of an attempt that owes what the last one did. -/
theorem Sound.enter (h : daemon.Sound) {phase : PreparePhase}
    (howed : ∀ pause ∈ daemon.phase.owed, pause ∈ phase.owed) (hfits : daemon.Fits phase) :
    Sound { daemon with phase } where
  accounted sessionID := (h.accounted sessionID).mono fun _ => howed _
  fits := (daemon.keeps_enter daemon.ended daemon.mu phase phase).fits hfits

/-- A request that was released or given up is owed no longer. -/
theorem Sound.settle (h : daemon.Sound) {attachment : ShadowAttachment}
    {releases : List PauseRelease} (err : Option String)
    (haccounted : attachment.Accounted fun request =>
      ⟨pause.sessionID, request⟩ ∈ daemon.phase.owed ∧ request ≠ pause.request)
    (howed : ∀ other ∈ daemon.phase.owed, other ∈ releases ∨ other = pause) :
    Sound { daemon.setAttachment pause.sessionID attachment with
      phase := .releasing releases err } where
  accounted := by
    refine accounted_setAttachment h.accounted ?_ fun other request hne hmem => ?_
    · refine haccounted.mono fun request ⟨hmem, hne⟩ => ?_
      refine (howed _ hmem).resolve_right fun heq => hne ?_
      rw [← heq]
    · exact (howed _ hmem).resolve_right fun heq => hne (heq ▸ rfl)
  fits := trivial

theorem Sound.resume (h : daemon.Sound) {releases : List PauseRelease} (err : Option String)
    (howed : ∀ other ∈ daemon.phase.owed, other ∈ releases ∨ other = pause) :
    Sound { daemon.resume pause with phase := .releasing releases err } :=
  h.settle err (h.accounted pause.sessionID).resume howed

/-- Giving up on a pane that has not paused yet. -/
theorem Sound.contextDone (h : daemon.Sound) {rest : List String} (err : String)
    (hphase : daemon.phase = .pausing prepared pause rest) :
    ((daemon.setAttachment pause.sessionID
      ((daemon.attachments pause.sessionID).abortHandoffRequest pause.request)).fail prepared
        err).Sound := by
  have hfits := h.fits
  rw [hphase] at hfits
  refine h.settle (some err) ((h.accounted pause.sessionID).abort hfits.2.2.1) ?_
  rw [hphase]
  intro other hmem
  simpa [PreparePhase.owed] using hmem

/-- The reader of the next pane is asked to pause. -/
theorem Sound.request (h : daemon.Sound) {rest : List String}
    (hphase : daemon.phase = .visiting prepared (sessionID :: rest)) :
    (daemon.requestNext prepared sessionID rest).Sound := by
  have hfits := h.fits
  rw [hphase] at hfits
  obtain ⟨hprepared, hlive⟩ := hfits
  have hnext := hlive sessionID List.mem_cons_self
  obtain ⟨session, hfind, -, hattached⟩ := id hnext
  unfold HandoffDaemon.requestNext
  rw [hfind]
  dsimp only
  rw [if_neg (by rw [hattached]; exact nofun)]
  split
  · refine h.enter (fun pause hmem => ?_) trivial
    rw [hphase] at hmem
    exact hmem
  · next hfree =>
    have hnone : (daemon.attachments sessionID).handoffRequest = none := by
      simpa using hfree
    refine ⟨?_, ?_⟩
    · refine accounted_setAttachment h.accounted ?_ fun other request _ hmem => ?_
      · refine (h.accounted sessionID).ask.mono fun request howed => ?_
        rcases howed with hold | rfl
        · rw [hphase] at hold
          exact List.mem_append_left _ hold
        · exact List.mem_append_right _ List.mem_cons_self
      · rw [hphase] at hmem
        exact List.mem_append_left _ hmem
    · -- the new request is put behind the others, so what waits for its release still does
      have hkeeps : daemon.Keeps
          (daemon.setAttachment sessionID (daemon.attachments sessionID).request)
          (.visiting prepared rest) := by
        refine keeps_setAttachment (fun request ⟨hpump, pause, hpause, hopen⟩ => ?_)
          (fun request ⟨hstands, _⟩ => ?_) fun hended => hended
        · exact ⟨hpump, pause, (List.getElem?_append_left
            (List.getElem?_eq_some_iff.mp hpause).1).trans hpause, hopen⟩
        · exact nomatch hnone.symm.trans hstands
      have hkept : (daemon.setAttachment sessionID (daemon.attachments sessionID).request).Fits
          (.visiting prepared rest) :=
        hkeeps.fits ⟨hprepared, fun other hmem => hlive other (List.mem_cons_of_mem _ hmem)⟩
      have hasked : ((daemon.setAttachment sessionID
          (daemon.attachments sessionID).request).attachments sessionID).Asked
            (daemon.attachments sessionID).requests.length := by
        rw [setAttachment_self]
        exact ⟨rfl, {}, List.getElem?_concat_length, rfl⟩
      exact (keeps_enter _ _ _ _ (.pausing prepared
        ⟨sessionID, (daemon.attachments sessionID).requests.length⟩ rest)).fits
          ⟨hkept.1, hkept.2, hasked, .inl hnext⟩

/-- The reader has paused. Its pane is live, because a reader that has ended does not
pause. -/
theorem Sound.ready (h : daemon.Sound) {rest : List String} {request : HandoffPause}
    (hphase : daemon.phase = .pausing prepared pause rest)
    (hrequest : (daemon.attachments pause.sessionID).requests[pause.request]? = some request)
    (hpaused : request.paused = true) :
    Sound { daemon with phase := .capturing prepared pause rest } := by
  have hfits := h.fits
  rw [hphase] at hfits
  obtain ⟨hprepared, hlive, ⟨hstands, standing, hstanding, hopen⟩, hstate⟩ := hfits
  obtain rfl := Option.some.inj (hrequest.symm.trans hstanding)
  have hpump := (h.accounted pause.sessionID).paused pause.request request hrequest hpaused hopen
  refine h.enter (fun other hmem => ?_) ⟨hprepared, hlive, ?_, hpump, request, hrequest, hopen⟩
  · rw [hphase] at hmem
    exact hmem
  · exact hstate.resolve_right fun hended => nomatch hpump.symm.trans hended

/-- A captured pane joins the manifest. -/
theorem Prepared.extend (h : daemon.Prepared prepared) (hholds : daemon.Holds pause)
    {session : ManagedSession} {pane : Pane} (state : HandoffState)
    (hfind : findSession daemon.operations.sessions pause.sessionID = some session) :
    daemon.Prepared (extend prepared pause session pane state) where
  holds other hmem := by
    rcases List.mem_append.mp hmem with hold | hnew
    · exact h.holds other hold
    · exact (List.mem_singleton.mp hnew) ▸ hholds
  lists entry hmem := by
    rcases List.mem_append.mp hmem with hold | hnew
    · obtain ⟨hregistered, other, hother, heq⟩ := h.lists entry hold
      exact ⟨hregistered, other, List.mem_append_left _ hother, heq⟩
    · obtain rfl := List.mem_singleton.mp hnew
      have hid : session.id = pause.sessionID := (of_findSession hfind).2
      refine ⟨⟨session, ?_, rfl⟩, pause, List.mem_append_right _ List.mem_cons_self, hid.symm⟩
      show findSession daemon.operations.sessions session.id = some session
      rw [hid]
      exact hfind

theorem sessions_handoffTopology (operations : Operations) :
    operations.handoffTopology.1.sessions = operations.sessions := by
  have hstep : ∀ (before : Operations) (logicalID : String),
      (before.normalizeTopology logicalID).sessions = before.sessions := fun _ _ => rfl
  exact foldl_view (·.sessions) hstep _ operations

/-- The sessions that are collected are live. -/
theorem live_of_collected {walk : List ManagedSession}
    (hwalk : walk.Perm daemon.operations.sessions)
    (hnone : walk.find? (fun session => session.pane = none ∨ session.attached = false) = none)
    (hmem : sessionID ∈ sortedKeys (walk.map (·.id))) : daemon.Live sessionID := by
  rw [mem_sortedKeys] at hmem
  obtain ⟨session, hsession, rfl⟩ := List.mem_map.mp hmem
  have hfound : (findSession daemon.operations.sessions session.id).isSome = true := by
    rw [findSession, List.find?_isSome]
    exact ⟨session, hwalk.mem_iff.mp hsession, by simp⟩
  obtain ⟨found, hfind⟩ := Option.isSome_iff_exists.mp hfound
  have hlive := List.find?_eq_none.mp hnone found (hwalk.mem_iff.mpr (of_findSession hfind).1)
  simp only [decide_eq_true_eq, not_or] at hlive
  exact ⟨found, hfind, Option.isSome_iff_ne_none.mpr hlive.1, Bool.not_eq_false _ ▸ hlive.2⟩

/-- A new attempt. -/
theorem Sound.collect (h : daemon.Sound) {walk : List ManagedSession}
    (hwalk : walk.Perm daemon.operations.sessions)
    (hprepared : daemon.operations.handoffPrepared = false) (howed : daemon.phase.owed = []) :
    (daemon.collect walk).Sound := by
  have hnothing : ∀ phase : PreparePhase, ∀ pause ∈ daemon.phase.owed, pause ∈ phase.owed := by
    rw [howed]
    exact fun _ => nofun
  unfold HandoffDaemon.collect
  rw [if_neg (by rw [hprepared]; exact nofun)]
  split
  · exact h.enter (hnothing _) hprepared
  split
  · exact h.enter (hnothing _) hprepared
  · next hnone =>
    refine ⟨fun sessionID => (h.accounted sessionID).mono fun _ => hnothing _ _,
      fun sessionID hmem => ?_⟩
    obtain ⟨session, hfind, hlive⟩ := live_of_collected hwalk hnone hmem
    refine ⟨session, ?_, hlive⟩
    rw [← hfind]
    exact congrArg (findSession · sessionID) (sessions_handoffTopology daemon.operations)

/-- Every step of an attempt that is spared keeps the invariant. -/
theorem Sound.step (h : daemon.Sound) {label : HandoffStep} (hspares : daemon.Spares label)
    (hstep : daemon.step label = some next) : next.Sound := by
  have hfits := h.fits
  cases label with
  | prepare walk =>
    simp only [HandoffDaemon.step] at hstep
    split at hstep
    case h_4 => exact nomatch hstep
    all_goals
      next hphase =>
      obtain ⟨hcondition, rfl⟩ := of_ite_some hstep
      rw [hphase] at hfits
      exact h.collect hcondition.2 hfits (by rw [hphase]; rfl)
  | engineVersion version =>
    simp only [HandoffDaemon.step] at hstep
    split at hstep
    · next rest hphase =>
      rw [hphase] at hfits
      have howed : daemon.phase.owed = [] := by rw [hphase]; rfl
      split at hstep
      · obtain rfl := Option.some.inj hstep
        exact h.enter (by rw [howed]; exact nofun) trivial
      · obtain rfl := Option.some.inj hstep
        exact h.enter (by rw [howed]; exact nofun) ⟨⟨nofun, nofun⟩, hfits⟩
    · exact nomatch hstep
  | request =>
    simp only [HandoffDaemon.step] at hstep
    split at hstep
    · next hphase =>
      obtain rfl := Option.some.inj hstep
      exact h.request hphase
    · exact nomatch hstep
  | ready =>
    simp only [HandoffDaemon.step] at hstep
    split at hstep
    · next hphase =>
      split at hstep
      · next request hrequest =>
        obtain ⟨hpaused, rfl⟩ := of_ite_some hstep
        exact h.ready hphase hrequest hpaused
      · exact nomatch hstep
    · exact nomatch hstep
  | contextDone err =>
    simp only [HandoffDaemon.step] at hstep
    split at hstep
    · next hphase =>
      obtain rfl := Option.some.inj hstep
      exact h.contextDone _ hphase
    · exact nomatch hstep
  | capture state =>
    simp only [HandoffDaemon.step] at hstep
    split at hstep
    · next prepared pause rest hphase =>
      rw [hphase] at hfits
      split at hstep
      · obtain rfl := Option.some.inj hstep
        -- a failed capture releases its own reader; the rest is still owed
        refine h.resume _ ?_
        rw [hphase]
        intro other hmem
        simpa [PreparePhase.owed] using hmem
      · obtain rfl := Option.some.inj hstep
        exact h.enter (by rw [hphase]; exact fun _ hmem => hmem) hfits
    · exact nomatch hstep
  | append =>
    simp only [HandoffDaemon.step] at hstep
    split at hstep
    · next prepared pause state rest hphase =>
      rw [hphase] at hfits
      obtain ⟨hprepared, hrest, hholds⟩ := hfits
      -- the pane is still live, so the type assertion on it does not panic
      obtain ⟨session, hfind, hpane, -⟩ := hholds.1
      obtain ⟨pane, hsome⟩ := Option.isSome_iff_exists.mp hpane
      rw [hfind] at hstep
      dsimp only at hstep
      rw [hsome] at hstep
      obtain rfl := Option.some.inj hstep
      exact h.enter (by rw [hphase]; exact fun _ hmem => hmem)
        ⟨hprepared.extend hholds state hfind, hrest⟩
    · exact nomatch hstep
  | finish =>
    simp only [HandoffDaemon.step] at hstep
    split at hstep
    · next prepared hphase =>
      rw [hphase] at hfits
      split at hstep
      · obtain rfl := Option.some.inj hstep
        exact h.enter (by rw [hphase]; exact fun _ hmem => hmem) hfits.1
      · obtain rfl := Option.some.inj hstep
        exact h.enter (by rw [hphase]; exact fun _ hmem => hmem) trivial
    · exact nomatch hstep
  | release =>
    simp only [HandoffDaemon.step] at hstep
    split at hstep
    · next hphase =>
      obtain rfl := Option.some.inj hstep
      exact h.enter (by rw [hphase]; exact fun _ hmem => hmem) trivial
    · obtain rfl := Option.some.inj hstep
      exact h
    · exact nomatch hstep
  | releaseNext =>
    simp only [HandoffDaemon.step] at hstep
    split at hstep
    · next hphase =>
      obtain rfl := Option.some.inj hstep
      refine h.resume _ ?_
      rw [hphase]
      exact fun other hmem => (List.mem_cons.mp hmem).symm
    · exact nomatch hstep
  | unlock =>
    simp only [HandoffDaemon.step] at hstep
    split at hstep
    · next err hphase =>
      obtain ⟨_, rfl⟩ := of_ite_some hstep
      refine ⟨fun sessionID => (h.accounted sessionID).mono fun request hmem => ?_, ?_⟩
      · rw [hphase] at hmem
        exact nomatch hmem
      · cases err <;> rfl
    · exact nomatch hstep
  | pump sessionID step =>
    obtain ⟨attachment, hpump, rfl⟩ := Option.map_eq_some_iff.mp hstep
    exact h.pump hpump
  | exit sessionID =>
    obtain rfl := Option.some.inj hstep
    exact ⟨h.accounted, (daemon.keeps_enter _ _ _ daemon.phase).fits hfits⟩
  | watch sessionID =>
    simp only [HandoffDaemon.step] at hstep
    split at hstep
    · obtain ⟨_, rfl⟩ := of_ite_some hstep
      exact ⟨h.accounted, (daemon.keeps_enter _ _ _ daemon.phase).fits hfits⟩
    · exact nomatch hstep
  | stopReader sessionID =>
    obtain ⟨_, rfl⟩ := of_ite_some hstep
    exact h.stopReader
  | clearRecord sessionID diagnostic =>
    obtain ⟨hcondition, rfl⟩ := of_ite_some hstep
    -- the one step that the guard restricts
    exact h.clearRecord diagnostic hcondition.2 hspares

theorem sound_initial {operations : Operations} (hprepared : operations.handoffPrepared = false) :
    Sound { operations } where
  accounted _ := ShadowAttachment.accounted_new
  fits := hprepared

theorem Sound.pausesCleanly (h : daemon.Sound) : daemon.PausesCleanly where
  noPanic hphase := by
    have hfits := h.fits
    rw [hphase] at hfits
    exact hfits
  listed prepared hphase pane hmem := by
    have hfits := h.fits
    rw [hphase] at hfits
    obtain ⟨hregistered, pause, hpause, heq⟩ := hfits.lists pane hmem
    exact ⟨hregistered, heq ▸ (hfits.holds pause hpause).1⟩
  unpaused hover := by
    have hfits := h.fits
    have howed : daemon.phase.owed = [] := by
      cases hphase : daemon.phase <;> rw [hphase] at hover <;> first | rfl | exact hover.elim
    refine ⟨?_, fun sessionID request ⟨hpump, pause, hpause, hopen⟩ => ?_⟩
    · cases hphase : daemon.phase with
      | failed err =>
        rw [hphase] at hfits
        exact hfits
      | released =>
        rw [hphase] at hfits
        exact hfits
      | _ =>
        rw [hphase] at hover
        exact hover.elim
    · obtain ⟨standing, hstanding, -, hreleased⟩ := (h.accounted sessionID).waiting request hpump
      obtain rfl := Option.some.inj (hpause.symm.trans hstanding)
      rcases hreleased with hreleased | hmem
      · exact nomatch hreleased.symm.trans hopen
      · rw [howed] at hmem
        exact nomatch hmem

/-- **Pausing.** In every run of handoff attempts, readers and watchers in which no watcher
clears a record that the attempt has yet to visit, no step dereferences a cleared record, a
returned manifest lists live panes only, and an attempt that is over leaves no reader
paused. -/
theorem pausesCleanly_of_spares {operations : Operations}
    (hprepared : operations.handoffPrepared = false)
    (hreach : Reaches HandoffDaemon.step Spares { operations } daemon) : daemon.PausesCleanly := by
  have hsound : daemon.Sound :=
    hreach.invariant (fun _ _ _ h hspares hstep => Sound.step h hspares hstep)
      (sound_initial hprepared)
  exact hsound.pausesCleanly

/-! ### The exit of a collected pane -/

/-- A daemon with one live pane. -/
def onePane : Operations where
  sessions := [{
    id := "session-1", paneID := "pane-1", projectID := "p", logicalSessionID := "session-1"
    windowID := "window-1", broadcastScope := "window", attached := true
    pane := some { descriptor := 7, processGroupID := 4, leaderStartToken := "t" } }]

/-- The pane is paused and captured. -/
def pauseAndCapture : List HandoffStep :=
  [.prepare onePane.sessions, .engineVersion (.ok "1"), .request, .pump "session-1" .check,
    .pump "session-1" (.ground true), .pump "session-1" .pause, .ready,
    .capture (.ok ([1], [1], [])), .append, .finish]

/-- The process of the pane ends before its turn. -/
def exitBeforeTurn : List HandoffStep :=
  [.prepare onePane.sessions, .engineVersion (.ok "1"), .exit "session-1", .watch "session-1",
    .stopReader "session-1", .pump "session-1" .check, .pump "session-1" (.read false),
    .clearRecord "session-1" none, .request]

instance (daemon : HandoffDaemon) : (label : HandoffStep) → Decidable (daemon.Spares label)
  | .clearRecord sessionID _ =>
    inferInstanceAs (Decidable (sessionID ∉ daemon.phase.unvisited))
  | .prepare _ | .engineVersion _ | .request | .ready | .contextDone _ | .capture _ | .append
  | .finish | .release | .releaseNext | .unlock | .pump _ _ | .exit _ | .watch _
  | .stopReader _ => .isTrue trivial

theorem pausesCleanly_onePane :
    ∃ daemon : HandoffDaemon, daemon.phase.listed = ["pane-1"] ∧
      daemon.PausesCleanly := by
  have hreplay : (replay HandoffDaemon.step Spares { operations := onePane } pauseAndCapture).any
      fun daemon => daemon.phase.listed = ["pane-1"] := by
    decide +kernel
  obtain ⟨daemon, hrun, hlisted⟩ := exists_run_of_replay hreplay
  have hreach : Reaches HandoffDaemon.step Spares { operations := onePane } daemon :=
    ⟨pauseAndCapture, hrun⟩
  exact ⟨daemon, hlisted, pausesCleanly_of_spares rfl hreach⟩

/-- The type assertion on the cleared attachment panics. -/
theorem not_pausesCleanly_of_exit :
    ¬ ∀ (operations : Operations) (daemon : HandoffDaemon), operations.handoffPrepared = false →
      Reaches HandoffDaemon.step Always { operations } daemon → daemon.PausesCleanly := by
  intro hall
  have hrun : (replay HandoffDaemon.step Always { operations := onePane } exitBeforeTurn).any
      fun daemon => daemon.phase.isPanicked := by
    decide +kernel
  obtain ⟨daemon, hreplay, hpanicked⟩ := (Option.any_eq_true _ _).mp hrun
  refine (hall onePane daemon rfl ⟨exitBeforeTurn, run_iff_replay.mpr hreplay⟩).noPanic ?_
  revert hpanicked
  cases daemon.phase <;> simp [PreparePhase.isPanicked]

end HandoffDaemon

end AgentCockpit.Mux
