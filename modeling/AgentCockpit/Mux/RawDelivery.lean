import AgentCockpit.Mux.Pipeline

/-!
# Raw delivery and optional persistence

The pump loop of an attachment reads the PTY until the PTY ends or fails, its
readiness wait fails, or the daemon stops the reader. The hooks of the history
archive and of the recorder run inside it, and their errors end it too: an archive
error even before the bytes reach the stream. This module states what raw delivery
independent of persistence would be and determines exactly when the loop provides it.
-/

namespace AgentCockpit.Mux

/-- What one iteration of the pump loop meets: a handoff pause that was released, a
failed readiness wait, an idle PTY, or a readable one. `stop` tells whether the
reader has been asked to stop. -/
inductive PollEvent
  | paused
  | waitFailed (err : String)
  | idle (stop : Bool)
  | readable (stop : Bool) (read : PtyRead)

namespace PollEvent

/-- The events that end the loop whatever the hooks do. -/
def ends : PollEvent → Bool
  | paused => false
  | waitFailed _ => true
  | idle stop => stop
  | readable stop read => stop || read.err.isSome

/-- The bytes read from the PTY. -/
def bytes : PollEvent → Bytes
  | readable false read => read.data
  | _ => []

end PollEvent

/-- Delivered bytes, whether the loop ended, and the events it did not reach. -/
structure RawOutcome where
  bytes : Bytes
  ended : Bool
  unread : List PollEvent

/-- The delivery that the PTY alone determines: every byte up to the event that ends
the loop, and no end before it. -/
def rawOutcome : List PollEvent → RawOutcome
  | [] => ⟨[], false, []⟩
  | event :: rest =>
    if event.ends then ⟨event.bytes, true, rest⟩
    else { rawOutcome rest with bytes := event.bytes ++ (rawOutcome rest).bytes }

/-- The state of the pump loop when it ended or used up its events. -/
structure PumpLoop (T : Type*) where
  pipeline : Pipeline T
  ended : Bool
  pumpErr : Option String
  unread : List PollEvent

theorem rawOutcome_unread_length {events : List PollEvent} (h : (rawOutcome events).ended = true) :
    (rawOutcome events).unread.length < events.length := by
  induction events with
  | nil => exact nomatch h
  | cons event rest ih =>
    rw [rawOutcome] at h ⊢
    split at h
    · next hends => simp [hends]
    · next hends =>
      rw [if_neg hends]
      exact (ih h).trans (Nat.lt_succ_self _)

namespace Pipeline

variable {T : Type*} (ghostty : Ghostty T)

/-- The pump loop over a list of events. -/
def pumpLoop (pipeline : Pipeline T) : List PollEvent → PumpLoop T
  | [] => ⟨pipeline, false, none, []⟩
  | .paused :: rest => pumpLoop pipeline rest
  | .waitFailed err :: rest => ⟨pipeline, true, some ("wait mux pane readability: " ++ err), rest⟩
  | .idle stop :: rest => if stop then ⟨pipeline, true, none, rest⟩ else pumpLoop pipeline rest
  | .readable stop read :: rest =>
    if stop then ⟨pipeline, true, none, rest⟩
    else
      match (pipeline.pump ghostty read).err with
      | some err =>
        ⟨(pipeline.pump ghostty read).pipeline, true, some ("pump mux pane: " ++ err), rest⟩
      | none => pumpLoop (pipeline.pump ghostty read).pipeline rest

/-- Every byte read from the PTY is appended exactly once and in order, and the loop
ends only where the PTY ends it. -/
structure RawDelivery (pipeline : Pipeline T) (events : List PollEvent) : Prop where
  appended : Stream.bytesOf (pipeline.pumpLoop ghostty events).pipeline.stream.outputs =
    Stream.bytesOf pipeline.stream.outputs ++ (rawOutcome events).bytes
  ended : (pipeline.pumpLoop ghostty events).ended = (rawOutcome events).ended
  unread : (pipeline.pumpLoop ghostty events).unread = (rawOutcome events).unread

/-- No archive-hook call fails, and no recorder-hook call fails in a read that does
not carry the error of the PTY. Only the reads before the end of the loop count. -/
def HooksSucceed (pipeline : Pipeline T) : List PollEvent → Prop
  | [] => True
  | .readable false read :: rest =>
    if read.data = [] then read.err = none → HooksSucceed pipeline rest
    else pipeline.ArchiveSucceeds ghostty read ∧
      (read.err = none → pipeline.RecorderSucceeds read ∧
        HooksSucceed (pipeline.deliver ghostty read.data) rest)
  | event :: rest => event.ends = false → HooksSucceed pipeline rest

variable {ghostty} {pipeline pipeline' : Pipeline T} {event : PollEvent} {rest : List PollEvent}

/-- An event that the loop passes hands raw delivery on to the rest, provided its
bytes were appended. -/
theorem rawDelivery_cons_of_pass (hends : event.ends = false)
    (hloop : pipeline.pumpLoop ghostty (event :: rest) = pipeline'.pumpLoop ghostty rest)
    (hbytes : Stream.bytesOf pipeline'.stream.outputs =
      Stream.bytesOf pipeline.stream.outputs ++ event.bytes) :
    RawDelivery ghostty pipeline (event :: rest) ↔ RawDelivery ghostty pipeline' rest := by
  have hraw : rawOutcome (event :: rest) =
      { rawOutcome rest with bytes := event.bytes ++ (rawOutcome rest).bytes } := by
    rw [rawOutcome, if_neg (by simp [hends])]
  constructor
  · rintro ⟨happended, hended, hunread⟩
    rw [hloop, hraw] at happended hended hunread
    exact ⟨by rw [happended, hbytes, List.append_assoc], hended, hunread⟩
  · rintro ⟨happended, hended, hunread⟩
    refine ⟨?_, ?_, ?_⟩ <;> rw [hloop, hraw]
    · rw [happended, hbytes, List.append_assoc]
    · exact hended
    · exact hunread

/-- Where the PTY ends the loop, raw delivery is about the bytes of that event. -/
theorem rawDelivery_cons_of_ends {pumpErr : Option String} (hends : event.ends = true)
    (hloop : pipeline.pumpLoop ghostty (event :: rest) = ⟨pipeline', true, pumpErr, rest⟩) :
    RawDelivery ghostty pipeline (event :: rest) ↔
      Stream.bytesOf pipeline'.stream.outputs =
        Stream.bytesOf pipeline.stream.outputs ++ event.bytes := by
  have hraw : rawOutcome (event :: rest) = ⟨event.bytes, true, rest⟩ := by
    rw [rawOutcome, if_pos hends]
  constructor
  · rintro ⟨happended, -, -⟩
    rwa [hloop, hraw] at happended
  · intro happended
    exact ⟨by rwa [hloop, hraw], by rw [hloop, hraw], by rw [hloop, hraw]⟩

/-- A loop that ends although the PTY goes on is not raw delivery. -/
theorem not_rawDelivery_cons {pumpErr : Option String} (hends : event.ends = false)
    (hloop : pipeline.pumpLoop ghostty (event :: rest) = ⟨pipeline', true, pumpErr, rest⟩) :
    ¬ RawDelivery ghostty pipeline (event :: rest) := by
  rintro ⟨-, hended, hunread⟩
  rw [hloop, rawOutcome, if_neg (by simp [hends])] at hended hunread
  have hlength := rawOutcome_unread_length hended.symm
  rw [← show rest = (rawOutcome rest).unread from hunread] at hlength
  exact lt_irrefl _ hlength

variable (ghostty) in
theorem pumpLoop_readable (pipeline : Pipeline T) (read : PtyRead) (rest : List PollEvent) :
    pipeline.pumpLoop ghostty (.readable false read :: rest) =
      match (pipeline.pump ghostty read).err with
      | some err =>
        ⟨(pipeline.pump ghostty read).pipeline, true, some ("pump mux pane: " ++ err), rest⟩
      | none => (pipeline.pump ghostty read).pipeline.pumpLoop ghostty rest := by
  rw [pumpLoop, if_neg Bool.false_ne_true]

/-- The case of a read, given the result for the rest of the events. -/
theorem rawDelivery_readable_iff (read : PtyRead)
    (ih : ∀ pipeline : Pipeline T,
      RawDelivery ghostty pipeline rest ↔ HooksSucceed ghostty pipeline rest) :
    RawDelivery ghostty pipeline (.readable false read :: rest) ↔
      HooksSucceed ghostty pipeline (.readable false read :: rest) := by
  have hloop := pumpLoop_readable ghostty pipeline read rest
  rw [HooksSucceed]
  obtain ⟨hdata, hpipeline, herr⟩ | ⟨hdata, harchive, hstream, herr⟩ |
      ⟨hdata, harchive, hpipeline, hrecorder⟩ := pipeline.pump_cases ghostty read
  · rw [if_pos hdata]
    rw [hpipeline, herr] at hloop
    cases hread : read.err with
    | some err =>
      rw [hread] at hloop
      rw [rawDelivery_cons_of_ends (by simp [PollEvent.ends, hread]) hloop]
      simp [PollEvent.bytes, hdata]
    | none =>
      rw [hread] at hloop
      rw [rawDelivery_cons_of_pass (by simp [PollEvent.ends, hread]) hloop
        (by simp [PollEvent.bytes, hdata]), ih]
      simp
  · -- The bytes never reach the stream, and the loop ends.
    rw [if_neg hdata]
    refine iff_of_false (fun hraw => ?_) fun h => harchive h.1
    obtain ⟨err, herr⟩ := Option.ne_none_iff_exists'.mp herr
    rw [herr] at hloop
    cases hread : read.err with
    | some _ =>
      rw [rawDelivery_cons_of_ends (by simp [PollEvent.ends, hread]) hloop, hstream] at hraw
      exact hdata (List.append_right_eq_self.mp hraw.symm)
    | none => exact not_rawDelivery_cons (by simp [PollEvent.ends, hread]) hloop hraw
  · -- The bytes are appended; only a recorder error can end the loop early.
    rw [if_neg hdata]
    have hbytes : Stream.bytesOf (pipeline.deliver ghostty read.data).stream.outputs =
        Stream.bytesOf pipeline.stream.outputs ++ read.data :=
      Stream.bytes_append _ read.data
    rw [hpipeline] at hloop
    cases hread : read.err with
    | some err =>
      have hpump : ∃ err, (pipeline.pump ghostty read).err = some err := by
        rcases hrecorder with ⟨-, herr⟩ | ⟨-, herr⟩
        · exact ⟨err, herr.trans hread⟩
        · exact Option.ne_none_iff_exists'.mp herr
      obtain ⟨err, herr⟩ := hpump
      rw [herr] at hloop
      rw [rawDelivery_cons_of_ends (by simp [PollEvent.ends, hread]) hloop]
      exact iff_of_true hbytes ⟨harchive, nofun⟩
    | none =>
      rcases hrecorder with ⟨hsucceeds, herr⟩ | ⟨hfails, herr⟩
      · rw [herr, hread] at hloop
        rw [rawDelivery_cons_of_pass (by simp [PollEvent.ends, hread]) hloop hbytes, ih]
        exact ⟨fun h => ⟨harchive, fun _ => ⟨hsucceeds, h⟩⟩, fun h => (h.2 rfl).2⟩
      · obtain ⟨err, herr⟩ := Option.ne_none_iff_exists'.mp herr
        rw [herr] at hloop
        exact iff_of_false (not_rawDelivery_cons (by simp [PollEvent.ends, hread]) hloop)
          fun h => hfails (h.2 rfl).1

/-- **Raw delivery and the hooks.** The loop delivers what the PTY delivers exactly
when no hook call fails before the PTY ends the loop. -/
theorem rawDelivery_iff (pipeline : Pipeline T) (events : List PollEvent) :
    RawDelivery ghostty pipeline events ↔ HooksSucceed ghostty pipeline events := by
  have hpass : ∀ (pipeline : Pipeline T),
      Stream.bytesOf pipeline.stream.outputs = Stream.bytesOf pipeline.stream.outputs ++ [] :=
    fun _ => (List.append_nil _).symm
  induction events generalizing pipeline with
  | nil => exact iff_of_true ⟨hpass pipeline, rfl, rfl⟩ trivial
  | cons event rest ih =>
    cases event with
    | paused =>
      refine (rawDelivery_cons_of_pass rfl rfl (hpass pipeline)).trans ((ih pipeline).trans ?_)
      simp [HooksSucceed, PollEvent.ends]
    | waitFailed err =>
      rw [rawDelivery_cons_of_ends rfl rfl]
      exact iff_of_true (hpass pipeline) nofun
    | idle stop =>
      cases stop with
      | true =>
        rw [rawDelivery_cons_of_ends rfl rfl]
        exact iff_of_true (hpass pipeline) nofun
      | false =>
        refine (rawDelivery_cons_of_pass rfl rfl (hpass pipeline)).trans ((ih pipeline).trans ?_)
        simp [HooksSucceed, PollEvent.ends]
    | readable stop read =>
      cases stop with
      | true =>
        rw [rawDelivery_cons_of_ends rfl rfl]
        exact iff_of_true (hpass pipeline) nofun
      | false => exact rawDelivery_readable_iff read ih

/-- A failing archive hook loses the bytes of its read and ends the loop. -/
theorem not_rawDelivery_of_archive_failure :
    ¬ ∀ (pipeline : Pipeline Bytes) (events : List PollEvent),
      RawDelivery transcript pipeline events := by
  intro hall
  have hsucceed := (rawDelivery_iff _ _).mp
    (hall ⟨blank, {}⟩ [.readable false archiveFailure, .readable false { data := [0x42] }])
  rw [HooksSucceed, if_neg (by simp [archiveFailure])] at hsucceed
  exact not_archiveSucceeds_archiveFailure hsucceed.1

end Pipeline

end AgentCockpit.Mux
