import AgentCockpit.Core.Run
import AgentCockpit.Mux.Pipeline

/-!
# Exactly-once output behind the attach barrier

One pane with any number of clients. The pump, attaches and resizes hold the
pipeline lock for their whole step, and a poll reads the stream under its own lock,
so every schedule of the daemon is a sequence of these steps. A client starts at the
resume sequence of its seed and always polls from the sequence after the last chunk
it received.
-/

namespace AgentCockpit.Mux

/-- A client of a pane: its seed and the chunks its polls returned. -/
structure Client where
  seed : Seed
  received : List Output := []
  deriving DecidableEq, Repr

/-- A pane together with the clients that attached to it. -/
structure AttachedPane (T : Type*) where
  pipeline : Pipeline T
  clients : List Client := []

/-- One atomic step of the pane or of a client. -/
inductive PaneStep
  | pump (read : PtyRead)
  | attach (paneResize : Option String) (cols rows cellWidth cellHeight : ℕ)
  | resize (paneResize : Option String) (cols rows : ℕ)
  | poll (client maximumBytes : ℕ)

namespace Client

/-- The sequence the client polls from next. -/
def next (client : Client) : ℕ :=
  match client.received.getLast? with
  | some output => output.sequence + 1
  | none => client.seed.resumeSequence

def poll (client : Client) (stream : Stream) (maximumBytes : ℕ) : Client :=
  { client with
    received := client.received ++ stream.outputsFromBounded client.next maximumBytes }

/-- The client resumes inside the stream and has received a prefix of the chunks
from there on. -/
structure InStep (client : Client) (stream : Stream) : Prop where
  resume_pos : 1 ≤ client.seed.resumeSequence
  resume_le : client.seed.resumeSequence ≤ stream.sequence + 1
  received : client.received <+: stream.chunksFrom client.seed.resumeSequence

variable {client : Client} {stream : Stream}

/-- The next poll starts right after the received chunks. -/
theorem InStep.next_eq (h : client.InStep stream) (hnum : stream.Numbered) :
    client.next = client.seed.resumeSequence + client.received.length := by
  have hpos := h.resume_pos
  have hreceived := h.received
  rw [hnum.chunksFrom_eq] at hreceived
  rcases List.eq_nil_or_concat client.received with hnil | ⟨before, output, hlast⟩
  · simp [next, hnil]
  · have hlen := hreceived.length_le
    have hget := hreceived.getElem (i := before.length) (by simp [hlast])
    simp only [hlast, List.concat_eq_append, List.getElem_append_right le_rfl,
      Nat.sub_self, List.getElem_cons_zero, List.getElem_drop] at hget
    have hseq := congrArg Output.sequence hget
    rw [hnum.sequence_getElem] at hseq
    simp only [next, hlast, List.concat_eq_append, List.getLast?_append, List.getLast?_singleton,
      Option.some_or, List.length_append, List.length_singleton, hseq]
    omega

/-- What is outstanding for a client is what a poll can return. -/
theorem InStep.chunksFrom_next (h : client.InStep stream) (hnum : stream.Numbered) :
    stream.chunksFrom client.next =
      (stream.chunksFrom client.seed.resumeSequence).drop client.received.length := by
  have hpos := h.resume_pos
  rw [hnum.chunksFrom_eq, hnum.chunksFrom_eq, h.next_eq hnum, List.drop_drop]
  congr 1
  omega

/-- A poll keeps a client in step. -/
theorem InStep.poll (h : client.InStep stream) (hnum : stream.Numbered) (maximumBytes : ℕ) :
    (client.poll stream maximumBytes).InStep stream := by
  refine ⟨h.resume_pos, h.resume_le, ?_⟩
  have hpoll := (Stream.outputsFromBounded_eq hnum client.next maximumBytes).1
  rw [h.chunksFrom_next hnum] at hpoll
  obtain ⟨later, hlater⟩ := h.received
  have hdrop := congrArg (List.drop client.received.length) hlater
  rw [List.drop_left] at hdrop
  rw [← hdrop] at hpoll
  show client.received ++ _ <+: stream.chunksFrom client.seed.resumeSequence
  rw [← hlater]
  exact (List.prefix_append_right_inj _).mpr hpoll

/-- Appending output keeps a client in step. -/
theorem InStep.append (h : client.InStep stream) (hnum : stream.Numbered) (data : Bytes) :
    client.InStep (stream.append data).1 := by
  have hlen := (stream.outputs_prefix_append data).length_le
  rw [hnum.length_outputs, (Stream.numbered_append hnum data).length_outputs] at hlen
  have hresume := h.resume_le
  refine ⟨h.resume_pos, by omega, h.received.trans ?_⟩
  rw [Stream.chunksFrom, Stream.chunksFrom, Stream.append_outputs, List.filter_append]
  exact List.prefix_append _ _

end Client

namespace AttachedPane

variable {T : Type*} (ghostty : Ghostty T)

/-- One step of the pane or of a client; a poll takes a positive byte bound. -/
def step (pane : AttachedPane T) : PaneStep → Option (AttachedPane T)
  | .pump read => some { pane with pipeline := (pane.pipeline.pump ghostty read).pipeline }
  | .attach paneResize cols rows cellWidth cellHeight =>
    match pane.pipeline.attach ghostty paneResize cols rows cellWidth cellHeight with
    | (pipeline, .ok seed) => some ⟨pipeline, pane.clients ++ [⟨seed, []⟩]⟩
    | (pipeline, .error _) => some { pane with pipeline }
  | .resize paneResize cols rows =>
    some { pane with pipeline := (pane.pipeline.resize ghostty paneResize cols rows).1 }
  | .poll index maximumBytes =>
    match pane.clients[index]? with
    | none => none
    | some client =>
      if 0 < maximumBytes then
        some { pane with
          clients := pane.clients.set index (client.poll pane.pipeline.stream maximumBytes) }
      else none

/-- No archive-hook call of a pump step fails. -/
def ArchiveSucceeds (pane : AttachedPane T) : PaneStep → Prop
  | .pump read => pane.pipeline.ArchiveSucceeds ghostty read
  | _ => True

/-- The promise of the barrier. Sequences are consecutive from one; every seed is
built from a terminal state that reflects exactly the bytes of the chunks below its
resume sequence; every client has received a prefix of the later chunks; and a poll
returns a chunk while any is outstanding. -/
structure ExactlyOnce (start : Display T) (pane : AttachedPane T) : Prop where
  consecutive : pane.pipeline.stream.Numbered
  seed : ∀ client ∈ pane.clients, ∃ display,
    Display.Reflects ghostty start
        (pane.pipeline.stream.bytesBelow client.seed.resumeSequence) display ∧
      display.seedBytes ghostty = .ok (client.seed.data, client.seed.graphics)
  inOrder : ∀ client ∈ pane.clients,
    client.received <+: pane.pipeline.stream.chunksFrom client.seed.resumeSequence
  progress : ∀ client ∈ pane.clients, ∀ maximumBytes, 0 < maximumBytes →
    client.received ≠ pane.pipeline.stream.chunksFrom client.seed.resumeSequence →
      pane.pipeline.stream.outputsFromBounded client.next maximumBytes ≠ []

/-- The invariant behind the promise: besides the numbering and what concerns each
client, the terminal state reflects exactly the bytes of the whole stream. -/
structure Barrier (start : Display T) (pane : AttachedPane T) : Prop where
  numbered : pane.pipeline.stream.Numbered
  live : Display.Reflects ghostty start (Stream.bytesOf pane.pipeline.stream.outputs)
    pane.pipeline.toDisplay
  seed : ∀ client ∈ pane.clients, ∃ display,
    Display.Reflects ghostty start
        (pane.pipeline.stream.bytesBelow client.seed.resumeSequence) display ∧
      display.seedBytes ghostty = .ok (client.seed.data, client.seed.graphics)
  inStep : ∀ client ∈ pane.clients, client.InStep pane.pipeline.stream

variable {ghostty} {start : Display T} {pane pane' : AttachedPane T}

theorem barrier_start : Barrier ghostty start ⟨⟨start, {}⟩, []⟩ :=
  ⟨Stream.numbered_empty, .start, nofun, nofun⟩

/-- A read that takes both paths keeps the invariant. -/
theorem Barrier.deliver (h : Barrier ghostty start pane) (data : Bytes) :
    Barrier ghostty start { pane with pipeline := pane.pipeline.deliver ghostty data } where
  numbered := Stream.numbered_append h.numbered data
  live := by
    simp only [Pipeline.deliver, Stream.bytes_append]
    exact h.live.feed data
  seed := fun client hmem => by
    obtain ⟨display, hreflects, hseed⟩ := h.seed client hmem
    refine ⟨display, ?_, hseed⟩
    simp only [Pipeline.deliver]
    rwa [Stream.bytesBelow_append h.numbered (h.inStep client hmem).resume_le]
  inStep := fun client hmem => (h.inStep client hmem).append h.numbered data

theorem Barrier.pump (h : Barrier ghostty start pane) {read : PtyRead}
    (harchive : pane.pipeline.ArchiveSucceeds ghostty read) :
    Barrier ghostty start
      { pane with pipeline := (pane.pipeline.pump ghostty read).pipeline } := by
  obtain ⟨_, hpipeline, _⟩ | ⟨_, hfails, _⟩ | ⟨_, _, hpipeline, _⟩ :=
    pane.pipeline.pump_cases ghostty read
  · rwa [hpipeline]
  · exact absurd harchive hfails
  · rw [hpipeline]
    exact h.deliver read.data

/-- A change of geometry keeps the invariant. -/
theorem Barrier.resized (h : Barrier ghostty start pane) (paneResize : Option String)
    (cols rows cellWidth cellHeight : ℕ) :
    Barrier ghostty start { pane with
      pipeline.toDisplay :=
        (pane.pipeline.resizeLocked ghostty paneResize cols rows cellWidth cellHeight).1 } :=
  { h with live := h.live.resize paneResize cols rows cellWidth cellHeight }

/-- The seed of a successful attach reflects what the stream holds at that moment. -/
theorem Barrier.attach (h : Barrier ghostty start pane) {paneResize : Option String}
    {cols rows cellWidth cellHeight : ℕ} {seed : Seed}
    (hseed : (pane.pipeline.attach ghostty paneResize cols rows cellWidth cellHeight).2 =
      .ok seed) :
    Barrier ghostty start
      ⟨(pane.pipeline.attach ghostty paneResize cols rows cellWidth cellHeight).1,
        pane.clients ++ [⟨seed, []⟩]⟩ := by
  have hresized := h.resized paneResize cols rows cellWidth cellHeight
  obtain ⟨hbytes, hresume⟩ := Pipeline.attach_seed ghostty hseed
  rw [Pipeline.attach_fst]
  refine ⟨hresized.numbered, hresized.live, fun client hmem => ?_, fun client hmem => ?_⟩
  · rcases List.mem_append.mp hmem with hold | hnew
    · exact hresized.seed client hold
    · obtain rfl := List.mem_singleton.mp hnew
      refine ⟨_, ?_, hbytes⟩
      simp only [hresume, h.numbered.bytesBelow_next]
      exact hresized.live
  · rcases List.mem_append.mp hmem with hold | hnew
    · exact hresized.inStep client hold
    · obtain rfl := List.mem_singleton.mp hnew
      exact ⟨by simp [hresume], by simp [hresume], List.nil_prefix⟩

theorem Barrier.poll (h : Barrier ghostty start pane) {index : ℕ} {client : Client}
    (hclient : pane.clients[index]? = some client) (maximumBytes : ℕ) :
    Barrier ghostty start { pane with
      clients := pane.clients.set index (client.poll pane.pipeline.stream maximumBytes) } := by
  have hclient := List.mem_of_getElem? hclient
  refine ⟨h.numbered, h.live, fun other hmem => ?_, fun other hmem => ?_⟩
  · rcases List.mem_or_eq_of_mem_set hmem with hold | rfl
    · exact h.seed other hold
    · exact h.seed client hclient
  · rcases List.mem_or_eq_of_mem_set hmem with hold | rfl
    · exact h.inStep other hold
    · exact (h.inStep client hclient).poll h.numbered maximumBytes

/-- Every step without a failing archive-hook call keeps the invariant. -/
theorem Barrier.step (h : Barrier ghostty start pane) {label : PaneStep}
    (hadmits : ArchiveSucceeds ghostty pane label) (hstep : pane.step ghostty label = some pane') :
    Barrier ghostty start pane' := by
  cases label with
  | pump read =>
    obtain rfl := Option.some.inj hstep
    exact h.pump hadmits
  | attach paneResize cols rows cellWidth cellHeight =>
    simp only [AttachedPane.step] at hstep
    split at hstep
    · next pipeline seed hattach =>
      obtain rfl := Option.some.inj hstep
      obtain rfl : _ = pipeline := congrArg Prod.fst hattach
      exact h.attach (congrArg Prod.snd hattach)
    · next pipeline err hattach =>
      obtain rfl := Option.some.inj hstep
      obtain rfl : _ = pipeline := congrArg Prod.fst hattach
      rw [Pipeline.attach_fst]
      exact h.resized paneResize cols rows cellWidth cellHeight
  | resize paneResize cols rows =>
    obtain rfl := Option.some.inj hstep
    exact h.resized paneResize cols rows _ _
  | poll index maximumBytes =>
    simp only [AttachedPane.step] at hstep
    split at hstep
    · exact nomatch hstep
    · next client hclient =>
      split at hstep
      · obtain rfl := Option.some.inj hstep
        exact h.poll hclient maximumBytes
      · exact nomatch hstep

/-- The invariant gives the promise of the barrier. -/
theorem Barrier.exactlyOnce (h : Barrier ghostty start pane) :
    ExactlyOnce ghostty start pane where
  consecutive := h.numbered
  seed := h.seed
  inOrder := fun client hmem => (h.inStep client hmem).received
  progress := fun client hmem maximumBytes _ hbehind => by
    have hin := h.inStep client hmem
    refine (Stream.outputsFromBounded_eq h.numbered client.next maximumBytes).2 ?_
    rw [hin.chunksFrom_next h.numbered]
    intro hnil
    exact hbehind (hin.received.eq_of_length_le (List.drop_eq_nil_iff.mp hnil))

/-- **Exactly-once output.** In every run whose pump steps have no failing
archive-hook call, the promise of the barrier holds in every state. -/
theorem exactlyOnce_of_archiveSucceeds {w : List PaneStep}
    (hrun : Core.Run (step ghostty) (ArchiveSucceeds ghostty) ⟨⟨start, {}⟩, []⟩ w pane) :
    ExactlyOnce ghostty start pane :=
  (hrun.invariant (fun _ _ _ h hadmits hstep => h.step hadmits hstep) barrier_start).exactlyOnce

theorem step_archiveFailure :
    step transcript ⟨⟨blank, {}⟩, []⟩ (.pump archiveFailure) =
      some ⟨⟨{ blank with shadow := [0x41], primary := some [0x41] }, {}⟩, []⟩ := by
  simp [step, Pipeline.pump, archiveFailure, Display.feedPrimary, blank, transcript,
    PrimaryMirror.feedWithHook, PrimaryMirror.feedLoop, PrimaryMirror.feed,
    PrimaryMirror.feedPieces, bytesIndex, switchOn, PrimaryMirror.heldSuffix,
    PrimaryMirror.archiveObservationChunk]

/-- A failing archive hook breaks the promise: the byte reached the terminal but no
chunk, and the next seed shows it. -/
theorem not_exactlyOnce_of_archive_failure :
    ¬ ∀ (w : List PaneStep) (pane : AttachedPane Bytes),
      Core.Run (step transcript) Core.Always ⟨⟨blank, {}⟩, []⟩ w pane →
        ExactlyOnce transcript blank pane := by
  intro hall
  have hrun : Core.Run (step transcript) Core.Always ⟨⟨blank, {}⟩, []⟩
      [.pump archiveFailure, .attach none 80 24 0 0]
      ⟨⟨{ blank with shadow := [0x41], primary := some [0x41] }, {}⟩,
        [⟨⟨ascii "\x1b[?2026lA", [0x41], 1⟩, []⟩]⟩ :=
    .cons trivial step_archiveFailure (.single trivial rfl)
  obtain ⟨display, hreflects, hseed⟩ := (hall _ _ hrun).seed _ (List.mem_singleton.mpr rfl)
  have hempty : display.shadow = [] := transcript_reflects hreflects
  have hshown : display.shadow = [0x41] :=
    Except.ok.inj (Display.graphicsSeed_of_seedBytes transcript hseed)
  exact absurd (hempty.symm.trans hshown) (by decide)

theorem step_transcript :
    step transcript ⟨⟨blank, {}⟩, []⟩ (.pump { data := [0x41] }) =
      some ⟨⟨{ blank with shadow := [0x41], primary := some [0x41] }, ⟨1, [⟨1, [0x41]⟩]⟩⟩, []⟩ := by
  simp [step, Pipeline.pump, Display.feedPrimary, blank, transcript, PrimaryMirror.feedWithHook,
    PrimaryMirror.feedLoop, PrimaryMirror.feed, PrimaryMirror.feedPieces, bytesIndex, switchOn,
    PrimaryMirror.heldSuffix, PrimaryMirror.archiveObservationChunk, Stream.append,
    Stream.appendChunks, maxOutputChunkBytes, ModeState.observe, ModeState.scan, esc,
    PrimaryMirror.keep, switchOff, Pipeline.recordOutputs]

/-- A run of the promise: a read, an attach, and a poll. -/
theorem exactlyOnce_transcript :
    ExactlyOnce transcript blank
      ⟨⟨{ blank with shadow := [0x41], primary := some [0x41] }, ⟨1, [⟨1, [0x41]⟩]⟩⟩,
        [⟨⟨ascii "\x1b[?2026lA", [0x41], 2⟩, []⟩]⟩ :=
  exactlyOnce_of_archiveSucceeds (w := [.pump { data := [0x41] }, .attach none 80 24 0 0,
    .poll 0 1])
    (.cons (fun _ _ => rfl) step_transcript (.cons trivial rfl (.single trivial rfl)))

end AttachedPane

end AgentCockpit.Mux
