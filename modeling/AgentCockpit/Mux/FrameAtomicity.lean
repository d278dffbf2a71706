import AgentCockpit.Mux.Modes
import AgentCockpit.Mux.Server

/-!
# Whole frames on the mux socket

Two goroutines can write to one connection: its own, with a response, and the one of a
connection that takes over a session, with an event. No lock is held over the two writes of
a frame, so the event can fall between the header and the payload of the response, and the
connection can be closed between them. In a schedule that does neither, every byte stream is
a sequence of whole frames.
-/

namespace AgentCockpit.Mux

open AgentCockpit.Core Function

/-- The frame a goroutine has written the header of, with the connection it is written to. -/
def Phase.half (connection : ℕ) : Phase → Option (ℕ × Bytes)
  | .stealing previous event true _ => some (previous, event)
  | .responding response true _ => some (connection, response)
  | _ => none

namespace Server

variable {ε σ : Type} {wire : Wire ε σ} {server server' : Server σ} {label : ServerStep ε}

def half (server : Server σ) (writer : ℕ) : Option (ℕ × Bytes) :=
  (server.phase writer).half writer

/-- A goroutine has written the header of a frame to a connection, and not its payload. -/
def HalfWritten (server : Server σ) (target : ℕ) : Prop :=
  ∃ writer payload, server.half writer = some (target, payload)

/-- Unless a frame is being written to it, the byte stream of a connection whose peer is
there is a sequence of whole frames; while one is, its header follows them. -/
def FrameAtomic (server : Server σ) : Prop :=
  ∀ target, server.reachable target →
    (¬ server.HalfWritten target → CompleteFrames (server.written target)) ∧
    ∀ writer payload, server.half writer = some (target, payload) →
      payload.length ≤ maxFrameBytes ∧ ∃ stream, CompleteFrames stream ∧
        server.written target = stream ++ frameHeader payload.length

/-- The connection on which the next write of a goroutine starts a frame. -/
def starts (server : Server σ) (writer : ℕ) : Option ℕ :=
  match server.phase writer with
  | .stealing previous _ false _ => some previous
  | .responding _ false _ => some writer
  | _ => none

/-- The connection a step closes. -/
def closes (server : Server σ) : ServerStep ε → Option ℕ
  | .evict connection =>
    match server.phase connection with
    | .evicting previous _ => some previous
    | _ => none
  | .close connection => some connection
  | _ => none

/-- While a frame is half written to a connection, no other frame is started on it and it is
not closed. -/
def Serial (server : Server σ) (label : ServerStep ε) : Prop :=
  (∀ writer, label = .write writer → ∀ target ∈ server.starts writer,
    ¬ server.HalfWritten target) ∧
  ∀ target ∈ server.closes label, ¬ server.HalfWritten target

/-! ### What a step does to the streams -/

/-- The phases and the open connections that a step does not change. -/
structure Entered (server server' : Server σ) (connection : ℕ) (half : Option (ℕ × Bytes)) :
    Prop where
  half : server'.half = update server.half connection half
  used : ∀ other, server'.phase other = .unused → server.phase other = .unused

/-- What a step does to the streams. -/
inductive Effect (server : Server σ) (label : ServerStep ε) (server' : Server σ) : Prop
  | move (connection : ℕ) (hentered : Entered server server' connection none)
      (hhalf : ∀ target payload, server.half connection = some (target, payload) →
        server.writable target = false)
      (hwritten : server'.written = server.written) (hopen : server'.isOpen = server.isOpen)
      (hreachable : server'.reachable = server.reachable)
  | accept (connection : ℕ) (hunused : server.phase connection = .unused)
      (hentered : Entered server server' connection none)
      (hwritten : server'.written = server.written)
      (hopen : server'.isOpen = update server.isOpen connection true)
      (hreachable : server'.reachable = update server.reachable connection true)
      (hused : server'.phase connection ≠ .unused)
  | header (writer target : ℕ) (payload : Bytes) (hlabel : label = .write writer)
      (hstarts : target ∈ server.starts writer) (hnone : server.half writer = none)
      (hsize : payload.length ≤ maxFrameBytes)
      (hwritable : server.writable target = true)
      (hentered : Entered server server' writer (some (target, payload)))
      (hwritten : server'.written = update server.written target
        (server.written target ++ frameHeader payload.length))
      (hopen : server'.isOpen = server.isOpen) (hreachable : server'.reachable = server.reachable)
  | payload (writer target : ℕ) (payload : Bytes)
    (hhalf : server.half writer = some (target, payload))
      (hwritable : server.writable target = true)
      (hentered : Entered server server' writer none)
      (hwritten : server'.written = update server.written target (server.written target ++ payload))
      (hopen : server'.isOpen = server.isOpen) (hreachable : server'.reachable = server.reachable)
  | close (connection target : ℕ) (hcloses : target ∈ server.closes label)
      (hentered : Entered server server' connection none)
      (hhalf : server.half connection = none) (hwritten : server'.written = server.written)
      (hopen : server'.isOpen = update server.isOpen target false)
      (hreachable : server'.reachable = server.reachable)
  | drop (connection : ℕ) (hphase : server'.phase = server.phase)
      (hwritten : server'.written = server.written) (hopen : server'.isOpen = server.isOpen)
      (hreachable : server'.reachable = update server.reachable connection false)

theorem entered_enter (connection : ℕ) {phase : Phase} {after : Option (ℕ × Bytes)}
    (hphase : server'.phase = update server.phase connection phase) (hused : phase ≠ .unused)
    (hafter : phase.half connection = after) : Entered server server' connection after := by
  subst hafter
  refine ⟨funext fun other => ?_, fun other hunused => ?_⟩
  · by_cases hother : other = connection
    · subst hother
      simp [half, hphase]
    · simp [half, hphase, hother]
  · by_cases hother : other = connection
    · subst hother
      simp [hphase, hused] at hunused
    · simpa [hphase, hother] using hunused

/-- A goroutine that has not half written a frame moves on. -/
theorem effect_of_enter {connection : ℕ} {phase : Phase}
    (hphase : server'.phase = update server.phase connection phase)
    (hbefore : server.half connection = none) (hused : phase ≠ .unused)
    (hafter : phase.half connection = none)
    (hwritten : server'.written = server.written) (hopen : server'.isOpen = server.isOpen)
    (hreachable : server'.reachable = server.reachable) : Effect server label server' :=
  .move connection (entered_enter connection hphase hused hafter)
    (fun _ _ hhalf => nomatch hbefore.symm.trans hhalf) hwritten hopen hreachable

/-- One of the two writes of a frame. -/
theorem effect_of_writeFrame {connection target : ℕ} {payload : Bytes} {flag : Bool}
    {header done failed : Phase}
    (hhalf : server.half connection = if flag then some (target, payload) else none)
    (hstarts : flag = false → target ∈ server.starts connection)
    (hused : header ≠ .unused ∧ done ≠ .unused ∧ failed ≠ .unused)
    (hheader : header.half connection = some (target, payload))
    (hdone : done.half connection = none) (hfailed : failed.half connection = none) :
    Effect server (.write connection : ServerStep ε)
      (server.writeFrame connection target payload flag header done failed) := by
  unfold writeFrame
  split
  · next hlarge =>
    rw [hlarge.1] at hhalf
    exact effect_of_enter rfl hhalf hused.2.2 hfailed rfl rfl rfl
  · next hsmall =>
    split
    · next hwritable =>
      split
      · next hflag =>
        rw [if_pos hflag] at hhalf
        exact .payload connection target payload hhalf hwritable
          (entered_enter connection rfl hused.2.1 hdone) rfl rfl rfl
      · next hflag =>
        have hflag : flag = false := by simpa using hflag
        rw [if_neg (by simp [hflag])] at hhalf
        exact .header connection target payload rfl (hstarts hflag) hhalf
          (Nat.le_of_not_lt fun hlarge => hsmall ⟨hflag, hlarge⟩) hwritable
          (entered_enter connection rfl hused.1 hheader) rfl rfl rfl
    · next hclosed =>
      -- the write fails and the frame is given up
      refine .move connection (entered_enter connection rfl hused.2.2 hfailed)
        (fun other data hother => ?_) rfl rfl rfl
      rw [hhalf] at hother
      split at hother
      · obtain ⟨rfl, -⟩ := Prod.mk.inj (Option.some.inj hother)
        simpa using hclosed
      · exact nomatch hother

theorem half_answered (wire : Wire ε σ) (request : WireRequest) (outcome : Except String Bytes)
    (connection : ℕ) :
    (answered wire request outcome).half connection = none ∧
      answered wire request outcome ≠ .unused := by
  unfold answered
  split
  · exact ⟨rfl, nofun⟩
  · simp only
    split <;> exact ⟨rfl, nofun⟩

theorem effect_of_claimAttach {connection : ℕ} (input : AttachSessionRequest)
    (projectID : String) (response : Bytes) (hbefore : server.half connection = none) :
    Effect server label (server.claimAttach wire connection input projectID response) := by
  unfold claimAttach
  split
  · exact effect_of_enter rfl hbefore nofun rfl rfl rfl rfl
  simp only
  split
  · exact effect_of_enter rfl hbefore nofun rfl rfl rfl rfl
  split
  · exact effect_of_enter rfl hbefore nofun rfl rfl rfl rfl
  split
  · exact effect_of_enter rfl hbefore nofun rfl rfl rfl rfl
  · exact effect_of_enter rfl hbefore nofun rfl rfl rfl rfl

/-- **What a step does to the streams.** -/
theorem effect_of_step (h : server.step wire label = some server') :
    Effect server label server' := by
  have hhalf : ∀ {connection : ℕ} {phase : Phase}, server.phase connection = phase →
      server.half connection = phase.half connection := fun hphase => by rw [half, hphase]
  cases label with
  | accept connection =>
    simp only [step] at h
    split at h
    · next hphase =>
      obtain rfl := Option.some.inj h
      refine .accept connection hphase (entered_enter connection rfl nofun rfl) rfl rfl rfl ?_
      simp [enter]
    · exact nomatch h
  | hello connection version =>
    simp only [step] at h
    split at h
    · next hphase =>
      split at h <;> obtain rfl := Option.some.inj h <;>
        exact effect_of_enter rfl (hhalf hphase) nofun rfl rfl rfl rfl
    · exact nomatch h
  | request connection request =>
    simp only [step] at h
    split at h
    · next hphase =>
      obtain rfl := Option.some.inj h
      by_cases hvalid : request.valid
      · rw [if_pos hvalid]
        exact effect_of_enter rfl (hhalf hphase) nofun rfl rfl rfl rfl
      · rw [if_neg hvalid]
        exact effect_of_enter rfl (hhalf hphase) nofun rfl rfl rfl rfl
    · exact nomatch h
  | handle connection env =>
    simp only [step] at h
    split at h
    · next request hphase =>
      obtain rfl := Option.some.inj h
      obtain ⟨hafter, hused⟩ := half_answered wire request
        (wire.handler env server.operations request).1 connection
      exact effect_of_enter rfl (hhalf hphase) hused hafter rfl rfl rfl
    · exact nomatch h
  | claim connection =>
    simp only [step] at h
    split at h
    · next input projectID response hphase =>
      obtain rfl := Option.some.inj h
      exact effect_of_claimAttach input projectID response (hhalf hphase)
    · exact nomatch h
  | write connection =>
    simp only [step] at h
    split at h
    · next previous event flag response hphase =>
      obtain rfl := Option.some.inj h
      refine effect_of_writeFrame ?_ (fun hflag => ?_) ⟨nofun, nofun, nofun⟩ rfl rfl rfl
      · rw [hhalf hphase]
        cases flag <;> rfl
      · rw [starts, hphase, hflag]
        rfl
    · next response flag last hphase =>
      obtain rfl := Option.some.inj h
      refine effect_of_writeFrame ?_ (fun hflag => ?_) ⟨nofun, ?_, nofun⟩ rfl ?_ rfl
      · rw [hhalf hphase]
        cases flag <;> rfl
      · rw [starts, hphase, hflag]
        rfl
      · split <;> exact nofun
      · split <;> rfl
    · exact nomatch h
  | evict connection =>
    simp only [step] at h
    split at h
    · next previous response hphase =>
      obtain rfl := Option.some.inj h
      -- closed is the connection of the previous owner, not the one of the goroutine
      refine .close connection previous ?_ (entered_enter connection rfl nofun rfl) (hhalf hphase)
        rfl rfl rfl
      rw [closes, hphase]
      rfl
    · exact nomatch h
  | leave connection =>
    simp only [step] at h
    split at h
    · next hphase =>
      obtain rfl := Option.some.inj h
      exact effect_of_enter rfl (hhalf hphase) nofun rfl rfl rfl rfl
    · next hphase =>
      obtain rfl := Option.some.inj h
      exact effect_of_enter rfl (hhalf hphase) nofun rfl rfl rfl rfl
    · exact nomatch h
  | release connection order =>
    simp only [step] at h
    split at h
    · next hphase =>
      obtain ⟨_, rfl⟩ := of_ite_some h
      exact effect_of_enter rfl (hhalf hphase) nofun rfl rfl rfl rfl
    · exact nomatch h
  | detach connection env =>
    simp only [step] at h
    split at h
    · next owner rest hphase =>
      obtain rfl := Option.some.inj h
      exact effect_of_enter rfl (hhalf hphase) nofun rfl rfl rfl rfl
    · exact nomatch h
  | close connection =>
    simp only [step] at h
    split at h
    · next hphase =>
      obtain rfl := Option.some.inj h
      exact .close connection connection rfl (entered_enter connection rfl nofun rfl) (hhalf hphase)
        rfl rfl rfl
    · exact nomatch h
  | drop connection =>
    obtain rfl := Option.some.inj h
    exact .drop connection rfl rfl rfl rfl

/-! ### The invariant -/

variable {connection target : ℕ}

/-- One goroutine at a time writes to a connection, and to an open one; what its peer can
read is whole frames, followed by the header of the frame that is being written. -/
structure Sound (server : Server σ) (target : ℕ) : Prop where
  single : ∀ writer writer' payload payload', server.half writer = some (target, payload) →
    server.half writer' = some (target, payload') → writer = writer'
  open_of_half : server.HalfWritten target → server.isOpen target
  complete : server.reachable target → ¬ server.HalfWritten target →
    CompleteFrames (server.written target)
  header : server.reachable target → ∀ writer payload,
    server.half writer = some (target, payload) → payload.length ≤ maxFrameBytes ∧
      ∃ stream, CompleteFrames stream ∧
        server.written target = stream ++ frameHeader payload.length

/-- Every connection is sound, and nothing has been written to one that is unused. -/
structure FrameInvariant (server : Server σ) : Prop where
  sound : ∀ target, server.Sound target
  unused : ∀ connection, server.phase connection = .unused →
    server.written connection = [] ∧ server.isOpen connection = false

theorem Sound.of_same (h : server.Sound target)
    (hhalf : ∀ writer payload, server'.half writer = some (target, payload) ↔
      server.half writer = some (target, payload))
    (hwritten : server'.written target = server.written target)
    (hopen : server'.isOpen target = server.isOpen target)
    (hreachable : server'.reachable target = server.reachable target) : server'.Sound target := by
  have hhalves : server'.HalfWritten target ↔ server.HalfWritten target := by
    simp only [HalfWritten, hhalf]
  constructor
  · simp only [hhalf]
    exact h.single
  · rw [hhalves, hopen]
    exact h.open_of_half
  · rw [hhalves, hwritten, hreachable]
    exact h.complete
  · simp only [hhalf, hwritten, hreachable]
    exact h.header

/-- What other goroutines have half written stays. -/
theorem Entered.half_of_ne {after : Option (ℕ × Bytes)}
    (h : Entered server server' connection after)
    {writer : ℕ} (hwriter : writer ≠ connection) : server'.half writer = server.half writer := by
  rw [h.half, update_of_ne hwriter]

theorem Entered.half_self {after : Option (ℕ × Bytes)}
    (h : Entered server server' connection after) :
    server'.half connection = after := by
  rw [h.half, update_self]

/-- A goroutine that moves on leaves the frames to a connection it was not writing to. -/
theorem Entered.half_iff {after : Option (ℕ × Bytes)} (h : Entered server server' connection after)
    (hbefore : ∀ payload, server.half connection ≠ some (target, payload))
    (hafter : ∀ payload, after ≠ some (target, payload)) (writer : ℕ) (payload : Bytes) :
    server'.half writer = some (target, payload) ↔ server.half writer = some (target, payload) := by
  by_cases hwriter : writer = connection
  · subst hwriter
    rw [h.half_self]
    exact iff_of_false (hafter payload) (hbefore payload)
  · rw [h.half_of_ne hwriter]

/-- A goroutine that has half written nothing afterwards leaves what the others have. -/
theorem Entered.of_half {writer : ℕ} {payload : Bytes} (h : Entered server server' connection none)
    (hhalf : server'.half writer = some (target, payload)) :
    writer ≠ connection ∧ server.half writer = some (target, payload) := by
  by_cases hwriter : writer = connection
  · rw [hwriter, h.half_self] at hhalf
    exact nomatch hhalf
  · exact ⟨hwriter, h.half_of_ne hwriter ▸ hhalf⟩

namespace FrameInvariant

theorem initial (operations : σ) : FrameInvariant { operations : Server σ } where
  sound _ := ⟨fun _ _ _ _ hhalf => (nomatch hhalf), fun ⟨_, _, hhalf⟩ => (nomatch hhalf),
    fun hreachable => (nomatch hreachable), fun hreachable => nomatch hreachable⟩
  unused _ _ := ⟨rfl, rfl⟩

/-- **Serial steps keep the invariant.** -/
theorem step (h : FrameInvariant server) (hserial : server.Serial label)
    (hstep : server.step wire label = some server') : FrameInvariant server' := by
  cases effect_of_step hstep with
  | move connection hentered hhalf hwritten hopen hreachable =>
    refine ⟨fun target => ?_, fun other hunused => ?_⟩
    · by_cases hgiven : ∃ payload, server.half connection = some (target, payload)
      · -- the frame is given up because the peer has gone
        obtain ⟨payload, hgiven⟩ := hgiven
        have hopened := (h.sound target).open_of_half ⟨connection, payload, hgiven⟩
        have hgone : server'.reachable target = false := by
          have hunwritable := hhalf target payload hgiven
          rw [writable, hopened, Bool.true_and] at hunwritable
          rw [hreachable, hunwritable]
        refine ⟨fun writer writer' _ _ hwriter hwriter' => ?_, fun _ => hopen ▸ hopened,
          fun hreach => (nomatch hgone.symm.trans hreach),
          fun hreach => nomatch hgone.symm.trans hreach⟩
        exact (h.sound target).single _ _ _ _ (hentered.of_half hwriter).2
          (hentered.of_half hwriter').2
      · exact (h.sound target).of_same (hentered.half_iff (not_exists.mp hgiven) nofun)
          (by rw [hwritten]) (by rw [hopen]) (by rw [hreachable])
    · rw [hwritten, hopen]
      exact h.unused other (hentered.used other hunused)
  | accept connection hunused hentered hwritten hopen hreachable hused =>
    have hclosed := h.unused connection hunused
    refine ⟨fun target => ?_, fun other hother => ?_⟩
    · by_cases htarget : target = connection
      · subst htarget
        -- what is half written is open, and an unused connection is not
        have hnone : ¬ server.HalfWritten target := fun hhalf => by
          have hopened := (h.sound target).open_of_half hhalf
          rw [hclosed.2] at hopened
          exact nomatch hopened
        have hnone' : ∀ writer payload, server'.half writer ≠ some (target, payload) :=
          fun writer payload hhalf => hnone ⟨writer, payload, (hentered.of_half hhalf).2⟩
        refine ⟨fun _ _ _ _ hhalf => absurd hhalf (hnone' _ _),
          fun ⟨_, _, hhalf⟩ => absurd hhalf (hnone' _ _), fun _ _ => ?_,
          fun _ _ _ hhalf => absurd hhalf (hnone' _ _)⟩
        rw [hwritten, hclosed.1]
        exact .nil
      · refine (h.sound target).of_same (hentered.half_iff (fun payload hhalf => ?_) nofun)
          (by rw [hwritten]) (by rw [hopen, update_of_ne htarget])
          (by rw [hreachable, update_of_ne htarget])
        rw [half, hunused] at hhalf
        exact nomatch hhalf
    · have hne : other ≠ connection := fun hsame => hused (hsame ▸ hother)
      rw [hwritten, hopen, update_of_ne hne]
      exact h.unused other (hentered.used other hother)
  | header writer target payload hlabel hstarts hnone hsize hwritable hentered hwritten hopen
      hreachable =>
    -- the guard starts a frame only between frames, so its writer is the only one
    have hidle : ¬ server.HalfWritten target := hserial.1 writer hlabel target hstarts
    have hopened : server.isOpen target = true := (Bool.and_eq_true _ _ ▸ hwritable).1
    refine ⟨fun other => ?_, fun other hother => ?_⟩
    · by_cases hother : other = target
      · subst hother
        have honly : ∀ writer' payload', server'.half writer' = some (other, payload') →
            writer' = writer ∧ payload' = payload := by
          intro writer' payload' hhalf
          by_cases hwriter : writer' = writer
          · rw [hwriter, hentered.half_self] at hhalf
            exact ⟨hwriter, (Prod.mk.inj (Option.some.inj hhalf)).2.symm⟩
          · exact absurd ⟨writer', payload', hentered.half_of_ne hwriter ▸ hhalf⟩ hidle
        refine ⟨fun _ _ _ _ hhalf hhalf' => ?_, fun _ => hopen ▸ hopened, fun _ hnot => ?_,
          fun hreach _ _ hhalf => ?_⟩
        · rw [(honly _ _ hhalf).1, (honly _ _ hhalf').1]
        · exact absurd ⟨writer, payload, hentered.half_self⟩ hnot
        · obtain ⟨-, rfl⟩ := honly _ _ hhalf
          rw [hreachable] at hreach
          exact ⟨hsize, _, (h.sound other).complete hreach hidle, by rw [hwritten, update_self]⟩
      · refine (h.sound other).of_same (hentered.half_iff (fun _ hhalf => ?_) fun _ hhalf => ?_)
          (by rw [hwritten, update_of_ne hother]) (by rw [hopen]) (by rw [hreachable])
        · exact nomatch hnone.symm.trans hhalf
        · exact hother (Prod.mk.inj (Option.some.inj hhalf)).1.symm
    · have hold := h.unused other (hentered.used other hother)
      have hne : other ≠ target := by
        rintro rfl
        exact nomatch hold.2.symm.trans hopened
      rw [hwritten, hopen, update_of_ne hne]
      exact hold
  | payload writer target payload hhalf hwritable hentered hwritten hopen hreachable =>
    have hopened : server.isOpen target = true := (Bool.and_eq_true _ _ ▸ hwritable).1
    refine ⟨fun other => ?_, fun other hother => ?_⟩
    · by_cases hother : other = target
      · subst hother
        have hnone : ∀ writer' payload', server'.half writer' ≠ some (other, payload') := by
          intro writer' payload' hhalf'
          obtain ⟨hne, hold⟩ := hentered.of_half hhalf'
          exact hne ((h.sound other).single _ _ _ _ hold hhalf)
        refine ⟨fun _ _ _ _ hhalf' => absurd hhalf' (hnone _ _), fun _ => hopen ▸ hopened,
          fun hreach _ => ?_, fun _ _ _ hhalf' => absurd hhalf' (hnone _ _)⟩
        rw [hreachable] at hreach
        -- the stream ends in the header of this payload, which completes the frame
        obtain ⟨hsize, stream, hcomplete, hstream⟩ := (h.sound other).header hreach _ _ hhalf
        rw [hwritten, update_self, hstream]
        exact hcomplete.snoc hsize
      · refine (h.sound other).of_same (hentered.half_iff (fun _ hhalf' => ?_) nofun)
          (by rw [hwritten, update_of_ne hother]) (by rw [hopen]) (by rw [hreachable])
        exact hother (Prod.mk.inj (Option.some.inj (hhalf.symm.trans hhalf'))).1.symm
    · have hold := h.unused other (hentered.used other hother)
      have hne : other ≠ target := by
        rintro rfl
        exact nomatch hold.2.symm.trans hopened
      rw [hwritten, hopen, update_of_ne hne]
      exact hold
  | close connection target hcloses hentered hnone hwritten hopen hreachable =>
    -- the guard closes a connection only between frames
    have hidle : ¬ server.HalfWritten target := hserial.2 target hcloses
    have hhalf : ∀ other writer payload, server'.half writer = some (other, payload) ↔
        server.half writer = some (other, payload) :=
      fun other => hentered.half_iff (fun _ hhalf => nomatch hnone.symm.trans hhalf) nofun
    refine ⟨fun other => ?_, fun other hother => ?_⟩
    · by_cases hother : other = target
      · subst hother
        have hstill : ∀ writer payload, server'.half writer ≠ some (other, payload) :=
          fun writer payload hhalf' => hidle ⟨writer, payload, (hhalf _ _ _).mp hhalf'⟩
        refine ⟨fun _ _ _ _ hhalf' => absurd hhalf' (hstill _ _),
          fun ⟨_, _, hhalf'⟩ => absurd hhalf' (hstill _ _), fun hreach _ => ?_,
          fun _ _ _ hhalf' => absurd hhalf' (hstill _ _)⟩
        rw [hreachable] at hreach
        exact hwritten ▸ (h.sound other).complete hreach hidle
      · exact (h.sound other).of_same (hhalf other) (by rw [hwritten])
          (by rw [hopen, update_of_ne hother]) (by rw [hreachable])
    · obtain ⟨hempty, hclosed⟩ := h.unused other (hentered.used other hother)
      refine ⟨hwritten ▸ hempty, ?_⟩
      by_cases hsame : other = target
      · rw [hopen, hsame, update_self]
      · rw [hopen, update_of_ne hsame, hclosed]
  | drop connection hphase hwritten hopen hreachable =>
    have hhalf : server'.half = server.half := funext fun writer => by rw [half, half, hphase]
    refine ⟨fun other => ?_, fun other hother => ?_⟩
    · by_cases hother : other = connection
      · subst hother
        -- of the stream to a peer that has gone nothing is promised
        have hgone : server'.reachable other = false := by rw [hreachable, update_self]
        refine ⟨hhalf ▸ (h.sound other).single, ?_, fun hreach => (nomatch hgone.symm.trans hreach),
          fun hreach => nomatch hgone.symm.trans hreach⟩
        rw [HalfWritten, hhalf, hopen]
        exact (h.sound other).open_of_half
      · exact (h.sound other).of_same (fun _ _ => by rw [hhalf]) (by rw [hwritten]) (by rw [hopen])
          (by rw [hreachable, update_of_ne hother])
    · rw [hwritten, hopen]
      exact h.unused other (hphase ▸ hother)

theorem frameAtomic (h : FrameInvariant server) : server.FrameAtomic :=
  fun target hreach => ⟨(h.sound target).complete hreach, (h.sound target).header hreach⟩

end FrameInvariant

/-- The MessagePack text of a short string. -/
def shortText (text : String) : Bytes :=
  .ofNat (0xa0 + text.length) :: ascii text

/-- The MessagePack text of a map with few fields. -/
def mapText (fields : List (String × Bytes)) : Bytes :=
  .ofNat (0x80 + fields.length) :: fields.flatMap fun field => shortText field.1 ++ field.2

def attachText (clientID : String) : Bytes :=
  mapText [("session_id", shortText "session-1"), ("client_id", shortText clientID),
    ("client_kind", shortText "tty"), ("cols", [0xcd, 0, 80]), ("rows", [0xcd, 0, 24])]

/-- A server that answers every request without data, and what it sends in MessagePack while
its texts are short. -/
def plainWire : Wire Unit Unit where
  handler _ operations _ := (.ok [], operations)
  marshal
    | .response id _ _ => mapText [("id", [0xcf, 0, 0, 0, 0, 0, 0, 0, .ofNat id])]
    | .event event sessionID byKind =>
      mapText [("event", shortText event), ("session_id", shortText sessionID),
        ("by_kind", shortText byKind)]
  decodeAttach data :=
    (["a", "b"].find? (attachText · = data)).map fun clientID =>
      { sessionID := "session-1", clientID, clientKind := "tty", cols := 80, rows := 24 }
  encodeDetach input :=
    mapText [("session_id", shortText input.sessionID), ("client_id", shortText input.clientID)]

def attachRequest (clientID : String) : WireRequest :=
  { id := 1, method := methodSessionAttach, data := attachText clientID }

/-- The second client takes the session while the answer to the first one is half written. -/
def steal : List (ServerStep Unit) :=
  [.accept 0, .hello 0 1, .request 0 (attachRequest "a"), .handle 0 (), .claim 0, .write 0,
    .accept 1, .hello 1 1, .request 1 (attachRequest "b"), .handle 1 (), .claim 1, .write 1]

/-- A connection of the wrong version is being told so. -/
def greeting : Server Unit where
  operations := ()
  phase := Function.update (Function.update (fun _ => .unused) 0 .hello) 0
    (.responding (plainWire.marshal (.response 0 [] (versionMismatch 2))) false true)
  isOpen := Function.update (fun _ => false) 0 true
  reachable := Function.update (fun _ => false) 0 true

theorem not_halfWritten_greeting : ¬ greeting.HalfWritten 0 := by
  rintro ⟨writer, payload, hhalf⟩
  by_cases hwriter : writer = 0
  · subst hwriter
    exact nomatch hhalf
  · simp [half, greeting, hwriter, Phase.half] at hhalf

/-- The header of the answer has been written. -/
def greeted : Server Unit :=
  greeting.writeFrame 0 0 (plainWire.marshal (.response 0 [] (versionMismatch 2))) false
    (.responding (plainWire.marshal (.response 0 []
      (versionMismatch 2))) true true) .leaving .leaving

end Server

end AgentCockpit.Mux
