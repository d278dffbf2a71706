import AgentCockpit.Mux.Stream
import Mathlib

/-!
# The wire protocol

Every message on the mux socket is one frame: the size of a MessagePack payload as a
big-endian 32-bit number, and the payload. A frame is written by two calls, one for the
header and one for the payload.
-/

namespace AgentCockpit.Mux

/-- A client operation. Its data is the MessagePack text of the operation's input. -/
structure WireRequest where
  id : ℕ
  method : String
  projectID : String := ""
  data : Bytes := []
  deriving DecidableEq, Repr

/-- What the daemon sends: the answer to a request, or an unsolicited notification. -/
inductive Message
  | response (id : ℕ) (data : Bytes) (error : String)
  | event (event sessionID byKind : String)
  deriving DecidableEq, Repr

def protocolVersion : ℕ := 1

def maxFrameBytes : ℕ := 16 <<< 20

def versionMismatch (client : ℕ) : String :=
  s!"mux protocol version mismatch: client={client} daemon={protocolVersion}"

def WireRequest.valid (request : WireRequest) : Bool :=
  request.id ≠ 0 && request.method ≠ ""

inductive FrameError
  | frameTooLarge | truncatedFrame
  deriving DecidableEq, Repr

/-- The size of a payload as a big-endian 32-bit number. -/
def frameHeader (size : ℕ) : Bytes :=
  [.ofNat (size / 2 ^ 24), .ofNat (size / 2 ^ 16), .ofNat (size / 2 ^ 8), .ofNat size]

def frame (payload : Bytes) : Bytes :=
  frameHeader payload.length ++ payload

/-- Read one frame from the front of a stream that has ended. -/
def readFrame : Bytes → Except FrameError (Bytes × Bytes)
  | b₃ :: b₂ :: b₁ :: b₀ :: rest =>
    let size := ((b₃.toNat * 2 ^ 8 + b₂.toNat) * 2 ^ 8 + b₁.toNat) * 2 ^ 8 + b₀.toNat
    if maxFrameBytes < size then .error .frameTooLarge
    else if rest.length < size then .error .truncatedFrame
    else .ok (rest.take size, rest.drop size)
  | _ => .error .truncatedFrame

/-- Read frames until the stream ends; the first argument bounds their number. -/
def readFrames : ℕ → Bytes → Except FrameError (List Bytes)
  | _, [] => .ok []
  | 0, _ :: _ => .error .truncatedFrame
  | fuel + 1, stream =>
    match readFrame stream with
    | .ok (payload, rest) => (readFrames fuel rest).map (payload :: ·)
    | .error err => .error err

/-- A byte stream is a sequence of whole frames. -/
def CompleteFrames (stream : Bytes) : Prop :=
  ∃ payloads : List Bytes, (∀ payload ∈ payloads, payload.length ≤ maxFrameBytes) ∧
    stream = payloads.flatMap frame

variable {payload rest stream : Bytes}

theorem length_frameHeader (size : ℕ) : (frameHeader size).length = 4 :=
  rfl

/-- **A frame is read back** as it was written, and what follows it is left. -/
theorem readFrame_frame (h : payload.length ≤ maxFrameBytes) (rest : Bytes) :
    readFrame (frame payload ++ rest) = .ok (payload, rest) := by
  have hsize : ((payload.length / 2 ^ 24 % 256 * 2 ^ 8 + payload.length / 2 ^ 16 % 256) * 2 ^ 8 +
      payload.length / 2 ^ 8 % 256) * 2 ^ 8 + payload.length % 256 = payload.length := by
    simp only [maxFrameBytes] at h
    omega
  have hlength : ¬ (payload ++ rest).length < payload.length := by simp
  simp only [frame, frameHeader, List.cons_append, List.nil_append, readFrame,
    UInt8.toNat_ofNat', hsize]
  rw [if_neg (by omega), if_neg hlength, List.take_left, List.drop_left]

theorem readFrames_succ (h : stream ≠ []) (fuel : ℕ) :
    readFrames (fuel + 1) stream = match readFrame stream with
      | .ok (payload, rest) => (readFrames fuel rest).map (payload :: ·)
      | .error err => .error err := by
  cases stream with
  | nil => exact absurd rfl h
  | cons _ _ => rfl

namespace CompleteFrames

theorem nil : CompleteFrames [] :=
  ⟨[], nofun, rfl⟩

theorem snoc (h : CompleteFrames stream) (hpayload : payload.length ≤ maxFrameBytes) :
    CompleteFrames (stream ++ frameHeader payload.length ++ payload) := by
  obtain ⟨payloads, hpayloads, rfl⟩ := h
  refine ⟨payloads ++ [payload], fun other hother => ?_, ?_⟩
  · rcases List.mem_append.mp hother with hold | hnew
    · exact hpayloads other hold
    · exact List.mem_singleton.mp hnew ▸ hpayload
  · rw [List.flatMap_append, List.flatMap_singleton, frame, List.append_assoc]

/-- **A sequence of whole frames is read to its end.** -/
theorem readFrames_flatMap {payloads : List Bytes}
    (hpayloads : ∀ payload ∈ payloads, payload.length ≤ maxFrameBytes) :
    Mux.readFrames (payloads.flatMap frame).length (payloads.flatMap frame) = .ok payloads := by
  suffices hread : ∀ fuel, (payloads.flatMap frame).length ≤ fuel →
      Mux.readFrames fuel (payloads.flatMap frame) = .ok payloads from hread _ le_rfl
  induction payloads with
  | nil =>
    intro fuel _
    cases fuel <;> rfl
  | cons payload payloads ih =>
    intro fuel hfuel
    obtain ⟨hpayload, hpayloads⟩ := List.forall_mem_cons.mp hpayloads
    rw [List.flatMap_cons, List.length_append, frame, List.length_append,
      length_frameHeader] at hfuel
    obtain ⟨fuel, rfl⟩ : ∃ n, fuel = n + 1 := ⟨fuel - 1, by omega⟩
    have hnonempty : frame payload ++ payloads.flatMap frame ≠ [] := by
      simp [frame, frameHeader]
    have hrest := ih hpayloads fuel (by omega)
    rw [List.flatMap_cons, readFrames_succ hnonempty, readFrame_frame hpayload]
    exact congrArg (Except.map (payload :: ·)) hrest

end CompleteFrames

end AgentCockpit.Mux
