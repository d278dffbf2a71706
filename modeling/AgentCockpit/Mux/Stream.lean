import Mathlib.Data.List.Infix
import Mathlib.Data.List.TakeWhile

/-!
# The live output stream

The in-memory PTY stream of one pane: `append` cuts producer data into chunks of
at most one mebibyte and numbers them, `outputsFromBounded` answers a poll, and a
snapshot names the sequence at which a client resumes after its seed. Sequences
are naturals: the counter of the source is a `uint64` that no pane can exhaust.
-/

namespace AgentCockpit.Mux

/-- Raw terminal bytes. -/
abbrev Bytes := List UInt8

/-- Every producer chunk stays below the wire frame cap. -/
def maxOutputChunkBytes : ℕ := 1 <<< 20

theorem maxOutputChunkBytes_pos : 0 < maxOutputChunkBytes := by decide

/-- A byte-exact chunk from the PTY live path. -/
structure Output where
  sequence : ℕ
  data : Bytes
  deriving DecidableEq, Repr

/-- What an attach delivers before any output at or after `resumeSequence`. -/
structure Seed where
  data : Bytes
  graphics : Bytes
  resumeSequence : ℕ
  deriving DecidableEq, Repr

/-- The numbered output of one PTY. -/
structure Stream where
  sequence : ℕ := 0
  outputs : List Output := []
  deriving DecidableEq, Repr

namespace Stream

/-- The loop of `append`: number the next chunk, keep it, continue with the rest. -/
def appendChunks (stream : Stream) (data : Bytes) : Stream × List Output :=
  if data.length = 0 then (stream, [])
  else
    let size := min data.length maxOutputChunkBytes
    let output : Output := ⟨stream.sequence + 1, data.take size⟩
    let rest := appendChunks ⟨stream.sequence + 1, stream.outputs ++ [output]⟩ (data.drop size)
    (rest.1, output :: rest.2)
termination_by data.length
decreasing_by
  have := maxOutputChunkBytes_pos
  simp only [List.length_drop]
  omega

/-- Append producer data and return the chunks it became. -/
def append (stream : Stream) (data : Bytes) : Stream × List Output :=
  if data.length = 0 then (stream, []) else appendChunks stream data

/-- The loop of a bounded poll: copy chunks while they fit. The first chunk is
always copied, so a chunk larger than the bound cannot block a client. -/
def takeBounded (maximumBytes : ℕ) : List Output → ℕ → ℕ → List Output
  | [], _, _ => []
  | output :: rest, count, bytes =>
    if 0 < maximumBytes ∧ 0 < count ∧ maximumBytes < bytes + output.data.length then []
    else output :: takeBounded maximumBytes rest (count + 1) (bytes + output.data.length)

/-- The ordered chunks at or after `sequence`, up to `maximumBytes`; zero is the
unbounded read of in-process callers. -/
def outputsFromBounded (stream : Stream) (sequence maximumBytes : ℕ) : List Output :=
  takeBounded maximumBytes
    (stream.outputs.dropWhile fun output => decide (output.sequence < sequence)) 0 0

/-- Build a seed under the output barrier: the client resumes at the next chunk. -/
def snapshotWithGraphics (stream : Stream) (build : Except String (Bytes × Bytes)) :
    Except String Seed :=
  build.map fun (data, graphics) => ⟨data, graphics, stream.sequence + 1⟩

/-- The bytes of a list of chunks. -/
def bytesOf (outputs : List Output) : Bytes :=
  outputs.flatMap (·.data)

/-- The bytes of the chunks with a sequence below `sequence`. -/
def bytesBelow (stream : Stream) (sequence : ℕ) : Bytes :=
  bytesOf (stream.outputs.filter fun output => decide (output.sequence < sequence))

/-- The chunks at or after `sequence`. -/
def chunksFrom (stream : Stream) (sequence : ℕ) : List Output :=
  stream.outputs.filter fun output => decide (sequence ≤ output.sequence)

/-- Chunks are numbered consecutively from one, up to the stream's counter. -/
def Numbered (stream : Stream) : Prop :=
  stream.outputs.map (·.sequence) = (List.range stream.sequence).map (· + 1)

variable {stream : Stream} {data : Bytes}

@[simp] theorem bytesOf_nil : bytesOf [] = [] := rfl

@[simp] theorem bytesOf_append (l l' : List Output) :
    bytesOf (l ++ l') = bytesOf l ++ bytesOf l' := by
  simp [bytesOf]

theorem numbered_empty : Numbered {} := rfl

theorem Numbered.length_outputs (h : stream.Numbered) :
    stream.outputs.length = stream.sequence := by
  simpa using congrArg List.length h

theorem Numbered.sequence_getElem (h : stream.Numbered) {i : ℕ} (hi : i < stream.outputs.length) :
    stream.outputs[i].sequence = i + 1 := by
  have hlen := h.length_outputs
  have := congrArg (fun l => l[i]?) h
  simpa [hi, show i < stream.sequence by omega] using this

/-- What the chunking loop returns is what it adds to the stream. -/
theorem appendChunks_outputs (stream : Stream) (data : Bytes) :
    (stream.appendChunks data).1.outputs = stream.outputs ++ (stream.appendChunks data).2 := by
  fun_induction appendChunks stream data with
  | case1 stream data h => simp
  | case2 stream data h size output rest ih => simp [rest, ih]

/-- The chunks hold exactly the appended bytes, in order. -/
theorem bytesOf_appendChunks (stream : Stream) (data : Bytes) :
    bytesOf (stream.appendChunks data).2 = data := by
  fun_induction appendChunks stream data with
  | case1 stream data h => simp [List.length_eq_zero_iff.mp h]
  | case2 stream data h size output rest ih =>
    simp only [bytesOf, List.flatMap_cons, output]
    rw [show rest.2.flatMap (·.data) = data.drop size from ih, List.take_append_drop]

/-- The chunking loop keeps the numbering. -/
theorem numbered_appendChunks (h : stream.Numbered) (data : Bytes) :
    (stream.appendChunks data).1.Numbered := by
  fun_induction appendChunks stream data with
  | case1 stream data hempty => exact h
  | case2 stream data hempty size output rest ih =>
    apply ih
    simp only [Numbered, List.map_append, List.map_cons, List.map_nil, List.range_succ, output]
    rw [show stream.outputs.map (·.sequence) = _ from h]

theorem append_outputs (stream : Stream) (data : Bytes) :
    (stream.append data).1.outputs = stream.outputs ++ (stream.append data).2 := by
  unfold append
  split
  · simp
  · exact appendChunks_outputs stream data

/-- Appending keeps the numbering. -/
theorem numbered_append (h : stream.Numbered) (data : Bytes) :
    (stream.append data).1.Numbered := by
  unfold append
  split
  · exact h
  · exact numbered_appendChunks h data

theorem bytesOf_append_snd (stream : Stream) (data : Bytes) :
    bytesOf (stream.append data).2 = data := by
  unfold append
  split
  · next h => simp [List.length_eq_zero_iff.mp h]
  · exact bytesOf_appendChunks stream data

/-- Appending adds exactly the given bytes at the end of the stream. -/
theorem bytes_append (stream : Stream) (data : Bytes) :
    bytesOf (stream.append data).1.outputs = bytesOf stream.outputs ++ data := by
  rw [append_outputs, bytesOf_append, bytesOf_append_snd]

/-- Appending never moves a chunk that is already in the stream. -/
theorem outputs_prefix_append (stream : Stream) (data : Bytes) :
    stream.outputs <+: (stream.append data).1.outputs :=
  ⟨_, (append_outputs stream data).symm⟩

/-- In a numbered stream the chunks before `sequence` are a prefix. -/
theorem Numbered.filter_lt (h : stream.Numbered) (sequence : ℕ) :
    stream.outputs.filter (fun output => decide (output.sequence < sequence)) =
      stream.outputs.take (sequence - 1) := by
  have hget : ∀ i, ∀ hi : i < stream.outputs.length, stream.outputs[i].sequence = i + 1 :=
    fun i hi => h.sequence_getElem hi
  generalize stream.outputs = outputs at hget
  induction outputs using List.reverseRecOn with
  | nil => simp
  | append_singleton l output ih =>
    have hl : ∀ i, ∀ hi : i < l.length, l[i].sequence = i + 1 := by
      intro i hi
      have := hget i (by simp; omega)
      rwa [List.getElem_append_left hi] at this
    have hlast : output.sequence = l.length + 1 := by
      have := hget l.length (by simp)
      rwa [List.getElem_append_right (Nat.le_refl _), List.getElem_singleton] at this
    rw [List.filter_append, ih hl]
    by_cases hlt : output.sequence < sequence
    · rw [List.take_of_length_le (by omega), List.take_of_length_le (by simp; omega)]
      simp [hlt]
    · rw [List.take_append_of_le_length (by omega)]
      simp [hlt]

/-- In a numbered stream a poll starts at the chunk numbered `sequence`. -/
theorem Numbered.dropWhile_lt (h : stream.Numbered) (sequence : ℕ) :
    stream.outputs.dropWhile (fun output => decide (output.sequence < sequence)) =
      stream.outputs.drop (sequence - 1) := by
  have hget : ∀ i, ∀ hi : i < stream.outputs.length, stream.outputs[i].sequence = 0 + i + 1 :=
    fun i hi => by rw [h.sequence_getElem hi, Nat.zero_add]
  suffices hgen : ∀ (outputs : List Output) (base : ℕ),
      (∀ i, ∀ hi : i < outputs.length, outputs[i].sequence = base + i + 1) →
        outputs.dropWhile (fun output => decide (output.sequence < sequence)) =
          outputs.drop (sequence - 1 - base) by
    simpa using hgen stream.outputs 0 hget
  intro outputs
  induction outputs with
  | nil => simp
  | cons output rest ih =>
    intro base hseq
    have hhead : output.sequence = base + 1 := hseq 0 (Nat.zero_lt_succ _)
    by_cases hlt : output.sequence < sequence
    · have hrest := ih (base + 1) fun i hi => by
        have := hseq (i + 1) (by simp; omega)
        simp only [List.getElem_cons_succ] at this
        omega
      rw [List.dropWhile_cons_of_pos (by simpa using hlt), hrest,
        show sequence - 1 - base = (sequence - 1 - (base + 1)) + 1 by omega, List.drop_succ_cons]
    · rw [List.dropWhile_cons_of_neg (by simpa using hlt),
        show sequence - 1 - base = 0 by omega, List.drop_zero]

/-- In a numbered stream the chunks from `sequence` on are a suffix. -/
theorem Numbered.chunksFrom_eq (h : stream.Numbered) (sequence : ℕ) :
    stream.chunksFrom sequence = stream.outputs.drop (sequence - 1) := by
  have hdrop := h.dropWhile_lt sequence
  rw [chunksFrom, ← hdrop]
  have hbefore : ∀ output ∈ stream.outputs.takeWhile (fun o => decide (o.sequence < sequence)),
      output.sequence < sequence := fun output hmem => by
    simpa using List.mem_takeWhile_imp hmem
  have hafter : ∀ output ∈ stream.outputs.dropWhile (fun o => decide (o.sequence < sequence)),
      sequence ≤ output.sequence := fun output hmem => by
    rw [hdrop] at hmem
    obtain ⟨i, hi, rfl⟩ := List.getElem_of_mem hmem
    rw [List.length_drop] at hi
    rw [List.getElem_drop, h.sequence_getElem]
    omega
  conv_lhs => rw [← List.takeWhile_append_dropWhile (p := fun o => decide (o.sequence < sequence))
    (l := stream.outputs)]
  rw [List.filter_append, List.filter_eq_nil_iff.mpr, List.nil_append, List.filter_eq_self.mpr]
  · exact fun output hmem => decide_eq_true (hafter output hmem)
  · exact fun output hmem => by simpa using hbefore output hmem

/-- The poll loop copies a prefix. -/
theorem isPrefix_takeBounded (maximumBytes : ℕ) (outputs : List Output) (count bytes : ℕ) :
    takeBounded maximumBytes outputs count bytes <+: outputs := by
  induction outputs generalizing count bytes with
  | nil => exact List.prefix_rfl
  | cons output rest ih =>
    rw [takeBounded]
    split
    · exact List.nil_prefix
    · exact List.cons_prefix_cons.mpr ⟨rfl, ih _ _⟩

/-- The first outstanding chunk is always copied, whatever the bound. -/
theorem takeBounded_ne_nil (maximumBytes : ℕ) {outputs : List Output} (h : outputs ≠ []) :
    takeBounded maximumBytes outputs 0 0 ≠ [] := by
  cases outputs with
  | nil => exact absurd rfl h
  | cons output rest => simp [takeBounded]

/-- A poll returns a consecutive run of chunks that starts at the requested
sequence, and an empty one only when no such chunk exists. -/
theorem outputsFromBounded_eq (h : stream.Numbered) (sequence maximumBytes : ℕ) :
    stream.outputsFromBounded sequence maximumBytes <+: stream.chunksFrom sequence ∧
      (stream.chunksFrom sequence ≠ [] →
        stream.outputsFromBounded sequence maximumBytes ≠ []) := by
  rw [outputsFromBounded, h.dropWhile_lt, ← h.chunksFrom_eq]
  exact ⟨isPrefix_takeBounded _ _ _ _, takeBounded_ne_nil maximumBytes⟩

/-- Appending does not change the bytes below a sequence the stream has reached. -/
theorem bytesBelow_append (h : stream.Numbered) {sequence : ℕ}
    (hle : sequence ≤ stream.sequence + 1) (data : Bytes) :
    (stream.append data).1.bytesBelow sequence = stream.bytesBelow sequence := by
  have hlen := h.length_outputs
  rw [bytesBelow, bytesBelow, (numbered_append h data).filter_lt, h.filter_lt, append_outputs,
    List.take_append_of_le_length (by omega)]

/-- Below the next sequence lie the bytes of the whole stream. -/
theorem Numbered.bytesBelow_next (h : stream.Numbered) :
    stream.bytesBelow (stream.sequence + 1) = bytesOf stream.outputs := by
  rw [bytesBelow, h.filter_lt, Nat.add_sub_cancel, List.take_of_length_le h.length_outputs.le]

end Stream

end AgentCockpit.Mux
