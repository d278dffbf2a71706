import AgentCockpit.Core.MessagePack
import AgentCockpit.Core.Utf8
import AgentCockpit.Mux.Operations.Clients
import AgentCockpit.Mux.Protocol

/-!
# The frames of pane output

The answer to a poll holds chunks of at most eight mebibytes together, and a frame holds sixteen. A
chunk takes up to 29 bytes more than its data in a frame, however small it is, so that many small
chunks are more than a frame.
-/

namespace AgentCockpit.Mux

open AgentCockpit.Core

/-! ### Messages -/

/-- The name of a field. -/
def fieldName (name : String) : Bytes := Utf8.encode name.toList

/-- A copy of no bytes is a nil slice. -/
def packedData (data : Bytes) : Packed := if data = [] then .nil else .bin data

def packedOutput (output : Output) : Packed :=
  .map [(fieldName "sequence", .uint output.sequence), (fieldName "data", packedData output.data)]

def packedReadPaneOutputResponse (response : ReadPaneOutputResponse) : Packed :=
  .map
    [(fieldName "outputs", .array (response.outputs.map packedOutput)),
      (fieldName "exited", .bool response.exited)]

/-- The answer to a request. Data and an error are left out if there are none. -/
def packedResponse (id : ℕ) (data : Bytes) (error : String) : Packed :=
  .map ([(fieldName "id", .uint id)] ++
    (if data = [] then [] else [(fieldName "data", .bin data)]) ++
    if error = "" then [] else [(fieldName "error", .str (fieldName error))])

variable (packer : Packer)

/-- Pack a message and write it as a frame. -/
def writeFrame (message : Packed) : Except FrameError Bytes :=
  let payload := packer.marshal message
  if maxFrameBytes < payload.length then .error .frameTooLarge else .ok (frame payload)

/-- The answer to a poll. -/
def outputAnswer (stream : Stream) (fromSequence : ℕ) (exited : Bool) : Bytes :=
  packer.marshal (packedReadPaneOutputResponse
    ⟨stream.outputsFromBounded fromSequence maxOutputResponseBytes, exited⟩)

/-- Every chunk has as many bytes as the producer gives it. -/
def Chunked (stream : Stream) : Prop :=
  ∀ output ∈ stream.outputs, output.data ≠ [] ∧ output.data.length ≤ maxOutputChunkBytes

/-- The chunks from a sequence on. -/
def chunksOf (stream : Stream) (fromSequence : ℕ) : List Output :=
  stream.outputs.dropWhile fun output => decide (output.sequence < fromSequence)

/-- The bytes of data of a run of chunks. -/
def dataSize (outputs : List Output) : ℕ := (outputs.map (·.data.length)).sum

/-- The bytes that a chunk takes in a frame. -/
def packedSize (output : Output) : ℕ :=
  15 + packer.uintSize output.sequence + binHeader output.data.length + output.data.length

/-- No run of chunks from the sequence on has data of at most eight mebibytes and yet leaves no room
for the rest of the answer. -/
def EnvelopesFit (stream : Stream) (fromSequence id : ℕ) : Prop :=
  ∀ n, dataSize ((chunksOf stream fromSequence).take n) ≤ maxOutputResponseBytes →
    (((chunksOf stream fromSequence).take n).map (packedSize packer)).sum + 36 +
      packer.uintSize id ≤ maxFrameBytes

/-! ### What a poll returns -/

variable {packer} {stream : Stream} {fromSequence id : ℕ} {exited : Bool} {outputs : List Output}
variable {output : Output} {maximumBytes count bytes : ℕ}

@[simp] theorem dataSize_nil : dataSize [] = 0 := rfl

@[simp] theorem dataSize_cons :
    dataSize (output :: outputs) = output.data.length + dataSize outputs := by
  simp [dataSize]

/-- Once a chunk has been taken, a poll stays within the bound. -/
theorem dataSize_takeBounded_le (hbound : 0 < maximumBytes) (hcount : 0 < count)
    (hbytes : bytes ≤ maximumBytes) :
    bytes + dataSize (Stream.takeBounded maximumBytes outputs count bytes) ≤ maximumBytes := by
  induction outputs generalizing count bytes with
  | nil => simpa [Stream.takeBounded] using hbytes
  | cons output outputs ih =>
    rw [Stream.takeBounded]
    split
    next => simpa using hbytes
    next hroom =>
      have hfits : bytes + output.data.length ≤ maximumBytes := by
        by_contra hlarge
        exact hroom ⟨hbound, hcount, Nat.lt_of_not_le hlarge⟩
      have hrest := @ih (count + 1) _ (Nat.succ_pos count) hfits
      rw [dataSize_cons]
      omega

/-- A poll returns every run of chunks that is within the bound. -/
theorem take_prefix_takeBounded (n : ℕ) (h : bytes + dataSize (outputs.take n) ≤ maximumBytes) :
    outputs.take n <+: Stream.takeBounded maximumBytes outputs count bytes := by
  induction outputs generalizing n count bytes with
  | nil => simp [Stream.takeBounded]
  | cons output outputs ih =>
    cases n with
    | zero => exact List.nil_prefix
    | succ n =>
      rw [List.take_succ_cons, dataSize_cons] at h
      rw [Stream.takeBounded, if_neg (by omega), List.take_succ_cons, List.cons_prefix_cons]
      exact ⟨rfl, ih n (by omega)⟩

/-- **A poll returns the longest run of chunks within the bound.** -/
theorem outputsFromBounded_eq_take (h : Chunked stream) :
    ∃ n, stream.outputsFromBounded fromSequence maxOutputResponseBytes =
        (chunksOf stream fromSequence).take n ∧
      dataSize ((chunksOf stream fromSequence).take n) ≤ maxOutputResponseBytes ∧
      ∀ m, dataSize ((chunksOf stream fromSequence).take m) ≤ maxOutputResponseBytes →
        (chunksOf stream fromSequence).take m <+: (chunksOf stream fromSequence).take n := by
  have hbound : 0 < maxOutputResponseBytes := by decide
  have hprefix := Stream.isPrefix_takeBounded maxOutputResponseBytes
    (chunksOf stream fromSequence) 0 0
  have htake := List.prefix_iff_eq_take.mp hprefix
  refine ⟨_, htake, ?_⟩
  rw [← htake]
  refine ⟨?_, fun m hm => take_prefix_takeBounded m (by rwa [Nat.zero_add])⟩
  cases hchunks : chunksOf stream fromSequence with
  | nil => simp [Stream.takeBounded]
  | cons output outputs =>
    -- the first chunk is returned in any case, and is small enough
    have hmem : output ∈ stream.outputs := by
      apply (List.dropWhile_suffix _).subset
      exact hchunks ▸ List.mem_cons_self
    have hfirst : output.data.length ≤ maxOutputResponseBytes :=
      (h output hmem).2.trans (by decide)
    have hrest := @dataSize_takeBounded_le outputs _ 1 output.data.length hbound
      Nat.zero_lt_one hfirst
    rw [Stream.takeBounded, if_neg (by omega), dataSize_cons]
    simp only [Nat.zero_add]
    exact hrest

/-! ### What an answer takes -/

theorem length_packedOutput (h : output.data ≠ []) :
    (packer.marshal (packedOutput output)).length = packedSize packer output := by
  have hsequence : (fieldName "sequence").length = 8 := by decide
  have hdata : (fieldName "data").length = 4 := by decide
  rw [packedOutput, packer.length_map]
  simp only [List.map_cons, List.map_nil, List.sum_cons, List.sum_nil, packer.length_str,
    packer.length_uint, hsequence, hdata, packedData, if_neg h, packer.length_bin, packedSize]
  simp only [countHeader, strHeader, List.length_cons, List.length_nil]
  norm_num
  omega

theorem packedSize_le : packedSize packer output ≤ output.data.length + 29 := by
  have huint := packer.uintSize_le output.sequence
  have hheader := binHeader_le output.data.length
  rw [packedSize]
  omega

theorem sum_packedSize_le :
    (outputs.map (packedSize packer)).sum ≤ dataSize outputs + 29 * outputs.length := by
  induction outputs with
  | nil => simp
  | cons output outputs ih =>
    have hfirst := @packedSize_le packer output
    rw [List.map_cons, List.sum_cons, dataSize_cons, List.length_cons]
    omega

theorem length_le_sum_packedSize : outputs.length ≤ (outputs.map (packedSize packer)).sum := by
  induction outputs with
  | nil => simp
  | cons output outputs ih =>
    rw [List.map_cons, List.sum_cons, List.length_cons, packedSize]
    omega

/-- A longer run takes more. -/
theorem sum_packedSize_mono {outputs' : List Output} (h : outputs <+: outputs') :
    (outputs.map (packedSize packer)).sum ≤ (outputs'.map (packedSize packer)).sum := by
  obtain ⟨rest, rfl⟩ := h
  rw [List.map_append, List.sum_append]
  exact Nat.le_add_right _ _

/-- The size of the answer to a poll, apart from the frame's own fields. -/
theorem length_packedReadPaneOutputResponse (h : ∀ output ∈ outputs, output.data ≠ []) :
    (packer.marshal (packedReadPaneOutputResponse ⟨outputs, exited⟩)).length =
      17 + countHeader outputs.length + (outputs.map (packedSize packer)).sum := by
  have houtputs : (fieldName "outputs").length = 7 := by decide
  have hexited : (fieldName "exited").length = 6 := by decide
  have hsum : ((outputs.map packedOutput).map fun item => (packer.marshal item).length).sum =
      (outputs.map (packedSize packer)).sum := by
    rw [List.map_map]
    congr 1
    exact List.map_congr_left fun output hmem => length_packedOutput (h output hmem)
  rw [packedReadPaneOutputResponse, packer.length_map]
  simp only [List.map_cons, List.map_nil, List.sum_cons, List.sum_nil, packer.length_str,
    packer.length_array, packer.length_bool, houtputs, hexited, hsum, List.length_map]
  simp only [countHeader, strHeader, List.length_cons, List.length_nil]
  norm_num
  omega

theorem length_packedResponse {data : Bytes} (h : data ≠ []) :
    (packer.marshal (packedResponse id data "")).length =
      9 + packer.uintSize id + binHeader data.length + data.length := by
  have hid : (fieldName "id").length = 2 := by decide
  have hdata : (fieldName "data").length = 4 := by decide
  rw [packedResponse, if_neg h, if_pos rfl, packer.length_map]
  simp only [List.append_nil, List.singleton_append, List.map_cons, List.map_nil, List.sum_cons,
    List.sum_nil, packer.length_str, packer.length_uint, packer.length_bin, hid, hdata]
  simp only [countHeader, strHeader, List.length_cons, List.length_nil]
  norm_num
  omega

/-! ### Whether the answer is written -/

theorem nonempty_chunksOf (h : Chunked stream) :
    ∀ output ∈ chunksOf stream fromSequence, output.data ≠ [] :=
  fun output hmem => (h output ((List.dropWhile_suffix _).subset hmem)).1

/-- Of at most 65535 chunks the fields do not matter; behind more chunks the headers are as long as
they get. -/
theorem room_iff {count data packed id : ℕ} (hdata : data ≤ maxOutputResponseBytes)
    (hpacked : packed ≤ data + 29 * count) (hcount : count ≤ packed) (hid : id ≤ 9) :
    9 + id + binHeader (17 + countHeader count + packed) + (17 + countHeader count + packed) ≤
        maxFrameBytes ↔ packed + 36 + id ≤ maxFrameBytes := by
  have hframe : maxFrameBytes = 16777216 := by decide
  have hresponse : maxOutputResponseBytes = 8388608 := by decide
  rw [hresponse] at hdata
  rw [hframe]
  have hbin := binHeader_le (17 + countHeader count + packed)
  have hheader := countHeader_le count
  by_cases hmany : count < 65536
  · exact iff_of_true (by omega) (by omega)
  · have hcountHeader : countHeader count = 5 := by
      rw [countHeader, if_neg (by omega), if_neg hmany]
    have hbinHeader : binHeader (17 + countHeader count + packed) = 5 := by
      rw [binHeader, if_neg (by omega), if_neg (by omega)]
    rw [hbinHeader, hcountHeader]
    omega

/-- The answer to a poll that returns a run of chunks is written if the run fits. -/
theorem written_iff_of_run {n : ℕ} (h : Chunked stream)
    (houtputs : stream.outputsFromBounded fromSequence maxOutputResponseBytes =
      (chunksOf stream fromSequence).take n)
    (hdata : dataSize ((chunksOf stream fromSequence).take n) ≤ maxOutputResponseBytes) :
    (∃ bytes, writeFrame packer
        (packedResponse id (outputAnswer packer stream fromSequence exited) "") = .ok bytes) ↔
      (((chunksOf stream fromSequence).take n).map (packedSize packer)).sum + 36 +
        packer.uintSize id ≤ maxFrameBytes := by
  have hnonempty : ∀ output ∈ (chunksOf stream fromSequence).take n, output.data ≠ [] :=
    fun output hmem => nonempty_chunksOf h output (List.mem_of_mem_take hmem)
  have hanswer : (outputAnswer packer stream fromSequence exited).length =
      17 + countHeader ((chunksOf stream fromSequence).take n).length +
        (((chunksOf stream fromSequence).take n).map (packedSize packer)).sum := by
    rw [outputAnswer, houtputs, length_packedReadPaneOutputResponse hnonempty]
  have hne : outputAnswer packer stream fromSequence exited ≠ [] := by
    apply List.ne_nil_of_length_pos
    omega
  have hwritten : (∃ bytes, writeFrame packer
      (packedResponse id (outputAnswer packer stream fromSequence exited) "") = .ok bytes) ↔
      (packer.marshal (packedResponse id
        (outputAnswer packer stream fromSequence exited) "")).length ≤ maxFrameBytes := by
    rw [writeFrame]
    split
    next hlarge => exact iff_of_false (fun ⟨_, h⟩ => nomatch h) (Nat.not_le.mpr hlarge)
    next hsmall => exact iff_of_true ⟨_, rfl⟩ (Nat.le_of_not_lt hsmall)
  rw [hwritten, length_packedResponse hne, hanswer]
  exact room_iff hdata sum_packedSize_le length_le_sum_packedSize (packer.uintSize_le id)

/-- **Output responses in frames**: the answer to a poll is written exactly when no run of chunks
within the bound leaves too little room for the envelopes. -/
theorem output_written_iff (packer : Packer) {stream : Stream} (h : Chunked stream)
    (fromSequence id : ℕ) (exited : Bool) :
    (∃ bytes, writeFrame packer
        (packedResponse id (outputAnswer packer stream fromSequence exited) "") = .ok bytes) ↔
      EnvelopesFit packer stream fromSequence id := by
  obtain ⟨n, houtputs, hdata, hlongest⟩ := @outputsFromBounded_eq_take stream fromSequence h
  rw [written_iff_of_run h houtputs hdata]
  constructor
  · intro hfits m hm
    have hmono := @sum_packedSize_mono packer _ _ (hlongest m hm)
    omega
  · exact fun hfit => hfit n hdata

/-- Up to 289260 chunks always fit. -/
theorem EnvelopesFit.of_length_le
    (h : (chunksOf stream fromSequence).length ≤ 289260) :
    EnvelopesFit packer stream fromSequence id := by
  intro n hdata
  have hsum := @sum_packedSize_le packer ((chunksOf stream fromSequence).take n)
  have hlength : ((chunksOf stream fromSequence).take n).length ≤ 289260 :=
    (List.take_sublist _ _).length_le.trans h
  have huint := packer.uintSize_le id
  have hframe : maxFrameBytes = 16777216 := by decide
  have hresponse : maxOutputResponseBytes = 8388608 := by decide
  omega

/-- A stream of one chunk. -/
def oneChunk : Stream := ⟨1, [⟨1, [0x41]⟩]⟩

theorem output_written_oneChunk : ∃ bytes, writeFrame widePacker
    (packedResponse 1 (outputAnswer widePacker oneChunk 1 false) "") = .ok bytes := by
  have hchunked : Chunked oneChunk := by
    intro output hmem
    obtain rfl := List.mem_singleton.mp hmem
    exact ⟨List.cons_ne_nil _ _, by decide⟩
  apply (output_written_iff widePacker hchunked 1 1 false).mpr
  exact EnvelopesFit.of_length_le (by decide)

/-- Output that trickles in byte by byte. -/
def trickle (count : ℕ) : Stream where
  sequence := count
  outputs := (List.range count).map fun i => ⟨i + 1, [0x2E]⟩

theorem chunked_trickle (count : ℕ) : Chunked (trickle count) := by
  intro output hmem
  obtain ⟨i, -, rfl⟩ := List.mem_map.mp hmem
  exact ⟨List.cons_ne_nil _ _, maxOutputChunkBytes_pos⟩

theorem chunksOf_trickle (count : ℕ) : chunksOf (trickle count) 1 = (trickle count).outputs := by
  rw [chunksOf, List.dropWhile_eq_self_iff]
  intro hpos
  simp [trickle]

/-- A function that is the same for every chunk of a trickle is added up by multiplying. -/
theorem sum_trickle {size : Output → ℕ} {each : ℕ} (h : ∀ i, size ⟨i + 1, [0x2E]⟩ = each)
    (count : ℕ) : ((trickle count).outputs.map size).sum = count * each := by
  have hsizes : (trickle count).outputs.map size = List.replicate count each := by
    rw [trickle, List.map_map, List.eq_replicate_iff]
    refine ⟨by simp, fun value hvalue => ?_⟩
    obtain ⟨i, -, rfl⟩ := List.mem_map.mp hvalue
    exact h i
  rw [hsizes, List.sum_replicate_nat]

/-- A mebibyte that trickles in byte by byte is one poll's answer, and more than a frame. -/
theorem not_output_written : ¬ ∀ (stream : Stream) (fromSequence id : ℕ) (exited : Bool),
    Chunked stream → ∃ bytes, writeFrame widePacker
      (packedResponse id (outputAnswer widePacker stream fromSequence exited) "") = .ok bytes := by
  intro hall
  have hchunked := chunked_trickle (1 <<< 20)
  obtain ⟨n, houtputs, hdata, hlongest⟩ := @outputsFromBounded_eq_take _ 1 hchunked
  have hfits := (written_iff_of_run hchunked houtputs hdata).mp (hall _ 1 1 false hchunked)
  have hwhole : (chunksOf (trickle (1 <<< 20)) 1).take (1 <<< 20) =
      (trickle (1 <<< 20)).outputs := by
    rw [chunksOf_trickle]
    exact List.take_of_length_le (by simp [trickle])
  have hbytes : dataSize (trickle (1 <<< 20)).outputs = (1 <<< 20) * 1 :=
    sum_trickle (fun _ => rfl) _
  have hpacked : ((trickle (1 <<< 20)).outputs.map (packedSize widePacker)).sum =
      (1 <<< 20) * 27 := sum_trickle (fun _ => rfl) _
  have hrun := hlongest (1 <<< 20)
  rw [hwhole, hbytes] at hrun
  have hmore := @sum_packedSize_mono widePacker _ _ (hrun (by decide))
  rw [hpacked] at hmore
  have htoo : ¬ (1 <<< 20) * 27 + 36 + widePacker.uintSize 1 ≤ maxFrameBytes := by decide
  exact htoo (by omega)

end AgentCockpit.Mux
