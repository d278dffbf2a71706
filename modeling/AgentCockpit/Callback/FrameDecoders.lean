import AgentCockpit.Callback.FrameStream
import AgentCockpit.Core.JsonText

/-!
# The two decoders of callback frames

The app and the helper read the same frames. The app's decoder keeps the chunks as they came and
copies a frame together when it is complete; the helper's keeps one flat buffer, with zero for the
length of a frame whose header has not arrived. Both give the payloads of a push together, and none
if the push fails; then they stay failed.

A payload of the app is the value that its JSON library makes of the decoded text, and a payload of
the helper is the body itself, which its JSON library accepts. The libraries accept the texts of the
JSON grammar, and the helper's only up to a depth of nesting.
-/

namespace AgentCockpit.Callback

open AgentCockpit.Core

def callbackMaxFrameBytes : ℕ := 64 * 1024

/-! ### JSON libraries -/

/-- The JSON library of the app, with what is documented of it. -/
structure JavaScriptJson (V : Type) where
  parse : List Char → Except String V
  stringify : V → Option (List Char)
  isOk_parse : ∀ text, (parse text).isOk = true ↔ JsonText.Valid text
  parse_stringify : ∀ value text, stringify value = some text → parse text = .ok value

/-- The nesting that the helper's JSON library accepts. -/
def maxNestingDepth : ℕ := 10000

/-- The validity check of the helper's JSON library. -/
def jsonValid (body : List UInt8) : Prop :=
  JsonText.ValidBytes body ∧ JsonText.nestingBytes body ≤ maxNestingDepth

instance (body : List UInt8) : Decidable (jsonValid body) := inferInstanceAs (Decidable (_ ∧ _))

/-- The encoder of the helper's JSON library: a text and a line break. -/
structure GoJson (P : Type) where
  encode : P → Except String (List UInt8)
  encode_eq : ∀ payload bytes, encode payload = .ok bytes →
    ∃ body, bytes = body ++ [0x0a] ∧ JsonText.ValidBytes body

variable {V P : Type}

/-! ### Encoding -/

def encodeFrame (json : JavaScriptJson V) (payload : V) (maxFrameBytes : ℕ) :
    Except FrameError (List UInt8) :=
  match json.stringify payload with
  | none => .error ⟨.malformed, "payload is not JSON-serializable"⟩
  | some text =>
    let body := Utf8.encode text
    if maxFrameBytes < body.length then .error (.tooLarge body.length)
    else .ok (encode body)

def marshalCallbackBody (json : GoJson P) (payload : P) : Except FrameError (List UInt8) :=
  match json.encode payload with
  | .error message => .error ⟨.malformed, "payload is not JSON-serializable: " ++ message⟩
  | .ok bytes => .ok (if bytes.getLast? = some 0x0a then bytes.dropLast else bytes)

def encodeCallbackFrame (json : GoJson P) (payload : P) : Except FrameError (List UInt8) :=
  match marshalCallbackBody json payload with
  | .error error => .error error
  | .ok body =>
    if callbackMaxFrameBytes < body.length then .error (.tooLarge body.length)
    else .ok (encode body)

/-! ### The decoder of the app -/

/-- One turn of the loop of a push, up to what is done with a body. -/
inductive Turn (δ : Type)
  | wait (decoder : δ)
  | tooLarge (length : ℕ) (decoder : δ)
  | frame (bytes : List UInt8) (decoder : δ)

structure FrameDecoder where
  maxFrameBytes : ℕ
  /-- The chunks that wait, and the number of their bytes. -/
  chunks : List (List UInt8) := []
  buffered : ℕ := 0
  /-- The length of the frame with its header, once it is known. -/
  frameBytes : Option ℕ := none
  failure : Option FrameError := none
  deriving DecidableEq, Repr

/-- The bytes of a chunk that belong to the header. -/
def readHeader : List UInt8 → ℕ → ℕ → ℕ × ℕ
  | [], length, read => (length, read)
  | byte :: bytes, length, read =>
    if read < 4 then readHeader bytes (length * 256 + byte.toNat) (read + 1) else (length, read)

/-- The length that the header declares. It may be cut anywhere. -/
def declaredLength : List (List UInt8) → ℕ → ℕ → ℕ
  | [], length, _ => length
  | chunk :: chunks, length, read =>
    let result := readHeader chunk length read
    if result.2 = 4 then result.1 else declaredLength chunks result.1 result.2

/-- Copy bytes off the chunks until no more are needed. -/
def copyChunks : ℕ → List (List UInt8) → List UInt8 × List (List UInt8)
  | _, [] => ([], [])
  | need, chunk :: chunks =>
    if need = 0 then ([], chunk :: chunks)
    else if chunk.length ≤ need then
      let result := copyChunks (need - chunk.length) chunks
      (chunk ++ result.1, result.2)
    else (chunk.take need, chunk.drop need :: chunks)

namespace FrameDecoder

/-- Take bytes off the buffer. Nothing is copied if the first chunk has them all. -/
def take (decoder : FrameDecoder) (n : ℕ) : List UInt8 × FrameDecoder :=
  let buffered := decoder.buffered - n
  match decoder.chunks with
  | [] => ([], { decoder with buffered })
  | first :: chunks =>
    if n ≤ first.length then
      let rest := first.drop n
      (first.take n,
        { decoder with buffered, chunks := if rest = [] then chunks else rest :: chunks })
    else
      let result := copyChunks n decoder.chunks
      (result.1, { decoder with buffered, chunks := result.2 })

/-- Take the frame once it is complete. -/
def takeFrame (decoder : FrameDecoder) (frameBytes : ℕ) : Turn FrameDecoder :=
  if decoder.buffered < frameBytes then .wait decoder
  else
    let result := decoder.take frameBytes
    .frame result.1 { result.2 with frameBytes := none }

def turn (decoder : FrameDecoder) : Turn FrameDecoder :=
  match decoder.frameBytes with
  | some frameBytes => decoder.takeFrame frameBytes
  | none =>
    if decoder.buffered < 4 then .wait decoder
    else
      let length := declaredLength decoder.chunks 0 0
      if decoder.maxFrameBytes < length then .tooLarge length decoder
      else { decoder with frameBytes := some (4 + length) }.takeFrame (4 + length)

def fail (decoder : FrameDecoder) (error : FrameError) : FrameDecoder :=
  { decoder with failure := some error }

/-- The loop of a push. -/
def pushLoop (json : JavaScriptJson V) :
    ℕ → FrameDecoder → List V → Except FrameError (List V) × FrameDecoder
  | 0, decoder, out => (.ok out, decoder)
  | fuel + 1, decoder, out =>
    match decoder.turn with
    | .wait decoder => (.ok out, decoder)
    | .tooLarge length decoder => (.error (.tooLarge length), decoder.fail (.tooLarge length))
    | .frame bytes decoder =>
      match json.parse (Utf8.decode (bytes.drop 4)) with
      | .ok value => pushLoop json fuel decoder (out ++ [value])
      | .error message => (.error ⟨.malformed, message⟩, decoder.fail ⟨.malformed, message⟩)

/-- Append a chunk and give the payloads that are complete. Each turn takes a header, so there are
fewer turns than bytes. -/
def push (json : JavaScriptJson V) (decoder : FrameDecoder) (chunk : List UInt8) :
    Except FrameError (List V) × FrameDecoder :=
  match decoder.failure with
  | some error => (.error error, decoder)
  | none =>
    if chunk = [] then (.ok [], decoder)
    else
      let decoder := { decoder with
        chunks := decoder.chunks ++ [chunk]
        buffered := decoder.buffered + chunk.length }
      pushLoop json decoder.buffered decoder []

def pendingBytes (decoder : FrameDecoder) : ℕ := decoder.buffered

end FrameDecoder

/-! ### The decoder of the helper -/

structure CallbackFrameDecoder where
  maxBytes : ℕ
  buf : List UInt8 := []
  /-- The length of the frame with its header, or zero until it is known. -/
  frameBytes : ℕ := 0
  failure : Option FrameError := none
  deriving DecidableEq, Repr

namespace CallbackFrameDecoder

/-- The body of the frame, once it is complete. It stays in the buffer. -/
def frameBody (decoder : CallbackFrameDecoder) : Turn CallbackFrameDecoder :=
  if decoder.buf.length < decoder.frameBytes then .wait decoder
  else .frame ((decoder.buf.take decoder.frameBytes).drop 4) decoder

def turn (decoder : CallbackFrameDecoder) : Turn CallbackFrameDecoder :=
  if decoder.frameBytes = 0 then
    if decoder.buf.length < 4 then .wait decoder
    else
      let length := bigEndian (decoder.buf.take 4)
      if decoder.maxBytes < length then .tooLarge length decoder
      else { decoder with frameBytes := 4 + length }.frameBody
  else decoder.frameBody

def fail (decoder : CallbackFrameDecoder) (error : FrameError) : CallbackFrameDecoder :=
  { decoder with failure := some error }

def notJson : FrameError := ⟨.malformed, "frame body is not valid JSON"⟩

/-- The loop of a push. -/
def pushLoop : ℕ → CallbackFrameDecoder → List (List UInt8) →
    Except FrameError (List (List UInt8)) × CallbackFrameDecoder
  | 0, decoder, out => (.ok out, decoder)
  | fuel + 1, decoder, out =>
    match decoder.turn with
    | .wait decoder => (.ok out, decoder)
    | .tooLarge length decoder => (.error (.tooLarge length), decoder.fail (.tooLarge length))
    | .frame body decoder =>
      if jsonValid body then
        pushLoop fuel { decoder with buf := decoder.buf.drop decoder.frameBytes, frameBytes := 0 }
          (out ++ [body])
      else (.error notJson, decoder.fail notJson)

/-- Append a chunk and give the payloads that are complete. -/
def push (decoder : CallbackFrameDecoder) (chunk : List UInt8) :
    Except FrameError (List (List UInt8)) × CallbackFrameDecoder :=
  match decoder.failure with
  | some error => (.error error, decoder)
  | none =>
    if chunk.length = 0 then (.ok [], decoder)
    else
      let decoder := { decoder with buf := decoder.buf ++ chunk }
      pushLoop decoder.buf.length decoder []

def pendingBytes (decoder : CallbackFrameDecoder) : ℕ := decoder.buf.length

end CallbackFrameDecoder

/-! ### The decoder of the app does what a stream does -/

section App

variable {max : ℕ} {chunks : List (List UInt8)} {buffer body rest : List UInt8}

theorem readHeader_eq (chunk : List UInt8) {length read : ℕ} (hread : read ≤ 4) :
    readHeader chunk length read =
      ((chunk.take (4 - read)).foldl (fun number byte => number * 256 + byte.toNat) length,
        min 4 (read + chunk.length)) := by
  induction chunk generalizing length read with
  | nil =>
    rw [readHeader, List.take_nil, List.foldl_nil, List.length_nil, Nat.add_zero,
      Nat.min_eq_right hread]
  | cons byte chunk ih =>
    rw [readHeader]
    split_ifs with hmore
    · obtain ⟨more, hmore⟩ : ∃ more, 4 - read = more + 1 := ⟨3 - read, by omega⟩
      rw [ih (by omega), hmore, List.take_succ_cons, List.foldl_cons, List.length_cons]
      congr 2
      · congr 1
        omega
      · omega
    · obtain rfl : read = 4 := by omega
      simp

/-- The length is read from the first four bytes, wherever they are cut. -/
theorem declaredLength_eq (chunks : List (List UInt8)) {length read : ℕ} (hread : read < 4) :
    declaredLength chunks length read =
      (chunks.flatten.take (4 - read)).foldl (fun number byte => number * 256 + byte.toNat)
        length := by
  induction chunks generalizing length read with
  | nil => simp [declaredLength]
  | cons chunk chunks ih =>
    rw [declaredLength, readHeader_eq chunk hread.le, List.flatten_cons, List.take_append,
      List.foldl_append]
    dsimp only
    split_ifs with hfull
    · have hnone : 4 - read - chunk.length = 0 := by omega
      rw [hnone, List.take_zero, List.foldl_nil]
    · rw [ih (by omega)]
      congr 2
      omega

theorem copyChunks_eq (chunks : List (List UInt8)) {need : ℕ} (h : need ≤ chunks.flatten.length) :
    (copyChunks need chunks).1 = chunks.flatten.take need ∧
      (copyChunks need chunks).2.flatten = chunks.flatten.drop need := by
  induction chunks generalizing need with
  | nil => simp [copyChunks]
  | cons chunk chunks ih =>
    rw [List.flatten_cons, List.length_append] at h
    rw [copyChunks]
    split_ifs with hnone hwhole
    · simp [hnone]
    · have hneed : need - chunk.length ≤ chunks.flatten.length := by omega
      obtain ⟨htake, hdrop⟩ := ih hneed
      rw [List.flatten_cons, List.take_append, List.drop_append, List.take_of_length_le hwhole,
        List.drop_of_length_le hwhole]
      exact ⟨congrArg (chunk ++ ·) htake, hdrop⟩
    · have hcut : need ≤ chunk.length := by omega
      rw [List.flatten_cons, List.flatten_cons, List.take_append_of_le_length hcut,
        List.drop_append_of_le_length hcut]
      exact ⟨rfl, rfl⟩

namespace FrameDecoder

/-- The decoder holds the bytes of the buffer, and knows the length of the frame only if its header
is there. -/
structure Holds (decoder : FrameDecoder) (max : ℕ) (buffer : List UInt8) : Prop where
  cap : decoder.maxFrameBytes = max
  bytes : decoder.chunks.flatten = buffer
  count : decoder.buffered = buffer.length
  header : ∀ frameBytes, decoder.frameBytes = some frameBytes →
    4 ≤ buffer.length ∧ declared buffer ≤ max ∧ frameBytes = 4 + declared buffer
  intact : decoder.failure = none

variable {decoder : FrameDecoder}

theorem Holds.take (h : decoder.Holds max buffer) {n : ℕ} (hn : n ≤ buffer.length) :
    (decoder.take n).1 = buffer.take n ∧
      Holds { (decoder.take n).2 with frameBytes := none } max (buffer.drop n) := by
  obtain ⟨hcap, hbytes, hcount, -, hintact⟩ := h
  have hcount' : decoder.buffered - n = (buffer.drop n).length := by
    rw [List.length_drop, hcount]
  rw [FrameDecoder.take]
  cases hchunks : decoder.chunks with
  | nil =>
    rw [hchunks, List.flatten_nil] at hbytes
    subst hbytes
    exact ⟨List.take_nil.symm, hcap, by simp, hcount', nofun, hintact⟩
  | cons first chunks =>
    rw [hchunks, List.flatten_cons] at hbytes
    subst hbytes
    dsimp only
    by_cases hfirst : n ≤ first.length
    · -- The whole frame is in the first chunk.
      rw [if_pos hfirst, List.take_append_of_le_length hfirst]
      refine ⟨rfl, hcap, ?_, hcount', nofun, hintact⟩
      rw [List.drop_append_of_le_length hfirst]
      dsimp only
      split_ifs with hrest
      · rw [hrest, List.nil_append]
      · rfl
    · rw [if_neg hfirst]
      obtain ⟨htake, hdrop⟩ := copyChunks_eq (first :: chunks) hn
      exact ⟨htake, hcap, hdrop, hcount', nofun, hintact⟩

/-- A turn deals with what stands at the start of the buffer. -/
def Deals (max : ℕ) (buffer : List UInt8) (turn : Turn FrameDecoder) : Prop :=
  match head max buffer with
  | .incomplete => ∃ next : FrameDecoder, turn = .wait next ∧ next.Holds max buffer
  | .oversize length => ∃ next : FrameDecoder, turn = .tooLarge length next ∧ next.Holds max buffer
  | .frame body rest => ∃ frame next, turn = .frame frame next ∧ frame.drop 4 = body ∧
      next.Holds max rest

theorem Holds.takeFrame (h : decoder.Holds max buffer) (hlong : 4 ≤ buffer.length)
    (hcap : declared buffer ≤ max) :
    Deals max buffer (decoder.takeFrame (4 + declared buffer)) := by
  rw [Deals, head, if_neg (Nat.not_lt.mpr hlong), if_neg (Nat.not_lt.mpr hcap),
    FrameDecoder.takeFrame, h.count]
  split_ifs with hshort
  · exact ⟨decoder, rfl, h⟩
  · obtain ⟨htake, hrest⟩ := h.take (Nat.not_lt.mp hshort)
    refine ⟨_, _, rfl, ?_, hrest⟩
    rw [htake, List.drop_take]
    congr 1
    omega

theorem Holds.turn (h : decoder.Holds max buffer) : Deals max buffer decoder.turn := by
  rw [FrameDecoder.turn]
  cases hheader : decoder.frameBytes with
  | some frameBytes =>
    obtain ⟨hlong, hcap, rfl⟩ := h.header frameBytes hheader
    exact h.takeFrame hlong hcap
  | none =>
    dsimp only
    split_ifs with hshort hover
    all_goals rw [h.count] at hshort
    · rw [Deals, head, if_pos hshort]
      exact ⟨decoder, rfl, h⟩
    all_goals
      have hlength : declaredLength decoder.chunks 0 0 = declared buffer := by
        rw [declaredLength_eq _ (by decide), h.bytes]
        rfl
      rw [h.cap, hlength] at hover
      rw [hlength]
    · rw [Deals, head, if_neg hshort, if_pos hover]
      exact ⟨decoder, rfl, h⟩
    · have hlong : 4 ≤ buffer.length := Nat.not_lt.mp hshort
      have hcap : declared buffer ≤ max := Nat.not_lt.mp hover
      have hknown : Holds { decoder with frameBytes := some (4 + declared buffer) } max buffer :=
        ⟨h.cap, h.bytes, h.count,
          fun frameBytes hframe => ⟨hlong, hcap, (Option.some.inj hframe).symm⟩, h.intact⟩
      exact hknown.takeFrame hlong hcap

/-- A payload of the app is the value of the text that a body decodes to. -/
def accept (json : JavaScriptJson V) (body : List UInt8) : Except String V :=
  json.parse (Utf8.decode body)

/-- The decoder and the stream have failed alike, and have as many bytes waiting. -/
structure Follows (decoder : FrameDecoder) (max : ℕ) (stream : Stream) : Prop where
  failure : decoder.failure = stream.failure
  pending : decoder.pendingBytes = stream.rest.length
  holds : stream.failure = none → decoder.Holds max stream.rest

theorem Holds.follows (h : decoder.Holds max buffer) : decoder.Follows max ⟨none, buffer⟩ :=
  ⟨h.intact, h.count, fun _ => h⟩

theorem Holds.follows_fail (h : decoder.Holds max buffer) (error : FrameError) :
    (decoder.fail error).Follows max ⟨some error, buffer⟩ :=
  ⟨rfl, h.count, nofun⟩

/-- The loop of the decoder takes the turns of the stream's loop. -/
theorem Holds.pushLoop (json : JavaScriptJson V) (fuel : ℕ) (h : decoder.Holds max buffer)
    (out : List V) :
    (decoder.pushLoop json fuel out).1 =
        ((taker (accept json)).read max fuel ⟨out, none⟩ buffer).1.outcome ∧
      (decoder.pushLoop json fuel out).2.Follows max
        ⟨((taker (accept json)).read max fuel ⟨out, none⟩ buffer).1.failure,
          ((taker (accept json)).read max fuel ⟨out, none⟩ buffer).2⟩ := by
  induction fuel generalizing decoder buffer out with
  | zero => exact ⟨rfl, h.follows⟩
  | succ fuel ih =>
    have hdeals := h.turn
    rw [FrameDecoder.pushLoop, Receiver.read, if_neg (by simp)]
    rw [Deals] at hdeals
    cases hhead : head max buffer with
    | incomplete =>
      rw [hhead] at hdeals
      obtain ⟨next, hturn, hnext⟩ := hdeals
      rw [hturn]
      exact ⟨rfl, hnext.follows⟩
    | oversize length =>
      rw [hhead] at hdeals
      obtain ⟨next, hturn, hnext⟩ := hdeals
      rw [hturn]
      exact ⟨rfl, hnext.follows_fail _⟩
    | frame body rest =>
      rw [hhead] at hdeals
      obtain ⟨frame, next, hturn, rfl, hnext⟩ := hdeals
      rw [hturn]
      dsimp only
      cases haccept : json.parse (Utf8.decode (frame.drop 4)) with
      | ok value =>
        rw [frame_taker_ok haccept]
        exact ih hnext (out ++ [value])
      | error message =>
        rw [frame_taker_error haccept, Receiver.read_of_halted rfl]
        exact ⟨rfl, hnext.follows_fail _⟩

/-- A push does what a push to the stream does. -/
theorem Follows.push (json : JavaScriptJson V) {stream : Stream} (h : decoder.Follows max stream)
    (hwaits : stream.Waits max) (chunk : List UInt8) :
    (decoder.push json chunk).1 = (stream.push (accept json) max chunk).1 ∧
      (decoder.push json chunk).2.Follows max (stream.push (accept json) max chunk).2 := by
  obtain ⟨failure, rest⟩ := stream
  rw [FrameDecoder.push, h.failure, Stream.push]
  cases failure with
  | some error => exact ⟨rfl, h⟩
  | none =>
    dsimp only
    obtain ⟨hcap, hbytes, hcount, hheader, hintact⟩ := h.holds rfl
    split_ifs with hempty
    · -- Nothing has arrived: the stream still waits.
      rw [hempty, Receiver.feed, List.append_nil, Receiver.drain_of_incomplete (hwaits rfl)]
      exact ⟨rfl, h⟩
    · dsimp only at hbytes hcount hheader
      have hgrown : Holds { decoder with
          chunks := decoder.chunks ++ [chunk]
          buffered := decoder.buffered + chunk.length } max (rest ++ chunk) := by
        refine ⟨hcap, ?_, ?_, ?_, hintact⟩
        · rw [List.flatten_append, hbytes, List.flatten_singleton]
        · rw [List.length_append, hcount]
        · intro frameBytes hframe
          obtain ⟨hlong, hdeclared, hframeBytes⟩ := hheader frameBytes hframe
          rw [declared_append hlong, List.length_append]
          exact ⟨by omega, hdeclared, hframeBytes⟩
      have hloop := hgrown.pushLoop json (decoder.buffered + chunk.length) []
      rw [hcount, ← List.length_append, hintact] at hloop
      rw [hcount, ← List.length_append]
      exact hloop

end FrameDecoder

end App

/-! ### The decoder of the helper does what a stream does -/

section Helper

variable {max : ℕ} {buffer body rest : List UInt8}

namespace CallbackFrameDecoder

/-- The decoder holds the bytes of the buffer, and knows the length of the frame only if its header
is there. -/
structure Holds (decoder : CallbackFrameDecoder) (max : ℕ) (buffer : List UInt8) : Prop where
  cap : decoder.maxBytes = max
  bytes : decoder.buf = buffer
  header : decoder.frameBytes ≠ 0 →
    4 ≤ buffer.length ∧ declared buffer ≤ max ∧ decoder.frameBytes = 4 + declared buffer
  intact : decoder.failure = none

variable {decoder : CallbackFrameDecoder}

/-- A turn deals with what stands at the start of the buffer, and a frame stays in it. -/
def Deals (max : ℕ) (buffer : List UInt8) (turn : Turn CallbackFrameDecoder) : Prop :=
  ∃ next : CallbackFrameDecoder, next.Holds max buffer ∧
    match head max buffer with
    | .incomplete => turn = .wait next
    | .oversize length => turn = .tooLarge length next
    | .frame body rest => turn = .frame body next ∧ buffer.drop next.frameBytes = rest

theorem Holds.frameBody (h : decoder.Holds max buffer) (hlong : 4 ≤ buffer.length)
    (hcap : declared buffer ≤ max) (hheader : decoder.frameBytes = 4 + declared buffer) :
    Deals max buffer decoder.frameBody := by
  refine ⟨decoder, h, ?_⟩
  rw [head, if_neg (Nat.not_lt.mpr hlong), if_neg (Nat.not_lt.mpr hcap),
    CallbackFrameDecoder.frameBody, h.bytes, hheader]
  split_ifs with hshort
  · rfl
  · refine ⟨?_, rfl⟩
    rw [List.drop_take]
    congr 2
    omega

theorem Holds.turn (h : decoder.Holds max buffer) : Deals max buffer decoder.turn := by
  rw [CallbackFrameDecoder.turn]
  dsimp only
  have hlength : bigEndian (decoder.buf.take 4) = declared buffer := by rw [h.bytes, declared]
  rw [hlength]
  split_ifs with hheader hshort hover
  · rw [h.bytes] at hshort
    refine ⟨decoder, h, ?_⟩
    rw [head, if_pos hshort]
  · rw [h.bytes] at hshort
    rw [h.cap] at hover
    refine ⟨decoder, h, ?_⟩
    rw [head, if_neg hshort, if_pos hover]
  · have hlong : 4 ≤ buffer.length := by rwa [h.bytes, Nat.not_lt] at hshort
    have hcap : declared buffer ≤ max := by rwa [h.cap, Nat.not_lt] at hover
    -- from here on as if the header had been read before
    have hknown : Holds { decoder with frameBytes := 4 + declared buffer } max buffer :=
      ⟨h.cap, h.bytes, fun _ => ⟨hlong, hcap, rfl⟩, h.intact⟩
    exact hknown.frameBody hlong hcap rfl
  · obtain ⟨hlong, hcap, hknown⟩ := h.header hheader
    exact h.frameBody hlong hcap hknown

/-- A payload of the helper is the body. -/
def accept (body : List UInt8) : Except String (List UInt8) :=
  if jsonValid body then .ok body else .error notJson.message

/-- The decoder and the stream have failed alike. The decoder has as many bytes waiting, and more if
it has failed on a body, because it keeps that frame. -/
structure Follows (decoder : CallbackFrameDecoder) (max : ℕ) (stream : Stream) : Prop where
  failure : decoder.failure = stream.failure
  pending : (∀ error, stream.failure = some error → error.code = .tooLarge) →
    decoder.pendingBytes = stream.rest.length
  broken : ∀ error, stream.failure = some error → error.code = .malformed →
    stream.rest.length < decoder.pendingBytes
  holds : stream.failure = none → decoder.Holds max stream.rest

theorem Holds.follows (h : decoder.Holds max buffer) : decoder.Follows max ⟨none, buffer⟩ :=
  ⟨h.intact, fun _ => congrArg List.length h.bytes, nofun, fun _ => h⟩

/-- The loop of the decoder takes the turns of the stream's loop. -/
theorem Holds.pushLoop (fuel : ℕ) (h : decoder.Holds max buffer) (out : List (List UInt8)) :
    (decoder.pushLoop fuel out).1 =
        ((taker accept).read max fuel ⟨out, none⟩ buffer).1.outcome ∧
      (decoder.pushLoop fuel out).2.Follows max
        ⟨((taker accept).read max fuel ⟨out, none⟩ buffer).1.failure,
          ((taker accept).read max fuel ⟨out, none⟩ buffer).2⟩ := by
  induction fuel generalizing decoder buffer out with
  | zero => exact ⟨rfl, h.follows⟩
  | succ fuel ih =>
    obtain ⟨next, hnext, hturn⟩ := h.turn
    rw [CallbackFrameDecoder.pushLoop, Receiver.read, if_neg (by simp)]
    cases hhead : head max buffer with
    | incomplete =>
      rw [hhead] at hturn
      rw [hturn]
      exact ⟨rfl, hnext.follows⟩
    | oversize length =>
      rw [hhead] at hturn
      rw [hturn]
      refine ⟨rfl, rfl, fun _ => congrArg List.length hnext.bytes, ?_,
        fun hnone => absurd hnone (Option.some_ne_none _)⟩
      rintro error herror hmalformed
      obtain rfl := Option.some.inj herror
      cases hmalformed
    | frame body rest =>
      rw [hhead] at hturn
      obtain ⟨hturn, rfl⟩ := hturn
      rw [hturn]
      dsimp only
      split_ifs with hvalid
      · rw [frame_taker_ok (if_pos hvalid), hnext.bytes]
        refine ih ?_ (out ++ [body])
        exact ⟨hnext.cap, rfl, fun h => absurd rfl h, hnext.intact⟩
      · rw [frame_taker_error (if_neg hvalid), Receiver.read_of_halted rfl]
        refine ⟨rfl, rfl, fun hlarge => ?_, fun _ _ _ => ?_,
          fun hnone => absurd hnone (Option.some_ne_none _)⟩
        · cases hlarge _ rfl
        · have hlonger := length_of_head_frame hhead
          dsimp only [pendingBytes, fail]
          rw [hnext.bytes]
          omega

/-- A push does what a push to the stream does. -/
theorem Follows.push {stream : Stream} (h : decoder.Follows max stream)
    (hwaits : stream.Waits max) (chunk : List UInt8) :
    (decoder.push chunk).1 = (stream.push accept max chunk).1 ∧
      (decoder.push chunk).2.Follows max (stream.push accept max chunk).2 := by
  obtain ⟨failure, rest⟩ := stream
  rw [CallbackFrameDecoder.push, h.failure, Stream.push]
  cases failure with
  | some error => exact ⟨rfl, h⟩
  | none =>
    dsimp only
    obtain ⟨hcap, hbytes, hheader, hintact⟩ := h.holds rfl
    split_ifs with hempty
    · -- Nothing has arrived: the stream still waits.
      rw [List.eq_nil_of_length_eq_zero hempty, Receiver.feed, List.append_nil,
        Receiver.drain_of_incomplete (hwaits rfl)]
      exact ⟨rfl, h⟩
    · dsimp only at hbytes hheader
      have hgrown : Holds { decoder with buf := decoder.buf ++ chunk } max (rest ++ chunk) := by
        refine ⟨hcap, by rw [hbytes], ?_, hintact⟩
        intro hframe
        obtain ⟨hlong, hdeclared, hframeBytes⟩ := hheader hframe
        rw [declared_append hlong, List.length_append]
        exact ⟨by omega, hdeclared, hframeBytes⟩
      have hloop := hgrown.pushLoop (rest ++ chunk).length []
      rw [hbytes, hintact] at hloop
      rw [hbytes]
      exact hloop

end CallbackFrameDecoder

end Helper

/-! ### Both decoders on one stream -/

section Mirror

variable {max : ℕ} {stream : Stream} {app : FrameDecoder} {helper : CallbackFrameDecoder}

theorem waits_push (accept : List UInt8 → Except String V) (hwaits : stream.Waits max)
    (chunk : List UInt8) : (stream.push accept max chunk).2.Waits max := by
  rw [Stream.push]
  cases hfailure : stream.failure with
  | some error => exact hwaits
  | none =>
    intro hintact
    have hends := (taker accept).drain_ends max {} (stream.rest ++ chunk)
    rw [halted_taker] at hends
    exact hends.resolve_left fun hhalted => absurd hintact (Option.isSome_iff_ne_none.mp hhalted)

theorem FrameDecoder.Follows.outcomes_eq (json : JavaScriptJson V) (h : app.Follows max stream)
    (hwaits : stream.Waits max) (chunks : List (List UInt8)) :
    outcomes (FrameDecoder.push json) app chunks =
      outcomes (Stream.push (FrameDecoder.accept json) max) stream chunks := by
  induction chunks generalizing app stream with
  | nil => rfl
  | cons chunk chunks ih =>
    obtain ⟨houtcome, hnext⟩ := h.push json hwaits chunk
    rw [outcomes_cons, outcomes_cons, houtcome, ih hnext (waits_push _ hwaits chunk)]

theorem CallbackFrameDecoder.Follows.outcomes_eq (h : helper.Follows max stream)
    (hwaits : stream.Waits max) (chunks : List (List UInt8)) :
    outcomes CallbackFrameDecoder.push helper chunks =
      outcomes (Stream.push CallbackFrameDecoder.accept max) stream chunks := by
  induction chunks generalizing helper stream with
  | nil => rfl
  | cons chunk chunks ih =>
    obtain ⟨houtcome, hnext⟩ := h.push hwaits chunk
    rw [outcomes_cons, outcomes_cons, houtcome, ih hnext (waits_push _ hwaits chunk)]

/-- What the helper accepts, the app accepts. -/
theorem accepts_of_jsonValid (json : JavaScriptJson V) {body : List UInt8} (h : jsonValid body) :
    ∃ value, FrameDecoder.accept json body = .ok value := by
  have hok := (json.isOk_parse _).mpr ((JsonText.validBytes_iff body).mp h.1)
  rw [FrameDecoder.accept]
  cases hparse : json.parse (Utf8.decode body) with
  | ok value => exact ⟨value, rfl⟩
  | error message =>
    rw [hparse] at hok
    exact nomatch hok

theorem accept_eq_ok_iff {body payload : List UInt8} :
    CallbackFrameDecoder.accept body = .ok payload ↔ jsonValid body ∧ body = payload := by
  unfold CallbackFrameDecoder.accept
  split_ifs with hvalid <;> simp [hvalid]

/-- An outcome with the code of its error alone. -/
def coded (outcome : Except FrameError (List V)) : Except FrameErrorCode (List V) :=
  outcome.mapError (·.code)

/-- What is seen of a push to the app's decoder: the payloads or the code of the error, and the
bytes that wait behind it. -/
def FrameDecoder.observed (result : Except FrameError (List V) × FrameDecoder) :
    Except FrameErrorCode (List (Except String V)) × ℕ :=
  (coded (result.1.map (·.map .ok)), result.2.pendingBytes)

/-- The same for the helper's decoder. A body stands for the value that the app makes of it. -/
def CallbackFrameDecoder.observed (json : JavaScriptJson V)
    (result : Except FrameError (List (List UInt8)) × CallbackFrameDecoder) :
    Except FrameErrorCode (List (Except String V)) × ℕ :=
  (coded (result.1.map (·.map (FrameDecoder.accept json))), result.2.pendingBytes)

theorem Stream.Good.code_eq (h : stream.Good max) {error : FrameError}
    (hfailure : stream.failure = some error) : error.code = .tooLarge := by
  rw [h.failure, oversized] at hfailure
  split at hfailure
  · rw [← Option.some.inj hfailure]
    rfl
  · cases hfailure

/-- As long as no body is refused, as many bytes wait in both decoders. -/
theorem pending_eq (hgood : stream.Good max) (happ : app.Follows max stream)
    (hhelper : helper.Follows max stream) : app.pendingBytes = helper.pendingBytes :=
  happ.pending.trans (hhelper.pending fun _ hfailure => hgood.code_eq hfailure).symm

/-- The decoders are seen to do the same exactly if the helper accepts all bodies. -/
theorem observed_eq_iff (json : JavaScriptJson V) (hgood : stream.Good max)
    (happ : app.Follows max stream) (hhelper : helper.Follows max stream)
    (chunks : List (List UInt8)) :
    (run (FrameDecoder.push json) app chunks).map FrameDecoder.observed =
        (run CallbackFrameDecoder.push helper chunks).map (CallbackFrameDecoder.observed json) ↔
      ∀ body ∈ bodies max (stream.rest ++ chunks.flatten), jsonValid body := by
  induction chunks generalizing app helper stream with
  | nil =>
    rw [List.flatten_nil, List.append_nil, bodies_of_not_frame hgood.taken]
    exact iff_of_true rfl nofun
  | cons chunk chunks ih =>
    obtain ⟨hout, hnext⟩ := happ.push json hgood.waits chunk
    obtain ⟨hout', hnext'⟩ := hhelper.push hgood.waits chunk
    rw [run, run, List.map_cons, List.map_cons, List.cons.injEq, List.flatten_cons,
      ← List.append_assoc]
    cases hfailure : stream.failure with
    | some error =>
      -- Both have failed on a header over the cap before.
      have hstays : ∀ {W : Type} (accept : List UInt8 → Except String W),
          stream.push accept max chunk = (.error error, stream) := by
        intro W accept
        rw [Stream.push, hfailure]
      rw [hstays] at hout hnext hout' hnext'
      rw [ih hgood hnext hnext', hgood.bodies_eq_nil hfailure, List.append_assoc,
        hgood.bodies_eq_nil hfailure]
      refine and_iff_right ?_
      rw [FrameDecoder.observed, CallbackFrameDecoder.observed, hout, hout',
        pending_eq hgood hnext hnext']
      rfl
    | none =>
      by_cases hvalid : ∀ body ∈ bodies max (stream.rest ++ chunk), jsonValid body
      · obtain ⟨values, hvalues⟩ := exists_accepted fun body hbody =>
          accepts_of_jsonValid json (hvalid body hbody)
        have hbodies : (bodies max (stream.rest ++ chunk)).map CallbackFrameDecoder.accept =
            (bodies max (stream.rest ++ chunk)).map .ok :=
          List.map_congr_left fun body hbody => if_pos (hvalid body hbody)
        have hgood' := good_remainder max (stream.rest ++ chunk)
        rw [Stream.push_accepted hfailure hvalues] at hout hnext
        rw [Stream.push_accepted hfailure hbodies] at hout' hnext'
        rw [ih hgood' hnext hnext', bodies_append (stream.rest ++ chunk), List.forall_mem_append]
        refine and_congr_left fun _ => iff_of_true ?_ hvalid
        rw [FrameDecoder.observed, CallbackFrameDecoder.observed, hout, hout',
          pending_eq hgood' hnext hnext', Delivery.outcome, Delivery.outcome]
        cases oversized max (remainder max (stream.rest ++ chunk)) with
        | none =>
          exact congrArg
            (fun payloads => (Except.ok payloads, (helper.push chunk).2.pendingBytes)) hvalues.symm
        | some error => rfl
      · -- The helper refuses a body, and keeps its frame; the app has taken that frame.
        refine iff_of_false (fun hsame => ?_) fun hall => hvalid fun body hbody => ?_
        · push Not at hvalid
          have hrefused : ∃ body ∈ bodies max (stream.rest ++ chunk),
              ∀ payload, CallbackFrameDecoder.accept body ≠ .ok payload := by
            obtain ⟨body, hbody, hbad⟩ := hvalid
            exact ⟨body, hbody, fun payload haccept => hbad (accept_eq_ok_iff.mp haccept).1⟩
          have hless : ∀ body payload, CallbackFrameDecoder.accept body = .ok payload →
              ∃ value, FrameDecoder.accept json body = .ok value := fun body payload haccept =>
            accepts_of_jsonValid json (accept_eq_ok_iff.mp haccept).1
          obtain ⟨⟨message, hmalformed⟩, hrest⟩ := drain_refused hless hrefused [] []
          rw [Stream.push, hfailure] at hnext hnext'
          have hkept := hnext'.broken _ hmalformed rfl
          have happpending := hnext.pending
          have hpending := congrArg Prod.snd hsame.1
          dsimp only [FrameDecoder.observed, CallbackFrameDecoder.observed] at hpending
          dsimp only at hkept happpending
          rw [Receiver.feed] at hkept happpending
          dsimp only at hkept happpending
          omega
        · exact hall body (bodies_append (stream.rest ++ chunk) _ ▸ List.mem_append_left _ hbody)

theorem encodeFrame_eq_ok {json : JavaScriptJson V} {payload : V} {frame : List UInt8}
    (h : encodeFrame json payload max = .ok frame) :
    ∃ body, frame = encode body ∧ body.length ≤ max ∧
      FrameDecoder.accept json body = .ok payload := by
  rw [encodeFrame] at h
  cases htext : json.stringify payload with
  | none =>
    rw [htext] at h
    exact nomatch h
  | some text =>
    rw [htext] at h
    dsimp only at h
    split_ifs at h with hcap
    refine ⟨Utf8.encode text, (Except.ok.inj h).symm, Nat.not_lt.mp hcap, ?_⟩
    rw [FrameDecoder.accept, Utf8.decode_encode]
    exact json.parse_stringify payload text htext

theorem encodeCallbackFrame_eq_ok {json : GoJson P} {payload : P} {frame : List UInt8}
    (h : encodeCallbackFrame json payload = .ok frame) :
    ∃ body, frame = encode body ∧ body.length ≤ callbackMaxFrameBytes ∧
      marshalCallbackBody json payload = .ok body := by
  rw [encodeCallbackFrame] at h
  cases hbody : marshalCallbackBody json payload with
  | error error =>
    rw [hbody] at h
    exact nomatch h
  | ok body =>
    rw [hbody] at h
    dsimp only at h
    split_ifs at h with hcap
    exact ⟨body, (Except.ok.inj h).symm, Nat.not_lt.mp hcap, rfl⟩

/-- The bodies of encoded payloads. -/
theorem exists_bodies {encodes : P → List UInt8 → Prop} {good : P → List UInt8 → Prop}
    (hencodes : ∀ payload frame, encodes payload frame →
      ∃ body, frame = encode body ∧ body.length ≤ max ∧ good payload body)
    {payloads : List P} {frames : List (List UInt8)} (h : List.Forall₂ encodes payloads frames) :
    ∃ sent : List (List UInt8), frames.flatten = sent.flatMap encode ∧
      (∀ body ∈ sent, body.length ≤ max) ∧ List.Forall₂ good payloads sent := by
  induction h with
  | nil => exact ⟨[], rfl, nofun, .nil⟩
  | cons hframe hframes ih =>
    obtain ⟨body, rfl, hcap, hgood⟩ := hencodes _ _ hframe
    obtain ⟨sent, hflatten, hcaps, hgoods⟩ := ih
    refine ⟨body :: sent, ?_, ?_, .cons hgood hgoods⟩
    · rw [List.flatten_cons, hflatten, List.flatMap_cons]
    · intro other hother
      rcases List.mem_cons.mp hother with rfl | hother
      · exact hcap
      · exact hcaps other hother

/-! ### The claims of the mirror -/

/-- The outcomes of the app's decoder on a new stream, and of the helper's. -/
def appOutcomes (json : JavaScriptJson V) (chunks : List (List UInt8)) :
    List (Except FrameError (List V)) :=
  outcomes (FrameDecoder.push json) { maxFrameBytes := callbackMaxFrameBytes } chunks

def helperOutcomes (chunks : List (List UInt8)) : List (Except FrameError (List (List UInt8))) :=
  outcomes CallbackFrameDecoder.push { maxBytes := callbackMaxFrameBytes } chunks

/-- Pushes whose payloads do not depend on how a stream without an error is cut, and that give
nothing behind an error. -/
structure Settled (outcomes : List (List UInt8) → List (Except FrameError (List V))) : Prop where
  cut : ∀ chunks chunks', chunks'.flatten = chunks.flatten → Intact (outcomes chunks) →
    Intact (outcomes chunks') ∧ delivered (outcomes chunks') = delivered (outcomes chunks)
  stopped : ∀ before after error, .error error ∈ outcomes before →
    outcomes (before ++ after) = outcomes before ++ after.map fun _ => .error error

/-- What is claimed of both decoders on a stream that arrives in chunks. -/
structure Mirrored (app : JavaScriptJson V) (helper : GoJson P) (chunks : List (List UInt8)) :
    Prop where
  same : (run (FrameDecoder.push app) { maxFrameBytes := callbackMaxFrameBytes } chunks).map
      FrameDecoder.observed =
    (run CallbackFrameDecoder.push { maxBytes := callbackMaxFrameBytes } chunks).map
      (CallbackFrameDecoder.observed app)
  settled : Settled (appOutcomes app) ∧ Settled helperOutcomes
  appEncoded : ∀ payloads frames,
    List.Forall₂ (fun payload frame =>
      encodeFrame app payload callbackMaxFrameBytes = .ok frame) payloads frames →
    chunks.flatten = frames.flatten →
      Intact (appOutcomes app chunks) ∧ delivered (appOutcomes app chunks) = payloads
  helperEncoded : ∀ payloads frames,
    List.Forall₂ (fun payload frame => encodeCallbackFrame helper payload = .ok frame)
      payloads frames →
    chunks.flatten = frames.flatten →
      Intact (helperOutcomes chunks) ∧
        List.Forall₂ (fun payload body => marshalCallbackBody helper payload = .ok body)
          payloads (delivered (helperOutcomes chunks))

/-- A new decoder follows a new stream. -/
theorem follows_app (max : ℕ) :
    FrameDecoder.Follows { maxFrameBytes := max } max ({} : Stream) :=
  FrameDecoder.Holds.follows ⟨rfl, rfl, rfl, nofun, rfl⟩

theorem follows_helper (max : ℕ) :
    CallbackFrameDecoder.Follows { maxBytes := max } max ({} : Stream) :=
  CallbackFrameDecoder.Holds.follows ⟨rfl, rfl, fun h => absurd rfl h, rfl⟩

theorem appOutcomes_eq (json : JavaScriptJson V) : appOutcomes json =
    outcomes (Stream.push (FrameDecoder.accept json) callbackMaxFrameBytes) {} :=
  funext fun chunks => (follows_app _).outcomes_eq json (Stream.Good.init _).waits chunks

theorem helperOutcomes_eq : helperOutcomes =
    outcomes (Stream.push CallbackFrameDecoder.accept callbackMaxFrameBytes) {} :=
  funext fun chunks => (follows_helper _).outcomes_eq (Stream.Good.init _).waits chunks

theorem settled_stream (accept : List UInt8 → Except String V) (max : ℕ) :
    Settled (outcomes (Stream.push accept max) {}) where
  cut chunks chunks' hflatten hintact := by
    obtain ⟨⟨values, hvalues⟩, hcap⟩ := accepted_of_intact (Stream.Good.init max) rfl chunks hintact
    obtain ⟨-, hdelivered⟩ := intact_of_accepted (Stream.Good.init max) rfl chunks hvalues hcap
    rw [← hflatten] at hvalues hcap
    obtain ⟨hintact', hdelivered'⟩ :=
      intact_of_accepted (Stream.Good.init max) rfl chunks' hvalues hcap
    exact ⟨hintact', hdelivered'.trans hdelivered.symm⟩
  stopped before after _ h := outcomes_of_error before after h

/-- A stream of encoded frames gives the values of their bodies. -/
theorem delivered_encoded {accept : List UInt8 → Except String V} (hmax : max < 4294967296)
    {chunks sent : List (List UInt8)} {values : List V}
    (hflatten : chunks.flatten = sent.flatMap encode)
    (hcap : ∀ body ∈ sent, body.length ≤ max) (hvalues : sent.map accept = values.map .ok) :
    Intact (outcomes (Stream.push accept max) {} chunks) ∧
      delivered (outcomes (Stream.push accept max) {} chunks) = values := by
  obtain ⟨hbodies, hremainder⟩ := bodies_flatMap_encode sent hcap hmax
  have hstream : ({} : Stream).rest ++ chunks.flatten = sent.flatMap encode := hflatten
  apply intact_of_accepted (Stream.Good.init max) rfl chunks
  · rw [hstream, hbodies, hvalues]
  · rw [hstream, hremainder]
    rfl

theorem map_accept_of_forall₂ {accept : List UInt8 → Except String V} {values : List V}
    {sent : List (List UInt8)}
    (h : List.Forall₂ (fun value body => accept body = .ok value) values sent) :
    sent.map accept = values.map .ok := by
  induction h with
  | nil => rfl
  | cons hbody _ ih => rw [List.map_cons, hbody, ih, List.map_cons]

/-- **The decoders mirror each other.** They agree on a stream exactly if the body of each complete
frame, up to a header over the cap, is a JSON text that nests no deeper than the helper's library
accepts. -/
theorem mirrored_iff (app : JavaScriptJson V) (helper : GoJson P) (chunks : List (List UInt8)) :
    Mirrored app helper chunks ↔
      ∀ body ∈ bodies callbackMaxFrameBytes chunks.flatten, jsonValid body := by
  have hsame := observed_eq_iff app (Stream.Good.init callbackMaxFrameBytes) (follows_app _)
    (follows_helper _) chunks
  constructor
  · intro h
    exact hsame.mp h.same
  · intro hvalid
    refine ⟨hsame.mpr hvalid, ⟨?_, ?_⟩, ?_, ?_⟩
    · rw [appOutcomes_eq]
      exact settled_stream _ _
    · rw [helperOutcomes_eq]
      exact settled_stream _ _
    · intro payloads frames hframes hflatten
      obtain ⟨sent, hsent, hcap, hgood⟩ :=
        exists_bodies (fun _ _ hframe => encodeFrame_eq_ok hframe) hframes
      rw [appOutcomes_eq]
      exact delivered_encoded (by decide) (hflatten.trans hsent) hcap (map_accept_of_forall₂ hgood)
    · intro payloads frames hframes hflatten
      obtain ⟨sent, hsent, hcap, hgood⟩ :=
        exists_bodies (fun _ _ hframe => encodeCallbackFrame_eq_ok hframe) hframes
      have hbodies : bodies callbackMaxFrameBytes chunks.flatten = sent := by
        rw [hflatten, hsent]
        exact (bodies_flatMap_encode sent hcap (by decide)).1
      have haccepted : sent.map CallbackFrameDecoder.accept = sent.map .ok :=
        List.map_congr_left fun body hbody => if_pos (hvalid body (hbodies ▸ hbody))
      rw [helperOutcomes_eq]
      obtain ⟨hintact, hdelivered⟩ :=
        delivered_encoded (by decide) (hflatten.trans hsent) hcap haccepted
      rw [hdelivered]
      exact ⟨hintact, hgood⟩

/-- A JSON library of the app whose values are texts. -/
def textJson : JavaScriptJson {text : List Char // JsonText.Valid text} where
  parse text := if h : JsonText.Valid text then .ok ⟨text, h⟩ else .error "Unexpected token"
  stringify value := some value.1
  isOk_parse text := by
    split_ifs with h <;> simp [h, Except.isOk, Except.toBool]
  parse_stringify value text h := by
    obtain rfl := Option.some.inj h
    exact dif_pos value.2

/-- A JSON library of the helper whose values are texts. -/
def bytesJson : GoJson {body : List UInt8 // JsonText.ValidBytes body} where
  encode payload := .ok (payload.1 ++ [0x0a])
  encode_eq payload _ h := ⟨payload.1, (Except.ok.inj h).symm, payload.2⟩

/-- On a frame whose body is an open brace the app has taken the frame, and the helper keeps its
five bytes. -/
theorem not_mirrored : ¬ ∀ chunks : List (List UInt8), Mirrored textJson bytesJson chunks := by
  intro hclaim
  have hsame := (hclaim [[0, 0, 0, 1, 0x7b]]).same
  have hpending := congrArg (List.map Prod.snd) hsame
  exact absurd hpending (by decide +kernel)

end Mirror

end AgentCockpit.Callback
