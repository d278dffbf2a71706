import Mathlib.Data.List.Basic
import Mathlib.Data.List.TakeDrop
import Mathlib.Tactic.NormNum

/-!
# Length-prefixed framing

A stream of frames, each a big-endian length of four bytes and a body of that length, arrives in
chunks. A receiver takes the frames one by one until it halts; a header that declares more than the
cap halts it. What a receiver has taken depends on the bytes that have arrived and not on how they
were cut.
-/

namespace AgentCockpit.Core

/-! ### Headers -/

/-- The number that bytes stand for, the most significant first. -/
def bigEndian (bytes : List UInt8) : ℕ :=
  bytes.foldl (fun number byte => number * 256 + byte.toNat) 0

/-- The four bytes of a number. -/
def header (number : ℕ) : List UInt8 :=
  [UInt8.ofNat (number / 16777216), UInt8.ofNat (number / 65536), UInt8.ofNat (number / 256),
    UInt8.ofNat number]

/-- A body with its length before it. -/
def encode (body : List UInt8) : List UInt8 := header body.length ++ body

@[simp] theorem length_header (number : ℕ) : (header number).length = 4 := rfl

theorem bigEndian_header {number : ℕ} (h : number < 4294967296) :
    bigEndian (header number) = number := by
  simp only [bigEndian, header, List.foldl_cons, List.foldl_nil, UInt8.toNat_ofNat']
  omega

/-! ### The start of a buffer -/

/-- What stands at the start of a buffer: less than a frame, a header that declares too much, or a
frame and what follows it. -/
inductive Head
  | incomplete
  | oversize (length : ℕ)
  | frame (body rest : List UInt8)
  deriving DecidableEq, Repr

/-- The length that the header of a buffer declares. -/
def declared (buffer : List UInt8) : ℕ := bigEndian (buffer.take 4)

/-- Read the start of a buffer. -/
def head (max : ℕ) (buffer : List UInt8) : Head :=
  if buffer.length < 4 then .incomplete
  else if max < declared buffer then .oversize (declared buffer)
  else if buffer.length < 4 + declared buffer then .incomplete
  else .frame ((buffer.drop 4).take (declared buffer)) (buffer.drop (4 + declared buffer))

variable {max : ℕ} {buffer body rest more : List UInt8} {length : ℕ}

theorem declared_append (h : 4 ≤ buffer.length) : declared (buffer ++ more) = declared buffer := by
  rw [declared, List.take_append_of_le_length h, declared]

theorem head_eq_incomplete_iff :
    head max buffer = .incomplete ↔
      buffer.length < 4 ∨ declared buffer ≤ max ∧ buffer.length < 4 + declared buffer := by
  unfold head
  split_ifs <;> simp <;> omega

theorem head_eq_oversize_iff :
    head max buffer = .oversize length ↔
      4 ≤ buffer.length ∧ max < declared buffer ∧ declared buffer = length := by
  unfold head
  split_ifs <;> simp <;> omega

theorem head_eq_frame_iff :
    head max buffer = .frame body rest ↔
      4 + declared buffer ≤ buffer.length ∧ declared buffer ≤ max ∧
        (buffer.drop 4).take (declared buffer) = body ∧
          buffer.drop (4 + declared buffer) = rest := by
  unfold head
  split_ifs with hshort hcap hlong
  · simp; omega
  · simp; omega
  · simp; omega
  · rw [Head.frame.injEq]
    exact ⟨fun hframe => ⟨by omega, by omega, hframe⟩, fun hframe => hframe.2.2⟩

/-- A frame takes its header and its body off the buffer. -/
theorem eq_of_head_frame (h : head max buffer = .frame body rest) :
    buffer = buffer.take 4 ++ body ++ rest ∧ body.length = declared buffer := by
  obtain ⟨hlong, -, rfl, rfl⟩ := head_eq_frame_iff.mp h
  constructor
  · rw [List.append_assoc, ← List.drop_drop, List.take_append_drop, List.take_append_drop]
  · rw [List.length_take, List.length_drop]
    omega

theorem length_of_head_frame (h : head max buffer = .frame body rest) :
    buffer.length = 4 + body.length + rest.length := by
  obtain ⟨hlong, -, -, hrest⟩ := head_eq_frame_iff.mp h
  rw [(eq_of_head_frame h).2, ← hrest, List.length_drop]
  omega

/-- What arrives later stays behind a frame. -/
theorem head_append_of_frame (h : head max buffer = .frame body rest) :
    head max (buffer ++ more) = .frame body (rest ++ more) := by
  obtain ⟨hlong, hcap, rfl, rfl⟩ := head_eq_frame_iff.mp h
  have hdeclared : declared (buffer ++ more) = declared buffer := declared_append (by omega)
  refine head_eq_frame_iff.mpr ⟨?_, ?_, ?_, ?_⟩
  · rw [hdeclared, List.length_append]
    omega
  · rw [hdeclared]
    exact hcap
  · rw [hdeclared, List.drop_append_of_le_length (by omega), List.take_append_of_le_length]
    rw [List.length_drop]
    omega
  · rw [hdeclared, List.drop_append_of_le_length hlong]

theorem head_append_of_oversize (h : head max buffer = .oversize length) :
    head max (buffer ++ more) = .oversize length := by
  obtain ⟨hlong, hcap, hlength⟩ := head_eq_oversize_iff.mp h
  have hdeclared : declared (buffer ++ more) = declared buffer := declared_append hlong
  refine head_eq_oversize_iff.mpr ⟨?_, ?_, ?_⟩
  · rw [List.length_append]
    omega
  · rw [hdeclared]
    exact hcap
  · rw [hdeclared, hlength]

/-- A frame is read back from the start of a stream. -/
theorem head_encode (hmax : body.length ≤ max) (hlength : body.length < 4294967296) :
    head max (encode body ++ rest) = .frame body rest := by
  have hdeclared : declared (encode body ++ rest) = body.length := by
    rw [declared, encode, List.append_assoc, List.take_left' (length_header _),
      bigEndian_header hlength]
  refine head_eq_frame_iff.mpr ⟨?_, ?_, ?_, ?_⟩
  · rw [hdeclared, encode]
    simp only [List.length_append, length_header]
    omega
  · rw [hdeclared]
    exact hmax
  · rw [hdeclared, encode, List.append_assoc, List.drop_left' (length_header _), List.take_left]
  · rw [hdeclared, encode, List.drop_left']
    rw [List.length_append, length_header]

/-! ### Receivers -/

/-- What is done with the frames of a stream. A header over the cap halts the receiver, and a halted
receiver takes nothing. -/
structure Receiver (σ : Type*) where
  frame : σ → List UInt8 → σ
  oversize : σ → ℕ → σ
  halted : σ → Bool
  halted_oversize : ∀ state length, halted (oversize state length) = true

namespace Receiver

variable {σ : Type*} (receiver : Receiver σ) (max : ℕ) {state : σ}

/-- The loop over a buffer, for as many turns as the fuel allows. -/
def read : ℕ → σ → List UInt8 → σ × List UInt8
  | 0, state, buffer => (state, buffer)
  | fuel + 1, state, buffer =>
    if receiver.halted state then (state, buffer)
    else
      match head max buffer with
      | .incomplete => (state, buffer)
      | .oversize length => (receiver.oversize state length, buffer)
      | .frame body rest => read fuel (receiver.frame state body) rest

/-- The loop over a buffer to its end. Each turn takes a header, so there are fewer turns than
bytes. -/
def drain (state : σ) (buffer : List UInt8) : σ × List UInt8 :=
  receiver.read max buffer.length state buffer

/-- A chunk arrives behind what is left of the earlier ones. -/
def feed (pair : σ × List UInt8) (chunk : List UInt8) : σ × List UInt8 :=
  receiver.drain max pair.1 (pair.2 ++ chunk)

variable {receiver} {max}

theorem read_of_halted (h : receiver.halted state = true) (fuel : ℕ) :
    receiver.read max fuel state buffer = (state, buffer) := by
  cases fuel with
  | zero => rfl
  | succ fuel => rw [read, if_pos h]

/-- Fuel beyond the length of the buffer changes nothing. -/
theorem read_of_length_le {fuel : ℕ} (h : buffer.length ≤ fuel) :
    receiver.read max fuel state buffer = receiver.drain max state buffer := by
  -- The two loops take the same turns; the rest of a frame is shorter than both amounts of fuel.
  suffices hsuffices : ∀ more, receiver.read max (buffer.length + more) state buffer =
      receiver.drain max state buffer by
    obtain ⟨more, rfl⟩ := Nat.exists_eq_add_of_le h
    exact hsuffices more
  clear h
  unfold drain
  induction hlength : buffer.length using Nat.strong_induction_on generalizing state buffer with
  | _ size ih =>
    intro more
    cases size with
    | zero =>
      obtain rfl := List.eq_nil_of_length_eq_zero hlength
      cases more with
      | zero => rfl
      | succ more => simp [read, head]
    | succ size =>
      rw [Nat.succ_add, read, read]
      split_ifs
      · rfl
      · split
        · rfl
        · rfl
        · rename_i body rest hframe
          have hshorter := length_of_head_frame hframe
          obtain ⟨slack, hslack⟩ : ∃ slack, size = rest.length + slack :=
            Nat.exists_eq_add_of_le (by omega)
          have hrest : rest.length < size + 1 := by omega
          rw [hslack, Nat.add_assoc, ih rest.length hrest rfl (slack + more),
            ih rest.length hrest rfl slack]

theorem drain_of_halted (h : receiver.halted state = true) :
    receiver.drain max state buffer = (state, buffer) :=
  read_of_halted h _

theorem drain_of_incomplete (h : head max buffer = .incomplete) :
    receiver.drain max state buffer = (state, buffer) := by
  rw [← read_of_length_le (Nat.le_succ _), read, h]
  exact ite_self _

theorem drain_of_oversize (hrun : receiver.halted state = false)
    (h : head max buffer = .oversize length) :
    receiver.drain max state buffer = (receiver.oversize state length, buffer) := by
  rw [← read_of_length_le (Nat.le_succ _), read, h, hrun]
  rfl

theorem drain_of_frame (hrun : receiver.halted state = false)
    (h : head max buffer = .frame body rest) :
    receiver.drain max state buffer = receiver.drain max (receiver.frame state body) rest := by
  have hshorter := length_of_head_frame h
  rw [← read_of_length_le (Nat.le_succ _), read, h, hrun]
  exact read_of_length_le (by omega)

/-- Induction along the loop: it stops at once, or takes a frame and goes on with the rest. -/
@[elab_as_elim]
theorem drain_induction (receiver : Receiver σ) (max : ℕ) {motive : σ → List UInt8 → Prop}
    (halted : ∀ state buffer, receiver.halted state = true → motive state buffer)
    (incomplete : ∀ state buffer, receiver.halted state = false →
      head max buffer = .incomplete → motive state buffer)
    (oversize : ∀ state buffer length, receiver.halted state = false →
      head max buffer = .oversize length → motive state buffer)
    (frame : ∀ state buffer body rest, receiver.halted state = false →
      head max buffer = .frame body rest → motive (receiver.frame state body) rest →
        motive state buffer)
    (state : σ) (buffer : List UInt8) : motive state buffer := by
  induction hlength : buffer.length using Nat.strong_induction_on generalizing state buffer with
  | _ size ih =>
    cases hrun : receiver.halted state with
    | true => exact halted state buffer hrun
    | false =>
      cases hhead : head max buffer with
      | incomplete => exact incomplete state buffer hrun hhead
      | oversize length => exact oversize state buffer length hrun hhead
      | frame body rest =>
        have hshorter := length_of_head_frame hhead
        exact frame state buffer body rest hrun hhead (ih rest.length (by omega) _ rest rfl)

/-- A stream may be cut in two: the second piece is read behind what the first one left. -/
theorem drain_append (state : σ) (buffer more : List UInt8) :
    receiver.drain max state (buffer ++ more) =
      receiver.feed max (receiver.drain max state buffer) more := by
  induction state, buffer using drain_induction receiver max with
  | halted state buffer h => rw [feed, drain_of_halted h, drain_of_halted h, drain_of_halted h]
  | incomplete state buffer hrun h => rw [feed, drain_of_incomplete h]
  | oversize state buffer length hrun h =>
    rw [feed, drain_of_oversize hrun h, drain_of_oversize hrun (head_append_of_oversize h),
      drain_of_halted (receiver.halted_oversize _ _)]
  | frame state buffer body rest hrun h ih =>
    rw [drain_of_frame hrun h, drain_of_frame hrun (head_append_of_frame h), ih]

/-- The loop ends when the receiver has halted or waits for the rest of a frame. -/
theorem drain_ends (receiver : Receiver σ) (max : ℕ) (state : σ) (buffer : List UInt8) :
    receiver.halted (receiver.drain max state buffer).1 = true ∨
      head max (receiver.drain max state buffer).2 = .incomplete := by
  induction state, buffer using drain_induction receiver max with
  | halted state buffer h =>
    rw [drain_of_halted h]
    exact Or.inl h
  | incomplete state buffer hrun h =>
    rw [drain_of_incomplete h]
    exact Or.inr h
  | oversize state buffer length hrun h =>
    rw [drain_of_oversize hrun h]
    exact Or.inl (receiver.halted_oversize _ _)
  | frame state buffer body rest hrun h ih =>
    rw [drain_of_frame hrun h]
    exact ih

/-- What has been taken depends on the bytes that arrived, not on how they were cut. -/
theorem foldl_feed (chunks : List (List UInt8)) (state : σ) (buffer : List UInt8) :
    chunks.foldl (receiver.feed max) (receiver.drain max state buffer) =
      receiver.drain max state (buffer ++ chunks.flatten) := by
  induction chunks generalizing buffer with
  | nil => rw [List.foldl_nil, List.flatten_nil, List.append_nil]
  | cons chunk chunks ih =>
    rw [List.foldl_cons, ← drain_append, ih, List.flatten_cons, List.append_assoc]

end Receiver

/-! ### The bodies of a stream -/

/-- The bodies of the frames of a buffer, at most as many as the fuel allows. -/
def bodiesWithin (max : ℕ) : ℕ → List UInt8 → List (List UInt8)
  | 0, _ => []
  | fuel + 1, buffer =>
    match head max buffer with
    | .frame body rest => body :: bodiesWithin max fuel rest
    | _ => []

/-- The bodies of the complete frames of a stream, up to a header over the cap. -/
def bodies (max : ℕ) (stream : List UInt8) : List (List UInt8) :=
  bodiesWithin max stream.length stream

/-- Fuel beyond the length of the stream changes nothing. -/
theorem bodiesWithin_add (size more : ℕ) (stream : List UInt8) (h : stream.length = size) :
    bodiesWithin max (size + more) stream = bodiesWithin max size stream := by
  induction size using Nat.strong_induction_on generalizing stream more with
  | _ size ih =>
    cases size with
    | zero =>
      obtain rfl := List.eq_nil_of_length_eq_zero h
      cases more with
      | zero => rfl
      | succ more => simp [bodiesWithin, head]
    | succ size =>
      rw [Nat.succ_add, bodiesWithin, bodiesWithin]
      split
      · rename_i body rest hframe
        have hshorter := length_of_head_frame hframe
        obtain ⟨slack, rfl⟩ : ∃ slack, size = rest.length + slack :=
          Nat.exists_eq_add_of_le (by omega)
        have hrest : rest.length < rest.length + slack + 1 := by omega
        rw [Nat.add_assoc, ih rest.length hrest _ rest rfl, ih rest.length hrest _ rest rfl]
      · rfl

theorem bodies_of_frame (h : head max buffer = .frame body rest) :
    bodies max buffer = body :: bodies max rest := by
  have hshorter := length_of_head_frame h
  obtain ⟨slack, hslack⟩ : ∃ slack, buffer.length = rest.length + slack :=
    Nat.exists_eq_add_of_le (by omega)
  rw [bodies, ← bodiesWithin_add _ 1 _ rfl, bodiesWithin, h, hslack]
  exact congrArg (body :: ·) (bodiesWithin_add _ slack _ rfl)

theorem bodies_of_not_frame (h : ∀ body rest, head max buffer ≠ .frame body rest) :
    bodies max buffer = [] := by
  rw [bodies, ← bodiesWithin_add _ 1 _ rfl, bodiesWithin]
  split
  · exact absurd ‹_› (h _ _)
  · rfl

/-- What stands behind the complete frames of a stream. -/
def remainder (max : ℕ) (stream : List UInt8) : List UInt8 :=
  stream.drop ((bodies max stream).map (4 + ·.length)).sum

theorem remainder_of_frame (h : head max buffer = .frame body rest) :
    remainder max buffer = remainder max rest := by
  obtain ⟨hbuffer, -⟩ := eq_of_head_frame h
  have hshort : (buffer.take 4 ++ body).length = 4 + body.length := by
    have hlength := length_of_head_frame h
    rw [List.length_append, List.length_take]
    omega
  rw [remainder, bodies_of_frame h, List.map_cons, List.sum_cons, ← List.drop_drop, remainder]
  conv_lhs => rw [hbuffer, List.drop_left' hshort]

theorem remainder_of_not_frame (h : ∀ body rest, head max buffer ≠ .frame body rest) :
    remainder max buffer = buffer := by
  rw [remainder, bodies_of_not_frame h]
  rfl

/-- Induction along the frames of a stream. -/
@[elab_as_elim]
theorem frames_induction (max : ℕ) {motive : List UInt8 → Prop}
    (stop : ∀ buffer, (∀ body rest, head max buffer ≠ .frame body rest) → motive buffer)
    (frame : ∀ buffer body rest, head max buffer = .frame body rest → motive rest → motive buffer)
    (buffer : List UInt8) : motive buffer := by
  induction hlength : buffer.length using Nat.strong_induction_on generalizing buffer with
  | _ size ih =>
    by_cases hframe : ∃ body rest, head max buffer = .frame body rest
    · obtain ⟨body, rest, hframe⟩ := hframe
      have hshorter := length_of_head_frame hframe
      exact frame buffer body rest hframe (ih rest.length (by omega) rest rfl)
    · exact stop buffer fun body rest h => hframe ⟨body, rest, h⟩

/-- No frame stands behind the complete ones. -/
theorem head_remainder_ne_frame (buffer : List UInt8) (body rest : List UInt8) :
    head max (remainder max buffer) ≠ .frame body rest := by
  induction buffer using frames_induction max with
  | stop buffer h =>
    rw [remainder_of_not_frame h]
    exact h body rest
  | frame buffer _ _ h ih =>
    rw [remainder_of_frame h]
    exact ih

theorem bodies_append (buffer more : List UInt8) :
    bodies max (buffer ++ more) =
      bodies max buffer ++ bodies max (remainder max buffer ++ more) := by
  induction buffer using frames_induction max with
  | stop buffer h => rw [bodies_of_not_frame h, remainder_of_not_frame h, List.nil_append]
  | frame buffer body rest h ih =>
    rw [bodies_of_frame h, bodies_of_frame (head_append_of_frame h), remainder_of_frame h, ih,
      List.cons_append]

theorem remainder_append (buffer more : List UInt8) :
    remainder max (buffer ++ more) = remainder max (remainder max buffer ++ more) := by
  induction buffer using frames_induction max with
  | stop buffer h => rw [remainder_of_not_frame h]
  | frame buffer body rest h ih =>
    rw [remainder_of_frame h, remainder_of_frame (head_append_of_frame h), ih]

/-- A stream of frames has the bodies that were encoded, and nothing behind them. -/
theorem bodies_flatMap_encode (sent : List (List UInt8)) (h : ∀ body ∈ sent, body.length ≤ max)
    (hmax : max < 4294967296) :
    bodies max (sent.flatMap encode) = sent ∧ remainder max (sent.flatMap encode) = [] := by
  induction sent with
  | nil => exact ⟨rfl, rfl⟩
  | cons body sent ih =>
    have hbody := h body List.mem_cons_self
    have hhead : head max (encode body ++ sent.flatMap encode) =
        .frame body (sent.flatMap encode) :=
      head_encode hbody (by omega)
    obtain ⟨hbodies, hremainder⟩ :=
      ih fun other hother => h other (List.mem_cons_of_mem body hother)
    rw [List.flatMap_cons, bodies_of_frame hhead, remainder_of_frame hhead, hbodies]
    exact ⟨rfl, hremainder⟩

end AgentCockpit.Core
