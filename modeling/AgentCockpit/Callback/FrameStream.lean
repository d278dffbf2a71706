import AgentCockpit.Core.Framing

/-!
# A stream of callback frames

What a decoder of callback frames does, on the bytes that wait: a push gives the payloads of the
frames that its chunk completes, or fails on a header over the cap or on a body that is not
accepted. A failed push gives no payload, and all later ones fail alike.
-/

namespace AgentCockpit.Callback

open AgentCockpit.Core

variable {V : Type}

inductive FrameErrorCode
  | tooLarge | malformed
  deriving DecidableEq, Repr

structure FrameError where
  code : FrameErrorCode
  message : String
  deriving DecidableEq, Repr

def FrameError.tooLarge (length : ℕ) : FrameError :=
  ⟨.tooLarge, s!"frame too large: {length} bytes"⟩

/-- The payloads of a push, and how it has failed. -/
structure Delivery (V : Type) where
  out : List V := []
  failure : Option FrameError := none

def Delivery.outcome (delivery : Delivery V) : Except FrameError (List V) :=
  match delivery.failure with
  | none => .ok delivery.out
  | some error => .error error

/-- Take the bodies that are accepted. -/
def taker (accept : List UInt8 → Except String V) : Receiver (Delivery V) where
  frame delivery body :=
    match accept body with
    | .ok payload => { delivery with out := delivery.out ++ [payload] }
    | .error message => { delivery with failure := some ⟨.malformed, message⟩ }
  oversize delivery length := { delivery with failure := some (.tooLarge length) }
  halted delivery := delivery.failure.isSome
  halted_oversize _ _ := rfl

/-- The bytes of a stream that wait, and how it has failed. -/
structure Stream where
  failure : Option FrameError := none
  rest : List UInt8 := []
  deriving DecidableEq, Repr

/-- Give the payloads that a chunk completes, if they are all accepted. -/
def Stream.push (accept : List UInt8 → Except String V) (max : ℕ) (stream : Stream)
    (chunk : List UInt8) : Except FrameError (List V) × Stream :=
  match stream.failure with
  | some error => (.error error, stream)
  | none =>
    let result := (taker accept).feed max ({}, stream.rest) chunk
    (result.1.outcome, ⟨result.1.failure, result.2⟩)

/-- An intact stream waits for the rest of a frame. -/
def Stream.Waits (max : ℕ) (stream : Stream) : Prop :=
  stream.failure = none → head max stream.rest = .incomplete

/-- The outcome of each push, and the decoder behind it. -/
def run {δ : Type} (push : δ → List UInt8 → Except FrameError (List V) × δ) :
    δ → List (List UInt8) → List (Except FrameError (List V) × δ)
  | _, [] => []
  | decoder, chunk :: chunks => push decoder chunk :: run push (push decoder chunk).2 chunks

section Taker

variable {accept : List UInt8 → Except String V} {max : ℕ} {delivery : Delivery V}
  {body buffer rest : List UInt8}

@[simp] theorem halted_taker : (taker accept).halted delivery = delivery.failure.isSome := rfl

theorem frame_taker_ok {payload : V} (h : accept body = .ok payload) :
    (taker accept).frame delivery body = { delivery with out := delivery.out ++ [payload] } := by
  simp [taker, h]

theorem frame_taker_error {message : String} (h : accept body = .error message) :
    (taker accept).frame delivery body =
      { delivery with failure := some ⟨.malformed, message⟩ } := by
  simp [taker, h]

end Taker

/-! ### Accepted bodies -/

section Streams

variable {accept : List UInt8 → Except String V} {max : ℕ} {stream : Stream}
  {buffer chunk : List UInt8} {values : List V}

/-- The failure of a stream whose frames were all accepted. -/
def oversized (max : ℕ) (rest : List UInt8) : Option FrameError :=
  match head max rest with
  | .oversize length => some (.tooLarge length)
  | _ => none

/-- A stream on which no body has been refused: it has taken all complete frames, and has failed
only if a header over the cap stands behind them. -/
structure Stream.Good (max : ℕ) (stream : Stream) : Prop where
  taken : ∀ body rest, head max stream.rest ≠ .frame body rest
  failure : stream.failure = oversized max stream.rest

theorem Stream.Good.init (max : ℕ) : ({} : Stream).Good max := ⟨nofun, rfl⟩

theorem Stream.Good.waits (h : stream.Good max) : stream.Waits max := by
  intro hintact
  rw [h.failure, oversized] at hintact
  cases hhead : head max stream.rest with
  | incomplete => rfl
  | oversize length =>
    rw [hhead] at hintact
    exact nomatch hintact
  | frame body rest => exact absurd hhead (h.taken body rest)

/-- Nothing stands behind a header over the cap. -/
theorem Stream.Good.bodies_eq_nil (h : stream.Good max) {error : FrameError}
    (hfailure : stream.failure = some error) (more : List UInt8) :
    bodies max (stream.rest ++ more) = [] := by
  apply bodies_of_not_frame
  rw [h.failure, oversized] at hfailure
  cases hhead : head max stream.rest with
  | oversize length =>
    rw [head_append_of_oversize hhead]
    exact nofun
  | incomplete =>
    rw [hhead] at hfailure
    exact nomatch hfailure
  | frame body rest => exact absurd hhead (h.taken body rest)

/-- A buffer whose bodies are accepted is taken up to its remainder. -/
theorem drain_accepted (h : (bodies max buffer).map accept = values.map .ok) (out : List V) :
    (taker accept).drain max ⟨out, none⟩ buffer =
      (⟨out ++ values, oversized max (remainder max buffer)⟩, remainder max buffer) := by
  induction buffer using frames_induction max generalizing out values with
  | stop buffer hstop =>
    rw [bodies_of_not_frame hstop] at h
    obtain rfl := List.map_eq_nil_iff.mp h.symm
    rw [remainder_of_not_frame hstop, List.append_nil, oversized]
    cases hhead : head max buffer with
    | incomplete => rw [Receiver.drain_of_incomplete hhead]
    | oversize length => rw [Receiver.drain_of_oversize rfl hhead, taker]
    | frame body rest => exact absurd hhead (hstop body rest)
  | frame buffer body rest hhead ih =>
    rw [bodies_of_frame hhead, List.map_cons] at h
    cases values with
    | nil => exact nomatch h
    | cons value values =>
      obtain ⟨hbody, hrest⟩ := List.cons.inj h
      rw [Receiver.drain_of_frame rfl hhead, frame_taker_ok hbody, remainder_of_frame hhead,
        ih hrest, List.append_assoc, List.singleton_append]

theorem Stream.push_accepted (hintact : stream.failure = none)
    (h : (bodies max (stream.rest ++ chunk)).map accept = values.map .ok) :
    stream.push accept max chunk =
      (Delivery.outcome ⟨values, oversized max (remainder max (stream.rest ++ chunk))⟩,
        ⟨oversized max (remainder max (stream.rest ++ chunk)),
          remainder max (stream.rest ++ chunk)⟩) := by
  rw [Stream.push, hintact]
  dsimp only
  rw [Receiver.feed, drain_accepted h, List.nil_append]

theorem good_remainder (max : ℕ) (buffer : List UInt8) :
    Stream.Good max ⟨oversized max (remainder max buffer), remainder max buffer⟩ :=
  ⟨head_remainder_ne_frame buffer, rfl⟩

theorem exists_accepted {sent : List (List UInt8)}
    (h : ∀ body ∈ sent, ∃ value, accept body = .ok value) :
    ∃ values : List V, sent.map accept = values.map .ok := by
  induction sent with
  | nil => exact ⟨[], rfl⟩
  | cons body sent ih =>
    obtain ⟨value, hvalue⟩ := h body List.mem_cons_self
    obtain ⟨values, hvalues⟩ := ih fun other hother => h other (List.mem_cons_of_mem body hother)
    exact ⟨value :: values, by rw [List.map_cons, hvalue, hvalues, List.map_cons]⟩

theorem length_drain_le (delivery : Delivery V) (buffer : List UInt8) :
    ((taker accept).drain max delivery buffer).2.length ≤ buffer.length := by
  induction delivery, buffer using Receiver.drain_induction (taker accept) max with
  | halted delivery buffer h => rw [Receiver.drain_of_halted h]
  | incomplete delivery buffer hrun h => rw [Receiver.drain_of_incomplete h]
  | oversize delivery buffer length hrun h => rw [Receiver.drain_of_oversize hrun h]
  | frame delivery buffer body rest hrun h ih =>
    have hlonger := length_of_head_frame h
    rw [Receiver.drain_of_frame hrun h]
    omega

/-- A body that is refused fails the stream. One that refuses less has taken that frame as well,
so no more bytes wait in it. -/
theorem drain_refused {W : Type} {accept' : List UInt8 → Except String W}
    (hless : ∀ body value, accept body = .ok value → ∃ value', accept' body = .ok value')
    (h : ∃ body ∈ bodies max buffer, ∀ value, accept body ≠ .ok value) (out : List V)
    (out' : List W) :
    (∃ message, ((taker accept).drain max ⟨out, none⟩ buffer).1.failure =
        some ⟨.malformed, message⟩) ∧
      ((taker accept').drain max ⟨out', none⟩ buffer).2.length ≤
        ((taker accept).drain max ⟨out, none⟩ buffer).2.length := by
  induction buffer using frames_induction max generalizing out out' with
  | stop buffer hstop =>
    rw [bodies_of_not_frame hstop] at h
    obtain ⟨body, hbody, -⟩ := h
    exact nomatch hbody
  | frame buffer body rest hhead ih =>
    rw [Receiver.drain_of_frame rfl hhead, Receiver.drain_of_frame rfl hhead]
    cases haccept : accept body with
    | error message =>
      rw [frame_taker_error haccept, Receiver.drain_of_halted rfl]
      exact ⟨⟨message, rfl⟩, length_drain_le _ rest⟩
    | ok value =>
      obtain ⟨value', haccept'⟩ := hless body value haccept
      rw [frame_taker_ok haccept, frame_taker_ok haccept']
      apply ih
      obtain ⟨bad, hbad, hrefused⟩ := h
      rw [bodies_of_frame hhead] at hbad
      rcases List.mem_cons.mp hbad with rfl | hbad
      · exact absurd haccept (hrefused value)
      · exact ⟨bad, hbad, hrefused⟩

/-! ### Outcomes of a stream -/

/-- The outcomes of the pushes to a decoder. -/
def outcomes {δ : Type} (push : δ → List UInt8 → Except FrameError (List V) × δ) (decoder : δ)
    (chunks : List (List UInt8)) : List (Except FrameError (List V)) :=
  (run push decoder chunks).map Prod.fst

theorem outcomes_cons {δ : Type} (push : δ → List UInt8 → Except FrameError (List V) × δ)
    (decoder : δ) (chunk : List UInt8) (chunks : List (List UInt8)) :
    outcomes push decoder (chunk :: chunks) =
      (push decoder chunk).1 :: outcomes push (push decoder chunk).2 chunks := rfl

/-- No push has failed. -/
def Intact (outcomes : List (Except FrameError (List V))) : Prop :=
  ∀ outcome ∈ outcomes, ∃ out, outcome = .ok out

/-- All payloads of the pushes. -/
def delivered (outcomes : List (Except FrameError (List V))) : List V :=
  outcomes.flatMap fun outcome => outcome.toOption.getD []

/-- If all bodies of the stream are accepted and no header is over the cap, no push fails, and the
payloads are those of the bodies. -/
theorem intact_of_accepted (hgood : stream.Good max) (hintact : stream.failure = none)
    (chunks : List (List UInt8))
    (h : (bodies max (stream.rest ++ chunks.flatten)).map accept = values.map .ok)
    (hcap : oversized max (remainder max (stream.rest ++ chunks.flatten)) = none) :
    Intact (outcomes (Stream.push accept max) stream chunks) ∧
      delivered (outcomes (Stream.push accept max) stream chunks) = values := by
  induction chunks generalizing stream values with
  | nil =>
    rw [List.flatten_nil, List.append_nil, bodies_of_not_frame hgood.taken] at h
    obtain rfl := List.map_eq_nil_iff.mp h.symm
    exact ⟨fun outcome hmem => absurd hmem List.not_mem_nil, rfl⟩
  | cons chunk chunks ih =>
    rw [List.flatten_cons, ← List.append_assoc] at h hcap
    rw [bodies_append, List.map_append] at h
    obtain ⟨now, later, rfl, hnow, hlater⟩ := List.map_eq_append_iff.mp h.symm
    rw [remainder_append] at hcap
    have hgood' := good_remainder max (stream.rest ++ chunk)
    have hfailure : oversized max (remainder max (stream.rest ++ chunk)) = none := by
      -- A header over the cap would still stand there at the end.
      cases hover : oversized max (remainder max (stream.rest ++ chunk)) with
      | none => rfl
      | some error =>
        have hnil : bodies max (remainder max (stream.rest ++ chunk) ++ chunks.flatten) = [] :=
          hgood'.bodies_eq_nil hover _
        rw [remainder, hnil, oversized] at hcap
        rw [oversized] at hover
        cases hhead : head max (remainder max (stream.rest ++ chunk)) with
        | oversize length =>
          rw [List.map_nil, List.sum_nil, List.drop_zero, head_append_of_oversize hhead] at hcap
          cases hcap
        | incomplete =>
          rw [hhead] at hover
          cases hover
        | frame body rest => exact absurd hhead (head_remainder_ne_frame _ body rest)
    rw [outcomes_cons, Stream.push_accepted hintact hnow.symm]
    rw [hfailure] at hgood' ⊢
    obtain ⟨hrest, hdelivered⟩ := ih hgood' rfl hlater.symm hcap
    refine ⟨?_, ?_⟩
    · intro outcome houtcome
      rcases List.mem_cons.mp houtcome with rfl | houtcome
      · exact ⟨now, rfl⟩
      · exact hrest outcome houtcome
    · rw [delivered, List.flatMap_cons]
      exact congrArg (now ++ ·) hdelivered

/-- If no push fails, all bodies of the stream are accepted and no header is over the cap. -/
theorem accepted_of_intact (hgood : stream.Good max) (hintact : stream.failure = none)
    (chunks : List (List UInt8))
    (h : Intact (outcomes (Stream.push accept max) stream chunks)) :
    (∃ values : List V,
        (bodies max (stream.rest ++ chunks.flatten)).map accept = values.map .ok) ∧
      oversized max (remainder max (stream.rest ++ chunks.flatten)) = none := by
  induction chunks generalizing stream with
  | nil =>
    rw [List.flatten_nil, List.append_nil, bodies_of_not_frame hgood.taken,
      remainder_of_not_frame hgood.taken, ← hgood.failure]
    exact ⟨⟨[], rfl⟩, hintact⟩
  | cons chunk chunks ih =>
    rw [outcomes_cons] at h
    obtain ⟨out, hout⟩ := h _ List.mem_cons_self
    have hrest :
        Intact (outcomes (Stream.push accept max) (stream.push accept max chunk).2 chunks) :=
      fun outcome houtcome => h outcome (List.mem_cons_of_mem _ houtcome)
    have haccepted : ∀ body ∈ bodies max (stream.rest ++ chunk),
        ∃ value, accept body = .ok value := by
      by_contra hnot
      push Not at hnot
      have hself : ∀ body value, accept body = .ok value → ∃ value', accept body = .ok value' :=
        fun body value haccept => ⟨value, haccept⟩
      obtain ⟨⟨message, hfailure⟩, -⟩ := drain_refused hself hnot [] []
      rw [Stream.push, hintact] at hout
      dsimp only at hout
      rw [Receiver.feed, Delivery.outcome, hfailure] at hout
      cases hout
    obtain ⟨now, hnow⟩ := exists_accepted haccepted
    rw [Stream.push_accepted hintact hnow] at hout hrest
    cases hfailure : oversized max (remainder max (stream.rest ++ chunk)) with
    | some error =>
      rw [Delivery.outcome, hfailure] at hout
      cases hout
    | none =>
      have hgood' := good_remainder max (stream.rest ++ chunk)
      rw [hfailure] at hgood' hrest
      obtain ⟨⟨later, hlater⟩, hcap⟩ := ih hgood' rfl hrest
      rw [List.flatten_cons, ← List.append_assoc, bodies_append,
        remainder_append (stream.rest ++ chunk), List.map_append, hnow, hlater, ← List.map_append]
      exact ⟨⟨now ++ later, rfl⟩, hcap⟩

theorem outcomes_of_failed {error : FrameError} (h : stream.failure = some error)
    (chunks : List (List UInt8)) :
    outcomes (Stream.push accept max) stream chunks = chunks.map fun _ => .error error := by
  induction chunks with
  | nil => rfl
  | cons chunk chunks ih =>
    have hpush : stream.push accept max chunk = (.error error, stream) := by
      rw [Stream.push, h]
    rw [outcomes_cons, hpush, ih, List.map_cons]

theorem failure_of_push_error {error : FrameError}
    (h : (stream.push accept max chunk).1 = .error error) :
    (stream.push accept max chunk).2.failure = some error := by
  rw [Stream.push] at h ⊢
  cases hfailure : stream.failure with
  | some earlier =>
    rw [hfailure] at h
    rw [← Except.error.inj h]
    exact hfailure
  | none =>
    rw [hfailure] at h
    dsimp only at h ⊢
    cases hresult : ((taker accept).feed max ({}, stream.rest) chunk).1.failure with
    | none =>
      rw [Delivery.outcome, hresult] at h
      exact nomatch h
    | some made =>
      rw [Delivery.outcome, hresult] at h
      rw [Except.error.inj h]

/-- Once a push has failed, all later ones fail alike. -/
theorem outcomes_of_error (before after : List (List UInt8)) {error : FrameError}
    (h : .error error ∈ outcomes (Stream.push accept max) stream before) :
    outcomes (Stream.push accept max) stream (before ++ after) =
      outcomes (Stream.push accept max) stream before ++ after.map fun _ => .error error := by
  induction before generalizing stream with
  | nil => exact nomatch h
  | cons chunk before ih =>
    rw [outcomes_cons] at h
    rw [List.cons_append, outcomes_cons, outcomes_cons, List.cons_append]
    congr 1
    rcases List.mem_cons.mp h with hnow | hlater
    · have hfailure := failure_of_push_error hnow.symm
      rw [outcomes_of_failed hfailure, outcomes_of_failed hfailure, List.map_append]
    · exact ih hlater

end Streams


end AgentCockpit.Callback
