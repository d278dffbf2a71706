import AgentCockpit.Core.Occurrence
import AgentCockpit.Mux.PrimaryMirror

/-!
# What the primary-screen mirror feeds

The mirror takes the output apart at the 1049 switches. What it feeds depends on the output and on
the side of the switch it starts on, not on the terminal: `scanLoop` is its loop without one. The
primary part of an output deletes each stretch from a switch to the alternate screen through the
next switch back. The mirror feeds just that, wherever reads end: what it withholds is the start of
a switch, at most seven bytes.

## Main results

* `PrimaryMirror.feeds_primaryPart` — **the mirror feeds the primary part, wherever reads end**
-/

namespace AgentCockpit.Mux

open AgentCockpit.Core

/-! ### Searches -/

variable {pattern data more : Bytes} {i n : ℕ}

theorem bytesIndex_eq_some_iff : bytesIndex pattern data = some i ↔ FirstAt pattern data i := by
  induction data generalizing i with
  | nil =>
    by_cases hempty : pattern = []
    · rw [hempty]
      constructor
      · intro h
        obtain rfl := Option.some.inj h
        exact ⟨List.nil_prefix, nofun⟩
      · intro h
        have hzero : ¬ 0 < i := fun hpos => h.first 0 hpos List.nil_prefix
        rw [Nat.eq_zero_of_not_pos hzero]
        rfl
    · rw [bytesIndex, if_neg hempty]
      refine iff_of_false nofun fun h => hempty ?_
      have hprefix := h.occurs
      unfold OccursAt at hprefix
      rw [List.drop_nil] at hprefix
      exact List.prefix_nil.mp hprefix
  | cons byte data ih =>
    rw [bytesIndex]
    by_cases hhere : OccursAt pattern (byte :: data) 0
    · have hprefix : pattern.isPrefixOf (byte :: data) := List.isPrefixOf_iff_prefix.mpr hhere
      rw [if_pos hprefix]
      constructor
      · intro h
        obtain rfl := Option.some.inj h
        exact ⟨hhere, nofun⟩
      · intro h
        have hzero : ¬ 0 < i := fun hpos => h.first 0 hpos hhere
        rw [Nat.eq_zero_of_not_pos hzero]
    · have hnone : ∀ j < [byte].length, ¬ OccursAt pattern ([byte] ++ data) j := by
        intro j hj
        obtain rfl := Nat.lt_one_iff.mp hj
        exact hhere
      have hprefix : ¬ pattern.isPrefixOf (byte :: data) :=
        fun h => hhere (List.isPrefixOf_iff_prefix.mp h)
      rw [if_neg hprefix]
      constructor
      · intro h
        -- not here, so the first occurrence is that in the rest
        obtain ⟨j, hj, rfl⟩ := Option.map_eq_some_iff.mp h
        rw [Nat.add_comm]
        exact (firstAt_append_iff hnone).mpr (ih.mp hj)
      · intro h
        have hpos : i ≠ 0 := by rintro rfl; exact hhere h.occurs
        obtain ⟨j, rfl⟩ := Nat.exists_eq_succ_of_ne_zero hpos
        rw [Nat.succ_eq_add_one, Nat.add_comm] at h
        rw [ih.mpr ((firstAt_append_iff hnone).mp h)]
        rfl

theorem bytesIndex_eq_none_iff :
    bytesIndex pattern data = none ↔ ∀ i, ¬ OccursAt pattern data i := by
  constructor
  · intro hnone i
    induction i using Nat.strong_induction_on with
    | _ i ih =>
      intro hoccurs
      exact nomatch hnone.symm.trans (bytesIndex_eq_some_iff.mpr ⟨hoccurs, ih⟩)
  · intro hnone
    cases h : bytesIndex pattern data with
    | none => rfl
    | some i => exact absurd (bytesIndex_eq_some_iff.mp h).occurs (hnone i)

/-- A search finds what it has found already. -/
theorem bytesIndex_append (h : bytesIndex pattern data = some i) (hne : pattern ≠ [])
    (more : Bytes) : bytesIndex pattern (data ++ more) = some i :=
  bytesIndex_eq_some_iff.mpr ((bytesIndex_eq_some_iff.mp h).append hne more)

/-- A search passes over what it has forgotten. -/
theorem bytesIndex_append_of_none
    (hnone : ∀ j < data.length, ¬ OccursAt pattern (data ++ more) j) :
    bytesIndex pattern (data ++ more) = (bytesIndex pattern more).map (data.length + ·) := by
  cases hmore : bytesIndex pattern more with
  | some i =>
    exact bytesIndex_eq_some_iff.mpr
      ((firstAt_append_iff hnone).mpr (bytesIndex_eq_some_iff.mp hmore))
  | none =>
    refine bytesIndex_eq_none_iff.mpr fun i hoccurs => ?_
    by_cases hwithin : i < data.length
    · exact hnone i hwithin hoccurs
    · obtain ⟨k, rfl⟩ := Nat.exists_eq_add_of_le (Nat.le_of_not_lt hwithin)
      exact bytesIndex_eq_none_iff.mp hmore k ((occursAt_append_iff data).mp hoccurs)

/-- A search may forget a part of its input where nothing begins. -/
theorem bytesIndex_forget {stop : ℕ} (hstop : stop ≤ data.length)
    (hnone : ∀ j < stop, ¬ OccursAt pattern (data ++ more) j) :
    bytesIndex pattern (data ++ more) =
      (bytesIndex pattern (data.drop stop ++ more)).map (stop + ·) := by
  have hlength : (data.take stop).length = stop := by
    rw [List.length_take]
    omega
  have hsplit : data ++ more = data.take stop ++ (data.drop stop ++ more) := by
    rw [← List.append_assoc, List.take_append_drop]
  rw [hsplit] at hnone ⊢
  rw [bytesIndex_append_of_none (by rwa [hlength]), hlength]

theorem switchOn_ne_nil : switchOn ≠ [] := List.cons_ne_nil _ _

theorem switchOff_ne_nil : switchOff ≠ [] := List.cons_ne_nil _ _

/-- What follows an occurrence is shorter. -/
theorem length_behind_lt (h : bytesIndex pattern data = some i) (hne : pattern ≠ []) :
    (data.drop (i + pattern.length)).length < data.length := by
  have hlength := (bytesIndex_eq_some_iff.mp h).occurs.length_le hne
  have hpos := List.length_pos_iff.mpr hne
  rw [List.length_drop]
  omega

/-! ### The primary part -/

/-- An output without its stretches on the alternate screen: each from a switch to it through the
next switch back, or to the end if there is none. The output begins on the alternate screen if
`alternate`; whether it ends there is the second component. -/
def primaryPart (alternate : Bool) (data : Bytes) : Bytes × Bool :=
  if alternate then
    match _h : bytesIndex switchOff data with
    | none => ([], true)
    | some index => primaryPart false (data.drop (index + switchOff.length))
  else
    match _h : bytesIndex switchOn data with
    | none => (data, false)
    | some index =>
      let rest := primaryPart true (data.drop (index + switchOn.length))
      (data.take index ++ rest.1, rest.2)
termination_by data.length
decreasing_by
  · exact length_behind_lt _h switchOff_ne_nil
  · exact length_behind_lt _h switchOn_ne_nil

theorem primaryPart_true : primaryPart true data = match bytesIndex switchOff data with
    | none => ([], true)
    | some index => primaryPart false (data.drop (index + switchOff.length)) := by
  rw [primaryPart, if_pos rfl]
  split
  · next h => rw [h]
  · next h => rw [h]

theorem primaryPart_false : primaryPart false data = match bytesIndex switchOn data with
    | none => (data, false)
    | some index => (data.take index ++ (primaryPart true (data.drop (index + switchOn.length))).1,
        (primaryPart true (data.drop (index + switchOn.length))).2) := by
  rw [primaryPart, if_neg (by decide)]
  split
  · next h => rw [h]
  · next h => rw [h]

namespace PrimaryMirror

/-! ### Segments -/

/-- What a read comes to: the segments that are fed, the side of the switch at its end, and the
bytes that are kept. -/
structure Scanned where
  segments : List Bytes
  alternate : Bool
  pending : Bytes

/-- Segments are not empty. -/
def asSegments (data : Bytes) : List Bytes := if data = [] then [] else [data]

/-- The loop of a feed without the terminal. -/
def scanLoop (alternate : Bool) (data : Bytes) : Scanned :=
  if _hdata : data = [] then ⟨[], alternate, []⟩
  else if alternate then
    match _h : bytesIndex switchOff data with
    | none => ⟨[], true, data.drop (data.length - (switchOff.length - 1))⟩
    | some index => scanLoop false (data.drop (index + switchOff.length))
  else
    match _h : bytesIndex switchOn data with
    | none =>
      let stop := data.length - heldSuffix data (switchOn.length - 1)
      ⟨asSegments (data.take stop), false, data.drop stop⟩
    | some index =>
      let rest := scanLoop true (data.drop (index + switchOn.length))
      ⟨asSegments (data.take index) ++ rest.segments, rest.alternate, rest.pending⟩
termination_by data.length
decreasing_by
  · exact length_behind_lt _h switchOff_ne_nil
  · exact length_behind_lt _h switchOn_ne_nil

theorem scanLoop_nil (alternate : Bool) : scanLoop alternate [] = ⟨[], alternate, []⟩ := by
  rw [scanLoop, dif_pos rfl]

theorem scanLoop_true (hdata : data ≠ []) :
    scanLoop true data = match bytesIndex switchOff data with
      | none => ⟨[], true, data.drop (data.length - (switchOff.length - 1))⟩
      | some index => scanLoop false (data.drop (index + switchOff.length)) := by
  rw [scanLoop, dif_neg hdata, if_pos rfl]
  split
  · next h => rw [h]
  · next h => rw [h]

theorem scanLoop_false (hdata : data ≠ []) :
    scanLoop false data = match bytesIndex switchOn data with
      | none =>
        let stop := data.length - heldSuffix data (switchOn.length - 1)
        ⟨asSegments (data.take stop), false, data.drop stop⟩
      | some index =>
        let rest := scanLoop true (data.drop (index + switchOn.length))
        ⟨asSegments (data.take index) ++ rest.segments, rest.alternate, rest.pending⟩ := by
  rw [scanLoop, dif_neg hdata, if_neg (by decide)]
  split
  · next h => rw [h]
  · next h => rw [h]

/-! ### What is withheld -/

theorem heldSuffix_le (data : Bytes) (n : ℕ) : heldSuffix data n ≤ n := by
  induction n with
  | zero => exact le_rfl
  | succ n ih =>
    rw [heldSuffix]
    split
    · exact le_rfl
    · exact ih.trans n.le_succ

/-- What is held is a start of the switch, at the end of the data. -/
theorem heldSuffix_spec (data : Bytes) (n : ℕ) :
    heldSuffix data n ≤ data.length ∧
      data.drop (data.length - heldSuffix data n) = switchOn.take (heldSuffix data n) := by
  induction n with
  | zero => exact ⟨Nat.zero_le _, by simp [heldSuffix]⟩
  | succ n ih =>
    rw [heldSuffix]
    split
    · next h => exact h
    · exact ih

/-- It is the longest one. -/
theorem le_heldSuffix {m : ℕ} (hm : m ≤ n) (hle : m ≤ data.length)
    (hsuffix : data.drop (data.length - m) = switchOn.take m) : m ≤ heldSuffix data n := by
  induction n with
  | zero => exact hm
  | succ n ih =>
    rw [heldSuffix]
    split
    · exact hm
    · next hlonger =>
      refine ih (Nat.le_of_lt_succ (Nat.lt_of_le_of_ne hm ?_))
      rintro rfl
      exact hlonger ⟨hle, hsuffix⟩

theorem flatten_asSegments (data : Bytes) : (asSegments data).flatten = data := by
  unfold asSegments
  split
  · next hempty => rw [hempty]; rfl
  · exact List.flatten_singleton

theorem asSegments_take {stop : ℕ} (hdata : data ≠ []) (hstop : 0 < stop) :
    asSegments (data.take stop) = [data.take stop] := by
  refine if_neg fun hnil => ?_
  rcases List.take_eq_nil_iff.mp hnil with hzero | hempty
  · exact hstop.ne' hzero
  · exact hdata hempty

theorem asSegments_take_zero {stop : ℕ} (hstop : ¬ 0 < stop) :
    asSegments (data.take stop) = [] := by
  rw [Nat.eq_zero_of_not_pos hstop, List.take_zero]
  rfl

/-- What is kept is shorter than a switch, and on the primary screen it is the start of one. -/
theorem scanLoop_pending (alternate : Bool) (data : Bytes) :
    (scanLoop alternate data).pending.length < switchOn.length ∧
      ((scanLoop alternate data).alternate = false →
        (scanLoop alternate data).pending <+: switchOn) := by
  fun_induction scanLoop alternate data with
  | case1 => exact ⟨List.length_pos_iff.mpr switchOn_ne_nil, fun _ => List.nil_prefix⟩
  | case2 data hdata hindex =>
    refine ⟨?_, nofun⟩
    have hswitches : switchOff.length = switchOn.length := rfl
    have hpos := List.length_pos_iff.mpr switchOn_ne_nil
    rw [List.length_drop]
    omega
  | case3 data hdata index hindex ih => exact ih
  | case4 alternate data hdata halternate hindex stop =>
    have hle := heldSuffix_le data (switchOn.length - 1)
    obtain ⟨hlength, hheld⟩ := heldSuffix_spec data (switchOn.length - 1)
    have hpos := List.length_pos_iff.mpr switchOn_ne_nil
    refine ⟨?_, fun _ => ?_⟩
    · rw [List.length_drop]
      omega
    · rw [hheld]
      exact List.take_prefix _ _
  | case5 alternate data hdata halternate index hindex rest ih => exact ih

/-- **A read is taken apart as the whole output would be**, given what is kept of it. -/
theorem primaryPart_append (alternate : Bool) (data more : Bytes) :
    primaryPart alternate (data ++ more) =
      ((scanLoop alternate data).segments.flatten ++
          (primaryPart (scanLoop alternate data).alternate
            ((scanLoop alternate data).pending ++ more)).1,
        (primaryPart (scanLoop alternate data).alternate
          ((scanLoop alternate data).pending ++ more)).2) := by
  fun_induction scanLoop alternate data with
  | case1 => rfl
  | case2 data hdata hindex =>
    -- a switch back that is still to come ends behind the data
    have hnone := bytesIndex_eq_none_iff.mp hindex
    have hforget : ∀ j < data.length - (switchOff.length - 1),
        ¬ OccursAt switchOff (data ++ more) j :=
      fun j hj => not_occursAt_of_held hnone (fun m hm _ _ => Nat.le_sub_one_of_lt hm) (by omega)
    rw [List.flatten_nil, List.nil_append, primaryPart_true, primaryPart_true,
      bytesIndex_forget (Nat.sub_le _ _) hforget]
    cases bytesIndex switchOff
      (data.drop (data.length - (switchOff.length - 1)) ++ more) with
    | none => rfl
    | some index =>
      rw [Option.map_some]
      dsimp only
      rw [Nat.add_assoc, ← List.drop_drop,
        List.drop_append_of_le_length (Nat.sub_le _ _)]
  | case3 data hdata index hindex ih =>
    have hle := (bytesIndex_eq_some_iff.mp hindex).occurs.length_le switchOff_ne_nil
    rw [← ih, primaryPart_true, bytesIndex_append hindex switchOff_ne_nil]
    dsimp only
    rw [List.drop_append_of_le_length hle]
  | case4 alternate data hdata halternate hindex stop =>
    obtain rfl := Bool.eq_false_iff.mpr halternate
    have hnone := bytesIndex_eq_none_iff.mp hindex
    obtain ⟨hheld, -⟩ := heldSuffix_spec data (switchOn.length - 1)
    have hstop : stop ≤ data.length := Nat.sub_le _ _
    have hforget : ∀ j < stop, ¬ OccursAt switchOn (data ++ more) j := by
      intro j hj
      refine not_occursAt_of_held (n := heldSuffix data (switchOn.length - 1)) hnone
        (fun m hm hle hsuffix => ?_) (by omega)
      exact le_heldSuffix (Nat.le_sub_one_of_lt hm) hle hsuffix
    rw [flatten_asSegments, primaryPart_false, primaryPart_false,
      bytesIndex_forget hstop hforget]
    cases bytesIndex switchOn (data.drop stop ++ more) with
    | none =>
      dsimp only [Option.map_none]
      rw [← List.append_assoc, List.take_append_drop]
    | some index =>
      have hlength : (data.take stop).length = stop := by
        rw [List.length_take]
        omega
      have hsplit : data ++ more = data.take stop ++ (data.drop stop ++ more) := by
        rw [← List.append_assoc, List.take_append_drop]
      rw [Option.map_some]
      dsimp only
      rw [hsplit, Nat.add_assoc, ← List.drop_drop, List.drop_left' hlength, List.take_append,
        hlength, List.take_of_length_le (by omega), Nat.add_sub_cancel_left, List.append_assoc]
  | case5 alternate data hdata halternate index hindex rest ih =>
    obtain rfl := Bool.eq_false_iff.mpr halternate
    have hle := (bytesIndex_eq_some_iff.mp hindex).occurs.length_le switchOn_ne_nil
    rw [primaryPart_false, bytesIndex_append hindex switchOn_ne_nil]
    dsimp only
    rw [List.drop_append_of_le_length hle, ih, List.flatten_append, flatten_asSegments,
      List.take_append_of_le_length (by omega), List.append_assoc]

/-! ### Feeds -/

/-- The pieces in which a segment is written. -/
def pieces (data : Bytes) : List Bytes :=
  if data = [] then []
  else data.take archiveObservationChunk :: pieces (data.drop archiveObservationChunk)
termination_by data.length
decreasing_by
  have : 0 < data.length := List.length_pos_iff.mpr ‹_›
  simp only [List.length_drop, archiveObservationChunk]
  omega

theorem flatten_pieces (data : Bytes) : (pieces data).flatten = data := by
  fun_induction pieces data with
  | case1 => rfl
  | case2 data hdata ih => rw [List.flatten_cons, ih, List.take_append_drop]

/-- How a segment changes the flag of the saved cursor. -/
def savedAfter (saved : Bool) (segment : Bytes) : Bool :=
  if (bytesIndex [0x1b, 0x63] segment).isSome then false
  else if (bytesIndex [0x1b, 0x37] segment).isSome then true
  else saved

variable {T : Type*} (ghostty : Ghostty T)

theorem feedPieces_eq (mirror : PrimaryMirror) (primary : T) (calls : ℕ) (data : Bytes) :
    (feedPieces ghostty (fun _ => none) mirror primary calls data).mirror = mirror ∧
      (feedPieces ghostty (fun _ => none) mirror primary calls data).primary =
        (pieces data).foldl ghostty.write primary := by
  fun_induction pieces data generalizing primary calls with
  | case1 =>
    rw [feedPieces, if_pos rfl]
    exact ⟨rfl, rfl⟩
  | case2 data hdata ih =>
    rw [feedPieces, if_neg hdata]
    dsimp only
    rw [← List.take_eq_take_min, ← List.drop_eq_drop_min]
    exact ih _ _

theorem feed_eq (mirror : PrimaryMirror) (primary : T) (calls : ℕ) (data : Bytes) :
    (feed ghostty (fun _ => none) mirror primary calls data).mirror =
        { mirror with savedCursor := savedAfter mirror.savedCursor data } ∧
      (feed ghostty (fun _ => none) mirror primary calls data).primary =
        (pieces data).foldl ghostty.write primary :=
  feedPieces_eq ghostty _ primary calls data

/-- **A feed writes the segments of a read to the terminal**, and tracks the saved cursor in each of
them. -/
theorem feedLoop_eq (mirror : PrimaryMirror) (primary : T) (calls : ℕ) (data : Bytes)
    (hpending : mirror.pending = []) :
    (feedLoop ghostty (fun _ => none) mirror primary calls data).mirror =
        { alternate := (scanLoop mirror.alternate data).alternate
          pending := (scanLoop mirror.alternate data).pending
          savedCursor :=
            (scanLoop mirror.alternate data).segments.foldl savedAfter mirror.savedCursor } ∧
      (feedLoop ghostty (fun _ => none) mirror primary calls data).primary =
        ((scanLoop mirror.alternate data).segments.flatMap pieces).foldl ghostty.write primary := by
  have hkeep : ∀ data : Bytes, data.length < switchOff.length →
      data.drop (data.length - (switchOff.length - 1)) = data := by
    intro data hlength
    rw [Nat.sub_eq_zero_of_le (Nat.le_sub_one_of_lt hlength), List.drop_zero]
  fun_induction feedLoop ghostty (fun _ => none) mirror primary calls data with
  | case1 mirror primary calls =>
    -- the cases of the loop: nothing left, in the alternate screen without and with its end,
    -- in the primary screen without a switch (5 and 6) and with one (8 and 9); no hook fails
    rw [scanLoop_nil]
    refine ⟨?_, rfl⟩
    rw [← hpending]
    rfl
  | case2 mirror primary calls data hdata halternate hindex =>
    rw [halternate, scanLoop_true hdata, hindex]
    refine ⟨?_, rfl⟩
    rw [keep, halternate]
    rfl
  | case3 mirror primary calls data hdata halternate index hindex ih =>
    rw [halternate, scanLoop_true hdata, hindex]
    exact ih hpending
  | case4 mirror primary calls data hdata halternate hindex stop hstop result err herr =>
    cases herr.symm.trans (feedPieces_noHook ghostty _ primary calls (data.take stop)).2
  | case5 mirror primary calls data hdata halternate hindex stop hstop result herr =>
    have halternate := Bool.eq_false_iff.mpr halternate
    obtain ⟨hmirror, hprimary⟩ := feed_eq ghostty mirror primary calls (data.take stop)
    -- what is held back is shorter than a switch, so keeping it drops nothing
    have hheld := (scanLoop_pending false data).1
    rw [halternate]
    rw [scanLoop_false hdata, hindex] at hheld ⊢
    dsimp only at hheld ⊢
    rw [asSegments_take hdata hstop, List.foldl_cons, List.foldl_nil, List.flatMap_singleton]
    refine ⟨?_, hprimary⟩
    rw [show result.mirror = _ from hmirror, keep, hkeep _ hheld, halternate]
  | case6 mirror primary calls data hdata halternate hindex stop hstop =>
    have halternate := Bool.eq_false_iff.mpr halternate
    have hheld := (scanLoop_pending false data).1
    rw [halternate]
    rw [scanLoop_false hdata, hindex] at hheld ⊢
    dsimp only at hheld ⊢
    rw [asSegments_take_zero hstop]
    refine ⟨?_, rfl⟩
    rw [keep, hkeep _ hheld, halternate]
    rfl
  | case7 mirror primary calls data hdata halternate index hindex hpos result err herr =>
    cases herr.symm.trans (feedPieces_noHook ghostty _ primary calls (data.take index)).2
  | case8 mirror primary calls data hdata halternate index hindex hpos result herr ih =>
    have halternate := Bool.eq_false_iff.mpr halternate
    obtain ⟨hmirror, hprimary⟩ := feed_eq ghostty mirror primary calls (data.take index)
    obtain ⟨hrest, hrestPrimary⟩ := ih (by rw [show result.mirror = _ from hmirror]; exact hpending)
    rw [halternate, scanLoop_false hdata, hindex]
    dsimp only
    rw [asSegments_take hdata hpos, List.singleton_append, List.foldl_cons, List.flatMap_cons,
      List.foldl_append]
    refine ⟨?_, ?_⟩
    · rw [hrest, show result.mirror = _ from hmirror]
    · rw [hrestPrimary, show result.primary = _ from hprimary]
  | case9 mirror primary calls data hdata halternate index hindex hpos ih =>
    have halternate := Bool.eq_false_iff.mpr halternate
    rw [halternate, scanLoop_false hdata, hindex]
    dsimp only
    rw [asSegments_take_zero hpos, List.nil_append]
    exact ih hpending

/-! ### Runs -/

/-- A read is scanned behind what was kept of the last one. -/
def scanRead (scanned : Scanned) (read : Bytes) : Scanned :=
  let next := scanLoop scanned.alternate (scanned.pending ++ read)
  ⟨scanned.segments ++ next.segments, next.alternate, next.pending⟩

/-- What the reads of an output come to. -/
def scanReads (reads : List Bytes) : Scanned := reads.foldl scanRead ⟨[], false, []⟩

/-- What the mirror writes to the terminal, piece by piece. -/
def fed (reads : List Bytes) : List Bytes := (scanReads reads).segments.flatMap pieces

/-- A feed for every read, from a fresh mirror. -/
def feeds (primary : T) (reads : List Bytes) : PrimaryMirror × T :=
  reads.foldl (fun state read =>
    let result := feedNoHook ghostty state.1 state.2 read
    (result.mirror, result.primary)) ({}, primary)

/-- What a mirror withholds from the terminal: on the alternate screen nothing. -/
def withheld (mirror : PrimaryMirror) : Bytes := if mirror.alternate then [] else mirror.pending

theorem scanReads_concat (reads : List Bytes) (read : Bytes) :
    scanReads (reads ++ [read]) = scanRead (scanReads reads) read :=
  List.foldl_concat ..

theorem feeds_concat (primary : T) (reads : List Bytes) (read : Bytes) :
    feeds ghostty primary (reads ++ [read]) =
      ((feedNoHook ghostty (feeds ghostty primary reads).1 (feeds ghostty primary reads).2
          read).mirror,
        (feedNoHook ghostty (feeds ghostty primary reads).1 (feeds ghostty primary reads).2
          read).primary) :=
  List.foldl_concat ..

/-- A run is what its reads come to. -/
theorem feeds_eq (primary : T) (reads : List Bytes) :
    feeds ghostty primary reads =
      ({ alternate := (scanReads reads).alternate
         pending := (scanReads reads).pending
         savedCursor := (scanReads reads).segments.foldl savedAfter false },
        (fed reads).foldl ghostty.write primary) := by
  induction reads using List.reverseRecOn with
  | nil => rfl
  | append_singleton reads read ih =>
    obtain ⟨hmirror, hprimary⟩ := feedLoop_eq ghostty
      { (feeds ghostty primary reads).1 with pending := [] } (feeds ghostty primary reads).2 0
      ((feeds ghostty primary reads).1.pending ++ read) rfl
    rw [feeds_concat, feedNoHook, feedWithHook, hmirror, hprimary, ih]
    unfold fed
    rw [scanReads_concat, scanRead]
    dsimp only
    rw [List.foldl_append, List.flatMap_append, List.foldl_append]

/-- The segments of a run, and what is to come of an output, are its primary part. -/
theorem primaryPart_scanReads (reads : List Bytes) (more : Bytes) :
    primaryPart false (reads.flatten ++ more) =
      ((scanReads reads).segments.flatten ++
          (primaryPart (scanReads reads).alternate ((scanReads reads).pending ++ more)).1,
        (primaryPart (scanReads reads).alternate ((scanReads reads).pending ++ more)).2) := by
  induction reads using List.reverseRecOn generalizing more with
  | nil => rfl
  | append_singleton reads read ih =>
    rw [List.flatten_append, List.flatten_singleton, List.append_assoc, ih,
      ← List.append_assoc (scanReads reads).pending, primaryPart_append, scanReads_concat, scanRead]
    dsimp only
    rw [List.flatten_append, List.append_assoc]

theorem pending_scanReads (reads : List Bytes) :
    (scanReads reads).pending.length < switchOn.length ∧
      ((scanReads reads).alternate = false → (scanReads reads).pending <+: switchOn) := by
  induction reads using List.reverseRecOn with
  | nil => exact ⟨List.length_pos_iff.mpr switchOn_ne_nil, fun _ => List.nil_prefix⟩
  | append_singleton reads read ih =>
    rw [scanReads_concat]
    exact scanLoop_pending _ _

/-- Nothing that is shorter than a switch holds one. -/
theorem primaryPart_short {alternate : Bool} (h : data.length < switchOn.length) :
    primaryPart alternate data = (if alternate then [] else data, alternate) := by
  have hshort : ∀ {pattern : Bytes}, pattern.length = switchOn.length →
      bytesIndex pattern data = none := by
    intro pattern hlength
    refine bytesIndex_eq_none_iff.mpr fun i hoccurs => ?_
    have hle := List.IsPrefix.length_le hoccurs
    rw [List.length_drop] at hle
    omega
  cases alternate with
  | true => rw [primaryPart_true, hshort (rfl : switchOff.length = switchOn.length)]; rfl
  | false => rw [primaryPart_false, hshort rfl]; rfl

theorem flatten_fed (reads : List Bytes) :
    (fed reads).flatten = (scanReads reads).segments.flatten := by
  unfold fed
  induction (scanReads reads).segments with
  | nil => rfl
  | cons segment segments ih =>
    rw [List.flatMap_cons, List.flatten_append, flatten_pieces, ih, List.flatten_cons]

/-- **The mirror feeds the primary part of the output, wherever reads end**, up to the start of a
switch, which it withholds. -/
theorem feeds_primaryPart (primary : T) (reads : List Bytes) :
    (feeds ghostty primary reads).2 = (fed reads).foldl ghostty.write primary ∧
      ((fed reads).flatten ++ withheld (feeds ghostty primary reads).1,
        (feeds ghostty primary reads).1.alternate) = primaryPart false reads.flatten ∧
      withheld (feeds ghostty primary reads).1 <+: switchOn ∧
      (withheld (feeds ghostty primary reads).1).length ≤ 7 := by
  obtain ⟨hshort, hstart⟩ := pending_scanReads reads
  have hwhole := primaryPart_scanReads reads []
  rw [List.append_nil, List.append_nil, primaryPart_short hshort] at hwhole
  rw [feeds_eq, hwhole, flatten_fed]
  refine ⟨rfl, rfl, ?_, ?_⟩
  · unfold withheld
    split
    · exact List.nil_prefix
    · next hprimary => exact hstart (Bool.eq_false_iff.mpr hprimary)
  · unfold withheld
    split
    · exact Nat.zero_le 7
    · exact Nat.le_of_lt_succ hshort

end PrimaryMirror

end AgentCockpit.Mux
