import AgentCockpit.Mux.Stream

/-!
# The primary-screen mirror

The formatter of the terminal engine emits the active screen only, so the daemon
keeps a second terminal that is fed the bytes of the primary screen: the mirror
removes the 1049 switches and ignores what the application writes while it is on
the alternate screen. A possible split switch at the end of a read is withheld
until the next one.

The terminal engine is a third-party library, given by the record `Ghostty` of the
operations the daemon calls. The archive hook runs after every piece that reaches
the primary terminal; its failure pattern is a function from the number of the
call, so an absent hook is the pattern that never fails.
-/

namespace AgentCockpit.Mux

/-- The operations of the terminal engine that the daemon calls, over an abstract
terminal state. Errors are texts. -/
structure Ghostty (T : Type*) where
  /-- `Terminal.Write`: feed output bytes to the parser. -/
  write : T → Bytes → T
  /-- `Terminal.Resize`: columns, rows and the pixel size of a cell. The terminal a
  failed resize leaves behind is arbitrary. -/
  resize : T → ℕ → ℕ → ℕ → ℕ → T × Option String
  /-- The formatter's VT dump of the active screen. -/
  format : T → Except String Bytes
  /-- The dump of an isolated clone after it restored the saved cursor. -/
  savedCursorSeed : T → Except String Bytes
  /-- The renderer-specific graphics seed. -/
  graphicsSeed : T → Except String Bytes

/-- The first index at which `pattern` occurs, as `bytes.Index`. -/
def bytesIndex (pattern : Bytes) : Bytes → Option ℕ
  | [] => if pattern = [] then some 0 else none
  | byte :: rest =>
    if pattern.isPrefixOf (byte :: rest) then some 0
    else (bytesIndex pattern rest).map (· + 1)

/-- The switch to the alternate screen, `ESC [ ? 1 0 4 9 h`. -/
def switchOn : Bytes := [0x1b, 0x5b, 0x3f, 0x31, 0x30, 0x34, 0x39, 0x68]

/-- The switch back to the primary screen, `ESC [ ? 1 0 4 9 l`. -/
def switchOff : Bytes := [0x1b, 0x5b, 0x3f, 0x31, 0x30, 0x34, 0x39, 0x6c]

/-- The outcomes of the successive calls of a hook. -/
abbrev Hook := ℕ → Option String

structure PrimaryMirror where
  alternate : Bool := false
  pending : Bytes := []
  savedCursor : Bool := false
  deriving DecidableEq, Repr

/-- What a feed leaves behind: the mirror, the primary terminal, the number of hook
calls made so far, and the hook's error if a call failed. -/
structure FeedResult (T : Type*) where
  mirror : PrimaryMirror
  primary : T
  calls : ℕ
  err : Option String

namespace PrimaryMirror

variable {T : Type*} (ghostty : Ghostty T) (hook : Hook)

/-- The piece size after which the archive observes the primary terminal. -/
def archiveObservationChunk : ℕ := 512

/-- Keep the tail of `data` that may begin a split switch. -/
def keep (mirror : PrimaryMirror) (data : Bytes) : PrimaryMirror :=
  { mirror with pending := data.drop (data.length - (switchOff.length - 1)) }

/-- The loop of `feed`: write one bounded piece, run the hook, continue. -/
def feedPieces (mirror : PrimaryMirror) (primary : T) (calls : ℕ) (data : Bytes) :
    FeedResult T :=
  if data = [] then ⟨mirror, primary, calls, none⟩
  else
    let stop := min archiveObservationChunk data.length
    let primary := ghostty.write primary (data.take stop)
    match hook calls with
    | some err => ⟨mirror, primary, calls + 1, some err⟩
    | none => feedPieces mirror primary (calls + 1) (data.drop stop)
termination_by data.length
decreasing_by
  have : 0 < data.length := List.length_pos_iff.mpr ‹_›
  simp only [List.length_drop, archiveObservationChunk]
  omega

/-- Feed bytes of the primary screen, tracking a saved cursor. -/
def feed (mirror : PrimaryMirror) (primary : T) (calls : ℕ) (data : Bytes) : FeedResult T :=
  let saved := if (bytesIndex [0x1b, 0x37] data).isSome then true else mirror.savedCursor
  let saved := if (bytesIndex [0x1b, 0x63] data).isSome then false else saved
  feedPieces ghostty hook { mirror with savedCursor := saved } primary calls data

/-- The longest proper prefix of the switch, of at most `n` bytes, that ends
`data`; zero if there is none. -/
def heldSuffix (data : Bytes) : ℕ → ℕ
  | 0 => 0
  | n + 1 =>
    if n + 1 ≤ data.length ∧ data.drop (data.length - (n + 1)) = switchOn.take (n + 1) then n + 1
    else heldSuffix data n

theorem length_switch_pos : 0 < switchOn.length ∧ 0 < switchOff.length := by decide

/-- The loop of `FeedWithHook`, on the bytes not yet consumed. -/
def feedLoop (mirror : PrimaryMirror) (primary : T) (calls : ℕ) (data : Bytes) : FeedResult T :=
  if _hdata : data = [] then ⟨mirror, primary, calls, none⟩
  else if mirror.alternate then
    match bytesIndex switchOff data with
    | none => ⟨mirror.keep data, primary, calls, none⟩
    | some index =>
      feedLoop { mirror with alternate := false } primary calls
        (data.drop (index + switchOff.length))
  else
    match bytesIndex switchOn data with
    | none =>
      -- Retain a possible split switch, but feed the confirmed bytes before it.
      let stop := data.length - heldSuffix data (switchOn.length - 1)
      if 0 < stop then
        let result := feed ghostty hook mirror primary calls (data.take stop)
        match result.err with
        | some _ => result
        | none => { result with mirror := result.mirror.keep (data.drop stop) }
      else ⟨mirror.keep (data.drop stop), primary, calls, none⟩
    | some index =>
      if 0 < index then
        let result := feed ghostty hook mirror primary calls (data.take index)
        match result.err with
        | some _ => result
        | none =>
          feedLoop { result.mirror with alternate := true } result.primary result.calls
            (data.drop (index + switchOn.length))
      else
        feedLoop { mirror with alternate := true } primary calls
          (data.drop (index + switchOn.length))
termination_by data.length
decreasing_by
  all_goals
    have := length_switch_pos
    have : 0 < data.length := List.length_pos_iff.mpr _hdata
    simp only [List.length_drop]
    omega

/-- Feed one read to the primary terminal, running `hook` after each piece. -/
def feedWithHook (mirror : PrimaryMirror) (primary : T) (data : Bytes) : FeedResult T :=
  feedLoop ghostty hook { mirror with pending := [] } primary 0 (mirror.pending ++ data)

/-- The feed without a hook. -/
def feedNoHook (mirror : PrimaryMirror) (primary : T) (data : Bytes) : FeedResult T :=
  feedWithHook ghostty (fun _ => none) mirror primary data

/-- How a feed with a hook relates to the same feed without one, when the hook has
been called `calls` times before: either no call fails and the two agree, or a call
that the feed without a hook makes fails and the feed reports it. -/
inductive HookOutcome (hook : Hook) (calls : ℕ) (result plain : FeedResult T) : Prop
  | succeeds (hcalls : calls ≤ plain.calls) (herr : plain.err = none) (heq : result = plain)
      (hhook : ∀ k, calls ≤ k → k < plain.calls → hook k = none)
  | fails (hcalls : calls ≤ plain.calls) (herr : plain.err = none) (hresult : result.err ≠ none)
      (hhook : ∃ k, calls ≤ k ∧ k < plain.calls ∧ hook k ≠ none)

variable {hook}

namespace HookOutcome

variable {result plain : FeedResult T} {calls : ℕ}

theorem calls_le (h : HookOutcome hook calls result plain) : calls ≤ plain.calls := by
  cases h <;> assumption

theorem plain_err (h : HookOutcome hook calls result plain) : plain.err = none := by
  cases h <;> assumption

theorem refl (hook : Hook) (result : FeedResult T) (herr : result.err = none) :
    HookOutcome hook result.calls result result :=
  .succeeds le_rfl herr rfl fun k hge hlt => absurd hlt (by omega)

/-- A hook call that fails now is a call that the feed without a hook makes. -/
theorem of_call_fails {err : String} (hcall : hook calls = some err) (hresult : result.err ≠ none)
    (hcalls : calls + 1 ≤ plain.calls) (herr : plain.err = none) :
    HookOutcome hook calls result plain :=
  .fails (by omega) herr hresult ⟨calls, le_rfl, by omega, by simp [hcall]⟩

/-- Outcomes compose along two consecutive stretches of calls. -/
theorem trans {mid : ℕ} (hmid : calls ≤ mid)
    (hbefore : ∀ k, calls ≤ k → k < mid → hook k = none)
    (h : HookOutcome hook mid result plain) : HookOutcome hook calls result plain := by
  cases h with
  | succeeds hcalls herr heq hhook =>
    refine .succeeds (by omega) herr heq fun k hge hlt => ?_
    by_cases hk : k < mid
    · exact hbefore k hge hk
    · exact hhook k (by omega) hlt
  | fails hcalls herr hresult hhook =>
    obtain ⟨k, hge, hlt, hne⟩ := hhook
    exact .fails (by omega) herr hresult ⟨k, by omega, hlt, hne⟩

/-- A failure in a first stretch is a failure of the whole. -/
theorem of_first_fails {mid : ℕ} (hmid : mid ≤ plain.calls) (herr : plain.err = none)
    (hresult : result.err ≠ none) (hhook : ∃ k, calls ≤ k ∧ k < mid ∧ hook k ≠ none) :
    HookOutcome hook calls result plain := by
  obtain ⟨k, hge, hlt, hne⟩ := hhook
  exact .fails (by omega) herr hresult ⟨k, hge, by omega, hne⟩

theorem err_iff (h : HookOutcome hook calls result plain) :
    result.err = none ↔ ∀ k, calls ≤ k → k < plain.calls → hook k = none := by
  cases h with
  | succeeds _ herr heq hhook => exact ⟨fun _ => hhook, fun _ => heq ▸ herr⟩
  | fails _ _ hresult hhook =>
    obtain ⟨k, hge, hlt, hne⟩ := hhook
    exact ⟨fun hnone => absurd hnone hresult, fun hall => absurd (hall k hge hlt) hne⟩

theorem exists_fails (h : HookOutcome hook calls result plain) (herr : result.err ≠ none) :
    ∃ k, calls ≤ k ∧ k < plain.calls ∧ hook k ≠ none := by
  cases h with
  | succeeds _ hnone heq _ => exact absurd (heq ▸ hnone) herr
  | fails _ _ _ hhook => exact hhook

theorem eq_of_err (h : HookOutcome hook calls result plain) (herr : result.err = none) :
    result = plain := by
  cases h with
  | succeeds _ _ heq _ => exact heq
  | fails _ _ hresult _ => exact absurd herr hresult

end HookOutcome

/-- Without a hook the piece loop never fails, and it only adds hook calls. -/
theorem feedPieces_noHook (mirror : PrimaryMirror) (primary : T) (calls : ℕ) (data : Bytes) :
    calls ≤ (feedPieces ghostty (fun _ => none) mirror primary calls data).calls ∧
      (feedPieces ghostty (fun _ => none) mirror primary calls data).err = none := by
  fun_induction feedPieces ghostty (fun _ => none) mirror primary calls data with
  | case1 => exact ⟨le_rfl, rfl⟩
  | case2 => contradiction
  | case3 _ _ _ _ _ _ _ ih => exact ⟨by omega, ih.2⟩

theorem feedPieces_outcome (mirror : PrimaryMirror) (primary : T) (calls : ℕ) (data : Bytes) :
    HookOutcome hook calls (feedPieces ghostty hook mirror primary calls data)
      (feedPieces ghostty (fun _ => none) mirror primary calls data) := by
  fun_induction feedPieces ghostty hook mirror primary calls data with
  | case1 primary calls =>
    rw [feedPieces, if_pos rfl]
    exact .refl hook ⟨mirror, primary, calls, none⟩ rfl
  | case2 primary calls data hdata stop next err hcall =>
    rw [feedPieces.eq_def ghostty (fun _ => none), if_neg hdata]
    obtain ⟨hcalls, herr⟩ := feedPieces_noHook ghostty mirror next (calls + 1) (data.drop stop)
    exact .of_call_fails hcall (by simp) hcalls herr
  | case3 primary calls data hdata stop next hcall ih =>
    rw [feedPieces.eq_def ghostty (fun _ => none), if_neg hdata]
    refine ih.trans (Nat.le_succ calls) fun k hge hlt => ?_
    rw [show k = calls by omega, hcall]

variable (hook) in
theorem feed_outcome (mirror : PrimaryMirror) (primary : T) (calls : ℕ) (data : Bytes) :
    HookOutcome hook calls (feed ghostty hook mirror primary calls data)
      (feed ghostty (fun _ => none) mirror primary calls data) :=
  feedPieces_outcome ghostty _ primary calls data

/-- Without a hook the feed loop never fails, and it only adds hook calls. -/
theorem feedLoop_noHook (mirror : PrimaryMirror) (primary : T) (calls : ℕ) (data : Bytes) :
    calls ≤ (feedLoop ghostty (fun _ => none) mirror primary calls data).calls ∧
      (feedLoop ghostty (fun _ => none) mirror primary calls data).err = none := by
  have hfeed : ∀ (mirror : PrimaryMirror) (primary : T) (calls : ℕ) (data : Bytes),
      calls ≤ (feed ghostty (fun _ => none) mirror primary calls data).calls ∧
        (feed ghostty (fun _ => none) mirror primary calls data).err = none :=
    fun mirror primary calls data => feedPieces_noHook ghostty _ primary calls data
  fun_induction feedLoop ghostty (fun _ => none) mirror primary calls data with
  | case1 | case2 => exact ⟨le_rfl, rfl⟩
  | case3 _ _ _ _ _ _ _ _ ih => exact ih
  | case4 mirror primary calls data _ _ _ stop _ result err herr =>
    have := (hfeed mirror primary calls (data.take stop)).2
    simp [result, this] at herr
  | case5 mirror primary calls data _ _ _ stop _ result herr =>
    exact hfeed mirror primary calls (data.take stop)
  | case6 => exact ⟨le_rfl, rfl⟩
  | case7 mirror primary calls data _ _ index _ _ result err herr =>
    have := (hfeed mirror primary calls (data.take index)).2
    simp [result, this] at herr
  | case8 mirror primary calls data _ _ index _ _ result herr ih =>
    have := (hfeed mirror primary calls (data.take index)).1
    exact ⟨this.trans ih.1, ih.2⟩
  | case9 _ _ _ _ _ _ _ _ _ ih => exact ih

variable (hook) in
theorem feedLoop_outcome (mirror : PrimaryMirror) (primary : T) (calls : ℕ) (data : Bytes) :
    HookOutcome hook calls (feedLoop ghostty hook mirror primary calls data)
      (feedLoop ghostty (fun _ => none) mirror primary calls data) := by
  fun_induction feedLoop ghostty hook mirror primary calls data with
  | case1 mirror primary calls =>
    rw [feedLoop, dif_pos rfl]
    exact .refl hook ⟨mirror, primary, calls, none⟩ rfl
  | case2 mirror primary calls data hdata halt hindex =>
    rw [feedLoop.eq_def ghostty (fun _ => none), dif_neg hdata, if_pos halt]
    simp only [hindex]
    exact .refl hook ⟨mirror.keep data, primary, calls, none⟩ rfl
  | case3 mirror primary calls data hdata halt index hindex ih =>
    rw [feedLoop.eq_def ghostty (fun _ => none), dif_neg hdata, if_pos halt]
    simp only [hindex]
    exact ih
  | case4 mirror primary calls data hdata halt hindex stop hstop result err herr =>
    have hfeed := feed_outcome ghostty hook mirror primary calls (data.take stop)
    rw [feedLoop.eq_def ghostty (fun _ => none), dif_neg hdata, if_neg halt]
    simp only [hindex]
    rw [if_pos hstop]
    simp only [stop] at hfeed
    simp only [hfeed.plain_err]
    have hfails : result.err ≠ none := herr ▸ Option.some_ne_none err
    exact .of_first_fails le_rfl rfl hfails (hfeed.exists_fails hfails)
  | case5 mirror primary calls data hdata halt hindex stop hstop result herr =>
    have hfeed := feed_outcome ghostty hook mirror primary calls (data.take stop)
    rw [feedLoop.eq_def ghostty (fun _ => none), dif_neg hdata, if_neg halt]
    simp only [hindex]
    rw [if_pos hstop]
    simp only [stop] at hfeed
    simp only [hfeed.plain_err]
    refine .succeeds hfeed.calls_le rfl ?_ (hfeed.err_iff.mp herr)
    simp only [result, stop, hfeed.eq_of_err herr, hfeed.plain_err]
  | case6 mirror primary calls data hdata halt hindex stop hstop =>
    rw [feedLoop.eq_def ghostty (fun _ => none), dif_neg hdata, if_neg halt]
    simp only [hindex]
    rw [if_neg hstop]
    exact .refl hook ⟨mirror.keep (data.drop stop), primary, calls, none⟩ rfl
  | case7 mirror primary calls data hdata halt index hindex hpos result err herr =>
    have hfeed := feed_outcome ghostty hook mirror primary calls (data.take index)
    rw [feedLoop.eq_def ghostty (fun _ => none), dif_neg hdata, if_neg halt]
    simp only [hindex]
    rw [if_pos hpos]
    simp only [hfeed.plain_err]
    -- the hook fails here; without it the loop goes on behind the switch
    obtain ⟨hcalls, hnone⟩ := feedLoop_noHook ghostty
      { (feed ghostty (fun _ => none) mirror primary calls (data.take index)).mirror with
        alternate := true }
      (feed ghostty (fun _ => none) mirror primary calls (data.take index)).primary
      (feed ghostty (fun _ => none) mirror primary calls (data.take index)).calls
      (data.drop (index + switchOn.length))
    have hfails : result.err ≠ none := herr ▸ Option.some_ne_none err
    exact .of_first_fails hcalls hnone hfails (hfeed.exists_fails hfails)
  | case8 mirror primary calls data hdata halt index hindex hpos result herr ih =>
    have hfeed := feed_outcome ghostty hook mirror primary calls (data.take index)
    rw [feedLoop.eq_def ghostty (fun _ => none), dif_neg hdata, if_neg halt]
    simp only [hindex]
    rw [if_pos hpos]
    simp only [hfeed.plain_err]
    have heq : result = feed ghostty (fun _ => none) mirror primary calls (data.take index) :=
      hfeed.eq_of_err herr
    rw [← heq] at hfeed ⊢
    exact ih.trans hfeed.calls_le (hfeed.err_iff.mp herr)
  | case9 mirror primary calls data hdata halt index hindex hpos ih =>
    rw [feedLoop.eq_def ghostty (fun _ => none), dif_neg hdata, if_neg halt]
    simp only [hindex]
    rw [if_neg hpos]
    exact ih

/-- A feed none of whose hook calls fails is the feed without a hook. -/
theorem feedWithHook_eq {mirror : PrimaryMirror} {primary : T} {data : Bytes}
    (herr : (feedWithHook ghostty hook mirror primary data).err = none) :
    feedWithHook ghostty hook mirror primary data = feedNoHook ghostty mirror primary data :=
  (feedLoop_outcome ghostty hook _ primary 0 _).eq_of_err herr

/-- A feed fails exactly when one of the hook calls that the feed without a hook
makes does. -/
theorem feedWithHook_err_iff (mirror : PrimaryMirror) (primary : T) (data : Bytes) :
    (feedWithHook ghostty hook mirror primary data).err = none ↔
      ∀ k, k < (feedNoHook ghostty mirror primary data).calls → hook k = none := by
  have h := (feedLoop_outcome ghostty hook { mirror with pending := [] } primary 0
    (mirror.pending ++ data)).err_iff
  simp only [Nat.zero_le, forall_const] at h
  exact h

end PrimaryMirror

end AgentCockpit.Mux
