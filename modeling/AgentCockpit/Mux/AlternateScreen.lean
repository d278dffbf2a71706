import AgentCockpit.Mux.MirrorSegments
import AgentCockpit.Mux.ModeAgreement
import AgentCockpit.Mux.Pipeline

/-!
# The two trackers of the alternate screen

The mirror looks for the bytes of the 1049 switches in the output. The mode tracker reads escape
sequences, and takes 1049 from among the parameters of one. They agree as long as every sequence
with 1049 is spelled as the mirror looks for it, and what the mirror looks for stands nowhere else.
-/

namespace AgentCockpit.Mux

open AgentCockpit.Core ModeState PrimaryMirror

/-! ### What the tracker reads -/

inductive Heard
  | token (token : ModeToken)
  | dropped (data : Bytes)

def Heard.code : Heard → Bytes
  | .token sequence => sequence.code
  | .dropped data => data

/-- What one read adds, and what is kept for the next one. -/
def heardRead (carried : List Heard × Bytes) (read : Bytes) : List Heard × Bytes :=
  let scanned := modeScanner.scan (carried.2 ++ read)
  let excess := scanned.2.length - maxPendingBytes
  (carried.1 ++ scanned.1.map .token ++ [.dropped (scanned.2.take excess)],
    scanned.2.drop excess)

/-- What the tracker reads of an output. -/
def heard (reads : List Bytes) : List Heard × Bytes := reads.foldl heardRead ([], [])

/-- How an escape sequence sets the private mode 1049. -/
def setsAlternate : ModeToken → Option Bool
  | .csi params final =>
    if (final = 0x68 ∨ final = 0x6c) ∧ params.head? = some 0x3f ∧
        (params.tail.splitOn 0x3b).any fun parameter => atoi parameter = some 1049 then
      some (decide (final = 0x68))
    else none
  | _ => none

/-- The switches: the sequences of 1049 alone. -/
def switchOf : Heard → Option Bool
  | .token (.csi params final) =>
    if params = ascii "?1049" ∧ final = 0x68 then some true
    else if params = ascii "?1049" ∧ final = 0x6c then some false
    else none
  | _ => none

/-- A switch stands at a position. -/
def SwitchAt (data : Bytes) (i : ℕ) : Prop := OccursAt switchOn data i ∨ OccursAt switchOff data i

/-- No switch begins within what is no switch. -/
def Apart : List Heard → Prop
  | [] => True
  | item :: items =>
    (switchOf item = none →
      ∀ j < item.code.length, ¬ SwitchAt (item.code ++ items.flatMap Heard.code) j) ∧ Apart items

/-- Every sequence that sets 1049 is a switch, and switches begin nowhere else. -/
structure SwitchesAlone (reads : List Bytes) : Prop where
  spelled : ∀ token, .token token ∈ (heard reads).1 → setsAlternate token ≠ none →
    switchOf (.token token) ≠ none
  apart : Apart (heard reads).1

/-! ### The output by what is read -/

/-- What is read of one sequence. -/
theorem heard_code {token : ModeToken} (h : token.Valid) :
    heard [token.code] = ([.token token, .dropped []], []) := by
  have hnext : modeScanner.next ([] ++ token.code) = some (token, []) := by
    rw [List.nil_append, ← List.append_nil token.code]
    exact ModeToken.read_code token [] h
  have hscan := modeScanner.scan_of_some hnext
  rw [modeScanner.scan_nil] at hscan
  change heardRead ([], []) token.code = _
  rw [heardRead, hscan]
  dsimp only
  rw [List.take_nil, List.drop_nil, List.map_singleton, List.nil_append, List.singleton_append]

theorem heard_concat (reads : List Bytes) (read : Bytes) :
    heard (reads ++ [read]) = heardRead (heard reads) read :=
  List.foldl_concat ..

/-- The tokens of an input and what is left of it are the input. -/
theorem flatMap_code_scan (data : Bytes) :
    (modeScanner.scan data).1.flatMap ModeToken.code ++ (modeScanner.scan data).2 = data := by
  induction data using Scanner.scan.induct modeScanner with
  | case1 data h => rw [modeScanner.scan_of_none h]; rfl
  | case2 data token rest h ih =>
    obtain ⟨-, hdata⟩ := ModeToken.code_of_read data token rest h
    rw [modeScanner.scan_of_some h, List.flatMap_cons, List.append_assoc, ih, ← hdata]

/-- What is read of an output, and what is kept, are the output. -/
theorem flatMap_code_heard (reads : List Bytes) :
    (heard reads).1.flatMap Heard.code ++ (heard reads).2 = reads.flatten := by
  induction reads using List.reverseRecOn with
  | nil => rfl
  | append_singleton reads read ih =>
    have hscan := flatMap_code_scan ((heard reads).2 ++ read)
    have htokens : ∀ tokens : List ModeToken,
        (tokens.map Heard.token).flatMap Heard.code = tokens.flatMap ModeToken.code :=
      fun tokens => List.flatMap_map ..
    rw [heard_concat, heardRead, List.flatten_append, List.flatten_singleton, ← ih]
    dsimp only
    rw [List.flatMap_append, List.flatMap_append, htokens, List.flatMap_singleton,
      List.append_assoc, List.append_assoc, Heard.code, List.take_append_drop, hscan,
      List.append_assoc]

/-- What has been read stays read. -/
theorem heard_append (reads more : List Bytes) :
    ∃ items, (heard (reads ++ more)).1 = (heard reads).1 ++ items := by
  induction more using List.reverseRecOn with
  | nil => exact ⟨[], by simp⟩
  | append_singleton more read ih =>
    obtain ⟨items, hitems⟩ := ih
    rw [← List.append_assoc, heard_concat, heardRead]
    dsimp only
    rw [hitems, List.append_assoc, List.append_assoc]
    exact ⟨_, rfl⟩

variable {items more : List Heard} {item : Heard} {data rest : Bytes} {alternate : Bool} {i : ℕ}

theorem SwitchAt.append (h : SwitchAt data i) (rest : Bytes) : SwitchAt (data ++ rest) i :=
  h.imp (·.append switchOn_ne_nil rest) (·.append switchOff_ne_nil rest)

/-- What stands apart in a whole does in its first part. -/
theorem Apart.of_append (h : Apart (items ++ more)) : Apart items := by
  induction items with
  | nil => trivial
  | cons item items ih =>
    obtain ⟨hitem, hitems⟩ := h
    refine ⟨fun hnone j hj hswitch => hitem hnone j hj ?_, ih hitems⟩
    rw [List.append_eq, List.flatMap_append, ← List.append_assoc]
    exact hswitch.append _

/-- The condition on an output is one on each of its first parts. -/
theorem SwitchesAlone.of_append {reads more : List Bytes} (h : SwitchesAlone (reads ++ more)) :
    SwitchesAlone reads := by
  obtain ⟨items, hitems⟩ := heard_append reads more
  have hapart := h.apart
  rw [hitems] at hapart
  refine ⟨fun token hmem => h.spelled token ?_, hapart.of_append⟩
  rw [hitems]
  exact List.mem_append_left _ hmem

/-! ### The mirror -/

/-- The side of the switch behind an item. -/
def switchAfter (alternate : Bool) (item : Heard) : Bool := (switchOf item).getD alternate

/-- The text of a switch. -/
def switchText (alternate : Bool) : Bytes := if alternate then switchOn else switchOff

@[simp] theorem length_switchText (enabled : Bool) : (switchText enabled).length = 8 := by
  cases enabled <;> rfl

/-- The side of the switch that the mirror ends on, from either side. -/
theorem primaryPart_snd (alternate : Bool) (data : Bytes) :
    (primaryPart alternate data).2 = match bytesIndex (switchText (!alternate)) data with
      | none => alternate
      | some index => (primaryPart (!alternate) (data.drop (index + 8))).2 := by
  cases alternate with
  | true =>
    rw [primaryPart_true]
    change (match bytesIndex switchOff data with
      | none => ([], true)
      | some index => primaryPart false (data.drop (index + switchOff.length))).2 =
      match bytesIndex switchOff data with
      | none => true
      | some index => (primaryPart false (data.drop (index + 8))).2
    cases bytesIndex switchOff data <;> rfl
  | false =>
    rw [primaryPart_false]
    change _ = match bytesIndex switchOn data with
      | none => false
      | some index => (primaryPart true (data.drop (index + 8))).2
    cases bytesIndex switchOn data <;> rfl

/-- The mirror passes over what the switch it looks for does not begin in. -/
theorem primaryPart_skip
    (h : ∀ j < data.length, ¬ OccursAt (switchText (!alternate)) (data ++ rest) j) :
    (primaryPart alternate (data ++ rest)).2 = (primaryPart alternate rest).2 := by
  rw [primaryPart_snd, primaryPart_snd, bytesIndex_append_of_none h]
  cases bytesIndex (switchText (!alternate)) rest with
  | none => rfl
  | some index =>
    rw [Option.map_some]
    dsimp only
    rw [Nat.add_assoc, List.drop_length_add_append]

/-- The mirror finds a switch that it looks for. The other one is not looked for, and holds no
start of that. -/
theorem primaryPart_switch (alternate enabled : Bool) (rest : Bytes) :
    (primaryPart alternate (switchText enabled ++ rest)).2 = (primaryPart enabled rest).2 := by
  by_cases hsame : alternate = enabled
  · subst hsame
    apply primaryPart_skip
    intro j hj hoccurs
    rw [length_switchText] at hj
    unfold OccursAt at hoccurs
    cases alternate <;> interval_cases j <;>
      simp [switchText, switchOn, switchOff, List.cons_prefix_cons] at hoccurs
  · obtain rfl : enabled = !alternate := Bool.eq_not_of_ne (Ne.symm hsame)
    have hfirst : bytesIndex (switchText (!alternate)) (switchText (!alternate) ++ rest) =
        some 0 := bytesIndex_eq_some_iff.mpr ⟨List.prefix_append _ _, by simp⟩
    rw [primaryPart_snd, hfirst]
    dsimp only
    rw [Nat.zero_add, List.drop_left' (length_switchText _)]

/-- A switch is the sequence of 1049 that turns the mode on, or the one that turns it off. -/
theorem eq_of_switchOf {enabled : Bool} (h : switchOf item = some enabled) :
    item = .token (.csi (ascii "?1049") (if enabled then 0x68 else 0x6c)) := by
  unfold switchOf at h
  split at h
  · split_ifs at h with hon hoff
    · rw [← Option.some.inj h, hon.1, hon.2]
      rfl
    · rw [← Option.some.inj h, hoff.1, hoff.2]
      rfl
  · exact nomatch h

/-- What a switch is to the tracker. -/
theorem code_of_switchOf {enabled : Bool} (h : switchOf item = some enabled) :
    item.code = switchText enabled := by
  rw [eq_of_switchOf h]
  cases enabled <;> rfl

/-- **The mirror ends on the side of the last switch that the tracker reads**, if no switch begins
in anything else. -/
theorem primaryPart_flatMap (h : Apart items) (alternate : Bool) :
    (primaryPart alternate (items.flatMap Heard.code)).2 = items.foldl switchAfter alternate := by
  induction items generalizing alternate with
  | nil =>
    rw [List.flatMap_nil, primaryPart_short (by decide)]
    rfl
  | cons item items ih =>
    obtain ⟨hitem, hitems⟩ := h
    rw [List.flatMap_cons, List.foldl_cons]
    cases hswitch : switchOf item with
    | some enabled =>
      rw [code_of_switchOf hswitch, primaryPart_switch, ih hitems, switchAfter, hswitch]
      rfl
    | none =>
      rw [primaryPart_skip, ih hitems, switchAfter, hswitch]
      · rfl
      · intro j hj hoccurs
        apply hitem hswitch j hj
        cases alternate with
        | true => exact .inr hoccurs
        | false => exact .inl hoccurs

/-! ### The tracker -/

variable {modes : ModeState} {token : ModeToken}

theorem setPrivate_alternateScreen (mode : ℤ) (enabled : Bool) :
    (modes.setPrivate mode enabled).alternateScreen =
      if mode = 1049 then enabled else modes.alternateScreen := by
  unfold setPrivate
  dsimp only
  split
  · rfl
  · split <;> rfl

theorem popKitty_alternateScreen (count : ℕ) :
    (modes.popKitty count).alternateScreen = modes.alternateScreen := by
  induction count generalizing modes with
  | zero => rfl
  | succ count ih =>
    rw [popKitty]
    split
    · rfl
    · exact ih

theorem observeKittyKeyboard_alternateScreen (params : Bytes) :
    (modes.observeKittyKeyboard params).alternateScreen = modes.alternateScreen := by
  unfold observeKittyKeyboard
  split
  · rfl
  · split
    · rfl
    · split
      · rfl
      · split
        · exact popKitty_alternateScreen _
        · rfl

/-- The parameters of a private sequence set 1049 if it is among them. -/
theorem foldl_setPrivate_alternateScreen (parameters : List Bytes) (enabled : Bool) :
    (parameters.foldl (fun modes parameter =>
        match atoi parameter with
        | some mode => modes.setPrivate mode enabled
        | none => modes) modes).alternateScreen =
      if parameters.any fun parameter => atoi parameter = some 1049 then enabled
      else modes.alternateScreen := by
  induction parameters generalizing modes with
  | nil => rfl
  | cons parameter parameters ih =>
    rw [List.foldl_cons, ih, List.any_cons]
    cases hatoi : atoi parameter with
    | none => simp
    | some mode =>
      dsimp only
      rw [setPrivate_alternateScreen]
      by_cases hmode : mode = 1049 <;> simp [hmode]

theorem foldl_insertMode_alternateScreen (parameters : List Bytes) (enabled : Bool) :
    (parameters.foldl (fun modes parameter =>
        if parameter = ascii "4" then { modes with insertMode := enabled } else modes)
      modes).alternateScreen = modes.alternateScreen := by
  refine foldl_view (·.alternateScreen) (fun modes parameter => ?_) parameters modes
  split <;> rfl

/-- A sequence that is no `h` or `l` leaves the alternate screen as it is. -/
theorem observeCSI_alternateScreen_of_ne {params : Bytes} {final : UInt8}
    (h : ¬ (final = 0x68 ∨ final = 0x6c)) :
    (modes.observeCSI params final).alternateScreen = modes.alternateScreen := by
  unfold observeCSI
  dsimp only
  split
  · exact observeKittyKeyboard_alternateScreen params
  · split
    · rfl
    · split
      · rfl
      · rw [if_pos (not_or.mp h)]

/-- An `h` or `l` sets what is among its parameters. -/
theorem observeCSI_of_mode {params : Bytes} {final : UInt8} (h : final = 0x68 ∨ final = 0x6c) :
    modes.observeCSI params final =
      if params.head? = some 0x3f then
        (params.tail.splitOn 0x3b).foldl (fun modes parameter =>
          match atoi parameter with
          | some mode => modes.setPrivate mode (decide (final = 0x68))
          | none => modes) modes
      else
        (params.splitOn 0x3b).foldl (fun modes parameter =>
          if parameter = ascii "4" then { modes with insertMode := decide (final = 0x68) }
          else modes) modes := by
  have hfinal : final ≠ 0x75 ∧ final ≠ 0x72 ∧ final ≠ 0x71 := by
    rcases h with rfl | rfl <;> decide
  unfold observeCSI
  dsimp only
  rw [if_neg hfinal.1, if_neg fun h => hfinal.2.1 h.1, if_neg fun h => hfinal.2.2 h.1]
  exact if_neg fun hne => h.elim hne.1 hne.2

/-- An escape sequence sets the alternate screen as it sets 1049. -/
theorem apply_alternateScreen :
    (modes.apply token).alternateScreen =
      (setsAlternate token).getD modes.alternateScreen := by
  cases token with
  | text byte => rfl
  | osc payload terminator =>
    simp only [ModeState.apply, observeOSC]
    split
    · rfl
    · split <;> rfl
  | escape kind =>
    simp only [ModeState.apply, observeEscape]
    split
    · rfl
    · split
      · rfl
      · split
        · rfl
        · split <;> rfl
  | csi params final =>
    change (modes.observeCSI params final).alternateScreen = _
    rw [setsAlternate]
    by_cases hmode : final = 0x68 ∨ final = 0x6c
    · rw [observeCSI_of_mode hmode]
      by_cases hprivate : params.head? = some 0x3f
      · rw [if_pos hprivate, foldl_setPrivate_alternateScreen]
        by_cases hany : ((params.tail.splitOn 0x3b).any
            fun parameter => atoi parameter = some 1049) = true
        · rw [if_pos hany, if_pos ⟨hmode, hprivate, hany⟩]
          rfl
        · rw [if_neg hany, if_neg fun h => hany h.2.2]
          rfl
      · rw [if_neg hprivate, foldl_insertMode_alternateScreen, if_neg fun h => hprivate h.2.1]
        rfl
    · rw [observeCSI_alternateScreen_of_ne hmode, if_neg fun h => hmode h.1]
      rfl

/-- How what is read sets the alternate screen. -/
def alternateAfter (alternate : Bool) : Heard → Bool
  | .token sequence => (setsAlternate sequence).getD alternate
  | .dropped _ => alternate

theorem foldl_apply_alternateScreen (tokens : List ModeToken) :
    (tokens.foldl ModeState.apply modes).alternateScreen =
      (tokens.map Heard.token).foldl alternateAfter modes.alternateScreen := by
  induction tokens generalizing modes with
  | nil => rfl
  | cons token tokens ih =>
    rw [List.foldl_cons, ih, apply_alternateScreen]
    rfl

/-- **The tracker folds over what it reads**, and keeps what is kept. -/
theorem foldl_observe_alternateScreen (hpending : modes.pending = []) (reads : List Bytes) :
    (reads.foldl observe modes).pending = (heard reads).2 ∧
      (reads.foldl observe modes).alternateScreen =
        (heard reads).1.foldl alternateAfter modes.alternateScreen := by
  induction reads using List.reverseRecOn with
  | nil => exact ⟨hpending, rfl⟩
  | append_singleton reads read ih =>
    obtain ⟨hkept, halternate⟩ := ih
    have hfeed := carried_observe (reads.foldl observe modes) read
    unfold Scanner.feed carried at hfeed
    rw [Prod.mk.injEq] at hfeed
    dsimp only at hfeed
    rw [hkept] at hfeed
    obtain ⟨hmodes, hleft⟩ := hfeed
    rw [List.foldl_concat, heard_concat, heardRead]
    dsimp only
    refine ⟨hleft, ?_⟩
    rw [List.foldl_append, List.foldl_append, ← halternate]
    have hscreen := congrArg ModeState.alternateScreen hmodes
    rw [foldl_apply_alternateScreen] at hscreen
    exact hscreen

/-- A switch sets 1049. -/
theorem setsAlternate_of_switchOf {enabled : Bool} (h : switchOf (.token token) = some enabled) :
    setsAlternate token = some enabled := by
  rw [Heard.token.inj (eq_of_switchOf h)]
  cases enabled <;> decide

/-- Sequences that set 1049 are the switches, if they are spelled as such. -/
theorem foldl_alternateAfter
    (h : ∀ token, .token token ∈ items → setsAlternate token ≠ none →
      switchOf (.token token) ≠ none) (alternate : Bool) :
    items.foldl alternateAfter alternate = items.foldl switchAfter alternate := by
  apply List.foldl_ext
  intro alternate item hmem
  cases item with
  | dropped data => rfl
  | token token =>
    change (setsAlternate token).getD alternate = (switchOf (.token token)).getD alternate
    cases hswitch : switchOf (.token token) with
    | some enabled => rw [setsAlternate_of_switchOf hswitch]
    | none =>
      have hnone : setsAlternate token = none := by
        by_contra hsets
        exact h token hmem hsets hswitch
      rw [hnone]

/-! ### Runs -/

/-- What the reads of a pane carry. -/
def readsOf (reads : List PtyRead) : List Bytes := (reads.map (·.data)).filter (· ≠ [])

theorem readsOf_cons_of_nil {read : PtyRead} (h : read.data = []) (reads : List PtyRead) :
    readsOf (read :: reads) = readsOf reads :=
  List.filter_cons_of_neg (by simpa using h)

theorem readsOf_cons_of_ne_nil {read : PtyRead} (h : read.data ≠ []) (reads : List PtyRead) :
    readsOf (read :: reads) = read.data :: readsOf reads :=
  List.filter_cons_of_pos (by simpa using h)

theorem readsOf_append (reads later : List PtyRead) :
    readsOf (reads ++ later) = readsOf reads ++ readsOf later := by
  unfold readsOf
  rw [List.map_append, List.filter_append]

section Runs

variable {T : Type*} (ghostty : Ghostty T)

/-- The reads of a pane, one after another. -/
def readStep (pipeline : Pipeline T) (read : PtyRead) : Option (Pipeline T) :=
  some (pipeline.pump ghostty read).pipeline

/-- The archive takes what a read feeds. -/
def Archived (pipeline : Pipeline T) (read : PtyRead) : Prop :=
  read.data ≠ [] → pipeline.ArchiveSucceeds ghostty read

/-- A pane whose trackers agree, and have seen no part of a sequence: a new one, and one that is
restored from the modes of another. -/
structure TrackersSeeded (pipeline : Pipeline T) : Prop where
  primary : pipeline.primary ≠ none
  modes : pipeline.modes.pending = []
  mirror : pipeline.primaryMirror.pending = []
  agree : pipeline.primaryMirror.alternate = pipeline.modes.alternateScreen

/-- A pane behind some reads: the tracker has observed all of them, and the mirror is where it
would be if they had been one. -/
structure Followed (start : Pipeline T) (reads : List Bytes) (pipeline : Pipeline T) : Prop where
  primary : pipeline.primary ≠ none
  modes : pipeline.modes = reads.foldl observe start.modes
  short : pipeline.primaryMirror.pending.length < switchOn.length
  mirror : ∀ more, (primaryPart start.primaryMirror.alternate (reads.flatten ++ more)).2 =
    (primaryPart pipeline.primaryMirror.alternate (pipeline.primaryMirror.pending ++ more)).2

variable {ghostty} {start pipeline after : Pipeline T} {reads later : List PtyRead}

/-- The mirror after the bytes of a read. -/
theorem feed_primaryMirror (ghostty : Ghostty T) {display : Display T}
    (h : display.primary ≠ none) (data : Bytes) :
    (display.feed ghostty data).primary ≠ none ∧
      (display.feed ghostty data).primaryMirror.alternate =
        (scanLoop display.primaryMirror.alternate
          (display.primaryMirror.pending ++ data)).alternate ∧
      (display.feed ghostty data).primaryMirror.pending =
        (scanLoop display.primaryMirror.alternate
          (display.primaryMirror.pending ++ data)).pending := by
  obtain ⟨primary, hprimary⟩ := Option.ne_none_iff_exists'.mp h
  obtain ⟨hmirror, -⟩ := feedLoop_eq ghostty { display.primaryMirror with pending := [] } primary 0
    (display.primaryMirror.pending ++ data) rfl
  simp [Display.feed, Display.feedPrimary, hprimary, feedWithHook, hmirror]

/-- The tracker after the bytes of a read. -/
theorem feed_modes (ghostty : Ghostty T) (display : Display T) (data : Bytes) :
    (display.feed ghostty data).modes = display.modes.observe data := by
  simp only [Display.feed, Display.feedPrimary]
  split <;> rfl

theorem TrackersSeeded.followed (h : TrackersSeeded start) : Followed start [] start where
  primary := h.primary
  modes := rfl
  short := by
    rw [h.mirror]
    decide
  mirror more := by rw [h.mirror, List.flatten_nil]

/-- One read is followed by both trackers. -/
theorem Followed.deliver {reads : List Bytes} (h : Followed start reads pipeline) (data : Bytes) :
    Followed start (reads ++ [data]) (pipeline.deliver ghostty data) := by
  obtain ⟨hprimary, halternate, hpending⟩ := feed_primaryMirror ghostty h.primary data
  refine ⟨hprimary, ?_, ?_, fun more => ?_⟩
  · rw [List.foldl_concat, ← h.modes]
    exact feed_modes ghostty _ data
  · change (pipeline.toDisplay.feed ghostty data).primaryMirror.pending.length < _
    rw [hpending]
    exact (scanLoop_pending _ _).1
  · change _ = (primaryPart (pipeline.toDisplay.feed ghostty data).primaryMirror.alternate
      ((pipeline.toDisplay.feed ghostty data).primaryMirror.pending ++ more)).2
    rw [hpending, halternate, List.flatten_append, List.flatten_singleton, List.append_assoc,
      h.mirror, ← List.append_assoc, primaryPart_append]

/-- A run of reads is followed by both trackers. -/
theorem Followed.run {before : List Bytes} (h : Followed start before pipeline)
    (hrun : Run (readStep ghostty) (Archived ghostty) pipeline reads after) :
    Followed start (before ++ readsOf reads) after := by
  induction hrun generalizing before with
  | nil pipeline =>
    rw [show readsOf [] = [] from rfl, List.append_nil]
    exact h
  | @cons read reads pipeline next after hadmits hstep _ ih =>
    obtain rfl := Option.some.inj hstep
    rcases pipeline.pump_cases ghostty read with
      ⟨hdata, hsame, -⟩ | ⟨hdata, hfails, -⟩ | ⟨hdata, -, hdelivered, -⟩
    · rw [readsOf_cons_of_nil hdata]
      rw [hsame] at ih
      exact ih h
    · exact absurd (hadmits hdata) hfails
    · rw [readsOf_cons_of_ne_nil hdata, List.append_cons]
      rw [hdelivered] at ih
      exact ih (h.deliver read.data)

/-- **The trackers agree between escape sequences**, if 1049 is set by switches alone and nothing
but a switch holds the start of one. -/
theorem trackers_agree (hstart : TrackersSeeded start)
    (hswitches : SwitchesAlone (readsOf (reads ++ later)))
    (hrun : Run (readStep ghostty) (Archived ghostty) start reads after)
    (houtside : after.modes.pending = []) :
    after.primaryMirror.alternate = after.modes.alternateScreen := by
  have hfollowed := hstart.followed.run hrun
  rw [List.nil_append] at hfollowed
  rw [readsOf_append] at hswitches
  have hreads := hswitches.of_append
  obtain ⟨hkept, htracker⟩ := foldl_observe_alternateScreen hstart.modes (readsOf reads)
  rw [← hfollowed.modes] at hkept htracker
  -- nothing is kept, so what the tracker has read is the output
  have houtput := flatMap_code_heard (readsOf reads)
  rw [← hkept, houtside, List.append_nil] at houtput
  have hmirror := hfollowed.mirror []
  rw [List.append_nil, List.append_nil, primaryPart_short hfollowed.short, ← houtput,
    primaryPart_flatMap hreads.apart] at hmirror
  rw [htracker, foldl_alternateAfter hreads.spelled, ← hstart.agree]
  exact hmirror.symm

/-- A read of one sequence. -/
theorem run_pump {data : Bytes} (hdata : data ≠ []) :
    Run (readStep ghostty) (Archived ghostty) start [{ data }]
      (start.deliver ghostty data) := by
  have hadmits : Archived ghostty start { data } := fun _ _ _ => rfl
  apply Run.single hadmits
  rcases start.pump_cases ghostty { data } with
    ⟨hempty, -⟩ | ⟨-, hfails, -⟩ | ⟨-, -, hdelivered, -⟩
  · exact absurd hempty hdata
  · exact absurd (hadmits hdata) hfails
  · exact congrArg some hdelivered

end Runs

/-- A new pane. -/
def newPane : Pipeline Bytes := { toDisplay := blank }

theorem trackersSeeded_newPane : TrackersSeeded newPane where
  primary := Option.some_ne_none _
  modes := rfl
  mirror := rfl
  agree := rfl

/-- What the tracker is after a new pane has written one sequence. -/
theorem newPane_deliver_modes {token : ModeToken} (h : token.Valid) :
    (newPane.deliver transcript token.code).modes.pending = [] ∧
      (newPane.deliver transcript token.code).modes.alternateScreen =
        (setsAlternate token).getD false := by
  have hsettled : newPane.modes.pending = [] := rfl
  have hfold := foldl_observe_alternateScreen hsettled [token.code]
  rw [heard_code h] at hfold
  have hmodes : (newPane.deliver transcript token.code).modes = newPane.modes.observe token.code :=
    feed_modes _ _ _
  rw [hmodes]
  exact hfold

/-- A new pane enters the alternate screen. -/
theorem trackers_agree_switch :
    (newPane.deliver transcript switchOn).primaryMirror.alternate =
      (newPane.deliver transcript switchOn).modes.alternateScreen := by
  have hvalid : (ModeToken.csi (ascii "?1049") 0x68).Valid :=
    ⟨isParams_of_all (by decide), by decide⟩
  have hheard : heard [switchOn] = ([.token (.csi (ascii "?1049") 0x68), .dropped []], []) :=
    heard_code hvalid
  have hreads : readsOf ([{ data := switchOn }] ++ []) = [switchOn] := by decide
  have hswitches : SwitchesAlone (readsOf ([{ data := switchOn }] ++ [])) := by
    rw [hreads]
    constructor
    · rw [hheard]
      intro token hmem hsets
      rcases List.mem_cons.mp hmem with htoken | hmem
      · rw [htoken]
        decide
      · exact nomatch List.mem_singleton.mp hmem
    · rw [hheard]
      refine ⟨?_, ?_, trivial⟩
      · intro hnone
        exact absurd hnone (by decide)
      · intro _ j hj
        exact absurd hj (Nat.not_lt_zero j)
  exact trackers_agree trackersSeeded_newPane hswitches (run_pump (by decide))
    (newPane_deliver_modes hvalid).1

/-- **The trackers come apart** on a sequence that sets another mode next to 1049. -/
theorem not_trackers_agree :
    ¬ ∀ (start after : Pipeline Bytes) (reads : List PtyRead), TrackersSeeded start →
      Run (readStep transcript) (Archived transcript) start reads after →
      after.modes.pending = [] → after.primaryMirror.pending = [] →
      after.primaryMirror.alternate = after.modes.alternateScreen := by
  intro h
  have hvalid : (ModeToken.csi (ascii "?1049;25") 0x68).Valid :=
    ⟨isParams_of_all (by decide), by decide⟩
  obtain ⟨hpending, hmodes⟩ := newPane_deliver_modes hvalid
  obtain ⟨-, hmirror, hkept⟩ := feed_primaryMirror transcript trackersSeeded_newPane.primary
    (ModeToken.csi (ascii "?1049;25") 0x68).code
  have hscan : scanLoop false (ModeToken.csi (ascii "?1049;25") 0x68).code =
      ⟨[(ModeToken.csi (ascii "?1049;25") 0x68).code], false, []⟩ := by
    rw [scanLoop_false (ModeToken.code_ne_nil _)]
    rfl
  have hagree := h newPane _ _ trackersSeeded_newPane (run_pump (ModeToken.code_ne_nil _)) hpending
    (hkept.trans (congrArg Scanned.pending hscan))
  rw [hmodes] at hagree
  exact nomatch (hmirror.trans (congrArg Scanned.alternate hscan)).symm.trans hagree

end AgentCockpit.Mux
