import AgentCockpit.Mux.ModeAgreement

/-!
# The modes of an attach

A client that attaches is sent the prefix of the tracked modes, and then what the application
writes. The prefix restores what it shows: a fresh scanner that reads it has the same modes. What
it leaves out is the stack of the keyboard flags, so an application that pops flags which it pushed
before the attach has other flags in the client.

## Main results

* `attach_restores_iff` — **an attach restores the modes for good exactly with no pushed flags**
-/

namespace AgentCockpit.Mux

open AgentCockpit.Core ModeState

/-- The setting of a private mode in a fresh terminal: wrapping and the cursor are on. -/
def defaultMode (mode : ℤ) : Bool := mode = 7 ∨ mode = 25

/-- What an attach restores. -/
structure RestoredModes where
  alternateScreen : Bool
  privateModes : List Bool
  insertMode : Bool
  scrollRegion : Bytes
  cursorShape : Bytes
  keypadApp : Bool
  kittyFlags : Bytes
  title : Bytes
  deriving DecidableEq

namespace ModeState

def restored (modes : ModeState) : RestoredModes where
  alternateScreen := modes.alternateScreen
  privateModes := restoredModes.map fun mode =>
    (modes.privateModes mode).getD (defaultMode mode)
  insertMode := modes.insertMode
  scrollRegion := modes.scrollRegion
  cursorShape := modes.cursorShape
  keypadApp := modes.keypadApp
  kittyFlags := modes.kittyFlags
  title := modes.title

variable {a b modes : ModeState}

/-! ### The sequences of a prefix -/

/-- The sequence that sets or resets a private mode. -/
def privateToken (mode : ℤ) (enabled : Bool) : ModeToken :=
  .csi (0x3f :: decimalBytes mode) (if enabled then 0x68 else 0x6c)

def restoredTokens (modes : ModeState) (mode : ℤ) : List ModeToken :=
  match modes.privateModes mode with
  | none => []
  | some enabled =>
    if ¬ enabled ∧ mode ≠ 7 ∧ mode ≠ 25 then [] else [privateToken mode enabled]

/-- The sequences of a prefix, in their order. -/
def prefixTokens (modes : ModeState) : List ModeToken :=
  (if modes.alternateScreen then [privateToken 1049 true] else []) ++
  restoredModes.flatMap modes.restoredTokens ++
  (if modes.insertMode then [.csi (ascii "4") 0x68] else []) ++
  (if modes.scrollRegion = [] then [] else [.csi modes.scrollRegion 0x72]) ++
  (if modes.cursorShape = [] then [] else [.csi modes.cursorShape 0x71]) ++
  (if modes.keypadApp then [.escape 0x3d] else []) ++
  (if modes.kittyFlags = [] then [] else [.csi (0x3d :: modes.kittyFlags) 0x75]) ++
  (if modes.title = [] then [] else [.osc (ascii "2;" ++ modes.title) [bel]]) ++
  [privateToken 2026 false]

theorem code_privateToken (mode : ℤ) (enabled : Bool) :
    (privateToken mode enabled).code = privateMode mode enabled := by
  cases enabled <;> rfl

theorem flatMap_code_ite (c : Prop) [Decidable c] (token : ModeToken) (text : Bytes)
    (h : token.code = text) :
    (if c then [token] else []).flatMap ModeToken.code = if c then text else [] := by
  split
  · rw [List.flatMap_singleton, h]
  · rfl

theorem flatMap_code_wrapped (text introducer terminator : Bytes) (token : ModeToken)
    (h : token.code = introducer ++ text ++ terminator) :
    (if text = [] then [] else [token]).flatMap ModeToken.code =
      wrapped introducer text terminator := by
  unfold wrapped
  split
  · rfl
  · rw [List.flatMap_singleton, h]

theorem prefixBytes_eq (modes : ModeState) :
    modes.prefixBytes = modes.prefixTokens.flatMap ModeToken.code := by
  have hmodes : restoredModes.flatMap modes.restoredMode =
      (restoredModes.flatMap modes.restoredTokens).flatMap ModeToken.code := by
    rw [List.flatMap_assoc]
    refine List.flatMap_congr fun mode _ => ?_
    unfold restoredMode restoredTokens
    cases modes.privateModes mode with
    | none => rfl
    | some enabled =>
      dsimp only
      split
      · rfl
      · rw [List.flatMap_singleton, code_privateToken]
  unfold prefixBytes prefixTokens
  simp only [List.flatMap_append]
  rw [hmodes, flatMap_code_ite _ _ _ (code_privateToken 1049 true),
    flatMap_code_ite _ _ (ascii "\x1b[4h") rfl,
    flatMap_code_wrapped _ (ascii "\x1b[") (ascii "r") _ rfl,
    flatMap_code_wrapped _ (ascii "\x1b[") (ascii "q") _ rfl,
    flatMap_code_ite _ _ (ascii "\x1b=") rfl,
    flatMap_code_wrapped _ (ascii "\x1b[=") (ascii "u") _ rfl,
    flatMap_code_wrapped _ (ascii "\x1b]2;") [bel] _ rfl]
  rfl

theorem isParams_decimalBytes {mode : ℤ} (h : mode ∈ 1049 :: 2026 :: restoredModes) :
    IsParams (0x3f :: decimalBytes mode) := by
  have hall : ∀ mode ∈ 1049 :: 2026 :: restoredModes,
      (0x3f :: decimalBytes mode).all fun byte => !isFinal byte := by decide +kernel
  exact isParams_of_all (hall mode h)

theorem valid_privateToken {mode : ℤ} (h : mode ∈ 1049 :: 2026 :: restoredModes)
    (enabled : Bool) : (privateToken mode enabled).Valid :=
  ⟨isParams_decimalBytes h, by cases enabled <;> rfl⟩

theorem valid_title {title : Bytes} (h : oscEnd (title ++ [bel]) = some title.length) :
    ModeToken.Valid (.osc (ascii "2;" ++ title) [bel]) := by
  refine ⟨.inl rfl, ?_⟩
  have hfound : ∀ byte, byte ≠ bel → byte ≠ esc → ∀ {body : Bytes} {stop : ℕ},
      oscEnd body = some stop → oscEnd (byte :: body) = some (stop + 1) := by
    intro byte hbel hesc body stop hbody
    rw [oscEnd, if_neg hbel, if_neg (fun hbyte => hesc hbyte.1), hbody]
    rfl
  exact hfound 0x32 (by decide) (by decide) (hfound 0x3b (by decide) (by decide) h)

/-- The sequences of a prefix stand for their bytes. -/
theorem Readable.valid (h : Readable modes) : ∀ token ∈ modes.prefixTokens, token.Valid := by
  have hite : ∀ (c : Prop) [Decidable c] {token : ModeToken}, token.Valid →
      ∀ other ∈ (if c then [token] else []), other.Valid := by
    intro c _ token htoken
    split
    · exact List.forall_mem_singleton.mpr htoken
    · exact nofun
  have hunless : ∀ (text : Bytes) {token : ModeToken}, (text ≠ [] → token.Valid) →
      ∀ other ∈ (if text = [] then [] else [token]), other.Valid := by
    intro text token htoken
    split
    · exact nofun
    · next hne => exact List.forall_mem_singleton.mpr (htoken hne)
  have hmodes : ∀ token ∈ restoredModes.flatMap modes.restoredTokens, token.Valid := by
    intro token htoken
    obtain ⟨mode, hmode, hmem⟩ := List.mem_flatMap.mp htoken
    have hlisted : mode ∈ 1049 :: 2026 :: restoredModes := by simp [hmode]
    unfold restoredTokens at hmem
    split at hmem
    · exact nomatch hmem
    · split at hmem
      · exact nomatch hmem
      · rw [List.mem_singleton.mp hmem]
        exact valid_privateToken hlisted _
  unfold prefixTokens
  simp only [List.forall_mem_append]
  refine ⟨⟨⟨⟨⟨⟨⟨⟨?_, hmodes⟩, ?_⟩, ?_⟩, ?_⟩, ?_⟩, ?_⟩, ?_⟩, ?_⟩
  · exact hite _ (valid_privateToken (by simp) true)
  · exact hite _ ⟨isParams_of_all (by decide), by decide⟩
  · exact hunless _ fun _ => ⟨h.scrollRegion, by decide⟩
  · exact hunless _ fun _ => ⟨h.cursorShape, by decide⟩
  · exact hite _ ⟨by decide, by decide⟩
  · exact hunless _ fun _ => ⟨List.forall_mem_cons.mpr ⟨by decide, h.kittyFlags⟩, by decide⟩
  · exact hunless _ fun _ => valid_title h.title
  · exact List.forall_mem_singleton.mpr (valid_privateToken (by simp) false)

/-- **A prefix is read back**: its escape sequences, and nothing else. -/
theorem scan_prefixBytes (h : Readable modes) :
    modeScanner.scan modes.prefixBytes = (modes.prefixTokens, []) := by
  rw [prefixBytes_eq]
  exact modeScanner.scan_flatMap _ fun token htoken rest =>
    ModeToken.read_code token rest (h.valid token htoken)

/-! ### The modes after a prefix -/

theorem apply_privateToken {mode : ℤ} (h : mode ∈ 1049 :: 2026 :: restoredModes)
    (enabled : Bool) (modes : ModeState) :
    modes.apply (privateToken mode enabled) = modes.setPrivate mode enabled := by
  have hsplit : ∀ mode ∈ 1049 :: 2026 :: restoredModes,
      (decimalBytes mode).splitOn 0x3b = [decimalBytes mode] ∧
        atoi (decimalBytes mode) = some mode := by decide +kernel
  obtain ⟨hone, hvalue⟩ := hsplit mode h
  have hfold (step : ModeState → Bytes → ModeState) :
      ((decimalBytes mode).splitOn 0x3b).foldl step modes = step modes (decimalBytes mode) := by
    rw [hone, List.foldl_cons, List.foldl_nil]
  cases enabled with
  | true =>
    refine (hfold _).trans ?_
    simp only [hvalue]
    rfl
  | false =>
    refine (hfold _).trans ?_
    simp only [hvalue]
    rfl

section Prefix

variable {target : ModeState}

theorem foldl_insertMode (modes : ModeState) (h : target.insertMode = false) :
    (if modes.insertMode then [.csi (ascii "4") 0x68] else []).foldl ModeState.apply target =
      { target with insertMode := modes.insertMode } := by
  split
  · next hset => rw [hset]; rfl
  · next hset => rw [Bool.eq_false_iff.mpr hset, ← h]; rfl

theorem foldl_scrollRegion (hmodes : Readable modes) (h : target.scrollRegion = []) :
    (if modes.scrollRegion = [] then [] else [.csi modes.scrollRegion 0x72]).foldl
      ModeState.apply target = { target with scrollRegion := modes.scrollRegion } := by
  split
  · next hset => rw [hset, ← h]; rfl
  · simp only [List.foldl_cons, List.foldl_nil, ModeState.apply, ModeState.observeCSI]
    rw [if_neg (by decide), if_pos ⟨trivial, hmodes.notPrivate⟩]

theorem foldl_cursorShape (hmodes : Readable modes) (h : target.cursorShape = []) :
    (if modes.cursorShape = [] then [] else [.csi modes.cursorShape 0x71]).foldl
      ModeState.apply target = { target with cursorShape := modes.cursorShape } := by
  split
  · next hset => rw [hset, ← h]; rfl
  · next hset =>
    simp only [List.foldl_cons, List.foldl_nil, ModeState.apply, ModeState.observeCSI]
    rw [if_neg (by decide), if_neg (fun h => absurd h.1 (by decide)),
      if_pos ⟨trivial, hmodes.space hset⟩]

theorem foldl_keypadApp (modes : ModeState) (h : target.keypadApp = false) :
    (if modes.keypadApp then [.escape 0x3d] else []).foldl ModeState.apply target =
      { target with keypadApp := modes.keypadApp } := by
  split
  · next hset => rw [hset]; rfl
  · next hset => rw [Bool.eq_false_iff.mpr hset, ← h]; rfl

theorem foldl_kittyFlags (modes : ModeState) (h : target.kittyFlags = []) :
    (if modes.kittyFlags = [] then [] else [.csi (0x3d :: modes.kittyFlags) 0x75]).foldl
      ModeState.apply target = { target with kittyFlags := modes.kittyFlags } := by
  split
  · next hset => rw [hset, ← h]; rfl
  · rw [List.foldl_cons, List.foldl_nil, apply_set]

theorem foldl_title (modes : ModeState) (h : target.title = []) :
    (if modes.title = [] then [] else [.osc (ascii "2;" ++ modes.title) [bel]]).foldl
      ModeState.apply target = { target with title := modes.title } := by
  split
  · next hset => rw [hset, ← h]; rfl
  · have hcode : (ascii "2;" ++ modes.title).takeWhile (· ≠ 0x3b) = ascii "2" := by
      simp [ascii]
    simp only [List.foldl_cons, List.foldl_nil, ModeState.apply, ModeState.observeOSC, hcode]
    rfl

end Prefix

theorem setPrivate_privateModes (target : ModeState) (mode other : ℤ) (enabled : Bool) :
    (target.setPrivate mode enabled).privateModes other =
      if other = mode then some enabled else target.privateModes other := by
  simp only [ModeState.setPrivate]
  split
  · rfl
  · split <;> rfl

/-- Setting a private mode, but not the alternate screen, changes the private modes only. -/
theorem setPrivate_eq {mode : ℤ} (h : mode ≠ 1049) (target : ModeState) (enabled : Bool) :
    ∃ privateModes bracketedPaste,
      target.setPrivate mode enabled = { target with privateModes, bracketedPaste } := by
  simp only [ModeState.setPrivate]
  rw [if_neg h]
  split
  · exact ⟨_, _, rfl⟩
  · exact ⟨_, _, rfl⟩

/-- The listed modes are restored one after the other. -/
theorem foldl_restoredTokens (modes : ModeState) {list : List ℤ} (hlist : list ⊆ restoredModes)
    (hnodup : list.Nodup) (target : ModeState)
    (hunset : ∀ mode ∈ list, target.privateModes mode = none) :
    ∃ privateModes bracketedPaste,
      (list.flatMap modes.restoredTokens).foldl ModeState.apply target =
        { target with privateModes, bracketedPaste } ∧
      (∀ mode ∈ list, (privateModes mode).getD (defaultMode mode) =
        (modes.privateModes mode).getD (defaultMode mode)) ∧
      ∀ mode ∉ list, privateModes mode = target.privateModes mode := by
  induction list generalizing target with
  | nil => exact ⟨_, _, rfl, nofun, fun _ _ => rfl⟩
  | cons mode list ih =>
    obtain ⟨hmode, hlist⟩ := List.cons_subset.mp hlist
    obtain ⟨hnotin, hnodup⟩ := List.nodup_cons.mp hnodup
    obtain ⟨hunsetMode, hunset⟩ := List.forall_mem_cons.mp hunset
    rw [List.flatMap_cons, List.foldl_append]
    by_cases hemitted : ∃ enabled, modes.privateModes mode = some enabled ∧
        ¬ (¬ enabled ∧ mode ≠ 7 ∧ mode ≠ 25)
    · -- the mode is set or reset, and none of the later ones is the same
      obtain ⟨enabled, hsome, hemit⟩ := hemitted
      have hother : mode ≠ 1049 := by rintro rfl; exact absurd hmode (by decide)
      have htokens : modes.restoredTokens mode = [privateToken mode enabled] := by
        simp only [restoredTokens, hsome]
        rw [if_neg hemit]
      rw [htokens, List.foldl_cons, List.foldl_nil,
        apply_privateToken (by simp [hmode]) enabled target]
      obtain ⟨privateModes, bracketedPaste, heq, hlisted, hrest⟩ :=
        ih hlist hnodup (target.setPrivate mode enabled) fun later hlater => by
          rw [setPrivate_privateModes, if_neg (fun h : later = mode => hnotin (h ▸ hlater)),
            hunset later hlater]
      refine ⟨privateModes, bracketedPaste, ?_, List.forall_mem_cons.mpr ⟨?_, hlisted⟩, ?_⟩
      · obtain ⟨_, _, hset⟩ := setPrivate_eq hother target enabled
        rw [heq, hset]
      · rw [hrest mode hnotin, setPrivate_privateModes, if_pos rfl, hsome]
      · intro other hnot
        obtain ⟨hne, hnot⟩ := not_or.mp (fun h => hnot (List.mem_cons.mpr h))
        rw [hrest other hnot, setPrivate_privateModes, if_neg hne]
    · -- the mode has its default
      have htokens : modes.restoredTokens mode = [] := by
        unfold restoredTokens
        split
        · rfl
        · next enabled hsome =>
          split
          · rfl
          · next hemit => exact absurd ⟨enabled, hsome, hemit⟩ hemitted
      have hdefault : (modes.privateModes mode).getD (defaultMode mode) = defaultMode mode := by
        cases hsome : modes.privateModes mode with
        | none => rfl
        | some enabled =>
          have hnone := not_not.mp (not_and.mp (not_exists.mp hemitted enabled) hsome)
          rw [Option.getD_some, Bool.eq_false_iff.mpr hnone.1]
          simp [defaultMode, hnone.2]
      obtain ⟨privateModes, bracketedPaste, heq, hlisted, hrest⟩ := ih hlist hnodup target hunset
      rw [htokens]
      refine ⟨privateModes, bracketedPaste, heq, List.forall_mem_cons.mpr ⟨?_, hlisted⟩, ?_⟩
      · rw [hrest mode hnotin, hunsetMode, hdefault]
        rfl
      · intro other hnot
        exact hrest other (fun h => hnot (List.mem_cons_of_mem _ h))

/-- **What a client has that has read a prefix**: all that is restored, and no pushed flags. -/
theorem after_prefixBytes (h : Readable modes) :
    ∃ privateModes bracketedPaste,
      ({} : ModeState).after modes.prefixBytes = {
        alternateScreen := modes.alternateScreen
        bracketedPaste
        privateModes
        insertMode := modes.insertMode
        scrollRegion := modes.scrollRegion
        cursorShape := modes.cursorShape
        keypadApp := modes.keypadApp
        title := modes.title
        kittyFlags := modes.kittyFlags } ∧
      ∀ mode ∈ restoredModes, (privateModes mode).getD (defaultMode mode) =
        (modes.privateModes mode).getD (defaultMode mode) := by
  have hscan := scan_prefixBytes h
  unfold ModeState.after tokens
  rw [hscan]
  dsimp only
  unfold prefixTokens
  simp only [List.foldl_append]
  -- of the private modes at most 1049 is set so far, and that one is not restored
  obtain ⟨start, hstart, hunset⟩ : ∃ start : ModeState,
      (if modes.alternateScreen then [privateToken 1049 true] else []).foldl ModeState.apply {} =
        { start with alternateScreen := modes.alternateScreen } ∧
      ∃ privateModes : ℤ → Option Bool, start = { privateModes } ∧
        ∀ mode ∈ restoredModes, privateModes mode = none := by
    by_cases halternate : modes.alternateScreen
    · rw [if_pos halternate, List.foldl_cons, List.foldl_nil,
        apply_privateToken (by simp) true, halternate]
      refine ⟨{ privateModes := fun mode => if mode = 1049 then some true else none }, rfl, _, rfl,
        ?_⟩
      decide
    · rw [if_neg halternate, Bool.eq_false_iff.mpr halternate]
      exact ⟨{}, rfl, _, rfl, fun _ _ => rfl⟩
  obtain ⟨before, rfl, hunset⟩ := hunset
  rw [hstart]
  obtain ⟨privateModes, bracketedPaste, heq, hlisted, -⟩ :=
    foldl_restoredTokens modes (List.Subset.refl _) (by decide)
      { ({ privateModes := before } : ModeState) with alternateScreen := modes.alternateScreen }
      hunset
  rw [heq, foldl_insertMode modes rfl, foldl_scrollRegion h rfl, foldl_cursorShape h rfl,
    foldl_keypadApp modes rfl, foldl_kittyFlags modes rfl, foldl_title modes rfl, List.foldl_cons,
    List.foldl_nil, apply_privateToken (by simp) false]
  refine ⟨_, _, rfl, fun mode hmode => ?_⟩
  have hother : mode ≠ 2026 := by rintro rfl; exact absurd hmode (by decide)
  dsimp only
  rw [if_neg hother, hlisted mode hmode]

/-! ### A client that attaches -/

/-- The setting of a private mode, or its default. -/
def settingView (mode : ℤ) (setting : Option Bool) : Bool := setting.getD (defaultMode mode)

theorem Same.restored (h : Same settingView a b) (hflags : a.kittyFlags = b.kittyFlags) :
    a.restored = b.restored := by
  have hmodes := List.map_congr_left h.privateModes
  unfold ModeState.restored
  rw [RestoredModes.mk.injEq]
  exact ⟨h.alternateScreen, hmodes, h.insertMode, h.scrollRegion, h.cursorShape, h.keypadApp,
    hflags, h.title⟩

/-- A client that has read the prefix agrees with the terminal, but has none of its pushed
flags. -/
theorem Readable.attached (h : Readable modes) :
    Same settingView modes (({} : ModeState).after modes.prefixBytes) ∧
      Deeper modes.kittyStack modes (({} : ModeState).after modes.prefixBytes) ∧
      (({} : ModeState).after modes.prefixBytes).kittyStack = [] ∧
      (({} : ModeState).after modes.prefixBytes).pending = [] := by
  obtain ⟨privateModes, bracketedPaste, heq, hmodes⟩ := after_prefixBytes h
  rw [heq]
  refine ⟨?_, ⟨rfl, (List.append_nil _).symm⟩, rfl, rfl⟩
  exact {
    alternateScreen := rfl
    privateModes := fun mode hmode => (hmodes mode hmode).symm
    insertMode := rfl
    scrollRegion := rfl
    cursorShape := rfl
    keypadApp := rfl
    title := rfl }

/-- The keyboard flags are set, and then popped. -/
def setAndPop (flags : Bytes) : List ModeToken := [.csi (0x3d :: flags) 0x75, .csi [0x3c] 0x75]

theorem after_setAndPop {flags : Bytes} (hflags : IsParams flags) (modes : ModeState) :
    (modes.after ((setAndPop flags).flatMap ModeToken.code)).kittyFlags =
      modes.kittyStack.getLast?.getD flags := by
  have hvalid : ∀ token ∈ setAndPop flags, token.Valid := by
    refine List.forall_mem_cons.mpr ⟨⟨?_, by decide⟩, List.forall_mem_singleton.mpr ?_⟩
    · exact List.forall_mem_cons.mpr ⟨by decide, hflags⟩
    · exact ⟨isParams_of_all (by decide), by decide⟩
  rw [after_flatMap hvalid, setAndPop, List.foldl_cons, List.foldl_cons, List.foldl_nil, apply_set,
    apply_pop, kittyFlags_popKitty_one]

/-- Flags other than given ones. -/
def otherFlags (flags : Bytes) : Bytes := if flags = [] then [0x31] else []

theorem isParams_otherFlags (flags : Bytes) : IsParams (otherFlags flags) := by
  unfold otherFlags
  split
  · exact List.forall_mem_singleton.mpr (by decide)
  · exact nofun

theorem otherFlags_eq_nil_iff (flags : Bytes) : otherFlags flags = [] ↔ flags ≠ [] := by
  unfold otherFlags
  split
  · next hempty => simp [hempty]
  · next hne => simp [hne]

theorem otherFlags_ne (flags : Bytes) : otherFlags flags ≠ flags := by
  intro heq
  by_cases hempty : flags = []
  · exact (otherFlags_eq_nil_iff flags).mp (heq.trans hempty) hempty
  · exact hempty (heq ▸ (otherFlags_eq_nil_iff flags).mpr hempty)

/-- Pushed flags can be told from none by what is left when one entry is popped. -/
theorem exists_popped {stack : List Bytes} (hne : stack ≠ []) (ha : a.kittyStack = stack)
    (hb : b.kittyStack = []) :
    ∃ data flags, (a.after data).kittyFlags = flags ∧
      (b.after data).kittyFlags = otherFlags flags := by
  obtain ⟨stack, flags, rfl⟩ := (List.eq_nil_or_concat stack).resolve_left hne
  refine ⟨(setAndPop (otherFlags flags)).flatMap ModeToken.code, flags, ?_, ?_⟩
  · rw [after_setAndPop (isParams_otherFlags flags), ha, List.concat_eq_append,
      List.getLast?_concat]
    rfl
  · rw [after_setAndPop (isParams_otherFlags flags), hb]
    rfl

end ModeState

/-- A client that attaches after the output `s1` agrees with the terminal after the further output
`s2`, in all that an attach restores. -/
def Restores (s1 s2 : Bytes) : Prop :=
  ((({} : ModeState).observe (({} : ModeState).observe s1).prefixBytes).observe s2).restored =
    (({} : ModeState).observe (s1 ++ s2)).restored

variable {s1 s2 : Bytes}

/-- What a client and the terminal have, as folds over the escape sequences of both outputs. -/
theorem restores_iff_after (h : Outside s1) :
    Restores s1 s2 ↔
      ((({} : ModeState).after (({} : ModeState).after s1).prefixBytes).after s2).restored =
        ((({} : ModeState).after s1).after s2).restored := by
  have hreadable := readable_empty.after s1
  obtain ⟨-, -, -, hpending⟩ := hreadable.attached
  have hprefix : Outside (({} : ModeState).after s1).prefixBytes :=
    congrArg Prod.snd (scan_prefixBytes hreadable)
  unfold Restores
  rw [observe_of_outside rfl h, observe_of_outside rfl hprefix]
  obtain ⟨pending, hclient⟩ := observe_eq _ hpending s2
  obtain ⟨pending', hterminal⟩ := observe_eq {} rfl (s1 ++ s2)
  rw [hclient, hterminal, after_append h]
  rfl

theorem restores_of_popsWithin (h : Outside s1) (hpops : PopsWithin 0 (tokens s2)) :
    Restores s1 s2 := by
  obtain ⟨hsame, hdeeper, hempty, -⟩ := (readable_empty.after s1).attached
  rw [restores_iff_after h, eq_comm]
  refine (hsame.after s2).restored (hdeeper.foldl (.inr ?_)).kittyFlags
  rw [hempty]
  exact hpops

theorem restores_of_kittyStack (h : Outside s1)
    (hstack : (({} : ModeState).after s1).kittyStack = []) : Restores s1 s2 := by
  obtain ⟨hsame, hdeeper, -, -⟩ := (readable_empty.after s1).attached
  rw [restores_iff_after h, eq_comm]
  exact (hsame.after s2).restored (hdeeper.foldl (.inl hstack)).kittyFlags

/-- **An attach restores the modes for good** as long as the application pops no flags that it
pushed before, and whatever it does exactly if there are none. -/
theorem attach_restores_iff (h : Outside s1) :
    (∀ s2, PopsWithin 0 (tokens s2) → Restores s1 s2) ∧
      ((∀ s2, Restores s1 s2) ↔ (({} : ModeState).observe s1).kittyStack = []) := by
  rw [observe_of_outside rfl h]
  refine ⟨fun s2 hpops => restores_of_popsWithin h hpops, fun hall => ?_,
    fun hstack s2 => restores_of_kittyStack h hstack⟩
  by_contra hne
  obtain ⟨-, -, hempty, -⟩ := (readable_empty.after s1).attached
  obtain ⟨s2, flags, hterminal, hclient⟩ := exists_popped hne rfl hempty
  have hflags := congrArg RestoredModes.kittyFlags ((restores_iff_after h).mp (hall s2))
  exact otherFlags_ne flags (hclient.symm.trans (hflags.trans hterminal))

/-- Flags `1` and `2` are pushed before the attach, and one entry is popped after it. -/
theorem not_attach_restores : ¬ ∀ s1 s2, Outside s1 → Restores s1 s2 := by
  intro hall
  let pushes : List ModeToken := [.csi (ascii ">1") 0x75, .csi (ascii ">2") 0x75]
  let pop : List ModeToken := [.csi [0x3c] 0x75]
  have hpushes : ∀ token ∈ pushes, token.Valid :=
    List.forall_mem_cons.mpr ⟨⟨isParams_of_all (by decide), by decide⟩,
      List.forall_mem_singleton.mpr ⟨isParams_of_all (by decide), by decide⟩⟩
  have hpop : ∀ token ∈ pop, token.Valid :=
    List.forall_mem_singleton.mpr ⟨isParams_of_all (by decide), by decide⟩
  have hs1 : ascii "\x1b[>1u\x1b[>2u" = pushes.flatMap ModeToken.code := by decide
  have hs2 : ascii "\x1b[<u" = pop.flatMap ModeToken.code := by decide
  have houtside : Outside (ascii "\x1b[>1u\x1b[>2u") := by
    rw [hs1]
    exact outside_flatMap hpushes
  -- the client has the flags `2`, the terminal has `1` again
  have hrestores := (restores_iff_after houtside).mp
    (hall (ascii "\x1b[>1u\x1b[>2u") (ascii "\x1b[<u") houtside)
  obtain ⟨-, hdeeper, hempty, -⟩ :=
    (readable_empty.after (ascii "\x1b[>1u\x1b[>2u")).attached
  have hflags := congrArg RestoredModes.kittyFlags hrestores
  rw [hs2, after_flatMap hpop, after_flatMap hpop] at hflags
  simp only [restored, pop, List.foldl_cons, List.foldl_nil, apply_pop, kittyFlags_popKitty_one,
    hempty, ← hdeeper.kittyFlags] at hflags
  rw [hs1, after_flatMap hpushes] at hflags
  exact absurd hflags (by decide)

/-- With no pushed flags any further output will do: here the cursor is hidden, and shown. -/
theorem attach_restores_iff_cursor :
    Restores (ascii "\x1b[?25l") (ascii "\x1b[?25h") := by
  have hvalid : ∀ token ∈ [privateToken 25 false], token.Valid :=
    List.forall_mem_singleton.mpr (valid_privateToken (by decide) false)
  have hs1 : ascii "\x1b[?25l" = [privateToken 25 false].flatMap ModeToken.code := by decide
  have houtside : Outside (ascii "\x1b[?25l") := by
    rw [hs1]
    exact outside_flatMap hvalid
  have hstack : (({} : ModeState).observe (ascii "\x1b[?25l")).kittyStack = [] := by
    rw [observe_of_outside rfl houtside, hs1, after_flatMap hvalid, List.foldl_cons, List.foldl_nil,
      apply_privateToken (by decide)]
    rfl
  exact (attach_restores_iff houtside).2.mpr hstack _

end AgentCockpit.Mux
