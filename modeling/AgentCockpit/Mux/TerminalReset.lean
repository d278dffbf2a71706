import AgentCockpit.Mux.AttachModes

/-!
# Terminal resets and the tracked modes

A reset (`ESC c`) puts a terminal back to its defaults. The tracked modes answer it by clearing the
saved cursor, which is not part of a prefix: the prefix after a reset is the one without it. What
was set before the reset is restored in a client that attaches later, until the application sets it
again.

## Main results

* `reset_clears_iff` — **a reset clears the modes exactly where none was set**
-/

namespace AgentCockpit.Mux

open AgentCockpit.Core ModeState

/-- A full reset. -/
def resetCode : Bytes := [esc, 0x63]

/-- What stands before a reset does not show in the prefix after it. -/
def ResetClears (s t : Bytes) : Prop :=
  (({} : ModeState).observe (s ++ resetCode ++ t)).prefixBytes =
    (({} : ModeState).observe t).prefixBytes

namespace ModeState

/-- What a reset does to the modes. -/
def reset (modes : ModeState) : ModeState := { modes with savedCursor := false }

/-- Nothing is set that a prefix restores, and no keyboard flags are pushed. -/
structure Unset (modes : ModeState) : Prop where
  alternateScreen : modes.alternateScreen = false
  privateModes : ∀ mode ∈ restoredModes, modes.privateModes mode = none ∨
    modes.privateModes mode = some false ∧ mode ≠ 7 ∧ mode ≠ 25
  insertMode : modes.insertMode = false
  scrollRegion : modes.scrollRegion = []
  cursorShape : modes.cursorShape = []
  keypadApp : modes.keypadApp = false
  kittyFlags : modes.kittyFlags = []
  title : modes.title = []
  kittyStack : modes.kittyStack = []

variable {a b modes : ModeState}

/-- What a prefix has for a private mode. -/
def settingBytes (mode : ℤ) (setting : Option Bool) : Bytes :=
  ({ privateModes := fun _ => setting } : ModeState).restoredMode mode

theorem settingBytes_eq_nil_iff {mode : ℤ} {setting : Option Bool} :
    settingBytes mode setting = [] ↔
      setting = none ∨ setting = some false ∧ mode ≠ 7 ∧ mode ≠ 25 := by
  unfold settingBytes restoredMode
  cases setting with
  | none => simp
  | some enabled =>
    have hne : privateMode mode enabled ≠ [] := by
      unfold privateMode
      exact nofun
    simp [hne]

/-- States that agree have the same prefix. -/
theorem Same.prefixBytes (h : Same settingBytes a b) (hflags : a.kittyFlags = b.kittyFlags) :
    a.prefixBytes = b.prefixBytes := by
  have hmodes : restoredModes.flatMap a.restoredMode = restoredModes.flatMap b.restoredMode :=
    List.flatMap_congr h.privateModes
  unfold ModeState.prefixBytes
  rw [hmodes, h.alternateScreen, h.insertMode, h.scrollRegion, h.cursorShape, h.keypadApp, hflags,
    h.title]

theorem prefixBytes_observe (data : Bytes) :
    (({} : ModeState).observe data).prefixBytes = (({} : ModeState).after data).prefixBytes := by
  obtain ⟨pending, heq⟩ := observe_eq {} rfl data
  rw [heq]
  rfl

theorem valid_reset : ModeToken.Valid (.escape 0x63) := ⟨by decide, by decide⟩

/-- What the escape sequences around a reset do. -/
theorem after_reset {s : Bytes} (h : Outside s) (modes : ModeState) (t : Bytes) :
    modes.after (s ++ resetCode ++ t) =
      (modes.after s).reset.after t := by
  have hvalid : ∀ token ∈ [ModeToken.escape 0x63], token.Valid :=
    List.forall_mem_singleton.mpr valid_reset
  have hcode : resetCode = [ModeToken.escape 0x63].flatMap ModeToken.code := rfl
  rw [List.append_assoc, after_append h, hcode, after_append (outside_flatMap hvalid),
    after_flatMap hvalid]
  rfl

/-- A state with nothing set looks like that of a fresh terminal. -/
theorem Unset.same (h : Unset modes) :
    Same settingBytes modes {} where
  alternateScreen := h.alternateScreen
  privateModes := fun mode hmode => settingBytes_eq_nil_iff.mpr (h.privateModes mode hmode)
  insertMode := h.insertMode
  scrollRegion := h.scrollRegion
  cursorShape := h.cursorShape
  keypadApp := h.keypadApp
  title := h.title

theorem wrapped_eq_nil_iff {introducer text terminator : Bytes} (hne : introducer ≠ []) :
    wrapped introducer text terminator = [] ↔ text = [] := by
  unfold wrapped
  split
  · next hempty => exact iff_of_true rfl hempty
  · next hset => simp [hset, hne]

/-- A prefix that restores nothing is that of a state with nothing set. -/
theorem unset_of_prefixBytes (h : modes.reset.prefixBytes = ({} : ModeState).prefixBytes)
    (hstack : modes.kittyStack = []) : Unset modes := by
  have hempty : ({} : ModeState).prefixBytes = ascii "\x1b[?2026l" := by decide
  rw [hempty] at h
  unfold prefixBytes at h
  have hparts := List.append_left_eq_self.mp h
  simp only [List.append_eq_nil_iff, List.flatMap_eq_nil_iff] at hparts
  obtain ⟨⟨⟨⟨⟨⟨⟨halternate, hmodes⟩, hinsert⟩, hregion⟩, hshape⟩, hkeypad⟩, hflags⟩, htitle⟩ :=
    hparts
  have hunset : ∀ {c : Bool} {text : Bytes}, text ≠ [] → (if c then text else []) = [] →
      c = false := by
    intro c text hne hnil
    cases c with
    | false => rfl
    | true => exact absurd hnil hne
  exact {
    alternateScreen := hunset (by decide +kernel) halternate
    privateModes := fun mode hmode => settingBytes_eq_nil_iff.mp (hmodes mode hmode)
    insertMode := hunset (by decide) hinsert
    scrollRegion := (wrapped_eq_nil_iff (by decide)).mp hregion
    cursorShape := (wrapped_eq_nil_iff (by decide)).mp hshape
    keypadApp := hunset (by decide) hkeypad
    kittyFlags := (wrapped_eq_nil_iff (by decide)).mp hflags
    title := (wrapped_eq_nil_iff (by decide)).mp htitle
    kittyStack := hstack }

/-- A prefix does not show the stack of the flags. -/
theorem same_of_prefixBytes (h : modes.reset.prefixBytes = ({} : ModeState).prefixBytes) :
    Same settingBytes modes.reset {} := by
  have hpopped : ({ modes with kittyStack := [] } : ModeState).Unset := unset_of_prefixBytes h rfl
  exact { hpopped.same with }

theorem after_nil (modes : ModeState) : modes.after [] = modes := by
  rw [ModeState.after, tokens_nil]
  rfl

/-- Where the prefixes agree, so does whether there are keyboard flags. -/
theorem kittyFlags_eq_nil_iff (h : Same settingBytes a b) (hbytes : a.prefixBytes = b.prefixBytes) :
    a.kittyFlags = [] ↔ b.kittyFlags = [] := by
  have hmodes : restoredModes.flatMap a.restoredMode = restoredModes.flatMap b.restoredMode :=
    List.flatMap_congr h.privateModes
  unfold prefixBytes at hbytes
  rw [hmodes, h.alternateScreen, h.insertMode, h.scrollRegion, h.cursorShape, h.keypadApp, h.title,
    List.append_left_inj, List.append_left_inj, List.append_right_inj] at hbytes
  rw [← wrapped_eq_nil_iff (by decide : ascii "\x1b[=" ≠ []), hbytes,
    wrapped_eq_nil_iff (by decide)]

end ModeState

variable {s t : Bytes}

theorem resetClears_iff_after (h : Outside s) : ResetClears s t ↔
    ((({} : ModeState).after s).reset.after t).prefixBytes =
      (({} : ModeState).after t).prefixBytes := by
  unfold ResetClears
  rw [prefixBytes_observe, prefixBytes_observe, after_reset h]

/-- **A reset clears the modes exactly where none was set.** -/
theorem reset_clears_iff (h : Outside s) :
    (∀ t, ResetClears s t) ↔ (({} : ModeState).observe s).Unset := by
  rw [observe_of_outside rfl h]
  constructor
  · intro hall
    have hnil := (resetClears_iff_after h).mp (hall [])
    rw [after_nil, after_nil] at hnil
    have hshown : Same settingBytes (({} : ModeState).after s).reset {} :=
      same_of_prefixBytes hnil
    by_contra hset
    have hne : (({} : ModeState).after s).reset.kittyStack ≠ [] :=
      fun hstack => hset (unset_of_prefixBytes hnil hstack)
    -- pushed flags show after the reset when they are popped
    obtain ⟨t, flags, hpopped, hother⟩ :=
      exists_popped hne rfl (rfl : ({} : ModeState).kittyStack = [])
    have hiff := kittyFlags_eq_nil_iff (hshown.after t) ((resetClears_iff_after h).mp (hall t))
    rw [hpopped, hother, otherFlags_eq_nil_iff] at hiff
    exact iff_not_self hiff
  · intro hunset t
    rw [resetClears_iff_after h]
    have hsame : Same settingBytes (({} : ModeState).after s).reset {} := { hunset.same with }
    have hdeeper : Deeper [] (({} : ModeState).after s).reset {} :=
      ⟨hunset.kittyFlags, hunset.kittyStack⟩
    exact (hsame.after t).prefixBytes (hdeeper.foldl (.inl rfl)).kittyFlags

/-- A program on the alternate screen resets the terminal: a client that attaches is switched to the
alternate screen. -/
theorem not_reset_clears : ¬ ∀ s t, Outside s → ResetClears s t := by
  intro hall
  have hvalid : ∀ token ∈ [privateToken 1049 true], token.Valid :=
    List.forall_mem_singleton.mpr (valid_privateToken (by decide) true)
  have hs : ascii "\x1b[?1049h" = [privateToken 1049 true].flatMap ModeToken.code := by decide
  have houtside : Outside (ascii "\x1b[?1049h") := by
    rw [hs]
    exact outside_flatMap hvalid
  have hclears := (resetClears_iff_after houtside).mp (hall (ascii "\x1b[?1049h") [] houtside)
  rw [after_nil, after_nil, hs, after_flatMap hvalid, List.foldl_cons, List.foldl_nil,
    apply_privateToken (by decide)] at hclears
  exact absurd hclears (by decide +kernel)

/-- Cursor keys are in application mode for a while, and no longer when the terminal is reset. -/
theorem reset_clears_iff_cursorKeys :
    ResetClears (ascii "\x1b[?1h\x1b[?1l") (ascii "\x1b[?1004h") := by
  have hvalid : ∀ token ∈ [privateToken 1 true, privateToken 1 false], token.Valid :=
    List.forall_mem_cons.mpr ⟨valid_privateToken (by decide) true,
      List.forall_mem_singleton.mpr (valid_privateToken (by decide) false)⟩
  have hs : ascii "\x1b[?1h\x1b[?1l" =
      [privateToken 1 true, privateToken 1 false].flatMap ModeToken.code := by decide
  have houtside : Outside (ascii "\x1b[?1h\x1b[?1l") := by
    rw [hs]
    exact outside_flatMap hvalid
  refine (reset_clears_iff houtside).mpr ?_ _
  rw [observe_of_outside rfl houtside, hs, after_flatMap hvalid, List.foldl_cons, List.foldl_cons,
    List.foldl_nil, apply_privateToken (by decide), apply_privateToken (by decide)]
  exact {
    alternateScreen := rfl
    privateModes := by decide
    insertMode := rfl
    scrollRegion := rfl
    cursorShape := rfl
    keypadApp := rfl
    kittyFlags := rfl
    title := rfl
    kittyStack := rfl }

end AgentCockpit.Mux
