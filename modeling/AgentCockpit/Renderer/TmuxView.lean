import AgentCockpit.Core.Joined
import AgentCockpit.Remote.LayoutString
import Mathlib.Data.List.Nodup

/-!
# The view of a tmux session

The renderer folds the notifications of a control session into a view: the windows in the order of
their arrival, each with its last layout, and a record for each pane that a layout has listed. A
record goes only with the window whose last layout lists the pane.
-/

namespace AgentCockpit.Renderer.TmuxView

open Remote (Text)
open Remote.LayoutString (LayoutNode LayoutNodes WindowLayout Number)

/-! ### Views -/

/-- A layout tree with the ids of its panes. -/
abbrev Layout := LayoutNode Number Text

/-- A pane in the live view. Flags that no notification has set are absent. -/
structure PaneState where
  paneId : Text
  windowId : Option Text
  paused : Option Bool := none
  mouseAny : Option Bool := none
  mouseSgr : Option Bool := none
  deriving DecidableEq, Repr

/-- A window and its current layout. -/
structure WindowState where
  windowId : Text
  name : Text
  displayName : Option Text := none
  layout : Option Layout
  isZoomed : Bool
  visibleLayout : Option Layout

structure TmuxViewState where
  isOpen : Bool
  openError : Option Text
  sessionName : Option Text
  sessionId : Option Text
  /-- Ordered window ids, in the order of their arrival. -/
  windowOrder : List Text
  windows : Text → Option WindowState
  panes : Text → Option PaneState
  activeWindowId : Option Text
  activePaneId : Option Text

def emptyView : TmuxViewState where
  isOpen := false
  openError := none
  sessionName := none
  sessionId := none
  windowOrder := []
  windows := fun _ => none
  panes := fun _ => none
  activeWindowId := none
  activePaneId := none

mutual

/-- The pane ids of a tree, from left to right. -/
def leafIds : Layout → List Text
  | .leaf paneId _ => [paneId]
  | .split _ _ children => leafIdsOf children

def leafIdsOf : LayoutNodes Number Text → List Text
  | .last node => leafIds node
  | .more node nodes => leafIds node ++ leafIdsOf nodes

end

def collectPaneIds (layout : Option Layout) : List Text := layout.elim [] leafIds

/-! ### Subscriptions -/

def titleSubPrefix : Text := "cockpit-title-".toList

def mouseSubPrefix : Text := "cockpit-mouse-".toList

inductive ParsedSubscription
  | title (windowId : Text)
  | mouse (paneId : Text)
  deriving DecidableEq, Repr

/-- The target that a subscription's name encodes, if it is one of ours. -/
def parseSubscriptionName (name : Text) : Option ParsedSubscription :=
  if titleSubPrefix.isPrefixOf name then some (.title (name.drop titleSubPrefix.length))
  else if mouseSubPrefix.isPrefixOf name then some (.mouse (name.drop mouseSubPrefix.length))
  else none

/-- White space and line terminators. -/
def isSpace (c : Char) : Bool :=
  c ∈ ['\t', '\n', '\x0B', '\x0C', '\r', ' ', '\u00A0', '\u1680', '\u2028', '\u2029', '\u202F',
    '\u205F', '\u3000', '\uFEFF'] || ('\u2000' ≤ c && c ≤ '\u200A')

def trim (text : Text) : Text := ((text.dropWhile isSpace).reverse.dropWhile isSpace).reverse

/-- The two mouse flags of a value; a word that is missing is no set flag. -/
def parseMouseFlagsValue (value : Text) : Bool × Bool :=
  let words := (value.splitOnP isSpace).filter (· ≠ [])
  (words[0]? = some ['1'], words[1]? = some ['1'])

/-! ### The reducer -/

/-- The notifications that the reducer is handed. -/
inductive TmuxNotification
  | unlinkedWindowAdd (windowId : Text)
  | windowAdd (windowId : Text)
  | windowClose (windowId : Text)
  | windowRenamed (windowId name : Text)
  | layoutChange (windowId : Text) (layout : WindowLayout Number Text)
      (visibleLayout : Option (WindowLayout Number Text)) (flags : Option Text)
  | windowPaneChanged (windowId paneId : Text)
  | sessionWindowChanged (sessionId windowId : Text)
  | sessionChanged (sessionId name : Text)
  | exit (reason : Option Text)
  /-- Pause mode: the pane is paused, or continues. -/
  | flow (paneId : Text) (paused : Bool)
  | subscriptionChanged (name value : Text)
  /-- A notification that changes nothing. -/
  | other

/-- The record of a pane that a window's layout lists; its flags are kept. -/
def indexPane (state : TmuxViewState) (windowId paneId : Text) : PaneState :=
  match state.panes paneId with
  | some pane => { pane with paneId, windowId := some windowId }
  | none => { paneId, windowId := some windowId }

/-- Fold one notification into the view. -/
def reduce (state : TmuxViewState) : TmuxNotification → TmuxViewState
  | .unlinkedWindowAdd _ => state
  | .windowAdd windowId =>
    if (state.windows windowId).isSome then state
    else
      { state with
        windowOrder := state.windowOrder ++ [windowId]
        windows := Function.update state.windows windowId (some
          { windowId, name := windowId, layout := none, isZoomed := false,
            visibleLayout := none }) }
  | .windowClose windowId =>
    match state.windows windowId with
    | none => state
    | some closed =>
      let windowOrder := state.windowOrder.filter (· ≠ windowId)
      { state with
        windows := Function.update state.windows windowId none
        -- The panes of the closed window go by its last layout.
        panes := fun paneId =>
          if paneId ∈ collectPaneIds closed.layout then none else state.panes paneId
        windowOrder
        activeWindowId :=
          if state.activeWindowId = some windowId then windowOrder.getLast?
          else state.activeWindowId }
  | .windowRenamed windowId name =>
    match state.windows windowId with
    | none => state
    | some window =>
      { state with
        windows := Function.update state.windows windowId (some { window with name }) }
  | .layoutChange windowId layout visibleLayout flags =>
    let existing := state.windows windowId
    { state with
      windowOrder := if existing.isSome then state.windowOrder else state.windowOrder ++ [windowId]
      windows := Function.update state.windows windowId (some
        { windowId
          name := existing.elim windowId (·.name)
          layout := some layout.root
          isZoomed := flags.any ('Z' ∈ ·)
          visibleLayout := visibleLayout.map (·.root) })
      -- Every pane of the full layout is indexed; none is removed.
      panes := fun paneId =>
        if paneId ∈ leafIds layout.root then some (indexPane state windowId paneId)
        else state.panes paneId }
  | .windowPaneChanged windowId paneId =>
    if (state.windows windowId).isSome then
      { state with activeWindowId := some windowId, activePaneId := some paneId }
    else state
  | .sessionWindowChanged sessionId windowId =>
    if state.sessionId.isSome ∧ state.sessionId ≠ some sessionId then state
    else { state with activeWindowId := some windowId, activePaneId := none }
  | .sessionChanged sessionId name =>
    { state with sessionName := some name, sessionId := some sessionId }
  | .exit _ => emptyView
  | .flow paneId paused =>
    match state.panes paneId with
    | none =>
      { state with
        panes := Function.update state.panes paneId
          (some { paneId, windowId := none, paused := some paused }) }
    | some pane =>
      if pane.paused.getD false = paused then state
      else
        { state with
          panes := Function.update state.panes paneId (some { pane with paused := some paused }) }
  | .subscriptionChanged name value =>
    match parseSubscriptionName name with
    | none => state
    | some (.title windowId) =>
      match state.windows windowId with
      | none => state
      | some window =>
        let displayName := trim value
        if displayName = [] ∨ window.displayName = some displayName then state
        else
          { state with
            windows := Function.update state.windows windowId
              (some { window with displayName := some displayName }) }
    | some (.mouse paneId) =>
      let (any, sgr) := parseMouseFlagsValue value
      if (state.panes paneId).any fun pane => pane.mouseAny = some any ∧ pane.mouseSgr = some sgr
      then state
      else
        let base := (state.panes paneId).getD { paneId, windowId := none }
        { state with
          panes := Function.update state.panes paneId
            (some { base with mouseAny := some any, mouseSgr := some sgr }) }
  | .other => state

/-! ### Agreement of the view -/

/-- The panes of a window's last layout. -/
def layoutIds (state : TmuxViewState) (windowId : Text) : List Text :=
  (state.windows windowId).elim [] fun window => collectPaneIds window.layout

/-- The window that a pane's record names. -/
def owner (state : TmuxViewState) (paneId : Text) : Option Text :=
  (state.panes paneId).bind (·.windowId)

/-- The order, the windows, the records and the active pane agree. -/
structure Settled (state : TmuxViewState) : Prop where
  nodup : state.windowOrder.Nodup
  keys : ∀ windowId, windowId ∈ state.windowOrder ↔ (state.windows windowId).isSome
  leaves : ∀ windowId, ∀ paneId ∈ layoutIds state windowId, owner state paneId = some windowId
  records : ∀ paneId windowId, owner state paneId = some windowId →
    paneId ∈ layoutIds state windowId
  active : ∀ paneId, state.activePaneId = some paneId → (state.panes paneId).isSome

/-- A notification that keeps the view settled: a layout lists all panes of the window's last one
and none of another window's, a window that is closed does not hold the active pane, and a pane that
becomes active in a known window has a record. -/
def Keeps (state : TmuxViewState) : TmuxNotification → Prop
  | .layoutChange windowId layout _ _ =>
    (∀ paneId ∈ layoutIds state windowId, paneId ∈ leafIds layout.root) ∧
      ∀ other, other ≠ windowId → ∀ paneId ∈ layoutIds state other, paneId ∉ leafIds layout.root
  | .windowClose windowId =>
    ∀ paneId ∈ layoutIds state windowId, state.activePaneId ≠ some paneId
  | .windowPaneChanged windowId paneId =>
    (state.windows windowId).isSome → (state.panes paneId).isSome
  | _ => True

theorem settled_emptyView : Settled emptyView := by
  refine ⟨List.nodup_nil, ?_, ?_, ?_, ?_⟩
  · intro windowId
    simp [emptyView]
  · intro windowId paneId hpane
    simp [layoutIds, emptyView] at hpane
  · intro paneId windowId howner
    simp [owner, emptyView] at howner
  · intro paneId hactive
    simp [emptyView] at hactive

section Steps

variable {state next : TmuxViewState} {windowId paneId : Text}

/-- What of a view its agreement depends on: nothing of it has changed but for new records of no
window, and an active pane that is forgotten. -/
structure SameFrame (state next : TmuxViewState) : Prop where
  order : next.windowOrder = state.windowOrder
  layouts : ∀ windowId, (next.windows windowId).map (·.layout) =
    (state.windows windowId).map (·.layout)
  owners : ∀ paneId, owner next paneId = owner state paneId
  panes : ∀ paneId, (state.panes paneId).isSome → (next.panes paneId).isSome
  active : next.activePaneId = state.activePaneId ∨ next.activePaneId = none

theorem layoutIds_congr
    (h : (next.windows windowId).map (·.layout) = (state.windows windowId).map (·.layout)) :
    layoutIds next windowId = layoutIds state windowId := by
  rw [layoutIds, layoutIds]
  cases hnext : next.windows windowId with
  | none =>
    cases hstate : state.windows windowId with
    | none => rfl
    | some window => simp [hnext, hstate] at h
  | some window =>
    cases hstate : state.windows windowId with
    | none => simp [hnext, hstate] at h
    | some window' =>
      rw [hnext, hstate, Option.map_some, Option.map_some] at h
      exact congrArg collectPaneIds (Option.some.inj h)

theorem Settled.of_sameFrame (h : Settled state) (hsame : SameFrame state next) : Settled next := by
  refine ⟨?_, ?_, ?_, ?_, ?_⟩
  · rw [hsame.order]
    exact h.nodup
  · intro windowId
    have hsome := congrArg Option.isSome (hsame.layouts windowId)
    rw [Option.isSome_map, Option.isSome_map] at hsome
    rw [hsame.order, hsome]
    exact h.keys windowId
  · intro windowId paneId hpane
    rw [layoutIds_congr (hsame.layouts windowId)] at hpane
    rw [hsame.owners]
    exact h.leaves windowId paneId hpane
  · intro paneId windowId howner
    rw [hsame.owners] at howner
    rw [layoutIds_congr (hsame.layouts windowId)]
    exact h.records paneId windowId howner
  · intro paneId hactive
    rcases hsame.active with heq | hnone
    · rw [heq] at hactive
      exact hsame.panes paneId (h.active paneId hactive)
    · rw [hnone] at hactive
      cases hactive

/-- A window that is known is replaced by one of the same layout. -/
theorem sameFrame_window {window window' : WindowState} (h : state.windows windowId = some window)
    (hlayout : window'.layout = window.layout) :
    SameFrame state
      { state with windows := Function.update state.windows windowId (some window') } := by
  refine ⟨rfl, fun other => ?_, fun _ => rfl, fun _ hpane => hpane, Or.inl rfl⟩
  by_cases hother : other = windowId
  · subst hother
    rw [h]
    simp [hlayout]
  · simp [Function.update_of_ne hother]

/-- A record is replaced by one that names the same window, or is made and names none. -/
theorem sameFrame_pane {pane : PaneState}
    (h : pane.windowId = owner state paneId) :
    SameFrame state
      { state with panes := Function.update state.panes paneId (some pane) } := by
  refine ⟨rfl, fun _ => rfl, fun other => ?_, fun other hsome => ?_, Or.inl rfl⟩
  · by_cases hother : other = paneId
    · subst hother
      rw [← h]
      simp [owner]
    · simp [owner, Function.update_of_ne hother]
  · by_cases hother : other = paneId
    · subst hother
      simp
    · simpa [Function.update_of_ne hother] using hsome

/-- A new window comes behind the known ones. -/
theorem Settled.nodup_append (h : Settled state) {windowId : Text}
    (hnew : ¬ (state.windows windowId).isSome) : (state.windowOrder ++ [windowId]).Nodup := by
  refine List.nodup_append.mpr ⟨h.nodup, List.nodup_singleton _, ?_⟩
  intro other hother last hlast
  obtain rfl := List.mem_singleton.mp hlast
  rintro rfl
  exact hnew ((h.keys other).mp hother)

theorem Settled.mem_append_iff (h : Settled state) (windowId : Text) (window : WindowState)
    (other : Text) : other ∈ state.windowOrder ++ [windowId] ↔
      (Function.update state.windows windowId (some window) other).isSome := by
  by_cases hother : other = windowId
  · subst hother
    simp
  · simp [hother, h.keys other]

theorem Settled.windowAdd (h : Settled state) (windowId : Text) :
    Settled (reduce state (.windowAdd windowId)) := by
  simp only [reduce]
  split
  · exact h
  · next hnew =>
    have hnone : state.windows windowId = none := by simpa using hnew
    have hids : ∀ other, layoutIds { state with
        windowOrder := state.windowOrder ++ [windowId]
        windows := Function.update state.windows windowId (some
          { windowId, name := windowId, layout := none, isZoomed := false,
            visibleLayout := none }) } other = layoutIds state other := by
      intro other
      by_cases hother : other = windowId
      · subst hother
        simp [layoutIds, hnone, collectPaneIds]
      · simp [layoutIds, Function.update_of_ne hother]
    refine ⟨h.nodup_append hnew, h.mem_append_iff windowId _, ?_, ?_, h.active⟩
    · intro other paneId hpane
      rw [hids] at hpane
      exact h.leaves other paneId hpane
    · intro paneId other howner
      rw [hids]
      exact h.records paneId other howner

/-- A window's panes go with it, and only the active one can be missed. -/
theorem Settled.windowClose_iff (h : Settled state) (windowId : Text) :
    Settled (reduce state (.windowClose windowId)) ↔ Keeps state (.windowClose windowId) := by
  simp only [reduce, Keeps]
  cases hclosed : state.windows windowId with
  | none =>
    have hids : layoutIds state windowId = [] := by simp [layoutIds, hclosed]
    rw [hids]
    exact iff_of_true h (by simp)
  | some closed =>
    have hids : layoutIds state windowId = collectPaneIds closed.layout := by
      simp [layoutIds, hclosed]
    dsimp only
    rw [← hids]
    constructor
    · intro hnext paneId hpane hactive
      have hsome := hnext.active paneId hactive
      simp [hpane] at hsome
    · intro hkeeps
      refine ⟨h.nodup.filter _, ?_, ?_, ?_, ?_⟩
      · intro other
        by_cases hother : other = windowId
        · subst hother
          simp
        · simp [hother, h.keys other]
      · intro other paneId hpane
        have hother : other ≠ windowId := by
          rintro rfl
          simp [layoutIds] at hpane
        have hold : paneId ∈ layoutIds state other := by
          simpa [layoutIds, Function.update_of_ne hother] using hpane
        have howner := h.leaves other paneId hold
        -- a pane has one window
        have hkept : paneId ∉ layoutIds state windowId := by
          intro hgone
          rw [h.leaves windowId paneId hgone] at howner
          exact hother (Option.some.inj howner).symm
        simpa [owner, hkept] using howner
      · intro paneId other howner
        have hkept : paneId ∉ layoutIds state windowId := by
          intro hgone
          simp [owner, hgone] at howner
        have hold : owner state paneId = some other := by simpa [owner, hkept] using howner
        have hpane := h.records paneId other hold
        have hother : other ≠ windowId := by
          rintro rfl
          exact hkept hpane
        simpa [layoutIds, Function.update_of_ne hother] using hpane
      · intro paneId hactive
        have hkept : paneId ∉ layoutIds state windowId := fun hgone => hkeeps paneId hgone hactive
        simpa [hkept] using h.active paneId hactive

theorem windowId_indexPane (state : TmuxViewState) (windowId paneId : Text) :
    (indexPane state windowId paneId).windowId = some windowId := by
  unfold indexPane
  split <;> rfl

/-- A layout that drops a pane leaves its record behind, and one that takes another window's pane
takes the record away from it. -/
theorem Settled.layoutChange_iff (h : Settled state) (windowId : Text)
    (layout : WindowLayout Number Text) (visibleLayout : Option (WindowLayout Number Text))
    (flags : Option Text) :
    Settled (reduce state (.layoutChange windowId layout visibleLayout flags)) ↔
      Keeps state (.layoutChange windowId layout visibleLayout flags) := by
  generalize hnext : reduce state (.layoutChange windowId layout visibleLayout flags) = next
  have hown : ∀ paneId, owner next paneId =
      if paneId ∈ leafIds layout.root then some windowId else owner state paneId := by
    intro paneId
    subst hnext
    simp only [owner, reduce]
    split
    · exact windowId_indexPane state windowId paneId
    · rfl
  have hself : layoutIds next windowId = leafIds layout.root := by
    subst hnext
    simp [layoutIds, reduce, collectPaneIds]
  have hother : ∀ other, other ≠ windowId → layoutIds next other = layoutIds state other := by
    intro other hne
    subst hnext
    simp [layoutIds, reduce, Function.update_of_ne hne]
  constructor
  · intro hsettled
    refine ⟨fun paneId hpane => ?_, fun other hne paneId hpane hleaf => ?_⟩
    · -- The record of a leaf that is dropped still names the window.
      by_contra hdropped
      have howner := hown paneId
      rw [if_neg hdropped, h.leaves windowId paneId hpane] at howner
      have hlisted := hsettled.records paneId windowId howner
      rw [hself] at hlisted
      exact hdropped hlisted
    · have howner := hown paneId
      rw [← hother other hne] at hpane
      rw [if_pos hleaf, hsettled.leaves other paneId hpane] at howner
      exact hne (Option.some.inj howner)
  · rintro ⟨hlists, hforeign⟩
    refine ⟨?_, ?_, ?_, ?_, ?_⟩
    · subst hnext
      simp only [reduce]
      split
      · exact h.nodup
      · next hnew => exact h.nodup_append hnew
    · intro other
      subst hnext
      simp only [reduce]
      split
      · next hknown =>
        by_cases hne : other = windowId
        · subst hne
          simpa using (h.keys other).mpr hknown
        · rw [Function.update_of_ne hne, ← h.keys other]
      · exact h.mem_append_iff windowId _ other
    · intro other paneId hpane
      rw [hown]
      by_cases hne : other = windowId
      · subst hne
        rw [hself] at hpane
        exact if_pos hpane
      · rw [hother other hne] at hpane
        rw [if_neg (hforeign other hne paneId hpane)]
        exact h.leaves other paneId hpane
    · intro paneId other howner
      rw [hown] at howner
      split at howner
      · next hleaf =>
        obtain rfl := Option.some.inj howner
        rw [hself]
        exact hleaf
      · next hleaf =>
        have hpane := h.records paneId other howner
        have hne : other ≠ windowId := by
          rintro rfl
          exact hleaf (hlists paneId hpane)
        rw [hother other hne]
        exact hpane
    · intro paneId hactive
      subst hnext
      have hsome := h.active paneId hactive
      simp only [reduce]
      split
      · rfl
      · exact hsome

theorem Settled.windowPaneChanged_iff (h : Settled state) (windowId paneId : Text) :
    Settled (reduce state (.windowPaneChanged windowId paneId)) ↔
      Keeps state (.windowPaneChanged windowId paneId) := by
  simp only [reduce, Keeps]
  split
  · next hknown =>
    constructor
    · intro hnext _
      exact hnext.active paneId rfl
    · intro hsome
      refine ⟨h.nodup, h.keys, h.leaves, h.records, fun other hactive => ?_⟩
      obtain rfl := Option.some.inj hactive
      exact hsome hknown
  · next hknown => exact iff_of_true h fun hsome => absurd hsome hknown

/-- One notification keeps the view settled exactly under its condition. -/
theorem settled_reduce_iff (h : Settled state) (notification : TmuxNotification) :
    Settled (reduce state notification) ↔ Keeps state notification := by
  cases notification with
  | windowClose windowId => exact h.windowClose_iff windowId
  | layoutChange windowId layout visibleLayout flags =>
    exact h.layoutChange_iff windowId layout visibleLayout flags
  | windowPaneChanged windowId paneId => exact h.windowPaneChanged_iff windowId paneId
  | windowAdd windowId => exact iff_of_true (h.windowAdd windowId) trivial
  | exit reason => exact iff_of_true settled_emptyView trivial
  | unlinkedWindowAdd windowId => exact iff_of_true h trivial
  | other => exact iff_of_true h trivial
  | sessionChanged sessionId name =>
    exact iff_of_true ⟨h.nodup, h.keys, h.leaves, h.records, h.active⟩ trivial
  | windowRenamed windowId name =>
    refine iff_of_true ?_ trivial
    simp only [reduce]
    split
    · exact h
    · next window hwindow => exact h.of_sameFrame (sameFrame_window hwindow rfl)
  | sessionWindowChanged sessionId windowId =>
    refine iff_of_true ?_ trivial
    simp only [reduce]
    split
    · exact h
    · exact h.of_sameFrame ⟨rfl, fun _ => rfl, fun _ => rfl, fun _ hpane => hpane, Or.inr rfl⟩
  | flow paneId paused =>
    refine iff_of_true ?_ trivial
    simp only [reduce]
    split
    · next hnone => exact h.of_sameFrame (sameFrame_pane (by simp [owner, hnone]))
    · next pane hpane =>
      split
      · exact h
      · exact h.of_sameFrame (sameFrame_pane (by simp [owner, hpane]))
  | subscriptionChanged name value =>
    refine iff_of_true ?_ trivial
    simp only [reduce]
    split
    · exact h
    · next windowId hname =>
      split
      · exact h
      · next window hwindow =>
        split
        · exact h
        · exact h.of_sameFrame (sameFrame_window hwindow rfl)
    · next paneId hname =>
      split
      · exact h
      · apply h.of_sameFrame
        apply sameFrame_pane
        cases hpane : state.panes paneId <;> simp [owner, hpane]

end Steps

/-- A view is settled after each notification of a sequence exactly if each one meets its condition
in the view that it is folded into. -/
theorem settled_foldl_iff (notifications : List TmuxNotification) :
    (∀ front, front <+: notifications → Settled (front.foldl reduce emptyView)) ↔
      ∀ front notification, front ++ [notification] <+: notifications →
        Keeps (front.foldl reduce emptyView) notification := by
  constructor
  · intro h front notification hbegins
    have hfront := h front ((List.prefix_append _ _).trans hbegins)
    have hnext := h _ hbegins
    rw [List.foldl_append, List.foldl_cons, List.foldl_nil] at hnext
    exact (settled_reduce_iff hfront notification).mp hnext
  · intro h front
    -- Each notification finds the view that the ones before it have left settled.
    induction front using List.reverseRecOn with
    | nil => exact fun _ => settled_emptyView
    | append_singleton front notification ih =>
      intro hbegins
      have hfront := ih ((List.prefix_append _ _).trans hbegins)
      rw [List.foldl_append, List.foldl_cons, List.foldl_nil]
      exact (settled_reduce_iff hfront notification).mpr (h front notification hbegins)

/-- The layouts of a window that is split and whose second pane is then closed. -/
def splitAndClose : List TmuxNotification :=
  let box : Remote.LayoutString.Box Number := ⟨some 80, some 24, some 0, some 0⟩
  [.layoutChange "@1".toList ⟨"b0b0".toList,
      .split .lr box (.more (.leaf "%1".toList box) (.last (.leaf "%2".toList box)))⟩ none none,
    .layoutChange "@1".toList ⟨"a0a0".toList, .leaf "%1".toList box⟩ none none]

/-- The record of the closed pane stays, and names the window still. -/
theorem not_settled_splitAndClose : ¬ Settled (splitAndClose.foldl reduce emptyView) := by
  intro h
  have hlisted := h.records "%2".toList "@1".toList (by decide)
  exact absurd hlisted (by decide)

end AgentCockpit.Renderer.TmuxView
