import AgentCockpit.Core.Run
import AgentCockpit.Renderer.TmuxView
import Mathlib

/-!
# The reserved windows of a project

A project's tmux session has two hidden windows, the persistent holder and the run window. They are
known by their names only. On every attach the renderer lists the windows, plans which ones to kill,
to rename and to create, and then sends the commands one after another, while the user goes on
opening, renaming and closing terminals. A terminal is named after its directory.
-/

namespace AgentCockpit.Renderer.ReservedWindows

open AgentCockpit.Core Remote
open TmuxView (isSpace)

/-! ### The plan -/

structure Window where
  id : Text
  name : Text
  deriving DecidableEq, Repr

def persistentWindow : Text := "persistent".toList

def runWindow : Text := "run-1".toList

/-- The name of a run window, `run-` and a number. -/
def isRunWindow : Text → Bool
  | 'r' :: 'u' :: 'n' :: '-' :: number => number ≠ [] && number.all Char.isDigit
  | _ => false

/-- Windows that the tab strip does not show. -/
def isHiddenWindow (name : Text) : Bool := name = persistentWindow || isRunWindow name

inductive ReservedName
  | persistent | run
  deriving DecidableEq, Repr

def ReservedName.text : ReservedName → Text
  | .persistent => persistentWindow
  | .run => runWindow

structure ReconcilePlan where
  toCreate : List ReservedName
  toKill : List Text
  /-- Each of them becomes the run window. -/
  toRename : List Text
  createFirstTerminal : Bool
  deriving DecidableEq, Repr

/-- The integer that a text begins with. -/
def parseInt (text : Text) : Option ℤ :=
  let (sign, digits) : ℤ × Text :=
    match text.dropWhile isSpace with
    | '-' :: rest => (-1, rest)
    | '+' :: rest => (1, rest)
    | rest => (1, rest)
  match digits.takeWhile Char.isDigit with
  | [] => none
  | number => some (sign * number.foldl (fun n c => 10 * n + (c.toNat - '0'.toNat)) 0)

/-- The number of a window; an id without one is sorted last. -/
def windowIdNum (id : Text) : WithTop ℤ :=
  let digits := match id with
    | '@' :: rest => rest
    | rest => rest
  match parseInt digits with
  | some n => n
  | none => ⊤

def byId (windows : List Window) : List Window :=
  windows.insertionSort fun a b => windowIdNum a.id ≤ windowIdNum b.id

/-- What to do to have one window of each reserved class. No windows at all are an attach race. -/
def reconcile (windows : List Window) (createRun : Bool) : Option ReconcilePlan :=
  if windows = [] then none
  else
    let persistents := (byId windows).filter (·.name = persistentWindow)
    let runs := (byId windows).filter (isRunWindow ·.name)
    some {
      toKill := (persistents.drop 1).map (·.id) ++ (runs.drop 1).map (·.id)
      toCreate := (if persistents = [] then [.persistent] else []) ++
        if runs = [] && createRun then [.run] else []
      toRename := match runs with
        | [] => []
        | survivor :: _ => if survivor.name ≠ runWindow then [survivor.id] else []
      createFirstTerminal := windows.all (isHiddenWindow ·.name) }

/-! ### The session -/

inductive Command
  | killWindow (id : Text)
  /-- Rename the window to the run window. -/
  | renameWindow (id : Text)
  | createReserved (name : ReservedName)
  /-- Open a terminal. -/
  | newWindow
  /-- Name the terminal that was opened after its directory. -/
  | nameWindow
  deriving DecidableEq, Repr

/-- The commands of a terminal that is created. -/
def createTerminalWindow : List Command := [.newWindow, .nameWindow]

def ReconcilePlan.commands (plan : ReconcilePlan) : List Command :=
  plan.toKill.map .killWindow ++ plan.toRename.map .renameWindow ++
    plan.toCreate.map .createReserved ++
      if plan.createFirstTerminal then createTerminalWindow else []

/-- Commands that are sent one after another, and the window that one of them has opened. -/
structure CommandRun where
  commands : List Command
  opened : Option Text := none
  deriving DecidableEq, Repr

structure TmuxSession where
  windows : List Window
  /-- How many windows have been created. -/
  made : ℕ := 0
  /-- The windows that were created as terminals of the user. -/
  terminals : List Text
  /-- The windows that a plan has killed or renamed. -/
  reaped : List Text := []
  runs : List CommandRun := []
  deriving DecidableEq, Repr

/-- What happens to a session. -/
inductive SessionEvent
  /-- The windows are listed and a plan is made. -/
  | ensureWindows (listed : List Window) (createRun : Bool)
  /-- The next command of a run is sent; `text` is the name that a terminal gets by it. -/
  | issue (index : ℕ) (text : Text)
  /-- A command fails on its way, and its run ends. -/
  | abandon (index : ℕ)
  /-- The user opens a terminal. -/
  | openTerminal
  /-- The run panel is opened and finds no run window. -/
  | openRunPanel
  | rename (id name : Text)
  | close (id : Text)
  deriving DecidableEq, Repr

namespace TmuxSession

-- `fresh` gives the id of each window that tmux creates.
variable (fresh : ℕ → Text)

def renamed (session : TmuxSession) (id name : Text) : TmuxSession :=
  { session with windows := session.windows.map fun window =>
      if window.id = id then { window with name } else window }

def closed (session : TmuxSession) (id : Text) : TmuxSession :=
  { session with windows := session.windows.filter (·.id ≠ id) }

def Lists (session : TmuxSession) (id : Text) : Prop := ∃ window ∈ session.windows, window.id = id

instance (session : TmuxSession) (id : Text) : Decidable (session.Lists id) :=
  inferInstanceAs (Decidable (∃ window ∈ session.windows, window.id = id))

/-- The session after a command of a run, and the window that the run has opened. A window that is
gone is an error. -/
def exec (session : TmuxSession) (opened : Option Text) (text : Text) :
    Command → Option (TmuxSession × Option Text)
  | .killWindow id =>
    if session.Lists id then
      some ({ session.closed id with reaped := id :: session.reaped }, opened)
    else none
  | .renameWindow id =>
    if session.Lists id then
      some ({ session.renamed id runWindow with reaped := id :: session.reaped }, opened)
    else none
  | .createReserved name =>
    some ({ session with
      windows := session.windows ++ [⟨fresh session.made, name.text⟩]
      made := session.made + 1 }, opened)
  | .newWindow =>
    some ({ session with
      windows := session.windows ++ [⟨fresh session.made, text⟩]
      made := session.made + 1
      terminals := fresh session.made :: session.terminals }, some (fresh session.made))
  | .nameWindow =>
    match opened with
    | none => some (session, none)
    | some id => if session.Lists id then some (session.renamed id text, opened) else none

def step (session : TmuxSession) : SessionEvent → Option TmuxSession
  | .ensureWindows listed createRun =>
    if listed.Perm session.windows then
      match reconcile listed createRun with
      | none => some session
      | some plan => some { session with runs := session.runs ++ [⟨plan.commands, none⟩] }
    else none
  | .issue index text =>
    match session.runs[index]? with
    | some ⟨command :: rest, opened⟩ =>
      match session.exec fresh opened text command with
      | some (next, opened) => some { next with runs := session.runs.set index ⟨rest, opened⟩ }
      | none => some { session with runs := session.runs.set index ⟨[], opened⟩ }
    | _ => none
  | .abandon index => some { session with runs := session.runs.set index ⟨[], none⟩ }
  | .openTerminal => some { session with runs := session.runs ++ [⟨createTerminalWindow, none⟩] }
  | .openRunPanel =>
    some { session with runs := session.runs ++ [⟨[.createReserved .run], none⟩] }
  | .rename id name => if session.Lists id then some (session.renamed id name) else none
  | .close id => if session.Lists id then some (session.closed id) else none

/-- All commands of a run, with nothing between them. A terminal is opened under the name
`default`, and then named `basename`. -/
def perform (default basename : Text) : List Command → TmuxSession → Option Text → TmuxSession
  | [], session, _ => session
  | command :: rest, session, opened =>
    let text := if command = .newWindow then default else basename
    match session.exec fresh opened text command with
    | some (next, opened) => perform default basename rest next opened
    | none => session

/-- The windows are listed, and the plan is carried out at once. -/
def ensureWindows (session : TmuxSession) (listed : List Window) (createRun : Bool)
    (default basename : Text) : TmuxSession :=
  match reconcile listed createRun with
  | none => session
  | some plan => session.perform fresh default basename plan.commands none

end TmuxSession

/-! ### What is to hold -/

/-- There is nothing to plan: one persistent window, at most one run window, under its name, and
one that the user sees. -/
structure Settled (windows : List Window) (createRun : Bool) : Prop where
  plan : reconcile windows createRun = some ⟨[], [], [], false⟩
  persistent : windows.countP (·.name = persistentWindow) = 1
  run : windows.countP (isRunWindow ·.name) ≤ 1
  runName : ∀ window ∈ windows, isRunWindow window.name → window.name = runWindow
  created : createRun → windows.countP (isRunWindow ·.name) = 1
  visible : ∃ window ∈ windows, ¬ isHiddenWindow window.name

/-- A terminal is given no reserved name, by its directory or by the user. -/
def Unreserved (session : TmuxSession) : SessionEvent → Prop
  | .issue index text => ∀ opened rest,
      session.runs[index]? = some ⟨.newWindow :: rest, opened⟩ ∨
        session.runs[index]? = some ⟨.nameWindow :: rest, opened⟩ → ¬ isHiddenWindow text
  | .rename id name => id ∈ session.terminals → ¬ isHiddenWindow name
  | _ => True

/-! ### Plans -/

section Plans

variable {windows : List Window} {createRun : Bool} {window other : Window}

theorem perm_byId (windows : List Window) : (byId windows).Perm windows :=
  List.perm_insertionSort _ _

theorem not_isRunWindow_persistent : isRunWindow persistentWindow = false := by decide

theorem isRunWindow_runWindow : isRunWindow runWindow = true := by decide

theorem runWindow_ne : runWindow ≠ persistentWindow := by decide

theorem isHiddenWindow_iff (name : Text) :
    isHiddenWindow name = true ↔ name = persistentWindow ∨ isRunWindow name = true := by
  rw [isHiddenWindow, Bool.or_eq_true, decide_eq_true_eq]

/-- A plan for windows that are settled is empty. -/
theorem Settled.of_counts (hpersistent : windows.countP (·.name = persistentWindow) = 1)
    (hrun : windows.countP (isRunWindow ·.name) ≤ 1)
    (hname : ∀ window ∈ windows, isRunWindow window.name → window.name = runWindow)
    (hcreated : createRun → windows.countP (isRunWindow ·.name) = 1)
    (hvisible : ∃ window ∈ windows, ¬ isHiddenWindow window.name) : Settled windows createRun := by
  refine ⟨?_, hpersistent, hrun, hname, hcreated, hvisible⟩
  obtain ⟨shown, hshown, hshows⟩ := hvisible
  have hperm := perm_byId windows
  have hpersistents : ((byId windows).filter (·.name = persistentWindow)).length = 1 := by
    rw [← List.countP_eq_length_filter, hperm.countP_eq, hpersistent]
  have hruns : ((byId windows).filter (isRunWindow ·.name)).length =
      windows.countP (isRunWindow ·.name) := by
    rw [← List.countP_eq_length_filter, hperm.countP_eq]
  obtain ⟨persistent, hone⟩ := List.length_eq_one_iff.mp hpersistents
  have hany : windows.all (isHiddenWindow ·.name) = false := by
    rw [List.all_eq_false]
    exact ⟨shown, hshown, hshows⟩
  rw [reconcile, if_neg (List.ne_nil_of_mem hshown), hone, hany]
  dsimp only
  cases hlist : (byId windows).filter (isRunWindow ·.name) with
  | nil =>
    have hoff : createRun = false := by
      by_contra hon
      have hcount := hcreated (by simpa using hon)
      rw [hlist, hcount] at hruns
      exact nomatch hruns
    rw [hoff]
    rfl
  | cons survivor others =>
    have hothers : others = [] := by
      rw [hlist, List.length_cons] at hruns
      exact List.eq_nil_of_length_eq_zero (by omega)
    have hsurvivor : survivor ∈ (byId windows).filter (isRunWindow ·.name) := by
      rw [hlist]
      exact List.mem_cons_self
    obtain ⟨hmem, hclass⟩ := List.mem_filter.mp hsurvivor
    have hsame := hname survivor (hperm.mem_iff.mp hmem) hclass
    rw [hothers]
    simp [hsame]

/-! ### Who survives -/

/-- The windows that a plan kills. -/
def killed (windows : List Window) : List Text :=
  (((byId windows).filter (·.name = persistentWindow)).drop 1).map (·.id) ++
    (((byId windows).filter (isRunWindow ·.name)).drop 1).map (·.id)

/-- Of a class, of which all but the first are killed, one survives if there are any. -/
theorem countP_survivors {kills : List Text} {inClass : Window → Bool}
    (hdistinct : (windows.map (·.id)).Nodup)
    (hkills : ∀ window ∈ windows, inClass window →
      (window.id ∈ kills ↔ window.id ∈ (((byId windows).filter inClass).drop 1).map (·.id))) :
    (windows.filter (·.id ∉ kills)).countP inClass = min 1 (windows.countP inClass) := by
  have hperm := perm_byId windows
  have hsurvive : (windows.filter (·.id ∉ kills)).countP inClass =
      ((byId windows).filter inClass).countP (·.id ∉ kills) := by
    rw [← (hperm.filter _).countP_eq, List.countP_filter, List.countP_filter]
    apply List.countP_congr
    intro window _
    rw [Bool.and_comm]
  have hclass : ((byId windows).filter inClass).length = windows.countP inClass := by
    rw [← List.countP_eq_length_filter, hperm.countP_eq]
  have hnodup : (((byId windows).filter inClass).map (·.id)).Nodup :=
    (List.filter_sublist.map _).nodup ((hperm.map _).nodup_iff.mpr hdistinct)
  rw [hsurvive, ← hclass]
  have hin (window : Window) (hwindow : window ∈ (byId windows).filter inClass) :
      window.id ∈ kills ↔
        window.id ∈ (((byId windows).filter inClass).drop 1).map (·.id) := by
    obtain ⟨hmem, hclass⟩ := List.mem_filter.mp hwindow
    exact hkills window (hperm.mem_iff.mp hmem) hclass
  generalize (byId windows).filter inClass = members at hin hnodup ⊢
  cases members with
  | nil => rfl
  | cons first others =>
    rw [List.map_cons, List.nodup_cons] at hnodup
    have hfirst : first.id ∉ kills := fun hkill =>
      hnodup.1 ((hin first List.mem_cons_self).mp hkill)
    have hothers : others.countP (·.id ∉ kills) = 0 := by
      apply List.countP_eq_zero.mpr
      intro other hother hspared
      apply of_decide_eq_true hspared
      exact (hin other (List.mem_cons_of_mem _ hother)).mpr (List.mem_map_of_mem hother)
    rw [List.countP_cons, hothers, if_pos (decide_eq_true hfirst), List.length_cons]
    omega

/-- Windows that are told apart by their ids. -/
def Distinct (windows : List Window) : Prop := (windows.map (·.id)).Nodup

theorem Distinct.eq (h : Distinct windows) (hwindow : window ∈ windows) (hother : other ∈ windows)
    (hid : window.id = other.id) : window = other :=
  List.inj_on_of_nodup_map h hwindow hother hid

theorem mem_class {inClass : Window → Bool} (h : window ∈ ((byId windows).filter inClass).drop 1) :
    window ∈ windows ∧ inClass window := by
  obtain ⟨hmem, hclass⟩ := List.mem_filter.mp (List.mem_of_mem_drop h)
  exact ⟨(perm_byId windows).mem_iff.mp hmem, hclass⟩

/-- A window of a class is killed if and only if it is not the first of its class. -/
theorem mem_killed_iff (h : Distinct windows) (hwindow : window ∈ windows) :
    window.id ∈ killed windows ↔
      window ∈ ((byId windows).filter (·.name = persistentWindow)).drop 1 ∨
        window ∈ ((byId windows).filter (isRunWindow ·.name)).drop 1 := by
  have hid {inClass : Window → Bool} :
      window.id ∈ (((byId windows).filter inClass).drop 1).map (·.id) ↔
        window ∈ ((byId windows).filter inClass).drop 1 := by
    constructor
    · intro hmem
      obtain ⟨other, hother, heq⟩ := List.mem_map.mp hmem
      rwa [← h.eq (mem_class hother).1 hwindow heq]
    · exact List.mem_map_of_mem
  rw [killed, List.mem_append, hid, hid]

/-- The windows that a plan leaves. -/
def survivors (windows : List Window) : List Window := windows.filter (·.id ∉ killed windows)

theorem countP_persistent_survivors (h : Distinct windows) :
    (survivors windows).countP (·.name = persistentWindow) =
      min 1 (windows.countP (·.name = persistentWindow)) := by
  apply countP_survivors h
  intro window hwindow hclass
  rw [mem_killed_iff h hwindow]
  constructor
  · rintro (hpersistent | hrun)
    · exact List.mem_map_of_mem hpersistent
    · have hboth := (mem_class hrun).2
      rw [of_decide_eq_true hclass, not_isRunWindow_persistent] at hboth
      exact nomatch hboth
  · intro hmem
    obtain ⟨other, hother, heq⟩ := List.mem_map.mp hmem
    exact .inl (h.eq (mem_class hother).1 hwindow heq ▸ hother)

theorem countP_run_survivors (h : Distinct windows) :
    (survivors windows).countP (isRunWindow ·.name) =
      min 1 (windows.countP (isRunWindow ·.name)) := by
  apply countP_survivors h
  intro window hwindow hclass
  rw [mem_killed_iff h hwindow]
  constructor
  · rintro (hpersistent | hrun)
    · rw [of_decide_eq_true (mem_class hpersistent).2, not_isRunWindow_persistent] at hclass
      exact nomatch hclass
    · exact List.mem_map_of_mem hrun
  · intro hmem
    obtain ⟨other, hother, heq⟩ := List.mem_map.mp hmem
    exact .inr (h.eq (mem_class hother).1 hwindow heq ▸ hother)

/-- A window that the user sees is left alone. -/
theorem mem_survivors_of_visible (h : Distinct windows) (hwindow : window ∈ windows)
    (hshows : ¬ isHiddenWindow window.name) : window ∈ survivors windows := by
  rw [isHiddenWindow_iff, not_or] at hshows
  apply List.mem_filter.mpr
  refine ⟨hwindow, decide_eq_true fun hkill => ?_⟩
  rcases (mem_killed_iff h hwindow).mp hkill with hpersistent | hrun
  · exact hshows.1 (of_decide_eq_true (mem_class hpersistent).2)
  · exact hshows.2 (mem_class hrun).2

/-- The windows that a plan renames. -/
def toRename (windows : List Window) : List Text :=
  match (byId windows).filter (isRunWindow ·.name) with
  | [] => []
  | survivor :: _ => if survivor.name ≠ runWindow then [survivor.id] else []

/-- Windows after some of them have been renamed to the run window. -/
def renameAll (ids : List Text) (windows : List Window) : List Window :=
  windows.map fun window => if window.id ∈ ids then { window with name := runWindow } else window

theorem exists_of_mem_toRename {id : Text} (h : id ∈ toRename windows) :
    ∃ window ∈ windows, window.id = id ∧ isRunWindow window.name ∧
      window ∈ ((byId windows).filter (isRunWindow ·.name)).take 1 := by
  unfold toRename at h
  split at h
  · exact nomatch h
  · next survivor others hruns =>
    split at h
    · obtain rfl := List.mem_singleton.mp h
      have hsurvivor : survivor ∈ (byId windows).filter (isRunWindow ·.name) := by
        rw [hruns]
        exact List.mem_cons_self
      obtain ⟨hmem, hclass⟩ := List.mem_filter.mp hsurvivor
      refine ⟨survivor, (perm_byId windows).mem_iff.mp hmem, rfl, hclass, ?_⟩
      rw [hruns]
      exact List.mem_cons_self
    · exact nomatch h

/-- What is renamed is not killed. -/
theorem exists_survivor_of_mem_toRename (h : Distinct windows) {id : Text}
    (hid : id ∈ toRename windows) : ∃ window ∈ survivors windows, window.id = id := by
  obtain ⟨window, hwindow, rfl, hclass, hfirst⟩ := exists_of_mem_toRename hid
  refine ⟨window, List.mem_filter.mpr ⟨hwindow, decide_eq_true fun hkill => ?_⟩, rfl⟩
  rcases (mem_killed_iff h hwindow).mp hkill with hpersistent | hrun
  · rw [of_decide_eq_true (mem_class hpersistent).2, not_isRunWindow_persistent] at hclass
    exact nomatch hclass
  · have hnodup : ((byId windows).filter (isRunWindow ·.name)).Nodup :=
      List.Nodup.filter _ ((perm_byId windows).nodup_iff.mpr (List.Nodup.of_map _ h))
    exact List.disjoint_take_drop hnodup le_rfl hfirst hrun

theorem nodup_killed (h : Distinct windows) : (killed windows).Nodup := by
  have hclass (inClass : Window → Bool) :
      ((((byId windows).filter inClass).drop 1).map (·.id)).Nodup :=
    (((List.drop_sublist ..).trans List.filter_sublist).map _).nodup
      (((perm_byId windows).map _).nodup_iff.mpr h)
  apply List.nodup_append.mpr
  refine ⟨hclass _, hclass _, ?_⟩
  rintro _ hpersistent _ hrun rfl
  obtain ⟨window, hwindow, hid⟩ := List.mem_map.mp hpersistent
  obtain ⟨other, hother, heq⟩ := List.mem_map.mp hrun
  obtain rfl := h.eq (mem_class hwindow).1 (mem_class hother).1 (hid.trans heq.symm)
  have hboth := (mem_class hother).2
  rw [of_decide_eq_true (mem_class hwindow).2, not_isRunWindow_persistent] at hboth
  exact nomatch hboth

/-- Renaming moves no window from one class to another. -/
theorem class_renameAll (h : Distinct windows) (hwindow : window ∈ windows) :
    (isRunWindow (if window.id ∈ toRename windows then { window with name := runWindow }
        else window).name = isRunWindow window.name) ∧
      ((if window.id ∈ toRename windows then { window with name := runWindow }
        else window).name = persistentWindow ↔ window.name = persistentWindow) := by
  split
  · next hrename =>
    obtain ⟨other, hother, hid, hclass, -⟩ := exists_of_mem_toRename hrename
    obtain rfl := h.eq hother hwindow hid
    refine ⟨isRunWindow_runWindow.trans hclass.symm, fun heq => absurd heq runWindow_ne, ?_⟩
    intro heq
    rw [heq, not_isRunWindow_persistent] at hclass
    exact nomatch hclass
  · exact ⟨rfl, Iff.rfl⟩

/-- The run window that survives has its name in the end. -/
theorem name_of_run_survivor (h : Distinct windows) (hwindow : window ∈ survivors windows)
    (hclass : isRunWindow window.name) :
    (if window.id ∈ toRename windows then { window with name := runWindow }
      else window).name = runWindow := by
  obtain ⟨hmem, hspared⟩ := List.mem_filter.mp hwindow
  have hrun : window ∈ (byId windows).filter (isRunWindow ·.name) :=
    List.mem_filter.mpr ⟨(perm_byId windows).mem_iff.mpr hmem, hclass⟩
  have hfirst : window ∉ ((byId windows).filter (isRunWindow ·.name)).drop 1 := fun hlater =>
    of_decide_eq_true hspared ((mem_killed_iff h hmem).mpr (.inr hlater))
  by_cases hname : window.name = runWindow
  · split
    · rfl
    · exact hname
  · rw [if_pos]
    unfold toRename
    cases hruns : (byId windows).filter (isRunWindow ·.name) with
    | nil =>
      rw [hruns] at hrun
      exact nomatch hrun
    | cons survivor others =>
      rw [hruns] at hrun hfirst
      obtain rfl := (List.mem_cons.mp hrun).resolve_right hfirst
      dsimp only
      rw [if_pos hname]
      exact List.mem_singleton.mpr rfl

/-- The reserved windows that a plan creates. -/
def toCreate (windows : List Window) (createRun : Bool) : List ReservedName :=
  (if (byId windows).filter (·.name = persistentWindow) = [] then [.persistent] else []) ++
    if (byId windows).filter (isRunWindow ·.name) = [] && createRun then [.run] else []

theorem reconcile_eq (h : windows ≠ []) : reconcile windows createRun =
    some ⟨toCreate windows createRun, killed windows, toRename windows,
      windows.all (isHiddenWindow ·.name)⟩ := by
  rw [reconcile, if_neg h]
  rfl

theorem filter_byId_eq_nil {inClass : Window → Bool} :
    (byId windows).filter inClass = [] ↔ windows.countP inClass = 0 := by
  rw [← List.length_eq_zero_iff, ← List.countP_eq_length_filter, (perm_byId windows).countP_eq]

theorem countP_renameAll {inClass : Text → Bool}
    (hclass : ∀ window ∈ windows, inClass (if window.id ∈ toRename windows
      then { window with name := runWindow } else window).name = inClass window.name) :
    (renameAll (toRename windows) (survivors windows)).countP (inClass ·.name) =
      (survivors windows).countP (inClass ·.name) := by
  rw [renameAll, List.countP_map]
  apply List.countP_congr
  intro window hwindow
  rw [Function.comp_apply, hclass window (List.mem_filter.mp hwindow).1]

end Plans

/-! ### Carrying out a plan -/

namespace TmuxSession

variable {fresh : ℕ → Text} {default basename : Text} {session : TmuxSession}
variable {rest : List Command} {opened : Option Text}

theorem perform_kill {ids : List Text} (hids : ids.Nodup) (hlists : ∀ id ∈ ids, session.Lists id) :
    ∃ next : TmuxSession,
      session.perform fresh default basename (ids.map .killWindow ++ rest) opened =
        next.perform fresh default basename rest opened ∧
      next.windows = session.windows.filter (·.id ∉ ids) ∧ next.made = session.made := by
  induction ids generalizing session with
  | nil => exact ⟨session, rfl, by simp, rfl⟩
  | cons id ids ih =>
    obtain ⟨hnot, hnodup⟩ := List.nodup_cons.mp hids
    -- The windows still to be killed are listed after the first is gone.
    have hstill : ∀ other ∈ ids,
        Lists { session.closed id with reaped := id :: session.reaped } other := by
      intro other hother
      obtain ⟨window, hwindow, hid⟩ := hlists other (List.mem_cons_of_mem _ hother)
      refine ⟨window, List.mem_filter.mpr ⟨hwindow, decide_eq_true ?_⟩, hid⟩
      rintro rfl
      exact hnot (hid ▸ hother)
    obtain ⟨next, hperform, hwindows, hmade⟩ := ih hnodup hstill
    refine ⟨next, ?_, ?_, hmade⟩
    · rw [List.map_cons, List.cons_append, perform, exec,
        if_pos (hlists id List.mem_cons_self)]
      exact hperform
    · rw [hwindows, closed, List.filter_filter]
      apply List.filter_congr
      intro window _
      simp only [List.mem_cons, not_or, Bool.decide_and, Bool.and_comm]

theorem perform_rename {ids : List Text} (hlists : ∀ id ∈ ids, session.Lists id) :
    ∃ next : TmuxSession,
      session.perform fresh default basename (ids.map .renameWindow ++ rest) opened =
        next.perform fresh default basename rest opened ∧
      next.windows = renameAll ids session.windows ∧ next.made = session.made := by
  induction ids generalizing session with
  | nil => exact ⟨session, rfl, by simp [renameAll], rfl⟩
  | cons id ids ih =>
    have hstill : ∀ other ∈ ids,
        Lists { session.renamed id runWindow with reaped := id :: session.reaped } other := by
      intro other hother
      obtain ⟨window, hwindow, hid⟩ := hlists other (List.mem_cons_of_mem _ hother)
      refine ⟨_, List.mem_map_of_mem hwindow, ?_⟩
      split <;> exact hid
    obtain ⟨next, hperform, hwindows, hmade⟩ := ih hstill
    refine ⟨next, ?_, ?_, hmade⟩
    · rw [List.map_cons, List.cons_append, perform, exec,
        if_pos (hlists id List.mem_cons_self)]
      exact hperform
    · rw [hwindows, renamed, renameAll, renameAll, List.map_map]
      apply List.map_congr_left
      intro window _
      by_cases hfirst : window.id = id
      · simp [hfirst]
      · simp [hfirst]

theorem perform_create (names : List ReservedName) :
    ∃ (next : TmuxSession) (created : List Window),
      session.perform fresh default basename (names.map .createReserved ++ rest)
        opened = next.perform fresh default basename rest opened ∧
      next.windows = session.windows ++ created ∧ created.map (·.name) = names.map (·.text) ∧
      session.made ≤ next.made ∧ ∀ window ∈ created, ∃ n < next.made, window.id = fresh n := by
  induction names generalizing session with
  | nil => exact ⟨session, [], rfl, by simp, rfl, le_rfl, nofun⟩
  | cons name names ih =>
    obtain ⟨next, created, hperform, hwindows, hnames, hmade, hfresh⟩ := @ih { session with
      windows := session.windows ++ [⟨fresh session.made, name.text⟩]
      made := session.made + 1 }
    have hlater : session.made + 1 ≤ next.made := hmade
    refine ⟨next, ⟨fresh session.made, name.text⟩ :: created, hperform, ?_, ?_, by omega, ?_⟩
    · rw [hwindows, List.append_assoc, List.singleton_append]
    · rw [List.map_cons, List.map_cons, hnames]
    · intro window hwindow
      rcases List.mem_cons.mp hwindow with rfl | hother
      · exact ⟨session.made, by omega, rfl⟩
      · exact hfresh window hother

theorem perform_createTerminalWindow (hfresh : ∀ window ∈ session.windows,
    window.id ≠ fresh session.made) :
    (session.perform fresh default basename createTerminalWindow opened).windows =
      session.windows ++ [⟨fresh session.made, basename⟩] := by
  have hlists : Lists { session with
      windows := session.windows ++ [⟨fresh session.made, default⟩]
      made := session.made + 1
      terminals := fresh session.made :: session.terminals } (fresh session.made) :=
    ⟨⟨fresh session.made, default⟩, by simp, rfl⟩
  have hold : session.windows.map (fun window =>
      if window.id = fresh session.made then { window with name := basename } else window) =
      session.windows := by
    rw [List.map_congr_left (g := id), List.map_id]
    intro window hwindow
    exact if_neg (hfresh window hwindow)
  simp only [createTerminalWindow, perform, exec, if_true, reduceCtorEq, if_false, if_pos hlists,
    renamed, List.map_append, hold, List.map_cons, List.map_nil]

/-- The windows that a plan leaves, renames and creates. -/
theorem windows_ensureWindows {listed : List Window} {createRun : Bool}
    (hperm : listed.Perm session.windows) (hne : listed ≠ []) (hdistinct : Distinct listed)
    (hfresh : Function.Injective fresh)
    (hpast : ∀ window ∈ session.windows, ∀ n, session.made ≤ n → window.id ≠ fresh n) :
    ∃ created terminal : List Window,
      (session.ensureWindows fresh listed createRun default basename).windows.Perm
        (renameAll (toRename listed) (survivors listed) ++ created ++ terminal) ∧
      created.map (·.name) = (toCreate listed createRun).map (·.text) ∧
      terminal.map (·.name) = if listed.all (isHiddenWindow ·.name) then [basename] else [] := by
  have hlists (window : Window) (hwindow : window ∈ listed) : session.Lists window.id :=
    ⟨window, hperm.mem_iff.mp hwindow, rfl⟩
  -- Kills come first, then names, then creations; each lot leaves the windows of the next listed.
  have hkilled : ∀ id ∈ killed listed, session.Lists id := by
    intro id hid
    rcases List.mem_append.mp hid with hclass | hclass
    · obtain ⟨window, hwindow, rfl⟩ := List.mem_map.mp hclass
      exact hlists window (mem_class hwindow).1
    · obtain ⟨window, hwindow, rfl⟩ := List.mem_map.mp hclass
      exact hlists window (mem_class hwindow).1
  rw [ensureWindows, reconcile_eq hne]
  dsimp only [ReconcilePlan.commands]
  rw [List.append_assoc, List.append_assoc]
  obtain ⟨afterKills, hkills, hkept, hmadeKills⟩ := @perform_kill fresh default basename session
    ((toRename listed).map .renameWindow ++ ((toCreate listed createRun).map .createReserved ++
      if listed.all (isHiddenWindow ·.name) then createTerminalWindow else [])) none
    _ (nodup_killed hdistinct) hkilled
  rw [hkills]
  have hsurvivors : afterKills.windows.Perm (survivors listed) := by
    rw [hkept]
    exact hperm.symm.filter _
  have hrenamed : ∀ id ∈ toRename listed, afterKills.Lists id := by
    intro id hid
    obtain ⟨window, hwindow, heq⟩ := exists_survivor_of_mem_toRename hdistinct hid
    exact ⟨window, hsurvivors.mem_iff.mpr hwindow, heq⟩
  obtain ⟨afterRename, hrename, hnamed, hmadeRename⟩ := @perform_rename fresh default basename
    afterKills ((toCreate listed createRun).map .createReserved ++
      if listed.all (isHiddenWindow ·.name) then createTerminalWindow else []) none _ hrenamed
  rw [hrename]
  obtain ⟨afterCreate, created, hcreate, hwindows, hnames, hmade, hnew⟩ :=
    @perform_create fresh default basename afterRename
      (if listed.all (isHiddenWindow ·.name) then createTerminalWindow else []) none
      (toCreate listed createRun)
  rw [hcreate]
  have hold : (renameAll (toRename listed) afterKills.windows).Perm
      (renameAll (toRename listed) (survivors listed)) := hsurvivors.map _
  split
  · -- Every window is hidden: a terminal is opened with an id that no window has.
    refine ⟨created, [⟨fresh afterCreate.made, basename⟩], ?_, hnames, rfl⟩
    have hunused : ∀ window ∈ afterCreate.windows, window.id ≠ fresh afterCreate.made := by
      rw [hwindows, hnamed, hkept]
      intro window hwindow
      rcases List.mem_append.mp hwindow with hbefore | hcreated
      · obtain ⟨before, hlisted, rfl⟩ := List.mem_map.mp hbefore
        have hid : (if before.id ∈ toRename listed then { before with name := runWindow }
            else before).id = before.id := by
          split <;> rfl
        rw [hid]
        exact hpast before (List.mem_filter.mp hlisted).1 _ (by omega)
      · obtain ⟨n, hn, hid⟩ := hnew window hcreated
        rw [hid]
        exact fun heq => hn.ne (hfresh heq)
    rw [perform_createTerminalWindow hunused, hwindows, hnamed]
    exact (hold.append_right _).append_right _
  · refine ⟨created, [], ?_, hnames, rfl⟩
    rw [perform, hwindows, hnamed, List.append_nil]
    exact hold.append_right _

end TmuxSession

/-! ### Settling -/

section Settling

variable {listed : List Window} {createRun : Bool} {basename : Text}
variable {created terminal windows : List Window}

/-- The windows after a plan, without their order. -/
structure Planned (listed : List Window) (createRun : Bool) (basename : Text)
    (created terminal windows : List Window) : Prop where
  perm : windows.Perm (renameAll (toRename listed) (survivors listed) ++ created ++ terminal)
  created : created.map (·.name) = (toCreate listed createRun).map (·.text)
  terminal : terminal.map (·.name) =
    if listed.all (isHiddenWindow ·.name) then [basename] else []

theorem countP_name {inClass : Text → Bool} (windows : List Window) :
    windows.countP (inClass ·.name) = (windows.map (·.name)).countP inClass :=
  List.countP_map.symm

/-- The windows of a class after a plan. -/
theorem Planned.countP (h : Planned listed createRun basename created terminal windows)
    (inClass : Text → Bool) (hclass : ∀ window ∈ listed, inClass (if window.id ∈ toRename listed
      then { window with name := runWindow } else window).name = inClass window.name) :
    windows.countP (inClass ·.name) = (survivors listed).countP (inClass ·.name) +
      ((toCreate listed createRun).map (·.text)).countP inClass +
        (if listed.all (isHiddenWindow ·.name) then [basename] else []).countP inClass := by
  rw [h.perm.countP_eq, List.countP_append, List.countP_append, countP_renameAll hclass,
    @countP_name inClass created, @countP_name inClass terminal, h.created, h.terminal]

theorem countP_persistent_toCreate : ((toCreate listed createRun).map (·.text)).countP
    (· = persistentWindow) = 1 - min 1 (listed.countP (·.name = persistentWindow)) := by
  have hnone := @filter_byId_eq_nil listed (·.name = persistentWindow)
  unfold toCreate
  rw [List.map_append, List.countP_append]
  have hrun : ((if (byId listed).filter (isRunWindow ·.name) = [] && createRun then
      [ReservedName.run] else []).map (·.text)).countP (· = persistentWindow) = 0 := by
    split <;> decide
  rw [hrun]
  split
  · next hempty =>
    rw [hnone.mp hempty]
    rfl
  · next hsome =>
    have hpos : listed.countP (·.name = persistentWindow) ≠ 0 := fun hzero =>
      hsome (hnone.mpr hzero)
    simp
    omega

theorem countP_run_toCreate : ((toCreate listed createRun).map (·.text)).countP isRunWindow =
    if createRun then 1 - min 1 (listed.countP (isRunWindow ·.name)) else 0 := by
  have hnone := @filter_byId_eq_nil listed (isRunWindow ·.name)
  unfold toCreate
  rw [List.map_append, List.countP_append]
  have hpersistent : ((if (byId listed).filter (·.name = persistentWindow) = [] then
      [ReservedName.persistent] else []).map (·.text)).countP isRunWindow = 0 := by
    split <;> decide
  rw [hpersistent]
  cases createRun with
  | false => simp
  | true =>
    by_cases hempty : (byId listed).filter (isRunWindow ·.name) = []
    · simp [hempty, hnone.mp hempty, ReservedName.text, isRunWindow_runWindow]
    · have hpos : listed.countP (isRunWindow ·.name) ≠ 0 := fun hzero => hempty (hnone.mpr hzero)
      simp [hempty]
      omega

theorem Planned.name_cases (h : Planned listed createRun basename created terminal windows)
    {window : Window} (hwindow : window ∈ windows) :
    (∃ survivor ∈ survivors listed, window = if survivor.id ∈ toRename listed
      then { survivor with name := runWindow } else survivor) ∨
    (∃ reserved ∈ toCreate listed createRun, window.name = reserved.text) ∨
    listed.all (isHiddenWindow ·.name) = true ∧ window.name = basename := by
  have hplanned := h.perm.mem_iff.mp hwindow
  rw [List.append_assoc, List.mem_append, List.mem_append] at hplanned
  rcases hplanned with hkept | hcreated | hterminal
  · obtain ⟨survivor, hsurvivor, rfl⟩ := List.mem_map.mp hkept
    exact .inl ⟨survivor, hsurvivor, rfl⟩
  · have hname : window.name ∈ (toCreate listed createRun).map (·.text) :=
      h.created ▸ List.mem_map_of_mem hcreated
    obtain ⟨reserved, hreserved, heq⟩ := List.mem_map.mp hname
    exact .inr (.inl ⟨reserved, hreserved, heq.symm⟩)
  · have hname : window.name ∈ if listed.all (isHiddenWindow ·.name) then [basename] else [] :=
      h.terminal ▸ List.mem_map_of_mem hterminal
    split at hname
    · next hall => exact .inr (.inr ⟨hall, List.mem_singleton.mp hname⟩)
    · exact nomatch hname

/-- A window that the plan leaves visible was visible before, or is the first terminal. -/
theorem Planned.visible (h : Planned listed createRun basename created terminal windows)
    {window : Window} (hwindow : window ∈ windows) (hshows : ¬ isHiddenWindow window.name)
    (hall : ∀ window ∈ listed, isHiddenWindow window.name) : window.name = basename := by
  rcases h.name_cases hwindow with ⟨survivor, hsurvivor, rfl⟩ | ⟨reserved, -, hname⟩ | ⟨-, hname⟩
  · exfalso
    apply hshows
    split
    · exact (isHiddenWindow_iff _).mpr (.inr isRunWindow_runWindow)
    · exact hall survivor (List.mem_filter.mp hsurvivor).1
  · rw [hname] at hshows
    exact absurd (by cases reserved <;> decide) hshows
  · exact hname

/-- The first terminal, where one is opened. -/
theorem Planned.exists_terminal (h : Planned listed createRun basename created terminal windows)
    (hall : listed.all (isHiddenWindow ·.name) = true) : ∃ window ∈ windows,
      window.name = basename := by
  obtain ⟨window, hwindow, hname⟩ : ∃ window ∈ terminal, window.name = basename := by
    apply List.mem_map.mp
    rw [h.terminal, if_pos hall]
    exact List.mem_singleton.mpr rfl
  exact ⟨window, h.perm.mem_iff.mpr (List.mem_append_right _ hwindow), hname⟩

/-- A visible window is neither killed nor renamed. -/
theorem Planned.mem_of_visible (h : Planned listed createRun basename created terminal windows)
    (hdistinct : Distinct listed) {window : Window} (hwindow : window ∈ listed)
    (hshows : ¬ isHiddenWindow window.name) : window ∈ windows := by
  have hspared : window.id ∉ toRename listed := by
    intro hid
    obtain ⟨other, hother, heq, hclass, -⟩ := exists_of_mem_toRename hid
    obtain rfl := hdistinct.eq hother hwindow heq
    exact hshows ((isHiddenWindow_iff _).mpr (.inr hclass))
  have hkept : window ∈ renameAll (toRename listed) (survivors listed) := by
    have hmem := List.mem_map_of_mem (f := fun window : Window =>
      if window.id ∈ toRename listed then { window with name := runWindow } else window)
      (mem_survivors_of_visible hdistinct hwindow hshows)
    rwa [if_neg hspared] at hmem
  exact h.perm.mem_iff.mpr (List.mem_append_left _ (List.mem_append_left _ hkept))

/-- A plan settles the windows if and only if the first terminal, where it opens one, gets a name
that is not reserved. -/
theorem Planned.settled_iff (h : Planned listed createRun basename created terminal windows)
    (hdistinct : Distinct listed) : Settled windows createRun ↔
      ((∀ window ∈ listed, isHiddenWindow window.name) → ¬ isHiddenWindow basename) := by
  constructor
  · intro hsettled hall
    obtain ⟨window, hwindow, hshows⟩ := hsettled.visible
    rwa [← h.visible hwindow hshows hall]
  intro hbasename
  -- The terminal that is opened is in neither class.
  have hopened : listed.all (isHiddenWindow ·.name) = true →
      basename ≠ persistentWindow ∧ isRunWindow basename = false := by
    intro hall
    have hshows := hbasename (List.all_eq_true.mp hall)
    rw [isHiddenWindow_iff, not_or] at hshows
    exact ⟨hshows.1, Bool.eq_false_iff.mpr hshows.2⟩
  have hnone {inClass : Text → Bool}
      (hclass : listed.all (isHiddenWindow ·.name) = true → inClass basename = false) :
      (if listed.all (isHiddenWindow ·.name) then [basename] else []).countP inClass = 0 := by
    split
    · next hall => simp [hclass hall]
    · rfl
  have hpersistent := h.countP (· = persistentWindow) fun window hwindow =>
    decide_eq_decide.mpr (class_renameAll hdistinct hwindow).2
  rw [countP_persistent_survivors hdistinct, countP_persistent_toCreate,
    hnone fun hall => decide_eq_false (hopened hall).1] at hpersistent
  have hrun := h.countP isRunWindow fun window hwindow =>
    (class_renameAll hdistinct hwindow).1
  rw [countP_run_survivors hdistinct, countP_run_toCreate,
    hnone fun hall => (hopened hall).2] at hrun
  apply Settled.of_counts
  · rw [hpersistent]
    omega
  · rw [hrun]
    split <;> omega
  · -- A run window is left by the plan, created by it, or the terminal.
    intro window hwindow hclass
    rcases h.name_cases hwindow with ⟨survivor, hsurvivor, rfl⟩ | ⟨reserved, -, hname⟩ |
      ⟨hall, hname⟩
    · rw [(class_renameAll hdistinct (List.mem_filter.mp hsurvivor).1).1] at hclass
      exact name_of_run_survivor hdistinct hsurvivor hclass
    · cases reserved with
      | persistent =>
        rw [hname] at hclass
        exact absurd hclass (by decide)
      | run => exact hname
    · rw [hname, (hopened hall).2] at hclass
      exact nomatch hclass
  · intro hon
    rw [hrun, if_pos hon]
    omega
  · by_cases hall : listed.all (isHiddenWindow ·.name) = true
    · obtain ⟨window, hwindow, hname⟩ := h.exists_terminal hall
      refine ⟨window, hwindow, ?_⟩
      rw [hname]
      exact hbasename (List.all_eq_true.mp hall)
    · rw [Bool.not_eq_true, List.all_eq_false] at hall
      obtain ⟨window, hwindow, hshows⟩ := hall
      exact ⟨window, h.mem_of_visible hdistinct hwindow hshows, hshows⟩

end Settling

/-! ### Runs -/

namespace TmuxSession

variable {fresh : ℕ → Text} {session next : TmuxSession} {event : SessionEvent}

/-- A command of a plan that takes or renames a window. -/
def Reaps (id : Text) : Command → Prop
  | .killWindow other => other = id
  | .renameWindow other => other = id
  | _ => False

/-- tmux has not given the id away yet. -/
def Unused (fresh : ℕ → Text) (session : TmuxSession) (id : Text) : Prop :=
  ∃ n, session.made ≤ n ∧ id = fresh n

/-- The command takes and renames no terminal, and none that is still to come. -/
def Harmless (fresh : ℕ → Text) (session : TmuxSession) (command : Command) : Prop :=
  ∀ id, Reaps id command → id ∉ session.terminals ∧ ¬ Unused fresh session id

/-- Terminals have names of their own, and no plan in flight names one of them. -/
structure Spares (fresh : ℕ → Text) (session : TmuxSession) : Prop where
  named : ∀ window ∈ session.windows, window.id ∈ session.terminals → ¬ isHiddenWindow window.name
  windows : ∀ window ∈ session.windows, ¬ Unused fresh session window.id
  terminals : ∀ id ∈ session.terminals, ¬ Unused fresh session id
  pending : ∀ run ∈ session.runs, ∀ command ∈ run.commands, ∀ id, Reaps id command →
    id ∉ session.terminals ∧ ¬ Unused fresh session id
  reaped : ∀ id ∈ session.reaped, id ∉ session.terminals ∧ ¬ Unused fresh session id

namespace Spares

/-- A plan names hidden windows only. -/
theorem reaps_commands {plan : ReconcilePlan} {listed : List Window} {createRun : Bool}
    (hplan : reconcile listed createRun = some plan) {command : Command} {id : Text}
    (hcommand : command ∈ plan.commands) (hreaps : Reaps id command) :
    ∃ window ∈ listed, window.id = id ∧ isHiddenWindow window.name := by
  have hne : listed ≠ [] := by
    rintro rfl
    exact nomatch hplan
  obtain rfl := Option.some.inj ((reconcile_eq hne).symm.trans hplan)
  have hclass {inClass : Window → Bool} (hhidden : ∀ window, inClass window →
      isHiddenWindow window.name)
      (hmem : id ∈ (((byId listed).filter inClass).drop 1).map (·.id)) :
      ∃ window ∈ listed, window.id = id ∧ isHiddenWindow window.name := by
    obtain ⟨window, hwindow, rfl⟩ := List.mem_map.mp hmem
    exact ⟨window, (mem_class hwindow).1, rfl, hhidden window (mem_class hwindow).2⟩
  rcases List.mem_append.mp hcommand with hcommand | hcommand
  · rcases List.mem_append.mp hcommand with hcommand | hcommand
    · rcases List.mem_append.mp hcommand with hcommand | hcommand
      · obtain ⟨other, hother, rfl⟩ := List.mem_map.mp hcommand
        obtain rfl : other = id := hreaps
        rcases List.mem_append.mp hother with hpersistent | hrun
        · exact hclass (fun window hname => (isHiddenWindow_iff _).mpr
            (.inl (of_decide_eq_true hname))) hpersistent
        · exact hclass (fun window hname => (isHiddenWindow_iff _).mpr (.inr hname)) hrun
      · obtain ⟨other, hother, rfl⟩ := List.mem_map.mp hcommand
        obtain rfl : other = id := hreaps
        obtain ⟨window, hwindow, hid, hrun, -⟩ := exists_of_mem_toRename hother
        exact ⟨window, hwindow, hid, (isHiddenWindow_iff _).mpr (.inr hrun)⟩
    · obtain ⟨name, -, rfl⟩ := List.mem_map.mp hcommand
      exact hreaps.elim
  · split at hcommand
    · rcases List.mem_pair.mp hcommand with rfl | rfl
      · exact hreaps.elim
      · exact hreaps.elim
    · exact nomatch hcommand

theorem renamed (h : Spares fresh session) {id name : Text}
    (hname : id ∈ session.terminals → ¬ isHiddenWindow name) :
    Spares fresh (session.renamed id name) := by
  refine ⟨?_, ?_, h.terminals, h.pending, h.reaped⟩
  · intro window hwindow hterminal
    obtain ⟨before, hbefore, rfl⟩ := List.mem_map.mp hwindow
    split at hterminal
    · next hid =>
      rw [if_pos hid]
      exact hname (hid ▸ hterminal)
    · next hid =>
      rw [if_neg hid]
      exact h.named before hbefore hterminal
  · intro window hwindow
    obtain ⟨before, hbefore, rfl⟩ := List.mem_map.mp hwindow
    have hid : (if before.id = id then { before with name } else before).id = before.id := by
      split <;> rfl
    rw [hid]
    exact h.windows before hbefore

theorem closed (h : Spares fresh session) (id : Text) : Spares fresh (session.closed id) where
  named window hwindow := h.named window (List.mem_filter.mp hwindow).1
  windows window hwindow := h.windows window (List.mem_filter.mp hwindow).1
  terminals := h.terminals
  pending := h.pending
  reaped := h.reaped

theorem reaping (h : Spares fresh session) {id : Text}
    (hid : id ∉ session.terminals ∧ ¬ Unused fresh session id) :
    Spares fresh { session with reaped := id :: session.reaped } where
  __ := h
  reaped other hother := by
    rcases List.mem_cons.mp hother with rfl | hold
    · exact hid
    · exact h.reaped other hold

theorem withRuns (h : Spares fresh session) {runs : List CommandRun}
    (hruns : ∀ run ∈ runs, ∀ command ∈ run.commands, Harmless fresh session command) :
    Spares fresh { session with runs } :=
  ⟨h.named, h.windows, h.terminals, hruns, h.reaped⟩

/-- A window is created, under the next id. -/
theorem creating (h : Spares fresh session) (hfresh : Function.Injective fresh) (name : Text)
    (opens : Bool) (hname : opens → ¬ isHiddenWindow name) :
    Spares fresh { session with
      windows := session.windows ++ [⟨fresh session.made, name⟩]
      made := session.made + 1
      terminals := if opens then fresh session.made :: session.terminals
        else session.terminals } := by
  have hstill {id : Text} (hid : ¬ Unused fresh session id) :
      ¬ ∃ n, session.made + 1 ≤ n ∧ id = fresh n :=
    fun ⟨n, hn, heq⟩ => hid ⟨n, by omega, heq⟩
  have hnext {id : Text} (hid : ¬ Unused fresh session id) : id ≠ fresh session.made :=
    fun heq => hid ⟨session.made, le_rfl, heq⟩
  -- an id is given once
  have hgiven : ¬ ∃ n, session.made + 1 ≤ n ∧ fresh session.made = fresh n := by
    rintro ⟨n, hn, heq⟩
    have hsame := hfresh heq
    omega
  have hother {id : Text} (hid : id ∉ session.terminals ∧ ¬ Unused fresh session id) :
      id ∉ (if opens then fresh session.made :: session.terminals else session.terminals) ∧
        ¬ ∃ n, session.made + 1 ≤ n ∧ id = fresh n := by
    refine ⟨?_, hstill hid.2⟩
    split
    · exact fun hmem => (List.mem_cons.mp hmem).elim (hnext hid.2) hid.1
    · exact hid.1
  refine ⟨?_, ?_, ?_, ?_, ?_⟩
  · intro window hwindow hterminal
    rcases List.mem_append.mp hwindow with hold | hnew
    · apply h.named window hold
      dsimp only at hterminal
      split at hterminal
      · exact (List.mem_cons.mp hterminal).resolve_left (hnext (h.windows window hold))
      · exact hterminal
    · obtain rfl := List.mem_singleton.mp hnew
      dsimp only at hterminal
      split at hterminal
      · next hopens => exact hname hopens
      · exact absurd rfl (hnext (h.terminals _ hterminal))
  · intro window hwindow
    rcases List.mem_append.mp hwindow with hold | hnew
    · exact hstill (h.windows window hold)
    · obtain rfl := List.mem_singleton.mp hnew
      exact hgiven
  · intro id hid
    dsimp only at hid
    split at hid
    · rcases List.mem_cons.mp hid with rfl | hold
      · exact hgiven
      · exact hstill (h.terminals id hold)
    · exact hstill (h.terminals id hid)
  · exact fun run hrun command hcommand id hreaps =>
      hother (h.pending run hrun command hcommand id hreaps)
  · exact fun id hid => hother (h.reaped id hid)

theorem exec (h : Spares fresh session) (hfresh : Function.Injective fresh) {command : Command}
    {opened opened' : Option Text} {text : Text}
    (hcommand : Harmless fresh session command)
    (htext : command = .newWindow ∨ command = .nameWindow → ¬ isHiddenWindow text)
    (hexec : session.exec fresh opened text command = some (next, opened')) :
    Spares fresh next ∧ next.runs = session.runs := by
  cases command with
  | killWindow id =>
    rw [TmuxSession.exec] at hexec
    split at hexec
    · obtain ⟨rfl, -⟩ := Prod.mk.inj (Option.some.inj hexec)
      exact ⟨(h.closed id).reaping (hcommand id rfl), rfl⟩
    · exact nomatch hexec
  | renameWindow id =>
    rw [TmuxSession.exec] at hexec
    split at hexec
    · obtain ⟨rfl, -⟩ := Prod.mk.inj (Option.some.inj hexec)
      have hreaped := hcommand id rfl
      exact ⟨(h.renamed fun hterminal => absurd hterminal hreaped.1).reaping hreaped, rfl⟩
    · exact nomatch hexec
  | createReserved name =>
    obtain ⟨rfl, -⟩ := Prod.mk.inj (Option.some.inj hexec)
    exact ⟨h.creating hfresh name.text false nofun, rfl⟩
  | newWindow =>
    obtain ⟨rfl, -⟩ := Prod.mk.inj (Option.some.inj hexec)
    exact ⟨h.creating hfresh text true fun _ => htext (.inl rfl), rfl⟩
  | nameWindow =>
    cases opened with
    | none =>
      obtain ⟨rfl, -⟩ := Prod.mk.inj (Option.some.inj hexec)
      exact ⟨h, rfl⟩
    | some id =>
      rw [TmuxSession.exec] at hexec
      split at hexec
      · obtain ⟨rfl, -⟩ := Prod.mk.inj (Option.some.inj hexec)
        exact ⟨h.renamed fun _ => htext (.inr rfl), rfl⟩
      · exact nomatch hexec

/-- Commands that take and rename no window may be sent at any time. -/
theorem sending (h : Spares fresh session) (commands : List Command)
    (hcommands : ∀ command ∈ commands, Harmless fresh session command) :
    Spares fresh { session with runs := session.runs ++ [⟨commands, none⟩] } := by
  apply h.withRuns
  intro run hrun command hcommand
  rcases List.mem_append.mp hrun with hold | hnew
  · exact h.pending run hold command hcommand
  · obtain rfl := List.mem_singleton.mp hnew
    exact hcommands command hcommand

/-- A run goes on with part of its commands. -/
theorem going (h : Spares fresh session) {index : ℕ} {command : Command}
    {rest commands : List Command} {opened opened' : Option Text}
    (hrun : session.runs[index]? = some ⟨command :: rest, opened⟩)
    (hcommands : ∀ later ∈ commands, later ∈ rest) :
    Spares fresh { session with runs := session.runs.set index ⟨commands, opened'⟩ } := by
  apply h.withRuns
  intro run hmem later hlater
  rcases List.mem_or_eq_of_mem_set hmem with hold | rfl
  · exact h.pending run hold later hlater
  · exact h.pending _ (List.mem_of_getElem? hrun) later
      (List.mem_cons_of_mem _ (hcommands later hlater))

/-- The next command of a run is carried out, and the run goes on or ends with it. -/
theorem issue (h : Spares fresh session) (hfresh : Function.Injective fresh) {index : ℕ}
    {text : Text} (hadmits : Unreserved session (.issue index text))
    (hstep : session.step fresh (.issue index text) = some next) : Spares fresh next := by
  rw [TmuxSession.step] at hstep
  split at hstep
  · next command rest opened hrun =>
    have hcommand : Harmless fresh session command :=
      h.pending _ (List.mem_of_getElem? hrun) command List.mem_cons_self
    have htext : command = .newWindow ∨ command = .nameWindow → ¬ isHiddenWindow text := by
      rintro (rfl | rfl)
      · exact hadmits opened rest (.inl hrun)
      · exact hadmits opened rest (.inr hrun)
    split at hstep
    · next after opened' hexec =>
      obtain rfl := Option.some.inj hstep
      obtain ⟨hspares, hruns⟩ := h.exec hfresh hcommand htext hexec
      rw [← hruns] at hrun ⊢
      exact hspares.going hrun fun _ => id
    · obtain rfl := Option.some.inj hstep
      exact h.going hrun nofun
  · exact nomatch hstep

theorem step (h : Spares fresh session) (hfresh : Function.Injective fresh)
    (hadmits : Unreserved session event) (hstep : session.step fresh event = some next) :
    Spares fresh next := by
  cases event with
  | ensureWindows listed createRun =>
    rw [TmuxSession.step] at hstep
    split at hstep
    · next hperm =>
      split at hstep
      · obtain rfl := Option.some.inj hstep
        exact h
      · next plan hplan =>
        obtain rfl := Option.some.inj hstep
        apply h.sending
        -- What the plan names was hidden when it was made, so it is no terminal.
        intro command hcommand id hreaps
        obtain ⟨window, hwindow, rfl, hhidden⟩ := reaps_commands hplan hcommand hreaps
        have hmem := hperm.mem_iff.mp hwindow
        exact ⟨fun hterminal => h.named window hmem hterminal hhidden, h.windows window hmem⟩
    · exact nomatch hstep
  | issue index text => exact h.issue hfresh hadmits hstep
  | abandon index =>
    obtain rfl := Option.some.inj hstep
    apply h.withRuns
    intro run hmem command hcommand
    rcases List.mem_or_eq_of_mem_set hmem with hold | rfl
    · exact h.pending run hold command hcommand
    · exact nomatch hcommand
  | openTerminal =>
    obtain rfl := Option.some.inj hstep
    apply h.sending
    intro command hcommand id hreaps
    rcases List.mem_pair.mp hcommand with rfl | rfl
    · exact hreaps.elim
    · exact hreaps.elim
  | openRunPanel =>
    obtain rfl := Option.some.inj hstep
    apply h.sending
    intro command hcommand id hreaps
    obtain rfl := List.mem_singleton.mp hcommand
    exact hreaps.elim
  | rename id name =>
    rw [TmuxSession.step] at hstep
    obtain ⟨_, rfl⟩ := of_ite_some hstep
    exact h.renamed hadmits
  | close id =>
    rw [TmuxSession.step] at hstep
    obtain ⟨_, rfl⟩ := of_ite_some hstep
    exact h.closed id

end Spares

end TmuxSession

/-- **Reserved windows.** For all windows that are told apart by their ids, listed in any order:
the plan settles them, when it is carried out at once, if and only if no terminal is opened under a
reserved name. And in every run in which terminals are given no reserved names, whatever happens
between the commands, no terminal is killed or renamed by a plan. -/
theorem reserved_windows {fresh : ℕ → Text} {windows : List Window} {terminals : List Text}
    (hfresh : Function.Injective fresh) (hne : windows ≠ []) (hdistinct : Distinct windows)
    (hunused : ∀ window ∈ windows, ∀ n, window.id ≠ fresh n)
    (hterminals : ∀ id ∈ terminals, ∃ window ∈ windows, window.id = id) :
    (∀ listed settled createRun default basename, listed.Perm windows →
      settled.Perm (TmuxSession.ensureWindows fresh { windows, terminals } listed createRun default
        basename).windows →
      (Settled settled createRun ↔
        ((∀ window ∈ windows, isHiddenWindow window.name) → ¬ isHiddenWindow basename))) ∧
    ((∀ window ∈ windows, window.id ∈ terminals → ¬ isHiddenWindow window.name) →
      ∀ session, Reaches (TmuxSession.step fresh) Unreserved { windows, terminals } session →
        ∀ id ∈ session.reaped, id ∉ session.terminals) := by
  constructor
  · intro listed settled createRun default basename hlisted hsettled
    have hsome : listed ≠ [] := by
      rintro rfl
      exact hne hlisted.symm.eq_nil
    have hapart : Distinct listed := (hlisted.map _).nodup_iff.mpr hdistinct
    obtain ⟨created, terminal, hwindows, hcreated, hterminal⟩ :=
      @TmuxSession.windows_ensureWindows fresh default basename { windows, terminals } listed
        createRun hlisted hsome hapart hfresh fun window hwindow n _ => hunused window hwindow n
    have hplanned : Planned listed createRun basename created terminal settled :=
      ⟨hsettled.trans hwindows, hcreated, hterminal⟩
    rw [hplanned.settled_iff hapart]
    constructor
    · exact fun h hall => h fun window hwindow => hall window (hlisted.mem_iff.mp hwindow)
    · exact fun h hall => h fun window hwindow => hall window (hlisted.mem_iff.mpr hwindow)
  · intro hnamed session hreaches id hid
    have hspares : TmuxSession.Spares fresh { windows, terminals } := by
      refine ⟨hnamed, ?_, ?_, nofun, nofun⟩
      · rintro window hwindow ⟨n, -, heq⟩
        exact hunused window hwindow n heq
      · rintro _ hterminal ⟨n, -, heq⟩
        obtain ⟨window, hwindow, rfl⟩ := hterminals _ hterminal
        exact hunused window hwindow n heq
    have hend := hreaches.invariant (fun _ _ _ hs hadmits hstep =>
      TmuxSession.Spares.step hs hfresh hadmits hstep) hspares
    exact (hend.reaped id hid).1

section Directories

/-- Ids that are all different. -/
def nines (n : ℕ) : Text := '@' :: List.replicate (n + 2) '9'

theorem nines_injective : Function.Injective nines := by
  intro n n' heq
  have hlength := congrArg List.length heq
  simpa [nines] using hlength

/-- A window that only holds the session. -/
def holder : Window := ⟨"@1".toList, persistentWindow⟩

theorem holder_ne : ∀ window ∈ [holder], ∀ n, window.id ≠ nines n := by
  intro window hwindow n heq
  rw [List.mem_singleton.mp hwindow] at heq
  have hlength := congrArg List.length heq
  simp [nines, holder] at hlength

/-- In an ordinary directory, a session with nothing but its holder is settled. -/
theorem reserved_windows_holder :
    Settled (TmuxSession.ensureWindows nines { windows := [holder], terminals := [] } [holder] true
      "zsh".toList "src".toList).windows true ∧
    ∀ session, Reaches (TmuxSession.step nines) Unreserved
      { windows := [holder], terminals := [] } session →
        ∀ id ∈ session.reaped, id ∉ session.terminals := by
  obtain ⟨hsettled, hspared⟩ := @reserved_windows nines [holder] [] nines_injective (by simp)
    (List.nodup_singleton _) holder_ne nofun
  constructor
  · exact (hsettled [holder] _ true "zsh".toList "src".toList (.refl _) (.refl _)).mpr
      fun _ => by decide
  · exact hspared nofun

/-- In a directory that is named like a run window, it is not. -/
theorem not_settled_runDirectory : ¬ ∀ (fresh : ℕ → Text) (windows : List Window)
    (createRun : Bool) (default basename : Text), Function.Injective fresh → windows ≠ [] →
      Distinct windows → (∀ window ∈ windows, ∀ n, window.id ≠ fresh n) →
        Settled (TmuxSession.ensureWindows fresh { windows, terminals := [] } windows createRun
          default basename).windows createRun := by
  intro hall
  have hsettled := hall nines [holder] true "zsh".toList "run-2".toList nines_injective (by simp)
    (List.nodup_singleton _) holder_ne
  have hvisible := hsettled.visible
  revert hvisible
  decide

end Directories

end AgentCockpit.Renderer.ReservedWindows
