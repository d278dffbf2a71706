import AgentCockpit.Core.Run
import Mathlib.Data.Finset.Preimage
import Std.Data.String.ToNat

/-!
# The terminal tabs of a project

The store holds the tabs of one project, stamped with the project they belong to. `init` asks
the provider for the tabs of the active project and refuses the list when the project or the
tabs have changed meanwhile; `add` stamps the active project on whatever tabs are there;
`addExisting`, `remove` and `setActive` act on the tabs without looking at the stamp.

The source compares arrays of tabs by identity; here each array has a number. Ids of projects
and keys of tabs are not empty.

## Main results

* `belongs_iff_stamped` — **the tabs belong to one project exactly in stamped runs**
-/

namespace AgentCockpit.Renderer

open AgentCockpit.Core

/-! ### The store -/

structure TerminalsState where
  projectId : Option String := none
  keys : List String := []
  /-- Which array `keys` is. -/
  keysRef : ℕ := 0
  activeKey : Option String := none
  deriving DecidableEq

def tabKey (n : ℕ) : String := "t" ++ Nat.repr n

theorem tabKey_injective : Function.Injective tabKey :=
  fun _ _ h => Nat.repr_injective (String.append_right_inj _ |>.mp h)

theorem exists_tabKey_not_mem (keys : List String) : ∃ n, tabKey (n + 1) ∉ keys := by
  have hinjective : Function.Injective fun n => tabKey (n + 1) :=
    fun _ _ h => Nat.succ_injective (tabKey_injective h)
  obtain ⟨n, hn⟩ := Infinite.exists_notMem_finset
    (keys.toFinset.preimage (fun n => tabKey (n + 1)) hinjective.injOn)
  exact ⟨n, fun hmem => hn (Finset.mem_preimage.mpr (List.mem_toFinset.mpr hmem))⟩

/-- The first of `t1`, `t2`, … that is not taken. -/
def nextKey (keys : List String) : String :=
  tabKey (Nat.find (exists_tabKey_not_mem keys) + 1)

theorem nextKey_not_mem (keys : List String) : nextKey keys ∉ keys :=
  Nat.find_spec (exists_tabKey_not_mem keys)

/-- The key of a new tab: the one that is asked for unless it is taken. -/
def newKey (keys : List String) : Option String → String
  | some requested => if requested ∉ keys then requested else nextKey keys
  | none => nextKey keys

theorem newKey_not_mem (keys : List String) (requested : Option String) :
    newKey keys requested ∉ keys := by
  cases requested with
  | none => exact nextKey_not_mem keys
  | some requested =>
    rw [newKey]
    split
    · assumption
    · exact nextKey_not_mem keys

namespace TerminalsState

variable (state : TerminalsState)

/-- Replace the array of tabs. -/
def setKeys (keys : List String) (activeKey : Option String) : TerminalsState :=
  { state with keys, keysRef := state.keysRef + 1, activeKey }

def add (activeId requestedKey : Option String) : TerminalsState :=
  let key := newKey state.keys requestedKey
  { state.setKeys (state.keys ++ [key]) (some key) with projectId := activeId }

/-- A call for a project goes through only while that project is active. -/
def addressed (activeId projectId : Option String) : Bool :=
  match projectId.or activeId with
  | some projectId => activeId = some projectId
  | none => true

def addExisting (activeId : Option String) (key : String) (projectId : Option String) :
    TerminalsState :=
  if addressed activeId projectId then
    if key ∈ state.keys then { state with activeKey := some key }
    else state.setKeys (state.keys ++ [key]) (some key)
  else state

def remove (activeId : Option String) (key : String) (projectId : Option String) :
    TerminalsState :=
  if addressed activeId projectId then
    let keys := state.keys.filter (· ≠ key)
    state.setKeys keys (if state.activeKey = some key then keys.getLast? else state.activeKey)
  else state

def setActive (activeId : Option String) (key : String) (projectId : Option String) :
    TerminalsState :=
  if addressed activeId projectId then { state with activeKey := some key } else state

end TerminalsState

/-! ### Lists under way -/

/-- An `init` that waits for the list of its project. -/
structure PendingInit where
  id : ℕ
  projectId : String
  ensureInitialTerminal : Bool
  initialKeysRef : ℕ
  initialActiveKey : Option String

/-- The store with the active project. `origins` records, newest first, which tab was listed for
a project by an accepted `init`, was its default first tab, or was added while it was active;
`owner` is the project for which each of the tabs came into the store. -/
structure TerminalTabs where
  activeId : Option String := none
  store : TerminalsState := {}
  inits : List PendingInit := []
  nextInit : ℕ := 0
  origins : List (String × String) := []
  owner : String → Option String := fun _ => none

/-- The tabs of an accepted list. -/
def listedKeys (pending : PendingInit) (keys : List String) : List String :=
  if keys = [] ∧ pending.ensureInitialTerminal then ["t1"] else keys

/-- The list of a project is refused when the project or the tabs have changed, and an empty one
also when there are tabs of the project. -/
def TerminalTabs.refuses (tabs : TerminalTabs) (pending : PendingInit) (keys : List String) :
    Prop :=
  tabs.activeId ≠ some pending.projectId ∨
    (tabs.store.keysRef ≠ pending.initialKeysRef ∨
      tabs.store.activeKey ≠ pending.initialActiveKey) ∨
    (keys = [] ∧ tabs.store.keys ≠ [] ∧ tabs.store.projectId = some pending.projectId)

instance (tabs : TerminalTabs) (pending : PendingInit) (keys : List String) :
    Decidable (tabs.refuses pending keys) :=
  inferInstanceAs (Decidable (_ ∨ _ ∨ _))

/-- A project switch, a call of the store, or the answer to a list. A list that fails answers
with no tabs. The completion of `close` is `remove` for the project that was active when it was
called. -/
inductive TabEvent
  | select (activeId : Option String)
  | init (ensureInitialTerminal : Bool)
  | listed (id : ℕ) (keys : List String)
  | add (requestedKey : Option String)
  | addExisting (key : String) (projectId : Option String)
  | remove (key : String) (projectId : Option String)
  | setActive (key : String) (projectId : Option String)

namespace TerminalTabs

/-- The answer to a list. -/
def answer (tabs : TerminalTabs) (pending : PendingInit) (keys : List String) : TerminalTabs :=
  let inits := tabs.inits.filter (·.id ≠ pending.id)
  if tabs.refuses pending keys then { tabs with inits }
  else
    let keys := listedKeys pending keys
    { tabs with
      store := { tabs.store.setKeys keys keys.head? with projectId := some pending.projectId }
      inits
      origins := keys.map (pending.projectId, ·) ++ tabs.origins
      owner := fun _ => some pending.projectId }

/-- A tab comes into the store while a project is active. -/
def adding (tabs : TerminalTabs) (key : String) (store : TerminalsState) : TerminalTabs :=
  { tabs with
    store
    origins := (tabs.activeId.map (·, key)).toList ++ tabs.origins
    owner := Function.update tabs.owner key tabs.activeId }

/-- The call adds a tab. -/
def Adds (tabs : TerminalTabs) (key : String) (projectId : Option String) : Prop :=
  TerminalsState.addressed tabs.activeId projectId = true ∧ key ∉ tabs.store.keys

instance (tabs : TerminalTabs) (key : String) (projectId : Option String) :
    Decidable (tabs.Adds key projectId) :=
  inferInstanceAs (Decidable (_ ∧ _))

def step (tabs : TerminalTabs) : TabEvent → Option TerminalTabs
  | .select activeId => some { tabs with activeId }
  | .init ensureInitialTerminal =>
    match tabs.activeId with
    | none => some { tabs with store := tabs.store.setKeys [] none }
    | some projectId => some
        { tabs with
          inits := ⟨tabs.nextInit, projectId, ensureInitialTerminal, tabs.store.keysRef,
            tabs.store.activeKey⟩ :: tabs.inits
          nextInit := tabs.nextInit + 1 }
  | .listed id keys => (tabs.inits.find? (·.id = id)).map (tabs.answer · keys)
  | .add requestedKey => some
      (tabs.adding (newKey tabs.store.keys requestedKey)
        (tabs.store.add tabs.activeId requestedKey))
  | .addExisting key projectId =>
      let store := tabs.store.addExisting tabs.activeId key projectId
      some (if tabs.Adds key projectId then tabs.adding key store else { tabs with store })
  | .remove key projectId => some
      { tabs with store := tabs.store.remove tabs.activeId key projectId }
  | .setActive key projectId => some
      { tabs with store := tabs.store.setActive tabs.activeId key projectId }

end TerminalTabs

/-! ### Tabs of one project -/

/-- The effect an event ought to have: the tabs are distinct tabs of the project whose stamp
they have, and no tab of another project survives a new stamp. -/
structure Belongs (tabs : TerminalTabs) (event : TabEvent) : Prop where
  owned : ∀ tabs', tabs.step event = some tabs' → ∀ projectId,
    tabs'.store.projectId = some projectId → tabs'.store.keys.Nodup ∧
      ∀ key ∈ tabs'.store.keys, (projectId, key) ∈ tabs'.origins
  replaced : ∀ tabs', tabs.step event = some tabs' → ∀ projectId,
    tabs'.store.projectId = some projectId → tabs.store.projectId ≠ some projectId →
      ∀ key ∈ tabs'.store.keys, ∀ other, tabs'.owner key = some other → other = projectId

/-- A provider lists the tabs of a project once each. -/
def ListsOnce (_ : TerminalTabs) : TabEvent → Prop
  | .listed _ keys => keys.Nodup
  | _ => True

/-- `add` finds the stamp of the active project, or only tabs that are that project's own;
`addExisting` brings a tab that is one of the stamped project's. -/
def Stamped (tabs : TerminalTabs) : TabEvent → Prop
  | .add _ => ∀ projectId, tabs.activeId = some projectId →
      tabs.store.projectId ≠ some projectId → ∀ key ∈ tabs.store.keys,
        (projectId, key) ∈ tabs.origins ∧
          ∀ other, tabs.owner key = some other → other = projectId
  | .addExisting key projectId => tabs.Adds key projectId →
      ∀ stamp, tabs.store.projectId = some stamp →
        tabs.activeId = some stamp ∨ (stamp, key) ∈ tabs.origins
  | _ => True

/-- The invariant of stamped runs. -/
structure TerminalTabs.Sound (tabs : TerminalTabs) : Prop where
  nodup : tabs.store.keys.Nodup
  owned : ∀ projectId, tabs.store.projectId = some projectId →
    ∀ key ∈ tabs.store.keys, (projectId, key) ∈ tabs.origins

namespace TerminalTabs

variable {tabs tabs' : TerminalTabs} {event : TabEvent} {key projectId stamp : String}
variable {store : TerminalsState}

theorem mem_adding (h : tabs.activeId = some projectId) :
    (projectId, key) ∈ (tabs.adding key store).origins := by
  rw [adding, h]
  exact List.mem_cons_self

theorem mem_adding_of_mem {origin : String × String} (h : origin ∈ tabs.origins) :
    origin ∈ (tabs.adding key store).origins :=
  List.mem_append_right _ h

/-- What is recorded when a tab comes in is the tab with the active project, or was recorded. -/
theorem mem_adding_iff {origin : String × String} :
    origin ∈ (tabs.adding key store).origins ↔
      tabs.activeId = some origin.1 ∧ origin.2 = key ∨ origin ∈ tabs.origins := by
  rw [adding, List.mem_append, Option.mem_toList]
  apply or_congr_left
  rw [Option.map_eq_some_iff]
  constructor
  · rintro ⟨active, hactive, rfl⟩
    exact ⟨hactive, rfl⟩
  · rintro ⟨hactive, rfl⟩
    exact ⟨origin.1, hactive, rfl⟩

theorem addExisting_of_adds {projectId : Option String} (h : tabs.Adds key projectId) :
    tabs.store.addExisting tabs.activeId key projectId =
      tabs.store.setKeys (tabs.store.keys ++ [key]) (some key) := by
  rw [TerminalsState.addExisting, if_pos h.1, if_neg h.2]

/-- A call that adds no tab leaves the array and the stamp. -/
theorem addExisting_of_not_adds {projectId : Option String} (h : ¬ tabs.Adds key projectId) :
    (tabs.store.addExisting tabs.activeId key projectId).keys = tabs.store.keys ∧
      (tabs.store.addExisting tabs.activeId key projectId).projectId =
        tabs.store.projectId := by
  rw [TerminalsState.addExisting]
  split
  · rename_i haddressed
    by_cases hkey : key ∈ tabs.store.keys
    · rw [if_pos hkey]
      exact ⟨rfl, rfl⟩
    · exact absurd ⟨haddressed, hkey⟩ h
  · exact ⟨rfl, rfl⟩

theorem owner_adding : (tabs.adding key store).owner key = tabs.activeId :=
  Function.update_self _ _ _

theorem owner_adding_of_ne {other : String} (h : other ≠ key) :
    (tabs.adding key store).owner other = tabs.owner other :=
  Function.update_of_ne h _ _

/-- The stamp changes only by `add`, and by an accepted list, whose tabs have its project. -/
theorem stamp_of_step (h : tabs.step event = some tabs') :
    tabs'.store.projectId = tabs.store.projectId ∨
      (∀ key, tabs'.owner key = tabs'.store.projectId) ∨
      ∃ requestedKey, event = .add requestedKey := by
  cases event with
  | select _ =>
    obtain rfl := Option.some.inj h
    exact .inl rfl
  | init _ =>
    simp only [step] at h
    split at h
    · obtain rfl := Option.some.inj h
      exact .inl rfl
    · obtain rfl := Option.some.inj h
      exact .inl rfl
  | listed id keys =>
    obtain ⟨pending, -, rfl⟩ := Option.map_eq_some_iff.mp h
    dsimp only [answer]
    split
    · exact .inl rfl
    · exact .inr (.inl fun _ => rfl)
  | add requestedKey => exact .inr (.inr ⟨requestedKey, rfl⟩)
  | addExisting key projectId =>
    obtain rfl := Option.some.inj h
    left
    by_cases hadds : tabs.Adds key projectId
    · rw [if_pos hadds, addExisting_of_adds hadds]
      rfl
    · rw [if_neg hadds]
      exact (addExisting_of_not_adds hadds).2
  | remove key projectId =>
    obtain rfl := Option.some.inj h
    simp only [TerminalsState.remove]
    split <;> exact .inl rfl
  | setActive key projectId =>
    obtain rfl := Option.some.inj h
    simp only [TerminalsState.setActive]
    split <;> exact .inl rfl

end TerminalTabs

namespace TerminalTabs.Sound

variable {tabs tabs' : TerminalTabs} {event : TabEvent}

theorem start : Sound {} :=
  ⟨List.nodup_nil, nofun⟩

theorem nodup_append (h : tabs.Sound) {key : String} (hkey : key ∉ tabs.store.keys) :
    (tabs.store.keys ++ [key]).Nodup :=
  List.nodup_append.mpr ⟨h.nodup, List.nodup_singleton key, fun _ hother _ hnew heq =>
    hkey (List.mem_singleton.mp hnew ▸ heq ▸ hother)⟩

/-- An accepted list replaces the tabs. -/
theorem answer (h : tabs.Sound) (pending : PendingInit) {keys : List String}
    (hnodup : keys.Nodup) : (tabs.answer pending keys).Sound := by
  unfold TerminalTabs.answer
  dsimp only
  split
  · exact ⟨h.nodup, h.owned⟩
  · refine ⟨?_, fun projectId hproject key hmem => ?_⟩
    · change (listedKeys pending keys).Nodup
      unfold listedKeys
      split
      · exact List.nodup_singleton _
      · exact hnodup
    · obtain rfl := Option.some.inj hproject
      exact List.mem_append_left _ (List.mem_map_of_mem hmem)

/-- A new tab of a project whose stamp the store has, or gets. -/
theorem adding (h : tabs.Sound) {key : String} (hkey : key ∉ tabs.store.keys)
    {stamp : Option String} {activeKey : Option String}
    (howned : ∀ projectId, stamp = some projectId →
      (∀ other ∈ tabs.store.keys, (projectId, other) ∈ tabs.origins) ∧
        (tabs.activeId = some projectId ∨ (projectId, key) ∈ tabs.origins)) :
    (tabs.adding key { tabs.store.setKeys (tabs.store.keys ++ [key]) activeKey with
      projectId := stamp }).Sound := by
  refine ⟨h.nodup_append hkey, fun projectId hproject other hmem => ?_⟩
  obtain ⟨hothers, hnew⟩ := howned projectId hproject
  rcases List.mem_append.mp hmem with hold | hlast
  · exact mem_adding_of_mem (hothers other hold)
  · obtain rfl := List.mem_singleton.mp hlast
    rcases hnew with hactive | horigin
    · exact mem_adding hactive
    · exact mem_adding_of_mem horigin

/-- A stamped event keeps the tabs sound. -/
theorem step (h : tabs.Sound) (hlists : ListsOnce tabs event) (hstamped : Stamped tabs event)
    (hstep : tabs.step event = some tabs') : tabs'.Sound := by
  cases event with
  | select activeId =>
    obtain rfl := Option.some.inj hstep
    exact ⟨h.nodup, h.owned⟩
  | init ensureInitialTerminal =>
    simp only [TerminalTabs.step] at hstep
    split at hstep
    · obtain rfl := Option.some.inj hstep
      exact ⟨List.nodup_nil, fun _ _ _ hmem => absurd hmem List.not_mem_nil⟩
    · obtain rfl := Option.some.inj hstep
      exact ⟨h.nodup, h.owned⟩
  | listed id keys =>
    obtain ⟨pending, -, rfl⟩ := Option.map_eq_some_iff.mp hstep
    exact h.answer pending hlists
  | add requestedKey =>
    obtain rfl := Option.some.inj hstep
    refine h.adding (newKey_not_mem _ _) fun projectId hactive =>
      ⟨fun other hother => ?_, .inl hactive⟩
    -- an equal stamp vouches for the old tabs, another one leaves it to the condition
    by_cases hstamp : tabs.store.projectId = some projectId
    · exact h.owned projectId hstamp other hother
    · exact (hstamped projectId hactive hstamp other hother).1
  | addExisting key projectId =>
    obtain rfl := Option.some.inj hstep
    by_cases hadds : tabs.Adds key projectId
    · rw [if_pos hadds, addExisting_of_adds hadds]
      exact h.adding hadds.2 fun stamp hstamp =>
        ⟨h.owned stamp hstamp, hstamped hadds stamp hstamp⟩
    · rw [if_neg hadds]
      obtain ⟨hkeys, hproject⟩ := addExisting_of_not_adds hadds
      refine ⟨?_, fun stamp hstamp other hother => ?_⟩
      · exact hkeys ▸ h.nodup
      · exact h.owned stamp (hproject ▸ hstamp) other (hkeys ▸ hother)
  | remove key projectId =>
    obtain rfl := Option.some.inj hstep
    simp only [TerminalsState.remove]
    split
    · exact ⟨h.nodup.filter _, fun stamp hstamp other hmem =>
        h.owned stamp hstamp other (List.mem_of_mem_filter hmem)⟩
    · exact ⟨h.nodup, h.owned⟩
  | setActive key projectId =>
    obtain rfl := Option.some.inj hstep
    simp only [TerminalsState.setActive]
    split
    · exact ⟨h.nodup, h.owned⟩
    · exact ⟨h.nodup, h.owned⟩

/-- A stamped event has the effect it ought to have. -/
theorem belongs (h : tabs.Sound) (hlists : ListsOnce tabs event) (hstamped : Stamped tabs event) :
    Belongs tabs event where
  owned _ hstep projectId hproject :=
    ⟨(h.step hlists hstamped hstep).nodup, (h.step hlists hstamped hstep).owned _ hproject⟩
  replaced tabs' hstep projectId hproject hchanged key hmem other hother := by
    rcases stamp_of_step hstep with hsame | hanswer | ⟨requested, rfl⟩
    · exact absurd (hsame ▸ hproject) hchanged
    · exact Option.some.inj (hother.symm.trans ((hanswer key).trans hproject))
    · obtain rfl := Option.some.inj hstep
      rcases List.mem_append.mp hmem with hold | hnew
      · have hne : key ≠ newKey tabs.store.keys requested :=
          fun heq => newKey_not_mem _ _ (heq ▸ hold)
        rw [owner_adding_of_ne hne] at hother
        exact (hstamped projectId hproject hchanged key hold).2 other hother
      · obtain rfl := List.mem_singleton.mp hnew
        rw [owner_adding] at hother
        exact Option.some.inj (hother.symm.trans hproject)

end TerminalTabs.Sound

/-- An event with the effect it ought to have is stamped. -/
theorem Belongs.stamped {tabs : TerminalTabs} {event : TabEvent} (h : Belongs tabs event) :
    Stamped tabs event := by
  cases event with
  | select _ => trivial
  | init _ => trivial
  | listed _ _ => trivial
  | remove _ _ => trivial
  | setActive _ _ => trivial
  | add requested =>
    intro projectId hactive hchanged key hkey
    have hne : key ≠ newKey tabs.store.keys requested :=
      fun heq => newKey_not_mem _ _ (heq ▸ hkey)
    have hmem : key ∈ tabs.store.keys ++ [newKey tabs.store.keys requested] :=
      List.mem_append_left _ hkey
    constructor
    · rcases TerminalTabs.mem_adding_iff.mp ((h.owned _ rfl projectId hactive).2 key hmem) with
        ⟨-, heq⟩ | hrecorded
      · exact absurd heq hne
      · exact hrecorded
    · intro other hother
      refine h.replaced _ rfl projectId hactive hchanged key hmem other ?_
      exact (TerminalTabs.owner_adding_of_ne hne).trans hother
  | addExisting key projectId =>
    intro hadds stamp hstamp
    have howned := h.owned _ rfl stamp
    rw [if_pos hadds, TerminalTabs.addExisting_of_adds hadds] at howned
    rcases TerminalTabs.mem_adding_iff.mp
      ((howned hstamp).2 key (List.mem_append_right _ List.mem_cons_self)) with
      ⟨hactive, -⟩ | hrecorded
    · exact .inl hactive
    · exact .inr hrecorded

/-! ### Runs -/

/-- **Terminal tabs belong to one project** in every state of a run exactly if the run is
stamped, where the provider lists no tab twice. -/
theorem belongs_iff_stamped (w : List TabEvent) (last : TerminalTabs) :
    Run TerminalTabs.step (fun tabs event => ListsOnce tabs event ∧ Belongs tabs event) {} w
        last ↔
      Run TerminalTabs.step (fun tabs event => ListsOnce tabs event ∧ Stamped tabs event) {} w
        last := by
  symm
  refine Run.congr_guard (fun tabs event tabs' hsound hadmits hstep => ?_)
    (fun tabs event hsound => ?_) TerminalTabs.Sound.start
  · exact hsound.step hadmits.1 hadmits.2 hstep
  · exact and_congr_right fun hlists => ⟨hsound.belongs hlists, Belongs.stamped⟩

/-- Project `A` with its first tab, left for project `B`. -/
def switchedTabs : TerminalTabs where
  activeId := some "B"
  store := { projectId := some "A", keys := ["t1"], keysRef := 1, activeKey := some "t1" }
  nextInit := 1
  origins := [("A", "t1")]
  owner _ := some "A"

/-- A tab added after a project switch and before the list of the new project gives the stamp of
the new project to the tabs of the one before. -/
theorem add_mixes_tabs : ¬ ∀ w last,
    Run TerminalTabs.step ListsOnce {} w last →
      Run TerminalTabs.step (fun tabs event => ListsOnce tabs event ∧ Belongs tabs event) {} w
        last := by
  intro hclaim
  have hbefore : Run TerminalTabs.step ListsOnce {}
      [.select (some "A"), .init true, .listed 0 ["t1"], .select (some "B")] switchedTabs :=
    .cons trivial rfl (.cons trivial rfl
      (.cons (List.nodup_singleton _) rfl (.single trivial rfl)))
  obtain ⟨middle, hmiddle, hlast⟩ :=
    (hclaim _ _ (hbefore.snoc (a := TabEvent.add (some "t9")) trivial rfl)).split
  have hsame : middle = switchedTabs := by
    have hplain : Run TerminalTabs.step Always {} _ middle :=
      hmiddle.mono fun _ _ _ => trivial
    have hbefore' : Run TerminalTabs.step Always {} _ switchedTabs :=
      hbefore.mono fun _ _ _ => trivial
    exact Option.some.inj ((run_iff_replay.mp hplain).symm.trans (run_iff_replay.mp hbefore'))
  obtain _ | ⟨⟨-, hbelongs⟩, -, -⟩ := hlast
  rw [hsame] at hbelongs
  have howner := hbelongs.replaced _ rfl "B" rfl (by decide) "t1" (by decide) "A" rfl
  exact absurd howner (by decide)

end AgentCockpit.Renderer
