import AgentCockpit.Mux.Persistence.Store

/-!
# Eviction

The daemon bounds the recovery database when it starts: it removes the dead sessions that nobody
attached to for longer than the retention, and then more of them, the oldest first, while the
database is larger than its cap. Live and pinned sessions stay. The size of the database is any
function of its contents.
-/

namespace AgentCockpit.Mux

def defaultRetentionDays : ℤ := 7

def defaultDatabaseCap : ℤ := 500 <<< 20

/-- A session that an eviction may remove. -/
def SessionRecord.evictable (row : SessionRecord) : Bool := row.status = "dead" && ! row.pinned

namespace Store

/-- Dead unpinned sessions that satisfy a further condition, the oldest first. -/
def evictable (store : Store) (also : SessionRecord → Bool) : List SessionRecord :=
  (store.sessions.filter fun row => row.evictable && also row).insertionSort
    fun left right => left.lastAttachedAt ≤ right.lastAttachedAt

/-- Delete sessions, in order. -/
def remove (store : Store) (ids : List String) : Store := ids.foldl destroySession store

theorem mem_evictable {store : Store} {also : SessionRecord → Bool} {row : SessionRecord} :
    row ∈ store.evictable also ↔
      row ∈ store.sessions ∧ row.evictable = true ∧ also row = true := by
  rw [evictable, List.mem_insertionSort, List.mem_filter, Bool.and_eq_true]

theorem length_destroySession_lt {store : Store} {row : SessionRecord}
    (h : row ∈ store.sessions) :
    (store.destroySession row.id).sessions.length < store.sessions.length :=
  List.length_filter_lt_length_iff_exists.mpr ⟨row, h, by simp⟩

/-- The loop over the size of the database. -/
def evictOver (size : Store → ℤ) (databaseCap : ℤ) (store : Store) : Store × List String :=
  if size store ≤ databaseCap then (store, [])
  else
    match _h : (store.evictable fun _ => true).head? with
    | none => (store, [])
    | some row =>
      let (final, ids) := evictOver size databaseCap (store.destroySession row.id)
      (final, row.id :: ids)
termination_by store.sessions.length
decreasing_by
  exact length_destroySession_lt (mem_evictable.mp (List.mem_of_mem_head? _h)).1

/-- `daysAgo` is the time that many days before now, in milliseconds. -/
def evict (size : Store → ℤ) (daysAgo : ℤ → ℤ) (retentionDays databaseCap : ℤ) (store : Store) :
    Store × List String :=
  let retentionDays := if retentionDays ≤ 0 then defaultRetentionDays else retentionDays
  let databaseCap := if databaseCap ≤ 0 then defaultDatabaseCap else databaseCap
  let cutoff := daysAgo retentionDays
  let expired := (store.evictable fun row => (row.lastAttachedAt : ℤ) < cutoff).map (·.id)
  let (final, more) := evictOver size databaseCap (store.remove expired)
  (final, expired ++ more)

/-- The ids of sessions are a primary key. -/
def Keyed (store : Store) : Prop := (store.sessions.map (·.id)).Nodup

variable {store final : Store} {id : String} {ids : List String}

/-! ### Removing sessions -/

/-- A pane is kept, or its recovery records go with it. -/
theorem mem_deletePanes {doomed : PaneRecord → Bool} {pane : PaneRecord}
    (h : pane ∈ store.panes) :
    (doomed pane = false ∧ pane ∈ (store.deletePanes doomed).panes) ∨
      (doomed pane = true ∧ (store.deletePanes doomed).sessionKeyframes pane.id = none ∧
        (store.deletePanes doomed).sessionTails pane.id = []) := by
  cases hdoomed : doomed pane with
  | false => exact .inl ⟨rfl, List.mem_filter.mpr ⟨h, by simp [hdoomed]⟩⟩
  | true =>
    have hgone : (store.panes.any fun row => doomed row && row.id = pane.id) = true :=
      List.any_eq_true.mpr ⟨pane, h, by simp [hdoomed]⟩
    exact .inr ⟨rfl, if_pos hgone, if_pos hgone⟩

/-- A pane has no recovery records. -/
def Recordless (store : Store) (paneID : String) : Prop :=
  store.sessionKeyframes paneID = none ∧ store.sessionTails paneID = []

theorem Recordless.deletePanes {doomed : PaneRecord → Bool} {paneID : String}
    (h : store.Recordless paneID) : (store.deletePanes doomed).Recordless paneID := by
  constructor
  · change (if _ then none else store.sessionKeyframes paneID) = none
    rw [h.1, ite_self]
  · change (if _ then [] else store.sessionTails paneID) = []
    rw [h.2, ite_self]

/-- What cascades from a session that is in the catalog. -/
theorem destroySession_eq (h : store.hasSession id = true) :
    store.destroySession id =
      { (store.deleteWindows fun window => window.sessionID = id).deletePanes
          (fun pane => pane.sessionID = id) with
        sessions := store.sessions.filter fun row => ! decide (row.id = id)
        activeLogicalSessions :=
          store.activeLogicalSessions.filter fun row => ! decide (row.2 = id) } := by
  have hgone : ∀ sessionID, (store.sessions.any fun row =>
      decide (row.id = id) && decide (row.id = sessionID)) = decide (sessionID = id) := by
    intro sessionID
    obtain ⟨row, hrow, hid⟩ := List.any_eq_true.mp h
    rw [decide_eq_true_eq] at hid
    rw [Bool.eq_iff_iff, List.any_eq_true, decide_eq_true_eq]
    constructor
    · rintro ⟨other, -, hother⟩
      rw [Bool.and_eq_true, decide_eq_true_eq, decide_eq_true_eq] at hother
      rw [← hother.1, ← hother.2]
    · rintro rfl
      exact ⟨row, hrow, by simp [hid]⟩
  rw [destroySession, deleteSessions]
  simp only [hgone]

theorem hasSession_iff : store.hasSession id = true ↔ id ∈ store.sessions.map (·.id) := by
  rw [hasSession, List.any_eq_true, List.mem_map]
  simp only [decide_eq_true_eq]

/-- What is left when some sessions of the catalog are removed. -/
structure Removed (store final : Store) (ids : List String) : Prop where
  sessions : final.sessions = store.sessions.filter fun row => ! decide (row.id ∈ ids)
  windows : final.windows = store.windows.filter fun window => ! decide (window.sessionID ∈ ids)
  panes : ∀ pane ∈ final.panes, pane ∈ store.panes ∧ pane.sessionID ∉ ids
  records : ∀ pane ∈ store.panes, (pane.sessionID ∈ ids ∨
    ∃ window ∈ store.windows, window.id = pane.windowID ∧ window.sessionID ∈ ids) →
    final.Recordless pane.id
  recordless : ∀ paneID, store.Recordless paneID → final.Recordless paneID
  kept : ∀ pane ∈ store.panes, pane ∈ final.panes ∨ final.Recordless pane.id

theorem removed_destroySession (h : store.hasSession id = true) :
    Removed store (store.destroySession id) [id] := by
  rw [destroySession_eq h]
  refine ⟨by simp, by simp [deleteWindows, deletePanes], ?_, ?_, ?_, ?_⟩
  · intro pane hpane
    obtain ⟨hpane, hsession⟩ := List.mem_filter.mp hpane
    exact ⟨List.mem_of_mem_filter hpane, by simpa using hsession⟩
  · intro pane hpane hgone
    let ofWindow : PaneRecord → Bool := fun pane =>
      store.windows.any fun row => decide (row.sessionID = id) && decide (row.id = pane.windowID)
    let ofSession : PaneRecord → Bool := fun pane => decide (pane.sessionID = id)
    rcases @mem_deletePanes store ofWindow pane hpane with ⟨hwindow, hkept⟩ | ⟨-, hnone⟩
    · rcases @mem_deletePanes (store.deletePanes ofWindow) ofSession pane hkept with
        ⟨hsession, -⟩ | ⟨-, hnone⟩
      · rcases hgone with hid | ⟨window, hmem, hid, hof⟩
        · exact absurd (List.mem_singleton.mp hid) (of_decide_eq_false hsession)
        · refine absurd (List.any_eq_false.mp hwindow window hmem) (not_not.mpr ?_)
          rw [decide_eq_true (List.mem_singleton.mp hof), decide_eq_true hid]
          rfl
      · exact hnone
    · exact Recordless.deletePanes hnone
  · intro paneID hnone
    exact (hnone.deletePanes).deletePanes
  · intro pane hpane
    rcases mem_deletePanes hpane with ⟨-, hkept⟩ | ⟨-, hnone⟩
    · rcases mem_deletePanes hkept with ⟨-, hkept⟩ | ⟨-, hnone⟩
      · exact .inl hkept
      · exact .inr hnone
    · exact .inr (Recordless.deletePanes hnone)

theorem Removed.nil (store : Store) : Removed store store [] :=
  ⟨by simp, by simp, fun pane hpane => ⟨hpane, by simp⟩, fun _ _ h => by simp at h,
    fun _ h => h, fun _ hpane => .inl hpane⟩

/-- Removing goes on. -/
theorem Removed.trans {next : Store} {more : List String} (h : Removed store next ids)
    (h' : Removed next final more) : Removed store final (ids ++ more) where
  sessions := by
    rw [h'.sessions, h.sessions, List.filter_filter]
    refine List.filter_congr fun row _ => ?_
    simp [Bool.and_comm]
  windows := by
    rw [h'.windows, h.windows, List.filter_filter]
    refine List.filter_congr fun window _ => ?_
    simp [Bool.and_comm]
  panes pane hpane := by
    obtain ⟨hnext, hmore⟩ := h'.panes pane hpane
    obtain ⟨hstore, hids⟩ := h.panes pane hnext
    exact ⟨hstore, fun hmem => (List.mem_append.mp hmem).elim hids hmore⟩
  records pane hpane hgone := by
    rcases h.kept pane hpane with hnext | hnone
    · by_cases hfirst : pane.sessionID ∈ ids ∨
        ∃ window ∈ store.windows, window.id = pane.windowID ∧ window.sessionID ∈ ids
      · exact h'.recordless _ (h.records pane hpane hfirst)
      · obtain ⟨hsession, hwindow⟩ := not_or.mp hfirst
        refine h'.records pane hnext ?_
        rcases hgone with hid | ⟨window, hmem, hid, hof⟩
        · exact .inl ((List.mem_append.mp hid).resolve_left hsession)
        · have hlater : window.sessionID ∉ ids := fun hin => hwindow ⟨window, hmem, hid, hin⟩
          refine .inr ⟨window, ?_, hid, (List.mem_append.mp hof).resolve_left hlater⟩
          rw [h.windows]
          exact List.mem_filter.mpr ⟨hmem, by simp [hlater]⟩
    · exact h'.recordless _ hnone
  recordless paneID hnone := h'.recordless paneID (h.recordless paneID hnone)
  kept pane hpane := by
    rcases h.kept pane hpane with hnext | hnone
    · exact h'.kept pane hnext
    · exact .inr (h'.recordless _ hnone)

/-- What is left without some sessions. -/
theorem removed_remove (hnodup : ids.Nodup) (hids : ∀ id ∈ ids, store.hasSession id = true) :
    Removed store (store.remove ids) ids := by
  induction ids generalizing store with
  | nil => exact .nil store
  | cons id ids ih =>
    obtain ⟨hnew, hnodup⟩ := List.nodup_cons.mp hnodup
    have hfirst := removed_destroySession (hids id List.mem_cons_self)
    refine hfirst.trans (ih hnodup fun other hother => ?_)
    obtain ⟨row, hrow, hid⟩ := List.mem_map.mp
      (hasSession_iff.mp (hids other (List.mem_cons_of_mem _ hother)))
    refine hasSession_iff.mpr (List.mem_map.mpr ⟨row, ?_, hid⟩)
    have hne : row.id ≠ id := fun hsame => hnew (by rwa [← hsame, hid])
    rw [hfirst.sessions]
    exact List.mem_filter.mpr ⟨hrow, by simp [hne]⟩

/-! ### The loop -/

/-- The first session of a query is the oldest. -/
theorem le_of_head_evictable {also : SessionRecord → Bool} {row other : SessionRecord}
    (hrow : (store.evictable also).head? = some row) (hother : other ∈ store.evictable also) :
    row.lastAttachedAt ≤ other.lastAttachedAt := by
  let older : SessionRecord → SessionRecord → Prop := fun left right =>
    left.lastAttachedAt ≤ right.lastAttachedAt
  have : Std.Total older := ⟨fun left right => Nat.le_total _ _⟩
  have : IsTrans SessionRecord older := ⟨fun _ _ _ => Nat.le_trans⟩
  have hsorted : (store.evictable also).Pairwise older := List.pairwise_insertionSort older _
  obtain ⟨rest, hlist⟩ := List.head?_eq_some_iff.mp hrow
  rw [hlist] at hsorted hother
  rcases List.mem_cons.mp hother with rfl | hlater
  · exact Nat.le_refl _
  · exact (List.pairwise_cons.mp hsorted).1 other hlater

theorem Keyed.nodup_evictable (h : store.Keyed) (also : SessionRecord → Bool) :
    ((store.evictable also).map (·.id)).Nodup :=
  ((List.perm_insertionSort _ _).map _).nodup_iff.mpr
    (List.Nodup.sublist (List.filter_sublist.map _) h)

theorem Keyed.destroySession (h : store.Keyed) (id : String) :
    (store.destroySession id).Keyed :=
  List.Nodup.sublist (List.filter_sublist.map _) h

theorem Keyed.remove (h : store.Keyed) (ids : List String) : (store.remove ids).Keyed := by
  induction ids generalizing store with
  | nil => exact h
  | cons id ids ih => exact ih (h.destroySession id)

/-- What the loop over the size does: it removes the oldest evictable session as long as the
database is larger than its cap. -/
structure EvictedOver (size : Store → ℤ) (databaseCap : ℤ) (store final : Store)
    (further : List SessionRecord) : Prop where
  evictable : ∀ row ∈ further, row ∈ store.sessions ∧ row.evictable = true
  nodup : (further.map (·.id)).Nodup
  oldest : further.Pairwise fun row later => row.lastAttachedAt ≤ later.lastAttachedAt
  older : ∀ row ∈ further, ∀ other ∈ final.sessions, other.evictable = true →
    row.lastAttachedAt ≤ other.lastAttachedAt
  larger : ∀ n < further.length, databaseCap < size (store.remove ((further.take n).map (·.id)))
  stops : size final ≤ databaseCap ∨ ∀ row ∈ final.sessions, row.evictable = false
  final : final = store.remove (further.map (·.id))

theorem EvictedOver.removed {size : Store → ℤ} {databaseCap : ℤ} {further : List SessionRecord}
    (h : EvictedOver size databaseCap store final further) :
    Removed store final (further.map (·.id)) := by
  rw [h.final]
  refine removed_remove h.nodup fun id hid => ?_
  obtain ⟨row, hrow, rfl⟩ := List.mem_map.mp hid
  exact hasSession_iff.mpr (List.mem_map.mpr ⟨row, (h.evictable row hrow).1, rfl⟩)

/-- One more session in front. -/
theorem EvictedOver.cons {size : Store → ℤ} {databaseCap : ℤ} {row : SessionRecord}
    {further : List SessionRecord} (hover : databaseCap < size store)
    (hhead : (store.evictable fun _ => true).head? = some row)
    (h : EvictedOver size databaseCap (store.destroySession row.id) final further) :
    EvictedOver size databaseCap store final (row :: further) := by
  obtain ⟨hrow, hevictable, -⟩ := mem_evictable.mp (List.mem_of_mem_head? hhead)
  have hsession : store.hasSession row.id = true :=
    hasSession_iff.mpr (List.mem_map.mpr ⟨row, hrow, rfl⟩)
  have hdestroyed : ∀ later ∈ (store.destroySession row.id).sessions,
      later ∈ store.sessions ∧ later.id ≠ row.id := by
    intro later hlater
    rw [(removed_destroySession hsession).sessions] at hlater
    obtain ⟨hmem, hid⟩ := List.mem_filter.mp hlater
    exact ⟨hmem, by simpa using hid⟩
  have hfirst : ∀ other ∈ store.sessions, other.evictable = true →
      row.lastAttachedAt ≤ other.lastAttachedAt := fun other hother hdead =>
    le_of_head_evictable hhead (mem_evictable.mpr ⟨hother, hdead, rfl⟩)
  refine ⟨?_, ?_, ?_, ?_, ?_, h.stops, h.final⟩
  · refine List.forall_mem_cons.mpr ⟨⟨hrow, hevictable⟩, fun later hlater => ?_⟩
    obtain ⟨hmem, hdead⟩ := h.evictable later hlater
    exact ⟨(hdestroyed later hmem).1, hdead⟩
  · refine List.nodup_cons.mpr ⟨fun hmem => ?_, h.nodup⟩
    obtain ⟨later, hlater, hid⟩ := List.mem_map.mp hmem
    exact (hdestroyed later (h.evictable later hlater).1).2 hid
  · refine List.pairwise_cons.mpr ⟨fun later hlater => ?_, h.oldest⟩
    obtain ⟨hmem, hdead⟩ := h.evictable later hlater
    exact hfirst later (hdestroyed later hmem).1 hdead
  · refine List.forall_mem_cons.mpr ⟨fun other hother hdead => ?_, h.older⟩
    rw [h.removed.sessions] at hother
    exact hfirst other (hdestroyed other (List.mem_of_mem_filter hother)).1 hdead
  · rintro (_ | n) hn
    · exact hover
    · exact h.larger n (Nat.lt_of_succ_lt_succ hn)

theorem evictOver_spec (size : Store → ℤ) (databaseCap : ℤ) (store : Store) (h : store.Keyed) :
    ∃ further, (evictOver size databaseCap store).2 = further.map (·.id) ∧
      EvictedOver size databaseCap store (evictOver size databaseCap store).1 further := by
  induction hlength : store.sessions.length using Nat.strong_induction_on generalizing store with
  | _ length ih =>
    rw [evictOver]
    split
    next hfits =>
      exact ⟨[], rfl, nofun, List.nodup_nil, .nil, nofun, nofun, .inl hfits, rfl⟩
    next hover =>
      split
      next hnone =>
        refine ⟨[], rfl, nofun, List.nodup_nil, .nil, nofun, nofun, .inr fun row hrow => ?_, rfl⟩
        rw [List.head?_eq_none_iff] at hnone
        by_contra hrowEvictable
        have hmem : row ∈ store.evictable fun _ => true :=
          mem_evictable.mpr ⟨hrow, Bool.eq_true_of_not_eq_false hrowEvictable, rfl⟩
        rw [hnone] at hmem
        exact nomatch hmem
      next row hhead =>
        obtain ⟨hrow, -, -⟩ := mem_evictable.mp (List.mem_of_mem_head? hhead)
        obtain ⟨further, hids, hrest⟩ := ih _
          (hlength ▸ length_destroySession_lt hrow) _ (h.destroySession row.id) rfl
        refine ⟨row :: further, ?_, hrest.cons (not_le.mp hover) hhead⟩
        rw [List.map_cons, ← hids]

/-! ### The policy -/

/-- What an eviction is to do: it removes the dead unpinned sessions older than the cutoff, and
then the oldest of the others one by one, only while the database is larger than its cap. -/
structure Eviction (size : Store → ℤ) (cutoff databaseCap : ℤ) (store final : Store)
    (ids : List String) (expired further : List SessionRecord) : Prop where
  returned : ids = (expired ++ further).map (·.id)
  nodup : ids.Nodup
  evictable : ∀ row ∈ expired ++ further, row ∈ store.sessions ∧ row.evictable = true
  beyond : ∀ row ∈ store.sessions, row.evictable = true →
    ((row.lastAttachedAt : ℤ) < cutoff ↔ row ∈ expired)
  oldest : further.Pairwise fun row later => row.lastAttachedAt ≤ later.lastAttachedAt
  older : ∀ row ∈ further, ∀ other ∈ final.sessions, other.evictable = true →
    row.lastAttachedAt ≤ other.lastAttachedAt
  larger : ∀ n < further.length,
    databaseCap < size (store.remove ((expired ++ further.take n).map (·.id)))
  stops : size final ≤ databaseCap ∨ ∀ row ∈ final.sessions, row.evictable = false
  removed : Removed store final ids

theorem remove_append (store : Store) (ids more : List String) :
    store.remove (ids ++ more) = (store.remove ids).remove more :=
  List.foldl_append

/-- An eviction does what it is to do, with the retention and the cap it was called with where they
are positive and with the defaults elsewhere; the catalog loses exactly the sessions whose ids are
returned, with their windows, panes, keyframes and tails. -/
theorem eviction_policy (size : Store → ℤ) (daysAgo : ℤ → ℤ) (retentionDays databaseCap : ℤ)
    (store : Store) (hkeyed : store.Keyed) :
    ∃ expired further,
      Eviction size (daysAgo (if retentionDays ≤ 0 then defaultRetentionDays else retentionDays))
        (if databaseCap ≤ 0 then defaultDatabaseCap else databaseCap) store
        (store.evict size daysAgo retentionDays databaseCap).1
        (store.evict size daysAgo retentionDays databaseCap).2 expired further := by
  unfold evict
  dsimp only
  generalize daysAgo _ = cutoff
  generalize (if databaseCap ≤ 0 then defaultDatabaseCap else databaseCap) = cap
  let expired := store.evictable fun row => (row.lastAttachedAt : ℤ) < cutoff
  have hexpired : ∀ row ∈ expired, row ∈ store.sessions ∧ row.evictable = true := fun row hrow =>
    ⟨(mem_evictable.mp hrow).1, (mem_evictable.mp hrow).2.1⟩
  have hremoved : Removed store (store.remove (expired.map (·.id))) (expired.map (·.id)) := by
    refine removed_remove (hkeyed.nodup_evictable _) fun id hid => ?_
    obtain ⟨row, hrow, rfl⟩ := List.mem_map.mp hid
    exact hasSession_iff.mpr (List.mem_map.mpr ⟨row, (hexpired row hrow).1, rfl⟩)
  obtain ⟨further, hids, hfurther⟩ := evictOver_spec size cap (store.remove (expired.map (·.id)))
    (hkeyed.remove _)
  -- what the loop removes was left by the retention
  have hleft : ∀ row ∈ further, (row ∈ store.sessions ∧ row.evictable = true) ∧
      row.id ∉ expired.map (·.id) := by
    intro row hrow
    obtain ⟨hmem, hdead⟩ := hfurther.evictable row hrow
    rw [hremoved.sessions] at hmem
    obtain ⟨hmem, hnew⟩ := List.mem_filter.mp hmem
    exact ⟨⟨hmem, hdead⟩, by simpa using hnew⟩
  have happend : (expired ++ further).map (·.id) = expired.map (·.id) ++ further.map (·.id) :=
    List.map_append
  refine ⟨expired, further, ?_⟩
  change Eviction size cutoff cap store _ (expired.map (·.id) ++ _) expired further
  rw [hids]
  refine ⟨happend.symm, ?_, ?_, ?_, hfurther.oldest, hfurther.older, ?_, hfurther.stops,
    hremoved.trans hfurther.removed⟩
  · refine List.nodup_append.mpr ⟨hkeyed.nodup_evictable _, hfurther.nodup, ?_⟩
    rintro id hid other hother rfl
    obtain ⟨row, hrow, rfl⟩ := List.mem_map.mp hother
    exact (hleft row hrow).2 hid
  · intro row hrow
    rcases List.mem_append.mp hrow with hfirst | hlater
    · exact hexpired row hfirst
    · exact (hleft row hlater).1
  · intro row hrow hdead
    rw [mem_evictable, decide_eq_true_eq]
    exact ⟨fun hold => ⟨hrow, hdead, hold⟩, fun hmem => hmem.2.2⟩
  · intro n hn
    rw [List.map_append, remove_append]
    exact hfurther.larger n hn

/-- An expired session, a younger one, a pinned one and a live one. -/
def fourSessions : Store where
  sessions :=
    [⟨"a", "a", "p", "local", "dead", false, 1, 90⟩, ⟨"b", "b", "p", "local", "dead", false, 2, 95⟩,
      ⟨"c", "c", "p", "local", "dead", true, 3, 80⟩, ⟨"d", "d", "p", "local", "live", false, 4, 85⟩]

/-- A cap of two sessions at the default retention. -/
theorem eviction_policy_four :
    ∃ expired further,
      Eviction (fun store => store.sessions.length) (100 - defaultRetentionDays) 2 fourSessions
        (fourSessions.evict (fun store => store.sessions.length) (fun days => 100 - days) 0 2).1
        (fourSessions.evict (fun store => store.sessions.length) (fun days => 100 - days) 0 2).2
        expired further := by
  have h := eviction_policy (fun store => store.sessions.length) (fun days => 100 - days) 0 2
    fourSessions (List.nodup_iff_pairwise_ne.mpr (by decide))
  rw [if_pos (by decide), if_neg (by decide)] at h
  exact h

/-! ### The next start -/

theorem evictOver_of_stops {size : Store → ℤ} {databaseCap : ℤ}
    (h : size store ≤ databaseCap ∨ ∀ row ∈ store.sessions, row.evictable = false) :
    evictOver size databaseCap store = (store, []) := by
  rw [evictOver]
  split
  · rfl
  next hover =>
    split
    · rfl
    next row hhead =>
      obtain ⟨hrow, hdead, -⟩ := mem_evictable.mp (List.mem_of_mem_head? hhead)
      exact absurd (hdead.symm.trans ((h.resolve_left hover) row hrow)) nofun

theorem size_remove_le {size : Store → ℤ}
    (hshrinks : ∀ store id, size (destroySession store id) ≤ size store) (ids : List String) :
    size (store.remove ids) ≤ size store := by
  induction ids generalizing store with
  | nil => exact le_rfl
  | cons id ids ih => exact ih.trans (hshrinks store id)

/-- **The next start evicts what has expired since**, and nothing for the size of the database, if
that does not grow when a session is removed. -/
theorem evict_evict (size : Store → ℤ) (daysAgo daysAgo' : ℤ → ℤ) (retentionDays databaseCap : ℤ)
    (store : Store) (hkeyed : store.Keyed)
    (hshrinks : ∀ store id, size (destroySession store id) ≤ size store) :
    let final := (store.evict size daysAgo retentionDays databaseCap).1
    let cutoff := daysAgo' (if retentionDays ≤ 0 then defaultRetentionDays else retentionDays)
    let expired := (final.evictable fun row => (row.lastAttachedAt : ℤ) < cutoff).map (·.id)
    final.evict size daysAgo' retentionDays databaseCap = (final.remove expired, expired) := by
  intro final cutoff expired
  obtain ⟨_, _, hpolicy⟩ := eviction_policy size daysAgo retentionDays databaseCap store hkeyed
  have hstops : size (final.remove expired) ≤
        (if databaseCap ≤ 0 then defaultDatabaseCap else databaseCap) ∨
      ∀ row ∈ (final.remove expired).sessions, row.evictable = false := by
    refine hpolicy.stops.imp (size_remove_le hshrinks expired).trans fun hnone => ?_
    have hexpired : expired = [] :=
      List.map_eq_nil_iff.mpr (List.eq_nil_iff_forall_not_mem.mpr fun row hrow => by
        obtain ⟨hmem, hdead, -⟩ := mem_evictable.mp hrow
        exact absurd (hdead.symm.trans (hnone row hmem)) nofun)
    rw [hexpired]
    exact hnone
  rw [evict, evictOver_of_stops hstops]
  dsimp only
  rw [List.append_nil]

theorem evict_evict_four :
    let final := (fourSessions.evict (fun store => store.sessions.length) (fun days => 100 - days)
      0 3).1
    let expired := (final.evictable fun row => (row.lastAttachedAt : ℤ) < 97).map (·.id)
    final.evict (fun store => store.sessions.length) (fun days => 104 - days) 0 3 =
      (final.remove expired, expired) :=
  evict_evict (fun store => store.sessions.length) (fun days => 100 - days) (fun days => 104 - days)
    0 3 fourSessions (List.nodup_iff_pairwise_ne.mpr (by decide))
    fun _ _ => Int.ofNat_le.mpr (List.length_filter_le _ _)

end Store

end AgentCockpit.Mux
