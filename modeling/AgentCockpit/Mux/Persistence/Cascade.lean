import AgentCockpit.Mux.Persistence.Store

/-!
# Cascades

What a deletion removes besides the rows it names. A window that is in one logical session
only is not removed on behalf of another one, so destroying a pane removes that pane and
the windows, sessions and selections that have no pane left.
-/

namespace AgentCockpit.Mux.Store

variable {store : Store} {id other : String}

/-- The catalog has each window in one logical session. -/
def Unique (store : Store) : Prop :=
  ∀ windowID logicalID logicalID', store.Bound windowID logicalID →
    store.Bound windowID logicalID' → logicalID = logicalID'

/-- Nothing cascades from panes that are not there. -/
theorem deletePanes_of_none {doomed : PaneRecord → Bool}
    (h : ∀ row ∈ store.panes, doomed row = false) : store.deletePanes doomed = store := by
  have hpanes : store.panes.filter (! doomed ·) = store.panes :=
    List.filter_eq_self.mpr fun row hrow => by simp [h row hrow]
  have hgone : ∀ paneID, (store.panes.any fun row => doomed row && row.id = paneID) = false :=
    fun paneID => List.any_eq_false.mpr fun row hrow => by simp [h row hrow]
  simp [deletePanes, hpanes, hgone]

theorem deleteWindows_of_unused {doomed : WindowRecord → Bool}
    (h : ∀ window ∈ store.windows, doomed window = true →
      ∀ pane ∈ store.panes, pane.windowID ≠ window.id) :
    store.deleteWindows doomed = { store with windows := store.windows.filter (! doomed ·) } := by
  rw [deleteWindows, deletePanes_of_none fun pane hpane => ?_]
  rw [List.any_eq_false]
  intro window hwindow hgone
  rw [Bool.and_eq_true, decide_eq_true_eq] at hgone
  exact h window hwindow hgone.1 pane hpane hgone.2.symm

theorem deleteSessions_of_unused (hunique : store.Unique) {doomed : SessionRecord → Bool}
    (h : ∀ session ∈ store.sessions, doomed session = true →
      ∀ pane ∈ store.panes, pane.sessionID ≠ session.id) :
    store.deleteSessions doomed =
      let gone := fun sessionID => store.sessions.any fun row => doomed row && row.id = sessionID
      { store with
        windows := store.windows.filter fun window => ! gone window.sessionID
        sessions := store.sessions.filter (! doomed ·)
        activeLogicalSessions := store.activeLogicalSessions.filter fun row => ! gone row.2 } := by
  have hgone : ∀ sessionID, (store.sessions.any fun row =>
    doomed row && row.id = sessionID) = true →
      ∀ pane ∈ store.panes, pane.sessionID ≠ sessionID := by
    intro sessionID hany pane hpane
    obtain ⟨session, hsession, hdoomed⟩ := List.any_eq_true.mp hany
    rw [Bool.and_eq_true, decide_eq_true_eq] at hdoomed
    exact hdoomed.2 ▸ h session hsession hdoomed.1 pane hpane
  have hwindows : ∀ window ∈ store.windows,
      (store.sessions.any fun row => doomed row && row.id = window.sessionID) = true →
      ∀ pane ∈ store.panes, pane.windowID ≠ window.id := by
    -- a pane of the window is in the session of the window
    intro window hwindow hany pane hpane hsame
    refine hgone _ hany pane hpane (hunique window.id _ _ ?_ ?_)
    · exact .inr ⟨pane, hpane, hsame, rfl⟩
    · exact .inl ⟨window, hwindow, rfl, rfl⟩
  rw [deleteSessions, deleteWindows_of_unused hwindows, deletePanes_of_none fun pane hpane => ?_]
  exact Bool.eq_false_iff.mpr fun hany => hgone _ hany pane hpane rfl

/-- The panes that are left without one of them. -/
def panesWithout (store : Store) (id : String) : List PaneRecord :=
  store.panes.filter (·.id ≠ id)

/-- The first two deletions: the pane, and then the windows without a pane. -/
theorem deleteWindows_deletePanes_eq (id : String) :
    (store.deletePanes (·.id = id)).deleteWindows (fun window =>
        ! (store.deletePanes (·.id = id)).panes.any (·.windowID = window.id)) =
      { store.deletePanes (·.id = id) with
        panes := store.panesWithout id
        windows := store.windows.filter fun window =>
          (store.panesWithout id).any (·.windowID = window.id) } := by
  have hpanes : (store.deletePanes (·.id = id)).panes = store.panesWithout id := by
    simp [deletePanes, panesWithout]
  rw [deleteWindows_of_unused, hpanes]
  · simp [deletePanes, panesWithout]
  · intro window _ hnone pane hpane hsame
    rw [Bool.not_eq_true', List.any_eq_false] at hnone
    exact hnone pane hpane (by simpa using hsame)

/-- **Destroying a pane** removes it with the windows, sessions and selections that have no
pane left. -/
theorem destroyPane_eq (hunique : store.Unique) (id : String) :
    store.destroyPane id =
      let panes := store.panesWithout id
      let closed := fun sessionID => store.sessions.any fun row =>
        (! panes.any (·.sessionID = row.id)) && row.id = sessionID
      { store.deletePanes (·.id = id) with
        panes
        windows := store.windows.filter fun window => panes.any (·.windowID = window.id)
        sessions := store.sessions.filter fun session => panes.any (·.sessionID = session.id)
        activeLogicalSessions :=
          store.activeLogicalSessions.filter fun row => ! closed row.2 } := by
  have hpane : ∀ pane ∈ store.panesWithout id, pane ∈ store.panes :=
    fun pane hpane => List.mem_of_mem_filter hpane
  -- a window that is left has a pane, which is in the session of the window
  have hopen : ∀ window ∈ store.windows.filter fun window =>
      (store.panesWithout id).any (·.windowID = window.id),
      (store.panesWithout id).any (·.sessionID = window.sessionID) = true := by
    intro window hwindow
    obtain ⟨hmem, hany⟩ := List.mem_filter.mp hwindow
    obtain ⟨pane, hleft, hsame⟩ := List.any_eq_true.mp hany
    rw [decide_eq_true_eq] at hsame
    refine List.any_eq_true.mpr ⟨pane, hleft, decide_eq_true ?_⟩
    exact hunique window.id _ _ (.inr ⟨pane, hpane pane hleft, hsame, rfl⟩)
      (.inl ⟨window, hmem, rfl, rfl⟩)
  simp only [destroyPane, deleteWindows_deletePanes_eq]
  rw [deleteSessions_of_unused]
  · simp only [Store.mk.injEq, true_and, and_true, deletePanes, Bool.not_not]
    refine List.filter_eq_self.mpr fun window hwindow => ?_
    rw [Bool.not_eq_true', List.any_eq_false]
    intro session _ hclosed
    rw [Bool.and_eq_true, decide_eq_true_eq] at hclosed
    rw [hclosed.2, hopen window hwindow] at hclosed
    exact nomatch hclosed.1
  · rintro w l l' hl hl'
    have hbound : ∀ l, Bound { store.deletePanes (·.id = id) with
        panes := store.panesWithout id
        windows := store.windows.filter fun window =>
          (store.panesWithout id).any (·.windowID = window.id) } w l → store.Bound w l := by
      rintro l (⟨row, hrow, hrest⟩ | ⟨row, hrow, hrest⟩)
      · exact .inl ⟨row, List.mem_of_mem_filter hrow, hrest⟩
      · exact .inr ⟨row, hpane row hrow, hrest⟩
    exact hunique w l l' (hbound l hl) (hbound l' hl')
  · intro session _ hnone pane hleft hsame
    rw [Bool.not_eq_true', List.any_eq_false] at hnone
    exact hnone pane hleft (by simpa using hsame)

/-- The recovery records of the other panes survive. -/
theorem destroyPane_recovery_of_ne (hunique : store.Unique) (hother : other ≠ id) :
    (store.destroyPane id).panes.filter (·.id = other) = store.panes.filter (·.id = other) ∧
      (store.destroyPane id).sessionKeyframes other = store.sessionKeyframes other ∧
      (store.destroyPane id).sessionTails other = store.sessionTails other := by
  have hgone : (store.panes.any fun row => (row.id = id : Bool) && row.id = other) = false := by
    refine List.any_eq_false.mpr fun row _ hboth => hother ?_
    rw [Bool.and_eq_true, decide_eq_true_eq, decide_eq_true_eq] at hboth
    exact hboth.2.symm.trans hboth.1
  rw [destroyPane_eq hunique]
  refine ⟨?_, ?_, ?_⟩
  · simp only [panesWithout, List.filter_filter]
    refine List.filter_congr fun row _ => ?_
    by_cases hrow : row.id = other <;> simp [hrow, hother]
  · simp only [deletePanes, hgone, Bool.false_eq_true, if_false]
  · simp only [deletePanes, hgone, Bool.false_eq_true, if_false]

end AgentCockpit.Mux.Store
