import AgentCockpit.Mux.Broadcast

/-!
# The ids of panes

A daemon counts its sessions and takes the ids of a new pane from the counter, which it never puts
back. While it runs, no pane takes the ids of another one, whichever creations fail and whatever
is destroyed, and a pane keeps its logical session and its project as long as it is there.
-/

namespace AgentCockpit.Mux

open AgentCockpit.Core

variable {env : Env} {o o' o'' : Operations}

/-- Who a pane is: its badge without the scope, which may change. -/
def ManagedSession.identity (session : ManagedSession) : Badge := session.badge.withScope ""

/-- The panes are ones that were there before, and new ones with numbers that were counted since. -/
structure Continues (o o' : Operations) : Prop where
  nextSession : o.nextSession ≤ o'.nextSession
  sessions : ∀ session ∈ o'.sessions, (∃ old ∈ o.sessions, old.identity = session.identity) ∨
    ∃ n, o.nextSession < n ∧ session.id = sessionName n ∧ session.paneID = paneName n

namespace Continues

instance : Std.Refl Continues :=
  ⟨fun _ => ⟨Nat.le_refl _, fun session hmem => .inl ⟨session, hmem, rfl⟩⟩⟩

theorem trans (h : Continues o o') (h' : Continues o' o'') : Continues o o'' := by
  refine ⟨h.nextSession.trans h'.nextSession, fun session hmem => ?_⟩
  rcases h'.sessions session hmem with ⟨old, hold, hsame⟩ | ⟨n, hlt, hnamed⟩
  · refine (h.sessions old hold).imp (fun ⟨first, hfirst, hsame'⟩ =>
      ⟨first, hfirst, hsame'.trans hsame⟩) fun ⟨n, hlt, hid, hpane⟩ => ⟨n, hlt, ?_⟩
    exact ⟨(congrArg Badge.id hsame).symm.trans hid, (congrArg Badge.paneID hsame).symm.trans hpane⟩
  · exact .inr ⟨n, h.nextSession.trans_lt hlt, hnamed⟩

instance : IsTrans Operations Continues := ⟨fun _ _ _ => trans⟩

theorem of_sheds (h : Sheds o o') : Continues o o' := by
  refine ⟨h.nextSession, fun session hmem => .inl ?_⟩
  obtain ⟨old, hold, hbadge⟩ := List.mem_map.mp (h.roster.subset (mem_roster hmem))
  exact ⟨old, hold, congrArg (Badge.withScope · "") hbadge⟩

/-- Panes that are changed and stay who they are. -/
theorem of_map {change : ManagedSession → ManagedSession}
    (hchange : ∀ session, (change session).identity = session.identity) :
    Continues o { o with sessions := o.sessions.map change } := by
  refine ⟨Nat.le_refl _, List.forall_mem_map.mpr fun session hmem => .inl ?_⟩
  exact ⟨session, hmem, (hchange session).symm⟩

/-- A new pane takes the next number. -/
theorem of_entered {input : CreateSessionRequest} {logicalID : String} {session : ManagedSession}
    (h : Entered o input logicalID session o') (hmemory : SameMemory o' o'') :
    Continues o o'' := by
  have hnext : o''.nextSession = o.nextSession + 1 :=
    (hmemory.read fun _ => rfl).trans h.nextSession
  refine ⟨by omega, fun other hother => ?_⟩
  rw [hmemory.sessions, h.sessions, mem_register] at hother
  rcases hother with ⟨hold, -⟩ | rfl
  · exact .inl ⟨other, hold, rfl⟩
  · exact .inr ⟨_, Nat.lt_succ_self _, h.named.id, h.named.paneID⟩

end Continues

/-- A new pane takes the scope and the pin of the one it was made from, and is recorded. -/
theorem continues_place (creation : Creation) (created : ManagedSession) :
    Leads Continues (creation.place env created) o fun _ _ => True := by
  unfold Creation.place
  split
  · exact .of_pure trivial
  · next origin _ =>
    refine .modify_bind (.of_map fun session => ?_)
      ((sheds_placed env origin created).weaken fun _ _ => .of_sheds)
    split <;> rfl

theorem continues_creation {request : Request} (hcreates : request.operation.Creates) :
    Continues o (exec (handleMethod env request) o).2 := by
  obtain ⟨x, hhandle, hperforms⟩ := @performs_creation env o _ hcreates
  rw [hhandle, exec_responding]
  cases hcreation : o.creation env request with
  | none =>
    rw [hcreation] at hperforms
    obtain ⟨err, hexec⟩ := hperforms
    rw [hexec]
    exact refl o
  | some creation =>
    rw [hcreation] at hperforms
    rw [show exec x o = _ from hperforms]
    refine Ends.final (ends_createLocked.mono (fun _ _ => id) ?_ |>.bind fun created t ht => ?_)
    · rintro t (habandoned | ⟨session, u, -, hentered, -, hmemory⟩)
      · have hwithheld := habandoned.withheld
        exact ⟨hwithheld.nextSession, hwithheld.sessions ▸ (refl o : Continues o o).sessions⟩
      · exact .of_entered hentered hmemory
    · obtain ⟨u, hentered, hmemory⟩ := ht
      exact .of_final ((Continues.of_entered hentered hmemory).trans
        (continues_place creation created).1)

/-- **One step** takes no id that was given before. -/
theorem Continues.after (o : Operations) (event : Event) : Continues o (o.after event) := by
  cases event with
  | paneExit env sessionID diagnostic =>
    exact .of_sheds (sheds_watchPaneExit sessionID diagnostic).1
  | attachmentWrite env paneID write => exact .of_sheds (sheds_backgroundWrite paneID write).1
  | handle env request =>
    by_cases hcreates : request.operation.Creates
    · exact continues_creation hcreates
    by_cases hscope : ∃ input, request.operation = .sessionBroadcastScope input
    · obtain ⟨input, hoperation⟩ := hscope
      rw [Operations.after, handleMethod, hoperation, exec_responding]
      refine Ends.final (.require_bind (fun _ => refl o) fun _ => ends_requireMutable (refl o)
        fun _ => ends_requireLogicalSession (refl o) fun root _ => ?_)
      refine Ends.of_modify.mono (fun _ t ht => ht ▸ .of_map fun session => ?_) fun _ => id
      unfold setScope
      split <;> rfl
    · exact .of_sheds (sheds_handleMethod hcreates fun input heq => hscope ⟨input, heq⟩).1

theorem Continues.of_reaches {admits : Operations → Event → Prop}
    (h : Reaches Operations.step admits o o') : Continues o o' :=
  h.invariant (fun _ event _ hbefore _ hstep =>
    Option.some.inj hstep ▸ hbefore.trans (.after _ event)) (refl o)

/-- The counter has gone past the ids that were given out. -/
theorem Consistent.ids_ne (h : Consistent o) {session later : ManagedSession} {n : ℕ}
    (hmem : session ∈ o.sessions) (hlt : o.nextSession < n) (hid : later.id = sessionName n)
    (hpane : later.paneID = paneName n) :
    ¬ (later.id = session.id ∨ later.paneID = session.paneID) := by
  obtain ⟨m, hle, hid', hpane'⟩ := h.numbered session hmem
  have hne : n ≠ m := by omega
  rintro (hsame | hsame)
  · exact hne (sessionName_injective (hid.symm.trans (hsame.trans hid')))
  · exact hne (paneName_injective (hpane.symm.trans (hsame.trans hpane')))

/-- A pane with ids that were given out before is the one that has them. -/
theorem Continues.identity_eq (h : Consistent o) (hafter : Continues o o')
    {session later : ManagedSession} (hmem : session ∈ o.sessions) (hlater : later ∈ o'.sessions)
    (hids : later.id = session.id ∨ later.paneID = session.paneID) :
    later.identity = session.identity := by
  rcases hafter.sessions later hlater with ⟨old, hold, hsame⟩ | ⟨n, hlt, hid, hpane⟩
  · suffices heq : old = session by rw [← hsame, heq]
    have hid'' : old.id = later.id := congrArg Badge.id hsame
    have hpane'' : old.paneID = later.paneID := congrArg Badge.paneID hsame
    rcases hids with hids | hids
    · exact h.eq_of_id hold hmem (hid''.trans hids)
    · exact h.eq_of_paneID hold hmem (hpane''.trans hids)
  · exact absurd hids (h.ids_ne hmem hlt hid hpane)

/-- **Ids are not used again.** If a pane has one of the ids of an earlier pane, then it is that
pane, with all of its ids, its logical session and its project, and it was there all the time. -/
theorem ids_not_reused (persistencePath topologyEpoch : String) (persistScrollback : Bool)
    (scrollbackLines : ℕ)
    (hreach : Reaches Operations.step Always
      (.fresh persistencePath topologyEpoch persistScrollback scrollbackLines) o)
    (hrun : Reaches Operations.step Always o o') (hrun' : Reaches Operations.step Always o' o'')
    {session later : ManagedSession} (hmem : session ∈ o.sessions) (hlater : later ∈ o''.sessions)
    (hids : later.id = session.id ∨ later.paneID = session.paneID) :
    later.identity = session.identity ∧ ∃ kept ∈ o'.sessions, kept.identity = session.identity := by
  have h : Consistent o := (Consistent.fresh _ _ _ _).of_reaches hreach
  have hfirst := Continues.of_reaches hrun
  have hsecond := Continues.of_reaches hrun'
  refine ⟨(hfirst.trans hsecond).identity_eq h hmem hlater hids, ?_⟩
  rcases hsecond.sessions later hlater with ⟨kept, hkept, hsame⟩ | ⟨n, hlt, hid, hpane⟩
  · exact ⟨kept, hkept, hsame.trans ((hfirst.trans hsecond).identity_eq h hmem hlater hids)⟩
  · exact absurd hids (h.ids_ne hmem (hfirst.nextSession.trans_lt hlt) hid hpane)

/-- The first pane stays beside the one that is split off from it. -/
theorem ids_not_reused_sharedPanes : ∃ session later : ManagedSession, session.paneID = "pane-1" ∧
    later ∈ (sharedPanes .calm).sessions ∧ later.identity = session.identity := by
  have hpane : "pane-1" ∈ ((Operations.fresh "state.db" "epoch" true 10000).after
      createShell).sessions.map (·.paneID) := by decide +kernel
  have hlater : "pane-1" ∈ (sharedPanes .calm).sessions.map (·.paneID) := by decide +kernel
  obtain ⟨session, hmem, hpane⟩ := List.mem_map.mp hpane
  obtain ⟨later, hlater, hsame⟩ := List.mem_map.mp hlater
  exact ⟨session, later, hpane, hlater, (ids_not_reused "state.db" "epoch" true 10000
    ⟨_, .single trivial rfl⟩ ⟨[shareInSession], .single trivial rfl⟩
    ⟨[splitShell .calm], .single trivial rfl⟩ hmem hlater (.inr (hsame.trans hpane.symm))).1⟩

end AgentCockpit.Mux
