import AgentCockpit.Mux.FrameAtomicity

/-!
# Who owns a session

An attach makes its connection the owner of the session. A connection that goes gives up what it
owns before it asks the handler to detach, so that no session is left to a connection that has gone,
whichever connections claim the session meanwhile.
-/

namespace AgentCockpit.Mux

open AgentCockpit.Core Function

/-- The goroutine has been greeted and has not begun to clean up. -/
def Phase.Serves : Phase → Prop
  | .unused | .hello | .detaching _ | .closed => False
  | _ => True

namespace Server

variable {ε σ : Type} {wire : Wire ε σ} {server server' : Server σ} {label : ServerStep ε}
  {connection : ℕ} {phase : Phase}

/-- A session has one owner at most, and that is a connection that is served. -/
structure Owned (server : Server σ) : Prop where
  sessions : (server.owners.map (·.1)).Nodup
  served : ∀ entry ∈ server.owners, (server.phase entry.2.connection).Serves

namespace Owned

/-- A goroutine goes on to serve, or owns nothing. -/
theorem enter (h : Owned server) (howners : server'.owners = server.owners)
    (hphase : server'.phase = update server.phase connection phase)
    (hserves : phase.Serves ∨ ¬ (server.phase connection).Serves) : Owned server' := by
  refine ⟨howners ▸ h.sessions, fun entry hentry => ?_⟩
  rw [howners] at hentry
  have hserved := h.served entry hentry
  rw [hphase]
  by_cases hsame : entry.2.connection = connection
  · rw [hsame] at hserved ⊢
    rw [update_self]
    exact hserves.resolve_right (not_not.mpr hserved)
  · rwa [update_of_ne hsame]

/-- The owner of a session is replaced by a connection that is served. -/
theorem claim (h : Owned server) (sessionID : String) (owner : ConnectionOwner)
    (hserves : phase.Serves) :
    Owned ((server.setOwner sessionID owner).enter owner.connection phase) := by
  have hserved (entry : String × ConnectionOwner) (hentry : entry ∈ server.owners) :
      (update server.phase owner.connection phase entry.2.connection).Serves := by
    by_cases hsame : entry.2.connection = owner.connection
    · rw [hsame, update_self]
      exact hserves
    · rw [update_of_ne hsame]
      exact h.served entry hentry
  refine ⟨?_, List.forall_mem_append.mpr ⟨fun entry hentry => ?_, ?_⟩⟩
  · change ((server.owners.filter (·.1 ≠ sessionID) ++ [(sessionID, owner)]).map (·.1)).Nodup
    rw [List.map_append, List.nodup_append']
    refine ⟨h.sessions.sublist (List.filter_sublist.map _), List.nodup_singleton _, ?_⟩
    intro key hkey hnew
    obtain ⟨entry, hentry, rfl⟩ := List.mem_map.mp hkey
    exact of_decide_eq_true (List.mem_filter.mp hentry).2 (List.mem_singleton.mp hnew)
  · exact hserved entry (List.mem_filter.mp hentry).1
  · refine List.forall_mem_singleton.mpr ?_
    change (update server.phase owner.connection phase owner.connection).Serves
    rwa [update_self]

theorem claimAttach (h : Owned server) (input : AttachSessionRequest) (projectID : String)
    (response : Bytes) :
    Owned (server.claimAttach wire connection input projectID response) := by
  unfold Server.claimAttach
  split
  · exact h.enter rfl rfl (.inl trivial)
  simp only
  split
  · exact h.claim _ _ (by trivial)
  split
  · exact h.claim _ _ (by trivial)
  split
  · exact h.claim _ _ (by trivial)
  · exact h.claim _ _ (by trivial)

theorem writeFrame (h : Owned server) {target : ℕ} {payload : Bytes} {half : Bool}
    {header done failed : Phase} (hheader : header.Serves) (hdone : done.Serves)
    (hfailed : failed.Serves) :
    Owned (server.writeFrame connection target payload half header done failed) := by
  unfold Server.writeFrame
  split_ifs
  · exact h.enter rfl rfl (.inl hfailed)
  · exact h.enter rfl rfl (.inl hdone)
  · exact h.enter rfl rfl (.inl hheader)
  · exact h.enter rfl rfl (.inl hfailed)

/-- **One step**: the goroutine that takes it goes on to serve, or has owned nothing, or gives up
what it owns. -/
theorem step (h : Owned server) (hstep : server.step wire label = some server') :
    Owned server' := by
  cases label with
  | accept connection | detach connection env | close connection =>
    simp only [Server.step] at hstep
    split at hstep
    · next hphase =>
      obtain rfl := Option.some.inj hstep
      exact h.enter rfl rfl (.inr (hphase ▸ id))
    · cases hstep
  | hello connection version =>
    simp only [Server.step] at hstep
    split at hstep
    · split at hstep <;> obtain rfl := Option.some.inj hstep <;>
        exact h.enter rfl rfl (.inl trivial)
    · cases hstep
  | request connection request =>
    simp only [Server.step] at hstep
    split at hstep
    · obtain rfl := Option.some.inj hstep
      exact h.enter rfl rfl (.inl (by split <;> trivial))
    · cases hstep
  | handle connection env =>
    simp only [Server.step] at hstep
    split at hstep
    · obtain rfl := Option.some.inj hstep
      refine h.enter rfl rfl (.inl ?_)
      unfold answered
      split
      · trivial
      · dsimp only
        split <;> trivial
    · cases hstep
  | claim connection =>
    simp only [Server.step] at hstep
    split at hstep
    · obtain rfl := Option.some.inj hstep
      exact h.claimAttach _ _ _
    · cases hstep
  | write connection =>
    simp only [Server.step] at hstep
    split at hstep
    · obtain rfl := Option.some.inj hstep
      exact h.writeFrame trivial trivial trivial
    · obtain rfl := Option.some.inj hstep
      exact h.writeFrame trivial (by split <;> trivial) trivial
    · cases hstep
  | evict connection | leave connection =>
    simp only [Server.step] at hstep
    split at hstep <;> cases hstep <;> exact h.enter rfl rfl (.inl trivial)
  | release connection order =>
    simp only [Server.step] at hstep
    split at hstep
    · obtain ⟨-, rfl⟩ := of_ite_some hstep
      -- what is left is owned by others, whose phases stay
      refine ⟨h.sessions.sublist (List.filter_sublist.map _), fun entry hentry => ?_⟩
      obtain ⟨hmem, hother⟩ := List.mem_filter.mp hentry
      change (update server.phase connection _ entry.2.connection).Serves
      rw [update_of_ne (of_decide_eq_true hother)]
      exact h.served entry hmem
    · cases hstep
  | drop connection =>
    obtain rfl := Option.some.inj hstep
    exact ⟨h.sessions, h.served⟩

end Owned

/-- **A session is never owned by a connection that has gone.** Whatever connections claim, lose and
give up, in whatever order their goroutines take their steps, every session has one owner at most,
and an owner has been greeted and has not begun to clean up. -/
theorem owners_served (operations : σ)
    (hreach : Reaches (step wire) Always { operations } server) :
    (server.owners.map (·.1)).Nodup ∧
      ∀ entry ∈ server.owners, (server.phase entry.2.connection).Serves := by
  have howned : Owned server :=
    hreach.invariant (fun _ _ _ h _ hstep => h.step hstep) ⟨List.nodup_nil, nofun⟩
  exact ⟨howned.sessions, howned.served⟩

/-- The second client owns the session that it has taken. -/
theorem owners_served_steal : ∃ server : Server Unit,
    (server.owner "session-1").map (·.connection) = some 1 ∧
      (server.owners.map (·.1)).Nodup := by
  have hsteal : (replay (Server.step plainWire) Always { operations := () } steal).any fun server =>
      (server.owner "session-1").map (·.connection) = some 1 := by
    decide +kernel
  obtain ⟨server, hrun, howner⟩ := exists_run_of_replay hsteal
  exact ⟨server, howner, (owners_served () ⟨_, hrun⟩).1⟩

end Server

end AgentCockpit.Mux
