import AgentCockpit.Mux.Operations.Creation
import AgentCockpit.Mux.Operations.Startup

/-!
# Broadcast input

Input that is written to a pane with broadcast on is repeated on the panes it shares its input
with: those of the same project, logical session and broadcast group, and of the same window
when the scope is the window. The scope is kept with each pane and belongs to the logical
session, so all panes of a session must carry the same one. They do as long as no split and no
new window of a session with another scope loses the record of the selection: such a pane stays
registered with the scope it was made with.

## Main results

* `Aligned.fansOut` — **input reaches exactly the panes it should**
-/

namespace AgentCockpit.Mux

open AgentCockpit.Core

variable {env : Env} {o o' : Operations} {logicalID context : String}

/-! ### The panes a write reaches -/

/-- Input to a pane is repeated: broadcast is on, no terminal owns the pane, and the input is
neither a reply nor of an unknown kind. -/
structure Interactive (source : ManagedSession) (kind : String) : Prop where
  broadcast : source.broadcast
  owner : source.clientKind ≠ "tty"
  kind : kind = "" ∨ kind = "input"

/-- Another pane that repeats the input of a pane. -/
structure SharesInput (source peer : ManagedSession) : Prop where
  other : peer.paneID ≠ source.paneID
  live : peer.pane.isSome
  broadcast : peer.broadcast
  project : peer.projectID = source.projectID
  logical : peer.logicalSessionID = source.logicalSessionID
  group : peer.broadcastGroup = source.broadcastGroup
  window : source.broadcastScope = "window" → peer.windowID = source.windowID

/-- The panes that take some input, each once. -/
structure Recipients (o : Operations) (input : WritePaneRequest) (source : ManagedSession)
    (panes : List String) : Prop where
  nodup : panes.Nodup
  mem : ∀ paneID, paneID ∈ panes ↔ paneID = source.paneID ∨
    Interactive source input.kind ∧
      ∃ peer ∈ o.sessions, peer.paneID = paneID ∧ SharesInput source peer

/-- Every write that succeeds reaches exactly the panes it should. -/
def Operations.FansOut (o : Operations) : Prop :=
  ∀ env input count o', exec (write env input) o = (.ok count, o') →
    ∃ source ∈ o.sessions, source.paneID = input.paneID ∧
      ∃ panes, Recipients o input source panes ∧
        o'.paneCalls = o.paneCalls ++ panes.map fun paneID => ⟨paneID, .write input.data⟩

/-- A call to a pane is recorded, whether or not it fails; the panes stay. -/
theorem callPane_final {α : Type} {paneID : String} {action : PaneAction}
    {outcome : Except String α} :
    (exec (callPane env paneID action outcome context) o).2.paneCalls =
        o.paneCalls ++ [⟨paneID, action⟩] ∧
      (exec (callPane env paneID action outcome context) o).2.sessions = o.sessions := by
  have hwrites : ∀ t, Leads Records (do
      attachmentWrites env paneID (env.writes paneID action)
      orRaise outcome fun err => .failed (context ++ err)) t fun _ _ => True :=
    fun _ => (leads_attachmentWrites _).bind fun _ _ _ _ => Leads.of_orRaise.mono
      fun _ _ _ => trivial
  have hrecords := (hwrites { o with paneCalls := o.paneCalls ++ [⟨paneID, action⟩] }).1
  exact ⟨hrecords.paneCalls, hrecords.sessions⟩

/-- Input that reached all its peers reached each of them once. -/
theorem paneCalls_broadcastWrites {data : Bytes} {peers : List ManagedSession} {a : Unit}
    (h : exec (peers.forM (broadcastWrite env data)) o = (.ok a, o')) :
    o'.paneCalls = o.paneCalls ++
      (peers.map (·.paneID)).map fun paneID => ⟨paneID, .write data⟩ := by
  induction peers generalizing o with
  | nil =>
    obtain ⟨-, rfl⟩ := Prod.mk.inj h
    exact (List.append_nil _).symm
  | cons peer rest ih =>
    obtain ⟨_, t, hfirst, hrest⟩ := exec_bind_ok (f := fun _ =>
      rest.forM (broadcastWrite env data)) h
    obtain ⟨_, u, hcall, hdone⟩ := exec_bind_ok hfirst
    obtain ⟨-, rfl⟩ := Prod.mk.inj hdone
    have hcalls : u.paneCalls = o.paneCalls ++ [⟨peer.paneID, .write data⟩] := by
      rw [show u = _ from (congrArg Prod.snd hcall).symm]
      exact callPane_final.1
    rw [ih hrest, hcalls, List.map_cons, List.map_cons, List.append_assoc]
    rfl

/-- The peers of a pane, by what they share with it. -/
theorem mem_broadcastPeers {sessions : List ManagedSession} {source peer : ManagedSession} :
    peer ∈ broadcastPeers env sessions source ↔ peer ∈ sessions ∧ peer.id ≠ source.id ∧
      peer.broadcastGroup = source.broadcastGroup ∧
      peer.logicalSessionID = source.logicalSessionID ∧ peer.broadcast ∧ peer.pane.isSome ∧
      (source.broadcastScope = "window" → peer.windowID = source.windowID) := by
  rw [broadcastPeers, List.mem_filter, (env.walk_perm .broadcast sessions).mem_iff,
    decide_eq_true_eq]

/-- The panes of a logical session carry one scope, and its ids are in order. -/
structure Aligned (o : Operations) : Prop where
  numbered : Numbered o.roster o.nextSession
  scope : Agree (·.broadcastScope) o.roster

section Roster

variable {session other : ManagedSession}

theorem mem_roster (h : session ∈ o.sessions) : session.badge ∈ o.roster :=
  List.mem_map_of_mem h

theorem Numbered.eq_of_paneID (h : Numbered o.roster o.nextSession) (hmem : session ∈ o.sessions)
    (hother : other ∈ o.sessions) (hsame : session.paneID = other.paneID) : session = other := by
  have hpanes := h.panes
  rw [Operations.roster, List.map_map] at hpanes
  exact List.inj_on_of_nodup_map hpanes hmem hother hsame

theorem Numbered.eq_of_id (h : Numbered o.roster o.nextSession) (hmem : session ∈ o.sessions)
    (hother : other ∈ o.sessions) (hsame : session.id = other.id) : session = other := by
  have hids := h.ids
  rw [Operations.roster, List.map_map] at hids
  exact List.inj_on_of_nodup_map hids hmem hother hsame

/-- The peers of a pane are the panes that share its input. -/
theorem Numbered.mem_peers_iff (h : Numbered o.roster o.nextSession)
    {source : ManagedSession} (hsource : source ∈ o.sessions) (peer : ManagedSession) :
    peer ∈ broadcastPeers env o.sessions source ↔
      peer ∈ o.sessions ∧ SharesInput source peer := by
  rw [mem_broadcastPeers]
  constructor
  · rintro ⟨hpeer, hother, hgroup, hlogical, hon, hlive, hwindow⟩
    refine ⟨hpeer, fun hsame => hother ?_, hlive, hon, ?_, hlogical, hgroup, hwindow⟩
    · rw [h.eq_of_paneID hpeer hsource hsame]
    · exact h.project _ (mem_roster hpeer) _ (mem_roster hsource) hlogical
  · rintro ⟨hpeer, hshares⟩
    refine ⟨hpeer, fun hsame => hshares.other ?_, hshares.group, hshares.logical,
      hshares.broadcast, hshares.live, hshares.window⟩
    rw [h.eq_of_id hpeer hsource hsame]

end Roster

/-- **Input reaches exactly the panes it should.** -/
theorem Numbered.fansOut (h : Numbered o.roster o.nextSession) : o.FansOut := by
  intro env input count o' hwrite
  obtain ⟨source, hfound, hwrite⟩ :=
    exec_requirePane_bind_ok (exec_requireMutable_bind_ok hwrite)
  obtain ⟨hsource, hpane⟩ := of_findPane hfound
  obtain ⟨-, hwrite⟩ := exec_require_bind_ok hwrite
  obtain ⟨-, hwrite⟩ := exec_require_bind_ok hwrite
  obtain ⟨_, t, hcall, hrest⟩ := exec_bind_ok hwrite
  obtain ⟨_, u, hpeers, hdone⟩ := exec_bind_ok hrest
  obtain ⟨-, rfl⟩ := Prod.mk.inj hdone
  have hcalls : t.paneCalls = o.paneCalls ++ [⟨source.paneID, .write input.data⟩] ∧
      t.sessions = o.sessions := by
    rw [show t = _ from (congrArg Prod.snd hcall).symm]
    exact callPane_final
  refine ⟨source, hsource, hpane, ?_⟩
  rw [broadcastInput, exec_get_bind, hcalls.2] at hpeers
  by_cases hinteractive : broadcasts source input.kind
  · rw [if_pos hinteractive] at hpeers
    have hshares : ∀ peer, peer ∈ broadcastPeers env o.sessions source ↔
        peer ∈ o.sessions ∧ SharesInput source peer := h.mem_peers_iff hsource
    refine ⟨source.paneID :: (broadcastPeers env o.sessions source).map (·.paneID), ⟨?_, ?_⟩, ?_⟩
    · refine List.nodup_cons.mpr ⟨fun hmem => ?_, ?_⟩
      · obtain ⟨peer, hpeer, hsame⟩ := List.mem_map.mp hmem
        exact ((hshares peer).mp hpeer).2.other hsame
      · have hnodup : (o.sessions.map (·.paneID)).Nodup := by
          have hpanes := h.panes
          rwa [Operations.roster, List.map_map] at hpanes
        refine ((env.walk_perm .broadcast o.sessions).map _).nodup_iff.mpr hnodup |>.sublist ?_
        exact List.filter_sublist.map _
    · intro paneID
      rw [List.mem_cons, List.mem_map]
      have hinput : Interactive source input.kind :=
        ⟨hinteractive.1, hinteractive.2.1, hinteractive.2.2⟩
      simp only [hshares, hinput, true_and, and_assoc, and_comm (a := SharesInput source _)]
    · rw [paneCalls_broadcastWrites hpeers, hcalls.1, List.append_assoc]
      rfl
  · rw [if_neg hinteractive] at hpeers
    obtain ⟨-, rfl⟩ := Prod.mk.inj hpeers
    refine ⟨[source.paneID], ⟨List.nodup_singleton _, fun paneID => ?_⟩, hcalls.1⟩
    rw [List.mem_singleton]
    refine (or_iff_left fun hinput => hinteractive ?_).symm
    exact ⟨hinput.1.broadcast, hinput.1.owner, hinput.1.kind⟩

/-! ### New panes -/

section Entry

variable {input : CreateSessionRequest} {windowID : String} {session : ManagedSession}

/-- A pane with the next ids is entered behind the others. -/
theorem Numbered.register_eq (h : Numbered o.roster o.nextSession)
    (hid : session.id = sessionName (o.nextSession + 1)) :
    register o.sessions session = o.sessions ++ [session] := by
  have hnew : ∀ other ∈ o.sessions, other.id ≠ session.id := by
    intro other hother
    rw [hid]
    exact (h.fresh _ (Nat.lt_succ_self _) _ (mem_roster hother)).1
  rw [register, List.filter_eq_self.mpr fun other hother => decide_eq_true (hnew other hother)]

/-- The panes after one was entered. -/
theorem Entered.after (h : Entered o input logicalID session o')
    (hnumbered : Numbered o.roster o.nextSession) {t : Operations} (hmemory : SameMemory o' t) :
    t.sessions = o.sessions ++ [session] ∧ t.nextSession = o.nextSession + 1 := by
  refine ⟨?_, (hmemory.read fun _ => rfl).trans h.nextSession⟩
  rw [hmemory.sessions, h.sessions, hnumbered.register_eq h.named.id]

/-- What a request may ask of a new pane: a logical session of its own, or one of the project. -/
def Sourced (o : Operations) (input : CreateSessionRequest) (logicalID : String) : Prop :=
  logicalID = "" ∨ ∃ source ∈ o.sessions, source.logicalSessionID = logicalID ∧
    source.projectID = input.projectID

theorem Entered.numbered (h : Entered o input logicalID session o')
    (hnumbered : Numbered o.roster o.nextSession) (hsourced : Sourced o input logicalID)
    (scope : String) :
    Numbered (o.roster ++ [session.badge.withScope scope]) (o.nextSession + 1) := by
  refine hnumbered.append h.named.id h.named.paneID ?_
  change session.logicalSessionID = _ ∨ ∃ other ∈ o.roster,
    other.logicalSessionID = session.logicalSessionID ∧ other.projectID = session.projectID
  rw [h.named.logicalSessionID, h.named.projectID]
  by_cases hempty : logicalID = ""
  · exact .inl (if_pos hempty)
  · obtain ⟨source, hsource, hlogical, hproject⟩ := hsourced.resolve_left hempty
    rw [if_neg hempty]
    exact .inr ⟨source.badge, mem_roster hsource, hlogical, hproject⟩

/-- A pane begins a logical session, or carries the scope of the one it joins. -/
theorem Entered.aligned (h : Entered o input logicalID session o') (haligned : Aligned o)
    (hsourced : Sourced o input logicalID) (scope : String)
    (hscope : logicalID ≠ "" → ∀ other ∈ o.sessions, other.logicalSessionID = logicalID →
      other.broadcastScope = scope) {t : Operations}
    (hroster : t.roster = o.roster ++ [session.badge.withScope scope])
    (hnext : t.nextSession = o.nextSession + 1) : Aligned t := by
  refine ⟨?_, ?_⟩
  · rw [hroster, hnext]
    exact h.numbered haligned.numbered hsourced scope
  rw [hroster]
  refine haligned.scope.append fun other hother hsame => ?_
  change other.logicalSessionID = session.logicalSessionID at hsame
  rw [h.named.logicalSessionID] at hsame
  by_cases hempty : logicalID = ""
  · rw [if_pos hempty] at hsame
    exact absurd hsame (haligned.numbered.fresh _ (Nat.lt_succ_self _) other hother).2.2
  · rw [if_neg hempty] at hsame
    obtain ⟨peer, hpeer, rfl⟩ := List.mem_map.mp hother
    exact hscope hempty peer hpeer hsame

end Entry

namespace Aligned

theorem of_sheds (haligned : Aligned o) (h : Sheds o o') : Aligned o' :=
  ⟨haligned.numbered.sublist h.roster h.nextSession, haligned.scope.sublist h.roster⟩

theorem of_leads {α : Type} {x : OpsM α} {post : α → Operations → Prop} (haligned : Aligned o)
    (h : Leads Sheds x o post) : Aligned (exec x o).2 :=
  haligned.of_sheds h.1

end Aligned

/-- Where the panes of a creation come from: a pane of its own, or one made from a registered
pane, in its logical session and project. -/
theorem creation_origin {request : Request} {creation : Creation}
    (h : o.creation env request = some creation) :
    creation.origin = none ∧ creation.logicalID = "" ∨
      ∃ origin, creation.origin = some origin ∧ origin.source ∈ o.sessions ∧
        origin.source.logicalSessionID = creation.logicalID ∧
        origin.source.projectID = creation.input.projectID := by
  rw [Operations.creation] at h
  split at h
  · split_ifs at h
    obtain rfl := Option.some.inj h
    exact .inl ⟨rfl, rfl⟩
  · split_ifs at h
    obtain ⟨source, hfound, rfl⟩ := Option.map_eq_some_iff.mp h
    exact .inr ⟨_, rfl, (of_findPane hfound).1, rfl, rfl⟩
  · split_ifs at h
    obtain ⟨source, hfound, rfl⟩ := Option.map_eq_some_iff.mp h
    exact .inr ⟨_, rfl, logicalSession_some hfound, rfl, rfl⟩
  · exact nomatch h

/-- The selection of a pane that is entered is recorded. -/
def Creation.RecordsSelection (creation : Creation) (env : Env) (o : Operations) : Prop :=
  ∀ session t, exec (enterPane env creation.input creation.logicalID creation.windowID) o =
    (.ok session, t) → o.persistencePath ≠ "" → env.Serves t.storeCalls 2

/-- A request does not lose the record of the selection of a pane that it makes in a logical
session with another scope than the window. -/
def Operations.KeepsScope (o : Operations) (env : Env) (request : Request) : Prop :=
  ∀ creation origin, o.creation env request = some creation → creation.origin = some origin →
    creation.logicalID ≠ "" → origin.source.broadcastScope ≠ "window" →
      creation.RecordsSelection env o

section Placing

variable {creation : Creation} {request : Request}

/-- The panes after a new one took the scope and the pin of another. -/
theorem roster_inherit {created source : ManagedSession}
    (hnumbered : Numbered o.roster o.nextSession)
    (hid : created.id = sessionName (o.nextSession + 1)) :
    (updateSession (o.sessions ++ [created]) created.id (inheritFrom source)).map (·.badge) =
      o.roster ++ [created.badge.withScope source.broadcastScope] := by
  have hothers : ∀ other ∈ o.sessions, (if other.id = created.id then inheritFrom source other
      else other) = other := by
    intro other hother
    refine if_neg ?_
    rw [hid]
    exact (hnumbered.fresh _ (Nat.lt_succ_self _) _ (mem_roster hother)).1
  rw [updateSession, List.map_append, List.map_congr_left hothers, List.map_id', List.map_append,
    List.map_singleton, if_pos rfl]
  rfl

/-- Giving a new pane its place in the layout leaves the panes as they are. -/
theorem sheds_placed (env : Env) (origin : Origin) (created : ManagedSession) :
    Leads Sheds (do
      let state ← topologyState origin.source.logicalSessionID
      setTopologyState origin.source.logicalSessionID (origin.placed created state)
      persistTopologyInteraction env origin.source.logicalSessionID
      persistPin env (inheritFrom origin.source created)
      pure (⟨created.id, created.paneID⟩ : CreateSessionResponse)) o fun _ _ => True := by
  refine sheds_topologyState.bind fun _ _ _ _ => sheds_setTopologyState.bind fun _ _ _ _ => ?_
  refine sheds_persistTopologyInteraction.bind fun _ _ _ _ => ?_
  exact (sheds_of_records leads_persistPin).bind fun _ _ _ _ => .of_pure trivial

/-- A pane that was created takes the scope of the pane it was made from. -/
theorem aligned_place (haligned : Aligned o) (hcreation : o.creation env request = some creation)
    {created : ManagedSession} {u : Operations}
    (hentered : Entered o creation.input creation.logicalID created u) (hmemory : SameMemory u o') :
    Aligned (exec (creation.place env created) o').2 := by
  obtain ⟨hsessions, hnext⟩ := hentered.after haligned.numbered hmemory
  rcases creation_origin hcreation with
    ⟨hnone, hempty⟩ | ⟨origin, hsome, hsource, hlogical, hproject⟩
  · rw [Creation.place, hnone]
    refine hentered.aligned haligned (.inl hempty) created.broadcastScope
      (fun hne => absurd hempty hne) ?_ hnext
    change o'.sessions.map _ = _
    rw [hsessions, List.map_append]
    rfl
  have haligned' : Aligned { o' with
      sessions := updateSession o'.sessions created.id (inheritFrom origin.source) } := by
    refine hentered.aligned haligned (.inr ⟨origin.source, hsource, hlogical, hproject⟩)
      origin.source.broadcastScope (fun _ other hother hsame => ?_) ?_ hnext
    · exact haligned.scope _ (mem_roster hother) _ (mem_roster hsource)
        (hsame.trans hlogical.symm)
    · change (updateSession o'.sessions _ _).map _ = _
      rw [hsessions]
      exact roster_inherit haligned.numbered hentered.named.id
  rw [Creation.place, hsome]
  exact haligned'.of_leads (sheds_placed env origin created)

/-- A creation that keeps the record of its selection keeps the panes aligned. -/
theorem aligned_creation (haligned : Aligned o)
    (hcreation : o.creation env request = some creation) (hkeeps : o.KeepsScope env request) :
    Aligned (exec (createLocked env creation.input creation.logicalID creation.windowID >>=
      creation.place env) o).2 := by
  refine Ends.final (ends_createLocked.mono (fun _ _ => id) ?_ |>.bind fun created t ht => ?_)
  · rintro t (habandoned | ⟨session, u, hexec, hentered, hlost, hmemory⟩)
    · have hwithheld := habandoned.withheld
      refine haligned.of_sheds ⟨?_, hwithheld.nextSession⟩
      rw [Operations.roster, Operations.roster, hwithheld.sessions]
    · obtain ⟨hsessions, hnext⟩ := hentered.after haligned.numbered hmemory
      have hroster : t.roster = o.roster ++ [session.badge.withScope "window"] := by
        rw [Operations.roster, hsessions, List.map_append, ← hentered.named.broadcastScope]
        rfl
      rcases creation_origin hcreation with
        ⟨-, hempty⟩ | ⟨origin, hsome, hsource, hlogical, hproject⟩
      · exact hentered.aligned haligned (.inl hempty) _ (fun hne => absurd hempty hne) hroster hnext
      · refine hentered.aligned haligned (.inr ⟨origin.source, hsource, hlogical, hproject⟩) _
          (fun hne other hother hsame => ?_) hroster hnext
        -- the pane it was made from carries the scope of the session, which is the window
        have hscope : origin.source.broadcastScope = "window" := by
          by_contra hscope
          exact hlost (hkeeps creation origin hcreation hsome hne hscope session u hexec)
        rw [← hscope]
        exact haligned.scope _ (mem_roster hother) _ (mem_roster hsource)
          (hsame.trans hlogical.symm)
  · obtain ⟨u, hentered, hmemory⟩ := ht
    exact .of_final (aligned_place haligned hcreation hentered hmemory)


end Placing

/-! ### A new scope -/

/-- A new scope is set for all panes of a logical session. -/
theorem aligned_setScope (haligned : Aligned o) (scope : String) :
    Aligned { o with sessions := o.sessions.map (setScope logicalID scope) } := by
  let change (badge : Badge) : Badge :=
    if badge.logicalSessionID = logicalID then badge.withScope scope else badge
  have hroster : (o.sessions.map (setScope logicalID scope)).map (·.badge) =
      o.roster.map change := by
    rw [Operations.roster, List.map_map, List.map_map]
    refine List.map_congr_left fun session _ => ?_
    change (setScope logicalID scope session).badge = change session.badge
    by_cases hlogical : session.logicalSessionID = logicalID
    · rw [setScope, if_pos hlogical, show change session.badge = _ from if_pos hlogical]
      rfl
    · rw [setScope, if_neg hlogical, show change session.badge = _ from if_neg hlogical]
  have hlogical : ∀ badge, (change badge).logicalSessionID = badge.logicalSessionID := by
    intro badge
    change (if _ then _ else _ : Badge).logicalSessionID = _
    split <;> rfl
  refine ⟨?_, ?_⟩
  · change Numbered ((o.sessions.map _).map _) _
    rw [hroster]
    refine haligned.numbered.map fun badge => ?_
    change (if _ then _ else _ : Badge).withScope "" = _
    split <;> rfl
  · change Agree _ ((o.sessions.map _).map _)
    rw [hroster]
    intro first hfirst second hsecond hsame
    obtain ⟨old, hold, rfl⟩ := List.mem_map.mp hfirst
    obtain ⟨old', hold', rfl⟩ := List.mem_map.mp hsecond
    rw [hlogical, hlogical] at hsame
    by_cases hin : old.logicalSessionID = logicalID
    · rw [show change old = _ from if_pos hin, show change old' = _ from if_pos (hsame ▸ hin)]
      rfl
    · rw [show change old = _ from if_neg hin, show change old' = _ from if_neg (hsame ▸ hin)]
      exact haligned.scope old hold old' hold' hsame

theorem aligned_setBroadcastScope (haligned : Aligned o) (input : SetBroadcastScopeRequest) :
    Aligned (exec (setBroadcastScope env input) o).2 := by
  refine Ends.final (.require_bind (fun _ => haligned) fun _ => ends_requireMutable haligned
    fun _ => ends_requireLogicalSession haligned fun root _ => ?_)
  refine Ends.of_modify.mono (fun _ t ht => ?_) fun _ => id
  rw [ht]
  exact aligned_setScope haligned input.scope

/-! ### Runs -/

theorem exec_responding {α : Type} {response : α → Response} {x : OpsM α} :
    (exec (responding response x) o).2 = (exec x o).2 := by
  rw [responding, exec_bind]
  rcases exec x o with ⟨_ | _, t⟩ <;> rfl

/-- The requests that neither create a pane nor set a scope only drop panes. -/
theorem sheds_handleMethod {request : Request} (hcreates : ¬ request.operation.Creates)
    (hscope : ∀ input, request.operation ≠ .sessionBroadcastScope input) :
    Leads Sheds (handleMethod env request) o fun _ _ => True := by
  have hresponding : ∀ {α : Type} {response : α → Response} {x : OpsM α},
      Leads Sheds x o (fun _ _ => True) → Leads Sheds (responding response x) o fun _ _ => True :=
    fun hx => hx.bind fun _ _ _ _ => .of_pure trivial
  obtain ⟨operation, projectID, sessionText, paneText⟩ := request
  cases operation
  case sessionCreate input => exact absurd trivial hcreates
  case paneSplit input => exact absurd trivial hcreates
  case windowNew input => exact absurd trivial hcreates
  case sessionBroadcastScope input => exact absurd rfl (hscope input)
  case paneWrite input => exact hresponding (sheds_write input)
  case paneResize input => exact hresponding (sheds_resize input)
  case paneOutput input => exact hresponding (sheds_output input)
  case paneBroadcast input => exact hresponding (sheds_setBroadcast input)
  case scrollbackQuery input => exact hresponding (sheds_scrollback input)
  case muxConfigure input => exact hresponding (sheds_configure input)
  case sessionAttach input => exact hresponding (sheds_attach input)
  case sessionDetach input => exact hresponding (sheds_detach input)
  case sessionDestroy input => exact hresponding (sheds_destroy input)
  case sessionPin input => exact hresponding (sheds_pin input)
  case windowSelect input => exact hresponding (sheds_selectWindow input)
  case paneSelect input => exact hresponding (sheds_selectPane input)
  case paneZoom input => exact hresponding (sheds_zoomPane input)
  case paneResizeSplit input => exact hresponding (sheds_resizeSplit input)
  case windowDestroy input => exact hresponding (sheds_destroyWindow input)
  case sessionTopology => exact hresponding sheds_topologyLocked
  case sessionList => exact hresponding (.get_bind (.of_pure trivial))
  case muxShutdown =>
    exact hresponding (.get_bind (Leads.of_require.mono fun _ _ _ => trivial))
  case unknown method => exact .of_throw

/-- The steps that lose no record of the selection of a new pane. -/
def SparesScope (o : Operations) : Event → Prop
  | .handle env request => o.KeepsScope env request
  | .paneExit .. | .attachmentWrite .. => True

/-- **One step** that loses no such record keeps the panes aligned. -/
theorem Aligned.after (h : Aligned o) {event : Event} (hspares : SparesScope o event) :
    Aligned (o.after event) := by
  cases event with
  | paneExit env sessionID diagnostic => exact h.of_leads (sheds_watchPaneExit sessionID diagnostic)
  | attachmentWrite env paneID write => exact h.of_leads (sheds_backgroundWrite paneID write)
  | handle env request =>
    have hcreates : request.operation.Creates →
        Aligned (exec (handleMethod env request) o).2 := by
      intro hcreates
      obtain ⟨x, hhandle, hperforms⟩ : ∃ x, handleMethod env request = responding .created x ∧
          Performs env o x (o.creation env request) := performs_creation hcreates
      rw [hhandle, exec_responding]
      cases hcreation : o.creation env request with
      | none =>
        rw [hcreation] at hperforms
        obtain ⟨err, hexec⟩ := hperforms
        rw [hexec]
        exact h
      | some creation =>
        rw [hcreation] at hperforms
        rw [show exec x o = _ from hperforms]
        exact aligned_creation h hcreation hspares
    change Aligned (exec (handleMethod env request) o).2
    by_cases hcreating : request.operation.Creates
    · exact hcreates hcreating
    by_cases hscope : ∃ input, request.operation = .sessionBroadcastScope input
    · obtain ⟨input, hoperation⟩ := hscope
      rw [handleMethod, hoperation, exec_responding]
      exact aligned_setBroadcastScope h input
    · exact h.of_leads (sheds_handleMethod hcreating fun input heq => hscope ⟨input, heq⟩)

theorem Operations.Launched.aligned (h : o.Launched) : Aligned o := by
  refine ⟨h.numbered, fun badge hbadge other hother _ => ?_⟩
  exact (h.broadcastScope_eq hbadge).trans (h.broadcastScope_eq hother).symm

/-- **Broadcast input is exact** in every run that loses no record of the selection of a pane made
in a logical session with another scope than the window: every write that succeeds reaches the
addressed pane and the panes that share its input, each once and no other, and the panes of a
logical session carry one scope. -/
theorem broadcast_exact {start : Operations} (hstart : start.Launched)
    (hreach : Reaches Operations.step SparesScope start o) :
    o.FansOut ∧ Agree (·.broadcastScope) o.roster := by
  have haligned : Aligned o := by
    refine hreach.invariant (fun t event u ht hspares hstep => ?_) hstart.aligned
    obtain rfl := Option.some.inj hstep
    exact ht.after hspares
  exact ⟨haligned.numbered.fansOut, haligned.scope⟩

/-- The catalog fails when the selection of the second pane is recorded. -/
def Env.selectionFails : Env :=
  { Env.calm with fault := fun n => if n = 25 then some "disk I/O error" else none }

def createShell : Event :=
  .handle .calm { operation := .sessionCreate { command := "sh" } }

def shareInSession : Event :=
  .handle .calm { operation := .sessionBroadcastScope ⟨"session-1", "session"⟩ }

def splitShell (env : Env) : Event :=
  .handle env { operation := .paneSplit { paneID := "pane-1", command := "sh" } }

/-- A session with the scope of all its windows, and a second pane made from its first. -/
def sharedPanes (env : Env) : Operations :=
  (((Operations.fresh "state.db" "epoch" true 10000).after createShell).after
    shareInSession).after (splitShell env)

theorem run_sharedPanes {admits : Operations → Event → Prop} (env : Env)
    (hcalm : ∀ o request, admits o (.handle .calm request))
    (hsplit : ∀ o, admits o (splitShell env)) :
    Reaches Operations.step admits (.fresh "state.db" "epoch" true 10000) (sharedPanes env) :=
  ⟨[createShell, shareInSession, splitShell env],
    .cons (hcalm _ _) rfl (.cons (hcalm _ _) rfl (.single (hsplit _) rfl))⟩

theorem sparesScope_calm (o : Operations) (request : Request) :
    SparesScope o (.handle .calm request) :=
  fun _ _ _ _ _ _ _ _ _ _ _ _ => rfl

theorem broadcast_exact_sharedPanes : (sharedPanes .calm).FansOut ∧
    Agree (·.broadcastScope) (sharedPanes .calm).roster :=
  broadcast_exact (.fresh rfl)
    (run_sharedPanes .calm sparesScope_calm fun o => sparesScope_calm o _)

/-- Where that record is lost, the second pane carries the scope of its window. -/
theorem not_broadcast_exact : ¬ ∀ o,
    Reaches Operations.step Always (.fresh "state.db" "epoch" true 10000) o →
      o.FansOut ∧ Agree (·.broadcastScope) o.roster := by
  intro hclaim
  have hreach := @run_sharedPanes Always .selectionFails (fun _ _ => trivial) fun _ => trivial
  have hroster : (sharedPanes .selectionFails).roster =
      [⟨"session-1", "pane-1", "session-1", "standalone", "session"⟩,
        ⟨"session-2", "pane-2", "session-1", "standalone", "window"⟩] := by
    decide +kernel
  have hagree := (hclaim _ hreach).2
  rw [hroster] at hagree
  have hscope : "session" = "window" := hagree _ List.mem_cons_self _
    (List.mem_cons_of_mem _ List.mem_cons_self) rfl
  exact absurd hscope (by decide)

end AgentCockpit.Mux
