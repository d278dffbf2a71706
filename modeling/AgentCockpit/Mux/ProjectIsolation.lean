import AgentCockpit.Mux.TopologyInvariant

/-!
# Projects do not disturb each other

A daemon serves all projects of a home. The ids of a request are checked against its project before
it is handled. A run of requests that pass this check in the state in which they are handled, with
ids that are encoded as text, leaves the other projects as they were and shows nothing of them.
-/

namespace AgentCockpit.Mux

open AgentCockpit.Core

variable {env : Env} {o o' o'' : Operations} {scope : String → Prop} {projectID other : String}

/-- The sessions of a project, their interaction state and the selection are as they were, and no
call went to one of its panes. -/
structure LeavesProject (projectID : String) (o o' : Operations) : Prop where
  sessions : ∀ session : ManagedSession, session.projectID = projectID →
    (session ∈ o'.sessions ↔ session ∈ o.sessions)
  topologyState : ∀ session ∈ o.sessions, session.projectID = projectID →
    o'.topologyState (logicalSessionID session) = o.topologyState (logicalSessionID session)
  selected : o'.activeLogicalByProject.lookup projectID = o.activeLogicalByProject.lookup projectID
  paneCalls : ∃ calls, o'.paneCalls = o.paneCalls ++ calls ∧ ∀ call ∈ calls,
    ∀ session ∈ o.sessions, session.projectID = projectID → session.paneID ≠ call.paneID

namespace LeavesProject

theorem refl (projectID : String) (o : Operations) : LeavesProject projectID o o :=
  ⟨fun _ _ => .rfl, fun _ _ _ => rfl, rfl, [], (List.append_nil _).symm, nofun⟩

theorem trans (h : LeavesProject projectID o o') (h' : LeavesProject projectID o' o'') :
    LeavesProject projectID o o'' := by
  obtain ⟨calls, hcalls, hspared⟩ := h.paneCalls
  obtain ⟨calls', hcalls', hspared'⟩ := h'.paneCalls
  refine ⟨fun session hsame => (h'.sessions session hsame).trans (h.sessions session hsame),
    fun session hmem hsame => ?_, h'.selected.trans h.selected, calls ++ calls', ?_, ?_⟩
  · exact (h'.topologyState session ((h.sessions session hsame).mpr hmem) hsame).trans
      (h.topologyState session hmem hsame)
  · rw [hcalls', hcalls, List.append_assoc]
  · refine List.forall_mem_append.mpr ⟨hspared, fun call hcall session hmem hsame => ?_⟩
    exact hspared' call hcall session ((h.sessions session hsame).mpr hmem) hsame

/-- What the two states have in common apart from the sessions. -/
theorem of_sessions (hsessions : ∀ session : ManagedSession, session.projectID = projectID →
      (session ∈ o'.sessions ↔ session ∈ o.sessions))
    (htopology : o'.topologyState = o.topologyState)
    (hselected : o'.activeLogicalByProject = o.activeLogicalByProject)
    (hcalls : o'.paneCalls = o.paneCalls) : LeavesProject projectID o o' :=
  ⟨hsessions, fun session _ _ => congrFun htopology _, by rw [hselected], [],
    hcalls.trans (List.append_nil _).symm, nofun⟩

/-- **One update** on behalf of other projects. -/
theorem of_update (hscope : ¬ scope projectID) (h : Update scope o o') :
    LeavesProject projectID o o' := by
  -- a session in scope is not one of the project
  have hapart : ∀ session : ManagedSession, session.projectID = projectID →
      ¬ scope session.projectID := fun session hsame => hsame ▸ hscope
  cases h with
  | quiet hquiet =>
    obtain ⟨calls, hcalls, hcalled⟩ := hquiet.paneCalls
    refine ⟨fun session _ => by rw [hquiet.sessions],
      fun session _ _ => congrFun hquiet.topologyState _, by rw [hquiet.activeLogicalByProject],
      calls, hcalls, fun call hcall session hmem hsame hpane => ?_⟩
    exact hapart session hsame (hcalled call hcall session hmem hpane)
  | allocate sessions windows => exact .of_sessions (fun _ _ => .rfl) rfl rfl rfl
  | register created hin hadmissible =>
    refine .of_sessions (fun session hsame => ?_) rfl rfl rfl
    rw [mem_register]
    constructor
    · rintro (⟨hmem, -⟩ | rfl)
      · exact hmem
      · exact absurd hin (hapart session hsame)
    · exact fun hmem => .inl ⟨hmem, hadmissible.fresh session hmem⟩
  | unregister sessionID hin =>
    refine .of_sessions (fun session hsame => ?_) rfl rfl rfl
    rw [mem_unregister]
    exact and_iff_left_of_imp fun hmem hid => hapart session hsame (hin session hmem hid)
  | change f hf =>
    refine .of_sessions (fun session hsame => ?_) rfl rfl rfl
    constructor
    · intro hmem
      obtain ⟨old, hold, rfl⟩ := List.mem_map.mp hmem
      rcases hf old hold with hkept | ⟨hin, hidentity⟩
      · exact hkept.symm ▸ hold
      · exact absurd (hidentity.projectID.symm ▸ hin) (hapart _ hsame)
    · intro hmem
      refine List.mem_map.mpr ⟨session, hmem, ?_⟩
      exact (hf session hmem).resolve_right fun hin => hapart session hsame hin.1
  | topology logicalID state hin _ =>
    refine ⟨fun _ _ => .rfl, fun session hmem hsame => ?_, rfl, [], (List.append_nil _).symm, nofun⟩
    exact if_neg fun hlogical => hapart session hsame (hin session hmem hlogical)
  | select session active hactive =>
    exact ⟨fun _ _ => .rfl, fun _ _ _ => rfl, hactive projectID hscope, [],
      (List.append_nil _).symm, nofun⟩
  | place store windowID logicalID _ _ => exact .of_sessions (fun _ _ => .rfl) rfl rfl rfl
  | shrink store _ => exact .of_sessions (fun _ _ => .rfl) rfl rfl rfl

theorem of_updates (hscope : ¬ scope projectID) (h : Updates scope o o') :
    LeavesProject projectID o o' := by
  induction h with
  | refl => exact .refl projectID o
  | tail _ hupdate ih => exact ih.trans (.of_update hscope hupdate)

end LeavesProject

/-- A step of one project: the check of the request succeeds in the state in which it is handled,
its ids are text, and it is not about all projects. -/
def Event.OnBehalf (projectID : String) (o : Operations) : Event → Prop
  | .handle env request => request.project = projectID ∧ ¬ request.Global ∧
      request.sessionText = true ∧ request.paneText = true ∧
      (exec (authorizeProject env request) o).1 = .ok ()
  | .paneExit _ sessionID _ => InScope (· = projectID) o (·.id = sessionID)
  | .attachmentWrite .. => True

/-- What the check of a request tells of its ids. -/
theorem authorizeProject_ok_iff {request : Request} :
    (exec (authorizeProject env request) o).1 = .ok () ↔
      (request.operation.isUnscoped = false →
        (checked request.sessionText request.operation.sessionID →
          inProject (logicalSession env o.sessions request.operation.sessionID) request.project) ∧
        (checked request.paneText request.operation.paneID →
          inProject (findPane o.sessions request.operation.paneID) request.project)) := by
  rw [authorizeProject, exec_get_bind, exec_require]
  split
  · next hchecked => exact iff_of_true rfl hchecked
  · next hrefused => exact iff_of_false nofun hrefused

/-- The check looks at a session of the project of the one that is named, unless it finds another
one under the id. -/
theorem exists_logicalSession (h : Consistent o) {session : ManagedSession} {sessionID : String}
    (hmem : session ∈ o.sessions) (hnamed : session.id = sessionID ∨
      findSession o.sessions sessionID = none ∧ logicalSessionID session = sessionID) :
    ∃ root, logicalSession env o.sessions sessionID = some root ∧
      root.projectID = session.projectID := by
  unfold logicalSession
  cases hfind : findSession o.sessions sessionID with
  | some root =>
    obtain ⟨hroot, hid⟩ := of_findSession hfind
    refine ⟨root, rfl, ?_⟩
    rcases hnamed with hsame | ⟨hnone, -⟩
    · rw [h.eq_of_id hroot hmem (hid.trans hsame.symm)]
    · exact nomatch hfind.symm.trans hnone
  | none =>
    have hlogical : logicalSessionID session = sessionID := by
      refine (hnamed.resolve_left fun hid => ?_).2
      exact List.find?_eq_none.mp hfind session hmem (decide_eq_true hid)
    have hwalk (session : ManagedSession) :
        session ∈ env.walk .logicalSession o.sessions ↔ session ∈ o.sessions :=
      (env.walk_perm .logicalSession o.sessions).mem_iff
    obtain ⟨root, hroot⟩ : ∃ root, (env.walk .logicalSession o.sessions).find?
        (logicalSessionID · = sessionID) = some root :=
      Option.isSome_iff_exists.mp
        (List.find?_isSome.mpr ⟨session, (hwalk session).mpr hmem, decide_eq_true hlogical⟩)
    have hmem' := (hwalk root).mp (List.mem_of_find?_eq_some hroot)
    have hlogical' : logicalSessionID root = sessionID := by simpa using List.find?_some hroot
    exact ⟨root, hroot, h.project_of_logical hmem' hmem (hlogical'.trans hlogical.symm)⟩

/-- **A checked request acts on behalf of its project**, and its answer is about it. -/
theorem leads_of_onBehalf (h : Consistent o) {request : Request}
    (hbehalf : (Event.handle env request).OnBehalf projectID o) :
    Leads (Updates (· = projectID)) (handleMethod env request) o
      (Response.About (· = projectID) env) := by
  obtain ⟨hproject, hlocal, hsessionText, hpaneText, hchecked⟩ := hbehalf
  -- the check has looked at what is named, because no session has an empty id
  have hscoped (session : ManagedSession) (hmem : session ∈ o.sessions)
      (hnames : request.Names session) : request.operation.isUnscoped = false :=
    Bool.eq_false_iff.mpr fun hunscoped => Request.names_of_unscoped h hunscoped hmem hnames
  have hroot (root : ManagedSession)
      (hfound : logicalSession env o.sessions request.operation.sessionID = some root) :
      root.projectID = projectID := by
    have hmem := logicalSession_some hfound
    have hnamed := logicalSession_names hfound
    have hne : request.operation.sessionID ≠ "" := by
      rcases hnamed with hid | hlogical
      · obtain ⟨n, -, hn, -⟩ := h.numbered root hmem
        exact hid ▸ hn ▸ sessionName_ne_empty n
      · exact hlogical ▸ h.logicalSessionID_eq hmem ▸ h.logicalSessionID_ne hmem
    have hin := (authorizeProject_ok_iff.mp hchecked
      (hscoped root hmem (hnamed.imp_right .inl))).1 ⟨hsessionText, hne⟩
    exact (hin root hfound).trans hproject
  have hsession (session : ManagedSession) (hmem : session ∈ o.sessions)
      (hnamed : session.id = request.operation.sessionID ∨
        findSession o.sessions request.operation.sessionID = none ∧
          logicalSessionID session = request.operation.sessionID) :
      session.projectID = projectID := by
    obtain ⟨root, hfound, hsame⟩ := @exists_logicalSession env _ h _ _ hmem hnamed
    exact hsame.symm.trans (hroot root hfound)
  refine leads_handleMethod_of_found h request (fun _ => hproject)
    (fun hglobal => absurd hglobal hlocal) hroot
    (fun session hmem hid => hsession session hmem (.inl hid)) (fun session hdestroy => ?_)
    fun session hmem hpane => ?_
  · obtain ⟨hmem, hnamed⟩ := requireDestroySession_names hdestroy
    cases hfind : findSession o.sessions request.operation.sessionID with
    | none => exact hsession session hmem (hnamed.imp_right fun hlogical => ⟨hfind, hlogical⟩)
    | some root =>
      rw [requireDestroySession, hfind] at hdestroy
      obtain rfl := Option.some.inj hdestroy
      exact hsession root hmem (.inl (of_findSession hfind).2)
  · have hin := (authorizeProject_ok_iff.mp hchecked (hscoped session hmem (.inr (.inr hpane)))).2
      ⟨hpaneText, hpane ▸ h.paneID_ne hmem⟩
    obtain ⟨found, hfound⟩ : ∃ found, findPane o.sessions request.operation.paneID = some found :=
      Option.isSome_iff_exists.mp (List.find?_isSome.mpr ⟨session, hmem, decide_eq_true hpane⟩)
    obtain ⟨hmem', hpane'⟩ := of_findPane hfound
    rw [h.eq_of_paneID hmem hmem' (hpane.trans hpane'.symm)]
    exact (hin found hfound).trans hproject

/-- **One step** of another project. -/
theorem LeavesProject.after (h : Consistent o) {event : Event}
    (hbehalf : event.OnBehalf projectID o) (hne : other ≠ projectID) :
    LeavesProject other o (o.after event) := by
  refine @of_updates o _ (· = projectID) _ hne ?_
  cases event with
  | handle env request => exact (leads_of_onBehalf h hbehalf).1
  | paneExit env sessionID diagnostic => exact h.updates_after hbehalf
  | attachmentWrite env paneID write => exact h.updates_after trivial

def startBeta : Event :=
  .handle .calm { operation := .sessionCreate { command := "sh" }, projectID := "beta" }

def splitBeta : Event :=
  .handle .calm { operation := .paneSplit { paneID := "pane-2", command := "sh" },
                  projectID := "beta" }

end AgentCockpit.Mux
