import AgentCockpit.Mux.Operations.ClientSteps

/-!
# Topology responses are well formed

Whatever a daemon has been through, each snapshot it answers with describes the panes it
has registered: windows and panes are listed exactly once, what is active or zoomed is
there, and the split tree of a window has its panes as leaves. The environment is not
restricted: calls to processes and databases may fail at any point of any request.
-/

namespace AgentCockpit.Mux

open AgentCockpit.Core

variable {scope : String → Prop} {env : Env} {o o' : Operations}

/-- A pane is registered in a window of a logical session. -/
def InWindow (o : Operations) (logicalID windowID paneID : String) : Prop :=
  ∃ session ∈ o.sessions, logicalSessionID session = logicalID ∧ session.windowID = windowID ∧
    session.paneID = paneID

/-- A window of a snapshot describes the panes registered in it. -/
structure TopologyWindow.WellFormed (o : Operations) (logicalID : String)
    (window : TopologyWindow) : Prop where
  panes : ∀ paneID, paneID ∈ window.panes.map (·.paneID) ↔
    InWindow o logicalID window.windowID paneID
  active : InWindow o logicalID window.windowID window.activePaneID
  zoomed : window.zoomedPaneID = "" ∨ InWindow o logicalID window.windowID window.zoomedPaneID
  layout : window.layout.Proper
  layout_nodup : window.layout.leaves.Nodup
  mem_layout : ∀ paneID, paneID ∈ window.layout.leaves ↔
    InWindow o logicalID window.windowID paneID

/-- A logical session of a snapshot describes its windows. -/
structure TopologySession.WellFormed (o : Operations) (session : TopologySession) : Prop where
  order_nodup : session.windowOrder.Nodup
  mem_order : ∀ windowID, windowID ∈ session.windowOrder ↔
    ∃ paneID, InWindow o session.sessionID windowID paneID
  active : session.activeWindowID ∈ session.windowOrder
  windows : session.windows.map (·.windowID) = session.windowOrder
  window : ∀ window ∈ session.windows, window.WellFormed o session.sessionID

/-- A snapshot describes the sessions of a project. -/
structure TopologyResponse.WellFormed (o : Operations) (projectID : String)
    (response : TopologyResponse) : Prop where
  sessions : ∀ logicalID, logicalID ∈ response.sessions.map (·.sessionID) ↔
    ∃ session ∈ o.sessions, session.projectID = projectID ∧ logicalSessionID session = logicalID
  session : ∀ session ∈ response.sessions, session.WellFormed o
  active : (∃ session ∈ o.sessions, session.projectID = projectID) →
    ∃ session ∈ o.sessions, session.projectID = projectID ∧
      logicalSessionID session = response.activeSessionID

/-- The project a request is about: its own, or the one of a session it names. -/
def Request.Addresses (request : Request) (o : Operations) (projectID : String) : Prop :=
  if request.operation.isUnscoped then projectID = request.project
  else ∃ session ∈ o.sessions, request.Names session ∧ session.projectID = projectID

/-- The panes a normalized state knows are the registered ones. -/
theorem mem_windowPanes_iff_inWindow (h : Consistent o) {logicalID windowID paneID : String} :
    paneID ∈ windowPanes o.sessions logicalID windowID ↔ InWindow o logicalID windowID paneID := by
  rw [mem_windowPanes, InWindow]
  refine exists_congr fun session => and_congr_right fun hmem => ?_
  rw [h.windowKey_eq hmem]

theorem mem_windowKeys_iff_inWindow (h : Consistent o) {logicalID windowID : String} :
    windowID ∈ windowKeys o.sessions logicalID ↔ ∃ paneID,
      InWindow o logicalID windowID paneID := by
  rw [mem_windowKeys]
  constructor
  · rintro ⟨session, hmem, hlogical, hwindow⟩
    exact ⟨_, session, hmem, hlogical, (h.windowKey_eq hmem).symm.trans hwindow, rfl⟩
  · rintro ⟨_, session, hmem, hlogical, hwindow, -⟩
    exact ⟨session, hmem, hlogical, (h.windowKey_eq hmem).trans hwindow⟩

/-- A logical session of a project has all its panes in it. -/
theorem projectID_of_logical (h : Consistent o) {projectID logicalID : String}
    (hlogical : logicalID ∈ projectLogicalIDs o projectID) {session : ManagedSession}
    (hmem : session ∈ o.sessions) (hsame : logicalSessionID session = logicalID) :
    session.projectID = projectID := by
  obtain ⟨other, hother, hproject, hother'⟩ := mem_projectLogicalIDs.mp hlogical
  rw [h.project_of_logical hmem hother (hsame.trans hother'.symm), hproject]

variable {projectID logicalID : String}

theorem topologyWindow_wellFormed (h : Consistent o)
    (hlogical : logicalID ∈ projectLogicalIDs o projectID) {state : TopologyState}
    (hstate : state.Settled o.sessions logicalID) {windowID : String}
    (hwindow : windowID ∈ state.windowOrder) :
    (topologyWindow env (projectSessions o.sessions projectID) logicalID state
      windowID).WellFormed o logicalID := by
  obtain ⟨hproper, hnodup, hleaves⟩ := hstate.layout windowID hwindow
  refine ⟨fun paneID => ?_, ?_, ?_, hproper, hnodup, fun paneID => ?_⟩
  · simp only [topologyWindow, projectSessions, List.mem_map, List.mem_insertionSort,
      List.mem_filter, decide_eq_true_eq]
    constructor
    · rintro ⟨_, ⟨session, ⟨⟨hmem, -⟩, hsame, hkey⟩, rfl⟩, rfl⟩
      exact ⟨session, hmem, hsame, (h.windowKey_eq hmem).symm.trans hkey, rfl⟩
    · rintro ⟨session, hmem, hsame, hkey, rfl⟩
      exact ⟨_, ⟨session, ⟨⟨hmem, projectID_of_logical h hlogical hmem hsame⟩, hsame,
        (h.windowKey_eq hmem).trans hkey⟩, rfl⟩, rfl⟩
  · exact (mem_windowPanes_iff_inWindow h).mp (hstate.activePane windowID hwindow)
  · exact (hstate.zoomedPane windowID hwindow).imp_right (mem_windowPanes_iff_inWindow h).mp
  · exact (hleaves paneID).trans (mem_windowPanes_iff_inWindow h)

theorem topologySession_wellFormed (h : Consistent o)
    (hlogical : logicalID ∈ projectLogicalIDs o projectID) {state : TopologyState}
    (hstate : state.Settled o.sessions logicalID) :
    (topologySession env (projectSessions o.sessions projectID) state logicalID).WellFormed o := by
  have hmem_order : ∀ windowID, windowID ∈ state.windowOrder ↔
      ∃ paneID, InWindow o logicalID windowID paneID :=
    fun windowID => (hstate.mem_order windowID).trans (mem_windowKeys_iff_inWindow h)
  refine ⟨hstate.order_nodup, hmem_order, hstate.active ?_, ?_, fun window hwindow => ?_⟩
  · -- the session is listed because it has a pane, and the pane has a window
    obtain ⟨session, hmem, -, hsame⟩ := mem_projectLogicalIDs.mp hlogical
    exact List.ne_nil_of_mem ((hmem_order session.windowID).mpr
      ⟨session.paneID, session, hmem, hsame, rfl, rfl⟩)
  · rw [topologySession, List.map_map]
    exact List.map_id _
  · obtain ⟨windowID, hmem, rfl⟩ := List.mem_map.mp hwindow
    exact topologyWindow_wellFormed h hlogical hstate hmem

/-- A snapshot taken in a settled, consistent state is well formed. -/
theorem topologyResponse_wellFormed (h : Consistent o) (hsettled : SettledIn o projectID) :
    (topologyResponse env o projectID).WellFormed o projectID := by
  refine ⟨fun logicalID => ?_, fun session hsession => ?_, fun hexists => ?_⟩
  · rw [topologyResponse, List.map_map, ← mem_projectLogicalIDs]
    exact iff_of_eq (congrArg (logicalID ∈ ·) (List.map_id _))
  · obtain ⟨logicalID, hlogical, rfl⟩ := List.mem_map.mp hsession
    exact topologySession_wellFormed h hlogical (hsettled logicalID hlogical)
  · rw [← mem_projectLogicalIDs]
    simp only [topologyResponse]
    split
    · assumption
    · refine firstString_mem fun hnone => ?_
      obtain ⟨session, hmem, hproject⟩ := hexists
      have hlisted := mem_projectLogicalIDs.mpr ⟨session, hmem, hproject, rfl⟩
      exact List.not_mem_nil (hnone ▸ hlisted)

theorem Answer.wellFormed (h : Consistent o) {response : TopologyResponse}
    (hanswer : Answer scope env response o) :
    ∃ projectID, scope projectID ∧ response.WellFormed o projectID := by
  obtain ⟨projectID, hscope, hsettled, rfl⟩ := hanswer
  exact ⟨projectID, hscope, topologyResponse_wellFormed h hsettled⟩

/-- Nothing is addressed by an empty id. -/
theorem Request.names_of_unscoped (h : Consistent o) {request : Request}
    (hunscoped : request.operation.isUnscoped) {session : ManagedSession}
    (hmem : session ∈ o.sessions) : ¬ request.Names session := by
  have hid : session.id ≠ "" := by
    obtain ⟨n, -, hn, -⟩ := h.numbered session hmem
    exact hn ▸ sessionName_ne_empty n
  have hlogical : logicalSessionID session ≠ "" := by
    rw [h.logicalSessionID_eq hmem]
    exact h.logicalSessionID_ne hmem
  have hnone : request.operation.sessionID = "" ∧ request.operation.paneID = "" := by
    revert hunscoped
    cases request.operation <;> simp [Operation.isUnscoped, Operation.sessionID, Operation.paneID]
  rintro (hnamed | hnamed | hnamed)
  · exact hid (hnamed.trans hnone.1)
  · exact hlogical (hnamed.trans hnone.1)
  · exact h.paneID_ne hmem (hnamed.trans hnone.2)

/-- **Every topology response is well formed.** In every state a daemon can reach from its
start, by any requests, ends of processes and background writes, whichever calls fail, the
snapshot a request answers with describes the panes that are registered then, for the
project the request is about. -/
theorem topology_wellFormed (persistencePath topologyEpoch : String) (persistScrollback : Bool)
    (scrollbackLines : ℕ)
    (hreach : Reaches Operations.step Always
      (.fresh persistencePath topologyEpoch persistScrollback scrollbackLines) o)
    {request : Request} {response : TopologyResponse}
    (hexec : exec (handleMethod env request) o = (.ok (.topology response), o')) :
    ∃ projectID, request.Addresses o projectID ∧ response.WellFormed o' projectID := by
  have h : Consistent o := (Consistent.fresh _ _ _ _).of_reaches hreach
  have hleads : Leads (Updates (request.Addresses o)) (handleMethod env request) o
      (Response.About (request.Addresses o) env) := by
    refine leads_handleMethod h request (fun hunscoped => ?_) (fun hglobal => ?_)
      fun session hmem hnames => ?_
    · exact (if_pos hunscoped).mpr rfl
    · -- neither the policy nor a listing answers with a snapshot
      exfalso
      obtain ⟨operation, _, _, _⟩ := request
      rcases hglobal with ⟨input, rfl⟩ | ⟨rfl, -⟩
      · obtain ⟨_, _, _, hresponse⟩ := exec_bind_ok hexec
        exact nomatch congrArg Prod.fst hresponse
      · obtain ⟨_, _, _, hresponse⟩ := exec_bind_ok hexec
        exact nomatch congrArg Prod.fst hresponse
    · have hscoped : ¬ request.operation.isUnscoped :=
        fun hunscoped => Request.names_of_unscoped h hunscoped hmem hnames
      exact (if_neg hscoped).mpr ⟨session, hmem, hnames, rfl⟩
  have hanswer := hleads.2 _ (congrArg Prod.fst hexec)
  rw [hexec] at hanswer
  have hconsistent : Consistent o' := by
    have hupdates := hleads.1
    rw [hexec] at hupdates
    exact h.updates hupdates
  exact Answer.wellFormed hconsistent hanswer

/-- A daemon that has served one request, for a pane of the project alpha. -/
def onePane : Operations :=
  (Operations.fresh "state.db" "epoch" true 10000).after
    (.handle .calm { operation := .sessionCreate { command := "sh" }, projectID := "alpha" })

theorem topology_wellFormed_onePane :
    ∃ projectID, Request.Addresses { operation := .sessionTopology, projectID := "alpha" } onePane
      projectID ∧
      (topologyResponse .calm (onePane.reviseTopology "alpha") "alpha").WellFormed
        (onePane.reviseTopology "alpha") projectID :=
  topology_wellFormed "state.db" "epoch" true 10000 ⟨_, .single trivial rfl⟩ rfl

end AgentCockpit.Mux
