import AgentCockpit.Mux.Operations.LifecycleSteps

/-!
# Requests act on behalf of projects

The requests on single panes, and all requests together: a request whose ids name sessions
in scope is a sequence of updates on behalf of the projects in scope, and its answer is
about them.

## Main results

* `leads_handleMethod` — **every handler acts within the scope of its request**
-/

namespace AgentCockpit.Mux

open AgentCockpit.Core

variable {scope : String → Prop} {env : Env} {o o' : Operations} {session : ManagedSession}

/-! ### Recording a registered pane -/

/-- A binding that was there is no new one. -/
theorem CatalogWrite.absorb {extra : String → String → Prop} (h : CatalogWrite scope extra o o')
    (hextra : ∀ w l, extra w l → Bound o w l) : CatalogWrite scope (fun _ _ => False) o o' :=
  { h with bound := fun w l hl => .inl ((h.bound w l hl).elim id (hextra w l)) }

/-- A pane that is registered, up to what is not its identity. -/
def Registered (o : Operations) (session : ManagedSession) : Prop :=
  ∃ other ∈ o.sessions, SameIdentity other session

theorem Registered.of_mem (h : session ∈ o.sessions) : Registered o session :=
  ⟨session, h, .refl session⟩

theorem SameIdentity.symm {session session' : ManagedSession} (h : SameIdentity session session') :
    SameIdentity session' session :=
  ⟨h.id.symm, h.paneID.symm, h.projectID.symm, h.logicalSessionID.symm, h.windowID.symm⟩

theorem SameIdentity.trans {first second third : ManagedSession} (h : SameIdentity first second)
    (h' : SameIdentity second third) : SameIdentity first third :=
  ⟨h'.id.trans h.id, h'.paneID.trans h.paneID, h'.projectID.trans h.projectID,
    h'.logicalSessionID.trans h.logicalSessionID, h'.windowID.trans h.windowID⟩

/-- Changing sessions in place keeps who is registered. -/
theorem Registered.modifySession (h : Registered o session) (sessionID : String)
    {change : ManagedSession → ManagedSession}
    (hchange : ∀ session, SameIdentity session (change session)) :
    Registered { o with sessions := updateSession o.sessions sessionID change } session := by
  obtain ⟨other, hother, hsame⟩ := h
  refine ⟨_, List.mem_map_of_mem hother, ?_⟩
  split
  · exact (hchange other).symm.trans hsame
  · exact hsame

theorem Registered.inScope_id (h : Registered o session) (hconsistent : Consistent o)
    (hscope : scope session.projectID) : InScope scope o (·.id = session.id) := by
  obtain ⟨other, hother, hsame⟩ := h
  rw [hsame.id]
  exact .of_id hconsistent hother (hsame.projectID ▸ hscope)

/-- **Recording a registered pane** binds nothing new. -/
theorem leads_recordRegistered (h : Consistent o) (hregistered : Registered o session)
    (hscope : scope session.projectID) :
    Leads (CatalogWrite scope fun _ _ => False) (persistTopology env session) o
      fun _ _ => True := by
  obtain ⟨other, hother, hsame⟩ := hregistered
  have hbound : Bound o session.windowID session.logicalSessionID := by
    rw [hsame.windowID, hsame.logicalSessionID]
    exact Consistent.bound hother
  have hplaced : Placed o session.windowID session.logicalSessionID := by
    rw [hsame.windowID, hsame.logicalSessionID]
    exact h.placed hother
  have hlogical : InScope scope o (logicalSessionID · = session.logicalSessionID) := by
    rw [hsame.logicalSessionID]
    exact .of_logical h hother (hsame.projectID ▸ hscope) (h.logicalSessionID_eq hother)
  have hne : session.logicalSessionID ≠ "" :=
    hsame.logicalSessionID ▸ h.logicalSessionID_ne hother
  have hpersist : Leads _ (persistTopology env session) o _ :=
    leads_persistTopology h hne hlogical hplaced
  refine ⟨hpersist.1.absorb ?_, fun _ _ => trivial⟩
  rintro w l ⟨rfl, rfl⟩
  exact hbound

/-- A change of a registered pane, then its record. -/
theorem leads_changeRecorded (h : Consistent o) (hregistered : Registered o session)
    (hscope : scope session.projectID) (change : ManagedSession → ManagedSession)
    (hchange : ∀ session, SameIdentity session (change session)) :
    Leads (Updates scope) (do
      modifySession session.id change
      persistTopology env (change session)) o fun _ t => Registered t session := by
  have hupdate : Updates scope o
      { o with sessions := updateSession o.sessions session.id change } :=
    .single (update_modifySession change (hregistered.inScope_id h hscope) hchange)
  have hregistered := hregistered.modifySession session.id hchange
  have hchanged : Registered { o with sessions := updateSession o.sessions session.id change }
      (change session) := by
    obtain ⟨other, hother, hsame⟩ := hregistered
    exact ⟨other, hother, hsame.trans (hchange session)⟩
  refine .modify_bind hupdate ?_
  refine ((leads_recordRegistered (h.updates hupdate) hchanged
    ((hchange session).projectID ▸ hscope)).relate.weaken fun _ _ => CatalogWrite.updates).mono
      fun _ t ht => ?_
  rw [Registered, ht.1.sessions]
  exact hregistered

/-! ### Requests on a pane -/

section Panes

theorem requireClient_bind {α : Type} {R : Operations → Operations → Prop} [Std.Refl R]
    {goal : α → Operations → Prop} {clientID : String} {f : Unit → OpsM α}
    (h : Leads R (f ()) o goal) : Leads R (requireClient session clientID >>= f) o goal :=
  .require_bind fun _ => h

variable (h : Consistent o)
include h

theorem leads_write (input : WritePaneRequest)
    (hscope : ∀ session ∈ o.sessions, session.paneID = input.paneID → scope session.projectID) :
    Leads (Updates scope) (write env input) o fun _ _ => True := by
  refine requireMutable_bind (requirePane_bind fun session hmem hpane => requireClient_bind
    (.require_bind fun _ => ?_))
  have hproject := hscope session hmem hpane
  refine (leads_callPane (.of_paneID h hmem hproject)).bind fun written t ht hsessions => ?_
  have hbroadcast : Leads (Updates scope) (broadcastInput env session input) t
      fun _ _ => True := by
    refine .get_bind ?_
    split
    · refine .forM fun peer hpeer u hu => ?_
      -- a peer is in the same logical session, hence in the same project
      rw [broadcastPeers, List.mem_filter, (env.walk_perm _ _).mem_iff, hsessions,
        decide_eq_true_eq] at hpeer
      have hscope : scope peer.projectID :=
        h.project peer hpeer.1 session hmem hpeer.2.2.2.1 ▸ hproject
      have hpeerPane := (InScope.of_paneID h hpeer.1 hscope).updates (byIdentity_paneID _)
        (ht.trans hu)
      exact (leads_callPane hpeerPane).bind fun _ _ _ _ => .of_pure trivial
    · exact .of_pure trivial
  exact hbroadcast.bind fun _ _ _ _ => .of_pure trivial

theorem leads_output (input : ReadPaneOutputRequest)
    (hscope : ∀ session ∈ o.sessions, session.paneID = input.paneID → scope session.projectID) :
    Leads (Updates scope) (output env input) o fun _ _ => True := by
  refine requirePane_bind fun session hmem hpane => requireClient_bind ?_
  have hread : Leads (Updates scope) (readOutputs env session input.fromSequence) o
      fun _ _ => True := by
    unfold readOutputs
    split
    · exact (leads_callPane (.of_paneID h hmem (hscope session hmem hpane))).mono
        fun _ _ _ => trivial
    · exact .of_pure trivial
  exact hread.bind fun _ _ _ _ => .of_pure trivial

theorem leads_scrollback (input : ScrollbackQueryRequest)
    (hscope : ∀ session ∈ o.sessions, session.paneID = input.paneID → scope session.projectID) :
    Leads (Updates scope) (scrollback env input) o fun _ _ => True := by
  refine .require_bind fun _ => requirePane_bind fun session hmem hpane => requireClient_bind ?_
  unfold readScrollback
  split
  · exact (leads_callPane (.of_paneID h hmem (hscope session hmem hpane))).mono
      fun _ _ _ => trivial
  · exact .of_pure trivial

theorem leads_resize (input : ResizePaneRequest)
    (hscope : ∀ session ∈ o.sessions, session.paneID = input.paneID → scope session.projectID) :
    Leads (Updates scope) (resize env input) o fun _ _ => True := by
  refine .require_bind fun _ => requireMutable_bind (requirePane_bind fun session hmem hpane =>
    requireClient_bind (.require_bind fun _ => ?_))
  have hproject := hscope session hmem hpane
  refine (leads_callPane (.of_paneID h hmem hproject)).bind fun _ t ht hsessions => ?_
  exact (leads_changeRecorded (h.updates ht) (.of_mem (hsessions ▸ hmem)) hproject
    (setGeometry input.cols input.rows) fun _ => ⟨rfl, rfl, rfl, rfl, rfl⟩).mono
      fun _ _ _ => trivial

end Panes

/-! ### Requests on a session -/

theorem sameIdentity_setOwner (clientID clientKind : String) (session : ManagedSession) :
    SameIdentity session (setOwner clientID clientKind session) := by
  unfold setOwner
  split <;> exact ⟨rfl, rfl, rfl, rfl, rfl⟩

section Sessions

variable {sessionID : String}

theorem leads_seedPane {input : AttachSessionRequest}
    (hscope : InScope scope o (·.paneID = session.paneID)) :
    Leads (Updates scope) (seedPane env session input) o fun _ t => t.sessions = o.sessions := by
  unfold seedPane
  split
  · exact (leads_callPane hscope).bind fun _ _ _ ht => .of_pure ht
  · split
    · exact .of_throw
    · exact (leads_callPane hscope).bind fun _ _ _ ht => .of_pure ht

/-- The pane an attach answers with is registered in a project in scope. -/
theorem leads_attach (h : Consistent o) (input : AttachSessionRequest)
    (hscope : ∀ session ∈ o.sessions, session.id = input.sessionID → scope session.projectID) :
    Leads (Updates scope) (attach env input) o fun response t =>
      ∃ session, Registered t session ∧ scope session.projectID ∧
        response.sessionID = session.id ∧ response.paneID = session.paneID := by
  refine .require_bind fun _ => requireMutable_bind ?_
  have hreadable : Leads (Updates scope) requireReadable o fun _ t => t = o := by
    refine .get_bind ?_
    split
    · exact .of_throw
    · exact .of_pure rfl
  refine hreadable.bind fun _ t _ ht => ?_
  subst ht
  refine requireSession_bind fun session hmem hid => ?_
  have hproject := hscope session hmem hid
  have howner := update_modifySession (setOwner input.clientID input.clientKind)
    (.of_id h hmem hproject) (sameIdentity_setOwner _ _)
  have hregistered := (Registered.of_mem hmem).modifySession session.id
    (sameIdentity_setOwner input.clientID input.clientKind)
  refine .modify_bind (.single howner) ?_
  refine (leads_seedPane ((InScope.of_paneID h hmem hproject).update (byIdentity_paneID _)
    howner)).bind fun seed u hu hsessions => ?_
  rw [Registered, ← hsessions] at hregistered
  exact .block (leads_changeRecorded ((h.update howner).updates hu) hregistered hproject
    (setGeometry input.cols input.rows) fun _ => ⟨rfl, rfl, rfl, rfl, rfl⟩)
    fun _ v _ hv => .of_pure ⟨session, hv, hproject, rfl, rfl⟩

theorem leads_modifySession (h : Consistent o) (hmem : session ∈ o.sessions)
    (hscope : scope session.projectID) {change : ManagedSession → ManagedSession}
    (hchange : ∀ session, SameIdentity session (change session)) :
    Leads (Updates scope) (modifySession session.id change) o fun _ _ => True :=
  (Leads.of_modify (.single (update_modifySession change (.of_id h hmem hscope) hchange))).mono
    fun _ _ _ => trivial

theorem leads_detach (h : Consistent o) (input : DetachSessionRequest)
    (hscope : ∀ session ∈ o.sessions, session.id = input.sessionID → scope session.projectID) :
    Leads (Updates scope) (detach input) o fun _ _ => True :=
  requireMutable_bind (requireSession_bind fun session hmem hid => requireClient_bind
    (leads_modifySession h hmem (hscope session hmem hid) fun _ => ⟨rfl, rfl, rfl, rfl, rfl⟩))

theorem leads_setBroadcast (h : Consistent o) (input : SetPaneBroadcastRequest)
    (hscope : ∀ session ∈ o.sessions, session.paneID = input.paneID → scope session.projectID) :
    Leads (Updates scope) (setBroadcast input) o fun _ _ => True :=
  requireMutable_bind (requirePane_bind fun session hmem hpane => requireClient_bind
    (leads_modifySession h hmem (hscope session hmem hpane) fun _ => ⟨rfl, rfl, rfl, rfl, rfl⟩))

theorem leads_pin (h : Consistent o) (input : PinSessionRequest)
    (hscope : ∀ session ∈ o.sessions, session.id = input.sessionID → scope session.projectID) :
    Leads (Updates scope) (pin env input) o fun _ _ => True := by
  refine requireMutable_bind (requireSession_bind fun session hmem hid => ?_)
  have hids := InScope.of_id h hmem (hscope session hmem hid)
  have hpin := update_modifySession (setPinned input.pinned) hids fun _ => ⟨rfl, rfl, rfl, rfl, rfl⟩
  refine .modify_bind (.single hpin) (.onError (leads_persistPin.weaken fun _ _ => Records.updates)
    fun t ht => ?_)
  have hback := update_modifySession (setPinned session.pinned)
    (hids.updates (byIdentity_id _) (.head hpin ht)) fun _ => ⟨rfl, rfl, rfl, rfl, rfl⟩
  exact (Leads.of_modify (.single hback)).mono fun _ _ _ => trivial

theorem leads_setBroadcastScope (h : Consistent o) (input : SetBroadcastScopeRequest)
    (hscope : ∀ root, logicalSession env o.sessions input.sessionID = some root →
      scope root.projectID) :
    Leads (Updates scope) (setBroadcastScope env input) o fun _ _ => True := by
  refine .require_bind fun _ => requireMutable_bind
    (requireLogicalSession_bind fun root hroot => ?_)
  have hmem := logicalSession_some hroot
  refine (Leads.of_modify (.single (.change _ fun session hsession => ?_))).mono fun _ _ _ =>
    trivial
  unfold setScope
  split
  · next hsame =>
    refine .inr ⟨?_, rfl, rfl, rfl, rfl, rfl⟩
    rw [h.project session hsession root hmem hsame]
    exact hscope root hroot
  · exact .inl rfl

end Sessions

/-! ### The common policy -/

theorem leads_applyPolicy (hscope : ∀ projectID, scope projectID) (policy : ConfigureMuxResponse)
    (session : ManagedSession) :
    Leads (Updates scope) (applyPolicy env policy session) o fun _ _ => True := by
  have hall : ∀ u : Operations, InScope scope u (·.paneID = session.paneID) :=
    fun _ other _ _ => hscope other.projectID
  unfold applyPolicy
  split
  · exact (leads_callPane (hall o)).bind fun _ t _ _ =>
      (leads_callPane (hall t)).mono fun _ _ _ => trivial
  · exact .of_pure trivial

theorem leads_eraseContent (h : Consistent o) (hscope : ∀ projectID, scope projectID) :
    Leads (Updates scope) (eraseContent env) o fun _ _ => True := by
  have hwrites : Leads (CatalogWrite scope fun _ _ => False) (eraseContent env) o
      fun _ _ => True := by
    refine leads_whenPersistent ?_
    refine .bind (leads_openHistory.weaken fun _ _ => Records.catalogWrite) fun _ t ht _ => ?_
    refine .bind (leads_recordHistory.weaken fun _ _ => Records.catalogWrite) fun _ t' ht' _ => ?_
    have hwrite := ht.trans ht'
    refine .bind (leads_openHistory.weaken fun _ _ => Records.catalogWrite) fun _ t ht _ => ?_
    have hwrite := hwrite.trans ht
    refine .bind (leads_openStore.weaken fun _ _ => Records.catalogWrite) fun _ t ht _ => ?_
    have hwrite := hwrite.trans ht
    refine .bind ((leads_record Store.shrinks_clearContent).weaken fun _ _ =>
      Records.catalogWrite) fun _ t ht _ => ?_
    have hwrite := hwrite.trans ht
    refine .bind (leads_openStore.weaken fun _ _ => Records.catalogWrite) fun _ t ht _ => ?_
    have hwrite := hwrite.trans ht
    refine .get_bind (.forM fun session hsession u hu => ?_)
    have hwrite := hwrite.trans hu
    rw [(env.walk_perm _ _).mem_iff, ← hu.sessions] at hsession
    exact leads_recordRegistered (h.updates hwrite.updates) (.of_mem hsession) (hscope _)
  exact hwrites.weaken fun _ _ => CatalogWrite.updates

theorem leads_configure (h : Consistent o) (hscope : ∀ projectID, scope projectID)
    (input : ConfigureMuxRequest) :
    Leads (Updates scope) (configure env input) o fun _ _ => True := by
  have herase : Leads (Updates scope) (eraseUnlessKept env (requestedPolicy input)) o
      fun _ _ => True := by
    unfold eraseUnlessKept
    split
    · exact .of_pure trivial
    · exact leads_eraseContent h hscope
  have hadopt : Leads (Updates scope) (adoptPolicy env (requestedPolicy input)) o
      fun _ _ => True := by
    refine .get_bind ?_
    split
    · exact .of_pure trivial
    · refine herase.bind fun _ t _ _ => .modify_bind (.single (.quiet ?_)) (.get_bind (.forM ?_))
      · exact ⟨rfl, rfl, rfl, rfl, rfl, rfl, rfl, [], (List.append_nil _).symm, nofun⟩
      · exact fun session _ _ _ => leads_applyPolicy hscope _ session
  exact requireMutable_bind (.require_bind fun _ => hadopt.bind fun _ _ _ _ => .of_pure trivial)

/-! ### All requests -/

/-- The sessions a request names by one of its ids. -/
def Request.Names (request : Request) (session : ManagedSession) : Prop :=
  session.id = request.operation.sessionID ∨
    logicalSessionID session = request.operation.sessionID ∨
    session.paneID = request.operation.paneID

/-- The requests that are about every project: the policy, and a listing without one. -/
def Request.Global (request : Request) : Prop :=
  (∃ input, request.operation = .muxConfigure input) ∨
    request.operation = .sessionList ∧ request.project = ""

/-- What an answer shows belongs to projects in scope. -/
def Response.About (scope : String → Prop) (env : Env) : Response → Operations → Prop
  | .sessions items, _ => ∀ item ∈ items, scope item.projectID
  | .topology response, o => Answer scope env response o
  | .attached response, o => ∃ session, Registered o session ∧ scope session.projectID ∧
      response.sessionID = session.id ∧ response.paneID = session.paneID
  | _, _ => True

theorem leads_responding {α : Type} {x : OpsM α} {response : α → Response}
    {post : α → Operations → Prop} (hx : Leads (Updates scope) x o post)
    (hpost : ∀ a t, post a t → (response a).About scope env t) :
    Leads (Updates scope) (responding response x) o (Response.About scope env) :=
  hx.bind fun a t _ ha => .of_pure (hpost a t ha)

theorem leads_list {projectID : String} (hscope : scope projectID)
    (hglobal : projectID = "" → ∀ other, scope other) :
    Leads (Updates scope) (list projectID) o fun items _ => ∀ item ∈ items,
      scope item.projectID := by
  refine .get_bind (.of_pure fun item hitem => ?_)
  rw [List.mem_insertionSort, List.mem_map] at hitem
  obtain ⟨session, hsession, rfl⟩ := hitem
  rw [List.mem_filter, decide_eq_true_eq] at hsession
  rcases hsession.2 with hempty | hsame
  · exact hglobal hempty _
  · exact (congrArg scope hsame).mpr hscope

theorem logicalSession_names {sessionID : String}
    (h : logicalSession env o.sessions sessionID = some session) :
    session.id = sessionID ∨ logicalSessionID session = sessionID := by
  unfold logicalSession at h
  split at h
  · next hfound => exact .inl (Option.some.inj h ▸ (of_findSession hfound).2)
  · exact .inr (by simpa using List.find?_some h)

theorem requireDestroySession_names {sessionID : String}
    (h : requireDestroySession o.sessions sessionID = some session) :
    session ∈ o.sessions ∧ (session.id = sessionID ∨ logicalSessionID session = sessionID) := by
  unfold requireDestroySession at h
  split at h
  · next hfound =>
    obtain rfl := Option.some.inj h
    exact ⟨(of_findSession hfound).1, .inl (of_findSession hfound).2⟩
  · split at h
    · next recovered hrecovered =>
      obtain rfl := Option.some.inj h
      have hmem := hrecovered ▸ List.mem_singleton_self recovered
      rw [List.mem_filter, decide_eq_true_eq] at hmem
      exact ⟨hmem.1, .inr hmem.2.2.2⟩
    · exact nomatch h

theorem Request.project_ne (request : Request) (h : request.operation ≠ .sessionList) :
    request.project ≠ "" := by
  unfold Request.project
  split
  · decide
  · next hnot => exact fun hempty => hnot ⟨hempty, h⟩

/-- Every handler acts within the scope of the sessions that it finds under the ids of its
request. -/
theorem leads_handleMethod_of_found (h : Consistent o) (request : Request)
    (hproject : request.operation.isUnscoped → scope request.project)
    (hglobal : request.Global → ∀ projectID, scope projectID)
    (hroot : ∀ root, logicalSession env o.sessions request.operation.sessionID = some root →
      scope root.projectID)
    (hsession : ∀ session ∈ o.sessions, session.id = request.operation.sessionID →
      scope session.projectID)
    (hdestroy : ∀ session, requireDestroySession o.sessions request.operation.sessionID =
      some session → scope session.projectID)
    (hpane : ∀ session ∈ o.sessions, session.paneID = request.operation.paneID →
      scope session.projectID) :
    Leads (Updates scope) (handleMethod env request) o (Response.About scope env) := by
  have hne := request.project_ne
  obtain ⟨operation, projectID, sessionText, paneText⟩ := request
  unfold handleMethod
  cases operation with
  | sessionCreate input =>
    exact leads_responding (leads_create h input (hne nofun) (hproject rfl)) fun _ _ _ => trivial
  | paneWrite input => exact leads_responding (leads_write h input hpane) fun _ _ _ => trivial
  | paneResize input => exact leads_responding (leads_resize h input hpane) fun _ _ _ => trivial
  | paneOutput input => exact leads_responding (leads_output h input hpane) fun _ _ _ => trivial
  | paneBroadcast input =>
    exact leads_responding (leads_setBroadcast h input hpane) fun _ _ _ => trivial
  | scrollbackQuery input =>
    exact leads_responding (leads_scrollback h input hpane) fun _ _ _ => trivial
  | muxConfigure input =>
    exact leads_responding (leads_configure h (hglobal (.inl ⟨input, rfl⟩)) input)
      fun _ _ _ => trivial
  | muxShutdown =>
    exact leads_responding (.get_bind Leads.of_require) fun _ _ _ => trivial
  | sessionAttach input => exact leads_responding (leads_attach h input hsession) fun _ _ => id
  | sessionDetach input =>
    exact leads_responding (leads_detach h input hsession) fun _ _ _ => trivial
  | sessionDestroy input =>
    exact leads_responding (leads_destroy h input hdestroy) fun _ _ _ => trivial
  | sessionList =>
    exact leads_responding (leads_list (hproject rfl) fun hempty => hglobal (.inr ⟨rfl, hempty⟩))
      fun _ _ => id
  | sessionTopology => exact leads_responding (leads_topologyLocked h (hproject rfl)) fun _ _ => id
  | sessionPin input => exact leads_responding (leads_pin h input hsession) fun _ _ _ => trivial
  | sessionBroadcastScope input =>
    exact leads_responding (leads_setBroadcastScope h input hroot) fun _ _ _ => trivial
  | windowSelect input => exact leads_responding (leads_selectWindow h input hroot) fun _ _ => id
  | paneSelect input => exact leads_responding (leads_selectPane h input hroot) fun _ _ => id
  | paneZoom input => exact leads_responding (leads_zoomPane h input hroot) fun _ _ => id
  | paneSplit input => exact leads_responding (leads_split h input hpane) fun _ _ _ => trivial
  | paneResizeSplit input =>
    exact leads_responding (leads_resizeSplit h input hroot) fun _ _ => id
  | windowNew input => exact leads_responding (leads_newWindow h input hroot) fun _ _ _ => trivial
  | windowDestroy input =>
    exact leads_responding (leads_destroyWindow h input hroot) fun _ _ => id
  | unknown method => exact .of_throw

/-- **Every handler acts within the scope of its request**: it is a sequence of updates on
behalf of the projects in scope, and its answer is about them. -/
theorem leads_handleMethod (h : Consistent o) (request : Request)
    (hproject : request.operation.isUnscoped → scope request.project)
    (hglobal : request.Global → ∀ projectID, scope projectID)
    (hnames : InScope scope o request.Names) :
    Leads (Updates scope) (handleMethod env request) o (Response.About scope env) := by
  refine leads_handleMethod_of_found h request hproject hglobal (fun root hroot => ?_)
    (fun session hmem hid => hnames session hmem (.inl hid)) (fun session hfound => ?_)
    fun session hmem hpane => hnames session hmem (.inr (.inr hpane))
  · exact hnames root (logicalSession_some hroot) ((logicalSession_names hroot).imp_right .inl)
  · obtain ⟨hmem, hnamed⟩ := requireDestroySession_names hfound
    exact hnames session hmem (hnamed.imp_right .inl)

/-! ### Runs -/

/-- The panes a step is about are in scope. -/
def Event.Within (scope : String → Prop) (o : Operations) : Event → Prop
  | .handle _ request => (request.operation.isUnscoped → scope request.project) ∧
      (request.Global → ∀ projectID, scope projectID) ∧ InScope scope o request.Names
  | .paneExit _ sessionID _ => InScope scope o (·.id = sessionID)
  | .attachmentWrite _ _ _ => True

/-- Every step is a sequence of updates on behalf of the projects it is about. -/
theorem Consistent.updates_after (h : Consistent o) {event : Event}
    (hwithin : event.Within scope o) :
    Updates scope o (o.after event) := by
  cases event with
  | handle env request =>
    exact (leads_handleMethod h request hwithin.1 hwithin.2.1 hwithin.2.2).1
  | paneExit env sessionID diagnostic => exact
    (leads_watchPaneExit h sessionID diagnostic hwithin).1
  | attachmentWrite env paneID write =>
    have hwrite : Leads Records (backgroundWrite env paneID write) o fun _ _ => True :=
      requirePane_bind fun _ _ _ => .require_bind fun _ => leads_attachmentWrites _
    exact hwrite.1.updates

theorem Event.within_univ (o : Operations) (event : Event) : event.Within (fun _ => True) o := by
  cases event with
  | handle env request => exact ⟨fun _ => trivial, fun _ _ => trivial, .univ o _⟩
  | paneExit env sessionID diagnostic => exact .univ o _
  | attachmentWrite env paneID write => trivial

/-- **Every step keeps the daemon consistent.** -/
theorem Consistent.after (h : Consistent o) (event : Event) : Consistent (o.after event) :=
  h.updates (h.updates_after (event.within_univ o))

/-- **Every run keeps the daemon consistent.** -/
theorem Consistent.of_reaches {admits : Operations → Event → Prop} (h : Consistent o)
    (hrun : Reaches Operations.step admits o o') : Consistent o' :=
  hrun.invariant (fun _ event _ hinv _ hstep => Option.some.inj hstep ▸ hinv.after event) h

end AgentCockpit.Mux
