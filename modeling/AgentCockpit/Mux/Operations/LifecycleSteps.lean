import AgentCockpit.Mux.Operations.Steps

/-!
# Creation and destruction act on behalf of projects

The handlers that create and destroy panes, and the end of a process, as updates on behalf
of a project.
-/

namespace AgentCockpit.Mux

open AgentCockpit.Core

/-! ### Trees -/

namespace TopologyLayoutNode

variable {layout : TopologyLayoutNode} {paneID source created : String}

theorem ProperOrNil.ensureLayoutPane (h : layout.ProperOrNil) (hnodup : layout.leaves.Nodup)
    (hpane : paneID ≠ "") :
    (ensureLayoutPane layout paneID).ProperOrNil ∧
      (ensureLayoutPane layout paneID).leaves.Nodup := by
  unfold Mux.ensureLayoutPane
  split
  · exact ⟨h, hnodup⟩
  · next hnot =>
    obtain ⟨hproper, hleaves⟩ := h.appendLayoutPane hpane
    rw [h.layoutHasPane_iff hpane] at hnot
    refine ⟨hproper.orNil, ?_⟩
    rw [hleaves]
    exact hnodup.append (List.nodup_singleton _) (List.disjoint_singleton.mpr hnot)

/-- Splitting a pane of a tree without the created pane keeps the tree proper. -/
theorem ProperOrNil.splitLayoutPane (h : layout.ProperOrNil) (hnodup : layout.leaves.Nodup)
    (hsource : source ≠ "") (hcreated : created ≠ "") (hne : source ≠ created)
    (hfresh : created ∉ layout.leaves) (direction : String) (ratio : Float64) :
    (splitLayoutPane layout source created direction ratio).Proper ∧
      (splitLayoutPane layout source created direction ratio).leaves.Nodup := by
  rcases h with rfl | h
  · rw [Mux.splitLayoutPane, leaves_leaf hcreated]
    exact ⟨.leaf created hcreated, List.nodup_singleton _⟩
  · obtain ⟨hproper, hleaves⟩ := h.splitLayoutPane hsource hcreated direction ratio
    refine ⟨hproper, ?_⟩
    rw [hleaves, List.nodup_flatMap]
    constructor
    · intro id _
      split
      · simpa using hne
      · exact List.nodup_singleton _
    · refine hnodup.imp_of_mem fun {left right} hleft hright hdiff => ?_
      simp only [Function.onFun, List.disjoint_left]
      intro id hl hr
      have hin : ∀ other ∈ layout.leaves,
          id ∈ (if other = source then [source, created] else [other]) →
            id = other ∨ other = source ∧ id = created := by
        intro other _ hmem
        split at hmem <;> simp_all
      rcases hin left hleft hl with rfl | ⟨rfl, rfl⟩
      · rcases hin right hright hr with rfl | ⟨rfl, rfl⟩
        · exact hdiff rfl
        · exact hfresh hleft
      · rcases hin right hright hr with rfl | ⟨rfl, -⟩
        · exact hfresh hright
        · exact hdiff rfl

end TopologyLayoutNode

variable {scope : String → Prop} {env : Env} {o : Operations} {session : ManagedSession}
variable {logicalID windowID : String} {input : CreateSessionRequest}

/-! ### Creation -/

/-- A new pane asks for new ids, or joins the logical session of a registered pane. -/
structure Joins (o : Operations) (logicalID windowID projectID : String) : Prop where
  named : projectID ≠ ""
  source : logicalID = "" ∧ windowID = "" ∨
    ∃ source ∈ o.sessions, source.logicalSessionID = logicalID ∧ source.projectID = projectID ∧
      (windowID = "" ∨ source.windowID = windowID)

/-- The identity of a session created in a state. -/
structure Created (o : Operations) (input : CreateSessionRequest) (session : ManagedSession) :
    Prop where
  id : session.id = sessionName (o.nextSession + 1)
  paneID : session.paneID = paneName (o.nextSession + 1)
  projectID : session.projectID = input.projectID

theorem Consistent.id_ne (h : Consistent o) :
    ∀ other ∈ o.sessions, other.id ≠ sessionName (o.nextSession + 1) := by
  intro other hother hid
  obtain ⟨n, hle, hn, -⟩ := h.numbered other hother
  have := sessionName_injective (hn.symm.trans hid)
  omega

theorem Consistent.paneID_ne_next (h : Consistent o) :
    ∀ other ∈ o.sessions, other.paneID ≠ paneName (o.nextSession + 1) := by
  intro other hother hpane
  obtain ⟨n, hle, -, hn⟩ := h.numbered other hother
  have := paneName_injective (hn.symm.trans hpane)
  omega

theorem Created.inScope_id (h : Consistent o) (hcreated : Created o input session) :
    InScope scope o (·.id = session.id) :=
  fun other hother hid => absurd (hid.trans hcreated.id) (h.id_ne other hother)

theorem Created.inScope_paneID (h : Consistent o) (hcreated : Created o input session) :
    InScope scope o (·.paneID = session.paneID) :=
  fun other hother hpane => absurd (hpane.trans hcreated.paneID) (h.paneID_ne_next other hother)

/-- The logical session of a new pane is new, or the one it joins. -/
theorem admissible_of_joins (h : Consistent o) (hjoins : Joins o logicalID windowID input.projectID)
    {windows : ℕ} (hwindows : windows = if windowID = "" then 1 else 0)
    (hsession : Created o input session)
    (hlogical : session.logicalSessionID =
      if logicalID = "" then sessionName (o.nextSession + 1) else logicalID)
    (hwindow : session.windowID =
      if windowID = "" then windowName (o.nextWindow + windows) else windowID) :
    Admissible { o with
      nextSession := o.nextSession + 1, nextWindow := o.nextWindow + windows } session := by
  refine ⟨⟨_, le_rfl, hsession.id, hsession.paneID⟩, ?_, fun other hother =>
    hsession.id ▸ h.id_ne other hother,
    hsession.projectID ▸ hjoins.named, ?_, ?_⟩
  · rw [hlogical]
    split
    · exact ⟨_, le_rfl, rfl⟩
    · next hne =>
      obtain ⟨hnew, -⟩ | ⟨source, hsource, rfl, -⟩ := hjoins.source
      · exact absurd hnew hne
      · obtain ⟨n, hle, hn⟩ := h.logical source hsource
        exact ⟨n, Nat.le_succ_of_le hle, hn⟩
  · rw [hlogical, hsession.projectID]
    intro other hother
    split
    · intro hname
      obtain ⟨n, hle, hn⟩ := h.logical other hother
      -- the numbers go up, so the next one is not in use
      have := sessionName_injective (hn.symm.trans hname)
      omega
    · next hne =>
      obtain ⟨hnew, -⟩ | ⟨source, hsource, rfl, hproject, -⟩ := hjoins.source
      · exact absurd hnew hne
      · exact fun hsame => (h.project other hother source hsource hsame).trans hproject
  · by_cases hnew : windowID = ""
    · rw [if_pos hnew] at hwindow hwindows
      subst hwindows
      refine ⟨fun other hother => ?_, ⟨_, le_rfl, hwindow⟩⟩
      rw [hwindow] at hother
      obtain ⟨n, hle, hn⟩ := h.bound_numbered _ _ hother
      have := windowName_injective hn
      omega
    · rw [if_neg hnew] at hwindow hwindows
      subst hwindows
      obtain ⟨-, hempty⟩ | ⟨source, hsource, rfl, -, hold⟩ := hjoins.source
      · exact absurd hempty hnew
      · rw [if_neg (h.logicalSessionID_ne hsource)] at hlogical
        rw [hlogical, hwindow, ← hold.resolve_left hnew]
        have hplaced := h.placed hsource
        exact ⟨hplaced.unique, hplaced.numbered⟩

/-- **A new pane gets ids that may be entered.** -/
theorem leads_allocate (h : Consistent o) (hjoins : Joins o logicalID windowID input.projectID) :
    Leads (Updates scope) (allocate input logicalID windowID) o fun session t =>
      Created o input session ∧ Admissible t session ∧ session.pane = none := by
  refine .modify_bind (.single (.allocate 1 0)) (.modify_bind (.single (.allocate 0 _))
    (.get_bind (.of_pure ⟨⟨rfl, rfl, rfl⟩, ?_, rfl⟩)))
  exact admissible_of_joins h hjoins rfl ⟨rfl, rfl, rfl⟩ rfl rfl

/-- A change of anything but the identity keeps a session admissible. -/
theorem Admissible.congr {session' : ManagedSession} (h : Admissible o session)
    (hsame : SameIdentity session session') : Admissible o session' where
  numbered := hsame.id ▸ hsame.paneID ▸ h.numbered
  logical := hsame.logicalSessionID ▸ h.logical
  fresh := hsame.id ▸ h.fresh
  named := hsame.projectID ▸ h.named
  project := hsame.logicalSessionID ▸ hsame.projectID ▸ h.project
  placed := hsame.windowID ▸ hsame.logicalSessionID ▸ h.placed

theorem Admissible.logicalSessionID_ne (h : Admissible o session) :
    session.logicalSessionID ≠ "" := by
  obtain ⟨n, -, hn⟩ := h.logical
  rw [hn]
  exact sessionName_ne_empty n

/-- The logical session of a new pane is in scope with the pane. -/
theorem Admissible.inScope (h : Admissible o session) (hconsistent : Consistent o)
    (hscope : scope session.projectID) :
    InScope scope o (logicalSessionID · = session.logicalSessionID) := by
  intro other hother hsame
  rw [hconsistent.logicalSessionID_eq hother] at hsame
  rw [h.project other hother hsame]
  exact hscope

theorem leads_terminate {paneID : String} (hscope : InScope scope o (·.paneID = paneID)) :
    Leads (Updates scope) (terminate env paneID) o fun _ t => t.sessions = o.sessions :=
  leads_callPane hscope

/-- Recording a new pane keeps it admissible; it is stopped when this fails. -/
theorem leads_recordCreated (h : Consistent o) (hsession : Admissible o session)
    (hscope : scope session.projectID) (hpane : InScope scope o (·.paneID = session.paneID)) :
    Leads (Updates scope) (onError (persistTopology env session) (terminate env session.paneID)) o
      fun _ t => Admissible t session := by
  have hpersist : Leads (CatalogWrite scope fun w l =>
      w = session.windowID ∧ l = session.logicalSessionID) (persistTopology env session) o
      fun _ _ => True :=
    leads_persistTopology h hsession.logicalSessionID_ne (hsession.inScope h hscope)
      hsession.placed
  refine .onError ((hpersist.relate.weaken fun _ _ => CatalogWrite.updates).mono
    fun _ t ht => ht.1.admissible hsession) fun t ht => ?_
  exact (leads_terminate (hpane.updates (byIdentity_paneID _) ht)).mono fun _ _ _ => trivial

/-- Starting the data path of a new pane keeps it admissible. -/
theorem leads_startCreated (hsession : Admissible o session)
    (hpane : InScope scope o (·.paneID = session.paneID)) :
    Leads (Updates scope) (onError (newSessionAttachment env session) do
        bestEffort (terminate env session.paneID)
        destroyPersistedPane env session) o
      fun _ t => Admissible t session := by
  refine .onError ((leads_newSessionAttachment.relate.weaken fun _ _ => Records.updates).mono
    fun _ t ht => (ht.1.catalogWrite : CatalogWrite scope _ o t).admissible hsession)
    fun t ht => ?_
  refine .bind (leads_terminate (hpane.updates (byIdentity_paneID _) ht)).bestEffort
    fun _ _ _ _ => ?_
  exact leads_destroyPersistedPane.weaken fun _ _ => Records.updates

theorem leads_registerSession (hsession : Admissible o session) (hscope : scope session.projectID) :
    Leads (Updates scope) (registerSession session) o fun _ t => session ∈ t.sessions := by
  refine .modify_bind (.single (.register session hscope hsession)) ?_
  refine (Leads.of_modify (.single (update_focus hscope _))).mono fun _ t ht => ?_
  subst ht
  exact mem_register.mpr (.inr rfl)

theorem leads_observePaneTopology (h : Consistent o) (hmem : session ∈ o.sessions)
    (hscope : scope session.projectID) :
    Leads (Updates scope) (observePaneTopology env session) o fun _ _ => True := by
  have hlogical : InScope scope o (logicalSessionID · = logicalSessionID session) :=
    .of_logical h hmem hscope rfl
  refine topologyState_bind h hlogical fun state t ht _ hsettled => ?_
  have hset : Updates scope t { t with
      topologyState := setAt t.topologyState (logicalSessionID session) { state with
        activeWindowID := session.windowID
        activePaneByWindow := setAt state.activePaneByWindow session.windowID session.paneID
        layoutByWindow :=
          setAt state.layoutByWindow session.windowID
            (ensureLayoutPane (state.layoutByWindow session.windowID) session.paneID) } } := by
    refine update_topology (hlogical.updates (byIdentity_logical _) ht) fun other => ?_
    obtain ⟨hproper, hnodup⟩ := hsettled.layoutsProper session.windowID
    obtain ⟨hproper, hnodup⟩ := hproper.ensureLayoutPane hnodup (h.paneID_ne hmem)
    exact hsettled.layoutsProper.setAt hproper hnodup other
  refine .modify_bind hset (leads_recordInteraction ((h.updates ht).updates hset)
    (hlogical.updates (byIdentity_logical _) (ht.trans hset))).bestEffort

/-- **Creating a pane** is on behalf of its project, also when it fails. -/
theorem leads_createLocked (h : Consistent o) (hjoins : Joins o logicalID windowID input.projectID)
    (hscope : scope input.projectID) :
    Leads (Updates scope) (createLocked env input logicalID windowID) o
      fun session _ => Created o input session := by
  refine .require_bind fun _ => (leads_allocate h hjoins).bind fun session t ht hsession => ?_
  obtain ⟨hcreated, hadmissible, -⟩ := hsession
  refine .orRaise_bind fun pane _ => ?_
  have hproject : scope session.projectID := hcreated.projectID ▸ hscope
  have hpane : ∀ u, Updates scope o u → InScope scope u (·.paneID = session.paneID) :=
    fun u hu => (hcreated.inScope_paneID h).updates (byIdentity_paneID _) hu
  have hstarted : Admissible t { session with pane := some pane } :=
    hadmissible.congr ⟨rfl, rfl, rfl, rfl, rfl⟩
  refine (leads_recordCreated (h.updates ht) hstarted hproject (hpane t ht)).bind
    fun _ u hu hrecorded => ?_
  refine (leads_startCreated hrecorded (hpane u (ht.trans hu))).bind
    fun attached v hv hattached => ?_
  have hready : Admissible v { session with
      pane := some pane, attached, outputHistory := attached } :=
    hattached.congr ⟨rfl, rfl, rfl, rfl, rfl⟩
  refine (leads_registerSession hready hproject).bind fun _ w hw hmem => ?_
  have hconsistent := (((h.updates ht).updates hu).updates hv).updates hw
  refine (leads_observePaneTopology hconsistent hmem hproject).bind fun _ _ _ _ => ?_
  refine .bind (leads_persistActiveLogicalSession.weaken fun _ _ => Records.updates)
    fun _ _ _ _ => .of_pure ?_
  exact ⟨hcreated.id, hcreated.paneID, hcreated.projectID⟩

theorem leads_create (h : Consistent o) (input : CreateSessionRequest) {projectID : String}
    (hnamed : projectID ≠ "") (hscope : scope projectID) :
    Leads (Updates scope) (create env input projectID) o fun _ _ => True := by
  refine .require_bind fun _ => requireMutable_bind ?_
  have hrecovered : Leads (Updates scope) requireRecovered o fun _ t => t = o := by
    refine .get_bind ?_
    split
    · exact .of_throw
    · exact Leads.of_require.mono fun _ _ ht => ht.2
  refine hrecovered.bind fun _ t _ ht => ?_
  subst ht
  exact (leads_createLocked h ⟨hnamed, .inl ⟨rfl, rfl⟩⟩ hscope).bind fun _ _ _ _ => .of_pure trivial

/-- A change of sessions with an id in scope. -/
theorem update_modifySession {sessionID : String} (change : ManagedSession → ManagedSession)
    (hscope : InScope scope o (·.id = sessionID))
    (hchange : ∀ session, SameIdentity session (change session)) :
    Update scope o { o with sessions := updateSession o.sessions sessionID change } := by
  refine .change _ fun session hmem => ?_
  split
  · next hid => exact .inr ⟨hscope session hmem hid, hchange session⟩
  · exact .inl rfl

theorem Joins.of_source (h : Consistent o) (hmem : session ∈ o.sessions)
    (hwindow : windowID = "" ∨ session.windowID = windowID) :
    Joins o session.logicalSessionID windowID session.projectID :=
  ⟨h.named session hmem, .inr ⟨session, hmem, rfl, rfl, hwindow⟩⟩

/-- The second half of splitting a pane and of opening a window: the new pane inherits from
its source, and a new interaction state is recorded. -/
theorem leads_inherit {source created : ManagedSession} (h : Consistent o)
    (hlogical : InScope scope o (logicalSessionID · = source.logicalSessionID))
    (hcreated : InScope scope o (·.id = created.id)) (edit : TopologyState → TopologyState)
    (hedit : ∀ state, state.LayoutsProper → (edit state).LayoutsProper) :
    Leads (Updates scope) (do
      modifySession created.id (inheritFrom source)
      let state ← topologyState source.logicalSessionID
      setTopologyState source.logicalSessionID (edit state)
      persistTopologyInteraction env source.logicalSessionID
      persistPin env (inheritFrom source created)
      pure (CreateSessionResponse.mk created.id created.paneID)) o fun _ _ => True := by
  have hchange : Updates scope o
      { o with sessions := updateSession o.sessions created.id (inheritFrom source) } :=
    .single (update_modifySession (inheritFrom source) hcreated fun _ => ⟨rfl, rfl, rfl, rfl, rfl⟩)
  refine .modify_bind hchange (topologyState_bind (h.updates hchange)
    (hlogical.updates (byIdentity_logical _) hchange) fun state t ht _ hsettled => ?_)
  have hset := update_topology (hlogical.updates (byIdentity_logical _) (hchange.trans ht))
    (hedit state hsettled.layoutsProper)
  refine .modify_bind hset ?_
  refine (leads_recordInteraction (((h.updates hchange).updates ht).updates hset)
    (hlogical.updates (byIdentity_logical _) ((hchange.trans ht).trans hset))).bind
      fun _ _ _ _ => ?_
  exact .bind (leads_persistPin.weaken fun _ _ => Records.updates) fun _ _ _ _ => .of_pure trivial

theorem leads_split (h : Consistent o) (input : SplitPaneRequest)
    (hscope : ∀ source ∈ o.sessions, source.paneID = input.paneID → scope source.projectID) :
    Leads (Updates scope) (split env input) o fun _ _ => True := by
  refine .require_bind fun _ => requireMutable_bind (requirePane_bind fun source hmem hpane => ?_)
  have hproject := hscope source hmem hpane
  have hlogical : InScope scope o (logicalSessionID · = source.logicalSessionID) :=
    .of_logical h hmem hproject (h.logicalSessionID_eq hmem)
  refine (leads_createLocked h (.of_source h hmem (.inr rfl)) hproject).bind
    fun created t ht hcreated => ?_
  refine leads_inherit (h.updates ht) (hlogical.updates (byIdentity_logical _) ht)
    ((hcreated.inScope_id h).updates (byIdentity_id _) ht)
    (fun state => { state with
      layoutByWindow := setAt state.layoutByWindow source.windowID
        (splitLayoutPane (removeLayoutPane (state.layoutByWindow source.windowID) created.paneID)
          source.paneID created.paneID input.direction input.ratio)
      activeWindowID := source.windowID
      activePaneByWindow := setAt state.activePaneByWindow source.windowID created.paneID })
    fun state hstate other => ?_
  have hne : source.paneID ≠ created.paneID := hcreated.paneID ▸ h.paneID_ne_next source hmem
  have hcreatedID : created.paneID ≠ "" := hcreated.paneID ▸ paneName_ne_empty _
  obtain ⟨hproper, hnodup⟩ := hstate source.windowID
  obtain ⟨hbase, hleaves⟩ := hproper.removeLayoutPane hcreatedID
  obtain ⟨hsplit, hsplitNodup⟩ := hbase.splitLayoutPane (hleaves ▸ hnodup.filter _)
    (h.paneID_ne hmem) hcreatedID hne (by simp [hleaves]) input.direction input.ratio
  exact hstate.setAt hsplit.orNil hsplitNodup other

theorem leads_newWindow (h : Consistent o) (input : NewWindowRequest)
    (hscope : ∀ root, logicalSession env o.sessions input.sessionID = some root →
      scope root.projectID) :
    Leads (Updates scope) (newWindow env input) o fun _ _ => True := by
  refine requireMutable_bind (requireLogicalSession_bind fun source hroot => ?_)
  have hmem := logicalSession_some hroot
  have hproject := hscope source hroot
  have hlogical : InScope scope o (logicalSessionID · = source.logicalSessionID) :=
    .of_logical h hmem hproject (h.logicalSessionID_eq hmem)
  refine (leads_createLocked h (.of_source h hmem (.inl rfl)) hproject).bind
    fun created t ht hcreated => ?_
  exact leads_inherit (h.updates ht) (hlogical.updates (byIdentity_logical _) ht)
    ((hcreated.inScope_id h).updates (byIdentity_id _) ht)
    (fun state => { state with
      activeWindowID := created.windowID
      activePaneByWindow := setAt state.activePaneByWindow created.windowID created.paneID })
    fun state hstate => hstate

/-! ### Destruction -/

section Destruction

variable {projectID : String}

theorem leads_stopPane (hpane : InScope scope o (·.paneID = session.paneID)) :
    Leads (Updates scope) (stopPane env session) o fun _ _ => True := by
  unfold stopPane
  split
  · exact (leads_terminate hpane).mono fun _ _ _ => trivial
  · exact .of_pure trivial

theorem leads_closeAttachment (hpane : InScope scope o (·.paneID = session.paneID)) :
    Leads (Updates scope) (closeAttachment env session) o fun _ t => t.sessions = o.sessions := by
  unfold closeAttachment
  split
  · exact leads_callPane hpane
  · exact .of_pure rfl

theorem leads_destroyManagedSession (hid : InScope scope o (·.id = session.id))
    (hpane : InScope scope o (·.paneID = session.paneID)) :
    Leads (Updates scope) (destroyManagedSession env session) o fun _ _ => True := by
  refine (leads_stopPane hpane).bind fun _ t ht _ => ?_
  have hpane := hpane.updates (byIdentity_paneID _) ht
  refine (leads_closeAttachment hpane).bestEffort.bind fun _ u hu _ => ?_
  refine .bind (leads_destroyPersistedPane.weaken fun _ _ => Records.updates) fun _ v hv _ => ?_
  have hid := hid.updates (byIdentity_id _) ((ht.trans hu).trans hv)
  exact (Leads.of_modify (.single (.unregister session.id hid))).mono fun _ _ _ => trivial

theorem leads_retireWindow (h : Consistent o) (windowID : String)
    (hlogical : InScope scope o (logicalSessionID · = logicalID)) :
    Leads (Updates scope) (retireWindow logicalID windowID) o fun _ _ => True := by
  refine topologyState_bind h hlogical fun state t ht _ hsettled => ?_
  have hset := update_topology (hlogical.updates (byIdentity_logical _) ht)
    (removeWindowPlacement_layoutsProper hsettled.layoutsProper windowID)
  exact (Leads.of_modify hset).mono fun _ _ _ => trivial

theorem leads_retireLastPane (h : Consistent o) (windowID : String)
    (hlogical : InScope scope o (logicalSessionID · = logicalID)) :
    Leads (Updates scope) (retireLastPane logicalID windowID) o fun _ _ => True := by
  refine .get_bind ?_
  split
  · exact leads_retireWindow h windowID hlogical
  · exact .of_pure trivial

/-- The focus a project loses goes to a session of the same project. -/
theorem updates_selectRemainingSession (hne : projectID ≠ "") (hproject : scope projectID) :
    Updates scope o (o.selectRemainingSession env projectID) := by
  have hunfocused : Updates scope o (o.unfocus projectID) := by
    unfold Operations.unfocus
    split
    · exact .single (.select none o.activeLogicalByProject fun _ _ => rfl)
    · exact .refl
  refine hunfocused.trans ?_
  unfold Operations.selectRemainingSession
  split
  · next candidate _ hremaining =>
    have hmem : candidate ∈ remainingSessions env o.sessions projectID :=
      hremaining ▸ List.mem_cons_self
    rw [remainingSessions, List.mem_insertionSort, List.mem_filter, decide_eq_true_eq] at hmem
    refine .single (update_focus ?_ _)
    rw [hmem.2.resolve_left hne]
    exact hproject
  · rw [Operations.deselect, if_neg hne]
    refine .single (.select _ _ fun other hother => AList.lookup_erase_ne ?_)
    rintro rfl
    exact hother hproject

/-- The focus stays in a logical session that has a pane left. -/
theorem updates_selectLogicalSession
    (hlogical : InScope scope o (logicalSessionID · = logicalID))
    (hhas : hasLogicalSession o.sessions logicalID) :
    Updates scope o (o.selectLogicalSession env logicalID) := by
  unfold Operations.selectLogicalSession
  split
  · next candidate hfound =>
    have hmem := (env.walk_perm _ _).mem_iff.mp (List.mem_of_find?_eq_some hfound)
    exact .single (update_focus (hlogical candidate hmem (by simpa using List.find?_some hfound)) _)
  · next hnone =>
    obtain ⟨session, hsession, hsame⟩ := List.any_eq_true.mp hhas
    have hmem := (env.walk_perm .focus _).mem_iff.mpr hsession
    exact absurd hsame (List.find?_eq_none.mp hnone session hmem)

theorem leads_selectReplacement (hlogical : InScope scope o (logicalSessionID · = logicalID))
    (hne : projectID ≠ "") (hproject : scope projectID) (wasActive : Bool) :
    Leads (Updates scope) (selectReplacement env logicalID projectID wasActive) o
      fun _ _ => True := by
  have hempty : Updates scope o
      { o with topologyState := setAt o.topologyState logicalID {} } :=
    update_topology hlogical fun _ => ⟨.nil, List.nodup_nil⟩
  refine .modify_bind hempty ?_
  split
  · refine .modify_bind (updates_selectRemainingSession hne hproject) (.get_bind ?_)
    split
    · exact .of_pure trivial
    · exact leads_persistActiveLogicalSession.weaken fun _ _ => Records.updates
  · exact .of_pure trivial

theorem leads_keepSelection (hlogical : InScope scope o (logicalSessionID · = logicalID))
    (hhas : hasLogicalSession o.sessions logicalID) (wasActive : Bool) :
    Leads (Updates scope) (keepSelection env logicalID wasActive) o fun _ t =>
      wasActive = false → t = o := by
  unfold keepSelection
  split
  · next hactive =>
    refine (Leads.of_modify (updates_selectLogicalSession hlogical hhas)).mono fun _ _ _ hnot => ?_
    exact absurd hactive (by simp [hnot])
  · exact .of_pure fun _ => rfl

theorem leads_settleDestroyed (h : Consistent o)
    (hlogical : InScope scope o (logicalSessionID · = logicalID)) (hne : projectID ≠ "")
    (hproject : scope projectID) (wasActive : Bool) :
    Leads (Updates scope) (settleDestroyed env logicalID projectID wasActive) o
      fun _ _ => True := by
  refine .get_bind ?_
  split
  · next hhas =>
    refine topologyState_bind h hlogical fun _ t ht hsessions _ => ?_
    have hkept := hlogical.updates (byIdentity_logical _) ht
    refine (leads_keepSelection hkept (hsessions ▸ hhas) wasActive).bind fun _ u hu _ => ?_
    exact (leads_recordInteraction ((h.updates ht).updates hu)
      (hkept.updates (byIdentity_logical _) hu)).bestEffort
  · exact leads_selectReplacement hlogical hne hproject wasActive

theorem leads_settleWindowDestroyed (h : Consistent o)
    (hlogical : InScope scope o (logicalSessionID · = logicalID)) (hne : projectID ≠ "")
    (hproject : scope projectID) (wasActive : Bool) :
    Leads (Updates scope) (settleWindowDestroyed env logicalID projectID wasActive) o
      fun _ _ => True := by
  refine .get_bind ?_
  split
  · next hhas =>
    refine topologyState_bind h hlogical fun _ t ht hsessions _ => ?_
    have hkept := hlogical.updates (byIdentity_logical _) ht
    refine (leads_recordInteraction (h.updates ht) hkept).bind fun _ u hu hsame => ?_
    rw [← hsessions, ← hsame] at hhas
    exact (leads_keepSelection (hkept.updates (byIdentity_logical _) hu) hhas wasActive).mono
      fun _ _ _ => trivial
  · exact leads_selectReplacement hlogical hne hproject wasActive

theorem leads_clearLegacy : Leads Records (clearLegacy env session) o fun _ _ => True := by
  unfold clearLegacy
  split
  · exact leads_clearRecovery
  · exact .of_pure trivial

/-- **Destroying a pane** is on behalf of its project. -/
theorem leads_destroySession (h : Consistent o) (hmem : session ∈ o.sessions)
    (hproject : scope session.projectID) :
    Leads (Updates scope) (destroySession env session) o fun _ _ => True := by
  have hlogical : InScope scope o (logicalSessionID · = logicalSessionID session) :=
    .of_logical h hmem hproject rfl
  refine .get_bind ((leads_retireLastPane h session.windowID hlogical).bind fun _ t ht _ => ?_)
  refine (leads_destroyManagedSession
    ((InScope.of_id h hmem hproject).updates (byIdentity_id _) ht)
    ((InScope.of_paneID h hmem hproject).updates (byIdentity_paneID _) ht)).bind fun _ u hu _ => ?_
  refine (leads_settleDestroyed ((h.updates ht).updates hu)
    (hlogical.updates (byIdentity_logical _) (ht.trans hu)) (h.named session hmem) hproject _).bind
      fun _ _ _ _ => ?_
  exact .bind (leads_clearLegacy.weaken fun _ _ => Records.updates) fun _ _ _ _ => .of_pure trivial

theorem leads_destroy (h : Consistent o) (input : DestroySessionRequest)
    (hscope : ∀ session, requireDestroySession o.sessions input.sessionID = some session →
      scope session.projectID) :
    Leads (Updates scope) (destroy env input) o fun _ _ => True := by
  refine requireMutable_bind (.get_bind ?_)
  split
  · next session hfound =>
    refine leads_destroySession h ?_ (hscope session hfound)
    unfold requireDestroySession at hfound
    split at hfound
    · next hid => exact Option.some.inj hfound ▸ (of_findSession hid).1
    · split at hfound
      · next recovered hrecovered =>
        obtain rfl := Option.some.inj hfound
        exact List.mem_of_mem_filter (hrecovered ▸ List.mem_singleton_self _)
      · exact nomatch hfound
  · refine .get_bind (.require_bind fun _ => ?_)
    exact .bind (leads_clearRecovery.weaken fun _ _ => Records.updates)
      fun _ _ _ _ => .of_pure trivial

theorem mem_windowTargets {windowID : String} :
    session ∈ windowTargets env o.sessions logicalID windowID ↔
      session ∈ o.sessions ∧ logicalSessionID session = logicalID ∧
        session.windowID = windowID := by
  rw [windowTargets, List.mem_filter, decide_eq_true_eq, (env.walk_perm _ _).mem_iff]

/-- **Destroying a window** is on behalf of its project. -/
theorem leads_destroyWindow (h : Consistent o) (input : DestroyWindowRequest)
    (hscope : ∀ root, logicalSession env o.sessions input.sessionID = some root →
      scope root.projectID) :
    Leads (Updates scope) (destroyWindow env input) o (Answer scope env) := by
  refine requireMutable_bind (requireLogicalSession_bind fun root hroot => ?_)
  have hmem := logicalSession_some hroot
  have hproject := hscope root hroot
  have hlogical := InScope.of_logical h hmem hproject rfl
  refine .get_bind (.require_bind fun _ => ?_)
  refine (leads_retireWindow h input.windowID hlogical).bind fun _ t ht _ => ?_
  refine .bind (.forM fun target htarget u hu => ?_) fun _ u hu _ => ?_
  · -- every target is a pane of the same logical session, hence in scope
    obtain ⟨htarget, hsame, -⟩ := mem_windowTargets.mp htarget
    have hscope := hlogical target htarget hsame
    exact leads_destroyManagedSession
      ((InScope.of_id h htarget hscope).updates (byIdentity_id _) (ht.trans hu))
      ((InScope.of_paneID h htarget hscope).updates (byIdentity_paneID _) (ht.trans hu))
  · have hconsistent := (h.updates ht).updates hu
    refine (leads_settleWindowDestroyed hconsistent
      (hlogical.updates (byIdentity_logical _) (ht.trans hu)) (h.named root hmem) hproject _).bind
        fun _ v hv _ => ?_
    exact leads_topologyLocked (hconsistent.updates hv) hproject

end Destruction

/-! ### The end of a process -/

section Exit

theorem leads_forAll {α : Type} {f : α → OpsM Unit}
    (hf : ∀ a o, Leads Records (f a) o fun _ _ => True)
    (items : List α) : Leads Records (forAll f items) o fun _ _ => True := by
  induction items generalizing o with
  | nil => exact .of_pure trivial
  | cons item rest ih =>
    exact .bind (hf item o).attempt fun _ _ _ _ => ih.bind fun _ _ _ _ => .of_pure trivial

theorem leads_reapHistory : Leads Records (reapHistory env logicalID) o fun _ _ => True := by
  refine .bind leads_openHistory.attempt fun opened t _ _ => ?_
  cases opened with
  | some err => exact .of_pure trivial
  | none =>
    refine .get_bind (.bind (leads_forAll (fun _ _ => leads_recordHistory) _) fun _ _ _ _ => ?_)
    exact .bind leads_openHistory.attempt fun _ _ _ _ => .of_pure trivial

theorem leads_markLogicalSessionDead :
    Leads Records (markLogicalSessionDead env logicalID) o fun _ _ => True := by
  refine .get_bind ?_
  split
  · exact .of_pure trivial
  · split
    · exact .of_pure trivial
    · refine leads_reapHistory.bind fun archiveErr _ _ _ => leads_openStore.bind fun _ _ _ _ =>
        (leads_record (Store.shrinks_destroySession _)).bind fun _ t _ _ => ?_
      have hclear : Leads Records (clearFirstSession env logicalID) t fun _ _ => True := by
        unfold clearFirstSession
        split
        · exact leads_record Store.shrinks_clear
        · exact .of_pure trivial
      refine hclear.bind fun _ _ _ _ => ?_
      cases archiveErr with
      | none => exact .of_pure trivial
      | some err => exact .of_throw

/-- The end of a process is on behalf of the pane's project. -/
theorem leads_watchPaneExit (h : Consistent o) (sessionID : String) (diagnostic : Option String)
    (hscope : ∀ session ∈ o.sessions, session.id = sessionID → scope session.projectID) :
    Leads (Updates scope) (watchPaneExit env sessionID diagnostic) o fun _ _ => True := by
  refine requireSession_bind fun session hmem hid => .require_bind fun _ => ?_
  have hproject := hscope session hmem hid
  have hids := InScope.of_id h hmem hproject
  refine (leads_closeAttachment (InScope.of_paneID h hmem hproject)).bestEffort.bind
    fun _ t ht _ => ?_
  have hexit := update_modifySession (exited diagnostic) (hids.updates (byIdentity_id _) ht)
    fun _ => ⟨rfl, rfl, rfl, rfl, rfl⟩
  refine .modify_bind (.single hexit) ?_
  refine .bind (leads_markLogicalSessionDead.attempt.weaken fun _ _ => Records.updates)
    fun err u hu _ => ?_
  cases err with
  | none => exact .of_pure trivial
  | some err =>
    have hids := hids.updates (byIdentity_id _) ((ht.tail hexit).trans hu)
    have hnote := update_modifySession
      (fun session => { session with recoveryDiagnostic := err.message }) hids fun _ =>
        ⟨rfl, rfl, rfl, rfl, rfl⟩
    exact (Leads.of_modify (.single hnote)).mono fun _ _ _ => trivial

end Exit

end AgentCockpit.Mux
