import AgentCockpit.Mux.Operations.Requests

/-!
# What a step can change

Every step of the daemon is a sequence of updates, and each update is one of a few kinds:
hand out identifiers, enter, change or remove a session, edit the interaction state of a
logical session, move the selection, write the catalog. The kinds say on whose behalf the
step acts: `scope` holds of the projects whose sessions it may touch.

A consistent daemon numbers its sessions, keeps each logical session in one project and each
window in one logical session, in memory as in the catalog. Updates keep it consistent.
-/

namespace AgentCockpit.Mux

open AgentCockpit.Core

/-- A window is in a logical session, in memory or in the catalog. -/
def Bound (o : Operations) (windowID logicalID : String) : Prop :=
  (∃ session ∈ o.sessions, session.windowID = windowID ∧ session.logicalSessionID = logicalID) ∨
    o.store.Bound windowID logicalID

/-- The invariant of the daemon. -/
structure Consistent (o : Operations) : Prop where
  numbered : ∀ session ∈ o.sessions,
    ∃ n ≤ o.nextSession, session.id = sessionName n ∧ session.paneID = paneName n
  logical : ∀ session ∈ o.sessions, ∃ n ≤ o.nextSession, session.logicalSessionID = sessionName n
  nodup : (o.sessions.map (·.id)).Nodup
  named : ∀ session ∈ o.sessions, session.projectID ≠ ""
  project : ∀ session ∈ o.sessions, ∀ other ∈ o.sessions,
    session.logicalSessionID = other.logicalSessionID → session.projectID = other.projectID
  layouts : ∀ logicalID, (o.topologyState logicalID).LayoutsProper
  bound_unique : ∀ windowID logicalID other,
    Bound o windowID logicalID → Bound o windowID other → logicalID = other
  bound_numbered : ∀ windowID logicalID, Bound o windowID logicalID →
    ∃ n ≤ o.nextWindow, windowID = windowName n

/-- A window may be put in a logical session: it is in no other one. -/
structure Placed (o : Operations) (windowID logicalID : String) : Prop where
  unique : ∀ other, Bound o windowID other → other = logicalID
  numbered : ∃ n ≤ o.nextWindow, windowID = windowName n

/-- A session that may be entered: its ids are new, and it joins its logical session in the
project it belongs to. -/
structure Admissible (o : Operations) (session : ManagedSession) : Prop where
  numbered : ∃ n ≤ o.nextSession, session.id = sessionName n ∧ session.paneID = paneName n
  logical : ∃ n ≤ o.nextSession, session.logicalSessionID = sessionName n
  fresh : ∀ other ∈ o.sessions, other.id ≠ session.id
  named : session.projectID ≠ ""
  project : ∀ other ∈ o.sessions, other.logicalSessionID = session.logicalSessionID →
    other.projectID = session.projectID
  placed : Placed o session.windowID session.logicalSessionID

/-- A session keeps who it is. -/
structure SameIdentity (session session' : ManagedSession) : Prop where
  id : session'.id = session.id
  paneID : session'.paneID = session.paneID
  projectID : session'.projectID = session.projectID
  logicalSessionID : session'.logicalSessionID = session.logicalSessionID
  windowID : session'.windowID = session.windowID

/-- Every registered session of a group belongs to a project in scope. -/
def InScope (scope : String → Prop) (o : Operations) (group : ManagedSession → Prop) : Prop :=
  ∀ session ∈ o.sessions, group session → scope session.projectID

/-- Neither the sessions nor their state change; the panes called are in scope. -/
structure Quiet (scope : String → Prop) (o o' : Operations) : Prop where
  sessions : o'.sessions = o.sessions
  nextSession : o'.nextSession = o.nextSession
  nextWindow : o'.nextWindow = o.nextWindow
  topologyState : o'.topologyState = o.topologyState
  session : o'.session = o.session
  activeLogicalByProject : o'.activeLogicalByProject = o.activeLogicalByProject
  store : o'.store = o.store
  paneCalls : ∃ calls, o'.paneCalls = o.paneCalls ++ calls ∧
    ∀ call ∈ calls, InScope scope o (·.paneID = call.paneID)

/-- One change on behalf of the projects in scope. -/
inductive Update (scope : String → Prop) (o : Operations) : Operations → Prop
  | quiet {o' : Operations} (h : Quiet scope o o') : Update scope o o'
  | allocate (sessions windows : ℕ) :
    Update scope o
      { o with nextSession := o.nextSession + sessions, nextWindow := o.nextWindow + windows }
  | register (session : ManagedSession) (hscope : scope session.projectID)
      (h : Admissible o session) :
    Update scope o { o with sessions := register o.sessions session }
  | unregister (sessionID : String) (hscope : InScope scope o (·.id = sessionID)) :
    Update scope o { o with sessions := unregister o.sessions sessionID }
  | change (f : ManagedSession → ManagedSession)
      (h : ∀ session ∈ o.sessions,
        f session = session ∨ scope session.projectID ∧ SameIdentity session (f session)) :
    Update scope o { o with sessions := o.sessions.map f }
  | topology (logicalID : String) (state : TopologyState)
      (hscope : InScope scope o (logicalSessionID · = logicalID)) (h : state.LayoutsProper) :
    Update scope o { o with topologyState := setAt o.topologyState logicalID state }
  | select (session : Option ManagedSession) (active : AList fun _ : String => String)
      (h : ∀ projectID, ¬ scope projectID →
        active.lookup projectID = o.activeLogicalByProject.lookup projectID) :
    Update scope o { o with session, activeLogicalByProject := active }
  | place (store : Store) (windowID logicalID : String) (hplaced : Placed o windowID logicalID)
      (h : ∀ window logical, store.Bound window logical →
        o.store.Bound window logical ∨ window = windowID ∧ logical = logicalID) :
    Update scope o { o with store }
  | shrink (store : Store)
      (h : ∀ window logical, store.Bound window logical → o.store.Bound window logical) :
    Update scope o { o with store }

abbrev Updates (scope : String → Prop) : Operations → Operations → Prop :=
  Relation.ReflTransGen (Update scope)

instance (scope : String → Prop) : Std.Refl (Updates scope) := ⟨fun _ => .refl⟩

instance (scope : String → Prop) : IsTrans Operations (Updates scope) := ⟨fun _ _ _ => .trans⟩

variable {scope : String → Prop} {o o' : Operations} {session session' : ManagedSession}
variable {windowID logicalID sessionID : String}

/-! ### Identity -/

theorem SameIdentity.refl (session : ManagedSession) : SameIdentity session session :=
  ⟨rfl, rfl, rfl, rfl, rfl⟩

theorem SameIdentity.logical (h : SameIdentity session session') :
    Mux.logicalSessionID session' = Mux.logicalSessionID session := by
  rw [Mux.logicalSessionID, Mux.logicalSessionID, h.logicalSessionID, h.id]

theorem sameIdentity_of_change {f : ManagedSession → ManagedSession}
    (h : f session = session ∨ scope session.projectID ∧ SameIdentity session (f session)) :
    SameIdentity session (f session) := by
  rcases h with heq | ⟨-, hsame⟩
  · rw [heq]
    exact .refl session
  · exact hsame

theorem mem_register : session' ∈ register o.sessions session ↔
    session' ∈ o.sessions ∧ session'.id ≠ session.id ∨ session' = session := by
  simp [register]

theorem mem_unregister : session ∈ unregister o.sessions sessionID ↔
    session ∈ o.sessions ∧ session.id ≠ sessionID := by
  simp [unregister]

namespace Consistent

theorem logicalSessionID_ne (h : Consistent o) (hmem : session ∈ o.sessions) :
    session.logicalSessionID ≠ "" := by
  obtain ⟨n, -, hn⟩ := h.logical session hmem
  rw [hn]
  exact sessionName_ne_empty n

theorem logicalSessionID_eq (h : Consistent o) (hmem : session ∈ o.sessions) :
    logicalSessionID session = session.logicalSessionID :=
  if_pos (h.logicalSessionID_ne hmem)

theorem paneID_ne (h : Consistent o) (hmem : session ∈ o.sessions) : session.paneID ≠ "" := by
  obtain ⟨n, -, -, hn⟩ := h.numbered session hmem
  rw [hn]
  exact paneName_ne_empty n

theorem bound (hmem : session ∈ o.sessions) : Bound o session.windowID session.logicalSessionID :=
  .inl ⟨session, hmem, rfl, rfl⟩

theorem windowID_ne (h : Consistent o) (hmem : session ∈ o.sessions) : session.windowID ≠ "" := by
  obtain ⟨n, -, hn⟩ := h.bound_numbered _ _ (bound hmem)
  rw [hn]
  exact windowName_ne_empty n

theorem windowKey_eq (h : Consistent o) (hmem : session ∈ o.sessions) :
    windowKey session = session.windowID :=
  if_neg (h.windowID_ne hmem)

/-- A registered session is placed where it is. -/
theorem placed (h : Consistent o) (hmem : session ∈ o.sessions) :
    Placed o session.windowID session.logicalSessionID :=
  ⟨fun _ hother => h.bound_unique _ _ _ hother (bound hmem), h.bound_numbered _ _ (bound hmem)⟩

theorem eq_of_id (h : Consistent o) (hmem : session ∈ o.sessions) (hmem' : session' ∈ o.sessions)
    (hid : session.id = session'.id) : session = session' :=
  List.inj_on_of_nodup_map h.nodup hmem hmem' hid

theorem eq_of_paneID (h : Consistent o) (hmem : session ∈ o.sessions)
    (hmem' : session' ∈ o.sessions) (hpane : session.paneID = session'.paneID) :
    session = session' := by
  obtain ⟨n, -, hid, hn⟩ := h.numbered session hmem
  obtain ⟨n', -, hid', hn'⟩ := h.numbered session' hmem'
  obtain rfl : n = n' := paneName_injective (hn ▸ hn' ▸ hpane)
  exact h.eq_of_id hmem hmem' (hid.trans hid'.symm)

theorem project_of_logical (h : Consistent o) (hmem : session ∈ o.sessions)
    (hmem' : session' ∈ o.sessions)
    (hlogical : logicalSessionID session = logicalSessionID session') :
    session.projectID = session'.projectID := by
  rw [h.logicalSessionID_eq hmem, h.logicalSessionID_eq hmem'] at hlogical
  exact h.project session hmem session' hmem' hlogical

/-! ### Updates keep the invariant -/

theorem quiet (h : Consistent o) (hquiet : Quiet scope o o') : Consistent o' := by
  obtain ⟨hsessions, hnextSession, hnextWindow, htopology, -, -, hstore, -⟩ := hquiet
  have hbound : ∀ w l, Bound o' w l ↔ Bound o w l := by
    intro w l
    rw [Bound, Bound, hsessions, hstore]
  constructor
  · rw [hsessions, hnextSession]
    exact h.numbered
  · rw [hsessions, hnextSession]
    exact h.logical
  · rw [hsessions]
    exact h.nodup
  · rw [hsessions]
    exact h.named
  · rw [hsessions]
    exact h.project
  · rw [htopology]
    exact h.layouts
  · simp only [hbound]
    exact h.bound_unique
  · simp only [hbound, hnextWindow]
    exact h.bound_numbered

theorem allocate (h : Consistent o) (sessions windows : ℕ) :
    Consistent { o with
      nextSession := o.nextSession + sessions, nextWindow := o.nextWindow + windows } := by
  refine { h with numbered := ?_, logical := ?_, bound_numbered := ?_ }
  · intro session hmem
    obtain ⟨n, hle, hn⟩ := h.numbered session hmem
    exact ⟨n, Nat.le_add_right_of_le hle, hn⟩
  · intro session hmem
    obtain ⟨n, hle, hn⟩ := h.logical session hmem
    exact ⟨n, Nat.le_add_right_of_le hle, hn⟩
  · intro windowID logicalID hbound
    obtain ⟨n, hle, hn⟩ := h.bound_numbered windowID logicalID hbound
    exact ⟨n, Nat.le_add_right_of_le hle, hn⟩

/-- The bindings grow by one that is placed. -/
theorem bindings_of_placed (h : Consistent o) (hplaced : Placed o windowID logicalID)
    (hgrow : ∀ w l, Bound o' w l → Bound o w l ∨ w = windowID ∧ l = logicalID)
    (hnext : o'.nextWindow = o.nextWindow) :
    (∀ w l l', Bound o' w l → Bound o' w l' → l = l') ∧
      ∀ w l, Bound o' w l → ∃ n ≤ o'.nextWindow, w = windowName n := by
  rw [hnext]
  constructor
  · intro w l l' hl hl'
    rcases hgrow w l hl with hold | ⟨rfl, rfl⟩
    · rcases hgrow w l' hl' with hold' | ⟨rfl, rfl⟩
      · exact h.bound_unique w l l' hold hold'
      · exact hplaced.unique l hold
    · rcases hgrow _ l' hl' with hold' | ⟨-, rfl⟩
      · exact (hplaced.unique l' hold').symm
      · rfl
  · intro w l hl
    rcases hgrow w l hl with hold | ⟨rfl, -⟩
    · exact h.bound_numbered w l hold
    · exact hplaced.numbered

theorem place (h : Consistent o) (hplaced : Placed o windowID logicalID) {store : Store}
    (hgrow : ∀ w l, store.Bound w l → o.store.Bound w l ∨ w = windowID ∧ l = logicalID) :
    Consistent { o with store } := by
  have hbound : ∀ w l, Bound { o with store } w l → Bound o w l ∨ w = windowID ∧ l = logicalID := by
    rintro w l (hmem | hrow)
    · exact .inl (.inl hmem)
    · exact (hgrow w l hrow).imp_left .inr
  obtain ⟨hunique, hnumbered⟩ := h.bindings_of_placed hplaced hbound rfl
  exact { h with bound_unique := hunique, bound_numbered := hnumbered }

theorem shrink (h : Consistent o) {store : Store}
    (hshrink : ∀ w l, store.Bound w l → o.store.Bound w l) : Consistent { o with store } := by
  have hbound : ∀ w l, Bound { o with store } w l → Bound o w l :=
    fun w l hl => hl.imp_right (hshrink w l)
  exact { h with
    bound_unique := fun w l l' hl hl' => h.bound_unique w l l' (hbound w l hl) (hbound w l' hl')
    bound_numbered := fun w l hl => h.bound_numbered w l (hbound w l hl) }

theorem register (h : Consistent o) (hsession : Admissible o session) :
    Consistent { o with sessions := register o.sessions session } := by
  have hmem : ∀ other, other ∈ Mux.register o.sessions session →
      other ∈ o.sessions ∨ other = session :=
    fun other hother => (mem_register.mp hother).imp_left And.left
  have hbound : ∀ w l, Bound { o with sessions := Mux.register o.sessions session } w l →
      Bound o w l ∨ w = session.windowID ∧ l = session.logicalSessionID := by
    rintro w l (⟨other, hother, rfl, rfl⟩ | hrow)
    · rcases hmem other hother with hold | rfl
      · exact .inl (bound hold)
      · exact .inr ⟨rfl, rfl⟩
    · exact .inl (.inr hrow)
  obtain ⟨hunique, hnumbered⟩ := h.bindings_of_placed hsession.placed hbound rfl
  refine ⟨fun other hother => ?_, fun other hother => ?_, ?_, fun other hother => ?_,
    fun left hleft right hright hsame => ?_, h.layouts, hunique, hnumbered⟩
  · rcases hmem other hother with hold | rfl
    · exact h.numbered other hold
    · exact hsession.numbered
  · rcases hmem other hother with hold | rfl
    · exact h.logical other hold
    · exact hsession.logical
  · have hfilter : o.sessions.filter (·.id ≠ session.id) = o.sessions :=
      List.filter_eq_self.mpr fun other hother => by simpa using hsession.fresh other hother
    rw [Mux.register, hfilter, List.map_append, List.nodup_append']
    refine ⟨h.nodup, List.nodup_singleton _, fun id hid hnew => ?_⟩
    obtain ⟨other, hother, rfl⟩ := List.mem_map.mp hid
    exact hsession.fresh other hother (List.mem_singleton.mp hnew)
  · rcases hmem other hother with hold | rfl
    · exact h.named other hold
    · exact hsession.named
  · rcases hmem left hleft with hold | rfl
    · rcases hmem right hright with hold' | rfl
      · exact h.project left hold right hold' hsame
      · exact hsession.project left hold hsame
    · rcases hmem right hright with hold' | rfl
      · exact (hsession.project right hold' hsame.symm).symm
      · rfl

theorem unregister (h : Consistent o) (sessionID : String) :
    Consistent { o with sessions := unregister o.sessions sessionID } := by
  have hmem : ∀ other, other ∈ Mux.unregister o.sessions sessionID → other ∈ o.sessions :=
    fun other hother => (mem_unregister.mp hother).1
  have hbound : ∀ w l, Bound { o with sessions := Mux.unregister o.sessions sessionID } w l →
      Bound o w l := by
    rintro w l (⟨other, hother, rfl, rfl⟩ | hrow)
    · exact bound (hmem other hother)
    · exact .inr hrow
  exact { h with
    numbered := fun other hother => h.numbered other (hmem other hother)
    logical := fun other hother => h.logical other (hmem other hother)
    nodup := h.nodup.sublist (List.filter_sublist.map _)
    named := fun other hother => h.named other (hmem other hother)
    project := fun left hleft right hright =>
      h.project left (hmem left hleft) right (hmem right hright)
    bound_unique := fun w l l' hl hl' => h.bound_unique w l l' (hbound w l hl) (hbound w l' hl')
    bound_numbered := fun w l hl => h.bound_numbered w l (hbound w l hl) }

theorem change (h : Consistent o) {f : ManagedSession → ManagedSession}
    (hsame : ∀ session ∈ o.sessions, SameIdentity session (f session)) :
    Consistent { o with sessions := o.sessions.map f } := by
  have hids : (o.sessions.map f).map (·.id) = o.sessions.map (·.id) := by
    rw [List.map_map]
    exact List.map_congr_left fun session hmem => (hsame session hmem).id
  have hbound : ∀ w l, Bound { o with sessions := o.sessions.map f } w l → Bound o w l := by
    rintro w l (⟨other, hother, rfl, rfl⟩ | hrow)
    · obtain ⟨session, hmem, rfl⟩ := List.mem_map.mp hother
      rw [(hsame session hmem).windowID, (hsame session hmem).logicalSessionID]
      exact bound hmem
    · exact .inr hrow
  have hnodup : ((o.sessions.map f).map (·.id)).Nodup := by
    rw [hids]
    exact h.nodup
  have horigin : ∀ other ∈ o.sessions.map f, ∃ session ∈ o.sessions,
      SameIdentity session other := by
    intro other hother
    obtain ⟨session, hmem, rfl⟩ := List.mem_map.mp hother
    exact ⟨session, hmem, hsame session hmem⟩
  refine { h with
    numbered := fun other hother => ?_
    logical := fun other hother => ?_
    nodup := hnodup
    named := fun other hother => ?_
    project := fun left hleft right hright hlogical => ?_
    bound_unique := fun w l l' hl hl' => h.bound_unique w l l' (hbound w l hl) (hbound w l' hl')
    bound_numbered := fun w l hl => h.bound_numbered w l (hbound w l hl) }
  · obtain ⟨session, hmem, hkept⟩ := horigin other hother
    rw [hkept.id, hkept.paneID]
    exact h.numbered session hmem
  · obtain ⟨session, hmem, hkept⟩ := horigin other hother
    rw [hkept.logicalSessionID]
    exact h.logical session hmem
  · obtain ⟨session, hmem, hkept⟩ := horigin other hother
    rw [hkept.projectID]
    exact h.named session hmem
  · obtain ⟨session, hmem, hkept⟩ := horigin left hleft
    obtain ⟨session', hmem', hkept'⟩ := horigin right hright
    rw [hkept.logicalSessionID, hkept'.logicalSessionID] at hlogical
    rw [hkept.projectID, hkept'.projectID]
    exact h.project session hmem session' hmem' hlogical

theorem topology (h : Consistent o) {state : TopologyState} (hstate : state.LayoutsProper) :
    Consistent { o with topologyState := setAt o.topologyState logicalID state } := by
  refine { h with layouts := fun other => ?_ }
  simp only [setAt]
  split
  · exact hstate
  · exact h.layouts other

/-- **Updates keep the daemon consistent.** -/
theorem update (h : Consistent o) (hupdate : Update scope o o') : Consistent o' := by
  cases hupdate with
  | quiet hquiet => exact h.quiet hquiet
  | allocate sessions windows => exact h.allocate sessions windows
  | register session _ hsession => exact h.register hsession
  | unregister sessionID _ => exact h.unregister sessionID
  | change f hf => exact h.change fun session hmem => sameIdentity_of_change (hf session hmem)
  | topology logicalID state _ hstate => exact h.topology hstate
  | select session active _ => exact { h with }
  | place store windowID logicalID hplaced hgrow => exact h.place hplaced hgrow
  | shrink store hshrink => exact h.shrink hshrink

theorem updates (h : Consistent o) (hupdates : Updates scope o o') : Consistent o' := by
  induction hupdates with
  | refl => exact h
  | tail _ hupdate ih => exact ih.update hupdate

theorem fresh (persistencePath topologyEpoch : String) (persistScrollback : Bool) (lines : ℕ) :
    Consistent (.fresh persistencePath topologyEpoch persistScrollback lines) := by
  have hnone : ∀ session, session ∉
      (Operations.fresh persistencePath topologyEpoch persistScrollback lines).sessions :=
    fun _ => List.not_mem_nil
  refine ⟨fun _ hmem => absurd hmem (hnone _), fun _ hmem => absurd hmem (hnone _),
    List.nodup_nil, fun _ hmem => absurd hmem (hnone _), fun _ hmem => absurd hmem (hnone _),
    fun _ _ => ⟨.nil, List.nodup_nil⟩, ?_, ?_⟩
  · rintro w l l' (⟨_, hmem, -⟩ | ⟨_, hmem, -⟩ | ⟨_, hmem, -⟩) <;> exact nomatch hmem
  · rintro w l (⟨_, hmem, -⟩ | ⟨_, hmem, -⟩ | ⟨_, hmem, -⟩) <;> exact nomatch hmem

end Consistent

/-! ### Scope -/

/-- A group of sessions that is told by who they are. -/
def ByIdentity (group : ManagedSession → Prop) : Prop :=
  ∀ session session', SameIdentity session session' → (group session' ↔ group session)

theorem byIdentity_id (sessionID : String) : ByIdentity (·.id = sessionID) :=
  fun _ _ h => by simp only [h.id]

theorem byIdentity_paneID (paneID : String) : ByIdentity (·.paneID = paneID) :=
  fun _ _ h => by simp only [h.paneID]

theorem byIdentity_logical (logicalID : String) : ByIdentity (logicalSessionID · = logicalID) :=
  fun _ _ h => by simp only [h.logical]

namespace InScope

variable {group : ManagedSession → Prop}

theorem update (hgroup : ByIdentity group) (h : InScope scope o group)
    (hupdate : Update scope o o') : InScope scope o' group := by
  cases hupdate with
  | quiet hquiet =>
    rw [InScope, hquiet.sessions]
    exact h
  | register session hscope _ =>
    intro other hother hin
    rcases mem_register.mp hother with ⟨hold, -⟩ | rfl
    · exact h other hold hin
    · exact hscope
  | unregister sessionID _ => exact fun other hother => h other (mem_unregister.mp hother).1
  | change f hf =>
    refine List.forall_mem_map.mpr fun session hmem hin => ?_
    have hsame := sameIdentity_of_change (hf session hmem)
    rw [hsame.projectID]
    exact h session hmem ((hgroup _ _ hsame).mp hin)
  | _ => exact h

/-- **A group of sessions in scope stays in scope.** -/
theorem updates (hgroup : ByIdentity group) (h : InScope scope o group)
    (hupdates : Updates scope o o') : InScope scope o' group := by
  induction hupdates with
  | refl => exact h
  | tail _ hupdate ih => exact ih.update hgroup hupdate

theorem univ (o : Operations) (group : ManagedSession → Prop) : InScope (fun _ => True) o group :=
  fun _ _ _ => trivial

/-- The sessions of a logical session are in scope with one of them. -/
theorem of_logical (hconsistent : Consistent o) (hmem : session ∈ o.sessions)
    (hscope : scope session.projectID) (hlogical : logicalSessionID session = logicalID) :
    InScope scope o (logicalSessionID · = logicalID) := by
  intro other hother hsame
  rw [hconsistent.project_of_logical hother hmem (hsame.trans hlogical.symm)]
  exact hscope

theorem of_paneID (hconsistent : Consistent o) (hmem : session ∈ o.sessions)
    (hscope : scope session.projectID) : InScope scope o (·.paneID = session.paneID) := by
  intro other hother hsame
  rw [hconsistent.eq_of_paneID hother hmem hsame]
  exact hscope

theorem of_id (hconsistent : Consistent o) (hmem : session ∈ o.sessions)
    (hscope : scope session.projectID) : InScope scope o (·.id = session.id) := by
  intro other hother hsame
  rw [hconsistent.eq_of_id hother hmem hsame]
  exact hscope

end InScope

end AgentCockpit.Mux
