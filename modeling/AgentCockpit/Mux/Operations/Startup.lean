import AgentCockpit.Mux.Operations.Roster

/-!
# Daemons that start over a catalog

A daemon that starts over a home brings back the panes of its catalog, or else the one pane of
the legacy record, and continues to count behind the ids it finds. The panes it brings back are
read-only: their processes are gone.
-/

namespace AgentCockpit.Mux

open AgentCockpit.Core

variable {o : Operations}

/-! ### Identifiers -/

/-- A decimal number, without a sign or a separator. -/
def parseUint (digits : String) : Option ℕ :=
  if digits.toList.all Char.isDigit then digits.toNat? else none

/-- The number behind the lead of an id, if it is the larger one. -/
def maxMuxIdentifierSuffix (current : ℕ) (value lead : String) : ℕ :=
  if lead.toList.isPrefixOf value.toList then
    match parseUint (String.ofList (value.toList.drop lead.toList.length)) with
    | some parsed => max current parsed
    | none => current
  else current

/-- Count on behind the ids of a pane. -/
def observeRecoveredIdentifiers (current : ℕ) (session : ManagedSession) : ℕ :=
  maxMuxIdentifierSuffix
    (maxMuxIdentifierSuffix
      (maxMuxIdentifierSuffix current session.id "session-") session.paneID "pane-")
    (logicalSessionID session) "session-"

theorem parseUint_repr (n : ℕ) : parseUint (Nat.repr n) = some n := by
  have hdigits : (Nat.repr n).toList.all Char.isDigit := by
    rw [Nat.toList_repr, List.all_eq_true]
    exact fun c hc => Nat.isDigit_of_mem_toDigits (by omega) (by omega) hc
  rw [parseUint, if_pos hdigits, Nat.toNat?_repr]

theorem le_maxMuxIdentifierSuffix (current : ℕ) (value lead : String) :
    current ≤ maxMuxIdentifierSuffix current value lead := by
  unfold maxMuxIdentifierSuffix
  split
  · split
    · exact Nat.le_max_left _ _
    · exact Nat.le_refl _
  · exact Nat.le_refl _

/-- A number that was handed out is counted. -/
theorem le_maxMuxIdentifierSuffix_append (current : ℕ) (lead : String) (n : ℕ) :
    n ≤ maxMuxIdentifierSuffix current (lead ++ Nat.repr n) lead := by
  have hlead : lead.toList.isPrefixOf (lead ++ Nat.repr n).toList := by
    rw [String.toList_append, List.isPrefixOf_iff_prefix]
    exact List.prefix_append _ _
  rw [maxMuxIdentifierSuffix, if_pos hlead, String.toList_append, List.drop_left,
    String.ofList_toList, parseUint_repr]
  exact Nat.le_max_right _ _

/-- What one pane is known by is counted. -/
theorem le_observeRecoveredIdentifiers {session : ManagedSession} {current n : ℕ}
    (h : session.id = sessionName n ∨ session.paneID = paneName n ∨
      logicalSessionID session = sessionName n) :
    n ≤ observeRecoveredIdentifiers current session := by
  have hkeeps := le_maxMuxIdentifierSuffix
  rcases h with hid | hpane | hlogical
  · refine Nat.le_trans ?_ (Nat.le_trans (hkeeps _ session.paneID "pane-") (hkeeps _ _ _))
    rw [hid]
    exact le_maxMuxIdentifierSuffix_append _ _ _
  · refine Nat.le_trans ?_ (hkeeps _ (logicalSessionID session) "session-")
    rw [hpane]
    exact le_maxMuxIdentifierSuffix_append _ _ _
  · rw [observeRecoveredIdentifiers, hlogical]
    exact le_maxMuxIdentifierSuffix_append _ _ _

/-- The count behind the ids of some panes. -/
def countedSessions (sessions : List ManagedSession) : ℕ :=
  sessions.foldl observeRecoveredIdentifiers 0

theorem le_countedSessions {sessions : List ManagedSession} {session : ManagedSession} {n : ℕ}
    (hmem : session ∈ sessions) (h : session.id = sessionName n ∨ session.paneID = paneName n ∨
      logicalSessionID session = sessionName n) : n ≤ countedSessions sessions := by
  have hkeeps : ∀ (rest : List ManagedSession) (current : ℕ),
      current ≤ rest.foldl observeRecoveredIdentifiers current := by
    intro rest
    induction rest with
    | nil => exact fun _ => Nat.le_refl _
    | cons next rest ih =>
      intro current
      have hkept := le_maxMuxIdentifierSuffix
      exact Nat.le_trans (Nat.le_trans (hkept _ next.id "session-")
        (Nat.le_trans (hkept _ next.paneID "pane-") (hkept _ _ "session-"))) (ih _)
  obtain ⟨before, rest, rfl⟩ := List.append_of_mem hmem
  rw [countedSessions, List.foldl_append, List.foldl_cons]
  exact Nat.le_trans (le_observeRecoveredIdentifiers h) (hkeeps rest _)

/-! ### Panes that are brought back -/

/-- A pane of the catalog, with what became of its recording. -/
def recoveredSession (loadPane : String → Except String Unit) (pane : CatalogPane) :
    ManagedSession where
  id := "recovered-" ++ pane.paneID
  paneID := pane.paneID
  key := pane.key
  projectID := if pane.projectID = "" then "standalone" else pane.projectID
  logicalSessionID := pane.sessionID
  windowID := pane.windowID
  broadcast := pane.broadcast
  pinned := pane.pinned
  attached := (loadPane pane.paneID).isOk
  outputHistory := (loadPane pane.paneID).isOk
  recoveryDiagnostic := match loadPane pane.paneID with
    | .ok _ => ""
    | .error err => err

/-- The pane of the legacy record. -/
def legacySession : ManagedSession where
  id := "recovered-session"
  paneID := "recovered-pane"
  projectID := ""
  logicalSessionID := ""
  windowID := ""
  attached := true
  outputHistory := true

/-- The panes of a catalog as a daemon enters them. -/
def recoveredSessions (loadPane : String → Except String Unit) (store : Store) :
    List ManagedSession :=
  (store.catalogPanes.map (recoveredSession loadPane)).foldl register []

/-- What a daemon has just been started with, as far as its panes go: none, those of its catalog,
or the one of the legacy record. -/
inductive Operations.Launched (o : Operations) : Prop
  | fresh (hsessions : o.sessions = [])
  | recovered (loadPane : String → Except String Unit) (store : Store)
      (hsessions : o.sessions = recoveredSessions loadPane store)
      (hnext : o.nextSession = countedSessions o.sessions)
  | legacy (hsessions : o.sessions = [legacySession])

section Recovered

variable {loadPane : String → Except String Unit} {store : Store} {session : ManagedSession}
variable {sessions entered : List ManagedSession}

theorem mem_foldl_register (h : session ∈ sessions.foldl register entered) :
    session ∈ entered ∨ session ∈ sessions := by
  induction sessions generalizing entered with
  | nil => exact .inl h
  | cons first rest ih =>
    rcases ih h with hold | hnew
    · rcases List.mem_append.mp hold with hkept | hfirst
      · exact .inl (List.mem_filter.mp hkept).1
      · exact .inr (List.mem_singleton.mp hfirst ▸ List.mem_cons_self)
    · exact .inr (List.mem_cons_of_mem _ hnew)

/-- Sessions are entered under distinct ids. -/
theorem nodup_foldl_register (h : (entered.map (·.id)).Nodup) :
    ((sessions.foldl register entered).map (·.id)).Nodup := by
  induction sessions generalizing entered with
  | nil => exact h
  | cons first rest ih =>
    refine ih ?_
    rw [register, List.map_append, List.map_singleton]
    refine (h.sublist (List.filter_sublist.map _)).append (List.nodup_singleton _) ?_
    intro id hmem hfirst
    obtain ⟨old, hold, rfl⟩ := List.mem_map.mp hmem
    exact of_decide_eq_true (List.mem_filter.mp hold).2 (List.mem_singleton.mp hfirst)

theorem mem_recoveredSessions (h : session ∈ recoveredSessions loadPane store) :
    ∃ pane ∈ store.catalogPanes, recoveredSession loadPane pane = session := by
  rcases mem_foldl_register h with hnone | hmem
  · exact absurd hnone List.not_mem_nil
  · exact List.mem_map.mp hmem

/-- A pane of the catalog is in the project of its session. -/
theorem projectID_of_mem_catalogPanes {pane : CatalogPane} (h : pane ∈ store.catalogPanes) :
    (store.sessions.find? (·.id = pane.sessionID)).map (·.projectID) = some pane.projectID := by
  rw [Store.catalogPanes, List.mem_insertionSort] at h
  obtain ⟨row, -, hrow⟩ := List.mem_filterMap.mp h
  split at hrow
  · next session hfound =>
    obtain ⟨_, rfl⟩ := of_ite_some hrow
    rw [hfound]
    rfl
  · exact nomatch hrow

theorem recovered_ne_sessionName (paneID : String) (n : ℕ) :
    "recovered-" ++ paneID ≠ sessionName n := by
  intro h
  have hfirst := congrArg (fun text => text.toList.head?) h
  simp [sessionName] at hfirst

theorem numbered_recovered (hsessions : o.sessions = recoveredSessions loadPane store)
    (hnext : o.nextSession = countedSessions o.sessions) : Numbered o.roster o.nextSession := by
  have hmem : ∀ session ∈ o.sessions, ∃ pane ∈ store.catalogPanes,
      recoveredSession loadPane pane = session := by
    intro session h
    exact mem_recoveredSessions (hsessions ▸ h)
  have hids : (o.sessions.map (·.id)).Nodup := by
    rw [hsessions]
    exact nodup_foldl_register List.nodup_nil
  refine ⟨?_, ?_, fun n hn badge hbadge => ?_, ?_⟩
  · rw [Operations.roster, List.map_map]
    exact hids
  · rw [Operations.roster, List.map_map]
    have hnames : (o.sessions.map (·.paneID)).map ("recovered-" ++ ·) = o.sessions.map (·.id) := by
      rw [List.map_map]
      refine List.map_congr_left fun session h => ?_
      obtain ⟨pane, -, rfl⟩ := hmem session h
      rfl
    exact (hnames ▸ hids).of_map _
  · obtain ⟨session, hsession, rfl⟩ := List.mem_map.mp hbadge
    obtain ⟨pane, -, rfl⟩ := hmem session hsession
    have hcounted := le_countedSessions (n := n) hsession
    rw [← hnext] at hcounted
    refine ⟨recovered_ne_sessionName _ n, fun hpane => ?_, fun hlogical => ?_⟩
    · exact absurd (hcounted (.inr (.inl hpane))) (Nat.not_le_of_lt hn)
    · refine absurd (hcounted (.inr (.inr ?_))) (Nat.not_le_of_lt hn)
      change (if pane.sessionID ≠ "" then pane.sessionID else _) = _
      rw [show pane.sessionID = sessionName n from hlogical, if_pos (sessionName_ne_empty n)]
  · -- the project of a pane is that of the row of its session
    intro first hfirst second hsecond hsame
    obtain ⟨_, hsession, rfl⟩ := List.mem_map.mp hfirst
    obtain ⟨_, hsession', rfl⟩ := List.mem_map.mp hsecond
    obtain ⟨pane, hpane, rfl⟩ := hmem _ hsession
    obtain ⟨other, hother, rfl⟩ := hmem _ hsession'
    have hproject := projectID_of_mem_catalogPanes hpane
    rw [show pane.sessionID = other.sessionID from hsame,
      projectID_of_mem_catalogPanes hother] at hproject
    change (if pane.projectID = "" then _ else pane.projectID) =
      if other.projectID = "" then _ else other.projectID
    rw [Option.some.inj hproject]

end Recovered

namespace Operations.Launched

/-- The ids of a daemon that has just been started are in order. -/
theorem numbered (h : o.Launched) : Numbered o.roster o.nextSession := by
  cases h with
  | fresh hsessions =>
    have hroster : o.roster = [] := by rw [Operations.roster, hsessions, List.map_nil]
    rw [hroster]
    exact ⟨List.nodup_nil, List.nodup_nil, by simp, fun _ hmem => absurd hmem List.not_mem_nil⟩
  | recovered loadPane store hsessions hnext => exact numbered_recovered hsessions hnext
  | legacy hsessions =>
    have hroster : o.roster = [legacySession.badge] := by
      rw [Operations.roster, hsessions, List.map_singleton]
    rw [hroster]
    refine ⟨List.nodup_singleton _, List.nodup_singleton _, fun n _ => ?_, ?_⟩
    · refine List.forall_mem_singleton.mpr ⟨?_, ?_, (sessionName_ne_empty n).symm⟩
      · exact recovered_ne_sessionName "session" n
      · intro h
        have hfirst := congrArg (fun text => text.toList[0]?) h
        simp [legacySession, ManagedSession.badge, paneName] at hfirst
    · intro first hfirst second hsecond _
      rw [List.mem_singleton.mp hfirst, List.mem_singleton.mp hsecond]

/-- No pane that is brought back carries a scope. -/
theorem broadcastScope_eq (h : o.Launched) {badge : Badge} (hbadge : badge ∈ o.roster) :
    badge.broadcastScope = "" := by
  obtain ⟨session, hsession, rfl⟩ := List.mem_map.mp hbadge
  cases h with
  | fresh hsessions =>
    rw [hsessions] at hsession
    exact absurd hsession List.not_mem_nil
  | recovered loadPane store hsessions hnext =>
    rw [hsessions] at hsession
    obtain ⟨pane, -, rfl⟩ := mem_recoveredSessions hsession
    rfl
  | legacy hsessions =>
    rw [hsessions] at hsession
    rw [List.mem_singleton.mp hsession]
    rfl

end Operations.Launched

end AgentCockpit.Mux
