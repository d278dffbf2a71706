import AgentCockpit.Core.FirstFree
import AgentCockpit.Projects.ProjectTable

/-!
# Labels of remote projects

The label of a remote project begins with the name of its directory. Labels that do not are replaced
once: by the name, by the name with the user and the host behind it if that is taken, or by the
first number behind these that makes a free label. The labels that stay are taken from the start.

## Main results

* `relabel_remote_projects` — **stale projects get labels of their own and all others stay, a second
  time changes nothing, and labels are found**
-/

namespace AgentCockpit.Projects

open AgentCockpit.Core

/-! ### Labels -/

/-- The last name of a path, without the slashes behind it. -/
def posixBasename (path : Text) : Text := (path.rdropWhile (· = '/')).rtakeWhile (· ≠ '/')

def remotePosixBasename (remotePath : Text) : Text :=
  let trimmed := remotePath.rdropWhile (· = '/')
  let last := posixBasename trimmed
  if last = [] then remotePath else last

def qualifiedLabel (base user host : Text) : Text :=
  base ++ " (".toList ++ user ++ "@".toList ++ host ++ ")".toList

def numberedLabel (qualified : Text) (n : ℕ) : Text := qualified ++ ' ' :: Nat.toDigits 10 n

theorem numberedLabel_injective (qualified : Text) : (numberedLabel qualified).Injective := by
  intro n m h
  have hdigits : Nat.toDigits 10 n = Nat.toDigits 10 m :=
    (List.cons.inj (List.append_cancel_left h)).2
  rw [← Nat.ofDigitChars_ten_toDigits (n := n), hdigits, Nat.ofDigitChars_ten_toDigits]

def computeRemoteLabel (base user host : Text) (alreadyUsed : Finset Text) : Text :=
  if base ∉ alreadyUsed then base
  else
    let qualified := qualifiedLabel base user host
    if qualified ∉ alreadyUsed then qualified
    else numberedLabel qualified
      (firstFree (numberedLabel qualified) (numberedLabel_injective qualified) alreadyUsed 2)

def isAlreadyNameFirst (label base : Text) : Prop := label = base ∨ base ++ " (".toList <+: label

instance (label base : Text) : Decidable (isAlreadyNameFirst label base) :=
  inferInstanceAs (Decidable (_ ∨ _))

theorem computeRemoteLabel_notMem (base user host : Text) (alreadyUsed : Finset Text) :
    computeRemoteLabel base user host alreadyUsed ∉ alreadyUsed := by
  rw [computeRemoteLabel]
  dsimp only
  split
  · assumption
  · split
    · assumption
    · exact firstFree_notMem (numberedLabel_injective _) alreadyUsed 2

theorem isAlreadyNameFirst_computeRemoteLabel (base user host : Text) (alreadyUsed : Finset Text) :
    isAlreadyNameFirst (computeRemoteLabel base user host alreadyUsed) base := by
  have hqualified : base ++ " (".toList <+: qualifiedLabel base user host := by
    rw [qualifiedLabel, List.append_assoc, List.append_assoc, List.append_assoc]
    exact List.prefix_append _ _
  rw [computeRemoteLabel]
  dsimp only
  split
  · exact .inl rfl
  · split
    · exact .inr hqualified
    · exact .inr (hqualified.trans (List.prefix_append _ _))

/-! ### The two passes -/

/-- A row whose connection is remote. -/
structure RemoteRow where
  row : ProjectRow
  conn : RemoteConnectionSpec
  connection_eq : row.connection = .remote conn

def ProjectRow.remote? (row : ProjectRow) : Option RemoteRow :=
  match h : row.connection with
  | .local_ _ => none
  | .remote conn => some ⟨row, conn, h⟩

/-- The remote projects as they are listed. -/
def remoteRows (table : ProjectTable) : List RemoteRow :=
  sortBy (·.row.key) (table.rows.filterMap ProjectRow.remote?)

namespace RemoteRow

def base (remote : RemoteRow) : Text := remotePosixBasename remote.conn.remotePath

def NameFirst (remote : RemoteRow) : Prop := isAlreadyNameFirst remote.row.label remote.base

instance (remote : RemoteRow) : Decidable remote.NameFirst :=
  inferInstanceAs (Decidable (isAlreadyNameFirst _ _))

end RemoteRow

/-- The labels that stay. -/
def keptLabels (rows : List RemoteRow) : Finset Text :=
  rows.foldl (fun assigned remote =>
    if remote.NameFirst then insert remote.row.label assigned else assigned) ∅

def ProjectTable.setLabel (table : ProjectTable) (id label : Text) : ProjectTable :=
  table.update (fun row => if row.id = id then { row with label } else row)
    fun row => by split <;> rfl

/-- The second pass. -/
structure RelabelPass where
  table : ProjectTable
  assignedLabels : Finset Text
  count : ℕ

def RelabelPass.relabelRow (pass : RelabelPass) (remote : RemoteRow) : RelabelPass :=
  if remote.NameFirst then pass
  else
    let newLabel := computeRemoteLabel remote.base remote.conn.user remote.conn.host
      pass.assignedLabels
    { table := pass.table.setLabel remote.row.id newLabel
      assignedLabels := insert newLabel pass.assignedLabels
      count := pass.count + 1 }

/-- The table with new labels, and how many there are. -/
def relabelRemoteProjectsOn (table : ProjectTable) : ProjectTable × ℕ :=
  let rows := remoteRows table
  if rows.isEmpty then (table, 0)
  else
    let pass := rows.foldl RelabelPass.relabelRow ⟨table, keptLabels rows, 0⟩
    (pass.table, pass.count)

/-- A remote project whose label does not begin with its name. -/
def Stale (row : ProjectRow) : Prop := ∃ remote ∈ row.remote?, ¬ remote.NameFirst

/-! ### Remote rows -/

section Rows

variable {table : ProjectTable} {row : ProjectRow} {remote other : RemoteRow}

theorem remote?_eq_some_iff : row.remote? = some remote ↔ remote.row = row := by
  rw [ProjectRow.remote?]
  split
  · next rootPath hconnection =>
    refine iff_of_false (Option.some_ne_none _).symm ?_
    rintro rfl
    cases hconnection.symm.trans remote.connection_eq
  · next conn hconnection =>
    constructor
    · intro h
      obtain rfl := Option.some.inj h
      rfl
    · rintro rfl
      obtain ⟨row, conn', hconn'⟩ := remote
      obtain rfl := ConnectionSpec.remote.inj (hconnection.symm.trans hconn')
      rfl

theorem RemoteRow.eq_of_row (h : remote.row = other.row) : remote = other :=
  Option.some.inj ((remote?_eq_some_iff.mpr h).symm.trans (remote?_eq_some_iff.mpr rfl))

theorem stale_iff : Stale remote.row ↔ ¬ remote.NameFirst := by
  rw [Stale, remote?_eq_some_iff.mpr rfl]
  simp only [Option.mem_some_iff, exists_eq_left']

theorem mem_remoteRows : remote ∈ remoteRows table ↔ remote.row ∈ table.rows := by
  rw [remoteRows, mem_sortBy, List.mem_filterMap]
  simp only [remote?_eq_some_iff]
  constructor
  · rintro ⟨row, hrow, rfl⟩
    exact hrow
  · exact fun hrow => ⟨remote.row, hrow, rfl⟩

theorem nodup_remoteRows (table : ProjectTable) : (remoteRows table).Nodup := by
  have hrows : table.rows.Nodup := table.nodup.of_map _
  refine (perm_sortBy _ _).nodup_iff.mpr (hrows.filterMap fun row row' remote h h' => ?_)
  exact (remote?_eq_some_iff.mp h).symm.trans (remote?_eq_some_iff.mp h')

/-- The first pass takes the labels that stay. -/
theorem mem_keptLabels {rows : List RemoteRow} (h : remote ∈ rows) (hname : remote.NameFirst) :
    remote.row.label ∈ keptLabels rows := by
  have hfold : ∀ (rows : List RemoteRow) (assigned : Finset Text),
      remote.row.label ∈ assigned ∨ remote ∈ rows →
        remote.row.label ∈ rows.foldl (fun assigned remote =>
          if remote.NameFirst then insert remote.row.label assigned else assigned) assigned := by
    intro rows
    induction rows with
    | nil => exact fun _ hor => hor.resolve_right List.not_mem_nil
    | cons first rows ih =>
      intro assigned hor
      rw [List.foldl_cons]
      refine ih _ ?_
      rcases hor with hlabel | hmem
      · left
        split
        · exact Finset.mem_insert_of_mem hlabel
        · exact hlabel
      · rcases List.mem_cons.mp hmem with rfl | hmem
        · left
          rw [if_pos hname]
          exact Finset.mem_insert_self _ _
        · exact .inr hmem
  exact hfold rows ∅ (.inr h)

end Rows

/-! ### Relabelling -/

/-- The rows that are done have labels of their own, and the others those that they had. -/
structure Relabels (table : ProjectTable) (done : List RemoteRow) (pass : RelabelPass)
    (label : ProjectRow → Text) : Prop where
  rows : pass.table.rows = table.rows.map fun row => { row with label := label row }
  kept : ∀ row : ProjectRow, (¬ Stale row ∨ ∀ remote ∈ done, remote.row ≠ row) →
    label row = row.label
  fresh : ∀ remote ∈ done, ¬ remote.NameFirst →
    isAlreadyNameFirst (label remote.row) remote.base ∧ label remote.row ∈ pass.assignedLabels
  occupied : ∀ remote ∈ remoteRows table, remote.NameFirst →
    remote.row.label ∈ pass.assignedLabels
  apart : ∀ remote ∈ done, ¬ remote.NameFirst → ∀ other ∈ remoteRows table, other ≠ remote →
    other.NameFirst ∨ other ∈ done → label other.row ≠ label remote.row

namespace Relabels

variable {table : ProjectTable} {done todo : List RemoteRow} {pass : RelabelPass}
  {label : ProjectRow → Text} {remote other : RemoteRow}

theorem initial (table : ProjectTable) (count : ℕ) :
    Relabels table [] ⟨table, keptLabels (remoteRows table), count⟩ (·.label) where
  rows := (List.map_id _).symm
  kept _ _ := rfl
  fresh _ hmem := absurd hmem List.not_mem_nil
  occupied _ hmem hname := mem_keptLabels hmem hname
  apart _ hmem := absurd hmem List.not_mem_nil

/-- A label that is kept or was given is taken. -/
theorem label_mem (h : Relabels table done pass label) (hmem : other ∈ remoteRows table)
    (hother : other.NameFirst ∨ other ∈ done) : label other.row ∈ pass.assignedLabels := by
  by_cases hname : other.NameFirst
  · rw [h.kept other.row (.inl fun hstale => stale_iff.mp hstale hname)]
    exact h.occupied other hmem hname
  · exact (h.fresh other (hother.resolve_left hname) hname).2

theorem rows_setLabel (h : Relabels table done pass label) (hmem : remote ∈ remoteRows table)
    (newLabel : Text) :
    (pass.table.setLabel remote.row.id newLabel).rows = table.rows.map fun row =>
      { row with label := Function.update label remote.row newLabel row } := by
  rw [ProjectTable.setLabel, ProjectTable.rows_update, h.rows, List.map_map]
  refine List.map_congr_left fun row hrow => ?_
  dsimp only [Function.comp_apply]
  by_cases hid : row.id = remote.row.id
  · obtain rfl := ProjectTable.eq_of_id hrow (mem_remoteRows.mp hmem) hid
    rw [if_pos rfl, Function.update_self]
  · rw [if_neg hid, Function.update_of_ne fun heq => hid (congrArg ProjectRow.id heq)]

/-- **Relabelling one row.** -/
theorem relabelRow (h : Relabels table done pass label) (hmem : remote ∈ remoteRows table)
    (hdone : remote ∉ done) :
    ∃ label', Relabels table (done ++ [remote]) (pass.relabelRow remote) label' := by
  have hnew : ∀ {other : RemoteRow}, other ∈ done ++ [remote] → other ≠ remote → other ∈ done :=
    fun hother hne => (List.mem_append.mp hother).resolve_right fun hlast =>
      hne (List.mem_singleton.mp hlast)
  by_cases hname : remote.NameFirst
  · -- a row with a current label is left alone
    rw [RelabelPass.relabelRow, if_pos hname]
    refine ⟨label, h.rows, fun row hrow => ?_, fun other hother hstale => ?_, h.occupied,
      fun first hfirst hstale other hother hne hor => ?_⟩
    · exact h.kept row (hrow.imp_right fun hrest first hfirst =>
        hrest first (List.mem_append_left _ hfirst))
    · exact h.fresh other (hnew hother fun heq => hstale (heq ▸ hname)) hstale
    · refine h.apart first (hnew hfirst fun heq => hstale (heq ▸ hname)) hstale other hother hne ?_
      by_cases heq : other = remote
      · exact .inl (heq ▸ hname)
      · exact hor.imp_right fun hlate => hnew hlate heq
  · -- only two facts about the new label are used: it is free, and it begins with the name
    have hfree := computeRemoteLabel_notMem remote.base remote.conn.user remote.conn.host
      pass.assignedLabels
    have hfirst := isAlreadyNameFirst_computeRemoteLabel remote.base remote.conn.user
      remote.conn.host pass.assignedLabels
    rw [RelabelPass.relabelRow, if_neg hname]
    generalize computeRemoteLabel remote.base remote.conn.user remote.conn.host
      pass.assignedLabels = newLabel at hfree hfirst ⊢
    have hother {other : RemoteRow} (hne : other ≠ remote) :
        Function.update label remote.row newLabel other.row = label other.row :=
      Function.update_of_ne (fun heq => hne (RemoteRow.eq_of_row heq)) _ _
    refine ⟨Function.update label remote.row newLabel, h.rows_setLabel hmem newLabel,
      fun row hrow => ?_, fun other hmem' hstale => ?_, fun other hmem' hname' => ?_,
      fun given hgiven hstale other hmem' hne hor => ?_⟩
    · have hne : row ≠ remote.row := by
        rintro rfl
        rcases hrow with hfine | hrest
        · exact hfine (stale_iff.mpr hname)
        · exact hrest remote (List.mem_append_right _ List.mem_cons_self) rfl
      rw [Function.update_of_ne hne]
      exact h.kept row (hrow.imp_right fun hrest first hfirst =>
        hrest first (List.mem_append_left _ hfirst))
    · by_cases heq : other = remote
      · subst heq
        rw [Function.update_self]
        exact ⟨hfirst, Finset.mem_insert_self _ _⟩
      · rw [hother heq]
        exact (h.fresh other (hnew hmem' heq) hstale).imp_right Finset.mem_insert_of_mem
    · exact Finset.mem_insert_of_mem (h.occupied other hmem' hname')
    · -- the new label is not taken, and those given before were apart already
      by_cases hlast : given = remote
      · subst hlast
        rw [hother hne, Function.update_self]
        have htaken := h.label_mem hmem' (hor.imp_right fun hlate => hnew hlate hne)
        exact fun heq => hfree (heq ▸ htaken)
      · have hgiven' := hnew hgiven hlast
        rw [hother hlast]
        by_cases heq : other = remote
        · subst heq
          rw [Function.update_self]
          exact fun heq => hfree (heq ▸ (h.fresh given hgiven' hstale).2)
        · rw [hother heq]
          exact h.apart given hgiven' hstale other hmem' hne (hor.imp_right fun hlate =>
            hnew hlate heq)

theorem foldl (h : Relabels table done pass label) (hrows : remoteRows table = done ++ todo) :
    ∃ label',
      Relabels table (remoteRows table) (todo.foldl RelabelPass.relabelRow pass) label' := by
  induction todo generalizing done pass label with
  | nil =>
    rw [List.append_nil] at hrows
    exact ⟨label, hrows ▸ h⟩
  | cons remote todo ih =>
    have hmem : remote ∈ remoteRows table := hrows ▸ List.mem_append_right _ List.mem_cons_self
    -- no row comes twice
    have hdone : remote ∉ done := fun hmem' => by
      have hnodup := nodup_remoteRows table
      rw [hrows] at hnodup
      exact (List.nodup_append.mp hnodup).2.2 _ hmem' _ List.mem_cons_self rfl
    obtain ⟨label', hnext⟩ := h.relabelRow hmem hdone
    rw [List.foldl_cons]
    exact ih hnext (by rw [hrows, List.append_assoc, List.singleton_append])

end Relabels

section Results

variable {table : ProjectTable} {row row' : ProjectRow}

/-- The labels at the end of the second pass. -/
theorem exists_relabels (table : ProjectTable) : ∃ pass label,
    Relabels table (remoteRows table) pass label ∧
      (relabelRemoteProjectsOn table).1 = pass.table := by
  have hinitial := Relabels.initial table 0
  rw [relabelRemoteProjectsOn]
  dsimp only
  split
  · next hempty =>
    have hrows : remoteRows table = [] := List.isEmpty_iff.mp hempty
    exact ⟨_, _, hrows.symm ▸ hinitial, rfl⟩
  · obtain ⟨label, hlabels⟩ := hinitial.foldl (List.nil_append _).symm
    exact ⟨_, label, hlabels, rfl⟩

theorem foldl_relabelRow_of_nameFirst {rows : List RemoteRow}
    (h : ∀ remote ∈ rows, remote.NameFirst) (pass : RelabelPass) :
    rows.foldl RelabelPass.relabelRow pass = pass := by
  induction rows with
  | nil => rfl
  | cons remote rows ih =>
    rw [List.foldl_cons, RelabelPass.relabelRow, if_pos (h remote List.mem_cons_self)]
    exact ih fun other hother => h other (List.mem_cons_of_mem _ hother)

/-- Where no project is stale there is nothing to do. -/
theorem relabel_of_nameFirst (h : ∀ remote ∈ remoteRows table, remote.NameFirst) :
    relabelRemoteProjectsOn table = (table, 0) := by
  rw [relabelRemoteProjectsOn]
  dsimp only
  split
  · rfl
  · rw [foldl_relabelRow_of_nameFirst h]

/-- What relabelling makes of a row: at most its label changes, it changes for a stale project only,
and then to one that begins with the name. -/
structure Relabelled (row row' : ProjectRow) : Prop where
  eq : row' = { row with label := row'.label }
  same : ¬ Stale row → row' = row
  nameFirst : ∀ remote ∈ row'.remote?, remote.NameFirst

theorem Relabels.relabelled {pass : RelabelPass} {label : ProjectRow → Text}
    (h : Relabels table (remoteRows table) pass label) (hrow : row ∈ table.rows) :
    Relabelled row { row with label := label row } where
  eq := rfl
  same hstale := by rw [h.kept row (.inl hstale)]
  nameFirst remote hremote := by
    have heq := remote?_eq_some_iff.mp hremote
    obtain ⟨row', conn, hconn⟩ := remote
    obtain rfl : row' = { row with label := label row } := heq
    by_cases hstale : Stale row
    · have hold : ¬ (⟨row, conn, hconn⟩ : RemoteRow).NameFirst := stale_iff.mp hstale
      exact (h.fresh ⟨row, conn, hconn⟩ (mem_remoteRows.mpr hrow) hold).1
    · have hname : (⟨row, conn, hconn⟩ : RemoteRow).NameFirst :=
        not_not.mp (mt stale_iff.mpr hstale)
      change isAlreadyNameFirst (label row) (remotePosixBasename conn.remotePath)
      rw [h.kept row (.inl hstale)]
      exact hname

/-- **Relabelling.** All rows but those of stale projects stay as they are; stale projects get
labels that begin with their names and that no other remote project has; a second time changes
nothing; and the search for a label ends. -/
theorem relabel_remote_projects (table : ProjectTable) :
    List.Forall₂ Relabelled table.rows (relabelRemoteProjectsOn table).1.rows ∧
      (∀ row ∈ table.rows, Stale row → ∀ row' ∈ (relabelRemoteProjectsOn table).1.rows,
        row'.id = row.id → ∀ other ∈ (relabelRemoteProjectsOn table).1.rows,
          other.kind = .remote → other.id ≠ row.id → other.label ≠ row'.label) ∧
      relabelRemoteProjectsOn (relabelRemoteProjectsOn table).1 =
        ((relabelRemoteProjectsOn table).1, 0) ∧
      ∀ (base user host : Text) (alreadyUsed : Finset Text), ∃ n,
        Reaches (countUp (numberedLabel (qualifiedLabel base user host)) alreadyUsed) Always 2 n ∧
          countUp (numberedLabel (qualifiedLabel base user host)) alreadyUsed n () = none := by
  obtain ⟨pass, label, hlabels, hpass⟩ := exists_relabels table
  have hrows : (relabelRemoteProjectsOn table).1.rows =
      table.rows.map fun row => { row with label := label row } := by rw [hpass, hlabels.rows]
  refine ⟨?_, fun row hrow hstale row' hrow' hid other hother hkind hne => ?_, ?_,
    fun base user host alreadyUsed => ?_⟩
  · rw [hrows, List.forall₂_map_right_iff]
    exact List.forall₂_same.mpr fun row hrow => hlabels.relabelled hrow
  · rw [hrows] at hrow' hother
    obtain ⟨row₁, hrow₁, rfl⟩ := List.mem_map.mp hrow'
    obtain ⟨row₂, hrow₂, rfl⟩ := List.mem_map.mp hother
    obtain rfl : row₁ = row := ProjectTable.eq_of_id hrow₁ hrow hid
    obtain ⟨remote, hremote, hname⟩ := hstale
    obtain rfl := remote?_eq_some_iff.mp hremote
    obtain ⟨conn, hconn⟩ : ∃ conn, row₂.connection = .remote conn := by
      cases hconnection : row₂.connection with
      | local_ rootPath =>
        rw [ProjectRow.kind, hconnection] at hkind
        cases hkind
      | remote conn => exact ⟨conn, rfl⟩
    have hmem : (⟨row₂, conn, hconn⟩ : RemoteRow) ∈ remoteRows table := mem_remoteRows.mpr hrow₂
    refine hlabels.apart remote (mem_remoteRows.mpr hrow) hname _ hmem ?_ (.inr hmem)
    rintro rfl
    exact hne rfl
  · refine relabel_of_nameFirst fun remote hremote => ?_
    -- after the first time every label begins with its name
    have hrow := mem_remoteRows.mp hremote
    rw [hrows] at hrow
    obtain ⟨row, hrow, heq⟩ := List.mem_map.mp hrow
    exact (hlabels.relabelled hrow).nameFirst remote (remote?_eq_some_iff.mpr heq.symm)
  · exact ⟨_, reaches_firstFree (numberedLabel_injective _) alreadyUsed 2,
      countUp_firstFree (numberedLabel_injective _) alreadyUsed 2⟩

end Results

end AgentCockpit.Projects
