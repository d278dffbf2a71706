import Mathlib.Data.List.Basic
import Mathlib.Data.List.Induction

/-!
# Walking a directory tree

A walk visits the directories of a tree from the top. At each one the visitor says whether to take
it, and whether to go on below it. What a walk takes is described by the visits of a directory and
of those above it.
-/

namespace AgentCockpit.Core

/-- The entries of a directory: files, and directories with their own entries. -/
inductive Entries (ν : Type*)
  | nil
  | file (name : ν) (rest : Entries ν)
  | dir (name : ν) (entries rest : Entries ν)
  deriving DecidableEq, Repr

/-- What a visitor says of a directory: to leave it out with all below it, to take it alone, or to
take it and to go on below it. -/
inductive Visit
  | skip | shallow | descend
  deriving DecidableEq, Repr

namespace Entries

variable {ν : Type*} {visit : List ν → Visit} {entries : Entries ν} {top names : List ν}

/-- The paths of all that is below, by their names. -/
def paths : Entries ν → List (List ν)
  | nil => []
  | file name rest => [name] :: paths rest
  | dir name entries rest => [name] :: ((paths entries).map (name :: ·) ++ paths rest)

/-- The paths of the directories below. -/
def dirs : Entries ν → List (List ν)
  | nil => []
  | file _ rest => dirs rest
  | dir name entries rest => [name] :: ((dirs entries).map (name :: ·) ++ dirs rest)

/-- The directories below `top` that a walk takes. -/
def walk (visit : List ν → Visit) (top : List ν) : Entries ν → List (List ν)
  | nil => []
  | file _ rest => walk visit top rest
  | dir name entries rest =>
    match visit (top ++ [name]) with
    | .skip => walk visit top rest
    | .shallow => (top ++ [name]) :: walk visit top rest
    | .descend => (top ++ [name]) :: (walk visit (top ++ [name]) entries ++ walk visit top rest)

theorem ne_nil_of_mem_dirs (h : names ∈ entries.dirs) : names ≠ [] := by
  induction entries with
  | nil => exact absurd h List.not_mem_nil
  | file name rest ih => exact ih h
  | dir name entries rest ihe ihr =>
    obtain rfl | h := List.mem_cons.mp h
    · exact List.cons_ne_nil _ _
    · obtain h | h := List.mem_append.mp h
      · obtain ⟨tail, -, rfl⟩ := List.mem_map.mp h
        exact List.cons_ne_nil _ _
      · exact ihr h

/-- The directory is taken, below others through which the walk descends. -/
def Taken (visit : List ν → Visit) (top names : List ν) : Prop :=
  visit (top ++ names) ≠ .skip ∧
    ∀ upper, upper ≠ [] → upper <+: names → upper ≠ names → visit (top ++ upper) = .descend

theorem taken_singleton {name : ν} : Taken visit top [name] ↔ visit (top ++ [name]) ≠ .skip := by
  constructor
  · exact And.left
  · intro h
    refine ⟨h, fun upper hnil hpre hne => ?_⟩
    -- Nothing is above the only name.
    obtain rfl | ⟨_, rfl, htail⟩ := List.prefix_cons_iff.mp hpre
    · exact absurd rfl hnil
    · rw [List.prefix_nil.mp htail] at hne
      exact absurd rfl hne

theorem taken_cons {name : ν} (hne : names ≠ []) :
    Taken visit top (name :: names) ↔
      visit (top ++ [name]) = .descend ∧ Taken visit (top ++ [name]) names := by
  have happend (upper : List ν) : top ++ [name] ++ upper = top ++ name :: upper := by simp
  constructor
  · rintro ⟨htake, habove⟩
    refine ⟨habove [name] (by simp) (by simp) (by simpa using hne.symm), ?_, ?_⟩
    · rwa [happend]
    · intro upper _ hpre hupper
      rw [happend]
      exact habove _ (List.cons_ne_nil _ _) (List.cons_prefix_cons.mpr ⟨rfl, hpre⟩)
        (by simpa using hupper)
  · rintro ⟨hname, htake, habove⟩
    refine ⟨by rwa [happend] at htake, fun upper hnil hpre hupper => ?_⟩
    obtain rfl | ⟨tail, rfl, htail⟩ := List.prefix_cons_iff.mp hpre
    · exact absurd rfl hnil
    · by_cases htop : tail = []
      · rw [htop]
        exact hname
      · rw [← happend]
        exact habove tail htop htail (by simpa using hupper)

/-- A walk takes the directories that are taken, below others through which it descends. -/
theorem mem_walk {path : List ν} :
    path ∈ entries.walk visit top ↔
      ∃ names ∈ entries.dirs, path = top ++ names ∧ Taken visit top names := by
  induction entries generalizing top with
  | nil => simp [walk, dirs]
  | file name rest ih => exact ih
  | dir name entries rest ihe ihr =>
    -- The directory itself, what is below it, and what comes after it.
    have hbelow : (∃ names ∈ entries.dirs, path = top ++ [name] ++ names ∧
        visit (top ++ [name]) = .descend ∧ Taken visit (top ++ [name]) names) ↔
          ∃ names ∈ entries.dirs.map (name :: ·), path = top ++ names ∧ Taken visit top names := by
      simp only [List.mem_map, exists_exists_and_eq_and]
      refine exists_congr fun names => and_congr_right fun hmem => ?_
      rw [taken_cons (ne_nil_of_mem_dirs hmem), List.append_assoc]
      rfl
    simp only [dirs, List.mem_cons, List.mem_append, or_and_right, exists_or, exists_eq_left,
      taken_singleton, ← hbelow, ← ihr]
    rw [walk]
    cases hvisit : visit (top ++ [name]) with
    | skip => simp
    | shallow => simp
    | descend => simp [ihe]

/-- What is below the top is in a directory of the tree. -/
theorem dropLast_mem_dirs (h : names ∈ entries.paths) (hne : names.dropLast ≠ []) :
    names.dropLast ∈ entries.dirs := by
  induction entries generalizing names with
  | nil => exact absurd h List.not_mem_nil
  | file name rest ih =>
    obtain rfl | h := List.mem_cons.mp h
    · exact absurd rfl hne
    · exact ih h hne
  | dir name entries rest ihe ihr =>
    obtain rfl | h := List.mem_cons.mp h
    · exact absurd rfl hne
    · rw [dirs, List.mem_cons, List.mem_append]
      obtain h | h := List.mem_append.mp h
      · obtain ⟨tail, hmem, rfl⟩ := List.mem_map.mp h
        cases tail with
        | nil => exact absurd rfl hne
        | cons next tail =>
          rw [List.dropLast_cons_cons]
          by_cases htop : (next :: tail).dropLast = []
          · exact .inl (by rw [htop])
          · exact .inr (.inl (List.mem_map.mpr ⟨_, ihe hmem htop, rfl⟩))
      · exact .inr (.inr (ihr h hne))

end Entries

end AgentCockpit.Core
