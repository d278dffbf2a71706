import AgentCockpit.Core.Run

/-!
# Families of systems that do not share state

A family has one state for each index, and a step is a step of one member. What every member keeps
by its own steps the family keeps.
-/

namespace AgentCockpit.Core

variable {ι σ α : Type*} [DecidableEq ι]

/-- A step of one member of the family. -/
def familyStep (step : ι → σ → α → Option σ) (states : ι → σ) (label : ι × α) :
    Option (ι → σ) :=
  (step label.1 (states label.1) label.2).map (Function.update states label.1)

/-- The guard of the member that takes the step. -/
def familyAdmits (admits : ι → σ → α → Prop) (states : ι → σ) (label : ι × α) : Prop :=
  admits label.1 (states label.1) label.2

instance (admits : ι → σ → α → Prop) [∀ i s a, Decidable (admits i s a)] (states : ι → σ)
    (label : ι × α) : Decidable (familyAdmits admits states label) :=
  inferInstanceAs (Decidable (admits _ _ _))

variable {step : ι → σ → α → Option σ} {admits : ι → σ → α → Prop} {states next : ι → σ}
  {label : ι × α} {labels : List (ι × α)} {i : ι}

/-- The member that takes the step changes by it, and the others stay. -/
theorem familyStep_eq_some : familyStep step states label = some next ↔
    ∃ state, step label.1 (states label.1) label.2 = some state ∧
      next = Function.update states label.1 state := by
  simp only [familyStep, Option.map_eq_some_iff, eq_comm]

/-- What every member keeps by its own admitted steps holds along every run of the family. -/
theorem Run.family_invariant {inv : ι → σ → Prop}
    (hpreserved : ∀ i s a t, inv i s → admits i s a → step i s a = some t → inv i t)
    (h : Run (familyStep step) (familyAdmits admits) states labels next)
    (hinv : ∀ i, inv i (states i)) : ∀ i, inv i (next i) := by
  have hwhole : ∀ (s : ι → σ) (a : ι × α) (t : ι → σ), (∀ i, inv i (s i)) →
      familyAdmits admits s a → familyStep step s a = some t → ∀ i, inv i (t i) := by
    intro s a t hs hadmits hstep i
    obtain ⟨state, hmember, rfl⟩ := familyStep_eq_some.mp hstep
    rcases eq_or_ne i a.1 with rfl | hne
    · rw [Function.update_self]
      exact hpreserved a.1 _ _ _ (hs a.1) hadmits hmember
    · rw [Function.update_of_ne hne]
      exact hs i
  exact h.invariant hwhole hinv

end AgentCockpit.Core
