import Mathlib

namespace Runs

variable {σ α : Type*} {step : σ → α → σ} {state : σ} {actions : List α}

def after (step : σ → α → σ) (state : σ) (actions : List α) : σ := actions.foldl step state

@[simp] theorem after_nil : after step state [] = state := rfl

@[simp] theorem after_snoc (before : List α) (action : α) :
    after step state (before ++ [action]) = step (after step state before) action := by
  simp [after]

theorem forall_prefixes {holds : List α → Prop} (initially : holds [])
    (step : ∀ before action, before ++ [action] <+: actions → holds before → holds (before ++ [action])) :
    ∀ before, before <+: actions → holds before := by
  intro before part
  induction before using List.reverseRecOn with
  | nil => exact initially
  | append_singleton before action ih =>
    exact step before action part (ih ((List.prefix_append before [action]).trans part))

theorem invariant_of_conditions {invariant : σ → Prop} {condition : α → σ → Prop} (initially : invariant state)
    (keeps : ∀ current action, invariant current → condition action current → invariant (step current action))
    (conditions : ∀ before action, before ++ [action] <+: actions → condition action (after step state before)) :
    ∀ before, before <+: actions → invariant (after step state before) := by
  refine forall_prefixes initially ?_
  intro before action part earlier
  rw [after_snoc]
  exact keeps _ action earlier (conditions before action part)

/-- A condition that carries the strong invariant over an action and follows from the weak one after it is exact for
    runs. -/
theorem invariant_iff {weak strong : σ → Prop} {condition allowed : α → σ → Prop} (initially : strong state)
    (weaken : ∀ current, strong current → weak current)
    (keeps : ∀ current action, strong current → allowed action current → condition action current →
      strong (step current action))
    (forces : ∀ current action, strong current → allowed action current → weak (step current action) →
      condition action current)
    (run : ∀ before action, before ++ [action] <+: actions → allowed action (after step state before)) :
    (∀ before, before <+: actions → weak (after step state before)) ↔
      ∀ before action, before ++ [action] <+: actions → condition action (after step state before) := by
  constructor
  · intro always
    have carried : ∀ before, before <+: actions → strong (after step state before) := by
      refine forall_prefixes initially ?_
      intro before action part earlier
      have later := always (before ++ [action]) part
      rw [after_snoc] at later ⊢
      have allows := run before action part
      exact keeps _ action earlier allows (forces _ action earlier allows later)
    intro before action part
    have later := always (before ++ [action]) part
    rw [after_snoc] at later
    exact forces _ action (carried before ((List.prefix_append before [action]).trans part)) (run before action part)
      later
  · intro conditions before part
    apply weaken
    refine @invariant_of_conditions _ _ step state actions strong
      (fun action current => allowed action current ∧ condition action current) initially ?_ ?_ before part
    · intro current action holds meets
      exact keeps current action holds meets.1 meets.2
    · intro before action part
      exact ⟨run before action part, conditions before action part⟩

theorem invariant_of_kept {invariant : σ → Prop} (initially : invariant state)
    (kept : ∀ current action, invariant current → invariant (step current action)) (actions : List α) :
    invariant (after step state actions) := by
  induction actions using List.reverseRecOn with
  | nil => exact initially
  | append_singleton before action ih =>
    rw [after_snoc]
    exact kept _ action ih

theorem forall_steps_cons {holds : List α → α → Prop} {first : α} :
    (∀ before action, before ++ [action] <+: first :: actions → holds before action) ↔
      holds [] first ∧ ∀ before action, before ++ [action] <+: actions → holds (first :: before) action := by
  constructor
  · intro all
    refine ⟨all [] first ⟨actions, rfl⟩, fun before action part => ?_⟩
    exact all (first :: before) action (by simpa using part)
  · rintro ⟨here, later⟩ before action part
    cases before with
    | nil =>
      simp only [List.nil_append, List.cons_prefix_cons, List.nil_prefix, and_true] at part
      rw [part]
      exact here
    | cons second before =>
      simp only [List.cons_append, List.cons_prefix_cons] at part
      rw [part.1]
      exact later before action part.2

theorem forall_steps_nil {holds : List α → α → Prop} :
    ∀ before action, before ++ [action] <+: ([] : List α) → holds before action := by
  intro before action part
  simp at part

end Runs
