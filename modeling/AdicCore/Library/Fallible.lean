import Mathlib

namespace Fallible

variable {ε α β : Type}

def failureOf : Except ε α → Option ε
  | .ok _ => none
  | .error error => some error

theorem failureOf_eq_some {run : Except ε α} {error : ε} (failed : failureOf run = some error) :
    run = .error error := by
  cases run with
  | ok value => cases failed
  | error other => exact congrArg Except.error (Option.some.inj failed)

theorem bind_ok {first : Except ε α} {rest : α → Except ε β} {result : β} (ran : (first >>= rest) = .ok result) :
    ∃ value, first = .ok value ∧ rest value = .ok result := by
  cases first with
  | error error => cases ran
  | ok value => exact ⟨value, rfl, ran⟩

variable {entries : List α}

theorem forM_ok {check : α → Except ε Unit} (passed : entries.forM check = .ok ())
    {entry : α} (member : entry ∈ entries) : check entry = .ok () := by
  induction entries with
  | nil => cases member
  | cons first rest ih =>
    obtain ⟨⟨⟩, checked, others⟩ := bind_ok passed
    rcases List.mem_cons.mp member with rfl | member
    · exact checked
    · exact ih others member

theorem forM_ok_iff {check : α → Except ε Unit} :
    entries.forM check = .ok () ↔ ∀ entry ∈ entries, check entry = .ok () := by
  constructor
  · intro passed entry member
    exact forM_ok passed member
  · intro all
    induction entries with
    | nil => rfl
    | cons first rest ih =>
      show (check first >>= fun _ => rest.forM check) = .ok ()
      rw [all first List.mem_cons_self]
      exact ih fun entry member => all entry (List.mem_cons_of_mem first member)

theorem mapM_of_rounds {round : α → Except ε β}
    (each : ∀ entry ∈ entries, ∃ result, round entry = .ok result) : ∃ results, entries.mapM round = .ok results := by
  induction entries with
  | nil => exact ⟨[], rfl⟩
  | cons entry entries ih =>
    obtain ⟨first, here⟩ := each entry List.mem_cons_self
    obtain ⟨rest, later⟩ := ih fun other member => each other (List.mem_cons_of_mem entry member)
    rw [List.mapM_cons, here]
    refine ⟨first :: rest, ?_⟩
    show (entries.mapM round >>= fun rest => pure (first :: rest)) = _
    rw [later]
    rfl

theorem bind_ne_error {first : Except ε α} {rest : α → Except ε β} {error : ε} (before : first ≠ .error error)
    (after : ∀ value, first = .ok value → rest value ≠ .error error) : (first >>= rest) ≠ .error error := by
  cases first with
  | error other => exact fun same => before (by cases same; rfl)
  | ok value => exact after value rfl

theorem mapM_ne_error {round : α → Except ε β} {error : ε}
    (each : ∀ entry ∈ entries, round entry ≠ .error error) : entries.mapM round ≠ .error error := by
  induction entries with
  | nil => exact nofun
  | cons first rest ih =>
    rw [List.mapM_cons]
    refine bind_ne_error (each first List.mem_cons_self) fun value _ => ?_
    refine bind_ne_error (ih fun entry member => each entry (List.mem_cons_of_mem first member)) fun values _ => ?_
    exact nofun

theorem mapM_of_ok {round other : α → Except ε β} (each : ∀ entry result, round entry = .ok result →
    other entry = .ok result) {results : List β} (ran : entries.mapM round = .ok results) :
    entries.mapM other = .ok results := by
  induction entries generalizing results with
  | nil => exact ran
  | cons first rest ih =>
    rw [List.mapM_cons] at ran
    obtain ⟨value, here, ran⟩ := bind_ok ran
    obtain ⟨others, later, ran⟩ := bind_ok ran
    rw [List.mapM_cons, each first value here, ih later]
    exact ran

section

variable {round : α → Except ε β} {entries : List α} {results : List β} (ran : entries.mapM round = .ok results)

include ran

theorem length_mapM : results.length = entries.length := by
  induction entries generalizing results with
  | nil =>
    cases ran
    rfl
  | cons first rest ih =>
    rw [List.mapM_cons] at ran
    obtain ⟨value, _, ran⟩ := bind_ok ran
    obtain ⟨others, later, ran⟩ := bind_ok ran
    cases ran
    rw [List.length_cons, List.length_cons, ih later]

theorem mapM_ok {result : β} (member : result ∈ results) : ∃ entry ∈ entries, round entry = .ok result := by
  induction entries generalizing results with
  | nil =>
    cases ran
    cases member
  | cons first rest ih =>
    rw [List.mapM_cons] at ran
    obtain ⟨value, here, ran⟩ := bind_ok ran
    obtain ⟨others, later, ran⟩ := bind_ok ran
    cases ran
    rcases List.mem_cons.mp member with rfl | member
    · exact ⟨first, List.mem_cons_self, here⟩
    · obtain ⟨entry, listed, returned⟩ := ih later member
      exact ⟨entry, List.mem_cons_of_mem first listed, returned⟩

end

section

variable {σ : Type} {call : EStateM ε σ α} {rest : α → EStateM ε σ β} {state next : σ} {result : β} {error : ε}

theorem run_bind_ok (ran : (call >>= rest) state = .ok result next) :
    ∃ value middle, call state = .ok value middle ∧ rest value middle = .ok result next := by
  change EStateM.bind call rest state = _ at ran
  unfold EStateM.bind at ran
  cases first : call state with
  | ok value middle =>
    rw [first] at ran
    exact ⟨value, middle, rfl, ran⟩
  | error error middle =>
    rw [first] at ran
    cases ran

theorem run_bind_error (ran : (call >>= rest) state = .error error next) :
    call state = .error error next ∨
      ∃ value middle, call state = .ok value middle ∧ rest value middle = .error error next := by
  change EStateM.bind call rest state = _ at ran
  unfold EStateM.bind at ran
  cases first : call state with
  | ok value middle =>
    rw [first] at ran
    exact Or.inr ⟨value, middle, rfl, ran⟩
  | error error middle =>
    rw [first] at ran
    cases ran
    exact Or.inl rfl

end

end Fallible
