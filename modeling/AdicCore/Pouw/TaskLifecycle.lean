import AdicCore.Library.Runs
import AdicCore.Pouw.TaskManager

open AdicModel AdicModel.AppCommon AdicModel.Economics AdicModel.Pouw AdicModel.Pouw.TaskManager HashMap

namespace AdicProof.Pouw

def rank : TaskStatus → Nat
  | .submitted => 0
  | .finalized => 1
  | .assigned => 2
  | .inProgress => 3
  | .resultSubmitted => 4
  | .validating => 5
  | .challenging => 6
  | _ => 7

inductive Stage (task : ManagedTask) (assignments : Option (List WorkAssignment)) (results : List WorkResult) : Prop
  | waiting (early : rank task.status ≤ 1) (none : assignments = none) (empty : results = [])
      (positive : 0 < task.workerCount.toNat)
  | working (assigned : List WorkAssignment) (isAssigned : assignments = some assigned)
      (length : assigned.length = task.workerCount.toNat) (distinct : (assigned.map WorkAssignment.worker).Nodup)
      (resultsDistinct : (results.map WorkResult.worker).Nodup)
      (inside : ∀ result ∈ results, result.worker ∈ assigned.map WorkAssignment.worker)
      (status : task.status = .assigned ∨ task.status = .inProgress) (few : results.length < task.workerCount.toNat)
  | finished (assigned : List WorkAssignment) (isAssigned : assignments = some assigned)
      (length : assigned.length = task.workerCount.toNat) (distinct : (assigned.map WorkAssignment.worker).Nodup)
      (resultsDistinct : (results.map WorkResult.worker).Nodup)
      (inside : ∀ result ∈ results, result.worker ∈ assigned.map WorkAssignment.worker)
      (late : 4 ≤ rank task.status) (all : results.length = task.workerCount.toNat)

section

variable {σ : Type}

structure Consistent (manager : TaskManager σ) : Prop where
  absent : ∀ id, manager.tasks.lookup id = none → manager.workAssignments.lookup id = none ∧ manager.resultsOf id = []
  present : ∀ id task, manager.tasks.lookup id = some task →
    Stage task (manager.workAssignments.lookup id) (manager.resultsOf id)

structure Same (manager next : TaskManager σ) : Prop where
  tasks : next.tasks = manager.tasks
  assignments : next.workAssignments = manager.workAssignments
  results : next.workResults = manager.workResults

structure Advances (manager next : TaskManager σ) (id : TaskId) (task : ManagedTask) : Prop where
  tasks : next.tasks = manager.tasks.insert id task
  assignments : ∀ other ≠ id, next.workAssignments.lookup other = manager.workAssignments.lookup other
  results : ∀ other ≠ id, next.resultsOf other = manager.resultsOf other
  kept : ∀ result ∈ manager.resultsOf id, result ∈ next.resultsOf id
  forward : ∀ earlier, manager.tasks.lookup id = some earlier →
    rank earlier.status ≤ rank task.status ∧ task.sponsor = earlier.sponsor
  stage : Stage task (next.workAssignments.lookup id) (next.resultsOf id)

def Moves (manager next : TaskManager σ) (id : TaskId) : Prop :=
  ∃ earlier task, manager.tasks.lookup id = some earlier ∧ Advances manager next id task

variable {assignments : List WorkAssignment}

section

variable {manager next : TaskManager σ} {id : TaskId} {task : ManagedTask}

theorem Same.consistent (same : Same manager next) (consistent : Consistent manager) : Consistent next := by
  have results : ∀ id, next.resultsOf id = manager.resultsOf id := fun id => by
    unfold resultsOf
    rw [same.results]
  refine ⟨fun id missing => ?_, fun id task found => ?_⟩
  · rw [same.tasks] at missing
    rw [same.assignments, results]
    exact consistent.absent id missing
  · rw [same.tasks] at found
    rw [same.assignments, results]
    exact consistent.present id task found

theorem Advances.consistent (advances : Advances manager next id task) (consistent : Consistent manager) :
    Consistent next := by
  refine ⟨fun other missing => ?_, fun other stored found => ?_⟩
  · rw [advances.tasks, lookup_insert_eq] at missing
    split at missing
    · cases missing
    next different =>
      rw [advances.assignments other different, advances.results other different]
      exact consistent.absent other missing
  · rw [advances.tasks, lookup_insert_eq] at found
    split at found
    next same =>
      cases found
      subst same
      exact advances.stage
    next different =>
      rw [advances.assignments other different, advances.results other different]
      exact consistent.present other stored found

theorem advances_status {status : TaskStatus} {finality : FinalityStatus} (found : manager.tasks.lookup id = some task)
    (forward : rank task.status ≤ rank status)
    (stage : Stage { task with status := status, finalityStatus := finality } (manager.workAssignments.lookup id)
      (manager.resultsOf id)) :
    Advances manager (manager.storeTask id { task with status := status, finalityStatus := finality }) id
      { task with status := status, finalityStatus := finality } where
  tasks := rfl
  assignments _ _ := rfl
  results _ _ := rfl
  kept _ listed := listed
  forward earlier stored := by
    rw [found] at stored
    cases stored
    exact ⟨forward, rfl⟩
  stage := stage

theorem Stage.late {status : TaskStatus} {finality : FinalityStatus} {assignments : Option (List WorkAssignment)}
    {results : List WorkResult} (stage : Stage task assignments results) (isLate : 4 ≤ rank task.status)
    (late : 4 ≤ rank status) : Stage { task with status := status, finalityStatus := finality } assignments results := by
  cases stage with
  | waiting early => omega
  | working assigned isAssigned length distinct resultsDistinct inside isWorking few =>
    rcases isWorking with isWorking | isWorking
    · rw [isWorking] at isLate
      exact absurd isLate (by decide)
    · rw [isWorking] at isLate
      exact absurd isLate (by decide)
  | finished assigned isAssigned length distinct resultsDistinct inside _ all =>
    exact .finished assigned isAssigned length distinct resultsDistinct inside late all

theorem markFinalized_cases (consistent : Consistent manager) :
    Same manager (manager.markTaskFinalized id).2 ∨ Moves manager (manager.markTaskFinalized id).2 id := by
  unfold markTaskFinalized
  split
  · exact .inl ⟨rfl, rfl, rfl⟩
  next task found =>
    split
    · exact .inl ⟨rfl, rfl, rfl⟩
    next isSubmitted =>
      rw [not_not] at isSubmitted
      refine .inr ⟨task, _, found, advances_status found (by rw [isSubmitted]; decide) ?_⟩
      cases consistent.present id task found with
      | waiting _ none empty positive => exact .waiting le_rfl none empty positive
      | working _ _ _ _ _ _ isWorking =>
        rw [isSubmitted] at isWorking
        rcases isWorking with isWorking | isWorking
        · cases isWorking
        · cases isWorking
      | finished _ _ _ _ _ _ late =>
        rw [isSubmitted] at late
        exact absurd late (by decide)

theorem recordReport_cases (consistent : Consistent manager) (report : ValidationReport) :
    Same manager (manager.recordValidationReport report).2 ∨
      Moves manager (manager.recordValidationReport report).2 report.taskId := by
  unfold recordValidationReport
  split
  · exact .inl ⟨rfl, rfl, rfl⟩
  next task found =>
    split
    · exact .inl ⟨rfl, rfl, rfl⟩
    next isResult =>
      rw [not_not] at isResult
      have stage : Stage { task with status := .validating, finalityStatus := task.finalityStatus }
          (manager.workAssignments.lookup report.taskId) (manager.resultsOf report.taskId) :=
        (consistent.present report.taskId task found).late (by rw [isResult]; decide) (by decide)
      have advances := advances_status found (by rw [isResult]; decide) stage
      exact .inr ⟨task, _, found, advances.tasks, advances.assignments, advances.results, advances.kept, advances.forward,
        advances.stage⟩

theorem beginChallenge_cases (consistent : Consistent manager) (currentEpoch : UInt64) :
    Same manager (manager.beginChallengePeriod id currentEpoch).2 ∨
      Moves manager (manager.beginChallengePeriod id currentEpoch).2 id := by
  unfold beginChallengePeriod
  split
  · exact .inl ⟨rfl, rfl, rfl⟩
  next task found =>
    split
    · exact .inl ⟨rfl, rfl, rfl⟩
    next isValidating =>
      rw [not_not] at isValidating
      exact .inr ⟨task, _, found, advances_status found (by rw [isValidating]; decide)
        ((consistent.present id task found).late (by rw [isValidating]; decide) (by decide))⟩

theorem assign_cases (consistent : Consistent manager)
    (distinct : ∀ task, manager.tasks.lookup id = some task → task.status = .finalized →
      assignments.length = task.workerCount.toNat → (assignments.map WorkAssignment.worker).Nodup) :
    Same manager (manager.recordWorkerAssignments id assignments).2 ∨
      Moves manager (manager.recordWorkerAssignments id assignments).2 id := by
  unfold recordWorkerAssignments
  split
  · exact .inl ⟨rfl, rfl, rfl⟩
  next task found =>
    split
    · exact .inl ⟨rfl, rfl, rfl⟩
    next isFinalized =>
      split
      · exact .inl ⟨rfl, rfl, rfl⟩
      next isLength =>
        rw [not_not] at isFinalized isLength
        refine .inr ⟨task, { task with status := .assigned }, found, rfl, fun other different => ?_, fun _ _ => rfl,
          fun _ listed => listed, fun earlier stored => ?_, ?_⟩
        · exact AList.lookup_insert_ne different
        · rw [found] at stored
          cases stored
          refine ⟨?_, rfl⟩
          rw [isFinalized]
          exact Nat.le_succ 1
        · show Stage _ ((manager.workAssignments.insert id assignments).lookup id) (manager.resultsOf id)
          rw [AList.lookup_insert]
          cases consistent.present id task found with
          | waiting _ none empty positive =>
            rw [empty]
            refine .working assignments rfl isLength (distinct task found isFinalized isLength) List.nodup_nil
              (fun _ listed => absurd listed List.not_mem_nil) (.inl rfl) positive
          | working _ _ _ _ _ _ isWorking =>
            rw [isFinalized] at isWorking
            rcases isWorking with isWorking | isWorking
            · cases isWorking
            · cases isWorking
          | finished _ _ _ _ _ _ late =>
            rw [isFinalized] at late
            exact absurd late (by decide)

theorem all_submitted {assigned : List WorkAssignment} {results : List WorkResult} {worker : PublicKey}
    (resultsDistinct : (results.map WorkResult.worker).Nodup)
    (inside : ∀ result ∈ results, result.worker ∈ assigned.map WorkAssignment.worker)
    (all : assigned.length ≤ results.length) (isAssigned : worker ∈ assigned.map WorkAssignment.worker) :
    worker ∈ results.map WorkResult.worker := by
  have subset : results.map WorkResult.worker ⊆ assigned.map WorkAssignment.worker := by
    intro other listed
    obtain ⟨result, member, rfl⟩ := List.mem_map.mp listed
    exact inside result member
  have perm := (List.subperm_of_subset resultsDistinct subset).perm_of_length_le (by simpa using all)
  exact perm.mem_iff.mpr isAssigned

theorem resultsOf_storeResults (results : List WorkResult) (other : TaskId) :
    (manager.storeResults id results).resultsOf other = if other = id then results else manager.resultsOf other := by
  unfold resultsOf storeResults
  rw [lookup_insert_eq]
  split
  · rfl
  · rfl

theorem submitResult_cases (consistent : Consistent manager) (result : WorkResult) (currentEpoch : UInt64) :
    Same manager (manager.submitWorkResult result currentEpoch).2 ∨
      Moves manager (manager.submitWorkResult result currentEpoch).2 result.taskId := by
  unfold submitWorkResult
  split
  · exact .inl ⟨rfl, rfl, rfl⟩
  next task found =>
  split
  · exact .inl ⟨rfl, rfl, rfl⟩
  split
  · exact .inl ⟨rfl, rfl, rfl⟩
  next assignments isAssigned =>
  split
  · exact .inl ⟨rfl, rfl, rfl⟩
  next isMember =>
  split
  · exact .inl ⟨rfl, rfl, rfl⟩
  next fresh =>
  rw [not_not] at isMember
  cases consistent.present result.taskId task found with
  | waiting _ none =>
    rw [none] at isAssigned
    cases isAssigned
  | finished assigned isStored length _ resultsDistinct inside _ all =>
    rw [isAssigned] at isStored
    cases isStored
    exact absurd (all_submitted resultsDistinct inside (length.trans all.symm).le isMember) fresh
  | working assigned isStored length distinct resultsDistinct inside status few =>
    rw [isAssigned] at isStored
    cases isStored
    refine .inr ⟨task, _, found, rfl, fun _ _ => rfl, fun other different => ?_, fun earlier listed => ?_,
      fun earlier stored => ?_, ?_⟩
    · rw [resultsOf_storeResults, if_neg different]
      rfl
    · rw [resultsOf_storeResults, if_pos rfl]
      exact List.mem_append_left _ listed
    · rw [found] at stored
      cases stored
      refine ⟨?_, rfl⟩
      dsimp only
      rcases status with status | status
      · rw [status, if_pos rfl]
        split
        · decide
        · decide
      · rw [status]
        split
        · decide
        · decide
    · rw [resultsOf_storeResults, if_pos rfl]
      have resultsDistinct' : ((manager.resultsOf result.taskId ++ [result]).map WorkResult.worker).Nodup := by
        rw [List.map_append]
        refine List.Nodup.append resultsDistinct (List.nodup_singleton _) ?_
        intro worker listed isNew
        rw [List.map_singleton, List.mem_singleton] at isNew
        exact fresh (isNew ▸ listed)
      have inside' : ∀ other ∈ manager.resultsOf result.taskId ++ [result],
          other.worker ∈ assignments.map WorkAssignment.worker := by
        intro other listed
        rcases List.mem_append.mp listed with old | new
        · exact inside other old
        · rw [List.mem_singleton.mp new]
          exact isMember
      by_cases full : (manager.resultsOf result.taskId ++ [result]).length = task.workerCount.toNat
      · rw [if_pos full]
        exact .finished assignments isAssigned length distinct resultsDistinct' inside' le_rfl full
      · rw [if_neg full]
        refine .working assignments isAssigned length distinct resultsDistinct' inside' ?_ ?_
        · dsimp only
          rcases status with status | status
          · rw [if_pos status]
            exact .inr rfl
          · rw [status]
            exact .inr rfl
        · rw [List.length_append, List.length_singleton] at full ⊢
          show _ < task.workerCount.toNat
          omega

end

def Locks [EconomicsStorage σ] (blake3 : List UInt8 → Bytes32) (manager : TaskManager σ) (now : Int) (reputation : ℚ)
    (task : ManagedTask) (currentEpoch : UInt64) : Prop :=
  ∃ total lockId escrow, manager.totalEscrow reputation task currentEpoch = .ok total ∧
    EscrowManager.lock now (taskEscrow blake3 task) total currentEpoch manager.escrowManager = .ok lockId escrow

def Orderable [EconomicsStorage σ] (blake3 : List UInt8 → Bytes32) (manager : TaskManager σ) : TaskCall → Prop
  | .submit now reputation task currentEpoch => Locks blake3 manager now reputation task currentEpoch →
    manager.tasks.lookup task.taskId = none
  | .assign taskId assignments => ∀ task, manager.tasks.lookup taskId = some task → task.status = .finalized →
    assignments.length = task.workerCount.toNat → (assignments.map WorkAssignment.worker).Nodup
  | _ => True

variable {task : ManagedTask}

section

variable [EconomicsStorage σ] {blake3 : List UInt8 → Bytes32} {manager : TaskManager σ} {currentEpoch : UInt64}

omit [EconomicsStorage σ] in
theorem totalEscrow_positive {reputation : ℚ} {total : AdicAmount}
    (admitted : manager.totalEscrow reputation task currentEpoch = .ok total) : 0 < task.workerCount.toNat := by
  by_contra isZero
  have zero : task.workerCount = 0 := UInt8.toNat_inj.mp (Nat.eq_zero_of_not_pos isZero)
  have invalid : ∀ done, manager.validateTask task currentEpoch ≠ .ok done := by
    intro done valid
    unfold validateTask at valid
    dsimp only at valid
    split at valid
    · cases valid
    split at valid
    · cases valid
    cases valid
  unfold totalEscrow at admitted
  split at admitted
  · cases admitted
  split at admitted
  · cases admitted
  next done isValid => exact invalid done isValid

section

variable (consistent : Consistent manager)

include consistent

theorem submit_cases_task {now : Int} {reputation : ℚ}
    (new : Locks blake3 manager now reputation task currentEpoch → manager.tasks.lookup task.taskId = none) :
    ¬ Locks blake3 manager now reputation task currentEpoch ∧
        Same manager (manager.submitTask blake3 now reputation task currentEpoch).2 ∨
      Locks blake3 manager now reputation task currentEpoch ∧
        Advances manager (manager.submitTask blake3 now reputation task currentEpoch).2 task.taskId
          { task with status := .submitted, finalityStatus := .pending } := by
  unfold submitTask
  split
  next error refused =>
    refine .inl ⟨?_, rfl, rfl, rfl⟩
    rintro ⟨total, _, _, admitted, _⟩
    rw [refused] at admitted
    cases admitted
  next total admitted =>
    split
    next error escrow failed =>
      refine .inl ⟨?_, rfl, rfl, rfl⟩
      rintro ⟨total', _, _, admitted', locked⟩
      rw [admitted] at admitted'
      cases admitted'
      rw [failed] at locked
      cases locked
    next lockId escrow locked =>
      have locks : Locks blake3 manager now reputation task currentEpoch := ⟨total, lockId, escrow, admitted, locked⟩
      have missing := new locks
      obtain ⟨noAssignments, noResults⟩ := consistent.absent task.taskId missing
      refine .inr ⟨locks, rfl, fun _ _ => rfl, fun _ _ => rfl, fun _ listed => listed, fun earlier found => ?_, ?_⟩
      · rw [missing] at found
        cases found
      · exact .waiting (Nat.zero_le 1) noAssignments noResults (totalEscrow_positive admitted)

theorem next_cases (call : TaskCall) (orderable : Orderable blake3 manager call) :
    Same manager (call.next blake3 manager) ∨ (∃ id, Moves manager (call.next blake3 manager) id) ∨
      ∃ now reputation task currentEpoch, call = .submit now reputation task currentEpoch ∧
        Locks blake3 manager now reputation task currentEpoch ∧
          Advances manager (call.next blake3 manager) task.taskId
            { task with status := .submitted, finalityStatus := .pending } := by
  cases call with
  | submit now reputation task currentEpoch =>
    rcases submit_cases_task consistent orderable with ⟨_, same⟩ | ⟨locks, advances⟩
    · exact .inl same
    · exact .inr (.inr ⟨now, reputation, task, currentEpoch, rfl, locks, advances⟩)
  | markFinalized taskId => exact (markFinalized_cases consistent).imp_right fun moves => .inl ⟨_, moves⟩
  | assign taskId assignments => exact (assign_cases consistent orderable).imp_right fun moves => .inl ⟨_, moves⟩
  | result submitted currentEpoch =>
    exact (submitResult_cases consistent submitted currentEpoch).imp_right fun moves => .inl ⟨_, moves⟩
  | report recorded => exact (recordReport_cases consistent recorded).imp_right fun moves => .inl ⟨_, moves⟩
  | challenge taskId currentEpoch =>
    exact (beginChallenge_cases consistent currentEpoch).imp_right fun moves => .inl ⟨_, moves⟩

theorem next_advances (call : TaskCall) (orderable : Orderable blake3 manager call) :
    Same manager (call.next blake3 manager) ∨ ∃ id task, Advances manager (call.next blake3 manager) id task := by
  rcases next_cases consistent call orderable with same | ⟨id, _, task, _, advances⟩ | ⟨_, _, task, _, _, _, advances⟩
  · exact .inl same
  · exact .inr ⟨id, task, advances⟩
  · exact .inr ⟨_, _, advances⟩

theorem consistent_next (call : TaskCall) (orderable : Orderable blake3 manager call) :
    Consistent (call.next blake3 manager) := by
  rcases next_advances consistent call orderable with same | ⟨id, task, advances⟩
  · exact same.consistent consistent
  · exact advances.consistent consistent

theorem task_next (call : TaskCall) (orderable : Orderable blake3 manager call) {id : TaskId}
    (found : manager.tasks.lookup id = some task) :
    ∃ later, (call.next blake3 manager).tasks.lookup id = some later ∧ rank task.status ≤ rank later.status ∧
      later.sponsor = task.sponsor := by
  rcases next_advances consistent call orderable with same | ⟨other, moved, advances⟩
  · rw [same.tasks]
    exact ⟨task, found, le_rfl, rfl⟩
  · rw [advances.tasks, lookup_insert_eq]
    split
    next equal =>
      subst equal
      exact ⟨moved, rfl, advances.forward task found⟩
    · exact ⟨task, found, le_rfl, rfl⟩

theorem results_next (call : TaskCall) (orderable : Orderable blake3 manager call) {id : TaskId} {result : WorkResult}
    (listed : result ∈ manager.resultsOf id) : result ∈ (call.next blake3 manager).resultsOf id := by
  rcases next_advances consistent call orderable with same | ⟨other, moved, advances⟩
  · unfold resultsOf at listed ⊢
    rw [same.results]
    exact listed
  · by_cases equal : id = other
    · subst equal
      exact advances.kept result listed
    · rw [advances.results id equal]
      exact listed

end

omit [EconomicsStorage σ] in
theorem submitResult_stores {submitted : WorkResult}
    (found : manager.tasks.lookup submitted.taskId = some task)
    (early : currentEpoch ≤ task.deadlineEpoch)
    (isAssigned : manager.workAssignments.lookup submitted.taskId = some assignments)
    (member : submitted.worker ∈ assignments.map WorkAssignment.worker) :
    submitted.worker ∈
      ((manager.submitWorkResult submitted currentEpoch).2.resultsOf submitted.taskId).map WorkResult.worker := by
  unfold submitWorkResult
  rw [found]
  dsimp only
  rw [if_neg (UInt64.not_lt.mpr early), isAssigned]
  dsimp only
  rw [if_neg (not_not.mpr member)]
  split
  next stored => exact stored
  · rw [resultsOf_storeResults, if_pos rfl, List.map_append]
    exact List.mem_append_right _ List.mem_cons_self

end

variable [EconomicsStorage σ] (blake3 : List UInt8 → Bytes32) (start : TaskManager σ)

def managerAfter (calls : List TaskCall) : TaskManager σ := Runs.after (TaskCall.next blake3) start calls

def LockedAt (calls earlier : List TaskCall) (id : TaskId) (sponsor : PublicKey) : Prop :=
  ∃ now reputation task currentEpoch, earlier ++ [.submit now reputation task currentEpoch] <+: calls ∧
    task.taskId = id ∧ task.sponsor = sponsor ∧
      Locks blake3 (managerAfter blake3 start earlier) now reputation task currentEpoch

def SubmittedInTime (calls : List TaskCall) (id : TaskId) (worker : PublicKey) : Prop :=
  ∃ earlier submitted currentEpoch task assignments, earlier ++ [.result submitted currentEpoch] <+: calls ∧
    submitted.taskId = id ∧ submitted.worker = worker ∧
      (managerAfter blake3 start earlier).tasks.lookup id = some task ∧ currentEpoch ≤ task.deadlineEpoch ∧
        (managerAfter blake3 start earlier).workAssignments.lookup id = some assignments ∧
          worker ∈ assignments.map WorkAssignment.worker

/-- Tasks move forward only, each locks the escrow of its sponsor once, and has results of distinct assigned workers. -/
structure ForwardOnly (calls : List TaskCall) : Prop where
  forward : ∀ before between id task, before ++ between <+: calls →
    (managerAfter blake3 start before).tasks.lookup id = some task →
      ∃ later, (managerAfter blake3 start (before ++ between)).tasks.lookup id = some later ∧
        rank task.status ≤ rank later.status
  lockedOnce : ∀ before id task, before <+: calls → (managerAfter blake3 start before).tasks.lookup id = some task →
    ∃ earlier, LockedAt blake3 start before earlier id task.sponsor ∧
      ∀ other sponsor, LockedAt blake3 start before other id sponsor → other = earlier
  assigned : ∀ before id, before <+: calls →
    (((managerAfter blake3 start before).resultsOf id).map WorkResult.worker).Nodup ∧
      ∀ result ∈ (managerAfter blake3 start before).resultsOf id, ∃ assignments,
        (managerAfter blake3 start before).workAssignments.lookup id = some assignments ∧
          result.worker ∈ assignments.map WorkAssignment.worker
  complete : ∀ before id task assignments, before <+: calls →
    (managerAfter blake3 start before).tasks.lookup id = some task →
      (managerAfter blake3 start before).workAssignments.lookup id = some assignments →
        (∀ worker ∈ assignments.map WorkAssignment.worker, SubmittedInTime blake3 start before id worker) →
          rank .resultSubmitted ≤ rank task.status

structure Tracked (calls : List TaskCall) : Prop where
  consistent : Consistent (managerAfter blake3 start calls)
  locked : ∀ id task, (managerAfter blake3 start calls).tasks.lookup id = some task →
    ∃ earlier, LockedAt blake3 start calls earlier id task.sponsor
  once : ∀ id earlier other sponsor sponsor', LockedAt blake3 start calls earlier id sponsor →
    LockedAt blake3 start calls other id sponsor' → other = earlier
  stored : ∀ id earlier sponsor, LockedAt blake3 start calls earlier id sponsor →
    ∃ task, (managerAfter blake3 start calls).tasks.lookup id = some task
  inTime : ∀ id worker, SubmittedInTime blake3 start calls id worker →
    worker ∈ ((managerAfter blake3 start calls).resultsOf id).map WorkResult.worker

section

variable {blake3 start} {before calls : List TaskCall} {call : TaskCall} {id : TaskId}

theorem managerAfter_snoc : managerAfter blake3 start (before ++ [call]) =
    call.next blake3 (managerAfter blake3 start before) := Runs.after_snoc before call

theorem lockedAt_snoc {earlier : List TaskCall} {sponsor : PublicKey} :
    LockedAt blake3 start (before ++ [call]) earlier id sponsor ↔ LockedAt blake3 start before earlier id sponsor ∨
      earlier = before ∧ ∃ now reputation task currentEpoch, call = .submit now reputation task currentEpoch ∧
        task.taskId = id ∧ task.sponsor = sponsor ∧
          Locks blake3 (managerAfter blake3 start before) now reputation task currentEpoch := by
  constructor
  · rintro ⟨now, reputation, task, currentEpoch, part, isId, isSponsor, locks⟩
    rcases List.prefix_concat_iff.mp part with whole | part
    · obtain ⟨rfl, rest⟩ := List.append_inj' whole rfl
      cases rest
      exact .inr ⟨rfl, now, reputation, task, currentEpoch, rfl, isId, isSponsor, locks⟩
    · exact .inl ⟨now, reputation, task, currentEpoch, part, isId, isSponsor, locks⟩
  · rintro (⟨now, reputation, task, currentEpoch, part, isId, isSponsor, locks⟩ |
      ⟨rfl, now, reputation, task, currentEpoch, rfl, isId, isSponsor, locks⟩)
    · exact ⟨now, reputation, task, currentEpoch, part.trans (List.prefix_append before [call]), isId, isSponsor, locks⟩
    · exact ⟨now, reputation, task, currentEpoch, List.prefix_rfl, isId, isSponsor, locks⟩

theorem inTime_snoc_task {worker : PublicKey} (inTime : SubmittedInTime blake3 start (before ++ [call]) id worker) :
    SubmittedInTime blake3 start before id worker ∨ ∃ submitted currentEpoch task assignments,
      call = .result submitted currentEpoch ∧ submitted.taskId = id ∧ submitted.worker = worker ∧
        (managerAfter blake3 start before).tasks.lookup id = some task ∧ currentEpoch ≤ task.deadlineEpoch ∧
          (managerAfter blake3 start before).workAssignments.lookup id = some assignments ∧
            worker ∈ assignments.map WorkAssignment.worker := by
  obtain ⟨earlier, submitted, currentEpoch, task, assignments, part, rest⟩ := inTime
  rcases List.prefix_concat_iff.mp part with whole | part
  · obtain ⟨rfl, last⟩ := List.append_inj' whole rfl
    cases last
    exact .inr ⟨submitted, currentEpoch, task, assignments, rfl, rest⟩
  · exact .inl ⟨earlier, submitted, currentEpoch, task, assignments, part, rest⟩

theorem tracked_next (tracked : Tracked blake3 start before)
    (orderable : Orderable blake3 (managerAfter blake3 start before) call) :
    Tracked blake3 start (before ++ [call]) := by
  have consistent := tracked.consistent
  refine ⟨?_, fun id task found => ?_, fun id earlier other sponsor sponsor' first second => ?_,
    fun id earlier sponsor lockedAt => ?_, fun id worker inTime => ?_⟩
  · rw [managerAfter_snoc]
    exact consistent_next consistent call orderable
  · rw [managerAfter_snoc] at found
    rcases next_cases consistent call orderable with same | ⟨moved, old, new, isOld, advances⟩ |
      ⟨now, reputation, submitted, currentEpoch, isCall, locks, advances⟩
    · rw [same.tasks] at found
      obtain ⟨earlier, lockedAt⟩ := tracked.locked id task found
      exact ⟨earlier, lockedAt_snoc.mpr (.inl lockedAt)⟩
    · rw [advances.tasks, lookup_insert_eq] at found
      split at found
      next equal =>
        cases found
        subst equal
        obtain ⟨earlier, lockedAt⟩ := tracked.locked id old isOld
        refine ⟨earlier, lockedAt_snoc.mpr (.inl ?_)⟩
        rw [(advances.forward old isOld).2]
        exact lockedAt
      · obtain ⟨earlier, lockedAt⟩ := tracked.locked id task found
        exact ⟨earlier, lockedAt_snoc.mpr (.inl lockedAt)⟩
    · rw [advances.tasks, lookup_insert_eq] at found
      split at found
      next equal =>
        cases found
        exact ⟨before, lockedAt_snoc.mpr
          (.inr ⟨rfl, now, reputation, submitted, currentEpoch, isCall, equal.symm, rfl, locks⟩)⟩
      · obtain ⟨earlier, lockedAt⟩ := tracked.locked id task found
        exact ⟨earlier, lockedAt_snoc.mpr (.inl lockedAt)⟩
  · have fresh : ∀ now reputation task currentEpoch, call = .submit now reputation task currentEpoch →
        task.taskId = id → Locks blake3 (managerAfter blake3 start before) now reputation task currentEpoch →
          ∀ at' owner, ¬ LockedAt blake3 start before at' id owner := by
      rintro now reputation task currentEpoch rfl rfl locks at' owner lockedAt
      obtain ⟨stored, found⟩ := tracked.stored _ at' owner lockedAt
      rw [orderable locks] at found
      cases found
    rcases lockedAt_snoc.mp first with isFirst | ⟨rfl, now, reputation, task, currentEpoch, isCall, isId, _, locks⟩
    · rcases lockedAt_snoc.mp second with isSecond | ⟨rfl, now, reputation, task, currentEpoch, isCall, isId, _, locks⟩
      · exact tracked.once id earlier other sponsor sponsor' isFirst isSecond
      · exact absurd isFirst (fresh now reputation task currentEpoch isCall isId locks _ _)
    · rcases lockedAt_snoc.mp second with isSecond | ⟨rfl, _⟩
      · exact absurd isSecond (fresh now reputation task currentEpoch isCall isId locks _ _)
      · rfl
  · rw [managerAfter_snoc]
    rcases lockedAt_snoc.mp lockedAt with isLocked | ⟨rfl, now, reputation, task, currentEpoch, rfl, rfl, _, locks⟩
    · obtain ⟨task, found⟩ := tracked.stored id earlier sponsor isLocked
      obtain ⟨later, isLater, _⟩ := task_next consistent call orderable found
      exact ⟨later, isLater⟩
    · rcases submit_cases_task consistent orderable with ⟨unlocked, _⟩ | ⟨_, advances⟩
      · exact absurd locks unlocked
      · refine ⟨{ task with status := .submitted, finalityStatus := .pending }, ?_⟩
        show (submitTask blake3 now reputation task currentEpoch _).2.tasks.lookup task.taskId = some _
        rw [advances.tasks]
        exact AList.lookup_insert _
  · rw [managerAfter_snoc]
    rcases inTime_snoc_task inTime with earlier |
      ⟨submitted, currentEpoch, task, assignments, rfl, rfl, rfl, found, early, isAssigned, member⟩
    · obtain ⟨result, listed, isWorker⟩ := List.mem_map.mp (tracked.inTime id worker earlier)
      exact List.mem_map.mpr ⟨result, results_next consistent call orderable listed, isWorker⟩
    · exact submitResult_stores found early isAssigned member

theorem complete_of_tracked (tracked : Tracked blake3 start before)
    (found : (managerAfter blake3 start before).tasks.lookup id = some task)
    (isAssigned : (managerAfter blake3 start before).workAssignments.lookup id = some assignments)
    (inTime : ∀ worker ∈ assignments.map WorkAssignment.worker, SubmittedInTime blake3 start before id worker) :
    rank .resultSubmitted ≤ rank task.status := by
  cases tracked.consistent.present id task found with
  | waiting _ none =>
    rw [none] at isAssigned
    cases isAssigned
  | finished _ _ _ _ _ _ late => exact late
  | working assigned isStored length distinct resultsDistinct inside status few =>
    rw [isAssigned] at isStored
    cases isStored
    -- all assigned workers have results, so there are as many as workers
    have subset : assignments.map WorkAssignment.worker ⊆
        ((managerAfter blake3 start before).resultsOf id).map WorkResult.worker := fun worker member =>
      tracked.inTime id worker (inTime worker member)
    have enough := (List.subperm_of_subset distinct subset).length_le
    rw [List.length_map, List.length_map, length] at enough
    omega

end

/-- Tasks move forward and are finished by their workers in every run of orderable calls. -/
theorem tasks_forward_only (blake3 : List UInt8 → Bytes32) (escrowManager : EscrowManager σ)
    (config : TaskManagerConfig) (calls : List TaskCall)
    (orderable : ∀ before call, before ++ [call] <+: calls →
      Orderable blake3 (managerAfter blake3 (TaskManager.new escrowManager config) before) call) :
    ForwardOnly blake3 (TaskManager.new escrowManager config) calls := by
  have tracked : ∀ before, before <+: calls → Tracked blake3 (TaskManager.new escrowManager config) before := by
    refine Runs.forall_prefixes ?_ ?_
    · refine ⟨⟨fun _ _ => ⟨rfl, rfl⟩, fun _ _ found => nomatch found⟩, fun _ _ found => (nomatch found), ?_, ?_, ?_⟩
      · rintro id earlier other _ _ ⟨_, _, _, _, part, _⟩
        simp at part
      · rintro id earlier _ ⟨_, _, _, _, part, _⟩
        simp at part
      · rintro id worker ⟨_, _, _, _, _, part, _⟩
        simp at part
    · intro before call part earlier
      exact tracked_next earlier (orderable before call part)
  refine ⟨fun before between id task part found => ?_, fun before id task part found => ?_, fun before id part => ?_,
    fun before id task assignments part found => complete_of_tracked (tracked before part) found⟩
  · induction between using List.reverseRecOn with
    | nil =>
      rw [List.append_nil]
      exact ⟨task, found, le_rfl⟩
    | append_singleton between call ih =>
      rw [← List.append_assoc] at part ⊢
      obtain ⟨earlier, isEarlier, forward⟩ := ih ((List.prefix_append _ [call]).trans part)
      have consistent := (tracked _ ((List.prefix_append (before ++ between) [call]).trans part)).consistent
      obtain ⟨later, isLater, further, _⟩ := task_next consistent call (orderable _ call part) isEarlier
      refine ⟨later, ?_, forward.trans further⟩
      rw [managerAfter_snoc]
      exact isLater
  · obtain ⟨earlier, lockedAt⟩ := (tracked before part).locked id task found
    exact ⟨earlier, lockedAt, fun other sponsor isOther => (tracked before part).once id earlier other _ _ lockedAt isOther⟩
  · have consistent := (tracked before part).consistent
    cases found : (managerAfter blake3 (TaskManager.new escrowManager config) before).tasks.lookup id with
    | none =>
      rw [(consistent.absent id found).2]
      exact ⟨List.nodup_nil, fun _ listed => absurd listed List.not_mem_nil⟩
    | some task =>
      cases consistent.present id task found with
      | waiting _ _ empty =>
        rw [empty]
        exact ⟨List.nodup_nil, fun _ listed => absurd listed List.not_mem_nil⟩
      | working assigned isAssigned _ _ distinct inside | finished assigned isAssigned _ _ distinct inside =>
        exact ⟨distinct, fun result listed => ⟨assigned, isAssigned, inside result listed⟩⟩

end

section

def fundedEscrow : EscrowManager MemoryStorage :=
  EscrowManager.new (BalanceManager.new { MemoryStorage.new with
    balances := (∅ : BalanceMap).insert ⟨Bytes32.replicate 0⟩ ⟨100⟩ })

def smallConfig : TaskManagerConfig := ⟨⟨1⟩, 100, 0, 5, 10⟩

def oneWorkerTask : ManagedTask where
  taskId := Bytes32.replicate 1
  taskType := .storage "data" 1 1
  inputCid := "input"
  sponsor := ⟨Bytes32.replicate 2⟩
  reward := ⟨10⟩
  collateralRequirement := ⟨0⟩
  deadlineEpoch := 10
  workerCount := 1
  status := .submitted
  finalityStatus := .pending

def submitOne : TaskCall := .submit 0 1 oneWorkerTask 1

def oneAssignment : WorkAssignment := ⟨Bytes32.replicate 3, Bytes32.replicate 1, ⟨Bytes32.replicate 4⟩⟩

theorem tasks_forward_only_one : ForwardOnly (fun _ => Bytes32.replicate 0) (TaskManager.new fundedEscrow smallConfig)
    [submitOne, .markFinalized oneWorkerTask.taskId, .assign oneWorkerTask.taskId [oneAssignment]] := by
  refine tasks_forward_only (fun _ => Bytes32.replicate 0) fundedEscrow smallConfig _ ?_
  rw [Runs.forall_steps_cons, Runs.forall_steps_cons, Runs.forall_steps_cons]
  exact ⟨fun _ => rfl, trivial, fun _ _ _ _ => List.nodup_singleton _, Runs.forall_steps_nil⟩

/-- A task that is submitted again goes back. -/
theorem resubmitted_goes_back : ¬ ForwardOnly (fun _ => Bytes32.replicate 0)
    (TaskManager.new fundedEscrow smallConfig) [submitOne, .markFinalized oneWorkerTask.taskId, submitOne] := by
  intro claim
  have found : (managerAfter (fun _ => Bytes32.replicate 0) (TaskManager.new fundedEscrow smallConfig)
      [submitOne, .markFinalized oneWorkerTask.taskId]).tasks.lookup oneWorkerTask.taskId =
        some { oneWorkerTask with status := .finalized, finalityStatus := .f1Complete } := by
    decide +kernel
  obtain ⟨later, isLater, forward⟩ := claim.forward _ [submitOne] _ _ List.prefix_rfl found
  have again : (managerAfter (fun _ => Bytes32.replicate 0) (TaskManager.new fundedEscrow smallConfig)
      [submitOne, .markFinalized oneWorkerTask.taskId, submitOne]).tasks.lookup oneWorkerTask.taskId =
        some oneWorkerTask := by
    decide +kernel
  rw [Option.some.inj (isLater.symm.trans again)] at forward
  exact absurd forward (by decide)

end

end AdicProof.Pouw
