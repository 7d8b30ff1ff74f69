import AdicCore.Governance.AxisCatalog
import AdicCore.Governance.Lifecycle
import AdicCore.Library.ByteKeys
import AdicCore.Library.TolerantOrder
import Mathlib.Data.List.Sort

namespace AdicModel.Governance

/-- The order of byte arrays. -/
def Hash.key (hash : Hash) : List Nat := hash.bytes.map UInt8.toNat

theorem Hash.key_injective : Function.Injective Hash.key := by
  rintro ⟨first, _⟩ ⟨second, _⟩ same
  have bytes : first = second := List.map_injective_iff.mpr (fun _ _ => UInt8.toNat_inj.mp) same
  cases bytes
  rfl

instance : LinearOrder Hash := LinearOrder.lift' Hash.key Hash.key_injective

/-- A proposal with its change of the axis catalog. -/
structure ContestedProposal extends GovernanceProposal where
  axisChanges : Option AxisCatalogChange
deriving DecidableEq

def GovernanceProposal.votePercentage (proposal : GovernanceProposal) : Option ℚ :=
  let totalDirectional := proposal.tallyYes + proposal.tallyNo
  if totalDirectional > 0 then some (proposal.tallyYes / totalDirectional) else none

inductive ConflictType where
  | overlappingParameters
  | overlappingAxes
  | overlappingEnactment

inductive ResolutionStatus where
  | pending
  | resolving
  | resolved
  | allRejected
deriving DecidableEq

structure ConflictSet where
  conflictId : Hash
  proposals : List Hash
  conflictType : ConflictType
  resolutionStatus : ResolutionStatus
  winner : Option Hash

/-- The margin is an exact number. -/
structure PriorityScore where
  proposalId : Hash
  classPriority : Nat
  finalityTime : Int
  quorumMargin : ℚ

def PriorityScore.compare (score other : PriorityScore) : Ordering :=
  match Ord.compare score.classPriority other.classPriority with
  | .gt => .gt
  | .lt => .lt
  | .eq =>
    match Ord.compare score.finalityTime other.finalityTime with
    | .lt => .gt
    | .gt => .lt
    | .eq =>
      let marginDiff := score.quorumMargin - other.quorumMargin
      if |marginDiff| > 1 / 10000 then if marginDiff > 0 then .gt else .lt
      else Ord.compare score.proposalId other.proposalId

/-- The last is where the source would index an empty list. -/
inductive ConflictError where
  | conflictingProposal (message : String)
  | proposalNotFound (id : String)
  | outOfBounds

structure ConflictResolver where
  conflicts : HashMap.Table Hash ConflictSet
  proposalToConflicts : HashMap.Table Hash (List Hash)

namespace ConflictResolver

def new : ConflictResolver := ⟨∅, ∅⟩

def checkPairConflict (p1 p2 : ContestedProposal) : Option ConflictType :=
  if p1.paramKeys.any (· ∈ p2.paramKeys) then some .overlappingParameters
  else if (p1.axisChanges.bind fun axis1 => p2.axisChanges.map fun axis2 => axis1.axisId == axis2.axisId) =
      some true then
    some .overlappingAxes
  else if ((p1.enactEpoch.toNat : Int) - p2.enactEpoch.toNat).natAbs < 100 then some .overlappingEnactment
  else none

def idsText (proposalIds : List Hash) : List UInt8 := (proposalIds.insertionSort (· ≤ ·)).flatMap Bytes32.bytes

def pushConflict (proposalId conflictId : Hash) (resolver : ConflictResolver) : ConflictResolver :=
  { resolver with
    proposalToConflicts := resolver.proposalToConflicts.insert proposalId
      ((resolver.proposalToConflicts.lookup proposalId).getD [] ++ [conflictId]) }

def priorityScore (proposal : ContestedProposal) : PriorityScore :=
  { proposalId := proposal.proposalId
    classPriority :=
      match proposal.proposalClass with
      | .constitutional => 2
      | .operational => 1
    finalityTime := proposal.creationTimestamp.timestamp
    quorumMargin := proposal.votePercentage.getD 0 }

def sortByPriority (scores : List PriorityScore) : List PriorityScore :=
  scores.insertionSort fun a b => (a.compare b).swap ≠ .gt

def scoreOf (proposals : HashMap.Table Hash ContestedProposal) (proposalId : Hash) :
    Except ConflictError PriorityScore :=
  match proposals.lookup proposalId with
  | none => .error (.proposalNotFound (ProposalLifecycleManager.shortId proposalId))
  | some proposal => .ok (priorityScore proposal)

def setConflict (conflictSet : ConflictSet) (conflictId : Hash) (resolver : ConflictResolver) : ConflictResolver :=
  { resolver with conflicts := resolver.conflicts.insert conflictId conflictSet }

/-- The result, and the resolver that is left. -/
def resolveConflictSet (conflictId : Hash) (proposals : HashMap.Table Hash ContestedProposal)
    (resolver : ConflictResolver) : Except ConflictError Hash × ConflictResolver :=
  match resolver.conflicts.lookup conflictId with
  | none => (.error (.conflictingProposal "Conflict not found"), resolver)
  | some conflictSet =>
    let resolving := resolver.setConflict { conflictSet with resolutionStatus := .resolving } conflictId
    match conflictSet.proposals.mapM (scoreOf proposals) with
    | .error error => (.error error, resolving)
    | .ok scores =>
      match sortByPriority scores with
      | [] => (.error .outOfBounds, resolving)
      | best :: _ =>
        (.ok best.proposalId, resolving.setConflict
          { conflictSet with winner := some best.proposalId, resolutionStatus := .resolved } conflictId)

section

variable (blake3 : List UInt8 → Bytes32)

def computeConflictId (proposalIds : List Hash) : Hash := blake3 (idsText proposalIds)

/-- A pair of proposals, and the conflicts that are detected before it. -/
def detectPair (p1 : ContestedProposal) (state : ConflictResolver × List ConflictSet) (p2 : ContestedProposal) :
    ConflictResolver × List ConflictSet :=
  match checkPairConflict p1 p2 with
  | none => state
  | some conflictType =>
    let conflictId := computeConflictId blake3 [p1.proposalId, p2.proposalId]
    let conflictSet : ConflictSet :=
      { conflictId
        proposals := [p1.proposalId, p2.proposalId]
        conflictType
        resolutionStatus := .pending
        winner := none }
    let stored := state.1.setConflict conflictSet conflictId
    (pushConflict p2.proposalId conflictId (pushConflict p1.proposalId conflictId stored), state.2 ++ [conflictSet])

def detectPairs : List ContestedProposal → ConflictResolver × List ConflictSet → ConflictResolver × List ConflictSet
  | [], state => state
  | p1 :: rest, state => detectPairs rest (rest.foldl (detectPair blake3 p1) state)

def isActive (proposal : ContestedProposal) : Bool := proposal.status = .succeeded || proposal.status = .enacting

def detectConflicts (proposals : List ContestedProposal) (resolver : ConflictResolver) :
    List ConflictSet × ConflictResolver :=
  let detected := detectPairs blake3 (proposals.filter isActive) (resolver, [])
  (detected.2, detected.1)

end

end ConflictResolver

inductive ConflictCall where
  | detect (proposals : List ContestedProposal)
  | resolve (conflictId : Hash)

def ConflictResolver.next (blake3 : List UInt8 → Bytes32) (proposals : HashMap.Table Hash ContestedProposal)
    (resolver : ConflictResolver) : ConflictCall → ConflictResolver
  | .detect listed => (resolver.detectConflicts blake3 listed).2
  | .resolve conflictId => (resolver.resolveConflictSet conflictId proposals).2

end AdicModel.Governance

open AdicModel AdicModel.Governance AdicModel.Governance.ConflictResolver

namespace AdicProof.Governance

structure StrictPriority (scores : List PriorityScore) : Prop where
  antisymmetric : ∀ a ∈ scores, ∀ b ∈ scores, b.compare a = (a.compare b).swap
  total : ∀ a ∈ scores, ∀ b ∈ scores, a ≠ b → a.compare b ≠ .eq
  transitive : ∀ a ∈ scores, ∀ b ∈ scores, ∀ c ∈ scores, a.compare b = .gt → b.compare c = .gt → a.compare c = .gt

structure CloseCycle (a b c : PriorityScore) : Prop where
  classes : a.classPriority = b.classPriority ∧ b.classPriority = c.classPriority
  times : a.finalityTime = b.finalityTime ∧ b.finalityTime = c.finalityTime
  first : |a.quorumMargin - b.quorumMargin| ≤ 1 / 10000 ∧ b.proposalId < a.proposalId
  second : |b.quorumMargin - c.quorumMargin| ≤ 1 / 10000 ∧ c.proposalId < b.proposalId
  closing : 1 / 10000 < c.quorumMargin - a.quorumMargin

def HasCycle (scores : List PriorityScore) : Prop := ∃ a ∈ scores, ∃ b ∈ scores, ∃ c ∈ scores, CloseCycle a b c

def criteria : TolerantOrder.Criteria PriorityScore (ℕ ×ₗ ℤᵒᵈ) Hash ℚ where
  rank score := toLex (score.classPriority, OrderDual.toDual score.finalityTime)
  measure score := score.quorumMargin
  identity score := score.proposalId
  tolerance := 1 / 10000
  nonneg := by norm_num

section

variable {a b c : PriorityScore} {scores : List PriorityScore}

theorem rank_eq_iff : criteria.rank a = criteria.rank b ↔
    a.classPriority = b.classPriority ∧ a.finalityTime = b.finalityTime := by
  simp [criteria]

theorem rank_lt_iff : criteria.rank b < criteria.rank a ↔
    b.classPriority < a.classPriority ∨ b.classPriority = a.classPriority ∧ a.finalityTime < b.finalityTime := by
  simp [criteria, Prod.Lex.toLex_lt_toLex]

theorem compare_same (classes : a.classPriority = b.classPriority) (times : a.finalityTime = b.finalityTime) :
    a.compare b = if |a.quorumMargin - b.quorumMargin| > 1 / 10000 then
      if a.quorumMargin - b.quorumMargin > 0 then .gt else .lt else Ord.compare a.proposalId b.proposalId := by
  simp [PriorityScore.compare, Nat.compare_eq_eq.mpr classes, compare_eq_iff_eq.mpr times]

theorem compare_cases : a.compare b = .gt ∧ criteria.Beats a b ∨ a.compare b = .lt ∧ criteria.Beats b a ∨
    a.compare b = .eq ∧ a.proposalId = b.proposalId ∧ ¬criteria.Beats a b ∧ ¬criteria.Beats b a := by
  rcases lt_trichotomy a.classPriority b.classPriority with lower | sameClass | higher
  · refine Or.inr (Or.inl ⟨?_, Or.inl (rank_lt_iff.mpr (Or.inl lower))⟩)
    simp [PriorityScore.compare, Nat.compare_eq_lt.mpr lower]
  · have classes := Nat.compare_eq_eq.mpr sameClass
    rcases lt_trichotomy a.finalityTime b.finalityTime with earlier | sameTime | later
    · refine Or.inl ⟨?_, Or.inl (rank_lt_iff.mpr (Or.inr ⟨sameClass.symm, earlier⟩))⟩
      simp [PriorityScore.compare, classes, compare_lt_iff_lt.mpr earlier]
    · have ranks := rank_eq_iff.mpr ⟨sameClass, sameTime⟩
      rw [compare_same sameClass sameTime]
      by_cases far : |a.quorumMargin - b.quorumMargin| > 1 / 10000
      · rw [if_pos far]
        by_cases ahead : a.quorumMargin - b.quorumMargin > 0
        · rw [abs_of_pos ahead] at far
          exact Or.inl ⟨if_pos ahead, Or.inr ⟨ranks, Or.inl far⟩⟩
        · rw [abs_of_nonpos (not_lt.mp ahead), neg_sub] at far
          exact Or.inr (Or.inl ⟨if_neg ahead, Or.inr ⟨ranks.symm, Or.inl far⟩⟩)
      · rw [if_neg far]
        have near := not_lt.mp far
        rcases lt_trichotomy a.proposalId b.proposalId with smaller | sameId | larger
        · rw [abs_sub_comm] at near
          exact Or.inr (Or.inl ⟨compare_lt_iff_lt.mpr smaller, Or.inr ⟨ranks.symm, Or.inr ⟨near, smaller⟩⟩⟩)
        · refine Or.inr (Or.inr ⟨compare_eq_iff_eq.mpr sameId, sameId, ?_, ?_⟩)
          · exact TolerantOrder.not_beats_of_tie ranks sameId near
          · exact TolerantOrder.not_beats_of_tie ranks.symm sameId.symm (by rwa [abs_sub_comm] at near)
        · exact Or.inl ⟨compare_gt_iff_gt.mpr larger, Or.inr ⟨ranks, Or.inr ⟨near, larger⟩⟩⟩
    · refine Or.inr (Or.inl ⟨?_, Or.inl (rank_lt_iff.mpr (Or.inr ⟨sameClass, later⟩))⟩)
      simp [PriorityScore.compare, classes, compare_gt_iff_gt.mpr later]
  · refine Or.inl ⟨?_, Or.inl (rank_lt_iff.mpr (Or.inl higher))⟩
    simp [PriorityScore.compare, Nat.compare_eq_gt.mpr higher]

theorem compare_eq_gt_iff : a.compare b = .gt ↔ criteria.Beats a b := by
  rcases compare_cases (a := a) (b := b) with ⟨greater, beats⟩ | ⟨less, beats⟩ | ⟨equal, _, neither, _⟩
  · simp [greater, beats]
  · simp [less, TolerantOrder.beats_asymm beats]
  · simp [equal, neither]

theorem compare_eq_lt_iff : a.compare b = .lt ↔ criteria.Beats b a := by
  rcases compare_cases (a := a) (b := b) with ⟨greater, beats⟩ | ⟨less, beats⟩ | ⟨equal, _, _, neither⟩
  · simp [greater, TolerantOrder.beats_asymm beats]
  · simp [less, beats]
  · simp [equal, neither]

theorem compare_swap : b.compare a = (a.compare b).swap := by
  rcases compare_cases (a := a) (b := b) with ⟨greater, beats⟩ | ⟨less, beats⟩ | ⟨equal, _, first, second⟩
  · rw [greater, compare_eq_lt_iff.mpr beats]
    rfl
  · rw [less, compare_eq_gt_iff.mpr beats]
    rfl
  · rcases compare_cases (a := b) (b := a) with ⟨_, beats⟩ | ⟨_, beats⟩ | ⟨back, _⟩
    · exact absurd beats second
    · exact absurd beats first
    · rw [equal, back]
      rfl

theorem compare_ne_eq (different : a.proposalId ≠ b.proposalId) : a.compare b ≠ .eq := by
  intro equal
  rcases compare_cases (a := a) (b := b) with ⟨greater, _⟩ | ⟨less, _⟩ | ⟨_, same, _⟩
  · rw [greater] at equal
    cases equal
  · rw [less] at equal
    cases equal
  · exact different same

theorem closeCycle_iff : CloseCycle a b c ↔ criteria.Cycle a b c := by
  constructor
  · intro cycle
    exact ⟨⟨rank_eq_iff.mpr ⟨cycle.classes.1, cycle.times.1⟩, rank_eq_iff.mpr ⟨cycle.classes.2, cycle.times.2⟩⟩,
      cycle.first, cycle.second, cycle.closing⟩
  · intro cycle
    obtain ⟨firstClass, firstTime⟩ := rank_eq_iff.mp cycle.ranks.1
    obtain ⟨secondClass, secondTime⟩ := rank_eq_iff.mp cycle.ranks.2
    exact ⟨⟨firstClass, secondClass⟩, ⟨firstTime, secondTime⟩, cycle.first, cycle.second, cycle.closing⟩

theorem strictPriority_iff (distinct : (scores.map fun score => score.proposalId).Nodup) :
    StrictPriority scores ↔ ¬HasCycle scores := by
  have injective := List.inj_on_of_nodup_map distinct
  have cycles : HasCycle scores ↔ ∃ a ∈ scores, ∃ b ∈ scores, ∃ c ∈ scores, criteria.Cycle a b c := by
    simp only [HasCycle, closeCycle_iff]
  rw [cycles, ← TolerantOrder.transitive_iff fun a memberA b memberB same => injective memberA memberB same]
  constructor
  · intro strict a memberA b memberB c memberC first second
    exact compare_eq_gt_iff.mp (strict.transitive a memberA b memberB c memberC (compare_eq_gt_iff.mpr first)
      (compare_eq_gt_iff.mpr second))
  · intro transitive
    refine ⟨fun a _ b _ => compare_swap, fun a memberA b memberB different => ?_, ?_⟩
    · exact compare_ne_eq fun same => different (injective memberA memberB same)
    · intro a memberA b memberB c memberC first second
      exact compare_eq_gt_iff.mpr (transitive a memberA b memberB c memberC (compare_eq_gt_iff.mp first)
        (compare_eq_gt_iff.mp second))

end

structure ContestedSet where
  members : List ContestedProposal
  distinct : (members.map fun proposal => proposal.proposalId).Nodup

namespace ContestedSet

def scores (contested : ContestedSet) : List PriorityScore := contested.members.map priorityScore

def table (contested : ContestedSet) : HashMap.Table Hash ContestedProposal :=
  HashMap.ofPairs (contested.members.map fun proposal => (proposal.proposalId, proposal))

def resolverAfter (blake3 : List UInt8 → Bytes32) (contested : ContestedSet) (calls : List ConflictCall) :
    ConflictResolver :=
  Runs.after (ConflictResolver.next blake3 contested.table) .new calls

def Detects (contested : ContestedSet) (calls : List ConflictCall) : Prop :=
  ∀ listed, .detect listed ∈ calls → listed ⊆ contested.members

def Settled (contested : ContestedSet) (resolver : ConflictResolver) : Prop :=
  ∀ p ∈ contested.members, ∀ q ∈ contested.members, p ≠ q → ∃ conflictId conflictSet,
    resolver.conflicts.lookup conflictId = some conflictSet ∧ p.proposalId ∈ conflictSet.proposals ∧
      q.proposalId ∈ conflictSet.proposals ∧ conflictSet.resolutionStatus = .resolved

end ContestedSet

def LosesNone (resolver : ConflictResolver) (proposal : ContestedProposal) : Prop :=
  ∀ conflictId conflictSet, resolver.conflicts.lookup conflictId = some conflictSet →
    proposal.proposalId ∈ conflictSet.proposals → ∀ winner, conflictSet.winner = some winner →
      winner = proposal.proposalId

def OneWinner (blake3 : List UInt8 → Bytes32) (contested : ContestedSet) : Prop :=
  ∃ winner ∈ contested.members, ∀ calls, contested.Detects calls →
    contested.Settled (contested.resolverAfter blake3 calls) →
      ∀ proposal ∈ contested.members, LosesNone (contested.resolverAfter blake3 calls) proposal ↔ proposal = winner

structure Fair (contested : ContestedSet) (conflictSet : ConflictSet) : Prop where
  pair : ∃ p ∈ contested.members, ∃ q ∈ contested.members, conflictSet.proposals = [p.proposalId, q.proposalId] ∧
    ∀ winner, conflictSet.winner = some winner →
      winner = p.proposalId ∧ ¬criteria.Beats (priorityScore q) (priorityScore p) ∨
        winner = q.proposalId ∧ ¬criteria.Beats (priorityScore p) (priorityScore q)
  decided : conflictSet.resolutionStatus = .resolved → conflictSet.winner ≠ none

def AllFair (contested : ContestedSet) (resolver : ConflictResolver) : Prop :=
  ∀ conflictId conflictSet, resolver.conflicts.lookup conflictId = some conflictSet → Fair contested conflictSet

section

variable {blake3 : List UInt8 → Bytes32} {contested : ContestedSet} {resolver : ConflictResolver}
  {p q : ContestedProposal} {conflictSet : ConflictSet} {conflictId : Hash}

theorem lookup_member (member : p ∈ contested.members) : contested.table.lookup p.proposalId = some p := by
  apply (HashMap.lookup_ofPairs _).mpr
  · exact List.mem_map.mpr ⟨p, member, rfl⟩
  · rw [List.map_map]
    exact contested.distinct

theorem allFair_setConflict (fair : AllFair contested resolver) (added : Fair contested conflictSet) :
    AllFair contested (resolver.setConflict conflictSet conflictId) := by
  intro other stored found
  rw [ConflictResolver.setConflict, HashMap.lookup_insert_eq] at found
  split at found
  · cases found
    exact added
  · exact fair other stored found

variable {state : ConflictResolver × List ConflictSet}

theorem detectPair_fair (memberP : p ∈ contested.members) (memberQ : q ∈ contested.members)
    (fair : AllFair contested state.1) :
    AllFair contested (detectPair blake3 p state q).1 := by
  rw [detectPair]
  cases checkPairConflict p q with
  | none => exact fair
  | some conflictType =>
    apply allFair_setConflict fair
    refine ⟨⟨p, memberP, q, memberQ, rfl, fun winner chosen => ?_⟩, fun resolved => ?_⟩
    · cases chosen
    · cases resolved

theorem foldl_detectPair_fair (memberP : p ∈ contested.members) {rest : List ContestedProposal}
    (inside : rest ⊆ contested.members)
    (fair : AllFair contested state.1) : AllFair contested (rest.foldl (detectPair blake3 p) state).1 := by
  induction rest generalizing state with
  | nil => exact fair
  | cons q rest ih =>
    have memberQ := inside List.mem_cons_self
    exact ih (fun _ member => inside (List.mem_cons_of_mem _ member)) (detectPair_fair memberP memberQ fair)

theorem detectPairs_fair {listed : List ContestedProposal} (inside : listed ⊆ contested.members)
    (fair : AllFair contested state.1) :
    AllFair contested (detectPairs blake3 listed state).1 := by
  induction listed generalizing state with
  | nil => exact fair
  | cons p rest ih =>
    have tail : rest ⊆ contested.members := fun _ member => inside (List.mem_cons_of_mem _ member)
    exact ih tail (foldl_detectPair_fair (inside List.mem_cons_self) tail fair)

def preferred (p q : ContestedProposal) : ContestedProposal :=
  if (priorityScore p).compare (priorityScore q) = .lt then q else p

theorem sortByPriority_pair (p q : ContestedProposal) :
    ∃ other, sortByPriority [priorityScore p, priorityScore q] = [priorityScore (preferred p q), other] := by
  by_cases less : (priorityScore p).compare (priorityScore q) = .lt
  · exact ⟨priorityScore p, by simp [sortByPriority, preferred, less]⟩
  · exact ⟨priorityScore q, by simp [sortByPriority, preferred, less]⟩

theorem preferred_cases (p q : ContestedProposal) :
    preferred p q = p ∧ ¬criteria.Beats (priorityScore q) (priorityScore p) ∨
      preferred p q = q ∧ ¬criteria.Beats (priorityScore p) (priorityScore q) := by
  by_cases less : (priorityScore p).compare (priorityScore q) = .lt
  · exact Or.inr ⟨if_pos less, TolerantOrder.beats_asymm (compare_eq_lt_iff.mp less)⟩
  · exact Or.inl ⟨if_neg less, fun beats => less (compare_eq_lt_iff.mpr beats)⟩

theorem scores_of_pair (memberP : p ∈ contested.members) (memberQ : q ∈ contested.members) :
    [p.proposalId, q.proposalId].mapM (scoreOf contested.table) = .ok [priorityScore p, priorityScore q] := by
  have first : scoreOf contested.table p.proposalId = .ok (priorityScore p) := by
    rw [scoreOf, lookup_member memberP]
  have second : scoreOf contested.table q.proposalId = .ok (priorityScore q) := by
    rw [scoreOf, lookup_member memberQ]
  simp only [List.mapM_cons, first, second]
  rfl

theorem resolveConflictSet_pair (memberP : p ∈ contested.members) (memberQ : q ∈ contested.members)
    (found : resolver.conflicts.lookup conflictId = some conflictSet)
    (pair : conflictSet.proposals = [p.proposalId, q.proposalId]) :
    resolver.resolveConflictSet conflictId contested.table = (.ok (preferred p q).proposalId,
      (resolver.setConflict { conflictSet with resolutionStatus := .resolving } conflictId).setConflict
        { conflictSet with winner := some (preferred p q).proposalId, resolutionStatus := .resolved } conflictId) := by
  obtain ⟨other, sorted⟩ := sortByPriority_pair p q
  simp only [resolveConflictSet, found, pair, scores_of_pair memberP memberQ, sorted]
  rfl

theorem resolveConflictSet_fair (fair : AllFair contested resolver) :
    AllFair contested (resolver.resolveConflictSet conflictId contested.table).2 := by
  cases found : resolver.conflicts.lookup conflictId with
  | none => simpa only [resolveConflictSet, found] using fair
  | some conflictSet =>
    obtain ⟨⟨p, memberP, q, memberQ, pair, earlier⟩, _⟩ := fair conflictId conflictSet found
    rw [resolveConflictSet_pair memberP memberQ found pair]
    apply allFair_setConflict
    · apply allFair_setConflict fair
      refine ⟨⟨p, memberP, q, memberQ, pair, earlier⟩, fun resolved => ?_⟩
      cases resolved
    · refine ⟨⟨p, memberP, q, memberQ, pair, fun winner chosen => ?_⟩, fun _ => Option.some_ne_none _⟩
      cases chosen
      rcases preferred_cases p q with ⟨first, fairFirst⟩ | ⟨second, fairSecond⟩
      · exact Or.inl ⟨by rw [first], fairFirst⟩
      · exact Or.inr ⟨by rw [second], fairSecond⟩

theorem resolverAfter_fair {calls : List ConflictCall} (detects : contested.Detects calls) :
    AllFair contested (contested.resolverAfter blake3 calls) := by
  have initially : AllFair contested .new := fun _ _ found => by cases found
  refine @Runs.invariant_of_conditions _ _ _ _ _ (AllFair contested)
    (fun call _ => ∀ listed, call = .detect listed → listed ⊆ contested.members) initially ?_ ?_ calls
    (List.prefix_refl calls)
  · intro current call fair inside
    cases call with
    | detect listed =>
      have active : listed.filter isActive ⊆ contested.members := fun _ member =>
        inside listed rfl (List.mem_of_mem_filter member)
      exact detectPairs_fair active fair
    | resolve conflictId => exact resolveConflictSet_fair fair
  · rintro before call part listed rfl
    exact detects listed (part.subset (by simp))

theorem same_member (memberP : p ∈ contested.members) (memberQ : q ∈ contested.members)
    (same : p.proposalId = q.proposalId) : p = q :=
  List.inj_on_of_nodup_map contested.distinct memberP memberQ same

theorem loses_of_beaten (fair : AllFair contested resolver) (settled : contested.Settled resolver)
    (memberP : p ∈ contested.members) (memberQ : q ∈ contested.members)
    (beaten : criteria.Beats (priorityScore q) (priorityScore p)) : ¬LosesNone resolver p := by
  have different : p ≠ q := by
    rintro rfl
    exact TolerantOrder.beats_asymm beaten beaten
  intro unbeaten
  obtain ⟨conflictId, conflictSet, found, hasP, hasQ, resolved⟩ := settled p memberP q memberQ different
  obtain ⟨⟨r, memberR, s, memberS, pair, choice⟩, decided⟩ := fair conflictId conflictSet found
  obtain ⟨chosen, isWinner⟩ := Option.ne_none_iff_exists'.mp (decided resolved)
  have isP := unbeaten conflictId conflictSet found hasP chosen isWinner
  rw [pair, List.mem_pair] at hasQ
  rcases choice chosen isWinner with ⟨first, unbeatenR⟩ | ⟨second, unbeatenS⟩
  · have sameR := same_member memberR memberP (first.symm.trans isP)
    have sameS := same_member memberQ memberS
      (hasQ.resolve_left fun same => different (same_member memberP memberQ (isP.symm.trans (first.trans same.symm))))
    rw [sameR, ← sameS] at unbeatenR
    exact unbeatenR beaten
  · have sameS := same_member memberS memberP (second.symm.trans isP)
    have sameR := same_member memberQ memberR
      (hasQ.resolve_right fun same => different (same_member memberP memberQ (isP.symm.trans (second.trans same.symm))))
    rw [sameS, ← sameR] at unbeatenS
    exact unbeatenS beaten

theorem losesNone_iff {winner : ContestedProposal} (member : winner ∈ contested.members)
    (best : ∀ other ∈ contested.members, other ≠ winner → criteria.Beats (priorityScore winner) (priorityScore other))
    (fair : AllFair contested resolver) (settled : contested.Settled resolver) (memberP : p ∈ contested.members) :
    LosesNone resolver p ↔ p = winner := by
  constructor
  · intro unbeaten
    by_contra different
    exact loses_of_beaten fair settled memberP member (best p memberP different) unbeaten
  · rintro rfl conflictId conflictSet found involved chosen isWinner
    obtain ⟨⟨r, memberR, s, memberS, pair, choice⟩, _⟩ := fair conflictId conflictSet found
    rw [pair, List.mem_pair] at involved
    by_contra lost
    rcases choice chosen isWinner with ⟨first, unbeaten⟩ | ⟨second, unbeaten⟩
    · have isS : p = s := same_member memberP memberS (involved.resolve_left fun same => lost (first.trans same.symm))
      rw [← isS] at unbeaten
      exact unbeaten (best r memberR fun same => lost (first.trans (by rw [same])))
    · have isR : p = r := same_member memberP memberR (involved.resolve_right fun same => lost (second.trans same.symm))
      rw [← isR] at unbeaten
      exact unbeaten (best s memberS fun same => lost (second.trans (by rw [same])))

theorem scores_distinct (contested : ContestedSet) :
    (contested.scores.map fun score => score.proposalId).Nodup := by
  rw [ContestedSet.scores, List.map_map]
  exact contested.distinct

theorem oneWinner_of_strict (strict : StrictPriority contested.scores) (nonempty : contested.members ≠ []) :
    OneWinner blake3 contested := by
  have scored : ∀ {p}, p ∈ contested.members → priorityScore p ∈ contested.scores := fun member =>
    List.mem_map_of_mem member
  obtain ⟨winner, member, best⟩ := @TolerantOrder.exists_best _
    (fun p q => criteria.Beats (priorityScore p) (priorityScore q)) _ nonempty
    (fun p memberP q memberQ different =>
      TolerantOrder.beats_total fun same => different (same_member memberP memberQ same))
    (fun a memberA b memberB c memberC first second => compare_eq_gt_iff.mp (strict.transitive _ (scored memberA) _
      (scored memberB) _ (scored memberC) (compare_eq_gt_iff.mpr first) (compare_eq_gt_iff.mpr second)))
  refine ⟨winner, member, fun calls detects settled p memberP => ?_⟩
  exact losesNone_iff member best (resolverAfter_fair detects) settled memberP

end

def CollisionFree (blake3 : List UInt8 → Bytes32) (contested : ContestedSet) : Prop :=
  ∀ p ∈ contested.members, ∀ q ∈ contested.members, ∀ r ∈ contested.members, ∀ s ∈ contested.members,
    blake3 (idsText [p.proposalId, q.proposalId]) = blake3 (idsText [r.proposalId, s.proposalId]) →
      idsText [p.proposalId, q.proposalId] = idsText [r.proposalId, s.proposalId]

/-- Scores are in a strict order exactly if no three of them are close to their neighbours but not at the ends. -/
theorem priority_consistent_iff (blake3 : List UInt8 → Bytes32) (scores : List PriorityScore)
    (contested : ContestedSet) :
    ((scores.map fun score => score.proposalId).Nodup → (StrictPriority scores ↔ ¬HasCycle scores)) ∧
      (StrictPriority contested.scores ∧ (contested.members ≠ [] → OneWinner blake3 contested) ↔
        ¬HasCycle contested.scores) := by
  refine ⟨fun distinct => strictPriority_iff distinct, ?_⟩
  have strict := strictPriority_iff (scores_distinct contested)
  constructor
  · exact fun holds => strict.mp holds.1
  · intro acyclic
    exact ⟨strict.mpr acyclic, oneWinner_of_strict (strict.mpr acyclic)⟩

def closeProposal (idByte : UInt8) (yes : ℚ) : ContestedProposal where
  proposalId := Bytes32.replicate idByte
  proposalClass := .operational
  proposerPk := ⟨Bytes32.replicate 9⟩
  paramKeys := ["k_core"]
  newValues := .null
  treasuryGrant := none
  enactEpoch := 10
  creationTimestamp := ⟨0, 0⟩
  votingEndTimestamp := ⟨100, 0⟩
  status := .succeeded
  tallyYes := yes
  tallyNo := 100000 - yes
  tallyAbstain := 0
  axisChanges := none

def closeSet : ContestedSet where
  members := [closeProposal 4 60000, closeProposal 2 60008, closeProposal 1 60016]
  distinct := by decide

def sumHash (text : List UInt8) : Bytes32 := Bytes32.replicate text.sum

theorem closeSet_cycle : CloseCycle (priorityScore (closeProposal 4 60000)) (priorityScore (closeProposal 2 60008))
    (priorityScore (closeProposal 1 60016)) where
  classes := ⟨rfl, rfl⟩
  times := ⟨rfl, rfl⟩
  first := by decide +kernel
  second := by decide +kernel
  closing := by decide +kernel

theorem closeSet_collisionFree : CollisionFree sumHash closeSet := by
  show ∀ p ∈ closeSet.members, ∀ q ∈ closeSet.members, ∀ r ∈ closeSet.members, ∀ s ∈ closeSet.members, _ → _
  decide +kernel

def closeCalls : List ConflictCall :=
  [.detect closeSet.members, .resolve (Bytes32.replicate 192), .resolve (Bytes32.replicate 160),
    .resolve (Bytes32.replicate 96)]

theorem closeSet_settled : closeSet.Settled (closeSet.resolverAfter sumHash closeCalls) := by
  have resolved : ∀ p ∈ closeSet.members, ∀ q ∈ closeSet.members, p.proposalId ≠ q.proposalId →
      ((closeSet.resolverAfter sumHash closeCalls).conflicts.lookup
        (computeConflictId sumHash [p.proposalId, q.proposalId])).any (fun conflictSet =>
          decide (p.proposalId ∈ conflictSet.proposals ∧ q.proposalId ∈ conflictSet.proposals ∧
            conflictSet.resolutionStatus = .resolved)) = true := by
    decide +kernel
  intro p memberP q memberQ different
  have found := resolved p memberP q memberQ fun same => different (same_member memberP memberQ same)
  obtain ⟨conflictSet, found, holds⟩ := (Option.any_eq_true _ _).mp found
  exact ⟨_, conflictSet, found, of_decide_eq_true holds⟩

theorem closeSet_beaten : ∀ p ∈ closeSet.members, ∃ q ∈ closeSet.members,
    criteria.Beats (priorityScore q) (priorityScore p) := by
  obtain ⟨first, second, back⟩ := (closeCycle_iff.mp closeSet_cycle).beats
  intro p member
  have cases : p = closeProposal 4 60000 ∨ p = closeProposal 2 60008 ∨ p = closeProposal 1 60016 := by
    simpa [closeSet] using member
  rcases cases with rfl | rfl | rfl
  · exact ⟨_, by simp [closeSet], back⟩
  · exact ⟨_, by simp [closeSet], first⟩
  · exact ⟨_, by simp [closeSet], second⟩

/-- Each of three mutually conflicting proposals loses a pair. -/
theorem close_margins_no_winner :
    ¬∀ (blake3 : List UInt8 → Bytes32) (contested : ContestedSet), CollisionFree blake3 contested →
      (∀ proposal ∈ contested.members, isActive proposal = true) →
      (contested.members.Pairwise fun p q => (checkPairConflict p q).isSome) →
      StrictPriority contested.scores ∧ (contested.members ≠ [] → OneWinner blake3 contested) := by
  intro claimed
  have active : ∀ proposal ∈ closeSet.members, isActive proposal = true := by decide
  have conflicts : closeSet.members.Pairwise fun p q => (checkPairConflict p q).isSome := by decide
  obtain ⟨_, oneWinner⟩ := claimed sumHash closeSet closeSet_collisionFree active conflicts
  obtain ⟨winner, member, unique⟩ := oneWinner (by simp [closeSet])
  have detects : closeSet.Detects closeCalls := by simp [ContestedSet.Detects, closeCalls]
  obtain ⟨other, memberOther, beaten⟩ := closeSet_beaten winner member
  have unbeaten := (unique closeCalls detects closeSet_settled winner member).mpr rfl
  exact loses_of_beaten (resolverAfter_fair detects) closeSet_settled member memberOther beaten unbeaten

end AdicProof.Governance
