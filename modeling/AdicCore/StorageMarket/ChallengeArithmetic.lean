import AdicCore.Library.MachineWords
import AdicCore.StorageMarket.Payouts

open MachineWords
open AdicModel.Economics

namespace AdicModel.StorageMarket.ProofCycleManager

def orPanicked {α : Type} : Option α → Except StorageMarketError α
  | some value => .ok value
  | none => .error .panicked

section

variable (mode : Overflow)

def numChunksIn (deal : StorageDeal) : Option UInt64 := do
  let raised ← mode.add deal.dataSize 4096
  let last ← mode.sub raised 1
  return last / 4096

def challengeIndexIn (seed : Bytes32) (chunks : UInt64) (i : Nat) : Option (Option UInt64) := do
  let offset ← mode.result (i * 8 < 2 ^ 32) (UInt32.ofNat i * 8).toNat
  if offset + 8 ≤ seed.bytes.length then
    return some (← remainder (u64FromLeBytes ((seed.bytes.drop offset).take 8)) chunks)
  else return none

def challengeIndicesIn (config : ProofCycleConfig) (seed : Bytes32) (chunks : UInt64) : Option (List UInt64) := do
  let rounds ← (List.range config.chunksPerChallenge.toNat).mapM (challengeIndexIn mode seed chunks)
  return rounds.reduceOption

variable {L : Type}

/-- The generation in a build that stops at overflows or goes on. -/
def generateChallengeIn (blake3 : List UInt8 → Bytes32) (states : VrfStates) (deal : StorageDeal)
    (epoch currentEpoch : UInt64) : MarketCall ProofCycleManager L (List UInt64) := do
  if deal.status ≠ .active then throw (.invalidStateTransition deal.status.debug "Challenge generation")
  let config := (← getManager).config
  let seed ← checked (challengeSeed blake3 states config deal epoch currentEpoch)
  let chunks ← checked (orPanicked (numChunksIn mode deal))
  let indices ← checked (orPanicked (challengeIndicesIn mode config seed chunks))
  modifyManager fun manager =>
    { manager with pendingChallenges := manager.pendingChallenges.insert deal.dealId indices }
  return indices

/-- The check in a build that stops at overflows or goes on. -/
def checkMissedProofsIn (ledger : Ledger L) (scale : Scale) (deal : StorageDeal) (currentEpoch : UInt64) :
    MarketCall ProofCycleManager L StorageDeal := do
  match deal.startEpoch with
  | none => return deal
  | some startEpoch =>
    let expectedProofs ← checked (orPanicked (divide (saturatingSub currentEpoch startEpoch) deal.dealDurationEpochs))
    let manager ← getManager
    let proofs := (manager.proofs.lookup deal.dealId).getD []
    if UInt64.ofNat proofs.length < expectedProofs then
      let lastProofEpoch := (proofs.getLast?.map StorageProof.proofEpoch).getD startEpoch
      let due ← checked (orPanicked (mode.add lastProofEpoch deal.dealDurationEpochs))
      if saturatingSub currentEpoch due > manager.config.proofGracePeriod then
        slashProvider ledger scale deal
        checked (deal.transitionTo .failed)
      else return deal
    else return deal

end

end AdicModel.StorageMarket.ProofCycleManager

open AdicModel AdicModel.StorageMarket AdicModel.StorageMarket.ProofCycleManager

namespace AdicProof.StorageMarket

section

variable {mode : Overflow} {L : Type} {blake3 : List UInt8 → Bytes32} {states : VrfStates} {config : ProofCycleConfig}
  {deal : StorageDeal} {epoch currentEpoch chunks : UInt64} {seed : Bytes32}

def indexAt (seed : Bytes32) (chunks : UInt64) (i : Nat) : Option UInt64 :=
  let offset := (UInt32.ofNat i * 8).toNat
  if offset + 8 ≤ seed.bytes.length then some (u64FromLeBytes ((seed.bytes.drop offset).take 8) % chunks) else none

theorem challengeIndices_eq :
    challengeIndices config seed chunks = (List.range config.chunksPerChallenge.toNat).filterMap (indexAt seed chunks) :=
  rfl

theorem challengeIndexIn_eq (positive : chunks ≠ 0) {i : Nat} (fits : mode = .wraps ∨ i * 8 < 2 ^ 32) :
    challengeIndexIn mode seed chunks i = some (indexAt seed chunks i) := by
  unfold challengeIndexIn indexAt remainder
  have offset : mode.result (i * 8 < 2 ^ 32) (UInt32.ofNat i * 8).toNat = some (UInt32.ofNat i * 8).toNat := by
    rcases fits with rfl | fits
    · exact Overflow.result_wraps
    · exact Overflow.result_of_fits (by simpa using fits)
  rw [offset]
  simp only [Option.bind_eq_bind, Option.bind_some, if_neg positive]
  split <;> rfl

theorem mapM_of_rounds {α β : Type} {round : α → Option β} {value : α → β} {entries : List α}
    (each : ∀ entry ∈ entries, round entry = some (value entry)) : entries.mapM round = some (entries.map value) := by
  induction entries with
  | nil => rfl
  | cons first rest ih =>
    rw [List.mapM_cons, each first List.mem_cons_self, ih fun entry member => each entry (List.mem_cons_of_mem first member)]
    rfl

theorem challengeIndicesIn_eq (positive : chunks ≠ 0)
    (fits : mode = .wraps ∨ config.chunksPerChallenge.toNat * 8 ≤ 2 ^ 32) :
    challengeIndicesIn mode config seed chunks = some (challengeIndices config seed chunks) := by
  have rounds : (List.range config.chunksPerChallenge.toNat).mapM (challengeIndexIn mode seed chunks) =
      some ((List.range config.chunksPerChallenge.toNat).map (indexAt seed chunks)) := by
    apply mapM_of_rounds
    intro i member
    have inside := List.mem_range.mp member
    exact challengeIndexIn_eq positive (fits.imp_right fun fits => by omega)
  unfold challengeIndicesIn
  rw [rounds, challengeIndices_eq]
  simp [List.reduceOption]

theorem challengeIndicesIn_zero (asked : config.chunksPerChallenge ≠ 0) :
    challengeIndicesIn mode config seed 0 = none := by
  obtain ⟨count, more⟩ : ∃ count, config.chunksPerChallenge.toNat = count + 1 :=
    Nat.exists_eq_succ_of_ne_zero fun none => asked (UInt32.toNat_inj.mp none)
  have first : challengeIndexIn mode seed 0 0 = none := by
    have inside : 8 ≤ seed.bytes.length := by
      rw [seed.size]
      decide
    unfold challengeIndexIn remainder
    rw [Overflow.result_of_fits (by decide)]
    simp [inside]
  unfold challengeIndicesIn
  rw [more, List.range_succ_eq_map, List.mapM_cons, first]
  rfl

theorem challengeIndicesIn_wraps : challengeIndicesIn .wraps config seed chunks =
    if chunks = 0 ∧ config.chunksPerChallenge ≠ 0 then none else some (challengeIndices config seed chunks) := by
  by_cases positive : chunks = 0
  · subst positive
    by_cases asked : config.chunksPerChallenge = 0
    · rw [if_neg (fun both => both.2 asked), challengeIndices_eq]
      unfold challengeIndicesIn
      rw [asked]
      rfl
    · rw [if_pos ⟨rfl, asked⟩]
      exact challengeIndicesIn_zero asked
  · rw [if_neg (fun both => positive both.1)]
    exact challengeIndicesIn_eq positive (Or.inl rfl)

theorem numChunksIn_wraps : numChunksIn .wraps deal = some (numChunks deal) := by
  simp [numChunksIn, numChunks, Overflow.add, Overflow.sub]

theorem raised_size (fits : deal.dataSize.toNat + 4096 < 2 ^ 64) :
    (deal.dataSize + 4096).toNat = deal.dataSize.toNat + 4096 ∧ (1 : UInt64) ≤ deal.dataSize + 4096 := by
  have raised : (deal.dataSize + 4096).toNat = deal.dataSize.toNat + 4096 := by
    rw [UInt64.toNat_add]
    exact Nat.mod_eq_of_lt fits
  rw [UInt64.le_iff_toNat_le, raised]
  exact ⟨rfl, Nat.le_add_left ..⟩

theorem numChunksIn_stops : numChunksIn .stops deal =
    if deal.dataSize.toNat + 4096 < 2 ^ 64 then some (numChunks deal) else none := by
  unfold numChunksIn numChunks Overflow.add Overflow.sub
  split
  · next fits =>
    rw [Overflow.result_of_fits (by simpa using fits)]
    simp [(raised_size fits).2]
  · next large =>
    have stopped : ¬deal.dataSize.toNat + (4096 : UInt64).toNat < 2 ^ 64 := large
    rw [Overflow.result_stops, decide_eq_false stopped]
    rfl

theorem numChunks_toNat (fits : deal.dataSize.toNat + 4096 < 2 ^ 64) :
    (numChunks deal).toNat = (deal.dataSize.toNat + 4095) / 4096 := by
  obtain ⟨raised, enough⟩ := raised_size fits
  unfold numChunks
  rw [UInt64.toNat_div, UInt64.toNat_sub_of_le _ _ enough, raised]
  rfl

end

section

variable {mode : Overflow} {L : Type} {blake3 : List UInt8 → Bytes32} {states : VrfStates}
  {deal : StorageDeal} {epoch currentEpoch : UInt64} {state : Funded ProofCycleManager L}

def afterChallenge (deal : StorageDeal) (state : Funded ProofCycleManager L) (indices : List UInt64) :
    Funded ProofCycleManager L :=
  { state with manager := { state.manager with
      pendingChallenges := state.manager.pendingChallenges.insert deal.dealId indices } }

def challengeOutcome (deal : StorageDeal) (state : Funded ProofCycleManager L)
    (seed : Except StorageMarketError Bytes32) (indices : Bytes32 → Option (List UInt64)) :
    EStateM.Result StorageMarketError (Funded ProofCycleManager L) (List UInt64) :=
  match seed with
  | .error error => .error error state
  | .ok seed => match indices seed with
    | none => .error .panicked state
    | some indices => .ok indices (afterChallenge deal state indices)

theorem generateChallengeIn_run (active : deal.status = .active) :
    generateChallengeIn mode blake3 states deal epoch currentEpoch state =
      challengeOutcome deal state (challengeSeed blake3 states state.manager.config deal epoch currentEpoch)
        fun seed => numChunksIn mode deal >>= challengeIndicesIn mode state.manager.config seed := by
  unfold generateChallengeIn challengeOutcome
  simp only [active, ne_eq, not_true_eq_false, if_false, getManager_bind]
  cases challengeSeed blake3 states state.manager.config deal epoch currentEpoch with
  | error error => rfl
  | ok seed =>
    cases numChunksIn mode deal with
    | none => rfl
    | some chunks =>
      dsimp only [Option.bind_eq_bind, Option.bind_some]
      change (checked (orPanicked (challengeIndicesIn mode state.manager.config seed chunks)) >>= _) state = _
      cases challengeIndicesIn mode state.manager.config seed chunks with
      | none => rfl
      | some indices => rfl

theorem generateChallenge_run (active : deal.status = .active) :
    generateChallenge blake3 states deal epoch currentEpoch state =
      challengeOutcome deal state (challengeSeed blake3 states state.manager.config deal epoch currentEpoch)
        fun seed => challengeIndicesIn .wraps state.manager.config seed (numChunks deal) := by
  unfold generateChallenge challengeOutcome
  simp only [active, ne_eq, not_true_eq_false, if_false, getManager_bind, challengeIndicesIn_wraps]
  cases challengeSeed blake3 states state.manager.config deal epoch currentEpoch with
  | error error => rfl
  | ok seed =>
    by_cases empty : numChunks deal = 0 ∧ ¬state.manager.config.chunksPerChallenge = 0
    · simp only [if_pos empty]
      rfl
    · simp only [if_neg empty]
      rfl

theorem generateChallengeIn_wraps : generateChallengeIn .wraps blake3 states deal epoch currentEpoch state =
      generateChallenge blake3 states deal epoch currentEpoch state := by
  by_cases active : deal.status = .active
  · rw [generateChallengeIn_run active, generateChallenge_run active, numChunksIn_wraps]
    rfl
  · unfold generateChallengeIn generateChallenge
    simp only [active, ne_eq, not_false_eq_true, if_true]
    rfl

def Seeded (config : ProofCycleConfig) (states : VrfStates) (epoch currentEpoch : UInt64) : Prop :=
  (getCanonicalRandomness states epoch).isSome ∨ config.vrfGracePeriodEpochs ≤ saturatingSub currentEpoch epoch ∨
    config.allowDeterministicChallenges

theorem challengeSeed_of_seeded {config : ProofCycleConfig} (seeded : Seeded config states epoch currentEpoch) :
    ∃ seed, challengeSeed blake3 states config deal epoch currentEpoch = .ok seed := by
  unfold challengeSeed
  cases found : getCanonicalRandomness states epoch with
  | some randomness => exact ⟨_, rfl⟩
  | none =>
    have allowed : ¬(saturatingSub currentEpoch epoch < config.vrfGracePeriodEpochs ∧
        ¬config.allowDeterministicChallenges) := by
      rintro ⟨young, forbidden⟩
      rcases seeded with randomness | old | allowed
      · rw [found] at randomness
        cases randomness
      · exact absurd young (UInt64.not_lt.mpr old)
      · exact forbidden allowed
    dsimp only
    rw [if_neg allowed]
    exact ⟨_, rfl⟩

theorem challengeSeed_of_unseeded {config : ProofCycleConfig} (unseeded : ¬Seeded config states epoch currentEpoch) :
    ∃ message, challengeSeed blake3 states config deal epoch currentEpoch = .error (.challengeError message) := by
  unfold Seeded at unseeded
  push Not at unseeded
  obtain ⟨missing, young, forbidden⟩ := unseeded
  unfold challengeSeed
  cases found : getCanonicalRandomness states epoch with
  | some randomness =>
    rw [found] at missing
    exact absurd rfl missing
  | none =>
    dsimp only
    rw [if_pos ⟨UInt64.not_le.mp young, forbidden⟩]
    exact ⟨_, rfl⟩

def Panics {σ α : Type} (call : EStateM StorageMarketError σ α) (state : σ) : Prop :=
  ∃ next, call state = .error .panicked next

/-- Every result is a word, no divisor is zero, and the indices are as many as configured and within the data. -/
def Challenges (blake3 : List UInt8 → Bytes32) (states : VrfStates) (deal : StorageDeal) (epoch currentEpoch : UInt64)
    (state : Funded ProofCycleManager L) : Prop :=
  ¬Panics (generateChallengeIn .stops blake3 states deal epoch currentEpoch) state ∧
    ∀ indices next, generateChallenge blake3 states deal epoch currentEpoch state = .ok indices next →
      indices.length = state.manager.config.chunksPerChallenge.toNat ∧
        ∀ index ∈ indices, index.toNat < (deal.dataSize.toNat + 4095) / 4096

section

variable {config : ProofCycleConfig} {seed : Bytes32} {chunks index : UInt64}

theorem indexAt_isSome {i : Nat} (small : i < 2 ^ 29) : (indexAt seed chunks i).isSome ↔ i < 4 := by
  have offset : (UInt32.ofNat i * 8).toNat = i * 8 := by
    rw [UInt32.toNat_mul, UInt32.toNat_ofNat']
    change i % 2 ^ 32 * 8 % 2 ^ 32 = i * 8
    omega
  unfold indexAt
  rw [offset, seed.size]
  dsimp only
  split
  · simp only [Option.isSome_some, true_iff]
    omega
  · simp only [Option.isSome_none, Bool.false_eq_true, false_iff]
    omega

theorem length_challengeIndices_iff :
    (challengeIndices config seed chunks).length = config.chunksPerChallenge.toNat ↔
      config.chunksPerChallenge.toNat ≤ 4 := by
  have rounds := @List.filterMap_length_eq_length _ _ (indexAt seed chunks)
    (List.range config.chunksPerChallenge.toNat)
  rw [← challengeIndices_eq, List.length_range] at rounds
  rw [rounds]
  constructor
  · intro all
    by_contra many
    have fifth := all 4 (List.mem_range.mpr (by omega))
    rw [indexAt_isSome (by decide)] at fifth
    omega
  · intro few i member
    have inside := List.mem_range.mp member
    rw [indexAt_isSome (by omega)]
    omega

theorem lt_of_mem_challengeIndices (positive : 0 < chunks.toNat) (member : index ∈ challengeIndices config seed chunks) :
    index.toNat < chunks.toNat := by
  rw [challengeIndices_eq] at member
  obtain ⟨i, -, at_i⟩ := List.mem_filterMap.mp member
  unfold indexAt at at_i
  dsimp only at at_i
  split at at_i
  · cases at_i
    rw [UInt64.toNat_mod]
    exact Nat.mod_lt _ positive
  · cases at_i

end

theorem panicked_iff {seed : Bytes32} {indices : Bytes32 → Option (List UInt64)} :
    (∃ next, challengeOutcome deal state (.ok seed) indices = .error .panicked next) ↔ indices seed = none := by
  unfold challengeOutcome
  dsimp only
  constructor
  · rintro ⟨next, panicked⟩
    split at panicked
    · next none => exact none
    · cases panicked
  · intro none
    rw [none]
    exact ⟨state, rfl⟩

theorem numChunks_pos_iff (fits : deal.dataSize.toNat + 4096 < 2 ^ 64) :
    0 < deal.dataSize ↔ 0 < (numChunks deal).toNat := by
  rw [numChunks_toNat fits, UInt64.lt_iff_toNat_lt]
  change 0 < deal.dataSize.toNat ↔ _
  omega

theorem challenges_of_seed {seed : Bytes32} (active : deal.status = .active)
    (asked : 1 ≤ state.manager.config.chunksPerChallenge)
    (seeded : challengeSeed blake3 states state.manager.config deal epoch currentEpoch = .ok seed) :
    Challenges blake3 states deal epoch currentEpoch state ↔
      0 < deal.dataSize ∧ deal.dataSize.toNat + 4096 < 2 ^ 64 ∧ state.manager.config.chunksPerChallenge ≤ 4 := by
  have nonzero : state.manager.config.chunksPerChallenge ≠ 0 := by
    intro none
    rw [none] at asked
    exact absurd asked (by decide)
  have nonempty : 0 < (numChunks deal).toNat → numChunks deal ≠ 0 := by
    intro positive none
    rw [none] at positive
    exact absurd positive (by decide)
  unfold Challenges Panics
  rw [generateChallengeIn_run active, generateChallenge_run active, seeded, panicked_iff, numChunksIn_stops]
  constructor
  · rintro ⟨calm, returned⟩
    have fits : deal.dataSize.toNat + 4096 < 2 ^ 64 := by
      by_contra large
      rw [if_neg large] at calm
      exact calm rfl
    rw [if_pos fits] at calm
    have positive : 0 < (numChunks deal).toNat := by
      by_contra empty
      have none : numChunks deal = 0 := UInt64.toNat_inj.mp (Nat.eq_zero_of_not_pos empty)
      rw [none] at calm
      exact calm (challengeIndicesIn_zero nonzero)
    have all := (returned (challengeIndices state.manager.config seed (numChunks deal)) _ (by
      unfold challengeOutcome
      dsimp only
      rw [challengeIndicesIn_eq (nonempty positive) (Or.inl rfl)])).1
    exact ⟨(numChunks_pos_iff fits).mpr positive, fits, UInt32.le_iff_toNat_le.mpr (length_challengeIndices_iff.mp all)⟩
  · rintro ⟨data, fits, few⟩
    have positive := (numChunks_pos_iff fits).mp data
    have most : state.manager.config.chunksPerChallenge.toNat ≤ 4 := UInt32.le_iff_toNat_le.mp few
    constructor
    · rw [if_pos fits, Option.bind_eq_bind, Option.bind_some,
        challengeIndicesIn_eq (nonempty positive) (Or.inr (by omega))]
      exact Option.some_ne_none _
    · intro indices next returned
      unfold challengeOutcome at returned
      dsimp only at returned
      rw [challengeIndicesIn_eq (nonempty positive) (Or.inl rfl)] at returned
      cases returned
      refine ⟨length_challengeIndices_iff.mpr most, fun index member => ?_⟩
      rw [← numChunks_toNat fits]
      exact lt_of_mem_challengeIndices positive member

theorem challenges_iff (active : deal.status = .active) (asked : 1 ≤ state.manager.config.chunksPerChallenge) :
    Challenges blake3 states deal epoch currentEpoch state ↔
      (Seeded state.manager.config states epoch currentEpoch →
        0 < deal.dataSize ∧ deal.dataSize.toNat + 4096 < 2 ^ 64 ∧ state.manager.config.chunksPerChallenge ≤ 4) := by
  by_cases seeded : Seeded state.manager.config states epoch currentEpoch
  · obtain ⟨seed, ok⟩ := @challengeSeed_of_seeded blake3 _ deal _ _ _ seeded
    rw [challenges_of_seed active asked ok]
    exact ⟨fun safe _ => safe, fun safe => safe seeded⟩
  · obtain ⟨message, refused⟩ := @challengeSeed_of_unseeded blake3 _ deal _ _ _ seeded
    simp only [seeded, false_implies, iff_true]
    unfold Challenges Panics
    rw [generateChallengeIn_run active, generateChallenge_run active, refused]
    exact ⟨nofun, nofun⟩

end

section

variable {L : Type} {ledger : Ledger L} {scale : Scale} {deal : StorageDeal} {currentEpoch startEpoch : UInt64}
  {state : Funded ProofCycleManager L}

theorem checkMissedProofsIn_wraps : checkMissedProofsIn .wraps ledger scale deal currentEpoch state =
    checkMissedProofs ledger scale deal currentEpoch state := by
  unfold checkMissedProofsIn checkMissedProofs Overflow.add divide
  cases deal.startEpoch with
  | none => rfl
  | some startEpoch =>
    by_cases endless : deal.dealDurationEpochs = 0
    · simp only [if_pos endless]
      rfl
    · simp only [if_neg endless, Overflow.result_wraps]
      rfl

def lastProofEpoch (manager : ProofCycleManager) (deal : StorageDeal) (startEpoch : UInt64) : UInt64 :=
  ((storedProofs manager deal.dealId).getLast?.map StorageProof.proofEpoch).getD startEpoch

def Checks (ledger : Ledger L) (scale : Scale) (deal : StorageDeal) (currentEpoch : UInt64)
    (state : Funded ProofCycleManager L) : Prop :=
  ¬Panics (checkMissedProofsIn .stops ledger scale deal currentEpoch) state

theorem slash_calm {next : Funded ProofCycleManager L} :
    (slashProvider ledger scale deal >>= fun _ => checked (deal.transitionTo .failed)) state ≠
      .error .panicked next := by
  intro panicked
  rcases Fallible.run_bind_error panicked with slashed | ⟨_, middle, _, moved⟩
  · unfold slashProvider at slashed
    rw [getManager_bind] at slashed
    obtain ⟨_, _, _, shown, _⟩ := onLedger_error slashed
    cases shown
  · have refused := (checked_ends.error moved).1
    unfold StorageDeal.transitionTo at refused
    split at refused
    · cases refused
    · cases refused

theorem checkMissedProofsIn_late {mode : Overflow} (started : deal.startEpoch = some startEpoch)
    (lasts : deal.dealDurationEpochs ≠ 0)
    (late : UInt64.ofNat (storedProofs state.manager deal.dealId).length <
      saturatingSub currentEpoch startEpoch / deal.dealDurationEpochs) :
    checkMissedProofsIn mode ledger scale deal currentEpoch state =
      match mode.add (lastProofEpoch state.manager deal startEpoch) deal.dealDurationEpochs with
      | none => .error .panicked state
      | some due =>
        if saturatingSub currentEpoch due > state.manager.config.proofGracePeriod then
          (slashProvider ledger scale deal >>= fun _ => checked (deal.transitionTo .failed)) state
        else .ok deal state := by
  unfold storedProofs at late
  unfold checkMissedProofsIn lastProofEpoch storedProofs divide
  simp only [started, if_neg lasts]
  rw [Calls.bind_ok (show checked (orPanicked (some _)) state = .ok _ state from rfl), getManager_bind, if_pos late]
  cases mode.add (((((state.manager.proofs.lookup deal.dealId).getD []).getLast?.map StorageProof.proofEpoch).getD
      startEpoch)) deal.dealDurationEpochs with
  | none => rfl
  | some due =>
    rw [Calls.bind_ok (show checked (orPanicked (some due)) state = .ok due state from rfl)]
    split
    · next overdue =>
      simp only [if_pos overdue]
    · next inTime =>
      simp only [if_neg inTime]
      rfl

theorem checks_iff (started : deal.startEpoch = some startEpoch) :
    Checks ledger scale deal currentEpoch state ↔ deal.dealDurationEpochs ≠ 0 ∧
      (UInt64.ofNat (storedProofs state.manager deal.dealId).length <
          saturatingSub currentEpoch startEpoch / deal.dealDurationEpochs →
        (lastProofEpoch state.manager deal startEpoch).toNat + deal.dealDurationEpochs.toNat < 2 ^ 64) := by
  unfold Checks Panics
  by_cases endless : deal.dealDurationEpochs = 0
  · unfold checkMissedProofsIn
    simp only [started, divide, if_pos endless]
    constructor
    · intro calm
      exact absurd ⟨state, rfl⟩ calm
    · rintro ⟨lasts, -⟩
      exact absurd endless lasts
  by_cases late : UInt64.ofNat (storedProofs state.manager deal.dealId).length <
      saturatingSub currentEpoch startEpoch / deal.dealDurationEpochs
  · rw [checkMissedProofsIn_late started endless late]
    constructor
    · intro calm
      refine ⟨endless, fun _ => ?_⟩
      by_contra large
      have stopped : Overflow.stops.add (lastProofEpoch state.manager deal startEpoch) deal.dealDurationEpochs =
          none := by
        unfold Overflow.add
        rw [Overflow.result_stops, decide_eq_false large]
        rfl
      rw [stopped] at calm
      exact calm ⟨state, rfl⟩
    · rintro ⟨-, small⟩ ⟨next, panicked⟩
      obtain ⟨due, added, -⟩ := @Overflow.add_of_lt .stops _ _ (small late)
      rw [added] at panicked
      dsimp only at panicked
      split at panicked
      · exact slash_calm panicked
      · cases panicked
  · simp only [late, false_implies, and_true, ne_eq, endless, not_false_eq_true, iff_true]
    rintro ⟨next, panicked⟩
    unfold storedProofs at late
    unfold checkMissedProofsIn divide at panicked
    simp only [started, if_neg endless] at panicked
    rw [Calls.bind_ok (show checked (orPanicked (some _)) state = .ok _ state from rfl), getManager_bind,
      if_neg late] at panicked
    cases panicked

end

/-- The deals of a published intent, by a compile, whatever the finality, and by an activation with a root of the
    data. -/
inductive Admitted {L : Type} (reputation : AccountAddress → ℚ) (ledger : Ledger L) (scale : Scale)
    (intent : StorageDealIntent) (acceptance : ProviderAcceptance) : StorageDeal → Prop
  | activated {manager : Funded IntentManager L} {compiler next : Funded JitcaCompiler L} {status : FinalityStatus}
    {finalizedAtEpoch : Option UInt64} {compiledEpoch startEpoch : UInt64} {compiled deal : StorageDeal} {root : Bytes32}
    (published : succeeds (IntentManager.publishIntent reputation ledger intent) manager)
    (compiles : JitcaCompiler.compile ledger scale
      { intent with finalityStatus := status, finalizedAtEpoch := finalizedAtEpoch } acceptance compiledEpoch compiler =
        .ok compiled next)
    (activates : JitcaCompiler.activated { compiled with proofMerkleRoot := some root } startEpoch = .ok deal) :
    Admitted reputation ledger scale intent acceptance deal

section

variable {L : Type} {reputation : AccountAddress → ℚ} {ledger : Ledger L} {scale : Scale} {intent : StorageDealIntent}
  {acceptance : ProviderAcceptance} {deal : StorageDeal}

theorem admitted_fields (admitted : Admitted reputation ledger scale intent acceptance deal) :
    deal.status = .active ∧ (∃ startEpoch, deal.startEpoch = some startEpoch) ∧ deal.dataSize = intent.dataSize ∧
      deal.dealDurationEpochs = intent.durationEpochs := by
  obtain ⟨published, compiles, activates⟩ := admitted
  obtain ⟨_, _, -, -, compiled, -⟩ := compile_steps compiles
  obtain ⟨-, -, rfl⟩ := activated_ok.mp activates
  subst compiled
  exact ⟨rfl, ⟨_, rfl⟩, rfl, rfl⟩

/-- The arithmetic is safe exactly if the data size can be rounded up, the seed has words for all indices, and, where
    proofs are missing, the deal lasts and the next epoch is a word. -/
theorem challengeArithmetic_iff (blake3 : List UInt8 → Bytes32) (states : VrfStates) (epoch currentEpoch : UInt64)
    (state : Funded ProofCycleManager L) (admitted : Admitted reputation ledger scale intent acceptance deal)
    (asked : 1 ≤ state.manager.config.chunksPerChallenge) :
    Challenges blake3 states deal epoch currentEpoch state ∧ Checks ledger scale deal currentEpoch state ↔
      (Seeded state.manager.config states epoch currentEpoch →
        0 < intent.dataSize ∧ intent.dataSize.toNat + 4096 < 2 ^ 64 ∧ state.manager.config.chunksPerChallenge ≤ 4) ∧
      intent.durationEpochs ≠ 0 ∧ ∀ startEpoch, deal.startEpoch = some startEpoch →
        UInt64.ofNat (storedProofs state.manager deal.dealId).length <
            saturatingSub currentEpoch startEpoch / intent.durationEpochs →
          (lastProofEpoch state.manager deal startEpoch).toNat + intent.durationEpochs.toNat < 2 ^ 64 := by
  obtain ⟨active, ⟨startEpoch, started⟩, size, duration⟩ := admitted_fields admitted
  rw [challenges_iff active asked, checks_iff started, size, duration]
  simp only [started, Option.some.injEq, forall_eq']

end

section

def intentFor (dataSize : UInt64) : StorageDealIntent :=
  { twoCopies with dataSize := dataSize, finalityStatus := .pending, finalizedAtEpoch := none }

def dealFor (dataSize : UInt64) : StorageDeal :=
  { dealOfTerms jitcaConfig { twoCopies with dataSize := dataSize } (acceptanceOf bob (Bytes32.replicate 11)) 1 1 with
    proofMerkleRoot := some (Bytes32.replicate 9)
    status := .active
    startEpoch := some 2 }

def memoryLedger : Ledger (BalanceManager MemoryStorage) := .ofBalanceManager (fun _ => Bytes32.replicate 0) 0

def returned {ε σ α : Type} : EStateM.Result ε σ α → Bool
  | .ok .. => true
  | .error .. => false

theorem succeeds_of_returned {ε σ α : Type} {call : EStateM ε σ α} {state : σ} (ran : returned (call state) = true) :
    succeeds call state := by
  cases result : call state with
  | ok value next => exact ⟨value, next, result⟩
  | error error next =>
    rw [result] at ran
    cases ran

theorem admitted_dealFor {dataSize : UInt64}
    (published : returned (IntentManager.publishIntent (fun _ => 20) memoryLedger (intentFor dataSize)
      ⟨.new ⟨⟨1⟩, 10, 86400, 10⟩, threeAccounts.inner⟩) = true)
    (compiles : returned (JitcaCompiler.compile memoryLedger exactScale { twoCopies with dataSize := dataSize }
      (acceptanceOf bob (Bytes32.replicate 11)) 1 ⟨.new jitcaConfig, threeAccounts.inner⟩) = true) :
    Admitted (fun _ => 20) memoryLedger exactScale (intentFor dataSize) (acceptanceOf bob (Bytes32.replicate 11))
      (dealFor dataSize) := by
  obtain ⟨compiled, next, ran⟩ := succeeds_of_returned compiles
  obtain ⟨_, _, -, -, rfl, -⟩ := compile_steps ran
  exact .activated (succeeds_of_returned published) ran (activated_ok.mpr ⟨rfl, show (2 : UInt64) ≤ 1 + 50 by decide, rfl⟩)

def freshManager : Funded ProofCycleManager (BalanceManager MemoryStorage) :=
  ⟨.new { proofConfig with allowDeterministicChallenges := true }, threeAccounts.inner⟩

/-- A deal for one chunk is safe, also when its first proof is late. -/
theorem challengeArithmetic_oneChunk :
    Challenges plainHash (fun _ => none) (dealFor 4096) 20 20 freshManager ∧
      Checks memoryLedger exactScale (dealFor 4096) 20 freshManager :=
  (challengeArithmetic_iff plainHash (fun _ => none) 20 20 freshManager
    (@admitted_dealFor 4096 (by decide +kernel) (by decide +kernel)) (by decide)).mpr
    ⟨fun _ => by decide, by decide, fun startEpoch started late => by
      cases started
      decide⟩

/-- A deal for no data is admitted, and its challenge divides by zero. -/
theorem noData_panics :
    Admitted (fun _ => 20) memoryLedger exactScale (intentFor 0) (acceptanceOf bob (Bytes32.replicate 11)) (dealFor 0) ∧
      1 ≤ freshManager.manager.config.chunksPerChallenge ∧
      Panics (generateChallenge plainHash (fun _ => none) (dealFor 0) 20 20) freshManager :=
  ⟨admitted_dealFor (by decide +kernel) (by decide +kernel), by decide, freshManager, rfl⟩

end

end AdicProof.StorageMarket
