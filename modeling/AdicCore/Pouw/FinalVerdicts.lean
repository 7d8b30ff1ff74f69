import AdicCore.Pouw.ReceiptValidator
import AdicCore.Pouw.ThresholdRobustness

open AdicModel AdicModel.Challenges AdicModel.Pouw AdicModel.Pouw.ReceiptValidator HashMap

namespace AdicProof.Pouw

section

variable {PublicKeySet Signature SignatureShare : Type} {env : Environment PublicKeySet Signature SignatureShare}

def SignatureRejected (env : Environment PublicKeySet Signature SignatureShare) (validator : ReceiptValidator)
    (receipt : PoUWReceipt) : Prop :=
  (validator.verifyBlsSignature env receipt).toOption = none ∧ validator.enforceBls = true

def Upheld (validator : ReceiptValidator) (receiptHash : Hash) : Prop :=
  ∃ proof ∈ validator.proofsOf receiptHash, ∃ result,
    validator.adjudicationResults.lookup proof.id = some result ∧ result.ruling = .challengerWins

def Adjudicated (validator : ReceiptValidator) (proof : FraudProof) : Prop :=
  ∃ result, validator.adjudicationResults.lookup proof.id = some result

section

variable {validator : ReceiptValidator} {receipt : PoUWReceipt} {currentEpoch : UInt64}

theorem ruled_upheld {receiptHash : Hash} :
    validator.ruled .challengerWins (validator.proofsOf receiptHash) ≠ [] ↔ Upheld validator receiptHash := by
  constructor
  · intro nonempty
    obtain ⟨id, listed⟩ := List.exists_mem_of_ne_nil _ nonempty
    obtain ⟨proof, kept, _⟩ := List.mem_map.mp listed
    obtain ⟨pending, wins⟩ := List.mem_filter.mp kept
    cases found : validator.adjudicationResults.lookup proof.id with
    | none =>
      rw [found, Option.any_none] at wins
      cases wins
    | some result =>
      rw [found, Option.any_some] at wins
      exact ⟨proof, pending, result, found, of_decide_eq_true wins⟩
  · rintro ⟨proof, pending, result, found, wins⟩ none
    have listed : proof.id ∈ validator.ruled .challengerWins (validator.proofsOf receiptHash) := by
      refine List.mem_map.mpr ⟨proof, List.mem_filter.mpr ⟨pending, ?_⟩, rfl⟩
      rw [found, Option.any_some]
      exact decide_eq_true wins
    rw [none] at listed
    cases listed

theorem validationStatus_invalid {fraudProofs : List FraudProof} {upheld : List MessageId} {expired : Bool} :
    validationStatus fraudProofs upheld expired = .invalid ↔ upheld ≠ [] := by
  cases upheld with
  | nil => cases fraudProofs <;> cases expired <;> simp [validationStatus]
  | cons id ids => simp [validationStatus]

theorem validationStatus_finalized {fraudProofs : List FraudProof} {upheld : List MessageId} {expired : Bool} :
    validationStatus fraudProofs upheld expired = .finalizedValid ↔ ¬ upheld ≠ [] ∧ expired = true := by
  cases upheld with
  | nil => cases fraudProofs <;> cases expired <;> simp [validationStatus]
  | cons id ids => simp [validationStatus]

theorem status_invalid_iff : (validator.validateReceipt env receipt currentEpoch).validationStatus = .invalid ↔
    SignatureRejected env validator receipt ∨ Upheld validator (env.canonicalHash receipt) := by
  unfold validateReceipt
  split
  next rejected => exact iff_of_true rfl (.inl rejected)
  next accepted =>
    rw [← ruled_upheld]
    exact validationStatus_invalid.trans (or_iff_right accepted).symm

theorem status_finalized_iff :
    (validator.validateReceipt env receipt currentEpoch).validationStatus = .finalizedValid ↔
      ¬ SignatureRejected env validator receipt ∧ ¬ Upheld validator (env.canonicalHash receipt) ∧
        validator.windowEnd receipt < currentEpoch := by
  unfold validateReceipt
  split
  next rejected => exact iff_of_false nofun fun holds => holds.1 rejected
  next accepted =>
    rw [← ruled_upheld]
    refine validationStatus_finalized.trans (Iff.trans ?_ (and_iff_right accepted).symm)
    rw [decide_eq_true_iff]

theorem submit_cases (env : Environment PublicKeySet Signature SignatureShare) (validator : ReceiptValidator)
    (receipt : PoUWReceipt) (proof : FraudProof) (currentEpoch : UInt64) :
    (validator.submitFraudProof env receipt proof currentEpoch).1 ≠ .ok () ∧
        (validator.submitFraudProof env receipt proof currentEpoch).2 = validator ∨
      (validator.submitFraudProof env receipt proof currentEpoch).1 = .ok () ∧
        ¬ validator.windowEnd receipt < currentEpoch ∧
          (validator.submitFraudProof env receipt proof currentEpoch).2 =
            { validator with
              pendingProofs := validator.pendingProofs.insert (env.canonicalHash receipt)
                (validator.proofsOf (env.canonicalHash receipt) ++ [proof]) } := by
  unfold submitFraudProof
  split
  · exact .inl ⟨nofun, rfl⟩
  next early =>
    split
    · exact .inl ⟨nofun, rfl⟩
    · exact .inr ⟨rfl, early, rfl⟩

end

/-- A ruling changes no outcome, an expired receipt is validated after all rulings, and cleaned up with none upheld. -/
def Settling (env : Environment PublicKeySet Signature SignatureShare) (validator : ReceiptValidator) :
    ValidatorCall → Prop
  | .submit _ _ _ => True
  | .record result => ∀ receiptHash, ∀ proof ∈ validator.proofsOf receiptHash, proof.id = result.fraudProofId →
    ∀ earlier, validator.adjudicationResults.lookup proof.id = some earlier →
      (earlier.ruling = .challengerWins ↔ result.ruling = .challengerWins)
  | .cleanup receipt currentEpoch => validator.windowEnd receipt < currentEpoch →
    ¬ Upheld validator (env.canonicalHash receipt) ∧
      ∀ proof ∈ validator.proofsOf (env.canonicalHash receipt), Adjudicated validator proof
  | .validate receipt currentEpoch => validator.windowEnd receipt < currentEpoch →
    ¬ SignatureRejected env validator receipt → ¬ Upheld validator (env.canonicalHash receipt) →
      ∀ proof ∈ validator.proofsOf (env.canonicalHash receipt), Adjudicated validator proof

def callEpoch : ValidatorCall → Option UInt64
  | .submit _ _ currentEpoch => some currentEpoch
  | .record _ => none
  | .cleanup _ currentEpoch => some currentEpoch
  | .validate _ currentEpoch => some currentEpoch

def callReceipt : ValidatorCall → Option PoUWReceipt
  | .submit receipt _ _ => some receipt
  | .record _ => none
  | .cleanup receipt _ => some receipt
  | .validate receipt _ => some receipt

variable (env) (start : ReceiptValidator)

def validatorAfter (calls : List ValidatorCall) : ReceiptValidator := Runs.after (ValidatorCall.next env) start calls

def Reported (calls : List ValidatorCall) (receipt : PoUWReceipt) (status : ValidationStatus) : Prop :=
  ∃ before currentEpoch, before ++ [.validate receipt currentEpoch] <+: calls ∧
    ((validatorAfter env start before).validateReceipt env receipt currentEpoch).validationStatus = status

def InTime (calls : List ValidatorCall) (receipt : PoUWReceipt) (proof : FraudProof) : Prop :=
  ∃ before currentEpoch, before ++ [.submit receipt proof currentEpoch] <+: calls ∧
    ((validatorAfter env start before).submitFraudProof env receipt proof currentEpoch).1 = .ok ()

structure VerdictsFinal (calls : List ValidatorCall) : Prop where
  stable : ∀ before receipt currentEpoch status, before ++ [.validate receipt currentEpoch] <+: calls →
    status = .finalizedValid ∨ status = .invalid → Reported env start before receipt status →
      ((validatorAfter env start before).validateReceipt env receipt currentEpoch).validationStatus = status
  adjudicated : ∀ before receipt currentEpoch, before ++ [.validate receipt currentEpoch] <+: calls →
    ((validatorAfter env start before).validateReceipt env receipt currentEpoch).validationStatus = .finalizedValid →
      ∀ proof, InTime env start before receipt proof → Adjudicated (validatorAfter env start before) proof

structure Orderly (calls : List ValidatorCall) : Prop where
  epochs : (calls.filterMap callEpoch).Pairwise (· ≤ ·)
  hashes : ∀ receipt ∈ calls.filterMap callReceipt, ∀ other ∈ calls.filterMap callReceipt,
    env.canonicalHash receipt = env.canonicalHash other → receipt = other

structure Settled (calls : List ValidatorCall) : Prop where
  window : (validatorAfter env start calls).challengeWindow = start.challengeWindow
  signer : (validatorAfter env start calls).hasBlsSigner = start.hasBlsSigner
  enforced : (validatorAfter env start calls).enforceBls = start.enforceBls
  submitted : ∀ receipt proof, InTime env start calls receipt proof →
    proof ∈ (validatorAfter env start calls).proofsOf (env.canonicalHash receipt) ∨
      Adjudicated (validatorAfter env start calls) proof
  invalid : ∀ receipt, Reported env start calls receipt .invalid →
    SignatureRejected env start receipt ∨ Upheld (validatorAfter env start calls) (env.canonicalHash receipt)
  finalized : ∀ receipt, Reported env start calls receipt .finalizedValid →
    ¬ SignatureRejected env start receipt ∧ ¬ Upheld (validatorAfter env start calls) (env.canonicalHash receipt) ∧
      (∀ proof ∈ (validatorAfter env start calls).proofsOf (env.canonicalHash receipt),
        Adjudicated (validatorAfter env start calls) proof) ∧
        ∃ currentEpoch ∈ calls.filterMap callEpoch, start.windowEnd receipt < currentEpoch

section

variable {env start} {before calls : List ValidatorCall} {call : ValidatorCall} {receipt : PoUWReceipt}
  {validator : ReceiptValidator} {proof : FraudProof} {status : ValidationStatus}

theorem validatorAfter_snoc : validatorAfter env start (before ++ [call]) =
    call.next env (validatorAfter env start before) := Runs.after_snoc before call

theorem rejected_congr (signer : validator.hasBlsSigner = start.hasBlsSigner)
    (enforced : validator.enforceBls = start.enforceBls) :
    SignatureRejected env validator receipt ↔ SignatureRejected env start receipt := by
  unfold SignatureRejected verifyBlsSignature
  rw [signer, enforced]

theorem windowEnd_congr (window : validator.challengeWindow = start.challengeWindow) :
    validator.windowEnd receipt = start.windowEnd receipt := by
  unfold windowEnd
  rw [window]

theorem reported_snoc (reported : Reported env start (before ++ [call]) receipt status) :
    Reported env start before receipt status ∨ ∃ currentEpoch, call = .validate receipt currentEpoch ∧
      ((validatorAfter env start before).validateReceipt env receipt currentEpoch).validationStatus = status := by
  obtain ⟨earlier, currentEpoch, part, isStatus⟩ := reported
  rcases List.prefix_concat_iff.mp part with whole | part
  · obtain ⟨rfl, rest⟩ := List.append_inj' whole rfl
    cases rest
    exact .inr ⟨currentEpoch, rfl, isStatus⟩
  · exact .inl ⟨earlier, currentEpoch, part, isStatus⟩

theorem inTime_snoc (inTime : InTime env start (before ++ [call]) receipt proof) :
    InTime env start before receipt proof ∨ ∃ currentEpoch, call = .submit receipt proof currentEpoch ∧
      ((validatorAfter env start before).submitFraudProof env receipt proof currentEpoch).1 = .ok () := by
  obtain ⟨earlier, currentEpoch, part, accepted⟩ := inTime
  rcases List.prefix_concat_iff.mp part with whole | part
  · obtain ⟨rfl, rest⟩ := List.append_inj' whole rfl
    cases rest
    exact .inr ⟨currentEpoch, rfl, accepted⟩
  · exact .inl ⟨earlier, currentEpoch, part, accepted⟩

structure Keeps (env : Environment PublicKeySet Signature SignatureShare) (finalized : PoUWReceipt → Prop)
    (current next : ReceiptValidator) : Prop where
  window : next.challengeWindow = current.challengeWindow
  signer : next.hasBlsSigner = current.hasBlsSigner
  enforced : next.enforceBls = current.enforceBls
  adjudicated : ∀ proof, Adjudicated current proof → Adjudicated next proof
  pending : ∀ receiptHash, ∀ proof ∈ current.proofsOf receiptHash,
    proof ∈ next.proofsOf receiptHash ∨ Adjudicated next proof
  upheld : ∀ receiptHash, Upheld current receiptHash → Upheld next receiptHash
  finalized : ∀ receipt, finalized receipt → ¬ Upheld current (env.canonicalHash receipt) →
    (∀ proof ∈ current.proofsOf (env.canonicalHash receipt), Adjudicated current proof) →
      ¬ Upheld next (env.canonicalHash receipt) ∧
        ∀ proof ∈ next.proofsOf (env.canonicalHash receipt), proof ∈ current.proofsOf (env.canonicalHash receipt)

theorem Settled.step (settled : Settled env start before)
    (keeps : Keeps env (fun receipt => Reported env start before receipt .finalizedValid)
      (validatorAfter env start before) (call.next env (validatorAfter env start before)))
    (other : ∀ receipt currentEpoch, call ≠ .validate receipt currentEpoch)
    (submits : ∀ receipt proof currentEpoch, call = .submit receipt proof currentEpoch →
      ((validatorAfter env start before).submitFraudProof env receipt proof currentEpoch).1 = .ok () →
        proof ∈ (call.next env (validatorAfter env start before)).proofsOf (env.canonicalHash receipt)) :
    Settled env start (before ++ [call]) := by
  have old : ∀ receipt status, Reported env start (before ++ [call]) receipt status →
      Reported env start before receipt status := by
    intro receipt status reported
    rcases reported_snoc reported with earlier | ⟨currentEpoch, isCall, _⟩
    · exact earlier
    · exact absurd isCall (other receipt currentEpoch)
  refine ⟨?_, ?_, ?_, fun receipt proof inTime => ?_, fun receipt reported => ?_, fun receipt reported => ?_⟩
  · rw [validatorAfter_snoc, keeps.window, settled.window]
  · rw [validatorAfter_snoc, keeps.signer, settled.signer]
  · rw [validatorAfter_snoc, keeps.enforced, settled.enforced]
  · rw [validatorAfter_snoc]
    rcases inTime_snoc inTime with earlier | ⟨currentEpoch, isCall, accepted⟩
    · rcases settled.submitted receipt proof earlier with pending | adjudicated
      · exact keeps.pending _ proof pending
      · exact .inr (keeps.adjudicated proof adjudicated)
    · exact .inl (submits receipt proof currentEpoch isCall accepted)
  · rw [validatorAfter_snoc]
    exact (settled.invalid receipt (old receipt _ reported)).imp_right (keeps.upheld _)
  · have earlier := old receipt _ reported
    obtain ⟨accepted, notUpheld, all, currentEpoch, listed, expired⟩ := settled.finalized receipt earlier
    obtain ⟨stillNot, within⟩ := keeps.finalized receipt earlier notUpheld all
    rw [validatorAfter_snoc, List.filterMap_append]
    exact ⟨accepted, stillNot, fun proof pending => keeps.adjudicated proof (all proof (within proof pending)),
      currentEpoch, List.mem_append_left _ listed, expired⟩

variable {finalized : PoUWReceipt → Prop}

theorem keeps_record {result : AdjudicationResult}
    (settling : Settling env validator (.record result)) :
    Keeps env finalized validator (validator.recordAdjudication result) := by
  have lookup := lookup_insert_eq validator.adjudicationResults result.fraudProofId
  have adjudicated : ∀ proof, Adjudicated validator proof → Adjudicated (validator.recordAdjudication result) proof := by
    rintro proof ⟨earlier, found⟩
    show ∃ later, (validator.adjudicationResults.insert result.fraudProofId result).lookup proof.id = some later
    rw [lookup]
    split
    · exact ⟨result, rfl⟩
    · exact ⟨earlier, found⟩
  refine ⟨rfl, rfl, rfl, adjudicated, fun _ _ pending => .inl pending, ?_, fun receipt _ notUpheld all => ⟨?_, ?_⟩⟩
  · rintro receiptHash ⟨proof, pending, earlier, found, wins⟩
    refine ⟨proof, pending, ?_⟩
    show ∃ later, (validator.adjudicationResults.insert result.fraudProofId result).lookup proof.id = some later ∧ _
    rw [lookup]
    split
    next same => exact ⟨result, rfl, (settling receiptHash proof pending same earlier found).mp wins⟩
    · exact ⟨earlier, found, wins⟩
  · rintro ⟨proof, pending, later, found, wins⟩
    have found' : (validator.adjudicationResults.insert result.fraudProofId result).lookup proof.id = some later := found
    rw [lookup] at found'
    split at found'
    next same =>
      cases found'
      obtain ⟨earlier, stored⟩ := all proof pending
      exact notUpheld ⟨proof, pending, earlier, stored,
        (settling _ proof pending same earlier stored).mpr wins⟩
    · exact notUpheld ⟨proof, pending, later, found', wins⟩
  · exact fun _ pending => pending

theorem proofsOf_erase (validator : ReceiptValidator) (receiptHash other : Hash) :
    ReceiptValidator.proofsOf { validator with pendingProofs := validator.pendingProofs.erase receiptHash } other =
      if other = receiptHash then [] else validator.proofsOf other := by
  unfold proofsOf
  rw [lookup_erase_eq]
  split
  · rfl
  · rfl

theorem proofsOf_insert (validator : ReceiptValidator) (receiptHash other : Hash) (proofs : List FraudProof) :
    ReceiptValidator.proofsOf { validator with pendingProofs := validator.pendingProofs.insert receiptHash proofs } other =
      if other = receiptHash then proofs else validator.proofsOf other := by
  unfold proofsOf
  rw [lookup_insert_eq]
  split
  · rfl
  · rfl

theorem keeps_cleanup {currentEpoch : UInt64}
    (settling : Settling env validator (.cleanup receipt currentEpoch)) :
    Keeps env finalized validator (validator.cleanupFinalized env receipt currentEpoch) := by
  unfold cleanupFinalized
  split
  next expired =>
    obtain ⟨notUpheld, all⟩ := settling expired
    have proofs := proofsOf_erase validator (env.canonicalHash receipt)
    refine ⟨rfl, rfl, rfl, fun _ holds => holds, fun receiptHash proof pending => ?_, ?_,
      fun other _ stillNot _ => ⟨?_, ?_⟩⟩
    · by_cases same : receiptHash = env.canonicalHash receipt
      · exact .inr (all proof (same ▸ pending))
      · rw [proofs, if_neg same]
        exact .inl pending
    · rintro receiptHash ⟨proof, pending, result, found, wins⟩
      have different : receiptHash ≠ env.canonicalHash receipt := fun same =>
        notUpheld ⟨proof, same ▸ pending, result, found, wins⟩
      refine ⟨proof, ?_, result, found, wins⟩
      rw [proofs, if_neg different]
      exact pending
    · rintro ⟨proof, pending, result, found, wins⟩
      rw [proofs] at pending
      split at pending
      · cases pending
      · exact stillNot ⟨proof, pending, result, found, wins⟩
    · intro proof pending
      rw [proofs] at pending
      split at pending
      · cases pending
      · exact pending
  · exact ⟨rfl, rfl, rfl, fun _ holds => holds, fun _ _ pending => .inl pending, fun _ upheld => upheld,
      fun _ _ notUpheld _ => ⟨notUpheld, fun _ pending => pending⟩⟩

theorem keeps_submit {currentEpoch : UInt64}
    (open' : ∀ other, finalized other → env.canonicalHash other = env.canonicalHash receipt →
      validator.windowEnd receipt < currentEpoch) :
    Keeps env finalized validator (validator.submitFraudProof env receipt proof currentEpoch).2 := by
  rcases submit_cases env validator receipt proof currentEpoch with ⟨_, same⟩ | ⟨_, early, next⟩
  · rw [same]
    exact ⟨rfl, rfl, rfl, fun _ holds => holds, fun _ _ pending => .inl pending, fun _ upheld => upheld,
      fun _ _ notUpheld _ => ⟨notUpheld, fun _ pending => pending⟩⟩
  · rw [next]
    have proofs := proofsOf_insert validator (env.canonicalHash receipt)
    have grows : ∀ receiptHash, ∀ pending ∈ validator.proofsOf receiptHash,
        pending ∈ ReceiptValidator.proofsOf { validator with
          pendingProofs := validator.pendingProofs.insert (env.canonicalHash receipt)
            (validator.proofsOf (env.canonicalHash receipt) ++ [proof]) } receiptHash := by
      intro receiptHash pending listed
      rw [proofs]
      split
      next same => exact List.mem_append_left _ (same ▸ listed)
      · exact listed
    refine ⟨rfl, rfl, rfl, fun _ holds => holds, fun receiptHash pending listed => .inl (grows receiptHash pending listed),
      ?_, fun other isFinal notUpheld _ => ?_⟩
    · rintro receiptHash ⟨pending, listed, result, found, wins⟩
      exact ⟨pending, grows receiptHash pending listed, result, found, wins⟩
    · have different : env.canonicalHash other ≠ env.canonicalHash receipt := fun same =>
        early (open' other isFinal same)
      refine ⟨?_, fun pending listed => ?_⟩
      · rintro ⟨pending, listed, result, found, wins⟩
        rw [proofs, if_neg different] at listed
        exact notUpheld ⟨pending, listed, result, found, wins⟩
      · rw [proofs, if_neg different] at listed
        exact listed

theorem settled_next (orderly : Orderly env calls) (part : before ++ [call] <+: calls)
    (settled : Settled env start before) (settling : Settling env (validatorAfter env start before) call) :
    Settled env start (before ++ [call]) := by
  cases call with
  | submit receipt proof currentEpoch =>
    refine settled.step (keeps_submit fun other isFinal sameHash => ?_) (fun _ _ => nofun) ?_
    · obtain ⟨_, _, _, earlier, listed, expired⟩ := settled.finalized other isFinal
      have later : earlier ≤ currentEpoch := by
        have epochs := orderly.epochs.sublist (part.sublist.filterMap callEpoch)
        rw [List.filterMap_append, List.pairwise_append] at epochs
        exact epochs.2.2 earlier listed currentEpoch (by simp [callEpoch])
      obtain ⟨at', epoch, validated, _⟩ := isFinal
      have isOther : other = receipt := by
        refine orderly.hashes other ?_ receipt ?_ sameHash
        · refine List.mem_filterMap.mpr ⟨.validate other epoch, ?_, rfl⟩
          refine (validated.trans ((List.prefix_append before _).trans part)).subset ?_
          exact List.mem_append_right _ List.mem_cons_self
        · exact List.mem_filterMap.mpr ⟨_, part.subset (List.mem_append_right _ List.mem_cons_self), rfl⟩
      rw [windowEnd_congr settled.window, ← isOther]
      exact UInt64.lt_of_lt_of_le expired later
    · intro _ _ _ isCall accepted
      cases isCall
      rcases submit_cases env (validatorAfter env start before) receipt proof currentEpoch with
        ⟨refused, _⟩ | ⟨_, _, next⟩
      · exact absurd accepted refused
      · show proof ∈ ReceiptValidator.proofsOf (ReceiptValidator.submitFraudProof env receipt proof currentEpoch _).2 _
        rw [next, proofsOf_insert, if_pos rfl]
        exact List.mem_append_right _ List.mem_cons_self
  | record result => exact settled.step (keeps_record settling) (fun _ _ => nofun) fun _ _ _ => nofun
  | cleanup receipt currentEpoch =>
    exact settled.step (keeps_cleanup settling) (fun _ _ => nofun) fun _ _ _ => nofun
  | validate receipt currentEpoch =>
    have same : validatorAfter env start (before ++ [.validate receipt currentEpoch]) = validatorAfter env start before :=
      validatorAfter_snoc
    refine ⟨same ▸ settled.window, same ▸ settled.signer, same ▸ settled.enforced, fun other proof inTime => ?_,
      fun other reported => ?_, fun other reported => ?_⟩
    · rw [same]
      rcases inTime_snoc inTime with earlier | ⟨_, isCall, _⟩
      · exact settled.submitted other proof earlier
      · cases isCall
    · rw [same]
      rcases reported_snoc reported with earlier | ⟨_, isCall, isStatus⟩
      · exact settled.invalid other earlier
      · cases isCall
        exact (status_invalid_iff.mp isStatus).imp_left (rejected_congr settled.signer settled.enforced).mp
    · rw [same, List.filterMap_append]
      rcases reported_snoc reported with earlier | ⟨_, isCall, isStatus⟩
      · obtain ⟨accepted, notUpheld, all, epoch, listed, expired⟩ := settled.finalized other earlier
        exact ⟨accepted, notUpheld, all, epoch, List.mem_append_left _ listed, expired⟩
      · cases isCall
        obtain ⟨accepted, notUpheld, expired⟩ := status_finalized_iff.mp isStatus
        refine ⟨fun rejected => accepted ((rejected_congr settled.signer settled.enforced).mpr rejected), notUpheld,
          settling expired accepted notUpheld, currentEpoch, by simp [callEpoch], ?_⟩
        rw [← windowEnd_congr settled.window]
        exact expired

theorem settled_start : Settled env start [] := by
  refine ⟨rfl, rfl, rfl, ?_, ?_, ?_⟩
  · rintro receipt proof ⟨earlier, epoch, part, _⟩
    simp at part
  · rintro receipt ⟨earlier, epoch, part, _⟩
    simp at part
  · rintro receipt ⟨earlier, epoch, part, _⟩
    simp at part

end

/-- Verdicts are final in every run in which the rulings settle them. -/
theorem verdicts_final (env : Environment PublicKeySet Signature SignatureShare) (start : ReceiptValidator)
    (calls : List ValidatorCall) (orderly : Orderly env calls)
    (settling : ∀ before call, before ++ [call] <+: calls → Settling env (validatorAfter env start before) call) :
    VerdictsFinal env start calls := by
  have settled : ∀ before, before <+: calls → Settled env start before := by
    refine Runs.forall_prefixes settled_start ?_
    intro before call part earlier
    exact settled_next orderly part earlier (settling before call part)
  refine ⟨fun before receipt currentEpoch status part isFinal reported => ?_,
    fun before receipt currentEpoch part isFinal proof inTime => ?_⟩
  · have known := settled before ((List.prefix_append before [_]).trans part)
    have rejected := @rejected_congr _ _ _ env start receipt _ known.signer known.enforced
    rcases isFinal with rfl | rfl
    · obtain ⟨accepted, notUpheld, _, epoch, listed, expired⟩ := known.finalized receipt reported
      refine status_finalized_iff.mpr ⟨fun isRejected => accepted (rejected.mp isRejected), notUpheld, ?_⟩
      have epochs := orderly.epochs.sublist (part.sublist.filterMap callEpoch)
      rw [List.filterMap_append, List.pairwise_append] at epochs
      rw [windowEnd_congr known.window]
      exact UInt64.lt_of_lt_of_le expired (epochs.2.2 epoch listed currentEpoch (by simp [callEpoch]))
    · exact status_invalid_iff.mpr ((known.invalid receipt reported).imp_left rejected.mpr)
  · have known := settled before ((List.prefix_append before [_]).trans part)
    obtain ⟨accepted, notUpheld, expired⟩ := status_finalized_iff.mp isFinal
    rcases known.submitted receipt proof inTime with pending | adjudicated
    · exact settling before _ part expired accepted notUpheld proof pending
    · exact adjudicated

end

section

def receiptEnvironment : Environment Unit (List UInt8) (List UInt8) :=
  ⟨fun receipt => Bytes32.replicate receipt.version, fun _ => .ok (), echoCrypto⟩

def firstReceipt : PoUWReceipt := ⟨1, Bytes32.replicate 0, 1, 0, Bytes32.replicate 0, [], [], [], none⟩

def chunkProof : FraudProof := ⟨⟨Bytes32.replicate 2⟩, "fraud_chunk_0"⟩

def rejectedRun : List ValidatorCall :=
  [.submit firstReceipt chunkProof 2, .record ⟨chunkProof.id, .subjectWins⟩, .validate firstReceipt 10,
    .validate firstReceipt 11]

theorem verdicts_final_rejected : VerdictsFinal receiptEnvironment (ReceiptValidator.new 5) rejectedRun := by
  refine verdicts_final receiptEnvironment (ReceiptValidator.new 5) rejectedRun ⟨by decide, ?_⟩ ?_
  · have same : ∀ receipt ∈ rejectedRun.filterMap callReceipt, receipt = firstReceipt := by decide
    intro receipt listed other listed' _
    rw [same receipt listed, same other listed']
  · have pending : ∀ validator : ReceiptValidator, validator = validatorAfter receiptEnvironment (ReceiptValidator.new 5)
        (rejectedRun.take 2) → ∀ proof ∈ validator.proofsOf (receiptEnvironment.canonicalHash firstReceipt),
          Adjudicated validator proof := by
      rintro _ rfl proof listed
      have isProof : proof ∈ [chunkProof] := listed
      rw [List.mem_singleton.mp isProof]
      exact ⟨⟨chunkProof.id, .subjectWins⟩, rfl⟩
    unfold rejectedRun
    rw [Runs.forall_steps_cons, Runs.forall_steps_cons, Runs.forall_steps_cons, Runs.forall_steps_cons]
    refine ⟨trivial, fun receiptHash proof _ _ earlier found => ?_, ?_, ?_, Runs.forall_steps_nil⟩
    · cases found
    · exact fun _ _ _ => pending _ rfl
    · exact fun _ _ _ => pending _ rfl

/-- A receipt is reported as finally valid before its fraud proof is adjudicated, and then as invalid. -/
theorem late_ruling_reverses : ¬ VerdictsFinal receiptEnvironment (ReceiptValidator.new 5)
    [.submit firstReceipt chunkProof 2, .validate firstReceipt 10, .record ⟨chunkProof.id, .challengerWins⟩,
      .validate firstReceipt 11] := by
  intro claim
  have reported : Reported receiptEnvironment (ReceiptValidator.new 5)
      [.submit firstReceipt chunkProof 2, .validate firstReceipt 10, .record ⟨chunkProof.id, .challengerWins⟩]
      firstReceipt .finalizedValid :=
    ⟨[.submit firstReceipt chunkProof 2], 10, ⟨[.record ⟨chunkProof.id, .challengerWins⟩], rfl⟩, by decide +kernel⟩
  have again := claim.stable _ firstReceipt 11 .finalizedValid List.prefix_rfl (.inl rfl) reported
  have now : ((validatorAfter receiptEnvironment (ReceiptValidator.new 5)
      [.submit firstReceipt chunkProof 2, .validate firstReceipt 10, .record ⟨chunkProof.id, .challengerWins⟩]
        ).validateReceipt receiptEnvironment firstReceipt 11).validationStatus = .invalid := by
    decide +kernel
  exact absurd (now.symm.trans again) (by decide)

end

end AdicProof.Pouw
