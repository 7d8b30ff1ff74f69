import AdicCore.Vrf.Service
import AdicCore.Library.Runs
import AdicCore.Library.Algebra

open AdicModel AdicModel.Vrf

namespace AdicProof.Vrf

inductive VrfCall where
  | submitCommit (reputation : ℚ) (commit : VRFCommit)
  | submitReveal (reveal : VRFOpen) (currentEpoch : UInt64)
  | finalizeEpoch (epoch : UInt64)

variable {blake3 : List UInt8 → Bytes32} {config : VRFConfig} {service after : VRFService} {call : VrfCall}
  {epoch : UInt64} {randomness : Bytes32}

def next (blake3 : List UInt8 → Bytes32) (service : VRFService) : VrfCall → VRFService
  | .submitCommit reputation commit => (service.submitCommit reputation commit).2
  | .submitReveal reveal currentEpoch => (service.submitReveal blake3 reveal currentEpoch).2
  | .finalizeEpoch epoch => (service.finalizeEpoch blake3 epoch).2

abbrev afterCalls (blake3 : List UInt8 → Bytes32) (config : VRFConfig) (calls : List VrfCall) : VRFService :=
  Runs.after (next blake3) (.new config) calls

inductive Effect (blake3 : List UInt8 → Bytes32) (service : VRFService) : VrfCall → VRFService → Prop where
  | same {call : VrfCall} : Effect blake3 service call service
  | committed {reputation : ℚ} {commit : VRFCommit} (state : VRFState)
      (held : (service.states.lookup commit.targetEpoch).getD (.new commit.targetEpoch) = state) :
      Effect blake3 service (.submitCommit reputation commit)
        { service with states := service.states.insert commit.targetEpoch (state.addCommit commit) }
  | revealed {reveal : VRFOpen} {currentEpoch : UInt64} (state : VRFState) (commit : VRFCommit)
      (held : service.states.lookup reveal.targetEpoch = some state)
      (found : state.commits.find? (fun commit => commit.id = reveal.refCommit) = some commit)
      (opens : blake3 reveal.vrfProof = commit.commitment) :
      Effect blake3 service (.submitReveal reveal currentEpoch)
        { service with states := service.states.insert reveal.targetEpoch (state.addReveal reveal) }
  | finalized {epoch : UInt64} (state : VRFState) (held : service.states.lookup epoch = some state)
      (pending : state.canonicalRandomness = none) (randomness : Bytes32)
      (mixed : randomness =
        (computeCanonicalRandomness blake3 epoch (service.previousRoot epoch) state.reveals).randomness) :
      Effect blake3 service (.finalizeEpoch epoch)
        { service with
          states := service.states.insert epoch (state.finalize randomness)
          roots := service.roots.insert epoch randomness }

theorem next_effect : Effect blake3 service call (next blake3 service call) := by
  cases call with
  | submitCommit reputation commit =>
    show Effect blake3 service _ (service.submitCommit reputation commit).2
    unfold VRFService.submitCommit
    split
    · exact .same
    · dsimp only
      split
      · exact .same
      · exact .committed _ rfl
  | submitReveal reveal currentEpoch =>
    show Effect blake3 service _ (service.submitReveal blake3 reveal currentEpoch).2
    unfold VRFService.submitReveal
    split
    · exact .same
    · split
      · exact .same
      · next state held =>
        split
        · exact .same
        · next commit found =>
          split
          · exact .same
          · next verified =>
            rw [Bool.not_eq_false, VRFCommit.verifyCommitment, decide_eq_true_eq] at verified
            exact .revealed state commit held found verified
  | finalizeEpoch epoch =>
    show Effect blake3 service _ (service.finalizeEpoch blake3 epoch).2
    unfold VRFService.finalizeEpoch
    split
    · exact .same
    · next state held =>
      split
      · exact .same
      · next unfinalized =>
        split
        · exact .same
        · refine .finalized state held ?_ _ rfl
          rw [state.finalized, Bool.not_eq_true, Option.isSome_eq_false_iff, Option.isNone_iff_eq_none] at unfinalized
          exact unfinalized

theorem finalizedRandomness_eq :
    service.finalizedRandomness epoch = (service.states.lookup epoch).bind VRFState.canonicalRandomness := by
  unfold VRFService.finalizedRandomness
  split
  · next missing => rw [missing, Option.bind_none]
  · next state held =>
    rw [held, Option.bind_some]
    split
    · unfold VRFState.randomness
      rw [Option.some_get]
    · next unfinalized =>
      rw [state.finalized, Bool.not_eq_true, Option.isSome_eq_false_iff, Option.isNone_iff_eq_none] at unfinalized
      exact unfinalized.symm

theorem finalizedRandomness_insert {roots : HashMap.Table UInt64 Bytes32} (changed : UInt64) (state : VRFState) :
    VRFService.finalizedRandomness ⟨config, service.states.insert changed state, roots⟩ epoch =
      if epoch = changed then state.canonicalRandomness else service.finalizedRandomness epoch := by
  rw [finalizedRandomness_eq, finalizedRandomness_eq, HashMap.lookup_insert_eq]
  split
  · rfl
  · rfl

theorem finalizedRandomness_next (finalized : service.finalizedRandomness epoch = some randomness)
    (effect : Effect blake3 service call after) : after.finalizedRandomness epoch = some randomness := by
  have held := finalized
  rw [finalizedRandomness_eq] at held
  cases effect with
  | same => exact finalized
  | committed state stored =>
    rw [finalizedRandomness_insert]
    split
    · next same =>
      rw [same] at held
      obtain ⟨earlier, lookup, known⟩ := Option.bind_eq_some_iff.mp held
      rw [lookup, Option.getD_some] at stored
      rw [← known, stored]
      rfl
    · exact finalized
  | revealed state commit stored found opens =>
    rw [finalizedRandomness_insert]
    split
    · next same =>
      rw [same, stored, Option.bind_some] at held
      exact held
    · exact finalized
  | finalized state stored pending fresh mixed =>
    rw [finalizedRandomness_insert]
    split
    · next same =>
      rw [same, stored, Option.bind_some, pending] at held
      cases held
    · exact finalized

theorem finalizedRandomness_later (finalized : service.finalizedRandomness epoch = some randomness)
    (later : List VrfCall) : (Runs.after (next blake3) service later).finalizedRandomness epoch = some randomness :=
  @Runs.invariant_of_kept _ _ (next blake3) service (fun service => service.finalizedRandomness epoch = some randomness)
    finalized (fun _ _ held => finalizedRandomness_next held next_effect) later

theorem after_append (calls later : List VrfCall) :
    afterCalls blake3 config (calls ++ later) = Runs.after (next blake3) (afterCalls blake3 config calls) later := by
  unfold afterCalls Runs.after
  exact List.foldl_append

theorem getCanonicalRandomness_own (finalized : service.finalizedRandomness epoch = some randomness) :
    service.getCanonicalRandomness epoch = .ok randomness := by
  unfold VRFService.getCanonicalRandomness
  rw [finalized]

theorem getCanonicalRandomness_fallback_iff (pending : service.finalizedRandomness epoch = none) :
    service.getCanonicalRandomness epoch = .ok randomness ↔
      epoch > 0 ∧ service.finalizedRandomness (epoch - 1) = some randomness := by
  unfold VRFService.getCanonicalRandomness
  rw [pending]
  by_cases positive : epoch > 0
  · rw [if_pos positive]
    cases service.finalizedRandomness (epoch - 1) with
    | none => simp [positive]
    | some previous => simp [positive]
  · rw [if_neg positive]
    simp [positive]

theorem computeChallenge_of_randomness (answer : service.getCanonicalRandomness epoch = .ok randomness)
    (domain : List UInt8) (params : List (List UInt8)) :
    service.computeChallengeForEpoch blake3 epoch domain params =
      .ok (computeChallenge blake3 randomness domain params) := by
  unfold VRFService.computeChallengeForEpoch
  rw [answer]
  rfl

/-- The answer for an epoch changes at most once, to the randomness that its finalization gave it. -/
theorem canonical_randomness_changes_once (blake3 : List UInt8 → Bytes32) (config : VRFConfig)
    (calls later : List VrfCall) (epoch : UInt64) (randomness : Bytes32)
    (answer : (afterCalls blake3 config calls).getCanonicalRandomness epoch = .ok randomness) :
    ((afterCalls blake3 config (calls ++ later)).finalizedRandomness epoch = none ∨
        (afterCalls blake3 config calls).finalizedRandomness epoch ≠ none →
      (afterCalls blake3 config (calls ++ later)).getCanonicalRandomness epoch = .ok randomness ∧
        ∀ domain params,
          (afterCalls blake3 config (calls ++ later)).computeChallengeForEpoch blake3 epoch domain params =
            .ok (computeChallenge blake3 randomness domain params)) ∧
    ∀ own, (afterCalls blake3 config (calls ++ later)).finalizedRandomness epoch = some own →
      (afterCalls blake3 config (calls ++ later)).getCanonicalRandomness epoch = .ok own := by
  refine ⟨fun stable => ?_, fun own finalized => getCanonicalRandomness_own finalized⟩
  suffices same : (afterCalls blake3 config (calls ++ later)).getCanonicalRandomness epoch = .ok randomness from
    ⟨same, computeChallenge_of_randomness same⟩
  cases now : (afterCalls blake3 config calls).finalizedRandomness epoch with
  | some own =>
    rw [getCanonicalRandomness_own now] at answer
    rw [← answer]
    apply getCanonicalRandomness_own
    rw [after_append]
    exact finalizedRandomness_later now later
  | none =>
    rcases stable with pending | already
    · obtain ⟨positive, previous⟩ := (getCanonicalRandomness_fallback_iff now).mp answer
      rw [getCanonicalRandomness_fallback_iff pending]
      refine ⟨positive, ?_⟩
      rw [after_append]
      exact finalizedRandomness_later previous later
    · exact absurd now already

section

def oneHash : Bytes32 :=
  ⟨[72, 252, 114, 31, 187, 193, 114, 224, 146, 95, 162, 122, 241, 103, 29, 226, 37, 186, 146, 113, 52, 128, 41,
    152, 177, 10, 21, 104, 161, 136, 101, 43], by decide⟩

def twoHash : Bytes32 :=
  ⟨[171, 19, 190, 223, 66, 232, 75, 174, 15, 124, 98, 199, 221, 106, 138, 218, 87, 30, 136, 41, 190, 214, 234,
    85, 130, 23, 240, 54, 27, 94, 37, 208], by decide⟩

def firstRandomness : Bytes32 :=
  ⟨[98, 37, 40, 196, 94, 65, 171, 104, 129, 27, 238, 72, 162, 247, 161, 131, 227, 79, 125, 63, 98, 183, 50, 212,
    155, 66, 57, 31, 161, 190, 211, 221], by decide⟩

def secondRandomness : Bytes32 :=
  ⟨[99, 162, 43, 202, 23, 23, 251, 141, 116, 216, 119, 33, 45, 178, 55, 202, 134, 71, 66, 41, 249, 26, 109, 21,
    15, 234, 49, 158, 167, 32, 254, 27], by decide⟩

def canceledRandomness : Bytes32 :=
  ⟨[77, 0, 105, 118, 99, 106, 134, 150, 217, 9, 166, 48, 164, 8, 26, 173, 77, 124, 80, 248, 26, 253, 238, 4, 2,
    11, 240, 80, 134, 171, 106, 85], by decide⟩

def repeatedRandomness : Bytes32 :=
  ⟨[9, 101, 190, 34, 85, 186, 243, 200, 166, 245, 24, 85, 183, 129, 64, 87, 56, 25, 75, 160, 223, 167, 79, 204,
    13, 117, 221, 215, 155, 47, 40, 178], by decide⟩

def sampledHash (bytes : List UInt8) : Bytes32 :=
  if bytes = [1] then oneHash
  else if bytes = [2] then twoHash
  else if bytes = List.replicate 32 0 ++ oneHash.bytes then firstRandomness
  else if bytes = firstRandomness.bytes ++ twoHash.bytes then secondRandomness
  else if bytes = firstRandomness.bytes ++ oneHash.bytes then repeatedRandomness
  else if bytes = List.replicate 64 0 then canceledRandomness
  else Bytes32.replicate 0

def sampleMessage (byte : UInt8) : AdicMessage where
  id := ⟨Bytes32.replicate byte⟩
  parents := []
  features := ⟨[]⟩
  metadata := .new ⟨0, 0⟩
  proposerPk := ⟨Bytes32.replicate 1⟩
  signature := .empty
  transfer := none
  data := []

def commitProof (byte : UInt8) (epoch : UInt64) : VrfCall :=
  .submitCommit 60 ⟨sampleMessage byte, epoch, sampledHash [byte], ⟨Bytes32.replicate byte⟩⟩

def revealProof (byte : UInt8) (epoch : UInt64) : VrfCall :=
  .submitReveal
    ⟨sampleMessage (byte + 10), epoch, ⟨Bytes32.replicate byte⟩, [byte], ⟨Bytes32.replicate byte⟩⟩ epoch

def firstEpoch : List VrfCall := [commitProof 1 1, revealProof 1 1, .finalizeEpoch 1]

def secondEpoch : List VrfCall := [commitProof 2 2, revealProof 2 2]

theorem fallback_kept :
    (afterCalls sampledHash .default (firstEpoch ++ secondEpoch)).getCanonicalRandomness 2 = .ok firstRandomness :=
  ((canonical_randomness_changes_once sampledHash .default firstEpoch secondEpoch 2 firstRandomness
    (by decide +kernel)).1 (.inl (by decide +kernel))).1

theorem fallback_replaced :
    ¬∀ calls later epoch randomness,
      (afterCalls sampledHash .default calls).getCanonicalRandomness epoch = .ok randomness →
      (afterCalls sampledHash .default (calls ++ later)).getCanonicalRandomness epoch = .ok randomness := by
  intro fixed
  have kept := fixed firstEpoch (secondEpoch ++ [.finalizeEpoch 2]) 2 firstRandomness (by decide +kernel)
  revert kept
  decide +kernel

end

end AdicProof.Vrf

namespace AdicProof.Vrf

theorem bytes32_ext {first second : Bytes32} (same : first.bytes = second.bytes) : first = second := by
  cases first
  cases second
  exact (Bytes32.mk.injEq ..).mpr same

def byteAt (value : Bytes32) (i : Nat) : UInt8 := value.bytes.getD i 0

theorem bytes32_ext_byteAt {first second : Bytes32} (same : ∀ i, byteAt first i = byteAt second i) :
    first = second := by
  apply bytes32_ext
  apply List.ext_getElem
  · rw [first.size, second.size]
  · intro i left right
    have at_i := same i
    unfold byteAt at at_i
    rwa [List.getD_eq_getElem _ _ left, List.getD_eq_getElem _ _ right] at at_i

theorem byteAt_xorBytes (first second : Bytes32) (i : Nat) :
    byteAt (xorBytes first second) i = byteAt first i ^^^ byteAt second i := by
  unfold byteAt
  by_cases bound : i < 32
  · rw [List.getD_eq_getElem _ _ (by rw [(xorBytes first second).size]; exact bound),
      List.getD_eq_getElem _ _ (by rw [first.size]; exact bound),
      List.getD_eq_getElem _ _ (by rw [second.size]; exact bound)]
    simp [xorBytes]
  · rw [List.getD_eq_default _ _ (by rw [(xorBytes first second).size]; omega),
      List.getD_eq_default _ _ (by rw [first.size]; omega), List.getD_eq_default _ _ (by rw [second.size]; omega)]
    rfl

theorem byteAt_replicate (byte : UInt8) {i : Nat} (bound : i < 32) : byteAt (Bytes32.replicate byte) i = byte := by
  unfold byteAt
  rw [List.getD_eq_getElem _ _ (by rw [(Bytes32.replicate byte).size]; exact bound)]
  exact List.getElem_replicate _

theorem byteAt_zero (i : Nat) : byteAt (Bytes32.replicate 0) i = 0 := by
  by_cases bound : i < 32
  · exact byteAt_replicate 0 bound
  · exact List.getD_eq_default _ _ (by rw [(Bytes32.replicate 0).size]; omega)

theorem xorBytes_comm (first second : Bytes32) : xorBytes first second = xorBytes second first := by
  apply bytes32_ext_byteAt
  intro i
  rw [byteAt_xorBytes, byteAt_xorBytes]
  exact UInt8.xor_comm _ _

theorem xorBytes_assoc (first second third : Bytes32) :
    xorBytes (xorBytes first second) third = xorBytes first (xorBytes second third) := by
  apply bytes32_ext_byteAt
  intro i
  simp only [byteAt_xorBytes]
  exact UInt8.xor_assoc _ _ _

theorem xorBytes_zero (value : Bytes32) : xorBytes value (Bytes32.replicate 0) = value := by
  apply bytes32_ext_byteAt
  intro i
  rw [byteAt_xorBytes, byteAt_zero]
  exact UInt8.xor_zero

theorem xorBytes_self (value : Bytes32) : xorBytes value value = Bytes32.replicate 0 := by
  apply bytes32_ext_byteAt
  intro i
  rw [byteAt_xorBytes, byteAt_zero]
  exact UInt8.xor_self

instance : Zero Bytes32 := ⟨Bytes32.replicate 0⟩

instance : Add Bytes32 := ⟨xorBytes⟩

instance : Neg Bytes32 := ⟨fun value => value⟩

/-- The XOR of hashes is a group in which every element is its own inverse. -/
instance xorGroup : AddCommGroup Bytes32 where
  add_assoc := xorBytes_assoc
  zero_add value := (xorBytes_comm _ value).trans (xorBytes_zero value)
  add_zero := xorBytes_zero
  nsmul := nsmulRec
  zsmul := zsmulRec
  neg_add_cancel := xorBytes_self
  add_comm := xorBytes_comm

theorem foldl_xorBytes (value : VRFOpen → Bytes32) (reveals : List VRFOpen) (initial : Bytes32) :
    reveals.foldl (fun combined reveal => xorBytes combined (value reveal)) initial =
      initial + (reveals.map value).sum := by
  induction reveals generalizing initial with
  | nil => exact (add_zero initial).symm
  | cons reveal reveals ih =>
    rw [List.foldl_cons, ih, List.map_cons, List.sum_cons, ← add_assoc]
    rfl

theorem mixingInput_injective {root root' combined combined' : Bytes32}
    (same : mixingInput root combined = mixingInput root' combined') : root = root' ∧ combined = combined' := by
  have parts := List.append_inj same (by rw [root.size, root'.size])
  exact ⟨bytes32_ext parts.1, bytes32_ext parts.2⟩

section

variable (blake3 : List UInt8 → Bytes32) (reveals : List VRFOpen)

def revealedCommits : List MessageId := reveals.map VRFOpen.refCommit

def revealedHash (commit : MessageId) : Bytes32 :=
  ((reveals.find? fun reveal => reveal.refCommit = commit).map fun reveal => blake3 reveal.vrfProof).getD 0

def asDelivered : Bytes32 := (reveals.map fun reveal => blake3 reveal.vrfProof).sum

def countedOnce : Bytes32 := ∑ commit ∈ (revealedCommits reveals).toFinset, revealedHash blake3 reveals commit

def canceled : Bytes32 :=
  ∑ commit ∈ (revealedCommits reveals).toFinset with Even ((revealedCommits reveals).count commit),
    revealedHash blake3 reveals commit

end

def OneHashEach (blake3 : List UInt8 → Bytes32) (reveals : List VRFOpen) : Prop :=
  ∀ reveal ∈ reveals, ∀ other ∈ reveals, reveal.refCommit = other.refCommit →
    blake3 reveal.vrfProof = blake3 other.vrfProof

section

variable {blake3 : List UInt8 → Bytes32} {reveals others : List VRFOpen}

theorem revealedHash_eq (one : OneHashEach blake3 reveals) {reveal : VRFOpen} (member : reveal ∈ reveals) :
    revealedHash blake3 reveals reveal.refCommit = blake3 reveal.vrfProof := by
  unfold revealedHash
  cases found : reveals.find? fun other => other.refCommit = reveal.refCommit with
  | none => simpa using List.find?_eq_none.mp found reveal member
  | some other =>
    have same : other.refCommit = reveal.refCommit := by simpa using List.find?_some found
    exact one other (List.mem_of_find?_eq_some found) reveal member same

theorem asDelivered_eq (one : OneHashEach blake3 reveals) :
    asDelivered blake3 reveals = ((revealedCommits reveals).map (revealedHash blake3 reveals)).sum := by
  unfold asDelivered revealedCommits
  rw [List.map_map]
  apply congrArg
  apply List.map_congr_left
  intro reveal member
  exact (revealedHash_eq one member).symm

theorem asDelivered_eq_countedOnce_iff (one : OneHashEach blake3 reveals) :
    asDelivered blake3 reveals = countedOnce blake3 reveals ↔ canceled blake3 reveals = 0 := by
  rw [asDelivered_eq one]
  exact ExclusiveOr.sum_map_eq_once_iff xorBytes_self _ _

theorem countedOnce_congr (one : OneHashEach blake3 reveals) (one' : OneHashEach blake3 others)
    (same : ∀ reveal, reveal ∈ reveals ↔ reveal ∈ others) : countedOnce blake3 reveals = countedOnce blake3 others := by
  unfold countedOnce
  apply Finset.sum_congr
  · apply Finset.ext
    intro commit
    simp only [revealedCommits, List.mem_toFinset, List.mem_map, same]
  · intro commit member
    rw [List.mem_toFinset, revealedCommits, List.mem_map] at member
    obtain ⟨reveal, listed, rfl⟩ := member
    have among := (same reveal).mp (by simpa [same] using listed)
    rw [revealedHash_eq one' among, revealedHash_eq one ((same reveal).mpr among)]

end

end AdicProof.Vrf
