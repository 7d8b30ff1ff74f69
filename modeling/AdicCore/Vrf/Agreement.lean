import AdicCore.Vrf.Stability

open AdicModel AdicModel.Vrf

namespace AdicProof.Vrf

def commitsOf (service : VRFService) (epoch : UInt64) : List VRFCommit :=
  ((service.states.lookup epoch).map VRFState.commits).getD []

def revealsOf (service : VRFService) (epoch : UInt64) : List VRFOpen :=
  ((service.states.lookup epoch).map VRFState.reveals).getD []

section

variable (blake3 : List UInt8 → Bytes32) (config : VRFConfig) (calls : List VrfCall) (epoch : UInt64)

/-- The epoch is finalized, after all its commits and reveals were delivered. -/
structure FinalizesAfterDeliveries : Prop where
  finalized : ((afterCalls blake3 config calls).finalizedRandomness epoch).isSome
  complete : ∀ before, before <+: calls → ((afterCalls blake3 config before).finalizedRandomness epoch).isSome →
    commitsOf (afterCalls blake3 config before) epoch = commitsOf (afterCalls blake3 config calls) epoch ∧
      revealsOf (afterCalls blake3 config before) epoch = revealsOf (afterCalls blake3 config calls) epoch

def FinalizedBefore (first second : UInt64) : Prop :=
  ∃ before, before <+: calls ∧ ((afterCalls blake3 config before).finalizedRandomness first).isSome ∧
    (afterCalls blake3 config before).finalizedRandomness second = none

def RootInOrder : Prop :=
  if epoch = 1 then ¬FinalizedBefore blake3 config calls 0 1 else FinalizedBefore blake3 config calls (epoch - 1) epoch

end

structure SameDeliveries (service service' : VRFService) (epoch : UInt64) : Prop where
  commits : ∀ commit, commit ∈ commitsOf service epoch ↔ commit ∈ commitsOf service' epoch
  reveals : ∀ reveal, reveal ∈ revealsOf service epoch ↔ reveal ∈ revealsOf service' epoch

section

variable (blake3 : List UInt8 → Bytes32) (service service' : VRFService) (epoch : UInt64)

def prevRoot : Option Bytes32 :=
  if epoch = 1 then some service.config.genesisRoot else service.finalizedRandomness (epoch - 1)

/-- The hash of the previous root with the XOR of the hashes of the revealed proofs, each commit counted once. -/
def MixedOnce : Prop :=
  ∃ root, prevRoot service epoch = some root ∧
    service.getCanonicalRandomness epoch =
      .ok (blake3 (mixingInput root (countedOnce blake3 (revealsOf service epoch))))

def Agreed : Prop :=
  service.getCanonicalRandomness epoch = service'.getCanonicalRandomness epoch ∧ MixedOnce blake3 service epoch

def MixingInputs : Set (List UInt8) :=
  {input | ∃ root epoch,
    (root = service.config.genesisRoot ∨ ∃ earlier, service.finalizedRandomness earlier = some root) ∧
      (service.finalizedRandomness epoch).isSome ∧
      (input = mixingInput root (asDelivered blake3 (revealsOf service epoch)) ∨
        input = mixingInput root (countedOnce blake3 (revealsOf service epoch)))}

structure Resists : Prop where
  collisions : ∀ input ∈ MixingInputs blake3 service, ∀ other ∈ MixingInputs blake3 service,
    blake3 input = blake3 other → input = other
  genesis : ∀ epoch, service.finalizedRandomness epoch ≠ some service.config.genesisRoot

structure Sound : Prop where
  target : ∀ epoch, ∀ reveal ∈ revealsOf service epoch, reveal.targetEpoch = epoch
  opens : ∀ epoch, ∀ reveal ∈ revealsOf service epoch, ∃ commit,
    (commitsOf service epoch).find? (fun commit => commit.id = reveal.refCommit) = some commit ∧
      blake3 reveal.vrfProof = commit.commitment
  roots : ∀ epoch, service.roots.lookup epoch =
    (service.finalizedRandomness epoch).or (if epoch = 0 then some service.config.genesisRoot else none)

end

variable {calls : List VrfCall}

section

variable {blake3 : List UInt8 → Bytes32} {config : VRFConfig} {service after : VRFService} {call : VrfCall}
  {epoch : UInt64} {randomness : Bytes32}

theorem revealsOf_insert {roots : HashMap.Table UInt64 Bytes32} (changed : UInt64) (state : VRFState) :
    revealsOf ⟨config, service.states.insert changed state, roots⟩ epoch =
      if epoch = changed then state.reveals else revealsOf service epoch := by
  unfold revealsOf
  rw [HashMap.lookup_insert_eq]
  split
  · rfl
  · rfl

theorem commitsOf_insert {roots : HashMap.Table UInt64 Bytes32} (changed : UInt64) (state : VRFState) :
    commitsOf ⟨config, service.states.insert changed state, roots⟩ epoch =
      if epoch = changed then state.commits else commitsOf service epoch := by
  unfold commitsOf
  rw [HashMap.lookup_insert_eq]
  split
  · rfl
  · rfl

variable {state : VRFState}

theorem revealsOf_held (held : service.states.lookup epoch = some state) :
    revealsOf service epoch = state.reveals := by
  unfold revealsOf
  rw [held]
  rfl

theorem commitsOf_held (held : service.states.lookup epoch = some state) :
    commitsOf service epoch = state.commits := by
  unfold commitsOf
  rw [held]
  rfl

theorem config_next (effect : Effect blake3 service call after) : after.config = service.config := by
  cases effect with
  | same => rfl
  | committed state held => rfl
  | revealed state commit held found opens => rfl
  | finalized state held pending randomness mixed => rfl

theorem getD_new (held : (service.states.lookup epoch).getD (.new epoch) = state) :
    state.commits = commitsOf service epoch ∧ state.reveals = revealsOf service epoch ∧
      state.canonicalRandomness = service.finalizedRandomness epoch := by
  rw [finalizedRandomness_eq]
  unfold commitsOf revealsOf
  cases lookup : service.states.lookup epoch with
  | none =>
    rw [lookup, Option.getD_none] at held
    rw [← held]
    exact ⟨rfl, rfl, rfl⟩
  | some stored =>
    rw [lookup, Option.getD_some] at held
    rw [← held]
    exact ⟨rfl, rfl, rfl⟩

theorem Sound.of_committed (sound : Sound blake3 service)
    (commits : ∀ epoch, commitsOf service epoch <+: commitsOf after epoch)
    (reveals : ∀ epoch, revealsOf after epoch = revealsOf service epoch)
    (finalized : ∀ epoch, after.finalizedRandomness epoch = service.finalizedRandomness epoch)
    (config : after.config = service.config) (roots : after.roots = service.roots) : Sound blake3 after := by
  constructor
  · intro epoch reveal member
    rw [reveals] at member
    exact sound.target epoch reveal member
  · intro epoch reveal member
    rw [reveals] at member
    obtain ⟨commit, found, opened⟩ := sound.opens epoch reveal member
    obtain ⟨rest, grown⟩ := commits epoch
    refine ⟨commit, ?_, opened⟩
    rw [← grown, List.find?_append, found]
    rfl
  · intro epoch
    rw [roots, finalized, config]
    exact sound.roots epoch

theorem sound_next (sound : Sound blake3 service) (effect : Effect blake3 service call after) :
    Sound blake3 after := by
  cases effect with
  | same => exact sound
  | @committed reputation commit state held =>
    obtain ⟨commits, reveals, randomness⟩ := getD_new held
    apply sound.of_committed
    · intro epoch
      rw [commitsOf_insert]
      split
      · next same =>
        rw [same, ← commits]
        exact List.prefix_append _ _
      · exact List.prefix_refl _
    · intro epoch
      rw [revealsOf_insert]
      split
      · next same =>
        rw [same]
        exact reveals
      · rfl
    · intro epoch
      rw [finalizedRandomness_insert]
      split
      · next same =>
        rw [same]
        exact randomness
      · rfl
    · rfl
    · rfl
  | @revealed reveal currentEpoch state commit held found opens =>
    constructor
    · intro epoch other member
      rw [revealsOf_insert] at member
      split at member
      · next same =>
        rcases List.mem_append.mp member with earlier | last
        · rw [← revealsOf_held held] at earlier
          rw [same]
          exact sound.target _ other earlier
        · rw [List.mem_singleton.mp last, same]
      · exact sound.target epoch other member
    · intro epoch other member
      rw [revealsOf_insert] at member
      rw [commitsOf_insert]
      split at member
      · next same =>
        rw [if_pos same]
        rcases List.mem_append.mp member with earlier | last
        · rw [← revealsOf_held held] at earlier
          have opened := sound.opens _ other earlier
          rwa [commitsOf_held held] at opened
        · rw [List.mem_singleton.mp last]
          exact ⟨commit, found, opens⟩
      · next different =>
        rw [if_neg different]
        exact sound.opens epoch other member
    · intro epoch
      rw [finalizedRandomness_insert]
      by_cases same : epoch = reveal.targetEpoch
      · have randomness : service.finalizedRandomness epoch = state.canonicalRandomness := by
          rw [same, finalizedRandomness_eq, held]
          rfl
        rw [if_pos same]
        exact randomness ▸ sound.roots epoch
      · rw [if_neg same]
        exact sound.roots epoch
  | finalized state held pending randomness mixed =>
    constructor
    · intro epoch other member
      rw [revealsOf_insert] at member
      split at member
      · next same =>
        have earlier : other ∈ state.reveals := member
        rw [← revealsOf_held held] at earlier
        rw [same]
        exact sound.target _ other earlier
      · exact sound.target epoch other member
    · intro epoch other member
      rw [revealsOf_insert] at member
      rw [commitsOf_insert]
      split at member
      · next same =>
        rw [if_pos same]
        have earlier : other ∈ state.reveals := member
        rw [← revealsOf_held held] at earlier
        have opened := sound.opens _ other earlier
        rwa [commitsOf_held held] at opened
      · next different =>
        rw [if_neg different]
        exact sound.opens epoch other member
    · intro epoch
      rw [finalizedRandomness_insert, HashMap.lookup_insert_eq]
      split
      · rfl
      · exact sound.roots epoch

theorem sound_new (config : VRFConfig) : Sound blake3 (.new config) where
  target epoch reveal member := by cases member
  opens epoch reveal member := by cases member
  roots epoch := by
    show ((∅ : HashMap.Table UInt64 Bytes32).insert 0 config.genesisRoot).lookup epoch = _
    rw [HashMap.lookup_insert_eq]
    rfl

theorem sound_after (calls : List VrfCall) : Sound blake3 (afterCalls blake3 config calls) :=
  Runs.invariant_of_kept (sound_new config) (fun _ _ sound => sound_next sound next_effect) calls

theorem config_after (calls : List VrfCall) : (afterCalls blake3 config calls).config = config :=
  @Runs.invariant_of_kept _ _ (next blake3) (.new config) (fun service => service.config = config) rfl
    (fun _ _ same => (config_next next_effect).trans same) calls

theorem Sound.oneHashEach (sound : Sound blake3 service) (epoch : UInt64) :
    OneHashEach blake3 (revealsOf service epoch) := by
  intro reveal member other among same
  obtain ⟨commit, found, opened⟩ := sound.opens epoch reveal member
  obtain ⟨commit', found', opened'⟩ := sound.opens epoch other among
  rw [same, found'] at found
  cases found
  rw [opened, opened']

theorem computeCanonicalRandomness_eq {reveals : List VRFOpen} (root : Bytes32)
    (target : ∀ reveal ∈ reveals, reveal.targetEpoch = epoch) :
    (computeCanonicalRandomness blake3 epoch root reveals).randomness =
      blake3 (mixingInput root (asDelivered blake3 reveals)) := by
  unfold computeCanonicalRandomness asDelivered
  have contributors : (reveals.filter fun reveal => reveal.targetEpoch = epoch) = reveals := by
    rw [List.filter_eq_self]
    intro reveal member
    exact decide_eq_true (target reveal member)
  rw [contributors]
  show blake3 (mixingInput root (reveals.foldl _ (Bytes32.replicate 0))) = _
  rw [foldl_xorBytes]
  show blake3 (mixingInput root (0 + _)) = _
  rw [zero_add]

theorem finalized_now (sound : Sound blake3 service) (pending : service.finalizedRandomness epoch = none)
    (effect : Effect blake3 service call after) (now : after.finalizedRandomness epoch = some randomness) :
    call = .finalizeEpoch epoch ∧ revealsOf after epoch = revealsOf service epoch ∧
      randomness = blake3 (mixingInput (service.previousRoot epoch) (asDelivered blake3 (revealsOf service epoch))) := by
  cases effect with
  | same =>
    rw [pending] at now
    cases now
  | committed state held =>
    obtain ⟨-, -, unchanged⟩ := getD_new held
    rw [finalizedRandomness_insert] at now
    split at now
    · next same =>
      have absent : state.canonicalRandomness = some randomness := now
      rw [unchanged, ← same, pending] at absent
      cases absent
    · rw [pending] at now
      cases now
  | revealed state commit held found opens =>
    rw [finalizedRandomness_insert] at now
    split at now
    · next same =>
      have absent : state.canonicalRandomness = some randomness := now
      rw [finalizedRandomness_eq, same, held, Option.bind_some, absent] at pending
      cases pending
    · rw [pending] at now
      cases now
  | @finalized changed state held unfinalized mixed computed =>
    rw [finalizedRandomness_insert] at now
    split at now
    · next same =>
      subst same
      have mixedNow : mixed = randomness := Option.some.inj now
      refine ⟨rfl, ?_, ?_⟩
      · rw [revealsOf_insert, if_pos rfl, revealsOf_held held]
        rfl
      · rw [← mixedNow, computed, revealsOf_held held]
        apply computeCanonicalRandomness_eq
        rw [← revealsOf_held held]
        exact sound.target _
    · rw [pending] at now
      cases now

theorem afterCalls_snoc (before : List VrfCall) (call : VrfCall) :
    afterCalls blake3 config (before ++ [call]) = next blake3 (afterCalls blake3 config before) call :=
  Runs.after_snoc before call

theorem finalized_at (calls : List VrfCall)
    (finalized : (afterCalls blake3 config calls).finalizedRandomness epoch = some randomness) :
    ∃ before, before ++ [.finalizeEpoch epoch] <+: calls ∧
      (afterCalls blake3 config before).finalizedRandomness epoch = none ∧
      (afterCalls blake3 config (before ++ [.finalizeEpoch epoch])).finalizedRandomness epoch = some randomness ∧
      revealsOf (afterCalls blake3 config (before ++ [.finalizeEpoch epoch])) epoch =
        revealsOf (afterCalls blake3 config before) epoch ∧
      randomness = blake3 (mixingInput ((afterCalls blake3 config before).previousRoot epoch)
        (asDelivered blake3 (revealsOf (afterCalls blake3 config before) epoch))) := by
  induction calls using List.reverseRecOn with
  | nil => cases finalized
  | append_singleton earlier call ih =>
    rw [afterCalls_snoc] at finalized
    cases known : (afterCalls blake3 config earlier).finalizedRandomness epoch with
    | some held =>
      rw [finalizedRandomness_next known next_effect] at finalized
      obtain ⟨before, part, rest⟩ := ih (known.trans finalized)
      exact ⟨before, part.trans (List.prefix_append earlier [call]), rest⟩
    | none =>
      obtain ⟨rfl, reveals, mixed⟩ := finalized_now (sound_after earlier) known next_effect finalized
      refine ⟨earlier, List.prefix_refl _, known, ?_, ?_, mixed⟩
      · rw [afterCalls_snoc]
        exact finalized
      · rw [afterCalls_snoc]
        exact reveals

variable {before calls : List VrfCall}

theorem finalizedRandomness_kept (part : before <+: calls)
    (finalized : (afterCalls blake3 config before).finalizedRandomness epoch = some randomness) :
    (afterCalls blake3 config calls).finalizedRandomness epoch = some randomness := by
  obtain ⟨later, rfl⟩ := part
  rw [after_append]
  exact finalizedRandomness_later finalized later

theorem finalizedBefore_iff {first : UInt64}
    (part : before ++ [.finalizeEpoch epoch] <+: calls)
    (pending : (afterCalls blake3 config before).finalizedRandomness epoch = none)
    (now : ((afterCalls blake3 config (before ++ [.finalizeEpoch epoch])).finalizedRandomness epoch).isSome) :
    FinalizedBefore blake3 config calls first epoch ↔
      ((afterCalls blake3 config before).finalizedRandomness first).isSome := by
  constructor
  · rintro ⟨other, among, final, unfinalized⟩
    obtain ⟨randomness, held⟩ := Option.isSome_iff_exists.mp final
    rcases List.prefix_or_prefix_of_prefix part among with later | earlier
    · obtain ⟨own, finalized⟩ := Option.isSome_iff_exists.mp now
      rw [finalizedRandomness_kept later finalized] at unfinalized
      cases unfinalized
    · rcases List.prefix_concat_iff.mp earlier with same | within
      · rw [← same, unfinalized] at now
        cases now
      · rw [finalizedRandomness_kept within held]
        rfl
  · intro final
    exact ⟨before, (List.prefix_append before _).trans part, final, pending⟩

theorem Sound.previousRoot (sound : Sound blake3 service) (positive : epoch ≠ 0) :
    service.previousRoot epoch = (service.finalizedRandomness (epoch - 1)).getD service.config.genesisRoot := by
  unfold VRFService.previousRoot VRFService.previousEpoch
  rw [if_neg positive, sound.roots]
  cases service.finalizedRandomness (epoch - 1) with
  | some randomness => rfl
  | none =>
    rw [Option.none_or]
    split
    · rfl
    · rfl

theorem getCanonicalRandomness_finalized_iff {service : VRFService}
    (finalized : (service.finalizedRandomness epoch).isSome) :
    service.getCanonicalRandomness epoch = .ok randomness ↔ service.finalizedRandomness epoch = some randomness := by
  obtain ⟨own, held⟩ := Option.isSome_iff_exists.mp finalized
  rw [getCanonicalRandomness_own held, held]
  simp

theorem prevRoot_iff (positive : epoch ≠ 0)
    (part : before ++ [.finalizeEpoch epoch] <+: calls)
    (pending : (afterCalls blake3 config before).finalizedRandomness epoch = none)
    (now : ((afterCalls blake3 config (before ++ [.finalizeEpoch epoch])).finalizedRandomness epoch).isSome)
    (resists : Resists blake3 (afterCalls blake3 config calls)) :
    prevRoot (afterCalls blake3 config calls) epoch = some ((afterCalls blake3 config before).previousRoot epoch) ↔
      RootInOrder blake3 config calls epoch := by
  have within := (List.prefix_append before [VrfCall.finalizeEpoch epoch]).trans part
  have avoids := resists.genesis
  unfold prevRoot RootInOrder
  rw [(sound_after before).previousRoot positive, config_after, config_after]
  rw [config_after] at avoids
  have inTime (first : UInt64) := @finalizedBefore_iff blake3 config epoch before calls first part pending now
  split
  · next isFirst =>
    subst isFirst
    rw [inTime 0]
    show some config.genesisRoot = some (((afterCalls blake3 config before).finalizedRandomness 0).getD _) ↔ _
    cases known : (afterCalls blake3 config before).finalizedRandomness 0 with
    | none => simp
    | some randomness =>
      have final := finalizedRandomness_kept within known
      simp only [Option.getD_some, Option.some.injEq, Option.isSome_some, not_true, iff_false]
      intro same
      exact avoids 0 (by rw [final, same])
  · rw [inTime (epoch - 1)]
    cases known : (afterCalls blake3 config before).finalizedRandomness (epoch - 1) with
    | none => simpa using avoids (epoch - 1)
    | some randomness => simpa using finalizedRandomness_kept within known

theorem previousRoot_known (positive : epoch ≠ 0) (part : before <+: calls) :
    (afterCalls blake3 config before).previousRoot epoch = (afterCalls blake3 config calls).config.genesisRoot ∨
      ∃ earlier, (afterCalls blake3 config calls).finalizedRandomness earlier =
        some ((afterCalls blake3 config before).previousRoot epoch) := by
  rw [(sound_after before).previousRoot positive, config_after, config_after]
  cases known : (afterCalls blake3 config before).finalizedRandomness (epoch - 1) with
  | none => exact .inl rfl
  | some randomness => exact .inr ⟨epoch - 1, finalizedRandomness_kept part known⟩

theorem prevRoot_known {root : Bytes32} (found : prevRoot service epoch = some root) :
    root = service.config.genesisRoot ∨ ∃ earlier, service.finalizedRandomness earlier = some root := by
  unfold prevRoot at found
  split at found
  · exact .inl (Option.some.inj found).symm
  · exact .inr ⟨epoch - 1, found⟩

theorem mixedOnce_iff (positive : epoch ≠ 0)
    (finalizes : FinalizesAfterDeliveries blake3 config calls epoch)
    (resists : Resists blake3 (afterCalls blake3 config calls)) :
    MixedOnce blake3 (afterCalls blake3 config calls) epoch ↔
      RootInOrder blake3 config calls epoch ∧
        canceled blake3 (revealsOf (afterCalls blake3 config calls) epoch) = 0 := by
  obtain ⟨randomness, finalized⟩ := Option.isSome_iff_exists.mp finalizes.finalized
  obtain ⟨before, part, pending, now, reveals, mixed⟩ := finalized_at calls finalized
  have within := (List.prefix_append before [VrfCall.finalizeEpoch epoch]).trans part
  have someNow := Option.isSome_iff_exists.mpr ⟨randomness, now⟩
  rw [reveals.symm.trans (finalizes.complete _ part someNow).2] at mixed
  have sound : Sound blake3 (afterCalls blake3 config calls) := sound_after calls
  rw [← prevRoot_iff positive part pending someNow resists, ← asDelivered_eq_countedOnce_iff (sound.oneHashEach epoch)]
  have used : mixingInput ((afterCalls blake3 config before).previousRoot epoch)
      (asDelivered blake3 (revealsOf (afterCalls blake3 config calls) epoch)) ∈
      MixingInputs blake3 (afterCalls blake3 config calls) :=
    ⟨_, epoch, previousRoot_known positive within, finalizes.finalized, .inl rfl⟩
  constructor
  · rintro ⟨root, found, answer⟩
    rw [getCanonicalRandomness_finalized_iff finalizes.finalized, finalized, Option.some.injEq, mixed] at answer
    have same := resists.collisions _ used _
      ⟨root, epoch, prevRoot_known found, finalizes.finalized, .inr rfl⟩ answer
    obtain ⟨rootSame, combinedSame⟩ := mixingInput_injective same
    exact ⟨by rw [found, rootSame], combinedSame⟩
  · rintro ⟨found, once⟩
    refine ⟨_, found, ?_⟩
    rw [getCanonicalRandomness_finalized_iff finalizes.finalized, finalized, mixed, once]

end

section

variable {blake3 : List UInt8 → Bytes32} {config : VRFConfig} {calls calls' : List VrfCall} {epoch last : UInt64}

theorem epoch_before (positive : epoch ≠ 0) (notFirst : epoch ≠ 1) :
    epoch - 1 ≠ 0 ∧ (epoch - 1).toNat < epoch.toNat := by
  have one : (1 : UInt64) ≤ epoch := by
    rw [UInt64.le_iff_toNat_le]
    have zero : epoch.toNat ≠ 0 := fun same => positive (UInt64.toNat_inj.mp same)
    exact Nat.one_le_iff_ne_zero.mpr zero
  have less := UInt64.toNat_sub_of_le epoch 1 one
  have second : epoch.toNat ≠ 1 := fun same => notFirst (UInt64.toNat_inj.mp same)
  rw [UInt64.le_iff_toNat_le] at one
  have unit : (1 : UInt64).toNat = 1 := rfl
  rw [unit] at less one
  refine ⟨fun same => ?_, by omega⟩
  rw [same] at less
  have none : (0 : UInt64).toNat = 0 := rfl
  omega

structure Delivered (blake3 : List UInt8 → Bytes32) (config : VRFConfig) (calls calls' : List VrfCall)
    (last : UInt64) : Prop where
  same : ∀ epoch, epoch ≠ 0 → epoch ≤ last →
    SameDeliveries (afterCalls blake3 config calls) (afterCalls blake3 config calls') epoch
  finalizes : ∀ epoch, epoch ≠ 0 → epoch ≤ last → FinalizesAfterDeliveries blake3 config calls epoch
  finalizes' : ∀ epoch, epoch ≠ 0 → epoch ≤ last → FinalizesAfterDeliveries blake3 config calls' epoch

theorem countedOnce_delivered (delivered : Delivered blake3 config calls calls' last) (positive : epoch ≠ 0)
    (upTo : epoch ≤ last) :
    countedOnce blake3 (revealsOf (afterCalls blake3 config calls) epoch) =
      countedOnce blake3 (revealsOf (afterCalls blake3 config calls') epoch) :=
  countedOnce_congr ((sound_after calls).oneHashEach epoch) ((sound_after calls').oneHashEach epoch)
    (delivered.same epoch positive upTo).reveals

theorem prevRoot_agreed (delivered : Delivered blake3 config calls calls' last) (positive : epoch ≠ 0)
    (upTo : epoch ≤ last)
    (agreed : epoch ≠ 1 → (afterCalls blake3 config calls).getCanonicalRandomness (epoch - 1) =
      (afterCalls blake3 config calls').getCanonicalRandomness (epoch - 1)) :
    prevRoot (afterCalls blake3 config calls) epoch = prevRoot (afterCalls blake3 config calls') epoch := by
  unfold prevRoot
  rw [config_after, config_after]
  split
  · rfl
  · next notFirst =>
    obtain ⟨earlierPositive, earlier⟩ := epoch_before positive notFirst
    have earlierUpTo : epoch - 1 ≤ last := by
      rw [UInt64.le_iff_toNat_le] at upTo ⊢
      omega
    have final := (delivered.finalizes (epoch - 1) earlierPositive earlierUpTo).finalized
    have final' := (delivered.finalizes' (epoch - 1) earlierPositive earlierUpTo).finalized
    obtain ⟨randomness, held⟩ := Option.isSome_iff_exists.mp final
    have same := agreed notFirst
    rw [getCanonicalRandomness_own held] at same
    rw [held, (getCanonicalRandomness_finalized_iff final').mp same.symm]

theorem agreed_iff_mixedOnce (delivered : Delivered blake3 config calls calls' last) :
    (∀ epoch, epoch ≠ 0 → epoch ≤ last →
      Agreed blake3 (afterCalls blake3 config calls) (afterCalls blake3 config calls') epoch) ↔
    ∀ epoch, epoch ≠ 0 → epoch ≤ last → MixedOnce blake3 (afterCalls blake3 config calls) epoch ∧
      MixedOnce blake3 (afterCalls blake3 config calls') epoch := by
  constructor
  · intro agreed epoch positive upTo
    obtain ⟨same, root, found, answer⟩ := agreed epoch positive upTo
    refine ⟨⟨root, found, answer⟩, root, ?_, ?_⟩
    · rw [← found]
      symm
      apply prevRoot_agreed delivered positive upTo
      intro notFirst
      obtain ⟨earlierPositive, earlier⟩ := epoch_before positive notFirst
      refine (agreed (epoch - 1) earlierPositive ?_).1
      rw [UInt64.le_iff_toNat_le] at upTo ⊢
      omega
    · rw [← same, answer, countedOnce_delivered delivered positive upTo]
  · intro mixed epoch
    induction number : epoch.toNat using Nat.strong_induction_on generalizing epoch with
    | _ number ih =>
      intro positive upTo
      obtain ⟨⟨root, found, answer⟩, root', found', answer'⟩ := mixed epoch positive upTo
      have roots := prevRoot_agreed delivered positive upTo fun notFirst => by
        obtain ⟨earlierPositive, earlier⟩ := epoch_before positive notFirst
        refine (ih (epoch - 1).toNat (number ▸ earlier) (epoch - 1) rfl earlierPositive ?_).1
        rw [UInt64.le_iff_toNat_le] at upTo ⊢
        omega
      rw [found, found'] at roots
      cases roots
      refine ⟨?_, root, found, answer⟩
      rw [answer, answer', countedOnce_delivered delivered positive upTo]

/-- Two instances agree on all randomness, mixed once, exactly if both finalize the epochs in order and the commits
    revealed an even number of times cancel nothing. -/
theorem randomness_agrees_iff (blake3 : List UInt8 → Bytes32) (config : VRFConfig) (calls calls' : List VrfCall)
    (last : UInt64) (delivered : Delivered blake3 config calls calls' last)
    (resists : Resists blake3 (afterCalls blake3 config calls))
    (resists' : Resists blake3 (afterCalls blake3 config calls')) :
    (∀ epoch, epoch ≠ 0 → epoch ≤ last →
      Agreed blake3 (afterCalls blake3 config calls) (afterCalls blake3 config calls') epoch) ↔
    ∀ epoch, epoch ≠ 0 → epoch ≤ last →
      RootInOrder blake3 config calls epoch ∧ RootInOrder blake3 config calls' epoch ∧
        canceled blake3 (revealsOf (afterCalls blake3 config calls) epoch) = 0 ∧
        canceled blake3 (revealsOf (afterCalls blake3 config calls') epoch) = 0 := by
  rw [agreed_iff_mixedOnce delivered]
  have mixed (epoch : UInt64) (positive : epoch ≠ 0) (upTo : epoch ≤ last) :=
    mixedOnce_iff positive (delivered.finalizes epoch positive upTo) resists
  have mixed' (epoch : UInt64) (positive : epoch ≠ 0) (upTo : epoch ≤ last) :=
    mixedOnce_iff positive (delivered.finalizes' epoch positive upTo) resists'
  constructor
  · intro each epoch positive upTo
    obtain ⟨once, once'⟩ := each epoch positive upTo
    obtain ⟨inOrder, kept⟩ := (mixed epoch positive upTo).mp once
    obtain ⟨inOrder', kept'⟩ := (mixed' epoch positive upTo).mp once'
    exact ⟨inOrder, inOrder', kept, kept'⟩
  · intro each epoch positive upTo
    obtain ⟨inOrder, inOrder', kept, kept'⟩ := each epoch positive upTo
    exact ⟨(mixed epoch positive upTo).mpr ⟨inOrder, kept⟩, (mixed' epoch positive upTo).mpr ⟨inOrder', kept'⟩⟩

end

section

def revealedTimes (times : Nat) : List VrfCall :=
  [commitProof 1 1] ++ List.replicate times (revealProof 1 1) ++ [.finalizeEpoch 1]

theorem epoch_one {epoch : UInt64} (positive : epoch ≠ 0) (upTo : epoch ≤ 1) : epoch = 1 := by
  by_contra notFirst
  have earlier := (epoch_before positive notFirst).2
  have zero := (epoch_before positive notFirst).1
  rw [UInt64.le_iff_toNat_le] at upTo
  have unit : (1 : UInt64).toNat = 1 := rfl
  exact zero (UInt64.toNat_inj.mp (by rw [UInt64.toNat_zero]; omega))

theorem finalizes_sample
    (finalized : ((afterCalls sampledHash .default calls).finalizedRandomness 1).isSome)
    (complete : ∀ before ∈ calls.inits, ((afterCalls sampledHash .default before).finalizedRandomness 1).isSome →
      commitsOf (afterCalls sampledHash .default before) 1 = commitsOf (afterCalls sampledHash .default calls) 1 ∧
        revealsOf (afterCalls sampledHash .default before) 1 = revealsOf (afterCalls sampledHash .default calls) 1)
    (epoch : UInt64) (positive : epoch ≠ 0) (upTo : epoch ≤ 1) :
    FinalizesAfterDeliveries sampledHash .default calls epoch := by
  rw [epoch_one positive upTo]
  exact ⟨finalized, fun before part => complete before ((List.mem_inits before calls).mpr part)⟩

theorem same_sample {service service' : VRFService}
    (commits : (∀ commit ∈ commitsOf service 1, commit ∈ commitsOf service' 1) ∧
      ∀ commit ∈ commitsOf service' 1, commit ∈ commitsOf service 1)
    (reveals : (∀ reveal ∈ revealsOf service 1, reveal ∈ revealsOf service' 1) ∧
      ∀ reveal ∈ revealsOf service' 1, reveal ∈ revealsOf service 1)
    (epoch : UInt64) (positive : epoch ≠ 0) (upTo : epoch ≤ 1) : SameDeliveries service service' epoch := by
  rw [epoch_one positive upTo]
  exact ⟨fun commit => ⟨commits.1 commit, commits.2 commit⟩, fun reveal => ⟨reveals.1 reveal, reveals.2 reveal⟩⟩

theorem resists_sample (epochs : (afterCalls sampledHash .default calls).states.keys = [1])
    (finalized : (afterCalls sampledHash .default calls).finalizedRandomness 1 = some firstRandomness)
    (delivered : asDelivered sampledHash (revealsOf (afterCalls sampledHash .default calls) 1) = oneHash)
    (once : countedOnce sampledHash (revealsOf (afterCalls sampledHash .default calls) 1) = oneHash) :
    Resists sampledHash (afterCalls sampledHash .default calls) := by
  have only (epoch : UInt64) (randomness : Bytes32)
      (held : (afterCalls sampledHash .default calls).finalizedRandomness epoch = some randomness) :
      epoch = 1 ∧ randomness = firstRandomness := by
    have among : epoch ∈ (afterCalls sampledHash .default calls).states.keys := by
      rw [finalizedRandomness_eq] at held
      obtain ⟨state, lookup, -⟩ := Option.bind_eq_some_iff.mp held
      exact AList.mem_keys.mpr (AList.lookup_isSome.mp (Option.isSome_of_eq_some lookup))
    rw [epochs, List.mem_singleton] at among
    rw [among, finalized] at held
    exact ⟨among, (Option.some.inj held).symm⟩
  have inputs (input : List UInt8) (member : input ∈ MixingInputs sampledHash (afterCalls sampledHash .default calls)) :
      input = mixingInput (Bytes32.replicate 0) oneHash ∨ input = mixingInput firstRandomness oneHash := by
    obtain ⟨root, epoch, known, final, input⟩ := member
    obtain ⟨randomness, held⟩ := Option.isSome_iff_exists.mp final
    rw [(only epoch randomness held).1, delivered, once, or_self] at input
    rw [config_after] at known
    rcases known with genesis | ⟨earlier, held⟩
    · left
      rw [input, genesis]
      rfl
    · right
      rw [input, (only earlier root held).2]
  constructor
  · intro input member other among same
    rcases inputs input member with rfl | rfl
    · rcases inputs other among with rfl | rfl
      · rfl
      · revert same
        decide +kernel
    · rcases inputs other among with rfl | rfl
      · revert same
        decide +kernel
      · rfl
  · intro epoch held
    rw [config_after] at held
    have same := (only epoch _ held).2
    revert same
    decide +kernel

theorem inOrder_sample
    (never : ∀ before ∈ calls.inits, (afterCalls sampledHash .default before).finalizedRandomness 0 = none) :
    RootInOrder sampledHash .default calls 1 := by
  unfold RootInOrder
  rw [if_pos rfl]
  rintro ⟨before, part, final, -⟩
  rw [never before ((List.mem_inits before calls).mpr part)] at final
  cases final

theorem revealed_thrice_agrees :
    Agreed sampledHash (afterCalls sampledHash .default (revealedTimes 1))
      (afterCalls sampledHash .default (revealedTimes 3)) 1 := by
  apply (randomness_agrees_iff sampledHash .default (revealedTimes 1) (revealedTimes 3) 1 ?_ ?_ ?_).mpr _ 1 (by decide)
    (by decide)
  · exact ⟨same_sample (by decide +kernel) (by decide +kernel), finalizes_sample (by decide +kernel) (by decide +kernel),
      finalizes_sample (by decide +kernel) (by decide +kernel)⟩
  · exact resists_sample (by decide +kernel) (by decide +kernel) (by decide +kernel) (by decide +kernel)
  · exact resists_sample (by decide +kernel) (by decide +kernel) (by decide +kernel) (by decide +kernel)
  · intro epoch positive upTo
    rw [epoch_one positive upTo]
    exact ⟨inOrder_sample (by decide +kernel), inOrder_sample (by decide +kernel), by decide +kernel, by decide +kernel⟩

/-- A reveal that is delivered twice cancels itself. -/
theorem revealed_twice_disagrees :
    Delivered sampledHash .default (revealedTimes 1) (revealedTimes 2) 1 ∧
      ¬Agreed sampledHash (afterCalls sampledHash .default (revealedTimes 1))
        (afterCalls sampledHash .default (revealedTimes 2)) 1 := by
  constructor
  · exact ⟨same_sample (by decide +kernel) (by decide +kernel), finalizes_sample (by decide +kernel) (by decide +kernel),
      finalizes_sample (by decide +kernel) (by decide +kernel)⟩
  · intro agreed
    have same := agreed.1
    revert same
    decide +kernel

end

end AdicProof.Vrf
