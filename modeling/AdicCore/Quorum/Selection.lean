import AdicCore.Challenges.Adjudication
import AdicCore.Pouw.CertificateSigning

open AdicModel.Economics AdicModel.Vrf

namespace AdicModel.Quorum

/-- Reputations are exact numbers. -/
structure NodeInfo where
  publicKey : PublicKey
  reputation : ℚ
  asn : Option UInt32
  region : Option String
  axisBalls : List (List UInt8)

structure QuorumConfig where
  minReputation : ℚ
  membersPerAxis : Nat
  totalSize : Nat
  maxPerAsn : Nat
  maxPerRegion : Nat
  domainSeparator : String
  numAxes : Nat

def QuorumConfig.eligible (config : QuorumConfig) (nodes : List NodeInfo) : List NodeInfo :=
  nodes.filter fun node => config.minReputation ≤ node.reputation

def QuorumConfig.default : QuorumConfig := ⟨50, 5, 15, 2, 3, "quorum_selection", 3⟩

inductive QuorumError where
  | insufficientNodes (needed available : Nat)
  | vrfError (error : VRFError)

structure DiversityCaps where
  maxPerAsn : Nat
  maxPerRegion : Nat

/-- Scores are compared from their first bytes. -/
def QuorumMember.score (member : QuorumMember) : List Nat := member.vrfScore.bytes.map UInt8.toNat

def sortByScore (members : List QuorumMember) : List QuorumMember :=
  Greedy.ranked (fun member => OrderDual.toDual member.score) members

/-- The maps count the members of the result by their ASN and by their region. -/
def CanAdd (caps : DiversityCaps) (result : List QuorumMember) (member : QuorumMember) : Prop :=
  (∀ asn ∈ member.asn, result.countP (fun other => other.asn = some asn) < caps.maxPerAsn) ∧
    ∀ region ∈ member.region, result.countP (fun other => other.region = some region) < caps.maxPerRegion

instance decidableCanAdd (caps : DiversityCaps) (result : List QuorumMember) (member : QuorumMember) :
    Decidable (CanAdd caps result member) := inferInstanceAs (Decidable (_ ∧ _))

def enforceDiversityCaps (members : List QuorumMember) (caps : DiversityCaps) : List QuorumMember :=
  Greedy.pick (CanAdd caps) [] (sortByScore members)

/-- The keys that were seen are those of the unique members. -/
def unique (members : List QuorumMember) : List QuorumMember :=
  Greedy.pick (fun unique member => member.publicKey ∉ unique.map QuorumMember.publicKey) [] members

section

variable (blake3 : List UInt8 → Bytes32) (randomness : Bytes32) (config : QuorumConfig)

def scoreInput (axis : Nat) (node : NodeInfo) : List UInt8 :=
  randomness.bytes ++ config.domainSeparator.toUTF8.toList ++ [0] ++ toLeBytes axis ++ node.publicKey.asBytes.bytes ++
    (node.axisBalls[axis]?).getD []

def memberOf (axis : Nat) (node : NodeInfo) : QuorumMember :=
  ⟨node.publicKey, node.reputation, blake3 (scoreInput randomness config axis node), axis, node.asn, node.region⟩

def selectForAxis (eligible : List NodeInfo) (axis : Nat) : List QuorumMember :=
  (sortByScore (eligible.map (memberOf blake3 randomness config axis))).take config.membersPerAxis

/-- The members of all axes, each with its first one. -/
def winners (eligible : List NodeInfo) : List QuorumMember :=
  unique ((List.range config.numAxes).flatMap (selectForAxis blake3 randomness config eligible))

end

/-- The randomness stays as it is during the call. -/
def selectCommittee (blake3 : List UInt8 → Bytes32) (vrfService : VRFService) (epoch : UInt64) (config : QuorumConfig)
    (eligibleNodes : List NodeInfo) : Except QuorumError QuorumResult :=
  let eligible := config.eligible eligibleNodes
  if eligible.isEmpty then .error (.insufficientNodes config.totalSize 0)
  else
    match vrfService.getCanonicalRandomness epoch with
    | .error error => .error (.vrfError error)
    | .ok randomness =>
      let cappedMembers := enforceDiversityCaps (winners blake3 randomness config eligible)
        ⟨config.maxPerAsn, config.maxPerRegion⟩
      let finalMembers := cappedMembers.take config.totalSize
      .ok ⟨finalMembers, finalMembers.length, (List.range config.numAxes).map fun axis =>
        (selectForAxis blake3 randomness config eligible axis).length⟩

end AdicModel.Quorum

open AdicModel AdicModel.Economics AdicModel.Vrf AdicModel.Quorum

namespace AdicProof.Quorum

variable {caps : DiversityCaps} {members : List QuorumMember}

theorem sortByScore_sorted : (sortByScore members).Pairwise fun first second => first.score ≤ second.score :=
  @Greedy.ranked_sorted _ _ _ (fun member => OrderDual.toDual member.score) members

theorem sortByScore_perm : (sortByScore members).Perm members := Greedy.ranked_perm

theorem countP_enforce_le {belongs : QuorumMember → Bool} {most : Nat}
    (capped : ∀ result member, CanAdd caps result member → belongs member = true → result.countP belongs < most) :
    (enforceDiversityCaps members caps).countP belongs ≤ most := by
  refine @Greedy.pick_induction _ _ _ _ _ (fun picked => picked.countP belongs ≤ most) (Nat.zero_le _) ?_
  intro picked member before fits
  rw [List.countP_append, List.countP_singleton]
  split
  · next same => exact capped picked member fits same
  · exact before

theorem canAdd_of_sublist {part : List QuorumMember} {member : QuorumMember} (fits : CanAdd caps members member)
    (sublist : part.Sublist members) : CanAdd caps part member :=
  ⟨fun asn same => sublist.countP_le.trans_lt (fits.1 asn same),
    fun region same => sublist.countP_le.trans_lt (fits.2 region same)⟩

/-- Nothing that is passed over before the last one that is taken still fits. -/
theorem not_canAdd_of_passed {size : Nat} {candidate member : QuorumMember} (listed : candidate ∈ members)
    (taken : member ∈ (enforceDiversityCaps members caps).take size) (later : candidate.score < member.score)
    (passed : candidate ∉ (enforceDiversityCaps members caps).take size) :
    ¬CanAdd caps ((enforceDiversityCaps members caps).take size) candidate := by
  intro free
  obtain ⟨before, after, split⟩ := List.append_of_mem (sortByScore_perm.mem_iff.mpr listed)
  have sorted := @sortByScore_sorted members
  rw [split] at sorted
  have enforced : enforceDiversityCaps members caps = Greedy.pick (CanAdd caps) [] (sortByScore members) := rfl
  rw [split, Greedy.pick_append] at enforced
  obtain ⟨picked, inside, same⟩ := @Greedy.pick_sublist _ (CanAdd caps) _ [] before
  rw [List.nil_append] at same
  -- what is picked up to the candidate comes first in the committee, since a member with a larger score follows it
  have early : ∀ part rest, enforceDiversityCaps members caps = part ++ rest →
      (∀ other ∈ part, other.score ≤ candidate.score) →
        part.Sublist ((enforceDiversityCaps members caps).take size) := by
    intro part rest whole small
    rw [whole] at taken ⊢
    rcases Nat.le_total size part.length with short | long
    · rw [List.take_append_of_le_length short] at taken
      exact absurd (small member (List.mem_of_mem_take taken)) (not_le.mpr later)
    · rw [List.take_append, List.take_of_length_le long]
      exact List.sublist_append_left _ _
  have small : ∀ other ∈ picked, other.score ≤ candidate.score := fun other found =>
    (List.pairwise_append.mp sorted).2.2 other (inside.subset found) candidate List.mem_cons_self
  rw [same, Greedy.pick] at enforced
  obtain ⟨rest, -, tail⟩ := @Greedy.pick_sublist _ (CanAdd caps) _ picked after
  obtain ⟨rest', -, tail'⟩ := @Greedy.pick_sublist _ (CanAdd caps) _ (picked ++ [candidate]) after
  by_cases fits : CanAdd caps picked candidate
  · rw [if_pos fits, tail'] at enforced
    refine passed ((early _ _ enforced fun other found => ?_).subset List.mem_concat_self)
    rcases List.mem_append.mp found with earlier | last
    · exact small other earlier
    · exact (congrArg QuorumMember.score (List.mem_singleton.mp last)).le
  · rw [if_neg fits, tail] at enforced
    exact fits (canAdd_of_sublist free (early _ _ enforced small))

section

variable {blake3 : List UInt8 → Bytes32} {randomness : Bytes32} {config : QuorumConfig}
  {nodes reordered : List NodeInfo} {axis : Nat}

/-- No two nodes of an axis have the same score. -/
def Scored (blake3 : List UInt8 → Bytes32) (randomness : Bytes32) (config : QuorumConfig) (nodes : List NodeInfo) :
    Prop :=
  ∀ axis, Set.InjOn blake3 {input | ∃ node ∈ nodes, input = scoreInput randomness config axis node}

theorem Scored.eligible (scored : Scored blake3 randomness config nodes) :
    Scored blake3 randomness config (config.eligible nodes) := by
  refine fun axis => (scored axis).mono ?_
  rintro input ⟨node, listed, rfl⟩
  exact ⟨node, List.mem_of_mem_filter listed, rfl⟩

theorem scoreInput_injective (distinct : (nodes.map NodeInfo.publicKey).Nodup) {first second : NodeInfo}
    (listed : first ∈ nodes) (listed' : second ∈ nodes)
    (same : scoreInput randomness config axis first = scoreInput randomness config axis second) : first = second := by
  unfold scoreInput at same
  rw [List.append_assoc, List.append_assoc _ second.publicKey.asBytes.bytes] at same
  have keys := (List.append_inj (List.append_cancel_left same)
    (first.publicKey.asBytes.size.trans second.publicKey.asBytes.size.symm)).1
  exact List.inj_on_of_nodup_map distinct listed listed' (Pouw.keyBytes_injective keys)

theorem selectForAxis_eq_of_perm (distinct : (nodes.map NodeInfo.publicKey).Nodup)
    (scored : Scored blake3 randomness config nodes) (same : reordered.Perm nodes) :
    selectForAxis blake3 randomness config reordered axis = selectForAxis blake3 randomness config nodes axis := by
  unfold selectForAxis sortByScore
  rw [Greedy.ranked_eq_of_perm ?_ (same.map _)]
  intro first member second member' scores
  obtain ⟨node, listed, rfl⟩ := List.mem_map.mp member
  obtain ⟨node', listed', rfl⟩ := List.mem_map.mp member'
  have bytes := List.map_injective_iff.mpr (fun _ _ => UInt8.toNat_inj.mp) (OrderDual.toDual_inj.mp scores)
  have inputs := scored axis ⟨node, listed, rfl⟩ ⟨node', listed', rfl⟩ (Pouw.bytes_injective bytes)
  rw [scoreInput_injective distinct listed listed' inputs]

theorem nodup_winners : ((winners blake3 randomness config nodes).map QuorumMember.publicKey).Nodup := by
  refine @Greedy.pick_induction _ _ _ _ _ (fun picked => (picked.map QuorumMember.publicKey).Nodup) List.nodup_nil ?_
  intro picked member nodup fresh
  rw [List.map_append, List.map_singleton, ← List.concat_eq_append]
  exact nodup.concat fresh

theorem mem_winners {member : QuorumMember} (listed : member ∈ winners blake3 randomness config nodes) :
    ∃ axis < config.numAxes, ∃ node ∈ nodes, member = memberOf blake3 randomness config axis node := by
  obtain ⟨chosen, part, same⟩ := @Greedy.pick_sublist _
    (fun unique (member : QuorumMember) => member.publicKey ∉ unique.map QuorumMember.publicKey) _ []
    ((List.range config.numAxes).flatMap (selectForAxis blake3 randomness config nodes))
  unfold winners unique at listed
  rw [same, List.nil_append] at listed
  obtain ⟨axis, inside, selected⟩ := List.mem_flatMap.mp (part.subset listed)
  obtain ⟨node, member, rfl⟩ := List.mem_map.mp (sortByScore_perm.mem_iff.mp (List.mem_of_mem_take selected))
  exact ⟨axis, List.mem_range.mp inside, node, member, rfl⟩

theorem enforce_sublist : (enforceDiversityCaps members caps).Sublist (sortByScore members) := by
  obtain ⟨chosen, part, same⟩ := @Greedy.pick_sublist _ (CanAdd caps) _ [] (sortByScore members)
  unfold enforceDiversityCaps
  rw [same]
  exact part

/-- A committee is made of the winners of the axes as far as the caps allow, those with the smallest scores first. -/
structure Proper (config : QuorumConfig) (nodes : List NodeInfo) (winners members : List QuorumMember) : Prop where
  distinct : (members.map QuorumMember.publicKey).Nodup
  few : members.length ≤ config.totalSize
  drawn : ∀ member ∈ members, member ∈ winners ∧ ∃ node ∈ nodes, node.publicKey = member.publicKey ∧
    node.reputation = member.reputation ∧ config.minReputation ≤ node.reputation
  asns : ∀ asn, members.countP (fun member => member.asn = some asn) ≤ config.maxPerAsn
  regions : ∀ region, members.countP (fun member => member.region = some region) ≤ config.maxPerRegion
  passed : ∀ candidate ∈ winners, ∀ member ∈ members, candidate.score < member.score → candidate ∉ members →
    ¬CanAdd ⟨config.maxPerAsn, config.maxPerRegion⟩ members candidate

theorem winners_proper : Proper config nodes (winners blake3 randomness config (config.eligible nodes))
    ((enforceDiversityCaps (winners blake3 randomness config (config.eligible nodes))
      ⟨config.maxPerAsn, config.maxPerRegion⟩).take config.totalSize) := by
  have part := (List.take_sublist config.totalSize _).trans (@enforce_sublist
    ⟨config.maxPerAsn, config.maxPerRegion⟩ (winners blake3 randomness config (config.eligible nodes)))
  refine ⟨?_, List.length_take_le _ _, fun member taken => ?_, fun asn => ?_, fun region => ?_, ?_⟩
  · exact ((sortByScore_perm.map _).nodup_iff.mpr nodup_winners).sublist (part.map _)
  · have won := sortByScore_perm.mem_iff.mp (part.subset taken)
    obtain ⟨axis, -, node, listed, rfl⟩ := mem_winners won
    obtain ⟨inside, enough⟩ := List.mem_filter.mp listed
    exact ⟨won, node, inside, rfl, rfl, of_decide_eq_true enough⟩
  · refine (List.take_sublist _ _).countP_le.trans (countP_enforce_le fun _ _ fits same => ?_)
    exact fits.1 asn (of_decide_eq_true same)
  · refine (List.take_sublist _ _).countP_le.trans (countP_enforce_le fun _ _ fits same => ?_)
    exact fits.2 region (of_decide_eq_true same)
  · intro candidate won member taken later passed
    exact not_canAdd_of_passed won taken later passed

/-- The committee is proper, and does not depend on the order of the nodes. -/
theorem committee_selection (vrfService : VRFService) (epoch : UInt64) (config : QuorumConfig) (nodes : List NodeInfo) :
    ((nodes.map NodeInfo.publicKey).Nodup → (∀ randomness, vrfService.getCanonicalRandomness epoch = .ok randomness →
      Scored blake3 randomness config nodes) → ∀ reordered, reordered.Perm nodes →
      selectCommittee blake3 vrfService epoch config reordered = selectCommittee blake3 vrfService epoch config nodes) ∧
    ∀ result, selectCommittee blake3 vrfService epoch config nodes = .ok result → ∃ randomness,
      vrfService.getCanonicalRandomness epoch = .ok randomness ∧
        Proper config nodes (winners blake3 randomness config (config.eligible nodes)) result.members := by
  constructor
  · intro distinct scored reordered same
    have filtered : (config.eligible reordered).Perm (config.eligible nodes) := same.filter _
    unfold selectCommittee
    dsimp only
    rw [filtered.isEmpty_eq]
    split
    · rfl
    · split
      · rfl
      · next randomness found =>
        have axes : selectForAxis blake3 randomness config (config.eligible reordered) =
            selectForAxis blake3 randomness config (config.eligible nodes) := funext fun axis =>
          selectForAxis_eq_of_perm (distinct.sublist (List.filter_sublist.map _)) (scored _ found).eligible filtered
        unfold winners
        rw [axes]
  · intro result selected
    unfold selectCommittee at selected
    dsimp only at selected
    split at selected
    · cases selected
    · split at selected
      · cases selected
      · next randomness found =>
        cases selected
        exact ⟨randomness, found, winners_proper⟩

end

def lastByte (bytes : List UInt8) : Bytes32 := .replicate (bytes.getLastD 0)

def node (byte : UInt8) : NodeInfo := ⟨⟨.replicate byte⟩, 60, some 1, none, []⟩

def finalizedService : VRFService :=
  { VRFService.new .default with
    states := (∅ : HashMap.Table UInt64 VRFState).insert 1 ((VRFState.new 1).finalize (.replicate 9)) }

theorem scored_nodes {randomness : Bytes32} : Scored lastByte randomness .default [node 1, node 2] := by
  have last : ∀ axis byte, lastByte (scoreInput randomness .default axis (node byte)) = .replicate byte := by
    intro axis byte
    refine congrArg Bytes32.replicate ?_
    show (_ ++ List.replicate 32 byte ++ []).getLastD 0 = byte
    rw [List.append_nil, List.replicate_succ', ← List.append_assoc, List.getLastD_concat]
  rintro axis _ ⟨first, listed, rfl⟩ _ ⟨second, listed', rfl⟩ same
  rw [List.mem_pair] at listed listed'
  rcases listed with rfl | rfl <;> rcases listed' with rfl | rfl
  · rfl
  · rw [last, last] at same
    cases same
  · rw [last, last] at same
    cases same
  · rfl

theorem committee_selection_pair :
    (∀ reordered, reordered.Perm [node 1, node 2] → selectCommittee lastByte finalizedService 1 .default reordered =
      selectCommittee lastByte finalizedService 1 .default [node 1, node 2]) ∧
    ∀ result, selectCommittee lastByte finalizedService 1 .default [node 1, node 2] = .ok result → ∃ randomness,
      finalizedService.getCanonicalRandomness 1 = .ok randomness ∧ Proper .default [node 1, node 2]
        (winners lastByte randomness .default (QuorumConfig.default.eligible [node 1, node 2])) result.members :=
  (committee_selection finalizedService 1 .default [node 1, node 2]).imp_left fun free =>
    free (by decide) fun _ _ => scored_nodes

end AdicProof.Quorum
