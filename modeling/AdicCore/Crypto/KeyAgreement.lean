import AdicCore.Crypto.Dkg
import AdicCore.Library.Algebra

open AdicModel.Crypto AdicModel.Crypto.DKGCeremony AdicModel.Crypto.DKGNetwork HashMap

namespace AdicProof.Crypto

section

variable {F : Type} [Field F] [DecidableEq F] {n : Nat}

structure LawfulCodec (codec : KeyCodec F) : Prop where
  keySet : ∀ keySet, codec.decodeKeySet (codec.encodeKeySet keySet) = .ok keySet
  share : ∀ share, codec.decodeShare (codec.encodeShare share) = .ok share

variable {codec : KeyCodec F} {polynomials : Fin n → SecretKeySet F} {config : ThresholdConfig}

structure HonestCeremony (codec : KeyCodec F) (polynomials : Fin n → SecretKeySet F) (config : ThresholdConfig)
    (participant : Fin n) (ceremony : DKGCeremony F) : Prop where
  config : ceremony.config = config
  participantId : ceremony.participantId = participant
  polynomial : ceremony.state ≠ .initialized → ceremony.localPolynomial = some (polynomials participant)
  commitments : ∀ id commitment, ceremony.commitments.lookup id = some commitment →
    ∃ sender : Fin n, id = sender ∧ commitment = publicCommitment codec sender (polynomials sender)
  nonempty : ceremony.state = .exchangingShares ∨ ceremony.state = .verifying → pairs ceremony.commitments ≠ []

structure HonestNetwork (codec : KeyCodec F) (polynomials : Fin n → SecretKeySet F) (config : ThresholdConfig)
    (network : DKGNetwork F n) : Prop where
  ceremonies : ∀ participant, HonestCeremony codec polynomials config participant (network.ceremonies participant)
  commitmentOf : ∀ sender commitment, network.commitmentOf sender = some commitment →
    commitment = publicCommitment codec sender (polynomials sender)

section

variable {participant sender receiver : Fin n} {ceremony : DKGCeremony F} {network : DKGNetwork F n}
  {commitment : DKGCommitment}

omit [Field F] [DecidableEq F] in
theorem honest_begin (honest : HonestCeremony codec polynomials config participant ceremony)
    (positive : 0 < config.threshold) :
    HonestCeremony codec polynomials config participant
        (ceremony.start.generateCommitment codec (polynomials participant)).2 ∧
      (ceremony.start.generateCommitment codec (polynomials participant)).1 =
        .ok (publicCommitment codec participant (polynomials participant)) := by
  have enough : ceremony.config.threshold ≠ 0 := by
    rw [honest.config]
    exact positive.ne'
  unfold generateCommitment start
  dsimp only
  rw [if_neg (fun different => different rfl), if_neg enough]
  refine ⟨⟨honest.config, honest.participantId, fun _ => rfl, honest.commitments, ?_⟩, ?_⟩
  · rintro (phase | phase)
    · cases phase
    · cases phase
  · rw [honest.participantId]

omit [Field F] [DecidableEq F] in
theorem honest_addCommitment (honest : HonestCeremony codec polynomials config participant ceremony) :
    HonestCeremony codec polynomials config participant
      (ceremony.addCommitment (publicCommitment codec sender (polynomials sender))).2 := by
  unfold addCommitment
  split
  · exact honest
  next accepting =>
  have started : ceremony.state ≠ .initialized := by
    intro isInitial
    rw [isInitial] at accepting
    exact accepting ⟨nofun, nofun⟩
  refine ⟨honest.config, honest.participantId, fun _ => honest.polynomial started, fun id stored found => ?_, ?_⟩
  · have found' : (ceremony.commitments.insert (sender : Nat) (publicCommitment codec sender
        (polynomials sender))).lookup id = some stored := found
    rw [lookup_insert_eq] at found'
    split at found'
    next same =>
      cases found'
      exact ⟨sender, same, rfl⟩
    · exact honest.commitments id stored found'
  · intro _ empty
    have member : ((sender : Nat), publicCommitment codec sender (polynomials sender)) ∈
        pairs (ceremony.commitments.insert (sender : Nat) (publicCommitment codec sender (polynomials sender))) :=
      mem_pairs.mpr (AList.lookup_insert _)
    dsimp only [publicCommitment] at empty member
    rw [empty] at member
    cases member

theorem honest_addShare (honest : HonestCeremony codec polynomials config participant ceremony) (share : DKGShare) :
    HonestCeremony codec polynomials config participant (ceremony.addShare codec share).2 := by
  unfold addShare
  split
  · exact honest
  next accepting =>
  have phase : ceremony.state = .exchangingShares ∨ ceremony.state = .verifying := by
    by_contra neither
    exact accepting (not_or.mp neither)
  have started : ceremony.state ≠ .initialized := by
    rcases phase with phase | phase
    · rw [phase]
      exact nofun
    · rw [phase]
      exact nofun
  split
  · exact honest
  split
  · exact honest
  · exact ⟨honest.config, honest.participantId, fun _ => honest.polynomial started, honest.commitments,
      fun _ => honest.nonempty phase⟩

omit [DecidableEq F] in
theorem honest_finalize (honest : HonestCeremony codec polynomials config participant ceremony) (order : Order) :
    HonestCeremony codec polynomials config participant (ceremony.finalize codec order).2 := by
  unfold finalize
  split
  · exact honest
  next result isResult =>
  have started : ceremony.state ≠ .initialized := by
    intro isInitial
    unfold finalizeKeys at isResult
    rw [isInitial] at isResult
    cases isResult
  refine ⟨honest.config, honest.participantId, fun _ => honest.polynomial started, honest.commitments, ?_⟩
  rintro (phase | phase)
  · cases phase
  · cases phase

omit [Field F] [DecidableEq F] in
theorem HonestNetwork.update (honest : HonestNetwork codec polynomials config network)
    (kept : HonestCeremony codec polynomials config participant ceremony) :
    HonestNetwork codec polynomials config (network.update participant ceremony) where
  ceremonies := by
    intro other
    by_cases same : other = participant
    · subst same
      show HonestCeremony codec polynomials config other (Function.update network.ceremonies other ceremony other)
      rw [Function.update_self]
      exact kept
    · show HonestCeremony codec polynomials config other (Function.update network.ceremonies participant ceremony other)
      rw [Function.update_of_ne same]
      exact honest.ceremonies other
  commitmentOf := honest.commitmentOf

theorem honest_next (positive : 0 < config.threshold) (honest : HonestNetwork codec polynomials config network)
    (step : DKGStep n) : HonestNetwork codec polynomials config (network.next codec polynomials step) := by
  cases step with
  | begin participant =>
    show HonestNetwork codec polynomials config (network.beginCeremony codec (polynomials participant) participant)
    unfold beginCeremony
    obtain ⟨kept, sent⟩ := honest_begin (honest.ceremonies participant) positive
    split
    · split
      next error started isResult =>
        rw [isResult] at sent
        cases sent
      next commitment started isResult =>
        rw [isResult] at sent kept
        refine ⟨(honest.update kept).ceremonies, fun sender stored found => ?_⟩
        by_cases same : sender = participant
        · subst same
          have found' : Function.update network.commitmentOf sender (some commitment) sender = some stored := found
          rw [Function.update_self] at found'
          exact (Option.some.inj found').symm.trans (Except.ok.inj sent)
        · have found' : Function.update network.commitmentOf participant (some commitment) sender = some stored := found
          rw [Function.update_of_ne same] at found'
          exact honest.commitmentOf sender stored found'
    · exact honest
  | deliverCommitment sender receiver =>
    show HonestNetwork codec polynomials config (network.deliverCommitment sender receiver)
    unfold DKGNetwork.deliverCommitment
    split
    · exact honest
    next commitment sent =>
      rw [honest.commitmentOf sender commitment sent]
      exact honest.update (honest_addCommitment (honest.ceremonies receiver))
  | send participant =>
    show HonestNetwork codec polynomials config (network.send codec participant)
    unfold DKGNetwork.send
    split
    · exact honest
    · exact ⟨honest.ceremonies, honest.commitmentOf⟩
  | deliverShare sender receiver =>
    show HonestNetwork codec polynomials config (network.deliverShare codec sender receiver)
    unfold DKGNetwork.deliverShare
    split
    · exact honest
    next share _ => exact honest.update (honest_addShare (honest.ceremonies receiver) share)
  | finalize participant order => exact honest.update (honest_finalize (honest.ceremonies participant) order)

theorem honest_after (positive : 0 < config.threshold) (steps : List (DKGStep n)) :
    HonestNetwork codec polynomials config (after codec polynomials config steps) := by
  refine @Runs.invariant_of_kept _ _ (next codec polynomials) (DKGNetwork.new config)
    (HonestNetwork codec polynomials config) ⟨fun participant => ?_, ?_⟩
    (fun _ step honest => honest_next positive honest step) steps
  · refine ⟨rfl, rfl, fun started => absurd rfl started, ?_, ?_⟩
    · exact fun _ _ found => nomatch found
    · rintro (phase | phase)
      · cases phase
      · cases phase
  · exact fun _ _ found => nomatch found

end

def firstCommitter (order : Order) (ceremony : DKGCeremony F) : Option Nat :=
  (order.iterate (pairs ceremony.commitments)).head?.map Prod.fst

section

variable {participant : Fin n} {ceremony : DKGCeremony F} {order : Order}

omit [Field F] [DecidableEq F] in
theorem decode_publicCommitment (lawful : LawfulCodec codec) (sender : Nat) (keySet : SecretKeySet F) :
    decodeCommitment codec (publicCommitment codec sender keySet) = .ok keySet := by
  show (codec.decodeKeySet (codec.encodeKeySet keySet)).mapError DKGError.bls = .ok keySet
  rw [lawful.keySet]
  rfl

omit [Field F] [DecidableEq F] in
theorem mapM_decodeCommitment (lawful : LawfulCodec codec) (entries : List (Nat × DKGCommitment))
    (honest : ∀ entry ∈ entries, ∃ sender : Fin n, entry.2 = publicCommitment codec sender (polynomials sender)) :
    ∃ keySets, (entries.map Prod.snd).mapM (decodeCommitment codec) = .ok keySets := by
  induction entries with
  | nil => exact ⟨[], rfl⟩
  | cons entry entries ih =>
    obtain ⟨keySets, decoded⟩ := ih fun other listed => honest other (List.mem_cons_of_mem _ listed)
    obtain ⟨sender, isHonest⟩ := honest entry List.mem_cons_self
    refine ⟨polynomials sender :: keySets, ?_⟩
    rw [List.map_cons, List.mapM_cons, isHonest, decode_publicCommitment lawful, decoded]
    rfl

omit [DecidableEq F] in
theorem finalize_ok_iff (honest : HonestCeremony codec polynomials config participant ceremony)
    (lawful : LawfulCodec codec) {result : DKGResult F} :
    (ceremony.finalize codec order).1 = .ok result ↔ ceremony.state = .verifying ∧ ∃ sender : Fin n,
      firstCommitter order ceremony = some (sender : Nat) ∧
        result = ⟨keyShare (polynomials participant) participant, polynomials sender, participant⟩ := by
  by_cases phase : ceremony.state = .verifying
  · have drawn : ceremony.localPolynomial = some (polynomials participant) := honest.polynomial (phase ▸ nofun)
    have perm := order.perm (pairs ceremony.commitments)
    cases listed : order.iterate (pairs ceremony.commitments) with
    | nil =>
      rw [listed] at perm
      exact absurd perm.nil_eq.symm (honest.nonempty (.inr phase))
    | cons entry entries =>
      have members : ∀ other ∈ entry :: entries, ∃ sender : Fin n, other.1 = sender ∧
          other.2 = publicCommitment codec sender (polynomials sender) := by
        rintro ⟨id, commitment⟩ member
        rw [← listed] at member
        exact honest.commitments id commitment (mem_pairs.mp (perm.mem_iff.mp member))
      obtain ⟨sender, isFirst, isHonest⟩ := members entry List.mem_cons_self
      obtain ⟨keySets, decoded⟩ := mapM_decodeCommitment lawful entries fun other member => by
        obtain ⟨from', _, sent⟩ := members other (List.mem_cons_of_mem _ member)
        exact ⟨from', sent⟩
      have all : (ceremony.commitmentValues order).mapM (decodeCommitment codec) =
          .ok (polynomials sender :: keySets) := by
        unfold commitmentValues
        rw [listed, List.map_cons, List.mapM_cons, isHonest, decode_publicCommitment lawful, decoded]
        rfl
      have keys : ceremony.finalizeKeys codec order =
          .ok ⟨keyShare (polynomials participant) participant, polynomials sender, participant⟩ := by
        unfold finalizeKeys
        rw [if_neg (fun different => different phase), drawn, all, honest.participantId]
      have committer : firstCommitter order ceremony = some (sender : Nat) := by
        unfold firstCommitter
        rw [listed, List.head?_cons, Option.map_some, isFirst]
      unfold finalize
      rw [keys]
      constructor
      · intro returned
        exact ⟨phase, sender, committer, (Except.ok.inj returned).symm⟩
      · rintro ⟨-, other, isOther, rfl⟩
        rw [committer] at isOther
        rw [Fin.ext (Option.some.inj isOther)]
  · have refused : ceremony.finalizeKeys codec order = .error (dkgFailure "Cannot finalize in current state") := by
      unfold finalizeKeys
      rw [if_pos phase]
    unfold finalize
    rw [refused]
    constructor
    · intro returned
      cases returned
    · rintro ⟨isVerifying, _⟩
      exact absurd isVerifying phase

end

def Finalizes (codec : KeyCodec F) (polynomials : Fin n → SecretKeySet F) (config : ThresholdConfig)
    (steps : List (DKGStep n)) (participant sender : Fin n) : Prop :=
  ∃ before order, before ++ [.finalize participant order] <+: steps ∧
    ((after codec polynomials config before).ceremonies participant).state = .verifying ∧
      firstCommitter order ((after codec polynomials config before).ceremonies participant) = some (sender : Nat)

def Results (codec : KeyCodec F) (polynomials : Fin n → SecretKeySet F) (config : ThresholdConfig)
    (steps : List (DKGStep n)) (result : DKGResult F) : Prop :=
  ∃ before participant order, before ++ [.finalize participant order] <+: steps ∧
    (((after codec polynomials config before).ceremonies participant).finalize codec order).1 = .ok result

theorem results_iff (positive : 0 < config.threshold) (lawful : LawfulCodec codec) {steps : List (DKGStep n)}
    {result : DKGResult F} : Results codec polynomials config steps result ↔
      ∃ participant sender : Fin n, Finalizes codec polynomials config steps participant sender ∧
        result = ⟨keyShare (polynomials participant) participant, polynomials sender, participant⟩ := by
  constructor
  · rintro ⟨before, participant, order, part, returned⟩
    have honest : HonestCeremony codec polynomials config participant
        ((after codec polynomials config before).ceremonies participant) := (honest_after positive before).ceremonies _
    obtain ⟨phase, sender, committer, isResult⟩ := (finalize_ok_iff honest lawful).mp returned
    exact ⟨participant, sender, ⟨before, order, part, phase, committer⟩, isResult⟩
  · rintro ⟨participant, sender, ⟨before, order, part, phase, committer⟩, isResult⟩
    have honest : HonestCeremony codec polynomials config participant
        ((after codec polynomials config before).ceremonies participant) := (honest_after positive before).ceremonies _
    exact ⟨before, participant, order, part, (finalize_ok_iff honest lawful).mpr ⟨phase, sender, committer, isResult⟩⟩

/-- All that finalize have one public key set, and enough of their shares interpolate to the secret behind it. -/
structure OneKey (codec : KeyCodec F) (polynomials : Fin n → SecretKeySet F) (config : ThresholdConfig)
    (steps : List (DKGStep n)) : Prop where
  agree : ∀ first second, Results codec polynomials config steps first → Results codec polynomials config steps second →
    first.publicKeySet = second.publicKeySet
  usable : ∀ (points : Finset (Fin n)) (share : Fin n → F), points.card = config.threshold →
    (∀ participant ∈ points, ∃ result, Results codec polynomials config steps result ∧
      result.participantId = participant ∧ result.secretKeyShare = share participant) →
        ∀ result, Results codec polynomials config steps result →
          (Lagrange.interpolate points (fun participant => ((participant : Nat) : F) + 1) share).eval 0 =
            evaluate result.publicKeySet 0

/-- All that finalize come first on commitments of one polynomial, and their own, if enough, lie on one with that
    secret. -/
structure KeysMatch (codec : KeyCodec F) (polynomials : Fin n → SecretKeySet F) (config : ThresholdConfig)
    (steps : List (DKGStep n)) : Prop where
  first : ∀ participant other sender sender', Finalizes codec polynomials config steps participant sender →
    Finalizes codec polynomials config steps other sender' → polynomials sender = polynomials sender'
  joint : ∀ points : Finset (Fin n), points.card = config.threshold →
    (∀ participant ∈ points, ∃ sender, Finalizes codec polynomials config steps participant sender) →
      ∃ joint : Polynomial F, joint.degree < config.threshold ∧
        ∀ participant sender, Finalizes codec polynomials config steps participant sender →
          joint.eval 0 = evaluate (polynomials sender) 0 ∧
            joint.eval (((participant : Nat) : F) + 1) = keyShare (polynomials participant) participant

end

section

variable {p n : Nat} [Fact p.Prime] {codec : KeyCodec (ZMod p)} {config : ThresholdConfig}
  {polynomials : Fin n → SecretKeySet (ZMod p)} {steps : List (DKGStep n)}

theorem point_injective (small : n < p) :
    Function.Injective fun participant : Fin n => ((participant : Nat) : ZMod p) + 1 := by
  intro first second same
  have casts : (((first : Nat) : ZMod p)) = ((second : Nat) : ZMod p) := add_right_cancel same
  have values := congrArg ZMod.val casts
  rw [ZMod.val_natCast_of_lt (first.isLt.trans small), ZMod.val_natCast_of_lt (second.isLt.trans small)] at values
  exact Fin.ext values

theorem point_ne_zero (small : n < p) (participant : Fin n) : ((participant : Nat) : ZMod p) + 1 ≠ 0 := by
  intro isZero
  have cast : (((participant : Nat) + 1 : Nat) : ZMod p) = 0 := by
    push_cast
    exact isZero
  have bound : (participant : Nat) + 1 < p := lt_of_le_of_lt participant.isLt small
  have value := congrArg ZMod.val cast
  rw [ZMod.val_natCast_of_lt bound, ZMod.val_zero] at value
  omega

theorem admitted_positive (admitted : ThresholdConfig.new n config.threshold = .ok config) (someone : 0 < n) :
    0 < config.threshold := by
  unfold ThresholdConfig.new at admitted
  dsimp only at admitted
  split at admitted
  · cases admitted
  split at admitted
  · cases admitted
  · omega

theorem oneKey_match (positive : 0 < config.threshold) (lawful : LawfulCodec codec) (small : n < p)
    (oneKey : OneKey codec polynomials config steps) : KeysMatch codec polynomials config steps := by
  have agree : ∀ participant other sender sender', Finalizes codec polynomials config steps participant sender →
      Finalizes codec polynomials config steps other sender' → polynomials sender = polynomials sender' := by
    intro participant other sender sender' first second
    exact oneKey.agree _ _ ((results_iff positive lawful).mpr ⟨participant, sender, first, rfl⟩)
      ((results_iff positive lawful).mpr ⟨other, sender', second, rfl⟩)
  refine ⟨agree, fun points card finalize => ?_⟩
  classical
  obtain ⟨leader, isLeader⟩ := Finset.card_pos.mp (card ▸ positive)
  obtain ⟨source, leads⟩ := finalize leader isLeader
  let all : Finset (Fin n) :=
    Finset.univ.filter fun participant => ∃ sender, Finalizes codec polynomials config steps participant sender
  have member : ∀ participant, participant ∈ all ↔
      ∃ sender, Finalizes codec polynomials config steps participant sender := fun participant => by simp [all]
  have every : ∀ chosen ⊆ all, chosen.card = config.threshold →
      (Lagrange.interpolate chosen (fun participant : Fin n => ((participant : Nat) : ZMod p) + 1)
        fun participant => keyShare (polynomials participant) participant).eval 0 = evaluate (polynomials source) 0 := by
    intro chosen inside size
    refine oneKey.usable chosen _ size (fun participant listed => ?_) _
      ((results_iff positive lawful).mpr ⟨leader, source, leads, rfl⟩)
    obtain ⟨sender, finalizes⟩ := (member participant).mp (inside listed)
    exact ⟨_, (results_iff positive lawful).mpr ⟨participant, sender, finalizes, rfl⟩, rfl, rfl⟩
  have enough : config.threshold ≤ all.card := by
    rw [← card]
    exact Finset.card_le_card fun participant listed => (member participant).mpr (finalize participant listed)
  obtain ⟨joint, degree, secret, values⟩ := (Interpolation.interpolate_iff (point_injective small).injOn
    (fun participant _ => point_ne_zero small participant) positive).mp every enough
  refine ⟨joint, degree, fun participant sender finalizes => ⟨?_, ?_⟩⟩
  · rw [secret, agree leader participant source sender leads finalizes]
  · exact values participant ((member participant).mpr ⟨sender, finalizes⟩)

theorem match_oneKey (positive : 0 < config.threshold) (lawful : LawfulCodec codec) (small : n < p)
    (keysMatch : KeysMatch codec polynomials config steps) : OneKey codec polynomials config steps := by
  constructor
  · intro first second isFirst isSecond
    obtain ⟨participant, sender, finalizes, rfl⟩ := (results_iff positive lawful).mp isFirst
    obtain ⟨other, sender', finalizes', rfl⟩ := (results_iff positive lawful).mp isSecond
    exact keysMatch.first participant other sender sender' finalizes finalizes'
  · intro points share card shares result isResult
    obtain ⟨leader, source, leads, rfl⟩ := (results_iff positive lawful).mp isResult
    have finalizers : ∀ participant ∈ points, (∃ sender, Finalizes codec polynomials config steps participant sender) ∧
        share participant = keyShare (polynomials participant) participant := by
      intro participant listed
      obtain ⟨own, isOwn, id, isShare⟩ := shares participant listed
      obtain ⟨other, sender, finalizes, rfl⟩ := (results_iff positive lawful).mp isOwn
      have same : other = participant := Fin.ext id
      subst same
      exact ⟨⟨sender, finalizes⟩, isShare.symm⟩
    obtain ⟨joint, degree, lies⟩ := keysMatch.joint points card fun participant listed => (finalizers participant listed).1
    have interpolated : joint = Lagrange.interpolate points
        (fun participant : Fin n => ((participant : Nat) : ZMod p) + 1) share := by
      refine Lagrange.eq_interpolate_of_eval_eq share (point_injective small).injOn (card ▸ degree) ?_
      intro participant listed
      obtain ⟨⟨sender, finalizes⟩, isShare⟩ := finalizers participant listed
      rw [isShare]
      exact (lies participant sender finalizes).2
    rw [← interpolated]
    exact (lies leader source leads).1

end

/-- A key generation ends with one usable key exactly if the keys happen to match. -/
theorem oneKey_iff {p n : Nat} [Fact p.Prime] (codec : KeyCodec (ZMod p)) (lawful : LawfulCodec codec)
    (config : ThresholdConfig) (admitted : ThresholdConfig.new n config.threshold = .ok config) (small : n < p)
    (polynomials : Fin n → SecretKeySet (ZMod p)) (steps : List (DKGStep n)) :
    OneKey codec polynomials config steps ↔ KeysMatch codec polynomials config steps := by
  rcases Nat.eq_zero_or_pos n with rfl | someone
  · constructor
    · intro _
      refine ⟨fun participant => participant.elim0, fun points _ _ => ⟨0, ?_, fun participant => participant.elim0⟩⟩
      rw [Polynomial.degree_zero]
      exact WithBot.bot_lt_coe _
    · rintro _
      refine ⟨fun _ _ result => ?_, fun _ _ _ _ _ result => ?_⟩
      · obtain ⟨_, participant, _⟩ := result
        exact participant.elim0
      · obtain ⟨_, participant, _⟩ := result
        exact participant.elim0
  · have positive := admitted_positive admitted someone
    exact ⟨oneKey_match positive lawful small, match_oneKey positive lawful small⟩

section

def digitText (digits : List (ZMod 5)) : String := String.ofList (digits.map fun digit => Char.ofNat (48 + digit.val))

def textDigits (text : String) : List (ZMod 5) := text.toList.map fun letter => ((letter.toNat - 48 : Nat) : ZMod 5)

theorem textDigits_digitText (digits : List (ZMod 5)) : textDigits (digitText digits) = digits := by
  unfold textDigits digitText
  rw [String.toList_ofList, List.map_map]
  refine (List.map_congr_left fun digit _ => ?_).trans (List.map_id digits)
  have small : digit.val < 5 := ZMod.val_lt digit
  have isValid : (48 + digit.val).isValidChar := by
    left
    omega
  show (((Char.ofNat (48 + digit.val)).toNat - 48 : Nat) : ZMod 5) = digit
  rw [Char.toNat_ofNat, if_pos isValid, Nat.add_sub_cancel_left, ZMod.natCast_zmod_val]

def digitCodec : KeyCodec (ZMod 5) where
  encodeKeySet := digitText
  decodeKeySet text := .ok (textDigits text)
  encodeShare share := digitText [share]
  decodeShare text := .ok ((textDigits text).headD 0)

theorem digitCodec_lawful : LawfulCodec digitCodec where
  keySet keySet := congrArg Except.ok (textDigits_digitText keySet)
  share share := by
    show Except.ok ((textDigits (digitText [share])).headD 0) = _
    rw [textDigits_digitText]
    rfl

instance prime_five : Fact (Nat.Prime 5) := ⟨by decide⟩

def pairRun : List (DKGStep 2) :=
  [.begin 0, .begin 1, .deliverCommitment 0 0, .deliverCommitment 1 0, .deliverCommitment 0 1, .deliverCommitment 1 1,
    .send 0, .send 1, .deliverShare 1 0, .deliverShare 0 1, .finalize 0 .stored, .finalize 1 .reversed]

/-- Equal constant polynomials are one usable key. -/
theorem oneKey_iff_constant : OneKey digitCodec (fun _ => [1]) ⟨2, 1⟩ pairRun := by
  refine (oneKey_iff digitCodec digitCodec_lawful ⟨2, 1⟩ rfl (by decide) (fun _ => [1]) pairRun).mpr ⟨?_, ?_⟩
  · exact fun _ _ _ _ _ _ => rfl
  · intro _ _ _
    refine ⟨1, ?_, fun participant sender _ => ⟨?_, ?_⟩⟩
    · exact Polynomial.degree_one_le.trans_lt (by decide)
    · simp [evaluate]
    · simp [keyShare, evaluate]

/-- The two participants end with different public key sets. -/
theorem different_keys : ¬ OneKey digitCodec (fun participant => if participant = 0 then [1, 2] else [3, 4]) ⟨2, 2⟩
    pairRun := by
  intro oneKey
  have first : Results digitCodec (fun participant => if participant = 0 then [1, 2] else [3, 4]) ⟨2, 2⟩ pairRun
      ⟨3, [3, 4], 0⟩ := ⟨pairRun.take 10, 0, .stored, ⟨[.finalize 1 .reversed], rfl⟩, by decide +kernel⟩
  have second : Results digitCodec (fun participant => if participant = 0 then [1, 2] else [3, 4]) ⟨2, 2⟩ pairRun
      ⟨1, [1, 2], 1⟩ := ⟨pairRun.take 11, 1, .reversed, ⟨[], rfl⟩, by decide +kernel⟩
  exact absurd (oneKey.agree _ _ first second) (by decide)

end

end AdicProof.Crypto
