import AdicCore.Crypto.KeyAgreement

open AdicModel.Crypto AdicModel.Crypto.DKGCeremony HashMap

namespace AdicProof.Crypto

section

variable {F : Type} [Field F] [DecidableEq F]

def Matches (codec : KeyCodec F) (own : Nat) (commitment : DKGCommitment) (share : DKGShare) : Prop :=
  ∃ keySet, decodeCommitment codec commitment = .ok keySet ∧
    codec.decodeShare share.pubKeyShareHex = .ok (keyShare keySet own)

def AllCommitted (n : Nat) (ceremony : DKGCeremony F) : Prop :=
  ∀ id < n, ∃ commitment, ceremony.commitments.lookup id = some commitment

/-- Accepted commitments are a participant's, and repeat the stored one once all are stored. Shares are of others. -/
def Proper (codec : KeyCodec F) (own n : Nat) (ceremony : DKGCeremony F) : DKGCall F → Prop
  | .addCommitment commitment => ceremony.state = .collectingCommitments ∨ ceremony.state = .exchangingShares →
    commitment.participantId < n ∧
      (AllCommitted n ceremony → ceremony.commitments.lookup commitment.participantId = some commitment)
  | .addShare share => ceremony.state = .exchangingShares ∨ ceremony.state = .verifying → share.toId = own →
    ceremony.verifyShare codec share = .ok () → share.fromId ≠ own
  | _ => True

structure Guarded (codec : KeyCodec F) (own n : Nat) (ceremony : DKGCeremony F) : Prop where
  participantId : ceremony.participantId = own
  total : ceremony.config.totalParticipants = n
  committers : ∀ id commitment, ceremony.commitments.lookup id = some commitment → id < n
  shares : ∀ sender share, ceremony.receivedShares.lookup sender = some share → sender ≠ own ∧
    AllCommitted n ceremony ∧ ∃ commitment, ceremony.commitments.lookup sender = some commitment ∧
      Matches codec own commitment share
  exchanging : ceremony.state = .exchangingShares ∨ ceremony.state = .verifying → AllCommitted n ceremony
  verifying : ceremony.state = .verifying → ∀ sender < n, sender ≠ own →
    ∃ share, ceremony.receivedShares.lookup sender = some share

section

variable {codec : KeyCodec F} {own n : Nat} {ceremony : DKGCeremony F} {commitment : DKGCommitment}
  {share : DKGShare}

theorem lookup_addCommitment (proper : Proper codec own n ceremony (.addCommitment commitment))
    (all : AllCommitted n ceremony) (id : Nat) :
    (ceremony.addCommitment commitment).2.commitments.lookup id = ceremony.commitments.lookup id := by
  unfold addCommitment
  split
  · rfl
  next accepting =>
  have phase : ceremony.state = .collectingCommitments ∨ ceremony.state = .exchangingShares := by
    by_contra neither
    exact accepting (not_or.mp neither)
  show (ceremony.commitments.insert commitment.participantId commitment).lookup id = _
  rw [lookup_insert_eq]
  split
  next same =>
    rw [same]
    exact ((proper phase).2 all).symm
  · rfl

theorem guarded_addCommitment (guarded : Guarded codec own n ceremony)
    (proper : Proper codec own n ceremony (.addCommitment commitment)) :
    Guarded codec own n (ceremony.addCommitment commitment).2 := by
  have kept := lookup_addCommitment proper
  unfold addCommitment at kept ⊢
  split
  · exact guarded
  next accepting =>
  rw [if_neg accepting] at kept
  have phase : ceremony.state = .collectingCommitments ∨ ceremony.state = .exchangingShares := by
    by_contra neither
    exact accepting (not_or.mp neither)
  have lookup := lookup_insert_eq ceremony.commitments commitment.participantId
  have grows : AllCommitted n ceremony → ∀ id < n, ∃ stored,
      (ceremony.commitments.insert commitment.participantId commitment).lookup id = some stored := by
    intro all id inside
    rw [kept all id]
    exact all id inside
  have committers : ∀ id stored, (ceremony.commitments.insert commitment.participantId commitment).lookup id =
      some stored → id < n := by
    intro id stored found
    rw [lookup] at found
    split at found
    next same =>
      rw [same]
      exact (proper phase).1
    · exact guarded.committers id stored found
  refine ⟨guarded.participantId, guarded.total, committers, fun sender share received => ?_, fun exchanging => ?_,
    fun verifying => ?_⟩
  · obtain ⟨different, all, stored, found, isMatch⟩ := guarded.shares sender share received
    exact ⟨different, grows all, stored, (kept all sender).trans found, isMatch⟩
  · by_cases full : (pairs (ceremony.commitments.insert commitment.participantId commitment)).length = n
    · intro id inside
      refine @lookup_of_full _ _ _ _ (Finset.range n) (fun key stored found => ?_) ?_ id (Finset.mem_range.mpr inside)
      · exact Finset.mem_range.mpr (committers key stored found)
      · rw [Finset.card_range, full]
    · have unchanged : ceremony.state = .exchangingShares ∨ ceremony.state = .verifying := by
        dsimp only at exchanging
        rw [guarded.total, if_neg full] at exchanging
        exact exchanging
      exact grows (guarded.exchanging unchanged)
  · dsimp only at verifying
    split at verifying
    · cases verifying
    · exact guarded.verifying verifying

theorem verifyShare_ok (participant : ceremony.participantId = own)
    (verified : ceremony.verifyShare codec share = .ok ()) :
    ∃ commitment, ceremony.commitments.lookup share.fromId = some commitment ∧
      Matches codec own commitment share := by
  unfold verifyShare at verified
  split at verified
  · cases verified
  next commitment found =>
    split at verified
    · cases verified
    next keySet decoded =>
      split at verified
      · cases verified
      next received isReceived =>
        split at verified
        · cases verified
        next same =>
          rw [not_not, participant] at same
          exact ⟨commitment, found, keySet, decoded, same ▸ isReceived⟩

theorem guarded_addShare (guarded : Guarded codec own n ceremony)
    (inside : own < n) (proper : Proper codec own n ceremony (.addShare share)) :
    Guarded codec own n (ceremony.addShare codec share).2 := by
  unfold addShare
  split
  · exact guarded
  next accepting =>
  have phase : ceremony.state = .exchangingShares ∨ ceremony.state = .verifying := by
    by_contra neither
    exact accepting (not_or.mp neither)
  split
  · exact guarded
  next intended =>
  have toUs : share.toId = own := by
    rw [← guarded.participantId]
    exact not_not.mp intended
  split
  · exact guarded
  next _ verified =>
  have foreign := proper phase toUs verified
  obtain ⟨commitment, found, isMatch⟩ := verifyShare_ok guarded.participantId verified
  have lookup := lookup_insert_eq ceremony.receivedShares share.fromId
  have all := guarded.exchanging phase
  have shares : ∀ sender stored, (ceremony.receivedShares.insert share.fromId share).lookup sender = some stored →
      sender ≠ own ∧ ∃ commitment, ceremony.commitments.lookup sender = some commitment ∧
        Matches codec own commitment stored := by
    intro sender stored received
    rw [lookup] at received
    split at received
    next same =>
      cases received
      rw [same]
      exact ⟨foreign, commitment, found, isMatch⟩
    · obtain ⟨different, _, isStored⟩ := guarded.shares sender stored received
      exact ⟨different, isStored⟩
  refine ⟨guarded.participantId, guarded.total, guarded.committers, fun sender stored received => ?_, fun _ => all,
    fun verifying sender below different => ?_⟩
  · obtain ⟨different, isStored⟩ := shares sender stored received
    exact ⟨different, all, isStored⟩
  · by_cases full : (pairs (ceremony.receivedShares.insert share.fromId share)).length = n - 1
    · refine @lookup_of_full _ _ _ _ ((Finset.range n).erase own) (fun key stored received => ?_) ?_ sender ?_
      · obtain ⟨notOwn, isCommitment, stored', _⟩ := shares key stored received
        exact Finset.mem_erase.mpr ⟨notOwn, Finset.mem_range.mpr (guarded.committers key isCommitment stored')⟩
      · rw [Finset.card_erase_of_mem (Finset.mem_range.mpr inside), Finset.card_range, full]
      · exact Finset.mem_erase.mpr ⟨different, Finset.mem_range.mpr below⟩
    · have before : ceremony.state = .verifying := by
        dsimp only at verifying
        rw [guarded.total, if_neg full] at verifying
        exact verifying
      obtain ⟨stored, received⟩ := guarded.verifying before sender below different
      show ∃ share', (ceremony.receivedShares.insert share.fromId share).lookup sender = some share'
      rw [lookup]
      split
      · exact ⟨share, rfl⟩
      · exact ⟨stored, received⟩

theorem guarded_next (inside : own < n) (guarded : Guarded codec own n ceremony) (call : DKGCall F)
    (proper : Proper codec own n ceremony call) : Guarded codec own n (call.next codec ceremony) := by
  cases call with
  | start =>
    refine ⟨guarded.participantId, guarded.total, guarded.committers, guarded.shares, ?_, ?_⟩
    · rintro (phase | phase)
      · cases phase
      · cases phase
    · intro phase
      cases phase
  | generateCommitment drawn =>
    unfold DKGCall.next generateCommitment
    dsimp only
    split
    · exact guarded
    split
    · exact guarded
    · exact ⟨guarded.participantId, guarded.total, guarded.committers, guarded.shares, guarded.exchanging,
        guarded.verifying⟩
  | addCommitment commitment => exact guarded_addCommitment guarded proper
  | generateShares => exact guarded
  | addShare share => exact guarded_addShare guarded inside proper
  | finalize order =>
    unfold DKGCall.next finalize
    dsimp only
    split
    · exact guarded
    · refine ⟨guarded.participantId, guarded.total, guarded.committers, guarded.shares, ?_, ?_⟩
      · rintro (phase | phase)
        · cases phase
        · cases phase
      · intro phase
        cases phase

theorem lookup_next (all : AllCommitted n ceremony) (call : DKGCall F) (proper : Proper codec own n ceremony call)
    (id : Nat) : (call.next codec ceremony).commitments.lookup id = ceremony.commitments.lookup id := by
  cases call with
  | start => rfl
  | generateCommitment drawn =>
    unfold DKGCall.next generateCommitment
    dsimp only
    split
    · rfl
    split
    · rfl
    · rfl
  | addCommitment commitment => exact lookup_addCommitment proper all id
  | generateShares => rfl
  | addShare share =>
    unfold DKGCall.next addShare
    dsimp only
    split
    · rfl
    split
    · rfl
    split
    · rfl
    · rfl
  | finalize order =>
    unfold DKGCall.next finalize
    dsimp only
    split
    · rfl
    · rfl

end

variable (codec : KeyCodec F) (config : ThresholdConfig) (own : Nat)

def ceremonyAfter (calls : List (DKGCall F)) : DKGCeremony F :=
  Runs.after (DKGCall.next codec) (DKGCeremony.new config own) calls

/-- Commitments stay from the exchange of shares on, and a final ceremony has a matching share of every other
    participant. -/
structure StaysVerified (calls : List (DKGCall F)) : Prop where
  frozen : ∀ before between, before ++ between <+: calls →
    (ceremonyAfter codec config own before).state = .exchangingShares →
      ∀ id, (ceremonyAfter codec config own (before ++ between)).commitments.lookup id =
        (ceremonyAfter codec config own before).commitments.lookup id
  counted : ∀ before, before <+: calls → ∀ id,
    ((ceremonyAfter codec config own before).commitments.lookup id).isSome ∨
      ((ceremonyAfter codec config own before).receivedShares.lookup id).isSome → id < config.totalParticipants
  complete : ∀ before order result, before ++ [.finalize order] <+: calls →
    ((ceremonyAfter codec config own before).finalize codec order).1 = .ok result →
      ∀ id < config.totalParticipants, id ≠ own → ∃ share commitment,
        (ceremonyAfter codec config own before).receivedShares.lookup id = some share ∧
          (ceremonyAfter codec config own before).commitments.lookup id = some commitment ∧
            Matches codec own commitment share

variable {codec config own}

/-- No run of proper calls undoes a verification. -/
theorem proper_stays_verified (inside : own < config.totalParticipants) (calls : List (DKGCall F))
    (proper : ∀ before call, before ++ [call] <+: calls →
      Proper codec own config.totalParticipants (ceremonyAfter codec config own before) call) :
    StaysVerified codec config own calls := by
  have initially : Guarded codec own config.totalParticipants (DKGCeremony.new config own : DKGCeremony F) := by
    refine ⟨rfl, rfl, fun _ _ found => (nomatch found), fun _ _ found => (nomatch found), ?_, ?_⟩
    · rintro (phase | phase)
      · cases phase
      · cases phase
    · intro phase
      cases phase
  have guarded : ∀ before, before <+: calls →
      Guarded codec own config.totalParticipants (ceremonyAfter codec config own before) :=
    Runs.invariant_of_conditions initially (fun _ call holds allowed => guarded_next inside holds call allowed) proper
  refine ⟨fun before between part exchanging id => ?_, fun before part id stored => ?_, ?_⟩
  · have all := (guarded before ((List.prefix_append before between).trans part)).exchanging (.inl exchanging)
    have kept : ∀ id, (ceremonyAfter codec config own (before ++ between)).commitments.lookup id =
        (ceremonyAfter codec config own before).commitments.lookup id := by
      induction between using List.reverseRecOn with
      | nil =>
        rw [List.append_nil]
        exact fun _ => rfl
      | append_singleton between call ih =>
        rw [← List.append_assoc] at part ⊢
        have same := ih ((List.prefix_append _ [call]).trans part)
        have still : AllCommitted config.totalParticipants (ceremonyAfter codec config own (before ++ between)) := by
          intro id below
          rw [same id]
          exact all id below
        intro id
        have step := lookup_next still call (proper (before ++ between) call part) id
        have next : ceremonyAfter codec config own (before ++ between ++ [call]) =
            call.next codec (ceremonyAfter codec config own (before ++ between)) := Runs.after_snoc _ call
        rw [next, step, same id]
    exact kept id
  · rcases stored with stored | stored
    · obtain ⟨commitment, found⟩ := Option.isSome_iff_exists.mp stored
      exact (guarded before part).committers id commitment found
    · obtain ⟨share, received⟩ := Option.isSome_iff_exists.mp stored
      obtain ⟨_, _, commitment, found, _⟩ := (guarded before part).shares id share received
      exact (guarded before part).committers id commitment found
  · intro before order result part finalized id below different
    have holds := guarded before ((List.prefix_append before [_]).trans part)
    have verifying : (ceremonyAfter codec config own before).state = .verifying := by
      by_contra notYet
      unfold finalize finalizeKeys at finalized
      rw [if_pos notYet] at finalized
      cases finalized
    obtain ⟨share, received⟩ := holds.verifying verifying id below different
    obtain ⟨_, _, commitment, found, isMatch⟩ := holds.shares id share received
    exact ⟨share, commitment, received, found, isMatch⟩

end

section

def committedCalls : List (DKGCall (ZMod 5)) :=
  [.start, .generateCommitment [1, 2], .addCommitment (publicCommitment digitCodec 0 [1, 2]),
    .addCommitment (publicCommitment digitCodec 1 [3, 4])]

def shareFrom (sender : Nat) (keySet : List (ZMod 5)) : List (DKGCall (ZMod 5)) :=
  [.addShare (shareFor digitCodec keySet sender 0), .finalize .stored]

theorem proper_stays_verified_pair :
    StaysVerified digitCodec ⟨2, 2⟩ 0 (committedCalls ++ shareFrom 1 [3, 4]) := by
  refine proper_stays_verified (by decide) _ ?_
  unfold committedCalls shareFrom
  simp only [List.cons_append, List.nil_append]
  rw [Runs.forall_steps_cons, Runs.forall_steps_cons, Runs.forall_steps_cons, Runs.forall_steps_cons,
    Runs.forall_steps_cons, Runs.forall_steps_cons]
  refine ⟨trivial, trivial, fun _ => ⟨by decide, fun all => ?_⟩, fun _ => ⟨by decide, fun all => ?_⟩,
    fun _ _ _ => by decide, trivial, Runs.forall_steps_nil⟩
  · obtain ⟨commitment, found⟩ := all 0 (by decide)
    cases found
  · obtain ⟨commitment, found⟩ := all 1 (by decide)
    cases found

/-- A share that participant 0 receives under its own name takes the place of the share of the other one. -/
theorem own_share_counted : ¬ StaysVerified digitCodec ⟨2, 2⟩ 0 (committedCalls ++ shareFrom 0 [1, 2]) := by
  intro verified
  have finalized : ((ceremonyAfter digitCodec ⟨2, 2⟩ 0
      (committedCalls ++ [.addShare (shareFor digitCodec [1, 2] 0 0)])).finalize digitCodec .stored).1 =
        .ok ⟨3, [3, 4], 0⟩ := by
    decide +kernel
  obtain ⟨share, _, received, _⟩ := verified.complete _ _ _ List.prefix_rfl finalized 1 (by decide) (by decide)
  have missing : (ceremonyAfter digitCodec ⟨2, 2⟩ 0
      (committedCalls ++ [.addShare (shareFor digitCodec [1, 2] 0 0)])).receivedShares.lookup 1 = none := by
    decide +kernel
  rw [missing] at received
  cases received

end

end AdicProof.Crypto
