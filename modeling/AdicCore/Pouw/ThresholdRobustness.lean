import AdicCore.Pouw.ThresholdSigning

open AdicModel AdicModel.Crypto AdicModel.Pouw AdicModel.Pouw.BLSCoordinator HashMap

namespace AdicProof.Pouw

section

variable {PublicKeySet Signature SignatureShare : Type} {crypto : ThresholdCrypto PublicKeySet Signature SignatureShare}
  {keySet : PublicKeySet} {threshold : Nat}

theorem IdealScheme.positive (scheme : IdealScheme crypto keySet threshold) : 0 < threshold := by
  rcases Nat.eq_zero_or_pos threshold with isZero | positive
  · have combined : ∀ message, crypto.combineSignatures keySet [] = .ok (scheme.signature message) := fun message =>
      scheme.combines message [] isZero.symm List.nodup_nil fun _ listed => absurd listed List.not_mem_nil
    have same : scheme.signature [] = scheme.signature [0] := Except.ok.inj ((combined []).symm.trans (combined [0]))
    have verified : crypto.verify keySet (scheme.signature []) [0] = true := by
      rw [same]
      exact (scheme.verify_iff [0] [0]).mpr rfl
    exact absurd ((scheme.verify_iff [] [0]).mp verified) (List.cons_ne_nil 0 []).symm
  · exact positive

structure Ready (scheme : IdealScheme crypto keySet threshold) (coordinator : BLSCoordinator PublicKeySet) : Prop where
  configured : coordinator.publicKeySet = some keySet
  isThreshold : coordinator.config.threshold = threshold
  collects : ∀ requestId session, coordinator.sessions.lookup requestId = some session → Collects scheme session

/-- No session is replaced once it holds a share, and its threshold is met by valid shares of distinct participants. -/
def Careful (scheme : IdealScheme crypto keySet threshold) (coordinator : BLSCoordinator PublicKeySet) :
    SigningCall → Prop
  | .initiate _ requestId _ _ committeeMembers => coordinator.config.threshold ≤ committeeMembers.length →
    ∀ session, coordinator.sessions.lookup requestId = some session → session.completed = false →
      ∀ signer, session.shares.lookup signer = none
  | .submit _ now requestId signer share =>
    ∀ session, coordinator.sessions.lookup requestId = some session → Takes session now signer →
      session.request.threshold ≤ (pairs (withShare session signer share).shares).length →
        Combinable scheme (withShare session signer share)
  | .get _ _ => True

section

variable {scheme : IdealScheme crypto keySet threshold} {session : CollectionSession} {order : Order}
  {coordinator : BLSCoordinator PublicKeySet} {now : Nat} {requestId : SigningRequestId} {signer : PublicKey}
  {share : BLSSignatureShare} {message dst : List UInt8} {committeeMembers : List PublicKey}

theorem Ready.keep (ready : Ready scheme coordinator) (collects : Collects scheme session) :
    Ready scheme (keep coordinator requestId session) where
  configured := ready.configured
  isThreshold := ready.isThreshold
  collects := by
    intro other stored found
    have found' : (coordinator.sessions.insert requestId session).lookup other = some stored := found
    rw [lookup_insert_eq] at found'
    split at found'
    · rw [← Option.some.inj found']
      exact collects
    · exact ready.collects other stored found'

inductive Submits (scheme : IdealScheme crypto keySet threshold) (coordinator : BLSCoordinator PublicKeySet)
    (order : Order) (now : Nat) (requestId : SigningRequestId) (signer : PublicKey) (share : BLSSignatureShare) : Prop
  | refused (untaken : ∀ session, coordinator.sessions.lookup requestId = some session → ¬ Takes session now signer)
      (next : (SigningCall.submit order now requestId signer share).next crypto coordinator = coordinator)
      (returned : (SigningCall.submit order now requestId signer share).returned crypto coordinator = none)
  | stored (session : CollectionSession) (found : coordinator.sessions.lookup requestId = some session)
      (takes : Takes session now signer) (collects : Collects scheme (withShare session signer share))
      (next : (SigningCall.submit order now requestId signer share).next crypto coordinator =
        keep coordinator requestId (withShare session signer share))
      (returned : (SigningCall.submit order now requestId signer share).returned crypto coordinator = none)
  | aggregated (session : CollectionSession) (signature : BLSSignature)
      (found : coordinator.sessions.lookup requestId = some session) (takes : Takes session now signer)
      (collects : Collects scheme { withShare session signer share with completed := true })
      (next : (SigningCall.submit order now requestId signer share).next crypto coordinator =
        keep coordinator requestId { withShare session signer share with completed := true })
      (returned : (SigningCall.submit order now requestId signer share).returned crypto coordinator =
        some (requestId, signature))
      (valid : ValidSignature crypto keySet (signedMessage session.request) signature)

theorem submits (ready : Ready scheme coordinator)
    (careful : Careful scheme coordinator (.submit order now requestId signer share)) :
    Submits scheme coordinator order now requestId signer share := by
  cases found : coordinator.sessions.lookup requestId with
  | none =>
    refine .refused (fun session stored => ?_) ?_ ?_
    · rw [found] at stored
      cases stored
    · simp only [SigningCall.next, submitShare_missing found]
    · simp only [SigningCall.returned, submitShare_missing found]
  | some session =>
    have collects := ready.collects requestId session found
    by_cases takes : Takes session now signer
    · have counted : (pairs (withShare session signer share).shares).length = (pairs session.shares).length + 1 :=
        length_pairs_insert takes.2.2.2 share
      have below := collects.collecting takes.1
      by_cases reached : session.request.threshold ≤ (pairs (withShare session signer share).shares).length
      · have combinable := careful session found takes reached
        have full : (pairs (withShare session signer share).shares).length = threshold := by
          rw [collects.isThreshold] at reached
          omega
        obtain ⟨signature, combined, valid⟩ := aggregate_full order combinable full ready.configured
        have result := submitShare_reached found takes reached combined
        refine .aggregated session signature found takes ⟨collects.isThreshold, ?_, ?_, ?_⟩ ?_ ?_ valid
        · exact fun open' => nomatch open'
        · exact fun _ => full
        · exact fun _ => ⟨combinable.valid, combinable.distinct⟩
        · simp only [SigningCall.next, result]
        · simp only [SigningCall.returned, result]
      · have result : coordinator.submitShare crypto order now requestId signer share =
            (.ok none, keep coordinator requestId (withShare session signer share)) :=
          submitShare_below found takes (not_le.mp reached)
        refine .stored session found takes ⟨collects.isThreshold, ?_, ?_, ?_⟩ ?_ ?_
        · intro _
          rw [← collects.isThreshold]
          exact not_le.mp reached
        · exact fun completed => absurd (completed.symm.trans takes.1) Bool.noConfusion
        · exact fun completed => absurd (completed.symm.trans takes.1) Bool.noConfusion
        · simp only [SigningCall.next, result]
        · simp only [SigningCall.returned, result]
    · have refused : (∀ signature, (coordinator.submitShare crypto order now requestId signer share).1 ≠
          .ok (some signature)) ∧ (coordinator.submitShare crypto order now requestId signer share).2 = coordinator :=
        submitShare_refused found takes
      refine .refused (fun other stored => ?_) refused.2 ?_
      · rw [found] at stored
        rw [← Option.some.inj stored]
        exact takes
      · simp only [SigningCall.returned]
        split
        next signature isSignature => exact absurd isSignature (refused.1 signature)
        · rfl

theorem ready_next (ready : Ready scheme coordinator) (call : SigningCall) (careful : Careful scheme coordinator call) :
    Ready scheme (call.next crypto coordinator) := by
  cases call with
  | initiate now requestId message dst committeeMembers =>
    unfold SigningCall.next initiateSigning
    dsimp only
    split
    · exact ready
    · refine ready.keep ⟨ready.isThreshold, fun _ => ?_, ?_, ?_⟩
      · exact scheme.positive
      · exact fun completed => nomatch completed
      · exact fun completed => nomatch completed
  | submit order now requestId signer share =>
    cases submits ready careful with
    | refused _ next _ =>
      rw [next]
      exact ready
    | stored session _ _ collects next _ =>
      rw [next]
      exact ready.keep collects
    | aggregated session _ _ _ collects next _ _ =>
      rw [next]
      exact ready.keep collects
  | get order requestId => exact ready

end

variable (crypto) in
def coordinatorAfter (start : BLSCoordinator PublicKeySet) (calls : List SigningCall) : BLSCoordinator PublicKeySet :=
  Runs.after (SigningCall.next crypto) start calls

variable (crypto keySet) in
def Returned (start : BLSCoordinator PublicKeySet) (calls : List SigningCall) (requestId : SigningRequestId)
    (message : List UInt8) : Prop :=
  ∃ before call signature, before ++ [call] <+: calls ∧
    call.returned crypto (coordinatorAfter crypto start before) = some (requestId, signature) ∧
      ValidSignature crypto keySet message signature

def Submitted (scheme : IdealScheme crypto keySet threshold) (start : BLSCoordinator PublicKeySet)
    (calls : List SigningCall) (requestId : SigningRequestId) (message : List UInt8) (signer : PublicKey) : Prop :=
  ∃ before order now share session, before ++ [.submit order now requestId signer share] <+: calls ∧
    (coordinatorAfter crypto start before).sessions.lookup requestId = some session ∧
      signedMessage session.request = message ∧ now ≤ session.request.deadline ∧
        signer ∈ session.request.committeeMembers ∧ scheme.ValidShare session.request share

/-- Every signature is valid, and is returned once as many valid shares as the threshold are submitted. -/
structure SoundAndRobust (scheme : IdealScheme crypto keySet threshold) (start : BLSCoordinator PublicKeySet)
    (calls : List SigningCall) : Prop where
  sound : ∀ before call requestId signature, before ++ [call] <+: calls →
    call.returned crypto (coordinatorAfter crypto start before) = some (requestId, signature) →
      ∃ session, (coordinatorAfter crypto start before).sessions.lookup requestId = some session ∧
        ValidSignature crypto keySet (signedMessage session.request) signature
  robust : ∀ before requestId message (members : Finset PublicKey), before <+: calls → threshold ≤ members.card →
    (∀ member ∈ members, Submitted scheme start before requestId message member) →
      Returned crypto keySet start before requestId message

section

variable {scheme : IdealScheme crypto keySet threshold} {start : BLSCoordinator PublicKeySet}
  {before calls : List SigningCall} {call : SigningCall} {requestId : SigningRequestId} {message : List UInt8}
  {signer : PublicKey}

theorem Returned.snoc (returned : Returned crypto keySet start before requestId message) (call : SigningCall) :
    Returned crypto keySet start (before ++ [call]) requestId message := by
  obtain ⟨earlier, last, signature, part, result, valid⟩ := returned
  exact ⟨earlier, last, signature, part.trans (List.prefix_append before [call]), result, valid⟩

theorem submitted_snoc (submitted : Submitted scheme start (before ++ [call]) requestId message signer) :
    Submitted scheme start before requestId message signer ∨
      ∃ order now share session, call = .submit order now requestId signer share ∧
        (coordinatorAfter crypto start before).sessions.lookup requestId = some session ∧
          signedMessage session.request = message ∧ now ≤ session.request.deadline ∧
            signer ∈ session.request.committeeMembers := by
  obtain ⟨earlier, order, now, share, session, part, found, signs, early, member, valid⟩ := submitted
  rcases List.prefix_concat_iff.mp part with whole | part
  · obtain ⟨rfl, rest⟩ := List.append_inj' whole rfl
    cases rest
    exact .inr ⟨order, now, share, session, rfl, found, signs, early, member⟩
  · exact .inl ⟨earlier, order, now, share, session, part, found, signs, early, member, valid⟩

def Accounted (crypto : ThresholdCrypto PublicKeySet Signature SignatureShare) (keySet : PublicKeySet)
    (start : BLSCoordinator PublicKeySet) (before : List SigningCall) (requestId : SigningRequestId)
    (message : List UInt8) (signer : PublicKey) : Prop :=
  Returned crypto keySet start before requestId message ∨
    ∃ session share, (coordinatorAfter crypto start before).sessions.lookup requestId = some session ∧
      signedMessage session.request = message ∧ session.shares.lookup signer = some share

structure Recorded (scheme : IdealScheme crypto keySet threshold) (start : BLSCoordinator PublicKeySet)
    (before : List SigningCall) : Prop where
  completed : ∀ requestId session, (coordinatorAfter crypto start before).sessions.lookup requestId = some session →
    session.completed = true → Returned crypto keySet start before requestId (signedMessage session.request)
  submitted : ∀ requestId message signer, Submitted scheme start before requestId message signer →
    Accounted crypto keySet start before requestId message signer

theorem after_snoc : coordinatorAfter crypto start (before ++ [call]) =
    call.next crypto (coordinatorAfter crypto start before) := Runs.after_snoc before call

theorem Recorded.replace {replaced : SigningRequestId} {session : CollectionSession}
    (recorded : Recorded scheme start before)
    (next : call.next crypto (coordinatorAfter crypto start before) =
      keep (coordinatorAfter crypto start before) replaced session)
    (completed : session.completed = true →
      Returned crypto keySet start (before ++ [call]) replaced (signedMessage session.request))
    (stays : ∀ message signer, Accounted crypto keySet start before replaced message signer →
      Accounted crypto keySet start (before ++ [call]) replaced message signer)
    (new : ∀ order now requestId signer share, call = .submit order now requestId signer share →
      requestId = replaced ∧ (∃ share, session.shares.lookup signer = some share) ∧
        ∀ earlier, (coordinatorAfter crypto start before).sessions.lookup requestId = some earlier →
          signedMessage session.request = signedMessage earlier.request) :
    Recorded scheme start (before ++ [call]) := by
  have lookup : ∀ other, (coordinatorAfter crypto start (before ++ [call])).sessions.lookup other =
      if other = replaced then some session else (coordinatorAfter crypto start before).sessions.lookup other := by
    intro other
    rw [after_snoc, next]
    exact lookup_insert_eq _ _ _ _
  refine ⟨fun other stored found isCompleted => ?_, fun other message signer submitted => ?_⟩
  · rw [lookup] at found
    split at found
    next same =>
      cases found
      subst same
      exact completed isCompleted
    next different => exact (recorded.completed other stored found isCompleted).snoc call
  · rcases submitted_snoc submitted with earlier | ⟨order, now, share, earlier, isCall, found, signs, _⟩
    · have accounted := recorded.submitted other message signer earlier
      by_cases same : other = replaced
      · subst same
        exact stays message signer accounted
      · rcases accounted with returned | ⟨stored, share, found, signs, has⟩
        · exact .inl (returned.snoc call)
        · exact .inr ⟨stored, share, by rw [lookup, if_neg same, found], signs, has⟩
    · obtain ⟨same, ⟨stored, has⟩, agrees⟩ := new order now other signer share isCall
      exact .inr ⟨session, stored, by rw [lookup, if_pos same], (agrees earlier found).trans signs, has⟩

theorem Recorded.unchanged (recorded : Recorded scheme start before)
    (next : call.next crypto (coordinatorAfter crypto start before) = coordinatorAfter crypto start before)
    (new : ∀ order now requestId signer share session, call = .submit order now requestId signer share →
      (coordinatorAfter crypto start before).sessions.lookup requestId = some session →
        now ≤ session.request.deadline → signer ∈ session.request.committeeMembers →
          session.completed = true ∨ ∃ share, session.shares.lookup signer = some share) :
    Recorded scheme start (before ++ [call]) := by
  have same : coordinatorAfter crypto start (before ++ [call]) = coordinatorAfter crypto start before :=
    after_snoc.trans next
  refine ⟨fun other stored found isCompleted => ?_, fun other message signer submitted => ?_⟩
  · rw [same] at found
    exact (recorded.completed other stored found isCompleted).snoc call
  · rcases submitted_snoc submitted with earlier | ⟨order, now, share, session, isCall, found, signs, early, member⟩
    · rcases recorded.submitted other message signer earlier with returned | ⟨stored, share, found, signs, has⟩
      · exact .inl (returned.snoc call)
      · exact .inr ⟨stored, share, by rw [same, found], signs, has⟩
    · rcases new order now other signer share session isCall found early member with isCompleted | ⟨stored, has⟩
      · exact .inl (signs ▸ (recorded.completed other session found isCompleted).snoc call)
      · exact .inr ⟨session, stored, by rw [same, found], signs, has⟩

theorem recorded_next (ready : Ready scheme (coordinatorAfter crypto start before))
    (recorded : Recorded scheme start before) (call : SigningCall)
    (careful : Careful scheme (coordinatorAfter crypto start before) call) :
    Recorded scheme start (before ++ [call]) := by
  cases call with
  | initiate now requestId bytes dst committeeMembers =>
    by_cases small : committeeMembers.length < (coordinatorAfter crypto start before).config.threshold
    · refine recorded.unchanged ?_ fun _ _ _ _ _ _ isCall => nomatch isCall
      simp only [SigningCall.next, initiateSigning, if_pos small]
    · refine recorded.replace (by simp only [SigningCall.next, initiateSigning, if_neg small]; rfl) ?_ ?_
        fun _ _ _ _ _ isCall => nomatch isCall
      · exact fun completed => nomatch completed
      · rintro message signer (returned | ⟨session, share, found, signs, has⟩)
        · exact .inl (returned.snoc _)
        · cases isCompleted : session.completed with
          | true => exact .inl (signs ▸ (recorded.completed requestId session found isCompleted).snoc _)
          | false =>
            rw [careful (not_lt.mp small) session found isCompleted signer] at has
            cases has
  | submit order now requestId signer share =>
    cases submits ready careful with
    | refused untaken next _ =>
      refine recorded.unchanged next ?_
      intro order' now' requestId' signer' share' session isCall found early member
      cases isCall
      have notTaken := untaken session found
      cases isCompleted : session.completed with
      | true => exact .inl rfl
      | false =>
        right
        by_contra none
        refine notTaken ⟨isCompleted, early, member, ?_⟩
        exact Option.eq_none_iff_forall_ne_some.mpr fun stored has => none ⟨stored, has⟩
    | stored session found takes _ next _ =>
      refine recorded.replace next (fun completed => absurd (completed.symm.trans takes.1) Bool.noConfusion) ?_ ?_
      · rintro message other (returned | ⟨earlier, kept, found', signs, has⟩)
        · exact .inl (returned.snoc _)
        · rw [found] at found'
          cases found'
          have lookup : (coordinatorAfter crypto start (before ++ [.submit order now requestId signer share])).sessions.lookup
              requestId = some (withShare session signer share) := by
            rw [after_snoc, next]
            exact AList.lookup_insert _
          by_cases same : other = signer
          · exact .inr ⟨_, share, lookup, signs, by rw [same]; exact AList.lookup_insert _⟩
          · exact .inr ⟨_, kept, lookup, signs, (AList.lookup_insert_ne same).trans has⟩
      · intro order' now' requestId' signer' share' isCall
        cases isCall
        refine ⟨rfl, ⟨share, AList.lookup_insert _⟩, fun earlier found' => ?_⟩
        rw [found] at found'
        cases found'
        rfl
    | aggregated session signature found takes _ next returned valid =>
      have now' : Returned crypto keySet start (before ++ [.submit order now requestId signer share]) requestId
          (signedMessage session.request) := ⟨before, _, signature, List.prefix_rfl, returned, valid⟩
      refine recorded.replace next (fun _ => now') ?_ ?_
      · rintro message other (returned | ⟨earlier, kept, found', signs, has⟩)
        · exact .inl (returned.snoc _)
        · rw [found] at found'
          cases found'
          exact .inl (signs ▸ now')
      · intro order' now'' requestId' signer' share' isCall
        cases isCall
        refine ⟨rfl, ⟨share, AList.lookup_insert _⟩, fun earlier found' => ?_⟩
        rw [found] at found'
        cases found'
        rfl
  | get order requestId => exact recorded.unchanged rfl fun _ _ _ _ _ _ isCall => nomatch isCall

theorem returned_valid {coordinator : BLSCoordinator PublicKeySet} {signature : BLSSignature}
    (ready : Ready scheme coordinator) (careful : Careful scheme coordinator call)
    (returned : call.returned crypto coordinator = some (requestId, signature)) :
    ∃ session, coordinator.sessions.lookup requestId = some session ∧
      ValidSignature crypto keySet (signedMessage session.request) signature := by
  cases call with
  | initiate now requestId bytes dst committeeMembers => cases returned
  | submit order now requestId' signer share =>
    cases submits ready careful with
    | refused _ _ none =>
      rw [none] at returned
      cases returned
    | stored _ _ _ _ _ none =>
      rw [none] at returned
      cases returned
    | aggregated session result found _ _ _ result_eq valid =>
      rw [result_eq] at returned
      cases returned
      exact ⟨session, found, valid⟩
  | get order requestId' =>
    cases found : coordinator.sessions.lookup requestId' with
    | none =>
      simp only [SigningCall.returned, getAggregatedSignature, found] at returned
      cases returned
    | some session =>
      have collects := ready.collects requestId' session found
      cases completed : session.completed with
      | false =>
        simp only [SigningCall.returned, getAggregatedSignature, found, completed, Bool.false_eq_true, if_false]
          at returned
        cases returned
      | true =>
        obtain ⟨result, combined, valid⟩ := aggregate_full order (collects.combinable completed)
          (collects.full completed) ready.configured
        simp only [SigningCall.returned, getAggregatedSignature, found, completed, if_true, combined, Except.map]
          at returned
        cases returned
        exact ⟨session, found, valid⟩

variable {config : BLSCoordinatorConfig}

theorem ready_start (scheme : IdealScheme crypto keySet config.threshold) :
    Ready scheme ((BLSCoordinator.new config).setPublicKeySet keySet) where
  configured := rfl
  isThreshold := rfl
  collects := fun _ _ found => nomatch found

theorem recorded_start (scheme : IdealScheme crypto keySet config.threshold) :
    Recorded scheme ((BLSCoordinator.new config).setPublicKeySet keySet) [] where
  completed := fun _ _ found => nomatch found
  submitted := by
    rintro requestId message signer ⟨before, _, _, _, _, part, _⟩
    simp at part

theorem Recorded.robust {members : Finset PublicKey} (ready : Ready scheme (coordinatorAfter crypto start before))
    (recorded : Recorded scheme start before) (enough : threshold ≤ members.card)
    (submitted : ∀ member ∈ members, Submitted scheme start before requestId message member) :
    Returned crypto keySet start before requestId message := by
  by_contra unreturned
  have kept : ∀ member ∈ members, ∃ session share,
      (coordinatorAfter crypto start before).sessions.lookup requestId = some session ∧
        signedMessage session.request = message ∧ session.shares.lookup member = some share := fun member listed =>
    (recorded.submitted requestId message member (submitted member listed)).resolve_left unreturned
  obtain ⟨first, listed⟩ := Finset.card_pos.mp (lt_of_lt_of_le scheme.positive enough)
  obtain ⟨session, _, found, signs, _⟩ := kept first listed
  have many : members.card ≤ (pairs session.shares).length := by
    refine card_le_length_pairs fun member listed => ?_
    obtain ⟨other, share, found', _, has⟩ := kept member listed
    rw [found] at found'
    cases found'
    exact ⟨share, has⟩
  cases isCompleted : session.completed with
  | true => exact unreturned (signs ▸ recorded.completed requestId session found isCompleted)
  | false =>
    have few := (ready.collects requestId session found).collecting isCompleted
    omega

/-- Threshold signing is sound and robust in every run whose calls are careful. -/
theorem signing_sound_and_robust (config : BLSCoordinatorConfig) (scheme : IdealScheme crypto keySet config.threshold)
    (calls : List SigningCall)
    (careful : ∀ before call, before ++ [call] <+: calls →
      Careful scheme (coordinatorAfter crypto ((BLSCoordinator.new config).setPublicKeySet keySet) before) call) :
    SoundAndRobust scheme ((BLSCoordinator.new config).setPublicKeySet keySet) calls := by
  have invariant : ∀ before, before <+: calls →
      Ready scheme (coordinatorAfter crypto ((BLSCoordinator.new config).setPublicKeySet keySet) before) ∧
        Recorded scheme ((BLSCoordinator.new config).setPublicKeySet keySet) before := by
    refine Runs.forall_prefixes ⟨ready_start scheme, recorded_start scheme⟩ ?_
    rintro before call part ⟨ready, recorded⟩
    have step := careful before call part
    refine ⟨?_, recorded_next ready recorded call step⟩
    rw [after_snoc]
    exact ready_next ready call step
  refine ⟨fun before call requestId signature part returned => ?_, fun before requestId message members part => ?_⟩
  · have ready := (invariant before ((List.prefix_append before [call]).trans part)).1
    exact returned_valid ready (careful before call part) returned
  · exact (invariant before part).2.robust (invariant before part).1

end

end

section

def byteText (bytes : List UInt8) : String := String.ofList (bytes.map fun byte => Char.ofNat byte.toNat)

def textBytes (text : String) : List UInt8 := text.toList.map fun letter => UInt8.ofNat letter.toNat

theorem textBytes_byteText (bytes : List UInt8) : textBytes (byteText bytes) = bytes := by
  unfold textBytes byteText
  rw [String.toList_ofList, List.map_map]
  refine (List.map_congr_left fun byte _ => ?_).trans (List.map_id bytes)
  have small : byte.toNat < 256 := byte.toNat_lt
  have isValid : byte.toNat.isValidChar := by
    left
    omega
  show UInt8.ofNat (Char.ofNat byte.toNat).toNat = byte
  rw [Char.toNat_ofNat, if_pos isValid, UInt8.ofNat_toNat]

/-- Signatures are marked messages of threshold two. Different first shares combine to one without the mark. -/
def echoCrypto : ThresholdCrypto Unit (List UInt8) (List UInt8) where
  combineSignatures _ shares :=
    if (shares.map Prod.fst).Nodup then
      match shares with
      | first :: second :: _ => .ok (if first.2 = second.2 then 1 :: first.2 else [])
      | _ => .error "not enough shares"
    else .error "duplicated entry"
  verify _ signature message := signature = 1 :: message
  encodeSignature := byteText
  decodeSignature text := .ok (textBytes text)
  decodeShare text := .ok (textBytes text)

def echoScheme : IdealScheme echoCrypto () 2 where
  Valid message _ share := share = message
  signature message := 1 :: message
  combines := by
    intro message shares length nodup all
    obtain ⟨first, second, rfl⟩ := List.length_eq_two.mp length
    have firstValid := all first (by simp)
    have secondValid := all second (by simp)
    show (if _ then _ else _) = _
    rw [if_pos nodup]
    simp [firstValid, secondValid]
  fails := by
    intro message shares combined result verified
    simp only [echoCrypto, decide_eq_true_eq] at result verified
    subst verified
    split at result
    next nodup =>
      split at result
      next first second rest =>
        split at result
        next same =>
          cases result
          refine ⟨[first, second], ?_, rfl, ?_, ?_⟩
          · exact ((List.nil_sublist rest).cons_cons second).cons_cons first
          · exact nodup.sublist (((List.nil_sublist _).cons_cons second.1).cons_cons first.1)
          · simp [← same]
        · simp at result
      · cases result
    · cases result
  verify_iff message other := by simp [echoCrypto]
  unique message combined verified := of_decide_eq_true verified
  decode_encode message := congrArg Except.ok (textBytes_byteText (1 :: message))

def signingConfig : BLSCoordinatorConfig := ⟨60, 2, 2⟩

def signerKey (byte : UInt8) : PublicKey := ⟨Bytes32.replicate byte⟩

def twoShares (second : List UInt8) : List SigningCall :=
  [.initiate 0 ⟨"request"⟩ [7] [] [signerKey 1, signerKey 2],
    .submit .stored 1 ⟨"request"⟩ (signerKey 1) ⟨0, byteText [7]⟩,
    .submit .stored 2 ⟨"request"⟩ (signerKey 2) ⟨1, byteText second⟩]

def signingStart : BLSCoordinator Unit := (BLSCoordinator.new signingConfig).setPublicKeySet ()

def twoRequest : SigningRequest := ⟨⟨"request"⟩, [7], [], [signerKey 1, signerKey 2], 2, 60⟩

def oneShare : Table PublicKey BLSSignatureShare :=
  (∅ : Table PublicKey BLSSignatureShare).insert (signerKey 1) ⟨0, byteText [7]⟩

theorem shares_two {second : List UInt8} {share : BLSSignatureShare} {signer : PublicKey}
    (found : (oneShare.insert (signerKey 2) ⟨1, byteText second⟩).lookup signer = some share) :
    signer = signerKey 2 ∧ share = ⟨1, byteText second⟩ ∨ signer = signerKey 1 ∧ share = ⟨0, byteText [7]⟩ := by
  rw [lookup_insert_eq] at found
  split at found
  next isSecond =>
    cases found
    exact .inl ⟨isSecond, rfl⟩
  · unfold oneShare at found
    rw [lookup_insert_eq] at found
    split at found
    next isFirst =>
      cases found
      exact .inr ⟨isFirst, rfl⟩
    · cases found

theorem signing_sound_and_robust_two : SoundAndRobust echoScheme signingStart (twoShares [7]) := by
  refine signing_sound_and_robust signingConfig echoScheme (twoShares [7]) ?_
  unfold twoShares
  rw [Runs.forall_steps_cons, Runs.forall_steps_cons, Runs.forall_steps_cons]
  refine ⟨?_, ?_, ?_, Runs.forall_steps_nil⟩
  · intro _ session found
    cases found
  · intro session found _ reached
    have isSession : some session = some ⟨twoRequest, ∅, 0, false⟩ := found.symm.trans rfl
    cases isSession
    exact absurd reached (by decide)
  · intro session found _ _
    have isSession : some session = some ⟨twoRequest, oneShare, 0, false⟩ := found.symm.trans rfl
    cases isSession
    refine ⟨fun signer share stored => ?_, fun signer signer' share share' stored stored' same => ?_⟩
    · have decoded : ∀ id, echoScheme.ValidShare twoRequest ⟨id, byteText [7]⟩ := fun _ =>
        ⟨[7], congrArg Except.ok (textBytes_byteText [7]), rfl⟩
      rcases shares_two stored with ⟨-, rfl⟩ | ⟨-, rfl⟩
      · exact decoded 1
      · exact decoded 0
    · rcases shares_two stored with ⟨rfl, rfl⟩ | ⟨rfl, rfl⟩
      · rcases shares_two stored' with ⟨rfl, rfl⟩ | ⟨rfl, rfl⟩
        · rfl
        · cases same
      · rcases shares_two stored' with ⟨rfl, rfl⟩ | ⟨rfl, rfl⟩
        · cases same
        · rfl

theorem foreign_share_returned : ¬ SoundAndRobust echoScheme signingStart (twoShares [8]) := by
  intro claim
  have returned : SigningCall.returned echoCrypto (coordinatorAfter echoCrypto signingStart ((twoShares [8]).take 2))
      (.submit .stored 2 ⟨"request"⟩ (signerKey 2) ⟨1, byteText [8]⟩) = some (⟨"request"⟩, ⟨byteText []⟩) := by
    decide +kernel
  obtain ⟨session, _, decoded, isDecoded, verified⟩ := claim.sound _ _ _ _ List.prefix_rfl returned
  cases isDecoded
  rw [textBytes_byteText] at verified
  exact absurd verified (by simp [echoCrypto])

end

end AdicProof.Pouw
