import AdicCore.Pouw.BlsCoordinator

open AdicModel AdicModel.Crypto AdicModel.Pouw AdicModel.Pouw.BLSCoordinator HashMap

namespace AdicProof.Pouw

/-- As many valid shares as the threshold combine to the only valid signature of their message, and nothing else
    does. -/
structure IdealScheme {PublicKeySet Signature SignatureShare : Type}
    (crypto : ThresholdCrypto PublicKeySet Signature SignatureShare) (keySet : PublicKeySet) (threshold : Nat) where
  Valid : List UInt8 → Nat → SignatureShare → Prop
  signature : List UInt8 → Signature
  combines : ∀ message shares, shares.length = threshold → (shares.map Prod.fst).Nodup →
    (∀ share ∈ shares, Valid message share.1 share.2) →
      crypto.combineSignatures keySet shares = .ok (signature message)
  fails : ∀ message shares combined, crypto.combineSignatures keySet shares = .ok combined →
    crypto.verify keySet combined message = true →
      ∃ used : List (Nat × SignatureShare), used.Sublist shares ∧ used.length = threshold ∧ (used.map Prod.fst).Nodup ∧
        ∀ share ∈ used, Valid message share.1 share.2
  verify_iff : ∀ message other, crypto.verify keySet (signature message) other = true ↔ message = other
  unique : ∀ message combined, crypto.verify keySet combined message = true → combined = signature message
  decode_encode : ∀ message, crypto.decodeSignature (crypto.encodeSignature (signature message)) = .ok (signature message)

def signedMessage (request : SigningRequest) : List UInt8 := prefixedMessage request.dst request.message

section

variable {PublicKeySet Signature SignatureShare : Type} {crypto : ThresholdCrypto PublicKeySet Signature SignatureShare}
  {keySet : PublicKeySet} {threshold : Nat}

def IdealScheme.ValidShare (scheme : IdealScheme crypto keySet threshold) (request : SigningRequest)
    (share : BLSSignatureShare) : Prop :=
  ∃ decoded, share.toTcSignatureShare crypto = .ok decoded ∧
    scheme.Valid (signedMessage request) share.participantId decoded

variable (crypto keySet) in
def ValidSignature (message : List UInt8) (signature : BLSSignature) : Prop :=
  ∃ decoded, signature.toTcSignature crypto = .ok decoded ∧ crypto.verify keySet decoded message = true

structure Combinable (scheme : IdealScheme crypto keySet threshold) (session : CollectionSession) : Prop where
  valid : ∀ signer share, session.shares.lookup signer = some share → scheme.ValidShare session.request share
  distinct : ∀ signer signer' share share', session.shares.lookup signer = some share →
    session.shares.lookup signer' = some share' → share.participantId = share'.participantId → signer = signer'

structure Collects (scheme : IdealScheme crypto keySet threshold) (session : CollectionSession) : Prop where
  isThreshold : session.request.threshold = threshold
  collecting : session.completed = false → (pairs session.shares).length < threshold
  full : session.completed = true → (pairs session.shares).length = threshold
  combinable : session.completed = true → Combinable scheme session

section

variable {scheme : IdealScheme crypto keySet threshold} {session : CollectionSession} {order : Order}
  {coordinator : BLSCoordinator PublicKeySet}

theorem mapM_decodeShare {request : SigningRequest} (shares : List BLSSignatureShare)
    (valid : ∀ share ∈ shares, scheme.ValidShare request share) :
    ∃ decoded, shares.mapM (decodeShare crypto) = .ok decoded ∧
      decoded.map Prod.fst = shares.map BLSSignatureShare.participantId ∧
        ∀ share ∈ decoded, scheme.Valid (signedMessage request) share.1 share.2 := by
  induction shares with
  | nil => exact ⟨[], rfl, rfl, fun _ listed => absurd listed List.not_mem_nil⟩
  | cons share shares ih =>
    obtain ⟨decoded, run, ids, all⟩ := ih fun other listed => valid other (List.mem_cons_of_mem _ listed)
    obtain ⟨value, isValue, isValid⟩ := valid share List.mem_cons_self
    have first : decodeShare crypto share = .ok (share.participantId, value) := by
      unfold decodeShare
      rw [isValue]
    refine ⟨(share.participantId, value) :: decoded, ?_, ?_, ?_⟩
    · rw [List.mapM_cons, first, run]
      rfl
    · rw [List.map_cons, List.map_cons, ids]
    · intro other listed
      rcases List.mem_cons.mp listed with rfl | listed
      · exact isValid
      · exact all other listed

theorem aggregate_full (order : Order) (combinable : Combinable scheme session)
    (full : (pairs session.shares).length = threshold) (configured : coordinator.publicKeySet = some keySet) :
    ∃ signature, coordinator.aggregateShares crypto (collectedShares order session) = .ok signature ∧
      ValidSignature crypto keySet (signedMessage session.request) signature := by
  have perm : (collectedShares order session).Perm ((pairs session.shares).map Prod.snd) :=
    (order.perm (pairs session.shares)).map Prod.snd
  have valid : ∀ share ∈ collectedShares order session, scheme.ValidShare session.request share := by
    intro share listed
    obtain ⟨⟨signer, stored⟩, member, rfl⟩ := List.mem_map.mp (perm.mem_iff.mp listed)
    exact combinable.valid signer stored (mem_pairs.mp member)
  obtain ⟨decoded, run, ids, all⟩ := mapM_decodeShare (collectedShares order session) valid
  have nodup : (decoded.map Prod.fst).Nodup := by
    rw [ids]
    refine ((perm.map BLSSignatureShare.participantId).nodup_iff).mpr ?_
    rw [List.map_map]
    refine List.Nodup.map_on ?_ (.of_map Prod.fst (pairs_keys_nodup _))
    rintro ⟨signer, share⟩ member ⟨signer', share'⟩ member' same
    have stored := mem_pairs.mp member
    have stored' := mem_pairs.mp member'
    have equal := combinable.distinct signer signer' share share' stored stored' same
    subst equal
    rw [stored] at stored'
    rw [Option.some.inj stored']
  have length : decoded.length = threshold := by
    rw [← List.length_map Prod.fst, ids, List.length_map, perm.length_eq, List.length_map, full]
  have combined := scheme.combines (signedMessage session.request) decoded length nodup all
  refine ⟨BLSSignature.fromTcSignature crypto (scheme.signature (signedMessage session.request)), ?_, ?_⟩
  · unfold aggregateShares
    simp only [configured, run, combined, bind, Except.bind]
    rfl
  · exact ⟨_, scheme.decode_encode _, (scheme.verify_iff _ _).mpr rfl⟩

variable {now : Nat} {requestId : SigningRequestId} {signer : PublicKey} {share : BLSSignatureShare}

def keep (coordinator : BLSCoordinator PublicKeySet) (requestId : SigningRequestId) (session : CollectionSession) :
    BLSCoordinator PublicKeySet :=
  { coordinator with sessions := coordinator.sessions.insert requestId session }

def withShare (session : CollectionSession) (signer : PublicKey) (share : BLSSignatureShare) : CollectionSession :=
  { session with shares := session.shares.insert signer share }

def Takes (session : CollectionSession) (now : Nat) (signer : PublicKey) : Prop :=
  session.completed = false ∧ now ≤ session.request.deadline ∧ signer ∈ session.request.committeeMembers ∧
    session.shares.lookup signer = none

theorem submitShare_missing (missing : coordinator.sessions.lookup requestId = none) :
    coordinator.submitShare crypto order now requestId signer share =
      (.error (.signingRequestNotFound requestId.id), coordinator) := by
  unfold submitShare
  rw [missing]

section

variable (found : coordinator.sessions.lookup requestId = some session)

include found

theorem submitShare_refused (refused : ¬ Takes session now signer) :
    (∀ signature, (coordinator.submitShare crypto order now requestId signer share).1 ≠ .ok (some signature)) ∧
      (coordinator.submitShare crypto order now requestId signer share).2 = coordinator := by
  unfold submitShare
  rw [found]
  dsimp only
  split
  · exact ⟨fun _ same => (nomatch same), rfl⟩
  next collecting =>
  split
  · exact ⟨fun _ same => (nomatch same), rfl⟩
  next early =>
  split
  · exact ⟨fun _ same => (nomatch same), rfl⟩
  next member =>
  split
  · exact ⟨fun _ same => (nomatch same), rfl⟩
  next fresh =>
  refine absurd ⟨by simpa using collecting, not_lt.mp early, not_not.mp member, ?_⟩ refused
  exact Option.not_isSome_iff_eq_none.mp fresh

theorem submitShare_below (takes : Takes session now signer)
    (below : (pairs (withShare session signer share).shares).length < session.request.threshold) :
    coordinator.submitShare crypto order now requestId signer share =
      (.ok none, keep coordinator requestId (withShare session signer share)) := by
  obtain ⟨collecting, early, member, fresh⟩ := takes
  unfold submitShare
  rw [found]
  dsimp only
  rw [if_neg (by simp [collecting]), if_neg (not_lt.mpr early), if_neg (not_not.mpr member), if_neg (by simp [fresh])]
  exact if_neg (not_le.mpr below)

theorem submitShare_reached {signature : BLSSignature} (takes : Takes session now signer)
    (reached : session.request.threshold ≤ (pairs (withShare session signer share).shares).length)
    (aggregated : coordinator.aggregateShares crypto (collectedShares order (withShare session signer share)) =
      .ok signature) :
    coordinator.submitShare crypto order now requestId signer share =
      (.ok (some signature), keep coordinator requestId { withShare session signer share with completed := true }) := by
  obtain ⟨collecting, early, member, fresh⟩ := takes
  unfold submitShare
  rw [found]
  dsimp only
  rw [if_neg (by simp [collecting]), if_neg (not_lt.mpr early), if_neg (not_not.mpr member), if_neg (by simp [fresh])]
  refine (if_pos reached).trans ?_
  unfold withShare at aggregated
  rw [aggregated]
  rfl

end

end

end

end AdicProof.Pouw
