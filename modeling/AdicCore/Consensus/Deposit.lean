import AdicCore.Economics.Balance

namespace AdicModel.Consensus

/-- Values are exact numbers. -/
structure ReputationScore where
  value : ℚ
  messagesFinalized : Nat

def ReputationScore.new : ReputationScore := ⟨1, 0⟩

structure ReputationTracker where
  gamma : ℚ
  scores : HashMap.Table PublicKey ReputationScore

namespace ReputationTracker

def new (gamma : ℚ) : ReputationTracker := ⟨gamma, ∅⟩

def getReputation (tracker : ReputationTracker) (pubkey : PublicKey) : ℚ :=
  ((tracker.scores.lookup pubkey).map ReputationScore.value).getD 1

def goodUpdate (pubkey : PublicKey) (diversity : ℚ) (depth : Nat) (tracker : ReputationTracker) : ReputationTracker :=
  let score := (tracker.scores.lookup pubkey).getD .new
  let goodScore := 1 + diversity / (1 + depth)
  let value := min (tracker.gamma * score.value + (1 - tracker.gamma) * goodScore) 10
  { tracker with scores := tracker.scores.insert pubkey ⟨value, score.messagesFinalized + 1⟩ }

def badUpdate (pubkey : PublicKey) (penalty : ℚ) (tracker : ReputationTracker) : ReputationTracker :=
  let score := (tracker.scores.lookup pubkey).getD .new
  let value := max (tracker.gamma * score.value + (1 - tracker.gamma) * -penalty) (1 / 10)
  { tracker with scores := tracker.scores.insert pubkey { score with value } }

def setReputation (pubkey : PublicKey) (value : ℚ) (tracker : ReputationTracker) : ReputationTracker :=
  let score := (tracker.scores.lookup pubkey).getD .new
  { tracker with scores := tracker.scores.insert pubkey { score with value } }

end ReputationTracker

end AdicModel.Consensus

open AdicModel AdicModel.Consensus

namespace AdicProof.Consensus

theorem getReputation_setReputation (tracker : ReputationTracker) (pubkey other : PublicKey) (value : ℚ) :
    (tracker.setReputation pubkey value).getReputation other =
      if other = pubkey then value else tracker.getReputation other := by
  unfold ReputationTracker.setReputation ReputationTracker.getReputation
  rw [HashMap.lookup_insert_eq]
  split <;> rfl

end AdicProof.Consensus

open AdicModel.Economics

namespace AdicModel.Consensus

inductive DepositStatus where
  | escrowed
  | refunded
  | slashed
deriving DecidableEq

structure Deposit where
  messageId : MessageId
  proposerPk : PublicKey
  amount : AdicAmount
  status : DepositStatus
  timestamp : Int
deriving DecidableEq

/-- The invalid parameter errors of deposits, one for each message. -/
inductive DepositError where
  | getBalance (error : EconomicsError)
  | insufficientBalance (has needs : AdicAmount)
  | lock (error : EconomicsError)
  | notEscrowed (messageId : MessageId)
  | unlock (error : EconomicsError)
  | unlockForSlash (error : EconomicsError)
  | transferSlashed (error : EconomicsError)
  | noDeposit (messageId : MessageId)

structure DepositManager (σ : Type) where
  depositAmount : AdicAmount
  deposits : HashMap.Table MessageId Deposit
  balanceManager : Option (BalanceManager σ)

abbrev DepositCall (σ α : Type) : Type := EStateM DepositError (DepositManager σ) α

namespace DepositManager

variable {σ : Type}

def new (depositAmount : AdicAmount) : DepositManager σ := ⟨depositAmount, ∅, none⟩

def withBalanceManager (depositAmount : AdicAmount) (balanceManager : BalanceManager σ) : DepositManager σ :=
  ⟨depositAmount, ∅, some balanceManager⟩

def onBalanceManager (block : EStateM DepositError (BalanceManager σ) Unit) : DepositCall σ Unit := fun manager =>
  match manager.balanceManager with
  | none => .ok () manager
  | some balances =>
    match block balances with
    | .ok () next => .ok () { manager with balanceManager := some next }
    | .error error next => .error error { manager with balanceManager := some next }

def insertDeposit (messageId : MessageId) (deposit : Deposit) : DepositCall σ Unit :=
  modify fun manager => { manager with deposits := manager.deposits.insert messageId deposit }

def setDepositAmount (amount : AdicAmount) : DepositCall σ Unit :=
  modify fun manager => { manager with depositAmount := amount }

variable [EconomicsStorage σ] (blake3 : List UInt8 → Bytes32) (now : Int)

def lockDeposit (proposerAddr : AccountAddress) (depositAmount : AdicAmount) :
    EStateM DepositError (BalanceManager σ) Unit := do
  let balance ← EStateM.adaptExcept .getBalance (BalanceManager.getUnlockedBalance now proposerAddr)
  if balance < depositAmount then throw (.insufficientBalance balance depositAmount)
  else EStateM.adaptExcept .lock (BalanceManager.lock now proposerAddr depositAmount)

/-- A deposit under an id that has one replaces it. -/
def escrow (messageId : MessageId) (proposer : PublicKey) : DepositCall σ Unit := do
  let depositAmount := (← get).depositAmount
  onBalanceManager (lockDeposit now (AccountAddress.fromPublicKey blake3 proposer) depositAmount)
  insertDeposit messageId ⟨messageId, proposer, depositAmount, .escrowed, now⟩

def refund (messageId : MessageId) : DepositCall σ Unit := do
  match (← get).deposits.lookup messageId with
  | none => throw (.noDeposit messageId)
  | some deposit =>
    if deposit.status ≠ .escrowed then throw (.notEscrowed messageId)
    else
      onBalanceManager (EStateM.adaptExcept .unlock
        (BalanceManager.unlock (AccountAddress.fromPublicKey blake3 deposit.proposerPk) deposit.amount))
      insertDeposit messageId { deposit with status := .refunded }

/-- Unlocks, then sends the amount to the treasury. -/
def forfeit (proposerAddr : AccountAddress) (amount : AdicAmount) : EStateM DepositError (BalanceManager σ) Unit := do
  EStateM.adaptExcept .unlockForSlash (BalanceManager.unlock proposerAddr amount)
  let _ ← EStateM.adaptExcept .transferSlashed
    (BalanceManager.transfer blake3 now proposerAddr AccountAddress.treasury amount)

def slash (messageId : MessageId) : DepositCall σ Unit := do
  match (← get).deposits.lookup messageId with
  | none => throw (.noDeposit messageId)
  | some deposit =>
    if deposit.status ≠ .escrowed then throw (.notEscrowed messageId)
    else
      onBalanceManager (forfeit blake3 now (AccountAddress.fromPublicKey blake3 deposit.proposerPk) deposit.amount)
      insertDeposit messageId { deposit with status := .slashed }

end DepositManager

end AdicModel.Consensus
