import AdicCore.Types.Message

namespace AdicModel.Economics

/-- Base units, nine decimals to the ADIC. -/
structure AdicAmount where
  baseUnits : UInt64
deriving DecidableEq, Repr

namespace AdicAmount

def zero : AdicAmount := ⟨0⟩

def maxSupply : AdicAmount := ⟨1000000000 * 1000000000⟩

def genesisSupply : AdicAmount := ⟨300000000 * 1000000000⟩

def fromBaseUnits (units : UInt64) : AdicAmount := ⟨units⟩

instance : LE AdicAmount := ⟨fun a b => a.baseUnits ≤ b.baseUnits⟩

instance : LT AdicAmount := ⟨fun a b => a.baseUnits < b.baseUnits⟩

instance (a b : AdicAmount) : Decidable (a < b) := inferInstanceAs (Decidable (a.baseUnits < b.baseUnits))

instance (a b : AdicAmount) : Decidable (a ≤ b) := inferInstanceAs (Decidable (a.baseUnits ≤ b.baseUnits))

def checkedAdd (a b : AdicAmount) : Option AdicAmount :=
  if a.baseUnits.toNat + b.baseUnits.toNat < 2 ^ 64 then some ⟨a.baseUnits + b.baseUnits⟩ else none

def checkedSub (a b : AdicAmount) : Option AdicAmount :=
  if a < b then none else some ⟨a.baseUnits - b.baseUnits⟩

/-- Saturates at the maximal supply, not at the largest `u64`. -/
def saturatingAdd (a b : AdicAmount) : AdicAmount :=
  match a.checkedAdd b with
  | some sum => ⟨min sum.baseUnits maxSupply.baseUnits⟩
  | none => maxSupply

def saturatingSub (a b : AdicAmount) : AdicAmount := (a.checkedSub b).getD zero

end AdicAmount

structure AccountAddress where
  asBytes : Bytes32
deriving DecidableEq

/-- The conversion of a slice, which fails unless it has 32 bytes. -/
def AccountAddress.fromBytes (bytes : List UInt8) : Option AccountAddress :=
  if size : bytes.length = 32 then some ⟨⟨bytes, size⟩⟩ else none

def AccountAddress.fromPublicKey (blake3 : List UInt8 → Bytes32) (pubkey : PublicKey) : AccountAddress :=
  ⟨blake3 pubkey.asBytes.bytes⟩

namespace AccountAddress

def treasury : AccountAddress := ⟨Bytes32.replicate 0xFF⟩

def liquidityPool : AccountAddress := ⟨⟨0x01 :: List.replicate 31 0xEE, by simp⟩⟩

def communityGrants : AccountAddress := ⟨⟨0x02 :: List.replicate 31 0xDD, by simp⟩⟩

def genesisPool : AccountAddress := ⟨⟨0x03 :: List.replicate 31 0xCC, by simp⟩⟩

def faucet : AccountAddress :=
  ⟨⟨[0xb0, 0x77, 0xb3, 0xc7, 0x1b, 0x7c, 0x3b, 0xa5, 0x68, 0xc5, 0x6a, 0x5f, 0xdd, 0x31, 0x78, 0x47, 0x61, 0x1b, 0xab,
    0x2d, 0x1b, 0xf6, 0x7e, 0x80, 0x79, 0xcb, 0x51, 0x5c, 0x1e, 0x9e, 0xb9, 0x05], by decide⟩⟩

def zero : AccountAddress := ⟨Bytes32.replicate 0⟩

end AccountAddress

/-- Little endian bytes, of a negative number in two's complement. -/
def toLeBytes (value : Int) : List UInt8 := (List.range 8).map fun i => UInt8.ofNat (value / 256 ^ i % 256).toNat

def hexDigit (value : UInt8) : Char :=
  if value < 10 then Char.ofNat (48 + value.toNat) else Char.ofNat (87 + value.toNat)

def hexEncode (bytes : List UInt8) : String :=
  String.ofList (bytes.flatMap fun byte => [hexDigit (byte / 16), hexDigit (byte % 16)])

/-- The errors of the economics, one for each message. -/
inductive EconomicsError where
  | storage (message : String)
  | balanceOverflow (address : AccountAddress)
  | exceedsMaxSupply
  | insufficientBalance (address : AccountAddress) (has needs : AdicAmount)
  | sameAddress
  | recipientOverflow
  | insufficientUnlocked (has needs : AdicAmount)
  | accountNotFound (address : AccountAddress)
  | insufficientLocked (has unlocking : AdicAmount)
  | invalidAddressLength
  | zeroAmount
  | invalidNonce (expected got : UInt64)
  | noSigners
  | invalidThreshold (signers : Nat)
  | duplicateSigners
  | multisigInitialized
  | multisigNotInitialized
  | updateNotSigner
  | invalidNewThreshold
  | proposeNotSigner
  | insufficientTreasury (has requested : AdicAmount)
  | approveNotSigner
  | rejectNotSigner
  | proposalNotFound
  | proposalExecuted
  | proposalExpired
  | genesisMinted
  | invalidGenesisAmount (expected got : AdicAmount)
  | supplyOverflow
  | exceedsMaxMint (limit : AdicAmount)
  | burnsMoreThanCirculates
  | genesisAllocated
  | allocationOverflow
  | allocationExceeds
  | genesisNotAllocated
  | insufficientGenesisPool
  | emissionTooFrequent (wait : Int)
  | maxSupplyReached
deriving DecidableEq

end AdicModel.Economics
