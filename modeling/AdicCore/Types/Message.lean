import AdicCore.Library.HashMap

namespace AdicModel

/-- `[u8; 32]`. -/
structure Bytes32 where
  bytes : List UInt8
  size : bytes.length = 32
deriving DecidableEq

def Bytes32.replicate (byte : UInt8) : Bytes32 := ⟨List.replicate 32 byte, by simp⟩

structure MessageId where
  asBytes : Bytes32
deriving DecidableEq

structure PublicKey where
  asBytes : Bytes32
deriving DecidableEq

structure Signature where
  asBytes : List UInt8
deriving DecidableEq

def Signature.empty : Signature := ⟨[]⟩

structure AxisId where
  index : UInt32
deriving DecidableEq

structure QpDigits where
  digits : List UInt8
  p : UInt32
deriving DecidableEq

def QpDigits.ballId (x : QpDigits) (radius : Nat) : List UInt8 := x.digits.take radius

/-- The digits of a number up to its last one. -/
def QpDigits.digitLoop (p : Nat) : Nat → Nat → List UInt8
  | 0, _ => []
  | precision + 1, value =>
    UInt8.ofNat (value % p) :: if value / p = 0 then [] else digitLoop p precision (value / p)

def QpDigits.fromU64 (value : UInt64) (p : UInt32) (precision : Nat) : QpDigits :=
  let digits := digitLoop p.toNat precision value.toNat
  ⟨digits ++ List.replicate (precision - digits.length) 0, p⟩

structure AxisPhi where
  axis : AxisId
  qpDigits : QpDigits
deriving DecidableEq

structure AdicFeatures where
  phi : List AxisPhi
deriving DecidableEq

def AdicFeatures.getAxis (features : AdicFeatures) (axis : AxisId) : Option AxisPhi :=
  features.phi.find? fun phi => phi.axis = axis

def AdicFeatures.dimension (features : AdicFeatures) : Nat := features.phi.length

/-- `DateTime<Utc>`: seconds since the epoch and the nanoseconds of the current second. -/
structure DateTime where
  timestamp : Int
  nanos : UInt32
deriving DecidableEq

structure ConflictId where
  name : String
deriving DecidableEq

def ConflictId.none : ConflictId := ⟨""⟩

/-- The tags are a map: equal when every key has the same value. -/
structure AdicMeta where
  timestamp : DateTime
  axes : Finmap fun _ : String => String
  conflict : ConflictId
deriving DecidableEq

def AdicMeta.new (timestamp : DateTime) : AdicMeta := ⟨timestamp, ∅, ConflictId.none⟩

structure ValueTransfer where
  sender : List UInt8
  recipient : List UInt8
  amount : UInt64
  nonce : UInt64
deriving DecidableEq

def ValueTransfer.isValid (transfer : ValueTransfer) : Bool :=
  transfer.amount > 0 && transfer.sender ≠ transfer.recipient &&
    transfer.sender.length = 32 && transfer.recipient.length = 32

structure AdicMessage where
  id : MessageId
  parents : List MessageId
  features : AdicFeatures
  metadata : AdicMeta
  proposerPk : PublicKey
  signature : Signature
  transfer : Option ValueTransfer
  data : List UInt8
deriving DecidableEq

def AdicMessage.getTransfer (message : AdicMessage) : Option ValueTransfer := message.transfer

def AdicMessage.isGenesis (message : AdicMessage) : Bool := message.parents.isEmpty

end AdicModel
