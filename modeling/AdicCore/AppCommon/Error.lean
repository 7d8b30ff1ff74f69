import AdicCore.Economics.Types
import AdicCore.Types.Json

open AdicModel.Economics AdicModel.Json

namespace AdicModel.AppCommon

/-- The reasons why a value is refused, with what their texts show. -/
inductive Reason where
  | notInSet (allowed : List Value)
  | notInRange (min max : Value)
  | below (min : Value)
  | rhoNotArray
  | rhoLength (d : UInt64)
  | rhoEntry (index : Nat)
  | tBlsNotNumber
  | tBlsNotIn (min max : UInt64)
  | replicationNotNumber
  | replicationAbove (r : UInt64)

/-- An escrow error has the text of the ledger error. -/
inductive AppError where
  | escrowError (error : EconomicsError)
  | lockNotFound (lockId : String)
  | parameterNotFound (key : String)
  | parameterValidationFailed (param : String) (reason : Reason)
  | invalidConfiguration

end AdicModel.AppCommon
