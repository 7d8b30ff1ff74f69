import AdicCore.AppCommon.Error

open AdicModel.Json

namespace AdicModel.AppCommon

inductive ValidationRule where
  | inSet (allowed : List Value)
  | range (min max : Value)
  | greaterThanOrEqual (min : Value)
  | custom (funcName : String)
  | none

/-- Class, type and description of a parameter are not used to change it. -/
structure ParameterMetadata where
  key : String
  defaultValue : Value
  validation : ValidationRule

/-- The listeners and the epoch they are told are left out. -/
structure ParameterStore where
  values : HashMap.Table String Value
  metadata : HashMap.Table String ParameterMetadata

namespace ParameterStore

def registerParam (store : ParameterStore) (key : String) (defaultValue : Value) (validation : ValidationRule) :
    ParameterStore where
  values := store.values.insert key defaultValue
  metadata := store.metadata.insert key ⟨key, defaultValue, validation⟩

def atLeastOne : ValidationRule := .greaterThanOrEqual (.ofNat 1)

def atLeastZero : ValidationRule := .greaterThanOrEqual (.ofFloat 0)

def new : ParameterStore :=
  let store : ParameterStore := ⟨∅, ∅⟩
  let store := store.registerParam "p" (.ofNat 3) (.inSet [.ofNat 3, .ofNat 5, .ofNat 7])
  let store := store.registerParam "d" (.ofNat 3) (.inSet [.ofNat 3, .ofNat 4])
  let store := store.registerParam "rho" (.array [.ofNat 2, .ofNat 2, .ofNat 1]) (.custom "validate_rho")
  let store := store.registerParam "q" (.ofNat 3) (.range (.ofNat 2) (.ofNat 5))
  let store := store.registerParam "k" (.ofNat 20) atLeastOne
  let store := store.registerParam "D" (.ofNat 12) atLeastOne
  let store := store.registerParam "Delta" (.ofNat 5) atLeastOne
  let store := store.registerParam "lambda" (.ofFloat 1) atLeastZero
  let store := store.registerParam "mu" (.ofFloat 1) atLeastZero
  let store := store.registerParam "alpha" (.ofFloat 1) atLeastZero
  let store := store.registerParam "beta" (.ofFloat 1) atLeastZero
  let store := store.registerParam "Rmin" (.ofFloat 50) atLeastZero
  let store := store.registerParam "rmin" (.ofFloat 10) atLeastZero
  let store := store.registerParam "m" (.ofNat 64) atLeastOne
  let store := store.registerParam "t_bls" (.ofNat 43) (.custom "validate_t_bls")
  let store := store.registerParam "replication_r" (.ofNat 5) atLeastOne
  let store := store.registerParam "replication_t" (.ofNat 4) (.custom "validate_replication_t")
  let store := store.registerParam "challenge_depth" (.ofNat 5) atLeastOne
  let store := store.registerParam "T_enact" (.ofFloat 1000) atLeastZero
  store.registerParam "Rmax" (.ofFloat 100000) (.greaterThanOrEqual (.ofFloat 1))

/-- `unwrap_or` of the value as a `u64`. -/
def getU64 (store : ParameterStore) (key : String) (default : UInt64) : UInt64 :=
  ((store.values.lookup key).bind Value.asU64).getD default

def valueInRange (value min max : Value) : Bool :=
  match value.asF64, min.asF64, max.asF64 with
  | some v, some minV, some maxV => minV ≤ v && v ≤ maxV
  | _, _, _ =>
    match value.asU64, min.asU64, max.asU64 with
    | some v, some minV, some maxV => minV ≤ v && v ≤ maxV
    | _, _, _ => false

def valueGte (value min : Value) : Bool :=
  match value.asF64, min.asF64 with
  | some v, some minV => minV ≤ v
  | _, _ =>
    match value.asU64, min.asU64 with
    | some v, some minV => minV ≤ v
    | _, _ => false

def validateRho (store : ParameterStore) (value : Value) : Except Reason Unit :=
  match value.asArray with
  | none => .error .rhoNotArray
  | some values =>
    let d := store.getU64 "d" 3
    if values.length ≠ d.toNat then .error (.rhoLength d)
    else
      match values.findIdx? fun r => r.asU64.all fun v => v < 1 with
      | some index => .error (.rhoEntry index)
      | none => .ok ()

/-- The sum wraps as in release builds. -/
def validateTBls (store : ParameterStore) (value : Value) : Except Reason Unit :=
  match value.asU64 with
  | none => .error .tBlsNotNumber
  | some t =>
    let m := store.getU64 "m" 64
    let minThreshold := (m + 1) / 2
    if t < minThreshold ∨ m < t then .error (.tBlsNotIn minThreshold m) else .ok ()

def validateReplicationT (store : ParameterStore) (value : Value) : Except Reason Unit :=
  match value.asU64 with
  | none => .error .replicationNotNumber
  | some t =>
    let r := store.getU64 "replication_r" 5
    if r < t then .error (.replicationAbove r) else .ok ()

def validateCustom (store : ParameterStore) (value : Value) (func : String) : Except Reason Unit :=
  if func = "validate_rho" then store.validateRho value
  else if func = "validate_t_bls" then store.validateTBls value
  else if func = "validate_replication_t" then store.validateReplicationT value
  else .ok ()

def check (store : ParameterStore) (value : Value) : ValidationRule → Except Reason Unit
  | .inSet allowed => if value ∈ allowed then .ok () else .error (.notInSet allowed)
  | .range min max => if valueInRange value min max then .ok () else .error (.notInRange min max)
  | .greaterThanOrEqual min => if valueGte value min then .ok () else .error (.below min)
  | .custom funcName => store.validateCustom value funcName
  | .none => .ok ()

def validateValue (store : ParameterStore) (key : String) (value : Value) (rule : ValidationRule) :
    Except AppError Unit :=
  (store.check value rule).mapError (.parameterValidationFailed key)

def applyGovernanceChange (store : ParameterStore) (key : String) (newValue : Value) :
    Except AppError ParameterStore := do
  match store.metadata.lookup key with
  | none => throw (.parameterNotFound key)
  | some metadata =>
    store.validateValue key newValue metadata.validation
    if key ∈ store.values then return { store with values := store.values.insert key newValue }
    else throw (.parameterNotFound key)

def resetToDefault (store : ParameterStore) (key : String) : Except AppError ParameterStore :=
  match store.metadata.lookup key with
  | none => .error (.parameterNotFound key)
  | some metadata => store.applyGovernanceChange key metadata.defaultValue

/-- Unknown parameters of a file are ignored. -/
def validateLoaded (store : ParameterStore) (entry : String × Value) : Except AppError Unit :=
  match store.metadata.lookup entry.1 with
  | some metadata => store.validateValue entry.1 entry.2 metadata.validation
  | none => .ok ()

/-- The parsed file, `none` if there is none. All values are checked before one is written. -/
def loadFromFile (store : ParameterStore) (order : HashMap.Order) (file : Option (HashMap.Table String Value)) :
    Except AppError ParameterStore := do
  match file with
  | none => throw .invalidConfiguration
  | some values =>
    (order.iterate (HashMap.pairs values)).forM store.validateLoaded
    return { store with
      values := (order.iterate (HashMap.pairs values)).foldl
        (fun current entry => if entry.1 ∈ current then current.insert entry.1 entry.2 else current) store.values }

end ParameterStore

inductive ParameterCall where
  | applyGovernanceChange (key : String) (newValue : Value)
  | resetToDefault (key : String)
  | loadFromFile (order : HashMap.Order) (file : Option (HashMap.Table String Value))

def ParameterCall.run (store : ParameterStore) : ParameterCall → Except AppError ParameterStore
  | .applyGovernanceChange key newValue => store.applyGovernanceChange key newValue
  | .resetToDefault key => store.resetToDefault key
  | .loadFromFile order file => store.loadFromFile order file

end AdicModel.AppCommon
