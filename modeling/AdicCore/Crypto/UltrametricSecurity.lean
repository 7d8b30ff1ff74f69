import AdicCore.Types.Message

namespace AdicModel.Crypto

inductive AdicError where
  | signatureVerification
  | admissibilityFailed (message : String)
  | invalidParameter (message : String)
  | parentSelectionFailed (message : String)
  | panic (message : String)
deriving DecidableEq

def AdicError.display : AdicError → String
  | .signatureVerification => "Signature verification failed"
  | .admissibilityFailed message => s!"Admissibility check failed: {message}"
  | .invalidParameter message => s!"Invalid parameter: {message}"
  | .parentSelectionFailed message => s!"Parent selection failed: {message}"
  | .panic message => message

def countDistinctBalls (points : List QpDigits) (radius : Nat) : Nat :=
  (points.map fun point => point.ballId radius).dedup.length

def verifyAxes (q : UInt32) (parentFeatures : List (List QpDigits)) :
    List (UInt32 × Nat) → List Nat → Except AdicError (Bool × List Nat)
  | [], distinctCounts => .ok (true, distinctCounts)
  | (radius, axisIdx) :: axes, distinctCounts =>
    let axisFeatures := parentFeatures.filterMap fun features => features[axisIdx]?
    if axisFeatures.length ≠ parentFeatures.length then
      .error (.invalidParameter s!"Not all parents have axis {axisIdx}")
    else
      let distinctCount := countDistinctBalls axisFeatures radius.toNat
      if distinctCount < q.toNat then .ok (false, distinctCounts ++ [distinctCount])
      else verifyAxes q parentFeatures axes (distinctCounts ++ [distinctCount])

def verifyC2Diversity (rho : List UInt32) (q : UInt32) (parentFeatures : List (List QpDigits)) :
    Except AdicError (Bool × List Nat) :=
  verifyAxes q parentFeatures rho.zipIdx []

end AdicModel.Crypto
