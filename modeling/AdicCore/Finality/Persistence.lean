import AdicCore.Library.HashMap

namespace AdicModel.Finality

/-- Filtration values are timestamps, which a double holds exactly. -/
abbrev Weight := ℚ

def sortIndices (indices : List Nat) : List Nat := indices.insertionSort (· ≤ ·)

structure Simplex where
  id : Nat
  vertices : List Nat
  dimension : Nat
  weight : Weight
deriving DecidableEq

def Simplex.new (id : Nat) (vertices : List Nat) (weight : Weight) : Simplex :=
  let sorted := sortIndices vertices
  ⟨id, sorted, if sorted.isEmpty then 0 else sorted.length - 1, weight⟩

/-- All faces of codimension one. A vertex has none. -/
def Simplex.faces (simplex : Simplex) : List (List Nat) :=
  if simplex.dimension = 0 then []
  else (List.range simplex.vertices.length).map fun i => simplex.vertices.eraseIdx i

structure SimplicialComplex where
  simplices : List Simplex
  vertexToSimplex : HashMap.Table (List Nat) Nat
  nextId : Nat

def SimplicialComplex.new : SimplicialComplex := ⟨[], ∅, 0⟩

def SimplicialComplex.addSimplex (complex : SimplicialComplex) (vertices : List Nat)
    (weight : Weight) : SimplicialComplex × Nat :=
  let sorted := sortIndices vertices
  match complex.vertexToSimplex.lookup sorted with
  | some id => (complex, id)
  | none =>
    let id := complex.nextId
    (⟨complex.simplices ++ [Simplex.new id sorted weight],
      complex.vertexToSimplex.insert sorted id, complex.nextId + 1⟩, id)

/-- The recursion of `add_simplex_with_faces` drops one vertex at a time. -/
def SimplicialComplex.addFaces : Nat → SimplicialComplex → List Nat → Weight → SimplicialComplex × Nat
  | 0, complex, vertices, weight => complex.addSimplex vertices weight
  | depth + 1, complex, vertices, weight =>
    let withFaces := (Simplex.new 0 vertices weight).faces.foldl
      (fun current face => (addFaces depth current face 0).1) complex
    withFaces.addSimplex vertices weight

def SimplicialComplex.addSimplexWithFaces (complex : SimplicialComplex) (vertices : List Nat)
    (weight : Weight) : SimplicialComplex × Nat :=
  complex.addFaces vertices.length vertices weight

def SimplicialComplex.getSimplex (complex : SimplicialComplex) (id : Nat) : Option Simplex :=
  complex.simplices[id]?

def SimplicialComplex.getSimplexId (complex : SimplicialComplex) (vertices : List Nat) :
    Option Nat := complex.vertexToSimplex.lookup vertices

def SimplicialComplex.numSimplices (complex : SimplicialComplex) : Nat := complex.simplices.length

/-- Largest nonzero weight, `0` if there is none. -/
def maxNonzeroWeight (simplices : List Simplex) : Weight :=
  ((simplices.map Simplex.weight).filter (0 < ·)).foldl max 0

def minNonzeroWeight (simplices : List Simplex) : Option Weight :=
  ((simplices.map Simplex.weight).filter (0 < ·)).min?

def appendSimplex (complex : SimplicialComplex) (simplex : Simplex) : SimplicialComplex :=
  ⟨complex.simplices ++ [{ simplex with id := complex.nextId }],
    complex.vertexToSimplex.insert simplex.vertices complex.nextId, complex.nextId + 1⟩

/-- "Monotonicity violated: new simplex weight {minNew} < existing max {maxExisting}". -/
structure MonotonicityViolated where
  minNew : Weight
  maxExisting : Weight
deriving DecidableEq

def SimplicialComplex.appendSimplices (complex newComplex : SimplicialComplex) :
    Except MonotonicityViolated SimplicialComplex :=
  let maxExistingWeight := maxNonzeroWeight complex.simplices
  match minNonzeroWeight newComplex.simplices with
  | some minNewNonzeroWeight =>
    if minNewNonzeroWeight < maxExistingWeight then .error ⟨minNewNonzeroWeight, maxExistingWeight⟩
    else .ok (newComplex.simplices.foldl appendSimplex complex)
  | none => .ok (newComplex.simplices.foldl appendSimplex complex)

/-- Weight first, then dimension. -/
def filtrationOrder (a b : Simplex) : Prop :=
  a.weight < b.weight ∨ a.weight = b.weight ∧ a.dimension ≤ b.dimension

instance : DecidableRel filtrationOrder := fun _ _ => inferInstanceAs (Decidable (_ ∨ _))

/-- The sort is stable. The map is rebuilt and the indices are reassigned. -/
def SimplicialComplex.sortByFiltration (complex : SimplicialComplex) : SimplicialComplex :=
  let sorted := complex.simplices.insertionSort filtrationOrder
  sorted.foldl appendSimplex SimplicialComplex.new

def SimplicialComplex.getFaceIds (complex : SimplicialComplex) (simplexId : Nat) : List Nat :=
  match complex.getSimplex simplexId with
  | some simplex => simplex.faces.filterMap complex.getSimplexId
  | none => []

/-- Sorted row indices of the nonzero entries. -/
abbrev Column := List Nat

structure BoundaryMatrix where
  columns : List Column
  pivotMap : HashMap.Table Nat Nat

def faceColumn (complex : SimplicialComplex) (simplex : Simplex) : Column :=
  sortIndices (complex.getFaceIds simplex.id)

def BoundaryMatrix.fromComplex (complex : SimplicialComplex) : BoundaryMatrix :=
  ⟨complex.simplices.map (faceColumn complex), ∅⟩

def BoundaryMatrix.numColumns (matrix : BoundaryMatrix) : Nat := matrix.columns.length

def BoundaryMatrix.appendColumns (matrix : BoundaryMatrix) (newColumns : List Column) : BoundaryMatrix :=
  { matrix with columns := matrix.columns ++ newColumns }

def BoundaryMatrix.isEmptyColumn (matrix : BoundaryMatrix) (col : Nat) : Bool :=
  match matrix.columns[col]? with
  | some column => column.isEmpty
  | none => true

def BoundaryMatrix.lowestFace (matrix : BoundaryMatrix) (col : Nat) : Option Nat :=
  matrix.columns[col]?.bind List.getLast?

def BoundaryMatrix.findColumnWithPivot (matrix : BoundaryMatrix) (pivot : Nat) : Option Nat :=
  matrix.pivotMap.lookup pivot

/-- The merge loop of `xor_columns` on the unread parts, whose length bounds the rounds. -/
def xorLoop : Nat → Column → Column → Column
  | rounds + 1, t :: target, s :: source =>
    if t < s then t :: xorLoop rounds target (s :: source)
    else if s < t then s :: xorLoop rounds (t :: target) source
    else xorLoop rounds target source
  | _, target, source => target ++ source

def xorSorted (target source : Column) : Column := xorLoop (target.length + source.length) target source

def BoundaryMatrix.xorColumns (matrix : BoundaryMatrix) (targetCol sourceCol : Nat) : BoundaryMatrix :=
  match matrix.columns[targetCol]?, matrix.columns[sourceCol]? with
  | some target, some source =>
    { matrix with columns := matrix.columns.set targetCol (xorSorted target source) }
  | _, _ => matrix

def BoundaryMatrix.updatePivot (matrix : BoundaryMatrix) (col : Nat) : BoundaryMatrix :=
  match matrix.lowestFace col with
  | some pivot => { matrix with pivotMap := matrix.pivotMap.insert pivot col }
  | none => matrix

def BoundaryMatrix.clearPivots (matrix : BoundaryMatrix) : BoundaryMatrix :=
  { matrix with pivotMap := ∅ }

/-- `pairs` maps deaths to births. -/
structure ReductionResult where
  matrix : BoundaryMatrix
  pairs : HashMap.Table Nat Nat
  unpaired : List Nat

def reduceColumn : Nat → BoundaryMatrix → Nat → Option BoundaryMatrix
  | 0, _, _ => none
  | fuel + 1, matrix, col =>
    match matrix.lowestFace col with
    | none => some matrix
    | some pivot =>
      match matrix.findColumnWithPivot pivot with
      | some otherCol => reduceColumn fuel (matrix.xorColumns col otherCol) col
      | none => some (matrix.updatePivot col)

/-- The pivot map is inverted. What is neither death nor birth is collected. -/
def extractPairing (matrix : BoundaryMatrix) (n : Nat) : ReductionResult :=
  let pairs := HashMap.ofPairs ((HashMap.pairs matrix.pivotMap).map Prod.swap)
  let pairedDeaths := (HashMap.pairs pairs).map Prod.fst
  let pairedBirths := (HashMap.pairs pairs).map Prod.snd
  ⟨matrix, pairs, (List.range n).filter fun col => col ∉ pairedDeaths ∧ col ∉ pairedBirths⟩

def reduceBoundaryMatrix (fuel : Nat) (matrix : BoundaryMatrix) : Option ReductionResult := do
  let n := matrix.numColumns
  let reduced ← (List.range n).foldlM (reduceColumn fuel) matrix.clearPivots
  return extractPairing reduced n

structure PersistenceInterval where
  birth : Weight
  death : Option Weight
  dimension : Nat

def PersistenceInterval.finite (birth death : Weight) (dimension : Nat) : PersistenceInterval :=
  ⟨birth, some death, dimension⟩

def PersistenceInterval.infinite (birth : Weight) (dimension : Nat) : PersistenceInterval :=
  ⟨birth, none, dimension⟩

def PersistenceInterval.isInfinite (interval : PersistenceInterval) : Bool := interval.death.isNone

structure PersistenceDiagram where
  dimension : Nat
  intervals : List PersistenceInterval

def PersistenceDiagram.new (dimension : Nat) : PersistenceDiagram := ⟨dimension, []⟩

def PersistenceDiagram.addInterval (diagram : PersistenceDiagram) (interval : PersistenceInterval) :
    PersistenceDiagram := { diagram with intervals := diagram.intervals ++ [interval] }

def PersistenceDiagram.numInfinite (diagram : PersistenceDiagram) : Nat :=
  (diagram.intervals.filter PersistenceInterval.isInfinite).length

structure PersistenceData where
  diagrams : HashMap.Table Nat PersistenceDiagram
  maxDimension : Nat

def PersistenceData.new : PersistenceData := ⟨∅, 0⟩

/-- One round of either loop of `from_reduction`. -/
def PersistenceData.record (data : PersistenceData) (interval : PersistenceInterval) : PersistenceData :=
  let dimension := interval.dimension
  let diagram := (data.diagrams.lookup dimension).getD (PersistenceDiagram.new dimension)
  ⟨data.diagrams.insert dimension (diagram.addInterval interval), max data.maxDimension dimension⟩

/-- The interval of a pair. `none` is the panic on an index outside the complex. -/
def pairInterval (complex : SimplicialComplex) (pair : Nat × Nat) : Option PersistenceInterval := do
  let deathSimplex ← complex.getSimplex pair.1
  let birthSimplex ← complex.getSimplex pair.2
  return .finite birthSimplex.weight deathSimplex.weight birthSimplex.dimension

def unpairedInterval (complex : SimplicialComplex) (col : Nat) : Option PersistenceInterval := do
  let simplex ← complex.getSimplex col
  return .infinite simplex.weight simplex.dimension

def PersistenceData.fromReduction (order : HashMap.Order) (result : ReductionResult)
    (complex : SimplicialComplex) : Option PersistenceData := do
  let paired ← (order.iterate (HashMap.pairs result.pairs)).mapM (pairInterval complex)
  let infinite ← result.unpaired.mapM (unpairedInterval complex)
  return (paired ++ infinite).foldl PersistenceData.record PersistenceData.new

def PersistenceData.getDiagram (data : PersistenceData) (dimension : Nat) : Option PersistenceDiagram :=
  data.diagrams.lookup dimension

/-- The intervals held for one dimension, as a multiset. -/
def PersistenceData.intervals (data : PersistenceData) (dimension : Nat) : Multiset PersistenceInterval :=
  ((data.getDiagram dimension).map PersistenceDiagram.intervals).getD []

end AdicModel.Finality
