import AdicCore.Finality.BatchHomology
import AdicCore.Finality.BottleneckDistance
import AdicCore.Finality.Engine

namespace AdicModel.Finality

structure F2Config where
  dimension : Nat
  radius : Nat
  axis : UInt32
  epsilon : ℚ
  timeoutMs : Nat
  maxBettiD : Nat
  minPersistence : ℚ

def F2Config.default : F2Config := ⟨3, 5, 0, 1 / 10, 2000, 2, 1 / 100⟩

/-- A checker in batch mode. -/
structure F2FinalityChecker where
  config : F2Config
  previousHDMinus1 : Option PersistenceDiagram

/-- What a check receives, the orders of the ball map and of the pairs, and the milliseconds passed at each look at
    the clock. -/
structure F2Check where
  messages : List AdicMessage
  ballOrder : HashMap.Order
  pairOrder : HashMap.Order
  elapsed : Nat × Nat × Nat

def PersistenceDiagram.filterByPersistence (diagram : PersistenceDiagram) (minPersistence : Weight) :
    List PersistenceInterval :=
  diagram.intervals.filter fun interval => interval.death.all fun death => minPersistence ≤ death - interval.birth

def checkHDStabilityImpl (persistence : PersistenceData) (d maxBettiD : Nat) (minPersistence : Weight) : Bool :=
  match persistence.getDiagram d with
  | some hD =>
    if hD.numInfinite > maxBettiD then false
    else
      let finiteBars := hD.filterByPersistence minPersistence
      let totalBars := hD.intervals.length
      !(decide (totalBars > 0) && decide (finiteBars.length < totalBars / 2))
  | none => false

/-- `dimension - 1` of a `usize`. -/
def F2Config.dimensionMinus1 (config : F2Config) : Nat := (config.dimension + (2 ^ 64 - 1)) % 2 ^ 64

namespace F2FinalityChecker

def new (config : F2Config) : F2FinalityChecker := ⟨config, none⟩

def evaluateFinalityConditions (checker : F2FinalityChecker) (hDStable : Bool) (bottleneckDist : Option ℚ)
    (messages : List AdicMessage) : F2Result :=
  if hDStable then
    match bottleneckDist with
    | some dist =>
      if dist < checker.config.epsilon then
        let confidence := (checker.config.epsilon - dist) / checker.config.epsilon
        .final true dist (max 0 (min confidence 1)) (messages.map AdicMessage.id)
      else .pending
    | none => .pending
  else .pending

/-- `none` is a panic. -/
def checkFinalityBatch (check : F2Check) (checker : F2FinalityChecker) : Option (F2Result × F2FinalityChecker) :=
  let config := checker.config
  if check.messages.isEmpty then some (.pending, checker)
  else do
    let built ← AdicComplexBuilder.new.buildFromMessages check.ballOrder
      (check.messages.length.choose (config.dimension + 1)) check.messages config.axis config.radius config.dimension
    let complex := built.complex
    if complex.numSimplices = 0 then return (.pending, checker)
    if check.elapsed.1 > config.timeoutMs then return (.timeout, checker)
    let reductionResult ← reduceBoundaryMatrix (complex.numSimplices + 1) (BoundaryMatrix.fromComplex complex)
    if check.elapsed.2.1 > config.timeoutMs then return (.timeout, checker)
    let persistence ← PersistenceData.fromReduction check.pairOrder reductionResult complex
    let hDStable := checkHDStabilityImpl persistence config.dimension config.maxBettiD config.minPersistence
    match persistence.getDiagram config.dimensionMinus1 with
    | none => return (checker.evaluateFinalityConditions hDStable none check.messages, checker)
    | some current =>
      let stored := { checker with previousHDMinus1 := some current }
      match checker.previousHDMinus1 with
      | none => return (checker.evaluateFinalityConditions hDStable none check.messages, stored)
      | some previous =>
        if check.elapsed.2.2 > config.timeoutMs then return (.timeout, checker)
        let bottleneckDist ← bottleneckDistance previous current
        return (checker.evaluateFinalityConditions hDStable (some bottleneckDist) check.messages, stored)

def checkAll (checker : F2FinalityChecker) (checks : List F2Check) : Option F2FinalityChecker :=
  checks.foldlM (fun checker check => (checkFinalityBatch check checker).map Prod.snd) checker

end F2FinalityChecker

end AdicModel.Finality

open AdicModel AdicModel.Finality AdicModel.Finality.F2FinalityChecker

namespace AdicProof.Finality

structure Window (config : F2Config) (check : F2Check) (complex : SimplicialComplex) (data : PersistenceData) :
    Prop where
  built : ∃ built, built.complex = complex ∧ AdicComplexBuilder.new.buildFromMessages check.ballOrder
    (check.messages.length.choose (config.dimension + 1)) check.messages config.axis config.radius config.dimension =
      some built
  reduced : ∃ result, reduceBoundaryMatrix (complex.numSimplices + 1) (.fromComplex complex) = some result ∧
    PersistenceData.fromReduction check.pairOrder result complex = some data
  betti : ∀ k, (((data.getDiagram k).map PersistenceDiagram.numInfinite).getD 0 : ℤ) = bettiNumber complex k
  dimension : ∀ k diagram, data.getDiagram k = some diagram → diagram.dimension = k

section

variable (config : F2Config) (before : List F2Check)

/-- The diagram is that of an earlier check. -/
def Earlier (diagram : PersistenceDiagram) : Prop :=
  ∃ check ∈ before, ∃ complex data, Window config check complex data ∧
    data.getDiagram config.dimensionMinus1 = some diagram

/-- The top homology is small, and the one below it is nearer to that of an earlier check than the threshold. -/
def Justified (check : F2Check) : F2Result → Prop
  | .final _ distance _ finalizedMessages =>
    finalizedMessages = check.messages.map AdicMessage.id ∧ distance < config.epsilon ∧
      ∃ complex data previous current, Window config check complex data ∧
        bettiNumber complex config.dimension ≤ config.maxBettiD ∧ Earlier config before previous ∧
          data.getDiagram config.dimensionMinus1 = some current ∧
            (costs previous.finitePoints current.finitePoints).optimum ≤ distance
  | _ => True

structure Remembers (checker : F2FinalityChecker) : Prop where
  same : checker.config = config
  previous : ∀ diagram, checker.previousHDMinus1 = some diagram → Earlier config before diagram

end

variable {config : F2Config} {checker : F2FinalityChecker} {before : List F2Check} {check : F2Check}

theorem dimension_fromReduction {order : HashMap.Order} {result : ReductionResult} {complex : SimplicialComplex}
    {data : PersistenceData} (computed : PersistenceData.fromReduction order result complex = some data) :
    ∀ k diagram, data.getDiagram k = some diagram → diagram.dimension = k := by
  obtain ⟨paired, -, rest⟩ := Option.bind_eq_some_iff.mp computed
  obtain ⟨infinite, -, same⟩ := Option.bind_eq_some_iff.mp rest
  cases same
  refine List.foldlRecOn (motive := fun data : PersistenceData =>
    ∀ k diagram, data.getDiagram k = some diagram → diagram.dimension = k) _ _ (fun _ _ found => nomatch found) ?_
  intro data dimensions interval _ k diagram found
  unfold PersistenceData.record PersistenceData.getDiagram at found
  rw [HashMap.lookup_insert_eq] at found
  split at found
  · next same =>
    cases found
    show ((data.diagrams.lookup interval.dimension).getD _).dimension = k
    rw [same]
    cases held : data.diagrams.lookup interval.dimension with
    | none => rfl
    | some earlier => exact dimensions _ earlier held
  · exact dimensions k diagram found

theorem exists_window (config : F2Config) (distinct : (check.messages.map AdicMessage.id).Nodup) :
    ∃ complex data, Window config check complex data := by
  obtain ⟨built, building, batch⟩ :=
    buildFromMessages_spec check.ballOrder distinct config.axis config.radius config.dimension
  obtain ⟨reduced, data, reducing, computed, -⟩ :=
    reduceBoundaryMatrix_reduced batch.labels batch.wellFormed batch.facesPresent batch.weights check.pairOrder
  exact ⟨built.complex, data, ⟨built, rfl, building _ (le_refl _)⟩, ⟨_, reducing _ (Nat.lt_succ_self _), computed⟩,
    numInfinite_eq_betti batch.wellFormed batch.facesPresent reducing computed, dimension_fromReduction computed⟩

theorem justified_evaluate {complex : SimplicialComplex} {data : PersistenceData} {distance : Option ℚ}
    (window : Window config check complex data) (same : checker.config = config)
    (close : ∀ value, distance = some value → ∃ previous current, Earlier config before previous ∧
      data.getDiagram config.dimensionMinus1 = some current ∧
        (costs previous.finitePoints current.finitePoints).optimum ≤ value) :
    Justified config before check (checker.evaluateFinalityConditions
      (checkHDStabilityImpl data config.dimension config.maxBettiD config.minPersistence) distance check.messages) := by
  unfold evaluateFinalityConditions
  split
  · next stable =>
    cases distance with
    | none => trivial
    | some value =>
      dsimp only
      split
      · next below =>
        obtain ⟨previous, current, earlier, found, near⟩ := close value rfl
        refine ⟨rfl, same ▸ below, complex, data, previous, current, window, ?_, earlier, found, near⟩
        rw [← window.betti]
        unfold checkHDStabilityImpl at stable
        split at stable
        · next hD held =>
          split at stable
          · cases stable
          · next few =>
            rw [held]
            exact_mod_cast not_lt.mp few
        · cases stable
      · trivial
  · trivial

theorem checkFinalityBatch_justified (remembers : Remembers config before checker)
    (distinct : (check.messages.map AdicMessage.id).Nodup) :
    ∃ result next, checker.checkFinalityBatch check = some (result, next) ∧ Justified config before check result ∧
      Remembers config (before ++ [check]) next := by
  obtain ⟨complex, data, window⟩ := exists_window config distinct
  obtain ⟨built, rfl, building⟩ := window.built
  obtain ⟨result, reducing, computed⟩ := window.reduced
  have kept : Remembers config (before ++ [check]) checker := by
    refine ⟨remembers.same, fun diagram held => ?_⟩
    obtain ⟨earlier, listed, seen⟩ := remembers.previous diagram held
    exact ⟨earlier, List.mem_append_left _ listed, seen⟩
  unfold checkFinalityBatch
  rw [remembers.same]
  dsimp only
  split
  · exact ⟨_, _, rfl, trivial, kept⟩
  rw [building, Option.bind_eq_bind, Option.bind_some]
  split
  · exact ⟨_, _, rfl, trivial, kept⟩
  split
  · exact ⟨_, _, rfl, trivial, kept⟩
  rw [reducing, Option.bind_eq_bind, Option.bind_some]
  split
  · exact ⟨_, _, rfl, trivial, kept⟩
  rw [computed, Option.bind_eq_bind, Option.bind_some]
  split
  · exact ⟨_, _, rfl, justified_evaluate window remembers.same (by simp), kept⟩
  · next current found =>
    have stored : Remembers config (before ++ [check]) ⟨config, some current⟩ := by
      refine ⟨rfl, fun diagram held => ?_⟩
      cases held
      exact ⟨check, List.mem_append_right _ (List.mem_singleton_self _), _, data, window, found⟩
    split
    · exact ⟨_, _, rfl, justified_evaluate window remembers.same (by simp), stored⟩
    · next previous held =>
      split
      · exact ⟨_, _, rfl, trivial, kept⟩
      obtain ⟨_, -, _, _, other, seen⟩ := remembers.previous previous held
      obtain ⟨distance, returned, near⟩ := bottleneckDistance_bounds
        ((other.dimension _ previous seen).trans (window.dimension _ current found).symm)
      rw [returned, Option.bind_eq_bind, Option.bind_some]
      refine ⟨_, _, rfl, justified_evaluate window remembers.same ?_, stored⟩
      rintro _ ⟨⟩
      exact ⟨previous, current, remembers.previous previous held, found, near⟩

/-- Every check returns, and what it declares final is justified. -/
theorem f2_finality_justified (config : F2Config) (checks : List F2Check)
    (distinct : ∀ check ∈ checks, (check.messages.map AdicMessage.id).Nodup) :
    ∀ before check, before ++ [check] <+: checks → ∃ checker result next,
      (F2FinalityChecker.new config).checkAll before = some checker ∧
        checker.checkFinalityBatch check = some (result, next) ∧ Justified config before check result := by
  have step {before check checker} (part : before ++ [check] <+: checks) (remembers : Remembers config before checker) :=
    checkFinalityBatch_justified remembers (distinct check (part.mem List.mem_concat_self))
  have remembers : ∀ before, before <+: checks → ∃ checker,
      (F2FinalityChecker.new config).checkAll before = some checker ∧ Remembers config before checker := by
    refine Runs.forall_prefixes ⟨_, rfl, rfl, fun diagram held => nomatch held⟩ ?_
    rintro before check part ⟨checker, run, remembers⟩
    obtain ⟨result, next, answered, -, kept⟩ := step part remembers
    refine ⟨next, ?_, kept⟩
    unfold checkAll at run ⊢
    rw [List.foldlM_append, run]
    show (checker.checkFinalityBatch check).map Prod.snd >>= pure = _
    rw [answered]
    rfl
  intro before check part
  obtain ⟨checker, run, remembers⟩ := remembers before ((List.prefix_append _ _).trans part)
  obtain ⟨result, next, answered, justified, -⟩ := step part remembers
  exact ⟨checker, result, next, run, answered, justified⟩

def loops : F2Config := { F2Config.default with dimension := 1 }

def tripleCheck : F2Check := ⟨[neighbour 1 10, neighbour 2 20, neighbour 3 30], .stored, .stored, 0, 0, 0⟩

/-- The second check of the same messages answers final. -/
def answersFinal : F2Result → Bool
  | .final isStable _ _ _ => isStable
  | .pending => false
  | .timeout => false
  | .error _ => false

theorem f2_finality_justified_triple : ∃ checker distance confidence finalized next,
    (F2FinalityChecker.new loops).checkAll [tripleCheck] = some checker ∧
      checker.checkFinalityBatch tripleCheck = some (.final true distance confidence finalized, next) ∧
      Justified loops [tripleCheck] tripleCheck (.final true distance confidence finalized) := by
  obtain ⟨checker, result, next, run, answered, justified⟩ :=
    f2_finality_justified loops [tripleCheck, tripleCheck] (by decide) [tripleCheck] tripleCheck (List.prefix_refl _)
  have final : (((F2FinalityChecker.new loops).checkAll [tripleCheck]).bind fun checker =>
      (checker.checkFinalityBatch tripleCheck).map fun answer => answersFinal answer.1) = some true := by
    decide +kernel
  rw [run, Option.bind_some, answered] at final
  cases result with
  | final isStable distance confidence finalized =>
    obtain rfl : isStable = true := Option.some.inj final
    exact ⟨checker, distance, confidence, finalized, next, run, answered, justified⟩
  | timeout | pending | error => cases final

end AdicProof.Finality
