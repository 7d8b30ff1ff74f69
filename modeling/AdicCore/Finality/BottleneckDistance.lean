import AdicCore.Finality.Persistence
import AdicCore.Library.Bottleneck

namespace AdicModel.Finality

abbrev Point := Weight × Weight

def PersistenceDiagram.finitePoints (diagram : PersistenceDiagram) : List Point :=
  diagram.intervals.filterMap fun interval => interval.death.map fun death => (interval.birth, death)

def linfDistance (p1 p2 : Point) : Weight := max |p1.1 - p2.1| |p1.2 - p2.2|

def distanceToDiagonal (p : Point) : Weight := |p.2 - p.1| / 2

structure MatchState where
  match1 : Nat → Option Nat
  match2 : Nat → Option Nat
  visited : Nat → Bool

namespace MatchState

def new : MatchState := ⟨fun _ => none, fun _ => none, fun _ => false⟩

def visit (state : MatchState) (j : Nat) : MatchState := { state with visited := Function.update state.visited j true }

def pair (state : MatchState) (i j : Nat) : MatchState :=
  { state with
    match1 := Function.update state.match1 i (some j)
    match2 := Function.update state.match2 j (some i) }

end MatchState

def tryCandidates (augment : Nat → MatchState → Bool × MatchState) (epsilon : Weight) (i : Nat) (point : Point) :
    List (Point × Nat) → MatchState → Bool × MatchState
  | [], state => (false, state)
  | (candidate, j) :: rest, state =>
    if linfDistance point candidate ≤ epsilon ∧ state.visited j = false then
      match state.match2 j with
      | none => (true, (state.visit j).pair i j)
      | some jMatch =>
        let result := augment jMatch (state.visit j)
        if result.1 then (true, result.2.pair i j) else tryCandidates augment epsilon i point rest result.2
    else tryCandidates augment epsilon i point rest state

section

variable (points1 points2 : List Point) (epsilon : Weight)

/-- Every nested call has visited one more point. -/
def findAugmentingPath : Nat → Nat → MatchState → Bool × MatchState
  | 0, _, state => (false, state)
  | fuel + 1, i, state =>
    match points1[i]? with
    | none => (false, state)
    | some point => tryCandidates (findAugmentingPath fuel) epsilon i point points2.zipIdx state

def augmentFrom (round : Bool × MatchState) (i : Nat) : Bool × MatchState :=
  if round.2.match1 i = none ∧ round.2.visited i = false then
    let result := findAugmentingPath points1 points2 epsilon (points2.length + 1) i round.2
    (round.1 || result.1, result.2)
  else round

def augmentRound (n : Nat) (state : MatchState) : Bool × MatchState :=
  (List.range n).foldl (augmentFrom points1 points2 epsilon) (false, { state with visited := fun _ => false })

def augmentRounds (n : Nat) : Nat → MatchState → MatchState
  | 0, state => state
  | rounds + 1, state =>
    let result := augmentRound points1 points2 epsilon n state
    if result.1 then augmentRounds n rounds result.2 else result.2

def augmented : MatchState :=
  let n := max points1.length points2.length
  augmentRounds points1 points2 epsilon n n .new

def hasPerfectMatching : Bool :=
  let state := augmented points1 points2 epsilon
  (points1.zipIdx.all fun (point, i) => state.match1 i ≠ none || distanceToDiagonal point ≤ epsilon) &&
    points2.zipIdx.all fun (point, j) => state.match2 j ≠ none || distanceToDiagonal point ≤ epsilon

def allDistances : List Weight :=
  (points1.flatMap fun p1 => points2.map fun p2 => linfDistance p1 p2) ++ points1.map distanceToDiagonal ++
    points2.map distanceToDiagonal

/-- Sorted, without equal neighbours. -/
def candidateDistances : List Weight := ((allDistances points1 points2).insertionSort (· ≤ ·)).destutter (· ≠ ·)

end

/-- `none` is the panic on different dimensions. -/
def bottleneckDistance (diag1 diag2 : PersistenceDiagram) : Option Weight :=
  if diag1.dimension ≠ diag2.dimension then none
  else
    let points1 := diag1.finitePoints
    let points2 := diag2.finitePoints
    if points1.isEmpty && points2.isEmpty then some 0
    else if (allDistances points1 points2).isEmpty then some 0
    else
      let candidates := candidateDistances points1 points2
      let feasible := fun mid => candidates[mid]?.any (hasPerfectMatching points1 points2)
      let right := candidates.length - 1
      candidates[Bottleneck.search feasible right 0 right]?

end AdicModel.Finality

open AdicModel.Finality

namespace AdicProof.Finality

def Close (points1 points2 : List Point) (epsilon : Weight) (i j : Nat) : Prop :=
  ∃ p q, points1[i]? = some p ∧ points2[j]? = some q ∧ linfDistance p q ≤ epsilon

def Grows (state next : MatchState) : Prop := ∀ j, state.visited j = true → next.visited j = true

structure Coupled (points1 points2 : List Point) (epsilon : Weight) (state : MatchState) : Prop where
  forward : ∀ i j, state.match1 i = some j → state.match2 j = some i
  backward : ∀ i j, state.match2 j = some i → state.match1 i = some j
  close : ∀ i j, state.match1 i = some j → Close points1 points2 epsilon i j

def Entered (state : MatchState) (i : Nat) : Prop := ∀ j, state.match2 j = some i → state.visited j = true

structure Augments (points1 points2 : List Point) (epsilon : Weight) (state next : MatchState) (i : Nat) : Prop where
  fresh : ∃ j, state.visited j = false ∧ next.match1 i = some j
  forward : ∀ a b, next.match1 a = some b → next.match2 b = some a
  backward : ∀ a b, next.match2 b = some a → next.match1 a = some b ∨ a = i ∧ state.match1 i = some b
  close : ∀ a b, next.match1 a = some b → Close points1 points2 epsilon a b
  kept1 : ∀ a, a ≠ i → Entered state a → next.match1 a = state.match1 a
  kept2 : ∀ b, state.visited b = true → next.match2 b = state.match2 b

structure Vacated (points1 points2 : List Point) (epsilon : Weight) (state next : MatchState) (j : Nat) : Prop where
  vacant : ∀ a, next.match1 a ≠ some j
  forward : ∀ a b, next.match1 a = some b → next.match2 b = some a
  backward : ∀ a b, b ≠ j → next.match2 b = some a → next.match1 a = some b
  close : ∀ a b, next.match1 a = some b → Close points1 points2 epsilon a b
  kept1 : ∀ a, Entered state a → next.match1 a = state.match1 a
  kept2 : ∀ b, state.visited b = true → next.match2 b = state.match2 b

section

variable {points1 points2 : List Point} {epsilon : Weight} {state next : MatchState} {i j : Nat}

theorem visit_grows (j : Nat) : Grows state (state.visit j) := by
  intro b visited
  by_cases same : b = j
  · rw [same]
    exact Function.update_self _ _ _
  · exact (Function.update_of_ne same _ _).trans visited

theorem entered_congr (entered : Entered state i) (same2 : next.match2 = state.match2) (grows : Grows state next) :
    Entered next i := by
  intro b partner
  rw [same2] at partner
  exact grows b (entered b partner)

theorem augments_of_vacated (vacated : Vacated points1 points2 epsilon state next j) (entered : Entered state i)
    (unvisited : state.visited j = false) (near : Close points1 points2 epsilon i j) :
    Augments points1 points2 epsilon state (next.pair i j) i := by
  have own : (next.pair i j).match1 i = some j := Function.update_self _ _ _
  have others : ∀ a, a ≠ i → (next.pair i j).match1 a = next.match1 a := fun a different =>
    Function.update_of_ne different _ _
  have partner : (next.pair i j).match2 j = some i := Function.update_self _ _ _
  have partners : ∀ b, b ≠ j → (next.pair i j).match2 b = next.match2 b := fun b different =>
    Function.update_of_ne different _ _
  refine ⟨⟨j, unvisited, own⟩, ?_, ?_, ?_, ?_, ?_⟩
  · intro a b matched
    by_cases same : a = i
    · rw [same, own] at matched
      cases matched
      rw [same, partner]
    · rw [others a same] at matched
      have different : b ≠ j := by
        rintro rfl
        exact vacated.vacant a matched
      rw [partners b different]
      exact vacated.forward a b matched
  · intro a b matched
    by_cases last : b = j
    · rw [last, partner] at matched
      cases matched
      exact Or.inl (by rw [own, last])
    · rw [partners b last] at matched
      have before := vacated.backward a b last matched
      by_cases same : a = i
      · rw [same] at before
        exact Or.inr ⟨same, (vacated.kept1 i entered).symm.trans before⟩
      · exact Or.inl ((others a same).trans before)
  · intro a b matched
    by_cases same : a = i
    · rw [same, own] at matched
      cases matched
      exact same ▸ near
    · rw [others a same] at matched
      exact vacated.close a b matched
  · intro a different enteredA
    rw [others a different]
    exact vacated.kept1 a enteredA
  · intro b visited
    have different : b ≠ j := by
      rintro rfl
      rw [unvisited] at visited
      cases visited
    rw [partners b different]
    exact vacated.kept2 b visited

theorem vacated_of_free (coupled : Coupled points1 points2 epsilon state) (free : state.match2 j = none) :
    Vacated points1 points2 epsilon state (state.visit j) j := by
  refine ⟨?_, coupled.forward, fun a b _ => coupled.backward a b, coupled.close, fun a _ => rfl, fun b _ => rfl⟩
  intro a matched
  have partner := coupled.forward a j matched
  rw [free] at partner
  cases partner

theorem vacated_of_moved (coupled : Coupled points1 points2 epsilon state) (unvisited : state.visited j = false)
    {jMatch : Nat} (taken : state.match2 j = some jMatch)
    (moved : Augments points1 points2 epsilon (state.visit j) next jMatch) :
    Vacated points1 points2 epsilon state next j := by
  have visitedNow : (state.visit j).visited j = true := Function.update_self _ _ _
  have former := coupled.backward jMatch j taken
  have notMoved : ∀ a, Entered state a → a ≠ jMatch := by
    rintro a entered rfl
    rw [entered j taken] at unvisited
    cases unvisited
  refine ⟨?_, moved.forward, ?_, moved.close, ?_, ?_⟩
  · intro a matched
    have partner := moved.forward a j matched
    rw [moved.kept2 j visitedNow] at partner
    have same : jMatch = a := Option.some.inj (taken.symm.trans partner)
    obtain ⟨later, fresh, assigned⟩ := moved.fresh
    rw [same, matched] at assigned
    cases assigned
    rw [visitedNow] at fresh
    cases fresh
  · intro a b different matched
    rcases moved.backward a b matched with kept | ⟨_, old⟩
    · exact kept
    · exact absurd (Option.some.inj (old.symm.trans former)) different
  · intro a entered
    exact moved.kept1 a (notMoved a entered) (entered_congr entered rfl (visit_grows j))
  · intro b visited
    exact moved.kept2 b (visit_grows j b visited)

variable {rest : List (Point × Nat)}

theorem tryCandidates_grows {augment : Nat → MatchState → Bool × MatchState} {point : Point}
    (ih : ∀ i state, Grows state (augment i state).2) :
    Grows state (tryCandidates augment epsilon i point rest state).2 := by
  intro b visited
  induction rest generalizing state with
  | nil => exact visited
  | cons item rest tail =>
    obtain ⟨candidate, j⟩ := item
    rw [tryCandidates]
    by_cases reachable : linfDistance point candidate ≤ epsilon ∧ state.visited j = false
    · rw [if_pos reachable]
      have visitedNow := visit_grows j b visited
      cases state.match2 j with
      | none => exact visitedNow
      | some jMatch =>
        have inner := ih jMatch (state.visit j) b visitedNow
        dsimp only
        by_cases success : (augment jMatch (state.visit j)).1 = true
        · rw [if_pos success]
          exact inner
        · rw [if_neg success]
          exact tail inner
    · rw [if_neg reachable]
      exact tail visited

theorem findAugmentingPath_grows (fuel : Nat) :
    Grows state (findAugmentingPath points1 points2 epsilon fuel i state).2 := by
  induction fuel generalizing i state with
  | zero => exact fun _ visited => visited
  | succ fuel ih =>
    rw [findAugmentingPath]
    cases points1[i]? with
    | none => exact fun _ visited => visited
    | some point => exact tryCandidates_grows fun i state => ih

structure Searched (points1 points2 : List Point) (epsilon : Weight) (state : MatchState) (i : Nat)
    (result : Bool × MatchState) : Prop where
  augments : result.1 = true → Augments points1 points2 epsilon state result.2 i
  unmoved1 : result.1 = false → result.2.match1 = state.match1
  unmoved2 : result.1 = false → result.2.match2 = state.match2

theorem searched_false : Searched points1 points2 epsilon state i (false, state) := by
  refine ⟨fun success => ?_, fun _ => rfl, fun _ => rfl⟩
  cases success

theorem searched_true (augments : Augments points1 points2 epsilon state next i) :
    Searched points1 points2 epsilon state i (true, next) := by
  refine ⟨fun _ => augments, fun failure => ?_, fun failure => ?_⟩
  · cases failure
  · cases failure

theorem coupled_congr (coupled : Coupled points1 points2 epsilon state) (same1 : next.match1 = state.match1)
    (same2 : next.match2 = state.match2) : Coupled points1 points2 epsilon next := by
  refine ⟨?_, ?_, ?_⟩
  · rw [same1, same2]
    exact coupled.forward
  · rw [same1, same2]
    exact coupled.backward
  · rw [same1]
    exact coupled.close

theorem searched_of_unmoved {result : Bool × MatchState} (same1 : next.match1 = state.match1)
    (same2 : next.match2 = state.match2) (grows : Grows state next)
    (searched : Searched points1 points2 epsilon next i result) : Searched points1 points2 epsilon state i result := by
  refine ⟨fun success => ?_, fun failure => ?_, fun failure => ?_⟩
  · obtain ⟨⟨j, unvisited, assigned⟩, forward, backward, close, kept1, kept2⟩ := searched.augments success
    refine ⟨⟨j, ?_, assigned⟩, forward, ?_, close, ?_, ?_⟩
    · by_contra visited
      rw [Bool.not_eq_false] at visited
      rw [grows j visited] at unvisited
      cases unvisited
    · rwa [same1] at backward
    · intro a different entered
      rw [kept1 a different (entered_congr entered same2 grows), same1]
    · intro b visited
      rw [kept2 b (grows b visited), same2]
  · rw [searched.unmoved1 failure, same1]
  · rw [searched.unmoved2 failure, same2]

theorem entered_of_taken (coupled : Coupled points1 points2 epsilon state) {jMatch : Nat}
    (taken : state.match2 j = some jMatch) : Entered (state.visit j) jMatch := by
  intro b partner
  have former := coupled.backward jMatch j taken
  have same : j = b := Option.some.inj (former.symm.trans (coupled.backward jMatch b partner))
  rw [← same]
  exact Function.update_self _ _ _

theorem tryCandidates_searched {augment : Nat → MatchState → Bool × MatchState} {point : Point}
    (growing : ∀ i state, Grows state (augment i state).2)
    (ih : ∀ i state, Coupled points1 points2 epsilon state → Entered state i →
      Searched points1 points2 epsilon state i (augment i state))
    (listed : ∀ item ∈ rest, points2[item.2]? = some item.1)
    (inside : points1[i]? = some point) (coupled : Coupled points1 points2 epsilon state) (entered : Entered state i) :
    Searched points1 points2 epsilon state i (tryCandidates augment epsilon i point rest state) := by
  induction rest generalizing state with
  | nil => exact searched_false
  | cons item rest tail =>
    obtain ⟨candidate, j⟩ := item
    have candidateAt : points2[j]? = some candidate := listed _ List.mem_cons_self
    have later : ∀ item ∈ rest, points2[item.2]? = some item.1 := fun item member =>
      listed item (List.mem_cons_of_mem _ member)
    rw [tryCandidates]
    by_cases reachable : linfDistance point candidate ≤ epsilon ∧ state.visited j = false
    · rw [if_pos reachable]
      have near : Close points1 points2 epsilon i j := ⟨point, candidate, inside, candidateAt, reachable.1⟩
      cases taken : state.match2 j with
      | none =>
        have vacated := vacated_of_free coupled taken
        exact searched_true (augments_of_vacated vacated entered reachable.2 near)
      | some jMatch =>
        have inner := ih jMatch (state.visit j) (coupled_congr coupled rfl rfl) (entered_of_taken coupled taken)
        dsimp only
        by_cases success : (augment jMatch (state.visit j)).1 = true
        · rw [if_pos success]
          have vacated := vacated_of_moved coupled reachable.2 taken (inner.augments success)
          exact searched_true (augments_of_vacated vacated entered reachable.2 near)
        · rw [if_neg success]
          rw [Bool.not_eq_true] at success
          have same1 := inner.unmoved1 success
          have same2 := inner.unmoved2 success
          have grows : Grows state (augment jMatch (state.visit j)).2 := fun b visited =>
            growing jMatch _ b (visit_grows j b visited)
          exact searched_of_unmoved same1 same2 grows
            (tail later (coupled_congr coupled same1 same2) (entered_congr entered same2 grows))
    · rw [if_neg reachable]
      exact tail later coupled entered

theorem findAugmentingPath_searched (fuel : Nat) (coupled : Coupled points1 points2 epsilon state)
    (entered : Entered state i) :
    Searched points1 points2 epsilon state i (findAugmentingPath points1 points2 epsilon fuel i state) := by
  induction fuel generalizing i state with
  | zero => exact searched_false
  | succ fuel ih =>
    rw [findAugmentingPath]
    cases inside : points1[i]? with
    | none => exact searched_false
    | some point =>
      exact tryCandidates_searched (fun i state => findAugmentingPath_grows fuel)
        (fun i state coupled entered => ih coupled entered)
        (fun item member => List.mk_mem_zipIdx_iff_getElem?.mp member) inside coupled entered

def unvisited (points2 : List Point) (state : MatchState) : Finset Nat :=
  (Finset.range points2.length).filter fun j => state.visited j = false

theorem unvisited_subset (grows : Grows state next) : unvisited points2 next ⊆ unvisited points2 state := by
  intro b member
  obtain ⟨below, notNext⟩ := Finset.mem_filter.mp member
  refine Finset.mem_filter.mpr ⟨below, ?_⟩
  by_contra visited
  rw [grows b (Bool.not_eq_false _ ▸ visited)] at notNext
  cases notNext

theorem card_unvisited_visit (below : j < points2.length) (reachable : state.visited j = false) :
    (unvisited points2 (state.visit j)).card < (unvisited points2 state).card := by
  apply Finset.card_lt_card
  refine ⟨unvisited_subset (visit_grows j), fun back => ?_⟩
  have member := back (Finset.mem_filter.mpr ⟨Finset.mem_range.mpr below, reachable⟩)
  have closed : (state.visit j).visited j = false := (Finset.mem_filter.mp member).2
  rw [show (state.visit j).visited j = true from Function.update_self _ _ _] at closed
  cases closed

theorem tryCandidates_congr {augment other : Nat → MatchState → Bool × MatchState} {point : Point} {bound : Nat}
    (growing : ∀ i state, Grows state (augment i state).2)
    (same : ∀ i state, (unvisited points2 state).card < bound → augment i state = other i state)
    (listed : ∀ item ∈ rest, points2[item.2]? = some item.1)
    (few : (unvisited points2 state).card ≤ bound) :
    tryCandidates augment epsilon i point rest state = tryCandidates other epsilon i point rest state := by
  induction rest generalizing state with
  | nil => rfl
  | cons item rest tail =>
    obtain ⟨candidate, j⟩ := item
    have below : j < points2.length := (List.getElem?_eq_some_iff.mp (listed _ List.mem_cons_self)).1
    have later : ∀ item ∈ rest, points2[item.2]? = some item.1 := fun item member =>
      listed item (List.mem_cons_of_mem _ member)
    rw [tryCandidates, tryCandidates]
    by_cases reachable : linfDistance point candidate ≤ epsilon ∧ state.visited j = false
    · rw [if_pos reachable, if_pos reachable]
      cases state.match2 j with
      | none => rfl
      | some jMatch =>
        have fewer := (card_unvisited_visit below reachable.2).trans_le few
        have inner : (unvisited points2 (augment jMatch (state.visit j)).2).card ≤ bound :=
          (Finset.card_le_card (unvisited_subset (growing jMatch (state.visit j)))).trans fewer.le
        dsimp only
        rw [← same jMatch _ fewer, tail later inner]
    · rw [if_neg reachable, if_neg reachable, tail later few]

theorem findAugmentingPath_fuel {fuel more : Nat} (enough : (unvisited points2 state).card < fuel)
    (enoughMore : (unvisited points2 state).card < more) :
    findAugmentingPath points1 points2 epsilon fuel i state =
      findAugmentingPath points1 points2 epsilon more i state := by
  induction fuel generalizing more i state with
  | zero => exact absurd enough (Nat.not_lt_zero _)
  | succ fuel ih =>
    cases more with
    | zero => exact absurd enoughMore (Nat.not_lt_zero _)
    | succ more =>
      rw [findAugmentingPath, findAugmentingPath]
      cases points1[i]? with
      | none => rfl
      | some point =>
        exact tryCandidates_congr (fun i state => findAugmentingPath_grows fuel)
          (fun i state fewer => ih (fewer.trans_le (Nat.le_of_lt_succ enough))
            (fewer.trans_le (Nat.le_of_lt_succ enoughMore)))
          (fun item member => List.mk_mem_zipIdx_iff_getElem?.mp member) (le_refl _)

theorem card_unvisited_lt (points2 : List Point) (state : MatchState) :
    (unvisited points2 state).card < points2.length + 1 := by
  have bound := Finset.card_le_card (Finset.filter_subset (fun j => state.visited j = false) (.range points2.length))
  rw [Finset.card_range] at bound
  exact Nat.lt_succ_of_le bound

theorem findAugmentingPath_coupled (fuel : Nat) (coupled : Coupled points1 points2 epsilon state)
    (free : state.match1 i = none) :
    Coupled points1 points2 epsilon (findAugmentingPath points1 points2 epsilon fuel i state).2 := by
  have entered : Entered state i := by
    intro b partner
    rw [coupled.backward i b partner] at free
    cases free
  have searched := findAugmentingPath_searched fuel coupled entered
  by_cases success : (findAugmentingPath points1 points2 epsilon fuel i state).1 = true
  · have augments := searched.augments success
    refine ⟨augments.forward, fun a b partner => ?_, augments.close⟩
    rcases augments.backward a b partner with matched | ⟨_, former⟩
    · exact matched
    · rw [free] at former
      cases former
  · rw [Bool.not_eq_true] at success
    exact coupled_congr coupled (searched.unmoved1 success) (searched.unmoved2 success)

theorem augmentRound_coupled {n : Nat} (coupled : Coupled points1 points2 epsilon state) :
    Coupled points1 points2 epsilon (augmentRound points1 points2 epsilon n state).2 := by
  rw [augmentRound]
  refine List.foldlRecOn (motive := fun round : Bool × MatchState => Coupled points1 points2 epsilon round.2) _ _ ?_ ?_
  · exact coupled_congr coupled rfl rfl
  · intro round before i _
    rw [augmentFrom]
    by_cases tried : round.2.match1 i = none ∧ round.2.visited i = false
    · rw [if_pos tried]
      exact findAugmentingPath_coupled _ before tried.1
    · rw [if_neg tried]
      exact before

theorem augmentRounds_coupled {n : Nat} (rounds : Nat) (coupled : Coupled points1 points2 epsilon state) :
    Coupled points1 points2 epsilon (augmentRounds points1 points2 epsilon n rounds state) := by
  induction rounds generalizing state with
  | zero => exact coupled
  | succ rounds ih =>
    rw [augmentRounds]
    split
    · exact ih (augmentRound_coupled coupled)
    · exact augmentRound_coupled coupled

theorem augmented_coupled (points1 points2 : List Point) (epsilon : Weight) :
    Coupled points1 points2 epsilon (augmented points1 points2 epsilon) := by
  apply augmentRounds_coupled
  refine ⟨fun _ _ matched => ?_, fun _ _ matched => ?_, fun _ _ matched => ?_⟩
  · cases matched
  · cases matched
  · cases matched

end

def costs (points1 points2 : List Point) : Bottleneck.Costs (Fin points1.length) (Fin points2.length) Weight where
  pair i j := linfDistance points1[i] points2[j]
  left i := distanceToDiagonal points1[i]
  right j := distanceToDiagonal points2[j]

def LeavesFarPoint (points1 points2 : List Point) (epsilon : Weight) : Prop :=
  (∃ i p, points1[i]? = some p ∧ (augmented points1 points2 epsilon).match1 i = none ∧ epsilon < distanceToDiagonal p) ∨
    ∃ j q, points2[j]? = some q ∧ (augmented points1 points2 epsilon).match2 j = none ∧ epsilon < distanceToDiagonal q

section

variable {points1 points2 : List Point} {epsilon : Weight}

theorem linfDistance_nonneg (p q : Point) : 0 ≤ linfDistance p q := le_max_of_le_left (abs_nonneg _)

theorem distanceToDiagonal_nonneg (p : Point) : 0 ≤ distanceToDiagonal p := div_nonneg (abs_nonneg _) zero_le_two

theorem all_near_iff (points : List Point) (partner : Nat → Option Nat) :
    (points.zipIdx.all fun (point, i) => partner i ≠ none || distanceToDiagonal point ≤ epsilon) = true ↔
      ¬∃ i p, points[i]? = some p ∧ partner i = none ∧ epsilon < distanceToDiagonal p := by
  rw [List.all_eq_true]
  constructor
  · rintro near ⟨i, p, inside, alone, far⟩
    have either := near (p, i) (List.mk_mem_zipIdx_iff_getElem?.mpr inside)
    simp [alone, not_le.mpr far] at either
  · rintro noneFar ⟨p, i⟩ member
    have inside := List.mk_mem_zipIdx_iff_getElem?.mp member
    by_cases alone : partner i = none
    · have near := not_lt.mp fun far => noneFar ⟨i, p, inside, alone, far⟩
      simp [near]
    · simp [alone]

theorem hasPerfectMatching_iff :
    hasPerfectMatching points1 points2 epsilon = true ↔ ¬LeavesFarPoint points1 points2 epsilon := by
  rw [hasPerfectMatching, LeavesFarPoint, not_or]
  dsimp only
  rw [Bool.and_eq_true, all_near_iff, all_near_iff]

theorem optimum_le_of_hasPerfectMatching (nonneg : 0 ≤ epsilon)
    (found : hasPerfectMatching points1 points2 epsilon = true) : (costs points1 points2).optimum ≤ epsilon := by
  have coupled := augmented_coupled points1 points2 epsilon
  obtain ⟨near1, near2⟩ := not_or.mp (hasPerfectMatching_iff.mp found)
  let matching := Bottleneck.ofIndices points1.length points2.length
    fun i j => ⟨coupled.forward i j, coupled.backward i j⟩
  refine ((costs points1 points2).optimum_le matching).trans (Bottleneck.Costs.cost_le_iff.mpr ⟨nonneg, ?_, ?_⟩)
  · intro i
    rw [Bottleneck.Costs.leftCost]
    cases partner : matching i with
    | some j =>
      have recorded := Bottleneck.bounded_eq_some_iff.mp partner
      obtain ⟨p, q, first, second, close⟩ := coupled.close i j recorded
      rw [List.getElem?_eq_getElem i.isLt, Option.some.injEq] at first
      rw [List.getElem?_eq_getElem j.isLt, Option.some.injEq] at second
      rw [← first, ← second] at close
      exact close
    | none =>
      have alone : (augmented points1 points2 epsilon).match1 i = none := by
        by_contra taken
        obtain ⟨j, recorded⟩ := Option.ne_none_iff_exists'.mp taken
        obtain ⟨p, q, _, second, _⟩ := coupled.close i j recorded
        have below : j < points2.length := (List.getElem?_eq_some_iff.mp second).1
        have matched : matching i = some ⟨j, below⟩ := Bottleneck.bounded_eq_some_iff.mpr recorded
        rw [partner] at matched
        cases matched
      exact not_lt.mp fun far => near1 ⟨i, points1[i], List.getElem?_eq_getElem i.isLt, alone, far⟩
  · intro j
    rw [Bottleneck.Costs.rightCost]
    cases partner : matching.symm j with
    | some i => exact nonneg
    | none =>
      have alone : (augmented points1 points2 epsilon).match2 j = none := by
        by_contra taken
        obtain ⟨i, recorded⟩ := Option.ne_none_iff_exists'.mp taken
        obtain ⟨p, q, first, _, _⟩ := coupled.close i j (coupled.backward i j recorded)
        have below : i < points1.length := (List.getElem?_eq_some_iff.mp first).1
        have matched : matching.symm j = some ⟨i, below⟩ := Bottleneck.bounded_eq_some_iff.mpr recorded
        rw [partner] at matched
        cases matched
      exact not_lt.mp fun far => near2 ⟨j, points2[j], List.getElem?_eq_getElem j.isLt, alone, far⟩

theorem mem_candidateDistances {value : Weight} :
    value ∈ candidateDistances points1 points2 ↔ value ∈ allDistances points1 points2 := by
  have sorted := List.pairwise_insertionSort (· ≤ ·) (allDistances points1 points2)
  rw [candidateDistances, sorted.destutter_eq_dedup, List.mem_dedup, List.mem_insertionSort]

theorem candidateDistances_sorted : (candidateDistances points1 points2).Pairwise (· < ·) := by
  have sorted := List.pairwise_insertionSort (· ≤ ·) (allDistances points1 points2)
  rw [candidateDistances, sorted.destutter_eq_dedup]
  have distinct := List.nodup_dedup ((allDistances points1 points2).insertionSort (· ≤ ·))
  have kept := sorted.sublist (List.dedup_sublist _)
  exact (kept.and distinct).imp fun both => lt_of_le_of_ne both.1 both.2

theorem optimum_mem (nonempty : ¬(points1.isEmpty && points2.isEmpty) = true) :
    (costs points1 points2).optimum ∈ allDistances points1 points2 := by
  obtain ⟨⟨best, isBest⟩, _⟩ := (costs points1 points2).optimum_isLeast
  have inhabited : Nonempty (Fin points1.length) ∨ Nonempty (Fin points2.length) := by
    rcases points1 with _ | ⟨p, rest⟩
    · rcases points2 with _ | ⟨q, rest⟩
      · exact absurd rfl nonempty
      · exact Or.inr ⟨⟨0, Nat.succ_pos _⟩⟩
    · exact Or.inl ⟨⟨0, Nat.succ_pos _⟩⟩
  have attained : (costs points1 points2).IsCost ((costs points1 points2).cost best) :=
    Bottleneck.Costs.cost_isCost (fun i j => linfDistance_nonneg _ _) (fun i => distanceToDiagonal_nonneg _)
      (fun j => distanceToDiagonal_nonneg _) inhabited best
  rw [← isBest, allDistances, List.mem_append, List.mem_append]
  rcases attained with ⟨i, j, same⟩ | ⟨i, same⟩ | ⟨j, same⟩
  · refine Or.inl (Or.inl (List.mem_flatMap.mpr ⟨points1[i], List.getElem_mem _, ?_⟩))
    exact same ▸ List.mem_map_of_mem (List.getElem_mem _)
  · exact Or.inl (Or.inr (same ▸ List.mem_map_of_mem (List.getElem_mem _)))
  · exact Or.inr (same ▸ List.mem_map_of_mem (List.getElem_mem _))

theorem optimum_empty : (costs [] []).optimum = 0 := by
  obtain ⟨⟨best, isBest⟩, _⟩ := (costs [] []).optimum_isLeast
  rw [← isBest]
  rfl

theorem allDistances_nonneg {value : Weight} (member : value ∈ allDistances points1 points2) : 0 ≤ value := by
  rw [allDistances, List.mem_append, List.mem_append] at member
  rcases member with (pairs | firsts) | seconds
  · obtain ⟨p, _, inner⟩ := List.mem_flatMap.mp pairs
    obtain ⟨q, _, rfl⟩ := List.mem_map.mp inner
    exact linfDistance_nonneg p q
  · obtain ⟨p, _, rfl⟩ := List.mem_map.mp firsts
    exact distanceToDiagonal_nonneg p
  · obtain ⟨q, _, rfl⟩ := List.mem_map.mp seconds
    exact distanceToDiagonal_nonneg q

end

def probedThresholds (points1 points2 : List Point) (distance : Weight) : List Weight :=
  let candidates := candidateDistances points1 points2
  let right := candidates.length - 1
  (Bottleneck.probes (candidates.idxOf distance) right 0 right).filterMap fun mid => candidates[mid]?

section

variable {points1 points2 : List Point} {distance value : Weight}

theorem idxOf_le_iff (member : distance ∈ candidateDistances points1 points2) {mid : Nat}
    (at' : (candidateDistances points1 points2)[mid]? = some value) :
    (candidateDistances points1 points2).idxOf distance ≤ mid ↔ distance ≤ value := by
  have below := List.idxOf_lt_length_of_mem member
  obtain ⟨inside, same⟩ := List.getElem?_eq_some_iff.mp at'
  have own := List.getElem_idxOf below
  have ascending := List.pairwise_iff_getElem.mp (@candidateDistances_sorted points1 points2)
  constructor
  · intro before
    rcases Nat.eq_or_lt_of_le before with equal | less
    · exact le_of_eq (own.symm.trans ((getElem_congr_idx equal).trans same))
    · have order := ascending _ _ below inside less
      rw [own, same] at order
      exact order.le
  · intro order
    by_contra after
    have reversed := ascending _ _ inside below (not_le.mp after)
    rw [own, same] at reversed
    exact absurd order (not_le.mpr reversed)

theorem idxOf_le_of_feasible (member : (costs points1 points2).optimum ∈ candidateDistances points1 points2) (mid : Nat)
    (success : (candidateDistances points1 points2)[mid]?.any (hasPerfectMatching points1 points2) = true) :
    (candidateDistances points1 points2).idxOf (costs points1 points2).optimum ≤ mid := by
  cases at' : (candidateDistances points1 points2)[mid]? with
  | none =>
    rw [at'] at success
    cases success
  | some epsilon =>
    rw [at', Option.any_some] at success
    have nonneg := allDistances_nonneg (mem_candidateDistances.mp (List.mem_of_getElem? at'))
    exact (idxOf_le_iff member at').mpr (optimum_le_of_hasPerfectMatching nonneg success)

theorem search_exact_iff (nonempty : ¬(points1.isEmpty && points2.isEmpty) = true) :
    (candidateDistances points1 points2)[Bottleneck.search
        (fun mid => (candidateDistances points1 points2)[mid]?.any (hasPerfectMatching points1 points2))
        ((candidateDistances points1 points2).length - 1) 0 ((candidateDistances points1 points2).length - 1)]? =
      some (costs points1 points2).optimum ↔
      ∀ epsilon ∈ probedThresholds points1 points2 (costs points1 points2).optimum,
        (costs points1 points2).optimum ≤ epsilon → ¬LeavesFarPoint points1 points2 epsilon := by
  have member := mem_candidateDistances.mpr (optimum_mem nonempty)
  have below := List.idxOf_lt_length_of_mem member
  have distinct : (candidateDistances points1 points2).Nodup :=
    candidateDistances_sorted.imp fun less => ne_of_lt less
  rw [← List.getElem?_idxOf member, eq_comm, List.getElem?_inj below distinct, eq_comm,
    Bottleneck.search_eq_iff (idxOf_le_of_feasible member) (by omega) (Nat.zero_le _) (Nat.le_sub_one_of_lt below)]
  constructor
  · intro succeeds epsilon probed order
    obtain ⟨mid, tested, at'⟩ := List.mem_filterMap.mp probed
    have success := succeeds mid tested ((idxOf_le_iff member at').mpr order)
    rw [at', Option.any_some] at success
    exact hasPerfectMatching_iff.mp success
  · intro leavesNone mid tested order
    have inside : mid < (candidateDistances points1 points2).length :=
      (Bottleneck.lt_of_mem_probes tested).trans_le (Nat.sub_le _ _)
    have at' := List.getElem?_eq_getElem inside
    rw [at', Option.any_some]
    have probed := List.mem_filterMap.mpr ⟨mid, tested, at'⟩
    exact hasPerfectMatching_iff.mpr (leavesNone _ probed ((idxOf_le_iff member at').mp order))

end

/-- The distance is never less than the least bottleneck of a partial matching. -/
theorem bottleneckDistance_bounds {diag1 diag2 : PersistenceDiagram} (dimension : diag1.dimension = diag2.dimension) :
    ∃ distance, bottleneckDistance diag1 diag2 = some distance ∧
      (costs diag1.finitePoints diag2.finitePoints).optimum ≤ distance := by
  generalize points : diag1.finitePoints = points1
  generalize others : diag2.finitePoints = points2
  rw [bottleneckDistance, if_neg (not_not.mpr dimension), points, others]
  dsimp only
  by_cases nonempty : (points1.isEmpty && points2.isEmpty) = true
  · obtain ⟨none1, none2⟩ := Bool.and_eq_true_iff.mp nonempty
    rw [List.isEmpty_iff.mp none1, List.isEmpty_iff.mp none2, optimum_empty]
    exact ⟨0, rfl, le_refl 0⟩
  · have known := optimum_mem nonempty
    have member := mem_candidateDistances.mpr known
    have below := List.idxOf_lt_length_of_mem member
    rw [if_neg nonempty, List.isEmpty_eq_false_iff.mpr (List.ne_nil_of_mem known)]
    have reached := Bottleneck.le_search (idxOf_le_of_feasible member) (Nat.zero_add _).ge (Nat.le_sub_one_of_lt below)
    obtain ⟨-, inside⟩ := @Bottleneck.search_bounds (fun mid =>
      (candidateDistances points1 points2)[mid]?.any (hasPerfectMatching points1 points2)) _ 0 _ (Nat.zero_le _)
    have at' := List.getElem?_eq_getElem (inside.trans_lt (Nat.sub_one_lt_of_lt below))
    exact ⟨_, at', (idxOf_le_iff member at').mp reached⟩

theorem bottleneckDistance_eq_iff {diag1 diag2 : PersistenceDiagram} (dimension : diag1.dimension = diag2.dimension) :
    bottleneckDistance diag1 diag2 = some (costs diag1.finitePoints diag2.finitePoints).optimum ↔
      ∀ epsilon ∈ probedThresholds diag1.finitePoints diag2.finitePoints
          (costs diag1.finitePoints diag2.finitePoints).optimum,
        (costs diag1.finitePoints diag2.finitePoints).optimum ≤ epsilon →
          ¬LeavesFarPoint diag1.finitePoints diag2.finitePoints epsilon := by
  generalize points : diag1.finitePoints = points1
  generalize others : diag2.finitePoints = points2
  rw [bottleneckDistance, if_neg (not_not.mpr dimension), points, others]
  dsimp only
  by_cases nonempty : (points1.isEmpty && points2.isEmpty) = true
  · rw [if_pos nonempty]
    have none1 : points1 = [] := by simp_all
    have none2 : points2 = [] := by simp_all
    rw [none1, none2, optimum_empty]
    exact ⟨fun _ epsilon probed => absurd probed List.not_mem_nil, fun _ => rfl⟩
  · have some : (allDistances points1 points2).isEmpty = false := by
      rw [List.isEmpty_eq_false_iff]
      exact List.ne_nil_of_mem (optimum_mem nonempty)
    rw [if_neg nonempty, some]
    exact search_exact_iff nonempty

/-- The distance is exact where the least bottleneck reaches the diagonal from every point. -/
theorem bottleneckDistance_of_near {diag1 diag2 : PersistenceDiagram} (dimension : diag1.dimension = diag2.dimension)
    (near : ∀ p ∈ diag1.finitePoints ++ diag2.finitePoints,
      distanceToDiagonal p ≤ (costs diag1.finitePoints diag2.finitePoints).optimum) :
    bottleneckDistance diag1 diag2 = some (costs diag1.finitePoints diag2.finitePoints).optimum := by
  refine (bottleneckDistance_eq_iff dimension).mpr fun epsilon _ order => ?_
  have within {p : Point} (member : p ∈ diag1.finitePoints ++ diag2.finitePoints) : ¬ epsilon < distanceToDiagonal p :=
    not_lt.mpr ((near p member).trans order)
  rintro (⟨i, p, inside, _, far⟩ | ⟨j, q, inside, _, far⟩)
  · exact within (List.mem_append_left _ (List.mem_of_getElem? inside)) far
  · exact within (List.mem_append_right _ (List.mem_of_getElem? inside)) far

end AdicProof.Finality
