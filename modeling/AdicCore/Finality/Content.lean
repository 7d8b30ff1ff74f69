import AdicCore.Finality.Combinations
import AdicCore.Finality.WellFormed

open AdicModel AdicModel.Finality

namespace AdicProof.Finality

structure WellFormedBuilder (builder : AdicComplexBuilder) : Prop where
  inverse : ∀ id v, builder.messageToVertex.lookup id = some v ↔ builder.vertexToMessage.lookup v = some id
  below : ∀ v id, builder.vertexToMessage.lookup v = some id → v < builder.nextVertexId

def Known (builder : AdicComplexBuilder) (id : MessageId) : Prop := (builder.messageToVertex.lookup id).isSome

def vertexOf (builder : AdicComplexBuilder) (id : MessageId) : Nat := (builder.messageToVertex.lookup id).getD 0

def Extends (before after : AdicComplexBuilder) : Prop :=
  ∀ id v, before.messageToVertex.lookup id = some v → after.messageToVertex.lookup id = some v

theorem newBuilder_wellFormed : WellFormedBuilder AdicComplexBuilder.new := by
  refine ⟨?_, ?_⟩
  · intro id v
    constructor <;> intro found <;> cases found
  · intro v id found
    cases found

theorem Extends.refl (builder : AdicComplexBuilder) : Extends builder builder := fun _ _ found => found

theorem Extends.trans {first second third : AdicComplexBuilder} (left : Extends first second)
    (right : Extends second third) : Extends first third := fun id v found => right id v (left id v found)

theorem Extends.known {before after : AdicComplexBuilder} (grown : Extends before after) {id : MessageId}
    (known : Known before id) : Known after id := by
  obtain ⟨v, found⟩ := Option.isSome_iff_exists.mp known
  exact Option.isSome_iff_exists.mpr ⟨v, grown id v found⟩

theorem Extends.vertexOf {before after : AdicComplexBuilder} (grown : Extends before after) {id : MessageId}
    (known : Known before id) : vertexOf after id = vertexOf before id := by
  obtain ⟨v, found⟩ := Option.isSome_iff_exists.mp known
  rw [AdicProof.Finality.vertexOf, AdicProof.Finality.vertexOf, found, grown id v found]

variable {builder : AdicComplexBuilder}

theorem vertexOf_injective (wellFormed : WellFormedBuilder builder)
    {first second : MessageId} (known : Known builder first) (known' : Known builder second)
    (same : vertexOf builder first = vertexOf builder second) : first = second := by
  obtain ⟨v, found⟩ := Option.isSome_iff_exists.mp known
  obtain ⟨w, found'⟩ := Option.isSome_iff_exists.mp known'
  rw [vertexOf, vertexOf, found, found'] at same
  change v = w at same
  subst same
  have back := (wellFormed.inverse first v).mp found
  have back' := (wellFormed.inverse second v).mp found'
  rw [back] at back'
  exact Option.some.inj back'

theorem getOrCreateVertex_spec (wellFormed : WellFormedBuilder builder)
    (id : MessageId) :
    WellFormedBuilder (builder.getOrCreateVertex id).1 ∧ Extends builder (builder.getOrCreateVertex id).1 ∧
      (builder.getOrCreateVertex id).1.messageToVertex.lookup id = some (builder.getOrCreateVertex id).2 := by
  cases found : builder.messageToVertex.lookup id with
  | some v =>
    have unchanged : builder.getOrCreateVertex id = (builder, v) := by
      rw [AdicComplexBuilder.getOrCreateVertex, found]
    rw [unchanged]
    exact ⟨wellFormed, Extends.refl builder, found⟩
  | none =>
    have created : builder.getOrCreateVertex id =
        (⟨builder.messageToVertex.insert id builder.nextVertexId,
          builder.vertexToMessage.insert builder.nextVertexId id, builder.nextVertexId + 1⟩,
          builder.nextVertexId) := by
      rw [AdicComplexBuilder.getOrCreateVertex, found]
    rw [created]
    refine ⟨⟨?_, ?_⟩, ?_, ?_⟩
    · intro other v
      change (builder.messageToVertex.insert id _).lookup other = some v ↔
        (builder.vertexToMessage.insert _ id).lookup v = some other
      rw [HashMap.lookup_insert_eq, HashMap.lookup_insert_eq]
      have freshVertex : ∀ known, builder.vertexToMessage.lookup builder.nextVertexId ≠ some known := by
        intro known taken
        exact Nat.lt_irrefl _ (wellFormed.below _ known taken)
      by_cases sameId : other = id
      · subst sameId
        rw [if_pos rfl]
        by_cases sameVertex : v = builder.nextVertexId
        · subst sameVertex
          rw [if_pos rfl]
          simp
        · rw [if_neg sameVertex, ← wellFormed.inverse, found]
          simp [Ne.symm sameVertex]
      · rw [if_neg sameId]
        by_cases sameVertex : v = builder.nextVertexId
        · subst sameVertex
          rw [if_pos rfl, wellFormed.inverse]
          constructor
          · intro taken
            exact absurd taken (freshVertex other)
          · intro same
            exact absurd (Option.some.inj same).symm sameId
        · rw [if_neg sameVertex]
          exact wellFormed.inverse other v
    · intro v other taken
      change (builder.vertexToMessage.insert _ id).lookup v = some other at taken
      change v < builder.nextVertexId + 1
      rw [HashMap.lookup_insert_eq] at taken
      split at taken
      · next same => omega
      · have := wellFormed.below v other taken
        omega
    · intro other v taken
      change (builder.messageToVertex.insert id _).lookup other = some v
      rw [HashMap.lookup_insert_eq, if_neg]
      · exact taken
      · intro same
        rw [same, found] at taken
        cases taken
    · change (builder.messageToVertex.insert id _).lookup id = _
      rw [HashMap.lookup_insert_eq, if_pos rfl]

def collectEntry (state : AdicComplexBuilder × List Nat × Weight) (entry : MessageId × Weight) :
    AdicComplexBuilder × List Nat × Weight :=
  let (builder, vertexId) := state.1.getOrCreateVertex entry.1
  (builder, state.2.1 ++ [vertexId], max state.2.2 entry.2)

theorem foldl_collectVertex (messages : List (MessageId × Weight)) (indices : List Nat)
    (state : AdicComplexBuilder × List Nat × Weight) :
    indices.foldl (collectVertex messages) state =
      (indices.filterMap fun idx => messages[idx]?).foldl collectEntry state := by
  induction indices generalizing state with
  | nil => rfl
  | cons idx indices ih =>
    cases found : messages[idx]? with
    | none =>
      rw [List.foldl_cons, List.filterMap_cons_none found, ← ih]
      simp only [collectVertex, found]
    | some entry =>
      rw [List.foldl_cons, List.filterMap_cons_some found, List.foldl_cons, ← ih]
      simp only [collectVertex, found, collectEntry]

def largestWeight (start : Weight) (entries : List (MessageId × Weight)) : Weight :=
  entries.foldl (fun weight entry => max weight entry.2) start

theorem foldl_collectEntry (entries : List (MessageId × Weight))
    (wellFormed : WellFormedBuilder builder) (vertices : List Nat) (weight : Weight) :
    ∃ after, entries.foldl collectEntry (builder, vertices, weight) =
        (after, vertices ++ entries.map (fun entry => vertexOf after entry.1), largestWeight weight entries) ∧
      WellFormedBuilder after ∧ Extends builder after ∧ ∀ entry ∈ entries, Known after entry.1 := by
  induction entries generalizing builder vertices weight with
  | nil => exact ⟨builder, by simp [largestWeight], wellFormed, Extends.refl builder, by simp⟩
  | cons entry entries ih =>
    obtain ⟨created, extended, found⟩ := getOrCreateVertex_spec wellFormed entry.1
    obtain ⟨after, run, finished, extended', known⟩ :=
      ih created (vertices ++ [(builder.getOrCreateVertex entry.1).2]) (max weight entry.2)
    have vertex := extended' _ _ found
    refine ⟨after, ?_, finished, extended.trans extended', ?_⟩
    · rw [List.foldl_cons, collectEntry, run]
      simp only [List.map_cons, List.append_assoc, List.singleton_append, largestWeight, List.foldl_cons,
        vertexOf, vertex, Option.getD_some]
    · intro other member
      rcases List.mem_cons.mp member with rfl | later
      · exact Option.isSome_iff_exists.mpr ⟨_, vertex⟩
      · exact known other later

def addEntries (state : BuildState) (entries : List (MessageId × Weight)) : BuildState :=
  let (builder, vertices, maxWeight) := entries.foldl collectEntry (state.builder, [], 0)
  ⟨builder, (state.complex.addSimplexWithFaces vertices maxWeight).1⟩

theorem addCombination_eq (messages : List (MessageId × Weight)) (state : BuildState) (indices : List Nat) :
    addCombination messages state indices = addEntries state (indices.filterMap fun idx => messages[idx]?) := by
  rw [addCombination, foldl_collectVertex]
  rfl

def addSimplices (builder : AdicComplexBuilder) (complex : SimplicialComplex)
    (tops : List (List (MessageId × Weight))) : SimplicialComplex :=
  tops.foldl (fun current entries => (current.addSimplexWithFaces
    (entries.map fun entry => vertexOf builder entry.1) (largestWeight 0 entries)).1) complex

theorem foldl_addEntries (tops : List (List (MessageId × Weight))) {state : BuildState}
    (wellFormed : WellFormedBuilder state.builder) :
    ∃ after, tops.foldl addEntries state = ⟨after, addSimplices after state.complex tops⟩ ∧
      WellFormedBuilder after ∧ Extends state.builder after ∧
      ∀ entries ∈ tops, ∀ entry ∈ entries, Known after entry.1 := by
  induction tops generalizing state with
  | nil => exact ⟨state.builder, rfl, wellFormed, Extends.refl _, by simp⟩
  | cons entries tops ih =>
    obtain ⟨middle, collected, kept, extended, known⟩ := foldl_collectEntry entries wellFormed [] 0
    have step : addEntries state entries = ⟨middle, (state.complex.addSimplexWithFaces
        (entries.map fun entry => vertexOf middle entry.1) (largestWeight 0 entries)).1⟩ := by
      rw [addEntries, collected]
      rfl
    obtain ⟨after, run, finished, extended', known'⟩ := @ih (addEntries state entries) (by rw [step]; exact kept)
    rw [step] at extended'
    refine ⟨after, ?_, finished, extended.trans extended', ?_⟩
    · have same : entries.map (fun entry => vertexOf middle entry.1) =
          entries.map fun entry => vertexOf after entry.1 := by
        apply List.map_congr_left
        intro entry member
        exact (extended'.vertexOf (known entry member)).symm
      rw [List.foldl_cons, run, step, same]
      rfl
    · intro other member
      rcases List.mem_cons.mp member with rfl | later
      · intro entry inside
        exact extended'.known (known entry inside)
      · exact known' other later

/-- Spanned by weighted simplices with `size` vertices, whose proper faces have weight zero. -/
def SpannedBy (complex : SimplicialComplex) (size : Nat) (tops : List (Finset Nat × Weight)) : Prop :=
  ∀ s weight, content complex s = some weight ↔
    s.Nonempty ∧ ∃ top ∈ tops, s ⊆ top.1 ∧ weight = if s.card = size then top.2 else 0

theorem SpannedBy.snoc {before after : SimplicialComplex} {size : Nat} {tops : List (Finset Nat × Weight)}
    (spanned : SpannedBy before size tops) (top : Finset Nat × Weight) (card : top.1.card = size)
    (cards : ∀ other ∈ tops, other.1.card = size)
    (consistent : ∀ other ∈ tops, other.1 = top.1 → other.2 = top.2)
    (covers : Covers before after top.1 top.2) : SpannedBy after size (tops ++ [top]) := by
  have whole : ∀ {s : Finset Nat} {other : Finset Nat × Weight}, other.1.card = size → s ⊆ other.1 →
      s.card = size → s = other.1 := by
    intro s other otherCard inside sCard
    exact Finset.eq_of_subset_of_card_le inside (by omega)
  intro s weight
  rw [covers s]
  by_cases covered : s.Nonempty ∧ s ⊆ top.1
  · rw [if_pos covered]
    obtain ⟨inhabited, inside⟩ := covered
    have isTop : s = top.1 ↔ s.card = size := by
      constructor
      · rintro rfl
        exact card
      · exact whole card inside
    simp only [isTop]
    constructor
    · intro value
      refine ⟨inhabited, ?_⟩
      cases old : content before s with
      | none =>
        rw [old] at value
        exact ⟨top, List.mem_append_right _ (List.mem_singleton_self top), inside, (Option.some.inj value).symm⟩
      | some oldWeight =>
        rw [old] at value
        obtain ⟨_, other, member, otherInside, oldWeight_eq⟩ := (spanned s oldWeight).mp old
        refine ⟨other, List.mem_append_left _ member, otherInside, ?_⟩
        rw [← oldWeight_eq]
        exact (Option.some.inj value).symm
    · rintro ⟨_, other, member, otherInside, weight_eq⟩
      cases old : content before s with
      | none =>
        rcases List.mem_append.mp member with earlier | isNew
        · have present := (spanned s weight).mpr ⟨inhabited, other, earlier, otherInside, weight_eq⟩
          rw [old] at present
          cases present
        · rw [List.mem_singleton.mp isNew] at weight_eq
          rw [weight_eq]
          rfl
      | some oldWeight =>
        obtain ⟨_, known, knownMember, knownInside, oldWeight_eq⟩ := (spanned s oldWeight).mp old
        rw [Option.getD_some, oldWeight_eq, weight_eq]
        congr 1
        by_cases full : s.card = size
        · rw [if_pos full, if_pos full]
          have knownTop := whole (cards known knownMember) knownInside full
          have topSame := consistent known knownMember (knownTop.symm.trans (whole card inside full))
          rcases List.mem_append.mp member with earlier | isNew
          · have otherTop := whole (cards other earlier) otherInside full
            rw [topSame, consistent other earlier (otherTop.symm.trans (whole card inside full))]
          · rw [List.mem_singleton.mp isNew, topSame]
        · rw [if_neg full, if_neg full]
  · rw [if_neg covered, spanned s weight]
    apply and_congr_right
    intro inhabited
    constructor
    · rintro ⟨other, member, rest⟩
      exact ⟨other, List.mem_append_left _ member, rest⟩
    · rintro ⟨other, member, inside, weight_eq⟩
      rcases List.mem_append.mp member with earlier | isNew
      · exact ⟨other, earlier, inside, weight_eq⟩
      · rw [List.mem_singleton.mp isNew] at inside
        exact absurd ⟨inhabited, inside⟩ covered

def topOf (builder : AdicComplexBuilder) (entries : List (MessageId × Weight)) : Finset Nat × Weight :=
  ((entries.map fun entry => vertexOf builder entry.1).toFinset, largestWeight 0 entries)

structure ValidTops (builder : AdicComplexBuilder) (size : Nat) (tops : List (List (MessageId × Weight))) : Prop where
  positive : 0 < size
  sizes : ∀ entries ∈ tops, entries.length = size
  distinct : ∀ entries ∈ tops, (entries.map fun entry => vertexOf builder entry.1).Nodup
  consistent : ∀ first ∈ tops, ∀ second ∈ tops, (topOf builder first).1 = (topOf builder second).1 →
    largestWeight 0 first = largestWeight 0 second

theorem addSimplices_spanned {size : Nat} {tops : List (List (MessageId × Weight))}
    (valid : ValidTops builder size tops) :
    WellFormed (addSimplices builder SimplicialComplex.new tops) ∧
      SpannedBy (addSimplices builder SimplicialComplex.new tops) size (tops.map (topOf builder)) := by
  induction tops using List.reverseRecOn with
  | nil =>
    refine ⟨new_wellFormed, ?_⟩
    intro s weight
    constructor
    · intro value
      cases value
    · rintro ⟨_, _, impossible, _⟩
      cases impossible
  | append_singleton tops entries ih =>
    have member : entries ∈ tops ++ [entries] := List.mem_append_right _ (List.mem_singleton_self entries)
    have earlier : ∀ other ∈ tops, other ∈ tops ++ [entries] := fun other inside => List.mem_append_left _ inside
    obtain ⟨kept, spanned⟩ := ih ⟨valid.positive, fun other inside => valid.sizes other (earlier other inside),
      fun other inside => valid.distinct other (earlier other inside),
      fun first inFirst second inSecond =>
        valid.consistent first (earlier first inFirst) second (earlier second inSecond)⟩
    have card : ∀ other ∈ tops ++ [entries], (topOf builder other).1.card = size := by
      intro other inside
      rw [topOf, List.toFinset_card_of_nodup (valid.distinct other inside), List.length_map, valid.sizes other inside]
    have inhabited : (entries.map fun entry => vertexOf builder entry.1) ≠ [] := by
      rw [← List.length_pos_iff, List.length_map, valid.sizes entries member]
      exact valid.positive
    obtain ⟨finished, covers⟩ :=
      addSimplexWithFaces_covers kept (largestWeight 0 entries) (valid.distinct entries member) inhabited
    have step : addSimplices builder SimplicialComplex.new (tops ++ [entries]) =
        ((addSimplices builder SimplicialComplex.new tops).addSimplexWithFaces
          (entries.map fun entry => vertexOf builder entry.1) (largestWeight 0 entries)).1 := by
      rw [addSimplices, List.foldl_append]
      rfl
    rw [step, List.map_append]
    refine ⟨finished, spanned.snoc (topOf builder entries) (card entries member) ?_ ?_ covers⟩
    · intro other inside
      obtain ⟨source, sourceMember, rfl⟩ := List.mem_map.mp inside
      exact card source (earlier source sourceMember)
    · intro other inside same
      obtain ⟨source, sourceMember, rfl⟩ := List.mem_map.mp inside
      exact valid.consistent source (earlier source sourceMember) entries member same

def ballOf (axis : UInt32) (radius : Nat) (message : AdicMessage) : Option (List UInt8) :=
  (message.features.phi.find? fun phi => phi.axis.index = axis).map fun phi => phi.qpDigits.ballId radius

def entryOf (message : AdicMessage) : MessageId × Weight :=
  (message.id, (message.metadata.timestamp.timestamp : ℚ))

def ballMembers (axis : UInt32) (radius : Nat) (messages : List AdicMessage) (ball : List UInt8) :
    List (MessageId × Weight) :=
  (messages.filter fun message => ballOf axis radius message = some ball).map entryOf

theorem lookup_groupMessage (axis : UInt32) (radius : Nat) (balls : BallMap) (message : AdicMessage)
    (ball : List UInt8) :
    (groupMessage axis radius balls message).lookup ball =
      if ballOf axis radius message = some ball then some ((balls.lookup ball).getD [] ++ [entryOf message])
      else balls.lookup ball := by
  rw [groupMessage, ballOf]
  cases message.features.phi.find? fun phi => phi.axis.index = axis with
  | none => simp
  | some phi =>
    simp only [Option.map_some, Option.some.injEq]
    rw [HashMap.lookup_insert_eq]
    by_cases same : ball = phi.qpDigits.ballId radius
    · subst same
      simp [entryOf]
    · rw [if_neg same, if_neg (Ne.symm same)]

theorem lookup_groupMessages (axis : UInt32) (radius : Nat) (messages : List AdicMessage) (ball : List UInt8) :
    (messages.foldl (groupMessage axis radius) ∅).lookup ball =
      if ballMembers axis radius messages ball = [] then none else some (ballMembers axis radius messages ball) := by
  induction messages using List.reverseRecOn with
  | nil => rfl
  | append_singleton messages message ih =>
    rw [List.foldl_append, List.foldl_cons, List.foldl_nil, lookup_groupMessage, ih]
    have members : ballMembers axis radius (messages ++ [message]) ball =
        ballMembers axis radius messages ball ++
          if ballOf axis radius message = some ball then [entryOf message] else [] := by
      rw [ballMembers, List.filter_append, List.map_append, ballMembers]
      congr 1
      by_cases here : ballOf axis radius message = some ball <;> simp [here]
    rw [members]
    by_cases here : ballOf axis radius message = some ball
    · have inhabited : ballMembers axis radius messages ball ++ [entryOf message] ≠ [] := by simp
      rw [if_pos here, if_pos here, if_neg inhabited]
      by_cases none : ballMembers axis radius messages ball = []
      · rw [if_pos none, none]
        rfl
      · rw [if_neg none]
        rfl
    · rw [if_neg here, if_neg here, List.append_nil]

theorem mem_balls {axis : UInt32} {radius : Nat} {messages : List AdicMessage} {ball : List UInt8}
    {members : List (MessageId × Weight)} :
    (ball, members) ∈ HashMap.pairs (messages.foldl (groupMessage axis radius) ∅) ↔
      members ≠ [] ∧ members = ballMembers axis radius messages ball := by
  rw [HashMap.mem_pairs, lookup_groupMessages]
  split
  · next empty =>
    rw [empty]
    simp
  · next inhabited =>
    rw [Option.some.injEq, eq_comm]
    constructor
    · rintro rfl
      exact ⟨inhabited, rfl⟩
    · exact fun both => both.2

def IsCombination (size : Nat) (members entries : List (MessageId × Weight)) : Prop :=
  ∃ indices, Combination members.length indices ∧ indices.length = size ∧
    entries = indices.filterMap fun idx => members[idx]?

theorem foldlM_addBall (dimension : Nat) (balls : List (List UInt8 × List (MessageId × Weight))) (state : BuildState) :
    ∃ tops : List (List (MessageId × Weight)),
      (∀ fuel, (∀ ball ∈ balls, ball.2.length.choose (dimension + 1) ≤ fuel) →
        balls.foldlM (addBall fuel dimension) state = some (tops.foldl addEntries state)) ∧
      ∀ entries, entries ∈ tops ↔ ∃ ball ∈ balls, dimension + 1 ≤ ball.2.length ∧
        IsCombination (dimension + 1) ball.2 entries := by
  induction balls generalizing state with
  | nil => exact ⟨[], fun _ _ => rfl, by simp⟩
  | cons ball balls ih =>
    by_cases small : ball.2.length < dimension + 1
    · obtain ⟨tops, run, members⟩ := ih state
      refine ⟨tops, ?_, ?_⟩
      · intro fuel enough
        rw [List.foldlM_cons, addBall, if_pos small]
        exact run fuel fun other inside => enough other (List.mem_cons_of_mem ball inside)
      · intro entries
        rw [members entries]
        simp only [List.mem_cons, exists_eq_or_imp]
        constructor
        · exact .inr
        · rintro (⟨large, _⟩ | later)
          · omega
          · exact later
    · obtain ⟨visited, visits, count, -, all⟩ := @visits_all ball.2.length (dimension + 1) (Nat.succ_pos _) (by omega)
      let current := visited.map fun indices => indices.filterMap fun idx => ball.2[idx]?
      obtain ⟨tops, run, members⟩ := ih (current.foldl addEntries state)
      refine ⟨current ++ tops, ?_, ?_⟩
      · intro fuel enough
        have added : addBall fuel dimension state ball = some (current.foldl addEntries state) := by
          rw [addBall, if_neg small, createSimplicesFromBall, if_neg small,
            visits.run state (count.trans (enough ball List.mem_cons_self)), List.foldl_map]
          congr 2
          funext current indices
          exact addCombination_eq ball.2 current indices
        rw [List.foldlM_cons, added, List.foldl_append]
        exact run fuel fun other inside => enough other (List.mem_cons_of_mem ball inside)
      · intro entries
        rw [List.mem_append, members entries]
        simp only [List.mem_cons, exists_eq_or_imp]
        apply or_congr_left
        rw [List.mem_map]
        constructor
        · rintro ⟨indices, inside, rfl⟩
          obtain ⟨combination, length⟩ := (all indices).mp inside
          exact ⟨by omega, indices, combination, length, rfl⟩
        · rintro ⟨_, indices, combination, length, rfl⟩
          exact ⟨indices, (all indices).mpr ⟨combination, length⟩, rfl⟩

end AdicProof.Finality
