import AdicCore.Finality.BoundaryColumns
import AdicCore.Finality.Content

open AdicModel AdicModel.Finality

namespace AdicProof.Finality

def labelOf (builder : AdicComplexBuilder) (v : Nat) : MessageId :=
  (builder.vertexToMessage.lookup v).getD ⟨Bytes32.replicate 0⟩

theorem labelOf_vertexOf {builder : AdicComplexBuilder} (wellFormed : WellFormedBuilder builder) {id : MessageId}
    (known : Known builder id) : labelOf builder (vertexOf builder id) = id := by
  obtain ⟨v, found⟩ := Option.isSome_iff_exists.mp known
  rw [labelOf, vertexOf, found, Option.getD_some, (wellFormed.inverse id v).mp found]
  rfl

def timestampOf (messages : List AdicMessage) (id : MessageId) : Weight :=
  ((messages.find? fun message => message.id = id).map fun message =>
    (message.metadata.timestamp.timestamp : ℚ)).getD 0

/-- Simplices of the built dimension weigh the largest timestamp, their faces nothing. -/
def cellWeight (messages : List AdicMessage) (dimension : Nat) (cell : Finset MessageId) : Weight :=
  if cell.card = dimension + 1 then cell.fold max 0 (timestampOf messages) else 0

def IsCell (messages : List AdicMessage) (axis : UInt32) (radius dimension : Nat) (cell : Finset MessageId) : Prop :=
  cell.Nonempty ∧ cell.card ≤ dimension + 1 ∧
    ∃ ball, dimension + 1 ≤ (ballMembers axis radius messages ball).length ∧
      ∀ id ∈ cell, id ∈ (ballMembers axis radius messages ball).map Prod.fst

section

variable {messages : List AdicMessage} {axis : UInt32} {radius dimension : Nat} {ball : List UInt8}

theorem timestampOf_eq (distinct : (messages.map AdicMessage.id).Nodup) {message : AdicMessage}
    (member : message ∈ messages) : timestampOf messages message.id = (message.metadata.timestamp.timestamp : ℚ) := by
  cases found : messages.find? fun other => other.id = message.id with
  | none =>
    have absent := List.find?_eq_none.mp found message member
    simp at absent
  | some other =>
    have same : other.id = message.id := by simpa using List.find?_some found
    have equal := List.inj_on_of_nodup_map distinct (List.mem_of_find?_eq_some found) member same
    rw [timestampOf, found, equal]
    rfl

theorem ballMembers_ids_nodup (distinct : (messages.map AdicMessage.id).Nodup) :
    ((ballMembers axis radius messages ball).map Prod.fst).Nodup := by
  rw [ballMembers, List.map_map]
  exact distinct.sublist (List.filter_sublist.map AdicMessage.id)

theorem ballMembers_weight (distinct : (messages.map AdicMessage.id).Nodup) {entry : MessageId × Weight}
    (member : entry ∈ ballMembers axis radius messages ball) : entry.2 = timestampOf messages entry.1 := by
  obtain ⟨message, inside, rfl⟩ := List.mem_map.mp member
  exact (timestampOf_eq distinct (List.mem_of_mem_filter inside)).symm

theorem ballMembers_length_le : (ballMembers axis radius messages ball).length ≤ messages.length := by
  rw [ballMembers, List.length_map]
  exact List.length_filter_le _ messages

theorem combination_entries {size : Nat} {members entries : List (MessageId × Weight)}
    (combination : IsCombination size members entries) :
    entries.length = size ∧ entries.Sublist members := by
  obtain ⟨indices, ⟨ascending, bounded⟩, length, rfl⟩ := combination
  constructor
  · rw [← length]
    clear length ascending
    induction indices with
    | nil => rfl
    | cons i indices ih =>
      obtain ⟨entry, found⟩ : ∃ entry, members[i]? = some entry :=
        ⟨_, List.getElem?_eq_getElem (bounded i List.mem_cons_self)⟩
      rw [List.filterMap_cons_some found, List.length_cons, List.length_cons,
        ih fun j member => bounded j (List.mem_cons_of_mem i member)]
  · have inRange : indices.Sublist (List.range members.length) := by
      have subset : indices ⊆ List.range members.length := fun i member => List.mem_range.mpr (bounded i member)
      exact List.sublist_of_subperm_of_pairwise (List.subperm_of_subset ascending.nodup subset) ascending
        List.pairwise_lt_range
    have whole := inRange.filterMap fun i => members[i]?
    rwa [filterMap_range] at whole

theorem largestWeight_eq (entries : List (MessageId × Weight)) (nodup : (entries.map Prod.fst).Nodup)
    (weights : ∀ entry ∈ entries, entry.2 = timestampOf messages entry.1) :
    largestWeight 0 entries = (entries.map Prod.fst).toFinset.fold max 0 (timestampOf messages) := by
  have general : ∀ start, largestWeight start entries =
      (entries.map Prod.fst).foldl (fun weight id => max weight (timestampOf messages id)) start := by
    clear nodup
    induction entries with
    | nil => exact fun _ => rfl
    | cons entry entries ih =>
      intro start
      change largestWeight (max start entry.2) entries = _
      rw [ih (fun other member => weights other (List.mem_cons_of_mem entry member)), weights entry List.mem_cons_self]
      rfl
  rw [general, Finset.fold, List.toFinset_val, nodup.dedup, Multiset.map_coe, Multiset.coe_fold_l, List.foldl_map,
    List.map_map, List.foldl_map]
  rfl

end

structure BatchComplex (messages : List AdicMessage) (axis : UInt32) (radius dimension : Nat)
    (label : Nat → MessageId) (complex : SimplicialComplex) : Prop where
  wellFormed : WellFormed complex
  sorted : complex.simplices.Pairwise filtrationOrder
  labels : Labels label complex
  facesPresent : FacesPresent complex
  weights : ∀ simplex ∈ complex.simplices, cellWeight messages dimension (cellOf label simplex) = simplex.weight
  cells : ∀ cell, cell ∈ cellsOf label complex ↔ IsCell messages axis radius dimension cell

section

variable {messages : List AdicMessage} {axis : UInt32} {radius dimension : Nat} {builder : AdicComplexBuilder}
  {tops : List (List (MessageId × Weight))}

structure TopsOf (messages : List AdicMessage) (axis : UInt32) (radius dimension : Nat)
    (tops : List (List (MessageId × Weight))) : Prop where
  distinct : (messages.map AdicMessage.id).Nodup
  members : ∀ entries, entries ∈ tops ↔ ∃ ball, dimension + 1 ≤ (ballMembers axis radius messages ball).length ∧
    IsCombination (dimension + 1) (ballMembers axis radius messages ball) entries

structure Top (messages : List AdicMessage) (dimension : Nat) (entries : List (MessageId × Weight)) : Prop where
  size : entries.length = dimension + 1
  nodup : (entries.map Prod.fst).Nodup
  weight : largestWeight 0 entries = (entries.map Prod.fst).toFinset.fold max 0 (timestampOf messages)

theorem TopsOf.top (topsOf : TopsOf messages axis radius dimension tops) {entries : List (MessageId × Weight)}
    (member : entries ∈ tops) : Top messages dimension entries := by
  obtain ⟨ball, _, combination⟩ := (topsOf.members entries).mp member
  obtain ⟨size, sublist⟩ := combination_entries combination
  have nodup := (ballMembers_ids_nodup topsOf.distinct).sublist (sublist.map Prod.fst)
  refine ⟨size, nodup, largestWeight_eq entries nodup ?_⟩
  intro entry inside
  exact ballMembers_weight topsOf.distinct (sublist.subset inside)

theorem ids_of_topOf (wellFormed : WellFormedBuilder builder) {entries : List (MessageId × Weight)}
    (known : ∀ entry ∈ entries, Known builder entry.1) :
    (topOf builder entries).1.image (labelOf builder) = (entries.map Prod.fst).toFinset := by
  ext id
  simp only [topOf, Finset.mem_image, List.mem_toFinset, List.mem_map]
  constructor
  · rintro ⟨_, ⟨entry, member, rfl⟩, rfl⟩
    exact ⟨entry, member, (labelOf_vertexOf wellFormed (known entry member)).symm⟩
  · rintro ⟨entry, member, rfl⟩
    exact ⟨_, ⟨entry, member, rfl⟩, labelOf_vertexOf wellFormed (known entry member)⟩

theorem TopsOf.validTops (topsOf : TopsOf messages axis radius dimension tops)
    (wellFormed : WellFormedBuilder builder) (known : ∀ entries ∈ tops, ∀ entry ∈ entries, Known builder entry.1) :
    ValidTops builder (dimension + 1) tops := by
  refine ⟨Nat.succ_pos dimension, fun entries member => (topsOf.top member).size, ?_, ?_⟩
  · intro entries member
    have mapped : (entries.map fun entry => vertexOf builder entry.1) = (entries.map Prod.fst).map (vertexOf builder) := by
      rw [List.map_map]
      rfl
    rw [mapped]
    apply (topsOf.top member).nodup.map_on
    intro first inFirst second inSecond same
    obtain ⟨entry, inside, rfl⟩ := List.mem_map.mp inFirst
    obtain ⟨entry', inside', rfl⟩ := List.mem_map.mp inSecond
    exact vertexOf_injective wellFormed (known entries member entry inside) (known entries member entry' inside') same
  · intro first inFirst second inSecond same
    rw [(topsOf.top inFirst).weight, (topsOf.top inSecond).weight, ← ids_of_topOf wellFormed (known first inFirst),
      ← ids_of_topOf wellFormed (known second inSecond), same]

theorem exists_combination {members : List (MessageId × Weight)} (nodup : (members.map Prod.fst).Nodup)
    {ids : Finset MessageId} (inside : ∀ id ∈ ids, id ∈ members.map Prod.fst) :
    ∃ entries, IsCombination ids.card members entries ∧ (entries.map Prod.fst).toFinset = ids := by
  let chosen := members.filter fun entry => entry.1 ∈ ids
  let indices := (List.range members.length).filter fun i => ∃ entry, members[i]? = some entry ∧ entry.1 ∈ ids
  have entries_eq : indices.filterMap (fun i => members[i]?) = chosen := by
    have split := filterMap_eq_range (fun entry => if entry.1 ∈ ids then some entry else none) members
    have selected : members.filterMap (fun entry => if entry.1 ∈ ids then some entry else none) = chosen := by
      change _ = members.filter _
      rw [← List.filterMap_some (l := members.filter _), List.filterMap_filter]
      apply List.filterMap_congr
      intro entry _
      simp
    rw [← selected, split, List.filterMap_filter]
    apply List.filterMap_congr
    intro i _
    cases found : members[i]? with
    | none => simp
    | some entry => by_cases isChosen : entry.1 ∈ ids <;> simp [isChosen]
  have idSet : (chosen.map Prod.fst).toFinset = ids := by
    ext id
    rw [List.mem_toFinset, List.mem_map]
    constructor
    · rintro ⟨entry, member, rfl⟩
      simpa using (List.mem_filter.mp member).2
    · intro member
      obtain ⟨entry, entryMember, rfl⟩ := List.mem_map.mp (inside id member)
      exact ⟨entry, List.mem_filter.mpr ⟨entryMember, by simpa using member⟩, rfl⟩
  have combination : Combination members.length indices := by
    refine ⟨List.pairwise_lt_range.sublist List.filter_sublist, ?_⟩
    intro i member
    exact List.mem_range.mp (List.mem_of_mem_filter member)
  have size : indices.length = ids.card := by
    have length := (combination_entries ⟨indices, combination, rfl, rfl⟩).1
    rw [entries_eq] at length
    have chosenNodup : (chosen.map Prod.fst).Nodup := nodup.sublist (List.filter_sublist.map Prod.fst)
    rw [← length, ← idSet, List.toFinset_card_of_nodup chosenNodup, List.length_map]
  exact ⟨chosen, ⟨indices, combination, size, entries_eq.symm⟩, idSet⟩

theorem WellFormed.facesPresent {complex : SimplicialComplex} (wellFormed : WellFormed complex) {size : Nat}
    {sets : List (Finset Nat × Weight)} (spanned : SpannedBy complex size sets) : FacesPresent complex := by
  intro simplex member face faceMember
  have faceOf := faceOf_mem (wellFormed.simplices simplex member).indexed faceMember
  obtain ⟨_, top, topMember, inside, _⟩ :=
    (spanned _ _).mp (wellFormed.indexed.content_eq_some.mpr ⟨simplex, member, rfl, rfl⟩)
  obtain ⟨v, _, erased⟩ := faceOf.erased
  have present : content complex face.toFinset = some (if face.toFinset.card = size then top.2 else 0) := by
    refine (spanned _ _).mpr ⟨(List.toFinset_nonempty_iff _).mpr faceOf.inhabited, top, topMember, ?_, rfl⟩
    rw [erased]
    exact (Finset.erase_subset v _).trans inside
  obtain ⟨other, otherMember, vertices, _⟩ := wellFormed.indexed.content_eq_some.mp present
  exact ⟨other, otherMember,
    ascending_ext (wellFormed.simplices other otherMember).ascending faceOf.ascending vertices⟩

theorem TopsOf.batchComplex (topsOf : TopsOf messages axis radius dimension tops)
    (builderWellFormed : WellFormedBuilder builder)
    (known : ∀ entries ∈ tops, ∀ entry ∈ entries, Known builder entry.1) :
    BatchComplex messages axis radius dimension (labelOf builder)
      (addSimplices builder SimplicialComplex.new tops).sortByFiltration := by
  have valid := topsOf.validTops builderWellFormed known
  obtain ⟨unsortedWellFormed, unsortedSpanned⟩ := addSimplices_spanned valid
  obtain ⟨wellFormed, sorted, sameContent⟩ := sortByFiltration_spec unsortedWellFormed
  have spanned : SpannedBy (addSimplices builder SimplicialComplex.new tops).sortByFiltration (dimension + 1)
      (tops.map (topOf builder)) := by
    intro s weight
    rw [sameContent]
    exact unsortedSpanned s weight
  have topOfSimplex : ∀ simplex ∈ (addSimplices builder SimplicialComplex.new tops).sortByFiltration.simplices,
      ∃ entries ∈ tops, simplex.vertices.toFinset ⊆ (topOf builder entries).1 ∧
        simplex.weight = if simplex.vertices.toFinset.card = dimension + 1 then largestWeight 0 entries else 0 := by
    intro simplex member
    obtain ⟨_, top, topMember, inside, weight⟩ :=
      (spanned _ _).mp (wellFormed.indexed.content_eq_some.mpr ⟨simplex, member, rfl, rfl⟩)
    obtain ⟨entries, entriesMember, rfl⟩ := List.mem_map.mp topMember
    exact ⟨entries, entriesMember, inside, weight⟩
  have knownVertex : ∀ entries ∈ tops, ∀ v ∈ (topOf builder entries).1,
      ∃ id, Known builder id ∧ v = vertexOf builder id := by
    intro entries member v inside
    obtain ⟨entry, entryMember, rfl⟩ := List.mem_map.mp (List.mem_toFinset.mp inside)
    exact ⟨entry.1, known entries member entry entryMember, rfl⟩
  have labels : Labels (labelOf builder) (addSimplices builder SimplicialComplex.new tops).sortByFiltration := by
    intro first inFirst second inSecond v vMember w wMember same
    obtain ⟨entries, entriesMember, inside, _⟩ := topOfSimplex first inFirst
    obtain ⟨entries', entriesMember', inside', _⟩ := topOfSimplex second inSecond
    obtain ⟨id, idKnown, rfl⟩ := knownVertex entries entriesMember v (inside (List.mem_toFinset.mpr vMember))
    obtain ⟨id', idKnown', rfl⟩ := knownVertex entries' entriesMember' w (inside' (List.mem_toFinset.mpr wMember))
    rw [labelOf_vertexOf builderWellFormed idKnown, labelOf_vertexOf builderWellFormed idKnown'] at same
    rw [same]
  have topCard : ∀ entries ∈ tops, (topOf builder entries).1.card = dimension + 1 := by
    intro entries member
    rw [topOf, List.toFinset_card_of_nodup (valid.distinct entries member), List.length_map, valid.sizes entries member]
  refine ⟨wellFormed, sorted, labels, wellFormed.facesPresent spanned, ?_, ?_⟩
  · intro simplex member
    obtain ⟨entries, entriesMember, inside, weight⟩ := topOfSimplex simplex member
    have card : (cellOf (labelOf builder) simplex).card = simplex.vertices.toFinset.card := by
      rw [labels.card_cellOf wellFormed member,
        List.toFinset_card_of_nodup (wellFormed.simplices simplex member).ascending.nodup]
    rw [cellWeight, card, weight]
    by_cases full : simplex.vertices.toFinset.card = dimension + 1
    · rw [if_pos full, if_pos full, (topsOf.top entriesMember).weight,
        ← ids_of_topOf builderWellFormed (known entries entriesMember), cellOf,
        Finset.eq_of_subset_of_card_le inside (by rw [topCard entries entriesMember, full])]
    · rw [if_neg full, if_neg full]
  · intro cell
    rw [cellsOf, List.mem_map]
    constructor
    · rintro ⟨simplex, member, rfl⟩
      obtain ⟨entries, entriesMember, inside, _⟩ := topOfSimplex simplex member
      obtain ⟨ball, large, combination⟩ := (topsOf.members entries).mp entriesMember
      have card := labels.card_cellOf wellFormed member
      refine ⟨?_, ?_, ball, large, ?_⟩
      · rw [← Finset.card_pos, card, List.length_pos_iff]
        exact (wellFormed.simplices simplex member).inhabited
      · rw [card, ← List.toFinset_card_of_nodup (wellFormed.simplices simplex member).ascending.nodup,
          ← topCard entries entriesMember]
        exact Finset.card_le_card inside
      · intro id idMember
        have named := Finset.image_mono (labelOf builder) inside idMember
        rw [ids_of_topOf builderWellFormed (known entries entriesMember), List.mem_toFinset] at named
        exact ((combination_entries combination).2.map Prod.fst).subset named
    · rintro ⟨nonempty, small, ball, large, inside⟩
      have ballNodup : ((ballMembers axis radius messages ball).map Prod.fst).Nodup :=
        ballMembers_ids_nodup topsOf.distinct
      have subset : cell ⊆ ((ballMembers axis radius messages ball).map Prod.fst).toFinset := fun id member =>
        List.mem_toFinset.mpr (inside id member)
      obtain ⟨whole, cellSubset, wholeSubset, wholeCard⟩ :=
        Finset.exists_subsuperset_card_eq subset small (by
          rw [List.toFinset_card_of_nodup ballNodup, List.length_map]
          exact large)
      obtain ⟨entries, combination, idSet⟩ := @exists_combination _ ballNodup whole fun id member =>
        List.mem_toFinset.mp (wholeSubset member)
      rw [wholeCard] at combination
      have entriesMember := (topsOf.members entries).mpr ⟨ball, large, combination⟩
      have idKnown : ∀ id ∈ cell, Known builder id := by
        intro id member
        have inEntries := cellSubset member
        rw [← idSet, List.mem_toFinset] at inEntries
        obtain ⟨entry, entryMember, rfl⟩ := List.mem_map.mp inEntries
        exact known entries entriesMember entry entryMember
      have vertices_subset : cell.image (vertexOf builder) ⊆ (topOf builder entries).1 := by
        intro v member
        obtain ⟨id, idMember, rfl⟩ := Finset.mem_image.mp member
        have inEntries := cellSubset idMember
        rw [← idSet, List.mem_toFinset] at inEntries
        obtain ⟨entry, entryMember, rfl⟩ := List.mem_map.mp inEntries
        exact List.mem_toFinset.mpr (List.mem_map.mpr ⟨entry, entryMember, rfl⟩)
      obtain ⟨simplex, member, vertices, _⟩ := wellFormed.indexed.content_eq_some.mp ((spanned _ _).mpr
        ⟨nonempty.image (vertexOf builder), topOf builder entries, List.mem_map_of_mem entriesMember,
          vertices_subset, rfl⟩)
      refine ⟨simplex, member, ?_⟩
      rw [cellOf, vertices]
      ext id
      simp only [Finset.mem_image]
      constructor
      · rintro ⟨_, ⟨other, otherMember, rfl⟩, rfl⟩
        rw [labelOf_vertexOf builderWellFormed (idKnown other otherMember)]
        exact otherMember
      · intro idMember
        exact ⟨_, ⟨id, idMember, rfl⟩, labelOf_vertexOf builderWellFormed (idKnown id idMember)⟩

end

theorem buildFromMessages_spec (order : HashMap.Order) {messages : List AdicMessage}
    (distinct : (messages.map AdicMessage.id).Nodup) (axis : UInt32) (radius dimension : Nat) :
    ∃ built, (∀ fuel, messages.length.choose (dimension + 1) ≤ fuel →
        AdicComplexBuilder.new.buildFromMessages order fuel messages axis radius dimension = some built) ∧
      BatchComplex messages axis radius dimension (labelOf built.builder) built.complex := by
  cases messages with
  | nil =>
    refine ⟨⟨AdicComplexBuilder.new, SimplicialComplex.new⟩, fun _ _ => rfl, new_wellFormed, .nil, ?_, ?_, ?_, ?_⟩
    · rintro _ member
      cases member
    · rintro _ member
      cases member
    · rintro _ member
      cases member
    · intro cell
      constructor
      · intro member
        cases member
      · rintro ⟨_, _, ball, large, _⟩
        exact absurd large (by simp [ballMembers])
  | cons message rest =>
    let messages := message :: rest
    let balls := order.iterate (HashMap.pairs (messages.foldl (groupMessage axis radius) ∅))
    obtain ⟨tops, run, members⟩ := foldlM_addBall dimension balls ⟨AdicComplexBuilder.new, SimplicialComplex.new⟩
    obtain ⟨builder, added, builderWellFormed, _, known⟩ :=
      @foldl_addEntries tops ⟨AdicComplexBuilder.new, SimplicialComplex.new⟩ newBuilder_wellFormed
    have topsOf : TopsOf messages axis radius dimension tops := by
      refine ⟨distinct, ?_⟩
      intro entries
      rw [members entries]
      constructor
      · rintro ⟨⟨ball, inBall⟩, inside, large, combination⟩
        obtain ⟨_, rfl⟩ := mem_balls.mp (HashMap.Order.mem_iterate.mp inside)
        exact ⟨ball, large, combination⟩
      · rintro ⟨ball, large, combination⟩
        refine ⟨(ball, ballMembers axis radius messages ball), ?_, large, combination⟩
        refine HashMap.Order.mem_iterate.mpr (mem_balls.mpr ⟨?_, rfl⟩)
        rw [← List.length_pos_iff]
        omega
    refine ⟨⟨builder, (addSimplices builder SimplicialComplex.new tops).sortByFiltration⟩, ?_,
      topsOf.batchComplex builderWellFormed known⟩
    intro fuel enough
    have ballsEnough : ∀ ball ∈ balls, ball.2.length.choose (dimension + 1) ≤ fuel := by
      rintro ⟨ball, inBall⟩ inside
      obtain ⟨_, rfl⟩ := mem_balls.mp (HashMap.Order.mem_iterate.mp inside)
      exact (Nat.choose_le_choose _ ballMembers_length_le).trans enough
    change (do
      let built ← balls.foldlM (addBall fuel dimension) ⟨AdicComplexBuilder.new, SimplicialComplex.new⟩
      return { built with complex := built.complex.sortByFiltration }) = _
    rw [run fuel ballsEnough, added]
    rfl

def neighbour (byte : UInt8) (seconds : Int) : AdicMessage where
  id := ⟨Bytes32.replicate byte⟩
  parents := []
  features := ⟨[⟨⟨0⟩, ⟨[1], 3⟩⟩]⟩
  metadata := AdicMeta.new ⟨seconds, 0⟩
  proposerPk := ⟨Bytes32.replicate 0⟩
  signature := Signature.empty
  transfer := none
  data := []

structure CompleteComplex (messages : List AdicMessage) (axis : UInt32) (radius dimension : Nat)
    (cells : List (Finset MessageId)) : Prop where
  exactly : ∀ cell, cell ∈ cells ↔ IsCell messages axis radius dimension cell
  once : cells.Nodup
  facesFirst : ∀ (i j : Nat) face coface, cells[i]? = some face → cells[j]? = some coface → face ⊂ coface → i < j

theorem BatchComplex.complete {messages : List AdicMessage} {axis : UInt32} {radius dimension : Nat}
    {label : Nat → MessageId} {complex : SimplicialComplex}
    (batch : BatchComplex messages axis radius dimension label complex) :
    CompleteComplex messages axis radius dimension (cellsOf label complex) := by
  refine ⟨batch.cells, batch.labels.cells_nodup batch.wellFormed, fun i j face coface faceFound cofaceFound proper => ?_⟩
  rw [cellsOf, List.getElem?_map, Option.map_eq_some_iff] at faceFound cofaceFound
  obtain ⟨low, lowFound, rfl⟩ := faceFound
  obtain ⟨high, highFound, rfl⟩ := cofaceFound
  obtain ⟨iBound, rfl⟩ := List.getElem?_eq_some_iff.mp lowFound
  obtain ⟨jBound, rfl⟩ := List.getElem?_eq_some_iff.mp highFound
  have memberI := List.getElem_mem iBound
  have memberJ := List.getElem_mem jBound
  have smaller := Finset.card_lt_card proper
  have bounded := ((batch.cells _).mp (List.mem_map_of_mem memberJ)).2.1
  have lightest : complex.simplices[i].weight = 0 := by
    rw [← batch.weights _ memberI, cellWeight, if_neg (by omega)]
  have weighs : 0 ≤ complex.simplices[j].weight := by
    rw [← batch.weights _ memberJ, cellWeight]
    split
    · exact (Finset.le_fold_max 0).mpr (.inl le_rfl)
    · exact le_rfl
  have lower : complex.simplices[i].dimension < complex.simplices[j].dimension := by
    have positive : 0 < (cellOf label complex.simplices[i]).card :=
      Finset.card_pos.mpr ((batch.cells _).mp (List.mem_map_of_mem memberI)).1
    rw [← batch.labels.dimension_cellOf batch.wellFormed memberI, ← batch.labels.dimension_cellOf batch.wellFormed memberJ]
    unfold Simplicial.dimension
    omega
  -- The order of the list leaves a proper face no place after its coface.
  by_contra late
  rcases Nat.eq_or_lt_of_le (Nat.le_of_not_lt late) with rfl | after
  · exact Nat.lt_irrefl _ lower
  · rcases List.pairwise_iff_getElem.mp batch.sorted j i jBound iBound after with lighter | ⟨_, flatter⟩
    · rw [lightest] at lighter
      exact absurd weighs (not_le.mpr lighter)
    · omega

/-- The complex has exactly the sets of messages that it is to have, and the combinations of a ball are visited once
    each, where `dimension + 1` fits a `usize`. -/
theorem ball_complex_complete (order : HashMap.Order) (messages : List AdicMessage)
    (distinct : (messages.map AdicMessage.id).Nodup) (axis : UInt32) (radius dimension : Nat) :
    (∃ built, (∀ fuel, messages.length.choose (dimension + 1) ≤ fuel →
        AdicComplexBuilder.new.buildFromMessages order fuel messages axis radius dimension = some built) ∧
      CompleteComplex messages axis radius dimension (cellsOf (labelOf built.builder) built.complex)) ∧
    ∀ n, dimension + 1 ≤ n → ∃ visited, Visits n (List.range (dimension + 1)) visited ∧ visited.Nodup ∧
      ∀ indices, indices ∈ visited ↔ Combination n indices ∧ indices.length = dimension + 1 := by
  constructor
  · obtain ⟨built, run, batch⟩ := buildFromMessages_spec order distinct axis radius dimension
    exact ⟨built, run, batch.complete⟩
  · intro n enough
    obtain ⟨visited, visits, -, once, all⟩ := visits_all (Nat.succ_pos dimension) enough
    exact ⟨visited, visits, once, all⟩

theorem ball_complex_complete_pair : ([neighbour 1 10, neighbour 2 20].map AdicMessage.id).Nodup ∧ ∃ built,
    (∀ fuel, Nat.choose 2 2 ≤ fuel → AdicComplexBuilder.new.buildFromMessages .stored fuel
      [neighbour 1 10, neighbour 2 20] 0 1 1 = some built) ∧
    CompleteComplex [neighbour 1 10, neighbour 2 20] 0 1 1 (cellsOf (labelOf built.builder) built.complex) :=
  ⟨by decide, (ball_complex_complete .stored [neighbour 1 10, neighbour 2 20] (by decide) 0 1 1).1⟩

end AdicProof.Finality
