import AdicCore.Library.Runs
import AdicCore.Types.Message

namespace AdicModel.Consensus

/-- Supports and energies are exact numbers. -/
structure ConflictEnergy where
  support : HashMap.Table MessageId ℚ
  totalEnergy : ℚ
  isDescending : Bool
  energyHistory : List ℚ

namespace ConflictEnergy

def new : ConflictEnergy := ⟨∅, 0, false, []⟩

def findLeader (entries : List (MessageId × ℚ)) : ℚ × Option MessageId :=
  entries.foldl (fun (maxSupport, winnerId) (msgId, support) =>
    if support > maxSupport then (support, some msgId) else (maxSupport, winnerId)) (0, none)

def signedSupport (winnerId : Option MessageId) (entries : List (MessageId × ℚ)) : ℚ :=
  entries.foldl (fun signed (msgId, support) => signed + (if some msgId = winnerId then 1 else -1) * support) 0

def checkDrift (conflict : ConflictEnergy) : ConflictEnergy :=
  let history := conflict.energyHistory
  if history.length ≥ 2 then
    { conflict with isDescending := history.getD (history.length - 1) 0 < history.getD (history.length - 2) 0 }
  else conflict

def keepRecent (history : List ℚ) : List ℚ := if history.length ≥ 100 then history.eraseIdx 0 else history

def updateEnergy (order : HashMap.Order) (conflict : ConflictEnergy) : ConflictEnergy :=
  let entries := order.iterate (HashMap.pairs conflict.support)
  let winnerId := (findLeader entries).2
  checkDrift { conflict with
    energyHistory := keepRecent conflict.energyHistory ++ [conflict.totalEnergy]
    totalEnergy := |signedSupport winnerId entries| }

/-- `max_by` returns the last of several maxima. -/
def maxBySupport : List (MessageId × ℚ) → Option (MessageId × ℚ)
  | [] => none
  | entry :: entries => some (entries.foldl (fun best entry => if best.2 > entry.2 then best else entry) entry)

def getWinner (order : HashMap.Order) (conflict : ConflictEnergy) : Option MessageId :=
  (maxBySupport (order.iterate (HashMap.pairs conflict.support))).map Prod.fst

def isResolved (threshold : ℚ) (conflict : ConflictEnergy) : Bool :=
  conflict.totalEnergy < threshold && conflict.isDescending

end ConflictEnergy

structure EnergyDescentTracker where
  conflicts : HashMap.Table ConflictId ConflictEnergy
  delta : ℚ

namespace EnergyDescentTracker

def new : EnergyDescentTracker := ⟨∅, 1 / 10⟩

def updateSupport (order : HashMap.Order) (conflictId : ConflictId) (messageId : MessageId) (support : ℚ)
    (tracker : EnergyDescentTracker) : EnergyDescentTracker :=
  let conflict := (tracker.conflicts.lookup conflictId).getD .new
  let conflict := { conflict with support := conflict.support.insert messageId support }
  { tracker with conflicts := tracker.conflicts.insert conflictId (conflict.updateEnergy order) }

def getWinner (order : HashMap.Order) (conflictId : ConflictId) (tracker : EnergyDescentTracker) : Option MessageId :=
  ((tracker.conflicts.lookup conflictId).filter (ConflictEnergy.isResolved tracker.delta)).bind
    (ConflictEnergy.getWinner order)

end EnergyDescentTracker

structure SupportUpdate where
  conflictId : ConflictId
  messageId : MessageId
  support : ℚ

end AdicModel.Consensus

open AdicModel AdicModel.Consensus

namespace AdicProof.Consensus

def trackerAfter (order : HashMap.Order) (updates : List SupportUpdate) : EnergyDescentTracker :=
  Runs.after (fun tracker update => tracker.updateSupport order update.conflictId update.messageId update.support) .new
    updates

def supportsAfter (updates : List SupportUpdate) : HashMap.Table MessageId ℚ :=
  updates.foldl (fun supports update => supports.insert update.messageId update.support) ∅

def updatesOf (conflictId : ConflictId) (updates : List SupportUpdate) : List SupportUpdate :=
  updates.filter fun update => update.conflictId = conflictId

/-- A winner has the most support, and is the same for all orders of the map. -/
def UniqueWinner (conflictId : ConflictId) (updates : List SupportUpdate) : Prop :=
  ∀ writing reading winner, (trackerAfter writing updates).getWinner reading conflictId = some winner →
    (∃ support, (supportsAfter (updatesOf conflictId updates)).lookup winner = some support ∧
      ∀ other less, other ≠ winner → (supportsAfter (updatesOf conflictId updates)).lookup other = some less →
        less < support) ∧
    ∀ writing' reading', (trackerAfter writing' updates).getWinner reading' conflictId = some winner

/-- Twice the highest positive support without all supports, in absolute value. -/
def energyOf (supports : List ℚ) : ℚ := |2 * supports.foldl max 0 - supports.sum|

def energyAfter (updates : List SupportUpdate) : ℚ :=
  energyOf ((HashMap.pairs (supportsAfter updates)).map Prod.snd)

/-- The energy is small now, and fell with the update before the last. -/
def ResolvedBy (updates : List SupportUpdate) : Prop :=
  ∃ earlier previous last, updates = earlier ++ [previous] ++ [last] ∧ energyAfter updates < 1 / 10 ∧
    energyAfter (earlier ++ [previous]) < energyAfter earlier

def OneLeader (supports : HashMap.Table MessageId ℚ) : Prop :=
  ∃ leader support, supports.lookup leader = some support ∧
    ∀ other less, other ≠ leader → supports.lookup other = some less → less < support

variable {leader : MessageId}

section

variable {entries other : List (MessageId × ℚ)} {best entry : MessageId × ℚ}

theorem findLeader_max (entries : List (MessageId × ℚ)) (most : ℚ) (winner : Option MessageId) :
    (entries.foldl (fun (maxSupport, winnerId) (msgId, support) =>
      if support > maxSupport then (support, some msgId) else (maxSupport, winnerId)) (most, winner)).1 =
      (entries.map Prod.snd).foldl max most := by
  induction entries generalizing most winner with
  | nil => rfl
  | cons entry entries ih =>
    rw [List.foldl_cons, List.map_cons, List.foldl_cons]
    dsimp only
    split
    · next higher => rw [ih, max_eq_right higher.le]
    · next lower => rw [ih, max_eq_left (not_lt.mp lower)]

theorem findLeader_cases (entries : List (MessageId × ℚ)) (most : ℚ) (winner : Option MessageId) :
    entries.foldl (fun (maxSupport, winnerId) (msgId, support) =>
      if support > maxSupport then (support, some msgId) else (maxSupport, winnerId)) (most, winner) = (most, winner) ∨
    ∃ leader support, (leader, support) ∈ entries ∧
      entries.foldl (fun (maxSupport, winnerId) (msgId, support) =>
        if support > maxSupport then (support, some msgId) else (maxSupport, winnerId)) (most, winner) =
        (support, some leader) := by
  induction entries generalizing most winner with
  | nil => exact .inl rfl
  | cons entry entries ih =>
    obtain ⟨msgId, support⟩ := entry
    rw [List.foldl_cons]
    dsimp only
    split
    · rcases ih support (some msgId) with same | ⟨leader, found, member, same⟩
      · exact .inr ⟨msgId, support, List.mem_cons_self, same⟩
      · exact .inr ⟨leader, found, List.mem_cons_of_mem _ member, same⟩
    · rcases ih most winner with same | ⟨leader, found, member, same⟩
      · exact .inl same
      · exact .inr ⟨leader, found, List.mem_cons_of_mem _ member, same⟩

theorem signedSupport_eq_sum (winner : Option MessageId) (entries : List (MessageId × ℚ)) :
    ConflictEnergy.signedSupport winner entries =
      (entries.map fun entry => (if some entry.1 = winner then 1 else -1) * entry.2).sum := by
  have start : ∀ signed, entries.foldl (fun signed (msgId, support) =>
      signed + (if some msgId = winner then 1 else -1) * support) signed =
      signed + (entries.map fun entry => (if some entry.1 = winner then 1 else -1) * entry.2).sum := by
    induction entries with
    | nil => simp
    | cons entry entries ih =>
      intro signed
      rw [List.foldl_cons, ih, List.map_cons, List.sum_cons]
      ring
  have summed := start 0
  rw [zero_add] at summed
  exact summed

theorem sum_others (absent : leader ∉ entries.map Prod.fst) :
    (entries.map fun entry => (if some entry.1 = some leader then 1 else -1) * entry.2).sum =
      -(entries.map Prod.snd).sum := by
  induction entries with
  | nil => simp
  | cons entry entries ih =>
    simp only [List.map_cons, List.mem_cons, not_or] at absent
    have different : ¬ some entry.1 = some leader := fun same => absent.1 (Option.some.inj same).symm
    rw [List.map_cons, List.sum_cons, ih absent.2, if_neg different, List.map_cons, List.sum_cons]
    ring

theorem sum_signs {support : ℚ} (nodup : (entries.map Prod.fst).Nodup)
    (member : (leader, support) ∈ entries) :
    (entries.map fun entry => (if some entry.1 = some leader then 1 else -1) * entry.2).sum =
      2 * support - (entries.map Prod.snd).sum := by
  induction entries with
  | nil => cases member
  | cons entry entries ih =>
    rw [List.map_cons, List.nodup_cons] at nodup
    rw [List.map_cons, List.sum_cons, List.map_cons, List.sum_cons]
    rcases List.mem_cons.mp member with same | later
    · subst same
      rw [if_pos rfl, sum_others nodup.1]
      ring
    · have different : ¬ some entry.1 = some leader := by
        intro same
        apply nodup.1
        rw [Option.some.inj same]
        exact List.mem_map_of_mem later
      rw [if_neg different, ih nodup.2 later]
      ring

theorem abs_signedSupport (nodup : (entries.map Prod.fst).Nodup) :
    |ConflictEnergy.signedSupport (ConflictEnergy.findLeader entries).2 entries| = energyOf (entries.map Prod.snd) := by
  have most := findLeader_max entries 0 none
  rw [signedSupport_eq_sum]
  unfold energyOf ConflictEnergy.findLeader
  rcases findLeader_cases entries 0 none with same | ⟨leader, support, member, same⟩
  · rw [same] at most
    rw [same, ← most]
    have negative : ∀ entry : MessageId × ℚ, (if some entry.1 = none then 1 else -1) * entry.2 = -1 * entry.2 := by
      intro entry
      simp
    simp only [negative, List.sum_map_mul_left]
    congr 1
    ring
  · rw [same] at most
    rw [same, ← most, sum_signs nodup member]

theorem energyOf_perm {first second : List ℚ} (perm : first.Perm second) : energyOf first = energyOf second := by
  unfold energyOf
  rw [perm.sum_eq, perm.foldl_eq' (fun x _ y _ z => max_right_comm z x y)]

theorem maxBySupport_spec (found : ConflictEnergy.maxBySupport entries = some best) :
    best ∈ entries ∧ ∀ entry ∈ entries, entry.2 ≤ best.2 := by
  cases entries with
  | nil => cases found
  | cons first entries =>
    cases found
    induction entries generalizing first with
    | nil => simp
    | cons second entries ih =>
      rw [List.foldl_cons]
      split
      · next higher =>
        obtain ⟨member, most⟩ := ih first
        constructor
        · rcases List.mem_cons.mp member with same | later
          · rw [same]
            exact List.mem_cons_self
          · exact List.mem_cons_of_mem _ (List.mem_cons_of_mem _ later)
        · intro entry listed
          simp only [List.mem_cons] at listed
          rcases listed with rfl | rfl | later
          · exact most _ List.mem_cons_self
          · exact higher.le.trans (most _ List.mem_cons_self)
          · exact most _ (List.mem_cons_of_mem _ later)
      · next lower =>
        obtain ⟨member, most⟩ := ih second
        constructor
        · exact List.mem_cons_of_mem _ member
        · intro entry listed
          rcases List.mem_cons.mp listed with rfl | later
          · exact (not_lt.mp lower).trans (most _ List.mem_cons_self)
          · exact most _ later

theorem maxBySupport_some (nonempty : entries ≠ []) : ∃ best, ConflictEnergy.maxBySupport entries = some best := by
  cases entries with
  | nil => exact absurd rfl nonempty
  | cons entry entries => exact ⟨_, rfl⟩

end

section

variable {order : HashMap.Order} {conflictId : ConflictId} {updates : List SupportUpdate}

def conflictStep (order : HashMap.Order) (conflict : ConflictEnergy) (update : SupportUpdate) : ConflictEnergy :=
  ConflictEnergy.updateEnergy order { conflict with support := conflict.support.insert update.messageId update.support }

def conflictAfter (order : HashMap.Order) (updates : List SupportUpdate) : ConflictEnergy :=
  Runs.after (conflictStep order) .new updates

theorem conflictAfter_snoc (order : HashMap.Order) (before : List SupportUpdate) (update : SupportUpdate) :
    conflictAfter order (before ++ [update]) = conflictStep order (conflictAfter order before) update :=
  Runs.after_snoc before update

theorem trackerAfter_snoc (order : HashMap.Order) (before : List SupportUpdate) (update : SupportUpdate) :
    trackerAfter order (before ++ [update]) =
      (trackerAfter order before).updateSupport order update.conflictId update.messageId update.support :=
  Runs.after_snoc before update

theorem delta_trackerAfter (order : HashMap.Order) (updates : List SupportUpdate) :
    (trackerAfter order updates).delta = 1 / 10 := by
  induction updates using List.reverseRecOn with
  | nil => rfl
  | append_singleton before update ih =>
    rw [trackerAfter_snoc]
    exact ih

theorem lookup_trackerAfter (order : HashMap.Order) (conflictId : ConflictId) (updates : List SupportUpdate) :
    (trackerAfter order updates).conflicts.lookup conflictId =
      if updatesOf conflictId updates = [] then none else some (conflictAfter order (updatesOf conflictId updates)) := by
  induction updates using List.reverseRecOn with
  | nil => rfl
  | append_singleton before update ih =>
    rw [trackerAfter_snoc]
    unfold EnergyDescentTracker.updateSupport updatesOf
    dsimp only
    rw [HashMap.lookup_insert_eq, List.filter_append]
    by_cases same : update.conflictId = conflictId
    · have tail : [update].filter (fun update => update.conflictId = conflictId) = [update] := by simp [same]
      rw [if_pos same.symm, tail, if_neg (by simp), conflictAfter_snoc, same, ih]
      unfold updatesOf
      split
      · next empty =>
        rw [empty]
        rfl
      · rfl
    · have tail : [update].filter (fun update => update.conflictId = conflictId) = [] := by simp [same]
      rw [if_neg (Ne.symm same), tail, List.append_nil, ih]
      rfl

theorem supportsAfter_snoc (before : List SupportUpdate) (update : SupportUpdate) :
    supportsAfter (before ++ [update]) = (supportsAfter before).insert update.messageId update.support := by
  simp [supportsAfter]

@[simp] theorem checkDrift_support (conflict : ConflictEnergy) : conflict.checkDrift.support = conflict.support := by
  unfold ConflictEnergy.checkDrift
  dsimp only
  split <;> rfl

@[simp] theorem checkDrift_totalEnergy (conflict : ConflictEnergy) :
    conflict.checkDrift.totalEnergy = conflict.totalEnergy := by
  unfold ConflictEnergy.checkDrift
  dsimp only
  split <;> rfl

@[simp] theorem checkDrift_energyHistory (conflict : ConflictEnergy) :
    conflict.checkDrift.energyHistory = conflict.energyHistory := by
  unfold ConflictEnergy.checkDrift
  dsimp only
  split <;> rfl

theorem checkDrift_isDescending {conflict : ConflictEnergy} {older : List ℚ} {previous last : ℚ}
    (history : conflict.energyHistory = older ++ [last]) (before : older.getLast? = some previous) :
    conflict.checkDrift.isDescending = decide (last < previous) := by
  obtain ⟨oldest, rfl⟩ := List.getLast?_eq_some_iff.mp before
  unfold ConflictEnergy.checkDrift
  simp [history]

theorem checkDrift_short {conflict : ConflictEnergy} (short : conflict.energyHistory.length ≤ 1) :
    conflict.checkDrift.isDescending = conflict.isDescending := by
  unfold ConflictEnergy.checkDrift
  dsimp only
  rw [if_neg (by omega)]

theorem keepRecent_getLast? (history : List ℚ) : (ConflictEnergy.keepRecent history).getLast? = history.getLast? := by
  unfold ConflictEnergy.keepRecent
  split
  · next full =>
    match history with
    | [] => rfl
    | [_] => simp at full
    | first :: second :: rest => simp
  · rfl

theorem updateEnergy_totalEnergy (conflict : ConflictEnergy) :
    (conflict.updateEnergy order).totalEnergy = energyOf ((HashMap.pairs conflict.support).map Prod.snd) := by
  have perm := order.perm (HashMap.pairs conflict.support)
  have nodup : ((order.iterate (HashMap.pairs conflict.support)).map Prod.fst).Nodup :=
    (perm.map Prod.fst).nodup_iff.mpr (HashMap.pairs_keys_nodup conflict.support)
  rw [← energyOf_perm (perm.map Prod.snd), ← abs_signedSupport nodup]
  simp [ConflictEnergy.updateEnergy]

theorem support_conflictAfter (order : HashMap.Order) (updates : List SupportUpdate) :
    (conflictAfter order updates).support = supportsAfter updates := by
  induction updates using List.reverseRecOn with
  | nil => rfl
  | append_singleton before update ih =>
    rw [conflictAfter_snoc, supportsAfter_snoc, ← ih]
    simp [conflictStep, ConflictEnergy.updateEnergy]

theorem totalEnergy_conflictAfter (order : HashMap.Order) (updates : List SupportUpdate) :
    (conflictAfter order updates).totalEnergy = energyAfter updates := by
  cases updates using List.reverseRecOn with
  | nil =>
    show (0 : ℚ) = |2 * 0 - 0|
    norm_num
  | append_singleton before update =>
    rw [conflictAfter_snoc, conflictStep, updateEnergy_totalEnergy, support_conflictAfter, energyAfter, supportsAfter_snoc]

theorem history_conflictAfter (order : HashMap.Order) (before : List SupportUpdate) (update : SupportUpdate) :
    (conflictAfter order (before ++ [update])).energyHistory =
      ConflictEnergy.keepRecent (conflictAfter order before).energyHistory ++ [energyAfter before] := by
  rw [conflictAfter_snoc, ← totalEnergy_conflictAfter order before]
  simp [conflictStep, ConflictEnergy.updateEnergy]

theorem isDescending_one (order : HashMap.Order) (update : SupportUpdate) :
    (conflictAfter order [update]).isDescending = false := by
  rw [← List.nil_append [update], conflictAfter_snoc, conflictStep, ConflictEnergy.updateEnergy]
  apply checkDrift_short
  exact Nat.le_refl 1

theorem isDescending_more (order : HashMap.Order) (earlier : List SupportUpdate) (previous last : SupportUpdate) :
    (conflictAfter order (earlier ++ [previous] ++ [last])).isDescending =
      decide (energyAfter (earlier ++ [previous]) < energyAfter earlier) := by
  have total := totalEnergy_conflictAfter order (earlier ++ [previous])
  have history := history_conflictAfter order earlier previous
  rw [conflictAfter_snoc, conflictStep, ConflictEnergy.updateEnergy, ← total]
  apply checkDrift_isDescending rfl
  rw [keepRecent_getLast?, history, List.getLast?_concat]

theorem isResolved_conflictAfter (order : HashMap.Order) (updates : List SupportUpdate) :
    (conflictAfter order updates).isResolved (1 / 10) = true ↔ ResolvedBy updates := by
  unfold ConflictEnergy.isResolved ResolvedBy
  rw [Bool.and_eq_true, decide_eq_true_eq, totalEnergy_conflictAfter]
  cases updates using List.reverseRecOn with
  | nil => simp [conflictAfter, ConflictEnergy.new]
  | append_singleton before last =>
    cases before using List.reverseRecOn with
    | nil =>
      rw [List.nil_append, isDescending_one]
      constructor
      · rintro ⟨_, isDescending⟩
        cases isDescending
      · rintro ⟨earlier, previous, last', split, _⟩
        have lengths := congrArg List.length split
        simp at lengths
    | append_singleton earlier previous =>
      rw [isDescending_more, decide_eq_true_eq]
      constructor
      · intro resolved
        exact ⟨earlier, previous, last, rfl, resolved.1, resolved.2⟩
      · rintro ⟨earlier', previous', last', split, low, fell⟩
        have before := (List.append_inj' split rfl).1
        have parts := List.append_inj' before rfl
        rw [before, parts.1]
        rw [before] at low
        exact ⟨low, fell⟩

theorem getWinner_trackerAfter {writing reading : HashMap.Order} {winner : MessageId} :
    (trackerAfter writing updates).getWinner reading conflictId = some winner ↔
      ResolvedBy (updatesOf conflictId updates) ∧ ∃ support,
        ConflictEnergy.maxBySupport
          (reading.iterate (HashMap.pairs (supportsAfter (updatesOf conflictId updates)))) = some (winner, support) := by
  unfold EnergyDescentTracker.getWinner
  rw [lookup_trackerAfter, delta_trackerAfter]
  split
  · next empty =>
    rw [empty]
    simp [ResolvedBy]
  · rw [Option.filter_some, ← isResolved_conflictAfter writing]
    generalize (conflictAfter writing (updatesOf conflictId updates)).isResolved (1 / 10) = resolved
    cases resolved <;> simp [ConflictEnergy.getWinner, support_conflictAfter]

theorem supports_nonempty (resolved : ResolvedBy updates) : HashMap.pairs (supportsAfter updates) ≠ [] := by
  obtain ⟨earlier, previous, last, rfl, _⟩ := resolved
  intro empty
  have stored : (last.messageId, last.support) ∈ HashMap.pairs (supportsAfter (earlier ++ [previous] ++ [last])) := by
    rw [HashMap.mem_pairs, supportsAfter_snoc, AList.lookup_insert]
  rw [empty] at stored
  cases stored

theorem maxBySupport_leader {reading : HashMap.Order} {supports : HashMap.Table MessageId ℚ}
    {support : ℚ} {best : MessageId × ℚ} (stored : supports.lookup leader = some support)
    (most : ∀ other less, other ≠ leader → supports.lookup other = some less → less < support)
    (found : ConflictEnergy.maxBySupport (reading.iterate (HashMap.pairs supports)) = some best) :
    best.1 = leader := by
  obtain ⟨member, highest⟩ := maxBySupport_spec found
  rw [HashMap.Order.mem_iterate] at member
  have least := highest (leader, support) (HashMap.Order.mem_iterate.mpr (HashMap.mem_pairs.mpr stored))
  by_contra different
  exact absurd (most best.1 best.2 different (HashMap.mem_pairs.mp member)) (not_lt.mpr least)

/-- There is one winner under all orders exactly if nothing is resolved or the last supports have one leader. -/
theorem unique_winner_iff (conflictId : ConflictId) (updates : List SupportUpdate) :
    UniqueWinner conflictId updates ↔
      (ResolvedBy (updatesOf conflictId updates) → OneLeader (supportsAfter (updatesOf conflictId updates))) := by
  constructor
  · intro unique resolved
    have nonempty : HashMap.Order.stored.iterate (HashMap.pairs (supportsAfter (updatesOf conflictId updates))) ≠ [] :=
      supports_nonempty resolved
    obtain ⟨⟨winner, support⟩, found⟩ := maxBySupport_some nonempty
    obtain ⟨⟨support, stored, most⟩, _⟩ := unique .stored .stored winner
      (getWinner_trackerAfter.mpr ⟨resolved, support, found⟩)
    exact ⟨winner, support, stored, most⟩
  · intro oneLeader writing reading winner won
    obtain ⟨resolved, support, found⟩ := getWinner_trackerAfter.mp won
    obtain ⟨leader, most, stored, above⟩ := oneLeader resolved
    have same : winner = leader := maxBySupport_leader stored above found
    subst same
    refine ⟨⟨most, stored, above⟩, ?_⟩
    intro writing' reading'
    have nonempty : reading'.iterate (HashMap.pairs (supportsAfter (updatesOf conflictId updates))) ≠ [] := by
      intro empty
      have perm := reading'.perm (HashMap.pairs (supportsAfter (updatesOf conflictId updates)))
      rw [empty] at perm
      exact supports_nonempty resolved perm.nil_eq.symm
    obtain ⟨⟨other, support'⟩, found'⟩ := maxBySupport_some nonempty
    have also : other = winner := maxBySupport_leader stored above found'
    subst also
    exact getWinner_trackerAfter.mpr ⟨resolved, support', found'⟩

end

def evenConflict : List SupportUpdate :=
  [⟨⟨"double-spend"⟩, ⟨.replicate 1⟩, 2⟩, ⟨⟨"double-spend"⟩, ⟨.replicate 2⟩, 1⟩, ⟨⟨"double-spend"⟩, ⟨.replicate 2⟩, 2⟩]

theorem winner_by_order :
    (trackerAfter .stored evenConflict).getWinner .stored ⟨"double-spend"⟩ = some ⟨.replicate 1⟩ ∧
      (trackerAfter .stored evenConflict).getWinner .reversed ⟨"double-spend"⟩ = some ⟨.replicate 2⟩ ∧
      ¬ ∀ conflictId updates, UniqueWinner conflictId updates := by
  have first : (trackerAfter .stored evenConflict).getWinner .stored ⟨"double-spend"⟩ = some ⟨.replicate 1⟩ := by
    decide +kernel
  have second : (trackerAfter .stored evenConflict).getWinner .reversed ⟨"double-spend"⟩ = some ⟨.replicate 2⟩ := by
    decide +kernel
  refine ⟨first, second, ?_⟩
  intro unique
  have also := (unique _ _ _ _ _ first).2 .stored .reversed
  rw [second] at also
  exact absurd also (by decide)

end AdicProof.Consensus
