import Mathlib

namespace TolerantOrder

/-- A rank, then a measure whose differences count from a tolerance on, then an identity. -/
structure Criteria (α ρ κ R : Type*) [Zero R] [LE R] where
  rank : α → ρ
  measure : α → R
  identity : α → κ
  tolerance : R
  nonneg : 0 ≤ tolerance

variable {α ρ κ R : Type*} [LinearOrder ρ] [LinearOrder κ] [Field R] [LinearOrder R] [IsStrictOrderedRing R]

def Criteria.Closer (criteria : Criteria α ρ κ R) (a b : α) : Prop :=
  criteria.tolerance < criteria.measure a - criteria.measure b ∨
    |criteria.measure a - criteria.measure b| ≤ criteria.tolerance ∧ criteria.identity b < criteria.identity a

def Criteria.Beats (criteria : Criteria α ρ κ R) (a b : α) : Prop :=
  criteria.rank b < criteria.rank a ∨ criteria.rank a = criteria.rank b ∧ criteria.Closer a b

structure Criteria.Cycle (criteria : Criteria α ρ κ R) (a b c : α) : Prop where
  ranks : criteria.rank a = criteria.rank b ∧ criteria.rank b = criteria.rank c
  first : |criteria.measure a - criteria.measure b| ≤ criteria.tolerance ∧ criteria.identity b < criteria.identity a
  second : |criteria.measure b - criteria.measure c| ≤ criteria.tolerance ∧ criteria.identity c < criteria.identity b
  closing : criteria.tolerance < criteria.measure c - criteria.measure a

section

variable {criteria : Criteria α ρ κ R} {a b c : α}

omit [LinearOrder ρ] in
theorem closer_asymm (closer : criteria.Closer a b) : ¬criteria.Closer b a := by
  have nonneg := criteria.nonneg
  have swapped := abs_sub_comm (criteria.measure a) (criteria.measure b)
  rcases closer with ahead | ⟨near, larger⟩
  · have distance := le_abs_self (criteria.measure a - criteria.measure b)
    rintro (behind | ⟨near, _⟩)
    · linarith
    · linarith
  · have distance := le_abs_self (criteria.measure b - criteria.measure a)
    rintro (behind | ⟨_, smaller⟩)
    · linarith
    · exact absurd larger (lt_asymm smaller)

omit [LinearOrder ρ] [IsStrictOrderedRing R] in
theorem closer_total (distinct : criteria.identity a ≠ criteria.identity b) :
    criteria.Closer a b ∨ criteria.Closer b a := by
  by_cases near : |criteria.measure a - criteria.measure b| ≤ criteria.tolerance
  · rcases lt_or_gt_of_ne distinct with smaller | larger
    · exact Or.inr (Or.inr ⟨by rwa [abs_sub_comm], smaller⟩)
    · exact Or.inl (Or.inr ⟨near, larger⟩)
  · rcases lt_abs.mp (not_le.mp near) with ahead | behind
    · exact Or.inl (Or.inl ahead)
    · exact Or.inr (Or.inl (by rwa [neg_sub] at behind))

theorem beats_asymm (beats : criteria.Beats a b) : ¬criteria.Beats b a := by
  rcases beats with higher | ⟨same, closer⟩
  · rintro (lower | ⟨same, _⟩)
    · exact absurd higher (lt_asymm lower)
    · exact absurd same (ne_of_lt higher)
  · rintro (lower | ⟨_, other⟩)
    · exact absurd same (ne_of_lt lower)
    · exact closer_asymm closer other

omit [IsStrictOrderedRing R] in
theorem beats_total (distinct : criteria.identity a ≠ criteria.identity b) :
    criteria.Beats a b ∨ criteria.Beats b a := by
  rcases lt_trichotomy (criteria.rank a) (criteria.rank b) with lower | same | higher
  · exact Or.inr (Or.inl lower)
  · rcases closer_total distinct with closer | closer
    · exact Or.inl (Or.inr ⟨same, closer⟩)
    · exact Or.inr (Or.inr ⟨same.symm, closer⟩)
  · exact Or.inl (Or.inl higher)

omit [IsStrictOrderedRing R] in
theorem rank_le_of_beats (beats : criteria.Beats a b) : criteria.rank b ≤ criteria.rank a := by
  rcases beats with higher | ⟨same, _⟩
  · exact higher.le
  · exact same.ge

omit [IsStrictOrderedRing R] in
theorem closer_of_beats (same : criteria.rank a = criteria.rank b) (beats : criteria.Beats a b) :
    criteria.Closer a b := by
  rcases beats with higher | ⟨_, closer⟩
  · exact absurd same.symm (ne_of_lt higher)
  · exact closer

theorem not_beats_of_tie (ranks : criteria.rank a = criteria.rank b)
    (identities : criteria.identity a = criteria.identity b)
    (near : |criteria.measure a - criteria.measure b| ≤ criteria.tolerance) : ¬criteria.Beats a b := by
  intro beats
  have distance := le_abs_self (criteria.measure a - criteria.measure b)
  rcases closer_of_beats ranks beats with ahead | ⟨_, smaller⟩
  · linarith
  · exact absurd identities.symm (ne_of_lt smaller)

omit [LinearOrder ρ] in
theorem not_closer_back (first : criteria.tolerance < criteria.measure a - criteria.measure b)
    (second : criteria.tolerance < criteria.measure b - criteria.measure c) : ¬criteria.Closer c a := by
  have nonneg := criteria.nonneg
  have distance := neg_abs_le (criteria.measure c - criteria.measure a)
  rintro (ahead | ⟨near, _⟩)
  · linarith
  · linarith

omit [IsStrictOrderedRing R] in
theorem Criteria.Cycle.beats (cycle : criteria.Cycle a b c) :
    criteria.Beats a b ∧ criteria.Beats b c ∧ criteria.Beats c a :=
  ⟨Or.inr ⟨cycle.ranks.1, Or.inr cycle.first⟩, Or.inr ⟨cycle.ranks.2, Or.inr cycle.second⟩,
    Or.inr ⟨(cycle.ranks.1.trans cycle.ranks.2).symm, Or.inl cycle.closing⟩⟩

theorem cycle_of_beats (first : criteria.Beats a b) (second : criteria.Beats b c) (back : criteria.Beats c a) :
    criteria.Cycle a b c ∨ criteria.Cycle b c a ∨ criteria.Cycle c a b := by
  have ab := rank_le_of_beats first
  have bc := rank_le_of_beats second
  have ca := rank_le_of_beats back
  have sameAb : criteria.rank a = criteria.rank b := le_antisymm (ca.trans bc) ab
  have sameBc : criteria.rank b = criteria.rank c := le_antisymm (ab.trans ca) bc
  have sameCa : criteria.rank c = criteria.rank a := (sameAb.trans sameBc).symm
  have closerAb := closer_of_beats sameAb first
  have closerBc := closer_of_beats sameBc second
  have closerCa := closer_of_beats sameCa back
  rcases closerAb with aheadAb | nearAb
  · rcases closerBc with aheadBc | nearBc
    · exact absurd closerCa (not_closer_back aheadAb aheadBc)
    · rcases closerCa with aheadCa | nearCa
      · exact absurd (Or.inr nearBc) (not_closer_back aheadCa aheadAb)
      · exact Or.inr (Or.inl ⟨⟨sameBc, sameCa⟩, nearBc, nearCa, aheadAb⟩)
  · rcases closerBc with aheadBc | nearBc
    · rcases closerCa with aheadCa | nearCa
      · exact absurd (Or.inr nearAb) (not_closer_back aheadBc aheadCa)
      · exact Or.inr (Or.inr ⟨⟨sameCa, sameAb⟩, nearCa, nearAb, aheadBc⟩)
    · rcases closerCa with aheadCa | nearCa
      · exact Or.inl ⟨⟨sameAb, sameBc⟩, nearAb, nearBc, aheadCa⟩
      · exact absurd (nearAb.2.trans nearCa.2) (lt_asymm nearBc.2)

end

/-- The order is transitive on a list exactly if the list has no such cycle. -/
theorem transitive_iff {criteria : Criteria α ρ κ R} {members : List α}
    (distinct : ∀ a ∈ members, ∀ b ∈ members, criteria.identity a = criteria.identity b → a = b) :
    (∀ a ∈ members, ∀ b ∈ members, ∀ c ∈ members, criteria.Beats a b → criteria.Beats b c → criteria.Beats a c) ↔
      ¬∃ a ∈ members, ∃ b ∈ members, ∃ c ∈ members, criteria.Cycle a b c := by
  constructor
  · rintro transitive ⟨a, memberA, b, memberB, c, memberC, cycle⟩
    obtain ⟨first, second, back⟩ := cycle.beats
    exact beats_asymm (transitive a memberA b memberB c memberC first second) back
  · intro acyclic a memberA b memberB c memberC first second
    have different : criteria.identity a ≠ criteria.identity c := by
      intro same
      rw [distinct a memberA c memberC same] at first
      exact beats_asymm first second
    apply (beats_total different).resolve_right
    intro back
    rcases cycle_of_beats first second back with cycle | cycle | cycle
    · exact acyclic ⟨a, memberA, b, memberB, c, memberC, cycle⟩
    · exact acyclic ⟨b, memberB, c, memberC, a, memberA, cycle⟩
    · exact acyclic ⟨c, memberC, a, memberA, b, memberB, cycle⟩

/-- A list whose different members are compared transitively has a member that beats all others. -/
theorem exists_best {beats : α → α → Prop} {members : List α} (nonempty : members ≠ [])
    (total : ∀ a ∈ members, ∀ b ∈ members, a ≠ b → beats a b ∨ beats b a)
    (transitive : ∀ a ∈ members, ∀ b ∈ members, ∀ c ∈ members, beats a b → beats b c → beats a c) :
    ∃ best ∈ members, ∀ other ∈ members, other ≠ best → beats best other := by
  induction members with
  | nil => exact absurd rfl nonempty
  | cons head rest ih =>
    rcases eq_or_ne rest [] with none | some
    · exact ⟨head, List.mem_cons_self, fun other member different => by simp_all⟩
    · obtain ⟨best, member, ahead⟩ := ih some
        (fun a memberA b memberB => total a (List.mem_cons_of_mem _ memberA) b (List.mem_cons_of_mem _ memberB))
        (fun a memberA b memberB c memberC => transitive a (List.mem_cons_of_mem _ memberA) b
          (List.mem_cons_of_mem _ memberB) c (List.mem_cons_of_mem _ memberC))
      have inList := List.mem_cons_of_mem head member
      rcases eq_or_ne head best with same | different
      · refine ⟨best, inList, fun other otherMember otherNe => ?_⟩
        rcases List.mem_cons.mp otherMember with first | later
        · exact absurd (first.trans same) otherNe
        · exact ahead other later otherNe
      · rcases total head List.mem_cons_self best inList different with headWins | bestWins
        · refine ⟨head, List.mem_cons_self, fun other otherMember otherNe => ?_⟩
          have later := (List.mem_cons.mp otherMember).resolve_left otherNe
          rcases eq_or_ne other best with sameOther | otherDifferent
          · rwa [sameOther]
          · have bestWins := ahead other later otherDifferent
            exact transitive head List.mem_cons_self best inList other otherMember headWins bestWins
        · refine ⟨best, inList, fun other otherMember otherNe => ?_⟩
          rcases List.mem_cons.mp otherMember with first | later
          · rwa [first]
          · exact ahead other later otherNe

end TolerantOrder
