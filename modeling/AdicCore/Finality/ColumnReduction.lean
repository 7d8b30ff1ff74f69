import AdicCore.Library.Homology
import AdicCore.Finality.Persistence

open AdicModel.Finality Submodule Elimination Homology

namespace AdicProof.Finality

abbrev Ascending (column : Column) : Prop := column.Pairwise (· < ·)

section

variable {target source : Column} (ascendingT : Ascending target) (ascendingS : Ascending source)

include ascendingT ascendingS

theorem mem_xorLoop {rounds : Nat} (enough : target.length + source.length ≤ rounds) (x : Nat) :
    x ∈ xorLoop rounds target source ↔ (x ∈ target ∧ x ∉ source) ∨ (x ∈ source ∧ x ∉ target) := by
  fun_induction xorLoop rounds target source with
  | case1 rounds t target s source below ih =>
    obtain ⟨tFirst, tRest⟩ := List.pairwise_cons.mp ascendingT
    obtain ⟨sFirst, _⟩ := List.pairwise_cons.mp ascendingS
    have absent : t ∉ s :: source := by
      intro member
      rcases List.mem_cons.mp member with same | later
      · omega
      · have := sFirst t later
        omega
    rw [List.mem_cons, ih tRest ascendingS (by simp only [List.length_cons] at enough ⊢; omega), List.mem_cons]
    by_cases first : x = t
    · subst first
      simp_all
    · simp [first]
  | case2 rounds t target s source _ below ih =>
    obtain ⟨tFirst, _⟩ := List.pairwise_cons.mp ascendingT
    obtain ⟨sFirst, sRest⟩ := List.pairwise_cons.mp ascendingS
    have absent : s ∉ t :: target := by
      intro member
      rcases List.mem_cons.mp member with same | later
      · omega
      · have := tFirst s later
        omega
    rw [List.mem_cons, ih ascendingT sRest (by simp only [List.length_cons] at enough ⊢; omega),
      List.mem_cons (a := x) (b := s)]
    by_cases first : x = s
    · subst first
      simp_all
    · simp [first]
  | case3 rounds t target s source notBelow notAbove ih =>
    obtain ⟨tFirst, tRest⟩ := List.pairwise_cons.mp ascendingT
    obtain ⟨sFirst, sRest⟩ := List.pairwise_cons.mp ascendingS
    have same : t = s := by omega
    subst same
    rw [ih tRest sRest (by simp only [List.length_cons] at enough; omega)]
    by_cases first : x = t
    · subst first
      have tAbsent : x ∉ target := fun member => Nat.lt_irrefl x (tFirst x member)
      have sAbsent : x ∉ source := fun member => Nat.lt_irrefl x (sFirst x member)
      simp [tAbsent, sAbsent]
    · simp [first]
  | case4 rounds target source exhausted =>
    cases target with
    | nil => simp
    | cons t target =>
      cases source with
      | nil => simp
      | cons s source =>
        cases rounds with
        | zero => simp at enough
        | succ rounds => exact absurd rfl (exhausted rounds t target s source rfl rfl)

theorem mem_xorSorted (x : Nat) : x ∈ xorSorted target source ↔ (x ∈ target ∧ x ∉ source) ∨ (x ∈ source ∧ x ∉ target) :=
  mem_xorLoop ascendingT ascendingS (Nat.le_refl _) x

theorem ascending_xorLoop {rounds : Nat} (enough : target.length + source.length ≤ rounds) :
    Ascending (xorLoop rounds target source) := by
  fun_induction xorLoop rounds target source with
  | case1 rounds t target s source below ih =>
    obtain ⟨tFirst, tRest⟩ := List.pairwise_cons.mp ascendingT
    obtain ⟨sFirst, _⟩ := List.pairwise_cons.mp ascendingS
    have room : target.length + (s :: source).length ≤ rounds := by
      simp only [List.length_cons] at enough ⊢
      omega
    refine List.pairwise_cons.mpr ⟨?_, ih tRest ascendingS room⟩
    intro x member
    rcases (mem_xorLoop tRest ascendingS room x).mp member with ⟨later, _⟩ | ⟨later, _⟩
    · exact tFirst x later
    · rcases List.mem_cons.mp later with same | rest
      · omega
      · have := sFirst x rest
        omega
  | case2 rounds t target s source _ below ih =>
    obtain ⟨tFirst, _⟩ := List.pairwise_cons.mp ascendingT
    obtain ⟨sFirst, sRest⟩ := List.pairwise_cons.mp ascendingS
    have room : (t :: target).length + source.length ≤ rounds := by
      simp only [List.length_cons] at enough ⊢
      omega
    refine List.pairwise_cons.mpr ⟨?_, ih ascendingT sRest room⟩
    intro x member
    rcases (mem_xorLoop ascendingT sRest room x).mp member with ⟨later, _⟩ | ⟨later, _⟩
    · rcases List.mem_cons.mp later with same | rest
      · omega
      · have := tFirst x rest
        omega
    · exact sFirst x later
  | case3 rounds t target s source _ _ ih =>
    obtain ⟨_, tRest⟩ := List.pairwise_cons.mp ascendingT
    obtain ⟨_, sRest⟩ := List.pairwise_cons.mp ascendingS
    exact ih tRest sRest (by simp only [List.length_cons] at enough; omega)
  | case4 rounds target source exhausted =>
    cases target with
    | nil => exact ascendingS
    | cons t target =>
      cases source with
      | nil => simpa using ascendingT
      | cons s source =>
        cases rounds with
        | zero => simp at enough
        | succ rounds => exact absurd rfl (exhausted rounds t target s source rfl rfl)

theorem ascending_xorSorted : Ascending (xorSorted target source) :=
  ascending_xorLoop ascendingT ascendingS (Nat.le_refl _)

end

theorem le_getLast {column : Column} (ascending : Ascending column) {last : Nat}
    (lowest : column.getLast? = some last) {x : Nat} (member : x ∈ column) : x ≤ last := by
  obtain ⟨front, split⟩ := List.getLast?_eq_some_iff.mp lowest
  subst split
  rcases List.mem_append.mp member with inFront | isLast
  · exact Nat.le_of_lt ((List.pairwise_append.mp ascending).2.2 x inFront last (List.mem_singleton_self last))
  · rw [List.mem_singleton.mp isLast]

theorem xorSorted_below {target source : Column} (ascendingT : Ascending target) (ascendingS : Ascending source)
    {last : Nat} (lowestT : target.getLast? = some last) (lowestS : source.getLast? = some last) :
    ∀ x ∈ xorSorted target source, x < last := by
  intro x member
  have inT : last ∈ target := List.mem_of_getLast? lowestT
  have inS : last ∈ source := List.mem_of_getLast? lowestS
  rcases (mem_xorSorted ascendingT ascendingS x).mp member with ⟨present, absent⟩ | ⟨present, absent⟩
  · have bound := le_getLast ascendingT lowestT present
    have different : x ≠ last := by
      intro same
      rw [same] at absent
      exact absent inS
    omega
  · have bound := le_getLast ascendingS lowestS present
    have different : x ≠ last := by
      intro same
      rw [same] at absent
      exact absent inT
    omega

section

variable {ι : Type}

noncomputable def cellChain (cells : List ι) (i : Nat) : ι →₀ ZMod 2 :=
  (cells[i]?).elim 0 fun cell => Finsupp.single cell 1

noncomputable def chain (cells : List ι) (column : Column) : ι →₀ ZMod 2 := (column.map (cellChain cells)).sum

theorem chain_nil (cells : List ι) : chain cells [] = 0 := rfl

theorem chain_cons (cells : List ι) (i : Nat) (column : Column) :
    chain cells (i :: column) = cellChain cells i + chain cells column := by
  rw [chain, List.map_cons, List.sum_cons, chain]

theorem chain_add_self (vector : ι →₀ ZMod 2) : vector + vector = 0 := by
  ext x
  rw [Finsupp.add_apply, CharTwo.add_self_eq_zero, Finsupp.zero_apply]

theorem chain_xorSorted (cells : List ι) (target source : Column) :
    chain cells (xorSorted target source) = chain cells target + chain cells source := by
  rw [xorSorted]
  fun_induction xorLoop (target.length + source.length) target source with
  | case1 rounds t target s source _ ih => rw [chain_cons, ih, chain_cons cells t, add_assoc]
  | case2 rounds t target s source _ _ ih =>
    rw [chain_cons, ih, chain_cons cells s]
    abel
  | case3 rounds t target s source notBelow notAbove ih =>
    have same : t = s := by omega
    rw [ih, same, chain_cons, chain_cons]
    have twice := chain_add_self (cellChain cells s)
    have regroup : cellChain cells s + chain cells target + (cellChain cells s + chain cells source) =
        (cellChain cells s + cellChain cells s) + (chain cells target + chain cells source) := by abel
    rw [regroup, twice, zero_add]
  | case4 rounds target source _ => rw [chain, List.map_append, List.sum_append, chain, chain]

theorem chain_apply [DecidableEq ι] {cells : List ι} (nodup : cells.Nodup) {column : Column}
    (ascending : Ascending column) (x : ι) :
    chain cells column x = if ∃ i ∈ column, cells[i]? = some x then 1 else 0 := by
  induction column with
  | nil => simp [chain_nil]
  | cons i column ih =>
    obtain ⟨first, rest⟩ := List.pairwise_cons.mp ascending
    rw [chain_cons, Finsupp.add_apply, ih rest]
    by_cases here : cells[i]? = some x
    · have nowhere : ¬∃ j ∈ column, cells[j]? = some x := by
        rintro ⟨j, later, found⟩
        obtain ⟨iBound, iValue⟩ := List.getElem?_eq_some_iff.mp here
        obtain ⟨jBound, jValue⟩ := List.getElem?_eq_some_iff.mp found
        have same : i = j := nodup.getElem_inj_iff.mp (iValue.trans jValue.symm)
        have before := first j later
        omega
      rw [if_neg nowhere, if_pos ⟨i, List.mem_cons_self, here⟩, cellChain, here]
      simp
    · have value : cellChain cells i x = 0 := by
        cases cell : cells[i]? with
        | none => simp [cellChain, cell]
        | some y =>
          have different : y ≠ x := by
            intro same
            rw [same] at cell
            exact here cell
          simp [cellChain, cell, Finsupp.single_eq_of_ne different.symm]
      rw [value, zero_add]
      congr 1
      simp [here]

end

end AdicProof.Finality
