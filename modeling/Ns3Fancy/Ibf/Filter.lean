import Mathlib.Algebra.BigOperators.Group.Finset.Basic
import Mathlib.Algebra.Order.BigOperators.Group.Finset
import Mathlib.Algebra.Order.BigOperators.Group.Multiset
import Mathlib.Algebra.Order.Group.Nat
import Mathlib.Algebra.Order.Monoid.NatCast

/-!
# Invertible filters

A filter keeps of a multiset of keys, for every cell, how often the cell is hit and the sum of the
keys that hit it. A key may hit a cell more than once. A cell that is hit once shows the key that
hits it, so that key can be taken out of the filter. Peeling goes on until no cell is hit exactly
once; what is left then is the greatest sub-multiset with that property, whatever the order.
-/

namespace Ns3Fancy.Ibf
open scoped BigOperators
set_option autoImplicit false

variable {K : Type} (cells : K → List Nat)

/-- How often the keys hit a cell. -/
def occ (L : Multiset K) (i : Nat) : Nat := (L.map fun x => (cells x).count i).sum

/-- The sum of the keys that hit a cell, each as often as it does. -/
def keySum [AddCommMonoid K] (L : Multiset K) (i : Nat) : K := (L.map fun x => (cells x).count i • x).sum

@[simp] theorem occ_zero (i : Nat) : occ cells 0 i = 0 := rfl

@[simp] theorem occ_cons (x : K) (L : Multiset K) (i : Nat) :
    occ cells (x ::ₘ L) i = (cells x).count i + occ cells L i := by
  simp [occ]

@[simp] theorem occ_add (L M : Multiset K) (i : Nat) : occ cells (L + M) i = occ cells L i + occ cells M i := by
  simp [occ]

@[simp] theorem keySum_zero [AddCommMonoid K] (i : Nat) : keySum cells 0 i = 0 := rfl

@[simp] theorem keySum_cons [AddCommMonoid K] (x : K) (L : Multiset K) (i : Nat) :
    keySum cells (x ::ₘ L) i = (cells x).count i • x + keySum cells L i := by
  simp [keySum]

@[simp] theorem keySum_add [AddCommMonoid K] (L M : Multiset K) (i : Nat) :
    keySum cells (L + M) i = keySum cells L i + keySum cells M i := by
  simp [keySum]

variable {cells}

theorem occ_le {L M : Multiset K} (le : L ≤ M) (i : Nat) : occ cells L i ≤ occ cells M i := by
  obtain ⟨N, rfl⟩ := Multiset.le_iff_exists_add.1 le
  rw [occ_add]
  exact Nat.le_add_right _ _

theorem occ_eq_zero {L : Multiset K} {i : Nat} : occ cells L i = 0 ↔ ∀ x ∈ L, i ∉ cells x := by
  rw [occ, Multiset.sum_eq_zero_iff]
  simp [List.count_eq_zero]

theorem keySum_of_unhit [AddCommMonoid K] {L : Multiset K} {i : Nat} (unhit : occ cells L i = 0) :
    keySum cells L i = 0 := by
  have absent := occ_eq_zero.1 unhit
  have zero : L.map (fun x => (cells x).count i • x) = L.map fun _ => (0 : K) := by
    refine Multiset.map_congr rfl fun x mem => ?_
    rw [List.count_eq_zero_of_not_mem (absent x mem), zero_nsmul]
  rw [keySum, zero, Multiset.sum_map_zero]

/-! ## Totals -/

/-- The number of hits: every key hits `k` cells, all among the first `n`. -/
theorem sum_occ {n k : Nat} (inside : ∀ x, ∀ i ∈ cells x, i < n) (width : ∀ x, (cells x).length = k)
    (L : Multiset K) : ∑ i ∈ Finset.range n, occ cells L i = k * L.card := by
  induction L using Multiset.induction_on with
  | empty => simp
  | cons x L ih =>
    have hits : ∑ i ∈ Finset.range n, (cells x).count i = (cells x).length := by
      have total := @Multiset.sum_count_eq_card Nat _ (Finset.range n) (cells x : Multiset Nat)
        fun i mem => Finset.mem_range.2 (inside x i (by simpa using mem))
      simpa using total
    simp only [occ_cons, Finset.sum_add_distrib, ih, hits, width, Multiset.card_cons]
    rw [Nat.mul_add, Nat.mul_one, Nat.add_comm]

theorem occ_le_total {n k : Nat} (inside : ∀ x, ∀ i ∈ cells x, i < n) (width : ∀ x, (cells x).length = k)
    (L : Multiset K) (i : Nat) : occ cells L i ≤ k * L.card := by
  by_cases here : i < n
  · rw [← sum_occ inside width]
    exact Finset.single_le_sum (fun _ _ => Nat.zero_le _) (Finset.mem_range.2 here)
  · rw [occ_eq_zero.2 fun x _ mem => here (inside x i mem)]
    exact Nat.zero_le _

/-! ## Peeling -/

section
variable [DecidableEq K]

/-- A key that is the only hit of a cell. -/
structure Pure (cells : K → List Nat) (L : Multiset K) (i : Nat) (x : K) : Prop where
  mem : x ∈ L
  once : (cells x).count i = 1
  others : occ cells (L.erase x) i = 0

/-- A cell that is hit once is hit by one key. -/
theorem exists_pure {L : Multiset K} {i : Nat} (once : occ cells L i = 1) : ∃ x, Pure cells L i x := by
  obtain ⟨x, mem, hit⟩ : ∃ x ∈ L, i ∈ cells x := by
    by_contra none
    push Not at none
    rw [occ_eq_zero.2 none] at once
    cases once
  have split : occ cells L i = (cells x).count i + occ cells (L.erase x) i := by
    rw [← occ_cons, Multiset.cons_erase mem]
  have positive : 0 < (cells x).count i := List.count_pos_iff.2 hit
  exact ⟨x, mem, by omega, by omega⟩

/-- The cell shows the key. -/
theorem Pure.keySum_eq [AddCommMonoid K] {L : Multiset K} {i : Nat} {x : K} (pure : Pure cells L i x) :
    keySum cells L i = x := by
  rw [← Multiset.cons_erase pure.mem, keySum_cons, pure.once, one_nsmul, keySum_of_unhit pure.others, add_zero]

theorem Pure.occ_eq {L : Multiset K} {i : Nat} {x : K} (pure : Pure cells L i x) : occ cells L i = 1 := by
  rw [← Multiset.cons_erase pure.mem, occ_cons, pure.once, pure.others]

/-- `L` is taken down to `R` by peeling off `xs`, one pure cell at a time. -/
inductive Peels (cells : K → List Nat) (L : Multiset K) : List K → Multiset K → Prop where
  | nil : Peels cells L [] L
  | snoc {xs : List K} {R : Multiset K} {i : Nat} {x : K} :
      Peels cells L xs R → Pure cells R i x → Peels cells L (xs ++ [x]) (R.erase x)

/-- Nothing is made up and nothing gets lost. -/
theorem Peels.conserves {L R : Multiset K} {xs : List K} (peels : Peels cells L xs R) : (xs : Multiset K) + R = L := by
  induction peels with
  | nil => simp
  | snoc _ pure ih =>
    rw [← ih, ← Multiset.coe_add, add_assoc, Multiset.coe_singleton, Multiset.singleton_add,
      Multiset.cons_erase pure.mem]

theorem Peels.trans {L M R : Multiset K} {xs ys : List K} (first : Peels cells L xs M) (second : Peels cells M ys R) :
    Peels cells L (xs ++ ys) R := by
  induction second with
  | nil => simpa using first
  | snoc _ pure ih =>
    rw [← List.append_assoc]
    exact ih.snoc pure

/-- No cell is hit exactly once. -/
def Stopping (cells : K → List Nat) (S : Multiset K) : Prop := ∀ i, occ cells S i ≠ 1

/-- A stopping set has nothing in a pure cell. -/
theorem Stopping.le_erase {S L : Multiset K} (stop : Stopping cells S) (le : S ≤ L) {i : Nat} {x : K}
    (pure : Pure cells L i x) : S ≤ L.erase x := by
  by_cases mem : x ∈ S
  · have hit : 0 < occ cells S i := by
      rw [← Multiset.cons_erase mem, occ_cons, pure.once]
      omega
    have bound : occ cells S i ≤ occ cells L i := occ_le le i
    rw [pure.occ_eq] at bound
    exact absurd (by omega) (stop i)
  · rw [← Multiset.erase_of_notMem mem]
    exact Multiset.erase_le_erase x le

/-- **Peeling is confluent**: where it stops, what is left is the greatest stopping set. -/
theorem Peels.greatest {L R : Multiset K} {xs : List K} (peels : Peels cells L xs R) :
    ∀ S ≤ L, Stopping cells S → S ≤ R := by
  induction peels with
  | nil => exact fun S le _ => le
  | snoc _ pure ih => exact fun S le stop => stop.le_erase (ih S le stop) pure

end

end Ns3Fancy.Ibf
