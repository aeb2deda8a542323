import Mathlib.Algebra.Order.Group.Abs
import Mathlib.Data.List.Basic

/-!
# Searching an ascending list

Binary search for the first element that is not below a value, and what the elements on both sides of that place say about
distances: the element closest to the value is one of the two next to it.
-/

namespace Ns3Fancy.Search
set_option autoImplicit false

variable {α : Type}

section
variable [LinearOrder α]

/-- One search among the `len` elements from `first` on; each round leaves less than half of them, so `len` rounds are
enough. -/
def lowerBoundLoop (vect : List α) (value : α) : Nat → Nat → Nat → Nat
  | 0, first, _ => first
  | rounds + 1, first, len =>
    if len = 0 then first
    else
      let half := len / 2
      match vect[first + half]? with
      | none => first
      | some middle =>
        if middle < value then lowerBoundLoop vect value rounds (first + half + 1) (len - half - 1)
        else lowerBoundLoop vect value rounds first half

/-- `std::lower_bound`, as an index. -/
def lowerBound (vect : List α) (value : α) : Nat := lowerBoundLoop vect value vect.length 0 vect.length

/-- The elements before place `i` are below the value, the others are not. -/
structure SplitsAt (vect : List α) (value : α) (i : Nat) : Prop where
  inside : i ≤ vect.length
  before : ∀ j x, j < i → vect[j]? = some x → x < value
  after : ∀ j x, i ≤ j → vect[j]? = some x → value ≤ x

variable {vect : List α} {value : α}

/-- Elements of an ascending list, by their places. -/
theorem le_of_places (ascending : vect.Pairwise (· ≤ ·)) {i j : Nat} {x y : α} (order : i ≤ j) (here : vect[i]? = some x)
    (there : vect[j]? = some y) : x ≤ y := by
  obtain ⟨lt, rfl⟩ := List.getElem?_eq_some_iff.1 here
  obtain ⟨lt', rfl⟩ := List.getElem?_eq_some_iff.1 there
  rcases Nat.eq_or_lt_of_le order with rfl | before
  · exact le_rfl
  · exact List.pairwise_iff_getElem.1 ascending i j lt lt' before

/-- **The loop finds the place**, if the places it has left out are on the right sides. -/
theorem lowerBoundLoop_splits (ascending : vect.Pairwise (· ≤ ·)) {rounds first len : Nat} (enough : len ≤ rounds)
    (inside : first + len ≤ vect.length) (before : ∀ j x, j < first → vect[j]? = some x → x < value)
    (after : ∀ j x, first + len ≤ j → vect[j]? = some x → value ≤ x) :
    SplitsAt vect value (lowerBoundLoop vect value rounds first len) := by
  induction rounds generalizing first len with
  | zero =>
    obtain rfl := Nat.le_zero.1 enough
    exact ⟨inside, before, after⟩
  | succ rounds ih =>
    unfold lowerBoundLoop
    split
    · rename_i noneLeft
      obtain rfl := noneLeft
      exact ⟨inside, before, after⟩
    · have place : first + len / 2 < vect.length := by omega
      have middle : vect[first + len / 2]? = some vect[first + len / 2] := List.getElem?_eq_getElem place
      simp only [middle]
      split
      · -- the value is behind the middle
        rename_i below
        have lower : ∀ j x, j < first + len / 2 + 1 → vect[j]? = some x → x < value := by
          intro j x left here
          exact lt_of_le_of_lt (le_of_places ascending (Nat.le_of_lt_succ left) here middle) below
        have upper : ∀ j x, first + len / 2 + 1 + (len - len / 2 - 1) ≤ j → vect[j]? = some x → value ≤ x := by
          intro j x right here
          exact after j x (by omega) here
        exact ih (by omega) (by omega) lower upper
      · -- the value is not behind the middle
        rename_i above
        have upper : ∀ j x, first + len / 2 ≤ j → vect[j]? = some x → value ≤ x := by
          intro j x right here
          exact le_trans (not_lt.1 above) (le_of_places ascending right middle here)
        exact ih (by omega) (by omega) before upper

/-- **The search finds the place** in every ascending list. -/
theorem lowerBound_splits (ascending : vect.Pairwise (· ≤ ·)) (value : α) : SplitsAt vect value (lowerBound vect value) := by
  refine lowerBoundLoop_splits ascending le_rfl (by omega) (fun j _ left _ => absurd left (Nat.not_lt_zero j)) ?_
  intro j x right here
  rw [List.getElem?_eq_none (by omega)] at here
  cases here

end

/-! ## Distances -/

section
variable [AddCommGroup α] [LinearOrder α] [IsOrderedAddMonoid α] {vect : List α} {value x y : α}

/-- The smallest of the elements at the least distance from the value. -/
structure Closest (vect : List α) (value found : α) : Prop where
  mem : found ∈ vect
  near : ∀ x ∈ vect, |value - found| ≤ |value - x|
  smallest : ∀ x ∈ vect, |value - x| = |value - found| → found ≤ x

theorem distance_below (order : x ≤ y) (below : y ≤ value) : |value - y| ≤ |value - x| := by
  rw [abs_of_nonneg (sub_nonneg.2 below), abs_of_nonneg (sub_nonneg.2 (order.trans below))]
  exact sub_le_sub_left order value

theorem distance_above (above : value ≤ x) (order : x ≤ y) : |value - x| ≤ |value - y| := by
  rw [abs_sub_comm value x, abs_sub_comm value y, abs_of_nonneg (sub_nonneg.2 above),
    abs_of_nonneg (sub_nonneg.2 (above.trans order))]
  exact sub_le_sub_right order value

/-- Elements below the value at one distance are equal. -/
theorem eq_of_distance_below (below : x ≤ value) (below' : y ≤ value) (same : |value - x| = |value - y|) : x = y := by
  rw [abs_of_nonneg (sub_nonneg.2 below), abs_of_nonneg (sub_nonneg.2 below')] at same
  exact sub_right_inj.1 same

/-- The first element, if the value is not above it. -/
theorem Closest.first (mem : x ∈ vect) (least : ∀ y ∈ vect, x ≤ y) (above : value ≤ x) : Closest vect value x where
  mem := mem
  near y here := distance_above above (least y here)
  smallest y here _ := least y here

/-- The last element, if the value is not below it. -/
theorem Closest.last (mem : x ∈ vect) (greatest : ∀ y ∈ vect, y ≤ x) (below : x ≤ value) : Closest vect value x where
  mem := mem
  near y here := distance_below (greatest y here) below
  smallest y here same := (eq_of_distance_below ((greatest y here).trans below) below same).ge

/-- The lower of two neighbours, if it is not farther away. -/
theorem Closest.lower (mem : x ∈ vect) (sides : ∀ z ∈ vect, z ≤ x ∨ y ≤ z) (below : x ≤ value) (above : value ≤ y)
    (closer : |value - x| ≤ |value - y|) : Closest vect value x where
  mem := mem
  near := by
    intro z here
    rcases sides z here with left | right
    · exact distance_below left below
    · exact closer.trans (distance_above above right)
  smallest := by
    intro z here same
    rcases sides z here with left | right
    · exact (eq_of_distance_below (left.trans below) below same).ge
    · exact below.trans (above.trans right)

/-- The upper of two neighbours, if it is closer. -/
theorem Closest.upper (mem : y ∈ vect) (sides : ∀ z ∈ vect, z ≤ x ∨ y ≤ z) (below : x ≤ value) (above : value ≤ y)
    (closer : |value - y| < |value - x|) : Closest vect value y where
  mem := mem
  near := by
    intro z here
    rcases sides z here with left | right
    · exact closer.le.trans (distance_below left below)
    · exact distance_above above right
  smallest := by
    intro z here same
    rcases sides z here with left | right
    · exact absurd (distance_below left below) (not_le.2 (same ▸ closer))
    · exact right

end

end Ns3Fancy.Search
