import Mathlib.Data.Nat.ModEq
import Mathlib.Logic.Function.Basic

/-!
# Rings as windows

A ring of `size` cells into which entries `0, 1, 2, …` are written one after the other, each at its
number modulo `size`. After `sent` entries it holds the last `size` of them; the cell of an older
one holds a newer one.
-/

namespace Ns3Fancy.Ring
open Function
set_option autoImplicit false

variable {α : Type}

/-- The ring holds the entries that have not been overwritten. -/
def Window (size sent : Nat) (entry : Nat → α) (ring : Nat → α) : Prop :=
  ∀ n < sent, sent ≤ n + size → ring (n % size) = entry n

theorem Window.empty (size : Nat) (entry ring : Nat → α) : Window size 0 entry ring :=
  fun _ impossible => absurd impossible (Nat.not_lt_zero _)

variable {size sent : Nat} {entry ring : Nat → α}

/-- Two numbers less than `size` apart with one cell are the same. -/
theorem eq_of_mod_eq {m n : Nat} (cell : m % size = n % size) (le : m ≤ n) (near : n < m + size) : m = n := by
  have divides : size ∣ n - m := (Nat.modEq_iff_dvd' le).1 cell
  have zero := Nat.eq_zero_of_dvd_of_lt divides (by omega)
  omega

/-- Two entries that are both in the ring have different cells. -/
theorem eq_of_recent {m n : Nat} (cell : m % size = n % size) (below : m < sent) (below' : n < sent)
    (recent : sent ≤ m + size) (recent' : sent ≤ n + size) : m = n := by
  rcases Nat.le_total m n with le | le
  · exact eq_of_mod_eq cell le (by omega)
  · exact (eq_of_mod_eq cell.symm le (by omega)).symm

theorem Window.push (h : Window size sent entry ring) :
    Window size (sent + 1) entry (update ring (sent % size) (entry sent)) := by
  intro n below recent
  by_cases last : n = sent
  · subst last
    rw [update_self]
  · have other : n % size ≠ sent % size := fun cell => last (eq_of_mod_eq cell (by omega) (by omega))
    rw [update_of_ne other]
    exact h n (by omega) (by omega)

/-- An entry that is in the ring is changed. -/
theorem Window.set (h : Window size sent entry ring) {n : Nat} (below : n < sent) (recent : sent ≤ n + size) (x : α) :
    Window size sent (update entry n x) (update ring (n % size) x) := by
  intro m below' recent'
  by_cases same : m = n
  · rw [same, update_self, update_self]
  · have other : m % size ≠ n % size := fun cell => same (eq_of_recent cell below' below recent' recent)
    rw [update_of_ne other, update_of_ne same]
    exact h m below' recent'

theorem Window.congr (h : Window size sent entry ring) {entry' : Nat → α} (same : ∀ n < sent, entry n = entry' n) :
    Window size sent entry' ring := fun n below recent => (h n below recent).trans (same n below)

/-- The cell of an entry that has been overwritten holds a later one. -/
theorem Window.overwritten (h : Window size sent entry ring) (positive : 0 < size) {n : Nat} (old : n + size < sent) :
    ∃ m, n < m ∧ m < sent ∧ ring (n % size) = entry m := by
  -- the last number of the cell below `sent`
  have split := Nat.div_add_mod (sent - 1 - n) size
  have rest := Nat.mod_lt (sent - 1 - n) positive
  have some_ : 0 < (sent - 1 - n) / size := Nat.div_pos (by omega) positive
  have wide : size ≤ size * ((sent - 1 - n) / size) := Nat.le_mul_of_pos_right _ some_
  refine ⟨n + size * ((sent - 1 - n) / size), by omega, by omega, ?_⟩
  have cell : (n + size * ((sent - 1 - n) / size)) % size = n % size := Nat.add_mul_mod_self_left _ _ _
  rw [← cell]
  exact h _ (by omega) (by omega)

end Ns3Fancy.Ring
