import Mathlib.Data.List.Basic
import Mathlib.Algebra.Group.Nat.Defs
import Mathlib.Tactic.Common

/-!
# Loops on narrow counters

Programs as partial values: `none` is a run that has not come to its end, because it left a vector or because its steps were
used up. A loop counts on a machine integer of a given width, so it comes to its end only if the counter can reach the bound.
`Ends` and `Yields` are postconditions, total and partial, with one rule for each way to put programs together.
-/

namespace Ns3Fancy.Loop
set_option autoImplicit false

variable {σ τ α : Type}

/-- The program ends, with a result that meets `Q`. -/
def Ends (x : Option σ) (Q : σ → Prop) : Prop := ∃ s, x = some s ∧ Q s

/-- If the program ends, its result meets `Q`. -/
def Yields (x : Option σ) (Q : σ → Prop) : Prop := ∀ s, x = some s → Q s

section
variable {x : Option σ} {P Q : σ → Prop} {R : τ → Prop} {f : σ → Option τ}

theorem Ends.done {s : σ} (post : Q s) : Ends (some s) Q := ⟨s, rfl, post⟩

theorem Ends.bind (first : Ends x P) (next : ∀ s, P s → Ends (f s) R) : Ends (x.bind f) R := by
  obtain ⟨s, rfl, post⟩ := first
  exact next s post

theorem Ends.map {f : σ → τ} (first : Ends x P) (next : ∀ s, P s → R (f s)) : Ends (x.map f) R := by
  obtain ⟨s, rfl, post⟩ := first
  exact ⟨f s, rfl, next s post⟩

theorem Ends.mono (first : Ends x P) (weaker : ∀ s, P s → Q s) : Ends x Q := by
  obtain ⟨s, same, post⟩ := first
  exact ⟨s, same, weaker s post⟩

theorem Yields.done {s : σ} (post : Q s) : Yields (some s) Q := by
  rintro _ ⟨⟩
  exact post

theorem Yields.bind (first : Yields x P) (next : ∀ s, P s → Yields (f s) R) : Yields (x.bind f) R := by
  intro t result
  obtain ⟨s, same, result⟩ := Option.bind_eq_some_iff.1 result
  exact next s (first s same) t result

theorem Yields.map {f : σ → τ} (first : Yields x P) (next : ∀ s, P s → R (f s)) : Yields (x.map f) R := by
  intro t result
  obtain ⟨s, same, rfl⟩ := Option.map_eq_some_iff.1 result
  exact next s (first s same)

theorem Yields.mono (first : Yields x P) (weaker : ∀ s, P s → Q s) : Yields x Q := fun s same => weaker s (first s same)

/-- What a program ends with is what it yields. -/
theorem Ends.yields (ends : Ends x Q) : Yields x Q := by
  intro t result
  obtain ⟨s, same, post⟩ := ends
  obtain rfl : s = t := Option.some.inj (same.symm.trans result)
  exact post

/-- Nothing is known of the result. -/
theorem Yields.any : Yields x fun _ => True := fun _ _ => trivial

/-- A program that yields the impossible does not end. -/
theorem Yields.never (first : Yields x fun _ => False) : x = none :=
  Option.eq_none_iff_forall_ne_some.2 fun s same => first s same

end

/-! ## Counting loops -/

/-- `for (j = 0; j < bound; j++)` on a counter of `width` bits, for at most `fuel` rounds, from `j` on. -/
def forLoop (width bound : Nat) (body : Nat → σ → Option σ) : Nat → Nat → σ → Option σ
  | 0, _, _ => none
  | fuel + 1, j, s =>
    if j < bound then (body j s).bind (forLoop width bound body fuel ((j + 1) % 2 ^ width)) else some s

section
variable {width bound : Nat} {body : Nat → σ → Option σ} {fuel : Nat} {I : Nat → σ → Prop} {s : σ}

/-- **A bound the counter cannot reach** is never reached. -/
theorem forLoop_never (wide : 2 ^ width ≤ bound) (body : Nat → σ → Option σ) (fuel : Nat) {j : Nat} (small : j < 2 ^ width)
    (s : σ) : forLoop width bound body fuel j s = none := by
  induction fuel generalizing j s with
  | zero => rfl
  | succ fuel ih =>
    rw [forLoop, if_pos (by omega), Option.bind_eq_none_iff]
    intro t _
    exact ih (Nat.mod_lt _ (Nat.two_pow_pos width)) t

theorem forLoop_ends_from (narrow : bound < 2 ^ width)
    (step : ∀ k s, k < bound → I k s → Ends (body k s) (I (k + 1))) {j : Nat} (le : j ≤ bound) (enough : bound - j < fuel)
    (start : I j s) : Ends (forLoop width bound body fuel j s) (I bound) := by
  induction fuel generalizing j s with
  | zero => omega
  | succ fuel ih =>
    rw [forLoop]
    split
    · rename_i less
      rw [Nat.mod_eq_of_lt (by omega)]
      exact (step j s less start).bind fun t next => ih (by omega) (by omega) next
    · obtain rfl : j = bound := by omega
      exact .done start

/-- **A loop that ends**: the counter reaches the bound, and every round keeps the invariant. -/
theorem forLoop_ends (narrow : bound < 2 ^ width) (enough : bound < fuel)
    (step : ∀ k s, k < bound → I k s → Ends (body k s) (I (k + 1))) (start : I 0 s) :
    Ends (forLoop width bound body fuel 0 s) (I bound) :=
  forLoop_ends_from narrow step (Nat.zero_le _) enough start

/-- **What a loop yields**, if it ends. -/
theorem forLoop_yields (step : ∀ k s, k < bound → I k s → Yields (body k s) (I (k + 1))) {j : Nat} (le : j ≤ bound)
    (start : I j s) : Yields (forLoop width bound body fuel j s) (I bound) := by
  by_cases narrow : bound < 2 ^ width
  · induction fuel generalizing j s with
    | zero => exact fun _ result => nomatch result
    | succ fuel ih =>
      rw [forLoop]
      split
      · rename_i less
        rw [Nat.mod_eq_of_lt (by omega)]
        exact (step j s less start).bind fun t next => ih (by omega) next
      · obtain rfl : j = bound := by omega
        exact .done start
  · rcases Nat.lt_or_ge j (2 ^ width) with small | large
    · rw [forLoop_never (Nat.le_of_not_lt narrow) body fuel small s]
      exact fun _ result => nomatch result
    · -- the counter has no such value; one round later it has wrapped
      cases fuel with
      | zero => exact fun _ result => nomatch result
      | succ fuel =>
        rw [forLoop]
        split
        · intro t result
          obtain ⟨u, -, result⟩ := Option.bind_eq_some_iff.1 result
          rw [forLoop_never (Nat.le_of_not_lt narrow) body fuel (Nat.mod_lt _ (Nat.two_pow_pos width)) u] at result
          cases result
        · obtain rfl : j = bound := by omega
          exact .done start

/-- A loop does not get past a round that does not end. -/
theorem forLoop_stuck {k : Nat} (inside : k < bound) (step : ∀ j s, j < k → I j s → Yields (body j s) (I (j + 1)))
    (stuck : ∀ s, I k s → body k s = none) (start : I 0 s) : forLoop width bound body fuel 0 s = none := by
  refine Yields.never ?_
  have reach : ∀ j t, j < bound → I j t ∧ j ≤ k → Yields (body j t) fun u => I (j + 1) u ∧ j + 1 ≤ k := by
    rintro j t less ⟨holds, le⟩
    rcases Nat.lt_or_eq_of_le le with before | rfl
    · exact (step j t before holds).mono fun u next => ⟨next, before⟩
    · rw [stuck t holds]
      exact fun _ result => nomatch result
  exact (forLoop_yields (I := fun j t => I j t ∧ j ≤ k) reach (Nat.zero_le _) ⟨start, Nat.zero_le _⟩).mono fun t last =>
    absurd last.2 (by omega)

end

/-! ## Vectors -/

/-- A vector of `n` entries that all meet `P`. -/
structure AllOf (n : Nat) (P : α → Prop) (xs : List α) : Prop where
  length : xs.length = n
  entries : ∀ x ∈ xs, P x

/-- An entry is changed; there is no entry outside the vector. -/
def modifyAt (xs : List α) (i : Nat) (f : α → Option α) : Option (List α) := (xs[i]?).bind fun x => (f x).map (xs.set i)

section
variable {n i : Nat} {P P' : α → Prop} {xs : List α} {f : α → Option α} {a : α}

theorem AllOf.mono (h : AllOf n P xs) (weaker : ∀ x, P x → P' x) : AllOf n P' xs :=
  ⟨h.length, fun x mem => weaker x (h.entries x mem)⟩

theorem AllOf.replicate (post : P a) : AllOf n P (List.replicate n a) :=
  ⟨List.length_replicate, fun x mem => by rw [(List.mem_replicate.1 mem).2]; exact post⟩

theorem AllOf.get (h : AllOf n P xs) (inside : i < n) : Ends xs[i]? P := by
  have less : i < xs.length := by
    rw [h.length]
    exact inside
  exact ⟨xs[i], List.getElem?_eq_getElem less, h.entries _ (List.getElem_mem less)⟩

theorem AllOf.yields (h : AllOf n P xs) (i : Nat) : Yields xs[i]? P := fun x found => h.entries x (List.mem_of_getElem? found)

/-- There is nothing behind the end of a vector. -/
theorem AllOf.outside (h : AllOf n P xs) (outside : n ≤ i) : xs[i]? = none :=
  List.getElem?_eq_none (by rw [h.length]; exact outside)

theorem AllOf.set (h : AllOf n P xs) (post : P a) (i : Nat) : AllOf n P (xs.set i a) := by
  refine ⟨by rw [List.length_set, h.length], fun x mem => ?_⟩
  rcases List.mem_or_eq_of_mem_set mem with old | rfl
  · exact h.entries x old
  · exact post

theorem modifyAt_ends (h : AllOf n P xs) (inside : i < n) (change : ∀ x, P x → Ends (f x) P) :
    Ends (modifyAt xs i f) (AllOf n P) :=
  (h.get inside).bind fun x holds => (change x holds).map fun _ post => h.set post i

theorem modifyAt_yields (h : AllOf n P xs) (change : ∀ x, P x → Yields (f x) P) : Yields (modifyAt xs i f) (AllOf n P) :=
  (h.yields i).bind fun x holds => (change x holds).map fun _ post => h.set post i

end

end Ns3Fancy.Loop
