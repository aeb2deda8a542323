import Mathlib.Data.List.Basic

/-!
# Chains of events

An event that schedules itself again: a step shows something and says with which state it is scheduled again, if it is. A
chain is a run of such events that ends because the last one is not scheduled again.
-/

namespace Ns3Fancy.Lts
set_option autoImplicit false

variable {σ ω : Type} {step : σ → Option (ω × Option σ)}

/-- The chain from a state, with what it shows. -/
inductive Chain (step : σ → Option (ω × Option σ)) : σ → List ω → Prop where
  | stop {s : σ} {o : ω} : step s = some (o, none) → Chain step s [o]
  | next {s t : σ} {o : ω} {os : List ω} : step s = some (o, some t) → Chain step t os → Chain step s (o :: os)

namespace Chain

/-- A chain shows one thing at least. -/
theorem ne_nil {s : σ} {os : List ω} (chain : Chain step s os) : os ≠ [] := by
  cases chain <;> exact List.cons_ne_nil _ _

/-- No chain starts where no step can be made. -/
theorem not_of_none {s : σ} {os : List ω} (stuck : step s = none) : ¬Chain step s os := by
  intro chain
  cases chain with
  | stop stops =>
    rw [stuck] at stops
    cases stops
  | next goes _ =>
    rw [stuck] at goes
    cases goes

/-- **The last event**: what is not scheduled again shows one thing. -/
theorem stop_iff {s : σ} {o : ω} {os : List ω} (stops : step s = some (o, none)) : Chain step s os ↔ os = [o] := by
  constructor
  · intro chain
    cases chain with
    | stop stops' =>
      rw [stops] at stops'
      cases stops'
      rfl
    | next goes _ =>
      rw [stops] at goes
      cases goes
  · rintro rfl
    exact .stop stops

/-- **An event in between**: what it shows, and then the chain from the state with which it is scheduled again. -/
theorem next_iff {s t : σ} {o : ω} {os : List ω} (goes : step s = some (o, some t)) :
    Chain step s os ↔ ∃ rest, os = o :: rest ∧ Chain step t rest := by
  constructor
  · intro chain
    cases chain with
    | stop stops =>
      rw [goes] at stops
      cases stops
    | next goes' rest =>
      rw [goes] at goes'
      cases goes'
      exact ⟨_, rfl, rest⟩
  · rintro ⟨rest, rfl, chain⟩
    exact .next goes chain

end Chain

end Ns3Fancy.Lts
