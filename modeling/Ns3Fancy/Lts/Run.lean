import Mathlib.Data.List.Basic

/-!
# Runs of partial labelled transition systems

A system is one partial step function: a label and a state give the next state together
with what the step shows. A run keeps the trace shown so far, so a statement about "every
run" is a statement about `Run`. Each step of a run may be asked to meet a condition on its
label and on the state before it; `fun _ _ => True` asks nothing.
-/

namespace Ns3Fancy.Lts
set_option autoImplicit false

/-- A partial step function: `none` is a step that is not enabled. -/
abbrev Step (σ ℓ ω : Type) := ℓ → σ → Option (σ × List ω)

variable {σ ℓ ω : Type} {step : Step σ ℓ ω} {ok : ℓ → σ → Prop}

/-- The finite runs from `s` all of whose steps meet `ok`, with the trace they show. -/
inductive Run (step : Step σ ℓ ω) (ok : ℓ → σ → Prop) (s : σ) : σ → List ω → Prop where
  | nil : Run step ok s s []
  | snoc {t u : σ} {tr os : List ω} {l : ℓ} :
      Run step ok s t tr → ok l t → step l t = some (u, os) → Run step ok s u (tr ++ os)

/-- Runs on a fixed list of labels, as a function. -/
def exec (step : Step σ ℓ ω) : List ℓ → σ → Option (σ × List ω)
  | [], s => some (s, [])
  | l :: ls, s => (step l s).bind fun r => (exec step ls r.1).map fun q => (q.1, r.2 ++ q.2)

namespace Run

theorem single {s t : σ} {os : List ω} {l : ℓ} (good : ok l s) (h : step l s = some (t, os)) :
    Run step ok s t os := by
  simpa using Run.nil.snoc good h

theorem trans {s t u : σ} {tr tr' : List ω} (h : Run step ok s t tr) (h' : Run step ok t u tr') :
    Run step ok s u (tr ++ tr') := by
  induction h' with
  | nil => simpa using h
  | snoc _ good hs ih =>
    rw [← List.append_assoc]
    exact ih.snoc good hs

theorem mono {ok' : ℓ → σ → Prop} (weaker : ∀ l s, ok l s → ok' l s) {s t : σ} {tr : List ω}
    (h : Run step ok s t tr) : Run step ok' s t tr := by
  induction h with
  | nil => exact .nil
  | snoc _ good hs ih => exact ih.snoc (weaker _ _ good) hs

/-- **The invariant rule**: what holds at the start and is kept by each step holds of every
state reached, with the trace shown on the way. -/
theorem invariant {I : σ → List ω → Prop} {s : σ} (start : I s [])
    (kept : ∀ t u tr os l, I t tr → ok l t → step l t = some (u, os) → I u (tr ++ os))
    {t : σ} {tr : List ω} (h : Run step ok s t tr) : I t tr := by
  induction h with
  | nil => exact start
  | snoc _ good hs ih => exact kept _ _ _ _ _ ih good hs

/-- What a run shows was shown by one of its steps. -/
theorem mem_trace {s t : σ} {tr : List ω} (h : Run step ok s t tr) {o : ω} (mem : o ∈ tr) :
    ∃ l u v os, ok l u ∧ step l u = some (v, os) ∧ o ∈ os := by
  induction h with
  | nil => cases mem
  | snoc _ good hs ih =>
    rcases List.mem_append.1 mem with old | new
    · exact ih old
    · exact ⟨_, _, _, _, good, hs, new⟩

/-- **The simulation rule**: if each step from related states is answered by a run of the other
system that shows the image of what the step shows, so is every run. -/
theorem simulate {τ ℓ' ω' : Type} {step' : Step τ ℓ' ω'} {ok' : ℓ' → τ → Prop}
    {R : σ → τ → Prop} {image : ω → List ω'} {s : σ} {a : τ} (start : R s a)
    (answer : ∀ t b l u os, R t b → ok l t → step l t = some (u, os) →
      ∃ c, Run step' ok' b c (os.flatMap image) ∧ R u c)
    {t : σ} {tr : List ω} (h : Run step ok s t tr) :
    ∃ c, Run step' ok' a c (tr.flatMap image) ∧ R t c := by
  induction h with
  | nil => exact ⟨a, .nil, start⟩
  | snoc _ good hs ih =>
    obtain ⟨b, run, related⟩ := ih
    obtain ⟨c, run', related'⟩ := answer _ _ _ _ _ related good hs
    refine ⟨c, ?_, related'⟩
    rw [List.flatMap_append]
    exact run.trans run'

/-- A computed execution is a run when every step of it is allowed. -/
theorem of_exec (allowed : ∀ l s, ok l s) {ls : List ℓ} {s t : σ} {tr : List ω}
    (h : exec step ls s = some (t, tr)) : Run step ok s t tr := by
  induction ls generalizing s tr with
  | nil =>
    simp only [exec, Option.some.injEq, Prod.mk.injEq] at h
    obtain ⟨rfl, rfl⟩ := h
    exact .nil
  | cons l ls ih =>
    simp only [exec, Option.bind_eq_some_iff, Option.map_eq_some_iff] at h
    obtain ⟨⟨u, os⟩, hs, ⟨v, os'⟩, he, heq⟩ := h
    simp only [Prod.mk.injEq] at heq
    obtain ⟨rfl, rfl⟩ := heq
    exact (single (allowed l s) hs).trans (ih he)

/-- A computed execution whose steps are checked on the way is a run. -/
theorem of_guarded [∀ l s, Decidable (ok l s)] {ls : List ℓ} {s t : σ} {tr : List ω}
    (h : exec (fun l s => if ok l s then step l s else none) ls s = some (t, tr)) : Run step ok s t tr := by
  have guarded : Run (fun l s => if ok l s then step l s else none) (fun _ _ => True) s t tr :=
    of_exec (fun _ _ => trivial) h
  clear h
  induction guarded with
  | nil => exact .nil
  | snoc _ _ hs ih =>
    split at hs
    · rename_i good
      exact ih.snoc good hs
    · cases hs

/-- The same with something read off the end of the execution. -/
theorem exists_of_guarded [∀ l s, Decidable (ok l s)] {β : Type} {s : σ} (ls : List ℓ) {f : σ → List ω → β} {b : β}
    (h : (exec (fun l s => if ok l s then step l s else none) ls s).map (fun r => f r.1 r.2) = some b) :
    ∃ t tr, Run step ok s t tr ∧ f t tr = b := by
  obtain ⟨⟨t, tr⟩, run, rfl⟩ := Option.map_eq_some_iff.1 h
  exact ⟨t, tr, of_guarded run, rfl⟩

end Run

end Ns3Fancy.Lts
