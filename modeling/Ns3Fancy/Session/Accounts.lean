import Ns3Fancy.Session.Discipline
import Ns3Fancy.Session.Lockstep
import Mathlib.Data.List.Induction

/-!
# What a run shows of the meters

Facts for reading the trace of a run. In lockstep, what the two meters have to agree on carries from session to session.
Whatever is lost, a report on the wire was a receiver's, and the sender's meter keeps within a session what counting
keeps.
-/

namespace Ns3Fancy.Session
set_option autoImplicit false

variable {π S R Req Rep ω : Type} {V : Variant} {M : Meter π S R Req Rep ω}
variable {p p' : Pair π S R Req Rep} {tr os : List (Obs π Rep ω)} {l : Label π}

/-! ## Lockstep -/

/-- The induction over lockstep sessions. -/
theorem lockstep_induct {P : Nat → S × R → Prop} {x : S × R} (start : P 0 x)
    (next : ∀ k c y, P k y → P (k + 1) (round V M k c y)) (C : Nat → List (π × Bool)) (k : Nat) :
    P k (lockstep V M C x k) := by
  induction k with
  | zero => exact start
  | succ k ih => exact next k (C k) _ ih

section
variable {Agree Behind : S → R → Prop}

theorem Meter.Synced.openedS (laws : M.Synced Agree Behind) {s : S} {r : R} (behind : Behind s r) :
    Behind (Session.openedS V M s) r := by
  unfold Session.openedS
  split
  · exact laws.opened_behind _ _ behind
  · exact behind

/-- In an open session the meters agree. -/
theorem Meter.Synced.metered (laws : M.Synced Agree Behind) {y : S × R} (behind : Behind y.1 y.2) (k : Nat)
    (c : List (π × Bool)) : Agree (Session.metered V M k c y).1 (Session.metered V M k c y).2 := by
  induction c using List.reverseRecOn with
  | nil => exact laws.init_first _ _ _ (laws.openedS behind)
  | append_singleton c e ih =>
    obtain ⟨pkt, lost⟩ := e
    rw [metered_snoc]
    have counted := laws.count_agree k _ _ pkt ih
    cases lost with
    | true => exact counted
    | false => exact laws.countR_agree _ _ _ _ counted

/-- Between sessions the receiver is behind. -/
theorem Meter.Synced.lockstep (laws : M.Synced Agree Behind) {x : S × R} (start : Behind x.1 x.2)
    (C : Nat → List (π × Bool)) (k : Nat) : Behind (lockstep V M C x k).1 (lockstep V M C x k).2 :=
  lockstep_induct (P := fun _ y => Behind y.1 y.2) start
    (fun k c _ behind => laws.close _ _ _ _ (laws.metered behind k c)) C k

end

/-! ## Reports -/

/-- A step that consumes a report takes it from the wire and closes the sender's session. -/
theorem consumed_new (hstep : Session.step V M l p = some (p', os)) {k : Nat} {rep : Rep} {ws : List ω}
    (mem : .consumed k rep ws ∈ os) :
    k = p.s.seq ∧ p'.s.seq = k + 1 ∧ .report k rep ∈ p.bwd ∧ ws = (M.close k p.s.data rep).2 := by
  cases moves_of_step V M hstep with
  | fireS => cases mem
  | fireR hf => simp at mem
  | egress pkt lost => split at mem <;> simp at mem
  | @deliverF m ms hf => cases m <;> simp [Fwd.seen] at mem
  | @deliverB m ms hb =>
    have reaction := p.s.reaction V M m
    generalize p.s.handle V M m = react at *
    cases reaction with
    | @closes rep phase =>
      simp only [List.mem_singleton, Obs.consumed.injEq] at mem
      obtain ⟨rfl, rfl, rfl⟩ := mem
      exact ⟨rfl, rfl, by simp [hb], rfl⟩
    | begins => cases mem
    | recovers => cases mem
    | ignores => cases mem
  | loseF i => cases mem
  | loseB i => cases mem

/-- Every report on the wire, and every one that was consumed, is what some receiver's meter reports. -/
structure Genuine (M : Meter π S R Req Rep ω) (p : Pair π S R Req Rep) (tr : List (Obs π Rep ω)) : Prop where
  wire : ∀ q rep, .report q rep ∈ p.bwd → ∃ r, rep = M.report r
  trace : ∀ k rep ws, .consumed k rep ws ∈ tr → ∃ r, rep = M.report r

theorem Genuine.step (h : Genuine M p tr) (hstep : Session.step V M l p = some (p', os)) : Genuine M p' (tr ++ os) := by
  constructor
  · intro q rep mem
    cases moves_of_step V M hstep with
    | fireS => exact h.wire q rep mem
    | @fireR late f hf =>
      obtain ⟨-, n, rfl⟩ := Receiver.fire_some M hf
      rcases List.mem_append.1 mem with old | new
      · exact h.wire q rep old
      · simp only [List.mem_singleton, Bwd.report.injEq] at new
        exact ⟨_, new.2⟩
    | egress pkt lost => exact h.wire q rep mem
    | @deliverF m ms hf =>
      rcases List.mem_append.1 mem with old | new
      · exact h.wire q rep old
      · have reaction := p.r.reaction V M m
        generalize p.r.handle V M m = react at *
        cases reaction <;> simp at new
    | @deliverB m ms hb => exact h.wire q rep (by rw [hb]; exact List.mem_cons_of_mem _ mem)
    | loseF i => exact h.wire q rep mem
    | loseB i => exact h.wire q rep (List.mem_of_mem_eraseIdx mem)
  · intro k rep ws mem
    rcases List.mem_append.1 mem with old | new
    · exact h.trace k rep ws old
    · exact h.wire k rep (consumed_new hstep new).2.2.1

/-- Whatever is lost, only reports of the receiver are consumed. -/
theorem Genuine.of_run {ok : Label π → Pair π S R Req Rep → Prop} {s0 : S} {r0 : R}
    (run : Lts.Run (Session.step V M) ok (Pair.start s0 r0) p tr) : Genuine M p tr :=
  run.invariant ⟨by simp [Pair.start], by simp⟩ fun _ _ _ _ _ h _ hstep => h.step hstep

/-! ## Within a session -/

/-- The sender's session numbers go up, and within a session its meter stays related by `Same`. -/
def Keeps (Same : S → S → Prop) (s s' : Sender S) : Prop := s.seq ≤ s'.seq ∧ (s.seq = s'.seq → Same s.data s'.data)

/-- What counting and opening keep is kept until the session is closed. -/
theorem keeps_of_run {Same : S → S → Prop} (refl : ∀ s, Same s s) (trans : ∀ s s' s'', Same s s' → Same s' s'' → Same s s'')
    (opened : ∀ s, Same s (M.opened s)) (count : ∀ k s pkt, Same s (M.countS k s pkt))
    {ok : Label π → Pair π S R Req Rep → Prop} (run : Lts.Run (Session.step V M) ok p p' tr) : Keeps Same p.s p'.s := by
  refine run.invariant (I := fun p' _ => Keeps Same p.s p'.s) ⟨Nat.le_refl _, fun _ => refl _⟩ ?_
  rintro p₁ p₂ tr os l ⟨le, same⟩ - hstep
  have compose : Keeps Same p₁.s p₂.s → Keeps Same p.s p₂.s := fun ⟨le', same'⟩ =>
    ⟨Nat.le_trans le le', fun seq => trans _ _ _ (same (by omega)) (same' (by omega))⟩
  refine compose ?_
  cases moves_of_step V M hstep with
  | fireS =>
    refine ⟨by simp, fun _ => ?_⟩
    unfold Sender.fire
    split
    · split
      · exact opened _
      · exact refl _
    · split
      · exact opened _
      · exact refl _
    · exact refl _
    · exact refl _
  | egress pkt lost =>
    refine ⟨by simp, fun _ => ?_⟩
    unfold Sender.emit
    split
    · exact count _ _ _
    · exact refl _
  | @deliverB m ms hb =>
    have reaction := p₁.s.reaction V M m
    generalize p₁.s.handle V M m = react at *
    cases reaction with
    | closes phase => exact ⟨Nat.le_succ _, fun seq => absurd seq (by simp)⟩
    | begins => exact ⟨Nat.le_refl _, fun _ => refl _⟩
    | recovers => exact ⟨Nat.le_refl _, fun _ => refl _⟩
    | ignores => exact ⟨Nat.le_refl _, fun _ => refl _⟩
  | fireR hf => exact ⟨Nat.le_refl _, fun _ => refl _⟩
  | deliverF hf => exact ⟨Nat.le_refl _, fun _ => refl _⟩
  | loseF i => exact ⟨Nat.le_refl _, fun _ => refl _⟩
  | loseB i => exact ⟨Nat.le_refl _, fun _ => refl _⟩

/-- A session whose report was consumed is over. -/
theorem consumed_lt_of_run {ok : Label π → Pair π S R Req Rep → Prop} (run : Lts.Run (Session.step V M) ok p p' tr)
    {k : Nat} {rep : Rep} {ws : List ω} (mem : .consumed k rep ws ∈ tr) : k < p'.s.seq := by
  revert mem
  refine run.invariant (I := fun p' tr => .consumed k rep ws ∈ tr → k < p'.s.seq) (by simp) ?_
  intro t u tr os l before _ hstep mem
  have single : Lts.Run (Session.step V M) (fun _ _ => True) t u os := .single trivial hstep
  have keeps : Keeps (fun _ _ => True) t.s u.s :=
    keeps_of_run (fun _ => trivial) (fun _ _ _ _ _ => trivial) (fun _ => trivial) (fun _ _ _ => trivial) single
  rcases List.mem_append.1 mem with old | new
  · exact Nat.lt_of_lt_of_le (before old) keeps.1
  · have closed := (consumed_new hstep new).2.1
    omega

end Ns3Fancy.Session
