import Ns3Fancy.Session.Protocol

/-!
# Runs without control loss are lockstep

When no message on the wires is lost (packets may be), every retransmission is needless and
the two meters behave as in a synchronous system: session `k` meters the packets counted
while it was open, the receiver meters those of them that were not lost, and the report that
closes the session is the receiver's. `InStep` is the invariant. Its idea is to look at the
receiver *after* it has worked off the forward wire (`Pair.settled`): delivering a message
does not change that receiver, so only the sender's own messages and the report timer do.
-/

namespace Ns3Fancy.Session
set_option autoImplicit false

variable {π S R Req Rep ω : Type} (V : Variant) (M : Meter π S R Req Rep ω)

/-- The laws a repeated START relies on. -/
structure Meter.Lawful (M : Meter π S R Req Rep ω) : Prop where
  opened_opened : ∀ s, M.opened (M.opened s) = M.opened s
  init_again : ∀ q req r, M.init q false req (M.init q true req r) = M.init q true req r

/-- The variants the lockstep result is about: a sender that waits for the acknowledgement
of START talks to a receiver that looks at the tags. -/
structure Variant.Sound (V : Variant) : Prop where
  tagged : V.acked = true → V.tagged = true

/-! ## The synchronous system -/

/-- The sender's meter when it asks for a session. -/
def openedS (s : S) : S := if V.acked then M.opened s else s

/-- The two meters after session `k` has metered the packets `c`, each with a flag that says
whether it was lost. -/
def metered (k : Nat) (c : List (π × Bool)) (x : S × R) : S × R :=
  (c.foldl (fun s e => M.countS k s e.1) (openedS V M x.1),
    (c.filter fun e => !e.2).foldl (fun r e => M.countR (k % V.modulus) r e.1)
      (M.init (k % V.modulus) true (M.request (openedS V M x.1)) x.2))

/-- One whole session. -/
def round (k : Nat) (c : List (π × Bool)) (x : S × R) : S × R :=
  ((M.close k (metered V M k c x).1 (M.report (metered V M k c x).2)).1, (metered V M k c x).2)

/-- The meters after the first `k` sessions, session `j` having metered `C j`. -/
def lockstep (C : Nat → List (π × Bool)) (x : S × R) : Nat → S × R
  | 0 => x
  | k + 1 => round V M k (C k) (lockstep C x k)

/-- The packets counted for session `k` in a trace, with their losses. -/
def sessionPackets (tr : List (Obs π Rep ω)) (k : Nat) : List (π × Bool) :=
  tr.filterMap fun
    | .counted j p lost => if j = k then some (p, lost) else none
    | _ => none

@[simp] theorem sessionPackets_append (tr tr' : List (Obs π Rep ω)) (k : Nat) :
    sessionPackets (tr ++ tr') k = sessionPackets tr k ++ sessionPackets tr' k := by
  simp [sessionPackets]

theorem lockstep_congr {C C' : Nat → List (π × Bool)} (x : S × R) {k : Nat}
    (same : ∀ j, j < k → C j = C' j) : lockstep V M C x k = lockstep V M C' x k := by
  induction k with
  | zero => rfl
  | succ k ih =>
    simp only [lockstep]
    rw [ih fun j hj => same j (by omega), same k (by omega)]

theorem metered_snoc (k : Nat) (c : List (π × Bool)) (p : π) (lost : Bool) (x : S × R) :
    metered V M k (c ++ [(p, lost)]) x =
      (M.countS k (metered V M k c x).1 p,
        if lost then (metered V M k c x).2
        else M.countR (k % V.modulus) (metered V M k c x).2 p) := by
  cases lost <;> simp [metered]

/-! ## The receiver after it has worked off the wire -/

/-- The receiver after it has handled `ms`. -/
def flush (r : Receiver R) (ms : List (Fwd π Req)) : Receiver R :=
  ms.foldl (fun r m => (r.handle V M m).1) r

@[simp] theorem flush_nil (r : Receiver R) : flush V M r [] = r := rfl

@[simp] theorem flush_cons (r : Receiver R) (m : Fwd π Req) (ms : List (Fwd π Req)) :
    flush V M r (m :: ms) = flush V M (r.handle V M m).1 ms := rfl

theorem flush_snoc (r : Receiver R) (ms : List (Fwd π Req)) (m : Fwd π Req) :
    flush V M r (ms ++ [m]) = ((flush V M r ms).handle V M m).1 := by
  simp [flush]

/-- The receiver once the forward wire is empty. -/
def Pair.settled (p : Pair π S R Req Rep) : Receiver R := flush V M p.r p.fwd

/-- Messages that move no receiver outside COUNTING. -/
def Fwd.Quiet : Fwd π Req → Prop
  | .stop _ | .data none _ => True
  | _ => False

/-- Among `ms`, the acknowledgement of report `q` comes before every START. -/
def AckFirst (q : Nat) : List (Fwd π Req) → Prop
  | [] => False
  | .ack q' :: ms => q' = q ∨ AckFirst q ms
  | .start _ _ :: _ => False
  | _ :: ms => AckFirst q ms

theorem handle_quiet {r : Receiver R} (h : r.phase ≠ .counting) {m : Fwd π Req} (quiet : m.Quiet) :
    r.handle V M m = (r, []) := by
  cases m with
  | stop q => simp [Receiver.handle, h]
  | data tag p => simp [Receiver.handle, h]
  | start q req => exact quiet.elim
  | ack q => exact quiet.elim

theorem flush_quiet {r : Receiver R} (h : r.phase ≠ .counting) {ms : List (Fwd π Req)}
    (quiet : ∀ m ∈ ms, m.Quiet) : flush V M r ms = r := by
  induction ms with
  | nil => rfl
  | cons m ms ih =>
    rw [flush_cons, handle_quiet V M h (quiet m (by simp))]
    exact ih fun m' hm => quiet m' (by simp [hm])

theorem flush_waitSend {r : Receiver R} (h : r.phase = .waitSend) (ms : List (Fwd π Req)) :
    flush V M r ms = r := by
  induction ms with
  | nil => rfl
  | cons m ms ih =>
    have same : (r.handle V M m).1 = r := by cases m <;> simp [Receiver.handle, h]
    rw [flush_cons, same, ih]

theorem AckFirst.append {q : Nat} {ms : List (Fwd π Req)} (h : AckFirst q ms) (ms' : List (Fwd π Req)) :
    AckFirst q (ms ++ ms') := by
  induction ms with
  | nil => exact h.elim
  | cons m ms ih =>
    cases m with
    | ack q' => exact h.imp id ih
    | start _ _ => exact h.elim
    | stop _ => exact ih h
    | data _ _ => exact ih h

theorem ackFirst_of_quiet {q : Nat} {ms : List (Fwd π Req)} (quiet : ∀ m ∈ ms, m.Quiet) :
    AckFirst q (ms ++ [.ack q]) := by
  induction ms with
  | nil => exact Or.inl rfl
  | cons m ms ih =>
    have rest := ih fun m' hm => quiet m' (by simp [hm])
    have head := quiet m (by simp)
    cases m with
    | ack q' => exact head.elim
    | start _ _ => exact head.elim
    | stop _ => exact rest
    | data _ _ => exact rest

/-! ## The invariant -/

/-- What a run without loss on the wires keeps. `k` is the sender's session. -/
structure InStep (x : S × R) (p : Pair π S R Req Rep) (tr : List (Obs π Rep ω)) : Prop where
  idle : p.s.phase = .idle → (p.settled V M).phase = .idle ∧
    (p.s.data, (p.settled V M).data) = lockstep V M (sessionPackets tr) x p.s.seq
  busy : p.s.phase ≠ .idle → (p.settled V M).seq = p.s.seq % V.modulus ∧
    (p.s.data, (p.settled V M).data) =
      metered V M p.s.seq (sessionPackets tr p.s.seq) (lockstep V M (sessionPackets tr) x p.s.seq)
  opening : p.s.phase = .startAck ∨ p.s.phase = .counting → (p.settled V M).phase = .counting
  closing : p.s.phase = .waitReport → (p.settled V M).phase = .waitSend ∨ (p.settled V M).phase = .reportAck
  acked : p.s.phase = .startAck → V.acked = true
  ahead : ∀ j, p.s.seq < j ∨ (j = p.s.seq ∧ (p.s.phase = .idle ∨ p.s.phase = .startAck)) →
    sessionPackets tr j = []
  timers : p.r.stale = 0 ∧ (p.r.armed = true ↔ p.r.phase = .waitSend ∨ p.r.phase = .reportAck)
  waiting : p.r.phase = .waitSend →
    p.s.phase = .waitReport ∧ p.r.seq = p.s.seq % V.modulus ∧ ∀ m ∈ p.fwd, m.Quiet
  reporting : p.r.phase = .reportAck → (p.r.seq < p.s.seq ∧ AckFirst p.r.seq p.fwd) ∨
    (p.s.phase = .waitReport ∧ p.r.seq = p.s.seq % V.modulus ∧ ∀ m ∈ p.fwd, m.Quiet)
  stopping : ∀ a q b, p.fwd = a ++ .stop q :: b → (flush V M p.r a).phase = .counting →
    (flush V M p.r a).seq = q → p.s.phase = .waitReport ∧ ∀ m ∈ b, m.Quiet
  reports : ∀ q rep, .report q rep ∈ p.bwd → q < p.s.seq ∨
    (p.s.phase = .waitReport ∧ q = p.s.seq ∧ p.r.phase = .reportAck ∧ p.r.seq = p.s.seq ∧
      rep = M.report p.r.data)

theorem InStep.start (s0 : S) (r0 : R) :
    InStep (ω := ω) V M (s0, r0) (Pair.start s0 r0 : Pair π S R Req Rep) [] := by
  constructor <;> simp [Pair.start, Pair.settled, lockstep, sessionPackets]

variable {V M} {x : S × R} {p : Pair π S R Req Rep} {tr : List (Obs π Rep ω)}

/-- A report the sender is about to consume is the settled receiver's, and nothing but STOPs
and unmetered packets is left on the forward wire. -/
theorem InStep.consumable (h : InStep V M x p tr) {rep : Rep} (mem : .report p.s.seq rep ∈ p.bwd) :
    p.r.phase = .reportAck ∧ p.r.seq = p.s.seq ∧ rep = M.report p.r.data ∧
      (∀ m ∈ p.fwd, m.Quiet) ∧ p.settled V M = p.r := by
  rcases h.reports _ _ mem with less | ⟨_, _, rphase, rseq, hrep⟩
  · omega
  · rcases h.reporting rphase with ⟨less, _⟩ | ⟨_, _, quiet⟩
    · omega
    · exact ⟨rphase, rseq, hrep, quiet, flush_quiet V M (by simp [rphase]) quiet⟩

/-- The timer is not pending while the receiver idles or counts. -/
theorem InStep.unarmed (h : InStep V M x p tr) (notWait : p.r.phase ≠ .waitSend)
    (notAck : p.r.phase ≠ .reportAck) : p.r.armed = false := by
  cases armed : p.r.armed with
  | false => rfl
  | true => rcases h.timers.2.1 armed with phase | phase <;> contradiction

/-- Steps that change neither the sender nor the settled receiver keep the first half of the
invariant. -/
theorem InStep.of_settled (h : InStep V M x p tr) {p' : Pair π S R Req Rep} {tr' : List (Obs π Rep ω)}
    (sender : p'.s = p.s) (settled : p'.settled V M = p.settled V M)
    (packets : sessionPackets tr' = sessionPackets tr)
    (timers : p'.r.stale = 0 ∧ (p'.r.armed = true ↔ p'.r.phase = .waitSend ∨ p'.r.phase = .reportAck))
    (waiting : p'.r.phase = .waitSend →
      p.s.phase = .waitReport ∧ p'.r.seq = p.s.seq % V.modulus ∧ ∀ m ∈ p'.fwd, m.Quiet)
    (reporting : p'.r.phase = .reportAck → (p'.r.seq < p.s.seq ∧ AckFirst p'.r.seq p'.fwd) ∨
      (p.s.phase = .waitReport ∧ p'.r.seq = p.s.seq % V.modulus ∧ ∀ m ∈ p'.fwd, m.Quiet))
    (stopping : ∀ a q b, p'.fwd = a ++ .stop q :: b → (flush V M p'.r a).phase = .counting →
      (flush V M p'.r a).seq = q → p.s.phase = .waitReport ∧ ∀ m ∈ b, m.Quiet)
    (reports : ∀ q rep, .report q rep ∈ p'.bwd → q < p.s.seq ∨
      (p.s.phase = .waitReport ∧ q = p.s.seq ∧ p'.r.phase = .reportAck ∧ p'.r.seq = p.s.seq ∧
        rep = M.report p'.r.data)) :
    InStep V M x p' tr' where
  idle := by rw [sender, settled, packets]; exact h.idle
  busy := by rw [sender, settled, packets]; exact h.busy
  opening := by rw [sender, settled]; exact h.opening
  closing := by rw [sender, settled]; exact h.closing
  acked := by rw [sender]; exact h.acked
  ahead := by rw [sender, packets]; exact h.ahead
  timers := timers
  waiting := by rw [sender]; exact waiting
  reporting := by rw [sender]; exact reporting
  stopping := by rw [sender]; exact stopping
  reports := by rw [sender]; exact reports

/-- Delivering a message forward changes neither the sender nor the settled receiver. -/
theorem InStep.deliverF (h : InStep V M x p tr) {m : Fwd π Req} {ms : List (Fwd π Req)}
    (hf : p.fwd = m :: ms) :
    InStep V M x { p with r := (p.r.handle V M m).1, fwd := ms, bwd := p.bwd ++ (p.r.handle V M m).2 }
      (tr ++ m.seen) := by
  have packets : sessionPackets (tr ++ m.seen) = sessionPackets tr := by
    funext j; cases m <;> simp [Fwd.seen, sessionPackets]
  have tail : (∀ m' ∈ p.fwd, m'.Quiet) → ∀ m' ∈ ms, m'.Quiet := fun quiet m' hm => quiet m' (by simp [hf, hm])
  -- a receiver that still waits for an acknowledgement meets no START
  have noStart : ∀ q req, m = .start q req → p.r.phase ≠ .reportAck := by
    rintro q req rfl phase
    rcases h.reporting phase with ⟨_, first⟩ | ⟨_, _, quiet⟩
    · rw [hf] at first; exact first
    · exact quiet (.start q req) (by simp [hf])
  have reaction := p.r.reaction V M m
  have settled : flush V M (p.r.handle V M m).1 ms = p.settled V M := by simp [Pair.settled, hf]
  have stopping : ∀ a q b, ms = a ++ .stop q :: b → (flush V M (p.r.handle V M m).1 a).phase = .counting →
      (flush V M (p.r.handle V M m).1 a).seq = q → p.s.phase = .waitReport ∧ ∀ m ∈ b, m.Quiet :=
    fun a q b hms => h.stopping (m :: a) q b (by rw [hf, hms]; rfl)
  generalize p.r.handle V M m = react at *
  refine h.of_settled ?_ ?_ packets ?_ ?_ ?_ stopping ?_
  · rfl
  · exact settled
  · have timers := h.timers
    cases reaction with
    | opens notWait =>
      have unarmed := h.unarmed notWait (noStart _ _ rfl)
      simp [Receiver.open, timers.1, unarmed]
    | stops phase =>
      have unarmed := h.unarmed (by simp [phase]) (by simp [phase])
      simp [Receiver.arm, timers.1, unarmed]
    | acknowledged => simp [timers.1]
    | counts => exact timers
    | ignores => exact timers
  · -- the receiver starts to wait only on a STOP it was counting for
    intro phase
    cases reaction with
    | opens => simp [Receiver.open] at phase
    | stops counting =>
      obtain ⟨sphase, quiet⟩ := h.stopping [] _ ms hf counting rfl
      have seq := (h.busy (by simp [sphase])).1
      rw [← settled, flush_waitSend V M rfl] at seq
      exact ⟨sphase, seq, quiet⟩
    | acknowledged => simp at phase
    | counts counting => simp [counting] at phase
    | ignores =>
      obtain ⟨sphase, seq, quiet⟩ := h.waiting phase
      exact ⟨sphase, seq, tail quiet⟩
  · -- no message makes the receiver report
    intro phase
    cases reaction with
    | opens => simp [Receiver.open] at phase
    | stops => simp at phase
    | acknowledged => simp at phase
    | counts counting => simp [counting] at phase
    | ignores _ _ notAck =>
      rcases h.reporting phase with ⟨less, first⟩ | ⟨sphase, seq, quiet⟩
      · refine Or.inl ⟨less, ?_⟩
        rw [hf] at first
        cases m with
        | start => exact first.elim
        | stop => exact first
        | data => exact first
        | ack q => exact first.resolve_left fun same => notAck q rfl ⟨phase, same.symm⟩
      · exact Or.inr ⟨sphase, seq, tail quiet⟩
  · intro q rep mem
    have mem' : .report q rep ∈ p.bwd := by
      cases reaction <;> simpa using mem
    rcases h.reports q rep mem' with less | ⟨sphase, rfl, rphase, seq, hrep⟩
    · exact Or.inl less
    · -- the reporting receiver ignores the quiet messages left on the wire
      have quiet := (h.consumable mem').2.2.2.1 m (by simp [hf])
      cases reaction with
      | opens => exact quiet.elim
      | stops counting => simp [rphase] at counting
      | acknowledged => exact quiet.elim
      | counts counting => simp [rphase] at counting
      | ignores => exact Or.inr ⟨sphase, rfl, rphase, seq, hrep⟩

/-- The report timer only makes a waiting receiver report. -/
theorem InStep.fireR (h : InStep V M x p tr) {late : Bool} {f : Receiver R × Bwd Rep}
    (hf : p.r.fire M late = some f) :
    InStep V M x { p with r := f.1, bwd := p.bwd ++ [f.2] } (tr ++ [.reported p.r.seq]) := by
  have packets : sessionPackets (tr ++ [.reported p.r.seq]) = sessionPackets tr := by
    funext j; simp [sessionPackets]
  obtain ⟨stale, armed⟩ := h.timers
  -- no timer is ever forgotten, so the one that fires is the last one set
  have fired : p.r.armed = true ∧ f = ({ p.r with phase := .reportAck }, .report p.r.seq (M.report p.r.data)) := by
    cases late with
    | true => simp [Receiver.fire, stale] at hf
    | false =>
      cases on : p.r.armed with
      | false => simp [Receiver.fire, on] at hf
      | true =>
        simp only [Receiver.fire, on, Receiver.arm, Bool.false_eq_true, if_false, if_true,
          Option.some.injEq] at hf
        exact ⟨rfl, by rw [← hf]; simp [← on, stale]⟩
  obtain ⟨on, rfl⟩ := fired
  -- what the new report says
  have fresh : ∀ q rep, Bwd.report q rep ∈ p.bwd ++ [.report p.r.seq (M.report p.r.data)] → q < p.s.seq ∨
      (p.s.phase = .waitReport ∧ q = p.s.seq ∧ p.r.seq = p.s.seq ∧ rep = M.report p.r.data) := by
    intro q rep mem
    rcases List.mem_append.1 mem with old | new
    · rcases h.reports q rep old with less | ⟨sphase, hq, _, seq, hrep⟩
      · exact Or.inl less
      · exact Or.inr ⟨sphase, hq, seq, hrep⟩
    · simp only [List.mem_singleton, Bwd.report.injEq] at new
      obtain ⟨rfl, rfl⟩ := new
      have bound : p.r.seq < p.s.seq ∨ (p.s.phase = .waitReport ∧ p.r.seq = p.s.seq) := by
        have close : p.s.phase = .waitReport → p.r.seq = p.s.seq % V.modulus →
            p.r.seq < p.s.seq ∨ (p.s.phase = .waitReport ∧ p.r.seq = p.s.seq) := by
          intro sphase seq
          have le := Nat.mod_le p.s.seq V.modulus
          rcases Nat.lt_or_ge p.r.seq p.s.seq with less | ge
          · exact Or.inl less
          · exact Or.inr ⟨sphase, by omega⟩
        rcases armed.1 on with phase | phase
        · obtain ⟨sphase, seq, _⟩ := h.waiting phase
          exact close sphase seq
        · rcases h.reporting phase with ⟨less, _⟩ | ⟨sphase, seq, _⟩
          · exact Or.inl less
          · exact close sphase seq
      rcases bound with less | ⟨sphase, same⟩
      · exact Or.inl less
      · exact Or.inr ⟨sphase, same, same, rfl⟩
  rcases armed.1 on with phase | phase
  · -- the receiver was waiting: nothing but quiet messages is left for it
    obtain ⟨sphase, seq, quiet⟩ := h.waiting phase
    have before : p.settled V M = p.r := flush_waitSend V M phase p.fwd
    have after : Pair.settled V M { p with
        r := { p.r with phase := .reportAck }
        bwd := p.bwd ++ [.report p.r.seq (M.report p.r.data)] } = { p.r with phase := .reportAck } :=
      flush_quiet V M (by simp) quiet
    have busy := h.busy (by simp [sphase])
    rw [before] at busy
    refine ⟨by simp [sphase], ?_, by simp [sphase], ?_, h.acked, by rw [packets]; exact h.ahead,
      by simp [stale, on], by simp, ?_, ?_, ?_⟩
    · rw [after, packets]
      exact fun _ => busy
    · rw [after]
      exact fun _ => Or.inr rfl
    · exact fun _ => Or.inr ⟨sphase, seq, quiet⟩
    · intro a q b split counting
      rw [flush_quiet V M (by simp) fun m hm => quiet m (by
        have all : p.fwd = a ++ .stop q :: b := split
        simp [all, hm])] at counting
      simp at counting
    · intro q rep mem
      rcases fresh q rep mem with less | ⟨hs, hq, hr, hrep⟩
      · exact Or.inl less
      · exact Or.inr ⟨hs, hq, rfl, hr, hrep⟩
  · -- the receiver was reporting already
    have same : ({ p.r with phase := .reportAck } : Receiver R) = p.r := by rw [← phase]
    rw [same]
    refine h.of_settled rfl rfl packets h.timers h.waiting h.reporting h.stopping ?_
    intro q rep mem
    rcases fresh q rep mem with less | ⟨hs, hq, hr, hrep⟩
    · exact Or.inl less
    · exact Or.inr ⟨hs, hq, phase, hr, hrep⟩

/-- A message appended behind a pending STOP is quiet. -/
theorem InStep.stopping_snoc (h : InStep V M x p tr) {phase : SPhase} {m : Fwd π Req}
    (quiet : p.s.phase = .waitReport → m.Quiet ∧ phase = .waitReport)
    (stop : ∀ q, m = .stop q → phase = .waitReport) :
    ∀ a q b, p.fwd ++ [m] = a ++ .stop q :: b → (flush V M p.r a).phase = .counting →
      (flush V M p.r a).seq = q → phase = .waitReport ∧ ∀ m ∈ b, m.Quiet := by
  intro a q b split counting seq
  rcases List.eq_nil_or_concat b with rfl | ⟨b', last, rfl⟩
  · have ends := List.append_inj' split rfl
    simp only [List.cons.injEq, and_true] at ends
    exact ⟨stop q ends.2, by simp⟩
  · have ends : p.fwd = a ++ .stop q :: b' ∧ [m] = [last] :=
      List.append_inj' (by simpa using split) rfl
    simp only [List.cons.injEq, and_true] at ends
    obtain ⟨sphase, before⟩ := h.stopping a q b' ends.1 counting seq
    refine ⟨(quiet sphase).2, fun m' hm => ?_⟩
    simp only [List.concat_eq_append, List.mem_append, List.mem_singleton] at hm
    rcases hm with old | rfl
    · exact before m' old
    · rw [← ends.2]; exact (quiet sphase).1

/-- What a message appended by the sender keeps at the receiver's side of the invariant. -/
theorem InStep.snoc (h : InStep V M x p tr) (s' : Sender S) (m : Fwd π Req) (seq : s'.seq = p.s.seq)
    (quiet : p.s.phase = .waitReport → m.Quiet ∧ s'.phase = .waitReport) :
    (p.r.phase = .waitSend → s'.phase = .waitReport ∧ p.r.seq = s'.seq % V.modulus ∧
      ∀ m' ∈ p.fwd ++ [m], m'.Quiet) ∧
    (p.r.phase = .reportAck → (p.r.seq < s'.seq ∧ AckFirst p.r.seq (p.fwd ++ [m])) ∨
      (s'.phase = .waitReport ∧ p.r.seq = s'.seq % V.modulus ∧ ∀ m' ∈ p.fwd ++ [m], m'.Quiet)) ∧
    (∀ q rep, .report q rep ∈ p.bwd → q < s'.seq ∨ (s'.phase = .waitReport ∧ q = s'.seq ∧
      p.r.phase = .reportAck ∧ p.r.seq = s'.seq ∧ rep = M.report p.r.data)) := by
  have all : p.s.phase = .waitReport → (∀ m' ∈ p.fwd, m'.Quiet) → ∀ m' ∈ p.fwd ++ [m], m'.Quiet := by
    intro sphase old m' hm
    rcases List.mem_append.1 hm with hm | hm
    · exact old m' hm
    · rw [List.mem_singleton.1 hm]; exact (quiet sphase).1
  rw [seq]
  refine ⟨fun phase => ?_, fun phase => ?_, fun q rep mem => ?_⟩
  · obtain ⟨sphase, hseq, old⟩ := h.waiting phase
    exact ⟨(quiet sphase).2, hseq, all sphase old⟩
  · rcases h.reporting phase with ⟨less, first⟩ | ⟨sphase, hseq, old⟩
    · exact Or.inl ⟨less, first.append [m]⟩
    · exact Or.inr ⟨(quiet sphase).2, hseq, all sphase old⟩
  · rcases h.reports q rep mem with less | ⟨sphase, rest⟩
    · exact Or.inl less
    · exact Or.inr ⟨(quiet sphase).2, rest⟩

/-- The sender's timer: a START opens the settled receiver's session, once; a STOP closes it. -/
theorem InStep.fireS (lawful : M.Lawful) (h : InStep V M x p tr) :
    InStep V M x { p with s := (p.s.fire V M).1, fwd := p.fwd ++ [(p.s.fire V M).2] } tr := by
  have settled : Pair.settled V M { p with s := (p.s.fire V M).1, fwd := p.fwd ++ [(p.s.fire V M).2] } =
      ((p.settled V M).handle V M (p.s.fire V M).2).1 := flush_snoc V M p.r p.fwd _
  have quiet : p.s.phase = .waitReport → (p.s.fire V M).2.Quiet ∧ (p.s.fire V M).1.phase = .waitReport := by
    intro phase; simp [Sender.fire, phase, Fwd.Quiet]
  have stop : ∀ q, (p.s.fire V M).2 = .stop q → (p.s.fire V M).1.phase = .waitReport := by
    intro q
    cases phase : p.s.phase <;> cases acked : V.acked <;> simp [Sender.fire, phase, acked]
  obtain ⟨waiting, reporting, reports⟩ := h.snoc _ _ (Sender.fire_seq V M p.s) quiet
  have stopping := h.stopping_snoc quiet stop
  cases phase : p.s.phase with
  | idle =>
    obtain ⟨tphase, agree⟩ := h.idle phase
    have none_yet := h.ahead p.s.seq (Or.inr ⟨rfl, Or.inl phase⟩)
    have hs : p.s.data = (lockstep V M (sessionPackets tr) x p.s.seq).1 := congrArg Prod.fst agree
    have hr : (p.settled V M).data = (lockstep V M (sessionPackets tr) x p.s.seq).2 := congrArg Prod.snd agree
    cases acked : V.acked with
    | true =>
      have fire := Sender.fire_acked V M acked (Or.inl phase)
      rw [fire] at settled waiting reporting reports stopping ⊢
      refine ⟨by simp, ?_, ?_, by simp, fun _ => acked, ?_, h.timers, waiting, reporting, stopping, reports⟩
      · intro _
        rw [settled]
        simp [Receiver.handle, tphase, Receiver.open, none_yet, metered, openedS, acked, hs, hr]
      · intro _
        rw [settled]
        simp [Receiver.handle, tphase, Receiver.open]
      · intro j hj
        exact h.ahead j (hj.imp id fun hj => ⟨hj.1, Or.inl phase⟩)
    | false =>
      have fire := Sender.fire_unacked V M acked (Or.inl phase)
      rw [fire] at settled waiting reporting reports stopping ⊢
      refine ⟨by simp, ?_, ?_, by simp, by simp, ?_, h.timers, waiting, reporting, stopping, reports⟩
      · intro _
        rw [settled]
        simp [Receiver.handle, tphase, Receiver.open, none_yet, metered, openedS, acked, hs, hr]
      · intro _
        rw [settled]
        simp [Receiver.handle, tphase, Receiver.open]
      · intro j hj
        exact h.ahead j (hj.imp id fun hj => ⟨hj.1, Or.inl phase⟩)
  | startAck =>
    -- a repeated START finds the settled receiver counting, with nothing counted yet
    have acked := h.acked phase
    have tphase := h.opening (Or.inl phase)
    obtain ⟨tseq, agree⟩ := h.busy (by simp [phase])
    have none_yet := h.ahead p.s.seq (Or.inr ⟨rfl, Or.inr phase⟩)
    have fire := Sender.fire_acked V M acked (Or.inr phase)
    rw [none_yet] at agree
    simp only [metered, openedS, acked, if_true, List.foldl_nil, List.filter_nil, Prod.mk.injEq] at agree
    rw [fire] at settled waiting reporting reports stopping ⊢
    refine ⟨by simp, ?_, ?_, by simp, fun _ => acked, ?_, h.timers, waiting, reporting, stopping, reports⟩
    · intro _
      rw [settled]
      simp [Receiver.handle, tphase, Receiver.open, none_yet, metered, openedS, acked, agree,
        lawful.opened_opened, lawful.init_again]
    · intro _
      rw [settled]
      simp [Receiver.handle, tphase, Receiver.open]
    · intro j hj
      exact h.ahead j (hj.imp id fun hj => ⟨hj.1, Or.inr phase⟩)
  | counting =>
    have tphase := h.opening (Or.inr phase)
    obtain ⟨tseq, agree⟩ := h.busy (by simp [phase])
    have fire := Sender.fire_busy V M (Or.inl phase)
    rw [fire] at settled waiting reporting reports stopping ⊢
    have after : (p.settled V M).handle V M (.stop (p.s.seq % V.modulus)) =
        ({ (p.settled V M).arm with phase := .waitSend }, []) := by simp [Receiver.handle, tphase, tseq]
    rw [after] at settled
    refine ⟨by simp, ?_, by simp, ?_, by simp, ?_, h.timers, waiting, reporting, stopping, reports⟩
    · intro _
      rw [settled]
      exact ⟨tseq, agree⟩
    · intro _
      rw [settled]
      exact Or.inl rfl
    · intro j hj
      exact h.ahead j (hj.imp id fun hj => by simp at hj)
  | waitReport =>
    have fire : p.s.fire V M = (p.s, .stop (p.s.seq % V.modulus)) := by
      simp only [Sender.fire, phase]
      rw [← phase]
    rw [fire] at settled waiting reporting reports stopping ⊢
    have notCounting : (p.settled V M).phase ≠ .counting := by
      rcases h.closing phase with h' | h' <;> simp [h']
    rw [handle_quiet V M notCounting (m := .stop (p.s.seq % V.modulus)) trivial] at settled
    refine h.of_settled ?_ ?_ rfl h.timers waiting reporting stopping reports
    · rfl
    · exact settled

/-- A packet leaves the sender. While a session is open it is metered on both sides unless it
is lost; otherwise the settled receiver does not look at it. -/
theorem InStep.egress (sound : V.Sound) (h : InStep V M x p tr) (pkt : π) (lost : Bool) :
    InStep V M x { p with
        s := (p.s.emit V M pkt).1
        fwd := if lost then p.fwd else p.fwd ++ [(p.s.emit V M pkt).2] }
      (tr ++ if p.s.phase = .counting then [.counted p.s.seq pkt lost] else []) := by
  by_cases phase : p.s.phase = .counting
  · have tphase := h.opening (Or.inr phase)
    obtain ⟨tseq, agree⟩ := h.busy (by simp [phase])
    have hs := congrArg Prod.fst agree
    have hr := congrArg Prod.snd agree
    simp only at hs hr
    have emit : p.s.emit V M pkt = ({ p.s with data := M.countS p.s.seq p.s.data pkt },
        .data (some (p.s.seq % V.modulus)) pkt) := by simp [Sender.emit, phase]
    have notWaiting : p.s.phase ≠ .waitReport := by simp [phase]
    -- earlier sessions are closed: their packets stay what they were
    have older : ∀ j, j ≠ p.s.seq →
        sessionPackets (tr ++ [.counted p.s.seq pkt lost]) j = sessionPackets tr j := by
      intro j hj; simp [sessionPackets, Ne.symm hj]
    have newer : sessionPackets (tr ++ [.counted p.s.seq pkt lost]) p.s.seq =
        sessionPackets tr p.s.seq ++ [(pkt, lost)] := by simp [sessionPackets]
    have before : lockstep V M (sessionPackets (tr ++ [.counted p.s.seq pkt lost])) x p.s.seq =
        lockstep V M (sessionPackets tr) x p.s.seq := lockstep_congr V M x fun j hj => older j (by omega)
    have ahead : ∀ j, p.s.seq < j ∨ (j = p.s.seq ∧ (p.s.phase = .idle ∨ p.s.phase = .startAck)) →
        sessionPackets (tr ++ [.counted p.s.seq pkt lost]) j = [] := by
      intro j hj
      rcases hj with less | ⟨_, sphase⟩
      · rw [older j (by omega)]
        exact h.ahead j (Or.inl less)
      · simp [phase] at sphase
    simp only [phase, if_true]
    rw [emit]
    cases lost with
    | true =>
      simp only [if_true]
      have settled : Pair.settled V M { p with s := { p.s with data := M.countS p.s.seq p.s.data pkt } } =
          p.settled V M := rfl
      refine ⟨by simp [phase], ?_, ?_, by simp [phase], by simp [phase], ahead, h.timers, h.waiting,
        h.reporting, h.stopping, h.reports⟩
      · intro _
        rw [settled, before, newer, metered_snoc]
        exact ⟨tseq, by simp [hs, hr]⟩
      · intro _
        rw [settled]
        exact tphase
    | false =>
      simp only [Bool.false_eq_true, if_false]
      have settled : Pair.settled V M { p with
          s := { p.s with data := M.countS p.s.seq p.s.data pkt }
          fwd := p.fwd ++ [.data (some (p.s.seq % V.modulus)) pkt] } =
          { p.settled V M with data := M.countR (p.settled V M).seq (p.settled V M).data pkt } := by
        rw [Pair.settled, flush_snoc]
        change ((p.settled V M).handle V M _).1 = _
        simp [Receiver.handle, tphase, tseq]
      obtain ⟨waiting, reporting, reports⟩ := h.snoc
        { p.s with data := M.countS p.s.seq p.s.data pkt } (.data (some (p.s.seq % V.modulus)) pkt) rfl
        (fun sphase => absurd sphase notWaiting)
      refine ⟨by simp [phase], ?_, ?_, by simp [phase], by simp [phase], ahead, h.timers, waiting,
        reporting, h.stopping_snoc (fun sphase => absurd sphase notWaiting) (by simp), reports⟩
      · intro _
        rw [settled, before, newer, metered_snoc]
        exact ⟨tseq, by simp [hs, hr, tseq]⟩
      · intro _
        rw [settled]
        exact tphase
  · have emit : p.s.emit V M pkt = (p.s, .data none pkt) := by simp [Sender.emit, phase]
    simp only [phase, if_false, List.append_nil]
    rw [emit]
    cases lost with
    | true => simpa using h
    | false =>
      simp only [Bool.false_eq_true, if_false]
      have ignored : (p.settled V M).handle V M (.data none pkt) = (p.settled V M, []) := by
        cases sphase : p.s.phase with
        | idle => simp [Receiver.handle, (h.idle sphase).1]
        | startAck => simp [Receiver.handle, sound.tagged (h.acked sphase)]
        | counting => exact absurd sphase phase
        | waitReport => rcases h.closing sphase with h' | h' <;> simp [Receiver.handle, h']
      obtain ⟨waiting, reporting, reports⟩ := h.snoc p.s (.data none pkt) rfl
        (fun sphase => ⟨trivial, sphase⟩)
      refine h.of_settled ?_ ?_ rfl h.timers waiting reporting
        (h.stopping_snoc (fun sphase => ⟨trivial, sphase⟩) (by simp)) reports
      · rfl
      · rw [Pair.settled, flush_snoc]
        exact congrArg Prod.fst ignored

/-- A message reaches the sender. The report that closes a session is the one the lockstep
system would have sent. -/
theorem InStep.deliverB (h : InStep V M x p tr) {m : Bwd Rep} {ms : List (Bwd Rep)} (hb : p.bwd = m :: ms) :
    InStep V M x { p with
        s := (p.s.handle V M m).1, bwd := ms, fwd := p.fwd ++ (p.s.handle V M m).2.1 }
      (tr ++ (p.s.handle V M m).2.2) := by
  have reaction := p.s.reaction V M m
  have mems : ∀ m' ∈ ms, m' ∈ p.bwd := fun m' hm => by simp [hb, hm]
  generalize p.s.handle V M m = react at *
  cases reaction with
  | ignores =>
    simp only [List.append_nil]
    exact h.of_settled rfl rfl rfl h.timers h.waiting h.reporting h.stopping
      fun q rep mem => h.reports q rep (mems _ mem)
  | begins phase =>
    simp only [List.append_nil]
    refine ⟨by simp, fun _ => h.busy (by simp [phase]), fun _ => h.opening (Or.inl phase), by simp, by simp,
      ?_, h.timers, ?_, ?_, ?_, ?_⟩
    · intro j hj
      exact h.ahead j (hj.imp id fun hj => by simp at hj)
    · intro rphase
      have sphase := (h.waiting rphase).1
      simp [phase] at sphase
    · intro rphase
      rcases h.reporting rphase with old | ⟨sphase, _⟩
      · exact Or.inl old
      · simp [phase] at sphase
    · intro a q b split counting seq
      have sphase := (h.stopping a q b split counting seq).1
      simp [phase] at sphase
    · intro q rep mem
      rcases h.reports q rep (mems _ mem) with less | ⟨sphase, _⟩
      · exact Or.inl less
      · simp [phase] at sphase
  | @recovers q _ phase on le =>
    simp only [List.append_nil]
    have notWaiting : p.s.phase ≠ .waitReport := by simp [phase]
    have ignored : (p.settled V M).handle V M (.ack q) = (p.settled V M, []) := by
      simp [Receiver.handle, (h.idle phase).1]
    obtain ⟨waiting, reporting, reports⟩ := h.snoc p.s (.ack q) rfl fun sphase => absurd sphase notWaiting
    refine h.of_settled ?_ ?_ rfl h.timers waiting reporting
      (h.stopping_snoc (fun sphase => absurd sphase notWaiting) (by simp)) fun q rep mem => reports q rep (mems _ mem)
    · rfl
    · rw [Pair.settled, flush_snoc]
      exact congrArg Prod.fst ignored
  | @closes rep phase =>
    obtain ⟨rphase, rseq, hrep, quiet, same⟩ := h.consumable (show Bwd.report p.s.seq rep ∈ p.bwd by simp [hb])
    obtain ⟨_, agree⟩ := h.busy (by simp [phase])
    have hs := congrArg Prod.fst agree
    have hr := congrArg Prod.snd agree
    simp only [same] at hs hr
    have packets : sessionPackets (tr ++ [.consumed p.s.seq rep (M.close p.s.seq p.s.data rep).2]) =
        sessionPackets tr := by
      funext j; simp [sessionPackets]
    have settled : flush V M p.r (p.fwd ++ [.ack p.s.seq]) = { p.r with phase := .idle, armed := false } := by
      rw [flush_snoc, flush_quiet V M (by simp [rphase]) quiet]
      simp [Receiver.handle, rphase, rseq]
    refine ⟨?_, by simp, by simp, by simp, by simp, ?_, h.timers, ?_, ?_, ?_, ?_⟩
    · intro _
      rw [packets]
      change (flush V M p.r (p.fwd ++ [.ack p.s.seq])).phase = _ ∧ (_, (flush V M p.r (p.fwd ++ [.ack p.s.seq])).data) = _
      rw [settled]
      simp only [lockstep, round, ← hs, ← hr, hrep, true_and]
    · intro j hj
      rw [packets]
      exact h.ahead j (Or.inl (by simp only at hj; omega))
    · intro wait
      simp [rphase] at wait
    · intro _
      refine Or.inl ⟨?_, ?_⟩
      · simp only [rseq]; omega
      · rw [rseq]; exact ackFirst_of_quiet quiet
    · -- no STOP finds the receiver counting any more
      intro a q b split counting
      have prefixQuiet : ∀ m ∈ a, m.Quiet := by
        intro m hm
        rcases List.eq_nil_or_concat b with rfl | ⟨b', last, rfl⟩
        · have ends := List.append_inj' split rfl
          exact quiet m (by rw [ends.1]; exact hm)
        · have ends : p.fwd = a ++ .stop q :: b' ∧ [Fwd.ack p.s.seq] = [last] :=
            List.append_inj' (by simpa using split) rfl
          exact quiet m (by rw [ends.1]; simp [hm])
      rw [flush_quiet V M (by simp [rphase]) prefixQuiet] at counting
      simp [rphase] at counting
    · intro q rep' mem
      refine Or.inl ?_
      rcases h.reports q rep' (mems _ mem) with less | ⟨_, same, _⟩ <;> simp only <;> omega

/-- Every step that loses nothing on the wires keeps `InStep`. -/
theorem InStep.step (lawful : M.Lawful) (sound : V.Sound) (h : InStep V M x p tr) {p' : Pair π S R Req Rep}
    {l : Label π} {os : List (Obs π Rep ω)} (noLoss : l.isLoss = false)
    (hstep : Session.step V M l p = some (p', os)) : InStep V M x p' (tr ++ os) := by
  cases moves_of_step V M hstep with
  | fireS => simpa using h.fireS lawful
  | fireR hf => exact h.fireR hf
  | egress pkt lost => exact h.egress sound pkt lost
  | deliverF hf => exact h.deliverF hf
  | deliverB hb => exact h.deliverB hb
  | loseF i => cases noLoss
  | loseB i => cases noLoss

/-- **Lockstep.** Every run without loss on the wires keeps `InStep`. -/
theorem InStep.of_run (lawful : M.Lawful) (sound : V.Sound) {s0 : S} {r0 : R} {p : Pair π S R Req Rep}
    {tr : List (Obs π Rep ω)}
    (run : Lts.Run (Session.step V M) (fun l _ => l.isLoss = false) (Pair.start s0 r0) p tr) :
    InStep V M (s0, r0) p tr :=
  run.invariant (InStep.start V M s0 r0) fun _ _ _ _ _ h noLoss hstep => h.step lawful sound noLoss hstep

/-! ## The closed sessions of a trace -/

/-- The two meters when session `k` of a trace is closed. -/
def meteredAt (V : Variant) (M : Meter π S R Req Rep ω) (x : S × R) (tr : List (Obs π Rep ω)) (k : Nat) : S × R :=
  metered V M k (sessionPackets tr k) (lockstep V M (sessionPackets tr) x k)

/-- What the closing of session `k` shows in the lockstep system. -/
def closing (V : Variant) (M : Meter π S R Req Rep ω) (x : S × R) (tr : List (Obs π Rep ω)) (k : Nat) :
    Obs π Rep ω :=
  .consumed k (M.report (meteredAt V M x tr k).2)
    (M.close k (meteredAt V M x tr k).1 (M.report (meteredAt V M x tr k).2)).2

theorem meteredAt_congr {tr tr' : List (Obs π Rep ω)} {k : Nat}
    (same : ∀ j, j ≤ k → sessionPackets tr' j = sessionPackets tr j) :
    meteredAt V M x tr' k = meteredAt V M x tr k := by
  simp only [meteredAt]
  rw [same k (Nat.le_refl k), lockstep_congr V M x fun j hj => same j (by omega)]

theorem closing_congr {tr tr' : List (Obs π Rep ω)} {k : Nat}
    (same : ∀ j, j ≤ k → sessionPackets tr' j = sessionPackets tr j) :
    closing V M x tr' k = closing V M x tr k := by
  simp only [closing, meteredAt_congr same]

/-- The consumed reports of a trace are those of the lockstep system, one for each session
the sender has left behind. -/
structure Closed (V : Variant) (M : Meter π S R Req Rep ω) (x : S × R) (seq : Nat)
    (tr : List (Obs π Rep ω)) : Prop where
  only : ∀ k rep os, .consumed k rep os ∈ tr → k < seq ∧ .consumed k rep os = closing V M x tr k
  all : ∀ k, k < seq → closing V M x tr k ∈ tr

/-- Observations other than a consumed report keep the closed sessions, as long as they count
for none of them. -/
theorem Closed.append {seq : Nat} {tr os : List (Obs π Rep ω)} (h : Closed V M x seq tr)
    (packets : ∀ j, j < seq → sessionPackets os j = [])
    (noClose : ∀ k rep ws, .consumed k rep ws ∉ os) : Closed V M x seq (tr ++ os) := by
  have same : ∀ k, k < seq → closing V M x (tr ++ os) k = closing V M x tr k := fun k hk =>
    closing_congr fun j hj => by simp [packets j (by omega)]
  constructor
  · intro k rep ws mem
    rcases List.mem_append.1 mem with old | new
    · obtain ⟨less, eq⟩ := h.only k rep ws old
      exact ⟨less, by rw [same k less]; exact eq⟩
    · exact absurd new (noClose k rep ws)
  · intro k hk
    rw [same k hk]
    exact List.mem_append_left _ (h.all k hk)

/-- The sender's answer to a message either closes its session or shows nothing. -/
theorem Closed.deliverB (h : InStep V M x p tr) (closed : Closed V M x p.s.seq tr) {m : Bwd Rep}
    {ms : List (Bwd Rep)} (hb : p.bwd = m :: ms) :
    Closed V M x (p.s.handle V M m).1.seq (tr ++ (p.s.handle V M m).2.2) := by
  have reaction := p.s.reaction V M m
  generalize p.s.handle V M m = react at *
  cases reaction with
  | ignores => simpa using closed
  | begins => simpa using closed
  | recovers => simpa using closed
  | @closes rep phase =>
    obtain ⟨_, _, hrep, _, same⟩ := h.consumable (show Bwd.report p.s.seq rep ∈ p.bwd by simp [hb])
    have agree := (h.busy (by simp [phase])).2
    rw [same] at agree
    have shown : .consumed p.s.seq rep (M.close p.s.seq p.s.data rep).2 = closing V M x tr p.s.seq := by
      have hs : p.s.data = (meteredAt V M x tr p.s.seq).1 := congrArg Prod.fst agree
      have hr : p.r.data = (meteredAt V M x tr p.s.seq).2 := congrArg Prod.snd agree
      simp only [closing, ← hs, ← hr, hrep]
    have keep : ∀ k, closing V M x (tr ++ [.consumed p.s.seq rep (M.close p.s.seq p.s.data rep).2]) k =
        closing V M x tr k := fun k => closing_congr fun j _ => by simp [sessionPackets]
    constructor
    · intro k rep' ws mem
      rw [keep]
      rcases List.mem_append.1 mem with old | new
      · obtain ⟨less, eq⟩ := closed.only k rep' ws old
        exact ⟨by simp only; omega, eq⟩
      · rw [List.mem_singleton] at new
        have hk : k = p.s.seq := by injection new
        refine ⟨by simp only; omega, ?_⟩
        rw [new, hk]; exact shown
    · intro k hk
      rw [keep]
      rcases Nat.lt_succ_iff_lt_or_eq.1 hk with less | rfl
      · exact List.mem_append_left _ (closed.all k less)
      · exact List.mem_append_right _ (by simp [shown])

/-- **Closed sessions.** In a run without loss on the wires the sessions are closed one after the
other, each with the report of the lockstep system. -/
theorem Closed.of_run (lawful : M.Lawful) (sound : V.Sound) {s0 : S} {r0 : R} {p : Pair π S R Req Rep}
    {tr : List (Obs π Rep ω)}
    (run : Lts.Run (Session.step V M) (fun l _ => l.isLoss = false) (Pair.start s0 r0) p tr) :
    Closed V M (s0, r0) p.s.seq tr := by
  suffices both : InStep V M (s0, r0) p tr ∧ Closed V M (s0, r0) p.s.seq tr from both.2
  refine run.invariant (I := fun p tr => InStep V M (s0, r0) p tr ∧ Closed V M (s0, r0) p.s.seq tr)
    ⟨InStep.start V M s0 r0, ⟨by simp, by simp [Pair.start]⟩⟩ ?_
  rintro p p' tr os l ⟨h, closed⟩ noLoss hstep
  refine ⟨h.step lawful sound noLoss hstep, ?_⟩
  cases moves_of_step V M hstep with
  | fireS => simpa using closed
  | fireR hf => exact closed.append (by simp [sessionPackets]) (by simp)
  | egress pkt lost =>
    by_cases phase : p.s.phase = .counting
    · simp only [Sender.emit_seq, phase, if_true]
      exact closed.append (fun j hj => by simp [sessionPackets]; omega) (by simp)
    · simpa [phase] using closed
  | @deliverF m _ hf =>
    refine closed.append (fun j _ => ?_) fun k rep ws => ?_
    · cases m <;> simp [Fwd.seen, sessionPackets]
    · cases m <;> simp [Fwd.seen]
  | deliverB hb => exact Closed.deliverB h closed hb
  | loseF i => cases noLoss
  | loseB i => cases noLoss

end Ns3Fancy.Session
