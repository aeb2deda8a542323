import Ns3Fancy.Lts.Run

/-!
# Metered sessions over a FIFO link

A sender opens numbered sessions at a receiver, meters packets while a session is open and
closes the session against the receiver's report. The forward wire carries START, STOP, the
acknowledgement of reports and the packets; the backward wire carries the acknowledgement
of START and the reports. Both ends retransmit on timers, which may fire at any moment, and
both wires may lose messages. What is metered is a parameter (`Meter`), so one protocol
serves plain counters and larger structures.

The receiver's timers are kept as they are in an event queue that forgets handles: `armed`
says that the last timer set is still pending, `stale` counts the pending timers whose
handle has been overwritten.
-/

namespace Ns3Fancy.Session
set_option autoImplicit false

/-- The sender's states. -/
inductive SPhase where
  | idle | startAck | counting | waitReport
  deriving DecidableEq, Repr

/-- A sender opens a session or is in one. -/
theorem SPhase.opens_or_busy (phase : SPhase) :
    (phase = .idle ∨ phase = .startAck) ∨ phase = .counting ∨ phase = .waitReport := by
  cases phase <;> decide

/-- The receiver's states. -/
inductive RPhase where
  | idle | counting | waitSend | reportAck
  deriving DecidableEq, Repr

/-- What two variants of the handshake may do differently. -/
structure Variant where
  /-- session numbers travel modulo this -/
  modulus : Nat
  /-- the sender waits for the acknowledgement of START before it counts -/
  acked : Bool
  /-- an idle sender answers a late report with another acknowledgement -/
  recovers : Bool
  /-- the receiver counts only packets tagged with its own session -/
  tagged : Bool

/-- What the two ends do with their meters: `π` is the type of packets and `ω` what closing a
session shows. -/
structure Meter (π S R Req Rep ω : Type) where
  /-- the sender clears its meter when it asks for a session -/
  opened : S → S
  request : S → Req
  countS : Nat → S → π → S
  close : Nat → S → Rep → S × List ω
  /-- the receiver prepares its meter; the flag says whether it has left the last session -/
  init : Nat → Bool → Req → R → R
  countR : Nat → R → π → R
  report : R → Rep

inductive Fwd (π Req : Type) where
  | start (q : Nat) (req : Req)
  | stop (q : Nat)
  | ack (q : Nat)
  | data (tag : Option Nat) (p : π)

inductive Bwd (Rep : Type) where
  | startAck (q : Nat)
  | report (q : Nat) (rep : Rep)

structure Sender (S : Type) where
  phase : SPhase
  seq : Nat
  data : S

structure Receiver (R : Type) where
  phase : RPhase
  seq : Nat
  data : R
  armed : Bool
  stale : Nat

/-- Both ends and the two wires, oldest message first. -/
structure Pair (π S R Req Rep : Type) where
  s : Sender S
  r : Receiver R
  fwd : List (Fwd π Req)
  bwd : List (Bwd Rep)

inductive Label (π : Type) where
  | fireS
  | fireR (late : Bool)
  | egress (p : π) (lost : Bool)
  | deliverF
  | deliverB
  | loseF (i : Nat)
  | loseB (i : Nat)

inductive Obs (π Rep ω : Type) where
  | counted (k : Nat) (p : π) (lost : Bool)
  | consumed (k : Nat) (rep : Rep) (os : List ω)
  | gotStop (q : Nat)
  | reported (q : Nat)

/-- A step that loses a message on one of the wires. -/
def Label.isLoss {π : Type} : Label π → Bool
  | .loseF _ | .loseB _ => true
  | _ => false

variable {π S R Req Rep ω : Type} (V : Variant) (M : Meter π S R Req Rep ω)

/-- The sender's pending timer: START while no session is open, STOP afterwards. -/
def Sender.fire (s : Sender S) : Sender S × Fwd π Req :=
  match s.phase with
  | .idle | .startAck =>
    if V.acked then
      ({ s with phase := .startAck, data := M.opened s.data },
        .start (s.seq % V.modulus) (M.request (M.opened s.data)))
    else
      ({ s with phase := .counting }, .start (s.seq % V.modulus) (M.request s.data))
  | .counting | .waitReport => ({ s with phase := .waitReport }, .stop (s.seq % V.modulus))

/-- A packet leaves the sender, counted and tagged while a session is open. -/
def Sender.emit (s : Sender S) (p : π) : Sender S × Fwd π Req :=
  if s.phase = .counting then
    ({ s with data := M.countS s.seq s.data p }, .data (some (s.seq % V.modulus)) p)
  else (s, .data none p)

/-- The timer of a sender that opens a session and waits for the acknowledgement. -/
theorem Sender.fire_acked {s : Sender S} (acked : V.acked = true) (opens : s.phase = .idle ∨ s.phase = .startAck) :
    s.fire V M = ({ s with phase := .startAck, data := M.opened s.data },
      .start (s.seq % V.modulus) (M.request (M.opened s.data))) := by
  rcases opens with phase | phase <;> simp only [Sender.fire, phase, acked, if_true]

/-- The timer of one that opens a session and counts at once. -/
theorem Sender.fire_unacked {s : Sender S} (unacked : V.acked = false) (opens : s.phase = .idle ∨ s.phase = .startAck) :
    s.fire V M = ({ s with phase := .counting }, .start (s.seq % V.modulus) (M.request s.data)) := by
  rcases opens with phase | phase <;> simp only [Sender.fire, phase, unacked, Bool.false_eq_true, if_false]

/-- The timer of one that is in a session. -/
theorem Sender.fire_busy {s : Sender S} (busy : s.phase = .counting ∨ s.phase = .waitReport) :
    s.fire V M = ({ s with phase := .waitReport }, .stop (s.seq % V.modulus)) := by
  rcases busy with phase | phase <;> simp only [Sender.fire, phase]

@[simp] theorem Sender.fire_seq (s : Sender S) : (s.fire V M).1.seq = s.seq := by
  cases phase : s.phase <;> cases acked : V.acked <;> simp [Sender.fire, phase, acked]

@[simp] theorem Sender.emit_seq (s : Sender S) (p : π) : (s.emit V M p).1.seq = s.seq := by
  by_cases phase : s.phase = .counting <;> simp [Sender.emit, phase]

@[simp] theorem Sender.emit_phase (s : Sender S) (p : π) : (s.emit V M p).1.phase = s.phase := by
  by_cases phase : s.phase = .counting <;> simp [Sender.emit, phase]

/-- The sender's answer to a message: its next state, the reply and what it shows. -/
def Sender.handle (s : Sender S) : Bwd Rep → Sender S × List (Fwd π Req) × List (Obs π Rep ω)
  | .startAck q =>
    if s.phase = .startAck ∧ s.seq = q then ({ s with phase := .counting }, [], []) else (s, [], [])
  | .report q rep =>
    match s.phase with
    | .idle => if V.recovers = true ∧ q ≤ s.seq then (s, [.ack q], []) else (s, [], [])
    | .waitReport =>
      if s.seq = q then
        ({ phase := .idle, seq := s.seq + 1, data := (M.close q s.data rep).1 }, [.ack q],
          [.consumed q rep (M.close q s.data rep).2])
      else (s, [], [])
    | .startAck | .counting => (s, [], [])

/-- A START is accepted in every state but the wait before a report. -/
def Receiver.open (r : Receiver R) (q : Nat) (req : Req) : Receiver R :=
  { r with phase := .counting, seq := q, data := M.init q (decide (r.phase ≠ .counting)) req r.data }

/-- Setting the timer: a timer still pending is forgotten, not cancelled. -/
def Receiver.arm (r : Receiver R) : Receiver R :=
  { r with armed := true, stale := r.stale + r.armed.toNat }

/-- The receiver's answer to a message. -/
def Receiver.handle (r : Receiver R) : Fwd π Req → Receiver R × List (Bwd Rep)
  | .start q req => if r.phase = .waitSend then (r, []) else (r.open M q req, [.startAck q])
  | .stop q =>
    if r.phase = .counting ∧ r.seq = q then ({ r.arm with phase := .waitSend }, []) else (r, [])
  | .ack q =>
    if r.phase = .reportAck ∧ r.seq = q then ({ r with phase := .idle, armed := false }, []) else (r, [])
  | .data tag p =>
    if r.phase = .counting ∧ (V.tagged = false ∨ tag = some r.seq) then
      ({ r with data := M.countR r.seq r.data p }, [])
    else (r, [])

/-- One of the receiver's pending timers fires: the last one set, or a forgotten one. -/
def Receiver.fire (r : Receiver R) (late : Bool) : Option (Receiver R × Bwd Rep) :=
  let next := fun r : Receiver R => ({ r.arm with phase := .reportAck }, Bwd.report r.seq (M.report r.data))
  if late then
    if r.stale = 0 then none else some (next { r with stale := r.stale - 1 })
  else
    if r.armed then some (next { r with armed := false }) else none

def Fwd.seen : Fwd π Req → List (Obs π Rep ω)
  | .stop q => [.gotStop q]
  | _ => []

/-- One step of the pair. -/
def step : Lts.Step (Pair π S R Req Rep) (Label π) (Obs π Rep ω)
  | .fireS, p =>
    some ({ p with s := (p.s.fire V M).1, fwd := p.fwd ++ [(p.s.fire V M).2] }, [])
  | .fireR late, p =>
    (p.r.fire M late).map fun f => ({ p with r := f.1, bwd := p.bwd ++ [f.2] }, [.reported p.r.seq])
  | .egress pkt lost, p =>
    some ({ p with
        s := (p.s.emit V M pkt).1
        fwd := if lost then p.fwd else p.fwd ++ [(p.s.emit V M pkt).2] },
      if p.s.phase = .counting then [.counted p.s.seq pkt lost] else [])
  | .deliverF, p =>
    match p.fwd with
    | [] => none
    | m :: ms =>
      some ({ p with r := (p.r.handle V M m).1, fwd := ms, bwd := p.bwd ++ (p.r.handle V M m).2 }, m.seen)
  | .deliverB, p =>
    match p.bwd with
    | [] => none
    | m :: ms =>
      some ({ p with s := (p.s.handle V M m).1, bwd := ms, fwd := p.fwd ++ (p.s.handle V M m).2.1 },
        (p.s.handle V M m).2.2)
  | .loseF i, p => some ({ p with fwd := p.fwd.eraseIdx i }, [])
  | .loseB i, p => some ({ p with bwd := p.bwd.eraseIdx i }, [])

/-! ## What a message can do -/

/-- Everything a receiver can do with a message. -/
inductive Receiver.Reaction (r : Receiver R) : Fwd π Req → Receiver R × List (Bwd Rep) → Prop where
  | opens {q : Nat} {req : Req} : r.phase ≠ .waitSend →
      Reaction r (.start q req) (r.open M q req, [.startAck q])
  | stops : r.phase = .counting → Reaction r (.stop r.seq) ({ r.arm with phase := .waitSend }, [])
  | acknowledged : r.phase = .reportAck →
      Reaction r (.ack r.seq) ({ r with phase := .idle, armed := false }, [])
  | counts {tag : Option Nat} {p : π} : r.phase = .counting → V.tagged = false ∨ tag = some r.seq →
      Reaction r (.data tag p) ({ r with data := M.countR r.seq r.data p }, [])
  | ignores {m : Fwd π Req} : (∀ q req, m = .start q req → r.phase = .waitSend) →
      (∀ q, m = .stop q → ¬(r.phase = .counting ∧ r.seq = q)) →
      (∀ q, m = .ack q → ¬(r.phase = .reportAck ∧ r.seq = q)) → Reaction r m (r, [])

theorem Receiver.reaction (r : Receiver R) (m : Fwd π Req) : r.Reaction V M m (r.handle V M m) := by
  cases m with
  | start q req =>
    by_cases wait : r.phase = .waitSend
    · simpa [Receiver.handle, wait] using Reaction.ignores (V := V) (M := M) (by simp [wait]) (by simp) (by simp)
    · simpa [Receiver.handle, wait] using Reaction.opens (V := V) wait
  | stop q =>
    by_cases hit : r.phase = .counting ∧ r.seq = q
    · obtain ⟨phase, rfl⟩ := hit
      simpa [Receiver.handle, phase] using Reaction.stops (V := V) (M := M) phase
    · simpa [Receiver.handle, hit] using
        Reaction.ignores (V := V) (M := M) (by simp) (by simpa using hit) (by simp)
  | ack q =>
    by_cases hit : r.phase = .reportAck ∧ r.seq = q
    · obtain ⟨phase, rfl⟩ := hit
      simpa [Receiver.handle, phase] using Reaction.acknowledged (V := V) (M := M) phase
    · simpa [Receiver.handle, hit] using
        Reaction.ignores (V := V) (M := M) (by simp) (by simp) (by simpa using hit)
  | data tag p =>
    by_cases hit : r.phase = .counting ∧ (V.tagged = false ∨ tag = some r.seq)
    · simpa only [Receiver.handle, hit, and_self, if_true] using Reaction.counts (M := M) hit.1 hit.2
    · simpa only [Receiver.handle, hit, if_false] using
        Reaction.ignores (V := V) (M := M) (by simp) (by simp) (by simp)

/-- Everything a sender can do with a message. -/
inductive Sender.Reaction (s : Sender S) :
    Bwd Rep → Sender S × List (Fwd π Req) × List (Obs π Rep ω) → Prop where
  | begins : s.phase = .startAck → Reaction s (.startAck s.seq) ({ s with phase := .counting }, [], [])
  | recovers {q : Nat} {rep : Rep} : s.phase = .idle → V.recovers = true → q ≤ s.seq →
      Reaction s (.report q rep) (s, [.ack q], [])
  | closes {rep : Rep} : s.phase = .waitReport → Reaction s (.report s.seq rep)
      ({ phase := .idle, seq := s.seq + 1, data := (M.close s.seq s.data rep).1 }, [.ack s.seq],
        [.consumed s.seq rep (M.close s.seq s.data rep).2])
  | ignores {m : Bwd Rep} : Reaction s m (s, [], [])

theorem Sender.reaction (s : Sender S) (m : Bwd Rep) : s.Reaction V M m (s.handle V M m) := by
  cases m with
  | startAck q =>
    by_cases hit : s.phase = .startAck ∧ s.seq = q
    · obtain ⟨phase, rfl⟩ := hit
      simpa [Sender.handle, phase] using Reaction.begins (V := V) (M := M) phase
    · simpa [Sender.handle, hit] using Reaction.ignores (V := V) (M := M)
  | report q rep =>
    cases phase : s.phase with
    | idle =>
      by_cases hit : V.recovers = true ∧ q ≤ s.seq
      · simpa [Sender.handle, phase, hit] using Reaction.recovers (M := M) phase hit.1 hit.2
      · simpa [Sender.handle, phase, hit] using Reaction.ignores (V := V) (M := M)
    | waitReport =>
      by_cases hit : s.seq = q
      · subst hit
        simpa [Sender.handle, phase] using Reaction.closes (V := V) (M := M) phase
      · simpa [Sender.handle, phase, hit] using Reaction.ignores (V := V) (M := M)
    | startAck => simpa [Sender.handle, phase] using Reaction.ignores (V := V) (M := M)
    | counting => simpa [Sender.handle, phase] using Reaction.ignores (V := V) (M := M)

/-- A timer that fires was pending, and leaves the receiver reporting with a timer set. -/
theorem Receiver.fire_some {r : Receiver R} {late : Bool} {f : Receiver R × Bwd Rep}
    (hf : r.fire M late = some f) :
    (r.armed = true ∨ 0 < r.stale) ∧ ∃ n, f =
      ({ r with phase := .reportAck, armed := true, stale := n }, .report r.seq (M.report r.data)) := by
  cases late with
  | true =>
    by_cases none : r.stale = 0
    · simp [Receiver.fire, none] at hf
    · simp only [Receiver.fire, none, Receiver.arm, if_true, if_false, Option.some.injEq] at hf
      exact ⟨Or.inr (by omega), _, hf.symm⟩
  | false =>
    cases on : r.armed with
    | false => simp [Receiver.fire, on] at hf
    | true =>
      simp only [Receiver.fire, on, Receiver.arm, Bool.false_eq_true, if_false, if_true, Option.some.injEq] at hf
      exact ⟨Or.inl rfl, _, hf.symm⟩

/-! ## What a step can do -/

/-- Everything a step of the pair can do. -/
inductive Moves (p : Pair π S R Req Rep) : Label π → Pair π S R Req Rep → List (Obs π Rep ω) → Prop where
  | fireS : Moves p .fireS { p with s := (p.s.fire V M).1, fwd := p.fwd ++ [(p.s.fire V M).2] } []
  | fireR {late : Bool} {f : Receiver R × Bwd Rep} : p.r.fire M late = some f →
      Moves p (.fireR late) { p with r := f.1, bwd := p.bwd ++ [f.2] } [.reported p.r.seq]
  | egress (pkt : π) (lost : Bool) : Moves p (.egress pkt lost) { p with
        s := (p.s.emit V M pkt).1
        fwd := if lost then p.fwd else p.fwd ++ [(p.s.emit V M pkt).2] }
      (if p.s.phase = .counting then [.counted p.s.seq pkt lost] else [])
  | deliverF {m : Fwd π Req} {ms : List (Fwd π Req)} : p.fwd = m :: ms →
      Moves p .deliverF { p with
        r := (p.r.handle V M m).1, fwd := ms, bwd := p.bwd ++ (p.r.handle V M m).2 } m.seen
  | deliverB {m : Bwd Rep} {ms : List (Bwd Rep)} : p.bwd = m :: ms →
      Moves p .deliverB { p with
        s := (p.s.handle V M m).1, bwd := ms, fwd := p.fwd ++ (p.s.handle V M m).2.1 } (p.s.handle V M m).2.2
  | loseF (i : Nat) : Moves p (.loseF i) { p with fwd := p.fwd.eraseIdx i } []
  | loseB (i : Nat) : Moves p (.loseB i) { p with bwd := p.bwd.eraseIdx i } []

theorem moves_of_step {p p' : Pair π S R Req Rep} {l : Label π} {os : List (Obs π Rep ω)}
    (hstep : step V M l p = some (p', os)) : Moves V M p l p' os := by
  cases l with
  | fireS =>
    simp only [step, Option.some.injEq, Prod.mk.injEq] at hstep
    obtain ⟨rfl, rfl⟩ := hstep
    exact .fireS
  | fireR late =>
    simp only [step, Option.map_eq_some_iff, Prod.mk.injEq] at hstep
    obtain ⟨f, hf, rfl, rfl⟩ := hstep
    exact .fireR hf
  | egress pkt lost =>
    simp only [step, Option.some.injEq, Prod.mk.injEq] at hstep
    obtain ⟨rfl, rfl⟩ := hstep
    exact .egress pkt lost
  | deliverF =>
    simp only [step] at hstep
    split at hstep
    · cases hstep
    · rename_i hf
      simp only [Option.some.injEq, Prod.mk.injEq] at hstep
      obtain ⟨rfl, rfl⟩ := hstep
      exact .deliverF hf
  | deliverB =>
    simp only [step] at hstep
    split at hstep
    · cases hstep
    · rename_i hb
      simp only [Option.some.injEq, Prod.mk.injEq] at hstep
      obtain ⟨rfl, rfl⟩ := hstep
      exact .deliverB hb
  | loseF i =>
    simp only [step, Option.some.injEq, Prod.mk.injEq] at hstep
    obtain ⟨rfl, rfl⟩ := hstep
    exact .loseF i
  | loseB i =>
    simp only [step, Option.some.injEq, Prod.mk.injEq] at hstep
    obtain ⟨rfl, rfl⟩ := hstep
    exact .loseB i

/-- Before the first session: both ends idle, no timer pending at the receiver. -/
def Pair.start (s0 : S) (r0 : R) : Pair π S R Req Rep where
  s := { phase := .idle, seq := 0, data := s0 }
  r := { phase := .idle, seq := 0, data := r0, armed := false, stale := 0 }
  fwd := []
  bwd := []

end Ns3Fancy.Session
