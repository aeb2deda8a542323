import Ns3Fancy.Session.Protocol

/-!
# What control loss cannot break

`Bounded` and `Coupled` hold in every run, whatever the wires lose and whenever timers fire.
`Coupled` says how far apart the two ends can be. Session numbers only grow, and the wire is
FIFO, so once the receiver has opened the sender's session `k` (`Pair.Opened`) nothing from
an earlier session can reach it any more, and no acknowledgement of report `k` exists before
the sender has consumed that report.

All of it is about the sessions below the modulus: at the modulus the number in the header
is zero again and the sender never moves on.
-/

namespace Ns3Fancy.Session
set_option autoImplicit false

variable {π S R Req Rep ω : Type} {V : Variant} {M : Meter π S R Req Rep ω}

/-- The numbers of the STARTs among `ms`, in order. -/
def startNumbers (ms : List (Fwd π Req)) : List Nat :=
  ms.filterMap fun
    | .start q _ => some q
    | _ => none

@[simp] theorem startNumbers_append (ms ms' : List (Fwd π Req)) :
    startNumbers (ms ++ ms') = startNumbers ms ++ startNumbers ms' := by
  simp [startNumbers]

/-- The numbers of the STARTs on a wire. -/
theorem mem_startNumbers {ms : List (Fwd π Req)} {q : Nat} :
    q ∈ startNumbers ms ↔ ∃ req, .start q req ∈ ms := by
  simp only [startNumbers, List.mem_filterMap]
  constructor
  · rintro ⟨m, mem, eq⟩
    cases m with
    | start q' req => exact ⟨req, by simpa [← Option.some.inj eq] using mem⟩
    | stop => cases eq
    | ack => cases eq
    | data => cases eq
  · rintro ⟨req, mem⟩
    exact ⟨_, mem, rfl⟩

/-- A timer sends a START only while the sender is idle or waits for the acknowledgement of one. -/
theorem startNumbers_fire (s : Sender S) {q : Nat} (mem : q ∈ startNumbers [(s.fire V M).2]) :
    q = s.seq % V.modulus ∧ (s.phase = .idle ∨ s.phase = .startAck) := by
  cases phase : s.phase <;> cases acked : V.acked <;> simp_all [Sender.fire, startNumbers]

@[simp] theorem startNumbers_emit (s : Sender S) (pkt : π) : startNumbers [(s.emit V M pkt).2] = [] := by
  by_cases phase : s.phase = .counting <;> simp [Sender.emit, phase, startNumbers]

/-- A timer opens a session or repeats a message. -/
theorem Sender.fire_not_idle (s : Sender S) : (s.fire V M).1.phase ≠ .idle := by
  cases phase : s.phase <;> cases acked : V.acked <;> simp [Sender.fire, phase, acked]

theorem Sender.fire_not_ack (s : Sender S) (q : Nat) : (s.fire V M).2 ≠ .ack q := by
  cases phase : s.phase <;> cases acked : V.acked <;> simp [Sender.fire, phase, acked]

theorem Sender.emit_not_ack (s : Sender S) (pkt : π) (q : Nat) : (s.emit V M pkt).2 ≠ .ack q := by
  by_cases phase : s.phase = .counting <;> simp [Sender.emit, phase]

/-- The receiver has opened the sender's session and nothing older is on its way. -/
def Pair.Opened (p : Pair π S R Req Rep) : Prop :=
  p.r.seq = p.s.seq ∧ p.r.phase ≠ .idle ∧ p.s.phase ≠ .idle ∧ ∀ q ∈ startNumbers p.fwd, q = p.s.seq

/-- Every session number on the wires fits the header. -/
structure Bounded (V : Variant) (p : Pair π S R Req Rep) : Prop where
  sender : p.s.seq ≤ V.modulus
  receiver : p.r.seq < V.modulus
  starts : ∀ q ∈ startNumbers p.fwd, q < V.modulus
  startAcks : ∀ q, .startAck q ∈ p.bwd → q < V.modulus
  reports : ∀ q rep, .report q rep ∈ p.bwd → q < V.modulus
  /-- a sender that waits for acknowledgements opens no session past the header's range -/
  stuck : V.acked = true → p.s.seq = V.modulus → p.s.phase = .idle ∨ p.s.phase = .startAck

/-- How far apart the ends are. -/
structure Coupled (p : Pair π S R Req Rep) : Prop where
  acks : ∀ q, .ack q ∈ p.fwd → q < p.s.seq
  starts : ∀ q ∈ startNumbers p.fwd, q < p.s.seq ∨ (q = p.s.seq ∧ p.s.phase ≠ .idle)
  sorted : (startNumbers p.fwd).Pairwise (· ≤ ·)
  startAcks : ∀ q, .startAck q ∈ p.bwd → q < p.s.seq ∨ (q = p.s.seq ∧ p.Opened)
  reports : ∀ q rep, .report q rep ∈ p.bwd → q < p.s.seq ∨ (q = p.s.seq ∧ p.Opened)
  engaged : p.r.phase ≠ .idle ∨ p.r.armed = true ∨ 0 < p.r.stale → p.r.seq < p.s.seq ∨ p.Opened

/-- A receiver that waits or reports has its timer set. -/
def Receiver.Timed (r : Receiver R) : Prop :=
  r.phase = .waitSend ∨ r.phase = .reportAck → r.armed = true

variable {p p' : Pair π S R Req Rep} {tr os : List (Obs π Rep ω)} {l : Label π}

/-! ## Bounds -/

/-- At the start both numbers are 0. -/
theorem Bounded.start (pos : 0 < V.modulus) (s0 : S) (r0 : R) :
    Bounded V (Pair.start s0 r0 : Pair π S R Req Rep) := by
  constructor <;> simp [Pair.start, startNumbers, pos]

/-- A timer of the sender repeats its number. -/
theorem Bounded.fireS (pos : 0 < V.modulus) (h : Bounded V p) :
    Bounded V { p with s := (p.s.fire V M).1, fwd := p.fwd ++ [(p.s.fire V M).2] } := by
  have small := Nat.mod_lt p.s.seq pos
  refine ⟨by simpa using h.sender, h.receiver, ?_, h.startAcks, h.reports, ?_⟩
  · intro q mem
    rw [startNumbers_append, List.mem_append] at mem
    rcases mem with old | new
    · exact h.starts q old
    · have same := (startNumbers_fire p.s new).1
      omega
  · intro acked top
    rcases h.stuck acked (by simpa using top) with phase | phase <;> simp [Sender.fire, phase, acked]

/-- A receiver takes the number from the wire. -/
theorem Bounded.deliverF (h : Bounded V p) {m : Fwd π Req} {ms : List (Fwd π Req)} (hf : p.fwd = m :: ms) :
    Bounded V { p with
      r := (p.r.handle V M m).1, fwd := ms, bwd := p.bwd ++ (p.r.handle V M m).2 } := by
  have starts : ∀ q ∈ startNumbers ms, q < V.modulus := fun q mem =>
    h.starts q (by rw [hf]; exact (List.sublist_cons_self m ms).filterMap _ |>.subset mem)
  have reaction := p.r.reaction V M m
  generalize p.r.handle V M m = react at *
  cases reaction with
  | @opens q req =>
    have small : q < V.modulus := h.starts q (mem_startNumbers.2 ⟨req, by simp [hf]⟩)
    refine ⟨h.sender, small, starts, ?_, by simpa using h.reports, h.stuck⟩
    intro q' mem
    rcases List.mem_append.1 mem with old | new
    · exact h.startAcks q' old
    · simp only [List.mem_singleton, Bwd.startAck.injEq] at new
      omega
  | stops => exact ⟨h.sender, h.receiver, starts, by simpa using h.startAcks, by simpa using h.reports, h.stuck⟩
  | acknowledged => exact ⟨h.sender, h.receiver, starts, by simpa using h.startAcks, by simpa using h.reports, h.stuck⟩
  | counts => exact ⟨h.sender, h.receiver, starts, by simpa using h.startAcks, by simpa using h.reports, h.stuck⟩
  | ignores => exact ⟨h.sender, h.receiver, starts, by simpa using h.startAcks, by simpa using h.reports, h.stuck⟩

/-- A sender that consumes a report goes on to the next number, which is at most the modulus. -/
theorem Bounded.deliverB (h : Bounded V p) {m : Bwd Rep} {ms : List (Bwd Rep)} (hb : p.bwd = m :: ms) :
    Bounded V { p with
      s := (p.s.handle V M m).1, bwd := ms, fwd := p.fwd ++ (p.s.handle V M m).2.1 } := by
  have startAcks : ∀ q, .startAck q ∈ ms → q < V.modulus := fun q mem => h.startAcks q (by simp [hb, mem])
  have reports : ∀ q rep, .report q rep ∈ ms → q < V.modulus := fun q rep mem => h.reports q rep (by simp [hb, mem])
  have reaction := p.s.reaction V M m
  generalize p.s.handle V M m = react at *
  cases reaction with
  | begins phase =>
    refine ⟨h.sender, h.receiver, by simpa using h.starts, startAcks, reports, fun acked top => ?_⟩
    have small := h.startAcks p.s.seq (by simp [hb])
    exact absurd top (by simp only; omega)
  | recovers => exact ⟨h.sender, h.receiver, by simpa [startNumbers] using h.starts, startAcks, reports, h.stuck⟩
  | @closes rep phase =>
    have small := h.reports p.s.seq rep (by simp [hb])
    exact ⟨small, h.receiver, by simpa [startNumbers] using h.starts, startAcks, reports, fun _ _ => Or.inl rfl⟩
  | ignores => exact ⟨h.sender, h.receiver, by simpa using h.starts, startAcks, reports, h.stuck⟩

/-- **No step leaves the numbers.** -/
theorem Bounded.step (pos : 0 < V.modulus) (h : Bounded V p) (hstep : Session.step V M l p = some (p', os)) :
    Bounded V p' := by
  cases moves_of_step V M hstep with
  | fireS => exact h.fireS pos
  | fireR hf =>
    obtain ⟨_, n, rfl⟩ := p.r.fire_some M hf
    refine ⟨h.sender, h.receiver, h.starts, by simpa using h.startAcks, ?_, h.stuck⟩
    intro q rep mem
    rcases List.mem_append.1 mem with old | new
    · exact h.reports q rep old
    · simp only [List.mem_singleton, Bwd.report.injEq] at new
      rw [new.1]; exact h.receiver
  | egress pkt lost =>
    refine ⟨by simpa using h.sender, h.receiver, ?_, h.startAcks, h.reports, by simpa using h.stuck⟩
    cases lost <;> simpa using h.starts
  | deliverF hf => exact h.deliverF hf
  | deliverB hb => exact h.deliverB hb
  | loseF i =>
    exact ⟨h.sender, h.receiver,
      fun q mem => h.starts q (((List.eraseIdx_sublist p.fwd i).filterMap _).subset mem),
      h.startAcks, h.reports, h.stuck⟩
  | loseB i =>
    exact ⟨h.sender, h.receiver, h.starts,
      fun q mem => h.startAcks q ((List.eraseIdx_sublist p.bwd i).subset mem),
      fun q rep mem => h.reports q rep ((List.eraseIdx_sublist p.bwd i).subset mem), h.stuck⟩

/-! ## Coupling -/

/-- At the start both parties are idle and the wires are empty. -/
theorem Coupled.start (s0 : S) (r0 : R) : Coupled (Pair.start s0 r0 : Pair π S R Req Rep) := by
  constructor <;> simp [Pair.start, startNumbers]

/-- What is left when messages disappear. -/
theorem Coupled.of_sublist (h : Coupled p) {fwd : List (Fwd π Req)} {bwd : List (Bwd Rep)}
    (hf : fwd.Sublist p.fwd) (hb : bwd.Sublist p.bwd) : Coupled { p with fwd := fwd, bwd := bwd } := by
  have starts : (startNumbers fwd).Sublist (startNumbers p.fwd) := hf.filterMap _
  have opened : p.Opened → Pair.Opened { p with fwd := fwd, bwd := bwd } := fun ⟨seq, r, s, all⟩ =>
    ⟨seq, r, s, fun q mem => all q (starts.subset mem)⟩
  exact ⟨fun q mem => h.acks q (hf.subset mem), fun q mem => h.starts q (starts.subset mem), h.sorted.sublist starts,
    fun q mem => (h.startAcks q (hb.subset mem)).imp id fun ⟨eq, op⟩ => ⟨eq, opened op⟩,
    fun q rep mem => (h.reports q rep (hb.subset mem)).imp id fun ⟨eq, op⟩ => ⟨eq, opened op⟩,
    fun on => (h.engaged on).imp id opened⟩

/-- Changes at the receiver that keep its session and do not end it. -/
theorem Coupled.of_receiver (h : Coupled p) {r : Receiver R} (seq : r.seq = p.r.seq) (phase : r.phase ≠ .idle)
    (was : p.r.phase ≠ .idle ∨ p.r.armed = true ∨ 0 < p.r.stale) : Coupled { p with r := r } := by
  have opened : p.Opened → Pair.Opened { p with r := r } := fun ⟨same, _, s, all⟩ => ⟨by rw [← same, ← seq], phase, s, all⟩
  exact ⟨h.acks, h.starts, h.sorted,
    fun q mem => (h.startAcks q mem).imp id fun ⟨eq, op⟩ => ⟨eq, opened op⟩,
    fun q rep mem => (h.reports q rep mem).imp id fun ⟨eq, op⟩ => ⟨eq, opened op⟩,
    fun _ => (h.engaged was).imp (fun less => by rw [seq]; exact less) opened⟩

/-- A START reaches a receiver that takes it. -/
theorem Coupled.opens (h : Coupled p) {q : Nat} {req : Req} {ms : List (Fwd π Req)} (hf : p.fwd = .start q req :: ms) :
    Coupled { p with r := p.r.open M q req, fwd := ms, bwd := p.bwd ++ [.startAck q] } := by
  have numbers : startNumbers p.fwd = q :: startNumbers ms := by rw [hf]; rfl
  have acks : ∀ q', .ack q' ∈ ms → q' < p.s.seq := fun q' mem => h.acks q' (by simp [hf, mem])
  have starts : ∀ q' ∈ startNumbers ms, q' < p.s.seq ∨ (q' = p.s.seq ∧ p.s.phase ≠ .idle) :=
    fun q' mem => h.starts q' (by simp [numbers, mem])
  have sorted := h.sorted
  rw [numbers, List.pairwise_cons] at sorted
  have open_seq : (p.r.open M q req).seq = q := rfl
  rcases h.starts q (by simp [numbers]) with less | ⟨rfl, busy⟩
  · -- a late START of an earlier session: the sender's session is not open yet
    have unopened : ¬p.Opened := fun opened => by
      have same := opened.2.2.2 q (by simp [numbers])
      omega
    refine ⟨acks, starts, sorted.2, ?_, ?_, fun _ => Or.inl less⟩
    · intro q' mem
      rcases List.mem_append.1 mem with old | new
      · exact Or.inl ((h.startAcks q' old).resolve_right fun op => unopened op.2)
      · simp only [List.mem_singleton, Bwd.startAck.injEq] at new
        exact Or.inl (by simp only; omega)
    · intro q' rep mem
      have old : .report q' rep ∈ p.bwd := by simpa using mem
      exact Or.inl ((h.reports q' rep old).resolve_right fun op => unopened op.2)
  · have opened : Pair.Opened { p with
        r := p.r.open M p.s.seq req, fwd := ms, bwd := p.bwd ++ [.startAck p.s.seq] } := by
      refine ⟨rfl, by simp [Receiver.open], busy, fun q' mem => ?_⟩
      have ge := sorted.1 q' mem
      have le := starts q' mem
      simp only
      omega
    refine ⟨acks, starts, sorted.2, ?_, ?_, fun _ => Or.inr opened⟩
    · intro q' mem
      rcases List.mem_append.1 mem with old | new
      · exact (h.startAcks q' old).imp id fun op => ⟨op.1, opened⟩
      · simp only [List.mem_singleton, Bwd.startAck.injEq] at new
        exact Or.inr ⟨new, opened⟩
    · intro q' rep mem
      have old : .report q' rep ∈ p.bwd := by simpa using mem
      exact (h.reports q' rep old).imp id fun op => ⟨op.1, opened⟩

/-- A message that reaches the receiver, by its kind. -/
theorem Coupled.deliverF (h : Coupled p) {m : Fwd π Req} {ms : List (Fwd π Req)} (hf : p.fwd = m :: ms) :
    Coupled { p with r := (p.r.handle V M m).1, fwd := ms, bwd := p.bwd ++ (p.r.handle V M m).2 } := by
  have rest : Coupled { p with fwd := ms } :=
    h.of_sublist (by rw [hf]; exact List.sublist_cons_self m ms) (List.Sublist.refl _)
  have reaction := p.r.reaction V M m
  generalize p.r.handle V M m = react at *
  cases reaction with
  | opens => exact h.opens hf
  | stops phase =>
    simpa using rest.of_receiver (r := { p.r.arm with phase := .waitSend }) rfl (by simp) (Or.inl (by simp [phase]))
  | acknowledged phase =>
    -- only a session the sender has left behind is acknowledged
    have less := h.acks p.r.seq (by simp [hf])
    have unopened : ¬p.Opened := fun opened => by have := opened.1; omega
    refine ⟨rest.acks, rest.starts, rest.sorted, ?_, ?_, fun _ => Or.inl less⟩
    · intro q mem
      exact Or.inl ((h.startAcks q (by simpa using mem)).resolve_right fun op => unopened op.2)
    · intro q rep mem
      exact Or.inl ((h.reports q rep (by simpa using mem)).resolve_right fun op => unopened op.2)
  | counts phase =>
    simpa using rest.of_receiver (r := { p.r with data := M.countR p.r.seq p.r.data _ }) rfl (by simp [phase])
      (Or.inl (by simp [phase]))
  | ignores => simpa using rest

/-- A timer fires: its report is of the session the receiver is engaged in. -/
theorem Coupled.fireR (h : Coupled p) {late : Bool} {f : Receiver R × Bwd Rep} (hf : p.r.fire M late = some f) :
    Coupled { p with r := f.1, bwd := p.bwd ++ [f.2] } := by
  obtain ⟨pending, n, rfl⟩ := p.r.fire_some M hf
  have next := h.of_receiver (r := { p.r with phase := .reportAck, armed := true, stale := n }) rfl (by simp)
    (Or.inr pending)
  refine ⟨next.acks, next.starts, next.sorted, fun q mem => next.startAcks q (by simpa using mem), ?_, next.engaged⟩
  intro q rep mem
  rcases List.mem_append.1 mem with old | new
  · exact next.reports q rep old
  · simp only [List.mem_singleton, Bwd.report.injEq] at new
    rcases next.engaged (Or.inl (by simp)) with less | opened
    · exact Or.inl (by simp only at less ⊢; omega)
    · exact Or.inr ⟨by rw [new.1]; exact opened.1, opened⟩

/-- The sender's timer adds a START of its own session, or a STOP. -/
theorem Coupled.fireS (h : Coupled p) (small : p.s.seq < V.modulus) :
    Coupled { p with s := (p.s.fire V M).1, fwd := p.fwd ++ [(p.s.fire V M).2] } := by
  have busy := Sender.fire_not_idle (V := V) (M := M) p.s
  have fresh : ∀ q ∈ startNumbers [(p.s.fire V M).2], q = p.s.seq := fun q mem => by
    rw [(startNumbers_fire p.s mem).1, Nat.mod_eq_of_lt small]
  have opened : p.Opened → Pair.Opened { p with s := (p.s.fire V M).1, fwd := p.fwd ++ [(p.s.fire V M).2] } := by
    rintro ⟨seq, rphase, _, all⟩
    refine ⟨by simpa using seq, rphase, busy, fun q mem => ?_⟩
    rw [startNumbers_append, List.mem_append] at mem
    simpa using mem.elim (all q) (fresh q)
  constructor
  · intro q mem
    rw [List.mem_append] at mem
    rcases mem with old | new
    · simpa using h.acks q old
    · exact absurd (List.mem_singleton.1 new).symm (p.s.fire_not_ack q)
  · intro q mem
    rw [startNumbers_append, List.mem_append] at mem
    rcases mem with old | new
    · simpa using (h.starts q old).imp id fun eq => ⟨eq.1, busy⟩
    · exact Or.inr ⟨by simpa using fresh q new, busy⟩
  · simp only [startNumbers_append]
    refine List.pairwise_append.2 ⟨h.sorted, ?_, fun a old b new => ?_⟩
    · cases phase : p.s.phase <;> cases acked : V.acked <;> simp [Sender.fire, phase, acked, startNumbers]
    · have le := h.starts a old
      have eq := fresh b new
      omega
  · intro q mem
    simpa using (h.startAcks q mem).imp id fun op => ⟨op.1, opened op.2⟩
  · intro q rep mem
    simpa using (h.reports q rep mem).imp id fun op => ⟨op.1, opened op.2⟩
  · intro on
    simpa using (h.engaged on).imp id opened

/-- A counted packet carries no number of a session. -/
theorem Coupled.egress (h : Coupled p) (pkt : π) (lost : Bool) :
    Coupled { p with
      s := (p.s.emit V M pkt).1, fwd := if lost then p.fwd else p.fwd ++ [(p.s.emit V M pkt).2] } := by
  have numbers : startNumbers (if lost then p.fwd else p.fwd ++ [(p.s.emit V M pkt).2]) = startNumbers p.fwd := by
    cases lost <;> simp
  have opened : Pair.Opened { p with
      s := (p.s.emit V M pkt).1, fwd := if lost then p.fwd else p.fwd ++ [(p.s.emit V M pkt).2] } ↔ p.Opened := by
    simp [Pair.Opened, numbers]
  refine ⟨?_, by simpa [numbers] using h.starts, by simpa [numbers] using h.sorted, by simpa [opened] using h.startAcks,
    by simpa [opened] using h.reports, by simpa [opened] using h.engaged⟩
  intro q mem
  simp only [Sender.emit_seq]
  refine h.acks q ?_
  cases lost with
  | true => exact mem
  | false =>
    rcases List.mem_append.1 mem with old | new
    · exact old
    · exact absurd (List.mem_singleton.1 new).symm (p.s.emit_not_ack pkt q)

/-- An answer that reaches the sender, by its kind. -/
theorem Coupled.deliverB (h : Coupled p) {m : Bwd Rep} {ms : List (Bwd Rep)} (hb : p.bwd = m :: ms) :
    Coupled { p with s := (p.s.handle V M m).1, bwd := ms, fwd := p.fwd ++ (p.s.handle V M m).2.1 } := by
  have rest : Coupled { p with bwd := ms } :=
    h.of_sublist (List.Sublist.refl _) (by rw [hb]; exact List.sublist_cons_self m ms)
  have reaction := p.s.reaction V M m
  generalize p.s.handle V M m = react at *
  cases reaction with
  | ignores => simpa using rest
  | begins phase =>
    simp only [List.append_nil]
    have opened : Pair.Opened { p with bwd := ms } →
        Pair.Opened { p with s := { p.s with phase := .counting }, bwd := ms } := fun ⟨seq, r, _, all⟩ =>
      ⟨seq, r, by simp, all⟩
    exact ⟨rest.acks, fun q mem => (rest.starts q mem).imp id fun eq => ⟨eq.1, by simp⟩, rest.sorted,
      fun q mem => (rest.startAcks q mem).imp id fun op => ⟨op.1, opened op.2⟩,
      fun q rep mem => (rest.reports q rep mem).imp id fun op => ⟨op.1, opened op.2⟩,
      fun on => (rest.engaged on).imp id opened⟩
  | @recovers q rep phase =>
    have less : q < p.s.seq :=
      (h.reports q rep (by simp [hb])).resolve_right fun op => op.2.2.2.1 phase
    have numbers : startNumbers (p.fwd ++ [.ack q]) = startNumbers p.fwd := by simp [startNumbers]
    have opened : Pair.Opened { p with bwd := ms, fwd := p.fwd ++ [.ack q] } ↔ Pair.Opened { p with bwd := ms } := by
      simp [Pair.Opened, numbers]
    refine ⟨?_, by simpa [numbers] using rest.starts, by simpa [numbers] using rest.sorted,
      by simpa [opened] using rest.startAcks, by simpa [opened] using rest.reports, by simpa [opened] using rest.engaged⟩
    intro q' mem
    rcases List.mem_append.1 mem with old | new
    · exact rest.acks q' old
    · simp only [List.mem_singleton, Fwd.ack.injEq] at new
      exact new ▸ less
  | @closes rep phase =>
    have numbers : startNumbers (p.fwd ++ [.ack p.s.seq]) = startNumbers p.fwd := by simp [startNumbers]
    refine ⟨?_, ?_, by simpa [numbers] using rest.sorted, ?_, ?_, ?_⟩
    · intro q mem
      rcases List.mem_append.1 mem with old | new
      · exact Nat.lt_succ_of_lt (rest.acks q old)
      · simp only [List.mem_singleton, Fwd.ack.injEq] at new
        exact new ▸ Nat.lt_succ_self p.s.seq
    · intro q mem
      rw [numbers] at mem
      have le := rest.starts q mem
      exact Or.inl (by simp only at le ⊢; omega)
    · intro q mem
      have le := rest.startAcks q mem
      exact Or.inl (by simp only at le ⊢; omega)
    · intro q rep' mem
      have le := rest.reports q rep' mem
      exact Or.inl (by simp only at le ⊢; omega)
    · intro on
      rcases rest.engaged on with less | opened
      · exact Or.inl (Nat.lt_succ_of_lt less)
      · exact Or.inl (by rw [show p.r.seq = p.s.seq from opened.1]; exact Nat.lt_succ_self _)

/-- **The parties stay coupled**, as long as the numbers do not wrap. -/
theorem Coupled.step (small : p.s.seq < V.modulus) (h : Coupled p) (hstep : Session.step V M l p = some (p', os)) :
    Coupled p' := by
  cases moves_of_step V M hstep with
  | fireS => exact h.fireS small
  | fireR hf => exact h.fireR hf
  | egress pkt lost => exact h.egress pkt lost
  | deliverF hf => exact h.deliverF hf
  | deliverB hb => exact h.deliverB hb
  | loseF i => exact h.of_sublist (List.eraseIdx_sublist p.fwd i) (List.Sublist.refl _)
  | loseB i => exact h.of_sublist (List.Sublist.refl _) (List.eraseIdx_sublist p.bwd i)

/-! ## Every run -/

/-- A receiver that waits or reports keeps its timer. -/
theorem Receiver.Timed.step (h : p.r.Timed) (hstep : Session.step V M l p = some (p', os)) : p'.r.Timed := by
  cases moves_of_step V M hstep with
  | fireR hf =>
    obtain ⟨_, n, rfl⟩ := p.r.fire_some M hf
    exact fun _ => rfl
  | @deliverF m _ hf =>
    have reaction := p.r.reaction V M m
    generalize p.r.handle V M m = react at *
    cases reaction with
    | opens => exact fun phase => by simp [Receiver.open] at phase
    | stops => exact fun _ => rfl
    | acknowledged => exact fun phase => by simp at phase
    | counts => exact h
    | ignores => exact h
  | fireS => exact h
  | egress => exact h
  | deliverB => exact h
  | loseF => exact h
  | loseB => exact h

/-- The sender's session number never falls. -/
theorem seq_le_of_step (hstep : Session.step V M l p = some (p', os)) : p.s.seq ≤ p'.s.seq := by
  cases moves_of_step V M hstep with
  | fireS => simp
  | egress => simp
  | @deliverB m _ hb =>
    have reaction := p.s.reaction V M m
    generalize p.s.handle V M m = react at *
    cases reaction with
    | closes => exact Nat.le_succ _
    | begins => exact Nat.le_refl _
    | recovers => exact Nat.le_refl _
    | ignores => exact Nat.le_refl _
  | fireR => exact Nat.le_refl _
  | deliverF => exact Nat.le_refl _
  | loseF => exact Nat.le_refl _
  | loseB => exact Nat.le_refl _

/-- What every run keeps. -/
structure Sane (V : Variant) (p : Pair π S R Req Rep) : Prop where
  bounded : Bounded V p
  coupled : p.s.seq < V.modulus → Coupled p
  timed : p.r.Timed

theorem Sane.start (pos : 0 < V.modulus) (s0 : S) (r0 : R) : Sane V (Pair.start s0 r0 : Pair π S R Req Rep) :=
  ⟨.start pos s0 r0, fun _ => .start s0 r0, fun phase => by simp [Pair.start] at phase⟩

/-- One step keeps all three. -/
theorem Sane.step (pos : 0 < V.modulus) (h : Sane V p) (hstep : Session.step V M l p = some (p', os)) : Sane V p' where
  bounded := h.bounded.step pos hstep
  coupled small :=
    have before : p.s.seq < V.modulus := Nat.lt_of_le_of_lt (seq_le_of_step hstep) small
    (h.coupled before).step before hstep
  timed := h.timed.step hstep

/-- **In every run**, with any losses. -/
theorem Sane.of_run (pos : 0 < V.modulus) {ok : Label π → Pair π S R Req Rep → Prop} {s0 : S} {r0 : R}
    (run : Lts.Run (Session.step V M) ok (Pair.start s0 r0) p tr) : Sane V p :=
  run.invariant (I := fun p _ => Sane V p) (.start pos s0 r0) fun _ _ _ _ _ h _ hstep => h.step pos hstep

end Ns3Fancy.Session
