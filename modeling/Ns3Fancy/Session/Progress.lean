import Ns3Fancy.Session.Lossy
import Mathlib.Algebra.GroupWithZero.Nat

/-!
# No dead states

From every state a run can reach, under any loss on the wires, there is a continuation without
loss in which the sender closes its session and starts the next one. For a sender that
waits for the acknowledgement of START this needs nothing. A sender that does not wait sends
each START only once, so there the continuation exists as long as no START is lost.

The continuation first works off both wires (`drain`), then lets the timers fire one at a time.
-/

namespace Ns3Fancy.Session
set_option autoImplicit false

variable {π S R Req Rep ω : Type} {V : Variant} {M : Meter π S R Req Rep ω}
variable {p p' : Pair π S R Req Rep} {tr os : List (Obs π Rep ω)} {l : Label π}

/-! ## What keeps a session alive -/

/-- A session, once opened, stays so until the sender closes it. -/
theorem Pair.Opened.step (coupled : Coupled p) (small : p.s.seq < V.modulus) (op : p.Opened)
    (hstep : Session.step V M l p = some (p', os)) : p'.Opened ∨ p'.s.seq = p.s.seq + 1 := by
  obtain ⟨seq, rphase, sphase, all⟩ := op
  cases moves_of_step V M hstep with
  | fireS =>
    refine Or.inl ⟨by simpa using seq, rphase, Sender.fire_not_idle p.s, fun q mem => ?_⟩
    rw [startNumbers_append, List.mem_append] at mem
    rcases mem with old | new
    · simpa using all q old
    · simpa [Nat.mod_eq_of_lt small] using (startNumbers_fire p.s new).1
  | fireR hf =>
    obtain ⟨_, n, rfl⟩ := p.r.fire_some M hf
    exact Or.inl ⟨seq, by simp, sphase, all⟩
  | egress pkt lost =>
    refine Or.inl ⟨by simpa using seq, rphase, by simpa using sphase, ?_⟩
    cases lost <;> simpa using all
  | @deliverF m ms hf =>
    have rest : ∀ q ∈ startNumbers ms, q = p.s.seq := fun q mem =>
      all q (by rw [hf]; exact ((List.sublist_cons_self m ms).filterMap _).subset mem)
    have reaction := p.r.reaction V M m
    generalize p.r.handle V M m = react at *
    cases reaction with
    | @opens q req _ =>
      exact Or.inl ⟨all q (mem_startNumbers.2 ⟨req, by simp [hf]⟩), by simp [Receiver.open], sphase, rest⟩
    | stops => exact Or.inl ⟨seq, by simp, sphase, rest⟩
    | acknowledged =>
      have less := coupled.acks p.r.seq (by simp [hf])
      omega
    | counts => exact Or.inl ⟨seq, rphase, sphase, rest⟩
    | ignores => exact Or.inl ⟨seq, rphase, sphase, rest⟩
  | @deliverB m ms hb =>
    have reaction := p.s.reaction V M m
    generalize p.s.handle V M m = react at *
    cases reaction with
    | begins => exact Or.inl ⟨seq, rphase, by simp, by simpa using all⟩
    | recovers phase => exact absurd phase sphase
    | closes => exact Or.inr rfl
    | ignores => exact Or.inl ⟨seq, rphase, sphase, by simpa using all⟩
  | loseF i =>
    exact Or.inl ⟨seq, rphase, sphase, fun q mem => all q (((List.eraseIdx_sublist p.fwd i).filterMap _).subset mem)⟩
  | loseB i => exact Or.inl ⟨seq, rphase, sphase, all⟩

/-- A sender that waits for acknowledgements counts only in sessions the receiver has opened. -/
structure LiveAcked (V : Variant) (p : Pair π S R Req Rep) : Prop where
  sane : Sane V p
  opened : p.s.seq < V.modulus → p.s.phase = .counting ∨ p.s.phase = .waitReport → p.Opened

theorem LiveAcked.step (pos : 0 < V.modulus) (acked : V.acked = true) (h : LiveAcked V p)
    (hstep : Session.step V M l p = some (p', os)) : LiveAcked V p' := by
  refine ⟨h.sane.step pos hstep, fun small phase => ?_⟩
  have before : p.s.seq < V.modulus := Nat.lt_of_le_of_lt (seq_le_of_step hstep) small
  have coupled := h.sane.coupled before
  by_cases busy : p.s.phase = .counting ∨ p.s.phase = .waitReport
  · refine ((h.opened before busy).step coupled before hstep).resolve_right fun next => ?_
    -- the session was closed, so the sender is idle
    cases moves_of_step V M hstep with
    | fireS => simp at next
    | egress => simp at next
    | @deliverB m ms hb =>
      have reaction := p.s.reaction V M m
      generalize p.s.handle V M m = react at *
      cases reaction with
      | closes => simp at phase
      | begins => simp at next
      | recovers => simp at next
      | ignores => simp at next
    | fireR => simp at next
    | deliverF => simp at next
    | loseF => simp at next
    | loseB => simp at next
  · cases moves_of_step V M hstep with
    | fireS => cases was : p.s.phase <;> simp_all [Sender.fire]
    | egress => exact absurd (by simpa using phase) busy
    | @deliverB m ms hb =>
      have reaction := p.s.reaction V M m
      generalize p.s.handle V M m = react at *
      cases reaction with
      | begins =>
        have op := (coupled.startAcks p.s.seq (by simp [hb])).resolve_left (by omega)
        exact ⟨op.2.1, op.2.2.1, by simp, by simpa using op.2.2.2.2⟩
      | closes => simp at phase
      | recovers => exact absurd phase busy
      | ignores => exact absurd phase busy
    | fireR => exact absurd phase busy
    | deliverF => exact absurd phase busy
    | loseF => exact absurd phase busy
    | loseB => exact absurd phase busy

/-- A step that loses a START. -/
def Label.losesStart (l : Label π) (p : Pair π S R Req Rep) : Prop :=
  ∃ i q req, l = .loseF i ∧ p.fwd[i]? = some (.start q req)

theorem startNumbers_eraseIdx {ms : List (Fwd π Req)} {i : Nat} (kept : ∀ q req, ms[i]? ≠ some (.start q req)) :
    startNumbers (ms.eraseIdx i) = startNumbers ms := by
  induction ms generalizing i with
  | nil => rfl
  | cons m ms ih =>
    cases i with
    | zero =>
      cases m with
      | start q req => exact absurd rfl (kept q req)
      | stop => rfl
      | ack => rfl
      | data => rfl
    | succ i =>
      have rest := ih fun q req => by simpa using kept q req
      simp only [List.eraseIdx_cons_succ]
      cases m <;> simp_all [startNumbers]

/-- A sender that does not wait for acknowledgements: its one START is on its way, or the receiver
has taken it. -/
structure LiveUnacked (p : Pair π S R Req Rep) : Prop where
  once : startNumbers p.fwd = [] ∨ (startNumbers p.fwd = [p.s.seq] ∧ ¬p.Opened ∧ p.s.phase ≠ .idle)
  fresh : p.r.phase = .counting ∨ p.r.phase = .waitSend → p.Opened ∧ ∀ rep, .report p.s.seq rep ∉ p.bwd
  opened : p.s.phase ≠ .idle → p.Opened ∨ startNumbers p.fwd = [p.s.seq]
  unacked : p.s.phase ≠ .startAck

theorem LiveUnacked.start (s0 : S) (r0 : R) : LiveUnacked (Pair.start s0 r0 : Pair π S R Req Rep) := by
  constructor <;> simp [Pair.start, startNumbers]

/-- Steps that neither open nor close a session nor touch its START. -/
theorem LiveUnacked.frame (h : LiveUnacked p) (seq : p'.s.seq = p.s.seq) (phase : p'.s.phase = p.s.phase)
    (numbers : startNumbers p'.fwd = startNumbers p.fwd) (same : p'.Opened ↔ p.Opened)
    (rphase : p'.r.phase = .counting ∨ p'.r.phase = .waitSend → p.r.phase = .counting ∨ p.r.phase = .waitSend)
    (reports : ∀ rep, .report p.s.seq rep ∈ p'.bwd → .report p.s.seq rep ∈ p.bwd) : LiveUnacked p' where
  once := by rw [seq, phase, numbers, same]; exact h.once
  fresh was := ⟨same.2 (h.fresh (rphase was)).1, fun rep mem => (h.fresh (rphase was)).2 rep (reports rep (seq ▸ mem))⟩
  opened := by rw [seq, phase, numbers, same]; exact h.opened
  unacked := by rw [phase]; exact h.unacked

theorem LiveUnacked.deliverF (h : LiveUnacked p) (coupled : Coupled p) {m : Fwd π Req} {ms : List (Fwd π Req)}
    (hf : p.fwd = m :: ms) :
    LiveUnacked { p with r := (p.r.handle V M m).1, fwd := ms, bwd := p.bwd ++ (p.r.handle V M m).2 } := by
  have reaction := p.r.reaction V M m
  generalize p.r.handle V M m = react at *
  cases reaction with
  | @opens q req notWait =>
    have numbers : startNumbers p.fwd = q :: startNumbers ms := by rw [hf]; rfl
    obtain none | ⟨only, unop, busy⟩ := h.once
    · simp [numbers] at none
    · rw [numbers, List.cons.injEq] at only
      obtain ⟨rfl, none⟩ := only
      have op : Pair.Opened { p with
          r := p.r.open M p.s.seq req, fwd := ms, bwd := p.bwd ++ [.startAck p.s.seq] } :=
        ⟨rfl, by simp [Receiver.open], busy, by simp [none]⟩
      refine ⟨Or.inl none, fun _ => ⟨op, fun rep mem => ?_⟩, fun _ => Or.inl op, h.unacked⟩
      have old : .report p.s.seq rep ∈ p.bwd := by simpa using mem
      exact unop ((coupled.reports _ rep old).resolve_left (by omega)).2
  | stops phase =>
    have numbers : startNumbers ms = startNumbers p.fwd := by rw [hf]; rfl
    exact h.frame rfl rfl numbers (by simp [Pair.Opened, numbers, phase, Receiver.arm]) (fun _ => Or.inl phase) (by simp)
  | acknowledged phase =>
    have numbers : startNumbers ms = startNumbers p.fwd := by rw [hf]; rfl
    have less := coupled.acks p.r.seq (by simp [hf])
    have unop : ¬p.Opened := fun op => by have := op.1; omega
    refine ⟨?_, by simp, fun busy => ?_, h.unacked⟩
    · rw [numbers]
      obtain none | ⟨only, _, busy⟩ := h.once
      · exact Or.inl none
      · exact Or.inr ⟨only, fun op => op.2.1 rfl, busy⟩
    · exact Or.inr (by rw [numbers]; exact (h.opened busy).resolve_left unop)
  | counts phase =>
    have numbers : startNumbers ms = startNumbers p.fwd := by rw [hf]; rfl
    exact h.frame rfl rfl numbers (by simp [Pair.Opened, numbers]) id (by simp)
  | ignores notStart =>
    -- a START is never ignored: a receiver in the wait before a report has opened the session
    have numbers : startNumbers ms = startNumbers p.fwd := by
      cases m with
      | start q req =>
        have op := (h.fresh (Or.inr (notStart q req rfl))).1
        obtain none | ⟨_, unop, _⟩ := h.once
        · rw [hf] at none
          cases none
        · exact absurd op unop
      | stop => rw [hf]; rfl
      | ack => rw [hf]; rfl
      | data => rw [hf]; rfl
    exact h.frame rfl rfl numbers (by simp [Pair.Opened, numbers]) id (by simp)

theorem LiveUnacked.deliverB (h : LiveUnacked p) (coupled : Coupled p) {m : Bwd Rep} {ms : List (Bwd Rep)}
    (hb : p.bwd = m :: ms) :
    LiveUnacked { p with s := (p.s.handle V M m).1, bwd := ms, fwd := p.fwd ++ (p.s.handle V M m).2.1 } := by
  have mems : ∀ rep, .report p.s.seq rep ∈ ms → .report p.s.seq rep ∈ p.bwd := fun rep mem => by simp [hb, mem]
  have reaction := p.s.reaction V M m
  generalize p.s.handle V M m = react at *
  cases reaction with
  | ignores => exact h.frame rfl rfl (by simp) (by simp [Pair.Opened]) id mems
  | begins phase => exact absurd phase h.unacked
  | recovers =>
    exact h.frame rfl rfl (by simp [startNumbers]) (by simp [Pair.Opened, startNumbers]) id mems
  | @closes rep phase =>
    have mem : .report p.s.seq rep ∈ p.bwd := by simp [hb]
    have op := ((coupled.reports _ rep mem).resolve_left (by omega)).2
    have none : startNumbers p.fwd = [] := h.once.resolve_right fun one => one.2.1 op
    refine ⟨Or.inl (by simpa [startNumbers] using none), fun phase => ?_, by simp, by simp⟩
    exact absurd mem ((h.fresh phase).2 rep)

theorem LiveUnacked.step (unacked : V.acked = false) (h : LiveUnacked p) (coupled : Coupled p)
    (small : p.s.seq < V.modulus) (good : ¬l.losesStart p) (hstep : Session.step V M l p = some (p', os)) :
    LiveUnacked p' := by
  cases moves_of_step V M hstep with
  | fireS =>
    by_cases idle : p.s.phase = .idle
    · have fire : p.s.fire V M = ({ p.s with phase := .counting }, .start p.s.seq (M.request p.s.data)) := by
        rw [Sender.fire_unacked V M unacked (Or.inl idle), Nat.mod_eq_of_lt small]
      have none : startNumbers p.fwd = [] := h.once.resolve_right fun one => one.2.2 idle
      have numbers : startNumbers (p.fwd ++ [.start p.s.seq (M.request p.s.data)]) = [p.s.seq] := by
        rw [startNumbers_append, none]; rfl
      rw [fire]
      refine ⟨Or.inr ⟨numbers, ?_, by simp⟩, fun phase => ?_, fun _ => Or.inr numbers, by simp⟩
      · rintro ⟨seq, rphase, _, _⟩
        rcases coupled.engaged (Or.inl rphase) with less | op
        · simp only at seq
          omega
        · exact op.2.2.1 idle
      · exact absurd idle (h.fresh phase).1.2.2.1
    · have closing := p.s.phase.opens_or_busy.resolve_left fun opens => opens.elim idle h.unacked
      have fire := Sender.fire_busy V M closing
      have numbers : startNumbers (p.fwd ++ [.stop (p.s.seq % V.modulus)]) = startNumbers p.fwd := by
        simp [startNumbers]
      have same : Pair.Opened { p with
          s := { p.s with phase := .waitReport }, fwd := p.fwd ++ [.stop (p.s.seq % V.modulus)] } ↔ p.Opened := by
        simp [Pair.Opened, numbers, idle]
      rw [fire]
      refine ⟨?_, by simpa [same] using h.fresh, fun _ => ?_, by simp⟩
      · exact h.once.imp (fun none => by rw [numbers]; exact none) fun one =>
          ⟨by rw [numbers]; exact one.1, fun op => one.2.1 (same.1 op), by simp⟩
      · exact (h.opened idle).imp same.2 fun one => by rw [numbers]; exact one
  | fireR hf =>
    obtain ⟨pending, n, rfl⟩ := p.r.fire_some M hf
    have before : Pair.Opened { p with
        r := { p.r with phase := .reportAck, armed := true, stale := n }
        bwd := p.bwd ++ [.report p.r.seq (M.report p.r.data)] } → p.Opened := by
      rintro ⟨seq, _⟩
      refine (coupled.engaged (Or.inr pending)).resolve_left fun less => ?_
      simp only at seq
      omega
    refine ⟨h.once.imp id fun one => ⟨one.1, fun op => one.2.1 (before op), one.2.2⟩, by simp, fun busy => ?_, h.unacked⟩
    exact (h.opened busy).imp (fun op => ⟨op.1, by simp, op.2.2⟩) id
  | egress pkt lost =>
    have numbers : startNumbers (if lost then p.fwd else p.fwd ++ [(p.s.emit V M pkt).2]) = startNumbers p.fwd := by
      cases lost <;> simp
    exact h.frame (by simp) (by simp) numbers (by simp [Pair.Opened, numbers]) id fun _ mem => mem
  | deliverF hf => exact h.deliverF coupled hf
  | deliverB hb => exact h.deliverB coupled hb
  | loseF i =>
    have numbers : startNumbers (p.fwd.eraseIdx i) = startNumbers p.fwd :=
      startNumbers_eraseIdx fun q req lost => good ⟨i, q, req, rfl, lost⟩
    exact h.frame rfl rfl numbers (by simp [Pair.Opened, numbers]) id fun _ mem => mem
  | loseB i => exact h.frame rfl rfl rfl Iff.rfl id fun _ mem => (List.eraseIdx_sublist p.bwd i).subset mem

/-- What keeps a session alive, for both kinds of sender. -/
structure Live (V : Variant) (p : Pair π S R Req Rep) : Prop where
  sane : Sane V p
  acked : V.acked = true → LiveAcked V p
  unacked : V.acked = false → p.s.seq < V.modulus → LiveUnacked p

/-- The steps after which a session is still alive. -/
def Label.harmless (V : Variant) (l : Label π) (p : Pair π S R Req Rep) : Prop :=
  V.acked = false → ¬l.losesStart p

theorem Live.start (pos : 0 < V.modulus) (s0 : S) (r0 : R) : Live V (Pair.start s0 r0 : Pair π S R Req Rep) :=
  ⟨.start pos s0 r0, fun _ => ⟨.start pos s0 r0, fun _ phase => by simp [Pair.start] at phase⟩,
    fun _ _ => .start s0 r0⟩

theorem Live.step (pos : 0 < V.modulus) (h : Live V p) (good : l.harmless V p)
    (hstep : Session.step V M l p = some (p', os)) : Live V p' where
  sane := h.sane.step pos hstep
  acked on := (h.acked on).step pos on hstep
  unacked off small :=
    have before : p.s.seq < V.modulus := Nat.lt_of_le_of_lt (seq_le_of_step hstep) small
    (h.unacked off before).step off (h.sane.coupled before) before (good off) hstep

theorem Live.of_run (pos : 0 < V.modulus) {s0 : S} {r0 : R}
    (run : Lts.Run (Session.step V M) (Label.harmless V) (Pair.start s0 r0) p tr) : Live V p :=
  run.invariant (I := fun p _ => Live V p) (.start pos s0 r0) fun _ _ _ _ _ h good hstep => h.step pos good hstep

/-! ## Continuations -/

/-- The steps a continuation is made of: deliveries, the sender's timer and the receiver's last timer. -/
def Label.orderly : Label π → Bool
  | .fireS | .fireR false | .deliverF | .deliverB => true
  | _ => false

theorem Label.orderly.harmless (good : l.orderly = true) (V : Variant) : l.harmless V p := by
  rintro _ ⟨i, q, req, rfl, _⟩
  cases good

/-- An orderly continuation leads from `p` to `p'`. -/
def Reach (V : Variant) (M : Meter π S R Req Rep ω) (p p' : Pair π S R Req Rep) : Prop :=
  ∃ tr, Lts.Run (Session.step V M) (fun l _ => l.orderly = true) p p' tr

theorem Reach.refl (p : Pair π S R Req Rep) : Reach V M p p := ⟨[], .nil⟩

theorem Reach.trans {p'' : Pair π S R Req Rep} : Reach V M p p' → Reach V M p' p'' → Reach V M p p'' :=
  fun ⟨_, h⟩ ⟨_, h'⟩ => ⟨_, h.trans h'⟩

theorem Reach.single (good : l.orderly = true) (hstep : Session.step V M l p = some (p', os)) : Reach V M p p' :=
  ⟨os, Lts.Run.single good hstep⟩

theorem Reach.fireS (p : Pair π S R Req Rep) :
    Reach V M p { p with s := (p.s.fire V M).1, fwd := p.fwd ++ [(p.s.fire V M).2] } :=
  .single (l := .fireS) rfl rfl

theorem Reach.deliverF {m : Fwd π Req} {ms : List (Fwd π Req)} (hf : p.fwd = m :: ms) :
    Reach V M p { p with r := (p.r.handle V M m).1, fwd := ms, bwd := p.bwd ++ (p.r.handle V M m).2 } :=
  .single (l := .deliverF) rfl (by simp only [Session.step, hf]; rfl)

theorem Reach.deliverB {m : Bwd Rep} {ms : List (Bwd Rep)} (hb : p.bwd = m :: ms) :
    Reach V M p { p with s := (p.s.handle V M m).1, bwd := ms, fwd := p.fwd ++ (p.s.handle V M m).2.1 } :=
  .single (l := .deliverB) rfl (by simp only [Session.step, hb]; rfl)

/-- The receiver's timer fires. -/
theorem Reach.fireR (on : p.r.armed = true) : ∃ n, Reach V M p { p with
    r := { p.r with phase := .reportAck, armed := true, stale := n }
    bwd := p.bwd ++ [.report p.r.seq (M.report p.r.data)] } := by
  obtain ⟨f, hf⟩ : ∃ f, p.r.fire M false = some f := by simp [Receiver.fire, on]
  obtain ⟨_, n, rfl⟩ := p.r.fire_some M hf
  exact ⟨n, .single (l := .fireR false) rfl (by simp only [Session.step, hf, Option.map_some]; rfl)⟩

theorem Live.reach (pos : 0 < V.modulus) (h : Live V p) : Reach V M p p' → Live V p' := fun ⟨_, run⟩ =>
  run.invariant (I := fun p _ => Live V p) h fun _ _ _ _ _ h good hstep =>
    h.step pos (Label.orderly.harmless good V) hstep

/-! ### Working off the wires -/

/-- How much work a message is: a START and a report are answered. -/
def Fwd.weight : Fwd π Req → Nat
  | .start _ _ => 2
  | _ => 1

def Bwd.weight : Bwd Rep → Nat
  | .report _ _ => 2
  | _ => 1

def Pair.load (p : Pair π S R Req Rep) : Nat :=
  (p.fwd.map Fwd.weight).sum + (p.bwd.map Bwd.weight).sum

theorem Receiver.handle_load (r : Receiver R) (m : Fwd π Req) :
    ((r.handle V M m).2.map Bwd.weight).sum < m.weight := by
  have reaction := r.reaction V M m
  generalize r.handle V M m = react at *
  cases reaction with
  | opens => exact Nat.lt_succ_self 1
  | stops => exact Nat.one_pos
  | acknowledged => exact Nat.one_pos
  | counts => exact Nat.one_pos
  | ignores => cases m <;> simp [Fwd.weight]

theorem Sender.handle_load (s : Sender S) (m : Bwd Rep) :
    ((s.handle V M m).2.1.map Fwd.weight).sum < m.weight := by
  have reaction := s.reaction V M m
  generalize s.handle V M m = react at *
  cases reaction with
  | begins => exact Nat.one_pos
  | recovers => exact Nat.lt_succ_self 1
  | closes => exact Nat.lt_succ_self 1
  | ignores => cases m <;> simp [Bwd.weight]

/-- The sender is still in session `k`, or has just closed it. -/
def Within (k : Nat) (s : Sender S) : Prop :=
  s.seq = k ∨ (s.seq = k + 1 ∧ s.phase = .idle)

theorem Within.handle {k : Nat} {s : Sender S} (h : Within k s) (m : Bwd Rep) : Within k (s.handle V M m).1 := by
  have reaction := s.reaction V M m
  generalize s.handle V M m = react at *
  cases reaction with
  | begins phase => exact h.imp id fun closed => by simp [phase] at closed
  | recovers => exact h
  | closes phase => exact Or.inr ⟨by rcases h with rfl | ⟨_, idle⟩ <;> simp_all, rfl⟩
  | ignores => exact h

/-- **Draining.** Deliveries alone empty both wires. -/
theorem drain {k : Nat} (within : Within k p.s) :
    ∃ p', Reach V M p p' ∧ p'.fwd = [] ∧ p'.bwd = [] ∧ Within k p'.s := by
  induction load : p.load using Nat.strongRecOn generalizing p with
  | _ n ih =>
    cases hf : p.fwd with
    | cons m ms =>
      have first : Reach V M p _ := .deliverF hf
      have less := p.r.handle_load (V := V) (M := M) m
      obtain ⟨p', next, done⟩ := ih _ (by rw [← load]; simp [Pair.load, hf]; omega)
        (p := { p with r := (p.r.handle V M m).1, fwd := ms, bwd := p.bwd ++ (p.r.handle V M m).2 }) within rfl
      exact ⟨p', first.trans next, done⟩
    | nil =>
      cases hb : p.bwd with
      | nil => exact ⟨p, .refl p, hf, hb, within⟩
      | cons m ms =>
        have first : Reach V M p _ := .deliverB hb
        have less := p.s.handle_load (V := V) (M := M) m
        obtain ⟨p', next, done⟩ := ih _ (by rw [← load]; simp [Pair.load, hf, hb]; omega)
          (p := { p with s := (p.s.handle V M m).1, bwd := ms, fwd := p.fwd ++ (p.s.handle V M m).2.1 })
          (within.handle m) rfl
        exact ⟨p', first.trans next, done⟩

/-! ### One session, by hand -/

section
variable {s : Sender S} {r : Receiver R}

/-- A sender that waits for the report of an open session gets it. -/
theorem reach_report (phase : s.phase = .waitReport) (seq : r.seq = s.seq) (on : r.armed = true) :
    ∃ p', Reach V M (⟨s, r, [], []⟩ : Pair π S R Req Rep) p' ∧ p'.s.seq = s.seq + 1 ∧ p'.s.phase = .idle := by
  obtain ⟨n, fire⟩ := Reach.fireR (V := V) (M := M) (p := ⟨s, r, [], []⟩) on
  have deliver := Reach.deliverB (V := V) (M := M)
    (p := ⟨s, { r with phase := .reportAck, armed := true, stale := n }, [], [.report r.seq (M.report r.data)]⟩) rfl
  refine ⟨_, fire.trans deliver, ?_, ?_⟩ <;> simp [Sender.handle, phase, seq]

/-- An open session is closed: STOP, report. -/
theorem reach_close (small : s.seq < V.modulus) (phase : s.phase = .counting ∨ s.phase = .waitReport)
    (seq : r.seq = s.seq) (rphase : r.phase ≠ .idle) (timed : r.Timed) :
    ∃ p', Reach V M (⟨s, r, [], []⟩ : Pair π S R Req Rep) p' ∧ p'.s.seq = s.seq + 1 ∧ p'.s.phase = .idle := by
  have fire : s.fire V M = ({ s with phase := .waitReport }, .stop s.seq) := by
    rw [Sender.fire_busy V M phase, Nat.mod_eq_of_lt small]
  have stop : Reach V M (⟨s, r, [], []⟩ : Pair π S R Req Rep)
      ⟨{ s with phase := .waitReport }, r, [.stop s.seq], []⟩ := by
    simpa [fire] using Reach.fireS (V := V) (M := M) (⟨s, r, [], []⟩ : Pair π S R Req Rep)
  have deliver := Reach.deliverF (V := V) (M := M)
    (p := ⟨{ s with phase := .waitReport }, r, [.stop s.seq], []⟩) rfl
  by_cases counting : r.phase = .counting
  · have handle : r.handle V M (.stop s.seq) = ({ r.arm with phase := .waitSend }, []) := by
      simp [Receiver.handle, counting, seq]
    simp only [handle, List.append_nil] at deliver
    obtain ⟨p', report, done⟩ := reach_report (V := V) (M := M)
      (s := { s with phase := .waitReport }) (r := { r.arm with phase := .waitSend }) rfl seq rfl
    exact ⟨p', (stop.trans deliver).trans report, done⟩
  · have handle : r.handle V M (.stop s.seq) = (r, []) := by simp [Receiver.handle, counting]
    simp only [handle, List.append_nil] at deliver
    have on : r.armed = true := timed (by cases phase : r.phase <;> simp_all)
    obtain ⟨p', report, done⟩ := reach_report (V := V) (M := M) (s := { s with phase := .waitReport }) rfl seq on
    exact ⟨p', (stop.trans deliver).trans report, done⟩

/-- A session is opened: START, acknowledgement. -/
theorem reach_open (small : s.seq < V.modulus) (phase : s.phase = .idle ∨ s.phase = .startAck)
    (rphase : r.phase ≠ .waitSend) :
    ∃ s' r', Reach V M (⟨s, r, [], []⟩ : Pair π S R Req Rep) ⟨s', r', [], []⟩ ∧ s'.phase = .counting ∧
      s'.seq = s.seq ∧ r'.phase = .counting ∧ r'.seq = s.seq := by
  obtain ⟨req, fire⟩ : ∃ req, (s.fire V M).2 = .start s.seq req := by
    rcases phase with phase | phase <;> cases acked : V.acked <;>
      simp [Sender.fire, phase, acked, Nat.mod_eq_of_lt small]
  have start : Reach V M (⟨s, r, [], []⟩ : Pair π S R Req Rep) ⟨(s.fire V M).1, r, [.start s.seq req], []⟩ := by
    simpa [fire] using Reach.fireS (V := V) (M := M) (⟨s, r, [], []⟩ : Pair π S R Req Rep)
  have handle : r.handle V M (.start s.seq req) = (r.open M s.seq req, [.startAck s.seq]) := by
    simp [Receiver.handle, rphase]
  have opens := Reach.deliverF (V := V) (M := M) (p := ⟨(s.fire V M).1, r, [.start s.seq req], []⟩) rfl
  simp only [handle, List.nil_append] at opens
  have answer := Reach.deliverB (V := V) (M := M)
    (p := ⟨(s.fire V M).1, r.open M s.seq req, [], [.startAck s.seq]⟩) rfl
  have quiet : ((s.fire V M).1.handle V M (.startAck s.seq)).2.1 = [] := by
    simp only [Sender.handle]; split <;> rfl
  simp only [quiet, List.append_nil] at answer
  refine ⟨_, _, (start.trans opens).trans answer, ?_, ?_, rfl, rfl⟩ <;>
    rcases phase with phase | phase <;> cases acked : V.acked <;> simp [Sender.fire, Sender.handle, phase, acked]

/-- A receiver in the wait before its report comes out of it while the sender has no session open. -/
theorem reach_ready (phase : s.phase = .idle ∨ s.phase = .startAck) (timed : r.Timed) :
    ∃ r', Reach V M (⟨s, r, [], []⟩ : Pair π S R Req Rep) ⟨s, r', [], []⟩ ∧ r'.phase ≠ .waitSend := by
  by_cases wait : r.phase = .waitSend
  · obtain ⟨n, fire⟩ := Reach.fireR (V := V) (M := M) (p := ⟨s, r, [], []⟩) (timed (Or.inl wait))
    have answer := Reach.deliverB (V := V) (M := M)
      (p := ⟨s, { r with phase := .reportAck, armed := true, stale := n }, [], [.report r.seq (M.report r.data)]⟩) rfl
    have handle : s.handle V M (.report r.seq (M.report r.data)) = (s, [.ack r.seq], []) ∨
        s.handle V M (.report r.seq (M.report r.data)) = (s, [], []) := by
      rcases phase with phase | phase
      · by_cases hit : V.recovers = true ∧ r.seq ≤ s.seq <;> simp [Sender.handle, phase, hit]
      · simp [Sender.handle, phase]
    rcases handle with handle | handle <;> simp only [handle, List.nil_append] at answer
    · have ack := Reach.deliverF (V := V) (M := M)
        (p := ⟨s, { r with phase := .reportAck, armed := true, stale := n }, [.ack r.seq], []⟩) rfl
      have taken : ({ r with phase := .reportAck, armed := true, stale := n } : Receiver R).handle V M (.ack r.seq) =
          ({ r with phase := .idle, armed := false, stale := n }, []) := by simp [Receiver.handle]
      simp only [taken, List.append_nil] at ack
      exact ⟨_, (fire.trans answer).trans ack, by simp⟩
    · exact ⟨_, fire.trans answer, by simp⟩
  · exact ⟨r, .refl _, wait⟩

end

/-- **Progress.** From a live state the sender can close its session and start the next one without any
further loss. -/
theorem Live.progress (pos : 0 < V.modulus) (h : Live V p) (small : p.s.seq < V.modulus) :
    ∃ p', Reach V M p p' ∧ p'.s.seq = p.s.seq + 1 ∧ p'.s.phase ≠ .idle := by
  suffices closed : ∃ p', Reach V M p p' ∧ p'.s.seq = p.s.seq + 1 by
    obtain ⟨p', run, seq⟩ := closed
    exact ⟨_, run.trans (.fireS p'), by simp [seq], Sender.fire_not_idle p'.s⟩
  obtain ⟨p1, drained, hf, hb, within⟩ := drain (V := V) (M := M) (p := p) (k := p.s.seq) (Or.inl rfl)
  rcases within with seq | ⟨seq, _⟩
  swap
  · exact ⟨p1, drained, seq⟩
  have h1 : Live V p1 := h.reach pos drained
  rw [← seq] at small ⊢
  have opened : p1.s.phase = .counting ∨ p1.s.phase = .waitReport → p1.Opened := fun phase => by
    cases acked : V.acked with
    | true => exact (h1.acked acked).opened small phase
    | false =>
      refine ((h1.unacked acked small).opened (by rcases phase with h | h <;> simp [h])).resolve_right fun one => ?_
      rw [hf] at one
      cases one
  have timed := h1.sane.timed
  obtain ⟨s, r, fwd, bwd⟩ := p1
  simp only at hf hb
  subst hf hb
  by_cases opening : s.phase = .idle ∨ s.phase = .startAck
  · obtain ⟨r', ready, rphase⟩ := reach_ready (V := V) (M := M) (r := r) opening timed
    obtain ⟨s'', r'', opens, sphase, sseq, rphase'', rseq⟩ := reach_open (V := V) (M := M) small opening rphase
    obtain ⟨p4, close, done, _⟩ := reach_close (V := V) (M := M) (s := s'') (r := r'') (by rw [sseq]; exact small)
      (Or.inl sphase) (by rw [rseq, sseq]) (by simp [rphase'']) (by simp [Receiver.Timed, rphase''])
    exact ⟨p4, ((drained.trans ready).trans opens).trans close, by rw [done, sseq]⟩
  · have busy := s.phase.opens_or_busy.resolve_left opening
    obtain ⟨rseq, rphase, _⟩ := opened busy
    obtain ⟨p2, close, done, _⟩ := reach_close (V := V) (M := M) small busy rseq rphase timed
    exact ⟨p2, drained.trans close, done⟩

/-! ## A lost START -/

/-- A session whose one START is gone: the sender counts or waits, and the receiver knows nothing of it. -/
structure Pair.Dead (p : Pair π S R Req Rep) : Prop where
  busy : p.s.phase = .counting ∨ p.s.phase = .waitReport
  idle : p.r.phase = .idle
  unarmed : p.r.armed = false ∧ p.r.stale = 0
  starts : startNumbers p.fwd = []
  silent : p.bwd = []

/-- No step brings a dead session back. -/
theorem Pair.Dead.step (h : p.Dead) (hstep : Session.step V M l p = some (p', os)) : p'.Dead ∧ p'.s.seq = p.s.seq := by
  obtain ⟨busy, idle, ⟨unarmed, fresh⟩, starts, silent⟩ := h
  cases moves_of_step V M hstep with
  | fireS =>
    rw [Sender.fire_busy V M busy]
    exact ⟨⟨Or.inr rfl, idle, ⟨unarmed, fresh⟩, by simpa using ⟨starts, rfl⟩, silent⟩, rfl⟩
  | fireR hf =>
    obtain ⟨pending, -⟩ := p.r.fire_some M hf
    simp [unarmed, fresh] at pending
  | egress pkt lost =>
    refine ⟨⟨by simpa using busy, idle, ⟨unarmed, fresh⟩, ?_, silent⟩, by simp⟩
    cases lost <;> simp [starts]
  | @deliverF m ms hf =>
    have rest : startNumbers ms = [] :=
      List.sublist_nil.1 (starts ▸ hf ▸ ((List.sublist_cons_self m ms).filterMap _))
    have ignored : p.r.handle V M m = (p.r, []) := by
      cases m with
      | start q req =>
        rw [hf] at starts
        cases starts
      | stop q => simp [Receiver.handle, idle]
      | ack q => simp [Receiver.handle, idle]
      | data tag pkt => simp [Receiver.handle, idle]
    rw [ignored]
    exact ⟨⟨busy, idle, ⟨unarmed, fresh⟩, rest, by simpa using silent⟩, rfl⟩
  | deliverB hb =>
    rw [silent] at hb
    cases hb
  | loseF i =>
    refine ⟨⟨busy, idle, ⟨unarmed, fresh⟩, ?_, silent⟩, rfl⟩
    exact List.sublist_nil.1 (starts ▸ ((List.eraseIdx_sublist p.fwd i).filterMap _))
  | loseB i => exact ⟨⟨busy, idle, ⟨unarmed, fresh⟩, starts, by simp [silent]⟩, rfl⟩

theorem Pair.Dead.of_run {ok : Label π → Pair π S R Req Rep → Prop} (h : p.Dead)
    (run : Lts.Run (Session.step V M) ok p p' tr) : p'.s.seq = p.s.seq := by
  suffices both : p'.Dead ∧ p'.s.seq = p.s.seq from both.2
  refine run.invariant (I := fun q _ => q.Dead ∧ q.s.seq = p.s.seq) ⟨h, rfl⟩ ?_
  rintro t u _ os l ⟨dead, seq⟩ _ hstep
  exact ⟨(dead.step hstep).1, (dead.step hstep).2.trans seq⟩

/-! ## Sessions left behind -/

/-- A session number that was left behind was left by consuming a report. -/
theorem consumed_of_run {ok : Label π → Pair π S R Req Rep → Prop}
    (run : Lts.Run (Session.step V M) ok p p' tr) {j : Nat} (since : p.s.seq ≤ j) (left : j < p'.s.seq) :
    ∃ rep ws, .consumed j rep ws ∈ tr := by
  revert left
  refine run.invariant (I := fun t tr => j < t.s.seq → ∃ rep ws, .consumed j rep ws ∈ tr) (by omega) ?_
  intro t u tr os l before _ hstep left
  by_cases already : j < t.s.seq
  · obtain ⟨rep, ws, mem⟩ := before already
    exact ⟨rep, ws, List.mem_append_left _ mem⟩
  cases moves_of_step V M hstep with
  | fireS => exact absurd (by simpa using left) already
  | egress => exact absurd (by simpa using left) already
  | @deliverB m ms hb =>
    have reaction := t.s.reaction V M m
    generalize t.s.handle V M m = react at *
    cases reaction with
    | @closes rep _ =>
      have same : j = t.s.seq := by simp only at left; omega
      exact ⟨rep, _, List.mem_append_right _ (by rw [same]; exact List.mem_singleton.2 rfl)⟩
    | begins => exact absurd left already
    | recovers => exact absurd left already
    | ignores => exact absurd left already
  | fireR => exact absurd left already
  | deliverF => exact absurd left already
  | loseF => exact absurd left already
  | loseB => exact absurd left already

end Ns3Fancy.Session
