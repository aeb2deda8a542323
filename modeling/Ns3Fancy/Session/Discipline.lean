import Ns3Fancy.Session.Lossy

/-!
# Report timers and histories under control loss

Two disciplines that hold as long as the run stays away from one situation each.

* `Prompt`: as long as no START reaches a receiver that waits for the acknowledgement of its
  report, the receiver has at most one timer pending, only between a STOP and the next
  session, and every report follows a STOP of its session.
* `InSync`: as long as no timer fires in a counting receiver, the meters of the two ends agree
  whenever the receiver has opened the sender's session. What "agree" means is a parameter.
-/

namespace Ns3Fancy.Session
set_option autoImplicit false

variable {π S R Req Rep ω : Type} {V : Variant} {M : Meter π S R Req Rep ω}
variable {p p' : Pair π S R Req Rep} {tr os : List (Obs π Rep ω)} {l : Label π}

/-! ## Report timers -/

/-- A START is about to reach a receiver that still waits for an acknowledgement. -/
def Pair.Reopens (p : Pair π S R Req Rep) : Prop :=
  p.r.phase = .reportAck ∧ ∃ q req ms, p.fwd = .start q req :: ms

/-- Every report in the trace comes after a STOP of its session. -/
def Announced (tr : List (Obs π Rep ω)) : Prop :=
  ∀ a q b, tr = a ++ .reported q :: b → .gotStop q ∈ a

/-- The receiver's timer discipline, with the STOPs seen so far. -/
structure Prompt (p : Pair π S R Req Rep) (tr : List (Obs π Rep ω)) : Prop where
  alone : p.r.stale = 0
  pending : p.r.armed = true ↔ p.r.phase = .waitSend ∨ p.r.phase = .reportAck
  stopped : p.r.phase = .waitSend ∨ p.r.phase = .reportAck → .gotStop p.r.seq ∈ tr
  reports : ∀ q rep, .report q rep ∈ p.bwd → .gotStop q ∈ tr
  closed : ∀ q, q < p.s.seq → .gotStop q ∈ tr
  announced : Announced tr

theorem Announced.append {tr os : List (Obs π Rep ω)} (h : Announced tr) (quiet : ∀ q, .reported q ∉ os) :
    Announced (tr ++ os) := by
  intro a q b split
  rcases List.append_eq_append_iff.1 split with ⟨c, rfl, hc⟩ | ⟨c, rfl, hc⟩
  · exact absurd (by simp [hc]) (quiet q)
  · cases c with
    | nil => exact absurd (by rw [← List.nil_append os, ← hc]; simp) (quiet q)
    | cons o c =>
      simp only [List.cons_append, List.cons.injEq] at hc
      exact h a q c (by rw [← hc.1])

theorem Announced.snoc {tr : List (Obs π Rep ω)} (h : Announced tr) {q : Nat} (stop : .gotStop q ∈ tr) :
    Announced (tr ++ [.reported q]) := by
  intro a q' b split
  rcases List.eq_nil_or_concat b with rfl | ⟨b', last, rfl⟩
  · obtain ⟨rfl, same⟩ := List.append_inj' split rfl
    simp only [List.cons.injEq, Obs.reported.injEq, and_true] at same
    exact same ▸ stop
  · have ends : tr = a ++ .reported q' :: b' ∧ [Obs.reported q] = [last] :=
      List.append_inj' (by simpa using split) rfl
    exact h a q' b' ends.1

/-- Observations that report nothing keep the discipline of an unchanged receiver. -/
theorem Prompt.frame (h : Prompt p tr) {fwd : List (Fwd π Req)} {bwd : List (Bwd Rep)} {s : Sender S}
    (quiet : ∀ q, .reported q ∉ os) (hb : ∀ q rep, .report q rep ∈ bwd → .report q rep ∈ p.bwd)
    (hs : ∀ q, q < s.seq → .gotStop q ∈ tr ++ os) : Prompt { p with s := s, fwd := fwd, bwd := bwd } (tr ++ os) where
  alone := h.alone
  pending := h.pending
  stopped phase := List.mem_append_left _ (h.stopped phase)
  reports q rep mem := List.mem_append_left _ (h.reports q rep (hb q rep mem))
  closed := hs
  announced := h.announced.append quiet

theorem Prompt.deliverF (h : Prompt p tr) {m : Fwd π Req} {ms : List (Fwd π Req)} (hf : p.fwd = m :: ms)
    (good : ¬p.Reopens) :
    Prompt { p with r := (p.r.handle V M m).1, fwd := ms, bwd := p.bwd ++ (p.r.handle V M m).2 } (tr ++ m.seen) := by
  have quiet : ∀ q, (.reported q : Obs π Rep ω) ∉ m.seen := fun q => by cases m <;> simp [Fwd.seen]
  have closed : ∀ q, q < p.s.seq → .gotStop q ∈ tr ++ m.seen := fun q less => List.mem_append_left _ (h.closed q less)
  have unarmed : p.r.phase ≠ .waitSend → p.r.phase ≠ .reportAck → p.r.armed = false := by
    intro notWait notAck
    cases on : p.r.armed with
    | false => rfl
    | true => exact absurd (h.pending.1 on) (by simp [notWait, notAck])
  have reaction := p.r.reaction V M m
  generalize p.r.handle V M m = react at *
  cases reaction with
  | @opens q req notWait =>
    have off := unarmed notWait fun phase => good ⟨phase, q, req, ms, hf⟩
    refine ⟨h.alone, by simp [Receiver.open, off], by simp [Receiver.open], ?_, closed, h.announced.append quiet⟩
    intro q' rep mem
    exact List.mem_append_left _ (h.reports q' rep (by simpa using mem))
  | stops phase =>
    have off := unarmed (by simp [phase]) (by simp [phase])
    refine ⟨by simp [Receiver.arm, h.alone, off], by simp [Receiver.arm], ?_, ?_, closed, h.announced.append quiet⟩
    · exact fun _ => List.mem_append_right _ (by simp [Fwd.seen, Receiver.arm])
    · intro q' rep mem
      exact List.mem_append_left _ (h.reports q' rep (by simpa using mem))
  | acknowledged =>
    refine ⟨h.alone, by simp, by simp, ?_, closed, h.announced.append quiet⟩
    intro q' rep mem
    exact List.mem_append_left _ (h.reports q' rep (by simpa using mem))
  | counts =>
    exact ⟨h.alone, h.pending, fun phase => List.mem_append_left _ (h.stopped phase),
      fun q' rep mem => List.mem_append_left _ (h.reports q' rep (by simpa using mem)), closed, h.announced.append quiet⟩
  | ignores => exact h.frame quiet (fun q' rep mem => by simpa using mem) closed

theorem Prompt.deliverB (h : Prompt p tr) {m : Bwd Rep} {ms : List (Bwd Rep)} (hb : p.bwd = m :: ms) :
    Prompt { p with s := (p.s.handle V M m).1, bwd := ms, fwd := p.fwd ++ (p.s.handle V M m).2.1 }
      (tr ++ (p.s.handle V M m).2.2) := by
  have sub : ∀ q rep, .report q rep ∈ ms → .report q rep ∈ p.bwd := fun q rep mem => by simp [hb, mem]
  have reaction := p.s.reaction V M m
  generalize p.s.handle V M m = react at *
  cases reaction with
  | begins => exact h.frame (by simp) sub (by simpa using h.closed)
  | recovers => exact h.frame (by simp) sub (by simpa using h.closed)
  | ignores => exact h.frame (by simp) sub (by simpa using h.closed)
  | @closes rep phase =>
    refine h.frame (by simp) sub fun q less => List.mem_append_left _ ?_
    rcases Nat.lt_succ_iff_lt_or_eq.1 less with older | rfl
    · exact h.closed q older
    · exact h.reports _ rep (by simp [hb])

theorem Prompt.step (h : Prompt p tr) (good : l = .deliverF → ¬p.Reopens)
    (hstep : Session.step V M l p = some (p', os)) : Prompt p' (tr ++ os) := by
  cases moves_of_step V M hstep with
  | fireS => exact h.frame (by simp) (fun _ _ mem => mem) (by simpa using h.closed)
  | @fireR late f hf =>
    obtain ⟨pending, n, eq⟩ := p.r.fire_some M hf
    have on : p.r.armed = true := pending.resolve_right (by simp [h.alone])
    have stop := h.stopped (h.pending.1 on)
    have single : f.1.stale = 0 := by
      cases late with
      | true => simp [Receiver.fire, h.alone] at hf
      | false =>
        simp only [Receiver.fire, on, Bool.false_eq_true, if_false, if_true, Option.some.injEq] at hf
        simp [← hf, Receiver.arm, h.alone]
    subst eq
    refine ⟨single, by simp, fun _ => List.mem_append_left _ stop, ?_, ?_, h.announced.snoc stop⟩
    · intro q rep mem
      refine List.mem_append_left _ ?_
      rcases List.mem_append.1 mem with old | new
      · exact h.reports q rep old
      · simp only [List.mem_singleton, Bwd.report.injEq] at new
        rw [new.1]; exact stop
    · exact fun q less => List.mem_append_left _ (h.closed q less)
  | egress pkt lost =>
    refine h.frame (fun q => by split <;> simp) (fun _ _ mem => mem) fun q less => ?_
    exact List.mem_append_left _ (h.closed q (by simpa using less))
  | deliverF hf => exact h.deliverF hf (good rfl)
  | deliverB hb => exact h.deliverB hb
  | loseF i => exact h.frame (by simp) (fun _ _ mem => mem) (by simpa using h.closed)
  | loseB i =>
    exact h.frame (by simp) (fun _ _ mem => (List.eraseIdx_sublist p.bwd i).subset mem) (by simpa using h.closed)

theorem Prompt.of_run {s0 : S} {r0 : R}
    (run : Lts.Run (Session.step V M) (fun l p => l = .deliverF → ¬p.Reopens) (Pair.start s0 r0) p tr) : Prompt p tr :=
  run.invariant
    ⟨rfl, by simp [Pair.start], by simp [Pair.start], by simp [Pair.start], by simp [Pair.start], by simp [Announced]⟩
    fun _ _ _ _ _ h good hstep => h.step good hstep

/-- **Leaving a session.** A prompt receiver stops counting for a session only when a STOP of that
session has been delivered. -/
theorem Prompt.leaves (sane : Sane V p) (h : Prompt p tr) (good : l = .deliverF → ¬p.Reopens)
    (hstep : Session.step V M l p = some (p', os)) (counting : p.r.phase = .counting)
    (left : ¬(p'.r.phase = .counting ∧ p'.r.seq = p.r.seq)) : .gotStop p.r.seq ∈ tr ++ os := by
  by_cases older : p.r.seq < p.s.seq
  · exact List.mem_append_left _ (h.closed _ older)
  -- the receiver counts for the sender's own session, so every START on its way is of that session
  have bounds := sane.bounded
  have small : p.s.seq < V.modulus := by have := bounds.receiver; omega
  obtain opened : p.Opened := ((sane.coupled small).engaged (Or.inl (by simp [counting]))).resolve_left older
  cases moves_of_step V M hstep with
  | fireR hf =>
    have on := (p.r.fire_some M hf).1.resolve_right (by simp [h.alone])
    exact absurd (h.pending.1 on) (by simp [counting])
  | @deliverF m ms hf =>
    have reaction := p.r.reaction V M m
    generalize p.r.handle V M m = react at *
    cases reaction with
    | @opens q req notWait =>
      have same : q = p.s.seq := opened.2.2.2 q (mem_startNumbers.2 ⟨req, by simp [hf]⟩)
      exact absurd ⟨rfl, by rw [opened.1]; exact same⟩ left
    | stops => exact List.mem_append_right _ (by simp [Fwd.seen])
    | acknowledged phase => simp [counting] at phase
    | counts phase => exact absurd ⟨phase, rfl⟩ left
    | ignores => exact absurd ⟨counting, rfl⟩ left
  | fireS => exact absurd ⟨counting, rfl⟩ left
  | egress => exact absurd ⟨counting, rfl⟩ left
  | deliverB => exact absurd ⟨counting, rfl⟩ left
  | loseF => exact absurd ⟨counting, rfl⟩ left
  | loseB => exact absurd ⟨counting, rfl⟩ left

/-- The same over a run: `tr` is what led to `p`, `os` what the run from there shows. -/
theorem Prompt.leaves_run (pos : 0 < V.modulus) {s0 : S} {r0 : R} {p p' : Pair π S R Req Rep}
    (before : Lts.Run (Session.step V M) (fun l p => l = .deliverF → ¬p.Reopens) (Pair.start s0 r0) p tr)
    (run : Lts.Run (Session.step V M) (fun l p => l = .deliverF → ¬p.Reopens) p p' os)
    (counting : p.r.phase = .counting) (left : ¬(p'.r.phase = .counting ∧ p'.r.seq = p.r.seq)) :
    .gotStop p.r.seq ∈ tr ++ os := by
  refine Or.resolve_left (?_ : (p'.r.phase = .counting ∧ p'.r.seq = p.r.seq) ∨ .gotStop p.r.seq ∈ tr ++ os) left
  clear left
  induction run with
  | nil => exact Or.inl ⟨counting, rfl⟩
  | @snoc t u tr' os' l run good hstep ih =>
    rw [← List.append_assoc]
    rcases ih with ⟨phase, seq⟩ | stop
    · have whole := before.trans run
      by_cases left : u.r.phase = .counting ∧ u.r.seq = t.r.seq
      · exact Or.inl ⟨left.1, by rw [left.2, seq]⟩
      · rw [← seq]
        exact Or.inr ((Prompt.of_run whole).leaves (.of_run pos whole) good hstep phase left)
    · exact Or.inr (List.mem_append_left _ stop)

/-! ## Histories -/

/-- What two relations between the meters must satisfy to be carried along by the handshake: `Agree` while
the receiver is in the sender's session, `Behind` while it has yet to open it. -/
structure Meter.Synced (M : Meter π S R Req Rep ω) (Agree Behind : S → R → Prop) : Prop where
  request_opened : ∀ s, M.request (M.opened s) = M.request s
  request_count : ∀ k s pkt, M.request (M.countS k s pkt) = M.request s
  opened_agree : ∀ s r, Agree s r → Agree (M.opened s) r
  opened_behind : ∀ s r, Behind s r → Behind (M.opened s) r
  count_agree : ∀ k s r pkt, Agree s r → Agree (M.countS k s pkt) r
  count_behind : ∀ k s r pkt, Behind s r → Behind (M.countS k s pkt) r
  countR_agree : ∀ q s r pkt, Agree s r → Agree s (M.countR q r pkt)
  init_first : ∀ q s r, Behind s r → Agree s (M.init q true (M.request s) r)
  init_again : ∀ q req s r, Agree s r → Agree s (M.init q false req r)
  close : ∀ q s r r', Agree s r → Behind (M.close q s (M.report r')).1 r

/-- Behind a STOP of session `k` there is no START. -/
def NoStartAfter (k : Nat) (m m' : Fwd π Req) : Prop :=
  m = .stop k → ∀ q req, m' ≠ .start q req

/-- What a run in which no timer fires in a counting receiver keeps. `k` is the sender's session. -/
structure InSync (M : Meter π S R Req Rep ω) (Agree Behind : S → R → Prop) (p : Pair π S R Req Rep) : Prop where
  starts : ∀ q req, .start q req ∈ p.fwd → q = p.s.seq ∧ req = M.request p.s.data
  stops : ∀ q, .stop q ∈ p.fwd → q < p.s.seq ∨ (q = p.s.seq ∧ p.s.phase = .waitReport)
  order : p.fwd.Pairwise (NoStartAfter p.s.seq)
  reports : ∀ q rep, .report q rep ∈ p.bwd → (∃ r, rep = M.report r) ∧ (q = p.s.seq → p.r.phase ≠ .counting)
  opened : p.Opened → Agree p.s.data p.r.data ∧
    (p.r.phase ≠ .counting → p.s.phase = .waitReport ∧ startNumbers p.fwd = [])
  unopened : ¬p.Opened → Behind p.s.data p.r.data ∧ p.r.phase ≠ .counting

section
variable {Agree Behind : S → R → Prop}

theorem InSync.of_sublist (h : InSync M Agree Behind p) (coupled : Coupled p) {fwd : List (Fwd π Req)}
    {bwd : List (Bwd Rep)} (hf : fwd.Sublist p.fwd) (hb : bwd.Sublist p.bwd) :
    InSync M Agree Behind { p with fwd := fwd, bwd := bwd } := by
  have numbers : (startNumbers fwd).Sublist (startNumbers p.fwd) := hf.filterMap _
  -- the receiver is counting, or has a timer, or neither end has started: dropping STARTs opens nothing
  have same : Pair.Opened { p with fwd := fwd, bwd := bwd } → p.Opened := fun ⟨seq, rphase, _, _⟩ => by
    rcases coupled.engaged (Or.inl rphase) with less | opened
    · exact absurd (show p.r.seq = p.s.seq from seq) (by omega)
    · exact opened
  refine ⟨fun q req mem => h.starts q req (hf.subset mem), fun q mem => h.stops q (hf.subset mem),
    h.order.sublist hf, fun q rep mem => h.reports q rep (hb.subset mem), fun op => ?_, fun unop => ?_⟩
  · refine ⟨(h.opened (same op)).1, fun phase => ?_⟩
    obtain ⟨sphase, none⟩ := (h.opened (same op)).2 phase
    exact ⟨sphase, List.sublist_nil.1 (none ▸ numbers)⟩
  · exact h.unopened fun ⟨seq, rphase, sphase, all⟩ =>
      unop ⟨seq, rphase, sphase, fun q mem => all q (numbers.subset mem)⟩

theorem InSync.deliverF (laws : M.Synced Agree Behind) (h : InSync M Agree Behind p) (coupled : Coupled p)
    {m : Fwd π Req} {ms : List (Fwd π Req)} (hf : p.fwd = m :: ms) :
    InSync M Agree Behind { p with
      r := (p.r.handle V M m).1, fwd := ms, bwd := p.bwd ++ (p.r.handle V M m).2 } := by
  have rest : InSync M Agree Behind { p with fwd := ms } :=
    h.of_sublist coupled (by rw [hf]; exact List.sublist_cons_self m ms) (List.Sublist.refl _)
  have reaction := p.r.reaction V M m
  generalize p.r.handle V M m = react at *
  cases reaction with
  | @opens q req notWait =>
    obtain ⟨rfl, rfl⟩ := h.starts q req (by simp [hf])
    have numbers : ∀ q ∈ startNumbers ms, q = p.s.seq := fun q mem => by
      obtain ⟨req, mem⟩ := mem_startNumbers.1 mem
      exact (rest.starts q req mem).1
    have busy : p.s.phase ≠ .idle := by
      have first := coupled.starts p.s.seq (mem_startNumbers.2 ⟨M.request p.s.data, by simp [hf]⟩)
      rcases first with less | ⟨_, busy⟩
      · omega
      · exact busy
    have agree : Agree p.s.data (p.r.open M p.s.seq (M.request p.s.data)).data := by
      by_cases counting : p.r.phase = .counting
      · have opened : p.Opened := by
          by_contra unop
          exact (h.unopened unop).2 counting
        simpa [Receiver.open, counting] using laws.init_again _ _ _ _ (h.opened opened).1
      · have unop : ¬p.Opened := fun op => by
          have none := ((h.opened op).2 counting).2
          rw [hf] at none
          cases none
        simpa [Receiver.open, counting] using laws.init_first p.s.seq _ _ (h.unopened unop).1
    have fresh : ∀ q rep, .report q rep ∈ p.bwd → q ≠ p.s.seq := by
      rintro q rep mem rfl
      -- a report of this session means that the receiver has left COUNTING, and no START is on its way
      have notCounting := (h.reports _ rep mem).2 rfl
      have op := (coupled.reports _ rep mem).resolve_left (by omega)
      have none := ((h.opened op.2).2 notCounting).2
      rw [hf] at none
      cases none
    refine ⟨rest.starts, rest.stops, rest.order, ?_, fun _ => ⟨agree, by simp [Receiver.open]⟩, fun unop => ?_⟩
    · intro q rep mem
      have old : .report q rep ∈ p.bwd := by simpa using mem
      exact ⟨(h.reports q rep old).1, fun same => absurd same (fresh q rep old)⟩
    · exact absurd ⟨rfl, by simp [Receiver.open], busy, numbers⟩ unop
  | stops phase =>
    have opened : p.Opened := by
      by_contra unop
      exact (h.unopened unop).2 phase
    have sphase : p.s.phase = .waitReport := by
      rcases h.stops p.r.seq (by simp [hf]) with less | ⟨_, sphase⟩
      · exact absurd opened.1 (by omega)
      · exact sphase
    have none : startNumbers ms = [] := by
      have order := h.order
      rw [hf, List.pairwise_cons] at order
      refine List.eq_nil_iff_forall_not_mem.2 fun q mem => ?_
      obtain ⟨req, mem⟩ := mem_startNumbers.1 mem
      exact order.1 _ mem (by rw [opened.1]) q req rfl
    refine ⟨rest.starts, rest.stops, rest.order, ?_, fun _ => ⟨(h.opened opened).1, fun _ => ⟨sphase, none⟩⟩, fun unop => ?_⟩
    · intro q rep mem
      exact ⟨(h.reports q rep (by simpa using mem)).1, fun _ => by simp⟩
    · exact absurd ⟨opened.1, by simp, opened.2.2.1, by simp [none]⟩ unop
  | acknowledged phase =>
    have less := coupled.acks p.r.seq (by simp [hf])
    have unop : ¬p.Opened := fun op => by have := op.1; omega
    refine ⟨rest.starts, rest.stops, rest.order, ?_, fun op => ?_, fun _ => ⟨(h.unopened unop).1, by simp⟩⟩
    · intro q rep mem
      exact ⟨(h.reports q rep (by simpa using mem)).1, fun _ => by simp⟩
    · exact absurd op.1 (by simp only; omega)
  | @counts _ pkt phase =>
    have opened : p.Opened := by
      by_contra unop
      exact (h.unopened unop).2 phase
    refine ⟨rest.starts, rest.stops, rest.order, ?_, fun _ => ?_, fun unop => ?_⟩
    · intro q rep mem
      exact h.reports q rep (by simpa using mem)
    · exact ⟨laws.countR_agree _ _ _ _ (h.opened opened).1, fun away => absurd phase away⟩
    · refine absurd ⟨opened.1, opened.2.1, opened.2.2.1, fun q mem => opened.2.2.2 q ?_⟩ unop
      rw [hf]
      exact ((List.sublist_cons_self _ ms).filterMap _).subset mem
  | ignores => simpa using rest

theorem InSync.fireR (h : InSync M Agree Behind p) (coupled : Coupled p) {late : Bool} {f : Receiver R × Bwd Rep}
    (hf : p.r.fire M late = some f) (away : p.r.phase ≠ .counting) :
    InSync M Agree Behind { p with r := f.1, bwd := p.bwd ++ [f.2] } := by
  obtain ⟨pending, n, rfl⟩ := p.r.fire_some M hf
  refine ⟨h.starts, h.stops, h.order, ?_, fun op => ?_, fun unop => ?_⟩
  · intro q rep mem
    refine ⟨?_, fun _ => by simp⟩
    rcases List.mem_append.1 mem with old | new
    · exact (h.reports q rep old).1
    · simp only [List.mem_singleton, Bwd.report.injEq] at new
      exact ⟨_, new.2⟩
  · have before : p.Opened := (coupled.engaged (Or.inr pending)).resolve_left fun less => by
      have same : p.r.seq = p.s.seq := op.1
      omega
    exact ⟨(h.opened before).1, fun _ => (h.opened before).2 away⟩
  · refine ⟨(h.unopened fun op => unop ⟨op.1, by simp, op.2.2⟩).1, by simp⟩

/-- A STOP is sent, for the first time or again. -/
theorem InSync.fireStop (h : InSync M Agree Behind p) (phase : p.s.phase = .counting ∨ p.s.phase = .waitReport) :
    InSync M Agree Behind { p with s := { p.s with phase := .waitReport }, fwd := p.fwd ++ [.stop p.s.seq] } := by
  have numbers : startNumbers (p.fwd ++ [.stop p.s.seq]) = startNumbers p.fwd := by simp [startNumbers]
  have same : Pair.Opened { p with
      s := { p.s with phase := .waitReport }, fwd := p.fwd ++ [.stop p.s.seq] } ↔ p.Opened := by
    rcases phase with phase | phase <;> simp [Pair.Opened, numbers, phase]
  refine ⟨by simpa using h.starts, ?_, ?_, h.reports, ?_, fun unop => h.unopened fun op => unop (same.2 op)⟩
  · intro q mem
    rcases List.mem_append.1 mem with old | new
    · exact (h.stops q old).imp id fun eq => ⟨eq.1, rfl⟩
    · simp only [List.mem_singleton, Fwd.stop.injEq] at new
      exact Or.inr ⟨new, rfl⟩
  · exact List.pairwise_append.2 ⟨h.order, List.pairwise_singleton _ _, fun _ _ _ mem _ q req => by
      rw [List.mem_singleton.1 mem]; simp⟩
  · intro op
    refine ⟨(h.opened (same.1 op)).1, fun away => ⟨rfl, ?_⟩⟩
    simpa [numbers] using ((h.opened (same.1 op)).2 away).2

/-- A START is sent, for the first time or again. -/
theorem InSync.fireStart (h : InSync M Agree Behind p) (coupled : Coupled p)
    (phase : p.s.phase = .idle ∨ p.s.phase = .startAck) {s : Sender S} (seq : s.seq = p.s.seq) (busy : s.phase ≠ .idle)
    (request : M.request s.data = M.request p.s.data)
    (agree : Agree p.s.data p.r.data → Agree s.data p.r.data)
    (behind : Behind p.s.data p.r.data → Behind s.data p.r.data) :
    InSync M Agree Behind { p with s := s, fwd := p.fwd ++ [.start p.s.seq (M.request s.data)] } := by
  have same : Pair.Opened { p with s := s, fwd := p.fwd ++ [.start p.s.seq (M.request s.data)] } → p.Opened := by
    rintro ⟨eq, rphase, _, _⟩
    refine (coupled.engaged (Or.inl rphase)).resolve_left fun less => ?_
    have same : p.r.seq = p.s.seq := by rw [← seq]; exact eq
    omega
  have notWaiting : p.s.phase ≠ .waitReport := by rcases phase with phase | phase <;> simp [phase]
  have noStop : ∀ q, .stop q ∈ p.fwd → q < p.s.seq := fun q mem =>
    (h.stops q mem).resolve_right fun eq => notWaiting eq.2
  refine ⟨?_, ?_, ?_, by simpa [seq] using h.reports, ?_, ?_⟩
  · intro q req mem
    rcases List.mem_append.1 mem with old | new
    · simpa [seq, request] using h.starts q req old
    · simp only [List.mem_singleton, Fwd.start.injEq] at new
      simpa [seq] using new
  · intro q mem
    exact Or.inl (by rw [seq]; exact noStop q (by simpa using mem))
  · simp only [seq]
    refine List.pairwise_append.2 ⟨h.order, List.pairwise_singleton _ _, ?_⟩
    rintro m old _ _ rfl
    exact absurd (noStop _ old) (by omega)
  · intro op
    have before := h.opened (same op)
    exact ⟨agree before.1, fun away => absurd (before.2 away).1 notWaiting⟩
  · intro unop
    by_cases op : p.Opened
    · refine absurd ⟨by rw [seq]; exact op.1, op.2.1, busy, fun q mem => ?_⟩ unop
      rw [startNumbers_append, List.mem_append] at mem
      simp only [seq]
      rcases mem with old | new
      · exact op.2.2.2 q old
      · simpa [startNumbers] using new
    · exact ⟨behind (h.unopened op).1, (h.unopened op).2⟩

theorem InSync.fireS (laws : M.Synced Agree Behind) (h : InSync M Agree Behind p) (coupled : Coupled p)
    (small : p.s.seq < V.modulus) :
    InSync M Agree Behind { p with s := (p.s.fire V M).1, fwd := p.fwd ++ [(p.s.fire V M).2] } := by
  have fresh : p.s.seq % V.modulus = p.s.seq := Nat.mod_eq_of_lt small
  by_cases opening : p.s.phase = .idle ∨ p.s.phase = .startAck
  · have next := h.fireStart coupled opening (s := (p.s.fire V M).1) (by simp) (Sender.fire_not_idle p.s)
    rcases opening with phase | phase <;> cases acked : V.acked <;>
      simp only [Sender.fire, phase, acked, fresh, if_true, if_false, Bool.false_eq_true] at next ⊢
    · exact next trivial id id
    · exact next (laws.request_opened _) (laws.opened_agree _ _) (laws.opened_behind _ _)
    · exact next trivial id id
    · exact next (laws.request_opened _) (laws.opened_agree _ _) (laws.opened_behind _ _)
  · have closing := p.s.phase.opens_or_busy.resolve_left opening
    have next := h.fireStop closing
    simpa only [Sender.fire_busy V M closing, fresh] using next

theorem InSync.egress (laws : M.Synced Agree Behind) (h : InSync M Agree Behind p) (pkt : π) (lost : Bool) :
    InSync M Agree Behind { p with
      s := (p.s.emit V M pkt).1, fwd := if lost then p.fwd else p.fwd ++ [(p.s.emit V M pkt).2] } := by
  have numbers : startNumbers (if lost then p.fwd else p.fwd ++ [(p.s.emit V M pkt).2]) = startNumbers p.fwd := by
    cases lost <;> simp
  have same : Pair.Opened { p with
      s := (p.s.emit V M pkt).1, fwd := if lost then p.fwd else p.fwd ++ [(p.s.emit V M pkt).2] } ↔ p.Opened := by
    simp [Pair.Opened, numbers]
  have request : M.request (p.s.emit V M pkt).1.data = M.request p.s.data := by
    by_cases phase : p.s.phase = .counting <;> simp [Sender.emit, phase, laws.request_count]
  have isData : ∃ tag, (p.s.emit V M pkt).2 = .data tag pkt := by
    by_cases phase : p.s.phase = .counting <;> simp [Sender.emit, phase]
  obtain ⟨tag, isData⟩ := isData
  have mem : ∀ m ∈ (if lost then p.fwd else p.fwd ++ [(p.s.emit V M pkt).2]), m ∈ p.fwd ∨ m = .data tag pkt := by
    intro m mem
    cases lost with
    | true => exact Or.inl mem
    | false => simpa [isData] using mem
  refine ⟨?_, ?_, ?_, by simpa using h.reports, ?_, ?_⟩
  · intro q req hm
    simpa [request] using h.starts q req ((mem _ hm).resolve_right (by simp))
  · intro q hm
    simpa using h.stops q ((mem _ hm).resolve_right (by simp))
  · simp only [Sender.emit_seq]
    cases lost with
    | true => exact h.order
    | false =>
      refine List.pairwise_append.2 ⟨h.order, List.pairwise_singleton _ _, fun _ _ m hm _ q req => ?_⟩
      rw [List.mem_singleton.1 hm, isData]; simp
  · intro op
    refine ⟨?_, by simpa [numbers] using (h.opened (same.1 op)).2⟩
    by_cases phase : p.s.phase = .counting
    · simpa [Sender.emit, phase] using laws.count_agree _ _ _ pkt (h.opened (same.1 op)).1
    · simpa [Sender.emit, phase] using (h.opened (same.1 op)).1
  · intro unop
    have before := h.unopened fun op => unop (same.2 op)
    refine ⟨?_, before.2⟩
    by_cases phase : p.s.phase = .counting
    · simpa [Sender.emit, phase] using laws.count_behind _ _ _ pkt before.1
    · simpa [Sender.emit, phase] using before.1

theorem InSync.deliverB (laws : M.Synced Agree Behind) (h : InSync M Agree Behind p) (coupled : Coupled p)
    {m : Bwd Rep} {ms : List (Bwd Rep)} (hb : p.bwd = m :: ms) :
    InSync M Agree Behind { p with s := (p.s.handle V M m).1, bwd := ms, fwd := p.fwd ++ (p.s.handle V M m).2.1 } := by
  have rest : InSync M Agree Behind { p with bwd := ms } :=
    h.of_sublist coupled (List.Sublist.refl _) (by rw [hb]; exact List.sublist_cons_self m ms)
  have reaction := p.s.reaction V M m
  generalize p.s.handle V M m = react at *
  cases reaction with
  | ignores => simpa using rest
  | begins phase =>
    simp only [List.append_nil]
    have same : Pair.Opened { p with s := { p.s with phase := .counting }, bwd := ms } ↔ p.Opened := by
      simp [Pair.Opened, phase]
    refine ⟨rest.starts, ?_, rest.order, rest.reports, ?_, fun unop => h.unopened fun op => unop (same.2 op)⟩
    · intro q mem
      refine Or.inl ((h.stops q mem).resolve_right fun eq => ?_)
      simp [phase] at eq
    · intro op
      have before := h.opened (same.1 op)
      refine ⟨before.1, fun away => ?_⟩
      have sphase := (before.2 away).1
      simp [phase] at sphase
  | @recovers q rep phase =>
    have numbers : startNumbers (p.fwd ++ [.ack q]) = startNumbers p.fwd := by simp [startNumbers]
    have same : Pair.Opened { p with bwd := ms, fwd := p.fwd ++ [.ack q] } ↔ p.Opened := by
      simp [Pair.Opened, numbers]
    refine ⟨by simpa using rest.starts, by simpa using rest.stops, ?_, rest.reports, ?_,
      fun unop => h.unopened fun op => unop (same.2 op)⟩
    · exact List.pairwise_append.2 ⟨h.order, List.pairwise_singleton _ _, fun _ _ _ hm _ q req => by
        rw [List.mem_singleton.1 hm]; simp⟩
    · intro op
      exact absurd phase (same.1 op).2.2.1
  | @closes rep phase =>
    obtain ⟨⟨r, rfl⟩, away⟩ := h.reports p.s.seq rep (by simp [hb])
    have op : p.Opened := ((coupled.reports _ _ (show Bwd.report p.s.seq (M.report r) ∈ p.bwd by simp [hb])).resolve_left
      (by omega)).2
    obtain ⟨agree, left⟩ := h.opened op
    have none := (left (away rfl)).2
    have noStart : ∀ q req, .start q req ∉ p.fwd := fun q req mem => by
      have some := mem_startNumbers.2 ⟨req, mem⟩
      rw [none] at some
      cases some
    refine ⟨?_, ?_, ?_, ?_, ?_, fun _ => ⟨laws.close _ _ _ _ agree, away rfl⟩⟩
    · intro q req mem
      exact absurd (by simpa using mem) (noStart q req)
    · intro q mem
      have le := h.stops q (by simpa using mem)
      exact Or.inl (by simp only; omega)
    · refine List.pairwise_append.2 ⟨?_, List.pairwise_singleton _ _, fun _ _ _ hm _ q req => by
        rw [List.mem_singleton.1 hm]; simp⟩
      refine List.Pairwise.imp_of_mem (fun {a b} _ hb _ _ q req eq => ?_) h.order
      exact noStart q req (eq ▸ hb)
    · intro q rep mem
      have old : .report q rep ∈ p.bwd := by simp [hb, show Bwd.report q rep ∈ ms from mem]
      have le := coupled.reports q rep old
      exact ⟨(h.reports q rep old).1, fun eq => by simp only at eq; omega⟩
    · intro op'
      have same : p.r.seq = p.s.seq + 1 := op'.1
      exact absurd op.1 (by omega)

theorem InSync.step (laws : M.Synced Agree Behind) (h : InSync M Agree Behind p) (coupled : Coupled p)
    (small : p.s.seq < V.modulus) (good : ∀ late, l = .fireR late → p.r.phase ≠ .counting)
    (hstep : Session.step V M l p = some (p', os)) : InSync M Agree Behind p' := by
  cases moves_of_step V M hstep with
  | fireS => exact h.fireS laws coupled small
  | fireR hf => exact h.fireR coupled hf (good _ rfl)
  | egress pkt lost => exact h.egress laws pkt lost
  | deliverF hf => exact h.deliverF laws coupled hf
  | deliverB hb => exact h.deliverB laws coupled hb
  | loseF i => exact h.of_sublist coupled (List.eraseIdx_sublist p.fwd i) (List.Sublist.refl _)
  | loseB i => exact h.of_sublist coupled (List.Sublist.refl _) (List.eraseIdx_sublist p.bwd i)

/-- **Histories in sync.** If no timer fires in a counting receiver, a receiver that counts for a session
below the modulus agrees with the sender. -/
theorem InSync.of_run (pos : 0 < V.modulus) (laws : M.Synced Agree Behind) {s0 : S} {r0 : R} (start : Behind s0 r0)
    (run : Lts.Run (Session.step V M) (fun l p => ∀ late, l = .fireR late → p.r.phase ≠ .counting)
      (Pair.start s0 r0) p tr) : p.s.seq < V.modulus → InSync M Agree Behind p := by
  suffices both : Sane V p ∧ (p.s.seq < V.modulus → InSync M Agree Behind p) from both.2
  refine run.invariant (I := fun p _ => Sane V p ∧ (p.s.seq < V.modulus → InSync M Agree Behind p)) ?_ ?_
  · refine ⟨.start pos s0 r0, fun _ => ?_⟩
    constructor <;> simp [Pair.start, Pair.Opened, start]
  · rintro p p' _ os l ⟨sane, h⟩ good hstep
    refine ⟨sane.step pos hstep, fun small => ?_⟩
    have before : p.s.seq < V.modulus := Nat.lt_of_le_of_lt (seq_le_of_step hstep) small
    exact (h before).step laws (sane.coupled before) before good hstep

/-- Two counting ends agree: the receiver's session is the sender's. -/
theorem InSync.agree (h : InSync M Agree Behind p) (counting : p.r.phase = .counting) : Agree p.s.data p.r.data := by
  by_contra differ
  exact (h.unopened fun op => differ (h.opened op).1).2 counting

end

end Ns3Fancy.Session
