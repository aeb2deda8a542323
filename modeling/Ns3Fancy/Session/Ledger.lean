import Mathlib.Data.List.Induction
import Ns3Fancy.Session.Discipline
import Ns3Fancy.Session.Lockstep

/-!
# Sessions stay exact when control messages are lost

A sender that waits for the acknowledgement of START and a receiver that looks at the tags need no reliable wire: whatever
control messages are lost, and whatever timers fire outside a counting receiver, every session is closed with the
report of the lockstep system. `Ledger` says where the packets of the open session are. The receiver has metered some of
them, the others are still on the wire in front of it, and a START or a STOP on the wire stands on the right side of them.
-/

namespace Ns3Fancy.Session
set_option autoImplicit false

variable {π S R Req Rep ω : Type} {V : Variant} {M : Meter π S R Req Rep ω}

/-- What a request says does not depend on what the sender meters. -/
structure Meter.Steady (M : Meter π S R Req Rep ω) : Prop extends M.Lawful where
  request_opened : ∀ s, M.request (M.opened s) = M.request s
  request_count : ∀ k s pkt, M.request (M.countS k s pkt) = M.request s

theorem Meter.Steady.synced (steady : M.Steady) : M.Synced (fun _ _ => True) (fun _ _ => True) where
  request_opened := steady.request_opened
  request_count := steady.request_count
  opened_agree _ _ h := h
  opened_behind _ _ h := h
  count_agree _ _ _ _ h := h
  count_behind _ _ _ _ h := h
  countR_agree _ _ _ _ h := h
  init_first _ _ _ h := h
  init_again _ _ _ _ h := h
  close _ _ _ _ h := h

theorem Meter.Steady.request_metered (steady : M.Steady) (k : Nat) (c : List (π × Bool)) (y : S × R) :
    M.request (metered V M k c y).1 = M.request y.1 := by
  induction c using List.reverseRecOn with
  | nil =>
    simp only [metered, List.foldl_nil, openedS]
    split
    · exact steady.request_opened y.1
    · rfl
  | append_singleton c e ih =>
    obtain ⟨pkt, lost⟩ := e
    rw [metered_snoc, steady.request_count, ih]

/-- A session opens in the receiver with the request of a sender that has metered nothing. -/
theorem Meter.Steady.metered_nil (steady : M.Steady) {k : Nat} (small : k < V.modulus) (y : S × R) :
    (metered V M k [] y).2 = M.init k true (M.request y.1) y.2 := by
  have same := steady.request_metered (V := V) k [] y
  simp only [metered, List.foldl_nil] at same
  simp only [metered, List.filter_nil, List.foldl_nil, same, Nat.mod_eq_of_lt small]

/-! ## Packets on the wire -/

/-- The packet that a message carries for session `k`. -/
def Fwd.packet (k : Nat) : Fwd π Req → Option π
  | .data (some q) pkt => if q = k then some pkt else none
  | _ => none

/-- The packets of session `k` on the wire, oldest first. -/
def pending (k : Nat) (ms : List (Fwd π Req)) : List π := ms.filterMap (Fwd.packet k)

@[simp] theorem pending_append (k : Nat) (ms ms' : List (Fwd π Req)) :
    pending k (ms ++ ms') = pending k ms ++ pending k ms' := by
  simp [pending]

theorem packet_isSome {k : Nat} {m : Fwd π Req} : (m.packet k).isSome = true ↔ ∃ pkt, m = .data (some k) pkt := by
  cases m with
  | data tag pkt =>
    cases tag with
    | none => simp [Fwd.packet]
    | some q =>
      by_cases same : q = k
      · simp [Fwd.packet, same]
      · simp [Fwd.packet, same]
  | start | stop | ack => simp [Fwd.packet]

theorem packet_eq_none {k : Nat} {m : Fwd π Req} : m.packet k = none ↔ ∀ pkt, m ≠ .data (some k) pkt := by
  rw [← Option.not_isSome_iff_eq_none, packet_isSome, not_exists]

theorem pending_eq_nil {k : Nat} {ms : List (Fwd π Req)} : pending k ms = [] ↔ ∀ m ∈ ms, m.packet k = none :=
  List.filterMap_eq_nil_iff

/-- Dropping a message without a packet. -/
theorem pending_eraseIdx {k i : Nat} {ms : List (Fwd π Req)} (none : ∀ m, ms[i]? = some m → m.packet k = none) :
    pending k (ms.eraseIdx i) = pending k ms := by
  induction ms generalizing i with
  | nil => rfl
  | cons m ms ih =>
    cases i with
    | zero =>
      have gone := none m rfl
      simp [pending, gone]
    | succ i =>
      have rest := ih (i := i) fun m' found => none m' (by simpa using found)
      simp only [pending, List.eraseIdx_cons_succ, List.filterMap_cons] at rest ⊢
      rw [rest]

/-- Behind a packet of session `k` there is no START, behind a STOP of it no packet of it. -/
def InOrder (k : Nat) (m m' : Fwd π Req) : Prop :=
  ((m.packet k).isSome = true → ∀ q req, m' ≠ .start q req) ∧ (m = .stop k → m'.packet k = none)

/-- No timer fires in a counting receiver, and what is lost on the forward wire is no packet of a session: packets are
lost only as they leave. -/
def Careful (l : Label π) (p : Pair π S R Req Rep) : Prop :=
  (∀ late, l = .fireR late → p.r.phase ≠ .counting) ∧
    ∀ i, l = .loseF i → ∀ m k, p.fwd[i]? = some m → m.packet k = none

/-! ## The invariant -/

/-- What a careful run keeps. `k` is the sender's session. -/
structure Ledger (V : Variant) (M : Meter π S R Req Rep ω) (x : S × R) (p : Pair π S R Req Rep)
    (tr : List (Obs π Rep ω)) : Prop where
  idle : p.s.phase = .idle → p.s.data = (lockstep V M (sessionPackets tr) x p.s.seq).1
  opening : p.s.phase = .startAck → p.s.data = M.opened (lockstep V M (sessionPackets tr) x p.s.seq).1
  busy : p.s.phase = .counting ∨ p.s.phase = .waitReport → p.Opened ∧ p.s.data = (meteredAt V M x tr p.s.seq).1
  ahead : ∀ j, p.s.seq < j ∨ (j = p.s.seq ∧ (p.s.phase = .idle ∨ p.s.phase = .startAck)) → sessionPackets tr j = []
  unopened : ¬p.Opened → p.r.data = (lockstep V M (sessionPackets tr) x p.s.seq).2
  opened : p.Opened → (pending p.s.seq p.fwd).foldl (M.countR p.s.seq) p.r.data = (meteredAt V M x tr p.s.seq).2 ∧
    (p.r.phase ≠ .counting → pending p.s.seq p.fwd = [])
  /-- while a START may still be repeated nothing has been metered -/
  fresh : p.Opened → startNumbers p.fwd ≠ [] → p.r.data =
    M.init p.s.seq true (M.request (lockstep V M (sessionPackets tr) x p.s.seq).1)
      (lockstep V M (sessionPackets tr) x p.s.seq).2
  order : p.fwd.Pairwise (InOrder p.s.seq)
  tags : ∀ q pkt, .data (some q) pkt ∈ p.fwd →
    q < p.s.seq ∨ (q = p.s.seq ∧ (p.s.phase = .counting ∨ p.s.phase = .waitReport))
  reports : ∀ rep, .report p.s.seq rep ∈ p.bwd → rep = M.report p.r.data

variable {x : S × R} {p p' : Pair π S R Req Rep} {tr os : List (Obs π Rep ω)} {l : Label π}

/-- A sender in a session has not reached the modulus. -/
theorem Bounded.small (acked : V.acked = true) (bounded : Bounded V p)
    (busy : p.s.phase = .counting ∨ p.s.phase = .waitReport) : p.s.seq < V.modulus := by
  refine Nat.lt_of_le_of_ne bounded.sender fun last => ?_
  rcases bounded.stuck acked last with stuck | stuck <;> rcases busy with phase | phase <;> rw [phase] at stuck <;> cases stuck

theorem Ledger.start (s0 : S) (r0 : R) :
    Ledger V M (s0, r0) (Pair.start s0 r0 : Pair π S R Req Rep) ([] : List (Obs π Rep ω)) := by
  constructor <;> simp [Pair.start, Pair.Opened, lockstep, sessionPackets]

/-- Before the sender counts, no packet of its session exists. -/
theorem Ledger.untouched (h : Ledger V M x p tr) (opens : p.s.phase = .idle ∨ p.s.phase = .startAck) :
    pending p.s.seq p.fwd = [] ∧ sessionPackets tr p.s.seq = [] := by
  refine ⟨pending_eq_nil.2 fun m mem => packet_eq_none.2 ?_, h.ahead _ (Or.inr ⟨rfl, opens⟩)⟩
  rintro pkt rfl
  rcases h.tags _ pkt mem with less | ⟨_, busy⟩
  · exact absurd less (Nat.lt_irrefl _)
  · rcases opens with phase | phase <;> simp [phase] at busy

/-- The sender asks for its session with the same words in every phase. -/
theorem Ledger.request (steady : M.Steady) (h : Ledger V M x p tr) :
    M.request p.s.data = M.request (lockstep V M (sessionPackets tr) x p.s.seq).1 := by
  cases phase : p.s.phase with
  | idle => rw [h.idle phase]
  | startAck => rw [h.opening phase, steady.request_opened]
  | counting => rw [(h.busy (Or.inl phase)).2, meteredAt, steady.request_metered]
  | waitReport => rw [(h.busy (Or.inr phase)).2, meteredAt, steady.request_metered]

/-- A session that is open but not yet metered. -/
theorem Ledger.opened_unmetered (steady : M.Steady) (h : Ledger V M x p tr) (small : p.s.seq < V.modulus)
    (opens : p.s.phase = .idle ∨ p.s.phase = .startAck) (op : p.Opened) : p.r.data =
    M.init p.s.seq true (M.request (lockstep V M (sessionPackets tr) x p.s.seq).1)
      (lockstep V M (sessionPackets tr) x p.s.seq).2 := by
  obtain ⟨none, quiet⟩ := h.untouched opens
  have data := (h.opened op).1
  rwa [none, List.foldl_nil, meteredAt, quiet, steady.metered_nil small] at data

/-- A step that leaves the sender, the receiver's meter and the packets of an open session alone. -/
theorem Ledger.frame (h : Ledger V M x p tr) {r : Receiver R} {fwd : List (Fwd π Req)} {bwd : List (Bwd Rep)}
    (data : r.data = p.r.data) (same : Pair.Opened { p with r := r, fwd := fwd, bwd := bwd } ↔ p.Opened)
    (packets : p.Opened → pending p.s.seq fwd = pending p.s.seq p.fwd)
    (drained : p.Opened → r.phase ≠ .counting → pending p.s.seq fwd = [])
    (starts : p.Opened → startNumbers fwd ≠ [] → startNumbers p.fwd ≠ [])
    (order : fwd.Pairwise (InOrder p.s.seq)) (tags : ∀ q pkt, .data (some q) pkt ∈ fwd → .data (some q) pkt ∈ p.fwd)
    (reports : ∀ rep, .report p.s.seq rep ∈ bwd → rep = M.report p.r.data)
    (quiet : sessionPackets os = fun _ => []) : Ledger V M x { p with r := r, fwd := fwd, bwd := bwd } (tr ++ os) := by
  have packetsOf : sessionPackets (tr ++ os) = sessionPackets tr := by
    funext j
    rw [sessionPackets_append, quiet, List.append_nil]
  have at' : meteredAt V M x (tr ++ os) p.s.seq = meteredAt V M x tr p.s.seq :=
    meteredAt_congr fun j _ => by rw [packetsOf]
  constructor
  · rw [packetsOf]
    exact h.idle
  · rw [packetsOf]
    exact h.opening
  · intro busy
    rw [at']
    exact ⟨same.2 (h.busy busy).1, (h.busy busy).2⟩
  · rw [packetsOf]
    exact h.ahead
  · intro unop
    rw [packetsOf, data]
    exact h.unopened fun op => unop (same.2 op)
  · intro op
    have was := same.1 op
    simp only [at', data, packets was]
    exact ⟨(h.opened was).1, fun away => by rw [← packets was]; exact drained was away⟩
  · intro op some
    rw [packetsOf, data]
    exact h.fresh (same.1 op) (starts (same.1 op) some)
  · exact order
  · exact fun q pkt mem => h.tags q pkt (tags q pkt mem)
  · intro rep mem
    rw [data]
    exact reports rep mem

/-! ## What one step keeps -/

theorem Coupled.opened_of_sublist (coupled : Coupled p) {fwd : List (Fwd π Req)} (bwd : List (Bwd Rep))
    (hf : fwd.Sublist p.fwd) : Pair.Opened { p with fwd := fwd, bwd := bwd } ↔ p.Opened := by
  constructor
  · rintro ⟨seq, rphase, -, -⟩
    refine (coupled.engaged (Or.inl rphase)).resolve_left fun less => ?_
    have eq : p.r.seq = p.s.seq := seq
    omega
  · rintro ⟨seq, rphase, sphase, all⟩
    exact ⟨seq, rphase, sphase, fun q mem => all q ((hf.filterMap _).subset mem)⟩

/-- Messages disappear, no packet of an open session among them. -/
theorem Ledger.of_sublist (h : Ledger V M x p tr) (coupled : Coupled p) {fwd : List (Fwd π Req)} {bwd : List (Bwd Rep)}
    (hf : fwd.Sublist p.fwd) (hb : bwd.Sublist p.bwd)
    (packets : p.Opened → pending p.s.seq fwd = pending p.s.seq p.fwd) (quiet : sessionPackets os = fun _ => []) :
    Ledger V M x { p with fwd := fwd, bwd := bwd } (tr ++ os) := by
  have numbers : (startNumbers fwd).Sublist (startNumbers p.fwd) := hf.filterMap _
  refine h.frame rfl (coupled.opened_of_sublist bwd hf) packets ?_ ?_ (h.order.sublist hf)
    (fun q pkt mem => hf.subset mem) (fun rep mem => h.reports rep (hb.subset mem)) quiet
  · intro op away
    rw [packets op]
    exact (h.opened op).2 away
  · intro op some none
    rw [none] at numbers
    exact some (List.sublist_nil.1 numbers)

theorem Ledger.fireR (h : Ledger V M x p tr) (coupled : Coupled p) {late : Bool} {f : Receiver R × Bwd Rep}
    (hf : p.r.fire M late = some f) (away : p.r.phase ≠ .counting) :
    Ledger V M x { p with r := f.1, bwd := p.bwd ++ [f.2] } (tr ++ [.reported p.r.seq]) := by
  obtain ⟨pending, n, rfl⟩ := p.r.fire_some M hf
  refine h.frame rfl ⟨fun op => ?_, fun op => ⟨op.1, by simp, op.2.2⟩⟩ (fun _ => rfl) (fun op _ => (h.opened op).2 away)
    (fun _ some => some) h.order (fun _ _ mem => mem) ?_ (by funext j; simp [sessionPackets])
  · refine (coupled.engaged (Or.inr pending)).resolve_left fun less => ?_
    have same : p.r.seq = p.s.seq := op.1
    omega
  · intro rep mem
    rcases List.mem_append.1 mem with old | new
    · exact h.reports rep old
    · simp only [List.mem_singleton, Bwd.report.injEq] at new
      exact new.2

/-- A START is sent, for the first time or again. -/
theorem Ledger.fireStart (steady : M.Steady) (h : Ledger V M x p tr) (coupled : Coupled p) (small : p.s.seq < V.modulus)
    (opens : p.s.phase = .idle ∨ p.s.phase = .startAck) (req : Req) :
    Ledger V M x { p with
      s := { p.s with phase := .startAck, data := M.opened p.s.data }, fwd := p.fwd ++ [.start p.s.seq req] } tr := by
  obtain ⟨none, unmetered⟩ := h.untouched opens
  have still : pending p.s.seq (p.fwd ++ [.start p.s.seq req]) = [] := by
    rw [pending_append, none]
    rfl
  have same : Pair.Opened { p with
      s := { p.s with phase := .startAck, data := M.opened p.s.data }
      fwd := p.fwd ++ [.start p.s.seq req] } ↔ p.Opened := by
    constructor
    · rintro ⟨seq, rphase, -, -⟩
      refine (coupled.engaged (Or.inl rphase)).resolve_left fun less => ?_
      have eq : p.r.seq = p.s.seq := seq
      omega
    · rintro ⟨seq, rphase, -, all⟩
      refine ⟨seq, rphase, by simp, fun q mem => ?_⟩
      rw [startNumbers_append, List.mem_append] at mem
      rcases mem with old | new
      · exact all q old
      · simpa [startNumbers] using new
  constructor
  · simp
  · intro _
    rcases opens with phase | phase
    · simp only [h.idle phase]
    · simp only [h.opening phase, steady.opened_opened]
  · simp
  · intro j later
    exact h.ahead j (later.imp id fun eq => ⟨eq.1, opens⟩)
  · exact fun unop => h.unopened fun op => unop (same.2 op)
  · intro op
    refine ⟨?_, fun _ => still⟩
    have data := (h.opened (same.1 op)).1
    rw [none] at data
    simpa only [still] using data
  · intro op _
    have data := h.opened_unmetered steady small opens (same.1 op)
    exact data
  · refine List.pairwise_append.2 ⟨h.order, List.pairwise_singleton _ _, fun m mem m' last => ⟨fun some => ?_, fun _ => ?_⟩⟩
    · rw [pending_eq_nil.1 none m mem] at some
      cases some
    · rw [List.mem_singleton.1 last]
      rfl
  · intro q pkt mem
    have old : .data (some q) pkt ∈ p.fwd := by simpa using mem
    exact Or.inl ((h.tags q pkt old).resolve_right fun eq => by rcases opens with phase | phase <;> simp [phase] at eq)
  · exact h.reports

/-- A STOP is sent, for the first time or again. -/
theorem Ledger.fireStop (h : Ledger V M x p tr) (closing : p.s.phase = .counting ∨ p.s.phase = .waitReport) :
    Ledger V M x { p with s := { p.s with phase := .waitReport }, fwd := p.fwd ++ [.stop p.s.seq] } tr := by
  have numbers : startNumbers (p.fwd ++ [.stop p.s.seq]) = startNumbers p.fwd := by simp [startNumbers]
  have packets : pending p.s.seq (p.fwd ++ [.stop p.s.seq]) = pending p.s.seq p.fwd := by simp [pending, Fwd.packet]
  have same : Pair.Opened { p with
      s := { p.s with phase := .waitReport }, fwd := p.fwd ++ [.stop p.s.seq] } ↔ p.Opened := by
    rcases closing with phase | phase <;> simp [Pair.Opened, numbers, phase]
  constructor
  · simp
  · simp
  · intro _
    exact ⟨same.2 (h.busy closing).1, (h.busy closing).2⟩
  · intro j later
    exact h.ahead j (Or.inl (later.resolve_right (by simp)))
  · exact fun unop => h.unopened fun op => unop (same.2 op)
  · intro op
    simpa only [packets] using h.opened (same.1 op)
  · intro op
    simpa only [numbers] using h.fresh (same.1 op)
  · refine List.pairwise_append.2 ⟨h.order, List.pairwise_singleton _ _, fun m _ m' last => ⟨fun _ q req => ?_, fun _ => ?_⟩⟩
    · rw [List.mem_singleton.1 last]
      simp
    · rw [List.mem_singleton.1 last]
      rfl
  · intro q pkt mem
    exact (h.tags q pkt (by simpa using mem)).imp id fun eq => ⟨eq.1, Or.inr rfl⟩
  · exact h.reports

theorem Ledger.fireS (acked : V.acked = true) (steady : M.Steady) (h : Ledger V M x p tr) (coupled : Coupled p)
    (small : p.s.seq < V.modulus) :
    Ledger V M x { p with s := (p.s.fire V M).1, fwd := p.fwd ++ [(p.s.fire V M).2] } tr := by
  have fresh : p.s.seq % V.modulus = p.s.seq := Nat.mod_eq_of_lt small
  rcases p.s.phase.opens_or_busy with opens | closing
  · simpa only [Sender.fire_acked V M acked opens, fresh] using h.fireStart steady coupled small opens _
  · simpa only [Sender.fire_busy V M closing, fresh] using h.fireStop closing

/-- A packet leaves a counting sender: it is metered there, and by the receiver when it arrives. -/
theorem Ledger.count (h : Ledger V M x p tr) (sync : InSync M (fun _ _ => True) (fun _ _ => True) p)
    (small : p.s.seq < V.modulus) (counting : p.s.phase = .counting) (pkt : π) (lost : Bool) :
    Ledger V M x { p with
        s := { p.s with data := M.countS p.s.seq p.s.data pkt }
        fwd := if lost then p.fwd else p.fwd ++ [.data (some p.s.seq) pkt] }
      (tr ++ [.counted p.s.seq pkt lost]) := by
  obtain ⟨opened, sent⟩ := h.busy (Or.inl counting)
  obtain ⟨received, -⟩ := h.opened opened
  have rphase : p.r.phase = .counting := by
    by_contra away
    have sphase := ((sync.opened opened).2 away).1
    rw [counting] at sphase
    cases sphase
  have fresh : p.s.seq % V.modulus = p.s.seq := Nat.mod_eq_of_lt small
  have older : ∀ j, j ≠ p.s.seq → sessionPackets (tr ++ [.counted p.s.seq pkt lost]) j = sessionPackets tr j := by
    intro j other
    simp [sessionPackets, Ne.symm other]
  have newer : sessionPackets (tr ++ [.counted p.s.seq pkt lost]) p.s.seq = sessionPackets tr p.s.seq ++ [(pkt, lost)] := by
    simp [sessionPackets]
  -- the sessions before stay what they were, this one has one packet more
  have before : lockstep V M (sessionPackets (tr ++ [.counted p.s.seq pkt lost])) x p.s.seq =
      lockstep V M (sessionPackets tr) x p.s.seq := lockstep_congr V M x fun j less => older j (Nat.ne_of_lt less)
  have now : meteredAt V M x (tr ++ [.counted p.s.seq pkt lost]) p.s.seq = (M.countS p.s.seq (meteredAt V M x tr p.s.seq).1 pkt,
      if lost then (meteredAt V M x tr p.s.seq).2 else M.countR p.s.seq (meteredAt V M x tr p.s.seq).2 pkt) := by
    rw [meteredAt, before, newer, metered_snoc, fresh]
    rfl
  have numbers : startNumbers (if lost then p.fwd else p.fwd ++ [.data (some p.s.seq) pkt]) = startNumbers p.fwd := by
    cases lost <;> simp [startNumbers]
  have same : Pair.Opened { p with
      s := { p.s with data := M.countS p.s.seq p.s.data pkt }
      fwd := if lost then p.fwd else p.fwd ++ [.data (some p.s.seq) pkt] } ↔ p.Opened := by
    simp [Pair.Opened, numbers]
  constructor
  · simp [counting]
  · simp [counting]
  · intro _
    refine ⟨same.2 opened, ?_⟩
    rw [now, sent]
  · intro j later
    rcases later with less | ⟨-, opens⟩
    · rw [older j (Nat.ne_of_gt less)]
      exact h.ahead j (Or.inl less)
    · simp [counting] at opens
  · exact fun unop => absurd (same.2 opened) unop
  · intro _
    refine ⟨?_, fun away => absurd rphase away⟩
    rw [now]
    cases lost with
    | true => exact received
    | false =>
      have arrives : (Fwd.data (some p.s.seq) pkt : Fwd π Req).packet p.s.seq = some pkt := by simp [Fwd.packet]
      simp only [Bool.false_eq_true, if_false, pending_append, List.foldl_append, received]
      simp only [pending, List.filterMap_cons, arrives, List.filterMap_nil, List.foldl_cons, List.foldl_nil]
  · intro _ some
    simp only [before]
    rw [numbers] at some
    exact h.fresh opened some
  · cases lost with
    | true => exact h.order
    | false =>
      refine List.pairwise_append.2 ⟨h.order, List.pairwise_singleton _ _, fun m mem m' last => ⟨fun _ q req => ?_, ?_⟩⟩
      · rw [List.mem_singleton.1 last]
        simp
      · rintro rfl
        rcases sync.stops _ mem with less | ⟨-, phase⟩
        · exact absurd less (Nat.lt_irrefl _)
        · rw [counting] at phase
          cases phase
  · intro q pkt' mem
    cases lost with
    | true => exact h.tags q pkt' mem
    | false =>
      rcases List.mem_append.1 mem with old | new
      · exact h.tags q pkt' old
      · simp only [List.mem_singleton, Fwd.data.injEq, Option.some.injEq] at new
        exact Or.inr ⟨new.1, Or.inl counting⟩
  · exact h.reports

theorem Ledger.egress (h : Ledger V M x p tr) (sync : InSync M (fun _ _ => True) (fun _ _ => True) p)
    (coupled : Coupled p) (small : p.s.seq < V.modulus) (pkt : π) (lost : Bool) :
    Ledger V M x { p with
        s := (p.s.emit V M pkt).1
        fwd := if lost then p.fwd else p.fwd ++ [(p.s.emit V M pkt).2] }
      (tr ++ if p.s.phase = .counting then [.counted p.s.seq pkt lost] else []) := by
  by_cases counting : p.s.phase = .counting
  · simpa only [Sender.emit, counting, if_true, Nat.mod_eq_of_lt small] using h.count sync small counting pkt lost
  · simp only [Sender.emit, counting, if_false]
    cases lost with
    | true => exact h.of_sublist coupled (List.Sublist.refl _) (List.Sublist.refl _) (fun _ => rfl) rfl
    | false =>
      have numbers : startNumbers (p.fwd ++ [.data none pkt]) = startNumbers p.fwd := by simp [startNumbers]
      have packets : pending p.s.seq (p.fwd ++ [.data none pkt]) = pending p.s.seq p.fwd := by simp [pending, Fwd.packet]
      refine h.frame rfl ?_ (fun _ => packets) ?_ ?_ ?_ ?_ h.reports rfl
      · simp [Pair.Opened, numbers]
      · intro op away
        exact packets.trans ((h.opened op).2 away)
      · intro _ some
        exact numbers ▸ some
      · refine List.pairwise_append.2 ⟨h.order, List.pairwise_singleton _ _,
          fun m _ m' last => ⟨fun _ q req => ?_, fun _ => ?_⟩⟩
        · rw [List.mem_singleton.1 last]
          simp
        · rw [List.mem_singleton.1 last]
          rfl
      · intro q pkt' mem
        simpa using mem

/-- A START reaches a receiver that takes it: for the first time, or again before anything has been metered. -/
theorem Ledger.opens (steady : M.Steady) (h : Ledger V M x p tr) (sync : InSync M (fun _ _ => True) (fun _ _ => True) p)
    (coupled : Coupled p) (small : p.s.seq < V.modulus) {q : Nat} {req : Req} {ms : List (Fwd π Req)}
    (hf : p.fwd = .start q req :: ms) :
    Ledger V M x { p with r := p.r.open M q req, fwd := ms, bwd := p.bwd ++ [.startAck q] } tr := by
  obtain ⟨rfl, rfl⟩ := sync.starts q req (by simp [hf])
  have sub : ms.Sublist p.fwd := by rw [hf]; exact List.sublist_cons_self _ ms
  have numbers : startNumbers p.fwd = p.s.seq :: startNumbers ms := by rw [hf]; rfl
  have packets : pending p.s.seq ms = pending p.s.seq p.fwd := by rw [hf]; rfl
  have busy : p.s.phase ≠ .idle :=
    ((coupled.starts p.s.seq (by simp [numbers])).resolve_left (Nat.lt_irrefl _)).2
  have now : Pair.Opened { p with
      r := p.r.open M p.s.seq (M.request p.s.data), fwd := ms, bwd := p.bwd ++ [.startAck p.s.seq] } := by
    refine ⟨rfl, by simp [Receiver.open], busy, fun q mem => ?_⟩
    obtain ⟨req, mem⟩ := mem_startNumbers.1 mem
    exact (sync.starts q req (sub.subset mem)).1
  have request := h.request steady
  -- the meter of the receiver is the one of a session in which nothing has been metered
  have data : (p.r.open M p.s.seq (M.request p.s.data)).data =
      M.init p.s.seq true (M.request (lockstep V M (sessionPackets tr) x p.s.seq).1)
        (lockstep V M (sessionPackets tr) x p.s.seq).2 := by
    by_cases counting : p.r.phase = .counting
    · have opened : p.Opened := by
        by_contra unop
        exact (sync.unopened unop).2 counting
      have clear := h.fresh opened (by simp [numbers])
      simp only [Receiver.open, counting, ne_eq, not_true_eq_false, decide_false, clear, request, steady.init_again]
    · have unop : ¬p.Opened := fun op => by
        have none := ((sync.opened op).2 counting).2
        rw [numbers] at none
        cases none
      simp only [Receiver.open, ne_eq, counting, not_false_eq_true, decide_true, h.unopened unop, request]
  have metered_eq : (pending p.s.seq p.fwd).foldl (M.countR p.s.seq) (p.r.open M p.s.seq (M.request p.s.data)).data =
      (meteredAt V M x tr p.s.seq).2 := by
    by_cases opened : p.Opened
    · have clear := h.fresh opened (by simp [numbers])
      rw [data, ← clear]
      exact (h.opened opened).1
    · have opens : p.s.phase = .idle ∨ p.s.phase = .startAck :=
        p.s.phase.opens_or_busy.resolve_right fun counts => opened (h.busy counts).1
      obtain ⟨none, quiet⟩ := h.untouched opens
      rw [data, none, List.foldl_nil, meteredAt, quiet, steady.metered_nil small]
  constructor
  · exact h.idle
  · exact h.opening
  · exact fun counts => ⟨now, (h.busy counts).2⟩
  · exact h.ahead
  · exact fun unop => absurd now unop
  · intro _
    refine ⟨?_, fun away => absurd rfl away⟩
    simp only [packets]
    exact metered_eq
  · exact fun _ _ => data
  · exact h.order.sublist sub
  · exact fun q pkt mem => h.tags q pkt (sub.subset mem)
  · intro rep mem
    -- a report of this session leaves no START on the wire
    have old : .report p.s.seq rep ∈ p.bwd := by simpa using mem
    have op := (coupled.reports _ rep old).resolve_left (Nat.lt_irrefl _)
    have none := ((sync.opened op.2).2 ((sync.reports _ rep old).2 rfl)).2
    rw [numbers] at none
    cases none

/-- A packet of the session reaches a receiver that counts for it. -/
theorem Ledger.metered (h : Ledger V M x p tr) (sync : InSync M (fun _ _ => True) (fun _ _ => True) p) (opened : p.Opened)
    (counting : p.r.phase = .counting) {pkt : π} {ms : List (Fwd π Req)} (hf : p.fwd = .data (some p.s.seq) pkt :: ms) :
    Ledger V M x { p with r := { p.r with data := M.countR p.s.seq p.r.data pkt }, fwd := ms } tr := by
  have sub : ms.Sublist p.fwd := by rw [hf]; exact List.sublist_cons_self _ ms
  have order := h.order
  rw [hf, List.pairwise_cons] at order
  have carried : (Fwd.data (some p.s.seq) pkt : Fwd π Req).packet p.s.seq = some pkt := by simp [Fwd.packet]
  -- behind a packet of the session no START is left
  have none : startNumbers ms = [] := by
    refine List.eq_nil_iff_forall_not_mem.2 fun q mem => ?_
    obtain ⟨req, mem⟩ := mem_startNumbers.1 mem
    exact (order.1 _ mem).1 (by rw [carried]; rfl) q req rfl
  have received := (h.opened opened).1
  simp only [hf, pending, List.filterMap_cons, carried, List.foldl_cons] at received
  have now : Pair.Opened { p with r := { p.r with data := M.countR p.s.seq p.r.data pkt }, fwd := ms } :=
    ⟨opened.1, opened.2.1, opened.2.2.1, by simp [none]⟩
  constructor
  · exact h.idle
  · exact h.opening
  · exact fun counts => ⟨now, (h.busy counts).2⟩
  · exact h.ahead
  · exact fun unop => absurd now unop
  · exact fun _ => ⟨received, fun away => absurd counting away⟩
  · exact fun _ some => absurd none some
  · exact h.order.sublist sub
  · exact fun q pkt' mem => h.tags q pkt' (sub.subset mem)
  · intro rep mem
    exact absurd counting ((sync.reports _ rep mem).2 rfl)

theorem Ledger.deliverF (tagged : V.tagged = true) (steady : M.Steady) (h : Ledger V M x p tr)
    (sync : InSync M (fun _ _ => True) (fun _ _ => True) p) (coupled : Coupled p) (small : p.s.seq < V.modulus)
    {m : Fwd π Req} {ms : List (Fwd π Req)} (hf : p.fwd = m :: ms) :
    Ledger V M x { p with r := (p.r.handle V M m).1, fwd := ms, bwd := p.bwd ++ (p.r.handle V M m).2 } (tr ++ m.seen) := by
  have quiet : @sessionPackets π Rep ω m.seen = fun _ => [] := by
    funext j
    cases m <;> simp [Fwd.seen, sessionPackets]
  have sub : ms.Sublist p.fwd := by rw [hf]; exact List.sublist_cons_self m ms
  have order := h.order
  rw [hf, List.pairwise_cons] at order
  -- a message that is ignored and carries no packet of the session only disappears
  have ignored : (p.Opened → m.packet p.s.seq = none) → Ledger V M x { p with fwd := ms } (tr ++ m.seen) := fun none =>
    h.of_sublist coupled sub (List.Sublist.refl _) (fun op => by simp [hf, pending, none op]) quiet
  cases m with
  | start q req =>
    by_cases wait : p.r.phase = .waitSend
    · simpa only [Receiver.handle, wait, if_true, List.append_nil] using ignored fun _ => rfl
    · simpa only [Receiver.handle, wait, if_false, Fwd.seen, List.append_nil] using h.opens steady sync coupled small hf
  | stop q =>
    by_cases hit : p.r.phase = .counting ∧ p.r.seq = q
    · obtain ⟨counting, rfl⟩ := hit
      have opened : p.Opened := by
        by_contra unop
        exact (sync.unopened unop).2 counting
      have none : pending p.s.seq ms = [] :=
        pending_eq_nil.2 fun m mem => (order.1 m mem).2 (by rw [opened.1])
      have packets : pending p.s.seq ms = pending p.s.seq p.fwd := by rw [hf]; rfl
      simp only [Receiver.handle, counting, and_self, if_true, List.append_nil]
      refine h.frame rfl ⟨fun _ => opened, fun op => ⟨op.1, by simp, op.2.2.1, fun q mem => ?_⟩⟩ (fun _ => packets)
        (fun _ _ => none) ?_ (h.order.sublist sub) (fun _ _ mem => sub.subset mem) h.reports quiet
      · exact op.2.2.2 q ((sub.filterMap _).subset mem)
      · intro _ some
        rw [hf]
        exact some
    · simpa only [Receiver.handle, hit, if_false, List.append_nil] using ignored fun _ => rfl
  | ack q =>
    by_cases hit : p.r.phase = .reportAck ∧ p.r.seq = q
    · obtain ⟨reporting, rfl⟩ := hit
      have less := coupled.acks p.r.seq (by simp [hf])
      have unop : ¬p.Opened := fun op => by
        have eq := op.1
        omega
      simp only [Receiver.handle, reporting, and_self, if_true, List.append_nil]
      refine h.frame rfl ⟨fun op => ?_, fun op => absurd op unop⟩ (fun op => absurd op unop) (fun op => absurd op unop)
        (fun op => absurd op unop) (h.order.sublist sub) (fun _ _ mem => sub.subset mem) h.reports quiet
      exact absurd op.1 (Nat.ne_of_lt less)
    · simpa only [Receiver.handle, hit, if_false, List.append_nil] using ignored fun _ => rfl
  | data tag pkt =>
    by_cases hit : p.r.phase = .counting ∧ (V.tagged = false ∨ tag = some p.r.seq)
    · obtain ⟨counting, same⟩ := hit
      have opened : p.Opened := by
        by_contra unop
        exact (sync.unopened unop).2 counting
      obtain rfl : tag = some p.s.seq := by
        rw [← opened.1]
        exact same.resolve_left (by simp [tagged])
      have handled : p.r.handle V M (.data (some p.s.seq) pkt) =
          ({ p.r with data := M.countR p.s.seq p.r.data pkt }, []) :=
        (if_pos ⟨counting, same⟩).trans
          (congrArg (fun q => (({ p.r with data := M.countR q p.r.data pkt } : Receiver R), [])) opened.1)
      rw [handled]
      simpa only [Fwd.seen, List.append_nil] using h.metered sync opened counting hf
    · simp only [Receiver.handle, hit, if_false, List.append_nil]
      refine ignored fun op => packet_eq_none.2 ?_
      rintro pkt' eq
      simp only [Fwd.data.injEq] at eq
      obtain ⟨rfl, rfl⟩ := eq
      by_cases counting : p.r.phase = .counting
      · exact hit ⟨counting, Or.inr (by rw [op.1])⟩
      · have none := (h.opened op).2 counting
        simp [hf, pending, Fwd.packet] at none

/-- A report that the sender consumes is the one of the lockstep system. -/
theorem Ledger.consumable (h : Ledger V M x p tr) (sync : InSync M (fun _ _ => True) (fun _ _ => True) p)
    (coupled : Coupled p) {rep : Rep} (mem : .report p.s.seq rep ∈ p.bwd) :
    rep = M.report (meteredAt V M x tr p.s.seq).2 ∧ p.r.data = (meteredAt V M x tr p.s.seq).2 ∧
      p.s.data = (meteredAt V M x tr p.s.seq).1 := by
  have op := ((coupled.reports _ rep mem).resolve_left (Nat.lt_irrefl _)).2
  have away := (sync.reports _ rep mem).2 rfl
  obtain ⟨sphase, -⟩ := (sync.opened op).2 away
  obtain ⟨received, none⟩ := h.opened op
  rw [none away, List.foldl_nil] at received
  exact ⟨by rw [h.reports rep mem, received], received, (h.busy (Or.inr sphase)).2⟩

theorem Ledger.deliverB (acked : V.acked = true) (h : Ledger V M x p tr)
    (sync : InSync M (fun _ _ => True) (fun _ _ => True) p) (coupled : Coupled p) {m : Bwd Rep} {ms : List (Bwd Rep)}
    (hb : p.bwd = m :: ms) :
    Ledger V M x { p with s := (p.s.handle V M m).1, bwd := ms, fwd := p.fwd ++ (p.s.handle V M m).2.1 }
      (tr ++ (p.s.handle V M m).2.2) := by
  have sub : ms.Sublist p.bwd := by rw [hb]; exact List.sublist_cons_self m ms
  have reaction := p.s.reaction V M m
  generalize p.s.handle V M m = react at *
  cases reaction with
  | ignores =>
    have gone := h.of_sublist coupled (List.Sublist.refl _) sub (fun _ => rfl)
      (show sessionPackets ([] : List (Obs π Rep ω)) = fun _ => [] from rfl)
    simpa only [List.append_nil] using gone
  | begins phase =>
    simp only [List.append_nil]
    obtain ⟨-, opened⟩ := (coupled.startAcks p.s.seq (by simp [hb])).resolve_left (Nat.lt_irrefl _)
    have now : Pair.Opened { p with s := { p.s with phase := .counting }, bwd := ms } :=
      ⟨opened.1, opened.2.1, by simp, opened.2.2.2⟩
    have sent : p.s.data = (meteredAt V M x tr p.s.seq).1 := by
      rw [h.opening phase, meteredAt, (h.untouched (Or.inr phase)).2]
      simp only [Session.metered, openedS, acked, if_true, List.foldl_nil]
    constructor
    · simp
    · simp
    · exact fun _ => ⟨now, sent⟩
    · intro j later
      exact h.ahead j (Or.inl (later.resolve_right (by simp)))
    · exact fun unop => absurd now unop
    · exact fun _ => h.opened opened
    · exact fun _ => h.fresh opened
    · exact h.order
    · intro q pkt mem
      exact (h.tags q pkt mem).imp id fun eq => ⟨eq.1, Or.inl rfl⟩
    · exact fun rep mem => h.reports rep (sub.subset mem)
  | @recovers q rep phase =>
    have unop : ¬p.Opened := fun op => op.2.2.1 phase
    refine h.frame rfl ⟨fun op => absurd phase op.2.2.1, fun op => absurd op unop⟩ (fun op => absurd op unop)
      (fun op => absurd op unop) (fun op => absurd op unop) ?_ (fun q pkt mem => by simpa using mem)
      (fun rep mem => h.reports rep (sub.subset mem)) rfl
    refine List.pairwise_append.2 ⟨h.order, List.pairwise_singleton _ _, fun m _ m' last => ⟨fun _ q req => ?_, fun _ => ?_⟩⟩
    · rw [List.mem_singleton.1 last]
      simp
    · rw [List.mem_singleton.1 last]
      rfl
  | @closes rep phase =>
    obtain ⟨rfl, received, sent⟩ := h.consumable sync coupled (show Bwd.report p.s.seq rep ∈ p.bwd by simp [hb])
    have packets : sessionPackets (tr ++ [.consumed p.s.seq (M.report (meteredAt V M x tr p.s.seq).2)
        (M.close p.s.seq p.s.data (M.report (meteredAt V M x tr p.s.seq).2)).2]) = sessionPackets tr := by
      funext j
      simp [sessionPackets]
    have next : lockstep V M (sessionPackets tr) x (p.s.seq + 1) =
        ((M.close p.s.seq p.s.data (M.report (meteredAt V M x tr p.s.seq).2)).1, p.r.data) := by
      rw [sent, received]
      rfl
    -- nothing on the wire belongs to the next session
    have old : ∀ m ∈ p.fwd, m.packet (p.s.seq + 1) = none ∧ m ≠ .stop (p.s.seq + 1) := by
      intro m mem
      refine ⟨packet_eq_none.2 ?_, ?_⟩
      · rintro pkt rfl
        rcases h.tags _ pkt mem with less | ⟨eq, -⟩ <;> omega
      · rintro rfl
        rcases sync.stops _ mem with less | ⟨eq, -⟩ <;> omega
    constructor
    · intro _
      rw [packets, next]
    · simp
    · simp
    · intro j later
      rw [packets]
      exact h.ahead j (Or.inl (by simp only at later; omega))
    · intro _
      rw [packets, next]
    · exact fun op => absurd rfl op.2.2.1
    · exact fun op => absurd rfl op.2.2.1
    · refine List.pairwise_append.2 ⟨?_, List.pairwise_singleton _ _, fun m mem m' _ => ?_⟩
      · refine h.order.imp_of_mem fun {m m'} mem _ _ => ⟨fun some => ?_, fun stop => absurd stop (old m mem).2⟩
        rw [(old m mem).1] at some
        cases some
      · refine ⟨fun some => ?_, fun stop => absurd stop (old m mem).2⟩
        rw [(old m mem).1] at some
        cases some
    · intro q pkt mem
      have bound := h.tags q pkt (by simpa using mem)
      simp only
      omega
    · intro rep mem
      have bound := coupled.reports (p.s.seq + 1) rep (sub.subset mem)
      omega

theorem Ledger.step (acked : V.acked = true) (tagged : V.tagged = true) (steady : M.Steady) (h : Ledger V M x p tr)
    (sync : InSync M (fun _ _ => True) (fun _ _ => True) p) (coupled : Coupled p) (small : p.s.seq < V.modulus)
    (careful : Careful l p) (hstep : Session.step V M l p = some (p', os)) : Ledger V M x p' (tr ++ os) := by
  cases moves_of_step V M hstep with
  | fireS => simpa only [List.append_nil] using h.fireS acked steady coupled small
  | fireR hf => exact h.fireR coupled hf (careful.1 _ rfl)
  | egress pkt lost => exact h.egress sync coupled small pkt lost
  | deliverF hf => exact h.deliverF tagged steady sync coupled small hf
  | deliverB hb => exact h.deliverB acked sync coupled hb
  | loseF i =>
    have packets := pending_eraseIdx fun m found => careful.2 i rfl m p.s.seq found
    exact h.of_sublist coupled (List.eraseIdx_sublist p.fwd i) (List.Sublist.refl _) (fun _ => packets) rfl
  | loseB i => exact h.of_sublist coupled (List.Sublist.refl _) (List.eraseIdx_sublist p.bwd i) (fun _ => rfl) rfl

/-! ## The closed sessions -/

/-- The sender consumes the report of the lockstep system. -/
theorem Closed.close {seq : Nat} (closed : Closed V M x seq tr) {s : S} (sent : s = (meteredAt V M x tr seq).1) :
    Closed V M x (seq + 1) (tr ++ [.consumed seq (M.report (meteredAt V M x tr seq).2)
      (M.close seq s (M.report (meteredAt V M x tr seq).2)).2]) := by
  subst sent
  have keep : ∀ k, closing V M x (tr ++ [closing V M x tr seq]) k = closing V M x tr k := fun k =>
    closing_congr fun j _ => by simp [sessionPackets, closing]
  show Closed V M x (seq + 1) (tr ++ [closing V M x tr seq])
  constructor
  · intro k rep ws mem
    rw [keep]
    rcases List.mem_append.1 mem with old | new
    · obtain ⟨less, eq⟩ := closed.only k rep ws old
      exact ⟨by omega, eq⟩
    · rw [List.mem_singleton] at new
      obtain rfl : k = seq := by injection new
      exact ⟨by omega, new⟩
  · intro k less
    rw [keep]
    rcases Nat.lt_succ_iff_lt_or_eq.1 less with older | rfl
    · exact List.mem_append_left _ (closed.all k older)
    · exact List.mem_append_right _ (List.mem_singleton.2 rfl)

/-- Steps at which the sender closes nothing. -/
theorem Closed.stay (closed : Closed V M x p.s.seq tr) (packets : ∀ j, j ≠ p.s.seq → sessionPackets os j = [])
    (noClose : ∀ k rep ws, .consumed k rep ws ∉ os) : Closed V M x p.s.seq (tr ++ os) :=
  closed.append (fun j less => packets j (Nat.ne_of_lt less)) noClose

theorem Closed.deliver (acked : V.acked = true) (closed : Closed V M x p.s.seq tr) (bounded : Bounded V p)
    (shown : p.s.seq < V.modulus → ∀ rep, .report p.s.seq rep ∈ p.bwd →
      rep = M.report (meteredAt V M x tr p.s.seq).2 ∧ p.s.data = (meteredAt V M x tr p.s.seq).1)
    {m : Bwd Rep} {ms : List (Bwd Rep)} (hb : p.bwd = m :: ms) :
    Closed V M x (p.s.handle V M m).1.seq (tr ++ (p.s.handle V M m).2.2) := by
  have reaction := p.s.reaction V M m
  generalize p.s.handle V M m = react at *
  cases reaction with
  | ignores | begins | recovers => exact closed.stay (fun _ _ => rfl) (by simp)
  | @closes rep phase =>
    obtain ⟨rfl, sent⟩ := shown (bounded.small acked (Or.inr phase)) rep (by simp [hb])
    exact closed.close sent

/-- What a careful run keeps, the session past the modulus apart: there the sender only asks in vain. -/
structure Careful.Kept (V : Variant) (M : Meter π S R Req Rep ω) (x : S × R) (p : Pair π S R Req Rep)
    (tr : List (Obs π Rep ω)) : Prop where
  sane : Sane V p
  closed : Closed V M x p.s.seq tr
  sync : p.s.seq < V.modulus → InSync M (fun _ _ => True) (fun _ _ => True) p
  ledger : p.s.seq < V.modulus → Ledger V M x p tr

theorem Careful.Kept.step (pos : 0 < V.modulus) (acked : V.acked = true) (tagged : V.tagged = true) (steady : M.Steady)
    (h : Careful.Kept V M x p tr) (careful : Careful l p) (hstep : Session.step V M l p = some (p', os)) :
    Careful.Kept V M x p' (tr ++ os) := by
  have before : p'.s.seq < V.modulus → p.s.seq < V.modulus := Nat.lt_of_le_of_lt (seq_le_of_step hstep)
  refine ⟨h.sane.step pos hstep, ?_, fun small => ?_, fun small => ?_⟩
  · cases moves_of_step V M hstep with
    | fireS =>
      rw [Sender.fire_seq]
      exact h.closed.stay (fun _ _ => rfl) (by simp)
    | egress pkt lost =>
      rw [Sender.emit_seq]
      refine h.closed.stay (fun j other => ?_) (fun k rep ws => by split <;> simp)
      split
      · simp [sessionPackets, Ne.symm other]
      · rfl
    | @deliverF m _ hf =>
      refine h.closed.stay (fun j _ => ?_) fun k rep ws => ?_
      · cases m <;> rfl
      · cases m <;> simp [Fwd.seen]
    | deliverB hb =>
      refine h.closed.deliver acked h.sane.bounded (fun small rep mem => ?_) hb
      obtain ⟨shown, -, sent⟩ := (h.ledger small).consumable (h.sync small) (h.sane.coupled small) mem
      exact ⟨shown, sent⟩
    | fireR | loseF | loseB => exact h.closed.stay (fun _ _ => rfl) (by simp)
  · have was := before small
    exact (h.sync was).step steady.synced (h.sane.coupled was) was careful.1 hstep
  · have was := before small
    exact (h.ledger was).step acked tagged steady (h.sync was) (h.sane.coupled was) was careful hstep

/-- **Closed sessions under control loss.** In a careful run the sessions are closed one after the other, each with the report
of the lockstep system, and until then the packets of the open session are where `Ledger` says. -/
theorem Careful.kept_of_run (pos : 0 < V.modulus) (acked : V.acked = true) (tagged : V.tagged = true) (steady : M.Steady)
    {s0 : S} {r0 : R} (run : Lts.Run (Session.step V M) Careful (Pair.start s0 r0) p tr) :
    Careful.Kept V M (s0, r0) p tr := by
  refine run.invariant ⟨.start pos s0 r0, ⟨by simp, by simp [Pair.start]⟩, fun _ => ?_, fun _ => .start s0 r0⟩
    fun _ _ _ _ _ h careful hstep => h.step pos acked tagged steady careful hstep
  constructor <;> simp [Pair.start, Pair.Opened]

end Ns3Fancy.Session
