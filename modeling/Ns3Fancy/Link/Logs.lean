import Ns3Fancy.Link.Filter
import Ns3Fancy.Link.Simulation
import Ns3Fancy.Session.Accounts
import Ns3Fancy.Switch.Zoom

/-!
# The logs of a run

A packet is logged with the cells it was counted in. The selections that decide on these do not change before the
session is closed, so all packets of a session were counted by the selections that the sender has when it consumes the
report. Of a consumed report the log has the detections of the exchange, and their paths are in the filter ever after.
-/

namespace Ns3Fancy.Link
open Switch Buffer Function Session
set_option autoImplicit false

section
variable {cfg : FancyConfig} {s s' : System} {F : Bool → List Msg} {d : Bool} {l : Label cfg} {os tr : List Seen}

/-- The session of the tree machine keeps its selections until it is closed. -/
theorem keepsHistory_of_run {ok : Session.Label FiveTuple → MachinePair → Prop} {P P' : MachinePair}
    {obs : List (Obs FiveTuple Report Closing)}
    (run : Lts.Run (Session.step (variant cfg cfg.treeId) (meter cfg cfg.treeId)) ok P P' obs) :
    Keeps (fun x y : Count => SameHistory x.2 y.2) P.s P'.s := by
  refine keeps_of_run (fun _ => .refl _) (fun _ _ _ => .trans) (fun _ => .refl _) (fun k x flow => ?_) run
  simp only [meter, if_true]
  exact (sameHistory_treeCounting _ _ _ _).symm

theorem counted_mem_image (cfg : FancyConfig) {x : Seen} {id k : Nat} {flow : FiveTuple} {cells : List (Nat × Nat)}
    (log : x.log = .counted id k flow cells) (mem : x ∈ tr) :
    .counted k flow x.lost ∈ tr.flatMap (image cfg x.side id) := by
  refine List.mem_flatMap.2 ⟨x, mem, ?_⟩
  simp [image, log, logObs, bySender]

/-- A packet that a step shows as counted for the tree left in that step, by the selections of the sender. -/
theorem Wired.counted_new (w : Wired cfg s F) (hstep : Link.step cfg l s = some (s', os)) {x : Seen} (mem : x ∈ os)
    {k : Nat} {flow : FiveTuple} {cells : List (Nat × Nat)} (log : x.log = .counted cfg.treeId k flow cells) :
    k = ((s.port x.side).greySend.currentSEQ cfg.treeId).toNat ∧
      (s.port x.side).greySend.greyState cfg.treeId = .counting ∧
      cells = countedCells cfg k flow (s.port x.side).greySend.counterTree := by
  obtain ⟨F', -, answers⟩ := w.step hstep
  obtain ⟨label, P, P', obs, cause, hs, shown⟩ :=
    (answers x.side cfg.treeId).mem_trace (counted_mem_image cfg log mem)
  -- only a packet that leaves is counted
  obtain ⟨pkt, earlier, lost, rfl⟩ : ∃ pkt earlier lost, l = .egress x.side pkt earlier lost := by
    cases moves_of_step _ _ hs with
    | egress pkt lost =>
      obtain ⟨p, earlier, same⟩ := cause
      exact ⟨p, earlier, lost, same⟩
    | fireS => simp at shown
    | fireR => simp at shown
    | @deliverF m => cases m <;> simp [Fwd.seen] at shown
    | @deliverB m =>
      have reaction := P.s.reaction (variant cfg cfg.treeId) (meter cfg cfg.treeId) m
      generalize P.s.handle (variant cfg cfg.treeId) (meter cfg cfg.treeId) m = react at *
      cases reaction <;> simp at shown
    | loseF => simp at shown
    | loseB => simp at shown
  obtain ⟨o, run, h⟩ := Option.map_eq_some_iff.1 hstep
  cases h
  obtain ⟨e, logged, same⟩ := List.mem_map.1 mem
  rw [show e = x.log from congrArg Seen.log same, log] at logged
  cases (w.settled x.side).emit run with
  | taken _ _ _ _ quiet =>
    rw [quiet] at logged
    cases logged
  | left _ _ _ _ counted cells_eq =>
    obtain ⟨seq, rfl, same⟩ := cells_eq k flow cells logged
    have phase : (Link.senders cfg (s.port x.side) cfg.treeId).phase = .counting := by
      have here : .counted k (getFlowFiveTuple pkt.val.headers) false ∈ o.log.flatMap (logObs cfg cfg.treeId false) :=
        List.mem_flatMap.2 ⟨_, logged, by simp [logObs]⟩
      rw [counted] at here
      split at here
      · rename_i hit
        exact hit.2
      · cases here
    refine ⟨seq, (sender_counting cfg _ _).2 phase, same.trans ?_⟩
    simp [Link.senders, senderView, count]

/-! ## Sessions by the sender's selections -/

/-- The packets in the trace that were counted for the tree in session `k` at port `d` were counted by the selections
of `tree`. -/
def CountedBy (cfg : FancyConfig) (d : Bool) (k : Nat) (tree : Tree) (tr : List Seen) : Prop :=
  ∀ x ∈ tr, x.side = d → ∀ flow cells, x.log = .counted cfg.treeId k flow cells → cells = countedCells cfg k flow tree

/-- What the trace says about the tree machine at port `d`, whatever is lost: the packets of the current session were
counted by its selections, and every report was exchanged with the selections that its session was counted by. -/
structure Truthful (cfg : FancyConfig) (d : Bool) (s : System) (tr : List Seen) : Prop where
  past : ∀ x ∈ tr, x.side = d → ∀ k flow cells, x.log = .counted cfg.treeId k flow cells →
    k ≤ ((s.port d).greySend.currentSEQ cfg.treeId).toNat ∧ cfg.treeEnabled = true
  current : CountedBy cfg d ((s.port d).greySend.currentSEQ cfg.treeId).toNat (s.port d).greySend.counterTree tr
  consumed : ∀ x ∈ tr, x.side = d → ∀ k localCounter localCells counter records found,
    x.log = .consumed cfg.treeId k localCounter localCells counter records found →
      k < ((s.port d).greySend.currentSEQ cfg.treeId).toNat ∧ HasPaths cfg found (s.port d) ∧
      cfg.climbEnds found = true ∧ cfg.exchangeEnds = true ∧
      ∃ tree, (localCells = fun i => (tree i).counters) ∧ found = (treeExchange cfg k records tree).2 ∧
        CountedBy cfg d k tree tr

/-- A step clears no entry of a filter, and what it logs about a consumed report is true. -/
theorem step_recorded (hstep : Link.step cfg l s = some (s', os)) :
    (∀ d, Grows (s.port d) (s'.port d)) ∧ ∀ x ∈ os, ∀ k localCounter localCells counter records found,
      x.log = .consumed cfg.treeId k localCounter localCells counter records found →
        Reported cfg (s.port x.side) k localCells records found ∧ HasPaths cfg found (s'.port x.side) := by
  -- port `e` did something that ended in `o`
  have moved : ∀ (e : Bool) (p : FancyPortInfo) (o : Outcome) (lost : Bool), p.reroute = (s.port e).reroute →
      p.greySend = (s.port e).greySend → Recorded cfg p o → s'.port = update s.port e o.port → os = o.seen e lost →
      (∀ d, Grows (s.port d) (s'.port d)) ∧ ∀ x ∈ os, ∀ k localCounter localCells counter records found,
        x.log = .consumed cfg.treeId k localCounter localCells counter records found →
          Reported cfg (s.port x.side) k localCells records found ∧ HasPaths cfg found (s'.port x.side) := by
    intro e p o lost filter send recorded ports seen
    constructor
    · intro d
      rw [ports]
      by_cases here : d = e
      · subst here
        rw [update_self]
        exact (Grows.of_eq filter).trans recorded.grows
      · rw [update_of_ne here]
        exact .of_eq rfl
    · intro x mem k localCounter localCells counter records found log
      rw [seen] at mem
      obtain ⟨entry, logged, rfl⟩ := List.mem_map.1 mem
      simp only at log ⊢
      subst log
      obtain ⟨⟨current, cells, exchange, climbs, bounded⟩, paths⟩ := recorded.consumed _ _ _ _ _ _ logged
      rw [send] at current cells exchange
      rw [ports, update_self]
      exact ⟨⟨current, cells, exchange, climbs, bounded⟩, paths⟩
  cases l with
  | fire e i =>
    obtain ⟨⟨u, ev⟩, -, h⟩ := Option.bind_eq_some_iff.1 hstep
    obtain ⟨o, run, h⟩ := Option.map_eq_some_iff.1 h
    cases h
    refine moved e _ o false ?_ ?_ (runEvent_recorded run) rfl rfl <;> rfl
  | probe e =>
    cases hstep
    exact ⟨fun d => .of_eq rfl, fun x mem => by cases mem⟩
  | egress e pkt earlier lost =>
    obtain ⟨o, run, h⟩ := Option.map_eq_some_iff.1 hstep
    cases h
    refine moved e _ o lost rfl rfl (emit_recorded run) ?_ rfl
    simp only [System.after]
    split <;> rfl
  | deliver e =>
    simp only [Link.step] at hstep
    split at hstep
    · cases hstep
    · obtain ⟨o, run, h⟩ := Option.map_eq_some_iff.1 hstep
      cases h
      exact moved (!e) _ o false rfl rfl (receive_recorded run) rfl rfl
  | lose e i =>
    cases hstep
    exact ⟨fun d => .of_eq rfl, fun x mem => by cases mem⟩

theorem consumed_mem_trace (cfg : FancyConfig) {x : Seen} {id k : Nat} {localCounter counter : UInt64}
    {localCells : Nat → Nat → UInt32} {records : List (Nat × List UInt32)} {found : List Detection}
    (log : x.log = .consumed id k localCounter localCells counter records found) (mem : x ∈ tr) :
    .consumed k (counter, records) [⟨localCounter, if id = cfg.treeId then localCells else fun _ _ => 0, found⟩] ∈
      tr.flatMap (image cfg x.side id) := by
  refine List.mem_flatMap.2 ⟨x, mem, ?_⟩
  simp [image, log, logObs, bySender]

theorem Truthful.step (h : Truthful cfg d s tr) (w : Wired cfg s F) (hstep : Link.step cfg l s = some (s', os)) :
    Truthful cfg d s' (tr ++ os) := by
  obtain ⟨F', -, answers⟩ := w.step hstep
  obtain ⟨up, same⟩ := keepsHistory_of_run (answers d cfg.treeId)
  simp only [view, Link.senders, senderView, count, if_true] at up same
  obtain ⟨grows, logged⟩ := step_recorded hstep
  constructor
  · intro x mem side k flow cells log
    rcases List.mem_append.1 mem with old | new
    · obtain ⟨le, enabled⟩ := h.past x old side k flow cells log
      exact ⟨Nat.le_trans le up, enabled⟩
    · obtain ⟨here, counting, -⟩ := w.counted_new hstep new log
      have started := ((w.settled x.side).sendState cfg.treeId).2 (by rw [counting]; decide)
      rw [side] at here
      exact ⟨by omega, started_tree started⟩
  · intro x mem side flow cells log
    rcases List.mem_append.1 mem with old | new
    · have before := (h.past x old side _ flow cells log).1
      have stays : ((s.port d).greySend.currentSEQ cfg.treeId).toNat = ((s'.port d).greySend.currentSEQ cfg.treeId).toNat := by
        omega
      rw [← stays] at log ⊢
      rw [h.current x old side flow cells log]
      exact countedCells_congr (same stays) _ _
    · obtain ⟨here, -, cells_eq⟩ := w.counted_new hstep new log
      rw [side] at here cells_eq
      rw [cells_eq]
      exact countedCells_congr (same here.symm) _ _
  · intro x mem side k localCounter localCells counter records found log
    rcases List.mem_append.1 mem with old | new
    · obtain ⟨less, paths, climbs, bounded, tree, cells, exchange, counted⟩ :=
        h.consumed x old side k localCounter localCells counter records found log
      refine ⟨Nat.lt_of_lt_of_le less up, paths.grows (grows d), climbs, bounded, tree, cells, exchange, ?_⟩
      intro y mem' side' flow cells' log'
      rcases List.mem_append.1 mem' with old' | new'
      · exact counted y old' side' flow cells' log'
      · obtain ⟨here, -, -⟩ := w.counted_new hstep new' log'
        rw [side'] at here
        omega
    · obtain ⟨reported, paths⟩ := logged x new k localCounter localCells counter records found log
      have less := consumed_lt_of_run (answers x.side cfg.treeId) (consumed_mem_trace cfg log new)
      subst side
      refine ⟨less, paths, reported.climbs, reported.bounded, _, reported.cells, reported.exchange, ?_⟩
      intro y mem' side' flow cells' log'
      rcases List.mem_append.1 mem' with old' | new'
      · rw [reported.current] at log' ⊢
        exact h.current y old' side' flow cells' log'
      · obtain ⟨here, -, cells_eq⟩ := w.counted_new hstep new' log'
        rw [side'] at cells_eq
        exact cells_eq

/-- Every run is truthful. -/
theorem truthful_of_run {ok : Label cfg → System → Prop} (d : Bool)
    (run : Lts.Run (Link.step cfg) ok (System.start cfg) s tr) : Truthful cfg d s tr := by
  have both : (∃ F, Wired cfg s F) ∧ Truthful cfg d s tr := by
    refine run.invariant (I := fun s tr => (∃ F, Wired cfg s F) ∧ Truthful cfg d s tr) ⟨⟨_, wired_start cfg⟩, ?_⟩ ?_
    · constructor
      · simp
      · intro x mem
        cases mem
      · simp
    · rintro t u tr os l ⟨⟨F, w⟩, h⟩ - hstep
      obtain ⟨F', w', -⟩ := w.step hstep
      exact ⟨⟨F', w'⟩, h.step w hstep⟩
  exact both.2

end

end Ns3Fancy.Link
