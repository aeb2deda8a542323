import Ns3Fancy.LossRadar.Batches

/-!
# What the controller sees

When a call of the controller is due, the difference of the two sides' registers is the filter of
exactly the packets of the batch that are gone. Packets the traffic manager drops are among them:
they were metered before they were dropped.
-/

namespace Ns3Fancy.LossRadar
open Switch Function
set_option autoImplicit false

section
variable {cfg : LossRadarConfig}

/-! ## The difference when a batch is due -/

/-- When a batch is due, what has not arrived is gone. -/
theorem Isolated.arrived_eq {c : Channel} {ns : List Note} (h : Isolated cfg c ns)
    (timely : ∀ f ∈ c.wire, c.now < f.sent + cfg.batchTime / 2) {batch : UInt8} (due : (c.now, batch) ∈ c.controllers) :
    arrivedFlows c.wire ns batch = flowsWhere (fun u => ¬u ∈ goneUids ns) (sinceRead batch ns) := by
  refine flowsWhere_congr fun x entry => ?_
  have landed : x.1 ∉ c.wire.map (·.uid) := by
    intro flying
    obtain ⟨f, mem, same⟩ := List.mem_map.1 flying
    obtain ⟨ip, here, -⟩ := (h.numbered.tagged f mem batch x.2).1 (by rw [same]; exact entry)
    exact h.scheduled.arrived timely due f mem ip here
  simp [landed]

/-- The packets metered into a batch since it was last read that are gone. -/
def goneFlows (ns : List Note) (batch : UInt8) : Multiset FiveTuple := flowsAmong (goneUids ns) (sinceRead batch ns)

theorem Isolated.split {c : Channel} {ns : List Note} (h : Isolated cfg c ns)
    (timely : ∀ f ∈ c.wire, c.now < f.sent + cfg.batchTime / 2) {batch : UInt8} (due : (c.now, batch) ∈ c.controllers) :
    ((((sinceRead batch ns).map (·.2) : List FiveTuple)) : Multiset FiveTuple) =
      arrivedFlows c.wire ns batch + goneFlows ns batch := by
  rw [h.arrived_eq timely due]
  exact flowsWhere_split _ _

/-- **The difference of the registers** of a batch that is due is the filter of what is gone. -/
theorem Isolated.difference {c : Channel} {ns : List Note} (h : Isolated cfg c ns)
    (timely : ∀ f ∈ c.wire, c.now < f.sent + cfg.batchTime / 2) {batch : UInt8} (due : (c.now, batch) ∈ c.controllers) :
    difference cfg (c.um batch) (c.dm batch) = registersOf cfg (goneFlows ns batch) := by
  rw [h.um, h.dm, h.split timely due]
  exact difference_registersOf cfg _ _

/-- No subtraction wraps while the counters themselves do not. -/
theorem Isolated.counter_le {c : Channel} {ns : List Note} (h : Isolated cfg c ns)
    (timely : ∀ f ∈ c.wire, c.now < f.sent + cfg.batchTime / 2) {batch : UInt8} (due : (c.now, batch) ∈ c.controllers)
    (small : cfg.numHashes * (sinceRead batch ns).length < 2 ^ 32) (i : Nat) :
    (c.dm batch i).pktCounter ≤ (c.um batch i).pktCounter := by
  have split := h.split timely due
  have all : cfg.numHashes * (arrivedFlows c.wire ns batch + goneFlows ns batch).card < 2 ^ 32 := by
    rw [← split, Multiset.coe_card, List.length_map]
    exact small
  have arrived : cfg.numHashes * (arrivedFlows c.wire ns batch).card < 2 ^ 32 := by
    refine Nat.lt_of_le_of_lt (Nat.mul_le_mul_left _ ?_) all
    rw [Multiset.card_add]
    exact Nat.le_add_right _ _
  rw [UInt32.le_iff_toNat_le, h.um, h.dm, split, toNat_pktCounter cfg all, toNat_pktCounter cfg arrived, Ibf.occ_add]
  exact Nat.le_add_right _ _

/-! ## Without congestion -/

/-- The traffic manager drops nothing when its rate is zero. -/
theorem Channel.Moves.not_congested {c c' : Channel} {ms : List Note} (moves : c.Moves cfg c' ms) (rate : cfg.tmDropRate = 0) :
    congestedUids ms = [] := by
  cases moves with
  | send pkt => cases ip : pkt.ipv4 <;> simp [congestedUids]
  | congested pkt positive => simp [rate] at positive
  | idle => rfl
  | tick => rfl
  | deliver => rfl
  | lose => rfl
  | update => rfl
  | read => rfl

theorem not_congested_of_run (rate : cfg.tmDropRate = 0) {ok : Label → System → Prop} {first : Bool → Nat} {s : System}
    {tr : List Seen} (run : Lts.Run (step cfg) ok (System.start first) s tr) (d : Bool) :
    congestedUids (notes d tr) = [] := by
  refine run.invariant (I := fun _ tr => congestedUids (notes d tr) = []) rfl ?_
  intro t u tr os l kept _ moved
  rw [notes_append, congestedUids, List.filterMap_append]
  exact List.append_eq_nil_iff.2 ⟨kept, (moves_of_step moved d).not_congested rate⟩

variable (cfg)

/-- **Batch isolation.** Whenever the controller is due for a batch, the difference of the registers is the filter of
exactly the packets metered into the batch since its last read that were lost on the link. No subtraction of counters
wraps if fewer than `2 ^ 32` hits were metered. -/
theorem batch_isolation (two : 2 ≤ cfg.numBatches) (few : cfg.numBatches ≤ 16) (rate : cfg.tmDropRate = 0)
    (first : Bool → Nat) (s : System) (tr : List Seen)
    (run : Lts.Run (step cfg) (fun _ => Timely cfg) (System.start first) s tr) (timely : Timely cfg s) (d : Bool)
    (batch : UInt8) (due : s.Due d batch) :
    difference cfg ((s.port d).um batch) ((s.port !d).dm batch) =
        registersOf cfg (flowsAmong (lostUids (notes d tr)) (sinceRead batch (notes d tr))) ∧
      (cfg.numHashes * (sinceRead batch (notes d tr)).length < 2 ^ 32 →
        ∀ i, ((s.port !d).dm batch i).pktCounter ≤ ((s.port d).um batch i).pktCounter) := by
  have h := isolated_of_run two few run d
  have gone : goneUids (notes d tr) = lostUids (notes d tr) := by
    rw [goneUids, not_congested_of_run rate run d, List.append_nil]
  have diff := h.difference (timely d) due
  rw [goneFlows, gone] at diff
  exact ⟨diff, fun small i => h.counter_le (timely d) due small i⟩

/-! ### A packet lost, and a counter that overflows -/

instance (s : System) : Decidable (Timely cfg s) :=
  inferInstanceAs (Decidable (∀ d, ∀ e ∈ s.wire d, s.now < e.sent + cfg.batchTime / 2))

instance (s : System) (d : Bool) (batch : UInt8) : Decidable (s.Due d batch) :=
  inferInstanceAs (Decidable ((s.now, batch) ∈ s.controllers d))

/-- To the first call of the controller: both first updates are at time 2. -/
def toFirstRead : List Label := [.tick, .tick, .updateBatchId true, .updateBatchId false, .tick]

/-- The runs of the checked step function. -/
def timelyExec (labels : List Label) (s : System) : Option (System × List Seen) :=
  Lts.exec (fun l s => if Timely cfg s then step cfg l s else none) labels s

variable {cfg}

/-- What holds of the result of a checked run holds of a run. -/
theorem exists_run {labels : List Label} {s : System} {p : System × List Seen → Bool}
    (found : (timelyExec cfg labels s).any p = true) :
    ∃ r : System × List Seen, Lts.Run (step cfg) (fun _ => Timely cfg) s r.1 r.2 ∧ p r = true := by
  obtain ⟨r, computed, holds⟩ := Option.any_eq_true _ _ |>.1 found
  exact ⟨r, Lts.Run.of_guarded computed, holds⟩

theorem batch_isolation_one :
    ∃ s tr, Lts.Run (step byteConfig) (fun _ => Timely byteConfig) (System.start fun _ => 2) s tr ∧
      s.Due true 0 ∧ lostUids (notes true tr) = [0] ∧
      difference byteConfig ((s.port true).um 0) ((s.port false).dm 0) =
        registersOf byteConfig (flowsAmong (lostUids (notes true tr)) (sinceRead 0 (notes true tr))) := by
  have found : (timelyExec byteConfig ([.enter true { flow := { srcIp := 1 } } false, .lose true 0] ++ toFirstRead)
      (System.start fun _ => 2)).any (fun r => decide (Timely byteConfig r.1 ∧ r.1.Due true 0 ∧
        lostUids (notes true r.2) = [0])) = true := by
    decide
  obtain ⟨⟨s, tr⟩, run, holds⟩ := exists_run found
  obtain ⟨timely, due, lost⟩ := of_decide_eq_true holds
  exact ⟨s, tr, run, due, lost,
    (batch_isolation byteConfig (by decide) (by decide) rfl _ s tr run timely true 0 due).1⟩

/-! Every choice of packets and of those delivered can be what the first read finds. -/

/-- The packets of the list have left at time 0; those marked have arrived, the others are lost. -/
structure Crossed (cfg : LossRadarConfig) (packets : List (FiveTuple × Bool)) (s : System) : Prop where
  now : s.now = 0
  nextUpdate : ∀ d, s.nextUpdate d = 2
  controllers : ∀ d, s.controllers d = []
  wire : ∀ d, s.wire d = []
  current : (s.port true).currentBatchId = 0
  um : (s.port true).um 0 = meterAll cfg (packets.map (·.1))
  dm : (s.port false).dm 0 = meterAll cfg ((packets.filter (·.2)).map (·.1))

theorem meterAll_snoc (packets : List FiveTuple) (flow : FiveTuple) :
    meter flow (cfg.getMeterHashIndexes flow) (meterAll cfg packets) = meterAll cfg (packets ++ [flow]) := by
  rw [meterAll, meterAll, List.foldl_append]
  rfl

theorem timely_empty {s : System} (empty : ∀ d, s.wire d = []) : Timely cfg s := fun d f mem => by
  rw [empty d] at mem
  cases mem

theorem Crossed.sent {packets : List (FiveTuple × Bool)} {s : System} (h : Crossed cfg packets s) (flow : FiveTuple) :
    ∃ s' os f, step cfg (.enter true { flow := flow } false) s = some (s', os) ∧ s'.now = 0 ∧
      (∀ d, s'.nextUpdate d = 2) ∧ (∀ d, s'.controllers d = []) ∧ s'.wire true = [f] ∧ s'.wire false = [] ∧ f.sent = 0 ∧
      f.packet = { flow := flow } ∧ (s'.port true).currentBatchId = 0 ∧
      (s'.port true).um 0 = meterAll cfg (packets.map (·.1) ++ [flow]) ∧ (s'.port false).dm 0 = (s.port false).dm 0 := by
  have zero : setTosHi 0 0 = 0 := by decide
  refine ⟨_, _, ⟨s.nextUid true, s.now, withBatch { flow := flow } (s.port true).currentBatchId⟩, rfl, h.now, h.nextUpdate,
    h.controllers, ?_, ?_, h.now, ?_, ?_, ?_, ?_⟩
  · simp [h.wire, doIngress_eq]
  · simp [h.wire]
  · simp [h.current, withBatch, zero]
  · simp [doIngress_eq, h.current]
  · simp [doIngress_eq, h.current, metered, h.um, meterAll_snoc]
  · simp

/-- One more packet crosses the link, or is lost on it. -/
theorem Crossed.next {packets : List (FiveTuple × Bool)} {s : System} (h : Crossed cfg packets s) (time : cfg.batchTime = 2)
    (flow : FiveTuple) (arrives : Bool) :
    ∃ s' tr, Lts.Run (step cfg) (fun _ => Timely cfg) s s' tr ∧ Crossed cfg (packets ++ [(flow, arrives)]) s' := by
  obtain ⟨t, os, f, entered, now, nextUpdate, controllers, flying, none, sent, packet, current, um, dm⟩ := h.sent flow
  have timely : Timely cfg t := by
    intro d g mem
    cases d with
    | false => rw [none] at mem; cases mem
    | true =>
      rw [flying, List.mem_singleton] at mem
      rw [mem, now, sent, time]
      decide
  obtain ⟨s', os', l, moved, crossed⟩ : ∃ s' os' l, step cfg l t = some (s', os') ∧
      Crossed cfg (packets ++ [(flow, arrives)]) s' := by
    cases arrives with
    | false =>
      refine ⟨{ t with wire := update t.wire true [] }, _, .lose true 0, by simp only [step, flying]; rfl, now, nextUpdate,
        controllers, ?_, current, ?_, ?_⟩
      · intro d
        cases d <;> simp [none]
      · simp [um]
      · simp [dm, h.dm]
    | true =>
      have delivered : ∃ s' os', step cfg (.deliver true 0 Option.none) t = some (s', os') ∧
          Crossed cfg (packets ++ [(flow, true)]) s' := by
        simp only [step, flying, List.getElem?_cons_zero, Option.bind_some]
        refine ⟨_, _, rfl, now, nextUpdate, controllers, ?_, ?_, ?_, ?_⟩
        · intro d
          cases d <;> simp [none]
        · simp [current]
        · simp [um]
        · simp [doIngress_eq, packet, metered, dm, h.dm, meterAll_snoc, getTosHi]
      obtain ⟨s', os', moved, crossed⟩ := delivered
      exact ⟨s', os', _, moved, crossed⟩
  have first : Lts.Run (step cfg) (fun _ => Timely cfg) s t os := .single (timely_empty h.wire) entered
  exact ⟨s', os ++ os', first.snoc timely moved, crossed⟩

theorem crossed_run (time : cfg.batchTime = 2) (packets : List (FiveTuple × Bool)) :
    ∃ s tr, Lts.Run (step cfg) (fun _ => Timely cfg) (System.start fun _ => 2) s tr ∧ Crossed cfg packets s := by
  induction packets using List.reverseRecOn with
  | nil => exact ⟨_, _, .nil, rfl, fun _ => rfl, fun _ => rfl, fun _ => rfl, rfl, rfl, rfl⟩
  | append_singleton packets last ih =>
    obtain ⟨s, tr, run, crossed⟩ := ih
    obtain ⟨s', tr', more, next⟩ := crossed.next time last.1 last.2
    exact ⟨s', tr ++ tr', run.trans more, next⟩

/-- From time 0 with nothing planned and nothing in flight to the first call of the controller. -/
theorem Crossed.toFirstRead {packets : List (FiveTuple × Bool)} {s : System} (h : Crossed cfg packets s)
    (time : cfg.batchTime = 2) :
    ∃ s', Lts.Run (step cfg) (fun _ => Timely cfg) s s' [] ∧ s'.Due true 0 ∧ Timely cfg s' ∧
      (s'.port true).um = (s.port true).um ∧ (s'.port false).dm = (s.port false).dm := by
  have first : step cfg .tick s = some ({ s with now := 1 }, []) := by
    simp [step, h.now, h.nextUpdate, h.controllers]
  have second : step cfg .tick { s with now := 1 } = some ({ s with now := 2 }, []) := by
    simp [step, h.nextUpdate, h.controllers]
  obtain ⟨t, updated, ht⟩ : ∃ t, step cfg (.updateBatchId true) { s with now := 2 } = some (t, []) ∧
      t = { s with
        now := 2
        port := update s.port true { s.port true with currentBatchId := nextBatch cfg (s.port true).currentBatchId }
        nextUpdate := update s.nextUpdate true 4
        controllers := update s.controllers true [(3, 0)] } := by
    simp [step, h.nextUpdate, h.controllers, h.current, time]
  obtain ⟨u, updated', hu⟩ : ∃ u, step cfg (.updateBatchId false) t = some (u, []) ∧
      u.now = 2 ∧ (∀ d, u.nextUpdate d = 4) ∧ u.controllers true = [(3, 0)] ∧ (∃ b, u.controllers false = [(3, b)]) ∧
      (∀ d, u.wire d = []) ∧ (u.port true).um = (s.port true).um ∧ (u.port false).dm = (s.port false).dm := by
    simp [ht, step, h.nextUpdate, h.controllers, time, h.wire]
  obtain ⟨now', nextUpdate', controllers', ⟨b, controllers''⟩, empty', um, dm⟩ := hu
  have last : step cfg .tick u = some ({ u with now := 3 }, []) := by
    simp [step, now', nextUpdate', controllers', controllers'']
  have timely : Timely cfg t := timely_empty (by rw [ht]; exact h.wire)
  have r1 : Lts.Run (step cfg) (fun _ => Timely cfg) s _ [] := .single (timely_empty h.wire) first
  have r2 : Lts.Run (step cfg) (fun _ => Timely cfg) s _ [] := r1.snoc (timely_empty h.wire) second
  have r3 : Lts.Run (step cfg) (fun _ => Timely cfg) s t [] := r2.snoc (timely_empty h.wire) updated
  have r4 : Lts.Run (step cfg) (fun _ => Timely cfg) s u [] := r3.snoc timely updated'
  have r5 : Lts.Run (step cfg) (fun _ => Timely cfg) s { u with now := 3 } [] := r4.snoc (timely_empty empty') last
  refine ⟨_, r5, ?_, timely_empty empty', um, dm⟩
  simp [System.Due, controllers']

/-- The first read may find any packets metered, and any of them arrived. -/
theorem read_run (time : cfg.batchTime = 2) (packets : List (FiveTuple × Bool)) :
    ∃ s tr, Lts.Run (step cfg) (fun _ => Timely cfg) (System.start fun _ => 2) s tr ∧ Timely cfg s ∧ s.Due true 0 ∧
      (s.port true).um 0 = meterAll cfg (packets.map (·.1)) ∧
      (s.port false).dm 0 = meterAll cfg ((packets.filter (·.2)).map (·.1)) := by
  obtain ⟨s, tr, run, crossed⟩ := crossed_run time packets
  obtain ⟨s', more, due, timely, um, dm⟩ := crossed.toFirstRead time
  exact ⟨s', tr ++ [], run.trans more, timely, due, by rw [um]; exact crossed.um, by rw [dm]; exact crossed.dm⟩

theorem counter_copies (n : Nat) : (meterAll oneCell (copies n) 0).pktCounter = .ofNat n := by
  have once : (oneCell.getMeterHashIndexes {}).count 0 = 1 := by decide
  rw [meterAll_eq, copies, Multiset.coe_replicate]
  simp only [registersOf, occ_replicate, once, Nat.mul_one]

/-- `n` copies of the all-zero packet that arrive, and one that is lost. -/
def allButOne (n : Nat) : List (FiveTuple × Bool) := List.replicate n (0, true) ++ [(0, false)]

theorem allButOne_eq (n : Nat) :
    (allButOne n).map (·.1) = copies (n + 1) ∧ ((allButOne n).filter (·.2)).map (·.1) = copies n := by
  constructor
  · rw [allButOne, List.map_append, List.map_replicate, copies, List.replicate_succ']
    rfl
  · rw [allButOne, List.filter_append, List.filter_replicate_of_pos rfl, List.map_append, List.map_replicate]
    exact List.append_nil _

/-- After `2 ^ 32` packets in a batch, all but one of them delivered, the sender's counter is below the receiver's. -/
theorem not_isolated_overflow :
    ∃ s tr, Lts.Run (step oneCell) (fun _ => Timely oneCell) (System.start fun _ => 2) s tr ∧ Timely oneCell s ∧
      s.Due true 0 ∧ ((s.port true).um 0 0).pktCounter < ((s.port false).dm 0 0).pktCounter := by
  obtain ⟨s, tr, run, timely, due, um, dm⟩ := @read_run oneCell rfl (allButOne (2 ^ 32 - 1))
  refine ⟨s, tr, run, timely, due, ?_⟩
  obtain ⟨up, down⟩ := allButOne_eq (2 ^ 32 - 1)
  rw [um, dm, up, down, counter_copies, counter_copies]
  decide

end

end Ns3Fancy.LossRadar
