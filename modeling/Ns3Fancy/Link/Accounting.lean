import Ns3Fancy.Link.Lockstep

/-!
# Exact loss accounting

Without control loss, the report that a sender consumes leaves exactly the packets of the session that were lost between
its counter and the reported one, for the tree in pipelined mode in every cell. Counters wrap at their widths, so the
difference is exact in their arithmetic and is the number itself as long as the session is not longer than that.
-/

namespace Ns3Fancy.Link
open Switch Buffer Function Session
set_option autoImplicit false

/-! ## The packets of a session in a trace -/

/-- The packet that an entry counts for session `k` of machine `id` at port `d`. -/
def packetOf (d : Bool) (id k : Nat) (x : Seen) : Option (FiveTuple × Bool) :=
  match x.log with
  | .counted i q flow _ => if x.side = d ∧ i = id ∧ q = k then some (flow, x.lost) else none
  | _ => none

/-- The packets counted for a session, and those of them that were lost. -/
def countedPackets (d : Bool) (id k : Nat) (tr : List Seen) : Nat := tr.countP fun x => (packetOf d id k x).isSome
def lostPackets (d : Bool) (id k : Nat) (tr : List Seen) : Nat := tr.countP fun x => (packetOf d id k x).any (·.2)

/-- An entry counts a packet in a cell of the tree. -/
def countsCell (cell : Nat × Nat) (x : Seen) : Bool :=
  match x.log with
  | .counted _ _ _ cells => decide (cell ∈ cells)
  | _ => false

/-- The packets of a session that were counted in a cell and lost. -/
def lostInCell (d : Bool) (id k : Nat) (cell : Nat × Nat) (tr : List Seen) : Nat :=
  tr.countP fun x => (packetOf d id k x).any (·.2) && countsCell cell x

/-- A detection that says that traffic is lost. -/
def Detection.isFailure : Detection → Bool
  | .collision _ _ _ _ => false
  | _ => true

/-- A counter, what the report has for it and the number of lost packets: exact in the arithmetic of the counter, and as
numbers if fewer than `bound` packets were counted. -/
structure Exact (cfg : FancyConfig) (bound counted lost : Nat) (own reported difference : Nat) : Prop where
  modulo : difference = lost % bound
  number : counted < bound → reported ≤ own ∧ own - reported = lost ∧ cost cfg.costType difference own ≠ ⊤

/-- What a consumed report says about its session. -/
structure Accounted (cfg : FancyConfig) (d : Bool) (id k : Nat) (n r : UInt64) (cells : Nat → Nat → UInt32)
    (records : List (Nat × List UInt32)) (found : List Detection) (tr : List Seen) : Prop where
  counter : Exact cfg (2 ^ 64) (countedPackets d id k tr) (lostPackets d id k tr) n.toNat r.toNat (n - r).toNat
  tree : id = cfg.treeId → cfg.pipeline = true → ∀ i, i < cfg.nodesInTree → ∀ j, j < cfg.counterWidth →
    ∃ row m, (i, row) ∈ records ∧ row[j]? = some m ∧
      Exact cfg (2 ^ 32) (countedPackets d id k tr) (lostInCell d id k (i, j) tr) (cells i j).toNat m.toNat
        (cells i j - m).toNat
  quiet : 0 ≤ cfg.rerouteMinCost → lostPackets d id k tr = 0 → ∀ x ∈ found, Detection.isFailure x = false

section
variable {cfg : FancyConfig} {s : System} {tr : List Seen} {d : Bool} {id k : Nat}

theorem packetsOf_eq : packetsOf cfg d id tr k = tr.filterMap (packetOf d id k) := by
  have one : ∀ x : Seen, sessionPackets (image cfg d id x) k = (packetOf d id k x).toList := by
    rintro ⟨side, log, lost⟩
    cases log with
    | counted i q flow cells =>
      by_cases here : i = id
      · subst here
        by_cases same : side = d
        · subst same
          by_cases number : q = k <;> simp [image, logObs, bySender, sessionPackets, packetOf, number]
        · simp [image, logObs, bySender, sessionPackets, packetOf, same]
      · simp [image, logObs, sessionPackets, packetOf, here]
    | consumed | gotStop | reported =>
      simp only [image, logObs, packetOf, Option.toList_none, sessionPackets, List.filterMap_eq_nil_iff, List.mem_filter]
      rintro o ⟨mem, -⟩
      split at mem
      · obtain rfl := List.mem_singleton.1 mem
        rfl
      · cases mem
  induction tr with
  | nil => rfl
  | cons x tr ih =>
    have split : packetsOf cfg d id (x :: tr) k = sessionPackets (image cfg d id x) k ++ packetsOf cfg d id tr k := by
      simp [packetsOf]
    rw [split, one, ih]
    cases packet : packetOf d id k x <;> simp [packet]

theorem countedPackets_eq : countedPackets d id k tr = (packetsOf cfg d id tr k).length := by
  rw [packetsOf_eq, countedPackets, List.length_filterMap_eq_countP]

theorem lostPackets_eq : lostPackets d id k tr = (lostFlows (packetsOf cfg d id tr k)).length := by
  rw [packetsOf_eq, lostPackets, lostFlows, List.length_map, ← List.countP_eq_length_filter, List.countP_filterMap]
  refine List.countP_congr fun x _ => ?_
  cases packetOf d id k x <;> rfl

/-- The packets of a cell by the selections that the session was counted by. -/
theorem lostInCell_eq {trees : Trees} (counted : CountedBy cfg d k trees.1 tr) (i j : Nat) :
    lostInCell d cfg.treeId k (i, j) tr = cellHits cfg k trees i j (lostFlows (packetsOf cfg d cfg.treeId tr k)) := by
  rw [packetsOf_eq, lostInCell, cellHits, hits, lostFlows, List.countP_map, List.countP_filter, List.countP_filterMap]
  refine List.countP_congr fun x mem => ?_
  obtain ⟨side, log, lost⟩ := x
  cases log with
  | counted a q flow cells =>
    simp only [packetOf, countsCell]
    by_cases here : side = d ∧ a = cfg.treeId ∧ q = k
    · obtain ⟨rfl, rfl, rfl⟩ := here
      rw [counted _ mem rfl flow cells rfl]
      simp [and_comm]
    · simp [here]
  | consumed | gotStop | reported => simp [packetOf]

/-! ## Arithmetic -/

/-- Two counters that were counted up, one of them without the lost packets. -/
theorem exact_of_counts {bound counted lost arrived : Nat} (split : counted = arrived + lost)
    {own reported difference : Nat} (ownEq : own = counted % bound) (reportedEq : reported = arrived % bound)
    (differenceEq : difference = lost % bound) {total : Nat} (le : counted ≤ total) :
    Exact cfg bound total lost own reported difference := by
  refine ⟨differenceEq, fun small => ?_⟩
  have small' : counted < bound := Nat.lt_of_le_of_lt le small
  rw [Nat.mod_eq_of_lt small'] at ownEq
  rw [Nat.mod_eq_of_lt (by omega)] at reportedEq differenceEq
  refine ⟨by omega, by omega, ?_⟩
  unfold cost
  cases cfg.costType with
  | absolute => exact WithTop.coe_ne_top
  | relative =>
    simp only
    split
    · exact WithTop.coe_ne_top
    · rw [if_neg (by omega)]
      exact WithTop.coe_ne_top

theorem sent_eq (c : Packets) : c.length = (arrivedFlows c).length + (lostFlows c).length := by
  induction c with
  | nil => rfl
  | cons e c ih =>
    obtain ⟨flow, lost⟩ := e
    simp only [arrivedFlows, lostFlows] at ih ⊢
    cases lost <;> simp [ih] <;> omega

/-! ## Accounting -/

section
variable {x : Seen} {n r : UInt64} {cells : Nat → Nat → UInt32} {records : List (Nat × List UInt32)}
variable {found : List Detection}

theorem Synchronous.accounted_counter (h : Synchronous cfg x.side id tr) (mem : x ∈ tr)
    (log : x.log = .consumed id k n cells r records found) :
    Exact cfg (2 ^ 64) (countedPackets x.side id k tr) (lostPackets x.side id k tr) n.toNat r.toNat (n - r).toNat := by
  obtain ⟨own, reported, -⟩ := h.counters mem log
  have split := sent_eq (packetsOf cfg x.side id tr k)
  rw [@countedPackets_eq cfg, @lostPackets_eq cfg]
  refine exact_of_counts split ?_ ?_ ?_ (Nat.le_refl _)
  · rw [own, UInt64.toNat_ofNat']
  · rw [reported, UInt64.toNat_ofNat']
  · rw [own, reported, split, UInt64.ofNat_add, UInt64.add_comm, UInt64.add_sub_cancel, UInt64.toNat_ofNat']

theorem Synchronous.accounted_cell (h : Synchronous cfg x.side cfg.treeId tr) (mem : x ∈ tr)
    (log : x.log = .consumed cfg.treeId k n cells r records found) (pipelined : cfg.pipeline = true) {i j : Nat}
    (node : i < cfg.nodesInTree) (cell : j < cfg.counterWidth) :
    ∃ row m, (i, row) ∈ records ∧ row[j]? = some m ∧ Exact cfg (2 ^ 32) (countedPackets x.side cfg.treeId k tr)
      (lostInCell x.side cfg.treeId k (i, j) tr) (cells i j).toNat m.toNat (cells i j - m).toNat := by
  obtain ⟨sent, reported, -, counted⟩ := h.trees mem log
  have fresh := pipelined_fresh pipelined (packetsOf cfg x.side cfg.treeId tr) k node
  have aligned := @treesAt_aligned cfg (packetsOf cfg x.side cfg.treeId tr) k
  obtain ⟨own, other⟩ := fresh.counters aligned (packetsOf cfg x.side cfg.treeId tr k) j
  let received := (meteredTrees cfg k (packetsOf cfg x.side cfg.treeId tr k)
    (treesAt cfg (packetsOf cfg x.side cfg.treeId tr) k)).2
  refine ⟨reportRow cfg received i, (received i).counters j, ?_, ?_, ?_⟩
  · rw [reported]
    exact List.mem_map.2 ⟨i, List.mem_range.2 node, rfl⟩
  · simp only [reportRow, List.getElem?_map, List.getElem?_range cell, Option.map_some]
  · have difference := fresh.difference aligned (packetsOf cfg x.side cfg.treeId tr k) j
    rw [lostInCell_eq counted, @countedPackets_eq cfg]
    subst sent
    refine exact_of_counts (hits_sent _ i j _) ?_ ?_ ?_ ?_
    · exact (congrArg UInt32.toNat own).trans UInt32.toNat_ofNat'
    · exact (congrArg UInt32.toNat other).trans UInt32.toNat_ofNat'
    · exact (congrArg UInt32.toNat difference).trans UInt32.toNat_ofNat'
    · refine Nat.le_trans List.countP_le_length ?_
      simp [sentFlows]

theorem Synchronous.accounted_quiet (h : Synchronous cfg x.side id tr) (truthful : Truthful cfg x.side s tr) (mem : x ∈ tr)
    (log : x.log = .consumed id k n cells r records found) (nonneg : 0 ≤ cfg.rerouteMinCost)
    (lossless : lostPackets x.side id k tr = 0) : ∀ y ∈ found, Detection.isFailure y = false := by
  rw [@lostPackets_eq cfg, List.length_eq_zero_iff] at lossless
  by_cases isTree : id = cfg.treeId
  · subst isTree
    obtain ⟨-, -, climbEnds, ends, -⟩ := truthful.consumed x mem rfl _ _ _ _ _ _ log
    have deep := (FancyConfig.exchangeEnds_bounds ends).1
    have detections := (h.trees mem log).detections
    by_cases climbs : cfg.pipeline = true ∨ 1 ≤ cfg.layerSplit ∨ cfg.treeDepth ≤ 1
    · rw [detections, closedTree_quiet deep nonneg climbs fun i j => by rw [lossless]; rfl]
      intro y none
      cases none
    · -- with a split of zero every cell is one of the last layer, and the exchange reports none of them
      simp only [not_or, Bool.not_eq_true] at climbs
      intro y mem'
      have notFailure := climbEnds
      simp only [FancyConfig.climbEnds, climbs.2.1, climbs.2.2, decide_false, Bool.false_or, List.all_eq_true] at notFailure
      have one := notFailure y mem'
      rw [detections] at mem'
      simp only [closedTree, treeExchange, climbs.1, Bool.false_eq_true, if_false] at mem'
      obtain ⟨i, j, -, -, -, -, rfl⟩ := mem_serial_found.1 mem'
      unfold lastLayerDetection at one ⊢
      simp only at one ⊢
      split
      · rename_i few
        rw [if_pos few] at one
        cases one
      · rfl
  · obtain ⟨own, reported, dedicated⟩ := h.counters mem log
    have equal : n - r = 0 := by
      rw [own, reported, sent_eq, lossless, List.length_nil, Nat.add_zero, UInt64.sub_self]
    rw [dedicated isTree, dedicatedDetections, equal, if_neg]
    · intro y none
      cases none
    · simp only [UInt64.toNat_zero, cost_zero]
      exact not_lt.2 (WithTop.coe_le_coe.2 nonneg)

/-- A trace of the lockstep system accounts for the packets of every session. -/
theorem Synchronous.accounted (h : Synchronous cfg x.side id tr) (truthful : Truthful cfg x.side s tr) (mem : x ∈ tr)
    (log : x.log = .consumed id k n cells r records found) : Accounted cfg x.side id k n r cells records found tr where
  counter := h.accounted_counter mem log
  tree isTree pipelined i node j cell := by
    subst isTree
    exact h.accounted_cell mem log pipelined node cell
  quiet nonneg lossless := h.accounted_quiet truthful mem log nonneg lossless

/-- **Exact loss accounting.** In a run without control loss every report that a sender consumes accounts for the packets
of its session. -/
theorem loss_accounting (run : Lts.Run (Link.step cfg) (Lossless cfg) (System.start cfg) s tr) (mem : x ∈ tr)
    (log : x.log = .consumed id k n cells r records found) : Accounted cfg x.side id k n r cells records found tr :=
  (synchronous_of_lossless x.side id run).accounted (truthful_of_run x.side run) mem log

end

/-! The one packet of a session is lost. -/

/-- The first switch consumes a report of the given session of the tree. -/
def consumesIn (k : Nat) (x : Seen) : Bool :=
  match x.log with
  | .consumed 0 q _ _ _ _ _ => !x.side && q == k
  | _ => false

theorem consumesIn_log {k : Nat} {x : Seen} (shown : consumesIn k x = true) :
    x.side = false ∧ ∃ n cells r records found, x.log = .consumed 0 k n cells r records found := by
  unfold consumesIn at shown
  split at shown
  · rename_i q n cells r records found log
    simp only [Bool.and_eq_true, Bool.not_eq_true', beq_iff_eq] at shown
    obtain ⟨side, rfl⟩ := shown
    exact ⟨side, n, cells, r, records, found, log⟩
  · cases shown

theorem loss_accounting_one : ∃ s tr, Lts.Run (Link.step deepConfig) (Lossless deepConfig) (System.start deepConfig) s tr ∧
    ∃ x ∈ tr, ∃ n cells r records found, x.log = .consumed 0 0 n cells r records found ∧ r.toNat ≤ n.toNat ∧
      n.toNat - r.toNat = 1 := by
  have session : ∃ s tr, Lts.Run (Link.step deepConfig) (fun l s => losslessStep deepConfig l s = true)
      (System.start deepConfig) s tr ∧
      (tr.any (consumesIn 0), countedPackets false 0 0 tr, lostPackets false 0 0 tr) = (true, 1, 1) :=
    Lts.Run.exists_of_guarded firstLoss (by decide +kernel)
  obtain ⟨s, tr, checked, shown⟩ := session
  have run := checked.mono fun _ _ => lossless_of_losslessStep deepConfig
  simp only [Prod.mk.injEq, List.any_eq_true] at shown
  obtain ⟨⟨x, consumes, shown⟩, counted, lost⟩ := shown
  obtain ⟨side, n, cells, r, records, found, log⟩ := consumesIn_log shown
  have accounted := (loss_accounting run consumes log).counter
  rw [side, counted, lost] at accounted
  obtain ⟨le, difference, -⟩ := accounted.number (by decide)
  exact ⟨s, tr, run, x, consumes, n, cells, r, records, found, log, le, difference⟩

/-! A negative cost to reroute reports a session in which nothing is lost. -/

def eagerConfig : FancyConfig := { smallConfig with rerouteMinCost := -1 }

/-- The first switch reports a failure of the tree in the given session. -/
def failsIn (k : Nat) (x : Seen) : Bool :=
  match x.log with
  | .consumed 0 q _ _ _ _ found => !x.side && q == k && found.any Detection.isFailure
  | _ => false

theorem failsIn_log {k : Nat} {x : Seen} (shown : failsIn k x = true) :
    x.side = false ∧ ∃ n cells r records found, x.log = .consumed 0 k n cells r records found ∧
      ∃ y ∈ found, Detection.isFailure y = true := by
  unfold failsIn at shown
  split at shown
  · rename_i q n cells r records found log
    simp only [Bool.and_eq_true, Bool.not_eq_true', beq_iff_eq, List.any_eq_true] at shown
    obtain ⟨⟨side, rfl⟩, failure⟩ := shown
    exact ⟨side, n, cells, r, records, found, log, failure⟩
  · cases shown

theorem failure_without_loss : ∃ s tr, Lts.Run (Link.step eagerConfig) (Lossless eagerConfig) (System.start eagerConfig) s tr ∧
    lostPackets false 0 0 tr = 0 ∧ ∃ x ∈ tr, x.side = false ∧
      ∃ n cells r records found, x.log = .consumed 0 0 n cells r records found ∧ ∃ y ∈ found, Detection.isFailure y = true := by
  have session : ∃ s tr, Lts.Run (Link.step eagerConfig) (fun l s => losslessStep eagerConfig l s = true)
      (System.start eagerConfig) s tr ∧ (lostPackets false 0 0 tr, tr.any (failsIn 0)) = (0, true) :=
    Lts.Run.exists_of_guarded [.fire false 0, .deliver false, .deliver true, .fire false 0, .deliver false, .fire true 1,
      .deliver true] (by decide +kernel)
  obtain ⟨s, tr, checked, shown⟩ := session
  have run := checked.mono fun _ _ => lossless_of_losslessStep eagerConfig
  simp only [Prod.mk.injEq, List.any_eq_true] at shown
  obtain ⟨lost, x, consumes, shown⟩ := shown
  obtain ⟨side, failure⟩ := failsIn_log shown
  exact ⟨s, tr, run, lost, x, consumes, side, failure⟩

end

end Ns3Fancy.Link
