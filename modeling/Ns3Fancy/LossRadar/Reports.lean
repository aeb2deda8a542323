import Ns3Fancy.LossRadar.Losses

/-!
# When the controller ends, and what it reports

While packets arrive before their batch is read, the controller works on the filter of packets that
exist and ends. A packet that comes late is counted against the next packets of its batch number; a
cell may then show a packet that never was, and the loop may take it out of other cells for ever.
What the traffic manager drops is reported as lost on the link.
-/

namespace Ns3Fancy.LossRadar
open Switch Function
set_option autoImplicit false

section
variable (cfg : LossRadarConfig)

/-! ## Termination -/

/-- **The controller ends** whenever it is due, if no packet is on the link for half a batch time and fewer than
`2 ^ 32` hits of the batch are gone. -/
theorem controller_terminates (two : 2 ≤ cfg.numBatches) (few : cfg.numBatches ≤ 16) (first : Bool → Nat) (s : System)
    (tr : List Seen) (run : Lts.Run (step cfg) (fun _ => Timely cfg) (System.start first) s tr) (timely : Timely cfg s)
    (d : Bool) (batch : UInt8) (due : s.Due d batch)
    (small : cfg.numHashes * (goneFlows (notes d tr) batch).card < 2 ^ 32) :
    ∃ fuel report, controller cfg fuel ((s.port d).um batch) ((s.port !d).dm batch) = some report := by
  have diff : difference cfg ((s.port d).um batch) ((s.port !d).dm batch) = registersOf cfg (goneFlows (notes d tr) batch) :=
    (isolated_of_run two few run d).difference (timely d) due
  obtain ⟨decoding, R, ended, -, -⟩ := converges_registersOf small (cellOrder cfg)
  exact ⟨_, _, by rw [controller, diff, ended, Option.map_some]⟩

theorem controller_terminates_one :
    ∃ s tr, Lts.Run (step byteConfig) (fun _ => Timely byteConfig) (System.start fun _ => 2) s tr ∧ s.Due true 0 ∧
      ∃ fuel report, controller byteConfig fuel ((s.port true).um 0) ((s.port false).dm 0) = some report := by
  have found : (timelyExec byteConfig ([.enter true { flow := { srcIp := 1 } } false, .lose true 0] ++ toFirstRead)
      (System.start fun _ => 2)).any (fun r => decide (Timely byteConfig r.1 ∧ r.1.Due true 0 ∧
        byteConfig.numHashes * (goneFlows (notes true r.2) 0).card < 2 ^ 32)) = true := by
    decide
  obtain ⟨⟨s, tr⟩, run, holds⟩ := exists_run found
  obtain ⟨timely, due, small⟩ := of_decide_eq_true holds
  exact ⟨s, tr, run, due, controller_terminates byteConfig (by decide) (by decide) _ s tr run timely true 0 due small⟩

/-! ### Packets that never were -/

/-- The packet cell 0 shows although there is none. -/
def phantom : FiveTuple := { srcIp := 7 }

/-- The phantom and the empty packet belong to cell 1. -/
structure Misleads (cfg : LossRadarConfig) : Prop where
  cells : cfg.numCells = 2
  empty : cfg.getMeterHashIndexes {} = [1]
  phantom : cfg.getMeterHashIndexes phantom = [1]

/-- Cell 0 shows the phantom; cell 1 holds it or nothing. -/
structure Stuck (d : Decoding) : Prop where
  shows : d.regs 0 = { flow := phantom, pktCounter := 1 }
  other : (d.regs 1).flow = {} ∨ (d.regs 1).flow = phantom

variable {cfg}

/-- Taking the phantom, or the empty packet, leaves cell 0 alone. -/
theorem Stuck.takePacket (misleads : Misleads cfg) {d : Decoding} (h : Stuck d) {flow : FiveTuple}
    (either : flow = {} ∨ flow = phantom) : Stuck (takePacket cfg flow d) := by
  have indexes : cfg.getMeterHashIndexes flow = [1] := by
    rcases either with rfl | rfl
    · exact misleads.empty
    · exact misleads.phantom
  have regs : (LossRadar.takePacket cfg flow d).regs =
      update d.regs 1 { flow := xorFlow (d.regs 1).flow flow, pktCounter := (d.regs 1).pktCounter - 1 } := by
    simp [LossRadar.takePacket, indexes, removeFrom]
  refine ⟨?_, ?_⟩
  · rw [regs, update_of_ne (by decide)]
    exact h.shows
  · rw [regs, update_self]
    show xorFlow (d.regs 1).flow flow = {} ∨ xorFlow (d.regs 1).flow flow = phantom
    rcases h.other with none | same <;> rcases either with rfl | rfl
    · rw [none]; exact .inl (by decide)
    · rw [none]; exact .inr (by decide)
    · rw [same]; exact .inr (by decide)
    · rw [same]; exact .inl (by decide)

/-- Every scan takes the phantom once more. -/
theorem Stuck.scan (misleads : Misleads cfg) {d : Decoding} (h : Stuck d) :
    Stuck (scan cfg (cellOrder cfg) d).1 ∧ (LossRadar.scan cfg (cellOrder cfg) d).2 = true := by
  have order : cellOrder cfg = [0, 1] := by
    rw [cellOrder, misleads.cells]
    decide
  have zero : scanCell cfg (d, false) 0 = (LossRadar.takePacket cfg phantom d, true) := by
    simp [scanCell, h.shows]
  have taken := h.takePacket misleads (.inr rfl)
  have whole : LossRadar.scan cfg (cellOrder cfg) d = scanCell cfg (LossRadar.takePacket cfg phantom d, true) 1 := by
    rw [LossRadar.scan, order, List.foldl_cons, zero]
    rfl
  rw [whole, scanCell]
  split
  · exact ⟨taken.takePacket misleads taken.other, rfl⟩
  · exact ⟨taken, rfl⟩

theorem Stuck.diverges (misleads : Misleads cfg) (fuel : Nat) {d : Decoding} (h : Stuck d) :
    peel cfg (cellOrder cfg) fuel d = none := by
  induction fuel generalizing d with
  | zero => rfl
  | succ fuel ih =>
    obtain ⟨next, found⟩ := h.scan misleads
    rw [peel, if_pos found]
    exact ih next

theorem controller_stuck (misleads : Misleads cfg) {um dm : Registers}
    (shows : difference cfg um dm 0 = { flow := phantom, pktCounter := 1 }) (empty : difference cfg um dm 1 = {})
    (fuel : Nat) : controller cfg fuel um dm = none := by
  have stuck : Stuck { regs := difference cfg um dm } := ⟨shows, .inl (congrArg (·.flow) empty)⟩
  rw [LossRadar.controller, stuck.diverges misleads, Option.map_none]

/-- A run, with or without a bound on the time on the link, to a call of the controller that does not end. -/
def Diverges (cfg : LossRadarConfig) (ok : System → Prop) : Prop :=
  ∃ s tr, Lts.Run (step cfg) (fun _ => ok) (System.start fun _ => 2) s tr ∧ ok s ∧ s.Due true 0 ∧
    ∀ fuel, controller cfg fuel ((s.port true).um 0) ((s.port false).dm 0) = none

/-- The registers of batch 0 show the phantom when they are due. -/
def Misled (cfg : LossRadarConfig) (s : System) : Prop :=
  s.Due true 0 ∧ difference cfg ((s.port true).um 0) ((s.port false).dm 0) 0 = { flow := phantom, pktCounter := 1 } ∧
    difference cfg ((s.port true).um 0) ((s.port false).dm 0) 1 = {}

instance (cfg : LossRadarConfig) (s : System) : Decidable (Misled cfg s) :=
  inferInstanceAs (Decidable (s.Due true 0 ∧ _ = _ ∧ _ = _))

theorem Misled.diverges (misleads : Misleads cfg) {ok : System → Prop} {s : System} {tr : List Seen}
    (run : Lts.Run (step cfg) (fun _ => ok) (System.start fun _ => 2) s tr) (good : ok s) (misled : Misled cfg s) :
    Diverges cfg ok :=
  ⟨s, tr, run, good, misled.1, controller_stuck misleads misled.2.1 misled.2.2⟩

/-- The last batch is read and the next one begins. -/
def toNextRead : List Label :=
  [.control true 0 9, .control false 0 9, .tick, .updateBatchId true, .updateBatchId false, .tick]

/-- Two packets are lost whose exclusive or with the first byte 4 is the phantom. -/
def loseTwo : List Label :=
  [.enter true { flow := { srcIp := 1 } } false, .enter true { flow := { srcIp := 2 } } false, .lose true 0, .lose true 0]

def enterThird : Label := .enter true { flow := { srcIp := 4 } } false

def byteBatches (n : Nat) : LossRadarConfig := { byteConfig with numBatches := n }

theorem misleads_byteBatches (n : Nat) : Misleads (byteBatches n) where
  cells := rfl
  empty := (by decide : byteConfig.getMeterHashIndexes {} = [1])
  phantom := (by decide : byteConfig.getMeterHashIndexes phantom = [1])

/-- The third packet is on the link until its batch has been read, and arrives in the next batch of the same number. -/
theorem diverges_late : Diverges (byteBatches 2) fun _ => True := by
  have found : (Lts.exec (step (byteBatches 2)) ([enterThird] ++ toFirstRead ++ toNextRead ++ [.deliver true 0 none] ++
      loseTwo ++ toNextRead) (System.start fun _ => 2)).any (fun r => decide (Misled (byteBatches 2) r.1)) = true := by
    decide +kernel
  obtain ⟨⟨s, tr⟩, computed, holds⟩ := Option.any_eq_true _ _ |>.1 found
  exact Misled.diverges (misleads_byteBatches 2) (.of_exec (fun _ _ => trivial) computed) trivial (of_decide_eq_true holds)

/-- A checked run that is misled. -/
theorem diverges_of_exec {n : Nat} (labels : List Label)
    (found : (timelyExec (byteBatches n) labels (System.start fun _ => 2)).any
      (fun r => decide (Timely (byteBatches n) r.1 ∧ Misled (byteBatches n) r.1)) = true) :
    Diverges (byteBatches n) (Timely (byteBatches n)) := by
  obtain ⟨⟨s, tr⟩, run, holds⟩ := exists_run found
  obtain ⟨timely, misled⟩ := of_decide_eq_true holds
  exact misled.diverges (misleads_byteBatches n) run timely

/-- With one batch, packets of the batch are in flight while it is read. -/
theorem diverges_oneBatch : Diverges (byteBatches 1) (Timely (byteBatches 1)) := by
  refine diverges_of_exec (toFirstRead ++ [enterThird, .control true 0 9, .control false 0 9,
    .deliver true 0 none] ++ loseTwo ++ [.tick, .updateBatchId true, .updateBatchId false, .tick]) ?_
  decide +kernel

/-- With 17 batches, batch 16 and batch 0 are the same in the TOS byte. -/
theorem diverges_seventeen : Diverges (byteBatches 17) (Timely (byteBatches 17)) := by
  refine diverges_of_exec (toFirstRead ++ (List.replicate 15 toNextRead).flatten ++
    [enterThird, .deliver true 0 none] ++ toNextRead ++ loseTwo ++ toNextRead) ?_
  decide +kernel

/-- `2 ^ 32 + 1` lost packets in cell 0 that show the phantom together. -/
def overflowing : List (FiveTuple × Bool) :=
  List.replicate (2 ^ 32 - 2) ({ srcIp := 1 }, false) ++
    [({ srcIp := 1 }, false), ({ srcIp := 2 }, false), ({ srcIp := 4 }, false)]

theorem overflowing_eq : overflowing.map (·.1) =
    List.replicate (2 ^ 32 - 2) { srcIp := 1 } ++ [{ srcIp := 1 }, { srcIp := 2 }, { srcIp := 4 }] ∧
    (overflowing.filter (·.2)).map (·.1) = [] := by
  constructor
  · rw [overflowing, List.map_append, List.map_replicate]
    rfl
  · rw [overflowing, List.filter_append, List.filter_replicate_of_neg Bool.false_ne_true]
    rfl

/-- What the counters and keys of `2 ^ 32 - 2` copies of a packet and three more packets come to. -/
theorem registersOf_overflowing (i : Nat) :
    registersOf byteConfig ((List.replicate (2 ^ 32 - 2) { srcIp := 1 } ++
        [{ srcIp := 1 }, { srcIp := 2 }, { srcIp := 4 }] : List FiveTuple) : Multiset FiveTuple) i =
      if i = 0 then { flow := phantom, pktCounter := 1 } else {} := by
  have even : ∀ y : FiveTuple, (2 ^ 32 - 2) • y = 0 := by
    intro y
    have twice : (2 ^ 32 - 2 : Nat) = (2 ^ 31 - 1) * 2 := by norm_num
    rw [twice, mul_nsmul', two_nsmul, add_self, nsmul_zero]
  have one : byteConfig.getMeterHashIndexes { srcIp := 1 } = [0] := by decide
  have two : byteConfig.getMeterHashIndexes { srcIp := 2 } = [0] := by decide
  have four : byteConfig.getMeterHashIndexes { srcIp := 4 } = [0] := by decide
  rw [← Multiset.coe_add, Multiset.coe_replicate]
  simp only [registersOf, Ibf.keySum_add, Ibf.occ_add, keySum_replicate, occ_replicate, even, zero_add,
    ← Multiset.cons_coe, Ibf.keySum_cons, Ibf.occ_cons, one, two, four, Multiset.coe_nil, Ibf.keySum_zero, Ibf.occ_zero]
  by_cases zero : i = 0
  · subst zero
    rw [if_pos rfl]
    decide
  · have none : List.count i [0] = 0 := List.count_eq_zero_of_not_mem (by simp [zero])
    rw [if_neg zero, none]
    rfl

/-- A counter overflows. -/
theorem diverges_overflow : Diverges (byteBatches 2) (Timely (byteBatches 2)) := by
  obtain ⟨s, tr, run, timely, due, um, dm⟩ := @read_run (byteBatches 2) rfl overflowing
  rw [overflowing_eq.1] at um
  rw [overflowing_eq.2] at dm
  have diff : difference (byteBatches 2) ((s.port true).um 0) ((s.port false).dm 0) = registersOf (byteBatches 2)
      ((List.replicate (2 ^ 32 - 2) { srcIp := 1 } ++ [{ srcIp := 1 }, { srcIp := 2 }, { srcIp := 4 }] :
        List FiveTuple) : Multiset FiveTuple) := by
    rw [um, dm, difference_meterAll (byteBatches 2) (Multiset.zero_le _)]
    exact congrArg _ (tsub_zero _)
  refine Misled.diverges (misleads_byteBatches 2) run timely ⟨due, ?_, ?_⟩
  · rw [diff]
    exact (registersOf_overflowing 0).trans (if_pos rfl)
  · rw [diff]
    exact (registersOf_overflowing 1).trans (if_neg (by decide))

/-- The loop need not end when a packet is late; nor, with every packet in time, when there is one batch, when there are
more batches than the TOS byte can tell apart, or when a counter overflows. -/
theorem controller_diverges :
    Diverges (byteBatches 2) (fun _ => True) ∧ Diverges (byteBatches 1) (Timely (byteBatches 1)) ∧
      Diverges (byteBatches 17) (Timely (byteBatches 17)) ∧ Diverges (byteBatches 2) (Timely (byteBatches 2)) :=
  ⟨diverges_late, diverges_oneBatch, diverges_seventeen, diverges_overflow⟩

/-! ## Congestion -/

/-- Nothing that reached `DoEgressTrafficManager` is lost by this step. -/
def Lossless (l : Label) : Prop := ∀ d i, l ≠ .lose d i

/-- The traffic manager drops no IPv4 packet that is to leave by the link in this step. -/
def Uncongested : Label → System → Prop
  | .enter _ pkt true, _ => pkt.ipv4 = false
  | .deliver d i (some true), s => ∀ f ∈ (s.wire d)[i]?, f.packet.ipv4 = false
  | _, _ => True

/-- No packet is lost, and none that is metered is dropped. -/
structure Quiet (ms : List Note) : Prop where
  lost : lostUids ms = []
  congested : ∀ u ∈ congestedUids ms, ∀ b flow, .metered b u flow ∉ ms

theorem Quiet.nil : Quiet [] := ⟨rfl, by simp [congestedUids]⟩

theorem System.ingress_quiet {s s' : System} {d fromLink : Bool} {out : Option Bool} {pkt : Packet} {ns : List Note}
    (run : s.ingress cfg d fromLink out pkt = some (s', ns)) (kept : out = some true → pkt.ipv4 = false) : Quiet ns := by
  simp only [System.ingress] at run
  split at run
  · cases run
  · obtain ⟨-, rfl⟩ := Prod.mk.inj (Option.some.inj run)
    rcases out with _ | drop
    · exact ⟨by simp [lostUids], by simp [congestedUids]⟩
    · cases drop with
      | false =>
        cases ip : pkt.ipv4 with
        | false => exact ⟨by simp [lostUids], by simp [congestedUids]⟩
        | true => exact ⟨by simp [lostUids], by simp [congestedUids]⟩
      | true => exact ⟨by simp [lostUids, kept rfl], by simp [kept rfl]⟩

theorem Quiet.seenAt {ns : List Note} (h : Quiet ns) (d e : Bool) : Quiet (notes d (seenAt e ns)) := by
  rw [notes_seenAt]
  split
  · exact h
  · exact .nil

theorem quiet_of_step {l : Label} {s s' : System} {os : List Seen} (run : step cfg l s = some (s', os))
    (lossless : Lossless l) (uncongested : Uncongested l s) (d : Bool) : Quiet (notes d os) := by
  cases l with
  | tick =>
    simp only [step] at run
    split at run
    · obtain ⟨-, rfl⟩ := Prod.mk.inj (Option.some.inj run)
      exact .nil
    · cases run
  | enter e pkt tmDrop =>
    obtain ⟨⟨t, ns⟩, entered, eq⟩ := Option.map_eq_some_iff.1 run
    obtain ⟨-, rfl⟩ := Prod.mk.inj eq
    refine (System.ingress_quiet entered ?_).seenAt d e
    intro dropped
    obtain rfl := Option.some.inj dropped
    exact uncongested
  | deliver e i back =>
    obtain ⟨f, at_, run⟩ := Option.bind_eq_some_iff.1 run
    obtain ⟨⟨t, ns⟩, entered, eq⟩ := Option.map_eq_some_iff.1 run
    obtain ⟨-, rfl⟩ := Prod.mk.inj eq
    refine (System.ingress_quiet entered ?_).seenAt d _
    intro dropped
    subst dropped
    exact uncongested f at_
  | lose e i => exact absurd rfl (lossless e i)
  | updateBatchId e =>
    simp only [step] at run
    split at run
    · obtain ⟨-, rfl⟩ := Prod.mk.inj (Option.some.inj run)
      exact .nil
    · cases run
  | control e i fuel =>
    obtain ⟨c, at_, run⟩ := Option.bind_eq_some_iff.1 run
    split at run
    · obtain ⟨report, reported, eq⟩ := Option.map_eq_some_iff.1 run
      obtain ⟨-, rfl⟩ := Prod.mk.inj eq
      have quiet : Quiet [.read c.2 ((s.port e).um c.2) ((s.port !e).dm c.2) report] :=
        ⟨rfl, by simp [congestedUids]⟩
      exact quiet.seenAt d e
    · cases run

/-- No packet that was metered is gone. -/
def Clean (ns : List Note) : Prop := ∀ b, ∀ x ∈ sinceRead b ns, x.1 ∉ goneUids ns

theorem mem_sinceRead_append {b : UInt8} {ns ms : List Note} {x : Nat × FiveTuple} (mem : x ∈ sinceRead b (ns ++ ms)) :
    x ∈ sinceRead b ns ∨ .metered b x.1 x.2 ∈ ms := by
  induction ms using List.reverseRecOn with
  | nil => exact .inl (by simpa using mem)
  | append_singleton ms m ih =>
    rw [← List.append_assoc] at mem
    cases m with
    | metered batch uid flow =>
      rw [sinceRead_metered] at mem
      split at mem
      · rename_i same
        rcases List.mem_append.1 mem with old | new
        · exact (ih old).imp_right (List.mem_append_left _)
        · obtain rfl := List.mem_singleton.1 new
          exact .inr (by simp [same])
      · exact (ih mem).imp_right (List.mem_append_left _)
    | congested uid =>
      rw [sinceRead_congested] at mem
      exact (ih mem).imp_right (List.mem_append_left _)
    | lost uid =>
      rw [sinceRead_lost] at mem
      exact (ih mem).imp_right (List.mem_append_left _)
    | read batch um dm report =>
      rw [sinceRead_read] at mem
      split at mem
      · cases mem
      · exact (ih mem).imp_right (List.mem_append_left _)

/-- What a move meters or drops has the next number. -/
theorem Channel.Moves.new {c c' : Channel} {ms : List Note} (moves : c.Moves cfg c' ms) :
    (∀ b u flow, .metered b u flow ∈ ms → u = c.nextUid) ∧ ∀ u ∈ congestedUids ms, u = c.nextUid := by
  cases moves with
  | send pkt => cases ip : pkt.ipv4 <;> simp +contextual [congestedUids]
  | congested pkt positive => cases ip : pkt.ipv4 <;> simp +contextual [congestedUids]
  | idle => simp [congestedUids]
  | tick => simp [congestedUids]
  | deliver => simp [congestedUids]
  | lose => simp [congestedUids]
  | update => simp [congestedUids]
  | read => simp [congestedUids]

/-- A read is of a batch that is due. -/
theorem Channel.Moves.reads {c c' : Channel} {ms : List Note} (moves : c.Moves cfg c' ms) {batch : UInt8}
    {um dm : Registers} {report : Report} (read : .read batch um dm report ∈ ms) :
    (c.now, batch) ∈ c.controllers ∧ um = c.um batch ∧ dm = c.dm batch ∧
      ∃ fuel, controller cfg fuel (c.um batch) (c.dm batch) = some report := by
  cases moves with
  | read i b fuel r at_ ended =>
    obtain ⟨rfl, rfl, rfl, rfl⟩ : batch = b ∧ um = c.um b ∧ dm = c.dm b ∧ report = r := by simpa using read
    exact ⟨List.mem_of_getElem? at_, rfl, rfl, fuel, ended⟩
  | send pkt => cases ip : pkt.ipv4 <;> simp [ip] at read
  | congested pkt positive => cases ip : pkt.ipv4 <;> simp [ip] at read
  | lose => simp at read
  | idle => cases read
  | tick => cases read
  | deliver => cases read
  | update => cases read

theorem Clean.moves {c c' : Channel} {ns ms : List Note} (h : Clean ns) (numbered : Numbered c ns)
    (moves : c.Moves cfg c' ms) (quiet : Quiet ms) : Clean (ns ++ ms) := by
  obtain ⟨metered, dropped⟩ := moves.new
  intro b x mem gone
  have fresh : x.1 ∈ goneUids ms → x.1 ∈ congestedUids ms := by
    rw [goneUids, quiet.lost, List.nil_append]
    exact id
  rcases mem_sinceRead_append mem with old | new <;> rcases mem_goneUids_append.1 gone with before | now
  · exact h b x old before
  · exact (numbered.entries b x old).ne (dropped _ (fresh now))
  · exact (numbered.gone _ before).ne (metered _ _ _ new)
  · exact quiet.congested _ (fresh now) _ _ new

theorem Clean.goneFlows {ns : List Note} (h : Clean ns) (b : UInt8) : goneFlows ns b = 0 := by
  have none : (sinceRead b ns).filter (fun x => x.1 ∈ goneUids ns) = [] :=
    List.filter_eq_nil_iff.2 fun x mem => by simpa using h b x mem
  rw [LossRadar.goneFlows, flowsAmong, none]
  rfl

/-- The report when nothing is missing. -/
def nothingLost : Report where
  packetsLost := []
  nonPureCells := 0
  nonDetected := 0
  totalLost := 0

theorem controller_empty {fuel : Nat} {um dm : Registers} {report : Report} (diff : difference cfg um dm = registersOf cfg 0)
    (run : controller cfg fuel um dm = some report) : report = nothingLost := by
  obtain ⟨d, R, ended, decodes, -⟩ := @converges_registersOf cfg 0 (by simp) (cellOrder cfg)
  have whole := decodes.peels.conserves
  obtain ⟨none, rfl⟩ : (d.packetsLost : Multiset FiveTuple) = 0 ∧ R = 0 := by simpa using whole
  obtain ⟨d', peeled, rfl⟩ := Option.map_eq_some_iff.1 run
  rw [diff] at peeled
  obtain rfl : d' = d := Converges.unique ⟨fuel, peeled⟩ ⟨_, ended⟩
  have total : totalPackets cfg (registersOf cfg 0) = 0 := by
    rw [totalPackets_registersOf, Multiset.card_zero, Nat.mul_zero]
    rfl
  have cells : nonPureCells cfg d'.regs = 0 := by
    simp [nonPureCells, decodes.regs, emptyRegisters]
  rw [nothingLost, cells, nonDetectedPackets_eq, diff, decodes.regs, total, UInt32.zero_div,
    (Multiset.coe_eq_zero _).1 none]

variable (cfg)

/-- **Without congestion no loss is reported**: if no IPv4 packet bound for the link is dropped by the traffic manager,
none is lost on the link and none is on it for half a batch time, every call of the controller finds nothing. -/
theorem uncongested_reports (two : 2 ≤ cfg.numBatches) (few : cfg.numBatches ≤ 16) (first : Bool → Nat) (s : System)
    (tr : List Seen)
    (run : Lts.Run (step cfg) (fun l s => Timely cfg s ∧ Lossless l ∧ Uncongested l s) (System.start first) s tr) (d : Bool)
    (batch : UInt8) (um dm : Registers) (report : Report) (read : .read batch um dm report ∈ notes d tr) :
    difference cfg um dm = emptyRegisters ∧ report = nothingLost := by
  have all : Isolated cfg (s.channel d) (notes d tr) ∧ Clean (notes d tr) ∧
      ∀ batch um dm report, .read batch um dm report ∈ notes d tr →
        difference cfg um dm = emptyRegisters ∧ report = nothingLost := by
    clear read report um dm batch
    induction run with
    | nil => exact ⟨isolated_of_run two few .nil d, by simp [Clean], by simp⟩
    | snoc before good moved ih =>
      obtain ⟨timely, lossless, uncongested⟩ := good
      obtain ⟨isolated, clean, reads⟩ := ih
      have moves := moves_of_step moved d
      rw [notes_append]
      refine ⟨isolated.moves two few (timely d) moves,
        clean.moves isolated.numbered moves (quiet_of_step moved lossless uncongested d), ?_⟩
      intro batch um dm report mem
      rcases List.mem_append.1 mem with old | new
      · exact reads _ _ _ _ old
      · obtain ⟨due, rfl, rfl, fuel, ended⟩ := moves.reads new
        have diff := isolated.difference (timely d) due
        rw [clean.goneFlows] at diff
        exact ⟨diff, controller_empty diff ended⟩
  exact all.2.2 _ _ _ _ read

instance : DecidablePred Lossless
  | .lose d i => isFalse fun lossless => lossless d i rfl
  | .tick => isTrue nofun
  | .enter .. => isTrue nofun
  | .deliver .. => isTrue nofun
  | .updateBatchId _ => isTrue nofun
  | .control .. => isTrue nofun

instance (s : System) : (l : Label) → Decidable (Uncongested l s)
  | .enter _ pkt true => inferInstanceAs (Decidable (pkt.ipv4 = false))
  | .deliver d i (some true) => inferInstanceAs (Decidable (∀ f ∈ (s.wire d)[i]?, f.packet.ipv4 = false))
  | .enter _ _ false => isTrue trivial
  | .deliver _ _ none => isTrue trivial
  | .deliver _ _ (some false) => isTrue trivial
  | .lose .. => isTrue trivial
  | .tick => isTrue trivial
  | .updateBatchId _ => isTrue trivial
  | .control .. => isTrue trivial

/-- The reports of a batch. -/
def reportsOf (batch : UInt8) (ns : List Note) : List Report :=
  ns.filterMap fun n => match n with
    | .read b _ _ report => if b = batch then some report else none
    | _ => none

theorem read_of_mem_reportsOf {batch : UInt8} {ns : List Note} {report : Report} (mem : report ∈ reportsOf batch ns) :
    ∃ um dm, .read batch um dm report ∈ ns := by
  obtain ⟨n, there, eq⟩ := List.mem_filterMap.1 mem
  cases n with
  | read b um dm r =>
    simp only [Option.ite_none_right_eq_some, Option.some.injEq] at eq
    obtain ⟨rfl, rfl⟩ := eq
    exact ⟨um, dm, there⟩
  | metered => cases eq
  | congested => cases eq
  | lost => cases eq

/-- A packet enters, the traffic manager drops it or it arrives, and its batch is read. -/
def oneRead (drop : Bool) : List Label :=
  .enter true { flow := { srcIp := 1 } } drop :: (if drop then [] else [.deliver true 0 none]) ++ toFirstRead ++
    [.control true 0 5]

theorem uncongested_reports_one :
    ∃ s tr um dm report, Lts.Run (step byteConfig)
        (fun l s => Timely byteConfig s ∧ Lossless l ∧ Uncongested l s) (System.start fun _ => 2) s tr ∧
      .read 0 um dm report ∈ notes true tr ∧ difference byteConfig um dm = emptyRegisters ∧ report = nothingLost := by
  have found : (Lts.exec (fun l s => if Timely byteConfig s ∧ Lossless l ∧ Uncongested l s then step byteConfig l s else none)
      (oneRead false) (System.start fun _ => 2)).any (fun r => decide (nothingLost ∈ reportsOf 0 (notes true r.2))) = true := by
    decide +kernel
  obtain ⟨⟨s, tr⟩, computed, holds⟩ := Option.any_eq_true _ _ |>.1 found
  have run := Lts.Run.of_guarded computed
  obtain ⟨um, dm, read⟩ := read_of_mem_reportsOf (of_decide_eq_true holds)
  exact ⟨s, tr, um, dm, _, run, read,
    uncongested_reports byteConfig (by decide) (by decide) _ s tr run true 0 um dm _ read⟩

def congestedConfig : LossRadarConfig := { byteConfig with tmDropRate := 1 }

/-- A packet is metered and then dropped by the traffic manager; nothing else is lost, and the controller reports it. -/
theorem congestion_reported :
    ∃ s tr um dm report, Lts.Run (step congestedConfig) (fun l s => Timely congestedConfig s ∧ Lossless l)
        (System.start fun _ => 2) s tr ∧
      .read 0 um dm report ∈ notes true tr ∧ report.packetsLost = [{ srcIp := 1 }] := by
  have found : (Lts.exec (fun l s => if Timely congestedConfig s ∧ Lossless l then step congestedConfig l s else none)
      (oneRead true) (System.start fun _ => 2)).any
      (fun r => decide ([{ srcIp := 1 }] ∈ (reportsOf 0 (notes true r.2)).map (·.packetsLost))) = true := by
    decide +kernel
  obtain ⟨⟨s, tr⟩, computed, holds⟩ := Option.any_eq_true _ _ |>.1 found
  obtain ⟨report, mem, lost⟩ := List.mem_map.1 (of_decide_eq_true holds)
  obtain ⟨um, dm, read⟩ := read_of_mem_reportsOf mem
  exact ⟨s, tr, um, dm, report, .of_guarded computed, read, lost⟩

end

end Ns3Fancy.LossRadar
