import Ns3Fancy.LossRadar.Meter
import Ns3Fancy.Switch.FlowTables
import Ns3Fancy.SwitchNat.Replies

/-!
# Where flows are filed

All switches file flows under keys: under texts in maps and under buffers in hash functions. The keys tell the flows apart,
and so do the maps, as far as the flow that the key is made of is the flow of the packet: the switch that goes by prefixes
and the translator make it of something else.
-/

namespace Ns3Fancy.SwitchNat
open Switch Function
set_option autoImplicit false

/-! ## The translator's cells -/

/-- Where the translator files a packet: one from the outside at the port it leaves by, under the tuple it leaves with; one
from the inside at its own port, under the reverse of its tuple. -/
def filed (n : P4SwitchNAT) (o : Passage) : Option (Nat × FiveTuple) :=
  if (n.portsInfo o.inPort).isNatInterface then o.outPort.bind fun port => (flowOf o.left).map fun flow => (port, flow)
  else (flowOf o.arrived).map fun flow => (o.inPort, reverseFlow flow)

theorem filed_congr {n n' : P4SwitchNAT} (kind : ∀ p, (n'.portsInfo p).isNatInterface = (n.portsInfo p).isNatInterface)
    (o : Passage) : filed n' o = filed n o := by
  simp only [filed, kind]

section
variable {hash32 : List UInt8 → UInt32}

/-- A packet writes the cell it is filed in, and no other. -/
theorem doIngress_filed {inPort : Nat} {h : Headers} {n n' : P4SwitchNAT} {o : Passage}
    (passed : doIngress hash32 inPort h n = some (n', o)) : (filed n o = none ∧ n' = n) ∨
      ∃ port tuple cell, filed n o = some (port, tuple) ∧ n' = n.keep port (ipFiveTupleToString tuple) cell := by
  obtain ⟨rfl, rfl, ⟨ipv4, same, left⟩ | ⟨ip, host, ipv4, kind, -, out, left, kept⟩ |
    ⟨ip, key, cell, ipv4, kind, -, rfl, -, -, kept⟩⟩ := doIngress_cases passed
  · refine Or.inl ⟨?_, same⟩
    have noFlow : flowOf o.arrived = none := by simp only [flowOf, ipv4, Option.map_none]
    simp only [filed, left, noFlow, Option.map_none, Option.bind_fun_none, ite_self]
  · refine Or.inr ⟨host.port, translated { getFlowFiveTuple o.arrived ip with id := 0 } host, ip.destination, ?_, kept⟩
    simp only [filed, kind, if_true, out, Option.bind_some, left, flowOf_toHost, Option.map_some]
  · refine Or.inr ⟨o.inPort, reverseFlow (getFlowFiveTuple o.arrived ip), cell, ?_, kept⟩
    simp only [filed, kind, Bool.false_eq_true, if_false, flowOf_of_ipv4 ipv4, Option.map_some]
    rfl

/-- Some packet was filed at the port under the tuple of the flow. -/
def FiledAs (n : P4SwitchNAT) (passages : List Passage) (port : Nat) (flow : FiveTuple) : Prop :=
  ∃ o ∈ passages, ∃ tuple, filed n o = some (port, tuple) ∧ tuple.Agree flow

/-- The cells of the switch `n'` after the packets `passages` are those of `n` but for those that packets were filed in. -/
structure CellsKept (n n' : P4SwitchNAT) (passages : List Passage) : Prop where
  kind : ∀ p, (n'.portsInfo p).isNatInterface = (n.portsInfo p).isNatInterface
  there : ∀ port flow, FiledAs n passages port flow → ((n'.portsInfo port).natMap (ipFiveTupleToString flow)).isSome
  other : ∀ port flow, ¬FiledAs n passages port flow →
    (n'.portsInfo port).natMap (ipFiveTupleToString flow) = (n.portsInfo port).natMap (ipFiveTupleToString flow)

theorem CellsKept.start {n : P4SwitchNAT} : CellsKept n n [] where
  kind _ := rfl
  there := by
    rintro port flow ⟨o, mem, -⟩
    exact absurd mem List.not_mem_nil
  other _ _ _ := rfl

/-- One more packet. -/
theorem CellsKept.passed {n n' m : P4SwitchNAT} {passages : List Passage} (h : CellsKept n n' passages) {l : Nat × Headers}
    {o : Passage} (passed : doIngress hash32 l.1 l.2 n' = some (m, o)) : CellsKept n m (passages ++ [o]) := by
  have snoc : ∀ port flow, FiledAs n (passages ++ [o]) port flow ↔
      FiledAs n passages port flow ∨ ∃ tuple, filed n o = some (port, tuple) ∧ tuple.Agree flow := by
    intro port flow
    simp only [FiledAs, List.mem_append, List.mem_singleton, or_and_right, exists_or, exists_eq_left]
  have here := doIngress_filed passed
  rw [filed_congr h.kind] at here
  obtain ⟨nowhere, rfl⟩ | ⟨port', tuple', cell, place, rfl⟩ := here
  · have same : ∀ port flow, FiledAs n (passages ++ [o]) port flow ↔ FiledAs n passages port flow := by
      intro port flow
      rw [snoc, nowhere]
      simp only [reduceCtorEq, false_and, exists_false, or_false]
    exact ⟨h.kind, fun port flow was => h.there port flow ((same port flow).1 was),
      fun port flow wasNot => h.other port flow fun was => wasNot ((same port flow).2 was)⟩
  · -- the cell that is written is that of the flows which agree with the tuple
    have written : ∀ port flow, (∃ tuple, filed n o = some (port, tuple) ∧ tuple.Agree flow) ↔
        port = port' ∧ ipFiveTupleToString flow = ipFiveTupleToString tuple' := by
      intro port flow
      rw [place]
      constructor
      · rintro ⟨tuple, same, agree⟩
        obtain ⟨rfl, rfl⟩ := Prod.mk.inj (Option.some.inj same)
        exact ⟨rfl, (ipFiveTupleToString_inj.2 agree).symm⟩
      · rintro ⟨rfl, same⟩
        exact ⟨tuple', rfl, ipFiveTupleToString_inj.1 same.symm⟩
    refine ⟨fun p => (isNatInterface_keep ..).trans (h.kind p), ?_, ?_⟩
    · intro port flow was
      rw [natMap_keep]
      split
      · rfl
      · rename_i elsewhere
        rw [snoc, written] at was
        exact h.there port flow (was.resolve_right elsewhere)
    · intro port flow wasNot
      rw [snoc, written, not_or] at wasNot
      rw [natMap_keep, if_neg wasNot.2]
      exact h.other port flow wasNot.1

/-- **The translator has one cell for each tuple**: in every run, a cell is written exactly if a packet was filed at its port
under a tuple that agrees with the cell's. -/
theorem cellsKept_run {ok : Nat × Headers → P4SwitchNAT → Prop} {n m : P4SwitchNAT} {passages : List Passage}
    (run : Lts.Run (step hash32) ok n m passages) : CellsKept n m passages := by
  refine run.invariant .start ?_
  intro n' m' before new l h _ stepped
  obtain ⟨⟨m'', o⟩, passed, eq⟩ := Option.map_eq_some_iff.1 stepped
  obtain ⟨rfl, rfl⟩ := Prod.mk.inj eq
  exact h.passed passed

end

end Ns3Fancy.SwitchNat

namespace Ns3Fancy
open Buffer Switch
set_option autoImplicit false

/-! ## The keys -/

theorem LossRadar.length_ipFiveTupleWithIdToBuffer (flow : FiveTuple) :
    (LossRadar.ipFiveTupleWithIdToBuffer flow).length = 15 := by
  simp only [LossRadar.ipFiveTupleWithIdToBuffer, List.length_append, length_writeLE, List.length_singleton]

/-- **The buffer with the identification tells it and the five-tuple.** -/
theorem LossRadar.ipFiveTupleWithIdToBuffer_inj {flow flow' : FiveTuple} :
    LossRadar.ipFiveTupleWithIdToBuffer flow = LossRadar.ipFiveTupleWithIdToBuffer flow' ↔
      flow.Agree flow' ∧ flow.id = flow'.id := by
  constructor
  · intro same
    unfold LossRadar.ipFiveTupleWithIdToBuffer at same
    obtain ⟨same, protocol⟩ := List.append_inj' same rfl
    obtain ⟨same, dstPort⟩ := append_uint16_inj same
    obtain ⟨same, srcPort⟩ := append_uint16_inj same
    obtain ⟨same, id⟩ := append_uint16_inj same
    obtain ⟨same, dst⟩ := append_uint32_inj same
    obtain ⟨-, src⟩ := @append_uint32_inj _ _ [] [] same
    exact ⟨⟨src, dst, srcPort, dstPort, (List.cons.inj protocol).1⟩, id⟩
  · rintro ⟨⟨src, dst, srcPort, dstPort, protocol⟩, id⟩
    simp only [LossRadar.ipFiveTupleWithIdToBuffer, src, dst, srcPort, dstPort, protocol, id]

/-- **Keys tell flows apart, and tables have one place for each key.** Texts and buffers are equal exactly for flows with
one five-tuple (and identification). Flows with a dedicated entry, flows kept behind a cell, flows in the reroute filter and
flows with a cell of the translator are found exactly where a flow with the same key was put, which is the five-tuple or the
destination prefix, and the tuple that the translator makes. -/
theorem flow_keys :
    (∀ flow, (ipFiveTupleToString flow).toList = Text.spaced flow.numbers ∧ (ipFiveTupleToBuffer flow).length = 13 ∧
      (LossRadar.ipFiveTupleWithIdToBuffer flow).length = 15) ∧
    (∀ flow flow', (ipFiveTupleToString flow = ipFiveTupleToString flow' ↔ flow.Agree flow') ∧
      (ipFiveTupleToBuffer flow = ipFiveTupleToBuffer flow' ↔ flow.Agree flow') ∧
      (LossRadar.ipFiveTupleWithIdToBuffer flow = LossRadar.ipFiveTupleWithIdToBuffer flow' ↔
        flow.Agree flow' ∧ flow.id = flow'.id) ∧
      (ipFiveTupleToString flow = ipFiveTupleToString flow' ↔ ipFiveTupleToBuffer flow = ipFiveTupleToBuffer flow')) ∧
    (∀ (cfg : FancyConfig) (flow flow' : FiveTuple),
      cfg.matchTopEntriesTable (cfg.packetStr flow) < cfg.numTopEntries →
        (cfg.matchTopEntriesTable (cfg.packetStr flow') = cfg.matchTopEntriesTable (cfg.packetStr flow) ↔
          cfg.SameKey flow' flow)) ∧
    (∀ (cfg : FancyConfig) (events : List TreeEvent) (i j : Nat),
      StandFor cfg (((treeAfter cfg events i).hashedFlows j).map (·.2)) (countedSince cfg i j events)) ∧
    (∀ (cfg : FancyConfig) (events : List (FilterEvent cfg)) (h : Nat) (flow : FiveTuple),
      cfg.packetStr flow ∈ ((filterAfter cfg events).1.reroute h).alreadyRerouted ↔
        ∃ flow' ∈ (filterAfter cfg events).2, h ∈ getBloomFilterHashes cfg flow' ∧ cfg.SameKey flow' flow) ∧
    ∀ (hash32 : List UInt8 → UInt32) (n m : SwitchNat.P4SwitchNAT) (passages : List SwitchNat.Passage),
      Lts.Run (SwitchNat.step hash32) (fun _ _ => True) n m passages → SwitchNat.CellsKept n m passages := by
  refine ⟨?_, ?_, ?_, ?_, ?_, ?_⟩
  · intro flow
    exact ⟨toList_ipFiveTupleToString flow, length_ipFiveTupleToBuffer flow, LossRadar.length_ipFiveTupleWithIdToBuffer flow⟩
  · intro flow flow'
    exact ⟨ipFiveTupleToString_inj, ipFiveTupleToBuffer_inj, LossRadar.ipFiveTupleWithIdToBuffer_inj,
      ipFiveTupleToString_inj.trans ipFiveTupleToBuffer_inj.symm⟩
  · intro cfg flow flow' matched
    exact matchTopEntriesTable_inj matched
  · intro cfg events i j
    exact hashedFlows_standFor cfg i j events
  · intro cfg events h flow
    exact mem_alreadyRerouted events h
  · intro hash32 n m passages run
    exact SwitchNat.cellsKept_run run

/-- Two flows to one prefix have one place behind a cell of a switch that goes by prefixes, and two flows to one inside host
have one cell of the translator, which the second one overwrites. -/
theorem flows_merged :
    (∃ flow flow' : FiveTuple, ¬flow.Agree flow' ∧ ∃ i j,
      countedSince smallConfig i j [.packet 0 flow, .packet 0 flow'] = [flow, flow'] ∧
        ((treeAfter smallConfig [.packet 0 flow, .packet 0 flow'] i).hashedFlows j).map (·.2) = [flow]) ∧
      ∃ m passages,
        Lts.Run (SwitchNat.step fun _ => 0) (fun _ _ => True) ((SwitchNat.build SwitchNat.oneHost).getD {}) m passages ∧
        ∃ flow flow' tuple : FiveTuple, ¬flow.Agree flow' ∧
          passages.map (fun o => SwitchNat.flowOf o.arrived) = [some flow, some flow'] ∧
          passages.map (SwitchNat.filed ((SwitchNat.build SwitchNat.oneHost).getD {})) = [some (2, tuple), some (2, tuple)] ∧
          (m.portsInfo 2).natMap (ipFiveTupleToString tuple) = some flow'.dstIp := by
  constructor
  · exact ⟨{ dstIp := 0x100 }, { dstIp := 0x101 }, by decide, 0, 1, by decide +kernel, by decide +kernel⟩
  · have session : ∃ m passages, Lts.Run (SwitchNat.step fun _ => 0) (fun _ _ => True)
        ((SwitchNat.build SwitchNat.oneHost).getD {}) m passages ∧
          (passages.map (fun o => SwitchNat.flowOf o.arrived),
            passages.map (SwitchNat.filed ((SwitchNat.build SwitchNat.oneHost).getD {})),
            (m.portsInfo 2).natMap (ipFiveTupleToString ⟨0x0a000909, 0x0a000101, UDP, 4000, 53, 0⟩)) =
          ([some ⟨0x0a000909, 0x14000001, UDP, 4000, 53, 0⟩, some ⟨0x0a000909, 0x14000002, UDP, 4000, 53, 0⟩],
            [some (2, ⟨0x0a000909, 0x0a000101, UDP, 4000, 53, 0⟩), some (2, ⟨0x0a000909, 0x0a000101, UDP, 4000, 53, 0⟩)],
            some 0x14000002) :=
      Lts.Run.exists_of_guarded [(1, SwitchNat.queryTo 0x14000001), (1, SwitchNat.queryTo 0x14000002)] (by decide +kernel)
    obtain ⟨m, passages, run, shown⟩ := session
    obtain ⟨arrived, places⟩ := Prod.mk.inj shown
    obtain ⟨places, cell⟩ := Prod.mk.inj places
    exact ⟨m, passages, run, _, _, _, by decide, arrived, places, cell⟩

end Ns3Fancy
