import Ns3Fancy.Switch.Levels
import Ns3Fancy.Switch.FlowKey

/-!
# What the sender knows about the flows of a cell

A cell of the sender's tree keeps a counter, the flows behind it by their keys, and a Bloom filter of them. The three move
together whenever a packet is counted and start again together, so the number of bits of the filter never exceeds the
number of flows.
-/

namespace Ns3Fancy.Switch
open Buffer Function
set_option autoImplicit false

/-! ## One cell -/

/-- What cell `j` of a node holds after the packets of the flows `since`; `bit` is the filter's hash function. -/
structure CellHolds (cfg : FancyConfig) (bit : FiveTuple → Nat) (n : HashCounter) (j : Nat) (since : List FiveTuple) :
    Prop where
  counter : n.counters j = .ofNat since.length
  listed : ∀ flow ∈ since, ∃ e ∈ n.hashedFlows j, e.1 = cfg.packetStr flow
  counted : ∀ e ∈ n.hashedFlows j, e.2 ∈ since ∧ e.1 = cfg.packetStr e.2
  distinct : ((n.hashedFlows j).map (·.1)).Nodup
  bits : n.bloomFilter j = (since.map bit).toFinset

/-- The parts of a node that packets change. -/
structure SameCounts (n n' : HashCounter) : Prop where
  counters : n.counters = n'.counters
  hashedFlows : n.hashedFlows = n'.hashedFlows
  bloomFilter : n.bloomFilter = n'.bloomFilter

section
variable {cfg : FancyConfig} {n n' : HashCounter} {j : Nat} {since : List FiveTuple} {bit : FiveTuple → Nat} {flow : FiveTuple}

theorem SameCounts.refl (n : HashCounter) : SameCounts n n := ⟨rfl, rfl, rfl⟩

theorem SameCounts.trans {n'' : HashCounter} (h : SameCounts n n') (h' : SameCounts n' n'') : SameCounts n n'' :=
  ⟨h.counters.trans h'.counters, h.hashedFlows.trans h'.hashedFlows, h.bloomFilter.trans h'.bloomFilter⟩

theorem CellHolds.congr (h : CellHolds cfg bit n' j since) (same : SameCounts n n') : CellHolds cfg bit n j since where
  counter := by rw [same.counters, h.counter]
  listed := by rw [same.hashedFlows]; exact h.listed
  counted := by rw [same.hashedFlows]; exact h.counted
  distinct := by rw [same.hashedFlows]; exact h.distinct
  bits := by rw [same.bloomFilter, h.bits]

theorem cellHolds_empty : CellHolds cfg bit {} j [] where
  counter := rfl
  listed := fun _ mem => absurd mem List.not_mem_nil
  counted := fun _ mem => absurd mem List.not_mem_nil
  distinct := List.nodup_nil
  bits := rfl

theorem cellHolds_reset : CellHolds cfg bit n.resetFlows j [] := cellHolds_empty.congr ⟨rfl, rfl, rfl⟩

/-- A packet is counted in the cell. -/
theorem CellHolds.count (h : CellHolds cfg bit n j since) :
    CellHolds cfg bit (n.count true (cfg.packetStr flow) flow j (bit flow)) j (since ++ [flow]) := by
  have counter : (n.count true (cfg.packetStr flow) flow j (bit flow)).counters j = .ofNat (since ++ [flow]).length := by
    simp only [HashCounter.count, update_self, h.counter, List.length_append, List.length_singleton, UInt32.ofNat_add]
    rfl
  have bits : (n.count true (cfg.packetStr flow) flow j (bit flow)).bloomFilter j = ((since ++ [flow]).map bit).toFinset := by
    simp only [HashCounter.count, update_self, h.bits, List.map_append, List.map_cons, List.map_nil, List.toFinset_append,
      List.toFinset_cons, List.toFinset_nil]
    rw [Finset.union_comm]
    rfl
  by_cases known : ((n.hashedFlows j).any fun e => e.1 == cfg.packetStr flow) = true
  · have flows : (n.count true (cfg.packetStr flow) flow j (bit flow)).hashedFlows j = n.hashedFlows j := by
      simp only [HashCounter.count, known, Bool.not_true, Bool.and_false, Bool.false_eq_true, if_false]
    refine ⟨counter, ?_, ?_, by rw [flows]; exact h.distinct, bits⟩
    · rw [flows]
      intro f mem
      rcases List.mem_append.1 mem with old | new
      · exact h.listed f old
      · obtain ⟨e, here, key⟩ := List.any_eq_true.1 known
        exact ⟨e, here, by rw [List.mem_singleton.1 new]; exact eq_of_beq key⟩
    · rw [flows]
      intro e mem
      obtain ⟨old, key⟩ := h.counted e mem
      exact ⟨List.mem_append_left _ old, key⟩
  · have flows : (n.count true (cfg.packetStr flow) flow j (bit flow)).hashedFlows j =
        (cfg.packetStr flow, flow) :: n.hashedFlows j := by
      simp only [HashCounter.count, Bool.not_eq_true _ |>.mp known, Bool.not_false, Bool.and_self, if_true, update_self]
    refine ⟨counter, ?_, ?_, ?_, bits⟩
    · rw [flows]
      intro f mem
      rcases List.mem_append.1 mem with old | new
      · obtain ⟨e, here, key⟩ := h.listed f old
        exact ⟨e, List.mem_cons_of_mem _ here, key⟩
      · exact ⟨_, List.mem_cons_self, by rw [List.mem_singleton.1 new]⟩
    · rw [flows]
      intro e mem
      rcases List.mem_cons.1 mem with rfl | old
      · exact ⟨List.mem_append_right _ List.mem_cons_self, rfl⟩
      · obtain ⟨here, key⟩ := h.counted e old
        exact ⟨List.mem_append_left _ here, key⟩
    · rw [flows, List.map_cons, List.nodup_cons]
      refine ⟨fun mem => known ?_, h.distinct⟩
      obtain ⟨e, here, key⟩ := List.mem_map.1 mem
      exact List.any_eq_true.2 ⟨e, here, by simpa using key⟩

/-- A packet is counted in another cell. -/
theorem CellHolds.countOther (h : CellHolds cfg bit n j since) {key : String} {j' b : Nat} (other : j ≠ j') :
    CellHolds cfg bit (n.count true key flow j' b) j since := by
  have counter : (n.count true key flow j' b).counters j = n.counters j := by
    simp only [HashCounter.count, update_of_ne other]
  have flows : (n.count true key flow j' b).hashedFlows j = n.hashedFlows j := by
    simp only [HashCounter.count]
    split <;> simp only [update_of_ne other]
  have bits : (n.count true key flow j' b).bloomFilter j = n.bloomFilter j := by
    simp only [HashCounter.count, update_of_ne other]
  exact ⟨by rw [counter, h.counter], by rw [flows]; exact h.listed, by rw [flows]; exact h.counted,
    by rw [flows]; exact h.distinct, by rw [bits, h.bits]⟩

/-- Bits are counted once for each key at most, if flows with one key have one bit. -/
theorem CellHolds.card_le (h : CellHolds cfg bit n j since)
    (keyed : ∀ f f', cfg.packetStr f = cfg.packetStr f' → bit f = bit f') :
      (n.bloomFilter j).card ≤ (n.hashedFlows j).length := by
  have covered : n.bloomFilter j ⊆ ((n.hashedFlows j).map fun e => bit e.2).toFinset := by
    intro b mem
    rw [h.bits, List.mem_toFinset] at mem
    obtain ⟨f, counted, rfl⟩ := List.mem_map.1 mem
    obtain ⟨e, here, key⟩ := h.listed f counted
    rw [List.mem_toFinset]
    exact List.mem_map.2 ⟨e, here, keyed _ _ ((h.counted e here).2.symm.trans key)⟩
  calc (n.bloomFilter j).card ≤ ((n.hashedFlows j).map fun e => bit e.2).toFinset.card := Finset.card_le_card covered
    _ ≤ ((n.hashedFlows j).map fun e => bit e.2).length := List.toFinset_card_le _
    _ = (n.hashedFlows j).length := List.length_map _

theorem CellHolds.card_pos (h : CellHolds cfg bit n j since) (few : since.length < 2 ^ 32) :
    1 ≤ (n.bloomFilter j).card ↔ 0 < n.counters j := by
  rw [h.bits, h.counter, UInt32.lt_iff_toNat_lt, UInt32.toNat_ofNat', Nat.mod_eq_of_lt few, UInt32.toNat_zero,
    Nat.succ_le_iff, Finset.card_pos, List.toFinset_nonempty_iff, ne_eq, List.map_eq_nil_iff, List.length_pos_iff]

/-- The keys are those of the packets. -/
theorem CellHolds.keys (h : CellHolds cfg bit n j since) (key : String) :
    key ∈ (n.hashedFlows j).map (·.1) ↔ ∃ flow ∈ since, cfg.packetStr flow = key := by
  rw [List.mem_map]
  constructor
  · rintro ⟨e, here, rfl⟩
    exact ⟨e.2, (h.counted e here).1, (h.counted e here).2.symm⟩
  · rintro ⟨f, counted, rfl⟩
    exact h.listed f counted

end

/-! ## Any packets and exchanges -/

/-- What happens to the sender's tree. -/
inductive TreeEvent where
  | packet (seq : Nat) (flow : FiveTuple)
  | report (seq : Nat) (records : List (Nat × List UInt32))

/-- The exchange of session `seq` clears the cells of node `i`. -/
def clearsCells (cfg : FancyConfig) (seq i : Nat) : Prop :=
  i < cfg.nodesInTree ∧ (cfg.pipeline = true ∨ seq % cfg.treeDepth + 1 = cfg.treeDepth)

instance (cfg : FancyConfig) (seq i : Nat) : Decidable (clearsCells cfg seq i) :=
  inferInstanceAs (Decidable (_ ∧ _))

def treeEvent (cfg : FancyConfig) (tree : Tree) : TreeEvent → Tree
  | .packet seq flow => treeCounting cfg true seq flow tree
  | .report seq records => (treeExchange cfg seq records tree).1

/-- The sender's tree after some events. -/
def treeAfter (cfg : FancyConfig) (events : List TreeEvent) : Tree := events.foldl (treeEvent cfg) fun _ => {}

/-- The tree, and the flows of the packets counted in cell `(i, j)` since it was last cleared. -/
def cellEvent (cfg : FancyConfig) (i j : Nat) (s : Tree × List FiveTuple) (ev : TreeEvent) : Tree × List FiveTuple :=
  (treeEvent cfg s.1 ev,
    match ev with
    | .packet seq flow => if (i, j) ∈ countedCells cfg seq flow s.1 then s.2 ++ [flow] else s.2
    | .report seq _ => if clearsCells cfg seq i then [] else s.2)

/-- The flows of the packets counted in a cell since it was last cleared. -/
def countedSince (cfg : FancyConfig) (i j : Nat) (events : List TreeEvent) : List FiveTuple :=
  (events.foldl (cellEvent cfg i j) (fun _ => {}, [])).2

section
variable {cfg : FancyConfig} {tree : Tree} {i j l : Nat} {since : List FiveTuple}

/-- The bit of a flow in the filters of a level. -/
def levelBit (cfg : FancyConfig) (l : Nat) (flow : FiveTuple) : Nat :=
  cfg.packetHash flow (l + cfg.treeDepth) cfg.counterBloomFilterWidth

/-- A node gets another history. -/
theorem sameCounts_update (tree : Tree) (k i : Nat) (f : HashCounter → HashCounter) (same : ∀ n, SameCounts (f n) n) :
    SameCounts (update tree k (f (tree k)) i) (tree i) := by
  by_cases here : i = k
  · rw [here, update_self]
    exact same _
  · rw [update_of_ne here]
    exact .refl _

theorem sameCounts_exchangeNode (seq : Nat) (acc : Tree × List Detection) (r : Nat × List UInt32) (i : Nat) :
    SameCounts ((exchangeNode cfg seq acc r).1 i) (acc.1 i) := by
  rw [exchangeNode_fst]
  exact sameCounts_update acc.1 r.1 i (exchanged cfg r.2) fun _ => ⟨rfl, rfl, rfl⟩

theorem sameCounts_pipelinedExchangeNode (seq : Nat) (acc : Tree × List Detection) (r : Nat × List UInt32) (i : Nat) :
    SameCounts ((pipelinedExchangeNode cfg seq acc r).1 i) (acc.1 i) := by
  rw [pipelinedExchangeNode_fst]
  exact sameCounts_update acc.1 r.1 i (pipelinedExchanged cfg r.2) fun _ => ⟨rfl, rfl, rfl⟩

theorem sameCounts_foldl {step : Tree × List Detection → Nat × List UInt32 → Tree × List Detection}
    (node : ∀ acc r, SameCounts ((step acc r).1 i) (acc.1 i)) (records : List (Nat × List UInt32))
    (acc : Tree × List Detection) : SameCounts ((records.foldl step acc).1 i) (acc.1 i) := by
  induction records generalizing acc with
  | nil => exact .refl _
  | cons r records ih => exact (ih _).trans (node acc r)

/-- An exchange clears the cells of a node or keeps what they hold. -/
theorem treeExchange_clears {seq : Nat} (clears : clearsCells cfg seq i) (records : List (Nat × List UInt32)) (tree : Tree) :
    ∃ n : HashCounter, (treeExchange cfg seq records tree).1 i = n.resetFlows := by
  obtain ⟨inside, moment⟩ := clears
  by_cases mode : cfg.pipeline = true
  · rw [treeExchange, if_pos mode, pipelinedCounterExchangeAlgorithm]
    exact ⟨_, if_pos inside⟩
  · have bottom := moment.resolve_left mode
    rw [treeExchange, if_neg mode, counterExchangeAlgorithm]
    simp only [bottom, if_true]
    exact ⟨_, if_pos inside⟩

theorem treeExchange_keeps {seq : Nat} (keeps : ¬clearsCells cfg seq i) (records : List (Nat × List UInt32)) (tree : Tree) :
    SameCounts ((treeExchange cfg seq records tree).1 i) (tree i) := by
  by_cases mode : cfg.pipeline = true
  · have outside : ¬i < cfg.nodesInTree := fun inside => keeps ⟨inside, Or.inl mode⟩
    rw [treeExchange, if_pos mode, pipelinedCounterExchangeAlgorithm]
    simp only [resetNodes, outside, if_false]
    exact sameCounts_foldl (fun acc r => sameCounts_pipelinedExchangeNode seq acc r i) records (tree, [])
  · have serial := sameCounts_foldl (fun acc r => @sameCounts_exchangeNode cfg seq acc r i) records (tree, [])
    rw [treeExchange, if_neg mode, counterExchangeAlgorithm]
    by_cases bottom : seq % cfg.treeDepth + 1 = cfg.treeDepth
    · have outside : ¬i < cfg.nodesInTree := fun inside => keeps ⟨inside, Or.inr bottom⟩
      simp only [bottom, if_true, resetNodes, outside, if_false]
      exact serial
    · simp only [bottom, if_false]
      exact serial

/-- **One event.** A cell holds what was counted in it since it was last cleared, and still does after the event. -/
theorem CellHolds.event (only : ∀ l', InLayer cfg.layerSplit l' i → l' = l)
    (h : CellHolds cfg (levelBit cfg l) (tree i) j since)
    (ev : TreeEvent) :
    CellHolds cfg (levelBit cfg l) ((cellEvent cfg i j (tree, since) ev).1 i) j (cellEvent cfg i j (tree, since) ev).2 := by
  cases ev with
  | packet seq flow =>
    simp only [cellEvent, treeEvent]
    by_cases here : ∃ l', (l', i) ∈ countedLevels cfg seq flow tree
    · obtain ⟨l', mem⟩ := here
      obtain rfl := only l' (countedLevels_layer mem)
      have cell : (i, j) ∈ countedCells cfg seq flow tree ↔ j = cfg.cellOf flow l' := by
        rw [countedCells_eq, List.mem_map]
        constructor
        · rintro ⟨s, walked, same⟩
          obtain ⟨rfl, rfl⟩ := Prod.mk.inj same
          rw [(countedLevels_layer walked).unique (countedLevels_layer mem)]
        · rintro rfl
          exact ⟨_, mem, rfl⟩
      rw [treeCounting_node true mem, countNode, update_self]
      split
      · rename_i counted
        obtain rfl := cell.1 counted
        exact h.count
      · rename_i elsewhere
        exact h.countOther fun same => elsewhere (cell.2 same)
    · have apart : (i, j) ∉ countedCells cfg seq flow tree := by
        rw [countedCells_eq, List.mem_map]
        rintro ⟨s, walked, same⟩
        obtain ⟨rfl, -⟩ := Prod.mk.inj same
        exact here ⟨s.1, walked⟩
      rw [if_neg apart, treeCounting_other true fun l' mem => here ⟨l', mem⟩]
      exact h
  | report seq records =>
    simp only [cellEvent, treeEvent]
    split
    · rename_i clears
      obtain ⟨n, cleared⟩ := treeExchange_clears clears records tree
      rw [cleared]
      exact cellHolds_reset
    · rename_i keeps
      exact h.congr (treeExchange_keeps keeps records tree)

/-- What a cell holds after any events. -/
theorem cellHolds_after (only : ∀ l', InLayer cfg.layerSplit l' i → l' = l) (events : List TreeEvent) :
    CellHolds cfg (levelBit cfg l) (treeAfter cfg events i) j (countedSince cfg i j events) := by
  have run : (events.foldl (cellEvent cfg i j) (fun _ => {}, [])).1 = treeAfter cfg events ∧
      CellHolds cfg (levelBit cfg l) (treeAfter cfg events i) j (countedSince cfg i j events) := by
    induction events using List.reverseRecOn with
    | nil => exact ⟨rfl, cellHolds_empty⟩
    | append_singleton events ev ih =>
      obtain ⟨same, holds⟩ := ih
      have next : (events ++ [ev]).foldl (cellEvent cfg i j) (fun _ => {}, []) =
          cellEvent cfg i j (treeAfter cfg events, countedSince cfg i j events) ev := by
        rw [List.foldl_append, List.foldl_cons, List.foldl_nil, countedSince, ← same]
      have tree : treeAfter cfg (events ++ [ev]) = treeEvent cfg (treeAfter cfg events) ev := by
        rw [treeAfter, List.foldl_append]
        rfl
      refine ⟨by rw [next, tree]; rfl, ?_⟩
      rw [countedSince, next, tree]
      exact holds.event only ev
  exact run.2

/-- A node is in one layer at most. -/
theorem exists_level (split i : Nat) : ∃ l, ∀ l', InLayer split l' i → l' = l := by
  by_cases layered : ∃ l, InLayer split l i
  · obtain ⟨l, layer⟩ := layered
    exact ⟨l, fun l' layer' => layer'.unique layer⟩
  · exact ⟨0, fun l' layer' => absurd ⟨l', layer'⟩ layered⟩

/-- **The collision estimate is a lower bound.** In every state of the sender's tree and for every cell that fewer than
`2 ^ 32` packets were counted in since it was last cleared: its filter has at most as many bits as the cell has flows, has a
bit exactly if the counter is not zero, and the flows are those of the packets, each key once. -/
theorem collision_estimate (events : List TreeEvent) (few : (countedSince cfg i j events).length < 2 ^ 32) :
    ((treeAfter cfg events i).bloomFilter j).card ≤ ((treeAfter cfg events i).hashedFlows j).length ∧
      (1 ≤ ((treeAfter cfg events i).bloomFilter j).card ↔ 0 < (treeAfter cfg events i).counters j) ∧
      (∀ key, key ∈ ((treeAfter cfg events i).hashedFlows j).map (·.1) ↔
        ∃ flow ∈ countedSince cfg i j events, cfg.packetStr flow = key) ∧
      (((treeAfter cfg events i).hashedFlows j).map (·.1)).Nodup := by
  obtain ⟨l, only⟩ := exists_level cfg.layerSplit i
  have holds := cellHolds_after (j := j) only events
  have keyed : ∀ f f', cfg.packetStr f = cfg.packetStr f' → levelBit cfg l f = levelBit cfg l f' :=
    fun f f' same => packetHash_of_packetStr same _ _
  exact ⟨holds.card_le keyed, holds.card_pos few, holds.keys, holds.distinct⟩

theorem collision_estimate_two : 1 ≤ ((treeAfter twoLevels [.packet 0 zoomedFlow,
    .packet 0 shallowFlow] 0).bloomFilter 0).card ↔
    0 < (treeAfter twoLevels [.packet 0 zoomedFlow, .packet 0 shallowFlow] 0).counters 0 :=
  (collision_estimate [.packet 0 zoomedFlow, .packet 0 shallowFlow] (by decide)).2.1

end

end Ns3Fancy.Switch
