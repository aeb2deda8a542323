import Ns3Fancy.Switch.Collisions
import Ns3Fancy.Switch.Pipeline

/-!
# The tables of flows

The switch files flows under their texts in three tables: the dedicated entries of the top file, the flows behind a cell of
the tree, and the flows that the reroute filter has caught. Each of them has one place for the flows that the switch knows
by one key and never one place for flows with different keys.
-/

namespace Ns3Fancy.Switch
open Buffer Function
set_option autoImplicit false

/-- The switch does not tell the flows apart: it knows a flow by its five-tuple or by its destination prefix. -/
def FancyConfig.SameKey (cfg : FancyConfig) (flow flow' : FiveTuple) : Prop :=
  match cfg.packetHashType with
  | .fiveTupleHash => flow.Agree flow'
  | .dstPrefixHash => flow.dstIp &&& 0xffffff00 = flow'.dstIp &&& 0xffffff00

section
variable {cfg : FancyConfig} {flow flow' : FiveTuple}

/-- **The text of a flow tells its key.** -/
theorem packetStr_inj : cfg.packetStr flow = cfg.packetStr flow' ↔ cfg.SameKey flow flow' := by
  unfold FancyConfig.packetStr FancyConfig.SameKey
  cases cfg.packetHashType with
  | fiveTupleHash => exact ipFiveTupleToString_inj
  | dstPrefixHash => exact dstPrefixToString_inj

/-! ## The dedicated entries -/

/-- A text with a dedicated entry is the key of the entry's line. -/
theorem topKey_of_match {text : String} (matched : cfg.matchTopEntriesTable text < cfg.numTopEntries) :
    ∃ dst, cfg.topPrefixes[cfg.matchTopEntriesTable text]? = some dst ∧ text = cfg.topKey dst := by
  unfold FancyConfig.matchTopEntriesTable at matched ⊢
  split at matched
  · rename_i e found
    have mem : e ∈ cfg.topEntries := List.mem_of_find?_eq_some found
    simp only [FancyConfig.topEntries, List.mem_reverse, List.mem_map] at mem
    obtain ⟨⟨dst, i⟩, line, rfl⟩ := mem
    have here : (cfg.topPrefixes.take cfg.numTopEntries)[i]? = some dst := List.mem_zipIdx_iff_getElem?.1 line
    rw [List.getElem?_take_of_lt matched] at here
    have key : cfg.topKey dst = text := by simpa using List.find?_some found
    exact ⟨dst, here, key.symm⟩
  · exact absurd matched (Nat.lt_irrefl _)

/-- **The flows of a dedicated entry are those with one key.** -/
theorem matchTopEntriesTable_inj (matched : cfg.matchTopEntriesTable (cfg.packetStr flow) < cfg.numTopEntries) :
    cfg.matchTopEntriesTable (cfg.packetStr flow') = cfg.matchTopEntriesTable (cfg.packetStr flow) ↔
      cfg.SameKey flow' flow := by
  constructor
  · intro same
    obtain ⟨dst, line, key⟩ := topKey_of_match matched
    obtain ⟨dst', line', key'⟩ := topKey_of_match (same ▸ matched)
    rw [same, line] at line'
    obtain rfl := Option.some.inj line'
    exact packetStr_inj.1 (key'.trans key.symm)
  · intro same
    rw [packetStr_inj.2 same]

/-! ## The flows of a cell -/

/-- The kept flows stand for the flows, one for each key. -/
structure StandFor (cfg : FancyConfig) (kept flows : List FiveTuple) : Prop where
  only : ∀ flow ∈ kept, flow ∈ flows
  all : ∀ flow ∈ flows, ∃ flow' ∈ kept, cfg.SameKey flow' flow
  apart : kept.Pairwise fun flow flow' => ¬cfg.SameKey flow flow'

theorem CellHolds.standFor {bit : FiveTuple → Nat} {n : HashCounter} {j : Nat} {since : List FiveTuple}
    (h : CellHolds cfg bit n j since) : StandFor cfg ((n.hashedFlows j).map (·.2)) since where
  only := by
    intro flow mem
    obtain ⟨e, here, rfl⟩ := List.mem_map.1 mem
    exact (h.counted e here).1
  all := by
    intro flow mem
    obtain ⟨e, here, key⟩ := h.listed flow mem
    exact ⟨e.2, List.mem_map.2 ⟨e, here, rfl⟩, packetStr_inj.1 ((h.counted e here).2.symm.trans key)⟩
  apart := by
    rw [List.pairwise_map]
    refine (List.pairwise_map.1 h.distinct).imp_of_mem ?_
    intro e e' mem mem' differs same
    refine differs ?_
    rw [(h.counted e mem).2, (h.counted e' mem').2, packetStr_inj.2 same]

/-- **A cell keeps one flow for each key counted in it**, after any packets and exchanges. -/
theorem hashedFlows_standFor (cfg : FancyConfig) (i j : Nat) (events : List TreeEvent) :
    StandFor cfg (((treeAfter cfg events i).hashedFlows j).map (·.2)) (countedSince cfg i j events) := by
  obtain ⟨l, only⟩ := exists_level cfg.layerSplit i
  exact (cellHolds_after (j := j) only events).standFor

/-! ## The flows that the filter has caught -/

/-- What happens to the reroute filter of a port: packets pass the reroute block, and reports bring detections. -/
inductive FilterEvent (cfg : FancyConfig) where
  | packet (m : PktInfo cfg.ns3)
  | detection (d : Detection)

/-- The flow has no dedicated entry and the filter catches it. -/
def caughtByTree (cfg : FancyConfig) (p : FancyPortInfo) (flow : FiveTuple) : Bool :=
  cfg.matchTopEntriesTable (cfg.packetStr flow) == cfg.treeId && catches cfg p cfg.treeId flow

/-- The port, and the flows that its filter has caught. A packet enters the switch without a text. -/
def filterEvent (cfg : FancyConfig) (s : FancyPortInfo × List FiveTuple) : FilterEvent cfg → FancyPortInfo × List FiveTuple
  | .packet m => ((reroute cfg s.1 { m with strFlow := "" }).1, if caughtByTree cfg s.1 m.flow then s.2 ++ [m.flow] else s.2)
  | .detection d => (applyDetection cfg s.1 d, s.2)

def filterAfter (cfg : FancyConfig) (events : List (FilterEvent cfg)) : FancyPortInfo × List FiveTuple :=
  events.foldl (filterEvent cfg) ({}, [])

/-- The texts in the filter are those of the flows it has caught, each at the flow's indexes. -/
def Listed (cfg : FancyConfig) (p : FancyPortInfo) (flows : List FiveTuple) : Prop :=
  ∀ h text, text ∈ (p.reroute h).alreadyRerouted ↔
    ∃ flow ∈ flows, h ∈ getBloomFilterHashes cfg flow ∧ cfg.packetStr flow = text

theorem getBloomFilterHashes_of_packetStr (same : cfg.packetStr flow = cfg.packetStr flow') :
    getBloomFilterHashes cfg flow = getBloomFilterHashes cfg flow' := by
  simp only [getBloomFilterHashes, FancyConfig.cellOf, packetHash_of_packetStr same]

section
variable {p p' : FancyPortInfo} {flows : List FiveTuple}

theorem Listed.congr (h : Listed cfg p flows)
    (same : ∀ i, (p'.reroute i).alreadyRerouted = (p.reroute i).alreadyRerouted) : Listed cfg p' flows := by
  intro i text
  rw [same]
  exact h i text

/-- A caught flow is in the filter afterwards, whether it was new or not. -/
theorem Listed.markRerouted (h : Listed cfg p flows) (flow : FiveTuple) :
    Listed cfg (markRerouted cfg cfg.treeId flow (cfg.packetStr flow) p) (flows ++ [flow]) := by
  have more : ∀ (i : Nat) (text : String),
      (∃ f ∈ flows ++ [flow], i ∈ getBloomFilterHashes cfg f ∧ cfg.packetStr f = text) ↔
        (∃ f ∈ flows, i ∈ getBloomFilterHashes cfg f ∧ cfg.packetStr f = text) ∨
          (i ∈ getBloomFilterHashes cfg flow ∧ cfg.packetStr flow = text) := by
    intro i text
    simp only [List.mem_append, List.mem_singleton, or_and_right, exists_or, exists_eq_left]
  have noEntry : ¬cfg.treeId < cfg.numTopEntries := Nat.lt_irrefl _
  intro i text
  rw [more, Switch.markRerouted, if_neg noEntry]
  simp only
  split
  · -- a caught flow with this text has the same indexes
    rename_i known
    obtain ⟨f, mem, -, same⟩ := (h _ _).1 known
    rw [h i text, ← getBloomFilterHashes_of_packetStr same, ← same]
    constructor
    · exact Or.inl
    · rintro (old | new)
      · exact old
      · exact ⟨f, mem, new⟩
  · by_cases here : i ∈ getBloomFilterHashes cfg flow
    · simp only [here, if_true, List.mem_cons, true_and]
      rw [h i text, or_comm, eq_comm]
    · simp only [here, if_false, false_and, or_false]
      exact h i text

theorem Listed.reroute (h : Listed cfg p flows) (m : PktInfo cfg.ns3) :
    Listed cfg (reroute cfg p { m with strFlow := "" }).1 (if caughtByTree cfg p m.flow then flows ++ [m.flow] else flows) := by
  simp only [Switch.reroute, if_true]
  by_cases dedicated : cfg.matchTopEntriesTable (cfg.packetStr m.flow) < cfg.numTopEntries
  · have free : caughtByTree cfg p m.flow = false := by
      simp only [caughtByTree, Bool.and_eq_false_iff, beq_eq_false_iff_ne]
      exact Or.inl (Nat.ne_of_lt dedicated)
    rw [free, if_neg Bool.false_ne_true]
    split
    · refine h.congr fun i => ?_
      rw [Switch.markRerouted, if_pos dedicated]
      split <;> rfl
    · exact h
  · have tree : cfg.matchTopEntriesTable (cfg.packetStr m.flow) = cfg.treeId :=
      Nat.le_antisymm (cfg.matchTopEntriesTable_le _) (Nat.le_of_not_lt dedicated)
    have caught : caughtByTree cfg p m.flow = catches cfg p cfg.treeId m.flow := by
      simp only [caughtByTree, tree, beq_self_eq_true, Bool.true_and]
    rw [caught, tree]
    split
    · exact h.markRerouted m.flow
    · exact h

theorem alreadyRerouted_applyDetection (p : FancyPortInfo) (d : Detection) (i : Nat) :
    ((applyDetection cfg p d).reroute i).alreadyRerouted = (p.reroute i).alreadyRerouted := by
  cases d with
  | failure =>
    simp only [applyDetection, setBloomFilter]
    split <;> rfl
  | topFailure | softFailure | collision | partialFailure | uniformFailure => rfl

end

/-- **The filter keeps the texts of the flows it has caught**, after any packets and detections. -/
theorem listed_after (cfg : FancyConfig) (events : List (FilterEvent cfg)) :
    Listed cfg (filterAfter cfg events).1 (filterAfter cfg events).2 := by
  induction events using List.reverseRecOn with
  | nil =>
    intro i text
    constructor
    · exact fun mem => absurd mem List.not_mem_nil
    · rintro ⟨flow, mem, -⟩
      exact absurd mem List.not_mem_nil
  | append_singleton events ev ih =>
    simp only [filterAfter, List.foldl_append, List.foldl_cons, List.foldl_nil] at ih ⊢
    cases ev with
    | packet m => exact ih.reroute m
    | detection d => exact ih.congr (alreadyRerouted_applyDetection _ d)

/-- A flow is found in the filter exactly if one with its key was caught. -/
theorem mem_alreadyRerouted (events : List (FilterEvent cfg)) (h : Nat) :
    cfg.packetStr flow ∈ ((filterAfter cfg events).1.reroute h).alreadyRerouted ↔
      ∃ flow' ∈ (filterAfter cfg events).2, h ∈ getBloomFilterHashes cfg flow' ∧ cfg.SameKey flow' flow := by
  rw [listed_after cfg events]
  simp only [packetStr_inj]

end

end Ns3Fancy.Switch
