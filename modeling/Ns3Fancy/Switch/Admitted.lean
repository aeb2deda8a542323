import Ns3Fancy.Switch.Limits
import Ns3Fancy.Switch.Beyond

/-!
# Exactly the admitted trees that are safe

What a START, a report and a pass of either exchange have to do for a switch whose attributes are admitted by their checkers,
and when they do it: within the limits every one of them ends, and for each limit there is a tree on which one does not.
-/

namespace Ns3Fancy.Switch
open Buffer Loop
set_option autoImplicit false

/-- As many nodes as the tree has layers and splits for. -/
def TreeAttributes.nodesInTree (a : TreeAttributes) : Nat := layerStart a.layerSplit.toNat a.treeDepth.toNat

/-- At least one layer, one cell to split into and one hash, and room for as many selections as a layer splits into. -/
structure TreeAttributes.Sensible (a : TreeAttributes) : Prop where
  deep : 1 ≤ a.treeDepth.toNat
  splits : 1 ≤ a.layerSplit.toNat
  wide : a.layerSplit.toNat ≤ a.counterWidth.toNat
  hashed : 1 ≤ a.rerouteBloomFilterNumHashes.toNat

/-- The limits, as a condition on the attributes. -/
structure TreeAttributes.Fit (a : TreeAttributes) : Prop where
  depth : a.treeDepth.toNat ≤ 255
  width : a.counterWidth.toNat ≤ 255
  nodes : a.nodesInTree ≤ 65535
  filter : 1 ≤ a.rerouteBloomFilterWidth.toNat
  hashes : a.rerouteBloomFilterNumHashes.toNat ≤ 2 * a.treeDepth.toNat
  boost : a.pipelineBoost = true → 3 ≤ a.treeDepth.toNat ∨ a.treeDepth.toNat = 2 ∧ a.counterWidth.toNat = 1

/-- A header as the other switch gets it: it says the configured width and has one record for each node, in order. -/
def ReadsBack {α : Type} (cfg : FancyAttributes) (width : Nat) (get : FancyHeader → Option (List (Nat × List α)))
    (hdr : FancyHeader) (records : List (Nat × List α)) : Prop :=
  ∃ h, (∀ payload, FancyHeader.deserialize (hdr.serialize ++ payload) = some (h, payload)) ∧ h.dataWidth.toNat = width ∧
    get h = some records ∧ records.map (·.1) = List.range cfg.nodesInTree

/-- **Safety** of the trees with these attributes, of which `Init` makes `nodes` nodes: whatever they have counted and
selected, the START and the report come to their end and say what is configured, and a pass of either exchange over the
records of the report comes to its end with a tree of the same shape. -/
structure TreeAttributes.Safe (a : TreeAttributes) (nodes : Nat) : Prop where
  start : ∀ cfg : FancyAttributes, cfg.Has a → ∀ t, CounterTree.Shaped cfg nodes t → ∀ seq,
    ∃ rounds hdr records, CounterTree.startHeader cfg rounds nodes seq t = some hdr ∧
      ReadsBack cfg cfg.layerSplit (FancyHeader.getMaximums cfg.layerSplit) hdr records
  report : ∀ cfg : FancyAttributes, cfg.Has a → ∀ remote, CounterTree.Shaped cfg nodes remote → ∀ seq counter,
    ∃ rounds hdr records, CounterTree.reportHeader cfg rounds nodes seq counter remote = some hdr ∧
      ReadsBack cfg cfg.counterWidth (FancyHeader.getCounters cfg.counterWidth) hdr records ∧
      ∀ t, CounterTree.Shaped cfg nodes t → ∀ pipelined, ∃ rounds t',
        CounterTree.counterExchange cfg rounds pipelined nodes seq records t = some t' ∧ CounterTree.Shaped cfg nodes t'

/-! ## The payloads -/

namespace CounterTree

section
variable {cfg : FancyAttributes} {F : List UInt32 → List (Finset Nat) → Prop} {C : UInt8 → Prop} {nodes rounds : Nat}
variable {t : CounterTree}

/-- The first selections of the nodes. -/
def selections (t : CounterTree) (i a : Nat) : UInt8 := ((rowAt t i 0).getD []).getD a 0

/-- The counters of the nodes. -/
def counts (t : CounterTree) (i a : Nat) : UInt32 := ((t[i]?).elim [] TreeNode.counters).getD a 0

theorem setDataMaximums_ends (keeps : Keeps cfg F C nodes t) {k : Nat} (node : k < nodes) (deep : 0 < cfg.treeDepth)
    {hdr : FancyHeader} (width : hdr.dataWidth.toNat ≤ cfg.layerSplit) :
    Ends ((rowAt t k 0).bind fun row => setDataMaximums row k hdr) fun h => h = hdr.setDataMaximums (selections t k) k := by
  obtain ⟨row, found, entries⟩ := rowAt_ends keeps node deep
  have fits : hdr.dataWidth.toNat ≤ row.length := by
    rw [entries.length]
    exact width
  rw [found, Option.bind_some, setDataMaximums, if_pos fits]
  refine .done ?_
  have same : selections t k = fun a => row.getD a 0 := by
    funext a
    rw [selections, found, Option.getD_some]
  rw [same]

theorem setDataCounter_ends (keeps : Keeps cfg (Sized cfg) C nodes t) {k : Nat} (node : k < nodes) {hdr : FancyHeader}
    (width : hdr.dataWidth.toNat ≤ cfg.counterWidth) :
    Ends ((t[k]?).bind fun n => setDataCounter n.counters k hdr) fun h => h = hdr.setDataCounter (counts t k) k := by
  obtain ⟨n, found, meets⟩ := keeps.get node
  have fits : hdr.dataWidth.toNat ≤ n.counters.length := by
    rw [meets.counted.1]
    exact width
  rw [found, Option.bind_some, setDataCounter, if_pos fits]
  refine .done ?_
  have same : counts t k = fun a => n.counters.getD a 0 := by
    funext a
    rw [counts, found, Option.elim_some]
  rw [same]

theorem addMaximums_succ (maximums : Nat → Nat → UInt8) (n : Nat) (h : FancyHeader) :
    h.addMaximums maximums (n + 1) = (h.addMaximums maximums n).setDataMaximums (maximums n) n := by
  simp [FancyHeader.addMaximums, List.range_succ]

theorem addCounters_succ (counters : Nat → Nat → UInt32) (n : Nat) (h : FancyHeader) :
    h.addCounters counters (n + 1) = (h.addCounters counters n).setDataCounter (counters n) n := by
  simp [FancyHeader.addCounters, List.range_succ]

theorem width_le (width : Nat) : (UInt8.ofNat width).toNat ≤ width := by
  rw [UInt8.toNat_ofNat']
  exact Nat.mod_le _ _

/-- What a START is, when it is ready. -/
structure IsStart (cfg : FancyAttributes) (nodes : Nat) (t : CounterTree) (hdr : FancyHeader) : Prop where
  action : hdr.action = GREY_START ||| COUNTER_MAXIMUMS
  size : hdr.dataSize = .ofNat nodes
  width : hdr.dataWidth = .ofNat cfg.layerSplit
  data : hdr.data = (List.range nodes).flatMap fun i => writeLE 2 i ++
    ((List.range hdr.dataWidth.toNat).map (selections t i)).flatMap fun x => [x]

/-- What a report is, when it is ready. -/
structure IsReport (cfg : FancyAttributes) (nodes : Nat) (t : CounterTree) (hdr : FancyHeader) : Prop where
  action : hdr.action = 0x34
  size : hdr.dataSize = .ofNat nodes
  width : hdr.dataWidth = .ofNat cfg.counterWidth
  data : hdr.data = (List.range nodes).flatMap fun i => writeLE 2 i ++
    ((List.range hdr.dataWidth.toNat).map (counts t i)).flatMap fun x => writeLE 4 x.toNat

theorem startHeader_ends (keeps : Keeps cfg F C nodes t) (deep : 0 < cfg.treeDepth) (few : nodes ≤ 65535)
    (enough : 65535 < rounds)
    (seq : UInt16) : Ends (startHeader cfg rounds nodes seq t) (IsStart cfg nodes t) := by
  refine (forLoop_ends (I := fun k h => h = FancyHeader.addMaximums (selections t) k _) (by omega) (by omega) ?_ rfl).mono ?_
  · rintro k _ node rfl
    rw [addMaximums_succ]
    refine setDataMaximums_ends keeps node deep ?_
    rw [FancyHeader.addMaximums_eq]
    exact width_le cfg.layerSplit
  · rintro _ rfl
    rw [FancyHeader.addMaximums_eq]
    refine ⟨?_, UInt16.zero_add _, rfl, rfl⟩
    show ((0 : UInt8) ||| (0x1f &&& (GREY_START ||| COUNTER_MAXIMUMS))) &&& 0xdf = GREY_START ||| COUNTER_MAXIMUMS
    decide

/-- The header of a report after `k` rounds. -/
def reported (cfg : FancyAttributes) (t : CounterTree) (k : Nat) : FancyHeader :=
  (({} : FancyHeader).setAction GREY_COUNTER |>.setId (.ofNat cfg.treeId)
    |>.setAction (GREY_COUNTER ||| MULTIPLE_COUNTERS) |>.setDataWidth (.ofNat cfg.counterWidth)).addCounters (counts t) k

theorem reported_succ (keeps : Keeps cfg (Sized cfg) C nodes t) {k : Nat} (node : k < nodes) :
    Ends ((t[k]?).bind fun n => setDataCounter n.counters k (reported cfg t k)) fun h => h = reported cfg t (k + 1) := by
  rw [show reported cfg t (k + 1) = (reported cfg t k).setDataCounter (counts t k) k from addCounters_succ _ _ _]
  refine setDataCounter_ends keeps node ?_
  rw [reported, FancyHeader.addCounters_eq]
  exact width_le cfg.counterWidth

theorem reported_isReport (seq : UInt16) (counter : UInt64) :
    IsReport cfg nodes t ((reported cfg t nodes).setSeq seq |>.setFSMFlag true |>.setCounter counter) := by
  rw [reported, FancyHeader.addCounters_eq]
  refine ⟨?_, UInt16.zero_add _, rfl, rfl⟩
  show (((0 : UInt8) ||| (0x1f &&& GREY_COUNTER)) ||| (0x1f &&& (GREY_COUNTER ||| MULTIPLE_COUNTERS))) ||| 0x20 = 0x34
  decide

theorem reportHeader_ends (keeps : Keeps cfg (Sized cfg) C nodes t) (few : nodes ≤ 65535) (enough : 65535 < rounds)
    (seq : UInt16) (counter : UInt64) : Ends (reportHeader cfg rounds nodes seq counter t) (IsReport cfg nodes t) := by
  refine (forLoop_ends (I := fun k h => h = reported cfg t k) (by omega) (by omega) ?_ rfl).map ?_
  · rintro k _ node rfl
    exact reported_succ keeps node
  · rintro _ rfl
    exact reported_isReport seq counter

/-- However many rounds it took. -/
theorem reportHeader_yields (keeps : Keeps cfg (Sized cfg) C nodes t) (seq : UInt16) (counter : UInt64) :
    Yields (reportHeader cfg rounds nodes seq counter t) (IsReport cfg nodes t) := by
  refine (forLoop_yields (I := fun k h => h = reported cfg t k) ?_ (Nat.zero_le _) rfl).map ?_
  · rintro k _ node rfl
    exact (reported_succ keeps node).yields
  · rintro _ rfl
    exact reported_isReport seq counter

end

end CounterTree

section
variable {a : TreeAttributes} {cfg : FancyAttributes} {nodes : Nat} {t : CounterTree} {hdr : FancyHeader}

theorem FancyAttributes.Has.sensible (has : cfg.Has a) (sensible : a.Sensible) : cfg.Sensible where
  deep := by rw [has.treeDepth]; exact sensible.deep
  splits := by rw [has.layerSplit]; exact sensible.splits
  wide := by rw [has.layerSplit, has.counterWidth]; exact sensible.wide
  hashed := by rw [has.numHashes]; exact sensible.hashed

theorem FancyAttributes.Has.nodesInTree (has : cfg.Has a) (sensible : a.Sensible) : cfg.nodesInTree = a.nodesInTree := by
  rw [nodesInTree_eq (has.sensible sensible).splits, has.layerSplit, has.treeDepth]
  rfl

theorem FancyAttributes.Has.loopsFit (has : cfg.Has a) (sensible : a.Sensible) (fit : a.Fit) : cfg.LoopsFit where
  depth := by rw [has.treeDepth]; exact fit.depth
  width := by rw [has.counterWidth]; exact fit.width
  nodes := by rw [has.nodesInTree sensible]; exact fit.nodes
  filter := by rw [has.filterWidth]; exact fit.filter
  hashes := by rw [has.numHashes, has.treeDepth]; exact fit.hashes
  boost := by rw [has.pipelineBoost, has.treeDepth, has.counterWidth]; exact fit.boost

theorem FancyAttributes.Sensible.nodesInTree_pos (sensible : cfg.Sensible) : 1 ≤ cfg.nodesInTree := by
  rw [nodesInTree_eq sensible.splits]
  have root : layerStart cfg.layerSplit 1 ≤ layerStart cfg.layerSplit cfg.treeDepth := layerStart_mono _ sensible.deep
  have one : layerStart cfg.layerSplit 1 = 1 := by simp [layerStart]
  omega

/-! ## Within the limits -/

/-- The records of a START. -/
def CounterTree.sentSelections (cfg : FancyAttributes) (t : CounterTree) : List (Nat × List UInt8) :=
  (List.range cfg.nodesInTree).map fun i => (i, (List.range cfg.layerSplit).map (CounterTree.selections t i))

/-- The records of a report. -/
def CounterTree.sentCounts (cfg : FancyAttributes) (t : CounterTree) : List (Nat × List UInt32) :=
  (List.range cfg.nodesInTree).map fun i => (i, (List.range cfg.counterWidth).map (CounterTree.counts t i))

theorem indices_of_range {α : Type} (n : Nat) (values : Nat → List α) :
    ((List.range n).map fun i => (i, values i)).map (·.1) = List.range n := by
  rw [List.map_map]
  exact List.map_id _

theorem CounterTree.IsStart.readsBack (is : CounterTree.IsStart cfg cfg.nodesInTree t hdr) (fits : cfg.layerSplit ≤ 255)
    (some_ : 1 ≤ cfg.nodesInTree) (few : cfg.nodesInTree ≤ 65535) :
    ReadsBack cfg cfg.layerSplit (FancyHeader.getMaximums cfg.layerSplit) hdr (CounterTree.sentSelections cfg t) := by
  have read := start_records fits some_ few is.action is.size is.width is.data
  refine ⟨hdr, fun payload => (read payload).1, ?_, (read []).2, indices_of_range _ _⟩
  rw [is.width]
  exact UInt8.toNat_ofNat_of_lt' (show cfg.layerSplit < 2 ^ 8 by omega)

theorem CounterTree.IsReport.readsBack (is : CounterTree.IsReport cfg cfg.nodesInTree t hdr) (fits : cfg.counterWidth ≤ 255)
    (some_ : 1 ≤ cfg.nodesInTree) (few : cfg.nodesInTree ≤ 65535) :
    ReadsBack cfg cfg.counterWidth (FancyHeader.getCounters cfg.counterWidth) hdr (CounterTree.sentCounts cfg t) := by
  have read := report_records fits some_ few is.action is.size is.width is.data
  refine ⟨hdr, fun payload => (read payload).1, ?_, (read []).2, indices_of_range _ _⟩
  rw [is.width]
  exact UInt8.toNat_ofNat_of_lt' (show cfg.counterWidth < 2 ^ 8 by omega)

/-- Within the limits every tree is safe. -/
theorem safe_of_fit (sensible : a.Sensible) (fit : a.Fit) (computed : nodes = a.nodesInTree) : a.Safe nodes where
  start cfg has t shaped seq := by
    have sensible' := has.sensible sensible
    have fit' := has.loopsFit sensible fit
    obtain rfl : nodes = cfg.nodesInTree := by rw [computed, has.nodesInTree sensible]
    obtain ⟨hdr, run, is⟩ := CounterTree.startHeader_ends shaped sensible'.deep fit'.nodes (show 65535 < 65536 by decide) seq
    exact ⟨_, hdr, _, run, is.readsBack (Nat.le_trans sensible'.wide fit'.width) sensible'.nodesInTree_pos fit'.nodes⟩
  report cfg has remote shaped seq counter := by
    have sensible' := has.sensible sensible
    have fit' := has.loopsFit sensible fit
    obtain rfl : nodes = cfg.nodesInTree := by rw [computed, has.nodesInTree sensible]
    have enough : 65535 < 65536 := by decide
    obtain ⟨hdr, run, is⟩ := CounterTree.reportHeader_ends shaped fit'.nodes enough seq counter
    refine ⟨_, hdr, _, run, is.readsBack fit'.width sensible'.nodesInTree_pos fit'.nodes, fun t shaped pipelined => ?_⟩
    refine ⟨65536, CounterTree.counterExchange_ends sensible' fit' enough shaped seq (indices_of_range _ _) ?_⟩
    intro r mem
    obtain ⟨i, -, rfl⟩ := List.mem_map.1 mem
    rw [List.length_map, List.length_range]

/-! ## Beyond the limits -/

theorem ReadsBack.unique {α : Type} {width : Nat} {get : FancyHeader → Option (List (Nat × List α))}
    {records records' : List (Nat × List α)}
    (one : ReadsBack cfg width get hdr records) (other : ReadsBack cfg width get hdr records') : records = records' := by
  obtain ⟨h, read, -, got, -⟩ := one
  obtain ⟨h', read', -, got', -⟩ := other
  have same : h = h' := by
    have both := (read []).symm.trans (read' [])
    exact congrArg Prod.fst (Option.some.inj both)
  subst same
  exact Option.some.inj (got.symm.trans got')

/-- The switch with these attributes that is small otherwise: every loss is dear. -/
def TreeAttributes.config (a : TreeAttributes) : FancyAttributes :=
  { smallConfig.toFancyAttributes with
    pipelineBoost := a.pipelineBoost
    treeDepth := a.treeDepth.toNat
    layerSplit := a.layerSplit.toNat
    counterWidth := a.counterWidth.toNat
    rerouteBloomFilterWidth := a.rerouteBloomFilterWidth.toNat
    rerouteBloomFilterNumHashes := a.rerouteBloomFilterNumHashes.toNat }

theorem config_has (a : TreeAttributes) : a.config.Has a := ⟨rfl, rfl, rfl, rfl, rfl, rfl⟩

theorem evenTree_shaped (sensible : cfg.Sensible) (nodes : Nat) (count : UInt32) (flows : Finset Nat) :
    CounterTree.Shaped cfg nodes (CounterTree.evenTree cfg nodes count flows) := by
  refine (CounterTree.evenTree_keeps cfg nodes count flows).mono fun n meets => meets.mono ?_ ?_
  · rintro _ _ ⟨rfl, rfl⟩
    exact ⟨List.length_replicate, List.length_replicate⟩
  · rintro _ rfl
    exact Nat.lt_of_lt_of_le sensible.splits sensible.wide

/-- The other side has counted nothing. -/
theorem sentCounts_zero {r : Nat × List UInt32}
    (mem : r ∈ CounterTree.sentCounts cfg (CounterTree.evenTree cfg nodes 0 ∅)) : ∀ x ∈ r.2, x = 0 := by
  obtain ⟨i, -, rfl⟩ := List.mem_map.1 mem
  intro x mem
  obtain ⟨j, -, rfl⟩ := List.mem_map.1 mem
  unfold CounterTree.counts
  cases found : (CounterTree.evenTree cfg nodes 0 ∅)[i]? with
  | none => rfl
  | some n =>
    obtain ⟨counters, -⟩ := ((CounterTree.evenTree_keeps cfg nodes 0 ∅).yields i n found).counted
    rw [Option.elim_some, counters, List.getD_eq_getElem?_getD, List.getElem?_replicate]
    split <;> rfl

/-- The number of records fits into the header. -/
theorem TreeAttributes.Safe.few (safe : a.Safe nodes) (sensible : a.Sensible) : a.nodesInTree ≤ 65535 := by
  have has := config_has a
  obtain ⟨_, _, records, _, h, -, -, got, indices⟩ :=
    safe.start a.config has _ (evenTree_shaped (has.sensible sensible) nodes 0 ∅) 0
  obtain ⟨r, read, rfl⟩ := Option.map_eq_some_iff.1 got
  have length : r.1.length = a.config.nodesInTree := by
    rw [← List.length_map (·.1), indices, List.length_range]
  have small : h.dataSize.toNat < 65536 := h.dataSize.toNat_lt
  rw [← has.nodesInTree sensible, ← length, length_readMany read]
  omega

/-- The width fits into the header. -/
theorem TreeAttributes.Safe.width (safe : a.Safe nodes) (sensible : a.Sensible) : a.counterWidth.toNat ≤ 255 := by
  have has := config_has a
  obtain ⟨_, _, records, _, ⟨h, -, width, -⟩, -⟩ :=
    safe.report a.config has _ (evenTree_shaped (has.sensible sensible) nodes 0 ∅) 0 0
  have small : h.dataWidth.toNat < 256 := h.dataWidth.toNat_lt
  rw [← has.counterWidth, ← width]
  omega

/-- A pass over the report of a side that has counted nothing. -/
theorem TreeAttributes.Safe.passes (safe : a.Safe nodes) (sensible : a.Sensible) (computed : nodes = a.nodesInTree)
    (shaped : CounterTree.Shaped a.config nodes t) (pipelined : Bool) :
    ∃ rounds, CounterTree.counterExchange a.config rounds pipelined nodes 0
      (CounterTree.sentCounts a.config (CounterTree.evenTree a.config nodes 0 ∅)) t ≠ none := by
  have has := config_has a
  have sensible' := has.sensible sensible
  have remote := evenTree_shaped sensible' nodes 0 ∅
  obtain ⟨_, hdr, records, run, readsBack, ends⟩ := safe.report a.config has _ remote 0 0
  obtain ⟨rounds, t', result, -⟩ := ends t shaped pipelined
  have is := CounterTree.reportHeader_yields remote 0 0 hdr run
  have few : nodes ≤ 65535 := by
    rw [computed]
    exact safe.few sensible
  obtain rfl : nodes = a.config.nodesInTree := by rw [computed, has.nodesInTree sensible]
  rw [readsBack.unique (is.readsBack (safe.width sensible) sensible'.nodesInTree_pos few)] at result
  exact ⟨rounds, by rw [result]; exact Option.some_ne_none t'⟩

theorem sentCounts_get {k : Nat} (inside : k < cfg.nodesInTree) (t : CounterTree) :
    ∃ row, (CounterTree.sentCounts cfg t)[k]? = some (k, row) := by
  refine ⟨(List.range cfg.counterWidth).map (CounterTree.counts t k), ?_⟩
  rw [CounterTree.sentCounts, List.getElem?_map, List.getElem?_range inside, Option.map_some]

theorem FancyAttributes.Sensible.lastLayerIndex_lt (sensible : cfg.Sensible) : cfg.lastLayerIndex < cfg.nodesInTree := by
  rw [lastLayerIndex_eq sensible.splits, nodesInTree_eq sensible.splits]
  obtain ⟨l, depth⟩ : ∃ l, cfg.treeDepth = l + 1 := ⟨cfg.treeDepth - 1, by have := sensible.deep; omega⟩
  rw [depth, Nat.add_sub_cancel]
  exact Nat.lt_succ_of_le (Nat.le_mul_of_pos_right _ sensible.splits)

/-- Trees that are safe are within the limits. -/
theorem fit_of_safe (sensible : a.Sensible) (computed : a.nodesInTree ≤ 65535 → nodes = a.nodesInTree) (safe : a.Safe nodes) :
    a.Fit := by
  have has := config_has a
  have sensible' := has.sensible sensible
  have computed := computed (safe.few sensible)
  have wide : 1 ≤ a.config.counterWidth := Nat.le_trans sensible'.splits sensible'.wide
  have keeps := CounterTree.evenTree_keeps a.config nodes 1 {0}
  have passes := safe.passes sensible computed (evenTree_shaped sensible' nodes 1 {0})
  -- a filter that cannot be set is found out by a lossy cell of the last layer
  have settable : ¬(2 * a.treeDepth.toNat < a.rerouteBloomFilterNumHashes.toNat ∨ a.rerouteBloomFilterWidth.toNat = 0) := by
    intro beyond
    obtain ⟨rounds, ends⟩ := passes false
    obtain ⟨row, found⟩ := sentCounts_get sensible'.lastLayerIndex_lt (CounterTree.evenTree a.config nodes 0 ∅)
    have zeros := sentCounts_zero (List.mem_of_getElem? found)
    have dear : (a.config.rerouteMinCost : Cost) < cost a.config.costType 1 1 := cost_pos .absolute Nat.one_pos 1
    refine ends (CounterTree.counterExchange_stuck (I := CounterTree.Keeps a.config (CounterTree.Lossy a.config)
      (fun _ => True) nodes)
      found (fun _ r _ _ _ keeps => CounterTree.exchangeNode_yields keeps r) (fun u keeps => ?_) ?_ 0)
    · exact CounterTree.exchangeNode_hashes keeps wide (CounterTree.setBloomFilter_stuck sensible'.hashed beyond) dear
        (show 1 ≤ 2 by decide) (Nat.le_refl _) zeros
    · exact keeps.mono fun n meets => meets.mono (fun _ _ counted => counted) fun _ _ => trivial
  refine ⟨?_, safe.width sensible, safe.few sensible, by omega, by omega, ?_⟩
  · by_contra deep
    obtain ⟨rounds, ends⟩ := passes false
    obtain ⟨row, first⟩ := sentCounts_get sensible'.nodesInTree_pos (CounterTree.evenTree a.config nodes 0 ∅)
    exact ends (CounterTree.counterExchange_stuck (I := fun _ => True) first (fun _ _ _ less => absurd less (Nat.not_lt_zero _))
      (fun u _ => CounterTree.exchangeNode_deep (show 256 ≤ a.treeDepth.toNat by omega) _ u) trivial 0)
  · intro boost
    by_contra shallow
    obtain ⟨rounds, ends⟩ := passes true
    obtain ⟨row, first⟩ := sentCounts_get sensible'.nodesInTree_pos (CounterTree.evenTree a.config nodes 0 ∅)
    have zeros := sentCounts_zero (List.mem_of_getElem? first)
    have wide' : 1 ≤ a.counterWidth.toNat := wide
    refine ends (CounterTree.counterExchange_stuck
      (I := CounterTree.Keeps a.config (CounterTree.Lossy a.config) (fun v => v = 0) nodes) first
      (fun _ _ _ less => absurd less (Nat.not_lt_zero _)) (fun u keeps => ?_) keeps 0)
    exact CounterTree.exchangeNode_boost keeps boost wide (show a.treeDepth.toNat ≤ 2 by omega)
      (show 2 ≤ a.counterWidth.toNat ∨ a.treeDepth.toNat ≤ 1 by omega) zeros

/-- **Which admitted trees are safe**: those within the limits, and no others. The number of nodes is computed in floating
point, so nothing is said of it when it is beyond the limit. -/
theorem safe_iff_fit (a : TreeAttributes) (sensible : a.Sensible) (nodes : Nat)
    (computed : a.nodesInTree ≤ 65535 → nodes = a.nodesInTree) : a.Safe nodes ↔ a.Fit :=
  ⟨fit_of_safe sensible computed, fun fit => safe_of_fit sensible fit (computed fit.nodes)⟩

/-- The tree of the default attributes. -/
theorem safe_default : (⟨5, 2, 16, 1000, 3, true⟩ : TreeAttributes).Safe 31 :=
  (safe_iff_fit ⟨5, 2, 16, 1000, 3, true⟩ ⟨by decide, by decide, by decide, by decide⟩ 31 fun _ => rfl).2
    ⟨by decide, by decide, by decide, by decide, by decide, fun _ => .inl (by decide)⟩

/-- The default tree with 256 counters to a node, with more hashes than there are, with a filter of no cells, with two layers,
deeper than its split allows, and with a split of one and 256 layers. -/
theorem not_safe_admitted :
    ¬(⟨5, 2, 256, 1000, 3, true⟩ : TreeAttributes).Safe 31 ∧ ¬(⟨5, 2, 16, 1000, 11, true⟩ : TreeAttributes).Safe 31 ∧
      ¬(⟨5, 2, 16, 0, 3, true⟩ : TreeAttributes).Safe 31 ∧ ¬(⟨2, 2, 16, 1000, 3, true⟩ : TreeAttributes).Safe 3 ∧
      ¬(⟨17, 2, 16, 1000, 3, true⟩ : TreeAttributes).Safe 131071 ∧
      ¬(⟨256, 1, 16, 1000, 3, true⟩ : TreeAttributes).Safe 256 := by
  refine ⟨fun safe => ?_, fun safe => ?_, fun safe => ?_, fun safe => ?_, fun safe => ?_, fun safe => ?_⟩
  · exact absurd (fit_of_safe ⟨by decide, by decide, by decide, by decide⟩ (fun _ => rfl) safe).width (by decide)
  · exact absurd (fit_of_safe ⟨by decide, by decide, by decide, by decide⟩ (fun _ => rfl) safe).hashes (by decide)
  · exact absurd (fit_of_safe ⟨by decide, by decide, by decide, by decide⟩ (fun _ => rfl) safe).filter (by decide)
  · exact absurd ((fit_of_safe ⟨by decide, by decide, by decide, by decide⟩ (fun _ => rfl) safe).boost rfl) (by decide)
  · exact absurd (fit_of_safe ⟨by decide, by decide, by decide, by decide⟩ (fun _ => rfl) safe).nodes (by decide)
  · exact absurd (fit_of_safe ⟨by decide, by decide, by decide, by decide⟩ (fun _ => (layerStart_one 256).symm) safe).depth
      (by decide)

end

end Ns3Fancy.Switch
