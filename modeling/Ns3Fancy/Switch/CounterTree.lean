import Ns3Fancy.Loop.Counter
import Ns3Fancy.Switch.SoftFailure

/-!
# The tree in vectors

`counter_tree` with the sizes that `InitPortInfo` gives its vectors, and the loops over it with the counters the source
counts them on: the payloads of a START and of a report, and the exchange. A program here comes to its end only if every loop
does and no access leaves its vector; `hashed_flows` and `last_flow` have the size of `counters` and are left out.
-/

namespace Ns3Fancy.Switch
open Buffer Loop
set_option autoImplicit false

structure TreeNode where
  counters : List UInt32
  bloomFilter : List (Finset Nat)
  maxCells : List (List UInt8)

/-- `counter_tree`, as a vector. -/
abbrev CounterTree := List TreeNode

namespace CounterTree
variable (cfg : FancyAttributes) (rounds : Nat)

/-! ## Accesses -/

/-- A level of the history of a node. -/
def rowAt (t : CounterTree) (i h : Nat) : Option (List UInt8) := (t[i]?).bind fun n => n.maxCells[h]?

def readCell (t : CounterTree) (i h j : Nat) : Option UInt8 := (rowAt t i h).bind fun row => row[j]?

/-- A change to the history of a node. -/
def modifyRow (i h : Nat) (f : List UInt8 → Option (List UInt8)) (t : CounterTree) : Option CounterTree :=
  modifyAt t i fun n => (modifyAt n.maxCells h f).map fun rows => { n with maxCells := rows }

def writeCell (i h j : Nat) (v : UInt8) (t : CounterTree) : Option CounterTree :=
  modifyRow i h (fun row => modifyAt row j fun _ => some v) t

/-! ## Payloads -/

/-- `SetDataMaximums` reads as many entries as the data width says. -/
def setDataMaximums (row : List UInt8) (index : Nat) (h : FancyHeader) : Option FancyHeader :=
  if h.dataWidth.toNat ≤ row.length then some (h.setDataMaximums (fun a => row.getD a 0) index) else none

def setDataCounter (row : List UInt32) (index : Nat) (h : FancyHeader) : Option FancyHeader :=
  if h.dataWidth.toNat ≤ row.length then some (h.setDataCounter (fun a => row.getD a 0) index) else none

/-- The START of the tree, for a tree of `nodes` nodes. -/
def startHeader (nodes : Nat) (seq : UInt16) (t : CounterTree) : Option FancyHeader :=
  let hdr := ({} : FancyHeader).setAction (GREY_START ||| COUNTER_MAXIMUMS) |>.setFSMFlag false |>.setSeq seq
    |>.setId (.ofNat cfg.treeId) |>.setDataWidth (.ofNat cfg.layerSplit)
  forLoop 16 nodes (fun index hdr => (rowAt t index 0).bind fun row => setDataMaximums row index hdr) rounds 0 hdr

/-- The report of the tree. -/
def reportHeader (nodes : Nat) (seq : UInt16) (counter : UInt64) (t : CounterTree) : Option FancyHeader :=
  let hdr := ({} : FancyHeader).setAction GREY_COUNTER |>.setId (.ofNat cfg.treeId)
    |>.setAction (GREY_COUNTER ||| MULTIPLE_COUNTERS) |>.setDataWidth (.ofNat cfg.counterWidth)
  (forLoop 16 nodes (fun index hdr => (t[index]?).bind fun n => setDataCounter n.counters index hdr) rounds 0 hdr).map
    fun hdr => hdr.setSeq seq |>.setFSMFlag true |>.setCounter counter

/-! ## The way up -/

def parentAddress (split : Nat) (child : UInt16) : UInt16 := ((child.toUInt32 - 1) / .ofNat split).toUInt16

def childShift (split : Nat) (child parent : UInt16) : UInt16 :=
  (child.toUInt32 - .ofNat split * parent.toUInt32 - 1).toUInt16

/-- The walk up from a cell of a node, `steps` steps, reading history level `level k` at the `k`-th: the node it ends at and
the path. -/
def climb (level : Nat → Nat) (steps : Nat) (t : CounterTree) (node cell : Nat) : Option (UInt16 × Bytes) :=
  forLoop 32 steps (fun k s =>
    let parent := parentAddress cfg.layerSplit s.1
    (readCell t parent.toNat (level k) (childShift cfg.layerSplit s.1 parent).toNat).map fun v => (parent, v :: s.2))
    rounds 0 (.ofNat node, [.ofNat cell])

/-- `GetHash` of a path. `Init` makes two hash functions for each layer, and there is no remainder of a division by zero. -/
def pathHash (path : Bytes) (index : Nat) : Option Nat :=
  if index < cfg.treeDepth * 2 % 2 ^ 32 ∧ 0 < cfg.rerouteBloomFilterWidth then
    some (cfg.getHash path index cfg.rerouteBloomFilterWidth) else none

/-- `SetBloomFilter` writes to `reroute`, a vector of the filter's width. -/
def setBloomFilter (path : Bytes) : Option Unit :=
  forLoop 32 cfg.rerouteBloomFilterNumHashes (fun k _ => (pathHash cfg path k).bind fun h =>
    if h < cfg.rerouteBloomFilterWidth then some () else none) rounds 0 ()

/-! ## The exchange -/

/-- The right shift of the history of a node, from the row `index` down. -/
def shiftHistory (i : Nat) : Nat → CounterTree → Option CounterTree
  | 0, t => some t
  | index + 1, t =>
    (forLoop 8 cfg.layerSplit (fun j t => (readCell t i index j).bind fun v => writeCell i (index + 1) j v t) rounds 0 t).bind
      (shiftHistory i index)

def clearFirst (i : Nat) (t : CounterTree) : Option CounterTree := modifyRow i 0 (fun row => some (row.map fun _ => 0)) t

/-- The way up from a cell that costs too much: to the filter from the last layer, to a soft failure from the others. -/
def judgeCell (pipelined : Bool) (t : CounterTree) (i j : Nat) (c : Cost) (flows : Nat) : Option Unit :=
  if cfg.lastLayerIndex ≤ i then
    if (cfg.rerouteMinCost : Cost) < c ∧ flows ≤ cfg.maxCounterCollisions then
      (climb cfg rounds (if pipelined then (· + 1) else fun _ => 0) (cfg.treeDepth - 1) t i j).bind fun s =>
        setBloomFilter cfg rounds s.2
    else some ()
  else if pipelined = true ∧ cfg.treeEnableSoftDetections = true ∧ (cfg.rerouteMinCost : Cost) < c then
    (climb cfg rounds (· + 1) (kArryTreeDepth cfg.layerSplit i + 1 - 1) t i j).map fun _ => ()
  else some ()

/-- One cell of a node: its cost, and what follows from it. -/
def exchangeCell (pipelined : Bool) (t : CounterTree) (i : Nat) (remote : List UInt32) (j : Nat)
    (currentMax : List (Nat × Cost)) : Option (List (Nat × Cost)) :=
  (remote[j]?).bind fun remoteCounter => (t[i]?).bind fun n => (n.counters[j]?).bind fun localCounter =>
    (n.bloomFilter[j]?).bind fun bloom =>
      let c := cost cfg.costType (localCounter - remoteCounter).toNat localCounter.toNat
      (judgeCell cfg rounds pipelined t i j c bloom.card).map fun _ => currentMax ++ [(j, c)]

/-- The first cells of the sorted list are the new selection. -/
def selectMax (i : Nat) (sorted : List (Nat × Cost)) (t : CounterTree) : Option CounterTree :=
  forLoop 32 cfg.layerSplit (fun jj t => (sorted[jj]?).bind fun m => writeCell i 0 jj (.ofNat m.1) t) rounds 0 t

/-- A lossy cell that is in neither of the last two selections. -/
def isNew (t : CounterTree) (i : Nat) (m : Nat × Cost) : Option Bool :=
  if 0 < m.2 then
    (rowAt t i 1).bind fun row => if row.all fun v => v.toNat != m.1 then
      (rowAt t i 2).map fun row => row.all fun v => v.toNat != m.1 else some false
  else some false

/-- The scan of boost: the tree, the slots filled and the backup; it stops when all slots are filled. -/
def boostScan (i : Nat) : List (Nat × Cost) → CounterTree × Nat × List Nat → Option (CounterTree × Nat × List Nat)
  | [], s => some s
  | m :: ms, s => (isNew s.1 i m).bind fun new =>
    if new then (writeCell i 0 s.2.1 (.ofNat m.1) s.1).bind fun t =>
      if (s.2.1 + 1) % 256 = cfg.layerSplit then some (t, (s.2.1 + 1) % 256, s.2.2)
      else boostScan i ms (t, (s.2.1 + 1) % 256, s.2.2)
    else boostScan i ms (s.1, s.2.1, s.2.2 ++ [m.1])

/-- The selection with boost, filled up from the backup. -/
def selectBoost (i : Nat) (sorted : List (Nat × Cost)) (t : CounterTree) : Option CounterTree :=
  (boostScan cfg i sorted (t, 0, [])).bind fun s =>
    forLoop 8 cfg.layerSplit (fun slot t => (s.2.2[slot - s.2.1]?).bind fun cell => writeCell i 0 slot (.ofNat cell) t)
      rounds s.2.1 s.1

/-- The loops that print the selection and the history. -/
def printHistory (i : Nat) (t : CounterTree) : Option Unit :=
  (forLoop 8 cfg.layerSplit (fun j _ => (readCell t i 0 j).map fun _ => ()) rounds 0 ()).bind fun _ =>
    forLoop 8 cfg.treeDepth (fun h _ =>
      forLoop 8 cfg.layerSplit (fun j _ => (readCell t i h j).map fun _ => ()) rounds 0 ()) rounds 0 ()

/-- One node of either exchange; the pipelined one shifts its history first. -/
def exchangeNode (pipelined : Bool) (r : Nat × List UInt32) (t : CounterTree) : Option CounterTree :=
  (if pipelined then shiftHistory cfg rounds r.1 (cfg.treeDepth - 1) t else some t).bind fun t =>
    (clearFirst r.1 t).bind fun t =>
      (forLoop 8 cfg.counterWidth (exchangeCell cfg rounds pipelined t r.1 r.2) rounds 0 []).bind fun currentMax =>
        (if pipelined && cfg.pipelineBoost then selectBoost cfg rounds r.1 (cfg.ns3.sort currentMax) t
          else selectMax cfg rounds r.1 (cfg.ns3.sort currentMax) t).bind fun t =>
            (printHistory cfg rounds r.1 t).map fun _ => t

/-- The reset of all nodes. -/
def resetFlows (nodes : Nat) (t : CounterTree) : Option CounterTree :=
  forLoop 32 nodes (fun i t => modifyAt t i fun n =>
    (forLoop 32 cfg.counterWidth (fun j bloom => modifyAt bloom j fun _ => some ∅) rounds 0 n.bloomFilter).map fun bloom =>
      { n with counters := n.counters.map fun _ => 0, bloomFilter := bloom }) rounds 0 t

/-- `PipelinedCounterExchangeAlgorithm` and `CounterExchangeAlgorithm`, on the records of a report. -/
def counterExchange (pipelined : Bool) (nodes : Nat) (seq : UInt16) (records : List (Nat × List UInt32)) (t : CounterTree) :
    Option CounterTree :=
  (forLoop 16 records.length (fun k t => (records[k]?).bind fun r => exchangeNode cfg rounds pipelined r t) rounds 0 t).bind
    fun t => if pipelined = true ∨ seq.toNat % cfg.treeDepth % 256 + 1 = cfg.treeDepth then resetFlows cfg rounds nodes t
      else some t

end CounterTree

/-! ## What the programs keep -/

/-- The history of a node has its size and entries that meet `C`; `F` is about the rest of it. -/
structure TreeNode.Meets (cfg : FancyAttributes) (F : List UInt32 → List (Finset Nat) → Prop) (C : UInt8 → Prop)
    (n : TreeNode) : Prop where
  counted : F n.counters n.bloomFilter
  maxCells : AllOf cfg.treeDepth (AllOf cfg.layerSplit C) n.maxCells

/-- A tree of `nodes` nodes. -/
abbrev CounterTree.Keeps (cfg : FancyAttributes) (F : List UInt32 → List (Finset Nat) → Prop) (C : UInt8 → Prop) (nodes : Nat)
    (t : CounterTree) : Prop := AllOf nodes (TreeNode.Meets cfg F C) t

namespace CounterTree

section
variable {cfg : FancyAttributes} {F : List UInt32 → List (Finset Nat) → Prop} {C : UInt8 → Prop} {nodes : Nat} {t : CounterTree}
variable {i h j : Nat} {v : UInt8} {f : List UInt8 → Option (List UInt8)} {rounds : Nat}

theorem rowAt_ends (keeps : Keeps cfg F C nodes t) (node : i < nodes) (level : h < cfg.treeDepth) :
    Ends (rowAt t i h) (AllOf cfg.layerSplit C) :=
  (keeps.get node).bind fun _ meets => meets.maxCells.get level

theorem rowAt_yields (keeps : Keeps cfg F C nodes t) (i h : Nat) : Yields (rowAt t i h) (AllOf cfg.layerSplit C) :=
  (keeps.yields i).bind fun _ meets => meets.maxCells.yields h

/-- No node has more levels than the tree is deep. -/
theorem rowAt_outside (keeps : Keeps cfg F C nodes t) (outside : cfg.treeDepth ≤ h) : rowAt t i h = none :=
  Option.bind_eq_none_iff.2 fun n found => ((keeps.yields i) n found).maxCells.outside outside

theorem readCell_ends (keeps : Keeps cfg F C nodes t) (node : i < nodes) (level : h < cfg.treeDepth)
    (slot : j < cfg.layerSplit) : Ends (readCell t i h j) C :=
  (rowAt_ends keeps node level).bind fun _ row => row.get slot

theorem readCell_yields (keeps : Keeps cfg F C nodes t) (i h j : Nat) : Yields (readCell t i h j) C :=
  (rowAt_yields keeps i h).bind fun _ row => row.yields j

theorem modifyRow_ends (keeps : Keeps cfg F C nodes t) (node : i < nodes) (level : h < cfg.treeDepth)
    (change : ∀ row, AllOf cfg.layerSplit C row → Ends (f row) (AllOf cfg.layerSplit C)) :
    Ends (modifyRow i h f t) (Keeps cfg F C nodes) :=
  modifyAt_ends keeps node fun _ meets => (modifyAt_ends meets.maxCells level change).map fun _ rows => ⟨meets.counted, rows⟩

theorem modifyRow_yields (keeps : Keeps cfg F C nodes t)
    (change : ∀ row, AllOf cfg.layerSplit C row → Yields (f row) (AllOf cfg.layerSplit C)) :
    Yields (modifyRow i h f t) (Keeps cfg F C nodes) :=
  modifyAt_yields keeps fun _ meets => (modifyAt_yields meets.maxCells change).map fun _ rows => ⟨meets.counted, rows⟩

theorem writeCell_ends (keeps : Keeps cfg F C nodes t) (node : i < nodes) (level : h < cfg.treeDepth)
    (slot : j < cfg.layerSplit)
    (cell : C v) : Ends (writeCell i h j v t) (Keeps cfg F C nodes) :=
  modifyRow_ends keeps node level fun _ row => modifyAt_ends row slot fun _ _ => .done cell

theorem writeCell_yields (keeps : Keeps cfg F C nodes t) (cell : C v) : Yields (writeCell i h j v t) (Keeps cfg F C nodes) :=
  modifyRow_yields keeps fun _ row => modifyAt_yields row fun _ _ => .done cell

theorem cleared {row : List UInt8} (zero : C 0) (entries : AllOf cfg.layerSplit C row) :
    AllOf cfg.layerSplit C (row.map fun _ => 0) := by
  refine ⟨by rw [List.length_map, entries.length], fun v mem => ?_⟩
  obtain ⟨-, -, rfl⟩ := List.mem_map.1 mem
  exact zero

theorem clearFirst_ends (keeps : Keeps cfg F C nodes t) (zero : C 0) (node : i < nodes) (deep : 0 < cfg.treeDepth) :
    Ends (clearFirst i t) (Keeps cfg F C nodes) :=
  modifyRow_ends keeps node deep fun _ row => .done (cleared zero row)

theorem clearFirst_yields (keeps : Keeps cfg F C nodes t) (zero : C 0) : Yields (clearFirst i t) (Keeps cfg F C nodes) :=
  modifyRow_yields keeps fun _ row => .done (cleared zero row)

theorem shiftHistory_ends (keeps : Keeps cfg F C nodes t) (node : i < nodes) {index : Nat} (inside : index < cfg.treeDepth)
    (narrow : cfg.layerSplit < 2 ^ 8) (enough : cfg.layerSplit < rounds) :
    Ends (shiftHistory cfg rounds i index t) (Keeps cfg F C nodes) := by
  induction index generalizing t with
  | zero => exact .done keeps
  | succ index ih =>
    refine (forLoop_ends (I := fun _ => Keeps cfg F C nodes) narrow enough (fun j u less keeps => ?_) keeps).bind fun u keeps =>
      ?_
    · exact (readCell_ends keeps node (by omega) less).bind fun v cell => writeCell_ends keeps node inside less cell
    · exact ih keeps (by omega)

theorem shiftHistory_yields (keeps : Keeps cfg F C nodes t) (index : Nat) :
    Yields (shiftHistory cfg rounds i index t) (Keeps cfg F C nodes) := by
  induction index generalizing t with
  | zero => exact .done keeps
  | succ index ih =>
    refine (forLoop_yields (I := fun _ => Keeps cfg F C nodes) (fun j u _ keeps => ?_) (Nat.zero_le _) keeps).bind
      fun u keeps => ih keeps
    exact (readCell_yields keeps i index j).bind fun v cell => writeCell_yields keeps cell

/-! ### The way up -/

theorem toNat_parentAddress {split : Nat} {child : UInt16} (below : 1 ≤ child.toNat) (fits : split < 2 ^ 32) :
    (parentAddress split child).toNat = (child.toNat - 1) / split := by
  have small : child.toNat < 65536 := child.toNat_lt
  have one : (1 : UInt32) ≤ child.toUInt32 := by
    rw [UInt32.le_iff_toNat_le, UInt16.toNat_toUInt32]
    exact below
  have quotient : (child.toNat - 1) / split ≤ child.toNat - 1 := Nat.div_le_self _ _
  rw [parentAddress, UInt32.toNat_toUInt16, UInt32.toNat_div, UInt32.toNat_sub_of_le _ _ one, UInt16.toNat_toUInt32,
    UInt32.toNat_ofNat_of_lt' (show split < 2 ^ 32 from fits)]
  exact Nat.mod_eq_of_lt (show (child.toNat - 1) / split < 65536 by omega)

theorem toNat_childShift {split : Nat} {child : UInt16} (below : 1 ≤ child.toNat) (fits : split < 2 ^ 32) :
    (childShift split child (parentAddress split child)).toNat = (child.toNat - 1) % split := by
  have small : child.toNat < 65536 := child.toNat_lt
  have whole := Nat.div_add_mod (child.toNat - 1) split
  have parent := toNat_parentAddress below fits
  have product : (UInt32.ofNat split * (parentAddress split child).toUInt32).toNat = split * ((child.toNat - 1) / split) := by
    rw [UInt32.toNat_mul, UInt16.toNat_toUInt32, parent, UInt32.toNat_ofNat_of_lt' (show split < 2 ^ 32 from fits)]
    exact Nat.mod_eq_of_lt (by omega)
  have first : UInt32.ofNat split * (parentAddress split child).toUInt32 ≤ child.toUInt32 := by
    rw [UInt32.le_iff_toNat_le, product, UInt16.toNat_toUInt32]
    omega
  have difference : (child.toUInt32 - UInt32.ofNat split * (parentAddress split child).toUInt32).toNat =
      child.toNat - split * ((child.toNat - 1) / split) := by
    rw [UInt32.toNat_sub_of_le _ _ first, product, UInt16.toNat_toUInt32]
  have one : (1 : UInt32) ≤ child.toUInt32 - UInt32.ofNat split * (parentAddress split child).toUInt32 := by
    rw [UInt32.le_iff_toNat_le, difference]
    show 1 ≤ _
    omega
  rw [childShift, UInt32.toNat_toUInt16, UInt32.toNat_sub_of_le _ _ one, difference]
  show (child.toNat - split * ((child.toNat - 1) / split) - 1) % 65536 = _
  rw [Nat.mod_eq_of_lt (by omega)]
  omega

/-- The parent of a node is in the layer above. -/
theorem inLayer_parent {split l c : Nat} (splits : 1 ≤ split) (layer : InLayer split (l + 1) c) :
    InLayer split l ((c - 1) / split) := by
  obtain ⟨low, high⟩ := layer
  simp only [layerStart] at low high
  constructor
  · rw [Nat.le_div_iff_mul_le splits]
    omega
  · rw [Nat.div_lt_iff_lt_mul splits]
    simp only [layerStart]
    omega

/-- **The way up** from a node of layer `l` stays in the tree for `l` steps. -/
theorem climb_ends (keeps : Keeps cfg F C nodes t) {l node cell : Nat} {level : Nat → Nat}
    (layer : InLayer cfg.layerSplit l node)
    (inside : node < nodes) (few : nodes ≤ 65535) (splits : 1 ≤ cfg.layerSplit) (fits : cfg.layerSplit < 2 ^ 32)
    (levels : ∀ k, k < l → level k < cfg.treeDepth) (short : l < 2 ^ 32) (enough : l < rounds) :
    Ends (climb cfg rounds level l t node cell) fun _ => True := by
  have start : (UInt16.ofNat node).toNat = node := UInt16.toNat_ofNat_of_lt' (show node < 2 ^ 16 by omega)
  refine (forLoop_ends (I := fun k s => InLayer cfg.layerSplit (l - k) s.1.toNat ∧ s.1.toNat < nodes) short enough ?_
    ⟨by rw [start]; exact layer, by rw [start]; exact inside⟩).mono fun _ _ => trivial
  rintro k ⟨child, path⟩ less ⟨layer, inside⟩
  dsimp only at layer inside ⊢
  obtain ⟨m, above⟩ : ∃ m, l - k = m + 1 := ⟨l - k - 1, by omega⟩
  rw [above] at layer
  have below : 1 ≤ child.toNat := by
    have low := layer.1
    simp only [layerStart] at low
    omega
  have parent := toNat_parentAddress below fits
  have shift := toNat_childShift below fits
  have up : (child.toNat - 1) / cfg.layerSplit ≤ child.toNat - 1 := Nat.div_le_self _ _
  refine (readCell_ends keeps (i := (parentAddress cfg.layerSplit child).toNat) ?_ (levels k less) ?_).map fun _ _ => ?_
  · rw [parent]
    omega
  · rw [shift]
    exact Nat.mod_lt _ splits
  · rw [parent, show l - (k + 1) = m by omega]
    exact ⟨inLayer_parent splits layer, by omega⟩

end

end CounterTree

end Ns3Fancy.Switch
