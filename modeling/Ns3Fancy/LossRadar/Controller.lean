import Ns3Fancy.LossRadar.Meter
import Mathlib.Algebra.Group.Action.Defs
import Mathlib.Tactic.NormNum

/-!
# The controller of LossRadar

The controller subtracts the registers of the other side, then scans the cells over and over: a cell
with counter 1 is taken for a packet, which is removed from all its cells, until a scan finds none.
The scan changes the cells it goes through. On the filter of the lost packets every packet taken is
one of them, and the loop ends with the greatest set of packets that cannot be told apart.
-/

namespace Ns3Fancy.LossRadar
open Switch Function Ibf
set_option autoImplicit false

section
variable (cfg : LossRadarConfig)

/-! ## The decoding loop -/

/-- The registers and `packets_lost`. For the record: the value each decrement found, and the packets and registers
after each packet taken. -/
structure Decoding where
  regs : Registers
  packetsLost : List FiveTuple := []
  decremented : List UInt32 := []
  history : List (List FiveTuple × Registers) := []

/-- A packet is removed from one of its cells. -/
def removeFrom (flow : FiveTuple) (d : Decoding) (i : Nat) : Decoding :=
  { d with
    regs := update d.regs i { flow := xorFlow (d.regs i).flow flow, pktCounter := (d.regs i).pktCounter - 1 }
    decremented := d.decremented ++ [(d.regs i).pktCounter] }

/-- A packet is taken: it is listed, then removed from all its cells. -/
def takePacket (flow : FiveTuple) (d : Decoding) : Decoding :=
  let d := (cfg.getMeterHashIndexes flow).foldl (removeFrom flow) { d with packetsLost := d.packetsLost ++ [flow] }
  { d with history := d.history ++ [(d.packetsLost, d.regs)] }

/-- One cell of a scan; the flag is `step`. -/
def scanCell (d : Decoding × Bool) (i : Nat) : Decoding × Bool :=
  if (d.1.regs i).pktCounter = 1 then (takePacket cfg (d.1.regs i).flow d.1, true) else d

def scan (order : List Nat) (d : Decoding) : Decoding × Bool := order.foldl (scanCell cfg) (d, false)

/-- `while (not converged)`, at most `fuel` rounds; the cells of a round are scanned in the given order. -/
def peel (order : List Nat) : Nat → Decoding → Option Decoding
  | 0, _ => none
  | fuel + 1, d => if (scan cfg order d).2 then peel order fuel (scan cfg order d).1 else some (scan cfg order d).1

/-- The loop on the given registers ends. -/
def Converges (order : List Nat) (regs : Registers) (d : Decoding) : Prop :=
  ∃ fuel, peel cfg order fuel { regs := regs } = some d

/-! ## The whole controller -/

/-- The arguments of `SetFailureEvent` that come from decoding. -/
structure Report where
  packetsLost : List FiveTuple
  nonPureCells : Nat
  nonDetected : UInt32
  totalLost : UInt32
  deriving DecidableEq, Repr

/-- The order of the source. -/
def cellOrder : List Nat := List.range cfg.numCells

/-- The sum of the counters, in 32 bits. -/
def totalPackets (regs : Registers) : UInt32 := (cellOrder cfg).foldl (fun total i => total + (regs i).pktCounter) 0

def nonDetectedPackets (regs : Registers) : UInt32 :=
  (cellOrder cfg).foldl (fun total i => if 0 < (regs i).pktCounter then total + (regs i).pktCounter else total) 0

def nonPureCells (regs : Registers) : Nat := ((cellOrder cfg).filter fun i => decide (0 < (regs i).pktCounter)).length

/-- What the controller reports for the two sides' registers of a batch; the quotients are by `m_numHashes`. -/
def controller (fuel : Nat) (um dm : Registers) : Option Report :=
  (peel cfg (cellOrder cfg) fuel { regs := difference cfg um dm }).map fun d =>
    { packetsLost := d.packetsLost
      nonPureCells := nonPureCells cfg d.regs
      nonDetected := nonDetectedPackets cfg d.regs / .ofNat cfg.numHashes
      totalLost := totalPackets cfg (difference cfg um dm) / .ofNat cfg.numHashes }

end

/-! ## Taking a packet -/

section
variable {cfg : LossRadarConfig}

theorem sub_sub_counter (a b c : UInt32) : a - b - c = a - (c + b) := by
  rw [UInt32.sub_eq_iff_eq_add, UInt32.sub_eq_iff_eq_add, UInt32.add_assoc, UInt32.sub_add_cancel]

/-- What removing a packet from a list of cells does. -/
theorem foldl_removeFrom (flow : FiveTuple) (is : List Nat) (d : Decoding) :
    let d' := is.foldl (removeFrom flow) d
    d'.packetsLost = d.packetsLost ∧ d'.history = d.history ∧
      ∀ i, d'.regs i = { flow := (d.regs i).flow - is.count i • flow
                         pktCounter := (d.regs i).pktCounter - .ofNat (is.count i) } := by
  induction is generalizing d with
  | nil => simp
  | cons j js ih =>
    obtain ⟨lost, history, regs⟩ := ih (removeFrom flow d j)
    refine ⟨lost, history, fun i => ?_⟩
    rw [List.foldl_cons, regs i]
    by_cases here : i = j
    · subst here
      simp only [removeFrom, update_self, List.count_cons_self, succ_nsmul', UInt32.ofNat_add, xorFlow_eq_sub]
      rw [sub_sub, sub_sub_counter]
      rfl
    · simp only [removeFrom, update_of_ne here, List.count_cons_of_ne (Ne.symm here)]

/-- If every cell is hit often enough, no decrement finds a zero. -/
theorem foldl_removeFrom_decremented (flow : FiveTuple) (is : List Nat) (d : Decoding)
    (enough : ∀ i, is.count i ≤ (d.regs i).pktCounter.toNat) :
    ∀ v ∈ (is.foldl (removeFrom flow) d).decremented, v ∈ d.decremented ∨ 0 < v := by
  induction is generalizing d with
  | nil => exact fun v mem => .inl mem
  | cons j js ih =>
    have positive : 0 < (d.regs j).pktCounter.toNat := by
      have := enough j
      rw [List.count_cons_self] at this
      omega
    have one : (1 : UInt32) ≤ (d.regs j).pktCounter := UInt32.le_iff_toNat_le.2 positive
    have rest : ∀ i, js.count i ≤ ((removeFrom flow d j).regs i).pktCounter.toNat := by
      intro i
      have := enough i
      by_cases here : i = j
      · subst here
        rw [List.count_cons_self] at this
        simp only [removeFrom, update_self, UInt32.toNat_sub_of_le _ _ one, UInt32.toNat_one]
        omega
      · rw [List.count_cons_of_ne (Ne.symm here)] at this
        simpa only [removeFrom, update_of_ne here] using this
    intro v mem
    rcases ih (removeFrom flow d j) rest v mem with old | new
    · rcases List.mem_append.1 old with old | new
      · exact .inl old
      · rw [List.mem_singleton] at new
        subst new
        exact .inr (UInt32.lt_iff_toNat_lt.2 positive)
    · exact .inr new

/-- Removing a packet of a multiset gives the filter of the rest. -/
theorem registersOf_erase {R : Multiset FiveTuple} {x : FiveTuple} (mem : x ∈ R) (i : Nat) :
    ({ flow := (registersOf cfg R i).flow - (cfg.getMeterHashIndexes x).count i • x
       pktCounter := (registersOf cfg R i).pktCounter - .ofNat ((cfg.getMeterHashIndexes x).count i) } :
      LossRadarPacketInfo) = registersOf cfg (R.erase x) i := by
  have whole : registersOf cfg R i = registersOf cfg (x ::ₘ R.erase x) i := by rw [Multiset.cons_erase mem]
  rw [whole]
  simp only [registersOf, keySum_cons, occ_cons, UInt32.ofNat_add]
  rw [add_sub_cancel_left, UInt32.add_comm, UInt32.add_sub_cancel]

/-! ## The invariant of the loop -/

/-- What the loop has done to the filter of `L` so far: it has peeled off the packets it lists, every decrement found
a positive counter, and after every packet the registers were the filter of what was left. -/
structure Decodes (cfg : LossRadarConfig) (L R : Multiset FiveTuple) (d : Decoding) : Prop where
  peels : Peels cfg.getMeterHashIndexes L d.packetsLost R
  regs : d.regs = registersOf cfg R
  positive : ∀ v ∈ d.decremented, 0 < v
  history : ∀ h ∈ d.history, (h.1 : Multiset FiveTuple) ≤ L ∧ h.2 = registersOf cfg (L - h.1)

theorem Decodes.le {L R : Multiset FiveTuple} {d : Decoding} (h : Decodes cfg L R d) : R ≤ L := by
  rw [← h.peels.conserves]
  exact Multiset.le_add_left _ _

theorem Decodes.sub {L R : Multiset FiveTuple} {d : Decoding} (h : Decodes cfg L R d) :
    L - (d.packetsLost : Multiset FiveTuple) = R := by
  rw [← h.peels.conserves, add_tsub_cancel_left]

/-- A cell with counter 1 holds one packet of the rest. -/
theorem Decodes.pure {L R : Multiset FiveTuple} {d : Decoding} (h : Decodes cfg L R d)
    (small : cfg.numHashes * L.card < 2 ^ 32) {i : Nat} (one : (d.regs i).pktCounter = 1) :
    Pure cfg.getMeterHashIndexes R i (d.regs i).flow := by
  have few : cfg.numHashes * R.card < 2 ^ 32 :=
    Nat.lt_of_le_of_lt (Nat.mul_le_mul_left _ (Multiset.card_le_card h.le)) small
  have once : occ cfg.getMeterHashIndexes R i = 1 := by
    rw [← toNat_pktCounter cfg few i, ← h.regs, one]
    rfl
  obtain ⟨x, pure⟩ := exists_pure once
  have shown : (d.regs i).flow = x := by
    rw [h.regs]
    exact pure.keySum_eq
  rw [shown]
  exact pure

/-- **A packet is taken.** -/
theorem Decodes.takePacket {L R : Multiset FiveTuple} {d : Decoding} (h : Decodes cfg L R d)
    (small : cfg.numHashes * L.card < 2 ^ 32) {i : Nat} (one : (d.regs i).pktCounter = 1) :
    Decodes cfg L (R.erase (d.regs i).flow) (takePacket cfg (d.regs i).flow d) ∧
      (LossRadar.takePacket cfg (d.regs i).flow d).packetsLost = d.packetsLost ++ [(d.regs i).flow] := by
  have pure := h.pure small one
  generalize (d.regs i).flow = x at pure ⊢
  obtain ⟨lost, history, regs⟩ := foldl_removeFrom x (cfg.getMeterHashIndexes x) { d with packetsLost := d.packetsLost ++ [x] }
  have few : cfg.numHashes * R.card < 2 ^ 32 :=
    Nat.lt_of_le_of_lt (Nat.mul_le_mul_left _ (Multiset.card_le_card h.le)) small
  have enough : ∀ j, (cfg.getMeterHashIndexes x).count j ≤ (d.regs j).pktCounter.toNat := by
    intro j
    rw [h.regs, toNat_pktCounter cfg few, ← Multiset.cons_erase pure.mem, occ_cons]
    exact Nat.le_add_right _ _
  have after : (LossRadar.takePacket cfg x d).regs = registersOf cfg (R.erase x) := by
    funext j
    exact (regs j).trans (by rw [h.regs]; exact registersOf_erase pure.mem j)
  have peels : Peels cfg.getMeterHashIndexes L (d.packetsLost ++ [x]) (R.erase x) := h.peels.snoc pure
  refine ⟨⟨?_, after, ?_, ?_⟩, lost⟩
  · rw [show (LossRadar.takePacket cfg x d).packetsLost = _ from lost]
    exact peels
  · intro v mem
    rcases foldl_removeFrom_decremented x _ { d with packetsLost := d.packetsLost ++ [x] } enough v mem with old | new
    · exact h.positive v old
    · exact new
  · intro entry mem
    rcases List.mem_append.1 mem with old | new
    · exact h.history entry (by rwa [history] at old)
    · rw [List.mem_singleton] at new
      subst new
      have left : L - ((d.packetsLost ++ [x] : List FiveTuple) : Multiset FiveTuple) = R.erase x := by
        rw [← peels.conserves, add_tsub_cancel_left]
      have sub : ((d.packetsLost ++ [x] : List FiveTuple) : Multiset FiveTuple) ≤ L := by
        rw [← peels.conserves]
        exact Multiset.le_add_right _ _
      simp only [lost]
      rw [left]
      exact ⟨sub, after⟩

/-! ## Scans and rounds -/

/-- What a scan does, from the state and flag it starts with. -/
theorem Decodes.foldl_scanCell {L : Multiset FiveTuple} (small : cfg.numHashes * L.card < 2 ^ 32) (order : List Nat)
    {R : Multiset FiveTuple} {d : Decoding} (h : Decodes cfg L R d) (flag : Bool) :
    let r := order.foldl (scanCell cfg) (d, flag)
    (∃ R', Decodes cfg L R' r.1) ∧ d.packetsLost.length ≤ r.1.packetsLost.length ∧
      (r.2 = true → flag = true ∨ d.packetsLost.length < r.1.packetsLost.length) ∧
      (r.2 = false → flag = false ∧ r.1 = d ∧ ∀ i ∈ order, (d.regs i).pktCounter ≠ 1) := by
  induction order generalizing R d flag with
  | nil => exact ⟨⟨R, h⟩, Nat.le_refl _, .inl, fun off => ⟨off, rfl, by simp⟩⟩
  | cons i order ih =>
    rw [List.foldl_cons]
    by_cases one : (d.regs i).pktCounter = 1
    · obtain ⟨next, lost⟩ := h.takePacket small one
      have more : (LossRadar.takePacket cfg (d.regs i).flow d).packetsLost.length = d.packetsLost.length + 1 := by
        rw [lost, List.length_append, List.length_singleton]
      have cell : scanCell cfg (d, flag) i = (LossRadar.takePacket cfg (d.regs i).flow d, true) := if_pos one
      obtain ⟨decodes, grows, -, quiet⟩ := ih next true
      rw [cell]
      refine ⟨decodes, by omega, fun _ => .inr (by omega), fun off => ?_⟩
      cases (quiet off).1
    · have cell : scanCell cfg (d, flag) i = (d, flag) := if_neg one
      obtain ⟨decodes, grows, moved, quiet⟩ := ih h flag
      rw [cell]
      refine ⟨decodes, grows, moved, fun off => ?_⟩
      obtain ⟨flagOff, same, none⟩ := quiet off
      refine ⟨flagOff, same, ?_⟩
      simpa [one] using none

/-- A scan that found a packet has one more in its list; one that found none changed nothing. -/
theorem Decodes.scan {L : Multiset FiveTuple} (small : cfg.numHashes * L.card < 2 ^ 32) (order : List Nat)
    {R : Multiset FiveTuple} {d : Decoding} (h : Decodes cfg L R d) :
    (∃ R', Decodes cfg L R' (scan cfg order d).1) ∧
      ((LossRadar.scan cfg order d).2 = true → d.packetsLost.length < (LossRadar.scan cfg order d).1.packetsLost.length) ∧
      ((LossRadar.scan cfg order d).2 = false →
        (LossRadar.scan cfg order d).1 = d ∧ ∀ i ∈ order, (d.regs i).pktCounter ≠ 1) := by
  obtain ⟨decodes, -, moved, quiet⟩ := h.foldl_scanCell small order false
  refine ⟨decodes, fun found => ?_, fun off => (quiet off).2⟩
  rcases moved found with flag | more
  · cases flag
  · exact more

theorem Decodes.length_le {L R : Multiset FiveTuple} {d : Decoding} (h : Decodes cfg L R d) :
    d.packetsLost.length ≤ L.card := by
  rw [← h.peels.conserves, Multiset.card_add, Multiset.coe_card]
  exact Nat.le_add_right _ _

/-- **The loop ends**: every round but the last takes a packet. -/
theorem Decodes.peel {L : Multiset FiveTuple} (small : cfg.numHashes * L.card < 2 ^ 32) (order : List Nat) (fuel : Nat)
    {R : Multiset FiveTuple} {d : Decoding} (h : Decodes cfg L R d) (enough : L.card < d.packetsLost.length + fuel) :
    ∃ d' R', peel cfg order fuel d = some d' ∧ Decodes cfg L R' d' ∧ ∀ i ∈ order, (d'.regs i).pktCounter ≠ 1 := by
  induction fuel generalizing R d with
  | zero =>
    have := h.length_le
    omega
  | succ fuel ih =>
    obtain ⟨⟨R', next⟩, moved, quiet⟩ := h.scan small order
    cases flag : (LossRadar.scan cfg order d).2 with
    | true =>
      have more := moved flag
      obtain ⟨d', R'', run, decodes, none⟩ := ih next (by omega)
      refine ⟨d', R'', ?_, decodes, none⟩
      rw [LossRadar.peel, flag, if_pos rfl, run]
    | false =>
      obtain ⟨same, none⟩ := quiet flag
      refine ⟨d, R, ?_, h, none⟩
      rw [LossRadar.peel, flag, same]
      rfl

theorem peel_more {order : List Nat} {fuel : Nat} {d d' : Decoding} (run : peel cfg order fuel d = some d') (k : Nat) :
    peel cfg order (fuel + k) d = some d' := by
  induction fuel generalizing d with
  | zero => cases run
  | succ fuel ih =>
    rw [Nat.succ_add]
    rw [peel] at run ⊢
    split
    · rename_i flag
      rw [if_pos flag] at run
      exact ih run
    · rename_i flag
      rwa [if_neg flag] at run

/-- The result of the loop does not depend on how long one is ready to wait. -/
theorem Converges.unique {order : List Nat} {regs : Registers} {d d' : Decoding} (h : Converges cfg order regs d)
    (h' : Converges cfg order regs d') : d = d' := by
  obtain ⟨fuel, run⟩ := h
  obtain ⟨fuel', run'⟩ := h'
  have more := peel_more run fuel'
  rw [Nat.add_comm, peel_more run' fuel] at more
  exact (Option.some.inj more).symm

theorem Decodes.start (cfg : LossRadarConfig) (L : Multiset FiveTuple) : Decodes cfg L L { regs := registersOf cfg L } where
  peels := .nil
  regs := rfl
  positive := by simp
  history := by simp

/-- The loop on the filter of `L`, for any order of the cells. -/
theorem converges_registersOf {L : Multiset FiveTuple} (small : cfg.numHashes * L.card < 2 ^ 32) (order : List Nat) :
    ∃ d R, peel cfg order (L.card + 1) { regs := registersOf cfg L } = some d ∧ Decodes cfg L R d ∧
      ∀ i ∈ order, (d.regs i).pktCounter ≠ 1 :=
  (Decodes.start cfg L).peel small order (L.card + 1) (by simp)

/-! ## Totals -/

theorem foldl_add_ofNat (f : Nat → Nat) (order : List Nat) (a : Nat) :
    order.foldl (fun total i => total + UInt32.ofNat (f i)) (.ofNat a) = .ofNat (a + (order.map f).sum) := by
  induction order generalizing a with
  | nil => simp
  | cons i order ih =>
    rw [List.foldl_cons, ← UInt32.ofNat_add, ih, List.map_cons, List.sum_cons, Nat.add_assoc]

theorem sum_range_occ (L : Multiset FiveTuple) :
    ((cellOrder cfg).map (occ cfg.getMeterHashIndexes L)).sum = cfg.numHashes * L.card := by
  rw [← sum_occ cfg.indexes_lt cfg.length_indexes L]
  exact (Multiset.sum_coe _).symm

theorem totalPackets_registersOf (L : Multiset FiveTuple) :
    totalPackets cfg (registersOf cfg L) = .ofNat (cfg.numHashes * L.card) := by
  have total := foldl_add_ofNat (occ cfg.getMeterHashIndexes L) (cellOrder cfg) 0
  rw [sum_range_occ, Nat.zero_add] at total
  exact total

/-- Empty cells add nothing. -/
theorem nonDetectedPackets_eq (regs : Registers) : nonDetectedPackets cfg regs = totalPackets cfg regs := by
  simp only [nonDetectedPackets, totalPackets]
  congr 1
  funext total i
  split
  · rfl
  · rename_i zero
    have none : (regs i).pktCounter = 0 := by
      rw [UInt32.lt_iff_toNat_lt, UInt32.toNat_zero] at zero
      apply UInt32.toNat_inj.1
      rw [UInt32.toNat_zero]
      omega
    rw [none, UInt32.add_zero]

/-- The quotient is the number of packets. -/
theorem total_div {L : Multiset FiveTuple} (hashes : 1 ≤ cfg.numHashes) (small : cfg.numHashes * L.card < 2 ^ 32) :
    (totalPackets cfg (registersOf cfg L) / .ofNat cfg.numHashes).toNat = L.card := by
  rw [totalPackets_registersOf, UInt32.toNat_div, UInt32.toNat_ofNat_of_lt' (show _ < 2 ^ 32 from small)]
  rcases Nat.eq_zero_or_pos L.card with none | some_
  · rw [none, Nat.mul_zero, Nat.zero_div]
  · have fits : cfg.numHashes < 2 ^ 32 := Nat.lt_of_le_of_lt (Nat.le_mul_of_pos_right _ some_) small
    rw [UInt32.toNat_ofNat_of_lt' (show _ < 2 ^ 32 from fits), Nat.mul_div_cancel_left _ hashes]

/-! ## What the controller reports -/

variable (cfg)

/-- The registers after packets were metered one by one. -/
def meterAll (packets : List FiveTuple) : Registers :=
  packets.foldl (fun regs flow => meter flow (cfg.getMeterHashIndexes flow) regs) emptyRegisters

/-- Metering does not depend on the order. -/
theorem meterAll_eq (packets : List FiveTuple) : meterAll cfg packets = registersOf cfg packets := by
  have steps : ∀ (packets : List FiveTuple) (L : Multiset FiveTuple),
      packets.foldl (fun regs flow => meter flow (cfg.getMeterHashIndexes flow) regs) (registersOf cfg L) =
        registersOf cfg (packets + L) := by
    intro packets
    induction packets with
    | nil => intro L; simp
    | cons x xs ih =>
      intro L
      rw [List.foldl_cons, meter_registersOf, ih, ← Multiset.cons_coe, Multiset.cons_add, Multiset.add_cons]
  simpa [meterAll] using steps packets 0

/-- The difference of the meters is the filter of the packets that are missing downstream. -/
theorem difference_meterAll {up down : List FiveTuple} (sub : (down : Multiset FiveTuple) ≤ up) :
    difference cfg (meterAll cfg up) (meterAll cfg down) = registersOf cfg (up - down : Multiset FiveTuple) := by
  rw [meterAll_eq, meterAll_eq]
  conv_lhs => rw [← add_tsub_cancel_of_le sub]
  exact difference_registersOf cfg _ _

/-- **Soundness and conservation of decoding.** Let `L` be the packets metered upstream and not downstream. The loop
ends; what it decodes is part of `L`; no decrement finds a zero; after each packet the registers are the filter of the
rest; and the report counts every packet of `L` once, decoded or not. -/
theorem controller_sound (hashes : 1 ≤ cfg.numHashes) (up down : List FiveTuple) (sub : (down : Multiset FiveTuple) ≤ up)
    (few : cfg.numHashes * (up - down : Multiset FiveTuple).card < 2 ^ 32) :
    ∃ fuel d report,
      peel cfg (cellOrder cfg) fuel { regs := difference cfg (meterAll cfg up) (meterAll cfg down) } = some d ∧
      controller cfg fuel (meterAll cfg up) (meterAll cfg down) = some report ∧ report.packetsLost = d.packetsLost ∧
      (∀ x ∈ d.packetsLost, x ∈ (up - down : Multiset FiveTuple)) ∧
      (d.packetsLost : Multiset FiveTuple) ≤ (up - down : Multiset FiveTuple) ∧
      (∀ v ∈ d.decremented, 0 < v) ∧
      (∀ h ∈ d.history, h.2 = registersOf cfg (up - down - h.1 : Multiset FiveTuple)) ∧
      d.regs = registersOf cfg (up - down - d.packetsLost : Multiset FiveTuple) ∧
      report.packetsLost.length + report.nonDetected.toNat = (up - down : Multiset FiveTuple).card ∧
      report.totalLost.toNat = (up - down : Multiset FiveTuple).card := by
  obtain ⟨d, R, run, decodes, -⟩ := converges_registersOf few (cellOrder cfg)
  have diff := difference_meterAll cfg sub
  generalize (up - down : Multiset FiveTuple) = L at *
  have below : (d.packetsLost : Multiset FiveTuple) ≤ L := by
    rw [← decodes.peels.conserves]
    exact Multiset.le_add_right _ _
  have fewLeft : cfg.numHashes * R.card < 2 ^ 32 :=
    Nat.lt_of_le_of_lt (Nat.mul_le_mul_left _ (Multiset.card_le_card decodes.le)) few
  have reported : controller cfg (L.card + 1) (meterAll cfg up) (meterAll cfg down) = some
      { packetsLost := d.packetsLost
        nonPureCells := nonPureCells cfg d.regs
        nonDetected := nonDetectedPackets cfg d.regs / .ofNat cfg.numHashes
        totalLost := totalPackets cfg (registersOf cfg L) / .ofNat cfg.numHashes } := by
    rw [controller, diff, run, Option.map_some]
  refine ⟨L.card + 1, d, _, ?_, reported, rfl, fun x mem => Multiset.mem_of_le below (Multiset.mem_coe.2 mem), below,
    decodes.positive, fun h mem => (decodes.history h mem).2, ?_, ?_, ?_⟩
  · rw [diff, run]
  · rw [decodes.sub, decodes.regs]
  · simp only [nonDetectedPackets_eq, decodes.regs, total_div hashes fewLeft]
    rw [← decodes.peels.conserves, Multiset.card_add, Multiset.coe_card]
  · exact total_div hashes few

/-- Two cells and one hash by the first byte of the source address: 1, 2 and 4 go to cell 0, the rest to cell 1. -/
def byteConfig : LossRadarConfig where
  numBatches := 2
  numCells := 2
  numHashes := 1
  batchTime := 2
  tmDropRate := 0
  hash32 _ bs := if bs.headD 0 = 1 ∨ bs.headD 0 = 2 ∨ bs.headD 0 = 4 then 0 else 1
  cells_pos := Nat.succ_pos _

theorem controller_sound_pair :
    ∃ fuel d report,
      peel byteConfig (cellOrder byteConfig) fuel
        { regs := difference byteConfig (meterAll byteConfig [{ srcIp := 1 }, { srcIp := 3 }])
            (meterAll byteConfig [{ srcIp := 1 }]) } = some d ∧
      controller byteConfig fuel (meterAll byteConfig [{ srcIp := 1 }, { srcIp := 3 }])
        (meterAll byteConfig [{ srcIp := 1 }]) = some report ∧ report.totalLost.toNat = 1 := by
  obtain ⟨fuel, d, report, run, reported, -, -, -, -, -, -, -, total⟩ := controller_sound byteConfig (by decide)
    [{ srcIp := 1 }, { srcIp := 3 }] [{ srcIp := 1 }] (by decide) (by decide)
  exact ⟨fuel, d, report, run, reported, total.trans (by decide)⟩

/-! ## Completeness -/

/-- What was not decoded is the greatest part of `L` in which no cell is hit exactly once. -/
structure LeavesGreatest (L : Multiset FiveTuple) (d : Decoding) : Prop where
  le : (d.packetsLost : Multiset FiveTuple) ≤ L
  stopping : Stopping cfg.getMeterHashIndexes (L - d.packetsLost)
  greatest : ∀ S ≤ L, Stopping cfg.getMeterHashIndexes S → S ≤ L - d.packetsLost

variable {cfg}

/-- A scan of all cells that finds no counter 1 is at a stopping set. -/
theorem stopping_of_quiet {R : Multiset FiveTuple} (small : cfg.numHashes * R.card < 2 ^ 32) {order : List Nat}
    (covers : ∀ i < cfg.numCells, i ∈ order) (quiet : ∀ i ∈ order, (registersOf cfg R i).pktCounter ≠ 1) :
    Stopping cfg.getMeterHashIndexes R := by
  intro i once
  obtain ⟨x, pure⟩ := exists_pure once
  have hit : i ∈ cfg.getMeterHashIndexes x := List.count_pos_iff.1 (by rw [pure.once]; exact Nat.one_pos)
  apply quiet i (covers i (cfg.indexes_lt x i hit))
  apply UInt32.toNat_inj.1
  rw [toNat_pktCounter cfg small, once]
  rfl

theorem leavesGreatest_of_converges {L : Multiset FiveTuple} (small : cfg.numHashes * L.card < 2 ^ 32) {order : List Nat}
    (covers : ∀ i < cfg.numCells, i ∈ order) {d : Decoding} (converges : Converges cfg order (registersOf cfg L) d) :
    LeavesGreatest cfg L d := by
  obtain ⟨d', R, run, decodes, quiet⟩ := converges_registersOf small order
  obtain rfl := converges.unique ⟨_, run⟩
  have fewLeft : cfg.numHashes * R.card < 2 ^ 32 :=
    Nat.lt_of_le_of_lt (Nat.mul_le_mul_left _ (Multiset.card_le_card decodes.le)) small
  refine ⟨?_, ?_, ?_⟩
  · rw [← decodes.peels.conserves]
    exact Multiset.le_add_right _ _
  · rw [decodes.sub]
    exact stopping_of_quiet fewLeft covers (by rwa [decodes.regs] at quiet)
  · rw [decodes.sub]
    exact decodes.peels.greatest

/-- The decoded packets are determined by `L`. -/
theorem LeavesGreatest.unique {L : Multiset FiveTuple} {d d' : Decoding} (h : LeavesGreatest cfg L d)
    (h' : LeavesGreatest cfg L d') : (d.packetsLost : Multiset FiveTuple) = d'.packetsLost := by
  have left : L - (d.packetsLost : Multiset FiveTuple) = L - d'.packetsLost :=
    le_antisymm (h'.greatest _ tsub_le_self h.stopping) (h.greatest _ tsub_le_self h'.stopping)
  calc (d.packetsLost : Multiset FiveTuple) = L - (L - d.packetsLost) := (tsub_tsub_cancel_of_le h.le).symm
    _ = L - (L - d'.packetsLost) := by rw [left]
    _ = d'.packetsLost := tsub_tsub_cancel_of_le h'.le

variable (cfg)

/-- **Completeness and independence of the order.** The loop ends and leaves exactly the greatest stopping set of the
missing packets; metering the packets or scanning the cells in another order decodes the same packets. -/
theorem decoding_complete (up down : List FiveTuple) (sub : (down : Multiset FiveTuple) ≤ up)
    (few : cfg.numHashes * (up - down : Multiset FiveTuple).card < 2 ^ 32) (order : List Nat)
    (covers : ∀ i < cfg.numCells, i ∈ order) :
    ∃ d, Converges cfg order (difference cfg (meterAll cfg up) (meterAll cfg down)) d ∧
      LeavesGreatest cfg (up - down) d ∧
      ∀ (up' down' : List FiveTuple) (order' : List Nat) (d' : Decoding), (down' : Multiset FiveTuple) ≤ up' →
        (up' - down' : Multiset FiveTuple) = up - down → (∀ i < cfg.numCells, i ∈ order') →
        Converges cfg order' (difference cfg (meterAll cfg up') (meterAll cfg down')) d' →
        (d'.packetsLost : Multiset FiveTuple) = d.packetsLost := by
  rw [difference_meterAll cfg sub]
  obtain ⟨d, R, run, -, -⟩ := converges_registersOf few order
  have greatest := leavesGreatest_of_converges few covers ⟨_, run⟩
  refine ⟨d, ⟨_, run⟩, greatest, ?_⟩
  intro up' down' order' d' sub' same covers' converges'
  rw [difference_meterAll cfg sub', same] at converges'
  exact (leavesGreatest_of_converges few covers' converges').unique greatest

theorem decoding_complete_pair :
    ∃ d, Converges byteConfig [1, 0] (difference byteConfig (meterAll byteConfig [{ srcIp := 1 }, { srcIp := 2 }])
        (meterAll byteConfig [])) d ∧
      LeavesGreatest byteConfig (([{ srcIp := 1 }, { srcIp := 2 }] : List FiveTuple) - ([] : List FiveTuple)) d := by
  obtain ⟨d, converges, greatest, -⟩ := decoding_complete byteConfig [{ srcIp := 1 }, { srcIp := 2 }] [] (by decide)
    (by decide) [1, 0] (by decide)
  exact ⟨d, converges, greatest⟩

/-! ### Counters that overflow -/

theorem add_self (x : FiveTuple) : x + x = 0 := xorFlow_self x

variable {cfg}

theorem keySum_replicate (x : FiveTuple) (n i : Nat) :
    keySum cfg.getMeterHashIndexes (Multiset.replicate n x) i = n • (cfg.getMeterHashIndexes x).count i • x := by
  rw [keySum, Multiset.map_replicate, Multiset.sum_replicate]

theorem occ_replicate (x : FiveTuple) (n i : Nat) :
    occ cfg.getMeterHashIndexes (Multiset.replicate n x) i = n * (cfg.getMeterHashIndexes x).count i := by
  rw [occ, Multiset.map_replicate, Multiset.sum_replicate, smul_eq_mul]

/-- `2 ^ 32` copies of a packet leave no trace. -/
theorem registersOf_wrap (x : FiveTuple) (L : Multiset FiveTuple) :
    registersOf cfg (Multiset.replicate (2 ^ 32) x + L) = registersOf cfg L := by
  funext i
  have even : ∀ y : FiveTuple, (2 ^ 32) • y = 0 := by
    intro y
    have twice : (2 ^ 32 : Nat) = 2 ^ 31 * 2 := by norm_num
    rw [twice, mul_nsmul', two_nsmul, add_self, nsmul_zero]
  simp only [registersOf, keySum_add, occ_add, keySum_replicate, occ_replicate, even, zero_add, UInt32.ofNat_add,
    UInt32.ofNat_mul]
  rw [show UInt32.ofNat (2 ^ 32) = 0 from rfl, UInt32.zero_mul, UInt32.zero_add]

/-- One cell and one hash. -/
def oneCell : LossRadarConfig where
  numBatches := 2
  numCells := 1
  numHashes := 1
  batchTime := 2
  tmDropRate := 0
  hash32 _ _ := 0
  cells_pos := Nat.one_pos

/-- `n` copies of the all-zero packet. -/
def copies (n : Nat) : List FiveTuple := List.replicate n {}

/-- Of `2 ^ 32 + 1` lost copies of a packet one is decoded, although the copies are all in one cell and none of them
can be told apart. -/
theorem not_complete_overflow :
    ∃ d, Converges oneCell (cellOrder oneCell)
        (difference oneCell (meterAll oneCell (copies (2 ^ 32 + 1))) (meterAll oneCell [])) d ∧
      d.packetsLost = [{}] ∧ ¬LeavesGreatest oneCell (copies (2 ^ 32 + 1) - ([] : List FiveTuple)) d := by
  have short : (peel oneCell (cellOrder oneCell) 2 { regs := meterAll oneCell [{}] }).map (·.packetsLost) = some [{}] := by
    decide
  obtain ⟨d, run, decoded⟩ := Option.map_eq_some_iff.1 short
  have all : (copies (2 ^ 32 + 1) : Multiset FiveTuple) =
      Multiset.replicate (2 ^ 32) ({} : FiveTuple) + (([{}] : List FiveTuple) : Multiset FiveTuple) := by
    rw [copies, Multiset.coe_replicate, Multiset.replicate_add, Multiset.replicate_one, Multiset.coe_singleton]
  have none : (copies (2 ^ 32 + 1) : Multiset FiveTuple) - ([] : List FiveTuple) = copies (2 ^ 32 + 1) :=
    tsub_zero _
  have registers : difference oneCell (meterAll oneCell (copies (2 ^ 32 + 1))) (meterAll oneCell []) =
      meterAll oneCell [{}] := by
    rw [difference_meterAll oneCell (Multiset.zero_le _), none, all, registersOf_wrap, meterAll_eq]
  rw [registers, none]
  refine ⟨d, ⟨2, run⟩, decoded, fun leaves => ?_⟩
  have stopping : Stopping oneCell.getMeterHashIndexes (copies (2 ^ 32 + 1)) := by
    intro i once
    rw [copies, Multiset.coe_replicate, occ_replicate] at once
    omega
  have whole := Multiset.card_le_card (leaves.greatest _ le_rfl stopping)
  rw [Multiset.card_sub leaves.le, decoded, copies, Multiset.coe_replicate, Multiset.card_replicate] at whole
  simp at whole

end

end Ns3Fancy.LossRadar
