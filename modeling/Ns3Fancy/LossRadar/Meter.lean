import Ns3Fancy.Switch.Config
import Ns3Fancy.Ibf.Filter

/-!
# The meters of LossRadar

A port keeps, for every batch and cell, the exclusive or of the packets hashed into the cell and their
number, once for the packets it sends and once for those it receives. The registers of a batch are
the invertible filter of the packets metered into it, with keys added by exclusive or and hits counted
modulo `2 ^ 32`.
-/

namespace Ns3Fancy.LossRadar
open Switch Buffer Function
set_option autoImplicit false

/-! ## Exclusive or of flows -/

/-- Field by field, as the meters and the controller do. -/
def xorFlow (a b : FiveTuple) : FiveTuple where
  srcIp := a.srcIp ^^^ b.srcIp
  dstIp := a.dstIp ^^^ b.dstIp
  protocol := a.protocol ^^^ b.protocol
  srcPort := a.srcPort ^^^ b.srcPort
  dstPort := a.dstPort ^^^ b.dstPort
  id := a.id ^^^ b.id

theorem xorFlow_assoc (a b c : FiveTuple) : xorFlow (xorFlow a b) c = xorFlow a (xorFlow b c) := by
  simp [xorFlow, UInt32.xor_assoc, UInt16.xor_assoc, UInt8.xor_assoc]

theorem xorFlow_comm (a b : FiveTuple) : xorFlow a b = xorFlow b a := by
  simp [xorFlow, UInt32.xor_comm, UInt16.xor_comm, UInt8.xor_comm]

theorem xorFlow_zero (a : FiveTuple) : xorFlow a {} = a := by simp [xorFlow]

theorem xorFlow_self (a : FiveTuple) : xorFlow a a = {} := by simp [xorFlow]

instance : Add FiveTuple := ⟨xorFlow⟩
instance : Zero FiveTuple := ⟨{}⟩
instance : Neg FiveTuple := ⟨id⟩

/-- Flows under exclusive or; every flow is its own inverse. -/
instance : AddCommGroup FiveTuple where
  add_assoc := xorFlow_assoc
  zero_add a := (xorFlow_comm _ _).trans (xorFlow_zero a)
  add_zero := xorFlow_zero
  add_comm := xorFlow_comm
  neg_add_cancel := xorFlow_self
  nsmul := nsmulRec
  zsmul := zsmulRec

theorem xorFlow_eq_add (a b : FiveTuple) : xorFlow a b = a + b := rfl

theorem xorFlow_eq_sub (a b : FiveTuple) : xorFlow a b = a - b := rfl

/-! ## Attributes -/

structure LossRadarConfig where
  numBatches : Nat
  numCells : Nat
  numHashes : Nat
  /-- the batch time, in the simulator's ticks -/
  batchTime : Nat
  tmDropRate : Rat
  /-- The hash function with a given index, on a buffer. -/
  hash32 : Nat → Bytes → UInt32
  /-- Hashes are taken modulo the number of cells. -/
  cells_pos : 0 < numCells

def ipFiveTupleWithIdToBuffer (flow : FiveTuple) : Bytes :=
  writeLE 4 flow.srcIp.toNat ++ writeLE 4 flow.dstIp.toNat ++ writeLE 2 flow.id.toNat ++ writeLE 2 flow.srcPort.toNat ++
    writeLE 2 flow.dstPort.toNat ++ [flow.protocol]

namespace LossRadarConfig
variable (cfg : LossRadarConfig)

/-- The cells of a packet; two hashes may give the same. -/
def getMeterHashIndexes (flow : FiveTuple) : List Nat :=
  (List.range cfg.numHashes).map fun i => (cfg.hash32 i (ipFiveTupleWithIdToBuffer flow)).toNat % cfg.numCells

theorem indexes_lt (flow : FiveTuple) : ∀ i ∈ cfg.getMeterHashIndexes flow, i < cfg.numCells := by
  intro i mem
  obtain ⟨j, -, rfl⟩ := List.mem_map.1 mem
  exact Nat.mod_lt _ cfg.cells_pos

theorem length_indexes (flow : FiveTuple) : (cfg.getMeterHashIndexes flow).length = cfg.numHashes := by
  simp [getMeterHashIndexes]

end LossRadarConfig

/-! ## Registers -/

structure LossRadarPacketInfo where
  flow : FiveTuple := {}
  pktCounter : UInt32 := 0
  deriving DecidableEq, Repr

/-- The cells of a batch. -/
abbrev Registers := Nat → LossRadarPacketInfo

def emptyRegisters : Registers := fun _ => {}

/-- A packet is metered: what `UmMeter` and `DmMeter` do to the registers of the batch. -/
def meter (flow : FiveTuple) (indexes : List Nat) (regs : Registers) : Registers :=
  indexes.foldl (fun r i => update r i { flow := xorFlow (r i).flow flow, pktCounter := (r i).pktCounter + 1 }) regs

section
variable (cfg : LossRadarConfig)

/-- The registers of the packets metered into a batch. -/
def registersOf (L : Multiset FiveTuple) : Registers := fun i =>
  { flow := Ibf.keySum cfg.getMeterHashIndexes L i, pktCounter := .ofNat (Ibf.occ cfg.getMeterHashIndexes L i) }

@[simp] theorem registersOf_zero : registersOf cfg 0 = emptyRegisters := rfl

/-- What metering adds to a cell, as often as the cell is among the indexes. -/
theorem meter_apply (flow : FiveTuple) (indexes : List Nat) (regs : Registers) (i : Nat) :
    meter flow indexes regs i =
      { flow := (regs i).flow + indexes.count i • flow
        pktCounter := (regs i).pktCounter + .ofNat (indexes.count i) } := by
  induction indexes generalizing regs with
  | nil => simp [meter]
  | cons j js ih =>
    have first : meter flow (j :: js) regs =
        meter flow js (update regs j { flow := xorFlow (regs j).flow flow, pktCounter := (regs j).pktCounter + 1 }) := rfl
    rw [first, ih]
    by_cases here : i = j
    · subst here
      rw [update_self, List.count_cons_self, succ_nsmul', UInt32.ofNat_add, xorFlow_eq_add, add_assoc, UInt32.add_assoc,
        UInt32.add_comm (.ofNat _)]
      rfl
    · rw [update_of_ne here, List.count_cons_of_ne (Ne.symm here)]

/-- Metering adds the packet to the filter. -/
theorem meter_registersOf (flow : FiveTuple) (L : Multiset FiveTuple) :
    meter flow (cfg.getMeterHashIndexes flow) (registersOf cfg L) = registersOf cfg (flow ::ₘ L) := by
  funext i
  rw [meter_apply]
  simp only [registersOf, Ibf.keySum_cons, Ibf.occ_cons, UInt32.ofNat_add]
  rw [add_comm, UInt32.add_comm]

/-- The register difference the controller computes, cell by cell. -/
def difference (um dm : Registers) : Registers := fun i =>
  if i < cfg.numCells then
    { flow := xorFlow (um i).flow (dm i).flow, pktCounter := (um i).pktCounter - (dm i).pktCounter }
  else um i

/-- The difference of the filters is the filter of the difference. -/
theorem difference_registersOf (D L : Multiset FiveTuple) :
    difference cfg (registersOf cfg (D + L)) (registersOf cfg D) = registersOf cfg L := by
  funext i
  simp only [difference]
  split
  · simp only [registersOf, Ibf.keySum_add, Ibf.occ_add, UInt32.ofNat_add, xorFlow_eq_sub]
    rw [add_sub_cancel_left, UInt32.add_comm, UInt32.add_sub_cancel]
  · rename_i outside
    have unhit : ∀ M : Multiset FiveTuple, Ibf.occ cfg.getMeterHashIndexes M i = 0 := fun M =>
      Ibf.occ_eq_zero.2 fun x _ mem => outside (cfg.indexes_lt x i mem)
    simp only [registersOf, unhit, Ibf.keySum_of_unhit (unhit _)]

/-- The counters of a filter that is small enough are exact. -/
theorem toNat_pktCounter {L : Multiset FiveTuple} (small : cfg.numHashes * L.card < 2 ^ 32) (i : Nat) :
    (registersOf cfg L i).pktCounter.toNat = Ibf.occ cfg.getMeterHashIndexes L i := by
  have bound := Ibf.occ_le_total cfg.indexes_lt cfg.length_indexes L i
  exact UInt32.toNat_ofNat_of_lt' (show _ < 2 ^ 32 by omega)

end

end Ns3Fancy.LossRadar
