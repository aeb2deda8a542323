import Mathlib.Algebra.BigOperators.Group.Finset.Basic
import Mathlib.Algebra.Order.BigOperators.Group.Finset
import Ns3Fancy.NetSeer.Port

/-!
# The ledger of the event cache

Every call of `ReportPacket` is either still counted in the cell of its flow or part of an event. When
a flow takes the cell of another, the event is logged under the new flow and its count includes what
the cell held for the old one: the totals agree, the flows do not.
-/

namespace Ns3Fancy.NetSeer
open Switch Function
open scoped BigOperators
set_option autoImplicit false

section
variable (cfg : NetSeerConfig)

/-- The calls of `ReportPacket` on a fresh port, in order. -/
def reportAll (packets : List NetSeerPacketInfo) : NetSeerPortInfo × NetSeerSimulationState :=
  packets.foldl (fun r packet => reportPacket cfg packet r) ({}, {})

/-- The drops logged for a flow. -/
def loggedFor (f : FiveTuple) (sim : NetSeerSimulationState) : Nat :=
  (sim.failureEvents.map fun e => if e.flow = f then e.numDrops.toNat else 0).sum

/-- What a cell holds for a flow. -/
def heldFor (f : FiveTuple) (cell : NetSeerPacketInfo) : Nat :=
  if packetInfoToFiveTuple cell = f then cell.seq.toNat else 0

/-- What the cache holds for a flow. -/
def residualFor (f : FiveTuple) (port : NetSeerPortInfo) : Nat :=
  ∑ i ∈ Finset.range cfg.eventCacheSize, heldFor f (port.eventCache i)

def callsFor (f : FiveTuple) (packets : List NetSeerPacketInfo) : Nat :=
  packets.countP fun packet => packetInfoToFiveTuple packet = f

/-- For every flow, what is logged and what is held make up the calls. -/
def Conserves (packets : List NetSeerPacketInfo) : Prop :=
  ∀ f, loggedFor f (reportAll cfg packets).2 + residualFor cfg f (reportAll cfg packets).1 = callsFor f packets

/-- The cell a packet is reported to. -/
def cellOf (port : NetSeerPortInfo) (packet : NetSeerPacketInfo) : NetSeerPacketInfo :=
  port.eventCache (cacheIndex cfg (packetInfoToFiveTuple packet))

/-- The call evicts a flow that is still counted. -/
def EvictsCounted (port : NetSeerPortInfo) (packet : NetSeerPacketInfo) : Prop :=
  packetInfoToFiveTuple (cellOf cfg port packet) ≠ packetInfoToFiveTuple packet ∧ 0 < (cellOf cfg port packet).seq

/-- The counters are below their maximum, so that adding one does not wrap. -/
def Bounded (port : NetSeerPortInfo) : Prop := ∀ i, (port.eventCache i).seq.toNat + 1 < 2 ^ 32

variable {cfg}

theorem cacheIndex_lt (f : FiveTuple) : cacheIndex cfg f < cfg.eventCacheSize := Nat.mod_lt _ cfg.cache_pos

/-! ## One call -/

theorem loggedFor_logEvent (f flow : FiveTuple) (numDrops : UInt32) (sim : NetSeerSimulationState) :
    loggedFor f (logEvent flow numDrops sim) = loggedFor f sim + if flow = f then numDrops.toNat else 0 := by
  simp [loggedFor, logEvent, setFailureEvent]

@[simp] theorem loggedFor_earlyStop (f : FiveTuple) (sim : NetSeerSimulationState) :
    loggedFor f (earlyStop cfg sim) = loggedFor f sim := by
  rw [earlyStop]
  split <;> rfl

/-- What a new cell changes. -/
theorem residualFor_update (f : FiveTuple) (port : NetSeerPortInfo) {i : Nat} (inside : i < cfg.eventCacheSize)
    (cell : NetSeerPacketInfo) :
    residualFor cfg f { port with eventCache := update port.eventCache i cell } + heldFor f (port.eventCache i) =
      residualFor cfg f port + heldFor f cell := by
  have mem : i ∈ Finset.range cfg.eventCacheSize := Finset.mem_range.2 inside
  have others : ∑ j ∈ (Finset.range cfg.eventCacheSize).erase i, heldFor f (update port.eventCache i cell j) =
      ∑ j ∈ (Finset.range cfg.eventCacheSize).erase i, heldFor f (port.eventCache j) := by
    refine Finset.sum_congr rfl fun j erased => ?_
    rw [update_of_ne (Finset.ne_of_mem_erase erased)]
  simp only [residualFor]
  rw [← Finset.add_sum_erase _ _ mem, ← Finset.add_sum_erase _ (fun j => heldFor f (port.eventCache j)) mem, others,
    update_self]
  omega

/-- The count that goes to another flow. -/
def movedBy (cfg : NetSeerConfig) (port : NetSeerPortInfo) (packet : NetSeerPacketInfo) : Nat :=
  if packetInfoToFiveTuple (cellOf cfg port packet) = packetInfoToFiveTuple packet then 0
  else (cellOf cfg port packet).seq.toNat

theorem movedBy_pos {port : NetSeerPortInfo} {packet : NetSeerPacketInfo} :
    0 < movedBy cfg port packet ↔ EvictsCounted cfg port packet := by
  rw [movedBy, EvictsCounted]
  split
  · rename_i same
    simp [same]
  · rename_i other
    simp [other, UInt32.lt_iff_toNat_lt]

/-- **What a call does**: the cell of the packet's flow becomes the flow's, and counts one more or starts anew with an
event, which says what the cell held and one more. -/
theorem reportPacket_cases (packet : NetSeerPacketInfo) (r : NetSeerPortInfo × NetSeerSimulationState) :
    ∃ cell, (reportPacket cfg packet r).1 =
        { r.1 with eventCache := update r.1.eventCache (cacheIndex cfg (packetInfoToFiveTuple packet)) cell } ∧
      packetInfoToFiveTuple cell = packetInfoToFiveTuple packet ∧
      (packetInfoToFiveTuple (cellOf cfg r.1 packet) = packetInfoToFiveTuple packet ∧
          cell.seq = (cellOf cfg r.1 packet).seq + 1 ∧ cell.seq < cfg.eventCounter ∧
          (∀ f, loggedFor f (reportPacket cfg packet r).2 = loggedFor f r.2) ∨
        cell.seq = 0 ∧ ∀ f, loggedFor f (reportPacket cfg packet r).2 = loggedFor f r.2 +
          if packetInfoToFiveTuple packet = f then ((cellOf cfg r.1 packet).seq + 1).toNat else 0) := by
  simp only [reportPacket, loggedFor_earlyStop, cellOf]
  split
  · rename_i hit
    have same := (comparePacketInfos_iff _ _).1 hit
    split
    · exact ⟨_, rfl, same, .inr ⟨rfl, fun f => loggedFor_logEvent ..⟩⟩
    · rename_i below
      exact ⟨_, rfl, same, .inl ⟨same, rfl, UInt32.not_le.1 below, fun f => rfl⟩⟩
  · exact ⟨_, rfl, rfl, .inr ⟨rfl, fun f => loggedFor_logEvent ..⟩⟩

/-- **The ledger of a call**: the packet's flow gets the call and what its cell held for another flow, which loses it. -/
theorem reportPacket_ledger {r : NetSeerPortInfo × NetSeerSimulationState} (bounded : Bounded r.1)
    (packet : NetSeerPacketInfo) (f : FiveTuple) :
    loggedFor f (reportPacket cfg packet r).2 + residualFor cfg f (reportPacket cfg packet r).1 +
        (if packetInfoToFiveTuple (cellOf cfg r.1 packet) = f then movedBy cfg r.1 packet else 0) =
      loggedFor f r.2 + residualFor cfg f r.1 +
        if packetInfoToFiveTuple packet = f then 1 + movedBy cfg r.1 packet else 0 := by
  have next : ((cellOf cfg r.1 packet).seq + 1).toNat = (cellOf cfg r.1 packet).seq.toNat + 1 := by
    rw [UInt32.toNat_add]
    exact Nat.mod_eq_of_lt (bounded _)
  obtain ⟨cell, port, flow, happened⟩ := @reportPacket_cases cfg packet r
  have changed : residualFor cfg f (reportPacket cfg packet r).1 + heldFor f (cellOf cfg r.1 packet) =
      residualFor cfg f r.1 + heldFor f cell := by
    rw [port]
    exact residualFor_update f r.1 (cacheIndex_lt _) cell
  simp only [heldFor, flow] at changed
  rw [movedBy]
  rcases happened with ⟨same, count, -, logged⟩ | ⟨zero, logged⟩
  · rw [logged, if_pos same]
    rw [count, next] at changed
    rw [same] at changed ⊢
    by_cases own : packetInfoToFiveTuple packet = f
    · simp only [if_pos own] at changed ⊢
      omega
    · simp only [if_neg own] at changed ⊢
      omega
  · rw [logged, next]
    rw [zero] at changed
    by_cases own : packetInfoToFiveTuple packet = f <;>
      by_cases held : packetInfoToFiveTuple (cellOf cfg r.1 packet) = f
    · have same := held.trans own.symm
      simp only [if_pos own, if_pos held, if_pos same, UInt32.toNat_zero] at changed ⊢
      omega
    · have other : packetInfoToFiveTuple (cellOf cfg r.1 packet) ≠ packetInfoToFiveTuple packet := by rwa [own]
      simp only [if_pos own, if_neg held, if_neg other, UInt32.toNat_zero] at changed ⊢
      omega
    · have other : packetInfoToFiveTuple (cellOf cfg r.1 packet) ≠ packetInfoToFiveTuple packet := by
        rw [held]
        exact Ne.symm own
      simp only [if_neg own, if_pos held, if_neg other] at changed ⊢
      omega
    · simp only [if_neg own, if_neg held] at changed ⊢
      omega

theorem Bounded.reportPacket {r : NetSeerPortInfo × NetSeerSimulationState} (bounded : Bounded r.1)
    (packet : NetSeerPacketInfo) : Bounded (reportPacket cfg packet r).1 := by
  obtain ⟨cell, port, -, happened⟩ := @reportPacket_cases cfg packet r
  have small : cell.seq.toNat + 1 < 2 ^ 32 := by
    rcases happened with ⟨-, -, below, -⟩ | ⟨zero, -⟩
    · have limit := cfg.eventCounter.toNat_lt
      rw [UInt32.lt_iff_toNat_lt] at below
      omega
    · rw [zero]
      decide
  rw [port]
  intro i
  show (update r.1.eventCache _ cell i).seq.toNat + 1 < 2 ^ 32
  by_cases here : i = cacheIndex cfg (packetInfoToFiveTuple packet)
  · rw [here, update_self]
    exact small
  · rw [update_of_ne here]
    exact bounded i

/-! ## Any calls -/

theorem reportAll_snoc (packets : List NetSeerPacketInfo) (packet : NetSeerPacketInfo) :
    reportAll cfg (packets ++ [packet]) = reportPacket cfg packet (reportAll cfg packets) := by
  simp [reportAll]

theorem callsFor_snoc (f : FiveTuple) (packets : List NetSeerPacketInfo) (packet : NetSeerPacketInfo) :
    callsFor f (packets ++ [packet]) = callsFor f packets + if packetInfoToFiveTuple packet = f then 1 else 0 := by
  simp [callsFor, List.countP_singleton]

theorem bounded_reportAll (packets : List NetSeerPacketInfo) : Bounded (reportAll cfg packets).1 := by
  induction packets using List.reverseRecOn with
  | nil => exact fun _ => (by decide : (0 : UInt32).toNat + 1 < 2 ^ 32)
  | append_singleton packets packet ih =>
    rw [reportAll_snoc]
    exact ih.reportPacket packet

theorem conserves_nil : Conserves cfg [] := by
  intro f
  have empty : heldFor f {} = 0 := by
    rw [heldFor]
    split <;> rfl
  simp [residualFor, empty, loggedFor, reportAll, callsFor]

/-- One more call keeps the books for every flow exactly when it evicts nothing that is counted. -/
theorem conserves_snoc_iff {packets : List NetSeerPacketInfo} (h : Conserves cfg packets) (packet : NetSeerPacketInfo) :
    Conserves cfg (packets ++ [packet]) ↔ ¬EvictsCounted cfg (reportAll cfg packets).1 packet := by
  have ledger := @reportPacket_ledger cfg (reportAll cfg packets) (bounded_reportAll packets) packet
  rw [← movedBy_pos, Nat.not_lt, Nat.le_zero]
  constructor
  · intro after
    have own := after (packetInfoToFiveTuple packet)
    have before := h (packetInfoToFiveTuple packet)
    have moved := ledger (packetInfoToFiveTuple packet)
    rw [reportAll_snoc, callsFor_snoc, if_pos rfl] at own
    rw [if_pos rfl] at moved
    by_cases same : packetInfoToFiveTuple (cellOf cfg (reportAll cfg packets).1 packet) = packetInfoToFiveTuple packet
    · rw [movedBy, if_pos same]
    · rw [if_neg same] at moved
      omega
  · intro none f
    have moved := ledger f
    have before := h f
    rw [none, ite_self, Nat.add_zero, Nat.add_zero] at moved
    rw [reportAll_snoc, callsFor_snoc]
    omega

variable (cfg)

/-- **When the event cache conserves losses per flow**: after every call the books agree for every flow, if and only if
no call evicts a flow with a positive count. -/
theorem conserves_iff (packets : List NetSeerPacketInfo) :
    (∀ done, done <+: packets → Conserves cfg done) ↔
      ∀ done packet, done ++ [packet] <+: packets → ¬EvictsCounted cfg (reportAll cfg done).1 packet := by
  constructor
  · intro always done packet upTo
    have before : Conserves cfg done := always done ((List.prefix_append _ _).trans upTo)
    exact (conserves_snoc_iff before packet).1 (always _ upTo)
  · intro never done upTo
    -- by induction on the calls made so far
    induction done using List.reverseRecOn with
    | nil => exact conserves_nil
    | append_singleton done packet ih =>
      have before := ih ((List.prefix_append _ _).trans upTo)
      exact (conserves_snoc_iff before packet).2 (never done packet upTo)

/-- One cell, and an event every hundred losses. -/
def oneCellCache : NetSeerConfig where
  bufferSize := 4
  eventCacheSize := 1
  eventCounter := 100
  tmDropRate := 0
  earlyStopCounter := 0
  hash32 _ _ := 0
  buffer_pos := Nat.succ_pos _
  cache_pos := Nat.one_pos

/-- Two losses of one flow, then one of another: two losses are logged for the flow that lost one packet. -/
theorem not_conserves_collision :
    ¬Conserves oneCellCache [{ srcIp := 1 }, { srcIp := 1 }, { srcIp := 2 }] := by
  intro books
  exact absurd (books { srcIp := 2 }) (by decide)

end

end Ns3Fancy.NetSeer
