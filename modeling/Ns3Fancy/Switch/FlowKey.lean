import Ns3Fancy.Switch.Config
import Ns3Fancy.Text.Decimals

/-!
# The keys of flows

The switches file flows under texts: the numbers of the five-tuple with blanks between them, or the number of the
destination prefix. They hash buffers with the same numbers in a fixed number of bytes each. Flows with one text are hashed
alike.
-/

namespace Ns3Fancy.Switch
open Buffer Text
set_option autoImplicit false

/-- The flows have the same addresses, ports and protocol; the identification of a packet is none of its flow's. -/
def FiveTuple.Agree (flow flow' : FiveTuple) : Prop :=
  flow.srcIp = flow'.srcIp ∧ flow.dstIp = flow'.dstIp ∧ flow.srcPort = flow'.srcPort ∧ flow.dstPort = flow'.dstPort ∧
    flow.protocol = flow'.protocol

instance (flow flow' : FiveTuple) : Decidable (flow.Agree flow') := inferInstanceAs (Decidable (_ ∧ _))

/-- The numbers that the text of a flow is written from. -/
def FiveTuple.numbers (flow : FiveTuple) : List Nat :=
  [flow.srcIp.toNat, flow.dstIp.toNat, flow.srcPort.toNat, flow.dstPort.toNat, flow.protocol.toNat]

/-- The five numbers of a flow, with blanks between them. -/
theorem toList_ipFiveTupleToString (flow : FiveTuple) : (ipFiveTupleToString flow).toList = spaced flow.numbers := by
  have blank : (" " : String).toList = [' '] := rfl
  simp only [ipFiveTupleToString, String.toList_append, Nat.toString_eq_repr, Nat.toList_repr, blank, spaced,
    FiveTuple.numbers, List.append_assoc, List.cons_append, List.nil_append]

/-- **The text of a flow tells its five-tuple.** -/
theorem ipFiveTupleToString_inj {flow flow' : FiveTuple} : ipFiveTupleToString flow = ipFiveTupleToString flow' ↔
    flow.srcIp = flow'.srcIp ∧ flow.dstIp = flow'.dstIp ∧ flow.srcPort = flow'.srcPort ∧ flow.dstPort = flow'.dstPort ∧
      flow.protocol = flow'.protocol := by
  constructor
  · intro same
    have numbers : flow.numbers = flow'.numbers := by
      refine spaced_inj rfl ?_
      rw [← toList_ipFiveTupleToString, ← toList_ipFiveTupleToString, same]
    simpa [FiveTuple.numbers, UInt32.toNat_inj, UInt16.toNat_inj, UInt8.toNat_inj] using numbers
  · rintro ⟨src, dst, srcPort, dstPort, protocol⟩
    simp only [ipFiveTupleToString, src, dst, srcPort, dstPort, protocol]

/-- The buffer form has 13 bytes. -/
theorem length_ipFiveTupleToBuffer (flow : FiveTuple) : (ipFiveTupleToBuffer flow).length = 13 := by
  simp only [ipFiveTupleToBuffer, List.length_append, length_writeLE, List.length_singleton]

/-- **The buffer of a flow tells its five-tuple.** -/
theorem ipFiveTupleToBuffer_inj {flow flow' : FiveTuple} :
    ipFiveTupleToBuffer flow = ipFiveTupleToBuffer flow' ↔ flow.Agree flow' := by
  constructor
  · intro same
    unfold ipFiveTupleToBuffer at same
    obtain ⟨same, protocol⟩ := List.append_inj' same rfl
    obtain ⟨same, dstPort⟩ := append_uint16_inj same
    obtain ⟨same, srcPort⟩ := append_uint16_inj same
    obtain ⟨same, dst⟩ := append_uint32_inj same
    obtain ⟨-, src⟩ := @append_uint32_inj _ _ [] [] same
    exact ⟨src, dst, srcPort, dstPort, (List.cons.inj protocol).1⟩
  · rintro ⟨src, dst, srcPort, dstPort, protocol⟩
    simp only [ipFiveTupleToBuffer, src, dst, srcPort, dstPort, protocol]

/-- The string of a destination prefix stands for the prefix: two are equal exactly when the upper 24 bits are. -/
theorem dstPrefixToString_inj {flow flow' : FiveTuple} : dstPrefixToString flow = dstPrefixToString flow' ↔
    flow.dstIp &&& 0xffffff00 = flow'.dstIp &&& 0xffffff00 := by
  constructor
  · intro same
    refine UInt32.toNat.inj (toDigits_inj ?_)
    simpa only [dstPrefixToString, Nat.toString_eq_repr, Nat.toList_repr] using congrArg String.toList same
  · intro same
    simp only [dstPrefixToString, same]

/-- Flows with one key have the same hashes. -/
theorem packetHash_of_packetStr {cfg : FancyConfig} {flow flow' : FiveTuple} (same : cfg.packetStr flow = cfg.packetStr flow')
    (index modulo : Nat) : cfg.packetHash flow index modulo = cfg.packetHash flow' index modulo := by
  unfold FancyConfig.packetStr at same
  unfold FancyConfig.packetHash
  cases type : cfg.packetHashType with
  | fiveTupleHash =>
    simp only [type] at same
    obtain ⟨src, dst, srcPort, dstPort, protocol⟩ := ipFiveTupleToString_inj.1 same
    simp only [ipFiveTupleToBuffer, src, dst, srcPort, dstPort, protocol]
  | dstPrefixHash =>
    simp only [type] at same
    simp only [dstPrefixToBuffer, dstPrefixToString_inj.1 same]

end Ns3Fancy.Switch
