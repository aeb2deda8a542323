import Ns3Fancy.Switch.FancyHeader
import Mathlib.Algebra.Order.Field.Rat
import Mathlib.Order.WithBot
import Mathlib.Data.List.Sort

/-!
# Flows, attributes and what the switch takes from ns-3

`Ns3` collects what the switch uses without looking inside: the standard headers with their
getters, the seeded hash functions and `std::sort`. `FancyAttributes` holds the attributes of
`P4SwitchFancy` that its counting, exchange and rerouting code reads; `FancyConfig` are those with which it runs.
-/

namespace Ns3Fancy.Switch
open Buffer
set_option autoImplicit false

/-! ## Flows -/

structure FiveTuple where
  srcIp : UInt32 := 0
  dstIp : UInt32 := 0
  protocol : UInt8 := 0
  srcPort : UInt16 := 0
  dstPort : UInt16 := 0
  id : UInt16 := 0
  deriving DecidableEq, Repr

def ipFiveTupleToBuffer (flow : FiveTuple) : Bytes :=
  writeLE 4 flow.srcIp.toNat ++ writeLE 4 flow.dstIp.toNat ++ writeLE 2 flow.srcPort.toNat ++
    writeLE 2 flow.dstPort.toNat ++ [flow.protocol]

def dstPrefixToBuffer (flow : FiveTuple) : Bytes := writeLE 4 (flow.dstIp &&& 0xffffff00).toNat

def ipFiveTupleToString (flow : FiveTuple) : String :=
  toString flow.srcIp.toNat ++ " " ++ toString flow.dstIp.toNat ++ " " ++ toString flow.srcPort.toNat ++ " " ++
    toString flow.dstPort.toNat ++ " " ++ toString flow.protocol.toNat

def dstPrefixToString (flow : FiveTuple) : String := toString (flow.dstIp &&& 0xffffff00).toNat

/-! ## Costs -/

/-- The cost of a cell, a `double` in the source: `⊤` is the infinity a division by zero gives. -/
abbrev Cost := WithTop Rat

inductive CostTypes where
  | absolute | relative
  deriving DecidableEq, Repr

/-- The cost of `diff` packets lost out of `sent`. -/
def cost (type : CostTypes) (diff sent : Nat) : Cost :=
  match type with
  | .absolute => ((diff : Rat) : Cost)
  | .relative => if diff = 0 then 0 else if sent = 0 then ⊤ else (((diff : Rat) / sent : Rat) : Cost)

@[simp] theorem cost_zero (type : CostTypes) (sent : Nat) : cost type 0 sent = 0 := by
  cases type <;> simp [cost]

theorem cost_pos (type : CostTypes) {diff : Nat} (lost : 0 < diff) (sent : Nat) : 0 < cost type diff sent := by
  have positive : (0 : Rat) < diff := by exact_mod_cast lost
  cases type with
  | absolute => exact WithTop.coe_lt_coe.2 positive
  | relative =>
    simp only [cost, Nat.ne_of_gt lost, if_false]
    split
    · exact WithTop.coe_lt_top _
    · rename_i some_sent
      have sent_pos : (0 : Rat) < sent := by exact_mod_cast Nat.pos_of_ne_zero some_sent
      exact WithTop.coe_lt_coe.2 (div_pos positive sent_pos)

/-! ## The environment -/

structure Ns3 where
  Ipv4Header : Type
  TcpHeader : Type
  UdpHeader : Type
  ArpHeader : Type
  /-- `AddHeader` and `RemoveHeader` undo each other. -/
  ipv4 : Codec Ipv4Header
  tcp : Codec TcpHeader
  arp : Codec ArpHeader
  /-- A `UdpHeader` that is read takes the length for that of the payload, and writes that. -/
  udp : LengthCodec UdpHeader
  source : Ipv4Header → UInt32
  destination : Ipv4Header → UInt32
  protocol : Ipv4Header → UInt8
  identification : Ipv4Header → UInt16
  tos : Ipv4Header → UInt8
  tcpPorts : TcpHeader → UInt16 × UInt16
  udpPorts : UdpHeader → UInt16 × UInt16
  udpPorts_sansLength : ∀ header, udpPorts (udp.sansLength header) = udpPorts header
  /-- The hash function with a given index, on a buffer. -/
  hash32 : Nat → Bytes → UInt32
  /-- `std::sort` by `sortbysec`: a function of the sequence it sorts. -/
  sort : List (Nat × Cost) → List (Nat × Cost)
  sort_perm : ∀ xs, (sort xs).Perm xs
  sort_sorted : ∀ xs, (sort xs).Pairwise fun a b => b.2 ≤ a.2

inductive PacketHashType where
  | fiveTupleHash | dstPrefixHash
  deriving DecidableEq, Repr

/-- The attributes, as their checkers admit them. -/
structure FancyAttributes where
  ns3 : Ns3
  numTopEntries : Nat
  treeEnabled : Bool
  treeEnableSoftDetections : Bool
  rerouteEnabled : Bool
  pipeline : Bool
  pipelineBoost : Bool
  treeDepth : Nat
  layerSplit : Nat
  counterWidth : Nat
  counterBloomFilterWidth : Nat
  rerouteBloomFilterWidth : Nat
  rerouteBloomFilterNumHashes : Nat
  maxCounterCollisions : Nat
  uniformLossThreshold : Nat
  costType : CostTypes
  rerouteMinCost : Rat
  packetHashType : PacketHashType
  /-- The prefixes of the top file, in order. -/
  topPrefixes : List UInt32

namespace FancyAttributes
variable (cfg : FancyAttributes)

/-- `HashUtils::GetHash`, for a modulo that is not zero. -/
def getHash (data : Bytes) (index modulo : Nat) : Nat := (cfg.ns3.hash32 index data).toNat % modulo

/-- The id of the zooming tree. -/
def treeId : Nat := cfg.numTopEntries

/-- The tree's size; a split of zero leaves the default. -/
def nodesInTree : Nat :=
  if 1 < cfg.layerSplit then (cfg.layerSplit ^ cfg.treeDepth - 1) / (cfg.layerSplit - 1)
  else if cfg.layerSplit = 1 then cfg.treeDepth
  else 31

def lastLayerIndex : Nat :=
  if cfg.layerSplit = 1 then cfg.treeDepth - 1
  else (cfg.layerSplit ^ (cfg.treeDepth - 1) - 1) / (cfg.layerSplit - 1)

end FancyAttributes

/-- Attributes with which a switch can run. -/
structure FancyConfig extends FancyAttributes where
  /-- Machine ids, up to `numTopEntries + 1`, are 32-bit numbers. -/
  ids_fit : numTopEntries + 2 < 2 ^ 32
  /-- No hash is taken modulo zero. -/
  counterWidth_pos : 0 < counterWidth
  counterBloomFilterWidth_pos : 0 < counterBloomFilterWidth
  rerouteBloomFilterWidth_pos : 0 < rerouteBloomFilterWidth

namespace FancyConfig
variable (cfg : FancyConfig)

/-- `m_packet_hash`. -/
def packetHash (flow : FiveTuple) (index modulo : Nat) : Nat :=
  match cfg.packetHashType with
  | .fiveTupleHash => cfg.getHash (ipFiveTupleToBuffer flow) index modulo
  | .dstPrefixHash => cfg.getHash (dstPrefixToBuffer flow) index modulo

/-- `m_packet_str_funct`. -/
def packetStr (flow : FiveTuple) : String :=
  match cfg.packetHashType with
  | .fiveTupleHash => ipFiveTupleToString flow
  | .dstPrefixHash => dstPrefixToString flow

/-- The cell of a flow at a level of the tree. -/
def cellOf (flow : FiveTuple) (level : Nat) : Nat := cfg.packetHash flow level cfg.counterWidth

/-- The id of the dedicated counter for all traffic. -/
def wildcardId : Nat := cfg.numTopEntries + 1

/-- The flow a line of the top file stands for: the traffic generator's source and ports. -/
def topFlow (dst : UInt32) : FiveTuple :=
  { srcIp := 0x66666666, dstIp := dst, protocol := 6, srcPort := 5555, dstPort := 7777 }

/-- The key under which `LoadTopFlowEntriesTable` or `LoadTopDstPrefixEntriesTable` stores a line. -/
def topKey (dst : UInt32) : String :=
  match cfg.packetHashType with
  | .fiveTupleHash => ipFiveTupleToString (topFlow dst)
  | .dstPrefixHash => dstPrefixToString { dstIp := dst }

/-- `m_topEntries`, newest entry first: a key that comes twice keeps its last index. -/
def topEntries : List (String × Nat) :=
  ((cfg.topPrefixes.take cfg.numTopEntries).zipIdx.map fun e => (cfg.topKey e.1, e.2)).reverse

def matchTopEntriesTable (strFlow : String) : Nat :=
  match cfg.topEntries.find? (·.1 == strFlow) with
  | some e => e.2
  | none => cfg.treeId

theorem matchTopEntriesTable_le (strFlow : String) : cfg.matchTopEntriesTable strFlow ≤ cfg.numTopEntries := by
  simp only [matchTopEntriesTable]
  split
  · rename_i e found
    have mem : e ∈ cfg.topEntries := List.mem_of_find?_eq_some found
    simp only [topEntries, List.mem_reverse, List.mem_map] at mem
    obtain ⟨⟨dst, i⟩, mem, rfl⟩ := mem
    have bound := List.snd_lt_of_mem_zipIdx mem
    simp only [List.length_take] at bound
    exact Nat.le_of_lt (by omega)
  · exact Nat.le_refl _

end FancyConfig

end Ns3Fancy.Switch
