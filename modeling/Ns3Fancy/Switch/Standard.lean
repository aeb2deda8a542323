import Ns3Fancy.Switch.Pipeline

/-!
# A small environment

The standard headers as their bytes without options, `UdpHeader` as it is, a hash function and a sorting function: enough
to run the switch on concrete packets.
-/

namespace Ns3Fancy.Switch
open Buffer
set_option autoImplicit false

/-- A header of `n` bytes. -/
abbrev RawHeader (n : Nat) := { bs : Bytes // bs.length = n }

def rawCodec (n : Nat) : Codec (RawHeader n) where
  write x := x.val
  read bs := if h : n ≤ bs.length then some (⟨bs.take n, List.length_take_of_le h⟩, bs.drop n) else none
  read_write := by
    rintro ⟨x, rfl⟩ rest
    simp

/-- The number in `k` bytes of a header, highest first. -/
def RawHeader.field {n : Nat} (offset k : Nat) (x : RawHeader n) : Nat := valueLE ((x.val.drop offset).take k).reverse

/-- `UdpHeader`, which never computes a checksum here. -/
structure UdpHeader where
  sourcePort : UInt16 := 0xfffd
  destinationPort : UInt16 := 0xfffd
  payloadSize : UInt16 := 0
  checksum : UInt16 := 0
  deriving DecidableEq

namespace UdpHeader

/-- The length that is written: the size of the buffer if the payload has none. -/
def length (h : UdpHeader) (rest : Bytes) : UInt16 := if h.payloadSize = 0 then .ofNat (8 + rest.length) else h.payloadSize

/-- `Serialize`, in front of `rest`. -/
def serialize (h : UdpHeader) (rest : Bytes) : Bytes :=
  writeBE 2 h.sourcePort.toNat ++ (writeBE 2 h.destinationPort.toNat ++ (writeBE 2 (h.length rest).toNat ++
    writeLE 2 h.checksum.toNat))

/-- `Deserialize`, which takes the size of the header off the length. -/
def deserialize (bs : Bytes) : Option (UdpHeader × Bytes) :=
  (readBE 2 bs).bind fun source => (readBE 2 source.2).bind fun destination => (readBE 2 destination.2).bind fun length =>
    (readLE 2 length.2).map fun checksum =>
      ({ sourcePort := .ofNat source.1, destinationPort := .ofNat destination.1, payloadSize := .ofNat length.1 - 8,
         checksum := .ofNat checksum.1 }, checksum.2)

theorem deserialize_serialize (h : UdpHeader) (rest : Bytes) :
    deserialize (h.serialize rest ++ rest) = some ({ h with payloadSize := h.length rest - 8 }, rest) := by
  simp only [deserialize, serialize, List.append_assoc, readBE_writeBE, readLE_writeLE, Option.bind_some, Option.map_some,
    FancyHeader.ofNat16]

def codec : LengthCodec UdpHeader where
  write := serialize
  read := deserialize
  reread h rest := { h with payloadSize := h.length rest - 8 }
  sansLength h := { h with payloadSize := 0 }
  read_write := deserialize_serialize
  sansLength_reread _ _ := rfl

end UdpHeader

/-- Cells by decreasing cost, equal costs in their order. -/
def sortByCost (xs : List (Nat × Cost)) : List (Nat × Cost) := xs.insertionSort fun a b => b.2 ≤ a.2

/-- IPv4 and TCP of 20 bytes, UDP and ARP of 28. -/
def standardNs3 : Ns3 where
  Ipv4Header := RawHeader 20
  TcpHeader := RawHeader 20
  UdpHeader := UdpHeader
  ArpHeader := RawHeader 28
  ipv4 := rawCodec 20
  tcp := rawCodec 20
  arp := rawCodec 28
  udp := UdpHeader.codec
  source ip := .ofNat (ip.field 12 4)
  destination ip := .ofNat (ip.field 16 4)
  protocol ip := .ofNat (ip.field 9 1)
  identification ip := .ofNat (ip.field 4 2)
  tos ip := .ofNat (ip.field 1 1)
  tcpPorts tcp := (.ofNat (tcp.field 0 2), .ofNat (tcp.field 2 2))
  udpPorts udp := (udp.sourcePort, udp.destinationPort)
  udpPorts_sansLength _ := rfl
  hash32 index bs := .ofNat (index + (bs.map UInt8.toNat).sum)
  sort := sortByCost
  sort_perm xs := List.perm_insertionSort _ xs
  sort_sorted xs := by
    have total : Std.Total fun a b : Nat × Cost => b.2 ≤ a.2 := ⟨fun a b => le_total b.2 a.2⟩
    have trans : IsTrans (Nat × Cost) fun a b => b.2 ≤ a.2 := ⟨fun a b c ab bc => le_trans bc ab⟩
    exact List.pairwise_insertionSort _ xs

/-- A switch with a tree of one node and no dedicated entries. -/
def smallConfig : FancyConfig where
  ns3 := standardNs3
  numTopEntries := 0
  treeEnabled := true
  treeEnableSoftDetections := false
  rerouteEnabled := true
  pipeline := true
  pipelineBoost := false
  treeDepth := 1
  layerSplit := 1
  counterWidth := 2
  counterBloomFilterWidth := 2
  rerouteBloomFilterWidth := 2
  rerouteBloomFilterNumHashes := 1
  maxCounterCollisions := 2
  uniformLossThreshold := 0
  costType := .absolute
  rerouteMinCost := 0
  packetHashType := .dstPrefixHash
  topPrefixes := []
  ids_fit := by decide
  counterWidth_pos := by decide
  counterBloomFilterWidth_pos := by decide
  rerouteBloomFilterWidth_pos := by decide

end Ns3Fancy.Switch
