import Ns3Fancy.Switch.Config

/-!
# Packets, parser and deparser

A frame is an ethertype and bytes. The parser takes the headers it knows off the front and
puts them into the packet's metadata; the deparser puts them back, innermost first, in
the order of `header_stack`. What is parsed is what was deparsed, but for the length of a UDP header.
-/

namespace Ns3Fancy.Switch
open Buffer
set_option autoImplicit false

/-- What travels on a link. -/
structure Frame where
  protocol : UInt16
  bytes : Bytes
  deriving DecidableEq

/-- `meta.headers`: the headers the pipeline knows by name. -/
structure Headers (N : Ns3) where
  fancy : Option FancyHeader := none
  arp : Option N.ArpHeader := none
  ipv4 : Option N.Ipv4Header := none
  udp : Option N.UdpHeader := none
  tcp : Option N.TcpHeader := none

/-- `pkt_info`. -/
structure PktInfo (N : Ns3) where
  inPort : Option Nat := none
  outPort : Option Nat := none
  flow : FiveTuple := {}
  strFlow : String := ""
  grayDrop : Bool := false
  dropFlag : Bool := false
  cloneType : Nat := 0
  cloneOutPort : Option Nat := none
  broadcastFlag : Bool := false
  internalPacket : Bool := false
  id : Nat := 0
  protocol : UInt16
  headers : Headers N := {}

section
variable {N : Ns3}

/-- The ports of a UDP flow. -/
def withUdpPorts (headers : Headers N) (flow : FiveTuple) : FiveTuple :=
  match headers.udp with
  | some udp =>
    if flow.protocol = UDP then { flow with srcPort := (N.udpPorts udp).1, dstPort := (N.udpPorts udp).2 } else flow
  | none => flow

def getFlowFiveTuple (headers : Headers N) : FiveTuple :=
  let flow : FiveTuple :=
    match headers.ipv4 with
    | some ip => { srcIp := N.source ip, dstIp := N.destination ip, protocol := N.protocol ip, id := N.identification ip }
    | none => {}
  match headers.tcp with
  | some tcp =>
    if flow.protocol = TCP then { flow with srcPort := (N.tcpPorts tcp).1, dstPort := (N.tcpPorts tcp).2 }
    else withUdpPorts headers flow
  | none => withUdpPorts headers flow

/-- A packet without an IPv4 header has the all-zero flow. -/
theorem getFlowFiveTuple_of_none {headers : Headers N} (none : headers.ipv4 = none) : getFlowFiveTuple headers = {} := by
  have noPorts : withUdpPorts headers {} = {} := by
    rw [withUdpPorts]
    split
    · exact if_neg (by decide)
    · rfl
  simp only [getFlowFiveTuple, none]
  split
  · rw [if_neg (by decide), noPorts]
  · exact noPorts

/-! ## Parser -/

def parseTransport (protocol : UInt8) (headers : Headers N) (bs : Bytes) : Option (Headers N × Bytes) :=
  if protocol = TCP then (N.tcp.read bs).map fun r => ({ headers with tcp := some r.1 }, r.2)
  else if protocol = UDP then (N.udp.read bs).map fun r => ({ headers with udp := some r.1 }, r.2)
  else some (headers, bs)

def parseIpv4 (headers : Headers N) (bs : Bytes) : Option (Headers N × Bytes) :=
  (N.ipv4.read bs).bind fun r => parseTransport (N.protocol r.1) { headers with ipv4 := some r.1 } r.2

def parseArp (headers : Headers N) (bs : Bytes) : Option (Headers N × Bytes) :=
  (N.arp.read bs).map fun r => ({ headers with arp := some r.1 }, r.2)

/-- The cases of `DoParser` other than FANCY. -/
def parseStandard (protocol : UInt16) (headers : Headers N) (bs : Bytes) : Option (Headers N × Bytes) :=
  if protocol = IPV4 then parseIpv4 headers bs
  else if protocol = ARP then parseArp headers bs
  else some (headers, bs)

/-- `DoParser`; a FANCY header is followed by what it says comes next. Each one takes bytes off the packet,
so `fuel`, the packet's length, is enough. -/
def doParser : Nat → UInt16 → Headers N → Bytes → Option (Headers N × Bytes)
  | 0, protocol, headers, bs => if protocol = FANCY then none else parseStandard protocol headers bs
  | fuel + 1, protocol, headers, bs =>
    if protocol = FANCY then
      (FancyHeader.deserialize bs).bind fun r => doParser fuel r.1.nextHeader { headers with fancy := some r.1 } r.2
    else parseStandard protocol headers bs

theorem doParser_standard {fuel : Nat} {protocol : UInt16} (notFancy : protocol ≠ FANCY) (headers : Headers N)
    (bs : Bytes) : doParser fuel protocol headers bs = parseStandard protocol headers bs := by
  cases fuel <;> simp [doParser, notFancy]

/-- The parser on a received frame. -/
def parse (frame : Frame) : Option (Headers N × Bytes) :=
  doParser frame.bytes.length frame.protocol {} frame.bytes

/-! ## Deparser -/

/-- `AddHeader` for a header that is there. -/
def addHeader {H : Type} (write : H → Bytes) (header : Option H) (bs : Bytes) : Bytes :=
  match header with
  | some h => write h ++ bs
  | none => bs

/-- The transport headers; a UDP header is told what is behind it. -/
def addTransport (headers : Headers N) (payload : Bytes) : Bytes :=
  let behind := addHeader N.tcp.write headers.tcp payload
  addHeader (fun udp => N.udp.write udp behind) headers.udp behind

/-- A packet of the switch itself has none. -/
@[simp] theorem addTransport_fancy (fancy : Option FancyHeader) (payload : Bytes) :
    addTransport ({ fancy := fancy } : Headers N) payload = payload := rfl

/-- `DoDeparser`, in the order of `header_stack_reverse`. -/
def doDeparser (headers : Headers N) (payload : Bytes) : Bytes :=
  addHeader FancyHeader.serialize headers.fancy (addHeader N.arp.write headers.arp
    (addHeader N.ipv4.write headers.ipv4 (addTransport headers payload)))

/-! ## Well-formed packets -/

/-- A packet as a host sends it: an ethertype, the headers that go with it and the rest. -/
structure Packet (N : Ns3) where
  protocol : UInt16
  headers : Headers N := {}
  payload : Bytes := []

/-- The header stack is the one the ethertype and the IPv4 protocol announce. -/
structure Packet.WellFormed (p : Packet N) : Prop where
  notFancy : p.protocol ≠ FANCY
  noFancy : p.headers.fancy = none
  arp : p.headers.arp.isSome ↔ p.protocol = ARP
  ipv4 : p.headers.ipv4.isSome ↔ p.protocol = IPV4
  tcp : p.headers.tcp.isSome ↔ ∃ ip, p.headers.ipv4 = some ip ∧ N.protocol ip = TCP
  udp : p.headers.udp.isSome ↔ ∃ ip, p.headers.ipv4 = some ip ∧ N.protocol ip = UDP

/-- The frame in which a host sends a packet. -/
def Packet.frame (p : Packet N) : Frame := { protocol := p.protocol, bytes := doDeparser p.headers p.payload }

/-- The headers as the next switch reads them. -/
def Headers.reread (headers : Headers N) (payload : Bytes) : Headers N :=
  { headers with udp := headers.udp.map fun udp => N.udp.reread udp payload }

/-- The packet as the next switch reads it. -/
def Packet.reread (p : Packet N) : Packet N := { p with headers := p.headers.reread p.payload }

/-- The headers but for the length of a UDP header. -/
def Headers.sansLength (headers : Headers N) : Headers N := { headers with udp := headers.udp.map N.udp.sansLength }

@[simp] theorem Headers.sansLength_reread (headers : Headers N) (payload : Bytes) :
    (headers.reread payload).sansLength = headers.sansLength := by
  simp only [Headers.sansLength, Headers.reread, Option.map_map]
  congr 2
  funext udp
  exact N.udp.sansLength_reread udp payload

theorem Packet.WellFormed.reread {p : Packet N} (h : p.WellFormed) : p.reread.WellFormed where
  notFancy := h.notFancy
  noFancy := h.noFancy
  arp := h.arp
  ipv4 := h.ipv4
  tcp := h.tcp
  udp := by
    have same : p.reread.headers.udp.isSome = p.headers.udp.isSome := Option.isSome_map
    rw [same]
    exact h.udp

theorem udpPorts_reread (udp : N.UdpHeader) (payload : Bytes) : N.udpPorts (N.udp.reread udp payload) = N.udpPorts udp := by
  rw [← N.udpPorts_sansLength, N.udp.sansLength_reread, N.udpPorts_sansLength]

/-- The next switch takes the packet for one of the same flow. -/
@[simp] theorem getFlowFiveTuple_reread (headers : Headers N) (payload : Bytes) :
    getFlowFiveTuple (headers.reread payload) = getFlowFiveTuple headers := by
  have ports : ∀ flow, withUdpPorts (headers.reread payload) flow = withUdpPorts headers flow := by
    intro flow
    cases udp : headers.udp with
    | none => simp [withUdpPorts, Headers.reread, udp]
    | some u => simp [withUdpPorts, Headers.reread, udp, udpPorts_reread]
  simp only [getFlowFiveTuple, ports]
  rfl

/-- Parsing what the deparser wrote, without a FANCY header. -/
theorem doParser_doDeparser {p : Packet N} (h : p.WellFormed) (fuel : Nat) (fancy : Option FancyHeader) :
    doParser fuel p.protocol { fancy := fancy } (doDeparser p.headers p.payload) =
      some ({ p.reread.headers with fancy := fancy }, p.payload) := by
  obtain ⟨protocol, ⟨hfancy, arp, ipv4, udp, tcp⟩, payload⟩ := p
  obtain ⟨notFancy, noFancy, harp, hipv4, htcp, hudp⟩ := h
  simp only [Packet.reread, Headers.reread] at notFancy noFancy harp hipv4 htcp hudp ⊢
  subst noFancy
  have tcp_ne_udp : ¬UDP = TCP := by decide
  rw [doParser_standard notFancy, parseStandard]
  cases ipv4 with
  | some ip =>
    have isIp : protocol = IPV4 := hipv4.1 rfl
    have notArp : arp = none := by
      cases arp with
      | none => rfl
      | some a => exact absurd (isIp.symm.trans (harp.1 rfl)) (by decide)
    simp only [Option.some.injEq, exists_eq_left'] at htcp hudp
    rw [if_pos isIp, notArp, parseIpv4]
    simp only [doDeparser, addTransport, addHeader, N.ipv4.read_write, Option.bind_some, parseTransport]
    by_cases isTcp : N.protocol ip = TCP
    · obtain ⟨t, rfl⟩ := Option.isSome_iff_exists.1 (htcp.2 isTcp)
      have noUdp : udp = none := by
        cases udp with
        | none => rfl
        | some u => exact absurd ((hudp.1 rfl).symm.trans isTcp) (by decide)
      simp [isTcp, noUdp, N.tcp.read_write]
    · have noTcp : tcp = none := by
        cases tcp with
        | none => rfl
        | some t => exact absurd (htcp.1 rfl) isTcp
      by_cases isUdp : N.protocol ip = UDP
      · obtain ⟨u, rfl⟩ := Option.isSome_iff_exists.1 (hudp.2 isUdp)
        simp [isUdp, tcp_ne_udp, noTcp, N.udp.read_write]
      · have noUdp : udp = none := by
          cases udp with
          | none => rfl
          | some u => exact absurd (hudp.1 rfl) isUdp
        simp [isTcp, isUdp, noTcp, noUdp]
  | none =>
    have notIp : protocol ≠ IPV4 := fun isIp => by simpa using hipv4.2 isIp
    have noTcp : tcp = none := by
      cases tcp with
      | none => rfl
      | some t => simpa using htcp.1 rfl
    have noUdp : udp = none := by
      cases udp with
      | none => rfl
      | some u => simpa using hudp.1 rfl
    rw [if_neg notIp, noTcp, noUdp]
    by_cases isArp : protocol = ARP
    · obtain ⟨a, rfl⟩ := Option.isSome_iff_exists.1 (harp.2 isArp)
      rw [if_pos isArp, parseArp]
      simp [doDeparser, addTransport, addHeader, N.arp.read_write]
    · have noArp : arp = none := by
        cases arp with
        | none => rfl
        | some a => exact absurd (harp.1 rfl) isArp
      rw [if_neg isArp, noArp]
      rfl

theorem parse_frame {p : Packet N} (h : p.WellFormed) : parse p.frame = some (p.reread.headers, p.payload) := by
  have headers : ({ p.reread.headers with fancy := none } : Headers N) = p.reread.headers := by rw [← h.reread.noFancy]
  rw [parse, Packet.frame, doParser_doDeparser h, headers]

/-! ## Frames but for a length -/

/-- A frame but for the length of a UDP header. -/
def Frame.sansLength (N : Ns3) (frame : Frame) : Frame :=
  match (parse frame : Option (Headers N × Bytes)) with
  | some h => { frame with bytes := doDeparser h.1.sansLength h.2 }
  | none => frame

/-- The packet but for this length. -/
def Packet.sansLength (p : Packet N) : Packet N := { p with headers := p.headers.sansLength }

theorem Packet.sansLength_reread (p : Packet N) : p.reread.sansLength = p.sansLength := by
  rw [Packet.sansLength, Packet.sansLength, Packet.reread, Headers.sansLength_reread]

theorem sansLength_frame {p : Packet N} (h : p.WellFormed) : p.frame.sansLength N = p.sansLength.frame := by
  simp only [Frame.sansLength, parse_frame h, Packet.reread, Headers.sansLength_reread]
  rfl

/-- **A packet that is read and sent on** is the same but for the length. -/
theorem sansLength_frame_reread {p : Packet N} (h : p.WellFormed) : p.reread.frame.sansLength N = p.frame.sansLength N := by
  rw [sansLength_frame h.reread, sansLength_frame h, Packet.sansLength_reread]

/-- A UDP header that is read as it was written, or none. -/
theorem reread_of_undone {p : Packet N} (undone : ∀ udp, p.headers.udp = some udp → N.udp.reread udp p.payload = udp) :
    p.reread = p := by
  obtain ⟨protocol, ⟨fancy, arp, ipv4, udp, tcp⟩, payload⟩ := p
  cases udp with
  | none => rfl
  | some udp =>
    have same : N.udp.reread udp payload = udp := undone udp rfl
    simp only [Packet.reread, Headers.reread, Option.map_some, same]

end

end Ns3Fancy.Switch
