import Ns3Fancy.Lts.Run
import Ns3Fancy.Switch.FlowKey
import Mathlib.Data.Set.Basic

/-!
# The address translator

A packet from the outside goes to the inside host that its five-tuple hashes to and gets that host's address as its
destination; the address it had before is kept at the host's port, under the translated tuple. A packet from the inside gets
the kept address back as its source. Two flows that differ in their destination only and hash to one host have one
translated tuple, and the later one takes the place of the earlier.
-/

namespace Ns3Fancy.SwitchNat
open Switch Function
set_option autoImplicit false

/-! ## Packets -/

/-- The fields of an IPv4 header that the translator reads or sets. -/
structure Ipv4Header where
  source : UInt32
  destination : UInt32
  protocol : UInt8
  identification : UInt16
  deriving DecidableEq, Repr

/-- The parsed headers; a transport header is its source and destination port. -/
structure Headers where
  ipv4 : Option Ipv4Header := none
  tcp : Option (UInt16 × UInt16) := none
  udp : Option (UInt16 × UInt16) := none
  deriving DecidableEq, Repr

/-- The ports of a packet of the given protocol. -/
def Headers.ports (h : Headers) (protocol : UInt8) : UInt16 × UInt16 :=
  if protocol = TCP then h.tcp.getD (0, 0) else if protocol = UDP then h.udp.getD (0, 0) else (0, 0)

def getFlowFiveTuple (h : Headers) (ip : Ipv4Header) : FiveTuple where
  srcIp := ip.source
  dstIp := ip.destination
  protocol := ip.protocol
  srcPort := (h.ports ip.protocol).1
  dstPort := (h.ports ip.protocol).2
  id := ip.identification

/-! ## The switch -/

/-- A port towards an inside host, and the host's address. -/
structure TranslatePort where
  port : Nat
  otherSideIp : UInt32
  deriving DecidableEq, Repr

structure NatPortInfo where
  isNatInterface : Bool := false
  /-- the kept addresses, by the text of the translated tuple -/
  natMap : String → Option UInt32 := fun _ => none

structure P4SwitchNAT where
  portsInfo : Nat → NatPortInfo := fun _ => {}
  natPorts : List TranslatePort := []
  numNatPorts : Nat := 1
  natInterface : Option Nat := none

/-- A device to add: its index, and the name and address of the node on the other side. -/
structure Device where
  ifIndex : Nat
  otherSideName : String
  otherSideIp : UInt32

/-- `portInfo.is_nat_interface = kind` for the port `port`. -/
def P4SwitchNAT.setKind (n : P4SwitchNAT) (port : Nat) (kind : Bool) : P4SwitchNAT :=
  { n with portsInfo := update n.portsInfo port { n.portsInfo port with isNatInterface := kind } }

/-- `AddSwitchPort`: a node whose name has an `s` in it is a switch. -/
def addSwitchPort (n : P4SwitchNAT) (d : Device) : Option P4SwitchNAT :=
  if d.otherSideName.isEmpty then none
  else if 's' ∈ d.otherSideName.toList then
    some { n.setKind d.ifIndex true with natInterface := some d.ifIndex }
  else
    some { n.setKind d.ifIndex false with natPorts := n.natPorts ++ [{ port := d.ifIndex, otherSideIp := d.otherSideIp }] }

def init (n : P4SwitchNAT) : P4SwitchNAT := { n with numNatPorts := n.natPorts.length }

/-- The switch with its devices, after `Init`. -/
def build (devices : List Device) : Option P4SwitchNAT := (devices.foldlM addSwitchPort {}).map init

section
variable (hash32 : List UInt8 → UInt32)

/-- The inside host that a flow goes to. Without inside hosts the hash is taken modulo zero. -/
def natPort (n : P4SwitchNAT) (flow : FiveTuple) : Option TranslatePort :=
  if n.numNatPorts = 0 then none else n.natPorts[(hash32 (ipFiveTupleToBuffer flow)).toNat % n.numNatPorts]?

/-- The tuple of a flow with the address of its inside host. -/
def translated (flow : FiveTuple) (host : TranslatePort) : FiveTuple := { flow with dstIp := host.otherSideIp }

def reverseFlow (flow : FiveTuple) : FiveTuple where
  srcIp := flow.dstIp
  dstIp := flow.srcIp
  srcPort := flow.dstPort
  dstPort := flow.srcPort
  protocol := flow.protocol

/-- A packet on its way through the switch. -/
structure Passage where
  inPort : Nat
  arrived : Headers
  outPort : Option Nat
  left : Headers
  deriving DecidableEq

/-- `outInfo.nat_map[key] = cell` for the port `port`. -/
def P4SwitchNAT.keep (n : P4SwitchNAT) (port : Nat) (key : String) (cell : UInt32) : P4SwitchNAT :=
  let info := n.portsInfo port
  { n with portsInfo := update n.portsInfo port { info with natMap := update info.natMap key (some cell) } }

/-- `DoIngress` on a packet that arrives. Reading an absent key stores an empty cell. -/
def doIngress (inPort : Nat) (h : Headers) (n : P4SwitchNAT) : Option (P4SwitchNAT × Passage) :=
  match h.ipv4 with
  | none => some (n, { inPort := inPort, arrived := h, outPort := none, left := h })
  | some ip =>
    let flow := getFlowFiveTuple h ip
    if (n.portsInfo inPort).isNatInterface then
      (natPort hash32 n flow).map fun host =>
        (n.keep host.port (ipFiveTupleToString (translated flow host)) flow.dstIp,
          { inPort := inPort, arrived := h, outPort := some host.port,
            left := { h with ipv4 := some { ip with destination := host.otherSideIp } } })
    else
      let key := ipFiveTupleToString (reverseFlow flow)
      let cell := ((n.portsInfo inPort).natMap key).getD 0
      some (n.keep inPort key cell,
        { inPort := inPort, arrived := h, outPort := n.natInterface,
          left := { h with ipv4 := some { ip with source := cell } } })

/-- Packets arrive in any order. -/
def step : Lts.Step P4SwitchNAT (Nat × Headers) Passage := fun l n =>
  (doIngress hash32 l.1 l.2 n).map fun r => (r.1, [r.2])

end

/-! ## What the ports keep -/

@[simp] theorem natPorts_keep (n : P4SwitchNAT) (port : Nat) (key : String) (cell : UInt32) :
    (n.keep port key cell).natPorts = n.natPorts := rfl

@[simp] theorem numNatPorts_keep (n : P4SwitchNAT) (port : Nat) (key : String) (cell : UInt32) :
    (n.keep port key cell).numNatPorts = n.numNatPorts := rfl

@[simp] theorem natInterface_keep (n : P4SwitchNAT) (port : Nat) (key : String) (cell : UInt32) :
    (n.keep port key cell).natInterface = n.natInterface := rfl

@[simp] theorem isNatInterface_keep (n : P4SwitchNAT) (port : Nat) (key : String) (cell : UInt32) (p : Nat) :
    ((n.keep port key cell).portsInfo p).isNatInterface = (n.portsInfo p).isNatInterface := by
  by_cases same : p = port
  · simp only [P4SwitchNAT.keep, same, update_self]
  · simp only [P4SwitchNAT.keep, update_of_ne same]

theorem natMap_keep (n : P4SwitchNAT) (port : Nat) (key : String) (cell : UInt32) (p : Nat) (k : String) :
    ((n.keep port key cell).portsInfo p).natMap k =
      if p = port ∧ k = key then some cell else (n.portsInfo p).natMap k := by
  by_cases same : p = port
  · by_cases sameKey : k = key
    · simp only [P4SwitchNAT.keep, same, sameKey, update_self, and_self, if_true]
    · simp only [P4SwitchNAT.keep, same, sameKey, update_self, update_of_ne sameKey, and_false, if_false]
  · simp only [P4SwitchNAT.keep, same, update_of_ne same, false_and, if_false]

/-! ## The switch that `Init` leaves -/

/-- What adding devices establishes: the inside ports are no NAT interfaces, the NAT interface is one, and nothing is kept. -/
structure Built (seen : List Nat) (n : P4SwitchNAT) : Prop where
  inside : ∀ host ∈ n.natPorts, host.port ∈ seen ∧ (n.portsInfo host.port).isNatInterface = false
  outside : ∀ i, n.natInterface = some i → i ∈ seen ∧ (n.portsInfo i).isNatInterface = true
  empty : ∀ p, (n.portsInfo p).natMap = fun _ => none

theorem isNatInterface_setKind (n : P4SwitchNAT) (port : Nat) (kind : Bool) :
    ((n.setKind port kind).portsInfo port).isNatInterface = kind := by
  simp only [P4SwitchNAT.setKind, update_self]

theorem portsInfo_setKind {n : P4SwitchNAT} {port p : Nat} (other : p ≠ port) (kind : Bool) :
    (n.setKind port kind).portsInfo p = n.portsInfo p := by
  simp only [P4SwitchNAT.setKind, update_of_ne other]

theorem natMap_setKind (n : P4SwitchNAT) (port : Nat) (kind : Bool) (p : Nat) :
    ((n.setKind port kind).portsInfo p).natMap = (n.portsInfo p).natMap := by
  by_cases same : p = port
  · simp only [P4SwitchNAT.setKind, same, update_self]
  · rw [portsInfo_setKind same]

theorem Built.addSwitchPort {seen : List Nat} {n n' : P4SwitchNAT} {d : Device} (h : Built seen n)
    (fresh : d.ifIndex ∉ seen) (added : addSwitchPort n d = some n') : Built (seen ++ [d.ifIndex]) n' := by
  have old : ∀ p ∈ seen, ∀ kind, (n.setKind d.ifIndex kind).portsInfo p = n.portsInfo p := by
    intro p seenBefore kind
    refine portsInfo_setKind ?_ kind
    rintro rfl
    exact fresh seenBefore
  have new : d.ifIndex ∈ seen ++ [d.ifIndex] := List.mem_append_right _ (List.mem_singleton.2 rfl)
  unfold SwitchNat.addSwitchPort at added
  split at added
  · cases added
  split at added
  · obtain rfl := Option.some.inj added
    refine ⟨fun host mem => ?_, fun i eq => ?_, fun p => ?_⟩
    · obtain ⟨seenBefore, kind⟩ := h.inside host mem
      exact ⟨List.mem_append_left _ seenBefore, (congrArg _ (old _ seenBefore true)).trans kind⟩
    · obtain rfl := Option.some.inj eq
      exact ⟨new, isNatInterface_setKind n d.ifIndex true⟩
    · exact (natMap_setKind n d.ifIndex true p).trans (h.empty p)
  · obtain rfl := Option.some.inj added
    refine ⟨fun host mem => ?_, fun i eq => ?_, fun p => ?_⟩
    · rcases List.mem_append.1 mem with before | added
      · obtain ⟨seenBefore, kind⟩ := h.inside host before
        exact ⟨List.mem_append_left _ seenBefore, (congrArg _ (old _ seenBefore false)).trans kind⟩
      · obtain rfl := List.mem_singleton.1 added
        exact ⟨new, isNatInterface_setKind n d.ifIndex false⟩
    · obtain ⟨seenBefore, kind⟩ := h.outside i eq
      exact ⟨List.mem_append_left _ seenBefore, (congrArg _ (old _ seenBefore false)).trans kind⟩
    · exact (natMap_setKind n d.ifIndex false p).trans (h.empty p)

theorem Built.foldlM {devices : List Device} {seen : List Nat} {n n' : P4SwitchNAT} (h : Built seen n)
    (distinct : (seen ++ devices.map (·.ifIndex)).Nodup) (added : devices.foldlM SwitchNat.addSwitchPort n = some n') :
    Built (seen ++ devices.map (·.ifIndex)) n' := by
  induction devices generalizing seen n with
  | nil =>
    obtain rfl := Option.some.inj added
    simpa using h
  | cons d devices ih =>
    rw [List.foldlM_cons] at added
    obtain ⟨m, first, rest⟩ := Option.bind_eq_some_iff.1 added
    have fresh : d.ifIndex ∉ seen := by
      intro mem
      exact (List.nodup_append.1 distinct).2.2 _ mem _ (List.mem_cons_self ..) rfl
    simpa using ih (h.addSwitchPort fresh first) (by simpa using distinct) rest

theorem built_build {devices : List Device} {n : P4SwitchNAT} (distinct : (devices.map (·.ifIndex)).Nodup)
    (built : build devices = some n) : Built (devices.map (·.ifIndex)) n := by
  obtain ⟨m, added, rfl⟩ := Option.map_eq_some_iff.1 built
  have start : Built [] ({} : P4SwitchNAT) := by
    refine ⟨fun _ mem => ?_, fun _ eq => ?_, fun _ => rfl⟩
    · cases mem
    · cases eq
  obtain ⟨inside, outside, empty⟩ := start.foldlM (by simpa using distinct) added
  rw [List.nil_append] at inside outside
  exact ⟨inside, outside, empty⟩

end Ns3Fancy.SwitchNat
