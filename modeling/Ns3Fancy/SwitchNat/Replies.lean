import Ns3Fancy.SwitchNat.Translation

/-!
# Replies through the address translator

A reply carries the reverse of the tuple that the inside host got. It leaves with the destination of the packet it answers
as its source as long as the cell of that tuple is not written for a packet with another destination.
-/

namespace Ns3Fancy.SwitchNat
open Switch Function
set_option autoImplicit false

/-- The five-tuple of a packet. -/
def flowOf (h : Headers) : Option FiveTuple := h.ipv4.map fun ip => { getFlowFiveTuple h ip with id := 0 }

/-- What a host sends back to a packet: the addresses and the ports change sides. -/
def answer (h : Headers) : Headers where
  ipv4 := h.ipv4.map fun ip => { ip with source := ip.destination, destination := ip.source }
  tcp := h.tcp.map Prod.swap
  udp := h.udp.map Prod.swap

theorem ports_answer (h : Headers) (protocol : UInt8) : (answer h).ports protocol = (h.ports protocol).swap := by
  have swapped : ∀ ports : Option (UInt16 × UInt16), (ports.map Prod.swap).getD (0, 0) = (ports.getD (0, 0)).swap := by
    intro ports
    cases ports <;> rfl
  unfold Headers.ports
  split
  · exact swapped h.tcp
  split
  · exact swapped h.udp
  · rfl

theorem flowOf_answer (h : Headers) : flowOf (answer h) = (flowOf h).map reverseFlow := by
  cases ipv4 : h.ipv4 with
  | none => simp only [flowOf, answer, ipv4, Option.map_none]
  | some ip =>
    have turned : (answer h).ipv4 = some { ip with source := ip.destination, destination := ip.source } := by
      simp only [answer, ipv4, Option.map_some]
    simp only [flowOf, turned, ipv4, Option.map_some, getFlowFiveTuple, ports_answer, reverseFlow, Prod.fst_swap, Prod.snd_swap]

/-- The second packet comes from the inside host that got the first one, and answers it. -/
structure IsReply (n : P4SwitchNAT) (sent reply : Passage) : Prop where
  outside : (n.portsInfo sent.inPort).isNatInterface = true
  inside : (n.portsInfo reply.inPort).isNatInterface = false
  port : sent.outPort = some reply.inPort
  ipv4 : (flowOf sent.left).isSome
  tuple : flowOf reply.arrived = (flowOf sent.left).map reverseFlow

instance (n : P4SwitchNAT) (sent reply : Passage) : Decidable (IsReply n sent reply) :=
  decidable_of_iff ((n.portsInfo sent.inPort).isNatInterface = true ∧ (n.portsInfo reply.inPort).isNatInterface = false ∧
      sent.outPort = some reply.inPort ∧ (flowOf sent.left).isSome ∧ flowOf reply.arrived = (flowOf sent.left).map reverseFlow)
    ⟨fun ⟨outside, inside, port, ipv4, tuple⟩ => ⟨outside, inside, port, ipv4, tuple⟩,
      fun ⟨outside, inside, port, ipv4, tuple⟩ => ⟨outside, inside, port, ipv4, tuple⟩⟩

/-- The reply leaves the NAT interface with the address the packet was sent to. -/
def Restored (n : P4SwitchNAT) (sent reply : Passage) : Prop :=
  reply.outPort = n.natInterface ∧ reply.left.ipv4.map (·.source) = sent.arrived.ipv4.map (·.destination)

instance (n : P4SwitchNAT) (sent reply : Passage) : Decidable (Restored n sent reply) :=
  inferInstanceAs (Decidable (_ ∧ _))

/-- Every reply to a packet that passed before it is restored. -/
def RepliesRight (n : P4SwitchNAT) (passages : List Passage) : Prop :=
  passages.Pairwise fun sent reply => IsReply n sent reply → Restored n sent reply

instance (n : P4SwitchNAT) (passages : List Passage) : Decidable (RepliesRight n passages) :=
  inferInstanceAs (Decidable (List.Pairwise _ _))

/-- The flows that the packets from the outside may be of; packets from the inside are not restricted. -/
def Admits (flows : Set FiveTuple) (l : Nat × Headers) (n : P4SwitchNAT) : Prop :=
  (n.portsInfo l.1).isNatInterface = true → ∀ flow, flowOf l.2 = some flow → flow ∈ flows

/-- No two flows to one inside host differ in their destination only. -/
def Unshared (hash32 : List UInt8 → UInt32) (n : P4SwitchNAT) (flows : Set FiveTuple) : Prop :=
  ∀ f ∈ flows, ∀ g ∈ flows, ∀ host, natPort hash32 n f = some host → natPort hash32 n g = some host →
    f.srcIp = g.srcIp → f.srcPort = g.srcPort → f.dstPort = g.dstPort → f.protocol = g.protocol → f.dstIp = g.dstIp

/-! ## One packet -/

section
variable {hash32 : List UInt8 → UInt32}

/-- What is left of a packet from the outside. -/
def toHost (h : Headers) (ip : Ipv4Header) (host : TranslatePort) : Headers :=
  { h with ipv4 := some { ip with destination := host.otherSideIp } }

theorem doIngress_none {inPort : Nat} {h : Headers} {n : P4SwitchNAT} (ipv4 : h.ipv4 = none) :
    doIngress hash32 inPort h n = some (n, { inPort := inPort, arrived := h, outPort := none, left := h }) := by
  simp only [doIngress, ipv4]

theorem doIngress_outside {inPort : Nat} {h : Headers} {n : P4SwitchNAT} {ip : Ipv4Header} (ipv4 : h.ipv4 = some ip)
    (kind : (n.portsInfo inPort).isNatInterface = true) :
    doIngress hash32 inPort h n = (natPort hash32 n (getFlowFiveTuple h ip)).map fun host =>
      (n.keep host.port (ipFiveTupleToString (translated (getFlowFiveTuple h ip) host)) ip.destination,
        { inPort := inPort, arrived := h, outPort := some host.port, left := toHost h ip host }) := by
  simp only [doIngress, ipv4, kind, if_true]
  rfl

theorem doIngress_inside {inPort : Nat} {h : Headers} {n : P4SwitchNAT} {ip : Ipv4Header} {key : String} {cell : UInt32}
    (ipv4 : h.ipv4 = some ip) (kind : (n.portsInfo inPort).isNatInterface = false)
    (reversed : key = ipFiveTupleToString (reverseFlow (getFlowFiveTuple h ip)))
    (found : cell = ((n.portsInfo inPort).natMap key).getD 0) :
    doIngress hash32 inPort h n = some (n.keep inPort key cell,
      { inPort := inPort, arrived := h, outPort := n.natInterface,
        left := { h with ipv4 := some { ip with source := cell } } }) := by
  simp only [doIngress, ipv4, kind, Bool.false_eq_true, if_false, found, reversed]

/-- What the switch does to a packet, by where it comes from. -/
theorem doIngress_cases {inPort : Nat} {h : Headers} {n n' : P4SwitchNAT} {o : Passage}
    (passed : doIngress hash32 inPort h n = some (n', o)) : o.inPort = inPort ∧ o.arrived = h ∧
      ((h.ipv4 = none ∧ n' = n ∧ o.left = h) ∨
      (∃ ip host, h.ipv4 = some ip ∧ (n.portsInfo inPort).isNatInterface = true ∧
        natPort hash32 n (getFlowFiveTuple h ip) = some host ∧ o.outPort = some host.port ∧ o.left = toHost h ip host ∧
        n' = n.keep host.port (ipFiveTupleToString (translated (getFlowFiveTuple h ip) host)) ip.destination) ∨
      ∃ ip key cell, h.ipv4 = some ip ∧ (n.portsInfo inPort).isNatInterface = false ∧ o.outPort = n.natInterface ∧
        key = ipFiveTupleToString (reverseFlow (getFlowFiveTuple h ip)) ∧
        cell = ((n.portsInfo inPort).natMap key).getD 0 ∧ o.left = { h with ipv4 := some { ip with source := cell } } ∧
        n' = n.keep inPort key cell) := by
  cases ipv4 : h.ipv4 with
  | none =>
    rw [doIngress_none ipv4] at passed
    obtain ⟨rfl, rfl⟩ := Prod.mk.inj (Option.some.inj passed)
    exact ⟨rfl, rfl, .inl ⟨rfl, rfl, rfl⟩⟩
  | some ip =>
    cases kind : (n.portsInfo inPort).isNatInterface with
    | true =>
      rw [doIngress_outside ipv4 kind] at passed
      obtain ⟨host, hashed, eq⟩ := Option.map_eq_some_iff.1 passed
      obtain ⟨rfl, rfl⟩ := Prod.mk.inj eq
      exact ⟨rfl, rfl, .inr (.inl ⟨ip, host, rfl, rfl, hashed, rfl, rfl, rfl⟩)⟩
    | false =>
      rw [doIngress_inside ipv4 kind rfl rfl] at passed
      obtain ⟨rfl, rfl⟩ := Prod.mk.inj (Option.some.inj passed)
      exact ⟨rfl, rfl, .inr (.inr ⟨ip, _, _, rfl, rfl, rfl, rfl, rfl, rfl, rfl⟩)⟩

/-- The host of a flow does not depend on what the ports keep. -/
theorem natPort_congr {n n' : P4SwitchNAT} (ports : n'.natPorts = n.natPorts) (num : n'.numNatPorts = n.numNatPorts)
    (flow : FiveTuple) : natPort hash32 n' flow = natPort hash32 n flow := by
  unfold natPort
  rw [ports, num]

theorem flowOf_of_ipv4 {h : Headers} {ip : Ipv4Header} (ipv4 : h.ipv4 = some ip) :
    flowOf h = some { getFlowFiveTuple h ip with id := 0 } := by
  simp only [flowOf, ipv4, Option.map_some]

theorem flowOf_toHost (h : Headers) (ip : Ipv4Header) (host : TranslatePort) :
    flowOf (toHost h ip host) = some (translated { getFlowFiveTuple h ip with id := 0 } host) := rfl

theorem destination_of_flowOf {h : Headers} {flow : FiveTuple} (tuple : flowOf h = some flow) :
    h.ipv4.map (·.destination) = some flow.dstIp := by
  obtain ⟨ip, ipv4, rfl⟩ := Option.map_eq_some_iff.1 tuple
  simp only [ipv4, Option.map_some, getFlowFiveTuple]

/-! ## Runs -/

/-- A packet to an inside host is of one of the flows, and the host's port keeps the address the packet had. -/
def AddressKept (hash32 : List UInt8 → UInt32) (flows : Set FiveTuple) (n n' : P4SwitchNAT) (o : Passage) : Prop :=
  ∀ seen, flowOf o.left = some seen → ∃ flow ∈ flows, ∃ host, flowOf o.arrived = some flow ∧
    natPort hash32 n flow = some host ∧ o.outPort = some host.port ∧ seen = translated flow host ∧
    (n'.portsInfo host.port).natMap (ipFiveTupleToString seen) = some flow.dstIp

/-- The switch `n'` after the packets `passages` is `n` but for what its ports keep. -/
structure Kept (hash32 : List UInt8 → UInt32) (flows : Set FiveTuple) (n n' : P4SwitchNAT) (passages : List Passage) :
    Prop where
  natPorts : n'.natPorts = n.natPorts
  numNatPorts : n'.numNatPorts = n.numNatPorts
  natInterface : n'.natInterface = n.natInterface
  kind : ∀ p, (n'.portsInfo p).isNatInterface = (n.portsInfo p).isNatInterface
  sent : ∀ o ∈ passages, (n.portsInfo o.inPort).isNatInterface = true → AddressKept hash32 flows n n' o
  right : RepliesRight n passages

variable {flows : Set FiveTuple} {n n' : P4SwitchNAT} {passages : List Passage}

/-- A cell written with what it has, or with the address of another packet of the flow, leaves the addresses kept. -/
theorem AddressKept.keep {o : Passage} {port : Nat} {key : String} {cell : UInt32}
    (agree : ∀ flow ∈ flows, ∀ host, natPort hash32 n flow = some host → port = host.port →
      key = ipFiveTupleToString (translated flow host) → (n'.portsInfo port).natMap key = some flow.dstIp → cell = flow.dstIp)
    (h : AddressKept hash32 flows n n' o) : AddressKept hash32 flows n (n'.keep port key cell) o := by
  intro seen left
  obtain ⟨flow, mem, host, arrived, hashed, out, rfl, kept⟩ := h seen left
  refine ⟨flow, mem, host, arrived, hashed, out, rfl, ?_⟩
  rw [natMap_keep]
  split
  · rename_i written
    obtain ⟨samePort, sameKey⟩ := written
    rw [samePort, sameKey] at kept
    rw [agree flow mem host hashed samePort.symm sameKey.symm kept]
  · exact kept

theorem Kept.keep {port : Nat} {key : String} {cell : UInt32}
    (agree : ∀ flow ∈ flows, ∀ host, natPort hash32 n flow = some host → port = host.port →
      key = ipFiveTupleToString (translated flow host) → (n'.portsInfo port).natMap key = some flow.dstIp → cell = flow.dstIp)
    (h : Kept hash32 flows n n' passages) : Kept hash32 flows n (n'.keep port key cell) passages where
  natPorts := h.natPorts
  numNatPorts := h.numNatPorts
  natInterface := h.natInterface
  kind p := (isNatInterface_keep n' port key cell p).trans (h.kind p)
  sent o mem outside := (h.sent o mem outside).keep agree
  right := h.right

/-- A further packet that keeps its address and answers right. -/
theorem Kept.snoc {o : Passage} (h : Kept hash32 flows n n' passages)
    (sent : (n.portsInfo o.inPort).isNatInterface = true → AddressKept hash32 flows n n' o)
    (right : ∀ first ∈ passages, IsReply n first o → Restored n first o) : Kept hash32 flows n n' (passages ++ [o]) where
  natPorts := h.natPorts
  numNatPorts := h.numNatPorts
  natInterface := h.natInterface
  kind := h.kind
  sent := by
    intro o' mem outside
    rcases List.mem_append.1 mem with old | new
    · exact h.sent o' old outside
    · obtain rfl := List.mem_singleton.1 new
      exact sent outside
  right := by
    refine List.pairwise_append.2 ⟨h.right, List.pairwise_singleton .., ?_⟩
    intro first mem last single
    obtain rfl := List.mem_singleton.1 single
    exact right first mem

theorem Kept.start : Kept hash32 flows n n [] :=
  ⟨rfl, rfl, rfl, fun _ => rfl, fun _ mem => (List.not_mem_nil mem).elim, List.Pairwise.nil⟩

/-- **One packet keeps the addresses of the flows**, as long as no two of them share a cell. -/
theorem Kept.passed (unshared : Unshared hash32 n flows) (h : Kept hash32 flows n n' passages) {l : Nat × Headers}
    (admitted : Admits flows l n') {m : P4SwitchNAT} {o : Passage} (passed : doIngress hash32 l.1 l.2 n' = some (m, o)) :
    Kept hash32 flows n m (passages ++ [o]) := by
  obtain ⟨arrivedAt, arrived, ⟨ipv4, rfl, left⟩ | ⟨ip, host, ipv4, kind, hashed, out, left, rfl⟩ |
    ⟨ip, key, cell, ipv4, kind, out, keyEq, cellEq, left, rfl⟩⟩ := doIngress_cases passed
  · -- a packet without an IPv4 header is no reply
    have noFlow : flowOf l.2 = none := by simp only [flowOf, ipv4, Option.map_none]
    refine h.snoc (fun _ seen tuple => ?_) (fun first _ reply => ?_)
    · rw [left, noFlow] at tuple
      cases tuple
    · obtain ⟨seen, tuple⟩ := Option.isSome_iff_exists.1 reply.ipv4
      have answered := reply.tuple
      rw [arrived, noFlow, tuple] at answered
      cases answered
  · -- a packet from the outside
    have tuple := flowOf_of_ipv4 ipv4
    rw [natPort_congr h.natPorts h.numNatPorts] at hashed
    have mem := admitted kind _ tuple
    refine (h.keep ?_).snoc (fun _ seen tuple' => ?_) (fun first _ reply => ?_)
    · intro flow mem' host' hashed' samePort sameKey _
      obtain ⟨src, address, srcPort, dstPort, protocol⟩ := ipFiveTupleToString_inj.1 sameKey
      have sameHost : host = host' := by
        cases host
        cases host'
        congr
      rw [← sameHost] at hashed'
      exact unshared _ mem flow mem' host hashed hashed' src srcPort dstPort protocol
    · rw [left, flowOf_toHost] at tuple'
      obtain rfl := Option.some.inj tuple'
      refine ⟨_, mem, host, arrived ▸ tuple, hashed, out, rfl, ?_⟩
      rw [natMap_keep, if_pos ⟨rfl, rfl⟩]
      rfl
    · have inside := reply.inside
      rw [arrivedAt, ← h.kind, kind] at inside
      cases inside
  · -- a packet from the inside
    refine (h.keep ?_).snoc (fun outside => ?_) (fun first mem reply => ?_)
    · intro flow _ _ _ _ _ kept
      rw [cellEq, kept, Option.getD_some]
    · rw [arrivedAt, ← h.kind, kind] at outside
      cases outside
    · refine ⟨out.trans h.natInterface, ?_⟩
      obtain ⟨seen, tuple⟩ := Option.isSome_iff_exists.1 reply.ipv4
      obtain ⟨flow, _, host, first, _, firstOut, rfl, kept⟩ := h.sent _ mem reply.outside seen tuple
      -- the reply is filed under the tuple that the host got
      have port : host.port = l.1 := by
        rw [← arrivedAt]
        exact Option.some.inj (firstOut.symm.trans reply.port)
      have answered := reply.tuple
      rw [arrived, tuple, flowOf_of_ipv4 ipv4] at answered
      have sameKey : key = ipFiveTupleToString (translated flow host) := by
        have same := congrArg (fun flow => ipFiveTupleToString (reverseFlow flow)) (Option.some.inj answered)
        exact keyEq.trans same
      rw [left, destination_of_flowOf first, cellEq, sameKey, ← port, kept]
      rfl

/-! ## Two flows to one host -/

/-- A packet of a flow and one of another flow go to one host, and the host answers the first: the answer is restored only if
both were sent to one address. -/
theorem Unshared.of_replies {i : Nat} (outside : (n.portsInfo i).isNatInterface = true)
    (inside : ∀ host ∈ n.natPorts, (n.portsInfo host.port).isNatInterface = false)
    (real : ∀ flow ∈ flows, ∃ h, flowOf h = some flow)
    (right : ∀ n' passages, Lts.Run (step hash32) (Admits flows) n n' passages → RepliesRight n passages) :
    Unshared hash32 n flows := by
  intro f memF g memG host hashedF hashedG src srcPort dstPort protocol
  obtain ⟨hf, tupleF⟩ := real f memF
  obtain ⟨hg, tupleG⟩ := real g memG
  obtain ⟨ipF, ipv4F, rfl⟩ := Option.map_eq_some_iff.1 tupleF
  obtain ⟨ipG, ipv4G, rfl⟩ := Option.map_eq_some_iff.1 tupleG
  have kind : (n.portsInfo host.port).isNatInterface = false := by
    unfold natPort at hashedF
    split at hashedF
    · cases hashedF
    · exact inside host (List.mem_of_getElem? hashedF)
  have sameKey : ipFiveTupleToString (translated (getFlowFiveTuple hf ipF) host) =
      ipFiveTupleToString (translated (getFlowFiveTuple hg ipG) host) :=
    ipFiveTupleToString_inj.2 ⟨src, rfl, srcPort, dstPort, protocol⟩
  -- the three packets
  let key := ipFiveTupleToString (translated (getFlowFiveTuple hf ipF) host)
  let n₁ := n.keep host.port key ipF.destination
  let n₂ := n₁.keep host.port key ipG.destination
  let back := answer (toHost hf ipF host)
  have first : step hash32 (i, hf) n = some (n₁, [⟨i, hf, some host.port, toHost hf ipF host⟩]) := by
    have hashed : natPort hash32 n (getFlowFiveTuple hf ipF) = some host := hashedF
    simp only [step, doIngress_outside ipv4F outside, hashed, Option.map_some, n₁, key]
  have second : step hash32 (i, hg) n₁ = some (n₂, [⟨i, hg, some host.port, toHost hg ipG host⟩]) := by
    have outside₁ : (n₁.portsInfo i).isNatInterface = true := (isNatInterface_keep ..).trans outside
    have hashed : natPort hash32 n₁ (getFlowFiveTuple hg ipG) = some host := hashedG
    simp only [step, doIngress_outside ipv4G outside₁, hashed, Option.map_some, n₂, key, sameKey]
  have tuple := flowOf_answer (toHost hf ipF host)
  have third : step hash32 (host.port, back) n₂ = some (n₂.keep host.port key ipG.destination, [⟨host.port, back,
      n.natInterface, { back with ipv4 := some ⟨ipG.destination, ipF.source, ipF.protocol, ipF.identification⟩ }⟩]) := by
    have kind₂ : (n₂.portsInfo host.port).isNatInterface = false :=
      (isNatInterface_keep ..).trans ((isNatInterface_keep ..).trans kind)
    have ipv4 : back.ipv4 = some ⟨host.otherSideIp, ipF.source, ipF.protocol, ipF.identification⟩ := rfl
    have reversed : key = ipFiveTupleToString (reverseFlow (getFlowFiveTuple back
        ⟨host.otherSideIp, ipF.source, ipF.protocol, ipF.identification⟩)) := by
      rw [flowOf_of_ipv4 ipv4, flowOf_toHost] at tuple
      exact (congrArg (fun flow => ipFiveTupleToString (reverseFlow flow)) (Option.some.inj tuple)).symm
    have found : ipG.destination = ((n₂.portsInfo host.port).natMap key).getD 0 := by
      rw [natMap_keep, if_pos ⟨rfl, rfl⟩, Option.getD_some]
    simp only [step, doIngress_inside ipv4 kind₂ reversed found, Option.map_some]
    rfl
  have admittedF : Admits flows (i, hf) n := by
    intro _ flow eq
    obtain rfl := Option.some.inj (tupleF.symm.trans eq)
    exact memF
  have admittedG : Admits flows (i, hg) n₁ := by
    intro _ flow eq
    obtain rfl := Option.some.inj (tupleG.symm.trans eq)
    exact memG
  have admittedBack : Admits flows (host.port, back) n₂ := by
    intro isNat
    rw [(isNatInterface_keep ..).trans ((isNatInterface_keep ..).trans kind)] at isNat
    cases isNat
  have run : Lts.Run (step hash32) (Admits flows) n _ _ :=
    ((Lts.Run.nil.snoc admittedF first).snoc admittedG second).snoc admittedBack third
  have pairs := (List.pairwise_append.1 (right _ _ run)).2.2
  obtain ⟨-, restored⟩ := pairs _ (List.mem_append_left _ (List.mem_append_right _ (List.mem_singleton.2 rfl))) _
    (List.mem_singleton.2 rfl) ⟨outside, kind, rfl, rfl, tuple⟩
  have addresses : some ipG.destination = some ipF.destination := by simpa only [ipv4F, Option.map_some] using restored
  exact (Option.some.inj addresses).symm

/-- **Replies carry the address their flow was sent to, in every run, exactly when no two of the flows to one inside host
differ in their destination only.** -/
theorem nat_replies (hash32 : List UInt8 → UInt32) {devices : List Device} {n : P4SwitchNAT} {i : Nat}
    (distinct : (devices.map (·.ifIndex)).Nodup) (built : build devices = some n) (outside : n.natInterface = some i)
    (flows : Set FiveTuple) (real : ∀ flow ∈ flows, ∃ h, flowOf h = some flow) :
    (∀ n' passages, Lts.Run (step hash32) (Admits flows) n n' passages → RepliesRight n passages) ↔
      Unshared hash32 n flows := by
  obtain ⟨insidePorts, outsidePort, _⟩ := built_build distinct built
  constructor
  · exact Unshared.of_replies (outsidePort i outside).2 (fun host mem => (insidePorts host mem).2) real
  · intro unshared n' passages run
    have kept : Kept hash32 flows n n' passages := by
      refine run.invariant Kept.start ?_
      intro m m' before new l h admitted stepped
      obtain ⟨⟨m'', o⟩, passed, eq⟩ := Option.map_eq_some_iff.1 stepped
      obtain ⟨rfl, rfl⟩ := Prod.mk.inj eq
      exact h.passed unshared admitted passed
    exact kept.right

end

/-- A switch on port 1 and one inside host, `10.0.1.1`, on port 2. -/
def oneHost : List Device :=
  [{ ifIndex := 1, otherSideName := "s2", otherSideIp := 0 },
    { ifIndex := 2, otherSideName := "h1", otherSideIp := 0x0a000101 }]

/-- A UDP packet from a port of `10.0.9.9` to the given address. -/
def queryFrom (port : UInt16) (destination : UInt32) : Headers where
  ipv4 := some { source := 0x0a000909, destination := destination, protocol := UDP, identification := 0 }
  udp := some (port, 53)

def queryTo (destination : UInt32) : Headers := queryFrom 4000 destination

/-- The flows of two queries to one inside host, from two ports to two addresses. -/
def twoFlows : Set FiveTuple := fun flow =>
  flowOf (queryFrom 4000 0x14000001) = some flow ∨ flowOf (queryFrom 4001 0x14000002) = some flow

/-- Replies are right where two flows to one host differ in a port, whatever the hash; here are those to both. -/
theorem nat_replies_two_flows :
    (∀ n' passages, Lts.Run (step fun _ => 0) (Admits twoFlows) ((build oneHost).getD {}) n' passages →
      RepliesRight ((build oneHost).getD {}) passages) ∧
    ∃ m passages, Lts.Run (step fun _ => 0) (fun _ _ => True) ((build oneHost).getD {}) m passages ∧
      passages.map (fun o => (o.outPort, o.left.ipv4.map (·.source))) =
        [(some 2, some 0x0a000909), (some 2, some 0x0a000909), (some 1, some 0x14000001), (some 1, some 0x14000002)] := by
  have unshared : Unshared (fun _ => 0) ((build oneHost).getD {}) twoFlows := by
    have apart : ∀ f g, flowOf (queryFrom 4000 0x14000001) = some f → flowOf (queryFrom 4001 0x14000002) = some g →
        f.srcPort ≠ g.srcPort := by
      rintro f g first second
      cases first
      cases second
      decide
    rintro f (memF | memF) g (memG | memG) _ _ _ _ port _ _
    · rw [Option.some.inj (memF.symm.trans memG)]
    · exact absurd port (apart f g memF memG)
    · exact absurd port.symm (apart g f memG memF)
    · rw [Option.some.inj (memF.symm.trans memG)]
  have real : ∀ flow ∈ twoFlows, ∃ h, flowOf h = some flow := by
    rintro flow (mem | mem)
    · exact ⟨_, mem⟩
    · exact ⟨_, mem⟩
  refine ⟨(nat_replies (fun _ => 0) (i := 1) (by decide) (rfl : build oneHost = some ((build oneHost).getD {})) rfl twoFlows
    real).2 unshared, ?_⟩
  exact Lts.Run.exists_of_guarded [(1, queryFrom 4000 0x14000001), (1, queryFrom 4001 0x14000002),
    (2, answer (queryFrom 4000 0x0a000101)), (2, answer (queryFrom 4001 0x0a000101))] (by decide +kernel)

/-- Two queries that differ in their destination, and the host's answer to the first: it leaves with the destination of the
second. -/
theorem reply_from_other_address : ∃ m passages,
    Lts.Run (step fun _ => 0) (fun _ _ => True) ((build oneHost).getD {}) m passages ∧
      passages.map (fun o => (o.outPort, o.left.ipv4.map (·.source))) =
        [(some 2, some 0x0a000909), (some 2, some 0x0a000909), (some 1, some 0x14000002)] ∧
      ¬ RepliesRight ((build oneHost).getD {}) passages := by
  have session : ∃ m passages, Lts.Run (step fun _ => 0) (fun _ _ => True) ((build oneHost).getD {}) m passages ∧
      (passages.map (fun o => (o.outPort, o.left.ipv4.map (·.source))),
        decide (RepliesRight ((build oneHost).getD {}) passages)) =
        ([(some 2, some 0x0a000909), (some 2, some 0x0a000909), (some 1, some 0x14000002)], false) :=
    Lts.Run.exists_of_guarded [(1, queryTo 0x14000001), (1, queryTo 0x14000002), (2, answer (queryTo 0x0a000101))]
      (by decide +kernel)
  obtain ⟨m, passages, run, shown⟩ := session
  obtain ⟨leaves, wrong⟩ := Prod.mk.inj shown
  exact ⟨m, passages, run, leaves, of_decide_eq_false wrong⟩

end Ns3Fancy.SwitchNat
