import Mathlib.Algebra.BigOperators.Group.Finset.Basic
import Mathlib.Algebra.Order.BigOperators.Group.Finset
import Mathlib.Algebra.Order.Group.Multiset
import Ns3Fancy.Link.Fabric

/-!
# Hosts get what hosts sent

Between switches a packet may be behind a FANCY header, and the machines and the keep-alives send frames of their own. Whatever
the topology and the order of events, none of this reaches a host: the frames on the wires to hosts and the packets on the links
are among the frames that hosts have sent, none of them twice and none of them changed but for the length of a UDP header.
-/

namespace Ns3Fancy.Link.Fabric
open Switch Buffer Function
set_option autoImplicit false

variable {V : Type}

section
variable (cfg : FancyConfig) (net : Net.Cables (V × Nat))

/-- What a frame on the wire out of `x` is to hosts, but for the length of a UDP header: towards a host the frame itself, on a
link the packet in it. -/
def freight (x : V × Nat) (frame : Frame) : Option Frame :=
  if (net.peer x).isSome then content cfg.ns3 frame else some (frame.sansLength cfg.ns3)

/-- The packets on the wire out of `x`. -/
def cargo (s : Net.State (V × Nat)) (x : V × Nat) : Multiset Frame := ((s.wire x).filterMap (freight cfg net x) : List Frame)

/-- The frame that a host sends. -/
def entering : Label cfg V → List Frame
  | .enter _ pkt _ => [pkt.val.frame]
  | .deliver _ _ | .fire _ _ _ | .probe _ _ | .lose _ _ | .configure _ _ => []

/-- The switches, with the frames that hosts send as the trace. -/
def recorded [DecidableEq V] : Lts.Step (State cfg V) (Label cfg V) Frame := fun l s =>
  (step cfg net l s).map fun r => (r.1, entering cfg l)

end

/-! ## Sums over ports -/

section
variable {X : Type} [DecidableEq X] {f g : X → Multiset Frame} {z : X} {change : Multiset Frame}

theorem sum_le_of_grows (others : ∀ y, y ≠ z → g y = f y) (here : g z ≤ f z + change) (places : Finset X) :
    ∑ x ∈ places, g x ≤ ∑ x ∈ places, f x + change := by
  by_cases mem : z ∈ places
  · have same : ∑ x ∈ places.erase z, g x = ∑ x ∈ places.erase z, f x :=
      Finset.sum_congr rfl fun y there => others y (Finset.ne_of_mem_erase there)
    rw [← Finset.add_sum_erase places g mem, ← Finset.add_sum_erase places f mem, same, add_right_comm]
    exact add_le_add_left here _
  · have same : ∑ x ∈ places, g x = ∑ x ∈ places, f x :=
      Finset.sum_congr rfl fun y there => others y fun eq => mem (eq ▸ there)
    rw [same]
    exact Multiset.le_add_right _ _

theorem sum_eq_of_shrinks (others : ∀ y, y ≠ z → g y = f y) (here : f z = g z + change) {places : Finset X} (mem : z ∈ places) :
    ∑ x ∈ places, f x = ∑ x ∈ places, g x + change := by
  have same : ∑ x ∈ places.erase z, g x = ∑ x ∈ places.erase z, f x :=
    Finset.sum_congr rfl fun y there => others y (Finset.ne_of_mem_erase there)
  rw [← Finset.add_sum_erase places g mem, ← Finset.add_sum_erase places f mem, same, here, add_right_comm]

end

/-! ## One switch -/

section
variable {cfg : FancyConfig} {net : Net.Cables (V × Nat)} {n : Node cfg} {luck : Luck} {i : Nat} {ports : Ports} {v : V}

/-- A switch sends at most one frame for one that it gets. -/
theorem egress_short {payload : Bytes} {m : PktInfo cfg.ns3} {r : Ports × List (Nat × Frame) × List PortLog}
    (run : n.egress luck payload ports m = some r) : r.2.1.length ≤ 1 := by
  rw [Node.egress] at run
  split at run
  · cases run
    exact Nat.zero_le 1
  · obtain ⟨e, -, rfl⟩ := Option.map_eq_some_iff.1 run
    simp only [Node.egressTrafficManager]
    split
    · exact Nat.zero_le 1
    · split <;> simp

theorem receiveFromDevice_short {frame : Frame} {r : Ports × List (Nat × Frame) × List PortLog}
    (run : n.receiveFromDevice luck i frame ports = some r) : r.2.1.length ≤ 1 := by
  obtain ⟨h, -, run⟩ := Option.bind_eq_some_iff.1 run
  obtain ⟨q, box, run⟩ := Option.bind_eq_some_iff.1 run
  obtain ⟨t, left, rfl⟩ := Option.map_eq_some_iff.1 run
  have single : q.2.1.broadcastFlag = false := by
    obtain ⟨e, machines, rfl⟩ := Option.map_eq_some_iff.1 box
    obtain ⟨passed, -⟩ := ingressMachines_passed machines
    have arrived := passed.broadcastFlag.trans (arrival_data n i frame h.1).2.2
    cases e.2.1.outPort with
    | none => exact arrived
    | some out => exact (reroute_snd _ e.2.1).2.2.trans arrived
  simp only [Node.trafficManager, single, Bool.false_eq_true, if_false] at left
  split at left
  · cases left
    exact Nat.zero_le 1
  split at left
  · cases left
    exact Nat.zero_le 1
  · rw [Node.egressAll_singleton] at left
    have short := egress_short left
    exact short

/-- A packet of the switch itself does not leave towards a host. -/
theorem sendInternal_host {hdr : FancyHeader} (host : (ports i).switchPort = false) (next : hdr.nextHeader = 0)
    {r : Ports × List (Nat × Frame) × List PortLog} (run : n.sendInternal luck i hdr ports = some r) : r.2.1 = [] := by
  rw [sendInternal_eq, Node.egress] at run
  split at run
  · cases run
    rfl
  · obtain ⟨e, boxed, rfl⟩ := Option.map_eq_some_iff.1 run
    obtain ⟨c, counting, rfl⟩ := Option.map_eq_some_iff.1 boxed
    have kind : (wildcardEgress cfg (ports i) (ownPacket cfg i hdr)).1.switchPort = false := by
      simp only [wildcardEgress, apply_ite Prod.fst, apply_ite FancyPortInfo.switchPort, ite_self, host]
    have fancy : (ownPacket cfg i hdr).headers.fancy = some hdr := rfl
    simp only [egressCounting, kind, Bool.false_eq_true, false_and, and_false, if_false, fancy, Bool.not_false, if_true,
      Option.some.injEq] at counting
    subst counting
    simp only [Node.egressTrafficManager, stripPacket, next, if_true, Bool.true_or]
    rfl

theorem sendGreyAction_next {action : UInt8} {id : Nat} {p : FancyPortInfo} {r : FancyPortInfo × FancyHeader}
    (run : sendGreyAction cfg action id p = some r) : r.2.nextHeader = 0 := by
  simp only [sendGreyAction] at run
  split at run
  · split at run <;> cases run
    rw [FancyHeader.addMaximums_eq]
    rfl
  split at run
  · split at run <;> cases run <;> rfl
  split at run <;> cases run <;> rfl

theorem sendGreyCounter_next {id : Nat} {p : FancyPortInfo} {r : FancyPortInfo × FancyHeader × List PortLog}
    (run : sendGreyCounter cfg id p = some r) : r.2.1.nextHeader = 0 := by
  simp only [sendGreyCounter] at run
  split at run
  · split at run <;> cases run
    rw [FancyHeader.addCounters_eq]
    rfl
  · cases run
    rfl

/-- Nor does what a timer sends. -/
theorem fire_host {place : Nat} (host : (ports i).switchPort = false) {r : Ports × List (Nat × Frame) × List PortLog}
    (run : n.fire luck i place ports = some r) : r.2.1 = [] := by
  obtain ⟨⟨u, ev⟩, -, run⟩ := Option.bind_eq_some_iff.1 run
  cases ev with
  | sendGreyAction action id =>
    obtain ⟨s, moved, run⟩ := Option.bind_eq_some_iff.1 run
    refine sendInternal_host ?_ (sendGreyAction_next moved) run
    rw [update_self]
    exact (switchPort_sendGreyAction moved).trans host
  | sendGreyCounter id =>
    obtain ⟨s, moved, run⟩ := Option.bind_eq_some_iff.1 run
    refine sendInternal_host ?_ (sendGreyCounter_next moved) run
    rw [update_self]
    exact (switchPort_sendGreyCounter moved).trans host

/-- A packet of the switch leaves at most once. -/
theorem sendInternal_short {hdr : FancyHeader} {r : Ports × List (Nat × Frame) × List PortLog}
    (run : n.sendInternal luck i hdr ports = some r) : r.2.1.length ≤ 1 := by
  rw [sendInternal_eq] at run
  exact egress_short run

theorem fire_short {place : Nat} {r : Ports × List (Nat × Frame) × List PortLog}
    (run : n.fire luck i place ports = some r) : r.2.1.length ≤ 1 := by
  obtain ⟨⟨u, ev⟩, -, run⟩ := Option.bind_eq_some_iff.1 run
  cases ev with
  | sendGreyAction action id =>
    obtain ⟨s, -, run⟩ := Option.bind_eq_some_iff.1 run
    exact sendInternal_short run
  | sendGreyCounter id =>
    obtain ⟨s, -, run⟩ := Option.bind_eq_some_iff.1 run
    exact sendInternal_short run

theorem carries_carrying (pkt : HostPacket cfg) (earlier : Option (UInt32 × UInt16)) (count : Bool) :
    Carries pkt.val (carrying pkt earlier count) := by
  cases earlier with
  | none =>
    rw [carrying_none]
    exact .plain
  | some e =>
    rw [carrying_some]
    exact .tagged (earlier_tags pkt e count)

theorem content_carries {pkt : HostPacket cfg} {frame : Frame} (carries : Carries pkt.val frame) :
    content cfg.ns3 frame = none ∨ content cfg.ns3 frame = some (pkt.val.frame.sansLength cfg.ns3) := by
  cases carries with
  | plain =>
    have plain := content_carrying pkt none false
    rw [carrying_none] at plain
    exact Or.inr (by simpa using plain)
  | @tagged hdr tags =>
    have bare : ({ pkt.val.reread.headers with fancy := none } : Headers cfg.ns3) = pkt.val.reread.headers := by
      rw [← pkt.property.reread.noFancy]
    have length : pkt.val.reread.headers.sansLength = pkt.val.headers.sansLength := Headers.sansLength_reread _ _
    have next : hdr.bare.nextHeader = pkt.val.protocol := tags.next
    rw [content, parse_tagged pkt.property tags, Option.bind_some]
    simp only [next, bare, length, sansLength_frame pkt.property]
    split
    · exact Or.inl rfl
    · exact Or.inr rfl

/-- A packet is on its way through a switch: what leaves is the packet, or nothing. -/
theorem freight_packet (kinds : ∀ j, (ports j).switchPort = (net.peer (v, j)).isSome) {pkt : HostPacket cfg} {frame : Frame}
    (carries : Carries pkt.val frame) {r : Ports × List (Nat × Frame) × List PortLog}
    (run : n.receiveFromDevice luck i frame ports = some r) {out : Nat} {f : Frame} (mem : (out, f) ∈ r.2.1) :
    freight cfg net (v, out) f = none ∨ freight cfg net (v, out) f = some (pkt.val.frame.sansLength cfg.ns3) := by
  obtain ⟨carries', host⟩ := carries.hop pkt.property run mem
  have same := sansLength_frame_reread pkt.property
  rw [kinds] at host
  unfold freight
  cases towards : (net.peer (v, out)).isSome with
  | true =>
    rw [← same]
    exact @content_carries cfg pkt.reread f carries'
  | false =>
    rw [host towards, ← same]
    exact Or.inr rfl

/-- **A frame comes from another switch**: what leaves carries the packet that was in the frame, or nothing. -/
theorem freight_sound (kinds : ∀ j, (ports j).switchPort = (net.peer (v, j)).isSome) (settled : Settled cfg (ports i))
    {frame : Frame} (sound : Sound cfg frame) {r : Ports × List (Nat × Frame) × List PortLog}
    (run : n.receiveFromDevice luck i frame ports = some r) {out : Nat} {f : Frame} (mem : (out, f) ∈ r.2.1) :
    freight cfg net (v, out) f = none ∨ freight cfg net (v, out) f = content cfg.ns3 frame := by
  cases carried : content cfg.ns3 frame with
  | some g =>
    cases sound with
    | packet pkt earlier count tag hasTag same =>
      subst same
      obtain rfl : pkt.val.frame.sansLength cfg.ns3 = g := by
        rw [content_carrying] at carried
        split at carried
        · cases carried
        · exact Option.some.inj carried
      exact freight_packet kinds (carries_carrying pkt earlier count) run mem
    | control msg isControl reads =>
      rw [reads.content_eq_none isControl] at carried
      cases carried
  | none =>
    left
    obtain ⟨received, -, whole, -, -, empty⟩ := receiveFromDevice_sound settled sound run
    rw [whole, empty carried, List.append_nil] at mem
    obtain ⟨g, answer, same⟩ := List.mem_map.1 mem
    cases same
    obtain ⟨-, messages⟩ := settled.receive_sound sound received
    have towards : (net.peer (v, i)).isSome = true := (kinds i).symm.trans settled.towardsSwitch
    rw [freight, if_pos towards]
    exact (messages f answer).content_eq_none

end

/-! ## The books -/

section
variable {cfg : FancyConfig} {net : Net.Cables (V × Nat)} [DecidableEq V] {s s' : State cfg V} {t : Net.State (V × Nat)} {v : V}

/-- A switch has sent at most one frame. -/
theorem sum_put_le (t : Net.State (V × Nat)) (v : V) (ports : Ports) {sent : List (Nat × Frame)} (short : sent.length ≤ 1)
    {change : Option Frame}
    (fits : ∀ out f, (out, f) ∈ sent → freight cfg net (v, out) f = none ∨ freight cfg net (v, out) f = change)
    (places : Finset (V × Nat)) :
    ∑ x ∈ places, cargo cfg net (put t v ports sent) x ≤
      ∑ x ∈ places, cargo cfg net t x + (change.toList : Multiset Frame) := by
  cases sent with
  | nil =>
    have same : ∀ x, cargo cfg net (put t v ports []) x = cargo cfg net t x := by
      intro x
      simp [cargo, put]
    rw [Finset.sum_congr rfl fun x _ => same x]
    exact Multiset.le_add_right _ _
  | cons e rest =>
    obtain ⟨out, f⟩ := e
    obtain rfl : rest = [] := List.length_eq_zero_iff.1 (Nat.le_zero.1 (Nat.le_of_succ_le_succ short))
    refine sum_le_of_grows (z := (v, out)) (fun y there => ?_) ?_ places
    · have other : ¬(y.1 = v ∧ out = y.2) := by
        rintro ⟨rfl, rfl⟩
        exact there rfl
      by_cases here : y.1 = v
      · have apart : ¬out = y.2 := fun eq => other ⟨here, eq⟩
        simp [cargo, put, here, apart]
      · simp [cargo, put, here]
    · have whole : cargo cfg net (put t v ports [(out, f)]) (v, out) =
          cargo cfg net t (v, out) + ((freight cfg net (v, out) f).toList : Multiset Frame) := by
        simp only [cargo, put, if_true, List.filter_cons, List.filter_nil, List.map_cons, List.map_nil, List.filterMap_append,
          decide_true, ← Multiset.coe_add]
        congr 2
      rw [whole]
      refine add_le_add_right ?_ _
      rcases fits out f List.mem_cons_self with none | some
      · rw [none]
        exact Multiset.zero_le _
      · rw [some]

/-- What is on the wires never exceeds what hosts have sent. -/
structure Balanced (cfg : FancyConfig) (net : Net.Cables (V × Nat)) (s : State cfg V) (sent : List Frame) : Prop where
  sane : Net.Sane cfg net s.net
  kinds : ∀ x, (s.net.port x).switchPort = (net.peer x).isSome
  books : ∀ places : Finset (V × Nat),
    ∑ x ∈ places, cargo cfg net s.net x ≤ (sent.map (Frame.sansLength cfg.ns3) : Multiset Frame)

omit [DecidableEq V] in
theorem balanced_start (node : V → Node cfg) : Balanced cfg net (start cfg net node) [] where
  sane := Net.sane_start cfg net
  kinds x := switchPort_initPort _
  books places := by
    have none : ∀ x, cargo cfg net (start cfg net node).net x = 0 := fun _ => rfl
    rw [Finset.sum_congr rfl fun x _ => none x, Finset.sum_const_zero]
    exact Multiset.zero_le _

theorem kinds_put {ports : Ports} (same : SameKinds (portsOf t v) ports) (sent : List (Nat × Frame)) (x : V × Nat) :
    ((put t v ports sent).port x).switchPort = (t.port x).switchPort := by
  simp only [put]
  split
  · rename_i here
    rw [same x.2, portsOf, ← here]
  · rfl

/-- A frame leaves the wire out of `x`. -/
theorem sum_taken {x : V × Nat} {frame : Frame} {rest : List Frame} (joined : (net.peer x).isSome)
    (wire : t.wire x = frame :: rest) {places : Finset (V × Nat)} (mem : x ∈ places) :
    ∑ y ∈ places, cargo cfg net t y = ∑ y ∈ places, cargo cfg net { t with wire := update t.wire x rest } y +
      ((content cfg.ns3 frame).toList : Multiset Frame) := by
  refine sum_eq_of_shrinks (z := x) (fun y there => ?_) ?_ mem
  · simp [cargo, there]
  · have weighs : freight cfg net x frame = content cfg.ns3 frame := if_pos joined
    simp only [cargo, wire, update_self, Multiset.coe_add, Multiset.coe_eq_coe]
    rw [List.filterMap_cons, weighs]
    cases content cfg.ns3 frame with
    | none => simp
    | some g => simpa using (List.perm_append_singleton g _).symm

/-- A switch that sends nothing but messages of its own keeps the books. -/
theorem Balanced.quiet {sent : List Frame} (h : Balanced cfg net s sent) {ports : Ports} {frames : List (Nat × Frame)}
    (kinds : SameKinds (portsOf s.net v) ports) (short : frames.length ≤ 1)
    (empty : ∀ out f, (out, f) ∈ frames → freight cfg net (v, out) f = none)
    (sane : Net.Sane cfg net (put s.net v ports frames)) :
    Balanced cfg net { s with net := put s.net v ports frames } sent where
  sane := sane
  kinds y := (kinds_put kinds frames y).trans (h.kinds y)
  books places := by
    have fits : ∀ out f, (out, f) ∈ frames → freight cfg net (v, out) f = none ∨ freight cfg net (v, out) f = none :=
      fun out f mem => Or.inl (empty out f mem)
    refine (sum_put_le s.net v ports short fits places).trans ?_
    rw [Option.toList_none, Multiset.coe_nil, add_zero]
    exact h.books places

/-- **A step keeps the books.** -/
theorem Balanced.step {sent : List Frame} (h : Balanced cfg net s sent) {l : Label cfg V} {os : List (Net.Seen (V × Nat))}
    (hstep : Fabric.step cfg net l s = some (s', os)) : Balanced cfg net s' (sent ++ entering cfg l) := by
  have sane := h.sane.run (answers_of_step h.sane hstep)
  cases l with
  | enter x pkt luck =>
    simp only [Fabric.step] at hstep
    split at hstep
    · obtain ⟨r, run, hstep⟩ := Option.map_eq_some_iff.1 hstep
      cases hstep
      refine ⟨sane, fun y => (kinds_put (sameKinds_receiveFromDevice run) _ y).trans (h.kinds y), fun places => ?_⟩
      have kinds : ∀ j, (portsOf s.net x.1 j).switchPort = (net.peer (x.1, j)).isSome := fun j => h.kinds (x.1, j)
      refine (sum_put_le s.net x.1 r.1 (receiveFromDevice_short run) (fun out f mem => freight_packet kinds .plain run mem)
        places).trans ?_
      rw [List.map_append, ← Multiset.coe_add]
      exact add_le_add_left (h.books places) _
    · cases hstep
  | deliver x luck =>
    simp only [Fabric.step] at hstep
    split at hstep
    · rename_i y frame rest cable wire
      obtain ⟨r, run, hstep⟩ := Option.map_eq_some_iff.1 hstep
      cases hstep
      have joined : (net.peer x).isSome := by rw [cable]; rfl
      have back : (net.peer y).isSome := by rw [net.peer_symm x y cable]; rfl
      have sound := h.sane.sound x joined frame (by rw [wire]; exact List.mem_cons_self)
      refine ⟨sane, fun z => (kinds_put (sameKinds_receiveFromDevice run) _ z).trans (h.kinds z), fun places => ?_⟩
      have kinds : ∀ j, (s.net.port (y.1, j)).switchPort = (net.peer (y.1, j)).isSome := fun j => h.kinds (y.1, j)
      have settled := h.sane.settled y back
      refine (sum_put_le _ y.1 r.1 (receiveFromDevice_short run) (fun out f mem => freight_sound kinds settled sound run mem)
        places).trans ?_
      -- the frame was on its wire, which is counted too
      have more : ∑ z ∈ places, cargo cfg net { s.net with wire := update s.net.wire x rest } z ≤
          ∑ z ∈ insert x places, cargo cfg net { s.net with wire := update s.net.wire x rest } z :=
        Finset.sum_le_sum_of_subset (Finset.subset_insert x places)
      refine (add_le_add_left more _).trans ?_
      rw [← sum_taken joined wire (Finset.mem_insert_self x places), entering, List.append_nil]
      exact h.books (insert x places)
    · cases hstep
  | fire x place luck =>
    obtain ⟨r, run, hstep⟩ := Option.map_eq_some_iff.1 hstep
    cases hstep
    have empty : ∀ out f, (out, f) ∈ r.2.1 → freight cfg net (x.1, out) f = none := by
      intro out f mem
      cases towards : (net.peer x).isSome with
      | true =>
        have settled := h.sane.settled x towards
        rw [fire_eq settled] at run
        obtain ⟨e, at_, run⟩ := Option.bind_eq_some_iff.1 run
        obtain ⟨o, ran, rfl⟩ := Option.map_eq_some_iff.1 run
        obtain ⟨g, answer, same⟩ := List.mem_map.1 mem
        cases same
        obtain ⟨-, messages⟩ := settled.fire_sound at_ ran
        rw [freight, if_pos towards]
        exact (messages f answer).content_eq_none
      | false =>
        rw [fire_host ((h.kinds x).trans towards) run] at mem
        cases mem
    rw [entering, List.append_nil]
    exact h.quiet (sameKinds_fire run) (fire_short run) empty sane
  | probe x luck =>
    obtain ⟨r, run, hstep⟩ := Option.map_eq_some_iff.1 hstep
    cases hstep
    have empty : ∀ out f, (out, f) ∈ r.2.1 → freight cfg net (x.1, out) f = none := by
      intro out f mem
      cases towards : (net.peer x).isSome with
      | true =>
        cases congested : (s.node x.1).congested luck (ownPacket cfg x.2 probeHeader) with
        | true =>
          rw [sendInternal_congested congested] at run
          cases run
          cases mem
        | false =>
          rw [sendInternal_control (h.sane.settled x towards).towardsSwitch congested] at run
          cases run
          cases List.mem_singleton.1 mem
          have probe : Reads cfg (controlFrame probeHeader) .probe := probe_reads
          rw [freight, if_pos towards]
          exact probe.content_eq_none rfl
      | false =>
        rw [sendInternal_host ((h.kinds x).trans towards) rfl run] at mem
        cases mem
    rw [entering, List.append_nil]
    exact h.quiet (sameKinds_egressAll run) (sendInternal_short run) empty sane
  | lose x k =>
    cases hstep
    refine ⟨sane, h.kinds, fun places => ?_⟩
    rw [entering, List.append_nil]
    refine le_trans ?_ (h.books places)
    refine Finset.sum_le_sum fun y _ => ?_
    by_cases here : y = x
    · subst here
      simp only [cargo, update_self]
      exact Multiset.coe_le.2 ((List.eraseIdx_sublist _ k).filterMap _).subperm
    · simp [cargo, here]
  | configure v n =>
    cases hstep
    refine ⟨sane, h.kinds, ?_⟩
    rw [entering, List.append_nil]
    exact h.books

/-- A UDP packet with two bytes of payload. -/
def udpPacket : HostPacket deepConfig :=
  ⟨{ protocol := IPV4
     headers := {
      ipv4 := some ⟨List.replicate 9 0 ++ UDP :: List.replicate 10 0, rfl⟩
      udp := some { sourcePort := 7, destinationPort := 9 } }
     payload := [1, 2] }, by constructor <;> decide⟩

end

end Ns3Fancy.Link.Fabric
