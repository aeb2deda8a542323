import Ns3Fancy.NetSeer.Network

/-!
# One direction of a link

The packets a port numbers, the numbers on their way to the other side and the NACKs on their way
back. Every step of the network is at most two moves of each direction, so what holds along every
path of moves holds of every direction in every run.
-/

namespace Ns3Fancy.NetSeer
open Switch Function
set_option autoImplicit false

/-! ## Moves -/

/-- Sender's side, receiver's side, numbers in flight and NACKs in flight. -/
structure Channel where
  next : UInt32 := 0
  ring : Nat → NetSeerPacketInfo := fun _ => {}
  expected : UInt32 := 0
  data : List UInt32 := []
  nacks : List (UInt32 × UInt32) := []

section
variable (cfg : NetSeerConfig)

/-- What a round of `CheckPacketLosses` does to the ring buffer. -/
def checkCell (r : (Nat → NetSeerPacketInfo) × List NetSeerPacketInfo) (seq : UInt32) :
    (Nat → NetSeerPacketInfo) × List NetSeerPacketInfo :=
  let i := seq.toNat % cfg.bufferSize
  if (r.1 i).seq = seq ∧ (r.1 i).reported = false then
    (update r.1 i { r.1 i with reported := true }, r.2 ++ [{ r.1 i with reported := true }])
  else r

def checkRing (seq1 seq2 : UInt32) (ring : Nat → NetSeerPacketInfo) :
    (Nat → NetSeerPacketInfo) × List NetSeerPacketInfo :=
  (seqsBetween seq1 seq2).foldl (checkCell cfg) (ring, [])

/-- Everything that may happen to a direction. -/
inductive Channel.Moves (c : Channel) : Channel → List Event → Prop where
  | idle : Channel.Moves c c []
  | send (flow : FiveTuple) (seq : UInt32) : Channel.Moves c
      { c with
        next := c.next + 1
        ring := update c.ring (c.next.toNat % cfg.bufferSize) (flowInfo flow c.next false)
        data := c.data ++ [seq] }
      [.sent flow seq c.next]
  | lose (before : List UInt32) (seq : UInt32) (after : List UInt32) : c.data = before ++ seq :: after →
      Channel.Moves c { c with data := before ++ after } [.lost seq]
  | loseNack (before : List (UInt32 × UInt32)) (range : UInt32 × UInt32) (after : List (UInt32 × UInt32)) :
      c.nacks = before ++ range :: after →
      Channel.Moves c { c with nacks := before ++ after } [.nackLost range.1 range.2]
  | arrive (rest : List UInt32) : c.data = c.expected :: rest →
      Channel.Moves c { c with expected := c.expected + 1, data := rest } [.arrived c.expected]
  | gap (seq : UInt32) (rest : List UInt32) : c.data = seq :: rest → seq ≠ c.expected →
      Channel.Moves c { c with expected := seq + 1, data := rest, nacks := c.nacks ++ [(c.expected, seq)] }
        [.arrived seq, .nacked c.expected seq]
  | silentGap (seq : UInt32) (rest : List UInt32) : c.data = seq :: rest → seq ≠ c.expected →
      Channel.Moves c { c with expected := seq + 1, data := rest }
        [.arrived seq, .nacked c.expected seq, .nackLost c.expected seq]
  | check (range : UInt32 × UInt32) (rest : List (UInt32 × UInt32)) : c.nacks = range :: rest →
      Channel.Moves c { c with ring := (checkRing cfg range.1 range.2 c.ring).1, nacks := rest }
        (.checked range.1 range.2 c.next :: (checkRing cfg range.1 range.2 c.ring).2.map .reported)

/-- The paths of moves from the start, with what they show. -/
inductive Channel.Path : Channel → List Event → Prop where
  | nil : Channel.Path {} []
  | snoc {c c' : Channel} {es es' : List Event} : Channel.Path c es → c.Moves cfg c' es' → Channel.Path c' (es ++ es')

end

/-! ## What the pipeline does to a direction -/

section
variable {cfg : NetSeerConfig}

@[simp] theorem reportPacket_ring (packet : NetSeerPacketInfo) (r : NetSeerPortInfo × NetSeerSimulationState) :
    (reportPacket cfg packet r).1.ringBuffer = r.1.ringBuffer ∧
      (reportPacket cfg packet r).1.senderNextExpectedSeq = r.1.senderNextExpectedSeq ∧
      (reportPacket cfg packet r).1.receiverNextExpectedSeq = r.1.receiverNextExpectedSeq := by
  simp only [reportPacket]
  split
  · split <;> exact ⟨rfl, rfl, rfl⟩
  · exact ⟨rfl, rfl, rfl⟩

/-- `CheckPacketLosses` marks cells of the ring buffer and leaves the numbers alone. -/
theorem foldl_checkSeq (seqs : List UInt32) (r : NetSeerPortInfo × NetSeerSimulationState × List NetSeerPacketInfo) :
    ((seqs.foldl (checkSeq cfg) r).1.ringBuffer, (seqs.foldl (checkSeq cfg) r).2.2) =
        seqs.foldl (checkCell cfg) (r.1.ringBuffer, r.2.2) ∧
      (seqs.foldl (checkSeq cfg) r).1.senderNextExpectedSeq = r.1.senderNextExpectedSeq ∧
      (seqs.foldl (checkSeq cfg) r).1.receiverNextExpectedSeq = r.1.receiverNextExpectedSeq := by
  induction seqs generalizing r with
  | nil => exact ⟨rfl, rfl, rfl⟩
  | cons seq seqs ih =>
    obtain ⟨ring, next, expected⟩ := ih (checkSeq cfg r seq)
    have one : ((checkSeq cfg r seq).1.ringBuffer, (checkSeq cfg r seq).2.2) =
          checkCell cfg (r.1.ringBuffer, r.2.2) seq ∧
        (checkSeq cfg r seq).1.senderNextExpectedSeq = r.1.senderNextExpectedSeq ∧
        (checkSeq cfg r seq).1.receiverNextExpectedSeq = r.1.receiverNextExpectedSeq := by
      simp only [checkSeq, checkCell]
      split <;> simp
    simp only [List.foldl_cons]
    rw [ring, next, expected, one.1, one.2.1, one.2.2]
    exact ⟨rfl, rfl, rfl⟩

theorem checkPacketLosses_eq (seq1 seq2 : UInt32) (port : NetSeerPortInfo) (sim : NetSeerSimulationState) :
    (checkPacketLosses cfg seq1 seq2 port sim).1.ringBuffer = (checkRing cfg seq1 seq2 port.ringBuffer).1 ∧
      (checkPacketLosses cfg seq1 seq2 port sim).2.2 = (checkRing cfg seq1 seq2 port.ringBuffer).2 ∧
      (checkPacketLosses cfg seq1 seq2 port sim).1.senderNextExpectedSeq = port.senderNextExpectedSeq ∧
      (checkPacketLosses cfg seq1 seq2 port sim).1.receiverNextExpectedSeq = port.receiverNextExpectedSeq := by
  obtain ⟨ring, next, expected⟩ := @foldl_checkSeq cfg (seqsBetween seq1 seq2) (port, sim, [])
  exact ⟨congrArg Prod.fst ring, congrArg Prod.snd ring, next, expected⟩

end

section
variable {P S : Type} [DecidableEq P] [DecidableEq S] {net : Network P S}

/-- The direction from port `p` to port `q`. -/
def State.channel (s : State P S) (p q : P) : Channel where
  next := (s.port p).senderNextExpectedSeq
  ring := (s.port p).ringBuffer
  expected := (s.port q).receiverNextExpectedSeq
  data := (s.wire p).filterMap Packet.number
  nacks := (s.wire q).filterMap Packet.range

@[simp] theorem events_nil (p : P) : events p [] = [] := rfl

@[simp] theorem events_append (p : P) (tr os : List (Seen P)) : events p (tr ++ os) = events p tr ++ events p os := by
  simp [events]

@[simp] theorem events_seenAt (p r : P) (es : List Event) : events p (seenAt r es) = if r = p then es else [] := by
  induction es with
  | nil => simp [events, seenAt]
  | cons e es ih =>
    have tail : events p (seenAt r (e :: es)) = (if r = p then [e] else []) ++ events p (seenAt r es) := by
      simp [events, seenAt]
    rw [tail, ih]
    split <;> rfl

theorem mem_events {p : P} {e : Event} {tr : List (Seen P)} : e ∈ events p tr ↔ ⟨p, e⟩ ∈ tr := by
  simp only [events, List.mem_flatMap]
  constructor
  · rintro ⟨o, mem, here⟩
    split at here
    · rename_i same
      obtain rfl := List.mem_singleton.1 here
      obtain rfl := same
      exact mem
    · cases here
  · intro mem
    exact ⟨_, mem, by simp⟩

/-- A packet is a NACK, has a number, or has no header. -/
theorem Packet.kinds (pkt : Packet) :
    (∃ seq1 seq2 next, pkt.netSeer = some ⟨.nack, seq1, seq2, next⟩ ∧ pkt.range = some (seq1, seq2) ∧ pkt.number = none) ∨
      (∃ seq seq2 next, pkt.netSeer = some ⟨.seq, seq, seq2, next⟩ ∧ pkt.number = some seq ∧ pkt.range = none) ∨
      (pkt.netSeer = none ∧ pkt.number = none ∧ pkt.range = none) := by
  obtain ⟨protocol, header, flow⟩ := pkt
  cases header with
  | none => exact .inr (.inr ⟨rfl, rfl, rfl⟩)
  | some header =>
    obtain ⟨action, seq1, seq2, next⟩ := header
    cases action with
    | nack => exact .inl ⟨_, _, _, rfl, rfl, rfl⟩
    | seq => exact .inr (.inl ⟨_, _, _, rfl, rfl, rfl⟩)

/-- A packet that is not a NACK leaves with a number. -/
theorem withHeader_number {pkt : Packet} (notNack : pkt.range = none) (port : NetSeerPortInfo) :
    (withHeader pkt port).2.action = .seq ∧ (withHeader pkt port).1.number = some (withHeader pkt port).2.seq1 ∧
      (withHeader pkt port).1.range = none ∧ (withHeader pkt port).1.flow = pkt.flow := by
  rcases pkt.kinds with ⟨seq1, seq2, next, header, range, -⟩ | ⟨seq, seq2, next, header, number, range⟩ | ⟨header, -, -⟩
  · rw [range] at notNack
    cases notNack
  · simp [withHeader, header, number, range]
  · simp [withHeader, header, Packet.number, Packet.range]

variable (net) in
/-- `DoEgress` on a port towards a switch, for a packet that is not a NACK. -/
theorem State.egress_number (s : State P S) {r : P} (link : (net.peer r).isSome) {pkt : Packet}
    (notNack : pkt.range = none) :
    s.egress net r pkt =
      ({ s with
          port := update s.port r
            { s.port r with
              senderNextExpectedSeq := (s.port r).senderNextExpectedSeq + 1
              ringBuffer := update (s.port r).ringBuffer
                ((s.port r).senderNextExpectedSeq.toNat % (net.config (net.owner r)).bufferSize)
                (flowInfo pkt.flow (s.port r).senderNextExpectedSeq false) }
          wire := update s.wire r (s.wire r ++ [(withHeader pkt (s.port r)).1]) },
        seenAt r [.sent pkt.flow (withHeader pkt (s.port r)).2.seq1 (s.port r).senderNextExpectedSeq]) := by
  obtain ⟨action, -, -, flow⟩ := withHeader_number notNack (s.port r)
  simp only [State.egress, doEgress, link, if_true, action, State.transmit, saveFlow, flow, egressEvents, update_eq_self]

/-- `DoEgress` on a port towards a host. -/
theorem State.egress_host (s : State P S) {r : P} (host : ¬(net.peer r).isSome) (pkt : Packet) :
    s.egress net r pkt = (s, []) := by
  simp [State.egress, doEgress, host, State.transmit]

/-- A packet that is not a NACK goes out. -/
theorem State.trafficManager_moves {s s' : State P S} {outPort : Option P} {pkt : Packet} {drop : Bool}
    {os : List (Seen P)} (run : s.trafficManager net outPort pkt drop = some (s', os)) (notNack : pkt.range = none)
    {p q : P} (link : net.peer p = some q) :
    (s.channel p q).Moves (net.config (net.owner p)) (s'.channel p q) (events p os) := by
  cases outPort with
  | none =>
    obtain ⟨rfl, rfl⟩ := Prod.mk.inj (Option.some.inj run)
    exact .idle
  | some r =>
    simp only [State.trafficManager] at run
    split at run
    · split at run
      · rw [notNack] at run
        obtain ⟨rfl, rfl⟩ := Prod.mk.inj (Option.some.inj run)
        exact .idle
      · cases run
    · by_cases toSwitch : (net.peer r).isSome
      · rw [State.egress_number net s toSwitch notNack] at run
        obtain ⟨rfl, rfl⟩ := Prod.mk.inj (Option.some.inj run)
        obtain ⟨-, number, range, -⟩ := withHeader_number notNack (s.port r)
        by_cases here : r = p
        · subst here
          have other : q ≠ r := fun same => net.peer_ne r (same ▸ link)
          have sent := @Channel.Moves.send (net.config (net.owner r)) (s.channel r q) pkt.flow
            (withHeader pkt (s.port r)).2.seq1
          simpa [State.channel, number, other] using sent
        · have same := @Channel.Moves.idle (net.config (net.owner p)) (s.channel p q)
          by_cases back : r = q
          · subst back
            simpa [State.channel, range, here, Ne.symm here] using same
          · simpa [State.channel, here, Ne.symm here, Ne.symm back] using same
      · rw [State.egress_host s toSwitch] at run
        obtain ⟨rfl, rfl⟩ := Prod.mk.inj (Option.some.inj run)
        exact .idle

variable (net) in
/-- `DoEgress` on a port towards a switch, for a NACK. -/
theorem State.egress_nack (s : State P S) {r : P} (link : (net.peer r).isSome) {pkt : Packet} {seq1 seq2 : UInt32}
    {next : UInt16} (header : pkt.netSeer = some ⟨.nack, seq1, seq2, next⟩) :
    let checked := checkPacketLosses (net.config (net.owner r)) seq1 seq2 (s.port r) (s.sim (net.owner r))
    s.egress net r pkt =
      ({ s with port := update s.port r checked.1, sim := update s.sim (net.owner r) checked.2.1 },
        seenAt r (.checked seq1 seq2 (s.port r).senderNextExpectedSeq :: checked.2.2.map .reported)) := by
  have range : pkt.range = some (seq1, seq2) := by rw [Packet.range, header]
  simp only [State.egress, doEgress, link, if_true, withHeader, header, egressEvents, range]

omit [DecidableEq S] in
/-- The directions a packet on a wire does not belong to do not see it removed. -/
theorem State.channel_removed {s : State P S} {x : P} (before : List Packet) {pkt : Packet} {after : List Packet}
    (whole : s.wire x = before ++ pkt :: after) {p q : P} (notData : p = x → pkt.number = none)
    (notNack : q = x → pkt.range = none) :
    State.channel { s with wire := update s.wire x (before ++ after) } p q = s.channel p q := by
  have data : (update s.wire x (before ++ after) p).filterMap Packet.number = (s.wire p).filterMap Packet.number := by
    by_cases here : p = x
    · rw [here, update_self, whole]
      simp [notData here]
    · rw [update_of_ne here]
  have nacks : (update s.wire x (before ++ after) q).filterMap Packet.range = (s.wire q).filterMap Packet.range := by
    by_cases here : q = x
    · rw [here, update_self, whole]
      simp [notNack here]
    · rw [update_of_ne here]
  simp only [State.channel, data, nacks]

omit [DecidableEq S] in
/-- The directions a port does not send on see of it only the number it expects. -/
theorem State.channel_port {s : State P S} {y p q : P} (other : y ≠ p) {info : NetSeerPortInfo}
    (expected : q = y → info.receiverNextExpectedSeq = (s.port y).receiverNextExpectedSeq) (sim : S → NetSeerSimulationState)
    (wire : P → List Packet) :
    State.channel { s with port := update s.port y info, sim := sim, wire := wire } p q =
      State.channel { s with wire := wire } p q := by
  have receiver : (update s.port y info q).receiverNextExpectedSeq = (s.port q).receiverNextExpectedSeq := by
    by_cases here : q = y
    · rw [here, update_self, expected here]
    · rw [update_of_ne here]
  simp only [State.channel, receiver, update_of_ne (Ne.symm other)]

omit [DecidableEq S] in
/-- `DoIngress` has nothing to say. -/
theorem State.answer_silent (s : State P S) {y : P} {outPort : Option P} {nackDrop : Bool} :
    s.answer net y { port := s.port y, outPort := outPort } nackDrop = some (s, []) := by
  simp only [State.answer, update_eq_self]

/-- A NACK arrives. -/
theorem nack_moves {s s' : State P S} {x y : P} (link : net.peer x = some y) {pkt : Packet} {rest : List Packet}
    (head : s.wire x = pkt :: rest) {seq1 seq2 : UInt32} {next : UInt16}
    (header : pkt.netSeer = some ⟨.nack, seq1, seq2, next⟩) {outPort : Option P} {tmDrop nackDrop : Bool}
    {os : List (Seen P)}
    (run : State.ingress net { s with wire := update s.wire x rest } y outPort pkt tmDrop nackDrop = some (s', os))
    {p q : P} (here : net.peer p = some q) :
    (s.channel p q).Moves (net.config (net.owner p)) (s'.channel p q) (events p os) := by
  have back := net.peer_symm x y link
  have range : pkt.range = some (seq1, seq2) := by rw [Packet.range, header]
  have number : pkt.number = none := by rw [Packet.number, header]
  have linked : (net.peer y).isSome := by rw [back]; rfl
  have other : y ≠ x := fun same => net.peer_ne x (same ▸ link)
  simp only [State.ingress, doIngress, header] at run
  rw [State.answer_silent { s with wire := update s.wire x rest }] at run
  simp only [Option.bind_some, List.nil_append, State.trafficManager, range, State.egress_nack net _ linked header] at run
  by_cases mine : y = p
  · subst mine
    obtain rfl : x = q := Option.some.inj (back.symm.trans here)
    have nacks : (s.channel y x).nacks = (seq1, seq2) :: rest.filterMap Packet.range := by
      simp [State.channel, head, range]
    split at run
    · split at run
      · obtain ⟨rfl, rfl⟩ := Prod.mk.inj (Option.some.inj run)
        have lost := @Channel.Moves.loseNack (net.config (net.owner y)) (s.channel y x) [] _ _ nacks
        simpa [State.channel, other] using lost
      · cases run
    · obtain ⟨rfl, rfl⟩ := Prod.mk.inj (Option.some.inj run)
      have checked := @Channel.Moves.check (net.config (net.owner y)) (s.channel y x) _ _ nacks
      obtain ⟨ring, reports, next, -⟩ := @checkPacketLosses_eq (net.config (net.owner y)) seq1 seq2 (s.port y)
        (s.sim (net.owner y))
      simpa [State.channel, other, Ne.symm other, ring, reports, next] using checked
  · have elsewhere : q ≠ x := by
      rintro rfl
      exact mine (Option.some.inj (link.symm.trans (net.peer_symm p q here)))
    have taken : State.channel { s with wire := update s.wire x rest } p q = s.channel p q :=
      State.channel_removed [] head (fun _ => number) (fun same => absurd same elsewhere)
    have same := @Channel.Moves.idle (net.config (net.owner p)) (s.channel p q)
    split at run
    · split at run
      · obtain ⟨rfl, rfl⟩ := Prod.mk.inj (Option.some.inj run)
        rw [taken, events_seenAt, if_neg mine]
        exact same
      · cases run
    · obtain ⟨rfl, rfl⟩ := Prod.mk.inj (Option.some.inj run)
      rw [events_seenAt, if_neg mine]
      obtain ⟨-, -, -, expected⟩ := @checkPacketLosses_eq (net.config (net.owner y)) seq1 seq2 (s.port y)
        (s.sim (net.owner y))
      dsimp only
      rw [State.channel_port mine fun _ => expected, taken]
      exact same

omit [DecidableEq S] in
/-- What a port expects, and the NACKs it sends, are of no interest to the directions it does not receive from. -/
theorem State.channel_expect {s t : State P S} {y p q : P} (elsewhere : q ≠ y) {v : UInt32}
    (port : t.port = update s.port y { s.port y with receiverNextExpectedSeq := v })
    (data : (t.wire y).filterMap Packet.number = (s.wire y).filterMap Packet.number)
    (others : ∀ z, z ≠ y → t.wire z = s.wire z) : t.channel p q = s.channel p q := by
  by_cases here : p = y
  · subst here
    simp [State.channel, port, elsewhere, data, others q elsewhere]
  · simp [State.channel, port, elsewhere, here, others p here, others q elsewhere]

omit [DecidableEq S] in
/-- A packet with a number arrives, and is answered by a NACK if it is not the expected one. -/
theorem arrival_moves {s t : State P S} {x y : P} (link : net.peer x = some y) {pkt : Packet} {rest : List Packet}
    (head : s.wire x = pkt :: rest) {seq seq2 : UInt32} {next : UInt16}
    (header : pkt.netSeer = some ⟨.seq, seq, seq2, next⟩) {outPort : Option P} {nackDrop : Bool} {os : List (Seen P)}
    (run : State.answer net { s with wire := update s.wire x rest } y
      (doIngress y outPort pkt (s.port y)) nackDrop = some (t, os))
    {p q : P} (here : net.peer p = some q) :
    (s.channel p q).Moves (net.config (net.owner p)) (t.channel p q) (events p (seenAt x [.arrived seq] ++ os)) := by
  have back := net.peer_symm x y link
  have range : pkt.range = none := by rw [Packet.range, header]
  have number : pkt.number = some seq := by rw [Packet.number, header]
  have other : y ≠ x := fun same => net.peer_ne x (same ▸ link)
  have nack : ∀ a b, (nackPacket a b).number = none ∧ (nackPacket a b).range = some (a, b) := fun _ _ => ⟨rfl, rfl⟩
  by_cases mine : x = p
  · subst mine
    obtain rfl : y = q := Option.some.inj (link.symm.trans here)
    have data : (s.channel x y).data = seq :: rest.filterMap Packet.number := by
      simp [State.channel, head, number]
    by_cases matches_ : seq = (s.port y).receiverNextExpectedSeq
    · subst matches_
      simp only [doIngress, header, State.answer, ne_eq, not_true_eq_false, if_false] at run
      obtain ⟨rfl, rfl⟩ := Prod.mk.inj (Option.some.inj run)
      have arrived := @Channel.Moves.arrive (net.config (net.owner x)) (s.channel x y) _ data
      simpa [State.channel, other, Ne.symm other] using arrived
    · simp only [doIngress, header, State.answer, ne_eq, matches_, not_false_eq_true, if_true, State.sendNACK, back] at run
      split at run
      · split at run
        · obtain ⟨rfl, rfl⟩ := Prod.mk.inj (Option.some.inj run)
          have gap := @Channel.Moves.silentGap (net.config (net.owner x)) (s.channel x y) _ _ data matches_
          simpa [State.channel, other, Ne.symm other] using gap
        · cases run
      · obtain ⟨rfl, rfl⟩ := Prod.mk.inj (Option.some.inj run)
        have gap := @Channel.Moves.gap (net.config (net.owner x)) (s.channel x y) _ _ data matches_
        simpa [State.channel, other, Ne.symm other, State.transmit, back, nack] using gap
  · have elsewhere : q ≠ y := by
      rintro rfl
      exact mine (Option.some.inj (back.symm.trans (net.peer_symm p q here)))
    have taken : State.channel { s with wire := update s.wire x rest } p q = s.channel p q :=
      State.channel_removed [] head (fun same => absurd same.symm mine) (fun _ => range)
    have same := @Channel.Moves.idle (net.config (net.owner p)) (s.channel p q)
    have unseen : t.channel p q = s.channel p q ∧ events p os = [] := by
      rw [← taken]
      by_cases matches_ : seq = (s.port y).receiverNextExpectedSeq
      · simp only [doIngress, header, State.answer, ne_eq, matches_, not_true_eq_false, if_false] at run
        obtain ⟨rfl, rfl⟩ := Prod.mk.inj (Option.some.inj run)
        exact ⟨State.channel_expect elsewhere rfl rfl fun _ _ => rfl, rfl⟩
      · simp only [doIngress, header, State.answer, ne_eq, matches_, not_false_eq_true, if_true, State.sendNACK, back]
          at run
        split at run
        · split at run
          · obtain ⟨rfl, rfl⟩ := Prod.mk.inj (Option.some.inj run)
            refine ⟨State.channel_expect elsewhere rfl rfl fun _ _ => rfl, ?_⟩
            rw [events_seenAt, if_neg mine]
          · cases run
        · obtain ⟨rfl, rfl⟩ := Prod.mk.inj (Option.some.inj run)
          simp only [State.transmit, back, Option.isSome_some, if_true, events_seenAt, if_neg mine, and_true]
          refine State.channel_expect elsewhere rfl ?_ fun z away => ?_
          · simp [nack]
          · exact update_of_ne away _ _
    rw [events_append, events_seenAt, if_neg mine, unseen.1, unseen.2]
    exact same

omit [DecidableEq S] in
/-- A packet is lost. -/
theorem lose_moves {s : State P S} {x : P} {i : Nat} {pkt : Packet} (at_ : (s.wire x)[i]? = some pkt) {p q : P}
    (here : net.peer p = some q) :
    (s.channel p q).Moves (net.config (net.owner p))
      (State.channel { s with wire := update s.wire x ((s.wire x).eraseIdx i) } p q) (events p (lossEvents net x pkt)) := by
  obtain ⟨inside, rfl⟩ := List.getElem?_eq_some_iff.1 at_
  have whole : s.wire x = (s.wire x).take i ++ (s.wire x)[i] :: (s.wire x).drop (i + 1) := by
    rw [List.getElem_cons_drop, List.take_append_drop]
  have other : p ≠ q := fun eq => net.peer_ne p (eq ▸ here)
  rw [List.eraseIdx_eq_take_drop_succ]
  generalize (s.wire x)[i] = pkt at *
  generalize (s.wire x).take i = before at *
  generalize (s.wire x).drop (i + 1) = after at *
  have unseen : (p = x → pkt.number = none) → (q = x → pkt.range = none) → events p (lossEvents net x pkt) = [] →
      (s.channel p q).Moves (net.config (net.owner p))
        (State.channel { s with wire := update s.wire x (before ++ after) } p q) (events p (lossEvents net x pkt)) := by
    intro notData notNack nothing
    rw [State.channel_removed before whole notData notNack, nothing]
    exact .idle
  rcases pkt.kinds with ⟨seq1, seq2, next, -, range, number⟩ | ⟨seq, seq2, next, -, number, range⟩ | ⟨-, number, range⟩
  · by_cases mine : q = x
    · subst mine
      have back := net.peer_symm p q here
      have lost := @Channel.Moves.loseNack (net.config (net.owner p)) (s.channel p q) (before.filterMap Packet.range)
        (seq1, seq2) (after.filterMap Packet.range) (by simp [State.channel, whole, range])
      simpa [lossEvents, number, range, back, State.channel, other] using lost
    · refine unseen (fun _ => number) (fun same => absurd same mine) ?_
      cases peer : net.peer x with
      | none => simp [lossEvents, number, range, peer]
      | some y =>
        have elsewhere : y ≠ p := by
          rintro rfl
          exact mine (Option.some.inj (here.symm.trans (net.peer_symm x y peer)))
        simp [lossEvents, number, range, peer, elsewhere]
  · by_cases mine : p = x
    · subst mine
      have lost := @Channel.Moves.lose (net.config (net.owner p)) (s.channel p q) (before.filterMap Packet.number) seq
        (after.filterMap Packet.number) (by simp [State.channel, whole, number])
      simpa [lossEvents, number, State.channel, Ne.symm other] using lost
    · refine unseen (fun same => absurd same mine) (fun _ => range) ?_
      simp [lossEvents, number, Ne.symm mine]
  · refine unseen (fun _ => number) (fun _ => range) ?_
    simp [lossEvents, number, range]

/-- **Every step is a path of at most two moves in each direction.** -/
theorem moves_of_step {l : Label P} {s s' : State P S} {os : List (Seen P)} (run : step net l s = some (s', os)) {p q : P}
    (here : net.peer p = some q) :
    ∃ c es es', (s.channel p q).Moves (net.config (net.owner p)) c es ∧
      c.Moves (net.config (net.owner p)) (s'.channel p q) es' ∧ events p os = es ++ es' := by
  cases l with
  | enter inPort outPort pkt tmDrop =>
    simp only [step] at run
    split at run
    · rename_i allowed
      have notNack : pkt.range = none := by rw [Packet.range, allowed.2.1]
      simp only [State.ingress, doIngress, allowed.2.1, State.answer_silent, Option.bind_some, List.nil_append] at run
      obtain ⟨⟨t, ns⟩, managed, eq⟩ := Option.map_eq_some_iff.1 run
      obtain ⟨rfl, rfl⟩ := Prod.mk.inj eq
      exact ⟨_, _, _, .idle, State.trafficManager_moves managed notNack here, rfl⟩
    · cases run
  | deliver x outPort tmDrop nackDrop =>
    simp only [step] at run
    split at run
    · rename_i y pkt rest link head
      split at run
      · obtain ⟨⟨u, ns⟩, entered, eq⟩ := Option.map_eq_some_iff.1 run
        obtain ⟨rfl, rfl⟩ := Prod.mk.inj eq
        rcases pkt.kinds with ⟨seq1, seq2, next, header, range, number⟩ | ⟨seq, seq2, next, header, number, range⟩ |
          ⟨header, number, range⟩
        · rw [number]
          exact ⟨_, _, _, .idle, nack_moves link head header entered here, rfl⟩
        · obtain ⟨⟨t, es⟩, answered, entered⟩ := Option.bind_eq_some_iff.1 entered
          obtain ⟨⟨v, es'⟩, managed, eq⟩ := Option.map_eq_some_iff.1 entered
          obtain ⟨rfl, rfl⟩ := Prod.mk.inj eq
          have first := arrival_moves link head header answered here
          have second := State.trafficManager_moves managed range here
          refine ⟨_, _, _, first, second, ?_⟩
          simp [number]
        · simp only [State.ingress, doIngress, header] at entered
          rw [State.answer_silent { s with wire := update s.wire x rest }] at entered
          obtain ⟨⟨v, es⟩, managed, eq⟩ := Option.map_eq_some_iff.1 entered
          obtain ⟨rfl, rfl⟩ := Prod.mk.inj eq
          have second := State.trafficManager_moves managed range here
          have taken : State.channel { s with wire := update s.wire x rest } p q = s.channel p q :=
            State.channel_removed [] head (fun _ => number) (fun _ => range)
          change Channel.Moves _ (State.channel { s with wire := update s.wire x rest } p q) _ _ at second
          rw [taken] at second
          rw [number]
          exact ⟨_, _, _, .idle, second, rfl⟩
      · cases run
    · cases run
  | lose x i =>
    obtain ⟨pkt, at_, eq⟩ := Option.map_eq_some_iff.1 run
    obtain ⟨rfl, rfl⟩ := Prod.mk.inj eq
    exact ⟨_, _, _, .idle, lose_moves at_ here, rfl⟩

/-- **Every direction of every run follows a path.** -/
theorem path_of_run {ok : Label P → State P S → Prop} {s : State P S} {tr : List (Seen P)}
    (run : Lts.Run (step net) ok State.start s tr) {p q : P} (here : net.peer p = some q) :
    Channel.Path (net.config (net.owner p)) (s.channel p q) (events p tr) := by
  refine run.invariant (I := fun s tr => Channel.Path (net.config (net.owner p)) (s.channel p q) (events p tr)) .nil ?_
  intro t u tr os l path _ moved
  obtain ⟨c, es, es', first, second, shown⟩ := moves_of_step moved here
  rw [events_append, shown, ← List.append_assoc]
  exact (path.snoc first).snoc second

end

end Ns3Fancy.NetSeer
