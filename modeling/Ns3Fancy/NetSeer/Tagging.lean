import Ns3Fancy.NetSeer.Channel
import Ns3Fancy.NetSeer.EventCache

/-!
# Numbers hop by hop

A port saves the flow of a packet under its own next number, but numbers only packets that come
without a header: one that comes from another switch keeps the number of the link before. While these
happen to agree, a link that loses nothing delivers the numbers its receiver expects.
-/

namespace Ns3Fancy.NetSeer
open Switch Function
set_option autoImplicit false

variable {P S : Type} [DecidableEq P] [DecidableEq S] {net : Network P S}

/-! ## Packets that leave -/

/-- Every packet left with the number its flow was saved under. -/
def Tagged (es : List Event) : Prop := ∀ flow seq saved, .sent flow seq saved ∈ es → seq = saved

/-- A packet is sent by a port and saved there. -/
theorem State.trafficManager_sent {s s' : State P S} {outPort : Option P} {pkt : Packet} {drop : Bool}
    {os : List (Seen P)} (run : s.trafficManager net outPort pkt drop = some (s', os)) {r : P} {flow : FiveTuple}
    {seq saved : UInt32} (shown : .sent flow seq saved ∈ events r os) :
    outPort = some r ∧ drop = false ∧ (net.peer r).isSome ∧ pkt.range = none ∧ flow = pkt.flow ∧
      seq = (withHeader pkt (s.port r)).2.seq1 ∧ saved = (s.port r).senderNextExpectedSeq ∧
      (s'.port r).ringBuffer (saved.toNat % (net.config (net.owner r)).bufferSize) = flowInfo flow saved false := by
  cases outPort with
  | none =>
    obtain ⟨rfl, rfl⟩ := Prod.mk.inj (Option.some.inj run)
    cases shown
  | some x =>
    simp only [State.trafficManager] at run
    cases drop with
    | true =>
      simp only [if_true] at run
      split at run
      · obtain ⟨rfl, rfl⟩ := Prod.mk.inj (Option.some.inj run)
        cases range : pkt.range with
        | none => simp [range] at shown
        | some both =>
          simp only [range, events_seenAt] at shown
          split at shown <;> simp at shown
      · cases run
    | false =>
      simp only [Bool.false_eq_true, if_false] at run
      by_cases toSwitch : (net.peer x).isSome
      · by_cases notNack : pkt.range = none
        · rw [State.egress_number net s toSwitch notNack] at run
          obtain ⟨rfl, rfl⟩ := Prod.mk.inj (Option.some.inj run)
          rw [events_seenAt] at shown
          split at shown
          · rename_i here
            subst here
            obtain ⟨rfl, rfl, rfl⟩ : flow = pkt.flow ∧ seq = (withHeader pkt (s.port x)).2.seq1 ∧
                saved = (s.port x).senderNextExpectedSeq := by simpa using shown
            simp [toSwitch, notNack]
          · cases shown
        · rcases pkt.kinds with ⟨seq1, seq2, next, header, -, -⟩ | ⟨_, _, _, -, -, none⟩ | ⟨-, -, none⟩
          · rw [State.egress_nack net s toSwitch header] at run
            obtain ⟨rfl, rfl⟩ := Prod.mk.inj (Option.some.inj run)
            rw [events_seenAt] at shown
            split at shown <;> simp at shown
          · exact absurd none notNack
          · exact absurd none notNack
      · rw [State.egress_host s toSwitch] at run
        obtain ⟨rfl, rfl⟩ := Prod.mk.inj (Option.some.inj run)
        cases shown

omit [DecidableEq P] in
theorem doIngress_sender (y : P) (outPort : Option P) (pkt : Packet) (port : NetSeerPortInfo) :
    (doIngress y outPort pkt port).port.senderNextExpectedSeq = port.senderNextExpectedSeq := by
  simp only [doIngress]
  split
  · rfl
  · split
    · rfl
    · split <;> rfl

omit [DecidableEq P] in
theorem doIngress_outPort (y : P) (outPort : Option P) {pkt : Packet} (notNack : pkt.range = none)
    (port : NetSeerPortInfo) : (doIngress y outPort pkt port).outPort = outPort := by
  rcases pkt.kinds with ⟨_, _, _, -, range, -⟩ | ⟨_, _, _, header, -, -⟩ | ⟨header, -, -⟩
  · rw [range] at notNack
    cases notNack
  · simp only [doIngress, header]
    split <;> rfl
  · simp only [doIngress, header]

omit [DecidableEq S] in
/-- The answer to a packet sends no numbered packet and leaves the sender's side of every port alone. -/
theorem State.answer_frame {s t : State P S} {y : P} {outPort : Option P} {pkt : Packet} {nackDrop : Bool}
    {os : List (Seen P)} (run : s.answer net y (doIngress y outPort pkt (s.port y)) nackDrop = some (t, os)) (r : P) :
    (t.port r).senderNextExpectedSeq = (s.port r).senderNextExpectedSeq ∧
      ∀ flow seq saved, .sent flow seq saved ∉ events r os := by
  have port : (update s.port y (doIngress y outPort pkt (s.port y)).port r).senderNextExpectedSeq =
      (s.port r).senderNextExpectedSeq := by
    by_cases here : r = y
    · rw [here, update_self, doIngress_sender]
    · rw [update_of_ne here]
  simp only [State.answer] at run
  split at run
  · rename_i range _
    simp only [State.sendNACK] at run
    have silent : ∀ (q : P) (es : List Event), (∀ e ∈ es, ∃ a b, e = .nacked a b ∨ e = .nackLost a b) →
        ∀ flow seq saved, .sent flow seq saved ∉ events r (seenAt q es) := by
      intro q es nacks flow seq saved shown
      rw [events_seenAt] at shown
      split at shown
      · obtain ⟨a, b, eq | eq⟩ := nacks _ shown <;> cases eq
      · cases shown
    split at run
    · split at run
      · obtain ⟨rfl, rfl⟩ := Prod.mk.inj (Option.some.inj run)
        refine ⟨port, ?_⟩
        split
        · exact silent _ _ (by simp)
        · simp
      · cases run
    · obtain ⟨rfl, rfl⟩ := Prod.mk.inj (Option.some.inj run)
      refine ⟨?_, ?_⟩
      · rw [State.transmit]
        split <;> exact port
      · split
        · exact silent _ _ (by simp)
        · simp
  · obtain ⟨rfl, rfl⟩ := Prod.mk.inj (Option.some.inj run)
    exact ⟨port, by simp⟩

/-- What the pipeline of a switch sends. -/
theorem State.ingress_sent {s s' : State P S} {y : P} {outPort : Option P} {pkt : Packet} {tmDrop nackDrop : Bool}
    {os : List (Seen P)} (run : s.ingress net y outPort pkt tmDrop nackDrop = some (s', os)) {r : P} {flow : FiveTuple}
    {seq saved : UInt32} (shown : .sent flow seq saved ∈ events r os) :
    outPort = some r ∧ tmDrop = false ∧ (net.peer r).isSome ∧ saved = (s.port r).senderNextExpectedSeq ∧
      (s'.port r).ringBuffer (saved.toNat % (net.config (net.owner r)).bufferSize) = flowInfo flow saved false ∧
      seq = pkt.number.getD saved := by
  obtain ⟨⟨t, es⟩, answered, rest⟩ := Option.bind_eq_some_iff.1 run
  obtain ⟨⟨u, es'⟩, managed, eq⟩ := Option.map_eq_some_iff.1 rest
  obtain ⟨rfl, rfl⟩ := Prod.mk.inj eq
  obtain ⟨sender, silent⟩ := State.answer_frame answered r
  rw [events_append] at shown
  rcases List.mem_append.1 shown with early | late
  · exact absurd early (silent _ _ _)
  · obtain ⟨out, kept, link, notNack, rfl, number, next, stored⟩ := State.trafficManager_sent managed late
    rw [doIngress_outPort _ _ notNack] at out
    rw [sender] at next
    refine ⟨out, kept, link, next, stored, ?_⟩
    rcases pkt.kinds with ⟨_, _, _, -, range, -⟩ | ⟨_, _, _, header, some_, -⟩ | ⟨header, none, -⟩
    · rw [range] at notNack
      cases notNack
    · rw [number, some_]
      simp [withHeader, header]
    · rw [number, none, next]
      simp only [withHeader, header, sender]
      rfl

/-- A forwarded packet has the number the port is about to use. -/
def Fits (net : Network P S) : Label P → State P S → Prop
  | .deliver x (some r) false _, s => (net.peer r).isSome → ∀ pkt ∈ (s.wire x).head?, ∀ seq, pkt.number = some seq →
      seq = (s.port r).senderNextExpectedSeq
  | _, _ => True

/-- **What leaves a port in a step**: it is saved under the port's next number, and carries that number or the one it came
with. -/
theorem sent_of_step {l : Label P} {s s' : State P S} {os : List (Seen P)} (run : step net l s = some (s', os)) {r : P}
    {flow : FiveTuple} {seq saved : UInt32} (shown : .sent flow seq saved ∈ events r os) :
    saved = (s.port r).senderNextExpectedSeq ∧
      (s'.port r).ringBuffer (saved.toNat % (net.config (net.owner r)).bufferSize) = flowInfo flow saved false ∧
      (seq = saved ∨ (net.peer r).isSome ∧ ∃ x nackDrop, l = .deliver x (some r) false nackDrop ∧
        ∃ pkt ∈ (s.wire x).head?, pkt.number = some seq) := by
  cases l with
  | enter inPort outPort pkt tmDrop =>
    simp only [step] at run
    split at run
    · rename_i allowed
      obtain ⟨-, -, -, next, stored, number⟩ := State.ingress_sent run shown
      refine ⟨next, stored, .inl ?_⟩
      rw [number, Packet.number, allowed.2.1]
      rfl
    · cases run
  | deliver x outPort tmDrop nackDrop =>
    simp only [step] at run
    split at run
    · rename_i y pkt rest link head
      split at run
      · obtain ⟨⟨u, es⟩, entered, eq⟩ := Option.map_eq_some_iff.1 run
        obtain ⟨rfl, rfl⟩ := Prod.mk.inj eq
        have late : .sent flow seq saved ∈ events r es := by
          rw [events_append] at shown
          rcases List.mem_append.1 shown with early | late
          · cases number : pkt.number with
            | none => simp [number] at early
            | some n =>
              simp only [number, events_seenAt] at early
              split at early <;> simp at early
          · exact late
        obtain ⟨rfl, rfl, link', next, stored, number⟩ := State.ingress_sent entered late
        refine ⟨next, stored, ?_⟩
        cases carried : pkt.number with
        | none =>
          rw [carried] at number
          exact .inl number
        | some n =>
          rw [carried] at number
          exact .inr ⟨link', x, nackDrop, rfl, pkt, by rw [head]; rfl, by rw [carried, number]; rfl⟩
      · cases run
    · cases run
  | lose x i =>
    obtain ⟨pkt, at_, eq⟩ := Option.map_eq_some_iff.1 run
    obtain ⟨rfl, rfl⟩ := Prod.mk.inj eq
    simp only [lossEvents] at shown
    split at shown
    · rw [events_seenAt] at shown
      split at shown <;> simp at shown
    · rw [events_seenAt] at shown
      split at shown <;> simp at shown
    · cases shown

/-- A numbered packet that the traffic manager lets pass leaves with the number it came with. -/
theorem State.trafficManager_forward {s s' : State P S} {r : P} {pkt : Packet} {os : List (Seen P)}
    (run : s.trafficManager net (some r) pkt false = some (s', os)) (link : (net.peer r).isSome) {seq : UInt32}
    (number : pkt.number = some seq) :
    .sent pkt.flow seq (s.port r).senderNextExpectedSeq ∈ events r os := by
  rcases pkt.kinds with ⟨_, _, _, -, -, none⟩ | ⟨n, _, _, header, some_, notNack⟩ | ⟨-, none, -⟩
  · rw [number] at none
    cases none
  · obtain rfl : seq = n := Option.some.inj (number.symm.trans some_)
    simp only [State.trafficManager, Bool.false_eq_true, if_false, State.egress_number net s link notNack] at run
    obtain ⟨rfl, rfl⟩ := Prod.mk.inj (Option.some.inj run)
    simp [withHeader, header]
  · rw [number] at none
    cases none

/-- A step that shows only tagged packets fits. -/
theorem fits_of_step {l : Label P} {s s' : State P S} {os : List (Seen P)} (run : step net l s = some (s', os))
    (tagged : ∀ r, Tagged (events r os)) : Fits net l s := by
  cases l with
  | enter => trivial
  | lose => trivial
  | deliver x outPort tmDrop nackDrop =>
    cases outPort with
    | none => trivial
    | some r =>
      cases tmDrop with
      | true => trivial
      | false =>
        intro link pkt first seq number
        simp only [step] at run
        split at run
        · rename_i y pkt' rest peer head
          obtain rfl : pkt' = pkt := by simpa [head] using first
          split at run
          · obtain ⟨⟨u, es⟩, entered, eq⟩ := Option.map_eq_some_iff.1 run
            obtain ⟨rfl, rfl⟩ := Prod.mk.inj eq
            obtain ⟨⟨t, es₁⟩, answered, rest⟩ := Option.bind_eq_some_iff.1 entered
            obtain ⟨⟨v, es₂⟩, managed, eq⟩ := Option.map_eq_some_iff.1 rest
            obtain ⟨rfl, rfl⟩ := Prod.mk.inj eq
            have notNack : pkt'.range = none := by
              rcases pkt'.kinds with ⟨_, _, _, -, -, none⟩ | ⟨_, _, _, -, -, notNack⟩ | ⟨-, none, -⟩
              · rw [number] at none
                cases none
              · exact notNack
              · rw [number] at none
                cases none
            rw [doIngress_outPort _ _ notNack] at managed
            have shown := State.trafficManager_forward managed link number
            have same := tagged r pkt'.flow seq (t.port r).senderNextExpectedSeq (by simp [shown])
            exact same.trans (State.answer_frame answered r).1
          · cases run
        · cases run

/-! ## A link that loses nothing -/

/-- The numbers from one on, up to another. -/
def Consecutive : UInt32 → List UInt32 → UInt32 → Prop
  | first, [], next => first = next
  | first, seq :: seqs, next => seq = first ∧ Consecutive (first + 1) seqs next

theorem Consecutive.snoc {first next : UInt32} {seqs : List UInt32} (h : Consecutive first seqs next) :
    Consecutive first (seqs ++ [next]) (next + 1) := by
  induction seqs generalizing first with
  | nil =>
    obtain rfl : first = next := h
    exact ⟨rfl, rfl⟩
  | cons seq seqs ih => exact ⟨h.1, ih h.2⟩

/-- **A link that loses nothing delivers the numbers in order**, if the packets are tagged with them. -/
theorem Channel.Path.consecutive {cfg : NetSeerConfig} {c : Channel} {es : List Event} (path : c.Path cfg es)
    (tagged : Tagged es) (kept : ∀ seq, .lost seq ∉ es) :
    Consecutive c.expected c.data c.next ∧ ∀ seq1 seq2, .nacked seq1 seq2 ∉ es := by
  induction path with
  | nil => exact ⟨rfl, by simp⟩
  | @snoc c c' es es' _ moves ih =>
    obtain ⟨inOrder, none⟩ := ih (fun flow seq saved mem => tagged flow seq saved (List.mem_append_left _ mem))
      (fun seq mem => kept seq (List.mem_append_left _ mem))
    have quiet : (∀ seq1 seq2, .nacked seq1 seq2 ∉ es') → ∀ seq1 seq2, .nacked seq1 seq2 ∉ es ++ es' := by
      intro silent seq1 seq2 mem
      exact (List.mem_append.1 mem).elim (none _ _) (silent _ _)
    cases moves with
    | idle => exact ⟨inOrder, quiet (by simp)⟩
    | send flow seq =>
      obtain rfl : seq = c.next := tagged flow seq c.next (by simp)
      exact ⟨inOrder.snoc, quiet (by simp)⟩
    | lose before seq after whole => exact absurd (by simp) (kept seq)
    | loseNack before range after whole => exact ⟨inOrder, quiet (by simp)⟩
    | arrive rest head =>
      rw [head] at inOrder
      exact ⟨inOrder.2, quiet (by simp)⟩
    | gap seq rest head other =>
      rw [head] at inOrder
      exact absurd inOrder.1 other
    | silentGap seq rest head other =>
      rw [head] at inOrder
      exact absurd inOrder.1 other
    | check range rest head => exact ⟨inOrder, quiet (by simp)⟩

/-! ## Any network -/

variable (net)

/-- **When packets are tagged hop by hop.** Whatever leaves a port towards a switch is saved under the port's next number.
The runs in which everything that leaves carries that number are exactly those whose steps all fit: every packet that is
forwarded from a link to a link has the number the port is about to use. In these runs, on every link without loss, the
numbers in flight are those the receiver expects, in order, and no NACK is sent. -/
theorem tagging_iff :
    (∀ l s s' os, step net l s = some (s', os) → ∀ r flow seq saved, .sent flow seq saved ∈ events r os →
      saved = (s.port r).senderNextExpectedSeq ∧
        (s'.port r).ringBuffer (saved.toNat % (net.config (net.owner r)).bufferSize) = flowInfo flow saved false) ∧
    (∀ s tr, Lts.Run (step net) (Fits net) State.start s tr ↔
      Lts.Run (step net) (fun _ _ => True) State.start s tr ∧ ∀ r, Tagged (events r tr)) ∧
    ∀ s tr, Lts.Run (step net) (Fits net) State.start s tr → ∀ p q, net.peer p = some q →
      (∀ seq, .lost seq ∉ events p tr) →
        Consecutive (s.port q).receiverNextExpectedSeq ((s.wire p).filterMap Packet.number)
          (s.port p).senderNextExpectedSeq ∧ ∀ seq1 seq2, .nacked seq1 seq2 ∉ events p tr := by
  have tagged : ∀ s tr, Lts.Run (step net) (Fits net) State.start s tr → ∀ r, Tagged (events r tr) := by
    intro s tr run r
    refine run.invariant (I := fun _ tr => Tagged (events r tr)) (by simp [Tagged]) ?_
    intro t u tr os l kept fits moved flow seq saved mem
    rw [events_append] at mem
    rcases List.mem_append.1 mem with old | new
    · exact kept _ _ _ old
    · obtain ⟨next, -, own | ⟨link, x, nackDrop, rfl, pkt, first, number⟩⟩ := sent_of_step moved new
      · exact own
      · rw [next]
        exact fits link pkt first seq number
  refine ⟨?_, ?_, ?_⟩
  · intro l s s' os moved r flow seq saved shown
    obtain ⟨next, stored, -⟩ := sent_of_step moved shown
    exact ⟨next, stored⟩
  · intro s tr
    refine ⟨fun run => ⟨run.mono fun _ _ _ => trivial, tagged s tr run⟩, ?_⟩
    rintro ⟨run, all⟩
    induction run with
    | nil => exact .nil
    | snoc before _ moved ih =>
      refine (ih fun r flow seq saved mem => ?_).snoc (fits_of_step moved fun r flow seq saved mem => ?_) moved
      · exact all r flow seq saved (by rw [events_append]; exact List.mem_append_left _ mem)
      · exact all r flow seq saved (by rw [events_append]; exact List.mem_append_right _ mem)
  · intro s tr run p q here kept
    exact (path_of_run run here).consecutive (tagged s tr run p) kept

/-- A chain of three switches: port 0 and port 5 are towards hosts, 1 and 2 and 3 and 4 are linked. -/
def chain : Network (Fin 6) (Fin 3) where
  owner p := [0, 0, 1, 1, 2, 1][p]
  peer p := [none, some 2, some 1, some 4, some 3, none][p]
  config _ := oneCellCache
  peer_symm := by decide
  peer_ne := by decide

def merge : List (Label (Fin 6)) :=
  [.enter 5 (some 3) {} false, .enter 0 (some 1) {} false, .deliver 1 (some 3) false false, .deliver 3 none false false,
    .deliver 3 none false false]

/-- A packet from the middle switch's host and one from the first switch leave by the same port, both with number 0. The
second is saved under number 1, and the receiver asks for it although nothing was lost. -/
theorem not_tagged_merge :
    ∃ s tr, Lts.Run (step chain) (fun _ _ => True) State.start s tr ∧ (∀ p seq, .lost seq ∉ events p tr) ∧
      .sent {} 0 1 ∈ events 3 tr ∧ .nacked 1 0 ∈ events 3 tr := by
  have computed : (Lts.exec (step chain) merge State.start).map (·.2) = some
      [⟨3, .sent {} 0 0⟩, ⟨1, .sent {} 0 0⟩, ⟨1, .arrived 0⟩, ⟨3, .sent {} 0 1⟩, ⟨3, .arrived 0⟩, ⟨3, .arrived 0⟩,
        ⟨3, .nacked 1 0⟩] := by
    decide +kernel
  obtain ⟨⟨s, tr⟩, ran, rfl⟩ := Option.map_eq_some_iff.1 computed
  refine ⟨s, _, .of_exec (fun _ _ => trivial) ran, ?_, by decide, by decide⟩
  intro p seq mem
  simp [mem_events] at mem

end Ns3Fancy.NetSeer
