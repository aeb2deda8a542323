import Ns3Fancy.LossRadar.Deadlines
import Mathlib.Data.Fintype.Basic

/-!
# Networks of LossRadar switches

Any number of switches and links on a common clock. A packet that crosses a switch is metered at the
port it came in by, into the batch it carries, and at the port it leaves by, into the current batch
of that port, which it carries from there on. Links reorder, delay and lose packets. Each direction
of each link moves as it does between two switches, so what is lost is reported in time, and by no
other port than the one in front of the loss.
-/

namespace Ns3Fancy.LossRadar.Net
open Switch Function
set_option autoImplicit false

variable {P S : Type}

/-- Ports, the switches they belong to, and the links; a port without a link is one towards a host. -/
structure Network (P S : Type) where
  owner : P → S
  peer : P → Option P
  peer_symm : ∀ p q, peer p = some q → peer q = some p

def Network.switchPort (net : Network P S) (p : P) : Bool := (net.peer p).isSome

/-- `wire p` is what has left port `p` and not arrived, `controllers p` the planned calls of `Controller` for port `p`. -/
structure State (P : Type) where
  now : Nat
  port : P → LossRadarPortInfo
  nextUpdate : P → Nat
  controllers : P → List (Nat × UInt8)
  wire : P → List Flying
  nextUid : P → Nat

/-- `outPort` is what the forwarding tables say, `tmDrop` what the traffic manager decides. -/
inductive Label (P : Type) where
  | tick
  | enter (inPort : P) (outPort : Option P) (pkt : Packet) (tmDrop : Bool)
  | deliver (p : P) (i : Nat) (outPort : Option P) (tmDrop : Bool)
  | lose (p : P) (i : Nat)
  | updateBatchId (p : P)
  | control (p : P) (i fuel : Nat)

/-- What a step shows of a port, and when. -/
structure Seen (P : Type) where
  port : P
  time : Nat
  note : Note

section
variable (cfg : LossRadarConfig) (net : Network P S) [DecidableEq P]

/-- `DoIngress`: all ports after it, and the packet that goes on. -/
def doIngress (ports : P → LossRadarPortInfo) (inPort : P) (outPort : Option P) (pkt : Packet) :
    (P → LossRadarPortInfo) × Packet :=
  if pkt.ipv4 then
    let previousBatchId := getTosHi pkt.tos
    let r : (P → LossRadarPortInfo) × Packet :=
      match outPort with
      | some out =>
        if net.switchPort out then
          let batchId := (ports out).currentBatchId
          (update ports out (umMeter cfg pkt.flow batchId (ports out)), { pkt with tos := setTosHi pkt.tos batchId })
        else (ports, pkt)
      | none => (ports, pkt)
    (if net.switchPort inPort then update r.1 inPort (dmMeter cfg pkt.flow previousBatchId (r.1 inPort)) else r.1, r.2)
  else (ports, pkt)

def State.seenAt (s : State P) (p : P) (notes : List Note) : List (Seen P) :=
  notes.map fun n => { port := p, time := s.now, note := n }

/-- A packet leaves by a port, unless the traffic manager drops it. Towards a host it is of no interest any more. -/
def State.transmit (s : State P) (out : P) (pkt : Packet) (tmDrop : Bool) : State P :=
  if net.switchPort out then
    { s with
      wire := if tmDrop then s.wire else update s.wire out (s.wire out ++ [⟨s.nextUid out, s.now, pkt⟩])
      nextUid := update s.nextUid out (s.nextUid out + 1) }
  else s

/-- What is noted of a packet that leaves by a port. -/
def State.leaving (s : State P) (out : P) (pkt : Packet) (tmDrop : Bool) : List Note :=
  if net.switchPort out then
    noted pkt (s.port out).currentBatchId (s.nextUid out) ++ if tmDrop then [.congested (s.nextUid out)] else []
  else []

/-- A packet goes through the pipeline of a switch. -/
def State.ingress (s : State P) (inPort : P) (outPort : Option P) (pkt : Packet) (tmDrop : Bool) :
    Option (State P × List (Seen P)) :=
  if tmDrop ∧ ¬0 < cfg.tmDropRate then none
  else
    let r := doIngress cfg net s.port inPort outPort pkt
    let t := { s with port := r.1 }
    match outPort with
    | some out => some (t.transmit net out r.2 tmDrop, s.seenAt out (s.leaving net out pkt tmDrop))
    | none => some (t, [])

/-- `Controller` has read a batch of port `p`, whose other side is `q`: both sides are cleared. -/
def State.clear (s : State P) (p q : P) (batch : UInt8) : State P :=
  { s with port := fun e =>
      { s.port e with
        um := if e = p then update (s.port e).um batch emptyRegisters else (s.port e).um
        dm := if e = q then update (s.port e).dm batch emptyRegisters else (s.port e).dm } }

variable [DecidableEq S] [Fintype P]

def step : Lts.Step (State P) (Label P) (Seen P)
  | .tick, s =>
    if (∀ p, net.switchPort p → s.now < s.nextUpdate p) ∧ ∀ p, ∀ c ∈ s.controllers p, s.now < c.1 then
      some ({ s with now := s.now + 1 }, [])
    else none
  | .enter inPort outPort pkt tmDrop, s =>
    if net.switchPort inPort = false ∧ ∀ out ∈ outPort, net.owner out = net.owner inPort then
      s.ingress cfg net inPort outPort pkt tmDrop
    else none
  | .deliver p i outPort tmDrop, s =>
    match net.peer p, (s.wire p)[i]? with
    | some q, some e =>
      if ∀ out ∈ outPort, net.owner out = net.owner q then
        State.ingress cfg net { s with wire := update s.wire p ((s.wire p).eraseIdx i) } q outPort e.packet tmDrop
      else none
    | _, _ => none
  | .lose p i, s =>
    (s.wire p)[i]?.map fun e =>
      ({ s with wire := update s.wire p ((s.wire p).eraseIdx i) }, s.seenAt p [.lost e.uid])
  | .updateBatchId p, s =>
    if net.switchPort p ∧ s.nextUpdate p = s.now then
      let previous := (s.port p).currentBatchId
      some ({ s with
          port := update s.port p { s.port p with currentBatchId := nextBatch cfg previous }
          nextUpdate := update s.nextUpdate p (s.now + cfg.batchTime)
          controllers := update s.controllers p (s.controllers p ++ [(s.now + cfg.batchTime / 2, previous)]) }, [])
    else none
  | .control p i fuel, s =>
    match net.peer p, (s.controllers p)[i]? with
    | some q, some c =>
      if c.1 = s.now then
        (controller cfg fuel ((s.port p).um c.2) ((s.port q).dm c.2)).map fun report =>
          ({ s with controllers := update s.controllers p ((s.controllers p).eraseIdx i) }.clear p q c.2,
            s.seenAt p [.read c.2 ((s.port p).um c.2) ((s.port q).dm c.2) report])
      else none
    | _, _ => none

/-- All switches have run `Init`, the last one at time 0; `first p` is the time of the first `UpdateBatchId` of port `p`. -/
def State.start (first : P → Nat) : State P where
  now := 0
  port _ := {}
  nextUpdate := first
  controllers _ := []
  wire _ := []
  nextUid _ := 0

/-- No packet has been on a link for half a batch time. -/
def Timely (s : State P) : Prop := ∀ p, ∀ e ∈ s.wire p, s.now < e.sent + cfg.batchTime / 2

instance (s : State P) : Decidable (Timely cfg s) :=
  inferInstanceAs (Decidable (∀ p, ∀ e ∈ s.wire p, s.now < e.sent + cfg.batchTime / 2))

end

/-- The notes of a port with their times. -/
def log [DecidableEq P] (p : P) (tr : List (Seen P)) : List (Nat × Note) :=
  tr.flatMap fun o => if o.port = p then [(o.time, o.note)] else []

/-- The direction of a link from port `p` to port `q`. -/
def State.channel (s : State P) (p q : P) : Channel where
  now := s.now
  current := (s.port p).currentBatchId
  um := (s.port p).um
  dm := (s.port q).dm
  nextUpdate := s.nextUpdate p
  controllers := s.controllers p
  wire := s.wire p
  nextUid := s.nextUid p

section
variable {cfg : LossRadarConfig} {net : Network P S}

theorem Network.switchPort_of_peer {p q : P} (link : net.peer p = some q) : net.switchPort p = true := by
  rw [Network.switchPort, link]
  rfl

/-- Links are between pairs of ports. -/
theorem Network.peer_inj {p q p' q' : P} (link : net.peer p = some q) (link' : net.peer p' = some q') :
    q' = q ↔ p' = p := by
  constructor
  · rintro rfl
    have back := net.peer_symm _ _ link
    rw [net.peer_symm _ _ link'] at back
    exact Option.some.inj back
  · rintro rfl
    rw [link] at link'
    exact (Option.some.inj link').symm

variable [DecidableEq P]

theorem log_append (p : P) (tr os : List (Seen P)) : log p (tr ++ os) = log p tr ++ log p os := by
  simp [log]

theorem log_seenAt (s : State P) (p out : P) (ns : List Note) :
    log p (s.seenAt out ns) = if out = p then ns.map fun n => (s.now, n) else [] := by
  induction ns with
  | nil => simp [log, State.seenAt]
  | cons n ns ih =>
    simp only [log, State.seenAt, List.map_cons, List.flatMap_cons] at ih ⊢
    rw [ih]
    by_cases same : out = p <;> simp [same]

/-- What `DoIngress` does to each port. -/
theorem doIngress_port (ports : P → LossRadarPortInfo) (inPort : P) (outPort : Option P) (pkt : Packet) (p : P) :
    (doIngress cfg net ports inPort outPort pkt).1 p =
      { ports p with
        um := if net.switchPort p ∧ outPort = some p then metered cfg pkt (ports p).currentBatchId (ports p).um
          else (ports p).um
        dm := if net.switchPort p ∧ inPort = p then metered cfg pkt (getTosHi pkt.tos) (ports p).dm else (ports p).dm } := by
  by_cases ip : pkt.ipv4 = true
  · simp only [doIngress, ip, if_true, metered]
    rcases outPort with _ | out
    · by_cases enters : inPort = p
      · subst enters
        cases sw : net.switchPort inPort <;> simp [dmMeter]
      · cases sw : net.switchPort inPort <;> simp [enters, Ne.symm enters]
    · by_cases leaves : out = p
      · subst leaves
        by_cases enters : inPort = out
        · subst enters
          cases sw : net.switchPort inPort <;> simp [umMeter, dmMeter, sw]
        · cases sw : net.switchPort out <;> cases sw' : net.switchPort inPort <;>
            simp [umMeter, sw, enters, Ne.symm enters]
      · by_cases enters : inPort = p
        · subst enters
          cases sw : net.switchPort out <;> cases sw' : net.switchPort inPort <;>
            simp [dmMeter, sw, leaves, Ne.symm leaves]
        · cases sw : net.switchPort out <;> cases sw' : net.switchPort inPort <;>
            simp [sw, leaves, enters, Ne.symm leaves, Ne.symm enters]
  · simp [doIngress, metered, ip]

/-- The packet that goes on carries the batch of the port it leaves by. -/
theorem doIngress_packet (ports : P → LossRadarPortInfo) (inPort : P) {out : P} (pkt : Packet)
    (switch : net.switchPort out = true) :
    (doIngress cfg net ports inPort (some out) pkt).2 = withBatch pkt (ports out).currentBatchId := by
  by_cases ip : pkt.ipv4 = true
  · simp [doIngress, withBatch, ip, switch]
  · simp [doIngress, withBatch, ip]

/-- The direction of a link after a packet came in by a port. -/
def arrive (cfg : LossRadarConfig) (c : Channel) (here : Prop) [Decidable here] (pkt : Packet) : Channel :=
  { c with dm := if here then metered cfg pkt (getTosHi pkt.tos) c.dm else c.dm }

/-- **The pipeline of a switch, seen from a link**: after the packet has arrived, the step is one move of the sender. -/
theorem State.ingress_moves {s s' : State P} {inPort : P} {outPort : Option P} {pkt : Packet} {tmDrop : Bool}
    {os : List (Seen P)} (run : s.ingress cfg net inPort outPort pkt tmDrop = some (s', os)) {p q : P}
    (link : net.peer p = some q) :
    ∃ ms, (arrive cfg (s.channel p q) (inPort = q) pkt).Moves cfg (s'.channel p q) ms ∧
      log p os = ms.map fun n => (s.now, n) := by
  have sender := Network.switchPort_of_peer link
  have receiver := Network.switchPort_of_peer (net.peer_symm _ _ link)
  rw [State.ingress] at run
  split at run
  · cases run
  · rename_i allowed
    rcases outPort with _ | out
    · obtain ⟨rfl, rfl⟩ := Prod.mk.inj (Option.some.inj run)
      refine ⟨[], ?_, rfl⟩
      have same := @Channel.Moves.idle cfg (arrive cfg (s.channel p q) (inPort = q) pkt)
      simpa [arrive, State.channel, doIngress_port, receiver] using same
    · obtain ⟨rfl, rfl⟩ := Prod.mk.inj (Option.some.inj run)
      rw [log_seenAt]
      by_cases here : out = p
      · subst here
        cases tmDrop with
        | false =>
          refine ⟨noted pkt (s.port out).currentBatchId (s.nextUid out), ?_, by simp [State.leaving, sender]⟩
          have sent := @Channel.Moves.send cfg (arrive cfg (s.channel out q) (inPort = q) pkt) pkt
          simpa [arrive, State.channel, State.transmit, doIngress_port, doIngress_packet, sender, receiver, noted] using sent
        | true =>
          have positive : 0 < cfg.tmDropRate := by simpa using allowed
          refine ⟨noted pkt (s.port out).currentBatchId (s.nextUid out) ++ [.congested (s.nextUid out)], ?_,
            by simp [State.leaving, sender]⟩
          have dropped := @Channel.Moves.congested cfg (arrive cfg (s.channel out q) (inPort = q) pkt) pkt positive
          simpa [arrive, State.channel, State.transmit, doIngress_port, sender, receiver, noted] using dropped
      · refine ⟨[], ?_, by rw [if_neg here]; rfl⟩
        have same := @Channel.Moves.idle cfg (arrive cfg (s.channel p q) (inPort = q) pkt)
        cases tmDrop <;> cases sw : net.switchPort out <;>
          simpa [arrive, State.channel, State.transmit, doIngress_port, sender, receiver, sw, here, Ne.symm here] using same

/-- A step, seen from a link: a packet may arrive, then the sender makes one move. -/
structure Halves (cfg : LossRadarConfig) (c c' : Channel) (ms : List Note) (half : Channel) : Prop where
  arrives : c.Moves cfg half []
  leaves : half.Moves cfg c' ms
  now : half.now = c.now
  wire : half.wire ⊆ c.wire

theorem Halves.of_moves {c c' : Channel} {ms : List Note} (moves : c.Moves cfg c' ms) : Halves cfg c c' ms c :=
  ⟨.idle, moves, rfl, List.Subset.refl _⟩

variable [DecidableEq S] [Fintype P]

/-- **Every step is two moves of each direction of each link.** -/
theorem halves_of_step {l : Label P} {s s' : State P} {os : List (Seen P)} (run : step cfg net l s = some (s', os))
    {p q : P} (link : net.peer p = some q) :
    ∃ ms half, Halves cfg (s.channel p q) (s'.channel p q) ms half ∧ log p os = ms.map fun n => (s.now, n) := by
  have sender := Network.switchPort_of_peer link
  have receiver := Network.switchPort_of_peer (net.peer_symm _ _ link)
  cases l with
  | tick =>
    simp only [step] at run
    split at run
    · rename_i free
      obtain ⟨rfl, rfl⟩ := Prod.mk.inj (Option.some.inj run)
      exact ⟨[], _, .of_moves (.tick (free.1 p sender) (free.2 p)), rfl⟩
    · cases run
  | enter inPort outPort pkt tmDrop =>
    simp only [step] at run
    split at run
    · rename_i host
      obtain ⟨ms, moves, shown⟩ := State.ingress_moves run link
      have other : inPort ≠ q := by
        rintro rfl
        rw [receiver] at host
        cases host.1
      simp only [arrive, other, if_false] at moves
      exact ⟨ms, _, .of_moves moves, shown⟩
    · cases run
  | deliver p' i outPort tmDrop =>
    simp only [step] at run
    split at run
    · rename_i q' f link' at_
      split at run
      · obtain ⟨ms, moves, shown⟩ := State.ingress_moves run link
        refine ⟨ms, _, ⟨?_, moves, rfl, ?_⟩, shown⟩
        · by_cases here : p' = p
          · subst here
            obtain rfl : q' = q := (Network.peer_inj link link').2 rfl
            have delivered := @Channel.Moves.deliver cfg (s.channel p' q') i f at_
            simpa [arrive, State.channel] using delivered
          · have elsewhere : q' ≠ q := fun same => here ((Network.peer_inj link link').1 same)
            have same := @Channel.Moves.idle cfg (s.channel p q)
            simpa [arrive, State.channel, elsewhere, Ne.symm here] using same
        · by_cases here : p' = p
          · subst here
            simpa [arrive, State.channel] using List.eraseIdx_subset
          · simp [arrive, State.channel, Ne.symm here]
      · cases run
    · cases run
  | lose p' i =>
    obtain ⟨f, at_, eq⟩ := Option.map_eq_some_iff.1 run
    obtain ⟨rfl, rfl⟩ := Prod.mk.inj eq
    rw [log_seenAt]
    by_cases here : p' = p
    · subst here
      have lost := @Channel.Moves.lose cfg (s.channel p' q) i f at_
      exact ⟨_, _, .of_moves (by simpa [State.channel] using lost), by rw [if_pos rfl]⟩
    · have same := @Channel.Moves.idle cfg (s.channel p q)
      exact ⟨[], _, .of_moves (by simpa [State.channel, Ne.symm here] using same), by rw [if_neg here]; rfl⟩
  | updateBatchId p' =>
    simp only [step] at run
    split at run
    · rename_i due
      obtain ⟨rfl, rfl⟩ := Prod.mk.inj (Option.some.inj run)
      refine ⟨[], _, .of_moves ?_, rfl⟩
      by_cases here : p' = p
      · subst here
        have updated := @Channel.Moves.update cfg (s.channel p' q) due.2
        by_cases loop : q = p'
        · subst loop
          simpa [State.channel] using updated
        · simpa [State.channel, loop] using updated
      · have same := @Channel.Moves.idle cfg (s.channel p q)
        by_cases there : q = p'
        · subst there
          simpa [State.channel, Ne.symm here] using same
        · simpa [State.channel, Ne.symm here, there] using same
    · cases run
  | control p' i fuel =>
    simp only [step] at run
    split at run
    · rename_i q' c link' at_
      split at run
      · rename_i due
        obtain ⟨report, reported, eq⟩ := Option.map_eq_some_iff.1 run
        obtain ⟨rfl, rfl⟩ := Prod.mk.inj eq
        rw [log_seenAt]
        by_cases here : p' = p
        · subst here
          obtain rfl : q' = q := (Network.peer_inj link link').2 rfl
          obtain ⟨time, batch⟩ := c
          obtain rfl : time = s.now := due
          have read := @Channel.Moves.read cfg (s.channel p' q') i batch fuel report at_ reported
          exact ⟨_, _, .of_moves (by simpa [State.channel, State.clear] using read), by rw [if_pos rfl]⟩
        · have elsewhere : q ≠ q' := fun same => here ((Network.peer_inj link link').1 same.symm)
          have same := @Channel.Moves.idle cfg (s.channel p q)
          exact ⟨[], _, .of_moves (by simpa [State.channel, State.clear, Ne.symm here, elsewhere] using same),
            by rw [if_neg here]; rfl⟩
      · cases run
    · cases run

/-! ## Whole runs -/

/-- Each direction of each link is tracked. -/
theorem tracked_of_run (two : 2 ≤ cfg.numBatches) (few : cfg.numBatches ≤ 16) {first : P → Nat}
    (soon : ∀ p, first p ≤ cfg.batchTime) {s : State P} {tr : List (Seen P)}
    (run : Lts.Run (step cfg net) (fun _ => Timely cfg) (State.start first) s tr) {p q : P} (link : net.peer p = some q) :
    Tracked cfg (s.channel p q) (log p tr) := by
  refine run.invariant (I := fun s tr => Tracked cfg (s.channel p q) (log p tr)) ?_ ?_
  · exact
      { isolated :=
          { scheduled := ⟨Nat.zero_le _, by simp [State.channel, State.start], by simp [State.channel, State.start],
              by show 0 < cfg.numBatches; omega, by simp [State.channel, State.start],
              by simp [State.channel, State.start]⟩
            numbered := ⟨by simp [State.channel, State.start], by simp [State.channel, State.start],
              by simp [State.channel, State.start], by simp [log, untimed, goneUids, lostUids, congestedUids],
              by simp [log, untimed], by simp [log, untimed]⟩
            um := fun _ => rfl
            dm := fun _ => rfl }
        soon := by show first p ≤ 0 + cfg.batchTime; rw [Nat.zero_add]; exact soon p
        packets := fun pre time batch x post split => by simp [log] at split
        reads := fun pre at_ batch um dm report post split => by simp [log] at split }
  · intro t u tr os l kept timely moved
    obtain ⟨ms, half, halves, shown⟩ := halves_of_step moved link
    have arrived := kept.moves two few (timely p) halves.arrives
    rw [List.map_nil, List.append_nil] at arrived
    have left := arrived.moves two few (fun f mem => by rw [halves.now]; exact timely p f (halves.wire mem)) halves.leaves
    rw [log_append, shown]
    rwa [halves.now] at left

variable (cfg net)

/-- **Losses are reported in time.** A packet metered at a port is part of the batch that the controller of the port reads
at most one and a half batch times later. By then it is settled whether the packet is gone from the link of the port. The
report lists only flows of packets of the batch that are gone from this link; if the packet is, its flow is listed, unless
the report says that it could not decode everything. -/
theorem losses_reported (two : 2 ≤ cfg.numBatches) (few : cfg.numBatches ≤ 16) (hashes : 1 ≤ cfg.numHashes)
    (first : P → Nat) (soon : ∀ p, first p ≤ cfg.batchTime) (s : State P) (tr : List (Seen P))
    (run : Lts.Run (step cfg net) (fun _ => Timely cfg) (State.start first) s tr) (p q : P) (link : net.peer p = some q)
    (pre post : List (Nat × Note)) (time uid : Nat) (batch : UInt8) (flow : FiveTuple)
    (metered : log p tr = pre ++ (time, .metered batch uid flow) :: post) (passed : readBy cfg time < s.now) :
    ∃ mid at_ um dm report rest, post = mid ++ (at_, .read batch um dm report) :: rest ∧ at_ ≤ readBy cfg time ∧
      let ns := untimed (pre ++ (time, .metered batch uid flow) :: mid)
      (uid, flow) ∈ sinceRead batch ns ∧ (uid ∈ goneUids (untimed (log p tr)) ↔ uid ∈ goneUids ns) ∧
      (cfg.numHashes * (goneFlows ns batch).card < 2 ^ 32 →
        Blames (goneFlows ns batch) report ∧ (uid ∈ goneUids ns → report.nonDetected = 0 → flow ∈ report.packetsLost)) := by
  have tracked := tracked_of_run two few soon run link
  obtain ⟨mid, at_, um, dm, report, rest, split, reads, settled⟩ :=
    tracked.wasRead (x := (uid, flow)) metered passed
  rw [← metered] at settled
  refine ⟨mid, at_, um, dm, report, rest, split, reads.inTime, reads.unread, settled.gone, fun small => ?_⟩
  obtain ⟨fuel, ended⟩ := reads.ended
  have blames := blames_of_difference hashes reads.difference small ended
  exact ⟨blames, fun gone all => blames.mem all (mem_goneFlows reads.unread gone)⟩

/-! ### Three switches in a row -/

/-- The port of a host, and the four ports of two links. -/
inductive RowPort where
  | host | first | second | third | fourth
  deriving DecidableEq

instance : Fintype RowPort where
  elems := {.host, .first, .second, .third, .fourth}
  complete p := by cases p <;> decide

def row : Network RowPort Nat where
  owner
    | .host => 0
    | .first => 0
    | .second => 1
    | .third => 1
    | .fourth => 2
  peer
    | .host => none
    | .first => some .second
    | .second => some .first
    | .third => some .fourth
    | .fourth => some .third
  peer_symm := by decide

/-- A packet crosses the first link and is lost on the second one; all ports have their first batch read. -/
def lostOnSecond : List (Label RowPort) :=
  [.enter .host (some .first) { flow := { srcIp := 1 } } false, .deliver .first 0 (some .third) false, .lose .third 0,
    .tick, .tick, .updateBatchId .first, .updateBatchId .second, .updateBatchId .third, .updateBatchId .fourth, .tick,
    .control .first 0 2, .control .second 0 2, .control .third 0 2, .control .fourth 0 2, .tick]

theorem exists_row_run {α : Type} {labels : List (Label RowPort)} {f : State RowPort → List (Seen RowPort) → α} {b : α}
    (found : (Lts.exec (fun l s => if Timely byteConfig s then step byteConfig row l s else none) labels
      (State.start fun _ => 2)).map (fun r => f r.1 r.2) = some b) :
    ∃ s tr, Lts.Run (step byteConfig row) (fun _ => Timely byteConfig) (State.start fun _ => 2) s tr ∧ f s tr = b :=
  Lts.Run.exists_of_guarded labels found

/-- The packet a log begins with. -/
def firstMetered : List (Nat × Note) → Option (Nat × UInt8 × Nat × FiveTuple)
  | (time, .metered batch uid flow) :: _ => some (time, batch, uid, flow)
  | _ => none

theorem firstMetered_eq {entries : List (Nat × Note)} {time : Nat} {batch : UInt8} {uid : Nat} {flow : FiveTuple}
    (found : firstMetered entries = some (time, batch, uid, flow)) :
    ∃ post, entries = [] ++ (time, .metered batch uid flow) :: post := by
  rcases entries with _ | ⟨⟨t, n⟩, post⟩
  · cases found
  · cases n with
    | metered b u f =>
      simp only [firstMetered, Option.some.injEq, Prod.mk.injEq] at found
      obtain ⟨rfl, rfl, rfl, rfl⟩ := found
      exact ⟨post, rfl⟩
    | congested u => cases found
    | lost u => cases found
    | read b um dm report => cases found

theorem losses_reported_row :
    ∃ s tr post, Lts.Run (step byteConfig row) (fun _ => Timely byteConfig) (State.start fun _ => 2) s tr ∧
      log .third tr = [] ++ (0, .metered 0 0 { srcIp := 1 }) :: post ∧
      ∃ mid at_ um dm report rest, post = mid ++ (at_, .read 0 um dm report) :: rest ∧ at_ ≤ 3 := by
  obtain ⟨s, tr, run, seen⟩ := @exists_row_run _ lostOnSecond (fun s tr => (s.now, firstMetered (log .third tr)))
    (4, some (0, 0, 0, { srcIp := 1 })) (by decide +kernel)
  obtain ⟨now, found⟩ := Prod.mk.inj seen
  obtain ⟨post, metered⟩ := firstMetered_eq found
  have passed : readBy byteConfig 0 < s.now := by
    rw [now]
    decide
  obtain ⟨mid, at_, um, dm, report, rest, split, inTime, -⟩ := losses_reported byteConfig row (by decide) (by decide)
    (by decide) (fun _ => 2) (fun _ => by decide) s tr run .third .fourth rfl [] post 0 0 0 _ metered passed
  exact ⟨s, tr, post, run, metered, mid, at_, um, dm, report, rest, split, inTime⟩

/-- **Losses are reported where they happen.** Every report of a port lists only flows of packets that were metered at the
port and are gone from its link, whatever happens on the other links; where nothing is, it lists nothing. -/
theorem only_lost_reported (two : 2 ≤ cfg.numBatches) (few : cfg.numBatches ≤ 16) (hashes : 1 ≤ cfg.numHashes)
    (first : P → Nat) (soon : ∀ p, first p ≤ cfg.batchTime) (s : State P) (tr : List (Seen P))
    (run : Lts.Run (step cfg net) (fun _ => Timely cfg) (State.start first) s tr) (p q : P) (link : net.peer p = some q)
    (pre post : List (Nat × Note)) (at_ : Nat) (batch : UInt8) (um dm : Registers) (report : Report)
    (read : log p tr = pre ++ (at_, .read batch um dm report) :: post) :
    (cfg.numHashes * (goneFlows (untimed pre) batch).card < 2 ^ 32 → Blames (goneFlows (untimed pre) batch) report) ∧
      (goneUids (untimed (log p tr)) = [] → report = nothingLost) := by
  obtain ⟨diff, fuel, ended⟩ := (tracked_of_run two few soon run link).reads _ _ _ _ _ _ _ read
  refine ⟨fun small => blames_of_difference hashes diff small ended, fun none => controller_empty ?_ ended⟩
  have before : goneUids (untimed pre) = [] := by
    rw [List.eq_nil_iff_forall_not_mem] at none ⊢
    intro u gone
    apply none u
    rw [read, untimed_append]
    exact mem_goneUids_append.2 (.inl gone)
  have nothing : goneFlows (untimed pre) batch = 0 := by
    rw [goneFlows, flowsAmong, before]
    simp
  rw [diff, nothing]

def isRead : Nat × Note → Bool
  | (_, .read ..) => true
  | _ => false

/-- The first port says that nothing was lost, although the packet was lost further on. -/
theorem only_lost_reported_row :
    ∃ s tr, Lts.Run (step byteConfig row) (fun _ => Timely byteConfig) (State.start fun _ => 2) s tr ∧
      goneUids (untimed (log .third tr)) = [0] ∧
      ∃ pre at_ batch um dm report post, log .first tr = pre ++ (at_, .read batch um dm report) :: post ∧
        report = nothingLost := by
  obtain ⟨s, tr, run, seen⟩ := @exists_row_run _ lostOnSecond (fun _ tr =>
    (goneUids (untimed (log .third tr)), goneUids (untimed (log .first tr)), (log .first tr).any isRead))
    ([0], [], true) (by decide +kernel)
  obtain ⟨gone, rest⟩ := Prod.mk.inj seen
  obtain ⟨none, reads⟩ := Prod.mk.inj rest
  obtain ⟨⟨at_, n⟩, mem, read⟩ := List.any_eq_true.1 reads
  obtain ⟨batch, um, dm, report, rfl⟩ : ∃ batch um dm report, n = .read batch um dm report := by
    cases n with
    | read batch um dm report => exact ⟨batch, um, dm, report, rfl⟩
    | metered => cases read
    | congested => cases read
    | lost => cases read
  obtain ⟨pre, post, split⟩ := List.append_of_mem mem
  have nothing := (only_lost_reported byteConfig row (by decide) (by decide) (by decide) (fun _ => 2) (fun _ => by decide)
    s tr run .first .second rfl pre post at_ batch um dm report split).2 none
  exact ⟨s, tr, run, gone, pre, at_, batch, um, dm, report, post, split, nothing⟩

end

end Ns3Fancy.LossRadar.Net
