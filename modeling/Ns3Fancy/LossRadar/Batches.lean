import Ns3Fancy.LossRadar.Link

/-!
# Batches are isolated

The two directions of the link do not disturb each other, so each is looked at on its own: its
sender's registers and timers, its receiver's registers and the packets in flight. While every
packet is on the link for less than half a batch time, a batch is read when all its packets have
arrived or are gone, and nothing is metered into it any more. So the difference of the registers
is the filter of the packets that are gone.
-/

namespace Ns3Fancy.LossRadar
open Switch Function
set_option autoImplicit false

/-! ## One direction -/

structure Channel where
  now : Nat
  current : UInt8
  um : UInt8 → Registers
  dm : UInt8 → Registers
  nextUpdate : Nat
  controllers : List (Nat × UInt8)
  wire : List Flying
  nextUid : Nat

def System.channel (s : System) (d : Bool) : Channel where
  now := s.now
  current := (s.port d).currentBatchId
  um := (s.port d).um
  dm := (s.port !d).dm
  nextUpdate := s.nextUpdate d
  controllers := s.controllers d
  wire := s.wire d
  nextUid := s.nextUid d

section
variable (cfg : LossRadarConfig)

/-- The registers after a packet was metered into a batch; only IPv4 packets are. -/
def metered (pkt : Packet) (batch : UInt8) (regs : UInt8 → Registers) : UInt8 → Registers :=
  if pkt.ipv4 then update regs batch (meter pkt.flow (cfg.getMeterHashIndexes pkt.flow) (regs batch)) else regs

/-- The packet with its batch. -/
def withBatch (pkt : Packet) (batch : UInt8) : Packet :=
  if pkt.ipv4 then { pkt with tos := setTosHi pkt.tos batch } else pkt

/-- Everything that may happen to a direction in one step, with what it shows. -/
inductive Channel.Moves (c : Channel) : Channel → List Note → Prop where
  | idle : Channel.Moves c c []
  | tick : c.now < c.nextUpdate → (∀ e ∈ c.controllers, c.now < e.1) → Channel.Moves c { c with now := c.now + 1 } []
  | send (pkt : Packet) : Channel.Moves c
      { c with um := metered cfg pkt c.current c.um, wire := c.wire ++ [⟨c.nextUid, c.now, withBatch pkt c.current⟩],
               nextUid := c.nextUid + 1 }
      (if pkt.ipv4 then [.metered c.current c.nextUid pkt.flow] else [])
  | congested (pkt : Packet) : 0 < cfg.tmDropRate → Channel.Moves c
      { c with um := metered cfg pkt c.current c.um, nextUid := c.nextUid + 1 }
      ((if pkt.ipv4 then [.metered c.current c.nextUid pkt.flow] else []) ++ [.congested c.nextUid])
  | deliver (i : Nat) (f : Flying) : c.wire[i]? = some f → Channel.Moves c
      { c with dm := metered cfg f.packet (getTosHi f.packet.tos) c.dm, wire := c.wire.eraseIdx i } []
  | lose (i : Nat) (f : Flying) : c.wire[i]? = some f →
      Channel.Moves c { c with wire := c.wire.eraseIdx i } [.lost f.uid]
  | update : c.nextUpdate = c.now → Channel.Moves c
      { c with current := nextBatch cfg c.current, nextUpdate := c.now + cfg.batchTime,
               controllers := c.controllers ++ [(c.now + cfg.batchTime / 2, c.current)] } []
  | read (i : Nat) (batch : UInt8) (fuel : Nat) (report : Report) : c.controllers[i]? = some (c.now, batch) →
      controller cfg fuel (c.um batch) (c.dm batch) = some report → Channel.Moves c
      { c with um := Function.update c.um batch emptyRegisters, dm := Function.update c.dm batch emptyRegisters,
               controllers := c.controllers.eraseIdx i }
      [.read batch (c.um batch) (c.dm batch) report]

variable {cfg}

@[simp] theorem notes_nil (d : Bool) : notes d [] = [] := rfl

theorem notes_seenAt (d e : Bool) (ns : List Note) : notes d (seenAt e ns) = if e = d then ns else [] := by
  induction ns with
  | nil => simp [notes, seenAt]
  | cons n ns ih =>
    simp only [notes, seenAt, List.map_cons, List.flatMap_cons] at ih ⊢
    rw [ih]
    by_cases same : e = d <;> simp [same]

/-- What `DoIngress` does to the port. -/
theorem doIngress_eq (fromLink toLink : Bool) (pkt : Packet) (p : LossRadarPortInfo) :
    doIngress cfg fromLink toLink pkt p =
      ({ p with um := if toLink then metered cfg pkt p.currentBatchId p.um else p.um
                dm := if fromLink then metered cfg pkt (getTosHi pkt.tos) p.dm else p.dm },
        if toLink then withBatch pkt p.currentBatchId else pkt) := by
  cases ip : pkt.ipv4 <;> cases fromLink <;> cases toLink <;>
    simp [doIngress, metered, withBatch, ip, umMeter, dmMeter]

/-- The pipeline of a switch, seen from the direction it sends on. -/
theorem System.ingress_sender {s s' : System} {d fromLink : Bool} {out : Option Bool} {pkt : Packet} {ns : List Note}
    (run : s.ingress cfg d fromLink out pkt = some (s', ns)) : (s.channel d).Moves cfg (s'.channel d) ns := by
  simp only [System.ingress, doIngress_eq] at run
  split at run
  · cases run
  · rename_i allowed
    simp only [Option.some.injEq, Prod.mk.injEq] at run
    obtain ⟨rfl, rfl⟩ := run
    rcases out with _ | drop
    · have same := @Channel.Moves.idle cfg (s.channel d)
      simpa [System.channel] using same
    · cases drop with
      | false =>
        have sent := @Channel.Moves.send cfg (s.channel d) pkt
        simpa [System.channel] using sent
      | true =>
        have positive : 0 < cfg.tmDropRate := by simpa using allowed
        have dropped := @Channel.Moves.congested cfg (s.channel d) pkt positive
        simpa [System.channel] using dropped

/-- The pipeline of a switch, seen from the direction it receives on. -/
theorem System.ingress_receiver {s s' : System} {d fromLink : Bool} {out : Option Bool} {pkt : Packet} {ns : List Note}
    (run : s.ingress cfg (!d) fromLink out pkt = some (s', ns)) :
    s'.channel d = { s.channel d with
      dm := if fromLink then metered cfg pkt (getTosHi pkt.tos) (s.channel d).dm else (s.channel d).dm } := by
  simp only [System.ingress, doIngress_eq] at run
  split at run
  · cases run
  · simp only [Option.some.injEq, Prod.mk.injEq] at run
    obtain ⟨rfl, rfl⟩ := run
    have other : d ≠ !d := by cases d <;> decide
    rcases out with _ | drop
    · simp [System.channel, other]
    · cases drop <;> simp [System.channel, other]

theorem eq_or_eq_not (d e : Bool) : e = d ∨ e = !d := by cases d <;> cases e <;> simp

theorem not_ne (d : Bool) : (!d) ≠ d := by cases d <;> decide

/-- **Every step is a move of each direction.** -/
theorem moves_of_step {l : Label} {s s' : System} {os : List Seen} (run : step cfg l s = some (s', os)) (d : Bool) :
    (s.channel d).Moves cfg (s'.channel d) (notes d os) := by
  cases l with
  | tick =>
    simp only [step] at run
    split at run
    · rename_i free
      obtain ⟨rfl, rfl⟩ := Prod.mk.inj (Option.some.inj run)
      exact .tick (free.1 d) (free.2 d)
    · cases run
  | enter e pkt tmDrop =>
    obtain ⟨⟨t, ns⟩, entered, eq⟩ := Option.map_eq_some_iff.1 run
    obtain ⟨rfl, rfl⟩ := Prod.mk.inj eq
    rw [notes_seenAt]
    rcases eq_or_eq_not d e with rfl | rfl
    · rw [if_pos rfl]
      exact System.ingress_sender entered
    · rw [if_neg (not_ne d), System.ingress_receiver entered]
      exact .idle
  | deliver e i back =>
    obtain ⟨f, at_, run⟩ := Option.bind_eq_some_iff.1 run
    obtain ⟨⟨t, ns⟩, entered, eq⟩ := Option.map_eq_some_iff.1 run
    obtain ⟨rfl, rfl⟩ := Prod.mk.inj eq
    rw [notes_seenAt]
    rcases eq_or_eq_not d e with rfl | rfl
    · rw [if_neg (not_ne _), System.ingress_receiver entered]
      have delivered := @Channel.Moves.deliver cfg (s.channel e) i f at_
      simpa [System.channel] using delivered
    · rw [Bool.not_not] at entered ⊢
      rw [if_pos rfl]
      have sent := System.ingress_sender entered
      have same : System.channel { s with wire := update s.wire (!d) ((s.wire !d).eraseIdx i) } d = s.channel d := by
        simp [System.channel]
      rwa [same] at sent
  | lose e i =>
    obtain ⟨f, at_, eq⟩ := Option.map_eq_some_iff.1 run
    obtain ⟨rfl, rfl⟩ := Prod.mk.inj eq
    rw [notes_seenAt]
    rcases eq_or_eq_not d e with rfl | rfl
    · rw [if_pos rfl]
      have lost := @Channel.Moves.lose cfg (s.channel e) i f at_
      simpa [System.channel] using lost
    · rw [if_neg (not_ne d)]
      have same := @Channel.Moves.idle cfg (s.channel d)
      simpa [System.channel] using same
  | updateBatchId e =>
    simp only [step] at run
    split at run
    · rename_i due
      obtain ⟨rfl, rfl⟩ := Prod.mk.inj (Option.some.inj run)
      rcases eq_or_eq_not d e with rfl | rfl
      · have updated := @Channel.Moves.update cfg (s.channel e) due
        simpa [System.channel] using updated
      · have same := @Channel.Moves.idle cfg (s.channel d)
        simpa [System.channel] using same
    · cases run
  | control e i fuel =>
    obtain ⟨⟨time, batch⟩, at_, run⟩ := Option.bind_eq_some_iff.1 run
    split at run
    · rename_i due
      obtain ⟨report, reported, eq⟩ := Option.map_eq_some_iff.1 run
      obtain ⟨rfl, rfl⟩ := Prod.mk.inj eq
      obtain rfl : time = s.now := due
      rw [notes_seenAt]
      rcases eq_or_eq_not d e with rfl | rfl
      · rw [if_pos rfl]
        have read := @Channel.Moves.read cfg (s.channel e) i batch fuel report at_ reported
        simpa [System.channel, System.clear] using read
      · rw [if_neg (not_ne d)]
        have same := @Channel.Moves.idle cfg (s.channel d)
        simpa [System.channel, System.clear, (not_ne d).symm] using same
    · cases run

/-! ## The trace of a direction -/

/-- The packets that are gone: lost on the link or dropped before it. -/
def goneUids (ns : List Note) : List Nat := lostUids ns ++ congestedUids ns

theorem mem_goneUids_append {u : Nat} {ns ms : List Note} :
    u ∈ goneUids (ns ++ ms) ↔ u ∈ goneUids ns ∨ u ∈ goneUids ms := by
  simp only [goneUids, lostUids, congestedUids, List.filterMap_append, List.mem_append]
  tauto

@[simp] theorem sinceRead_nil (b : UInt8) : sinceRead b [] = [] := rfl

theorem sinceRead_metered (b batch : UInt8) (uid : Nat) (flow : FiveTuple) (ns : List Note) :
    sinceRead b (ns ++ [.metered batch uid flow]) =
      if batch = b then sinceRead b ns ++ [(uid, flow)] else sinceRead b ns := by
  simp [sinceRead]

theorem sinceRead_read (b batch : UInt8) (um dm : Registers) (report : Report) (ns : List Note) :
    sinceRead b (ns ++ [.read batch um dm report]) = if batch = b then [] else sinceRead b ns := by
  simp [sinceRead]

@[simp] theorem sinceRead_lost (b : UInt8) (uid : Nat) (ns : List Note) :
    sinceRead b (ns ++ [.lost uid]) = sinceRead b ns := by
  simp [sinceRead]

@[simp] theorem sinceRead_congested (b : UInt8) (uid : Nat) (ns : List Note) :
    sinceRead b (ns ++ [.congested uid]) = sinceRead b ns := by
  simp [sinceRead]

/-! ## Lists of numbered packets -/

/-- The flows of the entries whose number meets a condition. -/
def flowsWhere (p : Nat → Prop) [DecidablePred p] (entries : List (Nat × FiveTuple)) : Multiset FiveTuple :=
  ((entries.filter fun x => p x.1).map (·.2) : List FiveTuple)

theorem flowsWhere_congr {p q : Nat → Prop} [DecidablePred p] [DecidablePred q] {entries : List (Nat × FiveTuple)}
    (same : ∀ x ∈ entries, p x.1 ↔ q x.1) : flowsWhere p entries = flowsWhere q entries := by
  simp only [flowsWhere]
  congr 2
  exact List.filter_congr fun x mem => by simp [same x mem]

theorem flowsWhere_cons (p : Nat → Prop) [DecidablePred p] (x : Nat × FiveTuple) (xs : List (Nat × FiveTuple)) :
    flowsWhere p (x :: xs) = if p x.1 then x.2 ::ₘ flowsWhere p xs else flowsWhere p xs := by
  by_cases holds : p x.1
  · simp [flowsWhere, holds]
  · simp [flowsWhere, holds]

theorem flowsWhere_append (p : Nat → Prop) [DecidablePred p] (xs ys : List (Nat × FiveTuple)) :
    flowsWhere p (xs ++ ys) = flowsWhere p xs + flowsWhere p ys := by
  simp [flowsWhere]

/-- The condition comes to hold of one more number. -/
theorem flowsWhere_insert {p q : Nat → Prop} [DecidablePred p] [DecidablePred q] {entries : List (Nat × FiveTuple)}
    (nodup : (entries.map (·.1)).Nodup) {u : Nat} {flow : FiveTuple} (mem : (u, flow) ∈ entries) (out : ¬p u) (into : q u)
    (same : ∀ v, v ≠ u → (p v ↔ q v)) : flowsWhere q entries = flow ::ₘ flowsWhere p entries := by
  obtain ⟨xs, ys, rfl⟩ := List.append_of_mem mem
  have others : ∀ x ∈ xs ++ ys, x.1 ≠ u := by
    rintro x mem' rfl
    rw [List.map_append, List.map_cons, List.nodup_append] at nodup
    obtain ⟨-, tail, apart⟩ := nodup
    rcases List.mem_append.1 mem' with left | right
    · exact apart x.1 (List.mem_map_of_mem left) x.1 List.mem_cons_self rfl
    · exact (List.nodup_cons.1 tail).1 (List.mem_map.2 ⟨x, right, rfl⟩)
  have left : flowsWhere q xs = flowsWhere p xs :=
    flowsWhere_congr fun x mem' => (same x.1 (others x (List.mem_append_left _ mem'))).symm
  have right : flowsWhere q ys = flowsWhere p ys :=
    flowsWhere_congr fun x mem' => (same x.1 (others x (List.mem_append_right _ mem'))).symm
  rw [flowsWhere_append, flowsWhere_append, flowsWhere_cons, flowsWhere_cons, if_pos into, if_neg out, left, right,
    Multiset.add_cons]

theorem flowsWhere_split (p : Nat → Prop) [DecidablePred p] (entries : List (Nat × FiveTuple)) :
    ((entries.map (·.2) : List FiveTuple) : Multiset FiveTuple) =
      flowsWhere (fun u => ¬p u) entries + flowsWhere p entries := by
  induction entries with
  | nil => rfl
  | cons x xs ih =>
    rw [List.map_cons, ← Multiset.cons_coe, ih]
    rw [flowsWhere_cons, flowsWhere_cons]
    by_cases holds : p x.1
    · rw [if_neg (not_not.2 holds), if_pos holds, Multiset.add_cons]
    · rw [if_pos holds, if_neg holds, Multiset.cons_add]

/-! ## The invariant -/

/-- What is planned, and when. -/
structure Scheduled (cfg : LossRadarConfig) (c : Channel) : Prop where
  beforeUpdate : c.now ≤ c.nextUpdate
  beforeControl : ∀ e ∈ c.controllers, c.now ≤ e.1
  sent : ∀ f ∈ c.wire, f.sent ≤ c.now
  current : c.current.toNat < cfg.numBatches
  /-- what is planned is for the last batch, and before the next one -/
  planned : 0 < cfg.batchTime / 2 → ∀ e ∈ c.controllers, e.1 < c.nextUpdate ∧ nextBatch cfg e.2 = c.current
  /-- a batch is read half a batch time after its packets were sent -/
  waited : ∀ f ∈ c.wire, f.packet.ipv4 = true → ∀ e ∈ c.controllers, e.2 = getTosHi f.packet.tos →
    f.sent + cfg.batchTime / 2 ≤ e.1

/-- Every packet has its own number. -/
structure Numbered (c : Channel) (ns : List Note) : Prop where
  /-- a packet in flight belongs to the batch it carries, if it is IPv4, and to no other -/
  tagged : ∀ f ∈ c.wire, ∀ b flow, (f.uid, flow) ∈ sinceRead b ns ↔
    f.packet.ipv4 = true ∧ getTosHi f.packet.tos = b ∧ f.packet.flow = flow
  distinct : (c.wire.map (·.uid)).Nodup
  flying : ∀ f ∈ c.wire, f.uid < c.nextUid ∧ f.uid ∉ goneUids ns
  gone : ∀ u ∈ goneUids ns, u < c.nextUid
  entries : ∀ b, ∀ x ∈ sinceRead b ns, x.1 < c.nextUid
  entriesDistinct : ∀ b, ((sinceRead b ns).map (·.1)).Nodup

/-- The flows of the packets of a batch that have arrived. -/
def arrivedFlows (wire : List Flying) (ns : List Note) (b : UInt8) : Multiset FiveTuple :=
  flowsWhere (fun u => u ∉ goneUids ns ∧ u ∉ wire.map (·.uid)) (sinceRead b ns)

/-- The registers hold what was metered since the last read: at the sender everything, at the receiver what arrived. -/
structure Isolated (cfg : LossRadarConfig) (c : Channel) (ns : List Note) : Prop where
  scheduled : Scheduled cfg c
  numbered : Numbered c ns
  um : ∀ b, c.um b = registersOf cfg ((sinceRead b ns).map (·.2) : List FiveTuple)
  dm : ∀ b, c.dm b = registersOf cfg (arrivedFlows c.wire ns b)

theorem nextBatch_lt (few : cfg.numBatches ≤ 16) (some_ : 0 < cfg.numBatches) (b : UInt8) :
    (nextBatch cfg b).toNat = (b.toNat + 1) % cfg.numBatches ∧ (nextBatch cfg b).toNat < cfg.numBatches := by
  have small : (b.toNat + 1) % cfg.numBatches < cfg.numBatches := Nat.mod_lt _ some_
  have value : (nextBatch cfg b).toNat = (b.toNat + 1) % cfg.numBatches :=
    UInt8.toNat_ofNat_of_lt' (show _ < 2 ^ 8 by omega)
  exact ⟨value, by rw [value]; exact small⟩

/-- With two batches or more the next batch is another. -/
theorem nextBatch_ne (two : 2 ≤ cfg.numBatches) (few : cfg.numBatches ≤ 16) {b : UInt8} (small : b.toNat < cfg.numBatches) :
    nextBatch cfg b ≠ b := by
  intro same
  have value := (nextBatch_lt few (by omega) b).1
  rw [same] at value
  rcases Nat.lt_or_ge (b.toNat + 1) cfg.numBatches with less | last
  · rw [Nat.mod_eq_of_lt less] at value
    omega
  · have whole : b.toNat + 1 = cfg.numBatches := by omega
    rw [whole, Nat.mod_self] at value
    omega

/-! ## Time passes -/

theorem Scheduled.tick {c : Channel} (h : Scheduled cfg c) (update : c.now < c.nextUpdate)
    (control : ∀ e ∈ c.controllers, c.now < e.1) : Scheduled cfg { c with now := c.now + 1 } :=
  { h with
    beforeUpdate := update
    beforeControl := control
    sent := fun f mem => Nat.le_succ_of_le (h.sent f mem) }

theorem Scheduled.update {c : Channel} (h : Scheduled cfg c) (two : 2 ≤ cfg.numBatches) (few : cfg.numBatches ≤ 16)
    (due : c.nextUpdate = c.now) :
    Scheduled cfg { c with current := nextBatch cfg c.current, nextUpdate := c.now + cfg.batchTime,
                           controllers := c.controllers ++ [(c.now + cfg.batchTime / 2, c.current)] } where
  beforeUpdate := Nat.le_add_right _ _
  beforeControl := by
    intro e mem
    rcases List.mem_append.1 mem with old | new
    · exact h.beforeControl e old
    · rw [List.mem_singleton] at new
      subst new
      exact Nat.le_add_right _ _
  sent := h.sent
  current := (nextBatch_lt few (by omega) _).2
  planned := by
    -- what was planned for before this moment has been done
    intro half e mem
    rcases List.mem_append.1 mem with old | new
    · have before := h.beforeControl e old
      have := (h.planned half e old).1
      omega
    · rw [List.mem_singleton] at new
      subst new
      exact ⟨by show c.now + cfg.batchTime / 2 < c.now + cfg.batchTime; omega, rfl⟩
  waited := by
    intro f mem ip e planned same
    rcases List.mem_append.1 planned with old | new
    · exact h.waited f mem ip e old same
    · rw [List.mem_singleton] at new
      subst new
      exact Nat.add_le_add_right (h.sent f mem) _

/-- What is planned for the current batch, if anything, is far enough away. -/
theorem Scheduled.not_planned {c : Channel} (h : Scheduled cfg c) (two : 2 ≤ cfg.numBatches)
    (few : cfg.numBatches ≤ 16) : ∀ e ∈ c.controllers, e.2 = c.current → c.now + cfg.batchTime / 2 ≤ e.1 := by
  intro e mem same
  rcases Nat.eq_zero_or_pos (cfg.batchTime / 2) with zero | half
  · rw [zero]
    exact h.beforeControl e mem
  · have next := (h.planned half e mem).2
    rw [same] at next
    exact absurd next (nextBatch_ne two few h.current)

/-- A packet of the batch that is due would have been on the wire for too long. -/
theorem Scheduled.arrived {c : Channel} (h : Scheduled cfg c) (timely : ∀ f ∈ c.wire, c.now < f.sent + cfg.batchTime / 2)
    {batch : UInt8} (due : (c.now, batch) ∈ c.controllers) :
    ∀ f ∈ c.wire, f.packet.ipv4 = true → getTosHi f.packet.tos ≠ batch := by
  intro f mem ip same
  have waited := h.waited f mem ip _ due same.symm
  have := timely f mem
  omega

/-! ## A packet leaves -/

/-- The packet goes on the wire, or the traffic manager drops it: what is added to the wire and to the notes. -/
inductive Leaves (c : Channel) (pkt : Packet) : List Flying → List Note → Prop where
  | sent : Leaves c pkt [⟨c.nextUid, c.now, withBatch pkt c.current⟩] []
  | dropped : Leaves c pkt [] [.congested c.nextUid]

/-- What is noted of a packet on its way out. -/
def noted (pkt : Packet) (batch : UInt8) (uid : Nat) : List Note :=
  if pkt.ipv4 then [.metered batch uid pkt.flow] else []

theorem getTosHi_withBatch {pkt : Packet} (ip : pkt.ipv4 = true) {batch : UInt8} (small : batch.toNat < 16) :
    getTosHi (withBatch pkt batch).tos = batch := by
  rw [withBatch, if_pos ip]
  exact getTosHi_setTosHi _ small

theorem withBatch_ipv4 (pkt : Packet) (batch : UInt8) :
    (withBatch pkt batch).ipv4 = pkt.ipv4 ∧ (withBatch pkt batch).flow = pkt.flow := by
  rw [withBatch]
  split <;> exact ⟨rfl, rfl⟩

theorem sinceRead_noted (b batch : UInt8) (pkt : Packet) (uid : Nat) (ns : List Note) :
    sinceRead b (ns ++ noted pkt batch uid) =
      sinceRead b ns ++ if pkt.ipv4 = true ∧ batch = b then [(uid, pkt.flow)] else [] := by
  by_cases ip : pkt.ipv4 = true
  · by_cases here : batch = b
    · simp [noted, ip, here, sinceRead_metered]
    · simp [noted, ip, here, sinceRead_metered]
  · simp [noted, ip]

theorem mem_goneUids_noted {u : Nat} {ns : List Note} {pkt : Packet} {batch : UInt8} {uid : Nat} :
    u ∈ goneUids (ns ++ noted pkt batch uid) ↔ u ∈ goneUids ns := by
  rw [mem_goneUids_append]
  by_cases ip : pkt.ipv4 = true <;> simp [noted, ip, goneUids, lostUids, congestedUids]

section
variable {c : Channel} {ns : List Note} {pkt : Packet} {new : List Flying} {drop : List Note}

theorem Leaves.since (leaves : Leaves c pkt new drop) (ns : List Note) (b : UInt8) :
    sinceRead b (ns ++ noted pkt c.current c.nextUid ++ drop) =
      sinceRead b ns ++ if pkt.ipv4 = true ∧ c.current = b then [(c.nextUid, pkt.flow)] else [] := by
  rw [← sinceRead_noted]
  cases leaves with
  | sent => rw [List.append_nil]
  | dropped => exact sinceRead_congested ..

theorem Leaves.gone (leaves : Leaves c pkt new drop) (ns : List Note) (u : Nat) :
    u ∈ goneUids (ns ++ noted pkt c.current c.nextUid ++ drop) ↔ u ∈ goneUids ns ∨ (u = c.nextUid ∧ new = []) := by
  rw [mem_goneUids_append, mem_goneUids_noted]
  cases leaves with
  | sent => simp [goneUids, lostUids, congestedUids]
  | dropped => simp [goneUids, lostUids, congestedUids]

theorem Leaves.added (leaves : Leaves c pkt new drop) :
    ∀ f ∈ new, f = ⟨c.nextUid, c.now, withBatch pkt c.current⟩ := by
  intro f mem
  cases leaves with
  | sent => exact List.mem_singleton.1 mem
  | dropped => cases mem

/-- Older packets are gone, or not, as before. -/
theorem Leaves.oldGone (leaves : Leaves c pkt new drop) (ns : List Note) {u : Nat} (less : u < c.nextUid) :
    u ∈ goneUids (ns ++ noted pkt c.current c.nextUid ++ drop) ↔ u ∈ goneUids ns := by
  rw [leaves.gone]
  exact ⟨fun either => either.elim id fun same => absurd same.1 (Nat.ne_of_lt less), .inl⟩

/-- Older packets are on the wire, or not, as before. -/
theorem Leaves.oldFlying (leaves : Leaves c pkt new drop) {u : Nat} (less : u < c.nextUid) :
    u ∈ (c.wire ++ new).map (·.uid) ↔ u ∈ c.wire.map (·.uid) := by
  rw [List.map_append, List.mem_append]
  refine ⟨fun either => either.elim id fun mem => ?_, .inl⟩
  obtain ⟨f, fresh, rfl⟩ := List.mem_map.1 mem
  rw [leaves.added f fresh] at less
  exact absurd less (Nat.lt_irrefl _)

theorem Scheduled.leaves (h : Scheduled cfg c) (two : 2 ≤ cfg.numBatches) (few : cfg.numBatches ≤ 16)
    (leaves : Leaves c pkt new drop) (um : UInt8 → Registers) (nextUid : Nat) :
    Scheduled cfg { c with um := um, wire := c.wire ++ new, nextUid := nextUid } :=
  { h with
    sent := by
      intro f mem
      rcases List.mem_append.1 mem with old | fresh
      · exact h.sent f old
      · rw [leaves.added f fresh]
    waited := by
      intro f mem ip e planned same
      rcases List.mem_append.1 mem with old | fresh
      · exact h.waited f old ip e planned same
      · rw [leaves.added f fresh] at ip same ⊢
        rw [(withBatch_ipv4 pkt _).1] at ip
        rw [getTosHi_withBatch ip (Nat.lt_of_lt_of_le h.current few)] at same
        exact h.not_planned two few e planned same }

theorem Numbered.leaves (h : Numbered c ns) (small : c.current.toNat < 16) (leaves : Leaves c pkt new drop)
    (um : UInt8 → Registers) :
    Numbered { c with um := um, wire := c.wire ++ new, nextUid := c.nextUid + 1 }
      (ns ++ noted pkt c.current c.nextUid ++ drop) where
  tagged := by
    intro f mem b flow
    rw [leaves.since, List.mem_append]
    rcases List.mem_append.1 mem with old | fresh
    · have less := (h.flying f old).1
      rw [← h.tagged f old b flow]
      refine ⟨fun either => either.elim id fun mem' => ?_, .inl⟩
      split at mem'
      · rw [List.mem_singleton, Prod.mk.injEq] at mem'
        omega
      · cases mem'
    · rw [leaves.added f fresh, (withBatch_ipv4 pkt _).1, (withBatch_ipv4 pkt _).2]
      constructor
      · rintro (old | mem')
        · exact absurd (h.entries b _ old) (Nat.lt_irrefl _)
        · split at mem'
          · rename_i both
            rw [List.mem_singleton, Prod.mk.injEq] at mem'
            exact ⟨both.1, by rw [getTosHi_withBatch both.1 small]; exact both.2, mem'.2.symm⟩
          · cases mem'
      · rintro ⟨ip, batch, rfl⟩
        rw [getTosHi_withBatch ip small] at batch
        exact .inr (by rw [if_pos ⟨ip, batch⟩]; exact List.mem_singleton.2 rfl)
  distinct := by
    rw [List.map_append, List.nodup_append]
    refine ⟨h.distinct, ?_, ?_⟩
    · cases leaves with
      | sent => exact List.nodup_singleton _
      | dropped => exact List.nodup_nil
    · intro u earlier v mem same
      obtain ⟨f, fresh, rfl⟩ := List.mem_map.1 mem
      obtain ⟨g, old, rfl⟩ := List.mem_map.1 earlier
      have less := (h.flying g old).1
      rw [leaves.added f fresh] at same
      exact absurd same (Nat.ne_of_lt less)
  flying := by
    intro f mem
    rcases List.mem_append.1 mem with old | fresh
    · obtain ⟨less, here⟩ := h.flying f old
      exact ⟨Nat.lt_succ_of_lt less, by rwa [leaves.oldGone ns less]⟩
    · rw [leaves.added f fresh]
      refine ⟨Nat.lt_succ_self _, fun lost => ?_⟩
      rcases (leaves.gone ns _).1 lost with old | ⟨-, none⟩
      · exact absurd (h.gone _ old) (Nat.lt_irrefl _)
      · rw [none] at fresh
        cases fresh
  gone := by
    intro u mem
    rcases (leaves.gone ns u).1 mem with old | ⟨rfl, -⟩
    · exact Nat.lt_succ_of_lt (h.gone u old)
    · exact Nat.lt_succ_self _
  entries := by
    intro b x mem
    rw [leaves.since, List.mem_append] at mem
    rcases mem with old | fresh
    · exact Nat.lt_succ_of_lt (h.entries b x old)
    · split at fresh
      · rw [List.mem_singleton] at fresh
        rw [fresh]
        exact Nat.lt_succ_self _
      · cases fresh
  entriesDistinct := by
    intro b
    rw [leaves.since, List.map_append, List.nodup_append]
    refine ⟨h.entriesDistinct b, ?_, ?_⟩
    · split
      · exact List.nodup_singleton _
      · exact List.nodup_nil
    · intro u earlier v mem same
      obtain ⟨x, old, rfl⟩ := List.mem_map.1 earlier
      have less := h.entries b x old
      split at mem
      · rw [List.map_singleton, List.mem_singleton] at mem
        omega
      · cases mem

/-- The new packet is on the wire or gone; the others have arrived, or not, as before. -/
theorem Leaves.arrived (leaves : Leaves c pkt new drop) (h : Numbered c ns) (b : UInt8) :
    arrivedFlows (c.wire ++ new) (ns ++ noted pkt c.current c.nextUid ++ drop) b = arrivedFlows c.wire ns b := by
  have missing : ¬(c.nextUid ∉ goneUids (ns ++ noted pkt c.current c.nextUid ++ drop) ∧
      c.nextUid ∉ (c.wire ++ new).map (·.uid)) := by
    rw [leaves.gone]
    cases leaves with
    | sent => simp
    | dropped => simp
  have none : flowsWhere (fun u => u ∉ goneUids (ns ++ noted pkt c.current c.nextUid ++ drop) ∧
      u ∉ (c.wire ++ new).map (·.uid)) (if pkt.ipv4 = true ∧ c.current = b then [(c.nextUid, pkt.flow)] else []) = 0 := by
    split
    · rw [flowsWhere_cons, if_neg missing]
      rfl
    · rfl
  rw [arrivedFlows, leaves.since, flowsWhere_append, none, add_zero]
  refine flowsWhere_congr fun x mem => ?_
  have less := h.entries b x mem
  rw [leaves.oldGone ns less, leaves.oldFlying less]

end

/-- A packet is metered. -/
theorem metered_eq {regs : UInt8 → Registers} {L : UInt8 → Multiset FiveTuple} (holds : ∀ b, regs b = registersOf cfg (L b))
    (pkt : Packet) (batch b : UInt8) :
    metered cfg pkt batch regs b =
      registersOf cfg (if pkt.ipv4 = true ∧ batch = b then pkt.flow ::ₘ L b else L b) := by
  rw [metered]
  by_cases ip : pkt.ipv4 = true
  · rw [if_pos ip]
    by_cases here : batch = b
    · subst here
      rw [update_self, holds, meter_registersOf, if_pos ⟨ip, rfl⟩]
    · rw [update_of_ne (Ne.symm here), holds, if_neg fun both => here both.2]
  · rw [if_neg ip, holds, if_neg fun both => ip both.1]

/-- **A packet leaves.** -/
theorem Isolated.leaves {c : Channel} {ns : List Note} (h : Isolated cfg c ns) (two : 2 ≤ cfg.numBatches)
    (few : cfg.numBatches ≤ 16) {pkt : Packet} {new : List Flying} {drop : List Note} (leaves : Leaves c pkt new drop) :
    Isolated cfg { c with um := metered cfg pkt c.current c.um, wire := c.wire ++ new, nextUid := c.nextUid + 1 }
      (ns ++ noted pkt c.current c.nextUid ++ drop) where
  scheduled := h.scheduled.leaves two few leaves _ _
  numbered := h.numbered.leaves (Nat.lt_of_lt_of_le h.scheduled.current few) leaves _
  um := by
    intro b
    rw [leaves.since]
    refine (metered_eq h.um pkt c.current b).trans ?_
    congr 1
    split
    · rw [List.map_append, ← Multiset.coe_add, add_comm]
      rfl
    · rw [List.append_nil]
  dm := by
    intro b
    rw [leaves.arrived h.numbered]
    exact h.dm b

/-! ## A packet arrives or is lost -/

section
variable {c : Channel} {ns : List Note} {i : Nat} {f : Flying}

/-- The numbers left on the wire. -/
theorem Numbered.mem_eraseIdx (h : Numbered c ns) (at_ : c.wire[i]? = some f) (u : Nat) :
    u ∈ (c.wire.eraseIdx i).map (·.uid) ↔ u ≠ f.uid ∧ u ∈ c.wire.map (·.uid) := by
  have here : (c.wire.map (·.uid))[i]? = some f.uid := by rw [List.getElem?_map, at_]; rfl
  obtain ⟨bound, value⟩ := List.getElem?_eq_some_iff.1 here
  rw [← List.eraseIdx_map, ← h.distinct.erase_getElem i bound, value, h.distinct.mem_erase_iff]

theorem Scheduled.eraseIdx (h : Scheduled cfg c) (i : Nat) (dm : UInt8 → Registers) :
    Scheduled cfg { c with dm := dm, wire := c.wire.eraseIdx i } :=
  { h with
    sent := fun f mem => h.sent f (List.mem_of_mem_eraseIdx mem)
    waited := fun f mem => h.waited f (List.mem_of_mem_eraseIdx mem) }

/-- Another packet than the one taken off the wire. -/
theorem Numbered.uid_ne (h : Numbered c ns) (at_ : c.wire[i]? = some f) {g : Flying} (mem : g ∈ c.wire.eraseIdx i) :
    g.uid ≠ f.uid :=
  ((h.mem_eraseIdx at_ g.uid).1 (List.mem_map_of_mem mem)).1

theorem Numbered.deliver (h : Numbered c ns) (i : Nat) (dm : UInt8 → Registers) :
    Numbered { c with dm := dm, wire := c.wire.eraseIdx i } ns :=
  { h with
    tagged := fun f mem => h.tagged f (List.mem_of_mem_eraseIdx mem)
    distinct := by
      show ((c.wire.eraseIdx i).map (·.uid)).Nodup
      rw [← List.eraseIdx_map]
      exact h.distinct.eraseIdx i
    flying := fun f mem => h.flying f (List.mem_of_mem_eraseIdx mem) }

/-- **A packet arrives.** -/
theorem Isolated.deliver (h : Isolated cfg c ns) (at_ : c.wire[i]? = some f) :
    Isolated cfg { c with dm := metered cfg f.packet (getTosHi f.packet.tos) c.dm, wire := c.wire.eraseIdx i } ns where
  scheduled := h.scheduled.eraseIdx i _
  numbered := h.numbered.deliver i _
  um := h.um
  dm := by
    intro b
    refine (metered_eq h.dm f.packet _ b).trans ?_
    have mem : f ∈ c.wire := List.mem_of_getElem? at_
    have gone := (h.numbered.flying f mem).2
    congr 1
    split
    · rename_i here
      have entry := (h.numbered.tagged f mem b f.packet.flow).2 ⟨here.1, here.2, rfl⟩
      refine (flowsWhere_insert (h.numbered.entriesDistinct b) entry ?_ ?_ ?_).symm
      · exact fun both => both.2 (List.mem_map_of_mem mem)
      · exact ⟨gone, fun left => ((h.numbered.mem_eraseIdx at_ _).1 left).1 rfl⟩
      · intro v other
        rw [h.numbered.mem_eraseIdx at_]
        simp [other]
    · rename_i elsewhere
      refine flowsWhere_congr fun x entry => ?_
      have other : x.1 ≠ f.uid := by
        rintro same
        obtain ⟨ip, batch, -⟩ := (h.numbered.tagged f mem b x.2).1 (by rw [← same]; exact entry)
        exact elsewhere ⟨ip, batch⟩
      rw [h.numbered.mem_eraseIdx at_]
      simp [other]

theorem mem_goneUids_lost {u uid : Nat} : u ∈ goneUids (ns ++ [.lost uid]) ↔ u ∈ goneUids ns ∨ u = uid := by
  rw [mem_goneUids_append]
  simp [goneUids, lostUids, congestedUids]

theorem Numbered.lose (h : Numbered c ns) (at_ : c.wire[i]? = some f) :
    Numbered { c with wire := c.wire.eraseIdx i } (ns ++ [.lost f.uid]) := by
  have less := (h.flying f (List.mem_of_getElem? at_)).1
  have kept := h.deliver i c.dm
  refine ⟨?_, kept.distinct, ?_, ?_, ?_, ?_⟩
  · simpa only [sinceRead_lost] using kept.tagged
  · intro g mem
    obtain ⟨small, here⟩ := kept.flying g mem
    refine ⟨small, fun gone => ?_⟩
    rcases mem_goneUids_lost.1 gone with old | same
    · exact here old
    · exact h.uid_ne at_ mem same
  · intro u gone
    rcases mem_goneUids_lost.1 gone with old | rfl
    · exact h.gone u old
    · exact less
  · simpa only [sinceRead_lost] using h.entries
  · simpa only [sinceRead_lost] using h.entriesDistinct

/-- **A packet is lost.** -/
theorem Isolated.lose (h : Isolated cfg c ns) (at_ : c.wire[i]? = some f) :
    Isolated cfg { c with wire := c.wire.eraseIdx i } (ns ++ [.lost f.uid]) where
  scheduled := h.scheduled.eraseIdx i c.dm
  numbered := h.numbered.lose at_
  um := by simpa only [sinceRead_lost] using h.um
  dm := by
    intro b
    rw [h.dm b, arrivedFlows, arrivedFlows, sinceRead_lost]
    congr 1
    refine flowsWhere_congr fun x entry => ?_
    rw [h.numbered.mem_eraseIdx at_, mem_goneUids_lost]
    by_cases same : x.1 = f.uid
    · have flying : f.uid ∈ c.wire.map (·.uid) := List.mem_map_of_mem (List.mem_of_getElem? at_)
      rw [same]
      simp [flying]
    · simp [same]

/-! ## A batch is read -/

theorem mem_goneUids_read {u : Nat} {batch : UInt8} {um dm : Registers} {report : Report} :
    u ∈ goneUids (ns ++ [.read batch um dm report]) ↔ u ∈ goneUids ns := by
  rw [mem_goneUids_append]
  simp [goneUids, lostUids, congestedUids]

theorem Numbered.read (h : Numbered c ns) {batch : UInt8}
    (none : ∀ f ∈ c.wire, f.packet.ipv4 = true → getTosHi f.packet.tos ≠ batch) (um dm : UInt8 → Registers)
    (controllers : List (Nat × UInt8)) (um' dm' : Registers) (report : Report) :
    Numbered { c with um := um, dm := dm, controllers := controllers } (ns ++ [.read batch um' dm' report]) where
  tagged := by
    intro f mem b flow
    rw [sinceRead_read]
    split
    · rename_i here
      subst here
      refine ⟨fun missing => ?_, fun both => absurd both.2.1 (none f mem both.1)⟩
      cases missing
    · exact h.tagged f mem b flow
  distinct := h.distinct
  flying := fun f mem => ⟨(h.flying f mem).1, fun gone => (h.flying f mem).2 (mem_goneUids_read.1 gone)⟩
  gone := fun u gone => h.gone u (mem_goneUids_read.1 gone)
  entries := by
    intro b x mem
    rw [sinceRead_read] at mem
    split at mem
    · cases mem
    · exact h.entries b x mem
  entriesDistinct := by
    intro b
    rw [sinceRead_read]
    split
    · exact List.nodup_nil
    · exact h.entriesDistinct b

/-- **A batch is read and cleared**, when none of its packets is in flight. -/
theorem Isolated.read (h : Isolated cfg c ns) (timely : ∀ f ∈ c.wire, c.now < f.sent + cfg.batchTime / 2) {batch : UInt8}
    (at_ : c.controllers[i]? = some (c.now, batch)) (um dm : Registers) (report : Report) :
    Isolated cfg { c with um := Function.update c.um batch emptyRegisters, dm := Function.update c.dm batch emptyRegisters,
                          controllers := c.controllers.eraseIdx i } (ns ++ [.read batch um dm report]) where
  scheduled :=
    { h.scheduled with
      beforeControl := fun e mem => h.scheduled.beforeControl e (List.mem_of_mem_eraseIdx mem)
      planned := fun half e mem => h.scheduled.planned half e (List.mem_of_mem_eraseIdx mem)
      waited := fun f mem ip e planned => h.scheduled.waited f mem ip e (List.mem_of_mem_eraseIdx planned) }
  numbered := h.numbered.read (h.scheduled.arrived timely (List.mem_of_getElem? at_)) _ _ _ _ _ _
  um := by
    intro b
    rw [sinceRead_read]
    by_cases here : batch = b
    · subst here
      simp
    · simp only [update_of_ne (Ne.symm here), if_neg here]
      exact h.um b
  dm := by
    intro b
    have same : arrivedFlows c.wire (ns ++ [.read batch um dm report]) b =
        if batch = b then 0 else arrivedFlows c.wire ns b := by
      rw [arrivedFlows, sinceRead_read]
      split
      · rfl
      · exact flowsWhere_congr fun x _ => by rw [mem_goneUids_read]
    rw [same]
    by_cases here : batch = b
    · subst here
      simp
    · simp only [update_of_ne (Ne.symm here), if_neg here]
      exact h.dm b

end

/-! ## Whole runs -/

/-- **Every move keeps the batches isolated**, while no packet is on the wire for half a batch time. -/
theorem Isolated.moves {c c' : Channel} {ns ms : List Note} (h : Isolated cfg c ns) (two : 2 ≤ cfg.numBatches)
    (few : cfg.numBatches ≤ 16) (timely : ∀ f ∈ c.wire, c.now < f.sent + cfg.batchTime / 2) (moves : c.Moves cfg c' ms) :
    Isolated cfg c' (ns ++ ms) := by
  cases moves with
  | idle => rwa [List.append_nil]
  | tick update control =>
    rw [List.append_nil]
    exact { h with scheduled := h.scheduled.tick update control
                   numbered := { h.numbered with } }
  | send pkt =>
    have kept := h.leaves two few (@Leaves.sent c pkt)
    rw [List.append_nil] at kept
    exact kept
  | congested pkt _ =>
    have kept := h.leaves two few (@Leaves.dropped c pkt)
    rw [List.append_nil, List.append_assoc] at kept
    exact kept
  | deliver i f at_ =>
    rw [List.append_nil]
    exact h.deliver at_
  | lose i f at_ => exact h.lose at_
  | update due =>
    rw [List.append_nil]
    exact { h with scheduled := h.scheduled.update two few due
                   numbered := { h.numbered with } }
  | read i batch fuel report at_ _ => exact h.read timely at_ _ _ report

theorem notes_append (d : Bool) (tr os : List Seen) : notes d (tr ++ os) = notes d tr ++ notes d os := by
  simp [notes]

/-- Both directions of a run in which no packet is on the link for half a batch time. -/
theorem isolated_of_run (two : 2 ≤ cfg.numBatches) (few : cfg.numBatches ≤ 16) {first : Bool → Nat} {s : System}
    {tr : List Seen} (run : Lts.Run (step cfg) (fun _ => Timely cfg) (System.start first) s tr) (d : Bool) :
    Isolated cfg (s.channel d) (notes d tr) := by
  refine run.invariant (I := fun s tr => Isolated cfg (s.channel d) (notes d tr)) ?_ ?_
  · exact
      { scheduled := ⟨Nat.zero_le _, by simp [System.channel, System.start], by simp [System.channel, System.start],
          by show 0 < cfg.numBatches; omega, by simp [System.channel, System.start], by simp [System.channel, System.start]⟩
        numbered := ⟨by simp [System.channel, System.start], by simp [System.channel, System.start],
          by simp [System.channel, System.start], by simp [goneUids, lostUids, congestedUids], by simp, by simp⟩
        um := fun _ => rfl
        dm := fun _ => rfl }
  · intro t u tr os l kept timely moved
    rw [notes_append]
    exact kept.moves two few (timely d) (moves_of_step moved d)

end

end Ns3Fancy.LossRadar
