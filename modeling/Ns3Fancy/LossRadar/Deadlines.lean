import Ns3Fancy.LossRadar.Reports

/-!
# Every packet is read in time

A port goes to the next batch every batch time and has the last one read half a batch time later.
So the batch of a packet is read at most one and a half batch times after the packet was metered,
and what the link has done to the packet is settled by then: it is gone or it has arrived.
-/

namespace Ns3Fancy.LossRadar
open Switch Function
set_option autoImplicit false

/-- A log without its times. -/
def untimed (log : List (Nat × Note)) : List Note := log.map (·.2)

@[simp] theorem untimed_append (log more : List (Nat × Note)) : untimed (log ++ more) = untimed log ++ untimed more :=
  List.map_append

@[simp] theorem untimed_map (time : Nat) (ns : List Note) : untimed (ns.map fun n => (time, n)) = ns := by
  simp [untimed]

section
variable (cfg : LossRadarConfig)

/-- When a packet metered at a time has been read. -/
def readBy (time : Nat) : Nat := time + cfg.batchTime + cfg.batchTime / 2

/-- The packet is in a batch that is still to be read in time: the current one, or one that is planned. -/
structure Awaits (c : Channel) (ns : List Note) (time : Nat) (batch : UInt8) (x : Nat × FiveTuple) : Prop where
  unread : x ∈ sinceRead batch ns
  inTime : (batch = c.current ∧ c.nextUpdate ≤ time + cfg.batchTime) ∨
    ∃ e ∈ c.controllers, e.2 = batch ∧ e.1 ≤ readBy cfg time

/-- The controller reads the batch of a packet when the notes are `ns`. -/
structure Reads (ns : List Note) (time at_ : Nat) (batch : UInt8) (x : Nat × FiveTuple) (um dm : Registers)
    (report : Report) : Prop where
  inTime : at_ ≤ readBy cfg time
  unread : x ∈ sinceRead batch ns
  difference : difference cfg um dm = registersOf cfg (goneFlows ns batch)
  ended : ∃ fuel, controller cfg fuel um dm = some report

/-- Nothing happens to the packet any more: it is gone, or not, as it was when the notes were `ns`. -/
structure Settled (c : Channel) (ns now : List Note) (uid : Nat) : Prop where
  old : uid < c.nextUid
  landed : uid ∉ c.wire.map (·.uid)
  gone : uid ∈ goneUids now ↔ uid ∈ goneUids ns

/-- The batch of the packet metered between `pre` and `post` has been read. -/
def WasRead (c : Channel) (pre post : List (Nat × Note)) (time : Nat) (batch : UInt8) (x : Nat × FiveTuple) : Prop :=
  ∃ mid at_ um dm report rest, post = mid ++ (at_, .read batch um dm report) :: rest ∧
    Reads cfg (untimed (pre ++ (time, .metered batch x.1 x.2) :: mid)) time at_ batch x um dm report ∧
    Settled c (untimed (pre ++ (time, .metered batch x.1 x.2) :: mid))
      (untimed (pre ++ (time, .metered batch x.1 x.2) :: post)) x.1

/-- Every packet of the log has been read or will be, in time. -/
structure Tracked (c : Channel) (log : List (Nat × Note)) : Prop where
  isolated : Isolated cfg c (untimed log)
  soon : c.nextUpdate ≤ c.now + cfg.batchTime
  packets : ∀ pre time batch x post, log = pre ++ (time, .metered batch x.1 x.2) :: post →
    Awaits cfg c (untimed log) time batch x ∨ WasRead cfg c pre post time batch x
  reads : ∀ pre at_ batch um dm report post, log = pre ++ (at_, .read batch um dm report) :: post →
    difference cfg um dm = registersOf cfg (goneFlows (untimed pre) batch) ∧ ∃ fuel, controller cfg fuel um dm = some report

variable {cfg}

/-! ## One move -/

/-- A log that grows, split at one of its entries. -/
theorem append_eq_split {α : Type} {log new pre post : List α} {x : α} (split : log ++ new = pre ++ x :: post) :
    (∃ mid, log = pre ++ x :: mid ∧ post = mid ++ new) ∨ ∃ mid, pre = log ++ mid ∧ new = mid ++ x :: post := by
  rcases List.append_eq_append_iff.1 split with ⟨mid, before, after⟩ | ⟨mid, before, after⟩
  · exact .inr ⟨mid, before, after⟩
  · cases mid with
    | nil => exact .inr ⟨[], by simpa using before.symm, after.symm⟩
    | cons y mid =>
      obtain ⟨rfl, rest⟩ := List.cons.inj after
      exact .inl ⟨mid, before, rest⟩

section
variable {c c' : Channel} {ns ms : List Note}

/-- The next update is never further away than a batch time. -/
theorem Channel.Moves.soon (moves : c.Moves cfg c' ms) (soon : c.nextUpdate ≤ c.now + cfg.batchTime) :
    c'.nextUpdate ≤ c'.now + cfg.batchTime := by
  cases moves with
  | tick => show c.nextUpdate ≤ c.now + 1 + cfg.batchTime; omega
  | update => exact Nat.le_refl _
  | idle => exact soon
  | send => exact soon
  | congested => exact soon
  | deliver => exact soon
  | lose => exact soon
  | read => exact soon

/-- A packet is metered into the current batch, which stays the current one. -/
theorem Channel.Moves.awaits_new (moves : c.Moves cfg c' ms) (soon : c.nextUpdate ≤ c.now + cfg.batchTime)
    {batch : UInt8} {x : Nat × FiveTuple} (mem : .metered batch x.1 x.2 ∈ ms) :
    Awaits cfg c' (ns ++ ms) c.now batch x := by
  cases moves with
  | send pkt =>
    by_cases ip : pkt.ipv4 = true
    · obtain ⟨rfl, number, flow⟩ : batch = c.current ∧ x.1 = c.nextUid ∧ x.2 = pkt.flow := by simpa [ip] using mem
      refine ⟨?_, .inl ⟨rfl, soon⟩⟩
      rw [if_pos ip, sinceRead_metered, if_pos rfl, ← number, ← flow]
      exact List.mem_append_right _ (List.mem_singleton_self x)
    · simp [ip] at mem
  | congested pkt positive =>
    by_cases ip : pkt.ipv4 = true
    · obtain ⟨rfl, number, flow⟩ : batch = c.current ∧ x.1 = c.nextUid ∧ x.2 = pkt.flow := by simpa [ip] using mem
      refine ⟨?_, .inl ⟨rfl, soon⟩⟩
      rw [if_pos ip, ← List.append_assoc, sinceRead_congested, sinceRead_metered, if_pos rfl, ← number, ← flow]
      exact List.mem_append_right _ (List.mem_singleton_self x)
    · simp [ip] at mem
  | idle => cases mem
  | tick => cases mem
  | deliver => cases mem
  | lose => simp at mem
  | update => cases mem
  | read => simp at mem

/-- Only a read of its batch takes a packet off the unread ones. -/
theorem Channel.Moves.unread (moves : c.Moves cfg c' ms) {batch : UInt8}
    (other : ∀ um dm report, .read batch um dm report ∉ ms) {x : Nat × FiveTuple} (mem : x ∈ sinceRead batch ns) :
    x ∈ sinceRead batch (ns ++ ms) := by
  have added : ∀ pkt : Packet, x ∈ sinceRead batch (ns ++ noted pkt c.current c.nextUid) := fun pkt => by
    rw [sinceRead_noted]
    exact List.mem_append_left _ mem
  cases moves with
  | send pkt => exact added pkt
  | congested pkt positive =>
    rw [← List.append_assoc, sinceRead_congested]
    exact added pkt
  | lose => rwa [sinceRead_lost]
  | read i b fuel report at_ ended =>
    rw [sinceRead_read]
    split
    · rename_i same
      subst same
      exact absurd List.mem_cons_self (other _ _ _)
    · exact mem
  | idle => rwa [List.append_nil]
  | tick => rwa [List.append_nil]
  | deliver => rwa [List.append_nil]
  | update => rwa [List.append_nil]

/-- A packet that awaits its read goes on to, unless it is read. -/
theorem Awaits.moves {time : Nat} {batch : UInt8} {x : Nat × FiveTuple} (h : Awaits cfg c ns time batch x)
    (moves : c.Moves cfg c' ms) (other : ∀ um dm report, .read batch um dm report ∉ ms) :
    Awaits cfg c' (ns ++ ms) time batch x := by
  refine ⟨moves.unread other h.unread, ?_⟩
  cases moves with
  | update due =>
    rcases h.inTime with ⟨rfl, early⟩ | ⟨e, planned, same, early⟩
    · refine .inr ⟨_, List.mem_append_right _ (List.mem_singleton_self _), rfl, ?_⟩
      show c.now + cfg.batchTime / 2 ≤ time + cfg.batchTime + cfg.batchTime / 2
      omega
    · exact .inr ⟨e, List.mem_append_left _ planned, same, early⟩
  | read i b fuel report at_ ended =>
    rcases h.inTime with current | ⟨e, planned, rfl, early⟩
    · exact .inl current
    · refine .inr ⟨e, ?_, rfl, early⟩
      obtain ⟨j, there⟩ := List.mem_iff_getElem?.1 planned
      refine List.mem_eraseIdx_iff_getElem?.2 ⟨j, ?_, there⟩
      -- the planned read is not the one done now, which is of another batch
      rintro rfl
      rw [at_] at there
      obtain rfl := Option.some.inj there
      exact other _ _ _ List.mem_cons_self
  | idle => exact h.inTime
  | tick => exact h.inTime
  | send => exact h.inTime
  | congested => exact h.inTime
  | deliver => exact h.inTime
  | lose => exact h.inTime

/-- A read of the batch is in time. -/
theorem Awaits.now_le {time : Nat} {batch : UInt8} {x : Nat × FiveTuple} (h : Awaits cfg c ns time batch x)
    (scheduled : Scheduled cfg c) : c.now ≤ readBy cfg time := by
  rcases h.inTime with ⟨-, early⟩ | ⟨e, planned, -, early⟩
  · have before := scheduled.beforeUpdate
    show c.now ≤ time + cfg.batchTime + cfg.batchTime / 2
    omega
  · exact Nat.le_trans (scheduled.beforeControl e planned) early

/-- What is settled stays so. -/
theorem Settled.moves {ns' : List Note} {uid : Nat} (h : Settled c ns' ns uid) (moves : c.Moves cfg c' ms) :
    Settled c' ns' (ns ++ ms) uid := by
  have other : uid ≠ c.nextUid := Nat.ne_of_lt h.old
  have same : ∀ pkt : Packet, uid ∈ goneUids (ns ++ noted pkt c.current c.nextUid) ↔ uid ∈ goneUids ns' := fun pkt => by
    rw [mem_goneUids_noted]
    exact h.gone
  cases moves with
  | send pkt =>
    refine ⟨Nat.lt_succ_of_lt h.old, ?_, same pkt⟩
    rw [List.map_append, List.mem_append]
    rintro (flying | new)
    · exact h.landed flying
    · exact other (List.mem_singleton.1 new)
  | congested pkt positive =>
    refine ⟨Nat.lt_succ_of_lt h.old, h.landed, ?_⟩
    rw [← List.append_assoc, mem_goneUids_append]
    refine Iff.trans ⟨fun either => either.elim id fun new => ?_, .inl⟩ (same pkt)
    exact absurd (by simpa [goneUids, lostUids, congestedUids] using new) other
  | deliver i f at_ =>
    refine ⟨h.old, fun left => h.landed ?_, by rw [List.append_nil]; exact h.gone⟩
    obtain ⟨g, mem, rfl⟩ := List.mem_map.1 left
    exact List.mem_map_of_mem (List.mem_of_mem_eraseIdx mem)
  | lose i f at_ =>
    refine ⟨h.old, fun left => h.landed ?_, ?_⟩
    · obtain ⟨g, mem, rfl⟩ := List.mem_map.1 left
      exact List.mem_map_of_mem (List.mem_of_mem_eraseIdx mem)
    · rw [mem_goneUids_lost]
      refine Iff.trans ⟨fun either => either.elim id fun lost => ?_, .inl⟩ h.gone
      exact absurd (lost ▸ List.mem_map_of_mem (List.mem_of_getElem? at_)) h.landed
  | read =>
    refine ⟨h.old, h.landed, ?_⟩
    rw [mem_goneUids_read]
    exact h.gone
  | idle => exact ⟨h.old, h.landed, by rw [List.append_nil]; exact h.gone⟩
  | tick => exact ⟨h.old, h.landed, by rw [List.append_nil]; exact h.gone⟩
  | update => exact ⟨h.old, h.landed, by rw [List.append_nil]; exact h.gone⟩

/-- A packet of the batch that is due is settled. -/
theorem Isolated.settled (h : Isolated cfg c ns) (timely : ∀ f ∈ c.wire, c.now < f.sent + cfg.batchTime / 2)
    {batch : UInt8} (due : (c.now, batch) ∈ c.controllers) {x : Nat × FiveTuple} (unread : x ∈ sinceRead batch ns) :
    Settled c ns ns x.1 where
  old := h.numbered.entries batch x unread
  landed := by
    intro flying
    obtain ⟨f, mem, same⟩ := List.mem_map.1 flying
    obtain ⟨ip, here, -⟩ := (h.numbered.tagged f mem batch x.2).1 (by rw [same]; exact unread)
    exact h.scheduled.arrived timely due f mem ip here
  gone := Iff.rfl

/-- What is metered is not shown together with a read. -/
theorem Channel.Moves.read_alone (moves : c.Moves cfg c' ms) {batch : UInt8} {um dm : Registers} {report : Report}
    (mem : .read batch um dm report ∈ ms) : ms = [.read batch um dm report] := by
  cases moves with
  | read i b fuel r at_ ended => rw [List.mem_singleton.1 mem]
  | send pkt => cases ip : pkt.ipv4 <;> simp [ip] at mem
  | congested pkt positive => cases ip : pkt.ipv4 <;> simp [ip] at mem
  | lose => simp at mem
  | idle => cases mem
  | tick => cases mem
  | deliver => cases mem
  | update => cases mem

end

/-! ## Whole runs -/

theorem WasRead.moves {c c' : Channel} {ms : List Note} {pre post : List (Nat × Note)} {time : Nat} {batch : UInt8}
    {x : Nat × FiveTuple} (h : WasRead cfg c pre post time batch x) (moves : c.Moves cfg c' ms) :
    WasRead cfg c' pre (post ++ ms.map fun n => (c.now, n)) time batch x := by
  obtain ⟨mid, at_, um, dm, report, rest, rfl, reads, settled⟩ := h
  refine ⟨mid, at_, um, dm, report, rest ++ ms.map fun n => (c.now, n), by simp, reads, ?_⟩
  have kept := settled.moves moves
  rwa [← untimed_map c.now ms, ← untimed_append, List.append_assoc] at kept

/-- **A packet that awaits its read is read, or goes on to await it.** -/
theorem Tracked.awaiting {c c' : Channel} {ms : List Note} {log : List (Nat × Note)} (h : Tracked cfg c log)
    (timely : ∀ f ∈ c.wire, c.now < f.sent + cfg.batchTime / 2) (moves : c.Moves cfg c' ms)
    {pre post : List (Nat × Note)} {time : Nat} {batch : UInt8} {x : Nat × FiveTuple}
    (split : log = pre ++ (time, .metered batch x.1 x.2) :: post) (awaits : Awaits cfg c (untimed log) time batch x) :
    Awaits cfg c' (untimed log ++ ms) time batch x ∨
      WasRead cfg c' pre (post ++ ms.map fun n => (c.now, n)) time batch x := by
  by_cases read : ∃ um dm report, .read batch um dm report ∈ ms
  · right
    obtain ⟨um, dm, report, mem⟩ := read
    obtain ⟨due, rfl, rfl, ended⟩ := moves.reads mem
    have settled := (h.isolated.settled timely due awaits.unread).moves moves
    refine ⟨post, c.now, _, _, report, [], by rw [moves.read_alone mem]; rfl, ?_, ?_⟩
    · rw [← split]
      exact ⟨awaits.now_le h.isolated.scheduled, awaits.unread, h.isolated.difference timely due, ended⟩
    · rwa [← untimed_map c.now ms, ← untimed_append, split, List.append_assoc] at settled
  · left
    exact awaits.moves moves fun um dm report mem => read ⟨um, dm, report, mem⟩

/-- **Every move keeps the packets tracked.** -/
theorem Tracked.moves {c c' : Channel} {ms : List Note} {log : List (Nat × Note)} (h : Tracked cfg c log)
    (two : 2 ≤ cfg.numBatches) (few : cfg.numBatches ≤ 16)
    (timely : ∀ f ∈ c.wire, c.now < f.sent + cfg.batchTime / 2) (moves : c.Moves cfg c' ms) :
    Tracked cfg c' (log ++ ms.map fun n => (c.now, n)) where
  isolated := by
    rw [untimed_append, untimed_map]
    exact h.isolated.moves two few timely moves
  soon := moves.soon h.soon
  packets := by
    intro pre time batch x post split
    rw [untimed_append, untimed_map]
    rcases append_eq_split split with ⟨mid, old, rfl⟩ | ⟨mid, -, new⟩
    · rcases h.packets pre time batch x mid old with awaits | read
      · exact h.awaiting timely moves old awaits
      · exact .inr (read.moves moves)
    · have mem : (time, Note.metered batch x.1 x.2) ∈ ms.map fun n => (c.now, n) := by
        rw [new]
        exact List.mem_append_right _ List.mem_cons_self
      obtain ⟨n, shown, same⟩ := List.mem_map.1 mem
      obtain ⟨rfl, rfl⟩ := Prod.mk.inj same
      exact .inl (moves.awaits_new h.soon shown)
  reads := by
    intro pre at_ batch um dm report post split
    rcases append_eq_split split with ⟨mid, old, -⟩ | ⟨mid, rfl, new⟩
    · exact h.reads pre at_ batch um dm report mid old
    · have mem : (at_, Note.read batch um dm report) ∈ ms.map fun n => (c.now, n) := by
        rw [new]
        exact List.mem_append_right _ List.mem_cons_self
      obtain ⟨n, shown, same⟩ := List.mem_map.1 mem
      obtain ⟨rfl, rfl⟩ := Prod.mk.inj same
      obtain ⟨due, rfl, rfl, ended⟩ := moves.reads shown
      -- nothing is shown before the read
      rw [moves.read_alone shown, List.map_singleton] at new
      have alone : mid = [] := by
        cases mid with
        | nil => rfl
        | cons y mid => simpa using (List.cons.inj new).2
      rw [alone, List.append_nil]
      exact ⟨h.isolated.difference timely due, ended⟩

/-- When the time is over, the packet has been read. -/
theorem Tracked.wasRead {c : Channel} {log pre post : List (Nat × Note)} (h : Tracked cfg c log) {time : Nat} {batch : UInt8}
    {x : Nat × FiveTuple} (split : log = pre ++ (time, .metered batch x.1 x.2) :: post) (passed : readBy cfg time < c.now) :
    WasRead cfg c pre post time batch x := by
  rcases h.packets pre time batch x post split with awaits | read
  · have := awaits.now_le h.isolated.scheduled
    omega
  · exact read

/-! ## What the report says of a packet -/

/-- The report lists packets that are gone, all of them when it says that it decoded everything. -/
structure Blames (gone : Multiset FiveTuple) (report : Report) : Prop where
  part : (report.packetsLost : Multiset FiveTuple) ≤ gone
  counted : report.packetsLost.length + report.nonDetected.toNat = gone.card

/-- **What the controller reports** when the difference is the filter of what is gone. -/
theorem blames_of_difference (hashes : 1 ≤ cfg.numHashes) {gone : Multiset FiveTuple} {um dm : Registers}
    {fuel : Nat} {report : Report} (diff : difference cfg um dm = registersOf cfg gone)
    (small : cfg.numHashes * gone.card < 2 ^ 32) (run : controller cfg fuel um dm = some report) :
    Blames gone report := by
  obtain ⟨d, R, ended, decodes, -⟩ := @converges_registersOf cfg _ small (cellOrder cfg)
  obtain ⟨d', peeled, rfl⟩ := Option.map_eq_some_iff.1 run
  rw [diff] at peeled
  obtain rfl : d' = d := Converges.unique ⟨fuel, peeled⟩ ⟨_, ended⟩
  have left : cfg.numHashes * R.card < 2 ^ 32 :=
    Nat.lt_of_le_of_lt (Nat.mul_le_mul_left _ (Multiset.card_le_card decodes.le)) small
  constructor
  · rw [← decodes.peels.conserves]
    exact Multiset.le_add_right _ _
  · simp only [nonDetectedPackets_eq, decodes.regs, total_div hashes left]
    rw [← decodes.peels.conserves, Multiset.card_add, Multiset.coe_card]

/-- A packet that is gone is listed, unless the report says that it could not decode everything. -/
theorem Blames.mem {gone : Multiset FiveTuple} {report : Report} (h : Blames gone report)
    (all : report.nonDetected = 0) {flow : FiveTuple} (mem : flow ∈ gone) : flow ∈ report.packetsLost := by
  have whole : gone.card ≤ (report.packetsLost : Multiset FiveTuple).card := by
    rw [← h.counted, all]
    exact Nat.le_refl _
  rw [← Multiset.eq_of_le_of_card_le h.part whole] at mem
  exact mem

/-- The flow of a packet that is gone is among those that are. -/
theorem mem_goneFlows {ns : List Note} {batch : UInt8} {x : Nat × FiveTuple} (unread : x ∈ sinceRead batch ns)
    (gone : x.1 ∈ goneUids ns) : x.2 ∈ goneFlows ns batch := by
  rw [goneFlows, flowsAmong, Multiset.mem_coe]
  exact List.mem_map_of_mem (List.mem_filter.2 ⟨unread, by simpa using gone⟩)

end

end Ns3Fancy.LossRadar
