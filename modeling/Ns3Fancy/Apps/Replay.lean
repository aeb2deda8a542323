import Mathlib.Tactic.Linarith
import Mathlib.Tactic.Ring
import Ns3Fancy.Lts.Chain
import Ns3Fancy.Buffer.Bytes

/-!
# The generators that replay

`TraceSendApplication` sends the records of a file and `RawSendApplication` a computed number of packets. Both stop on an
equality of a counter that was already changed, and both schedule themselves again after a delay.
-/

namespace Ns3Fancy.Apps
open Lts Buffer
set_option autoImplicit false

/-! ## The simulator -/

/-- `Simulator::Schedule`: the time of the event. No result is a negative delay, which an assertion forbids, or an overflow of
the clock, which has 64 bits with a sign. -/
def schedule (now delay : Int) : Option Int := if 0 ≤ delay ∧ now + delay < 2 ^ 63 then some (now + delay) else none

/-- `PicoSeconds` of an unsigned number, which becomes a signed one. -/
def picoSeconds (value : UInt64) : Int := (value.toNat : Int).bmod (2 ^ 64)

theorem schedule_eq_some {now delay later : Int} :
    schedule now delay = some later ↔ (0 ≤ delay ∧ now + delay < 2 ^ 63) ∧ now + delay = later := by
  simp only [schedule, Option.ite_none_right_eq_some, Option.some.injEq]

/-! ## The trace -/

/-- `packet`, a record of the file. -/
structure TracePacket where
  ts : Nat := 0
  dst : Nat := 0
  size : Nat := 0
  deriving DecidableEq

/-- A record read into a packet of zeros; the file may end within it. -/
def readPacket (file : Bytes) : TracePacket where
  ts := valueLE (file.take 8)
  dst := valueLE ((file.drop 8).take 4)
  size := valueLE ((file.drop 12).take 2)

/-- The loop of `LoadBinaryFile`, by how often it may still run. No result is a count of bytes that overflows. -/
def readPackets (length : Int) : Nat → Int → Bytes → Option (List TracePacket)
  | 0, _, _ => none
  | rest + 1, readBytes, file =>
    if readBytes < length then
      if readBytes + 14 < 2 ^ 31 then
        (readPackets length rest (readBytes + 14) (file.drop 14)).map fun packets => readPacket file :: packets
      else none
    else some []

/-- `LoadBinaryFile`: the packets of the file, none if it cannot be opened. `length` is an `int`. -/
def loadBinaryFile (file : Option Bytes) : Option (List TracePacket) :=
  match file with
  | none => some []
  | some file => readPackets ((file.length : Int).bmod (2 ^ 32)) (file.length + 1) 0 file

/-- What `CreateTcpSynPacket` makes of its arguments. -/
structure SynPacket where
  srcPort : Nat
  dstPort : Nat
  payload : Nat
  dst : Nat
  tos : Nat
  identification : Nat
  deriving DecidableEq

/-- The packet of a record, as the `sentPackets`-th. -/
def createTcpSynPacket (prefixesToFail : Nat → Bool) (sentPackets : Nat) (data : TracePacket) : SynPacket where
  srcPort := 5555
  dstPort := 7777
  payload := data.size - 58
  dst := data.dst &&& 0xffffff00
  tos := if prefixesToFail (data.dst &&& 0xffffff00) then 1 else 0
  identification := sentPackets &&& 0xffff

/-- The delay between two records, in picoseconds: their difference in nanoseconds, as unsigned numbers, times
`m_parsed_scaling`. `scaled` is this product of a number with a double, as an unsigned number again. -/
def traceDelay (scaled : UInt64 → Option UInt64) (data next : TracePacket) : Option Int :=
  (scaled ((UInt64.ofNat next.ts - UInt64.ofNat data.ts) * 1000)).map picoSeconds

/-- The count of packets sent, and the time. -/
structure TraceState where
  sentPackets : Nat := 0
  now : Int

/-- `SendPackets`: the packet sent, and the state with which it is scheduled again. No result is a read past the packets or an
event that cannot be scheduled. -/
def sendTrace (prefixesToFail : Nat → Bool) (scaled : UInt64 → Option UInt64) (packets : List TracePacket) (s : TraceState) :
    Option (SynPacket × Option TraceState) :=
  (packets[s.sentPackets]?).bind fun data =>
    let sent := createTcpSynPacket prefixesToFail s.sentPackets data
    if s.sentPackets + 1 = packets.length then some (sent, none)
    else (packets[s.sentPackets + 1]?).bind fun next => (traceDelay scaled data next).bind fun delay =>
      (schedule s.now delay).map fun later => (sent, some { sentPackets := s.sentPackets + 1, now := later })

/-- The records of a file that are complete. -/
def completeRecords (file : Bytes) : List TracePacket :=
  (List.range (file.length / 14)).map fun i => readPacket ((file.drop (14 * i)).take 14)

/-- **The trace as it should be sent**: one packet for each complete record of the file, in order, and then nothing. -/
def ReplaysTrace (prefixesToFail : Nat → Bool) (scaled : UInt64 → Option UInt64) (now : Int) (file : Option Bytes) : Prop :=
  ∃ packets, loadBinaryFile file = some packets ∧ Chain (sendTrace prefixesToFail scaled packets) { now := now }
    ((completeRecords (file.getD [])).mapIdx (createTcpSynPacket prefixesToFail))

/-- Every packet but the first can be scheduled after the one before it. -/
def inTime (scaled : UInt64 → Option UInt64) : Int → List TracePacket → Bool
  | now, data :: next :: rest =>
    ((traceDelay scaled data next).bind (schedule now)).any fun later => inTime scaled later (next :: rest)
  | _, [] | _, [_] => true

section
variable {prefixesToFail : Nat → Bool} {scaled : UInt64 → Option UInt64} {packets : List TracePacket} {file : Bytes}
  {length readBytes : Int} {rest : Nat}

/-- From any packet on, the others are sent if they can be scheduled. -/
theorem sendTrace_chain (before : List TracePacket) (data : TracePacket) (later : List TracePacket) (now : Int)
    (sent : List SynPacket) :
    Chain (sendTrace prefixesToFail scaled (before ++ data :: later)) { sentPackets := before.length, now := now } sent ↔
      inTime scaled now (data :: later) = true ∧
        sent = (data :: later).mapIdx fun i => createTcpSynPacket prefixesToFail (before.length + i) := by
  induction later generalizing before data now sent with
  | nil =>
    have stops : sendTrace prefixesToFail scaled (before ++ [data]) { sentPackets := before.length, now := now } =
        some (createTcpSynPacket prefixesToFail before.length data, none) := by
      simp [sendTrace]
    rw [Chain.stop_iff stops]
    simp [inTime]
  | cons next later ih =>
    have goes : sendTrace prefixesToFail scaled (before ++ data :: next :: later)
        { sentPackets := before.length, now := now } =
          ((traceDelay scaled data next).bind (schedule now)).map fun t =>
            (createTcpSynPacket prefixesToFail before.length data, some { sentPackets := before.length + 1, now := t }) := by
      cases delay : traceDelay scaled data next <;> simp [sendTrace, delay]
    cases time : (traceDelay scaled data next).bind (schedule now) with
    | none =>
      rw [time, Option.map_none] at goes
      refine iff_of_false (Chain.not_of_none goes) ?_
      rintro ⟨inTime_, -⟩
      simp [inTime, time] at inTime_
    | some t =>
      rw [time, Option.map_some] at goes
      have rest := ih (before ++ [data]) next t
      rw [List.append_assoc, List.length_append] at rest
      rw [Chain.next_iff goes]
      simp only [inTime, time, Option.any_some, List.mapIdx_cons, Nat.add_zero]
      constructor
      · rintro ⟨others, rfl, chain⟩
        obtain ⟨inTime_, rfl⟩ := (rest others).1 chain
        exact ⟨inTime_, by simp [Nat.add_assoc, Nat.add_comm 1]⟩
      · rintro ⟨inTime_, rfl⟩
        refine ⟨_, rfl, (rest _).2 ⟨inTime_, ?_⟩⟩
        simp [Nat.add_assoc, Nat.add_comm 1]

/-- All packets are sent, if there is one and each can be scheduled. -/
theorem sendTrace_chain_start (now : Int) (sent : List SynPacket) :
    Chain (sendTrace prefixesToFail scaled packets) { now := now } sent ↔
      packets ≠ [] ∧ inTime scaled now packets = true ∧ sent = packets.mapIdx (createTcpSynPacket prefixesToFail) := by
  cases packets with
  | nil =>
    -- the first packet is read before anything is tested
    refine iff_of_false (Chain.not_of_none rfl) ?_
    rintro ⟨some_, -⟩
    exact some_ rfl
  | cons data later =>
    have chain := @sendTrace_chain prefixesToFail scaled [] data later now sent
    simp only [List.nil_append, List.length_nil, Nat.zero_add] at chain
    rw [chain]
    simp

/-- How many packets are read: one for each record that is begun. -/
theorem length_readPackets (read : readPackets length rest readBytes file = some packets) :
    length - readBytes ≤ 14 * packets.length ∧ (packets ≠ [] → 14 * ((packets.length : Int) - 1) < length - readBytes) := by
  induction rest generalizing readBytes file packets with
  | zero => cases read
  | succ rest ih =>
    unfold readPackets at read
    split at read
    · split at read
      · obtain ⟨more, tail, rfl⟩ := Option.map_eq_some_iff.1 read
        obtain ⟨enough, needed⟩ := ih tail
        rw [List.length_cons]
        refine ⟨by omega, fun _ => ?_⟩
        cases more with
        | nil =>
          simp only [List.length_nil]
          omega
        | cons packet more =>
          have needed := needed (List.cons_ne_nil _ _)
          omega
      · cases read
    · obtain rfl := Option.some.inj read
      refine ⟨?_, fun some_ => absurd rfl some_⟩
      simp only [List.length_nil]
      omega

/-- A file of complete records. -/
theorem readPackets_complete {n : Nat} (whole : length - readBytes = 14 * n) (small : length < 2 ^ 31) (enough : n < rest) :
    readPackets length rest readBytes file = some ((List.range n).map fun i => readPacket (file.drop (14 * i))) := by
  induction rest generalizing readBytes file n with
  | zero => omega
  | succ rest ih =>
    unfold readPackets
    cases n with
    | zero =>
      rw [if_neg (by omega)]
      rfl
    | succ n =>
      rw [if_pos (by omega), if_pos (by omega), ih (n := n) (by omega) (by omega)]
      rw [Option.map_some, List.range_succ_eq_map, List.map_cons, List.map_map, Nat.mul_zero, List.drop_zero]
      congr 2
      apply List.map_congr_left
      intro i _
      show readPacket ((file.drop 14).drop (14 * i)) = readPacket (file.drop (14 * (i + 1)))
      rw [List.drop_drop]
      congr 2
      omega

/-- A record is what its bytes are, whatever follows. -/
theorem readPacket_take (file : Bytes) : readPacket (file.take 14) = readPacket file := by
  unfold readPacket
  rw [List.drop_take, List.drop_take, List.take_take, List.take_take, List.take_take]
  rfl

theorem length_completeRecords (file : Bytes) : (completeRecords file).length = file.length / 14 := by
  rw [completeRecords, List.length_map, List.length_range]

/-- **The traces that are sent as they should be**: files of complete records, of one at least, each of which can be scheduled
after the one before. -/
theorem replaysTrace_iff (prefixesToFail : Nat → Bool) (scaled : UInt64 → Option UInt64) (now : Int) (file : Option Bytes) :
    ReplaysTrace prefixesToFail scaled now file ↔ ∃ bytes, file = some bytes ∧ 0 < bytes.length ∧ bytes.length % 14 = 0 ∧
      bytes.length < 2 ^ 31 ∧ inTime scaled now (completeRecords bytes) = true := by
  have complete : ∀ bytes : Bytes, 0 < bytes.length → bytes.length % 14 = 0 → bytes.length < 2 ^ 31 →
      loadBinaryFile (some bytes) = some (completeRecords bytes) := by
    intro bytes positive whole small
    have length : ((bytes.length : Int).bmod (2 ^ 32) : Int) = bytes.length := by
      apply Int.bmod_eq_of_le <;> omega
    have records : completeRecords bytes = (List.range (bytes.length / 14)).map fun i => readPacket (bytes.drop (14 * i)) := by
      unfold completeRecords
      simp only [readPacket_take]
    rw [records]
    show readPackets ((bytes.length : Int).bmod (2 ^ 32)) (bytes.length + 1) 0 bytes = _
    rw [length]
    exact readPackets_complete (by omega) (by omega) (by omega)
  constructor
  · rintro ⟨packets, loaded, chain⟩
    obtain ⟨some_, inTime_, sent⟩ := (sendTrace_chain_start now _).1 chain
    have positive := List.length_pos_of_ne_nil some_
    have same := congrArg List.length sent
    rw [List.length_mapIdx, List.length_mapIdx, length_completeRecords] at same
    cases file with
    | none =>
      obtain rfl : [] = packets := Option.some.inj loaded
      cases positive
    | some bytes =>
      obtain ⟨enough, needed⟩ := length_readPackets loaded
      have needed := needed some_
      rw [Option.getD_some] at same
      have value : ((bytes.length : Int).bmod (2 ^ 32) : Int) = bytes.length % 2 ^ 32 ∨
          ((bytes.length : Int).bmod (2 ^ 32) : Int) = bytes.length % 2 ^ 32 - 2 ^ 32 := by
        rw [Int.bmod_def]
        split
        · exact Or.inl rfl
        · exact Or.inr rfl
      have most : ((bytes.length : Int).bmod (2 ^ 32) : Int) < 2 ^ 31 := by
        have := Int.bmod_lt (x := (bytes.length : Int)) (m := 2 ^ 32) (by decide)
        omega
      have bounds : 0 < bytes.length ∧ bytes.length % 14 = 0 ∧ bytes.length < 2 ^ 31 := by
        refine ⟨?_, ?_, ?_⟩ <;> omega
      obtain ⟨begun, whole, small⟩ := bounds
      obtain rfl := Option.some.inj (loaded.symm.trans (complete bytes begun whole small))
      exact ⟨bytes, rfl, begun, whole, small, inTime_⟩
  · rintro ⟨bytes, rfl, positive, whole, small, inTime_⟩
    have some_ : completeRecords bytes ≠ [] := by
      refine List.ne_nil_of_length_pos ?_
      rw [length_completeRecords]
      omega
    exact ⟨completeRecords bytes, complete bytes positive whole small, (sendTrace_chain_start now _).2 ⟨some_, inTime_, rfl⟩⟩

end

/-! ## The raw sender -/

/-- The packets left to send, the flow of the next one, and the time. -/
structure RawState where
  nPackets : UInt32
  packetIndex : UInt32
  now : Int

/-- `SendPackets`: the flow whose packet is sent, and the state with which it is scheduled again. After the last flow the
packets are made again, for the same flows. -/
def sendRaw (nFlows : UInt32) (nextTx : Int) (s : RawState) : Option (UInt32 × Option RawState) :=
  if s.packetIndex < nFlows then
    let nPackets := s.nPackets - 1
    if nPackets = 0 then some (s.packetIndex, none)
    else (schedule s.now nextTx).map fun later =>
      (s.packetIndex, some { nPackets := nPackets, packetIndex := (s.packetIndex + 1) % nFlows, now := later })
  else none

/-- `StartApplication`, with the number of packets that it computes; without flows it stops before. No result is more flows to
drop than flows, which an assertion of `RandomInitializePackets` forbids. -/
def startRaw (nFlows nDrops nPackets : UInt32) (now : Int) : Option (Option RawState) :=
  if nFlows = 0 then some none
  else if nDrops ≤ nFlows then some (some { nPackets := nPackets, packetIndex := 0, now := now })
  else none

/-- **The flows as they should be sent**: as many packets as computed, from the flows in turn, and then nothing. -/
def ReplaysRaw (nFlows nDrops nPackets : UInt32) (nextTx now : Int) : Prop :=
  ∃ started, startRaw nFlows nDrops nPackets now = some started ∧ ∀ s, started = some s →
    Chain (sendRaw nFlows nextTx) s ((List.range nPackets.toNat).map fun i => UInt32.ofNat (i % nFlows.toNat))

/-- After the first of `n` packets each can be scheduled after the one before. -/
def rawInTime (n : Nat) (nextTx now : Int) : Prop := 1 < n → 0 ≤ nextTx ∧ now + (n - 1) * nextTx < 2 ^ 63

section
variable {nFlows : UInt32} {nextTx : Int}

/-- Counting down from `n` sends `n` packets, if they can be scheduled; a count of 0 is one of 2^32. -/
theorem sendRaw_chain (flows : nFlows ≠ 0) {n : Nat} (positive : 0 < n) (small : n ≤ 2 ^ 32) (j : Nat) (now : Int)
    (sent : List UInt32) :
    Chain (sendRaw nFlows nextTx)
      { nPackets := UInt32.ofNat n, packetIndex := UInt32.ofNat (j % nFlows.toNat), now := now } sent ↔
        rawInTime n nextTx now ∧ sent = (List.range' j n).map fun i => UInt32.ofNat (i % nFlows.toNat) := by
  have some_ : 0 < nFlows.toNat := Nat.pos_of_ne_zero fun none => flows (UInt32.toNat_inj.1 none)
  have bound := nFlows.toNat_lt
  have one : (1 : UInt32).toNat = 1 := rfl
  have index : ∀ i, (UInt32.ofNat (i % nFlows.toNat)).toNat = i % nFlows.toNat := by
    intro i
    have below := Nat.mod_lt i some_
    rw [UInt32.toNat_ofNat']
    omega
  have inside : ∀ i, UInt32.ofNat (i % nFlows.toNat) < nFlows := by
    intro i
    rw [UInt32.lt_iff_toNat_lt, index]
    exact Nat.mod_lt i some_
  induction n generalizing j now sent with
  | zero => cases positive
  | succ n ih =>
    have left : (UInt32.ofNat (n + 1) - 1).toNat = n := by
      rw [UInt32.toNat_sub, UInt32.toNat_ofNat', one]
      omega
    cases n with
    | zero =>
      have stops : sendRaw nFlows nextTx
          { nPackets := UInt32.ofNat (0 + 1), packetIndex := UInt32.ofNat (j % nFlows.toNat), now := now } =
          some (UInt32.ofNat (j % nFlows.toNat), none) := by
        rw [sendRaw, if_pos (inside j)]
        dsimp only
        exact if_pos (by decide)
      rw [Chain.stop_iff stops]
      simp [rawInTime]
    | succ n =>
      have again : UInt32.ofNat (n + 1 + 1) - 1 ≠ 0 := by
        intro stops
        rw [stops] at left
        cases left
      have next : UInt32.ofNat (n + 1 + 1) - 1 = UInt32.ofNat (n + 1) := by
        apply UInt32.toNat_inj.1
        rw [left, UInt32.toNat_ofNat']
        omega
      have turn : (UInt32.ofNat (j % nFlows.toNat) + 1) % nFlows = UInt32.ofNat ((j + 1) % nFlows.toNat) := by
        apply UInt32.toNat_inj.1
        have below := Nat.mod_lt j some_
        rw [UInt32.toNat_mod, UInt32.toNat_add, index, index, one, Nat.mod_eq_of_lt (a := j % nFlows.toNat + 1) (by omega),
          Nat.mod_add_mod]
      have goes : sendRaw nFlows nextTx
          { nPackets := UInt32.ofNat (n + 1 + 1), packetIndex := UInt32.ofNat (j % nFlows.toNat), now := now } =
            (schedule now nextTx).map fun later => (UInt32.ofNat (j % nFlows.toNat),
              some
                { nPackets := UInt32.ofNat (n + 1), packetIndex := UInt32.ofNat ((j + 1) % nFlows.toNat), now := later }) := by
        rw [sendRaw, if_pos (inside j)]
        dsimp only
        rw [if_neg again, next, turn]
      have split : now + nextTx + (n : Int) * nextTx = now + ((n : Int) + 1) * nextTx := by ring
      cases time : schedule now nextTx with
      | none =>
        rw [time, Option.map_none] at goes
        refine iff_of_false (Chain.not_of_none goes) ?_
        rintro ⟨inTime_, -⟩
        obtain ⟨nonneg, less⟩ := inTime_ (by omega)
        have more : 0 ≤ (n : Int) * nextTx := Int.mul_nonneg (Int.natCast_nonneg n) nonneg
        push_cast at less
        have fits : schedule now nextTx = some (now + nextTx) := schedule_eq_some.2 ⟨⟨nonneg, by linarith⟩, rfl⟩
        rw [fits] at time
        cases time
      | some later =>
        rw [time, Option.map_some] at goes
        obtain ⟨⟨nonneg, less⟩, rfl⟩ := schedule_eq_some.1 time
        have same : rawInTime (n + 1) nextTx (now + nextTx) ↔ rawInTime (n + 1 + 1) nextTx now := by
          simp only [rawInTime]
          push_cast
          constructor
          · intro rest _
            refine ⟨nonneg, ?_⟩
            by_cases last : n = 0
            · subst last
              simpa using less
            · have := (rest (by omega)).2
              linarith
          · intro whole _
            have := (whole (by omega)).2
            exact ⟨nonneg, by linarith⟩
        rw [Chain.next_iff goes, ← same, List.range'_succ, List.map_cons]
        constructor
        · rintro ⟨others, rfl, chain⟩
          obtain ⟨inTime_, rfl⟩ := (ih (by omega) (by omega) (j + 1) (now + nextTx) others).1 chain
          exact ⟨inTime_, rfl⟩
        · rintro ⟨inTime_, rfl⟩
          exact ⟨_, rfl, (ih (by omega) (by omega) (j + 1) (now + nextTx) _).2 ⟨inTime_, rfl⟩⟩

/-- **The flows that are sent as they should be**: all, unless no packet is to be sent, more flows are to be dropped than there
are, or the clock overflows. -/
theorem replaysRaw_iff (nFlows nDrops nPackets : UInt32) (nextTx now : Int) : ReplaysRaw nFlows nDrops nPackets nextTx now ↔
    nFlows = 0 ∨ nDrops ≤ nFlows ∧ nPackets ≠ 0 ∧ rawInTime nPackets.toNat nextTx now := by
  by_cases flows : nFlows = 0
  · have stopped : startRaw nFlows nDrops nPackets now = some none := if_pos flows
    refine iff_of_true ⟨none, stopped, fun s started => ?_⟩ (Or.inl flows)
    cases started
  · rw [or_iff_right flows]
    by_cases drops : nDrops ≤ nFlows
    · have starts : startRaw nFlows nDrops nPackets now =
        some (some { nPackets := nPackets, packetIndex := 0, now := now }) := by
        rw [startRaw, if_neg flows, if_pos drops]
      constructor
      · rintro ⟨started, same, replays⟩
        obtain rfl := Option.some.inj (starts.symm.trans same)
        have chain := replays _ rfl
        have some_ : nPackets ≠ 0 := by
          rintro rfl
          exact chain.ne_nil rfl
        have positive : 0 < nPackets.toNat := Nat.pos_of_ne_zero fun none => some_ (UInt32.toNat_inj.1 none)
        have counted := (sendRaw_chain flows positive nPackets.toNat_lt.le 0 now _).1 (by
          rw [UInt32.ofNat_toNat, Nat.zero_mod]
          exact chain)
        exact ⟨drops, some_, counted.1⟩
      · rintro ⟨-, some_, inTime_⟩
        refine ⟨_, starts, fun s started => ?_⟩
        cases started
        have positive : 0 < nPackets.toNat := Nat.pos_of_ne_zero fun none => some_ (UInt32.toNat_inj.1 none)
        have chain := (@sendRaw_chain nFlows nextTx flows _ positive nPackets.toNat_lt.le 0 now _).2 ⟨inTime_, rfl⟩
        rw [UInt32.ofNat_toNat, Nat.zero_mod, ← List.range_eq_range'] at chain
        exact chain
    · have stopped : startRaw nFlows nDrops nPackets now = none := by
        rw [startRaw, if_neg flows, if_neg drops]
      refine iff_of_false ?_ fun holds => drops holds.1
      rintro ⟨started, same, -⟩
      rw [stopped] at same
      cases same

end

/-- Two records of which the second is a second older than the first, in nanoseconds. -/
def backwards : Bytes := writeLE 8 1000000000 ++ List.replicate 6 0 ++ List.replicate 14 0

end Ns3Fancy.Apps
