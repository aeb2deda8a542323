import Ns3Fancy.NetDevice.Replication
import Mathlib.Logic.Function.Basic

/-!
# The learning switch

`P4SwitchNetDevice` without a pipeline of its own is a learning switch: `DoIngress` runs `L2Learning`, which learns the port of
the source and picks the port learned for the destination, or floods. The frame then takes the same way through
`TrafficManager` as every other packet.
-/

namespace Ns3Fancy.NetDevice
open Function
set_option autoImplicit false

/-! ## Frames -/

/-- A `Mac48Address` by its number, the first byte in front. -/
def isGroup (address : UInt64) : Bool := (address >>> 40) &&& 1 == 1

def broadcastAddress : UInt64 := 0xffffffffffff

/-- `NetDevice::PacketType`, by its value. -/
inductive PacketType where
  | host | broadcast | multicast | otherhost
  deriving DecidableEq

def PacketType.value : PacketType → Nat
  | host => 1
  | broadcast => 2
  | multicast => 3
  | otherhost => 4

structure Frame (π : Type) where
  src : UInt64
  dst : UInt64
  protocol : UInt16
  packet : π

/-- How the port with the given address classifies a frame. -/
def classify (portAddress dst : UInt64) : PacketType :=
  if dst = broadcastAddress then .broadcast
  else if isGroup dst then .multicast
  else if dst = portAddress then .host
  else .otherhost

/-! ## The table -/

structure LearnedState where
  associatedPort : Option Nat
  expirationTime : Int

/-- What does not change of the device: `m_address`, `m_ports` and the attributes. -/
structure L2Config where
  address : UInt64
  ports : List Nat
  enableLearning : Bool := true
  expirationTime : Int := 300000000000

/-- `m_learnState` -/
abbrev LearnTable := UInt64 → Option LearnedState

variable {π : Type} (cfg : L2Config) (now : Int)

def learn (source : UInt64) (port : Option Nat) (table : LearnTable) : LearnTable :=
  if cfg.enableLearning then
    update table source (some { associatedPort := port, expirationTime := now + cfg.expirationTime })
  else table

/-- The port of an address, or null; an entry that has expired is erased. -/
def getLearnedState (source : UInt64) (table : LearnTable) : LearnTable × Option Nat :=
  if cfg.enableLearning then
    match table source with
    | some state => if state.expirationTime > now then (table, state.associatedPort) else (update table source none, none)
    | none => (table, none)
  else (table, none)

/-! ## Receiving -/

def forwardUnicast (src dst : UInt64) (table : LearnTable) (m : PktInfo Unit) : LearnTable × PktInfo Unit :=
  let looked := getLearnedState cfg now dst (learn cfg now src m.inPort table)
  if looked.2 ≠ none ∧ looked.2 ≠ m.inPort then (looked.1, { m with outPort := looked.2 })
  else (looked.1, { m with broadcastFlag := true })

def forwardBroadcast (src : UInt64) (table : LearnTable) (m : PktInfo Unit) : LearnTable × PktInfo Unit :=
  (learn cfg now src m.inPort table, { m with broadcastFlag := true })

/-- `L2Learning`; the flag is the call of `m_rxCallback`. -/
def l2Learning (table : LearnTable) (m : PktInfo Unit) : LearnTable × PktInfo Unit × Bool :=
  if m.packetType = PacketType.host.value then
    if m.dst = cfg.address then (learn cfg now m.src m.inPort table, m, true) else (table, m, false)
  else if m.packetType = PacketType.broadcast.value ∨ m.packetType = PacketType.multicast.value then
    let r := forwardBroadcast cfg now m.src table m
    (r.1, r.2, true)
  else if m.packetType = PacketType.otherhost.value then
    if m.dst = cfg.address then (learn cfg now m.src m.inPort table, m, true)
    else
      let r := forwardUnicast cfg now m.src m.dst table m
      (r.1, r.2, false)
  else (table, m, false)

def doIngress (table : LearnTable) (m : PktInfo Unit) : LearnTable × PktInfo Unit × Bool :=
  if cfg.enableLearning then l2Learning cfg now table m else (table, m, false)

/-- The pipeline after `TrafficManager` leaves the packet alone and sends it with the addresses it came with. -/
def egressTrafficManager (packet : π) (m : PktInfo Unit) : Option (Nat × Frame π) :=
  if m.dropFlag then none
  else m.outPort.map fun port => (port, { src := m.src, dst := m.dst, protocol := m.protocol, packet := packet })

/-- What leaves the device: the packet itself, then the ones that `TrafficManager` scheduled itself for. -/
def emitted (ports : List Nat) (packet : π) (m : PktInfo Unit) : List (Nat × Frame π) :=
  let sent := m.trafficManager ports
  (sent.2.toList ++ sent.1.flatMap fun r => (r.trafficManager ports).2.toList).filterMap (egressTrafficManager packet)

/-- `ReceiveFromDevice`: the table, the frames that leave and whether the frame goes to the higher layers. -/
def receiveFromDevice (port : Nat) (portAddress : UInt64) (frame : Frame π) (table : LearnTable) :
    LearnTable × List (Nat × Frame π) × Bool :=
  let info : PktInfo Unit := { inPort := some port, packetType := (classify portAddress frame.dst).value, src := frame.src
                               dst := frame.dst, protocol := frame.protocol, headers := () }
  let r := doIngress cfg now table info
  (r.1, emitted cfg.ports frame.packet r.2.1, r.2.2)

/-- `SendFrom`: a frame of the higher layers. -/
def sendFrom (frame : Frame π) (table : LearnTable) : LearnTable × List (Nat × Frame π) :=
  if isGroup frame.dst then (table, cfg.ports.map fun port => (port, frame))
  else
    let looked := getLearnedState cfg now frame.dst table
    match looked.2 with
    | some port => (looked.1, [(port, frame)])
    | none => (looked.1, cfg.ports.map fun port => (port, frame))

/-! ## What the functions do -/

section
variable {cfg : L2Config} {now : Int} {table : LearnTable} {source a : UInt64} {port : Option Nat}

theorem learn_enabled (enabled : cfg.enableLearning = true) : learn cfg now source port table =
    update table source (some { associatedPort := port, expirationTime := now + cfg.expirationTime }) := if_pos enabled

/-- A lookup forgets no entry that has not expired, and makes none. -/
theorem getLearnedState_table (source : UInt64) :
    (getLearnedState cfg now source table).1 a = table a ∨
      (getLearnedState cfg now source table).1 a = none ∧ ∃ state, table a = some state ∧ state.expirationTime ≤ now := by
  unfold getLearnedState
  split
  · split
    · rename_i state found
      split
      · exact Or.inl rfl
      · rename_i expired
        by_cases here : a = source
        · subst here
          exact Or.inr ⟨update_self a none table, state, found, not_lt.1 expired⟩
        · exact Or.inl (update_of_ne here none table)
    · exact Or.inl rfl
  · exact Or.inl rfl

/-- What a lookup finds is in the table and has not expired. -/
theorem getLearnedState_found {p : Nat} (found : (getLearnedState cfg now source table).2 = some p) :
    ∃ state, table source = some state ∧ now < state.expirationTime ∧ state.associatedPort = some p := by
  unfold getLearnedState at found
  split at found
  · split at found
    · rename_i state entry
      split at found
      · rename_i fresh
        exact ⟨state, entry, fresh, found⟩
      · cases found
    · cases found
  · cases found

/-- An entry that has not expired is found. -/
theorem getLearnedState_fresh (enabled : cfg.enableLearning = true) {state : LearnedState} (entry : table source = some state)
    (fresh : now < state.expirationTime) : getLearnedState cfg now source table = (table, state.associatedPort) := by
  unfold getLearnedState
  rw [if_pos enabled, entry]
  exact if_pos fresh

variable {m : PktInfo Unit} {ports : List Nat} {packet : π}

/-- A packet with a port goes there. -/
theorem emitted_unicast {p : Nat} (kept : m.dropFlag = false) (single : m.cloneType = 0) (here : m.broadcastFlag = false)
    (out : m.outPort = some p) :
    emitted ports packet m = [(p, { src := m.src, dst := m.dst, protocol := m.protocol, packet := packet })] := by
  have sent : m.trafficManager ports = ([], some m) := by
    simp [PktInfo.trafficManager, PktInfo.takeClone, kept, single, here, out]
  simp [emitted, sent, egressTrafficManager, kept, out]

/-- A packet without a port goes nowhere. -/
theorem emitted_none (kept : m.dropFlag = false) (single : m.cloneType = 0) (here : m.broadcastFlag = false)
    (out : m.outPort = none) : emitted ports packet m = [] := by
  have sent : m.trafficManager ports = ([], none) := by
    simp [PktInfo.trafficManager, PktInfo.takeClone, kept, single, here, out]
  simp [emitted, sent]

/-- A broadcast goes to every other port: the copies that the traffic manager makes are sent. -/
theorem emitted_broadcast (kept : m.dropFlag = false) (single : m.cloneType = 0) (all : m.broadcastFlag = true) :
    emitted ports packet m = (m.others ports).map fun p =>
      (p, { src := m.src, dst := m.dst, protocol := m.protocol, packet := packet }) := by
  have sent : m.trafficManager ports =
      ((m.others ports).map fun p => { m.copyMeta with outPort := some p }, none) := by
    simp [PktInfo.trafficManager, PktInfo.takeClone, kept, single, all]
  have copy : ∀ p, (PktInfo.trafficManager ports { m.copyMeta with outPort := some p }).2 =
      some { m.copyMeta with outPort := some p } := fun p => rfl
  simp only [emitted, sent, Option.toList_none, List.nil_append, List.flatMap_map, copy, Option.toList_some,
    List.filterMap_flatMap]
  induction m.others ports with
  | nil => rfl
  | cons p rest ih =>
    rw [List.flatMap_cons, List.map_cons, ih]
    rfl

/-! ## What a device does with a frame -/

variable {q : Nat} {portAddress : UInt64} {frame : Frame π}

/-- The ports that a frame from port `q` is flooded to. -/
def flood (cfg : L2Config) (q : Nat) : List Nat := cfg.ports.filter fun p => p != q

theorem mem_flood {p : Nat} : p ∈ flood cfg q ↔ p ∈ cfg.ports ∧ p ≠ q := by
  rw [flood, List.mem_filter, bne_iff_ne]

theorem others_inPort (inPort : m.inPort = some q) : m.others cfg.ports = flood cfg q := by
  refine List.filter_congr fun p _ => ?_
  rw [inPort]
  rfl

theorem isGroup_broadcast : isGroup broadcastAddress = true := by decide

theorem classify_unicast {dst : UInt64} (single : isGroup dst = false) :
    classify portAddress dst = if dst = portAddress then .host else .otherhost := by
  have notAll : dst ≠ broadcastAddress := by
    intro all
    rw [all, isGroup_broadcast] at single
    cases single
  rw [classify, if_neg notAll, single]
  rfl

/-- A frame to the device itself is learned from and goes up. -/
theorem receive_own (enabled : cfg.enableLearning = true) (single : isGroup frame.dst = false)
    (own : frame.dst = cfg.address) : receiveFromDevice cfg now q portAddress frame table =
      (learn cfg now frame.src (some q) table, [], true) := by
  simp only [receiveFromDevice, doIngress, if_pos enabled, classify_unicast single]
  split
  · simp only [l2Learning, if_pos own, if_true]
    rw [emitted_none rfl rfl rfl rfl]
  · simp only [l2Learning, PacketType.value, if_pos own]
    simp only [Nat.reduceEqDiff, or_self, if_false, if_true]
    rw [emitted_none rfl rfl rfl rfl]

/-- A frame to a group is learned from, goes up and is flooded. -/
theorem receive_group (enabled : cfg.enableLearning = true) (group : isGroup frame.dst = true) :
    receiveFromDevice cfg now q portAddress frame table =
      (learn cfg now frame.src (some q) table, (flood cfg q).map fun p => (p, frame), true) := by
  have type : classify portAddress frame.dst = .broadcast ∨ classify portAddress frame.dst = .multicast := by
    by_cases all : frame.dst = broadcastAddress
    · exact Or.inl (if_pos all)
    · exact Or.inr ((if_neg all).trans (if_pos group))
  have notHost : (classify portAddress frame.dst).value ≠ PacketType.host.value := by
    rcases type with type | type <;> rw [type] <;> decide
  have grouped : (classify portAddress frame.dst).value = PacketType.broadcast.value ∨
      (classify portAddress frame.dst).value = PacketType.multicast.value :=
    type.imp (congrArg PacketType.value) (congrArg PacketType.value)
  simp only [receiveFromDevice, doIngress, if_pos enabled, l2Learning, if_neg notHost, if_pos grouped, forwardBroadcast]
  rw [emitted_broadcast rfl rfl rfl, others_inPort rfl]

/-- A frame to a port's own address that is not the device's is dropped. -/
theorem receive_port (enabled : cfg.enableLearning = true) (single : isGroup frame.dst = false)
    (other : frame.dst ≠ cfg.address) (port : frame.dst = portAddress) :
    receiveFromDevice cfg now q portAddress frame table = (table, [], false) := by
  simp only [receiveFromDevice, doIngress, if_pos enabled, classify_unicast single, if_pos port, l2Learning, if_neg other,
    if_true]
  rw [emitted_none rfl rfl rfl rfl]

/-- Every other frame is learned from, and goes to the port learned for its destination, or is flooded if there is none or it
came from there. -/
theorem receive_unicast (enabled : cfg.enableLearning = true) (single : isGroup frame.dst = false)
    (other : frame.dst ≠ cfg.address) (notPort : frame.dst ≠ portAddress) :
    receiveFromDevice cfg now q portAddress frame table =
      let looked := getLearnedState cfg now frame.dst (learn cfg now frame.src (some q) table)
      (looked.1, (if looked.2 ≠ none ∧ looked.2 ≠ some q then looked.2.toList else flood cfg q).map fun p => (p, frame),
        false) := by
  simp only [receiveFromDevice, doIngress, if_pos enabled, classify_unicast single, if_neg notPort, l2Learning,
    PacketType.value, if_neg other, forwardUnicast]
  simp only [Nat.reduceEqDiff, or_self, if_false, if_true]
  generalize getLearnedState cfg now frame.dst (learn cfg now frame.src (some q) table) = looked
  obtain ⟨table', port⟩ := looked
  by_cases out : port ≠ none ∧ port ≠ some q
  · simp only [if_pos out]
    cases port with
    | none => exact absurd rfl out.1
    | some p =>
      rw [emitted_unicast rfl rfl rfl rfl]
      rfl
  · simp only [if_neg out]
    rw [emitted_broadcast rfl rfl rfl, others_inPort rfl]

/-- Where a device sends a frame that came in at port `q`, and whether it takes it. -/
inductive Outcome (cfg : L2Config) (now : Int) (q : Nat) (portAddress : UInt64) (frame : Frame π) (table : LearnTable) :
    List Nat → Bool → Prop where
  | own : isGroup frame.dst = false → frame.dst = cfg.address → Outcome cfg now q portAddress frame table [] true
  | group : isGroup frame.dst = true → Outcome cfg now q portAddress frame table (flood cfg q) true
  | port : isGroup frame.dst = false → frame.dst ≠ cfg.address → frame.dst = portAddress →
      Outcome cfg now q portAddress frame table [] false
  | learned {state : LearnedState} {p : Nat} : isGroup frame.dst = false → frame.dst ≠ cfg.address →
      table frame.dst = some state → now < state.expirationTime → state.associatedPort = some p → p ≠ q →
      Outcome cfg now q portAddress frame table [p] false
  | unknown : isGroup frame.dst = false → frame.dst ≠ cfg.address →
      (∀ state p, frame.dst ≠ frame.src → table frame.dst = some state → now < state.expirationTime →
        state.associatedPort = some p → p = q) → Outcome cfg now q portAddress frame table (flood cfg q) false

/-- What a frame that came in at port `q` does to the table. -/
structure Learns (cfg : L2Config) (now : Int) (q : Nat) (source : UInt64) (table table' : LearnTable) : Prop where
  entries : ∀ a state, table' a = some state → table a = some state ∨
    (a = source ∧ state = { associatedPort := some q, expirationTime := now + cfg.expirationTime })
  kept : ∀ a state, table a = some state → now < state.expirationTime → a ≠ source → table' a = some state
  learned : 0 < cfg.expirationTime →
    table' source = some { associatedPort := some q, expirationTime := now + cfg.expirationTime }

theorem learns_learn (enabled : cfg.enableLearning = true) :
    Learns cfg now q source table (learn cfg now source (some q) table) := by
  rw [learn_enabled enabled]
  refine ⟨fun a state found => ?_, fun a state found _ here => ?_, fun _ => update_self _ _ _⟩
  · by_cases here : a = source
    · subst here
      rw [update_self] at found
      exact Or.inr ⟨rfl, (Option.some.inj found).symm⟩
    · rw [update_of_ne here] at found
      exact Or.inl found
  · rw [update_of_ne here]
    exact found

/-- Looking up an address changes nothing of it. -/
theorem Learns.looked {table' : LearnTable} (learns : Learns cfg now q source table table') (a : UInt64) :
    Learns cfg now q source table (getLearnedState cfg now a table').1 where
  entries b state found := by
    rcases @getLearnedState_table cfg now table' b a with same | ⟨erased, -⟩
    · exact learns.entries b state (same ▸ found)
    · rw [erased] at found
      cases found
  kept b state found fresh here := by
    have entry := learns.kept b state found fresh here
    rcases @getLearnedState_table cfg now table' b a with same | ⟨-, old, had, expired⟩
    · rw [same, entry]
    · rw [entry] at had
      obtain rfl := Option.some.inj had
      exact absurd fresh (not_lt.2 expired)
  learned positive := by
    have entry := learns.learned positive
    rcases @getLearnedState_table cfg now table' source a with same | ⟨-, old, had, expired⟩
    · rw [same, entry]
    · rw [entry] at had
      obtain rfl := Option.some.inj had
      simp only at expired
      omega

/-- What a device does with a frame: where it goes, and what the table has afterwards. A frame to the address of the port, if
that is not the device's, is not even learned from. -/
structure Received (cfg : L2Config) (now : Int) (q : Nat) (portAddress : UInt64) (frame : Frame π) (table : LearnTable)
    (r : LearnTable × List (Nat × Frame π) × Bool) : Prop where
  outcome : ∃ outs, r.2.1 = outs.map (fun p => (p, frame)) ∧ Outcome cfg now q portAddress frame table outs r.2.2
  table : Learns cfg now q frame.src table r.1 ∨
    (r.1 = table ∧ isGroup frame.dst = false ∧ frame.dst = portAddress ∧ frame.dst ≠ cfg.address)

/-- Where the lookup sends a frame: the entry that it finds for the destination was there before. -/
theorem outcome_unicast (enabled : cfg.enableLearning = true) (single : isGroup frame.dst = false)
    (other : frame.dst ≠ cfg.address) :
    let looked := (getLearnedState cfg now frame.dst (learn cfg now frame.src (some q) table)).2
    Outcome cfg now q portAddress frame table
      (if looked ≠ none ∧ looked ≠ some q then looked.toList else flood cfg q) false := by
  intro looked
  have learns := @learns_learn cfg now table frame.src q enabled
  by_cases out : looked ≠ none ∧ looked ≠ some q
  · rw [if_pos out]
    obtain ⟨p, found⟩ := Option.ne_none_iff_exists'.1 out.1
    rw [found]
    obtain ⟨state, entry, fresh, port⟩ := getLearnedState_found found
    have elsewhere : p ≠ q := by
      rintro rfl
      exact out.2 found
    rcases learns.entries _ _ entry with old | ⟨-, new⟩
    · exact .learned single other old fresh port elsewhere
    · rw [new] at port
      exact absurd (Option.some.inj port).symm elsewhere
  · rw [if_neg out]
    refine .unknown single other fun state p distinct entry fresh port => ?_
    have found := getLearnedState_fresh enabled (learns.kept _ _ entry fresh distinct) fresh
    by_contra elsewhere
    refine out ⟨?_, ?_⟩ <;> simp only [looked, found, port] <;> simp [elsewhere]

/-- **What a learning switch does with a frame.** -/
theorem received (enabled : cfg.enableLearning = true) : Received cfg now q portAddress frame table
    (receiveFromDevice cfg now q portAddress frame table) := by
  cases group : isGroup frame.dst with
  | true =>
    rw [receive_group enabled group]
    exact ⟨⟨_, rfl, .group group⟩, Or.inl (learns_learn enabled)⟩
  | false =>
    by_cases own : frame.dst = cfg.address
    · rw [receive_own enabled group own]
      exact ⟨⟨[], rfl, .own group own⟩, Or.inl (learns_learn enabled)⟩
    by_cases port : frame.dst = portAddress
    · rw [receive_port enabled group own port]
      exact ⟨⟨[], rfl, .port group own port⟩, Or.inr ⟨rfl, group, port, own⟩⟩
    · rw [receive_unicast enabled group own port]
      exact ⟨⟨_, rfl, outcome_unicast enabled group own⟩, Or.inl ((learns_learn enabled).looked _)⟩

/-- Where a device sends a frame of its own: to the port learned for the destination, or to all if there is none. -/
theorem sendFrom_outs (enabled : cfg.enableLearning = true) (now : Int) (frame : Frame π) (table : LearnTable) : ∃ outs,
    (sendFrom cfg now frame table).2 = outs.map (fun p => (p, frame)) ∧
      ((outs = cfg.ports ∧ ∀ state p, isGroup frame.dst = false → table frame.dst = some state →
          now < state.expirationTime → state.associatedPort ≠ some p) ∨
        ∃ state p, table frame.dst = some state ∧ state.associatedPort = some p ∧ outs = [p]) := by
  unfold sendFrom
  split
  · rename_i group
    refine ⟨_, rfl, Or.inl ⟨rfl, fun state p single => ?_⟩⟩
    rw [group] at single
    cases single
  · simp only
    split
    · rename_i p found
      obtain ⟨state, entry, -, port⟩ := getLearnedState_found found
      exact ⟨[p], rfl, Or.inr ⟨state, p, entry, port, rfl⟩⟩
    · rename_i missed
      refine ⟨_, rfl, Or.inl ⟨rfl, fun state p _ entry fresh port => ?_⟩⟩
      rw [getLearnedState_fresh enabled entry fresh, port] at missed
      cases missed

/-- Sending makes no entries, and forgets none that has not expired. -/
theorem sendFrom_table (frame : Frame π) (table : LearnTable) (a : UInt64) :
    (sendFrom cfg now frame table).1 a = table a ∨
      (sendFrom cfg now frame table).1 a = none ∧ ∃ state, table a = some state ∧ state.expirationTime ≤ now := by
  unfold sendFrom
  split
  · exact Or.inl rfl
  · simp only
    split <;> exact getLearnedState_table _

end

end Ns3Fancy.NetDevice
