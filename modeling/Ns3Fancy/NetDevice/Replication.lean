import Ns3Fancy.Switch.Config

/-!
# The traffic manager's replicas

`TrafficManager` sends copies of a packet that was cloned or is broadcast back through itself. What a copy carries is what
`CopyMeta` copies; the clone type is read after it was cleared.
-/

namespace Ns3Fancy.NetDevice
open Switch
set_option autoImplicit false

/-- `CloneType`, by its value. -/
inductive CloneType where
  | I2E | E2E
  deriving DecidableEq

def CloneType.value : CloneType → Nat
  | I2E => 0
  | E2E => 1

/-- `pkt_info`; a port is its device, null if it is not set. -/
structure PktInfo (Headers : Type) where
  inPort : Option Nat := none
  outPort : Option Nat := none
  packetType : Nat := 0
  instanceType : Nat := 0
  flow : FiveTuple := {}
  strFlow : String := ""
  grayDrop : Bool := false
  dropFlag : Bool := false
  cloneType : Nat := 0
  cloneOutPort : Option Nat := none
  broadcastFlag : Bool := false
  internalPacket : Bool := false
  id : UInt32 := 0
  src : UInt64
  dst : UInt64
  protocol : UInt16
  headers : Headers

namespace PktInfo
variable {Headers : Type}

def copyMeta (m : PktInfo Headers) : PktInfo Headers :=
  { src := m.src, dst := m.dst, protocol := m.protocol, inPort := m.inPort, outPort := m.outPort, packetType := m.packetType
    headers := m.headers }

def clone (outPort : Option Nat) (cloneType : CloneType) (m : PktInfo Headers) : PktInfo Headers :=
  { m with cloneOutPort := outPort, cloneType := cloneType.value }

/-- The copy of a cloned packet, and the packet without the mark. -/
def takeClone (m : PktInfo Headers) : List (PktInfo Headers) × PktInfo Headers :=
  if m.cloneType ≠ 0 then
    let copy := { m.copyMeta with outPort := m.cloneOutPort }
    let m := { m with cloneType := 0, cloneOutPort := none }
    (match m.cloneType with
      | 0 => [{ copy with instanceType := 2 }]
      | 1 => [{ copy with instanceType := 3 }]
      | _ => [], m)
  else ([], m)

/-- The ports a broadcast goes to. -/
def others (ports : List Nat) (m : PktInfo Headers) : List Nat := ports.filter fun port => some port != m.inPort

/-- `TrafficManager`: the packets that it schedules itself for, and the one that it forwards. -/
def trafficManager (ports : List Nat) (m : PktInfo Headers) : List (PktInfo Headers) × Option (PktInfo Headers) :=
  if m.dropFlag then ([], none)
  else
    let (clones, m) := m.takeClone
    if m.broadcastFlag then (clones ++ (m.others ports).map fun port => { m.copyMeta with outPort := some port }, none)
    else if m.outPort = none then (clones, none)
    else (clones, some m)

/-- A packet on which `Clone` was called as given, or was not. -/
def after (call : Option (Option Nat × CloneType)) (m : PktInfo Headers) : PktInfo Headers :=
  match call with
  | none => { m with cloneType := 0, cloneOutPort := none }
  | some (outPort, cloneType) => m.clone outPort cloneType

/-- The instance type that a replica of a clone type should have. -/
def instanceOf : CloneType → Nat
  | .I2E => 2
  | .E2E => 3

/-- A replica carries what describes the packet, and not what the traffic manager is told to do with it. -/
structure Inherits (m r : PktInfo Headers) : Prop where
  headers : r.headers = m.headers
  flow : r.flow = m.flow
  strFlow : r.strFlow = m.strFlow
  grayDrop : r.grayDrop = m.grayDrop
  id : r.id = m.id
  dropFlag : r.dropFlag = false
  cloned : r.cloneType = 0 ∧ r.cloneOutPort = none
  broadcastFlag : r.broadcastFlag = false

/-- **Replication as it should be**, for a packet on which `Clone` was called as given: one replica for the clone, one for each
port of a broadcast, the original if it is not broadcast, and no replica is replicated again. -/
structure Replicates (ports : List Nat) (m : PktInfo Headers) (call : Option (Option Nat × CloneType)) : Prop where
  replicas : ∃ clones broadcasts, (trafficManager ports (m.after call)).1 = clones ++ broadcasts ∧
    clones.map (fun r => (r.outPort, r.instanceType)) = call.toList.map (fun c => (c.1, instanceOf c.2)) ∧
    broadcasts.map (fun r => r.outPort) = if m.broadcastFlag then (m.others ports).map some else []
  original : (m.broadcastFlag = true → (trafficManager ports (m.after call)).2 = none) ∧
    (call ≠ none → m.broadcastFlag = false → (trafficManager ports (m.after call)).2.map (·.outPort) = m.outPort.map some)
  inherits : ∀ r ∈ (trafficManager ports (m.after call)).1, m.Inherits r
  ends : ∀ r ∈ (trafficManager ports (m.after call)).1, (trafficManager ports r).1 = []

section
variable {ports : List Nat} {m r : PktInfo Headers} {call : Option (Option Nat × CloneType)}

theorem takeClone_after_none : (m.after none).takeClone = ([], m.after none) := if_neg (not_not_intro rfl)

/-- The mark of an ingress clone is the one of a packet that is not cloned. -/
theorem takeClone_after_I2E (outPort : Option Nat) : ((m.after (some (outPort, .I2E))).takeClone).1 = [] :=
  congrArg Prod.fst (if_neg (not_not_intro rfl))

theorem takeClone_after_E2E (outPort : Option Nat) : (m.after (some (outPort, .E2E))).takeClone =
    ([{ m.copyMeta with outPort := outPort, instanceType := 2 }], m.after none) := if_pos Nat.one_ne_zero

theorem takeClone_broadcastFlag (m : PktInfo Headers) : m.takeClone.2.broadcastFlag = m.broadcastFlag := by
  unfold takeClone
  split <;> rfl

theorem after_dropFlag : (m.after call).dropFlag = m.dropFlag := by
  cases call <;> rfl

/-- What is scheduled: the copy of the clone, then those of the broadcast. -/
theorem trafficManager_scheduled (kept : m.dropFlag = false) : (trafficManager ports m).1 =
    m.takeClone.1 ++ if m.broadcastFlag then (m.takeClone.2.others ports).map fun port =>
      { m.takeClone.2.copyMeta with outPort := some port } else [] := by
  rw [← takeClone_broadcastFlag]
  simp only [trafficManager, kept, Bool.false_eq_true, if_false]
  split
  · rfl
  · split <;> exact (List.append_nil _).symm

/-- **A replica is not replicated again**, whoever it is a copy of. -/
theorem trafficManager_replica (mem : r ∈ (trafficManager ports m).1) :
    r.dropFlag = false ∧ r.cloneType = 0 ∧ r.cloneOutPort = none ∧ r.broadcastFlag = false ∧
      (trafficManager ports r).1 = [] := by
  have plain : ∀ r : PktInfo Headers, r.dropFlag = false → r.cloneType = 0 → r.broadcastFlag = false →
      (trafficManager ports r).1 = [] := by
    intro r kept single here
    rw [trafficManager_scheduled kept, takeClone, if_neg (not_not_intro single), here]
    rfl
  cases dropped : m.dropFlag with
  | true =>
    rw [trafficManager, if_pos dropped] at mem
    cases mem
  | false =>
    rw [trafficManager_scheduled dropped] at mem
    rcases List.mem_append.1 mem with mem | mem
    · unfold takeClone at mem
      split at mem
      · obtain rfl := List.mem_singleton.1 mem
        exact ⟨rfl, rfl, rfl, rfl, plain _ rfl rfl rfl⟩
      · cases mem
    · split at mem
      · obtain ⟨port, -, rfl⟩ := List.mem_map.1 mem
        exact ⟨rfl, rfl, rfl, rfl, plain _ rfl rfl rfl⟩
      · cases mem

/-- What `CopyMeta` leaves at its default. -/
structure Plain (m : PktInfo Headers) : Prop where
  flow : m.flow = {}
  strFlow : m.strFlow = ""
  grayDrop : m.grayDrop = false
  id : m.id = 0

theorem Plain.inherits (plain : m.Plain) (port : Option Nat) : m.Inherits { (m.after none).copyMeta with outPort := port } where
  headers := rfl
  flow := plain.flow.symm
  strFlow := plain.strFlow.symm
  grayDrop := plain.grayDrop.symm
  id := plain.id.symm
  dropFlag := rfl
  cloned := ⟨rfl, rfl⟩
  broadcastFlag := rfl

theorem scheduled_dropped (dropped : m.dropFlag = true) : (trafficManager ports (m.after call)).1 = [] := by
  rw [trafficManager, if_pos (after_dropFlag.trans dropped)]

/-- What is scheduled for a packet that was not cloned. -/
theorem scheduled_none : (trafficManager ports (m.after none)).1 = if m.dropFlag = false ∧ m.broadcastFlag = true then
    (m.others ports).map fun port => { (m.after none).copyMeta with outPort := some port } else [] := by
  cases dropped : m.dropFlag with
  | true =>
    rw [scheduled_dropped dropped]
    exact (if_neg fun kept => Bool.false_ne_true kept.1.symm).symm
  | false =>
    rw [trafficManager_scheduled (after_dropFlag.trans dropped), takeClone_after_none]
    simp only [true_and]
    rfl

theorem mem_scheduled_none : r ∈ (trafficManager ports (m.after none)).1 ↔ m.dropFlag = false ∧ m.broadcastFlag = true ∧
    ∃ port ∈ m.others ports, { (m.after none).copyMeta with outPort := some port } = r := by
  rw [scheduled_none]
  split
  · rename_i sent
    simp only [List.mem_map, sent, true_and]
  · rename_i unsent
    constructor
    · exact fun mem => absurd mem List.not_mem_nil
    · rintro ⟨kept, broadcast, -⟩
      exact absurd ⟨kept, broadcast⟩ unsent

/-- A clone is not replicated as it should be. -/
theorem not_replicates_clone (outPort : Option Nat) (cloneType : CloneType) :
    ¬Replicates ports m (some (outPort, cloneType)) := by
  intro replicates
  obtain ⟨clones, broadcasts, scheduled, asked, -⟩ := replicates.replicas
  obtain ⟨r, rfl⟩ : ∃ r, clones = [r] := by
    have one : clones.length = 1 := by simpa using congrArg List.length asked
    exact List.length_eq_one_iff.1 one
  have type : r.instanceType = instanceOf cloneType := congrArg Prod.snd (List.cons.inj asked).1
  cases dropped : m.dropFlag with
  | true =>
    rw [scheduled_dropped dropped] at scheduled
    cases scheduled
  | false =>
    rw [trafficManager_scheduled (after_dropFlag.trans dropped)] at scheduled
    cases cloneType with
    | I2E =>
      -- the first replica is one of the broadcast
      rw [takeClone_after_I2E, List.nil_append] at scheduled
      split at scheduled
      · have mem : r ∈ [r] ++ broadcasts := List.mem_cons_self
        rw [← scheduled] at mem
        obtain ⟨port, -, rfl⟩ := List.mem_map.1 mem
        have zero : (0 : Nat) = 2 := type
        cases zero
      · cases scheduled
    | E2E =>
      rw [takeClone_after_E2E] at scheduled
      obtain ⟨rfl, -⟩ := List.cons.inj scheduled
      have ingress : (2 : Nat) = 3 := type
      cases ingress

/-- A broadcast packet that is replicated as it should be has no port to go to, or nothing that `CopyMeta` forgets. -/
theorem Replicates.plain (replicates : Replicates ports m none) (broadcast : m.broadcastFlag = true) :
    m.others ports = [] ∨ m.dropFlag = false ∧ m.Plain := by
  obtain ⟨clones, broadcasts, scheduled, -, targets⟩ := replicates.replicas
  rw [if_pos broadcast] at targets
  cases others : m.others ports with
  | nil => exact Or.inl rfl
  | cons port rest =>
    refine Or.inr ?_
    rw [others] at targets
    obtain ⟨r, here⟩ : ∃ r, r ∈ broadcasts := List.exists_mem_of_ne_nil _ fun none => by simp [none] at targets
    have mem : r ∈ (trafficManager ports (m.after none)).1 := by
      rw [scheduled]
      exact List.mem_append_right _ here
    obtain ⟨kept, -, port', -, rfl⟩ := mem_scheduled_none.1 mem
    have inherits := replicates.inherits _ mem
    exact ⟨kept, inherits.flow.symm, inherits.strFlow.symm, inherits.grayDrop.symm, inherits.id.symm⟩

/-- A packet that is not cloned, and is broadcast only if nothing is forgotten. -/
theorem replicates_none (fine : m.broadcastFlag = true → m.others ports = [] ∨ m.dropFlag = false ∧ m.Plain) :
    Replicates ports m none where
  replicas := by
    refine ⟨[], (trafficManager ports (m.after none)).1, rfl, rfl, ?_⟩
    rw [scheduled_none]
    by_cases broadcast : m.broadcastFlag = true
    · simp only [broadcast, and_true, if_true]
      rcases fine broadcast with none | ⟨kept, -⟩
      · simp only [none, List.map_nil, ite_self]
      · rw [if_pos kept, List.map_map]
        rfl
    · rw [if_neg fun sent => broadcast sent.2, if_neg broadcast, List.map_nil]
  original := by
    refine ⟨fun broadcast => ?_, fun cloned => absurd rfl cloned⟩
    unfold trafficManager
    split
    · rfl
    · rw [takeClone_after_none]
      exact congrArg Prod.snd (if_pos broadcast)
  inherits := by
    intro r mem
    obtain ⟨-, broadcast, port, target, rfl⟩ := mem_scheduled_none.1 mem
    rcases fine broadcast with none | ⟨-, plain⟩
    · rw [none] at target
      cases target
    · exact plain.inherits _
  ends r mem := (trafficManager_replica mem).2.2.2.2

/-- **Exactly the packets that are replicated as they should be**: those that are not cloned, and are not broadcast, or have no
other port to go to, or are not marked to be dropped and have nothing that `CopyMeta` forgets. -/
theorem replicates_iff (ports : List Nat) (m : PktInfo Headers) (call : Option (Option Nat × CloneType)) :
    Replicates ports m call ↔
      call = none ∧ (m.broadcastFlag = true → m.others ports = [] ∨ m.dropFlag = false ∧ m.Plain) := by
  constructor
  · intro replicates
    cases call with
    | some call => exact absurd replicates (not_replicates_clone call.1 call.2)
    | none => exact ⟨rfl, replicates.plain⟩
  · rintro ⟨rfl, fine⟩
    exact replicates_none fine

/-- A packet with nothing set but its port, as it comes in on port 0. -/
def arriving : PktInfo Unit := { inPort := some 0, outPort := some 1, src := 1, dst := 2, protocol := 0x0800, headers := () }

/-- An ingress clone makes no replica, an egress clone one that says it is an ingress clone, and the replica of a broadcast
packet has no flow. -/
theorem not_replicates :
    trafficManager [0, 1, 2] (arriving.clone (some 2) .I2E) = ([], some { arriving with cloneOutPort := some 2 }) ∧
      (trafficManager [0, 1, 2] (arriving.clone (some 2) .E2E)).1.map (fun r => (r.outPort, r.instanceType)) = [(some 2, 2)] ∧
      (trafficManager [0, 1, 2] { arriving with flow := { dstIp := 9 }, broadcastFlag := true }).1.map
        (fun r => (r.outPort, r.flow)) = [(some 1, {}), (some 2, {})] ∧
      ¬Replicates [0, 1, 2] arriving (some (some 2, .I2E)) ∧ ¬Replicates [0, 1, 2] arriving (some (some 2, .E2E)) :=
  ⟨rfl, rfl, rfl, not_replicates_clone _ _, not_replicates_clone _ _⟩

end

end PktInfo

end Ns3Fancy.NetDevice
