import Mathlib.Data.List.Basic
import Mathlib.Logic.Function.Basic

/-!
# Forwarding by destination

The forwarding of the dumbbell topology: one row for each directly connected host, everything else to the gateway. A failure
is a row of its own, so it also takes the place of a host's row.
-/

namespace Ns3Fancy.NetDevice
open Function
set_option autoImplicit false

/-- A port of the switch: its device, and the address of the node on the other side unless that has no IP stack. -/
structure PortInfo where
  portDevice : Nat
  otherSideIp : Option UInt32

/-- `m_L3Table` and `m_L3Gateway`. A row is a port and whether it drops; a port may be null. -/
structure L3 where
  table : UInt32 → Option (Option Nat × Bool) := fun _ => none
  gateway : Option Nat := none

namespace L3

/-- A node without an IP stack, for example another switch, becomes the gateway. -/
def addPort (l3 : L3) (port : PortInfo) : L3 :=
  match port.otherSideIp with
  | none => { l3 with gateway := some port.portDevice }
  | some ip => { l3 with table := update l3.table ip (some (some port.portDevice, false)) }

/-- `L3SpecialForwardingFillTable`. -/
def fillTable (ports : List PortInfo) (l3 : L3) : L3 := ports.foldl addPort { l3 with table := fun _ => none }

/-- The row that a failure of a prefix sets or removes. -/
def setRow (drop : Bool) (l3 : L3) (prefix_ : UInt32 × Option Nat) : L3 :=
  { l3 with table := update l3.table prefix_.1 (some (prefix_.2.orElse fun _ => l3.gateway, drop)) }

/-- `L3SpecialForwardingSetFailures`. -/
def setFailures (prefixes : List (UInt32 × Option Nat)) (l3 : L3) : L3 := prefixes.foldl (setRow true) l3

/-- `L3SpecialForwardingRemoveFailures`. -/
def removeFailures (prefixes : List (UInt32 × Option Nat)) (l3 : L3) : L3 := prefixes.foldl (setRow false) l3

/-- `L3SpecialForwarding`: the output port and `gray_drop`. -/
def forward (l3 : L3) (dst : UInt32) : Option Nat × Bool := (l3.table dst).getD (l3.gateway, false)

end L3

/-- Destinations with a null port, as the failure schedulers pass them. -/
def nullPorts (ips : List UInt32) : List (UInt32 × Option Nat) := ips.map fun ip => (ip, none)

section
variable {l3 : L3} {ips : List UInt32} {drop : Bool} {d : UInt32}

/-- No failure is in the table. -/
def L3.Clean (l3 : L3) : Prop := ∀ d row, l3.table d = some row → row.2 = false

theorem L3.Clean.addPort (clean : l3.Clean) (port : PortInfo) : (l3.addPort port).Clean := by
  unfold L3.addPort
  split
  · exact clean
  · rename_i ip _
    intro d row found
    by_cases here : d = ip
    · subst here
      obtain rfl := Option.some.inj ((update_self d _ l3.table).symm.trans found)
      rfl
    · exact clean d row ((update_of_ne here _ l3.table).symm.trans found)

theorem fillTable_clean (ports : List PortInfo) (l3 : L3) : (l3.fillTable ports).Clean := by
  have start : L3.Clean { l3 with table := fun _ => none } := by
    intro d row found
    cases found
  unfold L3.fillTable
  generalize { l3 with table := fun _ => none } = l3 at start
  induction ports generalizing l3 with
  | nil => exact start
  | cons port ports ih => exact ih _ (start.addPort port)

theorem L3.Clean.forward (clean : l3.Clean) (d : UInt32) : (l3.forward d).2 = false := by
  unfold L3.forward
  cases found : l3.table d with
  | none => rfl
  | some row => exact clean d row found

/-- **Rows of failures**: a listed destination goes to the gateway, the others as before. -/
theorem foldl_setRow (drop : Bool) (ips : List UInt32) (l3 : L3) (d : UInt32) :
    ((nullPorts ips).foldl (L3.setRow drop) l3).gateway = l3.gateway ∧
      ((nullPorts ips).foldl (L3.setRow drop) l3).table d = if d ∈ ips then some (l3.gateway, drop) else l3.table d := by
  induction ips generalizing l3 with
  | nil => exact ⟨rfl, rfl⟩
  | cons ip ips ih =>
    obtain ⟨gateway, table⟩ := ih (l3.setRow drop (ip, none))
    refine ⟨gateway, ?_⟩
    show ((nullPorts ips).foldl (L3.setRow drop) (l3.setRow drop (ip, none))).table d = _
    rw [table]
    by_cases later : d ∈ ips
    · rw [if_pos later, if_pos (List.mem_cons_of_mem ip later)]
      rfl
    · rw [if_neg later]
      by_cases here : d = ip
      · subst here
        rw [if_pos List.mem_cons_self]
        simp [L3.setRow]
      · have unlisted : d ∉ ip :: ips := by
          rw [List.mem_cons, not_or]
          exact ⟨here, later⟩
        rw [if_neg unlisted]
        exact update_of_ne here _ _

theorem forward_rows (drop : Bool) (ips : List UInt32) (l3 : L3) (d : UInt32) :
    ((nullPorts ips).foldl (L3.setRow drop) l3).forward d = if d ∈ ips then (l3.gateway, drop) else l3.forward d := by
  obtain ⟨gateway, table⟩ := foldl_setRow drop ips l3 d
  unfold L3.forward
  rw [gateway, table]
  split <;> rfl

theorem forward_setFailures (ips : List UInt32) (l3 : L3) (d : UInt32) :
    (l3.setFailures (nullPorts ips)).forward d = if d ∈ ips then (l3.gateway, true) else l3.forward d :=
  forward_rows true ips l3 d

theorem forward_removeFailures (ips : List UInt32) (l3 : L3) (d : UInt32) :
    ((l3.setFailures (nullPorts ips)).removeFailures (nullPorts ips)).forward d =
      if d ∈ ips then (l3.gateway, false) else l3.forward d := by
  have gateway : (l3.setFailures (nullPorts ips)).gateway = l3.gateway := (foldl_setRow true ips l3 d).1
  rw [L3.removeFailures, forward_rows, gateway, forward_setFailures]
  split <;> rfl

/-- **Failure injection.** For every table that `fillTable` builds and every list of destinations: exactly the listed ones
drop, the others are forwarded as before, and a listed one goes to the gateway, during the failure and after it. So the
injection only marks, and removing it restores everything, exactly if every listed destination went to the gateway before. -/
theorem failure_injection (ports : List PortInfo) (start : L3) (ips : List UInt32) :
    let l3 := start.fillTable ports
    let failed := l3.setFailures (nullPorts ips)
    let restored := failed.removeFailures (nullPorts ips)
    (∀ d, (failed.forward d).2 = true ↔ d ∈ ips) ∧
    (∀ d, d ∉ ips → failed.forward d = l3.forward d ∧ restored.forward d = l3.forward d) ∧
    (∀ d, d ∈ ips → failed.forward d = (l3.gateway, true) ∧ restored.forward d = (l3.gateway, false)) ∧
    ((∀ d, (failed.forward d).1 = (l3.forward d).1) ↔ ∀ d ∈ ips, (l3.forward d).1 = l3.gateway) ∧
    ((∀ d, restored.forward d = l3.forward d) ↔ ∀ d ∈ ips, (l3.forward d).1 = l3.gateway) := by
  intro l3 failed restored
  have clean := fillTable_clean ports start
  have duringFailure : ∀ d, failed.forward d = if d ∈ ips then (l3.gateway, true) else l3.forward d :=
    forward_setFailures ips l3
  have afterFailure : ∀ d, restored.forward d = if d ∈ ips then (l3.gateway, false) else l3.forward d :=
    forward_removeFailures ips l3
  refine ⟨fun d => ?_, fun d unlisted => ?_, fun d listed => ?_, ⟨fun same d listed => ?_, fun behind d => ?_⟩,
    ⟨fun same d listed => ?_, fun behind d => ?_⟩⟩
  · rw [duringFailure]
    split
    · rename_i listed
      exact iff_of_true rfl listed
    · rename_i unlisted
      rw [clean.forward d]
      exact iff_of_false Bool.false_ne_true unlisted
  · rw [duringFailure, afterFailure, if_neg unlisted, if_neg unlisted]
    exact ⟨rfl, rfl⟩
  · rw [duringFailure, afterFailure, if_pos listed, if_pos listed]
    exact ⟨rfl, rfl⟩
  · have here := same d
    rw [duringFailure, if_pos listed] at here
    exact here.symm
  · rw [duringFailure]
    split
    · rename_i listed
      exact (behind d listed).symm
    · rfl
  · have here := same d
    rw [afterFailure, if_pos listed] at here
    rw [← here]
  · rw [afterFailure]
    split
    · rename_i listed
      exact Prod.ext (behind d listed).symm (clean.forward d).symm
    · rfl

/-- A host on port 0 and the rest of the network behind port 1. -/
def dumbbell : List PortInfo := [{ portDevice := 0, otherSideIp := some 0x0a000002 }, { portDevice := 1, otherSideIp := none }]

/-- The address of the host itself is failed: its traffic goes to the gateway, and still does when the failure is removed. -/
theorem failed_host_moves :
    let l3 := ({} : L3).fillTable dumbbell
    let failed := l3.setFailures (nullPorts [0x0a000002])
    l3.forward 0x0a000002 = (some 0, false) ∧ failed.forward 0x0a000002 = (some 1, true) ∧
      (failed.removeFailures (nullPorts [0x0a000002])).forward 0x0a000002 = (some 1, false) := by
  decide

end

end Ns3Fancy.NetDevice
