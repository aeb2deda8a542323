import Ns3Fancy.Graph.NextHop
import Ns3Fancy.Lts.Run
import Ns3Fancy.NetDevice.Learning

/-!
# Networks of learning switches

Stations and learning switches joined by links. A frame that a node sends is copied as the switches flood it; the copies share
its number. Links lose and reorder copies as they like. Spanning trees are not implemented, so the network has to be loop free.
-/

namespace Ns3Fancy.NetDevice
open NextHop
set_option autoImplicit false

variable {V π : Type}

/-- Nodes with their ports, each joined to one port of another node. A station has an address, and no table. -/
structure Topology (V : Type) where
  isSwitch : V → Bool
  config : V → L2Config
  peer : V → Nat → V × Nat
  portAddress : V → Nat → UInt64

namespace Topology
variable (top : Topology V)

def ports (v : V) : List Nat := (top.config v).ports

def address (v : V) : UInt64 := (top.config v).address

/-- The node behind a port. -/
def far (v : V) (p : Nat) : V := (top.peer v p).1

def graph : SimpleGraph V := SimpleGraph.fromRel fun v w => ∃ p ∈ top.ports v, top.far v p = w

/-- A node with an interface takes a frame that came in at port `q`: the table, what it sends, and whether the frame goes up. -/
def input (v : V) (now : Int) (q : Nat) (frame : Frame π) (table : LearnTable) : LearnTable × List (Nat × Frame π) × Bool :=
  if top.isSwitch v then receiveFromDevice (top.config v) now q (top.portAddress v q) frame table
  else (table, [], decide (classify (top.address v) frame.dst ≠ .otherhost))

/-- The higher layers of a node send a frame. -/
def output (v : V) (now : Int) (frame : Frame π) (table : LearnTable) : LearnTable × List (Nat × Frame π) :=
  if top.isSwitch v then sendFrom (top.config v) now frame table
  else (table, (top.ports v).map fun p => (p, frame))

/-- A network without loops of devices that learn, with an address for each device. -/
structure LoopFree : Prop where
  linked : ∀ v p, p ∈ top.ports v →
    (top.peer v p).2 ∈ top.ports (top.far v p) ∧ top.peer (top.far v p) (top.peer v p).2 = (v, p)
  nodup : ∀ v, (top.ports v).Nodup
  /-- no link from a node to itself, and no two links between the same nodes -/
  simple : ∀ v p, p ∈ top.ports v → top.far v p ≠ v ∧ ∀ q ∈ top.ports v, top.far v p = top.far v q → p = q
  tree : top.graph.IsTree
  station : ∀ v, top.isSwitch v = false → ∃ p, top.ports v = [p]
  learning : ∀ v, top.isSwitch v = true → (top.config v).enableLearning = true
  unique : ∀ v w, top.address v = top.address w → v = w
  portUnique : ∀ v p w, top.portAddress v p = top.address w → v = w
  single : ∀ v, isGroup (top.address v) = false

end Topology

/-- A copy of frame `id` that was sent out of a port. -/
structure Copy (V π : Type) where
  id : Nat
  node : V
  port : Nat
  frame : Frame π

structure Lan (V π : Type) where
  tables : V → LearnTable
  now : Int
  wire : List (Copy V π)
  next : Nat

inductive LanLabel (V π : Type) where
  | send (v : V) (dst : UInt64) (protocol : UInt16) (packet : π)
  | deliver (i : Nat)
  | lose (i : Nat)
  | wait (t : Nat)

inductive LanObs (V : Type) where
  | sent (id : Nat) (v : V) (dst : UInt64)
  | handled (id : Nat) (v : V) (port : Nat)
  | up (id : Nat) (v : V)
  | lost (id : Nat) (v : V)
  deriving DecidableEq

namespace Lan
open Function

/-- The copies of a frame on the way out of `v`. -/
def copies (id : Nat) (v : V) (outs : List (Nat × Frame π)) : List (Copy V π) :=
  outs.map fun out => { id := id, node := v, port := out.1, frame := out.2 }

variable [DecidableEq V] (top : Topology V)

/-- One step of the network. -/
def step : Lts.Step (Lan V π) (LanLabel V π) (LanObs V)
  | .send v dst protocol packet, s =>
    let frame := { src := top.address v, dst := dst, protocol := protocol, packet := packet }
    let r := top.output v s.now frame (s.tables v)
    some ({ s with tables := update s.tables v r.1, wire := s.wire ++ copies s.next v r.2, next := s.next + 1 },
      [.sent s.next v dst])
  | .deliver i, s => (s.wire[i]?).map fun c =>
    let w := top.far c.node c.port
    let q := (top.peer c.node c.port).2
    let r := top.input w s.now q c.frame (s.tables w)
    ({ s with tables := update s.tables w r.1, wire := s.wire.eraseIdx i ++ copies c.id w r.2.1 },
      .handled c.id w q :: if r.2.2 then [.up c.id w] else [])
  | .lose i, s => (s.wire[i]?).map fun c =>
    ({ s with wire := s.wire.eraseIdx i }, [.lost c.id (top.far c.node c.port)])
  | .wait t, s => some ({ s with now := s.now + t }, [])

def start (now : Int) : Lan V π := { tables := fun _ _ => none, now := now, wire := [], next := 0 }

end Lan

end Ns3Fancy.NetDevice
