import Ns3Fancy.LossRadar.Controller
import Ns3Fancy.Lts.Run

/-!
# Two LossRadar switches on a link

The ports of two switches on a link between them, the packets in flight and the pending events, on a
common clock. A packet that leaves by the link is metered at the ingress, before the traffic manager
may drop it; it carries the batch it was metered into in the high bits of its TOS byte, and is
metered into that batch on the other side. Every batch time a port goes to the next batch and plans
to have the last one read and cleared half a batch time later.
-/

namespace Ns3Fancy.LossRadar
open Switch Function
set_option autoImplicit false

/-! ## One port -/

/-- What the switch reads of a packet's headers: the flow `GetFlowFiveTuple` makes of them, whether there is an IPv4
header, and its TOS byte. -/
structure Packet where
  flow : FiveTuple := {}
  ipv4 : Bool := true
  tos : UInt8 := 0
  deriving DecidableEq, Repr

def getTosHi (tos : UInt8) : UInt8 := (tos &&& 0xf0) >>> 4

def setTosHi (tos hi : UInt8) : UInt8 := (tos &&& (0x0f : UInt8)) ||| (hi <<< (4 : UInt8))

theorem getTosHi_setTosHi (tos : UInt8) {hi : UInt8} (small : hi.toNat < 16) : getTosHi (setTosHi tos hi) = hi := by
  have low : (tos &&& 0x0f) &&& 0xf0 = 0 := by
    rw [UInt8.and_assoc, show (0x0f : UInt8) &&& 0xf0 = 0 by decide, UInt8.and_zero]
  have high : ∀ n : Fin 16, ((UInt8.ofNat n <<< 4) &&& 0xf0) >>> 4 = UInt8.ofNat n := by decide
  have number : hi = UInt8.ofNat (⟨hi.toNat, small⟩ : Fin 16) := UInt8.ofNat_toNat.symm
  have spread : ((tos &&& (0x0f : UInt8)) ||| (hi <<< (4 : UInt8))) &&& 0xf0 =
      ((tos &&& (0x0f : UInt8)) &&& 0xf0) ||| ((hi <<< (4 : UInt8)) &&& 0xf0) :=
    UInt8.toBitVec_inj.1 BitVec.and_or_distrib_right
  rw [getTosHi, setTosHi, spread, low, UInt8.zero_or, number]
  exact high _

/-- The registers by batch. -/
structure LossRadarPortInfo where
  currentBatchId : UInt8 := 0
  um : UInt8 → Registers := fun _ => emptyRegisters
  dm : UInt8 → Registers := fun _ => emptyRegisters

section
variable (cfg : LossRadarConfig)

def umMeter (flow : FiveTuple) (batch : UInt8) (p : LossRadarPortInfo) : LossRadarPortInfo :=
  { p with um := update p.um batch (meter flow (cfg.getMeterHashIndexes flow) (p.um batch)) }

def dmMeter (flow : FiveTuple) (batch : UInt8) (p : LossRadarPortInfo) : LossRadarPortInfo :=
  { p with dm := update p.dm batch (meter flow (cfg.getMeterHashIndexes flow) (p.dm batch)) }

/-- `DoIngress` on the port of the link, for a packet that came in by it, is to leave by it, or both. -/
def doIngress (fromLink toLink : Bool) (pkt : Packet) (p : LossRadarPortInfo) : LossRadarPortInfo × Packet :=
  if pkt.ipv4 then
    let previousBatchId := getTosHi pkt.tos
    let r :=
      if toLink then
        (umMeter cfg pkt.flow p.currentBatchId p, { pkt with tos := setTosHi pkt.tos p.currentBatchId })
      else (p, pkt)
    (if fromLink then dmMeter cfg pkt.flow previousBatchId r.1 else r.1, r.2)
  else (p, pkt)

/-- The batch after a batch. -/
def nextBatch (batch : UInt8) : UInt8 := .ofNat ((batch.toNat + 1) % cfg.numBatches)

/-! ## The system -/

/-- A packet in flight: its number on the link, the time it was sent and the packet. -/
structure Flying where
  uid : Nat
  sent : Nat
  packet : Packet

/-- Both ports. `wire d` leaves port `d`; `controllers d` are the planned calls of `Controller` for port `d`, with
their time and batch. -/
structure System where
  now : Nat
  port : Bool → LossRadarPortInfo
  nextUpdate : Bool → Nat
  controllers : Bool → List (Nat × UInt8)
  wire : Bool → List Flying
  nextUid : Bool → Nat

/-- `d` is the side a step is about, or the one a packet left. A packet that is to leave by the link comes with the
decision of the traffic manager to drop it. -/
inductive Label where
  | tick
  | enter (d : Bool) (pkt : Packet) (tmDrop : Bool)
  | deliver (d : Bool) (i : Nat) (back : Option Bool)
  | lose (d : Bool) (i : Nat)
  | updateBatchId (d : Bool)
  | control (d : Bool) (i fuel : Nat)

/-- What a step shows on one side. -/
inductive Note where
  | metered (batch : UInt8) (uid : Nat) (flow : FiveTuple)
  /-- dropped by the traffic manager -/
  | congested (uid : Nat)
  /-- lost on the link, which starts at `DoEgressTrafficManager` -/
  | lost (uid : Nat)
  | read (batch : UInt8) (um dm : Registers) (report : Report)

structure Seen where
  side : Bool
  note : Note

/-- A packet goes through the pipeline of switch `d`: `out` is `none` when it does not leave by the link. -/
def System.ingress (s : System) (d fromLink : Bool) (out : Option Bool) (pkt : Packet) : Option (System × List Note) :=
  if out = some true ∧ ¬0 < cfg.tmDropRate then none
  else
    let r := doIngress cfg fromLink out.isSome pkt (s.port d)
    some ({ s with
        port := update s.port d r.1
        wire := if out = some false then update s.wire d (s.wire d ++ [⟨s.nextUid d, s.now, r.2⟩]) else s.wire
        nextUid := if out.isSome then update s.nextUid d (s.nextUid d + 1) else s.nextUid },
      (if out.isSome ∧ pkt.ipv4 then [.metered (s.port d).currentBatchId (s.nextUid d) pkt.flow] else []) ++
        if out = some true then [.congested (s.nextUid d)] else [])

/-- `Controller` has read a batch: both sides are cleared. -/
def System.clear (s : System) (d : Bool) (batch : UInt8) : System :=
  { s with port := fun e =>
      if e = d then { s.port e with um := update (s.port e).um batch emptyRegisters }
      else { s.port e with dm := update (s.port e).dm batch emptyRegisters } }

def seenAt (d : Bool) (notes : List Note) : List Seen := notes.map fun n => { side := d, note := n }

def step : Lts.Step System Label Seen
  | .tick, s =>
    if (∀ d, s.now < s.nextUpdate d) ∧ ∀ d, ∀ c ∈ s.controllers d, s.now < c.1 then some ({ s with now := s.now + 1 }, [])
    else none
  | .enter d pkt tmDrop, s => (s.ingress cfg d false (some tmDrop) pkt).map fun r => (r.1, seenAt d r.2)
  | .deliver d i back, s =>
    (s.wire d)[i]?.bind fun e =>
      (System.ingress cfg { s with wire := update s.wire d ((s.wire d).eraseIdx i) } (!d) true back e.packet).map fun r =>
        (r.1, seenAt (!d) r.2)
  | .lose d i, s =>
    (s.wire d)[i]?.map fun e =>
      ({ s with wire := update s.wire d ((s.wire d).eraseIdx i) }, seenAt d [.lost e.uid])
  | .updateBatchId d, s =>
    if s.nextUpdate d = s.now then
      let previous := (s.port d).currentBatchId
      some ({ s with
          port := update s.port d { s.port d with currentBatchId := nextBatch cfg previous }
          nextUpdate := update s.nextUpdate d (s.now + cfg.batchTime)
          controllers := update s.controllers d (s.controllers d ++ [(s.now + cfg.batchTime / 2, previous)]) }, [])
    else none
  | .control d i fuel, s =>
    (s.controllers d)[i]?.bind fun c =>
      if c.1 = s.now then
        (controller cfg fuel ((s.port d).um c.2) ((s.port !d).dm c.2)).map fun report =>
          ({ s with controllers := update s.controllers d ((s.controllers d).eraseIdx i) }.clear d c.2,
            seenAt d [.read c.2 ((s.port d).um c.2) ((s.port !d).dm c.2) report])
      else none

/-- Both switches have run `Init`; `first d` is the time of the first `UpdateBatchId` of port `d`. -/
def System.start (first : Bool → Nat) : System where
  now := 0
  port _ := {}
  nextUpdate := first
  controllers _ := []
  wire _ := []
  nextUid _ := 0

/-- No packet has been on the link for half a batch time. -/
def Timely (s : System) : Prop := ∀ d, ∀ e ∈ s.wire d, s.now < e.sent + cfg.batchTime / 2

/-- A call of `Controller` for port `d` and the batch is due. -/
def System.Due (s : System) (d : Bool) (batch : UInt8) : Prop := (s.now, batch) ∈ s.controllers d

/-! ## What a trace says about the packets of a batch -/

/-- The notes of one side. -/
def notes (d : Bool) (tr : List Seen) : List Note := tr.flatMap fun o => if o.side = d then [o.note] else []

/-- The packets metered into a batch since it was last read: number and flow. -/
def sinceRead (batch : UInt8) (ns : List Note) : List (Nat × FiveTuple) :=
  ns.foldl (fun acc n => match n with
    | .metered b uid flow => if b = batch then acc ++ [(uid, flow)] else acc
    | .read b _ _ _ => if b = batch then [] else acc
    | .congested _ => acc
    | .lost _ => acc) []

/-- The packets lost on the link. -/
def lostUids (ns : List Note) : List Nat :=
  ns.filterMap fun n => match n with
    | .lost uid => some uid
    | _ => none

/-- The packets dropped by the traffic manager. -/
def congestedUids (ns : List Note) : List Nat :=
  ns.filterMap fun n => match n with
    | .congested uid => some uid
    | _ => none

/-- The flows of the packets metered into a batch since it was last read whose numbers are given. -/
def flowsAmong (uids : List Nat) (entries : List (Nat × FiveTuple)) : Multiset FiveTuple :=
  ((entries.filter fun x => x.1 ∈ uids).map (·.2) : List FiveTuple)

end

end Ns3Fancy.LossRadar
