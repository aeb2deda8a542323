import Ns3Fancy.Link.Accounting
import Ns3Fancy.Link.Histories
import Ns3Fancy.Session.Ledger

/-!
# Accounting survives the loss of control packets

Control packets may be lost on both wires. A machine that waits for the acknowledgement of START and tags its packets, a
dedicated entry or the tree, then still accounts for every packet, as long as no report timer of the machine fires in a receiver
that counts: that timer is the one defect of the handshake that reaches the counters.
-/

namespace Ns3Fancy.Link
open Switch Buffer Function Session
set_option autoImplicit false

section
variable (cfg : FancyConfig)

/-- A frame with a packet that a machine has counted. -/
def isTagged (frame : Frame) : Bool :=
  (parse frame : Option (Headers cfg.ns3 × Bytes)).any fun h => h.1.fancy.any FancyHeader.getCountFlag

/-- A step that may lose control packets: a counted packet is lost only as it leaves, and no report timer of the machine fires
in its counting receiver. -/
structure ControlLoss (d : Bool) (id : Nat) (l : Label cfg) (s : System) : Prop where
  control : ∀ i, l = .lose d i → ∀ frame, (s.wire d)[i]? = some frame → isTagged cfg frame = false
  timer : ∀ i u, l = .fire (!d) i → (s.port !d).events.pending[i]? = some (u, .sendGreyCounter id) →
    (s.port !d).greyRecv.greyState id ≠ .counting

end

section
variable {cfg : FancyConfig} {s : System} {tr : List Seen} {d : Bool} {id : Nat}

/-- What a frame means to a machine that tags is a packet of a session only if the frame is tagged. -/
theorem Reads.packet_eq_none {frame : Frame} {msg : Msg} (reads : Reads cfg frame msg) (tags : id ≠ cfg.wildcardId)
    (control : isTagged cfg frame = false) {fwd : Fwd FiveTuple Request} (isFwd : msg.fwdFor cfg id = some fwd) (k : Nat) :
    fwd.packet k = none := by
  refine Session.packet_eq_none.2 ?_
  rintro pkt rfl
  cases reads with
  | @data headers payload tag wild parsed hasTag =>
    simp only [Msg.fwdFor, tags, if_false] at isFwd
    obtain ⟨t, rfl, -⟩ := Option.bind_eq_some_iff.1 isFwd
    simp only [isTagged, parsed, Option.any_some] at control
    cases fancy : headers.fancy with
    | none =>
      simp only [HasTag, fancy] at hasTag
      cases hasTag
    | some hdr =>
      simp only [HasTag, fancy] at hasTag
      rcases hasTag with ⟨-, none⟩ | ⟨action, -⟩
      · cases none
      · simp only [fancy, Option.any_some, FancyHeader.getCountFlag, action] at control
        exact absurd control (by decide)
  | start | stop | ack =>
    simp only [Msg.fwdFor] at isFwd
    split at isFwd <;> cases isFwd
  | startAck | report | probe => cases isFwd

theorem meter_steady (cfg : FancyConfig) (id : Nat) : (meter cfg id).Steady where
  toLawful := meter_lawful cfg id
  request_opened _ := rfl
  request_count k x flow := by
    by_cases isTree : id = cfg.treeId
    · subst isTree
      rw [meter_request, meter_request]
      refine startRecords_congr ?_
      simp only [meter, if_true]
      exact sameHistory_treeCounting _ _ _ _
    · simp [meter, isTree]

/-- The session of a machine whose control packets may be lost. -/
theorem careful_session (tags : id ≠ cfg.wildcardId)
    (run : Lts.Run (Link.step cfg) (ControlLoss cfg d id) (System.start cfg) s tr) :
    ∃ F, Wired cfg s F ∧ Careful.Kept (variant cfg id) (meter cfg id) (noCount, noCount) (view cfg d id s F)
      (tr.flatMap (image cfg d id)) := by
  have carried : ∀ s F l label P, Wired cfg s F → ControlLoss cfg d id l s → Causes cfg d id s F l label P →
    Careful label P := by
    intro s F l label P _ good cause
    constructor
    · rintro late rfl phase
      obtain ⟨rfl, i, u, fires, timer⟩ := cause
      exact good.timer i u fires timer (receiverPhase_counting.1 phase)
    · rintro k rfl m q found
      obtain ⟨rfl, i, frame, msg, fwd, loses, wire, reads, isFwd, same⟩ := cause
      obtain rfl : fwd = m := Option.some.inj (same.symm.trans found)
      exact reads.packet_eq_none tags (good.control i loses frame wire) isFwd q
  obtain ⟨F, w, session⟩ := session_of_run d id carried run
  refine ⟨F, w, Careful.kept_of_run (Nat.zero_lt_succ _) ?_ ?_ (meter_steady cfg id) session⟩
  · simp [variant, tags]
  · simp [variant, tags]

/-- The trace of such a machine is one of the lockstep system. -/
theorem synchronous_of_controlLoss (tags : id ≠ cfg.wildcardId)
    (run : Lts.Run (Link.step cfg) (ControlLoss cfg d id) (System.start cfg) s tr) : Synchronous cfg d id tr := by
  constructor
  · intro x mem side k n cells r records found log
    subst side
    obtain ⟨F, -, kept⟩ := careful_session tags run
    obtain ⟨less, eq⟩ := kept.closed.only _ _ _ (consumed_mem_trace cfg log mem)
    exact ⟨Nat.lt_of_lt_of_le less kept.sane.bounded.sender, eq⟩
  · rintro rfl x mem side k flow cells log
    refine (counted_lockstep_of (fun before => ?_) run x mem side k flow cells log).2
    obtain ⟨F, w, kept⟩ := careful_session tags before
    refine ⟨F, w, fun counting => ?_⟩
    have small := kept.sane.bounded.small (by simp [variant, tags]) (Or.inl counting)
    exact ((kept.ledger small).busy (Or.inl counting)).2

/-- **Exact loss accounting under control loss.** Whatever control packets are lost or dropped, as long as no report timer of
the machine fires in its counting receiver: every report that a dedicated entry or the tree consumes accounts for the packets of
its session. -/
theorem accounting_survives (tags : id ≠ cfg.wildcardId) {x : Seen} {k : Nat} {n r : UInt64} {cells : Nat → Nat → UInt32}
    {records : List (Nat × List UInt32)} {found : List Detection}
    (run : Lts.Run (Link.step cfg) (ControlLoss cfg x.side id) (System.start cfg) s tr) (mem : x ∈ tr)
    (log : x.log = .consumed id k n cells r records found) : Accounted cfg x.side id k n r cells records found tr :=
  (synchronous_of_controlLoss tags run).accounted (truthful_of_run x.side run) mem log

/-! The first START, its acknowledgement, the first STOP and the first report of a session are lost; so is one of its two
packets. -/

def everyMessageLost : List (Label deepConfig) :=
  [.fire false 0, .lose false 0, .fire false 0, .deliver false, .lose true 0, .fire false 0, .deliver false, .deliver true,
    .egress false oddPacket none true, .egress false oddPacket none false, .fire false 0, .deliver false, .lose false 0,
    .fire false 0, .deliver false, .fire true 1, .lose true 0, .fire true 1, .deliver true]

/-- `ControlLoss` for the tree machine of the first switch, computed. -/
def controlLossStep : Label deepConfig → System → Bool
  | .lose false i, s => (s.wire false)[i]?.all fun frame => !isTagged deepConfig frame
  | l, s => quietTimers l s

theorem controlLoss_of_controlLossStep {l : Label deepConfig} {s : System} (check : controlLossStep l s = true) :
    ControlLoss deepConfig false 0 l s := by
  constructor
  · rintro i rfl frame wire
    simpa [controlLossStep, wire] using check
  · rintro i u rfl - counting
    simp [controlLossStep, quietTimers] at check
    exact check counting

theorem accounting_survives_every : ∃ s tr,
    Lts.Run (Link.step deepConfig) (ControlLoss deepConfig false 0) (System.start deepConfig) s tr ∧
    ∃ x ∈ tr, ∃ n cells r records found, x.log = .consumed 0 0 n cells r records found ∧
      Accounted deepConfig x.side 0 0 n r cells records found tr ∧ n.toNat - r.toNat = 1 := by
  have session : ∃ s tr, Lts.Run (Link.step deepConfig) (fun l s => controlLossStep l s = true) (System.start deepConfig) s tr ∧
      (tr.any (consumesIn 0), countedPackets false 0 0 tr, lostPackets false 0 0 tr) = (true, 2, 1) :=
    Lts.Run.exists_of_guarded everyMessageLost (by decide +kernel)
  obtain ⟨s, tr, checked, shown⟩ := session
  have run := checked.mono fun _ _ => controlLoss_of_controlLossStep
  simp only [Prod.mk.injEq, List.any_eq_true] at shown
  obtain ⟨⟨x, consumes, shown⟩, counted, lost⟩ := shown
  obtain ⟨side, n, cells, r, records, found, log⟩ := consumesIn_log shown
  have careful : Lts.Run (Link.step deepConfig) (ControlLoss deepConfig x.side 0) (System.start deepConfig) s tr := by
    rw [side]
    exact run
  have accounted := accounting_survives (by decide) careful consumes log
  have number := accounted.counter
  rw [side, counted, lost] at number
  exact ⟨s, tr, run, x, consumes, n, cells, r, records, found, log, accounted, (number.number (by decide)).2.1⟩

end

end Ns3Fancy.Link
