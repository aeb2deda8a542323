import Ns3Fancy.Link.System

/-!
# The reroute filter of a port

Nothing clears a bit of the filter: packets mark entries that are set, and only the detections of a consumed report set
them. What a consumed report left in the log is what the exchange computed from the sender's tree, and the filter has
the paths it reported.
-/

namespace Ns3Fancy.Link
open Switch Buffer Function
set_option autoImplicit false

/-- Every entry that is set stays set. -/
def Grows (p p' : FancyPortInfo) : Prop := ∀ h, (p.reroute h).set = true → (p'.reroute h).set = true

/-- A step that leaves the filter alone lets it grow by nothing. -/
theorem Grows.of_eq {p p' : FancyPortInfo} (same : p'.reroute = p.reroute) : Grows p p' := fun h => by
  rw [same]
  exact id

theorem Grows.trans {p p' p'' : FancyPortInfo} (first : Grows p p') (second : Grows p' p'') : Grows p p'' :=
  fun h set => second h (first h set)

/-- A path that is in the filter stays in it. -/
theorem Grows.isBloomFilterSet {p p' : FancyPortInfo} (grows : Grows p p') {hs : List Nat}
    (set : isBloomFilterSet p hs = true) : isBloomFilterSet p' hs = true := by
  simp only [Switch.isBloomFilterSet, List.all_eq_true] at set ⊢
  exact fun h mem => grows h (set h mem)

/-- The filter has the path of every failure in a list of detections. -/
def HasPaths (cfg : FancyConfig) (found : List Detection) (p : FancyPortInfo) : Prop :=
  ∀ node cell path flows bloom n r, .failure node cell path flows bloom n r ∈ found →
    isBloomFilterSet p (pathHashes cfg path) = true

/-- Paths that a report has put into the filter are in every later filter. -/
theorem HasPaths.grows {cfg : FancyConfig} {found : List Detection} {p p' : FancyPortInfo} (h : HasPaths cfg found p)
    (grows : Grows p p') : HasPaths cfg found p' :=
  fun node cell path flows bloom n r mem => grows.isBloomFilterSet (h node cell path flows bloom n r mem)

section
variable {cfg : FancyConfig} {p : FancyPortInfo}

/-! ## Detections -/

/-- A new path clears no cell. -/
theorem grows_setBloomFilter (path : Bytes) (p : FancyPortInfo) : Grows p (setBloomFilter cfg path p) := by
  intro h set
  simp only [setBloomFilter]
  split
  · rfl
  · exact set

/-- A new path is in the filter afterwards. -/
theorem setBloomFilter_set (path : Bytes) (p : FancyPortInfo) :
    isBloomFilterSet (setBloomFilter cfg path p) (pathHashes cfg path) = true := by
  simp only [isBloomFilterSet, List.all_eq_true]
  intro h mem
  simp only [setBloomFilter, if_pos mem]

theorem grows_applyDetection (p : FancyPortInfo) (x : Detection) : Grows p (applyDetection cfg p x) := by
  cases x with
  | failure _ _ path _ _ _ _ => exact grows_setBloomFilter path p
  | topFailure | softFailure | collision | partialFailure | uniformFailure => exact .of_eq rfl

theorem grows_applyDetections (found : List Detection) (p : FancyPortInfo) :
    Grows p (found.foldl (applyDetection cfg) p) := by
  induction found generalizing p with
  | nil => exact .of_eq rfl
  | cons x found ih => exact (grows_applyDetection p x).trans (ih _)

/-- By induction on the detections: each puts its path in, and the later ones clear no cell. -/
theorem hasPaths_applyDetections (found : List Detection) (p : FancyPortInfo) :
    HasPaths cfg found (found.foldl (applyDetection cfg) p) := by
  induction found generalizing p with
  | nil =>
    intro node cell path flows bloom n r mem
    cases mem
  | cons x found ih =>
    intro node cell path flows bloom n r mem
    rcases List.mem_cons.1 mem with rfl | mem
    · exact (grows_applyDetections found _).isBloomFilterSet (setBloomFilter_set path p)
    · exact ih _ node cell path flows bloom n r mem

/-! ## Packets -/

/-- The first reroute of a path is noted beside the cells. -/
theorem grows_markRerouted (id : Nat) (flow : FiveTuple) (strFlow : String) (p : FancyPortInfo) :
    Grows p (markRerouted cfg id flow strFlow p) := by
  unfold markRerouted
  split
  · split <;> exact .of_eq rfl
  · simp only
    split
    · exact .of_eq rfl
    · intro h set
      simp only
      split <;> exact set

theorem grows_reroute (p : FancyPortInfo) (m : PktInfo cfg.ns3) : Grows p (reroute cfg p m).1 := by
  simp only [reroute]
  generalize (if m.strFlow = "" then cfg.packetStr m.flow else m.strFlow) = strFlow
  split
  · exact grows_markRerouted _ _ _ _
  · exact .of_eq rfl

/-- Counting for the wildcard sets no reroute flag. -/
theorem wildcardEgress_reroute (p : FancyPortInfo) (m : PktInfo cfg.ns3) : (wildcardEgress cfg p m).1.reroute = p.reroute := by
  simp only [wildcardEgress]
  split <;> rfl

/-- Counting on the way out leaves the filter alone, and logs what it counted. -/
theorem egressCounting_frame {m : PktInfo cfg.ns3} {r : FancyPortInfo × PktInfo cfg.ns3 × List PortLog}
    (run : egressCounting cfg p m = some r) :
    r.1.reroute = p.reroute ∧ ∀ e ∈ r.2.2, ∃ id seq flow cells, e = .counted id seq flow cells := by
  have wild : ∀ e ∈ (wildcardEgress cfg p m).2, ∃ id seq flow cells, e = PortLog.counted id seq flow cells := by
    intro e mem
    simp only [wildcardEgress] at mem
    split at mem
    · exact ⟨_, _, _, _, List.mem_singleton.1 mem⟩
    · cases mem
  simp only [egressCounting] at run
  split at run
  · obtain ⟨g, -, rfl⟩ := Option.map_eq_some_iff.1 run
    refine ⟨wildcardEgress_reroute p m, fun e mem => ?_⟩
    rcases List.mem_append.1 mem with mem | mem
    · exact wild e mem
    · exact ⟨_, _, _, _, List.mem_singleton.1 mem⟩
  · have kept : r.1 = (wildcardEgress cfg p m).1 ∧ r.2.2 = (wildcardEgress cfg p m).2 := by
      split at run
      · split at run <;> cases run <;> exact ⟨rfl, rfl⟩
      · cases run
        exact ⟨rfl, rfl⟩
    rw [kept.1, kept.2]
    exact ⟨wildcardEgress_reroute p m, wild⟩

/-- What a consumed report leaves behind. -/
structure Reported (cfg : FancyConfig) (p : FancyPortInfo) (k : Nat) (localCells : Nat → Nat → UInt32)
    (records : List (Nat × List UInt32)) (found : List Detection) : Prop where
  current : k = (p.greySend.currentSEQ cfg.treeId).toNat
  cells : localCells = fun i => (p.greySend.counterTree i).counters
  exchange : found = (treeExchange cfg k records p.greySend.counterTree).2
  climbs : cfg.climbEnds found = true
  bounded : cfg.exchangeEnds = true

/-- The log of a consumed report of the tree machine. -/
theorem consumeReport_logged {id : Nat} {hdr : FancyHeader} (seq : p.greySend.currentSEQ id = hdr.seq.toUInt32)
    {r : FancyPortInfo × List PortLog} (run : consumeReport cfg id hdr p = some r) :
    Grows p r.1 ∧ ∀ k localCounter localCells counter records found,
      .consumed cfg.treeId k localCounter localCells counter records found ∈ r.2 →
        Reported cfg p k localCells records found ∧ HasPaths cfg found r.1 := by
  simp only [consumeReport] at run
  split at run
  · rename_i isTree
    split at run
    swap
    · cases run
    rename_i bounded
    obtain ⟨records, -, run⟩ := Option.bind_eq_some_iff.1 run
    simp only [Option.ite_none_right_eq_some, Option.some.injEq] at run
    obtain ⟨climbs, rfl⟩ := run
    refine ⟨fun h set => grows_applyDetections _ _ h set, ?_⟩
    rintro k _ _ _ _ found mem
    simp only [List.mem_singleton, PortLog.consumed.injEq] at mem
    obtain ⟨-, rfl, -, rfl, -, rfl, rfl⟩ := mem
    refine ⟨⟨?_, rfl, rfl, climbs, bounded⟩, hasPaths_applyDetections _ _⟩
    rw [← isTree, seq, UInt16.toNat_toUInt32]
  · rename_i notTree
    simp only [Option.some.injEq] at run
    subst run
    refine ⟨fun h set => grows_applyDetections _ _ h set, ?_⟩
    rintro k _ _ _ _ found mem
    simp only [List.mem_singleton, PortLog.consumed.injEq] at mem
    exact absurd mem.1.symm notTree

/-- The sender's machine sets entries only when it consumes a report. -/
theorem senderMachine_logged {id : Nat} {hdr : FancyHeader} {m : PktInfo cfg.ns3}
    {r : FancyPortInfo × PktInfo cfg.ns3 × List PortLog} (run : senderMachine cfg id hdr p m = some r) :
    Grows p r.1 ∧ ∀ k localCounter localCells counter records found,
      .consumed cfg.treeId k localCounter localCells counter records found ∈ r.2.2 →
        Reported cfg p k localCells records found ∧ HasPaths cfg found r.1 := by
  have quiet : r.1.reroute = p.reroute → r.2.2 = [] → Grows p r.1 ∧ ∀ k localCounter localCells counter records found,
      .consumed cfg.treeId k localCounter localCells counter records found ∈ r.2.2 →
        Reported cfg p k localCells records found ∧ HasPaths cfg found r.1 := by
    intro same none
    refine ⟨.of_eq same, fun k _ _ _ _ _ mem => ?_⟩
    rw [none] at mem
    cases mem
  simp only [senderMachine] at run
  split at run
  · split at run <;> cases run <;> exact quiet rfl rfl
  · split at run <;> cases run <;> exact quiet rfl rfl
  · cases run
    exact quiet rfl rfl
  · split at run
    · rename_i report
      obtain ⟨q, consumed, rfl⟩ := Option.map_eq_some_iff.1 run
      obtain ⟨grows, logged⟩ := consumeReport_logged (p := { p with events := p.events.cancel (p.greySend.currentEvent id) })
        report.2 consumed
      refine ⟨grows, fun k localCounter localCells counter records found mem => ?_⟩
      obtain ⟨reported, paths⟩ := logged k localCounter localCells counter records found mem
      exact ⟨⟨reported.current, reported.cells, reported.exchange, reported.climbs, reported.bounded⟩, paths⟩
    · cases run
      exact quiet rfl rfl
  · cases run
    exact quiet rfl rfl
  · cases run
    exact quiet rfl rfl

/-- The logs of the ingress box hold no consumed report. -/
theorem ingressMachines_logged {m : PktInfo cfg.ns3} {r : FancyPortInfo × PktInfo cfg.ns3 × List PortLog}
    (run : ingressMachines cfg p m = some r) : ∀ e ∈ r.2.2, ∃ id q, e = .gotStop id q := by
  intro e mem
  simp only [ingressMachines] at run
  split at run
  · cases run
    cases mem
  · split at run
    · cases run
      cases mem
    · split at run
      · obtain ⟨p', -, run⟩ := Option.bind_eq_some_iff.1 run
        split at run
        · cases run
          cases mem
        · split at run
          · obtain ⟨q, -, rfl⟩ := Option.map_eq_some_iff.1 run
            simp only at mem
            split at mem
            · exact ⟨_, _, List.mem_singleton.1 mem⟩
            · cases mem
          · cases run
            cases mem
      · cases run
        cases mem

/-- The machine of the receiver never writes the sender's side of the port. -/
theorem acceptStart_greySend {id : Nat} {shift : Bool} {hdr : FancyHeader} {m : PktInfo cfg.ns3}
    {r : FancyPortInfo × PktInfo cfg.ns3} (run : acceptStart cfg id shift hdr p m = some r) :
    r.1.greySend = p.greySend := by
  simp only [acceptStart] at run
  split at run
  · split at run
    · cases run
    · obtain ⟨records, -, rfl⟩ := Option.map_eq_some_iff.1 run
      rfl
  · cases run
    rfl

theorem receiverMachine_greySend {id : Nat} {hdr : FancyHeader} {m : PktInfo cfg.ns3} {r : FancyPortInfo × PktInfo cfg.ns3}
    (run : receiverMachine cfg id hdr p m = some r) : r.1.greySend = p.greySend := by
  simp only [receiverMachine] at run
  split at run
  · split at run
    · exact acceptStart_greySend run
    · cases run
      rfl
  · split at run
    · exact acceptStart_greySend run
    · split at run <;> cases run <;> rfl
  · cases run
    rfl
  · split at run
    · cases run
      rfl
    · split at run
      · exact acceptStart_greySend run
      · cases run
        rfl
  · cases run
    rfl
  · cases run
    rfl

/-- The ingress box leaves the senders alone. -/
theorem ingressMachines_greySend {m : PktInfo cfg.ns3} {r : FancyPortInfo × PktInfo cfg.ns3 × List PortLog}
    (run : ingressMachines cfg p m = some r) : r.1.greySend = p.greySend := by
  have wild : (wildcardIngress cfg p m).greySend = p.greySend := by
    simp only [wildcardIngress]
    split <;> rfl
  have counted : ∀ {hdr : FancyHeader} {flow : FiveTuple} {p' : FancyPortInfo},
      ingressCount cfg hdr flow (wildcardIngress cfg p m) = some p' → p'.greySend = p.greySend := by
    intro hdr flow p' run
    simp only [ingressCount] at run
    split at run
    · obtain ⟨g, -, rfl⟩ := Option.map_eq_some_iff.1 run
      exact wild
    · cases run
      exact wild
  simp only [ingressMachines] at run
  split at run
  · cases run
    exact wild
  · split at run
    · cases run
      exact wild
    · split at run
      · obtain ⟨p', counts, run⟩ := Option.bind_eq_some_iff.1 run
        split at run
        · cases run
          exact counted counts
        · split at run
          · obtain ⟨q, moved, rfl⟩ := Option.map_eq_some_iff.1 run
            exact (receiverMachine_greySend moved).trans (counted counts)
          · cases run
            exact counted counts
      · cases run
        exact wild

/-! ## Steps of a port -/

/-- A port did something that clears no entry, and its log is true of the tree it had. -/
structure Recorded (cfg : FancyConfig) (p : FancyPortInfo) (o : Outcome) : Prop where
  grows : Grows p o.port
  consumed : ∀ k localCounter localCells counter records found,
    .consumed cfg.treeId k localCounter localCells counter records found ∈ o.log →
      Reported cfg p k localCells records found ∧ HasPaths cfg found o.port

/-- An event consumes no report. -/
theorem runEvent_recorded {ev : Event} {o : Outcome} (run : runEvent cfg p ev = some o) : Recorded cfg p o := by
  cases ev with
  | sendGreyAction action id =>
    obtain ⟨r, sent, rfl⟩ := Option.map_eq_some_iff.1 run
    refine ⟨.of_eq ?_, fun k _ _ _ _ _ mem => by cases mem⟩
    simp only [sendGreyAction] at sent
    split at sent
    · split at sent
      · cases sent
        rfl
      · cases sent
    · split at sent
      · split at sent <;> cases sent <;> rfl
      · split at sent <;> cases sent <;> rfl
  | sendGreyCounter id =>
    obtain ⟨r, sent, rfl⟩ := Option.map_eq_some_iff.1 run
    have frame : r.1.reroute = p.reroute ∧ r.2.2 = [.reported id (p.greyRecv.currentSEQ id).toNat] := by
      simp only [sendGreyCounter] at sent
      split at sent
      · split at sent
        · cases sent
          exact ⟨rfl, by simp⟩
        · cases sent
      · cases sent
        exact ⟨rfl, by simp⟩
    refine ⟨.of_eq frame.1, fun k _ _ _ _ _ mem => ?_⟩
    rw [frame.2] at mem
    simp at mem

/-- Nor does a packet that leaves. -/
theorem emit_recorded {pkt : HostPacket cfg} {earlier : Option (UInt32 × UInt16)} {o : Outcome}
    (run : emit cfg p pkt earlier = some o) : Recorded cfg p o := by
  simp only [emit] at run
  split at run
  · cases run
    exact ⟨grows_reroute _ _, fun k _ _ _ _ _ mem => by cases mem⟩
  · obtain ⟨e, counting, rfl⟩ := Option.map_eq_some_iff.1 run
    obtain ⟨same, log⟩ := egressCounting_frame counting
    refine ⟨(grows_reroute _ _).trans (.of_eq same), fun k _ _ _ _ _ mem => ?_⟩
    obtain ⟨_, _, _, _, counted⟩ := log _ mem
    cases counted

/-- A packet that is turned back meets the sender of the port, which may consume the report it carries. -/
theorem turnBack_recorded {m : PktInfo cfg.ns3} {payload : Bytes} {log : List PortLog}
    (quiet : ∀ e ∈ log, ∃ id q, e = .gotStop id q) {o : Outcome} (run : turnBack cfg p m payload log = some o) :
    Recorded cfg p o := by
  have silent : ∀ k localCounter localCells counter records found,
      .consumed cfg.treeId k localCounter localCells counter records found ∉ log := by
    intro k _ _ _ _ _ mem
    obtain ⟨_, _, stop⟩ := quiet _ mem
    cases stop
  have send : (reroute cfg p m).1.greySend = p.greySend := (sameMachines_reroute p m).send.symm
  simp only [turnBack] at run
  split at run
  · cases run
    exact ⟨grows_reroute _ _, fun k _ _ _ _ _ mem => absurd mem (silent _ _ _ _ _ _)⟩
  obtain ⟨q, machines, run⟩ := Option.bind_eq_some_iff.1 run
  obtain ⟨e, counting, rfl⟩ := Option.map_eq_some_iff.1 run
  obtain ⟨same, counted⟩ := egressCounting_frame counting
  have logged : Grows (reroute cfg p m).1 q.1 ∧ ∀ k localCounter localCells counter records found,
      .consumed cfg.treeId k localCounter localCells counter records found ∈ q.2.2 →
        Reported cfg (reroute cfg p m).1 k localCells records found ∧ HasPaths cfg found q.1 := by
    simp only [egressMachines] at machines
    split at machines
    · split at machines
      · exact senderMachine_logged machines
      · cases machines
        exact ⟨.of_eq rfl, fun k _ _ _ _ _ mem => by cases mem⟩
    · cases machines
      exact ⟨.of_eq rfl, fun k _ _ _ _ _ mem => by cases mem⟩
  refine ⟨((grows_reroute _ _).trans logged.1).trans (.of_eq same), ?_⟩
  intro k localCounter localCells counter records found mem
  rcases List.mem_append.1 mem with mem | mem
  · exact absurd mem (silent _ _ _ _ _ _)
  · rcases List.mem_append.1 mem with mem | mem
    · obtain ⟨reported, paths⟩ := logged.2 _ _ _ _ _ _ mem
      refine ⟨?_, paths.grows (.of_eq same)⟩
      obtain ⟨current, cells, exchange, climbs, bounded⟩ := reported
      rw [send] at current cells exchange
      exact ⟨current, cells, exchange, climbs, bounded⟩
    · obtain ⟨_, _, _, _, other⟩ := counted _ mem
      cases other

/-- A received frame goes through the ingress of its port and, if it is to go back there, through the egress, too. -/
theorem receive_recorded {frame : Frame} {o : Outcome} (run : receive cfg p frame = some o) : Recorded cfg p o := by
  obtain ⟨h, -, run⟩ := Option.bind_eq_some_iff.1 run
  obtain ⟨r, machines, run⟩ := Option.bind_eq_some_iff.1 run
  have quiet := ingressMachines_logged machines
  have send := ingressMachines_greySend machines
  have same := (ingressMachines_reroute machines).1
  split at run
  · obtain ⟨grows, consumed⟩ := turnBack_recorded quiet run
    refine ⟨Grows.trans (.of_eq same) grows, fun k localCounter localCells counter records found mem => ?_⟩
    obtain ⟨⟨current, cells, exchange, climbs, bounded⟩, paths⟩ :=
      consumed k localCounter localCells counter records found mem
    rw [send] at current cells exchange
    exact ⟨⟨current, cells, exchange, climbs, bounded⟩, paths⟩
  · cases run
    refine ⟨.of_eq same, fun k _ _ _ _ _ mem => ?_⟩
    obtain ⟨_, _, stop⟩ := quiet _ mem
    cases stop

end

end Ns3Fancy.Link
