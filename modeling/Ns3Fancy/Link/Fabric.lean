import Ns3Fancy.Link.Network
import Ns3Fancy.Link.Histories
import Ns3Fancy.Switch.Probe

/-!
# Networks of FANcY switches

Any number of switches, joined as one likes, with hosts at the other ports. Hosts send packets, frames travel in order and may
be lost, timers fire at any moment, and the tables and rates of a switch may change on the way. The pipelines of the switches
make it a network of ports, so each link of it is two ports and the link between them.
-/

namespace Ns3Fancy.Link.Fabric
open Switch Buffer Function
set_option autoImplicit false

variable {V : Type}

/-- The tables of every switch, and its ports: port `i` of switch `v` is `(v, i)`. -/
structure State (cfg : FancyConfig) (V : Type) where
  node : V → Node cfg
  net : Net.State (V × Nat)

/-- `luck` is what the error models of the switch say about the packet. -/
inductive Label (cfg : FancyConfig) (V : Type) where
  | enter (x : V × Nat) (pkt : HostPacket cfg) (luck : Luck)
  | deliver (x : V × Nat) (luck : Luck)
  | fire (x : V × Nat) (place : Nat) (luck : Luck)
  | probe (x : V × Nat) (luck : Luck)
  | lose (x : V × Nat) (k : Nat)
  | configure (v : V) (n : Node cfg)

section
variable (cfg : FancyConfig) (net : Net.Cables (V × Nat)) [DecidableEq V]

/-- The ports of a switch. -/
def portsOf (s : Net.State (V × Nat)) (v : V) : Ports := fun i => s.port (v, i)

/-- Switch `v` has run: its ports, and what left by each of them. -/
def put (s : Net.State (V × Nat)) (v : V) (ports : Ports) (sent : List (Nat × Frame)) : Net.State (V × Nat) where
  port x := if x.1 = v then ports x.2 else s.port x
  wire x := if x.1 = v then s.wire x ++ (sent.filter fun f => f.1 = x.2).map (·.2) else s.wire x

/-- What the switch has logged about a frame: counted packets at the port they leave by, all else at the port the frame came in
by. -/
def shown (v : V) (inPort : Nat) (out : Option Nat) (r : Ports × List (Nat × Frame) × List PortLog) :
    List (Net.Seen (V × Nat)) :=
  r.2.2.map fun l =>
    if atEgress l then { port := (v, out.getD inPort), log := l, lost := r.2.1.isEmpty } else { port := (v, inPort), log := l }

/-- What a timer logs. -/
def timerLog (p : FancyPortInfo) (place : Nat) : List PortLog :=
  (p.events.pending[place]?.bind fun e =>
    runEvent cfg { p with events := { p.events with pending := p.events.pending.eraseIdx place } } e.2).elim [] Outcome.log

/-- A frame comes to port `x`. -/
def State.handle (s : State cfg V) (wires : Net.State (V × Nat)) (x : V × Nat) (luck : Luck) (frame : Frame) :
    Option (State cfg V × List (Net.Seen (V × Nat))) :=
  ((s.node x.1).receiveFromDevice luck x.2 frame (portsOf wires x.1)).map fun r =>
    ({ s with net := put wires x.1 r.1 r.2.1 }, shown x.1 x.2 (leavesBy (s.node x.1) x.2 frame) r)

def step : Lts.Step (State cfg V) (Label cfg V) (Net.Seen (V × Nat))
  | .enter x pkt luck, s => if net.peer x = none then s.handle cfg s.net x luck pkt.val.frame else none
  | .deliver x luck, s =>
    match net.peer x, s.net.wire x with
    | some y, frame :: rest => s.handle cfg { s.net with wire := update s.net.wire x rest } y luck frame
    | _, _ => none
  | .fire x place luck, s =>
    ((s.node x.1).fire luck x.2 place (portsOf s.net x.1)).map fun r =>
      ({ s with net := put s.net x.1 r.1 r.2.1 }, Net.seenAt x false (timerLog cfg (s.net.port x) place))
  | .probe x luck, s =>
    ((s.node x.1).sendInternal luck x.2 probeHeader (portsOf s.net x.1)).map fun r =>
      ({ s with net := put s.net x.1 r.1 r.2.1 }, [])
  | .lose x k, s => some ({ s with net := { s.net with wire := update s.net.wire x ((s.net.wire x).eraseIdx k) } }, [])
  | .configure v n, s => some ({ s with node := update s.node v n }, [])

/-- All switches have run `Init`. -/
def start (node : V → Node cfg) : State cfg V := { node := node, net := Net.start cfg net }

end

section
variable {cfg : FancyConfig} {net : Net.Cables (V × Nat)} [DecidableEq V] {s s' : State cfg V} {t : Net.State (V × Nat)} {v : V}

/-! ## One switch of the network -/

omit [DecidableEq V] in
@[simp] theorem portsOf_apply (t : Net.State (V × Nat)) (v : V) (i : Nat) : portsOf t v i = t.port (v, i) := rfl

/-- One port has done something. -/
theorem put_update (t : Net.State (V × Nat)) (v : V) (i : Nat) (o : Outcome) :
    put t v (update (portsOf t v) i o.port) (o.sent.map (Prod.mk i)) = t.after (v, i) o := by
  simp only [put, Net.State.after, Net.State.mk.injEq]
  constructor
  · funext x
    obtain ⟨w, j⟩ := x
    by_cases same : w = v
    · subst same
      by_cases here : j = i
      · subst here
        simp
      · simp [here]
    · simp [same]
  · funext x
    obtain ⟨w, j⟩ := x
    by_cases same : w = v
    · subst same
      by_cases here : j = i
      · subst here
        simp [List.filter_map]
      · have none : (o.sent.map (Prod.mk i)).filter (fun f => decide (f.1 = j)) = [] := by
          simp [List.filter_eq_nil_iff, Ne.symm here]
        simp [here, none]
    · simp [same]

/-- A switch that has run in two parts. -/
theorem put_append (t : Net.State (V × Nat)) (v : V) (ports ports' : Ports) (sent sent' : List (Nat × Frame)) :
    put t v ports' (sent ++ sent') = put (put t v ports sent) v ports' sent' := by
  simp only [put, Net.State.mk.injEq]
  constructor <;> funext x <;> by_cases same : x.1 = v <;> simp [same]

theorem put_self (t : Net.State (V × Nat)) (v : V) : put t v (portsOf t v) [] = t := by
  obtain ⟨port, wire⟩ := t
  simp only [put, Net.State.mk.injEq, portsOf, List.filter_nil, List.map_nil, List.append_nil, ite_self, and_true]
  funext x
  split
  · rename_i here
    rw [← here]
  · rfl

theorem portsOf_after (t : Net.State (V × Nat)) (v : V) (i : Nat) (o : Outcome) :
    portsOf (t.after (v, i) o) v = update (portsOf t v) i o.port := by
  funext j
  by_cases here : j = i
  · subst here
    simp [Net.State.after]
  · simp [Net.State.after, here]

omit [DecidableEq V] in
/-- What a switch shows of a frame that one port has received and another port has sent on. -/
theorem shown_eq {i k : Nat} {out : Option Nat} {ports : Ports} {sent : List (Nat × Frame)} {log log' : List PortLog}
    {lost : Bool}
    (ingress : ∀ l ∈ log, atEgress l = false) (egress : ∀ l ∈ log', atEgress l = true) (chosen : log' = [] ∨ out = some k)
    (gone : log' = [] ∨ sent.isEmpty = lost) :
    shown v i out (ports, sent, log ++ log') = Net.seenAt (v, i) false log ++ Net.seenAt (v, k) lost log' := by
  simp only [shown, List.map_append, Net.seenAt]
  congr 1
  · refine List.map_congr_left fun l mem => ?_
    rw [ingress l mem]
    rfl
  · refine List.map_congr_left fun l mem => ?_
    have some : log' ≠ [] := List.ne_nil_of_mem mem
    rw [egress l mem, chosen.resolve_left some, gone.resolve_left some]
    rfl

/-! ## The switches make a network of ports -/

/-- The port by which a step brings a frame into a switch. -/
def Label.entersBy (net : Net.Cables (V × Nat)) : Label cfg V → Option (V × Nat)
  | .enter x _ _ => some x
  | .deliver x _ => net.peer x
  | .fire .. | .probe .. | .lose .. | .configure .. => none

/-- The steps of the network of ports with which a step of the switches may be answered. A packet leaves a switch that the step
has brought a frame into. -/
def Causes (net : Net.Cables (V × Nat)) (s : State cfg V) (l : Label cfg V) :
    Net.Label cfg (V × Nat) → Net.State (V × Nat) → Prop
  | .deliver x, t => t = s.net ∧ ∃ luck, l = .deliver x luck
  | .lose x k, t => t = s.net ∧ l = .lose x k
  | .fire x i, t => t = s.net ∧ ∃ luck, l = .fire x i luck
  | .egress x _ _ _, _ => ∃ i, l.entersBy net = some (x.1, i)
  | .probe x, t => t = s.net ∧ ∃ luck, l = .probe x luck
  | .host _ _, t => t = s.net

/-- The network of ports answers a step of the switches. -/
abbrev Answers (net : Net.Cables (V × Nat)) (s : State cfg V) (l : Label cfg V) (s' : State cfg V)
    (os : List (Net.Seen (V × Nat))) : Prop :=
  Lts.Run (Net.step cfg net) (Causes net s l) s.net s'.net os

/-- A switch has handled a frame: the port it came in by has received it, and then a packet may have left. -/
theorem run_of_hopped {l : Label cfg V} {i : Nat} {frame : Frame} {out : Option Nat}
    {r : Ports × List (Nat × Frame) × List PortLog} (hopped : Hopped cfg (portsOf t v) i frame out r)
    (enters : l.entersBy net = some (v, i))
    (first : ∀ o, receive cfg (t.port (v, i)) frame = some o →
      Lts.Run (Net.step cfg net) (Causes net s l) s.net (t.after (v, i) o) (Net.seenAt (v, i) false o.log)) :
    Lts.Run (Net.step cfg net) (Causes net s l) s.net (put t v r.1 r.2.1) (shown v i out r) := by
  cases hopped with
  | @intro o e received passes whole ingress one _ =>
    have run := first o received
    have parts : put t v r.1 r.2.1 = put (t.after (v, i) o) v e.1 e.2.1 := by
      rw [whole, put_append t v (update (portsOf t v) i o.port), put_update]
    rw [parts, whole]
    rw [← portsOf_after] at passes
    cases passes with
    | stays =>
      have none : ∀ l ∈ ([] : List PortLog), atEgress l = true := by simp
      rw [put_self, @shown_eq _ v i i out _ _ o.log [] false ingress none (Or.inl rfl) (Or.inl rfl)]
      simp only [Net.seenAt, List.map_nil, List.append_nil]
      exact run
    | @leaves k pkt earlier lost o₂ chosen emitted =>
      obtain ⟨egress, sends⟩ := emit_log emitted
      have gone : o₂.log = [] ∨ (o.sent.map (Prod.mk i) ++ if lost then [] else o₂.sent.map (Prod.mk k)).isEmpty = lost := by
        rcases one with none | quiet
        · refine sends.imp_right fun some => ?_
          rw [none]
          cases lost with
          | false => simpa using some
          | true => rfl
        · exact Or.inl quiet
      rw [shown_eq ingress egress (Or.inr chosen) gone]
      have second : Net.step cfg net (.egress (v, k) pkt earlier lost) (t.after (v, i) o) =
          some ((t.after (v, i) o).after (v, k) (if lost then { o₂ with sent := [] } else o₂),
            Net.seenAt (v, k) lost o₂.log) := by
        have emitted' : emit cfg ((t.after (v, i) o).port (v, k)) pkt earlier = some o₂ := emitted
        rw [Net.step, emitted']
        rfl
      have port : put (t.after (v, i) o) v (update (portsOf (t.after (v, i) o) v) k o₂.port)
          (if lost then [] else o₂.sent.map (Prod.mk k)) =
          (t.after (v, i) o).after (v, k) (if lost then { o₂ with sent := [] } else o₂) := by
        cases lost with
        | false => exact put_update _ v k o₂
        | true => exact put_update _ v k { o₂ with sent := [] }
      have cause : Causes net s l (.egress (v, k) pkt earlier lost) (t.after (v, i) o) := ⟨i, enters⟩
      rw [port]
      exact run.snoc cause second

/-- A port towards a host has done something. -/
theorem run_host {l : Label cfg V} {x : V × Nat} (host : net.peer x = none) (o : Outcome) :
    Lts.Run (Net.step cfg net) (Causes net s l) s.net (s.net.after x o) (Net.seenAt x false o.log) := by
  have cause : Causes net s l (.host x o) s.net := rfl
  have hstep : Net.step cfg net (.host x o) s.net = some (s.net.after x o, Net.seenAt x false o.log) := if_pos host
  exact .single cause hstep

/-- **Each step of the switches is answered by the network of ports.** -/
theorem answers_of_step (sane : Net.Sane cfg net s.net) {l : Label cfg V} {os : List (Net.Seen (V × Nat))}
    (hstep : step cfg net l s = some (s', os)) : Answers net s l s' os := by
  cases l with
  | enter x pkt luck =>
    simp only [step] at hstep
    split at hstep
    · rename_i host
      obtain ⟨r, run, hstep⟩ := Option.map_eq_some_iff.1 hstep
      cases hstep
      rw [← carrying_none pkt false] at run ⊢
      rw [leavesBy_carrying]
      exact run_of_hopped (receiveFromDevice_carrying run) rfl fun o _ => run_host host o
    · cases hstep
  | deliver x luck =>
    simp only [step] at hstep
    split at hstep
    · rename_i y frame rest cable wire
      obtain ⟨r, run, hstep⟩ := Option.map_eq_some_iff.1 hstep
      cases hstep
      have joined : (net.peer x).isSome := by rw [cable]; rfl
      have back : (net.peer y).isSome := by rw [net.peer_symm x y cable]; rfl
      have sound := sane.sound x joined frame (by rw [wire]; exact List.mem_cons_self)
      have hopped := receiveFromDevice_sound (sane.settled y back) sound run
      refine run_of_hopped hopped cable fun o received => ?_
      have cause : Causes net s (.deliver x luck) (.deliver x) s.net := ⟨rfl, luck, rfl⟩
      have first : Net.step cfg net (.deliver x) s.net =
          some (Net.State.after { s.net with wire := update s.net.wire x rest } y o, Net.seenAt y false o.log) := by
        have received' : receive cfg (s.net.port y) frame = some o := received
        simp only [Net.step, cable, wire, received', Option.map_some]
      exact .single cause first
    · cases hstep
  | fire x place luck =>
    obtain ⟨r, run, hstep⟩ := Option.map_eq_some_iff.1 hstep
    cases hstep
    cases cable : net.peer x with
    | some y =>
      have joined : (net.peer x).isSome := by rw [cable]; rfl
      rw [fire_eq (sane.settled x joined)] at run
      obtain ⟨e, at_, run⟩ := Option.bind_eq_some_iff.1 run
      obtain ⟨o, ran, rfl⟩ := Option.map_eq_some_iff.1 run
      have log : timerLog cfg (s.net.port x) place = o.log := by
        have at_' : (s.net.port x).events.pending[place]? = some e := at_
        have ran' : runEvent cfg { s.net.port x with events := { (s.net.port x).events with
          pending := (s.net.port x).events.pending.eraseIdx place } } e.2 = some o := ran
        rw [timerLog, at_', Option.bind_some, ran']
        rfl
      have cause : Causes net s (.fire x place luck) (.fire x place) s.net := ⟨rfl, luck, rfl⟩
      have first : Net.step cfg net (.fire x place) s.net = some (s.net.after x o, Net.seenAt x false o.log) := by
        have at_' : (s.net.port x).events.pending[place]? = some e := at_
        have ran' : runEvent cfg { s.net.port x with events := { (s.net.port x).events with
          pending := (s.net.port x).events.pending.eraseIdx place } } e.2 = some o := ran
        simp only [Net.step, joined, if_true, at_', Option.bind_some, ran', Option.map_some]
      rw [Answers, log, put_update]
      exact .single cause first
    | none =>
      obtain ⟨port, frames, ports, sent⟩ := fire_local run
      have same : put s.net x.1 r.1 r.2.1 =
          s.net.after x { port := port, sent := frames, log := timerLog cfg (s.net.port x) place } := by
        rw [ports, sent]
        exact put_update s.net x.1 x.2 { port := port, sent := frames, log := timerLog cfg (s.net.port x) place }
      rw [Answers, same]
      exact run_host cable _
  | probe x luck =>
    obtain ⟨r, run, hstep⟩ := Option.map_eq_some_iff.1 hstep
    cases hstep
    cases cable : net.peer x with
    | some y =>
      have joined : (net.peer x).isSome := by rw [cable]; rfl
      cases congested : (s.node x.1).congested luck (ownPacket cfg x.2 probeHeader) with
      | true =>
        rw [sendInternal_congested congested] at run
        cases run
        rw [Answers, put_self]
        exact .nil
      | false =>
        rw [sendInternal_control (sane.settled x joined).towardsSwitch congested] at run
        cases run
        have cause : Causes net s (.probe x luck) (.probe x) s.net := ⟨rfl, luck, rfl⟩
        refine .single cause ?_
        have same : put s.net x.1 (portsOf s.net x.1) [(x.2, controlFrame probeHeader)] =
            s.net.after x { port := s.net.port x, sent := [controlFrame probeHeader] } := by
          have sent := put_update s.net x.1 x.2 { port := s.net.port x, sent := [controlFrame probeHeader] }
          rwa [← portsOf_apply s.net x.1 x.2, update_eq_self] at sent
        rw [same]
        simp only [Net.step, Net.State.after, update_eq_self]
        rfl
    | none =>
      obtain ⟨port, frames, ports, sent⟩ := sendInternal_local run
      have same : put s.net x.1 r.1 r.2.1 = s.net.after x { port := port, sent := frames } := by
        rw [ports, sent]
        exact put_update s.net x.1 x.2 { port := port, sent := frames }
      rw [Answers, same]
      exact run_host cable _
  | lose x k =>
    cases hstep
    have cause : Causes net s (.lose x k) (.lose x k) s.net := ⟨rfl, rfl⟩
    exact .single cause rfl
  | configure v n =>
    cases hstep
    exact .nil

/-! ## Links of the network -/

/-- The step of the switches that a step of a link is part of. A packet leaves a switch that the step has brought a frame
into. -/
def Explains (net : Net.Cables (V × Nat)) (a b : V × Nat) (l : Label cfg V) (s : State cfg V) : Link.Label cfg → System → Prop
  | .deliver d, t => t = s.net.link a b ∧ ∃ luck, l = .deliver (if d then b else a) luck
  | .lose d k, t => t = s.net.link a b ∧ l = .lose (if d then b else a) k
  | .fire d i, t => t = s.net.link a b ∧ ∃ luck, l = .fire (if d then b else a) i luck
  | .egress d _ _ _, _ => ∃ i, l.entersBy net = some ((if d then b else a).1, i)
  | .probe d, t => t = s.net.link a b ∧ ∃ luck, l = .probe (if d then b else a) luck

theorem explains_of_causes {a b : V × Nat} {l : Label cfg V} {m : Net.Label cfg (V × Nat)} (cause : Causes net s l m t)
    {l' : Link.Label cfg} (here : Net.onLink a b m = some l') : Explains net a b l s l' (t.link a b) := by
  cases m with
  | deliver x =>
    obtain ⟨d, at_, rfl⟩ := Option.map_eq_some_iff.1 here
    obtain ⟨rfl, luck, rfl⟩ := cause
    exact ⟨rfl, luck, by rw [Net.side_eq_some at_]⟩
  | lose x k =>
    obtain ⟨d, at_, rfl⟩ := Option.map_eq_some_iff.1 here
    obtain ⟨rfl, rfl⟩ := cause
    exact ⟨rfl, by rw [Net.side_eq_some at_]⟩
  | fire x i =>
    obtain ⟨d, at_, rfl⟩ := Option.map_eq_some_iff.1 here
    obtain ⟨rfl, luck, rfl⟩ := cause
    exact ⟨rfl, luck, by rw [Net.side_eq_some at_]⟩
  | egress x pkt earlier lost =>
    obtain ⟨d, at_, rfl⟩ := Option.map_eq_some_iff.1 here
    obtain ⟨i, enters⟩ := cause
    exact ⟨i, by rw [enters, Net.side_eq_some at_]⟩
  | probe x =>
    obtain ⟨d, at_, rfl⟩ := Option.map_eq_some_iff.1 here
    obtain ⟨rfl, luck, rfl⟩ := cause
    exact ⟨rfl, luck, by rw [Net.side_eq_some at_]⟩
  | host x o => cases here

/-- Each run of the switches, seen from a link. -/
theorem link_of_run {a b : V × Nat} (joined : net.peer a = some b) {ok : Label cfg V → State cfg V → Prop}
    {ok' : Link.Label cfg → System → Prop} (carried : ∀ l u l' t, ok l u → Explains net a b l u l' t → ok' l' t)
    {node : V → Node cfg} {tr : List (Net.Seen (V × Nat))} (run : Lts.Run (step cfg net) ok (start cfg net node) s tr) :
    Lts.Run (Link.step cfg) ok' (System.start cfg) (s.net.link a b) (tr.flatMap (Net.image a b)) := by
  have simulated : ∃ t, Lts.Run (Link.step cfg) ok' (System.start cfg) t (tr.flatMap (Net.image a b)) ∧
      t = s.net.link a b ∧ Net.Sane cfg net s.net := by
    refine run.simulate (R := fun s t => t = s.net.link a b ∧ Net.Sane cfg net s.net)
      ⟨(Net.start_link joined).symm, Net.sane_start cfg net⟩ ?_
    rintro u _ l u' os ⟨rfl, sane⟩ good hstep
    have answer := answers_of_step sane hstep
    refine ⟨_, Net.link_of_run joined ?_ answer, rfl, sane.run answer⟩
    intro m l' t cause here
    exact carried l u l' _ good (explains_of_causes cause here)
  obtain ⟨_, answer, rfl, -⟩ := simulated
  exact answer

/-- **Networks refine their links.** Whatever the topology, the tables, the error models and the order of events: seen from two
joined ports, each run of the switches is a run of a single link. -/
theorem links_refine {a b : V × Nat} (joined : net.peer a = some b) {ok : Label cfg V → State cfg V → Prop}
    {node : V → Node cfg} {tr : List (Net.Seen (V × Nat))} (run : Lts.Run (step cfg net) ok (start cfg net node) s tr) :
    Lts.Run (Link.step cfg) (fun l' t => ∃ l u, ok l u ∧ Explains net a b l u l' t) (System.start cfg) (s.net.link a b)
      (tr.flatMap (Net.image a b)) :=
  link_of_run joined (fun l u _ _ good explains => ⟨l, u, good, explains⟩) run

/-! Three switches in a row, with a host at either end. The first START is lost on its wire. Of two packets the first switch
loses one and the other crosses both links; then the report comes back. -/

def line : Net.Cables (Nat × Nat) where
  peer
    | (0, 1) => some (1, 0)
    | (1, 0) => some (0, 1)
    | (1, 1) => some (2, 0)
    | (2, 0) => some (1, 1)
    | _ => none
  peer_symm x y cable := by
    split at cable <;> cases cable <;> rfl
  peer_ne x := by
    split <;> simp

/-- Switch `v + 1` has a gray failure of the packets with that type of service. -/
def crossover (v : Nat) : Node deepConfig where
  switchId := v + 1
  forwarding := .portForwarding fun i => if i = 0 then some 1 else if i = 1 then some 0 else none
  interfaces := [0, 1]
  tmDropRate := 0
  failDropRate := 1

/-- `oddPacket` with the type of service that the first switch loses. -/
def doomedPacket : HostPacket deepConfig :=
  ⟨{ protocol := IPV4
     headers := { ipv4 := some ⟨[0, 1] ++ List.replicate 16 0 ++ [1, 0], rfl⟩ }
     payload := [] }, by constructor <;> decide⟩

def overLine : List (Label deepConfig Nat) :=
  [.fire (0, 1) 0 {}, .lose (0, 1) 0, .fire (0, 1) 0 {}, .deliver (0, 1) {}, .deliver (1, 0) {}, .enter (0, 0) doomedPacket {},
    .enter (0, 0) oddPacket {}, .deliver (0, 1) {}, .deliver (1, 1) {}, .fire (0, 1) 0 {}, .deliver (0, 1) {},
      .fire (1, 0) 1 {}, .deliver (1, 0) {}]

theorem links_refine_line : ∃ (s : State deepConfig Nat) (tr : List Link.Seen),
    Lts.Run (Link.step deepConfig) (fun l' t => ∃ (l : Label deepConfig Nat) (u : State deepConfig Nat),
      True ∧ Explains line (0, 1) (1, 0) l u l' t) (System.start deepConfig) (s.net.link (0, 1) (1, 0)) tr ∧
    tr.length = 5 ∧ (s.net.wire (2, 1)).map Frame.bytes = [oddPacket.val.frame.bytes] := by
  have crossed : ∃ s tr, Lts.Run (step deepConfig line) (fun _ _ => True) (start deepConfig line crossover) s tr ∧
      ((tr.flatMap (Net.image (0, 1) (1, 0))).length, (s.net.wire (2, 1)).map Frame.bytes) = (5, [oddPacket.val.frame.bytes]) :=
    Lts.Run.exists_of_guarded overLine (by decide +kernel)
  obtain ⟨s, tr, run, facts⟩ := crossed
  simp only [Prod.mk.injEq] at facts
  obtain ⟨shown, arrived⟩ := facts
  exact ⟨s, tr.flatMap (Net.image (0, 1) (1, 0)), links_refine rfl run, shown, arrived⟩

end

end Ns3Fancy.Link.Fabric
