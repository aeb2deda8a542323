import Ns3Fancy.Link.Hop
import Ns3Fancy.Link.Accounting

/-!
# Networks of ports

Any number of ports, some of them joined in pairs by links. What the rest of a switch does shows at its ports as packets that
leave by them, as between two switches. Seen from the two ports of a link, a run of the network is a run of that link.
-/

namespace Ns3Fancy.Link.Net
open Switch Buffer Function
set_option autoImplicit false

variable {X : Type}

/-- The links: each joins a port to another one, and a port without a link is one towards a host. -/
structure Cables (X : Type) where
  peer : X → Option X
  peer_symm : ∀ x y, peer x = some y → peer y = some x
  peer_ne : ∀ x, peer x ≠ some x

/-- Every port, and the wire out of it, oldest frame first. -/
structure State (X : Type) where
  port : X → FancyPortInfo
  wire : X → List Frame

/-- The steps of a link at any port; a port towards a host may do anything. -/
inductive Label (cfg : FancyConfig) (X : Type) where
  | fire (x : X) (i : Nat)
  | probe (x : X)
  | egress (x : X) (pkt : HostPacket cfg) (earlier : Option (UInt32 × UInt16)) (lost : Bool)
  | deliver (x : X)
  | lose (x : X) (i : Nat)
  | host (x : X) (o : Outcome)

structure Seen (X : Type) where
  port : X
  log : PortLog
  lost : Bool := false

/-- What port `x` shows of an outcome. -/
def seenAt (x : X) (lost : Bool) (log : List PortLog) : List (Seen X) := log.map fun l => { port := x, log := l, lost := lost }

section
variable (cfg : FancyConfig) (net : Cables X) [DecidableEq X]

/-- Port `x` has done something; what it sent goes on its wire. -/
def State.after (s : State X) (x : X) (o : Outcome) : State X :=
  { port := update s.port x o.port, wire := update s.wire x (s.wire x ++ o.sent) }

def step : Lts.Step (State X) (Label cfg X) (Seen X)
  | .fire x i, s =>
    if (net.peer x).isSome then
      (s.port x).events.pending[i]?.bind fun e =>
        (runEvent cfg { s.port x with events := { (s.port x).events with pending := (s.port x).events.pending.eraseIdx i } }
          e.2).map fun o => (s.after x o, seenAt x false o.log)
    else none
  | .probe x, s => some ({ s with wire := update s.wire x (s.wire x ++ [controlFrame {}]) }, [])
  | .egress x pkt earlier lost, s =>
    (emit cfg (s.port x) pkt earlier).map fun o =>
      (s.after x (if lost then { o with sent := [] } else o), seenAt x lost o.log)
  | .deliver x, s =>
    match net.peer x, s.wire x with
    | some y, frame :: rest =>
      (receive cfg (s.port y) frame).map fun o =>
        (State.after { s with wire := update s.wire x rest } y o, seenAt y false o.log)
    | _, _ => none
  | .lose x i, s => some ({ s with wire := update s.wire x ((s.wire x).eraseIdx i) }, [])
  | .host x o, s => if net.peer x = none then some (s.after x o, seenAt x false o.log) else none

/-- All switches have run `Init`. -/
def start : State X := { port := fun x => initPort cfg (net.peer x).isSome, wire := fun _ => [] }

end

/-! ## A link of the network -/

/-- The link from port `a` to port `b`. -/
def State.link (s : State X) (a b : X) : System where
  port d := s.port (if d then b else a)
  wire d := s.wire (if d then b else a)

section
variable {cfg : FancyConfig} {net : Cables X} [DecidableEq X] {s s' : State X} {a b : X}

/-- The side of the link at which a port is. -/
def side (a b x : X) : Option Bool := if x = a then some false else if x = b then some true else none

/-- What the link shows of a step of the network. -/
def image (a b : X) (o : Seen X) : List Link.Seen :=
  (side a b o.port).elim [] fun d => [{ side := d, log := o.log, lost := o.lost }]

/-- The step of the link that a step of the network is. -/
def onLink (a b : X) : Label cfg X → Option (Link.Label cfg)
  | .fire x i => (side a b x).map fun d => .fire d i
  | .probe x => (side a b x).map fun d => .probe d
  | .egress x pkt earlier lost => (side a b x).map fun d => .egress d pkt earlier lost
  | .deliver x => (side a b x).map fun d => .deliver d
  | .lose x i => (side a b x).map fun d => .lose d i
  | .host _ _ => none

theorem side_eq_some {x : X} {d : Bool} (found : side a b x = some d) : x = if d then b else a := by
  simp only [side] at found
  split at found
  · cases found
    assumption
  split at found
  · cases found
    assumption
  · cases found

theorem side_ne {x : X} (elsewhere : side a b x = none) : a ≠ x ∧ b ≠ x := by
  simp only [side] at elsewhere
  split at elsewhere
  · cases elsewhere
  split at elsewhere
  · cases elsewhere
  · exact ⟨fun same => by simp_all, fun same => by simp_all⟩

omit [DecidableEq X] in
theorem Cables.ne_of_peer (joined : net.peer a = some b) : a ≠ b := by
  rintro rfl
  exact net.peer_ne a joined

omit [DecidableEq X] in
/-- The other side of the link. -/
theorem Cables.peer_end (joined : net.peer a = some b) (d : Bool) :
    net.peer (if d then b else a) = some (if d then a else b) := by
  cases d
  · exact joined
  · exact net.peer_symm a b joined

theorem image_seenAt (x : X) (lost : Bool) (log : List PortLog) :
    (seenAt x lost log).flatMap (image a b) =
      (side a b x).elim [] fun d => log.map fun l => { side := d, log := l, lost := lost } := by
  simp only [seenAt, List.flatMap_map, image]
  cases side a b x with
  | none => simp
  | some d =>
    simp only [Option.elim_some]
    exact List.flatMap_pure_eq_map _ log

/-- A port of the link has done something. -/
theorem link_after (ne : a ≠ b) (s : State X) {x : X} {d : Bool} (here : side a b x = some d) (o : Outcome) :
    (s.after x o).link a b = (s.link a b).after d o := by
  obtain rfl := side_eq_some here
  simp only [State.link, State.after, System.after, System.mk.injEq]
  constructor <;> funext e <;> cases d <;> cases e <;> simp [ne, ne.symm]

/-- Another port has done something. -/
theorem link_after_of_none (s : State X) {x : X} (elsewhere : side a b x = none) (o : Outcome) :
    (s.after x o).link a b = s.link a b := by
  obtain ⟨notA, notB⟩ := side_ne elsewhere
  simp only [State.link, State.after, System.mk.injEq]
  constructor <;> funext e <;> cases e <;> simp [notA, notB]

/-- A wire of the link changes. -/
theorem link_setWire (ne : a ≠ b) (s : State X) {x : X} {d : Bool} (here : side a b x = some d) (frames : List Frame) :
    State.link { s with wire := update s.wire x frames } a b =
      { s.link a b with wire := update (s.link a b).wire d frames } := by
  obtain rfl := side_eq_some here
  simp only [State.link, System.mk.injEq, true_and]
  funext e
  cases d <;> cases e <;> simp [ne, ne.symm]

theorem link_setWire_of_none (s : State X) {x : X} (elsewhere : side a b x = none) (frames : List Frame) :
    State.link { s with wire := update s.wire x frames } a b = s.link a b := by
  obtain ⟨notA, notB⟩ := side_ne elsewhere
  simp only [State.link, System.mk.injEq, true_and]
  funext e
  cases e <;> simp [notA, notB]

theorem link_port {x : X} {d : Bool} (here : side a b x = some d) (s : State X) : (s.link a b).port d = s.port x := by
  rw [side_eq_some here]
  rfl

theorem link_wire {x : X} {d : Bool} (here : side a b x = some d) (s : State X) : (s.link a b).wire d = s.wire x := by
  rw [side_eq_some here]
  rfl

/-- The far side of a port of the link, and of any other port. -/
theorem side_peer (joined : net.peer a = some b) {x y : X} (cable : net.peer x = some y) :
    side a b y = (side a b x).map (! ·) := by
  have ne := Cables.ne_of_peer joined
  cases here : side a b x with
  | some d =>
    obtain rfl := side_eq_some here
    rw [Cables.peer_end joined d] at cable
    cases cable
    cases d <;> simp [side, ne.symm]
  | none =>
    obtain ⟨notA, notB⟩ := side_ne here
    have back := net.peer_symm x y cable
    have notA' : y ≠ a := by
      rintro rfl
      exact notB (Option.some.inj (joined.symm.trans back))
    have notB' : y ≠ b := by
      rintro rfl
      exact notA (Option.some.inj ((net.peer_symm a _ joined).symm.trans back))
    simp [side, notA', notB']

/-- The steps with which the link answers a step of the network. -/
abbrev Answers (a b : X) (s : State X) (l : Label cfg X) (s' : State X) (os : List (Seen X)) : Prop :=
  Lts.Run (Link.step cfg) (fun l' t => onLink a b l = some l' ∧ t = s.link a b) (s.link a b) (s'.link a b)
    (os.flatMap (image a b))

theorem Answers.elsewhere {l : Label cfg X} {os : List (Seen X)} (same : s'.link a b = s.link a b)
    (quiet : os.flatMap (image a b) = []) : Answers a b s l s' os := by
  rw [Answers, same, quiet]
  exact .nil

theorem Answers.single {l : Label cfg X} {os : List (Seen X)} {m : Link.Label cfg} (label : onLink a b l = some m)
    (hstep : Link.step cfg m (s.link a b) = some (s'.link a b, os.flatMap (image a b))) : Answers a b s l s' os :=
  Lts.Run.single ⟨label, rfl⟩ hstep

/-- **A step of the network, seen from a link**: at most one step of that link. -/
theorem step_link (joined : net.peer a = some b) {l : Label cfg X} {os : List (Seen X)}
    (hstep : step cfg net l s = some (s', os)) : Answers a b s l s' os := by
  have ne := Cables.ne_of_peer joined
  cases l with
  | fire x i =>
    simp only [step] at hstep
    split at hstep
    · obtain ⟨e, at_, hstep⟩ := Option.bind_eq_some_iff.1 hstep
      obtain ⟨o, run, hstep⟩ := Option.map_eq_some_iff.1 hstep
      cases hstep
      cases here : side a b x with
      | none => exact .elsewhere (link_after_of_none s here o) (by rw [image_seenAt, here]; rfl)
      | some d =>
        refine .single (m := .fire d i) (by rw [onLink, here]; rfl) ?_
        rw [image_seenAt, here, link_after ne s here o]
        simp only [Link.step, link_port here, at_, Option.bind_some, run, Option.map_some]
        rfl
    · cases hstep
  | probe x =>
    cases hstep
    cases here : side a b x with
    | none => exact .elsewhere (link_setWire_of_none s here _) rfl
    | some d =>
      refine .single (m := .probe d) (by rw [onLink, here]; rfl) ?_
      rw [link_setWire ne s here, ← link_wire here s]
      rfl
  | egress x pkt earlier lost =>
    obtain ⟨o, run, hstep⟩ := Option.map_eq_some_iff.1 hstep
    cases hstep
    cases here : side a b x with
    | none => exact .elsewhere (link_after_of_none s here _) (by rw [image_seenAt, here]; rfl)
    | some d =>
      refine .single (m := .egress d pkt earlier lost) (by rw [onLink, here]; rfl) ?_
      rw [image_seenAt, here, link_after ne s here]
      simp only [Link.step, link_port here, run, Option.map_some]
      rfl
  | deliver x =>
    simp only [step] at hstep
    split at hstep
    · rename_i y frame rest cable wire
      obtain ⟨o, run, hstep⟩ := Option.map_eq_some_iff.1 hstep
      cases hstep
      have far := side_peer joined cable
      cases here : side a b x with
      | none =>
        rw [here] at far
        refine .elsewhere ?_ (by rw [image_seenAt, far]; rfl)
        rw [link_after_of_none _ far, link_setWire_of_none s here]
      | some d =>
        rw [here] at far
        refine .single (m := .deliver d) (by rw [onLink, here]; rfl) ?_
        rw [image_seenAt, far, link_after ne _ far, link_setWire ne s here]
        simp only [Link.step, link_wire here, wire, link_port far, run, Option.map_some]
        rfl
    · cases hstep
  | lose x i =>
    cases hstep
    cases here : side a b x with
    | none => exact .elsewhere (link_setWire_of_none s here _) rfl
    | some d =>
      refine .single (m := .lose d i) (by rw [onLink, here]; rfl) ?_
      rw [link_setWire ne s here, ← link_wire here s]
      rfl
  | host x o =>
    simp only [step] at hstep
    split at hstep
    · rename_i host
      cases hstep
      have here : side a b x = none := by
        cases found : side a b x with
        | none => rfl
        | some d =>
          rw [side_eq_some found, Cables.peer_end joined d] at host
          cases host
      exact .elsewhere (link_after_of_none s here o) (by rw [image_seenAt, here]; rfl)
    · cases hstep

omit [DecidableEq X] in
theorem start_link (joined : net.peer a = some b) : (start cfg net).link a b = System.start cfg := by
  simp only [start, State.link, System.start, System.mk.injEq]
  refine ⟨funext fun d => ?_, trivial⟩
  rw [Cables.peer_end joined d]
  rfl

/-- **Each run of the network is a run of every link of it**, seen through `image`. -/
theorem link_of_run {ok : Label cfg X → State X → Prop} {ok' : Link.Label cfg → System → Prop}
    (joined : net.peer a = some b)
    (carried : ∀ l l' t, ok l t → onLink a b l = some l' → ok' l' (t.link a b)) {r : State X} {tr : List (Seen X)}
    (run : Lts.Run (step cfg net) ok r s tr) :
    Lts.Run (Link.step cfg) ok' (r.link a b) (s.link a b) (tr.flatMap (image a b)) := by
  have simulated : ∃ t, Lts.Run (Link.step cfg) ok' (r.link a b) t (tr.flatMap (image a b)) ∧ t = s.link a b := by
    refine run.simulate (R := fun s t => t = s.link a b) rfl ?_
    rintro t _ l u os rfl good hstep
    refine ⟨_, (step_link joined hstep).mono ?_, rfl⟩
    rintro l' _ ⟨label, rfl⟩
    exact carried l l' t good label
  obtain ⟨_, answer, rfl⟩ := simulated
  exact answer

/-! ## What is on the links -/

variable (cfg net) in
omit [DecidableEq X] in
/-- The ports towards switches are settled, and the frames between switches are sound. -/
structure Sane (s : State X) : Prop where
  settled : ∀ x, (net.peer x).isSome → Settled cfg (s.port x)
  sound : ∀ x, (net.peer x).isSome → ∀ f ∈ s.wire x, Sound cfg f

theorem Sane.after (h : Sane cfg net s) {x : X} {o : Outcome}
    (good : (net.peer x).isSome → Settled cfg o.port ∧ ∀ f ∈ o.sent, Sound cfg f) : Sane cfg net (s.after x o) where
  settled y joined := by
    by_cases here : y = x
    · subst here
      simpa [State.after] using (good joined).1
    · simpa [State.after, here] using h.settled y joined
  sound y joined f mem := by
    by_cases here : y = x
    · subst here
      simp only [State.after, update_self, List.mem_append] at mem
      rcases mem with before | new
      · exact h.sound y joined f before
      · exact (good joined).2 f new
    · simp only [State.after, update_of_ne here] at mem
      exact h.sound y joined f mem

theorem Sane.setWire (h : Sane cfg net s) {x : X} {frames : List Frame}
    (good : (net.peer x).isSome → ∀ f ∈ frames, Sound cfg f) : Sane cfg net { s with wire := update s.wire x frames } where
  settled := h.settled
  sound y joined f mem := by
    by_cases here : y = x
    · subst here
      simp only [update_self] at mem
      exact good joined f mem
    · simp only [update_of_ne here] at mem
      exact h.sound y joined f mem

omit [DecidableEq X] in
theorem sane_start (cfg : FancyConfig) (net : Cables X) : Sane cfg net (start cfg net) where
  settled x joined := by
    simp only [start, joined]
    exact (begun_initPort cfg).settled
  sound x _ f mem := by cases mem

/-- **A step keeps the ports settled and the frames sound.** -/
theorem Sane.step (h : Sane cfg net s) {l : Label cfg X} {os : List (Seen X)} (hstep : step cfg net l s = some (s', os)) :
    Sane cfg net s' := by
  cases l with
  | fire x i =>
    simp only [Net.step] at hstep
    split at hstep
    · obtain ⟨e, at_, hstep⟩ := Option.bind_eq_some_iff.1 hstep
      obtain ⟨o, run, hstep⟩ := Option.map_eq_some_iff.1 hstep
      cases hstep
      refine h.after fun joined => ?_
      obtain ⟨settled, messages⟩ := (h.settled x joined).fire_sound at_ run
      exact ⟨settled, fun f mem => (messages f mem).sound⟩
    · cases hstep
  | probe x =>
    cases hstep
    refine h.setWire fun joined f mem => ?_
    rcases List.mem_append.1 mem with before | new
    · exact h.sound x joined f before
    · rw [List.mem_singleton.1 new]
      exact .control .probe rfl probe_reads
  | egress x pkt earlier lost =>
    obtain ⟨o, run, hstep⟩ := Option.map_eq_some_iff.1 hstep
    cases hstep
    refine h.after fun joined => ?_
    obtain ⟨settled, sound⟩ := (h.settled x joined).emit_sound run
    cases lost with
    | true => exact ⟨settled, by simp⟩
    | false => exact ⟨settled, sound⟩
  | deliver x =>
    simp only [Net.step] at hstep
    split at hstep
    · rename_i y frame rest cable wire
      obtain ⟨o, run, hstep⟩ := Option.map_eq_some_iff.1 hstep
      cases hstep
      have joined : (net.peer x).isSome := by rw [cable]; rfl
      have back : (net.peer y).isSome := by rw [net.peer_symm x y cable]; rfl
      have frames := h.sound x joined
      rw [wire] at frames
      obtain ⟨first, others⟩ := List.forall_mem_cons.1 frames
      obtain ⟨settled, messages⟩ := (h.settled y back).receive_sound first run
      exact (h.setWire fun _ => others).after fun _ => ⟨settled, fun f mem => (messages f mem).sound⟩
    · cases hstep
  | lose x i =>
    cases hstep
    exact h.setWire fun joined f mem => h.sound x joined f (List.mem_of_mem_eraseIdx mem)
  | host x o =>
    simp only [Net.step] at hstep
    split at hstep
    · rename_i host
      cases hstep
      refine h.after fun joined => ?_
      rw [host] at joined
      cases joined
    · cases hstep

theorem Sane.run (h : Sane cfg net s) {ok : Label cfg X → State X → Prop} {tr : List (Seen X)}
    (run : Lts.Run (Net.step cfg net) ok s s' tr) : Sane cfg net s' :=
  run.invariant (I := fun t _ => Sane cfg net t) h fun _ _ _ _ _ sane _ hstep => sane.step hstep

end

end Ns3Fancy.Link.Net
