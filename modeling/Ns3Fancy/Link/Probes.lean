import Ns3Fancy.Clock.Heartbeat
import Ns3Fancy.Lts.Run
import Ns3Fancy.Switch.Probe

/-!
# Two switches that watch the link between them

Both switches probe the link and check it on an integer clock. The link delivers in order and after a constant latency;
what else arrives at the switches, which events of the machines run and which packets fail at the egress is open.
-/

namespace Ns3Fancy.Link
open Switch Function Clock
set_option autoImplicit false

/-- The two switches, the ports of the link between them and the timers. -/
structure Setting where
  cfg : Bool → FancyConfig
  node : (side : Bool) → Node (cfg side)
  linkPort : Bool → Nat
  /-- which ports of a side are attached to a switch -/
  towards : Bool → Nat → Bool
  sendPortState : Nat
  checkPortState : Nat
  startSystem : Bool → Nat
  latency : Nat

/-- The switches at an instant. `wire side` leaves `side`; a frame on it comes with the time it arrives. -/
structure Watch where
  now : Nat
  switch : Bool → TimedSwitch
  wire : Bool → List (Nat × Frame)

inductive WatchLabel where
  | tick
  /-- a frame from a host or from another switch -/
  | arrive (side : Bool) (luck : Luck) (port : Nat) (frame : Frame)
  | deliver (side : Bool) (luck : Luck)
  | fire (side : Bool) (luck : Luck) (port place : Nat)
  | sendProbe (side : Bool) (luck : Luck) (port : Nat)
  | checkPortState (side : Bool) (port : Nat)

namespace Watch
variable (w : Setting)

/-- What a switch sends out of the port of the link goes on the wire. -/
def emit (side : Bool) (s : Watch) (r : TimedSwitch × List (Nat × Frame)) : Watch :=
  { s with
    switch := update s.switch side r.1
    wire := update s.wire side
      (s.wire side ++ (r.2.filter fun f => f.1 = w.linkPort side).map fun f => (s.now + w.latency, f.2)) }

/-- All that is due has happened. -/
def Quiet (s : Watch) : Prop :=
  ∀ side, (∀ port ∈ (w.node side).interfaces, ((s.switch side).times port).probeDue ≠ some s.now ∧
    ((s.switch side).times port).checkDue ≠ some s.now) ∧ ∀ f ∈ s.wire side, s.now ≠ f.1

instance (s : Watch) : Decidable (s.Quiet w) := inferInstanceAs (Decidable (∀ _, _))

def step : Lts.Step Watch WatchLabel Unit
  | .tick, s => if s.Quiet w then some ({ s with now := s.now + 1 }, []) else none
  | .arrive side luck port frame, s =>
    if port = w.linkPort side then none
    else ((w.node side).receiveAt s.now luck port frame (s.switch side)).map fun r => (s.emit w side r, [])
  | .deliver side luck, s =>
    match s.wire side with
    | (due, frame) :: rest =>
      if due = s.now then
        ((w.node !side).receiveAt s.now luck (w.linkPort !side) frame (s.switch !side)).map fun r =>
          (emit w (!side) { s with wire := update s.wire side rest } r, [])
      else none
    | [] => none
  | .fire side luck port place, s =>
    ((w.node side).fireAt s.now luck port place (s.switch side)).map fun r => (s.emit w side r, [])
  | .sendProbe side luck port, s =>
    if ((s.switch side).times port).probeDue = some s.now then
      ((w.node side).sendProbe w.sendPortState s.now luck port (s.switch side)).map fun r => (s.emit w side r, [])
    else none
  | .checkPortState side port, s =>
    if ((s.switch side).times port).checkDue = some s.now then
      some ({ s with switch := update s.switch side (checkPortState w.checkPortState s.now port (s.switch side)) }, [])
    else none

/-- Both switches have run `Init` at time zero. -/
def start : Watch where
  now := 0
  switch side :=
    { ports := fun port => initPort (w.cfg side) (w.towards side port)
      times := fun port => initTimes (w.startSystem side) (w.towards side port) }
  wire _ := []

/-- The times of the two ports of the link. -/
def linkTimes (s : Watch) (side : Bool) : PortTimes := (s.switch side).times (w.linkPort side)

/-- When the frames on the link arrive. -/
def coming (s : Watch) (side : Bool) : List Nat := (s.wire side).map (·.1)

end Watch

/-! ## The times of the link -/

section
variable {w : Setting} {now : Nat} {times : Bool → PortTimes} {coming : Bool → List Nat} {side : Bool}

/-- Both directions of the link beat, no check is due before the first beat, and the link is up. -/
structure Beating (w : Setting) (now : Nat) (times : Bool → PortTimes) (coming : Bool → List Nat) : Prop where
  beats : ∀ side, ∃ due heard, (times side).probeDue = some due ∧ (times !side).lastTimeReceived = heard.getD 0 ∧
    Heartbeat w.sendPortState w.latency now due (times side).lastTimeSent heard (coming side)
  late : ∀ side due, (times side).checkDue = some due → w.sendPortState + w.latency < due
  up : ∀ side, (times side).linkState = true

/-- The two ports of the link are different ports. -/
theorem update_other {α : Type} (f : Bool → α) (side : Bool) (a : α) : update f side a (!side) = f (!side) :=
  update_of_ne (by cases side <;> decide) _ _

/-- A change at one side of the link is looked at from that side and from the other one. -/
theorem both_sides {motive : Bool → Prop} (side : Bool) (here : motive side) (there : motive !side) (s : Bool) : motive s := by
  cases side <;> cases s <;> assumption

/-- The two directions of the link after a change at one side. -/
theorem Beating.change {coming' : Bool → List Nat} {t : PortTimes} (h : Beating w now times coming)
    (out : ∃ due heard, t.probeDue = some due ∧ (times !side).lastTimeReceived = heard.getD 0 ∧
      Heartbeat w.sendPortState w.latency now due t.lastTimeSent heard (coming' side))
    (back : ∃ due heard, (times !side).probeDue = some due ∧ t.lastTimeReceived = heard.getD 0 ∧
      Heartbeat w.sendPortState w.latency now due (times !side).lastTimeSent heard (coming' !side))
    (late : ∀ due, t.checkDue = some due → w.sendPortState + w.latency < due) (up : t.linkState = true) :
    Beating w now (update times side t) coming' where
  beats := by
    refine both_sides side ?_ ?_
    · rw [update_self, update_other]
      exact out
    · rw [update_other, Bool.not_not, update_self]
      exact back
  late := by
    refine both_sides side ?_ ?_
    · rw [update_self]
      exact late
    · rw [update_other]
      exact h.late !side
  up := by
    refine both_sides side ?_ ?_
    · rw [update_self]
      exact up
    · rw [update_other]
      exact h.up !side

/-- The direction towards a side. -/
theorem Beating.back (h : Beating w now times coming) (side : Bool) :
    ∃ due heard, (times !side).probeDue = some due ∧ (times side).lastTimeReceived = heard.getD 0 ∧
      Heartbeat w.sendPortState w.latency now due (times !side).lastTimeSent heard (coming !side) := by
  have beats := h.beats (!side)
  rw [Bool.not_not] at beats
  exact beats

/-- Frames are sent on the link. -/
theorem Beating.send (h : Beating w now times coming) (side : Bool) (frames : List Frame) :
    Beating w now (update times side { times side with lastTimeSent := if frames = [] then (times side).lastTimeSent else now })
      (update coming side (coming side ++ frames.map fun _ => now + w.latency)) := by
  refine h.change ?_ ?_ (h.late side) (h.up side)
  · obtain ⟨due, heard, probe, received, beat⟩ := h.beats side
    rw [update_self]
    exact ⟨due, heard, probe, received, beat.sendAll frames⟩
  · rw [update_other]
    exact h.back side

/-- A frame arrives. -/
theorem Beating.hear (h : Beating w now times coming) {rest : List Nat} (first : coming (!side) = now :: rest) :
    Beating w now (update times side { times side with lastTimeReceived := now }) (update coming (!side) rest) := by
  refine h.change ?_ ?_ (h.late side) (h.up side)
  · have same := update_other coming (!side) rest
    rw [Bool.not_not] at same
    rw [same]
    exact h.beats side
  · obtain ⟨due, heard, probe, -, beat⟩ := h.back side
    rw [first] at beat
    rw [update_self]
    exact ⟨due, some now, probe, rfl, beat.hear⟩

/-- A probe has been sent, or was not needed. -/
theorem Beating.rearm (h : Beating w now times coming) (looks : (times side).probeDue = some now)
    (recent : now < (times side).lastTimeSent + w.sendPortState) :
    Beating w now (update times side { times side with probeDue := some (now + w.sendPortState) }) coming := by
  refine h.change ?_ (h.back side) (h.late side) (h.up side)
  obtain ⟨due, heard, probe, received, beat⟩ := h.beats side
  obtain rfl := Option.some.inj (probe.symm.trans looks)
  exact ⟨_, heard, rfl, received, beat.rearm rfl recent⟩

/-- **A check finds the link up**: something has come within the last two periods. -/
theorem Beating.check (h : Beating w now times coming) (slow : 2 * w.sendPortState ≤ w.checkPortState)
    (due : (times side).checkDue = some now) :
    Beating w now (update times side ((times side).check w.checkPortState now)) coming := by
  have settled := h.late side now due
  obtain ⟨_, heard, _, received, beat⟩ := h.back side
  obtain ⟨arrived, eq, recent⟩ := beat.recent settled
  obtain rfl : heard = some arrived := eq
  have silence : ¬w.checkPortState < now - (times side).lastTimeReceived := by
    rw [received, Option.getD_some]
    omega
  refine h.change (h.beats side) (h.back side) (fun later eq => ?_) ?_
  · obtain rfl := Option.some.inj eq
    omega
  · simp only [PortTimes.check, silence, if_false, h.up side, Bool.true_eq_false, false_and]

theorem Beating.tick (h : Beating w now times coming) (noProbe : ∀ side, (times side).probeDue ≠ some now)
    (noFrame : ∀ side, ∀ a ∈ coming side, now ≠ a) : Beating w (now + 1) times coming where
  beats side := by
    obtain ⟨due, heard, probe, received, beat⟩ := h.beats side
    refine ⟨due, heard, probe, received, beat.tick ?_ (noFrame side)⟩
    rintro rfl
    exact noProbe side probe
  late := h.late
  up := h.up

/-! ## The two switches -/

/-- The timers are set as they must be, and the link joins the two switches. -/
structure Setting.Sound (w : Setting) : Prop where
  noCongestion : ∀ side, (w.node side).tmDropRate = 0
  positive : 0 < w.sendPortState
  slow : 2 * w.sendPortState ≤ w.checkPortState
  late : ∀ side, w.sendPortState + w.latency < w.startSystem side
  linked : ∀ side, w.linkPort side ∈ (w.node side).interfaces
  towards : ∀ side, w.towards side (w.linkPort side) = true

/-- The link beats, and both sides know it as a link between switches. -/
structure Watch.Alive (w : Setting) (s : Watch) : Prop where
  beating : Beating w s.now (s.linkTimes w) s.coming
  kind : ∀ side, ((s.switch side).ports (w.linkPort side)).switchPort = true

theorem Watch.alive_start (sound : w.Sound) : Watch.Alive w (Watch.start w) := by
  have times : ∀ side, (Watch.start w).linkTimes w side = { probeDue := some 0, checkDue := some (w.startSystem side) } := by
    intro side
    simp only [Watch.linkTimes, Watch.start, initTimes, sound.towards, if_true]
  refine ⟨⟨fun side => ⟨0, none, ?_, ?_, ?_⟩, fun side due eq => ?_, fun side => ?_⟩, fun side => ?_⟩
  · rw [times]
  · rw [times]
    rfl
  · rw [times]
    exact .start sound.positive
  · rw [times] at eq
    obtain rfl := Option.some.inj eq
    exact sound.late side
  · rw [times]
  · exact (switchPort_initPort _).trans (sound.towards side)

end

namespace Watch
variable {w : Setting} {side : Bool} {s : Watch} {t : TimedSwitch} {sent : List (Nat × Frame)}

/-- The times of the link after one side has changed. -/
theorem linkTimes_switch (s : Watch) (side : Bool) (t : TimedSwitch) (wire : Bool → List (Nat × Frame)) :
    linkTimes w { s with switch := update s.switch side t, wire := wire } =
      update (s.linkTimes w) side (t.times (w.linkPort side)) := by
  funext side'
  by_cases here : side' = side
  · subst here
    simp only [linkTimes, update_self]
  · simp only [linkTimes, update_of_ne here]

theorem coming_wire (s : Watch) (side : Bool) (wire : List (Nat × Frame)) (switch : Bool → TimedSwitch) :
    coming { s with switch := switch, wire := update s.wire side wire } = update s.coming side (wire.map (·.1)) := by
  funext side'
  by_cases here : side' = side
  · subst here
    simp only [coming, update_self]
  · simp only [coming, update_of_ne here]

theorem kind_switch (h : s.Alive w) (kinds : SameKinds (s.switch side).ports t.ports) (side' : Bool) :
    ((update s.switch side t side').ports (w.linkPort side')).switchPort = true := by
  by_cases here : side' = side
  · subst here
    rw [update_self]
    exact (kinds _).trans (h.kind _)
  · rw [update_of_ne here]
    exact h.kind side'

/-- **What a switch sends keeps the link alive**, whatever leaves and whatever fails. -/
theorem Alive.emit (h : s.Alive w) (kinds : SameKinds (s.switch side).ports t.ports)
    (times : t.times (w.linkPort side) = sentOut s.now sent (s.switch side).times (w.linkPort side)) :
    (s.emit w side (t, sent)).Alive w := by
  refine ⟨?_, kind_switch h kinds⟩
  let out := sent.filter fun f => f.1 = w.linkPort side
  have leaves : w.linkPort side ∈ sent.map (·.1) ↔ ¬out.map (·.2) = [] := by
    simp [out, List.filter_eq_nil_iff]
  have beating := h.beating.send side (out.map (·.2))
  unfold Watch.emit
  rw [linkTimes_switch, coming_wire, times, sentOut_apply]
  simp only [leaves, ite_not, List.map_append, List.map_map] at beating ⊢
  exact beating

/-- A side turns its timers. -/
theorem Alive.turn (h : s.Alive w) (ports : t.ports = (s.switch side).ports)
    (beating : Beating w s.now (update (s.linkTimes w) side (t.times (w.linkPort side))) s.coming) :
    Alive w { s with switch := update s.switch side t } := by
  refine ⟨?_, kind_switch h fun _ => by rw [ports]⟩
  have times := linkTimes_switch (w := w) s side t s.wire
  rw [← times] at beating
  exact beating

/-- A frame is taken off the wire and the time of its arrival is noted. -/
theorem Alive.hear (h : s.Alive w) (side : Bool) {frame : Frame} {rest : List (Nat × Frame)}
    (first : s.wire (!side) = (s.now, frame) :: rest) : Alive w { s with
      switch := update s.switch side
        { s.switch side with times := received s.now (w.linkPort side) (s.switch side).times }
      wire := update s.wire (!side) rest } := by
  refine ⟨?_, kind_switch h fun _ => rfl⟩
  have arrives : s.coming (!side) = s.now :: rest.map (·.1) := by simp only [coming, first, List.map_cons]
  have beating := h.beating.hear arrives
  rw [linkTimes_switch, coming_wire]
  simp only [received_self]
  exact beating

theorem Alive.sendProbe (sound : w.Sound) (h : s.Alive w) {luck : Luck} {port : Nat} {r : TimedSwitch × List (Nat × Frame)}
    (due : ((s.switch side).times port).probeDue = some s.now)
    (run : (w.node side).sendProbe w.sendPortState s.now luck port (s.switch side) = some r) : (s.emit w side r).Alive w := by
  rw [sendProbe_eq] at run
  obtain ⟨q, sends, rfl⟩ := Option.map_eq_some_iff.1 run
  -- whatever is sent leaves first
  have left : (s.emit w side q).Alive w ∧ q.1.times = sentOut s.now q.2 (s.switch side).times ∧
      (port = w.linkPort side → s.now < (q.1.times port).lastTimeSent + w.sendPortState) := by
    have positive := sound.positive
    split at sends
    · obtain ⟨r, sent, rfl⟩ := Option.map_eq_some_iff.1 sends
      refine ⟨h.emit (sameKinds_egressAll sent) rfl, rfl, ?_⟩
      rintro rfl
      rw [sendInternal_probe (sound.noCongestion side) (h.kind side)] at sent
      cases sent
      simp only [sentOut_apply, List.map_cons, List.mem_cons, true_or, if_true]
      omega
    · cases sends
      refine ⟨h.emit (fun _ => rfl) rfl, rfl, fun _ => ?_⟩
      simp only
      omega
  obtain ⟨alive, times, recent⟩ := left
  have turned : s.emit w side (q.1.rearm port (s.now + w.sendPortState), q.2) =
      { s.emit w side q with
        switch := update (s.emit w side q).switch side (q.1.rearm port (s.now + w.sendPortState)) } := by
    simp only [Watch.emit, update_idem]
  have now : (s.emit w side q).linkTimes w side = q.1.times (w.linkPort side) := by
    simp only [linkTimes, Watch.emit, update_self]
  rw [turned]
  refine alive.turn (by simp only [TimedSwitch.rearm, Watch.emit, update_self]) ?_
  by_cases here : port = w.linkPort side
  · have looks : ((s.emit w side q).linkTimes w side).probeDue = some s.now := by
      rw [now, times, sentOut_apply, ← here]
      exact due
    rw [here] at recent
    have beating := alive.beating.rearm looks (by rw [now]; exact recent rfl)
    simp only [TimedSwitch.rearm, here, update_self]
    rw [now] at beating
    exact beating
  · have still : (q.1.rearm port (s.now + w.sendPortState)).times (w.linkPort side) = (s.emit w side q).linkTimes w side :=
      (update_of_ne (Ne.symm here) _ _).trans now.symm
    rw [still, update_eq_self]
    exact alive.beating

/-- **Every step keeps the link alive.** -/
theorem Alive.step (sound : w.Sound) (h : s.Alive w) {l : WatchLabel} {s' : Watch} {os : List Unit}
    (stepped : Watch.step w l s = some (s', os)) : s'.Alive w := by
  cases l with
  | tick =>
    simp only [Watch.step] at stepped
    split at stepped
    · rename_i quiet
      cases stepped
      refine ⟨h.beating.tick (fun side => ((quiet side).1 _ (sound.linked side)).1) (fun side a mem => ?_), h.kind⟩
      obtain ⟨f, onWire, rfl⟩ := List.mem_map.1 mem
      exact (quiet side).2 f onWire
    · cases stepped
  | arrive side luck port frame =>
    simp only [Watch.step] at stepped
    split at stepped
    · cases stepped
    · rename_i other
      obtain ⟨r, run, eq⟩ := Option.map_eq_some_iff.1 stepped
      cases eq
      obtain ⟨q, received, rfl⟩ := Option.map_eq_some_iff.1 run
      refine h.emit (sameKinds_receiveFromDevice received) ?_
      simp only [sentOut_apply, received_other (Ne.symm other)]
  | deliver side luck =>
    simp only [Watch.step] at stepped
    split at stepped
    · rename_i due frame rest first
      split at stepped
      · rename_i now
        subst now
        obtain ⟨r, run, eq⟩ := Option.map_eq_some_iff.1 stepped
        cases eq
        obtain ⟨q, received, rfl⟩ := Option.map_eq_some_iff.1 run
        have heard := h.hear (!side) (by rw [Bool.not_not]; exact first)
        rw [Bool.not_not] at heard
        have same : ∀ r, Watch.emit w (!side) { s with wire := update s.wire side rest } r = Watch.emit w (!side) { s with
            switch := update s.switch (!side)
              { s.switch !side with times := Switch.received s.now (w.linkPort !side) (s.switch !side).times }
            wire := update s.wire side rest } r := by
          intro r
          simp only [Watch.emit, update_idem]
        rw [same]
        refine heard.emit ?_ ?_
        · simp only [update_self]
          exact sameKinds_receiveFromDevice received
        · simp only [update_self]
      · cases stepped
    · cases stepped
  | fire side luck port place =>
    obtain ⟨r, run, eq⟩ := Option.map_eq_some_iff.1 stepped
    cases eq
    obtain ⟨q, fired, rfl⟩ := Option.map_eq_some_iff.1 run
    exact h.emit (sameKinds_fire fired) rfl
  | sendProbe side luck port =>
    simp only [Watch.step] at stepped
    split at stepped
    · rename_i due
      obtain ⟨r, run, eq⟩ := Option.map_eq_some_iff.1 stepped
      cases eq
      exact h.sendProbe sound due run
    · cases stepped
  | checkPortState side port =>
    simp only [Watch.step] at stepped
    split at stepped
    · rename_i due
      cases stepped
      refine h.turn rfl ?_
      by_cases here : port = w.linkPort side
      · subst here
        have beating := h.beating.check sound.slow due
        simp only [checkPortState, update_self]
        exact beating
      · have still : (checkPortState w.checkPortState s.now port (s.switch side)).times (w.linkPort side) =
          s.linkTimes w side :=
          update_of_ne (Ne.symm here) _ _
        rw [still, update_eq_self]
        exact h.beating
    · cases stepped

end Watch

/-- **A link that loses nothing is never taken for dead**, whatever traffic there is and whatever fails at the egress. -/
theorem gray_failures_keep_link (w : Setting) (sound : w.Sound) {s : Watch} {tr : List Unit}
    (run : Lts.Run (Watch.step w) (fun _ _ => True) (Watch.start w) s tr) (side : Bool) :
    ((s.switch side).times (w.linkPort side)).linkState = true := by
  have alive : s.Alive w :=
    run.invariant (I := fun s _ => s.Alive w) (Watch.alive_start sound) fun _ _ _ _ _ h _ stepped => h.step sound stepped
  exact alive.beating.up side

/-- Two small switches, a probe every two units, a check every four and a latency of one. -/
def smallSetting : Setting where
  cfg _ := smallConfig
  node _ := smallNode
  linkPort _ := 0
  towards _ _ := true
  sendPortState := 2
  checkPortState := 4
  startSystem _ := 4
  latency := 1

/-- The first checks, after the first probes have arrived. -/
theorem gray_failures_keep_link_small : ∃ s tr, Lts.Run (Watch.step smallSetting) (fun _ _ => True)
    (Watch.start smallSetting) s tr ∧
    (∀ side, ((s.switch side).times 0).checkDue = some 8) ∧ ∀ side, ((s.switch side).times 0).linkState = true := by
  have sound : smallSetting.Sound :=
    ⟨fun _ => rfl, by decide, by decide, by decide, fun _ => List.mem_singleton.2 rfl, fun _ => rfl⟩
  have checked : ∃ s tr, Lts.Run (Watch.step smallSetting) (fun _ _ => True) (Watch.start smallSetting) s tr ∧
      [false, true].map (fun side => ((s.switch side).times 0).checkDue) = [some 8, some 8] :=
    Lts.Run.exists_of_guarded [.sendProbe false {} 0, .sendProbe true {} 0, .tick, .tick, .sendProbe false {} 0,
      .sendProbe true {} 0, .tick, .deliver false {}, .deliver true {}, .tick, .checkPortState false 0,
      .checkPortState true 0] (by decide +kernel)
  obtain ⟨s, tr, run, due⟩ := checked
  simp only [List.map_cons, List.map_nil, List.cons.injEq, and_true] at due
  refine ⟨s, tr, run, fun side => ?_, gray_failures_keep_link smallSetting sound run⟩
  cases side
  · exact due.1
  · exact due.2

end Ns3Fancy.Link
