import Ns3Fancy.NetDevice.Lan
import Mathlib.Combinatorics.SimpleGraph.Star
import Mathlib.Data.List.Perm.Basic
import Mathlib.Data.Fintype.Card

/-!
# Frames in a network of learning switches

Every copy of a frame moves away from its sender, which is why a switch learns the right port from it, no node gets two copies
and none comes back. As long as no copy is lost, one of them moves towards each destination. So in a network without loops a
frame reaches its destination exactly once, wherever the tables are in learning and forgetting.
-/

namespace Ns3Fancy.NetDevice
open NextHop Function
set_option autoImplicit false

variable {V π : Type} {top : Topology V} {x v w : V} {p q : Nat}

/-! ## Ports -/

namespace Topology

theorem LoopFree.adj (free : top.LoopFree) (port : p ∈ top.ports v) : top.graph.Adj v (top.far v p) := by
  rw [graph, SimpleGraph.fromRel_adj]
  exact ⟨(free.simple v p port).1.symm, Or.inl ⟨p, port, rfl⟩⟩

theorem LoopFree.exists_port (free : top.LoopFree) (adj : top.graph.Adj v w) : ∃ p ∈ top.ports v, top.far v p = w := by
  rw [graph, SimpleGraph.fromRel_adj] at adj
  obtain ⟨-, ⟨p, port, far⟩ | ⟨p, port, rfl⟩⟩ := adj
  · exact ⟨p, port, far⟩
  · obtain ⟨port', back⟩ := free.linked w p port
    exact ⟨_, port', congrArg Prod.fst back⟩

theorem LoopFree.far_inj (free : top.LoopFree) (port : p ∈ top.ports v) (port' : q ∈ top.ports v)
    (same : top.far v p = top.far v q) : p = q := (free.simple v p port).2 q port' same

/-- The port at the other end leads back. -/
theorem LoopFree.far_back (free : top.LoopFree) (port : p ∈ top.ports v) :
    (top.peer v p).2 ∈ top.ports (top.far v p) ∧ top.far (top.far v p) (top.peer v p).2 = v :=
  ⟨(free.linked v p port).1, congrArg Prod.fst (free.linked v p port).2⟩

/-- A frame that came from the next hop of its sender leaves by other ports, away from the sender. -/
theorem LoopFree.away (free : top.LoopFree) (port : p ∈ top.ports v) (from_ : q ∈ top.ports v)
    (source : Toward top.graph x v (top.far v q)) (other : p ≠ q) : Toward top.graph x (top.far v p) v := by
  refine toward_of_not free.tree (free.adj port) fun toward => ?_
  exact other (free.far_inj port from_ (toward.unique free.tree source))

end Topology

/-! ## One node -/

section
variable {frame : Frame π} {table : LearnTable} {now : Int}

/-- Every entry of a table is of a node of the network, and leads to it. -/
def Sound (top : Topology V) (v : V) (table : LearnTable) : Prop :=
  ∀ a state, table a = some state →
    ∃ x p, a = top.address x ∧ state.associatedPort = some p ∧ p ∈ top.ports v ∧ Toward top.graph x v (top.far v p)

/-- An entry of the table holds until `T`. -/
def Holds (T : Int) (table : LearnTable) (a : UInt64) : Prop := ∃ state, table a = some state ∧ T ≤ state.expirationTime

/-- What a node does with a frame of `x` that came in at port `q`. -/
structure Takes (top : Topology V) (v : V) (now : Int) (q : Nat) (frame : Frame π) (table : LearnTable)
    (r : LearnTable × List (Nat × Frame π) × Bool) (outs : List Nat) : Prop where
  sent : r.2.1 = outs.map fun p => (p, frame)
  nodup : outs.Nodup
  ports : ∀ p ∈ outs, p ∈ top.ports v ∧ p ≠ q
  up : r.2.2 = true ↔ isGroup frame.dst = true ∨ frame.dst = top.address v
  sound : Sound top v r.1
  /-- whatever the destination, the frame goes on to it -/
  onward : ∀ y, y ≠ v → isGroup frame.dst = true ∨ frame.dst = top.address y → ∀ p ∈ top.ports v, p ≠ q →
    Toward top.graph y v (top.far v p) → p ∈ outs
  /-- a switch keeps what holds, and learns from a frame to a group -/
  holds : top.isSwitch v = true → ∀ T, now < T → T ≤ now + (top.config v).expirationTime →
    (∀ a, Holds T table a → Holds T r.1 a) ∧ (isGroup frame.dst = true → Holds T r.1 frame.src)
  /-- a frame on its way to an address that it knows goes nowhere else -/
  direct : ∀ y, frame.dst = top.address y → frame.src ≠ top.address y → Toward top.graph y (top.far v q) v →
    (top.isSwitch v = true → v ≠ y → ∃ T, now < T ∧ Holds T table (top.address y)) →
    ∀ p ∈ outs, Toward top.graph y v (top.far v p)

theorem Sound.learns (sound : Sound top v table) (port : q ∈ top.ports v) (source : Toward top.graph x v (top.far v q))
    {table' : LearnTable} (learns : Learns (top.config v) now q (top.address x) table table') : Sound top v table' := by
  intro a state found
  rcases learns.entries a state found with old | ⟨rfl, rfl⟩
  · exact sound a state old
  · exact ⟨x, q, rfl, rfl, port, source⟩

theorem flood_nodup (free : top.LoopFree) (v : V) (q : Nat) : (flood (top.config v) q).Nodup := (free.nodup v).filter _

theorem classify_otherhost {a dst : UInt64} :
    classify a dst = .otherhost ↔ isGroup dst = false ∧ dst ≠ a := by
  cases group : isGroup dst with
  | true =>
    refine iff_of_false ?_ (by simp)
    simp only [classify, group, if_true]
    split <;> simp
  | false =>
    rw [classify_unicast group]
    simp only [true_and]
    split
    · rename_i own
      exact iff_of_false (by simp) (not_not_intro own)
    · rename_i other
      exact iff_of_true rfl other

/-- A switch sends a frame to every port that it has to go on to. -/
theorem Outcome.onward (free : top.LoopFree) (sound : Sound top v table) {outs : List Nat} {up : Bool}
    (outcome : Outcome (top.config v) now q (top.portAddress v q) frame table outs up) {y : V} (other : y ≠ v)
    (target : isGroup frame.dst = true ∨ frame.dst = top.address y) (port : p ∈ top.ports v) (ne : p ≠ q)
    (toward : Toward top.graph y v (top.far v p)) : p ∈ outs := by
  have single : isGroup frame.dst = false → frame.dst = top.address y := by
    intro single
    refine target.resolve_left ?_
    rw [single]
    exact Bool.false_ne_true
  cases outcome with
  | own none own => exact absurd (free.unique _ _ ((single none).symm.trans own)) other
  | group => exact mem_flood.2 ⟨port, ne⟩
  | port none _ here => exact absurd (free.portUnique v q y (here.symm.trans (single none))).symm other
  | @learned state out none _ entry _ found _ =>
    obtain ⟨x, out', same, found', port', toward'⟩ := sound _ _ entry
    obtain rfl : y = x := free.unique _ _ ((single none).symm.trans same)
    obtain rfl := Option.some.inj (found.symm.trans found')
    rw [List.mem_singleton]
    exact free.far_inj port port' (toward.unique free.tree toward')
  | unknown => exact mem_flood.2 ⟨port, ne⟩

theorem Outcome.ports (free : top.LoopFree) (sound : Sound top v table) {outs : List Nat} {up : Bool}
    (outcome : Outcome (top.config v) now q (top.portAddress v q) frame table outs up) :
    outs.Nodup ∧ ∀ p ∈ outs, p ∈ top.ports v ∧ p ≠ q := by
  have flooded := flood_nodup free v q
  cases outcome with
  | own | port => exact ⟨List.nodup_nil, by simp⟩
  | group | unknown => exact ⟨flooded, fun _ => mem_flood.1⟩
  | @learned state out none _ entry _ found elsewhere =>
    obtain ⟨x, out', -, found', port, -⟩ := sound _ _ entry
    obtain rfl := Option.some.inj (found.symm.trans found')
    refine ⟨List.nodup_singleton out, fun p mem => ?_⟩
    obtain rfl := List.mem_singleton.1 mem
    exact ⟨port, elsewhere⟩

theorem Outcome.up {outs : List Nat} {up : Bool}
    (outcome : Outcome (top.config v) now q (top.portAddress v q) frame table outs up) :
    up = true ↔ isGroup frame.dst = true ∨ frame.dst = top.address v := by
  cases outcome with
  | own _ own => exact iff_of_true rfl (Or.inr own)
  | group group => exact iff_of_true rfl (Or.inl group)
  | port none other => exact iff_of_false (by simp) (by simp [none, show ¬frame.dst = top.address v from other])
  | learned none other => exact iff_of_false (by simp) (by simp [none, show ¬frame.dst = top.address v from other])
  | unknown none other => exact iff_of_false (by simp) (by simp [none, show ¬frame.dst = top.address v from other])

/-- A frame on its way to an address that the switch knows goes only there. -/
theorem Outcome.direct (free : top.LoopFree) (sound : Sound top v table) {outs : List Nat} {up : Bool}
    (outcome : Outcome (top.config v) now q (top.portAddress v q) frame table outs up) {y : V}
    (target : frame.dst = top.address y) (other : frame.src ≠ top.address y) (toward : Toward top.graph y (top.far v q) v)
    (known : v ≠ y → ∃ T, now < T ∧ Holds T table (top.address y)) : ∀ p ∈ outs, Toward top.graph y v (top.far v p) := by
  cases outcome with
  | own | port => simp
  | group group =>
    rw [target, free.single y] at group
    cases group
  | @learned state out _ _ entry _ found _ =>
    intro p mem
    obtain rfl := List.mem_singleton.1 mem
    obtain ⟨x, out', same, found', -, leads⟩ := sound _ _ entry
    obtain rfl := Option.some.inj (found.symm.trans found')
    obtain rfl := free.unique _ _ (target.symm.trans same)
    exact leads
  | unknown _ notOwn unknown =>
    have further : v ≠ y := by
      rintro rfl
      exact notOwn target
    obtain ⟨T, later, state, entry, fresh⟩ := known further
    obtain ⟨x, out, same, found, -, leads⟩ := sound _ _ entry
    obtain rfl := free.unique _ _ same
    rw [← target] at entry
    obtain rfl := unknown state out (target ▸ other.symm) entry (Int.lt_of_lt_of_le later fresh) found
    exact absurd leads toward.asymm

/-- What a switch knows for some time it still knows after a frame. -/
theorem Received.holds {r : LearnTable × List (Nat × Frame π) × Bool} {cfg : L2Config} {a : UInt64}
    (received : Received cfg now q a frame table r) {T : Int} (later : now < T)
    (soon : T ≤ now + cfg.expirationTime) :
    (∀ a, Holds T table a → Holds T r.1 a) ∧ (isGroup frame.dst = true → Holds T r.1 frame.src) := by
  rcases received.table with learns | ⟨same, single, -⟩
  · have own : Holds T r.1 frame.src := ⟨_, learns.learned (by omega), soon⟩
    refine ⟨?_, fun _ => own⟩
    rintro a ⟨state, entry, fresh⟩
    by_cases here : a = frame.src
    · rw [here]
      exact own
    · exact ⟨state, learns.kept a state entry (by omega) here, fresh⟩
  · rw [same, single]
    exact ⟨fun _ holds => holds, fun group => absurd group Bool.false_ne_true⟩

/-- **What a node does with a frame** that came from its sender's side. -/
theorem takes (free : top.LoopFree) (now : Int) (sound : Sound top v table) (port : q ∈ top.ports v)
    (source : Toward top.graph x v (top.far v q)) (src : frame.src = top.address x) :
    ∃ outs, Takes top v now q frame table (top.input v now q frame table) outs := by
  cases kind : top.isSwitch v with
  | true =>
    have device : Received (top.config v) now q (top.portAddress v q) frame table _ := received (free.learning v kind)
    rw [Topology.input, if_pos kind]
    obtain ⟨outs, sent, outcome⟩ := device.outcome
    obtain ⟨nodup, ports⟩ := outcome.ports free sound
    refine ⟨outs, sent, nodup, ports, outcome.up, ?_, fun y other target p => outcome.onward free sound other target,
      fun _ T later soon => device.holds later soon,
      fun y target other toward known => outcome.direct free sound target other toward (known kind)⟩
    rcases device.table with learns | ⟨same, -⟩
    · rw [src] at learns
      exact sound.learns port source learns
    · rw [same]
      exact sound
  | false =>
    rw [Topology.input, kind, if_neg Bool.false_ne_true]
    obtain ⟨only, ports⟩ := free.station v kind
    refine ⟨[], rfl, List.nodup_nil, by simp, ?_, sound, fun y _ _ p port' ne _ => ?_,
      fun switch => absurd (kind.symm.trans switch) Bool.false_ne_true, by simp⟩
    · rw [decide_eq_true_iff, ne_eq, classify_otherhost]
      cases isGroup frame.dst <;> simp
    · rw [ports, List.mem_singleton] at port port'
      exact absurd (port'.trans port.symm) ne

/-- What a node sends of its own. -/
structure Sends (top : Topology V) (v : V) (now : Int) (frame : Frame π) (table : LearnTable)
    (r : LearnTable × List (Nat × Frame π)) (outs : List Nat) : Prop where
  sent : r.2 = outs.map fun p => (p, frame)
  nodup : outs.Nodup
  ports : ∀ p ∈ outs, p ∈ top.ports v
  sound : Sound top v r.1
  onward : ∀ y, isGroup frame.dst = true ∨ frame.dst = top.address y → ∀ p ∈ top.ports v,
    Toward top.graph y v (top.far v p) → p ∈ outs
  holds : ∀ T, now < T → ∀ a, Holds T table a → Holds T r.1 a
  direct : ∀ y, v ≠ y → frame.dst = top.address y →
    (top.isSwitch v = true → ∃ T, now < T ∧ Holds T table (top.address y)) → ∀ p ∈ outs, Toward top.graph y v (top.far v p)

theorem sends (free : top.LoopFree) (now : Int) (sound : Sound top v table) (frame : Frame π) :
    ∃ outs, Sends top v now frame table (top.output v now frame table) outs := by
  cases kind : top.isSwitch v with
  | false =>
    rw [Topology.output, kind, if_neg Bool.false_ne_true]
    refine ⟨top.ports v, rfl, free.nodup v, fun _ port => port, sound, fun _ _ p port _ => port, fun _ _ _ holds => holds, ?_⟩
    intro y further _ _ p port
    obtain ⟨w, toward⟩ := exists_toward free.tree further
    obtain ⟨p', port', rfl⟩ := free.exists_port toward.adj
    obtain ⟨only, ports⟩ := free.station v kind
    rw [ports, List.mem_singleton] at port port'
    rw [port, ← port']
    exact toward
  | true =>
    rw [Topology.output, if_pos kind]
    have table_eq := @sendFrom_table _ (top.config v) now frame table
    have kept : Sound top v (sendFrom (top.config v) now frame table).1 := by
      intro a state found
      rcases table_eq a with same | ⟨erased, -⟩
      · exact sound a state (same ▸ found)
      · rw [erased] at found
        cases found
    have holds : ∀ T, now < T → ∀ a, Holds T table a → Holds T (sendFrom (top.config v) now frame table).1 a := by
      rintro T later a ⟨state, entry, fresh⟩
      rcases table_eq a with same | ⟨-, old, had, expired⟩
      · exact ⟨state, same.trans entry, fresh⟩
      · rw [entry] at had
        obtain rfl := Option.some.inj had
        omega
    obtain ⟨outs, sent, ⟨rfl, unknown⟩ | ⟨state, out, entry, found, rfl⟩⟩ :=
      sendFrom_outs (free.learning v kind) now frame table
    · refine ⟨_, sent, free.nodup v, fun _ port => port, kept, fun _ _ p port _ => port, holds, ?_⟩
      intro y _ target known
      obtain ⟨T, later, state, entry, fresh⟩ := known kind
      obtain ⟨_, p, _, found, _⟩ := sound _ _ entry
      rw [← target] at entry
      exact absurd found (unknown state p (target ▸ free.single y) entry (Int.lt_of_lt_of_le later fresh))
    · obtain ⟨x, out', same, found', port, toward⟩ := sound _ _ entry
      obtain rfl := Option.some.inj (found.symm.trans found')
      refine ⟨[out], sent, List.nodup_singleton out, fun p mem => List.mem_singleton.1 mem ▸ port, kept, ?_, holds, ?_⟩
      · intro y target p port' toward'
        rw [same, free.single x] at target
        obtain rfl := free.unique _ _ (target.resolve_left Bool.false_ne_true)
        rw [List.mem_singleton]
        exact free.far_inj port' port (toward'.unique free.tree toward)
      · intro y _ target _ p mem
        obtain rfl := free.unique _ _ (target.symm.trans same)
        obtain rfl := List.mem_singleton.1 mem
        exact toward

end

/-! ## Steps -/

/-- The node that a copy is on its way to. -/
def Copy.target (top : Topology V) (c : Copy V π) : V := top.far c.node c.port

/-- A copy that a node sent, on its way away from the sender of its frame. -/
structure Copy.Leaving (top : Topology V) (tr : List (LanObs V)) (c : Copy V π) (x : V) : Prop where
  port : c.port ∈ top.ports c.node
  src : c.frame.src = top.address x
  sent : .sent c.id x c.frame.dst ∈ tr
  away : Toward top.graph x (c.target top) c.node

theorem Copy.Leaving.mono {c : Copy V π} {tr os : List (LanObs V)} (leaving : c.Leaving top tr x) :
    c.Leaving top (tr ++ os) x :=
  ⟨leaving.port, leaving.src, List.mem_append_left _ leaving.sent, leaving.away⟩

/-- What a switch sends on still leaves the sender. -/
theorem Copy.Leaving.onward (free : top.LoopFree) {tr : List (LanObs V)} {c : Copy V π} (leaving : c.Leaving top tr x)
    (port : p ∈ top.ports (c.target top)) (ne : p ≠ (top.peer c.node c.port).2) :
    Copy.Leaving top tr { id := c.id, node := c.target top, port := p, frame := c.frame } x := by
  obtain ⟨from_, back⟩ := free.far_back leaving.port
  refine ⟨port, leaving.src, leaving.sent, free.away port from_ ?_ ne⟩
  have away := leaving.away
  rw [← back] at away
  exact away

namespace Lan

/-- Where the tables and the copies point: every entry to its owner, every copy away from the sender of its frame. -/
structure Oriented (top : Topology V) (s : Lan V π) (tr : List (LanObs V)) : Prop where
  tables : ∀ v, Sound top v (s.tables v)
  wire : ∀ c ∈ s.wire, ∃ x, c.Leaving top tr x
  fresh : ∀ n v dst, .sent n v dst ∈ tr → n < s.next
  unique : ∀ n v dst v' dst', .sent n v dst ∈ tr → .sent n v' dst' ∈ tr → v = v' ∧ dst = dst'

theorem copies_map (id : Nat) (v : V) (outs : List Nat) (frame : Frame π) :
    copies id v (outs.map fun p => (p, frame)) = outs.map fun p => { id := id, node := v, port := p, frame := frame } := by
  rw [copies, List.map_map]
  rfl

theorem perm_eraseIdx {α : Type} {l : List α} {i : Nat} {a : α} (found : l[i]? = some a) : l.Perm (a :: l.eraseIdx i) := by
  obtain ⟨small, rfl⟩ := List.getElem?_eq_some_iff.1 found
  exact (List.getElem_cons_eraseIdx_perm small).symm

theorem Oriented.start (now : Int) : Oriented top (Lan.start now : Lan V π) [] where
  tables v a state found := by cases found
  wire c mem := by cases mem
  fresh n v dst mem := by cases mem
  unique n v dst v' dst' mem := by cases mem

variable [DecidableEq V]

/-- Everything a step does. -/
inductive Moves (top : Topology V) (s : Lan V π) : Lan V π → List (LanObs V) → Prop where
  | send {v : V} {frame : Frame π} {r : LearnTable × List (Nat × Frame π)} {outs : List Nat} :
      frame.src = top.address v → Sends top v s.now frame (s.tables v) r outs →
      Moves top s { s with
          tables := update s.tables v r.1
          wire := s.wire ++ outs.map fun p => { id := s.next, node := v, port := p, frame := frame }
          next := s.next + 1 } [.sent s.next v frame.dst]
  | deliver {c : Copy V π} {rest : List (Copy V π)} {r : LearnTable × List (Nat × Frame π) × Bool} {outs : List Nat} :
      s.wire.Perm (c :: rest) →
      Takes top (c.target top) s.now (top.peer c.node c.port).2 c.frame (s.tables (c.target top)) r outs →
      Moves top s { s with
          tables := update s.tables (c.target top) r.1
          wire := rest ++ outs.map fun p => { id := c.id, node := c.target top, port := p, frame := c.frame } }
        (.handled c.id (c.target top) (top.peer c.node c.port).2 ::
          if r.2.2 then [.up c.id (c.target top)] else [])
  | lose {c : Copy V π} {rest : List (Copy V π)} : s.wire.Perm (c :: rest) →
      Moves top s { s with wire := rest } [.lost c.id (c.target top)]
  | wait (t : Nat) : Moves top s { s with now := s.now + t } []

variable {s s' : Lan V π} {tr os : List (LanObs V)} {l : LanLabel V π}

theorem moves_of_step (free : top.LoopFree) (h : Oriented top s tr) (hstep : step top l s = some (s', os)) :
    Moves top s s' os := by
  cases l with
  | send v dst protocol packet =>
    simp only [step, Option.some.injEq, Prod.mk.injEq] at hstep
    obtain ⟨rfl, rfl⟩ := hstep
    obtain ⟨outs, sends⟩ := sends free s.now (h.tables v)
      { src := top.address v, dst := dst, protocol := protocol, packet := packet }
    rw [sends.sent, copies_map]
    exact .send rfl sends
  | deliver i =>
    simp only [step, Option.map_eq_some_iff, Prod.mk.injEq] at hstep
    obtain ⟨c, found, rfl, rfl⟩ := hstep
    obtain ⟨x, leaving⟩ := h.wire c (List.mem_of_getElem? found)
    obtain ⟨port, back⟩ := free.far_back leaving.port
    obtain ⟨outs, takes⟩ := takes free s.now (h.tables (c.target top)) port (back.symm ▸ leaving.away) leaving.src
    have sent := takes.sent
    simp only [Copy.target] at sent
    rw [sent, copies_map]
    exact .deliver (perm_eraseIdx found) takes
  | lose i =>
    simp only [step, Option.map_eq_some_iff, Prod.mk.injEq] at hstep
    obtain ⟨c, found, rfl, rfl⟩ := hstep
    exact .lose (perm_eraseIdx found)
  | wait t =>
    simp only [step, Option.some.injEq, Prod.mk.injEq] at hstep
    obtain ⟨rfl, rfl⟩ := hstep
    exact .wait t

theorem Oriented.step (free : top.LoopFree) (h : Oriented top s tr) (moves : Moves top s s' os) :
    Oriented top s' (tr ++ os) := by
  have tables : ∀ v (t : LearnTable), Sound top v t → ∀ w, Sound top w (update s.tables v t w) := by
    intro v t sound w
    by_cases here : w = v
    · subst here
      rw [update_self]
      exact sound
    · rw [update_of_ne here]
      exact h.tables w
  cases moves with
  | @send v frame r outs src sends =>
    have old : ∀ {n v' dst}, .sent n v' dst ∈ tr ++ [.sent s.next v frame.dst] →
        .sent n v' dst ∈ tr ∨ (n = s.next ∧ v' = v ∧ dst = frame.dst) := by
      intro n v' dst mem
      rw [List.mem_append, List.mem_singleton, LanObs.sent.injEq] at mem
      exact mem
    refine ⟨tables v _ sends.sound, fun c mem => ?_, fun n v' dst mem => ?_, fun n w dst w' dst' mem mem' => ?_⟩
    · rcases List.mem_append.1 mem with before | new
      · obtain ⟨x, leaving⟩ := h.wire c before
        exact ⟨x, leaving.mono⟩
      · obtain ⟨p, out, rfl⟩ := List.mem_map.1 new
        have port := sends.ports p out
        exact ⟨v, port, src, by simp, toward_self (free.adj port).symm⟩
    · rcases old mem with before | ⟨rfl, -, -⟩
      · exact Nat.lt_succ_of_lt (h.fresh n v' dst before)
      · exact Nat.lt_succ_self _
    · rcases old mem with before | ⟨rfl, rfl, rfl⟩ <;> rcases old mem' with before' | ⟨same, rfl, rfl⟩
      · exact h.unique n w dst w' dst' before before'
      · subst same
        exact absurd (h.fresh _ _ _ before) (Nat.lt_irrefl _)
      · exact absurd (h.fresh _ _ _ before') (Nat.lt_irrefl _)
      · exact ⟨rfl, rfl⟩
  | @deliver c rest r outs perm takes =>
    have noSent : ∀ {n v dst}, .sent n v dst ∈ tr ++ (.handled c.id (c.target top) (top.peer c.node c.port).2 ::
        if r.2.2 then [.up c.id (c.target top)] else []) → .sent n v dst ∈ tr := by
      intro n v dst mem
      rcases List.mem_append.1 mem with before | new
      · exact before
      · split at new <;> simp at new
    refine ⟨tables _ _ takes.sound, fun c' mem => ?_, fun n v dst mem => h.fresh n v dst (noSent mem),
      fun n v dst v' dst' mem mem' => h.unique n v dst v' dst' (noSent mem) (noSent mem')⟩
    rcases List.mem_append.1 mem with before | new
    · obtain ⟨x, leaving⟩ := h.wire c' (perm.mem_iff.2 (List.mem_cons_of_mem _ before))
      exact ⟨x, leaving.mono⟩
    · obtain ⟨p, out, rfl⟩ := List.mem_map.1 new
      obtain ⟨x, leaving⟩ := h.wire c (perm.mem_iff.2 List.mem_cons_self)
      obtain ⟨port, ne⟩ := takes.ports p out
      exact ⟨x, (leaving.onward free port ne).mono⟩
  | @lose c rest perm =>
    have noSent : ∀ {n v dst}, .sent n v dst ∈ tr ++ [.lost c.id (c.target top)] → .sent n v dst ∈ tr := by
      intro n v dst mem
      simpa using mem
    refine ⟨h.tables, fun c' mem => ?_, fun n v dst mem => h.fresh n v dst (noSent mem),
      fun n v dst v' dst' mem mem' => h.unique n v dst v' dst' (noSent mem) (noSent mem')⟩
    obtain ⟨x, leaving⟩ := h.wire c' (perm.mem_iff.2 (List.mem_cons_of_mem _ mem))
    exact ⟨x, leaving.mono⟩
  | wait t =>
    rw [List.append_nil]
    exact ⟨h.tables, h.wire, h.fresh, h.unique⟩

/-! ## No node gets a frame twice -/

/-- The frames that reached a node or were lost on the way to it. -/
def arrivals (tr : List (LanObs V)) : List (Nat × V) :=
  tr.filterMap fun
    | .handled n v _ | .lost n v => some (n, v)
    | _ => none

/-- The frames that are on their way to a node. -/
def heading (top : Topology V) (s : Lan V π) : List (Nat × V) := s.wire.map fun c => (c.id, c.target top)

/-- A frame goes to a node once, and only after the next hop to its sender has it. -/
structure Single (top : Topology V) (s : Lan V π) (tr : List (LanObs V)) : Prop where
  nodup : (arrivals tr ++ heading top s).Nodup
  reached : ∀ e ∈ arrivals tr ++ heading top s, ∃ x dst w, .sent e.1 x dst ∈ tr ∧ Toward top.graph x e.2 w ∧
    (w = x ∨ ∃ q, .handled e.1 w q ∈ tr)

omit [DecidableEq V] in
theorem Single.start (now : Int) : Single top (Lan.start now : Lan V π) [] where
  nodup := List.nodup_nil
  reached e mem := by cases mem

omit [DecidableEq V] in
/-- What is left to show of a step: the frames that it adds. -/
theorem Single.extend (h : Single top s tr) (new : List (Nat × V))
    (perm : (arrivals (tr ++ os) ++ heading top s').Perm ((arrivals tr ++ heading top s) ++ new)) (nodup : new.Nodup)
    (fresh : ∀ e ∈ new, e ∉ arrivals tr ++ heading top s)
    (reached : ∀ e ∈ new, ∃ x dst w, .sent e.1 x dst ∈ tr ++ os ∧ Toward top.graph x e.2 w ∧
      (w = x ∨ ∃ q, .handled e.1 w q ∈ tr ++ os)) : Single top s' (tr ++ os) where
  nodup := perm.nodup_iff.2 (List.nodup_append'.2 ⟨h.nodup, nodup, fun e old mem => fresh e mem old⟩)
  reached e mem := by
    rcases List.mem_append.1 (perm.mem_iff.1 mem) with old | mem
    · obtain ⟨x, dst, w, sent, toward, first⟩ := h.reached e old
      refine ⟨x, dst, w, List.mem_append_left _ sent, toward, first.imp id ?_⟩
      rintro ⟨q, handled⟩
      exact ⟨q, List.mem_append_left _ handled⟩
    · exact reached e mem

omit [DecidableEq V] in
/-- The nodes behind different ports are different. -/
theorem nodup_targets (free : top.LoopFree) {outs : List Nat} (nodup : outs.Nodup) (ports : ∀ p ∈ outs, p ∈ top.ports v)
    (n : Nat) : (outs.map fun p => (n, top.far v p)).Nodup := by
  refine List.Nodup.map_on (fun p mem q mem' same => ?_) nodup
  exact free.far_inj (ports p mem) (ports q mem') (Prod.mk.inj same).2

omit [DecidableEq V] in
theorem handled_arrivals {n : Nat} (handled : .handled n v q ∈ tr) : (n, v) ∈ arrivals tr :=
  List.mem_filterMap.2 ⟨_, handled, rfl⟩

theorem Single.step (free : top.LoopFree) (oriented : Oriented top s tr) (h : Single top s tr) (moves : Moves top s s' os) :
    Single top s' (tr ++ os) := by
  cases moves with
  | @send v frame r outs src sends =>
    have none : arrivals (tr ++ [.sent s.next v frame.dst]) = arrivals tr := by simp [arrivals]
    refine h.extend (outs.map fun p => (s.next, top.far v p)) ?_ (nodup_targets free sends.nodup sends.ports _) ?_ ?_
    · rw [none, heading, heading, List.map_append, List.map_map, List.append_assoc]
      exact List.Perm.refl _
    · -- frames that are on their way were sent before
      intro e mem old
      obtain ⟨p, -, rfl⟩ := List.mem_map.1 mem
      obtain ⟨x, dst, -, sent, -⟩ := h.reached _ old
      exact Nat.lt_irrefl _ (oriented.fresh _ _ _ sent)
    · intro e mem
      obtain ⟨p, out, rfl⟩ := List.mem_map.1 mem
      exact ⟨v, frame.dst, v, by simp, toward_self (free.adj (sends.ports p out)).symm, Or.inl rfl⟩
  | @deliver c rest r outs perm takes =>
    obtain ⟨x, leaving⟩ := oriented.wire c (perm.mem_iff.2 List.mem_cons_self)
    have one : arrivals (tr ++ (.handled c.id (c.target top) (top.peer c.node c.port).2 ::
        if r.2.2 then [.up c.id (c.target top)] else [])) = arrivals tr ++ [(c.id, c.target top)] := by
      cases r.2.2 <;> simp [arrivals]
    have here : (c.id, c.target top) ∈ heading top s := List.mem_map.2 ⟨c, perm.mem_iff.2 List.mem_cons_self, rfl⟩
    have away : ∀ p ∈ outs, Toward top.graph x (top.far (c.target top) p) (c.target top) := fun p out =>
      (leaving.onward free (takes.ports p out).1 (takes.ports p out).2).away
    refine h.extend (outs.map fun p => (c.id, top.far (c.target top) p)) ?_
      (nodup_targets free takes.nodup (fun p out => (takes.ports p out).1) _) ?_ ?_
    · have moved : (heading top s).Perm ((c.id, c.target top) :: rest.map fun c => (c.id, c.target top)) := perm.map _
      rw [one, heading, List.map_append, List.map_map, ← List.append_assoc]
      refine List.Perm.append_right _ ?_
      rw [List.append_assoc]
      exact List.Perm.append_left _ moved.symm
    · -- the node behind a port has the frame from here only, and here it has not been before
      intro e mem old
      obtain ⟨p, out, rfl⟩ := List.mem_map.1 mem
      obtain ⟨x', dst, w, sent, toward, first⟩ := h.reached _ old
      obtain ⟨rfl, -⟩ := oriented.unique _ _ _ _ _ sent leaving.sent
      obtain rfl := toward.unique free.tree (away p out)
      rcases first with same | ⟨q, handled⟩
      · exact leaving.away.ne same
      · exact (List.nodup_append'.1 h.nodup).2.2 (handled_arrivals handled) here
    · intro e mem
      obtain ⟨p, out, rfl⟩ := List.mem_map.1 mem
      exact ⟨x, c.frame.dst, c.target top, List.mem_append_left _ leaving.sent, away p out,
        Or.inr ⟨_, List.mem_append_right _ List.mem_cons_self⟩⟩
  | @lose c rest perm =>
    have one : arrivals (tr ++ [.lost c.id (c.target top)]) = arrivals tr ++ [(c.id, c.target top)] := by simp [arrivals]
    refine h.extend [] ?_ List.nodup_nil (by simp) (by simp)
    have moved : (heading top s).Perm ((c.id, c.target top) :: rest.map fun c => (c.id, c.target top)) := perm.map _
    rw [one, List.append_nil, List.append_assoc]
    exact List.Perm.append_left _ moved.symm
  | wait t =>
    rw [List.append_nil]
    exact ⟨h.nodup, h.reached⟩

/-! ## A frame gets to its destinations -/

/-- The node that a frame of `v` should go to. -/
def Destination (top : Topology V) (v : V) (dst : UInt64) (y : V) : Prop :=
  y ≠ v ∧ (isGroup dst = true ∨ dst = top.address y)

instance (top : Topology V) (v : V) (dst : UInt64) (y : V) : Decidable (Destination top v dst y) :=
  inferInstanceAs (Decidable (y ≠ v ∧ (isGroup dst = true ∨ dst = top.address y)))

/-- A frame is on its way to every destination that has not taken it, unless it lost a copy; and only destinations take it. -/
structure Carried (top : Topology V) (s : Lan V π) (tr : List (LanObs V)) : Prop where
  pending : ∀ n v dst, .sent n v dst ∈ tr → ∀ y, Destination top v dst y →
    (∃ c ∈ s.wire, c.id = n ∧ Toward top.graph y c.node (c.target top)) ∨ .up n y ∈ tr ∨ ∃ z, .lost n z ∈ tr
  taken : ∀ n y, .up n y ∈ tr → ∃ v dst, .sent n v dst ∈ tr ∧ Destination top v dst y
  once : ∀ n y, tr.count (.up n y) ≤ (arrivals tr).count (n, y)

omit [DecidableEq V] in
/-- One of the copies that leave a node is the one towards `y`. -/
theorem exists_onward (free : top.LoopFree) {y : V} (further : y ≠ v) {outs : List Nat} {Q : Nat → Prop}
    (onward : ∀ p ∈ top.ports v, Q p → Toward top.graph y v (top.far v p) → p ∈ outs)
    (ok : ∀ p ∈ top.ports v, Toward top.graph y v (top.far v p) → Q p) :
    ∃ p ∈ outs, Toward top.graph y v (top.far v p) := by
  obtain ⟨w, toward⟩ := exists_toward free.tree further.symm
  obtain ⟨p, port, rfl⟩ := free.exists_port toward.adj
  exact ⟨p, onward p port (ok p port toward) toward, toward⟩

theorem Carried.start (now : Int) : Carried top (Lan.start now : Lan V π) [] where
  pending n v dst sent := by cases sent
  taken n y up := by cases up
  once n y := Nat.le_refl _

/-- A frame that was sent before is still carried if its copies are, or were lost. -/
theorem Carried.kept (h : Carried top s tr) {n : Nat} {y : V} {dst : UInt64} (sent : .sent n v dst ∈ tr)
    (destination : Destination top v dst y)
    (copies : ∀ c ∈ s.wire, c.id = n → Toward top.graph y c.node (c.target top) →
      (∃ c ∈ s'.wire, c.id = n ∧ Toward top.graph y c.node (c.target top)) ∨ .up n y ∈ os ∨ ∃ z, .lost n z ∈ os) :
    (∃ c ∈ s'.wire, c.id = n ∧ Toward top.graph y c.node (c.target top)) ∨ .up n y ∈ tr ++ os ∨
      ∃ z, .lost n z ∈ tr ++ os := by
  rcases h.pending n v dst sent y destination with ⟨c, mem, id, toward⟩ | up | ⟨z, lost⟩
  · rcases copies c mem id toward with wire | up | ⟨z, lost⟩
    · exact Or.inl wire
    · exact Or.inr (Or.inl (List.mem_append_right _ up))
    · exact Or.inr (Or.inr ⟨z, List.mem_append_right _ lost⟩)
  · exact Or.inr (Or.inl (List.mem_append_left _ up))
  · exact Or.inr (Or.inr ⟨z, List.mem_append_left _ lost⟩)

/-- A copy that is delivered goes up at its destination, and on to it elsewhere. -/
theorem Takes.carries (free : top.LoopFree) {c : Copy V π} {x y : V} {now : Int} {table : LearnTable}
    (leaving : c.Leaving top tr x)
    {r : LearnTable × List (Nat × Frame π) × Bool} {outs : List Nat}
    (takes : Takes top (c.target top) now (top.peer c.node c.port).2 c.frame table r outs)
    (destination : isGroup c.frame.dst = true ∨ c.frame.dst = top.address y)
    (toward : Toward top.graph y c.node (c.target top)) :
    (y = c.target top ∧ r.2.2 = true) ∨
      ∃ p ∈ outs, Toward top.graph y (c.target top) (top.far (c.target top) p) := by
  by_cases here : y = c.target top
  · subst here
    exact Or.inl ⟨rfl, takes.up.2 destination⟩
  · refine Or.inr (exists_onward free here (Q := fun p => p ≠ (top.peer c.node c.port).2) ?_ ?_)
    · exact fun p port ne => takes.onward y here destination p port ne
    · -- the copy came from the side that is further away
      rintro p - back rfl
      have far := (free.far_back leaving.port).2
      rw [Copy.target] at back toward
      rw [far] at back
      exact toward.asymm back

theorem Carried.step (free : top.LoopFree) (oriented : Oriented top s tr) (h : Carried top s tr) (moves : Moves top s s' os) :
    Carried top s' (tr ++ os) := by
  cases moves with
  | @send v frame r outs src sends =>
    refine ⟨fun n w dst mem y destination => ?_, fun n y mem => ?_, fun n y => ?_⟩
    · rcases List.mem_append.1 mem with before | new
      · exact h.kept before destination fun c mem id toward => Or.inl ⟨c, List.mem_append_left _ mem, id, toward⟩
      · rw [List.mem_singleton, LanObs.sent.injEq] at new
        obtain ⟨rfl, rfl, rfl⟩ := new
        obtain ⟨p, out, toward⟩ := exists_onward free destination.1 (Q := fun _ => True)
          (fun p port _ => sends.onward y destination.2 p port) fun _ _ _ => trivial
        exact Or.inl ⟨_, List.mem_append_right _ (List.mem_map.2 ⟨p, out, rfl⟩), rfl, toward⟩
    · obtain ⟨w, dst, sent, destination⟩ := h.taken n y (by simpa using mem)
      exact ⟨w, dst, List.mem_append_left _ sent, destination⟩
    · simpa [arrivals] using h.once n y
  | @deliver c rest r outs perm takes =>
    obtain ⟨x, leaving⟩ := oriented.wire c (perm.mem_iff.2 List.mem_cons_self)
    have before : ∀ {n w dst}, .sent n w dst ∈ tr ++ (.handled c.id (c.target top) (top.peer c.node c.port).2 ::
        if r.2.2 then [.up c.id (c.target top)] else []) → .sent n w dst ∈ tr := by
      intro n w dst mem
      rcases List.mem_append.1 mem with before | new
      · exact before
      · split at new <;> simp at new
    refine ⟨fun n w dst mem y destination => ?_, fun n y mem => ?_, fun n y => ?_⟩
    · refine h.kept (before mem) destination fun c' mem' id toward => ?_
      rcases List.mem_cons.1 (perm.mem_iff.1 mem') with rfl | other
      · subst id
        obtain ⟨rfl, same⟩ := oriented.unique _ _ _ _ _ (before mem) leaving.sent
        rcases Takes.carries free leaving takes (same ▸ destination.2) toward with ⟨rfl, up⟩ | ⟨p, out, toward'⟩
        · refine Or.inr (Or.inl ?_)
          rw [if_pos up]
          exact List.mem_cons_of_mem _ List.mem_cons_self
        · exact Or.inl ⟨_, List.mem_append_right _ (List.mem_map.2 ⟨p, out, rfl⟩), rfl, toward'⟩
      · exact Or.inl ⟨c', List.mem_append_left _ other, id, toward⟩
    · rcases List.mem_append.1 mem with old | new
      · obtain ⟨w, dst, sent, destination⟩ := h.taken n y old
        exact ⟨w, dst, List.mem_append_left _ sent, destination⟩
      · cases up : r.2.2 with
        | false => simp [up] at new
        | true =>
          simp only [up, if_true, List.mem_cons, reduceCtorEq, LanObs.up.injEq, List.not_mem_nil, or_false, false_or] at new
          obtain ⟨rfl, rfl⟩ := new
          exact ⟨x, c.frame.dst, List.mem_append_left _ leaving.sent, leaving.away.ne, takes.up.1 up⟩
    · have old := h.once n y
      by_cases here : (n, y) = (c.id, c.target top)
      · obtain ⟨rfl, rfl⟩ := Prod.mk.inj here
        cases r.2.2 <;> simp [arrivals, List.count_append] at old ⊢ <;> omega
      · have other : LanObs.up c.id (c.target top) ≠ .up n y := by
          rw [ne_eq, LanObs.up.injEq]
          rintro ⟨rfl, rfl⟩
          exact here rfl
        cases r.2.2 <;> simp [arrivals, List.count_append, List.count_cons, other] at old ⊢ <;> omega
  | @lose c rest perm =>
    refine ⟨fun n w dst mem y destination => ?_, fun n y mem => ?_, fun n y => ?_⟩
    · refine h.kept (by simpa using mem) destination fun c' mem' id toward => ?_
      rcases List.mem_cons.1 (perm.mem_iff.1 mem') with rfl | other
      · exact Or.inr (Or.inr ⟨_, by rw [id]; exact List.mem_cons_self⟩)
      · exact Or.inl ⟨c', other, id, toward⟩
    · obtain ⟨w, dst, sent, destination⟩ := h.taken n y (by simpa using mem)
      exact ⟨w, dst, List.mem_append_left _ sent, destination⟩
    · have old := h.once n y
      simp [arrivals, List.count_append] at old ⊢
      omega
  | wait t =>
    rw [List.append_nil]
    exact ⟨h.pending, h.taken, h.once⟩

/-! A switch with four stations. -/

def starTopology : Topology (Fin 5) where
  isSwitch v := v == 0
  config v := { address := 16 + v.val.toUInt64, ports := if v = 0 then [1, 2, 3, 4] else [0] }
  peer v p := if v = 0 then (Fin.ofNat 5 p, 0) else (0, v.val)
  portAddress v p :=
    if v = 0 ∧ p = 2 then 102 else if v = 0 ∧ p = 3 then 103 else if v = 0 ∧ p = 4 then 104 else 16 + v.val.toUInt64

theorem starTopology_graph : starTopology.graph = SimpleGraph.starGraph 0 := by
  ext v w
  rw [Topology.graph, SimpleGraph.fromRel_adj, SimpleGraph.starGraph_adj]
  revert v w
  decide

theorem starTopology_loopFree : starTopology.LoopFree where
  linked := by decide
  nodup := by decide
  simple := by decide
  tree := by
    rw [starTopology_graph]
    exact SimpleGraph.isTree_starGraph 0
  station v station := ⟨0, by revert v; decide⟩
  learning := by decide
  unique := by decide
  portUnique := by
    have other : ∀ w, starTopology.address w ≠ 102 ∧ starTopology.address w ≠ 103 ∧ starTopology.address w ≠ 104 := by
      decide
    have plain : ∀ v w : Fin 5, 16 + v.val.toUInt64 = starTopology.address w → v = w := by decide
    intro v p w same
    have shown : (if v = 0 ∧ p = 2 then 102 else if v = 0 ∧ p = 3 then 103 else if v = 0 ∧ p = 4 then 104 else
        16 + v.val.toUInt64) = starTopology.address w := same
    split at shown
    · exact absurd shown.symm (other w).1
    · split at shown
      · exact absurd shown.symm (other w).2.1
      · split at shown
        · exact absurd shown.symm (other w).2.2
        · exact plain v w shown
  single := by decide

/-- What holds of every network without loops. -/
structure Delivers (top : Topology V) (s : Lan V π) (tr : List (LanObs V)) : Prop where
  oriented : Oriented top s tr
  single : Single top s tr
  carried : Carried top s tr

theorem Delivers.step (free : top.LoopFree) (h : Delivers top s tr) (hstep : Lan.step top l s = some (s', os)) :
    Delivers top s' (tr ++ os) := by
  have moves := moves_of_step free h.oriented hstep
  exact ⟨h.oriented.step free moves, h.single.step free h.oriented moves, h.carried.step free h.oriented moves⟩

variable {ok : LanLabel V π → Lan V π → Prop} {now : Int}

theorem Delivers.of_run (free : top.LoopFree) (run : Lts.Run (Lan.step top) ok (Lan.start now) s tr) : Delivers top s tr :=
  run.invariant ⟨.start now, .start now, .start now⟩ fun _ _ _ _ _ h _ hstep => h.step free hstep

/-- **Switches learn the way to the owner of an address**: whatever is sent, lost and forgotten, every entry of every table
names a port, and behind that port is the device with the address. -/
theorem learned_ports (free : top.LoopFree) (run : Lts.Run (Lan.step top) ok (Lan.start now) s tr) (v : V) (a : UInt64)
    (state : LearnedState) (entry : s.tables v a = some state) :
    ∃ x p, a = top.address x ∧ state.associatedPort = some p ∧ p ∈ top.ports v ∧ Toward top.graph x v (top.far v p) :=
  (Delivers.of_run free run).oriented.tables v a state entry

/-- A station sends to another one that the switch does not know: the frame is flooded. -/
theorem flooded : ∃ s, Lts.Run (Lan.step starTopology) (fun _ _ => True) (Lan.start 0 : Lan (Fin 5) Unit) s
    [.sent 0 1 18, .handled 0 0 1, .handled 0 2 0, .up 0 2, .handled 0 3 0, .handled 0 4 0] ∧ s.wire = [] ∧
      ∃ state, s.tables 0 17 = some state := by
  have computed : ∃ s tr, Lts.Run (Lan.step starTopology) (fun _ _ => True) (Lan.start 0 : Lan (Fin 5) Unit) s tr ∧
      (tr, s.wire.isEmpty, (s.tables 0 17).isSome) =
        ([.sent 0 1 18, .handled 0 0 1, .handled 0 2 0, .up 0 2, .handled 0 3 0, .handled 0 4 0], true, true) :=
    Lts.Run.exists_of_guarded [.send 1 18 0x0800 (), .deliver 0, .deliver 0, .deliver 0, .deliver 0] (by decide +kernel)
  obtain ⟨s, tr, run, shown⟩ := computed
  simp only [Prod.mk.injEq, List.isEmpty_iff, Option.isSome_iff_exists] at shown
  obtain ⟨rfl, empty, entry⟩ := shown
  exact ⟨s, run, empty, entry⟩

theorem learned_ports_first : ∃ (s : Lan (Fin 5) Unit) (state : LearnedState), s.tables 0 17 = some state ∧
    ∃ x p, 17 = starTopology.address x ∧ state.associatedPort = some p ∧ p ∈ starTopology.ports 0 ∧
      Toward starTopology.graph x 0 (starTopology.far 0 p) := by
  obtain ⟨s, run, -, state, entry⟩ := flooded
  exact ⟨s, state, entry, learned_ports starTopology_loopFree run 0 17 state entry⟩

/-- **Exactly once.** When no copy of a frame is left on the links and none was lost, each of its destinations has taken it
once and nobody else has. -/
theorem taken_once (free : top.LoopFree) (run : Lts.Run (Lan.step top) ok (Lan.start now) s tr) {n : Nat} {v : V}
    {dst : UInt64} (sent : .sent n v dst ∈ tr) (arrived : ∀ c ∈ s.wire, c.id ≠ n) (kept : ∀ z, .lost n z ∉ tr) (y : V) :
    (Destination top v dst y → tr.count (.up n y) = 1) ∧ (¬Destination top v dst y → tr.count (.up n y) = 0) := by
  obtain ⟨oriented, single, carried⟩ := Delivers.of_run free run
  constructor
  · intro destination
    have atMost : tr.count (.up n y) ≤ 1 :=
      Nat.le_trans (carried.once n y) (List.nodup_iff_count_le_one.1 (List.nodup_append'.1 single.nodup).1 _)
    have atLeast : 0 < tr.count (.up n y) := by
      rcases carried.pending n v dst sent y destination with ⟨c, mem, id, -⟩ | up | ⟨z, lost⟩
      · exact absurd id (arrived c mem)
      · exact List.count_pos_iff.2 up
      · exact absurd lost (kept z)
    omega
  · intro notDestination
    refine List.count_eq_zero.2 fun up => notDestination ?_
    obtain ⟨v', dst', sent', destination⟩ := carried.taken n y up
    obtain ⟨rfl, rfl⟩ := oriented.unique _ _ _ _ _ sent sent'
    exact destination

theorem taken_once_flooded : ∃ s tr, Lts.Run (Lan.step starTopology) (fun _ _ => True) (Lan.start 0 : Lan (Fin 5) Unit) s tr ∧
    .handled 0 3 0 ∈ tr ∧ tr.count (.up 0 2) = 1 ∧ tr.count (.up 0 3) = 0 := by
  obtain ⟨s, run, empty, -⟩ := flooded
  have sent : LanObs.sent 0 (1 : Fin 5) 18 ∈ [.sent 0 1 18, .handled 0 0 1, .handled 0 2 0, .up 0 2, .handled 0 3 0,
    .handled 0 4 0] := by decide
  have once := taken_once starTopology_loopFree run sent (by simp [empty]) (by decide)
  exact ⟨s, _, run, by decide, (once 2).1 (by decide +kernel), (once 3).2 (by decide +kernel)⟩

/-! ## No storm -/

/-- The frames that were sent, with their senders. -/
def senders (tr : List (LanObs V)) : List (Nat × V) :=
  tr.filterMap fun
    | .sent n v _ => some (n, v)
    | _ => none

omit [DecidableEq V] in
theorem mem_senders {n : Nat} : (n, v) ∈ senders tr ↔ ∃ dst, .sent n v dst ∈ tr := by
  rw [senders, List.mem_filterMap]
  constructor
  · rintro ⟨o, mem, shown⟩
    cases o with
    | sent n' v' dst =>
      obtain ⟨rfl, rfl⟩ := Prod.mk.inj (Option.some.inj shown)
      exact ⟨dst, mem⟩
    | handled | up | lost => cases shown
  · rintro ⟨dst, mem⟩
    exact ⟨_, mem, rfl⟩

/-- **No storm.** A frame reaches no node twice, counting the copies that were lost on their way and those that still are on
the links, and its sender never. So a frame is sent over a link at most as often as there are other nodes. -/
theorem no_storm [Fintype V] (free : top.LoopFree) (run : Lts.Run (Lan.step top) ok (Lan.start now) s tr) :
    (arrivals tr ++ heading top s).Nodup ∧ (∀ e ∈ senders tr, e ∉ arrivals tr ++ heading top s) ∧
      (arrivals tr ++ heading top s).length ≤ (senders tr).length * (Fintype.card V - 1) := by
  obtain ⟨oriented, single, -⟩ := Delivers.of_run free run
  have elsewhere : ∀ e ∈ arrivals tr ++ heading top s, ∃ x, (e.1, x) ∈ senders tr ∧ e.2 ≠ x := by
    intro e mem
    obtain ⟨x, dst, w, sent, toward, -⟩ := single.reached e mem
    exact ⟨x, mem_senders.2 ⟨dst, sent⟩, toward.ne⟩
  refine ⟨single.nodup, fun e sender mem => ?_, ?_⟩
  · obtain ⟨x, sender', ne⟩ := elsewhere e mem
    obtain ⟨dst, sent⟩ := mem_senders.1 sender
    obtain ⟨dst', sent'⟩ := mem_senders.1 sender'
    exact ne (oriented.unique _ _ _ _ _ sent sent').1
  · let possible := (senders tr).toFinset.biUnion fun e => (Finset.univ.erase e.2).image fun y => (e.1, y)
    have sub : (arrivals tr ++ heading top s).toFinset ⊆ possible := by
      intro e mem
      obtain ⟨x, sender, ne⟩ := elsewhere e (List.mem_toFinset.1 mem)
      refine Finset.mem_biUnion.2 ⟨(e.1, x), List.mem_toFinset.2 sender, Finset.mem_image.2 ⟨e.2, ?_, rfl⟩⟩
      exact Finset.mem_erase.2 ⟨ne, Finset.mem_univ _⟩
    calc (arrivals tr ++ heading top s).length
        = (arrivals tr ++ heading top s).toFinset.card := (List.toFinset_card_of_nodup single.nodup).symm
      _ ≤ possible.card := Finset.card_le_card sub
      _ ≤ (senders tr).toFinset.card * (Fintype.card V - 1) := by
        refine Finset.card_biUnion_le_card_mul _ _ _ fun e _ => ?_
        refine Nat.le_trans Finset.card_image_le ?_
        rw [Finset.card_erase_of_mem (Finset.mem_univ _), Finset.card_univ]
      _ ≤ (senders tr).length * (Fintype.card V - 1) := Nat.mul_le_mul_right _ (List.toFinset_card_le _)

theorem no_storm_flooded : ∃ s tr, Lts.Run (Lan.step starTopology) (fun _ _ => True) (Lan.start 0 : Lan (Fin 5) Unit) s tr ∧
    (arrivals tr).length = 4 ∧ (arrivals tr ++ heading starTopology s).length ≤ 4 := by
  obtain ⟨s, run, -⟩ := flooded
  exact ⟨s, _, run, rfl, (no_storm starTopology_loopFree run).2.2⟩

end Lan

end Ns3Fancy.NetDevice
