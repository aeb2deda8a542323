import Ns3Fancy.Link.ControlLoss
import Ns3Fancy.Link.Fabric

/-!
# Loss accounting in networks

The switches of a network account for the losses on each of their links, whatever else the network does: traffic may come from
anywhere and go anywhere, other links may lose any frame and other machines may do as they like.
-/

namespace Ns3Fancy.Link.Fabric
open Switch Buffer Function
set_option autoImplicit false

section
variable (cfg : FancyConfig) {V : Type}

/-- A step that loses no counted packet on the wire out of `a`, and no report timer fires in the counting receiver at `b`. -/
structure Spares (a b : V × Nat) (id : Nat) (l : Label cfg V) (s : State cfg V) : Prop where
  control : ∀ k, l = .lose a k → ∀ frame, (s.net.wire a)[k]? = some frame → isTagged cfg frame = false
  timer : ∀ i luck u, l = .fire b i luck → (s.net.port b).events.pending[i]? = some (u, .sendGreyCounter id) →
    (s.net.port b).greyRecv.greyState id ≠ .counting

end

section
variable {cfg : FancyConfig} {V : Type} {s : State cfg V} {a b : V × Nat} {id : Nat} {net : Net.Cables (V × Nat)}

theorem Spares.controlLoss {l : Label cfg V} (spares : Spares cfg a b id l s) {l' : Link.Label cfg} {t : System}
    (explains : Explains net a b l s l' t) : ControlLoss cfg false id l' t where
  control := by
    rintro k rfl frame wire
    obtain ⟨rfl, loses⟩ := explains
    exact spares.control k loses frame wire
  timer := by
    rintro i u rfl pending
    obtain ⟨rfl, luck, fires⟩ := explains
    exact spares.timer i luck u fires pending

variable [DecidableEq V]

/-- **Loss accounting in any network of FANcY switches**: a report that a dedicated entry or the tree consumes at a port
accounts for the packets of the session that left by that port. -/
theorem fabric_accounting (tags : id ≠ cfg.wildcardId) (joined : net.peer a = some b) {node : V → Node cfg}
    {tr : List (Net.Seen (V × Nat))} (run : Lts.Run (step cfg net) (Spares cfg a b id) (start cfg net node) s tr)
    {x : Net.Seen (V × Nat)} (mem : x ∈ tr) (here : x.port = a) {k : Nat} {n r : UInt64} {cells : Nat → Nat → UInt32}
    {records : List (Nat × List UInt32)} {found : List Detection} (log : x.log = .consumed id k n cells r records found) :
    Accounted cfg false id k n r cells records found (tr.flatMap (Net.image a b)) := by
  have onLink : Lts.Run (Link.step cfg) (ControlLoss cfg false id) (System.start cfg) (s.net.link a b)
      (tr.flatMap (Net.image a b)) := link_of_run joined (fun _ _ _ _ spares explains => spares.controlLoss explains) run
  have seen : ({ side := false, log := x.log, lost := x.lost } : Link.Seen) ∈ tr.flatMap (Net.image a b) := by
    refine List.mem_flatMap.2 ⟨x, mem, ?_⟩
    simp [Net.image, Net.side, here]
  exact (synchronous_of_controlLoss tags onLink).accounted (truthful_of_run false onLink) seen log

/-- `Spares` for the tree machine of the first switch of the line, computed. -/
def sparesStep : Label deepConfig Nat → State deepConfig Nat → Bool
  | .lose x k, s => x != (0, 1) || (s.net.wire x)[k]?.all fun frame => !isTagged deepConfig frame
  | .fire x _ _, s => x != (1, 0) || decide ((s.net.port x).greyRecv.greyState 0 ≠ .counting)
  | _, _ => true

theorem spares_of_sparesStep {l : Label deepConfig Nat} {s : State deepConfig Nat} (check : sparesStep l s = true) :
    Spares deepConfig (0, 1) (1, 0) 0 l s := by
  constructor
  · rintro k rfl frame wire
    simpa [sparesStep, wire] using check
  · rintro i luck u rfl - counting
    simp [sparesStep] at check
    exact check counting

/-- The first switch of the line consumes the report of its first session. -/
def firstReport (x : Net.Seen (Nat × Nat)) : Bool :=
  x.port == (0, 1) && match x.log with
    | .consumed 0 0 _ _ _ _ _ => true
    | _ => false

theorem firstReport_log {x : Net.Seen (Nat × Nat)} (shown : firstReport x = true) :
    x.port = (0, 1) ∧ ∃ n cells r records found, x.log = .consumed 0 0 n cells r records found := by
  simp only [firstReport, Bool.and_eq_true, beq_iff_eq] at shown
  obtain ⟨here, shown⟩ := shown
  split at shown
  · rename_i n cells r records found log
    exact ⟨here, n, cells, r, records, found, log⟩
  · cases shown

theorem fabric_accounting_line : ∃ s tr,
    Lts.Run (step deepConfig line) (Spares deepConfig (0, 1) (1, 0) 0) (start deepConfig line crossover) s tr ∧
    ∃ x ∈ tr, ∃ n cells r records found, x.log = .consumed 0 0 n cells r records found ∧
      Accounted deepConfig false 0 0 n r cells records found (tr.flatMap (Net.image (0, 1) (1, 0))) ∧
        n.toNat - r.toNat = 1 := by
  have session : ∃ s tr, Lts.Run (step deepConfig line) (fun l s => sparesStep l s = true)
      (start deepConfig line crossover) s tr ∧
      (tr.any firstReport, countedPackets false 0 0 (tr.flatMap (Net.image (0, 1) (1, 0))),
        lostPackets false 0 0 (tr.flatMap (Net.image (0, 1) (1, 0)))) = (true, 2, 1) :=
    Lts.Run.exists_of_guarded overLine (by decide +kernel)
  obtain ⟨s, tr, checked, shown⟩ := session
  have run := checked.mono fun _ _ => spares_of_sparesStep
  simp only [Prod.mk.injEq, List.any_eq_true] at shown
  obtain ⟨⟨x, mem, shown⟩, counted, lost⟩ := shown
  obtain ⟨here, n, cells, r, records, found, log⟩ := firstReport_log shown
  have accounted := fabric_accounting (by decide) rfl run mem here log
  have number := accounted.counter
  rw [counted, lost] at number
  exact ⟨s, tr, run, x, mem, n, cells, r, records, found, log, accounted, (number.number (by decide)).2.1⟩

end

end Ns3Fancy.Link.Fabric
