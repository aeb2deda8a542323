import Ns3Fancy.Buffer.Bytes
import Mathlib.Data.Finset.Insert
import Mathlib.Data.Rat.Defs
import Mathlib.Algebra.Order.Ring.Rat

/-!
# The error model of flows

Some flows are red and lose every packet; the packets of the others are lost as a normal error model says. The normal model has
a state of its own, so how often it is asked matters.
-/

namespace Ns3Fancy.ErrorModel
open Buffer
set_option autoImplicit false

inductive FlowLayer where
  | L3_LAYER | L4_LAYER
  deriving DecidableEq

/-- The fields of a packet's headers that a flow is told by; the ports are those of its UDP or TCP header. -/
structure Headers where
  src : UInt32
  dst : UInt32
  protocol : UInt8
  srcPort : UInt16
  dstPort : UInt16

/-- A flow. -/
structure Flow where
  src : UInt32
  dst : UInt32
  protocol : UInt8
  srcPort : UInt16
  dstPort : UInt16
  deriving DecidableEq

/-- The flow of a packet; the ports are 0 at layer 3 and for other protocols. -/
def Headers.flow (layer : FlowLayer) (h : Headers) : Flow :=
  if layer = .L4_LAYER ∧ (h.protocol = 17 ∨ h.protocol = 6) then ⟨h.src, h.dst, h.protocol, h.srcPort, h.dstPort⟩
  else ⟨h.src, h.dst, h.protocol, 0, 0⟩

/-- The 13 bytes that are hashed. -/
def Flow.buffer (f : Flow) : Bytes :=
  writeBE 4 f.src.toNat ++ writeBE 4 f.dst.toNat ++ [f.protocol] ++ writeBE 2 f.srcPort.toNat ++ writeBE 2 f.dstPort.toNat

/-- `FlowErrorModel`: its attributes, and what it calls: the hash, the values of `m_ranvar` and the normal error model. -/
structure FlowErrorModel (P σ : Type) where
  layer : FlowLayer
  flowErrorRate : ℚ
  headers : P → Headers
  hash64 : Bytes → UInt64
  ranvar : Nat → ℚ
  isCorrupt : P → σ → Bool × σ

/-- The state of the model and of the normal one, and how many values were drawn. -/
structure State (σ : Type) where
  redFlows : Finset UInt64 := ∅
  greenFlows : Finset UInt64 := ∅
  drawn : Nat := 0
  normal : σ

/-- What the model says of a packet, and how often it asked the normal one. -/
structure Verdict where
  corrupt : Bool
  consulted : Nat
  deriving DecidableEq

namespace FlowErrorModel
variable {P σ : Type} (m : FlowErrorModel P σ)

/-- The flow of a packet. -/
def flow (p : P) : Flow := (m.headers p).flow m.layer

def getHeaderHash (p : P) : UInt64 := m.hash64 (m.flow p).buffer

def isRed (s : State σ) (flowId : UInt64) : Prop := flowId ∈ s.redFlows

def isGreen (s : State σ) (flowId : UInt64) : Prop := flowId ∈ s.greenFlows

instance (s : State σ) (flowId : UInt64) : Decidable (isRed s flowId) := inferInstanceAs (Decidable (_ ∈ _))

instance (s : State σ) (flowId : UInt64) : Decidable (isGreen s flowId) := inferInstanceAs (Decidable (_ ∈ _))

/-- Asks the normal model. -/
def consult (p : P) (s : State σ) : Bool × State σ :=
  let (corrupt, normal) := m.isCorrupt p s.normal
  (corrupt, { s with normal := normal })

def doCorruptFlow (flowId : UInt64) (s : State σ) : Bool × State σ :=
  let s' := { s with drawn := s.drawn + 1 }
  if m.ranvar s.drawn ≤ m.flowErrorRate then (true, { s' with redFlows := insert flowId s.redFlows })
  else (false, { s' with greenFlows := insert flowId s.greenFlows })

/-- The first part of `DoCorrupt`, by the colour of the flow. -/
def corruptByFlow (p : P) (s : State σ) : Verdict × State σ :=
  let flowId := m.getHeaderHash p
  if isRed s flowId then (⟨true, 0⟩, s)
  else if isGreen s flowId then
    let (corrupt, s) := m.consult p s
    (⟨corrupt, 1⟩, s)
  else
    let (corrupt, s) := m.doCorruptFlow flowId s
    (⟨corrupt, 0⟩, s)

def doCorrupt (enabled : Bool) (p : P) (s : State σ) : Verdict × State σ :=
  if !enabled then (⟨false, 0⟩, s)
  else
    let (v, s) := if 0 < m.flowErrorRate then m.corruptByFlow p s else (⟨false, 0⟩, s)
    if !v.corrupt then
      let (corrupt, s) := m.consult p s
      (⟨corrupt, v.consulted + 1⟩, s)
    else (v, s)

/-- A sequence of packets, each with whether the model is enabled. -/
def doCorrupts : List (Bool × P) → State σ → List Verdict × State σ
  | [], s => ([], s)
  | (enabled, p) :: ps, s =>
    let (v, s) := m.doCorrupt enabled p s
    let (vs, s) := doCorrupts ps s
    (v :: vs, s)

end FlowErrorModel

/-! ## The specification -/

inductive Colour where
  | red | green
  deriving DecidableEq

/-- The colours of the flows seen, and the state of the normal model. -/
structure Colours (σ : Type) where
  colour : Flow → Option Colour := fun _ => none
  drawn : Nat := 0
  normal : σ

namespace FlowErrorModel
variable {P σ : Type} (m : FlowErrorModel P σ)

/-- The colour of a flow: drawn for its first packet, and kept. -/
def colourOf (f : Flow) (a : Colours σ) : Colour × Colours σ :=
  match a.colour f with
  | some c => (c, a)
  | none =>
    let c : Colour := if m.ranvar a.drawn ≤ m.flowErrorRate then .red else .green
    (c, { a with colour := Function.update a.colour f (some c), drawn := a.drawn + 1 })

/-- What the model is for: a packet of a red flow is lost, and of every other packet the normal model is asked once. No flow is
red at a rate of 0. -/
def spec (enabled : Bool) (p : P) (a : Colours σ) : Verdict × Colours σ :=
  if !enabled then (⟨false, 0⟩, a)
  else
    let (c, a) := if 0 < m.flowErrorRate then m.colourOf (m.flow p) a else (.green, a)
    match c with
    | .red => (⟨true, 0⟩, a)
    | .green => (⟨(m.isCorrupt p a.normal).1, 1⟩, { a with normal := (m.isCorrupt p a.normal).2 })

def specs : List (Bool × P) → Colours σ → List Verdict × Colours σ
  | [], a => ([], a)
  | (enabled, p) :: ps, a =>
    let (v, a) := m.spec enabled p a
    let (vs, a) := specs ps a
    (v :: vs, a)

/-- The hashes of the packets' flows do not collide. -/
def CollisionFree (packets : List P) : Prop :=
  ∀ p ∈ packets, ∀ q ∈ packets, m.getHeaderHash p = m.getHeaderHash q → m.flow p = m.flow q

/-- The sets hold the colours of the flows. -/
structure Coloured (packets : List P) (s : State σ) (a : Colours σ) : Prop where
  red : ∀ p ∈ packets, isRed s (m.getHeaderHash p) ↔ a.colour (m.flow p) = some .red
  green : ∀ p ∈ packets, isGreen s (m.getHeaderHash p) ↔ a.colour (m.flow p) = some .green
  drawn : s.drawn = a.drawn

/-- A packet for which the normal model is not asked twice: its flow is not green yet, or the first answer is that it is
lost. -/
def Single (enabled : Bool) (p : P) (s : State σ) : Prop :=
  enabled = true → 0 < m.flowErrorRate → isGreen s (m.getHeaderHash p) → (m.isCorrupt p s.normal).1 = true

/-- It is asked twice for no packet of a sequence. -/
def Singles : List (Bool × P) → State σ → Prop
  | [], _ => True
  | (enabled, p) :: ps, s => m.Single enabled p s ∧ Singles ps (m.doCorrupt enabled p s).2

section
variable {m : FlowErrorModel P σ} {packets : List P} {s : State σ} {a : Colours σ} {p : P} {enabled : Bool}

/-- At a rate of 0 only the normal model is asked. -/
theorem doCorrupt_unrated (rate : ¬0 < m.flowErrorRate) : m.doCorrupt true p s =
    (⟨(m.isCorrupt p s.normal).1, 1⟩, { s with normal := (m.isCorrupt p s.normal).2 }) := by
  unfold doCorrupt
  rw [if_neg rate]
  rfl

theorem spec_unrated (rate : ¬0 < m.flowErrorRate) : m.spec true p a =
    (⟨(m.isCorrupt p a.normal).1, 1⟩, { a with normal := (m.isCorrupt p a.normal).2 }) := by
  unfold spec
  rw [if_neg rate]
  rfl

theorem doCorrupt_red (rate : 0 < m.flowErrorRate) (red : isRed s (m.getHeaderHash p)) :
    m.doCorrupt true p s = (⟨true, 0⟩, s) := by
  have first : m.corruptByFlow p s = (⟨true, 0⟩, s) := if_pos red
  unfold doCorrupt
  rw [if_pos rate, first]
  rfl

theorem spec_known (rate : 0 < m.flowErrorRate) {c : Colour} (known : a.colour (m.flow p) = some c) :
    m.spec true p a = match c with
      | .red => (⟨true, 0⟩, a)
      | .green => (⟨(m.isCorrupt p a.normal).1, 1⟩, { a with normal := (m.isCorrupt p a.normal).2 }) := by
  have colour : m.colourOf (m.flow p) a = (c, a) := by
    unfold colourOf
    rw [known]
  unfold spec
  rw [if_pos rate, colour]
  cases c <;> rfl

/-- A packet of a green flow that the normal model loses at once. -/
theorem doCorrupt_green (rate : 0 < m.flowErrorRate) (red : ¬isRed s (m.getHeaderHash p))
    (green : isGreen s (m.getHeaderHash p)) (lost : (m.isCorrupt p s.normal).1 = true) :
    m.doCorrupt true p s = (⟨true, 1⟩, { s with normal := (m.isCorrupt p s.normal).2 }) := by
  have first : m.corruptByFlow p s = (⟨true, 1⟩, { s with normal := (m.isCorrupt p s.normal).2 }) := by
    rw [corruptByFlow, if_neg red, if_pos green, consult]
    dsimp only
    rw [lost]
  unfold doCorrupt
  rw [if_pos rate, first]
  rfl

/-- One that it passes is given to it once more. -/
theorem doCorrupt_twice (rate : 0 < m.flowErrorRate) (red : ¬isRed s (m.getHeaderHash p))
    (green : isGreen s (m.getHeaderHash p)) (passed : (m.isCorrupt p s.normal).1 = false) :
    m.doCorrupt true p s = (⟨(m.isCorrupt p (m.isCorrupt p s.normal).2).1, 2⟩,
      { s with normal := (m.isCorrupt p (m.isCorrupt p s.normal).2).2 }) := by
  have first : m.corruptByFlow p s = (⟨false, 1⟩, { s with normal := (m.isCorrupt p s.normal).2 }) := by
    rw [corruptByFlow, if_neg red, if_pos green, consult]
    dsimp only
    rw [passed]
  unfold doCorrupt
  rw [if_pos rate, first]
  rfl

/-- The first packet of a flow that becomes red. -/
theorem doCorrupt_new_red (rate : 0 < m.flowErrorRate) (red : ¬isRed s (m.getHeaderHash p))
    (green : ¬isGreen s (m.getHeaderHash p)) (drawn : m.ranvar s.drawn ≤ m.flowErrorRate) :
    m.doCorrupt true p s =
      (⟨true, 0⟩, { s with drawn := s.drawn + 1, redFlows := insert (m.getHeaderHash p) s.redFlows }) := by
  have first : m.corruptByFlow p s =
      (⟨true, 0⟩, { s with drawn := s.drawn + 1, redFlows := insert (m.getHeaderHash p) s.redFlows }) := by
    rw [corruptByFlow, if_neg red, if_neg green, doCorruptFlow, if_pos drawn]
  unfold doCorrupt
  rw [if_pos rate, first]
  rfl

theorem doCorrupt_new_green (rate : 0 < m.flowErrorRate) (red : ¬isRed s (m.getHeaderHash p))
    (green : ¬isGreen s (m.getHeaderHash p)) (drawn : ¬m.ranvar s.drawn ≤ m.flowErrorRate) :
    m.doCorrupt true p s = (⟨(m.isCorrupt p s.normal).1, 1⟩,
      { s with drawn := s.drawn + 1, greenFlows := insert (m.getHeaderHash p) s.greenFlows
               normal := (m.isCorrupt p s.normal).2 }) := by
  have first : m.corruptByFlow p s =
      (⟨false, 0⟩, { s with drawn := s.drawn + 1, greenFlows := insert (m.getHeaderHash p) s.greenFlows }) := by
    rw [corruptByFlow, if_neg red, if_neg green, doCorruptFlow, if_neg drawn]
  unfold doCorrupt
  rw [if_pos rate, first]
  rfl

theorem spec_new (rate : 0 < m.flowErrorRate) (new : a.colour (m.flow p) = none) :
    m.spec true p a =
      if m.ranvar a.drawn ≤ m.flowErrorRate then
        (⟨true, 0⟩, { a with colour := Function.update a.colour (m.flow p) (some .red), drawn := a.drawn + 1 })
      else (⟨(m.isCorrupt p a.normal).1, 1⟩,
        { a with colour := Function.update a.colour (m.flow p) (some .green), drawn := a.drawn + 1
                 normal := (m.isCorrupt p a.normal).2 }) := by
  unfold spec colourOf
  by_cases drawn : m.ranvar a.drawn ≤ m.flowErrorRate
  · rw [if_pos rate, new, if_pos drawn, if_pos drawn]
    rfl
  · rw [if_pos rate, new, if_neg drawn, if_neg drawn]
    rfl

theorem CollisionFree.iff (free : m.CollisionFree packets) {q : P} (here : p ∈ packets) (there : q ∈ packets) :
    m.getHeaderHash q = m.getHeaderHash p ↔ m.flow q = m.flow p := by
  constructor
  · exact free q there p here
  · intro same
    rw [getHeaderHash, getHeaderHash, same]

/-- The set of the colour that is drawn for a new flow. -/
theorem update_drawn {ids : Finset UInt64} {colour : Flow → Option Colour} {c : Colour} (free : m.CollisionFree packets)
    (here : p ∈ packets) (known : ∀ q ∈ packets, m.getHeaderHash q ∈ ids ↔ colour (m.flow q) = some c) :
    ∀ q ∈ packets, m.getHeaderHash q ∈ insert (m.getHeaderHash p) ids ↔
      Function.update colour (m.flow p) (some c) (m.flow q) = some c := by
  intro q there
  rw [Finset.mem_insert, free.iff here there, Function.update_apply]
  split
  · rename_i same
    exact iff_of_true (Or.inl same) rfl
  · rename_i other
    rw [or_iff_right other]
    exact known q there

/-- The set of another colour. -/
theorem update_other {ids : Finset UInt64} {colour : Flow → Option Colour} {c c' : Colour}
    (known : ∀ q ∈ packets, m.getHeaderHash q ∈ ids ↔ colour (m.flow q) = some c) (new : colour (m.flow p) = none)
    (differs : c' ≠ c) :
    ∀ q ∈ packets, m.getHeaderHash q ∈ ids ↔ Function.update colour (m.flow p) (some c') (m.flow q) = some c := by
  intro q there
  rw [Function.update_apply]
  split
  · rename_i same
    refine iff_of_false (fun mem => ?_) fun eq => differs (Option.some.inj eq)
    have colour := (known q there).1 mem
    rw [same, new] at colour
    cases colour
  · exact known q there

theorem Coloured.draw_red (coloured : m.Coloured packets s a) (free : m.CollisionFree packets) (here : p ∈ packets)
    (new : a.colour (m.flow p) = none) (normal normal' : σ) :
    m.Coloured packets
      { s with drawn := s.drawn + 1, redFlows := insert (m.getHeaderHash p) s.redFlows, normal := normal }
      { a with colour := Function.update a.colour (m.flow p) (some .red), drawn := a.drawn + 1, normal := normal' } where
  red := update_drawn free here coloured.red
  green := update_other coloured.green new (by decide)
  drawn := congrArg (· + 1) coloured.drawn

theorem Coloured.draw_green (coloured : m.Coloured packets s a) (free : m.CollisionFree packets) (here : p ∈ packets)
    (new : a.colour (m.flow p) = none) (normal normal' : σ) :
    m.Coloured packets
      { s with drawn := s.drawn + 1, greenFlows := insert (m.getHeaderHash p) s.greenFlows, normal := normal }
      { a with colour := Function.update a.colour (m.flow p) (some .green), drawn := a.drawn + 1, normal := normal' } where
  red := update_other coloured.red new (by decide)
  green := update_drawn free here coloured.green
  drawn := congrArg (· + 1) coloured.drawn

theorem Coloured.not_red (coloured : m.Coloured packets s a) (here : p ∈ packets)
    (other : a.colour (m.flow p) ≠ some .red) : ¬isRed s (m.getHeaderHash p) := fun red => other ((coloured.red p here).1 red)

theorem Coloured.not_green (coloured : m.Coloured packets s a) (here : p ∈ packets)
    (other : a.colour (m.flow p) ≠ some .green) : ¬isGreen s (m.getHeaderHash p) :=
  fun green => other ((coloured.green p here).1 green)

/-- The sets do not depend on the normal model. -/
theorem Coloured.asked (coloured : m.Coloured packets s a) (normal normal' : σ) :
    m.Coloured packets { s with normal := normal } { a with normal := normal' } :=
  ⟨coloured.red, coloured.green, coloured.drawn⟩

theorem single_of_not_green (green : ¬isGreen s (m.getHeaderHash p)) : m.Single enabled p s :=
  fun _ _ known => absurd known green

/-- **One packet**: the model and its specification colour alike, and if the normal model is not asked twice and was in the
same state, they say the same and leave it in the same state; if it is asked twice, they do not. -/
structure Lockstep (m : FlowErrorModel P σ) (packets : List P) (enabled : Bool) (p : P) (s : State σ) (a : Colours σ) :
    Prop where
  coloured : m.Coloured packets (m.doCorrupt enabled p s).2 (m.spec enabled p a).2
  agree : s.normal = a.normal → m.Single enabled p s → (m.doCorrupt enabled p s).1 = (m.spec enabled p a).1 ∧
    (m.doCorrupt enabled p s).2.normal = (m.spec enabled p a).2.normal
  differ : ¬m.Single enabled p s → (m.doCorrupt enabled p s).1 ≠ (m.spec enabled p a).1

/-- A packet for which the normal model is not asked twice. -/
theorem Lockstep.of_single (single : m.Single enabled p s)
    (coloured : m.Coloured packets (m.doCorrupt enabled p s).2 (m.spec enabled p a).2)
    (agree : s.normal = a.normal → (m.doCorrupt enabled p s).1 = (m.spec enabled p a).1 ∧
      (m.doCorrupt enabled p s).2.normal = (m.spec enabled p a).2.normal) : Lockstep m packets enabled p s a :=
  ⟨coloured, fun same _ => agree same, fun twice => absurd single twice⟩

/-- The first packet of a flow. -/
theorem lockstep_new (free : m.CollisionFree packets) (here : p ∈ packets) (coloured : m.Coloured packets s a)
    (rate : 0 < m.flowErrorRate) (new : a.colour (m.flow p) = none) : Lockstep m packets true p s a := by
  have red := coloured.not_red here (by rw [new]; decide)
  have green := coloured.not_green here (by rw [new]; decide)
  by_cases drawn : m.ranvar s.drawn ≤ m.flowErrorRate
  · have drawn' : m.ranvar a.drawn ≤ m.flowErrorRate := coloured.drawn ▸ drawn
    refine .of_single (single_of_not_green green) ?_ fun same => ?_
    · rw [doCorrupt_new_red rate red green drawn, spec_new rate new, if_pos drawn']
      exact coloured.draw_red free here new s.normal a.normal
    · rw [doCorrupt_new_red rate red green drawn, spec_new rate new, if_pos drawn']
      exact ⟨rfl, same⟩
  · have drawn' : ¬m.ranvar a.drawn ≤ m.flowErrorRate := coloured.drawn ▸ drawn
    refine .of_single (single_of_not_green green) ?_ fun same => ?_
    · rw [doCorrupt_new_green rate red green drawn, spec_new rate new, if_neg drawn']
      exact coloured.draw_green free here new _ _
    · rw [doCorrupt_new_green rate red green drawn, spec_new rate new, if_neg drawn', same]
      exact ⟨rfl, rfl⟩

/-- A packet of a green flow. -/
theorem lockstep_green (here : p ∈ packets) (coloured : m.Coloured packets s a) (rate : 0 < m.flowErrorRate)
    (known : a.colour (m.flow p) = some .green) : Lockstep m packets true p s a := by
  have green := (coloured.green p here).2 known
  have red := coloured.not_red here (by rw [known]; decide)
  cases answer : (m.isCorrupt p s.normal).1 with
  | true =>
    refine .of_single (fun _ _ _ => answer) ?_ fun same => ?_
    · rw [doCorrupt_green rate red green answer, spec_known rate known]
      exact coloured.asked _ _
    · rw [doCorrupt_green rate red green answer, spec_known rate known, ← same, answer]
      exact ⟨rfl, rfl⟩
  | false =>
    have twice : ¬m.Single true p s := by
      intro single
      have lost := single rfl rate green
      rw [answer] at lost
      cases lost
    refine ⟨?_, fun _ single => absurd single twice, fun _ equal => ?_⟩
    · rw [doCorrupt_twice rate red green answer, spec_known rate known]
      exact coloured.asked _ _
    · rw [doCorrupt_twice rate red green answer, spec_known rate known] at equal
      have wrong : (2 : Nat) = 1 := congrArg Verdict.consulted equal
      cases wrong

theorem lockstep (enabled : Bool) (free : m.CollisionFree packets) (here : p ∈ packets) (coloured : m.Coloured packets s a) :
    Lockstep m packets enabled p s a := by
  cases enabled with
  | false => exact .of_single (fun on => absurd on Bool.false_ne_true) coloured fun same => ⟨rfl, same⟩
  | true =>
    by_cases rate : 0 < m.flowErrorRate
    · cases known : a.colour (m.flow p) with
      | none => exact lockstep_new free here coloured rate known
      | some c =>
        cases c with
        | red =>
          have red := (coloured.red p here).2 known
          have green := coloured.not_green here (by rw [known]; decide)
          refine .of_single (single_of_not_green green) ?_ fun same => ?_
          · rw [doCorrupt_red rate red, spec_known rate known]
            exact coloured
          · rw [doCorrupt_red rate red, spec_known rate known]
            exact ⟨rfl, same⟩
        | green => exact lockstep_green here coloured rate known
    · refine .of_single (fun _ some_ => absurd some_ rate) ?_ fun same => ?_
      · rw [doCorrupt_unrated rate, spec_unrated rate]
        exact coloured.asked _ _
      · rw [doCorrupt_unrated rate, spec_unrated rate, same]
        exact ⟨rfl, rfl⟩

/-- **The colours** are those of the specification, for every sequence of packets. -/
theorem doCorrupts_coloured (free : m.CollisionFree packets) {ps : List (Bool × P)} (among : ∀ q ∈ ps, q.2 ∈ packets)
    (coloured : m.Coloured packets s a) : m.Coloured packets (m.doCorrupts ps s).2 (m.specs ps a).2 := by
  induction ps generalizing s a with
  | nil => exact coloured
  | cons q ps ih =>
    have step := (lockstep q.1 free (among q List.mem_cons_self) coloured).coloured
    exact ih (fun r mem => among r (List.mem_cons_of_mem q mem)) step

/-- In the specification a colour stays as it was drawn. -/
theorem specs_colour {f : Flow} {c : Colour} (known : a.colour f = some c) (ps : List (Bool × P)) :
    (m.specs ps a).2.colour f = some c := by
  induction ps generalizing a with
  | nil => exact known
  | cons q ps ih =>
    obtain ⟨enabled, p⟩ := q
    refine ih (a := (m.spec enabled p a).2) ?_
    cases enabled with
    | false => exact known
    | true =>
      by_cases rate : 0 < m.flowErrorRate
      · cases seen : a.colour (m.flow p) with
        | none =>
          have other : f ≠ m.flow p := by
            rintro rfl
            rw [seen] at known
            cases known
          rw [spec_new rate seen]
          split <;> exact (Function.update_of_ne other _ _).trans known
        | some d =>
          rw [spec_known rate seen]
          cases d <;> exact known
      · rw [spec_unrated rate]
        exact known

theorem doCorrupts_append (before after : List (Bool × P)) (s : State σ) :
    (m.doCorrupts (before ++ after) s).2 = (m.doCorrupts after (m.doCorrupts before s).2).2 := by
  induction before generalizing s with
  | nil => rfl
  | cons q before ih => exact ih (m.doCorrupt q.1 q.2 s).2

/-- A flow that is red or green stays so to the end of the sequence. -/
def Lasting (m : FlowErrorModel P σ) (ps : List (Bool × P)) (s : State σ) : Prop :=
  ∀ before after, ps = before ++ after → ∀ p ∈ ps.map Prod.snd,
    (isRed (m.doCorrupts before s).2 (m.getHeaderHash p) → isRed (m.doCorrupts ps s).2 (m.getHeaderHash p)) ∧
    (isGreen (m.doCorrupts before s).2 (m.getHeaderHash p) → isGreen (m.doCorrupts ps s).2 (m.getHeaderHash p))

/-- **Colours last**, by those of the specification. -/
theorem doCorrupts_lasting {ps : List (Bool × P)} (free : m.CollisionFree (ps.map Prod.snd))
    (coloured : m.Coloured (ps.map Prod.snd) s a) : m.Lasting ps s := by
  rintro before after rfl p here
  have first : ∀ q ∈ before, q.2 ∈ (before ++ after).map Prod.snd := fun q mem =>
    List.mem_map_of_mem (List.mem_append_left after mem)
  have rest : ∀ q ∈ after, q.2 ∈ (before ++ after).map Prod.snd := fun q mem =>
    List.mem_map_of_mem (List.mem_append_right before mem)
  have early := doCorrupts_coloured free first coloured
  have late := doCorrupts_coloured free rest early
  rw [doCorrupts_append]
  refine ⟨fun red => ?_, fun green => ?_⟩
  · exact (late.red p here).2 (specs_colour ((early.red p here).1 red) after)
  · exact (late.green p here).2 (specs_colour ((early.green p here).1 green) after)

end

/-- **The refinement**: from a reset, with the same verdicts, consultations included, the colours and the state of the normal
model of the specification. -/
structure Refines (ps : List (Bool × P)) (normal : σ) : Prop where
  coloured : m.Coloured (ps.map Prod.snd) (m.doCorrupts ps { normal := normal }).2 (m.specs ps { normal := normal }).2
  verdicts : (m.doCorrupts ps { normal := normal }).1 = (m.specs ps { normal := normal }).1
  normal : (m.doCorrupts ps { normal := normal }).2.normal = (m.specs ps { normal := normal }).2.normal

/-- The verdicts and the normal model from any states that agree. -/
theorem verdicts_iff {m : FlowErrorModel P σ} {packets : List P} {s : State σ} {a : Colours σ}
    (free : m.CollisionFree packets) {ps : List (Bool × P)} (among : ∀ q ∈ ps, q.2 ∈ packets)
    (coloured : m.Coloured packets s a) (same : s.normal = a.normal) :
    (m.doCorrupts ps s).1 = (m.specs ps a).1 ∧ (m.doCorrupts ps s).2.normal = (m.specs ps a).2.normal ↔ m.Singles ps s := by
  induction ps generalizing s a with
  | nil => exact iff_of_true ⟨rfl, same⟩ trivial
  | cons q ps ih =>
    obtain ⟨enabled, p⟩ := q
    have step := lockstep enabled free (among _ List.mem_cons_self) coloured
    show (m.doCorrupt enabled p s).1 :: (m.doCorrupts ps (m.doCorrupt enabled p s).2).1 =
        (m.spec enabled p a).1 :: (m.specs ps (m.spec enabled p a).2).1 ∧
      (m.doCorrupts ps (m.doCorrupt enabled p s).2).2.normal = (m.specs ps (m.spec enabled p a).2).2.normal ↔
      m.Single enabled p s ∧ m.Singles ps (m.doCorrupt enabled p s).2
    by_cases once : m.Single enabled p s
    · obtain ⟨verdict, normal⟩ := step.agree same once
      rw [and_iff_right once, ← ih (fun r mem => among r (List.mem_cons_of_mem _ mem)) step.coloured normal, List.cons.injEq,
        and_iff_right verdict]
    · refine iff_of_false (fun equal => ?_) fun both => once both.1
      exact step.differ once (List.cons.inj equal.1).1

/-- **The model refines its specification** exactly if the normal model is not asked twice: whenever the model is enabled at a
positive rate and a packet of a flow that is green already comes, the normal model loses it when asked first. In any case no
flow changes its colour. -/
theorem refines_iff (m : FlowErrorModel P σ) (ps : List (Bool × P)) (normal : σ) (free : m.CollisionFree (ps.map Prod.snd)) :
    (m.Refines ps normal ↔ m.Singles ps { normal := normal }) ∧ m.Lasting ps { normal := normal } := by
  have among : ∀ q ∈ ps, q.2 ∈ ps.map Prod.snd := fun q mem => List.mem_map_of_mem mem
  have start : m.Coloured (ps.map Prod.snd) { normal := normal } { normal := normal } :=
    ⟨fun q _ => iff_of_false (Finset.notMem_empty _) nofun, fun q _ => iff_of_false (Finset.notMem_empty _) nofun, rfl⟩
  refine ⟨?_, doCorrupts_lasting free start⟩
  rw [← verdicts_iff free among start rfl]
  constructor
  · intro refines
    exact ⟨refines.verdicts, refines.normal⟩
  · rintro ⟨verdicts, normal⟩
    exact ⟨doCorrupts_coloured free among start, verdicts, normal⟩

/-- One flow, green at a rate of one half; the normal model counts how often it is asked. -/
def oneFlow (hash64 : Bytes → UInt64) (lost : Nat → Bool) : FlowErrorModel Unit Nat where
  layer := .L4_LAYER
  flowErrorRate := 1 / 2
  headers _ := { src := 1, dst := 2, protocol := 6, srcPort := 3, dstPort := 4 }
  hash64 := hash64
  ranvar _ := 1
  isCorrupt _ n := (lost n, n + 1)

/-- A normal model that loses everything is asked once for each packet. -/
theorem refines_lossy : (∀ hash64, (oneFlow hash64 fun _ => true).Refines [(true, ()), (true, ())] 0) ∧
    ((oneFlow (fun _ => 0) fun _ => true).doCorrupts [(true, ()), (true, ())] { normal := 0 }).1 = [⟨true, 1⟩, ⟨true, 1⟩] := by
  refine ⟨fun hash64 => ?_, by decide +kernel⟩
  exact (refines_iff _ _ _ fun _ _ _ _ _ => rfl).1.2 ⟨fun _ _ _ => rfl, fun _ _ _ => rfl, trivial⟩

/-- The second packet is passed when the normal model is first asked, and lost when it is asked again. -/
theorem not_refines : ¬(oneFlow (fun _ => 0) fun n => n == 2).Refines [(true, ()), (true, ())] 0 ∧
    ((oneFlow (fun _ => 0) fun n => n == 2).doCorrupts [(true, ()), (true, ())] { normal := 0 }).1 = [⟨false, 1⟩, ⟨true, 2⟩] ∧
    ((oneFlow (fun _ => 0) fun n => n == 2).specs [(true, ()), (true, ())] { normal := 0 }).1 = [⟨false, 1⟩, ⟨false, 1⟩] := by
  have code : ((oneFlow (fun _ => 0) fun n => n == 2).doCorrupts [(true, ()), (true, ())] { normal := 0 }).1 =
      [⟨false, 1⟩, ⟨true, 2⟩] := by
    decide +kernel
  have wanted : ((oneFlow (fun _ => 0) fun n => n == 2).specs [(true, ()), (true, ())] { normal := 0 }).1 =
      [⟨false, 1⟩, ⟨false, 1⟩] := by
    decide +kernel
  refine ⟨fun refines => ?_, code, wanted⟩
  have same := refines.verdicts
  rw [code, wanted] at same
  cases same

end FlowErrorModel

end Ns3Fancy.ErrorModel
