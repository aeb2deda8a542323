import Mathlib.Algebra.BigOperators.Group.List.Basic
import Mathlib.Data.List.Induction
import Mathlib.Data.Rat.Floor
import Mathlib.Order.Bounds.Basic
import Mathlib.Logic.Function.Basic

/-!
# The statistics of the traffic schedulers

Four schedulers install flows one after the other and keep, prefix by prefix, when the first packet is sent. What they keep is
the start of the flow that was installed first.
-/

namespace Ns3Fancy.Traffic
open Function
set_option autoImplicit false

/-- A flow as it is installed. -/
structure Installed (K : Type) where
  prefix_ : K
  start : ℚ
  duration : ℚ
  packets : UInt32
  bytes : UInt64

/-- `TrafficPrefixStats`. A time is missing if it is never set. -/
structure TrafficPrefixStats where
  packets : UInt32
  bytes : UInt64
  flows : UInt32
  firstPacket : Option ℚ := none
  lastPacket : Option ℚ := none
  firstPacketAfterFailure : Option ℚ := none

/-- What the schedulers that read a file keep: two maps of times, and the statistics. -/
structure Records (K : Type) where
  firstPacket : K → Option ℚ := fun _ => none
  firstPacketAfterFailure : K → Option ℚ := fun _ => none
  stats : K → Option TrafficPrefixStats := fun _ => none

section
variable {K : Type} [DecidableEq K]

/-- `first_packet` of the synthetic schedulers after one more flow. -/
def recordFirst (first : K → Option ℚ) (flow : Installed K) : K → Option ℚ :=
  if (first flow.prefix_).isNone then update first flow.prefix_ (some flow.start) else first

/-- The counts of a prefix after one more flow, with the last packet if it is kept. -/
def count (keepsLast : Bool) (flow : Installed K) : Option TrafficPrefixStats → TrafficPrefixStats
  | none =>
    { packets := flow.packets, bytes := flow.bytes, flows := 1
      lastPacket := if keepsLast then some (flow.start + flow.duration) else none }
  | some stats =>
    { stats with
      packets := stats.packets + flow.packets
      bytes := stats.bytes + flow.bytes
      flows := stats.flows + 1
      lastPacket := if keepsLast then stats.lastPacket.map fun last => max last (flow.start + flow.duration)
        else stats.lastPacket }

/-- The records after one more flow. -/
def record (keepsLast : Bool) (failureTime : ℚ) (r : Records K) (flow : Installed K) : Records K :=
  let stats := count keepsLast flow (r.stats flow.prefix_)
  let first := (r.firstPacket flow.prefix_).isNone
  let after_ := decide (flow.start > failureTime) && (r.firstPacketAfterFailure flow.prefix_).isNone
  let stats := if first then { stats with firstPacket := some flow.start } else stats
  let stats := if after_ then { stats with firstPacketAfterFailure := some flow.start } else stats
  { firstPacket := if first then update r.firstPacket flow.prefix_ (some flow.start) else r.firstPacket
    firstPacketAfterFailure :=
      if after_ then update r.firstPacketAfterFailure flow.prefix_ (some flow.start) else r.firstPacketAfterFailure
    stats := update r.stats flow.prefix_ (some stats) }

end

/-! ## The schedulers -/

/-- The prefixes of the synthetic schedulers, from 192.0.1.1 on. -/
def syntheticPrefix (i : Nat) : UInt32 := 0xc0000101 + 256 * UInt32.ofNat i

/-- A flow of a synthetic scheduler; its size is not recorded. -/
def syntheticFlow (prefix_ : UInt32) (start : ℚ) : Installed UInt32 :=
  { prefix_ := prefix_, start := start, duration := 0, packets := 0, bytes := 0 }

/-- The flows of `StatefulSyntheticTrafficSchedulerOneShot`: some for each prefix, each with a value drawn for its start. -/
def oneShotFlows (prefixes totalFlows : Nat) (startTime : ℚ) (draws : Nat → ℚ) : List (Installed UInt32) :=
  (List.range prefixes).flatMap fun j => (List.range totalFlows).map fun f =>
    syntheticFlow (syntheticPrefix j) (startTime + draws (j * totalFlows + f))

/-- `first_packet` of `StatefulSyntheticTrafficSchedulerOneShot`. -/
def statefulSyntheticTrafficSchedulerOneShot (prefixes totalFlows : Nat) (startTime : ℚ) (draws : Nat → ℚ) :
    UInt32 → Option ℚ :=
  (oneShotFlows prefixes totalFlows startTime draws).foldl recordFirst fun _ => none

/-- The seconds of `StatefulSyntheticTrafficScheduler`, while the start minus 1 is before the end. -/
def seconds (startTime duration : ℚ) : List Nat :=
  (List.range (⌈duration + 1 - startTime⌉₊ + 1)).takeWhile fun k => startTime + k - 1 < duration

/-- The flows of `StatefulSyntheticTrafficScheduler`: in each second some for each prefix. -/
def secondFlows (prefixes flowsPerSec : Nat) (startTime duration : ℚ) (draws : Nat → ℚ) : List (Installed UInt32) :=
  (seconds startTime duration).flatMap fun k => (List.range prefixes).flatMap fun j => (List.range flowsPerSec).map fun f =>
    syntheticFlow (syntheticPrefix j) (startTime + k + draws ((k * prefixes + j) * flowsPerSec + f))

/-- `first_packet` of `StatefulSyntheticTrafficScheduler`. -/
def statefulSyntheticTrafficScheduler (prefixes flowsPerSec : Nat) (startTime duration : ℚ) (draws : Nat → ℚ) :
    UInt32 → Option ℚ :=
  (secondFlows prefixes flowsPerSec startTime duration draws).foldl recordFirst fun _ => none

section
variable {K : Type} [DecidableEq K]

/-- The flows of a file, with their starts from the start of the traffic on. -/
def fileFlows (startTime : ℚ) (flowDist : List (Installed K)) : List (Installed K) :=
  flowDist.map fun flow => { flow with start := startTime + flow.start }

/-- What `StatefulTraceTrafficScheduler` keeps. -/
def statefulTraceTrafficScheduler (startTime failureTime : ℚ) (flowDist : List (Installed K)) : Records K :=
  (fileFlows startTime flowDist).foldl (record false failureTime) {}

/-- What `HybridTrafficScheduler` keeps. -/
def hybridTrafficScheduler (startTime failureTime : ℚ) (flowDist : List (Installed K)) : Records K :=
  (fileFlows startTime flowDist).foldl (record true failureTime) {}

/-- The flows of a prefix. -/
def flowsOf (key : K) (flows : List (Installed K)) : List (Installed K) := flows.filter fun flow => flow.prefix_ = key

/-- Those that start after the failure. -/
def afterFailure (failureTime : ℚ) (flows : List (Installed K)) : List (Installed K) :=
  flows.filter fun flow => flow.start > failureTime

/-- When the flow that was installed first starts. -/
def firstStart (flows : List (Installed K)) : Option ℚ := flows.head?.map Installed.start

/-- The last of the ends seen so far. -/
def latest (last : Option ℚ) (flow : Installed K) : Option ℚ :=
  some (match last with
    | none => flow.start + flow.duration
    | some last => max last (flow.start + flow.duration))

/-- The statistics of the flows of one prefix. -/
def summary (keepsLast : Bool) (failureTime : ℚ) (flows : List (Installed K)) : Option TrafficPrefixStats :=
  if flows = [] then none
  else some
    { packets := flows.foldl (fun n flow => n + flow.packets) 0
      bytes := flows.foldl (fun n flow => n + flow.bytes) 0
      flows := flows.foldl (fun n _ => n + 1) 0
      firstPacket := firstStart flows
      lastPacket := if keepsLast then flows.foldl latest none else none
      firstPacketAfterFailure := firstStart (afterFailure failureTime flows) }

/-! ## What is kept -/

theorem flowsOf_concat (key : K) (flows : List (Installed K)) (flow : Installed K) :
    flowsOf key (flows ++ [flow]) = if flow.prefix_ = key then flowsOf key flows ++ [flow] else flowsOf key flows := by
  by_cases same : flow.prefix_ = key <;> simp [flowsOf, same]

omit [DecidableEq K] in
theorem firstStart_concat (flows : List (Installed K)) (flow : Installed K) :
    firstStart (flows ++ [flow]) = if (firstStart flows).isNone then some flow.start else firstStart flows := by
  cases flows <;> rfl

omit [DecidableEq K] in
theorem afterFailure_concat (failureTime : ℚ) (flows : List (Installed K)) (flow : Installed K) :
    afterFailure failureTime (flows ++ [flow]) =
      if flow.start > failureTime then afterFailure failureTime flows ++ [flow] else afterFailure failureTime flows := by
  by_cases late : flow.start > failureTime <;> simp [afterFailure, late]

theorem afterFailure_flowsOf (failureTime : ℚ) (key : K) (flows : List (Installed K)) :
    afterFailure failureTime (flowsOf key flows) = flowsOf key (afterFailure failureTime flows) :=
  List.filter_comm _ _ flows

/-- What is recorded for the first flow of a prefix stays. -/
theorem recordFirst_start {first : K → Option ℚ} {flows : List (Installed K)}
    (known : ∀ key, first key = firstStart (flowsOf key flows)) (flow : Installed K) (key : K) :
    recordFirst first flow key = firstStart (flowsOf key (flows ++ [flow])) := by
  rw [recordFirst, flowsOf_concat, known]
  by_cases same : flow.prefix_ = key
  · subst same
    rw [if_pos rfl, firstStart_concat]
    split
    · exact update_self _ _ _
    · exact known _
  · rw [if_neg same]
    split
    · exact (update_of_ne (Ne.symm same) _ _).trans (known key)
    · exact known key

omit [DecidableEq K] in
/-- Once there is a flow there is a last end. -/
theorem foldl_latest (flows : List (Installed K)) (last : ℚ) : ∃ last', flows.foldl latest (some last) = some last' := by
  induction flows generalizing last with
  | nil => exact ⟨last, rfl⟩
  | cons flow flows ih => exact ih _

omit [DecidableEq K] in
/-- The statistics of a prefix with one more flow. -/
theorem summary_concat (keepsLast : Bool) (failureTime : ℚ) (flows : List (Installed K)) (flow : Installed K) :
    summary keepsLast failureTime (flows ++ [flow]) =
      some { count keepsLast flow (summary keepsLast failureTime flows) with
        firstPacket := firstStart (flows ++ [flow])
        firstPacketAfterFailure := firstStart (afterFailure failureTime (flows ++ [flow])) } := by
  have written : flows ++ [flow] ≠ [] := by simp
  rw [summary, if_neg written, List.foldl_concat, List.foldl_concat, List.foldl_concat, List.foldl_concat]
  cases flows with
  | nil =>
    rw [summary, if_pos rfl]
    simp [count, latest]
  | cons first flows =>
    rw [summary, if_neg (List.cons_ne_nil first flows)]
    have more : ∃ last, (first :: flows).foldl latest none = some last := foldl_latest flows _
    obtain ⟨last, last_eq⟩ := more
    rw [last_eq]
    cases keepsLast <;> rfl

omit [DecidableEq K] in
theorem count_summary (keepsLast : Bool) (failureTime : ℚ) (flows : List (Installed K)) (flow : Installed K) :
    (count keepsLast flow (summary keepsLast failureTime flows)).firstPacket = firstStart flows ∧
      (count keepsLast flow (summary keepsLast failureTime flows)).firstPacketAfterFailure =
        firstStart (afterFailure failureTime flows) := by
  unfold summary
  split
  · rename_i none
    subst none
    exact ⟨rfl, rfl⟩
  · exact ⟨rfl, rfl⟩

/-- The records say what the flows of each prefix say. -/
structure Kept (keepsLast : Bool) (failureTime : ℚ) (flows : List (Installed K)) (r : Records K) : Prop where
  firstPacket : ∀ key, r.firstPacket key = firstStart (flowsOf key flows)
  firstPacketAfterFailure : ∀ key, r.firstPacketAfterFailure key = firstStart (afterFailure failureTime (flowsOf key flows))
  stats : ∀ key, r.stats key = summary keepsLast failureTime (flowsOf key flows)

theorem Kept.record {keepsLast : Bool} {failureTime : ℚ} {flows : List (Installed K)} {r : Records K}
    (kept : Kept keepsLast failureTime flows r) (flow : Installed K) :
    Kept keepsLast failureTime (flows ++ [flow]) (record keepsLast failureTime r flow) where
  firstPacket key := recordFirst_start kept.firstPacket flow key
  firstPacketAfterFailure key := by
    have known : ∀ key, r.firstPacketAfterFailure key = firstStart (flowsOf key (afterFailure failureTime flows)) := by
      intro key
      rw [kept.firstPacketAfterFailure, afterFailure_flowsOf]
    rw [afterFailure_flowsOf, afterFailure_concat]
    unfold Traffic.record
    dsimp only
    by_cases late : flow.start > failureTime
    · rw [decide_eq_true late, Bool.true_and, if_pos late]
      exact recordFirst_start known flow key
    · rw [decide_eq_false late, Bool.false_and, if_neg late]
      exact known key
  stats key := by
    unfold Traffic.record
    dsimp only
    rw [flowsOf_concat]
    by_cases same : flow.prefix_ = key
    · subst same
      rw [if_pos rfl, update_self, summary_concat, kept.firstPacket, kept.firstPacketAfterFailure, kept.stats]
      obtain ⟨first, after_⟩ := count_summary keepsLast failureTime (flowsOf flow.prefix_ flows) flow
      generalize count keepsLast flow (summary keepsLast failureTime (flowsOf flow.prefix_ flows)) = stats at first after_
      rw [firstStart_concat, afterFailure_concat, ← first, ← after_]
      by_cases late : flow.start > failureTime
      · rw [decide_eq_true late, Bool.true_and, if_pos late, firstStart_concat, ← after_]
        clear first after_
        cases stats with
        | mk packets bytes count firstPacket lastPacket afterPacket => cases firstPacket <;> cases afterPacket <;> rfl
      · rw [decide_eq_false late, Bool.false_and, if_neg late, ← after_]
        clear first after_
        cases stats with
        | mk packets bytes count firstPacket lastPacket afterPacket => cases firstPacket <;> rfl
    · rw [if_neg same, update_of_ne (Ne.symm same)]
      exact kept.stats key

/-- **The records after any flows.** -/
theorem kept_foldl (keepsLast : Bool) (failureTime : ℚ) (flows : List (Installed K)) :
    Kept keepsLast failureTime flows (flows.foldl (Traffic.record keepsLast failureTime) {}) := by
  induction flows using List.reverseRecOn with
  | nil => exact ⟨fun _ => rfl, fun _ => rfl, fun _ => rfl⟩
  | append_singleton flows flow ih =>
    rw [List.foldl_concat]
    exact ih.record flow

theorem first_foldl (flows : List (Installed K)) (key : K) :
    flows.foldl recordFirst (fun _ => none) key = firstStart (flowsOf key flows) := by
  induction flows using List.reverseRecOn generalizing key with
  | nil => rfl
  | append_singleton flows flow ih =>
    rw [List.foldl_concat]
    exact recordFirst_start ih flow key

end

/-! ## What should be kept -/

section
variable {K : Type}

/-- The start times of flows. -/
def starts (flows : List (Installed K)) : Set ℚ := {t | ∃ flow ∈ flows, flow.start = t}

/-- The times at which flows end. -/
def ends (flows : List (Installed K)) : Set ℚ := {t | ∃ flow ∈ flows, flow.start + flow.duration = t}

/-- A recorded time is the first of the starts, and is recorded if there is one. -/
def IsFirst (flows : List (Installed K)) (recorded : Option ℚ) : Prop := ∀ t, recorded = some t ↔ IsLeast (starts flows) t

/-- No flow starts before the one that was installed first. -/
def FirstInstalled (flows : List (Installed K)) : Prop :=
  ∀ first, flows.head? = some first → ∀ flow ∈ flows, first.start ≤ flow.start

/-- The statistics of the flows of one prefix, as they should be. -/
structure Right (keepsLast : Bool) (failureTime : ℚ) (flows : List (Installed K)) (stats : Option TrafficPrefixStats) :
    Prop where
  kept : stats.isSome ↔ flows ≠ []
  firstPacket : IsFirst flows (stats.bind TrafficPrefixStats.firstPacket)
  firstPacketAfterFailure :
    IsFirst (afterFailure failureTime flows) (stats.bind TrafficPrefixStats.firstPacketAfterFailure)
  lastPacket : keepsLast = true → ∀ t, stats.bind TrafficPrefixStats.lastPacket = some t ↔ IsGreatest (ends flows) t
  packets : ∀ s, stats = some s → s.packets.toNat = (flows.map fun flow => flow.packets.toNat).sum
  bytes : ∀ s, stats = some s → s.bytes.toNat = (flows.map fun flow => flow.bytes.toNat).sum
  flows : ∀ s, stats = some s → s.flows.toNat = flows.length

/-- The sums fit in the fields that hold them. -/
structure Fits (flows : List (Installed K)) : Prop where
  packets : (flows.map fun flow => flow.packets.toNat).sum < 2 ^ 32
  bytes : (flows.map fun flow => flow.bytes.toNat).sum < 2 ^ 64
  flows : flows.length < 2 ^ 32

theorem isFirst_iff (flows : List (Installed K)) : IsFirst flows (firstStart flows) ↔ FirstInstalled flows := by
  cases flows with
  | nil =>
    refine iff_of_true (fun t => iff_of_false (fun recorded => by cases recorded) ?_) (fun first here => by cases here)
    rintro ⟨⟨flow, mem, -⟩, -⟩
    cases mem
  | cons first flows =>
    have here : first.start ∈ starts (first :: flows) := ⟨first, List.mem_cons_self, rfl⟩
    constructor
    · intro least first' same flow mem
      obtain rfl := Option.some.inj same
      exact ((least first.start).1 rfl).2 ⟨flow, mem, rfl⟩
    · intro installed t
      have least : IsLeast (starts (first :: flows)) first.start := by
        refine ⟨here, ?_⟩
        rintro t ⟨flow, mem, rfl⟩
        exact installed first rfl flow mem
      constructor
      · intro same
        obtain rfl := Option.some.inj same
        exact least
      · intro other
        exact congrArg some (least.unique other)

/-- The last end is the greatest one. -/
theorem latest_isGreatest (flows : List (Installed K)) (some_ : flows ≠ []) :
    ∃ last, flows.foldl latest none = some last ∧ IsGreatest (ends flows) last := by
  induction flows using List.reverseRecOn with
  | nil => exact absurd rfl some_
  | append_singleton flows flow ih =>
    have more : ends (flows ++ [flow]) = insert (flow.start + flow.duration) (ends flows) := by
      ext t
      simp [ends, eq_comm, or_comm]
    rw [List.foldl_concat, more]
    by_cases none : flows = []
    · subst none
      refine ⟨flow.start + flow.duration, rfl, Set.mem_insert _ _, ?_⟩
      rintro t (rfl | ⟨other, mem, -⟩)
      · exact le_rfl
      · cases mem
    · obtain ⟨last, last_eq, isGreatest⟩ := ih none
      rw [last_eq]
      refine ⟨max last (flow.start + flow.duration), rfl, ?_⟩
      rw [max_comm]
      exact isGreatest.insert _

theorem latest_iff (flows : List (Installed K)) (t : ℚ) :
    flows.foldl latest none = some t ↔ IsGreatest (ends flows) t := by
  by_cases none : flows = []
  · subst none
    refine iff_of_false (fun recorded => by cases recorded) ?_
    rintro ⟨⟨flow, mem, -⟩, -⟩
    cases mem
  · obtain ⟨last, last_eq, isGreatest⟩ := latest_isGreatest flows none
    rw [last_eq]
    constructor
    · intro same
      obtain rfl := Option.some.inj same
      exact isGreatest
    · intro other
      exact congrArg some (isGreatest.unique other)

theorem foldl_add32 (size : Installed K → UInt32) (flows : List (Installed K)) (n : UInt32) :
    (flows.foldl (fun n flow => n + size flow) n).toNat =
      (n.toNat + (flows.map fun flow => (size flow).toNat).sum) % 2 ^ 32 := by
  induction flows generalizing n with
  | nil =>
    have small := n.toNat_lt
    simp only [List.foldl_nil, List.map_nil, List.sum_nil]
    omega
  | cons flow flows ih =>
    rw [List.foldl_cons, ih, UInt32.toNat_add, List.map_cons, List.sum_cons]
    omega

theorem foldl_add64 (size : Installed K → UInt64) (flows : List (Installed K)) (n : UInt64) :
    (flows.foldl (fun n flow => n + size flow) n).toNat =
      (n.toNat + (flows.map fun flow => (size flow).toNat).sum) % 2 ^ 64 := by
  induction flows generalizing n with
  | nil =>
    have small := n.toNat_lt
    simp only [List.foldl_nil, List.map_nil, List.sum_nil]
    omega
  | cons flow flows ih =>
    rw [List.foldl_cons, ih, UInt64.toNat_add, List.map_cons, List.sum_cons]
    omega

/-- The three counts are the sums exactly if these fit. -/
theorem fits_iff (flows : List (Installed K)) :
    Fits flows ↔
      (flows.foldl (fun n flow => n + flow.packets) (0 : UInt32)).toNat = (flows.map fun flow => flow.packets.toNat).sum ∧
        (flows.foldl (fun n flow => n + flow.bytes) (0 : UInt64)).toNat = (flows.map fun flow => flow.bytes.toNat).sum ∧
        (flows.foldl (fun n _ => n + 1) (0 : UInt32)).toNat = flows.length := by
  have zero : (0 : UInt32).toNat = 0 := rfl
  have zero' : (0 : UInt64).toNat = 0 := rfl
  have ones : (flows.map fun _ => (1 : UInt32).toNat).sum = flows.length := by
    rw [List.map_const', List.sum_replicate]
    exact Nat.mul_one _
  rw [foldl_add32 Installed.packets, foldl_add64 Installed.bytes, foldl_add32 (fun _ => 1), ones, zero, zero', Nat.zero_add,
    Nat.zero_add, Nat.zero_add, Nat.mod_eq_iff_lt (by decide), Nat.mod_eq_iff_lt (by decide), Nat.mod_eq_iff_lt (by decide)]
  constructor
  · intro fits
    exact ⟨fits.packets, fits.bytes, fits.flows⟩
  · rintro ⟨packets, bytes, count⟩
    exact ⟨packets, bytes, count⟩

/-- **The statistics of one prefix** are right exactly if no flow starts before the one installed first, no flow that starts
after the failure starts before the first of those, and the sums fit. -/
theorem right_iff (keepsLast : Bool) (failureTime : ℚ) (flows : List (Installed K)) :
    Right keepsLast failureTime flows (summary keepsLast failureTime flows) ↔
      FirstInstalled flows ∧ FirstInstalled (afterFailure failureTime flows) ∧ Fits flows := by
  rw [← isFirst_iff, ← isFirst_iff]
  by_cases none : flows = []
  · subst none
    have empty : IsFirst ([] : List (Installed K)) none := (isFirst_iff []).2 nofun
    refine iff_of_true ⟨by simp [summary], empty, empty, fun _ t => ?_, nofun, nofun, nofun⟩
      ⟨empty, empty, Nat.two_pow_pos 32, Nat.two_pow_pos 64, Nat.two_pow_pos 32⟩
    exact latest_iff [] t
  · have written : summary keepsLast failureTime flows = some
        { packets := flows.foldl (fun n flow => n + flow.packets) 0
          bytes := flows.foldl (fun n flow => n + flow.bytes) 0
          flows := flows.foldl (fun n _ => n + 1) 0
          firstPacket := firstStart flows
          lastPacket := if keepsLast then flows.foldl latest Option.none else Option.none
          firstPacketAfterFailure := firstStart (afterFailure failureTime flows) } := if_neg none
    rw [written]
    constructor
    · intro right
      refine ⟨right.firstPacket, right.firstPacketAfterFailure, (fits_iff flows).2 ⟨?_, ?_, ?_⟩⟩
      · exact right.packets _ rfl
      · exact right.bytes _ rfl
      · exact right.flows _ rfl
    · rintro ⟨first, after_, fits⟩
      obtain ⟨packets, bytes, count⟩ := (fits_iff flows).1 fits
      refine ⟨by simpa using none, first, after_, fun keeps t => ?_, ?_, ?_, ?_⟩
      · rw [keeps]
        exact latest_iff flows t
      · rintro s same
        obtain rfl := Option.some.inj same
        exact packets
      · rintro s same
        obtain rfl := Option.some.inj same
        exact bytes
      · rintro s same
        obtain rfl := Option.some.inj same
        exact count

variable [DecidableEq K]

/-- The records as they should be, for every prefix. -/
def RightRecords (keepsLast : Bool) (failureTime : ℚ) (flows : List (Installed K)) (r : Records K) : Prop :=
  ∀ key, IsFirst (flowsOf key flows) (r.firstPacket key) ∧
    IsFirst (afterFailure failureTime (flowsOf key flows)) (r.firstPacketAfterFailure key) ∧
    Right keepsLast failureTime (flowsOf key flows) (r.stats key)

/-- For every prefix, no flow starts before the one installed first, neither of all nor of those after the failure, and the
sums fit. -/
def Ordered (failureTime : ℚ) (flows : List (Installed K)) : Prop :=
  ∀ key, FirstInstalled (flowsOf key flows) ∧ FirstInstalled (afterFailure failureTime (flowsOf key flows)) ∧
    Fits (flowsOf key flows)

theorem rightRecords_iff (keepsLast : Bool) (failureTime : ℚ) (flows : List (Installed K)) :
    RightRecords keepsLast failureTime flows (flows.foldl (record keepsLast failureTime) {}) ↔ Ordered failureTime flows := by
  have kept := kept_foldl keepsLast failureTime flows
  unfold RightRecords Ordered
  refine forall_congr' fun key => ?_
  rw [kept.firstPacket, kept.firstPacketAfterFailure, kept.stats, isFirst_iff, isFirst_iff, right_iff]
  constructor
  · rintro ⟨-, -, right⟩
    exact right
  · rintro ⟨first, after_, fits⟩
    exact ⟨first, after_, first, after_, fits⟩

theorem firsts_iff (flows : List (Installed K)) :
    (∀ key, IsFirst (flowsOf key flows) (flows.foldl recordFirst (fun _ => none) key)) ↔
      ∀ key, FirstInstalled (flowsOf key flows) := by
  refine forall_congr' fun key => ?_
  rw [first_foldl, isFirst_iff]

end

/-- **The statistics of the four schedulers**: exactly the flows for which they are right. -/
theorem statistics_iff {K : Type} [DecidableEq K] (prefixes totalFlows flowsPerSec : Nat) (startTime duration failureTime : ℚ)
    (draws : Nat → ℚ) (flowDist : List (Installed K)) :
    ((∀ key, IsFirst (flowsOf key (oneShotFlows prefixes totalFlows startTime draws))
        (statefulSyntheticTrafficSchedulerOneShot prefixes totalFlows startTime draws key)) ↔
      ∀ key, FirstInstalled (flowsOf key (oneShotFlows prefixes totalFlows startTime draws))) ∧
    ((∀ key, IsFirst (flowsOf key (secondFlows prefixes flowsPerSec startTime duration draws))
        (statefulSyntheticTrafficScheduler prefixes flowsPerSec startTime duration draws key)) ↔
      ∀ key, FirstInstalled (flowsOf key (secondFlows prefixes flowsPerSec startTime duration draws))) ∧
    (RightRecords false failureTime (fileFlows startTime flowDist)
        (statefulTraceTrafficScheduler startTime failureTime flowDist) ↔
      Ordered failureTime (fileFlows startTime flowDist)) ∧
    (RightRecords true failureTime (fileFlows startTime flowDist)
        (hybridTrafficScheduler startTime failureTime flowDist) ↔
      Ordered failureTime (fileFlows startTime flowDist)) :=
  ⟨firsts_iff _, firsts_iff _, rightRecords_iff _ _ _, rightRecords_iff _ _ _⟩

/-- Two flows of one prefix, the later one listed first. -/
def outOfOrder : List (Installed Unit) :=
  [{ prefix_ := (), start := 2, duration := 1, packets := 1, bytes := 1 },
    { prefix_ := (), start := 1, duration := 1, packets := 1, bytes := 1 }]

/-- The flow listed first, or drawn first, is recorded and not the first one. -/
theorem not_first :
    (hybridTrafficScheduler 0 0 outOfOrder).firstPacket () = some 2 ∧
      ¬RightRecords true 0 (fileFlows 0 outOfOrder) (hybridTrafficScheduler 0 0 outOfOrder) ∧
      statefulSyntheticTrafficSchedulerOneShot 1 2 0 (fun k => 1 - k) (syntheticPrefix 0) = some 1 ∧
      ¬IsFirst (flowsOf (syntheticPrefix 0) (oneShotFlows 1 2 0 fun k => 1 - k))
        (statefulSyntheticTrafficSchedulerOneShot 1 2 0 (fun k => 1 - k) (syntheticPrefix 0)) := by
  have hybrid : (hybridTrafficScheduler 0 0 outOfOrder).firstPacket () = some 2 := by decide +kernel
  have oneShot : statefulSyntheticTrafficSchedulerOneShot 1 2 0 (fun k => 1 - k) (syntheticPrefix 0) = some 1 := by
    decide +kernel
  refine ⟨hybrid, fun right => ?_, oneShot, fun right => ?_⟩
  · have least := ((right ()).1 2).1 hybrid
    have other : (1 : ℚ) ∈ starts (flowsOf () (fileFlows 0 outOfOrder)) :=
      ⟨{ prefix_ := (), start := 1, duration := 1, packets := 1, bytes := 1 }, by simp [flowsOf, fileFlows, outOfOrder], rfl⟩
    exact absurd (least.2 other) (by decide)
  · have least := (right 1).1 oneShot
    have other : (0 : ℚ) ∈ starts (flowsOf (syntheticPrefix 0) (oneShotFlows 1 2 0 fun k => 1 - k)) :=
      ⟨syntheticFlow (syntheticPrefix 0) 0, by simp [flowsOf, oneShotFlows, syntheticFlow, List.range_succ], rfl⟩
    exact absurd (least.2 other) (by decide)

end Ns3Fancy.Traffic
