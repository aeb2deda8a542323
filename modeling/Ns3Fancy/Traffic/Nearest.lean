import Ns3Fancy.Search.LowerBound
import Mathlib.Algebra.Order.Field.Rat
import Mathlib.Logic.Function.Basic
import Mathlib.Tactic.Ring

/-!
# The sender of a flow

`main` makes senders for each round-trip time of a list and files them under it. Where the link between the switches has a
delay, the times are shortened by what it adds, in the list itself while the loop runs over it. A flow is sent by a sender
whose time is closest to the flow's, shortened by as much.
-/

namespace Ns3Fancy.Traffic
open Function Search
set_option autoImplicit false

/-! ## FindClosest -/

/-- `FindClosest`; an empty vector has no first element. -/
def findClosest (vect : List ℚ) (value : ℚ) : Option ℚ :=
  let it := lowerBound vect value
  if it = 0 then vect[0]?
  else if it = vect.length then vect.getLast?
  else
    vect[it - 1]?.bind fun before => vect[it]?.map fun here =>
      if |value - before| ≤ |value - here| then before else here

/-- **The closest element is found** in every ascending list. -/
theorem findClosest_closest {vect : List ℚ} (nonempty : vect ≠ []) (ascending : vect.Pairwise (· ≤ ·)) (value : ℚ) :
    ∃ found, findClosest vect value = some found ∧ Closest vect value found := by
  have splits := lowerBound_splits ascending value
  have length : 0 < vect.length := List.length_pos_iff.2 nonempty
  simp only [findClosest]
  split
  · -- no element is below the value
    rename_i start
    rw [start] at splits
    have first : vect[0]? = some vect[0] := List.getElem?_eq_getElem length
    refine ⟨vect[0], first, .first (List.getElem_mem length) ?_ (splits.after 0 _ le_rfl first)⟩
    intro x mem
    obtain ⟨j, here⟩ := List.getElem?_of_mem mem
    exact le_of_places ascending (Nat.zero_le j) first here
  · split
    · -- every element is below the value
      rename_i ended
      rw [ended] at splits
      have last : vect[vect.length - 1]? = some (vect.getLast nonempty) := by
        rw [← List.getLast?_eq_getElem?, List.getLast?_eq_some_getLast nonempty]
      refine ⟨vect.getLast nonempty, List.getLast?_eq_some_getLast nonempty, .last (List.getLast_mem nonempty) ?_
        (splits.before _ _ (by omega) last).le⟩
      intro x mem
      obtain ⟨j, here⟩ := List.getElem?_of_mem mem
      have place := (List.getElem?_eq_some_iff.1 here).1
      exact le_of_places ascending (by omega) here last
    · -- the value is between two neighbours
      rename_i notStart notEnd
      have inside := splits.inside
      have place : lowerBound vect value < vect.length := by omega
      have place' : lowerBound vect value - 1 < vect.length := by omega
      have above : vect[lowerBound vect value]? = some vect[lowerBound vect value] := List.getElem?_eq_getElem place
      have below : vect[lowerBound vect value - 1]? = some vect[lowerBound vect value - 1] :=
        List.getElem?_eq_getElem place'
      have lower := (splits.before _ _ (by omega) below).le
      have upper := splits.after _ _ le_rfl above
      have sides : ∀ z ∈ vect, z ≤ vect[lowerBound vect value - 1] ∨ vect[lowerBound vect value] ≤ z := by
        intro z mem
        obtain ⟨j, here⟩ := List.getElem?_of_mem mem
        rcases Nat.lt_or_ge j (lowerBound vect value) with left | right
        · exact Or.inl (le_of_places ascending (by omega) here below)
        · exact Or.inr (le_of_places ascending right above here)
      simp only [below, above, Option.bind_some, Option.map_some, Option.some.injEq, exists_eq_left']
      split
      · rename_i closer
        exact .lower (List.getElem_mem place') sides lower upper closer
      · rename_i closer
        exact .upper (List.getElem_mem place) sides lower upper (not_le.1 closer)

/-! ## The senders -/

/-- The sender `h_<rttIndex>_<rttNodeIndex>` and the delay of its link. -/
structure Sender where
  rttIndex : Nat
  rttNodeIndex : Nat
  interfaceDelay : ℚ
  deriving DecidableEq

/-- What the loop works on. -/
structure Allocation where
  experimentRtts : List ℚ
  sendersLatencyToNode : ℚ → Option (List Sender) := fun _ => none

/-- A sender is saved under its round-trip time. -/
def saveSender (roundTripDelay : ℚ) (nodes : ℚ → Option (List Sender)) (sender : Sender) : ℚ → Option (List Sender) :=
  match nodes roundTripDelay with
  | some saved => update nodes roundTripDelay (some (saved ++ [sender]))
  | none => update nodes roundTripDelay (some [sender])

section
variable (switchToSwitchDelay numSendersPerRtt : UInt32)

/-- What the link between the switches adds to a round trip, in seconds. -/
def rttShift : ℚ := (switchToSwitchDelay.toNat : ℚ) / 1000000 * 2

/-- One round of the loop over the times. -/
def allocateSenders (a : Allocation) (rttIndex : Nat) : Option Allocation :=
  (a.experimentRtts[rttIndex]?).map fun rtt =>
    let roundTripDelay := if 0 < switchToSwitchDelay then max (rtt - 2 * ((switchToSwitchDelay.toNat : ℚ) / 1000000)) 0 else rtt
    { experimentRtts :=
        if 0 < switchToSwitchDelay then a.experimentRtts.set rttIndex roundTripDelay else a.experimentRtts
      sendersLatencyToNode := ((List.range numSendersPerRtt.toNat).map fun rttNodeIndex =>
        { rttIndex := rttIndex, rttNodeIndex := rttNodeIndex, interfaceDelay := roundTripDelay / 2 }).foldl
          (saveSender roundTripDelay) a.sendersLatencyToNode }

/-- The loop: the number of rounds is that of the times, which no round changes. -/
def allocate (experimentRtts : List ℚ) : Option Allocation :=
  (List.range experimentRtts.length).foldlM (allocateSenders switchToSwitchDelay numSendersPerRtt)
    { experimentRtts := experimentRtts }

end

/-- The time of the senders that `HybridTrafficScheduler` finds for a flow, and the senders; without any, the assertion that
there are source hosts fails. -/
def sourcesOf (sendersLatencyToNode : ℚ → Option (List Sender)) (rttCdf : List ℚ) (rttOffset flowRtt : ℚ) :
    Option (ℚ × List Sender) :=
  let correctedFlowRtt := max (flowRtt - rttOffset) 0
  (findClosest rttCdf correctedFlowRtt).bind fun rtt =>
    let sources := (sendersLatencyToNode rtt).getD []
    if 1 ≤ sources.length then some (rtt, sources) else none

/-- The call of the scheduler in `main`, for one flow. -/
def hybridSources (switchToSwitchDelay numSendersPerRtt : UInt32) (experimentRtts : List ℚ) (flowRtt : ℚ) :
    Option (ℚ × List Sender) :=
  (allocate switchToSwitchDelay numSendersPerRtt experimentRtts).bind fun a =>
    sourcesOf a.sendersLatencyToNode a.experimentRtts (rttShift switchToSwitchDelay) flowRtt

/-! ## What is saved -/

section
variable {nodes : ℚ → Option (List Sender)} {roundTripDelay : ℚ}

theorem saveSender_apply (nodes : ℚ → Option (List Sender)) (sender : Sender) (rtt : ℚ) :
    ((saveSender roundTripDelay nodes sender) rtt).getD [] =
      (nodes rtt).getD [] ++ if rtt = roundTripDelay then [sender] else [] := by
  unfold saveSender
  by_cases same : rtt = roundTripDelay
  · subst same
    cases nodes rtt <;> simp
  · cases nodes roundTripDelay <;> simp [same]

/-- Senders of one time, one after the other. -/
theorem foldl_saveSender (senders : List Sender) (rtt : ℚ) :
    ((senders.foldl (saveSender roundTripDelay) nodes) rtt).getD [] =
      (nodes rtt).getD [] ++ if rtt = roundTripDelay then senders else [] := by
  induction senders generalizing nodes with
  | nil => simp
  | cons sender senders ih =>
    rw [List.foldl_cons, ih, saveSender_apply, List.append_assoc]
    split <;> simp

end

section
variable {switchToSwitchDelay numSendersPerRtt : UInt32} {rtts : List ℚ}

/-- A time without what the link between the switches adds. -/
def shifted (switchToSwitchDelay : UInt32) (rtt : ℚ) : ℚ :=
  if 0 < switchToSwitchDelay then max (rtt - rttShift switchToSwitchDelay) 0 else rtt

theorem shifted_mono (switchToSwitchDelay : UInt32) {x y : ℚ} (order : x ≤ y) :
    shifted switchToSwitchDelay x ≤ shifted switchToSwitchDelay y := by
  unfold shifted
  split
  · exact max_le_max_right 0 (sub_le_sub_right order _)
  · exact order

/-- After `k` rounds: the first `k` times are shifted, and each of them has its senders saved under it. -/
structure Allocated (switchToSwitchDelay numSendersPerRtt : UInt32) (rtts : List ℚ) (k : Nat) (a : Allocation) : Prop where
  experimentRtts : a.experimentRtts = (rtts.take k).map (shifted switchToSwitchDelay) ++ rtts.drop k
  count : ∀ rtt, ((a.sendersLatencyToNode rtt).getD []).length =
    ((rtts.take k).map (shifted switchToSwitchDelay)).count rtt * numSendersPerRtt.toNat
  delay : ∀ rtt, ∀ sender ∈ (a.sendersLatencyToNode rtt).getD [], 2 * sender.interfaceDelay = rtt

theorem Allocated.start : Allocated switchToSwitchDelay numSendersPerRtt rtts 0 { experimentRtts := rtts } where
  experimentRtts := by rw [List.take_zero, List.drop_zero, List.map_nil, List.nil_append]
  count _ := by rw [List.take_zero, List.map_nil, List.count_nil, Nat.zero_mul]; rfl
  delay _ _ mem := absurd mem List.not_mem_nil

/-- **One round.** -/
theorem Allocated.round {k : Nat} {a : Allocation} (h : Allocated switchToSwitchDelay numSendersPerRtt rtts k a)
    (inside : k < rtts.length) : ∃ a', allocateSenders switchToSwitchDelay numSendersPerRtt a k = some a' ∧
      Allocated switchToSwitchDelay numSendersPerRtt rtts (k + 1) a' := by
  have length : ((rtts.take k).map (shifted switchToSwitchDelay)).length = k := by
    rw [List.length_map, List.length_take, Nat.min_eq_left inside.le]
  have rest : rtts.drop k = rtts[k] :: rtts.drop (k + 1) := List.drop_eq_getElem_cons inside
  have here : a.experimentRtts[k]? = some rtts[k] := by
    rw [h.experimentRtts, List.getElem?_append_right length.le, length, Nat.sub_self, rest, List.getElem?_cons_zero]
  have next : (rtts.take (k + 1)).map (shifted switchToSwitchDelay) =
      (rtts.take k).map (shifted switchToSwitchDelay) ++ [shifted switchToSwitchDelay rtts[k]] := by
    rw [List.take_succ_eq_append_getElem inside, List.map_append, List.map_singleton]
  have time : (if 0 < switchToSwitchDelay then
      max (rtts[k] - 2 * ((switchToSwitchDelay.toNat : ℚ) / 1000000)) 0 else rtts[k]) =
        shifted switchToSwitchDelay rtts[k] := by
    rw [shifted, rttShift, mul_comm 2]
  refine ⟨_, by rw [allocateSenders, here, Option.map_some, time], ?_, ?_, ?_⟩
  · rw [next, List.append_assoc, List.singleton_append]
    have set : a.experimentRtts.set k (shifted switchToSwitchDelay rtts[k]) =
        (rtts.take k).map (shifted switchToSwitchDelay) ++ shifted switchToSwitchDelay rtts[k] :: rtts.drop (k + 1) := by
      rw [h.experimentRtts, List.set_append_right _ _ length.le, length, Nat.sub_self, rest, List.set_cons_zero]
    split
    · exact set
    · rename_i noDelay
      rw [h.experimentRtts, rest, shifted, if_neg noDelay]
  · intro rtt
    rw [foldl_saveSender, List.length_append, h.count, next, List.count_append, Nat.add_mul]
    congr 1
    split
    · rename_i same
      rw [same, List.count_singleton_self, Nat.one_mul, List.length_map, List.length_range]
    · rename_i other
      rw [List.count_eq_zero.2 (by simpa using other), Nat.zero_mul]
      rfl
  · intro rtt sender mem
    rw [foldl_saveSender] at mem
    rcases List.mem_append.1 mem with old | new
    · exact h.delay rtt sender old
    · split at new
      · rename_i same
        obtain ⟨j, -, rfl⟩ := List.mem_map.1 new
        rw [same, mul_div_cancel₀ _ two_ne_zero]
      · cases new

/-- **The loop ends**, and every time is shifted and has its senders. -/
theorem allocate_allocated (switchToSwitchDelay numSendersPerRtt : UInt32) (rtts : List ℚ) :
    ∃ a, allocate switchToSwitchDelay numSendersPerRtt rtts = some a ∧
      Allocated switchToSwitchDelay numSendersPerRtt rtts rtts.length a := by
  have rounds : ∀ k ≤ rtts.length, ∃ a, (List.range k).foldlM (allocateSenders switchToSwitchDelay numSendersPerRtt)
      { experimentRtts := rtts } = some a ∧ Allocated switchToSwitchDelay numSendersPerRtt rtts k a := by
    intro k
    induction k with
    | zero => exact fun _ => ⟨_, rfl, .start⟩
    | succ k ih =>
      intro inside
      obtain ⟨a, run, allocated⟩ := ih (Nat.le_of_lt inside)
      obtain ⟨a', next, allocated'⟩ := allocated.round inside
      refine ⟨a', ?_, allocated'⟩
      rw [List.range_succ, List.foldlM_append, run]
      simpa using next
  exact rounds rtts.length le_rfl

end

/-- **Every flow finds its senders.** For every ascending list of times that is not empty, every delay between the switches
and every flow: the loop leaves an ascending list, the time that is found for the flow's shortened time is the smallest of
the closest ones in it, and there are senders with links of this time, as many as there are for each time in the first list
that became it. -/
theorem nearest_sender (switchToSwitchDelay numSendersPerRtt : UInt32) (flowRtt : ℚ) {experimentRtts : List ℚ}
    (nonempty : experimentRtts ≠ []) (ascending : experimentRtts.Pairwise (· ≤ ·)) (senders : 0 < numSendersPerRtt) :
    ∃ a, allocate switchToSwitchDelay numSendersPerRtt experimentRtts = some a ∧
      a.experimentRtts = experimentRtts.map (shifted switchToSwitchDelay) ∧ a.experimentRtts.Pairwise (· ≤ ·) ∧
      ∃ rtt sources, hybridSources switchToSwitchDelay numSendersPerRtt experimentRtts flowRtt = some (rtt, sources) ∧
        findClosest a.experimentRtts (max (flowRtt - rttShift switchToSwitchDelay) 0) = some rtt ∧
        Closest a.experimentRtts (max (flowRtt - rttShift switchToSwitchDelay) 0) rtt ∧
        a.sendersLatencyToNode rtt = some sources ∧ sources ≠ [] ∧
        sources.length = a.experimentRtts.count rtt * numSendersPerRtt.toNat ∧
        ∀ sender ∈ sources, 2 * sender.interfaceDelay = rtt := by
  obtain ⟨a, run, allocated⟩ := allocate_allocated switchToSwitchDelay numSendersPerRtt experimentRtts
  have times : a.experimentRtts = experimentRtts.map (shifted switchToSwitchDelay) := by
    rw [allocated.experimentRtts, List.take_length, List.drop_length, List.append_nil]
  have still : a.experimentRtts.Pairwise (· ≤ ·) := by
    rw [times, List.pairwise_map]
    exact ascending.imp fun order => shifted_mono switchToSwitchDelay order
  have someTime : a.experimentRtts ≠ [] := by
    rw [times]
    exact fun empty => nonempty (List.map_eq_nil_iff.1 empty)
  obtain ⟨rtt, found, closest⟩ := findClosest_closest someTime still (max (flowRtt - rttShift switchToSwitchDelay) 0)
  have length : ((a.sendersLatencyToNode rtt).getD []).length = a.experimentRtts.count rtt * numSendersPerRtt.toNat := by
    rw [allocated.count, times, List.take_length]
  have positive : 0 < ((a.sendersLatencyToNode rtt).getD []).length := by
    rw [length]
    exact Nat.mul_pos (List.count_pos_iff.2 closest.mem) (UInt32.lt_iff_toNat_lt.1 senders)
  cases saved : a.sendersLatencyToNode rtt with
  | none =>
    rw [saved] at positive
    exact absurd positive (Nat.lt_irrefl 0)
  | some sources =>
    rw [saved, Option.getD_some] at length positive
    refine ⟨a, run, times, still, rtt, sources, ?_, found, closest, saved, List.length_pos_iff.1 positive, length, ?_⟩
    · simp only [hybridSources, run, Option.bind_some, sourcesOf, found, saved, Option.getD_some]
      exact if_pos positive
    · intro sender mem
      refine allocated.delay rtt sender ?_
      rw [saved]
      exact mem

/-- Times of 10, 20 and 60 ms and a link of 10 ms between the switches: the first two become zero, and a flow of 40 ms is as
far from zero as from 40 ms. -/
theorem nearest_sender_tie :
    (hybridSources 10000 2 [1 / 100, 1 / 50, 3 / 50] (1 / 25)).map (fun found => (found.1, found.2.length)) = some (0, 4) ∧
      ∃ a, allocate 10000 2 [1 / 100, 1 / 50, 3 / 50] = some a ∧ a.experimentRtts.Pairwise (· ≤ ·) := by
  refine ⟨by decide +kernel, ?_⟩
  have ascending : List.Pairwise (· ≤ ·) [(1 / 100 : ℚ), 1 / 50, 3 / 50] := by decide +kernel
  obtain ⟨a, run, -, still, -⟩ := nearest_sender 10000 2 (1 / 25) (List.cons_ne_nil _ _) ascending (by decide)
  exact ⟨a, run, still⟩

end Ns3Fancy.Traffic
