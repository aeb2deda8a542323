import Ns3Fancy.NetSeer.Tagging
import Ns3Fancy.Ring.Window

/-!
# Every loss is reported once

A FIFO link delivers the numbers in increasing order, so the numbers a NACK names were lost, NACKs name
disjoint ranges, and together they name every loss before the last arrival. The ring buffer still has
the flow of a number as long as fewer than its size have been sent after it, and marks it when it is
reported.
-/

namespace Ns3Fancy.NetSeer
open Switch Function
set_option autoImplicit false

/-! ## What the events say -/

/-- The flows sent, by number. -/
def sentFlows (es : List Event) : List FiveTuple :=
  es.filterMap fun e => match e with
    | .sent flow _ _ => some flow
    | _ => none

def arrivedSeqs (es : List Event) : List UInt32 :=
  es.filterMap fun e => match e with
    | .arrived seq => some seq
    | _ => none

def lostSeqs (es : List Event) : List UInt32 :=
  es.filterMap fun e => match e with
    | .lost seq => some seq
    | _ => none

def nackedRanges (es : List Event) : List (UInt32 × UInt32) :=
  es.filterMap fun e => match e with
    | .nacked seq1 seq2 => some (seq1, seq2)
    | _ => none

/-- The ranges looked up, each with the next number at that time. -/
def checkedRanges (es : List Event) : List ((UInt32 × UInt32) × UInt32) :=
  es.filterMap fun e => match e with
    | .checked seq1 seq2 next => some ((seq1, seq2), next)
    | _ => none

def reports (es : List Event) : List NetSeerPacketInfo :=
  es.filterMap fun e => match e with
    | .reported packet => some packet
    | _ => none

@[simp] theorem sentFlows_append (es es' : List Event) : sentFlows (es ++ es') = sentFlows es ++ sentFlows es' :=
  List.filterMap_append

@[simp] theorem arrivedSeqs_append (es es' : List Event) : arrivedSeqs (es ++ es') = arrivedSeqs es ++ arrivedSeqs es' :=
  List.filterMap_append

@[simp] theorem lostSeqs_append (es es' : List Event) : lostSeqs (es ++ es') = lostSeqs es ++ lostSeqs es' :=
  List.filterMap_append

@[simp] theorem nackedRanges_append (es es' : List Event) :
    nackedRanges (es ++ es') = nackedRanges es ++ nackedRanges es' :=
  List.filterMap_append

@[simp] theorem checkedRanges_append (es es' : List Event) :
    checkedRanges (es ++ es') = checkedRanges es ++ checkedRanges es' :=
  List.filterMap_append

@[simp] theorem reports_append (es es' : List Event) : reports (es ++ es') = reports es ++ reports es' :=
  List.filterMap_append

/-- A number is in a range. -/
def Covers (range : UInt32 × UInt32) (seq : UInt32) : Prop := range.1.toNat ≤ seq.toNat ∧ seq.toNat < range.2.toNat

instance (range : UInt32 × UInt32) (seq : UInt32) : Decidable (Covers range seq) := inferInstanceAs (Decidable (_ ∧ _))

/-! ## The ring buffer -/

section
variable {cfg : NetSeerConfig}

/-- What was saved of a packet. -/
def entryOf (flows : List FiveTuple) (marked : List UInt32) (n : Nat) : NetSeerPacketInfo :=
  flowInfo (flows.getD n {}) (.ofNat n) (decide (UInt32.ofNat n ∈ marked))

/-- The report of a packet. -/
def reportOf (flows : List FiveTuple) (seq : UInt32) : NetSeerPacketInfo := flowInfo (flows.getD seq.toNat {}) seq true

theorem mem_seqsBetween {seq1 seq2 seq : UInt32} : seq ∈ seqsBetween seq1 seq2 ↔ Covers (seq1, seq2) seq := by
  simp only [seqsBetween, List.mem_map, List.mem_range'_1, Covers]
  constructor
  · rintro ⟨n, bounds, rfl⟩
    have small : n < 2 ^ 32 := by have := seq2.toNat_lt; omega
    rw [UInt32.toNat_ofNat_of_lt' small]
    omega
  · intro bounds
    exact ⟨seq.toNat, by omega, UInt32.ofNat_toNat⟩

theorem nodup_seqsBetween (seq1 seq2 : UInt32) : (seqsBetween seq1 seq2).Nodup := by
  refine List.Nodup.map_on ?_ List.nodup_range'
  intro m first n second same
  have limit := seq2.toNat_lt
  rw [List.mem_range'_1] at first second
  have values := congrArg UInt32.toNat same
  rwa [UInt32.toNat_ofNat_of_lt' (show m < 2 ^ 32 by omega), UInt32.toNat_ofNat_of_lt' (show n < 2 ^ 32 by omega)] at values

section
variable {sent : Nat} {flows : List FiveTuple} {ring : Nat → NetSeerPacketInfo}

/-- A number is looked up that was sent and not reported before: it is reported exactly when it is still there. -/
theorem checkCell_window {marked : List UInt32} (window : Ring.Window cfg.bufferSize sent (entryOf flows marked) ring)
    (fits : sent ≤ 2 ^ 32) {seq : UInt32} (below : seq.toNat < sent) (fresh : seq ∉ marked) (out : List NetSeerPacketInfo) :
    ∃ ring', checkCell cfg (ring, out) seq =
        (ring', if sent ≤ seq.toNat + cfg.bufferSize then out ++ [reportOf flows seq] else out) ∧
      Ring.Window cfg.bufferSize sent
        (entryOf flows (if sent ≤ seq.toNat + cfg.bufferSize then marked ++ [seq] else marked)) ring' := by
  have name : UInt32.ofNat seq.toNat = seq := UInt32.ofNat_toNat
  by_cases recent : sent ≤ seq.toNat + cfg.bufferSize
  · have cell : ring (seq.toNat % cfg.bufferSize) = flowInfo (flows.getD seq.toNat {}) seq false := by
      rw [window seq.toNat below recent, entryOf, name, decide_eq_false fresh]
    refine ⟨update ring (seq.toNat % cfg.bufferSize) (reportOf flows seq), ?_, ?_⟩
    · simp only [checkCell, cell, if_pos recent]
      exact if_pos ⟨rfl, rfl⟩
    · rw [if_pos recent]
      refine (window.set below recent (reportOf flows seq)).congr fun n bound => ?_
      by_cases same : n = seq.toNat
      · subst same
        rw [update_self, entryOf, reportOf, name]
        simp
      · have other : UInt32.ofNat n ≠ seq := by
          rintro rfl
          exact same (UInt32.toNat_ofNat_of_lt' (show n < 2 ^ 32 by omega)).symm
        rw [update_of_ne same]
        simp [entryOf, other]
  · obtain ⟨m, later, bound, cell⟩ := window.overwritten cfg.buffer_pos (Nat.lt_of_not_le recent)
    have other : (ring (seq.toNat % cfg.bufferSize)).seq ≠ seq := by
      rw [cell]
      intro same
      have value := congrArg UInt32.toNat same
      rw [entryOf, flowInfo, UInt32.toNat_ofNat_of_lt' (show m < 2 ^ 32 by omega)] at value
      omega
    refine ⟨ring, ?_, ?_⟩
    · simp only [checkCell, if_neg recent]
      exact if_neg fun found => other found.1
    · rw [if_neg recent]
      exact window

/-- **What a NACK reports**: the numbers it names that are still in the ring buffer. -/
theorem foldl_checkCell (fits : sent ≤ 2 ^ 32) (seqs : List UInt32) (distinct : seqs.Nodup)
    (below : ∀ seq ∈ seqs, seq.toNat < sent) {marked : List UInt32} (fresh : ∀ seq ∈ seqs, seq ∉ marked)
    (window : Ring.Window cfg.bufferSize sent (entryOf flows marked) ring) (out : List NetSeerPacketInfo) :
    let recent := seqs.filter fun seq => sent ≤ seq.toNat + cfg.bufferSize
    (seqs.foldl (checkCell cfg) (ring, out)).2 = out ++ recent.map (reportOf flows) ∧
      Ring.Window cfg.bufferSize sent (entryOf flows (marked ++ recent)) (seqs.foldl (checkCell cfg) (ring, out)).1 := by
  induction seqs generalizing ring marked out with
  | nil => simpa using window
  | cons seq seqs ih =>
    obtain ⟨unique, distinct⟩ := List.nodup_cons.1 distinct
    obtain ⟨ring', checked, window'⟩ := checkCell_window window fits (below seq List.mem_cons_self)
      (fresh seq List.mem_cons_self) out
    have below' : ∀ seq' ∈ seqs, seq'.toNat < sent := fun seq' mem => below seq' (List.mem_cons_of_mem _ mem)
    have fresh' : ∀ seq' ∈ seqs, seq' ∉ marked := fun seq' mem => fresh seq' (List.mem_cons_of_mem _ mem)
    rw [List.foldl_cons, checked]
    by_cases recent : sent ≤ seq.toNat + cfg.bufferSize
    · simp only [if_pos recent] at window' ⊢
      have fresh'' : ∀ seq' ∈ seqs, seq' ∉ marked ++ [seq] := by
        intro seq' mem
        have other : seq' ≠ seq := fun same => unique (same ▸ mem)
        simp [fresh' seq' mem, other]
      have rest := ih distinct below' fresh'' window' (out ++ [reportOf flows seq])
      simpa [List.filter_cons, recent] using rest
    · simp only [if_neg recent] at window' ⊢
      have rest := ih distinct below' fresh' window' out
      simpa [List.filter_cons, recent] using rest

end

/-! ## The invariant -/

/-- Where the numbers are: on the wire in increasing order, arrived before the expected one, or lost. -/
structure Placed (c : Channel) (es : List Event) : Prop where
  next : c.next.toNat = (sentFlows es).length
  expected : c.expected.toNat ≤ c.next.toNat
  sorted : c.data.Pairwise fun a b => a.toNat < b.toNat
  flying : ∀ seq ∈ c.data, c.expected.toNat ≤ seq.toNat ∧ seq.toNat < c.next.toNat
  arrived : ∀ seq ∈ arrivedSeqs es, seq.toNat < c.expected.toNat
  lost : ∀ seq ∈ lostSeqs es, seq.toNat < c.next.toNat ∧ seq ∉ c.data ∧ seq ∉ arrivedSeqs es
  somewhere : ∀ seq, seq.toNat < c.next.toNat → seq ∈ c.data ∨ seq ∈ arrivedSeqs es ∨ seq ∈ lostSeqs es

/-- What has been named in NACKs: everything before the expected number that has not arrived, each number once. -/
structure Named (c : Channel) (es : List Event) : Prop where
  named : nackedRanges es = (checkedRanges es).map (·.1) ++ c.nacks
  apart : (nackedRanges es).Pairwise fun a b => a.2.toNat ≤ b.1.toNat
  below : ∀ range ∈ nackedRanges es, range.2.toNat < c.expected.toNat
  missing : ∀ range ∈ nackedRanges es, ∀ seq, Covers range seq → seq ∉ arrivedSeqs es
  covered : ∀ seq, seq.toNat < c.expected.toNat → seq ∈ arrivedSeqs es ∨ ∃ range ∈ nackedRanges es, Covers range seq

/-- What has been reported: of what was looked up, the numbers that were still in the ring buffer. -/
structure Kept (cfg : NetSeerConfig) (c : Channel) (es : List Event) : Prop where
  window : Ring.Window cfg.bufferSize c.next.toNat (entryOf (sentFlows es) ((reports es).map (·.seq))) c.ring
  exact_ : ∀ packet ∈ reports es, packet = reportOf (sentFlows es) packet.seq
  once : ((reports es).map (·.seq)).Nodup
  found : ∀ seq, seq ∈ (reports es).map (·.seq) ↔
    ∃ look ∈ checkedRanges es, Covers look.1 seq ∧ look.2.toNat ≤ seq.toNat + cfg.bufferSize

/-- No number has wrapped, no NACK was lost, and every packet carries the number it was saved under. -/
structure Undisturbed (es : List Event) : Prop where
  few : (sentFlows es).length < 2 ^ 32
  tagged : Tagged es
  nacks : ∀ seq1 seq2, .nackLost seq1 seq2 ∉ es

theorem Undisturbed.left {es es' : List Event} (h : Undisturbed (es ++ es')) : Undisturbed es where
  few := by
    have all := h.few
    rw [sentFlows_append, List.length_append] at all
    omega
  tagged flow seq saved mem := h.tagged flow seq saved (List.mem_append_left _ mem)
  nacks seq1 seq2 mem := h.nacks seq1 seq2 (List.mem_append_left _ mem)

section
variable {c c' : Channel} {es es' : List Event}

/-- The next number does not wrap. -/
theorem Placed.toNat_succ (h : Placed c es) (few : (sentFlows es).length + 1 < 2 ^ 32) :
    (c.next + 1).toNat = c.next.toNat + 1 := by
  rw [UInt32.toNat_add]
  have next := h.next
  exact Nat.mod_eq_of_lt (show c.next.toNat + 1 < 2 ^ 32 by omega)

/-- Nor does the number after one that is in flight. -/
theorem Placed.toNat_after (h : Placed c es) {seq : UInt32} (mem : seq ∈ c.data) : (seq + 1).toNat = seq.toNat + 1 := by
  have bound := (h.flying seq mem).2
  have limit := c.next.toNat_lt
  rw [UInt32.toNat_add]
  exact Nat.mod_eq_of_lt (show seq.toNat + 1 < 2 ^ 32 by omega)

theorem Placed.send (h : Placed c es) (few : (sentFlows es).length + 1 < 2 ^ 32) (flow : FiveTuple)
    (ring : Nat → NetSeerPacketInfo) :
    Placed { c with next := c.next + 1, ring := ring, data := c.data ++ [c.next] } (es ++ [.sent flow c.next c.next]) := by
  have succ := h.toNat_succ few
  have arrived : arrivedSeqs (es ++ [.sent flow c.next c.next]) = arrivedSeqs es := by simp [arrivedSeqs]
  have lost : lostSeqs (es ++ [.sent flow c.next c.next]) = lostSeqs es := by simp [lostSeqs]
  refine ⟨?_, ?_, ?_, ?_, ?_, ?_, ?_⟩
  · rw [succ, h.next]
    simp [sentFlows]
  · rw [succ]
    exact Nat.le_succ_of_le h.expected
  · refine List.pairwise_append.2 ⟨h.sorted, List.pairwise_singleton _ _, ?_⟩
    intro a old b new
    rw [List.mem_singleton.1 new]
    exact (h.flying a old).2
  · intro seq mem
    show c.expected.toNat ≤ seq.toNat ∧ seq.toNat < (c.next + 1).toNat
    rw [succ]
    rcases List.mem_append.1 mem with old | new
    · have bounds := h.flying seq old
      omega
    · rw [List.mem_singleton.1 new]
      have bound := h.expected
      omega
  · rw [arrived]
    exact h.arrived
  · rw [arrived, lost]
    intro seq mem
    obtain ⟨bound, notFlying, notArrived⟩ := h.lost seq mem
    refine ⟨by rw [succ]; omega, ?_, notArrived⟩
    intro there
    rcases List.mem_append.1 there with old | new
    · exact notFlying old
    · rw [List.mem_singleton.1 new] at bound
      omega
  · rw [arrived, lost]
    intro seq bound
    rw [succ] at bound
    by_cases last : seq = c.next
    · exact .inl (List.mem_append_right _ (List.mem_singleton.2 last))
    · have different : seq.toNat ≠ c.next.toNat := fun same => last (UInt32.toNat_inj.1 same)
      exact (h.somewhere seq (by omega)).imp_left (List.mem_append_left _)

theorem Placed.lose (h : Placed c es) {before after : List UInt32} {seq : UInt32} (whole : c.data = before ++ seq :: after) :
    Placed { c with data := before ++ after } (es ++ [.lost seq]) := by
  have sent : sentFlows (es ++ [.lost seq]) = sentFlows es := by simp [sentFlows]
  have arrived : arrivedSeqs (es ++ [.lost seq]) = arrivedSeqs es := by simp [arrivedSeqs]
  have lost : lostSeqs (es ++ [.lost seq]) = lostSeqs es ++ [seq] := by simp [lostSeqs]
  have mem : seq ∈ c.data := by simp [whole]
  have kept : ∀ x ∈ before ++ after, x ∈ c.data := by
    intro x there
    rw [whole]
    exact (List.mem_append.1 there).elim (List.mem_append_left _)
      fun later => List.mem_append_right _ (List.mem_cons_of_mem _ later)
  have sorted : (before ++ seq :: after).Pairwise fun a b => a.toNat < b.toNat := whole ▸ h.sorted
  -- the numbers on the wire are increasing, so the lost one is there once
  have gone : seq ∉ before ++ after := by
    intro there
    obtain ⟨-, tail, apart⟩ := List.pairwise_append.1 sorted
    rcases List.mem_append.1 there with left | right
    · exact Nat.lt_irrefl _ (apart seq left seq List.mem_cons_self)
    · exact Nat.lt_irrefl _ ((List.pairwise_cons.1 tail).1 seq right)
  refine ⟨by rw [sent]; exact h.next, h.expected, ?_, fun x there => h.flying x (kept x there),
    by rw [arrived]; exact h.arrived, ?_, ?_⟩
  · exact sorted.sublist ((List.sublist_cons_self _ _).append_left _)
  · rw [arrived, lost]
    intro x lostOne
    rcases List.mem_append.1 lostOne with old | new
    · obtain ⟨bound, notFlying, notArrived⟩ := h.lost x old
      exact ⟨bound, fun there => notFlying (kept x there), notArrived⟩
    · rw [List.mem_singleton.1 new]
      have bounds := h.flying seq mem
      refine ⟨bounds.2, gone, fun there => ?_⟩
      have early := h.arrived seq there
      omega
  · rw [arrived, lost]
    intro x bound
    rcases h.somewhere x bound with flying | early | late
    · by_cases same : x = seq
      · exact .inr (.inr (List.mem_append_right _ (List.mem_singleton.2 same)))
      · refine .inl ?_
        rw [whole] at flying
        simpa [same] using flying
    · exact .inr (.inl early)
    · exact .inr (.inr (List.mem_append_left _ late))

/-- The first number on the wire arrives. -/
theorem Placed.arrive (h : Placed c es) {seq : UInt32} {rest : List UInt32} (head : c.data = seq :: rest)
    (next : c'.next = c.next) (expected : c'.expected = seq + 1) (data : c'.data = rest) (sent : sentFlows es' = [])
    (arrived : arrivedSeqs es' = [seq]) (lost : lostSeqs es' = []) : Placed c' (es ++ es') := by
  have mem : seq ∈ c.data := by simp [head]
  have succ := h.toNat_after mem
  have sorted : (seq :: rest).Pairwise fun a b => a.toNat < b.toNat := head ▸ h.sorted
  have bounds := h.flying seq mem
  refine ⟨?_, ?_, ?_, ?_, ?_, ?_, ?_⟩
  · rw [next, sentFlows_append, sent, List.append_nil]
    exact h.next
  · rw [next, expected, succ]
    omega
  · rw [data]
    exact (List.pairwise_cons.1 sorted).2
  · rw [data, next, expected, succ]
    intro x there
    have after := (List.pairwise_cons.1 sorted).1 x there
    have bounds := h.flying x (by rw [head]; exact List.mem_cons_of_mem _ there)
    omega
  · rw [arrivedSeqs_append, arrived, expected, succ]
    intro x there
    rcases List.mem_append.1 there with old | new
    · have early := h.arrived x old
      omega
    · rw [List.mem_singleton.1 new]
      omega
  · rw [arrivedSeqs_append, arrived, lostSeqs_append, lost, List.append_nil, data, next]
    intro x lostOne
    obtain ⟨bound, notFlying, notArrived⟩ := h.lost x lostOne
    rw [head] at notFlying
    refine ⟨bound, fun there => notFlying (List.mem_cons_of_mem _ there), fun there => ?_⟩
    rcases List.mem_append.1 there with old | new
    · exact notArrived old
    · exact notFlying (by rw [List.mem_singleton.1 new]; exact List.mem_cons_self)
  · rw [arrivedSeqs_append, arrived, lostSeqs_append, lost, List.append_nil, data, next]
    intro x bound
    rcases h.somewhere x bound with flying | early | late
    · rw [head] at flying
      rcases List.mem_cons.1 flying with first | later
      · exact .inr (.inl (List.mem_append_right _ (List.mem_singleton.2 first)))
      · exact .inl later
    · exact .inr (.inl (List.mem_append_left _ early))
    · exact .inr (.inr late)

/-- Nothing is sent, lost or arrives. -/
theorem Placed.same (h : Placed c es) (next : c'.next = c.next) (expected : c'.expected = c.expected)
    (data : c'.data = c.data) (sent : sentFlows es' = []) (arrived : arrivedSeqs es' = []) (lost : lostSeqs es' = []) :
    Placed c' (es ++ es') := by
  refine ⟨?_, ?_, ?_, ?_, ?_, ?_, ?_⟩
  all_goals
    simp only [next, expected, data, sentFlows_append, sent, arrivedSeqs_append, arrived, lostSeqs_append, lost,
      List.append_nil]
  · exact h.next
  · exact h.expected
  · exact h.sorted
  · exact h.flying
  · exact h.arrived
  · exact h.lost
  · exact h.somewhere

/-- Nothing arrives and no NACK is sent or looked at. -/
theorem Named.same (h : Named c es) (expected : c'.expected = c.expected) (nacks : c'.nacks = c.nacks)
    (arrived : arrivedSeqs es' = []) (nacked : nackedRanges es' = []) (checked : checkedRanges es' = []) :
    Named c' (es ++ es') := by
  refine ⟨?_, ?_, ?_, ?_, ?_⟩
  all_goals
    simp only [expected, nacks, arrivedSeqs_append, arrived, nackedRanges_append, nacked, checkedRanges_append, checked,
      List.append_nil]
  · exact h.named
  · exact h.apart
  · exact h.below
  · exact h.missing
  · exact h.covered

/-- The expected number arrives. -/
theorem Named.arrive (h : Named c es) (succ : (c.expected + 1).toNat = c.expected.toNat + 1) (rest : List UInt32) :
    Named { c with expected := c.expected + 1, data := rest } (es ++ [.arrived c.expected]) := by
  have arrived : arrivedSeqs (es ++ [.arrived c.expected]) = arrivedSeqs es ++ [c.expected] := by simp [arrivedSeqs]
  have nacked : nackedRanges (es ++ [.arrived c.expected]) = nackedRanges es := by simp [nackedRanges]
  have checked : checkedRanges (es ++ [.arrived c.expected]) = checkedRanges es := by simp [checkedRanges]
  refine ⟨by rw [nacked, checked]; exact h.named, by rw [nacked]; exact h.apart, ?_, ?_, ?_⟩
  · rw [nacked]
    intro range mem
    show range.2.toNat < (c.expected + 1).toNat
    have below := h.below range mem
    omega
  · rw [nacked, arrived]
    intro range mem seq covers there
    rcases List.mem_append.1 there with old | new
    · exact h.missing range mem seq covers old
    · rw [List.mem_singleton.1 new] at covers
      have below := h.below range mem
      have inside := covers.2
      omega
  · rw [nacked, arrived]
    intro seq bound
    change seq.toNat < (c.expected + 1).toNat at bound
    by_cases last : seq = c.expected
    · exact .inl (List.mem_append_right _ (List.mem_singleton.2 last))
    · have different : seq.toNat ≠ c.expected.toNat := fun same => last (UInt32.toNat_inj.1 same)
      exact (h.covered seq (by omega)).imp_left (List.mem_append_left _)

/-- A later number arrives, and what is missing before it is named. -/
theorem Named.gap (h : Named c es) {seq : UInt32} (succ : (seq + 1).toNat = seq.toNat + 1)
    (later : c.expected.toNat < seq.toNat) (early : ∀ x ∈ arrivedSeqs es, x.toNat < c.expected.toNat) (rest : List UInt32) :
    Named { c with expected := seq + 1, data := rest, nacks := c.nacks ++ [(c.expected, seq)] }
      (es ++ [.arrived seq, .nacked c.expected seq]) := by
  have arrived : arrivedSeqs (es ++ [.arrived seq, .nacked c.expected seq]) = arrivedSeqs es ++ [seq] := by
    simp [arrivedSeqs]
  have nacked : nackedRanges (es ++ [.arrived seq, .nacked c.expected seq]) = nackedRanges es ++ [(c.expected, seq)] := by
    simp [nackedRanges]
  have checked : checkedRanges (es ++ [.arrived seq, .nacked c.expected seq]) = checkedRanges es := by
    simp [checkedRanges]
  refine ⟨?_, ?_, ?_, ?_, ?_⟩
  · rw [nacked, checked, h.named, List.append_assoc]
  · rw [nacked]
    refine List.pairwise_append.2 ⟨h.apart, List.pairwise_singleton _ _, ?_⟩
    intro range old range' new
    rw [List.mem_singleton.1 new]
    exact (h.below range old).le
  · rw [nacked]
    intro range mem
    show range.2.toNat < (seq + 1).toNat
    rw [succ]
    rcases List.mem_append.1 mem with old | new
    · have below := h.below range old
      omega
    · rw [List.mem_singleton.1 new]
      exact Nat.lt_succ_self _
  · rw [nacked, arrived]
    intro range mem x covers there
    rcases List.mem_append.1 mem with old | new <;> rcases List.mem_append.1 there with before | now
    · exact h.missing range old x covers before
    · rw [List.mem_singleton.1 now] at covers
      have below := h.below range old
      have inside := covers.2
      omega
    · rw [List.mem_singleton.1 new] at covers
      have inside := covers.1
      have bound := early x before
      simp only at inside
      omega
    · rw [List.mem_singleton.1 new, List.mem_singleton.1 now] at covers
      exact Nat.lt_irrefl _ covers.2
  · rw [nacked, arrived]
    intro x bound
    change x.toNat < (seq + 1).toNat at bound
    rw [succ] at bound
    by_cases last : x = seq
    · exact .inl (List.mem_append_right _ (List.mem_singleton.2 last))
    · have different : x.toNat ≠ seq.toNat := fun same => last (UInt32.toNat_inj.1 same)
      by_cases before : x.toNat < c.expected.toNat
      · rcases h.covered x before with there | ⟨range, mem, covers⟩
        · exact .inl (List.mem_append_left _ there)
        · exact .inr ⟨range, List.mem_append_left _ mem, covers⟩
      · refine .inr ⟨(c.expected, seq), List.mem_append_right _ List.mem_cons_self, ?_, ?_⟩
        · show c.expected.toNat ≤ x.toNat
          omega
        · show x.toNat < seq.toNat
          omega

/-- The first NACK on the way back is looked up. -/
theorem Named.check (h : Named c es) {range : UInt32 × UInt32} {rest : List (UInt32 × UInt32)}
    (head : c.nacks = range :: rest) (expected : c'.expected = c.expected) (nacks : c'.nacks = rest)
    (arrived : arrivedSeqs es' = []) (nacked : nackedRanges es' = []) (checked : checkedRanges es' = [(range, c.next)]) :
    Named c' (es ++ es') := by
  refine ⟨?_, ?_, ?_, ?_, ?_⟩
  all_goals
    simp only [expected, nacks, arrivedSeqs_append, arrived, nackedRanges_append, nacked, checkedRanges_append, checked,
      List.append_nil]
  · rw [h.named, head]
    simp
  · exact h.apart
  · exact h.below
  · exact h.missing
  · exact h.covered

/-- Nothing is sent or looked up. -/
theorem Kept.same (h : Kept cfg c es) (next : c'.next = c.next) (ring : c'.ring = c.ring) (sent : sentFlows es' = [])
    (checked : checkedRanges es' = []) (reported : reports es' = []) : Kept cfg c' (es ++ es') := by
  refine ⟨?_, ?_, ?_, ?_⟩
  all_goals
    simp only [next, ring, sentFlows_append, sent, checkedRanges_append, checked, reports_append, reported, List.append_nil]
  · exact h.window
  · exact h.exact_
  · exact h.once
  · exact h.found

/-- What has been reported was sent. -/
theorem Kept.reported_lt (h : Kept cfg c es) (placed : Placed c es) (named : Named c es) {seq : UInt32}
    (mem : seq ∈ (reports es).map (·.seq)) : seq.toNat < c.next.toNat := by
  obtain ⟨look, looked, covers, -⟩ := (h.found seq).1 mem
  have below := named.below look.1 (by
    rw [named.named]
    exact List.mem_append_left _ (List.mem_map_of_mem looked))
  have inside := covers.2
  have bound := placed.expected
  omega

theorem Kept.send (h : Kept cfg c es) (placed : Placed c es) (named : Named c es)
    (few : (sentFlows es).length + 1 < 2 ^ 32) (flow : FiveTuple) (data : List UInt32) :
    Kept cfg { c with
        next := c.next + 1
        ring := update c.ring (c.next.toNat % cfg.bufferSize) (flowInfo flow c.next false)
        data := data } (es ++ [.sent flow c.next c.next]) := by
  have sent : sentFlows (es ++ [.sent flow c.next c.next]) = sentFlows es ++ [flow] := by simp [sentFlows]
  have checked : checkedRanges (es ++ [.sent flow c.next c.next]) = checkedRanges es := by simp [checkedRanges]
  have reported : reports (es ++ [.sent flow c.next c.next]) = reports es := by simp [reports]
  have older : ∀ n < c.next.toNat, (sentFlows es ++ [flow]).getD n {} = (sentFlows es).getD n {} := by
    intro n bound
    rw [placed.next] at bound
    simp [List.getElem?_append_left bound]
  have last : (sentFlows es ++ [flow]).getD c.next.toNat {} = flow := by
    rw [placed.next]
    simp
  have fresh : c.next ∉ (reports es).map (·.seq) := fun mem => Nat.lt_irrefl _ (h.reported_lt placed named mem)
  refine ⟨?_, ?_, ?_, ?_⟩
  · have entries := h.window.congr fun n bound =>
      show entryOf (sentFlows es) _ n = entryOf (sentFlows es ++ [flow]) _ n by rw [entryOf, entryOf, older n bound]
    have new : entryOf (sentFlows es ++ [flow]) ((reports es).map (·.seq)) c.next.toNat = flowInfo flow c.next false := by
      rw [entryOf, last, UInt32.ofNat_toNat, decide_eq_false fresh]
    have pushed := entries.push
    rw [new, ← placed.toNat_succ few] at pushed
    rw [sent, reported]
    exact pushed
  · rw [sent, reported]
    intro packet mem
    have bound := h.reported_lt placed named (List.mem_map_of_mem mem)
    rw [reportOf, older _ bound]
    exact h.exact_ packet mem
  · rw [reported]
    exact h.once
  · rw [reported, checked]
    exact h.found

/-- The ranges looked up before do not meet the NACKs on the way back. -/
theorem Kept.fresh (h : Kept cfg c es) (named : Named c es) {range : UInt32 × UInt32} (waiting : range ∈ c.nacks)
    {seq : UInt32} (covers : Covers range seq) : seq ∉ (reports es).map (·.seq) := by
  intro mem
  obtain ⟨look, looked, covers', -⟩ := (h.found seq).1 mem
  have apart := named.apart
  rw [named.named] at apart
  have before := (List.pairwise_append.1 apart).2.2 look.1 (List.mem_map_of_mem looked) range waiting
  have inside := covers'.2
  have from_ := covers.1
  omega

theorem Kept.check (h : Kept cfg c es) (placed : Placed c es) (named : Named c es) {range : UInt32 × UInt32}
    {rest : List (UInt32 × UInt32)} (head : c.nacks = range :: rest) :
    Kept cfg { c with ring := (checkRing cfg range.1 range.2 c.ring).1, nacks := rest }
      (es ++ .checked range.1 range.2 c.next :: (checkRing cfg range.1 range.2 c.ring).2.map .reported) := by
  have waiting : range ∈ c.nacks := by simp [head]
  have below : ∀ seq ∈ seqsBetween range.1 range.2, seq.toNat < c.next.toNat := by
    intro seq mem
    have inside := (mem_seqsBetween.1 mem).2
    have early := named.below range (by rw [named.named]; exact List.mem_append_right _ waiting)
    have bound := placed.expected
    simp only at inside
    omega
  obtain ⟨out, window⟩ := @foldl_checkCell cfg c.next.toNat (sentFlows es) c.ring c.next.toNat_lt.le _
    (nodup_seqsBetween range.1 range.2) below _ (fun seq mem => h.fresh named waiting (mem_seqsBetween.1 mem)) h.window []
  change (checkRing cfg range.1 range.2 c.ring).2 = _ at out
  change Ring.Window _ _ _ (checkRing cfg range.1 range.2 c.ring).1 at window
  rw [List.nil_append] at out
  rw [out]
  generalize recentEq : (seqsBetween range.1 range.2).filter (fun seq => c.next.toNat ≤ seq.toNat + cfg.bufferSize) =
    recent at *
  have sent : sentFlows (es ++ .checked range.1 range.2 c.next :: (recent.map (reportOf (sentFlows es))).map .reported) =
      sentFlows es := by
    simp [sentFlows, List.filterMap_map, comp_def]
  have checked : checkedRanges (es ++ .checked range.1 range.2 c.next ::
      (recent.map (reportOf (sentFlows es))).map .reported) = checkedRanges es ++ [(range, c.next)] := by
    simp [checkedRanges, List.filterMap_map, comp_def]
  have reported : reports (es ++ .checked range.1 range.2 c.next :: (recent.map (reportOf (sentFlows es))).map .reported) =
      reports es ++ recent.map (reportOf (sentFlows es)) := by
    simp [reports, List.filterMap_map, comp_def]
  have names : (reports es ++ recent.map (reportOf (sentFlows es))).map (·.seq) = (reports es).map (·.seq) ++ recent := by
    simp [reportOf, flowInfo, comp_def]
  have member : ∀ seq, seq ∈ recent ↔ Covers range seq ∧ c.next.toNat ≤ seq.toNat + cfg.bufferSize := by
    intro seq
    rw [← recentEq, List.mem_filter, mem_seqsBetween]
    simp
  refine ⟨?_, ?_, ?_, ?_⟩
  · rw [sent, reported, names]
    exact window
  · rw [sent, reported]
    intro packet mem
    rcases List.mem_append.1 mem with old | new
    · exact h.exact_ packet old
    · obtain ⟨seq, -, rfl⟩ := List.mem_map.1 new
      rfl
  · rw [reported, names]
    refine List.nodup_append.2 ⟨h.once, ?_, ?_⟩
    · rw [← recentEq]
      exact (nodup_seqsBetween _ _).filter _
    · rintro seq old _ new rfl
      exact h.fresh named waiting ((member seq).1 new).1 old
  · rw [reported, names, checked]
    intro seq
    rw [List.mem_append, h.found, member]
    simp [or_and_right, exists_or]

/-- A number is looked up at most once. -/
theorem Named.unique (h : Named c es) {look look' : (UInt32 × UInt32) × UInt32} (looked : look ∈ checkedRanges es)
    (looked' : look' ∈ checkedRanges es) {seq : UInt32} (covers : Covers look.1 seq) (covers' : Covers look'.1 seq) :
    look = look' := by
  have apart : (checkedRanges es).Pairwise fun a b => a.1.2.toNat ≤ b.1.1.toNat := by
    have all := h.apart
    rw [h.named] at all
    exact List.pairwise_map.1 (List.pairwise_append.1 all).1
  obtain ⟨i, inside, rfl⟩ := List.getElem_of_mem looked
  obtain ⟨j, inside', rfl⟩ := List.getElem_of_mem looked'
  have from_ := covers.1
  have upTo := covers.2
  have from' := covers'.1
  have upTo' := covers'.2
  rw [List.pairwise_iff_getElem] at apart
  rcases Nat.lt_trichotomy i j with before | rfl | after
  · have order := apart i j inside inside' before
    omega
  · rfl
  · have order := apart j i inside' inside after
    omega

/-- **The account of a direction**, along every path that is not disturbed. -/
theorem accounts_of_path (path : c.Path cfg es) (undisturbed : Undisturbed es) :
    Placed c es ∧ Named c es ∧ Kept cfg c es := by
  induction path with
  | nil =>
    refine ⟨⟨rfl, Nat.le_refl _, .nil, by simp, by simp [arrivedSeqs], by simp [lostSeqs], by simp⟩,
      ⟨rfl, .nil, by simp [nackedRanges], by simp [nackedRanges], by simp⟩,
      ⟨.empty _ _ _, by simp [reports], by simp [reports], by simp [reports, checkedRanges]⟩⟩
  | @snoc c c' es es' _ moves ih =>
    obtain ⟨placed, named, kept⟩ := ih undisturbed.left
    cases moves with
    | idle => simpa using ⟨placed, named, kept⟩
    | send flow seq =>
      obtain rfl : seq = c.next := undisturbed.tagged flow seq c.next (by simp)
      have few : (sentFlows es).length + 1 < 2 ^ 32 := by
        have all := undisturbed.few
        simpa [sentFlows] using all
      exact ⟨placed.send few flow _, named.same rfl rfl rfl rfl rfl, kept.send placed named few flow _⟩
    | lose before seq after whole =>
      exact ⟨placed.lose whole, named.same rfl rfl rfl rfl rfl, kept.same rfl rfl rfl rfl rfl⟩
    | loseNack before range after whole => exact absurd (by simp) (undisturbed.nacks range.1 range.2)
    | arrive rest head =>
      have succ := placed.toNat_after (show c.expected ∈ c.data by simp [head])
      exact ⟨placed.arrive head rfl rfl rfl rfl rfl rfl, named.arrive succ rest, kept.same rfl rfl rfl rfl rfl⟩
    | gap seq rest head other =>
      have mem : seq ∈ c.data := by simp [head]
      have later : c.expected.toNat < seq.toNat := by
        have from_ := (placed.flying seq mem).1
        have different : seq.toNat ≠ c.expected.toNat := fun same => other (UInt32.toNat_inj.1 same)
        omega
      exact ⟨placed.arrive head rfl rfl rfl rfl rfl rfl, named.gap (placed.toNat_after mem) later placed.arrived rest,
        kept.same rfl rfl rfl rfl rfl⟩
    | silentGap seq rest head other => exact absurd (by simp) (undisturbed.nacks c.expected seq)
    | check range rest head =>
      refine ⟨placed.same rfl rfl rfl ?_ ?_ ?_, named.check head rfl rfl ?_ ?_ ?_, kept.check placed named head⟩
      · simp [sentFlows, List.filterMap_map]
      · simp [arrivedSeqs, List.filterMap_map]
      · simp [lostSeqs, List.filterMap_map]
      · simp [arrivedSeqs, List.filterMap_map]
      · simp [nackedRanges, List.filterMap_map]
      · simp [checkedRanges, List.filterMap_map]

end

end

/-! ## Two switches -/

section
variable {P S : Type} [DecidableEq P] [DecidableEq S]

/-- No numbered packet that came over a link leaves by the port in this step: what it sends came from hosts. -/
def FromHosts (p : P) : Label P → State P S → Prop
  | .deliver x outPort _ _, s => outPort = some p → ∀ pkt ∈ (s.wire x).head?, pkt.number = none
  | _, _ => True

theorem tagged_of_hosts {net : Network P S} {p : P} {s : State P S} {tr : List (Seen P)}
    (run : Lts.Run (step net) (FromHosts p) State.start s tr) : Tagged (events p tr) := by
  refine run.invariant (I := fun _ tr => Tagged (events p tr)) (by simp [Tagged]) ?_
  intro t u tr os l tagged hosts moved flow seq saved mem
  rw [events_append] at mem
  rcases List.mem_append.1 mem with old | new
  · exact tagged _ _ _ old
  · obtain ⟨-, -, own | ⟨-, x, nackDrop, rfl, pkt, first, number⟩⟩ := sent_of_step moved new
    · exact own
    · rw [hosts rfl pkt first] at number
      cases number

/-- **Exactly-once reporting.** On a link of NetSeer switches whose port `p` sends packets from hosts, fewer than `2 ^ 32`,
and whose NACKs are not lost, in every run:
* a report is for a packet that was lost, and has the flow the packet was sent with;
* a packet that was lost before one that arrived is named in a NACK that is still on its way back, and is not reported yet,
  or in one that was looked up, and is reported once if fewer than `bufferSize` packets had been sent after it then, and not
  at all otherwise;
* a packet that arrived is never reported. -/
theorem exactly_once (net : Network P S) (p q : P) (link : net.peer p = some q) (s : State P S) (tr : List (Seen P))
    (run : Lts.Run (step net) (FromHosts p) State.start s tr) (few : (sentFlows (events p tr)).length < 2 ^ 32)
    (nacks : ∀ seq1 seq2, .nackLost seq1 seq2 ∉ events p tr) :
    (∀ packet ∈ reports (events p tr), packet.seq ∈ lostSeqs (events p tr) ∧
      packet = flowInfo ((sentFlows (events p tr)).getD packet.seq.toNat {}) packet.seq true) ∧
    (∀ seq ∈ lostSeqs (events p tr), (∃ later ∈ arrivedSeqs (events p tr), seq < later) →
      (∃ range ∈ (s.wire q).filterMap Packet.range, Covers range seq ∧
        ((reports (events p tr)).map (·.seq)).count seq = 0) ∨
      ∃ look ∈ checkedRanges (events p tr), Covers look.1 seq ∧ ((reports (events p tr)).map (·.seq)).count seq =
        if look.2.toNat - 1 - seq.toNat < (net.config (net.owner p)).bufferSize then 1 else 0) ∧
    ∀ seq ∈ arrivedSeqs (events p tr), seq ∉ (reports (events p tr)).map (·.seq) := by
  obtain ⟨placed, named, kept⟩ := accounts_of_path (path_of_run run link) ⟨few, tagged_of_hosts run, nacks⟩
  have nacked : ∀ look ∈ checkedRanges (events p tr), look.1 ∈ nackedRanges (events p tr) := by
    intro look mem
    rw [named.named]
    exact List.mem_append_left _ (List.mem_map_of_mem mem)
  refine ⟨?_, ?_, ?_⟩
  · intro packet mem
    refine ⟨?_, kept.exact_ packet mem⟩
    obtain ⟨look, looked, covers, -⟩ := (kept.found packet.seq).1 (List.mem_map_of_mem mem)
    have below := named.below _ (nacked look looked)
    have inside := covers.2
    have bound := placed.expected
    rcases placed.somewhere packet.seq (by omega) with flying | arrived | lost
    · have later := (placed.flying _ flying).1
      omega
    · exact absurd arrived (named.missing _ (nacked look looked) _ covers)
    · exact lost
  · rintro seq lost ⟨later, arrived, before⟩
    have bound := placed.arrived later arrived
    rw [UInt32.lt_iff_toNat_lt] at before
    obtain ⟨-, -, notArrived⟩ := placed.lost seq lost
    obtain ⟨range, mem, covers⟩ := (named.covered seq (by omega)).resolve_left notArrived
    rw [named.named] at mem
    rcases List.mem_append.1 mem with done | waiting
    · obtain ⟨look, looked, rfl⟩ := List.mem_map.1 done
      refine .inr ⟨look, looked, covers, ?_⟩
      have positive := (net.config (net.owner p)).buffer_pos
      by_cases recent : look.2.toNat ≤ seq.toNat + (net.config (net.owner p)).bufferSize
      · rw [if_pos (by omega)]
        exact List.count_eq_one_of_mem kept.once ((kept.found seq).2 ⟨look, looked, covers, recent⟩)
      · rw [if_neg (by omega)]
        refine List.count_eq_zero_of_not_mem fun there => ?_
        obtain ⟨look', looked', covers', recent'⟩ := (kept.found seq).1 there
        rw [named.unique looked looked' covers covers'] at recent
        exact recent recent'
    · exact .inl ⟨range, waiting, covers, List.count_eq_zero_of_not_mem (kept.fresh named waiting covers)⟩
  · intro seq arrived there
    obtain ⟨look, looked, covers, -⟩ := (kept.found seq).1 there
    exact named.missing _ (nacked look looked) _ covers arrived

/-! ### A loss between two hosts -/

instance (p : P) (s : State P S) : (l : Label P) → Decidable (FromHosts p l s)
  | .deliver x outPort _ _ => inferInstanceAs (Decidable (outPort = some p → ∀ pkt ∈ (s.wire x).head?, pkt.number = none))
  | .enter .. => isTrue trivial
  | .lose .. => isTrue trivial

/-- Two switches: ports 1 and 2 are linked, 0 and 3 are towards hosts. -/
def twoSwitches : Network (Fin 4) Bool where
  owner p := [false, false, true, true][p]
  peer p := [none, some 2, some 1, none][p]
  config _ := oneCellCache
  peer_symm := by decide
  peer_ne := by decide

/-- Two packets are sent, the first is lost, the second arrives and its NACK returns. -/
def loseFirst : List (Label (Fin 4)) :=
  [.enter 0 (some 1) { flow := { srcIp := 7 } } false, .enter 0 (some 1) { flow := { srcIp := 8 } } false, .lose 1 0,
    .deliver 1 (some 3) false false, .deliver 2 none false false]

theorem exactly_once_first :
    ∃ s tr, Lts.Run (step twoSwitches) (FromHosts 1) State.start s tr ∧ lostSeqs (events 1 tr) = [0] ∧
      arrivedSeqs (events 1 tr) = [1] ∧ (∀ packet ∈ reports (events 1 tr), packet.seq ∈ lostSeqs (events 1 tr)) ∧
      ((reports (events 1 tr)).map (·.seq)).count 0 = 1 := by
  have computed : (Lts.exec (fun l s => if FromHosts 1 l s then step twoSwitches l s else none) loseFirst
      State.start).map (·.2) = some
      [⟨1, .sent { srcIp := 7 } 0 0⟩, ⟨1, .sent { srcIp := 8 } 1 1⟩, ⟨1, .lost 0⟩, ⟨1, .arrived 1⟩, ⟨1, .nacked 0 1⟩,
        ⟨1, .checked 0 1 2⟩, ⟨1, .reported { srcIp := 7, seq := 0, reported := true }⟩] := by
    decide +kernel
  obtain ⟨⟨s, tr⟩, ran, rfl⟩ := Option.map_eq_some_iff.1 computed
  have run := Lts.Run.of_guarded ran
  have nacks : ∀ seq1 seq2, .nackLost seq1 seq2 ∉ events (1 : Fin 4)
      [⟨1, .sent { srcIp := 7 } 0 0⟩, ⟨1, .sent { srcIp := 8 } 1 1⟩, ⟨1, .lost 0⟩, ⟨1, .arrived 1⟩, ⟨1, .nacked 0 1⟩,
        ⟨1, .checked 0 1 2⟩, ⟨1, .reported { srcIp := 7, seq := 0, reported := true }⟩] := by
    intro seq1 seq2 mem
    simp [mem_events] at mem
  obtain ⟨sound, -, -⟩ := exactly_once twoSwitches 1 2 rfl s _ run (by decide) nacks
  exact ⟨s, _, run, by decide, by decide, fun packet mem => (sound packet mem).1, by decide⟩

end

end Ns3Fancy.NetSeer
