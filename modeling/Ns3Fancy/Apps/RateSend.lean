import Ns3Fancy.Lts.Run
import Mathlib.Algebra.BigOperators.Group.List.Basic
import Mathlib.Algebra.GroupWithZero.Nat

/-!
# The rate sender's byte budget

`RefillBucket` grants bytes against what was sent, not against what was granted before. While a call of `SendData` is in its
loop it waits for the result of `Send`, so the results are steps of their own.
-/

namespace Ns3Fancy.Apps
open Lts
set_option autoImplicit false

/-- The attributes of `RateSendApplication`. -/
structure RateSend where
  maxBytes : UInt64
  bytesPerInterval : UInt64
  sendSize : UInt32

namespace RateSend

/-- Its state. `again`: `ConnectionSucceeded` calls `SendData` once more when the running call returns. -/
structure State where
  connected : Bool := false
  totBytes : UInt64 := 0
  bytesInBucket : UInt64 := 0
  sendingData : Bool := false
  again : Bool := false

/-- What a step shows: a refill is scheduled, or `Send` took some bytes. -/
inductive Shown where
  | refill
  | sent (bytes : Nat)
  deriving DecidableEq

def Shown.bytes : Shown → Nat
  | .refill => 0
  | .sent bytes => bytes

/-- The bytes sent on a run. -/
def sentBytes (tr : List Shown) : Nat := (tr.map Shown.bytes).sum

/-- The events, and the results of `Send`. -/
inductive Label where
  | refillBucket | sendData | connectionSucceeded | connectionFailed | stopApplication
  | send (actual : Int)

/-- `StopApplication` also cancels the refill that is scheduled. -/
def stopApplication (s : State) : State := { s with connected := false }

/-- The test of the loop of `SendData`. -/
def More (c : RateSend) (s : State) : Prop := 0 < s.bytesInBucket ∧ c.maxBytes ≠ s.totBytes

instance (c : RateSend) (s : State) : Decidable (c.More s) := inferInstanceAs (Decidable (_ ∧ _))

/-- The end of `SendData`, after its loop. -/
def finish (c : RateSend) (s : State) : State :=
  let s := if s.totBytes = c.maxBytes ∧ s.connected then stopApplication s else s
  { s with sendingData := false }

/-- `SendData` up to its first `Send`. -/
def sendData (c : RateSend) (s : State) : State :=
  if s.sendingData then s
  else
    let s := { s with sendingData := true }
    if c.More s then s else c.finish s

/-- The bytes that `RefillBucket` adds. -/
def grant (c : RateSend) (s : State) : UInt64 :=
  if c.bytesPerInterval ≤ c.maxBytes - s.totBytes then c.bytesPerInterval else c.maxBytes - s.totBytes

def refillBucket (c : RateSend) (s : State) : State × List Shown :=
  let s := { s with bytesInBucket := s.bytesInBucket + c.grant s }
  (if s.sendingData then s else c.sendData s, if c.maxBytes ≠ s.totBytes then [.refill] else [])

def connectionSucceeded (c : RateSend) (s : State) : State × List Shown :=
  let (s, shown) := c.refillBucket { s with connected := true }
  (if s.sendingData then { s with again := true } else c.sendData s, shown)

/-- The size of the packet given to `Send`. -/
def toSend (c : RateSend) (s : State) : UInt64 :=
  if c.sendSize.toUInt64 ≤ s.bytesInBucket then c.sendSize.toUInt64 else s.bytesInBucket

/-- The state of the loop once `Send` returned. -/
def sent (actual : Int) (s : State) : State :=
  if 0 < actual then
    { s with totBytes := s.totBytes + UInt64.ofNat actual.toNat, bytesInBucket := s.bytesInBucket - UInt64.ofNat actual.toNat }
  else s

/-- What is called once `SendData` returns. -/
def return_ (c : RateSend) (s : State) : State :=
  if s.again then c.sendData { s with again := false } else s

/-- From a result of `Send`, an `int` of at most the size of the packet, to the next `Send`. -/
def send (c : RateSend) (actual : Int) (s : State) : Option (State × List Shown) :=
  if s.sendingData ∧ -1 ≤ actual ∧ actual ≤ (c.toSend s).toNat ∧ actual < 2 ^ 31 then
    let t := sent actual s
    some (if (UInt32.ofInt actual).toUInt64 = c.toSend s ∧ c.More t then t else c.return_ (c.finish t),
      if 0 < actual then [.sent actual.toNat] else [])
  else none

/-- An event happens when no call is in the loop of `SendData`. -/
def step (c : RateSend) : Step State Label Shown
  | .send actual, s => c.send actual s
  | l, s =>
    if s.sendingData then none
    else match l with
      | .refillBucket => some (c.refillBucket s)
      | .connectionSucceeded => some (c.connectionSucceeded s)
      | .sendData => some (c.sendData s, [])
      | .stopApplication => some (stopApplication s, [])
      | _ => some (s, [])

/-- **The budget**: what was sent and what is granted is at most `MaxBytes`. -/
def Budget (c : RateSend) (s : State) : Prop := s.totBytes.toNat + s.bytesInBucket.toNat ≤ c.maxBytes.toNat

/-- A refill that stays within the budget: the bucket is empty, or what is in it and the bytes of an interval fit in what is
left to send, or what is in it and what is added are too much for 64 bits. -/
def Fits (c : RateSend) (s : State) : Prop :=
  s.bytesInBucket = 0 ∨ s.bytesInBucket.toNat + c.bytesPerInterval.toNat ≤ c.maxBytes.toNat - s.totBytes.toNat ∨
    2 ^ 64 ≤ s.bytesInBucket.toNat + min c.bytesPerInterval.toNat (c.maxBytes.toNat - s.totBytes.toNat)

instance (c : RateSend) (s : State) : Decidable (c.Fits s) := inferInstanceAs (Decidable (_ ∨ _ ∨ _))

/-- Every refill of a run fits. -/
def EachFits (c : RateSend) : Label → State → Prop
  | .refillBucket, s => c.Fits s
  | .connectionSucceeded, s => c.Fits s
  | _, _ => True

instance (c : RateSend) : ∀ l s, Decidable (c.EachFits l s)
  | .refillBucket, s => inferInstanceAs (Decidable (c.Fits s))
  | .connectionSucceeded, s => inferInstanceAs (Decidable (c.Fits s))
  | .sendData, _ | .connectionFailed, _ | .stopApplication, _ | .send _, _ => isTrue trivial

section
variable {c : RateSend} {s t : State}

/-- Two states with the same counters. -/
structure SameBytes (s t : State) : Prop where
  totBytes : t.totBytes = s.totBytes
  bytesInBucket : t.bytesInBucket = s.bytesInBucket

theorem SameBytes.trans {u : State} (first : SameBytes s t) (second : SameBytes t u) : SameBytes s u :=
  ⟨second.totBytes.trans first.totBytes, second.bytesInBucket.trans first.bytesInBucket⟩

theorem SameBytes.budget (same : SameBytes s t) : c.Budget t ↔ c.Budget s := by
  unfold Budget
  rw [same.totBytes, same.bytesInBucket]

theorem SameBytes.more (same : SameBytes s t) : c.More t ↔ c.More s := by
  unfold More
  rw [same.totBytes, same.bytesInBucket]

theorem finish_bytes (c : RateSend) (s : State) : SameBytes s (c.finish s) := by
  unfold finish
  split <;> exact ⟨rfl, rfl⟩

theorem sendData_bytes (c : RateSend) (s : State) : SameBytes s (c.sendData s) := by
  unfold sendData
  split
  · exact ⟨rfl, rfl⟩
  · dsimp only
    split
    · exact ⟨rfl, rfl⟩
    · have entered : SameBytes s { s with sendingData := true } := ⟨rfl, rfl⟩
      exact entered.trans (finish_bytes c _)

theorem return_bytes (c : RateSend) (s : State) : SameBytes s (c.return_ s) := by
  unfold return_
  split
  · have called : SameBytes s { s with again := false } := ⟨rfl, rfl⟩
    exact called.trans (sendData_bytes c _)
  · exact ⟨rfl, rfl⟩

/-- What a refill does to the counters. -/
theorem refillBucket_bytes (c : RateSend) (s : State) :
    SameBytes { s with bytesInBucket := s.bytesInBucket + c.grant s } (c.refillBucket s).1 := by
  unfold refillBucket
  dsimp only
  split
  · exact ⟨rfl, rfl⟩
  · exact sendData_bytes c _

theorem connectionSucceeded_bytes (c : RateSend) (s : State) :
    SameBytes { s with bytesInBucket := s.bytesInBucket + c.grant s } (c.connectionSucceeded s).1 := by
  refine SameBytes.trans ⟨?_, ?_⟩ (t := (c.refillBucket { s with connected := true }).1) ?_
  · exact (refillBucket_bytes c _).totBytes
  · exact (refillBucket_bytes c _).bytesInBucket
  · unfold connectionSucceeded
    dsimp only
    split
    · exact ⟨rfl, rfl⟩
    · exact sendData_bytes c _

/-- **A refill within the budget** keeps it exactly if it fits. -/
theorem budget_grant (budget : c.Budget s) :
    c.Budget { s with bytesInBucket := s.bytesInBucket + c.grant s } ↔ c.Fits s := by
  unfold Budget at *
  have left : (c.maxBytes - s.totBytes).toNat = c.maxBytes.toNat - s.totBytes.toNat := by
    apply UInt64.toNat_sub_of_le
    rw [UInt64.le_iff_toNat_le]
    omega
  have granted : (c.grant s).toNat = min c.bytesPerInterval.toNat (c.maxBytes.toNat - s.totBytes.toNat) := by
    unfold grant
    split
    · rename_i few
      rw [UInt64.le_iff_toNat_le] at few
      omega
    · rename_i many
      rw [UInt64.le_iff_toNat_le] at many
      omega
  have empty : s.bytesInBucket = 0 ↔ s.bytesInBucket.toNat = 0 := by
    rw [← UInt64.toNat_inj]
    rfl
  have small := c.maxBytes.toNat_lt
  unfold Fits
  rw [empty]
  show s.totBytes.toNat + (s.bytesInBucket + c.grant s).toNat ≤ _ ↔ _
  rw [UInt64.toNat_add, granted]
  omega

/-- An event happens when no call is in the loop. -/
theorem idle_of_step {next : Option (State × List Shown)} {r : State × List Shown}
    (stepped : (if s.sendingData then none else next) = some r) : s.sendingData = false := by
  cases sending : s.sendingData with
  | true =>
    rw [if_pos sending] at stepped
    cases stepped
  | false => rfl

/-- What an event steps to. -/
theorem idle {next : Option (State × List Shown)} {r : State × List Shown}
    (stepped : (if s.sendingData then none else next) = some r) : next = some r := by
  split at stepped
  · cases stepped
  · exact stepped

/-- **What a step can do** to the counters: bytes that `Send` took move from the bucket to the total, a refill adds to the
bucket, and nothing else changes them. -/
theorem step_cases {l : Label} {shown : List Shown} (stepped : c.step l s = some (t, shown)) :
    (∃ actual, l = .send actual ∧ s.sendingData = true ∧ actual ≤ (c.toSend s).toNat ∧ SameBytes (sent actual s) t ∧
      shown = if 0 < actual then [.sent actual.toNat] else []) ∨
    ((∀ s, c.EachFits l s ↔ c.Fits s) ∧ SameBytes { s with bytesInBucket := s.bytesInBucket + c.grant s } t ∧
      shown = if c.maxBytes ≠ s.totBytes then [.refill] else []) ∨
    ((∀ s, c.EachFits l s) ∧ SameBytes s t ∧ shown = []) := by
  cases l with
  | send actual =>
    have stepped : c.send actual s = some (t, shown) := stepped
    unfold send at stepped
    split at stepped
    · rename_i allowed
      obtain ⟨sending, -, most, -⟩ := allowed
      obtain ⟨rfl, rfl⟩ := Prod.mk.inj (Option.some.inj stepped)
      refine Or.inl ⟨actual, rfl, sending, most, ?_, rfl⟩
      split
      · exact ⟨rfl, rfl⟩
      · exact (finish_bytes c _).trans (return_bytes c _)
    · cases stepped
  | refillBucket =>
    obtain ⟨rfl, rfl⟩ := Prod.mk.inj (Option.some.inj (idle stepped))
    exact Or.inr (Or.inl ⟨fun _ => Iff.rfl, refillBucket_bytes c s, rfl⟩)
  | connectionSucceeded =>
    obtain ⟨rfl, rfl⟩ := Prod.mk.inj (Option.some.inj (idle stepped))
    exact Or.inr (Or.inl ⟨fun _ => Iff.rfl, connectionSucceeded_bytes c s, rfl⟩)
  | sendData =>
    obtain ⟨rfl, rfl⟩ := Prod.mk.inj (Option.some.inj (idle stepped))
    exact Or.inr (Or.inr ⟨fun _ => trivial, sendData_bytes c s, rfl⟩)
  | connectionFailed =>
    obtain ⟨rfl, rfl⟩ := Prod.mk.inj (Option.some.inj (idle stepped))
    exact Or.inr (Or.inr ⟨fun _ => trivial, ⟨rfl, rfl⟩, rfl⟩)
  | stopApplication =>
    obtain ⟨rfl, rfl⟩ := Prod.mk.inj (Option.some.inj (idle stepped))
    exact Or.inr (Or.inr ⟨fun _ => trivial, ⟨rfl, rfl⟩, rfl⟩)

/-- `Send` takes from the bucket what it adds to the total. -/
theorem sent_bytes {actual : Int} (budget : c.Budget s) (most : actual ≤ (c.toSend s).toNat) :
    (sent actual s).totBytes.toNat = s.totBytes.toNat + actual.toNat ∧
      (sent actual s).totBytes.toNat + (sent actual s).bytesInBucket.toNat = s.totBytes.toNat + s.bytesInBucket.toNat := by
  have fromBucket : (c.toSend s).toNat ≤ s.bytesInBucket.toNat := by
    unfold toSend
    split
    · rename_i enough
      exact UInt64.le_iff_toNat_le.1 enough
    · exact Nat.le_refl _
  have small := c.maxBytes.toNat_lt
  unfold Budget at budget
  unfold sent
  split
  · have value : (UInt64.ofNat actual.toNat).toNat = actual.toNat := by
      rw [UInt64.toNat_ofNat']
      omega
    have taken : (s.bytesInBucket - UInt64.ofNat actual.toNat).toNat = s.bytesInBucket.toNat - actual.toNat := by
      rw [UInt64.toNat_sub_of_le, value]
      rw [UInt64.le_iff_toNat_le]
      omega
    dsimp only
    rw [UInt64.toNat_add, taken, value]
    omega
  · omega

/-- **A step** within the budget stays in it exactly if its refill fits, and the bytes it sends are counted. -/
theorem budget_step {l : Label} {shown : List Shown} (budget : c.Budget s) (stepped : c.step l s = some (t, shown)) :
    (c.Budget t ↔ c.EachFits l s) ∧ t.totBytes.toNat = s.totBytes.toNat + sentBytes shown := by
  rcases step_cases stepped with ⟨actual, rfl, -, most, same, rfl⟩ | ⟨asked, same, rfl⟩ | ⟨free, same, rfl⟩
  · obtain ⟨total, sum⟩ := sent_bytes budget most
    rw [same.budget, same.totBytes, total]
    constructor
    · unfold Budget at *
      exact iff_of_true (by omega) trivial
    · split <;> simp [sentBytes, Shown.bytes]
      omega
  · rw [same.budget, same.totBytes, asked]
    refine ⟨budget_grant budget, ?_⟩
    split <;> rfl
  · rw [same.budget, same.totBytes]
    exact ⟨iff_of_true budget (free s), rfl⟩

/-- A call of `SendData` that waits for `Send` has something to send. -/
def Waits (c : RateSend) (s : State) : Prop := s.sendingData = true → c.More s

theorem Waits.sendData (waits : c.Waits s) : c.Waits (c.sendData s) := by
  unfold RateSend.sendData
  split
  · exact waits
  · dsimp only
    split
    · rename_i more
      exact fun _ => more
    · intro sending
      cases sending

theorem refillBucket_waits (idle : s.sendingData = false) : c.Waits (c.refillBucket s).1 := by
  unfold refillBucket
  dsimp only
  rw [idle, if_neg Bool.false_ne_true]
  apply Waits.sendData
  intro sending
  cases sending

theorem connectionSucceeded_waits (idle : s.sendingData = false) : c.Waits (c.connectionSucceeded s).1 := by
  have refilled : c.Waits (c.refillBucket { s with connected := true }).1 := refillBucket_waits idle
  unfold connectionSucceeded
  dsimp only
  split
  · exact refilled
  · exact refilled.sendData

theorem waits_step {l : Label} {shown : List Shown} (waits : c.Waits s) (stepped : c.step l s = some (t, shown)) :
    c.Waits t := by
  cases l with
  | send actual =>
    have stepped : c.send actual s = some (t, shown) := stepped
    unfold send at stepped
    split at stepped
    · obtain ⟨rfl, rfl⟩ := Prod.mk.inj (Option.some.inj stepped)
      split
      · rename_i more
        exact fun _ => more.2
      · unfold return_
        split
        · apply Waits.sendData
          intro sending
          cases sending
        · intro sending
          cases sending
    · cases stepped
  | refillBucket =>
    have rest := idle_of_step stepped
    obtain ⟨rfl, rfl⟩ := Prod.mk.inj (Option.some.inj (idle stepped))
    exact refillBucket_waits rest
  | connectionSucceeded =>
    have rest := idle_of_step stepped
    obtain ⟨rfl, rfl⟩ := Prod.mk.inj (Option.some.inj (idle stepped))
    exact connectionSucceeded_waits rest
  | sendData =>
    obtain ⟨rfl, rfl⟩ := Prod.mk.inj (Option.some.inj (idle stepped))
    exact waits.sendData
  | connectionFailed =>
    obtain ⟨rfl, rfl⟩ := Prod.mk.inj (Option.some.inj (idle stepped))
    exact waits
  | stopApplication =>
    obtain ⟨rfl, rfl⟩ := Prod.mk.inj (Option.some.inj (idle stepped))
    exact waits

/-- Once everything was sent, nothing is sent and no refill is scheduled. -/
theorem done_step {l : Label} {shown : List Shown} (waits : c.Waits s) (done : s.totBytes = c.maxBytes)
    (stepped : c.step l s = some (t, shown)) : t.totBytes = c.maxBytes ∧ shown = [] := by
  rcases step_cases stepped with ⟨actual, rfl, sending, -, -, -⟩ | ⟨-, same, rfl⟩ | ⟨-, same, rfl⟩
  · exact absurd done.symm (waits sending).2
  · exact ⟨same.totBytes.trans done, if_neg (not_not_intro done.symm)⟩
  · exact ⟨same.totBytes.trans done, rfl⟩

/-- **The byte budget.** In every run all of whose refills fit, what was sent and what is granted stay within `MaxBytes`, and
the total is what was sent; a step from such a state stays within the budget exactly if its refill fits. In every run, once
the total is `MaxBytes` nothing more is sent and no refill is scheduled. -/
theorem budget_of_fits (c : RateSend) :
    (∀ s tr, Run c.step c.EachFits {} s tr →
      c.Budget s ∧ s.totBytes.toNat = sentBytes tr ∧ sentBytes tr ≤ c.maxBytes.toNat ∧ s.totBytes ≤ c.maxBytes) ∧
    (∀ s tr l t shown, Run c.step c.EachFits {} s tr → c.step l s = some (t, shown) → (c.Budget t ↔ c.EachFits l s)) ∧
    (∀ s tr t tr', Run c.step (fun _ _ => True) {} s tr → s.totBytes = c.maxBytes →
      Run c.step (fun _ _ => True) s t tr' → t.totBytes = c.maxBytes ∧ tr' = []) := by
  have within : ∀ s tr, Run c.step c.EachFits {} s tr → c.Budget s ∧ s.totBytes.toNat = sentBytes tr := by
    intro s tr run
    refine run.invariant (I := fun s tr => c.Budget s ∧ s.totBytes.toNat = sentBytes tr) ⟨Nat.zero_le _, rfl⟩ ?_
    intro t u tr os l ⟨budget, counted⟩ fits stepped
    obtain ⟨kept, total⟩ := budget_step budget stepped
    refine ⟨kept.2 fits, ?_⟩
    rw [total, counted, sentBytes, sentBytes, sentBytes, List.map_append, List.sum_append]
  refine ⟨fun s tr run => ?_, fun s tr l t shown run stepped => ?_, fun s tr t tr' before done later => ?_⟩
  · obtain ⟨budget, counted⟩ := within s tr run
    have most : s.totBytes.toNat ≤ c.maxBytes.toNat := Nat.le_of_add_right_le budget
    refine ⟨budget, counted, ?_, UInt64.le_iff_toNat_le.2 most⟩
    rw [← counted]
    exact most
  · exact (budget_step (within s tr run).1 stepped).1
  · have waits : c.Waits s := by
      refine before.invariant (I := fun s _ => c.Waits s) (fun sending => ?_) fun t u _ _ l waits _ stepped =>
        waits_step waits stepped
      cases sending
    have finished : (t.totBytes = c.maxBytes ∧ tr' = []) ∧ c.Waits t := by
      refine later.invariant (I := fun t tr' => (t.totBytes = c.maxBytes ∧ tr' = []) ∧ c.Waits t) ⟨⟨done, rfl⟩, waits⟩ ?_
      intro t u tr os l ⟨⟨done, nothing⟩, waits⟩ _ stepped
      obtain ⟨still, rfl⟩ := done_step waits done stepped
      exact ⟨⟨still, (List.append_nil tr).trans nothing⟩, waits_step waits stepped⟩
    exact finished.1

/-- A sender of 100 bytes. -/
def hundred : RateSend := { maxBytes := 100, bytesPerInterval := 100, sendSize := 60 }

/-- Everything is sent at once, and a refill later adds nothing. -/
theorem budget_hundred : ∃ s tr, Run hundred.step hundred.EachFits {} s tr ∧ sentBytes tr = 100 ∧ hundred.Budget s := by
  have whole : ∃ s tr, Run hundred.step hundred.EachFits {} s tr ∧ sentBytes tr = 100 :=
    Run.exists_of_guarded [.connectionSucceeded, .send 60, .send 40, .refillBucket] (by decide +kernel)
  obtain ⟨s, tr, run, sent⟩ := whole
  exact ⟨s, tr, run, sent, ((budget_of_fits hundred).1 s tr run).1⟩

/-- Two sends fail, the next refill grants the same bytes again, and the total jumps over the limit. -/
theorem over_budget :
    ∃ s tr, Run hundred.step (fun _ _ => True) {} s tr ∧
      ¬hundred.Budget s ∧ sentBytes tr = 120 ∧ hundred.maxBytes - s.totBytes = 0xffffffffffffffec := by
  have jumped : ∃ s tr, Run hundred.step (fun _ _ => True) {} s tr ∧
      (s.totBytes, s.bytesInBucket, sentBytes tr) = (120, 80, 120) :=
    Run.exists_of_guarded [.connectionSucceeded, .send (-1), .send (-1), .refillBucket, .send 60, .send 60] (by decide +kernel)
  obtain ⟨s, tr, run, facts⟩ := jumped
  obtain ⟨total, rest⟩ := Prod.mk.inj facts
  obtain ⟨bucket, sent⟩ := Prod.mk.inj rest
  refine ⟨s, tr, run, ?_, sent, ?_⟩
  · unfold Budget
    rw [total, bucket]
    decide
  · rw [total]
    decide

end

end RateSend

end Ns3Fancy.Apps
