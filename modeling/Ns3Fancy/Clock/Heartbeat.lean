import Mathlib.Data.List.Chain

/-!
# Heartbeats over a link of constant latency

A sender looks at its link once every `period` and sends if it has not sent for that long; it may send at any other time
too. What it sends arrives after `latency`, in order. From the first arrival on, arrivals are less than two periods apart.
-/

namespace Ns3Fancy.Clock
set_option autoImplicit false

/-- The times of one direction of a link: `due` is when the sender looks next, `sent` when it sent last, `heard` when
something arrived last and `coming` when what is on the way arrives. -/
structure Heartbeat (period latency now due sent : Nat) (heard : Option Nat) (coming : List Nat) : Prop where
  sentBefore : sent ≤ now
  dueLater : now ≤ due
  often : due < sent + 2 * period
  comingLater : ∀ a ∈ coming, now ≤ a
  gaps : (heard.toList ++ coming).IsChain fun a b => b < a + 2 * period
  last : ∀ a ∈ (heard.toList ++ coming).getLast?, a = sent + latency
  opening : heard = none → ∀ a ∈ coming.head?, a ≤ period + latency
  silent : heard.toList ++ coming = [] → sent = 0 ∧ (due = 0 ∨ due = period)

namespace Heartbeat
variable {period latency now due sent : Nat} {heard : Option Nat} {coming : List Nat}

theorem start (positive : 0 < period) : Heartbeat period latency 0 0 0 none [] where
  sentBefore := Nat.le_refl 0
  dueLater := Nat.le_refl 0
  often := by omega
  comingLater a mem := (List.not_mem_nil mem).elim
  gaps := .nil
  last a mem := by cases mem
  opening _ a mem := by cases mem
  silent _ := ⟨rfl, .inl rfl⟩

/-- Time goes on once everything that is due has happened. -/
theorem tick (h : Heartbeat period latency now due sent heard coming) (notDue : now ≠ due) (notComing : ∀ a ∈ coming, now ≠ a) :
    Heartbeat period latency (now + 1) due sent heard coming :=
  { h with
    sentBefore := Nat.le_succ_of_le h.sentBefore
    dueLater := Nat.lt_of_le_of_ne h.dueLater notDue
    comingLater := fun a mem => Nat.lt_of_le_of_ne (h.comingLater a mem) (notComing a mem) }

/-- Something is sent. -/
theorem send (h : Heartbeat period latency now due sent heard coming) :
    Heartbeat period latency now due now heard (coming ++ [now + latency]) where
  sentBefore := Nat.le_refl now
  dueLater := h.dueLater
  often := Nat.lt_of_lt_of_le h.often (Nat.add_le_add_right h.sentBefore _)
  comingLater := by
    intro a mem
    rcases List.mem_append.1 mem with old | new
    · exact h.comingLater a old
    · rw [List.mem_singleton.1 new]
      exact Nat.le_add_right now latency
  gaps := by
    rw [← List.append_assoc]
    refine h.gaps.append (.singleton _) fun a mem b head => ?_
    obtain rfl := Option.some.inj head
    have lastSent := h.last a mem
    have soon := h.dueLater
    have often := h.often
    omega
  last := by
    intro a mem
    rw [← List.append_assoc, List.getLast?_append, List.getLast?_singleton, Option.some_or] at mem
    exact (Option.some.inj mem).symm
  opening := by
    intro unheard a mem
    cases coming with
    | nil =>
      obtain rfl := Option.some.inj mem
      obtain ⟨-, early⟩ := h.silent (by rw [unheard]; rfl)
      have soon := h.dueLater
      omega
    | cons first rest => exact h.opening unheard a mem
  silent empty := by simp at empty

/-- Several things are sent at once. -/
theorem sendAll {α : Type} (h : Heartbeat period latency now due sent heard coming) (items : List α) :
    Heartbeat period latency now due (if items = [] then sent else now) heard
      (coming ++ items.map fun _ => now + latency) := by
  induction items generalizing sent coming with
  | nil => simpa using h
  | cons item items ih =>
    have rest := ih h.send
    simp only [ite_self] at rest
    simpa using rest

/-- The sender has looked and has sent, or has sent within the last period. -/
theorem rearm (h : Heartbeat period latency now due sent heard coming) (looks : now = due) (recent : now < sent + period) :
    Heartbeat period latency now (now + period) sent heard coming :=
  { h with
    dueLater := Nat.le_add_right now period
    often := by omega
    silent := fun empty => by
      obtain ⟨unsent, early⟩ := h.silent empty
      refine ⟨unsent, .inr ?_⟩
      omega }

/-- The next arrival. -/
theorem hear (h : Heartbeat period latency now due sent heard (now :: coming)) :
    Heartbeat period latency now due sent (some now) coming where
  sentBefore := h.sentBefore
  dueLater := h.dueLater
  often := h.often
  comingLater a mem := h.comingLater a (List.mem_cons_of_mem now mem)
  gaps := h.gaps.right_of_append
  last a mem := by
    refine h.last a ?_
    rw [List.getLast?_append, show (now :: coming).getLast? = some a from mem]
    rfl
  opening unheard := by cases unheard
  silent empty := by simp at empty

/-- **After the first period and the latency, something has arrived within the last two periods.** -/
theorem recent (h : Heartbeat period latency now due sent heard coming) (settled : period + latency < now) :
    ∃ arrived ∈ heard, now < arrived + 2 * period := by
  have soon := h.dueLater
  have often := h.often
  cases heard with
  | none =>
    cases coming with
    | nil =>
      obtain ⟨-, early⟩ := h.silent rfl
      omega
    | cons a rest =>
      have first := h.opening rfl a rfl
      have later := h.comingLater a (List.mem_cons_self ..)
      omega
  | some arrived =>
    refine ⟨arrived, rfl, ?_⟩
    cases coming with
    | nil =>
      have lastSent := h.last arrived rfl
      omega
    | cons a rest =>
      have gap : a < arrived + 2 * period := (List.isChain_cons_cons.1 h.gaps).1
      have later := h.comingLater a (List.mem_cons_self ..)
      omega

end Heartbeat

end Ns3Fancy.Clock
