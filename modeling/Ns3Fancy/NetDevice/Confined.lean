import Ns3Fancy.NetDevice.Delivery

/-!
# Frames to a learned address

Once every switch has heard from a device, and until the first of them forgets it, frames to the device are not flooded: they
take the path to it and no other node sees them.
-/

namespace Ns3Fancy.NetDevice.Lan
open NextHop Function
set_option autoImplicit false

variable {V π : Type} [DecidableEq V] {top : Topology V} {s s' : Lan V π} {tr os : List (LanObs V)} {x v w : V} {T : Int}

/-- `T` is ahead, and what a switch learns now it knows until `T`. -/
structure Soon (top : Topology V) (T : Int) (s : Lan V π) : Prop where
  later : s.now < T
  lasting : ∀ w, top.isSwitch w = true → T ≤ s.now + (top.config w).expirationTime

/-- A switch forgets nothing before its time. -/
theorem Moves.holds (moves : Moves top s s' os) (soon : Soon top T s) (switch : top.isSwitch w = true) {a : UInt64}
    (holds : Holds T (s.tables w) a) : Holds T (s'.tables w) a := by
  cases moves with
  | @send v frame r outs src sends =>
    by_cases here : w = v
    · subst here
      simp only [update_self]
      exact sends.holds T soon.later a holds
    · simp only [update_of_ne here]
      exact holds
  | @deliver c rest r outs perm takes =>
    by_cases here : w = c.target top
    · subst here
      simp only [update_self]
      exact (takes.holds switch T soon.later (soon.lasting _ switch)).1 a holds
    · simp only [update_of_ne here]
      exact holds
  | lose => exact holds
  | wait => exact holds

/-- A switch that takes a frame to a group knows its sender. -/
theorem Moves.heard (moves : Moves top s s' os) (oriented : Oriented top s tr) (soon : Soon top T s)
    (switch : top.isSwitch w = true) {n q : Nat} {dst : UInt64} (group : isGroup dst = true) (sent : .sent n x dst ∈ tr)
    (handled : .handled n w q ∈ os) : Holds T (s'.tables w) (top.address x) := by
  cases moves with
  | send => simp at handled
  | @deliver c rest r outs perm takes =>
    obtain ⟨rfl, rfl, -⟩ : n = c.id ∧ w = c.target top ∧ q = (top.peer c.node c.port).2 := by
      split at handled <;> simpa using handled
    obtain ⟨y, leaving⟩ := oriented.wire c (perm.mem_iff.2 List.mem_cons_self)
    obtain ⟨rfl, rfl⟩ := oriented.unique _ _ _ _ _ sent leaving.sent
    simp only [update_self]
    rw [← leaving.src]
    exact (takes.holds switch T soon.later (soon.lasting _ switch)).2 group
  | lose => simp at handled
  | wait => simp at handled

/-- Time does not go back. -/
theorem Moves.lasting (moves : Moves top s s' os)
    (lasting : ∀ w, top.isSwitch w = true → T ≤ s.now + (top.config w).expirationTime) :
    ∀ w, top.isSwitch w = true → T ≤ s'.now + (top.config w).expirationTime := by
  intro w switch
  have before := lasting w switch
  cases moves with
  | wait t => simp only; omega
  | send | deliver | lose => exact before

/-- Frames are numbered in the order in which they are sent. -/
theorem Moves.numbers (moves : Moves top s s' os) :
    s.next ≤ s'.next ∧ ∀ n v dst, .sent n v dst ∈ os → n = s.next := by
  cases moves with
  | send =>
    refine ⟨Nat.le_succ _, fun n v dst sent => ?_⟩
    rw [List.mem_singleton, LanObs.sent.injEq] at sent
    exact sent.1
  | deliver =>
    refine ⟨Nat.le_refl _, fun n v dst sent => ?_⟩
    split at sent <;> simp at sent
  | lose => exact ⟨Nat.le_refl _, by simp⟩
  | wait => exact ⟨Nat.le_refl _, by simp⟩

/-- A step does not both send a frame and deliver one. -/
theorem Moves.not_both (moves : Moves top s s' os) {n m q : Nat} {dst : UInt64} (sent : .sent n v dst ∈ os) :
    .handled m w q ∉ os := by
  cases moves with
  | send => simp
  | deliver => split at sent <;> simp at sent
  | lose => simp
  | wait => simp

theorem Delivers.sent_of_handled (h : Delivers top s tr) {n q : Nat} (handled : .handled n w q ∈ tr) :
    ∃ v dst, .sent n v dst ∈ tr := by
  obtain ⟨v, dst, -, sent, -⟩ := h.single.reached (n, w) (List.mem_append_left _ (handled_arrivals handled))
  exact ⟨v, dst, sent⟩

/-! ## Everybody knows the address -/

/-- Every switch has an entry for the address of `x` that holds until `T`. -/
def Known (top : Topology V) (x : V) (T : Int) (s : Lan V π) : Prop :=
  ∀ w, top.isSwitch w = true → w ≠ x → Holds T (s.tables w) (top.address x)

/-- The state after what happened before, and from then on. -/
structure Since (top : Topology V) (T : Int) (tr₀ : List (LanObs V)) (s : Lan V π) (tr : List (LanObs V)) : Prop where
  delivers : Delivers top s (tr₀ ++ tr)
  lasting : ∀ w, top.isSwitch w = true → T ≤ s.now + (top.config w).expirationTime

theorem Since.step (free : top.LoopFree) {tr₀ : List (LanObs V)} {l : LanLabel V π} (h : Since top T tr₀ s tr)
    (hstep : Lan.step top l s = some (s', os)) : Since top T tr₀ s' (tr ++ os) where
  delivers := by
    rw [← List.append_assoc]
    exact h.delivers.step free hstep
  lasting := (moves_of_step free h.delivers.oriented hstep).lasting h.lasting

/-- Switches that take a frame of `x` to a group know it as long as `T` is ahead. -/
theorem known_of_run (free : top.LoopFree) {tr₀ : List (LanObs V)} (start : Since top T tr₀ s [])
    (run : Lts.Run (Lan.step top) (fun _ s => s.now < T) s s' tr) : Since top T tr₀ s' tr ∧
      ∀ w n dst q, top.isSwitch w = true → isGroup dst = true → .sent n x dst ∈ tr₀ ++ tr → .handled n w q ∈ tr →
        Holds T (s'.tables w) (top.address x) := by
  refine run.invariant (I := fun s tr => Since top T tr₀ s tr ∧ ∀ w n dst q, top.isSwitch w = true → isGroup dst = true →
    .sent n x dst ∈ tr₀ ++ tr → .handled n w q ∈ tr → Holds T (s.tables w) (top.address x)) ⟨start, by simp⟩ ?_
  rintro t u tr os l ⟨since, heard⟩ later hstep
  have moves := moves_of_step free since.delivers.oriented hstep
  have soon : Soon top T t := ⟨later, since.lasting⟩
  refine ⟨since.step free hstep, fun w n dst q switch group sent handled => ?_⟩
  have after := since.delivers.step free hstep
  rw [← List.append_assoc] at sent
  rcases List.mem_append.1 handled with old | new
  · -- the frame was sent before it was handled
    obtain ⟨x', dst', sent'⟩ := since.delivers.sent_of_handled (List.mem_append_right _ old)
    obtain ⟨rfl, rfl⟩ := after.oriented.unique _ _ _ _ _ sent (List.mem_append_left _ sent')
    exact moves.holds soon switch (heard w n dst q switch group sent' old)
  · refine moves.heard since.delivers.oriented soon switch group ?_ new
    rcases List.mem_append.1 sent with before | now
    · exact before
    · exact absurd new (moves.not_both now)

/-! ## Confined frames -/

/-- The frames from number `n₁` on to `x` are on the path from their senders to it, and on their way. -/
structure OnPath (top : Topology V) (x : V) (n₁ : Nat) (s : Lan V π) (tr : List (LanObs V)) : Prop where
  wire : ∀ c ∈ s.wire, n₁ ≤ c.id → ∀ v, v ≠ x → .sent c.id v (top.address x) ∈ tr →
    Toward top.graph x c.node (c.target top) ∧ Between top.graph v x (c.target top)
  handled : ∀ n w q, .handled n w q ∈ tr → n₁ ≤ n → ∀ v, v ≠ x → .sent n v (top.address x) ∈ tr → Between top.graph v x w

theorem OnPath.start (h : Delivers top s tr) : OnPath top x s.next s tr where
  wire := fun _ _ new _ _ sent => absurd (h.oriented.fresh _ _ _ sent) (not_lt.2 new)
  handled := fun _ _ _ _ new _ _ sent => absurd (h.oriented.fresh _ _ _ sent) (not_lt.2 new)

omit [DecidableEq V] in
/-- Where a switch sends a copy that is on its way. -/
theorem Takes.stays (free : top.LoopFree) {c : Copy V π} {now : Int} {table : LearnTable} (leaving : c.Leaving top tr v)
    {r : LearnTable × List (Nat × Frame π) × Bool} {outs : List Nat}
    (takes : Takes top (c.target top) now (top.peer c.node c.port).2 c.frame table r outs) (other : v ≠ x)
    (dst : c.frame.dst = top.address x) (toward : Toward top.graph x c.node (c.target top))
    (known : top.isSwitch (c.target top) = true → c.target top ≠ x → ∃ T, now < T ∧ Holds T table (top.address x)) :
    ∀ p ∈ outs, Toward top.graph x (c.target top) (top.far (c.target top) p) := by
  refine takes.direct x dst ?_ ?_ known
  · rw [leaving.src]
    exact fun same => other (free.unique _ _ same)
  · have far := (free.far_back leaving.port).2
    rw [Copy.target] at toward ⊢
    rw [far]
    exact toward

theorem OnPath.step (free : top.LoopFree) {n₁ : Nat} (delivers : Delivers top s tr) (h : OnPath top x n₁ s tr)
    (soon : Soon top T s) (known : Known top x T s) (moves : Moves top s s' os) : OnPath top x n₁ s' (tr ++ os) := by
  have oriented := delivers.oriented
  cases moves with
  | @send v₀ frame r outs src sends =>
    have old : ∀ {n v dst}, .sent n v dst ∈ tr ++ [.sent s.next v₀ frame.dst] → n ≠ s.next → .sent n v dst ∈ tr := by
      intro n v dst mem notNext
      rw [List.mem_append, List.mem_singleton, LanObs.sent.injEq] at mem
      exact mem.resolve_right fun same => notNext same.1
    have notNext : ∀ {n v dst}, .sent n v dst ∈ tr → n ≠ s.next := fun sent => Nat.ne_of_lt (oriented.fresh _ _ _ sent)
    refine ⟨fun c mem new v other sent => ?_, fun n w q handled new v other sent => ?_⟩
    · rcases List.mem_append.1 mem with before | mem
      · obtain ⟨_, leaving⟩ := oriented.wire c before
        exact h.wire c before new v other (old sent (notNext leaving.sent))
      · obtain ⟨p, out, rfl⟩ := List.mem_map.1 mem
        rcases List.mem_append.1 sent with before | now
        · exact absurd rfl (notNext before)
        · simp only [List.mem_singleton, LanObs.sent.injEq, true_and] at now
          obtain ⟨rfl, dst⟩ := now
          have toward := sends.direct x other dst.symm (fun switch => ⟨T, soon.later, known v switch other⟩) p out
          exact ⟨toward, (between_self _ v x).step free.tree toward⟩
    · have before : .handled n w q ∈ tr := by simpa using handled
      obtain ⟨_, _, sent'⟩ := delivers.sent_of_handled before
      exact h.handled n w q before new v other (old sent (notNext sent'))
  | @deliver c rest r outs perm takes =>
    have before : ∀ {n v dst}, .sent n v dst ∈ tr ++ (.handled c.id (c.target top) (top.peer c.node c.port).2 ::
        if r.2.2 then [.up c.id (c.target top)] else []) → .sent n v dst ∈ tr := by
      intro n v dst mem
      rcases List.mem_append.1 mem with before | new
      · exact before
      · split at new <;> simp at new
    have here : c ∈ s.wire := perm.mem_iff.2 List.mem_cons_self
    refine ⟨fun c' mem new v other sent => ?_, fun n w q handled new v other sent => ?_⟩
    · rcases List.mem_append.1 mem with rest' | mem
      · exact h.wire c' (perm.mem_iff.2 (List.mem_cons_of_mem _ rest')) new v other (before sent)
      · obtain ⟨p, out, rfl⟩ := List.mem_map.1 mem
        obtain ⟨toward, between⟩ := h.wire c here new v other (before sent)
        obtain ⟨v', leaving⟩ := oriented.wire c here
        obtain ⟨rfl, dst⟩ := oriented.unique _ _ _ _ _ leaving.sent (before sent)
        have onward := Takes.stays free leaving takes other dst toward
          (fun switch further => ⟨T, soon.later, known _ switch further⟩) p out
        exact ⟨onward, between.step free.tree onward⟩
    · rcases List.mem_append.1 handled with old | now
      · exact h.handled n w q old new v other (before sent)
      · obtain ⟨rfl, rfl, -⟩ : n = c.id ∧ w = c.target top ∧ q = (top.peer c.node c.port).2 := by
          split at now <;> simpa using now
        exact (h.wire c here new v other (before sent)).2
  | @lose c rest perm =>
    have before : ∀ {n v dst}, .sent n v dst ∈ tr ++ [.lost c.id (c.target top)] → .sent n v dst ∈ tr := by
      intro n v dst mem
      simpa using mem
    refine ⟨fun c' mem new v other sent => ?_, fun n w q handled new v other sent => ?_⟩
    · exact h.wire c' (perm.mem_iff.2 (List.mem_cons_of_mem _ mem)) new v other (before sent)
    · exact h.handled n w q (by simpa using handled) new v other (before sent)
  | wait t =>
    rw [List.append_nil]
    exact ⟨h.wire, h.handled⟩

/-- **Frames to a known address are not flooded.** Every switch has taken a frame that `x` sent to a group, since a time from
which no entry has expired before `T`. Then until `T` frames to `x` are seen by the nodes on the path to it only. -/
theorem unicast_confined (free : top.LoopFree) {ok : LanLabel V π → Lan V π → Prop} {now : Int} {s₀ s₁ s₂ : Lan V π}
    {tr₀ tr₁ tr₂ : List (LanObs V)} (before : Lts.Run (Lan.step top) ok (Lan.start now) s₀ tr₀)
    (lasting : ∀ w, top.isSwitch w = true → T ≤ s₀.now + (top.config w).expirationTime)
    (announced : Lts.Run (Lan.step top) (fun _ s => s.now < T) s₀ s₁ tr₁)
    (heard : ∀ w, top.isSwitch w = true → w ≠ x → ∃ n dst q, isGroup dst = true ∧ .sent n x dst ∈ tr₀ ++ tr₁ ∧
      .handled n w q ∈ tr₁)
    (run : Lts.Run (Lan.step top) (fun _ s => s.now < T) s₁ s₂ tr₂) {n q : Nat} (other : v ≠ x)
    (sent : .sent n v (top.address x) ∈ tr₂) (handled : .handled n w q ∈ tr₂) : Between top.graph v x w := by
  have start : Since top T tr₀ s₀ [] := ⟨by rw [List.append_nil]; exact .of_run free before, lasting⟩
  obtain ⟨since, hears⟩ := known_of_run (x := x) free start announced
  have known : Known top x T s₁ := by
    intro w switch other
    obtain ⟨n, dst, q, group, sent, handled⟩ := heard w switch other
    exact hears w n dst q switch group sent handled
  have invariant : Since top T (tr₀ ++ tr₁) s₂ tr₂ ∧ Known top x T s₂ ∧ s₁.next ≤ s₂.next ∧
      (∀ n v dst, .sent n v dst ∈ tr₂ → s₁.next ≤ n) ∧ OnPath top x s₁.next s₂ ((tr₀ ++ tr₁) ++ tr₂) := by
    refine run.invariant (I := fun s tr => Since top T (tr₀ ++ tr₁) s tr ∧ Known top x T s ∧ s₁.next ≤ s.next ∧
      (∀ n v dst, .sent n v dst ∈ tr → s₁.next ≤ n) ∧ OnPath top x s₁.next s ((tr₀ ++ tr₁) ++ tr)) ?_ ?_
    · rw [List.append_nil]
      exact ⟨⟨by rw [List.append_nil]; exact since.delivers, since.lasting⟩, known, Nat.le_refl _, by simp,
        .start since.delivers⟩
    · rintro t u tr os l ⟨since, known, le, numbers, path⟩ later hstep
      have moves := moves_of_step free since.delivers.oriented hstep
      have soon : Soon top T t := ⟨later, since.lasting⟩
      obtain ⟨up, next⟩ := moves.numbers
      refine ⟨since.step free hstep, fun w switch other => moves.holds soon switch (known w switch other),
        Nat.le_trans le up, fun n v dst mem => ?_, ?_⟩
      · rcases List.mem_append.1 mem with old | new
        · exact numbers n v dst old
        · rw [next n v dst new]
          exact le
      · rw [← List.append_assoc]
        exact path.step free since.delivers soon known moves
  obtain ⟨-, -, -, numbers, path⟩ := invariant
  exact path.handled n w q (List.mem_append_right _ handled) (numbers n v _ sent) v other (List.mem_append_right _ sent)

/-- A station broadcasts, and then another one sends to it: the third one does not see the frame. -/
theorem unicast_confined_star : ∃ s₁ s₂ : Lan (Fin 5) Unit, ∃ tr₁ tr₂,
    Lts.Run (Lan.step starTopology) (fun _ s => s.now < 100) (Lan.start 0) s₁ tr₁ ∧
      Lts.Run (Lan.step starTopology) (fun _ s => s.now < 100) s₁ s₂ tr₂ ∧ .sent 1 1 18 ∈ tr₂ ∧ .handled 1 2 0 ∈ tr₂ ∧
      Between starTopology.graph 1 2 2 := by
  have computed : ∃ s₁ s₂ : Lan (Fin 5) Unit, ∃ tr₁ tr₂,
      Lts.Run (Lan.step starTopology) (fun _ s => s.now < 100) (Lan.start 0) s₁ tr₁ ∧
        Lts.Run (Lan.step starTopology) (fun _ s => s.now < 100) s₁ s₂ tr₂ ∧
        .sent 0 2 0xffffffffffff ∈ tr₁ ∧ .handled 0 0 2 ∈ tr₁ ∧ .sent 1 1 18 ∈ tr₂ ∧ .handled 1 2 0 ∈ tr₂ := by
    let soon : Lts.Step (Lan (Fin 5) Unit) (LanLabel (Fin 5) Unit) (LanObs (Fin 5)) := fun l s =>
      if s.now < 100 then Lan.step starTopology l s else none
    obtain ⟨s₁, tr₁, announced, shown⟩ : ∃ s₁ tr₁,
        Lts.Run (Lan.step starTopology) (fun _ s => s.now < 100) (Lan.start 0 : Lan (Fin 5) Unit) s₁ tr₁ ∧
        (tr₁, (Lts.exec soon [.send 1 18 0x0800 (), .deliver 3, .deliver 3] s₁).map Prod.snd) =
          ([.sent 0 2 0xffffffffffff, .handled 0 0 2, .up 0 0], some [.sent 1 1 18, .handled 1 0 1, .handled 1 2 0, .up 1 2]) :=
      Lts.Run.exists_of_guarded [.send 2 0xffffffffffff 0x0806 (), .deliver 0] (by decide +kernel)
    simp only [Prod.mk.injEq, Option.map_eq_some_iff, Prod.exists, exists_eq_right] at shown
    obtain ⟨rfl, s₂, run⟩ := shown
    exact ⟨s₁, s₂, _, _, announced, Lts.Run.of_guarded run, by decide, by decide, by decide, by decide⟩
  obtain ⟨s₁, s₂, tr₁, tr₂, announced, run, broadcast, heard, sent, handled⟩ := computed
  refine ⟨s₁, s₂, tr₁, tr₂, announced, run, sent, handled, ?_⟩
  have before : Lts.Run (Lan.step starTopology) (fun _ _ => True) (Lan.start 0) (Lan.start 0 : Lan (Fin 5) Unit) [] := .nil
  refine unicast_confined starTopology_loopFree before (by decide) announced ?_ run (by decide) sent handled
  intro w switch _
  obtain rfl : w = 0 := by revert w; decide
  exact ⟨0, _, 2, by decide, broadcast, heard⟩

end Ns3Fancy.NetDevice.Lan
