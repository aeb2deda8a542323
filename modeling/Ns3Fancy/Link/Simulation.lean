import Ns3Fancy.Link.Packets

/-!
# Every run of a link is a run of each of its sessions

For every direction and every machine id the link runs one session protocol: its sender at the port the
direction leaves, its receiver at the other port, and on the two wires the messages of that machine. A step of the
link is answered by steps of that session which show the same.
-/

namespace Ns3Fancy.Link
open Switch Buffer Function Session
set_option autoImplicit false

section
variable (cfg : FancyConfig)

/-- The ports are settled, and `F` is what the frames on the wires mean. -/
structure Wired (s : System) (F : Bool → List Msg) : Prop where
  settled : ∀ d, Settled cfg (s.port d)
  reads : ∀ d, List.Forall₂ (Reads cfg) (s.wire d) (F d)

/-- The session of machine `id` in direction `d`. -/
def view (d : Bool) (id : Nat) (s : System) (F : Bool → List Msg) : MachinePair where
  s := senders cfg (s.port d) id
  r := receivers cfg (s.port !d) id
  fwd := (F d).filterMap (Msg.fwdFor cfg id)
  bwd := (F !d).filterMap (Msg.bwdFor id)

/-- What the sender of a session shows; the rest is its receiver's. -/
def bySender : Obs FiveTuple Report Closing → Bool
  | .counted _ _ _ | .consumed _ _ _ => true
  | .gotStop _ | .reported _ => false

/-- What the link shows of a session. -/
def image (d : Bool) (id : Nat) (x : Seen) : List (Obs FiveTuple Report Closing) :=
  (logObs cfg id x.lost x.log).filter fun o => bySender o == (x.side == d)

/-- The steps of a session with which a step of the link may be answered. -/
def Causes (d : Bool) (id : Nat) (s : System) (F : Bool → List Msg) (l : Label cfg) :
    Session.Label FiveTuple → MachinePair → Prop
  | .fireS, _ | .deliverB, _ => True
  | .egress _ lost, _ => ∃ pkt earlier, l = .egress d pkt earlier lost
  | .fireR _, P => P = view cfg d id s F ∧ ∃ i u, l = .fire (!d) i ∧
      (s.port !d).events.pending[i]? = some (u, .sendGreyCounter id)
  | .deliverF, P => P = view cfg d id s F ∧ l = .deliver d ∧ ∃ msg rest fwd, F d = msg :: rest ∧
      msg.fwdFor cfg id = some fwd
  | .loseF k, P => P = view cfg d id s F ∧ ∃ i frame msg fwd, l = .lose d i ∧ (s.wire d)[i]? = some frame ∧
      Reads cfg frame msg ∧ msg.fwdFor cfg id = some fwd ∧ P.fwd[k]? = some fwd
  | .loseB _, _ => (∃ i, l = .lose (!d) i) ∨ Drops cfg l s

/-- A session answers a step of the link. -/
abbrev Answers (d : Bool) (id : Nat) (s : System) (F : Bool → List Msg) (l : Label cfg) (P : MachinePair)
    (os : List (Obs FiveTuple Report Closing)) : Prop :=
  Lts.Run (Session.step (variant cfg id) (meter cfg id)) (Causes cfg d id s F l) (view cfg d id s F) P os

end

section
variable {cfg : FancyConfig} {s : System} {F : Bool → List Msg} {d e : Bool} {id : Nat} {l : Label cfg}

/-! ## Views after a step -/

/-- The messages on the wires after port `e` has sent `ms`. -/
def appended (F : Bool → List Msg) (e : Bool) (ms : List Msg) : Bool → List Msg := update F e (F e ++ ms)

theorem Wired.after (w : Wired cfg s F) {o : Outcome} {ms : List Msg} (settled : Settled cfg o.port)
    (sent : List.Forall₂ (Reads cfg) o.sent ms) (e : Bool) : Wired cfg (s.after e o) (appended F e ms) where
  settled d := by
    by_cases here : d = e
    · subst here; simpa [System.after] using settled
    · simpa [System.after, here] using w.settled d
  reads d := by
    by_cases here : d = e
    · subst here; simpa [System.after, appended] using List.rel_append (w.reads d) sent
    · simpa [System.after, appended, here] using w.reads d

/-- The step was at the sender of the session. -/
theorem view_after_sender (s : System) (F : Bool → List Msg) (d : Bool) (id : Nat) (o : Outcome) (ms : List Msg) :
    view cfg d id (s.after d o) (appended F d ms) = { view cfg d id s F with
      s := senders cfg o.port id
      fwd := (view cfg d id s F).fwd ++ ms.filterMap (Msg.fwdFor cfg id) } := by
  have other : (!d) ≠ d := by cases d <;> decide
  simp [view, System.after, appended, other]

/-- The step was at the receiver of the session. -/
theorem view_after_receiver (s : System) (F : Bool → List Msg) (d : Bool) (id : Nat) (o : Outcome) (ms : List Msg) :
    view cfg d id (s.after (!d) o) (appended F (!d) ms) = { view cfg d id s F with
      r := receivers cfg o.port id
      bwd := (view cfg d id s F).bwd ++ ms.filterMap (Msg.bwdFor id) } := by
  have other : d ≠ (!d) := by cases d <;> decide
  simp [view, System.after, appended, other]

/-- Nothing changed for the session. -/
theorem Answers.same {P : MachinePair} {os : List (Obs FiveTuple Report Closing)} (same : P = view cfg d id s F)
    (quiet : os = []) : Answers cfg d id s F l P os := by
  subst same quiet
  exact .nil

/-- The session answers with one step. -/
theorem Answers.single (label : Session.Label FiveTuple) {P : MachinePair} {os : List (Obs FiveTuple Report Closing)}
    (cause : Causes cfg d id s F l label (view cfg d id s F))
    (hstep : Session.step (variant cfg id) (meter cfg id) label (view cfg d id s F) = some (P, os)) :
    Answers cfg d id s F l P os :=
  Lts.Run.single cause hstep

theorem image_seen (o : Outcome) (e lost d : Bool) (id : Nat) :
    (o.seen e lost).flatMap (image cfg d id) =
      (o.log.flatMap (logObs cfg id lost)).filter fun x => bySender x == (e == d) := by
  simp only [Outcome.seen, List.flatMap_map, image, List.filter_flatMap]

theorem eq_or_eq_not (e d : Bool) : e = d ∨ e = !d := by cases e <;> cases d <;> simp

/-! ## Messages -/

theorem fwdFor_ofFwd {m : Fwd FiveTuple Request} (control : ∀ tag flow, m ≠ .data tag flow) (j id : Nat) :
    (Msg.ofFwd j m).fwdFor cfg id = if j = id then some m else none := by
  cases m with
  | data tag flow => exact absurd rfl (control tag flow)
  | start | stop | ack => rfl

@[simp] theorem bwdFor_ofFwd (m : Fwd FiveTuple Request) (j id : Nat) : (Msg.ofFwd j m).bwdFor id = none := by
  cases m <;> rfl

@[simp] theorem bwdFor_ofBwd (m : Bwd Report) (j id : Nat) :
    (Msg.ofBwd j m).bwdFor id = if j = id then some m else none := by
  cases m <;> rfl

@[simp] theorem fwdFor_ofBwd (m : Bwd Report) (j id : Nat) : (Msg.ofBwd j m).fwdFor cfg id = none := by
  cases m <;> rfl

theorem fire_control (V : Variant) (M : Meter FiveTuple Count Count Request Report Closing) (x : Sender Count)
    (tag : Option Nat) (flow : FiveTuple) : (x.fire V M).2 ≠ .data tag flow := by
  cases phase : x.phase <;> simp only [Sender.fire, phase]
  · split <;> simp
  · split <;> simp
  · simp
  · simp

theorem handle_control (V : Variant) (M : Meter FiveTuple Count Count Request Report Closing) (x : Sender Count)
    (m : Bwd Report) : ∀ fwd ∈ (x.handle V M m).2.1, ∀ tag flow, fwd ≠ .data tag flow := by
  have reaction := x.reaction V M m
  generalize x.handle V M m = react at *
  cases reaction <;> simp

/-- The answers of a sender, as its machine's messages. -/
theorem fwdFor_answers (j id : Nat) {fs : List (Fwd FiveTuple Request)} (control : ∀ m ∈ fs, ∀ tag flow, m ≠ .data tag flow) :
    (fs.map (Msg.ofFwd j)).filterMap (Msg.fwdFor cfg id) = if j = id then fs else [] := by
  induction fs with
  | nil => simp
  | cons m fs ih =>
    obtain ⟨first, others⟩ := List.forall_mem_cons.1 control
    simp only [List.map_cons, List.filterMap_cons, fwdFor_ofFwd first, ih others]
    by_cases same : j = id <;> simp [same]

/-- What a sender shows when it handles a message is a sender's. -/
theorem handle_shown (V : Variant) (M : Meter FiveTuple Count Count Request Report Closing) (x : Sender Count)
    (m : Bwd Report) (own : Bool) :
    (x.handle V M m).2.2.filter (fun o => bySender o == own) = if own then (x.handle V M m).2.2 else [] := by
  have reaction := x.reaction V M m
  generalize x.handle V M m = react at *
  cases reaction <;> cases own <;> simp [bySender]

/-! ## Timers -/

/-- What a step of the link leads to, with an answer from every session. -/
def Simulated (cfg : FancyConfig) (s : System) (F : Bool → List Msg) (l : Label cfg) (s' : System) (os : List Seen) :
    Prop :=
  ∃ F', Wired cfg s' F' ∧ ∀ d id, Answers cfg d id s F l (view cfg d id s' F') (os.flatMap (image cfg d id))

theorem Wired.fire_send (w : Wired cfg s F) {i u j : Nat} {action : UInt8} {o : Outcome}
    (at_ : (s.port e).events.pending[i]? = some (u, .sendGreyAction action j))
    (run : runEvent cfg { s.port e with events :=
      { (s.port e).events with pending := (s.port e).events.pending.eraseIdx i } } (.sendGreyAction action j) = some o) :
    Simulated cfg s F (.fire e i) (s.after e o) (o.seen e false) := by
  obtain ⟨settled, log, receivers, senders, sent⟩ := (w.settled e).runEvent_send at_ run
  refine ⟨_, w.after settled sent e, fun d id => ?_⟩
  have quiet : (o.seen e false).flatMap (image cfg d id) = [] := by rw [image_seen, log]; rfl
  rcases eq_or_eq_not e d with rfl | rfl
  · rw [quiet, view_after_sender, senders]
    by_cases here : id = j
    · subst here
      rw [update_self]
      refine .single .fireS trivial ?_
      simp [Session.step, fwdFor_ofFwd (fire_control _ _ _), view, Link.senders]
    · exact .same (by simp [fwdFor_ofFwd (fire_control _ _ _), here, Ne.symm here, view]) rfl
  · rw [quiet, view_after_receiver, receivers]
    exact .same (by simp [view]) rfl

theorem Wired.fire_recv (w : Wired cfg s F) {i u j : Nat} {o : Outcome}
    (at_ : (s.port e).events.pending[i]? = some (u, .sendGreyCounter j))
    (run : runEvent cfg { s.port e with events :=
      { (s.port e).events with pending := (s.port e).events.pending.eraseIdx i } } (.sendGreyCounter j) = some o) :
    Simulated cfg s F (.fire e i) (s.after e o) (o.seen e false) := by
  obtain ⟨f, fired, settled, log, senders, receivers, sent⟩ := (w.settled e).runEvent_recv at_ run
  refine ⟨_, w.after settled sent e, fun d id => ?_⟩
  rcases eq_or_eq_not e d with rfl | rfl
  · rw [image_seen, log, view_after_sender, senders]
    refine .same (by simp [view]) ?_
    by_cases here : j = id <;> simp [logObs, here, bySender]
  · rw [image_seen, log, view_after_receiver, receivers]
    by_cases here : id = j
    · subst here
      rw [update_self]
      refine .single (.fireR _) ⟨rfl, i, u, rfl, at_⟩ ((congrArg (Option.map _) fired).trans ?_)
      simp [view, logObs, bySender, Link.receivers]
    · refine .same (by simp [view, here, Ne.symm here]) (by simp [logObs, Ne.symm here])

/-! ## Packets that leave -/

theorem probe_reads : Reads cfg (controlFrame {}) .probe :=
  have parsed : parse (controlFrame {}) = some (({ fancy := some (FancyHeader.bare {}) } : Headers cfg.ns3), []) :=
    parse_plain rfl (by decide) (by decide)
  .probe parsed rfl rfl

theorem Wired.probe (w : Wired cfg s F) (e : Bool) : Simulated cfg s F (.probe e)
    { s with wire := update s.wire e (s.wire e ++ [controlFrame {}]) } [] := by
  have same : ({ s with wire := update s.wire e (s.wire e ++ [controlFrame {}]) } : System) =
      s.after e { port := s.port e, sent := [controlFrame {}] } := by
    simp only [System.after, update_eq_self]
  rw [same]
  refine ⟨_, w.after (w.settled e) (.cons probe_reads .nil) e, fun d id => ?_⟩
  rcases eq_or_eq_not e d with rfl | rfl
  · rw [view_after_sender]
    exact .same (by simp [view, Msg.fwdFor]) rfl
  · rw [view_after_receiver]
    exact .same (by simp [view, Msg.bwdFor]) rfl

theorem Wired.egress (w : Wired cfg s F) {pkt : HostPacket cfg} {earlier : Option (UInt32 × UInt16)} {lost : Bool}
    {o : Outcome} (run : emit cfg (s.port e) pkt earlier = some o) : Simulated cfg s F (.egress e pkt earlier lost)
      (s.after e (if lost then { o with sent := [] } else o)) (o.seen e lost) := by
  generalize left : (if lost then { o with sent := [] } else o) = o'
  have port : o'.port = o.port := by rw [← left]; split <;> rfl
  have log : o'.log = o.log := by rw [← left]; split <;> rfl
  cases (w.settled e).emit run with
  | taken settled receivers senders sent quiet =>
    have nothing : o'.sent = [] := by rw [← left]; split <;> simp [sent]
    have sent' : List.Forall₂ (Reads cfg) o'.sent [] := by rw [nothing]; exact .nil
    refine ⟨_, w.after (port ▸ settled) sent' e, fun d id => ?_⟩
    rw [image_seen, quiet]
    rcases eq_or_eq_not e d with rfl | rfl
    · rw [view_after_sender, port, senders]
      exact .same (by simp [view]) rfl
    · rw [view_after_receiver, port, receivers]
      exact .same (by simp [view]) rfl
  | left settled receivers senders sent counted _ =>
    generalize flow_eq : getFlowFiveTuple pkt.val.headers = flow at *
    generalize ip_eq : pkt.val.headers.ipv4.isSome = ip at *
    have sent' : List.Forall₂ (Reads cfg) o'.sent (if lost then [] else
        [.data flow ip (leavingTag cfg (s.port e) flow ip) (sessionTag (Link.senders cfg (s.port e) cfg.wildcardId))]) := by
      rw [← left]
      cases lost
      · exact sent
      · exact .nil
    refine ⟨_, w.after (port ▸ settled) sent' e, fun d id => ?_⟩
    rw [image_seen, counted]
    rcases eq_or_eq_not e d with rfl | rfl
    · rw [view_after_sender, port, senders]
      by_cases moves : Meters cfg flow ip id ∧ (id = cfg.wildcardId ∨ (Link.senders cfg (s.port e) id).phase = .counting)
      · refine .single (.egress flow lost) ⟨pkt, earlier, rfl⟩ ?_
        have message := @fwdFor_leaving cfg (s.port e) flow ip id
        rw [if_pos moves] at message
        rw [if_pos moves.1]
        simp only [moves.1, true_and]
        cases lost with
        | false =>
          simp only [Session.step, view, Bool.false_eq_true, if_false, List.filterMap_cons, message, List.filterMap_nil]
          split <;> rename_i phase <;> simp [bySender, phase]
        | true =>
          simp only [Session.step, view, if_true, List.filterMap_nil, List.append_nil]
          split <;> rename_i phase <;> simp [bySender, phase]
      · have idle : Meters cfg flow ip id → ¬(Link.senders cfg (s.port e) id).phase = .counting :=
          fun meters phase => moves ⟨meters, Or.inr phase⟩
        have same : (if Meters cfg flow ip id then ((Link.senders cfg (s.port e) id).emit (variant cfg id) (meter cfg id)
            flow).1 else Link.senders cfg (s.port e) id) = Link.senders cfg (s.port e) id := by
          split
          · rename_i meters
            rw [Sender.emit, if_neg (idle meters)]
          · rfl
        rw [same, if_neg (not_and.2 idle)]
        refine .same ?_ rfl
        cases lost <;> simp [view, fwdFor_leaving, moves]
    · rw [view_after_receiver, port, receivers]
      refine .same ?_ ?_
      · cases lost <;> simp [view, Msg.bwdFor]
      · split <;> simp [bySender]

/-! ## Frames that are lost -/

theorem filterMap_eraseIdx {α β : Type} (f : α → Option β) {xs : List α} {i : Nat} {x : α} (at_ : xs[i]? = some x) :
    (f x = none ∧ (xs.eraseIdx i).filterMap f = xs.filterMap f) ∨
      ∃ k y, f x = some y ∧ (xs.filterMap f)[k]? = some y ∧ (xs.eraseIdx i).filterMap f = (xs.filterMap f).eraseIdx k := by
  induction xs generalizing i with
  | nil => simp at at_
  | cons z zs ih =>
    cases i with
    | zero =>
      simp only [List.getElem?_cons_zero, Option.some.injEq] at at_
      subst at_
      cases image : f z with
      | none => exact Or.inl ⟨rfl, by simp [image]⟩
      | some y => exact Or.inr ⟨0, y, rfl, by simp [image], by simp [image]⟩
    | succ i =>
      simp only [List.getElem?_cons_succ] at at_
      cases image : f z with
      | none => simpa [image] using ih at_
      | some y =>
        rcases ih at_ with ⟨none, same⟩ | ⟨k, y', some, there, erased⟩
        · exact Or.inl ⟨none, by simp [image, same]⟩
        · exact Or.inr ⟨k + 1, y', some, by simp [image, there], by simp [image, erased]⟩

theorem forall₂_eraseIdx {α β : Type} {R : α → β → Prop} {xs : List α} {ys : List β} (h : List.Forall₂ R xs ys) (i : Nat) :
    List.Forall₂ R (xs.eraseIdx i) (ys.eraseIdx i) := by
  rw [List.eraseIdx_eq_take_drop_succ, List.eraseIdx_eq_take_drop_succ]
  exact List.rel_append (List.forall₂_take _ h) (List.forall₂_drop _ h)

theorem Wired.lose (w : Wired cfg s F) (e : Bool) (i : Nat) : Simulated cfg s F (.lose e i)
    { s with wire := update s.wire e ((s.wire e).eraseIdx i) } [] := by
  have reads : ∀ d, List.Forall₂ (Reads cfg) (update s.wire e ((s.wire e).eraseIdx i) d)
      (update F e ((F e).eraseIdx i) d) := by
    intro d
    by_cases here : d = e
    · subst here; simpa using forall₂_eraseIdx (w.reads d) i
    · simpa [here] using w.reads d
  refine ⟨_, ⟨w.settled, reads⟩, fun d id => ?_⟩
  have length := (w.reads e).length_eq
  rcases Nat.lt_or_ge i (F e).length with inside | outside
  swap
  · have same : (F e).eraseIdx i = F e := List.eraseIdx_of_length_le outside
    exact .same (by rw [same, update_eq_self]; rfl) rfl
  have at_ : (F e)[i]? = some (F e)[i] := List.getElem?_eq_getElem inside
  have frame : (s.wire e)[i]? = some (s.wire e)[i] := List.getElem?_eq_getElem (by omega)
  have read : Reads cfg (s.wire e)[i] (F e)[i] := (w.reads e).get (by omega) inside
  rcases eq_or_eq_not e d with rfl | rfl
  · have other : (!e) ≠ e := by cases e <;> decide
    rcases filterMap_eraseIdx (Msg.fwdFor cfg id) at_ with ⟨-, same⟩ | ⟨k, m, isMsg, there, erased⟩
    · exact .same (by simp [view, other, same]) rfl
    · refine .single (.loseF k) ⟨rfl, i, _, _, m, rfl, frame, read, isMsg, there⟩ ?_
      simp [Session.step, view, other, erased]
  · have other : d ≠ (!d) := by cases d <;> decide
    rcases filterMap_eraseIdx (Msg.bwdFor id) at_ with ⟨-, same⟩ | ⟨k, m, isMsg, there, erased⟩
    · exact .same (by simp [view, other, same]) rfl
    · refine .single (.loseB k) (Or.inl ⟨i, rfl⟩) ?_
      simp [Session.step, view, other, erased]

/-! ## Frames that arrive -/

/-- The link when the oldest frame of a wire has been taken off it. -/
def System.popped (s : System) (e : Bool) (rest : List Frame) : System := { s with wire := update s.wire e rest }

section
variable {frame : Frame} {rest : List Frame} {msg : Msg} {restF : List Msg}

theorem Wired.popped (w : Wired cfg s F) (hwire : s.wire e = frame :: rest) :
    ∃ msg restF, F e = msg :: restF ∧ Reads cfg frame msg ∧ Wired cfg (s.popped e rest) (update F e restF) := by
  have reads := w.reads e
  rw [hwire] at reads
  cases hF : F e with
  | nil => rw [hF] at reads; cases reads
  | cons msg restF =>
    rw [hF] at reads
    obtain ⟨read, reads⟩ := List.forall₂_cons.1 reads
    refine ⟨msg, restF, rfl, read, w.settled, fun d => ?_⟩
    by_cases here : d = e
    · subst here; simpa [System.popped] using reads
    · simpa [System.popped, here] using w.reads d

theorem view_popped_fwd (s : System) (F : Bool → List Msg) (d : Bool) (id : Nat) (rest : List Frame) (restF : List Msg) :
    view cfg d id (s.popped d rest) (update F d restF) =
      { view cfg d id s F with fwd := restF.filterMap (Msg.fwdFor cfg id) } := by
  have other : (!d) ≠ d := by cases d <;> decide
  simp [view, System.popped, other]

theorem view_popped_bwd (s : System) (F : Bool → List Msg) (d : Bool) (id : Nat) (rest : List Frame) (restF : List Msg) :
    view cfg d id (s.popped (!d) rest) (update F (!d) restF) =
      { view cfg d id s F with bwd := restF.filterMap (Msg.bwdFor id) } := by
  have other : d ≠ (!d) := by cases d <;> decide
  simp [view, System.popped, other]

/-- A receiver answers a message with one message at most. -/
theorem handle_answer {V : Variant} {M : Meter FiveTuple Count Count Request Report Closing} {x : Receiver Count}
    {m : Fwd FiveTuple Request} {bs : List (Bwd Report)} (answers : (x.handle V M m).2 = bs) (some : bs ≠ []) :
    ∃ b, bs = [b] := by
  have reaction := x.reaction V M m
  generalize x.handle V M m = react at *
  cases reaction with
  | opens => exact ⟨_, answers.symm⟩
  | stops | acknowledged | counts | ignores => exact absurd answers.symm some

/-- A message of the other side's sender is handled by the receiver of its machine. -/
theorem Wired.deliver_fwd (w : Wired cfg (s.popped e rest) (update F e restF)) {j : Nat} {m : Fwd FiveTuple Request}
    (hF : F e = .ofFwd j m :: restF) (control : ∀ tag flow, m ≠ .data tag flow) {o : Outcome}
    (drops : o.dropped = true → Drops cfg (.deliver e) s) (handled : HandledFwd cfg (s.port !e) j m o) :
    Simulated cfg s F (.deliver e) ((s.popped e rest).after (!e) o) (o.seen (!e) false) := by
  obtain ⟨settled, senders, receivers, log, answers⟩ := handled
  generalize hanswers : ((receiverView cfg j (s.port !e)).handle (variant cfg j) (meter cfg j) m).2 = bs at answers
  obtain ⟨ms, sent, hms⟩ : ∃ ms, List.Forall₂ (Reads cfg) o.sent ms ∧
      (o.dropped = false ∧ ms = bs.map (.ofBwd j) ∨ o.dropped = true ∧ ms = [] ∧ bs ≠ []) := by
    rcases answers with ⟨kept, sent⟩ | ⟨dropped, sent, some⟩
    · exact ⟨_, sent, Or.inl ⟨kept, rfl⟩⟩
    · exact ⟨[], by rw [sent]; exact .nil, Or.inr ⟨dropped, rfl, some⟩⟩
  have noFwd : ∀ id, ms.filterMap (Msg.fwdFor cfg id) = [] := by
    intro id
    rcases hms with ⟨-, rfl⟩ | ⟨-, rfl, -⟩
    · simp [List.filterMap_map]
    · rfl
  refine ⟨_, w.after settled sent (!e), fun d id => ?_⟩
  rw [image_seen, log]
  rcases eq_or_eq_not e d with rfl | rfl
  · rw [view_after_receiver, view_popped_fwd, receivers]
    by_cases here : id = j
    · subst here
      have hfwd : (view cfg e id s F).fwd = m :: restF.filterMap (Msg.fwdFor cfg id) := by
        simp [view, hF, fwdFor_ofFwd control]
      have shown : ((fwdLog id m).flatMap (logObs cfg id false)).filter (fun x => bySender x == ((!e) == e)) = m.seen := by
        cases m <;> simp [fwdLog, logObs, Fwd.seen, bySender]
      have deliver : Session.step (variant cfg id) (meter cfg id) .deliverF (view cfg e id s F) = some
          ({ view cfg e id s F with
              r := ((receiverView cfg id (s.port !e)).handle (variant cfg id) (meter cfg id) m).1
              fwd := restF.filterMap (Msg.fwdFor cfg id)
              bwd := (view cfg e id s F).bwd ++ bs }, m.seen) := by
        rw [← hanswers]
        simp only [Session.step, hfwd]
        rfl
      have cause : Causes cfg e id s F (.deliver e) .deliverF (view cfg e id s F) :=
        ⟨rfl, rfl, _, _, _, hF, by rw [fwdFor_ofFwd control, if_pos rfl]⟩
      rw [shown, update_self]
      rcases hms with ⟨-, rfl⟩ | ⟨dropped, rfl, some⟩
      · refine .single .deliverF cause (deliver.trans ?_)
        simp [List.filterMap_map]
      · obtain ⟨b, rfl⟩ : ∃ b, bs = [b] := handle_answer hanswers some
        -- the answer was on its way for a moment only
        have answered : Answers cfg e id s F (.deliver e) _ _ := .single .deliverF cause deliver
        have taken : Causes cfg e id s F (.deliver e) (.loseB (view cfg e id s F).bwd.length)
            { view cfg e id s F with
              r := ((receiverView cfg id (s.port !e)).handle (variant cfg id) (meter cfg id) m).1
              fwd := restF.filterMap (Msg.fwdFor cfg id)
              bwd := (view cfg e id s F).bwd ++ [b] } := Or.inr (drops dropped)
        have lost := answered.snoc taken rfl
        rw [List.append_nil, List.eraseIdx_append_of_length_le (Nat.le_refl _)] at lost
        simpa using! lost
    · have nothing : ms.filterMap (Msg.bwdFor id) = [] := by
        rcases hms with ⟨-, rfl⟩ | ⟨-, rfl, -⟩
        · simp [List.filterMap_map, Ne.symm here]
        · rfl
      refine .same ?_ ?_
      · rw [update_of_ne here, nothing]
        simp [view, hF, fwdFor_ofFwd control, Ne.symm here]
      · cases m <;> simp [fwdLog, logObs, Ne.symm here]
  · rw [Bool.not_not] at *
    rw [view_after_sender, view_popped_bwd, senders, noFwd]
    refine .same ?_ ?_
    · simp [view, hF]
    · cases m <;> simp [fwdLog, logObs, bySender]

/-- A message of the other side's receiver is handled by the sender of its machine, unless the reroute block takes it. -/
theorem Wired.deliver_bwd (w : Wired cfg (s.popped e rest) (update F e restF)) {j : Nat} {m : Bwd Report}
    (hF : F e = .ofBwd j m :: restF) {o : Outcome} (drops : o.dropped = true → Drops cfg (.deliver e) s)
    (handled : HandledBwd cfg (s.port !e) j m o) :
    Simulated cfg s F (.deliver e) ((s.popped e rest).after (!e) o) (o.seen (!e) false) := by
  cases handled with
  | taken dropped settled receivers senders sent log =>
    have sent' : List.Forall₂ (Reads cfg) o.sent [] := by rw [sent]; exact .nil
    refine ⟨_, w.after settled sent' (!e), fun d id => ?_⟩
    rw [image_seen, log]
    rcases eq_or_eq_not e d with rfl | rfl
    · rw [view_after_receiver, view_popped_fwd, receivers]
      exact .same (by simp [view, hF]) rfl
    · rw [Bool.not_not] at *
      rw [view_after_sender, view_popped_bwd, senders]
      by_cases here : id = j
      · subst here
        refine .single (.loseB 0) (Or.inr (drops dropped)) ?_
        simp [Session.step, view, hF]
      · exact .same (by simp [view, hF, Ne.symm here]) rfl
  | handled kept settled receivers senders sent log others =>
    refine ⟨_, w.after settled sent (!e), fun d id => ?_⟩
    rw [image_seen]
    rcases eq_or_eq_not e d with rfl | rfl
    · rw [view_after_receiver, view_popped_fwd, receivers]
      refine .same (by simp [view, hF, List.filterMap_map]) ?_
      by_cases here : id = j
      · subst here
        rw [log, handle_shown]
        simp
      · rw [others id here]
        rfl
    · rw [Bool.not_not] at *
      rw [view_after_sender, view_popped_bwd, senders]
      by_cases here : id = j
      · subst here
        have hbwd : (view cfg d id s F).bwd = m :: restF.filterMap (Msg.bwdFor id) := by simp [view, hF]
        rw [log, handle_shown, beq_self_eq_true, if_pos rfl, update_self, fwdFor_answers _ _ (handle_control _ _ _ _),
          if_pos rfl]
        refine .single .deliverB trivial ?_
        simp only [Session.step, hbwd]
        rfl
      · refine .same ?_ (by rw [others id here]; rfl)
        rw [update_of_ne here, fwdFor_answers _ _ (handle_control _ _ _ _), if_neg (Ne.symm here)]
        simp [view, hF, Ne.symm here]

/-- To a machine a packet is a packet, and a probe nothing. -/
theorem fwdFor_packet (packet : (∃ flow ip tag wild, msg = .data flow ip tag wild) ∨ msg = .probe)
    {m : Fwd FiveTuple Request} (isMsg : msg.fwdFor cfg id = some m) : ∃ tag flow, m = .data tag flow := by
  rcases packet with ⟨flow, ip, tag, wild, rfl⟩ | rfl
  · simp only [Msg.fwdFor] at isMsg
    split at isMsg
    · split at isMsg <;> cases isMsg
      exact ⟨_, _, rfl⟩
    · obtain ⟨t, -, isMsg⟩ := Option.bind_eq_some_iff.1 isMsg
      split at isMsg <;> cases isMsg
      exact ⟨_, _, rfl⟩
  · cases isMsg

/-- A packet or a probe is seen by the receivers that meter it. -/
theorem Wired.deliver_packet (w : Wired cfg (s.popped e rest) (update F e restF)) (hF : F e = msg :: restF)
    (packet : (∃ flow ip tag wild, msg = .data flow ip tag wild) ∨ msg = .probe) {o : Outcome}
    (handled : HandledPacket cfg (s.port !e) msg o) :
    Simulated cfg s F (.deliver e) ((s.popped e rest).after (!e) o) (o.seen (!e) false) := by
  obtain ⟨settled, senders, receivers, sent, log⟩ := handled
  have sent' : List.Forall₂ (Reads cfg) o.sent [] := by rw [sent]; exact .nil
  have noBwd : ∀ id, msg.bwdFor id = none := by
    rcases packet with ⟨flow, ip, tag, wild, rfl⟩ | rfl <;> exact fun _ => rfl
  refine ⟨_, w.after settled sent' (!e), fun d id => ?_⟩
  rw [image_seen, log]
  rcases eq_or_eq_not e d with rfl | rfl
  · rw [view_after_receiver, view_popped_fwd, receivers, Msg.received]
    cases isMsg : msg.fwdFor cfg id with
    | none => exact .same (by simp [view, hF, isMsg]) rfl
    | some m =>
      obtain ⟨tag, flow, rfl⟩ := fwdFor_packet packet isMsg
      have hfwd : (view cfg e id s F).fwd = .data tag flow :: restF.filterMap (Msg.fwdFor cfg id) := by
        simp [view, hF, isMsg]
      have quiet : ∀ x : Receiver Count, (x.handle (variant cfg id) (meter cfg id) (.data tag flow)).2 = [] := by
        intro x
        simp only [Receiver.handle]
        split <;> rfl
      refine .single .deliverF ⟨rfl, rfl, _, _, _, hF, isMsg⟩ ?_
      simp only [Session.step, hfwd, quiet]
      rfl
  · rw [Bool.not_not] at *
    rw [view_after_sender, view_popped_bwd, senders]
    exact .same (by simp [view, hF, noBwd]) rfl

theorem Wired.deliver (w : Wired cfg s F) (hwire : s.wire e = frame :: rest) {o : Outcome}
    (run : receive cfg (s.port !e) frame = some o) :
    Simulated cfg s F (.deliver e) ((s.popped e rest).after (!e) o) (o.seen (!e) false) := by
  obtain ⟨msg, restF, hF, read, w'⟩ := w.popped hwire
  have settled := w.settled !e
  have drops : o.dropped = true → Drops cfg (.deliver e) s := fun dropped => ⟨e, frame, rest, o, rfl, hwire, run, dropped⟩
  cases read with
  | start control payload =>
    exact w'.deliver_fwd (m := .start _ _) hF (by simp) drops (settled.receive_start control payload run)
  | stop control => exact w'.deliver_fwd (m := .stop _) hF (by simp) drops (settled.receive_stop control run)
  | ack control => exact w'.deliver_fwd (m := .ack _) hF (by simp) drops (settled.receive_ack control run)
  | startAck control => exact w'.deliver_bwd (m := .startAck _) hF drops (settled.receive_startAck control run)
  | report control counter payload =>
    exact w'.deliver_bwd (m := .report _ _) hF drops (settled.receive_report control counter payload run)
  | @data headers payload tag wild parsed tagged =>
    exact w'.deliver_packet hF (Or.inl ⟨_, _, _, _, rfl⟩) (settled.receive_data wild parsed tagged run)
  | probe parsed action next => exact w'.deliver_packet hF (Or.inr rfl) (settled.receive_probe parsed action next run)

end

/-- **Each step of the link is answered by every session.** -/
theorem Wired.step (w : Wired cfg s F) {s' : System} {os : List Seen} (hstep : Link.step cfg l s = some (s', os)) :
    Simulated cfg s F l s' os := by
  cases l with
  | fire e i =>
    obtain ⟨⟨u, ev⟩, at_, h⟩ := Option.bind_eq_some_iff.1 hstep
    obtain ⟨o, run, h⟩ := Option.map_eq_some_iff.1 h
    cases h
    cases ev with
    | sendGreyAction action j => exact w.fire_send at_ run
    | sendGreyCounter j => exact w.fire_recv at_ run
  | probe e =>
    cases hstep
    exact w.probe e
  | egress e pkt earlier lost =>
    obtain ⟨o, run, h⟩ := Option.map_eq_some_iff.1 hstep
    cases h
    exact w.egress run
  | deliver e =>
    simp only [Link.step] at hstep
    split at hstep
    · cases hstep
    · rename_i frame rest hwire
      obtain ⟨o, run, h⟩ := Option.map_eq_some_iff.1 hstep
      cases h
      exact w.deliver hwire run
  | lose e i =>
    cases hstep
    exact w.lose e i

/-! ## Start -/

theorem startedIds_nodup (cfg : FancyConfig) : (startedIds cfg).Nodup := by
  have tree : cfg.treeId = cfg.numTopEntries := rfl
  have wild : cfg.wildcardId = cfg.numTopEntries + 1 := rfl
  simp only [startedIds]
  split <;> split <;> simp [List.nodup_append, List.nodup_range, tree, wild] <;> omega

/-- What `Init` has done after the machines `ids`. -/
structure Begun (cfg : FancyConfig) (ids : List Nat) (p : FancyPortInfo) : Prop where
  switch : p.switchPort = true
  recv : p.greyRecv = {}
  send : ∃ handles, p.greySend = { currentEvent := handles } ∧
    ∀ id u, handles id = some u ↔ ids[u]? = some id
  next : p.events.next = ids.length
  pending : ∀ u ev, (u, ev) ∈ p.events.pending ↔ ∃ id, ids[u]? = some id ∧ ev = .sendGreyAction (startAction cfg id) id
  distinct : (p.events.pending.map (·.1)).Nodup

theorem Begun.snoc {ids : List Nat} {p : FancyPortInfo} (h : Begun cfg ids p) {id : Nat} (new : id ∉ ids) :
    Begun cfg (ids ++ [id]) (scheduleSend id (.sendGreyAction (startAction cfg id) id) p) := by
  obtain ⟨handles, send, handle⟩ := h.send
  have lookup : ∀ u j, (ids ++ [id])[u]? = some j ↔ ids[u]? = some j ∨ (u = ids.length ∧ j = id) := by
    intro u j
    rcases Nat.lt_trichotomy u ids.length with less | rfl | more
    · rw [List.getElem?_append_left less]
      constructor
      · exact Or.inl
      · rintro (found | ⟨rfl, -⟩)
        · exact found
        · exact absurd less (Nat.lt_irrefl _)
    · simp [eq_comm]
    · rw [List.getElem?_eq_none (by simp; omega), List.getElem?_eq_none (by omega)]
      constructor
      · intro found; cases found
      · rintro (found | ⟨rfl, -⟩)
        · cases found
        · omega
  have fresh : ∀ e ∈ p.events.pending, e.1 < p.events.next := by
    intro e mem
    obtain ⟨j, found, -⟩ := (h.pending e.1 e.2).1 mem
    rw [h.next]
    exact (List.getElem?_eq_some_iff.1 found).1
  refine ⟨h.switch, h.recv, ⟨update handles id (some p.events.next), ?_, ?_⟩, ?_, ?_, ?_⟩
  · simp [scheduleSend, send, GreyInfo.setCurrentEvent]
  · intro j u
    rw [lookup, ← handle, h.next]
    by_cases here : j = id
    · subst here
      have none : ∀ u, ¬handles j = some u := fun u found => new (List.mem_of_getElem? ((handle j u).1 found))
      simp [none, eq_comm]
    · simp [here]
  · simp [scheduleSend, h.next]
  · intro u ev
    simp only [scheduleSend, mem_schedule, h.pending, lookup, Prod.mk.injEq, h.next]
    constructor
    · rintro (⟨j, found, rfl⟩ | ⟨rfl, rfl⟩)
      · exact ⟨j, Or.inl found, rfl⟩
      · exact ⟨id, Or.inr ⟨rfl, rfl⟩, rfl⟩
    · rintro ⟨j, found | ⟨rfl, rfl⟩, rfl⟩
      · exact Or.inl ⟨j, found, rfl⟩
      · exact Or.inr ⟨rfl, rfl⟩
  · exact schedule_distinct h.distinct fresh _

theorem begun_initPort (cfg : FancyConfig) : Begun cfg (startedIds cfg) (initPort cfg true) := by
  have each : ∀ ids : List Nat, ids.Nodup → Begun cfg ids
      (ids.foldl (fun p id => scheduleSend id (.sendGreyAction (startAction cfg id) id) p) {}) := by
    intro ids
    induction ids using List.reverseRecOn with
    | nil =>
      intro _
      refine ⟨rfl, rfl, ⟨fun _ => none, rfl, by simp⟩, rfl, by simp, .nil⟩
    | append_singleton ids id ih =>
      intro nodup
      obtain ⟨before, -, new⟩ := List.nodup_append.1 nodup
      rw [List.foldl_append]
      exact (ih before).snoc fun mem => new id mem id (List.mem_singleton.2 rfl) rfl
  exact each _ (startedIds_nodup cfg)

theorem Begun.settled {p : FancyPortInfo} (h : Begun cfg (startedIds cfg) p) : Settled cfg p := by
  obtain ⟨handles, send, handle⟩ := h.send
  have within : ∀ u id, (startedIds cfg)[u]? = some id → u < p.events.next ∧ id ∈ startedIds cfg := by
    intro u id found
    rw [h.next]
    exact ⟨(List.getElem?_eq_some_iff.1 found).1, List.mem_of_getElem? found⟩
  refine ⟨h.switch, ?_, h.distinct, ?_, ?_, ?_, ?_, ?_, ?_, ?_, ?_⟩
  · intro e mem
    obtain ⟨id, found, -⟩ := (h.pending e.1 e.2).1 mem
    exact (within _ _ found).1
  · intro u action id mem
    obtain ⟨j, found, same⟩ := (h.pending _ _).1 mem
    obtain ⟨rfl, rfl⟩ := Event.sendGreyAction.inj same
    rw [send]
    exact ⟨(within _ _ found).2, (handle _ _).2 found, rfl⟩
  · intro id started
    obtain ⟨u, found⟩ := List.mem_iff_getElem?.1 started
    exact ⟨(u, _), (h.pending _ _).2 ⟨id, found, rfl⟩, _, rfl⟩
  · intro u id mem
    obtain ⟨j, -, same⟩ := (h.pending _ _).1 mem
    cases same
  · intro id u hu
    rw [send] at hu
    have found := (handle id u).1 hu
    refine ⟨(within _ _ found).1, fun ev mem => ?_⟩
    obtain ⟨j, found', rfl⟩ := (h.pending _ _).1 mem
    obtain rfl : id = j := Option.some.inj (found.symm.trans found')
    exact ⟨_, rfl⟩
  · intro id u hu
    rw [h.recv] at hu
    cases hu
  · intro id
    rw [send]
    exact ⟨rfl, fun busy => absurd rfl busy⟩
  · intro id
    rw [h.recv]
    exact Nat.zero_lt_succ _
  · intro id
    rw [h.recv]
    exact ⟨rfl, fun busy => absurd rfl busy⟩

theorem wired_start (cfg : FancyConfig) : Wired cfg (System.start cfg) fun _ => [] :=
  ⟨fun _ => (begun_initPort cfg).settled, fun _ => .nil⟩

/-- The counters of a machine before its first session. -/
def noCount : Count := (0, fun _ => {})

theorem view_start (cfg : FancyConfig) (d : Bool) (id : Nat) :
    view cfg d id (System.start cfg) (fun _ => []) = Pair.start noCount noCount := by
  have begun := begun_initPort cfg
  obtain ⟨handles, send, -⟩ := begun.send
  have noTimers : reportTimers id (initPort cfg true).events = [] := by
    rw [List.eq_nil_iff_forall_not_mem]
    intro u mem
    obtain ⟨j, -, same⟩ := (begun.pending _ _).1 (mem_reportTimers.1 mem)
    cases same
  have empty : ∀ handles : Nat → Option Nat, count cfg id { currentEvent := handles } = noCount := by
    intro handles
    simp [count, noCount]
  simp only [view, System.start, senders, receivers, senderView, receiverView, send, begun.recv, noTimers, empty]
  rfl

/-! ## Runs -/

/-- **Each run of the link is a run of every session**, seen through `image`. The conditions on the steps carry over as
long as they follow from what caused each step of the session. -/
theorem Wired.session {ok : Label cfg → System → Prop} {ok' : Session.Label FiveTuple → MachinePair → Prop}
    (w : Wired cfg s F) (d : Bool) (id : Nat)
    (carried : ∀ s F l label P, Wired cfg s F → ok l s → Causes cfg d id s F l label P → ok' label P)
    {s' : System} {tr : List Seen} (run : Lts.Run (Link.step cfg) ok s s' tr) :
    ∃ F', Wired cfg s' F' ∧ Lts.Run (Session.step (variant cfg id) (meter cfg id)) ok' (view cfg d id s F)
      (view cfg d id s' F') (tr.flatMap (image cfg d id)) := by
  have simulated : ∃ P, Lts.Run (Session.step (variant cfg id) (meter cfg id)) ok' (view cfg d id s F) P
      (tr.flatMap (image cfg d id)) ∧ ∃ F', Wired cfg s' F' ∧ P = view cfg d id s' F' := by
    refine run.simulate (R := fun s P => ∃ F, Wired cfg s F ∧ P = view cfg d id s F) ⟨F, w, rfl⟩ ?_
    rintro s P l s' os ⟨F, w, rfl⟩ good hstep
    obtain ⟨F', w', answers⟩ := w.step hstep
    exact ⟨_, (answers d id).mono fun label P cause => carried s F l label P w good cause, F', w', rfl⟩
  obtain ⟨P, session, F', w', rfl⟩ := simulated
  exact ⟨F', w', session⟩

/-- The same without conditions. -/
theorem Wired.anySession {ok : Label cfg → System → Prop} (w : Wired cfg s F) (d : Bool) (id : Nat) {s' : System}
    {tr : List Seen} (run : Lts.Run (Link.step cfg) ok s s' tr) :
    ∃ F', Wired cfg s' F' ∧ Lts.Run (Session.step (variant cfg id) (meter cfg id)) (fun _ _ => True) (view cfg d id s F)
      (view cfg d id s' F') (tr.flatMap (image cfg d id)) :=
  w.session d id (fun _ _ _ _ _ _ _ _ => trivial) run

/-- The same for the runs from the start. -/
theorem session_of_run {ok : Label cfg → System → Prop} {ok' : Session.Label FiveTuple → MachinePair → Prop} (d : Bool)
    (id : Nat) (carried : ∀ s F l label P, Wired cfg s F → ok l s → Causes cfg d id s F l label P → ok' label P)
    {s : System} {tr : List Seen} (run : Lts.Run (Link.step cfg) ok (System.start cfg) s tr) :
    ∃ F, Wired cfg s F ∧ Lts.Run (Session.step (variant cfg id) (meter cfg id)) ok' (Pair.start noCount noCount)
      (view cfg d id s F) (tr.flatMap (image cfg d id)) := by
  rw [← view_start cfg d id]
  exact (wired_start cfg).session d id carried run

end

end Ns3Fancy.Link
