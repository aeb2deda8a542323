import Mathlib.Algebra.BigOperators.Group.Finset.Piecewise
import Mathlib.Algebra.Order.Group.Multiset
import Mathlib.Data.Fintype.Prod
import Mathlib.Tactic.Abel
import Ns3Fancy.NetSeer.EventCache
import Ns3Fancy.NetSeer.Wire
import Ns3Fancy.Switch.Standard

/-!
# NetSeer leaves the packets of hosts alone

On a link a host's packet is behind a header with a number; everything else there is a NACK. With
this read off the frames, a network of switches is the network of numbered packets, and what hosts
get is what hosts sent: unchanged but for the length of a UDP header, and no packet twice.
-/

namespace Ns3Fancy.NetSeer.Wire
open Switch Buffer Function
set_option autoImplicit false

section
variable {N : Ns3}

/-! ## Frames of hosts and frames on links -/

/-- A packet that a host may send. -/
structure Sendable (p : Switch.Packet N) : Prop extends p.WellFormed where
  notNetSeer : p.protocol ≠ NETSEER

theorem Sendable.reread {p : Switch.Packet N} (h : Sendable p) : Sendable p.reread := ⟨h.toWellFormed.reread, h.notNetSeer⟩

/-- The frame in which a host sends a packet. -/
def hostFrame (p : Switch.Packet N) : Frame := p.frame

/-- The header in front of a host's packet. -/
def dataHeader (p : Switch.Packet N) (seq : UInt32) : Header := { action := SEQ, seq1 := seq, nextHeader := p.protocol }

def dataFrame (p : Switch.Packet N) (seq : UInt32) : Frame where
  protocol := NETSEER
  bytes := (dataHeader p seq).serialize ++ (hostFrame p).bytes

variable (N) in
/-- What is on a link. -/
inductive InFlight : Frame → Prop where
  | data {p : Switch.Packet N} (sendable : Sendable p) (seq : UInt32) : InFlight (dataFrame p seq)
  | nack (seq1 seq2 : UInt32) : InFlight (nackFrame seq1 seq2)

/-- The metadata of a host's packet. -/
def info (p : Switch.Packet N) (netSeer : Option Header) (grayDrop : Bool) : PktInfo N where
  protocol := if netSeer.isSome then NETSEER else p.protocol
  headers := { netSeer := netSeer, hosts := p.headers }
  flow := getFlowFiveTuple p.headers
  grayDrop := grayDrop

/-- The metadata of a NACK. -/
def nackInfo (seq1 seq2 : UInt32) (grayDrop : Bool) : PktInfo N where
  protocol := NETSEER
  headers := { netSeer := some { action := NACK, seq1 := seq1, seq2 := seq2 } }
  grayDrop := grayDrop

/-- What is inside a switch. -/
inductive Holds : PktInfo N → Bytes → Prop where
  | plain {p : Switch.Packet N} (sendable : Sendable p) (grayDrop : Bool) : Holds (info p none grayDrop) p.payload
  | data {p : Switch.Packet N} (sendable : Sendable p) (seq : UInt32) (grayDrop : Bool) :
      Holds (info p (some (dataHeader p seq)) grayDrop) p.payload
  | nack (seq1 seq2 : UInt32) (grayDrop : Bool) : Holds (nackInfo seq1 seq2 grayDrop) []

theorem frame_info {p : Switch.Packet N} (sendable : Sendable p) (netSeer : Option Header) (grayDrop : Bool) :
    (info p netSeer grayDrop).frame p.payload =
      { protocol := (info p netSeer grayDrop).protocol
        bytes := addHeader Header.serialize netSeer (hostFrame p).bytes } := by
  simp only [PktInfo.frame, info, doDeparser, hostFrame, Switch.Packet.frame, Switch.doDeparser, sendable.noFancy]
  rfl

theorem frame_plain {p : Switch.Packet N} (sendable : Sendable p) (grayDrop : Bool) :
    (info p none grayDrop).frame p.payload = hostFrame p := frame_info sendable none grayDrop

theorem frame_data {p : Switch.Packet N} (sendable : Sendable p) (seq : UInt32) (grayDrop : Bool) :
    (info p (some (dataHeader p seq)) grayDrop).frame p.payload = dataFrame p seq :=
  frame_info sendable (some (dataHeader p seq)) grayDrop

theorem frame_nack (seq1 seq2 : UInt32) (grayDrop : Bool) :
    (nackInfo seq1 seq2 grayDrop : PktInfo N).frame [] = nackFrame seq1 seq2 := by
  simp [PktInfo.frame, nackInfo, doDeparser, addTransport, addHeader, nackFrame]

/-! ## Parsing -/

theorem doParser_notNetSeer {fuel : Nat} {protocol : UInt16} (other : protocol ≠ NETSEER) (headers : Headers N)
    (bs : Bytes) : doParser fuel protocol headers bs = parseHosts protocol headers bs := by
  cases fuel <;> simp [doParser, other]

theorem parseHosts_hostFrame {p : Switch.Packet N} (sendable : Sendable p) (netSeer : Option Header) :
    parseHosts p.protocol { netSeer := netSeer } (hostFrame p).bytes =
      some ({ netSeer := netSeer, hosts := p.reread.headers }, p.payload) := by
  have standard := doParser_doDeparser sendable.toWellFormed 0 none
  have headers : ({ p.reread.headers with fancy := none } : Switch.Headers N) = p.reread.headers := by
    rw [← sendable.reread.noFancy]
  rw [doParser_standard sendable.notFancy, headers] at standard
  rw [parseHosts, hostFrame, Switch.Packet.frame, show parseStandard p.protocol ({} : Switch.Headers N) _ = _ from standard]
  rfl

/-- The parser on a frame that starts with a NETSEER header. -/
theorem parse_header (h : Header) (other : h.nextHeader ≠ NETSEER) (rest : Bytes) :
    parse { protocol := NETSEER, bytes := h.serialize ++ rest } =
      parseHosts (N := N) h.nextHeader { netSeer := some h } rest := by
  have long : (h.serialize ++ rest).length = 10 + rest.length + 1 := by
    rw [List.length_append, Header.length_serialize, Header.getSerializedSize]
    omega
  rw [parse, long, doParser, if_pos rfl, Header.deserialize_serialize, Option.bind_some, doParser_notNetSeer other]

theorem parse_hostFrame {p : Switch.Packet N} (sendable : Sendable p) :
    parse (hostFrame p) = some ({ hosts := p.reread.headers }, p.payload) := by
  rw [parse, show (hostFrame p).protocol = p.protocol from rfl, doParser_notNetSeer sendable.notNetSeer,
    parseHosts_hostFrame sendable]

theorem parse_dataFrame {p : Switch.Packet N} (sendable : Sendable p) (seq : UInt32) :
    parse (dataFrame p seq) = some ({ netSeer := some (dataHeader p seq), hosts := p.reread.headers }, p.payload) := by
  rw [dataFrame, parse_header _ (show (dataHeader p seq).nextHeader ≠ NETSEER from sendable.notNetSeer)]
  exact parseHosts_hostFrame sendable _

theorem parse_nackFrame (seq1 seq2 : UInt32) :
    parse (N := N) (nackFrame seq1 seq2) =
      some ({ netSeer := some { action := NACK, seq1 := seq1, seq2 := seq2 } }, []) := by
  have header := parse_header (N := N) { action := NACK, seq1 := seq1, seq2 := seq2 }
    (show (0 : UInt16) ≠ NETSEER by decide) []
  rw [List.append_nil] at header
  rw [nackFrame, header]
  rfl

/-- The metadata of a received frame. -/
def received (frame : Frame) (headers : Headers N) (grayDrop : Bool) : PktInfo N where
  protocol := frame.protocol
  headers := headers
  flow := getFlowFiveTuple headers.hosts
  grayDrop := grayDrop

theorem noFlow : getFlowFiveTuple ({} : Switch.Headers N) = {} := getFlowFiveTuple_of_none rfl

/-! ## Reading packets off frames -/

/-- The header a switch may have set. -/
def Header.read (h : Header) : Option NetSeerHeader :=
  if h.action = SEQ then some { action := .seq, seq1 := h.seq1, seq2 := h.seq2, nextHeader := h.nextHeader }
  else if h.action = NACK then some { action := .nack, seq1 := h.seq1, seq2 := h.seq2, nextHeader := h.nextHeader }
  else none

/-- What the numbered network sees of a packet. -/
def PktInfo.packet (m : PktInfo N) : Packet where
  protocol := m.protocol
  netSeer := m.headers.netSeer.bind Header.read
  flow := m.flow

variable (N) in
/-- What the numbered network sees of a frame. -/
def packetOf (frame : Frame) : Packet :=
  match parse (N := N) frame with
  | some h => (received frame h.1 false).packet
  | none => {}

theorem packetOf_eq {frame : Frame} {headers : Headers N} {payload : Bytes} (parsed : parse frame = some (headers, payload))
    (grayDrop : Bool) : packetOf N frame = (received frame headers grayDrop).packet := by
  rw [packetOf, parsed]
  rfl

theorem packet_data (p : Switch.Packet N) (seq : UInt32) (grayDrop : Bool) :
    (info p (some (dataHeader p seq)) grayDrop).packet =
      { protocol := NETSEER
        netSeer := some { action := .seq, seq1 := seq, nextHeader := p.protocol }
        flow := getFlowFiveTuple p.headers } := rfl

theorem packetOf_dataFrame {p : Switch.Packet N} (sendable : Sendable p) (seq : UInt32) (grayDrop : Bool) :
    packetOf N (dataFrame p seq) = (info p (some (dataHeader p seq)) grayDrop).packet := by
  rw [packetOf_eq (parse_dataFrame sendable seq) grayDrop, packet_data, ← getFlowFiveTuple_reread p.headers p.payload]
  rfl

theorem packetOf_nackFrame (seq1 seq2 : UInt32) : packetOf N (nackFrame seq1 seq2) = nackPacket seq1 seq2 := by
  rw [packetOf_eq (parse_nackFrame (N := N) seq1 seq2) false]
  simp only [received, noFlow]
  rfl

namespace Holds
variable {m : PktInfo N} {payload : Bytes}

theorem number (h : Holds m payload) : m.headers.number = m.packet.number := by cases h <;> rfl

theorem range (h : Holds m payload) : m.headers.range = m.packet.range := by cases h <;> rfl

theorem doIngress {P : Type} (h : Holds m payload) (inPort : P) (outPort : Option P) (port : NetSeerPortInfo) :
    Wire.doIngress inPort outPort m.headers port = NetSeer.doIngress inPort outPort m.packet port := by
  cases h <;> rfl

end Holds

/-! ## The host's packet in a frame -/

variable (N) in
/-- The frame of a host that a frame is made of, but for the length of a UDP header: nothing if it is a NACK. -/
def content (frame : Frame) : List Frame :=
  if frame.protocol = NETSEER then
    match Header.deserialize frame.bytes with
    | some (h, rest) => if h.action = NACK then [] else [Frame.sansLength N { protocol := h.nextHeader, bytes := rest }]
    | none => []
  else [frame.sansLength N]

theorem content_hostFrame {p : Switch.Packet N} (sendable : Sendable p) :
    content N (hostFrame p) = [(hostFrame p).sansLength N] := if_neg sendable.notNetSeer

theorem content_dataFrame (p : Switch.Packet N) (seq : UInt32) :
    content N (dataFrame p seq) = [(hostFrame p).sansLength N] := by
  simp only [content, dataFrame, Header.deserialize_serialize]
  rfl

theorem content_nackFrame (seq1 seq2 : UInt32) : content N (nackFrame seq1 seq2) = [] := by
  have whole := Header.deserialize_serialize { action := NACK, seq1 := seq1, seq2 := seq2 } []
  rw [List.append_nil] at whole
  simp only [content, nackFrame, whole]
  rfl

/-- A packet that is read and sent on is the same host's frame. -/
theorem hostFrame_reread {p : Switch.Packet N} (sendable : Sendable p) :
    (hostFrame p.reread).sansLength N = (hostFrame p).sansLength N := sansLength_frame_reread sendable.toWellFormed

/-- A frame from a link is parsed, and what it is made of can be put together again. -/
theorem InFlight.parses {frame : Frame} (h : InFlight N frame) : ∃ (headers : Headers N) (payload : Bytes),
    parse frame = some (headers, payload) ∧ headers.netSeer ≠ none ∧ ∀ grayDrop,
      Holds (received frame headers grayDrop) payload ∧
        content N ((received frame headers grayDrop).frame payload) = content N frame := by
  cases h with
  | @data p sendable seq =>
    refine ⟨_, _, parse_dataFrame sendable seq, Option.some_ne_none _, fun grayDrop =>
      ⟨.data sendable.reread seq grayDrop, ?_⟩⟩
    have whole : (received (dataFrame p seq) { netSeer := some (dataHeader p seq), hosts := p.reread.headers } grayDrop).frame
        p.payload = dataFrame p.reread seq := frame_data sendable.reread seq grayDrop
    rw [whole, content_dataFrame, content_dataFrame, hostFrame_reread sendable]
  | nack seq1 seq2 =>
    refine ⟨_, _, parse_nackFrame seq1 seq2, Option.some_ne_none _, fun grayDrop => ?_⟩
    have same : received (nackFrame seq1 seq2) ({ netSeer := some ⟨NACK, seq1, seq2, 0⟩ } : Headers N) grayDrop =
        nackInfo seq1 seq2 grayDrop := by
      simp only [received, nackInfo, noFlow]
      rfl
    rw [same, frame_nack]
    exact ⟨.nack seq1 seq2 grayDrop, rfl⟩

theorem received_hostFrame {p : Switch.Packet N} (sendable : Sendable p) (grayDrop : Bool) :
    Holds (received (hostFrame p) { hosts := p.reread.headers } grayDrop) p.payload ∧
      content N ((received (hostFrame p) { hosts := p.reread.headers } grayDrop).frame p.payload) =
        content N (hostFrame p) := by
  refine ⟨.plain sendable.reread grayDrop, ?_⟩
  have whole : (received (hostFrame p) { hosts := p.reread.headers } grayDrop).frame p.payload = hostFrame p.reread :=
    frame_plain sendable.reread grayDrop
  rw [whole, content_hostFrame sendable.reread, content_hostFrame sendable, hostFrame_reread sendable]

/-- What `DoEgress` does towards a switch: a NACK is taken, a host's packet goes on behind a header. -/
theorem Holds.doEgress_link {m : PktInfo N} {payload : Bytes} (h : Holds m payload) (cfg : NetSeerConfig)
    (port : NetSeerPortInfo) (sim : NetSeerSimulationState) :
    let r := Wire.doEgress cfg true m port sim
    let r' := NetSeer.doEgress cfg true m.packet port sim
    r.port = r'.port ∧ r.sim = r'.sim ∧ r.events = egressEvents m.packet port r' ∧
      (r.packet = none ∧ r'.packet = none ∧ content N (m.frame payload) = [] ∨
        ∃ p seq grayDrop, Sendable p ∧ payload = p.payload ∧ content N (m.frame payload) = [(hostFrame p).sansLength N] ∧
          r.packet = some (info p (some (dataHeader p seq)) grayDrop) ∧
          r'.packet = some (info p (some (dataHeader p seq)) grayDrop).packet) := by
  cases h with
  | @plain p sendable grayDrop =>
    refine ⟨rfl, rfl, rfl, .inr ⟨p, port.senderNextExpectedSeq, grayDrop, sendable, rfl, ?_, rfl, rfl⟩⟩
    rw [frame_plain sendable, content_hostFrame sendable]
  | @data p sendable seq grayDrop =>
    refine ⟨rfl, rfl, rfl, .inr ⟨p, seq, grayDrop, sendable, rfl, ?_, rfl, rfl⟩⟩
    rw [frame_data sendable, content_dataFrame]
  | nack seq1 seq2 grayDrop =>
    refine ⟨rfl, rfl, rfl, .inl ⟨rfl, rfl, ?_⟩⟩
    rw [frame_nack, content_nackFrame]

/-- What `DoEgress` does towards a host: the header is taken off. -/
theorem Holds.doEgress_host {m : PktInfo N} {payload : Bytes} (h : Holds m payload) (notNack : m.packet.range = none)
    (cfg : NetSeerConfig) (port : NetSeerPortInfo) (sim : NetSeerSimulationState) :
    ∃ p grayDrop, Sendable p ∧ payload = p.payload ∧ content N (m.frame payload) = [(hostFrame p).sansLength N] ∧
      Wire.doEgress cfg false m port sim = { port := port, sim := sim, packet := some (info p none grayDrop) } := by
  cases h with
  | @plain p sendable grayDrop =>
    refine ⟨p, grayDrop, sendable, rfl, ?_, rfl⟩
    rw [frame_plain sendable, content_hostFrame sendable]
  | @data p sendable seq grayDrop =>
    refine ⟨p, grayDrop, sendable, rfl, ?_, rfl⟩
    rw [frame_data sendable, content_dataFrame]
  | nack seq1 seq2 grayDrop => cases notNack

end

/-! ## The network of numbered packets -/

section
variable {P S : Type} [DecidableEq P] [DecidableEq S] {N : Ns3}

/-- What of an observation the numbered network shows. -/
def Obs.image : Obs P → List (Seen P)
  | .seen o => [o]
  | _ => []

omit [DecidableEq P] in
@[simp] theorem image_seenAt (p : P) (es : List Event) : (seenAt p es).flatMap Obs.image = NetSeer.seenAt p es := by
  induction es with
  | nil => rfl
  | cons e es ih => exact congrArg (Seen.mk p e :: ·) ih

variable (N) in
/-- The numbered network, read off the frames. -/
def State.decode (s : State P S) : NetSeer.State P S where
  port := s.port
  sim := s.sim
  wire p := (s.wire p).map (packetOf N)

omit [DecidableEq S] in
theorem decode_wire (s : State P S) (p : P) (frames : List Frame) :
    State.decode N { s with wire := update s.wire p frames } =
      { s.decode N with wire := update (s.decode N).wire p (frames.map (packetOf N)) } := by
  simp only [State.decode, NetSeer.State.mk.injEq, true_and]
  funext q
  by_cases here : q = p
  · subst here
    rw [update_self, update_self]
  · rw [update_of_ne here, update_of_ne here]

variable (N) in
/-- Links carry frames that switches have put there. -/
def State.Sound (s : State P S) : Prop := ∀ p, ∀ frame ∈ s.wire p, InFlight N frame

variable (fab : Fabric P S)

/-- A packet that the numbered network has put on a link may still be lost there. -/
inductive Settles (a : NetSeer.State P S) : NetSeer.State P S → List (Seen P) → Prop where
  | done : Settles a a []
  | lose (p : P) (i : Nat) {b : NetSeer.State P S} {es : List (Seen P)} :
      NetSeer.step fab.toNetwork (.lose p i) a = some (b, es) → Settles a b es

/-! ## Where the packets of hosts are -/

/-- Frames that came in from hosts. -/
def enteredFrames (tr : List (Obs P)) : List Frame := tr.flatMap fun
  | .entered _ frame => [frame]
  | _ => []

/-- Frames that went to hosts. -/
def handedFrames (tr : List (Obs P)) : List Frame := tr.flatMap fun
  | .handed _ frame => [frame]
  | _ => []

variable (N) in
/-- The hosts' packets in frames that did not go on. -/
def droppedFrames (tr : List (Obs P)) : List Frame := tr.flatMap fun
  | .dropped frame => content N frame
  | _ => []

variable (N) in
/-- The hosts' packets that are gone: with a host, or dropped. -/
def gone (tr : List (Obs P)) : Multiset Frame :=
  ((handedFrames tr).map (Frame.sansLength N) : Multiset Frame) + (droppedFrames N tr : Multiset Frame)

omit [DecidableEq P] in
@[simp] theorem gone_nil : gone N ([] : List (Obs P)) = 0 := rfl

omit [DecidableEq P] in
@[simp] theorem gone_append (tr os : List (Obs P)) : gone N (tr ++ os) = gone N tr + gone N os := by
  simp only [gone, handedFrames, droppedFrames, List.flatMap_append, List.map_append, ← Multiset.coe_add]
  exact add_add_add_comm _ _ _ _

omit [DecidableEq P] in
@[simp] theorem gone_seenAt (p : P) (es : List Event) : gone N (seenAt p es) = 0 := by
  induction es with
  | nil => rfl
  | cons e es ih => exact ih

omit [DecidableEq P] in
theorem gone_dropped (frame : Frame) (os : List (Obs P)) :
    gone N (.dropped frame :: os) = (content N frame : Multiset Frame) + gone N os := by
  have whole : (droppedFrames N (.dropped frame :: os) : Multiset Frame) = content N frame + droppedFrames N os := rfl
  rw [gone, whole, show handedFrames (.dropped frame :: os) = handedFrames os from rfl, gone]
  abel

omit [DecidableEq P] in
@[simp] theorem entered_seenAt (p : P) (es : List Event) : enteredFrames (seenAt p es) = [] := by
  induction es with
  | nil => rfl
  | cons e es ih => exact ih

omit [DecidableEq P] in
@[simp] theorem entered_append (tr os : List (Obs P)) : enteredFrames (tr ++ os) = enteredFrames tr ++ enteredFrames os :=
  List.flatMap_append

variable [Fintype P]

variable (N) in
/-- The hosts' packets on the links. -/
def contents (wire : P → List Frame) : Multiset Frame := ∑ p, ((wire p).flatMap (content N) : Multiset Frame)

variable (N) in
theorem contents_update (wire : P → List Frame) (p : P) (frames : List Frame) :
    contents N (update wire p frames) + ((wire p).flatMap (content N) : Multiset Frame) =
      contents N wire + (frames.flatMap (content N) : Multiset Frame) := by
  have others : ∑ q ∈ Finset.univ.erase p, ((update wire p frames q).flatMap (content N) : Multiset Frame) =
      ∑ q ∈ Finset.univ.erase p, ((wire q).flatMap (content N) : Multiset Frame) := by
    refine Finset.sum_congr rfl fun q mem => ?_
    rw [update_of_ne (Finset.ne_of_mem_erase mem)]
  rw [contents, contents, ← Finset.add_sum_erase _ _ (Finset.mem_univ p), others, update_self,
    ← Finset.add_sum_erase _ (fun q => ((wire q).flatMap (content N) : Multiset Frame)) (Finset.mem_univ p)]
  abel

/-- A frame that is put on a link. -/
theorem contents_append (wire : P → List Frame) (p : P) (frame : Frame) :
    contents N (update wire p (wire p ++ [frame])) = contents N wire + (content N frame : Multiset Frame) := by
  have whole := contents_update N wire p (wire p ++ [frame])
  rw [List.flatMap_append, ← Multiset.coe_add, add_comm (((wire p).flatMap (content N) : List Frame) : Multiset Frame),
    ← add_assoc] at whole
  rw [add_right_cancel whole, List.flatMap_cons, List.flatMap_nil, List.append_nil]

/-! ## One stage after the other -/

variable (N) in
/-- A stage that takes a packet with some hosts' frames in it: what is on the links afterwards is what the numbered network
has there, but for a packet that may be lost at once, and every host's frame is accounted for. -/
structure Follows (s t : State P S) (os : List (Obs P)) (a : NetSeer.State P S) (es : List (Seen P)) (frames : List Frame) :
    Prop where
  sound : t.Sound N
  settles : ∃ es', os.flatMap Obs.image = es ++ es' ∧ Settles fab a (t.decode N) es'
  balance : contents N t.wire + gone N os = contents N s.wire + (frames : Multiset Frame)
  entered : enteredFrames os = []

omit [DecidableEq S] [Fintype P] in
theorem State.Sound.append {s : State P S} (sound : s.Sound N) (q : P) {frame : Frame} (flies : InFlight N frame) :
    State.Sound N { s with wire := update s.wire q (s.wire q ++ [frame]) } := by
  intro p f mem
  by_cases here : p = q
  · subst here
    simp only [update_self, List.mem_append, List.mem_singleton] at mem
    rcases mem with old | rfl
    · exact sound p f old
    · exact flies
  · simp only [update_of_ne here] at mem
    exact sound p f mem

omit [DecidableEq S] [Fintype P] in
theorem State.Sound.remove {s : State P S} (sound : s.Sound N) (q : P) {frames : List Frame}
    (fewer : ∀ frame ∈ frames, frame ∈ s.wire q) : State.Sound N { s with wire := update s.wire q frames } := by
  intro p f mem
  by_cases here : p = q
  · subst here
    simp only [update_self] at mem
    exact sound p f (fewer f mem)
  · simp only [update_of_ne here] at mem
    exact sound p f mem

omit [DecidableEq S] [Fintype P] in
/-- The link of a port gets a packet in both networks. -/
theorem decode_transmit (s : State P S) {q : P} (link : (fab.peer q).isSome) (frame : Frame) :
    (s.decode N).transmit fab.toNetwork q (packetOf N frame) =
      State.decode N { s with wire := update s.wire q (s.wire q ++ [frame]) } := by
  rw [decode_wire, NetSeer.State.transmit, if_pos link, List.map_append]
  rfl

omit [Fintype P] in
variable {fab} in
/-- The packet that was put last on a link is lost there. -/
theorem lose_last {q : P} (link : (fab.peer q).isSome) (a : NetSeer.State P S) (pkt : Packet) :
    NetSeer.step fab.toNetwork (.lose q (a.wire q).length) (a.transmit fab.toNetwork q pkt) =
      some (a, NetSeer.lossEvents fab.toNetwork q pkt) := by
  have last : (a.wire q ++ [pkt])[(a.wire q).length]? = some pkt := List.getElem?_concat_length
  have rest : (a.wire q ++ [pkt]).eraseIdx (a.wire q).length = a.wire q := by
    rw [List.eraseIdx_append_of_length_le (Nat.le_refl _), Nat.sub_self, List.eraseIdx_cons_zero, List.append_nil]
  rw [NetSeer.State.transmit, if_pos link]
  simp only [NetSeer.step, update_self, last, Option.map_some, rest, update_idem, update_eq_self]

theorem egressTrafficManager_link {s : State P S} (sound : s.Sound N) {q : P} (link : (fab.peer q).isSome)
    {p : Switch.Packet N} (sendable : Sendable p) (seq : UInt32) (grayDrop : Bool) (luck : Luck) :
    let m := info p (some (dataHeader p seq)) grayDrop
    let u := s.egressTrafficManager fab q m p.payload luck
    Follows N fab s u.1 u.2 ((s.decode N).transmit fab.toNetwork q m.packet) [] [(hostFrame p).sansLength N] := by
  intro m u
  have framed : m.frame p.payload = dataFrame p seq := frame_data sendable seq grayDrop
  have sent := decode_transmit (N := N) fab s link (dataFrame p seq)
  rw [packetOf_dataFrame sendable seq grayDrop] at sent
  rw [sent]
  by_cases lost : failed fab q m luck = true
  · have result : u = (s, .dropped (dataFrame p seq) :: seenAt q [.lost seq]) := by
      simp only [u, State.egressTrafficManager, if_pos lost, if_pos link, framed]
      rfl
    rw [result]
    refine ⟨sound, ⟨[⟨q, .lost seq⟩], rfl, .lose q (s.wire q).length ?_⟩, ?_, rfl⟩
    · have last := lose_last link (s.decode N) m.packet
      rw [sent, show ((s.decode N).wire q).length = (s.wire q).length from List.length_map _] at last
      exact last
    · rw [gone_dropped, content_dataFrame, gone_seenAt, add_zero]
  · have result : u = ({ s with wire := update s.wire q (s.wire q ++ [dataFrame p seq]) }, []) := by
      simp only [u, State.egressTrafficManager, if_neg lost, State.transmit, if_pos link, framed]
    rw [result]
    refine ⟨sound.append q (.data sendable seq), ⟨[], rfl, .done⟩, ?_, rfl⟩
    rw [contents_append, content_dataFrame, gone_nil, add_zero]

theorem egressTrafficManager_host {s : State P S} (sound : s.Sound N) {q : P} (host : fab.peer q = none)
    {p : Switch.Packet N} (sendable : Sendable p) (grayDrop : Bool) (luck : Luck) :
    let u := s.egressTrafficManager fab q (info p none grayDrop) p.payload luck
    Follows N fab s u.1 u.2 (s.decode N) [] [(hostFrame p).sansLength N] := by
  intro u
  have framed : (info p none grayDrop).frame p.payload = hostFrame p := frame_plain sendable grayDrop
  have noLink : ¬(fab.peer q).isSome := by simp [host]
  by_cases lost : failed fab q (info p none grayDrop) luck = true
  · have result : u = (s, [.dropped (hostFrame p)]) := by
      simp only [u, State.egressTrafficManager, if_pos lost, if_neg noLink, framed]
    rw [result]
    refine ⟨sound, ⟨[], rfl, .done⟩, ?_, rfl⟩
    rw [gone_dropped, content_hostFrame sendable, gone_nil, add_zero]
  · have result : u = (s, [.handed q (hostFrame p)]) := by
      simp only [u, State.egressTrafficManager, if_neg lost, State.transmit, if_neg noLink, framed]
    rw [result]
    exact ⟨sound, ⟨[], rfl, .done⟩, rfl, rfl⟩

variable {fab}

/-- What a stage shows first, without moving a packet. -/
theorem Follows.after {s t : State P S} {os : List (Obs P)} {a : NetSeer.State P S} {es : List (Seen P)}
    {frames : List Frame} (h : Follows N fab s t os a es frames) (q : P) (shown : List Event) :
    Follows N fab s t (seenAt q shown ++ os) a (NetSeer.seenAt q shown ++ es) frames := by
  obtain ⟨es', image, settles⟩ := h.settles
  refine ⟨h.sound, ⟨es', ?_, settles⟩, ?_, ?_⟩
  · rw [List.flatMap_append, image_seenAt, image, List.append_assoc]
  · rw [gone_append, gone_seenAt, zero_add, h.balance]
  · rw [entered_append, entered_seenAt, h.entered, List.append_nil]

/-- From `Egress` to the wire; towards a host there are no NACKs. -/
theorem egress_follows {s : State P S} (sound : s.Sound N) {m : PktInfo N} {payload : Bytes} (holds : Holds m payload)
    {q : P} (linked : m.packet.range ≠ none → (fab.peer q).isSome) (luck : Luck) :
    let u := s.egress fab q m payload luck
    let v := (s.decode N).egress fab.toNetwork q m.packet
    Follows N fab s u.1 u.2 v.1 v.2 (content N (m.frame payload)) := by
  intro u v
  by_cases link : (fab.peer q).isSome = true
  · obtain ⟨port, sim, events, packets⟩ :=
      holds.doEgress_link (fab.config (fab.owner q)) (s.port q) (s.sim (fab.owner q))
    let r := Wire.doEgress (fab.config (fab.owner q)) true m (s.port q) (s.sim (fab.owner q))
    let t : State P S := { s with port := update s.port q r.port, sim := update s.sim (fab.owner q) r.sim }
    rcases packets with ⟨taken, taken', empty⟩ | ⟨p, seq, grayDrop, sendable, rfl, one, sent, sent'⟩
    · have whole : u = (t, seenAt q r.events) := by simp only [u, State.egress, link, t, r, taken]
      have same : v = (t.decode N, NetSeer.seenAt q r.events) := by
        simp only [v, NetSeer.State.egress, link, if_true, State.decode, t, r, port, sim, events, taken']
      rw [same, whole, empty]
      refine ⟨sound, ⟨[], ?_, .done⟩, ?_, entered_seenAt _ _⟩
      · rw [image_seenAt, List.append_nil]
      · rw [gone_seenAt]
        rfl
    · let m' : PktInfo N := info p (some (dataHeader p seq)) grayDrop
      have whole : u = ((t.egressTrafficManager fab q m' p.payload luck).1,
          seenAt q r.events ++ (t.egressTrafficManager fab q m' p.payload luck).2) := by
        simp only [u, State.egress, link, t, r, sent, m']
      have same : v = ((t.decode N).transmit fab.toNetwork q m'.packet, NetSeer.seenAt q r.events) := by
        simp only [v, NetSeer.State.egress, link, if_true, State.decode, t, r, port, sim, events, sent', m']
      have next := (egressTrafficManager_link fab (s := t) sound link sendable seq grayDrop luck).after q r.events
      rw [List.append_nil] at next
      rw [same, whole, one]
      exact ⟨next.sound, next.settles, next.balance, next.entered⟩
  · have host : fab.peer q = none := by simpa using link
    have notNack : m.packet.range = none := by
      by_contra nack
      exact link (linked nack)
    obtain ⟨p, grayDrop, sendable, rfl, one, sent⟩ :=
      holds.doEgress_host notNack (fab.config (fab.owner q)) (s.port q) (s.sim (fab.owner q))
    have whole : u = s.egressTrafficManager fab q (info p none grayDrop) p.payload luck := by
      simp only [u, State.egress, host, Option.isSome_none, sent, update_eq_self]
      rfl
    have same : v = (s.decode N, []) := by
      simp [v, NetSeer.State.egress, NetSeer.doEgress, NetSeer.State.transmit, host]
    rw [same, whole, one]
    exact egressTrafficManager_host fab sound host sendable grayDrop luck

variable (fab) in
theorem trafficManager_follows {s : State P S} (sound : s.Sound N) {m : PktInfo N} {payload : Bytes}
    (holds : Holds m payload) (outPort : Option P)
    (linked : m.packet.range ≠ none → ∀ q ∈ outPort, (fab.peer q).isSome) (luck : Luck) :
    ∃ drop a es, (s.decode N).trafficManager fab.toNetwork outPort m.packet drop = some (a, es) ∧
      let u := s.trafficManager fab outPort m payload luck
      Follows N fab s u.1 u.2 a es (content N (m.frame payload)) := by
  cases outPort with
  | none =>
    refine ⟨false, s.decode N, [], rfl, sound, ⟨[], rfl, .done⟩, ?_, rfl⟩
    rw [State.trafficManager, gone_dropped, gone_nil, add_zero]
  | some q =>
    by_cases full : congested fab q luck.tm = true
    · have may : mayDrop fab.toNetwork q := by
        simp only [congested, Bool.and_eq_true, decide_eq_true_eq] at full
        exact full.1
      cases range : m.packet.range with
      | none =>
        have result : s.trafficManager fab (some q) m payload luck = (s, [.dropped (m.frame payload)]) := by
          simp only [State.trafficManager, if_pos full, holds.range, range]
        refine ⟨true, s.decode N, [], ?_, ?_⟩
        · simp only [NetSeer.State.trafficManager, if_pos, may, range]
        · rw [result]
          refine ⟨sound, ⟨[], rfl, .done⟩, ?_, rfl⟩
          rw [gone_dropped, gone_nil, add_zero]
      | some both =>
        have result : s.trafficManager fab (some q) m payload luck =
            (s, .dropped (m.frame payload) :: seenAt q [.nackLost both.1 both.2]) := by
          simp only [State.trafficManager, if_pos full, holds.range, range]
        refine ⟨true, s.decode N, NetSeer.seenAt q [.nackLost both.1 both.2], ?_, ?_⟩
        · simp only [NetSeer.State.trafficManager, if_pos, may, range]
        · rw [result]
          refine ⟨sound, ⟨[], rfl, .done⟩, ?_, rfl⟩
          rw [gone_dropped, gone_seenAt, add_zero]
    · refine ⟨false, _, _, rfl, ?_⟩
      have result : s.trafficManager fab (some q) m payload luck = s.egress fab q m payload luck := by
        simp only [State.trafficManager, if_neg full]
      intro u
      rw [show u = _ from result]
      exact egress_follows sound holds (fun nack => linked nack q rfl) luck

variable (N) in
/-- A stage that moves no host's packet. -/
structure Quiet (s t : State P S) (os : List (Obs P)) : Prop where
  sound : t.Sound N
  contents : contents N t.wire = contents N s.wire
  gone : gone N os = 0
  entered : enteredFrames os = []

omit [DecidableEq S] in
/-- `SendNACK` on a port with a link. -/
theorem sendNACK_quiet {s : State P S} (sound : s.Sound N) {q : P} (link : (fab.peer q).isSome) (range : UInt32 × UInt32)
    (drop : Bool) :
    let u := s.sendNACK fab q range drop
    (s.decode N).sendNACK fab.toNetwork q range (congested fab q drop) = some (u.1.decode N, u.2.flatMap Obs.image) ∧
      Quiet N s u.1 u.2 := by
  intro u
  obtain ⟨p, peer⟩ := Option.isSome_iff_exists.1 link
  by_cases full : congested fab q drop = true
  · have may : mayDrop fab.toNetwork q := by
      simp only [congested, Bool.and_eq_true, decide_eq_true_eq] at full
      exact full.1
    have result : u = (s, seenAt p [.nacked range.1 range.2, .nackLost range.1 range.2]) := by
      simp only [u, State.sendNACK, if_pos full, peer]
    rw [result]
    refine ⟨?_, sound, rfl, rfl, rfl⟩
    simp only [NetSeer.State.sendNACK, full, if_true, if_pos may, peer, image_seenAt]
  · have result : u = ({ s with wire := update s.wire q (s.wire q ++ [nackFrame range.1 range.2]) },
        seenAt p [.nacked range.1 range.2]) := by
      simp only [u, State.sendNACK, if_neg full, peer, State.transmit, Option.isSome_some, if_true, List.append_nil]
    have sent := decode_transmit (N := N) fab s link (nackFrame range.1 range.2)
    rw [packetOf_nackFrame] at sent
    rw [result]
    refine ⟨?_, sound.append q (.nack _ _), ?_, rfl, rfl⟩
    · simp only [NetSeer.State.sendNACK, full, Bool.false_eq_true, if_false, peer, sent, image_seenAt]
    · rw [contents_append, content_nackFrame, Multiset.coe_nil, add_zero]

omit [DecidableEq S] in
theorem answer_quiet {s : State P S} (sound : s.Sound N) {q : P} {r : IngressResult P}
    (link : r.nack ≠ none → (fab.peer q).isSome) (drop : Bool) :
    let u := s.answer fab q r drop
    (s.decode N).answer fab.toNetwork q r (congested fab q drop) = some (u.1.decode N, u.2.flatMap Obs.image) ∧
      Quiet N s u.1 u.2 := by
  cases nack : r.nack with
  | none =>
    simp only [State.answer, NetSeer.State.answer, nack]
    exact ⟨rfl, sound, rfl, rfl, rfl⟩
  | some range =>
    let t : State P S := { s with port := update s.port q r.port }
    have sent := sendNACK_quiet (s := t) sound (link (by simp [nack])) range drop
    simp only [State.answer, NetSeer.State.answer, nack]
    exact ⟨sent.1, sent.2.sound, sent.2.contents, sent.2.gone, sent.2.entered⟩

omit [DecidableEq P] [DecidableEq S] [Fintype P] in
/-- Only packets with a header are answered, and NACKs return to the port they came from. -/
theorem doIngress_linked {q : P} {headers : Headers N} (linked : headers.netSeer ≠ none → (fab.peer q).isSome)
    (outPort : Option P) (port : NetSeerPortInfo) :
    let r := Wire.doIngress q outPort headers port
    (r.nack ≠ none → (fab.peer q).isSome) ∧ (headers.range ≠ none → ∀ p ∈ r.outPort, (fab.peer p).isSome) := by
  cases netSeer : headers.netSeer with
  | none =>
    refine ⟨fun nack => ?_, fun range => ?_⟩
    · simp [Wire.doIngress, netSeer] at nack
    · simp [Headers.range, netSeer] at range
  | some header =>
    have link := linked (by simp [netSeer])
    refine ⟨fun _ => link, fun range p mem => ?_⟩
    have isNack : header.action = NACK := by
      by_contra other
      simp [Headers.range, netSeer, other] at range
    simp only [Wire.doIngress, netSeer, if_pos isNack, Option.mem_def, Option.some.injEq] at mem
    exact mem ▸ link

/-- A packet is moved after a NACK was sent. -/
theorem Follows.prepend {s t u : State P S} {os os' : List (Obs P)} {a : NetSeer.State P S} {es : List (Seen P)}
    {frames : List Frame} (quiet : Quiet N s t os) (h : Follows N fab t u os' a es frames) :
    Follows N fab s u (os ++ os') a (os.flatMap Obs.image ++ es) frames := by
  obtain ⟨es', image, settles⟩ := h.settles
  refine ⟨h.sound, ⟨es', ?_, settles⟩, ?_, ?_⟩
  · rw [List.flatMap_append, image, List.append_assoc]
  · rw [gone_append, quiet.gone, zero_add, h.balance, quiet.contents]
  · rw [entered_append, quiet.entered, h.entered, List.append_nil]

/-- **One frame.** What a switch does with a frame is what the numbered network does with its packet. -/
theorem receive_follows {s t : State P S} (sound : s.Sound N) {q : P} {frame : Frame} {headers : Headers N}
    {payload : Bytes} (parsed : parse frame = some (headers, payload))
    (holds : ∀ grayDrop, Holds (received frame headers grayDrop) payload ∧
      content N ((received frame headers grayDrop).frame payload) = content N frame)
    (linked : headers.netSeer ≠ none → (fab.peer q).isSome) {luck : Luck} {os : List (Obs P)}
    (run : s.receive N fab q frame luck = some (t, os)) :
    ∃ outPort tmDrop nackDrop a es, (∀ p ∈ outPort, fab.owner p = fab.owner q) ∧
      (s.decode N).ingress fab.toNetwork q outPort (packetOf N frame) tmDrop nackDrop = some (a, es) ∧
      Follows N fab s t os a es (content N frame) := by
  let flow := getFlowFiveTuple headers.hosts
  let route := (fab.forwarding (fab.owner q)).route q flow
  obtain ⟨held, whole⟩ := holds route.2
  obtain ⟨answered, back⟩ := doIngress_linked linked route.1 (s.port q)
  have same := held.doIngress q route.1 (s.port q)
  rw [show (received frame headers route.2).headers = headers from rfl] at same
  obtain ⟨reply, quiet⟩ := answer_quiet (s := s) sound answered luck.nack
  obtain ⟨drop, a, es, managed, follows⟩ := trafficManager_follows fab quiet.sound held
    (Wire.doIngress q route.1 headers (s.port q)).outPort (fun range => back (held.range ▸ range)) luck
  rw [whole] at follows
  rw [State.receive, parsed, Option.map_some] at run
  obtain ⟨rfl, rfl⟩ := Prod.mk.inj (Option.some.inj run)
  refine ⟨route.1, drop, congested fab q luck.nack, a, _, fun p mem => fab.own q p flow mem, ?_, follows.prepend quiet⟩
  simp only [NetSeer.State.ingress, packetOf_eq parsed route.2, ← same, show (s.decode N).port q = s.port q from rfl, reply,
    Option.bind_some, managed, Option.map_some]
  rfl

/-! ## Runs -/

variable (N) in
/-- Frames that come in by a port towards a host are frames of hosts. -/
def FromHosts : Label P → State P S → Prop
  | .enter _ frame _, _ => ∃ p : Switch.Packet N, Sendable p ∧ frame = hostFrame p
  | _, _ => True

variable (N fab) in
/-- What a step does in both networks. -/
structure Steps (s t : State P S) (os : List (Obs P)) : Prop where
  sound : t.Sound N
  run : Lts.Run (NetSeer.step fab.toNetwork) (fun _ _ => True) (s.decode N) (t.decode N) (os.flatMap Obs.image)
  balance : contents N t.wire + gone N os = contents N s.wire + ((enteredFrames os).map (Frame.sansLength N) : Multiset Frame)

omit [Fintype P] in
/-- A step of the numbered network, and the loss of a packet that it put on a link. -/
theorem Settles.run {l : NetSeer.Label P} {a b c : NetSeer.State P S} {es es' : List (Seen P)}
    (moved : NetSeer.step fab.toNetwork l a = some (b, es)) (settles : Settles fab b c es') :
    Lts.Run (NetSeer.step fab.toNetwork) (fun _ _ => True) a c (es ++ es') := by
  have first : Lts.Run (NetSeer.step fab.toNetwork) (fun _ _ => True) a b es := .single trivial moved
  cases settles with
  | done => simpa using first
  | lose p i lost => exact first.trans (.single trivial lost)

theorem enter_steps {s t : State P S} (sound : s.Sound N) {q : P} {luck : Luck} {os : List (Obs P)} {p : Switch.Packet N}
    (sendable : Sendable p) (run : step N fab (.enter q (hostFrame p) luck) s = some (t, os)) : Steps N fab s t os := by
  simp only [step] at run
  split at run
  · rename_i host
    obtain ⟨⟨u, shown⟩, entered, eq⟩ := Option.map_eq_some_iff.1 run
    obtain ⟨rfl, rfl⟩ := Prod.mk.inj eq
    have parsed := parse_hostFrame sendable
    obtain ⟨outPort, tmDrop, nackDrop, a, es, own, moved, follows⟩ := receive_follows sound parsed
      (received_hostFrame sendable) (fun header => absurd rfl header) entered
    have noHeader : (packetOf N (hostFrame p)).netSeer = none := by
      rw [packetOf_eq parsed false]
      rfl
    have enters : NetSeer.step fab.toNetwork (.enter q outPort (packetOf N (hostFrame p)) tmDrop) (s.decode N) =
        some (a, es) := by
      rw [NetSeer.step, if_pos ⟨host, noHeader, own⟩, ← moved]
      simp only [NetSeer.State.ingress, NetSeer.doIngress, noHeader, NetSeer.State.answer]
    obtain ⟨es', image, settles⟩ := follows.settles
    refine ⟨follows.sound, ?_, ?_⟩
    · rw [List.flatMap_cons, show Obs.image (.entered q (hostFrame p) : Obs P) = [] from rfl, List.nil_append, image]
      exact settles.run enters
    · have whole : contents N u.wire + gone N shown =
          contents N s.wire + ((hostFrame p :: enteredFrames shown).map (Frame.sansLength N) : Multiset Frame) := by
        rw [follows.entered, follows.balance, content_hostFrame sendable]
        rfl
      exact whole
  · cases run

theorem deliver_steps {s t : State P S} (sound : s.Sound N) {p : P} {luck : Luck} {os : List (Obs P)}
    (run : step N fab (.deliver p luck) s = some (t, os)) : Steps N fab s t os := by
  simp only [step] at run
  split at run
  · rename_i q frame rest link head
    obtain ⟨headers, payload, parsed, _, holds⟩ := (sound p frame (head ▸ List.mem_cons_self)).parses
    rw [parsed, Option.bind_some] at run
    obtain ⟨⟨u, shown⟩, arrived, eq⟩ := Option.map_eq_some_iff.1 run
    obtain ⟨rfl, rfl⟩ := Prod.mk.inj eq
    let s' : State P S := { s with wire := update s.wire p rest }
    have sound' : s'.Sound N := sound.remove p fun f mem => head ▸ List.mem_cons_of_mem _ mem
    have linked : (fab.peer q).isSome := by rw [fab.peer_symm p q link]; rfl
    obtain ⟨outPort, tmDrop, nackDrop, a, es, own, moved, follows⟩ :=
      receive_follows sound' parsed holds (fun _ => linked) arrived
    have number : headers.number = (packetOf N frame).number := by
      rw [packetOf_eq parsed false]
      exact (holds false).1.number
    have delivers : NetSeer.step fab.toNetwork (.deliver p outPort tmDrop nackDrop) (s.decode N) =
        some (a, (arrivedEvents N p headers).flatMap Obs.image ++ es) := by
      have wire : (s.decode N).wire p = packetOf N frame :: rest.map (packetOf N) := by
        simp only [State.decode, head, List.map_cons]
      simp only [NetSeer.step, link, wire, if_pos own]
      rw [← decode_wire, moved]
      cases carried : (packetOf N frame).number with
      | none => simp [arrivedEvents, number, carried]
      | some seq => simp [arrivedEvents, number, carried]
    have silent : gone N (arrivedEvents N p headers) = 0 ∧ enteredFrames (arrivedEvents N p headers) = [] := by
      rw [arrivedEvents]
      split
      · exact ⟨rfl, rfl⟩
      · exact ⟨rfl, rfl⟩
    obtain ⟨es', image, settles⟩ := follows.settles
    refine ⟨follows.sound, ?_, ?_⟩
    · rw [List.flatMap_append, image, ← List.append_assoc]
      exact settles.run delivers
    · have taken := contents_update N s.wire p rest
      rw [head, List.flatMap_cons, ← Multiset.coe_add, add_comm (content N frame : Multiset Frame), ← add_assoc] at taken
      have here : contents N s'.wire + (content N frame : Multiset Frame) = contents N s.wire := by
        rw [add_right_comm] at taken
        exact add_right_cancel taken
      rw [gone_append, silent.1, zero_add, entered_append, silent.2, follows.entered, follows.balance, here, List.append_nil,
        List.map_nil, Multiset.coe_nil, add_zero]
  · cases run

variable (fab) in
omit [DecidableEq P] [DecidableEq S] [Fintype P] in
theorem lossEvents_quiet (p : P) (headers : Headers N) :
    gone N (lossEvents fab p headers) = 0 ∧ enteredFrames (lossEvents fab p headers) = [] := by
  rw [lossEvents]
  split <;> exact ⟨rfl, rfl⟩

omit [DecidableEq P] [DecidableEq S] [Fintype P] in
theorem image_lossEvents {p : P} {headers : Headers N} {pkt : Packet} (number : headers.number = pkt.number)
    (range : headers.range = pkt.range) :
    (lossEvents fab p headers).flatMap Obs.image = NetSeer.lossEvents fab.toNetwork p pkt := by
  rw [lossEvents, NetSeer.lossEvents, number, range]
  cases pkt.number with
  | some seq => exact image_seenAt p _
  | none =>
    cases pkt.range with
    | none => rfl
    | some both =>
      cases fab.peer p with
      | none => rfl
      | some q => exact image_seenAt q _

theorem lose_steps {s t : State P S} (sound : s.Sound N) {p : P} {i : Nat} {os : List (Obs P)}
    (run : step N fab (.lose p i) s = some (t, os)) : Steps N fab s t os := by
  simp only [step] at run
  obtain ⟨frame, found, run⟩ := Option.bind_eq_some_iff.1 run
  obtain ⟨headers, payload, parsed, _, holds⟩ := (sound p frame (List.mem_of_getElem? found)).parses
  rw [parsed, Option.map_some] at run
  obtain ⟨rfl, rfl⟩ := Prod.mk.inj (Option.some.inj run)
  have number : headers.number = (packetOf N frame).number := by
    rw [packetOf_eq parsed false]
    exact (holds false).1.number
  have range : headers.range = (packetOf N frame).range := by
    rw [packetOf_eq parsed false]
    exact (holds false).1.range
  have loses : NetSeer.step fab.toNetwork (.lose p i) (s.decode N) =
      some (State.decode N { s with wire := update s.wire p ((s.wire p).eraseIdx i) },
        (lossEvents fab p headers).flatMap Obs.image) := by
    have found' : ((s.decode N).wire p)[i]? = some (packetOf N frame) := by
      simp only [State.decode, List.getElem?_map, found, Option.map_some]
    rw [decode_wire, image_lossEvents number range, NetSeer.step, found', Option.map_some, ← List.eraseIdx_map]
    rfl
  refine ⟨sound.remove p fun f mem => List.mem_of_mem_eraseIdx mem, ?_, ?_⟩
  · exact .single trivial loses
  · obtain ⟨quiet, none⟩ := lossEvents_quiet fab p headers
    have taken := contents_update N s.wire p ((s.wire p).eraseIdx i)
    have whole : ((s.wire p).flatMap (content N) : Multiset Frame) =
        content N frame + (((s.wire p).eraseIdx i).flatMap (content N) : List Frame) := by
      obtain ⟨short, rfl⟩ := List.getElem?_eq_some_iff.1 found
      rw [Multiset.coe_add, ← List.flatMap_cons]
      exact Multiset.coe_eq_coe.2 ((List.getElem_cons_eraseIdx_perm short).symm.flatMap_right (content N))
    rw [whole, ← add_assoc] at taken
    rw [gone_dropped, quiet, add_zero, add_right_cancel taken]
    show contents N s.wire = contents N s.wire +
      ((enteredFrames (lossEvents fab p headers)).map (Frame.sansLength N) : Multiset Frame)
    rw [none, List.map_nil, Multiset.coe_nil, add_zero]

theorem steps_of_step {s t : State P S} (sound : s.Sound N) {l : Label P} (fromHosts : FromHosts N l s)
    {os : List (Obs P)} (run : step N fab l s = some (t, os)) : Steps N fab s t os := by
  cases l with
  | enter q frame luck =>
    obtain ⟨p, sendable, rfl⟩ := fromHosts
    exact enter_steps sound sendable run
  | deliver p luck => exact deliver_steps sound run
  | lose p i => exact lose_steps sound run

theorem of_run {s : State P S} {tr : List (Obs P)} (run : Lts.Run (step N fab) (FromHosts N) State.start s tr) :
    s.Sound N ∧ Lts.Run (NetSeer.step fab.toNetwork) (fun _ _ => True) NetSeer.State.start (s.decode N)
      (tr.flatMap Obs.image) ∧ contents N s.wire + gone N tr =
      ((enteredFrames tr).map (Frame.sansLength N) : Multiset Frame) := by
  refine run.invariant (I := fun s tr => s.Sound N ∧ Lts.Run (NetSeer.step fab.toNetwork) (fun _ _ => True)
    NetSeer.State.start (s.decode N) (tr.flatMap Obs.image) ∧
      contents N s.wire + gone N tr = ((enteredFrames tr).map (Frame.sansLength N) : Multiset Frame)) ?_ ?_
  · refine ⟨fun _ _ mem => absurd mem List.not_mem_nil, .nil, ?_⟩
    simp [contents, State.start, enteredFrames]
  · rintro s t tr os l ⟨sound, run, balance⟩ fromHosts moved
    obtain ⟨sound', run', balance'⟩ := steps_of_step sound fromHosts moved
    refine ⟨sound', ?_, ?_⟩
    · rw [List.flatMap_append]
      exact run.trans run'
    · rw [gone_append, entered_append, List.map_append, ← Multiset.coe_add, ← balance, ← add_assoc, add_right_comm, balance',
        add_right_comm]

/-- **NetSeer switches on frames are the network of numbered packets**: every run on frames, read off the headers, is a run
of that network with the same events at the same ports, and it ends with the same ring buffers, event caches and logs. -/
theorem frames_refine {s : State P S} {tr : List (Obs P)} (run : Lts.Run (step N fab) (FromHosts N) State.start s tr) :
    Lts.Run (NetSeer.step fab.toNetwork) (fun _ _ => True) NetSeer.State.start (s.decode N) (tr.flatMap Obs.image) ∧
      (s.decode N).port = s.port ∧ (s.decode N).sim = s.sim ∧ ∀ p, ∀ frame ∈ s.wire p, InFlight N frame :=
  ⟨(of_run run).2.1, rfl, rfl, (of_run run).1⟩

end

/-! Two switches with a host each: `(b, true)` is the port of switch `b` to the other switch. -/

def hostPair : Fabric (Bool × Bool) Bool where
  owner p := p.1
  peer p := if p.2 then some (!p.1, true) else none
  config _ := oneCellCache
  peer_symm := by decide
  peer_ne := by decide
  switchId b := if b then 2 else 1
  failDropRate _ := 1
  forwarding _ := .portForwarding fun p => some (p.1, !p.2)
  own p q flow out := by
    obtain rfl := Option.some.inj out
    rfl

/-- A UDP packet of two bytes; `hit` ones are dropped by the gray failure of the first switch. -/
def udpPacket (hit : Bool) : Switch.Packet standardNs3 where
  protocol := IPV4
  headers := {
    ipv4 := some ⟨0x45 :: (if hit then 1 else 0) :: (List.replicate 7 0 ++ UDP :: List.replicate 10 0), rfl⟩
    udp := some { sourcePort := 7, destinationPort := 9 } }
  payload := [1, 2]

theorem udpPacket_sendable (hit : Bool) : Sendable (udpPacket hit) := by
  cases hit <;> exact ⟨⟨by decide, rfl, by decide, by decide, by decide, by decide⟩, by decide⟩

/-- The host of the first switch sends `udpPacket`s. -/
def Sends : Label (Bool × Bool) → State (Bool × Bool) Bool → Prop
  | .enter _ frame _, _ => frame ∈ [hostFrame (udpPacket false), hostFrame (udpPacket true)]
  | _, _ => True

instance : ∀ l s, Decidable (Sends l s)
  | .enter _ frame _, _ => inferInstanceAs (Decidable (frame ∈ _))
  | .deliver _ _, _ => inferInstanceAs (Decidable True)
  | .lose _ _, _ => inferInstanceAs (Decidable True)

theorem Sends.fromHosts (l : Label (Bool × Bool)) (s : State (Bool × Bool) Bool) (h : Sends l s) :
    FromHosts standardNs3 l s := by
  cases l with
  | enter q frame luck =>
    rcases List.mem_pair.1 h with rfl | rfl
    · exact ⟨_, udpPacket_sendable false, rfl⟩
    · exact ⟨_, udpPacket_sendable true, rfl⟩
  | deliver => trivial
  | lose => trivial

/-- One packet is lost by the gray failure and another one arrives, with another length in its header: the second switch sends a
NACK, and the first one counts the loss. -/
theorem gray_failure : ∃ s tr, Lts.Run (step standardNs3 hostPair) (FromHosts standardNs3) State.start s tr ∧
    (enteredFrames tr, handedFrames tr, droppedFrames standardNs3 tr, (s.port (false, true)).detectedCount) =
      ([hostFrame (udpPacket true), hostFrame (udpPacket false)], [hostFrame (udpPacket false).reread.reread],
        [(hostFrame (udpPacket true)).sansLength standardNs3], 1) := by
  obtain ⟨s, tr, run, shown⟩ : ∃ s tr, Lts.Run (step standardNs3 hostPair) Sends State.start s tr ∧
      (enteredFrames tr, handedFrames tr, droppedFrames standardNs3 tr, (s.port (false, true)).detectedCount) =
        ([hostFrame (udpPacket true), hostFrame (udpPacket false)], [hostFrame (udpPacket false).reread.reread],
          [(hostFrame (udpPacket true)).sansLength standardNs3], 1) :=
    Lts.Run.exists_of_guarded
      [.enter (false, false) (hostFrame (udpPacket true)) {}, .enter (false, false) (hostFrame (udpPacket false)) {},
        .deliver (false, true) {}, .deliver (true, true) {}] (by decide +kernel)
  exact ⟨s, tr, run.mono Sends.fromHosts, shown⟩

theorem frames_refine_gray : ∃ a : NetSeer.State (Bool × Bool) Bool, ∃ es,
    Lts.Run (NetSeer.step hostPair.toNetwork) (fun _ _ => True) NetSeer.State.start a es ∧
      (a.port (false, true)).detectedCount = 1 := by
  obtain ⟨s, tr, run, shown⟩ := gray_failure
  obtain ⟨run', ports, -⟩ := frames_refine run
  simp only [Prod.mk.injEq] at shown
  exact ⟨_, _, run', by rw [ports]; exact shown.2.2.2⟩

end Ns3Fancy.NetSeer.Wire
