/-
A socket between two daemons (`TcpDaemon.cpp`), with packets that are enqueued at any time.

`SocketLoops` shows that one pass of the transmitter leaves packets behind.  Here the turns of
its loop are interleaved with `enqueue_packet`, and the bytes that it sends with the passes of a
receiver at the other end.  The main results are

* `sent_in_order`: packets are sent in the order in which they are enqueued, and each of them
  after at most two turns for every packet in front of it;
* `link_fifo`: the packets that the receiver pushes are a prefix of those enqueued, and all of
  them once nothing is queued or under way.
-/
import RmwDesert.SocketLoops

namespace RmwDesert
namespace TcpDaemon

/-! ## The transmitter and the threads that enqueue -/

/-- `_tx_packets`, the index of the loop of `socket_tx_communication`, and what was sent. -/
structure Transmitter where
  txPackets : List Packet
  i : ℕ
  sent : List Packet
deriving DecidableEq, Repr

namespace Transmitter

def initial : Transmitter := ⟨[], 0, []⟩

/-- What happens to `_tx_packets`. -/
inductive Event
  /-- `enqueue_packet`, by any thread. -/
  | enqueue (packet : Packet)
  /-- The condition of the `for` loop and, if it holds, the body.  If it does not, the `while`
  loop starts the next pass. -/
  | turn
deriving DecidableEq, Repr

/-- One turn of the loop. -/
def turn (s : Transmitter) : Transmitter :=
  match s.txPackets with
  | [] => { s with i := 0 }
  | packet :: queue =>
    if s.i < (packet :: queue).length then ⟨queue, s.i + 1, s.sent ++ [packet]⟩
    else { s with i := 0 }

def step (s : Transmitter) : Event → Transmitter
  | .enqueue packet => { s with txPackets := s.txPackets ++ [packet] }
  | .turn => s.turn

def run (s : Transmitter) (events : List Event) : Transmitter := events.foldl step s

/-- The packets of the calls of `enqueue_packet`. -/
def enqueued (events : List Event) : List Packet :=
  events.filterMap fun
    | .enqueue packet => some packet
    | .turn => none

/-- The number of turns. -/
def turns (events : List Event) : ℕ := events.count .turn

@[simp] lemma run_cons (s : Transmitter) (event : Event) (events : List Event) :
    s.run (event :: events) = (s.step event).run events := rfl

lemma run_append (s : Transmitter) (first second : List Event) :
    s.run (first ++ second) = (s.run first).run second := List.foldl_append

/-- A turn sends the front of the queue or starts a new pass. -/
lemma turn_cases (s : Transmitter) :
    (∃ packet queue, s.txPackets = packet :: queue ∧
      s.turn = ⟨queue, s.i + 1, s.sent ++ [packet]⟩) ∨
    s.txPackets.length ≤ s.i ∧ s.turn = { s with i := 0 } := by
  rw [turn]
  cases hqueue : s.txPackets with
  | nil => exact Or.inr ⟨Nat.zero_le _, rfl⟩
  | cons packet queue =>
    dsimp only
    split_ifs with hi
    · exact Or.inl ⟨packet, queue, rfl, rfl⟩
    · exact Or.inr ⟨by omega, rfl⟩

/-- What was sent and what is queued make up what was enqueued. -/
lemma run_sent_append (s : Transmitter) (events : List Event) :
    (s.run events).sent ++ (s.run events).txPackets
      = s.sent ++ s.txPackets ++ enqueued events := by
  induction events generalizing s with
  | nil => simp [run, enqueued]
  | cons event events ih =>
    rw [run_cons, ih]
    cases event with
    | enqueue packet => simp [step, enqueued]
    | turn =>
      rcases s.turn_cases with ⟨packet, queue, hqueue, hturn⟩ | ⟨-, hturn⟩
      · rw [step, hturn, hqueue]
        simp [enqueued]
      · rw [step, hturn]
        rfl

/-- Nothing is taken back. -/
lemma sent_prefix_run (s : Transmitter) (events : List Event) :
    s.sent <+: (s.run events).sent := by
  induction events generalizing s with
  | nil => exact List.prefix_refl _
  | cons event events ih =>
    refine List.IsPrefix.trans ?_ (ih (s.step event))
    cases event with
    | enqueue packet => exact List.prefix_refl _
    | turn =>
      rcases s.turn_cases with ⟨packet, queue, -, hturn⟩ | ⟨-, hturn⟩
      · rw [step, hturn]
        exact List.prefix_append _ _
      · rw [step, hturn]

/-- The turns that pass before the `n`-th packet of the queue is sent: two for each packet, one
less if the loop is not at its end. -/
lemma length_sent_run (s : Transmitter) (events : List Event) : ∀ n ≤ s.txPackets.length,
    2 * n ≤ turns events + (if s.i < s.txPackets.length then 1 else 0) →
    s.sent.length + n ≤ (s.run events).sent.length := by
  induction events generalizing s with
  | nil =>
    intro n hn hturns
    have hnone : n = 0 := by
      simp only [turns, List.count_nil] at hturns
      split_ifs at hturns <;> omega
    rw [hnone]
    exact le_refl _
  | cons event events ih =>
    intro n hn hturns
    rw [run_cons]
    cases event with
    | enqueue packet =>
      have hcount : turns (.enqueue packet :: events) = turns events := by
        simp [turns]
      have hlen : (s.step (.enqueue packet)).txPackets.length = s.txPackets.length + 1 := by
        simp [step]
      refine ih (s.step (.enqueue packet)) n (by omega) ?_
      rw [hlen, show (s.step (.enqueue packet)).i = s.i from rfl]
      split_ifs at hturns ⊢ <;> omega
    | turn =>
      have hcount : turns (.turn :: events) = turns events + 1 := by
        simp [turns]
      cases n with
      | zero => exact (s.sent_prefix_run (.turn :: events)).length_le
      | succ n =>
        rcases s.turn_cases with ⟨packet, queue, hqueue, hturn⟩ | ⟨hend, hturn⟩
        · -- a packet is sent, and the others have moved up by one
          have hsent := ih (s.step .turn) n (by rw [step, hturn]; simp [hqueue] at hn; omega)
            (by split_ifs at hturns ⊢ <;> omega)
          rw [step, hturn, List.length_append, List.length_singleton] at hsent
          rw [step, hturn]
          omega
        · -- the next turn sends, for the index starts again
          have hsame : (s.step .turn).sent = s.sent := by rw [step, hturn]
          rw [← hsame]
          refine ih (s.step .turn) (n + 1) (by rw [step, hturn]; exact hn) ?_
          rw [step, hturn, if_pos (by dsimp only; omega)]
          rw [if_neg (by omega)] at hturns
          omega

end Transmitter

open Transmitter in
/-- **Packets under enqueueing.**  Whatever threads enqueue between the turns of the loop, what
is sent is a prefix of what was enqueued, in order and once; and a packet is sent after at most
two turns for each packet of the queue up to it. -/
theorem sent_in_order (first second : List Transmitter.Event) :
    (initial.run (first ++ second)).sent ++ (initial.run (first ++ second)).txPackets
        = enqueued (first ++ second) ∧
      ∀ n ≤ (initial.run first).txPackets.length, 2 * n ≤ turns second →
        (initial.run first).sent ++ (initial.run first).txPackets.take n
          <+: (initial.run (first ++ second)).sent := by
  have hall := run_sent_append initial (first ++ second)
  refine ⟨hall, fun n hn hturns => ?_⟩
  have hfirst : (initial.run first).sent ++ (initial.run first).txPackets = enqueued first :=
    run_sent_append initial first
  have hlen := length_sent_run (initial.run first) second n hn (by omega)
  rw [run_append] at hall ⊢
  -- both lists are prefixes of what was enqueued
  have henqueued : enqueued (first ++ second) = enqueued first ++ enqueued second :=
    List.filterMap_append
  have hprefix : (initial.run first).sent ++ (initial.run first).txPackets.take n
      <+: enqueued (first ++ second) := by
    rw [henqueued]
    refine List.IsPrefix.trans ?_ (List.prefix_append _ _)
    rw [← hfirst]
    exact (List.prefix_append_right_inj _).mpr (List.take_prefix _ _)
  refine List.prefix_of_prefix_length_le hprefix ⟨_, hall⟩ ?_
  rw [List.length_append, List.length_take, min_eq_left hn]
  exact hlen

/-! ## The receiver at the other end -/

/-- A transmitter, a receiver, and the number of bytes that the receiver has read. -/
structure SocketLink where
  transmitter : Transmitter
  consumed : ℕ
  receiver : Receiver
deriving DecidableEq, Repr

namespace SocketLink

def initial : SocketLink := ⟨.initial, 0, .initial⟩

/-- What happens at one of the two ends. -/
inductive Event
  | tx (event : Transmitter.Event)
  /-- A pass of `socket_rx_communication`. -/
  | rx (pass : Pass)

/-- The bytes that were given to `send`. -/
def stream (s : SocketLink) : List UInt8 := s.transmitter.sent.flatMap frame

/-- The bytes that were sent and not read. -/
def wire (s : SocketLink) : List UInt8 := s.stream.drop s.consumed

def move (s : SocketLink) : Event → SocketLink
  | .tx event => { s with transmitter := s.transmitter.step event }
  | .rx pass => { s with
      consumed := s.consumed + pass.received.length
      receiver := rxPass s.receiver pass }

/-- A move as a step, which never fails. -/
def step (s : SocketLink) (event : Event) : Except Empty SocketLink := .ok (s.move event)

/-- The packets of the calls of `enqueue_packet`. -/
def enqueued (events : List Event) : List Packet :=
  Transmitter.enqueued (events.filterMap fun
    | .tx event => some event
    | .rx _ => none)

/-- The events of a link: packets that can be framed, and passes that read what is on the wire
and whose buffer is read from where it was written. -/
def Allowed (s : SocketLink) : Event → Prop
  | .tx (.enqueue packet) => packet.length ≤ maxPacketLength ∧ NoEarlyTail packet
  | .tx .turn => True
  | .rx pass => pass.received <+: s.wire ∧ RepeatsStart [] pass.reads

/-- The receiver has read the first bytes of the stream. -/
structure Inv (s : SocketLink) : Prop where
  framed : ∀ packet ∈ s.transmitter.sent ++ s.transmitter.txPackets,
    packet.length ≤ maxPacketLength ∧ NoEarlyTail packet
  consumed_le : s.consumed ≤ s.stream.length
  receiver_eq : s.receiver = rxBytes .initial (s.stream.take s.consumed)

lemma inv_initial : initial.Inv := ⟨nofun, le_refl _, rfl⟩

lemma rxPass_eq {pass : Pass} (h : RepeatsStart [] pass.reads) (s : Receiver) :
    rxPass s pass = rxBytes s pass.received := by
  have hfed : [pass].flatMap Pass.fed = [pass].flatMap Pass.received :=
    (flatMap_fed_eq_iff [pass]).mpr (List.forall_mem_singleton.mpr h)
  have hpasses := rxPasses_eq [pass] s
  rw [hfed] at hpasses
  simpa [rxPasses] using hpasses

lemma Inv.step {s t : SocketLink} {event : Event} (hs : s.Inv) (hevent : s.Allowed event)
    (h : s.step event = .ok t) : t.Inv := by
  obtain rfl := Except.ok.inj h
  cases event with
  | tx event =>
    have hsent := s.transmitter.run_sent_append [event]
    obtain ⟨more, hmore⟩ := s.transmitter.sent_prefix_run [event]
    have hstream : (s.transmitter.step event).sent.flatMap frame
        = s.stream ++ more.flatMap frame := by
      rw [stream, ← List.flatMap_append, hmore]
      rfl
    refine ⟨fun packet hpacket => ?_, ?_, ?_⟩
    · replace hpacket : packet ∈ (s.transmitter.run [event]).sent
          ++ (s.transmitter.run [event]).txPackets := hpacket
      rw [hsent, List.mem_append] at hpacket
      rcases hpacket with hpacket | hpacket
      · exact hs.framed packet hpacket
      · cases event with
        | enqueue packet' =>
          obtain rfl := List.mem_singleton.mp hpacket
          exact hevent
        | turn => cases hpacket
    · show s.consumed ≤ ((s.transmitter.step event).sent.flatMap frame).length
      rw [hstream, List.length_append]
      exact hs.consumed_le.trans (Nat.le_add_right _ _)
    · show s.receiver
        = rxBytes .initial (((s.transmitter.step event).sent.flatMap frame).take s.consumed)
      rw [hstream, List.take_append_of_le_length hs.consumed_le]
      exact hs.receiver_eq
  | rx pass =>
    obtain ⟨⟨rest, hrest⟩, hrepeats⟩ := hevent
    have hwire : pass.received.length + rest.length = s.stream.length - s.consumed := by
      rw [← List.length_append, hrest, wire, List.length_drop]
    have hle := hs.consumed_le
    refine ⟨hs.framed, ?_, ?_⟩
    · show s.consumed + pass.received.length ≤ s.stream.length
      omega
    · show rxPass s.receiver pass
        = rxBytes .initial (s.stream.take (s.consumed + pass.received.length))
      have htake : (s.stream.drop s.consumed).take pass.received.length = pass.received := by
        rw [← wire, ← hrest, List.take_left]
      rw [rxPass_eq hrepeats, hs.receiver_eq, List.take_add, htake, rxBytes_append]

lemma enqueued_run {s t : SocketLink} {events : List Event}
    (h : Transition.run step s events = .ok t) :
    t.transmitter.sent ++ t.transmitter.txPackets
      = s.transmitter.sent ++ s.transmitter.txPackets ++ enqueued events := by
  induction events generalizing s with
  | nil =>
    obtain rfl := Except.ok.inj h
    exact (List.append_nil _).symm
  | cons event events ih =>
    obtain ⟨u, hu, h⟩ := Transition.run_cons h
    obtain rfl := Except.ok.inj hu
    rw [ih h]
    cases event with
    | tx event =>
      have hsent : (s.move (.tx event)).transmitter.sent
          ++ (s.move (.tx event)).transmitter.txPackets
          = s.transmitter.sent ++ s.transmitter.txPackets ++ Transmitter.enqueued [event] :=
        s.transmitter.run_sent_append [event]
      rw [hsent, List.append_assoc]
      cases event with
      | enqueue packet => rfl
      | turn => rfl
    | rx pass => rfl

end SocketLink

open SocketLink in
/-- **The link is a queue.**  The packets that the receiver pushes are a prefix of those that
were enqueued at the other end, in order and once, and once nothing is queued or on the wire
they are all of them. -/
theorem link_fifo {events : List SocketLink.Event} {s : SocketLink}
    (hallowed : Transition.EveryStep SocketLink.step Allowed SocketLink.initial events)
    (hrun : Transition.run SocketLink.step SocketLink.initial events = .ok s) :
    s.receiver.rxPackets <+: enqueued events ∧
      (s.transmitter.txPackets = [] → s.wire = [] →
        s.receiver.rxPackets = enqueued events ∧ s.receiver.Idle) := by
  have hinv : s.Inv := Transition.run_invariant Inv.step inv_initial hallowed hrun
  have henqueued : s.transmitter.sent ++ s.transmitter.txPackets = enqueued events :=
    enqueued_run hrun
  have hsent : ∀ packet ∈ s.transmitter.sent,
      packet.length ≤ maxPacketLength ∧ NoEarlyTail packet :=
    fun packet hpacket => hinv.framed packet (List.mem_append_left _ hpacket)
  obtain ⟨d, hframes⟩ := rxBytes_frames s.transmitter.sent (fun p hp => (hsent p hp).1)
    (fun p hp => (hsent p hp).2) 0 []
  have hall : rxBytes .initial s.stream = ⟨[], false, d, s.transmitter.sent⟩ := hframes
  constructor
  · -- what was read is a prefix of the stream
    have hprefix := rxBytes_rxPackets (rxBytes .initial (s.stream.take s.consumed))
      (s.stream.drop s.consumed)
    rw [← rxBytes_append, List.take_append_drop, hall, ← hinv.receiver_eq] at hprefix
    exact hprefix.trans ⟨_, henqueued⟩
  · intro hqueue hwire
    have hread : s.stream.take s.consumed = s.stream := by
      rw [← List.take_append_drop s.consumed s.stream, ← wire, hwire, List.append_nil,
        List.take_take, min_self]
    rw [hinv.receiver_eq, hread, hall, ← henqueued, hqueue, List.append_nil]
    exact ⟨rfl, rfl, rfl⟩

lemma length_cleared : (List.replicate bufferSize (0 : UInt8)).length = bufferSize :=
  List.length_replicate

/-- A pass with a single read. -/
def Pass.single (bytes : List UInt8) (hne : bytes ≠ []) (hfit : bytes.length ≤ bufferSize) :
    Pass where
  stack := List.replicate bufferSize 0
  reads := [bytes]
  stack_length := length_cleared
  reads_ne := List.forall_mem_singleton.mpr hne
  reads_fit := by rwa [List.flatten_singleton]

/-- A pass that reads the frame of the packet `07`. -/
def framePass : Pass := .single (frame [7]) (by decide) (by decide)

open SocketLink in
/-- A packet that is enqueued, sent and read. -/
theorem link_fifo_one : ∃ s, Transition.run SocketLink.step SocketLink.initial
      [.tx (.enqueue [7]), .tx .turn, .rx framePass] = .ok s ∧ s.receiver.rxPackets = [[7]] := by
  have hallowed : Transition.EveryStep SocketLink.step Allowed SocketLink.initial
      [.tx (.enqueue [7]), .tx .turn, .rx framePass] := by
    have hframed : ([7] : Packet).length ≤ maxPacketLength ∧ NoEarlyTail [7] := by decide
    refine ⟨hframed, fun s₁ h₁ => ⟨trivial, fun s₂ h₂ => ⟨?_, fun _ _ => trivial⟩⟩⟩
    obtain rfl := Except.ok.inj h₁
    obtain rfl := Except.ok.inj h₂
    exact ⟨List.prefix_refl _, repeatsStart_of_length_le_one (le_refl _)⟩
  exact ⟨_, rfl, ((link_fifo hallowed rfl).2 rfl rfl).1⟩

end TcpDaemon
end RmwDesert
