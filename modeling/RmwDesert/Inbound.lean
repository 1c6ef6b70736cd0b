/-
The receive queue of a daemon (`_rx_packets` of `TcpDaemon.cpp`).

The queue is shared: the receiver pushes the packets that arrive at the socket, `enqueue_packet`
pushes the packets of its own process, and `read_packet` takes them out.  `Inbound` says how far
the receiver has got in what the socket was given; it does not depend on the queue.
-/
import RmwDesert.SocketLink

namespace RmwDesert
namespace TcpDaemon

open Receiver (initial)

/-! ## The receiver and its queue -/

namespace Receiver

/-- The receiver with another queue. -/
def withQueue (queue : List Packet) (s : Receiver) : Receiver := { s with rxPackets := queue }

@[simp] lemma rxPackets_withQueue (queue : List Packet) (s : Receiver) :
    (s.withQueue queue).rxPackets = queue := rfl

@[simp] lemma withQueue_rxPackets (s : Receiver) : s.withQueue s.rxPackets = s := rfl

@[simp] lemma withQueue_withQueue (queue queue' : List Packet) (s : Receiver) :
    (s.withQueue queue').withQueue queue = s.withQueue queue := rfl

/-- The receiver with more packets in front of its own. -/
def behind (queue : List Packet) (s : Receiver) : Receiver := s.withQueue (queue ++ s.rxPackets)

end Receiver

section

variable (b : UInt8) (queue : List Packet) (s : Receiver)

lemma findHeader_behind : findHeader b (s.behind queue) = (findHeader b s).behind queue := by
  rw [findHeader, findHeader, apply_ite (Receiver.behind queue)]
  rfl

lemma findTail_behind : findTail (s.behind queue) = (findTail s).behind queue := by
  rw [findTail, findTail, apply_ite (Receiver.behind queue), apply_ite (Receiver.behind queue)]
  have hpush : ({ s.behind queue with
      packet := [], foundHeader := false,
      rxPackets := queue ++ s.rxPackets ++ [s.packet.dropLast] } : Receiver)
      = Receiver.behind queue { s with
          packet := []
          foundHeader := false
          rxPackets := s.rxPackets ++ [s.packet.dropLast] } := by
    rw [Receiver.behind, Receiver.withQueue, List.append_assoc]
    rfl
  rw [← hpush]
  rfl

lemma trimWindow_behind : trimWindow (s.behind queue) = (trimWindow s).behind queue := by
  rw [trimWindow, trimWindow, apply_ite (Receiver.behind queue)]
  rfl

lemma resetOverflow_behind : resetOverflow (s.behind queue) = (resetOverflow s).behind queue := by
  rw [resetOverflow, resetOverflow, apply_ite (Receiver.behind queue)]
  rfl

/-- A byte pushes the same packets, whatever stands in the queue. -/
lemma rxByte_behind : rxByte (s.behind queue) b = (rxByte s b).behind queue := by
  rw [rxByte, rxByte, ← resetOverflow_behind, ← trimWindow_behind, ← findTail_behind,
    ← findHeader_behind]
  rfl

end

/-- The packets of some bytes come behind what stands in the queue. -/
lemma rxBytes_behind (bytes : List UInt8) (queue : List Packet) : ∀ s : Receiver,
    rxBytes (s.behind queue) bytes = (rxBytes s bytes).behind queue := by
  induction bytes with
  | nil => exact fun _ => rfl
  | cons b bytes ih =>
    intro s
    rw [rxBytes_cons, rxBytes_cons, rxByte_behind, ih]

/-! ## What has arrived -/

/-- The socket was given the frames of the packets that were heard, `incoming` are the bytes
that the receiver has not read, and `pushed` is the number of packets that it has pushed. -/
def Inbound (heard : List Packet) (incoming : List UInt8) (s : Receiver) (pushed : ℕ) : Prop :=
  ∃ consumed, consumed ++ incoming = heard.flatMap frame ∧
    s = (rxBytes initial consumed).withQueue s.rxPackets ∧
    (rxBytes initial consumed).rxPackets = heard.take pushed ∧ pushed ≤ heard.length

namespace Inbound

variable {heard : List Packet} {incoming : List UInt8} {s : Receiver} {pushed : ℕ}

lemma start : Inbound [] [] initial 0 := ⟨[], rfl, rfl, rfl, le_refl _⟩

/-- Others may use the queue. -/
lemma withQueue (h : Inbound heard incoming s pushed) (queue : List Packet) :
    Inbound heard incoming (s.withQueue queue) pushed := by
  obtain ⟨consumed, hbytes, hs, hpackets, hle⟩ := h
  refine ⟨consumed, hbytes, ?_, hpackets, hle⟩
  rw [hs]
  rfl

/-- Some more packets. -/
lemma hear (h : Inbound heard incoming s pushed) (packets : List Packet) :
    Inbound (heard ++ packets) (incoming ++ packets.flatMap frame) s pushed := by
  obtain ⟨consumed, hbytes, hs, hpackets, hle⟩ := h
  refine ⟨consumed, ?_, hs, ?_, ?_⟩
  · rw [← List.append_assoc, hbytes, List.flatMap_append]
  · rw [List.take_append_of_le_length hle, hpackets]
  · rw [List.length_append]
    omega

lemma rxBytes_rxPackets_eq (hframed : ∀ p ∈ heard, p.length ≤ maxPacketLength ∧ NoEarlyTail p) :
    (rxBytes initial (heard.flatMap frame)).rxPackets = heard := by
  obtain ⟨d, hframes⟩ := rxBytes_frames heard (fun p hp => (hframed p hp).1)
    (fun p hp => (hframed p hp).2) 0 []
  exact congrArg Receiver.rxPackets hframes

/-- The receiver reads some bytes and pushes the packets that these complete. -/
lemma read (h : Inbound heard incoming s pushed)
    (hframed : ∀ p ∈ heard, p.length ≤ maxPacketLength ∧ NoEarlyTail p)
    {bytes rest : List UInt8} (hbytes : bytes ++ rest = incoming) :
    ∃ pushed', pushed ≤ pushed' ∧ Inbound heard rest (rxBytes s bytes) pushed' ∧
      (rxBytes s bytes).rxPackets = s.rxPackets ++ (heard.take pushed').drop pushed := by
  obtain ⟨consumed, hconsumed, hs, hpackets, hle⟩ := h
  have hread : (consumed ++ bytes) ++ rest = heard.flatMap frame := by
    rw [List.append_assoc, hbytes, hconsumed]
  -- what is pushed is a prefix of what was heard
  have hprefix : (rxBytes initial (consumed ++ bytes)).rxPackets <+: heard := by
    have hmore := rxBytes_rxPackets (rxBytes initial (consumed ++ bytes)) rest
    rwa [← rxBytes_append, hread, rxBytes_rxPackets_eq hframed] at hmore
  have hearlier : (rxBytes initial consumed).rxPackets
      <+: (rxBytes initial (consumed ++ bytes)).rxPackets := by
    rw [rxBytes_append]
    exact rxBytes_rxPackets _ _
  have htake := List.prefix_iff_eq_take.mp hprefix
  -- the same bytes, read with the queue emptied first
  have hempty := rxBytes_behind bytes (heard.take pushed)
    ((rxBytes initial consumed).withQueue [])
  have hqueue := rxBytes_behind bytes s.rxPackets ((rxBytes initial consumed).withQueue [])
  simp only [Receiver.behind, Receiver.withQueue_withQueue, Receiver.rxPackets_withQueue,
    List.append_nil] at hempty hqueue
  rw [← hpackets, Receiver.withQueue_rxPackets, ← rxBytes_append] at hempty
  rw [← hs] at hqueue
  generalize rxBytes ((rxBytes initial consumed).withQueue []) bytes = new at hempty hqueue
  have hnew : (rxBytes initial (consumed ++ bytes)).rxPackets
      = (rxBytes initial consumed).rxPackets ++ new.rxPackets :=
    congrArg Receiver.rxPackets hempty
  have hlength : pushed = (rxBytes initial consumed).rxPackets.length := by
    rw [hpackets, List.length_take, min_eq_left hle]
  refine ⟨_, ?_, ⟨consumed ++ bytes, hread, ?_, htake, hprefix.length_le⟩, ?_⟩
  · rw [hlength]
    exact hearlier.length_le
  · rw [hqueue, hempty]
    rfl
  · rw [← htake, hnew, hlength, List.drop_left, hqueue]
    rfl

/-- Once all bytes are read, all packets are pushed. -/
lemma drained (h : Inbound heard [] s pushed)
    (hframed : ∀ p ∈ heard, p.length ≤ maxPacketLength ∧ NoEarlyTail p) :
    heard.take pushed = heard := by
  obtain ⟨consumed, hconsumed, -, hpackets, -⟩ := h
  rw [List.append_nil] at hconsumed
  rw [← hpackets, hconsumed, rxBytes_rxPackets_eq hframed]

end Inbound

end TcpDaemon
end RmwDesert
