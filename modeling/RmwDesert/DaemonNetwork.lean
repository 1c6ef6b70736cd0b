/-
Daemons that hear each other (`TcpDaemon.cpp`).

Every process has a daemon.  A packet that is enqueued goes to the socket and to the receive
queue of its own process; a packet that is sent reaches the sockets of those processes that hear
it.  `Delivers` accounts for the packets that reach the receive queue of one process, with a rule
for each operation of the daemons.
-/
import RmwDesert.Inbound
import RmwDesert.Lib.Merge

namespace RmwDesert
namespace TcpDaemon

open Merge (ofSource)

/-- A daemon, and the bytes that have reached its socket. -/
structure Daemon where
  transmitter : Transmitter
  incoming : List UInt8
  /-- The receiver, whose queue is `_rx_packets`. -/
  receiver : Receiver

namespace Daemon

/-- `enqueue_packet`. -/
def enqueuePacket (packet : Packet) (s : Daemon) : Daemon := { s with
  transmitter := s.transmitter.step (.enqueue packet)
  receiver := s.receiver.withQueue (s.receiver.rxPackets ++ [packet]) }

/-- One turn of the loop of `socket_tx_communication`, and the packets that it sends. -/
def turn (s : Daemon) : Daemon × List Packet :=
  ({ s with transmitter := s.transmitter.turn },
    s.transmitter.turn.sent.drop s.transmitter.sent.length)

/-- The frames of some packets reach the socket. -/
def hear (packets : List Packet) (s : Daemon) : Daemon := { s with
  incoming := s.incoming ++ packets.flatMap frame }

/-- One pass of `socket_rx_communication`. -/
def rxPass (pass : Pass) (s : Daemon) : Daemon := { s with
  incoming := s.incoming.drop pass.received.length
  receiver := TcpDaemon.rxPass s.receiver pass }

/-- `read_packet` has taken some packets out of the queue. -/
def leaving (queue : List Packet) (s : Daemon) : Daemon :=
  { s with receiver := s.receiver.withQueue queue }

end Daemon

/-- A turn of a transmitter, and who hears what it sends. -/
def broadcast {ι : Type} [DecidableEq ι] (g : ι) (heard : ι → Bool) (d : ι → Daemon) :
    ι → Daemon := fun h =>
  if h = g then (d g).turn.1
  else if heard h then (d h).hear (d g).turn.2
  else d h

/-! ## The packets on their way to a process -/

/-- How far the packets have come. -/
structure Passage (ι α : Type) where
  /-- The packets that the socket was given. -/
  heard : List (ι × α)
  /-- How many of them the receiver has pushed. -/
  pushed : ℕ
  /-- The packets that `read_packet` took out of the receive queue. -/
  dispatched : List (ι × α)
  /-- The packets of the receive queue. -/
  pending : List (ι × α)

/-- The packets that were enqueued, and those that have reached the process `h`. -/
structure Delivers {ι α : Type} [DecidableEq ι] (packet : α → Packet) (h : ι) (lossless : Prop)
    (d : ι → Daemon) (log : ι → List α) (p : Passage ι α) : Prop where
  logged : ∀ g, (d g).transmitter.sent ++ (d g).transmitter.txPackets = (log g).map packet
  framed : ∀ g, ∀ x ∈ log g, (packet x).length ≤ maxPacketLength ∧ NoEarlyTail (packet x)
  heard_ne : ∀ e ∈ p.heard, e.1 ≠ h
  heard : ∀ g ≠ h, (ofSource g p.heard).Sublist ((log g).take (d g).transmitter.sent.length)
  heard_eq : lossless → ∀ g ≠ h,
    ofSource g p.heard = (log g).take (d g).transmitter.sent.length
  inbound : Inbound (p.heard.map (packet ·.2)) (d h).incoming (d h).receiver p.pushed
  arrived : (p.dispatched ++ p.pending).filter (fun e => !decide (e.1 = h))
    = p.heard.take p.pushed
  own : ofSource h (p.dispatched ++ p.pending) = log h
  queue : (d h).receiver.rxPackets = p.pending.map (packet ·.2)

namespace Delivers

variable {ι α : Type} [DecidableEq ι] {packet : α → Packet} {h : ι} {lossless : Prop}
  {d d' : ι → Daemon} {log : ι → List α} {p : Passage ι α}

lemma start (hd : ∀ g, (d g).transmitter = .initial) (hincoming : (d h).incoming = [])
    (hreceiver : (d h).receiver = .initial) :
    Delivers packet h lossless d (fun _ => []) ⟨[], 0, [], []⟩ where
  logged g := by
    rw [hd]
    rfl
  framed _ := nofun
  heard_ne := nofun
  heard g _ := List.nil_sublist _
  heard_eq _ _ _ := List.take_nil.symm
  inbound := by
    rw [hincoming, hreceiver]
    exact Inbound.start
  arrived := rfl
  own := rfl
  queue := by
    rw [hreceiver]
    rfl

/-- What other processes receive does not matter. -/
lemma congr (hp : Delivers packet h lossless d log p)
    (htransmitter : ∀ g, (d' g).transmitter = (d g).transmitter) (hself : d' h = d h) :
    Delivers packet h lossless d' log p where
  logged g := by
    rw [htransmitter]
    exact hp.logged g
  framed := hp.framed
  heard_ne := hp.heard_ne
  heard g hg := by
    rw [htransmitter]
    exact hp.heard g hg
  heard_eq hl g hg := by
    rw [htransmitter]
    exact hp.heard_eq hl g hg
  inbound := by
    rw [hself]
    exact hp.inbound
  arrived := hp.arrived
  own := hp.own
  queue := by
    rw [hself]
    exact hp.queue

/-- The packets that were heard are logged by their senders. -/
lemma mem_log_of_heard (hp : Delivers packet h lossless d log p) {e : ι × α} (he : e ∈ p.heard) :
    e.2 ∈ log e.1 := by
  have hsource : e.2 ∈ ofSource e.1 p.heard :=
    List.mem_map.mpr ⟨e, List.mem_filter.mpr ⟨he, decide_eq_true rfl⟩, rfl⟩
  exact List.mem_of_mem_take ((hp.heard e.1 (hp.heard_ne e he)).subset hsource)

lemma heard_framed (hp : Delivers packet h lossless d log p) :
    ∀ q ∈ p.heard.map (packet ·.2), q.length ≤ maxPacketLength ∧ NoEarlyTail q := by
  intro q hq
  obtain ⟨e, he, rfl⟩ := List.mem_map.mp hq
  exact hp.framed e.1 e.2 (hp.mem_log_of_heard he)

lemma length_sent_le (hp : Delivers packet h lossless d log p) (g : ι) :
    (d g).transmitter.sent.length ≤ (log g).length := by
  rw [← List.length_map packet, ← hp.logged g, List.length_append]
  exact Nat.le_add_right _ _

/-- A packet is enqueued. -/
lemma enqueue (hp : Delivers packet h lossless d log p) (g : ι) {x : α}
    (hx : (packet x).length ≤ maxPacketLength ∧ NoEarlyTail (packet x)) :
    ∃ p', p'.dispatched = p.dispatched ∧
      Delivers packet h lossless (Function.update d g ((d g).enqueuePacket (packet x)))
        (Function.update log g (log g ++ [x])) p' := by
  -- the log grows at its end, behind what was sent
  have hlogged : ∀ i, ((Function.update d g ((d g).enqueuePacket (packet x))) i).transmitter.sent
        ++ ((Function.update d g ((d g).enqueuePacket (packet x))) i).transmitter.txPackets
      = (Function.update log g (log g ++ [x]) i).map packet := by
    intro i
    rcases eq_or_ne i g with rfl | hi
    · rw [Function.update_self, Function.update_self, List.map_append, ← hp.logged i,
        List.append_assoc]
      rfl
    · rw [Function.update_of_ne hi, Function.update_of_ne hi]
      exact hp.logged i
  have hframed : ∀ i, ∀ y ∈ Function.update log g (log g ++ [x]) i,
      (packet y).length ≤ maxPacketLength ∧ NoEarlyTail (packet y) := by
    intro i y hy
    rcases eq_or_ne i g with rfl | hi
    · rw [Function.update_self] at hy
      rcases List.mem_append.mp hy with hy | hy
      · exact hp.framed i y hy
      · obtain rfl := List.mem_singleton.mp hy
        exact hx
    · rw [Function.update_of_ne hi] at hy
      exact hp.framed i y hy
  have hsent : ∀ i, (Function.update log g (log g ++ [x]) i).take
        ((Function.update d g ((d g).enqueuePacket (packet x))) i).transmitter.sent.length
      = (log i).take (d i).transmitter.sent.length := by
    intro i
    rcases eq_or_ne i g with rfl | hi
    · rw [Function.update_self, Function.update_self]
      exact List.take_append_of_le_length (hp.length_sent_le i)
    · rw [Function.update_of_ne hi, Function.update_of_ne hi]
  rcases eq_or_ne g h with rfl | hg
  · refine ⟨{ p with pending := p.pending ++ [(g, x)] }, rfl, hlogged, hframed, hp.heard_ne,
      fun i hi => ?_, fun hl i hi => ?_, ?_, ?_, ?_, ?_⟩
    · rw [hsent]
      exact hp.heard i hi
    · rw [hsent]
      exact hp.heard_eq hl i hi
    · rw [Function.update_self]
      exact hp.inbound.withQueue _
    · rw [← List.append_assoc, List.filter_append, hp.arrived]
      simp
    · rw [← List.append_assoc, Merge.ofSource_append, hp.own, Merge.ofSource_singleton,
        Function.update_self]
    · rw [Function.update_self, List.map_append, ← hp.queue]
      rfl
  · refine ⟨p, rfl, hlogged, hframed, hp.heard_ne, fun i hi => ?_, fun hl i hi => ?_, ?_,
      hp.arrived, ?_, ?_⟩
    · rw [hsent]
      exact hp.heard i hi
    · rw [hsent]
      exact hp.heard_eq hl i hi
    · rw [Function.update_of_ne hg.symm]
      exact hp.inbound
    · rw [Function.update_of_ne hg.symm]
      exact hp.own
    · rw [Function.update_of_ne hg.symm]
      exact hp.queue

/-- The entries of what a turn sends. -/
lemma take_turn (hp : Delivers packet h lossless d log p) (g : ι) :
    ∃ new : List α, new.map packet = (d g).turn.2 ∧
      (log g).take (d g).transmitter.turn.sent.length
        = (log g).take (d g).transmitter.sent.length ++ new := by
  have hle : (d g).transmitter.sent.length ≤ (d g).transmitter.turn.sent.length :=
    ((d g).transmitter.sent_prefix_run [.turn]).length_le
  have hlogged : (d g).transmitter.turn.sent ++ (d g).transmitter.turn.txPackets
      = (log g).map packet := by
    rw [← hp.logged g]
    exact ((d g).transmitter.run_sent_append [.turn]).trans (List.append_nil _)
  refine ⟨((log g).take (d g).transmitter.turn.sent.length).drop (d g).transmitter.sent.length,
    ?_, ?_⟩
  · rw [List.map_drop, List.map_take, ← hlogged, List.take_left]
    rfl
  · have hsplit := List.take_append_drop (d g).transmitter.sent.length
      ((log g).take (d g).transmitter.turn.sent.length)
    rw [List.take_take, min_eq_left hle] at hsplit
    exact hsplit.symm

/-- A transmitter sends, and some processes hear it. -/
lemma broadcast (hp : Delivers packet h lossless d log p) (g : ι) {heard : ι → Bool}
    (hlossless : lossless → g ≠ h → heard h = true) :
    ∃ p', p'.dispatched = p.dispatched ∧
      Delivers packet h lossless (TcpDaemon.broadcast g heard d) log p' := by
  obtain ⟨new, hnew, htake⟩ := hp.take_turn g
  have htransmitter : ∀ i, (TcpDaemon.broadcast g heard d i).transmitter
      = if i = g then (d g).transmitter.turn else (d i).transmitter := by
    intro i
    rw [TcpDaemon.broadcast]
    split_ifs <;> rfl
  have hlogged : ∀ i, (TcpDaemon.broadcast g heard d i).transmitter.sent
      ++ (TcpDaemon.broadcast g heard d i).transmitter.txPackets = (log i).map packet := by
    intro i
    rw [htransmitter]
    split_ifs with hi
    · rw [hi, ← hp.logged g]
      exact ((d g).transmitter.run_sent_append [.turn]).trans (List.append_nil _)
    · exact hp.logged i
  have hsent : ∀ i, (log i).take (TcpDaemon.broadcast g heard d i).transmitter.sent.length
      = (log i).take (d i).transmitter.sent.length ++ if i = g then new else [] := by
    intro i
    rw [htransmitter]
    split_ifs with hi
    · rw [hi]
      exact htake
    · rw [List.append_nil]
  by_cases hhears : g ≠ h ∧ heard h = true
  · obtain ⟨hg, hheard⟩ := hhears
    have hself : TcpDaemon.broadcast g heard d h = (d h).hear (d g).turn.2 := by
      rw [TcpDaemon.broadcast, if_neg hg.symm, if_pos hheard]
    have hle : p.pushed ≤ p.heard.length := by
      obtain ⟨-, -, -, -, hle⟩ := hp.inbound
      rwa [List.length_map] at hle
    have hpackets : (new.map fun x => (g, x)).map (fun e : ι × α => packet e.2)
        = (d g).turn.2 := by
      rw [List.map_map]
      exact hnew
    refine ⟨{ p with heard := p.heard ++ new.map fun x => (g, x) }, rfl, hlogged, hp.framed,
      fun e he => ?_, fun i hi => ?_, fun hl i hi => ?_, ?_, ?_, hp.own, ?_⟩
    · rcases List.mem_append.mp he with he | he
      · exact hp.heard_ne e he
      · obtain ⟨x, -, rfl⟩ := List.mem_map.mp he
        exact hg
    · rw [hsent, Merge.ofSource_append, Merge.ofSource_map_mk]
      exact (hp.heard i hi).append_right _
    · rw [hsent, Merge.ofSource_append, Merge.ofSource_map_mk, hp.heard_eq hl i hi]
    · rw [hself, List.map_append, hpackets]
      exact hp.inbound.hear _
    · rw [List.take_append_of_le_length hle]
      exact hp.arrived
    · rw [hself]
      exact hp.queue
  · -- the process hears nothing
    have hsame : (TcpDaemon.broadcast g heard d h).incoming = (d h).incoming ∧
        (TcpDaemon.broadcast g heard d h).receiver = (d h).receiver := by
      rw [TcpDaemon.broadcast]
      split_ifs with hg hheard
      · rw [hg]
        exact ⟨rfl, rfl⟩
      · exact absurd ⟨Ne.symm hg, hheard⟩ hhears
      · exact ⟨rfl, rfl⟩
    refine ⟨p, rfl, hlogged, hp.framed, hp.heard_ne, fun i hi => ?_, fun hl i hi => ?_, ?_,
      hp.arrived, hp.own, ?_⟩
    · rw [hsent]
      exact (hp.heard i hi).trans (List.sublist_append_left _ _)
    · have hself : g = h := by
        by_contra hg
        exact hhears ⟨hg, hlossless hl hg⟩
      rw [hsent, if_neg (by rw [hself]; exact hi), List.append_nil]
      exact hp.heard_eq hl i hi
    · rw [hsame.1, hsame.2]
      exact hp.inbound
    · rw [hsame.2]
      exact hp.queue

/-- A receiver pushes what it has read. -/
lemma rxPass (hp : Delivers packet h lossless d log p) (i : ι) {pass : Pass}
    (hpass : i = h → pass.received <+: (d i).incoming ∧ RepeatsStart [] pass.reads) :
    ∃ p', p'.dispatched = p.dispatched ∧
      Delivers packet h lossless (Function.update d i ((d i).rxPass pass)) log p' := by
  have htransmitter : ∀ g, (Function.update d i ((d i).rxPass pass) g).transmitter
      = (d g).transmitter := by
    intro g
    rcases eq_or_ne g i with rfl | hg
    · rw [Function.update_self]
      rfl
    · rw [Function.update_of_ne hg]
  rcases eq_or_ne i h with rfl | hi
  · obtain ⟨⟨rest, hrest⟩, hrepeats⟩ := hpass rfl
    obtain ⟨pushed', hle, hinbound, hqueue⟩ := hp.inbound.read hp.heard_framed hrest
    rw [← SocketLink.rxPass_eq hrepeats] at hinbound hqueue
    have hdrop : (d i).incoming.drop pass.received.length = rest := by
      rw [← hrest, List.drop_left]
    obtain ⟨new, hnew⟩ : ∃ new, new = (p.heard.take pushed').drop p.pushed := ⟨_, rfl⟩
    have hmem : ∀ e ∈ new, e.1 ≠ i := by
      intro e he
      rw [hnew] at he
      exact hp.heard_ne e (List.mem_of_mem_take (List.mem_of_mem_drop he))
    have htake : p.heard.take p.pushed ++ new = p.heard.take pushed' := by
      have hsplit := List.take_append_drop p.pushed (p.heard.take pushed')
      rwa [List.take_take, min_eq_left hle, ← hnew] at hsplit
    refine ⟨{ p with pushed := pushed', pending := p.pending ++ new }, rfl, fun g => ?_, hp.framed,
      hp.heard_ne, fun g hg => ?_, fun hl g hg => ?_, ?_, ?_, ?_, ?_⟩
    · rw [htransmitter]
      exact hp.logged g
    · rw [htransmitter]
      exact hp.heard g hg
    · rw [htransmitter]
      exact hp.heard_eq hl g hg
    · rw [Function.update_self]
      show Inbound _ ((d i).incoming.drop pass.received.length) _ _
      rw [hdrop]
      exact hinbound
    · have hfilter : new.filter (fun e => !decide (e.1 = i)) = new :=
        List.filter_eq_self.mpr fun e he => by simpa using hmem e he
      show ((p.dispatched ++ (p.pending ++ new)).filter _) = _
      rw [← List.append_assoc, List.filter_append, hp.arrived, hfilter, htake]
    · have hnone : ofSource i new = [] := by
        have hfilter : new.filter (·.1 = i) = [] :=
          List.filter_eq_nil_iff.mpr fun e he => by simpa using hmem e he
        rw [ofSource, hfilter]
        rfl
      show ofSource i (p.dispatched ++ (p.pending ++ new)) = log i
      rw [← List.append_assoc, Merge.ofSource_append, hp.own, hnone, List.append_nil]
    · rw [Function.update_self]
      show (TcpDaemon.rxPass (d i).receiver pass).rxPackets = (p.pending ++ new).map _
      rw [hqueue, hp.queue, List.map_append, hnew, List.map_drop, List.map_take]
  · exact ⟨p, rfl, hp.congr htransmitter (Function.update_of_ne hi.symm ..)⟩

/-- `interpret_packets` takes the whole queue. -/
lemma dispatch (hp : Delivers packet h lossless d log p) :
    Delivers packet h lossless (Function.update d h ((d h).leaving [])) log
      { p with dispatched := p.dispatched ++ p.pending, pending := [] } := by
  have htransmitter : ∀ g, (Function.update d h ((d h).leaving []) g).transmitter
      = (d g).transmitter := by
    intro g
    rcases eq_or_ne g h with rfl | hg
    · rw [Function.update_self]
      rfl
    · rw [Function.update_of_ne hg]
  refine ⟨fun g => ?_, hp.framed, hp.heard_ne, fun g hg => ?_, fun hl g hg => ?_, ?_, ?_, ?_, ?_⟩
  · rw [htransmitter]
    exact hp.logged g
  · rw [htransmitter]
    exact hp.heard g hg
  · rw [htransmitter]
    exact hp.heard_eq hl g hg
  · rw [Function.update_self]
    exact hp.inbound.withQueue _
  · rw [List.append_nil]
    exact hp.arrived
  · rw [List.append_nil]
    exact hp.own
  · rw [Function.update_self]
    rfl

/-! ## What has been dispatched -/

/-- What was dispatched is part of the logs. -/
lemma dispatched_sublist (hp : Delivers packet h lossless d log p) (g : ι) :
    (ofSource g p.dispatched).Sublist (log g) := by
  have hall : (ofSource g p.dispatched).Sublist (ofSource g (p.dispatched ++ p.pending)) :=
    Merge.ofSource_sublist (List.sublist_append_left _ _) g
  refine hall.trans ?_
  rcases eq_or_ne g h with rfl | hg
  · rw [hp.own]
  · have hother := Merge.ofSource_filter_ne hg (p.dispatched ++ p.pending)
    simp only [ne_eq, decide_not] at hother
    rw [← hother, hp.arrived]
    refine (Merge.ofSource_sublist (List.take_sublist _ _) g).trans ?_
    exact (hp.heard g hg).trans (List.take_sublist _ _)

/-- The packets of the queue are logged by their senders. -/
lemma mem_log (hp : Delivers packet h lossless d log p) {e : ι × α}
    (he : e ∈ p.dispatched ++ p.pending) : e.2 ∈ log e.1 := by
  rcases eq_or_ne e.1 h with heq | hne
  · rw [heq, ← hp.own]
    exact List.mem_map.mpr ⟨e, List.mem_filter.mpr ⟨he, decide_eq_true heq⟩, rfl⟩
  · have hheard : e ∈ p.heard.take p.pushed := by
      rw [← hp.arrived]
      exact List.mem_filter.mpr ⟨he, by simpa using hne⟩
    exact hp.mem_log_of_heard (List.mem_of_mem_take hheard)

/-- Everything was dispatched once nothing is on its way. -/
lemma dispatched_eq (hp : Delivers packet h lossless d log p) (hlossless : lossless)
    (htx : ∀ g, (d g).transmitter.txPackets = []) (hincoming : (d h).incoming = [])
    (hrx : (d h).receiver.rxPackets = []) (g : ι) : ofSource g p.dispatched = log g := by
  have hpending : p.pending = [] := by
    have hqueue := hp.queue
    rw [hrx] at hqueue
    exact List.map_eq_nil_iff.mp hqueue.symm
  rcases eq_or_ne g h with rfl | hg
  · have hown := hp.own
    rwa [hpending, List.append_nil] at hown
  · have hinbound := hp.inbound
    rw [hincoming] at hinbound
    have hpushed : p.heard.take p.pushed = p.heard := by
      have hlength := congrArg List.length (hinbound.drained hp.heard_framed)
      rw [List.length_take, List.length_map] at hlength
      exact List.take_of_length_le (by omega)
    have hsent : (log g).take (d g).transmitter.sent.length = log g := by
      have hlength := congrArg List.length (hp.logged g)
      rw [htx, List.append_nil, List.length_map] at hlength
      rw [hlength, List.take_length]
    have harrived := hp.arrived
    rw [hpending, List.append_nil, hpushed] at harrived
    have hother := Merge.ofSource_filter_ne hg p.dispatched
    simp only [ne_eq, decide_not] at hother
    rw [← hother, harrived, hp.heard_eq hlossless g hg, hsent]

end Delivers

end TcpDaemon
end RmwDesert
