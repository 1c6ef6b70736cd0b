/-
The dispatch of packets to streams.

`interpret_packets` decodes the packets of the queue, and each packet that names a topic goes
to the streams of the matching type and identifier.  The list of the packets that are
dispatched depends on the streams only in that there are any (`interpretPackets_eq`); the
main result, `dispatch_correct`, says what a queue of sent packets does to every stream.
-/
import Mathlib.Data.List.DropRight
import RmwDesert.InterpretPackets

namespace RmwDesert

open TcpDaemon (maxPacketLength)

namespace CircularQueue

variable {α : Type}

/-- A queue within its capacity keeps the latest elements. -/
lemma push_eq_rtake {queue : List α} (h : queue.length ≤ maxBufferCapacity) (value : α) :
    push value queue = (queue ++ [value]).rtake maxBufferCapacity := by
  have hcapacity : maxBufferCapacity = 99 + 1 := rfl
  rw [push]
  simp only [hcapacity] at h ⊢
  rw [List.rtake_concat_succ, List.rtake]
  split_ifs with hfull
  · rw [hfull, ← List.drop_one]
  · rw [show queue.length - 99 = 0 by omega, List.drop_zero]

/-- The latest of the latest elements and some new ones. -/
lemma rtake_rtake_append (n : ℕ) (l₁ l₂ : List α) :
    (l₁.rtake n ++ l₂).rtake n = (l₁ ++ l₂).rtake n := by
  simp only [List.rtake, List.length_append, List.length_drop, List.drop_append, List.drop_drop]
  congr 2 <;> omega

/-- Any number of pushes. -/
lemma foldl_push {queue : List α} (h : queue.length ≤ maxBufferCapacity) (values : List α) :
    values.foldl (fun queue value => push value queue) queue
      = (queue ++ values).rtake maxBufferCapacity := by
  induction values generalizing queue with
  | nil => simp [List.rtake, h]
  | cons value values ih =>
    have hlength : (push value queue).length ≤ maxBufferCapacity := by
      rw [push_eq_rtake h]
      simp only [List.rtake, List.length_drop]
      omega
    rw [List.foldl_cons, ih hlength, push_eq_rtake h, rtake_rtake_append, List.append_assoc]
    rfl

end CircularQueue

namespace RxStream

/-- Some calls of `push_packet`. -/
def pushAll (packets : List Fields) (s : RxStream) : RxStream :=
  packets.foldl (fun s packet => s.pushPacket packet) s

@[simp] lemma pushAll_nil (s : RxStream) : s.pushAll [] = s := rfl

@[simp] lemma pushAll_cons (packet : Fields) (packets : List Fields) (s : RxStream) :
    s.pushAll (packet :: packets) = (s.pushPacket packet).pushAll packets := rfl

lemma pushAll_append (packets₁ packets₂ : List Fields) (s : RxStream) :
    s.pushAll (packets₁ ++ packets₂) = (s.pushAll packets₁).pushAll packets₂ :=
  List.foldl_append

/-- The received packets are the latest ones. -/
lemma pushAll_eq {s : RxStream} (h : s.receivedPackets.length ≤ maxBufferCapacity)
    (packets : List Fields) :
    s.pushAll packets = { s with
      receivedPackets := (s.receivedPackets ++ packets).rtake maxBufferCapacity } := by
  rw [← CircularQueue.foldl_push h]
  induction packets generalizing s with
  | nil => rfl
  | cons packet packets ih =>
    have hlength : (s.pushPacket packet).receivedPackets.length ≤ maxBufferCapacity := by
      simp only [pushPacket, CircularQueue.push_eq_rtake h, List.rtake, List.length_drop]
      omega
    rw [pushAll_cons, ih hlength]
    rfl

end RxStream

namespace InterpretPackets

/-! ## The packets that are dispatched -/

/-- What the loop over the listening streams pushes to a stream. -/
def accepted (stream : RxStream) (d : Interpreted) : Option Fields :=
  if streamTypeMatchMap d.streamType = some stream.streamType ∧
      stream.streamIdentifier = d.streamIdentifier then
    some d.interpretedPacket
  else none

/-- A stream keeps its type and identifier. -/
lemma accepted_pushAll (stream : RxStream) (packets : List Fields) :
    accepted (stream.pushAll packets) = accepted stream := by
  induction packets generalizing stream with
  | nil => rfl
  | cons packet packets ih => exact ih (stream.pushPacket packet)

section

variable (N : NanoCbor) (config : TopicsConfig) (fuel : ℕ)

/-- `interpret_packets` without the streams: the packets that reach the loop over the
listening streams, and the queue of the daemon afterwards.  With any stream listening, a
packet of an unknown type makes `_stream_type_match_map.at` throw. -/
def dispatched (listening : Bool) : List Packet → Except Failure (List Interpreted × List Packet)
  | [] => .ok ([], [])
  | packet :: rxPackets =>
    if packet = [] then .ok ([], rxPackets)
    else do
      let d ← interpretItems N config fuel 0 packet .initial
      if d.streamName = "" then dispatched listening rxPackets
      else if listening && (streamTypeMatchMap d.streamType).isNone then throw .outOfRange
      else do
        let (ds, rest) ← dispatched listening rxPackets
        return (d :: ds, rest)

end

/-- One turn of the loop over the packets. -/
lemma dispatched_cons_eq_ok {N : NanoCbor} {config : TopicsConfig} {fuel : ℕ} {listening : Bool}
    {packet : Packet} (hpacket : packet ≠ []) {packets : List Packet}
    {r : List Interpreted × List Packet} :
    dispatched N config fuel listening (packet :: packets) = .ok r ↔
      ∃ d, interpretItems N config fuel 0 packet .initial = .ok d ∧
        ((d.streamName = "" ∧ dispatched N config fuel listening packets = .ok r) ∨
          (d.streamName ≠ "" ∧ (streamTypeMatchMap d.streamType = none → listening = false) ∧
            ∃ ds rest, dispatched N config fuel listening packets = .ok (ds, rest) ∧
              r = (d :: ds, rest))) := by
  rw [dispatched, if_neg hpacket]
  cases hitems : interpretItems N config fuel 0 packet .initial with
  | error e => simp [bind, Except.bind]
  | ok d =>
    simp only [bind, Except.bind, Except.ok.injEq, exists_eq_left']
    split_ifs with hname hnone
    · simp [hname]
    · have hthrow : ¬ (streamTypeMatchMap d.streamType = none → listening = false) := by
        simpa [and_comm] using hnone
      simp [hname, hthrow]
    · have hknown : streamTypeMatchMap d.streamType = none → listening = false := by
        intro htype
        simpa [htype] using hnone
      cases dispatched N config fuel listening packets with
      | error e => simp [hname]
      | ok next =>
        obtain ⟨ds, rest⟩ := next
        constructor
        · intro h
          exact Or.inr ⟨hname, hknown, ds, rest, rfl, (Except.ok.inj h).symm⟩
        · rintro (⟨hempty, -⟩ | ⟨-, -, ds', rest', hnext, rfl⟩)
          · exact absurd hempty hname
          · cases hnext
            rfl

/-- The loop over the listening streams. -/
lemma deliver_eq_of_isSome {d : Interpreted} {listening : List RxStream}
    (h : (!listening.isEmpty && (streamTypeMatchMap d.streamType).isNone) = false) :
    deliver d listening = .ok (listening.map fun s => s.pushAll (accepted s d).toList) := by
  cases htype : streamTypeMatchMap d.streamType with
  | none =>
    obtain rfl : listening = [] := by simpa [htype] using h
    rfl
  | some streamType =>
    rw [deliver_eq htype, delivered]
    congr 1
    refine List.map_congr_left fun s _ => ?_
    simp only [accepted, htype, Option.some.injEq, eq_comm (a := streamType)]
    split_ifs <;> rfl

lemma deliver_eq_of_isNone {d : Interpreted} {listening : List RxStream}
    (h : (!listening.isEmpty && (streamTypeMatchMap d.streamType).isNone) = true) :
    deliver d listening = .error .outOfRange := by
  obtain ⟨hne, htype⟩ : listening ≠ [] ∧ streamTypeMatchMap d.streamType = none := by
    simpa using h
  obtain ⟨s, listening, rfl⟩ := List.exists_cons_of_ne_nil hne
  simp only [deliver, htype, List.mapM_cons]
  rfl

/-- **Dispatch.** The listening streams take their packets out of the list of the packets
that are dispatched. -/
theorem interpretPackets_eq (N : NanoCbor) (config : TopicsConfig) (fuel : ℕ)
    (packets : List Packet) (listening : List RxStream) :
    interpretPackets N config fuel packets listening
      = (dispatched N config fuel (!listening.isEmpty) packets).map fun (ds, rest) =>
          (listening.map fun s => s.pushAll (ds.filterMap (accepted s)), rest) := by
  induction packets generalizing listening with
  | nil => simp [interpretPackets, dispatched, Except.map]
  | cons packet packets ih =>
    rw [interpretPackets, dispatched]
    split_ifs with hempty
    · simp [Except.map]
    · cases hitems : interpretItems N config fuel 0 packet .initial with
      | error e => rfl
      | ok d =>
        simp only [bind, Except.bind]
        split_ifs with hname htype
        · exact ih listening
        · rw [deliver_eq_of_isNone htype]
          rfl
        · rw [deliver_eq_of_isSome (Bool.eq_false_iff.mpr htype)]
          simp only [ih, List.isEmpty_map]
          cases dispatched N config fuel (!listening.isEmpty) packets with
          | error e => rfl
          | ok r =>
            obtain ⟨ds, rest⟩ := r
            have hstream : ∀ s : RxStream,
                (s.pushAll (accepted s d).toList).pushAll
                    (ds.filterMap (accepted (s.pushAll (accepted s d).toList)))
                  = s.pushAll ((d :: ds).filterMap (accepted s)) := by
              intro s
              rw [accepted_pushAll, ← RxStream.pushAll_append, List.filterMap_cons]
              cases accepted s d <;> rfl
            simp only [Except.map, pure, Except.pure, List.map_map, Function.comp_def, hstream]

/-- A call that returns. -/
lemma interpretPackets_eq_ok {N : NanoCbor} {config : TopicsConfig} {fuel : ℕ}
    {packets : List Packet} {listening : List RxStream} {result : List RxStream × List Packet} :
    interpretPackets N config fuel packets listening = .ok result ↔
      ∃ ds rest, dispatched N config fuel (!listening.isEmpty) packets = .ok (ds, rest) ∧
        result = (listening.map fun s => s.pushAll (ds.filterMap (accepted s)), rest) := by
  rw [interpretPackets_eq]
  cases dispatched N config fuel (!listening.isEmpty) packets with
  | error e => simp [Except.map]
  | ok r => simp [Except.map, Prod.ext_iff, eq_comm, and_comm]

end InterpretPackets

/-! ## Sent packets -/

/-- What is sent on a stream: the sequence id, if the transmission starts with one, and the
items that are inserted. -/
structure Transmission where
  tx : TxStream
  sequenceId : Option UInt64
  fields : Fields
deriving DecidableEq, Repr

namespace Transmission

open InterpretPackets

/-- The transmission ends with the packet in the queue. -/
def Enqueues (N : NanoCbor) (t : Transmission) (packet : Packet) : Prop :=
  (∀ f ∈ t.fields, f.Streamed) ∧ t.tx.transmit N t.sequenceId t.fields = some packet

/-- The fields that a receiver decodes, after stream type and identifier. -/
def body (t : Transmission) : Fields := t.sequenceId.toList.map TxStream.insertUint64 ++ t.fields

/-- The stream has the type that matches the one of the sender, and its identifier. -/
def Matches (t : Transmission) (s : RxStream) : Prop :=
  streamTypeMatchMap t.tx.streamType = some s.streamType ∧
    s.streamIdentifier = t.tx.streamIdentifier

instance (t : Transmission) (s : RxStream) : Decidable (t.Matches s) :=
  inferInstanceAs (Decidable (_ ∧ _))

/-- The sender is a publisher, a client or a service. -/
def Typed (t : Transmission) : Prop :=
  t.tx.streamType = publisherType ∨ t.tx.streamType = clientType ∨ t.tx.streamType = serviceType

lemma Typed.isSome {t : Transmission} (h : t.Typed) :
    (streamTypeMatchMap t.tx.streamType).isSome = true := by
  rcases h with h | h | h <;> rw [h] <;> rfl

/-- What the packet is decoded to. -/
def interpreted (config : TopicsConfig) (t : Transmission) : Interpreted :=
  ⟨t.tx.streamType, t.tx.streamIdentifier, config.getIdentifierTopic t.tx.streamIdentifier, t.body⟩

lemma accepted_interpreted (config : TopicsConfig) (t : Transmission) (s : RxStream) :
    accepted s (t.interpreted config) = if t.Matches s then some t.body else none := rfl

variable {N : NanoCbor} {config : TopicsConfig} {t : Transmission} {packet : Packet} {fuel : ℕ}

lemma Enqueues.ne_nil (hN : N.Lawful) (h : t.Enqueues N packet) : packet ≠ [] := by
  obtain ⟨rfl, -, -, hcount⟩ := packet_of_transmit hN h.1 h.2
  exact List.length_pos_iff.mp (lt_of_lt_of_le (Nat.succ_pos _) hcount)

lemma Enqueues.length_le (hN : N.Lawful) (h : t.Enqueues N packet) :
    packet.length ≤ maxPacketLength :=
  (packet_of_transmit hN h.1 h.2).2.1

/-- The loop over the items of a sent packet. -/
lemma Enqueues.interpretItems_eq (hN : N.Lawful) (h : t.Enqueues N packet)
    (hfuel : packet.length ≤ fuel) :
    interpretItems N config fuel 0 packet .initial
      = .ok ⟨t.tx.streamType, t.tx.streamIdentifier,
          config.getIdentifierTopic t.tx.streamIdentifier,
          if config.getIdentifierTopic t.tx.streamIdentifier = "" then [] else t.body⟩ := by
  obtain ⟨rfl, -, hformat, hcount⟩ := packet_of_transmit hN h.1 h.2
  have hheader : t.tx.header t.sequenceId ++ t.fields
      = TxStream.insert .uint8 t.tx.streamType :: TxStream.insert .uint8 t.tx.streamIdentifier
        :: t.body := rfl
  rw [hheader] at hformat hcount hfuel ⊢
  exact interpretItems_packet hN config (fun f hf => hformat f (by simp [hf])) (hcount.trans hfuel)

/-- A sent packet is dispatched if its identifier has a topic. -/
lemma Enqueues.dispatched_cons (hN : N.Lawful) (h : t.Enqueues N packet)
    (hfuel : packet.length ≤ fuel) (htype : (streamTypeMatchMap t.tx.streamType).isSome = true)
    (listening : Bool) (rxPackets : List Packet) :
    dispatched N config fuel listening (packet :: rxPackets)
      = if config.getIdentifierTopic t.tx.streamIdentifier = "" then
          dispatched N config fuel listening rxPackets
        else (dispatched N config fuel listening rxPackets).map fun (ds, rest) =>
          (t.interpreted config :: ds, rest) := by
  rw [dispatched, if_neg (h.ne_nil hN), h.interpretItems_eq hN hfuel]
  simp only [bind, Except.bind]
  split_ifs with hname hnone
  · rfl
  · simp [Option.isNone_iff_eq_none.mp (Bool.and_eq_true_iff.mp hnone).2] at htype
  · cases dispatched N config fuel listening rxPackets <;> rfl

/-- All packets of a queue of sent packets are dispatched. -/
lemma dispatched_eq (hN : N.Lawful) {sent : List Transmission} {packets : List Packet}
    (hsent : List.Forall₂ (Enqueues N) sent packets)
    (hknown : ∀ t ∈ sent, t.Typed ∧ config.getIdentifierTopic t.tx.streamIdentifier ≠ "")
    (hfuel : maxPacketLength ≤ fuel) (listening : Bool) :
    dispatched N config fuel listening packets = .ok (sent.map (interpreted config), []) := by
  induction hsent with
  | nil => rfl
  | cons h hsent ih =>
    obtain ⟨htype, hname⟩ := hknown _ List.mem_cons_self
    rw [h.dispatched_cons hN ((h.length_le hN).trans hfuel) htype.isSome, if_neg hname,
      ih fun t ht => hknown t (List.mem_cons_of_mem _ ht)]
    rfl

/-- Packets whose identifier has no topic are passed over. -/
lemma dispatched_filter (hN : N.Lawful) {sent : List Transmission} {packets : List Packet}
    (hsent : List.Forall₂ (Enqueues N) sent packets) (htyped : ∀ t ∈ sent, t.Typed)
    (hfuel : maxPacketLength ≤ fuel) (listening : Bool) :
    dispatched N config fuel listening packets
      = .ok ((sent.filter fun t => config.getIdentifierTopic t.tx.streamIdentifier ≠ "").map
          (interpreted config), []) := by
  induction hsent with
  | nil => rfl
  | @cons t packet sent packets h hsent ih =>
    rw [h.dispatched_cons hN ((h.length_le hN).trans hfuel) (htyped _ List.mem_cons_self).isSome,
      ih fun t ht => htyped t (List.mem_cons_of_mem _ ht)]
    by_cases hname : config.getIdentifierTopic t.tx.streamIdentifier = ""
    · rw [if_pos hname, List.filter_cons_of_neg (by simpa using hname)]
    · rw [if_neg hname, List.filter_cons_of_pos (by simpa using hname)]
      rfl

/-- What a stream takes out of the sent packets. -/
lemma filterMap_accepted (config : TopicsConfig) (sent : List Transmission) (s : RxStream) :
    (sent.map (interpreted config)).filterMap (accepted s)
      = (sent.filter (·.Matches s)).map body := by
  induction sent with
  | nil => rfl
  | cons t sent ih =>
    rw [List.map_cons, List.filterMap_cons, accepted_interpreted, List.filter_cons]
    split_ifs with h h' h' <;> simp_all

/-- The stream with the matching transmissions appended to its received packets, of which it
keeps the latest ones. -/
def received (sent : List Transmission) (s : RxStream) : RxStream :=
  { s with receivedPackets :=
      (s.receivedPackets ++ (sent.filter (·.Matches s)).map body).rtake maxBufferCapacity }

/-- **Dispatch of sent packets.** One call of `interpret_packets` empties the queue, and each
stream takes the fields of the packets that match it, in order; it keeps the latest ones, and
stays as it is if no packet matches. -/
theorem dispatch_correct (hN : N.Lawful) {topics : List (String × UInt8)}
    (htopics : TopicsConfig.IsMap topics) {sent : List Transmission} {packets : List Packet}
    (hsent : List.Forall₂ (Enqueues N) sent packets)
    (hknown : ∀ t ∈ sent, t.Typed ∧ ∃ name ≠ "", (name, t.tx.streamIdentifier) ∈ topics)
    {listening : List RxStream}
    (hqueue : ∀ s ∈ listening, s.receivedPackets.length ≤ maxBufferCapacity)
    (hfuel : maxPacketLength ≤ fuel) :
    interpretPackets N (.loadConfiguration topics) fuel packets listening
      = .ok (listening.map (received sent), []) ∧
    ∀ s ∈ listening, (∀ t ∈ sent, ¬ t.Matches s) → received sent s = s := by
  constructor
  · have htopic : ∀ t ∈ sent, t.Typed ∧
        (TopicsConfig.loadConfiguration topics).getIdentifierTopic t.tx.streamIdentifier ≠ "" := by
      intro t ht
      obtain ⟨htype, name, hname, hmem⟩ := hknown t ht
      exact ⟨htype, TopicsConfig.getIdentifierTopic_ne_empty htopics hname hmem⟩
    rw [interpretPackets_eq, dispatched_eq hN hsent htopic hfuel]
    simp only [Except.map]
    congr 2
    refine List.map_congr_left fun s hs => ?_
    rw [filterMap_accepted, RxStream.pushAll_eq (hqueue s hs), received]
  · intro s hs hnone
    have hfilter : sent.filter (·.Matches s) = [] := by
      simpa using hnone
    have hlength : s.receivedPackets.length - maxBufferCapacity = 0 :=
      Nat.sub_eq_zero_of_le (hqueue s hs)
    rw [received, hfilter, List.map_nil, List.append_nil, List.rtake, hlength, List.drop_zero]

/-- A topic and a service, with one listening stream each. -/
theorem dispatch_correct_topicAndService :
    let sent : List Transmission :=
      [⟨⟨publisherType, 1, false, []⟩, none, [.uint 7]⟩,
        ⟨⟨clientType, 2, false, []⟩, some 5, [.tstr [0x61]]⟩,
        ⟨⟨publisherType, 1, false, []⟩, none, [.nint (-1)]⟩]
    let subscriber : RxStream := ⟨subscriberType, 1, 0, [], [[.uint 6]]⟩
    let service : RxStream := ⟨serviceType, 2, 0, [], []⟩
    interpretPackets NanoCbor.rfc8949 (.loadConfiguration [("/a", 1), ("/b", 2)]) maxPacketLength
        [[0x00, 0x01, 0x07], [0x02, 0x02, 0x05, 0x61, 0x61], [0x00, 0x01, 0x20]]
        [subscriber, service]
      = .ok ([received sent subscriber, received sent service], []) ∧
    (received sent subscriber).receivedPackets = [[.uint 6], [.uint 7], [.nint (-1)]] ∧
    (received sent service).receivedPackets = [[.uint 5, .tstr [0x61]]] := by
  intro sent subscriber service
  have hsent : List.Forall₂ (Enqueues NanoCbor.rfc8949) sent
      [[0x00, 0x01, 0x07], [0x02, 0x02, 0x05, 0x61, 0x61], [0x00, 0x01, 0x20]] := by
    refine .cons ⟨?_, rfl⟩ (.cons ⟨?_, rfl⟩ (.cons ⟨?_, rfl⟩ .nil)) <;> intro f hf <;>
      obtain rfl := List.mem_singleton.mp hf
    · trivial
    · trivial
    · show (-1 : Int64) < 0
      decide
  have htopics : TopicsConfig.IsMap [("/a", 1), ("/b", 2)] :=
    List.pairwise_pair.mpr (String.lt_iff_toList_lt.mpr (by decide))
  refine ⟨(dispatch_correct NanoCbor.rfc8949_lawful htopics hsent ?_ ?_ le_rfl).1, rfl, rfl⟩
  · intro t ht
    simp only [sent, List.mem_cons, List.not_mem_nil, or_false] at ht
    rcases ht with rfl | rfl | rfl
    · exact ⟨Or.inl rfl, "/a", by decide, by decide⟩
    · exact ⟨Or.inr (Or.inl rfl), "/b", by decide, by decide⟩
    · exact ⟨Or.inl rfl, "/a", by decide, by decide⟩
  · intro s hs
    simp only [List.mem_cons, List.not_mem_nil, or_false] at hs
    rcases hs with rfl | rfl <;> decide

end Transmission
end RmwDesert
