/-
A message from a transmission stream to a reception stream.

A `Link` is a transmission stream and an idle listening stream that matches it.  A message
that was serialized and sent on the first is interpreted, made available and deserialized on
the second.  The main results are

* `cpp_round_trip_iff`: with the C++ type support the message comes back if and only if it
  holds no sequence of booleans other than empty ones;
* `c_round_trip`: with the C type support it always comes back.
-/
import RmwDesert.InterpretPackets
import RmwDesert.MessageRoundTrip

namespace RmwDesert

open InterpretPackets MessageSerialization Reader RxStream

/-- The ways from a sender to a receiver. -/
inductive Route
  /-- From a publisher to a subscriber. -/
  | topic
  /-- From a client to a service, with the sequence id of the request. -/
  | request (sequenceId : Int64)
  /-- From a service to the client that waits for this sequence id. -/
  | response (sequenceId : Int64) (h : sequenceId ≠ 0)

namespace Route

/-- The type of the transmission stream. -/
def senderType : Route → UInt8
  | topic => publisherType
  | request _ => clientType
  | response _ _ => serviceType

/-- The type of the reception stream. -/
def receiverType : Route → UInt8
  | topic => subscriberType
  | request _ => serviceType
  | response _ _ => clientType

/-- The argument of `start_transmission`. -/
def sequenceId : Route → Option UInt64
  | topic => none
  | request id | response id _ => some id.toUInt64

/-- The argument of `data_available` in `has_data`. -/
def filter : Route → Int64
  | topic | request _ => 0
  | response id _ => id

/-- What the receiver extracts before it deserializes: `read_request` takes the sequence
id. -/
def readHeader : Route → RxM Unit
  | request _ => extractInt64 >>= fun _ => pure ()
  | topic | response _ _ => pure ()

lemma streamTypeMatchMap_senderType (route : Route) :
    streamTypeMatchMap route.senderType = some route.receiverType := by
  cases route <;> rfl

end Route

/-- A sender and a receiver on one route. -/
structure Link (config : TopicsConfig) where
  /-- The way from the sender to the receiver. -/
  route : Route
  /-- The transmission stream. -/
  tx : TxStream
  /-- `_listening_streams`. -/
  listening : List RxStream
  /-- The position of the receiver among the listening streams. -/
  index : ℕ
  /-- The reception stream. -/
  rx : RxStream
  listening_index : listening[index]? = some rx
  tx_type : tx.streamType = route.senderType
  rx_type : rx.streamType = route.receiverType
  rx_identifier : rx.streamIdentifier = tx.streamIdentifier
  topic_configured : config.getIdentifierTopic tx.streamIdentifier ≠ ""
  rx_buffer : rx.bufferedPacket = []
  rx_queue : rx.receivedPackets = []

namespace Link

variable {config : TopicsConfig} (link : Link config)

/-- The packet is interpreted, `has_data` reports it to the receiver, and deserialization
yields the message, up to the precision of a `double`, with the iterator at the end. -/
def RoundTrips (N : NanoCbor) (ts : TypeSupport) (initial : (M : MessageMembers) → Msg M)
    (fuel : ℕ) (packet : Packet) {M : MessageMembers} (msg dest : Msg M) : Prop :=
  ∃ (listening : List RxStream) (arrived available final : RxStream) (received : Msg M),
    interpretPackets N config fuel [packet] link.listening = .ok (listening, []) ∧
    listening[link.index]? = some arrived ∧
    arrived.dataAvailable link.route.filter = .ok (true, available) ∧
    (link.route.readHeader >>= fun _ => deserialize ts initial M dest) available
      = .ok (received, final) ∧
    Msg.rounded M received = Msg.rounded M msg ∧
    final.bufferedIterator = final.bufferedPacket.length

/-- The receiver after a delivery. -/
lemma getElem_delivered (packet : Fields) :
    (delivered link.route.receiverType link.tx.streamIdentifier packet link.listening)[link.index]?
      = some { link.rx with receivedPackets := [packet] } := by
  simp [delivered, link.listening_index, link.rx_type, link.rx_identifier, pushPacket,
    CircularQueue.push, link.rx_queue, maxBufferCapacity]

/-- The receiver after `has_data`: the iterator stands before the header that the receiver
still reads. -/
lemma dataAvailable_arrived (fields : Fields) :
    ∃ (available : RxStream) (header : Fields),
      ({ link.rx with receivedPackets :=
          [link.route.sequenceId.toList.map TxStream.insertUint64 ++ fields] }
        : RxStream).dataAvailable link.route.filter = .ok (true, available) ∧
      Reads link.route.readHeader True header () ∧
      Cursor.pending available = header ++ fields ∧
      available.bufferedIterator + (header ++ fields).length
        = available.bufferedPacket.length := by
  cases hroute : link.route with
  | topic =>
    refine ⟨{ link.rx with bufferedPacket := fields, receivedPackets := [],
                           bufferedIterator := 0 }, [], ?_, reads_pure (), rfl, ?_⟩
    · simp [dataAvailable, link.rx_buffer, Route.filter, Route.sequenceId]
    · simp
  | request id =>
    refine ⟨{ link.rx with bufferedPacket := TxStream.insertUint64 id.toUInt64 :: fields,
                           receivedPackets := [], bufferedIterator := 0 },
      [TxStream.insertUint64 id.toUInt64], ?_, ?_, rfl, ?_⟩
    · simp [dataAvailable, link.rx_buffer, Route.filter, Route.sequenceId]
    · have hread : Reads extractInt64 True [TxStream.insertUint64 id.toUInt64] (some id) :=
        reads_extractInt64 (by simp [intValue, TxStream.insertUint64])
      exact hread.map fun _ => ()
    · simp
  | response id hid =>
    refine ⟨{ link.rx with bufferedPacket := TxStream.insertUint64 id.toUInt64 :: fields,
                           receivedPackets := [], bufferedIterator := 1 },
      [], ?_, reads_pure (), rfl, ?_⟩
    · simp [dataAvailable, link.rx_buffer, Route.filter, Route.sequenceId, hid, search,
        sequenceField, TxStream.insertUint64, bind, Except.bind, pure, Except.pure]
    · simp
      omega

/-- **Round trip over a link.** A message that was serialized by a type support and sent
comes back if and only if all its members are readable. -/
theorem roundTrips_iff {N : NanoCbor} (hN : N.Lawful) {ts : TypeSupport}
    {Domain Readable : MemberCondition} (law : FieldLaw ts Domain Readable)
    (initial : (M : MessageMembers) → Msg M) (T : MessageType) (hoctet : T.members.OctetFree)
    {msg : Msg T.members} (dest : Msg T.members) (hdom : Msg.Forall Domain T.members msg)
    {fields : Fields} (hser : serialize ts T.members msg = .ok fields) {packet : Packet}
    (hsent : link.tx.transmit N link.route.sequenceId fields = some packet) {fuel : ℕ}
    (hfuel : packet.length ≤ fuel) :
    link.RoundTrips N ts initial fuel packet msg dest ↔ Msg.Forall Readable T.members msg := by
  have hstreamed := streamed_serialize law T.members msg hser
  have htype : streamTypeMatchMap link.tx.streamType = some link.route.receiverType := by
    rw [link.tx_type]
    exact link.route.streamTypeMatchMap_senderType
  have hinterpret := interpretPackets_transmit hN htype link.topic_configured hstreamed hsent
    hfuel [] link.listening
  have hlen : fields.length < 2 ^ 32 := by
    obtain ⟨-, hfit, -, hcount⟩ := packet_of_transmit hN hstreamed hsent
    rw [List.length_append] at hcount
    have hmax : TcpDaemon.maxPacketLength = 512 := rfl
    omega
  obtain ⟨available, header, havailable, hheader, hpending, hend⟩ :=
    link.dataAvailable_arrived fields
  have hread : Reads (link.route.readHeader >>= fun _ => deserialize ts initial T.members dest)
      (Msg.Forall Readable T.members msg) (header ++ fields) (Msg.rounded T.members msg) :=
    hheader.bind_of_true
      (reads_deserialize law initial T.members msg dest T.populated hoctet hdom hser hlen)
  have hrun := hread available [] (by simpa using hpending)
  constructor
  · rintro ⟨listening, arrived, available', final, received, h₁, h₂, h₃, h₄, -, -⟩
    have hstreams := hinterpret.symm.trans h₁
    simp only [interpretPackets, Except.ok.injEq, Prod.mk.injEq, and_true] at hstreams
    rw [← hstreams, link.getElem_delivered] at h₂
    obtain rfl := Option.some.inj h₂
    have hsame := havailable.symm.trans h₃
    simp only [Except.ok.injEq, Prod.mk.injEq, true_and] at hsame
    by_contra hunreadable
    obtain ⟨e, he⟩ := hrun.2 hunreadable
    rw [← hsame, he] at h₄
    cases h₄
  · intro hreadable
    refine ⟨_, _, available, _, _, hinterpret, link.getElem_delivered _, havailable,
      hrun.1 hreadable, Msg.rounded_rounded _ msg, hend⟩

end Link

/-! ## The C++ type support -/

/-- **Round trip with the C++ type support.** A message comes back if and only if every
sequence of booleans in it is empty. -/
theorem cpp_round_trip_iff {N : NanoCbor} (hN : N.Lawful) {config : TopicsConfig}
    (link : Link config) (initial : (M : MessageMembers) → Msg M) (T : MessageType)
    (hoctet : T.members.OctetFree) {msg : Msg T.members} (dest : Msg T.members)
    (hwf : Msg.Forall WellFormed T.members msg) {fields : Fields}
    (hser : serialize cpp T.members msg = .ok fields) {packet : Packet}
    (hsent : link.tx.transmit N link.route.sequenceId fields = some packet) {fuel : ℕ}
    (hfuel : packet.length ≤ fuel) :
    link.RoundTrips N cpp initial fuel packet msg dest
      ↔ Msg.Forall BoolSequenceEmpty T.members msg :=
  link.roundTrips_iff hN cpp_fieldLaw initial T hoctet dest hwf hser hsent hfuel

/-- A configuration with one topic. -/
def chatter : TopicsConfig := .loadConfiguration [("/chatter", 1)]

/-- A publisher and a subscriber on `/chatter`. -/
def chatterLink : Link chatter where
  route := .topic
  tx := ⟨publisherType, 1, false, []⟩
  listening := [⟨subscriberType, 1, 0, [], []⟩]
  index := 0
  rx := ⟨subscriberType, 1, 0, [], []⟩
  listening_index := rfl
  tx_type := rfl
  rx_type := rfl
  rx_identifier := rfl
  topic_configured := by decide
  rx_buffer := rfl
  rx_queue := rfl

/-- A message with an array of two booleans and a sequence of booleans. -/
def switches : MessageType where
  members := .field ⟨true, 2, false⟩ (.streamed .bool)
    (.field ⟨true, 0, false⟩ (.streamed .bool) .nil)
  populated := trivial

/-- Switches with an empty sequence. -/
def switchesOff : Msg switches.members := (⟨[true, false], rfl⟩, ([], ()))

/-- Switches with one boolean in the sequence. -/
def switchesOn : Msg switches.members := (⟨[true, false], rfl⟩, ([true], ()))

theorem cpp_round_trip_switchesOff :
    chatterLink.RoundTrips NanoCbor.rfc8949 cpp Msg.zero 5 [0x00, 0x01, 0x01, 0x00, 0x00]
      switchesOff (Msg.zero switches.members) := by
  have hser : serialize cpp switches.members switchesOff
      = .ok [.uint 1, .uint 0, .uint 0] := rfl
  refine (cpp_round_trip_iff NanoCbor.rfc8949_lawful chatterLink Msg.zero switches (by decide) _
    ⟨fun _ _ => trivial, fun _ _ => trivial, trivial⟩ hser rfl (by decide)).mpr ?_
  exact ⟨trivial, rfl, trivial⟩

/-- The sequence of booleans fits the packet and is not read back. -/
theorem cpp_loses_switchesOn :
    NanoCbor.rfc8949.Lawful ∧ switches.members.OctetFree ∧
      Msg.Forall WellFormed switches.members switchesOn ∧
      serialize cpp switches.members switchesOn = .ok [.uint 1, .uint 0, .uint 1, .uint 1] ∧
      chatterLink.tx.transmit NanoCbor.rfc8949 chatterLink.route.sequenceId
        [.uint 1, .uint 0, .uint 1, .uint 1] = some [0x00, 0x01, 0x01, 0x00, 0x01, 0x01] ∧
      ∀ fuel ≥ 6, ¬ chatterLink.RoundTrips NanoCbor.rfc8949 cpp Msg.zero fuel
        [0x00, 0x01, 0x01, 0x00, 0x01, 0x01] switchesOn (Msg.zero switches.members) := by
  have hwf : Msg.Forall WellFormed switches.members switchesOn :=
    ⟨fun _ _ => trivial, fun _ _ => trivial, trivial⟩
  have hser : serialize cpp switches.members switchesOn
      = .ok [.uint 1, .uint 0, .uint 1, .uint 1] := rfl
  refine ⟨NanoCbor.rfc8949_lawful, by decide, hwf, hser, rfl, fun fuel hfuel hround => ?_⟩
  have hempty := (chatterLink.roundTrips_iff NanoCbor.rfc8949_lawful cpp_fieldLaw Msg.zero switches
    (by decide) _ hwf hser rfl hfuel).mp hround
  exact absurd hempty.2.1 (List.cons_ne_nil _ _)

/-! ## The C type support -/

/-- **Round trip with the C type support.** A message whose strings hold no terminator comes
back, whatever its members are. -/
theorem c_round_trip {N : NanoCbor} (hN : N.Lawful) {config : TopicsConfig}
    (link : Link config) (initial : (M : MessageMembers) → Msg M) (T : MessageType)
    (hoctet : T.members.OctetFree) {msg : Msg T.members} (dest : Msg T.members)
    (hstr : Msg.Forall (fun t k x => WellFormed t k x ∧ NulFree t k x) T.members msg)
    {fields : Fields} (hser : serialize c T.members msg = .ok fields) {packet : Packet}
    (hsent : link.tx.transmit N link.route.sequenceId fields = some packet) {fuel : ℕ}
    (hfuel : packet.length ≤ fuel) :
    link.RoundTrips N c initial fuel packet msg dest := by
  refine (link.roundTrips_iff hN c_fieldLaw initial T hoctet dest hstr hser hsent hfuel).mpr ?_
  exact Msg.forall_true T.members msg

/-- A message with an array of strings, a sequence of wide strings, and a sequence of
messages with a number and a sequence of booleans. -/
def report : MessageType where
  members := .field ⟨true, 2, false⟩ (.streamed .string)
    (.field ⟨true, 0, false⟩ (.streamed .wstring)
      (.message ⟨true, 3, true⟩
        (.field ⟨false, 0, false⟩ (.streamed .int16)
          (.field ⟨true, 0, false⟩ (.streamed .bool) .nil)) .nil))
  populated := by decide

/-- A report with two strings, one wide string and one message. -/
def reportOne : Msg report.members :=
  (⟨[[0x61], []], rfl⟩, ([[0x62, 0x63]], ([((-5 : Int16), ([true, false], ()))], ())))

theorem c_round_trip_reportOne :
    chatterLink.RoundTrips NanoCbor.rfc8949 c Msg.zero 15
      [0x00, 0x01, 0x02, 0x61, 0x61, 0x60, 0x01, 0x62, 0x62, 0x63, 0x01, 0x24, 0x02, 0x01, 0x00]
      reportOne (Msg.zero report.members) := by
  have hser : serialize c report.members reportOne
      = .ok [.uint 2, .tstr [0x61], .tstr [], .uint 1, .tstr [0x62, 0x63], .uint 1, .nint (-5),
          .uint 2, .uint 1, .uint 0] := rfl
  refine c_round_trip NanoCbor.rfc8949_lawful chatterLink Msg.zero report (by decide) _ ?_ hser rfl
    (by decide)
  refine ⟨⟨fun _ _ => trivial, ?_⟩, ⟨?_, ?_⟩, ?_, trivial⟩
  · show ∀ s ∈ ([[0x61], []] : List (List UInt8)), (0 : UInt8) ∉ s
    decide
  · intro s hs
    obtain rfl := List.mem_singleton.mp hs
    exact ⟨['b', 'c'], rfl⟩
  · show ∀ s ∈ ([[0x62, 0x63]] : List (List UInt16)), (0 : UInt16) ∉ s
    decide
  · intro x hx
    obtain rfl := List.mem_singleton.mp hx
    exact ⟨⟨fun _ _ => trivial, fun _ _ => trivial⟩, ⟨fun _ _ => trivial, fun _ _ => trivial⟩,
      trivial⟩

end RmwDesert
