/-
The interpretation of packets (`RxStream::interpret_packets`, security layer off).

The packets that the daemon received are decoded one after the other; the first two items
name the stream, the others are the fields, and the fields go to every listening stream of
the matching type and identifier.  The loop over the items of a packet runs until the decoder
is at its end; the model bounds its turns by a fuel.
-/
import RmwDesert.Lib.Transition
import RmwDesert.RxStream
import RmwDesert.TopicsConfig

namespace RmwDesert

/-- `PUBLISHER_TYPE`. -/
def publisherType : UInt8 := 0

/-- `SUBSCRIBER_TYPE`. -/
def subscriberType : UInt8 := 1

/-- `CLIENT_TYPE`. -/
def clientType : UInt8 := 2

/-- `SERVICE_TYPE`. -/
def serviceType : UInt8 := 3

namespace InterpretPackets

/-- `_stream_type_match_map`. -/
def streamTypeMatchMap (streamType : UInt8) : Option UInt8 :=
  if streamType = publisherType then some subscriberType
  else if streamType = clientType then some serviceType
  else if streamType = serviceType then some clientType
  else none

/-- The local variables of `interpret_packets` for one packet.  `stream_type` and
`stream_identifier` are read only when `stream_name` is not empty, and then both were
assigned. -/
structure Interpreted where
  streamType : UInt8
  streamIdentifier : UInt8
  streamName : String
  interpretedPacket : Fields
deriving DecidableEq, Repr

/-- The variables before the first item. -/
def Interpreted.initial : Interpreted := ⟨0, 0, "", []⟩

section

variable (N : NanoCbor) (config : TopicsConfig)

/-- The result of a getter, or the item skipped if the getter fails. -/
def fieldOrSkip {α : Type} (field : α → Field) (got : Option (α × List UInt8))
    (bytes : List UInt8) : Option Field × List UInt8 :=
  match got with
  | some (value, rest) => (some (field value), rest)
  | none => (none, (N.skip bytes).getD bytes)

/-- `interpret_field`: the decoded field, if there is one, and the bytes that follow. -/
def interpretField (bytes : List UInt8) : Option Field × List UInt8 :=
  match N.getType bytes with
  | .nint => fieldOrSkip N .nint (N.getInt64 bytes) bytes
  | .uint => fieldOrSkip N .uint (N.getUint64 bytes) bytes
  | .float => fieldOrSkip N .float (N.getFloat bytes) bytes
  | .tstr => fieldOrSkip N .tstr (N.getTstr bytes) bytes
  | .bstr => fieldOrSkip N .tstr (N.getBstr bytes) bytes
  | .arr | .map | .tag | .error => (none, (N.skip bytes).getD bytes)

/-- The loop over the items of a packet, from item `i` on. -/
def interpretItems : (fuel i : ℕ) → List UInt8 → Interpreted → Except Failure Interpreted
  | _, _, [], d => .ok d
  | 0, _, _ :: _, _ => .error .outOfFuel
  | fuel + 1, 0, bytes, d =>
    match N.getUint8 bytes with
    | none => .ok d
    | some (n, rest) => interpretItems fuel 1 rest { d with streamType := n }
  | fuel + 1, 1, bytes, d =>
    match N.getUint8 bytes with
    | none => .ok d
    | some (n, rest) =>
      let d := { d with streamIdentifier := n, streamName := config.getIdentifierTopic n }
      if d.streamName = "" then .ok d else interpretItems fuel 2 rest d
  | fuel + 1, i + 2, bytes, d =>
    let (field, rest) := interpretField N bytes
    interpretItems fuel (i + 3) rest
      { d with interpretedPacket := d.interpretedPacket ++ field.toList }

lemma interpretItems_zero {bytes : List UInt8} (h : bytes ≠ []) (fuel : ℕ) (d : Interpreted) :
    interpretItems N config (fuel + 1) 0 bytes d =
      match N.getUint8 bytes with
      | none => .ok d
      | some (n, rest) => interpretItems N config fuel 1 rest { d with streamType := n } := by
  cases bytes with
  | nil => exact absurd rfl h
  | cons b bytes => rfl

lemma interpretItems_one {bytes : List UInt8} (h : bytes ≠ []) (fuel : ℕ) (d : Interpreted) :
    interpretItems N config (fuel + 1) 1 bytes d =
      match N.getUint8 bytes with
      | none => .ok d
      | some (n, rest) =>
        let d := { d with streamIdentifier := n, streamName := config.getIdentifierTopic n }
        if d.streamName = "" then .ok d else interpretItems N config fuel 2 rest d := by
  cases bytes with
  | nil => exact absurd rfl h
  | cons b bytes => rfl

lemma interpretItems_add_two {bytes : List UInt8} (h : bytes ≠ []) (fuel i : ℕ)
    (d : Interpreted) :
    interpretItems N config (fuel + 1) (i + 2) bytes d =
      interpretItems N config fuel (i + 3) (interpretField N bytes).2
        { d with interpretedPacket :=
            d.interpretedPacket ++ (interpretField N bytes).1.toList } := by
  cases bytes with
  | nil => exact absurd rfl h
  | cons b bytes => rfl

/-- The loop over the listening streams. -/
def deliver (d : Interpreted) (listening : List RxStream) : Except Failure (List RxStream) :=
  listening.mapM fun stream =>
    match streamTypeMatchMap d.streamType with
    | none => .error .outOfRange
    | some streamType =>
      if stream.streamType = streamType ∧ stream.streamIdentifier = d.streamIdentifier then
        .ok (stream.pushPacket d.interpretedPacket)
      else .ok stream

/-- `interpret_packets`: the listening streams and the queue of the daemon afterwards.  An
empty packet ends the loop like an empty queue. -/
def interpretPackets (fuel : ℕ) : List Packet → List RxStream →
    Except Failure (List RxStream × List Packet)
  | [], listening => .ok (listening, [])
  | packet :: rxPackets, listening =>
    if packet = [] then .ok (listening, rxPackets)
    else do
      let d ← interpretItems N config fuel 0 packet .initial
      if d.streamName = "" then interpretPackets fuel rxPackets listening
      else interpretPackets fuel rxPackets (← deliver d listening)

end

/-! ## The packets of a transmission stream -/

section

variable {N : NanoCbor} (hN : N.Lawful) (config : TopicsConfig)

include hN

lemma interpretField_format {f : Field} (hf : f.Formattable) (rest : List UInt8) :
    interpretField N (N.format f ++ rest) = (some f, rest) := by
  rw [interpretField, hN.getType_format rest hf]
  cases f with
  | uint n =>
    show fieldOrSkip N .uint (N.getUint64 (N.fmtUint n ++ rest)) _ = _
    rw [hN.getUint64_fmtUint]
    rfl
  | nint n =>
    show fieldOrSkip N .nint (N.getInt64 (N.fmtInt n ++ rest)) _ = _
    rw [hN.getInt64_fmtInt rest hf]
    rfl
  | float bits =>
    show fieldOrSkip N .float (N.getFloat (N.fmtFloat bits ++ rest)) _ = _
    rw [hN.getFloat_fmtFloat]
    rfl
  | tstr s =>
    show fieldOrSkip N .tstr (N.getTstr (N.putTstrn s ++ rest)) _ = _
    rw [hN.getTstr_putTstrn rest hf]
    rfl

/-- The loop collects the fields, with one turn for each. -/
lemma interpretItems_encode {fields : List Field} (hf : ∀ f ∈ fields, f.Formattable) :
    ∀ (fuel i : ℕ) (d : Interpreted), fields.length ≤ fuel →
    interpretItems N config fuel (i + 2) (N.encode fields) d
      = .ok { d with interpretedPacket := d.interpretedPacket ++ fields } := by
  induction fields with
  | nil =>
    intro fuel i d _
    cases fuel <;> simp [interpretItems]
  | cons f fields ih =>
    intro fuel i d hfuel
    obtain ⟨fuel, rfl⟩ : ∃ n, fuel = n + 1 := ⟨fuel - 1, by simp at hfuel; omega⟩
    have hfirst := hf f (by simp)
    have hne : N.encode (f :: fields) ≠ [] := by simp [hN.format_ne_nil hfirst]
    rw [interpretItems_add_two N config hne, NanoCbor.encode_cons,
      interpretField_format hN hfirst]
    have hrest := ih (fun g hg => hf g (by simp [hg])) fuel (i + 1)
      { d with interpretedPacket := d.interpretedPacket ++ [f] } (by simpa using hfuel)
    simpa using hrest

/-- The two items that `start_transmission` writes first, and the fields, which the loop
leaves out if the identifier has no topic. -/
lemma interpretItems_packet {streamType streamIdentifier : UInt8} {fields : List Field}
    (hf : ∀ f ∈ fields, f.Formattable) {fuel : ℕ} (hfuel : fields.length + 2 ≤ fuel) :
    interpretItems N config fuel 0
        (N.encode (TxStream.insert .uint8 streamType :: TxStream.insert .uint8 streamIdentifier
          :: fields)) .initial
      = .ok ⟨streamType, streamIdentifier, config.getIdentifierTopic streamIdentifier,
          if config.getIdentifierTopic streamIdentifier = "" then [] else fields⟩ := by
  obtain ⟨fuel, rfl⟩ : ∃ n, fuel = n + 2 := ⟨fuel - 2, by omega⟩
  have hne : ∀ (n : UInt8) (rest : List UInt8), N.fmtUint n.toUInt64 ++ rest ≠ [] := by
    intro n rest
    have hfmt : N.format (.uint n.toUInt64) ≠ [] := hN.format_ne_nil trivial
    exact List.append_ne_nil_of_left_ne_nil hfmt rest
  have hencode : ∀ (n : UInt8) (rest : List Field),
      N.encode (TxStream.insert .uint8 n :: rest) = N.fmtUint n.toUInt64 ++ N.encode rest :=
    fun n rest => N.encode_cons _ rest
  rw [hencode, interpretItems_zero N config (hne _ _), hN.getUint8_fmtUint]
  simp only
  rw [hencode, interpretItems_one N config (hne _ _), hN.getUint8_fmtUint]
  simp only
  split_ifs with hname
  · rfl
  · rw [interpretItems_encode hN config hf fuel 0 _ (by omega)]
    rfl

end

/-! ## Delivery -/

/-- The listening streams after the delivery of a packet to streams of the given type. -/
def delivered (streamType streamIdentifier : UInt8) (packet : Fields)
    (listening : List RxStream) : List RxStream :=
  listening.map fun stream =>
    if stream.streamType = streamType ∧ stream.streamIdentifier = streamIdentifier then
      stream.pushPacket packet
    else stream

lemma deliver_eq {d : Interpreted} {streamType : UInt8}
    (h : streamTypeMatchMap d.streamType = some streamType) (listening : List RxStream) :
    deliver d listening
      = .ok (delivered streamType d.streamIdentifier d.interpretedPacket listening) := by
  unfold deliver delivered
  induction listening with
  | nil => rfl
  | cons stream listening ih =>
    rw [List.mapM_cons, ih, h]
    simp only [List.map_cons]
    split_ifs <;> rfl

/-- What is known of a packet that was sent. -/
lemma packet_of_transmit {N : NanoCbor} (hN : N.Lawful) {tx : TxStream}
    {sequenceId : Option UInt64} {fields : Fields} {packet : Packet}
    (hfields : ∀ f ∈ fields, f.Streamed) (hsent : tx.transmit N sequenceId fields = some packet) :
    packet = N.encode (tx.header sequenceId ++ fields) ∧
      packet.length ≤ TcpDaemon.maxPacketLength ∧
      (∀ f ∈ tx.header sequenceId ++ fields, f.Formattable) ∧
      (tx.header sequenceId ++ fields).length ≤ packet.length := by
  rw [TxStream.transmit_eq] at hsent
  split_ifs at hsent with hfit
  obtain rfl := Option.some.inj hsent
  have hformat : ∀ f ∈ tx.header sequenceId ++ fields, f.Formattable := by
    intro f hf
    refine hN.formattable (lt_of_le_of_lt hfit (by decide)) hf ?_
    rcases List.mem_append.mp hf with hf | hf
    · -- the header consists of unsigned numbers
      cases sequenceId <;> simp [TxStream.header, TxStream.insert, TxStream.insertUint64] at hf <;>
        rcases hf with rfl | rfl | rfl <;> trivial
    · exact hfields f hf
  exact ⟨rfl, hfit, hformat, hN.length_le_length_encode hformat⟩

/-- **Delivery of a sent packet.** What a stream of a known type sends for a configured
identifier reaches the listening streams of the matching type and identifier, and no
others. -/
theorem interpretPackets_transmit {N : NanoCbor} (hN : N.Lawful) {config : TopicsConfig}
    {tx : TxStream} {sequenceId : Option UInt64} {fields : Fields} {packet : Packet}
    {streamType : UInt8} (htype : streamTypeMatchMap tx.streamType = some streamType)
    (hname : config.getIdentifierTopic tx.streamIdentifier ≠ "")
    (hfields : ∀ f ∈ fields, f.Streamed) (hsent : tx.transmit N sequenceId fields = some packet)
    {fuel : ℕ} (hfuel : packet.length ≤ fuel) (rxPackets : List Packet)
    (listening : List RxStream) :
    interpretPackets N config fuel (packet :: rxPackets) listening
      = interpretPackets N config fuel rxPackets (delivered streamType tx.streamIdentifier
          (sequenceId.toList.map TxStream.insertUint64 ++ fields) listening) := by
  obtain ⟨rfl, -, hformat, hcount⟩ := packet_of_transmit hN hfields hsent
  have hheader : tx.header sequenceId ++ fields
      = TxStream.insert .uint8 tx.streamType :: TxStream.insert .uint8 tx.streamIdentifier
        :: (sequenceId.toList.map TxStream.insertUint64 ++ fields) := rfl
  rw [hheader] at hformat hcount hfuel ⊢
  have hne : N.encode (TxStream.insert .uint8 tx.streamType ::
      TxStream.insert .uint8 tx.streamIdentifier ::
      (sequenceId.toList.map TxStream.insertUint64 ++ fields)) ≠ [] :=
    List.length_pos_iff.mp (lt_of_lt_of_le (Nat.succ_pos _) hcount)
  rw [interpretPackets, if_neg hne,
    interpretItems_packet hN config (fun f hf => hformat f (by simp [hf])) (hcount.trans hfuel),
    if_neg hname]
  show (if config.getIdentifierTopic tx.streamIdentifier = "" then _ else _) = _
  rw [if_neg hname, deliver_eq htype]
  rfl

/-! ## One listening stream -/

/-- The packet names a known topic, and its fields are decoded. -/
def Interprets (N : NanoCbor) (config : TopicsConfig) (packet : Packet) (d : Interpreted) : Prop :=
  interpretItems N config packet.length 0 packet .initial = .ok d ∧ d.streamName ≠ ""

/-- What a sent packet is decoded to. -/
lemma Interprets.of_transmit {N : NanoCbor} (hN : N.Lawful) {config : TopicsConfig} {tx : TxStream}
    {sequenceId : Option UInt64} {fields : Fields} {packet : Packet}
    (hfields : ∀ f ∈ fields, f.Streamed) (hsent : tx.transmit N sequenceId fields = some packet)
    {d : Interpreted} (hd : Interprets N config packet d) :
    d.streamType = tx.streamType ∧
      d.interpretedPacket = sequenceId.toList.map TxStream.insertUint64 ++ fields := by
  obtain ⟨rfl, -, hformat, hcount⟩ := packet_of_transmit hN hfields hsent
  have hheader : tx.header sequenceId ++ fields
      = TxStream.insert .uint8 tx.streamType :: TxStream.insert .uint8 tx.streamIdentifier
        :: (sequenceId.toList.map TxStream.insertUint64 ++ fields) := rfl
  rw [hheader] at hformat hcount
  obtain ⟨hitems, hname⟩ := hd
  rw [hheader, interpretItems_packet hN config (fun f hf => hformat f (by simp [hf])) hcount]
    at hitems
  obtain rfl := Except.ok.inj hitems
  exact ⟨rfl, if_neg hname⟩

/-- `interpret_packets` for one packet and one stream. -/
def hear (N : NanoCbor) (config : TopicsConfig) (packet : Packet) (rx : RxStream) :
    Except Failure RxStream := do
  let (listening, _) ← interpretPackets N config packet.length [packet] [rx]
  return listening.headD rx

/-- A stream takes the decoded fields of a matching packet, or nothing. -/
lemma hear_ok {N : NanoCbor} {config : TopicsConfig} {packet : Packet} {rx rx' : RxStream}
    (h : hear N config packet rx = .ok rx') :
    rx' = rx ∨ ∃ d, Interprets N config packet d ∧
      streamTypeMatchMap d.streamType = some rx.streamType ∧
      rx' = rx.pushPacket d.interpretedPacket := by
  obtain ⟨⟨listening, rest⟩, hinterpret, h⟩ := Transition.bind_eq_ok.mp h
  obtain rfl : listening.headD rx = rx' := Except.ok.inj h
  rw [interpretPackets] at hinterpret
  split_ifs at hinterpret with hempty
  · obtain ⟨rfl, -⟩ := Prod.mk.inj (Except.ok.inj hinterpret)
    exact Or.inl rfl
  · obtain ⟨d, hd, hinterpret⟩ := Transition.bind_eq_ok.mp hinterpret
    split_ifs at hinterpret with hname
    · obtain ⟨rfl, -⟩ := Prod.mk.inj (Except.ok.inj hinterpret)
      exact Or.inl rfl
    · obtain ⟨streams, hdeliver, hinterpret⟩ := Transition.bind_eq_ok.mp hinterpret
      obtain ⟨rfl, -⟩ := Prod.mk.inj (Except.ok.inj hinterpret)
      cases htype : streamTypeMatchMap d.streamType with
      | none =>
        simp only [deliver, htype] at hdeliver
        cases hdeliver
      | some streamType =>
        rw [deliver_eq htype] at hdeliver
        obtain rfl := Except.ok.inj hdeliver
        simp only [delivered, List.map_cons, List.map_nil, List.headD_cons]
        split_ifs with hmatch
        · exact Or.inr ⟨d, ⟨hd, hname⟩, by rw [htype, hmatch.1], rfl⟩
        · exact Or.inl rfl

end InterpretPackets
end RmwDesert
