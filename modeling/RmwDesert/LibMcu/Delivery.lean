/-
What arrives of the fields that the libmcu build streams.

`end_transmission` enqueues every message that fits in a packet, but the reader has a table of
64 items and a buffer of 128 bytes for a value, and asks for the result of neither.  What is
behind the table is dropped, and the terminator of a long string is stored behind the buffer.
`fields_delivered_iff` says which messages of integers, booleans and strings arrive whole.
-/
import RmwDesert.Interoperability
import RmwDesert.TextAcceptance

namespace RmwDesert

/-! ## The values -/

/-- Integers, booleans, and strings without a terminator among their characters. -/
def FieldType.Carried : (t : FieldType) → t.Elem → Prop
  | .uint8 | .uint16 | .uint32 | .uint64 | .int8 | .int16 | .int32 | .int64 | .bool =>
    fun _ => True
  | .char => fun (c : UInt8) => c ≠ 0
  | .string => fun (s : List UInt8) => 0 ∉ s
  | .wstring => fun (s : List UInt16) => 0 ∉ s
  | .float | .double => fun _ => False

/-- The value that the libmcu build sends: of a wide string, all but a high surrogate at the
end. -/
def FieldType.sent : (t : FieldType) → t.Elem → t.Elem
  | .wstring, (x : List UInt16) => LibMcu.sentUnits x
  | _, x => x

/-- The insertion of such values. -/
def Insertion.Carried : Insertion → Prop
  | scalar t x => t.Carried x
  | vector t v => ∀ x ∈ v, t.Carried x

namespace LibMcu

open TcpDaemon (maxPacketLength)

/-! ## The operands on the wire -/

namespace Operand

/-- The bytes that are written for an operand. -/
def bytes : Operand → List UInt8
  | unsignedInteger value => encodeCore 0 [] value.toNat
  | negativeInteger value => encodeCore 1 [] ((-value).toUInt64 - 1).toNat
  | float value => (encodeFloat value).toOption.getD []
  | textString text => encodeCore 3 text text.length
  | bool value => encodeCore 7 [] (if value then 21 else 20)

/-- The item that the parser notes for an operand, given the bytes that follow it. -/
def item : Operand → List UInt8 → CborItem
  | textString text, rest => ⟨.string, text.length, text ++ rest⟩
  | unsignedInteger value, rest =>
    ⟨.integer, (bytes (.unsignedInteger value)).length - 1, bytes (.unsignedInteger value) ++ rest⟩
  | negativeInteger value, rest =>
    ⟨.integer, (bytes (.negativeInteger value)).length - 1, bytes (.negativeInteger value) ++ rest⟩
  | float value, rest => ⟨.float, (bytes (.float value)).length - 1, bytes (.float value) ++ rest⟩
  | bool value, rest => ⟨.simpleValue, 0, bytes (.bool value) ++ rest⟩

/-- The field of a received packet with the value of the operand. -/
def received : Operand → Decoded
  | unsignedInteger value => .integer value.toInt64
  | negativeInteger value => .integer value
  | float value => .float value
  | textString text => .string text
  | bool value => .simpleValue (if value then 1 else 0)

/-- The operands that can be terminated in the buffer of the decoder. -/
def Fits : Operand → Prop
  | textString text => text.length < sizeofStrCopy
  | unsignedInteger _ | negativeInteger _ | float _ | bool _ => True

instance : DecidablePred Fits
  | textString _ => inferInstanceAs (Decidable (_ < _))
  | unsignedInteger _ | negativeInteger _ | float _ | bool _ => inferInstanceAs (Decidable True)

/-- The operands that are made of the values. -/
def Carried : Operand → Prop
  | unsignedInteger _ | bool _ => True
  | negativeInteger value => value < 0
  | float _ => False
  | textString text => 0 ∉ text

/-- The operands that the encoder writes. -/
def Written : Operand → Prop
  | negativeInteger value => value ≠ Int64.minValue
  | textString text => text.length ≤ maxPacketLength
  | unsignedInteger _ | float _ | bool _ => True

/-- Every operand is noted. -/
lemma noted_item {op : Operand} (hop : op.Carried)
    (htext : ∀ text, op = .textString text → text.length ≤ maxPacketLength) :
    Noted op.bytes op.item := by
  cases op with
  | unsignedInteger value =>
    show Noted (encodeCore 0 [] value.toNat) fun rest =>
      ⟨.integer, (encodeCore 0 [] value.toNat).length - 1, encodeCore 0 [] value.toNat ++ rest⟩
    rw [encodeCore_nil]
    exact noted_head (Or.inl rfl) value.toNat_lt
  | negativeInteger value =>
    have hlt := ((-value).toUInt64 - 1).toNat_lt
    show Noted (encodeCore 1 [] ((-value).toUInt64 - 1).toNat) fun rest =>
      ⟨.integer, (encodeCore 1 [] ((-value).toUInt64 - 1).toNat).length - 1,
        encodeCore 1 [] ((-value).toUInt64 - 1).toNat ++ rest⟩
    rw [encodeCore_nil]
    exact noted_head (Or.inr rfl) hlt
  | float value => exact absurd hop id
  | textString text =>
    have hlt : text.length < 2 ^ 64 - 1 := lt_of_le_of_lt (htext text rfl) (by decide)
    exact ⟨_, _, rfl, fun rest items parse => CborReader.parseItem_string parse items rest hlt⟩
  | bool value =>
    have hlt : (if value then 21 else 20) < 24 := by split_ifs <;> omega
    exact ⟨_, _, rfl, fun rest items parse => CborReader.parseItem_simple parse items rest hlt⟩

/-- Every operand is decoded to its own value, unless it does not fit in the buffer. -/
lemma interpretField_item {op : Operand} (hop : op.Carried) (rest : List UInt8) :
    interpretField (op.item rest) (cborDecode (op.item rest))
      = if op.Fits then .ok (some op.received) else .error .outOfBounds := by
  cases op with
  | unsignedInteger value =>
    rw [item, bytes, encodeCore_nil]
    exact interpretField_unsigned value rest
  | negativeInteger value =>
    rw [item, bytes, encodeCore_nil]
    exact interpretField_negative hop (toNat_neg_sub_one hop) rest
  | float value => exact absurd hop id
  | textString text =>
    -- there is no terminator before the one that is stored
    rw [item, interpretField_string, Unicode.takeWhile_ne_zero hop]
    rfl
  | bool value =>
    rw [item, bytes, cborDecode_bool]
    cases value <;> rfl

/-- The encoder writes an operand, or remembers that there was no room. -/
lemma put_ok {op : Operand} (hop : op.Carried) {s s' : TxStream} (h : put op s = .ok s')
    (hoverflow : s'.overflow = false) :
    s.overflow = false ∧ s'.packet = s.packet ++ op.bytes ∧ op.Written := by
  -- the flag is never taken back, so there was room
  have hcore : ∀ {major size : ℕ} {data : List UInt8}, putCore major data size s = s' →
      s.overflow = false ∧ s'.packet = s.packet ++ encodeCore major data size ∧
        (encodeCore major data size).length ≤ maxPacketLength := by
    rintro major size data rfl
    rw [putCore] at hoverflow ⊢
    split_ifs at hoverflow ⊢ with hfits
    exact ⟨hoverflow, rfl, by omega⟩
  cases op with
  | unsignedInteger value =>
    obtain ⟨hs, hpacket, -⟩ := hcore (Except.ok.inj h)
    exact ⟨hs, hpacket, trivial⟩
  | negativeInteger value =>
    rw [put] at h
    split_ifs at h with hmin
    obtain ⟨hs, hpacket, -⟩ := hcore (Except.ok.inj h)
    exact ⟨hs, hpacket, hmin⟩
  | float value => exact absurd hop id
  | textString text =>
    obtain ⟨hs, hpacket, hlen⟩ := hcore (Except.ok.inj h)
    rw [length_encodeCore] at hlen
    exact ⟨hs, hpacket, show text.length ≤ _ by omega⟩
  | bool value =>
    obtain ⟨hs, hpacket, -⟩ := hcore (Except.ok.inj h)
    exact ⟨hs, hpacket, trivial⟩

end Operand

/-- What a sequence of calls has written, if there was room for all of it. -/
lemma putAll_ok {operands : List Operand} (hop : ∀ op ∈ operands, op.Carried) {s s' : TxStream}
    (h : putAll operands s = .ok s') (hoverflow : s'.overflow = false) :
    s.overflow = false ∧ s'.packet = s.packet ++ operands.flatMap Operand.bytes ∧
      ∀ op ∈ operands, op.Written := by
  induction operands generalizing s with
  | nil =>
    obtain rfl : s = s' := Except.ok.inj h
    simp [hoverflow]
  | cons op operands ih =>
    obtain ⟨mid, hput, hrest⟩ := Transition.bind_eq_ok.mp h
    obtain ⟨hfirst, hothers⟩ := List.forall_mem_cons.mp hop
    obtain ⟨hmid, hpacket, hwritten⟩ := ih hothers hrest
    obtain ⟨hs, hbytes, hone⟩ := Operand.put_ok hfirst hput hmid
    refine ⟨hs, ?_, List.forall_mem_cons.mpr ⟨hone, hwritten⟩⟩
    rw [hpacket, hbytes, List.flatMap_cons, List.append_assoc]

/-- The fields behind the two numbers that `interpret_packets` consumes. -/
def streamed (sequenceId : Option UInt64) (operands : List Operand) : List Operand :=
  sequenceId.toList.map .unsignedInteger ++ operands

/-- A packet that is enqueued holds the header and the fields. -/
lemma transmit_ok {sequenceId : Option UInt64} {operands : List Operand}
    (hop : ∀ op ∈ operands, op.Carried) {tx : TxStream} {packet : Packet}
    (h : transmit sequenceId operands tx = .ok (some packet)) :
    packet = (.unsignedInteger tx.streamType.toUInt64
        :: .unsignedInteger tx.streamIdentifier.toUInt64
        :: streamed sequenceId operands).flatMap Operand.bytes ∧
      ∀ op ∈ streamed sequenceId operands, op.Carried ∧ op.Written := by
  obtain ⟨s, hstart, h⟩ := Transition.bind_eq_ok.mp h
  obtain ⟨s', hput, h⟩ := Transition.bind_eq_ok.mp h
  obtain ⟨hoverflow, hpacket⟩ : s'.overflow = false ∧ s'.packet = packet := by
    have hend : s'.endTransmission = some packet := Except.ok.inj h
    cases hs : s'.overflow with
    | false => exact ⟨rfl, by simpa [TxStream.endTransmission, hs] using hend⟩
    | true => simp [TxStream.endTransmission, hs] at hend
  have hheader : ∀ op ∈ header tx sequenceId, op.Carried ∧ op.Written := by
    intro op hmem
    cases sequenceId <;> simp [header] at hmem <;> rcases hmem with rfl | rfl | rfl <;>
      exact ⟨trivial, trivial⟩
  obtain ⟨hs, hfields, hwritten⟩ := putAll_ok hop hput hoverflow
  obtain ⟨-, hfirst, -⟩ := putAll_ok (fun op hmem => (hheader op hmem).1) hstart hs
  refine ⟨?_, fun op hmem => ?_⟩
  · rw [← hpacket, hfields, hfirst, List.nil_append, ← List.flatMap_append, streamed, header]
    rfl
  · rcases List.mem_append.mp hmem with hmem | hmem
    · exact hheader op (List.mem_append_right _ hmem)
    · exact ⟨hop op hmem, hwritten op hmem⟩

/-! ## The fields of a message -/

lemma carried_insertInt64 (n : Int64) : (insertInt64 n).Carried := by
  unfold insertInt64
  split_ifs with hn
  · exact trivial
  · exact Int64.not_le.mp hn

/-- What a wide string that is converted is sent as. -/
lemma wstring_ok {x : List UInt16} {op : Operand} (h : insert .wstring x = .ok op) :
    ∃ text, Begins x text ∧ op = .textString (Unicode.utf8Encode text) := by
  obtain ⟨bytes, hbytes, h⟩ := Transition.bind_eq_ok.mp h
  obtain ⟨text, hbegins, rfl⟩ := toUTF8_eq_ok_iff.mp hbytes
  exact ⟨text, hbegins, (Except.ok.inj h).symm⟩

/-- A text has no terminator if the string that begins with it has none. -/
lemma zero_notMem_of_begins {x : List UInt16} {text : List Char} (h : Begins x text)
    (hx : 0 ∉ x) : 0 ∉ Unicode.utf16Encode text := by
  rcases h with rfl | ⟨high, -, rfl⟩
  · exact hx
  · exact fun hzero => hx (List.mem_append_left _ hzero)

lemma carried_of_insert {t : FieldType} {x : t.Elem} (hx : t.Carried x) {op : Operand}
    (h : insert t x = .ok op) : op.Carried := by
  cases t with
  | uint64 | uint32 | uint16 | uint8 | bool =>
    obtain rfl := Except.ok.inj h
    exact trivial
  | int64 | int32 | int16 | int8 =>
    obtain rfl := Except.ok.inj h
    exact carried_insertInt64 _
  | char =>
    obtain rfl := Except.ok.inj h
    exact fun hzero => hx (List.mem_singleton.mp hzero).symm
  | float | double => exact absurd hx id
  | string =>
    obtain rfl := Except.ok.inj h
    exact hx
  | wstring =>
    obtain ⟨text, hbegins, rfl⟩ := wstring_ok h
    exact fun hzero => zero_notMem_of_begins hbegins hx (Unicode.zero_mem_utf16Encode hzero)

/-- The value that is sent is well-formed, has no terminator inside, and is sent as it is. -/
lemma admissible_sent {t : FieldType} {x : t.Elem} (hx : t.Carried x) {op : Operand}
    (h : insert t x = .ok op) :
    t.Carried (t.sent x) ∧ t.Admissible (t.sent x) ∧ insert t (t.sent x) = .ok op := by
  cases t with
  | float | double => exact absurd hx id
  | string => exact ⟨hx, ⟨trivial, hx, trivial⟩, h⟩
  | wstring =>
    obtain ⟨text, hbegins, rfl⟩ := wstring_ok h
    have hsent : FieldType.wstring.sent x = Unicode.utf16Encode text := hbegins.sentUnits_eq
    have hzero := zero_notMem_of_begins hbegins hx
    rw [hsent]
    refine ⟨hzero, ⟨⟨text, rfl⟩, hzero, trivial⟩, ?_⟩
    show (toUTF8 (Unicode.utf16Encode text) >>= _) = _
    rw [toUTF8_utf16Encode]
    rfl
  | uint64 | uint32 | uint16 | uint8 | int64 | int32 | int16 | int8 | bool =>
    exact ⟨trivial, ⟨trivial, trivial, trivial⟩, h⟩
  | char => exact ⟨hx, ⟨trivial, trivial, trivial⟩, h⟩

/-- The operands of an insertion. -/
lemma carried_of_operands {i : Insertion} (hi : i.Carried) {operands : List Operand}
    (h : i.operands = .ok operands) : ∀ op ∈ operands, op.Carried := by
  cases i with
  | scalar t x =>
    obtain ⟨first, hfirst, h⟩ := Transition.bind_eq_ok.mp h
    obtain rfl := Except.ok.inj h
    exact List.forall_mem_singleton.mpr (carried_of_insert hi hfirst)
  | vector t v =>
    obtain ⟨size, hsize, h⟩ := Transition.bind_eq_ok.mp h
    obtain ⟨items, hitems, h⟩ := Transition.bind_eq_ok.mp h
    obtain rfl := Except.ok.inj h
    refine List.forall_mem_cons.mpr ⟨?_, fun op hop => ?_⟩
    · obtain rfl := Except.ok.inj hsize
      exact trivial
    · obtain ⟨x, hx, hinsert⟩ := (Transition.mem_of_mapM_ok hitems op).mp hop
      exact carried_of_insert (hi x hx) hinsert

lemma received_ofField {f : Field} (h : (Operand.ofField f).Carried) :
    (Operand.ofField f).received = heard f := by
  cases f with
  | uint n | nint n => rfl
  | float bits => exact absurd h id
  | tstr text => exact (RxStream.heard_string h).symm

/-- **The value of a field.**  A field that is received with the value of an operand is read back
as the value that was sent, by the operator for its type. -/
lemma extract_received [Convertor] {t : FieldType} {x : t.Elem} (hx : t.Carried x) {op : Operand}
    (h : insert t x = .ok op) {s : RxStream} (hs : s.current = some op.received) (dest : t.Elem) :
    RxStream.extract t dest s = .ok (t.sent x, s.advance 1) := by
  by_cases hbool : t = .bool
  · subst hbool
    obtain rfl := Except.ok.inj h
    have hread : RxStream.next RxStream.simpleValue s
        = .ok (some (if x then 1 else 0), s.advance 1) := by
      rw [RxStream.next, hs]
      rfl
    have hextract : RxStream.extract .bool dest s
        = RxStream.next RxStream.simpleValue s >>= fun p =>
          (RxStream.initialised p.1 >>= fun v => (pure (v != 0) : RxM Bool)) p.2 := rfl
    rw [hextract, hread]
    cases x <;> rfl
  · -- the other types are read as from a packet of the NanoCBOR build
    obtain ⟨hx, hadmissible, h⟩ := admissible_sent hx h
    have hop := carried_of_insert hx h
    rw [insert_eq_ofField hadmissible hbool] at h
    obtain rfl := Except.ok.inj h
    rw [received_ofField hop] at hs
    have hsame : t.through heardFloat (t.sent x) = t.sent x := by
      cases t with
      | float | double => exact absurd hx id
      | uint64 | uint32 | uint16 | uint8 | int64 | int32 | int16 | int8 | char | bool | string
      | wstring => rfl
    have hread := RxStream.delivers_extract hadmissible dest s
      (Reader.along_singleton.mpr ⟨hbool, Or.inl hs⟩)
    rw [hsame] at hread
    exact hread

/-! ## Delivery -/

/-- A message of such values that one node enqueues, and the streams with which another node
listens, one of which matches. -/
structure Passage (config : TopicsConfig) (tx : TxStream) (sequenceId : Option UInt64)
    (insertions : List Insertion) (operands : List (List Operand)) (packet : Packet)
    (rxType : UInt8) (listening : List RxStream) : Prop where
  carried : ∀ i ∈ insertions, i.Carried
  inserted : insertions.mapM Insertion.operands = .ok operands
  enqueued : transmit sequenceId operands.flatten tx = .ok (some packet)
  type : InterpretPackets.streamTypeMatchMap tx.streamType = some rxType
  name : config.getIdentifierTopic tx.streamIdentifier ≠ ""
  matching : ∃ stream ∈ listening,
    stream.streamType = rxType ∧ stream.streamIdentifier = tx.streamIdentifier

section Passage

variable {config : TopicsConfig} {tx : TxStream} {sequenceId : Option UInt64}
  {insertions : List Insertion} {operands : List (List Operand)} {packet : Packet}
  {rxType : UInt8} {listening : List RxStream}

lemma i8_header (n : UInt8) (rest : List UInt8) :
    (cborDecode (Operand.item (.unsignedInteger n.toUInt64) rest)).i8 = n := by
  have hn : n.toUInt64.toNat = n.toNat := by simp
  rw [Operand.item, Operand.bytes, encodeCore_nil, hn]
  exact i8_unsigned n rest

/-- What becomes of a message: the first fields arrive, unless one of them does not fit. -/
lemma interpretPackets_passage
    (h : Passage config tx sequenceId insertions operands packet rxType listening)
    (rxPackets : List Packet) :
    RxStream.interpretPackets config (packet :: rxPackets) listening
      = if ∀ op ∈ (streamed sequenceId operands.flatten).take maxFields, op.Fits then
          RxStream.interpretPackets config rxPackets
            (RxStream.delivered rxType tx.streamIdentifier
              (((streamed sequenceId operands.flatten).take maxFields).map Operand.received)
              listening)
        else .error .outOfBounds := by
  have hcarried : ∀ op ∈ operands.flatten, op.Carried := by
    intro op hop
    obtain ⟨l, hl, hmem⟩ := List.mem_flatten.mp hop
    obtain ⟨i, hi, hoperands⟩ := (Transition.mem_of_mapM_ok h.inserted l).mp hl
    exact carried_of_operands (h.carried i hi) hoperands op hmem
  obtain ⟨rfl, hfields⟩ := transmit_ok hcarried h.enqueued
  refine RxStream.interpretPackets_flatMap (fun op hop => ?_) (i8_header _) (i8_header _) h.type
    h.name (fun op hop rest => ?_) rxPackets listening
  · rcases List.mem_cons.mp hop with rfl | hop
    · exact Operand.noted_item trivial (by simp)
    · rcases List.mem_cons.mp hop with rfl | hop
      · exact Operand.noted_item trivial (by simp)
      · obtain ⟨hop, hwritten⟩ := hfields op hop
        refine Operand.noted_item hop ?_
        rintro text rfl
        exact hwritten
  · exact Operand.interpretField_item (hfields op hop).1 rest

/-- The packet that a matching stream gets. -/
lemma delivered_injective {packet packet' : List Decoded} {identifier : UInt8}
    (hmatching : ∃ stream ∈ listening,
      stream.streamType = rxType ∧ stream.streamIdentifier = identifier)
    (h : RxStream.delivered rxType identifier packet listening
      = RxStream.delivered rxType identifier packet' listening) : packet = packet' := by
  obtain ⟨stream, hmem, hstream⟩ := hmatching
  have hpush := List.map_inj_left.mp h stream hmem
  simp only [if_pos hstream] at hpush
  have hqueue := congrArg RxStream.receivedPackets hpush
  exact List.singleton_inj.mp (List.append_cancel_left hqueue)

/-- **Which messages arrive whole.**  The matching streams get exactly the fields of a message,
in order and with their values, if and only if the parser has room for all of them and every
string can be terminated in the buffer of the decoder. -/
theorem fields_delivered_iff
    (h : Passage config tx sequenceId insertions operands packet rxType listening) :
    (∀ rxPackets, RxStream.interpretPackets config (packet :: rxPackets) listening
      = RxStream.interpretPackets config rxPackets
          (RxStream.delivered rxType tx.streamIdentifier
            ((streamed sequenceId operands.flatten).map Operand.received) listening)) ↔
    (streamed sequenceId operands.flatten).length ≤ maxFields ∧
      ∀ op ∈ operands.flatten, op.Fits := by
  simp only [interpretPackets_passage h]
  constructor
  · intro hall
    have hlast := hall []
    split_ifs at hlast with hfits
    · -- the fields that arrive are as many as were streamed, so none was cut off
      have hsame := delivered_injective h.matching (congrArg Prod.fst (Except.ok.inj hlast))
      have hlength := congrArg List.length hsame
      simp only [List.length_map, List.length_take] at hlength
      have hroom : (streamed sequenceId operands.flatten).length ≤ maxFields := by omega
      rw [List.take_of_length_le hroom] at hfits
      exact ⟨hroom, fun op hop => hfits op (List.mem_append_right _ hop)⟩
    · cases hlast
  · rintro ⟨hroom, hfits⟩ rxPackets
    have hall : ∀ op ∈ streamed sequenceId operands.flatten, op.Fits := by
      intro op hop
      rcases List.mem_append.mp hop with hop | hop
      · obtain ⟨n, -, rfl⟩ := List.mem_map.mp hop
        exact trivial
      · exact hfits op hop
    rw [List.take_of_length_le hroom, if_pos hall]

end Passage

/-- A number, a switch and a text. -/
theorem fields_delivered_reading :
    RxStream.interpretPackets chatterOnly [[0, 1, 7, 0xF5, 0x62, 0x68, 0x69]]
        [⟨subscriberType, 1, 0, [], []⟩]
      = .ok ([⟨subscriberType, 1, 0, [],
          [[.integer 7, .simpleValue 1, .string [0x68, 0x69]]]⟩], []) := by
  have h : Passage chatterOnly chatterTx none
      [.scalar .uint8 (7 : UInt8), .scalar .bool true, .scalar .string ([0x68, 0x69] : List UInt8)]
      [[.unsignedInteger 7], [.bool true], [.textString [0x68, 0x69]]]
      [0, 1, 7, 0xF5, 0x62, 0x68, 0x69] subscriberType [⟨subscriberType, 1, 0, [], []⟩] := by
    refine ⟨?_, rfl, rfl, rfl, by decide, ⟨_, List.mem_singleton_self _, rfl, rfl⟩⟩
    simp only [List.forall_mem_cons, Insertion.Carried]
    refine ⟨trivial, trivial, ?_, by simp⟩
    show (0 : UInt8) ∉ [0x68, 0x69]
    decide
  exact (fields_delivered_iff h).mpr ⟨by decide, by decide⟩ []

/-- The last of 63 fields is lost. -/
theorem last_field_lost :
    ¬ ∀ (config : TopicsConfig) (tx : TxStream) (sequenceId : Option UInt64)
      (insertions : List Insertion) (operands : List (List Operand)) (packet : Packet)
      (rxType : UInt8) (listening : List RxStream),
      Passage config tx sequenceId insertions operands packet rxType listening →
      ∀ rxPackets, RxStream.interpretPackets config (packet :: rxPackets) listening
        = RxStream.interpretPackets config rxPackets
            (RxStream.delivered rxType tx.streamIdentifier
              ((streamed sequenceId operands.flatten).map Operand.received) listening) := by
  intro hall
  have h : Passage chatterOnly chatterTx none
      [.vector .uint8 (List.replicate 62 (7 : UInt8))]
      [.unsignedInteger 62 :: List.replicate 62 (.unsignedInteger 7)]
      ([0, 1, 0x18, 62] ++ List.replicate 62 7) subscriberType
      [⟨subscriberType, 1, 0, [], []⟩] := by
    refine ⟨?_, rfl, by decide +kernel, rfl, by decide, ⟨_, List.mem_singleton_self _, rfl, rfl⟩⟩
    simp only [List.forall_mem_singleton, Insertion.Carried]
    exact fun x _ => trivial
  have hlast := hall _ _ _ _ _ _ _ _ h []
  rw [interpretPackets_passage h] at hlast
  split_ifs at hlast
  · have hsame := delivered_injective h.matching (congrArg Prod.fst (Except.ok.inj hlast))
    have hlength := congrArg List.length hsame
    simp [streamed, maxFields, maxItems] at hlength
  · cases hlast

end LibMcu
end RmwDesert
