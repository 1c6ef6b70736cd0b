/-
What comes back of the numbers that the libmcu build streams.

Integers share one item type, and the reader extends a negative one to the 64 bits of its
buffer; `integers_received` says that all of them come back.  Floats are shrunk to halves that
the reader tells from singles by their magnitude; `float_received_iff` says which of them come
back.
-/
import RmwDesert.LibMcu.Writer

namespace RmwDesert

open Insertion (extractAll extractInto SameShape)

/-! ## Integers -/

/-- The types of the integers. -/
def FieldType.Integer : FieldType → Prop
  | .uint8 | .uint16 | .uint32 | .uint64 | .int8 | .int16 | .int32 | .int64 => True
  | .char | .bool | .string | .wstring | .float | .double => False

/-- The insertion of an integer. -/
def Insertion.Integer : Insertion → Prop
  | scalar t _ => t.Integer
  | vector _ _ => False

lemma FieldType.Integer.carried {t : FieldType} (ht : t.Integer) (x : t.Elem) : t.Carried x := by
  cases t with
  | uint8 | uint16 | uint32 | uint64 | int8 | int16 | int32 | int64 => exact trivial
  | char | bool | string | wstring | float | double => exact absurd ht id

lemma FieldType.Integer.sent_eq {t : FieldType} (ht : t.Integer) (x : t.Elem) : t.sent x = x := by
  cases t with
  | uint8 | uint16 | uint32 | uint64 | int8 | int16 | int32 | int64 => rfl
  | char | bool | string | wstring | float | double => exact absurd ht id

namespace LibMcu

open TcpDaemon (maxPacketLength)
open InterpretPackets (streamTypeMatchMap)

/-- The insertions behind the two numbers that `interpret_packets` consumes. -/
def streamedInsertions (sequenceId : Option UInt64) (insertions : List Insertion) :
    List Insertion :=
  sequenceId.toList.map (fun n => .scalar .uint64 (n : UInt64)) ++ insertions

/-- An integer is inserted without an exception. -/
lemma exists_operand {t : FieldType} (ht : t.Integer) (x : t.Elem) :
    ∃ op, insert t x = .ok op ∧ op.Carried ∧ ∀ text, op ≠ .textString text := by
  have hint : ∀ (n : Int64) text, insertInt64 n ≠ .textString text := by
    intro n text
    unfold insertInt64
    split_ifs <;> exact Operand.noConfusion
  cases t with
  | uint8 | uint16 | uint32 | uint64 => exact ⟨_, rfl, trivial, fun _ => Operand.noConfusion⟩
  | int8 | int16 | int32 | int64 => exact ⟨_, rfl, carried_insertInt64 _, hint _⟩
  | char | bool | string | wstring | float | double => exact absurd ht id

/-- The operands of insertions that do not throw, one insertion after the other. -/
lemma untilThrow_flatMap {insertions : List Insertion}
    (h : ∀ i ∈ insertions, ∃ operands : List Operand, i.attempts = operands.map .ok) :
    Insertion.untilThrow (insertions.flatMap Insertion.attempts)
      = insertions.flatMap fun i => Insertion.untilThrow i.attempts := by
  induction insertions with
  | nil => rfl
  | cons i insertions ih =>
    obtain ⟨⟨operands, hfirst⟩, hrest⟩ := List.forall_mem_cons.mp h
    have hone : Insertion.untilThrow i.attempts = operands := by
      have happend := Insertion.untilThrow_map_ok operands []
      rw [List.append_nil] at happend
      rw [hfirst, happend]
      exact List.append_nil _
    rw [List.flatMap_cons, List.flatMap_cons, hone, hfirst, Insertion.untilThrow_map_ok, ih hrest]

/-- The extraction of an integer undoes its insertion. -/
lemma reads_integer [Convertor] {i dest : Insertion} (hshape : SameShape dest i) (hi : i.Integer) :
    Reader.Reads (extractInto RxStream.extract RxStream.extractAnyVector dest) True
      ((Insertion.untilThrow i.attempts).map Operand.received) i := by
  cases hshape with
  | vector t v w => exact absurd hi id
  | scalar t x y =>
    obtain ⟨op, hop, -⟩ := exists_operand hi y
    have hattempts : Insertion.untilThrow (Insertion.scalar t y).attempts = [op] := by
      rw [Insertion.attempts, hop]
      rfl
    have hsent := FieldType.Integer.sent_eq hi y
    have hread : Reader.Reads (RxStream.extract t x) True [op.received] y := by
      intro s rest hs
      have hcurrent : s.current = some op.received := by
        rw [RxStream.current_eq_head?, hs]
        rfl
      have hextract := extract_received (FieldType.Integer.carried hi y) hop hcurrent x
      rw [hsent] at hextract
      exact ⟨fun _ => hextract, fun h => absurd trivial h⟩
    rw [hattempts]
    exact hread.map (Insertion.scalar t)

section Integers

variable {half : UInt32 → UInt16} {config : TopicsConfig} {tx : TxStream} {stream : RxStream}
  {sequenceId : Option UInt64} {insertions dests : List Insertion} {packet : Packet}

lemma transmission_eq (h : ∀ i ∈ insertions, i.Integer) :
    transmission tx sequenceId insertions = .unsignedInteger tx.streamType.toUInt64
      :: .unsignedInteger tx.streamIdentifier.toUInt64
      :: (streamedInsertions sequenceId insertions).flatMap
          fun i => Insertion.untilThrow i.attempts := by
  have hattempts : ∀ i ∈ insertions, ∃ operands : List Operand,
      i.attempts = operands.map .ok := by
    intro i hi
    cases i with
    | scalar t x =>
      obtain ⟨op, hop, -⟩ := exists_operand (h _ hi) x
      exact ⟨[op], congrArg (fun first => [first]) hop⟩
    | vector t v => exact absurd (h _ hi) id
  rw [transmission, untilThrow_flatMap hattempts, streamedInsertions, List.flatMap_append]
  cases sequenceId <;> rfl

/-- The operands of integers are noted and decoded. -/
lemma carried_integers (h : ∀ i ∈ insertions, i.Integer) {op : Operand}
    (hop : op ∈ (streamedInsertions sequenceId insertions).flatMap
      fun i => Insertion.untilThrow i.attempts) :
    op.Carried ∧ ∀ text, op ≠ .textString text := by
  obtain ⟨i, hi, hop⟩ := List.mem_flatMap.mp hop
  have hinteger : i.Integer := by
    rcases List.mem_append.mp hi with hi | hi
    · obtain ⟨n, -, rfl⟩ := List.mem_map.mp hi
      exact trivial
    · exact h i hi
  cases i with
  | scalar t x =>
    obtain ⟨first, hfirst, hcarried, htext⟩ := exists_operand hinteger x
    rw [Insertion.attempts, hfirst] at hop
    obtain rfl := List.mem_singleton.mp hop
    exact ⟨hcarried, htext⟩
  | vector t v => exact absurd hinteger id

/-- What is enqueued of integers. -/
lemma packet_of_integers (h : ∀ i ∈ insertions, i.Integer)
    (hsent : (calls half (transmission tx sequenceId insertions) (newPacket tx)).endTransmission
      = some packet) :
    packet = (.unsignedInteger tx.streamType.toUInt64
      :: .unsignedInteger tx.streamIdentifier.toUInt64
      :: (streamedInsertions sequenceId insertions).flatMap
          fun i => Insertion.untilThrow i.attempts).flatMap Operand.bytes := by
  have hencoding : ∀ {op : Operand}, op.Carried → op.encoding half = op.bytes := by
    intro op hop
    cases op with
    | float value => exact absurd hop id
    | unsignedInteger value | negativeInteger value | textString text | bool value => rfl
  rw [TxStream.endTransmission] at hsent
  split_ifs at hsent with hoverflow
  obtain ⟨-, hpacket⟩ := packet_of_not_overflow (Bool.eq_false_iff.mpr hoverflow)
  rw [← Option.some.inj hsent, hpacket, transmission_eq h, newPacket, List.nil_append, fullEncoding]
  refine List.flatMap_congr fun op hop => hencoding ?_
  rcases List.mem_cons.mp hop with rfl | hop
  · exact trivial
  · rcases List.mem_cons.mp hop with rfl | hop
    · exact trivial
    · exact (carried_integers h hop).1

/-- What is received of integers. -/
lemma hear_integers (hinteger : ∀ i ∈ insertions, i.Integer)
    (hitems : (transmission tx sequenceId insertions).length ≤ maxItems)
    (hsent : (calls half (transmission tx sequenceId insertions) (newPacket tx)).endTransmission
      = some packet)
    (htype : streamTypeMatchMap tx.streamType = some stream.streamType)
    (hidentifier : stream.streamIdentifier = tx.streamIdentifier)
    (hname : config.getIdentifierTopic tx.streamIdentifier ≠ "") :
    RxStream.hear config packet stream
      = .ok (stream.pushPacket ((streamedInsertions sequenceId insertions).flatMap
          fun i => (Insertion.untilThrow i.attempts).map Operand.received)) := by
  have hcarried : ∀ op ∈ (streamedInsertions sequenceId insertions).flatMap
      fun i => Insertion.untilThrow i.attempts, op.Carried ∧ ∀ text, op ≠ .textString text :=
    fun op hop => carried_integers hinteger hop
  rw [transmission_eq hinteger] at hitems
  rw [packet_of_integers hinteger hsent]
  generalize hoperands : ((streamedInsertions sequenceId insertions).flatMap
    fun i => Insertion.untilThrow i.attempts) = operands at hitems hcarried ⊢
  have hnoted : ∀ op ∈ Operand.unsignedInteger tx.streamType.toUInt64
      :: .unsignedInteger tx.streamIdentifier.toUInt64 :: operands,
      Noted op.bytes op.item := by
    intro op hop
    rcases List.mem_cons.mp hop with rfl | hop
    · exact Operand.noted_item trivial (by simp)
    · rcases List.mem_cons.mp hop with rfl | hop
      · exact Operand.noted_item trivial (by simp)
      · obtain ⟨hop, htext⟩ := hcarried op hop
        exact Operand.noted_item hop fun text h => absurd h (htext text)
  have hfits : ∀ op ∈ operands.take maxFields, op.Fits := by
    intro op hop
    obtain ⟨-, htext⟩ := hcarried op (List.mem_of_mem_take hop)
    cases op with
    | textString text => exact absurd rfl (htext text)
    | unsignedInteger value | negativeInteger value | float value | bool value => exact trivial
  have hroom : operands.length ≤ maxFields := by
    simp only [List.length_cons] at hitems
    rw [maxFields]
    omega
  rw [RxStream.hear, RxStream.interpretPackets_flatMap hnoted (i8_header _) (i8_header _) htype
    hname (fun op hop rest => Operand.interpretField_item (hcarried op hop).1 rest), if_pos hfits,
    List.take_of_length_le hroom, ← hoperands, List.map_flatMap]
  simp only [RxStream.interpretPackets, RxStream.delivered, List.map_cons, List.map_nil,
    hidentifier, and_self, if_true]
  rfl

/-- **The integers of a packet.**  If a packet of at most 64 integers is enqueued, each of them
is extracted with its value, the smallest one included. -/
theorem integers_received [Convertor] (hinteger : ∀ i ∈ insertions, i.Integer)
    (hitems : (transmission tx sequenceId insertions).length ≤ maxItems)
    (hsent : (calls half (transmission tx sequenceId insertions) (newPacket tx)).endTransmission
      = some packet)
    (htype : streamTypeMatchMap tx.streamType = some stream.streamType)
    (hidentifier : stream.streamIdentifier = tx.streamIdentifier)
    (hname : config.getIdentifierTopic tx.streamIdentifier ≠ "")
    (hidle : stream.bufferedPacket = [] ∧ stream.receivedPackets = [])
    (hshape : List.Forall₂ SameShape dests (streamedInsertions sequenceId insertions)) :
    ∃ s s', RxStream.hear config packet stream = .ok s ∧ s.dataAvailable.1 = true ∧
      extractAll RxStream.extract RxStream.extractAnyVector dests s.dataAvailable.2
        = .ok (streamedInsertions sequenceId insertions, s') := by
  have hhear := hear_integers hinteger hitems hsent htype hidentifier hname
  have hstreamed : ∀ i ∈ streamedInsertions sequenceId insertions, i.Integer := by
    intro i hi
    rcases List.mem_append.mp hi with hi | hi
    · obtain ⟨n, -, rfl⟩ := List.mem_map.mp hi
      exact trivial
    · exact hinteger i hi
  have hread : Reader.Reads (extractAll RxStream.extract RxStream.extractAnyVector dests) True
      ((streamedInsertions sequenceId insertions).flatMap
        fun i => (Insertion.untilThrow i.attempts).map Operand.received)
      ((streamedInsertions sequenceId insertions).map id) :=
    Insertion.reads_extractAll hshape fun i hi dest hdest => reads_integer hdest (hstreamed i hi)
  rw [List.map_id] at hread
  generalize hfields : ((streamedInsertions sequenceId insertions).flatMap
    fun i => (Insertion.untilThrow i.attempts).map Operand.received) = fields at hhear hread
  obtain ⟨s, havailable, hpending⟩ : ∃ s, (stream.pushPacket fields).dataAvailable = (true, s) ∧
      Reader.Cursor.pending s = fields ++ [] := by
    rw [RxStream.dataAvailable, RxStream.pushPacket, hidle.1, hidle.2]
    exact ⟨_, rfl, (List.append_nil _).symm⟩
  refine ⟨_, Reader.Cursor.advance fields.length s, hhear, congrArg Prod.fst havailable, ?_⟩
  rw [havailable]
  exact (hread s [] hpending).1 trivial

end Integers

/-- The smallest and the largest numbers of 64 bits, and a number of eight. -/
theorem extremes_received :
    ∃ s s', RxStream.hear chatterOnly
          ([0, 1, 0x3B, 0x7F, 0xFF, 0xFF, 0xFF, 0xFF, 0xFF, 0xFF, 0xFF]
            ++ [0x1B, 0xFF, 0xFF, 0xFF, 0xFF, 0xFF, 0xFF, 0xFF, 0xFF, 0x20])
          ⟨subscriberType, 1, 0, [], []⟩ = .ok s ∧ s.dataAvailable.1 = true ∧
      extractAll RxStream.extract RxStream.extractAnyVector
          [.scalar .int64 (0 : Int64), .scalar .uint64 (0 : UInt64), .scalar .int8 (0 : Int8)]
          s.dataAvailable.2
        = .ok ([.scalar .int64 Int64.minValue, .scalar .uint64 (0xFFFFFFFFFFFFFFFF : UInt64),
            .scalar .int8 (-1 : Int8)], s') := by
  have hinteger : ∀ i ∈ [Insertion.scalar .int64 Int64.minValue,
      .scalar .uint64 (0xFFFFFFFFFFFFFFFF : UInt64), .scalar .int8 (-1 : Int8)], i.Integer := by
    simp only [List.forall_mem_cons]
    exact ⟨trivial, trivial, trivial, by simp⟩
  exact @integers_received (fun _ => 0) chatterOnly chatterTx ⟨subscriberType, 1, 0, [], []⟩ none
    [.scalar .int64 Int64.minValue, .scalar .uint64 (0xFFFFFFFFFFFFFFFF : UInt64),
      .scalar .int8 (-1 : Int8)] _ _ libstdcxx hinteger (by decide) (by decide +kernel) rfl rfl
    (by decide) ⟨rfl, rfl⟩
    (.cons (.scalar _ _ _) (.cons (.scalar _ _ _) (.cons (.scalar _ _ _) .nil)))

/-! ## Floats -/

/-- A float is inserted, enqueued, received and extracted with the same bits. -/
def FloatReturns [Convertor] (config : TopicsConfig) (tx : TxStream) (stream : RxStream)
    (f : UInt32) : Prop :=
  ∀ dest : UInt32, ∃ operands packet s s',
    (Insertion.scalar .float f).operands = .ok operands ∧
      transmit none operands tx = .ok (some packet) ∧
      RxStream.hear config packet stream = .ok s ∧ s.dataAvailable.1 = true ∧
      RxStream.extract .float dest s.dataAvailable.2 = .ok (f, s')

section Floats

variable {f : UInt32}

/-- A float alone fits in a packet. -/
lemma float_fits (tx : TxStream) (hf : Binary.Finite f) :
    (NanoCbor.preferred.encode (tx.header none ++ [.float f])).length ≤ maxPacketLength := by
  have hnumber : ∀ n : UInt64, (NanoCbor.preferred.fmtUint n).length ≤ 9 := by
    intro n
    rw [NanoCbor.preferred_preferred.fmtUint n]
    exact Cbor.length_head_le 0 n.toNat
  have hfloat : (NanoCbor.preferred.fmtFloat f).length ≤ 5 := by
    rcases fmtFloat_cases NanoCbor.preferred_preferred hf with ⟨h, -, hfmt⟩ | ⟨-, hfmt⟩ <;>
      rw [hfmt] <;> simp [Cbor.wideHead]
  have htype := hnumber tx.streamType.toUInt64
  have hidentifier := hnumber tx.streamIdentifier.toUInt64
  have hencode : NanoCbor.preferred.encode (tx.header none ++ [.float f])
      = NanoCbor.preferred.fmtUint tx.streamType.toUInt64
        ++ (NanoCbor.preferred.fmtUint tx.streamIdentifier.toUInt64
          ++ (NanoCbor.preferred.fmtFloat f ++ [])) := rfl
  rw [hencode, maxPacketLength]
  simp only [List.length_append, List.length_nil]
  omega

/-- The floats that the encoder does not change, and that are not taken for halves. -/
lemma heardFloat_sentFloat_eq_iff (hf : Binary.Finite f) (hexponent : ¬ ZeroExponent f) :
    heardFloat (sentFloat f) = f ↔
      (103 ≤ exponent f ∧ exponent f ≤ 112 →
        mantissa f = 2 ^ 23 - 2 ^ (126 - exponent f)) ∧ 65536 ≤ f.toNat := by
  have hzero : f ≠ 0 := by
    rintro rfl
    exact hexponent (by decide)
  rw [← sentFloat_eq_iff]
  constructor
  · intro hreturns
    have hsent : sentFloat f = f := by
      by_cases hsub : 103 ≤ exponent f ∧ exponent f ≤ 112
      · -- a half that is subnormal is a large number as a float, and heard as it was sent
        obtain ⟨half, hhalf⟩ : ∃ half, Binary.widenHalf half = sentFloat f :=
          ⟨_, widenHalf_subnormal hsub.1 hsub.2⟩
        have hfinite := finite_sentFloat hf
        rw [← hhalf] at hfinite hreturns ⊢
        rwa [heardFloat_widenHalf hfinite] at hreturns
      · exact if_neg hsub
    rw [hsent] at hreturns
    exact ⟨hsent, ((heardFloat_eq_iff hf).mp hreturns).resolve_left hzero⟩
  · rintro ⟨hsent, hlarge⟩
    rw [hsent]
    exact (heardFloat_eq_iff hf).mpr (Or.inr hlarge)

variable {config : TopicsConfig} {tx : TxStream} {stream : RxStream}

/-- A float whose conversion is undefined is not sent. -/
lemma float_not_sent (hf : Binary.Finite f) (hexponent : ZeroExponent f) :
    ∃ e, transmit none [.float f] tx = .error e := by
  have hplain : ∀ field ∈ [Field.float f], Plain field := List.forall_mem_singleton.mpr hf
  rcases transmit_ofField NanoCbor.preferred_preferred hplain tx none (float_fits tx hf) with
    ⟨-, e, htransmit⟩ | ⟨hdefined, -⟩
  · exact ⟨e, htransmit⟩
  · exact absurd hexponent (hdefined _ (List.mem_singleton_self _))

/-- Any other float is sent, and extracted as what the encoder and the reader make of it. -/
lemma float_heard [Convertor] (hf : Binary.Finite f) (hexponent : ¬ ZeroExponent f)
    (htype : streamTypeMatchMap tx.streamType = some stream.streamType)
    (hidentifier : stream.streamIdentifier = tx.streamIdentifier)
    (hname : config.getIdentifierTopic tx.streamIdentifier ≠ "")
    (hidle : stream.bufferedPacket = [] ∧ stream.receivedPackets = []) :
    ∃ packet s, transmit none [.float f] tx = .ok (some packet) ∧
      RxStream.hear config packet stream = .ok s ∧ s.dataAvailable.1 = true ∧
      ∀ dest : UInt32, ∃ s', RxStream.extract .float dest s.dataAvailable.2
        = .ok (heardFloat (sentFloat f), s') := by
  have hplain : ∀ field ∈ [Field.float f], Plain field := List.forall_mem_singleton.mpr hf
  have hdefined : ∀ field ∈ [Field.float f], Defined field :=
    List.forall_mem_singleton.mpr hexponent
  have hsent : ∀ field ∈ [Field.float (sentFloat f)], Plain field :=
    List.forall_mem_singleton.mpr (finite_sentFloat hf)
  have hshort : ∀ field ∈ [Field.float (sentFloat f)].take maxFields, Short field := by
    intro field hmem
    obtain rfl := List.mem_singleton.mp (List.mem_of_mem_take hmem)
    exact trivial
  have hhear := hear_encode NanoCbor.preferred_preferred htype hidentifier hname hsent
  rw [if_pos hshort] at hhear
  obtain ⟨s, havailable, hcurrent⟩ : ∃ s, (stream.pushPacket
      (([Field.float (sentFloat f)].take maxFields).map heard)).dataAvailable = (true, s) ∧
      s.current = some (.float (heardFloat (sentFloat f))) := by
    rw [RxStream.dataAvailable, RxStream.pushPacket, hidle.1, hidle.2]
    exact ⟨_, rfl, rfl⟩
  rcases transmit_ofField NanoCbor.preferred_preferred hplain tx none (float_fits tx hf) with
    ⟨hundefined, -⟩ | ⟨-, htransmit⟩
  · exact absurd hdefined hundefined
  · refine ⟨_, _, htransmit, hhear, congrArg Prod.fst havailable, fun dest => ?_⟩
    have hread : RxStream.extract .float dest s
        = .ok ((s.current.bind RxStream.floatValue).getD dest, s.advance 1) := rfl
    rw [havailable, hread, hcurrent]
    exact ⟨_, rfl⟩

/-- **A float, there and back.**  A finite float comes back with its bits if and only if the
encoder does not shift it out of range, nor replaces its mantissa, and its bits are too large a
number to be taken for those of a half. -/
theorem float_received_iff [Convertor] (hf : Binary.Finite f)
    (htype : streamTypeMatchMap tx.streamType = some stream.streamType)
    (hidentifier : stream.streamIdentifier = tx.streamIdentifier)
    (hname : config.getIdentifierTopic tx.streamIdentifier ≠ "")
    (hidle : stream.bufferedPacket = [] ∧ stream.receivedPackets = []) :
    FloatReturns config tx stream f ↔
      ¬ ZeroExponent f ∧
        (103 ≤ exponent f ∧ exponent f ≤ 112 →
          mantissa f = 2 ^ 23 - 2 ^ (126 - exponent f)) ∧ 65536 ≤ f.toNat := by
  by_cases hexponent : ZeroExponent f
  · refine iff_of_false (fun hreturns => ?_) fun h => h.1 hexponent
    obtain ⟨e, htransmit⟩ := @float_not_sent f tx hf hexponent
    obtain ⟨operands, packet, s, s', hoperands, hsent, -⟩ := hreturns 0
    obtain rfl := Except.ok.inj hoperands
    cases htransmit.symm.trans hsent
  · obtain ⟨packet, s, htransmit, hhear, havailable, hextract⟩ :=
      float_heard hf hexponent htype hidentifier hname hidle
    rw [and_iff_right hexponent, ← heardFloat_sentFloat_eq_iff hf hexponent]
    constructor
    · intro hreturns
      obtain ⟨operands, packet', t, t', hoperands, hpacket, hheard, -, hread⟩ := hreturns 0
      obtain rfl := Except.ok.inj hoperands
      obtain rfl := Option.some.inj (Except.ok.inj (htransmit.symm.trans hpacket))
      obtain rfl := Except.ok.inj (hhear.symm.trans hheard)
      obtain ⟨s', hvalue⟩ := hextract 0
      exact congrArg Prod.fst (Except.ok.inj (hvalue.symm.trans hread))
    · intro hsame dest
      obtain ⟨s', hvalue⟩ := hextract dest
      rw [hsame] at hvalue
      exact ⟨_, packet, s, s', rfl, htransmit, hhear, havailable, hvalue⟩

end Floats

/-- The number 1 comes back. -/
theorem one_received :
    FloatReturns chatterOnly chatterTx ⟨subscriberType, 1, 0, [], []⟩ 0x3F800000 :=
  (float_received_iff (by decide) rfl rfl (by decide) ⟨rfl, rfl⟩).mpr (by decide)

/-- The number `2 ^ (-15)` comes back with another mantissa. -/
theorem small_float_changes :
    ¬ ∀ (config : TopicsConfig) (tx : TxStream) (stream : RxStream) (f : UInt32),
      Binary.Finite f → streamTypeMatchMap tx.streamType = some stream.streamType →
      stream.streamIdentifier = tx.streamIdentifier →
      config.getIdentifierTopic tx.streamIdentifier ≠ "" →
      stream.bufferedPacket = [] ∧ stream.receivedPackets = [] →
      FloatReturns config tx stream f := by
  intro hall
  obtain ⟨operands, packet, s, s', hoperands, hpacket, hheard, -, hread⟩ :=
    hall chatterOnly chatterTx ⟨subscriberType, 1, 0, [], []⟩ 0x38000000 (by decide) rfl rfl
      (by decide) ⟨rfl, rfl⟩ 0
  obtain rfl := Except.ok.inj hoperands
  have hpacket' : transmit none [.float 0x38000000] chatterTx
      = .ok (some [0, 1, 0xF9, 0x03, 0xFF]) := by decide +kernel
  obtain rfl := Option.some.inj (Except.ok.inj (hpacket'.symm.trans hpacket))
  have hvalue : (RxStream.hear chatterOnly [0, 1, 0xF9, 0x03, 0xFF] ⟨subscriberType, 1, 0, [], []⟩
      >>= fun s => RxStream.extract .float (0 : UInt32) s.dataAvailable.2).map Prod.fst
      = .ok (0x387FC000 : UInt32) := by
    rfl
  rw [hheard] at hvalue
  replace hvalue : (RxStream.extract .float (0 : UInt32) s.dataAvailable.2).map Prod.fst
    = .ok (0x387FC000 : UInt32) := hvalue
  rw [hread] at hvalue
  have hbits : (0x38000000 : UInt32) = 0x387FC000 := Except.ok.inj hvalue
  exact absurd hbits (by decide)

end LibMcu
end RmwDesert
