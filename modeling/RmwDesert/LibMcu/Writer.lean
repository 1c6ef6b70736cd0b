/-
Where the encoder of the libmcu build writes (`encode_core` and `encode_float`).

`put` stops at the first operation that C leaves undefined.  Here a call goes on as the machine
does: the smallest integer is negated modulo `2 ^ 64`, the half that an undefined shift makes is
arbitrary, and what does not fit in `_packet` is stored behind it.  Integers, booleans and
strings are compared with the space that is left, which is an unsigned difference; floats are
not.
-/
import RmwDesert.LibMcu.Delivery

namespace RmwDesert

/-! ## The calls of the encoder -/

namespace Insertion

/-- The operands that an insertion computes, one after the other. -/
def attempts : Insertion → List (Except Failure LibMcu.Operand)
  | scalar t x => [LibMcu.insert t x]
  | vector t v => LibMcu.insert .uint32 (UInt32.ofNat v.length) :: v.map (LibMcu.insert t)

/-- The operands that are computed before an exception. -/
def untilThrow : List (Except Failure LibMcu.Operand) → List LibMcu.Operand
  | .ok op :: attempts => op :: untilThrow attempts
  | .error _ :: _ | [] => []

lemma untilThrow_map_ok (operands : List LibMcu.Operand)
    (attempts : List (Except Failure LibMcu.Operand)) :
    untilThrow (operands.map .ok ++ attempts) = operands ++ untilThrow attempts := by
  induction operands with
  | nil => rfl
  | cons op operands ih => exact congrArg (op :: ·) ih

/-- The operands of an insertion that does not throw. -/
lemma attempts_of_operands {i : Insertion} {operands : List LibMcu.Operand}
    (h : i.operands = .ok operands) : i.attempts = operands.map .ok := by
  have hmap : ∀ {t : FieldType} {v : List t.Elem} {items : List LibMcu.Operand},
      v.mapM (LibMcu.insert t) = .ok items → v.map (LibMcu.insert t) = items.map .ok := by
    intro t v
    induction v with
    | nil =>
      intro items hitems
      obtain rfl := Except.ok.inj hitems
      rfl
    | cons x v ih =>
      intro items hitems
      rw [List.mapM_cons] at hitems
      obtain ⟨first, hfirst, hitems⟩ := Transition.bind_eq_ok.mp hitems
      obtain ⟨others, hothers, hitems⟩ := Transition.bind_eq_ok.mp hitems
      obtain rfl := Except.ok.inj hitems
      rw [List.map_cons, List.map_cons, hfirst, ih hothers]
  cases i with
  | scalar t x =>
    obtain ⟨first, hfirst, h⟩ := Transition.bind_eq_ok.mp h
    obtain rfl := Except.ok.inj h
    rw [attempts, hfirst]
    rfl
  | vector t v =>
    obtain ⟨size, hsize, h⟩ := Transition.bind_eq_ok.mp h
    obtain ⟨items, hitems, h⟩ := Transition.bind_eq_ok.mp h
    obtain rfl := Except.ok.inj h
    rw [attempts, hsize, hmap hitems]
    rfl

/-- The operands of a sequence of insertions that does not throw. -/
lemma untilThrow_of_operands {insertions : List Insertion} {operands : List (List LibMcu.Operand)}
    (h : insertions.mapM Insertion.operands = .ok operands) :
    untilThrow (insertions.flatMap attempts) = operands.flatten := by
  induction insertions generalizing operands with
  | nil =>
    obtain rfl := Except.ok.inj h
    rfl
  | cons i insertions ih =>
    rw [List.mapM_cons] at h
    obtain ⟨first, hfirst, h⟩ := Transition.bind_eq_ok.mp h
    obtain ⟨others, hothers, h⟩ := Transition.bind_eq_ok.mp h
    obtain rfl := Except.ok.inj h
    rw [List.flatMap_cons, attempts_of_operands hfirst, untilThrow_map_ok, ih hothers]
    rfl

end Insertion

namespace LibMcu

open TcpDaemon (maxPacketLength)

section Writer

variable (half : UInt32 → UInt16)

/-- The bytes of an operand, given what an undefined shift makes of a float. -/
def Operand.encoding : Operand → List UInt8
  | .float value =>
    if isShrinkableToHalf value then
      0xF9 :: BigEndian.encode 2 ((convertSingleToHalf value).toOption.getD (half value)).toNat
    else 0xFA :: BigEndian.encode 4 value.toNat
  | .unsignedInteger value => (Operand.unsignedInteger value).bytes
  | .negativeInteger value => (Operand.negativeInteger value).bytes
  | .textString text => (Operand.textString text).bytes
  | .bool value => (Operand.bool value).bytes

/-- `writer->bufsize - writer->bufidx`, of type `size_t`. -/
def remaining (s : TxStream) : ℕ :=
  (UInt64.ofNat maxPacketLength - UInt64.ofNat s.packet.length).toNat

/-- The bytes that a call stores from `bufidx` on, unless it returns `CBOR_OVERRUN`. -/
def stores (s : TxStream) : Operand → Option (List UInt8)
  | .float value => some ((Operand.float value).encoding half)
  | op => if (op.encoding half).length > remaining s then none else some (op.encoding half)

/-- A call of the encoder, and `handle_overrun` for its result. -/
def call (s : TxStream) (op : Operand) : TxStream :=
  match stores half s op with
  | none => { s with overflow := true }
  | some bytes => { s with packet := s.packet ++ bytes }

/-- A sequence of calls. -/
def calls (operands : List Operand) (s : TxStream) : TxStream := operands.foldl (call half) s

/-- The stream behind `new_packet`. -/
def newPacket (tx : TxStream) : TxStream := { tx with overflow := false, packet := [] }

/-- The operands of a transmission: the header, and those of the insertions. -/
def transmission (tx : TxStream) (sequenceId : Option UInt64) (insertions : List Insertion) :
    List Operand :=
  header tx sequenceId ++ Insertion.untilThrow (insertions.flatMap Insertion.attempts)

/-- The packet that `end_transmission` enqueues, if any. -/
def send (sequenceId : Option UInt64) (operands : List Operand) (tx : TxStream) : Option Packet :=
  (calls half (header tx sequenceId ++ operands) (newPacket tx)).endTransmission

/-- The bytes of all the operands. -/
def fullEncoding (operands : List Operand) : List UInt8 := operands.flatMap (Operand.encoding half)

/-- A call as a step, which never fails. -/
def turn (s : TxStream) (op : Operand) : Except Failure TxStream := .ok (call half s op)

/-- The call stores nothing at or behind the end of `_packet`. -/
def StoresInside (s : TxStream) (op : Operand) : Prop :=
  ∀ bytes, stores half s op = some bytes →
    ∀ i < bytes.length, s.packet.length + i < maxPacketLength

/-- A float is inserted while there is room for it. -/
def FloatFits (s : TxStream) : Operand → Prop
  | .float value =>
    s.packet.length + ((Operand.float value).encoding half).length ≤ maxPacketLength
  | .unsignedInteger _ | .negativeInteger _ | .textString _ | .bool _ => True

/-- No call of the sequence stores anything at or behind the end of `_packet`. -/
def Contained : TxStream → List Operand → Prop :=
  Transition.EveryStep (turn half) (StoresInside half)

/-- Every float of the sequence is inserted while there is room for it. -/
def FloatsFit : TxStream → List Operand → Prop :=
  Transition.EveryStep (turn half) (FloatFits half)

variable {half}

/-- The difference does not wrap as long as the packet has not outgrown the buffer. -/
lemma remaining_of_le {s : TxStream} (h : s.packet.length ≤ maxPacketLength) :
    remaining s = maxPacketLength - s.packet.length := by
  have hsmall : maxPacketLength < 2 ^ 64 := by decide
  have hsize : (UInt64.ofNat maxPacketLength).toNat = maxPacketLength :=
    UInt64.toNat_ofNat_of_lt' hsmall
  have hidx : (UInt64.ofNat s.packet.length).toNat = s.packet.length :=
    UInt64.toNat_ofNat_of_lt' (lt_of_le_of_lt h hsmall)
  rw [remaining, UInt64.toNat_sub_of_le _ _ (by rw [UInt64.le_iff_toNat_le, hsize, hidx]; exact h),
    hsize, hidx]

lemma encoding_pos (op : Operand) : 0 < (op.encoding half).length := by
  cases op with
  | float value =>
    rw [Operand.encoding]
    split_ifs <;> exact Nat.succ_pos _
  | unsignedInteger value | negativeInteger value | textString text | bool value =>
    exact Nat.succ_pos _

/-- What a call does to a packet inside the buffer. -/
lemma stores_cases {s : TxStream} (h : s.packet.length ≤ maxPacketLength) (op : Operand) :
    (∃ value, op = .float value ∧ stores half s op = some (op.encoding half)) ∨
      FloatFits half s op ∧ s.packet.length + (op.encoding half).length ≤ maxPacketLength ∧
        stores half s op = some (op.encoding half) ∨
      FloatFits half s op ∧ maxPacketLength < s.packet.length + (op.encoding half).length ∧
        stores half s op = none := by
  have hcore : ∀ bytes : List UInt8,
      s.packet.length + bytes.length ≤ maxPacketLength ∧
          (if bytes.length > remaining s then none else some bytes) = some bytes ∨
        maxPacketLength < s.packet.length + bytes.length ∧
          (if bytes.length > remaining s then none else some bytes) = none := by
    intro bytes
    rw [remaining_of_le h]
    split_ifs with hover
    · exact Or.inr ⟨by omega, rfl⟩
    · exact Or.inl ⟨by omega, rfl⟩
  cases op with
  | float value => exact Or.inl ⟨value, rfl, rfl⟩
  | unsignedInteger value | negativeInteger value | textString text | bool value =>
    exact Or.inr ((hcore _).imp (fun h => ⟨trivial, h⟩) fun h => ⟨trivial, h⟩)

/-- **One call.**  It stays inside the buffer exactly if it does not insert a float behind the
room for it. -/
lemma storesInside_iff {s : TxStream} (h : s.packet.length ≤ maxPacketLength) (op : Operand) :
    StoresInside half s op ↔ FloatFits half s op := by
  have hpos := @encoding_pos half op
  rcases @stores_cases half s h op with ⟨value, rfl, hstores⟩ | ⟨hfits, hle, hstores⟩ |
    ⟨hfits, -, hstores⟩
  · constructor
    · -- the last byte of the float is inside
      intro hinside
      have hlast := hinside _ hstores (((Operand.float value).encoding half).length - 1) (by omega)
      show _ + _ ≤ _
      omega
    · intro hfits bytes hbytes i hi
      obtain rfl := Option.some.inj (hstores.symm.trans hbytes)
      have hle : s.packet.length + ((Operand.float value).encoding half).length
        ≤ maxPacketLength := hfits
      omega
  · refine iff_of_true (fun bytes hbytes i hi => ?_) hfits
    obtain rfl := Option.some.inj (hstores.symm.trans hbytes)
    omega
  · refine iff_of_true (fun bytes hbytes => ?_) hfits
    rw [hstores] at hbytes
    cases hbytes

/-- Such a call does not let the packet outgrow the buffer. -/
lemma length_call_le {s : TxStream} (h : s.packet.length ≤ maxPacketLength) {op : Operand}
    (hfits : FloatFits half s op) : (call half s op).packet.length ≤ maxPacketLength := by
  rw [call]
  rcases @stores_cases half s h op with ⟨value, rfl, hstores⟩ | ⟨-, hle, hstores⟩ |
    ⟨-, -, hstores⟩
  · rw [hstores]
    simp only [List.length_append]
    exact hfits
  · rw [hstores]
    simp only [List.length_append]
    exact hle
  · rw [hstores]
    exact h

/-- **Every sequence of calls.** -/
lemma contained_iff {s : TxStream} (h : s.packet.length ≤ maxPacketLength)
    (operands : List Operand) : Contained half s operands ↔ FloatsFit half s operands := by
  refine Transition.everyStep_iff (D := fun _ _ => True)
    (I := fun s : TxStream => s.packet.length ≤ maxPacketLength) ?_ ?_ h
    (Transition.everyStep_of_forall fun _ _ _ => trivial)
  · intro s op t hs _ hfits ht
    obtain rfl := Except.ok.inj ht
    exact length_call_le hs hfits
  · exact fun hs _ => storesInside_iff hs _

lemma length_calls_le {s : TxStream} (h : s.packet.length ≤ maxPacketLength)
    {operands : List Operand} (hfits : FloatsFit half s operands) :
    (calls half operands s).packet.length ≤ maxPacketLength := by
  induction operands generalizing s with
  | nil => exact h
  | cons op operands ih => exact ih (length_call_le h hfits.1) (hfits.2 _ rfl)

/-- The flag is never taken back, and as long as it is not set everything is stored. -/
lemma packet_of_not_overflow {s : TxStream} {operands : List Operand}
    (h : (calls half operands s).overflow = false) :
    s.overflow = false ∧
      (calls half operands s).packet = s.packet ++ fullEncoding half operands := by
  induction operands generalizing s with
  | nil => exact ⟨h, (List.append_nil _).symm⟩
  | cons op operands ih =>
    obtain ⟨hfirst, hrest⟩ := ih (s := call half s op) h
    have hstores : stores half s op = some (op.encoding half) ∨ stores half s op = none := by
      cases op with
      | float value => exact Or.inl rfl
      | unsignedInteger value | negativeInteger value | textString text | bool value =>
        simp only [stores]
        split_ifs <;> simp
    rcases hstores with hstores | hstores
    · rw [call, hstores] at hfirst
      refine ⟨hfirst, ?_⟩
      show (calls half operands (call half s op)).packet = _
      rw [hrest, call, hstores, fullEncoding, fullEncoding, List.flatMap_cons, List.append_assoc]
    · rw [call, hstores] at hfirst
      cases hfirst

/-- A call without an undefined operation goes on as it is defined to. -/
lemma call_of_put {s s' : TxStream} (h : s.packet.length ≤ maxPacketLength) {op : Operand}
    (hput : put op s = .ok s') : call half s op = s' ∧ s'.packet.length ≤ maxPacketLength := by
  have hcore : ∀ {major size : ℕ} {data : List UInt8},
      stores half s op = (if (encodeCore major data size).length > remaining s then none
        else some (encodeCore major data size)) →
      putCore major data size s = s' →
      call half s op = s' ∧ s'.packet.length ≤ maxPacketLength := by
    rintro major size data hstores rfl
    rw [remaining_of_le h] at hstores
    rw [call, hstores, putCore]
    by_cases hroom : s.packet.length + (encodeCore major data size).length ≤ maxPacketLength
    · rw [if_pos hroom, if_neg (by omega)]
      exact ⟨rfl, by simpa only [List.length_append] using hroom⟩
    · rw [if_neg hroom, if_pos (by omega)]
      exact ⟨rfl, h⟩
  cases op with
  | unsignedInteger value | textString text | bool value =>
    refine hcore ?_ (Except.ok.inj hput)
    rw [stores, Operand.encoding, Operand.bytes]
    exact fun _ h => by cases h
  | negativeInteger value =>
    rw [put] at hput
    split_ifs at hput
    refine hcore ?_ (Except.ok.inj hput)
    rw [stores, Operand.encoding, Operand.bytes]
    exact fun _ h => by cases h
  | float value =>
    obtain ⟨bytes, hbytes, hput⟩ := Transition.bind_eq_ok.mp hput
    have hencoding : (Operand.float value).encoding half = bytes := by
      rw [encodeFloat] at hbytes
      rw [Operand.encoding]
      split_ifs at hbytes ⊢
      · obtain ⟨h, hhalf, hbytes⟩ := Transition.bind_eq_ok.mp hbytes
        rw [hhalf]
        exact Except.ok.inj hbytes
      · exact Except.ok.inj hbytes
    split_ifs at hput with hroom
    obtain rfl := Except.ok.inj hput
    refine ⟨?_, by simpa only [List.length_append] using hroom⟩
    rw [call, stores, hencoding]

/-- **Transmissions without an undefined operation.**  They are those of `transmit`. -/
theorem transmit_eq_send {sequenceId : Option UInt64} {operands : List Operand} {tx : TxStream}
    {packet : Option Packet} (h : transmit sequenceId operands tx = .ok packet) :
    send half sequenceId operands tx = packet := by
  have hcalls : ∀ {operands : List Operand} {s s' : TxStream},
      s.packet.length ≤ maxPacketLength → putAll operands s = .ok s' →
      calls half operands s = s' ∧ s'.packet.length ≤ maxPacketLength := by
    intro operands
    induction operands with
    | nil =>
      intro s s' hs hput
      obtain rfl : s = s' := Except.ok.inj hput
      exact ⟨rfl, hs⟩
    | cons op operands ih =>
      intro s s' hs hput
      obtain ⟨mid, hfirst, hrest⟩ := Transition.bind_eq_ok.mp hput
      obtain ⟨hcall, hmid⟩ := @call_of_put half s mid hs op hfirst
      rw [calls, List.foldl_cons, hcall]
      exact ih hmid hrest
  obtain ⟨s, hstart, h⟩ := Transition.bind_eq_ok.mp h
  obtain ⟨s', hput, h⟩ := Transition.bind_eq_ok.mp h
  obtain ⟨hheader, hs⟩ := hcalls (Nat.zero_le _) hstart
  obtain ⟨hfields, -⟩ := hcalls hs hput
  rw [send, calls, List.foldl_append]
  show (calls half operands (calls half (header tx sequenceId) (newPacket tx))).endTransmission = _
  rw [show newPacket tx = { tx with overflow := false, packet := [] } from rfl, hheader, hfields]
  exact Except.ok.inj h

/-- The same for a sequence of insertions. -/
theorem endTransmission_eq {sequenceId : Option UInt64} {insertions : List Insertion}
    {operands : List (List Operand)} {tx : TxStream} {packet : Option Packet}
    (hinserted : insertions.mapM Insertion.operands = .ok operands)
    (h : transmit sequenceId operands.flatten tx = .ok packet) :
    (calls half (transmission tx sequenceId insertions) (newPacket tx)).endTransmission
      = packet := by
  rw [transmission, Insertion.untilThrow_of_operands hinserted]
  exact transmit_eq_send h

end Writer

/-- A transmission stores nothing at or behind the end of `_packet`, and one that does not fit
is not enqueued. -/
structure Bounded (half : UInt32 → UInt16) (tx : TxStream) (operands : List Operand) : Prop where
  contained : Contained half (newPacket tx) operands
  refused : maxPacketLength < (fullEncoding half operands).length →
    (calls half operands (newPacket tx)).overflow = true ∧
      (calls half operands (newPacket tx)).endTransmission = none

/-- What is not refused is enqueued as a whole, and a packet inside the buffer is no longer than
the buffer. -/
lemma refused_of_floatsFit {half : UInt32 → UInt16} {tx : TxStream} {operands : List Operand}
    (hfits : FloatsFit half (newPacket tx) operands)
    (hlong : maxPacketLength < (fullEncoding half operands).length) :
    (calls half operands (newPacket tx)).overflow = true := by
  by_contra hnot
  obtain ⟨-, hpacket⟩ := packet_of_not_overflow (Bool.eq_false_iff.mpr hnot)
  have hle := length_calls_le (Nat.zero_le _) hfits
  rw [hpacket, newPacket, List.nil_append] at hle
  omega

/-- **The writer and the end of its buffer.**  A transmission stores nothing behind `_packet`,
and enqueues nothing that does not fit, if and only if every float is inserted while there is
room for it. -/
theorem writer_contained_iff (half : UInt32 → UInt16) (tx : TxStream)
    (sequenceId : Option UInt64) (insertions : List Insertion) :
    Bounded half tx (transmission tx sequenceId insertions) ↔
      FloatsFit half (newPacket tx) (transmission tx sequenceId insertions) := by
  have hempty : (newPacket tx).packet.length ≤ maxPacketLength := Nat.zero_le _
  constructor
  · intro hbounded
    exact (contained_iff hempty _).mp hbounded.contained
  · intro hfits
    refine ⟨(contained_iff hempty _).mpr hfits, fun hlong => ?_⟩
    have hoverflow := refused_of_floatsFit hfits hlong
    exact ⟨hoverflow, if_pos hoverflow⟩

/-- A string up to the last two bytes of the buffer, and the number `1 + 2 ^ (-23)`. -/
def longReading : List Insertion :=
  [.scalar .string (List.replicate 505 (0x61 : UInt8)), .scalar .float (0x3F800001 : UInt32)]

/-- The number is stored behind the buffer, and the packet is enqueued. -/
theorem long_reading_enqueued :
    ¬ ∀ (half : UInt32 → UInt16) (tx : TxStream) (sequenceId : Option UInt64)
      (insertions : List Insertion),
      Bounded half tx (transmission tx sequenceId insertions) := by
  intro hall
  obtain ⟨hoverflow, -⟩ :=
    (hall (fun _ => 0) chatterTx none longReading).refused (by decide +kernel)
  have hnot : (calls (fun _ => 0) (transmission chatterTx none longReading)
      (newPacket chatterTx)).overflow = false := by decide +kernel
  rw [hnot] at hoverflow
  cases hoverflow

end LibMcu
end RmwDesert
