/-
The transmission stream (`TxStream` of `NanoCBorStream.cpp`, security layer off).

Each `operator<<` formats one item into the buffer of the current packet.  An item that does
not fit sets `_overflow`, which `end_transmission` checks before it hands the packet to the
daemon.
-/
import RmwDesert.Introspection
import RmwDesert.NanoCbor
import RmwDesert.TcpDaemon
import RmwDesert.Transcoding

namespace RmwDesert

open TcpDaemon (maxPacketLength)

/-- A `TxStream`.  The buffer `_packet` is the list of the bytes written so far; after an
overflow nothing reads it. -/
structure TxStream where
  /-- `_stream_type`. -/
  streamType : UInt8
  /-- `_stream_identifier`. -/
  streamIdentifier : UInt8
  /-- `_overflow`. -/
  overflow : Bool
  /-- `_packet`, up to the position of the encoder. -/
  packet : List UInt8
deriving DecidableEq, Repr

namespace TxStream

/-! ## The insertion operators -/

/-- `operator<<(const uint64_t)`. -/
def insertUint64 (n : UInt64) : Field := .uint n

/-- `operator<<(const int64_t)`. -/
def insertInt64 (n : Int64) : Field :=
  if 0 ≤ n then .uint n.toUInt64 else .nint n

/-- `operator<<(const float)`. -/
def insertFloat (bits : UInt32) : Field := .float bits

/-- `operator<<(const std::string)`. -/
def insertString (s : List UInt8) : Field := .tstr s

/-- The overloads of `operator<<`, by the type of the operand. -/
def insert : (t : FieldType) → t.Elem → Field
  | .uint64, (n : UInt64) => insertUint64 n
  | .uint32, (n : UInt32) => insertUint64 n.toUInt64
  | .uint16, (n : UInt16) => insertUint64 n.toUInt64
  | .uint8, (n : UInt8) => insertUint64 n.toUInt64
  | .int64, (n : Int64) => insertInt64 n
  | .int32, (n : Int32) => insertInt64 n.toInt64
  | .int16, (n : Int16) => insertInt64 n.toInt64
  | .int8, (n : Int8) => insertInt64 n.toInt64
  | .char, (c : UInt8) => insertString [c]
  | .float, (bits : UInt32) => insertFloat bits
  | .double, (bits : UInt64) => insertFloat (Binary.narrow bits)
  | .string, (s : List UInt8) => insertString s
  | .wstring, (s : List UInt16) => insertString (Transcoding.toUTF8 s)
  | .bool, (b : Bool) => insertUint64 (if b then 1 else 0)

/-- `serialize_sequence`. -/
def serializeSequence (t : FieldType) (items : List t.Elem) : List Field :=
  items.map (insert t)

/-- `operator<<(const std::vector<T>)`, and the overload for `std::vector<bool>`, which
streams the same items. -/
def insertVector (t : FieldType) (v : List t.Elem) : List Field :=
  insert .uint32 (UInt32.ofNat v.length) :: serializeSequence t v

@[simp] lemma length_serializeSequence (t : FieldType) (items : List t.Elem) :
    (serializeSequence t items).length = items.length :=
  List.length_map ..

lemma streamed_insert (t : FieldType) (x : t.Elem) : (insert t x).Streamed := by
  have hint : ∀ n : Int64, (insertInt64 n).Streamed := by
    intro n
    unfold insertInt64
    split_ifs with hn
    · exact trivial
    · exact Int64.not_le.mp hn
  cases t with
  | int64 | int32 | int16 | int8 => exact hint _
  | uint64 | uint32 | uint16 | uint8 | char | float | double | string | wstring | bool =>
    exact trivial

lemma streamed_serializeSequence (t : FieldType) (items : List t.Elem) :
    ∀ f ∈ serializeSequence t items, f.Streamed := by
  intro f hf
  obtain ⟨x, -, rfl⟩ := List.mem_map.mp hf
  exact streamed_insert t x

lemma streamed_insertVector (t : FieldType) (v : List t.Elem) :
    ∀ f ∈ insertVector t v, f.Streamed := by
  intro f hf
  rcases List.mem_cons.mp hf with rfl | hf
  · exact streamed_insert .uint32 _
  · exact streamed_serializeSequence t v f hf

/-! ## Packets -/

section Packets

variable (N : NanoCbor)

/-- One item, formatted into the buffer. -/
def put (f : Field) (s : TxStream) : TxStream :=
  if s.packet.length + (N.format f).length ≤ maxPacketLength then
    { s with packet := s.packet ++ N.format f }
  else { s with overflow := true }

/-- A sequence of items. -/
def putAll (fields : List Field) (s : TxStream) : TxStream :=
  fields.foldl (fun s f => s.put N f) s

/-- The items that `start_transmission` writes: stream type and identifier, and the sequence
id in the overload that takes one. -/
def header (s : TxStream) (sequenceId : Option UInt64) : List Field :=
  [insert .uint8 s.streamType, insert .uint8 s.streamIdentifier]
    ++ sequenceId.toList.map insertUint64

/-- `start_transmission`. -/
def startTransmission (sequenceId : Option UInt64) (s : TxStream) : TxStream :=
  { s with overflow := false, packet := [] }.putAll N (s.header sequenceId)

/-- `end_transmission`: the packet that is enqueued, if any. -/
def endTransmission (s : TxStream) : Option Packet :=
  if s.overflow then none else some s.packet

/-- A transmission of the given items. -/
def transmit (sequenceId : Option UInt64) (fields : List Field) (s : TxStream) : Option Packet :=
  ((s.startTransmission N sequenceId).putAll N fields).endTransmission

lemma putAll_append (fields₁ fields₂ : List Field) (s : TxStream) :
    s.putAll N (fields₁ ++ fields₂) = (s.putAll N fields₁).putAll N fields₂ :=
  List.foldl_append

/-- `_overflow` is never reset by an item. -/
lemma overflow_putAll {s : TxStream} (h : s.overflow = true) (fields : List Field) :
    (s.putAll N fields).overflow = true := by
  induction fields generalizing s with
  | nil => exact h
  | cons f fields ih =>
    have hput : (s.put N f).overflow = true := by
      unfold put
      split_ifs with hfit
      · exact h
      · rfl
    exact ih hput

/-- As long as the items fit, the buffer holds their encoding. -/
lemma putAll_of_le (fields : List Field) (s : TxStream)
    (h : (s.packet ++ N.encode fields).length ≤ maxPacketLength) :
    s.putAll N fields = { s with packet := s.packet ++ N.encode fields } := by
  induction fields generalizing s with
  | nil => simp [putAll]
  | cons f fields ih =>
    rw [NanoCbor.encode_cons, ← List.append_assoc] at h
    have hfit : s.packet.length + (N.format f).length ≤ maxPacketLength := by
      simp only [List.length_append] at h
      omega
    have hput : s.put N f = { s with packet := s.packet ++ N.format f } := if_pos hfit
    show (s.put N f).putAll N fields = _
    rw [hput, ih _ h, NanoCbor.encode_cons, List.append_assoc]

lemma overflow_putAll_of_lt (fields : List Field) (s : TxStream)
    (hs : s.packet.length ≤ maxPacketLength)
    (h : maxPacketLength < (s.packet ++ N.encode fields).length) :
    (s.putAll N fields).overflow = true := by
  induction fields generalizing s with
  | nil =>
    simp only [NanoCbor.encode_nil, List.append_nil] at h
    omega
  | cons f fields ih =>
    show ((s.put N f).putAll N fields).overflow = true
    by_cases hfit : s.packet.length + (N.format f).length ≤ maxPacketLength
    · have hput : s.put N f = { s with packet := s.packet ++ N.format f } := if_pos hfit
      rw [hput]
      refine ih _ (by simpa using hfit) ?_
      simpa using h
    · have hput : s.put N f = { s with overflow := true } := if_neg hfit
      rw [hput]
      exact overflow_putAll N rfl fields

/-- **All or nothing.** A transmission enqueues the encoding of the header and the items if
it fits in a packet, and nothing otherwise. -/
theorem transmit_eq (sequenceId : Option UInt64) (fields : List Field) (s : TxStream) :
    s.transmit N sequenceId fields =
      if (N.encode (s.header sequenceId ++ fields)).length ≤ maxPacketLength then
        some (N.encode (s.header sequenceId ++ fields))
      else none := by
  rw [transmit, startTransmission, ← putAll_append]
  split_ifs with h
  · rw [putAll_of_le N _ _ (by simpa using h)]
    simp [endTransmission]
  · have hover := overflow_putAll_of_lt N (s.header sequenceId ++ fields)
      { s with overflow := false, packet := [] } (by simp) (by simpa using h)
    simp [endTransmission, hover]

end Packets
end TxStream
end RmwDesert
