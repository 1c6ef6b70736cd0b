/-
The reception stream (`RxStream` of `NanoCBorStream.cpp`).

A stream keeps the packets that arrived for it in a circular queue, and one buffered packet
with an iterator from which the extraction operators read.  A packet is the list of its
decoded fields.  A local variable that an operator may leave unassigned is an `Option`, and
its use is a failure; so are an access outside a vector and the other uses that the
language leaves undefined.
-/
import RmwDesert.Lib.Reader
import RmwDesert.TxStream

namespace RmwDesert

/-- The ways in which a call does not return normally. -/
inductive Failure
  /-- `std::runtime_error`. -/
  | runtimeError (what : String)
  /-- `std::out_of_range`, from the `at` of a container. -/
  | outOfRange
  /-- An access outside a vector. -/
  | outOfBounds
  /-- A use of an uninitialised variable. -/
  | uninitialised
  /-- A use of a reference to a destroyed element. -/
  | dangling
  /-- A field read as a type other than its own. -/
  | badCast
  /-- An arithmetic operation whose result the language leaves undefined. -/
  | undefined
  /-- The loop did not end within the given number of turns. -/
  | outOfFuel
deriving DecidableEq, Repr

/-! ## The circular queue -/

/-- `MAX_BUFFER_CAPACITY`. -/
def maxBufferCapacity : ℕ := 100

/-- `CircularQueue::push`, with the oldest element first. -/
def CircularQueue.push {α : Type} (value : α) (queue : List α) : List α :=
  (if queue.length = maxBufferCapacity then queue.tail else queue) ++ [value]

/-- The fields of a packet after the two that `interpret_packets` consumes. -/
abbrev Fields := List Field

/-- An `RxStream`. -/
structure RxStream where
  /-- `_stream_type`. -/
  streamType : UInt8
  /-- `_stream_identifier`. -/
  streamIdentifier : UInt8
  /-- `_buffered_iterator`. -/
  bufferedIterator : ℕ
  /-- `_buffered_packet`. -/
  bufferedPacket : Fields
  /-- `_received_packets`. -/
  receivedPackets : List Fields
deriving DecidableEq, Repr

/-- The computations of a stream. -/
abbrev RxM := StateT RxStream (Except Failure)

namespace RxStream

/-! ## The queue of received packets -/

/-- `push_packet`. -/
def pushPacket (packet : Fields) (s : RxStream) : RxStream :=
  { s with receivedPackets := CircularQueue.push packet s.receivedPackets }

/-- `clear_buffer`. -/
def clearBuffer (s : RxStream) : RxStream := { s with bufferedPacket := [] }

/-- The value `*static_cast<int64_t *>(packet.at(0).first)`. -/
def sequenceField : Fields → Except Failure Int64
  | [] => .error .outOfRange
  | .uint n :: _ => .ok n.toInt64
  | .nint n :: _ => .ok n
  | .float _ :: _ | .tstr _ :: _ => .error .badCast

/-- `_received_packets.push(_received_packets.front()); _received_packets.pop()`.  A full
queue destroys its front element before it copies it. -/
def rotate : List Fields → Except Failure (List Fields)
  | [] => .ok []
  | packet :: queue =>
    if (packet :: queue).length = maxBufferCapacity then .error .dangling
    else .ok (queue ++ [packet])

/-- The search loop of `data_available`, with the number of turns left. -/
def search (sequenceId : Int64) : ℕ → RxStream → Except Failure (Bool × RxStream)
  | 0, s => .ok (false, s)
  | turns + 1, s =>
    match s.receivedPackets with
    | [] => .ok (false, s)
    | packet :: queue => do
      let first ← sequenceField packet
      if first = sequenceId then
        return (true, { s with bufferedPacket := packet, receivedPackets := queue,
                               bufferedIterator := 1 })
      else
        let queue ← rotate (packet :: queue)
        search sequenceId turns { s with receivedPackets := queue }

/-- `data_available`. -/
def dataAvailable (sequenceId : Int64) (s : RxStream) : Except Failure (Bool × RxStream) :=
  if s.bufferedPacket ≠ [] then .ok (true, s)
  else
    match s.receivedPackets with
    | [] => .ok (false, s)
    | packet :: queue =>
      if sequenceId ≠ 0 then search sequenceId s.receivedPackets.length s
      else .ok (true, { s with bufferedPacket := packet, receivedPackets := queue,
                               bufferedIterator := 0 })

/-! ## The extraction operators -/

/-- The field at the iterator, if the iterator is inside the packet. -/
def current (s : RxStream) : Option Field := s.bufferedPacket[s.bufferedIterator]?

/-- The stream after `n` turns of `_buffered_iterator++`. -/
def advance (n : ℕ) (s : RxStream) : RxStream :=
  { s with bufferedIterator := s.bufferedIterator + n }

/-- The operators that assign the current field if it has the right type, and step to the
next one in any case; `none` means that nothing was assigned. -/
def next {α : Type} (value : Field → Option α) : RxM (Option α) :=
  fun s => .ok (s.current.bind value, s.advance 1)

/-- The read of a local variable. -/
def initialised {α : Type} : Option α → RxM α
  | some x => pure x
  | none => throw .uninitialised

/-- The values of a `NANOCBOR_TYPE_UINT`. -/
def uintValue : Field → Option UInt64
  | .uint n => some n
  | _ => none

/-- The values of a `NANOCBOR_TYPE_FLOAT`. -/
def floatValue : Field → Option UInt32
  | .float bits => some bits
  | _ => none

/-- The values of a `NANOCBOR_TYPE_TSTR`. -/
def tstrValue : Field → Option (List UInt8)
  | .tstr s => some s
  | _ => none

/-- The values that the `int64_t` operator takes. -/
def intValue : Field → Option Int64
  | .uint n => some n.toInt64
  | .nint n => some n
  | _ => none

/-- `operator>>(uint64_t &)`, as seen by a caller that passes a local variable. -/
def extractUint64 : RxM (Option UInt64) := next uintValue

/-- `operator>>(int64_t &)`, which looks up the type before it tests the bounds. -/
def extractInt64 : RxM (Option Int64) := fun s =>
  match s.current with
  | none => .error .outOfBounds
  | some _ => next intValue s

/-- `operator>>(float &)`. -/
def extractFloat : RxM (Option UInt32) := next floatValue

/-- `operator>>(std::string &)`. -/
def extractString : RxM (Option (List UInt8)) := next tstrValue

/-- `operator>>(char &)`. -/
def extractChar : RxM (Option UInt8) := next fun f => (tstrValue f).map fun s => s.headD 0

/-- `operator>>(bool &)`, which stays on a field of another type.  The value is the low byte
of the number. -/
def extractBool : RxM (Option Bool) := fun s =>
  match s.current.bind uintValue with
  | some n => .ok (some (n.toUInt8 != 0), s.advance 1)
  | none => .ok (none, s)

/-- `operator>>(uint32_t &)`. -/
def extractUint32 : RxM UInt32 := do
  let value ← initialised (← extractUint64)
  return value.toUInt32

/-- `operator>>(int32_t &)`. -/
def extractInt32 : RxM Int32 := do
  let value ← initialised (← extractInt64)
  return value.toInt32

/-- The overloads of `operator>>`, by the type of the operand and its former value. -/
def extract : (t : FieldType) → t.Elem → RxM t.Elem
  | .uint64, (n : UInt64) => do return (← extractUint64).getD n
  | .uint32, (_ : UInt32) => extractUint32
  | .uint16, (_ : UInt16) => do return (← initialised (← extractUint64)).toUInt16
  | .uint8, (_ : UInt8) => do return (← initialised (← extractUint64)).toUInt8
  | .int64, (n : Int64) => do return (← extractInt64).getD n
  | .int32, (_ : Int32) => extractInt32
  | .int16, (_ : Int16) => do return (← initialised (← extractInt64)).toInt16
  | .int8, (_ : Int8) => do return (← initialised (← extractInt64)).toInt8
  | .char, (c : UInt8) => do return (← extractChar).getD c
  | .float, (bits : UInt32) => do return (← extractFloat).getD bits
  | .double, (_ : UInt64) => do return Binary.widen (← initialised (← extractFloat))
  | .string, (s : List UInt8) => do return (← extractString).getD s
  | .wstring, (_ : List UInt16) => do return Transcoding.toUTF16 ((← extractString).getD [])
  | .bool, (b : Bool) => do return (← extractBool).getD b

/-- `deserialize_sequence`. -/
def deserializeSequence (t : FieldType) {n : ℕ} (items : List.Vector t.Elem n) :
    RxM (List.Vector t.Elem n) :=
  Reader.update (extract t) items

/-- `std::vector<T>::resize`. -/
def resize (t : FieldType) (v : List t.Elem) (size : ℕ) : List.Vector t.Elem size :=
  List.Vector.ofFn fun i => v.getD i t.zero

/-- `operator>>(std::vector<T> &)`. -/
def extractVector (t : FieldType) (v : List t.Elem) : RxM (List t.Elem) := do
  let size ← extractUint32
  let v ← deserializeSequence t (resize t v size.toNat)
  return v.toList

/-- The loop of `operator>>(std::vector<bool> &)` from index `i` on.  It assigns `v[i]`
without a `resize`. -/
def extractBools : ℕ → ℕ → List Bool → RxM (List Bool)
  | 0, _, v => pure v
  | turns + 1, i, v => do
    let b ← extractInt32
    if i < v.length then extractBools turns (i + 1) (v.set i (b != 0))
    else throw .outOfBounds

/-- `operator>>(std::vector<bool> &)`. -/
def extractBoolVector (v : List Bool) : RxM (List Bool) := do
  let size ← extractUint32
  extractBools size.toNat 0 v

/-! ## Extraction undoes insertion -/

instance : Reader.Cursor RxStream Field where
  pending s := s.bufferedPacket.drop s.bufferedIterator
  advance := advance
  pending_advance n s := by simp [advance, List.drop_drop]
  advance_zero _ := rfl
  advance_advance m n s := by simp [advance, Nat.add_assoc]

open Reader

lemma current_of_pending {s : RxStream} {f : Field} {rest : Fields}
    (h : Cursor.pending s = f :: rest) : s.current = some f := by
  have hget : (s.bufferedPacket.drop s.bufferedIterator)[0]? = some f := by
    rw [show s.bufferedPacket.drop s.bufferedIterator = f :: rest from h]
    rfl
  simpa [current] using hget

lemma reads_next {α : Type} {value : Field → Option α} {f : Field} {x : α}
    (h : value f = some x) : Reads (next value) True [f] (some x) := by
  intro s rest hs
  refine ⟨fun _ => ?_, fun hn => absurd trivial hn⟩
  have hcurrent := current_of_pending hs
  simp only [next, hcurrent, Option.bind_some, h]
  rfl

lemma reads_initialised {α : Type} (x : α) :
    Reads (initialised (some x)) True ([] : Fields) x :=
  reads_pure x

lemma reads_extractInt64 {f : Field} {x : Int64} (h : intValue f = some x) :
    Reads extractInt64 True [f] (some x) := by
  intro s rest hs
  have hnext : extractInt64 s = next intValue s := by
    simp only [extractInt64, current_of_pending hs]
  rw [hnext]
  exact reads_next h s rest hs

lemma reads_extractBool (n : UInt64) :
    Reads extractBool True [.uint n] (some (n.toUInt8 != 0)) := by
  intro s rest hs
  refine ⟨fun _ => ?_, fun hn => absurd trivial hn⟩
  simp only [extractBool, current_of_pending hs, Option.bind_some, uintValue]
  rfl

/-- A local variable that the read of a field assigns. -/
lemma reads_local {α β : Type} {r : RxM (Option α)} {f : Field} {x : α}
    (hr : Reads r True [f] (some x)) (g : α → β) :
    Reads (do return g (← initialised (← r))) True [f] (g x) :=
  hr.bind_of_true ((reads_initialised x).map g)

lemma reads_extractUint64 (n : UInt64) :
    Reads extractUint64 True [TxStream.insertUint64 n] (some n) :=
  reads_next rfl

/-- Non-negative numbers travel as unsigned ones, and come back through the same bits. -/
lemma reads_insertInt64 (n : Int64) :
    Reads extractInt64 True [TxStream.insertInt64 n] (some n) := by
  refine reads_extractInt64 ?_
  unfold TxStream.insertInt64
  split_ifs with hn
  · simp [intValue]
  · rfl

lemma reads_extractUint32 (n : UInt32) :
    Reads extractUint32 True [TxStream.insert .uint32 n] n := by
  have h : n.toUInt64.toUInt32 = n := by simp
  have hread := reads_local (reads_extractUint64 n.toUInt64) UInt64.toUInt32
  rwa [h] at hread

/-- **An item is read back.** Every scalar `operator>>` undoes the `operator<<` of its type,
whatever the destination held, up to the precision of a `double`. -/
theorem reads_extract (t : FieldType) (x dest : t.Elem)
    (hx : t.WellFormed x) :
    Reads (extract t dest) True [TxStream.insert t x] (t.rounded x) := by
  cases t with
  | uint64 => exact (reads_extractUint64 x).map fun v => v.getD dest
  | uint32 => exact reads_extractUint32 x
  | uint16 =>
    have hread := reads_local (reads_extractUint64 (UInt16.toUInt64 x)) UInt64.toUInt16
    rwa [UInt16.toUInt16_toUInt64] at hread
  | uint8 =>
    have hread := reads_local (reads_extractUint64 (UInt8.toUInt64 x)) UInt64.toUInt8
    rwa [UInt8.toUInt8_toUInt64] at hread
  | int64 => exact (reads_insertInt64 x).map fun v => v.getD dest
  | int32 =>
    have hread := reads_local (reads_insertInt64 (Int32.toInt64 x)) Int64.toInt32
    rwa [Int32.toInt32_toInt64] at hread
  | int16 =>
    have hread := reads_local (reads_insertInt64 (Int16.toInt64 x)) Int64.toInt16
    rwa [Int16.toInt16_toInt64] at hread
  | int8 =>
    have hread := reads_local (reads_insertInt64 (Int8.toInt64 x)) Int64.toInt8
    rwa [Int8.toInt8_toInt64] at hread
  | char =>
    have hread : Reads extractChar True [TxStream.insert .char x] (some x) := reads_next rfl
    exact hread.map fun v => v.getD dest
  | float =>
    have hread : Reads extractFloat True [TxStream.insert .float x] (some x) := reads_next rfl
    exact hread.map fun v => v.getD dest
  | double =>
    have hread : Reads extractFloat True [TxStream.insert .double x] (some (Binary.narrow x)) :=
      reads_next rfl
    exact reads_local hread Binary.widen
  | string =>
    have hread : Reads extractString True [TxStream.insert .string x] (some x) := reads_next rfl
    exact hread.map fun v => v.getD dest
  | wstring =>
    have hread : Reads extractString True [TxStream.insert .wstring x]
        (some (Transcoding.toUTF8 x)) := reads_next rfl
    have h := hread.map fun v => Transcoding.toUTF16 (v.getD [])
    simp only [Option.getD_some, Transcoding.toUTF16_toUTF8 hx] at h
    exact h
  | bool =>
    have h := (reads_extractBool (if x then 1 else 0)).map fun v => v.getD dest
    cases x with
    | true => exact h
    | false => exact h

lemma reads_deserializeSequence (t : FieldType) {n : ℕ} (items dest : List.Vector t.Elem n)
    (h : ∀ x ∈ items.toList, t.WellFormed x) :
    Reads (deserializeSequence t dest) True (TxStream.serializeSequence t items.toList)
      (items.map t.rounded) := by
  rw [TxStream.serializeSequence, List.map_eq_flatMap]
  have hread : ∀ x ∈ items.toList, ∀ d,
      Reads (extract t d) True [TxStream.insert t x] (t.rounded x) :=
    fun x hx d => reads_extract t x d (h x hx)
  exact (reads_update items dest hread).congr (by simp)

lemma toNat_ofNat_length {α : Type} {v : List α} (h : v.length < 2 ^ 32) :
    (UInt32.ofNat v.length).toNat = v.length :=
  UInt32.toNat_ofNat_of_lt' h

/-- A length and that many elements are read back, whatever stood in their places. -/
lemma reads_lengthPrefixed (t : FieldType) (v : List t.Elem)
    (dest : (size : ℕ) → List.Vector t.Elem size) (hlen : v.length < 2 ^ 32)
    (h : ∀ x ∈ v, t.WellFormed x) :
    Reads (do
        let size ← extractUint32
        let items ← deserializeSequence t (dest size.toNat)
        return items.toList)
      True (TxStream.insertVector t v) (v.map t.rounded) := by
  have hsize := toNat_ofNat_length hlen
  -- the vector of the received size
  let items : List.Vector t.Elem (UInt32.ofNat v.length).toNat := ⟨v, hsize.symm⟩
  have hitems := reads_deserializeSequence t items (dest _) h
  exact (reads_extractUint32 (UInt32.ofNat v.length)).bind_of_true
    (hitems.map List.Vector.toList)

/-- A vector is read back into any vector. -/
theorem reads_extractVector (t : FieldType) (v dest : List t.Elem) (hlen : v.length < 2 ^ 32)
    (h : ∀ x ∈ v, t.WellFormed x) :
    Reads (extractVector t dest) True (TxStream.insertVector t v) (v.map t.rounded) :=
  reads_lengthPrefixed t v (resize t dest) hlen h

/-- A vector of booleans is read back into an empty vector if it is empty itself; otherwise
the first assignment falls outside the vector. -/
theorem reads_extractBoolVector (v : List Bool) (hlen : v.length < 2 ^ 32) :
    Reads (extractBoolVector []) (v = []) (TxStream.insertVector .bool v) v := by
  have hsize := toNat_ofNat_length hlen
  have hcount := reads_extractUint32 (UInt32.ofNat v.length)
  cases v with
  | nil => exact (hcount.bind_of_true (reads_pure [])).congr (by simp)
  | cons b v =>
    have hfirst : Reads extractInt64 True [TxStream.insert .bool b]
        (some (if b then 1 else 0 : UInt64).toInt64) := reads_extractInt64 rfl
    have hbools : Reads (extractBools (UInt32.ofNat (b :: v).length).toNat 0 []) False
        (TxStream.serializeSequence .bool (b :: v)) (b :: v) := by
      rw [hsize]
      exact (reads_local hfirst Int64.toInt32).bind_of_true (reads_throw _ _ _)
    exact (hcount.bind_of_true hbools).congr (by simp)

/-! ## Extraction moves nothing but the iterator -/

lemma advances_next {α : Type} (value : Field → Option α) : Advances (next value) := by
  rintro s x s' ⟨⟩
  exact ⟨1, rfl⟩

lemma advances_initialised {α : Type} (x : Option α) : Advances (initialised x) := by
  cases x with
  | none => exact advances_throw _
  | some x => exact advances_pure x

lemma advances_extractInt64 : Advances extractInt64 := by
  intro s x s' h
  cases hs : s.current with
  | none => simp [extractInt64, hs] at h
  | some f =>
    simp only [extractInt64, hs] at h
    exact advances_next intValue s x s' h

lemma advances_extractBool : Advances extractBool := by
  intro s x s' h
  cases hs : s.current.bind uintValue with
  | none =>
    simp only [extractBool, hs] at h
    cases h
    exact ⟨0, rfl⟩
  | some n =>
    simp only [extractBool, hs] at h
    cases h
    exact ⟨1, rfl⟩

lemma advances_local {α β : Type} {r : RxM (Option α)} (hr : Advances r) (f : α → β) :
    Advances (do return f (← initialised (← r))) :=
  hr.bind fun x => (advances_initialised x).map f

lemma advances_extractUint32 : Advances extractUint32 :=
  advances_local (advances_next uintValue) UInt64.toUInt32

lemma advances_extractInt32 : Advances extractInt32 :=
  advances_local advances_extractInt64 Int64.toInt32

lemma advances_extract (t : FieldType) (dest : t.Elem) : Advances (extract t dest) := by
  cases t with
  | uint64 => exact (advances_next uintValue).map fun v => v.getD dest
  | uint32 => exact advances_extractUint32
  | uint16 => exact advances_local (advances_next uintValue) UInt64.toUInt16
  | uint8 => exact advances_local (advances_next uintValue) UInt64.toUInt8
  | int64 => exact advances_extractInt64.map fun v => v.getD dest
  | int32 => exact advances_extractInt32
  | int16 => exact advances_local advances_extractInt64 Int64.toInt16
  | int8 => exact advances_local advances_extractInt64 Int64.toInt8
  | char => exact (advances_next _).map fun v => v.getD dest
  | float => exact (advances_next floatValue).map fun v => v.getD dest
  | double => exact advances_local (advances_next floatValue) Binary.widen
  | string => exact (advances_next tstrValue).map fun v => v.getD dest
  | wstring => exact (advances_next tstrValue).map fun v => Transcoding.toUTF16 (v.getD [])
  | bool => exact advances_extractBool.map fun v => v.getD dest

lemma advances_deserializeSequence (t : FieldType) {n : ℕ} (items : List.Vector t.Elem n) :
    Advances (deserializeSequence t items) :=
  advances_update (advances_extract t) items

lemma advances_extractVector (t : FieldType) (v : List t.Elem) : Advances (extractVector t v) :=
  advances_extractUint32.bind fun _ =>
    (advances_deserializeSequence t _).map List.Vector.toList

lemma advances_extractBools : ∀ (turns i : ℕ) (v : List Bool), Advances (extractBools turns i v)
  | 0, _, v => advances_pure v
  | turns + 1, i, v => by
    refine advances_extractInt32.bind fun b => ?_
    split_ifs
    · exact advances_extractBools turns (i + 1) _
    · exact advances_throw _

lemma advances_extractBoolVector (v : List Bool) : Advances (extractBoolVector v) :=
  advances_extractUint32.bind fun size => advances_extractBools size.toNat 0 v

end RxStream
end RmwDesert
