/-
The reception stream of the libmcu build (`RxStream` of `LibMcuCBorStream.cpp`).

The fields of a packet keep the item types of the library, under which all integers are one
type and booleans are another.  What the operators and `interpret_field` leave undefined is a
failure, as in the NanoCBOR build.
-/
import RmwDesert.InterpretPackets
import RmwDesert.LibMcu.Convertor
import RmwDesert.LibMcu.Decoder

namespace RmwDesert
namespace LibMcu

/-- A field of a received packet: a value with its `CBOR_ITEM_*`. -/
inductive Decoded
  /-- `CBOR_ITEM_INTEGER`. -/
  | integer (n : Int64)
  /-- `CBOR_ITEM_FLOAT`, as the bit pattern of a `float`. -/
  | float (bits : UInt32)
  /-- `CBOR_ITEM_STRING`. -/
  | string (s : List UInt8)
  /-- `CBOR_ITEM_SIMPLE_VALUE`. -/
  | simpleValue (value : UInt8)
deriving DecidableEq, Repr

/-- An `RxStream`. -/
structure RxStream where
  /-- `_stream_type`. -/
  streamType : UInt8
  /-- `_stream_identifier`. -/
  streamIdentifier : UInt8
  /-- `_buffered_iterator`. -/
  bufferedIterator : ℕ
  /-- `_buffered_packet`. -/
  bufferedPacket : List Decoded
  /-- `_received_packets`. -/
  receivedPackets : List (List Decoded)
deriving DecidableEq, Repr

/-- The computations of a stream. -/
abbrev RxM := StateT RxStream (Except Failure)

/-! ## The interpretation of packets -/

/-- `sizeof(val.str_copy)`. -/
def sizeofStrCopy : ℕ := 128

/-- `interpret_field`.  The absolute value of the smallest `int` is undefined, and a string
that fills the buffer has its terminator behind it. -/
def interpretField (item : CborItem) (val : CborValue) : Except Failure (Option Decoded) :=
  match item.type with
  | .integer => .ok (some (.integer val.i64))
  | .float =>
    if val.i32 = 0x80000000 then .error .undefined
    else if val.i32.toInt32.toInt.natAbs < 65536 then
      .ok (some (.float (Binary.widenHalf val.i16)))
    else .ok (some (.float val.i32))
  | .string =>
    if sizeofStrCopy ≤ item.size then .error .outOfBounds
    else .ok (some (.string (val.takeWhile (· ≠ 0))))
  | .simpleValue => .ok (some (.simpleValue val.i8))
  | .unknown | .array | .map => .ok none

/-- The local variables of `interpret_packets` for one packet. -/
structure Interpreted where
  streamType : UInt8
  streamIdentifier : UInt8
  streamName : String
  interpretedPacket : List Decoded
deriving DecidableEq, Repr

/-- The variables before the first item. -/
def Interpreted.initial : Interpreted := ⟨0, 0, "", []⟩

/-- The loop over the items of a packet, from item `i` on. -/
def interpretItems (config : TopicsConfig) : (i : ℕ) → List CborItem → Interpreted →
    Except Failure Interpreted
  | _, [], d => .ok d
  | 0, item :: items, d =>
    interpretItems config 1 items { d with streamType := (cborDecode item).i8 }
  | 1, item :: items, d =>
    let identifier := (cborDecode item).i8
    let d := { d with streamIdentifier := identifier,
                      streamName := config.getIdentifierTopic identifier }
    if d.streamName = "" then .ok d else interpretItems config 2 items d
  | i + 2, item :: items, d => do
    let field ← interpretField item (cborDecode item)
    interpretItems config (i + 3) items
      { d with interpretedPacket := d.interpretedPacket ++ field.toList }

namespace RxStream

/-- `push_packet`. -/
def pushPacket (packet : List Decoded) (s : RxStream) : RxStream :=
  { s with receivedPackets := CircularQueue.push packet s.receivedPackets }

/-- `data_available` without a sequence id. -/
def dataAvailable (s : RxStream) : Bool × RxStream :=
  if s.bufferedPacket ≠ [] then (true, s)
  else
    match s.receivedPackets with
    | [] => (false, s)
    | packet :: queue =>
      (true, { s with bufferedPacket := packet, receivedPackets := queue, bufferedIterator := 0 })

/-- The loop over the listening streams. -/
def deliver (d : Interpreted) (listening : List RxStream) : Except Failure (List RxStream) :=
  listening.mapM fun stream =>
    match InterpretPackets.streamTypeMatchMap d.streamType with
    | none => .error .outOfRange
    | some streamType =>
      if stream.streamType = streamType ∧ stream.streamIdentifier = d.streamIdentifier then
        .ok (stream.pushPacket d.interpretedPacket)
      else .ok stream

/-- `interpret_packets`: the listening streams and the queue of the daemon afterwards. -/
def interpretPackets (config : TopicsConfig) : List Packet → List RxStream →
    Except Failure (List RxStream × List Packet)
  | [], listening => .ok (listening, [])
  | packet :: rxPackets, listening =>
    if packet = [] then .ok (listening, rxPackets)
    else do
      let d ← interpretItems config 0 (cborParse packet) .initial
      if d.streamName = "" then interpretPackets config rxPackets listening
      else interpretPackets config rxPackets (← deliver d listening)

/-- `interpret_packets` for one packet and one stream. -/
def hear (config : TopicsConfig) (packet : Packet) (stream : RxStream) :
    Except Failure RxStream := do
  let (listening, _) ← interpretPackets config [packet] [stream]
  return listening.headD stream

/-! ## The extraction operators -/

/-- The field at the iterator, if the iterator is inside the packet. -/
def current (s : RxStream) : Option Decoded := s.bufferedPacket[s.bufferedIterator]?

/-- The stream after `n` turns of `_buffered_iterator++`. -/
def advance (n : ℕ) (s : RxStream) : RxStream :=
  { s with bufferedIterator := s.bufferedIterator + n }

/-- The operators that assign the current field if it has the right type, and step to the
next one in any case; `none` means that nothing was assigned. -/
def next {α : Type} (value : Decoded → Option α) : RxM (Option α) :=
  fun s => .ok (s.current.bind value, s.advance 1)

/-- The read of a local variable. -/
def initialised {α : Type} : Option α → RxM α
  | some x => pure x
  | none => throw .uninitialised

/-- The values of a `CBOR_ITEM_INTEGER`. -/
def integerValue : Decoded → Option Int64
  | .integer n => some n
  | _ => none

/-- The values of a `CBOR_ITEM_FLOAT`. -/
def floatValue : Decoded → Option UInt32
  | .float bits => some bits
  | _ => none

/-- The values of a `CBOR_ITEM_STRING`. -/
def stringValue : Decoded → Option (List UInt8)
  | .string s => some s
  | _ => none

/-- The values of a `CBOR_ITEM_SIMPLE_VALUE`. -/
def simpleValue : Decoded → Option UInt8
  | .simpleValue value => some value
  | _ => none

/-- The operators that go through a local `int64_t`. -/
def extractInteger {α : Type} (cast : Int64 → α) : RxM α := do
  return cast (← initialised (← next integerValue))

section

variable [Convertor]

/-- `RxStream::toUTF16`. -/
def toUTF16 (source : List UInt8) : RxM (List UInt16) := liftM (Convertor.fromBytes source)

/-- The overloads of `operator>>`, by the type of the operand and its former value. -/
def extract : (t : FieldType) → t.Elem → RxM t.Elem
  | .uint64, (_ : UInt64) => extractInteger Int64.toUInt64
  | .uint32, (_ : UInt32) => extractInteger fun n => n.toUInt64.toUInt32
  | .uint16, (_ : UInt16) => extractInteger fun n => n.toUInt64.toUInt16
  | .uint8, (_ : UInt8) => extractInteger fun n => n.toUInt64.toUInt8
  | .int64, (n : Int64) => do return (← next integerValue).getD n
  | .int32, (_ : Int32) => extractInteger Int64.toInt32
  | .int16, (_ : Int16) => extractInteger Int64.toInt16
  | .int8, (_ : Int8) => extractInteger Int64.toInt8
  | .char, (c : UInt8) => do return ((← next stringValue).map fun s => s.headD 0).getD c
  | .float, (bits : UInt32) => do return (← next floatValue).getD bits
  | .double, (_ : UInt64) => do return Binary.widen (← initialised (← next floatValue))
  | .string, (s : List UInt8) => do return (← next stringValue).getD s
  | .wstring, (_ : List UInt16) => do toUTF16 ((← next stringValue).getD [])
  | .bool, (_ : Bool) => do return (← initialised (← next simpleValue)) != 0

/-- `deserialize_sequence`. -/
def deserializeSequence (t : FieldType) {n : ℕ} (items : List.Vector t.Elem n) :
    RxM (List.Vector t.Elem n) :=
  Reader.update (extract t) items

/-- `operator>>(std::vector<T> &)`. -/
def extractVector (t : FieldType) (v : List t.Elem) : RxM (List t.Elem) := do
  let size ← extractInteger fun n => n.toUInt64.toUInt32
  let v ← deserializeSequence t (RmwDesert.RxStream.resize t v size.toNat)
  return v.toList

end

/-- The loop of `operator>>(std::vector<bool> &)` from index `i` on, which reads an `int` for
each element and assigns `v[i]` without a `resize`. -/
def extractBools : ℕ → ℕ → List Bool → RxM (List Bool)
  | 0, _, v => pure v
  | turns + 1, i, v => do
    let b ← extractInteger Int64.toInt32
    if i < v.length then extractBools turns (i + 1) (v.set i (b != 0))
    else throw .outOfBounds

/-- `operator>>(std::vector<bool> &)`. -/
def extractBoolVector (v : List Bool) : RxM (List Bool) := do
  let size ← extractInteger fun n => n.toUInt64.toUInt32
  extractBools size.toNat 0 v

end RxStream

/-! ## Packets, item by item -/

/-- The parser notes the item and goes on behind the bytes. -/
def Noted (bytes : List UInt8) (item : List UInt8 → CborItem) : Prop :=
  ∃ initial tail, bytes = initial :: tail ∧
    ∀ rest items parse, (⟨bytes ++ rest, items⟩ : CborReader).parseItem parse initial
      = (.success, ⟨rest, items ++ [item rest]⟩)

/-- An integer takes its head and nothing else. -/
lemma encodeCore_nil (major n : ℕ) : encodeCore major [] n = Cbor.head major n := by
  rw [encodeCore_eq, List.append_nil]

lemma length_head (major n : ℕ) :
    (Cbor.head major n).length - 1 = getFollowingBytes (getAdditionalInfo n) := by
  rw [← encodeCore_nil, length_encodeCore]
  simp

lemma noted_head {major n : ℕ} (hmajor : major = 0 ∨ major = 1) (hn : n < 2 ^ 64) :
    Noted (Cbor.head major n) fun rest =>
      ⟨.integer, (Cbor.head major n).length - 1, Cbor.head major n ++ rest⟩ := by
  refine ⟨_, _, (encodeCore_nil major n).symm, fun rest items parse => ?_⟩
  simp only [length_head]
  rw [← encodeCore_nil]
  exact CborReader.parseItem_integer parse items rest hmajor hn

/-- The bits of a negative number. -/
lemma toNat_toUInt64_of_neg {n : Int64} (hn : n < 0) :
    n.toUInt64.toNat = 2 ^ 64 - 1 - (-1 - n.toInt).toNat := by
  have hbits : n.toInt = if 2 * n.toUInt64.toNat < 2 ^ 64 then (n.toUInt64.toNat : ℤ)
      else (n.toUInt64.toNat : ℤ) - (2 ^ 64 : ℕ) := BitVec.toInt_eq_toNat_cond n.toBitVec
  have hneg : n.toInt < 0 := by simpa using Int64.lt_iff_toInt_lt.mp hn
  have hlt := n.toUInt64.toNat_lt
  split_ifs at hbits with h <;> omega

/-- A natural number, decoded. -/
lemma interpretField_unsigned (n : UInt64) (rest : List UInt8) :
    interpretField ⟨.integer, (Cbor.head 0 n.toNat).length - 1, Cbor.head 0 n.toNat ++ rest⟩
        (cborDecode ⟨.integer, (Cbor.head 0 n.toNat).length - 1, Cbor.head 0 n.toNat ++ rest⟩)
      = .ok (some (.integer n.toInt64)) := by
  have hle := following_le n.toNat_lt
  have hnumber : CborValue.number (cborDecode ⟨.integer, (Cbor.head 0 n.toNat).length - 1,
      Cbor.head 0 n.toNat ++ rest⟩) 8 = n.toNat := by
    rw [length_head, ← encodeCore_nil, cborDecode_unsigned rest n.toNat_lt,
      CborValue.number_reverse_encode (by omega) (lt_width n.toNat_lt)]
  rw [interpretField]
  dsimp only
  rw [CborValue.i64, hnumber, UInt64.ofNat_toNat]

/-- The stream type and the identifier are numbers of one byte. -/
lemma i8_unsigned (n : UInt8) (rest : List UInt8) :
    (cborDecode ⟨.integer, (Cbor.head 0 n.toNat).length - 1, Cbor.head 0 n.toNat ++ rest⟩).i8
      = n := by
  have hlt := n.toNat_lt
  have hwidth : max 1 (getFollowingBytes (getAdditionalInfo n.toNat)) = 1 := by
    unfold getAdditionalInfo
    rw [if_neg (by omega), if_neg (by omega), if_neg (by omega)]
    split_ifs with h
    · rfl
    · rw [getFollowingBytes, if_pos (by omega)]
      rfl
  rw [length_head, ← encodeCore_nil, cborDecode_unsigned rest (by omega), hwidth,
    CborValue.i8, CborValue.number_reverse_encode (le_refl 1) (show n.toNat < 256 ^ 1 from hlt),
    UInt8.ofNat_toNat]

/-- A negative number, decoded. -/
lemma interpretField_negative {n : Int64} (hn : n < 0) {argument : ℕ}
    (hargument : argument = (-1 - n.toInt).toNat) (rest : List UInt8) :
    interpretField ⟨.integer, (Cbor.head 1 argument).length - 1, Cbor.head 1 argument ++ rest⟩
        (cborDecode ⟨.integer, (Cbor.head 1 argument).length - 1, Cbor.head 1 argument ++ rest⟩)
      = .ok (some (.integer n)) := by
  have hlt := (NanoCbor.nint_argument hn).1
  have hnumber : CborValue.number (cborDecode ⟨.integer, (Cbor.head 1 argument).length - 1,
      Cbor.head 1 argument ++ rest⟩) 8 = n.toUInt64.toNat := by
    rw [length_head, ← encodeCore_nil, number_cborDecode_negative rest (by omega),
      toNat_toUInt64_of_neg hn, hargument]
  rw [interpretField]
  dsimp only
  rw [CborValue.i64, hnumber, UInt64.ofNat_toNat, Int64.toInt64_toUInt64]

/-- A string, decoded up to its first zero, if its terminator is stored in the buffer. -/
lemma interpretField_string (s rest : List UInt8) :
    interpretField ⟨.string, s.length, s ++ rest⟩ (cborDecode ⟨.string, s.length, s ++ rest⟩)
      = if s.length < sizeofStrCopy then .ok (some (.string (s.takeWhile (· ≠ 0))))
        else .error .outOfBounds := by
  rw [interpretField]
  dsimp only
  by_cases hshort : s.length < sizeofStrCopy
  · rw [if_neg (by omega), if_pos hshort,
      cborDecode_string rest (by rw [sizeofStrCopy] at hshort; rw [sizeofVal]; omega)]
  · rw [if_pos (by omega), if_neg hshort]

/-- The items of a sequence of values, given the bytes that are written and the item that is
noted for each of them. -/
def itemsOf {α : Type} (bytes : α → List UInt8) (item : α → List UInt8 → CborItem) :
    List α → List CborItem
  | [] => []
  | a :: as => item a (as.flatMap bytes) :: itemsOf bytes item as

/-- The items that are left for the fields behind the header. -/
def maxFields : ℕ := maxItems - 2

section Items

variable {α : Type} {bytes : α → List UInt8} {item : α → List UInt8 → CborItem} {as : List α}

/-- One turn of the loop for each item, as long as there is room for it. -/
lemma parseLoop_flatMap (depth maxitems : ℕ) (h : ∀ a ∈ as, Noted (bytes a) (item a)) :
    ∀ (fuel turns : ℕ) (items : List CborItem), as.length ≤ fuel →
    items.length + turns ≤ maxItems →
    (parseLoop fuel depth maxitems turns ⟨as.flatMap bytes, items⟩).2.items
      = items ++ (itemsOf bytes item as).take turns := by
  induction as with
  | nil =>
    intro fuel turns items _ _
    rw [List.flatMap_nil, itemsOf, List.take_nil, List.append_nil]
    cases fuel with
    | zero => rfl
    | succ fuel => cases turns <;> rfl
  | cons a as ih =>
    intro fuel turns items hfuel hroom
    obtain ⟨fuel, rfl⟩ : ∃ n, fuel = n + 1 := ⟨fuel - 1, by simp at hfuel; omega⟩
    cases turns with
    | zero => simp [parseLoop]
    | succ turns =>
      obtain ⟨initial, tail, hbytes, hparse⟩ := h a (by simp)
      have hitems : ¬ maxItems ≤ items.length := by omega
      have hrest := ih (fun b hb => h b (by simp [hb])) fuel turns
        (items ++ [item a (as.flatMap bytes)]) (by simpa using hfuel) (by simp; omega)
      have hmsg : (a :: as).flatMap bytes = initial :: (tail ++ as.flatMap bytes) := by
        rw [List.flatMap_cons, hbytes]
        rfl
      have hitem := hparse (as.flatMap bytes) items
      rw [← List.flatMap_cons, hmsg] at hitem
      rw [hmsg, parseLoop]
      simp only [if_neg hitems, hitem]
      rw [hrest, itemsOf, List.take_succ_cons, List.append_assoc]
      rfl

/-- Every value takes at least one byte. -/
lemma length_le_length_flatMap (h : ∀ a ∈ as, Noted (bytes a) (item a)) :
    as.length ≤ (as.flatMap bytes).length := by
  induction as with
  | nil => simp
  | cons a as ih =>
    obtain ⟨initial, tail, hbytes, -⟩ := h a (by simp)
    have hrest := ih fun b hb => h b (by simp [hb])
    simp only [List.flatMap_cons, hbytes, List.length_append, List.length_cons]
    omega

/-- The parser notes the first items of a packet. -/
lemma cborParse_flatMap (h : ∀ a ∈ as, Noted (bytes a) (item a)) :
    cborParse (as.flatMap bytes) = (itemsOf bytes item as).take maxItems :=
  parseLoop_flatMap 1 maxItems h _ maxItems [] (length_le_length_flatMap h) (le_refl _)

variable {fits : α → Prop} [DecidablePred fits] {value : α → Decoded}

/-- The fields that a packet has room for behind its header are decoded in order, unless one of
them does not fit in the buffer of the decoder. -/
lemma interpretItems_itemsOf (config : TopicsConfig)
    (h : ∀ a ∈ as, ∀ rest, interpretField (item a rest) (cborDecode (item a rest))
      = if fits a then .ok (some (value a)) else .error .outOfBounds) :
    ∀ (i k : ℕ) (d : Interpreted),
    interpretItems config (i + 2) ((itemsOf bytes item as).take k) d
      = if ∀ a ∈ as.take k, fits a then
          .ok { d with interpretedPacket := d.interpretedPacket ++ (as.take k).map value }
        else .error .outOfBounds := by
  induction as with
  | nil =>
    intro i k d
    simp [itemsOf, interpretItems]
  | cons a as ih =>
    intro i k d
    cases k with
    | zero => simp [interpretItems]
    | succ k =>
      have hfield := h a (by simp) (as.flatMap bytes)
      have hrest := ih (fun b hb => h b (by simp [hb])) (i + 1) k
      rw [itemsOf, List.take_succ_cons, interpretItems, hfield, List.take_succ_cons]
      by_cases hfits : fits a
      · rw [if_pos hfits]
        show interpretItems config (i + 1 + 2) _ _ = _
        rw [hrest]
        simp only [List.forall_mem_cons, hfits, true_and, List.map_cons, Option.toList_some,
          List.append_assoc, List.singleton_append]
      · rw [if_neg hfits, if_neg fun h => hfits (h a (by simp))]
        rfl

namespace RxStream

/-- The listening streams after a packet was pushed to those that match. -/
def delivered (streamType identifier : UInt8) (packet : List Decoded)
    (listening : List RxStream) : List RxStream :=
  listening.map fun stream =>
    if stream.streamType = streamType ∧ stream.streamIdentifier = identifier then
      stream.pushPacket packet
    else stream

lemma deliver_eq {d : Interpreted} {streamType : UInt8}
    (h : InterpretPackets.streamTypeMatchMap d.streamType = some streamType)
    (listening : List RxStream) :
    deliver d listening
      = .ok (delivered streamType d.streamIdentifier d.interpretedPacket listening) := by
  refine Transition.mapM_eq_ok fun stream _ => ?_
  rw [h]
  dsimp only
  split_ifs <;> rfl

/-- **A packet, received.**  The matching streams get the fields that there is room for, unless
one of them does not fit in the buffer of the decoder. -/
lemma interpretPackets_flatMap {config : TopicsConfig} {first second : α}
    (hnoted : ∀ a ∈ first :: second :: as, Noted (bytes a) (item a))
    {streamType identifier rxType : UInt8}
    (hfirst : ∀ rest, (cborDecode (item first rest)).i8 = streamType)
    (hsecond : ∀ rest, (cborDecode (item second rest)).i8 = identifier)
    (htype : InterpretPackets.streamTypeMatchMap streamType = some rxType)
    (hname : config.getIdentifierTopic identifier ≠ "")
    (hvalue : ∀ a ∈ as, ∀ rest, interpretField (item a rest) (cborDecode (item a rest))
      = if fits a then .ok (some (value a)) else .error .outOfBounds)
    (rxPackets : List Packet) (listening : List RxStream) :
    interpretPackets config ((first :: second :: as).flatMap bytes :: rxPackets) listening
      = if ∀ a ∈ as.take maxFields, fits a then
          interpretPackets config rxPackets
            (delivered rxType identifier ((as.take maxFields).map value) listening)
        else .error .outOfBounds := by
  have hne : (first :: second :: as).flatMap bytes ≠ [] := by
    have hlen := length_le_length_flatMap hnoted
    exact List.length_pos_iff.mp (lt_of_lt_of_le (Nat.succ_pos _) hlen)
  have hitems : interpretItems config 0 (cborParse ((first :: second :: as).flatMap bytes))
        .initial
      = if ∀ a ∈ as.take maxFields, fits a then
          .ok ⟨streamType, identifier, config.getIdentifierTopic identifier,
            (as.take maxFields).map value⟩
        else .error .outOfBounds := by
    rw [cborParse_flatMap hnoted]
    show interpretItems config 0 (item first _ :: item second _ ::
      (itemsOf bytes item as).take maxFields) _ = _
    rw [interpretItems, interpretItems, hfirst, hsecond]
    simp only [if_neg hname]
    rw [interpretItems_itemsOf config hvalue 0]
    rfl
  rw [interpretPackets, if_neg hne, hitems]
  split_ifs with hfits
  · show (if config.getIdentifierTopic identifier = "" then _ else _) = _
    rw [if_neg hname, deliver_eq htype]
    rfl
  · rfl

end RxStream

end Items

/-! ## The packets of the other build -/

/-- What a float is taken for: a number whose bits fit in 16 is a half. -/
def heardFloat (bits : UInt32) : UInt32 :=
  if bits.toNat < 65536 then Binary.widenHalf bits.toUInt16 else bits

/-- What a field of the other build is decoded to. -/
def heard : Field → Decoded
  | .uint n => .integer n.toInt64
  | .nint n => .integer n
  | .float bits => .float (heardFloat bits)
  | .tstr s => .string (s.takeWhile (· ≠ 0))

/-- The strings that can be terminated in the buffer of the decoder. -/
def Short : Field → Prop
  | .tstr s => s.length < sizeofStrCopy
  | .uint _ | .nint _ | .float _ => True

instance : (f : Field) → Decidable (Short f)
  | .tstr _ => inferInstanceAs (Decidable (_ < _))
  | .uint _ | .nint _ | .float _ => inferInstanceAs (Decidable True)

section

variable {N : NanoCbor}

/-- The item that the parser notes for a field, given the bytes that follow it. -/
def noted (N : NanoCbor) : Field → List UInt8 → CborItem
  | .tstr s, rest => ⟨.string, s.length, s ++ rest⟩
  | .uint n, rest => ⟨.integer, (N.fmtUint n).length - 1, N.fmtUint n ++ rest⟩
  | .nint n, rest => ⟨.integer, (N.fmtInt n).length - 1, N.fmtInt n ++ rest⟩
  | .float bits, rest => ⟨.float, (N.fmtFloat bits).length - 1, N.fmtFloat bits ++ rest⟩

/-- The two forms of a finite float. -/
lemma fmtFloat_cases (hN : N.Preferred) {bits : UInt32} (hfinite : Binary.Finite bits) :
    (∃ h, Binary.widenHalf h = bits ∧ N.fmtFloat bits = Cbor.wideHead 7 25 2 h.toNat) ∨
      ((∀ h, Binary.widenHalf h ≠ bits) ∧ N.fmtFloat bits = Cbor.wideHead 7 26 4 bits.toNat) := by
  by_cases hhalf : ∃ h, Binary.widenHalf h = bits
  · obtain ⟨h, rfl⟩ := hhalf
    exact Or.inl ⟨h, rfl, hN.fmtFloat_widenHalf hfinite⟩
  · have hnone : ∀ h, Binary.widenHalf h ≠ bits := fun h hh => hhalf ⟨h, hh⟩
    exact Or.inr ⟨hnone, hN.fmtFloat_single hfinite hnone⟩

lemma noted_wideHead {info width : ℕ} (hinfo : (info = 25 ∧ width = 2) ∨ (info = 26 ∧ width = 4))
    (n : ℕ) : Noted (Cbor.wideHead 7 info width n) fun rest =>
      ⟨.float, (Cbor.wideHead 7 info width n).length - 1,
        Cbor.wideHead 7 info width n ++ rest⟩ := by
  have hlen : (Cbor.wideHead 7 info width n).length - 1 = width := by simp [Cbor.wideHead]
  refine ⟨_, _, rfl, fun rest items parse => ?_⟩
  simp only [hlen]
  exact CborReader.parseItem_float parse items rest hinfo

/-- Every field of the other build is noted. -/
lemma noted_format (hN : N.Preferred) {f : Field} (hf : Plain f) :
    Noted (N.format f) (noted N f) := by
  cases f with
  | uint n =>
    show Noted (N.fmtUint n) fun rest => ⟨.integer, (N.fmtUint n).length - 1, N.fmtUint n ++ rest⟩
    rw [hN.fmtUint n]
    exact noted_head (Or.inl rfl) n.toNat_lt
  | nint n =>
    have hn := (NanoCbor.nint_argument hf).1
    show Noted (N.fmtInt n) fun rest => ⟨.integer, (N.fmtInt n).length - 1, N.fmtInt n ++ rest⟩
    rw [hN.fmtInt hf]
    exact noted_head (Or.inr rfl) (by omega)
  | float bits =>
    show Noted (N.fmtFloat bits) fun rest =>
      ⟨.float, (N.fmtFloat bits).length - 1, N.fmtFloat bits ++ rest⟩
    rcases fmtFloat_cases hN hf with ⟨h, -, hfmt⟩ | ⟨-, hfmt⟩
    · rw [hfmt]
      exact noted_wideHead (Or.inl ⟨rfl, rfl⟩) _
    · rw [hfmt]
      exact noted_wideHead (Or.inr ⟨rfl, rfl⟩) _
  | tstr s =>
    have hs : s.length < 2 ^ 64 - 1 := lt_of_le_of_lt hf (by decide)
    have hfmt : N.putTstrn s = encodeCore 3 s s.length := by
      rw [encodeCore_eq]
      exact hN.putTstrn (by omega)
    show Noted (N.putTstrn s) fun rest => ⟨.string, s.length, s ++ rest⟩
    rw [hfmt]
    exact ⟨_, _, rfl, fun rest items parse => CborReader.parseItem_string parse items rest hs⟩

/-- Every field takes at least one byte. -/
lemma length_le_length_encode (hN : N.Preferred) {fields : List Field}
    (hf : ∀ f ∈ fields, Plain f) : fields.length ≤ (N.encode fields).length :=
  length_le_length_flatMap fun f hmem => noted_format hN (hf f hmem)

/-- A float with a half is not read as anything else. -/
lemma heardFloat_widenHalf {h : UInt16} (hfinite : Binary.Finite (Binary.widenHalf h)) :
    heardFloat (Binary.widenHalf h) = Binary.widenHalf h := by
  unfold heardFloat
  split_ifs with hsmall
  · -- the only such number is zero
    have hcases := Binary.cases_of_widenHalf hfinite rfl
    have hzero : (Binary.widenHalf h).toNat = 0 := by omega
    have heq : Binary.widenHalf h = 0 := by rw [← UInt32.toNat_inj, hzero]; rfl
    rw [heq]
    rfl
  · rfl

/-- A single is read as a half if its bits fit in 16. -/
lemma interpretField_single {bits : UInt32} (hfinite : Binary.Finite bits)
    (hnone : ∀ h, Binary.widenHalf h ≠ bits) {val : CborValue} (hval : val.i32 = bits)
    (hlow : val.i16 = bits.toUInt16) {item : CborItem} (htype : item.type = .float) :
    interpretField item val = .ok (some (.float (heardFloat bits))) := by
  have hmin : bits ≠ 0x80000000 := (hnone 0x8000).symm
  have hbits : bits.toInt32.toInt = if 2 * bits.toNat < 2 ^ 32 then (bits.toNat : ℤ)
      else (bits.toNat : ℤ) - (2 ^ 32 : ℕ) := BitVec.toInt_eq_toNat_cond bits.toBitVec
  have hsmall : bits.toInt32.toInt.natAbs < 65536 ↔ bits.toNat < 65536 := by
    have hlt := bits.toNat_lt
    unfold Binary.Finite at hfinite
    split_ifs at hbits <;> omega
  rw [interpretField, htype]
  simp only [hval, hlow, if_neg hmin, hsmall, heardFloat]
  split_ifs <;> rfl

/-- A half is read as a half. -/
lemma interpretField_half {h : UInt16} {val : CborValue} (hval : val.i32 = UInt32.ofNat h.toNat)
    (hlow : val.i16 = h) {item : CborItem} (htype : item.type = .float) :
    interpretField item val = .ok (some (.float (Binary.widenHalf h))) := by
  have hlt := h.toNat_lt
  have hnat : (UInt32.ofNat h.toNat).toNat = h.toNat :=
    UInt32.toNat_ofNat_of_lt' (show h.toNat < 2 ^ 32 by omega)
  have hmin : UInt32.ofNat h.toNat ≠ 0x80000000 := by
    intro heq
    have := congrArg UInt32.toNat heq
    rw [hnat] at this
    have hpow : (0x80000000 : UInt32).toNat = 2 ^ 31 := rfl
    omega
  have hbits : (UInt32.ofNat h.toNat).toInt32.toInt =
      if 2 * (UInt32.ofNat h.toNat).toNat < 2 ^ 32 then ((UInt32.ofNat h.toNat).toNat : ℤ)
      else ((UInt32.ofNat h.toNat).toNat : ℤ) - (2 ^ 32 : ℕ) :=
    BitVec.toInt_eq_toNat_cond (UInt32.ofNat h.toNat).toBitVec
  have hsmall : (UInt32.ofNat h.toNat).toInt32.toInt.natAbs < 65536 := by
    rw [hbits, hnat]
    split_ifs <;> omega
  rw [interpretField, htype]
  simp only [hval, hlow, if_neg hmin, if_pos hsmall]

/-- A finite float of the other build is read as a half or as a single. -/
lemma interpretField_float (hN : N.Preferred) {bits : UInt32} (hf : Binary.Finite bits)
    (rest : List UInt8) :
    interpretField (noted N (.float bits) rest) (cborDecode (noted N (.float bits) rest))
      = .ok (some (.float (heardFloat bits))) := by
  rcases fmtFloat_cases hN hf with ⟨h, rfl, hfmt⟩ | ⟨hnone, hfmt⟩
  · have hval : cborDecode (noted N (.float (Binary.widenHalf h)) rest)
        = (BigEndian.encode 2 h.toNat).reverse := by
      rw [noted, hfmt, show (Cbor.wideHead 7 25 2 h.toNat).length - 1 = 2 by simp [Cbor.wideHead]]
      exact cborDecode_float rest (Or.inl ⟨rfl, rfl⟩)
    have hnumber : ∀ width, 2 ≤ width →
        CborValue.number (BigEndian.encode 2 h.toNat).reverse width = h.toNat := fun width hw =>
      CborValue.number_reverse_encode hw (show h.toNat < 256 ^ 2 from h.toNat_lt)
    have hbits : CborValue.i32 (BigEndian.encode 2 h.toNat).reverse = UInt32.ofNat h.toNat := by
      rw [CborValue.i32, hnumber 4 (by omega)]
    have hlow : CborValue.i16 (BigEndian.encode 2 h.toNat).reverse = h := by
      rw [CborValue.i16, hnumber 2 (le_refl _), UInt16.ofNat_toNat]
    rw [hval, interpretField_half hbits hlow rfl, heardFloat_widenHalf hf]
  · have hval : cborDecode (noted N (.float bits) rest)
        = (BigEndian.encode 4 bits.toNat).reverse := by
      rw [noted, hfmt, show (Cbor.wideHead 7 26 4 bits.toNat).length - 1 = 4 by
        simp [Cbor.wideHead]]
      exact cborDecode_float rest (Or.inr ⟨rfl, rfl⟩)
    have hbits : CborValue.i32 (BigEndian.encode 4 bits.toNat).reverse = bits := by
      rw [CborValue.i32, CborValue.number_reverse_encode (le_refl 4)
        (show bits.toNat < 256 ^ 4 from bits.toNat_lt), UInt32.ofNat_toNat]
    have hlow : CborValue.i16 (BigEndian.encode 4 bits.toNat).reverse = bits.toUInt16 := by
      rw [CborValue.i16, CborValue.number_reverse_encode_of_le (by decide),
        show 256 ^ 2 = 2 ^ 16 by norm_num, UInt16.ofNat_mod_size, UInt16.ofNat_uInt32ToNat]
    rw [hval, interpretField_single hf hnone hbits hlow rfl]

/-- **What the other build sends, decoded.** -/
lemma interpretField_noted (hN : N.Preferred) {f : Field} (hf : Plain f) (rest : List UInt8) :
    interpretField (noted N f rest) (cborDecode (noted N f rest))
      = if Short f then .ok (some (heard f)) else .error .outOfBounds := by
  cases f with
  | uint n =>
    rw [noted, hN.fmtUint n]
    exact interpretField_unsigned n rest
  | nint n =>
    rw [noted, hN.fmtInt hf]
    exact interpretField_negative hf rfl rest
  | float bits =>
    rw [if_pos (show Short (.float bits) from trivial)]
    exact interpretField_float hN hf rest
  | tstr s => exact interpretField_string s rest

lemma i8_noted (hN : N.Preferred) (n : UInt8) (rest : List UInt8) :
    (cborDecode (noted N (TxStream.insert .uint8 n) rest)).i8 = n := by
  have hn : n.toUInt64.toNat = n.toNat := by simp
  show CborValue.i8 (cborDecode ⟨.integer, (N.fmtUint n.toUInt64).length - 1,
    N.fmtUint n.toUInt64 ++ rest⟩) = n
  rw [hN.fmtUint, hn]
  exact i8_unsigned n rest

/-- **A packet of the other build, received.** -/
lemma hear_encode (hN : N.Preferred) {config : TopicsConfig} {streamType identifier : UInt8}
    {stream : RxStream}
    (htype : InterpretPackets.streamTypeMatchMap streamType = some stream.streamType)
    (hidentifier : stream.streamIdentifier = identifier)
    (hname : config.getIdentifierTopic identifier ≠ "") {fields : List Field}
    (hf : ∀ f ∈ fields, Plain f) :
    RxStream.hear config (N.encode
        (TxStream.insert .uint8 streamType :: TxStream.insert .uint8 identifier :: fields)) stream
      = if ∀ f ∈ fields.take maxFields, Short f then
          .ok (stream.pushPacket ((fields.take maxFields).map heard))
        else .error .outOfBounds := by
  have hplain : ∀ f ∈ TxStream.insert .uint8 streamType :: TxStream.insert .uint8 identifier
      :: fields, Plain f := by
    intro f hmem
    rcases List.mem_cons.mp hmem with rfl | hmem
    · exact trivial
    · rcases List.mem_cons.mp hmem with rfl | hmem
      · exact trivial
      · exact hf f hmem
  rw [RxStream.hear, NanoCbor.encode,
    RxStream.interpretPackets_flatMap (fun f hmem => noted_format hN (hplain f hmem))
      (i8_noted hN streamType) (i8_noted hN identifier) htype hname
      (fun f hmem rest => interpretField_noted hN (hf f hmem) rest)]
  split_ifs with hshort
  · simp only [RxStream.interpretPackets, RxStream.delivered, hidentifier, and_self, if_true,
      List.map_cons, List.map_nil]
    rfl
  · rfl

end

end LibMcu
end RmwDesert
