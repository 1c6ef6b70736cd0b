/-
The encoder of the libmcu build (`encoder.c` and `ieee754.c` of the CBOR library, and the
`TxStream` of `LibMcuCBorStream.cpp`).

The class is the one of the NanoCBOR build with other bodies, so its state is shared.  The
library is in the repository, and its functions are modelled as they stand: the encoder of
floats tests neither the room in the buffer nor the amount of its shift.
-/
import RmwDesert.LibMcu.Convertor

namespace RmwDesert
namespace LibMcu

open TcpDaemon (maxPacketLength)
open Binary (widenHalf widenHalfMagnitude)

/-! ## `encode_core` -/

/-- `get_additional_info`. -/
def getAdditionalInfo (value : ℕ) : ℕ :=
  if 2 ^ 32 ≤ value then 27
  else if 2 ^ 16 ≤ value then 26
  else if 2 ^ 8 ≤ value then 25
  else if 24 ≤ value then 24
  else value

/-- `(uint8_t)CBOR_INDEFINITE_VALUE`. -/
def indefiniteValue : ℕ := 255

/-- `(uint8_t)CBOR_RESERVED_VALUE`. -/
def reservedValue : ℕ := 254

/-- `cbor_get_following_bytes`. -/
def getFollowingBytes (additionalInfo : ℕ) : ℕ :=
  if additionalInfo < 24 then 0
  else if additionalInfo = 31 then indefiniteValue
  else if 28 ≤ additionalInfo then reservedValue
  else 2 ^ (additionalInfo - 24)

/-- The bytes that `encode_core` writes: the initial byte, `datasize` in the bytes that follow
it, and the data of a string. -/
def encodeCore (majorType : ℕ) (data : List UInt8) (datasize : ℕ) : List UInt8 :=
  UInt8.ofNat (majorType * 32 + getAdditionalInfo datasize)
    :: BigEndian.encode (getFollowingBytes (getAdditionalInfo datasize)) datasize ++ data

/-- Heads come out in preferred serialization. -/
lemma encodeCore_eq (majorType : ℕ) (data : List UInt8) (datasize : ℕ) :
    encodeCore majorType data datasize = Cbor.head majorType datasize ++ data := by
  have hcore : ∀ {info width : ℕ}, getAdditionalInfo datasize = info →
      getFollowingBytes info = width →
      encodeCore majorType data datasize = Cbor.wideHead majorType info width datasize ++ data := by
    rintro _ _ rfl rfl
    rfl
  unfold Cbor.head
  split_ifs with h0 h1 h2 h4
  · have hinfo : getAdditionalInfo datasize = datasize := by
      rw [getAdditionalInfo, if_neg (by omega), if_neg (by omega), if_neg (by omega),
        if_neg (by omega)]
    rw [encodeCore, hinfo, getFollowingBytes, if_pos h0]
    rfl
  · refine hcore ?_ rfl
    rw [getAdditionalInfo, if_neg (by omega), if_neg (by omega), if_neg (by omega),
      if_pos (by omega)]
  · refine hcore ?_ rfl
    rw [getAdditionalInfo, if_neg (by omega), if_neg (by omega), if_pos (by omega)]
  · refine hcore ?_ rfl
    rw [getAdditionalInfo, if_neg (by omega), if_pos (by omega)]
  · refine hcore ?_ rfl
    rw [getAdditionalInfo, if_pos (by omega)]

/-! ## `ieee754.c` -/

/-- `components.sign` of a `float`. -/
def sign (value : UInt32) : ℕ := value.toNat / 2 ^ 31

/-- `components.e` of a `float`. -/
def exponent (value : UInt32) : ℕ := value.toNat / 2 ^ 23 % 2 ^ 8

/-- `components.m` of a `float`. -/
def mantissa (value : UInt32) : ℕ := value.toNat % 2 ^ 23

/-- `is_over_range`. -/
def isOverRange (e f t : ℕ) : Bool := e > f + t

/-- `is_under_range`. -/
def isUnderRange (e f t : ℕ) : Bool := e < f - t + 1

/-- `is_in_range`. -/
def isInRange (e f t : ℕ) : Bool := !isOverRange e f t && !isUnderRange e f t

/-- `is_in_subrange`. -/
def isInSubrange (e targetMBits f t : ℕ) : Bool := isUnderRange e f t && f - e - t < targetMBits

/-- `is_precision_lost`. -/
def isPrecisionLost (m f t : ℕ) : Bool := m &&& (2 ^ (f - t) - 1) ≠ 0

/-- `ieee754_is_shrinkable_to_half`. -/
def isShrinkableToHalf (value : UInt32) : Bool :=
  if exponent value = 0 then mantissa value = 0 || !isPrecisionLost (mantissa value) 23 10
  else if exponent value = 255 then true
  else if isInRange (exponent value) 127 15 && !isPrecisionLost (mantissa value) 23 10 then true
  else isInSubrange (exponent value) 10 127 15

/-- `components.e` of the half, the mantissa that is shifted, and the amount of the shift. -/
def shrunk (value : UInt32) : ℕ × ℕ × ℕ :=
  if exponent value = 255 then (31, mantissa value, 13)
  else if isOverRange (exponent value) 127 15 then (31, 0, 13)
  else if isUnderRange (exponent value) 127 15 then
    -- the mantissa of a number below the range is replaced by all ones
    (0, 2 ^ 23 - 1, 13 + (127 - exponent value - 15))
  else (exponent value + 15 - 127, mantissa value, 13)

/-- `ieee754_convert_single_to_half`.  A `uint32_t` cannot be shifted by 32 or more. -/
def convertSingleToHalf (value : UInt32) : Except Failure UInt16 :=
  let (e, m, exp) := shrunk value
  if 32 ≤ exp then .error .undefined
  else .ok (UInt16.ofNat (sign value * 2 ^ 15 + e * 2 ^ 10 + (m >>> exp) % 2 ^ 10))

/-- `encode_float`. -/
def encodeFloat (value : UInt32) : Except Failure (List UInt8) :=
  if isShrinkableToHalf value then do
    let half ← convertSingleToHalf value
    return 0xF9 :: BigEndian.encode 2 half.toNat
  else .ok (0xFA :: BigEndian.encode 4 value.toNat)

/-- What becomes of a float: the mantissa of a half that is subnormal is all ones. -/
def sentFloat (value : UInt32) : UInt32 :=
  if 103 ≤ exponent value ∧ exponent value ≤ 112 then
    UInt32.ofNat (sign value * 2 ^ 31 + exponent value * 2 ^ 23
      + (2 ^ 23 - 2 ^ (126 - exponent value)))
  else value

/-- The floats that are taken for subnormal halves though their exponent is zero: the shift
that makes a half of them is undefined. -/
def ZeroExponent (value : UInt32) : Prop := exponent value = 0 ∧ mantissa value % 2 ^ 13 = 0

instance (value : UInt32) : Decidable (ZeroExponent value) := inferInstanceAs (Decidable (_ ∧ _))

section Floats

variable {value : UInt32}

lemma toNat_eq_parts (value : UInt32) :
    value.toNat = sign value * 2 ^ 31 + exponent value * 2 ^ 23 + mantissa value ∧
      sign value < 2 ∧ exponent value < 2 ^ 8 ∧ mantissa value < 2 ^ 23 := by
  have hlt := value.toNat_lt
  unfold sign exponent mantissa
  omega

lemma exponent_ne_of_finite (h : Binary.Finite value) : exponent value ≠ 255 := by
  unfold Binary.Finite at h
  unfold exponent
  omega

lemma isPrecisionLost_eq (m : ℕ) : isPrecisionLost m 23 10 = decide (m % 2 ^ 13 ≠ 0) := by
  have hmask : m &&& (2 ^ (23 - 10) - 1) = m % 2 ^ 13 := Nat.and_two_pow_sub_one_eq_mod m 13
  rw [isPrecisionLost, hmask]

/-- The finite floats that the encoder shrinks. -/
lemma isShrinkableToHalf_iff (h : exponent value ≠ 255) :
    isShrinkableToHalf value = true ↔ ZeroExponent value ∨
      (103 ≤ exponent value ∧ exponent value ≤ 112) ∨
      (113 ≤ exponent value ∧ exponent value ≤ 142 ∧ mantissa value % 2 ^ 13 = 0) := by
  unfold isShrinkableToHalf isInRange isInSubrange isOverRange isUnderRange ZeroExponent
  rw [isPrecisionLost_eq]
  split_ifs with h0 hrange
  · simp only [Bool.or_eq_true, decide_eq_true_eq, Bool.not_eq_true', decide_eq_false_iff_not]
    omega
  · simp only [Bool.and_eq_true, Bool.not_eq_true', decide_eq_false_iff_not] at hrange
    simp only [true_iff]
    omega
  · simp only [Bool.and_eq_true, Bool.not_eq_true', decide_eq_false_iff_not] at hrange
    simp only [Bool.and_eq_true, decide_eq_true_eq]
    omega

/-- The half of a normal number in range. -/
lemma convert_normal (hlow : 113 ≤ exponent value) (hhigh : exponent value ≤ 142) :
    convertSingleToHalf value = .ok (UInt16.ofNat (sign value * 2 ^ 15
      + ((exponent value - 112) * 2 ^ 10 + mantissa value / 2 ^ 13))) := by
  have hm := (toNat_eq_parts value).2.2.2
  have hshrunk : shrunk value = (exponent value - 112, mantissa value, 13) := by
    have hover : isOverRange (exponent value) 127 15 = false := by simp [isOverRange]; omega
    have hunder : isUnderRange (exponent value) 127 15 = false := by simp [isUnderRange]; omega
    have he : exponent value + 15 - 127 = exponent value - 112 := by omega
    rw [shrunk, if_neg (by omega), hover, hunder, he]
    rfl
  have hshift : (mantissa value >>> 13) % 2 ^ 10 = mantissa value / 2 ^ 13 := by
    rw [Nat.shiftRight_eq_div_pow]
    omega
  simp only [convertSingleToHalf, hshrunk, hshift]
  rw [if_neg (by decide), Nat.add_assoc]

lemma shrunk_of_lt (h : exponent value < 113) :
    shrunk value = (0, 2 ^ 23 - 1, 13 + (127 - exponent value - 15)) := by
  have hover : isOverRange (exponent value) 127 15 = false := by simp [isOverRange]; omega
  have hunder : isUnderRange (exponent value) 127 15 = true := by simp [isUnderRange]; omega
  rw [shrunk, if_neg (by omega), hover, hunder]
  rfl

/-- The half of a number below the range does not depend on its mantissa. -/
lemma convert_subnormal (hlow : 103 ≤ exponent value) (hhigh : exponent value ≤ 112) :
    convertSingleToHalf value = .ok (UInt16.ofNat (sign value * 2 ^ 15
      + (2 ^ (exponent value - 102) - 1))) := by
  have hshift : ((2 ^ 23 - 1) >>> (13 + (127 - exponent value - 15))) % 2 ^ 10
      = 2 ^ (exponent value - 102) - 1 := by
    generalize exponent value = e at hlow hhigh
    interval_cases e <;> rfl
  simp only [convertSingleToHalf, shrunk_of_lt (show exponent value < 113 by omega), hshift]
  rw [if_neg (by omega), Nat.zero_mul, Nat.add_zero]

lemma convert_zeroExponent (h : exponent value = 0) :
    convertSingleToHalf value = .error .undefined := by
  simp only [convertSingleToHalf, shrunk_of_lt (show exponent value < 113 by omega), h]
  rfl

lemma widenHalf_normal (hlow : 113 ≤ exponent value) (hhigh : exponent value ≤ 142)
    (hm : mantissa value % 2 ^ 13 = 0) :
    widenHalf (UInt16.ofNat (sign value * 2 ^ 15
      + ((exponent value - 112) * 2 ^ 10 + mantissa value / 2 ^ 13))) = value := by
  obtain ⟨heq, hs, -, hlt⟩ := toNat_eq_parts value
  have hwiden := @Binary.widenHalf_ofNat (sign value)
    ((exponent value - 112) * 2 ^ 10 + mantissa value / 2 ^ 13) hs (by omega)
  rw [← UInt32.toNat_inj, hwiden, widenHalfMagnitude, if_neg (by omega), if_neg (by omega),
    if_neg (by omega)]
  omega

lemma widenHalf_subnormal (hlow : 103 ≤ exponent value) (hhigh : exponent value ≤ 112) :
    widenHalf (UInt16.ofNat (sign value * 2 ^ 15 + (2 ^ (exponent value - 102) - 1)))
      = sentFloat value := by
  obtain ⟨-, hs, -, -⟩ := toNat_eq_parts value
  have hmagnitude : 2 ^ (exponent value - 102) - 1 < 2 ^ 15 ∧
      widenHalfMagnitude (2 ^ (exponent value - 102) - 1)
        = exponent value * 2 ^ 23 + (2 ^ 23 - 2 ^ (126 - exponent value)) := by
    generalize exponent value = e at hlow hhigh
    interval_cases e <;> decide
  rw [← UInt32.toNat_inj, Binary.widenHalf_ofNat hs hmagnitude.1, hmagnitude.2, sentFloat,
    if_pos ⟨hlow, hhigh⟩]
  have hlt : sign value * 2 ^ 31 + exponent value * 2 ^ 23
      + (2 ^ 23 - 2 ^ (126 - exponent value)) < 2 ^ 32 := by
    have := Nat.two_pow_pos (126 - exponent value)
    omega
  rw [UInt32.toNat_ofNat_of_lt' hlt, Nat.add_assoc]

lemma finite_sentFloat (h : Binary.Finite value) : Binary.Finite (sentFloat value) := by
  unfold sentFloat
  split_ifs with hsub
  · obtain ⟨-, hs, -, -⟩ := toNat_eq_parts value
    have hpos := Nat.two_pow_pos (126 - exponent value)
    have hlt : sign value * 2 ^ 31 + exponent value * 2 ^ 23
        + (2 ^ 23 - 2 ^ (126 - exponent value)) < 2 ^ 32 := by omega
    rw [Binary.Finite, UInt32.toNat_ofNat_of_lt' hlt]
    omega
  · exact h

/-- The floats that are sent as singles have no half. -/
lemma widenHalf_ne (hfinite : Binary.Finite value) (h : isShrinkableToHalf value ≠ true)
    (half : UInt16) : widenHalf half ≠ value := by
  intro hwiden
  have hcases := Binary.cases_of_widenHalf hfinite hwiden
  rw [ne_eq, isShrinkableToHalf_iff (exponent_ne_of_finite hfinite), ZeroExponent] at h
  unfold exponent mantissa at h
  omega

/-- **A float on the wire.** The encoder of the library does to a finite float what an encoder
in preferred serialization does to the float that it makes of it, or shifts out of range. -/
theorem encodeFloat_eq {N : NanoCbor} (hN : N.Preferred) (hfinite : Binary.Finite value) :
    encodeFloat value =
      if ZeroExponent value then .error .undefined else .ok (N.fmtFloat (sentFloat value)) := by
  have hshrinks := isShrinkableToHalf_iff (exponent_ne_of_finite hfinite)
  have hsent := finite_sentFloat hfinite
  unfold encodeFloat
  by_cases hshrink : isShrinkableToHalf value = true
  · rw [if_pos hshrink]
    rcases hshrinks.mp hshrink with hzero | ⟨hlow, hhigh⟩ | ⟨hlow, hhigh, hm⟩
    · rw [if_pos hzero, convert_zeroExponent hzero.1]
      rfl
    · have hnot : ¬ ZeroExponent value := fun hzero => by
        have := hzero.1
        omega
      rw [if_neg hnot, convert_subnormal hlow hhigh, ← widenHalf_subnormal hlow hhigh,
        hN.fmtFloat_widenHalf (by rwa [widenHalf_subnormal hlow hhigh])]
      rfl
    · have hnot : ¬ ZeroExponent value := fun hzero => by
        have := hzero.1
        omega
      have hself : sentFloat value = value := if_neg (by omega)
      have hwiden := widenHalf_normal hlow hhigh hm
      have hfmt := hN.fmtFloat_widenHalf (hwiden.symm ▸ hfinite)
      rw [hwiden] at hfmt
      rw [if_neg hnot, convert_normal hlow hhigh, hself, hfmt]
      rfl
  · have hself : sentFloat value = value := if_neg fun h => hshrink (hshrinks.mpr (by omega))
    have hnot : ¬ ZeroExponent value := fun h => hshrink (hshrinks.mpr (Or.inl h))
    rw [if_neg hshrink, if_neg hnot, hself,
      hN.fmtFloat_single hfinite (widenHalf_ne hfinite hshrink)]
    rfl

end Floats

/-! ## The insertion operators -/

/-- The encoder function that an `operator<<` calls, and its argument. -/
inductive Operand
  /-- `cbor_encode_unsigned_integer`. -/
  | unsignedInteger (value : UInt64)
  /-- `cbor_encode_negative_integer`. -/
  | negativeInteger (value : Int64)
  /-- `cbor_encode_float`, with a bit pattern. -/
  | float (value : UInt32)
  /-- `cbor_encode_text_string`. -/
  | textString (text : List UInt8)
  /-- `cbor_encode_bool`. -/
  | bool (value : Bool)
deriving DecidableEq, Repr

/-- `operator<<(const int64_t)`. -/
def insertInt64 (n : Int64) : Operand :=
  if 0 ≤ n then .unsignedInteger n.toUInt64 else .negativeInteger n

/-- The overloads of `operator<<`, by the type of the operand. -/
def insert : (t : FieldType) → t.Elem → Except Failure Operand
  | .uint64, (n : UInt64) => .ok (.unsignedInteger n)
  | .uint32, (n : UInt32) => .ok (.unsignedInteger n.toUInt64)
  | .uint16, (n : UInt16) => .ok (.unsignedInteger n.toUInt64)
  | .uint8, (n : UInt8) => .ok (.unsignedInteger n.toUInt64)
  | .int64, (n : Int64) => .ok (insertInt64 n)
  | .int32, (n : Int32) => .ok (insertInt64 n.toInt64)
  | .int16, (n : Int16) => .ok (insertInt64 n.toInt64)
  | .int8, (n : Int8) => .ok (insertInt64 n.toInt64)
  | .char, (c : UInt8) => .ok (.textString [c])
  | .float, (bits : UInt32) => .ok (.float bits)
  | .double, (bits : UInt64) => .ok (.float (Binary.narrow bits))
  | .string, (s : List UInt8) => .ok (.textString s)
  | .wstring, (s : List UInt16) => return .textString (← toUTF8 s)
  | .bool, (b : Bool) => .ok (.bool b)

/-- `operator<<(const std::vector<T>)`, and the overload for `std::vector<bool>`. -/
def insertVector (t : FieldType) (v : List t.Elem) : Except Failure (List Operand) := do
  let size ← insert .uint32 (UInt32.ofNat v.length)
  let items ← v.mapM (insert t)
  return size :: items

/-! ## Packets -/

/-- `encode_core`, and `handle_overrun` for its result. -/
def putCore (majorType : ℕ) (data : List UInt8) (datasize : ℕ) (s : TxStream) : TxStream :=
  if s.packet.length + (encodeCore majorType data datasize).length ≤ maxPacketLength then
    { s with packet := s.packet ++ encodeCore majorType data datasize }
  else { s with overflow := true }

/-- One call of the encoder.  The smallest integer cannot be negated, and a float is written
wherever the buffer ends. -/
def put : Operand → TxStream → Except Failure TxStream
  | .unsignedInteger value, s => .ok (putCore 0 [] value.toNat s)
  | .negativeInteger value, s =>
    if value = Int64.minValue then .error .undefined
    else .ok (putCore 1 [] ((-value).toUInt64 - 1).toNat s)
  | .textString text, s => .ok (putCore 3 text text.length s)
  | .bool value, s => .ok (putCore 7 [] (if value then 21 else 20) s)
  | .float value, s => do
    let bytes ← encodeFloat value
    if s.packet.length + bytes.length ≤ maxPacketLength then
      return { s with packet := s.packet ++ bytes }
    else throw .outOfBounds

/-- A sequence of calls. -/
def putAll (operands : List Operand) (s : TxStream) : Except Failure TxStream :=
  operands.foldlM (fun s operand => put operand s) s

/-- The operands that `start_transmission` inserts. -/
def header (s : TxStream) (sequenceId : Option UInt64) : List Operand :=
  [.unsignedInteger s.streamType.toUInt64, .unsignedInteger s.streamIdentifier.toUInt64]
    ++ sequenceId.toList.map .unsignedInteger

/-- `start_transmission`. -/
def startTransmission (sequenceId : Option UInt64) (s : TxStream) : Except Failure TxStream :=
  putAll (header s sequenceId) { s with overflow := false, packet := [] }

/-- A transmission of the given operands: the packet that `end_transmission` enqueues, if
any. -/
def transmit (sequenceId : Option UInt64) (operands : List Operand) (s : TxStream) :
    Except Failure (Option Packet) := do
  let s ← startTransmission sequenceId s
  let s ← putAll operands s
  return s.endTransmission

/-! ## The fields of the other build -/

/-- The fields of a packet that fits, with finite floats. -/
def Plain : Field → Prop
  | .uint _ => True
  | .nint n => n < 0
  | .float bits => Binary.Finite bits
  | .tstr s => s.length ≤ TcpDaemon.maxPacketLength

/-- The fields that are written without an undefined operation. -/
def Defined : Field → Prop
  | .uint _ | .tstr _ => True
  | .nint n => n ≠ Int64.minValue
  | .float bits => ¬ ZeroExponent bits

/-- What becomes of a field. -/
def sent : Field → Field
  | .float bits => .float (sentFloat bits)
  | .uint n => .uint n
  | .nint n => .nint n
  | .tstr s => .tstr s

/-- The call that inserts a field. -/
def Operand.ofField : Field → Operand
  | .uint n => .unsignedInteger n
  | .nint n => .negativeInteger n
  | .float bits => .float bits
  | .tstr s => .textString s

/-- The argument of a negative integer; the smallest one is its own opposite modulo `2 ^ 64`. -/
lemma toNat_neg_sub_one {n : Int64} (hn : n < 0) :
    ((-n).toUInt64 - 1).toNat = (-1 - n.toInt).toNat := by
  have hneg : n.toInt < 0 := by simpa using Int64.lt_iff_toInt_lt.mp hn
  have hle := Int64.le_toInt n
  have hopposite : (-n).toInt = -n.toInt ∨ n.toInt = -2 ^ 63 ∧ (-n).toInt = -2 ^ 63 := by
    rw [Int64.toInt_neg]
    by_cases hmin : n.toInt = -2 ^ 63
    · rw [hmin]
      exact Or.inr ⟨rfl, rfl⟩
    · exact Or.inl (Int.bmod_eq_of_le (by omega) (by omega))
  have hbits : (-n).toInt = if 2 * (-n).toUInt64.toNat < 2 ^ 64 then ((-n).toUInt64.toNat : ℤ)
      else ((-n).toUInt64.toNat : ℤ) - (2 ^ 64 : ℕ) := BitVec.toInt_eq_toNat_cond (-n).toBitVec
  have hlt := (-n).toUInt64.toNat_lt
  have hone : (1 : UInt64) ≤ (-n).toUInt64 := by
    rw [UInt64.le_iff_toNat_le]
    show 1 ≤ _
    split_ifs at hbits <;> omega
  rw [UInt64.toNat_sub_of_le _ _ hone]
  show (-n).toUInt64.toNat - 1 = _
  split_ifs at hbits <;> omega

section Sent

variable {N : NanoCbor} (hN : N.Preferred)

include hN

/-- A float takes no more bytes than the one that becomes of it. -/
lemma length_format_sent {f : Field} (hf : Plain f) :
    (N.format (sent f)).length ≤ (N.format f).length := by
  cases f with
  | uint n | nint n | tstr s => exact le_refl _
  | float bits =>
    have hlength : ∀ {value : UInt32}, Binary.Finite value →
        ((∃ h, widenHalf h = value) ∧ (N.fmtFloat value).length = 3) ∨
          (N.fmtFloat value).length = 5 := by
      intro value hfinite
      by_cases hhalf : ∃ h, widenHalf h = value
      · obtain ⟨h, rfl⟩ := hhalf
        left
        rw [hN.fmtFloat_widenHalf hfinite]
        exact ⟨⟨h, rfl⟩, by simp [Cbor.wideHead]⟩
      · right
        rw [hN.fmtFloat_single hfinite fun h hh => hhalf ⟨h, hh⟩]
        simp [Cbor.wideHead]
    show (N.fmtFloat (sentFloat bits)).length ≤ (N.fmtFloat bits).length
    by_cases hsub : 103 ≤ exponent bits ∧ exponent bits ≤ 112
    · have hthree : (N.fmtFloat (sentFloat bits)).length = 3 := by
        have hfinite := finite_sentFloat hf
        rw [← widenHalf_subnormal hsub.1 hsub.2] at hfinite ⊢
        rw [hN.fmtFloat_widenHalf hfinite]
        simp [Cbor.wideHead]
      rcases hlength hf with ⟨-, h⟩ | h <;> omega
    · rw [sentFloat, if_neg hsub]

lemma length_encode_sent {fields : List Field} (hf : ∀ f ∈ fields, Plain f) :
    (N.encode (fields.map sent)).length ≤ (N.encode fields).length := by
  induction fields with
  | nil => simp
  | cons f fields ih =>
    have hfirst := length_format_sent hN (hf f (by simp))
    have hrest := ih fun g hg => hf g (by simp [hg])
    simp only [List.map_cons, NanoCbor.encode_cons, List.length_append]
    omega

/-- A defined field is written as the other build writes what becomes of it. -/
lemma put_ofField {f : Field} (hf : Plain f) (hdefined : Defined f) {s : TxStream}
    (hfit : s.packet.length + (N.format (sent f)).length ≤ maxPacketLength) :
    put (.ofField f) s = .ok { s with packet := s.packet ++ N.format (sent f) } := by
  have hcore : ∀ {major size : ℕ} {data : List UInt8},
      N.format (sent f) = encodeCore major data size →
      putCore major data size s = { s with packet := s.packet ++ N.format (sent f) } := by
    intro major size data hformat
    rw [putCore, ← hformat, if_pos hfit]
  cases f with
  | uint n =>
    refine congrArg Except.ok (hcore ?_)
    rw [encodeCore_eq, List.append_nil]
    exact hN.fmtUint n
  | nint n =>
    show (if n = Int64.minValue then _ else Except.ok _) = _
    rw [if_neg hdefined, toNat_neg_sub_one hf]
    refine congrArg Except.ok (hcore ?_)
    rw [encodeCore_eq, List.append_nil]
    exact hN.fmtInt hf
  | float bits =>
    show (encodeFloat bits >>= _) = _
    rw [encodeFloat_eq hN hf, if_neg hdefined]
    exact if_pos hfit
  | tstr text =>
    have hlt : text.length < 2 ^ 64 := lt_of_le_of_lt hf (by decide)
    refine congrArg Except.ok (hcore ?_)
    rw [encodeCore_eq]
    exact hN.putTstrn hlt

lemma put_ofField_of_not {f : Field} (hf : Plain f) (hundefined : ¬ Defined f) (s : TxStream) :
    put (.ofField f) s = .error .undefined := by
  cases f with
  | uint n | tstr text => exact absurd trivial hundefined
  | nint n => exact if_pos (not_not.mp hundefined)
  | float bits =>
    show (encodeFloat bits >>= _) = _
    rw [encodeFloat_eq hN hf, if_pos (not_not.mp hundefined)]
    rfl

lemma putAll_ofField {fields : List Field} (hf : ∀ f ∈ fields, Plain f)
    (hdefined : ∀ f ∈ fields, Defined f) (s : TxStream)
    (hfit : (s.packet ++ N.encode (fields.map sent)).length ≤ maxPacketLength) :
    putAll (fields.map .ofField) s
      = .ok { s with packet := s.packet ++ N.encode (fields.map sent) } := by
  induction fields generalizing s with
  | nil => simp [putAll, pure, Except.pure]
  | cons f fields ih =>
    rw [List.map_cons, NanoCbor.encode_cons, ← List.append_assoc] at hfit
    have hfirst : s.packet.length + (N.format (sent f)).length ≤ maxPacketLength := by
      simp only [List.length_append] at hfit
      omega
    have hput := put_ofField hN (hf f (by simp)) (hdefined f (by simp)) hfirst
    have hrest := ih (fun g hg => hf g (by simp [hg])) (fun g hg => hdefined g (by simp [hg]))
      { s with packet := s.packet ++ N.format (sent f) } hfit
    show (put (.ofField f) s >>= putAll (fields.map .ofField)) = _
    rw [hput, List.map_cons, NanoCbor.encode_cons, ← List.append_assoc]
    exact hrest

/-- One undefined operation leaves the whole transmission undefined. -/
lemma putAll_ofField_of_not {fields : List Field} (hf : ∀ f ∈ fields, Plain f)
    (hundefined : ¬ ∀ f ∈ fields, Defined f) (s : TxStream) :
    ∃ e, putAll (fields.map .ofField) s = .error e := by
  induction fields generalizing s with
  | nil => exact absurd (by simp) hundefined
  | cons f fields ih =>
    show ∃ e, (put (.ofField f) s >>= putAll (fields.map .ofField)) = .error e
    cases hput : put (.ofField f) s with
    | error e => exact ⟨e, rfl⟩
    | ok s' =>
      by_cases hfirst : Defined f
      · refine ih (fun g hg => hf g (by simp [hg])) (fun h => hundefined ?_) s'
        exact List.forall_mem_cons.mpr ⟨hfirst, h⟩
      · rw [put_ofField_of_not hN (hf f (by simp)) hfirst] at hput
        cases hput

/-- **A transmission as the other build would make it.**  The stream sends what becomes of the
fields, if all of them are defined. -/
theorem transmit_ofField {fields : List Field} (hf : ∀ f ∈ fields, Plain f) (tx : TxStream)
    (sequenceId : Option UInt64)
    (hfit : (N.encode (tx.header sequenceId ++ fields)).length ≤ maxPacketLength) :
    (¬ ∀ f ∈ fields, Defined f) ∧
        (∃ e, transmit sequenceId (fields.map .ofField) tx = .error e) ∨
      (∀ f ∈ fields, Defined f) ∧ transmit sequenceId (fields.map .ofField) tx
        = .ok (some (N.encode (tx.header sequenceId ++ fields.map sent))) := by
  have hoperands : header tx sequenceId = (tx.header sequenceId).map .ofField := by
    cases sequenceId <;> rfl
  have hsame : (tx.header sequenceId).map sent = tx.header sequenceId := by
    cases sequenceId <;> rfl
  have hheader : ∀ f ∈ tx.header sequenceId, Plain f ∧ Defined f := by
    intro f hmem
    cases sequenceId <;> simp [TxStream.header, TxStream.insert, TxStream.insertUint64] at hmem <;>
      rcases hmem with rfl | rfl | rfl <;> exact ⟨trivial, trivial⟩
  have hsent := length_encode_sent hN hf
  rw [NanoCbor.encode_append, List.length_append] at hfit
  have hstart := putAll_ofField hN (fun f hmem => (hheader f hmem).1)
    (fun f hmem => (hheader f hmem).2) { tx with overflow := false, packet := [] }
    (by rw [hsame, List.nil_append]; omega)
  rw [hsame] at hstart
  have htransmit : transmit sequenceId (fields.map .ofField) tx
      = putAll (fields.map .ofField)
          { tx with overflow := false, packet := [] ++ N.encode (tx.header sequenceId) }
        >>= fun s => .ok s.endTransmission := by
    rw [transmit, startTransmission, hoperands, hstart]
    rfl
  by_cases hdefined : ∀ f ∈ fields, Defined f
  · right
    refine ⟨hdefined, ?_⟩
    rw [htransmit, putAll_ofField hN hf hdefined _ (by
      simp only [List.nil_append, List.length_append]
      omega)]
    rw [NanoCbor.encode_append]
    rfl
  · left
    obtain ⟨e, he⟩ := putAll_ofField_of_not hN hf hdefined
      { tx with overflow := false, packet := [] ++ N.encode (tx.header sequenceId) }
    refine ⟨hdefined, e, ?_⟩
    rw [htransmit, he]
    rfl

end Sent

end LibMcu
end RmwDesert
