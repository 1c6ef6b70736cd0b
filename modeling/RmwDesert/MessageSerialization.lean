/-
The serialization of messages (`MessageSerialization.h` and `CStringHelper.cpp`).

`serialize` and `deserialize` are templates over the members type: they share the walk over
the description and differ in `serialize_field` and `deserialize_field`.  The model has one
walk with a `TypeSupport` as parameter, and the two type supports of ROS.
-/
import RmwDesert.RxStream
import Mathlib.Data.UInt

namespace RmwDesert

open RxStream (extractUint32 extractVector extractBoolVector deserializeSequence)

/-! ## `CStringHelper` -/

namespace CStringHelper

/-- The characters that a constructor or an `assign` taking a pointer copies: those before
the terminator. -/
def cString {α : Type} [Zero α] [DecidableEq α] (data : List α) : List α :=
  data.takeWhile (· ≠ 0)

/-- The strings of a vector, assigned to the elements of an array.  The elements of the
vector are accessed without a test. -/
def assignVector {α : Type} [Zero α] [DecidableEq α] (v : List (List α)) (size : ℕ) :
    Except Failure (List.Vector (List α) size) :=
  if h : size ≤ v.length then .ok ⟨(v.take size).map cString, by simp [h]⟩
  else .error .outOfBounds

/-- `convert_to_std_string`. -/
def convertToStdString (str : List UInt8) : List UInt8 := cString str

/-- `convert_to_std_vector_string`. -/
def convertToStdVectorString {size : ℕ} (strArray : List.Vector (List UInt8) size) :
    List (List UInt8) := strArray.toList.map cString

/-- `convert_sequence_to_std_vector_string`. -/
def convertSequenceToStdVectorString (strSeq : List (List UInt8)) : List (List UInt8) :=
  strSeq.map cString

/-- `convert_to_std_u16string`. -/
def convertToStdU16string (str : List UInt16) : List UInt16 := cString str

/-- `convert_to_std_vector_u16string`. -/
def convertToStdVectorU16string {size : ℕ} (strArray : List.Vector (List UInt16) size) :
    List (List UInt16) := strArray.toList.map cString

/-- `convert_sequence_to_std_vector_u16string`. -/
def convertSequenceToStdVectorU16string (strSeq : List (List UInt16)) : List (List UInt16) :=
  strSeq.map cString

/-- `assign_string`. -/
def assignString (str : List UInt8) : List UInt8 := cString str

/-- `assign_vector_string`. -/
def assignVectorString (v : List (List UInt8)) (size : ℕ) :
    Except Failure (List.Vector (List UInt8) size) := assignVector v size

/-- `assign_vector_string_to_sequence`. -/
def assignVectorStringToSequence (v : List (List UInt8)) : List (List UInt8) := v.map cString

/-- `assign_u16string`. -/
def assignU16string (str : List UInt16) : List UInt16 := cString str

/-- `assign_vector_u16string`. -/
def assignVectorU16string (v : List (List UInt16)) (size : ℕ) :
    Except Failure (List.Vector (List UInt16) size) := assignVector v size

/-- `assign_vector_u16string_to_sequence`. -/
def assignVectorU16stringToSequence (v : List (List UInt16)) : List (List UInt16) :=
  v.map cString

section

variable {α : Type} [Zero α] [DecidableEq α]

lemma cString_of_zero_notMem {s : List α} (h : 0 ∉ s) : cString s = s :=
  Unicode.takeWhile_ne_zero h

lemma map_cString_of_zero_notMem {v : List (List α)} (h : ∀ s ∈ v, 0 ∉ s) :
    v.map cString = v :=
  (List.map_congr_left fun s hs => cString_of_zero_notMem (h s hs)).trans (List.map_id v)

lemma assignVector_toList {size : ℕ} (v : List.Vector (List α) size)
    (h : ∀ s ∈ v.toList, 0 ∉ s) : assignVector v.toList size = .ok v := by
  rw [assignVector, dif_pos (le_of_eq v.toList_length.symm)]
  refine congrArg Except.ok (List.Vector.toList_injective ?_)
  show (v.toList.take size).map cString = v.toList
  rw [List.take_of_length_le (le_of_eq v.toList_length), map_cString_of_zero_notMem h]

end
end CStringHelper

namespace MessageSerialization

/-- The two template functions that depend on the members type. -/
structure TypeSupport where
  /-- `serialize_field`. -/
  serializeField : (t : FieldType) → (k : Kind) → k.Value t.Elem → List Field
  /-- `deserialize_field`, given the former value of the field. -/
  deserializeField : (t : FieldType) → (k : Kind) → k.Value t.Elem → RxM (k.Value t.Elem)

/-! ## The C++ members -/

namespace Cpp

/-- `serialize_field(const INTROSPECTION_CPP_MEMBER *, void *, cbor::TxStream &)`. -/
def serializeField (t : FieldType) : (k : Kind) → k.Value t.Elem → List Field
  | .scalar, x => [TxStream.insert t x]
  | .fixed _ _, xs => TxStream.serializeSequence t xs.toList
  | .sequence _, data => TxStream.insertVector t data

/-- `deserialize_field(const INTROSPECTION_CPP_MEMBER *, void *, cbor::RxStream &)`.  The
vector of a sequence is constructed anew, and overload resolution picks the operator. -/
def deserializeField : (t : FieldType) → (k : Kind) → k.Value t.Elem → RxM (k.Value t.Elem)
  | t, .scalar, x => RxStream.extract t x
  | t, .fixed _ _, xs => deserializeSequence t xs
  | .bool, .sequence _, _ => extractBoolVector []
  | t, .sequence _, _ => extractVector t []

end Cpp

/-- The C++ type support. -/
def cpp : TypeSupport := ⟨Cpp.serializeField, Cpp.deserializeField⟩

/-! ## The C members -/

namespace C

open CStringHelper

/-- `serialize_field(const INTROSPECTION_C_MEMBER *, void *, cbor::TxStream &)`. -/
def serializeField : (t : FieldType) → (k : Kind) → k.Value t.Elem → List Field
  | .string, .scalar, str => [TxStream.insert .string (convertToStdString str)]
  | .string, .fixed _ _, strArray =>
    TxStream.insertVector .string (convertToStdVectorString strArray)
  | .string, .sequence _, strSeq =>
    TxStream.insertVector .string (convertSequenceToStdVectorString strSeq)
  | .wstring, .scalar, str => [TxStream.insert .wstring (convertToStdU16string str)]
  | .wstring, .fixed _ _, strArray =>
    TxStream.insertVector .wstring (convertToStdVectorU16string strArray)
  | .wstring, .sequence _, strSeq =>
    TxStream.insertVector .wstring (convertSequenceToStdVectorU16string strSeq)
  | t, .scalar, x => [TxStream.insert t x]
  | t, .fixed _ _, xs => TxStream.serializeSequence t xs.toList
  | t, .sequence _, data =>
    TxStream.insert .uint32 (UInt32.ofNat data.length) :: TxStream.serializeSequence t data

/-- `deserialize_field(const INTROSPECTION_C_MEMBER *, void *, cbor::RxStream &)`. -/
def deserializeField : (t : FieldType) → (k : Kind) → k.Value t.Elem → RxM (k.Value t.Elem)
  | .string, .scalar, _ => do
    let str ← RxStream.extract .string ([] : List UInt8)
    return assignString str
  | .string, .fixed size _, _ => do
    let v ← extractVector .string []
    liftM (assignVectorString v size)
  | .string, .sequence _, _ => do
    let v ← extractVector .string []
    return assignVectorStringToSequence v
  | .wstring, .scalar, _ => do
    let str ← RxStream.extract .wstring ([] : List UInt16)
    return assignU16string str
  | .wstring, .fixed size _, _ => do
    let v ← extractVector .wstring []
    liftM (assignVectorU16string v size)
  | .wstring, .sequence _, _ => do
    let v ← extractVector .wstring []
    return assignVectorU16stringToSequence v
  | t, .scalar, x => RxStream.extract t x
  | t, .fixed _ _, xs => deserializeSequence t xs
  | t, .sequence _, _ => do
    let size ← extractUint32
    let data ← deserializeSequence t (List.Vector.replicate size.toNat t.zero)
    return data.toList

end C

/-- The C type support. -/
def c : TypeSupport := ⟨C.serializeField, C.deserializeField⟩

/-! ## The walk -/

/-- The loop that serializes the elements of a member. -/
def serializeAll {α : Type} (write : α → Except Failure (List Field)) :
    List α → Except Failure (List Field)
  | [] => .ok []
  | x :: xs => do
    let fields ← write x
    let others ← serializeAll write xs
    return fields ++ others

/-- The case `ROS_TYPE_MESSAGE` of `serialize`. -/
def serializeMessages {α : Type} (write : α → Except Failure (List Field)) :
    (k : Kind) → k.Value α → Except Failure (List Field)
  | .scalar, x => write x
  | .fixed _ _, xs => serializeAll write xs.toList
  | .sequence bound, xs =>
    if bound.any (· < xs.length) then
      .error (.runtimeError "Sequence overcomes the maximum length")
    else do
      let fields ← serializeAll write xs
      return TxStream.insert .uint32 (UInt32.ofNat xs.length) :: fields

/-- `serialize`. -/
def serialize (ts : TypeSupport) : (M : MessageMembers) → Msg M → Except Failure (List Field)
  | .nil, _ => .ok []
  | .field flags (.streamed t) rest, (x, msg) => do
    let others ← serialize ts rest msg
    return ts.serializeField t flags.kind x ++ others
  | .field _ .octet rest, (_, msg) => serialize ts rest msg
  | .field _ .longDouble _, _ | .field _ .wchar _, _ => .error (.runtimeError "unknown type")
  | .message flags sub rest, (xs, msg) => do
    let fields ← serializeMessages (serialize ts sub) flags.kind xs
    let others ← serialize ts rest msg
    return fields ++ others

/-- The case `ROS_TYPE_MESSAGE` of `deserialize`; `resize_function` fills a sequence with
initialised messages. -/
def deserializeMessages {α : Type} (read : α → RxM α) (initial : α) :
    (k : Kind) → k.Value α → RxM (k.Value α)
  | .scalar, x => read x
  | .fixed _ _, xs => Reader.update read xs
  | .sequence _, _ => do
    let arraySize ← extractUint32
    let xs ← Reader.update read (List.Vector.replicate arraySize.toNat initial)
    return xs.toList

/-- `deserialize`, given the message that is overwritten and the initialised message of each
type. -/
def deserialize (ts : TypeSupport) (initial : (M : MessageMembers) → Msg M) :
    (M : MessageMembers) → Msg M → RxM (Msg M)
  | .nil, msg => pure msg
  | .field flags (.streamed t) rest, (x, msg) => do
    let x ← ts.deserializeField t flags.kind x
    let msg ← deserialize ts initial rest msg
    return (x, msg)
  | .field _ .octet rest, (x, msg) => do
    let msg ← deserialize ts initial rest msg
    return (x, msg)
  | .field _ .longDouble _, _ | .field _ .wchar _, _ => throw (.runtimeError "unknown type")
  | .message flags sub rest, (xs, msg) => do
    let xs ← deserializeMessages (deserialize ts initial sub) (initial sub) flags.kind xs
    let msg ← deserialize ts initial rest msg
    return (xs, msg)

/-- `_c_cpp_identifier`: the type support that an entity was created with. -/
inductive Language
  | c
  | cpp
deriving DecidableEq, Repr

/-- The type support of a language. -/
def Language.typeSupport : Language → TypeSupport
  | .c => MessageSerialization.c
  | .cpp => MessageSerialization.cpp

/-! ## Deserialization moves nothing but the iterator -/

open Reader RxStream

lemma advances_cpp (t : FieldType) (k : Kind) (dest : k.Value t.Elem) :
    Advances (cpp.deserializeField t k dest) := by
  cases k with
  | scalar =>
    have h := advances_extract t dest
    cases t <;> exact h
  | fixed size hsize =>
    have h := advances_deserializeSequence t dest
    cases t <;> exact h
  | sequence bound =>
    have h := advances_extractVector t []
    cases t
    case bool => exact advances_extractBoolVector []
    all_goals exact h

lemma advances_c (t : FieldType) (k : Kind) (dest : k.Value t.Elem) :
    Advances (c.deserializeField t k dest) := by
  cases k with
  | scalar =>
    have h := advances_extract t dest
    cases t
    case string => exact (advances_extract .string ([] : List UInt8)).map CStringHelper.assignString
    case wstring =>
      exact (advances_extract .wstring ([] : List UInt16)).map CStringHelper.assignU16string
    all_goals exact h
  | fixed size hsize =>
    have h := advances_deserializeSequence t dest
    cases t
    case string => exact (advances_extractVector .string []).bind fun v => advances_liftM _
    case wstring => exact (advances_extractVector .wstring []).bind fun v => advances_liftM _
    all_goals exact h
  | sequence bound =>
    have h := advances_extractUint32.bind fun size =>
      (advances_deserializeSequence t (List.Vector.replicate size.toNat t.zero)).map
        List.Vector.toList
    cases t
    case string => exact (advances_extractVector .string []).map _
    case wstring => exact (advances_extractVector .wstring []).map _
    all_goals exact h

lemma advances_deserializeMessages {α : Type} {read : α → RxM α} (h : ∀ x, Advances (read x))
    (initial : α) (k : Kind) (dest : k.Value α) :
    Advances (deserializeMessages read initial k dest) := by
  cases k with
  | scalar => exact h dest
  | fixed size hsize => exact advances_update h dest
  | sequence bound =>
    exact advances_extractUint32.bind fun size =>
      (advances_update h (List.Vector.replicate size.toNat initial)).map List.Vector.toList

/-- **Frame.** `deserialize` leaves the buffered packet and the queue as they are. -/
theorem advances_deserialize (language : Language) (initial : (M : MessageMembers) → Msg M) :
    ∀ (M : MessageMembers) (dest : Msg M),
      Advances (deserialize language.typeSupport initial M dest)
  | .nil, dest => advances_pure dest
  | .field flags (.streamed t) rest, (x, msg) => by
    have hfield : Advances (language.typeSupport.deserializeField t flags.kind x) := by
      cases language with
      | c => exact advances_c t flags.kind x
      | cpp => exact advances_cpp t flags.kind x
    exact hfield.bind fun y =>
      (advances_deserialize language initial rest msg).map (Prod.mk y)
  | .field _ .octet rest, (x, msg) =>
    (advances_deserialize language initial rest msg).map (Prod.mk x)
  | .field _ .longDouble _, _ | .field _ .wchar _, _ => advances_throw _
  | .message flags sub rest, (xs, msg) =>
    (advances_deserializeMessages (advances_deserialize language initial sub) (initial sub)
      flags.kind xs).bind fun ys =>
        (advances_deserialize language initial rest msg).map (Prod.mk ys)

end MessageSerialization
end RmwDesert
