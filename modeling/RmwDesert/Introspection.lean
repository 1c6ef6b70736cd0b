/-
Messages and their introspection descriptions.

A message type comes as an array of `MessageMember` records; the model keeps the fields
that `MessageSerialization` reads (`type_id_`, `is_array_`, `array_size_`,
`is_upper_bound_`, `members_`).  A message is a value of a type computed from its
description, so that a value of the wrong shape cannot be written down.  The C and the C++
structures of a message hold the same data: they differ in the functions that walk them.
-/
import RmwDesert.Lib.Binary
import RmwDesert.Lib.Unicode

namespace RmwDesert

/-- The types that `serialize_field` and `deserialize_field` are instantiated with. -/
inductive FieldType
  | uint8
  | uint16
  | uint32
  | uint64
  | int8
  | int16
  | int32
  | int64
  | char
  | float
  | double
  | bool
  | string
  | wstring
deriving DecidableEq, Repr

namespace FieldType

/-- The values of an element type.  Floating-point numbers are bit patterns, a string is
the list of its bytes, and a wide string the list of its code units. -/
abbrev Elem : FieldType → Type
  | uint8 | char => UInt8
  | uint16 => UInt16
  | uint32 | float => UInt32
  | uint64 | double => UInt64
  | int8 => Int8
  | int16 => Int16
  | int32 => Int32
  | int64 => Int64
  | bool => Bool
  | string => List UInt8
  | wstring => List UInt16

/-- The value that `resize` and `__Sequence__init` give to a new element. -/
def zero : (t : FieldType) → t.Elem
  | uint8 | char => (0 : UInt8)
  | uint16 => (0 : UInt16)
  | uint32 | float => (0 : UInt32)
  | uint64 | double => (0 : UInt64)
  | int8 => (0 : Int8)
  | int16 => (0 : Int16)
  | int32 => (0 : Int32)
  | int64 => (0 : Int64)
  | bool => false
  | string => ([] : List UInt8)
  | wstring => ([] : List UInt16)

/-- A value after its passage through single precision. -/
def rounded : (t : FieldType) → t.Elem → t.Elem
  | double => fun (bits : UInt64) => Binary.widen (Binary.narrow bits)
  | uint8 | uint16 | uint32 | uint64 | int8 | int16 | int32 | int64 | char | float | bool
  | string | wstring => id

/-- Wide strings are well-formed UTF-16; the other types have no condition. -/
def WellFormed : (t : FieldType) → t.Elem → Prop
  | wstring => Unicode.IsUtf16
  | uint8 | uint16 | uint32 | uint64 | int8 | int16 | int32 | int64 | char | float | double
  | bool | string => fun _ => True

/-- Strings have no terminator among their characters. -/
def NulFree : (t : FieldType) → t.Elem → Prop
  | string => fun (s : List UInt8) => 0 ∉ s
  | wstring => fun (s : List UInt16) => 0 ∉ s
  | uint8 | uint16 | uint32 | uint64 | int8 | int16 | int32 | int64 | char | float | double
  | bool => fun _ => True

@[simp] lemma rounded_rounded (t : FieldType) (x : t.Elem) :
    t.rounded (t.rounded x) = t.rounded x := by
  cases t
  case double => exact congrArg Binary.widen (Binary.narrow_widen_narrow x)
  all_goals rfl

end FieldType

/-- The type identifiers other than `ROS_TYPE_MESSAGE`. -/
inductive RosType
  /-- The identifiers with a case that streams the field. -/
  | streamed (t : FieldType)
  /-- `ROS_TYPE_OCTET`, which has a case that does nothing. -/
  | octet
  /-- `ROS_TYPE_LONG_DOUBLE`, which has no case. -/
  | longDouble
  /-- `ROS_TYPE_WCHAR`, which has no case. -/
  | wchar
deriving DecidableEq, Repr

/-- The values of a member of the given type. -/
abbrev RosType.Value : RosType → Type
  | streamed t => t.Elem
  | octet => UInt8
  | longDouble => BitVec 128
  | wchar => UInt16

/-- The three forms of a member. -/
inductive Kind
  /-- A single item. -/
  | scalar
  /-- An array of fixed, positive size. -/
  | fixed (size : ℕ) (h : 0 < size)
  /-- A sequence, with its upper bound if it has one. -/
  | sequence (bound : Option ℕ)
deriving DecidableEq

/-- The flags of a `MessageMember`. -/
structure ArrayFlags where
  /-- `is_array_`. -/
  isArray : Bool
  /-- `array_size_`. -/
  arraySize : ℕ
  /-- `is_upper_bound_`. -/
  isUpperBound : Bool
deriving DecidableEq, Repr

/-- The form that the tests `!member->is_array_` and
`member->array_size_ && !member->is_upper_bound_` select. -/
def ArrayFlags.kind (f : ArrayFlags) : Kind :=
  if !f.isArray then .scalar
  else if h : 0 < f.arraySize ∧ f.isUpperBound = false then .fixed f.arraySize h.1
  else if f.isUpperBound then .sequence (some f.arraySize)
  else .sequence none

/-- The contents of a member of the given form. -/
abbrev Kind.Value (α : Type) : Kind → Type
  | scalar => α
  | fixed size _ => List.Vector α size
  | sequence _ => List α

namespace Kind

variable {α β : Type}

/-- The items of a member, in the order of the walk. -/
def items : (k : Kind) → k.Value α → List α
  | scalar, x => [x]
  | fixed _ _, xs => xs.toList
  | sequence _, xs => xs

/-- The items of a member, replaced one by one. -/
def map (f : α → β) : (k : Kind) → k.Value α → k.Value β
  | scalar, x => f x
  | fixed _ _, xs => List.Vector.map f xs
  | sequence _, xs => List.map f xs

/-- A member with the same item everywhere, and an empty sequence. -/
def fill (x : α) : (k : Kind) → k.Value α
  | scalar => x
  | fixed size _ => List.Vector.replicate size x
  | sequence _ => []

lemma map_map {γ : Type} (g : β → γ) (f : α → β) (k : Kind) (v : k.Value α) :
    k.map g (k.map f v) = k.map (g ∘ f) v := by
  cases k with
  | scalar => rfl
  | fixed size h =>
    apply List.Vector.toList_injective
    simp only [map, List.Vector.toList_map, List.map_map]
  | sequence bound => exact List.map_map

/-- A member that is not a sequence holds at least one item. -/
lemma items_ne_nil {k : Kind} (hk : ∀ bound, k ≠ .sequence bound) (v : k.Value α) :
    k.items v ≠ [] := by
  cases k with
  | scalar => exact List.cons_ne_nil _ _
  | fixed size h =>
    have hlen : (List.Vector.toList v).length = size := List.Vector.toList_length v
    intro hnil
    rw [items, ← List.length_eq_zero_iff] at hnil
    omega
  | sequence bound => exact absurd rfl (hk bound)

end Kind

/-- The array of members of a message type. -/
inductive MessageMembers
  /-- The end of the array. -/
  | nil
  /-- A member of a type other than `ROS_TYPE_MESSAGE`. -/
  | field (flags : ArrayFlags) (type : RosType) (rest : MessageMembers)
  /-- A member of type `ROS_TYPE_MESSAGE`, with the members of the sub-message. -/
  | message (flags : ArrayFlags) (sub rest : MessageMembers)
deriving DecidableEq, Repr

/-- The messages of a type. -/
def Msg : MessageMembers → Type
  | .nil => Unit
  | .field flags type rest => flags.kind.Value type.Value × Msg rest
  | .message flags sub rest => flags.kind.Value (Msg sub) × Msg rest

namespace MessageMembers

/-- Every message type below has a member.  The generators of ROS guarantee it: an empty
message gets the member `structure_needs_at_least_one_member`. -/
def Populated : MessageMembers → Prop
  | nil => True
  | field _ _ rest => rest.Populated
  | message _ sub rest => sub ≠ nil ∧ sub.Populated ∧ rest.Populated

/-- No member has type `ROS_TYPE_OCTET`. -/
def OctetFree : MessageMembers → Prop
  | nil => True
  | field _ type rest => type ≠ .octet ∧ rest.OctetFree
  | message _ sub rest => sub.OctetFree ∧ rest.OctetFree

instance decidablePopulated : (M : MessageMembers) → Decidable M.Populated
  | nil => inferInstanceAs (Decidable True)
  | field _ _ rest => decidablePopulated rest
  | message _ sub rest =>
    have := decidablePopulated sub
    have := decidablePopulated rest
    inferInstanceAs (Decidable (sub ≠ nil ∧ sub.Populated ∧ rest.Populated))

instance decidableOctetFree : (M : MessageMembers) → Decidable M.OctetFree
  | nil => inferInstanceAs (Decidable True)
  | field _ type rest =>
    have := decidableOctetFree rest
    inferInstanceAs (Decidable (type ≠ .octet ∧ rest.OctetFree))
  | message _ sub rest =>
    have := decidableOctetFree sub
    have := decidableOctetFree rest
    inferInstanceAs (Decidable (sub.OctetFree ∧ rest.OctetFree))

end MessageMembers

/-- A message type as the generators of ROS produce it. -/
structure MessageType where
  /-- `members_`. -/
  members : MessageMembers
  populated : members.Populated

namespace Msg

/-- The message with zeros in all its members, as `init_function` leaves it when the type
declares no other defaults. -/
def zero : (M : MessageMembers) → Msg M
  | .nil => ()
  | .field flags (.streamed t) rest => (flags.kind.fill t.zero, zero rest)
  | .field flags .octet rest => (flags.kind.fill (0 : UInt8), zero rest)
  | .field flags .longDouble rest => (flags.kind.fill (0 : BitVec 128), zero rest)
  | .field flags .wchar rest => (flags.kind.fill (0 : UInt16), zero rest)
  | .message flags sub rest => (flags.kind.fill (zero sub), zero rest)

/-- A condition on the members of the streamed types, at every depth that the walk
reaches. -/
def Forall (P : (t : FieldType) → (k : Kind) → k.Value t.Elem → Prop) :
    (M : MessageMembers) → Msg M → Prop
  | .nil, _ => True
  | .field flags (.streamed t) rest, (x, msg) => P t flags.kind x ∧ Forall P rest msg
  | .field _ .octet rest, (_, msg) | .field _ .longDouble rest, (_, msg)
  | .field _ .wchar rest, (_, msg) => Forall P rest msg
  | .message flags sub rest, (xs, msg) =>
    (∀ x ∈ flags.kind.items xs, Forall P sub x) ∧ Forall P rest msg

lemma forall_true : ∀ (M : MessageMembers) (msg : Msg M), Forall (fun _ _ _ => True) M msg
  | .nil, _ => trivial
  | .field _ (.streamed _) rest, (_, msg) => ⟨trivial, forall_true rest msg⟩
  | .field _ .octet rest, (_, msg) | .field _ .longDouble rest, (_, msg)
  | .field _ .wchar rest, (_, msg) => forall_true rest msg
  | .message _ sub rest, (_, msg) => ⟨fun x _ => forall_true sub x, forall_true rest msg⟩

/-- The message with every `double` taken through single precision. -/
def rounded : (M : MessageMembers) → Msg M → Msg M
  | .nil, msg => msg
  | .field flags (.streamed t) rest, (x, msg) => (flags.kind.map t.rounded x, rounded rest msg)
  | .field _ .octet rest, (x, msg) => (x, rounded rest msg)
  | .field _ .longDouble rest, (x, msg) => (x, rounded rest msg)
  | .field _ .wchar rest, (x, msg) => (x, rounded rest msg)
  | .message flags sub rest, (xs, msg) => (flags.kind.map (rounded sub) xs, rounded rest msg)

/-- Rounding a rounded message changes nothing. -/
theorem rounded_rounded : ∀ (M : MessageMembers) (msg : Msg M),
    rounded M (rounded M msg) = rounded M msg
  | .nil, _ => rfl
  | .field flags (.streamed t) rest, (x, msg) => by
    have hx : t.rounded ∘ t.rounded = t.rounded := funext t.rounded_rounded
    refine congrArg₂ Prod.mk ?_ (rounded_rounded rest msg)
    exact (Kind.map_map _ _ _ x).trans (by rw [hx])
  | .field _ .octet rest, (x, msg) => congrArg (Prod.mk x) (rounded_rounded rest msg)
  | .field _ .longDouble rest, (x, msg) => congrArg (Prod.mk x) (rounded_rounded rest msg)
  | .field _ .wchar rest, (x, msg) => congrArg (Prod.mk x) (rounded_rounded rest msg)
  | .message flags sub rest, (xs, msg) => by
    have hsub : rounded sub ∘ rounded sub = rounded sub := funext (rounded_rounded sub)
    refine congrArg₂ Prod.mk ?_ (rounded_rounded rest msg)
    exact (Kind.map_map _ _ _ xs).trans (by rw [hsub])

end Msg

/-- The members of a message with one byte. -/
def oneByte : MessageMembers := .field ⟨false, 0, false⟩ (.streamed .uint8) .nil

end RmwDesert
