/-
What `deserialize` leaves, whatever the packet (`MessageSerialization.h`, `CBorStream.h`).

`deserialize` writes into the message as it goes, so that it leaves something there also when
it does not return.  On a packet that does not have the fields of the type, the operators that
read through a local variable assign what an unassigned variable happens to hold, and those for
signed integers look at a field past the end of the packet first.  What such an operation does is
a parameter here, and `agrees_deserialize` says that it plays no part where the model of
`deserialize` that gives no result there returns.
-/
import RmwDesert.MessageSerialization

namespace RmwDesert

open Reader RxStream

/-- What the operations do that the language leaves undefined, by the position of the
iterator. -/
structure Undefined where
  /-- The value of a local variable that was not assigned. -/
  unassigned : ℕ → UInt64
  /-- A look at a field past the end of the packet returns. -/
  returns : ℕ → Bool

/-- A part of `deserialize` that overwrites a part of the message. -/
abbrev Overwrite (α : Type) := InPlace RxStream α

/-- The operand of an operator that found no field of its type, given its former value. -/
def FieldType.afterUnassigned : (t : FieldType) → t.Elem → UInt64 → t.Elem
  | .uint32, (_ : UInt32), value => value.toUInt32
  | .uint16, (_ : UInt16), value => value.toUInt16
  | .uint8, (_ : UInt8), value => value.toUInt8
  | .int32, (_ : Int32), value => value.toInt64.toInt32
  | .int16, (_ : Int16), value => value.toInt64.toInt16
  | .int8, (_ : Int8), value => value.toInt64.toInt8
  | .double, (_ : UInt64), value => Binary.widen value.toUInt32
  | _, x, _ => x

namespace RxStream

/-- The overloads of `operator>>`. -/
def extractInPlace (U : Undefined) (t : FieldType) : Overwrite t.Elem := fun x s =>
  match extract t x s with
  | .ok (y, s') => (y, some s')
  | .error .uninitialised =>
    (t.afterUnassigned x (U.unassigned s.bufferedIterator), some (s.advance 1))
  | .error .outOfBounds =>
    if U.returns s.bufferedIterator then
      (t.afterUnassigned x (U.unassigned s.bufferedIterator), some (s.advance 1))
    else (x, none)
  | .error _ => (x, none)

/-- The length that `operator>>(uint32_t &)` reads: the number in the packet if there is one. -/
def lengthRead (U : Undefined) (s : RxStream) : UInt32 :=
  ((s.current.bind uintValue).getD (U.unassigned s.bufferedIterator)).toUInt32

/-- `deserialize_sequence` on the items of a vector that was resized to the length read. -/
def extractVectorInPlace (U : Undefined) (t : FieldType) : Overwrite (List t.Elem) := fun v s =>
  let left := InPlace.update (extractInPlace U t) (resize t v (lengthRead U s).toNat) (s.advance 1)
  (left.1.toList, left.2)

end RxStream

namespace MessageSerialization

/-- `deserialize_field` for C++ members.  The vector of a sequence is constructed anew; that of
a sequence of booleans stays empty, and the first item that is assigned is outside. -/
def Cpp.deserializeFieldInPlace (U : Undefined) :
    (t : FieldType) → (k : Kind) → Overwrite (k.Value t.Elem)
  | t, .scalar => extractInPlace U t
  | t, .fixed _ _ => InPlace.update (extractInPlace U t)
  | .bool, .sequence _ => fun _ s =>
    ([], if lengthRead U s = 0 then some (s.advance 1) else none)
  | t, .sequence _ => fun _ => extractVectorInPlace U t []

namespace C

open CStringHelper

/-- `assign_vector_string` and `assign_vector_u16string`: the strings before the first one that
the vector does not have are assigned. -/
def assignVectorInPlace {α : Type} [Zero α] [DecidableEq α] (v : List (List α)) {size : ℕ}
    (field : List.Vector (List α) size) : List.Vector (List α) size :=
  List.Vector.ofFn fun i => (v[i.val]?).elim (field.get i) cString

/-- `deserialize_field` for C members.  The operators of strings always return, so that strings
are assigned wherever they are read. -/
def deserializeFieldInPlace (U : Undefined) :
    (t : FieldType) → (k : Kind) → Overwrite (k.Value t.Elem)
  | .string, .scalar => fun _ s =>
    let left := extractInPlace U .string ([] : List UInt8) s
    (assignString left.1, left.2)
  | .string, .fixed size _ => fun field s =>
    let left := extractVectorInPlace U .string [] s
    (assignVectorInPlace left.1 field, if size ≤ left.1.length then left.2 else none)
  | .string, .sequence _ => fun _ s =>
    let left := extractVectorInPlace U .string [] s
    (assignVectorStringToSequence left.1, left.2)
  | .wstring, .scalar => fun _ s =>
    let left := extractInPlace U .wstring ([] : List UInt16) s
    (assignU16string left.1, left.2)
  | .wstring, .fixed size _ => fun field s =>
    let left := extractVectorInPlace U .wstring [] s
    (assignVectorInPlace left.1 field, if size ≤ left.1.length then left.2 else none)
  | .wstring, .sequence _ => fun _ s =>
    let left := extractVectorInPlace U .wstring [] s
    (assignVectorU16stringToSequence left.1, left.2)
  | t, .scalar => extractInPlace U t
  | t, .fixed _ _ => InPlace.update (extractInPlace U t)
  | t, .sequence _ => fun _ => extractVectorInPlace U t []

end C

/-- `deserialize_field`, by the language of the members. -/
def Language.deserializeFieldInPlace (U : Undefined) :
    Language → (t : FieldType) → (k : Kind) → Overwrite (k.Value t.Elem)
  | .c => C.deserializeFieldInPlace U
  | .cpp => Cpp.deserializeFieldInPlace U

/-- The case `ROS_TYPE_MESSAGE` of `deserialize`. -/
def deserializeMessagesInPlace {α : Type} (U : Undefined) (read : Overwrite α) (initial : α) :
    (k : Kind) → Overwrite (k.Value α)
  | .scalar => read
  | .fixed _ _ => InPlace.update read
  | .sequence _ => fun _ s =>
    let left := InPlace.update read (List.Vector.replicate (lengthRead U s).toNat initial)
      (s.advance 1)
    (left.1.toList, left.2)

/-- `deserialize`: what it leaves of the message, and the stream if it returns. -/
def deserializeInPlace (U : Undefined) (language : Language)
    (initial : (M : MessageMembers) → Msg M) : (M : MessageMembers) → Overwrite (Msg M)
  | .nil => fun msg s => (msg, some s)
  | .field flags (.streamed t) rest =>
    (language.deserializeFieldInPlace U t flags.kind).prod
      (deserializeInPlace U language initial rest)
  | .field _ .octet rest => fun msg s =>
    let left := deserializeInPlace U language initial rest msg.2 s
    ((msg.1, left.1), left.2)
  | .field _ .longDouble _ | .field _ .wchar _ => fun msg _ => (msg, none)
  | .message flags sub rest =>
    (deserializeMessagesInPlace U (deserializeInPlace U language initial sub) (initial sub)
      flags.kind).prod (deserializeInPlace U language initial rest)

/-! ## Where `deserialize` returns -/

section

variable (U : Undefined)

lemma agrees_extract (t : FieldType) : (extractInPlace U t).Agrees (extract t) := by
  intro x s y s' h
  rw [extractInPlace, h]

/-- The length that a packet announces. -/
lemma lengthRead_of_ok {s s' : RxStream} {size : UInt32}
    (h : extractUint32 s = .ok (size, s')) : lengthRead U s = size ∧ s' = s.advance 1 := by
  obtain ⟨value, s₁, hnext, h⟩ := bind_ok h
  obtain ⟨rfl, rfl⟩ := Prod.mk.inj (Except.ok.inj hnext)
  obtain ⟨n, s₂, hn, h⟩ := bind_ok h
  rw [lengthRead]
  cases hvalue : s.current.bind uintValue with
  | none =>
    rw [hvalue] at hn
    cases hn
  | some n' =>
    rw [hvalue] at hn
    obtain ⟨rfl, rfl⟩ := Prod.mk.inj (Except.ok.inj hn)
    obtain ⟨rfl, rfl⟩ := Prod.mk.inj (Except.ok.inj h)
    exact ⟨rfl, rfl⟩

lemma agrees_extractVector (t : FieldType) :
    (extractVectorInPlace U t).Agrees (extractVector t) := by
  intro v s w s' h
  obtain ⟨size, s₁, hsize, h⟩ := bind_ok h
  obtain ⟨items, s₂, hitems, h⟩ := bind_ok h
  obtain ⟨rfl, rfl⟩ := Prod.mk.inj (Except.ok.inj h)
  obtain ⟨rfl, rfl⟩ := lengthRead_of_ok U hsize
  rw [extractVectorInPlace, (agrees_extract U t).update _ _ _ _ hitems]

lemma agrees_extractBoolVector {v : List Bool} {s s' : RxStream}
    (h : extractBoolVector [] s = .ok (v, s')) :
    (([] : List Bool), if lengthRead U s = 0 then some (s.advance 1) else none) = (v, some s') := by
  obtain ⟨size, s₁, hsize, h⟩ := bind_ok h
  obtain ⟨rfl, rfl⟩ := lengthRead_of_ok U hsize
  cases hturns : (lengthRead U s).toNat with
  | zero =>
    rw [hturns] at h
    obtain ⟨rfl, rfl⟩ := Prod.mk.inj (Except.ok.inj h)
    rw [if_pos (UInt32.toNat_inj.mp hturns)]
  | succ turns =>
    rw [hturns] at h
    obtain ⟨b, s₂, -, h⟩ := bind_ok h
    cases h

lemma agrees_cpp (t : FieldType) (k : Kind) :
    (Cpp.deserializeFieldInPlace U t k).Agrees (cpp.deserializeField t k) := by
  cases k with
  | scalar =>
    have h := agrees_extract U t
    cases t <;> exact h
  | fixed size hsize =>
    have h : (InPlace.update (extractInPlace U t)).Agrees (deserializeSequence t (n := size)) :=
      (agrees_extract U t).update
    cases t <;> exact h
  | sequence bound =>
    intro v s w s' h
    cases t
    case bool => exact agrees_extractBoolVector U h
    all_goals exact agrees_extractVector U _ _ _ _ _ h

namespace C

open CStringHelper

lemma agrees_assignVector {α : Type} [Zero α] [DecidableEq α] {v : List (List α)} {size : ℕ}
    (field : List.Vector (List α) size) {w : List.Vector (List α) size}
    (h : assignVector v size = .ok w) :
    size ≤ v.length ∧ assignVectorInPlace v field = w := by
  unfold assignVector at h
  split_ifs at h with hsize
  obtain rfl := Except.ok.inj h
  refine ⟨hsize, List.Vector.ext fun i => ?_⟩
  have hi : i.val < v.length := lt_of_lt_of_le i.isLt hsize
  rw [assignVectorInPlace, List.Vector.get_ofFn, List.getElem?_eq_getElem hi]
  simp [List.Vector.get]

/-- A sequence that `init` fills with zeros is read like a vector. -/
lemma sequence_eq_extractVector (t : FieldType) :
    (do
      let size ← extractUint32
      let data ← deserializeSequence t (List.Vector.replicate size.toNat t.zero)
      return data.toList : RxM (List t.Elem)) = extractVector t [] := by
  have hzeros : ∀ size, List.Vector.replicate size t.zero = resize t [] size := fun size => by
    refine List.Vector.ext fun i => ?_
    rw [resize, List.Vector.get_ofFn, List.Vector.get_replicate]
    rfl
  simp only [hzeros]
  rfl

/-- The same for a vector of strings that is assigned to an array. -/
lemma agrees_array {α : Type} [Zero α] [DecidableEq α] (t : FieldType)
    (strings : List t.Elem → List (List α)) {size : ℕ} {field w : List.Vector (List α) size}
    {s s' : RxStream}
    (h : (extractVector t [] >>= fun v => liftM (assignVector (strings v) size)) s = .ok (w, s')) :
    (assignVectorInPlace (strings (extractVectorInPlace U t [] s).1) field,
      if size ≤ (strings (extractVectorInPlace U t [] s).1).length then
        (extractVectorInPlace U t [] s).2 else none) = (w, some s') := by
  obtain ⟨v, s₁, hv, h⟩ := bind_ok h
  rw [agrees_extractVector U t _ _ _ _ hv]
  cases hassign : assignVector (strings v) size with
  | error e =>
    rw [hassign] at h
    cases h
  | ok w' =>
    rw [hassign] at h
    obtain ⟨rfl, rfl⟩ := Prod.mk.inj (Except.ok.inj h)
    obtain ⟨hsize, hfield⟩ := agrees_assignVector field hassign
    rw [hfield, if_pos hsize]

/-- The same for a function of what is read. -/
lemma agrees_map {α β : Type} {left : Overwrite α} {read : α → RxM α} (hread : left.Agrees read)
    {x : α} {f : α → β} {y : β} {s s' : RxStream}
    (h : (read x >>= fun z => pure (f z)) s = .ok (y, s')) :
    (f (left x s).1, (left x s).2) = (y, some s') := by
  obtain ⟨z, s₁, hz, h⟩ := bind_ok h
  obtain ⟨rfl, rfl⟩ := Prod.mk.inj (Except.ok.inj h)
  rw [hread x s z s₁ hz]

end C

lemma agrees_c (t : FieldType) (k : Kind) :
    (C.deserializeFieldInPlace U t k).Agrees (c.deserializeField t k) := by
  cases k with
  | scalar =>
    intro x s y s' h
    cases t
    case string => exact C.agrees_map (agrees_extract U .string) h
    case wstring => exact C.agrees_map (agrees_extract U .wstring) h
    all_goals exact agrees_extract U _ _ _ _ _ h
  | fixed size hsize =>
    intro xs s ys s' h
    have hitems : ∀ t, (InPlace.update (extractInPlace U t)).Agrees
        (deserializeSequence t (n := size)) := fun t => (agrees_extract U t).update
    cases t
    case string => exact C.agrees_array U .string id h
    case wstring => exact C.agrees_array U .wstring id h
    all_goals exact hitems _ _ _ _ _ h
  | sequence bound =>
    intro v s w s' h
    cases t
    case string => exact C.agrees_map (agrees_extractVector U .string) h
    case wstring => exact C.agrees_map (agrees_extractVector U .wstring) h
    all_goals
      refine agrees_extractVector U _ _ _ _ _ ?_
      rw [← C.sequence_eq_extractVector]
      exact h

lemma agrees_deserializeField (language : Language) (t : FieldType) (k : Kind) :
    (language.deserializeFieldInPlace U t k).Agrees
      (language.typeSupport.deserializeField t k) := by
  cases language with
  | c => exact agrees_c U t k
  | cpp => exact agrees_cpp U t k

lemma agrees_deserializeMessages {α : Type} {left : Overwrite α} {read : α → RxM α}
    (h : left.Agrees read) (initial : α) (k : Kind) :
    (deserializeMessagesInPlace U left initial k).Agrees (deserializeMessages read initial k) := by
  cases k with
  | scalar => exact h
  | fixed size hsize => exact h.update
  | sequence bound =>
    intro xs s ys s' hread
    obtain ⟨size, s₁, hsize, hread⟩ := bind_ok hread
    obtain ⟨items, s₂, hitems, hread⟩ := bind_ok hread
    obtain ⟨rfl, rfl⟩ := Prod.mk.inj (Except.ok.inj hread)
    obtain ⟨rfl, rfl⟩ := lengthRead_of_ok U hsize
    simp only [deserializeMessagesInPlace, h.update _ _ _ _ hitems]

/-- Where `deserialize` returns, what it returns is what it leaves, and nothing undefined
plays a part. -/
theorem agrees_deserialize (language : Language) (initial : (M : MessageMembers) → Msg M) :
    ∀ M : MessageMembers, (deserializeInPlace U language initial M).Agrees
      (deserialize language.typeSupport initial M)
  | .nil => by
    rintro msg s y s' ⟨⟩
    rfl
  | .field flags (.streamed t) rest =>
    (agrees_deserializeField U language t flags.kind).prod
      (agrees_deserialize language initial rest)
  | .field _ .octet rest => by
    intro msg s y s' h
    obtain ⟨msg', s₁, hmsg, h⟩ := bind_ok h
    obtain ⟨rfl, rfl⟩ := Prod.mk.inj (Except.ok.inj h)
    have hleft := agrees_deserialize language initial rest _ _ _ _ hmsg
    simp only [deserializeInPlace, hleft]
  | .field _ .longDouble _ | .field _ .wchar _ => by
    intro msg s y s' h
    cases h
  | .message flags sub rest =>
    (agrees_deserializeMessages U (agrees_deserialize language initial sub) (initial sub)
      flags.kind).prod (agrees_deserialize language initial rest)

end

end MessageSerialization
end RmwDesert
