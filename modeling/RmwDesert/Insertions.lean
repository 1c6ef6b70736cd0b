/-
Sequences of insertions, and the extractions that match them.

An insertion is an `operator<<` with its operand, and an extraction an `operator>>` with its
destination; the operators of the two builds are overloads for the same types.
-/
import RmwDesert.InterpretPackets

namespace RmwDesert

open Reader

/-- An `operator<<` with its operand, or an `operator>>` with its destination. -/
inductive Insertion
  | scalar (t : FieldType) (x : t.Elem)
  | vector (t : FieldType) (v : List t.Elem)

namespace Insertion

/-- An extraction matches an insertion if its destination has the type of the operand. -/
inductive SameShape : Insertion → Insertion → Prop
  | scalar (t : FieldType) (x y : t.Elem) : SameShape (.scalar t x) (.scalar t y)
  | vector (t : FieldType) (v w : List t.Elem) : SameShape (.vector t v) (.vector t w)

/-- The type of the operand, or of its elements. -/
def type : Insertion → FieldType
  | scalar t _ | vector t _ => t

/-- The fields that the NanoCBOR build inserts. -/
def fields : Insertion → List Field
  | scalar t x => [TxStream.insert t x]
  | vector t v => TxStream.insertVector t v

/-- The fields, each with the type of the operand. -/
def typedFields (i : Insertion) : List (FieldType × Field) := i.fields.map fun f => (i.type, f)

/-- The inserted value, up to the precision of a `double`. -/
def rounded : Insertion → Insertion
  | scalar t x => scalar t (t.rounded x)
  | vector t v => vector t (v.map t.rounded)

section

variable {σ : Type} (extract : (t : FieldType) → t.Elem → StateT σ (Except Failure) t.Elem)
  (extractVector : (t : FieldType) → List t.Elem → StateT σ (Except Failure) (List t.Elem))

/-- One extraction, given the operators of a build. -/
def extractInto : Insertion → StateT σ (Except Failure) Insertion
  | scalar t x => do return scalar t (← extract t x)
  | vector t v => do return vector t (← extractVector t v)

/-- A sequence of extractions. -/
def extractAll : List Insertion → StateT σ (Except Failure) (List Insertion)
  | [] => pure []
  | dest :: dests => do
    let x ← extractInto extract extractVector dest
    let xs ← extractAll dests
    return x :: xs

end
end Insertion


/-- Every type has a value other than the given one. -/
lemma FieldType.exists_ne (t : FieldType) (x : t.Elem) : ∃ y, y ≠ x := by
  obtain ⟨a, b, hab⟩ : ∃ a b : t.Elem, a ≠ b := by
    cases t with
    | string => exact ⟨([] : List UInt8), [0], (List.cons_ne_nil _ _).symm⟩
    | wstring => exact ⟨([] : List UInt16), [0], (List.cons_ne_nil _ _).symm⟩
    | bool => exact ⟨false, true, Bool.false_ne_true⟩
    | uint8 | char => exact ⟨(0 : UInt8), 1, by decide⟩
    | uint16 => exact ⟨(0 : UInt16), 1, by decide⟩
    | uint32 | float => exact ⟨(0 : UInt32), 1, by decide⟩
    | uint64 | double => exact ⟨(0 : UInt64), 1, by decide⟩
    | int8 => exact ⟨(0 : Int8), 1, by decide⟩
    | int16 => exact ⟨(0 : Int16), 1, by decide⟩
    | int32 => exact ⟨(0 : Int32), 1, by decide⟩
    | int64 => exact ⟨(0 : Int64), 1, by decide⟩
  by_cases h : a = x
  · exact ⟨b, fun hb => hab (h.trans hb.symm)⟩
  · exact ⟨a, h⟩

/-! ## Values with other floats -/

/-- The floats of the streams are finite; a `double` is inserted as a `float`. -/
def FieldType.Finite : (t : FieldType) → t.Elem → Prop
  | .float => Binary.Finite
  | .double => fun (d : UInt64) => Binary.Finite (Binary.narrow d)
  | .uint8 | .uint16 | .uint32 | .uint64 | .int8 | .int16 | .int32 | .int64 | .char | .bool
  | .string | .wstring => fun _ => True

/-- The values that the streams are meant to carry. -/
structure FieldType.Admissible (t : FieldType) (x : t.Elem) : Prop where
  wellFormed : t.WellFormed x
  nulFree : t.NulFree x
  finite : t.Finite x

/-- A value whose float is changed on the way. -/
def FieldType.through (φ : UInt32 → UInt32) : (t : FieldType) → t.Elem → t.Elem
  | .float => φ
  | .double => fun (d : UInt64) => Binary.widen (φ (Binary.narrow d))
  | .uint8 | .uint16 | .uint32 | .uint64 | .int8 | .int16 | .int32 | .int64 | .char | .bool
  | .string | .wstring => id

/-- A field whose float is changed on the way. -/
def Field.through (φ : UInt32 → UInt32) : Field → Field
  | .float bits => .float (φ bits)
  | .uint n => .uint n
  | .nint n => .nint n
  | .tstr s => .tstr s

section Through

variable {φ : UInt32 → UInt32} {t : FieldType} {x : t.Elem}

lemma through_insertInt64 (φ : UInt32 → UInt32) (n : Int64) :
    (TxStream.insertInt64 n).through φ = TxStream.insertInt64 n := by
  unfold TxStream.insertInt64
  split_ifs <;> rfl

lemma finite_of_insert (hx : t.Finite x) {bits : UInt32}
    (h : TxStream.insert t x = .float bits) : Binary.Finite bits := by
  have hint : ∀ n : Int64, TxStream.insertInt64 n ≠ .float bits := by
    intro n
    unfold TxStream.insertInt64
    split_ifs <;> exact Field.noConfusion
  cases t with
  | float => exact Field.float.inj h ▸ hx
  | double => exact Field.float.inj h ▸ hx
  | int8 | int16 | int32 | int64 => exact absurd h (hint _)
  | uint8 | uint16 | uint32 | uint64 | char | bool | string | wstring => cases h

/-- The change of a value is the change of its field. -/
lemma insert_through (hφ : ∀ bits, Binary.Finite bits → Binary.Finite (φ bits))
    (hx : t.Finite x) :
    TxStream.insert t (t.through φ x) = (TxStream.insert t x).through φ := by
  cases t with
  | double => exact congrArg Field.float (Binary.narrow_widen (hφ _ hx))
  | int8 | int16 | int32 | int64 => exact (through_insertInt64 φ _).symm
  | uint8 | uint16 | uint32 | uint64 | char | bool | string | wstring | float => rfl

lemma rounded_through (hφ : ∀ bits, Binary.Finite bits → Binary.Finite (φ bits))
    (hx : t.Finite x) : t.rounded (t.through φ x) = t.through φ x := by
  cases t with
  | double => exact congrArg Binary.widen (Binary.narrow_widen (hφ _ hx))
  | int8 | int16 | int32 | int64 | uint8 | uint16 | uint32 | uint64 | char | bool | string
  | wstring | float => rfl

lemma FieldType.Admissible.through (hφ : ∀ bits, Binary.Finite bits → Binary.Finite (φ bits))
    (hx : t.Admissible x) : t.Admissible (t.through φ x) := by
  cases t with
  | float => exact ⟨trivial, trivial, hφ _ hx.finite⟩
  | double =>
    refine ⟨trivial, trivial, ?_⟩
    show Binary.Finite (Binary.narrow (Binary.widen (φ (Binary.narrow x))))
    rw [Binary.narrow_widen (hφ _ hx.finite)]
    exact hφ _ hx.finite
  | int8 | int16 | int32 | int64 | uint8 | uint16 | uint32 | uint64 | char | bool | string
  | wstring => exact hx

/-- A value survives if its float is not changed. -/
lemma through_eq_rounded_iff (hx : t.Finite x) :
    t.through φ x = t.rounded x ↔ (TxStream.insert t x).through φ = TxStream.insert t x := by
  cases t with
  | float => exact ⟨fun h => congrArg Field.float h, fun h => Field.float.inj h⟩
  | double =>
    exact (Binary.widen_eq_iff hx).trans
      ⟨fun h => congrArg Field.float h, fun h => Field.float.inj h⟩
  | int8 | int16 | int32 | int64 => exact ⟨fun _ => through_insertInt64 φ _, fun _ => rfl⟩
  | uint8 | uint16 | uint32 | uint64 | char | bool | string | wstring =>
    exact ⟨fun _ => rfl, fun _ => rfl⟩

end Through

namespace Insertion

/-- The operands that the streams are meant to carry. -/
def Admissible : Insertion → Prop
  | scalar t x => t.Admissible x
  | vector t v => ∀ x ∈ v, t.Admissible x

/-- An insertion of other floats. -/
def through (φ : UInt32 → UInt32) : Insertion → Insertion
  | scalar t x => scalar t (t.through φ x)
  | vector t v => vector t (v.map (t.through φ))

@[simp] lemma type_through (φ : UInt32 → UInt32) (i : Insertion) : (i.through φ).type = i.type := by
  cases i <;> rfl

lemma sameShape_refl (insertions : List Insertion) :
    List.Forall₂ SameShape insertions insertions := by
  refine List.forall₂_same.mpr fun i _ => ?_
  cases i with
  | scalar t x => exact .scalar t x x
  | vector t v => exact .vector t v v

lemma SameShape.through (φ : UInt32 → UInt32) {dest i : Insertion} (h : SameShape dest i) :
    SameShape dest (i.through φ) := by
  cases h with
  | scalar t x y => exact .scalar t x _
  | vector t v w => exact .vector t v _

section

variable {φ : UInt32 → UInt32} {i : Insertion} (hi : i.Admissible)

include hi

lemma fields_through (hφ : ∀ bits, Binary.Finite bits → Binary.Finite (φ bits)) :
    (i.through φ).fields = i.fields.map (Field.through φ) := by
  cases i with
  | scalar t x => exact congrArg (fun f => [f]) (insert_through hφ hi.finite)
  | vector t v =>
    simp only [through, fields, TxStream.insertVector, TxStream.serializeSequence, List.map_map,
      List.length_map, List.map_cons]
    exact congrArg (_ :: ·) (List.map_congr_left fun x hx => insert_through hφ (hi x hx).finite)

lemma Admissible.through (hφ : ∀ bits, Binary.Finite bits → Binary.Finite (φ bits)) :
    (i.through φ).Admissible := by
  cases i with
  | scalar t x => exact FieldType.Admissible.through hφ hi
  | vector t v =>
    exact List.forall_mem_map.mpr fun x hx => FieldType.Admissible.through hφ (hi x hx)

lemma rounded_through (hφ : ∀ bits, Binary.Finite bits → Binary.Finite (φ bits)) :
    (i.through φ).rounded = i.through φ := by
  cases i with
  | scalar t x => exact congrArg (scalar t) (RmwDesert.rounded_through hφ hi.finite)
  | vector t v =>
    simp only [through, rounded, List.map_map]
    exact congrArg (vector t)
      (List.map_congr_left fun x hx => RmwDesert.rounded_through hφ (hi x hx).finite)

/-- An operand survives if its floats are not changed. -/
lemma through_eq_rounded_iff :
    i.through φ = i.rounded ↔ ∀ f ∈ i.fields, f.through φ = f := by
  cases i with
  | scalar t x =>
    have hx := RmwDesert.through_eq_rounded_iff (φ := φ) hi.finite
    simp only [through, rounded, fields, List.mem_singleton, forall_eq, ← hx, scalar.injEq,
      heq_eq_eq, true_and]
  | vector t v =>
    have hv : v.map (t.through φ) = v.map t.rounded ↔
        ∀ x ∈ v, (TxStream.insert t x).through φ = TxStream.insert t x := by
      rw [List.map_inj_left]
      exact forall₂_congr fun x hx => RmwDesert.through_eq_rounded_iff (hi x hx).finite
    simp only [through, rounded, fields, TxStream.insertVector, TxStream.serializeSequence,
      List.forall_mem_cons, List.forall_mem_map, vector.injEq, heq_eq_eq, true_and, hv]
    exact ⟨fun h => ⟨rfl, h⟩, fun h => h.2⟩

end

/-- A sequence of operands survives if none of its floats is changed. -/
lemma map_through_eq_iff {φ : UInt32 → UInt32} {insertions : List Insertion}
    (h : ∀ i ∈ insertions, i.Admissible) :
    insertions.map (through φ) = insertions.map rounded ↔
      ∀ f ∈ insertions.flatMap fields, f.through φ = f := by
  rw [List.map_inj_left]
  constructor
  · intro heq f hf
    obtain ⟨i, hi, hf⟩ := List.mem_flatMap.mp hf
    exact (through_eq_rounded_iff (h i hi)).mp (heq i hi) f hf
  · intro hall i hi
    exact (through_eq_rounded_iff (h i hi)).mpr fun f hf =>
      hall f (List.mem_flatMap.mpr ⟨i, hi, hf⟩)

/-- Extractions that undo their insertions undo a sequence of them. -/
lemma reads_extractAll {σ τ : Type} [Cursor σ τ]
    {extract : (t : FieldType) → t.Elem → StateT σ (Except Failure) t.Elem}
    {extractVector : (t : FieldType) → List t.Elem → StateT σ (Except Failure) (List t.Elem)}
    {toks : Insertion → List τ} {value : Insertion → Insertion} {dests insertions : List Insertion}
    (hshape : List.Forall₂ SameShape dests insertions)
    (h : ∀ i ∈ insertions, ∀ dest, SameShape dest i →
      Reads (extractInto extract extractVector dest) True (toks i) (value i)) :
    Reads (extractAll extract extractVector dests) True (insertions.flatMap toks)
      (insertions.map value) := by
  induction hshape with
  | nil => exact reads_pure []
  | @cons dest i dests insertions hfirst _ ih =>
    have hread := h i (by simp) dest hfirst
    have hrest := (ih fun j hj => h j (by simp [hj])).map fun xs => value i :: xs
    exact hread.bind_of_true hrest

end Insertion

/-! ## The fields of insertions -/

namespace Insertion

lemma streamed_fields (i : Insertion) : ∀ f ∈ i.fields, f.Streamed := by
  cases i with
  | scalar t x =>
    intro f hf
    obtain rfl := List.mem_singleton.mp hf
    exact TxStream.streamed_insert t x
  | vector t v => exact TxStream.streamed_insertVector t v

lemma streamed_flatMap (insertions : List Insertion) :
    ∀ f ∈ insertions.flatMap fields, f.Streamed := by
  intro f hf
  obtain ⟨i, -, hf⟩ := List.mem_flatMap.mp hf
  exact i.streamed_fields f hf

lemma finite_of_fields {i : Insertion} (hi : i.Admissible) {bits : UInt32}
    (h : Field.float bits ∈ i.fields) : Binary.Finite bits := by
  cases i with
  | scalar t x => exact finite_of_insert hi.finite (List.mem_singleton.mp h).symm
  | vector t v =>
    rcases List.mem_cons.mp h with hsize | h
    · cases hsize
    · obtain ⟨x, hx, hinsert⟩ := List.mem_map.mp h
      exact finite_of_insert (hi x hx).finite hinsert

lemma length_fields_le {i : Insertion} {insertions : List Insertion} (hi : i ∈ insertions) :
    i.fields.length ≤ (insertions.flatMap fields).length := by
  obtain ⟨before, after, rfl⟩ := List.append_of_mem hi
  simp only [List.flatMap_append, List.flatMap_cons, List.length_append]
  omega

lemma length_typedFields (i : Insertion) : i.typedFields.length = i.fields.length :=
  List.length_map ..

lemma length_fields_vector (t : FieldType) (v : List t.Elem) :
    (vector t v).fields.length = v.length + 1 := by
  rw [fields, TxStream.insertVector, List.length_cons, TxStream.length_serializeSequence]

@[simp] lemma length_fields_through (φ : UInt32 → UInt32) (i : Insertion) :
    (i.through φ).fields.length = i.fields.length := by
  cases i with
  | scalar t x => rfl
  | vector t v => rw [through, length_fields_vector, length_fields_vector, List.length_map]

lemma map_snd_typedFields (insertions : List Insertion) :
    (insertions.flatMap typedFields).map Prod.snd = insertions.flatMap fields := by
  rw [List.map_flatMap]
  refine List.flatMap_congr fun i _ => ?_
  rw [typedFields, List.map_map]
  exact List.map_id _

/-- Every insertion has a field. -/
lemma forall_type_iff {insertions : List Insertion} {p : FieldType → Prop} :
    (∀ m ∈ insertions.flatMap typedFields, p m.1) ↔ ∀ i ∈ insertions, p i.type := by
  constructor
  · intro h i hi
    have hfield : ∃ f, f ∈ i.fields := by
      cases i with
      | scalar t x => exact ⟨_, List.mem_singleton_self _⟩
      | vector t v => exact ⟨_, List.mem_cons_self⟩
    obtain ⟨f, hf⟩ := hfield
    exact h (i.type, f) (List.mem_flatMap.mpr ⟨i, hi, List.mem_map_of_mem hf⟩)
  · intro h m hm
    obtain ⟨i, hi, hm⟩ := List.mem_flatMap.mp hm
    obtain ⟨f, -, rfl⟩ := List.mem_map.mp hm
    exact h i hi

/-- A `double` is rounded when it is inserted. -/
lemma typedFields_rounded (i : Insertion) : i.rounded.typedFields = i.typedFields := by
  have hinsert : ∀ (t : FieldType) (x : t.Elem),
      TxStream.insert t (t.rounded x) = TxStream.insert t x := by
    intro t x
    cases t
    case double => exact congrArg Field.float (Binary.narrow_widen_narrow x)
    all_goals rfl
  cases i with
  | scalar t x => exact congrArg (fun f => [(t, f)]) (hinsert t x)
  | vector t v =>
    simp only [rounded, typedFields, type, fields, TxStream.insertVector,
      TxStream.serializeSequence, List.map_map, List.length_map]
    exact congrArg (fun l => (_ :: l).map _) (List.map_congr_left fun x _ => hinsert t x)

lemma SameShape.of_rounded {dest i : Insertion} (h : SameShape dest i.rounded) :
    SameShape dest i := by
  cases i with
  | scalar t x =>
    cases h with
    | scalar _ y => exact .scalar t y x
  | vector t v =>
    cases h with
    | vector _ w => exact .vector t w v

end Insertion

/-! ## Extraction with NanoCBOR -/

open Insertion (extractInto SameShape)

/-- Overload resolution among the operators for vectors. -/
def RxStream.extractAnyVector : (t : FieldType) → List t.Elem → RxM (List t.Elem)
  | .bool, v => RxStream.extractBoolVector v
  | t, v => RxStream.extractVector t v

/-- The NanoCBOR build reads back what it inserts, booleans apart. -/
lemma reads_nano {i dest : Insertion} (hshape : SameShape dest i) (hi : i.Admissible)
    (hbool : i.type ≠ .bool) (hlen : i.fields.length ≤ 2 ^ 32) :
    Reads (extractInto RxStream.extract RxStream.extractAnyVector dest) True i.fields
      i.rounded := by
  cases hshape with
  | scalar t x y =>
    exact (RxStream.reads_extract t y x hi.wellFormed).map (Insertion.scalar t)
  | vector t v w =>
    have hoverload : RxStream.extractAnyVector t v = RxStream.extractVector t v := by
      cases t
      case bool => exact absurd rfl hbool
      all_goals rfl
    have hw : w.length < 2 ^ 32 := by
      rw [Insertion.length_fields_vector] at hlen
      omega
    have hread := RxStream.reads_extractVector t w v hw fun x hx => (hi x hx).wellFormed
    show Reads (RxStream.extractAnyVector t v >>= fun y => pure (Insertion.vector t y)) True _ _
    rw [hoverload]
    exact hread.map (Insertion.vector t)

end RmwDesert
