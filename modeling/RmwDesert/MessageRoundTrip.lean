/-
Deserialization undoes serialization.

`FieldLaw` says that `deserialize_field` undoes `serialize_field` of a type support on the
fields in a domain, and fails on those that are not readable.  `reads_deserialize` lifts it
to messages by induction on the description: one case for each constructor, and inside a
message member one rule for the loop over its elements.
-/
import RmwDesert.Lib.Transition
import RmwDesert.MessageSerialization

namespace RmwDesert
namespace MessageSerialization

open Reader RxStream
open Transition (bind_eq_ok)

/-- A condition on the members of a message, by element type and form. -/
abbrev MemberCondition := (t : FieldType) → (k : Kind) → k.Value t.Elem → Prop

/-- What the walk needs from `serialize_field` and `deserialize_field`. -/
structure FieldLaw (ts : TypeSupport) (Domain Readable : MemberCondition) : Prop where
  reads : ∀ {t : FieldType} {k : Kind} {x : k.Value t.Elem} (dest : k.Value t.Elem),
    Domain t k x → (k.items x).length < 2 ^ 32 →
    Reads (ts.deserializeField t k dest) (Readable t k x) (ts.serializeField t k x)
      (k.map t.rounded x)
  length_items_le : ∀ (t : FieldType) (k : Kind) (x : k.Value t.Elem),
    (k.items x).length ≤ (ts.serializeField t k x).length
  ne_nil : ∀ (t : FieldType) (k : Kind) (x : k.Value t.Elem), ts.serializeField t k x ≠ []
  streamed : ∀ (t : FieldType) (k : Kind) (x : k.Value t.Elem),
    ∀ f ∈ ts.serializeField t k x, f.Streamed

/-- The length that precedes the elements of a member. -/
def lengthFields : Kind → ℕ → List Field
  | .scalar, _ | .fixed _ _, _ => []
  | .sequence _, n => [TxStream.insert .uint32 (UInt32.ofNat n)]

lemma streamed_lengthFields (k : Kind) (n : ℕ) : ∀ f ∈ lengthFields k n, f.Streamed := by
  cases k with
  | scalar | fixed size h => simp [lengthFields]
  | sequence bound => simpa [lengthFields] using TxStream.streamed_insert .uint32 _

/-! ## The loop over the elements of a member -/

section Elements

variable {α : Type} {write : α → Except Failure (List Field)}

/-- The fields that an element writes. -/
def written (write : α → Except Failure (List Field)) (x : α) : List Field :=
  match write x with
  | .ok fields => fields
  | .error _ => []

lemma written_of_ok {x : α} {fields : List Field} (h : write x = .ok fields) :
    written write x = fields := by
  rw [written, h]

lemma serializeAll_ok {xs : List α} {fields : List Field}
    (h : serializeAll write xs = .ok fields) :
    (∀ x ∈ xs, write x = .ok (written write x)) ∧ fields = xs.flatMap (written write) := by
  induction xs generalizing fields with
  | nil =>
    obtain rfl : [] = fields := Except.ok.inj h
    exact ⟨by simp, rfl⟩
  | cons x xs ih =>
    obtain ⟨first, hx, h⟩ := bind_eq_ok.mp h
    obtain ⟨others, hxs, h⟩ := bind_eq_ok.mp h
    obtain rfl : first ++ others = fields := Except.ok.inj h
    obtain ⟨hall, rfl⟩ := ih hxs
    have hfirst := written_of_ok hx
    refine ⟨?_, by rw [List.flatMap_cons, hfirst]⟩
    simp only [List.mem_cons, forall_eq_or_imp]
    exact ⟨by rw [hfirst, hx], hall⟩

/-- The fields of a message member: the length, if there is one, and the elements. -/
lemma serializeMessages_ok {k : Kind} {xs : k.Value α} {fields : List Field}
    (h : serializeMessages write k xs = .ok fields) :
    (∀ x ∈ k.items xs, write x = .ok (written write x)) ∧
      fields = lengthFields k (k.items xs).length ++ (k.items xs).flatMap (written write) := by
  cases k with
  | scalar =>
    have hxs : write xs = .ok fields := h
    simp [Kind.items, lengthFields, written_of_ok hxs, hxs]
  | fixed size hsize => exact serializeAll_ok h
  | sequence bound =>
    simp only [serializeMessages] at h
    split_ifs at h with hbound
    obtain ⟨others, hall, h⟩ := bind_eq_ok.mp h
    obtain ⟨hok, rfl⟩ := serializeAll_ok hall
    exact ⟨hok, (Except.ok.inj h).symm⟩

/-- The fields of one element are among the fields of the member. -/
lemma length_written_le {k : Kind} {xs : k.Value α} {fields : List Field}
    (h : serializeMessages write k xs = .ok fields) {x : α} (hx : x ∈ k.items xs) :
    (written write x).length ≤ fields.length := by
  obtain ⟨-, rfl⟩ := serializeMessages_ok h
  obtain ⟨before, after, hsplit⟩ := List.append_of_mem hx
  rw [hsplit]
  simp only [List.flatMap_append, List.flatMap_cons, List.length_append]
  omega

/-- Elements that each write something are at most as many as the fields. -/
lemma length_le_length_flatMap {xs : List α} {f : α → List Field} (h : ∀ x ∈ xs, f x ≠ []) :
    xs.length ≤ (xs.flatMap f).length := by
  induction xs with
  | nil => simp
  | cons x xs ih =>
    have hx : 0 < (f x).length := List.length_pos_iff.mpr (h x (by simp))
    have hxs := ih fun y hy => h y (by simp [hy])
    simp only [List.flatMap_cons, List.length_append, List.length_cons]
    omega

/-- The rule of the loop over the elements of a message member. -/
lemma reads_deserializeMessages {read : α → RxM α} {Readable : α → Prop} {f : α → α}
    (initial : α) {k : Kind} {xs : k.Value α} (dest : k.Value α) {fields : List Field}
    (hread : ∀ x ∈ k.items xs, ∀ d,
      Reads (read d) (Readable x) (written write x) (f x))
    (hne : ∀ x ∈ k.items xs, written write x ≠ [])
    (h : serializeMessages write k xs = .ok fields) (hlen : fields.length < 2 ^ 32) :
    Reads (deserializeMessages read initial k dest) (∀ x ∈ k.items xs, Readable x) fields
      (k.map f xs) := by
  obtain ⟨-, rfl⟩ := serializeMessages_ok h
  have hcount := length_le_length_flatMap hne
  cases k with
  | scalar =>
    simp only [Kind.items, List.mem_singleton, forall_eq, lengthFields, List.nil_append,
      List.flatMap_singleton] at hread ⊢
    exact hread dest
  | fixed size hsize => exact reads_update xs dest hread
  | sequence bound =>
    have hsize : (UInt32.ofNat (List.length xs)).toNat = List.length xs := by
      refine toNat_ofNat_length (lt_of_le_of_lt ?_ hlen)
      simp only [List.length_append]
      exact hcount.trans (Nat.le_add_left _ _)
    -- the vector of the received size
    let items : List.Vector α (UInt32.ofNat (List.length xs)).toNat := ⟨xs, hsize.symm⟩
    have hitems := reads_update items (List.Vector.replicate _ initial) hread
    exact (reads_extractUint32 _).bind_of_true (hitems.map List.Vector.toList)

end Elements

/-! ## The walk -/

section Walk

variable {ts : TypeSupport} {Domain Readable : MemberCondition}

/-- A message type with members that are all streamed writes at least one field. -/
lemma serialize_ne_nil (law : FieldLaw ts Domain Readable) : ∀ (M : MessageMembers) (msg : Msg M)
    {fields : List Field}, M ≠ .nil → M.Populated → M.OctetFree →
    serialize ts M msg = .ok fields → fields ≠ []
  | .nil, _, _, hM, _, _, _ => absurd rfl hM
  | .field flags (.streamed t) rest, (x, msg), fields, _, _, _, h => by
    obtain ⟨others, -, h⟩ := bind_eq_ok.mp h
    obtain rfl : ts.serializeField t flags.kind x ++ others = fields := Except.ok.inj h
    exact List.append_ne_nil_of_left_ne_nil (law.ne_nil t flags.kind x) _
  | .field _ .octet _, _, _, _, _, hoctet, _ => absurd rfl hoctet.1
  | .field _ .longDouble _, _, _, _, _, _, h | .field _ .wchar _, _, _, _, _, _, h => by cases h
  | .message flags sub rest, (xs, msg), fields, _, hpop, hoctet, h => by
    obtain ⟨first, hfirst, h⟩ := bind_eq_ok.mp h
    obtain ⟨others, -, h⟩ := bind_eq_ok.mp h
    obtain rfl : first ++ others = fields := Except.ok.inj h
    obtain ⟨hok, rfl⟩ := serializeMessages_ok hfirst
    refine List.append_ne_nil_of_left_ne_nil ?_ _
    by_cases hsequence : ∃ bound, flags.kind = .sequence bound
    · obtain ⟨bound, hkind⟩ := hsequence
      simp [hkind, lengthFields]
    · -- a single message or a positive number of them
      have hitems := Kind.items_ne_nil (fun b hb => hsequence ⟨b, hb⟩) xs
      obtain ⟨x, hx⟩ := List.exists_mem_of_ne_nil _ hitems
      have hsub := serialize_ne_nil law sub x hpop.1 hpop.2.1 hoctet.1 (hok x hx)
      refine List.append_ne_nil_of_right_ne_nil _ fun hnil => hsub ?_
      exact List.flatMap_eq_nil_iff.mp hnil x hx

/-- A message writes nothing but streamed fields. -/
lemma streamed_serialize (law : FieldLaw ts Domain Readable) : ∀ (M : MessageMembers)
    (msg : Msg M) {fields : List Field}, serialize ts M msg = .ok fields →
    ∀ f ∈ fields, f.Streamed
  | .nil, _, _, h => by
    obtain rfl := Except.ok.inj h
    simp
  | .field flags (.streamed t) rest, (x, msg), fields, h => by
    obtain ⟨others, hothers, h⟩ := bind_eq_ok.mp h
    obtain rfl : ts.serializeField t flags.kind x ++ others = fields := Except.ok.inj h
    intro f hf
    rcases List.mem_append.mp hf with hf | hf
    · exact law.streamed t flags.kind x f hf
    · exact streamed_serialize law rest msg hothers f hf
  | .field _ .octet rest, (_, msg), _, h => streamed_serialize law rest msg h
  | .field _ .longDouble _, _, _, h | .field _ .wchar _, _, _, h => by cases h
  | .message flags sub rest, (xs, msg), fields, h => by
    obtain ⟨first, hfirst, h⟩ := bind_eq_ok.mp h
    obtain ⟨others, hothers, h⟩ := bind_eq_ok.mp h
    obtain rfl : first ++ others = fields := Except.ok.inj h
    obtain ⟨hok, rfl⟩ := serializeMessages_ok hfirst
    intro f hf
    simp only [List.mem_append, List.mem_flatMap] at hf
    rcases hf with (hf | ⟨x, hx, hf⟩) | hf
    · exact streamed_lengthFields _ _ f hf
    · exact streamed_serialize law sub x (hok x hx) f hf
    · exact streamed_serialize law rest msg hothers f hf

/-- **Deserialization undoes serialization.** On the fields of a message whose members are
in the domain, `deserialize` returns the message if every member is readable and fails
otherwise. -/
theorem reads_deserialize (law : FieldLaw ts Domain Readable)
    (initial : (M : MessageMembers) → Msg M) : ∀ (M : MessageMembers) (msg dest : Msg M)
    {fields : List Field}, M.Populated → M.OctetFree → Msg.Forall Domain M msg →
    serialize ts M msg = .ok fields → fields.length < 2 ^ 32 →
    Reads (deserialize ts initial M dest) (Msg.Forall Readable M msg) fields (Msg.rounded M msg)
  | .nil, msg, dest, fields, _, _, _, h, _ => by
    obtain rfl : [] = fields := Except.ok.inj h
    exact reads_pure msg
  | .field flags (.streamed t) rest, (x, msg), (d, dest), fields, hpop, hoctet, hdom, h, hlen => by
    obtain ⟨others, hothers, h⟩ := bind_eq_ok.mp h
    obtain rfl : ts.serializeField t flags.kind x ++ others = fields := Except.ok.inj h
    rw [List.length_append] at hlen
    have hcount := law.length_items_le t flags.kind x
    have hfield := law.reads d hdom.1 (by omega)
    have hrest := reads_deserialize law initial rest msg dest hpop hoctet.2 hdom.2 hothers
      (by omega)
    exact hfield.bind (hrest.map fun m => (flags.kind.map t.rounded x, m))
  | .field _ .octet _, _, _, _, _, hoctet, _, _, _ => absurd rfl hoctet.1
  | .field _ .longDouble _, _, _, _, _, _, _, h, _
  | .field _ .wchar _, _, _, _, _, _, _, h, _ => by cases h
  | .message flags sub rest, (xs, msg), (d, dest), fields, hpop, hoctet, hdom, h, hlen => by
    obtain ⟨first, hfirst, h⟩ := bind_eq_ok.mp h
    obtain ⟨others, hothers, h⟩ := bind_eq_ok.mp h
    obtain rfl : first ++ others = fields := Except.ok.inj h
    rw [List.length_append] at hlen
    have hok := (serializeMessages_ok hfirst).1
    have hsub : ∀ x ∈ flags.kind.items xs, ∀ d', Reads (deserialize ts initial sub d')
        (Msg.Forall Readable sub x) (written (serialize ts sub) x) (Msg.rounded sub x) := by
      intro x hx d'
      have hle := length_written_le hfirst hx
      exact reads_deserialize law initial sub x d' hpop.2.1 hoctet.1 (hdom.1 x hx) (hok x hx)
        (by omega)
    have hne : ∀ x ∈ flags.kind.items xs, written (serialize ts sub) x ≠ [] := fun x hx =>
      serialize_ne_nil law sub x hpop.1 hpop.2.1 hoctet.1 (hok x hx)
    have hmessages := reads_deserializeMessages (initial sub) d hsub hne hfirst (by omega)
    have hrest := reads_deserialize law initial rest msg dest hpop.2.2 hoctet.2 hdom.2 hothers
      (by omega)
    exact hmessages.bind (hrest.map fun m => (flags.kind.map (Msg.rounded sub) xs, m))

end Walk

/-! ## The two type supports -/

/-- The wide strings of a member are well-formed. -/
def WellFormed : MemberCondition := fun t k x => ∀ y ∈ k.items x, t.WellFormed y

/-- The strings of a member have no terminator among their characters. -/
def NulFree : MemberCondition := fun t k x => ∀ y ∈ k.items x, t.NulFree y

/-- The member is not a non-empty sequence of booleans. -/
def BoolSequenceEmpty : MemberCondition
  | .bool, .sequence _, data => data = []
  | _, _, _ => True

lemma boolSequenceEmpty_of_ne {t : FieldType} (ht : t ≠ .bool) (k : Kind) (x : k.Value t.Elem) :
    BoolSequenceEmpty t k x := by
  cases t
  case bool => exact absurd rfl ht
  all_goals trivial

lemma cpp_fieldLaw : FieldLaw cpp WellFormed BoolSequenceEmpty where
  reads := by
    intro t k x dest hdom hlen
    cases k with
    | scalar =>
      have hread := reads_extract t x dest (hdom x (List.mem_singleton.mpr rfl))
      exact hread.congr (by cases t <;> exact (iff_true_intro trivial).symm)
    | fixed size hsize =>
      have hread := reads_deserializeSequence t x dest hdom
      exact hread.congr (by cases t <;> exact (iff_true_intro trivial).symm)
    | sequence bound =>
      by_cases ht : t = .bool
      · subst ht
        have hmap : Kind.map FieldType.bool.rounded (.sequence bound) x = x := List.map_id x
        rw [hmap]
        exact reads_extractBoolVector x hlen
      · have hread := reads_extractVector t x [] hlen hdom
        have htrue := iff_true_intro (boolSequenceEmpty_of_ne ht (.sequence bound) x)
        have hoverload : cpp.deserializeField t (.sequence bound) dest = extractVector t [] := by
          cases t
          case bool => exact absurd rfl ht
          all_goals rfl
        rw [hoverload]
        exact hread.congr htrue.symm
  length_items_le := by
    intro t k x
    cases k with
    | scalar => exact le_refl 1
    | fixed size hsize => exact le_of_eq (TxStream.length_serializeSequence t _).symm
    | sequence bound =>
      show List.length x ≤ (TxStream.serializeSequence t x).length + 1
      rw [TxStream.length_serializeSequence]
      exact Nat.le_succ _
  ne_nil := by
    intro t k x
    cases k with
    | scalar => exact List.cons_ne_nil _ _
    | fixed size hsize =>
      have hkind : ∀ bound, Kind.fixed size hsize ≠ .sequence bound := by simp
      exact fun h => Kind.items_ne_nil hkind x (List.map_eq_nil_iff.mp h)
    | sequence bound => exact List.cons_ne_nil _ _
  streamed := by
    intro t k x
    cases k with
    | scalar =>
      intro f hf
      obtain rfl := List.mem_singleton.mp hf
      exact TxStream.streamed_insert t x
    | fixed size hsize => exact TxStream.streamed_serializeSequence t _
    | sequence bound => exact TxStream.streamed_insertVector t x

/-- The element types with an implementation of their own on the C side. -/
def IsString (t : FieldType) : Prop := t = .string ∨ t = .wstring

instance (t : FieldType) : Decidable (IsString t) := inferInstanceAs (Decidable (_ ∨ _))

lemma c_serializeField_of_not_isString {t : FieldType} (ht : ¬ IsString t) (k : Kind)
    (x : k.Value t.Elem) : c.serializeField t k x = cpp.serializeField t k x := by
  cases t
  case string => exact absurd (Or.inl rfl) ht
  case wstring => exact absurd (Or.inr rfl) ht
  all_goals cases k <;> rfl

/-- The fields of a member of strings on the C side: arrays go through a vector, and carry
its length. -/
def stringFields (t : FieldType) : (k : Kind) → k.Value t.Elem → List Field
  | .scalar, x => [TxStream.insert t x]
  | .fixed _ _, xs => TxStream.insertVector t xs.toList
  | .sequence _, xs => TxStream.insertVector t xs

open CStringHelper (cString_of_zero_notMem map_cString_of_zero_notMem assignVector_toList)

lemma c_serializeField_of_isString {t : FieldType} (ht : IsString t) {k : Kind}
    {x : k.Value t.Elem} (hx : NulFree t k x) :
    c.serializeField t k x = stringFields t k x := by
  rcases ht with rfl | rfl
  · cases k with
    | scalar =>
      have hstr := cString_of_zero_notMem (hx x (List.mem_singleton.mpr rfl))
      exact congrArg (fun s => [TxStream.insert .string s]) hstr
    | fixed size hsize =>
      exact congrArg (TxStream.insertVector .string) (map_cString_of_zero_notMem hx)
    | sequence bound =>
      exact congrArg (TxStream.insertVector .string) (map_cString_of_zero_notMem hx)
  · cases k with
    | scalar =>
      have hstr := cString_of_zero_notMem (hx x (List.mem_singleton.mpr rfl))
      exact congrArg (fun s => [TxStream.insert .wstring s]) hstr
    | fixed size hsize =>
      exact congrArg (TxStream.insertVector .wstring) (map_cString_of_zero_notMem hx)
    | sequence bound =>
      exact congrArg (TxStream.insertVector .wstring) (map_cString_of_zero_notMem hx)

lemma reads_liftM {α : Type} {x : Except Failure α} {y : α} (h : x = .ok y) :
    Reads (liftM x : RxM α) True ([] : Fields) y := by
  rw [h]
  exact reads_pure y

/-- Strings without a terminator inside survive the passage through C++ vectors. -/
lemma reads_c_string {t : FieldType} (ht : IsString t) {k : Kind} {x : k.Value t.Elem}
    (dest : k.Value t.Elem) (hwf : WellFormed t k x) (hnul : NulFree t k x)
    (hlen : (k.items x).length < 2 ^ 32) :
    Reads (c.deserializeField t k dest) True (stringFields t k x) (k.map t.rounded x) := by
  rcases ht with rfl | rfl
  · cases k with
    | scalar =>
      have hread :=
        (reads_extract .string x ([] : List UInt8) trivial).map CStringHelper.assignString
      have hassign : CStringHelper.assignString (FieldType.string.rounded x) = x :=
        cString_of_zero_notMem (hnul x (List.mem_singleton.mpr rfl))
      rwa [hassign] at hread
    | fixed size hsize =>
      have hread := reads_extractVector .string x.toList [] hlen hwf
      have hlist : x.toList.map FieldType.string.rounded = x.toList := List.map_id _
      have hmap : Kind.map FieldType.string.rounded (.fixed size hsize) x = x :=
        List.Vector.toList_injective ((List.Vector.toList_map _ _).trans hlist)
      rw [hlist] at hread
      rw [hmap]
      exact hread.bind_nil (reads_liftM (assignVector_toList x hnul))
    | sequence bound =>
      have hread := reads_extractVector .string x [] hlen hwf
      have hlist : List.map FieldType.string.rounded x = x := List.map_id x
      have hassign : CStringHelper.assignVectorStringToSequence x = x :=
        map_cString_of_zero_notMem hnul
      have hcopy := hread.map CStringHelper.assignVectorStringToSequence
      rw [hlist, hassign] at hcopy
      have hmap : Kind.map FieldType.string.rounded (.sequence bound) x = x := hlist
      rw [hmap]
      exact hcopy
  · cases k with
    | scalar =>
      have hread := (reads_extract .wstring x ([] : List UInt16)
        (hwf x (List.mem_singleton.mpr rfl))).map CStringHelper.assignU16string
      have hassign : CStringHelper.assignU16string (FieldType.wstring.rounded x) = x :=
        cString_of_zero_notMem (hnul x (List.mem_singleton.mpr rfl))
      rwa [hassign] at hread
    | fixed size hsize =>
      have hread := reads_extractVector .wstring x.toList [] hlen hwf
      have hlist : x.toList.map FieldType.wstring.rounded = x.toList := List.map_id _
      have hmap : Kind.map FieldType.wstring.rounded (.fixed size hsize) x = x :=
        List.Vector.toList_injective ((List.Vector.toList_map _ _).trans hlist)
      rw [hlist] at hread
      rw [hmap]
      exact hread.bind_nil (reads_liftM (assignVector_toList x hnul))
    | sequence bound =>
      have hread := reads_extractVector .wstring x [] hlen hwf
      have hlist : List.map FieldType.wstring.rounded x = x := List.map_id x
      have hassign : CStringHelper.assignVectorU16stringToSequence x = x :=
        map_cString_of_zero_notMem hnul
      have hcopy := hread.map CStringHelper.assignVectorU16stringToSequence
      rw [hlist, hassign] at hcopy
      have hmap : Kind.map FieldType.wstring.rounded (.sequence bound) x = x := hlist
      rw [hmap]
      exact hcopy

lemma length_le_length_insertVector (t : FieldType) (v : List t.Elem) :
    v.length ≤ (TxStream.insertVector t v).length := by
  simp [TxStream.insertVector]

lemma c_fieldLaw :
    FieldLaw c (fun t k x => WellFormed t k x ∧ NulFree t k x) (fun _ _ _ => True) where
  reads := by
    rintro t k x dest ⟨hwf, hnul⟩ hlen
    by_cases ht : IsString t
    · rw [c_serializeField_of_isString ht hnul]
      exact reads_c_string ht dest hwf hnul hlen
    · rw [c_serializeField_of_not_isString ht]
      cases k with
      | scalar =>
        have hgeneric : c.deserializeField t .scalar dest = extract t dest := by
          cases t
          case string | wstring => simp [IsString] at ht
          all_goals rfl
        rw [hgeneric]
        exact reads_extract t x dest (hwf x (List.mem_singleton.mpr rfl))
      | fixed size hsize =>
        have hgeneric : c.deserializeField t (.fixed size hsize) dest
            = deserializeSequence t dest := by
          cases t
          case string | wstring => simp [IsString] at ht
          all_goals rfl
        rw [hgeneric]
        exact reads_deserializeSequence t x dest hwf
      | sequence bound =>
        have hgeneric : c.deserializeField t (.sequence bound) dest = (do
            let size ← extractUint32
            let data ← deserializeSequence t (List.Vector.replicate size.toNat t.zero)
            return data.toList) := by
          cases t
          case string | wstring => simp [IsString] at ht
          all_goals rfl
        rw [hgeneric]
        exact reads_lengthPrefixed t x (fun size => List.Vector.replicate size t.zero) hlen hwf
  length_items_le := by
    intro t k x
    by_cases ht : IsString t
    · rcases ht with rfl | rfl <;> cases k with
      | scalar => exact le_refl 1
      | fixed size hsize =>
        exact (le_of_eq (List.length_map _).symm).trans (length_le_length_insertVector _ _)
      | sequence bound =>
        exact (le_of_eq (List.length_map _).symm).trans (length_le_length_insertVector _ _)
    · rw [c_serializeField_of_not_isString ht]
      exact cpp_fieldLaw.length_items_le t k x
  ne_nil := by
    intro t k x
    by_cases ht : IsString t
    · rcases ht with rfl | rfl <;> cases k <;> exact List.cons_ne_nil _ _
    · rw [c_serializeField_of_not_isString ht]
      exact cpp_fieldLaw.ne_nil t k x
  streamed := by
    intro t k x
    by_cases ht : IsString t
    · intro f hf
      rcases ht with rfl | rfl
      · cases k with
        | scalar =>
          obtain rfl := List.mem_singleton.mp hf
          exact TxStream.streamed_insert _ _
        | fixed size hsize => exact TxStream.streamed_insertVector .string _ f hf
        | sequence bound => exact TxStream.streamed_insertVector .string _ f hf
      · cases k with
        | scalar =>
          obtain rfl := List.mem_singleton.mp hf
          exact TxStream.streamed_insert _ _
        | fixed size hsize => exact TxStream.streamed_insertVector .wstring _ f hf
        | sequence bound => exact TxStream.streamed_insertVector .wstring _ f hf
    · rw [c_serializeField_of_not_isString ht]
      exact cpp_fieldLaw.streamed t k x

/-! ## Both type supports -/

/-- The items of a serialized message come from the insertion operators. -/
lemma streamed_language (language : Language) {M : MessageMembers} {msg : Msg M} {fields : Fields}
    (h : serialize language.typeSupport M msg = .ok fields) : ∀ f ∈ fields, f.Streamed := by
  cases language with
  | c => exact streamed_serialize c_fieldLaw M msg h
  | cpp => exact streamed_serialize cpp_fieldLaw M msg h

end MessageSerialization
end RmwDesert
