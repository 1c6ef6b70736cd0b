/-
The bounds of sequences (`MessageSerialization.h`).

A member with `is_upper_bound_` holds at most `array_size_` items.  `serialize` tests this for
sequences of sub-messages and for no others; `deserialize` resizes every sequence to the length
that it reads, which is whatever an unassigned variable holds if the packet has no length there.
`bounds_enforced_iff` says for which messages and for which packets the bounds hold nevertheless.
-/
import RmwDesert.Lib.Transition
import RmwDesert.InPlaceReads

namespace RmwDesert
namespace MessageSerialization

open Reader RxStream

/-- The member holds no more items than its bound allows. -/
def KindWithin {α : Type} : (k : Kind) → k.Value α → Prop
  | .sequence (some bound), xs => List.length xs ≤ bound
  | .sequence none, _ | .scalar, _ | .fixed _ _, _ => True

/-- Every bounded sequence of the message is within its bound, at every depth. -/
def WithinBounds : (M : MessageMembers) → Msg M → Prop
  | .nil, _ => True
  | .field flags _ rest, (x, msg) => KindWithin flags.kind x ∧ WithinBounds rest msg
  | .message flags sub rest, (xs, msg) =>
    (KindWithin flags.kind xs ∧ ∀ x ∈ flags.kind.items xs, WithinBounds sub x) ∧
      WithinBounds rest msg

/-! ## Serialization -/

/-- The bounded sequences of other types than messages are within their bounds. -/
def FieldsWithin : (M : MessageMembers) → Msg M → Prop
  | .nil, _ => True
  | .field flags _ rest, (x, msg) => KindWithin flags.kind x ∧ FieldsWithin rest msg
  | .message flags sub rest, (xs, msg) =>
    (∀ x ∈ flags.kind.items xs, FieldsWithin sub x) ∧ FieldsWithin rest msg

/-- The bounded sequences of messages are within their bounds, and no member has a type without
a case. -/
def Accepted : (M : MessageMembers) → Msg M → Prop
  | .nil, _ => True
  | .field _ (.streamed _) rest, (_, msg) | .field _ .octet rest, (_, msg) => Accepted rest msg
  | .field _ .longDouble _, _ | .field _ .wchar _, _ => False
  | .message flags sub rest, (xs, msg) =>
    (KindWithin flags.kind xs ∧ ∀ x ∈ flags.kind.items xs, Accepted sub x) ∧ Accepted rest msg

lemma serializeAll_ok_iff {α : Type} {write : α → Except Failure (List Field)} {P : α → Prop}
    (h : ∀ x, (∃ fields, write x = .ok fields) ↔ P x) (xs : List α) :
    (∃ fields, serializeAll write xs = .ok fields) ↔ ∀ x ∈ xs, P x := by
  induction xs with
  | nil => exact iff_of_true ⟨[], rfl⟩ (by simp)
  | cons x xs ih =>
    rw [List.forall_mem_cons, ← h, ← ih, serializeAll]
    constructor
    · rintro ⟨all, hall⟩
      obtain ⟨fields, hfields, hall⟩ := Transition.bind_eq_ok.mp hall
      obtain ⟨others, hothers, -⟩ := Transition.bind_eq_ok.mp hall
      exact ⟨⟨fields, hfields⟩, others, hothers⟩
    · rintro ⟨⟨fields, hfields⟩, others, hothers⟩
      exact ⟨fields ++ others, by rw [hfields, hothers]; rfl⟩

lemma serializeMessages_ok_iff {α : Type} {write : α → Except Failure (List Field)}
    {P : α → Prop} (h : ∀ x, (∃ fields, write x = .ok fields) ↔ P x) (k : Kind) (xs : k.Value α) :
    (∃ fields, serializeMessages write k xs = .ok fields) ↔
      KindWithin k xs ∧ ∀ x ∈ k.items xs, P x := by
  cases k with
  | scalar =>
    rw [serializeMessages, h]
    simp [KindWithin, Kind.items]
  | fixed size hsize =>
    rw [serializeMessages, serializeAll_ok_iff h]
    exact (and_iff_right trivial).symm
  | sequence bound =>
    -- the one test of the bound
    have hitems := serializeAll_ok_iff h xs
    have hwithin : KindWithin (.sequence bound) xs ↔
        ¬ (bound.any (· < List.length xs)) = true := by
      cases bound with
      | none => simp [KindWithin]
      | some bound => simp [KindWithin]
    rw [serializeMessages]
    split_ifs with hover
    · refine iff_of_false ?_ fun hboth => hwithin.mp hboth.1 hover
      rintro ⟨fields, ⟨⟩⟩
    · rw [and_iff_right (hwithin.mpr hover), Kind.items, ← hitems]
      constructor
      · rintro ⟨all, hall⟩
        obtain ⟨fields, hfields, -⟩ := Transition.bind_eq_ok.mp hall
        exact ⟨fields, hfields⟩
      · rintro ⟨fields, hfields⟩
        exact ⟨_, by rw [hfields]; rfl⟩

/-- What `serialize` refuses. -/
lemma serialize_ok_iff (ts : TypeSupport) : ∀ (M : MessageMembers) (msg : Msg M),
    (∃ fields, serialize ts M msg = .ok fields) ↔ Accepted M msg
  | .nil, _ => iff_of_true ⟨[], rfl⟩ trivial
  | .field flags (.streamed t) rest, (x, msg) => by
    rw [Accepted, ← serialize_ok_iff ts rest msg, serialize]
    constructor
    · rintro ⟨all, hall⟩
      obtain ⟨others, hothers, -⟩ := Transition.bind_eq_ok.mp hall
      exact ⟨others, hothers⟩
    · rintro ⟨others, hothers⟩
      exact ⟨_, by rw [hothers]; rfl⟩
  | .field _ .octet rest, (_, msg) => serialize_ok_iff ts rest msg
  | .field _ .longDouble _, _ | .field _ .wchar _, _ => iff_of_false nofun id
  | .message flags sub rest, (xs, msg) => by
    rw [Accepted, ← serialize_ok_iff ts rest msg,
      ← serializeMessages_ok_iff (serialize_ok_iff ts sub) flags.kind xs, serialize]
    constructor
    · rintro ⟨all, hall⟩
      obtain ⟨fields, hfields, hall⟩ := Transition.bind_eq_ok.mp hall
      obtain ⟨others, hothers, -⟩ := Transition.bind_eq_ok.mp hall
      exact ⟨⟨fields, hfields⟩, others, hothers⟩
    · rintro ⟨⟨fields, hfields⟩, others, hothers⟩
      exact ⟨_, by rw [hfields, hothers]; rfl⟩

/-- The bounds hold if they do for messages and for the other types. -/
lemma withinBounds_iff_of_accepted : ∀ {M : MessageMembers} {msg : Msg M}, Accepted M msg →
    (WithinBounds M msg ↔ FieldsWithin M msg)
  | .nil, _, _ => Iff.rfl
  | .field _ (.streamed _) rest, (_, msg), h =>
    and_congr_right fun _ => @withinBounds_iff_of_accepted rest msg h
  | .field _ .octet rest, (_, msg), h =>
    and_congr_right fun _ => @withinBounds_iff_of_accepted rest msg h
  | .message flags sub rest, (xs, msg), ⟨⟨hkind, hitems⟩, hrest⟩ => by
    refine and_congr ?_ (withinBounds_iff_of_accepted hrest)
    rw [and_iff_right hkind]
    exact forall₂_congr fun x hx => withinBounds_iff_of_accepted (hitems x hx)

/-! ## Deserialization -/

/-- The length that is read next is within the bound of the member, if it has one. -/
def LengthWithin (U : Undefined) : Kind → RxStream → Prop
  | .sequence (some bound), s => (lengthRead U s).toNat ≤ bound
  | .sequence none, _ | .scalar, _ | .fixed _ _, _ => True

/-- The same for the member of a streamed type.  The C++ operator for vectors of booleans never
resizes the vector. -/
def FieldLengthWithin (U : Undefined) (language : Language) (t : FieldType) (k : Kind)
    (s : RxStream) : Prop :=
  (language = .cpp ∧ t = .bool) ∨ LengthWithin U k s

/-- The lengths that are read within the messages of a member, and its own. -/
def MessagesWithin {α : Type} (U : Undefined) (read : Overwrite α) (initial : α)
    (Good : α → Prop) (within : α → RxStream → Prop) : (k : Kind) → k.Value α → RxStream → Prop
  | .scalar, x, s => within x s
  | .fixed _ _, xs, s => InPlace.EachWithin read Good within xs.toList s
  | .sequence bound, _, s => LengthWithin U (.sequence bound) s ∧
    InPlace.EachWithin read Good within (List.replicate (lengthRead U s).toNat initial)
      (s.advance 1)

/-- The lengths that `deserialize` reads for bounded sequences are within the bounds, and so is
what it does not overwrite: the members of type `ROS_TYPE_OCTET`, and those after the place where
it stops. -/
def LengthsWithin (U : Undefined) (language : Language)
    (initial : (M : MessageMembers) → Msg M) : (M : MessageMembers) → Msg M → RxStream → Prop
  | .nil, _, _ => True
  | .field flags (.streamed t) rest, (x, msg), s =>
    FieldLengthWithin U language t flags.kind s ∧
      (language.deserializeFieldInPlace U t flags.kind x s).2.elim (WithinBounds rest msg)
        (LengthsWithin U language initial rest msg)
  | .field flags .octet rest, (x, msg), s =>
    KindWithin flags.kind x ∧ LengthsWithin U language initial rest msg s
  | .field flags .longDouble rest, (x, msg), _ | .field flags .wchar rest, (x, msg), _ =>
    KindWithin flags.kind x ∧ WithinBounds rest msg
  | .message flags sub rest, (xs, msg), s =>
    MessagesWithin U (deserializeInPlace U language initial sub) (initial sub)
        (WithinBounds sub) (LengthsWithin U language initial sub) flags.kind xs s ∧
      (deserializeMessagesInPlace U (deserializeInPlace U language initial sub) (initial sub)
        flags.kind xs s).2.elim (WithinBounds rest msg) (LengthsWithin U language initial rest msg)

section

variable (U : Undefined)

/-- A vector gets as many items as the length that is read. -/
lemma length_extractVectorInPlace (t : FieldType) (v : List t.Elem) (s : RxStream) :
    (extractVectorInPlace U t v s).1.length = (lengthRead U s).toNat :=
  List.Vector.toList_length _

/-- A bounded sequence is within its bound exactly if the length that was read is. -/
lemma kindWithin_iff_of_length {α : Type} {bound : Option ℕ} {ys : List α} {s : RxStream}
    (h : ys.length = (lengthRead U s).toNat) :
    KindWithin (.sequence bound) ys ↔ LengthWithin U (.sequence bound) s := by
  cases bound with
  | none => exact Iff.rfl
  | some bound => rw [KindWithin, LengthWithin, h]

lemma length_deserializeField_c {t : FieldType} {bound : Option ℕ} (xs : List t.Elem)
    (s : RxStream) :
    List.length (C.deserializeFieldInPlace U t (.sequence bound) xs s).1
      = (lengthRead U s).toNat := by
  -- strings go through a vector of C++ strings, the other types do not
  cases t
  case string => exact (List.length_map _).trans (length_extractVectorInPlace U .string [] s)
  case wstring => exact (List.length_map _).trans (length_extractVectorInPlace U .wstring [] s)
  all_goals exact length_extractVectorInPlace U _ [] s

lemma kindWithin_cpp {t : FieldType} {bound : Option ℕ} (xs : List t.Elem) (s : RxStream) :
    KindWithin (.sequence bound) (Cpp.deserializeFieldInPlace U t (.sequence bound) xs s).1 ↔
      t = .bool ∨ LengthWithin U (.sequence bound) s := by
  by_cases hbool : t = .bool
  · -- the vector that was constructed is empty
    subst hbool
    refine iff_of_true ?_ (Or.inl rfl)
    cases bound with
    | none => exact trivial
    | some bound => exact Nat.zero_le bound
  · rw [or_iff_right hbool]
    refine kindWithin_iff_of_length U ?_
    cases t
    case bool => exact absurd rfl hbool
    all_goals exact length_extractVectorInPlace U _ [] s

lemma kindWithin_deserializeField (language : Language) (t : FieldType) (k : Kind)
    (x : k.Value t.Elem) (s : RxStream) :
    KindWithin k (language.deserializeFieldInPlace U t k x s).1 ↔
      FieldLengthWithin U language t k s := by
  cases k with
  | scalar | fixed size hsize => exact iff_of_true trivial (Or.inr trivial)
  | sequence bound =>
    rw [FieldLengthWithin]
    cases language with
    | c =>
      rw [or_iff_right (by simp)]
      exact kindWithin_iff_of_length U (length_deserializeField_c U x s)
    | cpp =>
      rw [and_iff_right rfl]
      exact kindWithin_cpp U x s

lemma messagesWithin_iff {α : Type} {read : Overwrite α} {initial : α} {Good : α → Prop}
    {within : α → RxStream → Prop} (hread : ∀ x s, Good (read x s).1 ↔ within x s) (k : Kind)
    (xs : k.Value α) (s : RxStream) :
    (KindWithin k (deserializeMessagesInPlace U read initial k xs s).1 ∧
        ∀ y ∈ k.items (deserializeMessagesInPlace U read initial k xs s).1, Good y) ↔
      MessagesWithin U read initial Good within k xs s := by
  cases k with
  | scalar =>
    rw [MessagesWithin, ← hread xs s]
    simp [KindWithin, Kind.items, deserializeMessagesInPlace]
  | fixed size hsize =>
    rw [MessagesWithin, ← InPlace.forall_update_iff hread]
    exact and_iff_right trivial
  | sequence bound =>
    refine and_congr (kindWithin_iff_of_length U (List.Vector.toList_length _)) ?_
    exact InPlace.forall_update_iff hread
      (List.Vector.replicate (lengthRead U s).toNat initial) (s.advance 1)

/-- What `deserialize` leaves is within the bounds exactly if the lengths that it reads are. -/
lemma withinBounds_deserializeInPlace (language : Language)
    (initial : (M : MessageMembers) → Msg M) : ∀ (M : MessageMembers) (dest : Msg M) (s : RxStream),
      WithinBounds M (deserializeInPlace U language initial M dest s).1 ↔
        LengthsWithin U language initial M dest s
  | .nil, _, _ => Iff.rfl
  | .field flags (.streamed t) rest, (x, dest), s =>
    InPlace.prod_iff (kindWithin_deserializeField U language t flags.kind)
      (withinBounds_deserializeInPlace language initial rest) x dest s
  | .field _ .octet rest, (_, dest), s =>
    and_congr_right fun _ => withinBounds_deserializeInPlace language initial rest dest s
  | .field _ .longDouble _, _, _ | .field _ .wchar _, _, _ => Iff.rfl
  | .message flags sub rest, (xs, dest), s => by
    let Member : flags.kind.Value (Msg sub) → Prop := fun ys =>
      KindWithin flags.kind ys ∧ ∀ y ∈ flags.kind.items ys, WithinBounds sub y
    have hmember : ∀ xs s, Member (deserializeMessagesInPlace U
        (deserializeInPlace U language initial sub) (initial sub) flags.kind xs s).1 ↔ _ :=
      messagesWithin_iff U (withinBounds_deserializeInPlace language initial sub) flags.kind
    exact InPlace.prod_iff hmember (withinBounds_deserializeInPlace language initial rest) xs dest s

end

/-- **Bounds.** A message that is over a bound is refused if and only if the other types are
within their bounds, or the message is not accepted for another reason.  Whatever the packet and
whatever undefined operations do, what `deserialize` leaves is within the bounds if and only if
the lengths that it reads are; where it returns, that is what it returns. -/
theorem bounds_enforced_iff (language : Language) (initial : (M : MessageMembers) → Msg M)
    (M : MessageMembers) :
    (∀ msg : Msg M, (¬ WithinBounds M msg → ∃ e, serialize language.typeSupport M msg = .error e) ↔
      (Accepted M msg → FieldsWithin M msg)) ∧
    ∀ U : Undefined,
      (∀ (dest : Msg M) (s : RxStream),
        WithinBounds M (deserializeInPlace U language initial M dest s).1 ↔
          LengthsWithin U language initial M dest s) ∧
      ∀ (dest : Msg M) (s : RxStream) (msg : Msg M) (s' : RxStream),
        deserialize language.typeSupport initial M dest s = .ok (msg, s') →
        deserializeInPlace U language initial M dest s = (msg, some s') := by
  refine ⟨fun msg => ?_, fun U => ⟨withinBounds_deserializeInPlace U language initial M,
    agrees_deserialize U language initial M⟩⟩
  have hrefused : (∃ e, serialize language.typeSupport M msg = .error e) ↔ ¬ Accepted M msg := by
    rw [← serialize_ok_iff language.typeSupport]
    cases serialize language.typeSupport M msg with
    | error e => exact iff_of_true ⟨e, rfl⟩ nofun
    | ok fields => exact iff_of_false nofun fun h => h ⟨fields, rfl⟩
  rw [hrefused]
  -- on a message that is accepted, being within bounds is a matter of the other types
  constructor
  · intro h haccepted
    by_contra hfields
    exact h (fun hwithin => hfields ((withinBounds_iff_of_accepted haccepted).mp hwithin)) haccepted
  · intro h hover haccepted
    exact hover ((withinBounds_iff_of_accepted haccepted).mpr (h haccepted))

/-- A message with a sequence of at most one byte. -/
def atMostOneByte : MessageMembers := .field ⟨true, 1, true⟩ (.streamed .uint8) .nil

/-- Two bytes are serialized, and their packet leaves two bytes.  So does a packet without a
length if the unassigned variable holds 2. -/
theorem bounds_not_enforced :
    (∀ xs : List UInt8, WithinBounds atMostOneByte (xs, ()) ↔ xs.length ≤ 1) ∧
    serialize cpp atMostOneByte (([7, 8] : List UInt8), ()) = .ok [.uint 2, .uint 7, .uint 8] ∧
    (∃ s', deserialize cpp Msg.zero atMostOneByte (([] : List UInt8), ())
      ⟨0, 1, 0, [.uint 2, .uint 7, .uint 8], []⟩
        = .ok ((([7, 8] : List UInt8), ()), s')) ∧
    (deserializeInPlace ⟨fun _ => 2, fun _ => false⟩ .cpp Msg.zero atMostOneByte
      (([] : List UInt8), ()) ⟨0, 1, 0, [.tstr [97]], []⟩).1 = (([2, 2] : List UInt8), ()) := by
  refine ⟨fun xs => ?_, rfl, ⟨⟨0, 1, 3, [.uint 2, .uint 7, .uint 8], []⟩, rfl⟩, rfl⟩
  exact and_iff_left trivial

end MessageSerialization
end RmwDesert
