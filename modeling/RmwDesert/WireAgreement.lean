/-
The fields that the two type supports stream for the same message.

They differ in one place: the C side sends a fixed-size array of strings as a vector, with
its length, and the C++ side sends the elements only.  `c_cpp_agree_iff` says that this is
the only difference.
-/
import RmwDesert.MessageRoundTrip

namespace RmwDesert
namespace MessageSerialization

open Transition (bind_eq_ok)

/-- The member is not a fixed-size array of strings. -/
def NoStringArray : MemberCondition
  | .string, .fixed _ _, _ => False
  | .wstring, .fixed _ _, _ => False
  | _, _, _ => True

/-- The C side sends the fields of the C++ side under the condition `p`, and more fields
otherwise. -/
def Agree (p : Prop) (cppFields cFields : List Field) : Prop :=
  (p → cFields = cppFields) ∧ (¬ p → cppFields.length < cFields.length)

namespace Agree

variable {p q : Prop} {fields cppFields cFields cppFields' cFields' : List Field}

lemma congr (h : Agree p cppFields cFields) (hpq : p ↔ q) : Agree q cppFields cFields := by
  rwa [← propext hpq]

lemma refl (fields : List Field) : Agree True fields fields :=
  ⟨fun _ => rfl, fun h => absurd trivial h⟩

lemma length_le (h : Agree p cppFields cFields) : cppFields.length ≤ cFields.length := by
  by_cases hp : p
  · rw [h.1 hp]
  · exact (h.2 hp).le

lemma append (h : Agree p cppFields cFields) (h' : Agree q cppFields' cFields') :
    Agree (p ∧ q) (cppFields ++ cppFields') (cFields ++ cFields') := by
  have hle := h.length_le
  have hle' := h'.length_le
  constructor
  · rintro ⟨hp, hq⟩
    rw [h.1 hp, h'.1 hq]
  · intro hpq
    simp only [List.length_append]
    by_cases hp : p
    · have hlt := h'.2 fun hq => hpq ⟨hp, hq⟩
      omega
    · have hlt := h.2 hp
      omega

lemma flatMap {α : Type} {P : α → Prop} {f g : α → List Field} {xs : List α}
    (h : ∀ x ∈ xs, Agree (P x) (f x) (g x)) :
    Agree (∀ x ∈ xs, P x) (xs.flatMap f) (xs.flatMap g) := by
  induction xs with
  | nil => exact (refl []).congr (by simp)
  | cons x xs ih =>
    have htail := ih fun y hy => h y (List.mem_cons_of_mem x hy)
    rw [List.flatMap_cons, List.flatMap_cons]
    refine ((h x List.mem_cons_self).append htail).congr ?_
    simp only [List.mem_cons, forall_eq_or_imp]

/-- The fields coincide exactly under the condition. -/
lemma eq_iff (h : Agree p cppFields cFields) : cFields = cppFields ↔ p := by
  refine ⟨fun heq => ?_, h.1⟩
  by_contra hp
  have hlt := h.2 hp
  rw [heq] at hlt
  exact lt_irrefl _ hlt

end Agree

lemma noStringArray_of_not_isString {t : FieldType} (ht : ¬ IsString t) (k : Kind)
    (x : k.Value t.Elem) : NoStringArray t k x := by
  cases t
  case string => exact absurd (Or.inl rfl) ht
  case wstring => exact absurd (Or.inr rfl) ht
  all_goals cases k <;> trivial

/-- The fields of a member. -/
lemma agree_serializeField (t : FieldType) (k : Kind) (x : k.Value t.Elem)
    (hx : NulFree t k x) :
    Agree (NoStringArray t k x) (cpp.serializeField t k x) (c.serializeField t k x) := by
  by_cases ht : IsString t
  · rw [c_serializeField_of_isString ht hx]
    cases k with
    | scalar =>
      have hcond : NoStringArray t .scalar x := by rcases ht with rfl | rfl <;> trivial
      exact (Agree.refl _).congr (iff_true_intro hcond).symm
    | fixed size hsize =>
      have hcond : ¬ NoStringArray t (.fixed size hsize) x := by
        rcases ht with rfl | rfl <;> exact not_false
      -- the length comes before the elements
      exact ⟨fun h => absurd h hcond, fun _ => Nat.lt_succ_self _⟩
    | sequence bound =>
      have hcond : NoStringArray t (.sequence bound) x := by rcases ht with rfl | rfl <;> trivial
      exact (Agree.refl _).congr (iff_true_intro hcond).symm
  · rw [c_serializeField_of_not_isString ht]
    exact (Agree.refl _).congr (iff_true_intro (noStringArray_of_not_isString ht k x)).symm

/-! ## The walk -/

section Walk

variable {α : Type} {write write' : α → Except Failure (List Field)}

lemma serializeAll_eq_ok {xs : List α} (h : ∀ x ∈ xs, write x = .ok (written write x)) :
    serializeAll write xs = .ok (xs.flatMap (written write)) := by
  induction xs with
  | nil => rfl
  | cons x xs ih =>
    refine bind_eq_ok.mpr ⟨_, h x List.mem_cons_self, ?_⟩
    exact bind_eq_ok.mpr ⟨_, ih fun y hy => h y (List.mem_cons_of_mem x hy), rfl⟩

/-- The walk over the elements of a member succeeds for any two writers that succeed on
them: the bound of a sequence does not depend on the writer. -/
lemma serializeMessages_eq_ok {k : Kind} {xs : k.Value α} {fields : List Field}
    (h : serializeMessages write k xs = .ok fields)
    (h' : ∀ x ∈ k.items xs, write' x = .ok (written write' x)) :
    serializeMessages write' k xs
      = .ok (lengthFields k (k.items xs).length ++ (k.items xs).flatMap (written write')) := by
  cases k with
  | scalar =>
    show write' xs = .ok ([] ++ [xs].flatMap (written write'))
    rw [h' xs (List.mem_singleton.mpr rfl)]
    simp
  | fixed size hsize => exact serializeAll_eq_ok h'
  | sequence bound =>
    simp only [serializeMessages] at h ⊢
    split_ifs at h with hbound
    rw [if_neg hbound]
    exact bind_eq_ok.mpr ⟨_, serializeAll_eq_ok h', rfl⟩

end Walk

/-- The fields of a message. -/
lemma agree_serialize : ∀ (M : MessageMembers) (msg : Msg M) {fields : List Field},
    Msg.Forall NulFree M msg → serialize cpp M msg = .ok fields →
    ∃ cFields, serialize c M msg = .ok cFields ∧
      Agree (Msg.Forall NoStringArray M msg) fields cFields
  | .nil, _, fields, _, h => by
    obtain rfl : [] = fields := Except.ok.inj h
    exact ⟨[], rfl, Agree.refl []⟩
  | .field flags (.streamed t) rest, (x, msg), fields, hnul, h => by
    obtain ⟨others, hothers, h⟩ := bind_eq_ok.mp h
    obtain rfl : cpp.serializeField t flags.kind x ++ others = fields := Except.ok.inj h
    obtain ⟨cOthers, hcOthers, hagree⟩ := agree_serialize rest msg hnul.2 hothers
    refine ⟨c.serializeField t flags.kind x ++ cOthers, bind_eq_ok.mpr ⟨_, hcOthers, rfl⟩, ?_⟩
    exact (agree_serializeField t flags.kind x hnul.1).append hagree
  | .field _ .octet rest, (_, msg), _, hnul, h => agree_serialize rest msg hnul h
  | .field _ .longDouble _, _, _, _, h | .field _ .wchar _, _, _, _, h => by cases h
  | .message flags sub rest, (xs, msg), fields, hnul, h => by
    obtain ⟨first, hfirst, h⟩ := bind_eq_ok.mp h
    obtain ⟨others, hothers, h⟩ := bind_eq_ok.mp h
    obtain rfl : first ++ others = fields := Except.ok.inj h
    obtain ⟨hok, hfields⟩ := serializeMessages_ok hfirst
    obtain ⟨cOthers, hcOthers, hagree⟩ := agree_serialize rest msg hnul.2 hothers
    have hsub : ∀ x ∈ flags.kind.items xs,
        serialize c sub x = .ok (written (serialize c sub) x) ∧
        Agree (Msg.Forall NoStringArray sub x) (written (serialize cpp sub) x)
          (written (serialize c sub) x) := by
      intro x hx
      obtain ⟨cFields, hc, hx⟩ := agree_serialize sub x (hnul.1 x hx) (hok x hx)
      rw [written_of_ok hc]
      exact ⟨hc, hx⟩
    have hcFirst := serializeMessages_eq_ok hfirst fun x hx => (hsub x hx).1
    refine ⟨_, bind_eq_ok.mpr ⟨_, hcFirst, bind_eq_ok.mpr ⟨_, hcOthers, rfl⟩⟩, ?_⟩
    rw [hfields]
    refine Agree.append ?_ hagree
    have helements := Agree.flatMap fun x hx => (hsub x hx).2
    exact ((Agree.refl _).append helements).congr (by simp)

/-- **Agreement on the wire.** The two type supports stream the same fields for a message if
and only if the walk meets no fixed-size array of strings. -/
theorem c_cpp_agree_iff (M : MessageMembers) (msg : Msg M) (hnul : Msg.Forall NulFree M msg)
    {fields : List Field} (hser : serialize cpp M msg = .ok fields) :
    serialize c M msg = .ok fields ↔ Msg.Forall NoStringArray M msg := by
  obtain ⟨cFields, hc, hagree⟩ := agree_serialize M msg hnul hser
  rw [hc, ← hagree.eq_iff]
  exact ⟨Except.ok.inj, congrArg Except.ok⟩

/-- A message with a string, a sequence of strings and a number. -/
def greeting : MessageMembers :=
  .field ⟨false, 0, false⟩ (.streamed .string)
    (.field ⟨true, 0, false⟩ (.streamed .string)
      (.field ⟨false, 0, false⟩ (.streamed .uint8) .nil))

theorem c_cpp_agree_greeting :
    serialize c greeting (([0x61] : List UInt8), ([[0x62], []], ((7 : UInt8), ())))
      = .ok [.tstr [0x61], .uint 2, .tstr [0x62], .tstr [], .uint 7] := by
  have hnul : Msg.Forall NulFree greeting
      (([0x61] : List UInt8), ([[0x62], []], ((7 : UInt8), ()))) := by
    refine ⟨?_, ?_, fun _ _ => trivial, trivial⟩
    · show ∀ s ∈ ([[0x61]] : List (List UInt8)), (0 : UInt8) ∉ s
      decide
    · show ∀ s ∈ ([[0x62], []] : List (List UInt8)), (0 : UInt8) ∉ s
      decide
  exact (c_cpp_agree_iff greeting _ hnul rfl).mpr ⟨trivial, trivial, trivial, trivial⟩

/-- A message with an array of two strings. -/
def names : MessageMembers := .field ⟨true, 2, false⟩ (.streamed .string) .nil

theorem c_cpp_disagree_names :
    Msg.Forall NulFree names (⟨[[0x61], [0x62]], rfl⟩, ()) ∧
      serialize cpp names (⟨[[0x61], [0x62]], rfl⟩, ()) = .ok [.tstr [0x61], .tstr [0x62]] ∧
      serialize c names (⟨[[0x61], [0x62]], rfl⟩, ())
        = .ok [.uint 2, .tstr [0x61], .tstr [0x62]] := by
  refine ⟨⟨?_, trivial⟩, rfl, rfl⟩
  show ∀ s ∈ ([[0x61], [0x62]] : List (List UInt8)), (0 : UInt8) ∉ s
  decide

end MessageSerialization
end RmwDesert
