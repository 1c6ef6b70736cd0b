/-
The scalar extraction operators on packets of any shape (`RxStream::operator>>`).

`reads_extract` says what an operator does on the field that the sender wrote for it.  Here
the packet is any list of fields and the iterator may stand behind its end.  The main result,
`keepsToPacket_iff`, says on which packets an operator stays inside the packet, keeps its
destination when there is no field for it, and steps exactly one field further.
-/
import RmwDesert.RxStream

namespace RmwDesert
namespace RxStream

/-- The types of the fields from which an operator takes its value. -/
def accepts : FieldType → Field → Bool
  | .uint64, f | .uint32, f | .uint16, f | .uint8, f | .bool, f => (uintValue f).isSome
  | .int64, f | .int32, f | .int16, f | .int8, f => (intValue f).isSome
  | .char, f | .string, f | .wstring, f => (tstrValue f).isSome
  | .float, f | .double, f => (floatValue f).isSome

/-- The field at the position is present and of a type that the operator accepts. -/
def Accepted (t : FieldType) (s : RxStream) : Prop := ∃ f ∈ s.current, accepts t f = true

instance (t : FieldType) (s : RxStream) : Decidable (Accepted t s) :=
  inferInstanceAs (Decidable (∃ f ∈ s.current, accepts t f = true))

/-- What an operator promises on any packet: it returns, one field further, and the
destination is as before if there is no field for it. -/
def KeepsToPacket (t : FieldType) (dest : t.Elem) (s : RxStream) : Prop :=
  ∃ x, extract t dest s = .ok (x, s.advance 1) ∧ (¬ Accepted t s → x = dest)

/-- The packets on which an operator does without a field of its own.  The narrow integers and
the `double` go through a local variable without a value, the `int64_t` looks at the field
before it tests the position, a wide string is assigned in any case, and the `bool` does
not step over another field. -/
def DoesWithout : (t : FieldType) → t.Elem → RxStream → Prop
  | .uint64, _, _ | .char, _, _ | .float, _, _ | .string, _, _ => True
  | .int64, _, s => s.current.isSome
  | .wstring, (dest : List UInt16), _ => dest = []
  | .uint32, _, _ | .uint16, _, _ | .uint8, _, _ | .int32, _, _ | .int16, _, _ | .int8, _, _
  | .double, _, _ | .bool, _, _ => False

variable {t : FieldType} {dest : t.Elem} {s : RxStream}

lemma accepted_iff {α : Type} {value : Field → Option α}
    (h : ∀ f, accepts t f = (value f).isSome) :
    Accepted t s ↔ (s.current.bind value).isSome = true := by
  cases hs : s.current with
  | none => simp [Accepted, hs]
  | some f => simp [Accepted, hs, h]

/-! ## The kinds of operators -/

/-- An operator that assigns the current field or nothing. -/
lemma keepsToPacket_next {value : Field → Option t.Elem}
    (hextract : extract t dest = do return (← next value).getD dest)
    (haccepts : ∀ f, accepts t f = (value f).isSome) : KeepsToPacket t dest s := by
  have hrun : extract t dest s = .ok ((s.current.bind value).getD dest, s.advance 1) := by
    rw [hextract]
    rfl
  refine ⟨_, hrun, fun hnot => ?_⟩
  rw [accepted_iff haccepts, Bool.not_eq_true, Option.isSome_eq_false_iff,
    Option.isNone_iff_eq_none] at hnot
  rw [hnot]
  rfl

/-- An operator that fails without a value. -/
lemma keepsToPacket_iff_of_run {α : Type} {value : Field → Option α} {g : α → t.Elem}
    (haccepts : ∀ f, accepts t f = (value f).isSome)
    (hsome : ∀ v, s.current.bind value = some v → extract t dest s = .ok (g v, s.advance 1))
    (hnone : s.current.bind value = none → ∃ e, extract t dest s = .error e) :
    KeepsToPacket t dest s ↔ Accepted t s := by
  rw [accepted_iff haccepts]
  constructor
  · rintro ⟨x, hx, -⟩
    by_contra hnot
    rw [Bool.not_eq_true, Option.isSome_eq_false_iff, Option.isNone_iff_eq_none] at hnot
    obtain ⟨e, he⟩ := hnone hnot
    rw [he] at hx
    cases hx
  · intro h
    obtain ⟨v, hv⟩ := Option.isSome_iff_exists.mp h
    refine ⟨g v, hsome v hv, fun hnot => absurd h ?_⟩
    rwa [accepted_iff haccepts] at hnot

/-- An operator that assigns from a local variable, which the current field may leave
without a value. -/
lemma keepsToPacket_local_iff {α : Type} {value : Field → Option α} {g : α → t.Elem}
    (hextract : extract t dest = do return g (← initialised (← next value)))
    (haccepts : ∀ f, accepts t f = (value f).isSome) :
    KeepsToPacket t dest s ↔ Accepted t s := by
  have hrun : extract t dest s
      = (initialised (s.current.bind value) >>= fun v => pure (g v)) (s.advance 1) := by
    rw [hextract]
    rfl
  refine keepsToPacket_iff_of_run haccepts (g := g) (fun v hv => ?_) fun hv => ?_
  · rw [hrun, hv]
    rfl
  · exact ⟨.uninitialised, by rw [hrun, hv]; rfl⟩

lemma extractInt64_of_current {f : Field} (h : s.current = some f) :
    extractInt64 s = next intValue s := by
  simp only [extractInt64, h]

/-- The same for a local `int64_t`. -/
lemma keepsToPacket_local_int64_iff {g : Int64 → t.Elem}
    (hextract : extract t dest = do return g (← initialised (← extractInt64)))
    (haccepts : ∀ f, accepts t f = (intValue f).isSome) :
    KeepsToPacket t dest s ↔ Accepted t s := by
  have hrun : extract t dest s = extractInt64 s >>= fun p =>
      (initialised p.1 >>= fun v => pure (g v)) p.2 := by
    rw [hextract]
    rfl
  refine keepsToPacket_iff_of_run haccepts (g := g) (fun v hv => ?_) fun hv => ?_
  · obtain ⟨f, hf, hvalue⟩ := Option.bind_eq_some_iff.mp hv
    rw [hrun, extractInt64_of_current hf, next, hv]
    rfl
  · cases hs : s.current with
    | none => exact ⟨.outOfBounds, by rw [hrun, extractInt64, hs]; rfl⟩
    | some f =>
      refine ⟨.uninitialised, ?_⟩
      rw [hrun, extractInt64_of_current hs, next, hv]
      rfl

/-- The `int64_t` operator fails behind the end only. -/
lemma keepsToPacket_int64_iff {dest : Int64} :
    KeepsToPacket .int64 dest s ↔ s.current.isSome = true := by
  cases hs : s.current with
  | none =>
    refine iff_of_false ?_ (by simp)
    rintro ⟨x, hx, -⟩
    have hrun : extract .int64 dest s = .error .outOfBounds := by
      show (extractInt64 s >>= fun p => (pure (p.1.getD dest) : RxM Int64) p.2) = _
      rw [extractInt64, hs]
      rfl
    rw [hrun] at hx
    cases hx
  | some f =>
    have hrun : extract .int64 dest s = .ok ((intValue f).getD dest, s.advance 1) := by
      show (extractInt64 s >>= fun p => (pure (p.1.getD dest) : RxM Int64) p.2) = _
      rw [extractInt64_of_current hs, next, hs]
      rfl
    refine iff_of_true ⟨_, hrun, fun hnot => ?_⟩ rfl
    have hnone : intValue f = none := by simpa [Accepted, hs, accepts] using hnot
    rw [hnone]
    rfl

/-- The wide string operator assigns the empty string when there is no field for it. -/
lemma keepsToPacket_wstring_iff {dest : List UInt16} :
    KeepsToPacket .wstring dest s ↔ Accepted .wstring s ∨ dest = [] := by
  have hrun : extract .wstring dest s
      = .ok (Transcoding.toUTF16 ((s.current.bind tstrValue).getD []), s.advance 1) := rfl
  constructor
  · rintro ⟨x, hx, hkept⟩
    by_contra! hnot
    obtain ⟨hnot, hdest⟩ := hnot
    rw [hkept hnot, hrun] at hx
    rw [accepted_iff (fun _ => rfl), Bool.not_eq_true, Option.isSome_eq_false_iff,
      Option.isNone_iff_eq_none] at hnot
    rw [hnot] at hx
    exact hdest (Prod.mk.inj (Except.ok.inj hx)).1.symm
  · intro h
    refine ⟨_, hrun, fun hnot => ?_⟩
    obtain rfl := h.resolve_left hnot
    rw [accepted_iff (fun _ => rfl), Bool.not_eq_true, Option.isSome_eq_false_iff,
      Option.isNone_iff_eq_none] at hnot
    rw [hnot]
    rfl

/-- The `bool` operator steps over a field of its own type only. -/
lemma keepsToPacket_bool_iff {dest : Bool} : KeepsToPacket .bool dest s ↔ Accepted .bool s := by
  rw [@accepted_iff .bool s _ uintValue fun _ => rfl]
  cases hv : s.current.bind uintValue with
  | none =>
    refine iff_of_false ?_ (by simp)
    rintro ⟨x, hx, -⟩
    have hrun : extract .bool dest s = .ok (dest, s) := by
      show (extractBool s >>= fun p => (pure (p.1.getD dest) : RxM Bool) p.2) = _
      rw [extractBool, hv]
      rfl
    rw [hrun] at hx
    have hstay := congrArg RxStream.bufferedIterator (Prod.mk.inj (Except.ok.inj hx)).2
    exact absurd hstay (Nat.ne_of_lt (Nat.lt_succ_self _))
  | some n =>
    have hrun : extract .bool dest s = .ok (n.toUInt8 != 0, s.advance 1) := by
      show (extractBool s >>= fun p => (pure (p.1.getD dest) : RxM Bool) p.2) = _
      rw [extractBool, hv]
      rfl
    refine iff_of_true ⟨_, hrun, fun hnot => absurd ?_ hnot⟩ rfl
    rw [@accepted_iff .bool s _ uintValue fun _ => rfl, hv]
    rfl

/-- **Extraction from any packet.**  A scalar operator stays inside the packet, reads no
variable without a value, keeps its destination when there is no field for it, and steps
one field further, exactly when the current field is of its type or it does without. -/
theorem keepsToPacket_iff (t : FieldType) (dest : t.Elem) (s : RxStream) :
    KeepsToPacket t dest s ↔ Accepted t s ∨ DoesWithout t dest s := by
  cases t with
  | uint64 | float | string =>
    exact iff_of_true (keepsToPacket_next rfl fun _ => rfl) (Or.inr trivial)
  | char =>
    exact iff_of_true (keepsToPacket_next rfl fun _ => Option.isSome_map.symm) (Or.inr trivial)
  | uint32 | uint16 | uint8 | double =>
    rw [DoesWithout, or_false]
    exact keepsToPacket_local_iff rfl fun _ => rfl
  | int32 | int16 | int8 =>
    rw [DoesWithout, or_false]
    exact keepsToPacket_local_int64_iff rfl fun _ => rfl
  | int64 =>
    have hpresent : Accepted .int64 s → s.current.isSome = true := by
      rintro ⟨f, hf, -⟩
      exact Option.isSome_of_mem hf
    rw [DoesWithout, or_iff_right_of_imp hpresent]
    exact keepsToPacket_int64_iff
  | wstring => exact keepsToPacket_wstring_iff
  | bool =>
    rw [DoesWithout, or_false]
    exact keepsToPacket_bool_iff

/-- A packet with a text, and the iterator on it. -/
def textPacket : RxStream := ⟨2, 1, 0, [.tstr [0x61]], []⟩

/-- The operators for narrow integers and the `double` use a variable without a value, the
`int64_t` reads behind the end of the packet, and the `bool` does not step on. -/
theorem extraction_breaks_on_text :
    (∀ n : UInt32, extract .uint32 n textPacket = .error .uninitialised) ∧
      (∀ d : UInt64, extract .double d textPacket = .error .uninitialised) ∧
      (∀ n : Int64, extract .int64 n (textPacket.advance 1) = .error .outOfBounds) ∧
      (∀ b : Bool, extract .bool b textPacket = .ok (b, textPacket)) ∧
      ¬ KeepsToPacket .uint32 (0 : UInt32) textPacket := by
  refine ⟨fun _ => rfl, fun _ => rfl, fun _ => rfl, fun _ => rfl, ?_⟩
  rintro ⟨x, hx, -⟩
  cases hx

end RxStream
end RmwDesert
