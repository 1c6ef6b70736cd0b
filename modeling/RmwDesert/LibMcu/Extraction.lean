/-
Extraction in the libmcu build, from a packet that may end early.

The decoder notes a limited number of items, so fields can be missing at the end of a packet.
An extraction behind the end leaves its destination alone or fails, and only one value comes out
right all the same: the empty wide string.  This file says which fields an extraction asks for,
and that a destination can be chosen for which it asks for no less.
-/
import RmwDesert.Insertions
import RmwDesert.LibMcu.RxStream

namespace RmwDesert
namespace LibMcu
namespace RxStream

open Reader
open Insertion (extractAll extractInto SameShape)

/-- Overload resolution among the operators for vectors. -/
def extractAnyVector [Convertor] : (t : FieldType) → List t.Elem → RxM (List t.Elem)
  | .bool, v => extractBoolVector v
  | t, v => extractVector t v

lemma extractAnyVector_of_ne [Convertor] {t : FieldType} (ht : t ≠ .bool) :
    extractAnyVector t = extractVector t := by
  cases t
  case bool => exact absurd rfl ht
  all_goals rfl

instance : Cursor RxStream Decoded where
  pending s := s.bufferedPacket.drop s.bufferedIterator
  advance := advance
  pending_advance n s := by simp [advance, List.drop_drop]
  advance_zero _ := rfl
  advance_advance m n s := by simp [advance, Nat.add_assoc]

lemma current_eq_head? (s : RxStream) : s.current = (Cursor.pending s).head? := by
  show s.bufferedPacket[s.bufferedIterator]? = (s.bufferedPacket.drop s.bufferedIterator).head?
  rw [List.head?_drop]

/-! ## Fields that may be missing -/

/-- The field that an extraction does without. -/
def emptyWide : FieldType × Field := (.wstring, .tstr [])

/-- The field is found at the iterator, or is not missed. -/
def Offers (s : RxStream) (m : FieldType × Field) : Prop :=
  m.1 ≠ .bool ∧ (s.current = some (heard m.2) ∨ s.current = none ∧ m = emptyWide)

/-- What is known of the field after an extraction that could not do without it. -/
def Found (s : RxStream) (m : FieldType × Field) : Prop :=
  (s.current = none → m = emptyWide) ∧
    (m.1 = .bool → ∃ value, s.current = some (.simpleValue value))

lemma heard_ne_simpleValue (f : Field) (value : UInt8) : heard f ≠ .simpleValue value := by
  cases f <;> exact Decoded.noConfusion

section Early

variable {s : RxStream} {k : ℕ}

/-- A packet that ends after `k` fields offers them and the fields that it can do without. -/
lemma along_offers_iff {toks : List (FieldType × Field)}
    (hs : Cursor.pending s = (toks.take k).map fun m => heard m.2) :
    Along Offers s toks ↔ (∀ m ∈ toks, m.1 ≠ .bool) ∧ ∀ m ∈ toks.drop k, m = emptyWide := by
  induction toks generalizing s k with
  | nil => simp [Along]
  | cons m toks ih =>
    have hnext := Cursor.pending_advance 1 s
    rw [hs] at hnext
    have hcurrent := current_eq_head? s
    rw [hs] at hcurrent
    cases k with
    | zero =>
      have hrest := @ih (s.advance 1) 0 hnext
      have hnone : s.current = none := hcurrent
      rw [Along, show Along Offers (Cursor.advance 1 s) toks ↔ _ from hrest, Offers, hnone]
      simp only [List.drop_zero, List.forall_mem_cons, reduceCtorEq, false_or, true_and]
      tauto
    | succ k =>
      have hrest := @ih (s.advance 1) k hnext
      have hsome : s.current = some (heard m.2) := hcurrent
      rw [Along, show Along Offers (Cursor.advance 1 s) toks ↔ _ from hrest, Offers, hsome]
      simp only [List.drop_succ_cons, List.forall_mem_cons, true_or, and_true, and_assoc]

/-- The fields that were found are the ones that are offered. -/
lemma along_offers_of_found {toks : List (FieldType × Field)}
    (hs : Cursor.pending s = (toks.take k).map fun m => heard m.2) (h : Along Found s toks) :
    Along Offers s toks := by
  induction toks generalizing s k with
  | nil => trivial
  | cons m toks ih =>
    obtain ⟨⟨hnone, hbool⟩, hrest⟩ := h
    have hnext := Cursor.pending_advance 1 s
    rw [hs] at hnext
    have hcurrent := current_eq_head? s
    rw [hs] at hcurrent
    have hne : m.1 ≠ .bool := by
      intro hm
      obtain ⟨value, hvalue⟩ := hbool hm
      rw [hvalue] at hcurrent
      cases k with
      | zero => cases hcurrent
      | succ k => exact heard_ne_simpleValue m.2 value (Option.some.inj hcurrent).symm
    cases k with
    | zero => exact ⟨⟨hne, Or.inr ⟨hcurrent, hnone hcurrent⟩⟩, @ih (s.advance 1) 0 hnext hrest⟩
    | succ k => exact ⟨⟨hne, Or.inl hcurrent⟩, @ih (s.advance 1) k hnext hrest⟩

end Early

/-! ## What an extraction delivers -/

lemma delivers_next {α : Type} {value : Decoded → Option α} {m : FieldType × Field} {x : α}
    (hm : m ≠ emptyWide) (h : value (heard m.2) = some x) :
    Delivers Offers (next value) [m] (some x) := by
  intro s hs
  obtain ⟨-, hcurrent | ⟨-, hempty⟩⟩ := along_singleton.mp hs
  · simp only [next, hcurrent, Option.bind_some, h]
    rfl
  · exact absurd hempty hm

lemma delivers_local {α β : Type} {value : Decoded → Option α} {m : FieldType × Field} {x : α}
    (hm : m ≠ emptyWide) (h : value (heard m.2) = some x) (g : α → β) :
    Delivers Offers (do return g (← initialised (← next value)) : RxM β) [m] (g x) :=
  (delivers_next hm h).bind ((delivers_pure x).map g)

/-- A local `int64_t` that is assigned, and cast to the type of the destination. -/
lemma delivers_integer {α : Type} (cast : Int64 → α) {m : FieldType × Field} {n : Int64} {x : α}
    (hm : m ≠ emptyWide) (hf : heard m.2 = .integer n) (hx : cast n = x) :
    Delivers Offers (extractInteger cast) [m] x := by
  have h : integerValue (heard m.2) = some n := by
    rw [hf]
    rfl
  rw [← hx]
  exact delivers_local hm h cast

lemma heard_insertInt64 (n : Int64) : heard (TxStream.insertInt64 n) = .integer n := by
  unfold TxStream.insertInt64
  split_ifs
  · exact congrArg Decoded.integer (Int64.toInt64_toUInt64 n)
  · rfl

lemma heard_string {s : List UInt8} (h : 0 ∉ s) : heard (.tstr s) = .string s :=
  congrArg Decoded.string (Unicode.takeWhile_ne_zero h)

/-- A wide string travels without a terminator inside. -/
lemma heard_wstring {x : List UInt16} (hx : FieldType.wstring.Admissible x) :
    heard (.tstr (Transcoding.toUTF8 x)) = .string (Transcoding.toUTF8 x) := by
  refine heard_string fun hzero => hx.nulFree ?_
  obtain ⟨text, rfl⟩ := hx.wellFormed
  rw [Transcoding.toUTF8_utf16Encode] at hzero
  exact Unicode.zero_mem_utf16Encode hzero

section

variable [Convertor]

lemma toUTF16_toUTF8 {x : List UInt16} (hx : Unicode.IsUtf16 x) :
    toUTF16 (Transcoding.toUTF8 x) = pure x := by
  obtain ⟨text, rfl⟩ := hx
  rw [toUTF16, Transcoding.toUTF8_utf16Encode, Convertor.fromBytes_utf8Encode]
  rfl

/-- An empty wide string is delivered whether it is found or not. -/
lemma delivers_wstring {x : List UInt16} (hx : FieldType.wstring.Admissible x)
    (dest : List UInt16) :
    Delivers Offers (extract .wstring dest) [(.wstring, .tstr (Transcoding.toUTF8 x))] x := by
  intro s hs
  obtain ⟨-, hcurrent⟩ := along_singleton.mp hs
  have hsource : (s.current.bind stringValue).getD [] = Transcoding.toUTF8 x := by
    rcases hcurrent with hcurrent | ⟨hcurrent, hempty⟩
    · rw [hcurrent]
      show (stringValue (heard (.tstr (Transcoding.toUTF8 x)))).getD [] = _
      rw [heard_wstring hx]
      rfl
    · rw [hcurrent]
      exact (Field.tstr.inj (congrArg Prod.snd hempty)).symm
  show toUTF16 ((s.current.bind stringValue).getD []) (s.advance 1) = _
  rw [hsource, toUTF16_toUTF8 hx.wellFormed]
  rfl

/-- The libmcu build reads what the NanoCBOR build inserts, up to the floats that it takes for
halves. -/
lemma delivers_extract {t : FieldType} {x : t.Elem} (hx : t.Admissible x) (dest : t.Elem) :
    Delivers Offers (extract t dest) [(t, TxStream.insert t x)] (t.through heardFloat x) := by
  by_cases hwide : t = .wstring
  · subst hwide
    exact delivers_wstring hx dest
  · have hm : (t, TxStream.insert t x) ≠ emptyWide := fun h => hwide (congrArg Prod.fst h)
    have hfloat : ∀ bits : UInt32, floatValue (heard (.float bits)) = some (heardFloat bits) :=
      fun _ => rfl
    cases t with
    | uint64 => exact delivers_integer _ hm rfl rfl
    | uint32 => exact delivers_integer _ hm rfl (UInt32.toUInt32_toUInt64 x)
    | uint16 => exact delivers_integer _ hm rfl (UInt16.toUInt16_toUInt64 x)
    | uint8 => exact delivers_integer _ hm rfl (UInt8.toUInt8_toUInt64 x)
    | int64 =>
      have h : integerValue (heard (TxStream.insertInt64 x)) = some x := by
        rw [heard_insertInt64]
        rfl
      exact (delivers_next hm h).map fun v => v.getD dest
    | int32 => exact delivers_integer _ hm (heard_insertInt64 _) (Int32.toInt32_toInt64 x)
    | int16 => exact delivers_integer _ hm (heard_insertInt64 _) (Int16.toInt16_toInt64 x)
    | int8 => exact delivers_integer _ hm (heard_insertInt64 _) (Int8.toInt8_toInt64 x)
    | char =>
      have hstring : stringValue (heard (.tstr [x])) = some ([x].takeWhile (· ≠ 0)) := rfl
      have hchar : ([x].takeWhile (· ≠ 0)).headD 0 = x := by
        by_cases h : x = 0
        · rw [h]
          rfl
        · simp [h]
      have hread := (delivers_next hm hstring).map fun v => (v.map fun s => s.headD 0).getD dest
      simp only [Option.map_some, Option.getD_some, hchar] at hread
      exact hread
    | float => exact (delivers_next hm (hfloat x)).map fun v => v.getD dest
    | double => exact delivers_local hm (hfloat (Binary.narrow x)) Binary.widen
    | string =>
      have hstring : stringValue (heard (.tstr x)) = some x := by
        rw [heard_string hx.nulFree]
        rfl
      exact (delivers_next hm hstring).map fun v => v.getD dest
    | wstring => exact absurd rfl hwide
    | bool =>
      intro s hs
      exact absurd rfl (along_singleton.mp hs).1

lemma delivers_extractVector {t : FieldType} {v : List t.Elem} (hv : ∀ x ∈ v, t.Admissible x)
    (hlen : v.length < 2 ^ 32) (dest : List t.Elem) :
    Delivers Offers (extractVector t dest) (Insertion.vector t v).typedFields
      (v.map (t.through heardFloat)) := by
  have hsize := RmwDesert.RxStream.toNat_ofNat_length hlen
  let items : List.Vector t.Elem (UInt32.ofNat v.length).toNat := ⟨v, hsize.symm⟩
  have hitems : Delivers Offers (deserializeSequence t
      (RmwDesert.RxStream.resize t dest (UInt32.ofNat v.length).toNat))
      (v.flatMap fun x => [(t, TxStream.insert t x)]) (items.map (t.through heardFloat)) :=
    delivers_update items _ fun x hx d => delivers_extract (hv x hx) d
  have hcount : Delivers Offers (extractInteger fun n => n.toUInt64.toUInt32)
      [(t, TxStream.insert .uint32 (UInt32.ofNat v.length))] (UInt32.ofNat v.length) :=
    delivers_integer _ (fun h => Field.noConfusion (congrArg Prod.snd h)) rfl
      (UInt32.toUInt32_toUInt64 _)
  have htoks : (Insertion.vector t v).typedFields
      = [(t, TxStream.insert .uint32 (UInt32.ofNat v.length))]
        ++ v.flatMap fun x => [(t, TxStream.insert t x)] := by
    rw [Insertion.typedFields, Insertion.fields, TxStream.insertVector,
      TxStream.serializeSequence, List.map_cons, List.map_map, List.map_eq_flatMap]
    rfl
  rw [htoks]
  exact hcount.bind (hitems.map List.Vector.toList)

/-- The fields of an insertion are read back, if they are offered. -/
lemma delivers_extractInto {i dest : Insertion} (hshape : SameShape dest i) (hi : i.Admissible)
    (hlen : i.fields.length ≤ 2 ^ 32) :
    Delivers Offers (extractInto extract extractAnyVector dest) i.typedFields
      (i.through heardFloat) := by
  cases hshape with
  | scalar t x y => exact (delivers_extract hi x).map (Insertion.scalar t)
  | vector t v w =>
    rw [Insertion.length_fields_vector] at hlen
    have hread := delivers_extractVector hi (by omega) v
    intro s hs
    have ht : t ≠ .bool := hs.1.1
    show (extractAnyVector t v >>= fun y => pure (Insertion.vector t y)) s = _
    rw [extractAnyVector_of_ne ht]
    exact hread.map (Insertion.vector t) s hs

lemma delivers_extractAll {dests insertions : List Insertion}
    (hshape : List.Forall₂ SameShape dests insertions) (h : ∀ i ∈ insertions, i.Admissible)
    (hlen : ∀ i ∈ insertions, i.fields.length ≤ 2 ^ 32) :
    Delivers Offers (extractAll extract extractAnyVector dests)
      (insertions.flatMap Insertion.typedFields) (insertions.map (.through heardFloat)) := by
  induction hshape with
  | nil => exact delivers_pure []
  | @cons dest i dests insertions hfirst _ ih =>
    have hread := delivers_extractInto hfirst (h i (by simp)) (hlen i (by simp))
    have hrest := (ih (fun j hj => h j (by simp [hj])) fun j hj => hlen j (by simp [hj])).map
      fun xs => i.through heardFloat :: xs
    exact hread.bind hrest

end

/-! ## Destinations that need their fields -/

lemma local_ok {α β : Type} (value : Decoded → Option α) {g : α → β} {s s' : RxStream} {y : β}
    (h : (do return g (← initialised (← next value)) : RxM β) s = .ok (y, s')) :
    s' = s.advance 1 ∧ ∃ f, s.current = some f ∧ (value f).isSome := by
  obtain ⟨found, s₁, hnext, h⟩ := bind_ok h
  obtain ⟨rfl, rfl⟩ := Prod.mk.inj (Except.ok.inj hnext)
  cases hcurrent : s.current with
  | none =>
    rw [hcurrent] at h
    cases h
  | some f =>
    rw [hcurrent, Option.bind_some] at h
    cases hvalue : value f with
    | none =>
      rw [hvalue] at h
      cases h
    | some x =>
      rw [hvalue] at h
      exact ⟨(Prod.mk.inj (Except.ok.inj h)).2.symm, f, rfl, by simp [hvalue]⟩

lemma next_ok {α β : Type} (value : Decoded → Option α) {g : Option α → β} {s s' : RxStream}
    {y : β} (h : (do return g (← next value) : RxM β) s = .ok (y, s')) :
    s' = s.advance 1 ∧ (s.current = none → y = g none) := by
  obtain ⟨found, s₁, hnext, h⟩ := bind_ok h
  obtain ⟨rfl, rfl⟩ := Prod.mk.inj (Except.ok.inj hnext)
  obtain ⟨rfl, rfl⟩ := Prod.mk.inj (Except.ok.inj h)
  refine ⟨rfl, fun hnone => ?_⟩
  rw [hnone]
  rfl

/-- A boolean is read from a simple value and from nothing else. -/
lemma extract_bool_ok [Convertor] {dest x : Bool} {s s' : RxStream}
    (h : extract .bool dest s = .ok (x, s')) :
    s' = s.advance 1 ∧ ∃ value, s.current = some (.simpleValue value) := by
  obtain ⟨rfl, f, hcurrent, hf⟩ := local_ok simpleValue h
  cases f with
  | simpleValue value => exact ⟨rfl, value, hcurrent⟩
  | integer n | float bits | string s => cases hf

lemma found_of_current {s : RxStream} {m : FieldType × Field} {f : Decoded}
    (hcurrent : s.current = some f) (hbool : m.1 = .bool → ∃ value, f = .simpleValue value) :
    Found s m := by
  refine ⟨fun hnone => ?_, fun hm => ?_⟩
  · rw [hnone] at hcurrent
    cases hcurrent
  · obtain ⟨value, rfl⟩ := hbool hm
    exact ⟨value, hcurrent⟩

section

variable [Convertor]

/-- A destination that changes has found its field. -/
lemma extract_ok {t : FieldType} {dest x : t.Elem} {s s' : RxStream}
    (h : extract t dest s = .ok (x, s')) (hne : dest ≠ x) :
    s' = s.advance 1 ∧ Found s (t, TxStream.insert t x) := by
  have hlocal : ∀ {P : Decoded → Prop}, t ≠ .bool →
      (s' = s.advance 1 ∧ ∃ f, s.current = some f ∧ P f) →
      s' = s.advance 1 ∧ Found s (t, TxStream.insert t x) := by
    rintro P hbool ⟨hs, f, hf, -⟩
    exact ⟨hs, found_of_current hf fun ht => absurd ht hbool⟩
  have hnext : t ≠ .bool → (s' = s.advance 1 ∧ (s.current = none → x = dest)) →
      s' = s.advance 1 ∧ Found s (t, TxStream.insert t x) := by
    rintro hbool ⟨hs, hnone⟩
    exact ⟨hs, fun h => absurd (hnone h).symm hne, fun ht => absurd ht hbool⟩
  cases t with
  | uint64 | uint32 | uint16 | uint8 | int32 | int16 | int8 =>
    exact hlocal FieldType.noConfusion (local_ok integerValue h)
  | double => exact hlocal FieldType.noConfusion (local_ok floatValue h)
  | int64 => exact hnext FieldType.noConfusion (next_ok integerValue h)
  | char | string => exact hnext FieldType.noConfusion (next_ok stringValue h)
  | float => exact hnext FieldType.noConfusion (next_ok floatValue h)
  | bool =>
    obtain ⟨hs, value, hcurrent⟩ := extract_bool_ok h
    exact ⟨hs, found_of_current hcurrent fun _ => ⟨value, rfl⟩⟩
  | wstring =>
    obtain ⟨found, s₁, hfound, h⟩ := bind_ok h
    obtain ⟨rfl, rfl⟩ := Prod.mk.inj (Except.ok.inj hfound)
    obtain ⟨hunits, rfl⟩ := liftM_ok h
    refine ⟨rfl, fun hnone => ?_, FieldType.noConfusion⟩
    -- nothing was found, and nothing becomes the empty string
    rw [hnone] at hunits
    obtain rfl : [] = x := Except.ok.inj ((Convertor.fromBytes_utf8Encode []).symm.trans hunits)
    rfl

/-- Elements that all change have all been found. -/
lemma update_ok {t : FieldType} : ∀ {n : ℕ} {items results : List.Vector t.Elem n}
    {s s' : RxStream}, deserializeSequence t items s = .ok (results, s') →
    (∀ i, items.get i ≠ results.get i) →
    Along Found s (results.toList.map fun x => (t, TxStream.insert t x)) ∧ s' = s.advance n := by
  intro n
  induction n with
  | zero =>
    intro items results s s' h _
    obtain ⟨-, rfl⟩ := Prod.mk.inj (Except.ok.inj h)
    obtain rfl := results.eq_nil
    exact ⟨trivial, rfl⟩
  | succ n ih =>
    intro items results s s' h hne
    obtain ⟨x, s₁, hfirst, h⟩ := bind_ok h
    obtain ⟨xs, s₂, hrest, h⟩ := bind_ok h
    obtain ⟨rfl, rfl⟩ := Prod.mk.inj (Except.ok.inj h)
    have hhead : items.head ≠ x := by simpa using hne 0
    have htail : ∀ i, items.tail.get i ≠ xs.get i := fun i => by simpa using hne i.succ
    obtain ⟨rfl, hfound⟩ := extract_ok hfirst hhead
    obtain ⟨hfounds, rfl⟩ := ih hrest htail
    refine ⟨⟨hfound, hfounds⟩, ?_⟩
    rw [Nat.add_comm n 1]
    exact Cursor.advance_advance 1 n s

end

lemma length_extractBools : ∀ (turns i : ℕ) {v w : List Bool} {s s' : RxStream},
    extractBools turns i v s = .ok (w, s') → w.length = v.length
  | 0, _, v, w, s, s', h => by
    obtain ⟨rfl, -⟩ := Prod.mk.inj (Except.ok.inj h)
    rfl
  | turns + 1, i, v, w, s, s', h => by
    obtain ⟨b, s₁, -, h⟩ := bind_ok h
    split_ifs at h with hi
    · rw [length_extractBools turns (i + 1) h, List.length_set]
    · cases h

/-- The operator for vectors of booleans never changes their length. -/
lemma length_extractBoolVector {v w : List Bool} {s s' : RxStream}
    (h : extractBoolVector v s = .ok (w, s')) : w.length = v.length := by
  obtain ⟨size, s₁, -, h⟩ := bind_ok h
  exact length_extractBools size.toNat 0 h

section

variable [Convertor]

/-- A vector whose elements all change has found all of its fields. -/
lemma extractVector_ok {t : FieldType} (ht : t ≠ .bool) {v : List t.Elem} {other : t.Elem → t.Elem}
    (hother : ∀ x, other x ≠ x) {s s' : RxStream}
    (h : extractVector t (v.map other) s = .ok (v, s')) :
    Along Found s (Insertion.vector t v).typedFields ∧ s' = s.advance (v.length + 1) := by
  obtain ⟨size, s₁, hsize, h⟩ := bind_ok h
  obtain ⟨rfl, f, hcurrent, -⟩ := local_ok integerValue hsize
  obtain ⟨items, s₂, hitems, h⟩ := bind_ok h
  obtain ⟨hv, rfl⟩ := Prod.mk.inj (Except.ok.inj h)
  have hlen : size.toNat = v.length := by rw [← hv, List.Vector.toList_length]
  have hne : ∀ i, (RmwDesert.RxStream.resize t (v.map other) size.toNat).get i ≠ items.get i := by
    intro i
    have hi : i.val < v.length := hlen ▸ i.isLt
    have hitem : items.get i = v[i.val] := by
      simp only [← hv, List.Vector.get_eq_get_toList]
      rfl
    have hdest : (RmwDesert.RxStream.resize t (v.map other) size.toNat).get i = other v[i.val] := by
      simp [RmwDesert.RxStream.resize, List.getD, hi]
    rw [hitem, hdest]
    exact hother _
  obtain ⟨hfounds, rfl⟩ := update_ok hitems hne
  rw [hv] at hfounds
  have hfound : Found s (t, TxStream.insert .uint32 (UInt32.ofNat v.length)) :=
    found_of_current hcurrent fun hbool => absurd hbool ht
  have htoks : (Insertion.vector t v).typedFields
      = (t, TxStream.insert .uint32 (UInt32.ofNat v.length))
        :: v.map fun x => (t, TxStream.insert t x) := by
    rw [Insertion.typedFields, Insertion.fields, TxStream.insertVector,
      TxStream.serializeSequence, List.map_cons, List.map_map]
    rfl
  rw [htoks]
  refine ⟨⟨hfound, hfounds⟩, ?_⟩
  rw [← hlen, Nat.add_comm]
  exact Cursor.advance_advance 1 size.toNat s

/-- An extraction that ends with the given operand has found its fields. -/
def Asks (dest i : Insertion) : Prop :=
  ∀ s s' : RxStream, extractInto extract extractAnyVector dest s = .ok (i, s') →
    Along Found s i.typedFields ∧ s' = s.advance i.typedFields.length

lemma exists_asks_scalar {t : FieldType} (x : t.Elem) :
    ∃ y, Asks (.scalar t y) (.scalar t x) := by
  obtain ⟨y, hy⟩ := t.exists_ne x
  refine ⟨y, fun s s' h => ?_⟩
  obtain ⟨z, s₁, hextract, h⟩ := bind_ok h
  obtain ⟨hz, rfl⟩ := Prod.mk.inj (Except.ok.inj h)
  obtain rfl : z = x := eq_of_heq (Insertion.scalar.inj hz).2
  obtain ⟨hs, hfound⟩ := extract_ok hextract hy
  exact ⟨⟨hfound, trivial⟩, hs⟩

lemma exists_asks_vector {t : FieldType} (v : List t.Elem) :
    ∃ w, Asks (.vector t w) (.vector t v) := by
  by_cases hbool : t = .bool
  · -- the length of the destination stays, so a longer one never ends as `v`
    subst hbool
    refine ⟨true :: v, fun s s' h => ?_⟩
    obtain ⟨z, s₁, hextract, h⟩ := bind_ok h
    obtain ⟨hz, rfl⟩ := Prod.mk.inj (Except.ok.inj h)
    obtain rfl : z = v := eq_of_heq (Insertion.vector.inj hz).2
    have hlen := length_extractBoolVector hextract
    simp at hlen
  · choose other hother using t.exists_ne
    refine ⟨v.map other, fun s s' h => ?_⟩
    obtain ⟨z, s₁, hextract, h⟩ := bind_ok h
    obtain ⟨hz, rfl⟩ := Prod.mk.inj (Except.ok.inj h)
    obtain rfl : z = v := eq_of_heq (Insertion.vector.inj hz).2
    rw [extractAnyVector_of_ne hbool] at hextract
    rw [Insertion.length_typedFields, Insertion.length_fields_vector]
    exact extractVector_ok hbool hother hextract

lemma exists_asks (i : Insertion) : ∃ dest, SameShape dest i ∧ Asks dest i := by
  cases i with
  | scalar t x =>
    obtain ⟨y, hy⟩ := exists_asks_scalar x
    exact ⟨_, .scalar t y x, hy⟩
  | vector t v =>
    obtain ⟨w, hw⟩ := exists_asks_vector v
    exact ⟨_, .vector t w v, hw⟩

/-- Extractions that end with the given operands have found all of their fields, for some
destinations. -/
lemma exists_asks_all (insertions : List Insertion) :
    ∃ dests, List.Forall₂ SameShape dests insertions ∧ ∀ s s' : RxStream,
      extractAll extract extractAnyVector dests s = .ok (insertions, s') →
      Along Found s (insertions.flatMap Insertion.typedFields) := by
  induction insertions with
  | nil => exact ⟨[], .nil, fun s s' _ => trivial⟩
  | cons i insertions ih =>
    obtain ⟨dest, hfirst, hasks⟩ := exists_asks i
    obtain ⟨dests, hshape, hrest⟩ := ih
    refine ⟨dest :: dests, .cons hfirst hshape, fun s s' h => ?_⟩
    obtain ⟨x, s₁, hx, h⟩ := bind_ok h
    obtain ⟨xs, s₂, hxs, h⟩ := bind_ok h
    obtain ⟨hlist, rfl⟩ := Prod.mk.inj (Except.ok.inj h)
    obtain ⟨rfl, rfl⟩ := List.cons.inj hlist
    obtain ⟨hfound, rfl⟩ := hasks s s₁ hx
    rw [List.flatMap_cons, along_append]
    exact ⟨hfound, hrest _ _ hxs⟩

/-- **Extraction from a packet that ends after `k` fields.**  All destinations end with the
inserted values if and only if no boolean is among them, the missing fields are empty wide
strings, and no float is taken for another one. -/
theorem extractAll_iff {insertions : List Insertion} (h : ∀ i ∈ insertions, i.Admissible)
    (hlen : ∀ i ∈ insertions, i.fields.length ≤ 2 ^ 32) {s : RxStream} {k : ℕ}
    (hs : Cursor.pending s = ((insertions.flatMap Insertion.fields).take k).map heard) :
    (∀ dests, List.Forall₂ SameShape dests insertions →
      ∃ s', extractAll extract extractAnyVector dests s = .ok (insertions.map .rounded, s')) ↔
    ((∀ i ∈ insertions, i.type ≠ .bool) ∧
      ∀ m ∈ (insertions.flatMap Insertion.typedFields).drop k, m = emptyWide) ∧
    ∀ f ∈ insertions.flatMap Insertion.fields, f.through heardFloat = f := by
  have hpending : Cursor.pending s
      = ((insertions.flatMap Insertion.typedFields).take k).map fun m => heard m.2 := by
    rw [hs, ← Insertion.map_snd_typedFields, ← List.map_take, List.map_map]
    rfl
  have hoffers := along_offers_iff hpending
  rw [Insertion.forall_type_iff (p := (· ≠ .bool))] at hoffers
  rw [← hoffers, ← Insertion.map_through_eq_iff h]
  constructor
  · intro hall
    obtain ⟨dests, hshape, hfound⟩ := exists_asks_all (insertions.map Insertion.rounded)
    have hshape := (List.forall₂_map_right_iff.mp hshape).imp fun _ _ => SameShape.of_rounded
    obtain ⟨s', hextract⟩ := hall dests hshape
    have htyped : (insertions.map Insertion.rounded).flatMap Insertion.typedFields
        = insertions.flatMap Insertion.typedFields := by
      rw [List.flatMap_map]
      exact List.flatMap_congr fun i _ => i.typedFields_rounded
    have hfounds := hfound s s' hextract
    rw [htyped] at hfounds
    have hoffered := along_offers_of_found hpending hfounds
    have hdelivered := delivers_extractAll hshape h hlen s hoffered
    rw [hextract] at hdelivered
    exact ⟨hoffered, (Prod.mk.inj (Except.ok.inj hdelivered)).1.symm⟩
  · rintro ⟨hoffered, hheard⟩ dests hshape
    rw [← hheard]
    exact ⟨_, delivers_extractAll hshape h hlen s hoffered⟩

end

end RxStream
end LibMcu
end RmwDesert
