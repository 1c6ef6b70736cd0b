/-
The conversion of wide strings in the libmcu build (`TxStream::toUTF8` and `RxStream::toUTF16` of
`LibMcuCBorStream.cpp`).

Both are one call of `std::wstring_convert`.  Its `to_bytes` stops at a high surrogate that ends
the string, and throws at any other surrogate that is not in a pair.  What `from_bytes` does with
bytes that are not well-formed differs between the releases of the standard library, so it is a
parameter: of a `Convertor` only the conversion of well-formed text is known.
-/
import RmwDesert.RxStream

namespace RmwDesert
namespace LibMcu

open Unicode

/-! ## To UTF-8 -/

/-- `TxStream::toUTF8`, which is `to_bytes` of the standard library.  A high surrogate at the end
is incomplete and is left out; any other surrogate that is not in a pair is an error. -/
def toUTF8 : List UInt16 → Except Failure (List UInt8)
  | [] => .ok []
  | unit :: source =>
    if 0xD800 ≤ unit.toNat ∧ unit.toNat ≤ 0xDBFF then
      match source with
      | [] => .ok []
      | low :: source =>
        if low.toNat < 0xDC00 ∨ 0xDFFF < low.toNat then
          .error (.runtimeError "wstring_convert::to_bytes")
        else do
          let bytes ← toUTF8 source
          return Transcoding.appendCodePoint
            (0x10000 + ((unit.toNat - 0xD800) <<< 10) + (low.toNat - 0xDC00)) ++ bytes
    else if 0xDC00 ≤ unit.toNat ∧ unit.toNat ≤ 0xDFFF then
      .error (.runtimeError "wstring_convert::to_bytes")
    else do
      let bytes ← toUTF8 source
      return Transcoding.appendCodePoint unit.toNat ++ bytes

/-- One turn over the code units of a scalar value. -/
lemma toUTF8_char (c : Char) (source : List UInt16) :
    toUTF8 (utf16EncodeChar c ++ source)
      = (toUTF8 source).map (String.utf8EncodeChar c ++ ·) := by
  have hmax := toNat_cases c
  rw [utf16EncodeChar, ← Transcoding.appendCodePoint_eq]
  split_ifs with h
  · -- one unit, which is not a surrogate
    have hunit : (UInt16.ofNat c.toNat).toNat = c.toNat := by
      rw [UInt16.toNat_ofNat']
      omega
    rw [List.singleton_append, toUTF8.eq_def]
    simp only [hunit]
    rw [if_neg (by omega), if_neg (by omega)]
    cases toUTF8 source <;> rfl
  · -- a surrogate pair
    set v := c.toNat - 0x10000 with hv
    have hhigh : (UInt16.ofNat (0xD800 + v / 1024)).toNat = 0xD800 + v / 1024 := by
      rw [UInt16.toNat_ofNat']
      omega
    have hlow : (UInt16.ofNat (0xDC00 + v % 1024)).toNat = 0xDC00 + v % 1024 := by
      rw [UInt16.toNat_ofNat']
      omega
    have hcp : 0x10000 + ((0xD800 + v / 1024 - 0xD800) <<< 10) + (0xDC00 + v % 1024 - 0xDC00)
        = c.toNat := by
      rw [Nat.shiftLeft_eq]
      omega
    rw [List.cons_append, List.singleton_append, toUTF8.eq_def]
    simp only [hhigh, hlow]
    rw [if_pos (by omega), if_neg (by omega), hcp]
    cases toUTF8 source <;> rfl

lemma toUTF8_append (text : List Char) (source : List UInt16) :
    toUTF8 (utf16Encode text ++ source) = (toUTF8 source).map (utf8Encode text ++ ·) := by
  induction text with
  | nil =>
    rw [utf16Encode_nil, List.nil_append]
    cases toUTF8 source <;> rfl
  | cons c text ih =>
    rw [utf16Encode_cons, List.append_assoc, toUTF8_char, ih, utf8Encode_cons]
    cases toUTF8 source with
    | error e => rfl
    | ok bytes => exact congrArg Except.ok (List.append_assoc _ _ _).symm

/-- The UTF-16 form of a text becomes its UTF-8 form. -/
theorem toUTF8_utf16Encode (text : List Char) :
    toUTF8 (utf16Encode text) = .ok (utf8Encode text) := by
  have h := toUTF8_append text []
  rw [List.append_nil] at h
  rw [h]
  exact congrArg Except.ok (List.append_nil _)

/-- The text of a string that may end in a high surrogate. -/
def Begins (units : List UInt16) (text : List Char) : Prop :=
  units = utf16Encode text ∨ ∃ high, IsHigh high ∧ units = utf16Encode text ++ [high]

/-- A character in front of what is converted. -/
lemma exists_begins_append {source : List UInt16} (c : Char)
    (ih : ∀ bytes, toUTF8 source = .ok bytes →
      ∃ text, Begins source text ∧ bytes = utf8Encode text)
    {bytes : List UInt8} (h : toUTF8 (utf16EncodeChar c ++ source) = .ok bytes) :
    ∃ text, Begins (utf16EncodeChar c ++ source) text ∧ bytes = utf8Encode text := by
  rw [toUTF8_char] at h
  cases hsource : toUTF8 source with
  | error e =>
    rw [hsource] at h
    cases h
  | ok rest =>
    rw [hsource] at h
    obtain rfl := Except.ok.inj h
    obtain ⟨text, hbegins, rfl⟩ := ih rest hsource
    refine ⟨c :: text, ?_, (utf8Encode_cons c text).symm⟩
    rcases hbegins with rfl | ⟨high, hhigh, rfl⟩
    · exact Or.inl (utf16Encode_cons c text).symm
    · refine Or.inr ⟨high, hhigh, ?_⟩
      rw [utf16Encode_cons, List.append_assoc]

/-- What is converted is a text, and a high surrogate behind it is left out. -/
theorem toUTF8_eq_ok_iff {units : List UInt16} {bytes : List UInt8} :
    toUTF8 units = .ok bytes ↔ ∃ text, Begins units text ∧ bytes = utf8Encode text := by
  constructor
  · intro h
    induction units using toUTF8.induct generalizing bytes with
    | case1 => exact ⟨[], Or.inl rfl, (Except.ok.inj h).symm⟩
    | case2 unit hhigh =>
      refine ⟨[], Or.inr ⟨unit, hhigh, rfl⟩, ?_⟩
      rw [toUTF8.eq_def] at h
      simp only [hhigh, and_self, if_true] at h
      exact (Except.ok.inj h).symm
    | case3 unit hhigh low source hbad =>
      rw [toUTF8.eq_def] at h
      simp only [hhigh, hbad, and_self, if_true] at h
      cases h
    | case4 unit hhigh low source hlow ih =>
      obtain ⟨c, -, hpair⟩ := exists_char_pair hhigh (show IsLow low from ⟨by omega, by omega⟩)
      have hunits : unit :: low :: source = utf16EncodeChar c ++ source := by rw [hpair]; rfl
      rw [hunits] at h ⊢
      exact exists_begins_append c (fun _ => ih) h
    | case5 unit source hhigh hlow =>
      rw [toUTF8.eq_def] at h
      simp only [hhigh, hlow, if_false, and_self, if_true] at h
      cases h
    | case6 unit source hhigh hlow ih =>
      obtain ⟨c, -, hunit⟩ := exists_char_unit hhigh hlow
      have hunits : unit :: source = utf16EncodeChar c ++ source := by rw [hunit]; rfl
      rw [hunits] at h ⊢
      exact exists_begins_append c (fun _ => ih) h
  · rintro ⟨text, rfl | ⟨high, hhigh, rfl⟩, rfl⟩
    · exact toUTF8_utf16Encode text
    · have hend : toUTF8 [high] = .ok [] := by
        rw [toUTF8.eq_def]
        exact if_pos hhigh
      rw [toUTF8_append, hend]
      exact congrArg Except.ok (List.append_nil _)

/-! ## The text that is sent -/

/-- The end of well-formed text is not a high surrogate. -/
lemma not_isHigh_of_getLast? {units : List UInt16} (h : Paired units) :
    ∀ unit ∈ units.getLast?, ¬ IsHigh unit := by
  induction h with
  | nil => simp
  | @unit unit rest hhigh hlow hrest ih =>
    rw [List.getLast?_cons]
    cases hlast : rest.getLast? with
    | none => simpa [hlast] using hhigh
    | some last => simpa [hlast] using ih last hlast
  | @pair high low rest hhigh hlow hrest ih =>
    have hnot : ¬ IsHigh low := fun h => by
      rw [IsHigh] at h
      rw [IsLow] at hlow
      omega
    rw [List.getLast?_cons_cons, List.getLast?_cons]
    cases hlast : rest.getLast? with
    | none => simpa [hlast] using hnot
    | some last => simpa [hlast] using ih last hlast

instance (unit : UInt16) : Decidable (IsHigh unit) := inferInstanceAs (Decidable (_ ∧ _))

/-- The part of a wide string that is sent: all of it but a high surrogate at the end. -/
def sentUnits (units : List UInt16) : List UInt16 :=
  if ∃ unit ∈ units.getLast?, IsHigh unit then units.dropLast else units

lemma Begins.sentUnits_eq {units : List UInt16} {text : List Char} (h : Begins units text) :
    sentUnits units = utf16Encode text := by
  rcases h with rfl | ⟨high, hhigh, rfl⟩
  · have hpaired := (isUtf16_iff_paired _).mp ⟨text, rfl⟩
    refine if_neg ?_
    rintro ⟨unit, hunit, hhigh⟩
    exact not_isHigh_of_getLast? hpaired unit hunit hhigh
  · rw [sentUnits, if_pos ⟨high, by simp, hhigh⟩, List.dropLast_concat]

/-! ## To UTF-16 -/

/-- `std::wstring_convert<std::codecvt_utf8_utf16<char16_t>, char16_t>`, as far as the releases of
the library agree. -/
class Convertor where
  /-- `from_bytes`. -/
  fromBytes : List UInt8 → Except Failure (List UInt16)
  fromBytes_utf8Encode : ∀ text, fromBytes (utf8Encode text) = .ok (utf16Encode text)

/-- The ranges of the bytes behind the first one of a sequence. -/
def tailRanges (first : ℕ) : Option (List (ℕ × ℕ)) :=
  if first ≤ 0x7F then some []
  else if first < 0xC2 then none
  else if first ≤ 0xDF then some [tail]
  else if first = 0xE0 then some [(0xA0, 0xBF), tail]
  else if first = 0xED then some [(0x80, 0x9F), tail]
  else if first ≤ 0xEF then some [tail, tail]
  else if first = 0xF0 then some [(0x90, 0xBF), tail, tail]
  else if first ≤ 0xF3 then some [tail, tail, tail]
  else if first = 0xF4 then some [(0x80, 0x8F), tail, tail]
  else none

/-- What is left behind the bytes of a sequence, or nothing if the input ends before it does. -/
def tailBytes : List (ℕ × ℕ) → List UInt8 → Except Failure (Option (List UInt8))
  | [], source => .ok (some source)
  | _ :: _, [] => .ok none
  | range :: ranges, byte :: source =>
    if range.1 ≤ byte.toNat ∧ byte.toNat ≤ range.2 then tailBytes ranges source
    else .error (.runtimeError "wstring_convert::from_bytes")

/-- The conversion of one sequence after the other.  A whole one is converted as in the other
build, and one that the input cuts off ends the conversion. -/
def fromBytesLoop : ℕ → List UInt8 → Except Failure (List UInt16)
  | _, [] | 0, _ :: _ => .ok []
  | fuel + 1, first :: source =>
    match tailRanges first.toNat with
    | none => .error (.runtimeError "wstring_convert::from_bytes")
    | some ranges => do
      match ← tailBytes ranges source with
      | none => return []
      | some rest =>
        let units ← fromBytesLoop fuel rest
        return Transcoding.toUTF16 (first :: source.take ranges.length) ++ units

lemma tailRanges_of_production {p : List (ℕ × ℕ)} (hp : p ∈ productions) {first : UInt8}
    {bytes : List UInt8} (h : List.Forall₂ InRange (first :: bytes) p) :
    tailRanges first.toNat = some p.tail := by
  rw [tailRanges]
  simp only [productions, List.mem_cons, List.not_mem_nil, or_false] at hp
  rcases hp with rfl | rfl | rfl | rfl | rfl | rfl | rfl | rfl | rfl <;>
  · have hfirst := (List.forall₂_cons.mp h).1
    rw [inRange_iff] at hfirst
    repeat rw [if_neg (by omega)]
    exact if_pos (by omega)

lemma tailBytes_of_forall₂ {ranges : List (ℕ × ℕ)} {bytes : List UInt8}
    (h : List.Forall₂ InRange bytes ranges) (source : List UInt8) :
    tailBytes ranges (bytes ++ source) = .ok (some source) := by
  induction h with
  | nil => rfl
  | cons hbyte _ ih => exact (if_pos hbyte).trans ih

/-- One turn over the bytes of a scalar value. -/
lemma fromBytesLoop_char (fuel : ℕ) (c : Char) (source : List UInt8) :
    fromBytesLoop (fuel + 1) (String.utf8EncodeChar c ++ source)
      = (fromBytesLoop fuel source).map (utf16EncodeChar c ++ ·) := by
  have hone := Transcoding.toUTF16_utf8Encode [c]
  rw [utf8Encode_cons, utf16Encode_cons, utf8Encode_nil, utf16Encode_nil, List.append_nil,
    List.append_nil] at hone
  obtain ⟨p, hp, hbytes⟩ := utf8Char_utf8EncodeChar c
  generalize String.utf8EncodeChar c = bytes at hone hbytes
  cases bytes with
  | nil =>
    obtain rfl := List.forall₂_nil_left_iff.mp hbytes
    exact absurd hp (by decide)
  | cons first bytes =>
    have hranges := tailRanges_of_production hp hbytes
    obtain ⟨range, ranges, -, hrest, rfl⟩ := List.forall₂_cons_left_iff.mp hbytes
    have htake : (bytes ++ source).take ranges.length = bytes := by
      rw [← hrest.length_eq, List.take_left]
    rw [List.cons_append, fromBytesLoop, hranges]
    simp only [List.tail_cons, tailBytes_of_forall₂ hrest source, htake, hone]
    cases hloop : fromBytesLoop fuel source with
    | error e =>
      show (fromBytesLoop fuel source >>= _) = _
      rw [hloop]
      rfl
    | ok units =>
      show (fromBytesLoop fuel source >>= _) = _
      rw [hloop]
      rfl

lemma fromBytesLoop_encode (text : List Char) : ∀ fuel : ℕ, text.length ≤ fuel →
    fromBytesLoop fuel (utf8Encode text) = .ok (utf16Encode text) := by
  induction text with
  | nil =>
    intro fuel _
    cases fuel <;> rfl
  | cons c text ih =>
    intro fuel hfuel
    obtain ⟨fuel, rfl⟩ : ∃ n, fuel = n + 1 := ⟨fuel - 1, by simp at hfuel; omega⟩
    rw [utf8Encode_cons, fromBytesLoop_char, ih fuel (by simpa using hfuel), utf16Encode_cons]
    rfl

/-- The release 13 of the library of GCC. -/
instance libstdcxx : Convertor where
  fromBytes source := fromBytesLoop source.length source
  fromBytes_utf8Encode text := fromBytesLoop_encode text _ (length_le_utf8Encode text)

end LibMcu
end RmwDesert
