/-
The transcoding of wide strings (`TxStream::toUTF8` and `RxStream::toUTF16` of
`NanoCBorStream.cpp`).

CBOR has no UTF-16, so a `u16string` travels as UTF-8.  Both functions are loops that carry
the result and return the empty string at the first ill-formed place.  The code points are
`uint32_t` in the source; every value they take is below `2 ^ 21`, so they are natural
numbers here.
-/
import RmwDesert.Lib.Unicode

namespace RmwDesert
namespace Transcoding

open Unicode

/-- The bytes that `toUTF8` appends for a code point. -/
def appendCodePoint (cp : ℕ) : List UInt8 :=
  if cp ≤ 0x7F then [UInt8.ofNat cp]
  else if cp ≤ 0x7FF then [UInt8.ofNat (0xC0 ||| (cp >>> 6)), UInt8.ofNat (0x80 ||| (cp &&& 0x3F))]
  else if cp ≤ 0xFFFF then
    [UInt8.ofNat (0xE0 ||| (cp >>> 12)), UInt8.ofNat (0x80 ||| ((cp >>> 6) &&& 0x3F)),
      UInt8.ofNat (0x80 ||| (cp &&& 0x3F))]
  else
    [UInt8.ofNat (0xF0 ||| (cp >>> 18)), UInt8.ofNat (0x80 ||| ((cp >>> 12) &&& 0x3F)),
      UInt8.ofNat (0x80 ||| ((cp >>> 6) &&& 0x3F)), UInt8.ofNat (0x80 ||| (cp &&& 0x3F))]

/-- The loop of `toUTF8` over the code units from index `i` on. -/
def toUTF8Loop : List UInt16 → List UInt8 → List UInt8
  | [], result => result
  | unit :: source, result =>
    if 0xD800 ≤ unit.toNat ∧ unit.toNat ≤ 0xDBFF then
      match source with
      | [] => []
      | low :: source =>
        if low.toNat < 0xDC00 ∨ 0xDFFF < low.toNat then []
        else toUTF8Loop source (result ++ appendCodePoint
          (0x10000 + ((unit.toNat - 0xD800) <<< 10) + (low.toNat - 0xDC00)))
    else if 0xDC00 ≤ unit.toNat ∧ unit.toNat ≤ 0xDFFF then []
    else toUTF8Loop source (result ++ appendCodePoint unit.toNat)

/-- `TxStream::toUTF8`. -/
def toUTF8 (source : List UInt16) : List UInt8 := toUTF8Loop source []

/-- What `toUTF16` reads off a leading byte: the bits of the code point in it, the smallest
code point of the class and the number of continuation bytes. -/
def leadingByte (first : ℕ) : Option (ℕ × ℕ × ℕ) :=
  if first ≤ 0x7F then some (first, 0, 0)
  else if 0xC2 ≤ first ∧ first ≤ 0xDF then some (first &&& 0x1F, 0x80, 1)
  else if 0xE0 ≤ first ∧ first ≤ 0xEF then some (first &&& 0x0F, 0x800, 2)
  else if 0xF0 ≤ first ∧ first ≤ 0xF4 then some (first &&& 0x07, 0x10000, 3)
  else none

/-- The inner loop of `toUTF16` over the continuation bytes. -/
def continuationBytes : ℕ → ℕ → List UInt8 → Option (ℕ × List UInt8)
  | 0, cp, source => some (cp, source)
  | _ + 1, _, [] => none
  | count + 1, cp, byte :: source =>
    if byte.toNat &&& 0xC0 ≠ 0x80 then none
    else continuationBytes count ((cp <<< 6) ||| (byte.toNat &&& 0x3F)) source

/-- The code units that `toUTF16` appends for a code point. -/
def pushCodePoint (cp : ℕ) : List UInt16 :=
  if cp ≤ 0xFFFF then [UInt16.ofNat cp]
  else [UInt16.ofNat (0xD800 + ((cp - 0x10000) >>> 10)),
        UInt16.ofNat (0xDC00 + ((cp - 0x10000) &&& 0x3FF))]

/-- The outer loop of `toUTF16` over the bytes from index `i` on.  Each turn takes at least
one byte, so the length of the source is fuel enough. -/
def toUTF16Loop : ℕ → List UInt8 → List UInt16 → List UInt16
  | _, [], result => result
  | 0, _ :: _, _ => []
  | fuel + 1, first :: source, result =>
    match leadingByte first.toNat with
    | none => []
    | some (bits, minimum, continuationCount) =>
      if source.length < continuationCount then []
      else
        match continuationBytes continuationCount bits source with
        | none => []
        | some (cp, source) =>
          if cp < minimum ∨ 0x10FFFF < cp ∨ (0xD800 ≤ cp ∧ cp ≤ 0xDFFF) then []
          else toUTF16Loop fuel source (result ++ pushCodePoint cp)

/-- `RxStream::toUTF16`. -/
def toUTF16 (source : List UInt8) : List UInt16 := toUTF16Loop source.length source []

example : toUTF16 (toUTF8 [0x41, 0xE9, 0x20AC, 0xD83D, 0xDE00])
    = [0x41, 0xE9, 0x20AC, 0xD83D, 0xDE00] := by decide

/-! ## The bit operations as arithmetic -/

lemma and_0x3F (n : ℕ) : n &&& 0x3F = n % 64 := Nat.and_two_pow_sub_one_eq_mod n 6

lemma and_0x3FF (n : ℕ) : n &&& 0x3FF = n % 1024 := Nat.and_two_pow_sub_one_eq_mod n 10

/-- Setting bits above the `k` low ones is an addition. -/
lemma or_eq_add (m k : ℕ) {a : ℕ} (h : a < 2 ^ k) : (m <<< k) ||| a = m * 2 ^ k + a := by
  rw [← Nat.shiftLeft_add_eq_or_of_lt h, Nat.shiftLeft_eq]

/-- The marker bits of a continuation byte. -/
lemma continuation_marker {a : ℕ} (h : a < 64) : (a + 128) &&& 0xC0 = 0x80 := by
  have : ∀ i : Fin 64, (i.val + 128) &&& 0xC0 = 0x80 := by decide
  exact this ⟨a, h⟩

lemma continuation_bits {a : ℕ} (h : a < 64) : (a + 128) &&& 0x3F = a := by
  rw [and_0x3F]
  omega

/-! ## Encoding one scalar value -/

lemma appendCodePoint_eq (c : Char) : appendCodePoint c.toNat = String.utf8EncodeChar c := by
  have h80 : ∀ a, 0x80 ||| (a &&& 0x3F) = a % 64 + 128 := fun a => by
    have hlow : a % 64 < 2 ^ 6 := Nat.mod_lt a (by decide)
    have hor : 0x80 ||| (a % 64) = 2 * 2 ^ 6 + a % 64 := or_eq_add 2 6 hlow
    rw [and_0x3F]
    omega
  have hmax := toNat_cases c
  rw [appendCodePoint, utf8EncodeChar_eq]
  simp only [h80, Nat.shiftRight_eq_div_pow]
  split_ifs with h1 h2 h3
  · rfl
  · have hlow : c.toNat / 2 ^ 6 < 2 ^ 5 := by omega
    have hor : 0xC0 ||| c.toNat / 2 ^ 6 = 6 * 2 ^ 5 + c.toNat / 2 ^ 6 :=
      or_eq_add 6 5 hlow
    have hlead : 0xC0 ||| c.toNat / 2 ^ 6 = c.toNat / 64 % 32 + 192 := by omega
    rw [hlead]
  · have hlow : c.toNat / 2 ^ 12 < 2 ^ 4 := by omega
    have hor : 0xE0 ||| c.toNat / 2 ^ 12 = 14 * 2 ^ 4 + c.toNat / 2 ^ 12 :=
      or_eq_add 14 4 hlow
    have hlead : 0xE0 ||| c.toNat / 2 ^ 12 = c.toNat / 4096 % 16 + 224 := by omega
    rw [hlead]
  · have hlow : c.toNat / 2 ^ 18 < 2 ^ 3 := by omega
    have hor : 0xF0 ||| c.toNat / 2 ^ 18 = 30 * 2 ^ 3 + c.toNat / 2 ^ 18 :=
      or_eq_add 30 3 hlow
    have hlead : 0xF0 ||| c.toNat / 2 ^ 18 = c.toNat / 262144 % 8 + 240 := by omega
    rw [hlead]

lemma pushCodePoint_eq (c : Char) : pushCodePoint c.toNat = utf16EncodeChar c := by
  rw [pushCodePoint, utf16EncodeChar]
  simp only [and_0x3FF, Nat.shiftRight_eq_div_pow]

/-- One turn of the loop of `toUTF8` over the code units of a scalar value. -/
lemma toUTF8Loop_char (c : Char) (source : List UInt16) (result : List UInt8) :
    toUTF8Loop (utf16EncodeChar c ++ source) result
      = toUTF8Loop source (result ++ String.utf8EncodeChar c) := by
  have hmax := toNat_cases c
  rw [utf16EncodeChar, ← appendCodePoint_eq]
  split_ifs with h
  · -- one unit, which is not a surrogate
    have hunit : (UInt16.ofNat c.toNat).toNat = c.toNat := by
      rw [UInt16.toNat_ofNat']
      omega
    rw [List.singleton_append, toUTF8Loop.eq_def]
    simp only [hunit]
    rw [if_neg (by omega), if_neg (by omega)]
  · -- a surrogate pair
    set v := c.toNat - 0x10000 with hv
    have hhigh : (UInt16.ofNat (0xD800 + v / 1024)).toNat = 0xD800 + v / 1024 := by
      rw [UInt16.toNat_ofNat']
      omega
    have hlow : (UInt16.ofNat (0xDC00 + v % 1024)).toNat = 0xDC00 + v % 1024 := by
      rw [UInt16.toNat_ofNat']
      omega
    rw [List.cons_append, List.singleton_append, toUTF8Loop.eq_def]
    simp only [hhigh, hlow]
    have hcp : 0x10000 + ((0xD800 + v / 1024 - 0xD800) <<< 10) + (0xDC00 + v % 1024 - 0xDC00)
        = c.toNat := by
      rw [Nat.shiftLeft_eq]
      omega
    rw [if_pos (by omega), if_neg (by omega), hcp]

/-! ## Decoding one scalar value -/

lemma continuationBytes_succ {a : ℕ} (h : a < 64) (count cp : ℕ) (source : List UInt8) :
    continuationBytes (count + 1) cp (UInt8.ofNat (a + 128) :: source)
      = continuationBytes count (cp * 64 + a) source := by
  have hbyte : (UInt8.ofNat (a + 128)).toNat = a + 128 := by
    rw [UInt8.toNat_ofNat']
    omega
  have hcp : (cp <<< 6) ||| a = cp * 64 + a := or_eq_add cp 6 h
  rw [continuationBytes, hbyte, continuation_marker h, continuation_bits h, hcp]
  simp

/-- The continuation bytes, each with six bits of the code point. -/
lemma continuationBytes_map (parts : List ℕ) (source : List UInt8) : ∀ cp : ℕ,
    (∀ a ∈ parts, a < 64) →
    continuationBytes parts.length cp (parts.map (fun a => UInt8.ofNat (a + 128)) ++ source)
      = some (parts.foldl (fun cp a => cp * 64 + a) cp, source) := by
  induction parts with
  | nil => exact fun _ _ => rfl
  | cons a parts ih =>
    intro cp h
    obtain ⟨hfirst, hrest⟩ := List.forall_mem_cons.mp h
    rw [List.length_cons, List.map_cons, List.cons_append, continuationBytes_succ hfirst,
      ih _ hrest, List.foldl_cons]

lemma leadingByte_one {a : ℕ} (h : a < 0x80) : leadingByte a = some (a, 0, 0) := by
  rw [leadingByte, if_pos (by omega)]

lemma leadingByte_two {a : ℕ} (h : 2 ≤ a ∧ a < 32) :
    leadingByte (a + 192) = some (a, 0x80, 1) := by
  have hand : (a + 192) &&& 0x1F = (a + 192) % 32 := Nat.and_two_pow_sub_one_eq_mod _ 5
  rw [leadingByte, if_neg (by omega), if_pos (by omega), hand, show (a + 192) % 32 = a by omega]

lemma leadingByte_three {a : ℕ} (h : a < 16) :
    leadingByte (a + 224) = some (a, 0x800, 2) := by
  have hand : (a + 224) &&& 0x0F = (a + 224) % 16 := Nat.and_two_pow_sub_one_eq_mod _ 4
  rw [leadingByte, if_neg (by omega), if_neg (by omega), if_pos (by omega), hand,
    show (a + 224) % 16 = a by omega]

lemma leadingByte_four {a : ℕ} (h : a < 5) : leadingByte (a + 240) = some (a, 0x10000, 3) := by
  have hand : (a + 240) &&& 0x07 = (a + 240) % 8 := Nat.and_two_pow_sub_one_eq_mod _ 3
  rw [leadingByte, if_neg (by omega), if_neg (by omega), if_neg (by omega), if_pos (by omega),
    hand, show (a + 240) % 8 = a by omega]

/-- One turn of the outer loop of `toUTF16` over a leading byte and its continuation bytes. -/
lemma toUTF16Loop_cons {c : Char} {first : UInt8} {lead bits minimum : ℕ} (parts : List ℕ)
    (hfirst : first.toNat = lead) (hlead : leadingByte lead = some (bits, minimum, parts.length))
    (hparts : ∀ a ∈ parts, a < 64)
    (hvalue : parts.foldl (fun cp a => cp * 64 + a) bits = c.toNat) (hmin : minimum ≤ c.toNat)
    (fuel : ℕ) (source : List UInt8) (result : List UInt16) :
    toUTF16Loop (fuel + 1)
        (first :: (parts.map (fun a => UInt8.ofNat (a + 128)) ++ source)) result
      = toUTF16Loop fuel source (result ++ utf16EncodeChar c) := by
  have hmax := toNat_cases c
  rw [← pushCodePoint_eq, toUTF16Loop, hfirst, hlead]
  dsimp only
  rw [if_neg (by simp), continuationBytes_map parts source bits hparts, hvalue]
  dsimp only
  rw [if_neg (by omega)]

/-- One turn of the outer loop of `toUTF16` over the bytes of a scalar value. -/
lemma toUTF16Loop_char (fuel : ℕ) (c : Char) (source : List UInt8) (result : List UInt16) :
    toUTF16Loop (fuel + 1) (String.utf8EncodeChar c ++ source) result
      = toUTF16Loop fuel source (result ++ utf16EncodeChar c) := by
  have hmax := toNat_cases c
  have hbyte : ∀ n : ℕ, n < 256 → (UInt8.ofNat n).toNat = n :=
    fun n hn => UInt8.toNat_ofNat_of_lt' hn
  rw [utf8EncodeChar_eq]
  split_ifs with h1 h2 h3
  · have hlead : leadingByte c.toNat = some (c.toNat, 0, 0) := leadingByte_one (by omega)
    exact toUTF16Loop_cons [] (hbyte _ (by omega)) hlead (by simp) rfl (Nat.zero_le _) fuel source
      result
  · refine toUTF16Loop_cons [c.toNat % 64] (hbyte _ (by omega))
      (leadingByte_two (by omega)) ?_ ?_ (by omega) fuel source result
    · simp only [List.forall_mem_singleton]
      omega
    · simp only [List.foldl_cons, List.foldl_nil]
      omega
  · refine toUTF16Loop_cons [c.toNat / 64 % 64, c.toNat % 64] (hbyte _ (by omega))
      (leadingByte_three (by omega)) ?_ ?_ (by omega) fuel source result
    · simp only [List.forall_mem_cons]
      exact ⟨by omega, by omega, by simp⟩
    · simp only [List.foldl_cons, List.foldl_nil]
      omega
  · refine toUTF16Loop_cons [c.toNat / 4096 % 64, c.toNat / 64 % 64, c.toNat % 64]
      (hbyte _ (by omega)) (leadingByte_four (by omega)) ?_ ?_ (by omega) fuel source result
    · simp only [List.forall_mem_cons]
      exact ⟨by omega, by omega, by omega, by simp⟩
    · simp only [List.foldl_cons, List.foldl_nil]
      omega

/-! ## Whole strings -/

lemma toUTF8Loop_encode (text : List Char) : ∀ result : List UInt8,
    toUTF8Loop (utf16Encode text) result = result ++ utf8Encode text := by
  induction text with
  | nil => intro result; simp [toUTF8Loop]
  | cons c text ih =>
    intro result
    rw [utf16Encode_cons, toUTF8Loop_char, ih, utf8Encode_cons, List.append_assoc]

/-- `toUTF8` turns the UTF-16 form of a text into its UTF-8 form. -/
theorem toUTF8_utf16Encode (text : List Char) : toUTF8 (utf16Encode text) = utf8Encode text := by
  rw [toUTF8, toUTF8Loop_encode, List.nil_append]

lemma toUTF16Loop_encode (text : List Char) : ∀ (fuel : ℕ) (result : List UInt16),
    text.length ≤ fuel →
      toUTF16Loop fuel (utf8Encode text) result = result ++ utf16Encode text := by
  induction text with
  | nil => intro fuel result _; simp [toUTF16Loop]
  | cons c text ih =>
    intro fuel result hfuel
    obtain ⟨fuel, rfl⟩ : ∃ n, fuel = n + 1 := ⟨fuel - 1, by simp at hfuel; omega⟩
    rw [utf8Encode_cons, toUTF16Loop_char, ih fuel _ (by simpa using hfuel), utf16Encode_cons,
      List.append_assoc]

/-- `toUTF16` turns the UTF-8 form of a text into its UTF-16 form. -/
theorem toUTF16_utf8Encode (text : List Char) : toUTF16 (utf8Encode text) = utf16Encode text := by
  rw [toUTF16, toUTF16Loop_encode text _ _ (length_le_utf8Encode text), List.nil_append]

/-- Well-formed wide strings survive the transcoding. -/
theorem toUTF16_toUTF8 {units : List UInt16} (h : IsUtf16 units) :
    toUTF16 (toUTF8 units) = units := by
  obtain ⟨text, rfl⟩ := h
  rw [toUTF8_utf16Encode, toUTF16_utf8Encode]

end Transcoding
end RmwDesert
