/-
What the transcoders accept (`TxStream::toUTF8` and `RxStream::toUTF16` of
`NanoCBorStream.cpp`).

Both return the empty string at the first ill-formed place.  Here the places are matched with
the grammars of UTF-16 and UTF-8: a string is refused exactly if the grammar does not derive
it.  `toUTF16At` is `toUTF16` with its reads by index, which stay within the source.
-/
import RmwDesert.RxStream

namespace RmwDesert
namespace Transcoding

open Unicode

/-! ## From UTF-16 -/

/-- An unpaired surrogate empties the result. -/
lemma toUTF8Loop_of_not_paired {units : List UInt16} (result : List UInt8)
    (h : ¬ Paired units) : toUTF8Loop units result = [] := by
  induction units, result using toUTF8Loop.induct with
  | case1 result => exact absurd .nil h
  | case2 result unit hhigh => rw [toUTF8Loop, if_pos hhigh]
  | case3 result unit hhigh low rest hlow => rw [toUTF8Loop, if_pos hhigh, if_pos hlow]
  | case4 result unit hhigh low rest hlow ih =>
    rw [toUTF8Loop, if_pos hhigh, if_neg hlow]
    -- the pair is fine, so the surrogate is behind it
    refine ih fun hrest => h (.pair hhigh ?_ hrest)
    rw [IsLow]
    omega
  | case5 result unit rest hhigh hlow =>
    rw [toUTF8Loop.eq_def]
    simp only [if_neg hhigh, if_pos hlow]
  | case6 result unit rest hhigh hlow ih =>
    rw [toUTF8Loop.eq_def]
    simp only [if_neg hhigh, if_neg hlow]
    exact ih fun hrest => h (.unit hhigh hlow hrest)

/-- **UTF-16 survives.** Well-formed code units are turned into the UTF-8 form of the same text
and back; ill-formed ones into the empty string. -/
theorem utf16_survives (units : List UInt16) :
    (Paired units → ∃ text, units = utf16Encode text ∧ toUTF8 units = utf8Encode text ∧
      toUTF16 (toUTF8 units) = units) ∧
    (¬ Paired units → toUTF8 units = []) := by
  refine ⟨fun h => ?_, toUTF8Loop_of_not_paired []⟩
  obtain ⟨text, rfl⟩ := (isUtf16_iff_paired units).mpr h
  exact ⟨text, rfl, toUTF8_utf16Encode text, toUTF16_toUTF8 ⟨text, rfl⟩⟩

/-! ## From UTF-8 -/

lemma inRange_tail_of_and {byte : UInt8} (h : byte.toNat &&& 0xC0 = 0x80) : InRange byte tail := by
  have hall : ∀ i : Fin 256, i.val &&& 0xC0 = 0x80 → 0x80 ≤ i.val ∧ i.val ≤ 0xBF := by
    decide +kernel
  exact hall ⟨byte.toNat, byte.toNat_lt⟩ h

lemma continuationBytes_succ_ok {count cp : ℕ} {source rest : List UInt8} {cp' : ℕ}
    (h : continuationBytes (count + 1) cp source = some (cp', rest)) :
    ∃ byte source', source = byte :: source' ∧ InRange byte tail ∧
      continuationBytes count (cp * 64 + (byte.toNat - 0x80)) source' = some (cp', rest) := by
  cases source with
  | nil => cases h
  | cons byte source =>
    rw [continuationBytes] at h
    split_ifs at h with hmarker
    have hbyte := inRange_tail_of_and (not_not.mp hmarker)
    have hbounds := inRange_tail.mp hbyte
    have hlow : byte.toNat &&& 0x3F = byte.toNat - 0x80 := by
      rw [and_0x3F]
      omega
    have hcp : (cp <<< 6) ||| (byte.toNat - 0x80) = cp * 64 + (byte.toNat - 0x80) :=
      or_eq_add cp 6 (by omega)
    rw [hlow, hcp] at h
    exact ⟨byte, source, rfl, hbyte, h⟩

/-- What a turn of the loop accepts is the UTF-8 form of a scalar value. -/
lemma exists_char_of_turn {first : UInt8} {source rest : List UInt8} {bits minimum count cp : ℕ}
    (hlead : leadingByte first.toNat = some (bits, minimum, count))
    (hbytes : continuationBytes count bits source = some (cp, rest))
    (hcp : ¬ (cp < minimum ∨ 0x10FFFF < cp ∨ (0xD800 ≤ cp ∧ cp ≤ 0xDFFF))) :
    ∃ c : Char, c.toNat = cp ∧ first :: source = String.utf8EncodeChar c ++ rest := by
  -- a code point that passes the last test is a scalar value
  obtain ⟨c, rfl⟩ := exists_toNat_eq (n := cp) (by omega)
  refine ⟨c, rfl, ?_⟩
  unfold leadingByte at hlead
  -- one case for each number of bytes; the minimum rules out the longer forms of a number
  split_ifs at hlead with h1 h2 h3 h4
  · obtain ⟨rfl, rfl, rfl⟩ := by simpa using hlead
    obtain ⟨hc, rfl⟩ := by simpa [continuationBytes] using hbytes
    rw [utf8EncodeChar_eq, if_pos (by omega), ← hc, UInt8.ofNat_toNat]
    rfl
  · have hand : first.toNat &&& 0x1F = first.toNat % 32 := Nat.and_two_pow_sub_one_eq_mod _ 5
    obtain ⟨rfl, rfl, rfl⟩ := by simpa using hlead
    obtain ⟨byte₂, source₂, rfl, hbyte₂, hbytes⟩ := continuationBytes_succ_ok hbytes
    obtain ⟨hc, rfl⟩ := by simpa [continuationBytes] using hbytes
    rw [utf8EncodeChar_two (inRange_iff.mpr h2) hbyte₂ (by omega)]
    rfl
  · have hand : first.toNat &&& 0x0F = first.toNat % 16 := Nat.and_two_pow_sub_one_eq_mod _ 4
    obtain ⟨rfl, rfl, rfl⟩ := by simpa using hlead
    obtain ⟨byte₂, source₂, rfl, hbyte₂, hbytes⟩ := continuationBytes_succ_ok hbytes
    obtain ⟨byte₃, source₃, rfl, hbyte₃, hbytes⟩ := continuationBytes_succ_ok hbytes
    obtain ⟨hc, rfl⟩ := by simpa [continuationBytes] using hbytes
    rw [utf8EncodeChar_three (inRange_iff.mpr h3) hbyte₂ hbyte₃ (by omega) (by omega)]
    rfl
  · have hand : first.toNat &&& 0x07 = first.toNat % 8 := Nat.and_two_pow_sub_one_eq_mod _ 3
    obtain ⟨rfl, rfl, rfl⟩ := by simpa using hlead
    obtain ⟨byte₂, source₂, rfl, hbyte₂, hbytes⟩ := continuationBytes_succ_ok hbytes
    obtain ⟨byte₃, source₃, rfl, hbyte₃, hbytes⟩ := continuationBytes_succ_ok hbytes
    obtain ⟨byte₄, source₄, rfl, hbyte₄, hbytes⟩ := continuationBytes_succ_ok hbytes
    obtain ⟨hc, rfl⟩ := by simpa [continuationBytes] using hbytes
    rw [utf8EncodeChar_four (inRange_iff.mpr h4) hbyte₂ hbyte₃ hbyte₄ (by omega) (by omega)]
    rfl

/-- A source that leaves something in the result is the UTF-8 form of a text. -/
lemma exists_text_of_toUTF16Loop {fuel : ℕ} : ∀ {source : List UInt8} {result : List UInt16},
    toUTF16Loop fuel source result ≠ [] → ∃ text, source = utf8Encode text := by
  induction fuel with
  | zero =>
    intro source result h
    cases source with
    | nil => exact ⟨[], rfl⟩
    | cons first source => exact absurd rfl h
  | succ fuel ih =>
    intro source result h
    cases source with
    | nil => exact ⟨[], rfl⟩
    | cons first source =>
      rw [toUTF16Loop] at h
      cases hlead : leadingByte first.toNat with
      | none => simp [hlead] at h
      | some lead =>
        obtain ⟨bits, minimum, count⟩ := lead
        simp only [hlead] at h
        split_ifs at h with hshort
        · exact absurd rfl h
        · cases hbytes : continuationBytes count bits source with
          | none => simp [hbytes] at h
          | some turn =>
            obtain ⟨cp, rest⟩ := turn
            simp only [hbytes] at h
            split_ifs at h with hcp
            · exact absurd rfl h
            · -- the turn takes one character from the source
              obtain ⟨c, -, hsplit⟩ := exists_char_of_turn hlead hbytes hcp
              obtain ⟨text, rfl⟩ := ih h
              exact ⟨c :: text, by rw [hsplit, utf8Encode_cons]⟩

/-! ## Reads by index -/

section

variable (source : List UInt8)

/-- The access `source[i]`. -/
def readAt (i : ℕ) : Except Failure UInt8 :=
  match source[i]? with
  | some byte => .ok byte
  | none => .error .outOfBounds

/-- The inner loop of `toUTF16`, from index `i` on: the code point and the next index, unless a
byte is invalid. -/
def continuationBytesAt : ℕ → ℕ → ℕ → Except Failure (Option (ℕ × ℕ))
  | 0, cp, i => .ok (some (cp, i))
  | count + 1, cp, i => do
    let byte ← readAt source i
    if byte.toNat &&& 0xC0 ≠ 0x80 then return none
    else continuationBytesAt count ((cp <<< 6) ||| (byte.toNat &&& 0x3F)) (i + 1)

/-- The outer loop of `toUTF16`, from index `i` on. -/
def toUTF16LoopAt : ℕ → ℕ → List UInt16 → Except Failure (List UInt16)
  | 0, i, result => if i < source.length then .error .outOfFuel else .ok result
  | fuel + 1, i, result =>
    if i < source.length then do
      let first ← readAt source i
      match leadingByte first.toNat with
      | none => return []
      | some (bits, minimum, continuationCount) =>
        if source.length - (i + 1) < continuationCount then return []
        else
          match ← continuationBytesAt source continuationCount bits (i + 1) with
          | none => return []
          | some (cp, i) =>
            if cp < minimum ∨ 0x10FFFF < cp ∨ (0xD800 ≤ cp ∧ cp ≤ 0xDFFF) then return []
            else toUTF16LoopAt fuel i (result ++ pushCodePoint cp)
    else .ok result

/-- `RxStream::toUTF16`, with checked reads. -/
def toUTF16At : Except Failure (List UInt16) := toUTF16LoopAt source source.length 0 []

end

section

variable {source : List UInt8}

lemma readAt_of_lt {i : ℕ} (hi : i < source.length) :
    ∃ byte, readAt source i = .ok byte ∧ source.drop i = byte :: source.drop (i + 1) := by
  refine ⟨source[i], ?_, List.drop_eq_getElem_cons hi⟩
  rw [readAt, List.getElem?_eq_getElem hi]

/-- With as many bytes left as are read, the inner loop does what it does on the rest of the
source. -/
lemma continuationBytesAt_eq (count : ℕ) : ∀ cp i : ℕ, i + count ≤ source.length →
    (continuationBytesAt source count cp i = .ok none ∧
      continuationBytes count cp (source.drop i) = none) ∨
    ∃ cp', continuationBytesAt source count cp i = .ok (some (cp', i + count)) ∧
      continuationBytes count cp (source.drop i) = some (cp', source.drop (i + count)) := by
  induction count with
  | zero => intro cp i _; exact Or.inr ⟨cp, rfl, rfl⟩
  | succ count ih =>
    intro cp i hi
    obtain ⟨byte, hread, hdrop⟩ := readAt_of_lt (by omega : i < source.length)
    rw [continuationBytesAt, hread, hdrop, continuationBytes]
    by_cases hmarker : byte.toNat &&& 0xC0 ≠ 0x80
    · refine Or.inl ⟨?_, if_pos hmarker⟩
      simp only [bind, Except.bind, if_pos hmarker]
      rfl
    · have hnext : i + 1 + count = i + (count + 1) := by omega
      simp only [bind, Except.bind, if_neg hmarker, ← hnext]
      exact ih _ (i + 1) (by omega)

/-- The outer loop does the same by index as on the rest of the source, and no read fails. -/
lemma toUTF16LoopAt_eq (fuel : ℕ) : ∀ {i : ℕ} {result : List UInt16}, source.length - i ≤ fuel →
    toUTF16LoopAt source fuel i result = .ok (toUTF16Loop fuel (source.drop i) result) := by
  induction fuel with
  | zero =>
    intro i result hi
    rw [toUTF16LoopAt, if_neg (by omega), List.drop_of_length_le (by omega), toUTF16Loop]
  | succ fuel ih =>
    intro i result hi
    rw [toUTF16LoopAt]
    by_cases hend : i < source.length
    · obtain ⟨first, hread, hdrop⟩ := readAt_of_lt hend
      rw [if_pos hend, hread, hdrop, toUTF16Loop]
      simp only [bind, Except.bind]
      cases hlead : leadingByte first.toNat with
      | none => rfl
      | some lead =>
        obtain ⟨bits, minimum, count⟩ := lead
        simp only [List.length_drop]
        split_ifs with hshort
        · rfl
        · -- the test before the inner loop is what keeps its reads in bounds
          have hroom : i + 1 + count ≤ source.length := by omega
          rcases continuationBytesAt_eq count bits (i + 1) hroom with
            ⟨hat, hbytes⟩ | ⟨cp, hat, hbytes⟩
          · simp only [hat, hbytes]
            rfl
          · simp only [hat, hbytes]
            split_ifs with hcp
            · rfl
            · exact ih (by omega)
    · rw [if_neg hend, List.drop_of_length_le (by omega), toUTF16Loop]

end

/-- **UTF-8 is accepted.** Every byte string is transcoded within its bounds.  The result is
empty for a string that is not, exactly if the grammar does not derive the string; otherwise it
is the UTF-16 form of the same text, and is turned back into the string. -/
theorem utf8_accepted (bytes : List UInt8) :
    toUTF16At bytes = .ok (toUTF16 bytes) ∧
    (toUTF16 bytes ≠ [] ∨ bytes = [] ↔ IsUtf8 bytes) ∧
    (IsUtf8 bytes → ∃ text, bytes = utf8Encode text ∧ toUTF16 bytes = utf16Encode text ∧
      toUTF8 (toUTF16 bytes) = bytes) := by
  have hback : IsUtf8 bytes → ∃ text, bytes = utf8Encode text ∧
      toUTF16 bytes = utf16Encode text ∧ toUTF8 (toUTF16 bytes) = bytes := by
    intro h
    obtain ⟨text, rfl⟩ := (isUtf8_iff bytes).mp h
    exact ⟨text, rfl, toUTF16_utf8Encode text, by rw [toUTF16_utf8Encode, toUTF8_utf16Encode]⟩
  refine ⟨toUTF16LoopAt_eq _ le_rfl, ⟨?_, fun h => ?_⟩, hback⟩
  · rintro (h | rfl)
    · exact (isUtf8_iff bytes).mpr (exists_text_of_toUTF16Loop h)
    · exact (isUtf8_iff []).mpr ⟨[], rfl⟩
  · obtain ⟨text, -, -, hround⟩ := hback h
    by_cases hempty : bytes = []
    · exact Or.inr hempty
    · refine Or.inl fun hnil => hempty ?_
      rw [← hround, hnil]
      rfl

end Transcoding
end RmwDesert
