/-
Hexadecimal strings (`sec_utils.cpp`).

`decode_hex` is modelled twice: on lists, as the rest of the layer uses it, and with the index of
each character that it reads.
-/
import RmwDesert.Lib.Hexadecimal

namespace RmwDesert
namespace Security

/-- `hex_value`, with `none` for -1. -/
def hexValue (c : UInt8) : Option ℕ :=
  if 0x30 ≤ c ∧ c ≤ 0x39 then some (c.toNat - 0x30)
  else if 0x61 ≤ c ∧ c ≤ 0x66 then some (10 + (c.toNat - 0x61))
  else if 0x41 ≤ c ∧ c ≤ 0x46 then some (10 + (c.toNat - 0x41))
  else none

/-- The loop of `decode_hex` over the pairs of digits. -/
def decodePairs : List UInt8 → Option (List UInt8)
  | hi :: lo :: digits => do
    let hi ← hexValue hi
    let lo ← hexValue lo
    return UInt8.ofNat (hi * 16 + lo) :: (← decodePairs digits)
  | _ => some []

/-- The digits after an optional `0x` or `0X`. -/
def hexDigits : List UInt8 → List UInt8
  | 0x30 :: 0x78 :: digits => digits
  | 0x30 :: 0x58 :: digits => digits
  | digits => digits

/-- `decode_hex`: the result and `out` afterwards. -/
def decodeHex (hex out : List UInt8) : Bool × List UInt8 :=
  if (hexDigits hex).length % 2 ≠ 0 then (false, out)
  else
    match decodePairs (hexDigits hex) with
    | some bytes => (true, bytes)
    | none => (false, [])

/-! ## Indices -/

/-- `start`, if no index past the end of `hex` is read for it. -/
def decodeStart (hex : List UInt8) : Option ℕ :=
  if 2 ≤ hex.length then do
    if (← hex[0]?) = 0x30 then
      let c ← hex[1]?
      return if c = 0x78 ∨ c = 0x58 then 2 else 0
    else return 0
  else some 0

/-- The loop of `decode_hex` from index `i` on, if it reads no index past the end. -/
def decodeLoop (hex : List UInt8) (i : ℕ) (out : List UInt8) : Option (Bool × List UInt8) :=
  if _ : i < hex.length then
    match hex[i]?, hex[i + 1]? with
    | some hi, some lo =>
      match hexValue hi, hexValue lo with
      | some hi, some lo => decodeLoop hex (i + 2) (out ++ [UInt8.ofNat (hi * 16 + lo)])
      | _, _ => some (false, [])
    | _, _ => none
  else some (true, out)
termination_by hex.length - i

/-- `decode_hex` with its indices. -/
def decodeHexAt (hex out : List UInt8) : Option (Bool × List UInt8) := do
  let start ← decodeStart hex
  if (hex.length - start) % 2 ≠ 0 then return (false, out)
  else decodeLoop hex start []

lemma decodeStart_eq (hex : List UInt8) : ∃ start, decodeStart hex = some start ∧
    start ≤ hex.length ∧ hex.drop start = hexDigits hex := by
  match hex with
  | [] => exact ⟨0, rfl, le_refl _, rfl⟩
  | [c] => exact ⟨0, rfl, Nat.zero_le _, by simp [hexDigits]⟩
  | c :: d :: digits =>
    have hstart : decodeStart (c :: d :: digits)
        = some (if c = 0x30 then if d = 0x78 ∨ d = 0x58 then 2 else 0 else 0) := by
      rw [decodeStart, if_pos (by simp)]
      simp only [List.getElem?_cons_zero, List.getElem?_cons_succ, Option.bind_eq_bind,
        Option.bind_some]
      split_ifs <;> rfl
    refine ⟨_, hstart, ?_, ?_⟩
    · split_ifs <;> simp
    · by_cases hc : c = 0x30
      · subst hc
        by_cases hx : d = 0x78
        · subst hx
          rfl
        · by_cases hX : d = 0x58
          · subst hX
            rfl
          · simp [hx, hX, hexDigits]
      · simp [hc, hexDigits]

/-- The loop over an even number of characters. -/
lemma decodeLoop_eq {hex : List UInt8} : ∀ (pairs i : ℕ) (out : List UInt8),
    hex.length = i + 2 * pairs →
    decodeLoop hex i out = some (match decodePairs (hex.drop i) with
      | some bytes => (true, out ++ bytes)
      | none => (false, [])) := by
  intro pairs
  induction pairs with
  | zero =>
    intro i out hlen
    rw [decodeLoop, dif_neg (by omega), List.drop_of_length_le (by omega)]
    simp [decodePairs]
  | succ pairs ih =>
    intro i out hlen
    have hi : i < hex.length := by omega
    have hlo : i + 1 < hex.length := by omega
    rw [decodeLoop, dif_pos hi, List.drop_eq_getElem_cons hi, List.drop_eq_getElem_cons hlo,
      List.getElem?_eq_getElem hi, List.getElem?_eq_getElem hlo, decodePairs]
    dsimp only
    cases hexValue hex[i] with
    | none => rfl
    | some high =>
      cases hexValue hex[i + 1] with
      | none => rfl
      | some low =>
        dsimp only
        rw [ih (i + 2) _ (by omega)]
        cases decodePairs (hex.drop (i + 2)) with
        | none => rfl
        | some bytes => simp

/-- **Every character that is read is there.** -/
theorem decodeHexAt_eq (hex out : List UInt8) :
    decodeHexAt hex out = some (decodeHex hex out) := by
  obtain ⟨start, hstart, hle, hdigits⟩ := decodeStart_eq hex
  have hlen : hex.length - start = (hexDigits hex).length := by
    rw [← hdigits, List.length_drop]
  rw [decodeHexAt, hstart, decodeHex, Option.bind_eq_bind, Option.bind_some, hlen]
  split_ifs with hodd
  · rfl
  · rw [decodeLoop_eq ((hexDigits hex).length / 2) start [] (by omega), hdigits]
    cases decodePairs (hexDigits hex) <;> rfl

/-! ## What is decoded -/

open Hexadecimal (IsDigit Denotes exists_denotes_iff)

/-- The digits are told by their codes. -/
lemma hexValue_eq_some_iff {c : UInt8} {v : ℕ} : hexValue c = some v ↔ IsDigit c v := by
  have hlt := c.toNat_lt
  rw [Hexadecimal.isDigit_iff, hexValue]
  simp only [UInt8.le_iff_toNat_le, UInt8.reduceToNat]
  split_ifs <;> simp only [Option.some.injEq, false_iff] <;> omega

/-- The loop accepts the numerals. -/
lemma decodePairs_eq_some_iff {digits bytes : List UInt8} (h : digits.length % 2 = 0) :
    decodePairs digits = some bytes ↔ Denotes digits bytes := by
  constructor
  · intro hdecode
    induction digits using List.twoStepInduction generalizing bytes with
    | nil =>
      obtain rfl := Option.some.inj hdecode
      exact .nil
    | singleton c => simp at h
    | cons_cons hi lo digits ih _ =>
      simp only [decodePairs, Option.bind_eq_bind, Option.bind_eq_some_iff] at hdecode
      obtain ⟨high, hhigh, low, hlow, rest, hrest, hbytes⟩ := hdecode
      obtain rfl := Option.some.inj hbytes
      exact .cons (hexValue_eq_some_iff.mp hhigh) (hexValue_eq_some_iff.mp hlow)
        (ih (by simp only [List.length_cons] at h; omega) hrest)
  · intro hdenotes
    induction hdenotes with
    | nil => rfl
    | cons hhi hlo _ ih =>
      rw [decodePairs, hexValue_eq_some_iff.mpr hhi, hexValue_eq_some_iff.mpr hlo,
        Option.bind_eq_bind, Option.bind_some, Option.bind_some,
        ih (by simp only [List.length_cons] at h; omega)]
      rfl

/-- The strings that encode some bytes, without and with a prefix. -/
def encodings (upper : ℕ → Bool) (bytes : List UInt8) : List (List UInt8) :=
  [Hexadecimal.encode upper bytes, 0x30 :: 0x78 :: Hexadecimal.encode upper bytes,
    0x30 :: 0x58 :: Hexadecimal.encode upper bytes]

/-- No digit is taken for the `x` of a prefix. -/
lemma hexDigits_encoding {upper : ℕ → Bool} {bytes hex : List UInt8}
    (h : hex ∈ encodings upper bytes) : hexDigits hex = Hexadecimal.encode upper bytes := by
  simp only [encodings, List.mem_cons, List.not_mem_nil, or_false] at h
  rcases h with rfl | rfl | rfl
  · cases bytes with
    | nil => rfl
    | cons b bytes =>
      have hlow : IsDigit (Hexadecimal.digit (upper 1) (b.toNat % 16)) (b.toNat % 16) :=
        ⟨by omega, _, rfl⟩
      rw [Hexadecimal.isDigit_iff] at hlow
      have hne : ∀ x : UInt8, x.toNat = 0x78 ∨ x.toNat = 0x58 →
          Hexadecimal.digit (upper 1) (b.toNat % 16) ≠ x := by
        rintro x hx rfl
        omega
      rw [Hexadecimal.encode, hexDigits]
      · exact fun digits h => hne 0x78 (Or.inl rfl) (List.cons.inj (List.cons.inj h).2).1
      · exact fun digits h => hne 0x58 (Or.inr rfl) (List.cons.inj (List.cons.inj h).2).1
  · rfl
  · rfl

/-- What `decode_hex` says of itself. -/
structure DecodesExactly (hex out : List UInt8) : Prop where
  inside : decodeHexAt hex out = some (decodeHex hex out)
  accepts : (decodeHex hex out).1 = true ↔
    (hexDigits hex).length % 2 = 0 ∧ ∀ c ∈ hexDigits hex, ∃ v, IsDigit c v
  denoted : (decodeHex hex out).1 = true → Denotes (hexDigits hex) (decodeHex hex out).2
  undoes : ∀ upper bytes, hex ∈ encodings upper bytes → decodeHex hex out = (true, bytes)
  cleared : (decodeHex hex out).1 = false → (decodeHex hex out).2 = []

section

variable {hex out bytes : List UInt8}

/-- The two results of `decode_hex` on an even number of characters. -/
lemma decodeHex_of_even (h : (hexDigits hex).length % 2 = 0) (out : List UInt8) :
    (∃ bytes, Denotes (hexDigits hex) bytes ∧ decodeHex hex out = (true, bytes)) ∨
      (¬ ∃ bytes, Denotes (hexDigits hex) bytes) ∧ decodeHex hex out = (false, []) := by
  rw [decodeHex, if_neg (by omega)]
  cases hpairs : decodePairs (hexDigits hex) with
  | some bytes => exact Or.inl ⟨bytes, (decodePairs_eq_some_iff h).mp hpairs, rfl⟩
  | none =>
    refine Or.inr ⟨?_, rfl⟩
    rintro ⟨bytes, hbytes⟩
    rw [(decodePairs_eq_some_iff h).mpr hbytes] at hpairs
    cases hpairs

/-- A numeral that is accepted. -/
lemma decodesExactly_of_denotes (h : Denotes (hexDigits hex) bytes)
    (hdecode : decodeHex hex out = (true, bytes)) : DecodesExactly hex out where
  inside := decodeHexAt_eq hex out
  accepts := by
    rw [hdecode, ← exists_denotes_iff]
    exact iff_of_true rfl ⟨bytes, h⟩
  denoted _ := by
    rw [hdecode]
    exact h
  undoes upper bytes' hencoding := by
    rw [hexDigits_encoding hencoding] at h
    rw [hdecode, h.unique (Hexadecimal.denotes_encode upper bytes')]
  cleared hfalse := by
    rw [hdecode] at hfalse
    cases hfalse

/-- Anything else that is refused, with `out` empty. -/
lemma decodesExactly_of_not_denotes (h : ¬ ∃ bytes, Denotes (hexDigits hex) bytes)
    (hdecode : decodeHex hex out = (false, [])) : DecodesExactly hex out where
  inside := decodeHexAt_eq hex out
  accepts := by
    rw [hdecode, ← exists_denotes_iff]
    exact iff_of_false Bool.false_ne_true h
  denoted htrue := by
    rw [hdecode] at htrue
    cases htrue
  undoes upper bytes hencoding := by
    rw [hexDigits_encoding hencoding] at h
    exact absurd ⟨bytes, Hexadecimal.denotes_encode upper bytes⟩ h
  cleared _ := by rw [hdecode]

end

/-- **Hexadecimal decoding.**  It is exact if and only if the number of digits is even, or there
is nothing in `out` that had to be cleared. -/
theorem decodesExactly_iff (hex out : List UInt8) :
    DecodesExactly hex out ↔ (hexDigits hex).length % 2 = 0 ∨ out = [] := by
  by_cases heven : (hexDigits hex).length % 2 = 0
  · refine iff_of_true ?_ (Or.inl heven)
    rcases decodeHex_of_even heven out with ⟨bytes, hbytes, hdecode⟩ | ⟨hnone, hdecode⟩
    · exact decodesExactly_of_denotes hbytes hdecode
    · exact decodesExactly_of_not_denotes hnone hdecode
  · -- an odd number of characters is refused before `out` is cleared
    have hdecode : decodeHex hex out = (false, out) := by rw [decodeHex, if_pos heven]
    have hnone : ¬ ∃ bytes, Denotes (hexDigits hex) bytes :=
      fun hdenotes => heven (exists_denotes_iff.mp hdenotes).1
    constructor
    · intro h
      have hcleared := h.cleared
      rw [hdecode] at hcleared
      exact Or.inr (hcleared rfl)
    · intro h
      have hout := h.resolve_left heven
      rw [hout] at hdecode ⊢
      exact decodesExactly_of_not_denotes hnone hdecode

/-- A single digit is refused, and leaves what was in `out`. -/
theorem single_digit_keeps_out : ¬ ∀ hex out : List UInt8, DecodesExactly hex out := by
  intro hall
  have hcleared := (hall [0x41] [7]).cleared rfl
  exact List.cons_ne_nil _ _ hcleared

end Security
end RmwDesert
