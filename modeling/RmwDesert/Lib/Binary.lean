/-
Conversion between the binary floating-point formats of IEEE 754.

A `binary16`, `binary32` or `binary64` value is its bit pattern.  Narrowing to `binary32` rounds
to nearest, ties to even.  Both conversions between `binary32` and `binary64` make a signalling
NaN quiet and keep as much of the payload as fits; halves are only widened, bit for bit.
-/
import Mathlib.Tactic

namespace Binary

/-- `n / 2 ^ k` rounded to the nearest integer, ties to even. -/
def roundEven (n k : ℕ) : ℕ :=
  if 2 * (n % 2 ^ k) < 2 ^ k ∨ (2 * (n % 2 ^ k) = 2 ^ k ∧ n / 2 ^ k % 2 = 0) then n / 2 ^ k
  else n / 2 ^ k + 1

/-- The pattern without sign of a `binary32` value, as `binary64`. -/
def widenMagnitude (m : ℕ) : ℕ :=
  if m / 2 ^ 23 = 255 then
    2047 * 2 ^ 52 + (if m % 2 ^ 23 = 0 then 0 else 2 ^ 51 + m % 2 ^ 22 * 2 ^ 29)
  else if m = 0 then 0
  else if m / 2 ^ 23 = 0 then
    -- a subnormal becomes normal: its leading bit moves into the exponent
    (m.log2 + 874) * 2 ^ 52 + (m - 2 ^ m.log2) * 2 ^ (52 - m.log2)
  else (m / 2 ^ 23 + 896) * 2 ^ 52 + m % 2 ^ 23 * 2 ^ 29

/-- The pattern without sign of a `binary64` value, rounded to `binary32`. -/
def narrowMagnitude (m : ℕ) : ℕ :=
  if m / 2 ^ 52 = 2047 then
    255 * 2 ^ 23 + (if m % 2 ^ 52 = 0 then 0 else 2 ^ 22 + m / 2 ^ 29 % 2 ^ 22)
  else if m / 2 ^ 52 = 0 then 0
  else if m / 2 ^ 52 ≤ 896 then roundEven (2 ^ 52 + m % 2 ^ 52) (926 - m / 2 ^ 52)
  else min (255 * 2 ^ 23) (roundEven (m - 896 * 2 ^ 52) 29)

/-- The conversion of `binary32` to `binary64`, which is exact. -/
def widen (f : UInt32) : UInt64 :=
  UInt64.ofNat (f.toNat / 2 ^ 31 * 2 ^ 63 + widenMagnitude (f.toNat % 2 ^ 31))

/-- The conversion of `binary64` to `binary32`. -/
def narrow (d : UInt64) : UInt32 :=
  UInt32.ofNat (d.toNat / 2 ^ 63 * 2 ^ 31 + narrowMagnitude (d.toNat % 2 ^ 63))

example : narrow 0x3FB999999999999A = 0x3DCCCCCD := by decide

/-- A pattern without sign that is not a signalling NaN. -/
def NotSignalling (m : ℕ) : Prop :=
  m / 2 ^ 23 = 255 → m % 2 ^ 23 = 0 ∨ 2 ^ 22 ≤ m % 2 ^ 23

lemma roundEven_mul (q k : ℕ) : roundEven (q * 2 ^ k) k = q := by
  have hpos : 0 < 2 ^ k := Nat.two_pow_pos k
  rw [roundEven, if_pos]
  · exact Nat.mul_div_cancel q hpos
  · left
    simp

lemma roundEven_le (n k : ℕ) : roundEven n k ≤ n / 2 ^ k + 1 := by
  unfold roundEven
  split_ifs <;> omega

lemma widenMagnitude_lt {m : ℕ} (h : m < 2 ^ 31) : widenMagnitude m < 2 ^ 63 := by
  unfold widenMagnitude
  split_ifs with h1 h2 h3 h4
  · norm_num
  · omega
  · norm_num
  · -- the bits below the leading one fill the fraction
    have hlog : m.log2 < 23 := (Nat.log2_lt h3).mpr (by omega)
    have hfrac : (m - 2 ^ m.log2) * 2 ^ (52 - m.log2) < 2 ^ 52 := by
      have hlt : m - 2 ^ m.log2 < 2 ^ m.log2 := by
        have := Nat.lt_log2_self (n := m)
        rw [pow_succ] at this
        omega
      calc (m - 2 ^ m.log2) * 2 ^ (52 - m.log2)
          < 2 ^ m.log2 * 2 ^ (52 - m.log2) := Nat.mul_lt_mul_of_pos_right hlt (Nat.two_pow_pos _)
        _ = 2 ^ 52 := by rw [← pow_add]; congr 1; omega
    omega
  · omega

/-- Narrowing undoes widening, on every pattern but the signalling NaNs. -/
lemma narrowMagnitude_widenMagnitude {m : ℕ} (h : m < 2 ^ 31) (hq : NotSignalling m) :
    narrowMagnitude (widenMagnitude m) = m := by
  unfold widenMagnitude
  split_ifs with h1 h2 h3 h4
  · -- infinity
    norm_num [narrowMagnitude]
    omega
  · -- a quiet NaN
    have hquiet := (hq h1).resolve_left h2
    rw [narrowMagnitude, if_pos (by omega), if_neg (by omega)]
    omega
  · simp [narrowMagnitude, h3]
  · -- a subnormal
    have hlog : m.log2 < 23 := (Nat.log2_lt h3).mpr (by omega)
    have hself : 2 ^ m.log2 ≤ m := Nat.log2_self_le h3
    have hlt : m < 2 * 2 ^ m.log2 := by
      have := Nat.lt_log2_self (n := m)
      rwa [pow_succ, Nat.mul_comm] at this
    have hsplit : 2 ^ m.log2 * 2 ^ (52 - m.log2) = 2 ^ 52 := by
      rw [← pow_add]
      congr 1
      omega
    have hfrac : (m - 2 ^ m.log2) * 2 ^ (52 - m.log2) < 2 ^ 52 := by
      rw [← hsplit]
      exact Nat.mul_lt_mul_of_pos_right (by omega) (Nat.two_pow_pos _)
    have hsum : 2 ^ 52 + (m - 2 ^ m.log2) * 2 ^ (52 - m.log2) = m * 2 ^ (52 - m.log2) := by
      rw [← hsplit, ← Nat.add_mul, Nat.add_sub_cancel' hself]
    set r := (m - 2 ^ m.log2) * 2 ^ (52 - m.log2) with hr
    have hdiv : ((m.log2 + 874) * 2 ^ 52 + r) / 2 ^ 52 = m.log2 + 874 := by omega
    have hmod : ((m.log2 + 874) * 2 ^ 52 + r) % 2 ^ 52 = r := by omega
    have hshift : 926 - (m.log2 + 874) = 52 - m.log2 := by omega
    rw [narrowMagnitude, hdiv, hmod, hshift, hsum, roundEven_mul, if_neg (by omega),
      if_neg (by omega), if_pos (by omega)]
  · -- a normal number
    have hdiv : ((m / 2 ^ 23 + 896) * 2 ^ 52 + m % 2 ^ 23 * 2 ^ 29) / 2 ^ 52
        = m / 2 ^ 23 + 896 := by
      omega
    have hsub : (m / 2 ^ 23 + 896) * 2 ^ 52 + m % 2 ^ 23 * 2 ^ 29 - 896 * 2 ^ 52 = m * 2 ^ 29 := by
      omega
    rw [narrowMagnitude, hdiv, hsub, roundEven_mul, if_neg (by omega), if_neg (by omega),
      if_neg (by omega)]
    omega

lemma narrowMagnitude_le {m : ℕ} (h : m / 2 ^ 52 ≠ 2047) : narrowMagnitude m ≤ 255 * 2 ^ 23 := by
  unfold narrowMagnitude
  rw [if_neg h]
  split_ifs with h0 h1
  · omega
  · have hround := roundEven_le (2 ^ 52 + m % 2 ^ 52) (926 - m / 2 ^ 52)
    have hdiv : (2 ^ 52 + m % 2 ^ 52) / 2 ^ (926 - m / 2 ^ 52) ≤ (2 ^ 52 + m % 2 ^ 52) / 2 ^ 30 :=
      Nat.div_le_div_left (Nat.pow_le_pow_right (by decide) (by omega)) (by decide)
    omega
  · exact Nat.min_le_left _ _

lemma narrowMagnitude_lt (m : ℕ) : narrowMagnitude m < 2 ^ 31 := by
  by_cases h : m / 2 ^ 52 = 2047
  · unfold narrowMagnitude
    rw [if_pos h]
    split_ifs <;> omega
  · have := narrowMagnitude_le h
    omega

lemma notSignalling_narrowMagnitude (m : ℕ) : NotSignalling (narrowMagnitude m) := by
  intro h255
  by_cases h : m / 2 ^ 52 = 2047
  · unfold narrowMagnitude at h255 ⊢
    rw [if_pos h] at h255 ⊢
    split_ifs with h0
    · left; norm_num
    · right; omega
  · have := narrowMagnitude_le h
    left
    omega

lemma toNat_widen {f : UInt32} {s m : ℕ} (hs : s < 2) (hm : m < 2 ^ 31)
    (hf : f.toNat = s * 2 ^ 31 + m) : (widen f).toNat = s * 2 ^ 63 + widenMagnitude m := by
  have hw := widenMagnitude_lt hm
  have hdiv : (s * 2 ^ 31 + m) / 2 ^ 31 = s := by omega
  have hmod : (s * 2 ^ 31 + m) % 2 ^ 31 = m := by omega
  rw [widen, UInt64.toNat_ofNat', hf, hdiv, hmod]
  exact Nat.mod_eq_of_lt (by omega)

lemma toNat_narrow {d : UInt64} {s m : ℕ} (hs : s < 2) (hm : m < 2 ^ 63)
    (hd : d.toNat = s * 2 ^ 63 + m) : (narrow d).toNat = s * 2 ^ 31 + narrowMagnitude m := by
  have hn := narrowMagnitude_lt m
  have hdiv : (s * 2 ^ 63 + m) / 2 ^ 63 = s := by omega
  have hmod : (s * 2 ^ 63 + m) % 2 ^ 63 = m := by omega
  rw [narrow, UInt32.toNat_ofNat', hd, hdiv, hmod]
  exact Nat.mod_eq_of_lt (by omega)

/-- A value that has been rounded to `binary32` is not changed by a second rounding. -/
theorem narrow_widen_narrow (d : UInt64) : narrow (widen (narrow d)) = narrow d := by
  obtain ⟨s, m, hs, hm, hd⟩ : ∃ s m, s < 2 ∧ m < 2 ^ 63 ∧ d.toNat = s * 2 ^ 63 + m := by
    have := d.toNat_lt
    exact ⟨d.toNat / 2 ^ 63, d.toNat % 2 ^ 63, by omega, by omega, by omega⟩
  have hlt := narrowMagnitude_lt m
  have hnarrow := toNat_narrow hs hm hd
  have hwiden := toNat_widen hs hlt hnarrow
  rw [← UInt32.toNat_inj, toNat_narrow hs (widenMagnitude_lt hlt) hwiden, hnarrow,
    narrowMagnitude_widenMagnitude hlt (notSignalling_narrowMagnitude m)]

/-! ## Half precision -/

/-- The pattern without sign of a `binary16` value, as `binary32`. -/
def widenHalfMagnitude (m : ℕ) : ℕ :=
  if m / 2 ^ 10 = 31 then 255 * 2 ^ 23 + m % 2 ^ 10 * 2 ^ 13
  else if m = 0 then 0
  else if m / 2 ^ 10 = 0 then (m.log2 + 103) * 2 ^ 23 + (m - 2 ^ m.log2) * 2 ^ (23 - m.log2)
  else (m / 2 ^ 10 + 112) * 2 ^ 23 + m % 2 ^ 10 * 2 ^ 13

/-- The conversion of `binary16` to `binary32`, which is exact. -/
def widenHalf (h : UInt16) : UInt32 :=
  UInt32.ofNat (h.toNat / 2 ^ 15 * 2 ^ 31 + widenHalfMagnitude (h.toNat % 2 ^ 15))

/-- The `binary32` values other than the infinities and the NaNs. -/
def Finite (f : UInt32) : Prop := f.toNat % 2 ^ 31 / 2 ^ 23 ≠ 255

instance (f : UInt32) : Decidable (Finite f) := inferInstanceAs (Decidable (_ ≠ _))

/-- The leading bit of a subnormal half moves into the exponent, and the bits below it fill the
fraction. -/
lemma widenHalfMagnitude_of_subnormal {m k : ℕ} (hk : k ≤ 9) (hm : 2 ^ k ≤ m)
    (hlt : m < 2 ^ (k + 1)) :
    widenHalfMagnitude m = (k + 103) * 2 ^ 23 + (m - 2 ^ k) * 2 ^ (23 - k) ∧
      (m - 2 ^ k) * 2 ^ (23 - k) < 2 ^ 23 := by
  have hpow : 2 ^ (k + 1) ≤ 2 ^ 10 := Nat.pow_le_pow_right (by decide) (by omega)
  have hpos : 0 < 2 ^ k := Nat.two_pow_pos k
  have hlog : m.log2 = k :=
    (Nat.log2_eq_iff (by omega)).mpr ⟨hm, hlt⟩
  refine ⟨?_, ?_⟩
  · rw [widenHalfMagnitude, if_neg (by omega), if_neg (by omega), if_pos (by omega), hlog]
  · calc (m - 2 ^ k) * 2 ^ (23 - k)
        < 2 ^ k * 2 ^ (23 - k) :=
          Nat.mul_lt_mul_of_pos_right (by rw [pow_succ] at hlt; omega) (Nat.two_pow_pos _)
      _ = 2 ^ 23 := by rw [← pow_add]; congr 1; omega

/-- The exponents that half precision covers: its zeros, its subnormal and its normal numbers,
which leave the low bits of the fraction clear. -/
lemma widenHalfMagnitude_cases {m : ℕ} (h : m / 2 ^ 10 < 31) :
    widenHalfMagnitude m = 0 ∨
      (103 ≤ widenHalfMagnitude m / 2 ^ 23 ∧ widenHalfMagnitude m / 2 ^ 23 ≤ 112) ∨
      (113 ≤ widenHalfMagnitude m / 2 ^ 23 ∧ widenHalfMagnitude m / 2 ^ 23 ≤ 142 ∧
        widenHalfMagnitude m % 2 ^ 13 = 0) := by
  rcases Nat.eq_zero_or_pos m with rfl | hpos
  · exact Or.inl rfl
  · right
    by_cases hsub : m / 2 ^ 10 = 0
    · left
      have hk : m.log2 < 10 := (Nat.log2_lt (by omega)).mpr (by omega)
      obtain ⟨heq, hlt⟩ := widenHalfMagnitude_of_subnormal (k := m.log2) (by omega)
        (Nat.log2_self_le (by omega)) Nat.lt_log2_self
      omega
    · right
      rw [widenHalfMagnitude, if_neg (by omega), if_neg (by omega), if_neg hsub]
      omega

/-- Different halves stand for different values. -/
lemma widenHalfMagnitude_injective {m n : ℕ} (hm : m / 2 ^ 10 < 31) (hn : n / 2 ^ 10 < 31)
    (h : widenHalfMagnitude m = widenHalfMagnitude n) : m = n := by
  -- a subnormal half is found again in the exponent and the fraction
  have hsub : ∀ {k : ℕ}, 0 < k → k < 2 ^ 10 → ∃ l, l ≤ 9 ∧ 2 ^ l ≤ k ∧
      widenHalfMagnitude k / 2 ^ 23 = l + 103 ∧
      widenHalfMagnitude k % 2 ^ 23 = (k - 2 ^ l) * 2 ^ (23 - l) := by
    intro k hpos hlt
    have hl : k.log2 < 10 := (Nat.log2_lt (by omega)).mpr hlt
    obtain ⟨heq, hfrac⟩ := @widenHalfMagnitude_of_subnormal k k.log2 (by omega)
      (Nat.log2_self_le (by omega)) Nat.lt_log2_self
    exact ⟨k.log2, by omega, Nat.log2_self_le (by omega), by omega, by omega⟩
  have hnormal : ∀ {k : ℕ}, 0 < k / 2 ^ 10 → k / 2 ^ 10 < 31 →
      widenHalfMagnitude k = (k / 2 ^ 10 + 112) * 2 ^ 23 + k % 2 ^ 10 * 2 ^ 13 := by
    intro k hpos hlt
    rw [widenHalfMagnitude, if_neg (by omega), if_neg (by omega), if_neg (by omega)]
  have hzero : widenHalfMagnitude 0 = 0 := rfl
  rcases Nat.eq_zero_or_pos m with rfl | hmpos <;> rcases Nat.eq_zero_or_pos n with rfl | hnpos
  · rfl
  · exfalso
    by_cases hnsub : n / 2 ^ 10 = 0
    · obtain ⟨l, -, -, hexp, -⟩ := hsub hnpos (by omega)
      omega
    · have := @hnormal n (by omega) hn
      omega
  · exfalso
    by_cases hmsub : m / 2 ^ 10 = 0
    · obtain ⟨l, -, -, hexp, -⟩ := hsub hmpos (by omega)
      omega
    · have := @hnormal m (by omega) hm
      omega
  · by_cases hmsub : m / 2 ^ 10 = 0 <;> by_cases hnsub : n / 2 ^ 10 = 0
    · obtain ⟨l, -, hlem, hexp, hfrac⟩ := hsub hmpos (by omega)
      obtain ⟨l', -, hlen, hexp', hfrac'⟩ := hsub hnpos (by omega)
      obtain rfl : l = l' := by omega
      have hmul : (m - 2 ^ l) * 2 ^ (23 - l) = (n - 2 ^ l) * 2 ^ (23 - l) := by
        rw [← hfrac, ← hfrac', h]
      have := Nat.eq_of_mul_eq_mul_right (Nat.two_pow_pos _) hmul
      omega
    · obtain ⟨l, hl, -, hexp, -⟩ := hsub hmpos (by omega)
      have := @hnormal n (by omega) hn
      omega
    · obtain ⟨l, hl, -, hexp, -⟩ := hsub hnpos (by omega)
      have := @hnormal m (by omega) hm
      omega
    · have hm' := @hnormal m (by omega) hm
      have hn' := @hnormal n (by omega) hn
      omega

lemma widenHalfMagnitude_lt {m : ℕ} (h : m < 2 ^ 15) : widenHalfMagnitude m < 2 ^ 31 := by
  by_cases htop : m / 2 ^ 10 = 31
  · rw [widenHalfMagnitude, if_pos htop]
    omega
  · have hcases := @widenHalfMagnitude_cases m (by omega)
    omega

lemma toNat_widenHalf {h : UInt16} {s m : ℕ} (hs : s < 2) (hm : m < 2 ^ 15)
    (hh : h.toNat = s * 2 ^ 15 + m) : (widenHalf h).toNat = s * 2 ^ 31 + widenHalfMagnitude m := by
  have hw := widenHalfMagnitude_lt hm
  have hdiv : (s * 2 ^ 15 + m) / 2 ^ 15 = s := by omega
  have hmod : (s * 2 ^ 15 + m) % 2 ^ 15 = m := by omega
  rw [widenHalf, UInt32.toNat_ofNat', hh, hdiv, hmod]
  exact Nat.mod_eq_of_lt (by omega)

/-- The sign and the magnitude of a half go their own ways. -/
lemma widenHalf_parts (h : UInt16) :
    (widenHalf h).toNat / 2 ^ 31 = h.toNat / 2 ^ 15 ∧
      (widenHalf h).toNat % 2 ^ 31 = widenHalfMagnitude (h.toNat % 2 ^ 15) := by
  have hlt := h.toNat_lt
  have heq := @toNat_widenHalf h (h.toNat / 2 ^ 15) (h.toNat % 2 ^ 15) (by omega) (by omega)
    (by omega)
  have hw := @widenHalfMagnitude_lt (h.toNat % 2 ^ 15) (by omega)
  omega

/-- The remaining patterns are infinities and NaNs. -/
lemma exponent_of_finite {h : UInt16} (hfinite : Finite (widenHalf h)) :
    h.toNat % 2 ^ 15 / 2 ^ 10 < 31 := by
  by_contra htop
  have h31 : h.toNat % 2 ^ 15 / 2 ^ 10 = 31 := by omega
  refine hfinite ?_
  rw [(widenHalf_parts h).2, widenHalfMagnitude, if_pos h31]
  omega

lemma widenHalf_injective {h h' : UInt16} (hfinite : Finite (widenHalf h))
    (heq : widenHalf h' = widenHalf h) : h' = h := by
  obtain ⟨hsign, hmagnitude⟩ := widenHalf_parts h
  obtain ⟨hsign', hmagnitude'⟩ := widenHalf_parts h'
  have hfinite' : Finite (widenHalf h') := by rwa [heq]
  have htop' := exponent_of_finite hfinite'
  rw [heq] at hsign' hmagnitude'
  have hm := widenHalfMagnitude_injective htop' (exponent_of_finite hfinite)
    (hmagnitude'.symm.trans hmagnitude)
  rw [← UInt16.toNat_inj]
  omega

/-- A finite value that half precision can hold. -/
lemma cases_of_widenHalf {h : UInt16} {f : UInt32} (hfinite : Finite f) (hwiden : widenHalf h = f) :
    f.toNat % 2 ^ 31 = 0 ∨
      (103 ≤ f.toNat % 2 ^ 31 / 2 ^ 23 ∧ f.toNat % 2 ^ 31 / 2 ^ 23 ≤ 112) ∨
      (113 ≤ f.toNat % 2 ^ 31 / 2 ^ 23 ∧ f.toNat % 2 ^ 31 / 2 ^ 23 ≤ 142 ∧
        f.toNat % 2 ^ 13 = 0) := by
  subst hwiden
  have hmod := (widenHalf_parts h).2
  have hcases := widenHalfMagnitude_cases (exponent_of_finite hfinite)
  omega

lemma widenHalf_ofNat {s m : ℕ} (hs : s < 2) (hm : m < 2 ^ 15) :
    (widenHalf (UInt16.ofNat (s * 2 ^ 15 + m))).toNat = s * 2 ^ 31 + widenHalfMagnitude m :=
  toNat_widenHalf hs hm (UInt16.toNat_ofNat_of_lt' (show s * 2 ^ 15 + m < 2 ^ 16 by omega))

/-- The halves, in the order of their patterns. -/
@[irreducible] def halves : List UInt16 := (List.range (2 ^ 16)).map UInt16.ofNat

lemma mem_halves (h : UInt16) : h ∈ halves := by
  unfold halves
  exact List.mem_map.mpr ⟨h.toNat, List.mem_range.mpr h.toNat_lt, UInt16.ofNat_toNat⟩

/-- The half that stands for a `binary32` value, if there is one. -/
def narrowHalf (f : UInt32) : Option UInt16 := halves.find? fun h => widenHalf h = f

lemma widenHalf_of_narrowHalf {f : UInt32} {h : UInt16} (heq : narrowHalf f = some h) :
    widenHalf h = f := by
  simpa using List.find?_some heq

lemma narrowHalf_eq_none_iff {f : UInt32} :
    narrowHalf f = none ↔ ∀ h, widenHalf h ≠ f := by
  constructor
  · intro hnone h
    simpa using List.find?_eq_none.mp hnone h (mem_halves h)
  · intro hall
    exact List.find?_eq_none.mpr fun h _ => by simpa using hall h

/-- Widening a finite value can be undone. -/
lemma narrow_widen {f : UInt32} (h : Finite f) : narrow (widen f) = f := by
  have hlt := f.toNat_lt
  have hm : f.toNat % 2 ^ 31 < 2 ^ 31 := Nat.mod_lt _ (by decide)
  have hs : f.toNat / 2 ^ 31 < 2 := by omega
  have hsplit : f.toNat = f.toNat / 2 ^ 31 * 2 ^ 31 + f.toNat % 2 ^ 31 := by omega
  have hquiet : NotSignalling (f.toNat % 2 ^ 31) := fun h255 => absurd h255 h
  rw [← UInt32.toNat_inj, toNat_narrow hs (widenMagnitude_lt hm) (toNat_widen hs hm hsplit),
    narrowMagnitude_widenMagnitude hm hquiet]
  exact hsplit.symm

/-- Infinities and NaNs stay what they are. -/
lemma finite_of_finite_narrow_widen {f : UInt32} (h : Finite (narrow (widen f))) : Finite f := by
  intro h255
  have hlt := f.toNat_lt
  have hm : f.toNat % 2 ^ 31 < 2 ^ 31 := Nat.mod_lt _ (by decide)
  have hs : f.toNat / 2 ^ 31 < 2 := by omega
  have hwiden := toNat_widen hs hm (show f.toNat = _ by omega)
  have hnarrow := toNat_narrow hs (widenMagnitude_lt hm) hwiden
  have hnot := narrowMagnitude_lt (widenMagnitude (f.toNat % 2 ^ 31))
  have htop : widenMagnitude (f.toNat % 2 ^ 31) / 2 ^ 52 = 2047 := by
    rw [widenMagnitude, if_pos h255]
    split_ifs <;> omega
  have hinfinite : 255 * 2 ^ 23 ≤ narrowMagnitude (widenMagnitude (f.toNat % 2 ^ 31)) := by
    rw [narrowMagnitude, if_pos htop]
    exact Nat.le_add_right _ _
  unfold Finite at h
  omega

/-- A finite value is told apart from every other one after widening. -/
lemma widen_eq_iff {f g : UInt32} (hg : Finite g) : widen f = widen g ↔ f = g := by
  constructor
  · intro h
    have hnarrow : narrow (widen f) = g := by rw [h, narrow_widen hg]
    have hf : Finite f := finite_of_finite_narrow_widen (hnarrow.symm ▸ hg)
    rw [← narrow_widen hf, hnarrow]
  · rintro rfl
    rfl

end Binary
