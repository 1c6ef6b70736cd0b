/-
Numbers as big-endian strings of bytes of a fixed width.
-/
import Mathlib.Tactic

namespace BigEndian

/-- The `k` low-order bytes of a number, most significant byte first. -/
def encode : ℕ → ℕ → List UInt8
  | 0, _ => []
  | k + 1, n => UInt8.ofNat (n / 256 ^ k) :: encode k n

/-- The number that a string of bytes stands for. -/
def decode (bytes : List UInt8) : ℕ := bytes.foldl (fun n b => n * 256 + b.toNat) 0

@[simp] lemma length_encode (k n : ℕ) : (encode k n).length = k := by
  induction k with
  | zero => rfl
  | succ k ih => simp [encode, ih]

lemma foldl_encode (k n m : ℕ) :
    (encode k n).foldl (fun n b => n * 256 + b.toNat) m = m * 256 ^ k + n % 256 ^ k := by
  induction k generalizing m with
  | zero => simp [encode, Nat.mod_one]
  | succ k ih =>
    have hdigit : n % 256 ^ (k + 1) = n % 256 ^ k + 256 ^ k * (n / 256 ^ k % 256) := by
      rw [pow_succ, Nat.mod_mul]
    rw [encode, List.foldl_cons, ih, UInt8.toNat_ofNat', hdigit, pow_succ 256 k]
    norm_num
    ring

lemma decode_encode (k n : ℕ) : decode (encode k n) = n % 256 ^ k := by
  rw [decode, foldl_encode]
  simp

lemma decode_encode_of_lt {k n : ℕ} (h : n < 256 ^ k) : decode (encode k n) = n := by
  rw [decode_encode, Nat.mod_eq_of_lt h]

/-- The bytes see the number modulo `256 ^ k` and nothing else. -/
lemma encode_eq_encode_iff {k m n : ℕ} : encode k m = encode k n ↔ m % 256 ^ k = n % 256 ^ k := by
  constructor
  · intro h
    rw [← decode_encode, ← decode_encode, h]
  · intro h
    induction k with
    | zero => rfl
    | succ k ih =>
      have hlow : m % 256 ^ k = n % 256 ^ k := by
        have hdvd : 256 ^ k ∣ 256 ^ (k + 1) := pow_dvd_pow 256 (Nat.le_succ k)
        rw [← Nat.mod_mod_of_dvd m hdvd, h, Nat.mod_mod_of_dvd n hdvd]
      have htop : m / 256 ^ k % 256 = n / 256 ^ k % 256 := by
        rw [← Nat.mod_mul_right_div_self, ← Nat.mod_mul_right_div_self, ← pow_succ, h]
      have hbyte : UInt8.ofNat (m / 256 ^ k) = UInt8.ofNat (n / 256 ^ k) := by
        rw [← UInt8.toNat_inj, UInt8.toNat_ofNat', UInt8.toNat_ofNat']
        exact htop
      rw [encode, encode, hbyte, ih hlow]

/-- Dropping leading bytes narrows the width. -/
lemma drop_encode {j k : ℕ} (h : j ≤ k) (n : ℕ) : (encode k n).drop (k - j) = encode j n := by
  induction k with
  | zero =>
    obtain rfl : j = 0 := Nat.le_zero.mp h
    rfl
  | succ k ih =>
    rcases Nat.lt_or_eq_of_le h with hlt | rfl
    · have hsub : k + 1 - j = (k - j) + 1 := by omega
      rw [hsub, encode, List.drop_succ_cons]
      exact ih (Nat.le_of_lt_succ hlt)
    · simp

/-- The first byte is the most significant one. -/
lemma decode_cons (b : UInt8) (bytes : List UInt8) :
    decode (b :: bytes) = b.toNat * 256 ^ bytes.length + decode bytes := by
  have hfold : ∀ m : ℕ,
      bytes.foldl (fun n b => n * 256 + b.toNat) m = m * 256 ^ bytes.length + decode bytes := by
    induction bytes with
    | nil => simp [decode]
    | cons b bytes ih =>
      intro m
      rw [decode, List.foldl_cons, List.foldl_cons, ih, ih (0 * 256 + b.toNat), List.length_cons,
        pow_succ]
      ring
  rw [decode, List.foldl_cons, hfold, Nat.zero_mul, Nat.zero_add]

lemma decode_append (first second : List UInt8) :
    decode (first ++ second) = decode first * 256 ^ second.length + decode second := by
  induction first with
  | nil => simp [decode]
  | cons b first ih =>
    rw [List.cons_append, decode_cons, decode_cons, ih, List.length_append, pow_add]
    ring

@[simp] lemma decode_replicate_zero (k : ℕ) : decode (List.replicate k 0) = 0 := by
  induction k with
  | zero => rfl
  | succ k ih => rw [List.replicate_succ, decode_cons, ih, UInt8.toNat_zero, Nat.zero_mul]

/-- Complementing every byte complements the number. -/
lemma decode_map_complement (bytes : List UInt8) :
    decode (bytes.map (~~~ ·)) + decode bytes + 1 = 256 ^ bytes.length := by
  induction bytes with
  | nil => rfl
  | cons b bytes ih =>
    have hbyte : (~~~ b).toNat + b.toNat = 255 := by
      have hb := b.toNat_lt
      have hsize : UInt8.size = 256 := rfl
      rw [UInt8.toNat_not]
      omega
    have hsum : (~~~ b).toNat * 256 ^ bytes.length + b.toNat * 256 ^ bytes.length
        = 255 * 256 ^ bytes.length := by
      rw [← Nat.add_mul, hbyte]
    rw [List.map_cons, decode_cons, decode_cons, List.length_map, List.length_cons, pow_succ]
    linarith

end BigEndian
