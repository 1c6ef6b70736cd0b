/-
Hexadecimal numerals in ASCII.

A byte is denoted by two digits, the letters in either case, so a string of bytes has several
numerals, and a numeral denotes at most one string of bytes.
-/
import Mathlib.Tactic

namespace Hexadecimal

/-- The digit with a value below 16. -/
def digit (upper : Bool) (v : ℕ) : UInt8 :=
  UInt8.ofNat (if v < 10 then 0x30 + v else if upper then 0x41 + (v - 10) else 0x61 + (v - 10))

/-- A digit and its value. -/
def IsDigit (c : UInt8) (v : ℕ) : Prop := v < 16 ∧ ∃ upper, c = digit upper v

/-- A numeral and the bytes that it denotes. -/
inductive Denotes : List UInt8 → List UInt8 → Prop
  | nil : Denotes [] []
  | cons {hi lo : UInt8} {h l : ℕ} {digits bytes : List UInt8} : IsDigit hi h → IsDigit lo l →
      Denotes digits bytes → Denotes (hi :: lo :: digits) (UInt8.ofNat (h * 16 + l) :: bytes)

/-- The code of a digit. -/
lemma isDigit_iff {c : UInt8} {v : ℕ} : IsDigit c v ↔
    v < 10 ∧ c.toNat = 0x30 + v ∨
      10 ≤ v ∧ v < 16 ∧ (c.toNat = 0x41 + (v - 10) ∨ c.toNat = 0x61 + (v - 10)) := by
  have hcode : ∀ n : ℕ, n < 256 → (c = UInt8.ofNat n ↔ c.toNat = n) := by
    intro n hn
    rw [← UInt8.toNat_inj, UInt8.toNat_ofNat_of_lt' hn]
  simp only [IsDigit, digit, Bool.exists_bool, Bool.false_eq_true, if_false, if_true]
  by_cases hv : v < 10
  · simp only [if_pos hv, hcode (0x30 + v) (by omega)]
    omega
  · by_cases hlt : v < 16
    · simp only [if_neg hv, hcode (0x41 + (v - 10)) (by omega),
        hcode (0x61 + (v - 10)) (by omega)]
      omega
    · omega

lemma IsDigit.unique {c : UInt8} {v w : ℕ} (hv : IsDigit c v) (hw : IsDigit c w) : v = w := by
  rw [isDigit_iff] at hv hw
  omega

/-- A numeral denotes at most one string of bytes. -/
lemma Denotes.unique {digits bytes bytes' : List UInt8} (h : Denotes digits bytes)
    (h' : Denotes digits bytes') : bytes = bytes' := by
  induction h generalizing bytes' with
  | nil =>
    cases h' with
    | nil => rfl
  | cons hhi hlo _ ih =>
    cases h' with
    | cons hhi' hlo' hrest => rw [hhi.unique hhi', hlo.unique hlo', ih hrest]

/-- The numerals: an even number of digits. -/
theorem exists_denotes_iff {digits : List UInt8} : (∃ bytes, Denotes digits bytes) ↔
    digits.length % 2 = 0 ∧ ∀ c ∈ digits, ∃ v, IsDigit c v := by
  constructor
  · rintro ⟨bytes, h⟩
    induction h with
    | nil => simp
    | cons hhi hlo _ ih =>
      simp only [List.length_cons, List.forall_mem_cons]
      exact ⟨by omega, ⟨_, hhi⟩, ⟨_, hlo⟩, ih.2⟩
  · rintro ⟨heven, hall⟩
    induction digits using List.twoStepInduction with
    | nil => exact ⟨[], .nil⟩
    | singleton c => simp at heven
    | cons_cons hi lo digits ih _ =>
      simp only [List.length_cons] at heven
      simp only [List.forall_mem_cons] at hall
      obtain ⟨⟨h, hhi⟩, ⟨l, hlo⟩, hrest⟩ := hall
      obtain ⟨bytes, hbytes⟩ := ih (by omega) hrest
      exact ⟨_, .cons hhi hlo hbytes⟩

/-- The numeral of a string of bytes, with the case of each letter. -/
def encode (upper : ℕ → Bool) : List UInt8 → List UInt8
  | [] => []
  | b :: bytes => digit (upper 0) (b.toNat / 16) :: digit (upper 1) (b.toNat % 16)
      :: encode (fun i => upper (i + 2)) bytes

lemma denotes_encode (upper : ℕ → Bool) (bytes : List UInt8) :
    Denotes (encode upper bytes) bytes := by
  induction bytes generalizing upper with
  | nil => exact .nil
  | cons b bytes ih =>
    have hlt := b.toNat_lt
    have hvalue : UInt8.ofNat (b.toNat / 16 * 16 + b.toNat % 16) = b := by
      rw [Nat.div_add_mod', UInt8.ofNat_toNat]
    have hhi : IsDigit (digit (upper 0) (b.toNat / 16)) (b.toNat / 16) := ⟨by omega, _, rfl⟩
    have hlo : IsDigit (digit (upper 1) (b.toNat % 16)) (b.toNat % 16) := ⟨by omega, _, rfl⟩
    have hpair := Denotes.cons hhi hlo (ih fun i => upper (i + 2))
    rwa [hvalue] at hpair

end Hexadecimal
