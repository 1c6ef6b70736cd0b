/-
The values of a counter of limited width.

A function of a counter that sees it modulo `period` and nothing else takes different values
on a stretch of counts if and only if the stretch is no longer than the period.
-/
import Mathlib.Tactic

namespace Counter

variable {α : Type}

/-- The values on `n` counts from `start` on. -/
def values (f : ℕ → α) (start n : ℕ) : List α := (List.range n).map fun i => f (start + i)

@[simp] lemma length_values (f : ℕ → α) (start n : ℕ) : (values f start n).length = n := by
  simp [values]

lemma values_succ (f : ℕ → α) (start n : ℕ) :
    values f start (n + 1) = f start :: values f (start + 1) n := by
  simp [values, List.range_succ_eq_map, Function.comp_def, Nat.add_right_comm, Nat.add_assoc]

/-- The values are different if and only if the counter does not come round. -/
theorem nodup_values_iff {f : ℕ → α} {period : ℕ} (hperiod : 0 < period)
    (hf : ∀ {m n}, f m = f n ↔ m % period = n % period) (start n : ℕ) :
    (values f start n).Nodup ↔ n ≤ period := by
  rw [values, List.nodup_map_iff_inj_on List.nodup_range]
  constructor
  · intro hinj
    by_contra hlong
    -- the counts `start` and `start + period` have the same value
    have hsame : f (start + 0) = f (start + period) := by
      rw [hf, Nat.add_zero, Nat.add_mod_right]
    have hzero :=
      hinj 0 (List.mem_range.mpr (by omega)) period (List.mem_range.mpr (by omega)) hsame
    omega
  · intro hn i hi j hj hij
    rw [List.mem_range] at hi hj
    have hmod : i ≡ j [MOD period] := Nat.ModEq.add_left_cancel' start (hf.mp hij)
    exact hmod.eq_of_lt_of_lt (by omega) (by omega)

end Counter
