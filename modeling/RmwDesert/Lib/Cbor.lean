/-
The heads of CBOR data items in preferred serialization (RFC 8949, sections 3 and 4.1).

A head carries a major type below 8 and an argument below `2 ^ 64`, written in the fewest
bytes that hold it.
-/
import RmwDesert.Lib.BigEndian

namespace Cbor

/-- A head with the argument in `width` bytes after the initial byte. -/
def wideHead (major info width n : ℕ) : List UInt8 :=
  UInt8.ofNat (major * 32 + info) :: BigEndian.encode width n

/-- The shortest head with the given major type and argument. -/
def head (major n : ℕ) : List UInt8 :=
  if n < 24 then [UInt8.ofNat (major * 32 + n)]
  else if n < 256 ^ 1 then wideHead major 24 1 n
  else if n < 256 ^ 2 then wideHead major 25 2 n
  else if n < 256 ^ 4 then wideHead major 26 4 n
  else wideHead major 27 8 n

/-- The number of argument bytes that the additional information of a head announces;
`none` for the values that are reserved or mean an indefinite length. -/
def argumentWidth (info : ℕ) : Option ℕ :=
  if info < 24 then some 0
  else if info = 24 then some 1
  else if info = 25 then some 2
  else if info = 26 then some 4
  else if info = 27 then some 8
  else none

/-- Reads a head: the major type, the argument and the bytes that follow. -/
def readHead : List UInt8 → Option (ℕ × ℕ × List UInt8)
  | [] => none
  | b :: rest =>
    if b.toNat % 32 < 24 then some (b.toNat / 32, b.toNat % 32, rest)
    else
      match argumentWidth (b.toNat % 32) with
      | none => none
      | some width =>
        if rest.length < width then none
        else some (b.toNat / 32, BigEndian.decode (rest.take width), rest.drop width)

lemma head_ne_nil (major n : ℕ) : head major n ≠ [] := by
  unfold head wideHead
  split_ifs <;> simp

/-- A head takes at most nine bytes. -/
lemma length_head_le (major n : ℕ) : (head major n).length ≤ 9 := by
  unfold head wideHead
  split_ifs <;> simp

/-- A head is no longer than the string that it announces, unless the string is empty. -/
lemma length_head_le_self (major : ℕ) {n : ℕ} (hn : 0 < n) : (head major n).length ≤ n := by
  by_cases h : n < 24
  · rw [head, if_pos h]
    exact hn
  · exact (length_head_le major n).trans (by omega)

/-- The head of a short string takes at most five bytes. -/
lemma length_head_le_five (major : ℕ) {n : ℕ} (hn : n < 2 ^ 32) : (head major n).length ≤ 5 := by
  unfold head wideHead
  split_ifs with h0 h1 h2 h4
  · simp
  · simp
  · simp
  · simp
  · exact absurd hn h4

/-- The head of a long string takes nine bytes. -/
lemma length_head_of_le (major : ℕ) {n : ℕ} (hn : 2 ^ 32 ≤ n) : (head major n).length = 9 := by
  rw [head, if_neg (by omega), if_neg (by omega), if_neg (by omega), if_neg (by omega), wideHead]
  simp

lemma readHead_wideHead {major info width n : ℕ} (hmajor : major < 8)
    (hinfo : 24 ≤ info ∧ info < 32) (hwidth : argumentWidth info = some width)
    (hn : n < 256 ^ width) (rest : List UInt8) :
    readHead (wideHead major info width n ++ rest) = some (major, n, rest) := by
  have hbyte : (UInt8.ofNat (major * 32 + info)).toNat = major * 32 + info := by
    rw [UInt8.toNat_ofNat']
    omega
  have hmod : (major * 32 + info) % 32 = info := by omega
  have hdiv : (major * 32 + info) / 32 = major := by omega
  have hlen : ¬ (BigEndian.encode width n ++ rest).length < width := by simp
  rw [wideHead, List.cons_append, readHead, hbyte, hmod, if_neg (by omega), hwidth]
  simp only [hlen, if_false, hdiv]
  rw [List.take_left' (BigEndian.length_encode width n),
    List.drop_left' (BigEndian.length_encode width n), BigEndian.decode_encode_of_lt hn]

/-- Reading undoes writing, whatever follows the head. -/
theorem readHead_head {major n : ℕ} (hmajor : major < 8) (hn : n < 2 ^ 64) (rest : List UInt8) :
    readHead (head major n ++ rest) = some (major, n, rest) := by
  rw [head]
  split_ifs with h0 h1 h2 h4
  · have hbyte : (UInt8.ofNat (major * 32 + n)).toNat = major * 32 + n := by
      rw [UInt8.toNat_ofNat']
      omega
    have hmod : (major * 32 + n) % 32 = n := by omega
    have hdiv : (major * 32 + n) / 32 = major := by omega
    rw [List.singleton_append, readHead, hbyte, hmod, hdiv, if_pos h0]
  · exact readHead_wideHead hmajor (by decide) rfl h1 rest
  · exact readHead_wideHead hmajor (by decide) rfl h2 rest
  · exact readHead_wideHead hmajor (by decide) rfl h4 rest
  · exact readHead_wideHead hmajor (by decide) rfl (by omega) rest

/-- No head is a proper prefix of another one. -/
lemma head_append_inj {major major' n n' : ℕ} (hmajor : major < 8) (hmajor' : major' < 8)
    (hn : n < 2 ^ 64) (hn' : n' < 2 ^ 64) {rest rest' : List UInt8}
    (h : head major n ++ rest = head major' n' ++ rest') :
    major = major' ∧ n = n' ∧ rest = rest' := by
  have hread := congrArg readHead h
  rw [readHead_head hmajor hn, readHead_head hmajor' hn'] at hread
  simpa using hread

/-- Strings with their heads can be told apart, whatever follows them. -/
lemma string_append_inj {major : ℕ} (hmajor : major < 8) {s s' rest rest' : List UInt8}
    (hs : s.length < 2 ^ 64) (hs' : s'.length < 2 ^ 64)
    (h : head major s.length ++ s ++ rest = head major s'.length ++ s' ++ rest') :
    s = s' ∧ rest = rest' := by
  rw [List.append_assoc, List.append_assoc] at h
  obtain ⟨-, hlen, h⟩ := head_append_inj hmajor hmajor hs hs' h
  exact List.append_inj h hlen

/-- An integer: a natural number, or the negative one that its argument stands for. -/
def integer (n : ℤ) : List UInt8 :=
  if n < 0 then head 1 (-1 - n).toNat else head 0 n.toNat

/-- Integers can be told apart, whatever follows them. -/
lemma integer_append_inj {n n' : ℤ} (hn : -2 ^ 64 ≤ n ∧ n < 2 ^ 64)
    (hn' : -2 ^ 64 ≤ n' ∧ n' < 2 ^ 64) {rest rest' : List UInt8}
    (h : integer n ++ rest = integer n' ++ rest') : n = n' ∧ rest = rest' := by
  unfold integer at h
  split_ifs at h with hneg hneg' hneg'
  all_goals
    obtain ⟨hmajor, hargument, hrest⟩ :=
      head_append_inj (by omega) (by omega) (by omega) (by omega) h
    exact ⟨by omega, hrest⟩

/-- A head takes at least one byte. -/
lemma length_lt_of_readHead {bytes rest : List UInt8} {major n : ℕ}
    (h : readHead bytes = some (major, n, rest)) : rest.length < bytes.length := by
  cases bytes with
  | nil => cases h
  | cons b bytes =>
    simp only [readHead] at h
    rw [List.length_cons]
    split at h
    · obtain ⟨-, -, rfl⟩ := by simpa using h
      omega
    · split at h
      · cases h
      · split_ifs at h
        obtain ⟨-, -, rfl⟩ := by simpa using h
        rw [List.length_drop]
        omega

end Cbor
