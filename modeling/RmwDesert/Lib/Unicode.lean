/-
UTF-16 as the encoding of lists of Unicode scalar values.

The library of Lean has the scalar values (`Char`) and their UTF-8 form
(`String.utf8EncodeChar`).  This file adds the UTF-16 form and reads both as arithmetic on
the number of the code point, which is what a transcoder computes with.
-/
import Mathlib.Data.List.TakeWhile
import Mathlib.Tactic

namespace Unicode

/-- The code units of a scalar value: itself below `0x10000`, a surrogate pair above. -/
def utf16EncodeChar (c : Char) : List UInt16 :=
  if c.toNat ≤ 0xFFFF then [UInt16.ofNat c.toNat]
  else [UInt16.ofNat (0xD800 + (c.toNat - 0x10000) / 1024),
        UInt16.ofNat (0xDC00 + (c.toNat - 0x10000) % 1024)]

/-- The UTF-16 form of a text. -/
def utf16Encode (text : List Char) : List UInt16 := text.flatMap utf16EncodeChar

/-- The UTF-8 form of a text. -/
def utf8Encode (text : List Char) : List UInt8 := text.flatMap String.utf8EncodeChar

/-- A sequence of code units is well-formed when it is the UTF-16 form of a text. -/
def IsUtf16 (units : List UInt16) : Prop := ∃ text : List Char, units = utf16Encode text

@[simp] lemma utf16Encode_nil : utf16Encode [] = [] := rfl

@[simp] lemma utf16Encode_cons (c : Char) (text : List Char) :
    utf16Encode (c :: text) = utf16EncodeChar c ++ utf16Encode text := by
  simp [utf16Encode]

@[simp] lemma utf8Encode_nil : utf8Encode [] = [] := rfl

@[simp] lemma utf8Encode_cons (c : Char) (text : List Char) :
    utf8Encode (c :: text) = String.utf8EncodeChar c ++ utf8Encode text := by
  simp [utf8Encode]

/-- Every character takes at least a byte. -/
lemma length_le_utf8Encode (text : List Char) : text.length ≤ (utf8Encode text).length := by
  induction text with
  | nil => simp
  | cons c text ih =>
    have := String.length_utf8EncodeChar c
    have := c.utf8Size_pos
    simp only [utf8Encode_cons, List.length_append, List.length_cons]
    omega

/-- A scalar value is not a surrogate, and is at most `0x10FFFF`. -/
lemma toNat_cases (c : Char) :
    c.toNat < 0xD800 ∨ (0xDFFF < c.toNat ∧ c.toNat < 0x110000) := c.valid

/-- The four length classes of UTF-8. -/
lemma utf8EncodeChar_eq (c : Char) :
    String.utf8EncodeChar c =
      if c.toNat ≤ 0x7F then [UInt8.ofNat c.toNat]
      else if c.toNat ≤ 0x7FF then
        [UInt8.ofNat (c.toNat / 64 % 32 + 192), UInt8.ofNat (c.toNat % 64 + 128)]
      else if c.toNat ≤ 0xFFFF then
        [UInt8.ofNat (c.toNat / 4096 % 16 + 224), UInt8.ofNat (c.toNat / 64 % 64 + 128),
          UInt8.ofNat (c.toNat % 64 + 128)]
      else
        [UInt8.ofNat (c.toNat / 262144 % 8 + 240), UInt8.ofNat (c.toNat / 4096 % 64 + 128),
          UInt8.ofNat (c.toNat / 64 % 64 + 128), UInt8.ofNat (c.toNat % 64 + 128)] := rfl

/-- The terminator stands for itself in both forms. -/
lemma zero_mem_utf16Encode {text : List Char} (h : 0 ∈ utf8Encode text) : 0 ∈ utf16Encode text := by
  obtain ⟨c, hc, h⟩ := List.mem_flatMap.mp h
  refine List.mem_flatMap.mpr ⟨c, hc, ?_⟩
  have hzero : c.toNat = 0 := by
    have hmax := toNat_cases c
    rw [utf8EncodeChar_eq] at h
    split_ifs at h <;>
      simp only [List.mem_cons, List.not_mem_nil, or_false, ← UInt8.toNat_inj, UInt8.toNat_ofNat',
        UInt8.toNat_zero] at h <;> omega
  rw [utf16EncodeChar, hzero]
  exact List.mem_cons_self

/-- Every number that is not a surrogate and is at most `0x10FFFF` is a scalar value. -/
lemma exists_toNat_eq {n : ℕ} (h : n < 0xD800 ∨ (0xDFFF < n ∧ n < 0x110000)) :
    ∃ c : Char, c.toNat = n :=
  ⟨Char.ofNatAux n h, rfl⟩

/-- A string without a terminator is all that stands before the terminator behind it. -/
lemma takeWhile_ne_zero {α : Type} [Zero α] [DecidableEq α] {s : List α} (h : 0 ∉ s) :
    s.takeWhile (· ≠ 0) = s := by
  refine List.takeWhile_eq_self_iff.mpr fun c hc => ?_
  rw [decide_eq_true_iff]
  rintro rfl
  exact h hc

/-! ## The grammar of UTF-16 -/

/-- A high surrogate. -/
def IsHigh (unit : UInt16) : Prop := 0xD800 ≤ unit.toNat ∧ unit.toNat ≤ 0xDBFF

/-- A low surrogate. -/
def IsLow (unit : UInt16) : Prop := 0xDC00 ≤ unit.toNat ∧ unit.toNat ≤ 0xDFFF

/-- Surrogates occur in pairs only, the high one first. -/
inductive Paired : List UInt16 → Prop
  | nil : Paired []
  | unit {unit : UInt16} {rest : List UInt16} (hhigh : ¬ IsHigh unit) (hlow : ¬ IsLow unit)
      (hrest : Paired rest) : Paired (unit :: rest)
  | pair {high low : UInt16} {rest : List UInt16} (hhigh : IsHigh high) (hlow : IsLow low)
      (hrest : Paired rest) : Paired (high :: low :: rest)

lemma Paired.utf16EncodeChar_append (c : Char) {rest : List UInt16} (h : Paired rest) :
    Paired (utf16EncodeChar c ++ rest) := by
  have hmax := toNat_cases c
  rw [utf16EncodeChar]
  split_ifs with hsmall
  · have hunit : (UInt16.ofNat c.toNat).toNat = c.toNat := by
      rw [UInt16.toNat_ofNat']
      omega
    refine .unit ?_ ?_ h
    · rw [IsHigh, hunit]
      omega
    · rw [IsLow, hunit]
      omega
  · refine .pair ?_ ?_ h
    · rw [IsHigh, UInt16.toNat_ofNat']
      omega
    · rw [IsLow, UInt16.toNat_ofNat']
      omega

/-- A unit that is not a surrogate is a scalar value. -/
lemma exists_char_unit {unit : UInt16} (hhigh : ¬ IsHigh unit) (hlow : ¬ IsLow unit) :
    ∃ c : Char, c.toNat = unit.toNat ∧ utf16EncodeChar c = [unit] := by
  have hlt := unit.toNat_lt
  rw [IsHigh] at hhigh
  rw [IsLow] at hlow
  obtain ⟨c, hc⟩ := exists_toNat_eq (n := unit.toNat) (by omega)
  refine ⟨c, hc, ?_⟩
  rw [utf16EncodeChar, if_pos (by omega), hc, UInt16.ofNat_toNat]

/-- So is a pair of surrogates. -/
lemma exists_char_pair {high low : UInt16} (hhigh : IsHigh high) (hlow : IsLow low) :
    ∃ c : Char, c.toNat = 0x10000 + (high.toNat - 0xD800) * 1024 + (low.toNat - 0xDC00) ∧
      utf16EncodeChar c = [high, low] := by
  rw [IsHigh] at hhigh
  rw [IsLow] at hlow
  obtain ⟨c, hc⟩ := exists_toNat_eq
    (n := 0x10000 + (high.toNat - 0xD800) * 1024 + (low.toNat - 0xDC00)) (by omega)
  have hhigh' : UInt16.ofNat (0xD800 + (c.toNat - 0x10000) / 1024) = high := by
    rw [← UInt16.toNat_inj, UInt16.toNat_ofNat']
    omega
  have hlow' : UInt16.ofNat (0xDC00 + (c.toNat - 0x10000) % 1024) = low := by
    rw [← UInt16.toNat_inj, UInt16.toNat_ofNat']
    omega
  refine ⟨c, hc, ?_⟩
  rw [utf16EncodeChar, if_neg (by omega), hhigh', hlow']

/-- The texts that UTF-16 encodes are those with paired surrogates. -/
theorem isUtf16_iff_paired (units : List UInt16) : IsUtf16 units ↔ Paired units := by
  constructor
  · rintro ⟨text, rfl⟩
    induction text with
    | nil => exact .nil
    | cons c text ih =>
      rw [utf16Encode_cons]
      exact ih.utf16EncodeChar_append c
  · intro h
    induction h with
    | nil => exact ⟨[], rfl⟩
    | @unit unit rest hhigh hlow hrest ih =>
      obtain ⟨text, rfl⟩ := ih
      obtain ⟨c, -, hunit⟩ := exists_char_unit hhigh hlow
      refine ⟨c :: text, ?_⟩
      rw [utf16Encode_cons, hunit]
      rfl
    | @pair high low rest hhigh hlow hrest ih =>
      obtain ⟨text, rfl⟩ := ih
      obtain ⟨c, -, hpair⟩ := exists_char_pair hhigh hlow
      refine ⟨c :: text, ?_⟩
      rw [utf16Encode_cons, hpair]
      rfl

/-! ## The grammar of UTF-8 -/

/-- The range of a byte that continues a sequence. -/
def tail : ℕ × ℕ := (0x80, 0xBF)

/-- The productions of RFC 3629 for one character, as ranges of bytes. -/
def productions : List (List (ℕ × ℕ)) :=
  [[(0x00, 0x7F)],
    [(0xC2, 0xDF), tail],
    [(0xE0, 0xE0), (0xA0, 0xBF), tail],
    [(0xE1, 0xEC), tail, tail],
    [(0xED, 0xED), (0x80, 0x9F), tail],
    [(0xEE, 0xEF), tail, tail],
    [(0xF0, 0xF0), (0x90, 0xBF), tail, tail],
    [(0xF1, 0xF3), tail, tail, tail],
    [(0xF4, 0xF4), (0x80, 0x8F), tail, tail]]

/-- The byte lies in the range. -/
def InRange (byte : UInt8) (range : ℕ × ℕ) : Prop := range.1 ≤ byte.toNat ∧ byte.toNat ≤ range.2

lemma inRange_iff {byte : UInt8} {least greatest : ℕ} :
    InRange byte (least, greatest) ↔ least ≤ byte.toNat ∧ byte.toNat ≤ greatest := Iff.rfl

lemma inRange_tail {byte : UInt8} : InRange byte tail ↔ 0x80 ≤ byte.toNat ∧ byte.toNat ≤ 0xBF :=
  Iff.rfl

/-- One character, by the grammar. -/
def Utf8Char (bytes : List UInt8) : Prop := ∃ p ∈ productions, List.Forall₂ InRange bytes p

/-- Well-formed UTF-8, by the grammar: any number of characters. -/
def IsUtf8 (bytes : List UInt8) : Prop :=
  ∃ chars : List (List UInt8), (∀ c ∈ chars, Utf8Char c) ∧ bytes = chars.flatten

section

variable {c : Char} {byte₁ byte₂ byte₃ byte₄ : UInt8}

/-- The scalar value of two bytes. -/
lemma utf8EncodeChar_two (h₁ : InRange byte₁ (0xC2, 0xDF)) (h₂ : InRange byte₂ tail)
    (hc : c.toNat = (byte₁.toNat - 0xC0) * 64 + (byte₂.toNat - 0x80)) :
    String.utf8EncodeChar c = [byte₁, byte₂] := by
  simp only [InRange, tail] at h₁ h₂
  rw [utf8EncodeChar_eq, if_neg (by omega), if_pos (by omega)]
  simp only [List.cons.injEq, ← UInt8.toNat_inj, UInt8.toNat_ofNat', and_true]
  omega

/-- The scalar value of three bytes. -/
lemma utf8EncodeChar_three (h₁ : InRange byte₁ (0xE0, 0xEF)) (h₂ : InRange byte₂ tail)
    (h₃ : InRange byte₃ tail) (hmin : 0x800 ≤ c.toNat)
    (hc : c.toNat = (byte₁.toNat - 0xE0) * 4096 + (byte₂.toNat - 0x80) * 64
      + (byte₃.toNat - 0x80)) :
    String.utf8EncodeChar c = [byte₁, byte₂, byte₃] := by
  simp only [InRange, tail] at h₁ h₂ h₃
  rw [utf8EncodeChar_eq, if_neg (by omega), if_neg (by omega), if_pos (by omega)]
  simp only [List.cons.injEq, ← UInt8.toNat_inj, UInt8.toNat_ofNat', and_true]
  omega

/-- The scalar value of four bytes. -/
lemma utf8EncodeChar_four (h₁ : InRange byte₁ (0xF0, 0xF4)) (h₂ : InRange byte₂ tail)
    (h₃ : InRange byte₃ tail) (h₄ : InRange byte₄ tail) (hmin : 0x10000 ≤ c.toNat)
    (hc : c.toNat = (byte₁.toNat - 0xF0) * 262144 + (byte₂.toNat - 0x80) * 4096
      + (byte₃.toNat - 0x80) * 64 + (byte₄.toNat - 0x80)) :
    String.utf8EncodeChar c = [byte₁, byte₂, byte₃, byte₄] := by
  simp only [InRange, tail] at h₁ h₂ h₃ h₄
  rw [utf8EncodeChar_eq, if_neg (by omega), if_neg (by omega), if_neg (by omega)]
  simp only [List.cons.injEq, ← UInt8.toNat_inj, UInt8.toNat_ofNat', and_true]
  omega

end

/-- The restriction of the second byte keeps three bytes off the shorter forms and off the
surrogates. -/
lemma exists_char_three {byte₁ byte₂ byte₃ : UInt8} (h₁ : InRange byte₁ (0xE0, 0xEF))
    (h₂ : InRange byte₂ tail) (h₃ : InRange byte₃ tail)
    (hshort : byte₁.toNat = 0xE0 → 0xA0 ≤ byte₂.toNat)
    (hsurrogate : byte₁.toNat = 0xED → byte₂.toNat ≤ 0x9F) :
    ∃ c, [byte₁, byte₂, byte₃] = String.utf8EncodeChar c := by
  have h₁' := h₁
  have h₂' := h₂
  have h₃' := h₃
  simp only [InRange, tail] at h₁' h₂' h₃'
  obtain ⟨c, hc⟩ := exists_toNat_eq (n := (byte₁.toNat - 0xE0) * 4096
    + (byte₂.toNat - 0x80) * 64 + (byte₃.toNat - 0x80)) (by omega)
  exact ⟨c, (utf8EncodeChar_three h₁ h₂ h₃ (by omega) hc).symm⟩

/-- The same for four bytes, and the numbers above the scalar values. -/
lemma exists_char_four {byte₁ byte₂ byte₃ byte₄ : UInt8} (h₁ : InRange byte₁ (0xF0, 0xF4))
    (h₂ : InRange byte₂ tail) (h₃ : InRange byte₃ tail) (h₄ : InRange byte₄ tail)
    (hshort : byte₁.toNat = 0xF0 → 0x90 ≤ byte₂.toNat)
    (hlong : byte₁.toNat = 0xF4 → byte₂.toNat ≤ 0x8F) :
    ∃ c, [byte₁, byte₂, byte₃, byte₄] = String.utf8EncodeChar c := by
  have h₁' := h₁
  have h₂' := h₂
  have h₃' := h₃
  have h₄' := h₄
  simp only [InRange, tail] at h₁' h₂' h₃' h₄'
  obtain ⟨c, hc⟩ := exists_toNat_eq (n := (byte₁.toNat - 0xF0) * 262144
    + (byte₂.toNat - 0x80) * 4096 + (byte₃.toNat - 0x80) * 64 + (byte₄.toNat - 0x80)) (by omega)
  exact ⟨c, (utf8EncodeChar_four h₁ h₂ h₃ h₄ (by omega) hc).symm⟩

/-- What a production describes is the UTF-8 form of a scalar value. -/
lemma exists_char_of_utf8Char {bytes : List UInt8} (h : Utf8Char bytes) :
    ∃ c, bytes = String.utf8EncodeChar c := by
  obtain ⟨p, hp, h⟩ := h
  simp only [productions, List.mem_cons, List.not_mem_nil, or_false] at hp
  rcases hp with rfl | rfl | rfl | rfl | rfl | rfl | rfl | rfl | rfl
  · simp only [List.forall₂_cons_right_iff, List.forall₂_nil_right_iff] at h
    obtain ⟨byte, _, h, rfl, rfl⟩ := h
    simp only [InRange] at h
    obtain ⟨c, hc⟩ := exists_toNat_eq (n := byte.toNat) (by omega)
    refine ⟨c, ?_⟩
    rw [utf8EncodeChar_eq, if_pos (by omega), hc, UInt8.ofNat_toNat]
  · simp only [List.forall₂_cons_right_iff, List.forall₂_nil_right_iff] at h
    obtain ⟨byte₁, _, h₁, ⟨byte₂, _, h₂, rfl, rfl⟩, rfl⟩ := h
    have h₁' := h₁
    have h₂' := h₂
    simp only [InRange, tail] at h₁' h₂'
    obtain ⟨c, hc⟩ := exists_toNat_eq
      (n := (byte₁.toNat - 0xC0) * 64 + (byte₂.toNat - 0x80)) (by omega)
    exact ⟨c, (utf8EncodeChar_two h₁ h₂ hc).symm⟩
  iterate 4
    · simp only [List.forall₂_cons_right_iff, List.forall₂_nil_right_iff] at h
      obtain ⟨byte₁, _, h₁, ⟨byte₂, _, h₂, ⟨byte₃, _, h₃, rfl, rfl⟩, rfl⟩, rfl⟩ := h
      simp only [InRange, tail] at h₁ h₂
      exact exists_char_three (inRange_iff.mpr (by omega)) (inRange_tail.mpr (by omega)) h₃
        (by omega) (by omega)
  iterate 3
    · simp only [List.forall₂_cons_right_iff, List.forall₂_nil_right_iff] at h
      obtain ⟨byte₁, _, h₁, ⟨byte₂, _, h₂, ⟨byte₃, _, h₃, ⟨byte₄, _, h₄, rfl, rfl⟩, rfl⟩, rfl⟩,
        rfl⟩ := h
      simp only [InRange, tail] at h₁ h₂
      exact exists_char_four (inRange_iff.mpr (by omega)) (inRange_tail.mpr (by omega)) h₃ h₄
        (by omega) (by omega)

/-- The UTF-8 form of a scalar value is described by a production. -/
lemma utf8Char_utf8EncodeChar (c : Char) : Utf8Char (String.utf8EncodeChar c) := by
  have hmax := toNat_cases c
  have hderive : ∀ p ∈ productions, ∀ bytes : List UInt8, List.Forall₂ InRange bytes p →
      Utf8Char bytes := fun p hp _ h => ⟨p, hp, h⟩
  rw [utf8EncodeChar_eq]
  split_ifs with h1 h2 h3
  · refine hderive [(0x00, 0x7F)] (by decide) _ ?_
    simp only [List.forall₂_cons, List.Forall₂.nil, and_true, InRange, UInt8.toNat_ofNat']
    omega
  · refine hderive [(0xC2, 0xDF), tail] (by decide) _ ?_
    simp only [List.forall₂_cons, List.Forall₂.nil, and_true, InRange, tail, UInt8.toNat_ofNat']
    omega
  · -- the first byte decides which production it is
    rcases (by omega : c.toNat / 4096 = 0 ∨ (1 ≤ c.toNat / 4096 ∧ c.toNat / 4096 ≤ 12) ∨
        c.toNat / 4096 = 13 ∨ 14 ≤ c.toNat / 4096) with h | h | h | h
    · refine hderive [(0xE0, 0xE0), (0xA0, 0xBF), tail] (by decide) _ ?_
      simp only [List.forall₂_cons, List.Forall₂.nil, and_true, InRange, tail,
        UInt8.toNat_ofNat']
      omega
    · refine hderive [(0xE1, 0xEC), tail, tail] (by decide) _ ?_
      simp only [List.forall₂_cons, List.Forall₂.nil, and_true, InRange, tail,
        UInt8.toNat_ofNat']
      omega
    · refine hderive [(0xED, 0xED), (0x80, 0x9F), tail] (by decide) _ ?_
      simp only [List.forall₂_cons, List.Forall₂.nil, and_true, InRange, tail,
        UInt8.toNat_ofNat']
      omega
    · refine hderive [(0xEE, 0xEF), tail, tail] (by decide) _ ?_
      simp only [List.forall₂_cons, List.Forall₂.nil, and_true, InRange, tail,
        UInt8.toNat_ofNat']
      omega
  · rcases (by omega : c.toNat / 262144 = 0 ∨ (1 ≤ c.toNat / 262144 ∧ c.toNat / 262144 ≤ 3) ∨
        c.toNat / 262144 = 4) with h | h | h
    · refine hderive [(0xF0, 0xF0), (0x90, 0xBF), tail, tail] (by decide) _ ?_
      simp only [List.forall₂_cons, List.Forall₂.nil, and_true, InRange, tail,
        UInt8.toNat_ofNat']
      omega
    · refine hderive [(0xF1, 0xF3), tail, tail, tail] (by decide) _ ?_
      simp only [List.forall₂_cons, List.Forall₂.nil, and_true, InRange, tail,
        UInt8.toNat_ofNat']
      omega
    · refine hderive [(0xF4, 0xF4), (0x80, 0x8F), tail, tail] (by decide) _ ?_
      simp only [List.forall₂_cons, List.Forall₂.nil, and_true, InRange, tail,
        UInt8.toNat_ofNat']
      omega

/-- The texts that UTF-8 encodes are those that the grammar derives. -/
theorem isUtf8_iff (bytes : List UInt8) :
    IsUtf8 bytes ↔ ∃ text : List Char, bytes = utf8Encode text := by
  constructor
  · rintro ⟨chars, hchars, rfl⟩
    induction chars with
    | nil => exact ⟨[], rfl⟩
    | cons char chars ih =>
      obtain ⟨hchar, hrest⟩ := List.forall_mem_cons.mp hchars
      obtain ⟨c, rfl⟩ := exists_char_of_utf8Char hchar
      obtain ⟨text, htext⟩ := ih hrest
      exact ⟨c :: text, by rw [List.flatten_cons, utf8Encode_cons, htext]⟩
  · rintro ⟨text, rfl⟩
    refine ⟨text.map String.utf8EncodeChar, ?_, by rw [utf8Encode, List.flatMap_def]⟩
    simp only [List.mem_map, forall_exists_index, and_imp, forall_apply_eq_imp_iff₂]
    exact fun c _ => utf8Char_utf8EncodeChar c

end Unicode
