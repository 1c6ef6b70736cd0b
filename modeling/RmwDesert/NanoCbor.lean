/-
The interface of NanoCBOR.

NanoCBOR is a submodule of the repository, and its sources are not part of it.  The model
takes the functions that the middleware calls as a parameter; `NanoCbor.Lawful` says what
the middleware relies on, namely that every getter inverts its formatter.  The encoding of
RFC 8949 is an instance.

An encoder appends the bytes of an item, and a decoder is the list of bytes from its cursor
to its end.
-/
import RmwDesert.Lib.Binary
import RmwDesert.Lib.Cbor

namespace RmwDesert

/-- The results of `nanocbor_get_type`. -/
inductive ItemType
  | uint
  | nint
  | bstr
  | tstr
  | arr
  | map
  | tag
  | float
  | error
deriving DecidableEq, Repr

/-- An item as the streams exchange it: the formatter that writes it and its argument, or
the pair of a decoded value and its `NANOCBOR_TYPE_*`. -/
inductive Field
  /-- `NANOCBOR_TYPE_UINT`. -/
  | uint (n : UInt64)
  /-- `NANOCBOR_TYPE_NINT`. -/
  | nint (n : Int64)
  /-- `NANOCBOR_TYPE_FLOAT`, as the bit pattern of a `float`. -/
  | float (bits : UInt32)
  /-- `NANOCBOR_TYPE_TSTR`. -/
  | tstr (s : List UInt8)
deriving DecidableEq, Repr

namespace Field

/-- The item type of a field. -/
def type : Field → ItemType
  | uint _ => .uint
  | nint _ => .nint
  | float _ => .float
  | tstr _ => .tstr

/-- The fields that the insertion operators produce: `nanocbor_fmt_int` is called for
negative numbers only. -/
def Streamed : Field → Prop
  | nint n => n < 0
  | uint _ | float _ | tstr _ => True

/-- The fields that the formatters accept; a length is a `size_t`. -/
def Formattable : Field → Prop
  | uint _ => True
  | nint n => n < 0
  | float _ => True
  | tstr s => s.length < 2 ^ 64

end Field

/-- The functions of NanoCBOR. -/
structure NanoCbor where
  /-- `nanocbor_fmt_uint`. -/
  fmtUint : UInt64 → List UInt8
  /-- `nanocbor_fmt_int`. -/
  fmtInt : Int64 → List UInt8
  /-- `nanocbor_fmt_float`. -/
  fmtFloat : UInt32 → List UInt8
  /-- `nanocbor_put_tstrn`. -/
  putTstrn : List UInt8 → List UInt8
  /-- `nanocbor_put_bstr`. -/
  putBstr : List UInt8 → List UInt8
  /-- `nanocbor_fmt_bstr`. -/
  fmtBstr : ℕ → List UInt8
  /-- `nanocbor_fmt_array`. -/
  fmtArray : ℕ → List UInt8
  /-- `nanocbor_get_type`. -/
  getType : List UInt8 → ItemType
  /-- `nanocbor_get_uint8`. -/
  getUint8 : List UInt8 → Option (UInt8 × List UInt8)
  /-- `nanocbor_get_uint64`. -/
  getUint64 : List UInt8 → Option (UInt64 × List UInt8)
  /-- `nanocbor_get_int64`. -/
  getInt64 : List UInt8 → Option (Int64 × List UInt8)
  /-- `nanocbor_get_float`. -/
  getFloat : List UInt8 → Option (UInt32 × List UInt8)
  /-- `nanocbor_get_tstr`. -/
  getTstr : List UInt8 → Option (List UInt8 × List UInt8)
  /-- `nanocbor_get_bstr`. -/
  getBstr : List UInt8 → Option (List UInt8 × List UInt8)
  /-- `nanocbor_skip`. -/
  skip : List UInt8 → Option (List UInt8)

namespace NanoCbor

variable (N : NanoCbor)

/-- The bytes of a field. -/
def format : Field → List UInt8
  | .uint n => N.fmtUint n
  | .nint n => N.fmtInt n
  | .float bits => N.fmtFloat bits
  | .tstr s => N.putTstrn s

/-- The bytes of a sequence of fields. -/
def encode (fields : List Field) : List UInt8 := fields.flatMap N.format

/-- What the middleware relies on. -/
structure Lawful : Prop where
  format_ne_nil : ∀ {f : Field}, f.Formattable → N.format f ≠ []
  getType_format : ∀ {f : Field} (rest : List UInt8), f.Formattable →
    N.getType (N.format f ++ rest) = f.type
  getUint8_fmtUint : ∀ (n : UInt8) (rest : List UInt8),
    N.getUint8 (N.fmtUint n.toUInt64 ++ rest) = some (n, rest)
  getUint64_fmtUint : ∀ (n : UInt64) (rest : List UInt8),
    N.getUint64 (N.fmtUint n ++ rest) = some (n, rest)
  getInt64_fmtInt : ∀ {n : Int64} (rest : List UInt8), n < 0 →
    N.getInt64 (N.fmtInt n ++ rest) = some (n, rest)
  getFloat_fmtFloat : ∀ (bits : UInt32) (rest : List UInt8),
    N.getFloat (N.fmtFloat bits ++ rest) = some (bits, rest)
  length_le_putTstrn : ∀ s : List UInt8, s.length ≤ (N.putTstrn s).length
  getTstr_putTstrn : ∀ {s : List UInt8} (rest : List UInt8), s.length < 2 ^ 64 →
    N.getTstr (N.putTstrn s ++ rest) = some (s, rest)

/-- A getter, and `nanocbor_skip`, moves the cursor forward if it succeeds; if it fails, the
cursor stays. -/
structure Progressive : Prop where
  getUint8 : ∀ {bytes n rest}, N.getUint8 bytes = some (n, rest) → rest.length < bytes.length
  getUint64 : ∀ {bytes n rest}, N.getUint64 bytes = some (n, rest) → rest.length < bytes.length
  getInt64 : ∀ {bytes n rest}, N.getInt64 bytes = some (n, rest) → rest.length < bytes.length
  getFloat : ∀ {bytes bits rest}, N.getFloat bytes = some (bits, rest) →
    rest.length < bytes.length
  getTstr : ∀ {bytes s rest}, N.getTstr bytes = some (s, rest) → rest.length < bytes.length
  getBstr : ∀ {bytes s rest}, N.getBstr bytes = some (s, rest) → rest.length < bytes.length
  skip : ∀ {bytes rest}, N.skip bytes = some rest → rest.length < bytes.length

/-- The head of an item takes at most nine bytes. -/
def Compact : Prop := ∀ n : UInt64, (N.fmtUint n).length ≤ 9

@[simp] lemma encode_nil : N.encode [] = [] := rfl

@[simp] lemma encode_cons (f : Field) (fields : List Field) :
    N.encode (f :: fields) = N.format f ++ N.encode fields := by
  simp [encode]

@[simp] lemma encode_append (fields₁ fields₂ : List Field) :
    N.encode (fields₁ ++ fields₂) = N.encode fields₁ ++ N.encode fields₂ := by
  simp [encode]

variable {N}

/-- Every field takes at least one byte. -/
lemma Lawful.length_le_length_encode (hN : N.Lawful) {fields : List Field}
    (h : ∀ f ∈ fields, f.Formattable) : fields.length ≤ (N.encode fields).length := by
  induction fields with
  | nil => simp
  | cons f fields ih =>
    have hpos : 0 < (N.format f).length :=
      List.length_pos_iff.mpr (hN.format_ne_nil (h f (by simp)))
    have hrest := ih fun g hg => h g (by simp [hg])
    simp only [encode_cons, List.length_append, List.length_cons]
    omega

lemma length_format_le {f : Field} {fields : List Field} (h : f ∈ fields) :
    (N.format f).length ≤ (N.encode fields).length := by
  obtain ⟨before, after, rfl⟩ := List.append_of_mem h
  simp only [encode_append, encode_cons, List.length_append]
  omega

/-- The fields of a packet are short. -/
lemma Lawful.formattable (hN : N.Lawful) {fields : List Field}
    (hlen : (N.encode fields).length < 2 ^ 64) {f : Field} (hf : f ∈ fields)
    (h : f.Streamed) : f.Formattable := by
  cases f with
  | uint n => exact trivial
  | nint n => exact h
  | float bits => exact trivial
  | tstr s =>
    have hs := hN.length_le_putTstrn s
    have hle : (N.putTstrn s).length ≤ (N.encode fields).length := length_format_le hf
    exact lt_of_le_of_lt (hs.trans hle) hlen

/-! ## RFC 8949 as an instance -/

/-- A head of the given major type, and the bytes after it. -/
def readMajor (major : ℕ) (bytes : List UInt8) : Option (ℕ × List UInt8) :=
  match Cbor.readHead bytes with
  | some (m, n, rest) => if m = major then some (n, rest) else none
  | none => none

/-- A string of the given major type. -/
def readString (major : ℕ) (bytes : List UInt8) : Option (List UInt8 × List UInt8) :=
  match readMajor major bytes with
  | some (n, rest) => if rest.length < n then none else some (rest.take n, rest.drop n)
  | none => none

/-- The item type that an initial byte announces. -/
def majorType : ℕ → ItemType
  | 0 => .uint
  | 1 => .nint
  | 2 => .bstr
  | 3 => .tstr
  | 4 => .arr
  | 5 => .map
  | 6 => .tag
  | _ => .float

/-- The encoding of RFC 8949 for the items that the streams use, floats in single
precision. -/
def rfc8949 : NanoCbor where
  fmtUint n := Cbor.head 0 n.toNat
  fmtInt n :=
    if n < 0 then Cbor.head 1 (-1 - n.toInt).toNat else Cbor.head 0 n.toUInt64.toNat
  fmtFloat bits := Cbor.wideHead 7 26 4 bits.toNat
  putTstrn s := Cbor.head 3 s.length ++ s
  putBstr s := Cbor.head 2 s.length ++ s
  fmtBstr n := Cbor.head 2 n
  fmtArray n := Cbor.head 4 n
  getType bytes :=
    match bytes with
    | [] => .error
    | b :: _ => majorType (b.toNat / 32)
  getUint8 bytes :=
    match readMajor 0 bytes with
    | some (n, rest) => if n < 2 ^ 8 then some (UInt8.ofNat n, rest) else none
    | none => none
  getUint64 bytes := (readMajor 0 bytes).map fun (n, rest) => (UInt64.ofNat n, rest)
  getInt64 bytes := (readMajor 1 bytes).map fun (n, rest) => (Int64.ofInt (-1 - n), rest)
  getFloat bytes := (readMajor 7 bytes).map fun (n, rest) => (UInt32.ofNat n, rest)
  getTstr bytes := readString 3 bytes
  getBstr bytes := readString 2 bytes
  skip bytes :=
    match Cbor.readHead bytes with
    | some (2, n, rest) | some (3, n, rest) =>
      if rest.length < n then none else some (rest.drop n)
    | some (_, _, rest) => some rest
    | none => none

lemma rfc8949_compact : rfc8949.Compact := fun n => Cbor.length_head_le 0 n.toNat

lemma readMajor_head {major n : ℕ} (hmajor : major < 8) (hn : n < 2 ^ 64) (rest : List UInt8) :
    readMajor major (Cbor.head major n ++ rest) = some (n, rest) := by
  simp [readMajor, Cbor.readHead_head hmajor hn]

/-- The argument of a negative integer is below `2 ^ 63`. -/
lemma nint_argument {n : Int64} (hn : n < 0) :
    (-1 - n.toInt).toNat < 2 ^ 63 ∧ -1 - ((-1 - n.toInt).toNat : ℤ) = n.toInt := by
  have hneg : n.toInt < 0 := by simpa using Int64.lt_iff_toInt_lt.mp hn
  have hmin := Int64.le_toInt n
  omega

/-- The major type of an initial byte. -/
lemma initial_div {major info : ℕ} (hmajor : major < 8) (hinfo : info < 32) :
    (UInt8.ofNat (major * 32 + info)).toNat / 32 = major := by
  rw [UInt8.toNat_ofNat']
  omega

/-- The initial byte of a head is its major type and five more bits. -/
lemma head_eq_cons {major : ℕ} (hmajor : major < 8) (n : ℕ) :
    ∃ b tail, Cbor.head major n = b :: tail ∧ b.toNat / 32 = major := by
  unfold Cbor.head Cbor.wideHead
  split_ifs with h0
  · exact ⟨_, _, rfl, initial_div hmajor (by omega)⟩
  all_goals exact ⟨_, _, rfl, initial_div hmajor (by omega)⟩

lemma getType_head {major : ℕ} (hmajor : major < 8) (n : ℕ) (rest : List UInt8) :
    rfc8949.getType (Cbor.head major n ++ rest) = majorType major := by
  obtain ⟨b, tail, heq, hb⟩ := head_eq_cons hmajor n
  simp [rfc8949, heq, hb]

/-- A float is told by its initial byte, whatever its width is. -/
lemma getType_wideHead {info : ℕ} (hinfo : info < 32) (width n : ℕ) (rest : List UInt8) :
    rfc8949.getType (Cbor.wideHead 7 info width n ++ rest) = .float := by
  show majorType ((UInt8.ofNat (7 * 32 + info)).toNat / 32) = .float
  rw [initial_div (by omega) hinfo]
  rfl

lemma fmtInt_of_neg {n : Int64} (hn : n < 0) :
    rfc8949.fmtInt n = Cbor.head 1 (-1 - n.toInt).toNat :=
  if_pos hn

/-- RFC 8949 meets the assumptions of the middleware. -/
theorem rfc8949_lawful : rfc8949.Lawful where
  format_ne_nil := by
    intro f hf
    cases f with
    | uint n => exact Cbor.head_ne_nil 0 n.toNat
    | nint n =>
      rw [format, fmtInt_of_neg hf]
      exact Cbor.head_ne_nil 1 _
    | float bits => exact List.cons_ne_nil _ _
    | tstr s => exact List.append_ne_nil_of_left_ne_nil (Cbor.head_ne_nil 3 s.length) s
  getType_format := by
    intro f rest hf
    cases f with
    | uint n => exact getType_head (by omega) n.toNat rest
    | nint n =>
      rw [format, fmtInt_of_neg hf]
      exact getType_head (by omega) _ rest
    | float bits => exact getType_wideHead (by omega) 4 bits.toNat rest
    | tstr s =>
      rw [show rfc8949.format (.tstr s) ++ rest = Cbor.head 3 s.length ++ (s ++ rest) from
        List.append_assoc _ _ _]
      exact getType_head (by omega) _ _
  getUint8_fmtUint := by
    intro n rest
    have hn : n.toUInt64.toNat < 2 ^ 8 := by simpa using n.toNat_lt
    simp only [rfc8949, readMajor_head (show 0 < 8 by omega) (hn.trans (by omega)), if_pos hn]
    simp
  getUint64_fmtUint := by
    intro n rest
    simp [rfc8949, readMajor_head (show 0 < 8 by omega) n.toNat_lt]
  getInt64_fmtInt := by
    intro n rest hn
    obtain ⟨hlt, heq⟩ := nint_argument hn
    rw [fmtInt_of_neg hn]
    simp only [rfc8949, readMajor_head (show 1 < 8 by omega) (hlt.trans (by omega)),
      Option.map_some, heq, Int64.ofInt_toInt]
  getFloat_fmtFloat := by
    intro bits rest
    have hread := @Cbor.readHead_wideHead 7 26 4 bits.toNat (by omega) (by omega) rfl
      bits.toNat_lt rest
    simp [rfc8949, readMajor, hread]
  length_le_putTstrn := by
    intro s
    simp [rfc8949]
  getTstr_putTstrn := by
    intro s rest hs
    have hlen : ¬ (s ++ rest).length < s.length := by simp
    simp only [rfc8949, readString, List.append_assoc, readMajor_head (show 3 < 8 by omega) hs,
      if_neg hlen, List.take_left, List.drop_left]

lemma length_lt_of_readMajor {major n : ℕ} {bytes rest : List UInt8}
    (h : readMajor major bytes = some (n, rest)) : rest.length < bytes.length := by
  rw [readMajor] at h
  split at h
  · rename_i hhead
    split_ifs at h
    obtain ⟨-, rfl⟩ := by simpa using h
    exact Cbor.length_lt_of_readHead hhead
  · cases h

lemma length_lt_of_map_readMajor {α : Type} {major : ℕ} {bytes rest : List UInt8} {f : ℕ → α}
    {x : α} (h : (readMajor major bytes).map (fun (n, rest) => (f n, rest)) = some (x, rest)) :
    rest.length < bytes.length := by
  obtain ⟨⟨n, rest'⟩, hread, hx⟩ := Option.map_eq_some_iff.mp h
  obtain ⟨-, rfl⟩ := Prod.mk.inj hx
  exact length_lt_of_readMajor hread

lemma length_lt_of_readString {major : ℕ} {bytes s rest : List UInt8}
    (h : readString major bytes = some (s, rest)) : rest.length < bytes.length := by
  rw [readString] at h
  split at h
  · rename_i n rest' hread
    split_ifs at h
    obtain ⟨-, rfl⟩ := by simpa using h
    have hlt := length_lt_of_readMajor hread
    rw [List.length_drop]
    omega
  · cases h

theorem rfc8949_progressive : rfc8949.Progressive where
  getUint8 := by
    intro bytes n rest h
    simp only [rfc8949] at h
    split at h
    · rename_i m rest' hread
      split_ifs at h
      obtain ⟨-, rfl⟩ := by simpa using h
      exact length_lt_of_readMajor hread
    · cases h
  getUint64 := length_lt_of_map_readMajor
  getInt64 := length_lt_of_map_readMajor (f := fun n => Int64.ofInt (-1 - n))
  getFloat := length_lt_of_map_readMajor
  getTstr := length_lt_of_readString
  getBstr := length_lt_of_readString
  skip := by
    intro bytes rest h
    simp only [rfc8949] at h
    split at h
    all_goals
      first
      | rename_i hread
        have hlt := Cbor.length_lt_of_readHead hread
      | cases h
    · split_ifs at h
      obtain rfl := Option.some.inj h
      rw [List.length_drop]
      omega
    · split_ifs at h
      obtain rfl := Option.some.inj h
      rw [List.length_drop]
      omega
    · obtain rfl := Option.some.inj h
      exact hlt

/-! ## Preferred serialization -/

/-- The preferred serialization of RFC 8949: the shortest head for a number or a length, and
half precision for a float that it can hold. -/
structure Preferred (N : NanoCbor) : Prop where
  fmtUint : ∀ n : UInt64, N.fmtUint n = Cbor.head 0 n.toNat
  fmtInt : ∀ {n : Int64}, n < 0 → N.fmtInt n = Cbor.head 1 (-1 - n.toInt).toNat
  fmtFloat_widenHalf : ∀ {h : UInt16}, Binary.Finite (Binary.widenHalf h) →
    N.fmtFloat (Binary.widenHalf h) = Cbor.wideHead 7 25 2 h.toNat
  fmtFloat_single : ∀ {bits : UInt32}, Binary.Finite bits →
    (∀ h, Binary.widenHalf h ≠ bits) → N.fmtFloat bits = Cbor.wideHead 7 26 4 bits.toNat
  putTstrn : ∀ {s : List UInt8}, s.length < 2 ^ 64 →
    N.putTstrn s = Cbor.head 3 s.length ++ s

/-- A float of the given width. -/
def readFloat (width : ℕ) (float : ℕ → UInt32) (bytes : List UInt8) :
    Option (UInt32 × List UInt8) :=
  if bytes.length < width then none
  else some (float (BigEndian.decode (bytes.take width)), bytes.drop width)

/-- The encoding of RFC 8949 in preferred serialization. -/
def preferred : NanoCbor :=
  { rfc8949 with
    fmtFloat := fun bits =>
      match Binary.narrowHalf bits with
      | some h => Cbor.wideHead 7 25 2 h.toNat
      | none => Cbor.wideHead 7 26 4 bits.toNat
    getFloat := fun bytes =>
      match bytes with
      | 0xF9 :: rest => readFloat 2 (fun n => Binary.widenHalf (UInt16.ofNat n)) rest
      | 0xFA :: rest => readFloat 4 UInt32.ofNat rest
      | _ => none }

lemma readFloat_encode {width n : ℕ} (hn : n < 256 ^ width) (float : ℕ → UInt32)
    (rest : List UInt8) :
    readFloat width float (BigEndian.encode width n ++ rest) = some (float n, rest) := by
  have hlen : ¬ (BigEndian.encode width n ++ rest).length < width := by simp
  rw [readFloat, if_neg hlen, List.take_left' (BigEndian.length_encode width n),
    List.drop_left' (BigEndian.length_encode width n), BigEndian.decode_encode_of_lt hn]

lemma fmtFloat_preferred (bits : UInt32) : preferred.fmtFloat bits =
    match Binary.narrowHalf bits with
    | some h => Cbor.wideHead 7 25 2 h.toNat
    | none => Cbor.wideHead 7 26 4 bits.toNat := rfl

lemma fmtFloat_preferred_of_some {bits : UInt32} {h : UInt16}
    (hhalf : Binary.narrowHalf bits = some h) :
    preferred.fmtFloat bits = Cbor.wideHead 7 25 2 h.toNat := by
  rw [fmtFloat_preferred, hhalf]

lemma fmtFloat_preferred_of_none {bits : UInt32} (hhalf : Binary.narrowHalf bits = none) :
    preferred.fmtFloat bits = Cbor.wideHead 7 26 4 bits.toNat := by
  rw [fmtFloat_preferred, hhalf]

theorem preferred_lawful : preferred.Lawful where
  format_ne_nil := by
    intro f hf
    cases f with
    | uint n => exact rfc8949_lawful.format_ne_nil (f := .uint n) hf
    | nint n => exact rfc8949_lawful.format_ne_nil (f := .nint n) hf
    | float bits =>
      show preferred.fmtFloat bits ≠ []
      cases hhalf : Binary.narrowHalf bits with
      | some h =>
        rw [fmtFloat_preferred_of_some hhalf]
        exact List.cons_ne_nil _ _
      | none =>
        rw [fmtFloat_preferred_of_none hhalf]
        exact List.cons_ne_nil _ _
    | tstr s => exact rfc8949_lawful.format_ne_nil (f := .tstr s) hf
  getType_format := by
    intro f rest hf
    cases f with
    | uint n => exact rfc8949_lawful.getType_format (f := .uint n) rest hf
    | nint n => exact rfc8949_lawful.getType_format (f := .nint n) rest hf
    | float bits =>
      show preferred.getType (preferred.fmtFloat bits ++ rest) = .float
      cases hhalf : Binary.narrowHalf bits with
      | some h =>
        rw [fmtFloat_preferred_of_some hhalf]
        exact @getType_wideHead 25 (by omega) 2 h.toNat rest
      | none =>
        rw [fmtFloat_preferred_of_none hhalf]
        exact @getType_wideHead 26 (by omega) 4 bits.toNat rest
    | tstr s => exact rfc8949_lawful.getType_format (f := .tstr s) rest hf
  getUint8_fmtUint := rfc8949_lawful.getUint8_fmtUint
  getUint64_fmtUint := rfc8949_lawful.getUint64_fmtUint
  getInt64_fmtInt := rfc8949_lawful.getInt64_fmtInt
  getFloat_fmtFloat := by
    intro bits rest
    cases hhalf : Binary.narrowHalf bits with
    | some h =>
      rw [fmtFloat_preferred_of_some hhalf]
      have hread := readFloat_encode (show h.toNat < 256 ^ 2 from h.toNat_lt)
        (fun n => Binary.widenHalf (UInt16.ofNat n)) rest
      rwa [UInt16.ofNat_toNat, Binary.widenHalf_of_narrowHalf hhalf] at hread
    | none =>
      rw [fmtFloat_preferred_of_none hhalf]
      have hread := readFloat_encode (show bits.toNat < 256 ^ 4 from bits.toNat_lt)
        UInt32.ofNat rest
      rwa [UInt32.ofNat_toNat] at hread
  length_le_putTstrn := rfc8949_lawful.length_le_putTstrn
  getTstr_putTstrn := rfc8949_lawful.getTstr_putTstrn

theorem preferred_preferred : preferred.Preferred where
  fmtUint _ := rfl
  fmtInt hn := fmtInt_of_neg hn
  fmtFloat_widenHalf := by
    intro h hfinite
    cases hhalf : Binary.narrowHalf (Binary.widenHalf h) with
    | some h' =>
      obtain rfl := Binary.widenHalf_injective hfinite (Binary.widenHalf_of_narrowHalf hhalf)
      exact fmtFloat_preferred_of_some hhalf
    | none => exact absurd rfl (Binary.narrowHalf_eq_none_iff.mp hhalf h)
  fmtFloat_single _ hnone := fmtFloat_preferred_of_none (Binary.narrowHalf_eq_none_iff.mpr hnone)
  putTstrn _ := rfl

end NanoCbor
end RmwDesert
