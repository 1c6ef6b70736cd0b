/-
The decoder of the libmcu build (`parser.c` and `decoder.c` of the CBOR library).

The parser walks over a message once and notes the items that it meets; the decoder then
copies the value of an item into a buffer.  A position in the message is the list of the bytes
from there on.
-/
import RmwDesert.LibMcu.Encoder

namespace RmwDesert
namespace LibMcu

/-! ## The parser -/

/-- `cbor_item_data_t`. -/
inductive ItemData
  | unknown
  | integer
  | string
  | array
  | map
  | float
  | simpleValue
deriving DecidableEq, Repr

/-- `cbor_item_t`.  Strings, arrays and maps are noted behind their head, the others at their
initial byte. -/
structure CborItem where
  /-- `type`. -/
  type : ItemData
  /-- `size`. -/
  size : ℕ
  /-- The message from `offset` on. -/
  offset : List UInt8
deriving DecidableEq, Repr

/-- `cbor_error_t`, as far as the parser uses it inside. -/
inductive ParserResult
  | success
  | illegal
  | invalid
  | brk
  | excessive
deriving DecidableEq, Repr

/-- `cbor_reader_t`. -/
structure CborReader where
  /-- The message from `msgidx` on. -/
  msg : List UInt8
  /-- The first `itemidx` of the `items`. -/
  items : List CborItem
deriving DecidableEq, Repr

/-- The size of the array of items in `interpret_packets`. -/
def maxItems : ℕ := 64

/-- `CBOR_RECURSION_MAX_LEVEL`. -/
def recursionMaxLevel : ℕ := 8

/-- `(size_t)CBOR_INDEFINITE_VALUE`. -/
def indefiniteLength : ℕ := 2 ^ 64 - 1

/-- `cbor_copy` into a zeroed number: the first bytes of the source, most significant first. -/
def cborCopy (src : List UInt8) (len : ℕ) : ℕ := BigEndian.decode (src.take len)

namespace CborReader

variable (r : CborReader)

/-- Notes an item. -/
def note (item : CborItem) (msg : List UInt8) : CborReader := ⟨msg, r.items ++ [item]⟩

/-- `has_valid_following_bytes`. -/
def hasValidFollowingBytes (followingBytes : ℕ) : Bool :=
  followingBytes ≠ reservedValue
    && (followingBytes = indefiniteValue || followingBytes + 1 ≤ r.msg.length)

/-- `go_get_item_length`: the length, and the message behind the head. -/
def goGetItemLength (additionalInfo followingBytes : ℕ) : ℕ × List UInt8 :=
  if followingBytes = indefiniteValue then (indefiniteLength, r.msg.drop 1)
  else if followingBytes = 0 then (additionalInfo, r.msg.drop 1)
  else (cborCopy (r.msg.drop 1) followingBytes, r.msg.drop (followingBytes + 1))

/-- `do_integer`. -/
def doInteger (followingBytes : ℕ) : ParserResult × CborReader :=
  if followingBytes = indefiniteValue then (.illegal, r)
  else (.success, r.note ⟨.integer, followingBytes, r.msg⟩ (r.msg.drop (followingBytes + 1)))

/-- `do_string`, given the parser of the chunks of a string of indefinite length. -/
def doString (parse : ℕ → CborReader → ParserResult × CborReader)
    (additionalInfo followingBytes : ℕ) : ParserResult × CborReader :=
  let (len, msg) := r.goGetItemLength additionalInfo followingBytes
  if len = indefiniteLength then
    parse (maxItems - (r.items.length + 1)) (r.note ⟨.string, len, msg⟩ msg)
  else if msg.length < len then (.illegal, { r with msg := msg })
  else (.success, r.note ⟨.string, len, msg⟩ (msg.drop len))

/-- `do_recursive`, given the parser of the elements. -/
def doRecursive (parse : ℕ → CborReader → ParserResult × CborReader)
    (type : ItemData) (additionalInfo followingBytes : ℕ) : ParserResult × CborReader :=
  let (len, msg) := r.goGetItemLength additionalInfo followingBytes
  if len ≠ indefiniteLength ∧ msg.length < len then (.illegal, { r with msg := msg })
  else parse len (r.note ⟨type, len, msg⟩ msg)

/-- `do_float_and_other`. -/
def doFloatAndOther (followingBytes : ℕ) : ParserResult × CborReader :=
  if followingBytes = indefiniteValue then
    (.brk, r.note ⟨.float, followingBytes, r.msg⟩ (r.msg.drop 1))
  else
    let type := if followingBytes ≤ 1 then ItemData.simpleValue else .float
    (.success, r.note ⟨type, followingBytes, r.msg⟩ (r.msg.drop (followingBytes + 1)))

/-- The parser that is called for an initial byte, by its major type. -/
def parseItem (parse : ℕ → CborReader → ParserResult × CborReader) (initial : UInt8) :
    ParserResult × CborReader :=
  let additionalInfo := initial.toNat % 32
  let followingBytes := getFollowingBytes additionalInfo
  if r.hasValidFollowingBytes followingBytes then
    match initial.toNat / 32 with
    | 0 | 1 => r.doInteger followingBytes
    | 2 | 3 => r.doString parse additionalInfo followingBytes
    | 4 => r.doRecursive parse .array additionalInfo followingBytes
    | 5 => r.doRecursive parse .map additionalInfo followingBytes
    | 6 => (.invalid, r)
    | _ => r.doFloatAndOther followingBytes
  else (.illegal, r)

end CborReader

/-- The loop of `parse` at a depth of recursion, with the number of turns left.  Every turn
takes a byte or ends the loop, so the length of the message is fuel enough. -/
def parseLoop : (fuel depth maxitems turns : ℕ) → CborReader → ParserResult × CborReader
  | 0, _, _, _, r => (.success, r)
  | _ + 1, _, _, 0, r => (.success, r)
  | fuel + 1, depth, maxitems, turns + 1, r =>
    match r.msg with
    | [] => (.success, r)
    | initial :: _ =>
      if maxItems ≤ r.items.length then (.success, r)
      else
        let parse := fun n r =>
          if recursionMaxLevel ≤ depth then (.excessive, r) else parseLoop fuel (depth + 1) n n r
        match r.parseItem parse initial with
        | (.success, r) => parseLoop fuel depth maxitems turns r
        | (.brk, r) =>
          if maxitems = indefiniteLength ∨ r.msg = [] then (.brk, r)
          else parseLoop fuel depth maxitems turns r
        | (result, r) => (result, r)

/-- `cbor_parse`: the items that it notes. -/
def cborParse (msg : List UInt8) : List CborItem :=
  (parseLoop msg.length 1 maxItems maxItems ⟨msg, []⟩).2.items

/-! ## The decoder -/

/-- The leading bytes of the union `_cbor_value`, which is zeroed before.  The bytes behind
them are zero. -/
abbrev CborValue := List UInt8

namespace CborValue

variable (val : CborValue)

/-- The unsigned number in the first bytes of the union, least significant first. -/
def number (width : ℕ) : ℕ := BigEndian.decode (val.take width).reverse

/-- `i8`. -/
def i8 : UInt8 := UInt8.ofNat (val.number 1)

/-- `i16`. -/
def i16 : UInt16 := UInt16.ofNat (val.number 2)

/-- `i32`, and the bits of `f32`. -/
def i32 : UInt32 := UInt32.ofNat (val.number 4)

/-- `i64`. -/
def i64 : Int64 := (UInt64.ofNat (val.number 8)).toInt64

end CborValue

/-- `sizeof(val)`. -/
def sizeofVal : ℕ := 128

/-- `decode_unsigned_integer`. -/
def decodeUnsignedInteger : List UInt8 → CborValue
  | [] => []
  | initial :: rest =>
    if getFollowingBytes (initial.toNat % 32) = 0 then [UInt8.ofNat (initial.toNat % 32)]
    else (rest.take (getFollowingBytes (initial.toNat % 32))).reverse

/-- `decode_negative_integer`. -/
def decodeNegativeInteger (item : CborItem) : CborValue :=
  let len := if item.size ≠ 0 then item.size else 1
  let val := ((decodeUnsignedInteger item.offset).take len).map (~~~ ·)
  val ++ List.replicate (8 - len) 0xFF

/-- `get_simple_value`. -/
def getSimpleValue (val : UInt8) : UInt8 :=
  if val = 20 then 0 else if val = 21 then 1 else if val = 22 then 0 else val

/-- `decode_simple`. -/
def decodeSimple (item : CborItem) : CborValue :=
  match decodeUnsignedInteger item.offset with
  | [] => []
  | first :: rest => getSimpleValue first :: rest

/-- `cbor_decode`.  A break and an item larger than the buffer leave the buffer alone. -/
def cborDecode (item : CborItem) : CborValue :=
  if item.type = .float ∧ item.size = indefiniteValue then []
  else if sizeofVal < item.size then []
  else
    match item.type with
    | .unknown | .array | .map => []
    | .integer =>
      match (item.offset.headD 0).toNat / 32 with
      | 0 => decodeUnsignedInteger item.offset
      | 1 => decodeNegativeInteger item
      | _ => []
    | .string => item.offset.take item.size
    | .float => decodeUnsignedInteger item.offset
    | .simpleValue => decodeSimple item

/-! ## The heads that the parser meets -/

section Heads

variable {major n : ℕ}

/-- The argument of a head is in its initial byte or in the bytes that follow. -/
lemma following_cases (hn : n < 2 ^ 64) :
    (getAdditionalInfo n = n ∧ getFollowingBytes (getAdditionalInfo n) = 0 ∧ n < 24) ∨
      (24 ≤ getAdditionalInfo n ∧ getAdditionalInfo n < 28 ∧
        0 < getFollowingBytes (getAdditionalInfo n) ∧
        getFollowingBytes (getAdditionalInfo n) ≤ 8 ∧
        n < 256 ^ getFollowingBytes (getAdditionalInfo n)) := by
  -- an initial byte that announces its number of bytes
  have hwide : ∀ {info : ℕ}, 24 ≤ info → info < 28 → n < 256 ^ 2 ^ (info - 24) →
      24 ≤ info ∧ info < 28 ∧ 0 < getFollowingBytes info ∧ getFollowingBytes info ≤ 8 ∧
        n < 256 ^ getFollowingBytes info := by
    intro info hlow hhigh hlt
    have hfollow : getFollowingBytes info = 2 ^ (info - 24) := by
      rw [getFollowingBytes, if_neg (by omega), if_neg (by omega), if_neg (by omega)]
    have hle : 2 ^ (info - 24) ≤ 2 ^ 3 := Nat.pow_le_pow_right (by omega) (by omega)
    rw [hfollow]
    exact ⟨hlow, hhigh, Nat.two_pow_pos _, hle, hlt⟩
  unfold getAdditionalInfo
  split_ifs with h4 h2 h1 h0
  · exact Or.inr (hwide (by omega) (by omega) hn)
  · exact Or.inr (hwide (by omega) (by omega) (show n < 256 ^ 4 by omega))
  · exact Or.inr (hwide (by omega) (by omega) (show n < 256 ^ 2 by omega))
  · exact Or.inr (hwide (by omega) (by omega) (show n < 256 ^ 1 by omega))
  · exact Or.inl ⟨rfl, if_pos (by omega), by omega⟩

lemma following_le (hn : n < 2 ^ 64) : getFollowingBytes (getAdditionalInfo n) ≤ 8 := by
  rcases following_cases hn with ⟨-, h, -⟩ | ⟨-, -, -, h, -⟩ <;> omega

/-- The initial byte of a head, taken apart. -/
lemma initial_eq (hmajor : major < 8) (hn : n < 2 ^ 64) :
    (UInt8.ofNat (major * 32 + getAdditionalInfo n)).toNat / 32 = major ∧
      (UInt8.ofNat (major * 32 + getAdditionalInfo n)).toNat % 32 = getAdditionalInfo n := by
  have hlt : getAdditionalInfo n < 28 := by
    rcases following_cases hn with ⟨h, -, h'⟩ | ⟨-, h, -⟩ <;> omega
  rw [UInt8.toNat_ofNat']
  omega

/-- The bytes of an argument in the order of the machine. -/
lemma decodeUnsignedInteger_encodeCore (hmajor : major < 8) (hn : n < 2 ^ 64)
    (data rest : List UInt8) :
    decodeUnsignedInteger (encodeCore major data n ++ rest)
      = (BigEndian.encode (max 1 (getFollowingBytes (getAdditionalInfo n))) n).reverse := by
  rw [encodeCore, List.cons_append, List.cons_append, decodeUnsignedInteger,
    (initial_eq hmajor hn).2]
  rcases following_cases hn with ⟨hinfo, hfollow, hlt⟩ | ⟨-, -, hpos, -, hlt⟩
  · rw [hfollow, if_pos rfl, hinfo]
    simp [BigEndian.encode]
  · rw [if_neg (by omega), List.append_assoc,
      List.take_left' (BigEndian.length_encode _ _), Nat.max_eq_right hpos]

lemma lt_width (hn : n < 2 ^ 64) :
    n < 256 ^ max 1 (getFollowingBytes (getAdditionalInfo n)) := by
  rcases following_cases hn with ⟨-, hfollow, hlt⟩ | ⟨-, -, hpos, -, hlt⟩
  · rw [hfollow]
    simp only [Nat.max_eq_left (Nat.zero_le 1)]
    omega
  · rwa [Nat.max_eq_right hpos]

lemma drop_encodeCore (major n : ℕ) (data rest : List UInt8) :
    (encodeCore major data n ++ rest).drop (getFollowingBytes (getAdditionalInfo n) + 1)
      = data ++ rest := by
  rw [encodeCore, List.cons_append, List.cons_append, List.drop_succ_cons, List.append_assoc,
    List.drop_left' (BigEndian.length_encode _ _)]

lemma length_encodeCore (major n : ℕ) (data : List UInt8) :
    (encodeCore major data n).length
      = getFollowingBytes (getAdditionalInfo n) + 1 + data.length := by
  simp only [encodeCore, List.length_append, List.length_cons, BigEndian.length_encode]

end Heads

namespace CborReader

variable (parse : ℕ → CborReader → ParserResult × CborReader) (items : List CborItem) {n : ℕ}
  (rest : List UInt8)

lemma hasValidFollowingBytes_of_le {r : CborReader} {followingBytes : ℕ}
    (h : followingBytes ≤ 8) (hlen : followingBytes + 1 ≤ r.msg.length) :
    r.hasValidFollowingBytes followingBytes = true := by
  have hreserved : followingBytes ≠ reservedValue := by
    rw [reservedValue]
    omega
  simp [hasValidFollowingBytes, hreserved, hlen]

lemma hasValidFollowingBytes_encodeCore (hn : n < 2 ^ 64) (major : ℕ) (data : List UInt8) :
    (⟨encodeCore major data n ++ rest, items⟩ : CborReader).hasValidFollowingBytes
      (getFollowingBytes (getAdditionalInfo n)) = true := by
  refine hasValidFollowingBytes_of_le (following_le hn) ?_
  have hlen := length_encodeCore major n data
  simp only [List.length_append]
  omega

/-- An integer is noted with its head. -/
lemma parseItem_integer {major : ℕ} (hmajor : major = 0 ∨ major = 1) (hn : n < 2 ^ 64) :
    (⟨encodeCore major [] n ++ rest, items⟩ : CborReader).parseItem parse
        (UInt8.ofNat (major * 32 + getAdditionalInfo n))
      = (.success, ⟨rest, items ++ [⟨.integer, getFollowingBytes (getAdditionalInfo n),
          encodeCore major [] n ++ rest⟩]⟩) := by
  have hle := following_le hn
  obtain ⟨hdiv, hmod⟩ := initial_eq (show major < 8 by omega) hn
  have hinteger : ∀ r : CborReader, r.msg = encodeCore major [] n ++ rest →
      r.doInteger (getFollowingBytes (getAdditionalInfo n))
        = (.success, ⟨rest, r.items ++ [⟨.integer, getFollowingBytes (getAdditionalInfo n),
            r.msg⟩]⟩) := by
    intro r hr
    have hne : getFollowingBytes (getAdditionalInfo n) ≠ indefiniteValue := by
      rw [indefiniteValue]
      omega
    rw [doInteger, if_neg hne, note, hr, drop_encodeCore]
    rfl
  rw [parseItem, hmod, hdiv, hasValidFollowingBytes_encodeCore items rest hn, if_pos rfl]
  rcases hmajor with rfl | rfl <;> exact hinteger _ rfl

/-- A text string is noted behind its head. -/
lemma parseItem_string {s : List UInt8} (hs : s.length < 2 ^ 64 - 1) :
    (⟨encodeCore 3 s s.length ++ rest, items⟩ : CborReader).parseItem parse
        (UInt8.ofNat (3 * 32 + getAdditionalInfo s.length))
      = (.success, ⟨rest, items ++ [⟨.string, s.length, s ++ rest⟩]⟩) := by
  have hn : s.length < 2 ^ 64 := by omega
  obtain ⟨hdiv, hmod⟩ := initial_eq (show 3 < 8 by omega) hn
  have hlen : (⟨encodeCore 3 s s.length ++ rest, items⟩ : CborReader).goGetItemLength
      (getAdditionalInfo s.length) (getFollowingBytes (getAdditionalInfo s.length))
      = (s.length, s ++ rest) := by
    have hle := following_le hn
    have hdrop := drop_encodeCore 3 s.length s rest
    rw [goGetItemLength, if_neg (by rw [indefiniteValue]; omega)]
    rcases following_cases hn with ⟨hinfo, hfollow, hlt⟩ | ⟨-, -, hpos, -, hlt⟩
    · rw [hfollow] at hdrop
      rw [if_pos hfollow, hinfo]
      exact congrArg (s.length, ·) hdrop
    · have hcopy : cborCopy ((encodeCore 3 s s.length ++ rest).drop 1)
          (getFollowingBytes (getAdditionalInfo s.length)) = s.length := by
        rw [encodeCore, List.cons_append, List.cons_append, List.drop_one, List.tail_cons,
          List.append_assoc, cborCopy, List.take_left' (BigEndian.length_encode _ _),
          BigEndian.decode_encode_of_lt hlt]
      rw [if_neg (by omega)]
      exact congrArg₂ Prod.mk hcopy hdrop
  have hstring : ∀ r : CborReader, r.items = items →
      r.goGetItemLength (getAdditionalInfo s.length)
        (getFollowingBytes (getAdditionalInfo s.length)) = (s.length, s ++ rest) →
      r.doString parse (getAdditionalInfo s.length)
          (getFollowingBytes (getAdditionalInfo s.length))
        = (.success, ⟨rest, items ++ [⟨.string, s.length, s ++ rest⟩]⟩) := by
    rintro r rfl hr
    have hfits : ¬ (s ++ rest).length < s.length := by simp
    have hdefinite : s.length ≠ indefiniteLength := by
      rw [indefiniteLength]
      omega
    simp only [doString, hr, if_neg hdefinite, if_neg hfits, note, List.drop_left]
  rw [parseItem, hmod, hdiv, hasValidFollowingBytes_encodeCore items rest hn, if_pos rfl]
  exact hstring _ rfl hlen

/-- A float is noted with its head. -/
lemma parseItem_float {info width : ℕ} (hinfo : (info = 25 ∧ width = 2) ∨ (info = 26 ∧ width = 4)) :
    (⟨Cbor.wideHead 7 info width n ++ rest, items⟩ : CborReader).parseItem parse
        (UInt8.ofNat (7 * 32 + info))
      = (.success, ⟨rest, items ++ [⟨.float, width, Cbor.wideHead 7 info width n ++ rest⟩]⟩) := by
  have hdrop : (Cbor.wideHead 7 info width n ++ rest).drop (width + 1) = rest := by
    rw [Cbor.wideHead, List.cons_append, List.drop_succ_cons,
      List.drop_left' (BigEndian.length_encode _ _)]
  have hvalid : (⟨Cbor.wideHead 7 info width n ++ rest, items⟩ : CborReader).hasValidFollowingBytes
      width = true := by
    refine hasValidFollowingBytes_of_le (by omega) ?_
    simp [Cbor.wideHead]
  have hfloat : ∀ r : CborReader, r.msg = Cbor.wideHead 7 info width n ++ rest →
      r.doFloatAndOther width
        = (.success, ⟨rest, r.items ++ [⟨.float, width, r.msg⟩]⟩) := by
    intro r hr
    have hne : width ≠ indefiniteValue := by
      rw [indefiniteValue]
      omega
    have htype : ¬ width ≤ 1 := by omega
    simp only [doFloatAndOther, if_neg hne, if_neg htype, CborReader.note, hr, hdrop]
  have hinitial : (UInt8.ofNat (7 * 32 + info)).toNat / 32 = 7 ∧
      (UInt8.ofNat (7 * 32 + info)).toNat % 32 = info ∧ getFollowingBytes info = width := by
    rcases hinfo with ⟨rfl, rfl⟩ | ⟨rfl, rfl⟩ <;> decide
  rw [parseItem, hinitial.1, hinitial.2.1, hinitial.2.2, hvalid, if_pos rfl]
  exact hfloat _ rfl

/-- A simple value is noted with its head. -/
lemma parseItem_simple (hn : n < 24) :
    (⟨encodeCore 7 [] n ++ rest, items⟩ : CborReader).parseItem parse
        (UInt8.ofNat (7 * 32 + getAdditionalInfo n))
      = (.success, ⟨rest, items ++ [⟨.simpleValue, 0, encodeCore 7 [] n ++ rest⟩]⟩) := by
  have hlt : n < 2 ^ 64 := by omega
  have hfollow : getFollowingBytes (getAdditionalInfo n) = 0 := by
    rcases following_cases hlt with ⟨-, h, -⟩ | ⟨hinfo, -, -, -, -⟩
    · exact h
    · rw [getAdditionalInfo, if_neg (by omega), if_neg (by omega), if_neg (by omega),
        if_neg (by omega)] at hinfo
      omega
  have hvalid := hasValidFollowingBytes_encodeCore items rest hlt 7 []
  have hdrop := drop_encodeCore 7 n [] rest
  obtain ⟨hdiv, hmod⟩ := initial_eq (show 7 < 8 by omega) hlt
  rw [hfollow] at hvalid hdrop
  rw [parseItem, hmod, hdiv, hfollow, hvalid, if_pos rfl]
  simp only [doFloatAndOther, note, hdrop]
  rfl

end CborReader

namespace CborValue

/-- A number that fills no more than the bytes that are read. -/
lemma number_reverse_encode {k n width : ℕ} (hk : k ≤ width) (hn : n < 256 ^ k) :
    number (BigEndian.encode k n).reverse width = n := by
  have hlen : (BigEndian.encode k n).reverse.length ≤ width := by simpa using hk
  rw [number, List.take_of_length_le hlen, List.reverse_reverse, BigEndian.decode_encode_of_lt hn]

/-- The low bytes of a number. -/
lemma number_reverse_encode_of_le {k width : ℕ} (hwidth : width ≤ k) (n : ℕ) :
    number (BigEndian.encode k n).reverse width = n % 256 ^ width := by
  have htake : ((BigEndian.encode k n).reverse.take width).reverse = BigEndian.encode width n := by
    rw [List.take_reverse, List.reverse_reverse, BigEndian.length_encode,
      BigEndian.drop_encode hwidth]
  rw [number, htake, BigEndian.decode_encode]

end CborValue

/-! ## The values of the items -/

section Values

variable {n : ℕ} (rest : List UInt8)

/-- The type of an integer is told by its initial byte. -/
lemma major_of_head {major : ℕ} (hmajor : major < 8) (hn : n < 2 ^ 64) :
    ((encodeCore major [] n ++ rest).headD 0).toNat / 32 = major :=
  (initial_eq hmajor hn).1

lemma cborDecode_unsigned (hn : n < 2 ^ 64) :
    cborDecode ⟨.integer, getFollowingBytes (getAdditionalInfo n), encodeCore 0 [] n ++ rest⟩
      = (BigEndian.encode (max 1 (getFollowingBytes (getAdditionalInfo n))) n).reverse := by
  have hle : ¬ sizeofVal < getFollowingBytes (getAdditionalInfo n) := by
    have := following_le hn
    rw [sizeofVal]
    omega
  rw [cborDecode, if_neg (by simp), if_neg hle]
  simp only [major_of_head rest (show 0 < 8 by omega) hn]
  exact decodeUnsignedInteger_encodeCore (by omega) hn [] rest

/-- A negative integer fills the eight bytes of the number. -/
lemma number_cborDecode_negative (hn : n < 2 ^ 64) :
    CborValue.number (cborDecode
        ⟨.integer, getFollowingBytes (getAdditionalInfo n), encodeCore 1 [] n ++ rest⟩) 8
      = 2 ^ 64 - 1 - n := by
  have hle := following_le hn
  have hfits : ¬ sizeofVal < getFollowingBytes (getAdditionalInfo n) := by
    rw [sizeofVal]
    omega
  -- the number of bytes of the argument
  obtain ⟨w, hw⟩ : ∃ w, w = max 1 (getFollowingBytes (getAdditionalInfo n)) := ⟨_, rfl⟩
  have hlen : (if getFollowingBytes (getAdditionalInfo n) ≠ 0 then
      getFollowingBytes (getAdditionalInfo n) else 1) = w := by
    split_ifs with h <;> omega
  have hval : cborDecode
      ⟨.integer, getFollowingBytes (getAdditionalInfo n), encodeCore 1 [] n ++ rest⟩
      = ((BigEndian.encode w n).reverse).map (~~~ ·) ++ List.replicate (8 - w) 0xFF := by
    rw [cborDecode, if_neg (by simp), if_neg hfits]
    simp only [major_of_head rest (show 1 < 8 by omega) hn]
    rw [decodeNegativeInteger]
    simp only [hlen]
    rw [decodeUnsignedInteger_encodeCore (by omega) hn, ← hw,
      List.take_of_length_le (by simp)]
  -- the bytes in order are the complement of the argument in eight bytes
  have hbytes : ((cborDecode ⟨.integer, getFollowingBytes (getAdditionalInfo n),
      encodeCore 1 [] n ++ rest⟩).take 8).reverse
      = (List.replicate (8 - w) 0 ++ BigEndian.encode w n).map (~~~ ·) := by
    rw [hval, List.take_of_length_le (by simp; omega), List.reverse_append,
      List.reverse_replicate, ← List.map_reverse, List.reverse_reverse, List.map_append,
      List.map_replicate]
    rfl
  have hzero : BigEndian.decode (List.replicate (8 - w) 0 ++ BigEndian.encode w n) = n := by
    rw [BigEndian.decode_append, BigEndian.decode_replicate_zero, Nat.zero_mul, Nat.zero_add, hw,
      BigEndian.decode_encode_of_lt (lt_width hn)]
  have hcomplement := BigEndian.decode_map_complement
    (List.replicate (8 - w) 0 ++ BigEndian.encode w n)
  rw [hzero, List.length_append, List.length_replicate, BigEndian.length_encode,
    show 8 - w + w = 8 by omega] at hcomplement
  rw [CborValue.number, hbytes]
  omega

lemma cborDecode_float {info width : ℕ}
    (hinfo : (info = 25 ∧ width = 2) ∨ (info = 26 ∧ width = 4)) :
    cborDecode ⟨.float, width, Cbor.wideHead 7 info width n ++ rest⟩
      = (BigEndian.encode width n).reverse := by
  have hinitial : (UInt8.ofNat (7 * 32 + info)).toNat % 32 = info ∧
      getFollowingBytes info = width := by
    rcases hinfo with ⟨rfl, rfl⟩ | ⟨rfl, rfl⟩ <;> decide
  have hwidth : width ≠ indefiniteValue ∧ ¬ sizeofVal < width := by
    rw [indefiniteValue, sizeofVal]
    omega
  rw [cborDecode, if_neg (fun h => hwidth.1 h.2), if_neg hwidth.2]
  show decodeUnsignedInteger (UInt8.ofNat (7 * 32 + info) :: (BigEndian.encode width n ++ rest)) = _
  rw [decodeUnsignedInteger, hinitial.1, hinitial.2, if_neg (by omega),
    List.take_left' (BigEndian.length_encode _ _)]

/-- A boolean is a simple value. -/
lemma cborDecode_bool (b : Bool) :
    cborDecode ⟨.simpleValue, 0, encodeCore 7 [] (if b then 21 else 20) ++ rest⟩
      = [if b then 1 else 0] := by
  cases b <;> rfl

lemma cborDecode_string {s : List UInt8} (hs : s.length ≤ sizeofVal) :
    cborDecode ⟨.string, s.length, s ++ rest⟩ = s := by
  rw [cborDecode, if_neg (by simp), if_neg (by simpa using hs)]
  exact List.take_left

end Values

end LibMcu
end RmwDesert
