/-
The value buffer of the libmcu build.

`interpret_field` writes a terminator into the 128 bytes of `val.str_copy`, at the index that
the parser has noted as the size of a string, and reads the buffer up to the first zero.  The
decoder refuses to copy a longer string, but nobody asks for its result.

The parser may stop anywhere in a malformed packet, and arrays, maps and strings of indefinite
length make it call itself.  It goes through the packet from one head to the next all the same,
so the `i`-th item that it notes is told by the `i`-th head (`cborParse_describes`), and with it
the size at which the terminator is stored.
-/
import RmwDesert.LibMcu.RxStream

namespace RmwDesert
namespace LibMcu

/-! ## The accesses to the buffer -/

/-- `val.str_copy` as the decoder leaves it. -/
def strCopy (val : CborValue) : List UInt8 :=
  val.take sizeofStrCopy ++ List.replicate (sizeofStrCopy - val.length) 0

/-- The indices of `val.str_copy` that `interpret_field` writes and reads: the place of the
terminator, and the C string up to its first zero. -/
def strCopyAccesses (item : CborItem) (val : CborValue) : List ℕ :=
  match item.type with
  | .string =>
    item.size :: List.range (((strCopy val).set item.size 0).findIdx (· = 0) + 1)
  | .unknown | .integer | .array | .map | .float | .simpleValue => []

lemma length_strCopy (val : CborValue) : (strCopy val).length = sizeofStrCopy := by
  simp only [strCopy, List.length_append, List.length_take, List.length_replicate]
  omega

/-- The terminator ends the string, if it is in the buffer. -/
lemma findIdx_set_zero_le {buffer : List UInt8} {i : ℕ} (hi : i < buffer.length) :
    (buffer.set i 0).findIdx (· = 0) ≤ i := by
  have hlen : i < (buffer.set i 0).length := by rwa [List.length_set]
  by_contra hlt
  have hzero := List.not_of_lt_findIdx (not_le.mp hlt)
  simp [List.getElem_set_self hlen] at hzero

/-- The accesses are in bounds if the terminator is. -/
lemma accesses_in_bounds_iff (item : CborItem) (val : CborValue) :
    (∀ j ∈ strCopyAccesses item val, j < sizeofStrCopy) ↔
      ¬ (item.type = .string ∧ sizeofStrCopy ≤ item.size) := by
  unfold strCopyAccesses
  cases htype : item.type with
  | unknown | integer | array | map | float | simpleValue => simp
  | string =>
    simp only [List.mem_cons, List.mem_range, true_and, not_le]
    constructor
    · intro h
      exact h item.size (Or.inl rfl)
    · rintro hsize j (rfl | hj)
      · exact hsize
      · have hend := findIdx_set_zero_le (hsize.trans_eq (length_strCopy val).symm)
        omega

/-- The failure of the model is an access out of bounds. -/
lemma interpretField_outOfBounds_iff (item : CborItem) (val : CborValue) :
    interpretField item val = .error .outOfBounds ↔
      ∃ j ∈ strCopyAccesses item val, sizeofStrCopy ≤ j := by
  have hbounds := (accesses_in_bounds_iff item val).not
  push Not at hbounds
  rw [hbounds]
  unfold interpretField
  cases item.type with
  | unknown | integer | array | map | simpleValue => simp
  | float =>
    simp only [reduceCtorEq, false_and, iff_false]
    split_ifs <;> simp
  | string =>
    simp only [true_and]
    split_ifs with h <;> simp [h]

/-! ## The heads of a packet -/

/-- The number of bytes that a head takes behind its initial byte. -/
def argumentWidth (initial : UInt8) : ℕ :=
  if initial.toNat % 32 < 24 ∨ initial.toNat % 32 = 31 then 0 else 2 ^ (initial.toNat % 32 - 24)

/-- The argument of the head at the start of the bytes. -/
def announced : List UInt8 → ℕ
  | [] => 0
  | initial :: rest =>
    if initial.toNat % 32 < 24 then initial.toNat % 32
    else if initial.toNat % 32 = 31 then indefiniteLength
    else BigEndian.decode (rest.take (argumentWidth initial))

/-- The bytes start with the head of a byte string or a text string. -/
def StartsString : List UInt8 → Prop
  | [] => False
  | initial :: _ => initial.toNat / 32 = 2 ∨ initial.toNat / 32 = 3

instance : (msg : List UInt8) → Decidable (StartsString msg)
  | [] => inferInstanceAs (Decidable False)
  | _ :: _ => inferInstanceAs (Decidable (_ ∨ _))

/-- The bytes behind the head, and behind the contents of a string of definite length. -/
def behind : List UInt8 → List UInt8
  | [] => []
  | initial :: rest =>
    if StartsString (initial :: rest) ∧ announced (initial :: rest) ≠ indefiniteLength then
      (rest.drop (argumentWidth initial)).drop (announced (initial :: rest))
    else rest.drop (argumentWidth initial)

/-- A packet from its `i`-th head on. -/
def fromHead (packet : List UInt8) (i : ℕ) : List UInt8 := behind^[i] packet

/-- The bytes start with a string that is announced to fill the buffer, or to be of indefinite
length. -/
def Overlong (msg : List UInt8) : Prop := StartsString msg ∧ sizeofStrCopy ≤ announced msg

instance (msg : List UInt8) : Decidable (Overlong msg) := inferInstanceAs (Decidable (_ ∧ _))

/-- An item that is noted for the head at the start of the bytes. -/
structure Describes (msg : List UInt8) (item : CborItem) : Prop where
  type : item.type = .string ↔ StartsString msg
  size : StartsString msg → item.size = announced msg

/-- Items that are noted for one head after the other. -/
def Walk : List UInt8 → List CborItem → Prop
  | _, [] => True
  | msg, item :: items => Describes msg item ∧ Walk (behind msg) items

lemma walk_append {msg : List UInt8} {items items' : List CborItem} (h : Walk msg items)
    (h' : Walk (behind^[items.length] msg) items') : Walk msg (items ++ items') := by
  induction items generalizing msg with
  | nil => exact h'
  | cons item items ih => exact ⟨h.1, ih h.2 h'⟩

/-- The item of a head. -/
lemma Walk.describes {msg : List UInt8} {items : List CborItem} (h : Walk msg items) {i : ℕ}
    {item : CborItem} (hitem : items[i]? = some item) : Describes (fromHead msg i) item := by
  induction items generalizing msg i with
  | nil => cases hitem
  | cons first items ih =>
    cases i with
    | zero =>
      obtain rfl : first = item := Option.some.inj hitem
      exact h.1
    | succ i => exact ih h.2 hitem

/-! ## The walk of the parser -/

/-- The parser has noted the items of some heads.  It stands behind them, unless it has met an
error. -/
def Walks (r : CborReader) (result : ParserResult × CborReader) : Prop :=
  ∃ items, result.2.items = r.items ++ items ∧ Walk r.msg items ∧
    (result.1 = .success ∨ result.1 = .brk → result.2.msg = behind^[items.length] r.msg)

namespace Walks

variable {r : CborReader}

/-- Nothing is noted. -/
lemma stay (result : ParserResult) : Walks r (result, r) :=
  ⟨[], (List.append_nil _).symm, trivial, fun _ => rfl⟩

/-- Nothing is noted, and the walk is over. -/
lemma fail {result : ParserResult} (hsuccess : result ≠ .success) (hbrk : result ≠ .brk)
    (msg : List UInt8) : Walks r (result, { r with msg := msg }) :=
  ⟨[], (List.append_nil _).symm, trivial, fun h => absurd h (by tauto)⟩

/-- One walk after another. -/
lemma trans {mid : ParserResult × CborReader} (h : Walks r mid)
    (hmid : mid.1 = .success ∨ mid.1 = .brk) {result : ParserResult × CborReader}
    (h' : Walks mid.2 result) : Walks r result := by
  obtain ⟨items, hitems, hwalk, hmsg⟩ := h
  obtain ⟨items', hitems', hwalk', hmsg'⟩ := h'
  rw [hmsg hmid] at hwalk' hmsg'
  refine ⟨items ++ items', ?_, walk_append hwalk hwalk', fun hresult => ?_⟩
  · rw [hitems', hitems, List.append_assoc]
  · rw [hmsg' hresult, List.length_append, Nat.add_comm, Function.iterate_add_apply]

/-- An item is noted. -/
lemma note {item : CborItem} (h : Describes r.msg item) {msg : List UInt8}
    (hmsg : msg = behind r.msg) {result : ParserResult} : Walks r (result, r.note item msg) :=
  ⟨[item], rfl, ⟨h, trivial⟩, fun _ => hmsg⟩

end Walks

namespace CborReader

variable {r : CborReader} {initial : UInt8} {rest : List UInt8}

/-- The bytes that follow an initial byte, as the parser counts them. -/
lemma following_of_initial (h : getFollowingBytes (initial.toNat % 32) ≠ reservedValue) :
    initial.toNat % 32 < 24 ∧ getFollowingBytes (initial.toNat % 32) = 0 ∧
        argumentWidth initial = 0 ∨
      initial.toNat % 32 = 31 ∧ getFollowingBytes (initial.toNat % 32) = indefiniteValue ∧
        argumentWidth initial = 0 ∨
      24 ≤ initial.toNat % 32 ∧ initial.toNat % 32 < 28 ∧ 0 < argumentWidth initial ∧
        argumentWidth initial ≤ 8 ∧
        getFollowingBytes (initial.toNat % 32) = argumentWidth initial := by
  -- `info` takes 32 values
  generalize hinfo : initial.toNat % 32 = info at h
  have hwidth : argumentWidth initial = if info < 24 ∨ info = 31 then 0 else 2 ^ (info - 24) := by
    rw [argumentWidth, hinfo]
  have hlt : info < 32 := by omega
  rw [hwidth]
  unfold getFollowingBytes at h ⊢
  interval_cases info <;> simp_all [indefiniteValue, reservedValue]

/-- The length of a head, and the bytes behind it. -/
lemma goGetItemLength_eq (hr : r.msg = initial :: rest)
    (h : getFollowingBytes (initial.toNat % 32) ≠ reservedValue) :
    r.goGetItemLength (initial.toNat % 32) (getFollowingBytes (initial.toNat % 32))
      = (announced r.msg, rest.drop (argumentWidth initial)) := by
  rw [goGetItemLength, hr, announced]
  rcases following_of_initial h with
    ⟨hinfo, hf, hw⟩ | ⟨hinfo, hf, hw⟩ | ⟨hlow, hhigh, hpos, hle, hf⟩
  · rw [hf, hw, if_neg (by decide), if_pos rfl, if_pos hinfo]
    rfl
  · rw [hf, hw, if_pos rfl, if_neg (by omega), if_pos hinfo]
    rfl
  · rw [hf, if_neg (by rw [indefiniteValue]; omega), if_neg (by omega), if_neg (by omega),
      if_neg (by omega)]
    rfl

lemma describes_of_not_string (hr : r.msg = initial :: rest)
    (hmajor : ¬ (initial.toNat / 32 = 2 ∨ initial.toNat / 32 = 3)) {item : CborItem}
    (htype : item.type ≠ .string) : Describes r.msg item := by
  rw [hr]
  exact ⟨iff_of_false htype hmajor, fun h => absurd h hmajor⟩

lemma behind_of_not_string (hr : r.msg = initial :: rest)
    (hmajor : ¬ (initial.toNat / 32 = 2 ∨ initial.toNat / 32 = 3)) :
    behind r.msg = rest.drop (argumentWidth initial) := by
  rw [hr, behind, if_neg fun h => hmajor h.1]

/-- The bytes behind the head, as the parser skips them. -/
lemma drop_following (hr : r.msg = initial :: rest)
    (hwidth : getFollowingBytes (initial.toNat % 32) = argumentWidth initial) :
    r.msg.drop (getFollowingBytes (initial.toNat % 32) + 1)
      = rest.drop (argumentWidth initial) := by
  rw [hr, hwidth, List.drop_succ_cons]

/-- An integer. -/
lemma walks_doInteger (hr : r.msg = initial :: rest)
    (hmajor : ¬ (initial.toNat / 32 = 2 ∨ initial.toNat / 32 = 3))
    (h : getFollowingBytes (initial.toNat % 32) ≠ reservedValue) :
    Walks r (r.doInteger (getFollowingBytes (initial.toNat % 32))) := by
  unfold doInteger
  split_ifs with hindefinite
  · exact .stay _
  · have hwidth : getFollowingBytes (initial.toNat % 32) = argumentWidth initial := by
      rcases following_of_initial h with ⟨-, hf, hw⟩ | ⟨-, hf, -⟩ | ⟨-, -, -, -, hf⟩
      · rw [hf, hw]
      · exact absurd hf hindefinite
      · exact hf
    refine .note (describes_of_not_string hr hmajor (by simp)) ?_
    rw [drop_following hr hwidth, behind_of_not_string hr hmajor]

/-- A float, a simple value or a break. -/
lemma walks_doFloatAndOther (hr : r.msg = initial :: rest)
    (hmajor : ¬ (initial.toNat / 32 = 2 ∨ initial.toNat / 32 = 3))
    (h : getFollowingBytes (initial.toNat % 32) ≠ reservedValue) :
    Walks r (r.doFloatAndOther (getFollowingBytes (initial.toNat % 32))) := by
  have hbehind := behind_of_not_string hr hmajor
  unfold doFloatAndOther
  rcases following_of_initial h with
    ⟨hinfo, hf, hw⟩ | ⟨hinfo, hf, hw⟩ | ⟨hlow, hhigh, hpos, hle, hf⟩
  · rw [if_neg (by rw [hf]; decide)]
    refine .note (describes_of_not_string hr hmajor (by split_ifs <;> simp)) ?_
    rw [drop_following hr (hf.trans hw.symm), hbehind]
  · rw [if_pos hf]
    refine .note (describes_of_not_string hr hmajor (by simp)) ?_
    rw [hbehind, hw, hr]
    rfl
  · rw [if_neg (by rw [hf, indefiniteValue]; omega)]
    refine .note (describes_of_not_string hr hmajor (by split_ifs <;> simp)) ?_
    rw [drop_following hr hf, hbehind]

variable {parse : ℕ → CborReader → ParserResult × CborReader}
  (hparse : ∀ n r, Walks r (parse n r))

include hparse

/-- A string, with its chunks if its length is indefinite. -/
lemma walks_doString (hr : r.msg = initial :: rest)
    (hmajor : initial.toNat / 32 = 2 ∨ initial.toNat / 32 = 3)
    (h : getFollowingBytes (initial.toNat % 32) ≠ reservedValue) :
    Walks r (r.doString parse (initial.toNat % 32)
      (getFollowingBytes (initial.toNat % 32))) := by
  have hstarts : StartsString r.msg := by rwa [hr]
  have hdescribes : ∀ offset, Describes r.msg ⟨.string, announced r.msg, offset⟩ :=
    fun _ => ⟨iff_of_true rfl hstarts, fun _ => rfl⟩
  simp only [doString, goGetItemLength_eq hr h]
  split_ifs with hindefinite hlong
  · -- the chunks are heads of their own
    have hbehind : rest.drop (argumentWidth initial) = behind r.msg := by
      rw [hr, behind, ← hr, if_neg fun h => h.2 hindefinite]
    have hnote : Walks r (.success, r.note ⟨.string, announced r.msg,
        rest.drop (argumentWidth initial)⟩ (rest.drop (argumentWidth initial))) :=
      .note (hdescribes _) hbehind
    exact hnote.trans (Or.inl rfl) (hparse _ _)
  · exact .fail (by simp) (by simp) _
  · refine .note (hdescribes _) ?_
    rw [hr, behind, ← hr, if_pos ⟨hstarts, hindefinite⟩]

/-- An array or a map, with its elements. -/
lemma walks_doRecursive (hr : r.msg = initial :: rest)
    (hmajor : ¬ (initial.toNat / 32 = 2 ∨ initial.toNat / 32 = 3))
    (h : getFollowingBytes (initial.toNat % 32) ≠ reservedValue) {type : ItemData}
    (htype : type ≠ .string) :
    Walks r (r.doRecursive parse type (initial.toNat % 32)
      (getFollowingBytes (initial.toNat % 32))) := by
  simp only [doRecursive, goGetItemLength_eq hr h]
  split_ifs with hlong
  · exact .fail (by simp) (by simp) _
  · have hnote : Walks r (.success, r.note ⟨type, announced r.msg,
        rest.drop (argumentWidth initial)⟩ (rest.drop (argumentWidth initial))) :=
      .note (describes_of_not_string hr hmajor htype) (behind_of_not_string hr hmajor).symm
    exact hnote.trans (Or.inl rfl) (hparse _ _)

/-- One call of a parser, whatever the initial byte is. -/
lemma walks_parseItem (hr : r.msg = initial :: rest) :
    Walks r (r.parseItem parse initial) := by
  unfold parseItem
  by_cases hvalid : r.hasValidFollowingBytes (getFollowingBytes (initial.toNat % 32)) = true
  · have h : getFollowingBytes (initial.toNat % 32) ≠ reservedValue := by
      intro hreserved
      simp [hasValidFollowingBytes, hreserved] at hvalid
    have hlt : initial.toNat / 32 < 8 := by
      have := initial.toNat_lt
      omega
    rw [if_pos hvalid]
    interval_cases hmajor : initial.toNat / 32
    · exact walks_doInteger hr (by omega) h
    · exact walks_doInteger hr (by omega) h
    · exact walks_doString hparse hr (by omega) h
    · exact walks_doString hparse hr (by omega) h
    · exact walks_doRecursive hparse hr (by omega) h (by simp)
    · exact walks_doRecursive hparse hr (by omega) h (by simp)
    · -- tags are not implemented
      exact .stay _
    · exact walks_doFloatAndOther hr (by omega) h
  · rw [if_neg hvalid]
    exact .stay _

end CborReader

/-- The loop goes from head to head at every depth. -/
lemma walks_parseLoop (fuel depth maxitems turns : ℕ) (r : CborReader) :
    Walks r (parseLoop fuel depth maxitems turns r) := by
  induction fuel generalizing depth maxitems turns r with
  | zero => exact .stay _
  | succ fuel ih =>
    cases turns with
    | zero => exact .stay _
    | succ turns =>
      rw [parseLoop]
      split
      · exact .stay _
      · rename_i initial rest hr
        by_cases hfull : maxItems ≤ r.items.length
        · rw [if_pos hfull]
          exact .stay _
        · rw [if_neg hfull]
          have hparse : ∀ n r, Walks r (if recursionMaxLevel ≤ depth then (.excessive, r)
              else parseLoop fuel (depth + 1) n n r) := by
            intro n r
            split_ifs
            · exact .stay _
            · exact ih _ _ _ _
          -- after a success and after a break inside the packet, the loop goes on
          have hitem := CborReader.walks_parseItem hparse hr
          dsimp only
          generalize r.parseItem _ initial = result at hitem ⊢
          obtain ⟨outcome, r'⟩ := result
          cases outcome with
          | success => exact hitem.trans (Or.inl rfl) (ih _ _ _ _)
          | brk =>
            dsimp only
            split_ifs
            · exact hitem
            · exact hitem.trans (Or.inr rfl) (ih _ _ _ _)
          | illegal | invalid | excessive => exact hitem

/-- **The sizes that the parser can report.**  The items of any packet are told by its heads. -/
lemma cborParse_describes {packet : Packet} {i : ℕ} {item : CborItem}
    (hitem : (cborParse packet)[i]? = some item) : Describes (fromHead packet i) item := by
  obtain ⟨items, hitems, hwalk, -⟩ :=
    walks_parseLoop packet.length 1 maxItems maxItems ⟨packet, []⟩
  have heq : cborParse packet = items := by
    rw [cborParse, hitems]
    rfl
  rw [heq] at hitem
  exact hwalk.describes hitem

/-! ## The buffer -/

/-- **The bounds of the value buffer.**  The accesses to `val.str_copy` for an item of a packet
are in bounds if and only if the head of the item does not announce an overlong string. -/
theorem str_copy_in_bounds_iff {packet : Packet} {i : ℕ} {item : CborItem}
    (hitem : (cborParse packet)[i]? = some item) :
    (∀ j ∈ strCopyAccesses item (cborDecode item), j < sizeofStrCopy) ↔
      ¬ Overlong (fromHead packet i) := by
  obtain ⟨htype, hsize⟩ := cborParse_describes hitem
  rw [accesses_in_bounds_iff, Overlong, htype]
  refine not_congr (and_congr_right fun hstarts => ?_)
  rw [hsize hstarts]

/-- A text behind the two numbers of a header. -/
theorem str_copy_in_bounds_text :
    (cborParse [1, 5, 0x62, 104, 105])[2]? = some ⟨.string, 2, [104, 105]⟩ ∧
      ∀ j ∈ strCopyAccesses ⟨.string, 2, [104, 105]⟩ (cborDecode ⟨.string, 2, [104, 105]⟩),
        j < sizeofStrCopy := by
  have hitem : (cborParse [1, 5, 0x62, 104, 105])[2]? = some ⟨.string, 2, [104, 105]⟩ := by
    decide
  exact ⟨hitem, (str_copy_in_bounds_iff hitem).mpr (by decide)⟩

/-- The terminator of a string of indefinite length is stored in front of the buffer. -/
theorem indefinite_string_out_of_bounds :
    ¬ ∀ (packet : Packet) (i : ℕ) (item : CborItem), (cborParse packet)[i]? = some item →
      ∀ j ∈ strCopyAccesses item (cborDecode item), j < sizeofStrCopy := by
  intro h
  have hitem : (cborParse [1, 5, 0x7F])[2]? = some ⟨.string, indefiniteLength, []⟩ := by decide
  have hlt := h _ _ _ hitem indefiniteLength (by simp [strCopyAccesses])
  exact absurd hlt (by decide)

/-- The loop over the fields stays in bounds if every access does. -/
lemma interpretItems_in_bounds (config : TopicsConfig) {items : List CborItem}
    (h : ∀ item ∈ items, ∀ j ∈ strCopyAccesses item (cborDecode item), j < sizeofStrCopy)
    (i : ℕ) (d : Interpreted) :
    interpretItems config (i + 2) items d ≠ .error .outOfBounds := by
  induction items generalizing i d with
  | nil => simp [interpretItems]
  | cons item items ih =>
    have hfield := (interpretField_outOfBounds_iff item (cborDecode item)).not.mpr (by
      rintro ⟨j, hj, hle⟩
      exact absurd (h item (by simp) j hj) (not_lt.mpr hle))
    rw [interpretItems]
    cases hresult : interpretField item (cborDecode item) with
    | error e =>
      rw [hresult] at hfield
      exact fun heq => hfield (congrArg Except.error (Except.error.inj heq))
    | ok field => exact ih (fun item' hmem => h item' (by simp [hmem])) (i + 1) _

/-- **The interpretation of a packet stays in bounds** if no head behind the header announces an
overlong string, whatever else is wrong with the packet. -/
theorem interpretation_in_bounds (config : TopicsConfig) {packet : Packet}
    (h : ∀ i, 2 ≤ i → i < (cborParse packet).length → ¬ Overlong (fromHead packet i)) :
    interpretItems config 0 (cborParse packet) .initial ≠ .error .outOfBounds := by
  have hitems : ∀ i item, (cborParse packet)[i + 2]? = some item →
      ∀ j ∈ strCopyAccesses item (cborDecode item), j < sizeofStrCopy := by
    intro i item hitem
    have hlt : i + 2 < (cborParse packet).length := (List.getElem?_eq_some_iff.mp hitem).1
    rw [accesses_in_bounds_iff]
    obtain ⟨htype, hsize⟩ := cborParse_describes hitem
    rintro ⟨hstring, hle⟩
    have hstarts := htype.mp hstring
    exact h (i + 2) (by omega) hlt ⟨hstarts, (hsize hstarts).symm ▸ hle⟩
  -- the first two items are the stream type and the identifier
  match hparse : cborParse packet with
  | [] => simp [interpretItems]
  | [_] => simp [interpretItems]
  | first :: second :: items =>
    rw [interpretItems, interpretItems]
    dsimp only
    split_ifs
    · simp
    · refine interpretItems_in_bounds config (fun item hmem => ?_) 0 _
      obtain ⟨i, hi⟩ := List.mem_iff_getElem?.mp hmem
      refine hitems i item ?_
      rw [hparse]
      exact hi

end LibMcu
end RmwDesert
