/-
The inputs of the key derivation (`build_kdf_info` and `derive_context`).

An info structure is an array of an identifier, an algorithm, a type and a length, each an item
of CBOR.  No item is a prefix of another one, so two structures are equal only if they agree in
all four components, whatever bytes the identifiers are made of.
-/
import RmwDesert.Security.NonceFreshness

namespace RmwDesert

/-- The formatters of an info structure, in preferred serialization. -/
structure NanoCbor.FormatsInfo (N : NanoCbor) : Prop where
  fmtArray : ∀ {n : ℕ}, n < 2 ^ 64 → N.fmtArray n = Cbor.head 4 n
  putBstr : ∀ {s : List UInt8}, s.length < 2 ^ 64 → N.putBstr s = Cbor.head 2 s.length ++ s
  length_le_putBstr : ∀ s : List UInt8, s.length ≤ (N.putBstr s).length
  fmtInt : ∀ n : Int64, N.fmtInt n = Cbor.integer n.toInt
  putTstrn : ∀ {s : List UInt8}, s.length < 2 ^ 64 → N.putTstrn s = Cbor.head 3 s.length ++ s
  fmtUint : ∀ n : UInt64, N.fmtUint n = Cbor.head 0 n.toNat

lemma NanoCbor.preferred_formatsInfo : NanoCbor.preferred.FormatsInfo where
  fmtArray _ := rfl
  putBstr _ := rfl
  length_le_putBstr s := by
    show s.length ≤ (Cbor.head 2 s.length ++ s).length
    rw [List.length_append]
    omega
  fmtInt n := by
    have hneg : n < 0 ↔ n.toInt < 0 := by
      simpa using @Int64.lt_iff_toInt_lt n 0
    have hbits : n.toInt = if 2 * n.toUInt64.toNat < 2 ^ 64 then (n.toUInt64.toNat : ℤ)
        else (n.toUInt64.toNat : ℤ) - (2 ^ 64 : ℕ) := BitVec.toInt_eq_toNat_cond n.toBitVec
    show (if n < 0 then Cbor.head 1 (-1 - n.toInt).toNat else Cbor.head 0 n.toUInt64.toNat) = _
    rw [Cbor.integer]
    by_cases h : n < 0
    · rw [if_pos h, if_pos (hneg.mp h)]
    · have hlt := n.toUInt64.toNat_lt
      have hsame : n.toUInt64.toNat = n.toInt.toNat := by
        rw [hneg] at h
        split_ifs at hbits <;> omega
      rw [if_neg h, if_neg fun h' => h (hneg.mpr h'), hsame]
  putTstrn _ := rfl
  fmtUint _ := rfl

namespace Security

/-- `KDF_INFO_TYPE_KEY` and `KDF_INFO_TYPE_IV`. -/
def kdfInfoTypes : List String := ["Key", "IV"]

/-- The info structure with the given components. -/
def kdfInfo (id : List UInt8) (alg : Int64) (type : List UInt8) (len : UInt64) : List UInt8 :=
  Cbor.head 4 4 ++ (Cbor.head 2 id.length ++ id) ++ Cbor.integer alg.toInt
    ++ (Cbor.head 3 type.length ++ type) ++ Cbor.head 0 len.toNat

/-- **The components of an info structure.** -/
lemma kdfInfo_inj {id id' type type' : List UInt8} {alg alg' : Int64} {len len' : UInt64}
    (hid : id.length < 2 ^ 64) (hid' : id'.length < 2 ^ 64) (htype : type.length < 2 ^ 64)
    (htype' : type'.length < 2 ^ 64) (h : kdfInfo id alg type len = kdfInfo id' alg' type' len') :
    id = id' ∧ alg = alg' ∧ type = type' ∧ len = len' := by
  have hbounds : ∀ n : Int64, -2 ^ 64 ≤ n.toInt ∧ n.toInt < 2 ^ 64 := by
    intro n
    have hle := Int64.le_toInt n
    have hlt := Int64.toInt_lt n
    omega
  simp only [kdfInfo, List.append_assoc] at h
  -- one item after the other, each ends where its head says
  have hitems := List.append_cancel_left h
  rw [← List.append_assoc, ← List.append_assoc (Cbor.head 2 id'.length)] at hitems
  obtain ⟨hsame, hnumber⟩ := Cbor.string_append_inj (by omega) hid hid' hitems
  obtain ⟨halg, hstring⟩ := Cbor.integer_append_inj (hbounds alg) (hbounds alg') hnumber
  rw [← List.append_assoc, ← List.append_assoc (Cbor.head 3 type'.length)] at hstring
  obtain ⟨htext, hlast⟩ := Cbor.string_append_inj (by omega) htype htype' hstring
  rw [← List.append_nil (Cbor.head 0 len.toNat), ← List.append_nil (Cbor.head 0 len'.toNat)]
    at hlast
  obtain ⟨-, hlen, -⟩ :=
    Cbor.head_append_inj (by omega) (by omega) len.toNat_lt len'.toNat_lt hlast
  exact ⟨hsame, Int64.toInt_inj.mp halg, htext, UInt64.toNat_inj.mp hlen⟩

/-! ## The internal buffer -/

/-- A formatter behind the bytes of `info`: what does not fit in the internal buffer is
`NANOCBOR_ERR_END`, of which `cbor_err_to_sec_err` makes `BUFFER_ERROR`. -/
def format (bytes info : List UInt8) : Except SecurityResult (List UInt8) :=
  if info.length + bytes.length ≤ coseInternalBufSize then .ok (info ++ bytes)
  else .error .bufferError

lemma format_append (first second info : List UInt8) :
    format (first ++ second) info = format first info >>= format second := by
  unfold format
  by_cases hfirst : info.length + first.length ≤ coseInternalBufSize
  · rw [if_pos hfirst]
    show _ = if (info ++ first).length + second.length ≤ coseInternalBufSize then _ else _
    simp only [List.length_append, Nat.add_assoc, List.append_assoc]
  · rw [if_neg hfirst, if_neg (by rw [List.length_append]; omega)]
    rfl

section

variable {N : NanoCbor} {C : LibCose} {id id' : List UInt8} {alg alg' : CoseAlgo}
  {type type' : String}

/-- The formatters of `build_kdf_info`, one after the other. -/
lemma buildKdfInfo_eq_format (len : ℕ) :
    buildKdfInfo N C id alg type len = format (N.fmtArray 4) [] >>= format (N.putBstr id)
      >>= format (N.fmtInt (C.algoValue alg)) >>= format (N.putTstrn (ascii type))
      >>= format (N.fmtUint (UInt64.ofNat len)) := by
  rw [← format_append, ← format_append, ← format_append, ← format_append, format, List.length_nil,
    Nat.zero_add, List.nil_append]
  rfl

lemma length_ascii_of_mem (h : type ∈ kdfInfoTypes) : (ascii type).length < 2 ^ 64 := by
  simp only [kdfInfoTypes, List.mem_cons, List.not_mem_nil, or_false] at h
  rcases h with rfl | rfl <;> decide

lemma ascii_inj_of_mem (h : type ∈ kdfInfoTypes) (h' : type' ∈ kdfInfoTypes)
    (heq : ascii type = ascii type') : type = type' := by
  simp only [kdfInfoTypes, List.mem_cons, List.not_mem_nil, or_false] at h h'
  rcases h with rfl | rfl <;> rcases h' with rfl | rfl
  · rfl
  · exact absurd heq (by decide)
  · exact absurd heq (by decide)
  · rfl

/-- **What `build_kdf_info` returns**: the structure with the whole identifier, or an error. -/
lemma buildKdfInfo_eq (hN : N.FormatsInfo) (htype : type ∈ kdfInfoTypes) (len : ℕ) :
    buildKdfInfo N C id alg type len
      = if (kdfInfo id (C.algoValue alg) (ascii type) (UInt64.ofNat len)).length
          ≤ coseInternalBufSize then
          .ok (kdfInfo id (C.algoValue alg) (ascii type) (UInt64.ofNat len))
        else .error .bufferError := by
  by_cases hid : id.length < 2 ^ 64
  · rw [buildKdfInfo, hN.fmtArray (by omega), hN.putBstr hid, hN.fmtInt,
      hN.putTstrn (length_ascii_of_mem htype), hN.fmtUint]
    rfl
  · -- neither encoding of such an identifier fits
    have hbstr := hN.length_le_putBstr id
    have hsize : coseInternalBufSize < 2 ^ 64 := by decide
    rw [buildKdfInfo, if_neg, if_neg]
    · simp only [kdfInfo, List.length_append]
      omega
    · simp only [List.length_append]
      omega

lemma length_le_of_buildKdfInfo (hN : N.FormatsInfo) (htype : type ∈ kdfInfoTypes) {len : ℕ}
    {info : List UInt8} (h : buildKdfInfo N C id alg type len = .ok info) :
    info = kdfInfo id (C.algoValue alg) (ascii type) (UInt64.ofNat len) ∧ id.length < 2 ^ 64 := by
  rw [buildKdfInfo_eq hN htype] at h
  split_ifs at h with hfits
  have hsize : coseInternalBufSize < 2 ^ 64 := by decide
  refine ⟨(Except.ok.inj h).symm, ?_⟩
  simp only [kdfInfo, List.length_append] at hfits
  omega

/-- **Different components, different structures.** -/
lemma buildKdfInfo_inj (hN : N.FormatsInfo) (htype : type ∈ kdfInfoTypes)
    (htype' : type' ∈ kdfInfoTypes) {len len' : ℕ} {info : List UInt8}
    (h : buildKdfInfo N C id alg type len = .ok info)
    (h' : buildKdfInfo N C id' alg' type' len' = .ok info) :
    id = id' ∧ C.algoValue alg = C.algoValue alg' ∧ type = type' ∧
      UInt64.ofNat len = UInt64.ofNat len' := by
  obtain ⟨hinfo, hid⟩ := length_le_of_buildKdfInfo hN htype h
  obtain ⟨hinfo', hid'⟩ := length_le_of_buildKdfInfo hN htype' h'
  obtain ⟨rfl, halg, hascii, hlen⟩ := kdfInfo_inj hid hid' (length_ascii_of_mem htype)
    (length_ascii_of_mem htype') (hinfo.symm.trans hinfo')
  exact ⟨rfl, halg, ascii_inj_of_mem htype htype' hascii, hlen⟩

/-! ## The inputs of a context -/

/-- The call of the KDF in a derivation that succeeds. -/
lemma derive_ok {size : AeadParams → ℕ} {params : AeadParams} {kdf : KdfAlgorithms}
    {ikm masterSalt out : List UInt8}
    (h : derive N C type size params kdf ikm masterSalt id alg = .ok out) :
    ∃ info, buildKdfInfo N C id alg type (size params) = .ok info ∧
      C.hkdfDerive masterSalt (ikm.take params.keySize) info (size params) (kdfAlgoToCoseAlgo kdf)
        = some out := by
  obtain ⟨info, hinfo, h⟩ := Transition.bind_eq_ok.mp h
  refine ⟨info, hinfo, ?_⟩
  cases hout : C.hkdfDerive masterSalt (ikm.take params.keySize) info (size params)
      (kdfAlgoToCoseAlgo kdf) with
  | none =>
    rw [hout] at h
    cases h
  | some bytes =>
    rw [hout] at h
    exact congrArg some (Except.ok.inj h)

/-- The info structures that `derive_context` hands to the KDF, for the sender key, the receiver
key and the context IV. -/
structure Feeds (N : NanoCbor) (C : LibCose) (s : SecurityLayer) (sender receiver iv : List UInt8) :
    Prop where
  sender : buildKdfInfo N C s.senderId (aeadAlgoToCoseAlgo s.aeadParams.alg) "Key"
    s.aeadParams.keySize = .ok sender
  receiver : buildKdfInfo N C s.receiverId (aeadAlgoToCoseAlgo s.aeadParams.alg) "Key"
    s.aeadParams.keySize = .ok receiver
  iv : buildKdfInfo N C [] (aeadAlgoToCoseAlgo s.aeadParams.alg) "IV" s.aeadParams.nonceSize
    = .ok iv

/-- What a context is derived from. -/
lemma deriveContext_feeds {masterKey masterSalt : List UInt8} {s s' : SecurityLayer}
    (h : s.deriveContext N C masterKey masterSalt = .ok s') :
    ∃ sender receiver iv, Feeds N C s sender receiver iv ∧
      C.hkdfDerive masterSalt (masterKey.take s.aeadParams.keySize) sender s.aeadParams.keySize
        (kdfAlgoToCoseAlgo s.kdf) = some s'.senderKeyBytes ∧
      C.hkdfDerive masterSalt (masterKey.take s.aeadParams.keySize) receiver s.aeadParams.keySize
        (kdfAlgoToCoseAlgo s.kdf) = some s'.receiverKeyBytes ∧
      C.hkdfDerive masterSalt (masterKey.take s.aeadParams.keySize) iv s.aeadParams.nonceSize
        (kdfAlgoToCoseAlgo s.kdf) = some s'.contextIv := by
  obtain ⟨hsender, hiv, -, -, -, hreceiver, -⟩ := SecurityLayer.deriveContext_ok h
  obtain ⟨sender, hsenderInfo, hsenderKey⟩ := derive_ok hsender
  obtain ⟨receiver, hreceiverInfo, hreceiverKey⟩ := derive_ok hreceiver
  obtain ⟨iv, hivInfo, hivBytes⟩ := derive_ok hiv
  exact ⟨sender, receiver, iv, ⟨hsenderInfo, hreceiverInfo, hivInfo⟩, hsenderKey, hreceiverKey,
    hivBytes⟩

/-- The three of them are told apart by the identifiers and by the type. -/
lemma Feeds.separated (hN : N.FormatsInfo) {s : SecurityLayer} {sender receiver iv : List UInt8}
    (h : Feeds N C s sender receiver iv) :
    (s.senderId ≠ s.receiverId → sender ≠ receiver) ∧ sender ≠ iv ∧ receiver ≠ iv := by
  have hkey : "Key" ∈ kdfInfoTypes := by simp [kdfInfoTypes]
  have hiv : "IV" ∈ kdfInfoTypes := by simp [kdfInfoTypes]
  have htypes : "Key" ≠ "IV" := by decide
  refine ⟨?_, ?_, ?_⟩
  · rintro hne rfl
    exact hne (buildKdfInfo_inj hN hkey hkey h.sender h.receiver).1
  · rintro rfl
    exact htypes (buildKdfInfo_inj hN hkey hiv h.sender h.iv).2.2.1
  · rintro rfl
    exact htypes (buildKdfInfo_inj hN hkey hiv h.receiver h.iv).2.2.1

end

/-- **Domain separation.**  Info structures with different components differ, each holds the
whole of its identifier or is refused, and a context is derived from three that differ. -/
theorem kdf_inputs_separated {N : NanoCbor} (hN : N.FormatsInfo) (C : LibCose) :
    (∀ (id id' : List UInt8) (alg alg' : CoseAlgo) (type type' : String) (len len' : UInt64)
      (info info' : List UInt8), type ∈ kdfInfoTypes → type' ∈ kdfInfoTypes →
      buildKdfInfo N C id alg type len.toNat = .ok info →
      buildKdfInfo N C id' alg' type' len'.toNat = .ok info' →
      (id, C.algoValue alg, type, len) ≠ (id', C.algoValue alg', type', len') → info ≠ info') ∧
    (∀ (id : List UInt8) (alg : CoseAlgo) (type : String) (len : UInt64), type ∈ kdfInfoTypes →
      buildKdfInfo N C id alg type len.toNat
        = if (kdfInfo id (C.algoValue alg) (ascii type) len).length ≤ coseInternalBufSize then
            .ok (kdfInfo id (C.algoValue alg) (ascii type) len)
          else .error .bufferError) ∧
    ∀ (masterKey masterSalt : List UInt8) (s s' : SecurityLayer),
      s.deriveContext N C masterKey masterSalt = .ok s' →
      ∃ sender receiver iv, Feeds N C s sender receiver iv ∧
        C.hkdfDerive masterSalt (masterKey.take s.aeadParams.keySize) sender s.aeadParams.keySize
          (kdfAlgoToCoseAlgo s.kdf) = some s'.senderKeyBytes ∧
        C.hkdfDerive masterSalt (masterKey.take s.aeadParams.keySize) receiver s.aeadParams.keySize
          (kdfAlgoToCoseAlgo s.kdf) = some s'.receiverKeyBytes ∧
        C.hkdfDerive masterSalt (masterKey.take s.aeadParams.keySize) iv s.aeadParams.nonceSize
          (kdfAlgoToCoseAlgo s.kdf) = some s'.contextIv ∧
        (s.senderId ≠ s.receiverId → sender ≠ receiver) ∧ sender ≠ iv ∧ receiver ≠ iv := by
  refine ⟨?_, ?_, ?_⟩
  · rintro id id' alg alg' type type' len len' info _ htype htype' h h' hne rfl
    obtain ⟨rfl, halg, rfl, hlen⟩ := buildKdfInfo_inj hN htype htype' h h'
    rw [UInt64.ofNat_toNat, UInt64.ofNat_toNat] at hlen
    exact hne (by rw [halg, hlen])
  · intro id alg type len htype
    rw [buildKdfInfo_eq hN htype, UInt64.ofNat_toNat]
  · intro masterKey masterSalt s s' h
    obtain ⟨sender, receiver, iv, hfeeds, hsender, hreceiver, hiv⟩ := deriveContext_feeds h
    exact ⟨sender, receiver, iv, hfeeds, hsender, hreceiver, hiv, hfeeds.separated hN⟩

open SecurityLayer (clearCose) in
/-- The identifier `01` for a key of 16 bytes, and no identifier for a nonce of 16 bytes. -/
theorem kdf_inputs_separated_example :
    buildKdfInfo NanoCbor.preferred clearCose [0x01] .asconAead128 "Key" 16
        = .ok [0x84, 0x41, 0x01, 0x00, 0x63, 0x4B, 0x65, 0x79, 0x10] ∧
      buildKdfInfo NanoCbor.preferred clearCose [] .asconAead128 "IV" 16
        = .ok [0x84, 0x40, 0x00, 0x62, 0x49, 0x56, 0x10] ∧
      ([0x84, 0x41, 0x01, 0x00, 0x63, 0x4B, 0x65, 0x79, 0x10] : List UInt8)
        ≠ [0x84, 0x40, 0x00, 0x62, 0x49, 0x56, 0x10] := by
  have hkey : buildKdfInfo NanoCbor.preferred clearCose [0x01] .asconAead128 "Key"
      (16 : UInt64).toNat = .ok [0x84, 0x41, 0x01, 0x00, 0x63, 0x4B, 0x65, 0x79, 0x10] := by
    decide +kernel
  have hiv : buildKdfInfo NanoCbor.preferred clearCose [] .asconAead128 "IV" (16 : UInt64).toNat
      = .ok [0x84, 0x40, 0x00, 0x62, 0x49, 0x56, 0x10] := by decide +kernel
  have hseparated := (kdf_inputs_separated NanoCbor.preferred_formatsInfo clearCose).1
  exact ⟨hkey, hiv, hseparated _ _ _ _ _ _ _ _ _ _ (by simp [kdfInfoTypes])
    (by simp [kdfInfoTypes]) hkey hiv (by simp)⟩

end Security
end RmwDesert
