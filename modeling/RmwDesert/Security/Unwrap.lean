/-
The security layer on the receiver's side (`SecurityLayer.cpp`).

`unwrap` expands a compressed message in place, and decodes and decrypts it.  The decoding and
the decryption of libcose are parameters.  The main result, `unwrap_wrap`, says that a
receiver with the mirrored identities gets back what the sender wrapped.
-/
import RmwDesert.Lib.Buffer
import RmwDesert.Lib.Cbor
import RmwDesert.Security.NonceFreshness

namespace RmwDesert
namespace Security

/-! ## Messages -/

/-- A byte string of CBOR: its header and the bytes. -/
def bstr (s : List UInt8) : List UInt8 := Cbor.head 2 s.length ++ s

/-- `cose_prefix`. -/
def cosePrefix : List UInt8 := [0x83, 0x40, 0xA1, 0x06]

/-- The message with a Partial IV and a ciphertext. -/
def coseMessage (partialIv ciphertext : List UInt8) : List UInt8 :=
  cosePrefix ++ bstr partialIv ++ bstr ciphertext

/-- `COSE_SERIALIZATION_MAX_OVERHEAD`. -/
def coseSerializationMaxOverhead : ℕ := 12

/-- The functions of libcose for a receiver. -/
structure LibCoseDecrypt where
  /-- `cose_encrypt_decode`: the Partial IV and the ciphertext, if it returns `COSE_OK`. -/
  encryptDecode : List UInt8 → Option (List UInt8 × List UInt8)
  /-- `cose_encrypt_decrypt_lw`: the plaintext, if it returns `COSE_OK`. -/
  encryptDecryptLw : CoseAlgo → (key contextIv partialIv ciphertext : List UInt8) →
    Option (List UInt8)

/-- What the sender's and the receiver's side of libcose have in common: the encoding is the
canonical one, decoding undoes it, and decryption undoes `encrypt`, which adds a tag. -/
structure LibCose.Mirrors (C : LibCose) (D : LibCoseDecrypt)
    (encrypt : CoseAlgo → (key contextIv partialIv payload : List UInt8) → List UInt8) : Prop where
  encode : ∀ {alg key contextIv partialIv payload maxLen message},
    C.encryptEncode alg key contextIv partialIv payload maxLen = some message →
    message = coseMessage partialIv (encrypt alg key contextIv partialIv payload) ∧
      message.length ≤ maxLen
  decode : ∀ {partialIv ciphertext}, partialIv.length < 2 ^ 64 → ciphertext.length < 2 ^ 64 →
    D.encryptDecode (coseMessage partialIv ciphertext) = some (partialIv, ciphertext)
  decrypt : ∀ alg key contextIv partialIv payload,
    D.encryptDecryptLw alg key contextIv partialIv
      (encrypt alg key contextIv partialIv payload) = some payload
  length_lt : ∀ alg key contextIv partialIv payload,
    payload.length < (encrypt alg key contextIv partialIv payload).length

/-- `nanocbor_fmt_bstr` writes the header of a byte string. -/
def FormatsBstr (N : NanoCbor) : Prop :=
  ∀ {n : ℕ}, n < 2 ^ 64 → N.fmtBstr n = Cbor.head 2 n

/-- `nanocbor_get_bstr` reads a byte string. -/
def ReadsBstr (N : NanoCbor) : Prop :=
  ∀ {s : List UInt8} (rest : List UInt8), s.length < 2 ^ 64 →
    N.getBstr (bstr s ++ rest) = some (s, rest)

namespace SecurityLayer

/-! ## Unwrapping -/

/-- The moves of `cose_stateless_decompress`, and the header of the Partial IV; `none` means
an access outside the buffer. -/
def expand (pivInd plInd : List UInt8) (payloadLen : ℕ) (data : List UInt8) (s : SecurityLayer) :
    Option (List UInt8) := do
  let data ← Buffer.memmove (s.pivSize + (cosePrefix.length + pivInd.length + plInd.length))
    s.pivSize payloadLen data
  let data ← Buffer.memmove (cosePrefix.length + pivInd.length) 0 s.pivSize data
  let data ← Buffer.write 0 cosePrefix data
  Buffer.write cosePrefix.length pivInd data

/-- `cose_stateless_decompress` on a buffer of `data_max_len` bytes: the buffer and the length
of the message, or the error.  The lengths are of type `size_t`. -/
def coseStatelessDecompress (N : NanoCbor) (data : List UInt8) (dataLen : ℕ) (s : SecurityLayer) :
    Option (Except SecurityResult (List UInt8 × ℕ)) :=
  let payloadLen := (dataLen + 2 ^ 64 - s.pivSize) % 2 ^ 64
  let pivInd := N.fmtBstr s.pivSize
  let plInd := N.fmtBstr payloadLen
  let decompressedLen :=
    (cosePrefix.length + pivInd.length + s.pivSize + plInd.length + payloadLen) % 2 ^ 64
  if data.length < decompressedLen then some (.error .bufferError)
  else do
    let data ← s.expand pivInd plInd payloadLen data
    -- the encoder of the second header has as many bytes as the payload
    if payloadLen < plInd.length then some (.error .internalError)
    else
      let data ← Buffer.write (s.pivSize + (cosePrefix.length + pivInd.length)) plInd data
      some (.ok (data, decompressedLen))

/-- The decoding and the decryption in `unwrap`. -/
def decodeAndDecrypt (D : LibCoseDecrypt) (data : List UInt8) (dataLen : ℕ) (s : SecurityLayer) :
    Option (Except SecurityResult (List UInt8 × ℕ)) :=
  match D.encryptDecode (data.take dataLen) with
  | none => some (.error .unwrapError)
  | some (partialIv, ciphertext) =>
    match D.encryptDecryptLw (aeadAlgoToCoseAlgo s.aeadParams.alg) s.receiverKeyBytes s.contextIv
        partialIv ciphertext with
    | none => some (.error .unwrapError)
    | some plaintext => do
      let data ← Buffer.write 0 plaintext data
      some (.ok (data, plaintext.length))

/-- `unwrap` on a buffer of `data_max_len` bytes: the buffer and the length of the plaintext,
or the error. -/
def unwrap (N : NanoCbor) (D : LibCoseDecrypt) (compress : Bool) (data : List UInt8)
    (dataLen : ℕ) (s : SecurityLayer) : Option (Except SecurityResult (List UInt8 × ℕ)) :=
  if compress then do
    match ← s.coseStatelessDecompress N data dataLen with
    | .error e => some (.error e)
    | .ok (data, dataLen) => s.decodeAndDecrypt D data dataLen
  else s.decodeAndDecrypt D data dataLen

/-! ## Decompression -/

/-- The moves make room for the headers, whatever they write over. -/
lemma expand_eq {s : SecurityLayer} {pivInd plInd partialIv ciphertext spare : List UInt8}
    (hpiv : partialIv.length = s.pivSize)
    (hspare : cosePrefix.length + pivInd.length + plInd.length ≤ spare.length) :
    ∃ hole rest, hole.length = plInd.length ∧
      s.expand pivInd plInd ciphertext.length (partialIv ++ ciphertext ++ spare)
        = some (cosePrefix ++ pivInd ++ partialIv ++ hole ++ ciphertext ++ rest) := by
  obtain ⟨k, hk⟩ := Nat.exists_eq_add_of_le hspare
  -- where the ciphertext goes, and what stands before it
  obtain ⟨gap, target, hsplit, hgap, htarget⟩ := Buffer.exists_append
    (m := cosePrefix.length + pivInd.length + plInd.length) (n := ciphertext.length + k)
    (l := ciphertext ++ spare) (by rw [List.length_append]; omega)
  obtain ⟨old, rest, rfl, hold, -⟩ := Buffer.exists_append htarget
  -- where the Partial IV goes, and what stands around it
  obtain ⟨start, tail, hstart, hstartLen, htail⟩ := Buffer.exists_append
    (m := cosePrefix.length + pivInd.length) (n := s.pivSize + plInd.length)
    (l := partialIv ++ gap) (by rw [List.length_append]; omega)
  obtain ⟨middle, hole, rfl, hmiddle, hhole⟩ := Buffer.exists_append htail
  obtain ⟨start₁, start₂, rfl, hstart₁, hstart₂⟩ := Buffer.exists_append hstartLen
  refine ⟨hole, rest, hhole, ?_⟩
  have hreadCiphertext : Buffer.read s.pivSize ciphertext.length (partialIv ++ ciphertext ++ spare)
      = some ciphertext := by
    rw [← hpiv]
    exact Buffer.read_piece partialIv ciphertext spare
  have hwriteCiphertext : Buffer.write
      (s.pivSize + (cosePrefix.length + pivInd.length + plInd.length)) ciphertext
      (partialIv ++ ciphertext ++ spare) = some (partialIv ++ gap ++ ciphertext ++ rest) := by
    have hbefore : (partialIv ++ gap).length
        = s.pivSize + (cosePrefix.length + pivInd.length + plInd.length) := by
      rw [List.length_append, hpiv, hgap]
    have hpieces : partialIv ++ ciphertext ++ spare = partialIv ++ gap ++ old ++ rest := by
      simp only [List.append_assoc, hsplit]
    rw [← hbefore, hpieces]
    exact Buffer.write_piece hold
  have hreadPiv : Buffer.read 0 s.pivSize (partialIv ++ gap ++ ciphertext ++ rest)
      = some partialIv := by
    rw [← hpiv, List.append_assoc, List.append_assoc]
    exact Buffer.read_front partialIv _
  have hwritePiv : Buffer.write (cosePrefix.length + pivInd.length) partialIv
      (partialIv ++ gap ++ ciphertext ++ rest)
        = some (start₁ ++ start₂ ++ partialIv ++ (hole ++ ciphertext ++ rest)) := by
    have hpieces : partialIv ++ gap ++ ciphertext ++ rest
        = start₁ ++ start₂ ++ middle ++ (hole ++ ciphertext ++ rest) := by
      rw [hstart]
      simp only [List.append_assoc]
    rw [← hstartLen, hpieces]
    exact Buffer.write_piece (hmiddle.trans hpiv.symm)
  have hwritePrefix : Buffer.write 0 cosePrefix
      (start₁ ++ start₂ ++ partialIv ++ (hole ++ ciphertext ++ rest))
        = some (cosePrefix ++ start₂ ++ (partialIv ++ (hole ++ ciphertext ++ rest))) := by
    rw [List.append_assoc, List.append_assoc, List.append_assoc]
    exact Buffer.write_front hstart₁ _
  have hwriteInd : Buffer.write cosePrefix.length pivInd
      (cosePrefix ++ start₂ ++ (partialIv ++ (hole ++ ciphertext ++ rest)))
        = some (cosePrefix ++ pivInd ++ (partialIv ++ (hole ++ ciphertext ++ rest))) :=
    Buffer.write_piece hstart₂
  simp only [expand, Buffer.memmove, hreadCiphertext, hwriteCiphertext, hreadPiv, hwritePiv,
    hwritePrefix, hwriteInd, Option.bind_eq_bind, Option.bind_some]
  simp only [List.append_assoc]

/-- The header of a Partial IV of up to 23 bytes is one byte. -/
lemma length_head_of_lt {n : ℕ} (hn : n < 24) : (Cbor.head 2 n).length = 1 := by
  rw [Cbor.head, if_pos hn]
  rfl

/-- The length of a message. -/
lemma length_coseMessage (partialIv ciphertext : List UInt8) :
    (coseMessage partialIv ciphertext).length
      = cosePrefix.length + (Cbor.head 2 partialIv.length).length + partialIv.length
        + (Cbor.head 2 ciphertext.length).length + ciphertext.length := by
  simp only [coseMessage, bstr, List.length_append]
  omega

section

variable {N : NanoCbor} {s : SecurityLayer} {partialIv ciphertext spare : List UInt8}

/-- A buffer that is too small for the message is refused. -/
lemma coseStatelessDecompress_of_lt (hfmt : FormatsBstr N)
    (hpiv : partialIv.length = s.pivSize)
    (hsize : (coseMessage partialIv ciphertext).length < 2 ^ 64)
    (hspare : spare.length < cosePrefix.length + (Cbor.head 2 partialIv.length).length
      + (Cbor.head 2 ciphertext.length).length) :
    s.coseStatelessDecompress N (partialIv ++ ciphertext ++ spare)
      (partialIv ++ ciphertext).length = some (.error .bufferError) := by
  rw [length_coseMessage] at hsize
  have hpivInd : N.fmtBstr partialIv.length = Cbor.head 2 partialIv.length := hfmt (by omega)
  have hplInd : N.fmtBstr ciphertext.length = Cbor.head 2 ciphertext.length := hfmt (by omega)
  have hpayload : ((partialIv ++ ciphertext).length + 2 ^ 64 - partialIv.length) % 2 ^ 64
      = ciphertext.length := by
    rw [List.length_append]
    omega
  rw [coseStatelessDecompress]
  simp only [← hpiv, hpayload, hpivInd, hplInd]
  rw [Nat.mod_eq_of_lt hsize, if_pos]
  simp only [List.length_append]
  omega

/-- **Decompression.** In a buffer with room for the headers, a Partial IV and a ciphertext are
expanded to the message. -/
lemma coseStatelessDecompress_eq (hfmt : FormatsBstr N)
    (hpiv : partialIv.length = s.pivSize)
    (hciphertext : 0 < ciphertext.length)
    (hsize : (coseMessage partialIv ciphertext).length < 2 ^ 64)
    (hspare : cosePrefix.length + (Cbor.head 2 partialIv.length).length
      + (Cbor.head 2 ciphertext.length).length ≤ spare.length) :
    ∃ rest, s.coseStatelessDecompress N (partialIv ++ ciphertext ++ spare)
        (partialIv ++ ciphertext).length
      = some (.ok (coseMessage partialIv ciphertext ++ rest,
          (coseMessage partialIv ciphertext).length)) := by
  obtain ⟨hole, rest, hhole, hexpand⟩ : ∃ hole rest : List UInt8,
      hole.length = (Cbor.head 2 ciphertext.length).length ∧
      s.expand (Cbor.head 2 partialIv.length) (Cbor.head 2 ciphertext.length) ciphertext.length
          (partialIv ++ ciphertext ++ spare)
        = some (cosePrefix ++ Cbor.head 2 partialIv.length ++ partialIv ++ hole ++ ciphertext
            ++ rest) := expand_eq hpiv hspare
  have hlength := length_coseMessage partialIv ciphertext
  rw [hlength] at hsize
  have hpivInd : N.fmtBstr partialIv.length = Cbor.head 2 partialIv.length := hfmt (by omega)
  have hplInd : N.fmtBstr ciphertext.length = Cbor.head 2 ciphertext.length := hfmt (by omega)
  have hpayload : ((partialIv ++ ciphertext).length + 2 ^ 64 - partialIv.length) % 2 ^ 64
      = ciphertext.length := by
    rw [List.length_append]
    omega
  have hroom : ¬ (partialIv ++ ciphertext ++ spare).length < cosePrefix.length
      + (Cbor.head 2 partialIv.length).length + partialIv.length
      + (Cbor.head 2 ciphertext.length).length + ciphertext.length := by
    simp only [List.length_append]
    omega
  have hheader : ¬ ciphertext.length < (Cbor.head 2 ciphertext.length).length :=
    Nat.not_lt.mpr (Cbor.length_head_le_self 2 hciphertext)
  have hbefore : partialIv.length + (cosePrefix.length + (Cbor.head 2 partialIv.length).length)
      = (cosePrefix ++ Cbor.head 2 partialIv.length ++ partialIv).length := by
    simp only [List.length_append]
    omega
  have hwrite : Buffer.write
      (cosePrefix ++ Cbor.head 2 partialIv.length ++ partialIv).length
      (Cbor.head 2 ciphertext.length)
      (cosePrefix ++ Cbor.head 2 partialIv.length ++ partialIv ++ hole ++ (ciphertext ++ rest))
        = some (cosePrefix ++ Cbor.head 2 partialIv.length ++ partialIv
            ++ Cbor.head 2 ciphertext.length ++ (ciphertext ++ rest)) :=
    Buffer.write_piece hhole
  refine ⟨rest, ?_⟩
  rw [coseStatelessDecompress]
  simp only [← hpiv, hpayload, hpivInd, hplInd]
  rw [Nat.mod_eq_of_lt hsize, if_neg hroom, hexpand, Option.bind_eq_bind, Option.bind_some,
    if_neg hheader, hbefore]
  simp only [List.append_assoc] at hwrite ⊢
  rw [hwrite, hlength]
  simp only [Option.bind_some, coseMessage, bstr, List.append_assoc]

end

/-! ## The round trip -/

variable {N : NanoCbor} {C : LibCose} {D : LibCoseDecrypt}
  {encrypt : CoseAlgo → (key contextIv partialIv payload : List UInt8) → List UInt8}

/-- Compression keeps the Partial IV and the ciphertext. -/
lemma coseStatelessCompress_eq (hN : ReadsBstr N) {s : SecurityLayer}
    {partialIv ciphertext : List UInt8} (hpiv : partialIv.length = s.pivSize)
    (hsize : s.pivSize < 24) (hciphertext : ciphertext.length < 2 ^ 64) :
    s.coseStatelessCompress N (coseMessage partialIv ciphertext)
      = .ok (partialIv ++ ciphertext) := by
  have hheader : (cosePrefix ++ Cbor.head 2 partialIv.length).length = 5 := by
    rw [List.length_append, length_head_of_lt (hpiv ▸ hsize)]
    rfl
  have hdrop : (coseMessage partialIv ciphertext).drop 5 = partialIv ++ bstr ciphertext := by
    have hpieces : coseMessage partialIv ciphertext
        = cosePrefix ++ Cbor.head 2 partialIv.length ++ (partialIv ++ bstr ciphertext) := by
      simp only [coseMessage, bstr, List.append_assoc]
    rw [hpieces, ← hheader, List.drop_left]
  have hread := hN [] hciphertext
  rw [List.append_nil] at hread
  simp only [coseStatelessCompress, hdrop, ← hpiv, List.drop_left, hread, List.take_left]

/-- The Partial IV keeps its size. -/
lemma length_pivBytes_generateNonce {s : SecurityLayer} (h : s.pivBytes.length = s.pivSize) :
    s.generateNonce.pivBytes.length = s.pivSize := by
  simp only [generateNonce, BigEndian.drop_encode (Nat.min_le_left 4 s.pivSize),
    List.length_append, BigEndian.length_encode, List.length_drop, h]
  omega

/-- What `wrap` emits of an encoded message: the message, or its Partial IV and ciphertext. -/
lemma wrap_of_encode (hN : ReadsBstr N) {s : SecurityLayer}
    (hbytes : s.pivBytes.length = s.pivSize) (hsize : s.pivSize < 24) {compress : Bool}
    {payload ciphertext : List UInt8} (hciphertext : ciphertext.length < 2 ^ 64) {dataMaxLen : ℕ}
    (h : C.encryptEncode (aeadAlgoToCoseAlgo s.aeadParams.alg) s.senderKeyBytes s.contextIv
      s.generateNonce.pivBytes payload dataMaxLen
      = some (coseMessage s.generateNonce.pivBytes ciphertext)) :
    (s.wrap N C compress payload dataMaxLen).1
      = .ok (if compress then s.generateNonce.pivBytes ++ ciphertext
          else coseMessage s.generateNonce.pivBytes ciphertext) := by
  have hpiv : s.generateNonce.pivBytes.length = s.generateNonce.pivSize :=
    length_pivBytes_generateNonce hbytes
  have hencode : C.encryptEncode (aeadAlgoToCoseAlgo s.generateNonce.aeadParams.alg)
      s.generateNonce.senderKeyBytes s.generateNonce.contextIv s.generateNonce.pivBytes payload
      dataMaxLen = some (coseMessage s.generateNonce.pivBytes ciphertext) := h
  have hcons : ∃ tail, coseMessage s.generateNonce.pivBytes ciphertext = 0x83 :: tail := ⟨_, rfl⟩
  obtain ⟨tail, htail⟩ := hcons
  simp only [wrap, hencode]
  rw [htail]
  cases compress with
  | false => rfl
  | true => simp only [if_true, ← htail, coseStatelessCompress_eq hN hpiv hsize hciphertext]

/-- What `wrap` emits. -/
lemma wrap_ok (hN : ReadsBstr N) (hC : C.Mirrors D encrypt) {s next : SecurityLayer}
    (hbytes : s.pivBytes.length = s.pivSize) (hsize : s.pivSize < 24) {compress : Bool}
    {payload message : List UInt8} {dataMaxLen : ℕ} (hmax : dataMaxLen < 2 ^ 64)
    (h : s.wrap N C compress payload dataMaxLen = (.ok message, next)) :
    ∃ partialIv ciphertext, partialIv.length = s.pivSize ∧
      ciphertext = encrypt (aeadAlgoToCoseAlgo s.aeadParams.alg) s.senderKeyBytes s.contextIv
        partialIv payload ∧
      (coseMessage partialIv ciphertext).length < 2 ^ 64 ∧
      message = if compress then partialIv ++ ciphertext else coseMessage partialIv ciphertext := by
  obtain ⟨cose, hencode⟩ : ∃ cose, C.encryptEncode (aeadAlgoToCoseAlgo s.aeadParams.alg)
      s.senderKeyBytes s.contextIv s.generateNonce.pivBytes payload dataMaxLen = some cose := by
    simp only [wrap] at h
    split at h
    · cases h
    · cases h
    · rename_i cose _ hencode
      exact ⟨cose, hencode⟩
  obtain ⟨rfl, hle⟩ := hC.encode hencode
  have hlength := length_coseMessage s.generateNonce.pivBytes
    (encrypt (aeadAlgoToCoseAlgo s.aeadParams.alg) s.senderKeyBytes s.contextIv
      s.generateNonce.pivBytes payload)
  refine ⟨_, _, length_pivBytes_generateNonce hbytes, rfl, hle.trans_lt hmax, ?_⟩
  have hemitted : (s.wrap N C compress payload dataMaxLen).1 = .ok _ :=
    wrap_of_encode hN hbytes hsize (by omega) hencode
  rw [h] at hemitted
  exact Except.ok.inj hemitted

/-- A layer with these parameters at any time: calls of `wrap` change the sequence number and
the Partial IV only. -/
def Constructed (N : NanoCbor) (C : LibCose) (params : AeadParams) (kdf : KdfAlgorithms)
    (masterKey masterSalt : List UInt8) (pivSize : ℕ) (senderId receiverId : List UInt8)
    (s : SecurityLayer) : Prop :=
  s.pivBytes.length = pivSize ∧ ∃ (n : UInt64) (s₀ : SecurityLayer),
    ofParameters N C params kdf masterKey masterSalt pivSize n senderId receiverId = .ok s₀ ∧
      s = { s₀ with senderSeqNumber := s.senderSeqNumber, pivBytes := s.pivBytes }

section

variable {params : AeadParams} {kdf : KdfAlgorithms} {masterKey masterSalt : List UInt8}
  {pivSize : ℕ} {senderId receiverId : List UInt8} {s : SecurityLayer}

/-- The keys of a layer. -/
lemma Constructed.derived
    (h : Constructed N C params kdf masterKey masterSalt pivSize senderId receiverId s) :
    s.aeadParams = params ∧ s.pivSize = pivSize ∧
    deriveKey N C params kdf masterKey masterSalt senderId (aeadAlgoToCoseAlgo params.alg)
      = .ok s.senderKeyBytes ∧
    deriveKey N C params kdf masterKey masterSalt receiverId (aeadAlgoToCoseAlgo params.alg)
      = .ok s.receiverKeyBytes ∧
    deriveIv N C params kdf masterKey masterSalt (aeadAlgoToCoseAlgo params.alg)
      = .ok s.contextIv := by
  obtain ⟨-, n, s₀, hs₀, heq⟩ := h
  obtain ⟨hsender, hiv, hsize, -, -, hreceiver, hparams⟩ := ofParameters_ok hs₀
  rw [heq]
  exact ⟨hparams, hsize, hsender, hreceiver, hiv⟩

/-- A layer is constructed with these parameters at first. -/
lemma constructed_of_ofParameters {n : UInt64}
    (h : ofParameters N C params kdf masterKey masterSalt pivSize n senderId receiverId = .ok s) :
    Constructed N C params kdf masterKey masterSalt pivSize senderId receiverId s := by
  obtain ⟨-, -, -, hbytes, -⟩ := ofParameters_ok h
  refine ⟨?_, n, s, h, rfl⟩
  rw [hbytes, List.length_replicate]

end

section

variable {params : AeadParams} {kdf : KdfAlgorithms} {masterKey masterSalt : List UInt8}
  {pivSize : ℕ} {senderId receiverId : List UInt8} {sender receiver next : SecurityLayer}
  {compress : Bool} {payload message spare : List UInt8} {dataMaxLen : ℕ}

/-- The receiver decodes and decrypts the message of the sender. -/
lemma decodeAndDecrypt_coseMessage (hC : C.Mirrors D encrypt) {partialIv ciphertext : List UInt8}
    (hkey : receiver.receiverKeyBytes = sender.senderKeyBytes)
    (hiv : receiver.contextIv = sender.contextIv) (halg : receiver.aeadParams = sender.aeadParams)
    (hciphertext : ciphertext = encrypt (aeadAlgoToCoseAlgo sender.aeadParams.alg)
      sender.senderKeyBytes sender.contextIv partialIv payload)
    (hsize : (coseMessage partialIv ciphertext).length < 2 ^ 64) (rest : List UInt8) :
    ∃ data newDataLen, receiver.decodeAndDecrypt D (coseMessage partialIv ciphertext ++ rest)
        (coseMessage partialIv ciphertext).length = some (.ok (data, newDataLen)) ∧
      data.take newDataLen = payload := by
  have hlength := length_coseMessage partialIv ciphertext
  have hdecode : D.encryptDecode (coseMessage partialIv ciphertext)
      = some (partialIv, ciphertext) :=
    hC.decode (by omega) (by omega)
  have hdecrypt := hC.decrypt (aeadAlgoToCoseAlgo sender.aeadParams.alg) sender.senderKeyBytes
    sender.contextIv partialIv payload
  have hlt := hC.length_lt (aeadAlgoToCoseAlgo sender.aeadParams.alg) sender.senderKeyBytes
    sender.contextIv partialIv payload
  rw [← hciphertext] at hdecrypt hlt
  -- the plaintext is written over the message, which is longer
  have hfits : payload.length ≤ (coseMessage partialIv ciphertext ++ rest).length := by
    rw [List.length_append]
    omega
  obtain ⟨k, hk⟩ := Nat.exists_eq_add_of_le hfits
  obtain ⟨old, tail, hsplit, hold, -⟩ := Buffer.exists_append hk
  refine ⟨payload ++ tail, payload.length, ?_, List.take_left⟩
  simp only [decodeAndDecrypt, List.take_left, hdecode, hkey, hiv, halg, hdecrypt]
  rw [hsplit, Buffer.write_front hold]
  rfl

/-- What the receiver decodes of an emitted message: the message, in a buffer with the spare
bytes if messages are compressed. -/
lemma unwrap_emitted (hfmt : FormatsBstr N) {partialIv ciphertext : List UInt8}
    (hpivLen : partialIv.length = receiver.pivSize) (hpiv : receiver.pivSize ≤ 16)
    (hnonempty : 0 < ciphertext.length)
    (hsize : (coseMessage partialIv ciphertext).length < 2 ^ 64)
    (hemitted : message = if compress then partialIv ++ ciphertext
      else coseMessage partialIv ciphertext)
    (hshort : compress = true → ciphertext.length < 2 ^ 32)
    (hspare : compress = true → coseSerializationMaxOverhead ≤ spare.length) :
    ∃ rest, receiver.unwrap N D compress (message ++ spare) message.length
      = receiver.decodeAndDecrypt D (coseMessage partialIv ciphertext ++ rest)
        (coseMessage partialIv ciphertext).length := by
  cases compress with
  | false =>
    obtain rfl : message = coseMessage partialIv ciphertext := hemitted
    exact ⟨spare, rfl⟩
  | true =>
    obtain rfl : message = partialIv ++ ciphertext := hemitted
    have hroom : cosePrefix.length + (Cbor.head 2 partialIv.length).length
        + (Cbor.head 2 ciphertext.length).length ≤ spare.length := by
      have hpivHead := length_head_of_lt (n := partialIv.length) (by omega)
      have hhead := Cbor.length_head_le_five 2 (hshort rfl)
      have hprefix : cosePrefix.length = 4 := rfl
      have hspare := hspare rfl
      rw [coseSerializationMaxOverhead] at hspare
      omega
    obtain ⟨rest, hdecompress⟩ :=
      coseStatelessDecompress_eq hfmt hpivLen hnonempty hsize hroom
    refine ⟨rest, ?_⟩
    rw [unwrap, if_pos rfl, hdecompress]
    rfl

/-- **The secure channel.** The receiver with the mirrored identities unwraps what the sender
wraps, in a buffer with the spare bytes if messages are compressed; the ciphertext has to be
shorter than `2 ^ 32` bytes then. -/
theorem unwrap_wrap (hN : ReadsBstr N) (hfmt : FormatsBstr N) (hC : C.Mirrors D encrypt)
    (hpiv : pivSize ≤ 16)
    (hsender : Constructed N C params kdf masterKey masterSalt pivSize senderId receiverId sender)
    (hreceiver :
      Constructed N C params kdf masterKey masterSalt pivSize receiverId senderId receiver)
    (hmax : dataMaxLen < 2 ^ 64)
    (hwrap : sender.wrap N C compress payload dataMaxLen = (.ok message, next))
    (hmessage : compress = true → message.length < pivSize + 2 ^ 32)
    (hspare : compress = true → coseSerializationMaxOverhead ≤ spare.length) :
    ∃ data newDataLen, receiver.unwrap N D compress (message ++ spare) message.length
      = some (.ok (data, newDataLen)) ∧ data.take newDataLen = payload := by
  obtain ⟨hparams, hsize, hsenderKey, -, hiv⟩ := hsender.derived
  obtain ⟨hparams', hsize', -, hreceiverKey, hiv'⟩ := hreceiver.derived
  have hkey : receiver.receiverKeyBytes = sender.senderKeyBytes :=
    Except.ok.inj (hreceiverKey.symm.trans hsenderKey)
  have hivs : receiver.contextIv = sender.contextIv := Except.ok.inj (hiv'.symm.trans hiv)
  have halg : receiver.aeadParams = sender.aeadParams := hparams'.trans hparams.symm
  have hbytes : sender.pivBytes.length = sender.pivSize := hsender.1.trans hsize.symm
  obtain ⟨partialIv, ciphertext, hpivLen, hciphertext, hlength, hemitted⟩ :=
    wrap_ok hN hC hbytes (by omega) hmax hwrap
  have hnonempty : 0 < ciphertext.length := by
    rw [hciphertext]
    exact Nat.zero_lt_of_lt (hC.length_lt _ _ _ _ _)
  have hshort : compress = true → ciphertext.length < 2 ^ 32 := by
    intro hcompress
    have hlt := hmessage hcompress
    rw [hemitted, if_pos hcompress, List.length_append] at hlt
    omega
  obtain ⟨rest, hunwrap⟩ := unwrap_emitted (D := D) hfmt (hpivLen.trans (hsize.trans hsize'.symm))
    (hsize'.trans_le hpiv) hnonempty hlength hemitted hshort hspare
  rw [hunwrap]
  exact decodeAndDecrypt_coseMessage hC hkey hivs halg hciphertext hlength rest

/-- A ciphertext of `2 ^ 32` bytes or more needs nine bytes for its header, and does not fit. -/
lemma unwrap_long (hN : ReadsBstr N) (hfmt : FormatsBstr N) (hC : C.Mirrors D encrypt)
    (hpiv : pivSize ≤ 16)
    (hsender : Constructed N C params kdf masterKey masterSalt pivSize senderId receiverId sender)
    (hreceiver :
      Constructed N C params kdf masterKey masterSalt pivSize receiverId senderId receiver)
    (hmax : dataMaxLen < 2 ^ 64)
    (hwrap : sender.wrap N C true payload dataMaxLen = (.ok message, next))
    (hmessage : pivSize + 2 ^ 32 ≤ message.length)
    (hspare : spare.length = coseSerializationMaxOverhead) :
    receiver.unwrap N D true (message ++ spare) message.length = some (.error .bufferError) := by
  obtain ⟨-, hsize, -, -, -⟩ := hsender.derived
  obtain ⟨-, hsize', -, -, -⟩ := hreceiver.derived
  have hbytes : sender.pivBytes.length = sender.pivSize := hsender.1.trans hsize.symm
  obtain ⟨partialIv, ciphertext, hpivLen, -, hlength, hemitted⟩ :=
    wrap_ok hN hC hbytes (by omega) hmax hwrap
  obtain rfl : message = partialIv ++ ciphertext := hemitted
  rw [List.length_append] at hmessage
  have hroom : spare.length < cosePrefix.length + (Cbor.head 2 partialIv.length).length
      + (Cbor.head 2 ciphertext.length).length := by
    have hhead := Cbor.length_head_of_le 2 (n := ciphertext.length) (by omega)
    have hprefix : cosePrefix.length = 4 := rfl
    rw [hspare, coseSerializationMaxOverhead]
    omega
  rw [unwrap, if_pos rfl, coseStatelessDecompress_of_lt hfmt
    (hpivLen.trans (hsize.trans hsize'.symm)) hlength hroom]
  rfl

end

/-! ## A library -/

/-- The sizes of the tags. -/
def tagLength : CoseAlgo → ℕ
  | .asconAead128 | .a128gcm => 16
  | .asconAead128_64 => 8
  | .asconAead128_32 => 4
  | .hmacAsconHash256 | .hmac256 | .none => 1

/-- A tag that is the key. -/
def tag (alg : CoseAlgo) (key : List UInt8) : List UInt8 :=
  (key ++ List.replicate 16 0).take (tagLength alg)

/-- An AEAD that appends the key. -/
def taggedEncrypt (alg : CoseAlgo) (key _contextIv _partialIv payload : List UInt8) : List UInt8 :=
  payload ++ tag alg key

lemma tagLength_pos (alg : CoseAlgo) : 0 < tagLength alg := by
  cases alg <;> decide

lemma length_tag (alg : CoseAlgo) (key : List UInt8) : (tag alg key).length = tagLength alg := by
  have hle : tagLength alg ≤ 16 := by
    cases alg <;> decide
  rw [tag, List.length_take, List.length_append, List.length_replicate]
  omega

/-- A library for the sender, in which the keys depend on the identifiers. -/
def taggedCose : LibCose where
  algoValue _ := 0
  hkdfDerive _ ikm info length _ := some ((info ++ ikm ++ List.replicate length 0).take length)
  encryptEncode alg key contextIv partialIv payload maxLen :=
    let message := coseMessage partialIv (taggedEncrypt alg key contextIv partialIv payload)
    if message.length ≤ maxLen then some message else none

/-- The library for the receiver. -/
def taggedDecrypt : LibCoseDecrypt where
  encryptDecode message :=
    if message.take 4 = cosePrefix then
      match NanoCbor.rfc8949.getBstr (message.drop 4) with
      | none => none
      | some (partialIv, rest) => NanoCbor.rfc8949.getBstr rest |>.map fun r => (partialIv, r.1)
    else none
  encryptDecryptLw alg key _ _ ciphertext :=
    let length := ciphertext.length - tagLength alg
    if ciphertext.drop length = tag alg key then some (ciphertext.take length) else none

lemma readsBstr_rfc8949 : ReadsBstr NanoCbor.rfc8949 := by
  intro s rest hs
  have hlen : ¬ (s ++ rest).length < s.length := by simp
  simp only [NanoCbor.rfc8949, NanoCbor.readString, bstr, List.append_assoc,
    NanoCbor.readMajor_head (show 2 < 8 by decide) hs, if_neg hlen, List.take_left, List.drop_left]

lemma formatsBstr_rfc8949 : FormatsBstr NanoCbor.rfc8949 := fun _ => rfl

lemma taggedCose_mirrors : taggedCose.Mirrors taggedDecrypt taggedEncrypt where
  encode := by
    intro alg key contextIv partialIv payload maxLen message h
    simp only [taggedCose] at h
    split_ifs at h with hfits
    obtain rfl := Option.some.inj h
    exact ⟨rfl, hfits⟩
  decode := by
    intro partialIv ciphertext hpiv hciphertext
    have htake : (coseMessage partialIv ciphertext).take 4 = cosePrefix := rfl
    have hdrop : (coseMessage partialIv ciphertext).drop 4 = bstr partialIv ++ bstr ciphertext :=
      rfl
    have hread := readsBstr_rfc8949 [] hciphertext
    rw [List.append_nil] at hread
    simp only [taggedDecrypt, htake, hdrop, if_true, readsBstr_rfc8949 _ hpiv, hread,
      Option.map_some]
  decrypt := by
    intro alg key contextIv partialIv payload
    have hlength : (taggedEncrypt alg key contextIv partialIv payload).length
        - tagLength alg = payload.length := by
      simp [taggedEncrypt, length_tag]
    simp only [taggedDecrypt, hlength]
    simp [taggedEncrypt]
  length_lt := by
    intro alg key contextIv partialIv payload
    simp [taggedEncrypt, length_tag, tagLength_pos]

/-- A compressed message of one byte. -/
theorem unwrap_wrap_oneByte :
    ∃ sender receiver message next data newDataLen,
      ofParameters NanoCbor.rfc8949 taggedCose (.ofAlgorithm .asconAead128) .hkdfAscon
        (List.replicate 16 7) (List.replicate 16 0) 2 0 [1] [2] = .ok sender ∧
      ofParameters NanoCbor.rfc8949 taggedCose (.ofAlgorithm .asconAead128) .hkdfAscon
        (List.replicate 16 7) (List.replicate 16 0) 2 0 [2] [1] = .ok receiver ∧
      sender.wrap NanoCbor.rfc8949 taggedCose true [0x2A] 512 = (.ok message, next) ∧
      receiver.unwrap NanoCbor.rfc8949 taggedDecrypt true (message ++ List.replicate 12 0)
          message.length
        = some (.ok (data, newDataLen)) ∧ data.take newDataLen = [0x2A] := by
  obtain ⟨sender, receiver, message, next, hsender, hreceiver, hwrap, hmessage⟩ :
      ∃ sender receiver message next,
        ofParameters NanoCbor.rfc8949 taggedCose (.ofAlgorithm .asconAead128) .hkdfAscon
          (List.replicate 16 7) (List.replicate 16 0) 2 0 [1] [2] = .ok sender ∧
        ofParameters NanoCbor.rfc8949 taggedCose (.ofAlgorithm .asconAead128) .hkdfAscon
          (List.replicate 16 7) (List.replicate 16 0) 2 0 [2] [1] = .ok receiver ∧
        sender.wrap NanoCbor.rfc8949 taggedCose true [0x2A] 512 = (.ok message, next) ∧
        message.length < 2 + 2 ^ 32 := ⟨_, _, _, _, rfl, rfl, rfl, by decide⟩
  have hspare : true = true →
      coseSerializationMaxOverhead ≤ (List.replicate 12 (0 : UInt8)).length :=
    fun _ => by decide
  obtain ⟨data, newDataLen, hunwrap, htake⟩ := unwrap_wrap readsBstr_rfc8949 formatsBstr_rfc8949
    taggedCose_mirrors
    (by decide) (constructed_of_ofParameters hsender) (constructed_of_ofParameters hreceiver)
    (by decide) hwrap (fun _ => hmessage) hspare
  exact ⟨sender, receiver, message, next, data, newDataLen, hsender, hreceiver, hwrap, hunwrap,
    htake⟩

/-- The message of a long payload, compressed. -/
lemma wrap_taggedCose {s : SecurityLayer} (hbytes : s.pivBytes.length = s.pivSize)
    (hsize : s.pivSize < 24) (halg : s.aeadParams.alg = .asconAead128) {payload : List UInt8}
    (hpayload : payload.length = 2 ^ 32) :
    ∃ message next, s.wrap NanoCbor.rfc8949 taggedCose true payload (2 ^ 33) = (.ok message, next) ∧
      message.length = s.pivSize + 2 ^ 32 + 16 := by
  let ciphertext := taggedEncrypt (aeadAlgoToCoseAlgo s.aeadParams.alg) s.senderKeyBytes s.contextIv
    s.generateNonce.pivBytes payload
  have hpiv := length_pivBytes_generateNonce hbytes
  have hciphertext : ciphertext.length = 2 ^ 32 + 16 := by
    simp only [ciphertext, taggedEncrypt, List.length_append, hpayload, length_tag, halg,
      aeadAlgoToCoseAlgo, tagLength]
  have hfits : (coseMessage s.generateNonce.pivBytes ciphertext).length ≤ 2 ^ 33 := by
    have hhead := Cbor.length_head_le 2 s.generateNonce.pivBytes.length
    have hhead' := Cbor.length_head_le 2 ciphertext.length
    have hprefix : cosePrefix.length = 4 := rfl
    rw [length_coseMessage]
    omega
  have hencode : taggedCose.encryptEncode (aeadAlgoToCoseAlgo s.aeadParams.alg) s.senderKeyBytes
      s.contextIv s.generateNonce.pivBytes payload (2 ^ 33)
      = some (coseMessage s.generateNonce.pivBytes ciphertext) := if_pos hfits
  have hwrap : (s.wrap NanoCbor.rfc8949 taggedCose true payload (2 ^ 33)).1 = .ok _ :=
    wrap_of_encode readsBstr_rfc8949 hbytes hsize (by omega) hencode
  refine ⟨_, _, Prod.ext hwrap rfl, ?_⟩
  simp only [if_true, List.length_append]
  omega

/-- With compression, a payload of `2 ^ 32` bytes is wrapped and not unwrapped. -/
theorem long_payload_not_unwrapped :
    ∃ sender receiver message next,
      ofParameters NanoCbor.rfc8949 taggedCose (.ofAlgorithm .asconAead128) .hkdfAscon
        (List.replicate 16 7) (List.replicate 16 0) 2 0 [1] [2] = .ok sender ∧
      ofParameters NanoCbor.rfc8949 taggedCose (.ofAlgorithm .asconAead128) .hkdfAscon
        (List.replicate 16 7) (List.replicate 16 0) 2 0 [2] [1] = .ok receiver ∧
      sender.wrap NanoCbor.rfc8949 taggedCose true (List.replicate (2 ^ 32) 0) (2 ^ 33)
        = (.ok message, next) ∧
      ∀ spare : List UInt8, spare.length = coseSerializationMaxOverhead →
        receiver.unwrap NanoCbor.rfc8949 taggedDecrypt true (message ++ spare) message.length
          = some (.error .bufferError) := by
  obtain ⟨sender, receiver, hsender, hreceiver, halg⟩ : ∃ sender receiver,
      ofParameters NanoCbor.rfc8949 taggedCose (.ofAlgorithm .asconAead128) .hkdfAscon
        (List.replicate 16 7) (List.replicate 16 0) 2 0 [1] [2] = .ok sender ∧
      ofParameters NanoCbor.rfc8949 taggedCose (.ofAlgorithm .asconAead128) .hkdfAscon
        (List.replicate 16 7) (List.replicate 16 0) 2 0 [2] [1] = .ok receiver ∧
      sender.aeadParams.alg = .asconAead128 := ⟨_, _, rfl, rfl, rfl⟩
  have hsize := (constructed_of_ofParameters hsender).derived.2.1
  have hbytes : sender.pivBytes.length = sender.pivSize :=
    (constructed_of_ofParameters hsender).1.trans hsize.symm
  obtain ⟨message, next, hwrap, hmessage⟩ :=
    wrap_taggedCose hbytes (by omega) halg (List.length_replicate (n := 2 ^ 32) (a := (0 : UInt8)))
  refine ⟨sender, receiver, message, next, hsender, hreceiver, hwrap, fun spare hspare => ?_⟩
  exact unwrap_long readsBstr_rfc8949 formatsBstr_rfc8949 taggedCose_mirrors (by decide)
    (constructed_of_ofParameters hsender) (constructed_of_ofParameters hreceiver) (by decide) hwrap
    (by omega) hspare

end SecurityLayer
end Security
end RmwDesert
