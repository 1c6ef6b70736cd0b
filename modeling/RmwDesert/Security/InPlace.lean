/-
Stateless compression in place (`SecurityLayer.cpp`).

Both directions move the Partial IV and the ciphertext within the buffer of the message, over
bytes that are still needed or no longer needed.  Here the calls return what they leave in the
buffer, on every path.  The main results are

* `compression_in_place`: each direction undoes the other;
* `decompressInPlace_safe`: on a packet of any length, decompression stays within the buffer
  that `interpret_packets` provides.
-/
import RmwDesert.Security.Unwrap

namespace RmwDesert
namespace Security
namespace SecurityLayer

/-- `cose_stateless_compress` on a buffer: the length of the compressed message or the error,
and the buffer afterwards; `none` means an access outside the buffer. -/
def compressInPlace (N : NanoCbor) (cose : List UInt8) (coseLen : ℕ) (s : SecurityLayer) :
    Option (Except SecurityResult ℕ × List UInt8) := do
  let pivOffset := 5
  let ciphertextBstr := pivOffset + s.pivSize
  let ciphertextBstrLen := (coseLen + 2 ^ 64 - ciphertextBstr) % 2 ^ 64
  let v ← Buffer.read ciphertextBstr ciphertextBstrLen cose
  match N.getBstr v with
  | none => some (.error .compError, cose)
  | some (ciphertext, rest) => do
    -- the decoder returns a pointer to the bytes behind the header
    let offset := ciphertextBstr + (v.length - (ciphertext ++ rest).length)
    let cose ← Buffer.memmove 0 pivOffset s.pivSize cose
    let cose ← Buffer.memmove s.pivSize offset ciphertext.length cose
    some (.ok (s.pivSize + ciphertext.length), cose)

/-- `cose_stateless_decompress`, with the buffer that it leaves. -/
def decompressInPlace (N : NanoCbor) (data : List UInt8) (dataLen : ℕ) (s : SecurityLayer) :
    Option (Except SecurityResult ℕ × List UInt8) :=
  let payloadLen := (dataLen + 2 ^ 64 - s.pivSize) % 2 ^ 64
  let pivInd := N.fmtBstr s.pivSize
  let plInd := N.fmtBstr payloadLen
  let decompressedLen :=
    (cosePrefix.length + pivInd.length + s.pivSize + plInd.length + payloadLen) % 2 ^ 64
  if data.length < decompressedLen then some (.error .bufferError, data)
  else do
    let data ← s.expand pivInd plInd payloadLen data
    if payloadLen < plInd.length then some (.error .internalError, data)
    else
      let data ← Buffer.write (s.pivSize + (cosePrefix.length + pivInd.length)) plInd data
      some (.ok decompressedLen, data)

/-- What `coseStatelessDecompress` keeps of the buffer. -/
lemma coseStatelessDecompress_eq_map (data : List UInt8) (dataLen : ℕ) (s : SecurityLayer) :
    s.coseStatelessDecompress N data dataLen
      = (s.decompressInPlace N data dataLen).map fun r => r.1.map fun n => (r.2, n) := by
  simp only [coseStatelessDecompress, decompressInPlace]
  split_ifs
  · rfl
  · simp only [Option.bind_eq_bind, Option.map_bind]
    rfl
  · simp only [Option.bind_eq_bind, Option.map_bind]
    congr 1
    funext data
    rw [Function.comp_apply, Option.map_bind]
    rfl

section

variable {N : NanoCbor} {s : SecurityLayer} {partialIv ciphertext spare : List UInt8}

variable (spare) in
/-- Compression moves the Partial IV to the front, and the ciphertext behind it. -/
lemma compressInPlace_eq (hN : ReadsBstr N) (hpiv : partialIv.length = s.pivSize)
    (hsize : s.pivSize < 24) (hlen : (coseMessage partialIv ciphertext).length < 2 ^ 64) :
    ∃ rest, s.compressInPlace N (coseMessage partialIv ciphertext ++ spare)
        (coseMessage partialIv ciphertext).length
      = some (.ok (partialIv ++ ciphertext).length, partialIv ++ ciphertext ++ rest) ∧
      rest.length = cosePrefix.length + (Cbor.head 2 partialIv.length).length
        + (Cbor.head 2 ciphertext.length).length + spare.length := by
  let start := cosePrefix ++ Cbor.head 2 partialIv.length
  let header := Cbor.head 2 ciphertext.length
  have hstart : start.length = 5 := by
    rw [List.length_append, length_head_of_lt (hpiv ▸ hsize)]
    rfl
  have hmessage := length_coseMessage partialIv ciphertext
  have hstartLen : start.length = cosePrefix.length + (Cbor.head 2 partialIv.length).length :=
    List.length_append
  have hheader : header.length = (Cbor.head 2 ciphertext.length).length := rfl
  have hbuffer : coseMessage partialIv ciphertext ++ spare
      = start ++ partialIv ++ (header ++ ciphertext ++ spare) := by
    simp only [coseMessage, bstr, start, header, List.append_assoc]
  -- the bytes that the decoder gets
  have hbstrLen : ((coseMessage partialIv ciphertext).length + 2 ^ 64 - (5 + s.pivSize)) % 2 ^ 64
      = (header ++ ciphertext).length := by
    rw [List.length_append]
    omega
  have hread : Buffer.read (5 + s.pivSize) (header ++ ciphertext).length
      (start ++ partialIv ++ (header ++ ciphertext ++ spare)) = some (header ++ ciphertext) := by
    have hpiece := Buffer.read_piece (start ++ partialIv) (header ++ ciphertext) spare
    rwa [List.length_append, hstart, hpiv, List.append_assoc (start ++ partialIv)] at hpiece
  have hget : N.getBstr (header ++ ciphertext) = some (ciphertext, []) := by
    have hdecode := hN [] (s := ciphertext) (by omega)
    rwa [List.append_nil] at hdecode
  -- the two moves, each over what the one before has left
  obtain ⟨left, hleft, hmovePiv⟩ :=
    Buffer.memmove_back [] start partialIv (header ++ ciphertext ++ spare)
  obtain ⟨left', hleft', hmoveCiphertext⟩ :=
    Buffer.memmove_back partialIv (left ++ header) ciphertext spare
  refine ⟨left' ++ spare, ?_, ?_⟩
  · have hoffset : 5 + s.pivSize
        + ((header ++ ciphertext).length - (ciphertext ++ []).length)
        = partialIv.length + (left ++ header).length := by
      simp only [List.length_append, List.length_nil, hleft, hpiv]
      omega
    simp only [List.nil_append, List.length_nil, Nat.zero_add, hstart, hpiv] at hmovePiv
    simp only [List.append_assoc] at hmoveCiphertext hmovePiv hread
    simp only [compressInPlace, hbuffer, hbstrLen, List.append_assoc, hread, Option.bind_eq_bind,
      Option.bind_some, hget]
    rw [hmovePiv, Option.bind_some, hoffset, ← hpiv, hmoveCiphertext, Option.bind_some,
      List.length_append]
  · rw [List.length_append, hleft', List.length_append, hleft, hstartLen]

/-- Decompression moves them apart, and writes the headers between. -/
lemma decompressInPlace_eq (hfmt : FormatsBstr N) (hpiv : partialIv.length = s.pivSize)
    (hciphertext : 0 < ciphertext.length)
    (hlen : (coseMessage partialIv ciphertext).length < 2 ^ 64)
    (hroom : (coseMessage partialIv ciphertext).length
      ≤ (partialIv ++ ciphertext ++ spare).length) :
    ∃ rest, s.decompressInPlace N (partialIv ++ ciphertext ++ spare)
        (partialIv ++ ciphertext).length
      = some (.ok (coseMessage partialIv ciphertext).length,
          coseMessage partialIv ciphertext ++ rest) := by
  have hspare : cosePrefix.length + (Cbor.head 2 partialIv.length).length
      + (Cbor.head 2 ciphertext.length).length ≤ spare.length := by
    rw [length_coseMessage] at hroom
    simp only [List.length_append] at hroom
    omega
  obtain ⟨rest, hdecompress⟩ := coseStatelessDecompress_eq hfmt hpiv hciphertext hlen hspare
  rw [coseStatelessDecompress_eq_map, Option.map_eq_some_iff] at hdecompress
  obtain ⟨⟨result, data⟩, heq, hresult⟩ := hdecompress
  refine ⟨rest, ?_⟩
  rw [heq]
  cases result with
  | error e => cases hresult
  | ok outLen =>
    obtain ⟨rfl, rfl⟩ := Prod.mk.inj (Except.ok.inj hresult)
    rfl

end

variable {N : NanoCbor} {s : SecurityLayer}

/-- **Compression in place.** In any buffer that holds the message, compression leaves the
Partial IV and the ciphertext, from which decompression gets the message back; and the other
way round, in a buffer with room for the message. -/
theorem compression_in_place (hN : ReadsBstr N) (hfmt : FormatsBstr N)
    (hsize : 1 ≤ s.pivSize ∧ s.pivSize ≤ 16)
    {partialIv ciphertext : List UInt8} (hpiv : partialIv.length = s.pivSize)
    (hciphertext : 1 ≤ ciphertext.length)
    (hlen : (coseMessage partialIv ciphertext).length < 2 ^ 64) :
    let message := coseMessage partialIv ciphertext
    let compressed := partialIv ++ ciphertext
    (∀ spare, ∃ rest,
      s.compressInPlace N (message ++ spare) message.length
        = some (.ok compressed.length, compressed ++ rest) ∧
      ∃ rest', s.decompressInPlace N (compressed ++ rest) compressed.length
        = some (.ok message.length, message ++ rest')) ∧
    ∀ spare, message.length ≤ (compressed ++ spare).length → ∃ rest,
      s.decompressInPlace N (compressed ++ spare) compressed.length
        = some (.ok message.length, message ++ rest) ∧
      ∃ rest', s.compressInPlace N (message ++ rest) message.length
        = some (.ok compressed.length, compressed ++ rest') := by
  have hshort : s.pivSize < 24 := by omega
  refine ⟨fun spare => ?_, fun spare hroom => ?_⟩
  · obtain ⟨rest, hcompress, hrest⟩ := compressInPlace_eq spare hN hpiv hshort hlen
    have hroom : (coseMessage partialIv ciphertext).length
        ≤ (partialIv ++ ciphertext ++ rest).length := by
      rw [length_coseMessage, List.length_append, List.length_append]
      omega
    exact ⟨rest, hcompress, decompressInPlace_eq hfmt hpiv hciphertext hlen hroom⟩
  · obtain ⟨rest, hdecompress⟩ := decompressInPlace_eq hfmt hpiv hciphertext hlen hroom
    obtain ⟨rest', hcompress, -⟩ := compressInPlace_eq rest hN hpiv hshort hlen
    exact ⟨rest, hdecompress, rest', hcompress⟩

/-- A layer with Partial IVs of two bytes. -/
def twoBytePiv : SecurityLayer :=
  ⟨.ofAlgorithm .asconAead128, .hkdfAscon, [], 2, [0, 0], 0, [1], [], [2], []⟩

/-- A ciphertext of three bytes, in a buffer that holds just the message. -/
theorem compression_in_place_short :
    let message := coseMessage [0, 1] [7, 8, 9]
    ∃ rest, twoBytePiv.compressInPlace .rfc8949 (message ++ []) message.length
        = some (.ok [0, 1, 7, 8, 9].length, [0, 1, 7, 8, 9] ++ rest) ∧
      ∃ rest', twoBytePiv.decompressInPlace .rfc8949 ([0, 1, 7, 8, 9] ++ rest)
          [0, 1, 7, 8, 9].length
        = some (.ok message.length, message ++ rest') :=
  (compression_in_place readsBstr_rfc8949 formatsBstr_rfc8949 (by decide)
    (rfl : ([0, 1] : List UInt8).length = twoBytePiv.pivSize)
    (by decide : 1 ≤ ([7, 8, 9] : List UInt8).length) (by decide)).1 []

/-! ## Packets of any length -/

lemma length_of_expand {pivInd plInd data result : List UInt8} {payloadLen : ℕ}
    (h : s.expand pivInd plInd payloadLen data = some result) : result.length = data.length := by
  obtain ⟨first, hfirst, h⟩ := Option.bind_eq_some_iff.mp h
  obtain ⟨second, hsecond, h⟩ := Option.bind_eq_some_iff.mp h
  obtain ⟨third, hthird, h⟩ := Option.bind_eq_some_iff.mp h
  rw [Buffer.length_of_write h, Buffer.length_of_write hthird, Buffer.length_of_memmove hsecond,
    Buffer.length_of_memmove hfirst]

lemma length_of_decompressInPlace {data data' : List UInt8} {dataLen : ℕ}
    {result : Except SecurityResult ℕ}
    (h : s.decompressInPlace N data dataLen = some (result, data')) :
    data'.length = data.length := by
  simp only [decompressInPlace] at h
  split_ifs at h
  · obtain ⟨-, rfl⟩ := Prod.mk.inj (Option.some.inj h)
    rfl
  · obtain ⟨moved, hmoved, h⟩ := Option.bind_eq_some_iff.mp h
    obtain ⟨-, rfl⟩ := Prod.mk.inj (Option.some.inj h)
    exact length_of_expand hmoved
  · obtain ⟨moved, hmoved, h⟩ := Option.bind_eq_some_iff.mp h
    obtain ⟨written, hwritten, h⟩ := Option.bind_eq_some_iff.mp h
    obtain ⟨-, rfl⟩ := Prod.mk.inj (Option.some.inj h)
    rw [Buffer.length_of_write hwritten, length_of_expand hmoved]

section

variable {data : List UInt8} {dataLen : ℕ}

/-- A packet shorter than the Partial IV: the length of the payload wraps around, its header
takes nine bytes, and the message would be two bytes longer than the buffer. -/
lemma decompressInPlace_of_lt (hfmt : FormatsBstr N) (hpiv : s.pivSize ≤ 16)
    (hdataLen : dataLen < s.pivSize)
    (hmax : data.length = dataLen + coseSerializationMaxOverhead) :
    s.decompressInPlace N data dataLen = some (.error .bufferError, data) := by
  -- `payload_len` wraps around
  have hpayload : (dataLen + 2 ^ 64 - s.pivSize) % 2 ^ 64 = dataLen + 2 ^ 64 - s.pivSize :=
    Nat.mod_eq_of_lt (by omega)
  have hpivInd := length_head_of_lt (n := s.pivSize) (by omega)
  have hplInd := Cbor.length_head_of_le 2 (n := dataLen + 2 ^ 64 - s.pivSize) (by omega)
  have hprefixLen : cosePrefix.length = 4 := rfl
  -- and the sum wraps around once more
  have hdecompressed : (cosePrefix.length + (Cbor.head 2 s.pivSize).length + s.pivSize
      + (Cbor.head 2 (dataLen + 2 ^ 64 - s.pivSize)).length
      + (dataLen + 2 ^ 64 - s.pivSize)) % 2 ^ 64 = dataLen + 14 := by
    rw [hprefixLen, hpivInd, hplInd]
    omega
  have hfmtPiv : N.fmtBstr s.pivSize = Cbor.head 2 s.pivSize := hfmt (by omega)
  have hfmtPayload : N.fmtBstr (dataLen + 2 ^ 64 - s.pivSize)
      = Cbor.head 2 (dataLen + 2 ^ 64 - s.pivSize) := hfmt (by omega)
  simp only [decompressInPlace, hpayload, hfmtPiv, hfmtPayload, hdecompressed]
  rw [if_pos]
  rw [hmax, coseSerializationMaxOverhead]
  omega

/-- A packet that ends with the Partial IV: the second header does not fit in a payload of no
bytes. -/
lemma decompressInPlace_of_eq (hfmt : FormatsBstr N) (hpiv : s.pivSize ≤ 16)
    (hdataLen : dataLen = s.pivSize)
    (hmax : data.length = dataLen + coseSerializationMaxOverhead) :
    ∃ data', s.decompressInPlace N data dataLen = some (.error .internalError, data') := by
  subst hdataLen
  have hpayload : (s.pivSize + 2 ^ 64 - s.pivSize) % 2 ^ 64 = 0 := by omega
  have hpivInd := length_head_of_lt (n := s.pivSize) (by omega)
  have hprefixLen : cosePrefix.length = 4 := rfl
  obtain ⟨partialIv, spare, rfl, hpivLen, hspare⟩ := Buffer.exists_append hmax
  have hroom : cosePrefix.length + (Cbor.head 2 s.pivSize).length + (Cbor.head 2 0).length
      ≤ spare.length := by
    rw [hprefixLen, hpivInd, hspare]
    decide
  obtain ⟨hole, rest, -, hexpand⟩ := @expand_eq s _ _ partialIv [] spare hpivLen hroom
  rw [List.append_nil, List.length_nil] at hexpand
  have hfits : ¬ (partialIv ++ spare).length < (cosePrefix.length
      + (Cbor.head 2 s.pivSize).length + s.pivSize + (Cbor.head 2 0).length + 0) % 2 ^ 64 := by
    have hplInd : (Cbor.head 2 0).length = 1 := rfl
    rw [hprefixLen, hpivInd, hplInd, hmax, coseSerializationMaxOverhead]
    omega
  refine ⟨cosePrefix ++ Cbor.head 2 s.pivSize ++ partialIv ++ hole ++ [] ++ rest, ?_⟩
  have hfmtPiv : N.fmtBstr s.pivSize = Cbor.head 2 s.pivSize := hfmt (by omega)
  have hfmtPayload : N.fmtBstr 0 = Cbor.head 2 0 := hfmt (by omega)
  simp only [decompressInPlace, hpayload, hfmtPiv, hfmtPayload]
  rw [if_neg hfits, hexpand]
  rfl

/-- A packet with a payload: the message, if it fits in the buffer. -/
lemma decompressInPlace_of_gt (hfmt : FormatsBstr N) (hpiv : s.pivSize ≤ 16)
    (hdataLen : s.pivSize < dataLen)
    (hlen : dataLen < 2 ^ 63) (hmax : data.length = dataLen + coseSerializationMaxOverhead) :
    let message := coseMessage (data.take s.pivSize) ((data.take dataLen).drop s.pivSize)
    if message.length ≤ data.length then ∃ rest,
      s.decompressInPlace N data dataLen = some (.ok message.length, message ++ rest)
    else ∃ data', s.decompressInPlace N data dataLen = some (.error .bufferError, data') := by
  obtain ⟨packet, spare, rfl, hpacket, hspare⟩ := Buffer.exists_append hmax
  obtain ⟨k, hk⟩ := Nat.exists_eq_add_of_lt hdataLen
  obtain ⟨partialIv, ciphertext, rfl, hpivLen, hciphertext⟩ := Buffer.exists_append
    (m := s.pivSize) (n := k + 1) (l := packet) (by omega)
  have htakePiv : (partialIv ++ ciphertext ++ spare).take s.pivSize = partialIv := by
    rw [← hpivLen, List.append_assoc, List.take_left]
  have htakePacket : (partialIv ++ ciphertext ++ spare).take dataLen
      = partialIv ++ ciphertext := by
    rw [← hpacket, List.take_left]
  have hdropPiv : (partialIv ++ ciphertext).drop s.pivSize = ciphertext := by
    rw [← hpivLen, List.drop_left]
  -- from here on the packet is its two parts
  rw [htakePiv, htakePacket, hdropPiv, ← hpacket]
  have hhead := Cbor.length_head_le 2 partialIv.length
  have hhead' := Cbor.length_head_le 2 ciphertext.length
  have hprefixLen : cosePrefix.length = 4 := rfl
  have hmessage := length_coseMessage partialIv ciphertext
  have hpacketLen : (partialIv ++ ciphertext).length = partialIv.length + ciphertext.length :=
    List.length_append
  have hmessageLen : (coseMessage partialIv ciphertext).length < 2 ^ 64 := by omega
  intro message
  split_ifs with hroom
  · exact decompressInPlace_eq hfmt hpivLen (by omega) hmessageLen hroom
  · have hshort : spare.length < cosePrefix.length + (Cbor.head 2 partialIv.length).length
        + (Cbor.head 2 ciphertext.length).length := by
      rw [List.length_append, hpacketLen, hmessage] at hroom
      omega
    have hrefused := coseStatelessDecompress_of_lt hfmt hpivLen hmessageLen hshort
    rw [coseStatelessDecompress_eq_map, Option.map_eq_some_iff] at hrefused
    obtain ⟨⟨result, data'⟩, heq, hresult⟩ := hrefused
    refine ⟨data', heq.trans ?_⟩
    cases result with
    | error e => rw [Except.error.inj hresult]
    | ok outLen => cases hresult

end

/-- What a call on a packet may do: it returns the message, which fits in the buffer, or an
error, and a packet shorter than the Partial IV is refused with the buffer as it was. -/
def SafeResult (s : SecurityLayer) (data : List UInt8) (dataLen : ℕ)
    (result : Except SecurityResult ℕ) (data' : List UInt8) : Prop :=
  let message := coseMessage (data.take s.pivSize) ((data.take dataLen).drop s.pivSize)
  data'.length = data.length ∧
    (∀ outLen, result = .ok outLen →
      outLen = message.length ∧ outLen ≤ data.length ∧ data'.take outLen = message) ∧
    (dataLen < s.pivSize → result = .error .bufferError ∧ data' = data)

/-- **Decompression is safe.** A received packet of any length, with the spare bytes behind it,
is decompressed within the buffer. -/
theorem decompressInPlace_safe (hfmt : FormatsBstr N) (hpiv : s.pivSize ≤ 16)
    {data : List UInt8} {dataLen : ℕ} (hlen : dataLen < 2 ^ 63)
    (hmax : data.length = dataLen + coseSerializationMaxOverhead) :
    ∃ result data', s.decompressInPlace N data dataLen = some (result, data') ∧
      SafeResult s data dataLen result data' := by
  rcases Nat.lt_trichotomy dataLen s.pivSize with hlt | heq | hgt
  · exact ⟨_, _, decompressInPlace_of_lt hfmt hpiv hlt hmax, rfl, nofun, fun _ => ⟨rfl, rfl⟩⟩
  · obtain ⟨data', h⟩ := decompressInPlace_of_eq hfmt hpiv heq hmax
    exact ⟨_, _, h, length_of_decompressInPlace h, nofun, fun hlt => absurd hlt (by omega)⟩
  · have h := decompressInPlace_of_gt hfmt hpiv hgt hlen hmax
    simp only at h
    split_ifs at h with hroom
    · obtain ⟨rest, h⟩ := h
      refine ⟨_, _, h, length_of_decompressInPlace h, fun outLen hok => ?_,
        fun hlt => absurd hlt (by omega)⟩
      obtain rfl := Except.ok.inj hok
      exact ⟨rfl, hroom, List.take_left⟩
    · obtain ⟨data', h⟩ := h
      exact ⟨_, _, h, length_of_decompressInPlace h, nofun, fun hlt => absurd hlt (by omega)⟩

/-- A packet of one byte, where the Partial IV has two. -/
theorem decompressInPlace_safe_oneByte : ∃ result data',
    twoBytePiv.decompressInPlace .rfc8949 (7 :: List.replicate 12 0) 1 = some (result, data') ∧
      SafeResult twoBytePiv (7 :: List.replicate 12 0) 1 result data' :=
  decompressInPlace_safe formatsBstr_rfc8949 (by decide) (by decide) rfl

end SecurityLayer
end Security
end RmwDesert
