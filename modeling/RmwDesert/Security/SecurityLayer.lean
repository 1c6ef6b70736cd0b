/-
The security layer on the sender's side (`SecurityLayer.cpp`, `AeadParams.cpp`).

A layer derives its keys and the context IV from a master secret, and wraps each payload with
a Partial IV taken from a sequence number.  The key derivation and the encryption of libcose
are parameters.
-/
import RmwDesert.Lib.BigEndian
import RmwDesert.NanoCbor
import RmwDesert.Security.SecUtils

namespace RmwDesert
namespace Security

/-! ## Algorithms -/

/-- `AeadAlgorithms`. -/
inductive AeadAlgorithms
  | asconAead128
  | asconAead128_64
  | asconAead128_32
  | a128gcm
  | unknown
deriving DecidableEq, Repr

/-- `KdfAlgorithms`. -/
inductive KdfAlgorithms
  | hkdfAscon
  | hkdfHmac256
  | unknown
deriving DecidableEq, Repr

/-- The values of `cose_algo_t` that the layer uses. -/
inductive CoseAlgo
  | asconAead128
  | asconAead128_64
  | asconAead128_32
  | a128gcm
  | hmacAsconHash256
  | hmac256
  | none
deriving DecidableEq, Repr

/-- `SecurityResult`, without `OK`. -/
inductive SecurityResult
  | paramError
  | keySizeError
  | keyEnvError
  | nonceEnvError
  | nonceSizeError
  | bufferError
  | contextDeriveError
  | compError
  | wrapError
  | unwrapError
  | internalError
deriving DecidableEq, Repr

/-- An `AeadParams`. -/
structure AeadParams where
  /-- `alg_`. -/
  alg : AeadAlgorithms
  /-- `key_size_`. -/
  keySize : ℕ
  /-- `nonce_size_`. -/
  nonceSize : ℕ
  /-- `tag_size_`. -/
  tagSize : ℕ
deriving DecidableEq, Repr

/-- The constructor of `AeadParams`. -/
def AeadParams.ofAlgorithm (alg : AeadAlgorithms) : AeadParams :=
  match alg with
  | .asconAead128 => ⟨alg, 16, 16, 16⟩
  | .asconAead128_64 => ⟨alg, 16, 16, 8⟩
  | .asconAead128_32 => ⟨alg, 16, 16, 4⟩
  | .a128gcm => ⟨alg, 16, 12, 16⟩
  | .unknown => ⟨alg, 0, 0, 0⟩

/-- The bytes of a string of the program. -/
def ascii (s : String) : List UInt8 := s.toList.map fun c => UInt8.ofNat c.toNat

/-- `env_to_aead_algo`; an error is the message for `RMW_SET_ERROR_MSG`. -/
def envToAeadAlgo (getenv : String → Option (List UInt8)) : Except String AeadAlgorithms :=
  let value := (getenv "AEAD_ALGO").getD []
  if value = ascii "Ascon-AEAD128" then .ok .asconAead128
  else if value = ascii "Ascon-AEAD128-64" then .ok .asconAead128_64
  else if value = ascii "Ascon-AEAD128-32" then .ok .asconAead128_32
  else .error "Invalid security profile"

/-- `str_to_kdf_algo`. -/
def strToKdfAlgo (str : String) : KdfAlgorithms :=
  if str = "HKDF-Ascon256" then .hkdfAscon else .unknown

/-- `aead_algo_to_cose_algo`. -/
def aeadAlgoToCoseAlgo : AeadAlgorithms → CoseAlgo
  | .asconAead128 => .asconAead128
  | .asconAead128_64 => .asconAead128_64
  | .asconAead128_32 => .asconAead128_32
  | .a128gcm => .a128gcm
  | .unknown => .none

/-- `kdf_algo_to_cose_algo`. -/
def kdfAlgoToCoseAlgo : KdfAlgorithms → CoseAlgo
  | .hkdfAscon => .hmacAsconHash256
  | .hkdfHmac256 => .hmac256
  | .unknown => .none

/-! ## The layer -/

/-- The functions of libcose. -/
structure LibCose where
  /-- The number of an algorithm. -/
  algoValue : CoseAlgo → Int64
  /-- `cose_crypto_hkdf_derive`: the bytes that it writes, if it returns `COSE_OK`. -/
  hkdfDerive : (salt ikm info : List UInt8) → (length : ℕ) → CoseAlgo → Option (List UInt8)
  /-- `cose_encrypt_encode` with one unprotected header for the Partial IV: the message, if
  its length is positive. -/
  encryptEncode : CoseAlgo → (key contextIv partialIv payload : List UInt8) → (maxLen : ℕ) →
    Option (List UInt8)

/-- The options of the build (`config.cmake`). -/
structure BuildConfig where
  /-- `KDF_ALGO`. -/
  kdfAlgo : String
  /-- `PIV_LEN`. -/
  pivLen : ℕ

/-- The values in `config.cmake`. -/
def BuildConfig.default : BuildConfig := ⟨"HKDF-Ascon256", 2⟩

/-- A `SecurityLayer`. -/
structure SecurityLayer where
  /-- `aead_params_`. -/
  aeadParams : AeadParams
  /-- `kdf_`. -/
  kdf : KdfAlgorithms
  /-- `context_iv_`. -/
  contextIv : List UInt8
  /-- `piv_size_`. -/
  pivSize : ℕ
  /-- `piv_bytes_`. -/
  pivBytes : List UInt8
  /-- `sender_seq_number_`. -/
  senderSeqNumber : UInt64
  /-- `sender_id_`. -/
  senderId : List UInt8
  /-- `sender_key_bytes_`. -/
  senderKeyBytes : List UInt8
  /-- `receiver_id_`. -/
  receiverId : List UInt8
  /-- `receiver_key_bytes_`. -/
  receiverKeyBytes : List UInt8
deriving DecidableEq, Repr

/-- `COSE_INTERNAL_BUF_SIZE`. -/
def coseInternalBufSize : ℕ := 512

/-- `DEFAULT_MASTER_SALT_LEN`. -/
def defaultMasterSaltLen : ℕ := 16

section

variable (N : NanoCbor) (C : LibCose)

/-- `build_kdf_info`: the info structure, if it fits in the internal buffer. -/
def buildKdfInfo (id : List UInt8) (alg : CoseAlgo) (type : String) (len : ℕ) :
    Except SecurityResult (List UInt8) :=
  let info := N.fmtArray 4 ++ N.putBstr id ++ N.fmtInt (C.algoValue alg)
    ++ N.putTstrn (ascii type) ++ N.fmtUint (UInt64.ofNat len)
  if info.length ≤ coseInternalBufSize then .ok info else .error .bufferError

/-- What `derive_key` and `derive_iv` have in common. -/
def derive (type : String) (size : AeadParams → ℕ) (params : AeadParams) (kdf : KdfAlgorithms)
    (ikm masterSalt id : List UInt8) (alg : CoseAlgo) : Except SecurityResult (List UInt8) := do
  let info ← buildKdfInfo N C id alg type (size params)
  match C.hkdfDerive masterSalt (ikm.take params.keySize) info (size params)
      (kdfAlgoToCoseAlgo kdf) with
  | some out => return out
  | none => throw .contextDeriveError

/-- `derive_key`. -/
def deriveKey := derive N C "Key" AeadParams.keySize

/-- `derive_iv`. -/
def deriveIv (params : AeadParams) (kdf : KdfAlgorithms) (ikm masterSalt : List UInt8)
    (alg : CoseAlgo) : Except SecurityResult (List UInt8) :=
  derive N C "IV" AeadParams.nonceSize params kdf ikm masterSalt [] alg

/-- `get_master_key_env`. -/
def getMasterKeyEnv (getenv : String → Option (List UInt8)) (params : AeadParams) :
    Except SecurityResult (List UInt8) :=
  match getenv "MASTER_SECRET_KEY" with
  | none => .error .keyEnvError
  | some value =>
    let (decoded, masterKey) := decodeHex value []
    if ¬ decoded then .error .keyEnvError
    else if masterKey.length < params.keySize then .error .keySizeError
    else .ok masterKey

namespace SecurityLayer

/-- `derive_context`. -/
def deriveContext (masterKey masterSalt : List UInt8) (s : SecurityLayer) :
    Except SecurityResult SecurityLayer :=
  let algo := aeadAlgoToCoseAlgo s.aeadParams.alg
  if algo = .none then .error .paramError
  else do
    let senderKey ← deriveKey N C s.aeadParams s.kdf masterKey masterSalt s.senderId algo
    let receiverKey ← deriveKey N C s.aeadParams s.kdf masterKey masterSalt s.receiverId algo
    let contextIv ← deriveIv N C s.aeadParams s.kdf masterKey masterSalt algo
    return { s with
      senderKeyBytes := senderKey, receiverKeyBytes := receiverKey, contextIv := contextIv }

/-- The constructor that takes the parameters; an error is the message for
`RMW_SET_ERROR_MSG`. -/
def ofParameters (aeadParams : AeadParams) (kdf : KdfAlgorithms) (masterKey masterSalt : List UInt8)
    (pivSize : ℕ) (senderSeqNumber : UInt64) (senderId receiverId : List UInt8) :
    Except String SecurityLayer :=
  let s : SecurityLayer := ⟨aeadParams, kdf, [], pivSize, List.replicate pivSize 0, senderSeqNumber,
    senderId, [], receiverId, []⟩
  match s.deriveContext N C masterKey masterSalt with
  | .ok s => .ok s
  | .error _ => .error "Security context initialization error"

/-- An identifier in hexadecimal. -/
def identifierEnv (getenv : String → Option (List UInt8)) (name message : String) :
    Except String (List UInt8) :=
  match getenv name with
  | none => .error message
  | some value =>
    match decodeHex value [] with
    | (true, id) => .ok id
    | (false, _) => .error message

/-- `master_salt` in the default constructor. -/
def masterSaltEnv (getenv : String → Option (List UInt8)) : List UInt8 :=
  match getenv "MASTER_SALT" with
  | none => List.replicate defaultMasterSaltLen 0
  | some value =>
    match decodeHex value [] with
    | (true, salt) => salt
    | (false, _) => List.replicate defaultMasterSaltLen 0

/-- The default constructor, which reads the environment. -/
def ofEnvironment (config : BuildConfig) (getenv : String → Option (List UInt8)) :
    Except String SecurityLayer := do
  let aeadParams := AeadParams.ofAlgorithm (← envToAeadAlgo getenv)
  let senderId ← identifierEnv getenv "SENDER_ID" "Failed to parse the sender id"
  let receiverId ← identifierEnv getenv "RECEIVER_ID" "Failed to parse the receiver id"
  match getMasterKeyEnv getenv aeadParams with
  | .error _ => throw "Failed to parse the encryption key"
  | .ok masterKey =>
    ofParameters N C aeadParams (strToKdfAlgo config.kdfAlgo) masterKey (masterSaltEnv getenv)
      config.pivLen 0 senderId receiverId

/-! ## Wrapping -/

/-- `generate_nonce`, which always returns `OK`: the last bytes of `htonl(sender_seq_number_)`
are copied over the first bytes of the Partial IV. -/
def generateNonce (s : SecurityLayer) : SecurityLayer :=
  let seq := BigEndian.encode 4 s.senderSeqNumber.toNat
  let offset := min 4 s.pivSize
  { s with pivBytes := seq.drop (4 - offset) ++ s.pivBytes.drop offset }

/-- `cose_stateless_compress`: the Partial IV and the ciphertext, without the rest of the
message. -/
def coseStatelessCompress (cose : List UInt8) (s : SecurityLayer) :
    Except SecurityResult (List UInt8) :=
  let piv := cose.drop 5
  match N.getBstr (piv.drop s.pivSize) with
  | some (ciphertext, _) => .ok (piv.take s.pivSize ++ ciphertext)
  | none => .error .compError

/-- `wrap`: the message or the error, and the layer afterwards.  `compress` says whether
`COSE_STATELESS_COMP_ENABLED` is set. -/
def wrap (compress : Bool) (payload : List UInt8) (dataMaxLen : ℕ) (s : SecurityLayer) :
    Except SecurityResult (List UInt8) × SecurityLayer :=
  let s := s.generateNonce
  let next := { s with senderSeqNumber := s.senderSeqNumber + 1 }
  match C.encryptEncode (aeadAlgoToCoseAlgo s.aeadParams.alg) s.senderKeyBytes s.contextIv
      s.pivBytes payload dataMaxLen with
  | none | some [] => (.error .wrapError, s)
  | some message =>
    if compress then
      match s.coseStatelessCompress N message with
      | .error e => (.error e, s)
      | .ok message => (.ok message, next)
    else (.ok message, next)

end SecurityLayer

end

end Security
end RmwDesert
