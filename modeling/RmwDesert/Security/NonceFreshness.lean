/-
The nonces of a security layer.

The nonce of a message is determined by the context IV and the Partial IV, and the Partial IV
by the low bytes of a sequence number that starts at 0 in every process.  The main results are

* `nonce_freshness_iff`: in one process the nonces are different if and only if no message is
  sealed after the sequence number has gone around the Partial IV;
* `restart_freshness_iff`: in two processes with the same secrets they are different if and
  only if in one of them no message can be sealed.
-/
import RmwDesert.Lib.Counter
import RmwDesert.Lib.Transition
import RmwDesert.Security.SecurityLayer

namespace RmwDesert
namespace Security

/-- What a message is encrypted with. -/
structure Usage where
  /-- The sender key. -/
  key : List UInt8
  /-- The context IV. -/
  contextIv : List UInt8
  /-- The Partial IV. -/
  partialIv : List UInt8
deriving DecidableEq, Repr

/-- The arguments of a call of `wrap`. -/
structure WrapCall where
  /-- `COSE_STATELESS_COMP_ENABLED`. -/
  compress : Bool
  /-- The payload. -/
  payload : List UInt8
  /-- `data_max_len`. -/
  dataMaxLen : ℕ
deriving DecidableEq, Repr

namespace SecurityLayer

/-- What the layer encrypts with. -/
def usage (s : SecurityLayer) : Usage := ⟨s.senderKeyBytes, s.contextIv, s.pivBytes⟩

/-- What the calls of `wrap` that return `OK` encrypt with, in the order of the calls. -/
def used (N : NanoCbor) (C : LibCose) : SecurityLayer → List WrapCall → List Usage
  | _, [] => []
  | s, call :: calls =>
    match s.wrap N C call.compress call.payload call.dataMaxLen with
    | (.ok _, next) => next.usage :: used N C next calls
    | (.error _, next) => used N C next calls

/-- Whether libcose encrypts the payload with the next Partial IV, to a message that can be
compressed where that is asked for. -/
def seals (N : NanoCbor) (C : LibCose) (s : SecurityLayer) (call : WrapCall) : Bool :=
  let s := s.generateNonce
  match C.encryptEncode (aeadAlgoToCoseAlgo s.aeadParams.alg) s.senderKeyBytes s.contextIv
      s.pivBytes call.payload call.dataMaxLen with
  | none | some [] => false
  | some message => !call.compress || (N.getBstr ((message.drop 5).drop s.pivSize)).isSome

/-- A call of `wrap` as a step, also if it fails. -/
def wrapStep (N : NanoCbor) (C : LibCose) (s : SecurityLayer) (call : WrapCall) :
    Except SecurityResult SecurityLayer :=
  .ok (s.wrap N C call.compress call.payload call.dataMaxLen).2

/-- A message is sealed only while the sequence number has not gone around the Partial IV
since the layer `start`. -/
def InPeriod (N : NanoCbor) (C : LibCose) (start s : SecurityLayer) (call : WrapCall) : Prop :=
  s.seals N C call = true →
    (s.senderSeqNumber - start.senderSeqNumber).toNat < 256 ^ min 4 start.pivSize

/-- The Partial IV at a sequence number. -/
def partialIvAt (s : SecurityLayer) (n : ℕ) : List UInt8 :=
  BigEndian.encode (min 4 s.pivSize) n ++ s.pivBytes.drop (min 4 s.pivSize)

/-- What the layer encrypts with at a sequence number. -/
def usageAt (s : SecurityLayer) (n : ℕ) : Usage :=
  ⟨s.senderKeyBytes, s.contextIv, s.partialIvAt n⟩

/-- The Partial IV is as wide as the sequence number in it. -/
lemma partialIvAt_eq_iff (s : SecurityLayer) {m n : ℕ} :
    s.partialIvAt m = s.partialIvAt n
      ↔ m % 256 ^ min 4 s.pivSize = n % 256 ^ min 4 s.pivSize := by
  rw [← BigEndian.encode_eq_encode_iff, partialIvAt, partialIvAt]
  exact List.append_left_inj _

/-- The rest of what the layer encrypts with is fixed. -/
lemma usageAt_eq_iff (s : SecurityLayer) {m n : ℕ} :
    s.usageAt m = s.usageAt n ↔ m % 256 ^ min 4 s.pivSize = n % 256 ^ min 4 s.pivSize := by
  rw [← partialIvAt_eq_iff]
  constructor
  · exact congrArg Usage.partialIv
  · intro h
    rw [usageAt, usageAt, h]

lemma usage_generateNonce (s : SecurityLayer) :
    s.generateNonce.usage = s.usageAt s.senderSeqNumber.toNat := by
  simp only [generateNonce, usage, usageAt, partialIvAt,
    BigEndian.drop_encode (Nat.min_le_left 4 s.pivSize)]

lemma generateNonce_generateNonce (s : SecurityLayer) :
    s.generateNonce.generateNonce = s.generateNonce := by
  simp only [generateNonce, BigEndian.drop_encode (Nat.min_le_left 4 s.pivSize)]
  rw [List.drop_left' (BigEndian.length_encode _ _)]

/-- A new Partial IV replaces the one before. -/
lemma usageAt_generateNonce (s : SecurityLayer) : s.generateNonce.usageAt = s.usageAt := by
  funext n
  simp only [generateNonce, usageAt, partialIvAt,
    BigEndian.drop_encode (Nat.min_le_left 4 s.pivSize)]
  rw [List.drop_left' (BigEndian.length_encode _ _)]

/-! ## One process -/

variable {N : NanoCbor} {C : LibCose}

/-- `wrap` takes a new Partial IV, and counts the message if it is sealed. -/
lemma wrap_cases (s : SecurityLayer) (call : WrapCall) :
    (s.seals N C call = true ∧ ∃ message, s.wrap N C call.compress call.payload call.dataMaxLen
      = (.ok message, { s.generateNonce with senderSeqNumber := s.senderSeqNumber + 1 })) ∨
    (s.seals N C call = false ∧ ∃ e,
      s.wrap N C call.compress call.payload call.dataMaxLen = (.error e, s.generateNonce)) := by
  simp only [wrap, seals]
  rcases C.encryptEncode _ _ _ _ call.payload call.dataMaxLen with - | - | ⟨b, message⟩
  · exact Or.inr ⟨rfl, _, rfl⟩
  · exact Or.inr ⟨rfl, _, rfl⟩
  · cases hcompress : call.compress with
    | false => exact Or.inl ⟨rfl, _, rfl⟩
    | true =>
      simp only [coseStatelessCompress, if_true]
      cases N.getBstr (((b :: message).drop 5).drop s.generateNonce.pivSize) with
      | none => exact Or.inr ⟨rfl, _, rfl⟩
      | some read => exact Or.inl ⟨rfl, _, rfl⟩

/-- The messages take the values of the counter in their order. -/
lemma used_eq (calls : List WrapCall) : ∀ (s : SecurityLayer) (start : ℕ),
    start % 2 ^ 64 = s.senderSeqNumber.toNat →
    s.used N C calls = Counter.values s.usageAt start (s.used N C calls).length := by
  induction calls with
  | nil =>
    intro s start _
    rfl
  | cons call calls ih =>
    intro s start hstart
    rcases wrap_cases s call with ⟨-, message, hwrap⟩ | ⟨-, e, hwrap⟩
    · have hnext := ih { s.generateNonce with senderSeqNumber := s.senderSeqNumber + 1 } (start + 1)
        (by simp [UInt64.toNat_add, ← hstart])
      have husageAt : usageAt { s.generateNonce with senderSeqNumber := s.senderSeqNumber + 1 }
          = s.usageAt := usageAt_generateNonce s
      have hfirst : usage { s.generateNonce with senderSeqNumber := s.senderSeqNumber + 1 }
          = s.usageAt start := by
        have hgenerated : s.generateNonce.usage = s.usageAt start := by
          rw [usage_generateNonce, ← hstart, usageAt_eq_iff]
          exact Nat.mod_mod_of_dvd start (pow_dvd_pow 256 (by omega : min 4 s.pivSize ≤ 8))
        exact hgenerated
      rw [used, hwrap]
      simp only [List.length_cons, Counter.values_succ, hfirst]
      rw [husageAt] at hnext
      rw [← hnext]
    · have hnext := ih s.generateNonce start hstart
      rw [usageAt_generateNonce] at hnext
      rw [used, hwrap]
      exact hnext

section

variable (s : SecurityLayer) (calls : List WrapCall)

lemma nodup_used_iff :
    (s.used N C calls).Nodup ↔ (s.used N C calls).length ≤ 256 ^ min 4 s.pivSize := by
  have hused := used_eq (N := N) (C := C) calls s s.senderSeqNumber.toNat
    (Nat.mod_eq_of_lt s.senderSeqNumber.toNat_lt)
  have hperiod : 0 < 256 ^ min 4 s.pivSize := Nat.pow_pos (by decide)
  rw [hused, Counter.nodup_values_iff hperiod s.usageAt_eq_iff, Counter.length_values]

lemma nodup_partialIv_iff :
    ((s.used N C calls).map Usage.partialIv).Nodup
      ↔ (s.used N C calls).length ≤ 256 ^ min 4 s.pivSize := by
  have hused := used_eq (N := N) (C := C) calls s s.senderSeqNumber.toNat
    (Nat.mod_eq_of_lt s.senderSeqNumber.toNat_lt)
  have hperiod : 0 < 256 ^ min 4 s.pivSize := Nat.pow_pos (by decide)
  have hpiv : (s.used N C calls).map Usage.partialIv
      = Counter.values s.partialIvAt s.senderSeqNumber.toNat (s.used N C calls).length := by
    rw [hused, Counter.length_values, Counter.values, Counter.values, List.map_map]
    rfl
  rw [hpiv, Counter.nodup_values_iff hperiod s.partialIvAt_eq_iff]

end

lemma toNat_succ_sub {a b : UInt64} {n : ℕ} (h : (a - b).toNat = n) (hn : n < 2 ^ 32) :
    (a + 1 - b).toNat = n + 1 := by
  have hbound := b.toNat_lt
  rw [UInt64.toNat_sub] at h ⊢
  rw [UInt64.toNat_add, UInt64.toNat_one]
  omega

/-- The sequence number counts the messages, so the condition on the calls bounds their
number. -/
lemma everyStep_inPeriod_iff (start : SecurityLayer) (calls : List WrapCall) :
    ∀ {s : SecurityLayer} {n : ℕ}, (s.senderSeqNumber - start.senderSeqNumber).toNat = n →
      n ≤ 256 ^ min 4 start.pivSize →
      (Transition.EveryStep (wrapStep N C) (InPeriod N C start) s calls
        ↔ n + (s.used N C calls).length ≤ 256 ^ min 4 start.pivSize) := by
  have hperiod : 256 ^ min 4 start.pivSize ≤ 2 ^ 32 :=
    Nat.pow_le_pow_right (by decide) (Nat.min_le_left 4 _)
  induction calls with
  | nil =>
    intro s n _ hle
    exact iff_of_true trivial hle
  | cons call calls ih =>
    intro s n hn hle
    rcases wrap_cases (N := N) (C := C) s call with ⟨hseals, message, hwrap⟩ | ⟨hseals, e, hwrap⟩
    · have hstep : wrapStep N C s call
          = .ok { s.generateNonce with senderSeqNumber := s.senderSeqNumber + 1 } := by
        rw [wrapStep, hwrap]
      rw [Transition.everyStep_cons hstep, InPeriod, hn, used, hwrap]
      simp only [hseals, true_imp_iff, List.length_cons]
      by_cases hlt : n < 256 ^ min 4 start.pivSize
      · have hnext := @ih { s.generateNonce with senderSeqNumber := s.senderSeqNumber + 1 } (n + 1)
          (toNat_succ_sub hn (hlt.trans_le hperiod)) (Nat.succ_le_of_lt hlt)
        rw [hnext, and_iff_right hlt, Nat.add_assoc, Nat.add_comm 1]
      · -- the sequence number has gone around
        exact iff_of_false (fun h => hlt h.1) (by omega)
    · have hstep : wrapStep N C s call = .ok s.generateNonce := by
        rw [wrapStep, hwrap]
      rw [Transition.everyStep_cons hstep, InPeriod, used, hwrap]
      simp only [hseals, Bool.false_eq_true, false_imp_iff, true_and]
      exact ih hn hle

/-- **Nonce freshness in one process.** The Partial IVs of the messages are different, and no
key is used twice with the same nonce, if and only if no message is sealed after the sequence
number has gone around the Partial IV. -/
theorem nonce_freshness_iff (s : SecurityLayer) (calls : List WrapCall) :
    (((s.used N C calls).map Usage.partialIv).Nodup
      ↔ Transition.EveryStep (wrapStep N C) (InPeriod N C s) s calls) ∧
    ((s.used N C calls).Nodup
      ↔ Transition.EveryStep (wrapStep N C) (InPeriod N C s) s calls) := by
  have hcount := everyStep_inPeriod_iff (N := N) (C := C) s calls (s := s) (n := 0) (by simp)
    (Nat.zero_le _)
  rw [Nat.zero_add] at hcount
  rw [hcount]
  exact ⟨nodup_partialIv_iff s calls, nodup_used_iff s calls⟩

/-! ## A long run -/

/-- A library whose derivation and encryption always succeed. -/
def clearCose : LibCose where
  algoValue _ := 0
  hkdfDerive _ ikm _ length _ := some ((ikm ++ List.replicate length 0).take length)
  encryptEncode _ _ _ partialIv payload _ :=
    some ([0x83, 0x40, 0xA1, 0x06] ++ NanoCbor.rfc8949.putBstr partialIv
      ++ NanoCbor.rfc8949.putBstr payload)

/-- An environment with an algorithm, two identifiers and a master secret. -/
def lab (name : String) : Option (List UInt8) :=
  if name = "AEAD_ALGO" then some (ascii "Ascon-AEAD128")
  else if name = "SENDER_ID" then some (ascii "01")
  else if name = "RECEIVER_ID" then some (ascii "0x02")
  else if name = "MASTER_SECRET_KEY" then some (ascii "000102030405060708090a0b0c0d0e0f")
  else none

/-- Every uncompressed message of this library goes out. -/
lemma length_used_clearCose (N : NanoCbor) : ∀ (calls : List WrapCall) (s : SecurityLayer),
    (∀ call ∈ calls, call.compress = false) → (s.used N clearCose calls).length = calls.length := by
  intro calls
  induction calls with
  | nil => exact fun _ _ => rfl
  | cons call calls ih =>
    intro s hcalls
    obtain ⟨message, hwrap⟩ : ∃ message,
        s.wrap N clearCose call.compress call.payload call.dataMaxLen = (.ok message,
          { s.generateNonce with senderSeqNumber := s.generateNonce.senderSeqNumber + 1 }) := by
      rw [hcalls call List.mem_cons_self]
      exact ⟨_, rfl⟩
    rw [used, hwrap]
    simp only [List.length_cons, ih _ fun call' h => hcalls call' (List.mem_cons_of_mem call h)]

/-- With the Partial IV of two bytes, the nonce of message 65537 is that of the first one. -/
theorem two_bytes_come_round :
    ∃ s, ofEnvironment NanoCbor.rfc8949 clearCose .default lab = .ok s ∧
      ¬ ((s.used NanoCbor.rfc8949 clearCose
        (List.replicate 65537 ⟨false, [0x2A], 512⟩)).map Usage.partialIv).Nodup := by
  obtain ⟨s, hs, hsize⟩ : ∃ s, ofEnvironment NanoCbor.rfc8949 clearCose .default lab = .ok s ∧
      s.pivSize = 2 := ⟨_, rfl, rfl⟩
  refine ⟨s, hs, fun hnodup => ?_⟩
  have hcalls : ∀ call ∈ List.replicate 65537 (⟨false, [0x2A], 512⟩ : WrapCall),
      call.compress = false := by
    intro call hcall
    rw [List.eq_of_mem_replicate hcall]
  have hlength := length_used_clearCose NanoCbor.rfc8949 _ s hcalls
  rw [nodup_partialIv_iff, hlength, List.length_replicate, hsize] at hnodup
  norm_num at hnodup

/-! ## Two processes -/

/-- The environments agree on what the sender's secrets are derived from. -/
def SameSecrets (getenv getenv' : String → Option (List UInt8)) : Prop :=
  ∀ name ∈ ["AEAD_ALGO", "SENDER_ID", "MASTER_SECRET_KEY", "MASTER_SALT"],
    getenv name = getenv' name

/-- A process sends nothing if and only if no message can be sealed with its first Partial
IV, which a call that fails leaves as it is. -/
lemma used_eq_nil_iff (calls : List WrapCall) : ∀ (s : SecurityLayer),
    s.used N C calls = [] ↔ ∀ call ∈ calls, s.seals N C call = false := by
  induction calls with
  | nil =>
    intro s
    exact iff_of_true rfl (by simp)
  | cons call calls ih =>
    intro s
    have hgenerated : ∀ call, s.generateNonce.seals N C call = s.seals N C call := by
      intro call
      rw [seals, seals, generateNonce_generateNonce]
    rcases wrap_cases (N := N) (C := C) s call with ⟨hseals, message, hwrap⟩ | ⟨hseals, e, hwrap⟩
    · simp [used, hwrap, hseals]
    · simp [used, hwrap, hseals, ih, hgenerated]

/-- What the context of a layer is derived from. -/
lemma deriveContext_ok {masterKey masterSalt : List UInt8} {s s' : SecurityLayer}
    (h : s.deriveContext N C masterKey masterSalt = .ok s') :
    deriveKey N C s.aeadParams s.kdf masterKey masterSalt s.senderId
      (aeadAlgoToCoseAlgo s.aeadParams.alg) = .ok s'.senderKeyBytes ∧
    deriveIv N C s.aeadParams s.kdf masterKey masterSalt (aeadAlgoToCoseAlgo s.aeadParams.alg)
      = .ok s'.contextIv ∧
    s'.pivSize = s.pivSize ∧ s'.pivBytes = s.pivBytes ∧ s'.senderSeqNumber = s.senderSeqNumber ∧
    deriveKey N C s.aeadParams s.kdf masterKey masterSalt s.receiverId
      (aeadAlgoToCoseAlgo s.aeadParams.alg) = .ok s'.receiverKeyBytes ∧
    s'.aeadParams = s.aeadParams := by
  simp only [deriveContext] at h
  split_ifs at h with halgo
  obtain ⟨senderKey, hsender, h⟩ := Transition.bind_eq_ok.mp h
  obtain ⟨receiverKey, hreceiver, h⟩ := Transition.bind_eq_ok.mp h
  obtain ⟨contextIv, hiv, h⟩ := Transition.bind_eq_ok.mp h
  cases h
  exact ⟨hsender, hiv, rfl, rfl, rfl, hreceiver, rfl⟩

lemma ofParameters_ok {params : AeadParams} {kdf : KdfAlgorithms}
    {masterKey masterSalt senderId receiverId : List UInt8} {pivSize : ℕ} {n : UInt64}
    {s : SecurityLayer} (h : ofParameters N C params kdf masterKey masterSalt pivSize n senderId
      receiverId = .ok s) :
    deriveKey N C params kdf masterKey masterSalt senderId (aeadAlgoToCoseAlgo params.alg)
      = .ok s.senderKeyBytes ∧
    deriveIv N C params kdf masterKey masterSalt (aeadAlgoToCoseAlgo params.alg)
      = .ok s.contextIv ∧
    s.pivSize = pivSize ∧ s.pivBytes = List.replicate pivSize 0 ∧ s.senderSeqNumber = n ∧
    deriveKey N C params kdf masterKey masterSalt receiverId (aeadAlgoToCoseAlgo params.alg)
      = .ok s.receiverKeyBytes ∧
    s.aeadParams = params := by
  rw [ofParameters] at h
  split at h
  · rename_i s' hderive
    cases h
    exact deriveContext_ok hderive
  · cases h

lemma ofEnvironment_ok {config : BuildConfig} {getenv : String → Option (List UInt8)}
    {s : SecurityLayer} (h : ofEnvironment N C config getenv = .ok s) :
    ∃ alg senderId receiverId masterKey, envToAeadAlgo getenv = .ok alg ∧
      identifierEnv getenv "SENDER_ID" "Failed to parse the sender id" = .ok senderId ∧
      getMasterKeyEnv getenv (.ofAlgorithm alg) = .ok masterKey ∧
      ofParameters N C (.ofAlgorithm alg) (strToKdfAlgo config.kdfAlgo) masterKey
        (masterSaltEnv getenv) config.pivLen 0 senderId receiverId = .ok s := by
  obtain ⟨alg, halg, h⟩ := Transition.bind_eq_ok.mp h
  obtain ⟨senderId, hsender, h⟩ := Transition.bind_eq_ok.mp h
  obtain ⟨receiverId, -, h⟩ := Transition.bind_eq_ok.mp h
  cases hkey : getMasterKeyEnv getenv (.ofAlgorithm alg) with
  | error e =>
    rw [hkey] at h
    cases h
  | ok masterKey =>
    rw [hkey] at h
    exact ⟨alg, senderId, receiverId, masterKey, halg, hsender, hkey, h⟩

/-- The sender's secrets and the first Partial IV are the same in both processes. -/
lemma usageAt_eq_of_sameSecrets {config : BuildConfig}
    {getenv getenv' : String → Option (List UInt8)} (hsame : SameSecrets getenv getenv')
    {s s' : SecurityLayer} (hs : ofEnvironment N C config getenv = .ok s)
    (hs' : ofEnvironment N C config getenv' = .ok s') : s.usageAt = s'.usageAt := by
  obtain ⟨alg, senderId, receiverId, masterKey, halg, hsender, hkey, hs⟩ := ofEnvironment_ok hs
  obtain ⟨alg', senderId', receiverId', masterKey', halg', hsender', hkey', hs'⟩ :=
    ofEnvironment_ok hs'
  have hsalt : masterSaltEnv getenv = masterSaltEnv getenv' := by
    rw [masterSaltEnv, masterSaltEnv, hsame "MASTER_SALT" (by decide)]
  rw [envToAeadAlgo, hsame "AEAD_ALGO" (by decide)] at halg
  obtain rfl : alg = alg' := Except.ok.inj (halg.symm.trans halg')
  rw [identifierEnv, hsame "SENDER_ID" (by decide)] at hsender
  obtain rfl : senderId = senderId' := Except.ok.inj (hsender.symm.trans hsender')
  rw [getMasterKeyEnv, hsame "MASTER_SECRET_KEY" (by decide)] at hkey
  obtain rfl : masterKey = masterKey' := Except.ok.inj (hkey.symm.trans hkey')
  obtain ⟨hsenderKey, hiv, hsize, hbytes, -⟩ := ofParameters_ok hs
  obtain ⟨hsenderKey', hiv', hsize', hbytes', -⟩ := ofParameters_ok hs'
  rw [hsalt] at hsenderKey hiv
  have hkeys : s.senderKeyBytes = s'.senderKeyBytes :=
    Except.ok.inj (hsenderKey.symm.trans hsenderKey')
  have hivs : s.contextIv = s'.contextIv := Except.ok.inj (hiv.symm.trans hiv')
  funext n
  rw [usageAt, usageAt, partialIvAt, partialIvAt, hkeys, hivs, hsize, hsize', hbytes, hbytes']

/-- The first message of every process is sent with the sequence number 0. -/
lemma mem_used_zero {config : BuildConfig} {getenv : String → Option (List UInt8)}
    {s : SecurityLayer} (hs : ofEnvironment N C config getenv = .ok s) {calls : List WrapCall}
    (hne : s.used N C calls ≠ []) : s.usageAt 0 ∈ s.used N C calls := by
  obtain ⟨alg, senderId, receiverId, masterKey, -, -, -, hs⟩ := ofEnvironment_ok hs
  obtain ⟨-, -, -, -, hzero, -⟩ := ofParameters_ok hs
  have hused := used_eq (N := N) (C := C) calls s 0 (by rw [hzero]; rfl)
  obtain ⟨n, hn⟩ := Nat.exists_eq_succ_of_ne_zero (mt List.length_eq_zero_iff.mp hne)
  rw [hused, hn, Counter.values_succ]
  exact List.mem_cons_self

/-- **Nonce freshness across restarts.** Two processes with the same secrets use no key twice
with the same nonce if and only if in one of them no message can be sealed. -/
theorem restart_freshness_iff {config : BuildConfig} {getenv getenv' : String → Option (List UInt8)}
    (hsame : SameSecrets getenv getenv') {s s' : SecurityLayer}
    (hs : ofEnvironment N C config getenv = .ok s)
    (hs' : ofEnvironment N C config getenv' = .ok s') (calls calls' : List WrapCall) :
    (s.used N C calls).Disjoint (s'.used N C calls')
      ↔ (∀ call ∈ calls, s.seals N C call = false) ∨
        ∀ call ∈ calls', s'.seals N C call = false := by
  rw [← used_eq_nil_iff, ← used_eq_nil_iff]
  constructor
  · intro hdisjoint
    by_contra hsent
    obtain ⟨hne, hne'⟩ := not_or.mp hsent
    have hfirst := mem_used_zero hs hne
    rw [usageAt_eq_of_sameSecrets hsame hs hs'] at hfirst
    exact hdisjoint hfirst (mem_used_zero hs' hne')
  · rintro (hnone | hnone)
    · rw [hnone]
      exact List.disjoint_nil_left _
    · rw [hnone]
      exact List.disjoint_nil_right _

/-- The second process sends nothing. -/
theorem restart_freshness_idle :
    ∃ s, ofEnvironment NanoCbor.rfc8949 clearCose .default lab = .ok s ∧
      (s.used NanoCbor.rfc8949 clearCose [⟨false, [0x2A], 512⟩]).Disjoint
        (s.used NanoCbor.rfc8949 clearCose []) := by
  have hsame : SameSecrets lab lab := fun _ _ => rfl
  exact ⟨_, rfl, (restart_freshness_iff hsame rfl rfl _ _).mpr (Or.inr (by simp))⟩

/-- Both processes send their first message with the same key and the same nonce. -/
theorem restart_reuses_nonce :
    ∃ s, ofEnvironment NanoCbor.rfc8949 clearCose .default lab = .ok s ∧
      ¬ (s.used NanoCbor.rfc8949 clearCose [⟨false, [0x2A], 512⟩]).Disjoint
        (s.used NanoCbor.rfc8949 clearCose [⟨false, [0x2B], 512⟩]) := by
  obtain ⟨s, hs, hfirst, hsecond⟩ :
      ∃ s, ofEnvironment NanoCbor.rfc8949 clearCose .default lab = .ok s ∧
        s.used NanoCbor.rfc8949 clearCose [⟨false, [0x2A], 512⟩]
          = [⟨s.senderKeyBytes, s.contextIv, [0, 0]⟩] ∧
        s.used NanoCbor.rfc8949 clearCose [⟨false, [0x2B], 512⟩]
          = [⟨s.senderKeyBytes, s.contextIv, [0, 0]⟩] := ⟨_, rfl, rfl, rfl⟩
  refine ⟨s, hs, fun hdisjoint => ?_⟩
  rw [hfirst, hsecond] at hdisjoint
  exact hdisjoint List.mem_cons_self List.mem_cons_self

end SecurityLayer
end Security
end RmwDesert
