/-
Messages between the nodes of one process, with the security layer.

`enqueue_packet` puts a sent packet also on the queue of received packets, so that nodes of
the same process can exchange data.  With the layer the packet is wrapped before, and
unwrapped again in `interpret_packets`.  The packets that the loop decodes are those that
`unwrap` opens (`interpretPackets_eq`); the main result, `local_delivery_iff`, says which
messages still reach the streams of the process.
-/
import RmwDesert.BadPackets
import RmwDesert.Security.Unwrap

namespace RmwDesert
namespace Security

open InterpretPackets (Interpreted accepted deliver dispatched interpretItems taken)
open TcpDaemon (maxPacketLength)

/-! ## The layer under the streams -/

/-- `g_sec_layer` and `_rx_packets`. -/
structure Loopback where
  /-- `g_sec_layer`. -/
  layer : Option SecurityLayer
  /-- `_rx_packets`. -/
  rxPackets : List Packet
deriving DecidableEq, Repr

section

variable (N : NanoCbor) (C : LibCose) (D : LibCoseDecrypt) (compress : Bool)

/-- `end_transmission` without an overflow, and `enqueue_packet` for the receiving queue. -/
def endTransmission (packet : Packet) (s : Loopback) : Loopback :=
  match s.layer with
  | none => { s with rxPackets := s.rxPackets ++ [packet] }
  | some layer =>
    match layer.wrap N C compress packet maxPacketLength with
    | (.ok wrapped, next) => ⟨some next, s.rxPackets ++ [wrapped]⟩
    | (.error _, next) => ⟨some next, s.rxPackets⟩

/-- A transmission. -/
def send (s : Loopback) (t : Transmission) : Loopback :=
  match t.tx.transmit N t.sequenceId t.fields with
  | none => s
  | some packet => endTransmission N C compress packet s

/-- The bytes that `interpret_packets` decodes of a packet, if `unwrap` does not refuse it. -/
def unwrapped (layer : Option SecurityLayer) (packet : Packet) :
    Except Failure (Option (List UInt8)) :=
  match layer with
  | none => .ok (some packet)
  | some layer =>
    let buffer :=
      if compress then packet ++ List.replicate coseSerializationMaxOverhead 0 else packet
    match layer.unwrap N D compress buffer packet.length with
    | none => .error .outOfBounds
    | some (.error _) => .ok none
    | some (.ok (data, unwrappedSize)) => .ok (some (data.take unwrappedSize))

/-- `interpret_packets`. -/
def interpretPackets (config : TopicsConfig) (layer : Option SecurityLayer) (fuel : ℕ) :
    List Packet → List RxStream → Except Failure (List RxStream × List Packet)
  | [], listening => .ok (listening, [])
  | packet :: rxPackets, listening =>
    if packet = [] then .ok (listening, rxPackets)
    else do
      match ← unwrapped N D compress layer packet with
      | none => interpretPackets config layer fuel rxPackets listening
      | some bytes =>
        let d ← interpretItems N config fuel 0 bytes .initial
        if d.streamName = "" then interpretPackets config layer fuel rxPackets listening
        else interpretPackets config layer fuel rxPackets (← deliver d listening)

/-- What the loop decodes of a queue. -/
def opened (layer : Option SecurityLayer) : List Packet → Except Failure (List Packet)
  | [] => .ok []
  | packet :: rxPackets =>
    if packet = [] then .ok []
    else do
      let bytes ← unwrapped N D compress layer packet
      let rest ← opened layer rxPackets
      return (bytes.filter (· ≠ [])).toList ++ rest

/-- The streams take from the messages that the process sends with the layer what they take
without it. -/
def LocalDelivery (config : TopicsConfig) (layer : SecurityLayer) (sent : List Transmission)
    (listening : List RxStream) : Prop :=
  ∃ packets fuel ds ds',
    opened N D compress (sent.foldl (send N C compress) ⟨some layer, []⟩).layer
      (sent.foldl (send N C compress) ⟨some layer, []⟩).rxPackets = .ok packets ∧
    dispatched N config fuel (!listening.isEmpty) packets = .ok (ds, []) ∧
    dispatched N config fuel (!listening.isEmpty)
      (sent.foldl (send N C compress) ⟨none, []⟩).rxPackets = .ok (ds', []) ∧
    ∀ r ∈ listening, ds.filterMap (accepted r) = ds'.filterMap (accepted r)

end

section

variable {N : NanoCbor} {D : LibCoseDecrypt} {compress : Bool} {config : TopicsConfig} {fuel : ℕ}

/-- Without the layer. -/
lemma interpretPackets_none (packets : List Packet) (listening : List RxStream) :
    interpretPackets N D compress config none fuel packets listening
      = InterpretPackets.interpretPackets N config fuel packets listening := by
  induction packets generalizing listening with
  | nil => rfl
  | cons packet packets ih =>
    simp only [interpretPackets, InterpretPackets.interpretPackets, unwrapped, ih]
    rfl

/-- **The layer under the loop.** The packets that are opened are interpreted as without the
layer. -/
theorem interpretPackets_eq {layer : Option SecurityLayer} {packets opens : List Packet}
    (h : opened N D compress layer packets = .ok opens) (listening : List RxStream) :
    interpretPackets N D compress config layer fuel packets listening
      = (InterpretPackets.interpretPackets N config fuel opens listening).map
          fun r => (r.1, (packets.dropWhile (· ≠ [])).tail) := by
  induction packets generalizing opens listening with
  | nil =>
    obtain rfl := Except.ok.inj h
    rfl
  | cons packet packets ih =>
    rw [opened] at h
    split_ifs at h with hempty
    · obtain rfl := Except.ok.inj h
      simp [interpretPackets, hempty, InterpretPackets.interpretPackets, Except.map]
    · obtain ⟨bytes, hbytes, h⟩ := Transition.bind_eq_ok.mp h
      obtain ⟨rest, hrest, h⟩ := Transition.bind_eq_ok.mp h
      obtain rfl := Except.ok.inj h
      rw [List.dropWhile_cons_of_pos (by simpa using hempty), interpretPackets, if_neg hempty,
        hbytes]
      rcases bytes with - | - | ⟨b, bytes⟩
      · exact ih hrest listening
      · -- an empty plaintext names no topic
        have hitems : interpretItems N config fuel 0 [] .initial = .ok .initial := by
          cases fuel <;> rfl
        simp only [bind, Except.bind, hitems]
        exact ih hrest listening
      · have hopens : (Option.filter (· ≠ []) (some (b :: bytes))).toList ++ rest
            = (b :: bytes) :: rest := rfl
        rw [hopens, InterpretPackets.interpretPackets, if_neg (List.cons_ne_nil b bytes)]
        simp only [bind, Except.bind]
        cases interpretItems N config fuel 0 (b :: bytes) .initial with
        | error e => rfl
        | ok d =>
          simp only
          split_ifs with hname
          · exact ih hrest listening
          · cases deliver d listening with
            | error e => rfl
            | ok streams => exact ih hrest streams

/-- After local delivery, the call leaves the streams as it leaves them without the layer. -/
theorem LocalDelivery.interpretPackets_eq {C : LibCose} {layer : SecurityLayer}
    {sent : List Transmission} {listening : List RxStream}
    (h : LocalDelivery N C D compress config layer sent listening) :
    ∃ fuel streams rest,
      interpretPackets N D compress config
          (sent.foldl (send N C compress) ⟨some layer, []⟩).layer fuel
          (sent.foldl (send N C compress) ⟨some layer, []⟩).rxPackets listening
        = .ok (streams, rest) ∧
      interpretPackets N D compress config none fuel
          (sent.foldl (send N C compress) ⟨none, []⟩).rxPackets listening = .ok (streams, []) := by
  obtain ⟨packets, fuel, ds, ds', hopened, hds, hds', htakes⟩ := h
  refine ⟨fuel, listening.map fun r => r.pushAll (ds.filterMap (accepted r)),
    ((sent.foldl (send N C compress) ⟨some layer, []⟩).rxPackets.dropWhile (· ≠ [])).tail, ?_, ?_⟩
  · rw [Security.interpretPackets_eq hopened,
      InterpretPackets.interpretPackets_eq_ok.mpr ⟨ds, [], hds, rfl⟩]
    rfl
  · rw [interpretPackets_none]
    refine InterpretPackets.interpretPackets_eq_ok.mpr ⟨ds', [], hds', ?_⟩
    congr 1
    refine List.map_congr_left fun r hr => ?_
    rw [htakes r hr]

end

/-! ## One packet -/

namespace SecurityLayer

/-- The layer `start` after some calls of `wrap`. -/
def Later (start s : SecurityLayer) : Prop :=
  s.pivBytes.length = start.pivSize ∧
    s = { start with senderSeqNumber := s.senderSeqNumber, pivBytes := s.pivBytes }

/-- The message of a packet, with prefix, Partial IV, tag and headers, fits in the buffer. -/
def Fits (start : SecurityLayer) (packet : Packet) : Prop :=
  cosePrefix.length + (Cbor.head 2 start.pivSize).length + start.pivSize
    + (Cbor.head 2 (packet.length + start.aeadParams.tagSize)).length
    + (packet.length + start.aeadParams.tagSize) ≤ maxPacketLength

/-- The process can open the packets that it wraps. -/
def Opens (start : SecurityLayer) (packet : Packet) : Prop :=
  start.senderId = start.receiverId ∧ start.Fits packet

instance (start : SecurityLayer) (packet : Packet) : Decidable (start.Fits packet) :=
  inferInstanceAs (Decidable (_ ≤ _))

instance (start : SecurityLayer) (packet : Packet) : Decidable (start.Opens packet) :=
  inferInstanceAs (Decidable (_ ∧ _))

end SecurityLayer

/-- The encoding succeeds if the message fits in the buffer, and the encryption adds a tag of
the size of the algorithm. -/
structure LibCose.Seals (C : LibCose)
    (encrypt : CoseAlgo → (key contextIv partialIv payload : List UInt8) → List UInt8) : Prop where
  encode_of_le : ∀ {alg key contextIv partialIv payload maxLen},
    (coseMessage partialIv (encrypt alg key contextIv partialIv payload)).length ≤ maxLen →
    C.encryptEncode alg key contextIv partialIv payload maxLen
      = some (coseMessage partialIv (encrypt alg key contextIv partialIv payload))
  length_encrypt : ∀ {alg : AeadAlgorithms}, alg ≠ .unknown → ∀ key contextIv partialIv payload,
    (encrypt (aeadAlgoToCoseAlgo alg) key contextIv partialIv payload).length
      = payload.length + (AeadParams.ofAlgorithm alg).tagSize

namespace SecurityLayer

variable {N : NanoCbor} {C : LibCose} {D : LibCoseDecrypt}
  {encrypt : CoseAlgo → (key contextIv partialIv payload : List UInt8) → List UInt8}

/-- What the default constructor sets. -/
lemma ofEnvironment_start {build : BuildConfig} {getenv : String → Option (List UInt8)}
    {start : SecurityLayer} (h : ofEnvironment N C build getenv = .ok start) :
    start.pivBytes.length = start.pivSize ∧ start.pivSize = build.pivLen ∧
      (∃ alg ≠ AeadAlgorithms.unknown, start.aeadParams = .ofAlgorithm alg) ∧
      (start.senderId = start.receiverId → start.senderKeyBytes = start.receiverKeyBytes) := by
  obtain ⟨alg, senderId, receiverId, masterKey, halg, -, -, h⟩ := ofEnvironment_ok h
  have hknown : alg ≠ .unknown := by
    rintro rfl
    simp only [envToAeadAlgo] at halg
    split_ifs at halg <;> cases halg
  have hids : start.senderId = senderId ∧ start.receiverId = receiverId := by
    rw [ofParameters] at h
    split at h
    · rename_i s hderive
      obtain rfl := Except.ok.inj h
      simp only [deriveContext] at hderive
      split_ifs at hderive
      obtain ⟨_, -, hderive⟩ := Transition.bind_eq_ok.mp hderive
      obtain ⟨_, -, hderive⟩ := Transition.bind_eq_ok.mp hderive
      obtain ⟨_, -, hderive⟩ := Transition.bind_eq_ok.mp hderive
      obtain rfl := Except.ok.inj hderive
      exact ⟨rfl, rfl⟩
    · cases h
  obtain ⟨hsender, -, hsize, hbytes, -, hreceiver, hparams⟩ := ofParameters_ok h
  refine ⟨by rw [hbytes, List.length_replicate, hsize], hsize, ⟨alg, hknown, hparams⟩,
    fun heq => ?_⟩
  obtain rfl : senderId = receiverId := by rw [← hids.1, ← hids.2, heq]
  exact Except.ok.inj (hsender.symm.trans hreceiver)

lemma Later.refl {start : SecurityLayer} (h : start.pivBytes.length = start.pivSize) :
    Later start start :=
  ⟨h, rfl⟩

lemma Later.wrap {start s : SecurityLayer} (h : Later start s) (compress : Bool)
    (payload : List UInt8) (dataMaxLen : ℕ) :
    Later start (s.wrap N C compress payload dataMaxLen).2 := by
  obtain ⟨hbytes, heq⟩ := h
  have hsize : s.pivBytes.length = s.pivSize := by rw [hbytes, heq]
  have hlength := length_pivBytes_generateNonce hsize
  have hgenerated : s.generateNonce = { start with
      senderSeqNumber := s.senderSeqNumber, pivBytes := s.generateNonce.pivBytes } := by
    rw [generateNonce, heq]
  rcases wrap_cases (N := N) (C := C) s ⟨compress, payload, dataMaxLen⟩ with
    ⟨-, message, hwrap⟩ | ⟨-, e, hwrap⟩
  · rw [hwrap]
    refine ⟨?_, ?_⟩
    · rw [← hbytes, hsize]
      exact hlength
    · simp only
      rw [hgenerated]
  · rw [hwrap]
    exact ⟨by rw [hlength, ← hsize, hbytes], hgenerated⟩

/-- What the runs use of a layer that the constructor accepted, and of its two keys. -/
structure Accepted (D : LibCoseDecrypt)
    (encrypt : CoseAlgo → (key contextIv partialIv payload : List UInt8) → List UInt8)
    (start : SecurityLayer) : Prop where
  pivSize_le : start.pivSize ≤ 16
  known : ∃ alg ≠ AeadAlgorithms.unknown, start.aeadParams = .ofAlgorithm alg
  sameKey : start.senderId = start.receiverId → start.senderKeyBytes = start.receiverKeyBytes
  rejects : start.senderId ≠ start.receiverId → ∀ contextIv partialIv payload,
    D.encryptDecryptLw (aeadAlgoToCoseAlgo start.aeadParams.alg) start.receiverKeyBytes contextIv
      partialIv (encrypt (aeadAlgoToCoseAlgo start.aeadParams.alg) start.senderKeyBytes contextIv
        partialIv payload) = none

section

variable {start s : SecurityLayer} {compress : Bool} {packet : Packet}

variable (packet) in
/-- Whether libcose has room for the message of a packet. -/
lemma encryptEncode_cases (hC : C.Mirrors D encrypt) (hseals : C.Seals encrypt)
    (hstart : Accepted D encrypt start) (key contextIv : List UInt8) {partialIv : List UInt8}
    (hpiv : partialIv.length = start.pivSize) :
    ((coseMessage partialIv (encrypt (aeadAlgoToCoseAlgo start.aeadParams.alg) key contextIv
        partialIv packet)).length ≤ maxPacketLength ↔ start.Fits packet) ∧
    C.encryptEncode (aeadAlgoToCoseAlgo start.aeadParams.alg) key contextIv partialIv packet
        maxPacketLength
      = if start.Fits packet then
          some (coseMessage partialIv
            (encrypt (aeadAlgoToCoseAlgo start.aeadParams.alg) key contextIv partialIv packet))
        else none := by
  obtain ⟨alg, hknown, hparams⟩ := hstart.known
  have hfits : (coseMessage partialIv (encrypt (aeadAlgoToCoseAlgo start.aeadParams.alg) key
      contextIv partialIv packet)).length ≤ maxPacketLength ↔ start.Fits packet := by
    have halg : start.aeadParams.alg = alg := by rw [hparams]; cases alg <;> rfl
    rw [length_coseMessage, halg, hseals.length_encrypt hknown, hpiv, Fits, hparams]
  refine ⟨hfits, ?_⟩
  split_ifs with h
  · exact hseals.encode_of_le (hfits.mpr h)
  · refine Option.eq_none_iff_forall_not_mem.mpr fun message hmessage => h (hfits.mp ?_)
    obtain ⟨rfl, hle⟩ := hC.encode hmessage
    exact hle

/-- What the process makes of an emitted packet. -/
lemma unwrapped_emitted (hfmt : FormatsBstr N) (hC : C.Mirrors D encrypt)
    (hstart : Accepted D encrypt start) (hs : Later start s)
    {contextIv partialIv ciphertext wrapped : List UInt8}
    (hiv : contextIv = start.contextIv) (hpiv : partialIv.length = start.pivSize)
    (hciphertext : ciphertext = encrypt (aeadAlgoToCoseAlgo start.aeadParams.alg)
      start.senderKeyBytes contextIv partialIv packet)
    (hsize : (coseMessage partialIv ciphertext).length ≤ maxPacketLength)
    (hwrapped : wrapped = if compress then partialIv ++ ciphertext
      else coseMessage partialIv ciphertext) :
    unwrapped N D compress (some s) wrapped
      = .ok (if start.senderId = start.receiverId then some packet else none) := by
  obtain ⟨-, heq⟩ := hs
  have hlength := length_coseMessage partialIv ciphertext
  rw [maxPacketLength] at hsize
  have hnonempty : 0 < ciphertext.length := by
    rw [hciphertext]
    exact Nat.zero_lt_of_lt (hC.length_lt _ _ _ _ _)
  obtain ⟨spare, hspare, hbuffer⟩ : ∃ spare : List UInt8,
      (compress = true → coseSerializationMaxOverhead ≤ spare.length) ∧
      (if compress then wrapped ++ List.replicate coseSerializationMaxOverhead 0 else wrapped)
        = wrapped ++ spare := by
    cases compress with
    | false => exact ⟨[], fun h => absurd h Bool.false_ne_true, (List.append_nil _).symm⟩
    | true => exact ⟨_, fun _ => by simp, rfl⟩
  have hpivSize : s.pivSize = start.pivSize := by rw [heq]
  obtain ⟨rest, hunwrap⟩ : ∃ rest, s.unwrap N D compress (wrapped ++ spare) wrapped.length
      = s.decodeAndDecrypt D (coseMessage partialIv ciphertext ++ rest)
        (coseMessage partialIv ciphertext).length :=
    unwrap_emitted hfmt (hpiv.trans hpivSize.symm) (hpivSize.trans_le hstart.pivSize_le) hnonempty
      (by omega) hwrapped (fun _ => by omega) hspare
  simp only [unwrapped, hbuffer, hunwrap]
  by_cases hids : start.senderId = start.receiverId
  · have hkey : s.receiverKeyBytes = start.senderKeyBytes := by
      rw [heq, hstart.sameKey hids]
    obtain ⟨data, size, hdecrypt, htake⟩ := decodeAndDecrypt_coseMessage hC hkey
      (by rw [heq]) (by rw [heq]) (hiv ▸ hciphertext) (by omega) rest
    rw [hdecrypt, if_pos hids]
    simp only [htake]
  · have hdecode : D.encryptDecode (coseMessage partialIv ciphertext)
        = some (partialIv, ciphertext) :=
      hC.decode (by omega) (by omega)
    have hrejects := hstart.rejects hids contextIv partialIv packet
    rw [← hciphertext, hiv] at hrejects
    have hdecrypt : s.decodeAndDecrypt D (coseMessage partialIv ciphertext ++ rest)
        (coseMessage partialIv ciphertext).length = some (.error .unwrapError) := by
      rw [heq]
      simp only [decodeAndDecrypt, List.take_left, hdecode, hrejects]
    rw [hdecrypt, if_neg hids]

/-- `end_transmission` by the result of `wrap`. -/
lemma endTransmission_eq (s : SecurityLayer) (queue : List Packet) :
    endTransmission N C compress packet ⟨some s, queue⟩
      = ⟨some (s.wrap N C compress packet maxPacketLength).2,
          queue ++ (s.wrap N C compress packet maxPacketLength).1.toOption.toList⟩ := by
  simp only [endTransmission]
  rcases s.wrap N C compress packet maxPacketLength with ⟨- | wrapped, next⟩
  · simp only [Except.toOption, Option.toList_none, List.append_nil]
  · rfl

variable (compress packet) in
/-- The packet is wrapped if its message fits, and then the process opens it if the two
identifiers are the same. -/
lemma endTransmission_cases (hread : ReadsBstr N) (hfmt : FormatsBstr N)
    (hC : C.Mirrors D encrypt) (hseals : C.Seals encrypt) (hstart : Accepted D encrypt start)
    (hs : Later start s) (queue : List Packet) :
    ∃ next, Later start next ∧
      ((start.Fits packet ∧ ∃ wrapped ≠ [],
        endTransmission N C compress packet ⟨some s, queue⟩ = ⟨some next, queue ++ [wrapped]⟩ ∧
        ∀ t, Later start t → unwrapped N D compress (some t) wrapped
          = .ok (if start.senderId = start.receiverId then some packet else none)) ∨
      (¬ start.Fits packet ∧
        endTransmission N C compress packet ⟨some s, queue⟩ = ⟨some next, queue⟩)) := by
  refine ⟨_, hs.wrap (N := N) (C := C) compress packet maxPacketLength, ?_⟩
  obtain ⟨halg, hkey, hiv, hsize⟩ : start.aeadParams = s.aeadParams ∧
      start.senderKeyBytes = s.senderKeyBytes ∧ start.contextIv = s.contextIv ∧
      start.pivSize = s.pivSize := by
    rw [hs.2]
    exact ⟨rfl, rfl, rfl, rfl⟩
  have hbytes : s.pivBytes.length = s.pivSize := hs.1.trans hsize
  have hpiv : s.generateNonce.pivBytes.length = start.pivSize :=
    (length_pivBytes_generateNonce hbytes).trans hsize.symm
  have hpivSize : s.pivSize < 24 := by
    have hle := hstart.pivSize_le
    omega
  obtain ⟨hfits, hencode⟩ := encryptEncode_cases packet hC hseals hstart
    start.senderKeyBytes start.contextIv hpiv
  have hlength := length_coseMessage s.generateNonce.pivBytes (encrypt
    (aeadAlgoToCoseAlgo start.aeadParams.alg) start.senderKeyBytes start.contextIv
    s.generateNonce.pivBytes packet)
  have hlt := hC.length_lt (aeadAlgoToCoseAlgo start.aeadParams.alg) start.senderKeyBytes
    start.contextIv s.generateNonce.pivBytes packet
  by_cases h : start.Fits packet
  · have hsmall := hfits.mpr h
    have hciphertext : (encrypt (aeadAlgoToCoseAlgo start.aeadParams.alg) start.senderKeyBytes
        start.contextIv s.generateNonce.pivBytes packet).length < 2 ^ 64 := by
      rw [maxPacketLength] at hsmall
      omega
    rw [if_pos h, hkey, hiv, halg] at hencode
    rw [hkey, hiv, halg] at hciphertext
    have hwrap : (s.wrap N C compress packet maxPacketLength).1 = .ok _ :=
      wrap_of_encode hread hbytes hpivSize hciphertext hencode
    refine Or.inl ⟨h, _, ?_, ?_, fun t ht =>
      unwrapped_emitted hfmt hC hstart ht rfl hpiv rfl hsmall rfl⟩
    · cases compress with
      | false => exact List.cons_ne_nil _ _
      | true =>
        refine List.append_ne_nil_of_right_ne_nil _ (List.length_pos_iff.mp ?_)
        exact Nat.zero_lt_of_lt hlt
    · rw [endTransmission_eq, hwrap, hkey, hiv, halg]
      rfl
  · rw [if_neg h, hkey, hiv, halg] at hencode
    have hwrap : (s.wrap N C compress packet maxPacketLength).1 = .error .wrapError := by
      have hencode' : C.encryptEncode (aeadAlgoToCoseAlgo s.generateNonce.aeadParams.alg)
        s.generateNonce.senderKeyBytes s.generateNonce.contextIv s.generateNonce.pivBytes packet
        maxPacketLength = none := hencode
      simp only [wrap, hencode']
    refine Or.inr ⟨h, ?_⟩
    rw [endTransmission_eq, hwrap]
    simp only [Except.toOption, Option.toList_none, List.append_nil]

end

/-! ## The messages of a process -/

/-- The packets that the streams end their transmissions with. -/
def packetsOf (N : NanoCbor) (sent : List Transmission) : List Packet :=
  sent.filterMap fun t => t.tx.transmit N t.sequenceId t.fields

lemma foldl_send (compress : Bool) (sent : List Transmission) (state : Loopback) :
    sent.foldl (send N C compress) state
      = (packetsOf N sent).foldl (fun s packet => endTransmission N C compress packet s) state := by
  rw [packetsOf, List.foldl_filterMap]
  congr 1
  funext s t
  rw [send]
  cases t.tx.transmit N t.sequenceId t.fields <;> rfl

/-- Without the layer the packets themselves are put on the queue. -/
lemma foldl_endTransmission_none (compress : Bool) (packets queue : List Packet) :
    packets.foldl (fun s packet => endTransmission N C compress packet s) ⟨none, queue⟩
      = ⟨none, queue ++ packets⟩ := by
  induction packets generalizing queue with
  | nil => rw [List.foldl_nil, List.append_nil]
  | cons packet packets ih =>
    have hstep : endTransmission N C compress packet ⟨none, queue⟩
        = ⟨none, queue ++ [packet]⟩ := rfl
    rw [List.foldl_cons, hstep, ih, List.append_assoc, List.singleton_append]

/-- With the layer, the process opens the packets that fit, if the two identifiers are the
same, at any later time. -/
lemma foldl_endTransmission_some {start : SecurityLayer} (compress : Bool) (hread : ReadsBstr N)
    (hfmt : FormatsBstr N) (hC : C.Mirrors D encrypt) (hseals : C.Seals encrypt)
    (hstart : Accepted D encrypt start)
    {packets : List Packet} (hne : ∀ packet ∈ packets, packet ≠ []) :
    ∀ {s : SecurityLayer} (queue : List Packet), Later start s → ∃ next wrapped,
      Later start next ∧
      packets.foldl (fun s packet => endTransmission N C compress packet s) ⟨some s, queue⟩
        = ⟨some next, queue ++ wrapped⟩ ∧
      ∀ t, Later start t → opened N D compress (some t) wrapped
        = .ok (packets.filter (start.Opens ·)) := by
  induction packets with
  | nil =>
    intro s queue hs
    exact ⟨s, [], hs, by rw [List.append_nil, List.foldl_nil], fun _ _ => rfl⟩
  | cons packet packets ih =>
    intro s queue hs
    obtain ⟨hpacket, hrest⟩ := List.forall_mem_cons.mp hne
    obtain ⟨next, hnext, ⟨hfits, wrapped, hwrapped, hstep, hopens⟩ | ⟨hfits, hstep⟩⟩ :=
      endTransmission_cases compress packet hread hfmt hC hseals hstart hs queue
    · obtain ⟨last, others, hlast, hrun, hopened⟩ := ih hrest (queue ++ [wrapped]) hnext
      refine ⟨last, wrapped :: others, hlast, ?_, fun t ht => ?_⟩
      · rw [List.foldl_cons, hstep, hrun, List.append_assoc, List.singleton_append]
      · rw [opened, if_neg hwrapped, hopens t ht, hopened t ht]
        by_cases hids : start.senderId = start.receiverId
        · have hpass : start.Opens packet := ⟨hids, hfits⟩
          have hkeep : Option.filter (· ≠ []) (some packet) = some packet := by
            simp [Option.filter, hpacket]
          rw [if_pos hids, List.filter_cons_of_pos (by simpa using hpass)]
          simp only [bind, Except.bind, pure, Except.pure, hkeep, Option.toList_some,
            List.singleton_append]
        · have hfail : ¬ start.Opens packet := fun h => hids h.1
          rw [if_neg hids, List.filter_cons_of_neg (by simpa using hfail)]
          rfl
    · obtain ⟨last, others, hlast, hrun, hopened⟩ := ih hrest queue hnext
      have hfail : ¬ start.Opens packet := fun h => hfits h.2
      refine ⟨last, others, hlast, ?_, fun t ht => ?_⟩
      · rw [List.foldl_cons, hstep, hrun]
      · rw [hopened t ht, List.filter_cons_of_neg (by simpa using hfail)]

/-- A loop over some of the elements finds what the loop over all of them finds if the others
give nothing. -/
lemma filterMap_filter_eq_iff {α β : Type} {p : α → Bool} {f : α → Option β} {l : List α} :
    (l.filter p).filterMap f = l.filterMap f ↔ ∀ a ∈ l, f a ≠ none → p a = true := by
  induction l with
  | nil => simp
  | cons a l ih =>
    rw [List.forall_mem_cons, ← ih]
    cases hp : p a with
    | true =>
      rw [List.filter_cons_of_pos hp]
      cases hf : f a <;> simp [hf]
    | false =>
      rw [List.filter_cons_of_neg (by simp [hp])]
      cases hf : f a with
      | none => simp [hf]
      | some b =>
        have hle := (List.filter_sublist (p := p) (l := l)).filterMap f |>.length_le
        have hne : (l.filter p).filterMap f ≠ (a :: l).filterMap f := by
          intro heq
          rw [heq, List.filterMap_cons, hf, List.length_cons] at hle
          omega
        simp [hne]

section

variable {start layer next : SecurityLayer} {build : BuildConfig}
  {getenv : String → Option (List UInt8)} {config : TopicsConfig} {compress : Bool}
  {sent : List Transmission}

/-- The packets that the process opens, and all its packets, as what the streams take. -/
lemma localDelivery_iff_filterMap (hN : N.Lawful) {wrapped opens : List Packet}
    (hqueue : sent.foldl (send N C compress) ⟨some layer, []⟩ = ⟨some next, wrapped⟩)
    (hopened : opened N D compress (some next) wrapped = .ok opens)
    (hgood : ∀ packet ∈ packetsOf N sent, InterpretPackets.Good N packet)
    (hopens : ∀ packet ∈ opens, packet ∈ packetsOf N sent) (listening : List RxStream) :
    LocalDelivery N C D compress config layer sent listening ↔ ∀ r ∈ listening,
      opens.filterMap (taken N config r) = (packetsOf N sent).filterMap (taken N config r) := by
  have hqueue' : sent.foldl (send N C compress) ⟨none, []⟩ = ⟨none, packetsOf N sent⟩ := by
    rw [foldl_send, foldl_endTransmission_none, List.nil_append]
  obtain ⟨ds, hds, htaken⟩ := InterpretPackets.dispatched_goods config hN le_rfl
    (!listening.isEmpty) fun packet hpacket => hgood packet (hopens packet hpacket)
  obtain ⟨ds', hds', htaken'⟩ := InterpretPackets.dispatched_goods config hN le_rfl
    (!listening.isEmpty) hgood
  simp only [← htaken, ← htaken']
  rw [LocalDelivery, hqueue, hqueue']
  constructor
  · rintro ⟨packets, fuel, ds₁, ds₁', hopened₁, hds₁, hds₁', htakes⟩
    obtain rfl := Except.ok.inj (hopened.symm.trans hopened₁)
    obtain ⟨rfl, -⟩ := Prod.mk.inj (InterpretPackets.dispatched_unique hds₁ hds)
    obtain ⟨rfl, -⟩ := Prod.mk.inj (InterpretPackets.dispatched_unique hds₁' hds')
    exact htakes
  · intro htakes
    exact ⟨opens, _, ds, ds', hopened, hds, hds', htakes⟩

/-- A stream takes a packet of its type and identifier, if that has a topic. -/
lemma taken_ne_none_iff (hN : N.Lawful) {t : Transmission} {packet : Packet}
    (h : t.Enqueues N packet) (r : RxStream) :
    taken N config r packet ≠ none
      ↔ config.getIdentifierTopic t.tx.streamIdentifier ≠ "" ∧ t.Matches r := by
  rw [InterpretPackets.taken_eq hN h, Transmission.accepted_interpreted]
  split_ifs with hname hmatch
  · simp [hname]
  · simp [hname, hmatch]
  · simp [hmatch]

/-- **Local delivery.** A process with the security layer delivers the messages that it sends to
its own streams as without the layer if and only if for every message that a stream takes, the
two identifiers are the same and the message fits in a packet after the wrapping. -/
theorem local_delivery_iff (hN : N.Lawful) (hread : ReadsBstr N) (hfmt : FormatsBstr N)
    (hC : C.Mirrors D encrypt) (hseals : C.Seals encrypt) (hpiv : build.pivLen ≤ 16)
    (hstart : ofEnvironment N C build getenv = .ok start) (hlayer : Later start layer)
    (hkeys : start.senderId ≠ start.receiverId → start.senderKeyBytes ≠ start.receiverKeyBytes)
    (hrejects : start.senderKeyBytes ≠ start.receiverKeyBytes → ∀ contextIv partialIv payload,
      D.encryptDecryptLw (aeadAlgoToCoseAlgo start.aeadParams.alg) start.receiverKeyBytes contextIv
        partialIv (encrypt (aeadAlgoToCoseAlgo start.aeadParams.alg) start.senderKeyBytes contextIv
          partialIv payload) = none)
    (hsent : ∀ t ∈ sent, t.Typed ∧ ∀ f ∈ t.fields, f.Streamed) (listening : List RxStream) :
    LocalDelivery N C D compress config layer sent listening ↔
      ∀ t ∈ sent, ∀ packet, t.Enqueues N packet →
        (config.getIdentifierTopic t.tx.streamIdentifier ≠ "" ∧ ∃ r ∈ listening, t.Matches r) →
        start.senderId = start.receiverId ∧ start.Fits packet := by
  obtain ⟨-, hsize, hknown, hsame⟩ := ofEnvironment_start hstart
  have haccepted : Accepted D encrypt start :=
    ⟨hsize.trans_le hpiv, hknown, hsame, fun hids => hrejects (hkeys hids)⟩
  have hmem : ∀ packet, packet ∈ packetsOf N sent ↔ ∃ t ∈ sent, t.Enqueues N packet := by
    intro packet
    rw [packetsOf, List.mem_filterMap]
    exact exists_congr fun t => and_congr_right fun ht => (and_iff_right (hsent t ht).2).symm
  have hgood : ∀ packet ∈ packetsOf N sent, InterpretPackets.Good N packet := by
    intro packet hpacket
    obtain ⟨t, ht, henqueues⟩ := (hmem packet).mp hpacket
    exact ⟨t, (hsent t ht).1, henqueues⟩
  have hne : ∀ packet ∈ packetsOf N sent, packet ≠ [] := by
    intro packet hpacket
    obtain ⟨t, -, henqueues⟩ := hgood packet hpacket
    exact henqueues.ne_nil hN
  obtain ⟨next, wrapped, hnext, hrun, hopened⟩ := foldl_endTransmission_some (N := N) (C := C)
    compress hread hfmt hC hseals haccepted hne [] hlayer
  have hqueue : sent.foldl (send N C compress) ⟨some layer, []⟩ = ⟨some next, wrapped⟩ := by
    rw [foldl_send, hrun, List.nil_append]
  rw [localDelivery_iff_filterMap hN hqueue (hopened next hnext) hgood
    fun packet hpacket => List.mem_of_mem_filter hpacket]
  simp only [filterMap_filter_eq_iff, decide_eq_true_eq]
  constructor
  · rintro h t ht packet henqueues ⟨hname, r, hr, hmatch⟩
    exact h r hr packet ((hmem packet).mpr ⟨t, ht, henqueues⟩)
      ((taken_ne_none_iff hN henqueues r).mpr ⟨hname, hmatch⟩)
  · intro h r hr packet hpacket htakes
    obtain ⟨t, ht, henqueues⟩ := (hmem packet).mp hpacket
    obtain ⟨hname, hmatch⟩ := (taken_ne_none_iff hN henqueues r).mp htakes
    exact h t ht packet henqueues ⟨hname, r, hr, hmatch⟩

end

/-! ## Two environments -/

lemma taggedCose_seals : taggedCose.Seals taggedEncrypt where
  encode_of_le := fun h => if_pos h
  length_encrypt := by
    intro alg hknown key contextIv partialIv payload
    rw [taggedEncrypt, List.length_append, length_tag]
    cases alg with
    | unknown => exact absurd rfl hknown
    | asconAead128 | asconAead128_64 | asconAead128_32 | a128gcm => rfl

/-- A key with another tag does not authenticate. -/
lemma encryptDecryptLw_taggedEncrypt {alg : CoseAlgo} {key key' : List UInt8}
    (h : tag alg key ≠ tag alg key') (contextIv partialIv payload : List UInt8) :
    taggedDecrypt.encryptDecryptLw alg key' contextIv partialIv
      (taggedEncrypt alg key contextIv partialIv payload) = none := by
  have hlength : (taggedEncrypt alg key contextIv partialIv payload).length
      - tagLength alg = payload.length := by
    simp [taggedEncrypt, length_tag]
  simp only [taggedDecrypt, hlength]
  rw [taggedEncrypt, List.drop_left, if_neg h]

/-- An environment in which the two identifiers are the same. -/
def sharedLab (name : String) : Option (List UInt8) :=
  if name = "RECEIVER_ID" then some (ascii "01") else lab name

/-- A sample of a topic. -/
def sample : Transmission := ⟨⟨publisherType, 1, false, []⟩, none, [.uint 7]⟩

/-- With the same identifier twice, a sample reaches the subscriber of the same process. -/
theorem local_delivery_shared :
    ∃ layer, ofEnvironment NanoCbor.rfc8949 taggedCose .default sharedLab = .ok layer ∧
      LocalDelivery NanoCbor.rfc8949 taggedCose taggedDecrypt true
        (.loadConfiguration [("/a", 1)]) layer [sample] [⟨subscriberType, 1, 0, [], []⟩] := by
  obtain ⟨layer, hlayer, hids, hkeys, hsize, hfits⟩ :
      ∃ layer, ofEnvironment NanoCbor.rfc8949 taggedCose .default sharedLab = .ok layer ∧
        layer.senderId = layer.receiverId ∧ layer.senderKeyBytes = layer.receiverKeyBytes ∧
        layer.pivBytes.length = layer.pivSize ∧ layer.Fits [0x00, 0x01, 0x07] :=
    ⟨_, rfl, rfl, rfl, rfl, by decide⟩
  have hsent : ∀ t ∈ [sample], t.Typed ∧ ∀ f ∈ t.fields, f.Streamed :=
    List.forall_mem_singleton.mpr ⟨Or.inl rfl, List.forall_mem_singleton.mpr trivial⟩
  refine ⟨layer, hlayer, (local_delivery_iff NanoCbor.rfc8949_lawful readsBstr_rfc8949
    formatsBstr_rfc8949 taggedCose_mirrors taggedCose_seals (by decide) hlayer (.refl hsize)
    (absurd hids) (absurd hkeys) hsent _).mpr ?_⟩
  refine List.forall_mem_singleton.mpr fun packet henqueues _ => ⟨hids, ?_⟩
  obtain rfl : [0x00, 0x01, 0x07] = packet := Option.some.inj henqueues.2
  exact hfits

/-- With two identifiers, the process does not open its own sample. -/
theorem loopback_not_delivered :
    ∃ layer, ofEnvironment NanoCbor.rfc8949 taggedCose .default lab = .ok layer ∧
      ¬ LocalDelivery NanoCbor.rfc8949 taggedCose taggedDecrypt true
        (.loadConfiguration [("/a", 1)]) layer [sample] [⟨subscriberType, 1, 0, [], []⟩] := by
  obtain ⟨layer, hlayer, hids, htag, halg⟩ :
      ∃ layer, ofEnvironment NanoCbor.rfc8949 taggedCose .default lab = .ok layer ∧
        layer.senderId ≠ layer.receiverId ∧
        tag .asconAead128 layer.senderKeyBytes ≠ tag .asconAead128 layer.receiverKeyBytes ∧
        layer.aeadParams.alg = .asconAead128 := ⟨_, rfl, by decide, by decide, rfl⟩
  obtain ⟨hbytes, hsize, hknown, hsame⟩ := ofEnvironment_start hlayer
  have haccepted : Accepted taggedDecrypt taggedEncrypt layer := by
    refine ⟨hsize.trans_le (by decide), hknown, hsame, fun _ contextIv partialIv payload => ?_⟩
    rw [halg]
    exact encryptDecryptLw_taggedEncrypt htag contextIv partialIv payload
  have hgood : ∀ packet ∈ packetsOf NanoCbor.rfc8949 [sample],
      InterpretPackets.Good NanoCbor.rfc8949 packet :=
    List.forall_mem_singleton.mpr
      ⟨sample, Or.inl rfl, List.forall_mem_singleton.mpr trivial, rfl⟩
  have hne : ∀ packet ∈ packetsOf NanoCbor.rfc8949 [sample], packet ≠ [] := by decide
  obtain ⟨next, wrapped, hnext, hrun, hopened⟩ := foldl_endTransmission_some true
    readsBstr_rfc8949 formatsBstr_rfc8949 taggedCose_mirrors taggedCose_seals haccepted hne []
    (.refl hbytes)
  have hnothing : (packetsOf NanoCbor.rfc8949 [sample]).filter (layer.Opens ·) = [] :=
    List.filter_eq_nil_iff.mpr fun packet _ hopens => hids (of_decide_eq_true hopens).1
  have hqueue : [sample].foldl (send NanoCbor.rfc8949 taggedCose true) ⟨some layer, []⟩
      = ⟨some next, wrapped⟩ := by
    rw [foldl_send, hrun, List.nil_append]
  have hopens := hopened next hnext
  rw [hnothing] at hopens
  refine ⟨layer, hlayer, fun h => ?_⟩
  rw [localDelivery_iff_filterMap NanoCbor.rfc8949_lawful hqueue hopens hgood nofun] at h
  cases h _ List.mem_cons_self

end SecurityLayer
end Security
end RmwDesert
