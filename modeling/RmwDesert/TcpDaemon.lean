/-
The link to the DESERT socket (`TcpDaemon.cpp`).

A packet goes out as `START START d payload END`, where `d` is the length of the payload
modulo 256, and the receiver rebuilds the packets from the bytes that `read` returns.
The byte loop of `socket_rx_communication` is a state machine on the working vector
`packet`, the flag `found_header` and the byte `dimension_in_header`; its four guarded
updates are kept as four functions, applied in the order of the source.

The main results are

* `framing_round_trip_iff`: which lists of packets survive the framing;
* `framing_sound`: what the packets pushed are on any stream;
* `chunking_independence_iff`: which ways of cutting the stream into reads feed every
  byte to the state machine exactly once.
-/
import Mathlib.Tactic

namespace RmwDesert

/-- The raw packets exchanged with the daemon, `std::vector<uint8_t>` in the source. -/
abbrev Packet := List UInt8

namespace TcpDaemon

/-- `MAX_PACKET_LENGTH`. -/
def maxPacketLength : ℕ := 512

/-- `START_MARKER`. -/
def startMarker : UInt8 := 0b10011001

/-- `END_MARKER`. -/
def endMarker : UInt8 := 0b01010101

/-- `BYTE_MASK`. -/
def byteMask : ℕ := 0b11111111

/-- The byte `n & BYTE_MASK` that stands for a length on the wire. -/
def lengthByte (n : ℕ) : UInt8 := UInt8.ofNat (n &&& byteMask)

lemma lengthByte_eq_iff {m n : ℕ} : lengthByte m = lengthByte n ↔ m % 256 = n % 256 := by
  have hmask : ∀ k : ℕ, k &&& byteMask = k % 256 :=
    fun k => Nat.and_two_pow_sub_one_eq_mod k 8
  simp only [lengthByte, hmask, ← UInt8.toNat_inj, UInt8.toNat_ofNat']
  omega

/-! ## The sender -/

/-- The frame that one turn of the loop of `socket_tx_communication` sends for a packet. -/
def frame (packet : Packet) : List UInt8 :=
  startMarker :: startMarker :: lengthByte packet.length :: (packet ++ [endMarker])

/-! ## The receiver -/

/-- The local variables of `socket_rx_communication`, and the packets that the loop has
pushed on `_rx_packets`. -/
structure Receiver where
  /-- The working vector. -/
  packet : Packet
  /-- Whether a header was found. -/
  foundHeader : Bool
  /-- The length byte of the last header. -/
  dimensionInHeader : UInt8
  /-- The packets pushed so far. -/
  rxPackets : List Packet
deriving DecidableEq, Repr

namespace Receiver

/-- The state in which the receiver thread enters its loop. -/
def initial : Receiver := ⟨[], false, 0, []⟩

/-- The receiver waits for a header with an empty working vector. -/
def Idle (s : Receiver) : Prop := s.packet = [] ∧ s.foundHeader = false

instance (s : Receiver) : Decidable s.Idle := inferInstanceAs (Decidable (_ ∧ _))

end Receiver

/-- The access `packet.end()[-k]`, which falls outside the vector when it has fewer than
`k` elements. -/
def endAt (packet : Packet) (k : ℕ) : Option UInt8 := packet.reverse[k - 1]?

/-- "Found header": the two bytes before `field` are start markers. -/
def findHeader (field : UInt8) (s : Receiver) : Receiver :=
  if !s.foundHeader && endAt s.packet 2 == some startMarker
      && endAt s.packet 3 == some startMarker then
    { s with packet := [], foundHeader := true, dimensionInHeader := field }
  else s

/-- "Found tail": an end marker at a position that agrees with the header. -/
def findTail (s : Receiver) : Receiver :=
  if s.foundHeader && endAt s.packet 1 == some endMarker then
    if s.dimensionInHeader == lengthByte (s.packet.length - 1) then
      { s with packet := [], foundHeader := false,
               rxPackets := s.rxPackets ++ [s.packet.dropLast] }
    else s
  else s

/-- "Erase oldest element if a RMW_desert header was not found". -/
def trimWindow (s : Receiver) : Receiver :=
  if !s.foundHeader && decide (5 < s.packet.length) then { s with packet := s.packet.tail }
  else s

/-- "Overflow". -/
def resetOverflow (s : Receiver) : Receiver :=
  if maxPacketLength < s.packet.length then { s with packet := [], foundHeader := false }
  else s

/-- One turn of the byte loop of `socket_rx_communication`. -/
def rxByte (s : Receiver) (field : UInt8) : Receiver :=
  resetOverflow (trimWindow (findTail (findHeader field
    { s with packet := s.packet ++ [field] })))

/-- The byte loop over a block of bytes. -/
def rxBytes (s : Receiver) (bytes : List UInt8) : Receiver := bytes.foldl rxByte s

@[simp] lemma rxBytes_nil (s : Receiver) : rxBytes s [] = s := rfl

@[simp] lemma rxBytes_cons (s : Receiver) (b : UInt8) (bytes : List UInt8) :
    rxBytes s (b :: bytes) = rxBytes (rxByte s b) bytes := rfl

lemma rxBytes_append (s : Receiver) (u v : List UInt8) :
    rxBytes s (u ++ v) = rxBytes (rxBytes s u) v := by
  simp [rxBytes, List.foldl_append]

@[simp] lemma endAt_append_one (p : Packet) (b : UInt8) : endAt (p ++ [b]) 1 = some b := by
  simp [endAt]

@[simp] lemma endAt_nil (k : ℕ) : endAt [] k = none := by
  simp [endAt]

/-! ### One byte, by the state it meets -/

/-- A byte of the payload that does not end the frame is added to the working vector. -/
lemma rxByte_payload {acc : Packet} {d b : UInt8} {q : List Packet}
    (hb : b = endMarker → d ≠ lengthByte acc.length) (hlen : acc.length < maxPacketLength) :
    rxByte ⟨acc, true, d, q⟩ b = ⟨acc ++ [b], true, d, q⟩ := by
  have htail : findTail ⟨acc ++ [b], true, d, q⟩ = ⟨acc ++ [b], true, d, q⟩ := by
    by_cases hend : b = endMarker
    · simp [findTail, hb hend]
    · simp [findTail, hend]
  have hfit : (acc ++ [b]).length ≤ maxPacketLength := by
    rw [List.length_append, List.length_singleton]
    exact hlen
  simp only [rxByte, findHeader, Bool.not_true, Bool.false_and, Bool.false_eq_true, if_false,
    htail, trimWindow, resetOverflow, Nat.not_lt.mpr hfit]

/-- An end marker at the position the header announces completes the packet. -/
lemma rxByte_tail {acc : Packet} {d : UInt8} {q : List Packet} (hd : d = lengthByte acc.length) :
    rxByte ⟨acc, true, d, q⟩ endMarker = ⟨[], false, d, q ++ [acc]⟩ := by
  simp [rxByte, findHeader, findTail, trimWindow, resetOverflow, hd]

/-- The three bytes of a header, met with an empty working vector. -/
lemma rxBytes_header (d₀ d : UInt8) (q : List Packet) :
    rxBytes ⟨[], false, d₀, q⟩ [startMarker, startMarker, d] = ⟨[], true, d, q⟩ := by
  simp [rxBytes, rxByte, findHeader, findTail, trimWindow, resetOverflow, endAt,
    maxPacketLength]

/-- A byte adds at most one packet to those pushed so far. -/
lemma rxByte_rxPackets (s : Receiver) (b : UInt8) :
    s.rxPackets <+: (rxByte s b).rxPackets := by
  have hheader (f : UInt8) (t : Receiver) : (findHeader f t).rxPackets = t.rxPackets := by
    unfold findHeader; split <;> rfl
  have htail (t : Receiver) : t.rxPackets <+: (findTail t).rxPackets := by
    unfold findTail
    split
    · split
      · exact List.prefix_append _ _
      · exact List.prefix_refl _
    · exact List.prefix_refl _
  have htrim (t : Receiver) : (trimWindow t).rxPackets = t.rxPackets := by
    unfold trimWindow; split <;> rfl
  have hreset (t : Receiver) : (resetOverflow t).rxPackets = t.rxPackets := by
    unfold resetOverflow; split <;> rfl
  have h := htail (findHeader b { s with packet := s.packet ++ [b] })
  rw [hheader] at h
  rw [rxByte, hreset, htrim]
  exact h

lemma rxBytes_rxPackets (s : Receiver) (bytes : List UInt8) :
    s.rxPackets <+: (rxBytes s bytes).rxPackets := by
  induction bytes generalizing s with
  | nil => exact List.prefix_refl _
  | cons b bytes ih => exact (rxByte_rxPackets s b).trans (ih _)

/-! ### One frame -/

/-- No end marker of the payload stands at a position that agrees, modulo 256, with the
length announced in the header. -/
def NoEarlyTail (packet : Packet) : Prop :=
  ∀ k < packet.length, packet[k]? = some endMarker → k % 256 ≠ packet.length % 256

instance (packet : Packet) : Decidable (NoEarlyTail packet) :=
  inferInstanceAs (Decidable (∀ k < _, _))

/-- The receiver reads a block of payload bytes none of which ends the frame. -/
lemma rxBytes_payload {d : UInt8} {q : List Packet} (bytes : List UInt8) :
    ∀ acc : Packet, acc.length + bytes.length ≤ maxPacketLength →
      (∀ k < bytes.length, bytes[k]? = some endMarker → d ≠ lengthByte (acc.length + k)) →
      rxBytes ⟨acc, true, d, q⟩ bytes = ⟨acc ++ bytes, true, d, q⟩ := by
  induction bytes with
  | nil => intro acc _ _; simp
  | cons b bytes ih =>
    intro acc hlen hmark
    simp only [List.length_cons] at hlen
    have hb : b = endMarker → d ≠ lengthByte acc.length := fun hb => by
      simpa using hmark 0 (by simp) (by simp [hb])
    rw [rxBytes_cons, rxByte_payload hb (by omega), ih _ (by simp; omega)]
    · simp
    · intro k hk hkb
      have := hmark (k + 1) (by simpa using hk) (by simpa using hkb)
      simpa [Nat.add_assoc, Nat.add_comm 1 k] using this

/-- A frame without an early tail is received as the packet it was built from. -/
lemma rxBytes_frame {packet : Packet} (hlen : packet.length ≤ maxPacketLength)
    (hmark : NoEarlyTail packet) (d₀ : UInt8) (q : List Packet) :
    rxBytes ⟨[], false, d₀, q⟩ (frame packet)
      = ⟨[], false, lengthByte packet.length, q ++ [packet]⟩ := by
  have hsplit : frame packet
      = [startMarker, startMarker, lengthByte packet.length] ++ (packet ++ [endMarker]) := rfl
  have hpay : rxBytes ⟨[], true, lengthByte packet.length, q⟩ packet
      = ⟨packet, true, lengthByte packet.length, q⟩ := by
    refine rxBytes_payload packet [] (by simpa using hlen) ?_
    intro k hk hkb heq
    exact hmark k hk hkb (by simpa [eq_comm] using lengthByte_eq_iff.mp heq)
  rw [hsplit, rxBytes_append, rxBytes_header, rxBytes_append, hpay]
  exact rxByte_tail rfl

/-- A frame with an early tail makes the receiver push a packet that is too short. -/
lemma rxBytes_frame_early {packet : Packet} (hlen : packet.length ≤ maxPacketLength)
    (hmark : ¬ NoEarlyTail packet) (d₀ : UInt8) (q : List Packet) :
    ∃ k < packet.length,
      q ++ [packet.take k] <+: (rxBytes ⟨[], false, d₀, q⟩ (frame packet)).rxPackets := by
  have hex : ∃ k, k < packet.length ∧ packet[k]? = some endMarker
      ∧ k % 256 = packet.length % 256 := by
    simpa [NoEarlyTail] using hmark
  -- the first end marker that meets the announced length is the one that stops the frame
  obtain ⟨hk, hkb, hkm⟩ := Nat.find_spec hex
  set k := Nat.find hex with hkdef
  refine ⟨k, hk, ?_⟩
  have hpay : rxBytes ⟨[], true, lengthByte packet.length, q⟩ (packet.take k)
      = ⟨packet.take k, true, lengthByte packet.length, q⟩ := by
    refine rxBytes_payload (packet.take k) [] (by simp; omega) ?_
    intro j hj hjb heq
    have hjk : j < k := by simp at hj; omega
    refine Nat.find_min hex hjk ⟨by omega, ?_, ?_⟩
    · simpa [List.getElem?_take, hjk] using hjb
    · simpa [eq_comm] using lengthByte_eq_iff.mp heq
  have hcut : packet = packet.take k ++ endMarker :: packet.drop (k + 1) := by
    have hget : packet[k] = endMarker := by simpa [List.getElem?_eq_getElem hk] using hkb
    rw [← hget, ← List.drop_eq_getElem_cons hk, List.take_append_drop]
  have hsplit : frame packet = [startMarker, startMarker, lengthByte packet.length]
      ++ (packet.take k ++ endMarker :: (packet.drop (k + 1) ++ [endMarker])) := by
    have hend : packet ++ [endMarker]
        = packet.take k ++ endMarker :: (packet.drop (k + 1) ++ [endMarker]) := by
      conv_lhs => rw [hcut]
      simp
    simp [frame, hend]
  have htake : lengthByte packet.length = lengthByte (packet.take k).length := by
    rw [lengthByte_eq_iff, List.length_take, Nat.min_eq_left hk.le, hkm]
  rw [hsplit, rxBytes_append, rxBytes_header, rxBytes_append, hpay, rxBytes_cons,
    rxByte_tail htake]
  exact rxBytes_rxPackets ⟨[], false, lengthByte packet.length, q ++ [packet.take k]⟩ _

/-! ### Sequences of frames -/

lemma rxBytes_frames (packets : List Packet) (hlen : ∀ p ∈ packets, p.length ≤ maxPacketLength)
    (hmark : ∀ p ∈ packets, NoEarlyTail p) :
    ∀ (d₀ : UInt8) (q : List Packet), ∃ d,
      rxBytes ⟨[], false, d₀, q⟩ (packets.flatMap frame) = ⟨[], false, d, q ++ packets⟩ := by
  induction packets with
  | nil => intro d₀ q; exact ⟨d₀, by simp⟩
  | cons p packets ih =>
    intro d₀ q
    obtain ⟨d, hd⟩ := ih (fun r hr => hlen r (by simp [hr])) (fun r hr => hmark r (by simp [hr]))
      (lengthByte p.length) (q ++ [p])
    refine ⟨d, ?_⟩
    rw [List.flatMap_cons, rxBytes_append,
      rxBytes_frame (hlen p (by simp)) (hmark p (by simp)), hd]
    simp

/-- A packet with an early tail is not received, whatever follows its frame. -/
lemma rxBytes_frame_early_ne {p : Packet} {packets : List Packet}
    (hlen : p.length ≤ maxPacketLength) (hmark : ¬ NoEarlyTail p) (d₀ : UInt8) (q : List Packet)
    (rest : List UInt8) :
    (rxBytes ⟨[], false, d₀, q⟩ (frame p ++ rest)).rxPackets ≠ q ++ p :: packets := by
  intro heq
  obtain ⟨k, hk, hpre⟩ := rxBytes_frame_early hlen hmark d₀ q
  have hall : q ++ [p.take k] <+: q ++ p :: packets := by
    rw [← heq, rxBytes_append]
    exact hpre.trans (rxBytes_rxPackets _ _)
  have hhead : p.take k = p := by
    have := (List.prefix_append_right_inj q).mp hall
    simpa using (List.cons_prefix_cons.mp this).1
  have hlen' := congrArg List.length hhead
  simp only [List.length_take] at hlen'
  omega

lemma noEarlyTail_of_rxBytes_frames (packets : List Packet)
    (hlen : ∀ p ∈ packets, p.length ≤ maxPacketLength) :
    ∀ (d₀ : UInt8) (q : List Packet),
      (rxBytes ⟨[], false, d₀, q⟩ (packets.flatMap frame)).rxPackets = q ++ packets →
      ∀ p ∈ packets, NoEarlyTail p := by
  induction packets with
  | nil => intro d₀ q _ p hp; simp at hp
  | cons p packets ih =>
    intro d₀ q heq
    rw [List.flatMap_cons] at heq
    have hp : NoEarlyTail p := by
      by_contra hmark
      exact rxBytes_frame_early_ne (hlen p (by simp)) hmark d₀ q _ heq
    rw [rxBytes_append, rxBytes_frame (hlen p (by simp)) hp] at heq
    have hrest := ih (fun r hr => hlen r (by simp [hr])) (lengthByte p.length) (q ++ [p])
      (by simpa using heq)
    intro r hr
    rcases List.mem_cons.mp hr with rfl | hr
    · exact hp
    · exact hrest r hr

/-- **Framing round trip.**  The receiver rebuilds a list of packets from the frames of the
sender, and ends as it began, exactly when no payload carries an end marker at a position
that agrees modulo 256 with the length of the packet. -/
theorem framing_round_trip_iff (packets : List Packet)
    (hlen : ∀ p ∈ packets, p.length ≤ maxPacketLength) :
    ((rxBytes Receiver.initial (packets.flatMap frame)).rxPackets = packets ∧
        (rxBytes Receiver.initial (packets.flatMap frame)).Idle) ↔
      ∀ p ∈ packets, NoEarlyTail p := by
  constructor
  · rintro ⟨heq, -⟩
    exact noEarlyTail_of_rxBytes_frames packets hlen 0 [] (by simpa [Receiver.initial] using heq)
  · intro hmark
    obtain ⟨d, hd⟩ := rxBytes_frames packets hlen hmark 0 []
    rw [Receiver.initial, hd]
    exact ⟨rfl, rfl, rfl⟩

/-- Two packets, one of them a lone end marker, that survive the framing. -/
theorem framing_round_trip_short :
    (rxBytes Receiver.initial ([[7, 8], [endMarker]].flatMap frame)).rxPackets
        = [[7, 8], [endMarker]] ∧
      (rxBytes Receiver.initial ([[7, 8], [endMarker]].flatMap frame)).Idle :=
  (framing_round_trip_iff [[7, 8], [endMarker]] (by decide)).mpr (by decide)

/-- A packet of 256 bytes that begins with an end marker: its length byte is zero, and the
receiver takes the first byte of the payload for the tail of an empty packet. -/
def longPacket : Packet := endMarker :: List.replicate 255 0

theorem framing_loses_longPacket :
    longPacket ≠ [] ∧ longPacket.length ≤ maxPacketLength ∧
      (rxBytes Receiver.initial ([longPacket].flatMap frame)).rxPackets ≠ [longPacket] := by
  have h256 : longPacket.length = 256 := by
    rw [longPacket, List.length_cons, List.length_replicate]
  have hlen : longPacket.length ≤ maxPacketLength := by rw [h256]; decide
  have hmark : ¬ NoEarlyTail longPacket := fun h => h 0 (by rw [h256]; decide) rfl (by rw [h256])
  refine ⟨List.cons_ne_nil _ _, hlen, ?_⟩
  simpa [Receiver.initial] using @rxBytes_frame_early_ne longPacket [] hlen hmark 0 [] []

/-! ### Arbitrary streams -/

/-- The packets stand in the stream one after the other, each in a frame of its own: between
`START START d` and `END`, where the byte `d` is its length modulo 256. -/
def InFrames : List Packet → List UInt8 → Prop
  | [], _ => True
  | packet :: packets, stream => ∃ gap d rest,
      stream = gap ++ startMarker :: startMarker :: d :: (packet ++ endMarker :: rest) ∧
      d.toNat = packet.length % 256 ∧ packet.length ≤ maxPacketLength ∧ InFrames packets rest

lemma InFrames.append {packets₂ : List Packet} {stream₂ : List UInt8}
    (h₂ : InFrames packets₂ stream₂) : ∀ {packets₁ : List Packet} {stream₁ : List UInt8},
    InFrames packets₁ stream₁ → InFrames (packets₁ ++ packets₂) (stream₁ ++ stream₂) := by
  intro packets₁
  induction packets₁ with
  | nil =>
    -- the first stream lies in the gap before the first packet of the second
    intro stream₁ _
    cases packets₂ with
    | nil => trivial
    | cons p packets =>
      obtain ⟨gap, d, rest, rfl, hd, hlen, hrest⟩ := h₂
      exact ⟨stream₁ ++ gap, d, rest, by simp, hd, hlen, hrest⟩
  | cons p packets ih =>
    rintro stream₁ ⟨gap, d, rest, rfl, hd, hlen, hrest⟩
    exact ⟨gap, d, rest ++ stream₂, by simp, hd, hlen, ih hrest⟩

lemma toNat_lengthByte (n : ℕ) : (lengthByte n).toNat = n % 256 := by
  have hmask : n &&& byteMask = n % 256 := Nat.and_two_pow_sub_one_eq_mod n 8
  rw [lengthByte, hmask, UInt8.toNat_ofNat']
  omega

namespace Receiver

/-- The header that the receiver has read, if it waits for a tail. -/
def header (s : Receiver) : List UInt8 :=
  if s.foundHeader then [startMarker, startMarker, s.dimensionInHeader] else []

/-- The bytes seen so far end with the header and the working vector, and the packets pushed
come from the bytes before. -/
def After (s : Receiver) (seen : List UInt8) : Prop :=
  ∃ done, InFrames s.rxPackets done ∧ seen = done ++ (s.header ++ s.packet)

/-- The working vector is bounded, and it is a short window while there is no header. -/
structure Bounded (s : Receiver) : Prop where
  packet_length : s.packet.length ≤ maxPacketLength
  window_length : s.foundHeader = false → s.packet.length ≤ 5

/-- Bytes that leave the working vector count as seen before it. -/
lemma After.forget {s s' : Receiver} {seen : List UInt8} (gone : List UInt8)
    (h : s.After seen) (hpackets : s'.rxPackets = s.rxPackets)
    (hbytes : s.header ++ s.packet = gone ++ (s'.header ++ s'.packet)) : s'.After seen := by
  obtain ⟨done, hdone, rfl⟩ := h
  have hgone : InFrames s'.rxPackets (done ++ gone) := by
    rw [hpackets, ← List.append_nil s.rxPackets]
    exact @InFrames.append [] gone trivial _ _ hdone
  exact ⟨done ++ gone, hgone, by rw [hbytes, List.append_assoc]⟩

lemma After.push {s : Receiver} {seen : List UInt8} (h : s.After seen) (field : UInt8) :
    After { s with packet := s.packet ++ [field] } (seen ++ [field]) := by
  obtain ⟨done, hdone, rfl⟩ := h
  exact ⟨done, hdone, by simp [header]⟩

end Receiver

/-- The last three bytes of a vector, when two start markers stand before the last one. -/
lemma eq_append_of_endAt {packet : Packet} {field : UInt8}
    (h₂ : endAt (packet ++ [field]) 2 = some startMarker)
    (h₃ : endAt (packet ++ [field]) 3 = some startMarker) :
    ∃ gone, packet ++ [field] = gone ++ [startMarker, startMarker, field] := by
  have hrev : ∃ gone, packet.reverse = startMarker :: startMarker :: gone := by
    cases hp : packet.reverse with
    | nil => simp [endAt, hp] at h₂
    | cons a rest =>
      cases rest with
      | nil => simp [endAt, hp] at h₃
      | cons b rest =>
        simp only [endAt, List.reverse_append, List.reverse_singleton, List.singleton_append, hp,
          Nat.reduceSub, List.getElem?_cons_succ, List.getElem?_cons_zero,
          Option.some.injEq] at h₂ h₃
        exact ⟨rest, by rw [h₂, h₃]⟩
  obtain ⟨gone, hgone⟩ := hrev
  refine ⟨gone.reverse, ?_⟩
  rw [← List.reverse_reverse packet, hgone]
  simp

lemma eq_append_of_endAt_one {packet : Packet} {b : UInt8} (h : endAt packet 1 = some b) :
    packet = packet.dropLast ++ [b] := by
  have hlast : packet.getLast? = some b := by
    simpa [endAt, ← List.head?_eq_getElem?] using h
  rw [List.dropLast_append_getLast? b hlast]

open Receiver

lemma findHeader_after {packet : Packet} {field : UInt8} {s : Receiver} {seen : List UInt8}
    (hs : s.packet = packet ++ [field]) (h : s.After seen) : (findHeader field s).After seen := by
  unfold findHeader
  split_ifs with hfound
  · simp only [Bool.and_eq_true, Bool.not_eq_true', beq_iff_eq] at hfound
    obtain ⟨⟨hheader, h₂⟩, h₃⟩ := hfound
    rw [hs] at h₂ h₃
    obtain ⟨gone, hgone⟩ := eq_append_of_endAt h₂ h₃
    exact After.forget gone h rfl (by simp [header, hheader, hs, hgone])
  · exact h

lemma findTail_after {s : Receiver} {seen : List UInt8}
    (hlen : s.packet.length ≤ maxPacketLength + 1) (h : s.After seen) :
    (findTail s).After seen := by
  unfold findTail
  split_ifs with hfound hsize
  · simp only [Bool.and_eq_true, beq_iff_eq] at hfound hsize
    obtain ⟨hheader, hend⟩ := hfound
    obtain ⟨done, hdone, rfl⟩ := h
    have hpacket := eq_append_of_endAt_one hend
    have hframe : InFrames [s.packet.dropLast] (s.header ++ s.packet) := by
      refine ⟨[], s.dimensionInHeader, [], ?_, ?_, ?_, trivial⟩
      · rw [← hpacket]
        simp [header, hheader]
      · rw [hsize, toNat_lengthByte, List.length_dropLast]
      · rw [List.length_dropLast]
        omega
    exact ⟨done ++ (s.header ++ s.packet), hframe.append hdone, by simp [header]⟩
  · exact h
  · exact h

lemma trimWindow_after {s : Receiver} {seen : List UInt8} (h : s.After seen) :
    (trimWindow s).After seen := by
  unfold trimWindow
  split_ifs with hlong
  · simp only [Bool.and_eq_true, Bool.not_eq_true', decide_eq_true_eq] at hlong
    obtain ⟨hheader, hlen⟩ := hlong
    cases hp : s.packet with
    | nil =>
      rw [hp] at hlen
      exact absurd hlen (by simp)
    | cons b rest => exact After.forget [b] h rfl (by simp [header, hheader, hp])
  · exact h

lemma resetOverflow_after {s : Receiver} {seen : List UInt8} (h : s.After seen) :
    (resetOverflow s).After seen := by
  unfold resetOverflow
  split_ifs with hlong
  · exact After.forget (s.header ++ s.packet) h rfl (by simp [header])
  · exact h

/-- One byte keeps the relation between the state and the bytes seen so far. -/
lemma rxByte_after {s : Receiver} {seen : List UInt8} (hs : s.Bounded) (h : s.After seen)
    (field : UInt8) : (rxByte s field).After (seen ++ [field]) := by
  have hheader : (findHeader field { s with packet := s.packet ++ [field] }).After
      (seen ++ [field]) := findHeader_after rfl (h.push field)
  refine resetOverflow_after (trimWindow_after (findTail_after ?_ hheader))
  have hlen := hs.packet_length
  unfold findHeader
  split_ifs
  · simp
  · simpa using hlen

lemma findHeader_eq_or (field : UInt8) (s : Receiver) :
    findHeader field s = s ∨ (findHeader field s).packet = [] := by
  unfold findHeader
  split_ifs
  · exact Or.inr rfl
  · exact Or.inl rfl

lemma findTail_eq_or (s : Receiver) : findTail s = s ∨ (findTail s).packet = [] := by
  unfold findTail
  split_ifs
  · exact Or.inr rfl
  · exact Or.inl rfl
  · exact Or.inl rfl

lemma trimWindow_window {s : Receiver} (h : s.foundHeader = false → s.packet.length ≤ 6) :
    (trimWindow s).foundHeader = false → (trimWindow s).packet.length ≤ 5 := by
  unfold trimWindow
  split_ifs with hlong
  · intro hheader
    rw [List.length_tail]
    exact Nat.sub_le_of_le_add (h hheader)
  · intro hheader
    simpa [hheader] using hlong

/-- A new byte makes the window longer by one, which the trim undoes, and the working vector
longer by one, which the reset undoes. -/
lemma rxByte_bounded {s : Receiver} (hs : s.Bounded) (field : UInt8) :
    (rxByte s field).Bounded := by
  have hwindow : (findTail (findHeader field { s with packet := s.packet ++ [field] })).foundHeader
      = false → (findTail (findHeader field
        { s with packet := s.packet ++ [field] })).packet.length ≤ 6 := by
    intro hheader
    rcases findTail_eq_or (findHeader field { s with packet := s.packet ++ [field] })
      with htail | htail
    · rw [htail] at hheader ⊢
      rcases findHeader_eq_or field { s with packet := s.packet ++ [field] } with hhead | hhead
      · rw [hhead] at hheader ⊢
        have := hs.window_length hheader
        simpa using Nat.lt_succ_of_le this
      · simp [hhead]
    · simp [htail]
  have htrim := trimWindow_window hwindow
  unfold rxByte resetOverflow
  split_ifs with hlong
  · exact ⟨by simp, fun _ => by simp⟩
  · exact ⟨Nat.not_lt.mp hlong, htrim⟩

/-- What holds of the receiver after any bytes. -/
lemma rxBytes_sound (bytes : List UInt8) : ∀ {s : Receiver} {seen : List UInt8}, s.Bounded →
    s.After seen → (rxBytes s bytes).Bounded ∧ (rxBytes s bytes).After (seen ++ bytes) := by
  induction bytes with
  | nil =>
    intro s seen hs h
    rw [List.append_nil]
    exact ⟨hs, h⟩
  | cons b bytes ih =>
    intro s seen hs h
    have hrest := ih (rxByte_bounded hs b) (rxByte_after hs h b)
    rwa [List.append_assoc] at hrest

/-- **Framing soundness.**  On any stream, the packets pushed stand in the stream one after
the other, each in a frame that announces its length, and the working vector stays within
its bounds after every byte. -/
theorem framing_sound (stream : List UInt8) :
    InFrames (rxBytes initial stream).rxPackets stream ∧
      ∀ seen, seen <+: stream → (rxBytes initial seen).Bounded := by
  have hbounded : initial.Bounded := ⟨Nat.zero_le _, fun _ => Nat.zero_le _⟩
  have hafter : initial.After [] := ⟨[], trivial, rfl⟩
  refine ⟨?_, fun seen _ => (rxBytes_sound seen hbounded hafter).1⟩
  obtain ⟨-, done, hdone, hstream⟩ := rxBytes_sound stream hbounded hafter
  rw [List.nil_append] at hstream
  -- the bytes not yet completed to a packet lie behind the last frame
  have hall := @InFrames.append [] ((rxBytes initial stream).header ++
    (rxBytes initial stream).packet) trivial _ _ hdone
  rwa [List.append_nil, ← hstream] at hall

/-! ## The polling passes of the receiver -/

/-- The size of the array `buffer` of `socket_rx_communication`. -/
def bufferSize : ℕ := 4086

/-- One turn of the outer loop of `socket_rx_communication`: what the uninitialised array
`buffer` happens to hold, and the results of the successive calls of `read` that return
data.  A `read` is asked for the free part of `buffer` only. -/
structure Pass where
  /-- The contents of `buffer` before the first `read`. -/
  stack : List UInt8
  /-- The bytes returned by the successive reads. -/
  reads : List (List UInt8)
  stack_length : stack.length = bufferSize
  reads_ne : ∀ r ∈ reads, r ≠ []
  reads_fit : reads.flatten.length ≤ bufferSize

/-- The contents of `buffer` after `read(_client_fd, buffer + ptr, ..)` returned `bytes`. -/
def readInto (buffer : List UInt8) (ptr : ℕ) (bytes : List UInt8) : List UInt8 :=
  buffer.take ptr ++ bytes ++ buffer.drop (ptr + bytes.length)

/-- The inner `while` loop: every read is followed by the byte loop over
`buffer[0], .., buffer[rc - 1]`. -/
def rxReads (buffer : List UInt8) (ptr : ℕ) (s : Receiver) : List (List UInt8) → Receiver
  | [] => s
  | bytes :: reads =>
    let buffer := readInto buffer ptr bytes
    rxReads buffer (ptr + bytes.length) (rxBytes s (buffer.take bytes.length)) reads

/-- One turn of the outer loop. -/
def rxPass (s : Receiver) (pass : Pass) : Receiver := rxReads pass.stack 0 s pass.reads

/-- Any number of turns of the outer loop. -/
def rxPasses (s : Receiver) (passes : List Pass) : Receiver := passes.foldl rxPass s

/-- The bytes that a pass takes from the socket. -/
def Pass.received (pass : Pass) : List UInt8 := pass.reads.flatten

/-- The bytes that the inner loop of a pass feeds to the state machine. -/
def fedReads (buffer : List UInt8) (ptr : ℕ) : List (List UInt8) → List UInt8
  | [] => []
  | bytes :: reads =>
    let buffer := readInto buffer ptr bytes
    buffer.take bytes.length ++ fedReads buffer (ptr + bytes.length) reads

/-- The bytes that a pass feeds to the state machine. -/
def Pass.fed (pass : Pass) : List UInt8 := fedReads pass.stack 0 pass.reads

lemma rxReads_eq (reads : List (List UInt8)) : ∀ (buffer : List UInt8) (ptr : ℕ) (s : Receiver),
    rxReads buffer ptr s reads = rxBytes s (fedReads buffer ptr reads) := by
  induction reads with
  | nil => intro buffer ptr s; rfl
  | cons r reads ih =>
    intro buffer ptr s
    rw [rxReads, fedReads, ih, rxBytes_append]

lemma rxPasses_eq (passes : List Pass) : ∀ s : Receiver,
    rxPasses s passes = rxBytes s (passes.flatMap Pass.fed) := by
  induction passes with
  | nil => intro s; rfl
  | cons pass passes ih =>
    intro s
    have hpass : rxPass s pass = rxBytes s pass.fed := rxReads_eq pass.reads pass.stack 0 s
    rw [List.flatMap_cons, rxBytes_append, ← ih, ← hpass]
    rfl

/-- What the inner loop feeds after the reads `done` of the same pass. -/
def fedAfter (done : List UInt8) : List (List UInt8) → List UInt8
  | [] => []
  | bytes :: reads => (done ++ bytes).take bytes.length ++ fedAfter (done ++ bytes) reads

/-- Every read of a pass returns the bytes that stand at the start of `buffer` once it is
over, where `done` are the bytes of the reads before.  The first read of a pass always
does; a later one only when it repeats the bytes that the pass began with. -/
def RepeatsStart (done : List UInt8) : List (List UInt8) → Prop
  | [] => True
  | bytes :: reads => (done ++ bytes).take bytes.length = bytes ∧ RepeatsStart (done ++ bytes) reads

instance decidableRepeatsStart : ∀ (done : List UInt8) (reads : List (List UInt8)),
    Decidable (RepeatsStart done reads)
  | _, [] => isTrue trivial
  | done, bytes :: reads =>
    have := decidableRepeatsStart (done ++ bytes) reads
    inferInstanceAs (Decidable (_ ∧ _))

/-- A pass with at most one read repeats its start. -/
lemma repeatsStart_of_length_le_one {reads : List (List UInt8)} (h : reads.length ≤ 1) :
    RepeatsStart [] reads := by
  match reads, h with
  | [], _ => trivial
  | [r], _ => exact ⟨by simp, trivial⟩

/-- As long as the reads fit, the inner loop sees nothing of the uninitialised array. -/
lemma fedReads_eq (reads : List (List UInt8)) : ∀ (buffer done : List UInt8) (ptr : ℕ),
    buffer.take ptr = done → done.length = ptr →
    done.length + reads.flatten.length ≤ buffer.length →
    fedReads buffer ptr reads = fedAfter done reads := by
  induction reads with
  | nil => intro buffer done ptr _ _ _; rfl
  | cons r reads ih =>
    intro buffer done ptr hdone hptr hfit
    simp only [List.flatten_cons, List.length_append] at hfit
    have hread : readInto buffer ptr r = (done ++ r) ++ buffer.drop (ptr + r.length) := by
      rw [readInto, hdone]
    have htake : (readInto buffer ptr r).take (ptr + r.length) = done ++ r := by
      rw [hread, List.take_append_of_le_length (by simp [hptr]),
        List.take_of_length_le (by simp [hptr])]
    have hfed : (readInto buffer ptr r).take r.length = (done ++ r).take r.length := by
      rw [hread, List.take_append_of_le_length (by simp)]
    have hlen : (readInto buffer ptr r).length = buffer.length := by
      rw [hread]
      simp only [List.length_append, List.length_drop]
      omega
    rw [fedReads, fedAfter, hfed, ih _ (done ++ r) _ htake (by simp [hptr])]
    rw [hlen, List.length_append]
    omega

lemma Pass.fed_eq (pass : Pass) : pass.fed = fedAfter [] pass.reads :=
  fedReads_eq pass.reads pass.stack [] 0 rfl rfl (by
    rw [pass.stack_length]
    simpa using pass.reads_fit)

lemma fedAfter_length (reads : List (List UInt8)) : ∀ done : List UInt8,
    (fedAfter done reads).length = reads.flatten.length := by
  induction reads with
  | nil => intro done; rfl
  | cons r reads ih => intro done; simp [fedAfter, ih]

/-- Two concatenations with first parts of equal length agree part by part. -/
lemma append_eq_append_iff_of_length_eq {a b c d : List UInt8} (h : a.length = c.length) :
    a ++ b = c ++ d ↔ a = c ∧ b = d :=
  ⟨fun heq => List.append_inj heq h, fun ⟨hac, hbd⟩ => by rw [hac, hbd]⟩

lemma fedAfter_eq_flatten_iff (reads : List (List UInt8)) : ∀ done : List UInt8,
    fedAfter done reads = reads.flatten ↔ RepeatsStart done reads := by
  induction reads with
  | nil => intro done; simp [fedAfter, RepeatsStart]
  | cons r reads ih =>
    intro done
    have hlen : ((done ++ r).take r.length).length = r.length := by simp
    rw [fedAfter, List.flatten_cons, RepeatsStart, ← ih,
      append_eq_append_iff_of_length_eq hlen]

lemma flatMap_fed_eq_iff (passes : List Pass) :
    passes.flatMap Pass.fed = passes.flatMap Pass.received ↔
      ∀ pass ∈ passes, RepeatsStart [] pass.reads := by
  induction passes with
  | nil => simp
  | cons pass passes ih =>
    have hlen : pass.fed.length = pass.received.length := by
      rw [Pass.fed_eq, fedAfter_length, Pass.received]
    have hpass : pass.fed = pass.received ↔ RepeatsStart [] pass.reads := by
      rw [Pass.fed_eq, Pass.received, fedAfter_eq_flatten_iff]
    rw [List.flatMap_cons, List.flatMap_cons, append_eq_append_iff_of_length_eq hlen, hpass, ih,
      List.forall_mem_cons]

/-- When `read` is served at most once in a pass, the cuts in the stream do not matter. -/
theorem rxPasses_of_single_reads {passes : List Pass}
    (h : ∀ pass ∈ passes, pass.reads.length ≤ 1) (s : Receiver) :
    rxPasses s passes = rxBytes s (passes.flatMap Pass.received) := by
  have hfed : passes.flatMap Pass.fed = passes.flatMap Pass.received :=
    (flatMap_fed_eq_iff passes).mpr fun pass hpass => repeatsStart_of_length_le_one (h pass hpass)
  rw [rxPasses_eq, hfed]

/-- **Chunking independence.**  Over any number of passes, the receiver feeds every byte of
the stream to the state machine exactly once and in order, and pushes the packets that the
stream yields when it arrives whole, exactly when within each pass the later reads repeat
the bytes that the pass began with. -/
theorem chunking_independence_iff (passes : List Pass) :
    ((rxPasses Receiver.initial passes).rxPackets
          = (rxBytes Receiver.initial (passes.flatMap Pass.received)).rxPackets ∧
        passes.flatMap Pass.fed = passes.flatMap Pass.received) ↔
      ∀ pass ∈ passes, RepeatsStart [] pass.reads := by
  rw [rxPasses_eq, ← flatMap_fed_eq_iff]
  constructor
  · rintro ⟨-, hfed⟩
    exact hfed
  · intro hfed
    exact ⟨by rw [hfed], hfed⟩

/-- The frame of the packet `[7]`, served by two reads of one pass. -/
def splitPass : Pass where
  stack := List.replicate bufferSize 0
  reads := [[startMarker, startMarker, 1], [7, endMarker]]
  stack_length := List.length_replicate
  reads_ne := by decide
  reads_fit := by decide

/-- The second read of the pass is lost, and the first bytes of the pass are fed again. -/
theorem chunking_loses_second_read :
    (rxPasses Receiver.initial [splitPass]).rxPackets = [] ∧
      (rxBytes Receiver.initial ([splitPass].flatMap Pass.received)).rxPackets = [[7]] := by
  have hfed : [splitPass].flatMap Pass.fed
      = [startMarker, startMarker, 1, startMarker, startMarker] := by
    rw [List.flatMap_singleton, Pass.fed_eq]
    rfl
  rw [rxPasses_eq, hfed]
  decide

end TcpDaemon
end RmwDesert
