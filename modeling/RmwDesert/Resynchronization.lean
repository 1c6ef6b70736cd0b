/-
How the receiver finds back into the stream (`socket_rx_communication`).

After bytes that are lost or corrupted the receiver may stand in the middle of a frame, or take
payload for a header and wait for a packet that is not there.  If the packets that follow hold no
markers, it recovers: `recovers` says after how many bytes of frames, and what it pushes until
then.
-/
import RmwDesert.SocketLoops

namespace RmwDesert
namespace TcpDaemon

open Receiver (Bounded initial)

/-! ## Outside of a frame -/

/-- No header was found, and no byte of a header was seen last. -/
structure OutOfFrame (s : Receiver) : Prop where
  foundHeader : s.foundHeader = false
  window_length : s.packet.length ≤ 5
  last_ne : endAt s.packet 1 ≠ some startMarker

section

variable {window : Packet} {d b : UInt8} {q : List Packet} {s : Receiver}

/-- A byte that does not complete a header is taken into the window. -/
lemma rxByte_window (hlen : window.length ≤ 5)
    (h : ¬ (endAt window 1 = some startMarker ∧ endAt window 2 = some startMarker)) (b : UInt8) :
    ∃ window', rxByte ⟨window, false, d, q⟩ b = ⟨window', false, d, q⟩ ∧ window'.length ≤ 5 ∧
      endAt window' 1 = some b ∧ endAt window' 2 = endAt window 1 := by
  have hnone : findHeader b ⟨window ++ [b], false, d, q⟩ = ⟨window ++ [b], false, d, q⟩ := by
    rw [findHeader, if_neg]
    simp only [endAt_append_succ window b 0, endAt_append_succ window b 1, Bool.and_eq_true,
      beq_iff_eq, Bool.not_false, true_and]
    exact h
  have hsmall : 5 ≤ maxPacketLength := by decide
  have hbyte : rxByte ⟨window, false, d, q⟩ b
      = resetOverflow (trimWindow ⟨window ++ [b], false, d, q⟩) := by
    rw [rxByte, hnone]
    rfl
  by_cases hfull : 5 < (window ++ [b]).length
  · cases window with
    | nil => simp at hfull
    | cons oldest window =>
      have htrim : trimWindow ⟨oldest :: window ++ [b], false, d, q⟩
          = ⟨window ++ [b], false, d, q⟩ := by
        simp only [trimWindow, Bool.not_false, Bool.true_and, decide_eq_true_eq, if_pos hfull]
        rfl
      simp only [List.length_append, List.length_cons, List.length_nil] at hlen hfull
      have hfits : ¬ maxPacketLength < (window ++ [b]).length := by
        simp only [List.length_append, List.length_cons, List.length_nil]
        omega
      refine ⟨window ++ [b], ?_, by simp; omega, endAt_append_one _ _, ?_⟩
      · rw [hbyte, htrim, resetOverflow, if_neg hfits]
      · -- the byte that was seen last is still in the window
        rw [endAt_append_succ window b 0]
        cases hwindow : window.reverse with
        | nil =>
          rw [List.reverse_eq_nil_iff] at hwindow
          rw [hwindow] at hfull
          simp at hfull
        | cons last others => simp [endAt, hwindow]
  · have htrim : trimWindow ⟨window ++ [b], false, d, q⟩ = ⟨window ++ [b], false, d, q⟩ := by
      simp only [trimWindow, Bool.not_false, Bool.true_and, decide_eq_true_eq, if_neg hfull]
    refine ⟨window ++ [b], ?_, by omega, endAt_append_one _ _, endAt_append_succ window b 0⟩
    rw [hbyte, htrim, resetOverflow, if_neg (by dsimp only; omega)]

/-- A byte behind two start markers is the length of a header. -/
lemma rxByte_header (h₁ : endAt window 1 = some startMarker)
    (h₂ : endAt window 2 = some startMarker) :
    rxByte ⟨window, false, d, q⟩ b = ⟨[], true, b, q⟩ := by
  have hfound : findHeader b ⟨window ++ [b], false, d, q⟩ = ⟨[], true, b, q⟩ := by
    rw [findHeader, if_pos]
    simp only [endAt_append_succ window b 0, endAt_append_succ window b 1, h₁, h₂]
    rfl
  rw [rxByte, hfound]
  simp [findTail, trimWindow, resetOverflow]

lemma OutOfFrame.empty (d : UInt8) (q : List Packet) : OutOfFrame ⟨[], false, d, q⟩ :=
  ⟨rfl, Nat.zero_le _, by simp⟩

/-- Bytes without a start marker leave the receiver outside of a frame. -/
lemma OutOfFrame.rxBytes (hs : OutOfFrame s) {bytes : List UInt8} (h : startMarker ∉ bytes) :
    OutOfFrame (rxBytes s bytes) ∧ (rxBytes s bytes).rxPackets = s.rxPackets := by
  induction bytes generalizing s with
  | nil => exact ⟨hs, rfl⟩
  | cons b bytes ih =>
    obtain ⟨window, foundHeader, d, q⟩ := s
    obtain rfl : foundHeader = false := hs.foundHeader
    simp only [List.mem_cons, not_or] at h
    obtain ⟨hb, hbytes⟩ := h
    obtain ⟨window', hbyte, hlen, hlast, -⟩ :=
      rxByte_window hs.window_length (fun hboth => hs.last_ne hboth.1) b (d := d) (q := q)
    have hout : OutOfFrame ⟨window', false, d, q⟩ := by
      refine ⟨rfl, hlen, ?_⟩
      rw [hlast]
      exact fun heq => hb (Option.some.inj heq).symm
    rw [rxBytes_cons, hbyte]
    exact ih hout hbytes

/-- A header that starts outside of a frame is found. -/
lemma OutOfFrame.header (hs : OutOfFrame s) (d : UInt8) :
    TcpDaemon.rxBytes s [startMarker, startMarker, d] = ⟨[], true, d, s.rxPackets⟩ := by
  obtain ⟨window, foundHeader, d₀, q⟩ := s
  obtain rfl : foundHeader = false := hs.foundHeader
  obtain ⟨window₁, hfirst, hlen₁, hlast₁, hbefore₁⟩ := rxByte_window hs.window_length
    (fun hboth => hs.last_ne hboth.1) startMarker (d := d₀) (q := q)
  have hone : ¬ (endAt window₁ 1 = some startMarker ∧ endAt window₁ 2 = some startMarker) := by
    rw [hbefore₁]
    exact fun hboth => hs.last_ne hboth.2
  obtain ⟨window₂, hsecond, -, hlast₂, hbefore₂⟩ :=
    rxByte_window hlen₁ hone startMarker (d := d₀) (q := q)
  rw [rxBytes_cons, hfirst, rxBytes_cons, hsecond, rxBytes_cons,
    rxByte_header hlast₂ (hbefore₂.trans hlast₁), rxBytes_nil]

/-- A frame that starts outside of a frame is received. -/
lemma OutOfFrame.frame (hs : OutOfFrame s) {packet : Packet}
    (hlen : packet.length ≤ maxPacketLength) (hmark : NoEarlyTail packet) :
    TcpDaemon.rxBytes s (frame packet)
      = ⟨[], false, lengthByte packet.length, s.rxPackets ++ [packet]⟩ := by
  have hsplit : TcpDaemon.frame packet
      = [startMarker, startMarker, lengthByte packet.length] ++ (packet ++ [endMarker]) := rfl
  rw [← rxBytes_frame hlen hmark 0 s.rxPackets, hsplit, rxBytes_append s,
    rxBytes_append ⟨[], false, 0, s.rxPackets⟩, hs.header, rxBytes_header]

end

/-! ## Frames without markers inside -/

/-- The markers of the frame are its only ones. -/
def Unmarked (packet : Packet) : Prop :=
  packet.length ≤ maxPacketLength ∧
    ∀ b ∈ lengthByte packet.length :: packet, b ≠ startMarker ∧ b ≠ endMarker

instance (packet : Packet) : Decidable (Unmarked packet) :=
  @instDecidableAnd _ _ _ (List.decidableBAll _ _)

section

variable {packet : Packet} {acc : Packet} {d : UInt8} {q : List Packet}

lemma Unmarked.noEarlyTail (h : Unmarked packet) : NoEarlyTail packet := by
  intro k hk hend
  exact absurd rfl (h.2 endMarker (List.mem_cons_of_mem _ (List.mem_of_getElem? hend))).2

/-- What a receiver without a header sees of a frame that it enters in the middle. -/
lemma Unmarked.outOfFrame (h : Unmarked packet) {rest : List UInt8}
    (hrest : rest <:+ startMarker :: lengthByte packet.length :: (packet ++ [endMarker])) :
    OutOfFrame (rxBytes ⟨[], false, d, q⟩ rest) ∧
      (rxBytes ⟨[], false, d, q⟩ rest).rxPackets = q := by
  have hempty := OutOfFrame.empty d q
  have hnot : startMarker ∉ lengthByte packet.length :: (packet ++ [endMarker]) := by
    rw [← List.cons_append, List.mem_append]
    rintro (hmem | hmem)
    · exact (h.2 _ hmem).1 rfl
    · exact absurd hmem (by decide)
  rcases List.suffix_cons_iff.mp hrest with rfl | hrest
  · -- a single start marker makes no header
    obtain ⟨window, hbyte, hlen, -, hbefore⟩ := rxByte_window hempty.window_length
      (fun hboth => hempty.last_ne hboth.1) startMarker (d := d) (q := q)
    have hone : ¬ (endAt window 1 = some startMarker ∧ endAt window 2 = some startMarker) := by
      rw [hbefore]
      exact fun hboth => hempty.last_ne hboth.2
    obtain ⟨window', hbyte', hlen', hlast', -⟩ :=
      rxByte_window hlen hone (lengthByte packet.length) (d := d) (q := q)
    have hout : OutOfFrame ⟨window', false, d, q⟩ := by
      refine ⟨rfl, hlen', ?_⟩
      rw [hlast']
      exact fun heq => (h.2 _ List.mem_cons_self).1 (Option.some.inj heq)
    rw [rxBytes_cons, hbyte, rxBytes_cons, hbyte']
    exact hout.rxBytes fun hmem => hnot (List.mem_cons_of_mem _ hmem)
  · exact hempty.rxBytes fun hmem => hnot (hrest.mem hmem)

/-- A byte for which there is no room makes the receiver give up. -/
lemma rxByte_overflow {b : UInt8} (hb : b = endMarker → d ≠ lengthByte acc.length)
    (hfull : maxPacketLength ≤ acc.length) :
    rxByte ⟨acc, true, d, q⟩ b = ⟨[], false, d, q⟩ := by
  have htail : findTail ⟨acc ++ [b], true, d, q⟩ = ⟨acc ++ [b], true, d, q⟩ := by
    by_cases hend : b = endMarker
    · simp [findTail, hb hend]
    · simp [findTail, hend]
  have hlong : maxPacketLength < (acc ++ [b]).length := by
    rw [List.length_append, List.length_singleton]
    omega
  simp only [rxByte, findHeader, Bool.not_true, Bool.false_and, Bool.false_eq_true, if_false,
    htail, trimWindow, resetOverflow, if_pos hlong]

/-- Bytes without an end marker behind a header. -/
lemma rxBytes_unended (bytes : List UInt8) : ∀ acc : Packet, acc.length ≤ maxPacketLength →
    endMarker ∉ bytes →
    (acc.length + bytes.length ≤ maxPacketLength ∧
      rxBytes ⟨acc, true, d, q⟩ bytes = ⟨acc ++ bytes, true, d, q⟩) ∨
    ∃ rest, rest <:+ bytes ∧ rest.length < bytes.length ∧
      rxBytes ⟨acc, true, d, q⟩ bytes = rxBytes ⟨[], false, d, q⟩ rest := by
  induction bytes with
  | nil => exact fun acc hlen _ => Or.inl ⟨by simpa using hlen, by simp⟩
  | cons b bytes ih =>
    intro acc hlen hend
    simp only [List.mem_cons, not_or] at hend
    obtain ⟨hb, hbytes⟩ := hend
    by_cases hroom : acc.length < maxPacketLength
    · have hbyte : rxByte ⟨acc, true, d, q⟩ b = ⟨acc ++ [b], true, d, q⟩ :=
        rxByte_payload (fun h => absurd h.symm hb) hroom
      rw [rxBytes_cons, hbyte]
      rcases ih (acc ++ [b]) (by simpa using hroom) hbytes with ⟨hfits, hall⟩ |
        ⟨rest, hsuffix, hless, hall⟩
      · refine Or.inl ⟨?_, by rw [hall, List.append_assoc]; rfl⟩
        simp only [List.length_append, List.length_cons, List.length_nil] at hfits ⊢
        omega
      · refine Or.inr ⟨rest, hsuffix.trans (List.suffix_cons _ _), ?_, hall⟩
        simp only [List.length_cons]
        omega
    · have hbyte : rxByte ⟨acc, true, d, q⟩ b = ⟨[], false, d, q⟩ :=
        rxByte_overflow (fun h => absurd h.symm hb) (by omega)
      rw [rxBytes_cons, hbyte]
      exact Or.inr ⟨bytes, List.suffix_cons _ _, by simp, rfl⟩

/-- What becomes of a receiver that takes the rest of a frame for the payload of another one: it
leaves the frame, perhaps with a packet that was none, or goes on. -/
lemma Unmarked.misread (h : Unmarked packet) (hacc : acc.length ≤ maxPacketLength)
    {body : List UInt8} (hbody : body ++ [endMarker] <:+ frame packet) :
    (∃ junk : List Packet, junk.length ≤ 1 ∧
      OutOfFrame (rxBytes ⟨acc, true, d, q⟩ (body ++ [endMarker])) ∧
      (rxBytes ⟨acc, true, d, q⟩ (body ++ [endMarker])).rxPackets = q ++ junk) ∨
    acc.length + (body ++ [endMarker]).length ≤ maxPacketLength ∧
      rxBytes ⟨acc, true, d, q⟩ (body ++ [endMarker])
        = ⟨acc ++ (body ++ [endMarker]), true, d, q⟩ := by
  have hsuffix : body <:+ startMarker :: startMarker :: lengthByte packet.length :: packet := by
    obtain ⟨front, hfront⟩ := hbody
    have hback : (front ++ body) ++ [endMarker]
        = (startMarker :: startMarker :: lengthByte packet.length :: packet) ++ [endMarker] := by
      rw [List.append_assoc, hfront]
      rfl
    exact ⟨front, List.append_cancel_right hback⟩
  have hend : endMarker ∉ body := by
    intro hmem
    have hmem' := hsuffix.mem hmem
    rcases List.mem_cons.mp hmem' with heq | hmem'
    · exact absurd heq (by decide)
    · rcases List.mem_cons.mp hmem' with heq | hmem'
      · exact absurd heq (by decide)
      · exact (h.2 _ hmem').2 rfl
  rcases rxBytes_unended body acc hacc hend (d := d) (q := q) with ⟨hfits, hall⟩ |
    ⟨rest, hrest, hless, hall⟩
  · rw [rxBytes_append, hall, rxBytes_cons, rxBytes_nil]
    by_cases hd : d = lengthByte (acc ++ body).length
    · -- the end marker of the frame stands where the other packet would end
      rw [rxByte_tail hd]
      exact Or.inl ⟨[acc ++ body], le_refl _, OutOfFrame.empty _ _, rfl⟩
    · by_cases hroom : (acc ++ body).length < maxPacketLength
      · rw [rxByte_payload (fun _ => hd) hroom]
        refine Or.inr ⟨?_, by rw [List.append_assoc]⟩
        simp only [List.length_append, List.length_cons, List.length_nil] at hroom ⊢
        omega
      · rw [rxByte_overflow (fun _ => hd) (by omega)]
        exact Or.inl ⟨[], Nat.zero_le _, OutOfFrame.empty _ _, (List.append_nil _).symm⟩
  · -- the working vector overflows before the frame ends
    left
    rw [rxBytes_append, hall, ← rxBytes_append]
    have hentered : rest ++ [endMarker]
        <:+ startMarker :: lengthByte packet.length :: (packet ++ [endMarker]) := by
      obtain ⟨front, hfront⟩ := hrest.trans hsuffix
      cases front with
      | nil =>
        have hle := hsuffix.length_le
        rw [List.nil_append] at hfront
        rw [hfront] at hless
        omega
      | cons first front =>
        have hback : front ++ rest = startMarker :: lengthByte packet.length :: packet :=
          (List.cons.inj hfront).2
        refine ⟨front, ?_⟩
        rw [← List.append_assoc, hback]
        rfl
    obtain ⟨hout, hpackets⟩ := h.outOfFrame hentered (d := d) (q := q)
    exact ⟨[], Nat.zero_le _, hout, by rw [hpackets, List.append_nil]⟩

/-! ## Sequences of frames -/

lemma OutOfFrame.frames {s : Receiver} (hs : OutOfFrame s) {packets : List Packet}
    (h : ∀ packet ∈ packets, Unmarked packet) :
    (TcpDaemon.rxBytes s (packets.flatMap TcpDaemon.frame)).rxPackets = s.rxPackets ++ packets := by
  cases packets with
  | nil => exact (List.append_nil _).symm
  | cons packet packets =>
    obtain ⟨hpacket, hpackets⟩ := List.forall_mem_cons.mp h
    obtain ⟨d, hrest⟩ := rxBytes_frames packets (fun p hp => (hpackets p hp).1)
      (fun p hp => (hpackets p hp).noEarlyTail) (lengthByte packet.length)
      (s.rxPackets ++ [packet])
    rw [List.flatMap_cons, rxBytes_append, hs.frame hpacket.1 hpacket.noEarlyTail, hrest,
      List.append_assoc]
    rfl

lemma length_frame (packet : Packet) : (frame packet).length = packet.length + 4 := by
  simp [frame]

/-- A receiver that waits for the end of a packet that is not there. -/
lemma recovers_of_header {packets : List Packet} : ∀ acc : Packet,
    (∀ packet ∈ packets, Unmarked packet) → acc.length ≤ maxPacketLength →
    ∃ lost kept junk, packets = lost ++ kept ∧
      acc.length + (lost.flatMap frame).length ≤ 2 * maxPacketLength + 4 ∧ junk.length ≤ 1 ∧
      (rxBytes ⟨acc, true, d, q⟩ (packets.flatMap frame)).rxPackets = q ++ junk ++ kept := by
  induction packets with
  | nil =>
    intro acc _ hacc
    exact ⟨[], [], [], rfl, by simp; omega, Nat.zero_le _, by simp⟩
  | cons packet packets ih =>
    intro acc h hacc
    obtain ⟨hpacket, hpackets⟩ := List.forall_mem_cons.mp h
    have hlen := length_frame packet
    have hle := hpacket.1
    have hbody : (startMarker :: startMarker :: lengthByte packet.length :: packet)
        ++ [endMarker] <:+ frame packet := List.suffix_refl _
    rcases hpacket.misread hacc hbody (d := d) (q := q) with ⟨junk, hjunk, hout, hpushed⟩ |
      ⟨hfits, hall⟩
    · refine ⟨[packet], packets, junk, rfl, ?_, hjunk, ?_⟩
      · rw [List.flatMap_singleton, hlen]
        omega
      · rw [List.flatMap_cons, rxBytes_append, ← hpushed]
        exact hout.frames hpackets
    · -- the whole frame is taken for payload, and the working vector has grown by it
      replace hfits : acc.length + (frame packet).length ≤ maxPacketLength := hfits
      obtain ⟨lost, kept, junk, rfl, hlost, hjunk, hpushed⟩ :=
        ih (acc ++ frame packet) hpackets (by rw [List.length_append]; exact hfits)
      refine ⟨packet :: lost, kept, junk, rfl, ?_, hjunk, ?_⟩
      · rw [List.length_append] at hlost
        rw [List.flatMap_cons, List.length_append]
        omega
      · rw [List.flatMap_cons, rxBytes_append, ← hpushed]
        exact congrArg (fun s => (rxBytes s _).rxPackets) hall

/-- A receiver that has seen one start marker or two, and takes the next one for a length. -/
lemma false_header (packet : Packet) {window : Packet} (hwindow : window.length ≤ 5)
    (hlast : endAt window 1 = some startMarker) :
    ∃ body, body ++ [endMarker] <:+ frame packet ∧
      (frame packet).length ≤ (body ++ [endMarker]).length + 2 ∧
      rxBytes ⟨window, false, d, q⟩ (frame packet)
        = rxBytes ⟨[], true, startMarker, q⟩ (body ++ [endMarker]) := by
  have hframe : frame packet
      = startMarker :: startMarker :: lengthByte packet.length :: (packet ++ [endMarker]) := rfl
  by_cases hbefore : endAt window 2 = some startMarker
  · refine ⟨startMarker :: lengthByte packet.length :: packet, List.suffix_cons _ _, ?_, ?_⟩
    · simp [frame]
    · rw [hframe, rxBytes_cons, rxByte_header hlast hbefore]
      rfl
  · obtain ⟨window', hbyte, -, hlast', hbefore'⟩ :=
      rxByte_window hwindow (fun hboth => hbefore hboth.2) startMarker (d := d) (q := q)
    refine ⟨lengthByte packet.length :: packet,
      (List.suffix_cons _ _).trans (List.suffix_cons _ _), ?_, ?_⟩
    · simp [frame]
    · rw [hframe, rxBytes_cons, hbyte, rxBytes_cons,
        rxByte_header hlast' (hbefore'.trans hlast)]
      rfl

end

/-- **Resynchronization.**  Whatever bytes came before, the receiver pushes the packets of the
frames that follow, without some of the first ones that make up little more than two frames of
full length, and with at most one packet that none of the frames holds. -/
theorem recovers (before : List UInt8) {packets : List Packet}
    (h : ∀ packet ∈ packets, Unmarked packet) :
    ∃ lost kept junk, packets = lost ++ kept ∧
      (lost.flatMap frame).length ≤ 2 * maxPacketLength + 6 ∧ junk.length ≤ 1 ∧
      (rxBytes initial (before ++ packets.flatMap frame)).rxPackets
        = (rxBytes initial before).rxPackets ++ junk ++ kept := by
  have hbounded : (rxBytes initial before).Bounded :=
    (framing_sound before).2 before (List.prefix_refl _)
  rw [rxBytes_append]
  generalize rxBytes initial before = s at hbounded
  obtain ⟨window, foundHeader, d, q⟩ := s
  cases foundHeader with
  | true =>
    obtain ⟨lost, kept, junk, hsplit, hlost, hjunk, hpushed⟩ :=
      recovers_of_header window h hbounded.packet_length (d := d) (q := q)
    exact ⟨lost, kept, junk, hsplit, by omega, hjunk, hpushed⟩
  | false =>
    have hwindow : window.length ≤ 5 := hbounded.window_length rfl
    by_cases hlast : endAt window 1 = some startMarker
    · cases packets with
      | nil => exact ⟨[], [], [], rfl, Nat.zero_le _, Nat.zero_le _, by simp⟩
      | cons packet packets =>
        obtain ⟨hpacket, hpackets⟩ := List.forall_mem_cons.mp h
        obtain ⟨body, hbody, hlen, hfound⟩ :=
          false_header packet hwindow hlast (d := d) (q := q)
        have hframe := length_frame packet
        have hle := hpacket.1
        rw [List.flatMap_cons, rxBytes_append, hfound]
        rcases @Unmarked.misread packet [] startMarker q hpacket (Nat.zero_le _) body hbody with
          ⟨junk, hjunk, hout, hpushed⟩ | ⟨hfits, hall⟩
        · refine ⟨[packet], packets, junk, rfl, ?_, hjunk, ?_⟩
          · rw [List.flatMap_singleton, hframe]
            omega
          · rw [hout.frames hpackets, hpushed]
        · rw [hall]
          obtain ⟨lost, kept, junk, rfl, hlost, hjunk, hpushed⟩ :=
            recovers_of_header ([] ++ (body ++ [endMarker])) hpackets (by simpa using hfits)
              (d := startMarker) (q := q)
          refine ⟨packet :: lost, kept, junk, rfl, ?_, hjunk, hpushed⟩
          rw [List.nil_append] at hlost
          rw [List.flatMap_cons, List.length_append]
          omega
    · have hout : OutOfFrame ⟨window, false, d, q⟩ := ⟨rfl, hwindow, hlast⟩
      exact ⟨[], packets, [], rfl, Nat.zero_le _, Nat.zero_le _,
        by rw [hout.frames h, List.append_nil]⟩

/-- A header without a packet, and three packets behind it. -/
theorem recovers_three : ∃ lost kept junk, ([[1], [2], [3]] : List Packet) = lost ++ kept ∧
    (lost.flatMap frame).length ≤ 2 * maxPacketLength + 6 ∧ junk.length ≤ 1 ∧
    (rxBytes initial ([startMarker, startMarker, 9] ++ [[1], [2], [3]].flatMap frame)).rxPackets
      = (rxBytes initial [startMarker, startMarker, 9]).rxPackets ++ junk ++ kept := by
  have hunmarked : ∀ packet ∈ ([[1], [2], [3]] : List Packet), Unmarked packet :=
    List.forall_mem_cons.mpr ⟨by decide, List.forall_mem_cons.mpr
      ⟨by decide, List.forall_mem_singleton.mpr (by decide)⟩⟩
  exact recovers [startMarker, startMarker, 9] hunmarked

end TcpDaemon
end RmwDesert
