/-
Packets that are not addressed to any stream, among packets that are.

`interpret_packets` leaves out a packet whose first two items are not a type and the
identifier of a topic.  Two kinds of packets escape this: an empty one, which looks like the
end of the queue, and one with the identifier of a topic and an unknown type, for which
`_stream_type_match_map.at` throws.  The main result, `bad_packets_harmless_iff`, says that
these two are all.
-/
import RmwDesert.Termination

namespace RmwDesert

open TcpDaemon (maxPacketLength)

namespace InterpretPackets

section

variable (N : NanoCbor) (config : TopicsConfig)

/-- A packet that some stream sends. -/
def Good (packet : Packet) : Prop := ∃ t : Transmission, t.Typed ∧ t.Enqueues N packet

/-- The first two items are a known type and the identifier of a topic. -/
def WellAddressed (packet : Packet) : Prop :=
  ∃ r ∈ firstTwo N packet, (streamTypeMatchMap r.1).isSome = true ∧
    config.getIdentifierTopic r.2.1 ≠ ""

/-- An empty packet, or one that is decoded to an end and is not addressed to any stream. -/
def Bad (packet : Packet) : Prop :=
  packet = [] ∨ (∃ fuel d, interpretItems N config fuel 0 packet .initial = .ok d) ∧
    ¬ WellAddressed N config packet

/-- The packet has the type and the identifier of the stream. -/
def Takes (s : RxStream) (packet : Packet) : Prop :=
  ∃ r ∈ firstTwo N packet, config.getIdentifierTopic r.2.1 ≠ "" ∧
    streamTypeMatchMap r.1 = some s.streamType ∧ s.streamIdentifier = r.2.1

/-- The good packets of a queue in which every packet is marked as good or bad. -/
def goods (queue : List (Bool × Packet)) : List Packet := (queue.filter (·.1)).map (·.2)

/-- The call returns, and every stream takes what it takes in the absence of the bad
packets. -/
def Harmless (queue : List (Bool × Packet)) (listening : List RxStream) : Prop :=
  ∃ fuel ds rest ds',
    dispatched N config fuel (!listening.isEmpty) (queue.map (·.2)) = .ok (ds, rest) ∧
    dispatched N config fuel (!listening.isEmpty) (goods queue) = .ok (ds', []) ∧
    ∀ s ∈ listening, ds.filterMap (accepted s) = ds'.filterMap (accepted s)

/-- What a stream takes of a packet that is decoded within the turns for a sent one. -/
def taken (s : RxStream) (packet : Packet) : Option Fields :=
  match interpretItems N config maxPacketLength 0 packet .initial with
  | .ok d => if d.streamName = "" then none else accepted s d
  | .error _ => none

end

variable {N : NanoCbor} {config : TopicsConfig}

lemma goods_append (queue₁ queue₂ : List (Bool × Packet)) :
    goods (queue₁ ++ queue₂) = goods queue₁ ++ goods queue₂ := by
  simp [goods]

lemma mem_goods {queue : List (Bool × Packet)} {packet : Packet} :
    packet ∈ goods queue ↔ (true, packet) ∈ queue := by
  simp [goods]

/-! ## Good packets -/

/-- The first two items of a sent packet. -/
lemma firstTwo_of_enqueues (hN : N.Lawful) {t : Transmission} {packet : Packet}
    (h : t.Enqueues N packet) :
    ∃ bytes, firstTwo N packet = some (t.tx.streamType, t.tx.streamIdentifier, bytes) := by
  obtain ⟨rfl, -⟩ := packet_of_transmit hN h.1 h.2
  have hencode : N.encode (t.tx.header t.sequenceId ++ t.fields)
      = N.fmtUint t.tx.streamType.toUInt64 ++ (N.fmtUint t.tx.streamIdentifier.toUInt64
        ++ N.encode t.body) := by
    simp only [TxStream.header, List.cons_append, List.nil_append,
      NanoCbor.encode_cons, Transmission.body]
    rfl
  have hne : N.format (.uint t.tx.streamIdentifier.toUInt64) ≠ [] := hN.format_ne_nil trivial
  obtain ⟨b, bytes, hb⟩ := List.exists_cons_of_ne_nil
    (List.append_ne_nil_of_left_ne_nil hne (N.encode t.body))
  have hsecond := hN.getUint8_fmtUint t.tx.streamIdentifier (N.encode t.body)
  refine ⟨N.encode t.body, ?_⟩
  rw [firstTwo, hencode, hN.getUint8_fmtUint]
  change N.fmtUint _ ++ _ = _ at hb
  rw [hb] at hsecond ⊢
  simp only [hsecond, Option.map_some]

/-- What a stream takes of a sent packet. -/
lemma taken_eq (hN : N.Lawful) {t : Transmission} {packet : Packet} (h : t.Enqueues N packet)
    (s : RxStream) :
    taken N config s packet
      = if config.getIdentifierTopic t.tx.streamIdentifier = "" then none
        else accepted s (t.interpreted config) := by
  rw [taken, h.interpretItems_eq hN (h.length_le hN)]
  simp only
  split_ifs with hname
  · rfl
  · rfl

/-- A stream takes a good packet that has its type and identifier. -/
lemma taken_eq_none_iff (hN : N.Lawful) {packet : Packet} (h : Good N packet) (s : RxStream) :
    taken N config s packet = none ↔ ¬ Takes N config s packet := by
  obtain ⟨t, -, hsent⟩ := h
  obtain ⟨bytes, hfirst⟩ := firstTwo_of_enqueues hN hsent
  have htakes : Takes N config s packet ↔
      config.getIdentifierTopic t.tx.streamIdentifier ≠ "" ∧ t.Matches s := by
    constructor
    · rintro ⟨r, hr, hname, hmatch⟩
      obtain rfl := Option.mem_unique hr hfirst
      exact ⟨hname, hmatch⟩
    · rintro ⟨hname, hmatch⟩
      exact ⟨_, hfirst, hname, hmatch⟩
  rw [taken_eq hN hsent, Transmission.accepted_interpreted, htakes]
  split_ifs with hname hmatch
  · simp [hname]
  · simp [hname, hmatch]
  · simp [hmatch]

/-- Good packets are all dispatched. -/
lemma dispatched_goods (config : TopicsConfig) (hN : N.Lawful) {fuel : ℕ}
    (hfuel : maxPacketLength ≤ fuel) (listening : Bool) {packets : List Packet}
    (h : ∀ packet ∈ packets, Good N packet) :
    ∃ ds, dispatched N config fuel listening packets = .ok (ds, []) ∧
      ∀ s, ds.filterMap (accepted s) = packets.filterMap (taken N config s) := by
  induction packets with
  | nil => exact ⟨[], rfl, fun _ => rfl⟩
  | cons packet packets ih =>
    obtain ⟨⟨t, htyped, hsent⟩, hrest⟩ := List.forall_mem_cons.mp h
    obtain ⟨ds, hds, htaken⟩ := ih hrest
    rw [hsent.dispatched_cons hN ((hsent.length_le hN).trans hfuel) htyped.isSome, hds]
    simp only [List.filterMap_cons, taken_eq hN hsent]
    split_ifs with hname
    · exact ⟨ds, rfl, htaken⟩
    · refine ⟨t.interpreted config :: ds, rfl, fun s => ?_⟩
      rw [List.filterMap_cons, htaken]

/-- The number of turns does not matter for the result. -/
lemma dispatched_unique {fuel fuel' : ℕ} {listening : Bool} {packets : List Packet}
    {r r' : List Interpreted × List Packet}
    (h : dispatched N config fuel listening packets = .ok r)
    (h' : dispatched N config fuel' listening packets = .ok r') : r = r' :=
  Except.ok.inj ((dispatched_of_le (Nat.le_max_left fuel fuel') h).symm.trans
    (dispatched_of_le (Nat.le_max_right fuel fuel') h'))

/-! ## Good and bad packets -/

/-- A bad packet that is not empty is not dispatched, unless it has an unknown type. -/
lemma not_named_of_bad {packet : Packet} (hpacket : packet ≠ []) (h : Bad N config packet) :
    ∃ fuel d, interpretItems N config fuel 0 packet .initial = .ok d ∧
      (d.streamName ≠ "" → UnknownType N config packet) := by
  obtain ⟨⟨fuel, d, hd⟩, haddressed⟩ := h.resolve_left hpacket
  refine ⟨fuel, d, hd, fun hname => ?_⟩
  rcases interpretItems_ok hpacket hd with ⟨hempty, -⟩ | ⟨-, _, _, hfirst, htopic, -⟩
  · exact absurd hempty hname
  · refine ⟨_, hfirst, htopic, Option.not_isSome_iff_eq_none.mp fun hknown => ?_⟩
    exact haddressed ⟨_, hfirst, hknown, htopic⟩

/-- With no packet of an unknown type in the way, the good packets in front of the first
empty one are dispatched. -/
lemma dispatched_queue (hN : N.Lawful) {queue : List (Bool × Packet)} {listening : List RxStream}
    (hqueue : ∀ e ∈ queue, if e.1 then Good N e.2 else Bad N config e.2)
    (hunknown : ∀ e ∈ queue.takeWhile (·.2 ≠ []), UnknownType N config e.2 → listening = []) :
    ∃ fuel ds rest,
      dispatched N config fuel (!listening.isEmpty) (queue.map (·.2)) = .ok (ds, rest) ∧
      ∀ s ∈ listening, ds.filterMap (accepted s)
        = (goods (queue.takeWhile (·.2 ≠ []))).filterMap (taken N config s) := by
  induction queue with
  | nil => exact ⟨0, [], [], rfl, fun _ _ => rfl⟩
  | cons e queue ih =>
    obtain ⟨mark, packet⟩ := e
    obtain ⟨hmark, hrest⟩ := List.forall_mem_cons.mp hqueue
    by_cases hpacket : packet = []
    · subst hpacket
      exact ⟨0, [], _, rfl, fun _ _ => by simp [goods]⟩
    · rw [List.takeWhile_cons_of_pos (by simpa using hpacket)] at hunknown ⊢
      obtain ⟨hfirst, hunknown⟩ := List.forall_mem_cons.mp hunknown
      obtain ⟨fuel, ds, rest, hds, htaken⟩ := ih hrest hunknown
      cases mark with
      | true =>
        obtain ⟨t, htyped, hsent⟩ : Good N packet := hmark
        have hds' := dispatched_of_le (Nat.le_max_left fuel maxPacketLength) hds
        refine ⟨max fuel maxPacketLength, ?_⟩
        rw [List.map_cons, hsent.dispatched_cons hN
          ((hsent.length_le hN).trans (Nat.le_max_right fuel maxPacketLength)) htyped.isSome, hds']
        have hgoods : ∀ rest : List (Bool × Packet),
            goods ((true, packet) :: rest) = packet :: goods rest := fun rest => rfl
        simp only [hgoods, List.filterMap_cons, taken_eq hN hsent]
        split_ifs with hname
        · exact ⟨ds, rest, rfl, htaken⟩
        · refine ⟨t.interpreted config :: ds, rest, rfl, fun s hs => ?_⟩
          rw [List.filterMap_cons, htaken s hs]
      | false =>
        obtain ⟨fuel', d, hd, hunnamed⟩ := not_named_of_bad hpacket hmark
        have hd' := interpretItems_of_le (Nat.le_add_left fuel' fuel) hd
        have hds' := dispatched_of_le (Nat.le_add_right fuel fuel') hds
        have hgoods : ∀ rest : List (Bool × Packet), goods ((false, packet) :: rest) = goods rest :=
          fun rest => rfl
        rw [hgoods]
        by_cases hname : d.streamName = ""
        · exact ⟨fuel + fuel', ds, rest,
            (dispatched_cons_eq_ok hpacket).mpr ⟨d, hd', Or.inl ⟨hname, hds'⟩⟩, htaken⟩
        · -- the packet has an unknown type, and no stream listens
          have hnone : listening = [] := hfirst (hunnamed hname)
          subst hnone
          exact ⟨fuel + fuel', d :: ds, rest, (dispatched_cons_eq_ok hpacket).mpr
            ⟨d, hd', Or.inr ⟨hname, fun _ => rfl, ds, rest, hds', rfl⟩⟩, by simp⟩

/-- **Bad packets are harmless** if and only if none of them in front of the first empty packet
has the identifier of a topic and an unknown type while a stream listens, and no stream takes
a good packet after the first empty one.  Then the call leaves the streams as it leaves them
in the absence of the bad packets. -/
theorem bad_packets_harmless_iff (hN : N.Lawful) {queue : List (Bool × Packet)}
    (hqueue : ∀ e ∈ queue, if e.1 then Good N e.2 else Bad N config e.2)
    (listening : List RxStream) :
    (Harmless N config queue listening ↔
      (∀ e ∈ queue.takeWhile (·.2 ≠ []), UnknownType N config e.2 → listening = []) ∧
      ∀ e ∈ queue.dropWhile (·.2 ≠ []), e.1 = true → ∀ s ∈ listening, ¬ Takes N config s e.2) ∧
    (Harmless N config queue listening → ∃ fuel streams rest,
      interpretPackets N config fuel (queue.map (·.2)) listening = .ok (streams, rest) ∧
      interpretPackets N config fuel (goods queue) listening = .ok (streams, [])) := by
  have hgood : ∀ packet ∈ goods queue, Good N packet := by
    intro packet hpacket
    exact hqueue _ (mem_goods.mp hpacket)
  have hsplit : goods queue = goods (queue.takeWhile (·.2 ≠ []))
      ++ goods (queue.dropWhile (·.2 ≠ [])) := by
    rw [← goods_append, List.takeWhile_append_dropWhile]
  have hlater : ∀ packet ∈ goods (queue.dropWhile (·.2 ≠ [])), Good N packet :=
    fun packet hpacket => hgood packet (by rw [hsplit]; exact List.mem_append_right _ hpacket)
  constructor
  · constructor
    · rintro ⟨fuel, ds, rest, ds', hds, hds', hsame⟩
      have hunknown : ∀ e ∈ queue.takeWhile (·.2 ≠ []),
          UnknownType N config e.2 → listening = [] := by
        intro e he htype
        have hpasses := passes_of_dispatched hds e.2
          (by rw [List.takeWhile_map]; exact List.mem_map_of_mem he)
        simpa using hpasses.2 htype
      refine ⟨hunknown, fun e he hmark s hs => ?_⟩
      obtain ⟨fuel₁, ds₁, rest₁, hds₁, htaken₁⟩ := dispatched_queue hN hqueue hunknown
      obtain ⟨ds₂, hds₂, htaken₂⟩ := dispatched_goods config hN le_rfl
        (!listening.isEmpty) hgood
      obtain ⟨rfl, -⟩ := Prod.mk.inj (dispatched_unique hds hds₁)
      obtain ⟨rfl, -⟩ := Prod.mk.inj (dispatched_unique hds' hds₂)
      have hnothing : (goods (queue.dropWhile (·.2 ≠ []))).filterMap (taken N config s) = [] := by
        have heq := hsame s hs
        rw [htaken₁ s hs, htaken₂, hsplit, List.filterMap_append] at heq
        exact List.self_eq_append_right.mp heq
      have hmem : e.2 ∈ goods (queue.dropWhile (·.2 ≠ [])) :=
        mem_goods.mpr (by rw [← hmark]; exact he)
      exact (taken_eq_none_iff hN (hlater e.2 hmem) s).mp
        (List.filterMap_eq_nil_iff.mp hnothing e.2 hmem)
    · rintro ⟨hunknown, hafter⟩
      obtain ⟨fuel, ds, rest, hds, htaken⟩ := dispatched_queue hN hqueue hunknown
      obtain ⟨ds', hds', htaken'⟩ := dispatched_goods config hN
        (Nat.le_max_right fuel maxPacketLength) (!listening.isEmpty) hgood
      refine ⟨max fuel maxPacketLength, ds, rest, ds',
        dispatched_of_le (Nat.le_max_left fuel maxPacketLength) hds, hds', fun s hs => ?_⟩
      have hnothing : (goods (queue.dropWhile (·.2 ≠ []))).filterMap (taken N config s) = [] :=
        List.filterMap_eq_nil_iff.mpr fun packet hpacket =>
          (taken_eq_none_iff hN (hlater packet hpacket) s).mpr
            (hafter _ (mem_goods.mp hpacket) rfl s hs)
      rw [htaken s hs, htaken', hsplit, List.filterMap_append, hnothing, List.append_nil]
  · rintro ⟨fuel, ds, rest, ds', hds, hds', hsame⟩
    refine ⟨fuel, _, rest, interpretPackets_eq_ok.mpr ⟨ds, rest, hds, rfl⟩,
      interpretPackets_eq_ok.mpr ⟨ds', [], hds', ?_⟩⟩
    congr 1
    refine List.map_congr_left fun s hs => ?_
    rw [hsame s hs]

/-- A sample of a topic, between an incomplete packet and an empty one. -/
theorem bad_packets_harmless_sample :
    Harmless NanoCbor.rfc8949 (.loadConfiguration [("/a", 1)])
      [(false, [0x19]), (true, [0x00, 0x01, 0x07]), (false, [])]
      [⟨subscriberType, 1, 0, [], []⟩] := by
  have hgood : Good NanoCbor.rfc8949 [0x00, 0x01, 0x07] :=
    ⟨⟨⟨publisherType, 1, false, []⟩, none, [.uint 7]⟩, Or.inl rfl,
      List.forall_mem_singleton.mpr trivial, rfl⟩
  have hbad : Bad NanoCbor.rfc8949 (.loadConfiguration [("/a", 1)]) [0x19] := by
    refine Or.inr ⟨⟨1, _, rfl⟩, ?_⟩
    rintro ⟨r, ⟨⟩, -⟩
  refine (bad_packets_harmless_iff NanoCbor.rfc8949_lawful ?_ _).1.mpr ⟨?_, ?_⟩
  · exact List.forall_mem_cons.mpr ⟨hbad, List.forall_mem_cons.mpr ⟨hgood,
      List.forall_mem_singleton.mpr (Or.inl rfl)⟩⟩
  · refine List.forall_mem_cons.mpr ⟨?_, List.forall_mem_singleton.mpr ?_⟩
    · rintro ⟨r, ⟨⟩, -⟩
    · rintro ⟨r, ⟨⟩, -, htype⟩
      cases htype
  · exact List.forall_mem_singleton.mpr nofun

/-- An empty packet keeps a stream from a packet, and an unknown type stops the call. -/
theorem bad_packets_not_harmless :
    let N := NanoCbor.rfc8949
    let config := TopicsConfig.loadConfiguration [("/a", 1)]
    let subscriber : RxStream := ⟨subscriberType, 1, 0, [], []⟩
    (Bad N config [] ∧ Good N [0x00, 0x01, 0x07] ∧
      ¬ Harmless N config [(false, []), (true, [0x00, 0x01, 0x07])] [subscriber]) ∧
    Bad N config [0x09, 0x01] ∧ ¬ Harmless N config [(false, [0x09, 0x01])] [subscriber] := by
  intro N config subscriber
  refine ⟨⟨Or.inl rfl, ?_, ?_⟩, Or.inr ⟨⟨2, _, rfl⟩, ?_⟩, ?_⟩
  · exact ⟨⟨⟨publisherType, 1, false, []⟩, none, [.uint 7]⟩, Or.inl rfl,
      List.forall_mem_singleton.mpr trivial, rfl⟩
  · rintro ⟨fuel, ds, rest, ds', hds, hds', hsame⟩
    obtain ⟨rfl, -⟩ := Prod.mk.inj (Except.ok.inj hds)
    have halone : dispatched N config 3 true [[0x00, 0x01, 0x07]]
        = .ok ([⟨publisherType, 1, "/a", [.uint 7]⟩], []) := rfl
    obtain ⟨rfl, -⟩ := Prod.mk.inj (dispatched_unique hds' halone)
    cases hsame subscriber List.mem_cons_self
  · rintro ⟨r, ⟨⟩, hknown, -⟩
    cases hknown
  · rintro ⟨fuel, ds, rest, ds', hds, -⟩
    have hpasses := passes_of_dispatched hds [0x09, 0x01] List.mem_cons_self
    cases hpasses.2 ⟨_, rfl, by decide, rfl⟩

end InterpretPackets
end RmwDesert
