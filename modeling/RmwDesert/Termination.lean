/-
The termination of `interpret_packets` on arbitrary bytes.

The loop over the items of a packet leaves out an item that it cannot decode by
`nanocbor_skip`.  When that fails too, the decoder stays where it is, and the loop takes the
same turn for ever.  The main result, `interpretPackets_returns_iff`, says which queues of
packets are interpreted to the end.
-/
import RmwDesert.Dispatch

namespace RmwDesert
namespace InterpretPackets

section

variable (N : NanoCbor) (config : TopicsConfig)

/-- The first two items of a packet, and the bytes after them. -/
def firstTwo (packet : Packet) : Option (UInt8 × UInt8 × List UInt8) :=
  match N.getUint8 packet with
  | none | some (_, []) => none
  | some (streamType, b :: bytes) =>
    (N.getUint8 (b :: bytes)).map fun (streamIdentifier, rest) =>
      (streamType, streamIdentifier, rest)

/-- The first item can be decoded, or skipped. -/
def Readable (bytes : List UInt8) : Prop :=
  (interpretField N bytes).1.isSome = true ∨ (N.skip bytes).isSome = true

/-- A sequence of items that can be decoded or skipped, up to the end. -/
inductive Complete : List UInt8 → Prop
  | nil : Complete []
  | cons {bytes : List UInt8} (hfirst : Readable N bytes)
      (hrest : Complete (interpretField N bytes).2) : Complete bytes

/-- After the stream type and the identifier of a topic, the packet has complete items. -/
def Decodable (packet : Packet) : Prop :=
  ∀ r ∈ firstTwo N packet, config.getIdentifierTopic r.2.1 ≠ "" → Complete N r.2.2

/-- The packet has the identifier of a topic, and a type that no stream sends. -/
def UnknownType (packet : Packet) : Prop :=
  ∃ r ∈ firstTwo N packet, config.getIdentifierTopic r.2.1 ≠ "" ∧ streamTypeMatchMap r.1 = none

end

variable {N : NanoCbor} {config : TopicsConfig}

/-! ## One packet -/

/-- The loop on a packet without two readable items, or without a topic. -/
lemma interpretItems_of_unnamed {packet : Packet}
    (h : ∀ r ∈ firstTwo N packet, config.getIdentifierTopic r.2.1 = "") (fuel : ℕ) :
    ∃ d, interpretItems N config (fuel + 2) 0 packet .initial = .ok d ∧ d.streamName = "" := by
  cases packet with
  | nil => exact ⟨_, rfl, rfl⟩
  | cons b packet =>
    rw [interpretItems_zero N config (List.cons_ne_nil b packet)]
    cases hfirst : N.getUint8 (b :: packet) with
    | none => exact ⟨_, rfl, rfl⟩
    | some first =>
      obtain ⟨streamType, bytes⟩ := first
      cases bytes with
      | nil => exact ⟨_, rfl, rfl⟩
      | cons c bytes =>
        simp only
        rw [interpretItems_one N config (List.cons_ne_nil c bytes)]
        cases hsecond : N.getUint8 (c :: bytes) with
        | none => exact ⟨_, rfl, rfl⟩
        | some second =>
          have hname := h (streamType, second) (by simp [firstTwo, hfirst, hsecond])
          simp only [hname, if_true]
          exact ⟨_, rfl, rfl⟩

/-- The loop on a packet that names a topic goes on with the third item. -/
lemma interpretItems_of_named {packet : Packet} {streamType streamIdentifier : UInt8}
    {bytes : List UInt8} (h : firstTwo N packet = some (streamType, streamIdentifier, bytes))
    (hname : config.getIdentifierTopic streamIdentifier ≠ "") (hpacket : packet ≠ [])
    (fuel : ℕ) :
    interpretItems N config (fuel + 2) 0 packet .initial
      = interpretItems N config fuel 2 bytes
          ⟨streamType, streamIdentifier, config.getIdentifierTopic streamIdentifier, []⟩ := by
  rw [interpretItems_zero N config hpacket]
  rw [firstTwo] at h
  split at h
  · cases h
  · cases h
  · rename_i first c rest hfirst
    obtain ⟨⟨second, rest'⟩, hsecond, heq⟩ := Option.map_eq_some_iff.mp h
    cases heq
    simp only [hfirst]
    rw [interpretItems_one N config (List.cons_ne_nil c rest), hsecond]
    simp only [if_neg hname]
    rfl

/-- A turn on a readable item moves forward. -/
lemma length_interpretField_lt (hN : N.Progressive) {bytes : List UInt8} (h : Readable N bytes) :
    (interpretField N bytes).2.length < bytes.length := by
  have hskip : (N.skip bytes).isSome = true →
      ((N.skip bytes).getD bytes).length < bytes.length := by
    intro hsome
    obtain ⟨rest, hrest⟩ := Option.isSome_iff_exists.mp hsome
    rw [hrest]
    exact hN.skip hrest
  have hfield : ∀ {α : Type} (field : α → Field) (got : Option (α × List UInt8)),
      (∀ x rest, got = some (x, rest) → rest.length < bytes.length) →
      (fieldOrSkip N field got bytes).1.isSome = true ∨ (N.skip bytes).isSome = true →
      (fieldOrSkip N field got bytes).2.length < bytes.length := by
    intro α field got hgot h
    cases got with
    | none => exact hskip (by simpa [fieldOrSkip] using h)
    | some r => exact hgot r.1 r.2 rfl
  unfold Readable interpretField at h
  unfold interpretField
  cases htype : N.getType bytes with
  | nint =>
    rw [htype] at h
    exact hfield _ _ (fun _ _ => hN.getInt64) h
  | uint =>
    rw [htype] at h
    exact hfield _ _ (fun _ _ => hN.getUint64) h
  | float =>
    rw [htype] at h
    exact hfield _ _ (fun _ _ => hN.getFloat) h
  | tstr =>
    rw [htype] at h
    exact hfield _ _ (fun _ _ => hN.getTstr) h
  | bstr =>
    rw [htype] at h
    exact hfield _ _ (fun _ _ => hN.getBstr) h
  | arr | map | tag | error =>
    rw [htype] at h
    exact hskip (by simpa using h)

/-- A turn on another item changes nothing. -/
lemma interpretField_of_not_readable {bytes : List UInt8} (h : ¬ Readable N bytes) :
    (interpretField N bytes).2 = bytes := by
  obtain ⟨hnone, hskip⟩ := not_or.mp h
  have hskip : (N.skip bytes).getD bytes = bytes := by
    rw [Option.not_isSome_iff_eq_none.mp hskip, Option.getD_none]
  have hfield : ∀ {α : Type} (field : α → Field) (got : Option (α × List UInt8)),
      ¬ (fieldOrSkip N field got bytes).1.isSome = true →
      (fieldOrSkip N field got bytes).2 = bytes := by
    intro α field got hgot
    cases got with
    | none => exact hskip
    | some r => exact absurd rfl hgot
  unfold interpretField at hnone ⊢
  cases htype : N.getType bytes with
  | nint | uint | float | tstr | bstr =>
    rw [htype] at hnone
    exact hfield _ _ hnone
  | arr | map | tag | error => exact hskip

/-- With enough turns, the loop goes through complete items. -/
lemma interpretItems_of_complete (config : TopicsConfig) (hN : N.Progressive)
    {bytes : List UInt8} (h : Complete N bytes) : ∀ (i : ℕ) (d : Interpreted), ∃ d',
      d'.streamName = d.streamName ∧ d'.streamType = d.streamType ∧
      ∀ fuel ≥ bytes.length, interpretItems N config fuel (i + 2) bytes d = .ok d' := by
  induction h with
  | nil =>
    intro i d
    refine ⟨d, rfl, rfl, fun fuel _ => ?_⟩
    cases fuel <;> rfl
  | @cons bytes hfirst hrest ih =>
    intro i d
    have hlt := length_interpretField_lt hN hfirst
    have hne : bytes ≠ [] := List.length_pos_iff.mp (Nat.zero_lt_of_lt hlt)
    obtain ⟨d', hname, htype, hloop⟩ := ih (i + 1) { d with interpretedPacket :=
      d.interpretedPacket ++ (interpretField N bytes).1.toList }
    refine ⟨d', hname, htype, fun fuel hfuel => ?_⟩
    obtain ⟨fuel, rfl⟩ : ∃ n, fuel = n + 1 := ⟨fuel - 1, by omega⟩
    rw [interpretItems_add_two N config hne]
    exact hloop fuel (by omega)

/-- Whatever the number of turns, the loop does not get past an item that is not readable. -/
lemma complete_of_interpretItems : ∀ (fuel i : ℕ) {bytes : List UInt8} {d d' : Interpreted},
    interpretItems N config fuel (i + 2) bytes d = .ok d' → Complete N bytes := by
  intro fuel
  induction fuel with
  | zero =>
    intro i bytes d d' h
    cases bytes with
    | nil => exact .nil
    | cons b bytes => cases h
  | succ fuel ih =>
    intro i bytes d d' h
    cases bytes with
    | nil => exact .nil
    | cons b bytes =>
      rw [interpretItems_add_two N config (List.cons_ne_nil b bytes)] at h
      have hrest := ih (i + 1) h
      by_cases hfirst : Readable N (b :: bytes)
      · exact .cons hfirst hrest
      · rw [interpretField_of_not_readable hfirst] at hrest
        exact hrest

/-- The loop keeps the stream name and type from the third item on. -/
lemma named_of_interpretItems : ∀ (fuel i : ℕ) {bytes : List UInt8} {d d' : Interpreted},
    interpretItems N config fuel (i + 2) bytes d = .ok d' →
    d'.streamName = d.streamName ∧ d'.streamType = d.streamType := by
  intro fuel
  induction fuel with
  | zero =>
    intro i bytes d d' h
    cases bytes with
    | nil =>
      cases h
      exact ⟨rfl, rfl⟩
    | cons b bytes => cases h
  | succ fuel ih =>
    intro i bytes d d' h
    cases bytes with
    | nil =>
      cases h
      exact ⟨rfl, rfl⟩
    | cons b bytes =>
      rw [interpretItems_add_two N config (List.cons_ne_nil b bytes)] at h
      have hrest := ih (i + 1) h
      exact hrest

/-- More turns do not change the result of the loop. -/
lemma interpretItems_succ : ∀ (fuel i : ℕ) {bytes : List UInt8} {d d' : Interpreted},
    interpretItems N config fuel i bytes d = .ok d' →
    interpretItems N config (fuel + 1) i bytes d = .ok d' := by
  intro fuel
  induction fuel with
  | zero =>
    intro i bytes d d' h
    cases bytes with
    | nil => exact h
    | cons b bytes => cases h
  | succ fuel ih =>
    intro i bytes d d' h
    cases bytes with
    | nil => exact h
    | cons b bytes =>
      rcases i with - | - | i
      · rw [interpretItems_zero N config (List.cons_ne_nil b bytes)] at h ⊢
        split at h
        · exact h
        · exact ih 1 h
      · rw [interpretItems_one N config (List.cons_ne_nil b bytes)] at h ⊢
        split at h
        · exact h
        · simp only at h ⊢
          split_ifs at h ⊢ with hname
          · exact h
          · exact ih 2 h
      · rw [interpretItems_add_two N config (List.cons_ne_nil b bytes)] at h ⊢
        exact ih (i + 3) h

lemma interpretItems_of_le {fuel fuel' i : ℕ} {bytes : List UInt8} {d d' : Interpreted}
    (hfuel : fuel ≤ fuel') (h : interpretItems N config fuel i bytes d = .ok d') :
    interpretItems N config fuel' i bytes d = .ok d' := by
  induction hfuel with
  | refl => exact h
  | step hfuel ih => exact interpretItems_succ _ _ ih

/-- With enough turns, the loop goes through a decodable packet. -/
lemma interpretItems_of_decodable (hN : N.Progressive) {packet : Packet} (hpacket : packet ≠ [])
    (h : Decodable N config packet) :
    ∃ fuel d, interpretItems N config fuel 0 packet .initial = .ok d := by
  by_cases hnamed : ∃ r ∈ firstTwo N packet, config.getIdentifierTopic r.2.1 ≠ ""
  · obtain ⟨⟨streamType, streamIdentifier, bytes⟩, hfirst, hname⟩ := hnamed
    obtain ⟨d, -, -, hloop⟩ := interpretItems_of_complete config hN (h _ hfirst hname) 0
      ⟨streamType, streamIdentifier, config.getIdentifierTopic streamIdentifier, []⟩
    refine ⟨bytes.length + 2, d, ?_⟩
    rw [interpretItems_of_named hfirst hname hpacket]
    exact hloop _ le_rfl
  · obtain ⟨d, hloop, -⟩ := interpretItems_of_unnamed
      (fun r hr => not_not.mp fun hname => hnamed ⟨r, hr, hname⟩) 0
    exact ⟨2, d, hloop⟩

/-- What the loop gives: a packet that names no topic, or one with a type, the identifier of a
topic and complete items. -/
lemma interpretItems_ok {packet : Packet} (hpacket : packet ≠ []) {fuel : ℕ} {d : Interpreted}
    (h : interpretItems N config fuel 0 packet .initial = .ok d) :
    (d.streamName = "" ∧ ∀ r ∈ firstTwo N packet, config.getIdentifierTopic r.2.1 = "") ∨
    (d.streamName ≠ "" ∧ ∃ streamIdentifier bytes,
      firstTwo N packet = some (d.streamType, streamIdentifier, bytes) ∧
      config.getIdentifierTopic streamIdentifier ≠ "" ∧ Complete N bytes) := by
  have hloop := interpretItems_of_le (Nat.le_add_right fuel 2) h
  by_cases hnamed : ∃ r ∈ firstTwo N packet, config.getIdentifierTopic r.2.1 ≠ ""
  · obtain ⟨⟨streamType, streamIdentifier, bytes⟩, hfirst, hname⟩ := hnamed
    rw [interpretItems_of_named hfirst hname hpacket] at hloop
    obtain ⟨hnameEq, htypeEq⟩ := named_of_interpretItems fuel 0 hloop
    have hcomplete := complete_of_interpretItems fuel 0 hloop
    refine Or.inr ⟨by rwa [hnameEq], streamIdentifier, bytes, ?_, hname, hcomplete⟩
    rw [htypeEq]
    exact hfirst
  · have hunnamed : ∀ r ∈ firstTwo N packet, config.getIdentifierTopic r.2.1 = "" :=
      fun r hr => not_not.mp fun hname => hnamed ⟨r, hr, hname⟩
    obtain ⟨d', hloop', hname⟩ := interpretItems_of_unnamed hunnamed fuel
    obtain rfl := Except.ok.inj (hloop.symm.trans hloop')
    exact Or.inl ⟨hname, hunnamed⟩

/-- The loop ends on decodable packets only, and it says which of them have an unknown
type. -/
lemma decodable_of_interpretItems {packet : Packet} (hpacket : packet ≠ []) {fuel : ℕ}
    {d : Interpreted} (h : interpretItems N config fuel 0 packet .initial = .ok d) :
    Decodable N config packet ∧
      (UnknownType N config packet ↔
        d.streamName ≠ "" ∧ streamTypeMatchMap d.streamType = none) := by
  rcases interpretItems_ok hpacket h with
    ⟨hname, hunnamed⟩ | ⟨hname, streamIdentifier, bytes, hfirst, htopic, hcomplete⟩
  · constructor
    · exact fun r hr hne => absurd (hunnamed r hr) hne
    · constructor
      · rintro ⟨r, hr, hne, -⟩
        exact absurd (hunnamed r hr) hne
      · rintro ⟨hne, -⟩
        exact absurd hname hne
  · have honly : ∀ r ∈ firstTwo N packet, r = (d.streamType, streamIdentifier, bytes) :=
      fun r hr => Option.mem_unique hr hfirst
    constructor
    · intro r hr _
      rw [honly r hr]
      exact hcomplete
    · constructor
      · rintro ⟨r, hr, -, htype⟩
        rw [honly r hr] at htype
        exact ⟨hname, htype⟩
      · rintro ⟨-, htype⟩
        exact ⟨_, hfirst, htopic, htype⟩

/-! ## The queue of packets -/

lemma dispatched_of_le {fuel fuel' : ℕ} (hfuel : fuel ≤ fuel') {listening : Bool}
    {packets : List Packet} : ∀ {r : List Interpreted × List Packet},
    dispatched N config fuel listening packets = .ok r →
    dispatched N config fuel' listening packets = .ok r := by
  induction packets with
  | nil => exact fun h => h
  | cons packet packets ih =>
    intro r h
    by_cases hpacket : packet = []
    · subst hpacket
      exact h
    · obtain ⟨d, hd, hnext⟩ := (dispatched_cons_eq_ok hpacket).mp h
      refine (dispatched_cons_eq_ok hpacket).mpr ⟨d, interpretItems_of_le hfuel hd, ?_⟩
      rcases hnext with ⟨hname, hnext⟩ | ⟨hname, htype, ds, rest, hnext, hr⟩
      · exact Or.inl ⟨hname, ih hnext⟩
      · exact Or.inr ⟨hname, htype, ds, rest, ih hnext, hr⟩

/-- What a packet has to meet so that the call goes on with the next one. -/
def Passes (N : NanoCbor) (config : TopicsConfig) (listening : Bool) (packet : Packet) : Prop :=
  Decodable N config packet ∧ (UnknownType N config packet → listening = false)

lemma passes_of_dispatched {fuel : ℕ} {listening : Bool} {packets : List Packet} :
    ∀ {r : List Interpreted × List Packet}, dispatched N config fuel listening packets = .ok r →
    ∀ packet ∈ packets.takeWhile (· ≠ []), Passes N config listening packet := by
  induction packets with
  | nil => simp
  | cons packet packets ih =>
    intro r h
    by_cases hpacket : packet = []
    · simp [hpacket]
    · obtain ⟨d, hd, hnext⟩ := (dispatched_cons_eq_ok hpacket).mp h
      obtain ⟨hdecodable, hunknown⟩ := decodable_of_interpretItems hpacket hd
      rw [List.takeWhile_cons_of_pos (by simpa using hpacket)]
      refine List.forall_mem_cons.mpr ⟨⟨hdecodable, fun htype => ?_⟩, ?_⟩
      · obtain ⟨hne, hnone⟩ := hunknown.mp htype
        rcases hnext with ⟨hname, -⟩ | ⟨-, hknown, -⟩
        · exact absurd hname hne
        · exact hknown hnone
      · rcases hnext with ⟨-, hnext⟩ | ⟨-, -, ds, rest, hnext, -⟩
        · exact ih hnext
        · exact ih hnext

lemma dispatched_of_passes (hN : N.Progressive) {listening : Bool} {packets : List Packet}
    (h : ∀ packet ∈ packets.takeWhile (· ≠ []), Passes N config listening packet) :
    ∃ fuel r, dispatched N config fuel listening packets = .ok r := by
  induction packets with
  | nil => exact ⟨0, _, rfl⟩
  | cons packet packets ih =>
    by_cases hpacket : packet = []
    · subst hpacket
      exact ⟨0, _, rfl⟩
    · rw [List.takeWhile_cons_of_pos (by simpa using hpacket)] at h
      obtain ⟨⟨hdecodable, htype⟩, hrest⟩ := List.forall_mem_cons.mp h
      obtain ⟨fuel, d, hd⟩ := interpretItems_of_decodable hN hpacket hdecodable
      obtain ⟨fuel', ⟨ds, rest⟩, hnext⟩ := ih hrest
      have hunknown := (decodable_of_interpretItems hpacket hd).2
      have hd' := interpretItems_of_le (Nat.le_add_right fuel fuel') hd
      have hnext' := dispatched_of_le (Nat.le_add_left fuel' fuel) hnext
      by_cases hname : d.streamName = ""
      · exact ⟨fuel + fuel', _, (dispatched_cons_eq_ok hpacket).mpr
          ⟨d, hd', Or.inl ⟨hname, hnext'⟩⟩⟩
      · exact ⟨fuel + fuel', _, (dispatched_cons_eq_ok hpacket).mpr ⟨d, hd', Or.inr
          ⟨hname, fun hnone => htype (hunknown.mpr ⟨hname, hnone⟩), ds, rest, hnext', rfl⟩⟩⟩

/-- The call returns: from some number of turns on, the result is the same. -/
def Returns (N : NanoCbor) (config : TopicsConfig) (packets : List Packet)
    (listening : List RxStream) : Prop :=
  ∃ fuel result, ∀ fuel' ≥ fuel, interpretPackets N config fuel' packets listening = .ok result

lemma returns_iff {packets : List Packet} {listening : List RxStream} :
    Returns N config packets listening ↔
      ∃ fuel r, dispatched N config fuel (!listening.isEmpty) packets = .ok r := by
  constructor
  · rintro ⟨fuel, result, h⟩
    obtain ⟨ds, rest, hd, -⟩ := interpretPackets_eq_ok.mp (h fuel le_rfl)
    exact ⟨fuel, _, hd⟩
  · rintro ⟨fuel, ⟨ds, rest⟩, hd⟩
    refine ⟨fuel, _, fun fuel' hfuel => interpretPackets_eq_ok.mpr ⟨ds, rest, ?_, rfl⟩⟩
    exact dispatched_of_le hfuel hd

/-- **Termination.** `interpret_packets` returns if and only if every packet in front of the
first empty one is decodable to its end, and has no unknown type while a stream listens. -/
theorem interpretPackets_returns_iff (hN : N.Progressive) (packets : List Packet)
    (listening : List RxStream) :
    Returns N config packets listening ↔
      ∀ packet ∈ packets.takeWhile (· ≠ []),
        Decodable N config packet ∧ (UnknownType N config packet → listening = []) := by
  have hpasses : ∀ packet, Passes N config (!listening.isEmpty) packet ↔
      Decodable N config packet ∧ (UnknownType N config packet → listening = []) := by
    intro packet
    simp [Passes]
  simp only [← hpasses]
  rw [returns_iff]
  constructor
  · rintro ⟨fuel, r, h⟩
    exact passes_of_dispatched h
  · exact dispatched_of_passes hN

/-- A packet with a field is interpreted, and so is one without a topic. -/
theorem interpretPackets_returns_field :
    Returns NanoCbor.rfc8949 (.loadConfiguration [("/a", 1)]) [[0x00, 0x01, 0x07], [0x19]]
      [⟨subscriberType, 1, 0, [], []⟩] := by
  refine (interpretPackets_returns_iff NanoCbor.rfc8949_progressive _ _).mpr ?_
  refine List.forall_mem_cons.mpr ⟨⟨?_, ?_⟩, List.forall_mem_singleton.mpr ⟨?_, ?_⟩⟩
  · rintro r ⟨⟩ -
    exact .cons (Or.inl rfl) .nil
  · rintro ⟨r, ⟨⟩, -, htype⟩
    cases htype
  · rintro r ⟨⟩
  · rintro ⟨r, ⟨⟩, -⟩

/-- After a truncated item, the loop does not end. -/
theorem truncated_item_stops_loop :
    ¬ Returns NanoCbor.rfc8949 (.loadConfiguration [("/a", 1)]) [[0x00, 0x01, 0x19]] [] := by
  intro h
  obtain ⟨fuel, r, hd⟩ := returns_iff.mp h
  obtain ⟨hdecodable, -⟩ := passes_of_dispatched hd [0x00, 0x01, 0x19] List.mem_cons_self
  have hcomplete : Complete NanoCbor.rfc8949 [0x19] := hdecodable (0, 1, [0x19]) rfl (by decide)
  cases hcomplete with
  | cons hfirst hrest =>
    rcases hfirst with hfirst | hfirst
    · cases hfirst
    · cases hfirst

end InterpretPackets
end RmwDesert
