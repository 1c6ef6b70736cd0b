/-
What a stream receives (`RxStream`).

A mailbox is a stream that was created with a type and a name.  `Receives` accounts for the packets
that were dispatched to it: those that its entity has read and those that the stream holds.
-/
import RmwDesert.DaemonNetwork
import RmwDesert.Entities
import RmwDesert.Isolation

namespace RmwDesert

open InterpretPackets MessageSerialization
open TcpDaemon (NoEarlyTail maxPacketLength)

/-! ## The packets of a stream -/

namespace RxStream

/-- The packets of a stream, the next one to be read first. -/
def held (s : RxStream) : List Fields :=
  (if s.bufferedPacket = [] then [] else [s.bufferedPacket]) ++ s.receivedPackets

/-- A queue keeps the latest of the packets that it is given. -/
lemma held_pushAll {s : RxStream} (h : s.receivedPackets.length ≤ maxBufferCapacity)
    (packets : List Fields) :
    ∃ kept, (s.pushAll packets).held = kept ∧ kept.Sublist (s.held ++ packets) ∧
      (s.receivedPackets.length + packets.length ≤ maxBufferCapacity →
        kept = s.held ++ packets) := by
  have hheld : (s.pushAll packets).held = (if s.bufferedPacket = [] then [] else [s.bufferedPacket])
      ++ (s.receivedPackets ++ packets).rtake maxBufferCapacity := by
    rw [pushAll_eq h]
    rfl
  refine ⟨_, hheld, ?_, fun hfit => ?_⟩
  · rw [held, List.append_assoc]
    exact (List.append_sublist_append_left _).mpr (List.drop_sublist _ _)
  · have hzero : (s.receivedPackets ++ packets).length - maxBufferCapacity = 0 := by
      rw [List.length_append]
      omega
    rw [held, List.append_assoc, List.rtake, hzero, List.drop_zero]

/-- `data_available` brings the next packet into the buffer, of whatever kind it is. -/
lemma held_dataAvailable {s s' : RxStream} {available : Bool}
    (h : s.dataAvailable 0 = .ok (available, s')) :
    s'.streamType = s.streamType ∧ s'.streamIdentifier = s.streamIdentifier ∧
      (available = false → s.held = [] ∧ s'.held = []) ∧
      (available = true → s.held = s'.bufferedPacket :: s'.receivedPackets) := by
  unfold dataAvailable at h
  by_cases hbuffer : s.bufferedPacket = []
  · rw [if_neg (not_not_intro hbuffer)] at h
    have hheld : s.held = s.receivedPackets := by rw [held, if_pos hbuffer, List.nil_append]
    cases hqueue : s.receivedPackets with
    | nil =>
      rw [hqueue] at h
      obtain ⟨rfl, rfl⟩ := Prod.mk.inj (Except.ok.inj h)
      rw [hheld, hqueue]
      exact ⟨rfl, rfl, fun _ => ⟨rfl, rfl⟩, fun h => Bool.noConfusion h⟩
    | cons packet queue =>
      rw [hqueue] at h
      obtain ⟨rfl, rfl⟩ := Prod.mk.inj (Except.ok.inj h)
      rw [hheld, hqueue]
      exact ⟨rfl, rfl, fun h => Bool.noConfusion h, fun _ => rfl⟩
  · rw [if_pos hbuffer] at h
    obtain ⟨rfl, rfl⟩ := Prod.mk.inj (Except.ok.inj h)
    refine ⟨rfl, rfl, fun h => Bool.noConfusion h, fun _ => ?_⟩
    rw [held, if_neg hbuffer]
    rfl

end RxStream

/-! ## Mailboxes -/

/-- A packet that was enqueued, with what it came from. -/
structure Entry (α : Type) where
  transmission : Transmission
  packet : Packet
  /-- What the sender put into it, if that is known. -/
  content : Option α

/-- What a stream was created with. -/
structure Mailbox where
  streamType : UInt8
  name : String

namespace Mailbox

variable {α : Type} (N : NanoCbor) (config : TopicsConfig) (box : Mailbox)

/-- The stream, as it is created. -/
def stream : RxStream := .create box.streamType (config.getTopicIdentifier box.name)

/-- The packet reaches the stream. -/
def Takes (e : Entry α) : Prop := e.transmission.Matches (box.stream config)

instance (e : Entry α) : Decidable (box.Takes config e) := inferInstanceAs (Decidable (_ ∧ _))

/-- The packets of a network in which the name of the mailbox is configured. -/
structure Lawful (e : Entry α) : Prop where
  enqueues : e.transmission.Enqueues N e.packet
  typed : e.transmission.Typed
  noEarlyTail : NoEarlyTail e.packet
  name_ne : box.Takes config e →
    config.getIdentifierTopic e.transmission.tx.streamIdentifier ≠ ""
  body_ne : box.Takes config e → e.transmission.body ≠ []

/-- Of the packets that were dispatched, the stream holds some and its entity has read some. -/
structure Receives (lossless : Prop) (dispatched : List (Entry α)) (rx : RxStream)
    (read held : List (Entry α)) : Prop where
  named : rx.Named config box.streamType box.name
  length_le : rx.receivedPackets.length ≤ maxBufferCapacity
  iterator : rx.bufferedPacket ≠ [] → rx.bufferedIterator = 0
  held_eq : rx.held = held.map (·.transmission.body)
  lawful : ∀ e ∈ dispatched, box.Lawful N config e
  delivered : (read ++ held).Sublist (dispatched.filter (box.Takes config ·))
  delivered_eq : lossless → read ++ held = dispatched.filter (box.Takes config ·)

variable {N config box}

lemma matches_iff {rx : RxStream} (h : rx.Named config box.streamType box.name) (e : Entry α) :
    e.transmission.Matches rx ↔ box.Takes config e := by
  rw [Takes, Transmission.Matches, Transmission.Matches, h.1, h.2]
  rfl

lemma Lawful.framed {e : Entry α} (hN : N.Lawful) (h : box.Lawful N config e) :
    e.packet.length ≤ maxPacketLength ∧ NoEarlyTail e.packet :=
  ⟨h.enqueues.length_le hN, h.noEarlyTail⟩

/-- A packet is taken out of the queue if it reaches the stream. -/
lemma filterMap_taken (hN : N.Lawful) {entries : List (Entry α)}
    (h : ∀ e ∈ entries, box.Lawful N config e) {rx : RxStream}
    (hrx : rx.Named config box.streamType box.name) :
    (entries.map Entry.packet).filterMap (taken N config rx)
      = (entries.filter (box.Takes config ·)).map (·.transmission.body) := by
  induction entries with
  | nil => rfl
  | cons e entries ih =>
    obtain ⟨he, hentries⟩ := List.forall_mem_cons.mp h
    have htaken : taken N config rx e.packet = _ := taken_eq hN he.enqueues rx
    rw [Transmission.accepted_interpreted] at htaken
    simp only [matches_iff hrx] at htaken
    by_cases htakes : box.Takes config e
    · rw [if_neg (he.name_ne htakes), if_pos htakes] at htaken
      simp [htaken, htakes, ih hentries]
    · rw [if_neg htakes, ite_self] at htaken
      simp [htaken, htakes, ih hentries]

/-- Lawful packets are dispatched, up to those without a topic. -/
lemma dispatched_lawful (hN : N.Lawful) {entries : List (Entry α)}
    (h : ∀ e ∈ entries, box.Lawful N config e) (listening : Bool) :
    InterpretPackets.dispatched N config maxPacketLength listening (entries.map Entry.packet)
      = .ok ((entries.filter fun e =>
            config.getIdentifierTopic e.transmission.tx.streamIdentifier ≠ "").map
          fun e => e.transmission.interpreted config, []) := by
  have hsent : List.Forall₂ (Transmission.Enqueues N) (entries.map Entry.transmission)
      (entries.map Entry.packet) := by
    rw [List.forall₂_map_left_iff, List.forall₂_map_right_iff]
    exact List.forall₂_same.mpr fun e he => (h e he).enqueues
  have htyped : ∀ t ∈ entries.map Entry.transmission, t.Typed := by
    intro t ht
    obtain ⟨e, he, rfl⟩ := List.mem_map.mp ht
    exact (h e he).typed
  rw [Transmission.dispatched_filter hN hsent htyped le_rfl, List.filter_map, List.map_map]
  rfl

/-- What the stream takes out of them. -/
lemma filterMap_accepted {rx : RxStream} (hrx : rx.Named config box.streamType box.name)
    {entries : List (Entry α)} (h : ∀ e ∈ entries, box.Lawful N config e) :
    (((entries.filter fun e =>
            config.getIdentifierTopic e.transmission.tx.streamIdentifier ≠ "").map
          fun e => e.transmission.interpreted config).filterMap (accepted rx))
      = (entries.filter (box.Takes config ·)).map (·.transmission.body) := by
  induction entries with
  | nil => rfl
  | cons e entries ih =>
    obtain ⟨he, hentries⟩ := List.forall_mem_cons.mp h
    have haccepted : accepted rx (e.transmission.interpreted config)
        = if box.Takes config e then some e.transmission.body else none := by
      rw [Transmission.accepted_interpreted]
      simp only [matches_iff hrx]
    by_cases htakes : box.Takes config e
    · simp [he.name_ne htakes, htakes, haccepted, ← ih hentries]
    · by_cases hname : config.getIdentifierTopic e.transmission.tx.streamIdentifier = ""
      · simp [hname, htakes, ← ih hentries]
      · simp [hname, htakes, haccepted, ← ih hentries]

/-- `interpret_packets` on a queue of lawful packets empties it, and pushes to every stream what
it takes. -/
lemma interpretPackets_lawful (hN : N.Lawful) {entries : List (Entry α)}
    (h : ∀ e ∈ entries, box.Lawful N config e) {streams streams' : List RxStream}
    {rest : List Packet}
    (hinterpret : interpretPackets N config maxPacketLength (entries.map Entry.packet) streams
      = .ok (streams', rest)) :
    rest = [] ∧ ∀ (k : ℕ) (rx : RxStream), streams[k]? = some rx →
      rx.Named config box.streamType box.name →
      streams'[k]? = some (rx.pushAll
        ((entries.filter (box.Takes config ·)).map (·.transmission.body))) := by
  rw [interpretPackets_eq, dispatched_lawful hN h] at hinterpret
  obtain ⟨rfl, rfl⟩ := Prod.mk.inj (Except.ok.inj hinterpret)
  refine ⟨rfl, fun k rx hrx hnamed => ?_⟩
  rw [List.getElem?_map, hrx, Option.map_some, filterMap_accepted hnamed h]

namespace Receives

variable {lossless : Prop} {dispatched read held : List (Entry α)} {rx rx' : RxStream}

lemma start : box.Receives N config lossless ([] : List (Entry α)) (box.stream config) [] [] where
  named := ⟨rfl, rfl⟩
  length_le := Nat.zero_le _
  iterator _ := rfl
  held_eq := rfl
  lawful := nofun
  delivered := List.nil_sublist _
  delivered_eq _ := rfl

/-- The entries that the stream holds. -/
lemma of_mem_held (h : box.Receives N config lossless dispatched rx read held) {e : Entry α}
    (he : e ∈ held) : e ∈ dispatched ∧ box.Takes config e := by
  have hmem := h.delivered.subset (List.mem_append_right read he)
  exact ⟨(List.mem_filter.mp hmem).1, of_decide_eq_true (List.mem_filter.mp hmem).2⟩

/-- More packets are dispatched. -/
lemma dispatch (h : box.Receives N config lossless dispatched rx read held) {new : List (Entry α)}
    (hnew : ∀ e ∈ new, box.Lawful N config e)
    (hroom : lossless → rx.receivedPackets.length + (new.filter (box.Takes config ·)).length
      ≤ maxBufferCapacity) :
    ∃ held', box.Receives N config lossless (dispatched ++ new)
      (rx.pushAll ((new.filter (box.Takes config ·)).map (·.transmission.body))) read held' := by
  have hlawful : ∀ e ∈ dispatched ++ new, box.Lawful N config e := by
    intro e he
    rcases List.mem_append.mp he with he | he
    · exact h.lawful e he
    · exact hnew e he
  obtain ⟨kept, hkept, hsub, hall⟩ := RxStream.held_pushAll h.length_le
    ((new.filter (box.Takes config ·)).map (·.transmission.body))
  rw [h.held_eq, ← List.map_append] at hsub hall
  rw [List.length_map] at hall
  have hreceives : ∀ held', held'.Sublist (held ++ new.filter (box.Takes config ·)) →
      (rx.pushAll ((new.filter (box.Takes config ·)).map (·.transmission.body))).held
        = held'.map (·.transmission.body) →
      (lossless → held' = held ++ new.filter (box.Takes config ·)) →
      box.Receives N config lossless (dispatched ++ new)
        (rx.pushAll ((new.filter (box.Takes config ·)).map (·.transmission.body))) read held' := by
    intro held' hsublist hheld heq
    rw [RxStream.pushAll_eq h.length_le] at hheld ⊢
    refine ⟨h.named, ?_, h.iterator, hheld, hlawful, ?_, fun hlossless => ?_⟩
    · simp only [List.rtake, List.length_drop]
      omega
    · rw [List.filter_append]
      refine ((List.append_sublist_append_left read).mpr hsublist).trans ?_
      rw [← List.append_assoc]
      exact h.delivered.append_right _
    · rw [heq hlossless, ← List.append_assoc, h.delivered_eq hlossless, List.filter_append]
  by_cases hfit : rx.receivedPackets.length + (new.filter (box.Takes config ·)).length
      ≤ maxBufferCapacity
  · exact ⟨_, hreceives _ (List.Sublist.refl _) (hkept.trans (hall hfit)) fun _ => rfl⟩
  · obtain ⟨held', hheld', rfl⟩ := List.sublist_map_iff.mp hsub
    exact ⟨held', hreceives held' hheld' hkept fun hlossless => absurd (hroom hlossless) hfit⟩

/-- `data_available` brings the next entry into the buffer. -/
lemma dataAvailable (h : box.Receives N config lossless dispatched rx read held)
    {available : Bool} (havailable : rx.dataAvailable 0 = .ok (available, rx')) :
    box.Receives N config lossless dispatched rx' read held ∧ (available = true →
      ∃ e rest, held = e :: rest ∧ rx'.bufferedPacket = e.transmission.body) := by
  have hne : ∀ e ∈ held, e.transmission.body ≠ [] := by
    intro e he
    obtain ⟨hmem, htakes⟩ := h.of_mem_held he
    exact (h.lawful e hmem).body_ne htakes
  have hheld := h.held_eq
  unfold RxStream.dataAvailable at havailable
  by_cases hbuffer : rx.bufferedPacket = []
  · rw [RxStream.held, if_pos hbuffer, List.nil_append] at hheld
    simp only [hbuffer, ne_eq, not_true_eq_false, if_false] at havailable
    cases hqueue : rx.receivedPackets with
    | nil =>
      rw [hqueue] at havailable
      obtain ⟨rfl, rfl⟩ := Prod.mk.inj (Except.ok.inj havailable)
      exact ⟨h, nofun⟩
    | cons packet queue =>
      rw [hqueue] at havailable hheld
      obtain ⟨rfl, rfl⟩ := Prod.mk.inj (Except.ok.inj havailable)
      obtain ⟨e, rest, rfl, rfl, rfl⟩ := List.map_eq_cons_iff.mp hheld.symm
      have hpacket := hne e List.mem_cons_self
      refine ⟨⟨h.named, ?_, fun _ => rfl, ?_, h.lawful, h.delivered, h.delivered_eq⟩,
        fun _ => ⟨e, rest, rfl, rfl⟩⟩
      · have hle := h.length_le
        rw [hqueue, List.length_cons] at hle
        exact (Nat.le_succ _).trans hle
      · rw [RxStream.held, if_neg hpacket]
        rfl
  · rw [RxStream.held, if_neg hbuffer] at hheld
    rw [if_pos hbuffer] at havailable
    obtain ⟨rfl, rfl⟩ := Prod.mk.inj (Except.ok.inj havailable)
    obtain ⟨e, rest, rfl, hpacket, -⟩ := List.map_eq_cons_iff.mp hheld.symm
    exact ⟨h, fun _ => ⟨e, rest, rfl, hpacket.symm⟩⟩

/-- The entity reads the entry in the buffer. -/
lemma readFront {e : Entry α} {rest : List (Entry α)}
    (h : box.Receives N config lossless dispatched rx read (e :: rest))
    (hbuffer : rx.bufferedPacket = e.transmission.body) (hempty : rx'.bufferedPacket = [])
    (hqueue : rx'.receivedPackets = rx.receivedPackets) (htype : rx'.streamType = rx.streamType)
    (hidentifier : rx'.streamIdentifier = rx.streamIdentifier) :
    box.Receives N config lossless dispatched rx' (read ++ [e]) rest := by
  have hne : rx.bufferedPacket ≠ [] := by
    obtain ⟨hmem, htakes⟩ := h.of_mem_held List.mem_cons_self
    rw [hbuffer]
    exact (h.lawful e hmem).body_ne htakes
  have hheld := h.held_eq
  rw [RxStream.held, if_neg hne, List.map_cons] at hheld
  have hsame : (read ++ [e]) ++ rest = read ++ e :: rest := by
    rw [List.append_assoc]
    rfl
  refine ⟨⟨htype.trans h.named.1, hidentifier.trans h.named.2⟩, ?_, fun h => absurd hempty h, ?_,
    h.lawful, ?_, fun hlossless => ?_⟩
  · rw [hqueue]
    exact h.length_le
  · rw [RxStream.held, if_pos hempty, hqueue]
    exact (List.cons.inj hheld).2
  · rw [hsame]
    exact h.delivered
  · rw [hsame]
    exact h.delivered_eq hlossless

end Receives

end Mailbox

/-! ## The messages in the packets -/

/-- A message of any type. -/
abbrev AnyMsg := (M : MessageMembers) × Msg M

/-- The message with every `double` taken through single precision. -/
def AnyMsg.rounded (message : AnyMsg) : AnyMsg := ⟨message.1, Msg.rounded message.1 message.2⟩

namespace MessageSerialization

/-- The members that a language streams as they are. -/
def Language.Domain : Language → MemberCondition
  | .c => fun t k x => WellFormed t k x ∧ NulFree t k x
  | .cpp => WellFormed

/-- The members that a language takes back. -/
def Language.Readable : Language → MemberCondition
  | .c => fun _ _ _ => True
  | .cpp => BoolSequenceEmpty

lemma Language.fieldLaw : (language : Language) →
    FieldLaw language.typeSupport language.Domain language.Readable
  | .c => c_fieldLaw
  | .cpp => cpp_fieldLaw

/-- A message is read from its fields, if anything is read. -/
lemma Language.deserialize_eq (language : Language) {initial : (M : MessageMembers) → Msg M}
    {M : MessageMembers} {msg dest m : Msg M} {fields : List Field} {rx rx' : RxStream}
    (hpopulated : M.Populated) (hoctet : M.OctetFree) (hdomain : Msg.Forall language.Domain M msg)
    (hser : serialize language.typeSupport M msg = .ok fields) (hlen : fields.length < 2 ^ 32)
    (hpending : Reader.Cursor.pending rx = fields)
    (hdes : deserialize language.typeSupport initial M dest rx = .ok (m, rx')) :
    m = Msg.rounded M msg := by
  have hreads := reads_deserialize language.fieldLaw initial M msg dest hpopulated hoctet hdomain
    hser hlen
  rw [← List.append_nil fields] at hpending
  by_cases hgood : Msg.Forall language.Readable M msg
  · exact ((Prod.mk.inj (Except.ok.inj (((hreads _ _ hpending).1 hgood).symm.trans hdes))).1).symm
  · obtain ⟨failure, hfail⟩ := (hreads _ _ hpending).2 hgood
    rw [hfail] at hdes
    cases hdes

end MessageSerialization

/-- A packet has room for no more fields. -/
lemma Transmission.Enqueues.length_fields_lt {N : NanoCbor} (hN : N.Lawful) {t : Transmission}
    {packet : Packet} (h : t.Enqueues N packet) : t.fields.length < 2 ^ 32 := by
  obtain ⟨-, hfit, -, hcount⟩ := packet_of_transmit hN h.1 h.2
  rw [List.length_append] at hcount
  have hmax : maxPacketLength = 512 := rfl
  omega

end RmwDesert
