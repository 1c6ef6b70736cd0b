/-
Readiness (`has_data`, as `rmw_wait` and the `rmw_take` functions call it).

`rmw_wait` reports an entity as ready if `has_data` returns true, and the take that follows
calls `has_data` once more before it reads.  The buffer of a stream counts as occupied if the
buffered packet has a field, so that a packet without fields is reported and then forgotten.
The queue behind the buffer is bounded, so that a packet that arrives at a full queue drops the
oldest one.
The main results are

* `readiness_stable_iff`: in which runs what was reported is what the next take reads;
* `serialize_eq_nil_iff`: which messages travel in a packet without fields.
-/
import RmwDesert.Entities
import RmwDesert.ClientPolls

namespace RmwDesert

open MessageSerialization

namespace DesertSubscriber

/-- `has_data`, after `interpret_packets` has delivered what arrived. -/
def hasData (s : DesertSubscriber) : Except Failure (Bool × DesertSubscriber) := do
  let (available, rx) ← s.dataStream.dataAvailable 0
  return (available, { s with dataStream := rx })

/-- `read_data`. -/
def readData (initial : (M : MessageMembers) → Msg M) {M : MessageMembers} (msg : Msg M)
    (s : DesertSubscriber) : Except Failure (Msg M × DesertSubscriber) := do
  let (msg, rx) ← deserialize s.language.typeSupport initial M msg s.dataStream
  return (msg, { s with dataStream := rx.clearBuffer })

end DesertSubscriber

/-! ## Entities that are waited for -/

/-- The entities that `rmw_wait` polls. -/
inductive Recipient
  | subscriber (s : DesertSubscriber)
  | client (c : DesertClient)
  | service (c : DesertService)

namespace Recipient

/-- The stream on which packets arrive. -/
def stream : Recipient → RxStream
  | subscriber s => s.dataStream
  | client c => c.responseDataStream
  | service c => c.requestDataStream

/-- The arrival of a packet. -/
def pushPacket (packet : Fields) : Recipient → Recipient
  | subscriber s => .subscriber { s with dataStream := s.dataStream.pushPacket packet }
  | client c => .client { c with responseDataStream := c.responseDataStream.pushPacket packet }
  | service c => .service { c with requestDataStream := c.requestDataStream.pushPacket packet }

/-- The id that `has_data` passes to `data_available`. -/
def filter : Recipient → Int64
  | subscriber _ | service _ => 0
  | client c => c.sequenceId

/-- `has_data`. -/
def hasData : Recipient → Except Failure (Bool × Recipient)
  | subscriber s => do
    let (available, s) ← s.hasData
    return (available, .subscriber s)
  | client c => do
    let (available, c) ← c.hasData
    return (available, .client c)
  | service c => do
    let (available, c) ← c.hasData
    return (available, .service c)

/-- `read_data`, `read_response` and `read_request`: the entity afterwards. -/
def read (initial : (M : MessageMembers) → Msg M) {M : MessageMembers} (dest : Msg M) :
    Recipient → Except Failure Recipient
  | subscriber s => do
    let (_, s) ← s.readData initial dest
    return .subscriber s
  | client c => do
    let (_, c) ← c.readResponse initial dest
    return .client c
  | service c => do
    let (_, c) ← c.readRequest initial dest
    return .service c

/-- `send_request` on a client. -/
def sendRequest (N : NanoCbor) {M : MessageMembers} (req : Msg M) (sequenceId : Int64) :
    Recipient → Recipient
  | subscriber s => .subscriber s
  | client c => .client (c.sendRequest N req sequenceId).2
  | service c => .service c

@[simp] lemma stream_pushPacket (packet : Fields) (r : Recipient) :
    (r.pushPacket packet).stream = r.stream.pushPacket packet := by
  cases r <;> rfl

@[simp] lemma stream_sendRequest (N : NanoCbor) {M : MessageMembers} (req : Msg M)
    (sequenceId : Int64) (r : Recipient) : (r.sendRequest N req sequenceId).stream = r.stream := by
  cases r with
  | client c =>
    show (c.sendRequest N req sequenceId).2.responseDataStream = c.responseDataStream
    unfold DesertClient.sendRequest
    split_ifs <;> rfl
  | subscriber _ | service _ => rfl

/-- `has_data` is `data_available` on the stream. -/
lemma hasData_eq_ok {r r' : Recipient} {available : Bool} (h : r.hasData = .ok (available, r')) :
    r.stream.dataAvailable r.filter = .ok (available, r'.stream) := by
  cases r with
  | subscriber s =>
    obtain ⟨⟨b, s'⟩, hs, h⟩ := Transition.bind_eq_ok.mp h
    obtain ⟨⟨b', rx⟩, hrx, hs⟩ := Transition.bind_eq_ok.mp hs
    obtain ⟨rfl, rfl⟩ := Prod.mk.inj (Except.ok.inj hs)
    obtain ⟨rfl, rfl⟩ := Prod.mk.inj (Except.ok.inj h)
    exact hrx
  | client c =>
    obtain ⟨⟨b, c'⟩, hc, h⟩ := Transition.bind_eq_ok.mp h
    obtain ⟨rx, hrx, rfl⟩ := DesertClient.hasData_eq_ok_iff.mp hc
    obtain ⟨rfl, rfl⟩ := Prod.mk.inj (Except.ok.inj h)
    exact hrx
  | service c =>
    obtain ⟨⟨b, c'⟩, hc, h⟩ := Transition.bind_eq_ok.mp h
    obtain ⟨⟨b', rx⟩, hrx, hc⟩ := Transition.bind_eq_ok.mp hc
    obtain ⟨rfl, rfl⟩ := Prod.mk.inj (Except.ok.inj hc)
    obtain ⟨rfl, rfl⟩ := Prod.mk.inj (Except.ok.inj h)
    exact hrx

lemma hasData_of_dataAvailable {r : Recipient} {available : Bool} {rx : RxStream}
    (h : r.stream.dataAvailable r.filter = .ok (available, rx)) :
    ∃ r', r.hasData = .ok (available, r') ∧ r'.stream = rx := by
  cases r with
  | subscriber s =>
    have hrx : s.dataStream.dataAvailable 0 = .ok (available, rx) := h
    refine ⟨.subscriber { s with dataStream := rx }, ?_, rfl⟩
    rw [hasData, DesertSubscriber.hasData, hrx]
    rfl
  | client c =>
    refine ⟨.client { c with responseDataStream := rx }, ?_, rfl⟩
    rw [hasData, DesertClient.hasData_eq_ok_iff.mpr ⟨rx, h, rfl⟩]
    rfl
  | service c =>
    have hrx : c.requestDataStream.dataAvailable 0 = .ok (available, rx) := h
    refine ⟨.service { c with requestDataStream := rx }, ?_, rfl⟩
    rw [hasData, DesertService.hasData, hrx]
    rfl

/-- A read takes nothing from the queue. -/
lemma receivedPackets_read {initial : (M : MessageMembers) → Msg M} {M : MessageMembers}
    {dest : Msg M} {r r' : Recipient} (h : r.read initial dest = .ok r') :
    r'.stream.receivedPackets = r.stream.receivedPackets := by
  cases r with
  | subscriber s =>
    obtain ⟨⟨msg, s'⟩, hread, h⟩ := Transition.bind_eq_ok.mp h
    obtain ⟨⟨msg', rx⟩, hrx, hread⟩ := Transition.bind_eq_ok.mp hread
    obtain ⟨n, rfl⟩ := advances_deserialize s.language initial M dest _ _ _ hrx
    obtain ⟨-, rfl⟩ := Prod.mk.inj (Except.ok.inj hread)
    obtain rfl := Except.ok.inj h
    rfl
  | client c =>
    obtain ⟨⟨⟨n, msg⟩, c'⟩, hread, h⟩ := Transition.bind_eq_ok.mp h
    obtain rfl := Except.ok.inj h
    exact (DesertClient.readResponse_ok hread).2.2.2.1
  | service c =>
    obtain ⟨⟨⟨n, msg⟩, c'⟩, hread, h⟩ := Transition.bind_eq_ok.mp h
    obtain rfl := Except.ok.inj h
    exact (DesertService.readRequest_ok hread).2.2.2.2.2.1

end Recipient

/-! ## Runs -/

/-- An entity, and the buffered packet and iterator with which it was last reported as ready,
if nothing was read since. -/
structure Waited where
  recipient : Recipient
  reported : Option (Fields × ℕ)

namespace Waited

/-- The arrivals and the calls of the middleware. -/
inductive Event
  /-- `push_packet`, by `interpret_packets`. -/
  | arrive (packet : Fields)
  /-- `has_data`, by `rmw_wait`. -/
  | wait
  /-- `rmw_take`, `rmw_take_response` and `rmw_take_request`, into a message. -/
  | take {M : MessageMembers} (dest : Msg M)
  /-- `send_request`. -/
  | sendRequest {M : MessageMembers} (req : Msg M) (sequenceId : Int64)

/-- The buffered packet and the iterator. -/
def front (s : Waited) : Fields × ℕ :=
  (s.recipient.stream.bufferedPacket, s.recipient.stream.bufferedIterator)

/-- One event. -/
def step (N : NanoCbor) (initial : (M : MessageMembers) → Msg M) (s : Waited) :
    Event → Except Failure Waited
  | .arrive packet => .ok { s with recipient := s.recipient.pushPacket packet }
  | .wait => do
    let (available, recipient) ← s.recipient.hasData
    return ⟨recipient, if available then
      some (recipient.stream.bufferedPacket, recipient.stream.bufferedIterator) else none⟩
  | .take dest => do
    let (available, recipient) ← s.recipient.hasData
    if available then return ⟨← recipient.read initial dest, none⟩
    else return ⟨recipient, none⟩
  | .sendRequest req sequenceId =>
    .ok { s with recipient := s.recipient.sendRequest N req sequenceId }

/-- After a report, `has_data` returns true, with the packet that was reported in the buffer
and the queue as it was, and a packet that arrives is added to those in the queue. -/
def StaysReady (s : Waited) : Event → Prop
  | .wait | .take _ => ∀ front ∈ s.reported, ∃ recipient,
    s.recipient.hasData = .ok (true, recipient) ∧ recipient.stream = s.recipient.stream ∧
      s.front = front
  | .arrive packet => s.reported.isSome → (s.recipient.pushPacket packet).stream.receivedPackets =
      s.recipient.stream.receivedPackets ++ [packet]
  | .sendRequest _ _ => True

/-- The queue of the stream is not full. -/
def Room (s : Waited) : Prop := s.recipient.stream.receivedPackets.length ≠ maxBufferCapacity

/-- The packet that was reported has a field, and no packet arrives at a full queue before it is
read. -/
def FieldAndRoom (s : Waited) : Event → Prop
  | .wait | .take _ => ∀ front ∈ s.reported, front.1 ≠ []
  | .arrive _ => s.reported.isSome → s.Room
  | .sendRequest _ _ => True

/-! ### What was reported is still in front -/

/-- What was reported is in the buffer. -/
def Inv (s : Waited) : Prop := ∀ front ∈ s.reported, s.front = front

section

variable {N : NanoCbor} {initial : (M : MessageMembers) → Msg M}

lemma Inv.step {s t : Waited} {event : Event} (hs : s.Inv) (h : s.step N initial event = .ok t) :
    t.Inv := by
  cases event with
  | arrive packet =>
    obtain rfl := Except.ok.inj h
    intro front hfront
    rw [← hs front hfront]
    simp only [Waited.front, Recipient.stream_pushPacket]
    rfl
  | wait =>
    obtain ⟨⟨available, recipient⟩, -, h⟩ := Transition.bind_eq_ok.mp h
    obtain rfl := Except.ok.inj h
    intro front hfront
    cases available with
    | true => exact Option.some.inj hfront
    | false => cases hfront
  | take dest =>
    obtain ⟨⟨available, recipient⟩, -, h⟩ := Transition.bind_eq_ok.mp h
    intro front hfront
    cases available with
    | true =>
      obtain ⟨r, -, h⟩ := Transition.bind_eq_ok.mp h
      obtain rfl := Except.ok.inj h
      cases hfront
    | false =>
      obtain rfl := Except.ok.inj h
      cases hfront
  | sendRequest req sequenceId =>
    obtain rfl := Except.ok.inj h
    intro front hfront
    rw [← hs front hfront]
    simp only [Waited.front, Recipient.stream_sendRequest]

/-- A report is kept exactly if the packet has a field: a buffered packet without fields is
replaced by the next one, or the poll returns false. -/
lemma keeps_iff {s : Waited} (hs : s.Inv) :
    (∀ front ∈ s.reported, ∃ recipient, s.recipient.hasData = .ok (true, recipient) ∧
        recipient.stream = s.recipient.stream ∧ s.front = front) ↔
      ∀ front ∈ s.reported, front.1 ≠ [] := by
  refine forall₂_congr fun front hfront => ?_
  have hfirst := hs front hfront
  have hbuffer : front.1 = s.recipient.stream.bufferedPacket := by rw [← hfirst]; rfl
  constructor
  · rintro ⟨recipient, hdata, hsame, -⟩ hnil
    have hrun := Recipient.hasData_eq_ok hdata
    rw [hsame] at hrun
    exact RxStream.dataAvailable_ne_self (hbuffer.symm.trans hnil) hrun
  · intro hne
    rw [hbuffer] at hne
    obtain ⟨recipient, hdata, hsame⟩ :=
      Recipient.hasData_of_dataAvailable (RxStream.dataAvailable_of_ne_nil hne)
    exact ⟨recipient, hdata, hsame, hfirst⟩

lemma staysReady_iff {s : Waited} (hs : s.Inv) (event : Event) :
    s.StaysReady event ↔ s.FieldAndRoom event := by
  cases event with
  | wait | take dest => exact keeps_iff hs
  | arrive packet =>
    refine imp_congr_right fun _ => ?_
    rw [Recipient.stream_pushPacket]
    exact CircularQueue.push_eq_append_iff
  | sendRequest req sequenceId => exact Iff.rfl

/-- **Readiness is stable until read.**  In a run from an entity that is not reported, a report
is kept by every later poll up to the read, and nothing that arrives in between drops a packet,
exactly when no poll follows the report of a packet without fields and no packet arrives at a
full queue while a report stands. -/
theorem readiness_stable_iff (recipient : Recipient) (events : List Event) :
    Transition.EveryStep (Waited.step N initial) StaysReady ⟨recipient, none⟩ events ↔
      Transition.EveryStep (Waited.step N initial) FieldAndRoom ⟨recipient, none⟩ events := by
  have hstart : Inv ⟨recipient, none⟩ := by
    intro front hfront
    cases hfront
  exact Transition.everyStep_iff (I := Inv) (D := fun _ _ => True) (fun hs _ _ h => hs.step h)
    (fun hs _ => staysReady_iff hs _) hstart (Transition.everyStep_of_forall fun _ _ _ => trivial)

/-! ### Packets with fields -/

/-- No packet without fields is queued or was reported. -/
structure Filled (s : Waited) : Prop where
  queue : ∀ p ∈ s.recipient.stream.receivedPackets, p ≠ []
  reported : ∀ front ∈ s.reported, front.1 ≠ []

/-- A packet that arrives has a field, and finds room if a report stands. -/
def FilledArrival (s : Waited) : Event → Prop
  | .arrive packet => packet ≠ [] ∧ (s.reported.isSome → s.Room)
  | .wait | .take _ | .sendRequest _ _ => True

lemma Filled.hasData {s : Waited} (hs : s.Filled) {available : Bool} {recipient : Recipient}
    (h : s.recipient.hasData = .ok (available, recipient)) :
    (∀ p ∈ recipient.stream.receivedPackets, p ≠ []) ∧
      (available = true → recipient.stream.bufferedPacket ≠ []) := by
  have hrun := Recipient.hasData_eq_ok h
  have hqueue := (RxStream.dataAvailable_ok hrun).receivedPackets
  refine ⟨fun p hp => hs.queue p (hqueue p hp), ?_⟩
  rintro rfl
  exact RxStream.bufferedPacket_ne_nil hs.queue hrun

lemma Filled.step {s t : Waited} {event : Event} (hs : s.Filled) (hevent : s.FilledArrival event)
    (h : s.step N initial event = .ok t) : t.Filled := by
  cases event with
  | arrive packet =>
    obtain rfl := Except.ok.inj h
    refine ⟨fun p hp => ?_, hs.reported⟩
    rw [Recipient.stream_pushPacket] at hp
    rcases CircularQueue.mem_push hp with hp | rfl
    · exact hs.queue p hp
    · exact hevent.1
  | wait =>
    obtain ⟨⟨available, recipient⟩, hdata, h⟩ := Transition.bind_eq_ok.mp h
    obtain rfl := Except.ok.inj h
    obtain ⟨hqueue, hbuffer⟩ := hs.hasData hdata
    refine ⟨hqueue, fun front hfront => ?_⟩
    cases available with
    | true =>
      obtain rfl := Option.some.inj hfront
      exact hbuffer rfl
    | false => cases hfront
  | take dest =>
    obtain ⟨⟨available, recipient⟩, hdata, h⟩ := Transition.bind_eq_ok.mp h
    have hqueue := (hs.hasData hdata).1
    cases available with
    | true =>
      obtain ⟨r, hread, h⟩ := Transition.bind_eq_ok.mp h
      obtain rfl := Except.ok.inj h
      refine ⟨fun p hp => hqueue p ?_, fun front hfront => by cases hfront⟩
      rwa [Recipient.receivedPackets_read hread] at hp
    | false =>
      obtain rfl := Except.ok.inj h
      exact ⟨hqueue, fun front hfront => by cases hfront⟩
  | sendRequest req sequenceId =>
    obtain rfl := Except.ok.inj h
    refine ⟨fun p hp => hs.queue p ?_, hs.reported⟩
    rwa [Recipient.stream_sendRequest] at hp

/-- When every packet that arrives has a field and finds room, every report is kept. -/
theorem readiness_of_filled {s : Waited} (hinv : s.Inv) (hs : s.Filled) {events : List Event}
    (h : Transition.EveryStep (Waited.step N initial) FilledArrival s events) :
    Transition.EveryStep (Waited.step N initial) StaysReady s events := by
  refine Transition.everyStep_of_invariant (I := fun s => s.Inv ∧ s.Filled) (D := FilledArrival)
    (fun hs hevent hstep => ⟨hs.1.step hstep, hs.2.step hevent hstep⟩)
    (fun {s event} hs hevent => ?_) ⟨hinv, hs⟩ h
  refine (staysReady_iff hs.1 _).mpr ?_
  cases event with
  | wait | take dest => exact hs.2.reported
  | arrive packet => exact hevent.2
  | sendRequest req sequenceId => trivial

end

end Waited

/-! ## Messages without fields -/

/-- Every message of the type streams something: a member of a streamed type, or the length of
a sequence.  A type without a case is never serialized. -/
def MessageMembers.HasStreamed : MessageMembers → Prop
  | .nil => False
  | .field _ (.streamed _) _ | .field _ .longDouble _ | .field _ .wchar _ => True
  | .field _ .octet rest => rest.HasStreamed
  | .message flags sub rest =>
    (∃ bound, flags.kind = .sequence bound) ∨ sub.HasStreamed ∨ rest.HasStreamed

lemma lengthFields_of_ne {k : Kind} (hk : ∀ bound, k ≠ .sequence bound) (n : ℕ) :
    lengthFields k n = [] := by
  cases k with
  | scalar | fixed size hsize => rfl
  | sequence bound => exact absurd rfl (hk bound)

/-- **Messages without fields.**  A message travels in a packet without fields exactly when its
type streams nothing, as one does whose members are all octets. -/
theorem serialize_eq_nil_iff {ts : TypeSupport} {Domain Readable : MemberCondition}
    (law : FieldLaw ts Domain Readable) : ∀ (M : MessageMembers) (msg : Msg M) {fields : Fields},
    serialize ts M msg = .ok fields → (fields = [] ↔ ¬ M.HasStreamed)
  | .nil, _, _, h => by
    obtain rfl := Except.ok.inj h
    exact iff_of_true rfl id
  | .field flags (.streamed t) rest, (x, msg), fields, h => by
    obtain ⟨others, -, h⟩ := Transition.bind_eq_ok.mp h
    obtain rfl : ts.serializeField t flags.kind x ++ others = fields := Except.ok.inj h
    have hne := law.ne_nil t flags.kind x
    exact iff_of_false (List.append_ne_nil_of_left_ne_nil hne _) (not_not_intro trivial)
  | .field _ .octet rest, (_, msg), _, h => serialize_eq_nil_iff law rest msg h
  | .field _ .longDouble _, _, _, h | .field _ .wchar _, _, _, h => by cases h
  | .message flags sub rest, (xs, msg), fields, h => by
    obtain ⟨first, hfirst, h⟩ := Transition.bind_eq_ok.mp h
    obtain ⟨others, hothers, h⟩ := Transition.bind_eq_ok.mp h
    obtain rfl : first ++ others = fields := Except.ok.inj h
    have hrest := serialize_eq_nil_iff law rest msg hothers
    obtain ⟨hok, rfl⟩ := serializeMessages_ok hfirst
    have hsub : ∀ x ∈ flags.kind.items xs,
        (written (serialize ts sub) x = [] ↔ ¬ sub.HasStreamed) :=
      fun x hx => serialize_eq_nil_iff law sub x (hok x hx)
    rw [List.append_eq_nil_iff, hrest, MessageMembers.HasStreamed, not_or, not_or, ← and_assoc]
    refine and_congr_left fun _ => ?_
    by_cases hsequence : ∃ bound, flags.kind = .sequence bound
    · obtain ⟨bound, hkind⟩ := hsequence
      simp [hkind, lengthFields]
    · -- a single message or a positive number of them, without a length
      have hkind : ∀ bound, flags.kind ≠ .sequence bound := fun b hb => hsequence ⟨b, hb⟩
      rw [lengthFields_of_ne hkind, List.nil_append, List.flatMap_eq_nil_iff,
        and_iff_right hsequence]
      obtain ⟨x, hx⟩ := List.exists_mem_of_ne_nil _
        (Kind.items_ne_nil hkind xs)
      exact ⟨fun hall => (hsub x hx).mp (hall x hx), fun hnot y hy => (hsub y hy).mpr hnot⟩

namespace Waited

/-- The members of a message with one octet. -/
def oneOctet : MessageMembers := .field ⟨false, 0, false⟩ .octet .nil

/-- A subscriber of octets. -/
def octetSubscriber : Waited :=
  ⟨.subscriber ⟨1, ⟨subscriberType, 1, 0, [], []⟩, .cpp⟩, none⟩

/-- A message with one octet is reported, and the take that follows finds nothing. -/
theorem octet_is_lost :
    serialize cpp oneOctet ((7 : UInt8), ()) = .ok [] ∧
      (∃ t, Transition.run (Waited.step NanoCbor.rfc8949 Msg.zero) octetSubscriber
          [.arrive [], .wait] = .ok t ∧ t.reported = some ([], 0) ∧
        ∃ r, t.recipient.hasData = .ok (false, r)) ∧
      ¬ Transition.EveryStep (Waited.step NanoCbor.rfc8949 Msg.zero) StaysReady octetSubscriber
        [.arrive [], .wait, .take (Msg.zero oneOctet)] := by
  refine ⟨rfl, ⟨_, rfl, rfl, _, rfl⟩, ?_⟩
  rintro ⟨-, harrived⟩
  obtain ⟨-, hwaited⟩ := harrived _ rfl
  obtain ⟨r, hdata, -⟩ := (hwaited _ rfl).1 _ rfl
  cases hdata

end Waited
end RmwDesert
