/-
The client of a service (`DesertClient.cpp`).

A client keeps the sequence id of its last request; `has_data` looks for a response with
that id among the received packets, and `read_response` reports it.  The main result,
`response_correlation`, says under which conditions on the order of requests, arrivals and
polls the report is right and no response is lost.
-/
import RmwDesert.InterpretPackets
import RmwDesert.Lib.Transition
import RmwDesert.MessageSerialization
import RmwDesert.ResponseSearch

namespace RmwDesert

open MessageSerialization RxStream

/-- A `DesertClient`. -/
structure DesertClient where
  /-- `_id`. -/
  id : UInt8
  /-- `_request_data_stream`. -/
  requestDataStream : TxStream
  /-- `_response_data_stream`. -/
  responseDataStream : RxStream
  /-- `_sequence_id`, which the constructor leaves uninitialised. -/
  sequenceId : Int64
  /-- `_c_cpp_identifier`. -/
  language : Language

namespace DesertClient

/-- `has_data`, after `interpret_packets` has delivered what arrived. -/
def hasData (c : DesertClient) : Except Failure (Bool × DesertClient) := do
  let (available, rx) ← c.responseDataStream.dataAvailable c.sequenceId
  return (available, { c with responseDataStream := rx })

/-- `send_request`: the packet that is enqueued, if any.  A transmission starts afresh, so
the request stream keeps no state of it. -/
def sendRequest (N : NanoCbor) {M : MessageMembers} (req : Msg M) (sequenceId : Int64)
    (c : DesertClient) : Except Failure (Option Packet) × DesertClient :=
  if c.id = 0 then (.ok none, c)
  else
    ((serialize c.language.typeSupport M req).map
        (c.requestDataStream.transmit N (some sequenceId.toUInt64)),
      { c with sequenceId := sequenceId })

/-- What `send_request` enqueues. -/
lemma sendRequest_ok {N : NanoCbor} {M : MessageMembers} {req : Msg M} {sequenceId : Int64}
    {c : DesertClient} {packet : Packet}
    (h : (c.sendRequest N req sequenceId).1 = .ok (some packet)) :
    c.id ≠ 0 ∧ ∃ fields, serialize c.language.typeSupport M req = .ok fields ∧
      c.requestDataStream.transmit N (some sequenceId.toUInt64) fields = some packet := by
  rw [sendRequest] at h
  split_ifs at h with hid
  · cases h
  · cases hser : serialize c.language.typeSupport M req with
    | error e =>
      rw [hser] at h
      cases h
    | ok fields =>
      rw [hser] at h
      exact ⟨hid, fields, rfl, Except.ok.inj h⟩

/-- `read_response`: the `sequence_number` of the header and the response. -/
def readResponse (initial : (M : MessageMembers) → Msg M) {M : MessageMembers} (res : Msg M)
    (c : DesertClient) : Except Failure ((Int64 × Msg M) × DesertClient) := do
  let (res, rx) ← deserialize c.language.typeSupport initial M res c.responseDataStream
  return ((c.sequenceId, res), { c with responseDataStream := rx.clearBuffer })

/-- `has_data`, and a read if it returns true. -/
def take (c : DesertClient) : Except Failure DesertClient := do
  let (available, c) ← c.hasData
  if available then
    return { c with responseDataStream := c.responseDataStream.clearBuffer }
  else return c

/-- A number of takes. -/
def takes : ℕ → DesertClient → Except Failure DesertClient
  | 0, c => .ok c
  | n + 1, c => c.take >>= takes n

/-- After some takes, `has_data` returns true for the packet. -/
def Deliverable (packet : Fields) (c : DesertClient) : Prop :=
  ∃ n c₁ c₂, takes n c = .ok c₁ ∧ c₁.hasData = .ok (true, c₂) ∧
    c₂.responseDataStream.bufferedPacket = packet

lemma Deliverable.of_take {packet : Fields} {c c' : DesertClient} (h : c.take = .ok c')
    (hc' : c'.Deliverable packet) : c.Deliverable packet := by
  obtain ⟨n, c₁, c₂, htakes, hdata, hpacket⟩ := hc'
  refine ⟨n + 1, c₁, c₂, ?_, hdata, hpacket⟩
  rw [takes, h]
  exact htakes

/-- **No response is lost.** With an empty buffer, every queued response with the id of the
client is deliverable; so is every queued response if that id is 0. -/
lemma deliverable_of_mem {packet : Fields} {c : DesertClient}
    (hbuffer : c.responseDataStream.bufferedPacket = [])
    (hq : ∀ p ∈ c.responseDataStream.receivedPackets, IsResponse p)
    (hlen : c.responseDataStream.receivedPackets.length ≤ maxBufferCapacity)
    (hsearch : Searchable c.sequenceId c.responseDataStream.receivedPackets)
    (hmem : packet ∈ c.responseDataStream.receivedPackets)
    (hid : c.sequenceId = 0 ∨ sequenceField packet = .ok c.sequenceId) :
    c.Deliverable packet := by
  -- induction on the length of the queue, which each take makes shorter
  induction hn : c.responseDataStream.receivedPackets.length generalizing c with
  | zero =>
    rw [List.length_eq_zero_iff] at hn
    simp [hn] at hmem
  | succ n ih =>
    rcases dataAvailable_cases hbuffer hq hsearch with
      ⟨m, queue, iterator, havailable, hperm, hm, -⟩ | ⟨-, hnone⟩
    · have hdata : c.hasData = .ok (true, { c with responseDataStream :=
          { c.responseDataStream with
            bufferedPacket := m, receivedPackets := queue, bufferedIterator := iterator } }) := by
        rw [hasData, havailable]
        rfl
      rcases List.mem_cons.mp (hperm.mem_iff.mpr hmem) with rfl | hrest
      · exact ⟨0, c, _, rfl, hdata, rfl⟩
      · have hqueue : queue.length = n := by
          have hcount := hperm.length_eq
          simp only [List.length_cons] at hcount
          omega
        have htake : c.take = .ok { c with responseDataStream :=
            { c.responseDataStream with
              bufferedPacket := [], receivedPackets := queue, bufferedIterator := iterator } } := by
          rw [take, hdata]
          rfl
        refine Deliverable.of_take htake (ih rfl ?_ ?_ ?_ hrest hid hqueue)
        · exact fun p hp => hq p (hperm.mem_iff.mp (List.mem_cons_of_mem m hp))
        · show queue.length ≤ maxBufferCapacity
          omega
        · refine Or.inr (Or.inl ?_)
          show queue.length < maxBufferCapacity
          omega
    · obtain ⟨hzero, k, hk, hne⟩ := hnone packet hmem
      rcases hid with hid | hid
      · exact absurd hid hzero
      · rw [hid] at hk
        exact absurd (Except.ok.inj hk).symm hne

/-- **A replaced request is never answered.** When no queued response has the id of the
client, no take delivers any. -/
theorem not_deliverable {packet : Fields} {c : DesertClient}
    (hbuffer : c.responseDataStream.bufferedPacket = []) (hid : c.sequenceId ≠ 0)
    (hq : ∀ p ∈ c.responseDataStream.receivedPackets, Mismatch c.sequenceId p)
    (hlen : c.responseDataStream.receivedPackets.length < maxBufferCapacity) :
    ¬ c.Deliverable packet := by
  have hdata : c.hasData = .ok (false, c) := by
    have havailable : c.responseDataStream.dataAvailable c.sequenceId
        = .ok (false, c.responseDataStream) := by
      rw [dataAvailable_of_ne_zero hbuffer hid, search_of_mismatch _ hq hlen, List.rotate_length]
    rw [hasData, havailable]
    rfl
  have htake : c.take = .ok c := by
    rw [take, hdata]
    rfl
  have htakes : ∀ n, takes n c = .ok c := by
    intro n
    induction n with
    | zero => rfl
    | succ n ih =>
      rw [takes, htake]
      exact ih
  rintro ⟨n, c₁, c₂, hn, htrue, -⟩
  rw [htakes n] at hn
  obtain rfl := Except.ok.inj hn
  rw [hdata] at htrue
  cases htrue

/-- A read leaves the queue as it is and clears the buffer. -/
lemma readResponse_ok {initial : (M : MessageMembers) → Msg M} {M : MessageMembers} {res : Msg M}
    {c c' : DesertClient} {sequenceNumber : Int64} {msg : Msg M}
    (h : c.readResponse initial res = .ok ((sequenceNumber, msg), c')) :
    sequenceNumber = c.sequenceId ∧ c'.sequenceId = c.sequenceId ∧
      c'.responseDataStream.bufferedPacket = [] ∧
      c'.responseDataStream.receivedPackets = c.responseDataStream.receivedPackets ∧
      c'.requestDataStream = c.requestDataStream ∧
      c'.responseDataStream.streamType = c.responseDataStream.streamType := by
  obtain ⟨⟨msg', rx⟩, hread, h⟩ := Transition.bind_eq_ok.mp h
  obtain ⟨n, rfl⟩ := advances_deserialize c.language initial M res _ _ _ hread
  cases h
  exact ⟨rfl, rfl, rfl, rfl, rfl, rfl⟩

end DesertClient

/-! ## Sessions -/

/-- A client, and the sequence ids of the requests that it has sent. -/
structure Session where
  client : DesertClient
  sent : List Int64

namespace Session

/-- The calls on a client, and the arrival of a response. -/
inductive Event (Req Res : MessageMembers)
  /-- `send_request`. -/
  | sendRequest (req : Msg Req) (sequenceId : Int64)
  /-- `push_packet` on the response stream, by `interpret_packets`. -/
  | arrive (sequenceId : UInt64) (body : Fields)
  /-- `has_data`. -/
  | hasData
  /-- `read_response`. -/
  | readResponse (res : Msg Res)

section

variable (N : NanoCbor) (initial : (M : MessageMembers) → Msg M) {Req Res : MessageMembers}

/-- One event. -/
def step (s : Session) : Event Req Res → Except Failure Session
  | .sendRequest req sequenceId =>
    .ok ⟨(s.client.sendRequest N req sequenceId).2,
      if s.client.id = 0 then s.sent else sequenceId :: s.sent⟩
  | .arrive sequenceId body =>
    .ok { s with client := { s.client with responseDataStream :=
      s.client.responseDataStream.pushPacket (.uint sequenceId :: body) } }
  | .hasData => do
    let (_, client) ← s.client.hasData
    return { s with client := client }
  | .readResponse res => do
    let (_, client) ← s.client.readResponse initial res
    return { s with client := client }

end

/-- The buffered packet. -/
abbrev buffered (s : Session) : Fields := s.client.responseDataStream.bufferedPacket

/-- The queued packets. -/
abbrev queued (s : Session) : List Fields := s.client.responseDataStream.receivedPackets

/-- A client that has been constructed. -/
structure Fresh (s : Session) : Prop where
  sent : s.sent = []
  buffered : s.buffered = []
  queued : s.queued = []

/-- A response to one of the requests is in the queue. -/
def Answered (sent : List Int64) (queue : List Fields) : Prop :=
  ∃ p ∈ queue, ∃ n ∈ sent, sequenceField p = .ok n

/-- The conditions on an event under which responses stay with their requests. -/
def InOrder {Req Res : MessageMembers} (s : Session) : Event Req Res → Prop
  -- no response to an earlier request is buffered or queued, unless the new request has the
  -- same id or, for queued ones, the id 0, which every response matches; a search for the new id
  -- comes to an answer that is queued
  | .sendRequest _ sequenceId => s.client.id ≠ 0 →
    (s.buffered = [] ∨ sequenceField s.buffered = .ok sequenceId) ∧
    (∀ p ∈ s.queued, ∀ n ∈ s.sent, sequenceField p = .ok n → n = sequenceId ∨ sequenceId = 0) ∧
    (Answered (sequenceId :: s.sent) s.queued → Searchable sequenceId s.queued)
  -- the response does not answer a request that another one replaced, and a search comes to an
  -- answer that is queued
  | .arrive sequenceId body =>
    (sequenceId.toInt64 ∈ s.sent →
      sequenceId.toInt64 = s.client.sequenceId ∨ s.client.sequenceId = 0) ∧
    (Answered s.sent (CircularQueue.push (.uint sequenceId :: body) s.queued) →
      Searchable s.client.sequenceId (CircularQueue.push (.uint sequenceId :: body) s.queued))
  -- a poll for the id 0 meets a response with that id
  | .hasData => s.buffered = [] → s.client.sequenceId = 0 →
    ∀ p ∈ s.queued.head?, sequenceField p = .ok 0
  -- a read follows a poll that returned true
  | .readResponse _ => s.buffered ≠ []

/-- What holds of a session in which every event was in order. -/
structure Inv (s : Session) : Prop where
  responses : ∀ p ∈ s.queued, IsResponse p
  length_le : s.queued.length ≤ maxBufferCapacity
  searchable : Answered s.sent s.queued → Searchable s.client.sequenceId s.queued
  buffered_id : s.buffered ≠ [] → sequenceField s.buffered = .ok s.client.sequenceId
  queued_id : ∀ p ∈ s.queued, ∀ n ∈ s.sent, sequenceField p = .ok n →
    n = s.client.sequenceId ∨ s.client.sequenceId = 0

lemma Fresh.inv {s : Session} (h : s.Fresh) : s.Inv where
  responses := by simp [h.queued]
  length_le := by simp [h.queued]
  searchable := fun _ => Or.inr (Or.inl (by simp [h.queued, maxBufferCapacity]))
  buffered_id := fun hne => absurd h.buffered hne
  queued_id := by simp [h.queued]

section

variable {N : NanoCbor} {initial : (M : MessageMembers) → Msg M} {Req Res : MessageMembers}

lemma Inv.sendRequest {s t : Session} {req : Msg Req} {sequenceId : Int64} (hs : s.Inv)
    (hok : s.InOrder (.sendRequest req sequenceId : Event Req Res))
    (hstep : s.step N initial (.sendRequest req sequenceId : Event Req Res) = .ok t) : t.Inv := by
  obtain rfl := Except.ok.inj hstep
  by_cases hid : s.client.id = 0
  · -- a disabled client sends nothing
    simpa [DesertClient.sendRequest, hid] using hs
  · obtain ⟨hbuffered, hqueued, hsearch⟩ := hok hid
    simp only [DesertClient.sendRequest, if_neg hid]
    refine ⟨hs.responses, hs.length_le, hsearch, fun hne => ?_, fun p hp n hn hpn => ?_⟩
    · exact hbuffered.resolve_left hne
    · rcases List.mem_cons.mp hn with rfl | hn
      · exact Or.inl rfl
      · exact hqueued p hp n hn hpn

lemma Inv.arrive {s t : Session} {sequenceId : UInt64} {body : Fields} (hs : s.Inv)
    (hok : s.InOrder (.arrive sequenceId body : Event Req Res))
    (hstep : s.step N initial (.arrive sequenceId body : Event Req Res) = .ok t) : t.Inv := by
  obtain rfl := Except.ok.inj hstep
  obtain ⟨hnew, hsearch⟩ := hok
  refine ⟨fun p hp => ?_, CircularQueue.length_push_le hs.length_le, hsearch, hs.buffered_id,
    fun p hp n hn hpn => ?_⟩
  · rcases CircularQueue.mem_push hp with hp | rfl
    · exact hs.responses p hp
    · exact ⟨sequenceId, body, rfl⟩
  · rcases CircularQueue.mem_push hp with hp | rfl
    · exact hs.queued_id p hp n hn hpn
    · obtain rfl : sequenceId.toInt64 = n := Except.ok.inj hpn
      exact hnew hn

lemma Inv.hasData {s t : Session} (hs : s.Inv) (hok : s.InOrder (.hasData : Event Req Res))
    (hstep : s.step N initial (.hasData : Event Req Res) = .ok t) : t.Inv := by
  by_cases hbuffered : s.buffered = []
  · -- where nothing is known of the queue, the poll has returned
    have hsearch : Searchable s.client.sequenceId s.queued := by
      obtain ⟨⟨available, client⟩, hdata, -⟩ := Transition.bind_eq_ok.mp hstep
      obtain ⟨⟨available', rx⟩, hrx, -⟩ := Transition.bind_eq_ok.mp hdata
      exact searchable_of_dataAvailable hbuffered hs.responses hs.length_le hrx
    rcases dataAvailable_cases hbuffered hs.responses hsearch with
      ⟨m, queue, iterator, havailable, hperm, hm, hfront⟩ | ⟨havailable, -⟩
    · -- a response is buffered, and the others stay in the queue
      simp only [step, DesertClient.hasData, havailable] at hstep
      obtain rfl := Except.ok.inj hstep
      have hqueue : ∀ p ∈ queue, p ∈ s.queued :=
        fun p hp => hperm.mem_iff.mp (List.mem_cons_of_mem m hp)
      have hlen : queue.length < maxBufferCapacity := by
        have hcount := hperm.length_eq
        have hle : s.client.responseDataStream.receivedPackets.length ≤ maxBufferCapacity :=
          hs.length_le
        simp only [List.length_cons] at hcount
        omega
      refine ⟨fun p hp => hs.responses p (hqueue p hp), hlen.le, fun _ => Or.inr (Or.inl hlen),
        fun _ => ?_, fun p hp => hs.queued_id p (hqueue p hp)⟩
      by_cases hzero : s.client.sequenceId = 0
      · have hzeroField := hok hbuffered hzero m (by simp [queued, hfront hzero])
        rwa [← hzero] at hzeroField
      · exact hm hzero
    · simp only [step, DesertClient.hasData, havailable] at hstep
      obtain rfl := Except.ok.inj hstep
      exact hs
  · -- a buffered packet stays where it is
    simp only [step, DesertClient.hasData, dataAvailable_of_ne_nil hbuffered] at hstep
    obtain rfl := Except.ok.inj hstep
    exact hs

lemma Inv.readResponse {s t : Session} {res : Msg Res} (hs : s.Inv)
    (hstep : s.step N initial (.readResponse res : Event Req Res) = .ok t) : t.Inv := by
  obtain ⟨⟨⟨n, msg⟩, client⟩, hread, hstep⟩ := Transition.bind_eq_ok.mp hstep
  obtain rfl := Except.ok.inj hstep
  obtain ⟨-, hid, hbuffered, hqueued, -⟩ := DesertClient.readResponse_ok hread
  refine ⟨?_, ?_, ?_, fun hne => absurd hbuffered hne, ?_⟩
  · simpa only [queued, hqueued] using hs.responses
  · simpa only [queued, hqueued] using hs.length_le
  · simpa only [queued, hqueued, hid] using hs.searchable
  · simpa only [queued, hqueued, hid] using hs.queued_id

/-- Every event in order preserves the invariant. -/
lemma Inv.step {s t : Session} {event : Event Req Res} (hs : s.Inv) (hok : s.InOrder event)
    (hstep : s.step N initial event = .ok t) : t.Inv := by
  cases event with
  | sendRequest req sequenceId => exact hs.sendRequest hok hstep
  | arrive sequenceId body => exact hs.arrive hok hstep
  | hasData => exact hs.hasData hok hstep
  | readResponse res => exact hs.readResponse hstep

/-- Every queued response to a request that was sent is deliverable. -/
lemma Inv.deliverable {s : Session} (hs : s.Inv) {p : Fields} (hp : p ∈ s.queued) {n : Int64}
    (hn : n ∈ s.sent) (hpn : sequenceField p = .ok n) : s.client.Deliverable p := by
  have hsearch := hs.searchable ⟨p, hp, n, hn, hpn⟩
  have hid : s.client.sequenceId = 0 ∨ sequenceField p = .ok s.client.sequenceId := by
    rcases hs.queued_id p hp n hn hpn with rfl | hzero
    · exact Or.inr hpn
    · exact Or.inl hzero
  by_cases hbuffered : s.buffered = []
  · exact DesertClient.deliverable_of_mem hbuffered hs.responses hs.length_le hsearch hp hid
  · -- the buffered packet is taken first
    have htake : s.client.take = .ok { s.client with
        responseDataStream := s.client.responseDataStream.clearBuffer } := by
      simp only [DesertClient.take, DesertClient.hasData, dataAvailable_of_ne_nil hbuffered]
      rfl
    refine DesertClient.Deliverable.of_take htake ?_
    exact DesertClient.deliverable_of_mem rfl hs.responses hs.length_le hsearch hp hid

/-- **Response correlation.** In a run whose events are all in order, a read reports the
sequence id of the packet that it decodes, and every queued response to a request that was
sent is deliverable. -/
theorem response_correlation {s t : Session} (hs : s.Fresh) {events : List (Event Req Res)}
    (hok : Transition.EveryStep (Session.step N initial) InOrder s events)
    (hrun : Transition.run (Session.step N initial) s events = .ok t) :
    (∀ (res : Msg Res) (sequenceNumber : Int64) (msg : Msg Res) (client : DesertClient),
      t.buffered ≠ [] → t.client.readResponse initial res = .ok ((sequenceNumber, msg), client) →
      sequenceField t.buffered = .ok sequenceNumber) ∧
    ∀ p ∈ t.queued, ∀ n ∈ t.sent, sequenceField p = .ok n → t.client.Deliverable p := by
  have ht : t.Inv :=
    Transition.run_invariant (fun hs hok hstep => hs.step hok hstep) hs.inv hok hrun
  refine ⟨fun res sequenceNumber msg client hne hread => ?_, fun p hp n hn => ht.deliverable hp hn⟩
  rw [(DesertClient.readResponse_ok hread).1]
  exact ht.buffered_id hne

end

/-! ## Two requests -/

/-- A new client of a service with the identifier 1. -/
def newSession : Session where
  client := ⟨1, ⟨clientType, 1, false, []⟩, ⟨clientType, 1, 0, [], []⟩, 0, .cpp⟩
  sent := []

/-- The response arrives and is polled before the next request. -/
def answered : List (Event oneByte oneByte) :=
  [.sendRequest ((5 : UInt8), ()) 1, .arrive 1 [.uint 7], .hasData]

theorem response_correlation_answered :
    ∃ t, Transition.run (Session.step NanoCbor.rfc8949 Msg.zero) newSession answered = .ok t ∧
      (∀ (res : Msg oneByte) (sequenceNumber : Int64) (msg : Msg oneByte) (client : DesertClient),
        t.buffered ≠ [] →
        t.client.readResponse Msg.zero res = .ok ((sequenceNumber, msg), client) →
        sequenceField t.buffered = .ok sequenceNumber) ∧
      ∀ p ∈ t.queued, ∀ n ∈ t.sent, sequenceField p = .ok n → t.client.Deliverable p := by
  have hok : Transition.EveryStep (Session.step NanoCbor.rfc8949 Msg.zero) InOrder newSession
      answered := by
    refine ⟨fun _ => ⟨Or.inl rfl, ?_, ?_⟩, ?_⟩
    · intro p hp
      cases hp
    · exact fun _ => Or.inr (Or.inl (by decide))
    · rintro t₁ ⟨⟩
      refine ⟨⟨fun _ => Or.inl rfl, fun _ => Or.inr (Or.inl (by decide))⟩, ?_⟩
      rintro t₂ ⟨⟩
      refine ⟨fun _ hid => absurd hid (by decide), ?_⟩
      rintro t₃ ⟨⟩
      exact trivial
  exact ⟨_, rfl, response_correlation ⟨rfl, rfl, rfl⟩ hok rfl⟩

/-- The second request is sent while the response to the first one is buffered, or queued. -/
theorem second_request_breaks_correlation :
    (∃ t client, Transition.run (Session.step NanoCbor.rfc8949 Msg.zero) newSession
          (answered ++ [.sendRequest ((6 : UInt8), ()) 2]) = .ok t ∧
        t.client.readResponse Msg.zero (Msg.zero oneByte) = .ok ((2, ((7 : UInt8), ())), client) ∧
        sequenceField t.buffered = .ok 1) ∧
      ∃ t, Transition.run (Session.step NanoCbor.rfc8949 Msg.zero) newSession
          ([.sendRequest ((5 : UInt8), ()) 1, .arrive 1 [.uint 7],
            .sendRequest ((6 : UInt8), ()) 2] : List (Event oneByte oneByte)) = .ok t ∧
        1 ∈ t.sent ∧ [.uint 1, .uint 7] ∈ t.queued ∧
        ¬ t.client.Deliverable [.uint 1, .uint 7] := by
  refine ⟨⟨_, _, rfl, rfl, rfl⟩, ⟨_, rfl, by decide, by decide, ?_⟩⟩
  refine DesertClient.not_deliverable rfl (by decide) ?_ (by decide)
  intro p hp
  obtain rfl := List.mem_singleton.mp hp
  exact ⟨1, rfl, by decide⟩

end Session
end RmwDesert
