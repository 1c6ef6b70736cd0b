/-
The server of a service (`DesertService.cpp`).

A service keeps the sequence id of the last request that it has read; `send_response` writes
that id, and not the one of the header that its caller passes.  The main result,
`reply_correlation_iff`, says that every response carries the id of the request that it
answers if and only if every response answers the last request read.
-/
import RmwDesert.InterpretPackets
import RmwDesert.Lib.Transition
import RmwDesert.MessageSerialization

namespace RmwDesert

open MessageSerialization RxStream
open TcpDaemon (maxPacketLength)

/-- A `DesertService`. -/
structure DesertService where
  /-- `_id`. -/
  id : UInt8
  /-- `_request_data_stream`. -/
  requestDataStream : RxStream
  /-- `_response_data_stream`. -/
  responseDataStream : TxStream
  /-- `_sequence_id`, which the constructor leaves uninitialised. -/
  sequenceId : Int64
  /-- `_c_cpp_identifier`. -/
  language : Language

/-- The packets that a transmission with the given sequence id can enqueue. -/
def TxStream.Addressed (N : NanoCbor) (tx : TxStream) (sequenceId : Int64) (packet : Packet) :
    Prop :=
  ∃ fields, packet = N.encode (tx.header (some sequenceId.toUInt64) ++ fields)

/-- A packet is addressed to one sequence id only. -/
lemma TxStream.addressed_iff {N : NanoCbor} (hN : N.Lawful) (tx : TxStream) {n m : Int64}
    (fields : Fields) :
    tx.Addressed N n (N.encode (tx.header (some m.toUInt64) ++ fields)) ↔ n = m := by
  constructor
  · rintro ⟨fields', h⟩
    simp only [TxStream.header, List.append_assoc, Option.toList_some, List.map_cons, List.map_nil,
      NanoCbor.encode_append, NanoCbor.encode_cons, NanoCbor.encode_nil, List.append_nil] at h
    -- the items before the id are the same, and the getter reads the id
    have hid : N.fmtUint m.toUInt64 ++ N.encode fields
        = N.fmtUint n.toUInt64 ++ N.encode fields' :=
      List.append_cancel_left (List.append_cancel_left h)
    have hm := hN.getUint64_fmtUint m.toUInt64 (N.encode fields)
    rw [hid, hN.getUint64_fmtUint] at hm
    have heq : n.toUInt64 = m.toUInt64 := (Prod.mk.inj (Option.some.inj hm)).1
    rw [← Int64.toInt64_toUInt64 n, ← Int64.toInt64_toUInt64 m, heq]
  · rintro rfl
    exact ⟨fields, rfl⟩

namespace DesertService

/-- `has_data`, after `interpret_packets` has delivered what arrived. -/
def hasData (c : DesertService) : Except Failure (Bool × DesertService) := do
  let (available, rx) ← c.requestDataStream.dataAvailable 0
  return (available, { c with requestDataStream := rx })

/-- `read_request`: the `sequence_number` of the header and the request. -/
def readRequest (initial : (M : MessageMembers) → Msg M) {M : MessageMembers} (req : Msg M)
    (c : DesertService) : Except Failure ((Int64 × Msg M) × DesertService) := do
  let (extracted, rx) ← extractInt64 c.requestDataStream
  let sequenceId := extracted.getD c.sequenceId
  let (req, rx) ← deserialize c.language.typeSupport initial M req rx
  return ((sequenceId, req),
    { c with requestDataStream := rx.clearBuffer, sequenceId := sequenceId })

/-- `send_response`: the packet that is enqueued, if any, and the `sequence_number` of the
header afterwards. -/
def sendResponse (N : NanoCbor) {M : MessageMembers} (res : Msg M) (sequenceNumber : Int64)
    (c : DesertService) : Except Failure (Option Packet) × Int64 :=
  if c.id = 0 then (.ok none, sequenceNumber)
  else
    ((serialize c.language.typeSupport M res).map
        (c.responseDataStream.transmit N (some c.sequenceId.toUInt64)),
      c.sequenceId)

/-- The response of an enabled service is serialized and fits in a packet. -/
def Transmits (N : NanoCbor) {M : MessageMembers} (res : Msg M) (c : DesertService) : Prop :=
  c.id ≠ 0 ∧ ∃ fields, serialize c.language.typeSupport M res = .ok fields ∧
    (N.encode (c.responseDataStream.header (some c.sequenceId.toUInt64) ++ fields)).length
      ≤ maxPacketLength

/-- What `send_response` enqueues. -/
lemma sendResponse_ok {N : NanoCbor} {M : MessageMembers} {res : Msg M} {sequenceNumber : Int64}
    {c : DesertService} {packet : Packet} :
    (c.sendResponse N res sequenceNumber).1 = .ok (some packet) ↔
      c.id ≠ 0 ∧ ∃ fields, serialize c.language.typeSupport M res = .ok fields ∧
        c.responseDataStream.transmit N (some c.sequenceId.toUInt64) fields = some packet := by
  unfold sendResponse
  split_ifs with hid
  · simp [hid]
  · cases hser : serialize c.language.typeSupport M res with
    | error e => simp [Except.map]
    | ok fields => simp [Except.map, hid]

lemma transmits_iff {N : NanoCbor} {M : MessageMembers} {res : Msg M} (sequenceNumber : Int64)
    {c : DesertService} :
    c.Transmits N res ↔
      ∃ packet, (c.sendResponse N res sequenceNumber).1 = .ok (some packet) := by
  constructor
  · rintro ⟨hid, fields, hser, hfit⟩
    have hpacket := TxStream.transmit_eq N (some c.sequenceId.toUInt64) fields c.responseDataStream
    rw [if_pos hfit] at hpacket
    exact ⟨_, sendResponse_ok.mpr ⟨hid, fields, hser, hpacket⟩⟩
  · rintro ⟨packet, hsent⟩
    obtain ⟨hid, fields, hser, hpacket⟩ := sendResponse_ok.mp hsent
    rw [TxStream.transmit_eq] at hpacket
    split_ifs at hpacket with hfit
    exact ⟨hid, fields, hser, hfit⟩

/-- Every response is addressed to the last request read. -/
lemma addressed_sendResponse {N : NanoCbor} (hN : N.Lawful) {M : MessageMembers} {res : Msg M}
    {sequenceNumber : Int64} {c : DesertService} {packet : Packet}
    (hsent : (c.sendResponse N res sequenceNumber).1 = .ok (some packet)) (n : Int64) :
    c.responseDataStream.Addressed N n packet ↔ n = c.sequenceId := by
  obtain ⟨-, fields, -, hpacket⟩ := sendResponse_ok.mp hsent
  rw [TxStream.transmit_eq] at hpacket
  split_ifs at hpacket with hfit
  obtain rfl := Option.some.inj hpacket
  exact TxStream.addressed_iff hN _ fields

/-- `read_request` keeps the id that it reports, and changes neither the queue nor the
response stream. -/
lemma readRequest_ok {initial : (M : MessageMembers) → Msg M} {M : MessageMembers} {req : Msg M}
    {c c' : DesertService} {sequenceNumber : Int64} {msg : Msg M}
    (h : c.readRequest initial req = .ok ((sequenceNumber, msg), c')) :
    c'.sequenceId = sequenceNumber ∧ c'.id = c.id ∧ c'.language = c.language ∧
      c'.responseDataStream = c.responseDataStream ∧
      c'.requestDataStream.bufferedPacket = [] ∧
      c'.requestDataStream.receivedPackets = c.requestDataStream.receivedPackets ∧
      c'.requestDataStream.streamType = c.requestDataStream.streamType ∧
      c'.requestDataStream.streamIdentifier = c.requestDataStream.streamIdentifier := by
  obtain ⟨⟨extracted, rx⟩, hid, h⟩ := Transition.bind_eq_ok.mp h
  obtain ⟨n, rfl⟩ := advances_extractInt64 _ _ _ hid
  obtain ⟨⟨msg', rx'⟩, hread, h⟩ := Transition.bind_eq_ok.mp h
  obtain ⟨k, rfl⟩ := advances_deserialize c.language initial M req _ _ _ hread
  cases h
  exact ⟨rfl, rfl, rfl, rfl, rfl, rfl, rfl, rfl⟩

/-- The id is taken from the field at the iterator, if that is a number. -/
lemma readRequest_sequenceNumber {initial : (M : MessageMembers) → Msg M} {M : MessageMembers}
    {req : Msg M} {c c' : DesertService} {sequenceNumber : Int64} {msg : Msg M}
    (h : c.readRequest initial req = .ok ((sequenceNumber, msg), c')) :
    ∃ f, c.requestDataStream.current = some f ∧
      sequenceNumber = (intValue f).getD c.sequenceId := by
  obtain ⟨⟨extracted, rx⟩, hid, h⟩ := Transition.bind_eq_ok.mp h
  obtain ⟨⟨msg', rx'⟩, -, h⟩ := Transition.bind_eq_ok.mp h
  cases h
  cases hcurrent : c.requestDataStream.current with
  | none =>
    simp only [extractInt64, hcurrent] at hid
    cases hid
  | some f =>
    simp only [extractInt64, hcurrent, next] at hid
    cases hid
    exact ⟨f, rfl, rfl⟩

end DesertService

/-! ## Sessions -/

/-- A log of the packets that were enqueued, after one more call. -/
def logged {α : Type} (entry : α) (log : List (α × Packet)) :
    Except Failure (Option Packet) → List (α × Packet)
  | .ok (some packet) => (entry, packet) :: log
  | .ok none | .error _ => log

lemma mem_logged {α : Type} {entry : α} {log : List (α × Packet)}
    {sent : Except Failure (Option Packet)} {r : α × Packet} :
    r ∈ logged entry log sent ↔ r ∈ log ∨ (r.1 = entry ∧ sent = .ok (some r.2)) := by
  rcases sent with e | _ | packet
  · simp [logged]
  · simp [logged]
  · simp only [logged, List.mem_cons, Except.ok.injEq, Option.some.injEq, Prod.ext_iff]
    rw [or_comm, eq_comm (a := packet)]

/-- A service, the `sequence_number` of the requests that were read from it, the last one
first, and the responses that it enqueued, each with the `sequence_number` of the header that
was passed. -/
structure ServiceSession where
  service : DesertService
  headers : List Int64
  responses : List (Int64 × Packet)

namespace ServiceSession

/-- The calls on a service, and the arrival of a packet. -/
inductive Event (Req Res : MessageMembers)
  /-- `push_packet` on the request stream, by `interpret_packets`. -/
  | arrive (packet : Fields)
  /-- `has_data`. -/
  | hasData
  /-- `read_request`. -/
  | readRequest (req : Msg Req)
  /-- `send_response`, with the `sequence_number` of the header. -/
  | sendResponse (res : Msg Res) (sequenceNumber : Int64)

section

variable (N : NanoCbor) (initial : (M : MessageMembers) → Msg M) {Req Res : MessageMembers}

/-- One event. -/
def step (s : ServiceSession) : Event Req Res → Except Failure ServiceSession
  | .arrive packet =>
    .ok { s with service := { s.service with
      requestDataStream := s.service.requestDataStream.pushPacket packet } }
  | .hasData => do
    let (_, service) ← s.service.hasData
    return { s with service := service }
  | .readRequest req => do
    let ((sequenceNumber, _), service) ← s.service.readRequest initial req
    return { s with service := service, headers := sequenceNumber :: s.headers }
  | .sendResponse res sequenceNumber =>
    let (sent, _) := s.service.sendResponse N res sequenceNumber
    .ok { s with responses := logged sequenceNumber s.responses sent }

end

/-- A service that has been constructed. -/
structure Fresh (s : ServiceSession) : Prop where
  headers : s.headers = []
  responses : s.responses = []

variable {Req Res : MessageMembers}

/-- `send_response` is given a header that an earlier `read_request` filled in. -/
def GivenHeader (s : ServiceSession) : Event Req Res → Prop
  | .sendResponse _ sequenceNumber => sequenceNumber ∈ s.headers
  | _ => True

/-- A response that goes out is given the header of the last request read. -/
def AnswersLast (N : NanoCbor) (s : ServiceSession) : Event Req Res → Prop
  | .sendResponse res sequenceNumber =>
    s.service.Transmits N res → s.headers.head? = some sequenceNumber
  | _ => True

/-- Every response carries the `sequence_number` of the header passed for it. -/
def Addressed (N : NanoCbor) (s : ServiceSession) : Prop :=
  ∀ r ∈ s.responses, s.service.responseDataStream.Addressed N r.1 r.2

/-- The service keeps the id of the last request read. -/
def Inv (s : ServiceSession) : Prop := ∀ n ∈ s.headers.head?, n = s.service.sequenceId

variable {N : NanoCbor} {initial : (M : MessageMembers) → Msg M}

/-- A poll changes the request stream only. -/
lemma step_hasData {s t : ServiceSession}
    (hstep : s.step N initial (.hasData : Event Req Res) = .ok t) :
    ∃ rx, t = { s with service := { s.service with requestDataStream := rx } } := by
  obtain ⟨⟨available, service⟩, hdata, hstep⟩ := Transition.bind_eq_ok.mp hstep
  obtain ⟨⟨available', rx⟩, -, hdata⟩ := Transition.bind_eq_ok.mp hdata
  cases hdata
  cases hstep
  exact ⟨rx, rfl⟩

/-- A read adds a header, which the service keeps. -/
lemma step_readRequest {s t : ServiceSession} {req : Msg Req}
    (hstep : s.step N initial (.readRequest req : Event Req Res) = .ok t) :
    t.headers = t.service.sequenceId :: s.headers ∧ t.responses = s.responses ∧
      t.service.responseDataStream = s.service.responseDataStream := by
  obtain ⟨⟨⟨n, msg⟩, service⟩, hread, hstep⟩ := Transition.bind_eq_ok.mp hstep
  obtain ⟨hn, -, -, htx, -⟩ := DesertService.readRequest_ok hread
  cases hstep
  exact ⟨by rw [hn], rfl, htx⟩

lemma Inv.step {s t : ServiceSession} {event : Event Req Res} (hs : s.Inv)
    (hstep : s.step N initial event = .ok t) : t.Inv := by
  cases event with
  | arrive packet =>
    obtain rfl := Except.ok.inj hstep
    exact hs
  | hasData =>
    obtain ⟨rx, rfl⟩ := step_hasData hstep
    exact hs
  | readRequest req =>
    intro n hn
    rw [(step_readRequest hstep).1] at hn
    exact (Option.some.inj hn).symm
  | sendResponse res sequenceNumber =>
    obtain rfl := Except.ok.inj hstep
    exact hs

/-- A step keeps the responses correct if and only if it answers the last request read. -/
lemma addressed_step (hN : N.Lawful) {s t : ServiceSession} {event : Event Req Res} (hs : s.Inv)
    (hgiven : s.GivenHeader event) (hstep : s.step N initial event = .ok t) :
    t.Addressed N ↔ s.Addressed N ∧ s.AnswersLast N event := by
  cases event with
  | arrive packet =>
    obtain rfl := Except.ok.inj hstep
    exact (and_iff_left trivial).symm
  | hasData =>
    obtain ⟨rx, rfl⟩ := step_hasData hstep
    exact (and_iff_left trivial).symm
  | readRequest req =>
    obtain ⟨-, hresponses, htx⟩ := step_readRequest hstep
    rw [Addressed, hresponses, htx]
    exact (and_iff_left trivial).symm
  | sendResponse res n =>
    have ht : { s with responses :=
        (logged n s.responses (s.service.sendResponse N res n).1) } = t := Except.ok.inj hstep
    subst ht
    have hlast : s.headers.head? = some n ↔ n = s.service.sequenceId := by
      obtain ⟨m, hm⟩ : ∃ m, s.headers.head? = some m := by
        cases hheaders : s.headers with
        | nil =>
          rw [GivenHeader, hheaders] at hgiven
          cases hgiven
        | cons m headers => exact ⟨m, rfl⟩
      obtain rfl := hs m hm
      rw [hm, Option.some.injEq, eq_comm]
    by_cases hsent : s.service.Transmits N res
    · obtain ⟨packet, hpacket⟩ := (DesertService.transmits_iff n).mp hsent
      have haddressed := DesertService.addressed_sendResponse hN hpacket n
      simp only [Addressed, hpacket, logged, List.forall_mem_cons, haddressed, AnswersLast, hsent,
        forall_const, hlast]
      exact and_comm
    · have hlogged : logged n s.responses (s.service.sendResponse N res n).1 = s.responses := by
        cases hresult : (s.service.sendResponse N res n).1 with
        | error e => rfl
        | ok packet =>
          cases packet with
          | none => rfl
          | some packet =>
            exact absurd ((DesertService.transmits_iff n).mpr ⟨packet, hresult⟩) hsent
      simp only [Addressed, hlogged, AnswersLast, hsent, false_imp_iff, and_true]

/-- **Reply correlation.** In a run in which `send_response` is always given a header that
an earlier `read_request` filled in, every response carries the id of its header if and only
if every response that goes out is given the header of the last request read. -/
theorem reply_correlation_iff (hN : N.Lawful) {s t : ServiceSession} (hs : s.Fresh)
    {events : List (Event Req Res)}
    (hgiven : Transition.EveryStep (step N initial) GivenHeader s events)
    (hrun : Transition.run (step N initial) s events = .ok t) :
    t.Addressed N ↔ Transition.EveryStep (step N initial) (AnswersLast N) s events := by
  have hinv : s.Inv := by
    simp [Inv, hs.headers]
  have haddressed : s.Addressed N := by
    simp [Addressed, hs.responses]
  rw [Transition.run_iff (fun hs _ hstep => Inv.step hs hstep)
    (fun hs hgiven hstep => addressed_step hN hs hgiven hstep) hinv hgiven hrun]
  exact and_iff_right haddressed

/-! ## Two requests -/

/-- A new server of a service with the identifier 1. -/
def newService : ServiceSession where
  service := ⟨1, ⟨serviceType, 1, 0, [], []⟩, ⟨serviceType, 1, false, []⟩, 0, .cpp⟩
  headers := []
  responses := []

/-- Two requests arrive, and both are read. -/
def twoRequests : List (Event oneByte oneByte) :=
  [.arrive [.uint 1, .uint 5], .arrive [.uint 2, .uint 6], .hasData, .readRequest ((0 : UInt8), ()),
    .hasData, .readRequest ((0 : UInt8), ())]

/-- The conditions are on the responses only. -/
lemma everyStep_twoRequests {P : ServiceSession → Event oneByte oneByte → Prop} {n : Int64}
    (hother : ∀ event ∈ twoRequests, ∀ s, P s event)
    (hlast : ∀ t, Transition.run (step NanoCbor.rfc8949 Msg.zero) newService twoRequests = .ok t →
      P t (.sendResponse ((7 : UInt8), ()) n)) :
    Transition.EveryStep (step NanoCbor.rfc8949 Msg.zero) P newService
      (twoRequests ++ [.sendResponse ((7 : UInt8), ()) n]) :=
  Transition.everyStep_append (Transition.everyStep_of_forall hother)
    fun t ht => ⟨hlast t ht, fun _ _ => trivial⟩

lemma givenHeader_twoRequests :
    ∀ event ∈ twoRequests, ∀ s : ServiceSession, s.GivenHeader event := by
  simp [twoRequests, GivenHeader]

theorem reply_correlation_last :
    ∃ t, Transition.run (step NanoCbor.rfc8949 Msg.zero) newService
        (twoRequests ++ [.sendResponse ((7 : UInt8), ()) 2]) = .ok t ∧
      t.Addressed NanoCbor.rfc8949 := by
  have hgiven : Transition.EveryStep (step NanoCbor.rfc8949 Msg.zero) GivenHeader newService
      (twoRequests ++ [.sendResponse ((7 : UInt8), ()) 2]) := by
    refine everyStep_twoRequests givenHeader_twoRequests ?_
    rintro t ⟨⟩
    exact List.mem_cons_self
  have hlast : Transition.EveryStep (step NanoCbor.rfc8949 Msg.zero)
      (AnswersLast NanoCbor.rfc8949) newService
      (twoRequests ++ [.sendResponse ((7 : UInt8), ()) 2]) := by
    refine everyStep_twoRequests (by simp [twoRequests, AnswersLast]) ?_
    rintro t ⟨⟩
    exact fun _ => rfl
  exact ⟨_, rfl, (reply_correlation_iff NanoCbor.rfc8949_lawful ⟨rfl, rfl⟩ hgiven rfl).mpr hlast⟩

/-- The response to the first request goes out with the id of the second one. -/
theorem first_response_misaddressed :
    ∃ t, Transition.EveryStep (step NanoCbor.rfc8949 Msg.zero) GivenHeader newService
        (twoRequests ++ [.sendResponse ((7 : UInt8), ()) 1]) ∧
      Transition.run (step NanoCbor.rfc8949 Msg.zero) newService
        (twoRequests ++ [.sendResponse ((7 : UInt8), ()) 1]) = .ok t ∧
      t.responses = [(1, [0x03, 0x01, 0x02, 0x07])] ∧ ¬ t.Addressed NanoCbor.rfc8949 := by
  refine ⟨_, ?_, rfl, rfl, fun haddressed => ?_⟩
  · refine everyStep_twoRequests givenHeader_twoRequests ?_
    rintro t ⟨⟩
    exact List.mem_cons_of_mem _ List.mem_cons_self
  · have hwire : newService.service.responseDataStream.Addressed NanoCbor.rfc8949 1
        (NanoCbor.rfc8949.encode
          (newService.service.responseDataStream.header (some (2 : Int64).toUInt64)
            ++ [.uint 7])) :=
      haddressed (1, [0x03, 0x01, 0x02, 0x07]) List.mem_cons_self
    rw [TxStream.addressed_iff NanoCbor.rfc8949_lawful] at hwire
    exact absurd hwire (by decide)

end ServiceSession
end RmwDesert
