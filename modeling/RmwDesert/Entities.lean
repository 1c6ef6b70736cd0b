/-
The entities of a node (the constructors of `DesertPublisher`, `DesertSubscriber`,
`DesertClient` and `DesertService`).

An entity is created with a name.  Its streams carry the identifier of that name, and the
calls that transmit do nothing if that identifier is 0.  `Sends` collects all the ways in
which something that was created with a name puts a packet on the transmit queue.
-/
import RmwDesert.BadPackets
import RmwDesert.DesertClient
import RmwDesert.DesertService
import RmwDesert.Discovery.Beacon
import RmwDesert.MessageRoundTrip

namespace RmwDesert

open InterpretPackets MessageSerialization

/-! ## Streams -/

/-- The constructor of `TxStream`. -/
def TxStream.create (streamType streamIdentifier : UInt8) : TxStream :=
  ⟨streamType, streamIdentifier, false, []⟩

/-- The constructor of `RxStream`. -/
def RxStream.create (streamType streamIdentifier : UInt8) : RxStream :=
  ⟨streamType, streamIdentifier, 0, [], []⟩

/-- The type of a stream and the identifier of a name. -/
def TxStream.Named (config : TopicsConfig) (streamType : UInt8) (name : String) (s : TxStream) :
    Prop :=
  s.streamType = streamType ∧ s.streamIdentifier = config.getTopicIdentifier name

/-- The type of a stream and the identifier of a name. -/
def RxStream.Named (config : TopicsConfig) (streamType : UInt8) (name : String) (s : RxStream) :
    Prop :=
  s.streamType = streamType ∧ s.streamIdentifier = config.getTopicIdentifier name

/-- `data_available` without a sequence id never fails. -/
lemma RxStream.dataAvailable_zero (s : RxStream) :
    ∃ s', s.dataAvailable 0 = .ok (decide (s.bufferedPacket ≠ [] ∨ s.receivedPackets ≠ []), s') ∧
      s'.streamType = s.streamType ∧ s'.streamIdentifier = s.streamIdentifier := by
  unfold dataAvailable
  by_cases hbuffer : s.bufferedPacket ≠ []
  · exact ⟨s, by simp [hbuffer], rfl, rfl⟩
  · simp only [if_neg hbuffer, ne_eq, not_true_eq_false, if_false]
    cases hqueue : s.receivedPackets with
    | nil => exact ⟨s, by simpa using hbuffer, rfl, rfl⟩
    | cons packet queue =>
      exact ⟨{ s with bufferedPacket := packet, receivedPackets := queue, bufferedIterator := 0 },
        by simp, rfl, rfl⟩

/-! ## Entities -/

/-- A `DesertPublisher`. -/
structure DesertPublisher where
  /-- `_id`. -/
  id : UInt8
  /-- `_data_stream`. -/
  dataStream : TxStream
  /-- `_c_cpp_identifier`. -/
  language : Language

/-- A `DesertSubscriber`. -/
structure DesertSubscriber where
  /-- `_id`. -/
  id : UInt8
  /-- `_data_stream`. -/
  dataStream : RxStream
  /-- `_c_cpp_identifier`. -/
  language : Language

section

variable (config : TopicsConfig) (name : String) (language : Language)

/-- The constructor of `DesertPublisher`. -/
def DesertPublisher.create : DesertPublisher :=
  let id := config.getTopicIdentifier name
  ⟨id, .create publisherType id, language⟩

/-- The constructor of `DesertSubscriber`. -/
def DesertSubscriber.create : DesertSubscriber :=
  let id := config.getTopicIdentifier name
  ⟨id, .create subscriberType id, language⟩

/-- The constructor of `DesertClient`, which leaves `_sequence_id` as it finds it. -/
def DesertClient.create (sequenceId : Int64) : DesertClient :=
  let id := config.getTopicIdentifier name
  ⟨id, .create clientType id, .create clientType id, sequenceId, language⟩

/-- The constructor of `DesertService`, which leaves `_sequence_id` as it finds it. -/
def DesertService.create (sequenceId : Int64) : DesertService :=
  let id := config.getTopicIdentifier name
  ⟨id, .create serviceType id, .create serviceType id, sequenceId, language⟩

end

/-- `push`: the packet that is enqueued, if any. -/
def DesertPublisher.push (N : NanoCbor) {M : MessageMembers} (msg : Msg M) (p : DesertPublisher) :
    Except Failure (Option Packet) :=
  -- stream identifier equals to zero means that the corresponding topic is disabled
  if p.id = 0 then .ok none
  else (serialize p.language.typeSupport M msg).map (p.dataStream.transmit N none)

/-- The entity that a pointer of a node points to. -/
inductive Endpoint
  | publisher (p : DesertPublisher)
  | subscriber (s : DesertSubscriber)
  | client (c : DesertClient)
  | service (c : DesertService)

/-- The lists of a node that hold entities. -/
inductive EntityKind
  | publisher
  | subscriber
  | client
  | service
deriving DecidableEq, Repr

/-- The type that beacons give for the kind. -/
def EntityKind.entityType : EntityKind → UInt8
  | publisher => publisherType
  | subscriber => subscriberType
  | client => clientType
  | service => serviceType

def Endpoint.kind : Endpoint → EntityKind
  | publisher _ => .publisher
  | subscriber _ => .subscriber
  | client _ => .client
  | service _ => .service

/-- An entity, with the attributes that a node reads of it. -/
structure Entity where
  /-- `_name`. -/
  name : String
  /-- `_gid`. -/
  gid : Gid
  /-- `message_namespace_` of the members that the type name is read from; for a client these
  are the request members, and for a service the response members. -/
  messageNamespace : List UInt8
  /-- `message_name_` of these members. -/
  messageName : List UInt8
  endpoint : Endpoint

/-- `regex_replace(namespace_, std::regex("::"), "/")`. -/
def namespaceSleshed : List UInt8 → List UInt8
  | 0x3A :: 0x3A :: rest => 0x2F :: namespaceSleshed rest
  | b :: rest => b :: namespaceSleshed rest
  | [] => []

/-- `get_type_name`, `get_request_type_name` and `get_response_type_name`. -/
def Entity.getTypeName (e : Entity) : List UInt8 :=
  namespaceSleshed e.messageNamespace ++ [0x2F] ++ e.messageName

/-! ## What keeps its name -/

/-- The fields that the constructor takes from the name, and that no method changes. -/
def Endpoint.Named (config : TopicsConfig) (name : String) : Endpoint → Prop
  | publisher p => p.id = config.getTopicIdentifier name ∧
      p.dataStream.Named config publisherType name
  | subscriber s => s.dataStream.Named config subscriberType name
  | client c => c.id = config.getTopicIdentifier name ∧
      c.requestDataStream.Named config clientType name ∧
      c.responseDataStream.Named config clientType name
  | service c => c.id = config.getTopicIdentifier name ∧
      c.requestDataStream.Named config serviceType name ∧
      c.responseDataStream.Named config serviceType name

section

variable (config : TopicsConfig) (name : String) (language : Language)

lemma named_publisher : (Endpoint.publisher (.create config name language)).Named config name :=
  ⟨rfl, rfl, rfl⟩

lemma named_subscriber : (Endpoint.subscriber (.create config name language)).Named config name :=
  ⟨rfl, rfl⟩

lemma named_client (sequenceId : Int64) :
    (Endpoint.client (.create config name language sequenceId)).Named config name :=
  ⟨rfl, ⟨rfl, rfl⟩, rfl, rfl⟩

lemma named_service (sequenceId : Int64) :
    (Endpoint.service (.create config name language sequenceId)).Named config name :=
  ⟨rfl, ⟨rfl, rfl⟩, rfl, rfl⟩

end

/-! ## Senders -/

/-- The packets that a publisher, a client or a service of this name sends. -/
inductive Endpoint.Sends (N : NanoCbor) : Endpoint → Packet → Prop
  | push {p : DesertPublisher} {M : MessageMembers} {msg : Msg M} {packet : Packet}
      (h : p.push N msg = .ok (some packet)) : Endpoint.Sends N (.publisher p) packet
  | sendRequest {c : DesertClient} {M : MessageMembers} {req : Msg M} {sequenceId : Int64}
      {packet : Packet} (h : (c.sendRequest N req sequenceId).1 = .ok (some packet)) :
      Endpoint.Sends N (.client c) packet
  | sendResponse {c : DesertService} {M : MessageMembers} {res : Msg M} {sequenceNumber : Int64}
      {packet : Packet} (h : (c.sendResponse N res sequenceNumber).1 = .ok (some packet)) :
      Endpoint.Sends N (.service c) packet

/-- The packets that the entities and the discovery streams of this name send. -/
inductive Sends (N : NanoCbor) (config : TopicsConfig) : String → Packet → Prop
  | entity {endpoint : Endpoint} {name : String} {packet : Packet}
      (hname : endpoint.Named config name) (h : endpoint.Sends N packet) :
      Sends N config name packet
  | beacon {stream : TxStream} {b : Beacon} {packet : Packet}
      (hname : stream.Named config publisherType "/discovery")
      (h : Discovery.sendDiscoveryBeacon N stream b = some packet) :
      Sends N config "/discovery" packet
  | request {stream : TxStream} {packet : Packet}
      (hname : stream.Named config publisherType "/discovery_request")
      (h : Discovery.sendDiscoveryRequest N stream = some packet) :
      Sends N config "/discovery_request" packet

variable {N : NanoCbor} {config : TopicsConfig} {name : String} {packet : Packet}

/-- What `push` enqueues. -/
lemma DesertPublisher.push_ok {p : DesertPublisher} {M : MessageMembers} {msg : Msg M}
    (h : p.push N msg = .ok (some packet)) :
    p.id ≠ 0 ∧ ∃ fields, serialize p.language.typeSupport M msg = .ok fields ∧
      p.dataStream.transmit N none fields = some packet := by
  rw [push] at h
  split_ifs at h with hid
  · cases h
  · cases hser : serialize p.language.typeSupport M msg with
    | error e =>
      rw [hser] at h
      cases h
    | ok fields =>
      rw [hser] at h
      exact ⟨hid, fields, rfl, Except.ok.inj h⟩

/-- An entity sends on a stream of its name, and only if the name is enabled. -/
lemma Endpoint.Sends.transmission {endpoint : Endpoint} (hname : endpoint.Named config name)
    (h : endpoint.Sends N packet) :
    config.getTopicIdentifier name ≠ 0 ∧ ∃ t : Transmission, t.Typed ∧ t.Enqueues N packet ∧
      t.tx.streamIdentifier = config.getTopicIdentifier name := by
  cases h with
  | @push p M msg packet h =>
    obtain ⟨hid, htype, hidentifier⟩ := hname
    obtain ⟨hne, fields, hser, hsent⟩ := DesertPublisher.push_ok h
    refine ⟨hid ▸ hne, ⟨p.dataStream, none, fields⟩, Or.inl htype, ⟨?_, hsent⟩, hidentifier⟩
    exact streamed_language p.language hser
  | @sendRequest c M req sequenceId packet h =>
    obtain ⟨hid, ⟨htype, hidentifier⟩, -⟩ := hname
    obtain ⟨hne, fields, hser, hsent⟩ := DesertClient.sendRequest_ok h
    refine ⟨hid ▸ hne, ⟨c.requestDataStream, some sequenceId.toUInt64, fields⟩,
      Or.inr (Or.inl htype), ⟨?_, hsent⟩, hidentifier⟩
    exact streamed_language c.language hser
  | @sendResponse c M res sequenceNumber packet h =>
    obtain ⟨hid, -, htype, hidentifier⟩ := hname
    obtain ⟨hne, fields, hser, hsent⟩ := DesertService.sendResponse_ok.mp h
    refine ⟨hid ▸ hne, ⟨c.responseDataStream, some c.sequenceId.toUInt64, fields⟩,
      Or.inr (Or.inr htype), ⟨?_, hsent⟩, hidentifier⟩
    exact streamed_language c.language hser

/-- Whatever is sent under a name carries the identifier of the name. -/
lemma Sends.transmission (h : Sends N config name packet) :
    ∃ t : Transmission, t.Typed ∧ t.Enqueues N packet ∧
      t.tx.streamIdentifier = config.getTopicIdentifier name := by
  cases h with
  | entity hname h => exact (h.transmission hname).2
  | @beacon stream b packet hname h =>
    exact ⟨⟨stream, none, Discovery.beaconFields b⟩, Or.inl hname.1,
      ⟨Discovery.streamed_beaconFields b, h⟩, hname.2⟩
  | @request stream packet hname h =>
    exact ⟨⟨stream, none, []⟩, Or.inl hname.1, ⟨by simp, h⟩, hname.2⟩

/-- The stream identifier of a packet. -/
def identifierOf (N : NanoCbor) (packet : Packet) : Option UInt8 :=
  (firstTwo N packet).map fun r => r.2.1

lemma Sends.identifierOf (hN : N.Lawful) (h : Sends N config name packet) :
    identifierOf N packet = some (config.getTopicIdentifier name) := by
  obtain ⟨t, -, hsent, hidentifier⟩ := h.transmission
  obtain ⟨bytes, hfirst⟩ := firstTwo_of_enqueues hN hsent
  rw [RmwDesert.identifierOf, hfirst, ← hidentifier]
  rfl

end RmwDesert
