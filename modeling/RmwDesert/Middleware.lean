/-
Runs of the middleware (`init.cpp` and `rmw.cpp`).

The operations of a process create and destroy nodes and entities, publish, send requests and
responses, and answer discovery requests; what they put on the transmit queue is recorded.
The rule that an identifier of 0 disables a name is checked by each operation for itself.  The
main result, `silent_iff`, says which steps put a packet with identifier 0 on the queue.
-/
import Mathlib.Data.List.ReduceOption
import RmwDesert.DesertNode

namespace RmwDesert

open InterpretPackets MessageSerialization
open TcpDaemon (maxPacketLength)

/-- The constructor of the entity, by kind. -/
def Endpoint.create (config : TopicsConfig) (name : String) (language : Language)
    (sequenceId : Int64) : EntityKind → Endpoint
  | .publisher => publisher (.create config name language)
  | .subscriber => subscriber (.create config name language)
  | .client => client (.create config name language sequenceId)
  | .service => service (.create config name language sequenceId)

/-- A change of the reception stream of the entity. -/
def Endpoint.mapStream (f : RxStream → RxStream) : Endpoint → Endpoint
  | publisher p => publisher p
  | subscriber s => subscriber { s with dataStream := f s.dataStream }
  | client c => client { c with responseDataStream := f c.responseDataStream }
  | service c => service { c with requestDataStream := f c.requestDataStream }

/-- `rmw_take_request`: a poll, and a read if it returns true. -/
def DesertService.takeRequest (initial : (M : MessageMembers) → Msg M) {M : MessageMembers}
    (req : Msg M) (c : DesertService) : Except Failure DesertService := do
  let (available, c) ← c.hasData
  if available then
    let (_, c) ← c.readRequest initial req
    return c
  else return c

/-- A process: its objects, by address, and the packets that were put on the transmit
queue. -/
structure Middleware where
  nodes : ℕ → Option DesertNode
  entities : ℕ → Option Entity
  txPackets : List Packet

namespace Middleware

/-- The process before `rmw_init`. -/
def initial : Middleware := ⟨fun _ => none, fun _ => none, []⟩

/-- The operations. -/
inductive Event
  /-- `rmw_init`, which starts the discovery thread. -/
  | init
  /-- `rmw_create_node`. -/
  | createNode (node : ℕ) (name namespace_ : List UInt8) (gid : Gid)
  /-- `rmw_destroy_node`. -/
  | destroyNode (node : ℕ)
  /-- `rmw_create_publisher`, `rmw_create_subscription`, `rmw_create_client` and
  `rmw_create_service`, with what the constructor reads. -/
  | create (kind : EntityKind) (node pointer : ℕ) (name : String) (gid : Gid)
      (messageNamespace messageName : List UInt8) (language : Language) (sequenceId : Int64)
  /-- `rmw_destroy_publisher`, `rmw_destroy_subscription`, `rmw_destroy_client` and
  `rmw_destroy_service`. -/
  | destroy (kind : EntityKind) (node pointer : ℕ)
  /-- `rmw_publish`. -/
  | publish (pointer : ℕ) {M : MessageMembers} (msg : Msg M)
  /-- `rmw_send_request`, with the sequence id that it draws. -/
  | sendRequest (pointer : ℕ) {M : MessageMembers} (req : Msg M) (sequenceId : Int64)
  /-- `rmw_take_request`, which determines the id of the responses. -/
  | takeRequest (pointer : ℕ) (initial : (M : MessageMembers) → Msg M) {M : MessageMembers}
      (req : Msg M)
  /-- `rmw_send_response`. -/
  | sendResponse (pointer : ℕ) {M : MessageMembers} (res : Msg M) (sequenceNumber : Int64)
  /-- A call of `interpret_packets` by anyone. -/
  | interpret (fuel : ℕ) (packets : List Packet)
  /-- A turn of the thread of a node. -/
  | discoveryRequest (node : ℕ)

/-- The object at an address. -/
def deref {α : Type} : Option α → Except Failure α
  | some x => .ok x
  | none => .error .dangling

section

variable (N : NanoCbor) (config : TopicsConfig)

/-- The addition of an entity to a node, by kind. -/
def add : EntityKind → ℕ → Entity → DesertNode → DesertNode × Option Packet
  | .publisher => DesertNode.addPublisher N config
  | .subscriber => DesertNode.addSubscriber N config
  | .client => DesertNode.addClient N config
  | .service => DesertNode.addService N config

/-- The removal of an entity from a node, by kind. -/
def remove : EntityKind → ℕ → Entity → DesertNode → DesertNode × Option Packet
  | .publisher => DesertNode.removePublisher N config
  | .subscriber => DesertNode.removeSubscriber N config
  | .client => DesertNode.removeClient N config
  | .service => DesertNode.removeService N config

/-- What an operation does to the objects, and the packets that it enqueues. -/
def effect (s : Middleware) : Event → Except Failure (Middleware × List (Option Packet))
  | .init =>
    let stream := TxStream.create publisherType (config.getTopicIdentifier "/discovery_request")
    .ok (s, [Discovery.sendDiscoveryRequest N stream])
  | .createNode node name namespace_ gid =>
    let nd := DesertNode.create config name namespace_ gid
    .ok ({ s with nodes := Function.update s.nodes node (some nd) }, [])
  | .destroyNode node => .ok ({ s with nodes := Function.update s.nodes node none }, [])
  | .create kind node pointer name gid messageNamespace messageName language sequenceId =>
    -- client applications are not allowed to use the names of discovery
    if name = "/discovery" ∨ name = "/discovery_request" then .ok (s, [])
    else do
      let nd ← deref (s.nodes node)
      let e : Entity := ⟨name, gid, messageNamespace, messageName,
        .create config name language sequenceId kind⟩
      let (nd, packet) := add N config kind pointer e nd
      return ({ s with nodes := Function.update s.nodes node (some nd),
                       entities := Function.update s.entities pointer (some e) }, [packet])
  | .destroy kind node pointer => do
    let nd ← deref (s.nodes node)
    let e ← deref (s.entities pointer)
    let (nd, packet) := remove N config kind pointer e nd
    return ({ s with nodes := Function.update s.nodes node (some nd),
                     entities := Function.update s.entities pointer none }, [packet])
  | .publish pointer msg => do
    let e ← deref (s.entities pointer)
    match e.endpoint with
    | .publisher p =>
      let packet ← p.push N msg
      return (s, [packet])
    | _ => throw .badCast
  | .sendRequest pointer req sequenceId => do
    let e ← deref (s.entities pointer)
    match e.endpoint with
    | .client c =>
      let (packet, c) := c.sendRequest N req sequenceId
      let packet ← packet
      let e := { e with endpoint := .client c }
      return ({ s with entities := Function.update s.entities pointer (some e) }, [packet])
    | _ => throw .badCast
  | .takeRequest pointer initial req => do
    let e ← deref (s.entities pointer)
    match e.endpoint with
    | .service c =>
      let c ← c.takeRequest initial req
      let e := { e with endpoint := .service c }
      return ({ s with entities := Function.update s.entities pointer (some e) }, [])
    | _ => throw .badCast
  | .sendResponse pointer res sequenceNumber => do
    let e ← deref (s.entities pointer)
    match e.endpoint with
    | .service c =>
      let packet ← (c.sendResponse N res sequenceNumber).1
      return (s, [packet])
    | _ => throw .badCast
  | .interpret fuel packets => do
    -- by `interpretPackets_eq`; the stream of the discovery thread is always listening
    let (ds, _) ← dispatched N config fuel true packets
    let deliver (stream : RxStream) := stream.pushAll (ds.filterMap (accepted stream))
    return ({ s with
      nodes := fun node => (s.nodes node).map fun nd =>
        { nd with discoveryRequestDataStream := deliver nd.discoveryRequestDataStream }
      entities := fun pointer => (s.entities pointer).map fun e =>
        { e with endpoint := e.endpoint.mapStream deliver } }, [])
  | .discoveryRequest node =>
    if config.getTopicIdentifier "/discovery_request" = 0 then .ok (s, [])
    else do
      let nd ← deref (s.nodes node)
      let (nd, packets) ← nd.discoveryRequest N s.entities
      return ({ s with nodes := Function.update s.nodes node (some nd) }, packets)

/-- One operation. -/
def step (s : Middleware) (event : Event) : Except Failure Middleware := do
  let (t, packets) ← effect N config s event
  return { t with txPackets := s.txPackets ++ packets.reduceOption }

/-- The beacon fits in a packet. -/
def Fits (stream : TxStream) (b : Beacon) : Prop :=
  (N.encode (stream.header none ++ Discovery.beaconFields b)).length ≤ maxPacketLength

instance (stream : TxStream) (b : Beacon) : Decidable (Fits N stream b) :=
  inferInstanceAs (Decidable (_ ≤ _))

/-- The condition on a step that enqueues no packet with identifier 0.  The discovery thread
needs `/discovery_request`; a node that answers a request needs `/discovery`, unless it has no
entity whose beacon fits. -/
def Silent (s : Middleware) : Event → Prop
  | .init => config.getTopicIdentifier "/discovery_request" ≠ 0
  | .discoveryRequest node =>
    config.getTopicIdentifier "/discovery_request" ≠ 0 →
    config.getTopicIdentifier "/discovery" = 0 → ∀ nd ∈ s.nodes node, nd.Requested →
    ∀ kind, ∀ pointer ∈ nd.pointers kind, ∀ e ∈ s.entities pointer,
      ¬ Fits N nd.discoveryBeaconDataStream (nd.announcement kind e)
  | _ => True

end

variable {N : NanoCbor} {config : TopicsConfig} {s t : Middleware}

/-! ## The names of the streams -/

/-- Every object has the streams of its name. -/
structure Inv (config : TopicsConfig) (s : Middleware) : Prop where
  nodes : ∀ {node nd}, s.nodes node = some nd → nd.Named config
  entities : ∀ {pointer e}, s.entities pointer = some e → e.endpoint.Named config e.name

lemma inv_initial (config : TopicsConfig) : Inv config initial := ⟨nofun, nofun⟩

lemma Inv.setNode (hs : Inv config s) {nd? : Option DesertNode}
    (hnd : ∀ nd ∈ nd?, nd.Named config) (node : ℕ) :
    Inv config { s with nodes := Function.update s.nodes node nd? } := by
  refine ⟨fun {i nd} h => ?_, hs.entities⟩
  change Function.update s.nodes node nd? i = some nd at h
  by_cases hi : i = node
  · subst hi
    rw [Function.update_self] at h
    exact hnd nd h
  · rw [Function.update_of_ne hi] at h
    exact hs.nodes h

lemma Inv.setEntity (hs : Inv config s) {e? : Option Entity}
    (he : ∀ e ∈ e?, e.endpoint.Named config e.name) (pointer : ℕ) :
    Inv config { s with entities := Function.update s.entities pointer e? } := by
  refine ⟨hs.nodes, fun {i e} h => ?_⟩
  change Function.update s.entities pointer e? i = some e at h
  by_cases hi : i = pointer
  · subst hi
    rw [Function.update_self] at h
    exact he e h
  · rw [Function.update_of_ne hi] at h
    exact hs.entities h

lemma named_create (config : TopicsConfig) (name : String) (language : Language)
    (sequenceId : Int64) (kind : EntityKind) :
    (Endpoint.create config name language sequenceId kind).Named config name := by
  cases kind with
  | publisher => exact named_publisher config name language
  | subscriber => exact named_subscriber config name language
  | client => exact named_client config name language sequenceId
  | service => exact named_service config name language sequenceId

/-- A stream keeps its type and identifier when packets arrive. -/
lemma named_pushAll {stream : RxStream} {streamType : UInt8} {name : String}
    (h : stream.Named config streamType name) (packets : List Fields) :
    (stream.pushAll packets).Named config streamType name := by
  induction packets generalizing stream with
  | nil => exact h
  | cons packet packets ih =>
    have hpushed : (stream.pushPacket packet).Named config streamType name := h
    exact ih hpushed

lemma named_mapStream {endpoint : Endpoint} {name : String} (h : endpoint.Named config name)
    (ds : List Interpreted) :
    (endpoint.mapStream fun stream => stream.pushAll (ds.filterMap (accepted stream))).Named
      config name := by
  cases endpoint with
  | publisher p => exact h
  | subscriber s => exact named_pushAll h _
  | client c => exact ⟨h.1, h.2.1, named_pushAll h.2.2 _⟩
  | service c => exact ⟨h.1, named_pushAll h.2.1 _, h.2.2⟩

/-- A client keeps its streams when it sends. -/
lemma named_sendRequest {c : DesertClient} {name : String}
    (h : (Endpoint.client c).Named config name) {M : MessageMembers} (req : Msg M)
    (sequenceId : Int64) :
    (Endpoint.client (c.sendRequest N req sequenceId).2).Named config name := by
  unfold DesertClient.sendRequest
  split_ifs
  · exact h
  · exact h

/-- A service keeps its streams when it takes a request. -/
lemma named_takeRequest {c c' : DesertService} {name : String}
    (hname : (Endpoint.service c).Named config name) {initial : (M : MessageMembers) → Msg M}
    {M : MessageMembers} {req : Msg M} (h : c.takeRequest initial req = .ok c') :
    (Endpoint.service c').Named config name := by
  obtain ⟨hid, hrequest, hresponse⟩ := hname
  obtain ⟨⟨available, c₁⟩, hdata, h⟩ := Transition.bind_eq_ok.mp h
  obtain ⟨⟨available', stream⟩, hpoll, hdata⟩ := Transition.bind_eq_ok.mp hdata
  obtain ⟨stream', hpoll', htype, hidentifier⟩ := RxStream.dataAvailable_zero c.requestDataStream
  obtain ⟨-, rfl⟩ := Prod.mk.inj (Except.ok.inj (hpoll.symm.trans hpoll'))
  obtain ⟨rfl, rfl⟩ := Prod.mk.inj (Except.ok.inj hdata)
  have hpolled : stream.Named config serviceType name :=
    ⟨htype.trans hrequest.1, hidentifier.trans hrequest.2⟩
  simp only at h
  split_ifs at h
  · obtain ⟨⟨⟨n, msg⟩, c₂⟩, hread, h⟩ := Transition.bind_eq_ok.mp h
    obtain rfl := Except.ok.inj h
    obtain ⟨-, hid', -, htx, -, -, htype', hidentifier'⟩ := DesertService.readRequest_ok hread
    exact ⟨hid'.trans hid, ⟨htype'.trans hpolled.1, hidentifier'.trans hpolled.2⟩, htx ▸ hresponse⟩
  · obtain rfl := Except.ok.inj h
    exact ⟨hid, hpolled, hresponse⟩

/-! ## What a step enqueues -/

lemma identifierOf_ne_zero (hN : N.Lawful) {name : String} {packet : Packet}
    (h : Sends N config name packet) (hname : config.getTopicIdentifier name ≠ 0) :
    identifierOf N packet ≠ some 0 := by
  rw [h.identifierOf hN]
  exact fun hzero => hname (Option.some.inj hzero)

lemma deref_eq_ok {α : Type} {x : Option α} {y : α} (h : deref x = .ok y) : x = some y := by
  cases x with
  | none => cases h
  | some x => rw [Except.ok.inj h]

/-- The packets of a step have identifiers other than 0. -/
def Enabled (N : NanoCbor) (packets : List (Option Packet)) : Prop :=
  ∀ packet, some packet ∈ packets → identifierOf N packet ≠ some 0

lemma enabled_nil : Enabled N [] := nofun

lemma enabled_singleton {packet? : Option Packet} :
    Enabled N [packet?] ↔ ∀ packet ∈ packet?, identifierOf N packet ≠ some 0 := by
  simp [Enabled, eq_comm]

/-- What an entity sends has the identifier of an enabled name. -/
lemma enabled_of_sends (hN : N.Lawful) {endpoint : Endpoint} {name : String}
    (hname : endpoint.Named config name) {packet? : Option Packet}
    (h : ∀ packet, packet? = some packet → endpoint.Sends N packet) : Enabled N [packet?] := by
  refine enabled_singleton.mpr fun packet hpacket => ?_
  have hsends := h packet hpacket
  exact identifierOf_ne_zero hN (.entity hname hsends) (hsends.transmission hname).1

/-- What a node sends under `/discovery`, if that name is enabled. -/
lemma enabled_of_discovery (hN : N.Lawful) {packet? : Option Packet}
    (h : ∀ packet ∈ packet?, config.getTopicIdentifier "/discovery" ≠ 0 ∧
      Sends N config "/discovery" packet) : Enabled N [packet?] := by
  refine enabled_singleton.mpr fun packet hpacket => ?_
  obtain ⟨hdiscovery, hsends⟩ := h packet hpacket
  exact identifierOf_ne_zero hN hsends hdiscovery

lemma add_eq (kind : EntityKind) : add N config kind = DesertNode.addEntity N config kind := by
  cases kind <;> rfl

lemma remove_eq (kind : EntityKind) :
    remove N config kind = DesertNode.removeEntity N config kind := by
  cases kind <;> rfl

lemma add_spec (hN : N.Lawful) {nd : DesertNode} (hnd : nd.Named config) (kind : EntityKind)
    (pointer : ℕ) (e : Entity) :
    (add N config kind pointer e nd).1.Named config ∧
      Enabled N [(add N config kind pointer e nd).2] := by
  rw [add_eq]
  obtain ⟨hnamed, hsent⟩ := DesertNode.addEntity_spec (N := N) hnd kind pointer e
  exact ⟨hnamed, enabled_of_discovery hN hsent⟩

lemma remove_spec (hN : N.Lawful) {nd : DesertNode} (hnd : nd.Named config) (kind : EntityKind)
    (pointer : ℕ) (e : Entity) :
    (remove N config kind pointer e nd).1.Named config ∧
      Enabled N [(remove N config kind pointer e nd).2] := by
  rw [remove_eq]
  obtain ⟨hnamed, hsent⟩ := DesertNode.removeEntity_spec (N := N) hnd kind pointer e
  exact ⟨hnamed, enabled_of_discovery hN hsent⟩

/-- The discovery thread sends its request. -/
lemma enabled_init (hN : N.Lawful) (hcompact : N.Compact) :
    Enabled N [Discovery.sendDiscoveryRequest N
        (.create publisherType (config.getTopicIdentifier "/discovery_request"))] ↔
      config.getTopicIdentifier "/discovery_request" ≠ 0 := by
  let stream := TxStream.create publisherType (config.getTopicIdentifier "/discovery_request")
  have hfits : (N.encode (stream.header none ++ [])).length ≤ maxPacketLength := by
    have htype := hcompact stream.streamType.toUInt64
    have hidentifier := hcompact stream.streamIdentifier.toUInt64
    have hencode : N.encode (stream.header none ++ [])
        = N.fmtUint stream.streamType.toUInt64 ++ N.fmtUint stream.streamIdentifier.toUInt64 := by
      simp only [TxStream.header, Option.toList_none, List.map_nil, List.append_nil,
        NanoCbor.encode_cons, NanoCbor.encode_nil]
      rfl
    rw [hencode, List.length_append, maxPacketLength]
    omega
  have hsent : Discovery.sendDiscoveryRequest N stream
      = some (N.encode (stream.header none ++ [])) := by
    rw [Discovery.sendDiscoveryRequest, TxStream.transmit_eq, if_pos hfits]
  have hsends : Sends N config "/discovery_request" (N.encode (stream.header none ++ [])) :=
    .request ⟨rfl, rfl⟩ hsent
  rw [enabled_singleton, hsent]
  constructor
  · intro h hzero
    exact h _ rfl (by rw [hsends.identifierOf hN, hzero])
  · rintro hne packet ⟨⟩
    exact identifierOf_ne_zero hN hsends hne

/-- A node answers a request with beacons. -/
lemma enabled_discoveryRequest (hN : N.Lawful) {nd nd' : DesertNode} (hnd : nd.Named config)
    {packets : List (Option Packet)}
    (h : nd.discoveryRequest N s.entities = .ok (nd', packets)) :
    Enabled N packets ↔ (config.getTopicIdentifier "/discovery" = 0 → nd.Requested →
      ∀ kind, ∀ pointer ∈ nd.pointers kind, ∀ e ∈ s.entities pointer,
        ¬ Fits N nd.discoveryBeaconDataStream (nd.announcement kind e)) := by
  obtain ⟨-, hmem⟩ := DesertNode.discoveryRequest_spec hnd h
  have hsent : ∀ b : Beacon, Discovery.sendDiscoveryBeacon N nd.discoveryBeaconDataStream b
      = if Fits N nd.discoveryBeaconDataStream b then
          some (N.encode (nd.discoveryBeaconDataStream.header none ++ Discovery.beaconFields b))
        else none :=
    fun b => TxStream.transmit_eq N none (Discovery.beaconFields b) nd.discoveryBeaconDataStream
  constructor
  · intro henabled hdiscovery hrequested kind pointer hpointer e he hfits
    have hbeacon := hsent (nd.announcement kind e)
    rw [if_pos hfits] at hbeacon
    have hsends : Sends N config "/discovery" _ := .beacon hnd.beacon hbeacon
    refine henabled _ ((hmem _).mpr ⟨hrequested, kind, pointer, hpointer, e, he, hbeacon⟩) ?_
    rw [hsends.identifierOf hN, hdiscovery]
  · intro hnone packet hpacket
    obtain ⟨hrequested, kind, pointer, hpointer, e, he, hbeacon⟩ := (hmem packet).mp hpacket
    refine identifierOf_ne_zero hN (.beacon hnd.beacon hbeacon) fun hdiscovery => ?_
    rw [hsent, if_neg (hnone hdiscovery hrequested kind pointer hpointer e he)] at hbeacon
    cases hbeacon

/-- What an operation does: the objects keep their names, and the packets that it enqueues
have identifiers other than 0 exactly under the condition. -/
lemma effect_spec (hN : N.Lawful) (hcompact : N.Compact) (hs : Inv config s) {event : Event}
    {packets : List (Option Packet)} (h : effect N config s event = .ok (t, packets)) :
    Inv config t ∧ t.txPackets = s.txPackets ∧
      (Enabled N packets ↔ Silent N config s event) := by
  cases event with
  | init =>
    obtain ⟨rfl, rfl⟩ := Prod.mk.inj (Except.ok.inj h)
    exact ⟨hs, rfl, enabled_init hN hcompact⟩
  | createNode node name namespace_ gid =>
    obtain ⟨rfl, rfl⟩ := Prod.mk.inj (Except.ok.inj h)
    refine ⟨hs.setNode ?_ node, rfl, iff_of_true enabled_nil trivial⟩
    rintro nd ⟨⟩
    exact DesertNode.named_create config name namespace_ gid
  | destroyNode node =>
    obtain ⟨rfl, rfl⟩ := Prod.mk.inj (Except.ok.inj h)
    exact ⟨hs.setNode (by simp) node, rfl, iff_of_true enabled_nil trivial⟩
  | create kind node pointer name gid messageNamespace messageName language sequenceId =>
    rw [effect] at h
    split_ifs at h with hreserved
    · obtain ⟨rfl, rfl⟩ := Prod.mk.inj (Except.ok.inj h)
      exact ⟨hs, rfl, iff_of_true enabled_nil trivial⟩
    · obtain ⟨nd, hnd, h⟩ := Transition.bind_eq_ok.mp h
      obtain ⟨rfl, rfl⟩ := Prod.mk.inj (Except.ok.inj h)
      have hspec := add_spec hN (hs.nodes (deref_eq_ok hnd)) kind pointer ⟨name, gid,
        messageNamespace, messageName, .create config name language sequenceId kind⟩
      refine ⟨(hs.setNode ?_ node).setEntity ?_ pointer, rfl, iff_of_true hspec.2 trivial⟩
      · rintro nd' ⟨⟩
        exact hspec.1
      · rintro e ⟨⟩
        exact named_create config name language sequenceId kind
  | destroy kind node pointer =>
    obtain ⟨nd, hnd, h⟩ := Transition.bind_eq_ok.mp h
    obtain ⟨e, he, h⟩ := Transition.bind_eq_ok.mp h
    obtain ⟨rfl, rfl⟩ := Prod.mk.inj (Except.ok.inj h)
    have hspec := remove_spec hN (hs.nodes (deref_eq_ok hnd)) kind pointer e
    refine ⟨(hs.setNode ?_ node).setEntity (by simp) pointer, rfl, iff_of_true hspec.2 trivial⟩
    rintro nd' ⟨⟩
    exact hspec.1
  | publish pointer msg =>
    obtain ⟨e, he, h⟩ := Transition.bind_eq_ok.mp h
    have hnamed := hs.entities (deref_eq_ok he)
    split at h
    · rename_i p hendpoint
      obtain ⟨packet, hpush, h⟩ := Transition.bind_eq_ok.mp h
      obtain ⟨rfl, rfl⟩ := Prod.mk.inj (Except.ok.inj h)
      rw [hendpoint] at hnamed
      refine ⟨hs, rfl, iff_of_true (enabled_of_sends hN hnamed ?_) trivial⟩
      rintro packet rfl
      exact .push hpush
    · cases h
  | sendRequest pointer req sequenceId =>
    obtain ⟨e, he, h⟩ := Transition.bind_eq_ok.mp h
    have hnamed := hs.entities (deref_eq_ok he)
    split at h
    · rename_i c hendpoint
      obtain ⟨packet, hsend, h⟩ := Transition.bind_eq_ok.mp h
      obtain ⟨rfl, rfl⟩ := Prod.mk.inj (Except.ok.inj h)
      rw [hendpoint] at hnamed
      refine ⟨hs.setEntity ?_ pointer, rfl, iff_of_true (enabled_of_sends hN hnamed ?_) trivial⟩
      · rintro e' ⟨⟩
        exact named_sendRequest hnamed req sequenceId
      · rintro packet rfl
        exact .sendRequest hsend
    · cases h
  | takeRequest pointer initial req =>
    obtain ⟨e, he, h⟩ := Transition.bind_eq_ok.mp h
    have hnamed := hs.entities (deref_eq_ok he)
    split at h
    · rename_i c hendpoint
      obtain ⟨c', htake, h⟩ := Transition.bind_eq_ok.mp h
      obtain ⟨rfl, rfl⟩ := Prod.mk.inj (Except.ok.inj h)
      rw [hendpoint] at hnamed
      refine ⟨hs.setEntity ?_ pointer, rfl, iff_of_true enabled_nil trivial⟩
      rintro e' ⟨⟩
      exact named_takeRequest hnamed htake
    · cases h
  | sendResponse pointer res sequenceNumber =>
    obtain ⟨e, he, h⟩ := Transition.bind_eq_ok.mp h
    have hnamed := hs.entities (deref_eq_ok he)
    split at h
    · rename_i c hendpoint
      obtain ⟨packet, hsend, h⟩ := Transition.bind_eq_ok.mp h
      obtain ⟨rfl, rfl⟩ := Prod.mk.inj (Except.ok.inj h)
      rw [hendpoint] at hnamed
      refine ⟨hs, rfl, iff_of_true (enabled_of_sends hN hnamed ?_) trivial⟩
      rintro packet rfl
      exact .sendResponse hsend
    · cases h
  | interpret fuel arrived =>
    obtain ⟨⟨ds, rest⟩, -, h⟩ := Transition.bind_eq_ok.mp h
    obtain ⟨rfl, rfl⟩ := Prod.mk.inj (Except.ok.inj h)
    refine ⟨⟨fun {node nd} hnode => ?_, fun {pointer e} hentity => ?_⟩, rfl,
      iff_of_true enabled_nil trivial⟩
    · obtain ⟨nd₀, hnd₀, rfl⟩ := Option.map_eq_some_iff.mp hnode
      have hnamed := hs.nodes hnd₀
      exact ⟨hnamed.beacon, named_pushAll hnamed.request _⟩
    · obtain ⟨e₀, he₀, rfl⟩ := Option.map_eq_some_iff.mp hentity
      exact named_mapStream (hs.entities he₀) ds
  | discoveryRequest node =>
    rw [effect] at h
    split_ifs at h with hthread
    · obtain ⟨rfl, rfl⟩ := Prod.mk.inj (Except.ok.inj h)
      exact ⟨hs, rfl, iff_of_true enabled_nil fun hne => absurd hthread hne⟩
    · obtain ⟨nd, hnd, h⟩ := Transition.bind_eq_ok.mp h
      obtain ⟨⟨nd', packets'⟩, hturn, h⟩ := Transition.bind_eq_ok.mp h
      obtain ⟨rfl, rfl⟩ := Prod.mk.inj (Except.ok.inj h)
      have hnode := deref_eq_ok hnd
      have hnamed := hs.nodes hnode
      refine ⟨hs.setNode ?_ node, rfl, ?_⟩
      · rintro nd' ⟨⟩
        exact (DesertNode.discoveryRequest_spec hnamed hturn).1
      · rw [enabled_discoveryRequest hN hnamed hturn, Silent, hnode]
        simp [hthread]

/-- A step keeps the queue free of packets with identifier 0 exactly under the condition. -/
lemma step_spec (hN : N.Lawful) (hcompact : N.Compact) (hs : Inv config s) {event : Event}
    (hstep : step N config s event = .ok t) :
    Inv config t ∧ ((∀ packet ∈ t.txPackets, identifierOf N packet ≠ some 0) ↔
      (∀ packet ∈ s.txPackets, identifierOf N packet ≠ some 0) ∧ Silent N config s event) := by
  obtain ⟨⟨t', packets⟩, heffect, hstep⟩ := Transition.bind_eq_ok.mp hstep
  obtain rfl := Except.ok.inj hstep
  obtain ⟨hinv, -, henabled⟩ := effect_spec hN hcompact hs heffect
  refine ⟨⟨hinv.nodes, hinv.entities⟩, ?_⟩
  rw [← henabled]
  simp only [List.forall_mem_append, List.reduceOption_mem_iff, Enabled]

/-- **Silence.** No packet with identifier 0 is put on the transmit queue if and only if the
discovery thread is started with `/discovery_request` configured, and no node without
`/discovery` answers a request. -/
theorem silent_iff (hN : N.Lawful) (hcompact : N.Compact) {events : List Event}
    (hrun : Transition.run (step N config) initial events = .ok t) :
    (∀ packet ∈ t.txPackets, identifierOf N packet ≠ some 0) ↔
      Transition.EveryStep (step N config) (Silent N config) initial events := by
  have hstep : ∀ {s a t}, Inv config s → True → step N config s a = .ok t → Inv config t :=
    fun hs _ h => (step_spec hN hcompact hs h).1
  have hgood : ∀ {s a t}, Inv config s → True → step N config s a = .ok t →
      ((∀ packet ∈ t.txPackets, identifierOf N packet ≠ some 0) ↔
        (∀ packet ∈ s.txPackets, identifierOf N packet ≠ some 0) ∧ Silent N config s a) :=
    fun hs _ h => (step_spec hN hcompact hs h).2
  have hiff := Transition.run_iff (D := fun _ _ => True) hstep hgood (inv_initial config)
    (Transition.everyStep_of_forall fun _ _ _ => trivial) hrun
  rw [hiff]
  exact and_iff_right nofun

/-- With discovery configured, a node announces a publisher, which publishes, and answers a
discovery request. -/
def announced : List Event :=
  [.init, .createNode 0 [0x6E] [0x2F] (List.Vector.replicate _ 1),
    .create .publisher 0 1 "/a" (List.Vector.replicate _ 2) [0x6D] [0x54] .cpp 0,
    .publish 1 (M := oneByte) ((7 : UInt8), ()), .interpret 4 [[0x00, 0x02]], .discoveryRequest 0]

theorem silent_announced :
    ∃ t, Transition.run (step NanoCbor.rfc8949
        (.loadConfiguration [("/a", 3), ("/discovery", 1), ("/discovery_request", 2)]))
        initial announced = .ok t ∧
      ∀ packet ∈ t.txPackets, identifierOf NanoCbor.rfc8949 packet ≠ some 0 := by
  obtain ⟨t, hrun⟩ : ∃ t, Transition.run (step NanoCbor.rfc8949
      (.loadConfiguration [("/a", 3), ("/discovery", 1), ("/discovery_request", 2)]))
      initial announced = .ok t := ⟨_, rfl⟩
  refine ⟨t, hrun,
    (silent_iff NanoCbor.rfc8949_lawful NanoCbor.rfc8949_compact hrun).mpr ?_⟩
  refine Transition.everyStep_of_forall fun event hevent s => ?_
  simp only [announced, List.mem_cons, List.not_mem_nil, or_false] at hevent
  rcases hevent with rfl | rfl | rfl | rfl | rfl | rfl
  · exact (by decide : (2 : UInt8) ≠ 0)
  · trivial
  · trivial
  · trivial
  · trivial
  · exact fun _ hzero => absurd hzero (by decide)

/-- Without `/discovery_request`, the discovery thread sends its request under identifier 0;
without `/discovery`, a node answers a request under identifier 0. -/
theorem disabled_discovery_sends :
    (∃ t, Transition.run (step NanoCbor.rfc8949 (.loadConfiguration [("/a", 3)])) initial
        [.init] = .ok t ∧
      ∃ packet ∈ t.txPackets, identifierOf NanoCbor.rfc8949 packet = some 0) ∧
    ∃ t, Transition.run (step NanoCbor.rfc8949
        (.loadConfiguration [("/a", 3), ("/discovery_request", 2)])) initial announced = .ok t ∧
      ∃ packet ∈ t.txPackets, identifierOf NanoCbor.rfc8949 packet = some 0 := by
  refine ⟨⟨_, rfl, [0x00, 0x00], by decide, by decide⟩, ⟨_, rfl, ?_⟩⟩
  exact ⟨[0x00, 0x00, 0x61, 0x6E, 0x61, 0x2F, 0x00, 0x10, 2, 2, 2, 2, 2, 2, 2, 2, 2, 2, 2, 2, 2, 2,
    2, 2, 0x62, 0x2F, 0x61, 0x63, 0x6D, 0x2F, 0x54, 0x00], by decide +kernel, by decide⟩

end Middleware
end RmwDesert
