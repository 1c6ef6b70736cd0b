/-
The node (`DesertNode.cpp`).

A node keeps pointers to its entities, in one list for each kind.  It sends a beacon for every
entity that it adds or removes, and a round of beacons for all of them when a discovery
request arrives.  The pointers are not checked: a beacon of a destroyed entity is a use of a
dangling reference.
-/
import RmwDesert.Entities

namespace RmwDesert

/-- A `DesertNode`.  The thread of a node runs exactly if `/discovery_request` has an
identifier. -/
structure DesertNode where
  /-- `_gid`. -/
  gid : Gid
  /-- `_name`. -/
  name : List UInt8
  /-- `_namespace`. -/
  namespace_ : List UInt8
  /-- `_publishers`, `_subscribers`, `_clients` and `_services`. -/
  pointers : EntityKind → List ℕ
  /-- `_discovery_beacon_data_stream`. -/
  discoveryBeaconDataStream : TxStream
  /-- `_discovery_request_data_stream`. -/
  discoveryRequestDataStream : RxStream

namespace DesertNode

/-- The constructor. -/
def create (config : TopicsConfig) (name namespace_ : List UInt8) (gid : Gid) : DesertNode where
  gid := gid
  name := name
  namespace_ := namespace_
  pointers := fun _ => []
  discoveryBeaconDataStream := .create publisherType (config.getTopicIdentifier "/discovery")
  discoveryRequestDataStream :=
    .create subscriberType (config.getTopicIdentifier "/discovery_request")

/-- The beacon of an entity of the node. -/
def beacon (node : DesertNode) (kind : EntityKind) (gid : Gid) (topicName typeName : List UInt8)
    (disconnect : Bool) : Beacon where
  nodeName := node.name
  nodeNamespace := node.namespace_
  entityType := kind.entityType.toUInt32.toInt32
  entityGid := gid
  topicName := topicName
  typeName := typeName
  disconnect := disconnect

/-- The beacon that announces an entity. -/
def announcement (node : DesertNode) (kind : EntityKind) (e : Entity) : Beacon :=
  node.beacon kind e.gid e.name.toUTF8.data.toList e.getTypeName false

section

variable (N : NanoCbor) (config : TopicsConfig)

/-- What `add_publisher` and its siblings do: the node, and the beacon that is enqueued. -/
def addEntity (kind : EntityKind) (pointer : ℕ) (e : Entity) (node : DesertNode) :
    DesertNode × Option Packet :=
  if config.getTopicIdentifier e.name = 0 then (node, none)
  else
    let node := { node with
      pointers := Function.update node.pointers kind (node.pointers kind ++ [pointer]) }
    if config.getTopicIdentifier "/discovery" = 0 then (node, none)
    else
      (node, Discovery.sendDiscoveryBeacon N node.discoveryBeaconDataStream
        (node.announcement kind e))

/-- What `remove_publisher` and its siblings do.  Without `/discovery` the pointer stays. -/
def removeEntity (kind : EntityKind) (pointer : ℕ) (e : Entity) (node : DesertNode) :
    DesertNode × Option Packet :=
  if config.getTopicIdentifier e.name = 0 then (node, none)
  else if config.getTopicIdentifier "/discovery" = 0 then (node, none)
  else
    ({ node with
        pointers := Function.update node.pointers kind ((node.pointers kind).erase pointer) },
      Discovery.sendDiscoveryBeacon N node.discoveryBeaconDataStream
        (node.beacon kind e.gid [] [] true))

/-- `add_publisher`. -/
def addPublisher := addEntity N config .publisher

/-- `add_subscriber`. -/
def addSubscriber := addEntity N config .subscriber

/-- `add_client`. -/
def addClient := addEntity N config .client

/-- `add_service`. -/
def addService := addEntity N config .service

/-- `remove_publisher`. -/
def removePublisher := removeEntity N config .publisher

/-- `remove_subscriber`. -/
def removeSubscriber := removeEntity N config .subscriber

/-- `remove_client`. -/
def removeClient := removeEntity N config .client

/-- `remove_service`. -/
def removeService := removeEntity N config .service

/-- One of the loops of `publish_all_beacons`: the packets that are enqueued, if any, for
each pointer. -/
def publishBeacons (entities : ℕ → Option Entity) (node : DesertNode) (kind : EntityKind) :
    Except Failure (List (Option Packet)) :=
  (node.pointers kind).mapM fun pointer =>
    match entities pointer with
    | none => .error .dangling
    | some e => .ok (Discovery.sendDiscoveryBeacon N node.discoveryBeaconDataStream
        (node.announcement kind e))

/-- `publish_all_beacons`. -/
def publishAllBeacons (entities : ℕ → Option Entity) (node : DesertNode) :
    Except Failure (List (Option Packet)) := do
  let publishers ← node.publishBeacons N entities .publisher
  let subscribers ← node.publishBeacons N entities .subscriber
  let clients ← node.publishBeacons N entities .client
  let services ← node.publishBeacons N entities .service
  return publishers ++ subscribers ++ clients ++ services

/-- One turn of the loop of `_discovery_request`, after `interpret_packets`.  The buffer of
the stream is not cleared. -/
def discoveryRequest (entities : ℕ → Option Entity) (node : DesertNode) :
    Except Failure (DesertNode × List (Option Packet)) := do
  let (available, stream) ← node.discoveryRequestDataStream.dataAvailable 0
  let node := { node with discoveryRequestDataStream := stream }
  if available then
    let packets ← node.publishAllBeacons N entities
    return (node, packets)
  else return (node, [])

end

/-! ## What keeps its name -/

/-- The streams of the node have the names that discovery uses. -/
structure Named (config : TopicsConfig) (node : DesertNode) : Prop where
  beacon : node.discoveryBeaconDataStream.Named config publisherType "/discovery"
  request : node.discoveryRequestDataStream.Named config subscriberType "/discovery_request"

lemma named_create (config : TopicsConfig) (name namespace_ : List UInt8) (gid : Gid) :
    (create config name namespace_ gid).Named config :=
  ⟨⟨rfl, rfl⟩, rfl, rfl⟩

variable {N : NanoCbor} {config : TopicsConfig} {node : DesertNode}

/-- Adding and removing an entity keeps the streams, and sends at most a beacon, with
discovery enabled. -/
lemma addEntity_spec (hnode : node.Named config) (kind : EntityKind) (pointer : ℕ) (e : Entity) :
    (addEntity N config kind pointer e node).1.Named config ∧
    ∀ packet ∈ (addEntity N config kind pointer e node).2,
      config.getTopicIdentifier "/discovery" ≠ 0 ∧ Sends N config "/discovery" packet := by
  unfold addEntity
  split_ifs with hname hdiscovery
  · exact ⟨hnode, by simp⟩
  · exact ⟨⟨hnode.beacon, hnode.request⟩, by simp⟩
  · exact ⟨⟨hnode.beacon, hnode.request⟩, fun packet h => ⟨hdiscovery, .beacon hnode.beacon h⟩⟩

lemma removeEntity_spec (hnode : node.Named config) (kind : EntityKind) (pointer : ℕ)
    (e : Entity) :
    (removeEntity N config kind pointer e node).1.Named config ∧
    ∀ packet ∈ (removeEntity N config kind pointer e node).2,
      config.getTopicIdentifier "/discovery" ≠ 0 ∧ Sends N config "/discovery" packet := by
  unfold removeEntity
  split_ifs with hname hdiscovery
  · exact ⟨hnode, by simp⟩
  · exact ⟨hnode, by simp⟩
  · exact ⟨⟨hnode.beacon, hnode.request⟩, fun packet h => ⟨hdiscovery, .beacon hnode.beacon h⟩⟩

/-- A packet has arrived on the request stream, or is still in its buffer. -/
def Requested (node : DesertNode) : Prop :=
  node.discoveryRequestDataStream.bufferedPacket ≠ [] ∨
    node.discoveryRequestDataStream.receivedPackets ≠ []

/-- A node sends the beacons of its entities, as far as they fit in a packet. -/
lemma mem_publishAllBeacons {entities : ℕ → Option Entity} {packets : List (Option Packet)}
    (h : node.publishAllBeacons N entities = .ok packets) (packet : Packet) :
    some packet ∈ packets ↔ ∃ kind, ∃ pointer ∈ node.pointers kind, ∃ e ∈ entities pointer,
      Discovery.sendDiscoveryBeacon N node.discoveryBeaconDataStream (node.announcement kind e)
        = some packet := by
  have hkind : ∀ {kind packets}, node.publishBeacons N entities kind = .ok packets →
      (some packet ∈ packets ↔ ∃ pointer ∈ node.pointers kind, ∃ e ∈ entities pointer,
        Discovery.sendDiscoveryBeacon N node.discoveryBeaconDataStream
          (node.announcement kind e) = some packet) := by
    intro kind packets h
    rw [Transition.mem_of_mapM_ok h]
    refine exists_congr fun pointer => and_congr_right fun _ => ?_
    cases entities pointer with
    | none => simp
    | some e => simp
  obtain ⟨publishers, hpublishers, h⟩ := Transition.bind_eq_ok.mp h
  obtain ⟨subscribers, hsubscribers, h⟩ := Transition.bind_eq_ok.mp h
  obtain ⟨clients, hclients, h⟩ := Transition.bind_eq_ok.mp h
  obtain ⟨services, hservices, h⟩ := Transition.bind_eq_ok.mp h
  obtain rfl := Except.ok.inj h
  simp only [List.mem_append, hkind hpublishers, hkind hsubscribers, hkind hclients,
    hkind hservices]
  constructor
  · rintro (((h | h) | h) | h)
    · exact ⟨.publisher, h⟩
    · exact ⟨.subscriber, h⟩
    · exact ⟨.client, h⟩
    · exact ⟨.service, h⟩
  · rintro ⟨kind, h⟩
    cases kind with
    | publisher => exact Or.inl (Or.inl (Or.inl h))
    | subscriber => exact Or.inl (Or.inl (Or.inr h))
    | client => exact Or.inl (Or.inr h)
    | service => exact Or.inr h

/-- A turn of the thread sends the beacons if there is a request. -/
lemma discoveryRequest_spec {entities : ℕ → Option Entity} {node' : DesertNode}
    {packets : List (Option Packet)} (hnode : node.Named config)
    (h : node.discoveryRequest N entities = .ok (node', packets)) :
    node'.Named config ∧ ∀ packet, some packet ∈ packets ↔
      node.Requested ∧ ∃ kind, ∃ pointer ∈ node.pointers kind, ∃ e ∈ entities pointer,
        Discovery.sendDiscoveryBeacon N node.discoveryBeaconDataStream (node.announcement kind e)
          = some packet := by
  obtain ⟨stream, hdata, htype, hidentifier⟩ :=
    RxStream.dataAvailable_zero node.discoveryRequestDataStream
  have hstream : stream.Named config subscriberType "/discovery_request" :=
    ⟨htype.trans hnode.request.1, hidentifier.trans hnode.request.2⟩
  rw [discoveryRequest, hdata] at h
  by_cases hrequested : node.Requested
  · have hdecide : decide (node.discoveryRequestDataStream.bufferedPacket ≠ [] ∨
        node.discoveryRequestDataStream.receivedPackets ≠ []) = true := decide_eq_true hrequested
    simp only [hdecide, bind, Except.bind, if_true] at h
    obtain ⟨all, hall, h⟩ := Transition.bind_eq_ok.mp h
    obtain ⟨rfl, rfl⟩ := Prod.mk.inj (Except.ok.inj h)
    refine ⟨⟨hnode.beacon, hstream⟩, fun packet => ?_⟩
    rw [mem_publishAllBeacons hall]
    exact (and_iff_right hrequested).symm
  · have hdecide : decide (node.discoveryRequestDataStream.bufferedPacket ≠ [] ∨
        node.discoveryRequestDataStream.receivedPackets ≠ []) = false := decide_eq_false hrequested
    simp only [hdecide, bind, Except.bind] at h
    obtain ⟨rfl, rfl⟩ := Prod.mk.inj (Except.ok.inj h)
    exact ⟨⟨hnode.beacon, hstream⟩, fun packet => by simp [hrequested]⟩

/-! ## Rounds of beacons -/

/-- The test of a turn of `_discovery_request`: whether a round of `publish_all_beacons`
starts. -/
def startsRound (node : DesertNode) : Except Failure (Bool × DesertNode) := do
  let (available, stream) ← node.discoveryRequestDataStream.dataAvailable 0
  return (available, { node with discoveryRequestDataStream := stream })

/-- A node, the number of packets delivered to its request stream, and the number of rounds
that it started. -/
structure RoundLog where
  node : DesertNode
  delivered : ℕ
  rounds : ℕ

namespace RoundLog

/-- What happens to the request stream. -/
inductive Event
  /-- `push_packet`, by `interpret_packets`. -/
  | deliver (packet : Fields)
  /-- A turn of the loop of `_discovery_request`. -/
  | turn

/-- The request stream. -/
abbrev stream (s : RoundLog) : RxStream := s.node.discoveryRequestDataStream

/-- One event. -/
def step (s : RoundLog) : Event → Except Failure RoundLog
  | .deliver packet => .ok { s with
      node := { s.node with discoveryRequestDataStream := s.stream.pushPacket packet }
      delivered := s.delivered + 1 }
  | .turn => do
    let (starts, node) ← s.node.startsRound
    return { s with node := node, rounds := if starts then s.rounds + 1 else s.rounds }

/-- The packets that a run delivers. -/
def deliveries (events : List Event) : List Fields :=
  events.filterMap fun
    | .deliver packet => some packet
    | .turn => none

/-- A new node. -/
def initial (config : TopicsConfig) (name namespace_ : List UInt8) (gid : Gid) : RoundLog :=
  ⟨create config name namespace_ gid, 0, 0⟩

/-- A turn with a buffered packet starts a round, and keeps the packet. -/
lemma step_turn_of_buffered {s : RoundLog} (h : s.stream.bufferedPacket ≠ []) :
    s.step .turn = .ok { s with rounds := s.rounds + 1 } := by
  rw [step, startsRound, RxStream.dataAvailable_of_ne_nil h]
  rfl

lemma step_turn_of_nil {s : RoundLog} (hbuffer : s.stream.bufferedPacket = [])
    (hqueue : s.stream.receivedPackets = []) : s.step .turn = .ok s := by
  rw [step, startsRound, RxStream.dataAvailable_nil hbuffer hqueue]
  rfl

lemma step_turn_of_cons {s : RoundLog} (hbuffer : s.stream.bufferedPacket = []) {packet : Fields}
    {queue : List Fields} (hqueue : s.stream.receivedPackets = packet :: queue) :
    s.step .turn = .ok { s with
      node := { s.node with discoveryRequestDataStream := { s.stream with
        bufferedPacket := packet, receivedPackets := queue, bufferedIterator := 0 } }
      rounds := s.rounds + 1 } := by
  rw [step, startsRound, RxStream.dataAvailable_zero_cons hbuffer hqueue]
  rfl

/-! ### Requests without fields -/

/-- Every packet that has not started a round is still queued, and none has fields. -/
structure Inv (s : RoundLog) : Prop where
  buffer : s.stream.bufferedPacket = []
  queue : ∀ p ∈ s.stream.receivedPackets, p = []
  count : s.rounds + s.stream.receivedPackets.length ≤ s.delivered

/-- The event delivers no packet with fields. -/
def Fieldless : RoundLog → Event → Prop
  | _, .deliver packet => packet = []
  | _, .turn => True

lemma length_push_le_succ (packet : Fields) (queue : List Fields) :
    (CircularQueue.push packet queue).length ≤ queue.length + 1 := by
  rw [CircularQueue.push, List.length_append, List.length_singleton]
  split_ifs
  · rw [List.length_tail]
    omega
  · exact le_refl _

lemma Inv.step {s t : RoundLog} {event : Event} (hs : s.Inv) (hevent : s.Fieldless event)
    (h : s.step event = .ok t) : t.Inv := by
  cases event with
  | deliver packet =>
    obtain rfl := Except.ok.inj h
    refine ⟨hs.buffer, fun p hp => ?_, ?_⟩
    · rcases CircularQueue.mem_push hp with hp | rfl
      · exact hs.queue p hp
      · exact hevent
    · have hpush := length_push_le_succ packet s.stream.receivedPackets
      have hcount := hs.count
      show s.rounds + (CircularQueue.push packet s.stream.receivedPackets).length ≤ s.delivered + 1
      omega
  | turn =>
    cases hqueue : s.stream.receivedPackets with
    | nil =>
      rw [step_turn_of_nil hs.buffer hqueue] at h
      obtain rfl := Except.ok.inj h
      exact hs
    | cons p queue =>
      -- a packet without fields leaves the buffer empty
      obtain rfl := hs.queue p (by simp [hqueue])
      rw [step_turn_of_cons hs.buffer hqueue] at h
      obtain rfl := Except.ok.inj h
      have hcount := hs.count
      rw [hqueue, List.length_cons] at hcount
      refine ⟨rfl, fun q hq => hs.queue q (by simp [hqueue, show q ∈ queue from hq]), ?_⟩
      show s.rounds + 1 + queue.length ≤ s.delivered
      omega

lemma everyStep_fieldless {events : List Event} (h : ∀ p ∈ deliveries events, p = [])
    (s : RoundLog) : Transition.EveryStep step Fieldless s events := by
  refine Transition.everyStep_of_forall fun event hevent t => ?_
  cases event with
  | deliver packet => exact h packet (List.mem_filterMap.mpr ⟨_, hevent, rfl⟩)
  | turn => trivial

/-! ### A request with fields -/

/-- Every packet is delivered and meets a turn, and there is one turn more. -/
def eachWithTurn (packets : List Fields) : List Event :=
  packets.flatMap (fun packet => [.deliver packet, .turn]) ++ [.turn]

lemma deliveries_eachWithTurn (packets : List Fields) :
    deliveries (eachWithTurn packets) = packets := by
  induction packets with
  | nil => rfl
  | cons p packets ih =>
    show p :: deliveries (eachWithTurn packets) = p :: packets
    rw [ih]

/-- A delivery and a turn start a round.  Afterwards a packet is buffered if one was before,
or if the new one has fields; otherwise the queue is empty. -/
lemma deliver_turn {s : RoundLog} (packet : Fields)
    (hs : s.stream.bufferedPacket ≠ [] ∨ s.stream.receivedPackets = []) :
    ∃ t, Transition.run step s [.deliver packet, .turn] = .ok t ∧
      t.delivered = s.delivered + 1 ∧ t.rounds = s.rounds + 1 ∧
      (t.stream.bufferedPacket ≠ [] ∨ t.stream.receivedPackets = []) ∧
      (s.stream.bufferedPacket ≠ [] ∨ packet ≠ [] → t.stream.bufferedPacket ≠ []) := by
  -- the state between the two events
  let s₁ : RoundLog := { s with
    node := { s.node with discoveryRequestDataStream := s.stream.pushPacket packet }
    delivered := s.delivered + 1 }
  have hrun : ∀ {t}, s₁.step .turn = .ok t →
      Transition.run step s [.deliver packet, .turn] = .ok t := by
    intro t ht
    show (s₁.step .turn >>= fun t => Except.ok t) = .ok t
    rw [ht]
    rfl
  by_cases hbuffer : s.stream.bufferedPacket = []
  · have hpush : s₁.stream.receivedPackets = [packet] := by
      show CircularQueue.push packet s.stream.receivedPackets = [packet]
      rw [hs.resolve_left (not_not_intro hbuffer)]
      rfl
    have hsame : s₁.stream.bufferedPacket = [] := hbuffer
    exact ⟨_, hrun (step_turn_of_cons hsame hpush), rfl, rfl, Or.inr rfl,
      fun h => h.resolve_left (not_not_intro hbuffer)⟩
  · have hsame : s₁.stream.bufferedPacket ≠ [] := hbuffer
    exact ⟨_, hrun (step_turn_of_buffered hsame), rfl, rfl, Or.inl hbuffer, fun _ => hbuffer⟩

lemma run_eachWithTurn (packets : List Fields) : ∀ {s : RoundLog},
    s.stream.bufferedPacket ≠ [] ∨ s.stream.receivedPackets = [] →
    ∃ t, Transition.run step s (packets.flatMap fun packet => [.deliver packet, .turn]) = .ok t ∧
      t.delivered = s.delivered + packets.length ∧ t.rounds = s.rounds + packets.length ∧
      (s.stream.bufferedPacket ≠ [] ∨ (∃ p ∈ packets, p ≠ []) → t.stream.bufferedPacket ≠ []) := by
  induction packets with
  | nil =>
    intro s _
    exact ⟨s, rfl, rfl, rfl, fun h => h.resolve_right (by simp)⟩
  | cons p packets ih =>
    intro s hs
    obtain ⟨t, ht, hdelivered, hrounds, hready, hbuffer⟩ := deliver_turn p hs
    obtain ⟨u, hu, hdelivered', hrounds', hbuffer'⟩ := ih hready
    refine ⟨u, ?_, ?_, ?_, fun h => hbuffer' ?_⟩
    · rw [List.flatMap_cons, Transition.run_append, ht]
      exact hu
    · rw [hdelivered', hdelivered, List.length_cons]
      omega
    · rw [hrounds', hrounds, List.length_cons]
      omega
    · rcases h with h | ⟨q, hq, hne⟩
      · exact Or.inl (hbuffer (Or.inl h))
      · rcases List.mem_cons.mp hq with rfl | hq
        · exact Or.inl (hbuffer (Or.inr hne))
        · exact Or.inr ⟨q, hq, hne⟩

/-- **One round for each request.**  For the packets delivered to the request stream of a
node, every run starts at most as many rounds as it delivered packets exactly when none of
the packets has fields. -/
theorem one_round_per_request_iff (config : TopicsConfig) (name namespace_ : List UInt8)
    (gid : Gid) (packets : List Fields) :
    (∀ events, deliveries events = packets → ∀ t,
        Transition.run step (initial config name namespace_ gid) events = .ok t →
        t.rounds ≤ t.delivered) ↔
      ∀ p ∈ packets, p = [] := by
  have hfresh : (initial config name namespace_ gid).stream.bufferedPacket = [] ∧
      (initial config name namespace_ gid).stream.receivedPackets = [] := ⟨rfl, rfl⟩
  constructor
  · intro hall p hp
    by_contra hne
    obtain ⟨t, ht, hdelivered, hrounds, hbuffer⟩ := run_eachWithTurn packets (Or.inr hfresh.2)
    -- the packet stays buffered, and the next turn starts one round more
    have hmore : Transition.run step (initial config name namespace_ gid) (eachWithTurn packets)
        = .ok { t with rounds := t.rounds + 1 } := by
      rw [eachWithTurn, Transition.run_append, ht]
      simp only [Transition.run, bind, Except.bind]
      rw [step_turn_of_buffered (hbuffer (Or.inr ⟨p, hp, hne⟩))]
    have hle := hall _ (deliveries_eachWithTurn packets) _ hmore
    have hzero : (initial config name namespace_ gid).rounds = 0 ∧
        (initial config name namespace_ gid).delivered = 0 := ⟨rfl, rfl⟩
    simp only [hdelivered, hrounds, hzero] at hle
    omega
  · rintro hempty events rfl t hrun
    have hstart : (initial config name namespace_ gid).Inv :=
      ⟨hfresh.1, by simp [hfresh.2], le_refl 0⟩
    have hend : t.Inv := Transition.run_invariant (fun hs hevent h => hs.step hevent h) hstart
      (everyStep_fieldless hempty _) hrun
    exact (Nat.le_add_right _ _).trans hend.count

/-- A new node with discovery. -/
def discoverable : RoundLog :=
  initial (.loadConfiguration [("/discovery", 1), ("/discovery_request", 2)]) [0x6E] [0x2F]
    (.replicate rmwGidStorageSize 1)

/-- One request with a field, and three turns. -/
theorem one_request_starts_three_rounds :
    ∃ t, Transition.run step discoverable [.deliver [.uint 1], .turn, .turn, .turn] = .ok t ∧
      t.delivered = 1 ∧ t.rounds = 3 :=
  ⟨_, rfl, rfl, rfl⟩

end RoundLog

end DesertNode
end RmwDesert
