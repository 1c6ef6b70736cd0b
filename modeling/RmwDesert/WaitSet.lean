/-
Waiting and taking (`rmw_wait`, `rmw_trigger_guard_condition` and the `rmw_take` functions).

The arrays of a wait set hold pointers to entities and guard conditions.  `rmw_wait` asks each of
them in turn and clears the slots of those that are not ready; every question about an entity
dispatches the packets that have been received since the last one, to all streams of the process.
Meanwhile other threads receive packets, dispatch them and trigger guard conditions.

The main result, `Execution.served`, says that packets are taken in order and after a bounded
number of waits.
-/
import RmwDesert.BadPackets
import RmwDesert.Mailbox
import RmwDesert.Readiness

namespace RmwDesert

open InterpretPackets MessageSerialization
open TcpDaemon (maxPacketLength)

namespace Recipient

/-- The entity with another state of its stream. -/
def setStream (rx : RxStream) : Recipient → Recipient
  | subscriber s => .subscriber { s with dataStream := rx }
  | client c => .client { c with responseDataStream := rx }
  | service c => .service { c with requestDataStream := rx }

/-- The entity is not a client, whose polls look for one response. -/
def Unfiltered : Recipient → Prop
  | subscriber _ | service _ => True
  | client _ => False

/-- The packets that wait for the entity, the next one first. -/
def pending (N : NanoCbor) (config : TopicsConfig) (rxPackets : List Packet) (r : Recipient) :
    List Fields :=
  r.stream.held ++ rxPackets.filterMap (taken N config r.stream)

@[simp] lemma stream_setStream (rx : RxStream) (r : Recipient) : (r.setStream rx).stream = rx := by
  cases r <;> rfl

@[simp] lemma unfiltered_setStream (rx : RxStream) (r : Recipient) :
    (r.setStream rx).Unfiltered ↔ r.Unfiltered := by
  cases r <;> rfl

lemma Unfiltered.filter_eq {r : Recipient} (h : r.Unfiltered) : r.filter = 0 := by
  cases r with
  | subscriber _ | service _ => rfl
  | client _ => exact h.elim

end Recipient

/-! ## The process -/

/-- A process: the receive queue of its daemon, its entities in the order of their streams in
`_listening_streams`, and the flags `_has_triggered` of its guard conditions. -/
structure Process where
  rxPackets : List Packet
  entities : List Recipient
  triggered : ℕ → Bool

namespace Process

section

variable (N : NanoCbor) (config : TopicsConfig)

/-- `interpret_packets`. -/
def interpret (s : Process) : Except Failure Process := do
  let (streams, rest) ←
    interpretPackets N config maxPacketLength s.rxPackets (s.entities.map Recipient.stream)
  return { s with
    rxPackets := rest
    entities := List.zipWith Recipient.setStream streams s.entities }

/-- `has_data` of an entity, which interprets packets first. -/
def hasData (pointer : ℕ) (s : Process) : Except Failure (Bool × Process) := do
  let s ← s.interpret N config
  match s.entities[pointer]? with
  | none => throw .outOfBounds
  | some r =>
    let (available, r) ← r.hasData
    return (available, { s with entities := s.entities.set pointer r })

/-- `get_has_triggered` of a guard condition. -/
def getHasTriggered (pointer : ℕ) (s : Process) : Bool × Process :=
  (s.triggered pointer, { s with triggered := Function.update s.triggered pointer false })

/-- `trigger` of a guard condition. -/
def trigger (pointer : ℕ) (s : Process) : Process :=
  { s with triggered := Function.update s.triggered pointer true }

/-- `rmw_take`, `rmw_take_request` or `rmw_take_response`: the packet that is read, if any. -/
def take (initial : (M : MessageMembers) → Msg M) (pointer : ℕ) {M : MessageMembers}
    (dest : Msg M) (s : Process) : Except Failure (Option Fields × Process) := do
  let (available, s) ← s.hasData N config pointer
  if available then
    match s.entities[pointer]? with
    | none => throw .outOfBounds
    | some r =>
      let read ← r.read initial dest
      return (some r.stream.bufferedPacket, { s with entities := s.entities.set pointer read })
  else return (none, s)

/-- `send_request` of a client.  The packet that it enqueues arrives like any other. -/
def sendRequest (pointer : ℕ) {M : MessageMembers} (req : Msg M) (sequenceId : Int64)
    (s : Process) : Process :=
  { s with entities := s.entities.modify pointer (·.sendRequest N req sequenceId) }

end

/-- What other threads do. -/
inductive Background
  /-- A packet is pushed to the receive queue, by the receiver or by `enqueue_packet`. -/
  | arrive (packet : Packet)
  /-- A thread of a node or of the discovery interprets packets. -/
  | interpret
  /-- `rmw_trigger_guard_condition`. -/
  | trigger (pointer : ℕ)
  /-- `rmw_send_request`. -/
  | sendRequest (pointer : ℕ) {M : MessageMembers} (req : Msg M) (sequenceId : Int64)

def background (N : NanoCbor) (config : TopicsConfig) (s : Process) :
    Background → Except Failure Process
  | .arrive packet => .ok { s with rxPackets := s.rxPackets ++ [packet] }
  | .interpret => s.interpret N config
  | .trigger pointer => .ok (s.trigger pointer)
  | .sendRequest pointer req sequenceId => .ok (s.sendRequest N pointer req sequenceId)

end Process

/-! ## The wait set -/

/-- A slot of an array, and what other threads do until it is checked. -/
structure Slot where
  meanwhile : List Process.Background
  pointer : Option ℕ

/-- The arrays that `rmw_wait` is given. -/
structure WaitSet (α : Type) where
  subscriptions : Option (List α)
  clients : Option (List α)
  services : Option (List α)
  guardConditions : Option (List α)
  events : Option (List α)

namespace Process

section

variable (N : NanoCbor) (config : TopicsConfig)

/-- The loop over an array, which clears the slots of those that are not ready. -/
def checkSlots (ready : ℕ → Process → Except Failure (Bool × Process)) :
    List Slot → Process → Except Failure (List (Option ℕ) × Process)
  | [], s => .ok ([], s)
  | slot :: slots, s => do
    let s ← Transition.run (background N config) s slot.meanwhile
    match slot.pointer with
    | none =>
      let (pointers, s) ← checkSlots ready slots s
      return (none :: pointers, s)
    | some pointer =>
      let (available, s) ← ready pointer s
      let (pointers, s) ← checkSlots ready slots s
      return ((if available then some pointer else none) :: pointers, s)

/-- An array that may be missing. -/
def checkArray (ready : ℕ → Process → Except Failure (Bool × Process)) :
    Option (List Slot) → Process → Except Failure (Option (List (Option ℕ)) × Process)
  | none, s => .ok (none, s)
  | some slots, s => do
    let (pointers, s) ← checkSlots N config ready slots s
    return (some pointers, s)

/-- `rmw_wait`. -/
def rmwWait (w : WaitSet Slot) (s : Process) :
    Except Failure (WaitSet (Option ℕ) × Process) := do
  let (subscriptions, s) ← checkArray N config (hasData N config) w.subscriptions s
  let (clients, s) ← checkArray N config (hasData N config) w.clients s
  let (services, s) ← checkArray N config (hasData N config) w.services s
  let (guardConditions, s) ←
    checkArray N config (fun pointer s => .ok (s.getHasTriggered pointer)) w.guardConditions s
  -- no event is ever ready
  let (events, s) ← checkArray N config (fun _ s => .ok (false, s)) w.events s
  return (⟨subscriptions, clients, services, guardConditions, events⟩, s)

end

end Process

/-! ## Runs -/

/-- A process, the packets that the takes of each entity have read, and whether it has been
reported as ready since the last take. -/
structure Execution where
  process : Process
  taken : ℕ → List Fields
  due : ℕ → Bool

namespace Execution

inductive Event
  | other (event : Process.Background)
  /-- `rmw_wait` asks an entity. -/
  | poll (pointer : ℕ)
  /-- `rmw_wait` asks a guard condition. -/
  | check (pointer : ℕ)
  /-- `rmw_take`, `rmw_take_request` or `rmw_take_response`, into a message. -/
  | take (pointer : ℕ) {M : MessageMembers} (dest : Msg M)

section

variable (N : NanoCbor) (config : TopicsConfig) (initial : (M : MessageMembers) → Msg M)

def step (s : Execution) : Event → Except Failure Execution
  | .other event => do
    let process ← s.process.background N config event
    return { s with process := process }
  | .poll pointer => do
    let (available, process) ← s.process.hasData N config pointer
    return { s with process := process, due := Function.update s.due pointer available }
  | .check pointer => .ok { s with process := (s.process.getHasTriggered pointer).2 }
  | .take pointer dest => do
    let (packet, process) ← s.process.take N config initial pointer dest
    return { s with
      process := process
      taken := Function.update s.taken pointer (s.taken pointer ++ packet.toList)
      due := Function.update s.due pointer false }

end

/-! ### What arrives -/

/-- What the events let arrive for a stream. -/
def arrivals (N : NanoCbor) (config : TopicsConfig) (rx : RxStream) (events : List Event) :
    List Fields :=
  events.filterMap fun
    | .other (.arrive packet) => InterpretPackets.taken N config rx packet
    | _ => none

/-- How often `rmw_wait` asks the entity. -/
def polls (pointer : ℕ) (events : List Event) : ℕ :=
  events.countP fun
    | .poll p => p = pointer
    | _ => false

end Execution

/-! ## One entity -/

namespace Recipient

/-- A read clears the buffer. -/
lemma read_ok {initial : (M : MessageMembers) → Msg M} {M : MessageMembers} {dest : Msg M}
    {r r' : Recipient} (h : r.read initial dest = .ok r') :
    r'.stream.bufferedPacket = [] ∧ r'.stream.receivedPackets = r.stream.receivedPackets ∧
      r'.stream.streamType = r.stream.streamType ∧
      r'.stream.streamIdentifier = r.stream.streamIdentifier ∧
      (r'.Unfiltered ↔ r.Unfiltered) := by
  cases r with
  | subscriber s =>
    obtain ⟨⟨msg, s'⟩, hread, h⟩ := Transition.bind_eq_ok.mp h
    obtain ⟨⟨msg', rx⟩, hrx, hread⟩ := Transition.bind_eq_ok.mp hread
    obtain ⟨n, rfl⟩ := advances_deserialize s.language initial M dest _ _ _ hrx
    obtain ⟨-, rfl⟩ := Prod.mk.inj (Except.ok.inj hread)
    obtain rfl := Except.ok.inj h
    exact ⟨rfl, rfl, rfl, rfl, Iff.rfl⟩
  | client c =>
    obtain ⟨⟨msg, c'⟩, hread, h⟩ := Transition.bind_eq_ok.mp h
    obtain ⟨⟨msg', rx⟩, hrx, hread⟩ := Transition.bind_eq_ok.mp hread
    obtain ⟨n, rfl⟩ := advances_deserialize c.language initial M dest _ _ _ hrx
    obtain ⟨-, rfl⟩ := Prod.mk.inj (Except.ok.inj hread)
    obtain rfl := Except.ok.inj h
    exact ⟨rfl, rfl, rfl, rfl, Iff.rfl⟩
  | service c =>
    obtain ⟨⟨⟨n, msg⟩, c'⟩, hread, h⟩ := Transition.bind_eq_ok.mp h
    obtain rfl := Except.ok.inj h
    obtain ⟨-, -, -, -, hbuffer, hqueue, htype, hidentifier⟩ := DesertService.readRequest_ok hread
    exact ⟨hbuffer, hqueue, htype, hidentifier, Iff.rfl⟩

/-- `has_data` of an entity that takes every packet. -/
lemma hasData_ok {r r' : Recipient} {available : Bool} (h : r.hasData = .ok (available, r')) :
    r.stream.dataAvailable r.filter = .ok (available, r'.stream) ∧
      (r'.Unfiltered ↔ r.Unfiltered) := by
  refine ⟨hasData_eq_ok h, ?_⟩
  cases r with
  | subscriber s =>
    obtain ⟨⟨b, s'⟩, -, h⟩ := Transition.bind_eq_ok.mp h
    obtain ⟨-, rfl⟩ := Prod.mk.inj (Except.ok.inj h)
    exact Iff.rfl
  | client c =>
    obtain ⟨⟨b, c'⟩, -, h⟩ := Transition.bind_eq_ok.mp h
    obtain ⟨-, rfl⟩ := Prod.mk.inj (Except.ok.inj h)
    exact Iff.rfl
  | service c =>
    obtain ⟨⟨b, c'⟩, -, h⟩ := Transition.bind_eq_ok.mp h
    obtain ⟨-, rfl⟩ := Prod.mk.inj (Except.ok.inj h)
    exact Iff.rfl

end Recipient

namespace InterpretPackets

variable {N : NanoCbor} {config : TopicsConfig}

/-- The streams of one type and identifier take the same. -/
lemma taken_congr {rx rx' : RxStream} (htype : rx.streamType = rx'.streamType)
    (hidentifier : rx.streamIdentifier = rx'.streamIdentifier) :
    taken N config rx = taken N config rx' := by
  funext packet
  unfold taken accepted
  rw [htype, hidentifier]

/-- A queue without an empty packet is dispatched as a whole. -/
lemma dispatched_taken {listening : Bool} {packets : List Packet} (hne : ∀ p ∈ packets, p ≠ [])
    {ds : List Interpreted} {rest : List Packet}
    (h : dispatched N config maxPacketLength listening packets = .ok (ds, rest)) :
    rest = [] ∧ ∀ rx, ds.filterMap (accepted rx) = packets.filterMap (taken N config rx) := by
  induction packets generalizing ds rest with
  | nil =>
    obtain ⟨rfl, rfl⟩ := Prod.mk.inj (Except.ok.inj h)
    exact ⟨rfl, fun _ => rfl⟩
  | cons packet packets ih =>
    obtain ⟨hpacket, hpackets⟩ := List.forall_mem_cons.mp hne
    obtain ⟨d, hd, ⟨hname, h⟩ | ⟨hname, -, ds', rest', h, hr⟩⟩ :=
      (dispatched_cons_eq_ok hpacket).mp h
    · obtain ⟨hrest, hds⟩ := ih hpackets h
      refine ⟨hrest, fun rx => ?_⟩
      have hnone : taken N config rx packet = none := by
        rw [taken, hd]
        exact if_pos hname
      rw [hds rx, List.filterMap_cons_none hnone]
    · obtain ⟨rfl, rfl⟩ := Prod.mk.inj hr
      obtain ⟨hrest, hds⟩ := ih hpackets h
      refine ⟨hrest, fun rx => ?_⟩
      have hsome : taken N config rx packet = accepted rx d := by
        rw [taken, hd]
        exact if_neg hname
      rw [List.filterMap_cons, List.filterMap_cons, hsome, hds rx]

end InterpretPackets

namespace Process

variable {N : NanoCbor} {config : TopicsConfig} {s t : Process}

/-- `interpret_packets` pushes what is for a stream, to every stream. -/
lemma interpret_ok (hne : ∀ p ∈ s.rxPackets, p ≠ []) (h : s.interpret N config = .ok t) :
    t = { s with
      rxPackets := []
      entities := s.entities.map fun r =>
        r.setStream (r.stream.pushAll (s.rxPackets.filterMap (taken N config r.stream))) } := by
  obtain ⟨⟨streams, rest⟩, hinterpret, h⟩ := Transition.bind_eq_ok.mp h
  obtain rfl := Except.ok.inj h
  obtain ⟨ds, rest', hdispatched, hr⟩ := interpretPackets_eq_ok.mp hinterpret
  obtain ⟨rfl, rfl⟩ := Prod.mk.inj hr
  obtain ⟨rfl, hds⟩ := dispatched_taken hne hdispatched
  have hentities : List.zipWith Recipient.setStream
        ((s.entities.map Recipient.stream).map fun rx => rx.pushAll (ds.filterMap (accepted rx)))
        s.entities
      = s.entities.map fun r =>
        r.setStream (r.stream.pushAll (s.rxPackets.filterMap (taken N config r.stream))) := by
    rw [List.map_map, List.zipWith_map_left, List.zipWith_self]
    simp only [Function.comp_apply, hds]
  rw [hentities]

/-- There is room for what the entity is sent. -/
def Room (N : NanoCbor) (config : TopicsConfig) (pointer : ℕ) (s : Process) : Prop :=
  ∀ r, s.entities[pointer]? = some r →
    r.stream.receivedPackets.length + (s.rxPackets.filterMap (taken N config r.stream)).length
      ≤ maxBufferCapacity

/-- An entity that receives from the same topic as a stream, and the packets that wait for it, the
next one first. -/
structure Awaits (N : NanoCbor) (config : TopicsConfig) (pointer : ℕ) (rx : RxStream)
    (s : Process) (r : Recipient) (packets : List Fields) : Prop where
  entity : s.entities[pointer]? = some r
  unfiltered : r.Unfiltered
  streamType : r.stream.streamType = rx.streamType
  streamIdentifier : r.stream.streamIdentifier = rx.streamIdentifier
  rxPackets_ne : ∀ p ∈ s.rxPackets, p ≠ []
  packets_eq : r.stream.held ++ s.rxPackets.filterMap (taken N config rx) = packets

namespace Awaits

variable {pointer q : ℕ} {rx : RxStream} {r : Recipient} {packets : List Fields}

/-- The packets that have been received come behind those that are held. -/
lemma interpret (h : Awaits N config pointer rx s r packets) (hroom : s.Room N config pointer)
    (hinterpret : s.interpret N config = .ok t) :
    t.rxPackets = [] ∧ ∃ r', Awaits N config pointer rx t r' packets := by
  obtain rfl := interpret_ok h.rxPackets_ne hinterpret
  have htaken : taken N config r.stream = taken N config rx :=
    taken_congr h.streamType h.streamIdentifier
  have hfit := hroom r h.entity
  obtain ⟨kept, hkept, -, hall⟩ := RxStream.held_pushAll (s := r.stream)
    ((Nat.le_add_right _ _).trans hfit) (s.rxPackets.filterMap (taken N config r.stream))
  have hnamed : ∀ packets : List Fields, (r.stream.pushAll packets).streamType = rx.streamType ∧
      (r.stream.pushAll packets).streamIdentifier = rx.streamIdentifier := by
    intro packets
    rw [RxStream.pushAll_eq ((Nat.le_add_right _ _).trans hfit)]
    exact ⟨h.streamType, h.streamIdentifier⟩
  refine ⟨rfl, r.setStream (r.stream.pushAll (s.rxPackets.filterMap (taken N config r.stream))),
    ?_, (Recipient.unfiltered_setStream _ r).mpr h.unfiltered, ?_, ?_, nofun, ?_⟩
  · rw [List.getElem?_map, h.entity]
    rfl
  · rw [Recipient.stream_setStream]
    exact (hnamed _).1
  · rw [Recipient.stream_setStream]
    exact (hnamed _).2
  · rw [Recipient.stream_setStream, hkept, hall hfit, htaken, List.filterMap_nil, List.append_nil]
    exact h.packets_eq

/-- The questions about another entity. -/
lemma hasData_of_ne (h : Awaits N config pointer rx s r packets) (hne : pointer ≠ q)
    (hroom : s.Room N config pointer) {available : Bool}
    (hdata : s.hasData N config q = .ok (available, t)) :
    t.rxPackets = [] ∧ ∃ r', Awaits N config pointer rx t r' packets := by
  obtain ⟨s', hinterpret, hdata⟩ := Transition.bind_eq_ok.mp hdata
  obtain ⟨hempty, r', hr'⟩ := h.interpret hroom hinterpret
  cases hentity : s'.entities[q]? with
  | none =>
    rw [hentity] at hdata
    cases hdata
  | some e =>
    rw [hentity] at hdata
    obtain ⟨⟨b, e'⟩, -, hdata⟩ := Transition.bind_eq_ok.mp hdata
    obtain ⟨rfl, rfl⟩ := Prod.mk.inj (Except.ok.inj hdata)
    refine ⟨hempty, r', ⟨?_, hr'.unfiltered, hr'.streamType, hr'.streamIdentifier,
      hr'.rxPackets_ne, hr'.packets_eq⟩⟩
    rw [List.getElem?_set_ne hne.symm]
    exact hr'.entity

/-- The question about the entity itself: it is reported exactly if a packet waits, which is in
its buffer then. -/
lemma hasData (h : Awaits N config pointer rx s r packets) (hroom : s.Room N config pointer)
    {available : Bool} (hdata : s.hasData N config pointer = .ok (available, t)) :
    t.rxPackets = [] ∧ ∃ r', Awaits N config pointer rx t r' r'.stream.held ∧
      (available = false → packets = [] ∧ r'.stream.held = []) ∧
      (available = true → packets = r'.stream.bufferedPacket :: r'.stream.receivedPackets) := by
  obtain ⟨s', hinterpret, hdata⟩ := Transition.bind_eq_ok.mp hdata
  obtain ⟨hempty, r₁, hr₁⟩ := h.interpret hroom hinterpret
  rw [hr₁.entity] at hdata
  obtain ⟨⟨b, r'⟩, hr, hdata⟩ := Transition.bind_eq_ok.mp hdata
  obtain ⟨rfl, rfl⟩ := Prod.mk.inj (Except.ok.inj hdata)
  obtain ⟨havailable, hunfiltered⟩ := Recipient.hasData_ok hr
  rw [hr₁.unfiltered.filter_eq] at havailable
  obtain ⟨htype, hidentifier, hfalse, htrue⟩ := RxStream.held_dataAvailable havailable
  have hpackets : r₁.stream.held = packets := by
    have heq := hr₁.packets_eq
    rwa [hempty, List.filterMap_nil, List.append_nil] at heq
  rw [hpackets] at hfalse htrue
  refine ⟨hempty, r', ⟨?_, hunfiltered.mpr hr₁.unfiltered, htype.trans hr₁.streamType,
    hidentifier.trans hr₁.streamIdentifier, hr₁.rxPackets_ne, ?_⟩, hfalse, htrue⟩
  · exact List.getElem?_set_self (List.getElem?_eq_some_iff.mp hr₁.entity).1
  · change _ ++ s'.rxPackets.filterMap _ = _
    rw [hempty, List.filterMap_nil, List.append_nil]

/-- A take reads the next packet, if there is one. -/
lemma take (h : Awaits N config pointer rx s r packets) (hroom : s.Room N config pointer)
    {initial : (M : MessageMembers) → Msg M} {M : MessageMembers} {dest : Msg M}
    {packet : Option Fields} (htake : s.take N config initial pointer dest = .ok (packet, t)) :
    ∃ r' rest, Awaits N config pointer rx t r' rest ∧ packets = packet.toList ++ rest ∧
      (packet = none → packets = []) := by
  obtain ⟨⟨available, s'⟩, hdata, htake⟩ := Transition.bind_eq_ok.mp htake
  obtain ⟨hempty, r₁, hr₁, hfalse, htrue⟩ := h.hasData hroom hdata
  cases available with
  | false =>
    obtain ⟨rfl, rfl⟩ := Prod.mk.inj (Except.ok.inj htake)
    obtain ⟨rfl, hheld⟩ := hfalse rfl
    rw [hheld] at hr₁
    exact ⟨r₁, [], hr₁, rfl, fun _ => rfl⟩
  | true =>
    simp only [if_true, hr₁.entity] at htake
    obtain ⟨read, hread, htake⟩ := Transition.bind_eq_ok.mp htake
    obtain ⟨rfl, rfl⟩ := Prod.mk.inj (Except.ok.inj htake)
    obtain ⟨hbuffer, hqueue, htype, hidentifier, hunfiltered⟩ := Recipient.read_ok hread
    refine ⟨read, r₁.stream.receivedPackets, ⟨?_, hunfiltered.mpr hr₁.unfiltered,
      htype.trans hr₁.streamType, hidentifier.trans hr₁.streamIdentifier, hr₁.rxPackets_ne, ?_⟩,
      htrue rfl, nofun⟩
    · exact List.getElem?_set_self (List.getElem?_eq_some_iff.mp hr₁.entity).1
    · change _ ++ s'.rxPackets.filterMap _ = _
      rw [RxStream.held, if_pos hbuffer, hqueue, hempty, List.filterMap_nil, List.append_nil]
      rfl

/-- The takes of another entity. -/
lemma take_of_ne (h : Awaits N config pointer rx s r packets) (hne : pointer ≠ q)
    (hroom : s.Room N config pointer) {initial : (M : MessageMembers) → Msg M}
    {M : MessageMembers} {dest : Msg M} {packet : Option Fields}
    (htake : s.take N config initial q dest = .ok (packet, t)) :
    ∃ r', Awaits N config pointer rx t r' packets := by
  obtain ⟨⟨available, s'⟩, hdata, htake⟩ := Transition.bind_eq_ok.mp htake
  obtain ⟨-, r', hr'⟩ := h.hasData_of_ne hne hroom hdata
  cases available with
  | false =>
    obtain ⟨rfl, rfl⟩ := Prod.mk.inj (Except.ok.inj htake)
    exact ⟨r', hr'⟩
  | true =>
    cases hentity : s'.entities[q]? with
    | none =>
      simp only [if_true, hentity] at htake
      cases htake
    | some e =>
      simp only [if_true, hentity] at htake
      obtain ⟨read, -, htake⟩ := Transition.bind_eq_ok.mp htake
      obtain ⟨rfl, rfl⟩ := Prod.mk.inj (Except.ok.inj htake)
      refine ⟨r', ⟨?_, hr'.unfiltered, hr'.streamType, hr'.streamIdentifier, hr'.rxPackets_ne,
        hr'.packets_eq⟩⟩
      rw [List.getElem?_set_ne hne.symm]
      exact hr'.entity

/-- What other threads do lets packets arrive at the end. -/
lemma background (h : Awaits N config pointer rx s r packets) {event : Background}
    (hroom : event = .interpret → s.Room N config pointer)
    (harrive : ∀ packet, event = .arrive packet → packet ≠ [])
    (hevent : s.background N config event = .ok t) :
    ∃ r', Awaits N config pointer rx t r'
      (packets ++ Execution.arrivals N config rx [.other event]) := by
  cases event with
  | arrive packet =>
    obtain rfl := Except.ok.inj hevent
    refine ⟨r, h.entity, h.unfiltered, h.streamType, h.streamIdentifier, fun p hp => ?_, ?_⟩
    · rcases List.mem_append.mp hp with hp | hp
      · exact h.rxPackets_ne p hp
      · obtain rfl := List.mem_singleton.mp hp
        exact harrive p rfl
    · rw [List.filterMap_append, ← List.append_assoc, h.packets_eq]
      rfl
  | interpret =>
    rw [Execution.arrivals, List.filterMap_cons_none rfl, List.filterMap_nil, List.append_nil]
    exact (h.interpret (hroom rfl) hevent).2
  | trigger q =>
    obtain rfl := Except.ok.inj hevent
    rw [Execution.arrivals, List.filterMap_cons_none rfl, List.filterMap_nil, List.append_nil]
    exact ⟨r, h.entity, h.unfiltered, h.streamType, h.streamIdentifier, h.rxPackets_ne,
      h.packets_eq⟩
  | sendRequest q req sequenceId =>
    obtain rfl := Except.ok.inj hevent
    rw [Execution.arrivals, List.filterMap_cons_none rfl, List.filterMap_nil, List.append_nil]
    refine ⟨r, ?_, h.unfiltered, h.streamType, h.streamIdentifier, h.rxPackets_ne, h.packets_eq⟩
    have hsame : r.sendRequest N req sequenceId = r := by
      cases r with
      | subscriber _ | service _ => rfl
      | client _ => exact h.unfiltered.elim
    change (s.entities.modify q _)[pointer]? = some r
    rw [List.getElem?_modify, h.entity, Option.map_eq_map, Option.map_some]
    by_cases hq : q = pointer
    · rw [if_pos hq, hsame]
    · rw [if_neg hq]

end Awaits

end Process

/-! ## Waits and takes -/

namespace Execution

/-- The packets that have a field. -/
def filled (packets : List Fields) : List Fields := packets.filter (· ≠ [])

lemma filled_append (packets₁ packets₂ : List Fields) :
    filled (packets₁ ++ packets₂) = filled packets₁ ++ filled packets₂ :=
  List.filter_append _ _

section

variable (N : NanoCbor) (config : TopicsConfig) (pointer : ℕ)

/-- No empty packet is received, no packet is lost, and the entity is not waited for again before
a take follows the report. -/
def Allowed (s : Execution) : Event → Prop
  | .other (.arrive packet) => packet ≠ []
  | .other .interpret | .take _ _ => s.process.Room N config pointer
  | .poll q => s.process.Room N config pointer ∧ (q = pointer → s.due pointer = false)
  | .other (.trigger _) | .other (.sendRequest _ _ _) | .check _ => True

/-- Of the packets that waited at first and those that arrived, the first `n` have been taken. -/
structure Served (start read arrived : List Fields) (asked : ℕ) (s : Execution) (n : ℕ)
    (rx : RxStream) (r : Recipient) : Prop where
  awaits : s.process.Awaits N config pointer rx r ((start ++ arrived).drop n)
  le : n ≤ (start ++ arrived).length
  taken : filled (s.taken pointer) = filled read ++ filled ((start ++ arrived).take n)
  asked : min start.length asked ≤ n + (s.due pointer).toNat

end

variable {N : NanoCbor} {config : TopicsConfig} {pointer : ℕ}
  {initial : (M : MessageMembers) → Msg M} {s t : Execution}
  {start read arrived : List Fields} {asked n : ℕ} {rx : RxStream} {r : Recipient}

/-- All packets have been taken when none waits. -/
lemma start_le_of_drop (hempty : (start ++ arrived).drop n = []) : start.length ≤ n := by
  have hlen := congrArg List.length hempty
  rw [List.length_drop, List.length_nil, List.length_append] at hlen
  omega

/-- One more packet has been taken. -/
lemma take_succ_of_drop {packet : Fields} {rest : List Fields}
    (hpackets : (start ++ arrived).drop n = packet :: rest) :
    n + 1 ≤ (start ++ arrived).length ∧ (start ++ arrived).drop (n + 1) = rest ∧
      filled ((start ++ arrived).take (n + 1))
        = filled ((start ++ arrived).take n) ++ filled [packet] := by
  have hlen := congrArg List.length hpackets
  rw [List.length_drop, List.length_cons] at hlen
  refine ⟨by omega, ?_, ?_⟩
  · rw [← List.drop_drop, hpackets]
    rfl
  · have hnext : (start ++ arrived).take (n + 1) = (start ++ arrived).take n ++ [packet] := by
      rw [List.take_add, hpackets]
      rfl
    rw [hnext, filled_append]

/-- What arrives comes behind the packets that waited. -/
lemma Served.other (h : Served N config pointer start read arrived asked s n rx r)
    {event : Process.Background} (hallowed : s.Allowed N config pointer (.other event))
    (hstep : s.step N config initial (.other event) = .ok t) :
    ∃ r', Served N config pointer start read (arrived ++ arrivals N config rx [.other event]) asked
      t n rx r' := by
  obtain ⟨process, hprocess, hstep⟩ := Transition.bind_eq_ok.mp hstep
  obtain rfl := Except.ok.inj hstep
  have hroom : event = .interpret → s.process.Room N config pointer := by
    rintro rfl
    exact hallowed
  have harrive : ∀ packet, event = .arrive packet → packet ≠ [] := by
    rintro packet rfl
    exact hallowed
  obtain ⟨r', hr'⟩ := h.awaits.background hroom harrive hprocess
  rw [← List.drop_append_of_le_length h.le, List.append_assoc] at hr'
  refine ⟨r', hr', ?_, ?_, h.asked⟩
  · rw [← List.append_assoc, List.length_append]
    exact h.le.trans (Nat.le_add_right _ _)
  · rw [← List.append_assoc, List.take_append_of_le_length h.le]
    exact h.taken

/-- The entity is asked, and reported if a packet waits. -/
lemma Served.poll (h : Served N config pointer start read arrived asked s n rx r)
    (hallowed : s.Allowed N config pointer (.poll pointer))
    (hstep : s.step N config initial (.poll pointer) = .ok t) :
    ∃ n' r', Served N config pointer start read arrived (asked + 1) t n' rx r' := by
  obtain ⟨hroom, hdue⟩ := hallowed
  obtain ⟨⟨available, process⟩, hdata, hstep⟩ := Transition.bind_eq_ok.mp hstep
  obtain rfl := Except.ok.inj hstep
  obtain ⟨-, r', hr', hfalse, htrue⟩ := h.awaits.hasData hroom hdata
  have hasked := h.asked
  rw [hdue rfl, Bool.toNat_false, Nat.add_zero] at hasked
  cases available with
  | false =>
    obtain ⟨hempty, hheld⟩ := hfalse rfl
    have hle := start_le_of_drop hempty
    rw [hheld, ← hempty] at hr'
    exact ⟨n, r', hr', h.le, h.taken, (min_le_left _ _).trans (hle.trans (Nat.le_add_right _ _))⟩
  | true =>
    have hreported : (Function.update s.due pointer true pointer).toNat = 1 := by
      rw [Function.update_self]
      rfl
    by_cases hpacket : r'.stream.bufferedPacket = []
    · -- a packet without fields does not stay in the buffer
      obtain ⟨hle, hrest, htaken⟩ := take_succ_of_drop (htrue rfl)
      have hheld : r'.stream.held = (start ++ arrived).drop (n + 1) := by
        rw [hrest, RxStream.held, if_pos hpacket]
        rfl
      rw [hheld] at hr'
      refine ⟨n + 1, r', hr', hle, ?_, ?_⟩
      · rw [htaken, hpacket]
        exact h.taken.trans (List.append_nil _ ▸ rfl)
      · rw [hreported]
        omega
    · have hheld : r'.stream.held = (start ++ arrived).drop n := by
        rw [htrue rfl, RxStream.held, if_neg hpacket]
        rfl
      rw [hheld] at hr'
      refine ⟨n, r', hr', h.le, h.taken, ?_⟩
      rw [hreported]
      omega

/-- A take reads the next packet. -/
lemma Served.take (h : Served N config pointer start read arrived asked s n rx r)
    {M : MessageMembers} {dest : Msg M} (hroom : s.process.Room N config pointer)
    (hstep : s.step N config initial (.take pointer dest) = .ok t) :
    ∃ n' r', Served N config pointer start read arrived asked t n' rx r' := by
  obtain ⟨⟨packet, process⟩, htake, hstep⟩ := Transition.bind_eq_ok.mp hstep
  obtain rfl := Except.ok.inj hstep
  obtain ⟨r', rest, hr', hpackets, hnone⟩ := h.awaits.take hroom htake
  have hasked := h.asked
  have hdue : (s.due pointer).toNat ≤ 1 := Bool.toNat_le _
  have hcleared : (Function.update s.due pointer false pointer).toNat = 0 := by
    rw [Function.update_self]
    rfl
  cases packet with
  | none =>
    have hle := start_le_of_drop (hnone rfl)
    obtain rfl : (start ++ arrived).drop n = rest := hpackets
    refine ⟨n, r', hr', h.le, ?_, (min_le_left _ _).trans (hle.trans (Nat.le_add_right _ _))⟩
    change filled (Function.update s.taken pointer _ pointer) = _
    rw [Function.update_self, Option.toList_none, List.append_nil]
    exact h.taken
  | some packet =>
    obtain ⟨hle, rfl, htaken⟩ := take_succ_of_drop hpackets
    refine ⟨n + 1, r', hr', hle, ?_, ?_⟩
    · change filled (Function.update s.taken pointer _ pointer) = _
      rw [Function.update_self, Option.toList_some, filled_append, h.taken, htaken,
        List.append_assoc]
    · rw [hcleared]
      omega

/-- One event. -/
lemma Served.step (h : Served N config pointer start read arrived asked s n rx r) {event : Event}
    (hallowed : s.Allowed N config pointer event)
    (hstep : s.step N config initial event = .ok t) :
    ∃ n' r', Served N config pointer start read (arrived ++ arrivals N config rx [event])
      (asked + polls pointer [event]) t n' rx r' := by
  cases event with
  | other event => exact ⟨n, h.other hallowed hstep⟩
  | poll q =>
    rw [arrivals, List.filterMap_cons_none rfl, List.filterMap_nil, List.append_nil]
    by_cases hq : q = pointer
    · subst hq
      rw [polls, List.countP_cons_of_pos (by simp), List.countP_nil, Nat.zero_add]
      exact h.poll hallowed hstep
    · rw [polls, List.countP_cons_of_neg (by simpa using hq), List.countP_nil, Nat.add_zero]
      obtain ⟨⟨available, process⟩, hdata, hstep⟩ := Transition.bind_eq_ok.mp hstep
      obtain rfl := Except.ok.inj hstep
      obtain ⟨-, r', hr'⟩ := h.awaits.hasData_of_ne (Ne.symm hq) hallowed.1 hdata
      refine ⟨n, r', hr', h.le, h.taken, ?_⟩
      change _ ≤ n + (Function.update s.due q available pointer).toNat
      rw [Function.update_of_ne (Ne.symm hq)]
      exact h.asked
  | check q =>
    obtain rfl := Except.ok.inj hstep
    rw [arrivals, List.filterMap_cons_none rfl, List.filterMap_nil, List.append_nil]
    exact ⟨n, r, ⟨h.awaits.entity, h.awaits.unfiltered, h.awaits.streamType,
      h.awaits.streamIdentifier, h.awaits.rxPackets_ne, h.awaits.packets_eq⟩, h.le, h.taken,
      h.asked⟩
  | take q dest =>
    rw [arrivals, List.filterMap_cons_none rfl, List.filterMap_nil, List.append_nil]
    by_cases hq : q = pointer
    · subst hq
      exact h.take hallowed hstep
    · obtain ⟨⟨packet, process⟩, htake, hstep⟩ := Transition.bind_eq_ok.mp hstep
      obtain rfl := Except.ok.inj hstep
      obtain ⟨r', hr'⟩ := h.awaits.take_of_ne (Ne.symm hq) hallowed htake
      refine ⟨n, r', hr', h.le, ?_, ?_⟩
      · change filled (Function.update s.taken q _ pointer) = _
        rw [Function.update_of_ne (Ne.symm hq)]
        exact h.taken
      · change _ ≤ n + (Function.update s.due q false pointer).toNat
        rw [Function.update_of_ne (Ne.symm hq)]
        exact h.asked

/-- A run. -/
lemma Served.run (h : Served N config pointer start read arrived asked s n rx r)
    {events : List Event}
    (hallowed : Transition.EveryStep (Execution.step N config initial)
      (Allowed N config pointer) s events)
    (hrun : Transition.run (Execution.step N config initial) s events = .ok t) :
    ∃ n' r', Served N config pointer start read (arrived ++ arrivals N config rx events)
      (asked + polls pointer events) t n' rx r' := by
  induction events generalizing s n r arrived asked with
  | nil =>
    obtain rfl := Except.ok.inj hrun
    exact ⟨n, r, by simpa [arrivals, polls] using h⟩
  | cons event events ih =>
    obtain ⟨u, hu, hrun⟩ := Transition.run_cons hrun
    obtain ⟨n', r', h'⟩ := h.step hallowed.1 hu
    obtain ⟨n'', r'', h''⟩ := ih h' (hallowed.2 u hu) hrun
    refine ⟨n'', r'', ?_⟩
    rw [List.append_assoc, Nat.add_assoc] at h''
    have harrivals : arrivals N config rx [event] ++ arrivals N config rx events
        = arrivals N config rx (event :: events) := by
      rw [arrivals, arrivals, ← List.filterMap_append, List.singleton_append]
      rfl
    have hpolls : polls pointer [event] + polls pointer events
        = polls pointer (event :: events) := by
      rw [polls, polls, ← List.countP_append, List.singleton_append]
      rfl
    rwa [harrivals, hpolls] at h''

/-- **Bounded waiting.**  Whatever the other threads do and whichever other entities are waited
for, an entity is given its packets in the order of their arrival, each of them once, and the ones
that were there at first after at most one wait for each packet up to them. -/
theorem served (hr : s.process.entities[pointer]? = some r) (hunfiltered : r.Unfiltered)
    (hne : ∀ p ∈ s.process.rxPackets, p ≠ []) {events : List Event}
    (hallowed : Transition.EveryStep (Execution.step N config initial)
      (Allowed N config pointer) s events)
    (hrun : Transition.run (Execution.step N config initial) s events = .ok t) :
    ∃ n r', t.process.entities[pointer]? = some r' ∧
      r'.pending N config t.process.rxPackets
        = (r.pending N config s.process.rxPackets ++ arrivals N config r.stream events).drop n ∧
      filled (t.taken pointer) = filled (s.taken pointer)
        ++ filled ((r.pending N config s.process.rxPackets
          ++ arrivals N config r.stream events).take n) ∧
      min (r.pending N config s.process.rxPackets).length (polls pointer events)
        ≤ n + (t.due pointer).toNat := by
  have hstart : Served N config pointer (r.pending N config s.process.rxPackets)
      (s.taken pointer) [] 0 s 0 r.stream r := by
    refine ⟨⟨hr, hunfiltered, rfl, rfl, hne, ?_⟩, Nat.zero_le _, ?_, ?_⟩
    · rw [List.append_nil, List.drop_zero]
      rfl
    · rw [List.take_zero]
      exact (List.append_nil _).symm
    · rw [Nat.min_zero]
      exact Nat.zero_le _
  obtain ⟨n, r', h⟩ := hstart.run hallowed hrun
  rw [List.nil_append, Nat.zero_add] at h
  have htaken : InterpretPackets.taken N config r'.stream
      = InterpretPackets.taken N config r.stream :=
    taken_congr h.awaits.streamType h.awaits.streamIdentifier
  refine ⟨n, r', h.awaits.entity, ?_, h.taken, h.asked⟩
  rw [Recipient.pending, htaken]
  exact h.awaits.packets_eq

end Execution

/-- A subscriber. -/
def byteSubscriber : Recipient := .subscriber (.create (.ofJson [("/a", 1)]) "/a" .cpp)

/-- A process to which a byte was published. -/
def Process.sample : Process where
  rxPackets := [[0x00, 0x01, 0x07]]
  entities := [byteSubscriber]
  triggered _ := false

namespace Execution

/-- Nothing has been waited for. -/
def sample : Execution := ⟨.sample, fun _ => [], fun _ => false⟩

/-- A second byte arrives between the report of the first one and its take. -/
def sampleEvents : List Event :=
  [.poll 0, .other (.arrive [0x00, 0x01, 0x08]), .take 0 (M := oneByte) ((0 : UInt8), ()), .poll 0]

theorem served_sample : ∃ t n,
    Transition.run (step NanoCbor.rfc8949 (.ofJson [("/a", 1)]) Msg.zero) sample sampleEvents
      = .ok t ∧
    filled (t.taken 0) = [] ++ filled ([[.uint 7], [.uint 8]].take n) ∧
    min 1 2 ≤ n + (t.due 0).toNat := by
  have hentity : sample.process.entities[0]? = some byteSubscriber := rfl
  have hne : ∀ p ∈ sample.process.rxPackets, p ≠ [] := by decide
  have hallowed : Transition.EveryStep (step NanoCbor.rfc8949 (.ofJson [("/a", 1)]) Msg.zero)
      (Allowed NanoCbor.rfc8949 (.ofJson [("/a", 1)]) 0) sample sampleEvents := by
    refine ⟨⟨fun r hr => ?_, fun _ => rfl⟩, fun s₁ h₁ => ⟨?_, fun s₂ h₂ => ⟨fun r hr => ?_,
      fun s₃ h₃ => ⟨⟨fun r hr => ?_, fun _ => ?_⟩, fun _ _ => trivial⟩⟩⟩⟩
    · obtain rfl := Option.some.inj hr
      decide
    · exact List.cons_ne_nil _ _
    · obtain rfl := Except.ok.inj h₁
      obtain rfl := Except.ok.inj h₂
      obtain rfl := Option.some.inj hr
      decide
    · obtain rfl := Except.ok.inj h₁
      obtain rfl := Except.ok.inj h₂
      obtain rfl := Except.ok.inj h₃
      obtain rfl := Option.some.inj hr
      decide
    · obtain rfl := Except.ok.inj h₁
      obtain rfl := Except.ok.inj h₂
      obtain rfl := Except.ok.inj h₃
      rfl
  obtain ⟨n, -, -, -, htaken, hasked⟩ := served hentity trivial hne hallowed rfl
  exact ⟨_, n, rfl, htaken, hasked⟩

end Execution

end RmwDesert
