/-
Processes that exchange messages (`rmw_publish`, `rmw_wait` and `rmw_take` over `TcpDaemon`).

The state of a process are its listening streams, to which `interpret_packets` dispatches the
receive queue.  The events of all processes are interleaved in any order.

A `Subscription` is one of the subscribers, and the packets for it are described by `Carries`.
-/
import RmwDesert.Network
import RmwDesert.Readiness

namespace RmwDesert

open InterpretPackets MessageSerialization
open TcpDaemon (Pass maxPacketLength)

/-! ## Processes -/

/-- A process: the receive queue of its daemon, and its streams. -/
structure Host where
  rxPackets : List Packet
  /-- `_listening_streams`. -/
  streams : List RxStream

namespace Host

section

variable (N : NanoCbor) (config : TopicsConfig)

/-- `interpret_packets`. -/
def interpret (s : Host) : Except Failure Host := do
  let (streams, rest) ← interpretPackets N config maxPacketLength s.rxPackets s.streams
  return ⟨rest, streams⟩

/-- `has_data` of the subscriber with the `k`-th stream. -/
def hasData (language : Language) (k : ℕ) (s : Host) :
    Except Failure ((Bool × DesertSubscriber) × Host) := do
  let s ← s.interpret N config
  match s.streams[k]? with
  | none => throw .outOfBounds
  | some stream =>
    let (available, sub) ← DesertSubscriber.hasData ⟨stream.streamIdentifier, stream, language⟩
    return ((available, sub), { s with streams := s.streams.set k sub.dataStream })

/-- `rmw_take` of the subscriber with the `k`-th stream: the message, if one was taken. -/
def take (initial : (M : MessageMembers) → Msg M) (language : Language) (k : ℕ)
    {M : MessageMembers} (dest : Msg M) (s : Host) : Except Failure (Option (Msg M) × Host) := do
  let ((available, sub), s) ← s.hasData N config language k
  if available then
    let (msg, sub) ← sub.readData initial dest
    return (some msg, { s with streams := s.streams.set k sub.dataStream })
  else return (none, s)

end

end Host

/-! ## The network -/

/-- The processes, what each of them enqueued, with the topic and the message if it was published,
and the messages that each of their subscribers took. -/
structure TopicNetwork (ι : Type) extends Network ι (List RxStream) (String × AnyMsg) where
  taken : ι → ℕ → List AnyMsg

namespace TopicNetwork

/-- What happens in one of the processes. -/
inductive Event (ι : Type)
  /-- `rmw_publish`, by a publisher of the given topic. -/
  | publish (g : ι) (topic : String) (language : Language) {M : MessageMembers} (msg : Msg M)
  /-- A transmission of a client, a service or the discovery thread. -/
  | transmit (g : ι) (t : Transmission)
  /-- A turn of the transmitter, and the processes that hear what it sends. -/
  | turn (g : ι) (heard : ι → Bool)
  /-- A pass of the receiver. -/
  | rxPass (h : ι) (pass : Pass)
  /-- `has_data` of a subscriber, by `rmw_wait`. -/
  | hasData (h : ι) (language : Language) (k : ℕ)
  /-- `rmw_take` of a subscriber, into a message. -/
  | take (h : ι) (language : Language) (k : ℕ) {M : MessageMembers} (dest : Msg M)
  /-- A client, a service or a thread reads its stream. -/
  | readStream (h : ι) (k : ℕ) (stream : RxStream)

section

variable {ι : Type} [DecidableEq ι]

/-- A process. -/
def host (h : ι) (s : TopicNetwork ι) : Host := ⟨(s.daemons h).receiver.rxPackets, s.locals h⟩

/-- A process works with its receive queue and its streams. -/
def setHost (h : ι) (host : Host) (s : TopicNetwork ι) : TopicNetwork ι :=
  { s with toNetwork := s.setLocal h host.rxPackets host.streams }

variable (N : NanoCbor) (config : TopicsConfig) (initial : (M : MessageMembers) → Msg M)

def step (s : TopicNetwork ι) : Event ι → Except Failure (TopicNetwork ι)
  | .publish g topic language (M := M) msg =>
    let p := DesertPublisher.create config topic language
    match p.push N msg with
    | .ok (some packet) =>
      let fields := written (serialize language.typeSupport M) msg
      .ok { s with
        toNetwork := s.enqueue g ⟨⟨p.dataStream, none, fields⟩, packet, some (topic, ⟨M, msg⟩)⟩ }
    -- nothing is enqueued if the topic is disabled, the packet overflows or the call throws
    | .ok none | .error _ => .ok s
  | .transmit g t =>
    match t.tx.transmit N t.sequenceId t.fields with
    | some packet => .ok { s with toNetwork := s.enqueue g ⟨t, packet, none⟩ }
    | none => .ok s
  | .turn g heard => .ok { s with toNetwork := s.turn g heard }
  | .rxPass h pass => .ok { s with toNetwork := s.rxPass h pass }
  | .hasData h language k => do
    let (_, host) ← (s.host h).hasData N config language k
    return s.setHost h host
  | .take h language k (M := M) dest => do
    let (msg, host) ← (s.host h).take N config initial language k dest
    return { s.setHost h host with
      taken := Function.update s.taken h (Function.update (s.taken h) k
        (s.taken h k ++ (msg.map (Sigma.mk M)).toList)) }
  | .readStream h k stream =>
    .ok (s.setHost h { s.host h with streams := (s.locals h).set k stream })

end

end TopicNetwork

/-! ## One subscription -/

/-- A subscription: the process and the position of its stream, and what it was created with. -/
structure Subscription (ι : Type) where
  host : ι
  index : ℕ
  topic : String
  language : Language
  type : MessageType
  members_ne : type.members ≠ .nil
  octetFree : type.members.OctetFree

namespace Subscription

variable {ι : Type} (config : TopicsConfig) (sub : Subscription ι)

/-- The stream of the subscriber. -/
def mailbox : Mailbox := ⟨subscriberType, sub.topic⟩

/-- The constructor of the subscriber creates it. -/
lemma dataStream_create :
    (DesertSubscriber.create config sub.topic sub.language).dataStream
      = sub.mailbox.stream config :=
  rfl

/-- A message that its publisher and the subscriber stream in the same way. -/
def Fits (language : Language) (message : AnyMsg) : Prop :=
  ∃ msg : Msg sub.type.members, message = ⟨_, msg⟩ ∧ Msg.Forall sub.language.Domain _ msg ∧
    serialize language.typeSupport _ msg = serialize sub.language.typeSupport _ msg

/-- The entry is a message for the subscriber. -/
def message (e : Entry (String × AnyMsg)) : Option AnyMsg :=
  e.content.bind fun p => if p.1 = sub.topic then some p.2 else none

/-- The messages that were published on the topic. -/
def published (log : List (Entry (String × AnyMsg))) : List AnyMsg := log.filterMap sub.message

/-- The entry holds the fields of this message. -/
structure Carries (e : Entry (String × AnyMsg)) (msg : Msg sub.type.members) : Prop where
  content : e.content = some (sub.topic, ⟨_, msg⟩)
  domain : Msg.Forall sub.language.Domain _ msg
  fields : serialize sub.language.typeSupport _ msg = .ok e.transmission.fields
  sequenceId : e.transmission.sequenceId = none

/-- The packets that reach the stream are such messages, and the others are none. -/
structure OnTopic (e : Entry (String × AnyMsg)) : Prop where
  carries : sub.mailbox.Takes config e → ∃ msg, sub.Carries e msg
  other : ¬ sub.mailbox.Takes config e → sub.message e = none

variable {config sub} {e : Entry (String × AnyMsg)} {msg : Msg sub.type.members}

lemma Carries.message (h : sub.Carries e msg) : sub.message e = some ⟨_, msg⟩ := by
  rw [Subscription.message, h.content]
  exact if_pos rfl

lemma Carries.body (h : sub.Carries e msg) : e.transmission.body = e.transmission.fields := by
  rw [Transmission.body, h.sequenceId]
  rfl

lemma Carries.fields_ne_nil (h : sub.Carries e msg) : e.transmission.fields ≠ [] :=
  serialize_ne_nil sub.language.fieldLaw _ msg sub.members_ne sub.type.populated sub.octetFree
    h.fields

/-- The subscriber reads the message, if it reads anything. -/
lemma Carries.readData {N : NanoCbor} (hN : N.Lawful) (h : sub.Carries e msg)
    (hsent : e.transmission.Enqueues N e.packet) {initial : (M : MessageMembers) → Msg M}
    {s s' : DesertSubscriber} {dest m : Msg sub.type.members}
    (hlanguage : s.language = sub.language)
    (hbuffer : s.dataStream.bufferedPacket = e.transmission.body)
    (hiterator : s.dataStream.bufferedIterator = 0)
    (hread : s.readData initial dest = .ok (m, s')) :
    m = Msg.rounded _ msg ∧ s'.dataStream.bufferedPacket = [] ∧
      s'.dataStream.receivedPackets = s.dataStream.receivedPackets ∧
      s'.dataStream.streamType = s.dataStream.streamType ∧
      s'.dataStream.streamIdentifier = s.dataStream.streamIdentifier := by
  have hpending : Reader.Cursor.pending s.dataStream = e.transmission.fields := by
    show s.dataStream.bufferedPacket.drop s.dataStream.bufferedIterator = _
    rw [hbuffer, hiterator, h.body, List.drop_zero]
  obtain ⟨⟨m', rx⟩, hdes, hread⟩ := Transition.bind_eq_ok.mp hread
  obtain ⟨rfl, rfl⟩ := Prod.mk.inj (Except.ok.inj hread)
  rw [hlanguage] at hdes
  obtain ⟨n, rfl⟩ := advances_deserialize sub.language initial _ dest _ _ _ hdes
  exact ⟨sub.language.deserialize_eq sub.type.populated sub.octetFree h.domain h.fields
    (hsent.length_fields_lt hN) hpending hdes, rfl, rfl, rfl, rfl⟩

end Subscription

end RmwDesert
