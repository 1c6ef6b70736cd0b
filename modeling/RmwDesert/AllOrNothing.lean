/-
All-or-nothing transmission over runs (`push`, `send_request` and `send_response`).

`serialize` writes into the stream as it walks through the message, and an exception leaves
it, and the operation, with what was written so far: `end_transmission` is not called, and
the stream keeps its bytes and its overflow flag.  Here the walk has these effects.  The main
results are

* `runs_serializeTo`: the walk writes the items that `serialize` returns, as far as it goes;
* `sent_run_eq`: what a run of operations enqueues, each on its own.
-/
import RmwDesert.Entities

namespace RmwDesert

open MessageSerialization
open TcpDaemon (maxPacketLength)

/-- The computations on a transmission stream.  An exception keeps what was done before it. -/
abbrev TxM := ExceptT Failure (StateM TxStream)

namespace MessageSerialization

section

variable (N : NanoCbor)

/-- A sequence of `operator<<`. -/
def stream (fields : List Field) : TxM Unit := modify (TxStream.putAll N fields)

/-- The loop that serializes the elements of a member. -/
def serializeAllTo {α : Type} (write : α → TxM Unit) : List α → TxM Unit
  | [] => pure ()
  | x :: xs => do
    write x
    serializeAllTo write xs

/-- The case `ROS_TYPE_MESSAGE` of `serialize`. -/
def serializeMessagesTo {α : Type} (write : α → TxM Unit) : (k : Kind) → k.Value α → TxM Unit
  | .scalar, x => write x
  | .fixed _ _, xs => serializeAllTo write xs.toList
  | .sequence bound, xs =>
    if bound.any (· < xs.length) then
      throw (.runtimeError "Sequence overcomes the maximum length")
    else do
      stream N [TxStream.insert .uint32 (UInt32.ofNat xs.length)]
      serializeAllTo write xs

/-- `serialize`, with its effects on the stream. -/
def serializeTo (ts : TypeSupport) : (M : MessageMembers) → Msg M → TxM Unit
  | .nil, _ => pure ()
  | .field flags (.streamed t) rest, (x, msg) => do
    stream N (ts.serializeField t flags.kind x)
    serializeTo ts rest msg
  | .field _ .octet rest, (_, msg) => serializeTo ts rest msg
  | .field _ .longDouble _, _ | .field _ .wchar _, _ => throw (.runtimeError "unknown type")
  | .message flags sub rest, (xs, msg) => do
    serializeMessagesTo N (serializeTo ts sub) flags.kind xs
    serializeTo ts rest msg

/-! ## The walk and the items -/

/-- A computation that writes the given items, or fails as given after some items. -/
def Runs (m : TxM Unit) (r : Except Failure (List Field)) : Prop :=
  ∀ s, match r with
    | .ok fields => m.run.run s = (.ok (), s.putAll N fields)
    | .error e => ∃ fields, m.run.run s = (.error e, s.putAll N fields)

end

variable {N : NanoCbor}

lemma runs_pure : Runs N (pure ()) (.ok []) := fun _ => rfl

lemma runs_stream (fields : List Field) : Runs N (stream N fields) (.ok fields) := fun _ => rfl

lemma runs_throw (e : Failure) : Runs N (throw e) (.error e) := fun _ => ⟨[], rfl⟩

/-- The rule of sequencing: the items of the second computation follow those of the first,
unless that one fails. -/
lemma Runs.bind {m m' : TxM Unit} {r r' : Except Failure (List Field)} (hm : Runs N m r)
    (hm' : Runs N m' r') :
    Runs N (m >>= fun _ => m') (do
      let fields ← r
      let others ← r'
      return fields ++ others) := by
  intro s
  have hbind : (m >>= fun _ => m').run.run s = match m.run.run s with
      | (.ok _, t) => m'.run.run t
      | (.error e, t) => (.error e, t) := by
    rw [ExceptT.run_bind, StateT.run_bind]
    rcases m.run.run s with ⟨_ | _, t⟩ <;> rfl
  have hs := hm s
  cases r with
  | error e =>
    obtain ⟨fields, hs⟩ := hs
    exact ⟨fields, hbind.trans (by rw [hs])⟩
  | ok fields =>
    have ht := hm' (s.putAll N fields)
    have hnext : (m >>= fun _ => m').run.run s = m'.run.run (s.putAll N fields) :=
      hbind.trans (by rw [show m.run.run s = (.ok (), s.putAll N fields) from hs])
    cases r' with
    | error e =>
      obtain ⟨others, ht⟩ := ht
      exact ⟨fields ++ others, hnext.trans (ht.trans (by rw [TxStream.putAll_append]))⟩
    | ok others => exact hnext.trans (Eq.trans ht (by rw [TxStream.putAll_append]))

lemma runs_serializeAllTo {α : Type} {write : α → Except Failure (List Field)}
    {writeTo : α → TxM Unit} (h : ∀ x, Runs N (writeTo x) (write x)) :
    ∀ xs, Runs N (serializeAllTo writeTo xs) (serializeAll write xs)
  | [] => runs_pure
  | x :: xs => (h x).bind (runs_serializeAllTo h xs)

lemma runs_serializeMessagesTo {α : Type} {write : α → Except Failure (List Field)}
    {writeTo : α → TxM Unit} (h : ∀ x, Runs N (writeTo x) (write x)) (k : Kind) (xs : k.Value α) :
    Runs N (serializeMessagesTo N writeTo k xs) (serializeMessages write k xs) := by
  cases k with
  | scalar => exact h xs
  | fixed size hsize => exact runs_serializeAllTo h _
  | sequence bound =>
    simp only [serializeMessagesTo, serializeMessages]
    split_ifs with hbound
    · exact runs_throw _
    · exact (runs_stream _).bind (runs_serializeAllTo h _)

/-- **The walk writes the items.**  With its effects, `serialize` writes the items that it
returns without them, or fails in the same way after some of them. -/
theorem runs_serializeTo (ts : TypeSupport) : ∀ (M : MessageMembers) (msg : Msg M),
    Runs N (serializeTo N ts M msg) (serialize ts M msg)
  | .nil, _ => runs_pure
  | .field flags (.streamed t) rest, (x, msg) =>
    (runs_stream (ts.serializeField t flags.kind x)).bind (runs_serializeTo ts rest msg)
  | .field _ .octet rest, (_, msg) => runs_serializeTo ts rest msg
  | .field _ .longDouble _, _ | .field _ .wchar _, _ => runs_throw _
  | .message flags sub rest, (xs, msg) =>
    (runs_serializeMessagesTo (runs_serializeTo ts sub) flags.kind xs).bind
      (runs_serializeTo ts rest msg)

end MessageSerialization

/-! ## Operations -/

namespace TxStream

/-- The calls of an operation on its stream: `start_transmission`, `serialize`, and
`end_transmission` if the walk has not thrown. -/
def send (N : NanoCbor) (sequenceId : Option UInt64) (ts : TypeSupport) {M : MessageMembers}
    (msg : Msg M) (s : TxStream) : Except Failure (Option Packet) × TxStream :=
  let (result, s) := (serializeTo N ts M msg).run.run (s.startTransmission N sequenceId)
  (result.map fun _ => s.endTransmission, s)

/-- The items written do not change the addressing of a stream. -/
lemma addressing_putAll (N : NanoCbor) (fields : List Field) : ∀ s : TxStream,
    (s.putAll N fields).streamType = s.streamType ∧
      (s.putAll N fields).streamIdentifier = s.streamIdentifier := by
  induction fields with
  | nil => exact fun s => ⟨rfl, rfl⟩
  | cons f fields ih =>
    intro s
    have hput : (s.put N f).streamType = s.streamType ∧
        (s.put N f).streamIdentifier = s.streamIdentifier := by
      unfold put
      split_ifs <;> exact ⟨rfl, rfl⟩
    have hrest := ih (s.put N f)
    exact ⟨hrest.1.trans hput.1, hrest.2.trans hput.2⟩

/-- What an operation enqueues and how it ends do not depend on what the stream holds from
earlier operations. -/
lemma send_spec (N : NanoCbor) (sequenceId : Option UInt64) (ts : TypeSupport)
    {M : MessageMembers} (msg : Msg M) (s : TxStream) :
    (s.send N sequenceId ts msg).1 = (serialize ts M msg).map (s.transmit N sequenceId) ∧
      (s.send N sequenceId ts msg).2.streamType = s.streamType ∧
      (s.send N sequenceId ts msg).2.streamIdentifier = s.streamIdentifier := by
  have hstart : (s.startTransmission N sequenceId).streamType = s.streamType ∧
      (s.startTransmission N sequenceId).streamIdentifier = s.streamIdentifier :=
    addressing_putAll N _ _
  have hrun := runs_serializeTo (N := N) ts M msg (s.startTransmission N sequenceId)
  rw [send]
  cases hser : serialize ts M msg with
  | error e =>
    rw [hser] at hrun
    obtain ⟨fields, hrun⟩ := hrun
    obtain ⟨htype, hidentifier⟩ := addressing_putAll N fields (s.startTransmission N sequenceId)
    simp only [hrun]
    exact ⟨rfl, htype.trans hstart.1, hidentifier.trans hstart.2⟩
  | ok fields =>
    rw [hser] at hrun
    obtain ⟨htype, hidentifier⟩ := addressing_putAll N fields (s.startTransmission N sequenceId)
    simp only [hrun]
    exact ⟨rfl, htype.trans hstart.1, hidentifier.trans hstart.2⟩

end TxStream

section

variable (N : NanoCbor) {M : MessageMembers}

/-- `push`, with its effects on the stream. -/
def DesertPublisher.pushTo (msg : Msg M) (p : DesertPublisher) :
    Except Failure (Option Packet) × DesertPublisher :=
  if p.id = 0 then (.ok none, p)
  else
    let (result, tx) := p.dataStream.send N none p.language.typeSupport msg
    (result, { p with dataStream := tx })

/-- `send_request`, with its effects on the stream. -/
def DesertClient.sendRequestTo (req : Msg M) (sequenceId : Int64) (c : DesertClient) :
    Except Failure (Option Packet) × DesertClient :=
  if c.id = 0 then (.ok none, c)
  else
    let (result, tx) :=
      c.requestDataStream.send N (some sequenceId.toUInt64) c.language.typeSupport req
    (result, { c with sequenceId := sequenceId, requestDataStream := tx })

/-- `send_response`, with its effects on the stream. -/
def DesertService.sendResponseTo (res : Msg M) (c : DesertService) :
    Except Failure (Option Packet) × DesertService :=
  if c.id = 0 then (.ok none, c)
  else
    let (result, tx) :=
      c.responseDataStream.send N (some c.sequenceId.toUInt64) c.language.typeSupport res
    (result, { c with responseDataStream := tx })

/-- The walk with effects enqueues what the walk without them enqueues. -/
lemma DesertPublisher.pushTo_fst (msg : Msg M) (p : DesertPublisher) :
    (p.pushTo N msg).1 = p.push N msg := by
  unfold pushTo push
  split_ifs
  · rfl
  · exact (TxStream.send_spec N none p.language.typeSupport msg p.dataStream).1

/-- An operation changes of its entity only what the stream holds. -/
lemma DesertPublisher.pushTo_snd (msg : Msg M) (p : DesertPublisher) :
    (p.pushTo N msg).2.id = p.id ∧ (p.pushTo N msg).2.language = p.language ∧
      (p.pushTo N msg).2.dataStream.streamType = p.dataStream.streamType ∧
      (p.pushTo N msg).2.dataStream.streamIdentifier = p.dataStream.streamIdentifier := by
  unfold pushTo
  split_ifs
  · exact ⟨rfl, rfl, rfl, rfl⟩
  · exact ⟨rfl, rfl, (TxStream.send_spec N none p.language.typeSupport msg p.dataStream).2⟩

lemma DesertClient.sendRequestTo_fst (req : Msg M) (sequenceId : Int64) (c : DesertClient) :
    (c.sendRequestTo N req sequenceId).1 = (c.sendRequest N req sequenceId).1 := by
  unfold sendRequestTo sendRequest
  split_ifs
  · rfl
  · exact (TxStream.send_spec N (some sequenceId.toUInt64) c.language.typeSupport req
      c.requestDataStream).1

lemma DesertClient.sendRequestTo_snd (req : Msg M) (sequenceId : Int64) (c : DesertClient) :
    (c.sendRequestTo N req sequenceId).2.id = c.id ∧
      (c.sendRequestTo N req sequenceId).2.language = c.language ∧
      (c.sendRequestTo N req sequenceId).2.requestDataStream.streamType
        = c.requestDataStream.streamType ∧
      (c.sendRequestTo N req sequenceId).2.requestDataStream.streamIdentifier
        = c.requestDataStream.streamIdentifier := by
  unfold sendRequestTo
  split_ifs
  · exact ⟨rfl, rfl, rfl, rfl⟩
  · exact ⟨rfl, rfl, (TxStream.send_spec N (some sequenceId.toUInt64) c.language.typeSupport req
      c.requestDataStream).2⟩

lemma DesertService.sendResponseTo_fst (res : Msg M) (sequenceNumber : Int64) (c : DesertService) :
    (c.sendResponseTo N res).1 = (c.sendResponse N res sequenceNumber).1 := by
  unfold sendResponseTo sendResponse
  split_ifs
  · rfl
  · exact (TxStream.send_spec N (some c.sequenceId.toUInt64) c.language.typeSupport res
      c.responseDataStream).1

lemma DesertService.sendResponseTo_snd (res : Msg M) (c : DesertService) :
    (c.sendResponseTo N res).2.id = c.id ∧ (c.sendResponseTo N res).2.language = c.language ∧
      (c.sendResponseTo N res).2.sequenceId = c.sequenceId ∧
      (c.sendResponseTo N res).2.responseDataStream.streamType
        = c.responseDataStream.streamType ∧
      (c.sendResponseTo N res).2.responseDataStream.streamIdentifier
        = c.responseDataStream.streamIdentifier := by
  unfold sendResponseTo
  split_ifs
  · exact ⟨rfl, rfl, rfl, rfl, rfl⟩
  · exact ⟨rfl, rfl, rfl, (TxStream.send_spec N (some c.sequenceId.toUInt64)
      c.language.typeSupport res c.responseDataStream).2⟩

end

/-! ## Runs -/

/-- A publisher, a client and a service, and the packets handed to the daemon. -/
structure Senders where
  publisher : DesertPublisher
  client : DesertClient
  service : DesertService
  /-- `_tx_packets`. -/
  txPackets : List Packet

namespace Senders

/-- The operations, with a message of any type. -/
inductive Operation
  | publish {M : MessageMembers} (msg : Msg M)
  | sendRequest {M : MessageMembers} (req : Msg M) (sequenceId : Int64)
  | sendResponse {M : MessageMembers} (res : Msg M)

/-- `enqueue_packet` for the packet of an operation, if there is one. -/
def enqueued : Except Failure (Option Packet) → List Packet
  | .ok (some packet) => [packet]
  | .ok none | .error _ => []

section

variable (N : NanoCbor)

/-- One operation.  An exception ends the operation, and not the run. -/
def step (s : Senders) : Operation → Senders
  | .publish msg =>
    let (result, publisher) := s.publisher.pushTo N msg
    { s with publisher := publisher, txPackets := s.txPackets ++ enqueued result }
  | .sendRequest req sequenceId =>
    let (result, client) := s.client.sendRequestTo N req sequenceId
    { s with client := client, txPackets := s.txPackets ++ enqueued result }
  | .sendResponse res =>
    let (result, service) := s.service.sendResponseTo N res
    { s with service := service, txPackets := s.txPackets ++ enqueued result }

/-- Any number of operations. -/
def run (s : Senders) (operations : List Operation) : Senders := operations.foldl (step N) s

/-- The full encoding of a message, if it is serialized and the encoding fits in a packet. -/
def fullEncoding (tx : TxStream) (sequenceId : Option UInt64) (ts : TypeSupport)
    {M : MessageMembers} (msg : Msg M) : List Packet :=
  match serialize ts M msg with
  | .error _ => []
  | .ok fields =>
    if (N.encode (tx.header sequenceId ++ fields)).length ≤ maxPacketLength then
      [N.encode (tx.header sequenceId ++ fields)]
    else []

/-- What an operation has to enqueue: the full encoding for an enabled entity, and nothing for
a disabled one. -/
def owed (s : Senders) : Operation → List Packet
  | .publish msg =>
    if s.publisher.id = 0 then []
    else fullEncoding N s.publisher.dataStream none s.publisher.language.typeSupport msg
  | .sendRequest req sequenceId =>
    if s.client.id = 0 then []
    else fullEncoding N s.client.requestDataStream (some sequenceId.toUInt64)
      s.client.language.typeSupport req
  | .sendResponse res =>
    if s.service.id = 0 then []
    else fullEncoding N s.service.responseDataStream (some s.service.sequenceId.toUInt64)
      s.service.language.typeSupport res

end

variable {N : NanoCbor}

lemma enqueued_transmit (tx : TxStream) (sequenceId : Option UInt64) (ts : TypeSupport)
    {M : MessageMembers} (msg : Msg M) :
    enqueued ((serialize ts M msg).map (tx.transmit N sequenceId))
      = fullEncoding N tx sequenceId ts msg := by
  unfold fullEncoding
  cases serialize ts M msg with
  | error e => rfl
  | ok fields =>
    show enqueued (.ok (tx.transmit N sequenceId fields)) = if _ then _ else _
    rw [TxStream.transmit_eq]
    split_ifs <;> rfl

/-- One operation enqueues what it has to. -/
lemma txPackets_step (s : Senders) (operation : Operation) :
    (s.step N operation).txPackets = s.txPackets ++ s.owed N operation := by
  cases operation with
  | publish msg =>
    show s.txPackets ++ enqueued (s.publisher.pushTo N msg).1 = _
    rw [DesertPublisher.pushTo_fst, DesertPublisher.push, owed]
    split_ifs
    · rfl
    · rw [enqueued_transmit]
  | sendRequest req sequenceId =>
    show s.txPackets ++ enqueued (s.client.sendRequestTo N req sequenceId).1 = _
    rw [DesertClient.sendRequestTo_fst, DesertClient.sendRequest, owed]
    split_ifs
    · rfl
    · rw [enqueued_transmit]
  | sendResponse res =>
    show s.txPackets ++ enqueued (s.service.sendResponseTo N res).1 = _
    rw [DesertService.sendResponseTo_fst N res 0, DesertService.sendResponse, owed]
    split_ifs
    · rfl
    · rw [enqueued_transmit]

lemma fullEncoding_congr {tx tx' : TxStream} (htype : tx'.streamType = tx.streamType)
    (hidentifier : tx'.streamIdentifier = tx.streamIdentifier) (sequenceId : Option UInt64)
    (ts : TypeSupport) {M : MessageMembers} (msg : Msg M) :
    fullEncoding N tx' sequenceId ts msg = fullEncoding N tx sequenceId ts msg := by
  have hheader : tx'.header sequenceId = tx.header sequenceId := by
    rw [TxStream.header, TxStream.header, htype, hidentifier]
  unfold fullEncoding
  rw [hheader]

/-- An operation leaves nothing behind that a later one would send. -/
lemma owed_step (s : Senders) (operation later : Operation) :
    (s.step N operation).owed N later = s.owed N later := by
  cases operation with
  | publish msg =>
    obtain ⟨hid, hlanguage, htype, hidentifier⟩ := s.publisher.pushTo_snd N msg
    cases later with
    | publish later =>
      show (if (s.publisher.pushTo N msg).2.id = 0 then _ else fullEncoding N
        (s.publisher.pushTo N msg).2.dataStream none
        (s.publisher.pushTo N msg).2.language.typeSupport later) = _
      rw [hid, hlanguage, fullEncoding_congr htype hidentifier]
      rfl
    | sendRequest later n => rfl
    | sendResponse later => rfl
  | sendRequest req sequenceId =>
    obtain ⟨hid, hlanguage, htype, hidentifier⟩ := s.client.sendRequestTo_snd N req sequenceId
    cases later with
    | publish later => rfl
    | sendRequest later n =>
      show (if (s.client.sendRequestTo N req sequenceId).2.id = 0 then _ else fullEncoding N
        (s.client.sendRequestTo N req sequenceId).2.requestDataStream (some n.toUInt64)
        (s.client.sendRequestTo N req sequenceId).2.language.typeSupport later) = _
      rw [hid, hlanguage, fullEncoding_congr htype hidentifier]
      rfl
    | sendResponse later => rfl
  | sendResponse res =>
    obtain ⟨hid, hlanguage, hn, htype, hidentifier⟩ := s.service.sendResponseTo_snd N res
    cases later with
    | publish later => rfl
    | sendRequest later n => rfl
    | sendResponse later =>
      show (if (s.service.sendResponseTo N res).2.id = 0 then _ else fullEncoding N
        (s.service.sendResponseTo N res).2.responseDataStream
        (some (s.service.sendResponseTo N res).2.sequenceId.toUInt64)
        (s.service.sendResponseTo N res).2.language.typeSupport later) = _
      rw [hid, hlanguage, hn, fullEncoding_congr htype hidentifier]
      rfl

/-- **All or nothing.**  A run of operations enqueues, for each operation of an enabled entity
whose message is serialized to a full encoding that fits in a packet, that encoding, and
nothing else. -/
theorem sent_run_eq (s : Senders) (operations : List Operation) :
    (s.run N operations).txPackets = s.txPackets ++ operations.flatMap (s.owed N) := by
  induction operations generalizing s with
  | nil => simp [run]
  | cons operation operations ih =>
    have hlater : (s.step N operation).owed N = s.owed N := funext (owed_step s operation)
    have hrest := ih (s.step N operation)
    rw [txPackets_step, hlater, List.append_assoc] at hrest
    exact hrest

/-- Senders on a topic that is disabled. -/
def disabledSenders : Senders where
  publisher := ⟨0, ⟨publisherType, 0, false, []⟩, .cpp⟩
  client := ⟨0, ⟨clientType, 0, false, []⟩, ⟨clientType, 0, 0, [], []⟩, 0, .cpp⟩
  service := ⟨0, ⟨serviceType, 0, 0, [], []⟩, ⟨serviceType, 0, false, []⟩, 0, .cpp⟩
  txPackets := []

/-- A disabled publisher enqueues nothing, though the message is serialized and fits. -/
theorem disabled_publisher_sends_nothing :
    serialize cpp oneByte ((7 : UInt8), ()) = .ok [.uint 7] ∧
      (NanoCbor.rfc8949.encode
        (disabledSenders.publisher.dataStream.header none ++ [.uint 7])).length
          ≤ maxPacketLength ∧
      (disabledSenders.run NanoCbor.rfc8949 [.publish (M := oneByte) ((7 : UInt8), ())]).txPackets
        = [] := by
  refine ⟨rfl, by decide, rfl⟩

end Senders

end RmwDesert
