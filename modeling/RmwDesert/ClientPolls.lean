/-
What a client meets when it polls for a response.

Any peer may send packets of any shape to the response stream of a client, and the client
asks for an id that `rmw_send_request` draws.  The main results are

* `polling_survives_iff`: which polls return and take no packet without a number;
* `answersOwn_iff`: which polls give the client the response to its own request.
-/
import RmwDesert.DesertClient
import RmwDesert.MessageRoundTrip

namespace RmwDesert

open MessageSerialization
open Reader (Cursor)

namespace RxStream

/-! ## Packets of any shape -/

/-- What happens to the response stream of a client. -/
inductive Event
  /-- `push_packet`, by `interpret_packets`. -/
  | deliver (packet : Fields)
  /-- `data_available`. -/
  | poll (sequenceId : Int64)
  /-- `clear_buffer`. -/
  | clear

/-- One event. -/
def step (s : RxStream) : Event → Except Failure RxStream
  | .deliver packet => .ok (s.pushPacket packet)
  | .poll sequenceId => do
    let (_, s) ← s.dataAvailable sequenceId
    return s
  | .clear => .ok s.clearBuffer

/-- A poll returns normally, and the packet that it takes begins with an integer. -/
def Survives (s : RxStream) : Event → Prop
  | .poll sequenceId => ∃ available s', s.dataAvailable sequenceId = .ok (available, s') ∧
    (s.bufferedPacket = [] → available = true → (firstInteger s'.bufferedPacket).isSome)
  | .deliver _ | .clear => True

/-- A poll for 0 meets a front packet that begins with an integer; a poll for another id
meets no packet of another shape before the first match, and no full queue, unless the
front packet matches. -/
def Survivable (s : RxStream) : Event → Prop
  | .poll sequenceId => s.bufferedPacket = [] →
    (sequenceId = 0 → ∀ p ∈ s.receivedPackets.head?, (firstInteger p).isSome) ∧
    (sequenceId ≠ 0 → Turnable sequenceId s.receivedPackets ∧
      Shaped sequenceId s.receivedPackets)
  | .deliver _ | .clear => True

/-- A poll for any packet takes the front one as it is. -/
lemma survives_zero_iff {s : RxStream} (hbuffer : s.bufferedPacket = []) :
    s.Survives (.poll 0) ↔ ∀ p ∈ s.receivedPackets.head?, (firstInteger p).isSome := by
  cases hs : s.receivedPackets with
  | nil =>
    refine iff_of_true ⟨false, s, dataAvailable_nil hbuffer hs, ?_⟩ (by simp)
    exact fun _ h => absurd h (by decide)
  | cons p queue =>
    have hok := dataAvailable_zero_cons hbuffer hs
    constructor
    · rintro ⟨available, s', havailable, hshape⟩ q hq
      obtain rfl : p = q := by simpa using hq
      obtain ⟨rfl, rfl⟩ := Prod.mk.inj (Except.ok.inj (hok.symm.trans havailable))
      exact hshape hbuffer rfl
    · exact fun h => ⟨true, _, hok, fun _ _ => h p rfl⟩

lemma survives_search_iff {s : RxStream} (hbuffer : s.bufferedPacket = [])
    (hlen : s.receivedPackets.length ≤ maxBufferCapacity) {sequenceId : Int64}
    (hid : sequenceId ≠ 0) :
    s.Survives (.poll sequenceId) ↔
      Turnable sequenceId s.receivedPackets ∧ Shaped sequenceId s.receivedPackets := by
  constructor
  · rintro ⟨available, s', havailable, -⟩
    exact (dataAvailable_returns_iff hbuffer hlen hid).mp ⟨_, havailable⟩
  · rintro ⟨hturn, hshaped⟩
    rcases dataAvailable_of_shaped hbuffer hid hturn hshaped with
      ⟨hok, -⟩ | ⟨before, packet, after, -, hp, -, hok⟩
    · exact ⟨false, s, hok, fun _ h => absurd h (by decide)⟩
    · refine ⟨true, _, hok, fun _ _ => ?_⟩
      show (firstInteger packet).isSome
      rw [sequenceField_eq_ok_iff.mp hp]
      rfl

/-- A single event. -/
lemma survives_iff {s : RxStream} (hlen : s.receivedPackets.length ≤ maxBufferCapacity)
    (event : Event) : s.Survives event ↔ s.Survivable event := by
  cases event with
  | deliver packet => exact Iff.rfl
  | clear => exact Iff.rfl
  | poll sequenceId =>
    by_cases hbuffer : s.bufferedPacket = []
    · by_cases hid : sequenceId = 0
      · subst hid
        rw [survives_zero_iff hbuffer]
        exact ⟨fun h _ => ⟨fun _ => h, fun hne => absurd rfl hne⟩, fun h => (h hbuffer).1 rfl⟩
      · rw [survives_search_iff hbuffer hlen hid]
        exact ⟨fun h _ => ⟨fun hzero => absurd hzero hid, fun _ => h⟩, fun h => (h hbuffer).2 hid⟩
    · -- a buffered packet stays where it is
      refine iff_of_true ⟨true, s, dataAvailable_of_ne_nil hbuffer, ?_⟩ ?_
      · exact fun h => absurd h hbuffer
      · exact fun h => absurd h hbuffer

/-- A poll that survives does not make the queue longer. -/
lemma length_receivedPackets_poll {s t : RxStream} {sequenceId : Int64}
    (hok : s.Survivable (.poll sequenceId)) (h : s.step (.poll sequenceId) = .ok t) :
    t.receivedPackets.length ≤ s.receivedPackets.length := by
  obtain ⟨⟨available, s'⟩, havailable, h⟩ := Transition.bind_eq_ok.mp h
  obtain rfl := Except.ok.inj h
  by_cases hbuffer : s.bufferedPacket = []
  · by_cases hid : sequenceId = 0
    · subst hid
      cases hs : s.receivedPackets with
      | nil =>
        rw [dataAvailable_nil hbuffer hs] at havailable
        obtain ⟨-, rfl⟩ := Prod.mk.inj (Except.ok.inj havailable)
        rw [hs]
      | cons p queue =>
        rw [dataAvailable_zero_cons hbuffer hs] at havailable
        obtain ⟨-, rfl⟩ := Prod.mk.inj (Except.ok.inj havailable)
        exact Nat.le_succ _
    · obtain ⟨hturn, hshaped⟩ := (hok hbuffer).2 hid
      rcases dataAvailable_of_shaped hbuffer hid hturn hshaped with
        ⟨hdata, -⟩ | ⟨before, packet, after, hsplit, -, -, hdata⟩
      · obtain ⟨-, rfl⟩ := Prod.mk.inj (Except.ok.inj (hdata.symm.trans havailable))
        exact le_refl _
      · obtain ⟨-, rfl⟩ := Prod.mk.inj (Except.ok.inj (hdata.symm.trans havailable))
        rw [hsplit]
        simp only [List.length_append, List.length_cons]
        omega
  · rw [dataAvailable_of_ne_nil hbuffer] at havailable
    obtain ⟨-, rfl⟩ := Prod.mk.inj (Except.ok.inj havailable)
    exact le_refl _

lemma length_receivedPackets_step {s t : RxStream} {event : Event}
    (hlen : s.receivedPackets.length ≤ maxBufferCapacity) (hok : s.Survivable event)
    (h : s.step event = .ok t) : t.receivedPackets.length ≤ maxBufferCapacity := by
  cases event with
  | deliver packet =>
    obtain rfl := Except.ok.inj h
    exact CircularQueue.length_push_le hlen
  | poll sequenceId => exact (length_receivedPackets_poll hok h).trans hlen
  | clear =>
    obtain rfl := Except.ok.inj h
    exact hlen

/-- **Polling survives.**  Over any run of deliveries and polls, every poll returns and takes
no packet without a number exactly when no poll meets a packet without a number before its
match, or has to turn a full queue. -/
theorem polling_survives_iff {s : RxStream}
    (hlen : s.receivedPackets.length ≤ maxBufferCapacity) (events : List Event) :
    Transition.EveryStep step Survives s events ↔
      Transition.EveryStep step Survivable s events :=
  Transition.everyStep_iff (I := fun s => s.receivedPackets.length ≤ maxBufferCapacity)
    (D := fun _ _ => True) (fun hs _ hok h => length_receivedPackets_step hs hok h)
    (fun hs _ => survives_iff hs _) hlen (Transition.everyStep_of_forall fun _ _ _ => trivial)

/-- A new response stream. -/
def newStream : RxStream := ⟨clientType, 1, 0, [], []⟩

/-- A text behind the response that the client waits for. -/
theorem polling_survives_text_behind :
    Transition.EveryStep step Survives newStream
      [.deliver [.uint 5, .uint 7], .deliver [.tstr [0x61]], .poll 5] := by
  refine (polling_survives_iff (Nat.zero_le _) _).mpr ⟨trivial, ?_⟩
  rintro t₁ ⟨⟩
  refine ⟨trivial, ?_⟩
  rintro t₂ ⟨⟩
  refine ⟨fun _ => ⟨fun h => absurd h (by decide), fun _ => ⟨Or.inl (by decide), rfl, ?_⟩⟩, ?_⟩
  · exact fun h => absurd rfl h
  · exact fun _ _ => trivial

/-- A packet without fields, or with a text in front, stops the search; a poll for 0 takes
the text. -/
theorem polling_breaks_on_shapes :
    (newStream.pushPacket []).dataAvailable 5 = .error .outOfRange ∧
      (newStream.pushPacket [.tstr [0x61]]).dataAvailable 5 = .error .badCast ∧
      (∃ s', (newStream.pushPacket [.tstr [0x61]]).dataAvailable 0 = .ok (true, s') ∧
        s'.bufferedPacket = [.tstr [0x61]]) ∧
      ¬ Transition.EveryStep step Survives newStream [.deliver [], .poll 5] := by
  refine ⟨rfl, rfl, ⟨_, rfl, rfl⟩, ?_⟩
  rintro ⟨-, hrest⟩
  obtain ⟨⟨available, s', havailable, -⟩, -⟩ := hrest _ rfl
  cases havailable

end RxStream

/-! ## The id of a request -/

namespace DesertClient

open RxStream

/-- `rmw_send_request`, given the value that `rand()` returns. -/
def rmwSendRequest (N : NanoCbor) {M : MessageMembers} (req : Msg M) (rand : ℕ)
    (c : DesertClient) : Except Failure (Option Packet) × DesertClient :=
  c.sendRequest N req (Int64.ofNat (rand % 1000))

/-- `read_response` returns the message that was serialized to the fields, for every message
that the type support carries. -/
def Decodes (initial : (M : MessageMembers) → Msg M) (body : Fields) (c : DesertClient) : Prop :=
  ∀ {Domain Readable : MemberCondition}, FieldLaw c.language.typeSupport Domain Readable →
    ∀ (T : MessageType), T.members.OctetFree → ∀ msg dest : Msg T.members,
      Msg.Forall Domain T.members msg → Msg.Forall Readable T.members msg →
      serialize c.language.typeSupport T.members msg = .ok body → body.length < 2 ^ 32 →
      ∃ c', c.readResponse initial dest = .ok ((c.sequenceId, Msg.rounded T.members msg), c')

/-- `has_data` returns, it returns true only for a packet with the id of the client, and what
follows the id is what `read_response` decodes. -/
def AnswersOwn (initial : (M : MessageMembers) → Msg M) (c : DesertClient) : Prop :=
  ∃ available c', c.hasData = .ok (available, c') ∧ (available = true →
    ∃ n body, c'.responseDataStream.bufferedPacket = .uint n :: body ∧
      n.toInt64 = c.sequenceId ∧ Cursor.pending c'.responseDataStream = body ∧
      c'.Decodes initial body)

lemma decodes_of_pending {initial : (M : MessageMembers) → Msg M} {body : Fields}
    {c : DesertClient} (h : Cursor.pending c.responseDataStream = body) :
    c.Decodes initial body := by
  intro Domain Readable law T hoctet msg dest hdom hreadable hser hlen
  have hread := reads_deserialize law initial T.members msg dest T.populated hoctet hdom hser hlen
  have hrun := (hread c.responseDataStream [] (by simpa using h)).1 hreadable
  refine ⟨{ c with responseDataStream :=
    (Cursor.advance body.length c.responseDataStream).clearBuffer }, ?_⟩
  rw [readResponse, hrun]
  rfl

lemma hasData_eq_ok_iff {c c' : DesertClient} {available : Bool} :
    c.hasData = .ok (available, c') ↔ ∃ rx,
      c.responseDataStream.dataAvailable c.sequenceId = .ok (available, rx) ∧
      c' = { c with responseDataStream := rx } := by
  constructor
  · intro h
    obtain ⟨⟨b, rx⟩, hrx, h⟩ := Transition.bind_eq_ok.mp h
    obtain ⟨rfl, rfl⟩ := Prod.mk.inj (Except.ok.inj h)
    exact ⟨rx, hrx, rfl⟩
  · rintro ⟨rx, hrx, rfl⟩
    rw [hasData, hrx]
    rfl

/-- A poll of a client with an empty buffer and a queue of responses. -/
lemma answersOwn_iff_of_responses {initial : (M : MessageMembers) → Msg M} {c : DesertClient}
    (hbuffer : c.responseDataStream.bufferedPacket = [])
    (hlen : c.responseDataStream.receivedPackets.length ≤ maxBufferCapacity)
    (hq : ∀ p ∈ c.responseDataStream.receivedPackets, IsResponse p) :
    c.AnswersOwn initial ↔ c.responseDataStream.receivedPackets = [] ∨
      (c.sequenceId ≠ 0 ∧ Turnable c.sequenceId c.responseDataStream.receivedPackets) := by
  constructor
  · rintro ⟨available, c', hdata, hown⟩
    obtain ⟨rx, hrx, rfl⟩ := hasData_eq_ok_iff.mp hdata
    by_cases hid : c.sequenceId = 0
    · refine Or.inl ?_
      cases hs : c.responseDataStream.receivedPackets with
      | nil => rfl
      | cons p queue =>
        -- the front packet is taken with the iterator before its id
        rw [hid, dataAvailable_zero_cons hbuffer hs] at hrx
        obtain ⟨rfl, rfl⟩ := Prod.mk.inj (Except.ok.inj hrx)
        obtain ⟨n, body, hp, -, hpending, -⟩ := hown rfl
        have hwhole : p = body := hpending
        rw [show p = .uint n :: body from hp] at hwhole
        exact absurd hwhole (List.cons_ne_self _ _)
    · exact Or.inr ⟨hid, ((dataAvailable_returns_iff hbuffer hlen hid).mp ⟨_, hrx⟩).1⟩
  · rintro (hs | ⟨hid, hturn⟩)
    · refine ⟨false, _, hasData_eq_ok_iff.mpr ⟨_, dataAvailable_nil hbuffer hs, rfl⟩, ?_⟩
      exact fun h => absurd h (by decide)
    · rcases dataAvailable_of_shaped hbuffer hid hturn (shaped_of_isResponse hq) with
        ⟨hok, -⟩ | ⟨before, packet, after, hsplit, hp, -, hok⟩
      · refine ⟨false, _, hasData_eq_ok_iff.mpr ⟨_, hok, rfl⟩, ?_⟩
        exact fun h => absurd h (by decide)
      · obtain ⟨n, body, rfl⟩ := hq packet (by simp [hsplit])
        refine ⟨true, _, hasData_eq_ok_iff.mpr ⟨_, hok, rfl⟩, fun _ => ⟨n, body, rfl, ?_, rfl, ?_⟩⟩
        · exact Except.ok.inj hp
        · exact decodes_of_pending rfl

/-- **Every id that can be drawn.**  After a request, a poll gives the client its own response
exactly when there is none to take, or the id drawn is not 0 and the search has no full
queue to turn. -/
theorem answersOwn_iff {N : NanoCbor} {initial : (M : MessageMembers) → Msg M}
    {M : MessageMembers} (req : Msg M) (rand : ℕ) {c : DesertClient} (hid : c.id ≠ 0)
    (hbuffer : c.responseDataStream.bufferedPacket = [])
    (hlen : c.responseDataStream.receivedPackets.length ≤ maxBufferCapacity)
    (hq : ∀ p ∈ c.responseDataStream.receivedPackets, IsResponse p) :
    (c.rmwSendRequest N req rand).2.AnswersOwn initial ↔
      c.responseDataStream.receivedPackets = [] ∨
        (rand % 1000 ≠ 0 ∧
          Turnable (Int64.ofNat (rand % 1000)) c.responseDataStream.receivedPackets) := by
  have hsent : (c.rmwSendRequest N req rand).2
      = { c with sequenceId := Int64.ofNat (rand % 1000) } := by
    rw [rmwSendRequest, sendRequest, if_neg hid]
  have hzero : Int64.ofNat (rand % 1000) ≠ 0 ↔ rand % 1000 ≠ 0 := by
    have hlt : rand % 1000 < 1000 := Nat.mod_lt _ (by decide)
    have hint : (Int64.ofNat (rand % 1000)).toInt = ((rand % 1000 : ℕ) : ℤ) :=
      Int64.toInt_ofNat_of_lt (by omega)
    rw [ne_eq, ← Int64.toInt_inj, hint, Int64.toInt_zero]
    omega
  rw [hsent, ← hzero]
  exact answersOwn_iff_of_responses hbuffer hlen hq

/-- Two responses wait for the client, the second of them its own. -/
def waitingClient : DesertClient :=
  ⟨1, ⟨clientType, 1, false, []⟩, ⟨clientType, 1, 0, [], [[.uint 4, .uint 8], [.uint 5, .uint 9]]⟩,
    0, .cpp⟩

lemma isResponse_waitingClient : ∀ p ∈ waitingClient.responseDataStream.receivedPackets,
    IsResponse p := by
  intro p hp
  rcases List.mem_cons.mp hp with rfl | hp
  · exact ⟨4, _, rfl⟩
  · obtain rfl := List.mem_singleton.mp hp
    exact ⟨5, _, rfl⟩

/-- The client after a request for which `rand()` returned the given number. -/
def waitingAfter (rand : ℕ) : DesertClient :=
  (waitingClient.rmwSendRequest NanoCbor.rfc8949 (M := oneByte) ((7 : UInt8), ()) rand).2

theorem answersOwn_five : (waitingAfter 2005).AnswersOwn Msg.zero :=
  (answersOwn_iff (M := oneByte) ((7 : UInt8), ()) 2005 (by decide) rfl (by decide)
    isResponse_waitingClient).mpr (Or.inr ⟨by decide, Or.inl (by decide)⟩)

/-- A client that draws 0 takes the response to another request, and decodes its id. -/
theorem answersOwn_breaks_on_zero :
    ∃ c', (waitingAfter 2000).hasData = .ok (true, c') ∧ c'.sequenceId = 0 ∧
      c'.responseDataStream.bufferedPacket = [.uint 4, .uint 8] ∧
      (∃ c'', c'.readResponse Msg.zero (Msg.zero oneByte) = .ok ((0, ((4 : UInt8), ())), c'')) ∧
      ¬ (waitingAfter 2000).AnswersOwn Msg.zero := by
  refine ⟨_, rfl, rfl, rfl, ⟨_, rfl⟩, ?_⟩
  rintro ⟨available, c', hdata, hown⟩
  obtain ⟨rfl, rfl⟩ := Prod.mk.inj (Except.ok.inj hdata)
  obtain ⟨n, body, hp, hn, -⟩ := hown rfl
  obtain rfl : (4 : UInt64) = n := Field.uint.inj (List.cons.inj hp).1
  exact absurd hn (by decide)

end DesertClient
end RmwDesert
