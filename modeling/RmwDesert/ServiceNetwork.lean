/-
The clients and the server of a service.

Every packet is on the air and may be heard by any of the streams, any number of times and in
any order; this covers clients in one process and clients on several nodes.  A response is
matched with a request by the sequence id only, which `rmw_send_request` draws at random.  The
main result, `client_isolation`, says under which conditions on the ids and on the order of
calls no client reads a response to a request of another client.
-/
import RmwDesert.DesertClient
import RmwDesert.DesertService
import RmwDesert.MessageRoundTrip

namespace RmwDesert

open InterpretPackets MessageSerialization RxStream

/-- The clients and the server of a service, and what has happened so far. -/
structure ServiceNetwork (ι : Type) where
  /-- The clients. -/
  clients : ι → DesertClient
  /-- The server. -/
  service : DesertService
  /-- The sequence ids that the clients drew for their requests. -/
  drawn : List (ι × Int64)
  /-- The requests that the clients enqueued. -/
  requests : List (ι × Packet)
  /-- The requests that the server read, the last one first, each with the `sequence_number`
  that `read_request` reported. -/
  taken : List (Int64 × Fields)
  /-- The responses that the server enqueued, each with the request that it answers. -/
  responses : List (Fields × Packet)

namespace ServiceNetwork

/-- The calls on the clients and the server, and what their streams hear. -/
inductive Event (ι : Type) (Req Res : MessageMembers)
  /-- `rmw_send_request` of a client, with the sequence id that it draws. -/
  | sendRequest (i : ι) (req : Msg Req) (sequenceId : Int64)
  /-- `interpret_packets` on the request stream of the server. -/
  | serviceHears (packet : Packet)
  /-- `has_data` of the server. -/
  | serviceHasData
  /-- `read_request`. -/
  | readRequest (req : Msg Req)
  /-- `send_response` to the `k`-th of the requests read, counted from the last one. -/
  | sendResponse (k : ℕ) (res : Msg Res)
  /-- `interpret_packets` on the response stream of a client. -/
  | clientHears (i : ι) (packet : Packet)
  /-- `has_data` of a client. -/
  | clientHasData (i : ι)
  /-- `read_response` of a client. -/
  | readResponse (i : ι) (res : Msg Res)

section

variable {ι : Type} [DecidableEq ι]

/-- The packets on the air. -/
def air (s : ServiceNetwork ι) : List Packet :=
  s.requests.map Prod.snd ++ s.responses.map Prod.snd

/-- One of the clients replaced. -/
def setClient (i : ι) (client : DesertClient) (s : ServiceNetwork ι) : ServiceNetwork ι :=
  { s with clients := Function.update s.clients i client }

variable (N : NanoCbor) (config : TopicsConfig) (initial : (M : MessageMembers) → Msg M)
  {Req Res : MessageMembers}

/-- One event. -/
def step (s : ServiceNetwork ι) : Event ι Req Res → Except Failure (ServiceNetwork ι)
  | .sendRequest i req sequenceId =>
    let result := (s.clients i).sendRequest N req sequenceId
    .ok { s.setClient i result.2 with
      drawn := if (s.clients i).id = 0 then s.drawn else (i, sequenceId) :: s.drawn
      requests := logged i s.requests result.1 }
  | .serviceHears packet =>
    if packet ∈ s.air then do
      let rx ← hear N config packet s.service.requestDataStream
      return { s with service := { s.service with requestDataStream := rx } }
    else .ok s
  | .serviceHasData => do
    let (_, service) ← s.service.hasData
    return { s with service := service }
  | .readRequest req => do
    let ((sequenceNumber, _), service) ← s.service.readRequest initial req
    return { s with
      service := service
      taken := (sequenceNumber, s.service.requestDataStream.bufferedPacket) :: s.taken }
  | .sendResponse k res =>
    match s.taken[k]? with
    | none => .ok s
    | some (sequenceNumber, request) =>
      let (sent, _) := s.service.sendResponse N res sequenceNumber
      .ok { s with responses := logged request s.responses sent }
  | .clientHears i packet =>
    if packet ∈ s.air then do
      let rx ← hear N config packet (s.clients i).responseDataStream
      return s.setClient i { s.clients i with responseDataStream := rx }
    else .ok s
  | .clientHasData i => do
    let (_, client) ← (s.clients i).hasData
    return s.setClient i client
  | .readResponse i res => do
    let (_, client) ← (s.clients i).readResponse initial res
    return s.setClient i client

/-- The packet that the next `read_response` of a client decodes. -/
abbrev buffered (s : ServiceNetwork ι) (i : ι) : Fields :=
  (s.clients i).responseDataStream.bufferedPacket

/-- The packet is decoded to these fields. -/
def Carries (packet : Packet) (fields : Fields) : Prop :=
  ∃ d, Interprets N config packet d ∧ d.interpretedPacket = fields

/-- The packet that a client is about to read answers a request of that client, and no request
of another one. -/
def Isolated (s : ServiceNetwork ι) (i : ι) : Prop :=
  s.buffered i ≠ [] →
    (∃ r ∈ s.responses, Carries N config r.2 (s.buffered i) ∧
      ∃ q ∈ s.requests, q.1 = i ∧ Carries N config q.2 r.1) ∧
    ∀ r ∈ s.responses, Carries N config r.2 (s.buffered i) →
      ∀ q ∈ s.requests, Carries N config q.2 r.1 → q.1 = i

/-- The clients and the server of a service that have been constructed.  Their language, and
the topics that they belong to, are arbitrary; so are the sequence ids, which are not
initialised. -/
structure Fresh (s : ServiceNetwork ι) : Prop where
  client_request : ∀ i, (s.clients i).requestDataStream.streamType = clientType
  client_response : ∀ i, (s.clients i).responseDataStream.streamType = clientType
  client_queue : ∀ i, (s.clients i).responseDataStream.receivedPackets = []
  client_buffer : ∀ i, s.buffered i = []
  service_request : s.service.requestDataStream.streamType = serviceType
  service_response : s.service.responseDataStream.streamType = serviceType
  service_queue : s.service.requestDataStream.receivedPackets = []
  service_buffer : s.service.requestDataStream.bufferedPacket = []
  drawn : s.drawn = []
  requests : s.requests = []
  taken : s.taken = []
  responses : s.responses = []

/-- The conditions on an event under which the sequence ids tell the clients apart. -/
def InOrder (s : ServiceNetwork ι) : Event ι Req Res → Prop
  -- the id is not the one that matches every response, and no other client drew it
  | .sendRequest i _ sequenceId => (s.clients i).id ≠ 0 →
    sequenceId ≠ 0 ∧ ∀ d ∈ s.drawn, d.2 = sequenceId → d.1 = i
  -- a client polls after it has drawn its first id
  | .clientHasData i =>
    (s.clients i).responseDataStream.receivedPackets = [] ∨ ∃ d ∈ s.drawn, d.1 = i
  -- the response answers the last request read
  | .sendResponse k _ => ∀ r ∈ s.taken[k]?, ∀ last ∈ s.taken.head?, r.1 = last.1
  | _ => True

end

/-! ## Sent packets -/

section

variable (N : NanoCbor) {config : TopicsConfig}

/-- The packets that a stream of this type enqueues with this sequence id. -/
def Sent (streamType : UInt8) (sequenceId : Int64) (packet : Packet) : Prop :=
  ∃ (tx : TxStream) (fields : Fields), tx.streamType = streamType ∧
    (∀ f ∈ fields, f.Streamed) ∧ tx.transmit N (some sequenceId.toUInt64) fields = some packet

variable {N} (hN : N.Lawful) {streamType : UInt8} {sequenceId : Int64} {packet : Packet}

include hN

lemma Sent.interprets (h : Sent N streamType sequenceId packet) {d : Interpreted}
    (hd : Interprets N config packet d) :
    d.streamType = streamType ∧ sequenceField d.interpretedPacket = .ok sequenceId := by
  obtain ⟨tx, fields, rfl, hfields, hsent⟩ := h
  obtain ⟨htype, hpacket⟩ := Interprets.of_transmit hN hfields hsent hd
  refine ⟨htype, ?_⟩
  rw [hpacket]
  exact congrArg Except.ok (Int64.toInt64_toUInt64 sequenceId)

lemma Sent.carries (h : Sent N streamType sequenceId packet) {fields : Fields}
    (hp : Carries N config packet fields) : sequenceField fields = .ok sequenceId := by
  obtain ⟨d, hd, rfl⟩ := hp
  exact (h.interprets hN hd).2

omit hN

lemma sent_sendRequest {M : MessageMembers} {req : Msg M} {c : DesertClient}
    (h : (c.sendRequest N req sequenceId).1 = .ok (some packet)) :
    c.id ≠ 0 ∧ Sent N c.requestDataStream.streamType sequenceId packet := by
  obtain ⟨hid, fields, hser, hsent⟩ := DesertClient.sendRequest_ok h
  exact ⟨hid, c.requestDataStream, fields, rfl, streamed_language c.language hser, hsent⟩

lemma sent_sendResponse {M : MessageMembers} {res : Msg M} {sequenceNumber : Int64}
    {c : DesertService} (h : (c.sendResponse N res sequenceNumber).1 = .ok (some packet)) :
    Sent N c.responseDataStream.streamType c.sequenceId packet := by
  obtain ⟨-, fields, hser, hsent⟩ := DesertService.sendResponse_ok.mp h
  exact ⟨c.responseDataStream, fields, rfl, streamed_language c.language hser, hsent⟩

end

/-! ## The invariant -/

section

variable {ι : Type} (N : NanoCbor) (config : TopicsConfig)

/-- What holds of a client: it holds responses only, and the buffered one has an id that the
client drew. -/
structure ClientInv (drawn : List (ι × Int64)) (responses : List (Fields × Packet)) (i : ι)
    (c : DesertClient) : Prop where
  request_type : c.requestDataStream.streamType = clientType
  response_type : c.responseDataStream.streamType = clientType
  queue : ∀ p ∈ c.responseDataStream.receivedPackets, ∃ r ∈ responses, Carries N config r.2 p
  buffer : c.responseDataStream.bufferedPacket ≠ [] →
    (∃ r ∈ responses, Carries N config r.2 c.responseDataStream.bufferedPacket) ∧
    ∃ n, (i, n) ∈ drawn ∧ sequenceField c.responseDataStream.bufferedPacket = .ok n
  id_drawn : ∀ d ∈ drawn, d.1 = i → (i, c.sequenceId) ∈ drawn

/-- What holds of the server: it holds requests only, and keeps the id of the last one read. -/
structure ServiceInv (requests : List (ι × Packet)) (taken : List (Int64 × Fields))
    (c : DesertService) : Prop where
  request_type : c.requestDataStream.streamType = serviceType
  response_type : c.responseDataStream.streamType = serviceType
  queue : ∀ p ∈ c.requestDataStream.receivedPackets, ∃ q ∈ requests, Carries N config q.2 p
  buffer : c.requestDataStream.bufferedPacket ≠ [] → c.requestDataStream.bufferedIterator = 0 ∧
    ∃ q ∈ requests, Carries N config q.2 c.requestDataStream.bufferedPacket
  last : ∀ r ∈ taken.head?, r.1 = c.sequenceId

/-- What holds of the packets: a request carries an id of its client, and a response carries
the id of the request that it answers. -/
structure LogInv (drawn : List (ι × Int64)) (requests : List (ι × Packet))
    (taken : List (Int64 × Fields)) (responses : List (Fields × Packet)) : Prop where
  ne_zero : ∀ d ∈ drawn, d.2 ≠ 0
  distinct : ∀ d ∈ drawn, ∀ e ∈ drawn, d.2 = e.2 → d.1 = e.1
  request : ∀ q ∈ requests, ∃ n, (q.1, n) ∈ drawn ∧ Sent N clientType n q.2
  request_taken : ∀ r ∈ taken, sequenceField r.2 = .ok r.1 ∧
    ∃ q ∈ requests, Carries N config q.2 r.2
  response : ∀ r ∈ responses, (∃ q ∈ requests, Carries N config q.2 r.1) ∧
    ∃ n, sequenceField r.1 = .ok n ∧ Sent N serviceType n r.2

/-- What holds of a network in which every event was in order. -/
structure Inv (s : ServiceNetwork ι) : Prop where
  client : ∀ i, ClientInv N config s.drawn s.responses i (s.clients i)
  service : ServiceInv N config s.requests s.taken s.service
  log : LogInv N config s.drawn s.requests s.taken s.responses

variable {N config}

lemma Fresh.inv {s : ServiceNetwork ι} (h : s.Fresh) : Inv N config s where
  client i :=
    { request_type := h.client_request i
      response_type := h.client_response i
      queue := by simp [h.client_queue i]
      buffer := fun hne => absurd (h.client_buffer i) hne
      id_drawn := by simp [h.drawn] }
  service :=
    { request_type := h.service_request
      response_type := h.service_response
      queue := by simp [h.service_queue]
      buffer := fun hne => absurd h.service_buffer hne
      last := by simp [h.taken] }
  log :=
    { ne_zero := by simp [h.drawn]
      distinct := by simp [h.drawn]
      request := by simp [h.requests]
      request_taken := by simp [h.taken]
      response := by simp [h.responses] }

/-- The ids tell whose request a response answers. -/
theorem Inv.isolated (hN : N.Lawful) {s : ServiceNetwork ι} (hs : Inv N config s) (i : ι) :
    Isolated N config s i := by
  intro hne
  obtain ⟨⟨r, hr, hcarries⟩, n, hdrawn, hn⟩ := (hs.client i).buffer hne
  have howner : ∀ r ∈ s.responses, Carries N config r.2 (s.buffered i) →
      ∀ q ∈ s.requests, Carries N config q.2 r.1 → q.1 = i := by
    intro r hr hrb q hq hqr
    obtain ⟨-, m, hm, hresponse⟩ := hs.log.response r hr
    obtain ⟨k, hk, hrequest⟩ := hs.log.request q hq
    -- the ids of the request, of the response and of the client are the same
    have hmn : m = n := Except.ok.inj ((hresponse.carries hN hrb).symm.trans hn)
    have hkm : k = m := Except.ok.inj ((hrequest.carries hN hqr).symm.trans hm)
    exact hs.log.distinct _ hk _ hdrawn (hkm.trans hmn)
  obtain ⟨⟨q, hq, hqr⟩, -⟩ := hs.log.response r hr
  exact ⟨⟨r, hr, hcarries, q, hq, howner r hr hcarries q hq hqr, hqr⟩, howner⟩

end

/-! ## The steps -/

section

variable {ι : Type} {N : NanoCbor} {config : TopicsConfig} {i : ι} {drawn : List (ι × Int64)}
  {requests requests' : List (ι × Packet)} {taken : List (Int64 × Fields)}
  {responses responses' : List (Fields × Packet)}

lemma ClientInv.mono {c : DesertClient} (h : ClientInv N config drawn responses i c)
    (hsub : responses ⊆ responses') : ClientInv N config drawn responses' i c where
  request_type := h.request_type
  response_type := h.response_type
  queue := by
    intro p hp
    obtain ⟨r, hr, hcarries⟩ := h.queue p hp
    exact ⟨r, hsub hr, hcarries⟩
  buffer := by
    intro hne
    obtain ⟨⟨r, hr, hcarries⟩, hid⟩ := h.buffer hne
    exact ⟨⟨r, hsub hr, hcarries⟩, hid⟩
  id_drawn := h.id_drawn

/-- Another client draws an id. -/
lemma ClientInv.of_ne {c : DesertClient} (h : ClientInv N config drawn responses i c) {j : ι}
    (hne : j ≠ i) (n : Int64) : ClientInv N config ((j, n) :: drawn) responses i c where
  request_type := h.request_type
  response_type := h.response_type
  queue := h.queue
  buffer := by
    intro hbuffer
    obtain ⟨hresponse, m, hm, hfield⟩ := h.buffer hbuffer
    exact ⟨hresponse, m, List.mem_cons_of_mem _ hm, hfield⟩
  id_drawn := by
    intro d hd hdi
    rcases List.mem_cons.mp hd with rfl | hd
    · exact absurd hdi hne
    · exact List.mem_cons_of_mem _ (h.id_drawn d hd hdi)

/-- The client draws an id and keeps it. -/
lemma ClientInv.draw {c : DesertClient} (h : ClientInv N config drawn responses i c) (n : Int64) :
    ClientInv N config ((i, n) :: drawn) responses i { c with sequenceId := n } where
  request_type := h.request_type
  response_type := h.response_type
  queue := h.queue
  buffer := by
    intro hbuffer
    obtain ⟨hresponse, m, hm, hfield⟩ := h.buffer hbuffer
    exact ⟨hresponse, m, List.mem_cons_of_mem _ hm, hfield⟩
  id_drawn := fun _ _ _ => List.mem_cons_self

lemma ServiceInv.mono {c : DesertService} (h : ServiceInv N config requests taken c)
    (hsub : requests ⊆ requests') : ServiceInv N config requests' taken c where
  request_type := h.request_type
  response_type := h.response_type
  queue := by
    intro p hp
    obtain ⟨q, hq, hcarries⟩ := h.queue p hp
    exact ⟨q, hsub hq, hcarries⟩
  buffer := by
    intro hne
    obtain ⟨hiterator, q, hq, hcarries⟩ := h.buffer hne
    exact ⟨hiterator, q, hsub hq, hcarries⟩
  last := h.last

variable [DecidableEq ι] {initial : (M : MessageMembers) → Msg M} {Req Res : MessageMembers}
  {s t : ServiceNetwork ι}

lemma Inv.setClient (hs : Inv N config s) {c : DesertClient}
    (hc : ClientInv N config s.drawn s.responses i c) : Inv N config (s.setClient i c) where
  client j := by
    by_cases hj : j = i
    · subst hj
      simpa [ServiceNetwork.setClient] using hc
    · simpa [ServiceNetwork.setClient, hj] using hs.client j
  service := hs.service
  log := hs.log

lemma Inv.sendRequest (hs : Inv N config s) {req : Msg Req} {n : Int64}
    (hok : s.InOrder (.sendRequest i req n : Event ι Req Res))
    (hstep : s.step N config initial (.sendRequest i req n : Event ι Req Res) = .ok t) :
    Inv N config t := by
  have ht : t = { s.setClient i ((s.clients i).sendRequest N req n).2 with
      drawn := if (s.clients i).id = 0 then s.drawn else (i, n) :: s.drawn
      requests := logged i s.requests ((s.clients i).sendRequest N req n).1 } :=
    (Except.ok.inj hstep).symm
  by_cases hid : (s.clients i).id = 0
  · -- a disabled client sends nothing
    have hsame : (s.clients i).sendRequest N req n = (.ok none, s.clients i) := if_pos hid
    rw [hsame, if_pos hid] at ht
    subst ht
    exact hs.setClient (hs.client i)
  · obtain ⟨hzero, hother⟩ := hok hid
    have hclient : ((s.clients i).sendRequest N req n).2
        = { s.clients i with sequenceId := n } := by
      rw [DesertClient.sendRequest, if_neg hid]
    rw [hclient, if_neg hid] at ht
    subst ht
    have hsub : s.requests ⊆ logged i s.requests ((s.clients i).sendRequest N req n).1 :=
      fun q hq => mem_logged.mpr (Or.inl hq)
    refine ⟨fun j => ?_, hs.service.mono hsub, ⟨?_, ?_, ?_, ?_, ?_⟩⟩
    · by_cases hj : j = i
      · subst hj
        simpa [ServiceNetwork.setClient] using (hs.client j).draw n
      · simpa [ServiceNetwork.setClient, hj] using (hs.client j).of_ne (Ne.symm hj) n
    · intro d hd
      rcases List.mem_cons.mp hd with rfl | hd
      · exact hzero
      · exact hs.log.ne_zero d hd
    · intro d hd e he hde
      rcases List.mem_cons.mp hd with rfl | hd <;> rcases List.mem_cons.mp he with rfl | he
      · rfl
      · exact (hother e he hde.symm).symm
      · exact hother d hd hde
      · exact hs.log.distinct d hd e he hde
    · intro q hq
      rcases mem_logged.mp hq with hq | ⟨hqi, hsent⟩
      · obtain ⟨m, hm, hrequest⟩ := hs.log.request q hq
        exact ⟨m, List.mem_cons_of_mem _ hm, hrequest⟩
      · have hrequest := (sent_sendRequest hsent).2
        rw [(hs.client i).request_type] at hrequest
        exact ⟨n, by rw [hqi]; exact List.mem_cons_self, hrequest⟩
    · intro r hr
      obtain ⟨hfield, q, hq, hcarries⟩ := hs.log.request_taken r hr
      exact ⟨hfield, q, hsub hq, hcarries⟩
    · intro r hr
      obtain ⟨⟨q, hq, hcarries⟩, hresponse⟩ := hs.log.response r hr
      exact ⟨⟨q, hsub hq, hcarries⟩, hresponse⟩

lemma Inv.sendResponse (hs : Inv N config s) {k : ℕ} {res : Msg Res}
    (hok : s.InOrder (.sendResponse k res : Event ι Req Res))
    (hstep : s.step N config initial (.sendResponse k res : Event ι Req Res) = .ok t) :
    Inv N config t := by
  simp only [step] at hstep
  cases hk : s.taken[k]? with
  | none =>
    rw [hk] at hstep
    obtain rfl := Except.ok.inj hstep
    exact hs
  | some r =>
    obtain ⟨n, request⟩ := r
    rw [hk] at hstep
    have ht : t = { s with responses :=
        (logged request s.responses (s.service.sendResponse N res n).1) } :=
      (Except.ok.inj hstep).symm
    subst ht
    have hsub : s.responses ⊆ logged request s.responses (s.service.sendResponse N res n).1 :=
      fun q hq => mem_logged.mpr (Or.inl hq)
    refine ⟨fun j => (hs.client j).mono hsub, hs.service, ?_⟩
    refine ⟨hs.log.ne_zero, hs.log.distinct, hs.log.request, hs.log.request_taken, fun r hr => ?_⟩
    rcases mem_logged.mp hr with hr | ⟨hrequest, hsent⟩
    · exact hs.log.response r hr
    · -- the service writes the id of the last request, which is the one answered
      obtain ⟨hfield, hcarries⟩ := hs.log.request_taken _ (List.mem_of_getElem? hk)
      obtain ⟨last, hlast⟩ : ∃ last, s.taken.head? = some last := by
        cases htaken : s.taken with
        | nil => simp [htaken] at hk
        | cons last taken => exact ⟨last, rfl⟩
      have hid : n = s.service.sequenceId :=
        (hok _ hk _ hlast).trans (hs.service.last last hlast)
      have hresponse := sent_sendResponse hsent
      rw [hs.service.response_type] at hresponse
      rw [hrequest]
      exact ⟨hcarries, n, hfield, by rw [hid]; exact hresponse⟩

lemma Inv.serviceHears (hN : N.Lawful) (hs : Inv N config s) {packet : Packet}
    (hstep : s.step N config initial (.serviceHears packet : Event ι Req Res) = .ok t) :
    Inv N config t := by
  simp only [step] at hstep
  split_ifs at hstep with hair
  · obtain ⟨rx, hrx, hstep⟩ := Transition.bind_eq_ok.mp hstep
    cases hstep
    rcases hear_ok hrx with rfl | ⟨d, hd, htype, rfl⟩
    · exact hs
    · refine ⟨hs.client, { hs.service with queue := ?_ }, hs.log⟩
      rw [hs.service.request_type] at htype
      intro p hp
      rcases CircularQueue.mem_push hp with hp | rfl
      · exact hs.service.queue p hp
      · rcases List.mem_append.mp hair with hair | hair
        · obtain ⟨q, hq, rfl⟩ := List.mem_map.mp hair
          exact ⟨q, hq, d, hd, rfl⟩
        · -- a response does not match the request stream
          obtain ⟨r, hr, rfl⟩ := List.mem_map.mp hair
          obtain ⟨-, n, -, hresponse⟩ := hs.log.response r hr
          rw [(hresponse.interprets hN hd).1] at htype
          exact absurd htype (by decide)
  · cases hstep
    exact hs

lemma Inv.clientHears (hN : N.Lawful) (hs : Inv N config s) {packet : Packet}
    (hstep : s.step N config initial (.clientHears i packet : Event ι Req Res) = .ok t) :
    Inv N config t := by
  simp only [step] at hstep
  split_ifs at hstep with hair
  · obtain ⟨rx, hrx, hstep⟩ := Transition.bind_eq_ok.mp hstep
    cases hstep
    have hc := hs.client i
    rcases hear_ok hrx with rfl | ⟨d, hd, htype, rfl⟩
    · exact hs.setClient hc
    · refine hs.setClient { hc with queue := ?_ }
      rw [hc.response_type] at htype
      intro p hp
      rcases CircularQueue.mem_push hp with hp | rfl
      · exact hc.queue p hp
      · rcases List.mem_append.mp hair with hair | hair
        · -- a request does not match a response stream
          obtain ⟨q, hq, rfl⟩ := List.mem_map.mp hair
          obtain ⟨n, -, hrequest⟩ := hs.log.request q hq
          rw [(hrequest.interprets hN hd).1] at htype
          exact absurd htype (by decide)
        · obtain ⟨r, hr, rfl⟩ := List.mem_map.mp hair
          exact ⟨r, hr, d, hd, rfl⟩
  · cases hstep
    exact hs

lemma Inv.serviceHasData (hs : Inv N config s)
    (hstep : s.step N config initial (.serviceHasData : Event ι Req Res) = .ok t) :
    Inv N config t := by
  obtain ⟨⟨available, service⟩, hdata, hstep⟩ := Transition.bind_eq_ok.mp hstep
  obtain ⟨⟨available', rx⟩, hpoll, hdata⟩ := Transition.bind_eq_ok.mp hdata
  cases hdata
  cases hstep
  obtain ⟨htype, hqueue, hbuffer⟩ := dataAvailable_ok hpoll
  have hc := hs.service
  refine ⟨hs.client, ⟨htype.trans hc.request_type, hc.response_type,
    fun p hp => hc.queue p (hqueue p hp), fun hne => ?_, hc.last⟩, hs.log⟩
  rcases hbuffer with ⟨hpacket, hiterator⟩ | ⟨hmem, -, hiterator⟩
  · rw [hpacket] at hne ⊢
    rw [hiterator]
    exact hc.buffer hne
  · exact ⟨hiterator rfl, hc.queue _ hmem⟩

lemma Inv.clientHasData (hs : Inv N config s)
    (hok : s.InOrder (.clientHasData i : Event ι Req Res))
    (hstep : s.step N config initial (.clientHasData i : Event ι Req Res) = .ok t) :
    Inv N config t := by
  obtain ⟨⟨available, client⟩, hdata, hstep⟩ := Transition.bind_eq_ok.mp hstep
  obtain ⟨⟨available', rx⟩, hpoll, hdata⟩ := Transition.bind_eq_ok.mp hdata
  cases hdata
  cases hstep
  obtain ⟨htype, hqueue, hbuffer⟩ := dataAvailable_ok hpoll
  have hc := hs.client i
  refine hs.setClient ⟨hc.request_type, htype.trans hc.response_type,
    fun p hp => hc.queue p (hqueue p hp), fun hne => ?_, hc.id_drawn⟩
  rcases hbuffer with ⟨hpacket, -⟩ | ⟨hmem, hfield, -⟩
  · rw [hpacket] at hne ⊢
    exact hc.buffer hne
  · -- a queued response with the id of the client, which the client drew
    rcases hok with hempty | ⟨d, hd, hdi⟩
    · rw [hempty] at hmem
      cases hmem
    · have hdrawn := hc.id_drawn d hd hdi
      exact ⟨hc.queue _ hmem, _, hdrawn, hfield (hs.log.ne_zero _ hdrawn)⟩

lemma Inv.readRequest (hN : N.Lawful) (hs : Inv N config s) {req : Msg Req}
    (hstep : s.step N config initial (.readRequest req : Event ι Req Res) = .ok t) :
    Inv N config t := by
  obtain ⟨⟨⟨n, msg⟩, service⟩, hread, hstep⟩ := Transition.bind_eq_ok.mp hstep
  cases hstep
  obtain ⟨f, hf, hn⟩ := DesertService.readRequest_sequenceNumber hread
  obtain ⟨hid, -, -, htx, hbuffered, hqueued, hrx, -⟩ := DesertService.readRequest_ok hread
  have hc := hs.service
  have hne : s.service.requestDataStream.bufferedPacket ≠ [] := by
    intro hempty
    rw [current, hempty] at hf
    cases hf
  obtain ⟨hiterator, q, hq, hcarries⟩ := hc.buffer hne
  obtain ⟨m, -, hrequest⟩ := hs.log.request q hq
  have hfield := hrequest.carries hN hcarries
  -- the request begins with its id, which is what the service extracts
  have hnm : n = m := by
    rw [current, hiterator] at hf
    cases hpacket : s.service.requestDataStream.bufferedPacket with
    | nil => exact absurd hpacket hne
    | cons g body =>
      rw [hpacket] at hf hfield
      obtain rfl : g = f := Option.some.inj hf
      cases g with
      | uint k =>
        rw [hn]
        exact Except.ok.inj hfield
      | nint k =>
        rw [hn]
        exact Except.ok.inj hfield
      | float bits => cases hfield
      | tstr str => cases hfield
  refine ⟨hs.client, ⟨?_, ?_, ?_, fun h => absurd hbuffered h, ?_⟩,
    { hs.log with request_taken := ?_ }⟩
  · exact hrx.trans hc.request_type
  · rw [htx]
    exact hc.response_type
  · rw [hqueued]
    exact hc.queue
  · rintro r ⟨⟩
    exact hid.symm
  · intro r hr
    rcases List.mem_cons.mp hr with rfl | hr
    · exact ⟨by rw [hnm]; exact hfield, q, hq, hcarries⟩
    · exact hs.log.request_taken r hr

lemma Inv.readResponse (hs : Inv N config s) {res : Msg Res}
    (hstep : s.step N config initial (.readResponse i res : Event ι Req Res) = .ok t) :
    Inv N config t := by
  obtain ⟨⟨⟨n, msg⟩, client⟩, hread, hstep⟩ := Transition.bind_eq_ok.mp hstep
  cases hstep
  obtain ⟨-, hid, hbuffered, hqueued, htx, hrx⟩ := DesertClient.readResponse_ok hread
  have hc := hs.client i
  refine hs.setClient ⟨?_, ?_, ?_, fun h => absurd hbuffered h, ?_⟩
  · rw [htx]
    exact hc.request_type
  · exact hrx.trans hc.response_type
  · rw [hqueued]
    exact hc.queue
  · rw [hid]
    exact hc.id_drawn

/-- Every event in order preserves the invariant. -/
lemma Inv.step (hN : N.Lawful) {event : Event ι Req Res} (hs : Inv N config s)
    (hok : s.InOrder event) (hstep : s.step N config initial event = .ok t) : Inv N config t := by
  cases event with
  | sendRequest i req n => exact hs.sendRequest hok hstep
  | serviceHears packet => exact hs.serviceHears hN hstep
  | serviceHasData => exact hs.serviceHasData hstep
  | readRequest req => exact hs.readRequest hN hstep
  | sendResponse k res => exact hs.sendResponse hok hstep
  | clientHears i packet => exact hs.clientHears hN hstep
  | clientHasData i => exact hs.clientHasData hok hstep
  | readResponse i res => exact hs.readResponse hstep

/-- **Client isolation.** If no client draws the id 0 or an id of another client, no client
polls before its first request, and the server answers each request before it reads the next
one, then a client reads only responses to its own requests. -/
theorem client_isolation (hN : N.Lawful) (hs : s.Fresh) {events : List (Event ι Req Res)}
    (hok : Transition.EveryStep (step N config initial) InOrder s events)
    (hrun : Transition.run (step N config initial) s events = .ok t) :
    ∀ i, t.Isolated N config i := by
  have ht : Inv N config t :=
    Transition.run_invariant (fun hs hok hstep => Inv.step hN hs hok hstep) hs.inv hok hrun
  exact ht.isolated hN

end

/-! ## Two clients -/

/-- A configuration with one service. -/
def oneService : TopicsConfig := .loadConfiguration [("/service", 1)]

/-- Two new clients and a new server of the service. -/
def twoClients : ServiceNetwork Bool where
  clients _ := ⟨1, ⟨clientType, 1, false, []⟩, ⟨clientType, 1, 0, [], []⟩, 0, .cpp⟩
  service := ⟨1, ⟨serviceType, 1, 0, [], []⟩, ⟨serviceType, 1, false, []⟩, 0, .cpp⟩
  drawn := []
  requests := []
  taken := []
  responses := []

/-- Both clients send a request, and the server reads that of the first client, which has the
id 7, and answers it. -/
def firstAnswered (second : Int64) : List (Event Bool oneByte oneByte) :=
  [.sendRequest false ((5 : UInt8), ()) 7, .sendRequest true ((6 : UInt8), ()) second,
    .serviceHears [0x02, 0x01, 0x07, 0x05], .serviceHasData, .readRequest ((0 : UInt8), ()),
    .sendResponse 0 ((9 : UInt8), ())]

/-- A client hears the response and polls. -/
def polled (i : Bool) : List (Event Bool oneByte oneByte) :=
  [.clientHears i [0x03, 0x01, 0x07, 0x09], .clientHasData i]

theorem client_isolation_firstAnswered :
    ∃ t, Transition.run (step NanoCbor.rfc8949 oneService Msg.zero) twoClients
        (firstAnswered 8 ++ polled false) = .ok t ∧
      t.buffered false = [.uint 7, .uint 9] ∧
      ∀ i, t.Isolated NanoCbor.rfc8949 oneService i := by
  have hfresh : twoClients.Fresh :=
    ⟨fun _ => rfl, fun _ => rfl, fun _ => rfl, fun _ => rfl, rfl, rfl, rfl, rfl, rfl, rfl, rfl, rfl⟩
  have hok : Transition.EveryStep (step NanoCbor.rfc8949 oneService Msg.zero) InOrder twoClients
      (firstAnswered 8 ++ polled false) := by
    refine ⟨fun _ => ⟨by decide, by rintro d ⟨⟩⟩, ?_⟩
    rintro t₁ ⟨⟩
    refine ⟨fun _ => ⟨by decide, by rintro d (_ | ⟨_, ⟨⟩⟩) ⟨⟩⟩, ?_⟩
    rintro t₂ ⟨⟩
    refine ⟨trivial, ?_⟩
    rintro t₃ ⟨⟩
    refine ⟨trivial, ?_⟩
    rintro t₄ ⟨⟩
    refine ⟨trivial, ?_⟩
    rintro t₅ ⟨⟩
    refine ⟨by rintro r ⟨⟩ last ⟨⟩; rfl, ?_⟩
    rintro t₆ ⟨⟩
    refine ⟨trivial, ?_⟩
    rintro t₇ ⟨⟩
    refine ⟨Or.inr ⟨(false, 7), by decide, rfl⟩, ?_⟩
    rintro t₈ ⟨⟩
    exact trivial
  exact ⟨_, rfl, rfl, client_isolation NanoCbor.rfc8949_lawful hfresh hok rfl⟩

/-- The second client, with the response buffered. -/
def secondClient : DesertClient :=
  ⟨1, ⟨clientType, 1, false, []⟩, ⟨clientType, 1, 1, [.uint 7, .uint 9], []⟩, 7, .cpp⟩

/-- Both clients draw the id 7, and the second one reads the response to the first one. -/
theorem equal_ids_break_isolation :
    ∃ t client, Transition.run (step NanoCbor.rfc8949 oneService Msg.zero) twoClients
        (firstAnswered 7 ++ polled true) = .ok t ∧
      t.clients true = secondClient ∧
      secondClient.readResponse Msg.zero (Msg.zero oneByte)
        = .ok ((7, ((9 : UInt8), ())), client) ∧
      ¬ t.Isolated NanoCbor.rfc8949 oneService true := by
  obtain ⟨t, hrun, hclient, hresponses, hrequests⟩ :
      ∃ t, Transition.run (step NanoCbor.rfc8949 oneService Msg.zero) twoClients
          (firstAnswered 7 ++ polled true) = .ok t ∧
        t.clients true = secondClient ∧
        t.responses = [([.uint 7, .uint 5], [0x03, 0x01, 0x07, 0x09])] ∧
        t.requests = [(true, [0x02, 0x01, 0x07, 0x06]), (false, [0x02, 0x01, 0x07, 0x05])] :=
    ⟨_, rfl, rfl, rfl, rfl⟩
  refine ⟨t, _, hrun, hclient, rfl, fun hisolated => ?_⟩
  have hresponse : Carries NanoCbor.rfc8949 oneService [0x03, 0x01, 0x07, 0x09]
      [.uint 7, .uint 9] :=
    ⟨⟨serviceType, 1, "/service", [.uint 7, .uint 9]⟩, ⟨rfl, by decide⟩, rfl⟩
  have hrequest : Carries NanoCbor.rfc8949 oneService [0x02, 0x01, 0x07, 0x05]
      [.uint 7, .uint 5] :=
    ⟨⟨clientType, 1, "/service", [.uint 7, .uint 5]⟩, ⟨rfl, by decide⟩, rfl⟩
  rw [Isolated, buffered, hclient, hresponses, hrequests] at hisolated
  have hfirst := (hisolated (by decide)).2 _ List.mem_cons_self hresponse
    (false, [0x02, 0x01, 0x07, 0x05]) (by decide) hrequest
  exact absurd hfirst (by decide)

end ServiceNetwork
end RmwDesert
