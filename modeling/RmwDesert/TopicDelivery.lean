/-
The delivery of messages to a subscription (`TopicNetwork`).

A packet on its way is in the log of its sender, heard by the process of the subscription, pushed
by its receiver, dispatched to the stream, held there, and read.  `Trace` says how far each packet
has come, and every event moves some packets on.  The main result is `topic_delivery`: what the
subscriber takes merges what was published on its topic, and it takes everything if nothing is
lost on the way.
-/
import RmwDesert.TopicNetwork

namespace RmwDesert

open InterpretPackets MessageSerialization
open Merge (Merges MergesAll)
open TcpDaemon (NoEarlyTail Pass Passage RepeatsStart frame)

/-- The stream has room for the packets of the receive queue that it takes. -/
def Host.Room (N : NanoCbor) (config : TopicsConfig) (k : ℕ) (host : Host) : Prop :=
  ∀ rx, host.streams[k]? = some rx →
    rx.receivedPackets.length + (host.rxPackets.filterMap (taken N config rx)).length
      ≤ maxBufferCapacity

namespace TopicNetwork

section

variable {ι : Type} [DecidableEq ι] (N : NanoCbor) (config : TopicsConfig) (sub : Subscription ι)

/-- The events of a network with this subscription: publications on its topic are of its type, the
packets can be framed, the receivers read what is in their sockets, and nobody else uses its
stream. -/
def Allowed (s : TopicNetwork ι) : Event ι → Prop
  | .publish _ topic language (M := M) msg =>
    (topic = sub.topic → sub.Fits language ⟨M, msg⟩) ∧
      ∀ packet, (DesertPublisher.create config topic language).push N msg = .ok (some packet) →
        NoEarlyTail packet
  | .transmit _ t =>
    t.Typed ∧ (∀ f ∈ t.fields, f.Streamed) ∧ ¬ t.Matches (sub.mailbox.stream config) ∧
      ∀ packet, t.tx.transmit N t.sequenceId t.fields = some packet → NoEarlyTail packet
  | .rxPass h pass => pass.received <+: (s.daemons h).incoming ∧ RepeatsStart [] pass.reads
  | .take h language k (M := M) _ =>
    h = sub.host → k = sub.index → language = sub.language ∧ M = sub.type.members
  | .readStream h k _ => ¬ (h = sub.host ∧ k = sub.index)
  | .turn _ _ | .hasData _ _ _ => True

/-- The events that lose nothing: the process hears what the others send, and its stream has room
when the queue is dispatched. -/
def Lossless (s : TopicNetwork ι) : Event ι → Prop
  | .turn g heard => g ≠ sub.host → heard sub.host = true
  | .hasData h _ _ | .take h _ _ _ => h = sub.host → (s.host h).Room N config sub.index
  | .publish _ _ _ _ | .transmit _ _ | .rxPass _ _ | .readStream _ _ _ => True

/-- Nothing was sent, and the subscriber was created. -/
structure Fresh (s : TopicNetwork ι) : Prop where
  silent : s.Silent sub.host
  stream : (s.locals sub.host)[sub.index]? = some (sub.mailbox.stream config)
  taken : s.taken sub.host sub.index = []

/-- Nothing is on its way to the subscriber. -/
structure Quiescent (s : TopicNetwork ι) : Prop where
  settled : s.Settled sub.host
  stream : ∀ rx, (s.locals sub.host)[sub.index]? = some rx →
    rx.bufferedPacket = [] ∧ rx.receivedPackets = []

/-! ### The way of the packets -/

/-- How far the packets have come that are on their way to the subscription. -/
structure Trace (ι : Type) extends Passage ι (Entry (String × AnyMsg)) where
  /-- What the subscriber has read. -/
  read : List (Entry (String × AnyMsg))
  /-- What its stream holds. -/
  held : List (Entry (String × AnyMsg))

/-- The trace accounts for the packets of all processes. -/
structure Inv (lossless : Prop) (s : TopicNetwork ι) (tr : Trace ι) : Prop where
  network : Network.Inv N config sub.mailbox (sub.OnTopic config) sub.host lossless s.toNetwork
    tr.toPassage
  receives : ∃ rx, (s.locals sub.host)[sub.index]? = some rx ∧
    sub.mailbox.Receives N config lossless (tr.dispatched.map Prod.snd) rx tr.read tr.held
  taken : (s.taken sub.host sub.index).map some
    = tr.read.map fun e => (sub.message e).map AnyMsg.rounded

end

variable {ι : Type} {N : NanoCbor} {config : TopicsConfig} {sub : Subscription ι}

/-! ### What is enqueued -/

/-- A message that was published. -/
lemma lawful_publish {topics : List (String × Int)} (htopics : topics.Pairwise fun a b => a.1 < b.1)
    (hdistinct : TopicsConfig.DistinctIdentifiers topics) (hname : sub.topic ≠ "")
    {topic : String} {language : Language} {M : MessageMembers} {msg : Msg M} {packet : Packet}
    (hfits : topic = sub.topic → sub.Fits language ⟨M, msg⟩) (htail : NoEarlyTail packet)
    (hpush : (DesertPublisher.create (.ofJson topics) topic language).push N msg
      = .ok (some packet)) {e : Entry (String × AnyMsg)}
    (he : e = ⟨⟨(DesertPublisher.create (.ofJson topics) topic language).dataStream, none,
      written (serialize language.typeSupport M) msg⟩, packet, some (topic, ⟨M, msg⟩)⟩) :
    sub.mailbox.Lawful N (.ofJson topics) e ∧ sub.OnTopic (.ofJson topics) e := by
  obtain ⟨hid, fields, hser, hsent⟩ := DesertPublisher.push_ok hpush
  have hfields : written (serialize language.typeSupport M) msg = fields := written_of_ok hser
  rw [hfields] at he
  -- the identifiers tell the topics apart
  have htakes : sub.mailbox.Takes (.ofJson topics) e ↔ topic = sub.topic := by
    rw [he]
    constructor
    · rintro ⟨-, hidentifier⟩
      exact TopicsConfig.eq_of_getTopicIdentifier_eq hdistinct hidentifier.symm hid
    · rintro rfl
      exact ⟨rfl, rfl⟩
  have hcarries : sub.mailbox.Takes (.ofJson topics) e → ∃ msg, sub.Carries e msg := by
    intro h
    obtain rfl := htakes.mp h
    obtain ⟨msg', hmsg', hdomain, hagree⟩ := hfits rfl
    obtain ⟨rfl, hmsg'⟩ := Sigma.mk.inj_iff.mp hmsg'
    obtain rfl := eq_of_heq hmsg'
    rw [he]
    exact ⟨msg, rfl, hdomain, hagree.symm.trans hser, rfl⟩
  refine ⟨⟨?_, ?_, ?_, fun h => ?_, fun h => ?_⟩, hcarries, fun h => ?_⟩
  · rw [he]
    exact ⟨streamed_language language hser, hsent⟩
  · rw [he]
    exact Or.inl rfl
  · rw [he]
    exact htail
  · obtain rfl := htakes.mp h
    rw [he]
    refine TopicsConfig.getIdentifierTopic_ne_empty ?_ hname
      (TopicsConfig.mem_of_getTopicIdentifier hid)
    rw [TopicsConfig.IsMap, List.pairwise_map]
    exact htopics
  · obtain ⟨msg', hmsg'⟩ := hcarries h
    rw [hmsg'.body]
    exact hmsg'.fields_ne_nil
  · rw [he]
    exact if_neg fun heq => h (htakes.mpr heq)

/-- Another transmission. -/
lemma lawful_transmit {t : Transmission} {packet : Packet} (htype : t.Typed)
    (hfields : ∀ f ∈ t.fields, f.Streamed) (hmatch : ¬ t.Matches (sub.mailbox.stream config))
    (htail : NoEarlyTail packet)
    (hsent : t.tx.transmit N t.sequenceId t.fields = some packet) :
    sub.mailbox.Lawful N config (⟨t, packet, none⟩ : Entry (String × AnyMsg)) ∧
      sub.OnTopic config ⟨t, packet, none⟩ :=
  ⟨⟨⟨hfields, hsent⟩, htype, htail, fun h => absurd h hmatch, fun h => absurd h hmatch⟩,
    fun h => absurd h hmatch, fun _ => rfl⟩

/-- The message for the subscriber, as it is read. -/
lemma published_map (log : List (Entry (String × AnyMsg))) :
    (sub.published log).map AnyMsg.rounded
      = log.filterMap fun e => (sub.message e).map AnyMsg.rounded := by
  rw [Subscription.published, List.map_filterMap]

/-! ### The steps -/

variable [DecidableEq ι] {initial : (M : MessageMembers) → Msg M} {lossless : Prop}
  {s t : TopicNetwork ι} {tr : Trace ι}

/-- Packets move between the daemons. -/
lemma Inv.of_network (hs : Inv N config sub lossless s tr)
    {n : Network ι (List RxStream) (String × AnyMsg)} (hlocals : n.locals = s.locals)
    (hn : ∃ p, p.dispatched = tr.dispatched ∧
      Network.Inv N config sub.mailbox (sub.OnTopic config) sub.host lossless n p) :
    ∃ tr', Inv N config sub lossless { s with toNetwork := n } tr' := by
  obtain ⟨p, hdispatched, hn⟩ := hn
  refine ⟨{ tr with toPassage := p }, hn, ?_, hs.taken⟩
  rw [hlocals, hdispatched]
  exact hs.receives

lemma locals_setHost_self (s : TopicNetwork ι) (h : ι) (host : Host) :
    (s.setHost h host).locals h = host.streams :=
  Function.update_self ..

lemma setHost_setHost (s : TopicNetwork ι) (h : ι) (host host' : Host) :
    (s.setHost h host).setHost h host' = s.setHost h host' := by
  simp only [setHost, Network.setLocal, Function.update_self, Function.update_idem]
  rfl

lemma host_setHost_self (s : TopicNetwork ι) (h : ι) (host : Host) :
    (s.setHost h host).host h = host := by
  simp only [TopicNetwork.host, setHost, Network.setLocal, Function.update_self]
  rfl

/-- Another process works. -/
lemma Inv.setHost_of_ne (hs : Inv N config sub lossless s tr) {h : ι} (hh : sub.host ≠ h)
    (host : Host) : Inv N config sub lossless (s.setHost h host) tr := by
  refine ⟨hs.network.setLocal_of_ne hh _ _, ?_, hs.taken⟩
  rw [show (s.setHost h host).locals sub.host = s.locals sub.host from Function.update_of_ne hh ..]
  exact hs.receives

/-- The process works with its streams. -/
lemma Inv.setStreams (hs : Inv N config sub lossless s tr) {streams : List RxStream}
    {rx : RxStream} (hrx : streams[sub.index]? = some rx)
    {read held : List (Entry (String × AnyMsg))}
    (hreceives : sub.mailbox.Receives N config lossless (tr.dispatched.map Prod.snd) rx read held)
    {taken : ι → ℕ → List AnyMsg} (htaken : (taken sub.host sub.index).map some
      = read.map fun e => (sub.message e).map AnyMsg.rounded) :
    Inv N config sub lossless
      { s.setHost sub.host { s.host sub.host with streams := streams } with taken := taken }
      { tr with read := read, held := held } := by
  refine ⟨hs.network.setLocal_self streams, ⟨rx, ?_, hreceives⟩, htaken⟩
  show (Function.update s.locals sub.host streams sub.host)[sub.index]? = some rx
  rw [Function.update_self]
  exact hrx

/-- The stream of another entity. -/
lemma Inv.setOther (hs : Inv N config sub lossless s tr) {h : ι} {k : ℕ}
    (hother : ¬ (h = sub.host ∧ k = sub.index)) (stream : RxStream) :
    Inv N config sub lossless
      (s.setHost h { s.host h with streams := (s.locals h).set k stream }) tr := by
  rcases eq_or_ne sub.host h with rfl | hh
  · obtain ⟨rx, hrx, hreceives⟩ := hs.receives
    have hk : k ≠ sub.index := fun hk => hother ⟨rfl, hk⟩
    exact hs.setStreams ((List.getElem?_set_ne hk).trans hrx) hreceives hs.taken
  · exact hs.setHost_of_ne hh _

/-- `interpret_packets` dispatches the queue, and the stream keeps everything if it has room. -/
lemma Inv.interpret (hN : N.Lawful) (hs : Inv N config sub lossless s tr) (h : ι)
    (hroom : lossless → h = sub.host → (s.host h).Room N config sub.index) {host : Host}
    (hinterpret : (s.host h).interpret N config = .ok host) :
    ∃ tr', Inv N config sub lossless (s.setHost h host) tr' := by
  obtain ⟨⟨streams, rest⟩, hstreams, hhost⟩ := Transition.bind_eq_ok.mp hinterpret
  obtain rfl := Except.ok.inj hhost
  rcases eq_or_ne sub.host h with rfl | hh
  · obtain ⟨rx, hrx, hreceives⟩ := hs.receives
    have hlawful := hs.network.pending_lawful
    have hqueue : (s.host sub.host).rxPackets = _ := hs.network.queue_eq
    rw [hqueue] at hstreams
    obtain ⟨rfl, hpushed⟩ := Mailbox.interpretPackets_lawful hN hlawful hstreams
    obtain ⟨held, hreceives'⟩ := hreceives.dispatch hlawful fun hlossless => by
      have hfit := hroom hlossless rfl rx hrx
      rwa [hqueue, Mailbox.filterMap_taken hN hlawful hreceives.named, List.length_map] at hfit
    rw [← List.map_append] at hreceives'
    refine ⟨{ tr with dispatched := tr.dispatched ++ tr.pending, pending := [], held := held },
      hs.network.dispatch streams, ⟨_, ?_, hreceives'⟩, hs.taken⟩
    rw [locals_setHost_self]
    exact hpushed _ rx hrx hreceives.named
  · exact ⟨tr, hs.setHost_of_ne hh _⟩

/-- `has_data` of a subscriber. -/
lemma Inv.hasData (hN : N.Lawful) (hs : Inv N config sub lossless s tr) (h : ι)
    (hroom : lossless → h = sub.host → (s.host h).Room N config sub.index)
    {language : Language} {k : ℕ} {available : Bool} {r : DesertSubscriber} {host : Host}
    (hdata : (s.host h).hasData N config language k = .ok ((available, r), host)) :
    ∃ tr', Inv N config sub lossless (s.setHost h host) tr' ∧ r.language = language ∧
      host.streams[k]? = some r.dataStream ∧
      (h = sub.host → k = sub.index → available = true →
        ∃ e rest, tr'.held = e :: rest ∧ r.dataStream.bufferedPacket = e.transmission.body) := by
  obtain ⟨host₁, hinterpret, hdata⟩ := Transition.bind_eq_ok.mp hdata
  obtain ⟨tr₁, h₁⟩ := hs.interpret hN h hroom hinterpret
  cases hstream : host₁.streams[k]? with
  | none =>
    rw [hstream] at hdata
    cases hdata
  | some stream =>
    rw [hstream] at hdata
    obtain ⟨⟨available', r'⟩, havailable, hdata⟩ := Transition.bind_eq_ok.mp hdata
    obtain ⟨⟨available'', rx'⟩, havailable', hr'⟩ := Transition.bind_eq_ok.mp havailable
    obtain ⟨rfl, rfl⟩ := Prod.mk.inj (Except.ok.inj hr')
    obtain ⟨hpair, rfl⟩ := Prod.mk.inj (Except.ok.inj hdata)
    obtain ⟨rfl, rfl⟩ := Prod.mk.inj hpair
    obtain ⟨hlt, -⟩ := List.getElem?_eq_some_iff.mp hstream
    have hset : (host₁.streams.set k rx')[k]? = some rx' := List.getElem?_set_self hlt
    by_cases hown : h = sub.host ∧ k = sub.index
    · obtain ⟨rfl, rfl⟩ := hown
      obtain ⟨rx, hrx, hreceives⟩ := h₁.receives
      rw [locals_setHost_self] at hrx
      obtain rfl := Option.some.inj (hrx.symm.trans hstream)
      obtain ⟨hreceives', hfront⟩ := hreceives.dataAvailable havailable'
      have ht := h₁.setStreams hset hreceives' h₁.taken
      rw [setHost_setHost, host_setHost_self] at ht
      exact ⟨_, ht, rfl, hset, fun _ _ htrue => hfront htrue⟩
    · have ht := h₁.setOther hown rx'
      rw [host_setHost_self, locals_setHost_self, setHost_setHost] at ht
      exact ⟨tr₁, ht, rfl, hset, fun hh hk => absurd ⟨hh, hk⟩ hown⟩

/-- `rmw_take` of a subscriber. -/
lemma Inv.take (hN : N.Lawful) (hs : Inv N config sub lossless s tr) (h : ι)
    (hroom : lossless → h = sub.host → (s.host h).Room N config sub.index)
    {language : Language} {k : ℕ} {M : MessageMembers} {dest : Msg M} {m : Option (Msg M)}
    {host : Host}
    (htypes : h = sub.host → k = sub.index → language = sub.language ∧ M = sub.type.members)
    (htake : (s.host h).take N config initial language k dest = .ok (m, host)) :
    ∃ tr', Inv N config sub lossless
      { s.setHost h host with
        taken := Function.update s.taken h (Function.update (s.taken h) k
          (s.taken h k ++ (m.map (Sigma.mk M)).toList)) } tr' := by
  -- what is taken from another stream, or is nothing
  have hsame : ∀ new : List AnyMsg, (h = sub.host → k = sub.index → new = []) →
      Function.update s.taken h (Function.update (s.taken h) k (s.taken h k ++ new))
        sub.host sub.index = s.taken sub.host sub.index := by
    intro new hnew
    rcases eq_or_ne sub.host h with hh | hh
    · rw [hh, Function.update_self]
      rcases eq_or_ne sub.index k with hk | hk
      · rw [hk, Function.update_self, hnew hh.symm hk.symm, List.append_nil]
      · rw [Function.update_of_ne hk]
    · rw [Function.update_of_ne hh]
  obtain ⟨⟨⟨available, r⟩, host₁⟩, hdata, htake⟩ := Transition.bind_eq_ok.mp htake
  obtain ⟨tr₁, h₁, hlanguage, hset, hfront⟩ := hs.hasData hN h hroom hdata
  cases available with
  | false =>
    obtain ⟨rfl, rfl⟩ := Prod.mk.inj (Except.ok.inj htake)
    exact ⟨tr₁, h₁.network, h₁.receives,
      (congrArg (List.map some) (hsame [] fun _ _ => rfl)).trans h₁.taken⟩
  | true =>
    obtain ⟨⟨msg, r'⟩, hread, htake⟩ := Transition.bind_eq_ok.mp htake
    obtain ⟨rfl, rfl⟩ := Prod.mk.inj (Except.ok.inj htake)
    by_cases hown : h = sub.host ∧ k = sub.index
    · obtain ⟨rfl, rfl⟩ := hown
      obtain ⟨rfl, rfl⟩ := htypes rfl rfl
      obtain ⟨e, rest, hheld, hbuffer⟩ := hfront rfl rfl rfl
      obtain ⟨rx, hrx, hreceives⟩ := h₁.receives
      rw [locals_setHost_self] at hrx
      obtain rfl := Option.some.inj (hrx.symm.trans hset)
      rw [hheld] at hreceives
      obtain ⟨hmem, htakes⟩ := hreceives.of_mem_held List.mem_cons_self
      have hlawful := hreceives.lawful e hmem
      obtain ⟨msg', hmsg'⟩ := (h₁.network.dispatched_holds e hmem).carries htakes
      have hne : r.dataStream.bufferedPacket ≠ [] := by
        rw [hbuffer]
        exact hlawful.body_ne htakes
      obtain ⟨rfl, hempty, hqueue, htype, hidentifier⟩ := hmsg'.readData hN hlawful.enqueues
        hlanguage hbuffer (hreceives.iterator hne) hread
      have hreceives' := hreceives.readFront hbuffer hempty hqueue htype hidentifier
      obtain ⟨hlt, -⟩ := List.getElem?_eq_some_iff.mp hset
      let taken := Function.update s.taken sub.host (Function.update (s.taken sub.host) sub.index
        (s.taken sub.host sub.index ++ [⟨_, Msg.rounded _ msg'⟩]))
      have htaken : (taken sub.host sub.index).map some
          = (tr₁.read ++ [e]).map fun e => (sub.message e).map AnyMsg.rounded := by
        simp only [taken]
        rw [Function.update_self, Function.update_self, List.map_append, List.map_append,
          List.map_singleton, List.map_singleton, hmsg'.message]
        exact congrArg (· ++ _) h₁.taken
      have ht := h₁.setStreams (List.getElem?_set_self hlt) hreceives' htaken
      rw [setHost_setHost, host_setHost_self] at ht
      exact ⟨_, ht⟩
    · have ht := h₁.setOther hown r'.dataStream
      rw [host_setHost_self, locals_setHost_self, setHost_setHost] at ht
      exact ⟨tr₁, ht.network, ht.receives,
        (congrArg (List.map some) (hsame _ fun hh hk => absurd ⟨hh, hk⟩ hown)).trans ht.taken⟩

/-- Every event moves packets on. -/
lemma Inv.step (hN : N.Lawful) {topics : List (String × Int)}
    (htopics : topics.Pairwise fun a b => a.1 < b.1)
    (hdistinct : TopicsConfig.DistinctIdentifiers topics) (hname : sub.topic ≠ "")
    (hs : Inv N (.ofJson topics) sub lossless s tr) {event : Event ι}
    (hallowed : s.Allowed N (.ofJson topics) sub event)
    (hlossless : lossless → s.Lossless N (.ofJson topics) sub event)
    (hstep : s.step N (.ofJson topics) initial event = .ok t) :
    ∃ tr', Inv N (.ofJson topics) sub lossless t tr' := by
  cases event with
  | @publish g topic language M msg =>
    cases hpush : (DesertPublisher.create (.ofJson topics) topic language).push N msg with
    | error failure =>
      simp only [TopicNetwork.step, hpush] at hstep
      obtain rfl := Except.ok.inj hstep
      exact ⟨tr, hs⟩
    | ok packet? =>
      cases packet? with
      | none =>
        simp only [TopicNetwork.step, hpush] at hstep
        obtain rfl := Except.ok.inj hstep
        exact ⟨tr, hs⟩
      | some packet =>
        simp only [TopicNetwork.step, hpush] at hstep
        obtain rfl := Except.ok.inj hstep
        exact hs.of_network rfl (hs.network.enqueue hN g (lawful_publish htopics hdistinct hname
          hallowed.1 (hallowed.2 packet hpush) hpush rfl))
  | transmit g t =>
    obtain ⟨htype, hfields, hmatch, htail⟩ := hallowed
    cases hsent : t.tx.transmit N t.sequenceId t.fields with
    | none =>
      simp only [TopicNetwork.step, hsent] at hstep
      obtain rfl := Except.ok.inj hstep
      exact ⟨tr, hs⟩
    | some packet =>
      simp only [TopicNetwork.step, hsent] at hstep
      obtain rfl := Except.ok.inj hstep
      exact hs.of_network rfl (hs.network.enqueue hN g
        (lawful_transmit htype hfields hmatch (htail packet hsent) hsent))
  | turn g heard =>
    obtain rfl := Except.ok.inj hstep
    exact hs.of_network rfl (hs.network.turn g hlossless)
  | rxPass h pass =>
    obtain rfl := Except.ok.inj hstep
    exact hs.of_network rfl (hs.network.rxPass h hallowed)
  | hasData h language k =>
    obtain ⟨⟨⟨available, r⟩, host⟩, hdata, hstep⟩ := Transition.bind_eq_ok.mp hstep
    obtain rfl := Except.ok.inj hstep
    obtain ⟨tr', ht, -⟩ := hs.hasData hN h hlossless hdata
    exact ⟨tr', ht⟩
  | @take h language k M dest =>
    obtain ⟨⟨m, host⟩, htake, hstep⟩ := Transition.bind_eq_ok.mp hstep
    obtain rfl := Except.ok.inj hstep
    exact hs.take hN h hlossless hallowed htake
  | readStream h k stream =>
    obtain rfl := Except.ok.inj hstep
    exact ⟨tr, hs.setOther hallowed stream⟩

/-- Nothing is on its way at the start. -/
lemma Fresh.inv (hs : s.Fresh config sub) (lossless : Prop) :
    Inv N config sub lossless s ⟨⟨[], 0, [], []⟩, [], []⟩ where
  network := hs.silent.inv lossless
  receives := ⟨_, hs.stream, Mailbox.Receives.start⟩
  taken := by
    rw [hs.taken]
    rfl

/-! ### What has been taken -/

/-- The messages that were taken come from the entries that were read. -/
lemma Inv.taken_eq (hs : Inv N config sub lossless s tr) :
    s.taken sub.host sub.index
      = tr.read.filterMap fun e => (sub.message e).map AnyMsg.rounded := by
  have htaken := congrArg (List.filterMap id) hs.taken
  rw [List.filterMap_map, List.filterMap_map, Function.id_comp, Function.id_comp,
    List.filterMap_some] at htaken
  exact htaken

/-- The messages among the dispatched entries are those that reach the stream. -/
lemma Inv.filterMap_dispatched (hs : Inv N config sub lossless s tr) :
    tr.dispatched.filterMap (fun e => (sub.message e.2).map AnyMsg.rounded)
      = ((tr.dispatched.map Prod.snd).filter (sub.mailbox.Takes config ·)).filterMap
          fun e => (sub.message e).map AnyMsg.rounded := by
  rw [List.filterMap_filter, List.filterMap_map]
  refine List.filterMap_congr fun e he => ?_
  have hlog := hs.network.dispatched_holds e.2 (List.mem_map_of_mem he)
  simp only [Function.comp_apply]
  split_ifs with htakes
  · rfl
  · rw [hlog.other (by simpa using htakes)]
    rfl

/-- A quiescent stream holds nothing. -/
lemma Inv.held_eq_nil (hs : Inv N config sub lossless s tr) (hquiet : s.Quiescent sub) :
    tr.held = [] := by
  obtain ⟨rx, hrx, hreceives⟩ := hs.receives
  obtain ⟨hbuffer, hqueue⟩ := hquiet.stream rx hrx
  have hheld := hreceives.held_eq
  rw [RxStream.held, if_pos hbuffer, hqueue] at hheld
  exact List.map_eq_nil_iff.mp hheld.symm

/-- **Delivery.** Whatever the processes do, what a subscriber takes merges the messages that were
published on its topic, each of them at most once and those of one process in the order of their
publication; and it takes all of them if nothing is lost on the way. -/
theorem topic_delivery (hN : N.Lawful) {topics : List (String × Int)}
    (htopics : topics.Pairwise fun a b => a.1 < b.1)
    (hdistinct : TopicsConfig.DistinctIdentifiers topics) (hname : sub.topic ≠ "")
    (hs : s.Fresh (.ofJson topics) sub) {events : List (Event ι)}
    (hallowed : Transition.EveryStep (step N (.ofJson topics) initial)
      (Allowed N (.ofJson topics) sub) s events)
    (hrun : Transition.run (step N (.ofJson topics) initial) s events = .ok t) :
    Merges (fun g => (sub.published (t.log g)).map AnyMsg.rounded)
        (t.taken sub.host sub.index) ∧
      (Transition.EveryStep (step N (.ofJson topics) initial)
          (Lossless N (.ofJson topics) sub) s events → t.Quiescent sub →
        MergesAll (fun g => (sub.published (t.log g)).map AnyMsg.rounded)
          (t.taken sub.host sub.index)) := by
  simp only [published_map]
  constructor
  · obtain ⟨tr, ht⟩ := Transition.run_invariant
      (I := fun s => ∃ tr, Inv N (.ofJson topics) sub False s tr)
      (fun ⟨_, hu⟩ hok hstep => hu.step hN htopics hdistinct hname hok False.elim hstep)
      ⟨_, hs.inv False⟩ hallowed hrun
    obtain ⟨rx, -, hreceives⟩ := ht.receives
    refine Merge.merges_of_sublist ht.network.delivers.dispatched_sublist ?_
    rw [ht.taken_eq, ht.filterMap_dispatched]
    exact ((List.sublist_append_left _ _).trans hreceives.delivered).filterMap _
  · intro hlossless hquiet
    obtain ⟨tr, ht⟩ := Transition.run_invariant
      (I := fun s => ∃ tr, Inv N (.ofJson topics) sub True s tr)
      (fun ⟨_, hu⟩ hok hstep => hu.step hN htopics hdistinct hname hok.1 (fun _ => hok.2) hstep)
      ⟨_, hs.inv True⟩ (hallowed.and hlossless) hrun
    obtain ⟨rx, -, hreceives⟩ := ht.receives
    have hall := ht.network.delivers.dispatched_eq trivial hquiet.settled.txPackets
      hquiet.settled.incoming hquiet.settled.rxPackets
    refine Merge.mergesAll_of_eq hall ?_
    rw [ht.taken_eq, ht.filterMap_dispatched, ← hreceives.delivered_eq trivial,
      ht.held_eq_nil hquiet, List.append_nil]

/-! ### Two processes -/

/-- A subscriber of one byte in the second process. -/
def byteSubscription : Subscription Bool where
  host := true
  index := 0
  topic := "/a"
  language := .cpp
  type := ⟨oneByte, by decide⟩
  members_ne := nofun
  octetFree := by decide

/-- A publisher's process and the subscriber's. -/
def twoProcesses : TopicNetwork Bool where
  daemons _ := ⟨.initial, [], .initial⟩
  locals h := if h then [byteSubscription.mailbox.stream (.ofJson [("/a", 1)])] else []
  log _ := []
  taken _ _ := []

/-- A pass that reads the frame of the packet `00 01 07`. -/
def samplePass : Pass := .single (frame [0x00, 0x01, 0x07]) (by decide) (by decide)

/-- A sample that is published, sent, heard, read and taken. -/
def sampleEvents : List (Event Bool) :=
  [.publish false "/a" .cpp (M := oneByte) ((7 : UInt8), ()), .turn false fun _ => true,
    .rxPass true samplePass, .take true .cpp 0 (M := oneByte) ((0 : UInt8), ())]

set_option maxRecDepth 10000 in
theorem topic_delivery_sample :
    ∃ t, Transition.run (step NanoCbor.rfc8949 (.ofJson [("/a", 1)]) Msg.zero) twoProcesses
        sampleEvents = .ok t ∧
      t.taken true 0 = [⟨oneByte, ((7 : UInt8), ())⟩] ∧
      MergesAll (fun g => (byteSubscription.published (t.log g)).map AnyMsg.rounded)
        (t.taken true 0) := by
  have hfresh : twoProcesses.Fresh (.ofJson [("/a", 1)]) byteSubscription :=
    ⟨⟨fun _ => rfl, fun _ => rfl, rfl, rfl⟩, rfl, rfl⟩
  have hallowed : Transition.EveryStep (step NanoCbor.rfc8949 (.ofJson [("/a", 1)]) Msg.zero)
      (Allowed NanoCbor.rfc8949 (.ofJson [("/a", 1)]) byteSubscription) twoProcesses
      sampleEvents := by
    refine ⟨⟨fun _ => ⟨((7 : UInt8), ()), rfl, ⟨fun _ _ => trivial, trivial⟩, rfl⟩, ?_⟩,
      fun s₁ h₁ => ⟨trivial, fun s₂ h₂ => ⟨?_, fun s₃ h₃ => ⟨fun _ _ => ⟨rfl, rfl⟩,
        fun _ _ => trivial⟩⟩⟩⟩
    · rintro packet hpush
      obtain rfl := Option.some.inj (Except.ok.inj hpush)
      decide
    · obtain rfl := Except.ok.inj h₁
      obtain rfl := Except.ok.inj h₂
      exact ⟨List.prefix_refl _, TcpDaemon.repeatsStart_of_length_le_one (le_refl _)⟩
  have hlossless : Transition.EveryStep (step NanoCbor.rfc8949 (.ofJson [("/a", 1)]) Msg.zero)
      (Lossless NanoCbor.rfc8949 (.ofJson [("/a", 1)]) byteSubscription) twoProcesses
      sampleEvents := by
    refine ⟨trivial, fun s₁ h₁ => ⟨fun _ => rfl, fun s₂ h₂ => ⟨trivial, fun s₃ h₃ =>
      ⟨fun _ rx hrx => ?_, fun _ _ => trivial⟩⟩⟩⟩
    obtain rfl := Except.ok.inj h₁
    obtain rfl := Except.ok.inj h₂
    obtain rfl := Except.ok.inj h₃
    obtain rfl := Option.some.inj hrx
    decide
  have htopics : List.Pairwise (fun a b => a.1 < b.1) [("/a", (1 : ℤ))] :=
    List.pairwise_singleton _ _
  have hdistinct : TopicsConfig.DistinctIdentifiers [("/a", 1)] := by
    unfold TopicsConfig.DistinctIdentifiers
    decide
  refine ⟨_, rfl, rfl, ?_⟩
  refine (topic_delivery NanoCbor.rfc8949_lawful htopics hdistinct (by decide) hfresh hallowed
    rfl).2 hlossless ⟨⟨?_, rfl, rfl⟩, ?_⟩
  · intro g
    cases g with
    | false => rfl
    | true => rfl
  · intro rx hrx
    obtain rfl := Option.some.inj hrx
    exact ⟨rfl, rfl⟩

end TopicNetwork

end RmwDesert
