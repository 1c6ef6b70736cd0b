/-
The listener thread (`discovery_thread` of `Discovery.cpp`).

Packets are interpreted, by the thread or by anyone else, and the thread handles one beacon in
each turn of its loop.  As long as its queue has room, it handles all beacons among the packets,
in their order (`run_spec`).  So its cache is the one of the beacons that the processes sent, and
the queries report their entities (`graph_of_processes`).
-/
import RmwDesert.Discovery.Network

namespace RmwDesert

open InterpretPackets TcpDaemon

namespace Discovery

/-- The thread: its stream, and the cache of the context. -/
structure Listener (Γ : Type) where
  /-- `discovery_beacon_stream`. -/
  stream : RxStream
  /-- `graph_cache`. -/
  cache : Γ

namespace Listener

/-- What happens to the thread. -/
inductive Event
  /-- A call of `interpret_packets`, with the packets that it finds in the receive queue. -/
  | interpret (packets : List Packet)
  /-- The rest of a turn of the loop. -/
  | turn

/-- The packets that are interpreted. -/
def packets (events : List Event) : List Packet :=
  events.flatMap fun
    | .interpret packets => packets
    | .turn => []

section

variable (N : NanoCbor) (config : TopicsConfig) {Γ : Type} (G : GraphCache Γ)

/-- The thread starts, in the context that `rmw_init` makes. -/
def start : Listener Γ := ⟨beaconStream config, (initial G).cache⟩

/-- An event of the thread. -/
def step (t : Listener Γ) : Event → Except Failure (Listener Γ)
  | .interpret packets => do
    let (listening, _) ← interpretPackets N config maxPacketLength packets [t.stream]
    return { t with stream := listening.headD t.stream }
  | .turn => do
    let (stream, cache) ← discoveryTurn G t.cache t.stream
    return ⟨stream, cache⟩

/-- The queue of the stream has room for the beacons. -/
def Room (t : Listener Γ) : Event → Prop
  | .interpret packets => ∀ ds rest,
    dispatched N config maxPacketLength true packets = .ok (ds, rest) →
    t.stream.receivedPackets.length + (ds.filterMap (accepted t.stream)).length ≤ maxBufferCapacity
  | .turn => True

end

variable {N : NanoCbor} {config : TopicsConfig} {Γ : Type} {G : GraphCache Γ} {V : Contents Γ}

/-- The thread handles the beacon in front of its queue. -/
lemma discoveryTurn_cons (b : Beacon) {stream : RxStream} {queue : List Fields} (c : Γ)
    (hbuffer : stream.bufferedPacket = [])
    (hqueue : stream.receivedPackets = beaconFields b :: queue) :
    discoveryTurn G c stream = (handleBeacon G b c).map fun c =>
      ({ stream with bufferedPacket := [], receivedPackets := queue,
                     bufferedIterator := (beaconFields b).length }, c) := by
  obtain ⟨loaded, hloaded⟩ : ∃ loaded : RxStream, loaded = { stream with
      bufferedPacket := beaconFields b, receivedPackets := queue, bufferedIterator := 0 } :=
    ⟨_, rfl⟩
  have havailable : stream.dataAvailable 0 = .ok (true, loaded) :=
    hloaded ▸ RxStream.dataAvailable_zero_cons hbuffer hqueue
  have hpending : Reader.Cursor.pending loaded = beaconFields b ++ [] := by
    rw [hloaded, List.append_nil]
    rfl
  have hread := (reads_receiveBeacon b loaded [] hpending).1 trivial
  have hcleared : (Reader.Cursor.advance (beaconFields b).length loaded).clearBuffer
      = { stream with bufferedPacket := [], receivedPackets := queue,
                      bufferedIterator := (beaconFields b).length } := by
    rw [hloaded]
    simp only [RxStream.clearBuffer, Reader.Cursor.advance, RxStream.advance, Nat.zero_add]
  rw [discoveryTurn, havailable]
  simp only [bind, Except.bind, if_true, hread, hcleared]
  cases handleBeacon G b c <;> rfl

lemma discoveryTurn_nil {stream : RxStream} (c : Γ) (hbuffer : stream.bufferedPacket = [])
    (hqueue : stream.receivedPackets = []) :
    discoveryTurn G c stream = .ok (stream, c) := by
  rw [discoveryTurn, RxStream.dataAvailable_nil hbuffer hqueue]
  rfl

/-- Every beacon is handled. -/
lemma handleBeacon_ok (hG : G.Lawful V) (b : Beacon) (c : Γ) :
    ∃ c', handleBeacon G b c = .ok c' := by
  obtain ⟨node, hnode, -⟩ := rebuildNode_ok hG b c
  exact ⟨register G b c node, by rw [handleBeacon, hnode]; rfl⟩

/-- The cache after the beacons. -/
lemma run_cache {s t : Discovered Γ} {beacons : List Beacon}
    (h : Transition.run (Discovery.step G) s beacons = .ok t) :
    Transition.run (fun c b => handleBeacon G b c) s.cache beacons = .ok t.cache := by
  induction beacons generalizing s with
  | nil =>
    obtain rfl := Except.ok.inj h
    rfl
  | cons b beacons ih =>
    obtain ⟨u, hstep, h⟩ := Transition.run_cons h
    obtain ⟨c, hc, hu⟩ := Transition.bind_eq_ok.mp hstep
    obtain rfl := Except.ok.inj hu
    exact Transition.bind_eq_ok.mpr ⟨c, hc, ih h⟩

/-- A queue with room takes all packets. -/
lemma receivedPackets_pushAll {s : RxStream} {packets : List Fields}
    (h : s.receivedPackets.length + packets.length ≤ maxBufferCapacity) :
    s.pushAll packets = { s with receivedPackets := s.receivedPackets ++ packets } := by
  have hzero : (s.receivedPackets ++ packets).length - maxBufferCapacity = 0 := by
    rw [List.length_append]
    omega
  rw [RxStream.pushAll_eq (by omega), List.rtake, hzero, List.drop_zero]

/-- The packets of some calls, one after the other. -/
lemma wire_split {packets packets' : List Packet} {beacons : List Beacon}
    (h : Middleware.Wire N config (packets ++ packets') beacons) :
    ∃ first second, beacons = first ++ second ∧ Middleware.Wire N config packets first ∧
      Middleware.Wire N config packets' second := by
  obtain ⟨sent, hsent, htyped, hbeacons⟩ := h
  rw [← List.take_append_drop packets.length sent, List.filter_append, List.map_append] at hbeacons
  obtain ⟨first, second, rfl, hfirst, hsecond⟩ := List.map_eq_append_iff.mp hbeacons.symm
  exact ⟨first, second, rfl,
    ⟨_, List.forall₂_take_append _ _ _ hsent, fun t ht => htyped t (List.mem_of_mem_take ht),
      hfirst.symm⟩,
    ⟨_, List.forall₂_drop_append _ _ _ hsent, fun t ht => htyped t (List.mem_of_mem_drop ht),
      hsecond.symm⟩⟩

/-- What the stream takes out of the packets. -/
lemma dispatched_wire (hN : N.Lawful)
    (hdiscovery : config.getIdentifierTopic (config.getTopicIdentifier "/discovery") ≠ "")
    {stream : RxStream} (hstream : stream.Named config subscriberType "/discovery")
    {packets : List Packet} {beacons : List Beacon}
    (h : Middleware.Wire N config packets beacons) :
    ∃ ds, dispatched N config maxPacketLength true packets = .ok (ds, []) ∧
      ds.filterMap (accepted stream) = beacons.map beaconFields := by
  obtain ⟨sent, hsent, htyped, hbeacons⟩ := h
  refine ⟨_, Transmission.dispatched_filter hN hsent htyped le_rfl true, ?_⟩
  rw [Transmission.filterMap_accepted, ← hbeacons, List.filter_filter]
  congr 1
  refine List.filter_congr fun t _ => ?_
  have hmatches : t.Matches stream ↔ t.Matches (beaconStream config) := by
    rw [Transmission.Matches, hstream.1, hstream.2]
    rfl
  -- what reaches the stream has the identifier of `/discovery`
  have hknown : t.Matches (beaconStream config) →
      config.getIdentifierTopic t.tx.streamIdentifier ≠ "" := by
    rintro ⟨-, hidentifier⟩
    rw [← hidentifier]
    exact hdiscovery
  by_cases ht : t.Matches (beaconStream config)
  · simp [ht, hmatches, hknown ht]
  · simp [ht, hmatches]

/-- The thread handles the beacons among the packets, in their order. -/
lemma run_spec (hN : N.Lawful) (hG : G.Lawful V)
    (hdiscovery : config.getIdentifierTopic (config.getTopicIdentifier "/discovery") ≠ "")
    {events : List Event} {t : Listener Γ}
    (hstream : t.stream.Named config subscriberType "/discovery")
    (hbuffer : t.stream.bufferedPacket = []) {queue beacons : List Beacon}
    (hqueue : t.stream.receivedPackets = queue.map beaconFields)
    (hroom : Transition.EveryStep (step N config G) (Room N config) t events)
    (hwire : Middleware.Wire N config (packets events) beacons) :
    ∃ t' handled rest, Transition.run (step N config G) t events = .ok t' ∧
      queue ++ beacons = handled ++ rest ∧ t'.stream.receivedPackets = rest.map beaconFields ∧
      Transition.run (fun c b => handleBeacon G b c) t.cache handled = .ok t'.cache := by
  induction events generalizing t queue beacons with
  | nil =>
    obtain ⟨sent, hsent, -, hbeacons⟩ := hwire
    obtain rfl := List.forall₂_nil_right_iff.mp hsent
    have hnil : beacons = [] := List.map_eq_nil_iff.mp hbeacons.symm
    exact ⟨t, [], queue, rfl, by rw [hnil, List.append_nil, List.nil_append], hqueue, rfl⟩
  | cons event events ih =>
    cases event with
    | interpret arrived =>
      obtain ⟨first, second, hbeacons, hfirst, hsecond⟩ :
          ∃ first second, beacons = first ++ second ∧ Middleware.Wire N config arrived first ∧
            Middleware.Wire N config (packets events) second := wire_split hwire
      obtain ⟨ds, hds, haccepted⟩ := dispatched_wire hN hdiscovery hstream hfirst
      have hfits : t.stream.receivedPackets.length + (first.map beaconFields).length
          ≤ maxBufferCapacity := haccepted ▸ hroom.1 ds [] hds
      obtain ⟨stream, hpushed⟩ : ∃ stream, stream = { t.stream with
          receivedPackets := t.stream.receivedPackets ++ first.map beaconFields } := ⟨_, rfl⟩
      have hstep : step N config G t (.interpret arrived) = .ok { t with stream := stream } := by
        rw [step, interpretPackets_eq]
        simp only [List.isEmpty_cons, Bool.not_false, hds, bind, Except.bind, Except.map,
          List.map_cons, List.map_nil, haccepted, receivedPackets_pushAll hfits, ← hpushed]
        rfl
      have hqueue' : stream.receivedPackets = (queue ++ first).map beaconFields := by
        rw [hpushed, List.map_append, ← hqueue]
      obtain ⟨t', handled, rest, hrun, hsplit, hrest, hcache⟩ := ih
        (t := { t with stream := stream }) (by rw [hpushed]; exact hstream)
        (by rw [hpushed]; exact hbuffer) hqueue' ((Transition.everyStep_cons hstep).mp hroom).2
        hsecond
      exact ⟨t', handled, rest, Transition.bind_eq_ok.mpr ⟨_, hstep, hrun⟩,
        by rw [hbeacons, ← List.append_assoc, hsplit], hrest, hcache⟩
    | turn =>
      have hwire' : Middleware.Wire N config (packets events) beacons := hwire
      cases queue with
      | nil =>
        have hstep : step N config G t .turn = .ok t := by
          rw [step, discoveryTurn_nil t.cache hbuffer hqueue]
          rfl
        obtain ⟨t', handled, rest, hrun, hspec⟩ := ih hstream hbuffer hqueue
          ((Transition.everyStep_cons hstep).mp hroom).2 hwire'
        exact ⟨t', handled, rest, Transition.bind_eq_ok.mpr ⟨t, hstep, hrun⟩, hspec⟩
      | cons b queue =>
        obtain ⟨c, hc⟩ := handleBeacon_ok hG b t.cache
        have hturn := discoveryTurn_cons (G := G) b t.cache hbuffer hqueue
        rw [hc] at hturn
        have hstep : step N config G t .turn = .ok ⟨{ t.stream with
            bufferedPacket := [], receivedPackets := queue.map beaconFields,
            bufferedIterator := (beaconFields b).length }, c⟩ := by
          rw [step, hturn]
          rfl
        obtain ⟨t', handled, rest, hrun, hsplit, hrest, hcache⟩ := ih
          (t := ⟨{ t.stream with
            bufferedPacket := [], receivedPackets := queue.map beaconFields,
            bufferedIterator := (beaconFields b).length }, c⟩)
          hstream rfl rfl ((Transition.everyStep_cons hstep).mp hroom).2 hwire'
        refine ⟨t', b :: handled, rest, Transition.bind_eq_ok.mpr ⟨_, hstep, hrun⟩, ?_, hrest,
          Transition.bind_eq_ok.mpr ⟨c, hc, hcache⟩⟩
        rw [List.cons_append, hsplit, List.cons_append]

end Listener

/-! ## All processes -/

section

variable {ι : Type} [DecidableEq ι] {N : NanoCbor} {config : TopicsConfig}

/-- Packets of several processes carry the beacons of these processes. -/
lemma wire_mergesAll {packets : ι → List Packet} {logs : ι → List Beacon}
    (h : ∀ i, Middleware.Wire N config (packets i) (logs i)) {values : List Packet}
    (hall : Merge.MergesAll packets values) :
    ∃ beacons, Merge.MergesAll logs beacons ∧ Middleware.Wire N config values beacons := by
  choose sent hsent htyped hlogs using h
  obtain ⟨all, hmerged, hvalues⟩ := hall.exists_forall₂ hsent
  have hbodies : ∀ sent : List Transmission, (sent.filterMap fun t =>
      if t.Matches (beaconStream config) then some t.body else none)
      = (sent.filter (·.Matches (beaconStream config))).map Transmission.body := by
    intro sent
    rw [← List.filterMap_eq_filter, List.map_filterMap]
    refine List.filterMap_congr fun t _ => ?_
    by_cases ht : t.Matches (beaconStream config) <;> simp [Option.guard, ht]
  obtain ⟨entries, hentries, hsources⟩ := id hmerged
  have hvalues' : (all.filterMap fun t =>
      if t.Matches (beaconStream config) then some t.body else none)
      = entries.filterMap fun e =>
        if e.2.Matches (beaconStream config) then some e.2.body else none := by
    rw [← hentries, List.filterMap_map]
    rfl
  have hfields := Merge.mergesAll_of_eq (f := fun t : Transmission =>
    if t.Matches (beaconStream config) then some t.body else none) hsources hvalues'
  simp only [hbodies, hlogs] at hfields
  have hlog : ∀ i, List.Forall₂ (fun b fields => beaconFields b = fields) (logs i)
      ((logs i).map beaconFields) := by
    intro i
    rw [List.forall₂_map_right_iff]
    exact List.forall₂_same.mpr fun _ _ => rfl
  obtain ⟨beacons, hbeacons, hsame⟩ := hfields.exists_forall₂ hlog
  refine ⟨beacons, hbeacons, all, hvalues, fun t ht => ?_, ?_⟩
  · obtain ⟨i, hi⟩ := hmerged.mem_iff.mp ht
    exact htyped i t hi
  · have heq : List.Forall₂ (· = ·) (beacons.map beaconFields)
        ((all.filter (·.Matches (beaconStream config))).map Transmission.body) :=
      List.forall₂_map_left_iff.mpr hsame
    rw [List.forall₂_eq_eq_eq] at heq
    exact heq.symm

/-- **Discovery.**  Processes create and destroy nodes and entities, publish, call services and
answer requests, in any order; the packets that they send from some moment on arrive at a thread
in any order that keeps the order of each process, and are interpreted at any time.  If the nodes
that were there at that moment answer a request, the thread handles all beacons, and in any state
in which its queue is empty the queries report exactly the configured entities that live in
these processes. -/
theorem graph_of_processes {Γ : Type} {G : WholeGraphCache Γ} {V : Contents Γ} (hN : N.Lawful)
    (hcompact : N.Compact) (hG : G.Lawful V) {topics : List (String × Int)}
    (htopics : topics.Pairwise fun a b => a.1 < b.1)
    (hdistinct : TopicsConfig.DistinctIdentifiers topics)
    (hdiscovery : (TopicsConfig.ofJson topics).getTopicIdentifier "/discovery" ≠ 0)
    (hrequest : (TopicsConfig.ofJson topics).getTopicIdentifier "/discovery_request" ≠ 0)
    {processes : ι → Middleware.Participant N (.ofJson topics)}
    (hgids : ∀ i j, ∀ gid ∈ (processes i).gids, gid ∈ (processes j).gids → i = j)
    {events : List Listener.Event}
    (hheard : Merge.MergesAll (fun i => (processes i).heard) (Listener.packets events))
    (hroom : Transition.EveryStep (Listener.step N (.ofJson topics) G.toGraphCache)
      (Listener.Room N (.ofJson topics)) (Listener.start (.ofJson topics) G.toGraphCache) events) :
    ∃ t, Transition.run (Listener.step N (.ofJson topics) G.toGraphCache)
        (Listener.start (.ofJson topics) G.toGraphCache) events = .ok t ∧
      (t.stream.receivedPackets = [] →
        Reports G t.cache fun x =>
          ∃ i, Middleware.Lives (.ofJson topics) (processes i).final x) := by
  have hunique : ∀ name, (TopicsConfig.ofJson topics).getTopicIdentifier name
      = (TopicsConfig.ofJson topics).getTopicIdentifier "/discovery" → name = "/discovery" :=
    fun name heq => TopicsConfig.eq_of_getTopicIdentifier_eq hdistinct heq (heq ▸ hdiscovery)
  have hknown : (TopicsConfig.ofJson topics).getIdentifierTopic
      ((TopicsConfig.ofJson topics).getTopicIdentifier "/discovery") ≠ "" := by
    have hmap : TopicsConfig.IsMap (topics.map fun topic => (topic.1, UInt8.ofInt topic.2)) := by
      rw [TopicsConfig.IsMap, List.pairwise_map]
      exact htopics
    exact TopicsConfig.getIdentifierTopic_ne_empty hmap (by decide)
      (TopicsConfig.mem_of_getTopicIdentifier hdiscovery)
  choose logs hwire hconsistent hmem hlives hlive using fun i =>
    (processes i).spec hN hcompact hdiscovery hrequest hunique
  obtain ⟨beacons, hbeacons, hall⟩ := wire_mergesAll hwire hheard
  have hseparate : Separate logs :=
    ⟨hconsistent, fun i b hb j x hx hgid => hgids j i _ (hmem j x hx) (hgid ▸ hmem i b hb)⟩
  obtain ⟨s, hs, hreports⟩ := graph_converges hG hseparate hbeacons
  have hqueue : (Listener.start (.ofJson topics) G.toGraphCache).stream.receivedPackets
      = ([] : List Beacon).map beaconFields := rfl
  obtain ⟨t, handled, rest, hrun, hsplit, hrest, hcache⟩ :=
    Listener.run_spec hN hG.lawful hknown ⟨rfl, rfl⟩ rfl hqueue hroom hall
  refine ⟨t, hrun, fun hempty => ?_⟩
  -- with an empty queue, all beacons were handled
  rw [hempty] at hrest
  have hnil : rest = [] := List.map_eq_nil_iff.mp hrest.symm
  rw [List.nil_append, hnil, List.append_nil] at hsplit
  subst hsplit
  have hsame : t.cache = s.cache :=
    Except.ok.inj (hcache.symm.trans (Listener.run_cache hs))
  rw [hsame]
  refine hreports.congr (fun x => ?_) fun x => ?_
  · rintro ⟨i, hx⟩
    exact ⟨i, hlives i x hx⟩
  · rintro ⟨i, hx⟩
    obtain ⟨y, hy, hdescribes⟩ := hlive i x hx
    exact ⟨y, ⟨i, hy⟩, hdescribes⟩

end

/-! ### Two processes -/

section

open Middleware

/-- The names of a configuration. -/
def sampleTopics : List (String × Int) := [("/a", 3), ("/discovery", 1), ("/discovery_request", 2)]

/-- The state after some operations. -/
def afterEvents (s : Middleware) (events : List Event) : Middleware :=
  (Transition.run (Middleware.step NanoCbor.rfc8949 (.ofJson sampleTopics)) s events).toOption.getD
    Middleware.initial

/-- A process with a publisher, which answers a request. -/
def publisherProcess : Participant NanoCbor.rfc8949 (.ofJson sampleTopics) where
  before := [.createNode 0 [0x6E] [0x2F] (.replicate _ 1),
    .create .publisher 0 1 "/a" (.replicate _ 2) [0x6D] [0x54] .cpp 0]
  after := [.interpret 4 [[0x00, 0x02]], .discoveryRequest 0]
  start := afterEvents Middleware.initial [.createNode 0 [0x6E] [0x2F] (.replicate _ 1),
    .create .publisher 0 1 "/a" (.replicate _ 2) [0x6D] [0x54] .cpp 0]
  final := afterEvents Middleware.initial [.createNode 0 [0x6E] [0x2F] (.replicate _ 1),
    .create .publisher 0 1 "/a" (.replicate _ 2) [0x6D] [0x54] .cpp 0,
    .interpret 4 [[0x00, 0x02]], .discoveryRequest 0]
  run_before := rfl
  run_after := rfl
  proper_before := by
    refine ⟨⟨rfl, nofun⟩, ?_⟩
    rintro t ⟨⟩
    exact ⟨⟨⟨rfl, by decide⟩, by decide +kernel⟩, fun _ _ => trivial⟩
  proper_after := by
    refine ⟨⟨trivial, nofun⟩, ?_⟩
    rintro t ⟨⟩
    exact ⟨⟨trivial, by decide +kernel⟩, fun _ _ => trivial⟩
  nodup := by decide
  answers := by
    intro node nd hnd
    by_cases hnode : node = 0
    · subst hnode
      exact ⟨[.interpret 4 [[0x00, 0x02]]], [], _, _, rfl, rfl, rfl, Or.inr (by decide +kernel)⟩
    · change Function.update (Function.update (fun _ => none) 0 _) 0 _ node = some nd at hnd
      rw [Function.update_of_ne hnode, Function.update_of_ne hnode] at hnd
      cases hnd

set_option maxRecDepth 10000 in
/-- A process that creates a subscription and destroys it. -/
def subscriberProcess : Participant NanoCbor.rfc8949 (.ofJson sampleTopics) where
  before := []
  after := [.createNode 0 [0x6F] [0x2F] (.replicate _ 3),
    .create .subscriber 0 1 "/a" (.replicate _ 4) [0x6D] [0x54] .cpp 0, .destroy .subscriber 0 1]
  start := Middleware.initial
  final := afterEvents Middleware.initial [.createNode 0 [0x6F] [0x2F] (.replicate _ 3),
    .create .subscriber 0 1 "/a" (.replicate _ 4) [0x6D] [0x54] .cpp 0, .destroy .subscriber 0 1]
  run_before := rfl
  run_after := rfl
  proper_before := trivial
  proper_after := by
    refine ⟨⟨rfl, nofun⟩, ?_⟩
    rintro t ⟨⟩
    refine ⟨⟨⟨rfl, by decide⟩, by decide +kernel⟩, ?_⟩
    rintro t ⟨⟩
    refine ⟨⟨?_, by decide +kernel⟩, fun _ _ => trivial⟩
    rintro nd e ⟨⟩ ⟨⟩
    exact ⟨rfl, fun _ => List.mem_singleton_self 1⟩
  nodup := by decide
  answers := nofun

/-- Both processes. -/
def sampleProcesses : Bool → Participant NanoCbor.rfc8949 (.ofJson sampleTopics)
  | true => publisherProcess
  | false => subscriberProcess

/-- The packets of a subscription that comes and goes, and the answer of the publisher. -/
def samplePackets : List (Bool × Packet) :=
  subscriberProcess.heard.map (false, ·) ++ publisherProcess.heard.map (true, ·)

set_option maxRecDepth 10000 in
/-- The thread reports the publisher, and not the subscription. -/
theorem graph_of_two_processes : ∃ t,
    Transition.run (Listener.step NanoCbor.rfc8949 (.ofJson sampleTopics) mapCache)
      (Listener.start (.ofJson sampleTopics) mapCache)
      [.interpret (samplePackets.map Prod.snd), .turn, .turn, .turn] = .ok t ∧
    Reports wholeMapCache t.cache fun x =>
      ∃ i, Lives (.ofJson sampleTopics) (sampleProcesses i).final x := by
  have hdistinct : TopicsConfig.DistinctIdentifiers sampleTopics := by
    unfold TopicsConfig.DistinctIdentifiers
    decide
  have hgids : ∀ i j, ∀ gid ∈ (sampleProcesses i).gids, gid ∈ (sampleProcesses j).gids → i = j := by
    have hpublisher : publisherProcess.gids = [.replicate _ 2] := rfl
    have hsubscriber : subscriberProcess.gids = [.replicate _ 4] := rfl
    have hdisjoint : ∀ gid ∈ publisherProcess.gids, gid ∉ subscriberProcess.gids := by
      rw [hpublisher, hsubscriber]
      exact List.forall_mem_singleton.mpr (by decide)
    intro i j gid hi hj
    cases i with
    | false =>
      cases j with
      | false => rfl
      | true => exact absurd hi (hdisjoint gid hj)
    | true =>
      cases j with
      | false => exact absurd hj (hdisjoint gid hi)
      | true => rfl
  have hheard : Merge.MergesAll (fun i => (sampleProcesses i).heard) (Listener.packets
      [.interpret (samplePackets.map Prod.snd), .turn, .turn, .turn]) := by
    refine ⟨samplePackets, by rw [Listener.packets]; simp, fun i => ?_⟩
    rw [samplePackets, Merge.ofSource_append, Merge.ofSource_map_mk, Merge.ofSource_map_mk]
    cases i <;> simp [sampleProcesses]
  obtain ⟨t, hrun, hreports⟩ := graph_of_processes (G := wholeMapCache)
    NanoCbor.rfc8949_lawful NanoCbor.rfc8949_compact wholeMapCache_lawful (by decide) hdistinct
    (by decide) (by decide) hgids hheard (by
      refine ⟨?_, fun t _ => ⟨trivial, fun t _ => ⟨trivial, fun t _ => ⟨trivial,
        fun _ _ => trivial⟩⟩⟩⟩
      rintro ds rest ⟨⟩
      decide +kernel)
  have hempty : (Transition.run (Listener.step NanoCbor.rfc8949 (.ofJson sampleTopics) mapCache)
      (Listener.start (.ofJson sampleTopics) mapCache)
      [.interpret (samplePackets.map Prod.snd), .turn, .turn, .turn]).toOption.map
        (fun t => t.stream.receivedPackets) = some [] := by decide +kernel
  have hrun' : Transition.run (Listener.step NanoCbor.rfc8949 (.ofJson sampleTopics) mapCache)
      (Listener.start (.ofJson sampleTopics) mapCache)
      [.interpret (samplePackets.map Prod.snd), .turn, .turn, .turn] = .ok t := hrun
  rw [hrun'] at hempty
  exact ⟨t, hrun, hreports (Option.some.inj hempty)⟩

end

end Discovery
end RmwDesert
