/-
The discovery thread (`Discovery.cpp`).

For each beacon the thread builds the lists of the node anew, from the identifiers that the
graph cache returns for the topics of the node, and hands them to the cache as the lists of
the participant.  The participant of the message is never set, so that it is the same one for
all nodes: the main result, `other_nodes_kept_iff`, says that a beacon leaves the other nodes
as they are only if there is nothing to leave.
-/
import RmwDesert.Discovery.GraphCache
import RmwDesert.Entities

namespace RmwDesert

/-! ## Beacons -/

/-- The entity is a reader for the cache. -/
def Beacon.isReader (b : Beacon) : Bool := b.entityType == subscriberType.toUInt32.toInt32

/-- Name and namespace of the node. -/
def Beacon.node (b : Beacon) : List UInt8 × List UInt8 := (b.nodeName, b.nodeNamespace)

/-- The beacon is about the same entity as another one. -/
def Beacon.SameEntity (b x : Beacon) : Prop :=
  x.node = b.node ∧ x.entityType = b.entityType ∧ x.entityGid = b.entityGid

instance (b x : Beacon) : Decidable (b.SameEntity x) := inferInstanceAs (Decidable (_ ∧ _ ∧ _))

namespace Discovery

/-- `integer_to_string`, and `std::to_string`. -/
def integerToString (x : Int32) : List UInt8 :=
  (if x < 0 then [0x2D] else [])
    ++ (Nat.toDigits 10 x.toInt.natAbs).map fun c => UInt8.ofNat c.toNat

/-- A default-constructed identifier: `msg.gid` of the thread, and `gid` of a context. -/
def defaultGid : Gid := .replicate rmwGidStorageSize 0

/-- The topic name with the type of the entity in front. -/
def mangledName (b : Beacon) : List UInt8 := integerToString b.entityType ++ b.topicName

/-! ## The thread -/

/-- Identifiers appended to the list of the readers or of the writers. -/
def NodeEntitiesInfo.pushGids (isReader : Bool) (gids : List Gid) (node : NodeEntitiesInfo) :
    NodeEntitiesInfo :=
  if isReader then { node with readerGidSeq := node.readerGidSeq ++ gids }
  else { node with writerGidSeq := node.writerGidSeq ++ gids }

section

variable {Γ : Type} (G : GraphCache Γ) (b : Beacon) (c : Γ)

/-- The loops over the topics of the node and over the endpoints of each topic: the identifiers
of the node's entities, without the one that disconnects. -/
def cachedGids (isReader : Bool) (topicNamesAndTypes : NamesAndTypes) :
    Except Failure (List Gid) := do
  let endpointInfoArrays ← topicNamesAndTypes.mapM fun topic =>
    G.getInfoByTopic isReader topic.1 identityDemangle c
  return (endpointInfoArrays.flatten.filter fun endpointInfo =>
      (endpointInfo.nodeName, endpointInfo.nodeNamespace) = b.node ∧
        ¬ (b.disconnect = true ∧ b.entityGid = endpointInfo.endpointGid)).map (·.endpointGid)

/-- The node of the message. -/
def rebuildNode : Except Failure NodeEntitiesInfo := do
  let node : NodeEntitiesInfo := ⟨b.nodeName, b.nodeNamespace, [], []⟩
  let node := if b.disconnect then node else node.pushGids b.isReader [b.entityGid]
  let written ← G.getNamesAndTypesByNode false b.nodeName b.nodeNamespace identityDemangle
    identityDemangle [] c
  let topicNamesAndTypes := written.getD []
  let node := node.pushGids false (← cachedGids G b c false topicNamesAndTypes)
  -- the output of the first query is the output of the second one, too
  let written ← G.getNamesAndTypesByNode true b.nodeName b.nodeNamespace identityDemangle
    identityDemangle topicNamesAndTypes c
  let topicNamesAndTypes := written.getD topicNamesAndTypes
  return node.pushGids true (← cachedGids G b c true topicNamesAndTypes)

/-- The updates of the cache. -/
def register (node : NodeEntitiesInfo) : Γ :=
  let c := G.updateParticipantEntities ⟨defaultGid, [node]⟩ c
  if b.disconnect then G.removeEntity b.entityGid b.isReader c
  else G.addEntity b.entityGid (mangledName b) b.typeName defaultGid b.isReader c

/-- What the thread does for a beacon. -/
def handleBeacon : Except Failure Γ := do
  return register G b c (← rebuildNode G b c)

/-- A turn of the loop of `discovery_thread`, after `interpret_packets`. -/
def discoveryTurn (stream : RxStream) : Except Failure (RxStream × Γ) := do
  let (available, stream) ← stream.dataAvailable 0
  if available then do
    let (b, stream) ← receiveBeacon stream
    return (stream.clearBuffer, ← handleBeacon G b c)
  else return (stream, c)

end

@[simp] lemma named_pushGids (isReader : Bool) (gids : List Gid) (node : NodeEntitiesInfo)
    (nodeName nodeNamespace : List UInt8) :
    (node.pushGids isReader gids).Named nodeName nodeNamespace
      ↔ node.Named nodeName nodeNamespace := by
  cases isReader <;> rfl

lemma gidSeq_pushGids (isReader isReader' : Bool) (gids : List Gid) (node : NodeEntitiesInfo) :
    (node.pushGids isReader gids).gidSeq isReader'
      = node.gidSeq isReader' ++ if isReader' = isReader then gids else [] := by
  cases isReader <;> cases isReader' <;>
    simp [NodeEntitiesInfo.pushGids, NodeEntitiesInfo.gidSeq]

section

variable {Γ : Type} {G : GraphCache Γ} {V : Contents Γ}

/-- With the identity, the queries by node return. -/
lemma getNamesAndTypesByNode_ok (hG : G.Lawful V) (isReader : Bool)
    (nodeName nodeNamespace : List UInt8) (output : NamesAndTypes) (c : Γ) :
    ∃ written, G.getNamesAndTypesByNode isReader nodeName nodeNamespace identityDemangle
      identityDemangle output c = .ok written := by
  by_cases houtput : output = []
  · subst houtput
    by_cases hnode : ∃ node, V.Recorded c node ∧ node.Named nodeName nodeNamespace
    · obtain ⟨names, hnames, -⟩ := hG.names_of_recorded isReader identityDemangle id hnode
        fun _ _ _ => rfl
      exact ⟨_, hnames⟩
    · exact ⟨_, hG.names_of_unknown isReader identityDemangle identityDemangle
        fun node hrecorded hnamed => hnode ⟨node, hrecorded, hnamed⟩⟩
  · exact ⟨_, hG.names_of_ne_nil isReader _ _ _ _ c houtput⟩

/-- The loops over topics and endpoints return. -/
lemma cachedGids_ok (hG : G.Lawful V) (b : Beacon) (c : Γ) (isReader : Bool)
    (topics : NamesAndTypes) : ∃ gids, cachedGids G b c isReader topics = .ok gids := by
  choose endpoints hendpoints _ using fun topicName => hG.endpoints_of_topic isReader topicName c
  have hmapM := Transition.mapM_eq_ok (l := topics) fun topic _ => hendpoints topic.1
  rw [cachedGids, hmapM]
  exact ⟨_, rfl⟩

/-- The node of the message is the one of the beacon. -/
lemma rebuildNode_ok (hG : G.Lawful V) (b : Beacon) (c : Γ) :
    ∃ node, rebuildNode G b c = .ok node ∧ node.Named b.nodeName b.nodeNamespace := by
  obtain ⟨written, hwritten⟩ := getNamesAndTypesByNode_ok hG false b.nodeName b.nodeNamespace [] c
  obtain ⟨writers, hwriters⟩ := cachedGids_ok hG b c false (written.getD [])
  obtain ⟨written', hwritten'⟩ := getNamesAndTypesByNode_ok hG true b.nodeName b.nodeNamespace
    (written.getD []) c
  obtain ⟨readers, hreaders⟩ := cachedGids_ok hG b c true (written'.getD (written.getD []))
  rw [rebuildNode, hwritten]
  simp only [bind, Except.bind, hwriters, hwritten', hreaders]
  refine ⟨_, rfl, ?_⟩
  simp only [named_pushGids]
  split_ifs
  · exact ⟨rfl, rfl⟩
  · exact (named_pushGids _ _ _ _ _).mpr ⟨rfl, rfl⟩

/-- The nodes after the updates. -/
lemma nodes_register (hG : G.Lawful V) (hR : G.Replaces V) (b : Beacon) (c : Γ)
    (node : NodeEntitiesInfo) :
    V.nodes (register G b c node) = Function.update (V.nodes c) defaultGid [node] := by
  simp only [register]
  split_ifs
  · rw [hG.nodes_removeEntity, hR]
  · rw [hG.nodes_addEntity, hR]

end

/-! ## Runs -/

/-- A cache, and the announcements of the live entities: those that connected and did not
disconnect since. -/
structure Discovered (Γ : Type) where
  cache : Γ
  live : List Beacon

/-- The live entities after a beacon. -/
def announce (b : Beacon) (live : List Beacon) : List Beacon :=
  if b.disconnect then live.filter (¬ b.SameEntity ·) else live.insert b

section

variable {Γ : Type} (G : GraphCache Γ) (V : Contents Γ)

/-- The state after `rmw_init`. -/
def initial : Discovered Γ := ⟨G.addParticipant defaultGid [] G.empty, []⟩

/-- A beacon is handled. -/
def step (s : Discovered Γ) (b : Beacon) : Except Failure (Discovered Γ) := do
  return ⟨← handleBeacon G b s.cache, announce b s.live⟩

/-- The readers or the writers that are recorded for a node. -/
def recorded (c : Γ) (node : List UInt8 × List UInt8) (isReader : Bool) : List Gid :=
  ((V.nodes c defaultGid).filter (·.Named node.1 node.2)).flatMap (·.gidSeq isReader)

/-- The step leaves the lists of the other nodes as they are, and afterwards every node with a
live entity is reported. -/
def KeepsNodes (s : Discovered Γ) (b : Beacon) : Prop :=
  ∀ t, step G s b = .ok t →
    (∀ node ≠ b.node, ∀ isReader,
      recorded V t.cache node isReader = recorded V s.cache node isReader) ∧
    ∀ x ∈ t.live, x.node ∈ G.getNodeNames t.cache

/-- No other node has a recorded entity or a live one. -/
def Alone (s : Discovered Γ) (b : Beacon) : Prop :=
  (∀ node ≠ b.node, ∀ isReader, recorded V s.cache node isReader = []) ∧
    ∀ x ∈ s.live, x.node = b.node

end

lemma mem_announce {b x : Beacon} {live : List Beacon} (h : x ∈ announce b live) :
    x = b ∨ x ∈ live := by
  rw [announce] at h
  split_ifs at h
  · exact Or.inr (List.mem_of_mem_filter h)
  · exact List.mem_insert_iff.mp h

/-- A beacon does not end the life of an entity of another node. -/
lemma mem_announce_of_ne {b x : Beacon} {live : List Beacon} (hx : x ∈ live)
    (hne : x.node ≠ b.node) : x ∈ announce b live := by
  rw [announce]
  split_ifs
  · exact List.mem_filter.mpr ⟨hx, decide_eq_true fun hsame => hne hsame.1⟩
  · exact List.mem_insert_of_mem hx

section

variable {Γ : Type} {G : GraphCache Γ} {V : Contents Γ}

/-- A step of the run. -/
lemma step_of_rebuildNode {s : Discovered Γ} {b : Beacon} {node : NodeEntitiesInfo}
    (h : rebuildNode G b s.cache = .ok node) :
    step G s b = .ok ⟨register G b s.cache node, announce b s.live⟩ := by
  simp only [step, handleBeacon, h]
  rfl

/-- After a beacon, the node of the beacon is the only one that is recorded. -/
lemma step_ok (hG : G.Lawful V) (hR : G.Replaces V) (s : Discovered Γ) (b : Beacon) :
    ∃ t node, step G s b = .ok t ∧ t.live = announce b s.live ∧
      node.Named b.nodeName b.nodeNamespace ∧
      V.nodes t.cache = Function.update (V.nodes s.cache) defaultGid [node] := by
  obtain ⟨node, hnode, hnamed⟩ := rebuildNode_ok hG b s.cache
  exact ⟨_, node, step_of_rebuildNode hnode, rfl, hnamed, nodes_register hG hR b s.cache node⟩

/-- Only the participant of the context has nodes. -/
def OneParticipant (V : Contents Γ) (s : Discovered Γ) : Prop :=
  ∀ participant ≠ defaultGid, V.nodes s.cache participant = []

lemma oneParticipant_initial (hG : G.Lawful V) : OneParticipant V (initial G) := by
  intro participant _
  rw [initial, hG.nodes_addParticipant, hG.nodes_empty]

lemma OneParticipant.step (hG : G.Lawful V) (hR : G.Replaces V) {s t : Discovered Γ} {b : Beacon}
    (h : OneParticipant V s) (hstep : step G s b = .ok t) : OneParticipant V t := by
  obtain ⟨t', node, ht', -, -, hnodes⟩ := step_ok hG hR s b
  obtain rfl := Except.ok.inj (hstep.symm.trans ht')
  intro participant hne
  rw [hnodes, Function.update_of_ne hne]
  exact h participant hne

/-- No other node is recorded. -/
lemma recorded_of_ne {b : Beacon} {c c' : Γ} {node : NodeEntitiesInfo}
    (hnamed : node.Named b.nodeName b.nodeNamespace)
    (hnodes : V.nodes c' = Function.update (V.nodes c) defaultGid [node])
    {other : List UInt8 × List UInt8} (hne : other ≠ b.node) (isReader : Bool) :
    recorded V c' other isReader = [] := by
  have hother : ¬ node.Named other.1 other.2 := by
    rintro ⟨hname, hnamespace⟩
    exact hne (Prod.ext (hname.symm.trans hnamed.1) (hnamespace.symm.trans hnamed.2))
  rw [recorded, hnodes, Function.update_self, List.filter_cons_of_neg (by simpa using hother)]
  rfl

/-- A step keeps the other nodes exactly if there is nothing to keep. -/
lemma keepsNodes_iff (hG : G.Lawful V) (hR : G.Replaces V) {s : Discovered Γ} {b : Beacon}
    (hs : OneParticipant V s) : KeepsNodes G V s b ↔ Alone V s b := by
  obtain ⟨t, node, hstep, hlive, hnamed, hnodes⟩ := step_ok hG hR s b
  have ht := hs.step hG hR hstep
  have hgone : ∀ other ≠ b.node, ∀ isReader, recorded V t.cache other isReader = [] :=
    fun other hne => recorded_of_ne hnamed hnodes hne
  have hreported : ∀ other, other ∈ G.getNodeNames t.cache ↔ other = b.node := by
    intro other
    refine (hG.mem_getNodeNames other.1 other.2 t.cache).trans ⟨?_, ?_⟩
    · rintro ⟨node', ⟨participant, hmem⟩, hnamed'⟩
      by_cases hp : participant = defaultGid
      · rw [hp, hnodes, Function.update_self, List.mem_singleton] at hmem
        subst hmem
        exact Prod.ext (hnamed'.1.symm.trans hnamed.1) (hnamed'.2.symm.trans hnamed.2)
      · rw [ht participant hp] at hmem
        cases hmem
    · rintro rfl
      refine ⟨node, ⟨defaultGid, ?_⟩, hnamed⟩
      rw [hnodes, Function.update_self]
      exact List.mem_singleton_self node
  constructor
  · intro h
    obtain ⟨hlists, hnames⟩ := h t hstep
    refine ⟨fun other hne isReader => ?_, fun x hx => ?_⟩
    · rw [← hlists other hne isReader, hgone other hne isReader]
    · by_contra hne
      have hx' : x ∈ t.live := by
        rw [hlive]
        exact mem_announce_of_ne hx hne
      exact hne ((hreported _).mp (hnames x hx'))
  · rintro ⟨hlists, hlives⟩ t' ht'
    obtain rfl := Except.ok.inj (hstep.symm.trans ht')
    refine ⟨fun other hne isReader => ?_, fun x hx => (hreported _).mpr ?_⟩
    · rw [hlists other hne isReader, hgone other hne isReader]
    · rw [hlive] at hx
      rcases mem_announce hx with rfl | hx
      · rfl
      · exact hlives x hx

/-- **Other nodes.** In a run over beacons, every beacon leaves the lists of the other nodes as
they are, and every state reports the nodes with live entities, if and only if at every beacon
no other node has a recorded entity or a live one. -/
theorem other_nodes_kept_iff (hG : G.Lawful V) (hR : G.Replaces V) (beacons : List Beacon) :
    Transition.EveryStep (step G) (KeepsNodes G V) (initial G) beacons
      ↔ Transition.EveryStep (step G) (Alone V) (initial G) beacons :=
  Transition.everyStep_iff (I := OneParticipant V) (D := fun _ _ => True)
    (fun hs _ _ hstep => hs.step hG hR hstep) (fun hs _ => keepsNodes_iff hG hR hs)
    (oneParticipant_initial hG) (Transition.everyStep_of_forall fun _ _ _ => trivial)

end

/-- The announcement of an entity of one of two nodes, on one topic. -/
def sampleBeacon (nodeName : UInt8) (entityType : Int32) (gid : UInt8) : Beacon :=
  ⟨[nodeName], [0x2F], entityType, .replicate rmwGidStorageSize gid, [0x2F, 0x74], [0x54], false⟩

/-- Two entities of one node. -/
theorem other_nodes_kept_oneNode :
    Transition.EveryStep (step mapCache) (KeepsNodes mapCache MapCache.contents) (initial mapCache)
      [sampleBeacon 0x61 0 1, sampleBeacon 0x61 1 2] := by
  refine (other_nodes_kept_iff mapCache_lawful mapCache_replaces _).mpr
    ⟨⟨fun _ _ _ => rfl, nofun⟩, fun t ht => ⟨?_, fun _ _ => trivial⟩⟩
  obtain ⟨t', node, ht', hlive, hnamed, hnodes⟩ :=
    step_ok mapCache_lawful mapCache_replaces (initial mapCache) (sampleBeacon 0x61 0 1)
  obtain rfl := Except.ok.inj (ht.symm.trans ht')
  refine ⟨fun other hne isReader => recorded_of_ne hnamed hnodes hne isReader, ?_⟩
  · rw [hlive]
    exact List.forall_mem_singleton.mpr rfl

/-- The second of two nodes takes the place of the first one. -/
theorem other_node_lost :
    (∃ t, Transition.run (step mapCache) (initial mapCache)
        [sampleBeacon 0x61 0 1, sampleBeacon 0x62 0 2] = .ok t ∧
      sampleBeacon 0x61 0 1 ∈ t.live ∧
      mapCache.getNodeNames t.cache = [([0x62], [0x2F])]) ∧
    ¬ Transition.EveryStep (step mapCache) (KeepsNodes mapCache MapCache.contents)
      (initial mapCache) [sampleBeacon 0x61 0 1, sampleBeacon 0x62 0 2] := by
  obtain ⟨t, u, ht, hu, hlive, hnames⟩ : ∃ t u,
      step mapCache (initial mapCache) (sampleBeacon 0x61 0 1) = .ok t ∧
      step mapCache t (sampleBeacon 0x62 0 2) = .ok u ∧ sampleBeacon 0x61 0 1 ∈ u.live ∧
      mapCache.getNodeNames u.cache = [([0x62], [0x2F])] := ⟨_, _, rfl, rfl, by decide, rfl⟩
  refine ⟨⟨u, ?_, hlive, hnames⟩, fun h => ?_⟩
  · exact Transition.bind_eq_ok.mpr ⟨t, ht, Transition.bind_eq_ok.mpr ⟨u, hu, rfl⟩⟩
  · have hkept := ((h.2 t ht).1 u hu).2 _ hlive
    rw [hnames] at hkept
    exact absurd hkept (by decide)

end Discovery
end RmwDesert
