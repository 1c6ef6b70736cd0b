/-
The graph cache of a context (`rmw_dds_common::GraphCache`).

The cache is a parameter: a structure holds its operations, and `Lawful` says what they do to
the contents of a cache, which are the nodes of each participant and the readers and writers
by identifier.  `Replaces` is the law of the lists that a participant sends.  `mapCache`
keeps the contents in maps, and satisfies both (`mapCache_lawful`).
-/
import Mathlib.Data.List.AList
import RmwDesert.Discovery.Beacon
import RmwDesert.Lib.Transition

namespace RmwDesert
namespace Discovery

/-! ## Data -/

/-- A `NodeEntitiesInfo`. -/
structure NodeEntitiesInfo where
  nodeName : List UInt8
  nodeNamespace : List UInt8
  readerGidSeq : List Gid
  writerGidSeq : List Gid
deriving DecidableEq

/-- The list of the readers or of the writers. -/
def NodeEntitiesInfo.gidSeq (node : NodeEntitiesInfo) (isReader : Bool) : List Gid :=
  if isReader then node.readerGidSeq else node.writerGidSeq

/-- Name and namespace. -/
def NodeEntitiesInfo.Named (nodeName nodeNamespace : List UInt8) (node : NodeEntitiesInfo) : Prop :=
  node.nodeName = nodeName ∧ node.nodeNamespace = nodeNamespace

instance (nodeName nodeNamespace : List UInt8) (node : NodeEntitiesInfo) :
    Decidable (node.Named nodeName nodeNamespace) :=
  inferInstanceAs (Decidable (_ ∧ _))

/-- A `ParticipantEntitiesInfo`. -/
structure ParticipantEntitiesInfo where
  gid : Gid
  nodeEntitiesInfoSeq : List NodeEntitiesInfo
deriving DecidableEq

/-- What the cache keeps of an entity. -/
structure EntityInfo where
  topicName : List UInt8
  topicType : List UInt8
  participantGid : Gid
deriving DecidableEq

/-- An `rmw_topic_endpoint_info_t`. -/
structure TopicEndpointInfo where
  nodeName : List UInt8
  nodeNamespace : List UInt8
  endpointGid : Gid
deriving DecidableEq

/-- An `rmw_names_and_types_t`; the empty one is zero-initialised. -/
abbrev NamesAndTypes := List (List UInt8 × List (List UInt8))

/-- A function that demangles a name. -/
abbrev Demangle := List UInt8 → Except Failure (List UInt8)

/-- `identity_demangle`. -/
def identityDemangle : Demangle := .ok

/-! ## The cache -/

/-- The operations of a cache.  The queries for readers and for writers are one operation each,
with `isReader` as an argument. -/
structure GraphCache (Γ : Type) where
  /-- A new cache. -/
  empty : Γ
  /-- `add_participant`. -/
  addParticipant : Gid → (enclave : List UInt8) → Γ → Γ
  /-- `update_participant_entities`. -/
  updateParticipantEntities : ParticipantEntitiesInfo → Γ → Γ
  /-- `add_entity`. -/
  addEntity : Gid → (topicName topicType : List UInt8) → (participantGid : Gid) →
    (isReader : Bool) → Γ → Γ
  /-- `remove_entity`. -/
  removeEntity : Gid → (isReader : Bool) → Γ → Γ
  /-- `get_reader_names_and_types_by_node` and `get_writer_names_and_types_by_node`: the output
  afterwards, if the query does not fail. -/
  getNamesAndTypesByNode : (isReader : Bool) → (nodeName nodeNamespace : List UInt8) →
    (demangleTopic demangleType : Demangle) → (output : NamesAndTypes) → Γ →
    Except Failure (Option NamesAndTypes)
  /-- `get_readers_info_by_topic` and `get_writers_info_by_topic`. -/
  getInfoByTopic : (isReader : Bool) → (topicName : List UInt8) → (demangleType : Demangle) → Γ →
    Except Failure (List TopicEndpointInfo)
  /-- `get_reader_count` and `get_writer_count`. -/
  getCount : (isReader : Bool) → (topicName : List UInt8) → Γ → ℕ
  /-- `get_node_names`. -/
  getNodeNames : Γ → List (List UInt8 × List UInt8)

/-- What a cache contains. -/
structure Contents (Γ : Type) where
  /-- The nodes of a participant. -/
  nodes : Γ → Gid → List NodeEntitiesInfo
  /-- The readers, or the writers. -/
  entities : Γ → (isReader : Bool) → Gid → Option EntityInfo

namespace Contents

variable {Γ : Type} (V : Contents Γ)

/-- A node is recorded for some participant. -/
def Recorded (c : Γ) (node : NodeEntitiesInfo) : Prop := ∃ participant, node ∈ V.nodes c participant

/-- The names are those of the topics of the entities that the node lists. -/
structure NamesOf (c : Γ) (isReader : Bool) (node : NodeEntitiesInfo)
    (demangled : List UInt8 → List UInt8) (names : NamesAndTypes) : Prop where
  nodup : (names.map (·.1)).Nodup
  mem_iff : ∀ name, name ∈ names.map (·.1) ↔ name ≠ [] ∧ ∃ gid ∈ node.gidSeq isReader,
    ∃ info, V.entities c isReader gid = some info ∧ demangled info.topicName = name

/-- The endpoints are those of the topic, with the names of the nodes that list them. -/
structure EndpointsOf (c : Γ) (isReader : Bool) (topicName : List UInt8)
    (endpoints : List TopicEndpointInfo) : Prop where
  nodup : (endpoints.map (·.endpointGid)).Nodup
  mem_iff : ∀ gid, gid ∈ endpoints.map (·.endpointGid) ↔
    ∃ info, V.entities c isReader gid = some info ∧ info.topicName = topicName
  named : ∀ endpoint ∈ endpoints, ∀ info,
    V.entities c isReader endpoint.endpointGid = some info →
    (∃ node ∈ V.nodes c info.participantGid, endpoint.endpointGid ∈ node.gidSeq isReader) →
    ∃ node ∈ V.nodes c info.participantGid, endpoint.endpointGid ∈ node.gidSeq isReader ∧
      node.Named endpoint.nodeName endpoint.nodeNamespace

end Contents

/-- What the operations do, but for the lists of a participant. -/
structure GraphCache.Lawful {Γ : Type} (G : GraphCache Γ) (V : Contents Γ) : Prop where
  nodes_empty : ∀ participant, V.nodes G.empty participant = []
  nodes_addParticipant : ∀ gid enclave c, V.nodes (G.addParticipant gid enclave c) = V.nodes c
  nodes_addEntity : ∀ gid topicName topicType participant isReader c,
    V.nodes (G.addEntity gid topicName topicType participant isReader c) = V.nodes c
  nodes_removeEntity : ∀ gid isReader c, V.nodes (G.removeEntity gid isReader c) = V.nodes c
  entities_empty : ∀ isReader gid, V.entities G.empty isReader gid = none
  entities_addParticipant : ∀ gid enclave c,
    V.entities (G.addParticipant gid enclave c) = V.entities c
  entities_update : ∀ msg c, V.entities (G.updateParticipantEntities msg c) = V.entities c
  /-- An entity that is not there is added. -/
  entities_addEntity : ∀ {gid isReader c} topicName topicType participant,
    V.entities c isReader gid = none ∨
      V.entities c isReader gid = some ⟨topicName, topicType, participant⟩ →
    V.entities (G.addEntity gid topicName topicType participant isReader c) isReader gid
      = some ⟨topicName, topicType, participant⟩
  /-- The other entities stay. -/
  entities_addEntity_of_ne : ∀ {gid gid' isReader isReader'} topicName topicType participant c,
    (isReader', gid') ≠ (isReader, gid) →
    V.entities (G.addEntity gid topicName topicType participant isReader c) isReader' gid'
      = V.entities c isReader' gid'
  entities_removeEntity : ∀ gid isReader c isReader' gid',
    V.entities (G.removeEntity gid isReader c) isReader' gid'
      = if (isReader', gid') = (isReader, gid) then none else V.entities c isReader' gid'
  /-- An output that is not zero-initialised is refused. -/
  names_of_ne_nil : ∀ isReader nodeName nodeNamespace demangleTopic demangleType {output} c,
    output ≠ [] → G.getNamesAndTypesByNode isReader nodeName nodeNamespace demangleTopic
      demangleType output c = .ok none
  /-- A node that is not recorded is unknown. -/
  names_of_unknown : ∀ isReader {nodeName nodeNamespace} demangleTopic demangleType {c},
    (∀ node, V.Recorded c node → ¬ node.Named nodeName nodeNamespace) →
    G.getNamesAndTypesByNode isReader nodeName nodeNamespace demangleTopic demangleType [] c
      = .ok none
  /-- The names of a recorded node, if the topics can be demangled. -/
  names_of_recorded : ∀ isReader {nodeName nodeNamespace c} (demangleTopic : Demangle) demangled,
    (∃ node, V.Recorded c node ∧ node.Named nodeName nodeNamespace) →
    (∀ gid info, V.entities c isReader gid = some info →
      demangleTopic info.topicName = .ok (demangled info.topicName)) →
    ∃ names, G.getNamesAndTypesByNode isReader nodeName nodeNamespace demangleTopic
        identityDemangle [] c = .ok (some names) ∧
      ∃ node, V.Recorded c node ∧ node.Named nodeName nodeNamespace ∧
        V.NamesOf c isReader node demangled names
  endpoints_of_topic : ∀ isReader topicName c, ∃ endpoints,
    G.getInfoByTopic isReader topicName identityDemangle c = .ok endpoints ∧
      V.EndpointsOf c isReader topicName endpoints
  count_pos_iff : ∀ isReader topicName c, 0 < G.getCount isReader topicName c ↔
    ∃ gid info, V.entities c isReader gid = some info ∧ info.topicName = topicName
  mem_getNodeNames : ∀ nodeName nodeNamespace c, (nodeName, nodeNamespace) ∈ G.getNodeNames c ↔
    ∃ node, V.Recorded c node ∧ node.Named nodeName nodeNamespace

/-- The lists that a participant sends replace those that it sent before. -/
def GraphCache.Replaces {Γ : Type} (G : GraphCache Γ) (V : Contents Γ) : Prop :=
  ∀ msg c, V.nodes (G.updateParticipantEntities msg c)
    = Function.update (V.nodes c) msg.gid msg.nodeEntitiesInfoSeq

/-! ## A cache of maps -/

/-- The maps of a cache. -/
structure MapCache where
  /-- `participants_`. -/
  participants : AList fun _ : Gid => List NodeEntitiesInfo
  /-- `data_readers_`. -/
  readers : AList fun _ : Gid => EntityInfo
  /-- `data_writers_`. -/
  writers : AList fun _ : Gid => EntityInfo

namespace MapCache

/-- The map of the readers or of the writers. -/
def table (c : MapCache) (isReader : Bool) : AList fun _ : Gid => EntityInfo :=
  if isReader then c.readers else c.writers

/-- A new map of the readers or of the writers. -/
def setTable (c : MapCache) (isReader : Bool) (entities : AList fun _ : Gid => EntityInfo) :
    MapCache :=
  if isReader then { c with readers := entities } else { c with writers := entities }

@[simp] lemma participants_setTable (c : MapCache) (isReader : Bool)
    (entities : AList fun _ : Gid => EntityInfo) :
    (c.setTable isReader entities).participants = c.participants := by
  cases isReader <;> rfl

lemma table_setTable (c : MapCache) (isReader isReader' : Bool)
    (entities : AList fun _ : Gid => EntityInfo) :
    (c.setTable isReader entities).table isReader'
      = if isReader' = isReader then entities else c.table isReader' := by
  cases isReader <;> cases isReader' <;> rfl

/-- The nodes of all participants. -/
def allNodes (c : MapCache) : List NodeEntitiesInfo := c.participants.entries.flatMap (·.2)

/-- The names of the first node that lists the entity. -/
def endpointNode (c : MapCache) (isReader : Bool) (gid : Gid) (info : EntityInfo) :
    List UInt8 × List UInt8 :=
  match ((c.participants.lookup info.participantGid).getD []).find? (gid ∈ ·.gidSeq isReader) with
  | some node => (node.nodeName, node.nodeNamespace)
  | none => ([], [])

/-- The map from topics to their types. -/
def collect (topics : List (List UInt8 × List UInt8)) : NamesAndTypes :=
  ((topics.map (·.1)).filter (· ≠ [])).dedup.map fun name =>
    (name, ((topics.filter (·.1 = name)).map (·.2)).dedup)

lemma map_fst_collect (topics : List (List UInt8 × List UInt8)) :
    (collect topics).map (·.1) = ((topics.map (·.1)).filter (· ≠ [])).dedup := by
  simp only [collect, List.map_map, Function.comp_def, List.map_id']

/-- What the maps contain. -/
def contents : Contents MapCache where
  nodes c participant := (c.participants.lookup participant).getD []
  entities c isReader gid := (c.table isReader).lookup gid

lemma mem_allNodes (c : MapCache) (node : NodeEntitiesInfo) :
    node ∈ c.allNodes ↔ contents.Recorded c node := by
  simp only [allNodes, List.mem_flatMap, Contents.Recorded, contents]
  constructor
  · rintro ⟨⟨gid, nodes⟩, hmem, hnode⟩
    exact ⟨gid, by rw [AList.mem_lookup_iff.mpr hmem]; exact hnode⟩
  · rintro ⟨gid, hnode⟩
    cases hlookup : c.participants.lookup gid with
    | none => simp [hlookup] at hnode
    | some nodes =>
      rw [hlookup] at hnode
      exact ⟨⟨gid, nodes⟩, AList.mem_lookup_iff.mp hlookup, hnode⟩

end MapCache

/-- The cache of maps. -/
def mapCache : GraphCache MapCache where
  empty := ⟨∅, ∅, ∅⟩
  addParticipant gid _ c :=
    if gid ∈ c.participants then c
    else { c with participants := c.participants.insert gid [] }
  updateParticipantEntities msg c :=
    { c with participants := c.participants.insert msg.gid msg.nodeEntitiesInfoSeq }
  addEntity gid topicName topicType participant isReader c :=
    if gid ∈ c.table isReader then c
    else c.setTable isReader ((c.table isReader).insert gid ⟨topicName, topicType, participant⟩)
  removeEntity gid isReader c := c.setTable isReader ((c.table isReader).erase gid)
  getNamesAndTypesByNode isReader nodeName nodeNamespace demangleTopic demangleType output c :=
    if output ≠ [] then .ok none
    else
      match c.allNodes.find? (·.Named nodeName nodeNamespace) with
      | none => .ok none
      | some node => do
        let infos := (node.gidSeq isReader).filterMap fun gid => (c.table isReader).lookup gid
        let topics ← infos.mapM fun info => do
          return (← demangleTopic info.topicName, ← demangleType info.topicType)
        return some (MapCache.collect topics)
  getInfoByTopic isReader topicName demangleType c :=
    ((c.table isReader).entries.filter (·.2.topicName = topicName)).mapM fun entity => do
      let _ ← demangleType entity.2.topicType
      let (nodeName, nodeNamespace) := c.endpointNode isReader entity.1 entity.2
      return ⟨nodeName, nodeNamespace, entity.1⟩
  getCount isReader topicName c :=
    ((c.table isReader).entries.filter (·.2.topicName = topicName)).length
  getNodeNames c := c.allNodes.map fun node => (node.nodeName, node.nodeNamespace)

namespace MapCache

/-- The names of a recorded node. -/
lemma getNamesAndTypesByNode_of_recorded {isReader : Bool} {nodeName nodeNamespace : List UInt8}
    {c : MapCache} {demangleTopic : Demangle} {demangled : List UInt8 → List UInt8}
    (hnode : ∃ node, contents.Recorded c node ∧ node.Named nodeName nodeNamespace)
    (htopic : ∀ gid info, contents.entities c isReader gid = some info →
      demangleTopic info.topicName = .ok (demangled info.topicName)) :
    ∃ names, mapCache.getNamesAndTypesByNode isReader nodeName nodeNamespace demangleTopic
        identityDemangle [] c = .ok (some names) ∧
      ∃ node, contents.Recorded c node ∧ node.Named nodeName nodeNamespace ∧
        contents.NamesOf c isReader node demangled names := by
  obtain ⟨node, hfind⟩ : ∃ node, c.allNodes.find? (·.Named nodeName nodeNamespace) = some node := by
    obtain ⟨node, hrecorded, hnamed⟩ := hnode
    rw [← Option.isSome_iff_exists, List.find?_isSome]
    exact ⟨node, (c.mem_allNodes node).mpr hrecorded, decide_eq_true hnamed⟩
  obtain ⟨infos, hinfos⟩ : ∃ infos, infos
      = (node.gidSeq isReader).filterMap fun gid => (c.table isReader).lookup gid := ⟨_, rfl⟩
  have hmem : ∀ info, info ∈ infos ↔
      ∃ gid ∈ node.gidSeq isReader, contents.entities c isReader gid = some info := by
    intro info
    rw [hinfos, List.mem_filterMap]
    rfl
  have hmapM : infos.mapM (fun info => do
        return (← demangleTopic info.topicName, ← identityDemangle info.topicType))
      = .ok (infos.map fun info => (demangled info.topicName, info.topicType)) := by
    refine Transition.mapM_eq_ok fun info hinfo => ?_
    obtain ⟨gid, -, hentity⟩ := (hmem info).mp hinfo
    rw [htopic gid info hentity]
    rfl
  have hnamed : node.Named nodeName nodeNamespace := by
    simpa using List.find?_some hfind
  refine ⟨collect (infos.map fun info => (demangled info.topicName, info.topicType)), ?_, node,
    (c.mem_allNodes node).mp (List.mem_of_find?_eq_some hfind), hnamed, ?_, fun name => ?_⟩
  · simp only [mapCache, ne_eq, not_true_eq_false, if_false, hfind, ← hinfos, hmapM]
    rfl
  · rw [map_fst_collect]
    exact List.nodup_dedup _
  · rw [map_fst_collect]
    simp only [List.map_map, List.mem_dedup, List.mem_filter, List.mem_map, hmem,
      Function.comp_apply, decide_eq_true_eq, and_comm (b := name ≠ [])]
    refine and_congr_right fun _ => ⟨?_, ?_⟩
    · rintro ⟨info, ⟨gid, hgid, hentity⟩, hname⟩
      exact ⟨gid, hgid, info, hentity, hname⟩
    · rintro ⟨gid, hgid, info, hentity, hname⟩
      exact ⟨info, ⟨gid, hgid, hentity⟩, hname⟩

/-- The endpoints of a topic. -/
lemma getInfoByTopic_eq (isReader : Bool) (topicName : List UInt8) (c : MapCache) :
    ∃ endpoints, mapCache.getInfoByTopic isReader topicName identityDemangle c = .ok endpoints ∧
      contents.EndpointsOf c isReader topicName endpoints := by
  obtain ⟨entities, hentities⟩ : ∃ entities,
      entities = (c.table isReader).entries.filter (·.2.topicName = topicName) := ⟨_, rfl⟩
  have hmem : ∀ (gid : Gid) (info : EntityInfo),
      (⟨gid, info⟩ : Sigma fun _ : Gid => EntityInfo) ∈ entities ↔
        contents.entities c isReader gid = some info ∧ info.topicName = topicName := by
    intro gid info
    rw [hentities, List.mem_filter, ← AList.mem_lookup_iff, decide_eq_true_eq]
    rfl
  let endpoint (entity : Sigma fun _ : Gid => EntityInfo) : TopicEndpointInfo :=
    ⟨(c.endpointNode isReader entity.1 entity.2).1, (c.endpointNode isReader entity.1 entity.2).2,
      entity.1⟩
  have hgids : (entities.map endpoint).map (·.endpointGid) = entities.map (·.1) := by
    rw [List.map_map]
    rfl
  refine ⟨entities.map endpoint, ?_, ?_, fun gid => ?_, ?_⟩
  · simp only [mapCache, ← hentities]
    exact Transition.mapM_eq_ok fun entity _ => rfl
  · rw [hgids, hentities]
    exact (List.filter_sublist.map _).nodup (c.table isReader).nodupKeys
  · rw [hgids, List.mem_map]
    constructor
    · rintro ⟨⟨gid, info⟩, hentity, rfl⟩
      exact ⟨info, (hmem gid info).mp hentity⟩
    · rintro ⟨info, hentity⟩
      exact ⟨⟨gid, info⟩, (hmem gid info).mpr hentity, rfl⟩
  · intro e he info hinfo hnode
    obtain ⟨⟨gid, info'⟩, hentity, rfl⟩ := List.mem_map.mp he
    obtain rfl : info' = info := Option.some.inj (((hmem gid info').mp hentity).1.symm.trans hinfo)
    obtain ⟨node, hfind⟩ : ∃ node, (contents.nodes c info'.participantGid).find?
        (gid ∈ ·.gidSeq isReader) = some node := by
      obtain ⟨node, hmemNode, hlists⟩ := hnode
      rw [← Option.isSome_iff_exists, List.find?_isSome]
      exact ⟨node, hmemNode, decide_eq_true hlists⟩
    have hnames : c.endpointNode isReader gid info' = (node.nodeName, node.nodeNamespace) := by
      rw [endpointNode]
      change (contents.nodes c info'.participantGid).find? _ = _ at hfind
      simp only [contents] at hfind
      rw [hfind]
    refine ⟨node, List.mem_of_find?_eq_some hfind, by simpa using List.find?_some hfind, ?_⟩
    simp only [endpoint, hnames]
    exact ⟨rfl, rfl⟩

end MapCache

open MapCache in
/-- **The cache of maps is lawful.** -/
theorem mapCache_lawful : mapCache.Lawful contents where
  nodes_empty := fun _ => rfl
  nodes_addParticipant := by
    intro gid enclave c
    funext participant
    simp only [mapCache]
    split_ifs with hmem
    · rfl
    · by_cases hp : participant = gid
      · subst hp
        simp [contents, AList.lookup_insert, AList.lookup_eq_none.mpr hmem]
      · simp [contents, AList.lookup_insert_ne hp]
  nodes_addEntity := by
    intro gid topicName topicType participant isReader c
    simp only [mapCache, contents]
    split_ifs <;> simp
  nodes_removeEntity := by
    intro gid isReader c
    simp [mapCache, contents]
  entities_empty := by
    intro isReader gid
    cases isReader <;> rfl
  entities_addParticipant := by
    intro gid enclave c
    simp only [mapCache]
    split_ifs <;> rfl
  entities_update := fun _ _ => rfl
  entities_addEntity := by
    intro gid isReader c topicName topicType participant h
    simp only [mapCache, contents] at h ⊢
    rcases h with h | h
    · rw [if_neg (AList.lookup_eq_none.mp h), table_setTable, if_pos rfl, AList.lookup_insert]
    · rw [if_pos (AList.lookup_isSome.mp (by rw [h]; rfl)), h]
  entities_addEntity_of_ne := by
    intro gid gid' isReader isReader' topicName topicType participant c hne
    simp only [mapCache, contents]
    split_ifs with hmem
    · rfl
    · rw [table_setTable]
      split_ifs with hreader
      · subst hreader
        exact AList.lookup_insert_ne fun h => hne (by rw [h])
      · rfl
  entities_removeEntity := by
    intro gid isReader c isReader' gid'
    simp only [mapCache, contents, table_setTable, Prod.mk.injEq]
    by_cases hreader : isReader' = isReader
    · subst hreader
      by_cases hgid : gid' = gid
      · subst hgid
        simp [AList.lookup_erase]
      · simp [hgid, AList.lookup_erase_ne hgid]
    · simp [hreader]
  names_of_ne_nil := by
    intro isReader nodeName nodeNamespace demangleTopic demangleType output c hne
    simp only [mapCache, if_pos hne]
  names_of_unknown := by
    intro isReader nodeName nodeNamespace demangleTopic demangleType c hunknown
    have hfind : c.allNodes.find? (·.Named nodeName nodeNamespace) = none := by
      refine List.find?_eq_none.mpr fun node hnode => ?_
      simpa using hunknown node ((c.mem_allNodes node).mp hnode)
    simp only [mapCache, ne_eq, not_true_eq_false, if_false, hfind]
  names_of_recorded := fun _ _ _ _ _ _ hnode htopic =>
    getNamesAndTypesByNode_of_recorded hnode htopic
  endpoints_of_topic := getInfoByTopic_eq
  count_pos_iff := by
    intro isReader topicName c
    simp only [mapCache, contents, List.length_pos_iff_exists_mem, List.mem_filter,
      decide_eq_true_eq, Sigma.exists, ← AList.mem_lookup_iff]
    rfl
  mem_getNodeNames := by
    intro nodeName nodeNamespace c
    simp only [mapCache, List.mem_map, mem_allNodes, Prod.mk.injEq]
    rfl

/-- Lists replace lists. -/
theorem mapCache_replaces : mapCache.Replaces MapCache.contents := by
  intro msg c
  funext participant
  simp only [mapCache, MapCache.contents, Function.update_apply]
  split_ifs with hp
  · rw [hp, AList.lookup_insert]
    rfl
  · rw [AList.lookup_insert_ne hp]

end Discovery
end RmwDesert
