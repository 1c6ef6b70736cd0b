/-
The queries about the graph (`get_node_info_and_types.cpp`, `rmw.cpp`, `demangle.cpp`).

The queries by node look for the names of a kind among the readers or the writers of the node,
and strip the digit of the kind.  The main result, `queries_agree_iff`, says that they agree
with the announcements if and only if no client and no service is live: these are kept as
writers, and the queries look for them among the readers.
-/
import RmwDesert.Discovery.OneNode

namespace RmwDesert
namespace Discovery

/-! ## Demangling -/

/-- `resolve_prefix`; `at` fails behind the end of the name. -/
def resolvePrefix (name digits : List UInt8) : Except Failure (List UInt8) :=
  if digits.isPrefixOf name then
    match name[digits.length]? with
    | none => .error .outOfRange
    | some c => .ok (if c = 0x2F then name.drop digits.length else [])
  else .ok []

/-- `ros_topic_publisher_prefix` and its siblings. -/
def kindDigits (kind : EntityKind) : List UInt8 :=
  integerToString kind.entityType.toUInt32.toInt32

/-- `demangle_publisher_from_topic`. -/
def demanglePublisherFromTopic : Demangle := fun name => resolvePrefix name (kindDigits .publisher)

/-- `demangle_subscriber_from_topic`. -/
def demangleSubscriberFromTopic : Demangle :=
  fun name => resolvePrefix name (kindDigits .subscriber)

/-- `demangle_service_request_from_topic`. -/
def demangleServiceRequestFromTopic : Demangle :=
  fun name => resolvePrefix name (kindDigits .client)

/-- `demangle_service_reply_from_topic`. -/
def demangleServiceReplyFromTopic : Demangle :=
  fun name => resolvePrefix name (kindDigits .service)

/-! ## Queries -/

section

variable {Γ : Type} (G : GraphCache Γ)

section

variable (nodeName nodeNamespace : List UInt8) (c : Γ)

/-- `rmw_get_publisher_names_and_types_by_node`, with a zero-initialised output. -/
def rmwGetPublisherNamesAndTypesByNode : Except Failure (Option NamesAndTypes) :=
  G.getNamesAndTypesByNode false nodeName nodeNamespace demanglePublisherFromTopic
    identityDemangle [] c

/-- `rmw_get_subscriber_names_and_types_by_node`. -/
def rmwGetSubscriberNamesAndTypesByNode : Except Failure (Option NamesAndTypes) :=
  G.getNamesAndTypesByNode true nodeName nodeNamespace demangleSubscriberFromTopic
    identityDemangle [] c

/-- `rmw_get_client_names_and_types_by_node`. -/
def rmwGetClientNamesAndTypesByNode : Except Failure (Option NamesAndTypes) :=
  G.getNamesAndTypesByNode true nodeName nodeNamespace demangleServiceRequestFromTopic
    identityDemangle [] c

/-- `rmw_get_service_names_and_types_by_node`. -/
def rmwGetServiceNamesAndTypesByNode : Except Failure (Option NamesAndTypes) :=
  G.getNamesAndTypesByNode true nodeName nodeNamespace demangleServiceReplyFromTopic
    identityDemangle [] c

/-- The queries by node, by the kind in their names. -/
def namesAndTypesByNode : EntityKind → Except Failure (Option NamesAndTypes)
  | .publisher => rmwGetPublisherNamesAndTypesByNode G nodeName nodeNamespace c
  | .subscriber => rmwGetSubscriberNamesAndTypesByNode G nodeName nodeNamespace c
  | .client => rmwGetClientNamesAndTypesByNode G nodeName nodeNamespace c
  | .service => rmwGetServiceNamesAndTypesByNode G nodeName nodeNamespace c

end

section

variable (name : List UInt8) (c : Γ)

/-- `rmw_count_publishers`. -/
def rmwCountPublishers : ℕ := G.getCount false (kindDigits .publisher ++ name) c

/-- `rmw_count_subscribers`. -/
def rmwCountSubscribers : ℕ := G.getCount true (kindDigits .subscriber ++ name) c

/-- `rmw_count_clients`. -/
def rmwCountClients : ℕ := G.getCount false (kindDigits .client ++ name) c

/-- `rmw_count_services`. -/
def rmwCountServices : ℕ := G.getCount false (kindDigits .service ++ name) c

/-- The counts, by the kind in their names. -/
def rmwCount : EntityKind → ℕ
  | .publisher => rmwCountPublishers G name c
  | .subscriber => rmwCountSubscribers G name c
  | .client => rmwCountClients G name c
  | .service => rmwCountServices G name c

end

/-- The query by node lists the names of the live entities of the kind, once each, and the count
of a name is positive if and only if a live entity of the kind has it. -/
structure QueriesAgree (node : List UInt8 × List UInt8) (s : Discovered Γ) (kind : EntityKind) :
    Prop where
  names : ∃ written, namesAndTypesByNode G node.1 node.2 s.cache kind = .ok written ∧
    ((written.getD []).map (·.1)).Nodup ∧ ∀ name, name ∈ (written.getD []).map (·.1) ↔
      ∃ x ∈ s.live, IsKind kind x ∧ x.topicName = name
  count : ∀ name, 0 < rmwCount G name s.cache kind ↔
    ∃ x ∈ s.live, IsKind kind x ∧ x.topicName = name

end

/-- The lists of the node that were passed to the cache are retained: every recorded node of the
name lists the live entities, and there is one if there are any. -/
def Retained {Γ : Type} (V : Contents Γ) (node : List UInt8 × List UInt8) (s : Discovered Γ) :
    Prop :=
  (∀ n, V.Recorded s.cache n → n.Named node.1 node.2 →
    ∀ x ∈ s.live, x.entityGid ∈ n.gidSeq x.isReader) ∧
  (s.live ≠ [] → ∃ n, V.Recorded s.cache n ∧ n.Named node.1 node.2)

/-! ## Names -/

lemma kindDigits_eq (kind : EntityKind) : kindDigits kind = [0x30 + kind.entityType] := by
  cases kind <;> rfl

lemma IsKind.unique {kind kind' : EntityKind} {x : Beacon} (h : IsKind kind x)
    (h' : IsKind kind' x) : kind = kind' := by
  have hname := h.mangledName_eq.symm.trans h'.mangledName_eq
  exact digit_injective (List.cons.inj hname).1

/-- The digit of the kind is stripped, and the name of another kind is left out. -/
lemma resolvePrefix_mangledName (kind : EntityKind) {x : Beacon} (hx : HasKind x)
    (htopic : x.topicName.head? = some 0x2F) :
    ∃ name, resolvePrefix (mangledName x) (kindDigits kind) = .ok name ∧
      (IsKind kind x → name = x.topicName) ∧ (¬ IsKind kind x → name = []) := by
  obtain ⟨kindx, hx⟩ := hx
  obtain ⟨rest, hrest⟩ : ∃ rest, x.topicName = 0x2F :: rest := by
    cases hname : x.topicName with
    | nil => rw [hname] at htopic; cases htopic
    | cons c rest =>
      rw [hname] at htopic
      exact ⟨rest, by rw [Option.some.inj htopic]⟩
  rw [hx.mangledName_eq, kindDigits_eq, hrest]
  by_cases hkind : kind = kindx
  · subst hkind
    refine ⟨0x2F :: rest, ?_, fun _ => rfl, fun h => absurd hx h⟩
    simp [resolvePrefix]
  · have hdigit : 0x30 + kind.entityType ≠ 0x30 + kindx.entityType :=
      fun h => hkind (digit_injective h)
    refine ⟨[], ?_, fun h => absurd (h.unique hx) hkind, fun _ => rfl⟩
    simp [resolvePrefix, hdigit]

/-! ## Agreement -/

section

variable {Γ : Type} {G : GraphCache Γ} {V : Contents Γ} {node : List UInt8 × List UInt8}
  {s : Discovered Γ}

/-- The query by node lists the live entities of the kind, if it looks for them where they
are. -/
lemma Announced.names (hG : G.Lawful V) (h : Announced V node s) (hretained : Retained V node s)
    (htopics : ∀ x ∈ s.live, x.topicName.head? = some 0x2F) (isReader : Bool) (kind : EntityKind) :
    ∃ written, G.getNamesAndTypesByNode isReader node.1 node.2
        (fun name => resolvePrefix name (kindDigits kind)) identityDemangle [] s.cache
          = .ok written ∧
      ((written.getD []).map (·.1)).Nodup ∧ ∀ name, name ∈ (written.getD []).map (·.1) ↔
        ∃ x ∈ s.live, x.isReader = isReader ∧ IsKind kind x ∧ x.topicName = name := by
  by_cases hnode : ∃ n, V.Recorded s.cache n ∧ n.Named node.1 node.2
  · have hdemangle : ∀ gid info, V.entities s.cache isReader gid = some info →
        resolvePrefix info.topicName (kindDigits kind)
          = .ok ((resolvePrefix info.topicName (kindDigits kind)).toOption.getD []) := by
      intro gid info hinfo
      obtain ⟨x, hx, -, -, rfl⟩ := (h.entities _ _ _).mp hinfo
      obtain ⟨name, hname, -⟩ :=
        resolvePrefix_mangledName kind (h.kind x hx) (htopics x hx)
      simp only [entityInfo, hname, Except.toOption, Option.getD_some]
    obtain ⟨names, hnames, n, hn, hnamed, hof⟩ :=
      hG.names_of_recorded isReader (fun name => resolvePrefix name (kindDigits kind))
        (fun name => (resolvePrefix name (kindDigits kind)).toOption.getD []) hnode hdemangle
    refine ⟨some names, hnames, hof.nodup, fun name => ?_⟩
    rw [Option.getD_some, hof.mem_iff]
    constructor
    · rintro ⟨hne, gid, -, info, hinfo, hname⟩
      obtain ⟨x, hx, hreader, -, rfl⟩ := (h.entities _ _ _).mp hinfo
      obtain ⟨name', hname', hkind, hother⟩ :=
        resolvePrefix_mangledName kind (h.kind x hx) (htopics x hx)
      simp only [entityInfo, hname', Except.toOption, Option.getD_some] at hname
      subst hname
      by_cases hx' : IsKind kind x
      · exact ⟨x, hx, hreader, hx', (hkind hx').symm⟩
      · exact absurd (hother hx') hne
    · rintro ⟨x, hx, hreader, hx', rfl⟩
      obtain ⟨name', hname', hkind, -⟩ :=
        resolvePrefix_mangledName kind (h.kind x hx) (htopics x hx)
      refine ⟨fun hnil => ?_, x.entityGid, hreader ▸ hretained.1 n hn hnamed x hx, entityInfo x,
        (h.entities _ _ _).mpr ⟨x, hx, hreader, rfl, rfl⟩, ?_⟩
      · have hhead := htopics x hx
        rw [hnil] at hhead
        cases hhead
      · simp only [entityInfo, hname', Except.toOption, Option.getD_some, hkind hx']
  · -- a node without a record has no live entities
    have hnone : s.live = [] := by
      by_contra hne
      exact hnode (hretained.2 hne)
    refine ⟨none, hG.names_of_unknown isReader _ _ fun n hn hnamed => hnode ⟨n, hn, hnamed⟩,
      List.nodup_nil, fun name => ⟨fun h => absurd h List.not_mem_nil, ?_⟩⟩
    rintro ⟨x, hx, -⟩
    rw [hnone] at hx
    cases hx

/-- The count is positive if a live entity of the kind has the name, and is where the count looks
for it. -/
lemma Announced.count_pos_iff (hG : G.Lawful V) (h : Announced V node s) (isReader : Bool)
    (kind : EntityKind) (name : List UInt8) :
    0 < G.getCount isReader (kindDigits kind ++ name) s.cache ↔
      ∃ x ∈ s.live, x.isReader = isReader ∧ IsKind kind x ∧ x.topicName = name := by
  rw [hG.count_pos_iff, kindDigits_eq, List.singleton_append]
  constructor
  · rintro ⟨gid, info, hinfo, hname⟩
    obtain ⟨x, hx, hreader, -, rfl⟩ := (h.entities _ _ _).mp hinfo
    obtain ⟨kindx, hkind⟩ := h.kind x hx
    rw [entityInfo, hkind.mangledName_eq] at hname
    obtain ⟨hdigit, hname⟩ := List.cons.inj hname
    rw [digit_injective hdigit] at hkind
    exact ⟨x, hx, hreader, hkind, hname⟩
  · rintro ⟨x, hx, hreader, hkind, rfl⟩
    exact ⟨x.entityGid, entityInfo x, (h.entities _ _ _).mpr ⟨x, hx, hreader, rfl, rfl⟩,
      hkind.mangledName_eq⟩

/-- Where the cache has the entities of a kind, and where the query by node looks for them. -/
def isReaderQuery : EntityKind → Bool
  | .publisher => false
  | .subscriber | .client | .service => true

lemma namesAndTypesByNode_eq (c : Γ) (kind : EntityKind) :
    namesAndTypesByNode G node.1 node.2 c kind
      = G.getNamesAndTypesByNode (isReaderQuery kind) node.1 node.2
          (fun name => resolvePrefix name (kindDigits kind)) identityDemangle [] c := by
  cases kind <;> rfl

lemma rmwCount_eq (name : List UInt8) (c : Γ) (kind : EntityKind) :
    rmwCount G name c kind = G.getCount (kind == .subscriber) (kindDigits kind ++ name) c := by
  cases kind <;> rfl

/-- The queries of a kind agree with the announcements, unless the kind is kept as a writer and
looked for as a reader. -/
lemma Announced.queriesAgree_iff (hG : G.Lawful V) (h : Announced V node s)
    (hretained : Retained V node s) (htopics : ∀ x ∈ s.live, x.topicName.head? = some 0x2F)
    (kind : EntityKind) :
    QueriesAgree G node s kind ↔
      ((kind == .subscriber) ≠ isReaderQuery kind → ∀ x ∈ s.live, ¬ IsKind kind x) := by
  obtain ⟨written, hwritten, hnodup, hmem⟩ :=
    h.names hG hretained htopics (isReaderQuery kind) kind
  constructor
  · intro hagree hwrong x hx hkind
    obtain ⟨written', hwritten', -, hmem'⟩ := hagree.names
    rw [namesAndTypesByNode_eq] at hwritten'
    obtain rfl := Except.ok.inj (hwritten.symm.trans hwritten')
    obtain ⟨y, -, hreader, hkind', -⟩ :=
      (hmem x.topicName).mp ((hmem' x.topicName).mpr ⟨x, hx, hkind, rfl⟩)
    exact hwrong (hkind'.isReader_eq.symm.trans hreader)
  · intro hnone
    refine ⟨⟨written, ?_, hnodup, fun name => ?_⟩, fun name => ?_⟩
    · rw [namesAndTypesByNode_eq]
      exact hwritten
    · rw [hmem]
      constructor
      · rintro ⟨x, hx, -, hkind, hname⟩
        exact ⟨x, hx, hkind, hname⟩
      · rintro ⟨x, hx, hkind, hname⟩
        refine ⟨x, hx, ?_, hkind, hname⟩
        by_contra hne
        exact hnone (fun heq => hne (hkind.isReader_eq.trans heq)) x hx hkind
    · rw [rmwCount_eq, h.count_pos_iff hG]
      constructor
      · rintro ⟨x, hx, -, hkind, hname⟩
        exact ⟨x, hx, hkind, hname⟩
      · rintro ⟨x, hx, hkind, hname⟩
        exact ⟨x, hx, hkind.isReader_eq, hkind, hname⟩

/-- **Queries and discovery.** After a run over beacons about the entities of a node, in which the
lists of the node are retained, the queries of every kind agree with the announcements if and
only if no client and no service of the node is live. -/
theorem queries_agree_iff (hG : G.Lawful V) {beacons : List Beacon} (hwf : WellFormed node beacons)
    (htopics : ∀ b ∈ beacons, b.disconnect = false → b.topicName.head? = some 0x2F)
    (hrun : Transition.run (step G) (initial G) beacons = .ok s) (hretained : Retained V node s) :
    (∀ kind, QueriesAgree G node s kind) ↔
      ∀ x ∈ s.live, ¬ IsKind .client x ∧ ¬ IsKind .service x := by
  obtain ⟨hannounced, hlive⟩ := hwf.run hG hrun
  have htopic : ∀ x ∈ s.live, x.topicName.head? = some 0x2F :=
    fun x hx => htopics x (hlive x hx).1 (hlive x hx).2
  simp only [hannounced.queriesAgree_iff hG hretained htopic]
  constructor
  · intro h x hx
    exact ⟨h .client (by decide) x hx, h .service (by decide) x hx⟩
  · intro h kind hwrong x hx
    cases kind with
    | publisher | subscriber => exact absurd rfl hwrong
    | client => exact (h x hx).1
    | service => exact (h x hx).2

/-- A query that lists nothing does not agree with a live entity of the kind. -/
lemma not_queriesAgree {kind : EntityKind}
    (hnames : namesAndTypesByNode G node.1 node.2 s.cache kind = .ok (some [])) (x : Beacon)
    (hx : x ∈ s.live) (hkind : IsKind kind x) : ¬ QueriesAgree G node s kind := by
  intro hagree
  obtain ⟨written, hwritten, -, hmem⟩ := hagree.names
  obtain rfl := Except.ok.inj (hnames.symm.trans hwritten)
  have hname := (hmem x.topicName).mpr ⟨x, hx, hkind, rfl⟩
  cases hname

end

/-- In a cache of maps, a node that is recorded once is retained if it lists the live entities. -/
lemma retained_of_allNodes {s : Discovered MapCache} {node : NodeEntitiesInfo}
    (hnodes : s.cache.allNodes = [node])
    (hlists : ∀ x ∈ s.live, x.entityGid ∈ node.gidSeq x.isReader) :
    Retained MapCache.contents (node.nodeName, node.nodeNamespace) s := by
  refine ⟨fun n hn _ => ?_, fun _ => ⟨node, ?_, rfl, rfl⟩⟩
  · rw [← MapCache.mem_allNodes, hnodes, List.mem_singleton] at hn
    rwa [hn]
  · rw [← MapCache.mem_allNodes, hnodes]
    exact List.mem_singleton_self node

/-- A subscriber and a publisher on one topic. -/
theorem queries_agree_pair :
    ∃ s, Transition.run (step mapCache) (initial mapCache)
        [sampleBeacon 0x61 1 2, sampleBeacon 0x61 0 1] = .ok s ∧
      ∀ kind, QueriesAgree mapCache ([0x61], [0x2F]) s kind := by
  obtain ⟨s, hs, hlive, hnodes⟩ : ∃ s, Transition.run (step mapCache) (initial mapCache)
      [sampleBeacon 0x61 1 2, sampleBeacon 0x61 0 1] = .ok s ∧
      s.live = [sampleBeacon 0x61 0 1, sampleBeacon 0x61 1 2] ∧
      s.cache.allNodes = [⟨[0x61], [0x2F], [.replicate rmwGidStorageSize 2],
        [.replicate rmwGidStorageSize 1]⟩] := ⟨_, rfl, by decide, rfl⟩
  have hwf : WellFormed ([0x61], [0x2F]) [sampleBeacon 0x61 1 2, sampleBeacon 0x61 0 1] :=
    ⟨by decide, List.forall_mem_cons.mpr ⟨⟨.subscriber, rfl⟩,
      List.forall_mem_singleton.mpr ⟨.publisher, rfl⟩⟩, by decide, by decide⟩
  have hretained := retained_of_allNodes hnodes (by rw [hlive]; decide)
  refine ⟨s, hs, (queries_agree_iff mapCache_lawful hwf (by decide) hs hretained).mpr ?_⟩
  rw [hlive]
  exact List.forall_mem_cons.mpr ⟨⟨nofun, nofun⟩, List.forall_mem_singleton.mpr ⟨nofun, nofun⟩⟩

/-- A client and a service are counted, but the queries by node do not list them. -/
theorem queries_disagree :
    ∃ s, Transition.run (step mapCache) (initial mapCache)
        [sampleBeacon 0x61 2 1, sampleBeacon 0x61 3 2] = .ok s ∧
      Retained MapCache.contents ([0x61], [0x2F]) s ∧
      rmwCountClients mapCache [0x2F, 0x74] s.cache = 1 ∧
      rmwGetClientNamesAndTypesByNode mapCache [0x61] [0x2F] s.cache = .ok (some []) ∧
      ¬ QueriesAgree mapCache ([0x61], [0x2F]) s .client ∧
      rmwCountServices mapCache [0x2F, 0x74] s.cache = 1 ∧
      rmwGetServiceNamesAndTypesByNode mapCache [0x61] [0x2F] s.cache = .ok (some []) ∧
      ¬ QueriesAgree mapCache ([0x61], [0x2F]) s .service := by
  obtain ⟨s, hs, hlive, hnodes, hclients, hclient, hservices, hservice⟩ : ∃ s,
      Transition.run (step mapCache) (initial mapCache)
        [sampleBeacon 0x61 2 1, sampleBeacon 0x61 3 2] = .ok s ∧
      s.live = [sampleBeacon 0x61 3 2, sampleBeacon 0x61 2 1] ∧
      s.cache.allNodes = [⟨[0x61], [0x2F], [], [.replicate rmwGidStorageSize 2,
        .replicate rmwGidStorageSize 1]⟩] ∧
      rmwCountClients mapCache [0x2F, 0x74] s.cache = 1 ∧
      rmwGetClientNamesAndTypesByNode mapCache [0x61] [0x2F] s.cache = .ok (some []) ∧
      rmwCountServices mapCache [0x2F, 0x74] s.cache = 1 ∧
      rmwGetServiceNamesAndTypesByNode mapCache [0x61] [0x2F] s.cache = .ok (some []) :=
    ⟨_, rfl, by decide, rfl, rfl, rfl, rfl, rfl⟩
  refine ⟨s, hs, retained_of_allNodes hnodes (by rw [hlive]; decide), hclients, hclient,
    not_queriesAgree hclient (sampleBeacon 0x61 2 1) (by rw [hlive]; decide) rfl, hservices,
    hservice, not_queriesAgree hservice (sampleBeacon 0x61 3 2) (by rw [hlive]; decide) rfl⟩

end Discovery
end RmwDesert
