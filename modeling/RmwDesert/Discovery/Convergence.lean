/-
The graph as all processes see it (`get_topic_endpoint_info.cpp`,
`get_topic_names_and_types.cpp`, `get_service_names_and_types.cpp`, `rmw.cpp`).

The beacons of several processes arrive in some order that keeps the order of each process.
The cache has the entities whose last beacon announces them (`Mirrors`), and that does not
depend on the order.  So the queries about topics give every process the live entities of all
processes (`graph_converges`).
-/
import RmwDesert.Discovery.Demangle
import RmwDesert.Lib.Merge

namespace RmwDesert
namespace Discovery

/-! ## Queries about the whole graph -/

/-- A cache with the query about all nodes. -/
structure WholeGraphCache (Γ : Type) extends GraphCache Γ where
  /-- `get_names_and_types`, with a zero-initialised output. -/
  getNamesAndTypes : (demangleTopic demangleType : Demangle) → Γ → Except Failure NamesAndTypes

/-- The names and types are those of all entities whose topics have a name. -/
structure Contents.TopicsOf {Γ : Type} (V : Contents Γ) (c : Γ)
    (demangled : List UInt8 → List UInt8) (names : NamesAndTypes) : Prop where
  nodup : (names.map (·.1)).Nodup
  types : ∀ e ∈ names, e.2 ≠ [] ∧ e.2.Nodup
  mem_iff : ∀ name type, (∃ e ∈ names, e.1 = name ∧ type ∈ e.2) ↔
    name ≠ [] ∧ ∃ isReader gid info, V.entities c isReader gid = some info ∧
      demangled info.topicName = name ∧ info.topicType = type

/-- What the operations do.  Here the counts are exact. -/
structure WholeGraphCache.Lawful {Γ : Type} (G : WholeGraphCache Γ) (V : Contents Γ) : Prop where
  lawful : G.toGraphCache.Lawful V
  count_eq : ∀ isReader topicName c, ∃ gids : List Gid, gids.Nodup ∧
    G.getCount isReader topicName c = gids.length ∧
    ∀ gid, gid ∈ gids ↔
      ∃ info, V.entities c isReader gid = some info ∧ info.topicName = topicName
  names_of_topics : ∀ {c} (demangleTopic : Demangle) demangled,
    (∀ isReader gid info, V.entities c isReader gid = some info →
      demangleTopic info.topicName = .ok (demangled info.topicName)) →
    ∃ names, G.getNamesAndTypes demangleTopic identityDemangle c = .ok names ∧
      V.TopicsOf c demangled names

section

variable {Γ : Type} (G : WholeGraphCache Γ) (name : List UInt8) (c : Γ)

/-- `rmw_service_server_is_available`, for the name of the service of a client. -/
def rmwServiceServerIsAvailable : Bool := decide (rmwCountServices G.toGraphCache name c > 0)

/-- `rmw_get_publishers_info_by_topic`. -/
def rmwGetPublishersInfoByTopic : Except Failure (List TopicEndpointInfo) :=
  G.getInfoByTopic false (kindDigits .publisher ++ name) identityDemangle c

/-- `rmw_get_subscriptions_info_by_topic`. -/
def rmwGetSubscriptionsInfoByTopic : Except Failure (List TopicEndpointInfo) :=
  G.getInfoByTopic true (kindDigits .subscriber ++ name) identityDemangle c

/-- `rmw_get_topic_names_and_types`. -/
def rmwGetTopicNamesAndTypes : Except Failure NamesAndTypes :=
  G.getNamesAndTypes demangleTopic identityDemangle c

/-- `rmw_get_service_names_and_types`. -/
def rmwGetServiceNamesAndTypes : Except Failure NamesAndTypes :=
  G.getNamesAndTypes demangleServiceFromTopic identityDemangle c

end

/-- The endpoints are those of the live entities of a kind, once each. -/
def Endpoints (endpoints : List TopicEndpointInfo) (live : Beacon → Prop) (kind : EntityKind)
    (name : List UInt8) : Prop :=
  (endpoints.map (·.endpointGid)).Nodup ∧ ∀ gid, gid ∈ endpoints.map (·.endpointGid) ↔
    ∃ x, live x ∧ IsKind kind x ∧ x.topicName = name ∧ x.entityGid = gid

/-- The names and types are those of the live entities of two kinds, once each. -/
def Topics (names : NamesAndTypes) (live : Beacon → Prop) (kind kind' : EntityKind) : Prop :=
  (names.map (·.1)).Nodup ∧ (∀ e ∈ names, e.2 ≠ [] ∧ e.2.Nodup) ∧
    ∀ name type, (∃ e ∈ names, e.1 = name ∧ type ∈ e.2) ↔
      ∃ x, live x ∧ (IsKind kind x ∨ IsKind kind' x) ∧ x.topicName = name ∧ x.typeName = type

/-- The queries about topics and services report the live entities. -/
structure Reports {Γ : Type} (G : WholeGraphCache Γ) (c : Γ) (live : Beacon → Prop) : Prop where
  count : ∀ kind name, ∃ gids : List Gid, gids.Nodup ∧
    rmwCount G.toGraphCache name c kind = gids.length ∧
    ∀ gid, gid ∈ gids ↔ ∃ x, live x ∧ IsKind kind x ∧ x.topicName = name ∧ x.entityGid = gid
  available : ∀ name, rmwServiceServerIsAvailable G name c = true ↔
    ∃ x, live x ∧ IsKind .service x ∧ x.topicName = name
  publishers : ∀ name, ∃ endpoints, rmwGetPublishersInfoByTopic G name c = .ok endpoints ∧
    Endpoints endpoints live .publisher name
  subscriptions : ∀ name, ∃ endpoints, rmwGetSubscriptionsInfoByTopic G name c = .ok endpoints ∧
    Endpoints endpoints live .subscriber name
  topics : ∃ names, rmwGetTopicNamesAndTypes G c = .ok names ∧
    Topics names live .publisher .subscriber
  services : ∃ names, rmwGetServiceNamesAndTypes G c = .ok names ∧
    Topics names live .service .client

/-- The reports say nothing else of a live entity than its type, its identifier, its topic and the
type of its topic. -/
lemma Reports.congr {Γ : Type} {G : WholeGraphCache Γ} {c : Γ} {live live' : Beacon → Prop}
    (h : Reports G c live) (hlive : ∀ x, live x → live' x)
    (hlive' : ∀ x, live' x → ∃ y, live y ∧ y.entityType = x.entityType ∧
      y.entityGid = x.entityGid ∧ y.topicName = x.topicName ∧ y.typeName = x.typeName) :
    Reports G c live' := by
  have hiff : ∀ P : Beacon → Prop, (∀ x y : Beacon, y.entityType = x.entityType →
      y.entityGid = x.entityGid → y.topicName = x.topicName → y.typeName = x.typeName →
      P x → P y) → ((∃ x, live x ∧ P x) ↔ ∃ x, live' x ∧ P x) := by
    intro P hP
    constructor
    · rintro ⟨x, hx, hPx⟩
      exact ⟨x, hlive x hx, hPx⟩
    · rintro ⟨x, hx, hPx⟩
      obtain ⟨y, hy, htype, hgid, htopic, htypeName⟩ := hlive' x hx
      exact ⟨y, hy, hP x y htype hgid htopic htypeName hPx⟩
  have hkind : ∀ kind name gid,
      (∃ x, live x ∧ IsKind kind x ∧ x.topicName = name ∧ x.entityGid = gid) ↔
        ∃ x, live' x ∧ IsKind kind x ∧ x.topicName = name ∧ x.entityGid = gid := by
    intro kind name gid
    refine hiff _ fun x y htype hgid htopic _ => ?_
    rw [IsKind, IsKind, htype, hgid, htopic]
    exact id
  have htopics : ∀ {names kind kind'}, Topics names live kind kind' →
      Topics names live' kind kind' := by
    rintro names kind kind' ⟨hnodup, htypes, hmem⟩
    refine ⟨hnodup, htypes, fun name type => (hmem name type).trans ?_⟩
    refine hiff _ fun x y htype _ htopic htypeName => ?_
    rw [IsKind, IsKind, IsKind, IsKind, htype, htopic, htypeName]
    exact id
  refine ⟨fun kind name => ?_, fun name => (h.available name).trans ?_, fun name => ?_,
    fun name => ?_, ?_, ?_⟩
  · obtain ⟨gids, hnodup, hcount, hmem⟩ := h.count kind name
    exact ⟨gids, hnodup, hcount, fun gid => (hmem gid).trans (hkind kind name gid)⟩
  · refine hiff _ fun x y htype _ htopic _ => ?_
    rw [IsKind, IsKind, htype, htopic]
    exact id
  · obtain ⟨endpoints, hok, hnodup, hmem⟩ := h.publishers name
    exact ⟨endpoints, hok, hnodup, fun gid => (hmem gid).trans (hkind _ name gid)⟩
  · obtain ⟨endpoints, hok, hnodup, hmem⟩ := h.subscriptions name
    exact ⟨endpoints, hok, hnodup, fun gid => (hmem gid).trans (hkind _ name gid)⟩
  · obtain ⟨names, hok, hnames⟩ := h.topics
    exact ⟨names, hok, htopics hnames⟩
  · obtain ⟨names, hok, hnames⟩ := h.services
    exact ⟨names, hok, htopics hnames⟩

/-! ## Beacons of all processes -/

/-- Beacons about entities that have identifiers of their own. -/
structure Consistent (beacons : List Beacon) : Prop where
  kind : ∀ b ∈ beacons, HasKind b
  entityType_eq : ∀ b ∈ beacons, ∀ x ∈ beacons, x.entityGid = b.entityGid →
    x.entityType = b.entityType
  announcement_eq : ∀ b ∈ beacons, ∀ x ∈ beacons, x.entityGid = b.entityGid →
    x.disconnect = false → b.disconnect = false → x = b
  topic : ∀ b ∈ beacons, b.disconnect = false → b.topicName.head? = some 0x2F

/-- An entity is live if the last beacon about it announces it. -/
def Live (beacons : List Beacon) (x : Beacon) : Prop :=
  Merge.lastWith Beacon.entityGid x.entityGid beacons = some x ∧ x.disconnect = false

instance (beacons : List Beacon) (x : Beacon) : Decidable (Live beacons x) :=
  inferInstanceAs (Decidable (_ ∧ _))

/-- What the cache has of the entity of a beacon, among the readers or the writers. -/
def keptInfo (isReader : Bool) (b : Beacon) : Option EntityInfo :=
  if b.disconnect = false ∧ b.isReader = isReader then some (entityInfo b) else none

/-- The cache has what the last beacons about the entities say. -/
def Mirrors {Γ : Type} (V : Contents Γ) (c : Γ) (beacons : List Beacon) : Prop :=
  ∀ isReader gid, V.entities c isReader gid
    = (Merge.lastWith Beacon.entityGid gid beacons).bind (keptInfo isReader)

lemma Consistent.of_subset {beacons beacons' : List Beacon} (h : Consistent beacons)
    (hsubset : beacons' ⊆ beacons) : Consistent beacons' where
  kind := fun b hb => h.kind b (hsubset hb)
  entityType_eq := fun b hb x hx => h.entityType_eq b (hsubset hb) x (hsubset hx)
  announcement_eq := fun b hb x hx => h.announcement_eq b (hsubset hb) x (hsubset hx)
  topic := fun b hb => h.topic b (hsubset hb)

lemma isReader_eq_of_entityType_eq {x b : Beacon} (h : x.entityType = b.entityType) :
    x.isReader = b.isReader := by
  rw [Beacon.isReader, Beacon.isReader, h]

section

variable {Γ : Type} {V : Contents Γ}

section

variable {G : GraphCache Γ} {beacons : List Beacon} {s : Discovered Γ}

lemma mirrors_initial (hG : G.Lawful V) : Mirrors V (initial G).cache [] := by
  intro isReader gid
  rw [initial, hG.entities_addParticipant, hG.entities_empty]
  rfl

/-- The step of the invariant. -/
lemma Mirrors.step (hG : G.Lawful V) (h : Mirrors V s.cache beacons) {b : Beacon}
    (hconsistent : Consistent (beacons ++ [b])) :
    ∃ t, step G s b = .ok t ∧ Mirrors V t.cache (beacons ++ [b]) := by
  have hb : b ∈ beacons ++ [b] := List.mem_append_right _ (List.mem_singleton_self b)
  -- what the cache has under the identifier of the beacon
  have hlast : ∀ isReader, V.entities s.cache isReader b.entityGid = none ∨
      ∃ x ∈ beacons, x.entityGid = b.entityGid ∧ x.disconnect = false ∧ x.isReader = isReader ∧
        V.entities s.cache isReader b.entityGid = some (entityInfo x) := by
    intro isReader
    rw [h]
    cases hx : Merge.lastWith Beacon.entityGid b.entityGid beacons with
    | none => exact Or.inl rfl
    | some x =>
      obtain ⟨hmem, hgid⟩ := Merge.mem_of_lastWith hx
      rw [Option.bind_some, keptInfo]
      split_ifs with hkept
      · exact Or.inr ⟨x, hmem, hgid, hkept.1, hkept.2, rfl⟩
      · exact Or.inl rfl
  have hknown : b.disconnect = false →
      V.entities s.cache b.isReader b.entityGid = none ∨
        V.entities s.cache b.isReader b.entityGid = some (entityInfo b) := by
    intro hconnect
    refine (hlast b.isReader).imp_right ?_
    rintro ⟨x, hx, hgid, hlive, -, hinfo⟩
    rw [hinfo, hconsistent.announcement_eq b hb x (List.mem_append_left _ hx) hgid hlive hconnect]
  obtain ⟨node, hnode, -⟩ := rebuildNode_ok hG b s.cache
  refine ⟨_, step_of_rebuildNode hnode, fun isReader gid => ?_⟩
  rw [entities_register hG hknown, Merge.lastWith_concat]
  by_cases hgid : gid = b.entityGid
  · subst hgid
    rw [if_pos rfl, Option.bind_some, keptInfo]
    by_cases hreader : isReader = b.isReader
    · subst hreader
      cases hdisconnect : b.disconnect <;> simp
    · -- the entity of a beacon is not among those of the other sort
      rw [if_neg fun heq => hreader (congrArg Prod.fst heq),
        if_neg fun hkept => hreader hkept.2.symm]
      rcases hlast isReader with hnone | ⟨x, hx, hxgid, -, hxreader, -⟩
      · exact hnone
      · have htype := hconsistent.entityType_eq b hb x (List.mem_append_left _ hx) hxgid
        exact absurd (hxreader.symm.trans (isReader_eq_of_entityType_eq htype)) hreader
  · rw [if_neg fun heq => hgid (congrArg Prod.snd heq), if_neg (Ne.symm hgid)]
    exact h isReader gid

/-- The invariant after a run. -/
lemma mirrors_run (hG : G.Lawful V) (hconsistent : Consistent beacons) :
    ∃ s, Transition.run (step G) (initial G) beacons = .ok s ∧ Mirrors V s.cache beacons := by
  induction beacons using List.reverseRecOn with
  | nil => exact ⟨_, rfl, mirrors_initial hG⟩
  | append_singleton beacons b ih =>
    obtain ⟨s, hs, hmirrors⟩ := ih (hconsistent.of_subset (List.subset_append_left _ _))
    obtain ⟨t, ht, hmirrors⟩ := hmirrors.step hG hconsistent
    refine ⟨t, ?_, hmirrors⟩
    rw [Transition.run_append, hs]
    show Transition.run (Discovery.step G) s [b] = .ok t
    exact Transition.bind_eq_ok.mpr ⟨t, ht, rfl⟩

end

/-! ## The queries -/

instance (kind : EntityKind) (b : Beacon) : Decidable (IsKind kind b) :=
  inferInstanceAs (Decidable (_ = _))

/-- A demangler for two kinds returns the name of an entity of one of them, and nothing for the
others. -/
lemma demangle_either {demangle : Demangle} {kind kind' : EntityKind}
    (hdemangle : ∀ name, demangle name = do
      let demangledTopic ← demangleFromTopic kind name
      if demangledTopic ≠ [] then return demangledTopic else demangleFromTopic kind' name)
    {b : Beacon} (htopic : b.topicName.head? = some 0x2F) :
    demangle (mangledName b)
      = .ok (if IsKind kind b ∨ IsKind kind' b then b.topicName else []) := by
  have hname : ∀ kind, demangleFromTopic kind (mangledName b)
      = .ok (if IsKind kind b then b.topicName else []) := by
    intro kind
    split_ifs with hkind
    · rw [demangle_of_isKind hkind]
      cases hb : b.topicName with
      | nil => rw [hb] at htopic; cases htopic
      | cons c rest =>
        rw [hb] at htopic
        exact congrArg Except.ok (if_pos (Option.some.inj htopic))
    · exact demangle_of_not_isKind hkind
  have hne : b.topicName ≠ [] := by
    intro hnil
    rw [hnil] at htopic
    cases htopic
  rw [hdemangle, hname kind]
  simp only [bind, Except.bind]
  by_cases hkind : IsKind kind b
  · rw [if_pos hkind, if_pos hne, if_pos (Or.inl hkind)]
    rfl
  · rw [if_neg hkind, if_neg (not_not_intro rfl), hname kind']
    simp only [hkind, false_or]

section

variable {G : WholeGraphCache Γ} {beacons : List Beacon} {c : Γ}

/-- The entities of the cache are the live ones. -/
lemma Mirrors.entities_iff (h : Mirrors V c beacons) (isReader : Bool) (gid : Gid)
    (info : EntityInfo) : V.entities c isReader gid = some info ↔
      ∃ x, Live beacons x ∧ x.isReader = isReader ∧ x.entityGid = gid ∧ entityInfo x = info := by
  rw [h, Option.bind_eq_some_iff]
  constructor
  · rintro ⟨x, hx, hinfo⟩
    rw [keptInfo] at hinfo
    split_ifs at hinfo with hkept
    obtain rfl := (Merge.mem_of_lastWith hx).2
    exact ⟨x, ⟨hx, hkept.1⟩, hkept.2, rfl, Option.some.inj hinfo⟩
  · rintro ⟨x, ⟨hx, hconnect⟩, hreader, rfl, rfl⟩
    exact ⟨x, hx, if_pos ⟨hconnect, hreader⟩⟩

lemma Live.mem {x : Beacon} (h : Live beacons x) : x ∈ beacons := (Merge.mem_of_lastWith h.1).1

/-- The entities of a kind that the cache has under a name. -/
lemma Mirrors.kind_iff (h : Mirrors V c beacons) (hconsistent : Consistent beacons)
    (kind : EntityKind) (name : List UInt8) (gid : Gid) :
    (∃ info, V.entities c (kind == .subscriber) gid = some info ∧
        info.topicName = kindDigits kind ++ name) ↔
      ∃ x, Live beacons x ∧ IsKind kind x ∧ x.topicName = name ∧ x.entityGid = gid := by
  simp only [h.entities_iff, kindDigits_eq, List.singleton_append]
  constructor
  · rintro ⟨_, ⟨x, hx, -, hgid, rfl⟩, hname⟩
    obtain ⟨kindx, hkind⟩ := hconsistent.kind x hx.mem
    rw [entityInfo, hkind.mangledName_eq] at hname
    obtain ⟨hdigit, hname⟩ := List.cons.inj hname
    rw [digit_injective hdigit] at hkind
    exact ⟨x, hx, hkind, hname, hgid⟩
  · rintro ⟨x, hx, hkind, rfl, hgid⟩
    exact ⟨_, ⟨x, hx, hkind.isReader_eq, hgid, rfl⟩, hkind.mangledName_eq⟩

/-- The endpoints of a kind that the cache has under a name. -/
lemma Mirrors.endpoints (hG : G.Lawful V) (h : Mirrors V c beacons)
    (hconsistent : Consistent beacons) (kind : EntityKind) (name : List UInt8) :
    ∃ endpoints, G.getInfoByTopic (kind == .subscriber) (kindDigits kind ++ name)
        identityDemangle c = .ok endpoints ∧ Endpoints endpoints (Live beacons) kind name := by
  obtain ⟨endpoints, hok, hof⟩ :=
    hG.lawful.endpoints_of_topic (kind == .subscriber) (kindDigits kind ++ name) c
  refine ⟨endpoints, hok, hof.nodup, fun gid => ?_⟩
  rw [hof.mem_iff, h.kind_iff hconsistent]

/-- The names and types of two kinds. -/
lemma Mirrors.topics (hG : G.Lawful V) (h : Mirrors V c beacons) (hconsistent : Consistent beacons)
    {demangle : Demangle} {kind kind' : EntityKind}
    (hdemangle : ∀ name, demangle name = do
      let demangledTopic ← demangleFromTopic kind name
      if demangledTopic ≠ [] then return demangledTopic else demangleFromTopic kind' name) :
    ∃ names, G.getNamesAndTypes demangle identityDemangle c = .ok names ∧
      Topics names (Live beacons) kind kind' := by
  have htopic : ∀ x, Live beacons x → x.topicName.head? = some 0x2F :=
    fun x hx => hconsistent.topic x hx.mem hx.2
  have hname : ∀ x, Live beacons x → demangle (mangledName x)
      = .ok (if IsKind kind x ∨ IsKind kind' x then x.topicName else []) :=
    fun x hx => demangle_either hdemangle (htopic x hx)
  obtain ⟨names, hok, hof⟩ := hG.names_of_topics (c := c) demangle
    (fun name => (demangle name).toOption.getD []) (by
      intro isReader gid info hinfo
      obtain ⟨x, hx, -, -, rfl⟩ := (h.entities_iff _ _ _).mp hinfo
      simp only [entityInfo, hname x hx, Except.toOption, Option.getD_some])
  refine ⟨names, hok, hof.nodup, hof.types, fun name type => ?_⟩
  rw [hof.mem_iff]
  constructor
  · rintro ⟨hne, isReader, gid, info, hinfo, hdemangled, htype⟩
    obtain ⟨x, hx, -, -, rfl⟩ := (h.entities_iff _ _ _).mp hinfo
    simp only [entityInfo, hname x hx, Except.toOption, Option.getD_some] at hdemangled
    split_ifs at hdemangled with hkind
    · exact ⟨x, hx, hkind, hdemangled, htype⟩
    · exact absurd hdemangled.symm hne
  · rintro ⟨x, hx, hkind, rfl, rfl⟩
    refine ⟨fun hnil => ?_, x.isReader, x.entityGid, entityInfo x,
      (h.entities_iff _ _ _).mpr ⟨x, hx, rfl, rfl, rfl⟩, ?_, rfl⟩
    · have hhead := htopic x hx
      rw [hnil] at hhead
      cases hhead
    · simp only [entityInfo, hname x hx, Except.toOption, Option.getD_some, if_pos hkind]

/-- The queries give what the last beacons about the entities say. -/
lemma Mirrors.reports (hG : G.Lawful V) (h : Mirrors V c beacons)
    (hconsistent : Consistent beacons) : Reports G c (Live beacons) where
  count := by
    intro kind name
    obtain ⟨gids, hnodup, hcount, hmem⟩ :=
      hG.count_eq (kind == .subscriber) (kindDigits kind ++ name) c
    refine ⟨gids, hnodup, (rmwCount_eq name c kind).trans hcount, fun gid => ?_⟩
    rw [hmem, h.kind_iff hconsistent]
  available := by
    intro name
    have hcount : 0 < rmwCountServices G.toGraphCache name c ↔ _ :=
      hG.lawful.count_pos_iff (EntityKind.service == .subscriber) (kindDigits .service ++ name) c
    rw [rmwServiceServerIsAvailable, decide_eq_true_eq, gt_iff_lt, hcount]
    simp only [h.kind_iff hconsistent]
    constructor
    · rintro ⟨gid, x, hx, hkind, hname, -⟩
      exact ⟨x, hx, hkind, hname⟩
    · rintro ⟨x, hx, hkind, hname⟩
      exact ⟨x.entityGid, x, hx, hkind, hname, rfl⟩
  publishers := h.endpoints hG hconsistent .publisher
  subscriptions := h.endpoints hG hconsistent .subscriber
  topics := h.topics hG hconsistent fun _ => rfl
  services := h.topics hG hconsistent fun _ => rfl

end

/-! ## All processes -/

/-- Beacons of processes that have no entity in common. -/
structure Separate {ι : Type} (logs : ι → List Beacon) : Prop where
  consistent : ∀ i, Consistent (logs i)
  owned : ∀ i, ∀ b ∈ logs i, ∀ j, ∀ x ∈ logs j, x.entityGid = b.entityGid → j = i

section

variable {ι : Type} [DecidableEq ι] {logs : ι → List Beacon} {beacons : List Beacon}

/-- Together, the beacons are consistent. -/
lemma Separate.consistent_all (h : Separate logs) (hall : Merge.MergesAll logs beacons) :
    Consistent beacons := by
  have hlog : ∀ b ∈ beacons, ∀ x ∈ beacons, x.entityGid = b.entityGid →
      ∃ i, b ∈ logs i ∧ x ∈ logs i := by
    intro b hb x hx hgid
    obtain ⟨i, hi⟩ := hall.mem_iff.mp hb
    obtain ⟨j, hj⟩ := hall.mem_iff.mp hx
    obtain rfl := h.owned i b hi j x hj hgid
    exact ⟨j, hi, hj⟩
  refine ⟨fun b hb => ?_, fun b hb x hx hgid => ?_, fun b hb x hx hgid => ?_, fun b hb => ?_⟩
  · obtain ⟨i, hi⟩ := hall.mem_iff.mp hb
    exact (h.consistent i).kind b hi
  · obtain ⟨i, hi, hj⟩ := hlog b hb x hx hgid
    exact (h.consistent i).entityType_eq b hi x hj hgid
  · obtain ⟨i, hi, hj⟩ := hlog b hb x hx hgid
    exact (h.consistent i).announcement_eq b hi x hj hgid
  · obtain ⟨i, hi⟩ := hall.mem_iff.mp hb
    exact (h.consistent i).topic b hi

/-- The live entities are those of the processes, in whatever order the beacons arrive. -/
lemma Separate.live_iff (h : Separate logs) (hall : Merge.MergesAll logs beacons) (x : Beacon) :
    Live beacons x ↔ ∃ i, Live (logs i) x := by
  constructor
  · intro hx
    obtain ⟨i, hi⟩ := hall.mem_iff.mp hx.mem
    have hlast := hall.lastWith_eq fun j y hy hgid => h.owned i x hi j y hy hgid
    exact ⟨i, hlast.symm.trans hx.1, hx.2⟩
  · rintro ⟨i, hx⟩
    have hlast := hall.lastWith_eq fun j y hy hgid => h.owned i x hx.mem j y hy hgid
    exact ⟨hlast.trans hx.1, hx.2⟩

/-- **The graph.**  Whatever the order in which the beacons of the processes arrive, the discovery
thread handles all of them, and afterwards the queries about topics and services report exactly
the entities of all processes that are live. -/
theorem graph_converges {G : WholeGraphCache Γ} (hG : G.Lawful V) (hlogs : Separate logs)
    (hall : Merge.MergesAll logs beacons) :
    ∃ s, Transition.run (step G.toGraphCache) (initial G.toGraphCache) beacons = .ok s ∧
      Reports G s.cache fun x => ∃ i, Live (logs i) x := by
  have hconsistent := hlogs.consistent_all hall
  obtain ⟨s, hs, hmirrors⟩ := mirrors_run hG.lawful hconsistent
  refine ⟨s, hs, ?_⟩
  have hlive : Live beacons = fun x => ∃ i, Live (logs i) x :=
    funext fun x => propext (hlogs.live_iff hall x)
  rw [← hlive]
  exact hmirrors.reports hG hconsistent

end

end

/-! ## A cache of maps -/

/-- The cache of maps, with the query about all nodes. -/
def wholeMapCache : WholeGraphCache MapCache where
  toGraphCache := mapCache
  getNamesAndTypes demangleTopic demangleType c := do
    let topics ← (c.readers.entries ++ c.writers.entries).mapM fun entity => do
      return (← demangleTopic entity.2.topicName, ← demangleType entity.2.topicType)
    return MapCache.collect topics

namespace MapCache

/-- The entities of both tables. -/
lemma mem_entries (c : MapCache) (gid : Gid) (info : EntityInfo) :
    (⟨gid, info⟩ : Sigma fun _ : Gid => EntityInfo) ∈ c.readers.entries ++ c.writers.entries ↔
      ∃ isReader, contents.entities c isReader gid = some info := by
  simp only [List.mem_append, ← AList.mem_lookup_iff, Bool.exists_bool]
  exact or_comm

/-- The names and types that are collected. -/
lemma mem_collect (topics : List (List UInt8 × List UInt8)) (name type : List UInt8) :
    (∃ e ∈ collect topics, e.1 = name ∧ type ∈ e.2) ↔ name ≠ [] ∧ (name, type) ∈ topics := by
  simp only [collect, List.mem_map, List.mem_dedup, List.mem_filter, decide_eq_true_eq]
  constructor
  · rintro ⟨_, ⟨name, ⟨-, hne⟩, rfl⟩, rfl, hmem⟩
    simp only [List.mem_dedup, List.mem_map, List.mem_filter, decide_eq_true_eq] at hmem
    obtain ⟨topic, ⟨htopic, rfl⟩, rfl⟩ := hmem
    exact ⟨hne, htopic⟩
  · rintro ⟨hne, htopic⟩
    refine ⟨_, ⟨name, ⟨⟨(name, type), htopic, rfl⟩, hne⟩, rfl⟩, rfl, ?_⟩
    simp only [List.mem_dedup, List.mem_map, List.mem_filter, decide_eq_true_eq]
    exact ⟨(name, type), ⟨htopic, rfl⟩, rfl⟩

lemma types_collect (topics : List (List UInt8 × List UInt8)) :
    ∀ e ∈ collect topics, e.2 ≠ [] ∧ e.2.Nodup := by
  intro e he
  simp only [collect, List.mem_map, List.mem_dedup, List.mem_filter, decide_eq_true_eq] at he
  obtain ⟨name, ⟨⟨topic, htopic, rfl⟩, -⟩, rfl⟩ := he
  refine ⟨fun hnil => ?_, List.nodup_dedup _⟩
  have hmem : topic.2 ∈ ((topics.filter (·.1 = topic.1)).map (·.2)).dedup :=
    List.mem_dedup.mpr (List.mem_map_of_mem (List.mem_filter.mpr ⟨htopic, decide_eq_true rfl⟩))
  exact List.ne_nil_of_mem hmem hnil

end MapCache

open MapCache in
/-- **The cache of maps is lawful**, with the query about all nodes, too. -/
theorem wholeMapCache_lawful : wholeMapCache.Lawful contents where
  lawful := mapCache_lawful
  count_eq := by
    intro isReader topicName c
    obtain ⟨endpoints, hendpoints, hof⟩ := getInfoByTopic_eq isReader topicName c
    refine ⟨endpoints.map (·.endpointGid), hof.nodup, ?_, hof.mem_iff⟩
    rw [List.length_map]
    -- there is an endpoint for each entity that is counted
    have hok := Transition.mapM_eq_ok (ε := Failure)
      (l := (c.table isReader).entries.filter (·.2.topicName = topicName))
      (f := fun entity => do
        let _ ← identityDemangle entity.2.topicType
        return (⟨(c.endpointNode isReader entity.1 entity.2).1,
          (c.endpointNode isReader entity.1 entity.2).2, entity.1⟩ : TopicEndpointInfo))
      (g := fun entity => ⟨(c.endpointNode isReader entity.1 entity.2).1,
        (c.endpointNode isReader entity.1 entity.2).2, entity.1⟩) fun _ _ => rfl
    obtain rfl := Except.ok.inj (hendpoints.symm.trans hok)
    rw [List.length_map]
    rfl
  names_of_topics := by
    intro c demangleTopic demangled hdemangle
    have hok := Transition.mapM_eq_ok (l := c.readers.entries ++ c.writers.entries)
      (f := fun entity => do
        return (← demangleTopic entity.2.topicName, ← identityDemangle entity.2.topicType))
      (g := fun entity => (demangled entity.2.topicName, entity.2.topicType)) (by
        rintro ⟨gid, info⟩ hentity
        obtain ⟨isReader, hinfo⟩ := (c.mem_entries gid info).mp hentity
        rw [hdemangle isReader gid info hinfo]
        rfl)
    refine ⟨_, by rw [wholeMapCache]; simp only [hok]; rfl, ?_, types_collect _,
      fun name type => ?_⟩
    · rw [map_fst_collect]
      exact List.nodup_dedup _
    · rw [mem_collect, List.mem_map]
      refine and_congr_right fun _ => ⟨?_, ?_⟩
      · rintro ⟨⟨gid, info⟩, hentity, hpair⟩
        obtain ⟨isReader, hinfo⟩ := (c.mem_entries gid info).mp hentity
        obtain ⟨hname, htype⟩ := Prod.mk.inj hpair
        exact ⟨isReader, gid, info, hinfo, hname, htype⟩
      · rintro ⟨isReader, gid, info, hinfo, rfl, rfl⟩
        exact ⟨⟨gid, info⟩, (c.mem_entries gid info).mpr ⟨isReader, hinfo⟩, rfl⟩

end Discovery
end RmwDesert
