/-
The entities of one node in the graph cache.

The entities of the cache are the live ones (`Announced`).  From lists that are exact, the
thread builds the next ones by queries for the writers and for the readers; as the second
query gets the output of the first one, it fails while the node has a writer.  The main
result, `one_node_tracked_iff`, says after which beacons the lists stay exact.
-/
import RmwDesert.Discovery.Thread

namespace RmwDesert
namespace Discovery

/-! ## Announced entities -/

/-- What the cache keeps of an announced entity. -/
def entityInfo (x : Beacon) : EntityInfo := ⟨mangledName x, x.typeName, defaultGid⟩

/-- The type is that of a kind of entities. -/
def IsKind (kind : EntityKind) (b : Beacon) : Prop :=
  b.entityType = kind.entityType.toUInt32.toInt32

/-- The type is that of one of the four kinds of entities. -/
def HasKind (b : Beacon) : Prop := ∃ kind, IsKind kind b

/-- Beacons about the entities of a node, each of which has an identifier of its own. -/
structure WellFormed (node : List UInt8 × List UInt8) (beacons : List Beacon) : Prop where
  node_eq : ∀ b ∈ beacons, b.node = node
  kind : ∀ b ∈ beacons, HasKind b
  entityType_eq : ∀ b ∈ beacons, ∀ x ∈ beacons, x.entityGid = b.entityGid →
    x.entityType = b.entityType
  announcement_eq : ∀ b ∈ beacons, ∀ x ∈ beacons, x.entityGid = b.entityGid →
    x.disconnect = false → b.disconnect = false → x = b

/-- A beacon about an entity of the node. -/
structure About {Γ : Type} (node : List UInt8 × List UInt8) (s : Discovered Γ) (b : Beacon) :
    Prop where
  node_eq : b.node = node
  kind : HasKind b
  entityType_eq : ∀ x ∈ s.live, x.entityGid = b.entityGid → x.entityType = b.entityType
  announcement_eq : ∀ x ∈ s.live, x.entityGid = b.entityGid → b.disconnect = false → x = b

/-- The entities of the cache are the live ones. -/
structure Announced {Γ : Type} (V : Contents Γ) (node : List UInt8 × List UInt8)
    (s : Discovered Γ) : Prop where
  node_eq : ∀ x ∈ s.live, x.node = node
  kind : ∀ x ∈ s.live, HasKind x
  inj : ∀ x ∈ s.live, ∀ y ∈ s.live, x.entityGid = y.entityGid → x = y
  entities : ∀ isReader gid info, V.entities s.cache isReader gid = some info ↔
    ∃ x ∈ s.live, x.isReader = isReader ∧ x.entityGid = gid ∧ entityInfo x = info

/-- The first character of the mangled name is the digit of the kind. -/
lemma IsKind.mangledName_eq {kind : EntityKind} {b : Beacon} (h : IsKind kind b) :
    mangledName b = (0x30 + kind.entityType) :: b.topicName := by
  rw [mangledName, h]
  cases kind <;> rfl

lemma IsKind.isReader_eq {kind : EntityKind} {b : Beacon} (h : IsKind kind b) :
    b.isReader = (kind == .subscriber) := by
  rw [Beacon.isReader, h]
  cases kind <;> rfl

lemma digit_injective {kind kind' : EntityKind}
    (h : 0x30 + kind.entityType = 0x30 + kind'.entityType) : kind = kind' := by
  revert h
  cases kind <;> cases kind' <;> decide

/-- The kinds are readers or writers by the first character of the mangled name. -/
lemma isReader_eq_of_mangledName_eq {x y : Beacon} (hx : HasKind x) (hy : HasKind y)
    (h : mangledName x = mangledName y) : x.isReader = y.isReader := by
  obtain ⟨kindx, hx⟩ := hx
  obtain ⟨kindy, hy⟩ := hy
  rw [hx.mangledName_eq, hy.mangledName_eq] at h
  rw [hx.isReader_eq, hy.isReader_eq, digit_injective (List.cons.inj h).1]

lemma mangledName_ne_nil {x : Beacon} (hx : HasKind x) : mangledName x ≠ [] := by
  obtain ⟨kind, hx⟩ := hx
  rw [hx.mangledName_eq]
  exact List.cons_ne_nil _ _

section

variable {Γ : Type} {G : GraphCache Γ} {V : Contents Γ} {node : List UInt8 × List UInt8}
  {s t : Discovered Γ} {b : Beacon}

lemma mem_announce_iff {x : Beacon} {live : List Beacon} :
    x ∈ announce b live ↔
      if b.disconnect then x ∈ live ∧ ¬ b.SameEntity x else x = b ∨ x ∈ live := by
  rw [announce]
  split_ifs
  · simp
  · simp

/-- A live entity with another identifier stays. -/
lemma mem_announce_of_gid_ne {x : Beacon} {live : List Beacon} (hx : x ∈ live)
    (hne : x.entityGid ≠ b.entityGid) : x ∈ announce b live := by
  rw [mem_announce_iff]
  split_ifs
  · exact ⟨hx, fun hsame => hne hsame.2.2⟩
  · exact Or.inr hx

/-- The entities after the updates. -/
lemma entities_register (hG : G.Lawful V) (hb : b.disconnect = false →
      V.entities s.cache b.isReader b.entityGid = none ∨
        V.entities s.cache b.isReader b.entityGid = some (entityInfo b))
    (n : NodeEntitiesInfo) (isReader : Bool) (gid : Gid) :
    V.entities (register G b s.cache n) isReader gid
      = if (isReader, gid) = (b.isReader, b.entityGid) then
          if b.disconnect then none else some (entityInfo b)
        else V.entities s.cache isReader gid := by
  simp only [register]
  split_ifs with hdisconnect hentity hentity
  · rw [hG.entities_removeEntity, if_pos hentity]
  · rw [hG.entities_removeEntity, if_neg hentity, hG.entities_update]
  · obtain ⟨rfl, rfl⟩ := Prod.mk.inj hentity
    refine hG.entities_addEntity _ _ _ ?_
    rw [hG.entities_update]
    exact hb (Bool.eq_false_iff.mpr hdisconnect)
  · rw [hG.entities_addEntity_of_ne _ _ _ _ hentity, hG.entities_update]

lemma announced_initial (hG : G.Lawful V) : Announced V node (initial G) where
  node_eq := fun _ hx => absurd hx List.not_mem_nil
  kind := fun _ hx => absurd hx List.not_mem_nil
  inj := fun _ hx => absurd hx List.not_mem_nil
  entities := by
    intro isReader gid info
    rw [initial, hG.entities_addParticipant, hG.entities_empty]
    constructor
    · intro h
      exact absurd h.symm (Option.some_ne_none info)
    · rintro ⟨x, hx, -⟩
      cases hx

/-- A live entity with the identifier of the beacon is the one that the beacon is about. -/
lemma Announced.sameEntity (h : Announced V node s) (hb : About node s b) {x : Beacon}
    (hx : x ∈ s.live) (hgid : x.entityGid = b.entityGid) : b.SameEntity x :=
  ⟨(h.node_eq x hx).trans hb.node_eq.symm, hb.entityType_eq x hx hgid, hgid⟩

/-- A live entity with the identifier of the beacon, after the beacon, is the one it connects. -/
lemma Announced.eq_of_mem_announce (h : Announced V node s) (hb : About node s b) {x : Beacon}
    (hx : x ∈ announce b s.live) (hgid : x.entityGid = b.entityGid) :
    x = b ∧ b.disconnect = false := by
  rw [mem_announce_iff] at hx
  split_ifs at hx with hdisconnect
  · exact absurd (h.sameEntity hb hx.1 hgid) hx.2
  · have hconnect := Bool.eq_false_iff.mpr hdisconnect
    rcases hx with rfl | hx
    · exact ⟨rfl, hconnect⟩
    · exact ⟨hb.announcement_eq x hx hgid hconnect, hconnect⟩

/-- The step of the invariant. -/
lemma Announced.step (hG : G.Lawful V) (h : Announced V node s) (hb : About node s b)
    (hstep : step G s b = .ok t) : Announced V node t := by
  obtain ⟨n, hn, -⟩ := rebuildNode_ok hG b s.cache
  obtain rfl := Except.ok.inj (hstep.symm.trans (step_of_rebuildNode hn))
  have hknown : b.disconnect = false →
      V.entities s.cache b.isReader b.entityGid = none ∨
        V.entities s.cache b.isReader b.entityGid = some (entityInfo b) := by
    intro hconnect
    cases hentity : V.entities s.cache b.isReader b.entityGid with
    | none => exact Or.inl rfl
    | some info =>
      obtain ⟨x, hx, -, hgid, hinfo⟩ := (h.entities _ _ _).mp hentity
      rw [← hinfo, hb.announcement_eq x hx hgid hconnect]
      exact Or.inr rfl
  refine ⟨fun x hx => ?_, fun x hx => ?_, fun x hx y hy hgid => ?_, fun isReader gid info => ?_⟩
  · rcases mem_announce hx with rfl | hx
    · exact hb.node_eq
    · exact h.node_eq x hx
  · rcases mem_announce hx with rfl | hx
    · exact hb.kind
    · exact h.kind x hx
  · rw [mem_announce_iff] at hx hy
    split_ifs at hx hy with hdisconnect
    · exact h.inj x hx.1 y hy.1 hgid
    · have hconnect := Bool.eq_false_iff.mpr hdisconnect
      rcases hx with rfl | hx <;> rcases hy with rfl | hy
      · rfl
      · exact (hb.announcement_eq y hy hgid.symm hconnect).symm
      · exact hb.announcement_eq x hx hgid hconnect
      · exact h.inj x hx y hy hgid
  · rw [entities_register hG hknown]
    split_ifs with hentity hdisconnect
    · -- the entity of the beacon disconnects
      obtain ⟨rfl, rfl⟩ := Prod.mk.inj hentity
      refine ⟨False.elim, ?_⟩
      rintro ⟨x, hx, -, hgid, -⟩
      obtain ⟨rfl, hconnect⟩ := h.eq_of_mem_announce hb hx hgid
      exact absurd hdisconnect (Bool.eq_false_iff.mp hconnect)
    · obtain ⟨rfl, rfl⟩ := Prod.mk.inj hentity
      constructor
      · intro hinfo
        exact ⟨b, mem_announce_iff.mpr (by rw [if_neg hdisconnect]; exact Or.inl rfl), rfl, rfl,
          Option.some.inj hinfo⟩
      · rintro ⟨x, hx, -, hgid, rfl⟩
        obtain ⟨rfl, -⟩ := h.eq_of_mem_announce hb hx hgid
        rfl
    · -- another entity
      rw [h.entities]
      constructor
      · rintro ⟨x, hx, rfl, rfl, hinfo⟩
        refine ⟨x, mem_announce_iff.mpr ?_, rfl, rfl, hinfo⟩
        split_ifs
        · refine ⟨hx, fun hsame => hentity ?_⟩
          rw [Beacon.isReader, hsame.2.1, hsame.2.2]
          rfl
        · exact Or.inr hx
      · rintro ⟨x, hx, rfl, rfl, hinfo⟩
        rcases mem_announce hx with rfl | hx
        · exact absurd rfl hentity
        · exact ⟨x, hx, rfl, rfl, hinfo⟩

/-! ## Exact lists -/

/-- A list holds the live entities with a property, once each. -/
def Lists (gids : List Gid) (live : List Beacon) (P : Beacon → Prop) : Prop :=
  gids.Nodup ∧ ∀ gid, gid ∈ gids ↔ ∃ x ∈ live, P x ∧ x.entityGid = gid

/-- The lists of the node hold its live readers and its live writers. -/
def Exact (V : Contents Γ) (node : List UInt8 × List UInt8) (s : Discovered Γ) : Prop :=
  ∀ isReader, Lists (recorded V s.cache node isReader) s.live (·.isReader = isReader)

/-- The node is the only one in the cache, and its lists are exact. -/
structure Tracked (V : Contents Γ) (node : List UInt8 × List UInt8) (s : Discovered Γ) : Prop where
  announced : Announced V node s
  participant : OneParticipant V s
  nodes : V.nodes s.cache defaultGid = [] ∨
    ∃ n, V.nodes s.cache defaultGid = [n] ∧ n.Named node.1 node.2
  exact : Exact V node s

lemma recorded_of_eq {c : Γ} {n : NodeEntitiesInfo} (hn : n.Named node.1 node.2)
    (hnodes : V.nodes c defaultGid = [n]) (isReader : Bool) :
    recorded V c node isReader = n.gidSeq isReader := by
  rw [recorded, hnodes, List.filter_cons_of_pos (by simpa using hn)]
  simp

/-- Every live entity is listed by a node of the name. -/
lemma Tracked.exists_node (h : Tracked V node s) {x : Beacon} (hx : x ∈ s.live) :
    ∃ n, V.nodes s.cache defaultGid = [n] ∧ n.Named node.1 node.2 ∧
      x.entityGid ∈ n.gidSeq x.isReader := by
  have hlisted := ((h.exact x.isReader).2 x.entityGid).mpr ⟨x, hx, rfl, rfl⟩
  rcases h.nodes with hnil | ⟨n, hn, hnamed⟩
  · rw [recorded, hnil] at hlisted
    cases hlisted
  · rw [recorded_of_eq hnamed hn] at hlisted
    exact ⟨n, hn, hnamed, hlisted⟩

/-- With a zero-initialised output, the query by node finds the topics of the live entities. -/
lemma Tracked.getNamesAndTypesByNode (hG : G.Lawful V) (h : Tracked V node s) (isReader : Bool) :
    ∃ written, G.getNamesAndTypesByNode isReader node.1 node.2 identityDemangle identityDemangle
        [] s.cache = .ok written ∧ ((written.getD []).map (·.1)).Nodup ∧
      ∀ name, name ∈ (written.getD []).map (·.1) ↔
        ∃ x ∈ s.live, x.isReader = isReader ∧ mangledName x = name := by
  rcases h.nodes with hnil | ⟨n, hn, hnamed⟩
  · -- the node is unknown, and has no live entity
    refine ⟨none, hG.names_of_unknown isReader _ _ ?_, List.nodup_nil, fun name => ?_⟩
    · rintro n ⟨participant, hmem⟩ -
      by_cases hp : participant = defaultGid
      · rw [hp, hnil] at hmem
        cases hmem
      · rw [h.participant participant hp] at hmem
        cases hmem
    · refine ⟨fun h => absurd h List.not_mem_nil, ?_⟩
      rintro ⟨x, hx, -⟩
      obtain ⟨n, hn, -⟩ := h.exists_node hx
      rw [hnil] at hn
      cases hn
  · have hrecorded : ∀ n', V.Recorded s.cache n' → n' = n := by
      rintro n' ⟨participant, hmem⟩
      by_cases hp : participant = defaultGid
      · rw [hp, hn] at hmem
        exact List.mem_singleton.mp hmem
      · rw [h.participant participant hp] at hmem
        cases hmem
    have hself : V.Recorded s.cache n := ⟨defaultGid, by rw [hn]; exact List.mem_singleton_self n⟩
    obtain ⟨names, hnames, n', hn', -, hof⟩ := hG.names_of_recorded isReader
      identityDemangle id ⟨n, hself, hnamed⟩ fun _ _ _ => rfl
    obtain rfl := hrecorded n' hn'
    refine ⟨some names, hnames, hof.nodup, fun name => ?_⟩
    rw [Option.getD_some, hof.mem_iff]
    have hlists := (h.exact isReader).2
    rw [recorded_of_eq hnamed hn] at hlists
    constructor
    · rintro ⟨-, gid, -, info, hinfo, hname⟩
      obtain ⟨x, hx, hreader, -, rfl⟩ := (h.announced.entities _ _ _).mp hinfo
      exact ⟨x, hx, hreader, hname⟩
    · rintro ⟨x, hx, hreader, rfl⟩
      exact ⟨mangledName_ne_nil (h.announced.kind x hx), x.entityGid,
        (hlists _).mpr ⟨x, hx, hreader, rfl⟩, entityInfo x,
        (h.announced.entities _ _ _).mpr ⟨x, hx, hreader, rfl, rfl⟩, rfl⟩

/-- The loops find the live entities of the topics, without the one that disconnects. -/
lemma Tracked.cachedGids (hG : G.Lawful V) (h : Tracked V node s) (hb : b.node = node)
    (isReader : Bool) {topics : NamesAndTypes} (htopics : (topics.map (·.1)).Nodup) :
    ∃ gids, cachedGids G b s.cache isReader topics = .ok gids ∧
      Lists gids s.live fun x => x.isReader = isReader ∧ mangledName x ∈ topics.map (·.1) ∧
        ¬ (b.disconnect = true ∧ b.entityGid = x.entityGid) := by
  choose endpoints hendpoints hof using fun topicName =>
    hG.endpoints_of_topic isReader topicName s.cache
  have hmapM := Transition.mapM_eq_ok (l := topics) fun topic _ => hendpoints topic.1
  -- every endpoint is a live entity of the node
  have hlive : ∀ topicName, ∀ e ∈ endpoints topicName, ∃ x ∈ s.live, x.isReader = isReader ∧
      x.entityGid = e.endpointGid ∧ mangledName x = topicName ∧
      (e.nodeName, e.nodeNamespace) = b.node := by
    intro topicName e he
    obtain ⟨info, hinfo, htopic⟩ := ((hof topicName).mem_iff _).mp (List.mem_map_of_mem he)
    obtain ⟨x, hx, hreader, hgid, rfl⟩ := (h.announced.entities _ _ _).mp hinfo
    obtain ⟨n, hn, hnamed, hlisted⟩ := h.exists_node hx
    rw [hreader, hgid] at hlisted
    have hmem : n ∈ V.nodes s.cache (entityInfo x).participantGid := by
      rw [entityInfo, hn]
      exact List.mem_singleton_self n
    obtain ⟨n', hn', -, hnamed'⟩ := (hof topicName).named e he _ hinfo ⟨n, hmem, hlisted⟩
    rw [entityInfo, hn, List.mem_singleton] at hn'
    subst hn'
    refine ⟨x, hx, hreader, hgid, htopic, ?_⟩
    rw [hb, ← hnamed'.1, ← hnamed'.2, hnamed.1, hnamed.2]
  have hfound : ∀ x ∈ s.live, x.isReader = isReader →
      ∃ e ∈ endpoints (mangledName x), e.endpointGid = x.entityGid := by
    intro x hx hreader
    refine List.mem_map.mp (((hof _).mem_iff _).mpr ⟨entityInfo x, ?_, rfl⟩)
    exact (h.announced.entities _ _ _).mpr ⟨x, hx, hreader, rfl, rfl⟩
  have hnodup :
      ((topics.map fun topic => endpoints topic.1).flatten.map (·.endpointGid)).Nodup := by
    have hflat : (topics.map fun topic => endpoints topic.1).flatten.map (·.endpointGid)
        = (topics.map (·.1)).flatMap fun name => (endpoints name).map (·.endpointGid) := by
      rw [List.map_flatten, List.map_map, List.flatMap_map]
      rfl
    rw [hflat, List.nodup_flatMap]
    refine ⟨fun name _ => (hof name).nodup, htopics.imp fun {name name'} hne gid hgid hgid' => ?_⟩
    -- an identifier has one topic
    obtain ⟨e, he, rfl⟩ := List.mem_map.mp hgid
    obtain ⟨e', he', heq⟩ := List.mem_map.mp hgid'
    obtain ⟨x, hx, -, hx', hname, -⟩ := hlive name e he
    obtain ⟨y, hy, -, hy', hname', -⟩ := hlive name' e' he'
    obtain rfl : x = y := h.announced.inj x hx y hy (by rw [hx', hy', heq])
    exact hne (hname.symm.trans hname')
  rw [Discovery.cachedGids, hmapM]
  refine ⟨_, rfl, (List.filter_sublist.map _).nodup hnodup, fun gid => ?_⟩
  simp only [List.mem_map, List.mem_filter, List.mem_flatten, decide_eq_true_eq]
  constructor
  · rintro ⟨e, ⟨⟨_, ⟨topic, htopic, rfl⟩, he⟩, -, hkept⟩, rfl⟩
    obtain ⟨x, hx, hreader, hgid, hname, -⟩ := hlive topic.1 e he
    exact ⟨x, hx, ⟨hreader, ⟨topic, htopic, hname.symm⟩, by rwa [hgid]⟩, hgid⟩
  · rintro ⟨x, hx, ⟨hreader, ⟨topic, htopic, hname⟩, hkept⟩, rfl⟩
    obtain ⟨e, he, hgid⟩ := hfound x hx hreader
    obtain ⟨-, -, -, -, -, hnode⟩ := hlive _ e he
    exact ⟨e, ⟨⟨_, ⟨topic, htopic, rfl⟩, by rwa [hname]⟩, hnode, by rwa [hgid]⟩, hgid⟩

/-- A publisher, a client or a service is live. -/
def HasWriter (s : Discovered Γ) : Prop := ∃ x ∈ s.live, x.isReader = false

lemma Lists.congr {gids : List Gid} {live : List Beacon} {P Q : Beacon → Prop}
    (h : Lists gids live P) (hiff : ∀ x ∈ live, P x ↔ Q x) : Lists gids live Q := by
  refine ⟨h.1, fun gid => (h.2 gid).trans (exists_congr fun x => and_congr_right fun hx => ?_)⟩
  rw [hiff x hx]

/-- The topics for the second loop: those of the readers, but while the node has a writer those
of the writers. -/
lemma Tracked.readerTopics (hG : G.Lawful V) (h : Tracked V node s) {written : Option NamesAndTypes}
    (hmem : ∀ name, name ∈ (written.getD []).map (·.1) ↔
      ∃ x ∈ s.live, x.isReader = false ∧ mangledName x = name) :
    ∃ written', G.getNamesAndTypesByNode true node.1 node.2 identityDemangle identityDemangle
        (written.getD []) s.cache = .ok written' ∧
      (((written.getD []).map (·.1)).Nodup →
        ((written'.getD (written.getD [])).map (·.1)).Nodup) ∧
      ∀ x ∈ s.live, x.isReader = true →
        (mangledName x ∈ (written'.getD (written.getD [])).map (·.1) ↔ ¬ HasWriter s) := by
  by_cases hwriter : HasWriter s
  · have hne : written.getD [] ≠ [] := by
      obtain ⟨x, hx, hreader⟩ := hwriter
      intro hnil
      have hname := (hmem (mangledName x)).mpr ⟨x, hx, hreader, rfl⟩
      rw [hnil] at hname
      cases hname
    refine ⟨none, hG.names_of_ne_nil _ _ _ _ _ _ hne, id, fun x hx hreader => ?_⟩
    rw [Option.getD_none, hmem, iff_false_right (not_not.mpr hwriter)]
    rintro ⟨y, hy, hreader', hname⟩
    have heq := isReader_eq_of_mangledName_eq (h.announced.kind y hy) (h.announced.kind x hx) hname
    rw [hreader, hreader'] at heq
    cases heq
  · have hnone : (written.getD []).map (·.1) = [] := by
      refine List.eq_nil_iff_forall_not_mem.mpr fun name hname => ?_
      obtain ⟨x, hx, hreader, -⟩ := (hmem name).mp hname
      exact hwriter ⟨x, hx, hreader⟩
    have hnil : written.getD [] = [] := List.map_eq_nil_iff.mp hnone
    obtain ⟨written', hwritten', hnodup, hmem'⟩ := h.getNamesAndTypesByNode hG true
    rw [hnil]
    refine ⟨written', hwritten', fun _ => hnodup, fun x hx hreader => ?_⟩
    rw [hmem', iff_true_right hwriter]
    exact ⟨x, hx, hreader, rfl⟩

/-- The lists of the message: the connecting entity, and those that the queries find. -/
lemma Tracked.rebuildNode (hG : G.Lawful V) (h : Tracked V node s) (hb : About node s b) :
    ∃ n, rebuildNode G b s.cache = .ok n ∧ n.Named b.nodeName b.nodeNamespace ∧
      ∀ isReader, ∃ gids,
        n.gidSeq isReader = (if b.disconnect = false ∧ b.isReader = isReader then [b.entityGid]
          else []) ++ gids ∧
        Lists gids s.live fun x => x.isReader = isReader ∧
          ¬ (b.disconnect = true ∧ b.entityGid = x.entityGid) ∧
          (isReader = true → ¬ HasWriter s) := by
  obtain ⟨n, hn, hnamed⟩ := rebuildNode_ok hG b s.cache
  refine ⟨n, hn, hnamed, ?_⟩
  obtain rfl := hb.node_eq
  obtain ⟨written, hwritten, hnodup, hmem⟩ := h.getNamesAndTypesByNode hG false
  obtain ⟨written', hwritten', hnodup', hmem'⟩ := h.readerTopics hG hmem
  obtain ⟨writers, hwriters, hlists⟩ := h.cachedGids hG rfl false hnodup
  obtain ⟨readers, hreaders, hlists'⟩ := h.cachedGids hG rfl true (hnodup' hnodup)
  have hseq : ∀ isReader, n.gidSeq isReader
      = (if b.disconnect = false ∧ b.isReader = isReader then [b.entityGid] else [])
        ++ if isReader = true then readers else writers := by
    intro isReader
    rw [Discovery.rebuildNode] at hn
    simp only [Beacon.node] at hwritten hwritten'
    simp only [hwritten, hwriters, hwritten', hreaders, bind, Except.bind, pure, Except.pure] at hn
    obtain rfl := Except.ok.inj hn
    simp only [gidSeq_pushGids]
    cases hdisconnect : b.disconnect <;> cases hreader : b.isReader <;> cases isReader <;>
      simp [NodeEntitiesInfo.pushGids, NodeEntitiesInfo.gidSeq]
  intro isReader
  cases isReader with
  | false =>
    refine ⟨writers, hseq false, hlists.congr fun x hx => and_congr_right fun hreader => ?_⟩
    rw [and_iff_right ((hmem _).mpr ⟨x, hx, hreader, rfl⟩)]
    simp
  | true =>
    refine ⟨readers, hseq true, hlists'.congr fun x hx => and_congr_right fun hreader => ?_⟩
    rw [hmem' x hx hreader, and_comm]
    simp

/-- A connecting entity is not found a second time by the queries, and they do not miss a live
reader that is not the beacon's own entity. -/
def Undisturbed (s : Discovered Γ) (b : Beacon) : Prop :=
  (b.disconnect = false → b ∈ s.live → b.isReader = true ∧ HasWriter s) ∧
    (HasWriter s → ∀ x ∈ s.live, x.isReader = true → x.entityGid = b.entityGid)

/-- The lists after a step: the connecting entity, and those that the queries find. -/
lemma Tracked.recorded_step (hG : G.Lawful V) (hR : G.Replaces V) (h : Tracked V node s)
    (hb : About node s b) (hstep : Discovery.step G s b = .ok t) (isReader : Bool) :
    ∃ gids, recorded V t.cache node isReader
        = (if b.disconnect = false ∧ b.isReader = isReader then [b.entityGid] else []) ++ gids ∧
      Lists gids s.live fun x => x.isReader = isReader ∧
        ¬ (b.disconnect = true ∧ b.entityGid = x.entityGid) ∧
        (isReader = true → ¬ HasWriter s) := by
  obtain ⟨n, hn, hnamed, hseq⟩ := h.rebuildNode hG hb
  obtain rfl := Except.ok.inj (hstep.symm.trans (step_of_rebuildNode hn))
  obtain ⟨gids, hgids, hlists⟩ := hseq isReader
  refine ⟨gids, ?_, hlists⟩
  obtain rfl := hb.node_eq
  rw [← hgids]
  refine recorded_of_eq hnamed ?_ isReader
  rw [nodes_register hG hR, Function.update_self]

/-- Exact lists after a step come from a beacon that is undisturbed. -/
lemma Tracked.undisturbed (hG : G.Lawful V) (hR : G.Replaces V) (h : Tracked V node s)
    (hb : About node s b) (hstep : Discovery.step G s b = .ok t) (hexact : Exact V node t) :
    Undisturbed s b := by
  obtain ⟨c, -, ht⟩ := Transition.bind_eq_ok.mp hstep
  obtain rfl := Except.ok.inj ht
  refine ⟨fun hconnect hlive => ?_, fun hwriter x hx hreader => ?_⟩
  · obtain ⟨gids, hgids, hlists⟩ := h.recorded_step hG hR hb hstep b.isReader
    have hnodup := (hexact b.isReader).1
    rw [hgids, if_pos ⟨hconnect, rfl⟩] at hnodup
    -- otherwise the queries find the entity as well
    by_contra hfound
    refine (List.nodup_cons.mp hnodup).1 ((hlists.2 _).mpr ⟨b, hlive, ⟨rfl, ?_, ?_⟩, rfl⟩)
    · simp [hconnect]
    · exact fun hreader hwriter => hfound ⟨hreader, hwriter⟩
  · by_contra hne
    obtain ⟨gids, hgids, hlists⟩ := h.recorded_step hG hR hb hstep true
    have hmem := ((hexact true).2 _).mpr ⟨x, mem_announce_of_gid_ne hx hne, hreader, rfl⟩
    rw [hgids, List.mem_append] at hmem
    rcases hmem with hown | hfound
    · split_ifs at hown
      · exact hne (List.mem_singleton.mp hown)
      · cases hown
    · obtain ⟨y, -, ⟨-, -, hnone⟩, -⟩ := (hlists.2 _).mp hfound
      exact hnone rfl hwriter

/-- An undisturbed beacon leads to exact lists. -/
lemma Tracked.exact_step (hG : G.Lawful V) (hR : G.Replaces V) (h : Tracked V node s)
    (hb : About node s b) (hundisturbed : Undisturbed s b)
    (hstep : Discovery.step G s b = .ok t) : Exact V node t := by
  intro isReader
  obtain ⟨hrepeat, hmissed⟩ := hundisturbed
  obtain ⟨gids, hgids, hnodup, hmem⟩ := h.recorded_step hG hR hb hstep isReader
  obtain ⟨c, -, ht⟩ := Transition.bind_eq_ok.mp hstep
  obtain rfl := Except.ok.inj ht
  rw [hgids]
  refine ⟨List.nodup_append'.mpr ⟨?_, hnodup, ?_⟩, fun gid => ?_⟩
  · split_ifs
    · exact List.nodup_singleton _
    · exact List.nodup_nil
  · intro gid hown hfound
    split_ifs at hown with hconnect
    · obtain rfl := List.mem_singleton.mp hown
      obtain ⟨x, hx, ⟨-, -, hnone⟩, hgid⟩ := (hmem _).mp hfound
      obtain rfl := hb.announcement_eq x hx hgid hconnect.1
      obtain ⟨hreader, hwriter⟩ := hrepeat hconnect.1 hx
      exact hnone (hconnect.2.symm.trans hreader) hwriter
    · cases hown
  · rw [List.mem_append, hmem]
    constructor
    · rintro (hown | ⟨x, hx, ⟨hreader, hkept, -⟩, rfl⟩)
      · split_ifs at hown with hconnect
        · obtain rfl := List.mem_singleton.mp hown
          refine ⟨b, mem_announce_iff.mpr ?_, hconnect.2, rfl⟩
          rw [if_neg (by simp [hconnect.1])]
          exact Or.inl rfl
        · cases hown
      · refine ⟨x, mem_announce_iff.mpr ?_, hreader, rfl⟩
        split_ifs with hdisconnect
        · exact ⟨hx, fun hsame => hkept ⟨hdisconnect, hsame.2.2.symm⟩⟩
        · exact Or.inr hx
    · rintro ⟨x, hx, hreader, rfl⟩
      by_cases hgid : x.entityGid = b.entityGid
      · obtain ⟨rfl, hconnect⟩ := h.announced.eq_of_mem_announce hb hx hgid
        rw [if_pos ⟨hconnect, hreader⟩]
        exact Or.inl (List.mem_singleton_self _)
      · have hx : x ∈ s.live := (mem_announce hx).resolve_left fun heq => hgid (by rw [heq])
        exact Or.inr ⟨x, hx, ⟨hreader, fun hd => hgid hd.2.symm,
          fun hr hwriter => hgid (hmissed hwriter x hx (hreader.trans hr))⟩, rfl⟩

/-- From exact lists, a step leads to exact lists if and only if the beacon is undisturbed. -/
lemma Tracked.exact_iff (hG : G.Lawful V) (hR : G.Replaces V) (h : Tracked V node s)
    (hb : About node s b) (hstep : Discovery.step G s b = .ok t) :
    Exact V node t ↔ Undisturbed s b :=
  ⟨h.undisturbed hG hR hb hstep, fun hundisturbed => h.exact_step hG hR hb hundisturbed hstep⟩

/-- The step of the invariant. -/
lemma Tracked.step (hG : G.Lawful V) (hR : G.Replaces V) (h : Tracked V node s)
    (hb : About node s b) (hundisturbed : Undisturbed s b) (hstep : Discovery.step G s b = .ok t) :
    Tracked V node t := by
  obtain ⟨t', n, ht', -, hnamed, hnodes⟩ := step_ok hG hR s b
  obtain rfl := Except.ok.inj (hstep.symm.trans ht')
  refine ⟨h.announced.step hG hb hstep, h.participant.step hG hR hstep, Or.inr ⟨n, ?_, ?_⟩,
    (h.exact_iff hG hR hb hstep).mpr hundisturbed⟩
  · rw [hnodes, Function.update_self]
  · rw [← hb.node_eq]
    exact hnamed

lemma tracked_initial (hG : G.Lawful V) : Tracked V node (initial G) where
  announced := announced_initial hG
  participant := oneParticipant_initial hG
  nodes := Or.inl (by rw [initial, hG.nodes_addParticipant, hG.nodes_empty])
  exact := by
    intro isReader
    rw [recorded, initial, hG.nodes_addParticipant, hG.nodes_empty]
    refine ⟨List.nodup_nil, fun gid => ⟨fun h => absurd h List.not_mem_nil, ?_⟩⟩
    rintro ⟨x, hx, -⟩
    cases hx

/-- The live entities were announced by the beacons. -/
def LiveIn (beacons : List Beacon) (s : Discovered Γ) : Prop :=
  ∀ x ∈ s.live, x ∈ beacons ∧ x.disconnect = false

lemma liveIn_initial {beacons : List Beacon} : LiveIn beacons (initial G) := by
  rintro x ⟨⟩

lemma LiveIn.step {beacons : List Beacon} (h : LiveIn beacons s) (hb : b ∈ beacons)
    (hstep : Discovery.step G s b = .ok t) : LiveIn beacons t := by
  obtain ⟨c, -, ht⟩ := Transition.bind_eq_ok.mp hstep
  obtain rfl := Except.ok.inj ht
  intro x hx
  rw [mem_announce_iff] at hx
  split_ifs at hx with hdisconnect
  · exact h x hx.1
  · rcases hx with rfl | hx
    · exact ⟨hb, Bool.eq_false_iff.mpr hdisconnect⟩
    · exact h x hx

lemma WellFormed.about {beacons : List Beacon} (h : WellFormed node beacons)
    (hlive : LiveIn beacons s) (hb : b ∈ beacons) : About node s b where
  node_eq := h.node_eq b hb
  kind := h.kind b hb
  entityType_eq := fun x hx => h.entityType_eq b hb x (hlive x hx).1
  announcement_eq := fun x hx hgid => h.announcement_eq b hb x (hlive x hx).1 hgid (hlive x hx).2

/-- The steps of a run over well-formed beacons. -/
lemma WellFormed.everyStep {beacons : List Beacon} (h : WellFormed node beacons) :
    Transition.EveryStep (Discovery.step G) (About node) (initial G) beacons :=
  Transition.everyStep_of_invariant (I := LiveIn beacons) (D := fun _ b => b ∈ beacons)
    LiveIn.step h.about liveIn_initial (Transition.everyStep_of_forall fun _ hb _ => hb)

/-- After a run over well-formed beacons, the entities of the cache are the live ones, and the
beacons announced them. -/
lemma WellFormed.run {beacons : List Beacon} (h : WellFormed node beacons) (hG : G.Lawful V)
    (hrun : Transition.run (Discovery.step G) (initial G) beacons = .ok s) :
    Announced V node s ∧ LiveIn beacons s := by
  constructor
  · exact Transition.run_invariant (fun hs hb ht => hs.step hG hb ht) (announced_initial hG)
      h.everyStep hrun
  · exact Transition.run_invariant (P := fun _ b => b ∈ beacons) LiveIn.step liveIn_initial
      (Transition.everyStep_of_forall fun _ hb _ => hb) hrun

/-- **One node.** In a run over beacons about the entities of one node, the lists of the node hold
exactly the live entities, once each, after every beacon, if and only if no beacon is
disturbed. -/
theorem one_node_tracked_iff (hG : G.Lawful V) (hR : G.Replaces V) {beacons : List Beacon}
    (h : WellFormed node beacons) :
    Transition.EveryStep (Discovery.step G)
        (fun s b => ∀ t, Discovery.step G s b = .ok t → Exact V node t) (initial G) beacons
      ↔ Transition.EveryStep (Discovery.step G) Undisturbed (initial G) beacons := by
  refine Transition.everyStep_iff (I := Tracked V node) (D := About node)
    (fun hs hb hundisturbed ht => hs.step hG hR hb hundisturbed ht) (fun {s b} hs hb => ?_)
    (tracked_initial hG) h.everyStep
  obtain ⟨t, n, ht, -⟩ := step_ok hG hR s b
  rw [← hs.exact_iff hG hR hb ht]
  constructor
  · exact fun hexact => hexact t ht
  · intro hexact t' ht'
    obtain rfl := Except.ok.inj (ht.symm.trans ht')
    exact hexact

end

/-- A subscriber and a publisher, in this order. -/
theorem one_node_tracked_pair :
    Transition.EveryStep (step mapCache)
      (fun s b => ∀ t, step mapCache s b = .ok t →
        Exact MapCache.contents ([0x61], [0x2F]) t) (initial mapCache)
      [sampleBeacon 0x61 1 2, sampleBeacon 0x61 0 1] := by
  have hwf : WellFormed ([0x61], [0x2F]) [sampleBeacon 0x61 1 2, sampleBeacon 0x61 0 1] :=
    ⟨by decide, List.forall_mem_cons.mpr ⟨⟨.subscriber, rfl⟩,
      List.forall_mem_singleton.mpr ⟨.publisher, rfl⟩⟩, by decide, by decide⟩
  refine (one_node_tracked_iff mapCache_lawful mapCache_replaces hwf).mpr
    ⟨⟨fun _ => nofun, ?_⟩, fun t ht => ⟨⟨?_, ?_⟩, fun _ _ => trivial⟩⟩
  · rintro ⟨x, hx, -⟩
    cases hx
  · intro _ hlive
    obtain ⟨t', n, ht', hlive', -⟩ :=
      step_ok mapCache_lawful mapCache_replaces (initial mapCache) (sampleBeacon 0x61 1 2)
    obtain rfl := Except.ok.inj (ht.symm.trans ht')
    rw [hlive'] at hlive
    exact absurd hlive (by decide)
  · rintro ⟨x, hx, hreader⟩
    obtain ⟨t', n, ht', hlive', -⟩ :=
      step_ok mapCache_lawful mapCache_replaces (initial mapCache) (sampleBeacon 0x61 1 2)
    obtain rfl := Except.ok.inj (ht.symm.trans ht')
    rw [hlive'] at hx
    obtain rfl : x = sampleBeacon 0x61 1 2 := List.mem_singleton.mp hx
    cases hreader

/-- While the node has a publisher, a second subscriber takes the place of the first one; and a
repeated publisher is listed twice. -/
theorem one_node_not_tracked :
    (∃ t, Transition.run (step mapCache) (initial mapCache)
        [sampleBeacon 0x61 0 1, sampleBeacon 0x61 1 2, sampleBeacon 0x61 1 3] = .ok t ∧
      sampleBeacon 0x61 1 2 ∈ t.live ∧
      recorded MapCache.contents t.cache ([0x61], [0x2F]) true
        = [.replicate rmwGidStorageSize 3] ∧
      ¬ Exact MapCache.contents ([0x61], [0x2F]) t) ∧
    ∃ t, Transition.run (step mapCache) (initial mapCache)
        [sampleBeacon 0x61 0 1, sampleBeacon 0x61 0 1] = .ok t ∧
      recorded MapCache.contents t.cache ([0x61], [0x2F]) false
        = [.replicate rmwGidStorageSize 1, .replicate rmwGidStorageSize 1] ∧
      ¬ Exact MapCache.contents ([0x61], [0x2F]) t := by
  obtain ⟨t, ht, hlive, hrecorded⟩ : ∃ t, Transition.run (step mapCache) (initial mapCache)
      [sampleBeacon 0x61 0 1, sampleBeacon 0x61 1 2, sampleBeacon 0x61 1 3] = .ok t ∧
      sampleBeacon 0x61 1 2 ∈ t.live ∧
      recorded MapCache.contents t.cache ([0x61], [0x2F]) true
        = [.replicate rmwGidStorageSize 3] := ⟨_, rfl, by decide, rfl⟩
  obtain ⟨u, hu, hrecorded'⟩ : ∃ u, Transition.run (step mapCache) (initial mapCache)
      [sampleBeacon 0x61 0 1, sampleBeacon 0x61 0 1] = .ok u ∧
      recorded MapCache.contents u.cache ([0x61], [0x2F]) false
        = [.replicate rmwGidStorageSize 1, .replicate rmwGidStorageSize 1] := ⟨_, rfl, rfl⟩
  refine ⟨⟨t, ht, hlive, hrecorded, fun hexact => ?_⟩, u, hu, hrecorded', fun hexact => ?_⟩
  · have hmem := ((hexact true).2 _).mpr ⟨_, hlive, rfl, rfl⟩
    rw [hrecorded] at hmem
    exact absurd hmem (by decide)
  · have hnodup := (hexact false).1
    rw [hrecorded'] at hnodup
    exact absurd hnodup (by decide)

end Discovery
end RmwDesert
