/-
What a process announces (`DesertNode.cpp`, `rmw.cpp`).

The beacons that a process sends announce an entity, announce it again, or say that it
disconnects (`Announces`).  A process that creates and destroys entities through `rmw.cpp`
sends such beacons, and no other packets, under `/discovery` (`Inv.step`): in any state, the
entities whose last beacon announces them are those that live and whose name is configured.
-/
import RmwDesert.Discovery.Convergence
import RmwDesert.Registries

namespace RmwDesert

open Discovery

/-! ## Announcements -/

/-- Beacons that were sent, and the announcements of the entities that live, by their pointers. -/
inductive Announces : (ℕ → Option Beacon) → List Beacon → Prop
  /-- No entity was created. -/
  | nil : Announces (fun _ => none) []
  /-- An entity with a new identifier is announced. -/
  | connect {live : ℕ → Option Beacon} {log : List Beacon} (h : Announces live log) {pointer : ℕ}
      {x : Beacon} (hfree : live pointer = none) (hkind : HasKind x)
      (hconnect : x.disconnect = false) (htopic : x.topicName.head? = some 0x2F)
      (hgid : ∀ b ∈ log, b.entityGid ≠ x.entityGid) :
      Announces (Function.update live pointer (some x)) (log ++ [x])
  /-- A live entity is announced again. -/
  | renew {live : ℕ → Option Beacon} {log : List Beacon} (h : Announces live log) {pointer : ℕ}
      {x : Beacon} (hx : live pointer = some x) : Announces live (log ++ [x])
  /-- A live entity disconnects. -/
  | disconnect {live : ℕ → Option Beacon} {log : List Beacon} (h : Announces live log)
      {pointer : ℕ} {x y : Beacon} (hx : live pointer = some x) (hdisconnect : y.disconnect = true)
      (hgid : y.entityGid = x.entityGid) (htype : y.entityType = x.entityType) :
      Announces (Function.update live pointer none) (log ++ [y])

lemma update_eq_some {live : ℕ → Option Beacon} {pointer q : ℕ} {x? : Option Beacon}
    {y : Beacon} : Function.update live pointer x? q = some y ↔
      q = pointer ∧ x? = some y ∨ q ≠ pointer ∧ live q = some y := by
  by_cases hq : q = pointer
  · subst hq
    simp
  · simp [hq]

namespace Announces

variable {live : ℕ → Option Beacon} {log : List Beacon}

/-- The last beacon about a live entity announces it, no two live entities have the same
identifier, and the last beacon about any other entity does not announce it. -/
lemma spec (h : Announces live log) :
    (∀ {pointer x}, live pointer = some x →
      Merge.lastWith Beacon.entityGid x.entityGid log = some x ∧ x.disconnect = false) ∧
    (∀ {pointer pointer' x x'}, live pointer = some x → live pointer' = some x' →
      x.entityGid = x'.entityGid → pointer = pointer') ∧
    ∀ {x}, Live log x → ∃ pointer, live pointer = some x := by
  induction h with
  | nil => exact ⟨nofun, nofun, fun hx => absurd hx.mem List.not_mem_nil⟩
  | @connect live log h pointer x hfree hkind hconnect htopic hgid ih =>
    obtain ⟨hlast, hinj, hlive⟩ := ih
    have hne : ∀ {q y}, live q = some y → y.entityGid ≠ x.entityGid :=
      fun hy => hgid _ (Merge.mem_of_lastWith (hlast hy).1).1
    refine ⟨fun {q y} hy => ?_, fun {q q' y y'} hy hy' hsame => ?_, fun {y} hy => ?_⟩
    · rw [Merge.lastWith_concat]
      rcases update_eq_some.mp hy with ⟨-, ⟨⟩⟩ | ⟨-, hy⟩
      · exact ⟨if_pos rfl, hconnect⟩
      · rw [if_neg (hne hy).symm]
        exact hlast hy
    · rcases update_eq_some.mp hy with ⟨hq, ⟨⟩⟩ | ⟨-, hold⟩ <;>
        rcases update_eq_some.mp hy' with ⟨hq', ⟨⟩⟩ | ⟨-, hold'⟩
      · exact hq.trans hq'.symm
      · exact absurd hsame.symm (hne hold')
      · exact absurd hsame (hne hold)
      · exact hinj hold hold' hsame
    · obtain ⟨hy, hyconnect⟩ := hy
      rw [Merge.lastWith_concat] at hy
      split_ifs at hy with hsame
      · exact ⟨pointer, update_eq_some.mpr (Or.inl ⟨rfl, hy⟩)⟩
      · obtain ⟨q, hq⟩ := hlive ⟨hy, hyconnect⟩
        refine ⟨q, update_eq_some.mpr (Or.inr ⟨?_, hq⟩)⟩
        rintro rfl
        rw [hfree] at hq
        cases hq
  | @renew live log h pointer x hx ih =>
    obtain ⟨hlast, hinj, hlive⟩ := ih
    refine ⟨fun {q y} hy => ?_, hinj, fun {y} hy => ?_⟩
    · rw [Merge.lastWith_concat]
      split_ifs with hsame
      · obtain rfl := hinj hx hy hsame
        exact ⟨hx.symm.trans hy, (hlast hy).2⟩
      · exact hlast hy
    · obtain ⟨hy, hyconnect⟩ := hy
      rw [Merge.lastWith_concat] at hy
      split_ifs at hy with hsame
      · exact ⟨pointer, hx.trans hy⟩
      · exact hlive ⟨hy, hyconnect⟩
  | @disconnect live log h pointer x y hx hdisconnect hgid htype ih =>
    obtain ⟨hlast, hinj, hlive⟩ := ih
    refine ⟨fun {q z} hz => ?_, fun {q q' z z'} hz hz' hsame => ?_, fun {z} hz => ?_⟩
    · rcases update_eq_some.mp hz with ⟨-, ⟨⟩⟩ | ⟨hq, hz⟩
      rw [Merge.lastWith_concat, if_neg fun hsame => hq (hinj hz hx (hsame.symm.trans hgid))]
      exact hlast hz
    · rcases update_eq_some.mp hz with ⟨-, ⟨⟩⟩ | ⟨-, hz⟩
      rcases update_eq_some.mp hz' with ⟨-, ⟨⟩⟩ | ⟨-, hz'⟩
      exact hinj hz hz' hsame
    · obtain ⟨hz, hzconnect⟩ := hz
      rw [Merge.lastWith_concat] at hz
      split_ifs at hz with hsame
      · obtain rfl := Option.some.inj hz
        rw [hdisconnect] at hzconnect
        cases hzconnect
      · obtain ⟨q, hq⟩ := hlive ⟨hz, hzconnect⟩
        refine ⟨q, update_eq_some.mpr (Or.inr ⟨?_, hq⟩)⟩
        rintro rfl
        obtain rfl := Option.some.inj (hx.symm.trans hq)
        exact hsame hgid

lemma live_iff (h : Announces live log) (x : Beacon) :
    Live log x ↔ ∃ pointer, live pointer = some x :=
  ⟨h.spec.2.2, fun ⟨_, hx⟩ => h.spec.1 hx⟩

/-- One more beacon about an entity that an earlier beacon announced, or the first one about a
new entity. -/
lemma consistent_concat (h : Consistent log) {y : Beacon} (hkind : HasKind y)
    (htopic : y.disconnect = false → y.topicName.head? = some 0x2F)
    (hold : ∀ b ∈ log, b.entityGid = y.entityGid → b.entityType = y.entityType ∧
      (b.disconnect = false → y.disconnect = false → b = y)) : Consistent (log ++ [y]) := by
  refine ⟨fun b hb => ?_, fun b hb x hx hgid => ?_, fun b hb x hx hgid hx' hb' => ?_,
    fun b hb => ?_⟩
  · rcases List.mem_append.mp hb with hb | hb
    · exact h.kind b hb
    · rwa [List.mem_singleton.mp hb]
  · rcases List.mem_append.mp hb with hb | hb <;> rcases List.mem_append.mp hx with hx | hx
    · exact h.entityType_eq b hb x hx hgid
    · rw [List.mem_singleton.mp hx] at hgid ⊢
      exact (hold b hb hgid.symm).1.symm
    · rw [List.mem_singleton.mp hb] at hgid ⊢
      exact (hold x hx hgid).1
    · rw [List.mem_singleton.mp hb, List.mem_singleton.mp hx]
  · rcases List.mem_append.mp hb with hb | hb <;> rcases List.mem_append.mp hx with hx | hx
    · exact h.announcement_eq b hb x hx hgid hx' hb'
    · rw [List.mem_singleton.mp hx] at hgid hx' ⊢
      exact ((hold b hb hgid.symm).2 hb' hx').symm
    · rw [List.mem_singleton.mp hb] at hgid hb' ⊢
      exact (hold x hx hgid).2 hx' hb'
    · rw [List.mem_singleton.mp hb, List.mem_singleton.mp hx]
  · rcases List.mem_append.mp hb with hb | hb
    · exact h.topic b hb
    · rwa [List.mem_singleton.mp hb]

lemma consistent (h : Announces live log) : Consistent log := by
  induction h with
  | nil => exact ⟨nofun, nofun, nofun, nofun⟩
  | connect h hfree hkind hconnect htopic hgid ih =>
    exact consistent_concat ih hkind (fun _ => htopic) fun b hb hsame => absurd hsame (hgid b hb)
  | @renew live log h pointer x hx ih =>
    obtain ⟨hlast, hconnect⟩ := h.spec.1 hx
    have hmem := (Merge.mem_of_lastWith hlast).1
    exact consistent_concat ih (ih.kind x hmem) (ih.topic x hmem) fun b hb hsame =>
      ⟨ih.entityType_eq x hmem b hb hsame, ih.announcement_eq x hmem b hb hsame⟩
  | @disconnect live log h pointer x y hx hdisconnect hgid htype ih =>
    obtain ⟨hlast, -⟩ := h.spec.1 hx
    have hmem := (Merge.mem_of_lastWith hlast).1
    have hnot : ¬ y.disconnect = false := by
      rw [hdisconnect]
      exact Bool.noConfusion
    refine consistent_concat ih ?_ (fun hconnect => absurd hconnect hnot) fun b hb hsame =>
      ⟨(ih.entityType_eq x hmem b hb (hsame.trans hgid)).trans htype.symm,
        fun _ hconnect => absurd hconnect hnot⟩
    obtain ⟨kind, hkind⟩ := ih.kind x hmem
    exact ⟨kind, htype.trans hkind⟩

end Announces

/-! ## The beacons of a process -/

namespace DesertNode

instance (nd : DesertNode) : Decidable nd.Requested := inferInstanceAs (Decidable (_ ∨ _))

/-- The announcements of the entities that a node lists, as `publish_all_beacons` sends them. -/
def round (entities : ℕ → Option Entity) (nd : DesertNode) : List Beacon :=
  [EntityKind.publisher, .subscriber, .client, .service].flatMap fun kind =>
    (nd.pointers kind).filterMap fun pointer => (entities pointer).map (nd.announcement kind)

lemma mem_round {entities : ℕ → Option Entity} {nd : DesertNode} {x : Beacon} :
    x ∈ nd.round entities ↔ ∃ kind, ∃ pointer ∈ nd.pointers kind, ∃ e,
      entities pointer = some e ∧ nd.announcement kind e = x := by
  rw [round, List.mem_flatMap]
  simp only [List.mem_filterMap, Option.map_eq_some_iff]
  refine exists_congr fun kind => and_iff_right ?_
  cases kind <;> decide

/-- What the beacons of a node say about it. -/
def identity (nd : DesertNode) : List UInt8 × List UInt8 := (nd.name, nd.namespace_)

/-- Without a dangling pointer, the packets of the round are those of the announcements. -/
lemma publishAllBeacons_eq {N : NanoCbor} {entities : ℕ → Option Entity} {nd : DesertNode}
    {packets : List (Option Packet)} (h : nd.publishAllBeacons N entities = .ok packets) :
    packets = (nd.round entities).map
      (Discovery.sendDiscoveryBeacon N nd.discoveryBeaconDataStream) := by
  have hkind : ∀ {kind packets}, nd.publishBeacons N entities kind = .ok packets →
      packets = ((nd.pointers kind).filterMap fun pointer =>
        (entities pointer).map (nd.announcement kind)).map
          (Discovery.sendDiscoveryBeacon N nd.discoveryBeaconDataStream) := by
    intro kind packets h
    rw [publishBeacons] at h
    generalize nd.pointers kind = pointers at h ⊢
    induction pointers generalizing packets with
    | nil =>
      obtain rfl := Except.ok.inj h
      rfl
    | cons pointer pointers ih =>
      rw [List.mapM_cons] at h
      obtain ⟨packet, hpacket, h⟩ := Transition.bind_eq_ok.mp h
      obtain ⟨rest, hrest, h⟩ := Transition.bind_eq_ok.mp h
      obtain rfl := Except.ok.inj h
      cases he : entities pointer with
      | none =>
        rw [he] at hpacket
        cases hpacket
      | some e =>
        rw [he] at hpacket
        obtain rfl := Except.ok.inj hpacket
        simp only [List.filterMap_cons, he, Option.map_some, List.map_cons, ih hrest]
  obtain ⟨publishers, hpublishers, h⟩ := Transition.bind_eq_ok.mp h
  obtain ⟨subscribers, hsubscribers, h⟩ := Transition.bind_eq_ok.mp h
  obtain ⟨clients, hclients, h⟩ := Transition.bind_eq_ok.mp h
  obtain ⟨services, hservices, h⟩ := Transition.bind_eq_ok.mp h
  obtain rfl := Except.ok.inj h
  rw [hkind hpublishers, hkind hsubscribers, hkind hclients, hkind hservices]
  simp only [round, List.flatMap_cons, List.flatMap_nil, List.map_append, List.append_assoc,
    List.append_nil]

end DesertNode

/-- What the beacons of an entity say about it. -/
def Entity.identity (e : Entity) : String × Gid × List UInt8 × List UInt8 × EntityKind :=
  (e.name, e.gid, e.messageNamespace, e.messageName, e.endpoint.kind)

namespace Middleware

/-- The beacons that an operation sends, with both names of discovery configured. -/
def beacons (config : TopicsConfig) (s : Middleware) : Event → List Beacon
  | .create kind node _ name gid messageNamespace messageName language sequenceId =>
    if name = "/discovery" ∨ name = "/discovery_request" ∨
        config.getTopicIdentifier name = 0 then []
    else
      (s.nodes node).toList.map fun nd => nd.announcement kind
        ⟨name, gid, messageNamespace, messageName, .create config name language sequenceId kind⟩
  | .destroy kind node pointer =>
    match s.nodes node, s.entities pointer with
    | some nd, some e =>
      if config.getTopicIdentifier e.name = 0 then [] else [nd.beacon kind e.gid [] [] true]
    | _, _ => []
  | .discoveryRequest node =>
    (s.nodes node).toList.flatMap fun nd => if nd.Requested then nd.round s.entities else []
  | _ => []

/-- The announcements of the configured entities that live, by their pointers, if the entities
belong to these nodes. -/
def liveEntities (config : TopicsConfig) (owner : ℕ → ℕ) (s : Middleware) (pointer : ℕ) :
    Option Beacon :=
  (s.entities pointer).bind fun e => (s.nodes (owner pointer)).bind fun nd =>
    if config.getTopicIdentifier e.name = 0 then none
    else some (nd.announcement e.endpoint.kind e)

/-- The entities of a node. -/
def owned (owner : ℕ → ℕ) (node : ℕ) (entities : ℕ → Option Entity) (pointer : ℕ) :
    Option Entity :=
  if owner pointer = node then entities pointer else none

/-- The registries of all nodes are right, and the beacons that were sent are those of the
entities that live. -/
structure Announcing (config : TopicsConfig) (owner : ℕ → ℕ) (s : Middleware)
    (log : List Beacon) : Prop where
  named : Inv config s
  registered : ∀ {node nd}, s.nodes node = some nd →
    Registered config (owned owner node s.entities) nd.pointers
  exists_node : ∀ {pointer e}, s.entities pointer = some e →
    config.getTopicIdentifier e.name ≠ 0 → ∃ nd, s.nodes (owner pointer) = some nd
  unreserved : ∀ {pointer e}, s.entities pointer = some e → e.name ≠ "/discovery"
  announces : Announces (liveEntities config owner s) log

/-! ### What keeps the registries -/

variable {config : TopicsConfig} {owner : ℕ → ℕ} {s t : Middleware} {log : List Beacon}

lemma map_eq_map {α β : Type} {f : α → β} {x y : Option α} (h : x.map f = y.map f) :
    (x = none ∧ y = none) ∨ ∃ a b, x = some a ∧ y = some b ∧ f a = f b := by
  cases x with
  | none =>
    cases y with
    | none => exact Or.inl ⟨rfl, rfl⟩
    | some b => cases h
  | some a =>
    cases y with
    | none => cases h
    | some b => exact Or.inr ⟨a, b, rfl, rfl, Option.some.inj h⟩

/-- What is announced depends on the names, the identifier and the kind only. -/
lemma liveEntities_congr {owner' : ℕ → ℕ} {pointer : ℕ}
    (hentity : (t.entities pointer).map Entity.identity
      = (s.entities pointer).map Entity.identity)
    (hnode : (t.nodes (owner' pointer)).map DesertNode.identity
      = (s.nodes (owner pointer)).map DesertNode.identity) :
    liveEntities config owner' t pointer = liveEntities config owner s pointer := by
  rw [liveEntities, liveEntities]
  rcases map_eq_map hentity with ⟨ht, hs⟩ | ⟨e, e', ht, hs, he⟩
  · rw [ht, hs]
    rfl
  · rcases map_eq_map hnode with ⟨ht', hs'⟩ | ⟨nd, nd', ht', hs', hnd⟩
    · rw [ht, hs, ht', hs']
      rfl
    · rw [ht, hs, ht', hs']
      simp only [Entity.identity, Prod.mk.injEq] at he
      simp only [DesertNode.identity, Prod.mk.injEq] at hnd
      obtain ⟨hname, hgid, hnamespace, hmessage, hkind⟩ := he
      simp only [Option.bind_some, DesertNode.announcement, DesertNode.beacon, Entity.getTypeName,
        hname, hgid, hnamespace, hmessage, hkind, hnd.1, hnd.2]

lemma Registered.congr {entities entities' : ℕ → Option Entity} {pointers : EntityKind → List ℕ}
    (h : Registered config entities pointers)
    (hentities : ∀ pointer, (entities' pointer).map Entity.identity
      = (entities pointer).map Entity.identity) : Registered config entities' pointers := by
  refine ⟨h.nodup, fun kind pointer => ?_⟩
  rw [h.mem_iff]
  rcases map_eq_map (hentities pointer) with ⟨h', h⟩ | ⟨e', e, h', h, he⟩
  · rw [h', h]
  · simp only [Entity.identity, Prod.mk.injEq] at he
    simp only [h', h, Option.mem_def, Option.some.injEq, exists_eq_left', he.1, he.2.2.2.2]

/-- An operation that leaves the names, the identifiers and the lists as they are. -/
lemma Announcing.congr (h : Announcing config owner s log) (ht : Inv config t)
    (hnodes : ∀ node, (t.nodes node).map (fun nd => (nd.identity, nd.pointers))
      = (s.nodes node).map fun nd => (nd.identity, nd.pointers))
    (hentities : ∀ pointer, (t.entities pointer).map Entity.identity
      = (s.entities pointer).map Entity.identity) : Announcing config owner t log where
  named := ht
  registered := by
    intro node nd hnd
    rcases map_eq_map (hnodes node) with ⟨hnone, -⟩ | ⟨nd', nd₀, hnd', hnd₀, heq⟩
    · rw [hnone] at hnd
      cases hnd
    · obtain rfl := Option.some.inj (hnd'.symm.trans hnd)
      rw [(Prod.mk.inj heq).2]
      refine (h.registered hnd₀).congr fun pointer => ?_
      rw [owned, owned]
      split_ifs
      · exact hentities pointer
      · rfl
  exists_node := by
    intro pointer e he hname
    rcases map_eq_map (hentities pointer) with ⟨hnone, -⟩ | ⟨e', e₀, he', he₀, heq⟩
    · rw [hnone] at he
      cases he
    · obtain rfl := Option.some.inj (he'.symm.trans he)
      simp only [Entity.identity, Prod.mk.injEq] at heq
      rw [heq.1] at hname
      obtain ⟨nd, hnd⟩ := h.exists_node he₀ hname
      rcases map_eq_map (hnodes (owner pointer)) with ⟨-, hnone⟩ | ⟨nd', -, hnd', -, -⟩
      · rw [hnone] at hnd
        cases hnd
      · exact ⟨nd', hnd'⟩
  unreserved := by
    intro pointer e he
    rcases map_eq_map (hentities pointer) with ⟨hnone, -⟩ | ⟨e', e₀, he', he₀, heq⟩
    · rw [hnone] at he
      cases he
    · obtain rfl := Option.some.inj (he'.symm.trans he)
      simp only [Entity.identity, Prod.mk.injEq] at heq
      rw [heq.1]
      exact h.unreserved he₀
  announces := by
    have hlive : liveEntities config owner t = liveEntities config owner s := by
      funext pointer
      refine liveEntities_congr (hentities pointer) ?_
      have hnode := congrArg (Option.map Prod.fst) (hnodes (owner pointer))
      rwa [Option.map_map, Option.map_map] at hnode
    rw [hlive]
    exact h.announces

lemma owned_update_self (pointer : ℕ) (e : Entity) (node : ℕ) (entities : ℕ → Option Entity) :
    owned (Function.update owner pointer node) node (Function.update entities pointer (some e))
      = Function.update (owned owner node entities) pointer (some e) := by
  funext q
  by_cases hq : q = pointer
  · subst hq
    simp [owned]
  · simp [owned, hq]

/-- A new entity is not one of the other nodes. -/
lemma owned_update_of_ne {pointer node node' : ℕ} {entities : ℕ → Option Entity}
    (hfree : entities pointer = none) (hne : node' ≠ node) (e? : Option Entity) :
    owned (Function.update owner pointer node) node' (Function.update entities pointer e?)
      = owned owner node' entities := by
  funext q
  by_cases hq : q = pointer
  · subst hq
    simp [owned, hfree, hne.symm]
  · simp [owned, hq]

lemma owned_update_none (pointer node : ℕ) (entities : ℕ → Option Entity) :
    owned owner node (Function.update entities pointer none)
      = Function.update (owned owner node entities) pointer none := by
  funext q
  by_cases hq : q = pointer
  · subst hq
    simp [owned]
  · simp [owned, hq]

lemma update_owned_of_ne {pointer node : ℕ} (entities : ℕ → Option Entity)
    (hne : owner pointer ≠ node) :
    Function.update (owned owner node entities) pointer none = owned owner node entities := by
  rw [Function.update_eq_self_iff]
  exact (if_neg hne).symm

/-- The rest of the registries, when an entity and its node change. -/
lemma Announcing.set (h : Announcing config owner s log) {node pointer : ℕ} {nd nd' : DesertNode}
    {e? : Option Entity} {txPackets : List Packet} {owner' : ℕ → ℕ} {log' : List Beacon}
    (hnd : s.nodes node = some nd) (hidentity : nd'.identity = nd.identity)
    (hnamed : nd'.Named config)
    (hentity : ∀ e, e? = some e → e.endpoint.Named config e.name ∧ e.name ≠ "/discovery" ∧
      owner' pointer = node)
    (howner : ∀ q ≠ pointer, owner' q = owner q)
    (hregistered : ∀ {n nd₀}, Function.update s.nodes node (some nd') n = some nd₀ →
      Registered config (owned owner' n (Function.update s.entities pointer e?)) nd₀.pointers)
    (hlog : Announces (Function.update (liveEntities config owner s) pointer (e?.bind fun e =>
      if config.getTopicIdentifier e.name = 0 then none
      else some (nd.announcement e.endpoint.kind e))) log') :
    Announcing config owner' ⟨Function.update s.nodes node (some nd'),
      Function.update s.entities pointer e?, txPackets⟩ log' := by
  have hnodes : ∀ q, (Function.update s.nodes node (some nd') q).map DesertNode.identity
      = (s.nodes q).map DesertNode.identity := by
    intro q
    by_cases hq : q = node
    · subst hq
      rw [Function.update_self, hnd, Option.map_some, Option.map_some, hidentity]
    · rw [Function.update_of_ne hq]
  have hinv : Inv config ⟨Function.update s.nodes node (some nd'),
      Function.update s.entities pointer e?, txPackets⟩ := by
    have hnode : ∀ nd, some nd' = some nd → nd.Named config := by
      rintro _ ⟨⟩
      exact hnamed
    have hset := (h.named.setNode hnode node).setEntity (fun e he => (hentity e he).1) pointer
    exact ⟨hset.nodes, hset.entities⟩
  refine ⟨hinv, hregistered, fun {q e} he hname => ?_, fun {q e} he => ?_, ?_⟩
  · change Function.update s.entities pointer e? q = some e at he
    have hexists : ∃ nd, s.nodes (owner' q) = some nd := by
      by_cases hq : q = pointer
      · subst hq
        rw [Function.update_self] at he
        exact ⟨nd, (hentity e he).2.2 ▸ hnd⟩
      · rw [Function.update_of_ne hq] at he
        rw [howner q hq]
        exact h.exists_node he hname
    obtain ⟨nd₀, hnd₀⟩ := hexists
    rcases map_eq_map (hnodes (owner' q)) with ⟨-, hnone⟩ | ⟨nd₁, -, hnd₁, -, -⟩
    · rw [hnone] at hnd₀
      cases hnd₀
    · exact ⟨nd₁, hnd₁⟩
  · change Function.update s.entities pointer e? q = some e at he
    by_cases hq : q = pointer
    · subst hq
      rw [Function.update_self] at he
      exact (hentity e he).2.1
    · rw [Function.update_of_ne hq] at he
      exact h.unreserved he
  · convert hlog using 1
    funext q
    by_cases hq : q = pointer
    · subst hq
      rw [Function.update_self]
      simp only [liveEntities, Function.update_self]
      cases he : e? with
      | none => rfl
      | some e =>
        simp only [Option.bind_some, (hentity e he).2.2, Function.update_self]
        simp only [DesertNode.identity, Prod.mk.injEq] at hidentity
        simp only [DesertNode.announcement, DesertNode.beacon, hidentity.1, hidentity.2]
    · rw [Function.update_of_ne hq]
      refine liveEntities_congr ?_ ?_
      · show (Function.update s.entities pointer e? q).map _ = _
        rw [Function.update_of_ne hq]
      · rw [howner q hq]
        exact hnodes (owner q)

/-- What a node lists is announced. -/
lemma Announcing.live_of_mem (h : Announcing config owner s log) {node pointer : ℕ}
    {nd : DesertNode} {kind : EntityKind} {e : Entity} (hnd : s.nodes node = some nd)
    (hpointer : pointer ∈ nd.pointers kind) (he : s.entities pointer = some e) :
    owner pointer = node ∧ e.endpoint.kind = kind ∧
      liveEntities config owner s pointer = some (nd.announcement kind e) := by
  obtain ⟨e', he', rfl, hname⟩ := ((h.registered hnd).mem_iff kind pointer).mp hpointer
  rw [Option.mem_def, owned] at he'
  split_ifs at he' with howner
  · obtain rfl := Option.some.inj (he.symm.trans he')
    refine ⟨howner, rfl, ?_⟩
    rw [liveEntities, he, Option.bind_some, howner, hnd, Option.bind_some, if_neg hname]

/-- A call that creates an entity. -/
lemma Announcing.create (h : Announcing config owner s log) (N : NanoCbor)
    (txPackets : List Packet) {node pointer : ℕ} {nd : DesertNode} {e : Entity}
    (hdiscovery : config.getTopicIdentifier "/discovery" ≠ 0) (hnd : s.nodes node = some nd)
    (hfree : s.entities pointer = none) (hnamed : e.endpoint.Named config e.name)
    (hunreserved : e.name ≠ "/discovery") (htopic : e.name.toUTF8.data.toList.head? = some 0x2F)
    (hgid : ∀ b ∈ log, b.entityGid ≠ e.gid) :
    Announcing config (Function.update owner pointer node)
      ⟨Function.update s.nodes node (some (add N config e.endpoint.kind pointer e nd).1),
        Function.update s.entities pointer (some e), txPackets⟩
      (log ++ if config.getTopicIdentifier e.name = 0 then []
        else [nd.announcement e.endpoint.kind e]) := by
  have hnode : (add N config e.endpoint.kind pointer e nd).1.identity = nd.identity ∧
      (add N config e.endpoint.kind pointer e nd).1.Named config := by
    have hnd' := h.named.nodes hnd
    rw [add_eq, DesertNode.addEntity]
    split_ifs
    · exact ⟨rfl, hnd'⟩
    · exact ⟨rfl, hnd'.beacon, hnd'.request⟩
  refine h.set hnd hnode.1 hnode.2 ?_ (fun q hq => Function.update_of_ne hq ..) ?_ ?_
  · rintro _ ⟨⟩
    exact ⟨hnamed, hunreserved, Function.update_self ..⟩
  · intro n nd₀ hnd₀
    by_cases hn : n = node
    · subst hn
      rw [Function.update_self] at hnd₀
      obtain rfl := Option.some.inj hnd₀
      have howned : owned owner n s.entities pointer = none := by rw [owned, hfree, ite_self]
      rw [owned_update_self, pointers_add]
      split_ifs with hname
      · exact (h.registered hnd).create_of_eq_zero howned hname
      · exact (h.registered hnd).create howned hname
    · rw [Function.update_of_ne hn] at hnd₀
      rw [owned_update_of_ne hfree hn]
      exact h.registered hnd₀
  · have hnone : liveEntities config owner s pointer = none := by rw [liveEntities, hfree]; rfl
    simp only [Option.bind_some]
    split_ifs with hname
    · rw [List.append_nil, Function.update_eq_self_iff.mpr hnone.symm]
      exact h.announces
    · exact .connect h.announces hnone ⟨e.endpoint.kind, rfl⟩ rfl htopic hgid

/-- A call that destroys an entity. -/
lemma Announcing.destroy (h : Announcing config owner s log) (N : NanoCbor)
    (txPackets : List Packet) {node pointer : ℕ} {nd : DesertNode} {e : Entity}
    (hdiscovery : config.getTopicIdentifier "/discovery" ≠ 0) (hnd : s.nodes node = some nd)
    (he : s.entities pointer = some e)
    (hlisted : config.getTopicIdentifier e.name ≠ 0 → pointer ∈ nd.pointers e.endpoint.kind) :
    Announcing config owner
      ⟨Function.update s.nodes node (some (remove N config e.endpoint.kind pointer e nd).1),
        Function.update s.entities pointer none, txPackets⟩
      (log ++ if config.getTopicIdentifier e.name = 0 then []
        else [nd.beacon e.endpoint.kind e.gid [] [] true]) := by
  have hnode : (remove N config e.endpoint.kind pointer e nd).1.identity = nd.identity ∧
      (remove N config e.endpoint.kind pointer e nd).1.Named config := by
    have hnd' := h.named.nodes hnd
    rw [remove_eq, DesertNode.removeEntity]
    split_ifs
    · exact ⟨rfl, hnd'⟩
    · exact ⟨rfl, hnd'.beacon, hnd'.request⟩
  -- a configured entity belongs to the node that lists it
  have howner : config.getTopicIdentifier e.name ≠ 0 → owner pointer = node :=
    fun hname => (h.live_of_mem hnd (hlisted hname) he).1
  have hnone : ∀ e' : Entity, none = some e' → e'.endpoint.Named config e'.name ∧
      e'.name ≠ "/discovery" ∧ owner pointer = node := by
    rintro e' ⟨⟩
  refine h.set hnd hnode.1 hnode.2 hnone (fun _ _ => rfl) ?_ ?_
  · intro n nd₀ hnd₀
    rw [owned_update_none]
    by_cases hq : owner pointer = n
    · have howned : e ∈ owned owner n s.entities pointer := (if_pos hq).trans he
      by_cases hn : n = node
      · subst hn
        rw [Function.update_self] at hnd₀
        obtain rfl := Option.some.inj hnd₀
        rw [pointers_remove]
        split_ifs with hname
        · exact (h.registered hnd).destroy_of_eq_zero howned hname
        · exact (h.registered hnd).destroy howned
      · rw [Function.update_of_ne hn] at hnd₀
        refine (h.registered hnd₀).destroy_of_eq_zero howned ?_
        by_contra hname
        exact hn (hq.symm.trans (howner hname))
    · rw [update_owned_of_ne _ hq]
      by_cases hn : n = node
      · subst hn
        rw [Function.update_self] at hnd₀
        obtain rfl := Option.some.inj hnd₀
        rw [pointers_remove]
        split_ifs with hname
        · exact h.registered hnd
        · exact absurd (howner hname) hq
      · rw [Function.update_of_ne hn] at hnd₀
        exact h.registered hnd₀
  · simp only [Option.bind_none]
    split_ifs with hname
    · have hnone : liveEntities config owner s pointer = none := by
        rw [liveEntities, he, Option.bind_some]
        simp [hname]
      rw [List.append_nil, Function.update_eq_self_iff.mpr hnone.symm]
      exact h.announces
    · exact .disconnect h.announces (h.live_of_mem hnd (hlisted hname) he).2.2 rfl rfl rfl

/-- A node without entities comes or goes. -/
lemma Announcing.setNode (h : Announcing config owner s log) {node : ℕ} {nd? : Option DesertNode}
    (hnd : ∀ nd, nd? = some nd → nd.Named config ∧ ∀ kind, nd.pointers kind = [])
    (hnone : ∀ {pointer e}, s.entities pointer = some e → owner pointer = node →
      config.getTopicIdentifier e.name = 0) :
    Announcing config owner { s with nodes := Function.update s.nodes node nd? } log where
  named := h.named.setNode (fun nd hmem => (hnd nd hmem).1) node
  registered := by
    intro n nd hn
    change Function.update s.nodes node nd? n = some nd at hn
    by_cases heq : n = node
    · subst heq
      rw [Function.update_self] at hn
      have hempty := (hnd nd hn).2
      refine ⟨fun kind => hempty kind ▸ List.nodup_nil, fun kind pointer => ?_⟩
      rw [hempty kind]
      refine iff_of_false List.not_mem_nil ?_
      rintro ⟨e, he, -, hname⟩
      rw [owned] at he
      split_ifs at he with howner
      · exact hname (hnone he howner)
      · cases he
    · rw [Function.update_of_ne heq] at hn
      exact h.registered hn
  exists_node := by
    intro pointer e he hname
    have howner : owner pointer ≠ node := fun howner => hname (hnone he howner)
    obtain ⟨nd, hnd⟩ := h.exists_node he hname
    exact ⟨nd, (Function.update_of_ne howner ..).trans hnd⟩
  unreserved := h.unreserved
  announces := by
    convert h.announces using 1
    funext pointer
    by_cases howner : owner pointer = node
    · -- such an entity is not configured, and not announced
      simp only [liveEntities]
      cases he : s.entities pointer with
      | none => rfl
      | some e => simp [hnone he howner]
    · refine liveEntities_congr rfl ?_
      show (Function.update s.nodes node nd? (owner pointer)).map _ = _
      rw [Function.update_of_ne howner]

/-- A node that lists nothing has no configured entities. -/
lemma Announcing.eq_zero_of_pointers (h : Announcing config owner s log) {node : ℕ}
    (hnode : ∀ nd, s.nodes node = some nd → ∀ kind, nd.pointers kind = []) {pointer : ℕ}
    {e : Entity} (he : s.entities pointer = some e) (howner : owner pointer = node) :
    config.getTopicIdentifier e.name = 0 := by
  by_contra hname
  obtain ⟨nd, hnd⟩ := h.exists_node he hname
  rw [howner] at hnd
  have hlisted := ((h.registered hnd).mem_iff e.endpoint.kind pointer).mpr
    ⟨e, (if_pos howner).trans he, rfl, hname⟩
  rw [hnode nd hnd] at hlisted
  cases hlisted

/-- A round announces live entities. -/
lemma Announcing.round (h : Announcing config owner s log) {node : ℕ} {nd : DesertNode}
    (hnd : s.nodes node = some nd) :
    Announces (liveEntities config owner s) (log ++ nd.round s.entities) := by
  have hlive : ∀ x ∈ nd.round s.entities, ∃ pointer,
      liveEntities config owner s pointer = some x := by
    intro x hx
    obtain ⟨kind, pointer, hpointer, e, he, rfl⟩ := DesertNode.mem_round.mp hx
    exact ⟨pointer, (h.live_of_mem hnd hpointer he).2.2⟩
  generalize nd.round s.entities = beacons at hlive
  induction beacons using List.reverseRecOn with
  | nil =>
    rw [List.append_nil]
    exact h.announces
  | append_singleton beacons x ih =>
    obtain ⟨pointer, hx⟩ := hlive x (List.mem_append_right _ (List.mem_singleton_self x))
    rw [← List.append_assoc]
    exact .renew (ih fun y hy => hlive y (List.mem_append_left _ hy)) hx

/-! ### Operations -/

/-- What the callers of the operations promise: a node is created where there is none, and
destroyed after its entities; a new entity lives where no other one does and its name begins
with a slash; and an entity is destroyed by the call for its kind, with the node that has it. -/
def Proper (config : TopicsConfig) (s : Middleware) : Event → Prop
  | .createNode node _ _ _ => s.nodes node = none
  | .destroyNode node => ∀ nd, s.nodes node = some nd → ∀ kind, nd.pointers kind = []
  | .create _ _ pointer name _ _ _ _ _ =>
    s.entities pointer = none ∧ name.toUTF8.data.toList.head? = some 0x2F
  | .destroy kind node pointer => ∀ nd e, s.nodes node = some nd → s.entities pointer = some e →
    e.endpoint.kind = kind ∧ (config.getTopicIdentifier e.name ≠ 0 → pointer ∈ nd.pointers kind)
  | _ => True

/-- The identifiers that an operation draws for entities. -/
def drawn : Event → List Gid
  | .create _ _ _ _ gid _ _ _ _ => [gid]
  | _ => []

lemma identity_mapStream (e : Entity) (f : RxStream → RxStream) :
    Entity.identity { e with endpoint := e.endpoint.mapStream f } = e.identity := by
  cases hendpoint : e.endpoint <;> simp [Entity.identity, Endpoint.mapStream, Endpoint.kind,
    hendpoint]

lemma map_update_entity {entities : ℕ → Option Entity} {pointer : ℕ} {e e' : Entity}
    (he : entities pointer = some e) (hsame : e'.identity = e.identity) (q : ℕ) :
    (Function.update entities pointer (some e') q).map Entity.identity
      = (entities q).map Entity.identity := by
  by_cases hq : q = pointer
  · subst hq
    rw [Function.update_self, he, Option.map_some, Option.map_some, hsame]
  · rw [Function.update_of_ne hq]

/-- A turn of the thread of a node leaves its names and its lists as they are. -/
lemma discoveryRequest_ok {N : NanoCbor} {entities : ℕ → Option Entity} {nd nd' : DesertNode}
    {packets : List (Option Packet)} (h : nd.discoveryRequest N entities = .ok (nd', packets)) :
    nd'.identity = nd.identity ∧ nd'.pointers = nd.pointers ∧
      packets = (if nd.Requested then nd.round entities else []).map
        (Discovery.sendDiscoveryBeacon N nd.discoveryBeaconDataStream) := by
  obtain ⟨⟨available, stream⟩, hpoll, h⟩ := Transition.bind_eq_ok.mp h
  have havailable : available = true ↔ nd.Requested := by
    obtain ⟨stream', hpoll', -⟩ := RxStream.dataAvailable_zero nd.discoveryRequestDataStream
    obtain ⟨rfl, -⟩ := Prod.mk.inj (Except.ok.inj (hpoll.symm.trans hpoll'))
    exact decide_eq_true_iff
  simp only at h
  split_ifs at h with hstart
  · obtain ⟨round, hround, h⟩ := Transition.bind_eq_ok.mp h
    obtain ⟨rfl, rfl⟩ := Prod.mk.inj (Except.ok.inj h)
    rw [if_pos (havailable.mp hstart)]
    exact ⟨rfl, rfl, DesertNode.publishAllBeacons_eq hround⟩
  · obtain ⟨rfl, rfl⟩ := Prod.mk.inj (Except.ok.inj h)
    rw [if_neg fun hrequested => hstart (havailable.mpr hrequested)]
    exact ⟨rfl, rfl, rfl⟩

/-- The step of the invariant. -/
lemma Announcing.step {N : NanoCbor} (hN : N.Lawful) (hcompact : N.Compact)
    (hdiscovery : config.getTopicIdentifier "/discovery" ≠ 0)
    (hrequest : config.getTopicIdentifier "/discovery_request" ≠ 0)
    (h : Announcing config owner s log) {event : Event} {packets : List (Option Packet)}
    (hproper : Proper config s event) (hgid : ∀ gid ∈ drawn event, ∀ b ∈ log, b.entityGid ≠ gid)
    (heffect : effect N config s event = .ok (t, packets)) :
    ∃ owner', Announcing config owner' t (log ++ beacons config s event) := by
  have hinv := (effect_spec hN hcompact h.named heffect).1
  have hquiet : beacons config s event = [] → Announcing config owner t log →
      ∃ owner', Announcing config owner' t (log ++ beacons config s event) :=
    fun hnone ht => ⟨owner, by rwa [hnone, List.append_nil]⟩
  cases event with
  | init =>
    obtain ⟨rfl, rfl⟩ := Prod.mk.inj (Except.ok.inj heffect)
    exact hquiet rfl h
  | createNode node name namespace_ gid =>
    obtain ⟨rfl, rfl⟩ := Prod.mk.inj (Except.ok.inj heffect)
    refine hquiet rfl (h.setNode ?_ (h.eq_zero_of_pointers fun nd hnd => ?_))
    · rintro nd ⟨⟩
      exact ⟨DesertNode.named_create config name namespace_ gid, fun _ => rfl⟩
    · rw [show s.nodes node = none from hproper] at hnd
      cases hnd
  | destroyNode node =>
    obtain ⟨rfl, rfl⟩ := Prod.mk.inj (Except.ok.inj heffect)
    exact hquiet rfl (h.setNode nofun (h.eq_zero_of_pointers hproper))
  | create kind node pointer name gid messageNamespace messageName language sequenceId =>
    rw [effect] at heffect
    split_ifs at heffect with hreserved
    · obtain ⟨rfl, rfl⟩ := Prod.mk.inj (Except.ok.inj heffect)
      rw [beacons, if_pos (by tauto), List.append_nil]
      exact ⟨owner, h⟩
    · obtain ⟨nd, hnd, heffect⟩ := Transition.bind_eq_ok.mp heffect
      obtain ⟨rfl, rfl⟩ := Prod.mk.inj (Except.ok.inj heffect)
      have hfree : s.entities pointer = none := hproper.1
      have hcreate := h.create N s.txPackets (e := ⟨name, gid, messageNamespace, messageName,
          .create config name language sequenceId kind⟩) hdiscovery (deref_eq_ok hnd) hfree
        (named_create config name language sequenceId kind) (fun hname => hreserved (Or.inl hname))
        hproper.2 (hgid gid (List.mem_singleton_self gid))
      simp only [kind_create] at hcreate
      refine ⟨Function.update owner pointer node, ?_⟩
      rw [beacons, deref_eq_ok hnd]
      by_cases hname : config.getTopicIdentifier name = 0
      · rw [if_pos (Or.inr (Or.inr hname))]
        rw [if_pos hname] at hcreate
        exact hcreate
      · rw [if_neg (by tauto)]
        rw [if_neg hname] at hcreate
        exact hcreate
  | destroy kind node pointer =>
    obtain ⟨nd, hnd, heffect⟩ := Transition.bind_eq_ok.mp heffect
    obtain ⟨e, he, heffect⟩ := Transition.bind_eq_ok.mp heffect
    obtain ⟨rfl, rfl⟩ := Prod.mk.inj (Except.ok.inj heffect)
    have hnd := deref_eq_ok hnd
    have he := deref_eq_ok he
    obtain ⟨rfl, hlisted⟩ := hproper nd e hnd he
    refine ⟨owner, ?_⟩
    rw [beacons, hnd, he]
    exact h.destroy N s.txPackets hdiscovery hnd he hlisted
  | publish pointer msg =>
    obtain ⟨e, he, heffect⟩ := Transition.bind_eq_ok.mp heffect
    split at heffect
    · obtain ⟨packet, -, heffect⟩ := Transition.bind_eq_ok.mp heffect
      obtain ⟨rfl, rfl⟩ := Prod.mk.inj (Except.ok.inj heffect)
      exact hquiet rfl h
    · cases heffect
  | sendRequest pointer req sequenceId =>
    obtain ⟨e, he, heffect⟩ := Transition.bind_eq_ok.mp heffect
    split at heffect
    · rename_i c hendpoint
      obtain ⟨packet, -, heffect⟩ := Transition.bind_eq_ok.mp heffect
      obtain ⟨rfl, rfl⟩ := Prod.mk.inj (Except.ok.inj heffect)
      refine hquiet rfl (h.congr hinv (fun _ => rfl) (map_update_entity (deref_eq_ok he) ?_))
      simp only [Entity.identity, hendpoint, Endpoint.kind]
    · cases heffect
  | takeRequest pointer initial req =>
    obtain ⟨e, he, heffect⟩ := Transition.bind_eq_ok.mp heffect
    split at heffect
    · rename_i c hendpoint
      obtain ⟨c', -, heffect⟩ := Transition.bind_eq_ok.mp heffect
      obtain ⟨rfl, rfl⟩ := Prod.mk.inj (Except.ok.inj heffect)
      refine hquiet rfl (h.congr hinv (fun _ => rfl) (map_update_entity (deref_eq_ok he) ?_))
      simp only [Entity.identity, hendpoint, Endpoint.kind]
    · cases heffect
  | sendResponse pointer res sequenceNumber =>
    obtain ⟨e, he, heffect⟩ := Transition.bind_eq_ok.mp heffect
    split at heffect
    · obtain ⟨packet, -, heffect⟩ := Transition.bind_eq_ok.mp heffect
      obtain ⟨rfl, rfl⟩ := Prod.mk.inj (Except.ok.inj heffect)
      exact hquiet rfl h
    · cases heffect
  | interpret fuel arrived =>
    obtain ⟨⟨ds, rest⟩, -, heffect⟩ := Transition.bind_eq_ok.mp heffect
    obtain ⟨rfl, rfl⟩ := Prod.mk.inj (Except.ok.inj heffect)
    refine hquiet rfl (h.congr hinv (fun node => ?_) fun pointer => ?_)
    · rw [Option.map_map]
      rfl
    · rw [Option.map_map]
      refine congrArg₂ Option.map (funext fun e => ?_) rfl
      exact identity_mapStream e _
  | discoveryRequest node =>
    rw [effect, if_neg hrequest] at heffect
    obtain ⟨nd, hnd, heffect⟩ := Transition.bind_eq_ok.mp heffect
    obtain ⟨⟨nd', packets'⟩, hturn, heffect⟩ := Transition.bind_eq_ok.mp heffect
    obtain ⟨rfl, rfl⟩ := Prod.mk.inj (Except.ok.inj heffect)
    obtain ⟨hidentity, hpointers, -⟩ := discoveryRequest_ok hturn
    have hnd := deref_eq_ok hnd
    have hlog : Announcing config owner s (log ++ beacons config s (.discoveryRequest node)) := by
      refine ⟨h.named, h.registered, h.exists_node, h.unreserved, ?_⟩
      rw [beacons, hnd]
      simp only [Option.toList_some, List.flatMap_cons, List.flatMap_nil, List.append_nil]
      split_ifs
      · exact h.round hnd
      · rw [List.append_nil]
        exact h.announces
    refine ⟨owner, hlog.congr hinv (fun q => ?_) fun _ => rfl⟩
    by_cases hq : q = node
    · subst hq
      simp only [Function.update_self, hnd, Option.map_some, hidentity, hpointers]
    · simp only [Function.update_of_ne hq]

/-- A beacon is about a new entity or about one that was announced before. -/
lemma Announcing.gid_mem (h : Announcing config owner s log) {event : Event}
    (hproper : Proper config s event) {b : Beacon} (hb : b ∈ beacons config s event) :
    b.entityGid ∈ drawn event ∨ ∃ x ∈ log, x.entityGid = b.entityGid := by
  have hlisted : ∀ {node nd kind pointer e}, s.nodes node = some nd →
      pointer ∈ nd.pointers kind → s.entities pointer = some e →
      ∃ x ∈ log, x.entityGid = e.gid := by
    intro node nd kind pointer e hnd hpointer he
    have hlive := (h.live_of_mem hnd hpointer he).2.2
    exact ⟨_, (Merge.mem_of_lastWith (h.announces.spec.1 hlive).1).1, rfl⟩
  cases event with
  | create kind node pointer name gid messageNamespace messageName language sequenceId =>
    rw [beacons] at hb
    split_ifs at hb
    · cases hb
    · obtain ⟨nd, -, rfl⟩ := List.mem_map.mp hb
      exact Or.inl (List.mem_singleton_self gid)
  | destroy kind node pointer =>
    rw [beacons] at hb
    split at hb
    · rename_i nd e hnd he
      split_ifs at hb with hname
      · cases hb
      · obtain rfl := List.mem_singleton.mp hb
        exact Or.inr (hlisted hnd ((hproper nd e hnd he).2 hname) he)
    · cases hb
  | discoveryRequest node =>
    rw [beacons] at hb
    simp only [List.mem_flatMap, Option.mem_toList] at hb
    obtain ⟨nd, hnd, hb⟩ := hb
    split_ifs at hb
    · obtain ⟨kind, pointer, hpointer, e, he, rfl⟩ := DesertNode.mem_round.mp hb
      exact Or.inr (hlisted hnd hpointer he)
    · cases hb
  | _ => cases hb

end Middleware
end RmwDesert
