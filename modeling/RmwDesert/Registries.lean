/-
The registries of a node (`DesertNode.cpp`).

A node keeps pointers to its entities and reads them, unchecked, for every round of beacons.
The pointers are right as long as the registries list exactly the entities that live.  A call
that creates an entity keeps this; a call that destroys one keeps it exactly if the removal is
reached, and `removeEntity` gives up before it when `/discovery` has no identifier.
-/
import RmwDesert.Middleware

namespace RmwDesert
namespace Middleware

open MessageSerialization

/-- The registries list, once each, exactly the entities that live and whose name is
configured. -/
structure Registered (config : TopicsConfig) (entities : ℕ → Option Entity)
    (pointers : EntityKind → List ℕ) : Prop where
  nodup : ∀ kind, (pointers kind).Nodup
  mem_iff : ∀ kind pointer, pointer ∈ pointers kind ↔
    ∃ e ∈ entities pointer, e.endpoint.kind = kind ∧ config.getTopicIdentifier e.name ≠ 0

/-- The calls that create and destroy the entities of a node.  A new entity lives where no other
one does, and a handle is destroyed while its entity lives, by the call for its kind. -/
def EntityCall (node : ℕ) (s : Middleware) : Event → Prop
  | .create _ n pointer _ _ _ _ _ _ => n = node ∧ s.entities pointer = none
  | .destroy kind n pointer => n = node ∧ ∃ e ∈ s.entities pointer, e.endpoint.kind = kind
  | _ => False

/-- The removal of a configured entity is not given up. -/
def Removes (config : TopicsConfig) (s : Middleware) : Event → Prop
  | .destroy _ _ pointer => ∀ e ∈ s.entities pointer, config.getTopicIdentifier e.name ≠ 0 →
      config.getTopicIdentifier "/discovery" ≠ 0
  | _ => True

/-- The registries of the node are right. -/
def Sound (config : TopicsConfig) (node : ℕ) (s : Middleware) : Prop :=
  ∃ nd, s.nodes node = some nd ∧ Registered config s.entities nd.pointers

variable {N : NanoCbor} {config : TopicsConfig} {s : Middleware} {node : ℕ}

lemma registered_nil (config : TopicsConfig) :
    Registered config (fun _ => none) (fun _ => []) :=
  ⟨fun _ => List.nodup_nil, by simp⟩

section

variable {entities : ℕ → Option Entity} {pointers : EntityKind → List ℕ} {pointer : ℕ}
  {e : Entity}

/-- An entity that is not configured is not registered. -/
lemma Registered.create_of_eq_zero (h : Registered config entities pointers)
    (hfree : entities pointer = none) (hname : config.getTopicIdentifier e.name = 0) :
    Registered config (Function.update entities pointer (some e)) pointers := by
  refine ⟨h.nodup, fun k p => ?_⟩
  rw [h.mem_iff]
  by_cases hp : p = pointer
  · subst hp
    simp [hfree, hname]
  · rw [Function.update_of_ne hp]

/-- A new entity is registered. -/
lemma Registered.create (h : Registered config entities pointers)
    (hfree : entities pointer = none) (hname : config.getTopicIdentifier e.name ≠ 0) :
    Registered config (Function.update entities pointer (some e))
      (Function.update pointers e.endpoint.kind (pointers e.endpoint.kind ++ [pointer])) := by
  -- a registry that listed the pointer would list a dead entity
  have hnew : ∀ kind, pointer ∉ pointers kind := by
    intro kind hmem
    obtain ⟨e', he', -⟩ := (h.mem_iff kind pointer).mp hmem
    rw [hfree] at he'
    cases he'
  refine ⟨fun kind => ?_, fun kind p => ?_⟩
  · by_cases hkind : kind = e.endpoint.kind
    · subst hkind
      rw [Function.update_self]
      exact (h.nodup _).append (List.nodup_singleton _)
        (List.disjoint_singleton.mpr (hnew _))
    · rw [Function.update_of_ne hkind]
      exact h.nodup kind
  · have hold := h.mem_iff kind p
    by_cases hp : p = pointer
    · subst hp
      by_cases hkind : kind = e.endpoint.kind
      · subst hkind
        simp [hname]
      · simp [Function.update_of_ne hkind, hnew, Ne.symm hkind]
    · rw [Function.update_of_ne hp, ← hold]
      by_cases hkind : kind = e.endpoint.kind
      · subst hkind
        simp [hp]
      · rw [Function.update_of_ne hkind]

/-- An entity that is not configured leaves no pointer behind. -/
lemma Registered.destroy_of_eq_zero (h : Registered config entities pointers)
    (he : e ∈ entities pointer) (hname : config.getTopicIdentifier e.name = 0) :
    Registered config (Function.update entities pointer none) pointers := by
  refine ⟨h.nodup, fun kind p => ?_⟩
  rw [h.mem_iff]
  by_cases hp : p = pointer
  · subst hp
    rw [Option.mem_def] at he
    simp [he, hname]
  · rw [Function.update_of_ne hp]

/-- An entity whose pointer is erased. -/
lemma Registered.destroy (h : Registered config entities pointers) (he : e ∈ entities pointer) :
    Registered config (Function.update entities pointer none)
      (Function.update pointers e.endpoint.kind ((pointers e.endpoint.kind).erase pointer)) := by
  rw [Option.mem_def] at he
  refine ⟨fun kind => ?_, fun kind p => ?_⟩
  · by_cases hkind : kind = e.endpoint.kind
    · subst hkind
      rw [Function.update_self]
      exact (h.nodup _).erase _
    · rw [Function.update_of_ne hkind]
      exact h.nodup kind
  · have hold := h.mem_iff kind p
    by_cases hkind : kind = e.endpoint.kind
    · subst hkind
      -- `erase` removes one occurrence, and there is no other
      rw [Function.update_self, (h.nodup _).mem_erase_iff, hold]
      by_cases hp : p = pointer
      · subst hp
        simp
      · rw [Function.update_of_ne hp]
        exact and_iff_right hp
    · rw [Function.update_of_ne hkind, hold]
      by_cases hp : p = pointer
      · subst hp
        simp [he, Ne.symm hkind]
      · rw [Function.update_of_ne hp]

/-- A configured entity whose pointer stays is destroyed, and still listed. -/
lemma Registered.not_destroy (h : Registered config entities pointers) (he : e ∈ entities pointer)
    (hname : config.getTopicIdentifier e.name ≠ 0) :
    ¬ Registered config (Function.update entities pointer none) pointers := by
  intro h'
  have hlisted := (h.mem_iff e.endpoint.kind pointer).mpr ⟨e, he, rfl, hname⟩
  obtain ⟨e', he', -⟩ := (h'.mem_iff e.endpoint.kind pointer).mp hlisted
  rw [Function.update_self] at he'
  cases he'

end

/-! ## One call -/

lemma pointers_add (kind : EntityKind) (pointer : ℕ) (e : Entity) (nd : DesertNode) :
    (add N config kind pointer e nd).1.pointers =
      if config.getTopicIdentifier e.name = 0 then nd.pointers
      else Function.update nd.pointers kind (nd.pointers kind ++ [pointer]) := by
  rw [add_eq, DesertNode.addEntity]
  split_ifs <;> rfl

lemma pointers_remove (kind : EntityKind) (pointer : ℕ) (e : Entity) (nd : DesertNode) :
    (remove N config kind pointer e nd).1.pointers =
      if config.getTopicIdentifier e.name = 0 then nd.pointers
      else if config.getTopicIdentifier "/discovery" = 0 then nd.pointers
      else Function.update nd.pointers kind ((nd.pointers kind).erase pointer) := by
  rw [remove_eq, DesertNode.removeEntity]
  split_ifs <;> rfl

lemma kind_create (name : String) (language : Language) (sequenceId : Int64)
    (kind : EntityKind) : (Endpoint.create config name language sequenceId kind).kind = kind := by
  cases kind <;> rfl

lemma sound_update {nodes : ℕ → Option DesertNode} {entities : ℕ → Option Entity}
    {nd : DesertNode} {txPackets : List Packet} :
    Sound config node ⟨Function.update nodes node (some nd), entities, txPackets⟩ ↔
      Registered config entities nd.pointers := by
  constructor
  · rintro ⟨nd', hnd', h⟩
    change Function.update nodes node (some nd) node = some nd' at hnd'
    rw [Function.update_self] at hnd'
    obtain rfl := Option.some.inj hnd'
    exact h
  · exact fun h => ⟨nd, Function.update_self _ _ nodes, h⟩

variable (N config) in
lemma step_create {nd : DesertNode} (hnd : s.nodes node = some nd) {name : String}
    (hreserved : ¬ (name = "/discovery" ∨ name = "/discovery_request")) (kind : EntityKind)
    (pointer : ℕ) (gid : Gid) (messageNamespace messageName : List UInt8) (language : Language)
    (sequenceId : Int64) :
    let e : Entity := ⟨name, gid, messageNamespace, messageName,
      .create config name language sequenceId kind⟩
    ∃ txPackets, step N config s
        (.create kind node pointer name gid messageNamespace messageName language sequenceId)
      = .ok ⟨Function.update s.nodes node (some (add N config kind pointer e nd).1),
          Function.update s.entities pointer (some e), txPackets⟩ := by
  intro e
  refine ⟨s.txPackets ++ [(add N config kind pointer e nd).2].reduceOption, ?_⟩
  rw [step, effect, if_neg hreserved, hnd]
  rfl

variable (N config) in
lemma step_destroy {nd : DesertNode} (hnd : s.nodes node = some nd) {pointer : ℕ} {e : Entity}
    (he : s.entities pointer = some e) (kind : EntityKind) :
    ∃ txPackets, step N config s (.destroy kind node pointer)
      = .ok ⟨Function.update s.nodes node (some (remove N config kind pointer e nd).1),
          Function.update s.entities pointer none, txPackets⟩ := by
  refine ⟨s.txPackets ++ [(remove N config kind pointer e nd).2].reduceOption, ?_⟩
  rw [step, effect, hnd, he]
  rfl

/-- A call for an entity of the node returns, and leaves the registries right exactly if it
does not give up a removal. -/
lemma step_registries (hs : Sound config node s) {event : Event} (hcall : EntityCall node s event) :
    ∃ t, step N config s event = .ok t ∧ (Sound config node t ↔ Removes config s event) := by
  obtain ⟨nd, hnd, hregistered⟩ := hs
  cases event with
  | create kind n pointer name gid messageNamespace messageName language sequenceId =>
    obtain ⟨rfl, hfree⟩ := hcall
    by_cases hreserved : name = "/discovery" ∨ name = "/discovery_request"
    · -- the call returns before it builds anything
      refine ⟨{ s with txPackets := s.txPackets ++ [] }, ?_, iff_of_true ?_ trivial⟩
      · rw [step, effect, if_pos hreserved]
        rfl
      · exact ⟨nd, hnd, hregistered⟩
    · obtain ⟨txPackets, hstep⟩ := step_create N config hnd hreserved kind
        pointer gid messageNamespace messageName language sequenceId
      refine ⟨_, hstep, iff_of_true (sound_update.mpr ?_) trivial⟩
      rw [pointers_add]
      split_ifs with hname
      · exact hregistered.create_of_eq_zero hfree hname
      · have hadded := hregistered.create (e := ⟨name, gid, messageNamespace, messageName,
          .create config name language sequenceId kind⟩) hfree hname
        rwa [kind_create] at hadded
  | destroy kind n pointer =>
    obtain ⟨rfl, e, he, rfl⟩ := hcall
    obtain ⟨txPackets, hstep⟩ :=
      step_destroy N config hnd he e.endpoint.kind
    refine ⟨_, hstep, sound_update.trans ?_⟩
    have hremoves : Removes config s (.destroy e.endpoint.kind n pointer) ↔
        (config.getTopicIdentifier e.name ≠ 0 →
          config.getTopicIdentifier "/discovery" ≠ 0) := by
      rw [Option.mem_def] at he
      simp [Removes, he]
    rw [hremoves, pointers_remove]
    -- the entity is not configured, or the removal is given up, or the pointer is erased
    split_ifs with hname hdiscovery
    · exact iff_of_true (hregistered.destroy_of_eq_zero he hname) fun h => absurd hname h
    · exact iff_of_false (hregistered.not_destroy he hname) fun h => h hname hdiscovery
    · exact iff_of_true (hregistered.destroy he) fun _ => hdiscovery
  | _ => exact hcall.elim

/-- With right registries, a round of beacons reads live entities only. -/
lemma Registered.publishAllBeacons {entities : ℕ → Option Entity} {nd : DesertNode}
    (h : Registered config entities nd.pointers) :
    ∃ packets, nd.publishAllBeacons N entities = .ok packets := by
  have hkind : ∀ kind, ∃ packets, nd.publishBeacons N entities kind = .ok packets := by
    intro kind
    have hpointer : ∀ pointer ∈ nd.pointers kind, ∃ e, entities pointer = some e := by
      intro pointer hpointer
      obtain ⟨e, he, -⟩ := (h.mem_iff kind pointer).mp hpointer
      exact ⟨e, he⟩
    refine ⟨_, Transition.mapM_eq_ok (g := fun pointer => (entities pointer).bind fun e =>
      Discovery.sendDiscoveryBeacon N nd.discoveryBeaconDataStream (nd.announcement kind e))
      fun pointer hmem => ?_⟩
    obtain ⟨e, he⟩ := hpointer pointer hmem
    rw [he]
    rfl
  -- the four loops of the round, in the order of the source
  obtain ⟨publishers, hpublishers⟩ := hkind .publisher
  obtain ⟨subscribers, hsubscribers⟩ := hkind .subscriber
  obtain ⟨clients, hclients⟩ := hkind .client
  obtain ⟨services, hservices⟩ := hkind .service
  refine ⟨publishers ++ subscribers ++ clients ++ services, ?_⟩
  rw [DesertNode.publishAllBeacons, hpublishers, hsubscribers, hclients, hservices]
  rfl

/-! ## Runs -/

/-- The process after `rmw_create_node`. -/
def withNode (config : TopicsConfig) (node : ℕ) (name namespace_ : List UInt8) (gid : Gid) :
    Middleware :=
  let nd := DesertNode.create config name namespace_ gid
  { initial with nodes := Function.update initial.nodes node (some nd) }

lemma run_createNode (name namespace_ : List UInt8) (gid : Gid) (calls : List Event) :
    Transition.run (step N config) initial (.createNode node name namespace_ gid :: calls)
      = Transition.run (step N config) (withNode config node name namespace_ gid) calls := rfl

lemma sound_withNode (name namespace_ : List UInt8) (gid : Gid) :
    Sound config node (withNode config node name namespace_ gid) :=
  ⟨_, Function.update_self .., registered_nil config⟩

/-- **Registries.** After each call the registries of the node list exactly the live entities
whose name is configured, and a round of beacons reads no other, if and only if no call
destroys a configured entity without `/discovery`. -/
theorem registries_sound_iff {name namespace_ : List UInt8} {gid : Gid} {calls : List Event}
    (hcalls : Transition.EveryStep (step N config) (EntityCall node)
      (withNode config node name namespace_ gid) calls) :
    (∀ first, first <+: calls → ∃ t nd,
      Transition.run (step N config) initial (.createNode node name namespace_ gid :: first)
        = .ok t ∧
      t.nodes node = some nd ∧ Registered config t.entities nd.pointers ∧
      ∃ packets, nd.publishAllBeacons N t.entities = .ok packets) ↔
    Transition.EveryStep (step N config) (Removes config)
      (withNode config node name namespace_ gid) calls := by
  rw [← Transition.forall_prefix_iff (fun hs hcall => step_registries hs hcall)
    (sound_withNode name namespace_ gid) hcalls]
  refine forall_congr' fun first => forall_congr' fun _ => ?_
  rw [run_createNode]
  constructor
  · rintro ⟨t, nd, hrun, hnd, hregistered, -⟩
    exact ⟨t, hrun, nd, hnd, hregistered⟩
  · rintro ⟨t, hrun, nd, hnd, hregistered⟩
    exact ⟨t, nd, hrun, hnd, hregistered, hregistered.publishAllBeacons⟩

/-- A publisher is created and destroyed. -/
def publisherLifetime : List Event :=
  [.create .publisher 0 1 "/a" (List.Vector.replicate _ 2) [0x6D] [0x54] .cpp 0,
    .destroy .publisher 0 1]

lemma everyStep_publisherLifetime (name namespace_ : List UInt8) (gid : Gid) :
    Transition.EveryStep (step N config) (EntityCall 0) (withNode config 0 name namespace_ gid)
      publisherLifetime := by
  refine ⟨⟨rfl, rfl⟩, fun t ht => ⟨?_, fun _ _ => trivial⟩⟩
  obtain ⟨txPackets, hstep⟩ := step_create N config
    (s := withNode config 0 name namespace_ gid) (Function.update_self ..)
    (by decide : ¬ ("/a" = "/discovery" ∨ "/a" = "/discovery_request")) .publisher 1
    (List.Vector.replicate _ 2) [0x6D] [0x54] .cpp 0
  obtain rfl := Except.ok.inj (hstep.symm.trans ht)
  exact ⟨rfl, ⟨"/a", List.Vector.replicate _ 2, [0x6D], [0x54], .create config "/a" .cpp 0
    .publisher⟩, rfl, rfl⟩

/-- With discovery configured, no pointer to the publisher stays behind. -/
theorem registries_sound_publisherLifetime : ∃ t nd,
    Transition.run (step NanoCbor.rfc8949 (.loadConfiguration [("/a", 3), ("/discovery", 1)]))
      initial (.createNode 0 [0x6E] [0x2F] (List.Vector.replicate _ 1) :: publisherLifetime)
        = .ok t ∧
    t.nodes 0 = some nd ∧
    Registered (.loadConfiguration [("/a", 3), ("/discovery", 1)]) t.entities nd.pointers ∧
    ∃ packets, nd.publishAllBeacons NanoCbor.rfc8949 t.entities = .ok packets := by
  refine (registries_sound_iff (everyStep_publisherLifetime _ _ _)).mpr ?_ publisherLifetime
    List.prefix_rfl
  exact ⟨trivial, fun _ _ => ⟨fun _ _ _ => (by decide : (1 : UInt8) ≠ 0), fun _ _ => trivial⟩⟩

/-- Without `/discovery`, the destroyed publisher stays registered, and the node reads it when
it answers a request. -/
theorem destroyed_publisher_stays : ∃ t nd,
    Transition.run (step NanoCbor.rfc8949
        (.loadConfiguration [("/a", 3), ("/discovery_request", 2)])) initial
      (.createNode 0 [0x6E] [0x2F] (List.Vector.replicate _ 1) :: publisherLifetime) = .ok t ∧
    t.nodes 0 = some nd ∧ nd.pointers .publisher = [1] ∧ (t.entities 1).isNone ∧
    nd.publishAllBeacons NanoCbor.rfc8949 t.entities = .error .dangling ∧
    Transition.run (step NanoCbor.rfc8949
        (.loadConfiguration [("/a", 3), ("/discovery_request", 2)])) t
      [.interpret 4 [[0x00, 0x02]], .discoveryRequest 0] = .error .dangling :=
  ⟨_, _, rfl, rfl, rfl, rfl, rfl, rfl⟩

end Middleware
end RmwDesert
