/-
Discovery between processes (`Discovery.cpp`, `DesertNode.cpp`, `rmw.cpp`).

The packets that processes send under `/discovery` are those of their beacons (`Wire`).  A
process that starts to listen asks for announcements, and every node answers with a round.
Once this has happened, the thread has heard of every entity, and in any state in which its
queue is empty the queries report the entities of all processes, whatever the order in which
the packets arrived (`graph_of_processes`).
-/
import RmwDesert.Discovery.Announcers
import RmwDesert.Dispatch

namespace RmwDesert

open InterpretPackets TcpDaemon Discovery

/-! ## Beacons on the wire -/

/-- The stream of the discovery thread. -/
def Discovery.beaconStream (config : TopicsConfig) : RxStream :=
  .create subscriberType (config.getTopicIdentifier "/discovery")

namespace Middleware

/-- The packets that reach the stream of a discovery thread are those of the beacons. -/
def Wire (N : NanoCbor) (config : TopicsConfig) (packets : List Packet) (log : List Beacon) :
    Prop :=
  ∃ sent, List.Forall₂ (Transmission.Enqueues N) sent packets ∧ (∀ t ∈ sent, t.Typed) ∧
    (sent.filter (·.Matches (beaconStream config))).map Transmission.body = log.map beaconFields

/-- The beacons of an operation fit in packets. -/
def Framed (N : NanoCbor) (config : TopicsConfig) (s : Middleware) (event : Event) : Prop :=
  ∀ b ∈ beacons config s event,
    Fits N (.create publisherType (config.getTopicIdentifier "/discovery")) b

instance (N : NanoCbor) (config : TopicsConfig) (s : Middleware) (event : Event) :
    Decidable (Framed N config s event) :=
  inferInstanceAs (Decidable (∀ b ∈ beacons config s event, _))

variable {N : NanoCbor} {config : TopicsConfig} {owner : ℕ → ℕ} {s t u : Middleware}
  {log : List Beacon}

lemma wire_nil : Wire N config [] [] := ⟨[], .nil, nofun, rfl⟩

lemma Wire.append {packets packets' : List Packet} {log' : List Beacon}
    (h : Wire N config packets log) (h' : Wire N config packets' log') :
    Wire N config (packets ++ packets') (log ++ log') := by
  obtain ⟨sent, hsent, htyped, hlog⟩ := h
  obtain ⟨sent', hsent', htyped', hlog'⟩ := h'
  refine ⟨sent ++ sent', List.rel_append hsent hsent',
    fun t ht => (List.mem_append.mp ht).elim (htyped t) (htyped' t), ?_⟩
  rw [List.filter_append, List.map_append, List.map_append, hlog, hlog']

/-- A packet with another name does not reach the stream. -/
lemma Sends.wire (hunique : ∀ name, config.getTopicIdentifier name
      = config.getTopicIdentifier "/discovery" → name = "/discovery") {name : String}
    (hname : name ≠ "/discovery") {packet? : Option Packet}
    (h : ∀ packet, packet? = some packet → Sends N config name packet) :
    Wire N config [packet?].reduceOption [] := by
  cases packet? with
  | none => exact wire_nil
  | some packet =>
    obtain ⟨t, htyped, hsent, hidentifier⟩ := (h packet rfl).transmission
    refine ⟨[t], .cons hsent .nil, List.forall_mem_singleton.mpr htyped, ?_⟩
    have hmatches : ¬ t.Matches (beaconStream config) := by
      rintro ⟨-, hsame⟩
      exact hname (hunique name (hidentifier.symm.trans hsame.symm))
    simp [hmatches]

/-- The packets of beacons. -/
lemma wire_beacons {stream : TxStream} (hstream : stream.Named config publisherType "/discovery")
    {bs : List Beacon} (hfits : ∀ b ∈ bs,
      Fits N (.create publisherType (config.getTopicIdentifier "/discovery")) b) :
    Wire N config (bs.map (sendDiscoveryBeacon N stream)).reduceOption bs := by
  induction bs with
  | nil => exact wire_nil
  | cons b bs ih =>
    have hfit : (N.encode (stream.header none ++ beaconFields b)).length ≤ maxPacketLength := by
      have hb := hfits b List.mem_cons_self
      rw [TxStream.header, hstream.1, hstream.2]
      exact hb
    have hsent : sendDiscoveryBeacon N stream b
        = some (N.encode (stream.header none ++ beaconFields b)) := by
      rw [sendDiscoveryBeacon, TxStream.transmit_eq, if_pos hfit]
    have hone : Wire N config [N.encode (stream.header none ++ beaconFields b)] [b] := by
      refine ⟨[⟨stream, none, beaconFields b⟩], .cons ⟨streamed_beaconFields b, hsent⟩ .nil,
        List.forall_mem_singleton.mpr (Or.inl hstream.1), ?_⟩
      have hmatches : (⟨stream, none, beaconFields b⟩ : Transmission).Matches
          (beaconStream config) := by
        refine ⟨?_, hstream.2.symm⟩
        show streamTypeMatchMap stream.streamType = some subscriberType
        rw [hstream.1]
        rfl
      rw [List.filter_cons_of_pos (by simpa using hmatches)]
      rfl
    rw [List.map_cons, hsent]
    exact hone.append (ih fun b hb => hfits b (List.mem_cons_of_mem _ hb))

/-- The packets of a step. -/
lemma Announcing.wire (h : Announcing config owner s log)
    (hdiscovery : config.getTopicIdentifier "/discovery" ≠ 0)
    (hrequest : config.getTopicIdentifier "/discovery_request" ≠ 0)
    (hunique : ∀ name, config.getTopicIdentifier name
      = config.getTopicIdentifier "/discovery" → name = "/discovery") {event : Event}
    {packets : List (Option Packet)} (hframed : Framed N config s event)
    (heffect : effect N config s event = .ok (t, packets)) :
    Wire N config packets.reduceOption (beacons config s event) := by
  have hentity : ∀ {pointer e}, s.entities pointer = some e → ∀ {packet?},
      (∀ packet, packet? = some packet → e.endpoint.Sends N packet) →
      Wire N config [packet?].reduceOption [] := by
    intro pointer e he packet? hsends
    exact Sends.wire hunique (h.unreserved he) fun packet hpacket =>
      .entity (h.named.entities he) (hsends packet hpacket)
  cases event with
  | init =>
    obtain ⟨rfl, rfl⟩ := Prod.mk.inj (Except.ok.inj heffect)
    have hname : "/discovery_request" ≠ "/discovery" := by decide
    exact Sends.wire hunique hname fun packet hpacket => .request ⟨rfl, rfl⟩ hpacket
  | createNode node name namespace_ gid | destroyNode node =>
    obtain ⟨rfl, rfl⟩ := Prod.mk.inj (Except.ok.inj heffect)
    exact wire_nil
  | create kind node pointer name gid messageNamespace messageName language sequenceId =>
    rw [effect] at heffect
    rw [Framed, beacons] at hframed
    rw [beacons]
    split_ifs at heffect with hreserved
    · obtain ⟨rfl, rfl⟩ := Prod.mk.inj (Except.ok.inj heffect)
      rw [if_pos (by tauto)]
      exact wire_nil
    · obtain ⟨nd, hnd, heffect⟩ := Transition.bind_eq_ok.mp heffect
      obtain ⟨rfl, rfl⟩ := Prod.mk.inj (Except.ok.inj heffect)
      have hnd := deref_eq_ok hnd
      show Wire N config [(add N config kind pointer _ nd).2].reduceOption _
      rw [add_eq, DesertNode.addEntity]
      rw [hnd] at hframed ⊢
      by_cases hname : config.getTopicIdentifier name = 0
      · rw [if_pos hname, if_pos (Or.inr (Or.inr hname))]
        exact wire_nil
      · rw [if_neg (by tauto)] at hframed
        rw [if_neg hname, if_neg hdiscovery, if_neg (by tauto)]
        exact wire_beacons (h.named.nodes hnd).beacon hframed
  | destroy kind node pointer =>
    obtain ⟨nd, hnd, heffect⟩ := Transition.bind_eq_ok.mp heffect
    obtain ⟨e, he, heffect⟩ := Transition.bind_eq_ok.mp heffect
    obtain ⟨rfl, rfl⟩ := Prod.mk.inj (Except.ok.inj heffect)
    have hnd := deref_eq_ok hnd
    have he := deref_eq_ok he
    rw [Framed, beacons, hnd, he] at hframed
    show Wire N config [(remove N config kind pointer e nd).2].reduceOption _
    rw [beacons, hnd, he, remove_eq, DesertNode.removeEntity]
    simp only at hframed ⊢
    by_cases hname : config.getTopicIdentifier e.name = 0
    · rw [if_pos hname, if_pos hname]
      exact wire_nil
    · rw [if_neg hname] at hframed
      rw [if_neg hname, if_neg hname, if_neg hdiscovery]
      exact wire_beacons (h.named.nodes hnd).beacon hframed
  | publish pointer msg =>
    obtain ⟨e, he, heffect⟩ := Transition.bind_eq_ok.mp heffect
    split at heffect
    · rename_i p hendpoint
      obtain ⟨packet, hpush, heffect⟩ := Transition.bind_eq_ok.mp heffect
      obtain ⟨rfl, rfl⟩ := Prod.mk.inj (Except.ok.inj heffect)
      refine hentity (deref_eq_ok he) ?_
      rintro packet rfl
      rw [hendpoint]
      exact .push hpush
    · cases heffect
  | sendRequest pointer req sequenceId =>
    obtain ⟨e, he, heffect⟩ := Transition.bind_eq_ok.mp heffect
    split at heffect
    · rename_i c hendpoint
      obtain ⟨packet, hsend, heffect⟩ := Transition.bind_eq_ok.mp heffect
      obtain ⟨rfl, rfl⟩ := Prod.mk.inj (Except.ok.inj heffect)
      refine hentity (deref_eq_ok he) ?_
      rintro packet rfl
      rw [hendpoint]
      exact .sendRequest hsend
    · cases heffect
  | takeRequest pointer initial req =>
    obtain ⟨e, he, heffect⟩ := Transition.bind_eq_ok.mp heffect
    split at heffect
    · obtain ⟨c', -, heffect⟩ := Transition.bind_eq_ok.mp heffect
      obtain ⟨rfl, rfl⟩ := Prod.mk.inj (Except.ok.inj heffect)
      exact wire_nil
    · cases heffect
  | sendResponse pointer res sequenceNumber =>
    obtain ⟨e, he, heffect⟩ := Transition.bind_eq_ok.mp heffect
    split at heffect
    · rename_i c hendpoint
      obtain ⟨packet, hsend, heffect⟩ := Transition.bind_eq_ok.mp heffect
      obtain ⟨rfl, rfl⟩ := Prod.mk.inj (Except.ok.inj heffect)
      refine hentity (deref_eq_ok he) ?_
      rintro packet rfl
      rw [hendpoint]
      exact .sendResponse hsend
    · cases heffect
  | interpret fuel arrived =>
    obtain ⟨⟨ds, rest⟩, -, heffect⟩ := Transition.bind_eq_ok.mp heffect
    obtain ⟨rfl, rfl⟩ := Prod.mk.inj (Except.ok.inj heffect)
    exact wire_nil
  | discoveryRequest node =>
    rw [effect, if_neg hrequest] at heffect
    obtain ⟨nd, hnd, heffect⟩ := Transition.bind_eq_ok.mp heffect
    obtain ⟨⟨nd', packets'⟩, hturn, heffect⟩ := Transition.bind_eq_ok.mp heffect
    obtain ⟨rfl, rfl⟩ := Prod.mk.inj (Except.ok.inj heffect)
    have hnd := deref_eq_ok hnd
    obtain ⟨-, -, rfl⟩ := discoveryRequest_ok hturn
    rw [Framed, beacons, hnd] at hframed
    rw [beacons, hnd]
    simp only [Option.toList_some, List.flatMap_cons, List.flatMap_nil, List.append_nil]
      at hframed ⊢
    exact wire_beacons (h.named.nodes hnd).beacon hframed

/-! ## Runs of a process -/

/-- The beacons of a run. -/
def logOf (N : NanoCbor) (config : TopicsConfig) : Middleware → List Event → List Beacon
  | _, [] => []
  | s, event :: events => beacons config s event ++
      match step N config s event with
      | .ok t => logOf N config t events
      | .error _ => []

lemma logOf_cons {event : Event} (h : step N config s event = .ok t) (events : List Event) :
    logOf N config s (event :: events) = beacons config s event ++ logOf N config t events := by
  rw [logOf, h]

/-- The invariant of a run. -/
lemma Announcing.run (hN : N.Lawful) (hcompact : N.Compact)
    (hdiscovery : config.getTopicIdentifier "/discovery" ≠ 0)
    (hrequest : config.getTopicIdentifier "/discovery_request" ≠ 0)
    (hunique : ∀ name, config.getTopicIdentifier name
      = config.getTopicIdentifier "/discovery" → name = "/discovery") {events : List Event}
    (h : Announcing config owner s log) {used : List Gid} (hused : ∀ b ∈ log, b.entityGid ∈ used)
    (hgids : (used ++ events.flatMap drawn).Nodup)
    (hproper : Transition.EveryStep (Middleware.step N config)
      (fun s event => Proper config s event ∧ Framed N config s event) s events)
    (hrun : Transition.run (Middleware.step N config) s events = .ok t) :
    ∃ owner' packets, Announcing config owner' t (log ++ logOf N config s events) ∧
      (∀ b ∈ log ++ logOf N config s events, b.entityGid ∈ used ++ events.flatMap drawn) ∧
      t.txPackets = s.txPackets ++ packets ∧ Wire N config packets (logOf N config s events) := by
  induction events generalizing s owner log used with
  | nil =>
    obtain rfl := Except.ok.inj hrun
    refine ⟨owner, [], ?_, ?_, (List.append_nil _).symm, wire_nil⟩
    · rwa [logOf, List.append_nil]
    · simpa [logOf] using hused
  | cons event events ih =>
    obtain ⟨u, hstep, hrun⟩ := Transition.run_cons hrun
    obtain ⟨⟨hok, hframed⟩, hproper⟩ := (Transition.everyStep_cons hstep).mp hproper
    obtain ⟨⟨u', packets⟩, heffect, hu⟩ := Transition.bind_eq_ok.mp hstep
    obtain rfl := Except.ok.inj hu
    rw [List.flatMap_cons, ← List.append_assoc] at hgids
    -- the identifier of a new entity was not used before
    have hnew : ∀ gid ∈ drawn event, ∀ b ∈ log, b.entityGid ≠ gid := by
      rintro gid hgid b hb rfl
      exact (List.nodup_append.mp (List.nodup_append.mp hgids).1).2.2 _ (hused b hb) _ hgid rfl
    obtain ⟨owner', hu⟩ := h.step hN hcompact hdiscovery hrequest hok hnew heffect
    have hused' : ∀ b ∈ log ++ beacons config s event, b.entityGid ∈ used ++ drawn event := by
      intro b hb
      rcases List.mem_append.mp hb with hb | hb
      · exact List.mem_append_left _ (hused b hb)
      · rcases h.gid_mem hok hb with hdrawn | ⟨x, hx, hgid⟩
        · exact List.mem_append_right _ hdrawn
        · exact List.mem_append_left _ (hgid ▸ hused x hx)
    have hu' : Announcing config owner'
        { u' with txPackets := s.txPackets ++ packets.reduceOption }
        (log ++ beacons config s event) :=
      ⟨⟨hu.named.nodes, hu.named.entities⟩, hu.registered, hu.exists_node, hu.unreserved,
        hu.announces⟩
    obtain ⟨owner'', packets', ht, hgid, htx, hwire⟩ := ih hu' hused' hgids hproper hrun
    refine ⟨owner'', packets.reduceOption ++ packets', ?_, ?_, ?_, ?_⟩
    · rwa [logOf_cons hstep, ← List.append_assoc]
    · rwa [logOf_cons hstep, ← List.append_assoc, List.flatMap_cons, ← List.append_assoc]
    · rw [htx, List.append_assoc]
    · rw [logOf_cons hstep]
      exact (h.wire hdiscovery hrequest hunique hframed heffect).append hwire

/-! ### Answers -/

/-- A node lists a configured entity, and announces it in this way. -/
def Listed (config : TopicsConfig) (s : Middleware) (node pointer : ℕ) (x : Beacon) : Prop :=
  ∃ nd kind e, s.nodes node = some nd ∧ pointer ∈ nd.pointers kind ∧
    s.entities pointer = some e ∧ config.getTopicIdentifier e.name ≠ 0 ∧ nd.announcement kind e = x

/-- In the course of the events, the node answers a request. -/
def Answers (N : NanoCbor) (config : TopicsConfig) (s : Middleware) (events : List Event)
    (node : ℕ) : Prop :=
  ∃ first rest u nd, events = first ++ .discoveryRequest node :: rest ∧
    Transition.run (step N config) s first = .ok u ∧ u.nodes node = some nd ∧ nd.Requested

lemma announcement_congr {nd nd' : DesertNode} {e e' : Entity} (hnd : nd'.identity = nd.identity)
    (he : e'.identity = e.identity) (kind : EntityKind) :
    nd'.announcement kind e' = nd.announcement kind e := by
  simp only [DesertNode.identity, Prod.mk.injEq] at hnd
  simp only [Entity.identity, Prod.mk.injEq] at he
  simp only [DesertNode.announcement, DesertNode.beacon, Entity.getTypeName, he.1, he.2.1,
    he.2.2.1, he.2.2.2.1, hnd.1, hnd.2]

/-- An operation that keeps the names, the identifiers and the lists. -/
lemma Listed.congr {node pointer : ℕ} {x : Beacon} (h : Listed config s node pointer x)
    (hnodes : ∀ nd, s.nodes node = some nd → ∃ nd', t.nodes node = some nd' ∧
      nd'.identity = nd.identity ∧ ∀ kind, pointer ∈ nd.pointers kind → pointer ∈ nd'.pointers kind)
    (hentities : (t.entities pointer).map Entity.identity
      = (s.entities pointer).map Entity.identity) : Listed config t node pointer x := by
  obtain ⟨nd, kind, e, hnd, hpointer, he, hname, rfl⟩ := h
  obtain ⟨nd', hnd', hidentity, hpointers⟩ := hnodes nd hnd
  rcases map_eq_map hentities with ⟨-, hnone⟩ | ⟨e', e₀, he', he₀, heq⟩
  · rw [hnone] at he
    cases he
  · obtain rfl := Option.some.inj (he₀.symm.trans he)
    refine ⟨nd', kind, e', hnd', hpointers kind hpointer, he', ?_,
      announcement_congr hidentity heq kind⟩
    simp only [Entity.identity, Prod.mk.injEq] at heq
    rwa [heq.1]

/-- A listed entity stays listed until a beacon about it is sent. -/
lemma Listed.step {node pointer : ℕ} {x : Beacon} (h : Listed config s node pointer x)
    {event : Event} {packets : List (Option Packet)} (hproper : Proper config s event)
    (heffect : effect N config s event = .ok (t, packets)) :
    (∃ b ∈ beacons config s event, b.entityGid = x.entityGid) ∨ Listed config t node pointer x := by
  obtain ⟨nd, kind, e, hnd, hpointer, he, hname, rfl⟩ := id h
  cases event with
  | init =>
    obtain ⟨rfl, rfl⟩ := Prod.mk.inj (Except.ok.inj heffect)
    exact Or.inr h
  | createNode n name namespace_ gid =>
    obtain ⟨rfl, rfl⟩ := Prod.mk.inj (Except.ok.inj heffect)
    have hne : node ≠ n := by
      rintro rfl
      rw [show s.nodes node = none from hproper] at hnd
      cases hnd
    exact Or.inr ⟨nd, kind, e, (Function.update_of_ne hne ..).trans hnd, hpointer, he, hname, rfl⟩
  | destroyNode n =>
    obtain ⟨rfl, rfl⟩ := Prod.mk.inj (Except.ok.inj heffect)
    have hne : node ≠ n := by
      rintro rfl
      rw [hproper nd hnd kind] at hpointer
      cases hpointer
    exact Or.inr ⟨nd, kind, e, (Function.update_of_ne hne ..).trans hnd, hpointer, he, hname, rfl⟩
  | create kind' n q name gid messageNamespace messageName language sequenceId =>
    rw [effect] at heffect
    split_ifs at heffect with hreserved
    · obtain ⟨rfl, rfl⟩ := Prod.mk.inj (Except.ok.inj heffect)
      exact Or.inr h
    · obtain ⟨nd₀, hnd₀, heffect⟩ := Transition.bind_eq_ok.mp heffect
      obtain ⟨rfl, rfl⟩ := Prod.mk.inj (Except.ok.inj heffect)
      have hq : pointer ≠ q := by
        rintro rfl
        rw [hproper.1] at he
        cases he
      refine Or.inr (h.congr (fun nd hnd => ?_) ?_)
      · by_cases hn : node = n
        · subst hn
          obtain rfl := Option.some.inj (hnd.symm.trans (deref_eq_ok hnd₀))
          refine ⟨_, Function.update_self .., ?_, fun kind hmem => ?_⟩
          · show (add N config kind' q _ nd).1.identity = _
            rw [add_eq, DesertNode.addEntity]
            split_ifs <;> rfl
          · show pointer ∈ (add N config kind' q _ nd).1.pointers kind
            rw [pointers_add]
            split_ifs
            · exact hmem
            · by_cases hkind : kind = kind'
              · subst hkind
                rw [Function.update_self]
                exact List.mem_append_left _ hmem
              · rwa [Function.update_of_ne hkind]
        · exact ⟨nd, (Function.update_of_ne hn ..).trans hnd, rfl, fun _ => id⟩
      · show (Function.update s.entities q _ pointer).map _ = _
        rw [Function.update_of_ne hq]
  | destroy kind' n q =>
    obtain ⟨nd₀, hnd₀, heffect⟩ := Transition.bind_eq_ok.mp heffect
    obtain ⟨e₀, he₀, heffect⟩ := Transition.bind_eq_ok.mp heffect
    obtain ⟨rfl, rfl⟩ := Prod.mk.inj (Except.ok.inj heffect)
    have hnd₀ := deref_eq_ok hnd₀
    have he₀ := deref_eq_ok he₀
    by_cases hq : pointer = q
    · -- the entity itself disconnects
      subst hq
      obtain rfl := Option.some.inj (he.symm.trans he₀)
      refine Or.inl ⟨nd₀.beacon kind' e.gid [] [] true, ?_, rfl⟩
      simp only [beacons, hnd₀, he₀, if_neg hname, List.mem_singleton]
    · refine Or.inr (h.congr (fun nd hnd => ?_) ?_)
      · by_cases hn : node = n
        · subst hn
          obtain rfl := Option.some.inj (hnd.symm.trans hnd₀)
          refine ⟨_, Function.update_self .., ?_, fun kind hmem => ?_⟩
          · show (remove N config kind' q e₀ nd).1.identity = _
            rw [remove_eq, DesertNode.removeEntity]
            split_ifs <;> rfl
          · show pointer ∈ (remove N config kind' q e₀ nd).1.pointers kind
            rw [pointers_remove]
            split_ifs
            · exact hmem
            · exact hmem
            · by_cases hkind : kind = kind'
              · subst hkind
                rw [Function.update_self]
                exact (List.mem_erase_of_ne hq).mpr hmem
              · rwa [Function.update_of_ne hkind]
        · exact ⟨nd, (Function.update_of_ne hn ..).trans hnd, rfl, fun _ => id⟩
      · show (Function.update s.entities q _ pointer).map _ = _
        rw [Function.update_of_ne hq]
  | publish q msg =>
    obtain ⟨e₀, he₀, heffect⟩ := Transition.bind_eq_ok.mp heffect
    split at heffect
    · obtain ⟨packet, -, heffect⟩ := Transition.bind_eq_ok.mp heffect
      obtain ⟨rfl, rfl⟩ := Prod.mk.inj (Except.ok.inj heffect)
      exact Or.inr h
    · cases heffect
  | sendRequest q req sequenceId =>
    obtain ⟨e₀, he₀, heffect⟩ := Transition.bind_eq_ok.mp heffect
    split at heffect
    · rename_i c hendpoint
      obtain ⟨packet, -, heffect⟩ := Transition.bind_eq_ok.mp heffect
      obtain ⟨rfl, rfl⟩ := Prod.mk.inj (Except.ok.inj heffect)
      refine Or.inr (h.congr (fun nd hnd => ⟨nd, hnd, rfl, fun _ => id⟩)
        (map_update_entity (deref_eq_ok he₀) ?_ pointer))
      simp only [Entity.identity, hendpoint, Endpoint.kind]
    · cases heffect
  | takeRequest q initial req =>
    obtain ⟨e₀, he₀, heffect⟩ := Transition.bind_eq_ok.mp heffect
    split at heffect
    · rename_i c hendpoint
      obtain ⟨c', -, heffect⟩ := Transition.bind_eq_ok.mp heffect
      obtain ⟨rfl, rfl⟩ := Prod.mk.inj (Except.ok.inj heffect)
      refine Or.inr (h.congr (fun nd hnd => ⟨nd, hnd, rfl, fun _ => id⟩)
        (map_update_entity (deref_eq_ok he₀) ?_ pointer))
      simp only [Entity.identity, hendpoint, Endpoint.kind]
    · cases heffect
  | sendResponse q res sequenceNumber =>
    obtain ⟨e₀, he₀, heffect⟩ := Transition.bind_eq_ok.mp heffect
    split at heffect
    · obtain ⟨packet, -, heffect⟩ := Transition.bind_eq_ok.mp heffect
      obtain ⟨rfl, rfl⟩ := Prod.mk.inj (Except.ok.inj heffect)
      exact Or.inr h
    · cases heffect
  | interpret fuel arrived =>
    obtain ⟨⟨ds, rest⟩, -, heffect⟩ := Transition.bind_eq_ok.mp heffect
    obtain ⟨rfl, rfl⟩ := Prod.mk.inj (Except.ok.inj heffect)
    refine Or.inr (h.congr (fun nd hnd => ?_) ?_)
    · exact ⟨_, congrArg (Option.map _) hnd, rfl, fun _ => id⟩
    · rw [Option.map_map]
      refine congrArg₂ Option.map (funext fun e => ?_) rfl
      exact identity_mapStream e _
  | discoveryRequest n =>
    rw [effect] at heffect
    split_ifs at heffect with hthread
    · obtain ⟨rfl, rfl⟩ := Prod.mk.inj (Except.ok.inj heffect)
      exact Or.inr h
    · obtain ⟨nd₀, hnd₀, heffect⟩ := Transition.bind_eq_ok.mp heffect
      obtain ⟨⟨nd', packets'⟩, hturn, heffect⟩ := Transition.bind_eq_ok.mp heffect
      obtain ⟨rfl, rfl⟩ := Prod.mk.inj (Except.ok.inj heffect)
      obtain ⟨hidentity, hpointers, -⟩ := discoveryRequest_ok hturn
      refine Or.inr (h.congr (fun nd hnd => ?_) rfl)
      by_cases hn : node = n
      · subst hn
        obtain rfl := Option.some.inj (hnd.symm.trans (deref_eq_ok hnd₀))
        refine ⟨nd', Function.update_self .., hidentity, fun kind hmem => ?_⟩
        rwa [hpointers]
      · exact ⟨nd, (Function.update_of_ne hn ..).trans hnd, rfl, fun _ => id⟩

/-- A node that answers a request announces what it lists. -/
lemma Listed.announced {node pointer : ℕ} {x : Beacon} {events : List Event}
    (h : Listed config s node pointer x)
    (hproper : Transition.EveryStep (Middleware.step N config) (Proper config) s events)
    (hanswers : Answers N config s events node) :
    ∃ b ∈ logOf N config s events, b.entityGid = x.entityGid := by
  obtain ⟨first, rest, u, nd, rfl, hrun, hnd, hrequested⟩ := hanswers
  induction first generalizing s with
  | nil =>
    obtain rfl := Except.ok.inj hrun
    obtain ⟨nd', kind, e, hnd', hpointer, he, -, rfl⟩ := h
    obtain rfl := Option.some.inj (hnd.symm.trans hnd')
    refine ⟨nd.announcement kind e, List.mem_append_left _ ?_, rfl⟩
    rw [beacons, hnd]
    simp only [Option.toList_some, List.flatMap_cons, List.flatMap_nil, List.append_nil,
      if_pos hrequested]
    exact DesertNode.mem_round.mpr ⟨kind, pointer, hpointer, e, he, rfl⟩
  | cons event first ih =>
    obtain ⟨v, hstep, hrun⟩ := Transition.run_cons hrun
    rw [List.cons_append] at hproper ⊢
    obtain ⟨hok, hproper⟩ := (Transition.everyStep_cons hstep).mp hproper
    obtain ⟨⟨v', packets⟩, heffect, hv⟩ := Transition.bind_eq_ok.mp hstep
    obtain rfl := Except.ok.inj hv
    rw [logOf_cons hstep]
    rcases h.step hok heffect with ⟨b, hb, hgid⟩ | hlisted
    · exact ⟨b, List.mem_append_left _ hb, hgid⟩
    · obtain ⟨b, hb, hgid⟩ := ih (s := { v' with txPackets := s.txPackets ++ packets.reduceOption })
        hlisted hproper hrun
      exact ⟨b, List.mem_append_right _ hb, hgid⟩

/-! ## Participants -/

/-- A process in which the calls are proper, before and after another one starts to listen.  The
identifiers that `generate_gid` draws differ, the beacons fit in packets, and the nodes that are
there when the other process starts to listen answer a request. -/
structure Participant (N : NanoCbor) (config : TopicsConfig) where
  before : List Event
  after : List Event
  start : Middleware
  final : Middleware
  run_before : Transition.run (step N config) initial before = .ok start
  run_after : Transition.run (step N config) start after = .ok final
  proper_before : Transition.EveryStep (step N config)
    (fun s event => Proper config s event ∧ Framed N config s event) initial before
  proper_after : Transition.EveryStep (step N config)
    (fun s event => Proper config s event ∧ Framed N config s event) start after
  nodup : (before.flatMap drawn ++ after.flatMap drawn).Nodup
  answers : ∀ node nd, start.nodes node = some nd → Answers N config start after node

namespace Participant

variable (p : Participant N config)

/-- The identifiers of its entities. -/
def gids : List Gid := p.before.flatMap drawn ++ p.after.flatMap drawn

/-- The packets that it sends while the other process listens. -/
def heard : List Packet := p.final.txPackets.drop p.start.txPackets.length

end Participant

/-- A beacon describes an entity. -/
structure Describes (e : Entity) (x : Beacon) : Prop where
  kind : IsKind e.endpoint.kind x
  gid : x.entityGid = e.gid
  topic : x.topicName = e.name.toUTF8.data.toList
  type : x.typeName = e.getTypeName

/-- A configured entity lives in the process. -/
def Lives (config : TopicsConfig) (s : Middleware) (x : Beacon) : Prop :=
  ∃ pointer e, s.entities pointer = some e ∧ config.getTopicIdentifier e.name ≠ 0 ∧ Describes e x

/-- What is announced lives, and what lives is announced. -/
lemma lives_of_liveEntities {pointer : ℕ} {x : Beacon}
    (hx : liveEntities config owner s pointer = some x) : Lives config s x := by
  rw [liveEntities] at hx
  obtain ⟨e, he, hx⟩ := Option.bind_eq_some_iff.mp hx
  obtain ⟨nd, hnd, hx⟩ := Option.bind_eq_some_iff.mp hx
  split_ifs at hx with hname
  obtain rfl := Option.some.inj hx
  exact ⟨pointer, e, he, hname, rfl, rfl, rfl, rfl⟩

lemma Announcing.exists_liveEntities (h : Announcing config owner s log) {x : Beacon}
    (hx : Lives config s x) : ∃ pointer y, liveEntities config owner s pointer = some y ∧
      y.entityType = x.entityType ∧ y.entityGid = x.entityGid ∧ y.topicName = x.topicName ∧
      y.typeName = x.typeName := by
  obtain ⟨pointer, e, he, hname, hdescribes⟩ := hx
  obtain ⟨nd, hnd⟩ := h.exists_node he hname
  refine ⟨pointer, nd.announcement e.endpoint.kind e, ?_, hdescribes.kind.symm,
    hdescribes.gid.symm, hdescribes.topic.symm, hdescribes.type.symm⟩
  rw [liveEntities, he, Option.bind_some, hnd, Option.bind_some, if_neg hname]

/-- What is announced is listed. -/
lemma Announcing.listed (h : Announcing config owner s log) {pointer : ℕ} {x : Beacon}
    (hx : liveEntities config owner s pointer = some x) :
    Listed config s (owner pointer) pointer x := by
  rw [liveEntities] at hx
  obtain ⟨e, he, hx⟩ := Option.bind_eq_some_iff.mp hx
  obtain ⟨nd, hnd, hx⟩ := Option.bind_eq_some_iff.mp hx
  split_ifs at hx with hname
  have hpointer : pointer ∈ nd.pointers e.endpoint.kind :=
    ((h.registered hnd).mem_iff _ _).mpr ⟨e, (if_pos rfl).trans he, rfl, hname⟩
  exact ⟨nd, e.endpoint.kind, e, hnd, hpointer, he, hname, Option.some.inj hx⟩

/-- What a process sends while the other one listens. -/
lemma Participant.spec (p : Participant N config) (hN : N.Lawful) (hcompact : N.Compact)
    (hdiscovery : config.getTopicIdentifier "/discovery" ≠ 0)
    (hrequest : config.getTopicIdentifier "/discovery_request" ≠ 0)
    (hunique : ∀ name, config.getTopicIdentifier name
      = config.getTopicIdentifier "/discovery" → name = "/discovery") :
    ∃ log, Wire N config p.heard log ∧ Consistent log ∧ (∀ b ∈ log, b.entityGid ∈ p.gids) ∧
      (∀ x, Live log x → Lives config p.final x) ∧
      ∀ x, Lives config p.final x → ∃ y, Live log y ∧ y.entityType = x.entityType ∧
        y.entityGid = x.entityGid ∧ y.topicName = x.topicName ∧ y.typeName = x.typeName := by
  have hinitial : Announcing config id initial [] :=
    ⟨inv_initial config, nofun, nofun, nofun, .nil⟩
  have hunused : ∀ b ∈ ([] : List Beacon), b.entityGid ∈ ([] : List Gid) := nofun
  have hnodup := List.nodup_append.mp p.nodup
  obtain ⟨owner, packets, hstart, hused, htx, -⟩ := hinitial.run hN hcompact hdiscovery hrequest
    hunique hunused hnodup.1 p.proper_before p.run_before
  rw [List.nil_append] at hstart hused
  obtain ⟨owner', packets', hfinal, hgids, htx', hwire⟩ := hstart.run hN hcompact hdiscovery
    hrequest hunique hused p.nodup p.proper_after p.run_after
  generalize hlog : logOf N config initial p.before = log at hstart hfinal hused hgids
  have hheard : p.heard = packets' := by
    rw [Participant.heard, htx', List.drop_left]
  have hlive : ∀ x, Live (logOf N config p.start p.after) x ↔
      ∃ pointer, liveEntities config owner' p.final pointer = some x := by
    intro x
    rw [← hfinal.announces.live_iff, Live, Live, Merge.lastWith_append]
    cases hlast : Merge.lastWith Beacon.entityGid x.entityGid (logOf N config p.start p.after) with
    | some y => rfl
    | none =>
      -- an entity that was announced before is announced again
      refine iff_of_false (fun h => by cases h.1) fun h => ?_
      obtain ⟨pointer, hpointer⟩ := (hstart.announces.live_iff x).mp h
      have hlisted := hstart.listed hpointer
      obtain ⟨nd, -, -, hnd, -⟩ := id hlisted
      obtain ⟨b, hb, hgid⟩ := hlisted.announced
        (Transition.everyStep_of_invariant (I := fun _ => True) (fun _ _ _ => trivial)
          (fun _ h => h.1) trivial p.proper_after) (p.answers _ nd hnd)
      exact Merge.lastWith_eq_none.mp hlast b hb hgid
  refine ⟨logOf N config p.start p.after, hheard ▸ hwire,
    hfinal.announces.consistent.of_subset (List.subset_append_right _ _),
    fun b hb => hgids b (List.mem_append_right _ hb), fun x hx => ?_, fun x hx => ?_⟩
  · obtain ⟨pointer, hpointer⟩ := (hlive x).mp hx
    exact lives_of_liveEntities hpointer
  · obtain ⟨pointer, y, hy, hsame⟩ := hfinal.exists_liveEntities hx
    exact ⟨y, (hlive y).mpr ⟨pointer, hy⟩, hsame⟩

end Middleware
end RmwDesert
