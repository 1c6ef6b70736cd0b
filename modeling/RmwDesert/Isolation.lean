/-
The isolation of topics.

A packet carries the identifier of the name that it was sent under, and a stream takes the
packets of its own identifier.  Two names whose numbers are narrowed to the same identifier
share their packets (`narrowed_identifiers_collide`); the main result, `topic_isolation`, says
that otherwise a packet leaves no trace in the streams of other names.
-/
import RmwDesert.Entities

namespace RmwDesert

open InterpretPackets
open TcpDaemon (maxPacketLength)

variable {N : NanoCbor} {config : TopicsConfig}

namespace InterpretPackets

/-- A stream takes only the packets of its identifier. -/
lemma accepted_of_ne {s : RxStream} {d : Interpreted}
    (h : s.streamIdentifier ≠ d.streamIdentifier) : accepted s d = none :=
  if_neg fun hmatch => h hmatch.2

/-- A packet that is taken out of the queue changes nothing for the streams of other
identifiers. -/
lemma dispatched_without (hN : N.Lawful) {t : Transmission} {packet : Packet}
    (hsent : t.Enqueues N packet) {fuel : ℕ} {listening : Bool} {after : List Packet} :
    ∀ (before : List Packet) {ds : List Interpreted} {rest : List Packet},
    dispatched N config fuel listening (before ++ packet :: after) = .ok (ds, rest) →
    ∃ ds' rest', dispatched N config fuel listening (before ++ after) = .ok (ds', rest') ∧
      ∀ s : RxStream, s.streamIdentifier ≠ t.tx.streamIdentifier →
        ds.filterMap (accepted s) = ds'.filterMap (accepted s) := by
  intro before
  induction before with
  | nil =>
    intro ds rest h
    obtain ⟨d, hd, hnext⟩ := (dispatched_cons_eq_ok (hsent.ne_nil hN)).mp h
    rcases hnext with ⟨-, hnext⟩ | ⟨-, -, ds', rest', hnext, heq⟩
    · exact ⟨ds, rest, hnext, fun _ _ => rfl⟩
    · obtain ⟨rfl, rfl⟩ := Prod.mk.inj heq
      refine ⟨ds', rest, hnext, fun s hs => ?_⟩
      -- the packet is decoded to its transmission, whatever the number of turns
      have hsame := interpretItems_of_le (Nat.le_max_left fuel maxPacketLength) hd
      rw [hsent.interpretItems_eq hN
        ((hsent.length_le hN).trans (Nat.le_max_right fuel maxPacketLength))] at hsame
      obtain rfl := Except.ok.inj hsame
      rw [List.filterMap_cons, accepted_of_ne hs]
  | cons first before ih =>
    intro ds rest h
    rw [List.cons_append] at h ⊢
    by_cases hfirst : first = []
    · subst hfirst
      obtain ⟨rfl, -⟩ := Prod.mk.inj (Except.ok.inj h)
      exact ⟨[], _, rfl, fun _ _ => rfl⟩
    · obtain ⟨d, hd, hnext⟩ := (dispatched_cons_eq_ok hfirst).mp h
      rcases hnext with ⟨hname, hnext⟩ | ⟨hname, hknown, ds₁, rest₁, hnext, heq⟩
      · obtain ⟨ds', rest', hds', hsame⟩ := ih hnext
        exact ⟨ds', rest', (dispatched_cons_eq_ok hfirst).mpr ⟨d, hd, Or.inl ⟨hname, hds'⟩⟩, hsame⟩
      · obtain ⟨rfl, rfl⟩ := Prod.mk.inj heq
        obtain ⟨ds', rest', hds', hsame⟩ := ih hnext
        refine ⟨d :: ds', rest', (dispatched_cons_eq_ok hfirst).mpr
          ⟨d, hd, Or.inr ⟨hname, hknown, ds', rest', hds', rfl⟩⟩, fun s hs => ?_⟩
        rw [List.filterMap_cons, List.filterMap_cons, hsame s hs]

end InterpretPackets

/-- **Topic isolation.** If no two names have the same identifier other than 0, a packet that
was sent under a name, with an identifier other than 0, is received by streams of that name
only: whatever else is in the queue, the streams of other names end up as they do without the
packet. -/
theorem topic_isolation (hN : N.Lawful) {topics : List (String × Int)}
    (hdistinct : TopicsConfig.DistinctIdentifiers topics) {name : String} {packet : Packet}
    (hsent : Sends N (.ofJson topics) name packet) (hid : identifierOf N packet ≠ some 0)
    {fuel : ℕ} {before after rest : List Packet} {listening : List (String × RxStream)}
    (hcreated : ∀ e ∈ listening, e.2.Named (.ofJson topics) e.2.streamType e.1)
    {streams : List RxStream}
    (h : interpretPackets N (.ofJson topics) fuel (before ++ packet :: after) (listening.map (·.2))
      = .ok (streams, rest)) :
    ∃ streams' rest',
      interpretPackets N (.ofJson topics) fuel (before ++ after) (listening.map (·.2))
        = .ok (streams', rest') ∧
      ∀ (i : ℕ) (e : String × RxStream), listening[i]? = some e → e.1 ≠ name →
        streams[i]? = streams'[i]? := by
  obtain ⟨t, -, htransmit, hidentifier⟩ := hsent.transmission
  have hne : (TopicsConfig.ofJson topics).getTopicIdentifier name ≠ 0 := by
    rw [hsent.identifierOf hN] at hid
    exact fun hzero => hid (congrArg some hzero)
  obtain ⟨ds, rest, hds, heq⟩ := interpretPackets_eq_ok.mp h
  obtain ⟨rfl, rfl⟩ := Prod.mk.inj heq
  obtain ⟨ds', rest', hds', hsame⟩ := dispatched_without hN htransmit before hds
  refine ⟨_, rest', interpretPackets_eq_ok.mpr ⟨ds', rest', hds', rfl⟩, fun i e he hname => ?_⟩
  have hstream : e.2.streamIdentifier ≠ t.tx.streamIdentifier := by
    intro hcollide
    rw [(hcreated e (List.mem_of_getElem? he)).2, hidentifier] at hcollide
    exact hname (TopicsConfig.eq_of_getTopicIdentifier_eq hdistinct hcollide.symm hne).symm
  simp only [List.getElem?_map, he, Option.map_some, hsame e.2 hstream]

/-- A sample of one topic, and the subscriber of another. -/
theorem topic_isolation_twoTopics :
    let config := TopicsConfig.ofJson [("/a", 1), ("/b", 2)]
    let subscriber := (DesertSubscriber.create config "/b" .cpp).dataStream
    ∃ streams' rest', interpretPackets NanoCbor.rfc8949 config maxPacketLength [] [subscriber]
        = .ok (streams', rest') ∧
      ∀ (i : ℕ) (e : String × RxStream), [("/b", subscriber)][i]? = some e → e.1 ≠ "/a" →
        [subscriber][i]? = streams'[i]? := by
  intro config subscriber
  have hpush : (DesertPublisher.create config "/a" .cpp).push NanoCbor.rfc8949 (M := oneByte)
      ((7 : UInt8), ()) = .ok (some [0x00, 0x01, 0x07]) := rfl
  have hcall : interpretPackets NanoCbor.rfc8949 config maxPacketLength
      ([] ++ [0x00, 0x01, 0x07] :: []) ([("/b", subscriber)].map (·.2)) = .ok ([subscriber], []) :=
    rfl
  refine topic_isolation NanoCbor.rfc8949_lawful ?_
    (.entity (named_publisher config "/a" .cpp) (.push hpush)) (by decide) ?_ hcall
  · unfold TopicsConfig.DistinctIdentifiers
    decide
  · exact List.forall_mem_singleton.mpr ⟨rfl, rfl⟩

/-- The numbers 1 and 257 are narrowed to one identifier: a subscriber of one name receives
what a publisher of the other one sends. -/
theorem narrowed_identifiers_collide :
    let config := TopicsConfig.ofJson [("/a", 1), ("/b", 257)]
    let subscriber := (DesertSubscriber.create config "/b" .cpp).dataStream
    Sends NanoCbor.rfc8949 config "/a" [0x00, 0x01, 0x07] ∧
    interpretPackets NanoCbor.rfc8949 config maxPacketLength [[0x00, 0x01, 0x07]] [subscriber]
      = .ok ([subscriber.pushPacket [.uint 7]], []) := by
  intro config subscriber
  have hpush : (DesertPublisher.create config "/a" .cpp).push NanoCbor.rfc8949 (M := oneByte)
      ((7 : UInt8), ()) = .ok (some [0x00, 0x01, 0x07]) := rfl
  exact ⟨.entity (named_publisher config "/a" .cpp) (.push hpush), rfl⟩

end RmwDesert
