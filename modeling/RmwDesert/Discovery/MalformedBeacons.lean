/-
Malformed beacons (`discovery_thread` of `Discovery.cpp`).

The thread extracts the seven values of a beacon into local variables, and neither the number
nor the types of the fields are tested.  The main result, `tolerates_iff`, says that the
thread treats a packet as it should exactly when it is the packet of a beacon: any other one
makes a turn fail, or changes the cache.
-/
import RmwDesert.Discovery.Thread

namespace RmwDesert
namespace Discovery

/-- The fields are those that `send_discovery_beacon` writes for some beacon. -/
def IsBeacon (packet : Fields) : Prop := ∃ b, packet = beaconFields b

/-- The thread decodes the beacon from the packet in front of the queue. -/
def DecodesFirst (stream : RxStream) (b : Beacon) : Prop :=
  ∃ loaded rest, stream.dataAvailable 0 = .ok (true, loaded) ∧ receiveBeacon loaded = .ok (b, rest)

section

variable {Γ : Type} (G : GraphCache Γ)

/-- What the thread promises for a packet, in any cache and before any other packets: a beacon
is decoded, and a packet that is none leaves the cache as it is. -/
def Tolerates (packet : Fields) : Prop :=
  ∀ (c : Γ) (stream : RxStream) (queue : List Fields), stream.bufferedPacket = [] →
    stream.receivedPackets = packet :: queue →
    (∀ b, packet = beaconFields b → DecodesFirst stream b) ∧
      (¬ IsBeacon packet → ∃ stream', discoveryTurn G c stream = .ok (stream', c))

end

lemma decodesFirst_beaconFields (b : Beacon) {stream : RxStream} {queue : List Fields}
    (hbuffer : stream.bufferedPacket = [])
    (hqueue : stream.receivedPackets = beaconFields b :: queue) : DecodesFirst stream b := by
  have hread := reads_receiveBeacon b { stream with
    bufferedPacket := beaconFields b, receivedPackets := queue, bufferedIterator := 0 }
    [] (List.append_nil _).symm
  exact ⟨_, _, RxStream.dataAvailable_zero_cons hbuffer hqueue, hread.1 trivial⟩

/-- A beacon has three fields, the identifier behind its length, and three more. -/
lemma length_beaconFields (b : Beacon) : (beaconFields b).length = 23 := by
  have hgid : (TxStream.insertVector .uint8 b.entityGid.toList).length = 17 := by
    rw [TxStream.insertVector, List.length_cons, TxStream.length_serializeSequence]
    exact congrArg (· + 1) b.entityGid.toList_length
  rw [beaconFields, List.length_append, List.length_append, hgid]
  rfl

section

variable {Γ : Type} {G : GraphCache Γ} {V : Contents Γ}

/-- For every beacon there is a cache that a turn changes: the entity is recorded afterwards, or
no longer recorded. -/
lemma exists_register_ne (hG : G.Lawful V) (b : Beacon) :
    ∃ c, ∀ node, register G b c node ≠ c := by
  cases hdisconnect : b.disconnect with
  | false =>
    refine ⟨G.empty, fun node hsame => ?_⟩
    have hnone : V.entities G.empty b.isReader b.entityGid = none := hG.entities_empty _ _
    have hadded : V.entities (register G b G.empty node) b.isReader b.entityGid
        = some ⟨mangledName b, b.typeName, defaultGid⟩ := by
      rw [register, hdisconnect]
      refine hG.entities_addEntity _ _ _ (Or.inl ?_)
      rw [hG.entities_update, hnone]
    rw [hsame, hnone] at hadded
    cases hadded
  | true =>
    refine ⟨G.addEntity b.entityGid (mangledName b) b.typeName defaultGid b.isReader G.empty,
      fun node hsame => ?_⟩
    have hsome := hG.entities_addEntity (mangledName b) b.typeName defaultGid
      (Or.inl (hG.entities_empty b.isReader b.entityGid))
    have hremoved : V.entities (register G b (G.addEntity b.entityGid (mangledName b) b.typeName
        defaultGid b.isReader G.empty) node) b.isReader b.entityGid = none := by
      rw [register, hdisconnect]
      exact (hG.entities_removeEntity _ _ _ _ _).trans (if_pos rfl)
    rw [hsame, hsome] at hremoved
    cases hremoved

/-- A turn on a packet from which the thread decodes a beacon registers the entity. -/
lemma discoveryTurn_of_receiveBeacon (hG : G.Lawful V) {stream loaded rest : RxStream} {b : Beacon}
    (havailable : stream.dataAvailable 0 = .ok (true, loaded))
    (hread : receiveBeacon loaded = .ok (b, rest)) (c : Γ) :
    ∃ node, discoveryTurn G c stream = .ok (rest.clearBuffer, register G b c node) := by
  obtain ⟨node, hnode, -⟩ := rebuildNode_ok hG b c
  refine ⟨node, ?_⟩
  rw [discoveryTurn, havailable]
  simp only [bind, Except.bind, if_true, hread, handleBeacon, hnode]
  rfl

/-- **Malformed beacons.**  The thread keeps its promise for a packet exactly when the packet
is that of a beacon. -/
theorem tolerates_iff (hG : G.Lawful V) (packet : Fields) :
    Tolerates G packet ↔ IsBeacon packet := by
  constructor
  · intro h
    by_contra hnot
    obtain ⟨stream, hstream⟩ : ∃ stream : RxStream,
        stream = ⟨subscriberType, 1, 0, [], [packet]⟩ := ⟨_, rfl⟩
    have hbuffer : stream.bufferedPacket = [] := by rw [hstream]
    have hqueue : stream.receivedPackets = [packet] := by rw [hstream]
    have hunchanged : ∀ c, ∃ stream', discoveryTurn G c stream = .ok (stream', c) :=
      fun c => (h c stream [] hbuffer hqueue).2 hnot
    have havailable := RxStream.dataAvailable_zero_cons hbuffer hqueue
    cases hread : receiveBeacon { stream with
        bufferedPacket := packet, receivedPackets := [], bufferedIterator := 0 } with
    | error e =>
      obtain ⟨stream', hok⟩ := hunchanged G.empty
      rw [discoveryTurn, havailable] at hok
      simp only [bind, Except.bind, if_true, hread] at hok
      cases hok
    | ok p =>
      -- the thread decodes some beacon all the same, and there is a cache that it changes
      obtain ⟨b, rest⟩ := p
      obtain ⟨c, hchanged⟩ := exists_register_ne hG b
      obtain ⟨node, hturn⟩ := discoveryTurn_of_receiveBeacon hG havailable hread c
      obtain ⟨stream', hok⟩ := hunchanged c
      rw [hturn] at hok
      exact hchanged node (Prod.mk.inj (Except.ok.inj hok)).2
  · rintro hbeacon c stream queue hbuffer hqueue
    refine ⟨?_, fun hnot => absurd hbeacon hnot⟩
    rintro b rfl
    exact decodesFirst_beaconFields b hbuffer hqueue

end

theorem tolerates_sampleBeacon :
    Tolerates mapCache (beaconFields (sampleBeacon 0x61 1 2)) :=
  (tolerates_iff mapCache_lawful _).mpr ⟨_, rfl⟩

/-- A stream with one packet. -/
def received (packet : Fields) : RxStream := ⟨subscriberType, 1, 0, [], [packet]⟩

/-- A beacon without the flag at its end. -/
def withoutFlag : Fields := (beaconFields (sampleBeacon 0x61 1 2)).dropLast

/-- A beacon with an identifier of one byte. -/
def shortGid : Fields :=
  [.tstr [0x61], .tstr [0x2F], .uint 1, .uint 1, .uint 2, .tstr [0x2F, 0x74], .tstr [0x54], .uint 0]

/-- A beacon with a number in the place of the node name. -/
def withoutName : Fields := .uint 7 :: (beaconFields (sampleBeacon 0x61 1 2)).tail

/-- The flag that is not there is read all the same, a short identifier is read behind its end,
and a packet without a node name is recorded as an entity of the node with the empty name. -/
theorem malformed_beacons_change_something :
    discoveryTurn mapCache mapCache.empty (received withoutFlag) = .error .uninitialised ∧
      discoveryTurn mapCache mapCache.empty (received shortGid) = .error .outOfBounds ∧
      (∃ stream c, discoveryTurn mapCache mapCache.empty (received withoutName) = .ok (stream, c) ∧
        mapCache.getNodeNames mapCache.empty = [] ∧ mapCache.getNodeNames c = [([], [0x2F])]) ∧
      ¬ IsBeacon withoutFlag ∧ ¬ Tolerates mapCache withoutFlag := by
  have hfail : discoveryTurn mapCache mapCache.empty (received withoutFlag)
      = .error .uninitialised := rfl
  have hnot : ¬ IsBeacon withoutFlag := by
    rintro ⟨b, hb⟩
    have hlen := congrArg List.length hb
    rw [length_beaconFields] at hlen
    exact absurd hlen (by decide)
  refine ⟨hfail, rfl, ⟨_, _, rfl, rfl, rfl⟩, hnot, fun h => ?_⟩
  obtain ⟨stream', hok⟩ := (h mapCache.empty (received withoutFlag) [] rfl rfl).2 hnot
  rw [hfail] at hok
  cases hok

end Discovery
end RmwDesert
