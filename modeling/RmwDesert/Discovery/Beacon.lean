/-
Discovery beacons (`send_discovery_beacon` and `discovery_thread` of `Discovery.cpp`).

A node sends a beacon for each entity that it adds or removes: the names of the node, the kind
and the identifier of the entity, its topic and type, and whether it disconnects.  The
discovery thread extracts the same seven values again (`reads_receiveBeacon`).
-/
import RmwDesert.MessageSerialization

namespace RmwDesert

open Reader RxStream

/-- `RMW_GID_STORAGE_SIZE`. -/
def rmwGidStorageSize : ℕ := 16

/-- An `rmw_gid_t`, or a `rmw_dds_common::msg::Gid`. -/
abbrev Gid := List.Vector UInt8 rmwGidStorageSize

/-- The arguments of `send_discovery_beacon`. -/
structure Beacon where
  nodeName : List UInt8
  nodeNamespace : List UInt8
  entityType : Int32
  entityGid : Gid
  topicName : List UInt8
  typeName : List UInt8
  disconnect : Bool
deriving DecidableEq

namespace Discovery

/-- The items that `send_discovery_beacon` streams. -/
def beaconFields (b : Beacon) : Fields :=
  [TxStream.insert .string b.nodeName, TxStream.insert .string b.nodeNamespace,
    TxStream.insert .int32 b.entityType]
    ++ TxStream.insertVector .uint8 b.entityGid.toList
    ++ [TxStream.insert .string b.topicName, TxStream.insert .string b.typeName,
      TxStream.insert .bool b.disconnect]

/-- `send_discovery_beacon`: the packet that is enqueued, if any. -/
def sendDiscoveryBeacon (N : NanoCbor) (stream : TxStream) (b : Beacon) : Option Packet :=
  stream.transmit N none (beaconFields b)

/-- `send_discovery_request`. -/
def sendDiscoveryRequest (N : NanoCbor) (stream : TxStream) : Option Packet :=
  stream.transmit N none []

lemma streamed_beaconFields (b : Beacon) : ∀ f ∈ beaconFields b, f.Streamed := by
  intro f hf
  simp only [beaconFields, List.append_assoc, List.mem_append, List.mem_cons, List.not_mem_nil,
    or_false] at hf
  rcases hf with (rfl | rfl | rfl) | hf | rfl | rfl | rfl
  · exact TxStream.streamed_insert .string _
  · exact TxStream.streamed_insert .string _
  · exact TxStream.streamed_insert .int32 _
  · exact TxStream.streamed_insertVector .uint8 _ f hf
  · exact TxStream.streamed_insert .string _
  · exact TxStream.streamed_insert .string _
  · exact TxStream.streamed_insert .bool _

/-- `std::copy_n` of a received identifier, which reads outside a vector that is too short. -/
def copyGid (entityGid : List UInt8) : Except Failure Gid :=
  if h : rmwGidStorageSize ≤ entityGid.length then
    .ok ⟨entityGid.take rmwGidStorageSize, by simp [h]⟩
  else .error .outOfBounds

/-- The extractions of `discovery_thread`, up to the first uses of the local variables. -/
def receiveBeacon : RxM Beacon := do
  let nodeName ← extract .string []
  let nodeNamespace ← extract .string []
  let entityType ← extract .int32 (0 : Int32)
  let entityGid ← extractVector .uint8 []
  let topicName ← extract .string []
  let typeName ← extract .string []
  let disconnect ← extractBool
  let gid ← liftM (copyGid entityGid)
  let disconnect ← initialised disconnect
  return ⟨nodeName, nodeNamespace, entityType, gid, topicName, typeName, disconnect⟩

/-- The identifier of a beacon is copied as a whole. -/
lemma copyGid_toList (gid : Gid) : copyGid gid.toList = .ok gid := by
  have hlength : gid.toList.length = rmwGidStorageSize := gid.toList_length
  rw [copyGid, dif_pos hlength.ge]
  congr 1
  exact Subtype.ext (List.take_of_length_le hlength.le)

lemma reads_copyGid (gid : Gid) :
    Reads (liftM (copyGid gid.toList) : RxM Gid) True ([] : Fields) gid := by
  rw [copyGid_toList]
  exact reads_pure gid

/-- **A beacon is read back.** The discovery thread extracts the values that were sent. -/
theorem reads_receiveBeacon (b : Beacon) : Reads receiveBeacon True (beaconFields b) b := by
  have hstring : ∀ s : List UInt8,
      Reads (extract .string []) True [TxStream.insert .string s] s :=
    fun s => reads_extract .string s [] trivial
  have htype : Reads (extract .int32 (0 : Int32)) True [TxStream.insert .int32 b.entityType]
      b.entityType := reads_extract .int32 b.entityType (0 : Int32) trivial
  have hgid : Reads (extractVector .uint8 []) True
      (TxStream.insertVector .uint8 b.entityGid.toList) b.entityGid.toList := by
    have hread := reads_extractVector .uint8 b.entityGid.toList []
      (by rw [b.entityGid.toList_length]; decide) (fun _ _ => trivial)
    have hsame : b.entityGid.toList.map (FieldType.rounded .uint8) = b.entityGid.toList :=
      List.map_id _
    rwa [hsame] at hread
  have hdisconnect : Reads extractBool True [TxStream.insert .bool b.disconnect]
      (some b.disconnect) := by
    have hread := reads_extractBool (if b.disconnect then 1 else 0)
    cases hb : b.disconnect with
    | true => rwa [hb] at hread
    | false => rwa [hb] at hread
  exact (hstring b.nodeName).bind_of_true <| (hstring b.nodeNamespace).bind_of_true <|
    htype.bind_of_true <| hgid.bind_of_true <| (hstring b.topicName).bind_of_true <|
    (hstring b.typeName).bind_of_true <| hdisconnect.bind_of_true <|
    (reads_copyGid b.entityGid).bind_of_true <| (reads_initialised b.disconnect).map _

end Discovery
end RmwDesert
