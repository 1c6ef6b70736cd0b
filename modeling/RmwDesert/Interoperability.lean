/-
The two CBOR builds on one channel.

A node built with libmcu and a node built with NanoCBOR exchange a packet: one of them inserts
a sequence of values, the other extracts values of the same types.  What the libmcu build sends
is what the NanoCBOR build would send for other values, and what it receives is what the fields
of the NanoCBOR build are decoded to.  `interoperates_iff` says for which insertions both
directions keep every value.
-/
import RmwDesert.LibMcu.Extraction

namespace RmwDesert

open Reader InterpretPackets
open Insertion (extractAll SameShape)
open LibMcu (Plain Defined Short sent heard sentFloat heardFloat maxFields)

/-- The calls of the encoder in the libmcu build. -/
def Insertion.operands : Insertion → Except Failure (List LibMcu.Operand)
  | scalar t x => do return [← LibMcu.insert t x]
  | vector t v => LibMcu.insertVector t v

/-! ## The channel -/

section Channel

variable [LibMcu.Convertor] (N : NanoCbor) (config : TopicsConfig) (tx : TxStream) (rxType : UInt8)

/-- A packet arrives at a new stream of the NanoCBOR build, and its values are extracted. -/
def readNano (packet : Packet) (dests : List Insertion) :
    Except Failure (Option (List Insertion)) := do
  let rx ← InterpretPackets.hear N config packet ⟨rxType, tx.streamIdentifier, 0, [], []⟩
  let (available, rx) ← rx.dataAvailable 0
  if available then
    let (values, _) ← (extractAll RxStream.extract RxStream.extractAnyVector dests).run rx
    return some values
  else return none

/-- A packet arrives at a new stream of the libmcu build, and its values are extracted. -/
def readLibMcu (packet : Packet) (dests : List Insertion) :
    Except Failure (Option (List Insertion)) := do
  let rx ← LibMcu.RxStream.hear config packet ⟨rxType, tx.streamIdentifier, 0, [], []⟩
  let (available, rx) := rx.dataAvailable
  if available then
    let (values, _) ←
      (extractAll LibMcu.RxStream.extract LibMcu.RxStream.extractAnyVector dests).run rx
    return some values
  else return none

/-- From a node built with libmcu to a node built with NanoCBOR. -/
def fromLibMcu (insertions dests : List Insertion) : Except Failure (Option (List Insertion)) := do
  let operands ← insertions.mapM Insertion.operands
  match ← LibMcu.transmit none operands.flatten tx with
  | none => return none
  | some packet => readNano N config tx rxType packet dests

/-- From a node built with NanoCBOR to a node built with libmcu. -/
def toLibMcu (insertions dests : List Insertion) : Except Failure (Option (List Insertion)) :=
  match tx.transmit N none (insertions.flatMap Insertion.fields) with
  | none => .ok none
  | some packet => readLibMcu config tx rxType packet dests

/-- The values that one build inserts are the values that the other one extracts, in both
directions and whatever the destinations held before. -/
def Interoperates (insertions : List Insertion) : Prop :=
  ∀ dests, List.Forall₂ SameShape dests insertions →
    fromLibMcu N config tx rxType insertions dests = .ok (some (insertions.map .rounded)) ∧
      toLibMcu N config tx rxType insertions dests = .ok (some (insertions.map .rounded))

end Channel

/-! ## Fields that survive -/

/-- The fields that both builds send and receive as they are. -/
def Field.Portable : Field → Prop
  | .uint _ => True
  | .nint n => n ≠ Int64.minValue
  | .float bits => ¬ LibMcu.ZeroExponent bits ∧
      (103 ≤ LibMcu.exponent bits ∧ LibMcu.exponent bits ≤ 112 →
        LibMcu.mantissa bits = 2 ^ 23 - 2 ^ (126 - LibMcu.exponent bits)) ∧
      65536 ≤ bits.toNat
  | .tstr s => s.length < LibMcu.sizeofStrCopy

instance : (f : Field) → Decidable f.Portable
  | .uint _ => inferInstanceAs (Decidable True)
  | .nint _ => inferInstanceAs (Decidable (_ ≠ _))
  | .float _ => inferInstanceAs (Decidable (_ ∧ _))
  | .tstr _ => inferInstanceAs (Decidable (_ < _))

lemma sent_eq_through (f : Field) : sent f = f.through sentFloat := by cases f <;> rfl

lemma sentFloat_eq_iff {bits : UInt32} : sentFloat bits = bits ↔
    (103 ≤ LibMcu.exponent bits ∧ LibMcu.exponent bits ≤ 112 →
      LibMcu.mantissa bits = 2 ^ 23 - 2 ^ (126 - LibMcu.exponent bits)) := by
  obtain ⟨hbits, hs, he, hm⟩ := LibMcu.toNat_eq_parts bits
  unfold sentFloat
  split_ifs with h
  · have hpos := Nat.two_pow_pos (126 - LibMcu.exponent bits)
    have hlt : LibMcu.sign bits * 2 ^ 31 + LibMcu.exponent bits * 2 ^ 23
        + (2 ^ 23 - 2 ^ (126 - LibMcu.exponent bits)) < 2 ^ 32 := by omega
    rw [← UInt32.toNat_inj, UInt32.toNat_ofNat_of_lt' hlt, hbits]
    simp only [h, and_self, forall_const]
    omega
  · simp [h]

/-- A small number that is taken for a half is zero, or another number afterwards. -/
lemma heardFloat_eq_iff {bits : UInt32} (hfinite : Binary.Finite bits) :
    heardFloat bits = bits ↔ bits = 0 ∨ 65536 ≤ bits.toNat := by
  unfold heardFloat
  split_ifs with h
  · constructor
    · intro hwiden
      have hcases := Binary.cases_of_widenHalf hfinite hwiden
      left
      rw [← UInt32.toNat_inj]
      show bits.toNat = 0
      omega
    · rintro (rfl | hlarge)
      · rfl
      · omega
  · simp only [true_iff]
    omega

/-- A field is portable if each step of the two passages leaves it as it is. -/
lemma Field.portable_iff {f : Field} (hf : Plain f) : f.Portable ↔
    Defined f ∧ Short f ∧ f.through sentFloat = f ∧ f.through heardFloat = f := by
  cases f with
  | uint n => simp [Portable, Defined, Short, through]
  | nint n => simp [Portable, Defined, Short, through]
  | float bits =>
    have hzero : bits = 0 → LibMcu.ZeroExponent bits := by
      rintro rfl
      decide
    simp only [Portable, Defined, Short, through, Field.float.injEq, sentFloat_eq_iff,
      heardFloat_eq_iff hf, true_and]
    tauto
  | tstr s => simp [Portable, Defined, Short, through]

/-! ## The two passages -/

section Passages

variable {N : NanoCbor} {config : TopicsConfig} {tx : TxStream} {rxType : UInt8}
  {insertions : List Insertion}

lemma plain_fields (hN : N.Lawful) (h : ∀ i ∈ insertions, i.Admissible)
    (hfits : (N.encode (tx.header none ++ insertions.flatMap Insertion.fields)).length
      ≤ TcpDaemon.maxPacketLength) :
    ∀ f ∈ insertions.flatMap Insertion.fields, Plain f := by
  intro f hf
  have hstreamed := Insertion.streamed_flatMap insertions f hf
  cases f with
  | uint n => exact trivial
  | nint n => exact hstreamed
  | float bits =>
    obtain ⟨i, hi, hf⟩ := List.mem_flatMap.mp hf
    exact Insertion.finite_of_fields (h i hi) hf
  | tstr s =>
    have hs := hN.length_le_putTstrn s
    have hle : (N.putTstrn s).length
        ≤ (N.encode (tx.header none ++ insertions.flatMap Insertion.fields)).length :=
      NanoCbor.length_format_le (f := .tstr s) (List.mem_append_right _ hf)
    exact (hs.trans hle).trans hfits

/-- The vectors of a packet are short. -/
lemma length_fields_of_fits (hpref : N.Preferred)
    (hplain : ∀ f ∈ insertions.flatMap Insertion.fields, Plain f)
    (hfits : (N.encode (tx.header none ++ insertions.flatMap Insertion.fields)).length
      ≤ TcpDaemon.maxPacketLength) :
    ∀ i ∈ insertions, i.fields.length ≤ 2 ^ 32 := by
  intro i hi
  have hall := LibMcu.length_le_length_encode hpref hplain
  have hone := Insertion.length_fields_le hi
  rw [NanoCbor.encode_append, List.length_append, TcpDaemon.maxPacketLength] at hfits
  omega

/-- A new stream of the libmcu build with the first fields of the packet in its buffer. -/
def buffered (tx : TxStream) (rxType : UInt8) (insertions : List Insertion) : LibMcu.RxStream :=
  ⟨rxType, tx.streamIdentifier, 0,
    ((insertions.flatMap Insertion.fields).take maxFields).map heard, []⟩

/-- The libmcu build extracts from the first fields of the packet. -/
lemma toLibMcu_eq_some_iff [LibMcu.Convertor] (hpref : N.Preferred)
    (htype : streamTypeMatchMap tx.streamType = some rxType)
    (hname : config.getIdentifierTopic tx.streamIdentifier ≠ "")
    (hplain : ∀ f ∈ insertions.flatMap Insertion.fields, Plain f)
    (hfits : (N.encode (tx.header none ++ insertions.flatMap Insertion.fields)).length
      ≤ TcpDaemon.maxPacketLength) {dests values : List Insertion} :
    toLibMcu N config tx rxType insertions dests = .ok (some values) ↔
      (∀ f ∈ (insertions.flatMap Insertion.fields).take maxFields, Short f) ∧
        ∃ s, extractAll LibMcu.RxStream.extract LibMcu.RxStream.extractAnyVector dests
          (buffered tx rxType insertions) = .ok (values, s) := by
  -- a new stream of the receiver
  let stream : LibMcu.RxStream := ⟨rxType, tx.streamIdentifier, 0, [], []⟩
  have hmatch : streamTypeMatchMap tx.streamType = some stream.streamType := htype
  have hhear := LibMcu.hear_encode hpref hmatch rfl hname hplain
  have havailable : (stream.pushPacket
      (((insertions.flatMap Insertion.fields).take maxFields).map heard)).dataAvailable
        = (true, buffered tx rxType insertions) := rfl
  rw [toLibMcu, TxStream.transmit_eq, if_pos hfits]
  show readLibMcu config tx rxType (N.encode (TxStream.insert .uint8 tx.streamType
    :: TxStream.insert .uint8 tx.streamIdentifier :: insertions.flatMap Insertion.fields)) dests
      = _ ↔ _
  rw [readLibMcu, hhear]
  split_ifs with hshort
  · simp only [bind, Except.bind, havailable, if_true, StateT.run]
    rw [and_iff_right hshort]
    cases extractAll LibMcu.RxStream.extract LibMcu.RxStream.extractAnyVector dests
        (buffered tx rxType insertions) with
    | error e => simp
    | ok result =>
      obtain ⟨found, s⟩ := result
      simp [pure, Except.pure]
  · simp only [bind, Except.bind, reduceCtorEq, false_iff]
    exact fun h => hshort h.1

/-- The NanoCBOR build reads any packet of its own making. -/
lemma readNano_transmit (hN : N.Lawful)
    (htype : streamTypeMatchMap tx.streamType = some rxType)
    (hname : config.getIdentifierTopic tx.streamIdentifier ≠ "")
    (h : ∀ i ∈ insertions, i.Admissible) (hbool : ∀ i ∈ insertions, i.type ≠ .bool)
    (hlen : ∀ i ∈ insertions, i.fields.length ≤ 2 ^ 32) {packet : Packet}
    (hsent : tx.transmit N none (insertions.flatMap Insertion.fields) = some packet)
    {dests : List Insertion} (hshape : List.Forall₂ SameShape dests insertions) :
    readNano N config tx rxType packet dests = .ok (some (insertions.map .rounded)) := by
  have hread := Insertion.reads_extractAll hshape fun i hi dest hdest =>
    reads_nano hdest (h i hi) (hbool i hi) (hlen i hi)
  have hhear : hear N config packet ⟨rxType, tx.streamIdentifier, 0, [], []⟩
      = .ok ⟨rxType, tx.streamIdentifier, 0, [], [insertions.flatMap Insertion.fields]⟩ := by
    rw [hear, interpretPackets_transmit hN htype hname (Insertion.streamed_flatMap insertions) hsent
      (le_refl _)]
    simp only [delivered, List.map_cons, List.map_nil, and_self, if_true]
    rfl
  have hextract := (hread ⟨rxType, tx.streamIdentifier, 0,
    insertions.flatMap Insertion.fields, []⟩ [] (List.append_nil _).symm).1 trivial
  rw [readNano, hhear]
  show (extractAll RxStream.extract RxStream.extractAnyVector dests _ >>= _) = _
  rw [hextract]
  rfl

/-- The libmcu build calls the encoder for the fields of the other build, booleans apart. -/
lemma insert_eq_ofField {t : FieldType} {x : t.Elem} (hx : t.Admissible x) (ht : t ≠ .bool) :
    LibMcu.insert t x = .ok (.ofField (TxStream.insert t x)) := by
  have hint : ∀ n : Int64, LibMcu.insertInt64 n = .ofField (TxStream.insertInt64 n) := by
    intro n
    unfold LibMcu.insertInt64 TxStream.insertInt64
    split_ifs <;> rfl
  cases t with
  | int64 | int32 | int16 | int8 => exact congrArg Except.ok (hint _)
  | uint64 | uint32 | uint16 | uint8 | char | float | double | string => rfl
  | bool => exact absurd rfl ht
  | wstring =>
    obtain ⟨text, rfl⟩ := hx.wellFormed
    show (LibMcu.toUTF8 (Unicode.utf16Encode text) >>= _) = _
    rw [LibMcu.toUTF8_utf16Encode, ← Transcoding.toUTF8_utf16Encode]
    rfl

lemma operands_eq {i : Insertion} (hi : i.Admissible) (hbool : i.type ≠ .bool) :
    i.operands = .ok (i.fields.map .ofField) := by
  cases i with
  | scalar t x =>
    show (LibMcu.insert t x >>= _) = _
    rw [insert_eq_ofField hi hbool]
    rfl
  | vector t v =>
    have hitems : v.mapM (LibMcu.insert t) = .ok (v.map fun x => .ofField (TxStream.insert t x)) :=
      Transition.mapM_eq_ok fun x hx => insert_eq_ofField (hi x hx) hbool
    show (v.mapM (LibMcu.insert t) >>= _) = _
    rw [hitems, Insertion.fields, TxStream.insertVector, TxStream.serializeSequence,
      List.map_cons, List.map_map]
    rfl

/-- What becomes of the fields is what the other build inserts for other floats. -/
lemma map_sent_fields (h : ∀ i ∈ insertions, i.Admissible) :
    (insertions.flatMap Insertion.fields).map sent
      = (insertions.map (.through sentFloat)).flatMap Insertion.fields := by
  rw [List.map_flatMap, List.flatMap_map]
  refine List.flatMap_congr fun i hi => ?_
  rw [Insertion.fields_through (h i hi) fun _ => LibMcu.finite_sentFloat]
  exact List.map_congr_left fun f _ => sent_eq_through f

/-- The NanoCBOR build extracts what becomes of the values. -/
lemma readNano_sent (hN : N.Lawful) (hpref : N.Preferred)
    (htype : streamTypeMatchMap tx.streamType = some rxType)
    (hname : config.getIdentifierTopic tx.streamIdentifier ≠ "")
    (h : ∀ i ∈ insertions, i.Admissible) (hbool : ∀ i ∈ insertions, i.type ≠ .bool)
    (hfits : (N.encode (tx.header none ++ insertions.flatMap Insertion.fields)).length
      ≤ TcpDaemon.maxPacketLength)
    {dests : List Insertion} (hshape : List.Forall₂ SameShape dests insertions) :
    readNano N config tx rxType
        (N.encode (tx.header none ++ (insertions.flatMap Insertion.fields).map sent)) dests
      = .ok (some (insertions.map (.through sentFloat))) := by
  have hplain := plain_fields hN h hfits
  have hlen := length_fields_of_fits hpref hplain hfits
  have hlength : (N.encode (tx.header none
      ++ (insertions.flatMap Insertion.fields).map sent)).length ≤ TcpDaemon.maxPacketLength := by
    have hsent := LibMcu.length_encode_sent hpref hplain
    simp only [NanoCbor.encode_append, List.length_append] at hfits ⊢
    omega
  have hsent : tx.transmit N none ((insertions.map (.through sentFloat)).flatMap Insertion.fields)
      = some (N.encode (tx.header none ++ (insertions.flatMap Insertion.fields).map sent)) := by
    rw [← map_sent_fields h, TxStream.transmit_eq, if_pos hlength]
  have hread := readNano_transmit hN htype hname
    (List.forall_mem_map.mpr fun i hi => (h i hi).through fun _ => LibMcu.finite_sentFloat)
    (List.forall_mem_map.mpr fun i hi => by simpa using hbool i hi)
    (List.forall_mem_map.mpr fun i hi => by simpa using hlen i hi) hsent
    (List.forall₂_map_right_iff.mpr (hshape.imp fun _ _ => SameShape.through _))
  rw [hread, List.map_map]
  refine congrArg (fun values => Except.ok (some values)) (List.map_congr_left fun i hi => ?_)
  exact Insertion.rounded_through (h i hi) fun _ => LibMcu.finite_sentFloat

/-- From the libmcu build, the values are sent if all of them are defined. -/
lemma fromLibMcu_eq (hN : N.Lawful) (hpref : N.Preferred)
    (htype : streamTypeMatchMap tx.streamType = some rxType)
    (hname : config.getIdentifierTopic tx.streamIdentifier ≠ "")
    (h : ∀ i ∈ insertions, i.Admissible) (hbool : ∀ i ∈ insertions, i.type ≠ .bool)
    (hfits : (N.encode (tx.header none ++ insertions.flatMap Insertion.fields)).length
      ≤ TcpDaemon.maxPacketLength)
    {dests : List Insertion} (hshape : List.Forall₂ SameShape dests insertions) :
    (¬ ∀ f ∈ insertions.flatMap Insertion.fields, Defined f) ∧
        (∃ e, fromLibMcu N config tx rxType insertions dests = .error e) ∨
      (∀ f ∈ insertions.flatMap Insertion.fields, Defined f) ∧
        fromLibMcu N config tx rxType insertions dests
          = .ok (some (insertions.map (.through sentFloat))) := by
  have hoperands : insertions.mapM Insertion.operands
      = .ok (insertions.map fun i => i.fields.map .ofField) :=
    Transition.mapM_eq_ok fun i hi => operands_eq (h i hi) (hbool i hi)
  have hflatten : (insertions.map fun i => i.fields.map LibMcu.Operand.ofField).flatten
      = (insertions.flatMap Insertion.fields).map .ofField := by
    rw [List.map_flatMap, List.flatMap]
  have hpassage : fromLibMcu N config tx rxType insertions dests
      = LibMcu.transmit none ((insertions.flatMap Insertion.fields).map .ofField) tx
        >>= fun sent => match sent with
          | none => .ok none
          | some packet => readNano N config tx rxType packet dests := by
    rw [fromLibMcu, hoperands, ← hflatten]
    rfl
  rw [hpassage]
  rcases LibMcu.transmit_ofField hpref (plain_fields hN h hfits) tx none hfits with
    ⟨hundefined, e, htransmit⟩ | ⟨hdefined, htransmit⟩
  · left
    rw [htransmit]
    exact ⟨hundefined, e, rfl⟩
  · right
    rw [htransmit]
    exact ⟨hdefined, readNano_sent hN hpref htype hname h hbool hfits hshape⟩

/-! ## Interoperation -/

/-- The insertions that both passages keep: no booleans, no float, integer or string that one of
the builds changes or refuses, and nothing behind the items that the libmcu build notes. -/
structure Portable (insertions : List Insertion) : Prop where
  noBools : ∀ i ∈ insertions, i.type ≠ .bool
  room : ∀ m ∈ (insertions.flatMap Insertion.typedFields).drop maxFields,
    m = LibMcu.RxStream.emptyWide
  fields : ∀ f ∈ insertions.flatMap Insertion.fields, f.Portable

section

variable (hN : N.Lawful) (hpref : N.Preferred)
  (htype : streamTypeMatchMap tx.streamType = some rxType)
  (hname : config.getIdentifierTopic tx.streamIdentifier ≠ "")
  (h : ∀ i ∈ insertions, i.Admissible)
  (hfits : (N.encode (tx.header none ++ insertions.flatMap Insertion.fields)).length
    ≤ TcpDaemon.maxPacketLength)

include hN hpref htype hname h hfits

/-- What the libmcu build receives. -/
lemma toLibMcu_iff [LibMcu.Convertor] :
    (∀ dests, List.Forall₂ SameShape dests insertions →
      toLibMcu N config tx rxType insertions dests = .ok (some (insertions.map .rounded))) ↔
    ((∀ i ∈ insertions, i.type ≠ .bool) ∧
      ∀ m ∈ (insertions.flatMap Insertion.typedFields).drop maxFields,
        m = LibMcu.RxStream.emptyWide) ∧
    (∀ f ∈ insertions.flatMap Insertion.fields, Short f) ∧
      ∀ f ∈ insertions.flatMap Insertion.fields, f.through heardFloat = f := by
  have hplain := plain_fields hN h hfits
  have hlen := length_fields_of_fits hpref hplain hfits
  have hextracts := LibMcu.RxStream.extractAll_iff h hlen
    (s := buffered tx rxType insertions) (k := maxFields) rfl
  simp only [toLibMcu_eq_some_iff hpref htype hname hplain hfits]
  constructor
  · intro hall
    have hshort := (hall insertions (Insertion.sameShape_refl insertions)).1
    obtain ⟨hroom, hheard⟩ := hextracts.mp fun dests hshape => (hall dests hshape).2
    refine ⟨hroom, fun f hf => ?_, hheard⟩
    rw [← List.take_append_drop maxFields (insertions.flatMap Insertion.fields)] at hf
    rcases List.mem_append.mp hf with hf | hf
    · exact hshort f hf
    · -- behind the items there are empty strings only
      rw [← Insertion.map_snd_typedFields, ← List.map_drop] at hf
      obtain ⟨m, hm, rfl⟩ := List.mem_map.mp hf
      rw [hroom.2 m hm]
      exact Nat.succ_pos _
  · rintro ⟨hroom, hshort, hheard⟩ dests hshape
    exact ⟨fun f hf => hshort f (List.mem_of_mem_take hf),
      hextracts.mpr ⟨hroom, hheard⟩ dests hshape⟩

/-- What the libmcu build sends. -/
lemma fromLibMcu_iff (hbool : ∀ i ∈ insertions, i.type ≠ .bool) :
    (∀ dests, List.Forall₂ SameShape dests insertions →
      fromLibMcu N config tx rxType insertions dests = .ok (some (insertions.map .rounded))) ↔
    (∀ f ∈ insertions.flatMap Insertion.fields, Defined f) ∧
      ∀ f ∈ insertions.flatMap Insertion.fields, f.through sentFloat = f := by
  constructor
  · intro hall
    have hshape := Insertion.sameShape_refl insertions
    have hfrom := hall insertions hshape
    rcases fromLibMcu_eq hN hpref htype hname h hbool hfits hshape with
      ⟨-, e, herror⟩ | ⟨hdefined, hsent⟩
    · rw [herror] at hfrom
      cases hfrom
    · rw [hsent] at hfrom
      have hvalues := Option.some.inj (Except.ok.inj hfrom)
      exact ⟨hdefined, (Insertion.map_through_eq_iff h).mp hvalues⟩
  · rintro ⟨hdefined, hsame⟩ dests hshape
    rcases fromLibMcu_eq hN hpref htype hname h hbool hfits hshape with
      ⟨hundefined, -⟩ | ⟨-, hsent⟩
    · exact absurd hdefined hundefined
    · rw [hsent, (Insertion.map_through_eq_iff h).mpr hsame]

/-- **The two builds on one channel.**  For insertions that fit in a packet, the values that
one build inserts are the values that the other one extracts, in both directions, if and only if
the insertions are portable. -/
theorem interoperates_iff [LibMcu.Convertor] :
    Interoperates N config tx rxType insertions ↔ Portable insertions := by
  have hplain := plain_fields hN h hfits
  have hto := toLibMcu_iff hN hpref htype hname h hfits
  have hfrom := fromLibMcu_iff hN hpref htype hname h hfits
  have hfields : (∀ f ∈ insertions.flatMap Insertion.fields, f.Portable) ↔
      ∀ f ∈ insertions.flatMap Insertion.fields,
        Defined f ∧ Short f ∧ f.through sentFloat = f ∧ f.through heardFloat = f :=
    forall₂_congr fun f hf => Field.portable_iff (hplain f hf)
  constructor
  · intro hboth
    obtain ⟨⟨hbool, hroom⟩, hshort, hheard⟩ := hto.mp fun dests hshape => (hboth dests hshape).2
    obtain ⟨hdefined, hsent⟩ := (hfrom hbool).mp fun dests hshape => (hboth dests hshape).1
    exact ⟨hbool, hroom, hfields.mpr fun f hf =>
      ⟨hdefined f hf, hshort f hf, hsent f hf, hheard f hf⟩⟩
  · rintro ⟨hbool, hroom, hportable⟩ dests hshape
    have hall := hfields.mp hportable
    refine ⟨(hfrom hbool).mpr ⟨?_, ?_⟩ dests hshape,
      hto.mpr ⟨⟨hbool, hroom⟩, ?_, ?_⟩ dests hshape⟩
    · exact fun f hf => (hall f hf).1
    · exact fun f hf => (hall f hf).2.2.1
    · exact fun f hf => (hall f hf).2.1
    · exact fun f hf => (hall f hf).2.2.2

end

end Passages

/-- A topic with the identifier 1. -/
def chatterOnly : TopicsConfig := .loadConfiguration [("/chatter", 1)]

/-- The stream of a publisher on it. -/
def chatterTx : TxStream := ⟨publisherType, 1, false, []⟩

/-- A signed number, a float with a half, and two vectors. -/
def readings : List Insertion :=
  [.scalar .int32 (-5 : Int32), .scalar .float (0x3F800000 : UInt32),
    .vector .uint8 [(1 : UInt8), 2], .vector .string [[(0x68 : UInt8), 0x69]]]

lemma fields_readings : readings.flatMap Insertion.fields
    = [.nint (-5), .float 0x3F800000, .uint 2, .uint 1, .uint 2, .uint 1, .tstr [0x68, 0x69]] :=
  rfl

lemma admissible_readings : ∀ i ∈ readings, i.Admissible := by
  simp only [readings, List.forall_mem_cons, Insertion.Admissible]
  refine ⟨⟨trivial, trivial, trivial⟩, ⟨trivial, trivial, ?_⟩, ⟨⟨trivial, trivial, trivial⟩,
    ⟨trivial, trivial, trivial⟩, by simp⟩, ⟨⟨trivial, ?_, trivial⟩, by simp⟩, by simp⟩
  · show Binary.Finite 0x3F800000
    decide
  · show (0 : UInt8) ∉ [0x68, 0x69]
    decide

lemma readings_fit {N : NanoCbor} (hN : N.Preferred) :
    (N.encode (chatterTx.header none ++ readings.flatMap Insertion.fields)).length
      ≤ TcpDaemon.maxPacketLength := by
  have hwiden : Binary.widenHalf 0x3C00 = 0x3F800000 := by decide
  have hfinite : Binary.Finite (Binary.widenHalf 0x3C00) := by
    rw [hwiden]
    decide
  have hfloat := hN.fmtFloat_widenHalf hfinite
  rw [hwiden] at hfloat
  have hnint := hN.fmtInt (show (-5 : Int64) < 0 by decide)
  have htstr := hN.putTstrn (show [(0x68 : UInt8), 0x69].length < 2 ^ 64 by decide)
  have hheader : chatterTx.header none = [.uint 0, .uint 1] := rfl
  rw [fields_readings, hheader]
  simp only [NanoCbor.encode_append, NanoCbor.encode_cons, NanoCbor.encode_nil,
    NanoCbor.format, hN.fmtUint, hfloat, hnint, htstr]
  decide

theorem readings_interoperate :
    Interoperates NanoCbor.preferred chatterOnly chatterTx subscriberType readings := by
  have hportable : ∀ f ∈ readings.flatMap Insertion.fields, f.Portable := by
    rw [fields_readings]
    decide
  exact (interoperates_iff NanoCbor.preferred_lawful NanoCbor.preferred_preferred rfl
    (by decide) admissible_readings (readings_fit NanoCbor.preferred_preferred)).mpr
      ⟨by decide, fun _ hm => absurd hm List.not_mem_nil, hportable⟩

/-- A boolean is refused in both directions: the NanoCBOR build skips the simple value, and the
libmcu build does not take a number for it. -/
theorem switch_does_not_interoperate :
    FieldType.bool.Admissible true ∧
      (NanoCbor.preferred.encode (chatterTx.header none ++ [TxStream.insert .bool true])).length
        ≤ TcpDaemon.maxPacketLength ∧
      fromLibMcu NanoCbor.preferred chatterOnly chatterTx subscriberType
        [.scalar .bool true] [.scalar .bool false] = .ok (some [.scalar .bool false]) ∧
      toLibMcu NanoCbor.preferred chatterOnly chatterTx subscriberType
        [.scalar .bool true] [.scalar .bool false] = .error .uninitialised ∧
      ¬ Interoperates NanoCbor.preferred chatterOnly chatterTx subscriberType
        [.scalar .bool true] := by
  have hto : toLibMcu NanoCbor.preferred chatterOnly chatterTx subscriberType
      [.scalar .bool true] [.scalar .bool false] = .error .uninitialised := rfl
  refine ⟨⟨trivial, trivial, trivial⟩, by decide, rfl, hto, fun h => ?_⟩
  have hread := (h [.scalar .bool false] (.cons (.scalar .bool false true) .nil)).2
  rw [hto] at hread
  cases hread

end RmwDesert
