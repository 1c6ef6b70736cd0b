/-
Mangled names and the demanglers (`demangle.cpp`).

The cache holds a topic name behind the decimal type of its entity, and type and name both come
from a beacon.  A demangler compares the prefix of its kind and reads the character behind it.
The main result, `demangles_iff`, says that this is safe and unambiguous for all numbers and
all names but one: an entity of a kind with the empty name.
-/
import RmwDesert.Discovery.GraphQueries

namespace RmwDesert
namespace Discovery

/-- `demangle_topic`. -/
def demangleTopic : Demangle := fun name => do
  let demangledTopic ← demanglePublisherFromTopic name
  if demangledTopic ≠ [] then return demangledTopic
  else demangleSubscriberFromTopic name

/-- `demangle_service_from_topic`. -/
def demangleServiceFromTopic : Demangle := fun name => do
  let demangledTopic ← demangleServiceReplyFromTopic name
  if demangledTopic ≠ [] then return demangledTopic
  else demangleServiceRequestFromTopic name

/-- The demanglers of the kinds. -/
def demangleFromTopic : EntityKind → Demangle
  | .publisher => demanglePublisherFromTopic
  | .subscriber => demangleSubscriberFromTopic
  | .client => demangleServiceRequestFromTopic
  | .service => demangleServiceReplyFromTopic

/-! ## Decimal numbers -/

/-- A digit is not a slash. -/
lemma ofNat_ne_slash {c : Char} (h : c.isDigit = true) : UInt8.ofNat c.toNat ≠ 0x2F := by
  have hcode : 48 ≤ c.toNat ∧ c.toNat ≤ 57 := by
    simpa [Char.isDigit, UInt32.le_iff_toNat_le] using h
  intro heq
  have hnat := congrArg UInt8.toNat heq
  rw [UInt8.toNat_ofNat_of_lt' (show c.toNat < 256 by omega)] at hnat
  replace hnat : c.toNat = 47 := hnat
  omega

/-- Behind the first character of a number there are digits, and a number with nothing behind its
first character is that digit. -/
lemma integerToString_eq_cons (x : Int32) : ∃ c rest, integerToString x = c :: rest ∧
    (∀ e ∈ rest, e ≠ 0x2F) ∧
    (rest = [] → 0 ≤ x.toInt ∧ x.toInt < 10 ∧ c = UInt8.ofNat (0x30 + x.toInt.toNat)) := by
  have hdigits : ∀ e ∈ (Nat.toDigits 10 x.toInt.natAbs).map fun c => UInt8.ofNat c.toNat,
      e ≠ 0x2F := by
    intro e he
    obtain ⟨c, hc, rfl⟩ := List.mem_map.mp he
    exact ofNat_ne_slash (Nat.isDigit_of_mem_toDigits (by omega) (le_refl _) hc)
  have hneg : x < 0 ↔ x.toInt < 0 := by simpa using @Int32.lt_iff_toInt_lt x 0
  rw [integerToString]
  by_cases hx : x < 0
  · rw [if_pos hx]
    refine ⟨_, _, rfl, hdigits, fun hnil => ?_⟩
    exact absurd (List.map_eq_nil_iff.mp hnil) Nat.toDigits_ne_nil
  · rw [if_neg hx, List.nil_append]
    rw [hneg, not_lt] at hx
    obtain ⟨c, rest, hcons⟩ := List.exists_cons_of_ne_nil
      (fun hnil => Nat.toDigits_ne_nil (List.map_eq_nil_iff.mp hnil) :
        (Nat.toDigits 10 x.toInt.natAbs).map (fun c => UInt8.ofNat c.toNat) ≠ [])
    rw [hcons] at hdigits ⊢
    refine ⟨c, rest, rfl, fun e he => hdigits e (List.mem_cons_of_mem c he), ?_⟩
    rintro rfl
    have hlen := congrArg List.length hcons
    rw [List.length_map, List.length_singleton] at hlen
    have hsmall : x.toInt.natAbs < 10 := by
      have hle := (Nat.length_toDigits_le_iff (by omega) (by omega)).mp hlen.le
      simpa using hle
    rw [Nat.toDigits_of_lt_base hsmall] at hcons
    obtain rfl := (List.cons.inj hcons).1
    refine ⟨hx, by omega, ?_⟩
    show UInt8.ofNat (Nat.digitChar x.toInt.natAbs).toNat = _
    rw [Nat.toNat_digitChar_of_lt_ten hsmall, show x.toInt.natAbs = x.toInt.toNat by omega]

/-! ## Demangling a mangled name -/

/-- The prefix of a kind is one character, and the next one decides. -/
lemma demangleFromTopic_cons (kind : EntityKind) (c : UInt8) (rest : List UInt8) :
    demangleFromTopic kind (c :: rest) = if c = 0x30 + kind.entityType then
        match rest with
        | [] => .error .outOfRange
        | e :: _ => .ok (if e = 0x2F then rest else [])
      else .ok [] := by
  have hresolve : demangleFromTopic kind (c :: rest)
      = resolvePrefix (c :: rest) (kindDigits kind) := by
    cases kind <;> rfl
  rw [hresolve, kindDigits_eq, resolvePrefix]
  by_cases hc : c = 0x30 + kind.entityType
  · subst hc
    cases rest with
    | nil => simp
    | cons e rest => simp
  · have hne : ¬ 0x30 + kind.entityType = c := fun h => hc h.symm
    simp [hc, hne]

/-- The number of another entity is not taken for the prefix of a kind. -/
lemma demangle_of_not_isKind {kind : EntityKind} {b : Beacon} (h : ¬ IsKind kind b) :
    demangleFromTopic kind (mangledName b) = .ok [] := by
  obtain ⟨c, rest, hnumber, hdigits, hsingle⟩ := integerToString_eq_cons b.entityType
  rw [mangledName, hnumber, List.cons_append, demangleFromTopic_cons]
  split_ifs with hc
  · cases rest with
    | cons e rest => simp [hdigits e List.mem_cons_self]
    | nil =>
      -- the digit of the kind and nothing else is the type of the kind
      obtain ⟨hpos, hlt, hcode⟩ := hsingle rfl
      have hvalue : (0x30 + kind.entityType).toNat = 0x30 + b.entityType.toInt.toNat := by
        have hsmall : 0x30 + b.entityType.toInt.toNat < 256 := by omega
        rw [← hc, hcode, UInt8.toNat_ofNat_of_lt' hsmall]
      have hkind : (0x30 + kind.entityType).toNat
          = 0x30 + (kind.entityType.toUInt32.toInt32).toInt.toNat ∧
          0 ≤ (kind.entityType.toUInt32.toInt32).toInt := by
        cases kind <;> exact ⟨rfl, by decide⟩
      refine absurd (Int32.toInt_inj.mp ?_) h
      omega
  · rfl

/-- The demangler of the kind strips the digit, if a topic name is there. -/
lemma demangle_of_isKind {kind : EntityKind} {b : Beacon} (h : IsKind kind b) :
    demangleFromTopic kind (mangledName b) = match b.topicName with
      | [] => .error .outOfRange
      | e :: _ => .ok (if e = 0x2F then b.topicName else []) := by
  rw [h.mangledName_eq, demangleFromTopic_cons, if_pos rfl]

/-- Demangling as it should be: no demangler throws, the demangler of the type returns the topic
name exactly if it begins with a slash, and the others return nothing. -/
structure Demangles (b : Beacon) : Prop where
  total : ∀ demangle ∈ [demanglePublisherFromTopic, demangleSubscriberFromTopic,
      demangleServiceRequestFromTopic, demangleServiceReplyFromTopic, demangleTopic,
      demangleServiceFromTopic], ∃ name, demangle (mangledName b) = .ok name
  own : ∀ kind, IsKind kind b → (demangleFromTopic kind (mangledName b) = .ok b.topicName ↔
    b.topicName.head? = some 0x2F)
  others : ∀ kind, ¬ IsKind kind b → demangleFromTopic kind (mangledName b) = .ok []

/-- The demanglers of two kinds return if those of the kinds do. -/
lemma exists_demangled {name : List UInt8}
    (h : ∀ kind, ∃ demangled, demangleFromTopic kind name = .ok demangled) :
    ∀ demangle ∈ [demanglePublisherFromTopic, demangleSubscriberFromTopic,
      demangleServiceRequestFromTopic, demangleServiceReplyFromTopic, demangleTopic,
      demangleServiceFromTopic], ∃ demangled, demangle name = .ok demangled := by
  have hboth : ∀ first second : Demangle, (∃ demangled, first name = .ok demangled) →
      (∃ demangled, second name = .ok demangled) → ∃ demangled, (do
        let demangledTopic ← first name
        if demangledTopic ≠ [] then return demangledTopic else second name :
          Except Failure (List UInt8)) = .ok demangled := by
    rintro first second ⟨demangled, hfirst⟩ hsecond
    rw [hfirst]
    show ∃ result, (if demangled ≠ [] then .ok demangled else second name) = .ok result
    split_ifs
    · exact ⟨demangled, rfl⟩
    · exact hsecond
  simp only [List.forall_mem_cons]
  exact ⟨h .publisher, h .subscriber, h .client, h .service,
    hboth _ _ (h .publisher) (h .subscriber), hboth _ _ (h .service) (h .client), by simp⟩

/-- A name that is there, or the number of another entity, is demangled. -/
lemma demangles_of_named {b : Beacon} (h : ¬ (b.topicName = [] ∧ HasKind b)) : Demangles b := by
  have hown : ∀ kind, IsKind kind b → demangleFromTopic kind (mangledName b)
      = .ok (if b.topicName.head? = some 0x2F then b.topicName else []) := by
    intro kind hkind
    rw [demangle_of_isKind hkind]
    cases htopic : b.topicName with
    | nil => exact absurd ⟨htopic, kind, hkind⟩ h
    | cons e rest => simp
  refine ⟨exists_demangled fun kind => ?_, fun kind hkind => ?_, fun kind =>
    demangle_of_not_isKind⟩
  · by_cases hkind : IsKind kind b
    · exact ⟨_, hown kind hkind⟩
    · exact ⟨_, demangle_of_not_isKind hkind⟩
  · rw [hown kind hkind, Except.ok.injEq]
    split_ifs with hslash
    · exact iff_of_true rfl hslash
    · refine iff_of_false (fun hempty => ?_) hslash
      exact h ⟨hempty.symm, kind, hkind⟩

/-- **Mangled names.**  They are demangled as they should be, unless the entity has one of the
four kinds and its topic has the empty name. -/
theorem demangles_iff (b : Beacon) : Demangles b ↔ ¬ (b.topicName = [] ∧ HasKind b) := by
  refine ⟨?_, demangles_of_named⟩
  rintro hdemangles ⟨hempty, kind, hkind⟩
  have hthrows : demangleFromTopic kind (mangledName b) = .error .outOfRange := by
    rw [demangle_of_isKind hkind, hempty]
  obtain ⟨name, hname⟩ : ∃ name, demangleFromTopic kind (mangledName b) = .ok name := by
    have htotal := hdemangles.total
    simp only [List.forall_mem_cons] at htotal
    cases kind with
    | publisher => exact htotal.1
    | subscriber => exact htotal.2.1
    | client => exact htotal.2.2.1
    | service => exact htotal.2.2.2.1
  rw [hthrows] at hname
  cases hname

/-- A publisher on the empty topic. -/
def namelessPublisher : Beacon := { sampleBeacon 0x61 0 1 with topicName := [] }

/-- Its name in the cache makes a demangler throw. -/
theorem nameless_publisher_throws : ¬ ∀ b : Beacon, Demangles b := by
  intro hall
  obtain ⟨name, hname⟩ := (hall namelessPublisher).total demanglePublisherFromTopic (by simp)
  have hthrows : demanglePublisherFromTopic (mangledName namelessPublisher)
      = .error .outOfRange := by decide +kernel
  rw [hthrows] at hname
  cases hname

/-! ## The names in the cache -/

/-- A turn of the thread adds no name but that of its beacon. -/
lemma entities_register_cases {b : Beacon} {c : MapCache} {node : NodeEntitiesInfo}
    {isReader : Bool} {gid : Gid} {info : EntityInfo}
    (h : MapCache.contents.entities (register mapCache b c node) isReader gid = some info) :
    MapCache.contents.entities c isReader gid = some info ∨ info.topicName = mangledName b := by
  have hupdate := mapCache_lawful.entities_update ⟨defaultGid, [node]⟩ c
  rw [register] at h
  split_ifs at h with hdisconnect
  · rw [mapCache_lawful.entities_removeEntity, hupdate] at h
    split_ifs at h
    exact Or.inl h
  · by_cases hsame : (isReader, gid) = (b.isReader, b.entityGid)
    · obtain ⟨rfl, rfl⟩ := Prod.mk.inj hsame
      rw [← hupdate]
      cases hknown : MapCache.contents.entities
          (mapCache.updateParticipantEntities ⟨defaultGid, [node]⟩ c) b.isReader b.entityGid with
      | none =>
        rw [mapCache_lawful.entities_addEntity _ _ _ (Or.inl hknown)] at h
        obtain rfl := Option.some.inj h
        exact Or.inr rfl
      | some known =>
        -- an entity that is known is not replaced
        have hmem : b.entityGid ∈ (mapCache.updateParticipantEntities ⟨defaultGid, [node]⟩ c).table
            b.isReader := AList.lookup_isSome.mp (Option.isSome_iff_exists.mpr ⟨known, hknown⟩)
        have hkeep : mapCache.addEntity b.entityGid (mangledName b) b.typeName defaultGid b.isReader
            (mapCache.updateParticipantEntities ⟨defaultGid, [node]⟩ c)
            = mapCache.updateParticipantEntities ⟨defaultGid, [node]⟩ c := if_pos hmem
        rw [hkeep, hknown] at h
        exact Or.inl h
    · rw [mapCache_lawful.entities_addEntity_of_ne _ _ _ _ hsame, hupdate] at h
      exact Or.inl h

/-- **Every name in the cache.**  As long as no entity of a kind is announced without a topic
name, the cache holds names that are demangled as they should be. -/
theorem cached_names_demangle {beacons : List Beacon} {s : Discovered MapCache}
    (h : ∀ b ∈ beacons, ¬ (b.topicName = [] ∧ HasKind b))
    (hrun : Transition.run (step mapCache) (initial mapCache) beacons = .ok s) (isReader : Bool)
    (gid : Gid) (info : EntityInfo)
    (hinfo : MapCache.contents.entities s.cache isReader gid = some info) :
    ∃ b : Beacon, info.topicName = mangledName b ∧ Demangles b := by
  have hkept : ∀ isReader gid info, MapCache.contents.entities s.cache isReader gid = some info →
      ∃ b : Beacon, info.topicName = mangledName b ∧ Demangles b := by
    refine Transition.run_invariant (P := fun _ b => ¬ (b.topicName = [] ∧ HasKind b))
      (I := fun s : Discovered MapCache => ∀ isReader gid info,
        MapCache.contents.entities s.cache isReader gid = some info →
        ∃ b : Beacon, info.topicName = mangledName b ∧ Demangles b) ?_ ?_ ?_ hrun
    · intro s b t hs hb ht isReader gid info hinfo
      obtain ⟨c, hc, ht⟩ := Transition.bind_eq_ok.mp ht
      obtain rfl := Except.ok.inj ht
      obtain ⟨node, -, hc⟩ := Transition.bind_eq_ok.mp hc
      obtain rfl := Except.ok.inj hc
      rcases entities_register_cases hinfo with hinfo | hname
      · exact hs isReader gid info hinfo
      · exact ⟨b, hname, demangles_of_named hb⟩
    · -- the cache starts without entities
      intro isReader gid info hinfo
      rw [initial, mapCache_lawful.entities_addParticipant, mapCache_lawful.entities_empty] at hinfo
      cases hinfo
    · exact Transition.everyStep_of_forall fun b hb _ => h b hb
  exact hkept isReader gid info hinfo

end Discovery
end RmwDesert
