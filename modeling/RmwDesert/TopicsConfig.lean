/-
The table of topics (`TopicsConfig.cpp`).

The configuration file maps names to identifiers.  `load_configuration` keeps that map and
the inverse one, in which a later name replaces an earlier one with the same identifier.
-/
import Mathlib.Data.String.Basic
import Mathlib.Tactic

namespace RmwDesert

/-- The two maps of `TopicsConfig`. -/
structure TopicsConfig where
  /-- `_topics_list`. -/
  topicsList : List (String × UInt8)
  /-- `_identifiers_list`, the last binding of an identifier first. -/
  identifiersList : List (UInt8 × String)

namespace TopicsConfig

/-- `load_configuration`, given the entries of the `topics` object in the order of the
map. -/
def loadConfiguration (topics : List (String × UInt8)) : TopicsConfig :=
  ⟨topics, (topics.map Prod.swap).reverse⟩

/-- `get_topic_identifier`. -/
def getTopicIdentifier (config : TopicsConfig) (name : String) : UInt8 :=
  (config.topicsList.lookup name).getD 0

/-- `get_identifier_topic`. -/
def getIdentifierTopic (config : TopicsConfig) (identifier : UInt8) : String :=
  (config.identifiersList.lookup identifier).getD ""

/-- `load_configuration`, given the numbers of the `topics` object, which `get` narrows to
`uint8_t`. -/
def ofJson (topics : List (String × Int)) : TopicsConfig :=
  loadConfiguration (topics.map fun (name, value) => (name, UInt8.ofInt value))

/-- The entries of a `std::map`, which are sorted by their names. -/
def IsMap (topics : List (String × UInt8)) : Prop := topics.Pairwise fun a b => a.1 < b.1

/-- No two names have the same identifier other than 0. -/
def DistinctIdentifiers (topics : List (String × Int)) : Prop :=
  ∀ a ∈ topics, ∀ b ∈ topics, UInt8.ofInt a.2 = UInt8.ofInt b.2 → UInt8.ofInt a.2 ≠ 0 → a.1 = b.1

/-- A name with an identifier other than 0 is bound. -/
lemma mem_of_getTopicIdentifier {topics : List (String × UInt8)} {name : String}
    (h : (loadConfiguration topics).getTopicIdentifier name ≠ 0) :
    (name, (loadConfiguration topics).getTopicIdentifier name) ∈ topics := by
  unfold getTopicIdentifier loadConfiguration at h ⊢
  cases hlookup : topics.lookup name with
  | none => simp [hlookup] at h
  | some identifier =>
    obtain ⟨before, after, rfl, -⟩ := List.lookup_eq_some_iff.mp hlookup
    exact List.mem_append_right before List.mem_cons_self

/-- With distinct identifiers, an identifier other than 0 belongs to one name only. -/
lemma eq_of_getTopicIdentifier_eq {topics : List (String × Int)}
    (hdistinct : DistinctIdentifiers topics) {name name' : String}
    (heq : (ofJson topics).getTopicIdentifier name = (ofJson topics).getTopicIdentifier name')
    (hne : (ofJson topics).getTopicIdentifier name ≠ 0) : name = name' := by
  obtain ⟨a, ha, hname⟩ := List.mem_map.mp (mem_of_getTopicIdentifier hne)
  obtain ⟨b, hb, hname'⟩ := List.mem_map.mp (mem_of_getTopicIdentifier (heq ▸ hne))
  obtain ⟨rfl, hvalue⟩ := Prod.mk.inj hname
  obtain ⟨rfl, hvalue'⟩ := Prod.mk.inj hname'
  refine hdistinct a ha b hb ?_ ?_
  · rw [hvalue, hvalue']
    exact heq
  · rw [hvalue]
    exact hne

/-- The identifier of a name has a topic, unless the name is empty. -/
lemma getIdentifierTopic_ne_empty {topics : List (String × UInt8)} (htopics : IsMap topics)
    {name : String} (hname : name ≠ "") {identifier : UInt8} (h : (name, identifier) ∈ topics) :
    (loadConfiguration topics).getIdentifierTopic identifier ≠ "" := by
  have hentry : (identifier, name) ∈ (loadConfiguration topics).identifiersList := by
    simpa [loadConfiguration] using h
  have hsorted : (loadConfiguration topics).identifiersList.Pairwise fun a b => b.2 < a.2 := by
    simpa [loadConfiguration, List.pairwise_reverse, List.pairwise_map, IsMap] using htopics
  unfold getIdentifierTopic
  cases hlookup : (loadConfiguration topics).identifiersList.lookup identifier with
  | none =>
    rw [List.lookup_eq_none_iff] at hlookup
    exact absurd (hlookup _ hentry) (by simp)
  | some last =>
    obtain ⟨before, after, hsplit, hbefore⟩ := List.lookup_eq_some_iff.mp hlookup
    rw [hsplit] at hentry hsorted
    show last ≠ ""
    rcases List.mem_append.mp hentry with hmem | hmem
    · exact absurd (hbefore _ hmem) (by simp)
    · rcases List.mem_cons.mp hmem with heq | hmem
      · obtain rfl := (Prod.mk.inj heq).2
        exact hname
      · -- the last name with the identifier comes after the given one
        have hlt : name < last :=
          (List.pairwise_cons.mp (List.pairwise_append.mp hsorted).2.1).1 _ hmem
        rintro rfl
        exact List.not_lt_nil _ (String.lt_iff_toList_lt.mp hlt)

end TopicsConfig
end RmwDesert
