/-
Lists that are put together from several sources.

An entry is a value with the source that it comes from.  A list merges its sources if it takes
from each of them some values, each at most once, and in their order.  What is last in a source
is last in the whole, for a key that only this source uses (`MergesAll.lastWith_eq`).
-/
import Mathlib.Tactic

namespace Merge

variable {ι α β : Type}

section

variable [DecidableEq ι]

/-- The values of one source. -/
def ofSource (i : ι) (entries : List (ι × α)) : List α :=
  (entries.filter (·.1 = i)).map Prod.snd

/-- A list that takes values from the sources, in their order. -/
def Merges (sources : ι → List α) (values : List α) : Prop :=
  ∃ entries : List (ι × α), entries.map Prod.snd = values ∧
    ∀ i, (ofSource i entries).Sublist (sources i)

/-- A list that takes all values of the sources. -/
def MergesAll (sources : ι → List α) (values : List α) : Prop :=
  ∃ entries : List (ι × α), entries.map Prod.snd = values ∧
    ∀ i, ofSource i entries = sources i

@[simp] lemma ofSource_nil (i : ι) : ofSource i ([] : List (ι × α)) = [] := rfl

@[simp] lemma ofSource_append (i : ι) (first second : List (ι × α)) :
    ofSource i (first ++ second) = ofSource i first ++ ofSource i second := by
  simp [ofSource]

@[simp] lemma ofSource_singleton (i : ι) (x : α) : ofSource i [(i, x)] = [x] := by
  simp [ofSource]

/-- Values that all come from one source. -/
lemma ofSource_map_mk (i j : ι) (values : List α) :
    ofSource i (values.map fun x => (j, x)) = if i = j then values else [] := by
  induction values with
  | nil => simp
  | cons x values ih =>
    rw [List.map_cons, ← List.singleton_append, ofSource_append, ih]
    by_cases h : i = j
    · simp [h]
    · simp [ofSource, h, Ne.symm h]

lemma ofSource_sublist {first second : List (ι × α)} (h : first.Sublist second) (i : ι) :
    (ofSource i first).Sublist (ofSource i second) :=
  (h.filter _).map _

/-- The entries of the other sources have the same values of each of them. -/
lemma ofSource_filter_ne {i j : ι} (h : i ≠ j) (entries : List (ι × α)) :
    ofSource i (entries.filter (·.1 ≠ j)) = ofSource i entries := by
  rw [ofSource, ofSource, List.filter_filter]
  congr 1
  refine List.filter_congr fun e _ => ?_
  by_cases he : e.1 = i
  · simp [he, h]
  · simp [he]

/-- Values that are chosen and changed one by one. -/
lemma ofSource_filterMap (f : α → Option β) (i : ι) (entries : List (ι × α)) :
    ofSource i (entries.filterMap fun e => (f e.2).map fun y => (e.1, y))
      = (ofSource i entries).filterMap f := by
  induction entries with
  | nil => rfl
  | cons e entries ih =>
    obtain ⟨j, x⟩ := e
    by_cases hj : j = i
    · subst hj
      cases hx : f x with
      | none => simpa [ofSource, hx] using ih
      | some y => simpa [ofSource, hx] using ih
    · cases hx : f x with
      | none => simpa [ofSource, hx, hj] using ih
      | some y => simpa [ofSource, hx, hj] using ih

/-- Values that are taken, in order, from entries that are chosen and changed one by one. -/
theorem merges_of_sublist {sources : ι → List α} {entries : List (ι × α)} {f : α → Option β}
    {values : List β} (hentries : ∀ i, (ofSource i entries).Sublist (sources i))
    (h : values.Sublist (entries.filterMap fun e => f e.2)) :
    Merges (fun i => (sources i).filterMap f) values := by
  have hmap : (entries.filterMap fun e => (f e.2).map fun y => (e.1, y)).map Prod.snd
      = entries.filterMap fun e => f e.2 := by
    rw [List.map_filterMap]
    simp
  rw [← hmap] at h
  obtain ⟨chosen, hchosen, rfl⟩ := List.sublist_map_iff.mp h
  refine ⟨chosen, rfl, fun i => ?_⟩
  refine (ofSource_sublist hchosen i).trans ?_
  rw [ofSource_filterMap]
  exact (hentries i).filterMap f

/-- Nothing is lost on the way. -/
theorem mergesAll_of_eq {sources : ι → List α} {entries : List (ι × α)} {f : α → Option β}
    {values : List β} (hentries : ∀ i, ofSource i entries = sources i)
    (h : values = entries.filterMap fun e => f e.2) :
    MergesAll (fun i => (sources i).filterMap f) values := by
  refine ⟨entries.filterMap fun e => (f e.2).map fun y => (e.1, y), ?_, fun i => ?_⟩
  · rw [List.map_filterMap, h]
    simp
  · rw [ofSource_filterMap, hentries i]

/-- Sources that correspond one to one have merges that correspond, too. -/
theorem MergesAll.exists_forall₂ {R : β → α → Prop} {sources : ι → List α} {values : List α}
    (h : MergesAll sources values) {sources' : ι → List β}
    (hsources : ∀ i, List.Forall₂ R (sources' i) (sources i)) :
    ∃ values', MergesAll sources' values' ∧ List.Forall₂ R values' values := by
  obtain ⟨entries, rfl, hentries⟩ := h
  induction entries generalizing sources sources' with
  | nil =>
    refine ⟨[], ⟨[], rfl, fun i => ?_⟩, .nil⟩
    have hnil := hsources i
    rw [← hentries i] at hnil
    exact (List.forall₂_nil_right_iff.mp hnil).symm
  | cons e entries ih =>
    obtain ⟨i, x⟩ := e
    -- the first entry is the first value of its source
    have hself : sources i = x :: ofSource i entries := by
      rw [← hentries i]
      simp [ofSource]
    have hother : ∀ j ≠ i, sources j = ofSource j entries := by
      intro j hj
      rw [← hentries j]
      simp [ofSource, hj.symm]
    have hi := hsources i
    rw [hself] at hi
    obtain ⟨y, tail, hy, htail, hcons⟩ := List.forall₂_cons_right_iff.mp hi
    have hrest : ∀ j, List.Forall₂ R (Function.update sources' i tail j) (ofSource j entries) := by
      intro j
      by_cases hj : j = i
      · subst hj
        rwa [Function.update_self]
      · rw [Function.update_of_ne hj, ← hother j hj]
        exact hsources j
    obtain ⟨values', ⟨entries', rfl, hentries'⟩, hvalues'⟩ := ih hrest fun _ => rfl
    refine ⟨_, ⟨(i, y) :: entries', rfl, fun j => ?_⟩, .cons hy hvalues'⟩
    have hj' := hentries' j
    by_cases hj : j = i
    · subst hj
      rw [Function.update_self] at hj'
      rw [hcons, ← hj']
      simp [ofSource]
    · rw [Function.update_of_ne hj] at hj'
      rw [← hj']
      simp [ofSource, Ne.symm hj]

lemma MergesAll.mem_iff {sources : ι → List α} {values : List α} (h : MergesAll sources values)
    {x : α} : x ∈ values ↔ ∃ i, x ∈ sources i := by
  obtain ⟨entries, rfl, hsources⟩ := h
  simp only [← hsources, ofSource, List.mem_map, List.mem_filter, decide_eq_true_eq]
  constructor
  · rintro ⟨e, he, rfl⟩
    exact ⟨e.1, e, ⟨he, rfl⟩, rfl⟩
  · rintro ⟨i, e, ⟨he, -⟩, rfl⟩
    exact ⟨e, he, rfl⟩

end

/-! ## The last value with a key -/

section

variable {κ : Type} [DecidableEq κ] {key : α → κ}

/-- The last value that has the key. -/
def lastWith (key : α → κ) (k : κ) (values : List α) : Option α :=
  (values.filter (key · = k)).getLast?

@[simp] lemma lastWith_nil (key : α → κ) (k : κ) : lastWith key k [] = none := rfl

lemma lastWith_concat (key : α → κ) (k : κ) (values : List α) (x : α) :
    lastWith key k (values ++ [x]) = if key x = k then some x else lastWith key k values := by
  rw [lastWith, List.filter_append]
  by_cases h : key x = k
  · simp [h]
  · simp [h, lastWith]

lemma lastWith_append (key : α → κ) (k : κ) (first second : List α) :
    lastWith key k (first ++ second) = (lastWith key k second).or (lastWith key k first) := by
  rw [lastWith, List.filter_append, List.getLast?_append]
  rfl

lemma lastWith_eq_none {k : κ} {values : List α} :
    lastWith key k values = none ↔ ∀ x ∈ values, key x ≠ k := by
  rw [lastWith, List.getLast?_eq_none_iff, List.filter_eq_nil_iff]
  simp

lemma mem_of_lastWith {k : κ} {values : List α} {x : α} (h : lastWith key k values = some x) :
    x ∈ values ∧ key x = k := by
  have hmem := List.mem_of_getLast? h
  rw [List.mem_filter, decide_eq_true_eq] at hmem
  exact hmem

/-- A key that only one source uses has, in the whole, the last value of that source. -/
theorem MergesAll.lastWith_eq [DecidableEq ι] {sources : ι → List α} {values : List α}
    (h : MergesAll sources values) {k : κ} {i : ι}
    (howned : ∀ j, ∀ x ∈ sources j, key x = k → j = i) :
    lastWith key k values = lastWith key k (sources i) := by
  obtain ⟨entries, rfl, hsources⟩ := h
  have hmem : ∀ e ∈ entries, key e.2 = k → e.1 = i := by
    intro e he hkey
    refine howned e.1 e.2 ?_ hkey
    rw [← hsources e.1, ofSource]
    exact List.mem_map_of_mem (List.mem_filter.mpr ⟨he, decide_eq_true rfl⟩)
  rw [lastWith, lastWith, ← hsources i, ofSource, List.filter_map, List.filter_map,
    List.filter_filter]
  congr 2
  refine List.filter_congr fun e he => ?_
  by_cases hkey : key e.2 = k
  · simp [hkey, hmem e he hkey]
  · simp [hkey]

end

end Merge
