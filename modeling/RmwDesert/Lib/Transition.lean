/-
Runs of a system given by a step function that may fail.

A run is a list of events.  `EveryStep` states a condition on each step of a run, in the
state in which it is taken; `run_invariant` is the rule for invariants under such a
condition, and `run_iff` the rule for properties that a step keeps exactly if it meets one.
`Post` is a postcondition of one computation, with `post_run` as the rule for runs in which the
invariant depends on what has happened and on what is still to come.
-/
import Mathlib.Tactic

namespace Transition

/-- A sequence of two computations returns if both do. -/
lemma bind_eq_ok {ε α β : Type} {x : Except ε α} {f : α → Except ε β} {r : β} :
    x >>= f = .ok r ↔ ∃ a, x = .ok a ∧ f a = .ok r := by
  cases x with
  | error e =>
    constructor
    · rintro ⟨⟩
    · rintro ⟨a, ⟨⟩, _⟩
  | ok a =>
    constructor
    · exact fun h => ⟨a, rfl, h⟩
    · rintro ⟨b, ⟨⟩, h⟩
      exact h

/-- The results of a loop over a list. -/
lemma mem_of_mapM_ok {ε α β : Type} {f : α → Except ε β} {l : List α} {results : List β}
    (h : l.mapM f = .ok results) (r : β) : r ∈ results ↔ ∃ a ∈ l, f a = .ok r := by
  induction l generalizing results with
  | nil =>
    obtain rfl := Except.ok.inj h
    simp
  | cons a l ih =>
    rw [List.mapM_cons] at h
    obtain ⟨first, hfirst, h⟩ := bind_eq_ok.mp h
    obtain ⟨others, hothers, h⟩ := bind_eq_ok.mp h
    obtain rfl := Except.ok.inj h
    simp only [List.mem_cons, exists_eq_or_imp, hfirst, Except.ok.injEq, ih hothers,
      eq_comm (a := r)]

/-- A loop over a list in which every turn returns. -/
lemma mapM_eq_ok {ε α β : Type} {f : α → Except ε β} {g : α → β} {l : List α}
    (h : ∀ a ∈ l, f a = .ok (g a)) : l.mapM f = .ok (l.map g) := by
  induction l with
  | nil => rfl
  | cons a l ih =>
    obtain ⟨ha, hl⟩ := List.forall_mem_cons.mp h
    rw [List.mapM_cons, ha, ih hl]
    rfl

variable {σ α ε : Type}

/-! ## Postconditions -/

/-- What holds after a computation: `Q` of what it returns, or `E` if it fails.  With `True` for
`E` this is partial correctness, and total correctness with `False`. -/
def Post (E : Prop) (x : Except ε α) (Q : α → Prop) : Prop :=
  match x with
  | .ok a => Q a
  | .error _ => E

section

variable {β : Type} {E : Prop} {x : Except ε α} {f : α → Except ε β}

/-- A sequence of two computations. -/
lemma post_bind {Q : β → Prop} : Post E (x >>= f) Q ↔ Post E x fun a => Post E (f a) Q := by
  cases x with
  | ok a => exact Iff.rfl
  | error e => exact Iff.rfl

lemma Post.imp {Q R : α → Prop} (h : Post E x Q) (himp : ∀ a, Q a → R a) : Post E x R := by
  cases x with
  | ok a => exact himp a h
  | error e => exact h

lemma post_true_iff {Q : α → Prop} : Post True x Q ↔ ∀ a, x = .ok a → Q a := by
  cases x with
  | ok a => exact ⟨fun h b hb => Except.ok.inj hb ▸ h, fun h => h a rfl⟩
  | error e => exact iff_of_true trivial nofun

lemma post_false_iff {Q : α → Prop} : Post False x Q ↔ ∃ a, x = .ok a ∧ Q a := by
  cases x with
  | ok a =>
    constructor
    · exact fun h => ⟨a, rfl, h⟩
    · rintro ⟨b, hb, h⟩
      exact Except.ok.inj hb ▸ h
  | error e =>
    refine iff_of_false id ?_
    rintro ⟨a, ha, -⟩
    cases ha

end

/-! ## Runs -/

/-- The state after a list of events. -/
def run (step : σ → α → Except ε σ) : σ → List α → Except ε σ
  | s, [] => .ok s
  | s, a :: events => step s a >>= fun t => run step t events

/-- Every step of the run meets the condition. -/
def EveryStep (step : σ → α → Except ε σ) (P : σ → α → Prop) : σ → List α → Prop
  | _, [] => True
  | s, a :: events => P s a ∧ ∀ t, step s a = .ok t → EveryStep step P t events

variable {step : σ → α → Except ε σ} {P Q D : σ → α → Prop} {I : σ → Prop}

lemma run_cons {s u : σ} {a : α} {events : List α} (h : run step s (a :: events) = .ok u) :
    ∃ t, step s a = .ok t ∧ run step t events = .ok u :=
  bind_eq_ok.mp h

lemma run_append (s : σ) (first second : List α) :
    run step s (first ++ second) = run step s first >>= fun t => run step t second := by
  induction first generalizing s with
  | nil => rfl
  | cons a first ih =>
    cases h : step s a with
    | error e => simp [run, h, bind, Except.bind]
    | ok t => simpa [run, h, bind, Except.bind] using ih t

lemma run_append_ok {s t u : σ} {first second : List α} (hfirst : run step s first = .ok t)
    (hsecond : run step t second = .ok u) : run step s (first ++ second) = .ok u := by
  rw [run_append, hfirst]
  exact hsecond

/-- The rule for runs: what each step makes of the events before and after it. -/
theorem post_run {β : Type} {E : Prop} {label : α → β} {J : List β → List α → σ → Prop}
    (hstep : ∀ past event later s, J past (event :: later) s →
      Post E (step s event) (J (past ++ [label event]) later)) {past : List β}
    {events later : List α} {s : σ} (h : J past (events ++ later) s) :
    Post E (run step s events) (J (past ++ events.map label) later) := by
  induction events generalizing past s with
  | nil => rwa [List.map_nil, List.append_nil]
  | cons event events ih =>
    rw [run, post_bind]
    refine (hstep past event (events ++ later) s h).imp fun t ht => ?_
    rw [List.map_cons, List.append_cons]
    exact ih ht

/-- A first step that the system can take. -/
lemma everyStep_cons {s t : σ} {a : α} {events : List α} (h : step s a = .ok t) :
    EveryStep step P s (a :: events) ↔ P s a ∧ EveryStep step P t events := by
  refine and_congr_right fun _ => ⟨fun hevery => hevery t h, fun hevery u hu => ?_⟩
  obtain rfl := Except.ok.inj (h.symm.trans hu)
  exact hevery

/-- A run in two parts. -/
lemma everyStep_append {s : σ} {first second : List α} (hfirst : EveryStep step P s first)
    (hsecond : ∀ t, run step s first = .ok t → EveryStep step P t second) :
    EveryStep step P s (first ++ second) := by
  induction first generalizing s with
  | nil => exact hsecond s rfl
  | cons a first ih =>
    refine ⟨hfirst.1, fun u hu => ih (hfirst.2 u hu) fun t ht => hsecond t ?_⟩
    rw [run, hu]
    exact ht

/-- A condition that the events meet in every state. -/
lemma everyStep_of_forall {s : σ} {events : List α} (h : ∀ a ∈ events, ∀ s, P s a) :
    EveryStep step P s events := by
  induction events generalizing s with
  | nil => exact trivial
  | cons a events ih =>
    exact ⟨h a List.mem_cons_self s, fun t _ => ih fun b hb => h b (List.mem_cons_of_mem a hb)⟩

/-- Two conditions on every step. -/
lemma EveryStep.and {s : σ} {events : List α} (hP : EveryStep step P s events)
    (hQ : EveryStep step Q s events) : EveryStep step (fun s a => P s a ∧ Q s a) s events := by
  induction events generalizing s with
  | nil => exact trivial
  | cons a events ih =>
    exact ⟨⟨hP.1, hQ.1⟩, fun t ht => ih (hP.2 t ht) (hQ.2 t ht)⟩

/-- Two conditions that agree in the states that are reached under the second one. -/
theorem everyStep_iff (hstep : ∀ {s a t}, I s → D s a → Q s a → step s a = .ok t → I t)
    (hiff : ∀ {s a}, I s → D s a → (P s a ↔ Q s a)) {s : σ} {events : List α} (hs : I s)
    (hD : EveryStep step D s events) :
    EveryStep step P s events ↔ EveryStep step Q s events := by
  induction events generalizing s with
  | nil => exact Iff.rfl
  | cons a events ih =>
    have hfirst := hiff hs hD.1
    constructor
    · rintro ⟨hP, hrest⟩
      exact ⟨hfirst.mp hP, fun t ht =>
        (ih (hstep hs hD.1 (hfirst.mp hP) ht) (hD.2 t ht)).mp (hrest t ht)⟩
    · rintro ⟨hQ, hrest⟩
      exact ⟨hfirst.mpr hQ, fun t ht => (ih (hstep hs hD.1 hQ ht) (hD.2 t ht)).mpr (hrest t ht)⟩

/-- A condition that holds in every state of an invariant. -/
theorem everyStep_of_invariant (hstep : ∀ {s a t}, I s → D s a → step s a = .ok t → I t)
    (himp : ∀ {s a}, I s → D s a → P s a) {s : σ} {events : List α} (hs : I s)
    (hD : EveryStep step D s events) : EveryStep step P s events := by
  refine (everyStep_iff (fun hs hD _ ht => hstep hs hD ht) (fun hs hD => ?_) hs hD).mpr hD
  exact iff_of_true (himp hs hD) hD

/-- What each step preserves under the condition holds after the run. -/
theorem run_invariant (hstep : ∀ {s a t}, I s → P s a → step s a = .ok t → I t) {s t : σ}
    {events : List α} (hs : I s) (hP : EveryStep step P s events)
    (hrun : run step s events = .ok t) : I t := by
  induction events generalizing s with
  | nil =>
    obtain rfl := Except.ok.inj hrun
    exact hs
  | cons a events ih =>
    obtain ⟨u, hu, hrun⟩ := run_cons hrun
    exact ih (hstep hs hP.1 hu) (hP.2 u hu) hrun

/-- A property of the states that a step keeps exactly if the step meets a condition: it
holds after a run if and only if it held before and every step met the condition. -/
theorem run_iff {Good : σ → Prop} (hstep : ∀ {s a t}, I s → D s a → step s a = .ok t → I t)
    (hgood : ∀ {s a t}, I s → D s a → step s a = .ok t → (Good t ↔ Good s ∧ Q s a)) {s t : σ}
    {events : List α} (hs : I s) (hD : EveryStep step D s events)
    (hrun : run step s events = .ok t) :
    Good t ↔ Good s ∧ EveryStep step Q s events := by
  induction events generalizing s with
  | nil =>
    obtain rfl := Except.ok.inj hrun
    exact (and_iff_left trivial).symm
  | cons a events ih =>
    obtain ⟨u, hu, hrun⟩ := run_cons hrun
    have hrest := ih (hstep hs hD.1 hu) (hD.2 u hu) hrun
    rw [hrest, hgood hs hD.1 hu, everyStep_cons hu, and_assoc]

/-- A property that a step from a good state keeps exactly if the step meets a condition: it
holds after each part of a run if and only if every step meets the condition. -/
theorem forall_prefix_iff {Good : σ → Prop}
    (hgood : ∀ {s a}, Good s → D s a → ∃ t, step s a = .ok t ∧ (Good t ↔ Q s a)) {s : σ}
    {events : List α} (hs : Good s) (hD : EveryStep step D s events) :
    (∀ first, first <+: events → ∃ t, run step s first = .ok t ∧ Good t) ↔
      EveryStep step Q s events := by
  induction events generalizing s with
  | nil =>
    refine iff_of_true (fun first hfirst => ?_) trivial
    obtain rfl := List.prefix_nil.mp hfirst
    exact ⟨s, rfl, hs⟩
  | cons a events ih =>
    obtain ⟨t, ht, hiff⟩ := hgood hs hD.1
    have hrun : ∀ first, run step s (a :: first) = run step t first := by
      intro first
      rw [run, ht]
      rfl
    rw [everyStep_cons ht]
    constructor
    · intro h
      have hgoodt : Good t := by
        obtain ⟨u, hu, hgoodu⟩ := h [a] (List.cons_prefix_cons.mpr ⟨rfl, List.nil_prefix⟩)
        rw [hrun] at hu
        obtain rfl := Except.ok.inj hu
        exact hgoodu
      refine ⟨hiff.mp hgoodt, (ih hgoodt (hD.2 t ht)).mp fun first hfirst => ?_⟩
      rw [← hrun]
      exact h (a :: first) (List.cons_prefix_cons.mpr ⟨rfl, hfirst⟩)
    · rintro ⟨hQ, hrest⟩ first hfirst
      rcases List.prefix_cons_iff.mp hfirst with rfl | ⟨later, rfl, hlater⟩
      · exact ⟨s, rfl, hs⟩
      · rw [hrun]
        exact (ih (hiff.mpr hQ) (hD.2 t ht)).mpr hrest later hlater

end Transition
