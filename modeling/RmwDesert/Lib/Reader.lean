/-
Readers that consume a stream of tokens.

A reader is a computation on a state that has a cursor over a list of tokens; it may fail.
`Reads r good toks x` says what a reader does when `toks` come next: under the condition
`good` it returns `x` and moves the cursor past exactly these tokens, and otherwise it
fails.  The rules below follow the constructors of the monad.
-/
import Mathlib.Tactic
import Mathlib.Data.Vector.Basic

namespace Reader

/-- States with a cursor over tokens. -/
class Cursor (σ : Type) (τ : outParam Type) where
  /-- The tokens from the cursor on. -/
  pending : σ → List τ
  /-- Moves the cursor. -/
  advance : ℕ → σ → σ
  pending_advance : ∀ n s, pending (advance n s) = (pending s).drop n
  advance_zero : ∀ s, advance 0 s = s
  advance_advance : ∀ m n s, advance n (advance m s) = advance (m + n) s

open Cursor

variable {σ τ ε α β : Type} [Cursor σ τ]

/-- What a reader does on an input that starts with the given tokens. -/
def Reads (r : StateT σ (Except ε) α) (good : Prop) (toks : List τ) (x : α) : Prop :=
  ∀ s rest, pending s = toks ++ rest →
    (good → r s = .ok (x, advance toks.length s)) ∧ (¬ good → ∃ e, r s = .error e)

lemma Reads.congr {r : StateT σ (Except ε) α} {p q : Prop} {toks : List τ} {x : α}
    (h : Reads r p toks x) (hpq : p ↔ q) : Reads r q toks x := by
  rwa [← propext hpq]

lemma reads_pure (x : α) : Reads (pure x : StateT σ (Except ε) α) True ([] : List τ) x := by
  intro s rest _
  refine ⟨fun _ => ?_, fun h => absurd trivial h⟩
  simp only [List.length_nil, advance_zero]
  rfl

lemma reads_throw (e : ε) (toks : List τ) (x : α) :
    Reads (throw e : StateT σ (Except ε) α) False toks x :=
  fun _ _ _ => ⟨False.elim, fun _ => ⟨e, rfl⟩⟩

/-- The rule of sequencing. -/
lemma Reads.bind {r : StateT σ (Except ε) α} {k : α → StateT σ (Except ε) β} {p q : Prop}
    {toks toks' : List τ} {x : α} {y : β} (hr : Reads r p toks x) (hk : Reads (k x) q toks' y) :
    Reads (r >>= k) (p ∧ q) (toks ++ toks') y := by
  intro s rest hs
  rw [List.append_assoc] at hs
  have hr' := hr s (toks' ++ rest) hs
  have hnext : pending (advance toks.length s) = toks' ++ rest := by
    rw [pending_advance, hs, List.drop_left]
  have hk' := hk (advance toks.length s) rest hnext
  have hbind : (r >>= k) s = r s >>= fun p => k p.1 p.2 := rfl
  by_cases hp : p
  · rw [hbind, hr'.1 hp]
    refine ⟨fun h => ?_, fun h => ?_⟩
    · rw [List.length_append, ← advance_advance]
      exact hk'.1 h.2
    · exact hk'.2 fun hq => h ⟨hp, hq⟩
  · -- the first reader fails, and the failure goes through
    obtain ⟨e, he⟩ := hr'.2 hp
    rw [hbind, he]
    exact ⟨fun h => absurd h.1 hp, fun _ => ⟨e, rfl⟩⟩

/-- Sequencing with a first reader that never fails. -/
lemma Reads.bind_of_true {r : StateT σ (Except ε) α} {k : α → StateT σ (Except ε) β} {q : Prop}
    {toks toks' : List τ} {x : α} {y : β} (hr : Reads r True toks x)
    (hk : Reads (k x) q toks' y) : Reads (r >>= k) q (toks ++ toks') y :=
  (hr.bind hk).congr (by simp)

/-- Sequencing with a second step that reads nothing. -/
lemma Reads.bind_nil {r : StateT σ (Except ε) α} {k : α → StateT σ (Except ε) β} {p : Prop}
    {toks : List τ} {x : α} {y : β} (hr : Reads r p toks x) (hk : Reads (k x) True [] y) :
    Reads (r >>= k) p toks y := by
  have h : Reads (r >>= k) (p ∧ True) (toks ++ []) y := hr.bind hk
  rw [List.append_nil] at h
  exact h.congr (by simp)

/-- Sequencing with a function of the result. -/
lemma Reads.map {r : StateT σ (Except ε) α} {p : Prop} {toks : List τ} {x : α}
    (hr : Reads r p toks x) (f : α → β) :
    Reads (r >>= fun y => pure (f y)) p toks (f x) :=
  hr.bind_nil (reads_pure (f x))

/-- The loop that reads each item of an array in place. -/
def update (read : α → StateT σ (Except ε) α) :
    {n : ℕ} → List.Vector α n → StateT σ (Except ε) (List.Vector α n)
  | 0, items => pure items
  | _ + 1, items => do
    let x ← read items.head
    let xs ← update read items.tail
    pure (x ::ᵥ xs)

/-- The rule of the loop: what holds of each item holds of the array. -/
lemma reads_update {read : α → StateT σ (Except ε) α} {P : α → Prop} {toks : α → List τ}
    {f : α → α} : ∀ {n : ℕ} (items dest : List.Vector α n),
    (∀ x ∈ items.toList, ∀ d, Reads (read d) (P x) (toks x) (f x)) →
    Reads (update read dest) (∀ x ∈ items.toList, P x) (items.toList.flatMap toks)
      (items.map f) := by
  intro n
  induction n with
  | zero =>
    intro items dest _
    obtain rfl := items.eq_nil
    obtain rfl := dest.eq_nil
    exact (reads_pure _).congr (by simp)
  | succ n ih =>
    intro items dest hread
    obtain ⟨x, xs, rfl⟩ := items.exists_eq_cons
    simp only [List.Vector.toList_cons, List.mem_cons, forall_eq_or_imp] at hread
    have hrest := (ih xs dest.tail hread.2).map fun ys => f x ::ᵥ ys
    rw [update, List.Vector.toList_cons, List.flatMap_cons, List.Vector.map_cons]
    refine Reads.congr ((hread.1 dest.head).bind hrest) ?_
    simp only [List.mem_cons, forall_eq_or_imp]

/-! ## Frames -/

/-- A reader that does nothing to the state but move the cursor. -/
def Advances (r : StateT σ (Except ε) α) : Prop :=
  ∀ (s : σ) (x : α) (s' : σ), r s = .ok (x, s') → ∃ n, s' = advance n s

lemma advances_pure (x : α) : Advances (pure x : StateT σ (Except ε) α) := by
  rintro s y s' ⟨⟩
  exact ⟨0, (advance_zero s).symm⟩

lemma advances_throw (e : ε) : Advances (throw e : StateT σ (Except ε) α) := by
  rintro s y s' ⟨⟩

lemma advances_liftM (x : Except ε α) : Advances (liftM x : StateT σ (Except ε) α) := by
  cases x with
  | error e => exact advances_throw e
  | ok x => exact advances_pure x

/-- A result that is lifted leaves the state as it is. -/
lemma liftM_ok {x : Except ε α} {s s' : σ} {y : α}
    (h : (liftM x : StateT σ (Except ε) α) s = .ok (y, s')) : x = .ok y ∧ s' = s := by
  cases x with
  | error e => cases h
  | ok x =>
    obtain ⟨rfl, rfl⟩ := Prod.mk.inj (Except.ok.inj h)
    exact ⟨rfl, rfl⟩

/-- A computation that returns, taken apart. -/
lemma bind_ok {r : StateT σ (Except ε) α} {k : α → StateT σ (Except ε) β} {s s'' : σ} {y : β}
    (h : (r >>= k) s = .ok (y, s'')) : ∃ x s', r s = .ok (x, s') ∧ k x s' = .ok (y, s'') := by
  have hbind : (r >>= k) s = r s >>= fun p => k p.1 p.2 := rfl
  rw [hbind] at h
  cases hs : r s with
  | error e =>
    rw [hs] at h
    cases h
  | ok p =>
    rw [hs] at h
    exact ⟨p.1, p.2, rfl, h⟩

lemma Advances.bind {r : StateT σ (Except ε) α} {k : α → StateT σ (Except ε) β} (hr : Advances r)
    (hk : ∀ x, Advances (k x)) : Advances (r >>= k) := by
  intro s y s' h
  obtain ⟨x, t, hs, h⟩ := bind_ok h
  obtain ⟨m, rfl⟩ := hr s x t hs
  obtain ⟨n, rfl⟩ := hk x _ y s' h
  exact ⟨m + n, advance_advance m n s⟩

lemma Advances.map {r : StateT σ (Except ε) α} (hr : Advances r) (f : α → β) :
    Advances (r >>= fun x => pure (f x)) :=
  hr.bind fun x => advances_pure (f x)

lemma advances_update {read : α → StateT σ (Except ε) α} (h : ∀ x, Advances (read x)) :
    ∀ {n : ℕ} (items : List.Vector α n), Advances (update read items) := by
  intro n
  induction n with
  | zero => exact advances_pure
  | succ n ih =>
    intro items
    exact (h items.head).bind fun x => (ih items.tail).map (List.Vector.cons x)

/-! ## Readers in place

A reader that overwrites a value leaves something there even if it stops half way.  It gives
what it leaves, and the state if it goes on. -/

section InPlace

/-- A reader that overwrites a value. -/
abbrev InPlace (σ α : Type) := α → σ → α × Option σ

namespace InPlace

/-- Where the reader returns normally, it leaves what it returns and goes on. -/
def Agrees (write : InPlace σ α) (read : α → StateT σ (Except ε) α) : Prop :=
  ∀ x s y s', read x s = .ok (y, s') → write x s = (y, some s')

/-- Two values, one after the other.  The second keeps its value if the first reader stops. -/
def prod (first : InPlace σ α) (second : InPlace σ β) : InPlace σ (α × β) := fun pair s =>
  match first pair.1 s with
  | (x, none) => ((x, pair.2), none)
  | (x, some t) => ((x, (second pair.2 t).1), (second pair.2 t).2)

/-- The loop over the items of an array. -/
def update (write : InPlace σ α) : {n : ℕ} → InPlace σ (List.Vector α n)
  | 0, items, s => (items, some s)
  | _ + 1, items, s =>
    match write items.head s with
    | (x, none) => (x ::ᵥ items.tail, none)
    | (x, some t) => (x ::ᵥ (update write items.tail t).1, (update write items.tail t).2)

/-- A condition on each item of a loop, in the state in which it is read, and one on the items
that are not reached. -/
def EachWithin (write : InPlace σ α) (Good : α → Prop) (P : α → σ → Prop) : List α → σ → Prop
  | [], _ => True
  | x :: xs, s => P x s ∧ (write x s).2.elim (∀ y ∈ xs, Good y) (EachWithin write Good P xs)

lemma prod_fst {first : InPlace σ α} {second : InPlace σ β} {x : α} {y : β} {s : σ} :
    (first.prod second (x, y) s).1 =
      ((first x s).1, (first x s).2.elim y fun t => (second y t).1) := by
  unfold prod
  split
  · rename_i x' hstop
    rw [hstop]
    rfl
  · rename_i x' t hgo
    rw [hgo]
    rfl

/-- What is left of two values is good if and only if the first reader leaves something good
and so does what follows it. -/
lemma prod_iff {first : InPlace σ α} {second : InPlace σ β} {Good : α → Prop}
    {Good' : β → Prop} {P : α → σ → Prop} {P' : β → σ → Prop}
    (hfirst : ∀ x s, Good (first x s).1 ↔ P x s) (hsecond : ∀ y s, Good' (second y s).1 ↔ P' y s)
    (x : α) (y : β) (s : σ) :
    (Good (first.prod second (x, y) s).1.1 ∧ Good' (first.prod second (x, y) s).1.2) ↔
      P x s ∧ (first x s).2.elim (Good' y) (P' y) := by
  rw [prod_fst]
  refine and_congr (hfirst x s) ?_
  cases (first x s).2 with
  | none => exact Iff.rfl
  | some t => exact hsecond y t

/-- What a loop leaves is good if and only if each item meets the condition under which what is
left of it is good. -/
lemma forall_update_iff {write : InPlace σ α} {Good : α → Prop} {P : α → σ → Prop}
    (h : ∀ x s, Good (write x s).1 ↔ P x s) :
    ∀ {n : ℕ} (items : List.Vector α n) (s : σ),
      (∀ y ∈ (update write items s).1.toList, Good y) ↔
        EachWithin write Good P items.toList s := by
  intro n
  induction n with
  | zero =>
    intro items s
    obtain rfl := items.eq_nil
    exact iff_of_true (by simp [update]) trivial
  | succ n ih =>
    intro items s
    obtain ⟨x, xs, rfl⟩ := items.exists_eq_cons
    rw [List.Vector.toList_cons, EachWithin, ← h x s, update, List.Vector.head_cons,
      List.Vector.tail_cons]
    rcases write x s with ⟨y, stop | t⟩
    · simp
    · simp [ih]

variable {write : InPlace σ α} {read : α → StateT σ (Except ε) α}

lemma Agrees.update (h : write.Agrees read) : ∀ {n : ℕ},
    InPlace.Agrees (@InPlace.update _ _ write n) (Reader.update read) := by
  intro n
  induction n with
  | zero =>
    rintro items s results s' ⟨⟩
    rfl
  | succ n ih =>
    intro items s results s' hupdate
    obtain ⟨y, t, hread, hupdate⟩ := bind_ok hupdate
    obtain ⟨ys, t', hrest, hupdate⟩ := bind_ok hupdate
    obtain ⟨rfl, rfl⟩ := Prod.mk.inj (Except.ok.inj hupdate)
    simp only [InPlace.update, h _ _ _ _ hread]
    rw [ih _ _ _ _ hrest]

lemma Agrees.prod (h : write.Agrees read) {write' : InPlace σ β}
    {read' : β → StateT σ (Except ε) β} (h' : write'.Agrees read') :
    (write.prod write').Agrees
      fun pair => (do let x ← read pair.1; let y ← read' pair.2; pure (x, y)) := by
  intro pair s result s' hpair
  obtain ⟨y, t, hread, hpair⟩ := bind_ok hpair
  obtain ⟨z, t', hread', hpair⟩ := bind_ok hpair
  obtain ⟨rfl, rfl⟩ := Prod.mk.inj (Except.ok.inj hpair)
  simp only [InPlace.prod, h _ _ _ _ hread]
  rw [h' _ _ _ _ hread']

end InPlace
end InPlace

/-! ## Tokens that may be missing

A stream that ends early can still serve a reader that does without the missing tokens.  What a
reader asks of each token is then a relation of its own. -/

section Along

variable {ρ : Type}

/-- A relation between a state and a token, along the way of the cursor. -/
def Along (P : σ → ρ → Prop) : σ → List ρ → Prop
  | _, [] => True
  | s, tok :: toks => P s tok ∧ Along P (advance 1 s) toks

/-- A reader that returns `x` wherever the tokens are offered. -/
def Delivers (P : σ → ρ → Prop) (r : StateT σ (Except ε) α) (toks : List ρ) (x : α) : Prop :=
  ∀ s, Along P s toks → r s = .ok (x, advance toks.length s)

variable {P : σ → ρ → Prop}

lemma along_append {toks toks' : List ρ} {s : σ} : Along P s (toks ++ toks') ↔
    Along P s toks ∧ Along P (advance toks.length s) toks' := by
  induction toks generalizing s with
  | nil => simp [Along, advance_zero]
  | cons tok toks ih =>
    rw [List.cons_append, Along, Along, ih, advance_advance, List.length_cons, Nat.add_comm 1,
      and_assoc]

lemma along_singleton {tok : ρ} {s : σ} : Along P s [tok] ↔ P s tok := by simp [Along]

lemma delivers_pure (x : α) : Delivers P (pure x : StateT σ (Except ε) α) [] x := by
  intro s _
  simp only [List.length_nil, advance_zero]
  rfl

lemma Delivers.bind {r : StateT σ (Except ε) α} {k : α → StateT σ (Except ε) β} {x : α} {y : β}
    {toks toks' : List ρ} (hr : Delivers P r toks x) (hk : Delivers P (k x) toks' y) :
    Delivers P (r >>= k) (toks ++ toks') y := by
  intro s hs
  obtain ⟨hfirst, hrest⟩ := along_append.mp hs
  have hbind : (r >>= k) s = r s >>= fun p => k p.1 p.2 := rfl
  rw [hbind, hr s hfirst, List.length_append, ← advance_advance]
  exact hk _ hrest

lemma Delivers.map {r : StateT σ (Except ε) α} {x : α} {toks : List ρ} (hr : Delivers P r toks x)
    (f : α → β) : Delivers P (r >>= fun y => pure (f y)) toks (f x) := by
  have hpure : Delivers P (pure (f x) : StateT σ (Except ε) β) [] (f x) := delivers_pure (f x)
  have h : Delivers P (r >>= fun y => pure (f y)) (toks ++ []) (f x) := hr.bind hpure
  rwa [List.append_nil] at h

lemma delivers_update {read : α → StateT σ (Except ε) α} {toks : α → List ρ} {f : α → α} :
    ∀ {n : ℕ} (items dest : List.Vector α n),
    (∀ x ∈ items.toList, ∀ d, Delivers P (read d) (toks x) (f x)) →
    Delivers P (update read dest) (items.toList.flatMap toks) (items.map f) := by
  intro n
  induction n with
  | zero =>
    intro items dest _
    obtain rfl := items.eq_nil
    obtain rfl := dest.eq_nil
    exact delivers_pure _
  | succ n ih =>
    intro items dest hread
    obtain ⟨x, xs, rfl⟩ := items.exists_eq_cons
    simp only [List.Vector.toList_cons, List.mem_cons, forall_eq_or_imp] at hread
    have hrest := (ih xs dest.tail hread.2).map fun ys => f x ::ᵥ ys
    rw [update, List.Vector.toList_cons, List.flatMap_cons, List.Vector.map_cons]
    exact (hread.1 dest.head).bind hrest

end Along

end Reader
