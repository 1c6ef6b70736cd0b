/-
What `rmw_wait` reports.

The slots of subscriptions and services that are left are those for which a packet waits, the
slots of guard conditions those that have been triggered since they were last reported.  A call is
described by what happens during it: the moves of other threads, and the answers of the entities
and guard conditions (`WaitSet.history`).  `rmwWait_post` is the rule for a call, and the results
about calls are invariants of one such happening.

* `rmwWait_reports`: a slot is cleared only if nothing waited, and no packet is lost;
* `rmwWait_wakes`: no trigger is lost;
* `rmwWait_run`: a call is a run of its questions;
* `rmwWait_returns`: when `rmw_wait` returns.
-/
import RmwDesert.WaitSet

namespace RmwDesert

open InterpretPackets MessageSerialization
open Execution (arrivals)
open TcpDaemon (maxPacketLength)
open Transition (Post post_bind post_run post_true_iff post_false_iff)

/-! ## What happens during a call -/

/-- What other threads do while an array is checked. -/
def Slot.during (array : Option (List Slot)) : List Execution.Event :=
  (array.getD []).flatMap fun slot => slot.meanwhile.map .other

/-- What happens at a slot. -/
def Slot.questions (ask : ℕ → List Execution.Event) (slot : Slot) : List Execution.Event :=
  slot.meanwhile.map .other ++ (slot.pointer.map ask).getD []

/-- What happens during a call of `rmw_wait`. -/
def WaitSet.questions (w : WaitSet Slot) : List Execution.Event :=
  (w.subscriptions.getD []).flatMap (Slot.questions fun q => [.poll q])
    ++ (w.clients.getD []).flatMap (Slot.questions fun q => [.poll q])
    ++ (w.services.getD []).flatMap (Slot.questions fun q => [.poll q])
    ++ (w.guardConditions.getD []).flatMap (Slot.questions fun q => [.check q])
    ++ (w.events.getD []).flatMap (Slot.questions fun _ => [])

/-- What other threads do during the call. -/
def WaitSet.during (w : WaitSet Slot) : List Execution.Event :=
  Slot.during w.subscriptions ++ Slot.during w.clients ++ Slot.during w.services
    ++ Slot.during w.guardConditions ++ Slot.during w.events

/-- A move of another thread, or the answer to a question. -/
inductive Happening
  | other (event : Process.Background)
  /-- `has_data` of an entity. -/
  | asked (pointer : ℕ) (available : Bool)
  /-- `get_has_triggered` of a guard condition. -/
  | checked (pointer : ℕ) (available : Bool)

namespace Happening

/-- What happens, without the answer. -/
def event : Happening → Execution.Event
  | other e => .other e
  | asked q _ => .poll q
  | checked q _ => .check q

/-- The moves of other threads. -/
def others (history : List Happening) : List Process.Background :=
  history.filterMap fun
    | other e => some e
    | asked _ _ | checked _ _ => none

@[simp] lemma others_other (past : List Happening) (e : Process.Background) :
    others (past ++ [.other e]) = others past ++ [e] :=
  List.filterMap_append

@[simp] lemma others_asked (past : List Happening) (q : ℕ) (available : Bool) :
    others (past ++ [.asked q available]) = others past :=
  List.filterMap_append.trans (List.append_nil _)

@[simp] lemma others_checked (past : List Happening) (q : ℕ) (available : Bool) :
    others (past ++ [.checked q available]) = others past :=
  List.filterMap_append.trans (List.append_nil _)

end Happening

namespace Slot

/-- A slot is cleared or left. -/
def Answered (slot : Slot) (result : Option ℕ) : Prop := result = none ∨ result = slot.pointer

/-- What happens at the slots of an array, which are left with these results. -/
def history (label : ℕ → Bool → List Happening) (slots : List Slot) (results : List (Option ℕ)) :
    List Happening :=
  (slots.zip results).flatMap fun p =>
    p.1.meanwhile.map .other ++ (p.1.pointer.map fun q => label q p.2.isSome).getD []

variable {label : ℕ → Bool → List Happening} {slots : List Slot} {results : List (Option ℕ)}

lemma mem_history {h : Happening} : h ∈ history label slots results ↔
    ∃ p ∈ slots.zip results, (∃ e ∈ p.1.meanwhile, .other e = h) ∨
      ∃ q, p.1.pointer = some q ∧ h ∈ label q p.2.isSome := by
  simp only [history, List.mem_flatMap, List.mem_append, List.mem_map]
  refine exists_congr fun p => and_congr_right fun _ => or_congr_right ?_
  cases p.1.pointer with
  | none => simp
  | some q => simp

/-- The questions about an array. -/
lemma map_event_history {ask : ℕ → List Execution.Event}
    (hlabel : ∀ q available, (label q available).map Happening.event = ask q)
    (h : List.Forall₂ Answered slots results) :
    (history label slots results).map Happening.event = slots.flatMap (questions ask) := by
  have hslots : slots = (slots.zip results).map Prod.fst :=
    (List.map_fst_zip h.length_eq.le).symm
  conv_rhs => rw [hslots]
  rw [history, List.map_flatMap, List.flatMap_map]
  refine List.flatMap_congr fun p _ => ?_
  rw [List.map_append, List.map_map, questions]
  cases p.1.pointer with
  | none => rfl
  | some q => exact congrArg _ (hlabel q _)

end Slot

namespace WaitSet

/-- What other threads do during the call. -/
def meanwhile (w : WaitSet Slot) : List Process.Background :=
  (w.subscriptions.getD []).flatMap Slot.meanwhile ++ (w.clients.getD []).flatMap Slot.meanwhile
    ++ (w.services.getD []).flatMap Slot.meanwhile
    ++ (w.guardConditions.getD []).flatMap Slot.meanwhile
    ++ (w.events.getD []).flatMap Slot.meanwhile

lemma during_eq (w : WaitSet Slot) : w.during = w.meanwhile.map .other := by
  simp only [during, Slot.during, meanwhile, List.map_append, List.map_flatMap]

/-- The results of a call are slots that were cleared or left. -/
structure Answers (w : WaitSet Slot) (ready : WaitSet (Option ℕ)) : Prop where
  subscriptions : Option.Rel (List.Forall₂ Slot.Answered) w.subscriptions ready.subscriptions
  clients : Option.Rel (List.Forall₂ Slot.Answered) w.clients ready.clients
  services : Option.Rel (List.Forall₂ Slot.Answered) w.services ready.services
  guardConditions :
    Option.Rel (List.Forall₂ Slot.Answered) w.guardConditions ready.guardConditions
  events : Option.Rel (List.Forall₂ Slot.Answered) w.events ready.events

/-- What happens during a call with these results. -/
def history (w : WaitSet Slot) (ready : WaitSet (Option ℕ)) : List Happening :=
  Slot.history (fun q b => [.asked q b]) (w.subscriptions.getD []) (ready.subscriptions.getD [])
    ++ Slot.history (fun q b => [.asked q b]) (w.clients.getD []) (ready.clients.getD [])
    ++ Slot.history (fun q b => [.asked q b]) (w.services.getD []) (ready.services.getD [])
    ++ Slot.history (fun q b => [.checked q b]) (w.guardConditions.getD [])
      (ready.guardConditions.getD [])
    ++ Slot.history (fun _ _ => []) (w.events.getD []) (ready.events.getD [])

variable {w : WaitSet Slot} {ready : WaitSet (Option ℕ)}

/-- The answers of the guard conditions. -/
lemma checked_mem_history {g : ℕ} {available : Bool} :
    .checked g available ∈ w.history ready ↔
      ∃ p ∈ (w.guardConditions.getD []).zip (ready.guardConditions.getD []),
        p.1.pointer = some g ∧ p.2.isSome = available := by
  simp [history, Slot.mem_history, eq_comm]

/-- The slots of guard conditions that are left. -/
lemma checked_mem_history_true (h : w.Answers ready) (g : ℕ) :
    .checked g true ∈ w.history ready ↔ ∃ results ∈ ready.guardConditions, some g ∈ results := by
  rw [checked_mem_history]
  have hguards := h.guardConditions
  generalize w.guardConditions = array, ready.guardConditions = pointers at hguards
  cases hguards with
  | none => simp
  | @some slots results hslots =>
    obtain ⟨hlen, hanswered⟩ := List.forall₂_iff_zip.mp hslots
    simp only [Option.getD_some, Option.mem_def, Option.some.injEq, exists_eq_left']
    constructor
    · rintro ⟨⟨slot, result⟩, hzip, hslot, hsome⟩
      rcases hanswered hzip with rfl | rfl
      · cases hsome
      · exact hslot ▸ (List.of_mem_zip hzip).2
    · intro hmem
      obtain ⟨slot, hzip⟩ : ∃ slot, (slot, some g) ∈ slots.zip results := by
        rw [← List.map_snd_zip hlen.ge] at hmem
        obtain ⟨⟨slot, result⟩, hzip, rfl⟩ := List.mem_map.mp hmem
        exact ⟨slot, hzip⟩
      have hslot : some g = slot.pointer := (hanswered hzip).resolve_left (Option.some_ne_none g)
      exact ⟨_, hzip, hslot.symm, rfl⟩

/-- A guard condition that a slot holds is asked. -/
lemma exists_checked_mem_history (h : w.Answers ready) {g : ℕ} {slots : List Slot} {slot : Slot}
    (harray : slots ∈ w.guardConditions) (hmem : slot ∈ slots) (hslot : slot.pointer = some g) :
    ∃ available, .checked g available ∈ w.history ready := by
  simp only [checked_mem_history]
  have hguards := h.guardConditions
  rw [Option.mem_def.mp harray] at hguards ⊢
  generalize ready.guardConditions = pointers at hguards
  cases hguards with
  | @some _ results hslots =>
    have hlen := (List.forall₂_iff_zip.mp hslots).1
    rw [← List.map_fst_zip hlen.le] at hmem
    obtain ⟨p, hzip, rfl⟩ := List.mem_map.mp hmem
    exact ⟨_, p, hzip, hslot, rfl⟩

/-- A call asks its questions. -/
lemma Answers.map_event_history (h : w.Answers ready) :
    (w.history ready).map Happening.event = w.questions := by
  have harray : ∀ {array : Option (List Slot)} {pointers : Option (List (Option ℕ))},
      Option.Rel (List.Forall₂ Slot.Answered) array pointers →
      List.Forall₂ Slot.Answered (array.getD []) (pointers.getD []) := by
    intro array pointers hrel
    cases hrel with
    | none => exact .nil
    | some hslots => exact hslots
  simp only [history, List.map_append, questions]
  congr 1
  · congr 1
    · congr 1
      · congr 1
        · exact Slot.map_event_history (fun _ _ => rfl) (harray h.subscriptions)
        · exact Slot.map_event_history (fun _ _ => rfl) (harray h.clients)
      · exact Slot.map_event_history (fun _ _ => rfl) (harray h.services)
    · exact Slot.map_event_history (fun _ _ => rfl) (harray h.guardConditions)
  · exact Slot.map_event_history (fun _ _ => rfl) (harray h.events)

/-- The answers of the subscribers and the services. -/
lemma asked_mem_history {p : Slot × Option ℕ} {q : ℕ}
    (hp : p ∈ (w.subscriptions.getD []).zip (ready.subscriptions.getD []) ∨
      p ∈ (w.services.getD []).zip (ready.services.getD [])) (hq : p.1.pointer = some q) :
    .asked q p.2.isSome ∈ w.history ready := by
  have hmem : ∀ {slots : List Slot} {results : List (Option ℕ)}, p ∈ slots.zip results →
      .asked q p.2.isSome ∈ Slot.history (fun q b => [.asked q b]) slots results :=
    fun hzip => Slot.mem_history.mpr ⟨p, hzip, .inr ⟨q, hq, List.mem_singleton_self _⟩⟩
  simp only [history, List.mem_append]
  rcases hp with hp | hp
  · exact .inl (.inl (.inl (.inl (hmem hp))))
  · exact .inl (.inl (.inr (hmem hp)))

end WaitSet

namespace Process

/-! ## The rule for a call -/

section

variable {N : NanoCbor} {config : TopicsConfig} {E : Prop} (valid : ℕ → Prop)
  {I : List Happening → List Background → Process → Prop}

/-- The loop over an array, given what each move and each answer keeps of what has happened and of
what other threads have still to do. -/
lemma checkSlots_post {ready : ℕ → Process → Except Failure (Bool × Process)}
    (label : ℕ → Bool → List Happening)
    (hother : ∀ past event later s, I past (event :: later) s →
      Post E (s.background N config event) (I (past ++ [.other event]) later))
    (hready : ∀ past later s q, valid q → I past later s →
      Post E (ready q s) fun r => I (past ++ label q r.1) later r.2)
    {slots : List Slot} (hvalid : ∀ slot ∈ slots, ∀ q ∈ slot.pointer, valid q)
    {past : List Happening} {later : List Background} {s : Process}
    (h : I past (slots.flatMap Slot.meanwhile ++ later) s) :
    Post E (checkSlots N config ready slots s) fun r =>
      List.Forall₂ Slot.Answered slots r.1 ∧
        I (past ++ Slot.history label slots r.1) later r.2 := by
  induction slots generalizing past s with
  | nil => exact ⟨.nil, (List.append_nil past).symm ▸ h⟩
  | cons slot slots ih =>
    obtain ⟨hslot, hslots⟩ := List.forall_mem_cons.mp hvalid
    rw [List.flatMap_cons, List.append_assoc] at h
    rw [checkSlots, post_bind]
    refine (post_run hother h).imp fun s₁ h₁ => ?_
    cases hpointer : slot.pointer with
    | none =>
      refine post_bind.mpr ((ih hslots h₁).imp ?_)
      rintro ⟨results, t⟩ ⟨hresults, ht⟩
      refine ⟨.cons (.inl rfl) hresults, ?_⟩
      simpa [Slot.history, hpointer] using ht
    | some q =>
      refine post_bind.mpr ((hready _ _ s₁ q (hslot q hpointer) h₁).imp ?_)
      rintro ⟨available, s₂⟩ h₂
      refine post_bind.mpr ((ih hslots h₂).imp ?_)
      rintro ⟨results, t⟩ ⟨hresults, ht⟩
      have hanswer : (if available then some q else none).isSome = available := by
        cases available <;> rfl
      refine ⟨.cons ?_ hresults, ?_⟩
      · cases available with
        | false => exact .inl rfl
        | true => exact .inr hpointer.symm
      · simpa [Slot.history, hpointer, hanswer] using ht

/-- An array that may be missing. -/
lemma checkArray_post {ready : ℕ → Process → Except Failure (Bool × Process)}
    (label : ℕ → Bool → List Happening)
    (hother : ∀ past event later s, I past (event :: later) s →
      Post E (s.background N config event) (I (past ++ [.other event]) later))
    (hready : ∀ past later s q, valid q → I past later s →
      Post E (ready q s) fun r => I (past ++ label q r.1) later r.2)
    {array : Option (List Slot)}
    (hvalid : ∀ slots ∈ array, ∀ slot ∈ slots, ∀ q ∈ slot.pointer, valid q)
    {past : List Happening} {later : List Background} {s : Process}
    (h : I past ((array.getD []).flatMap Slot.meanwhile ++ later) s) :
    Post E (checkArray N config ready array s) fun r =>
      Option.Rel (List.Forall₂ Slot.Answered) array r.1 ∧
        I (past ++ Slot.history label (array.getD []) (r.1.getD [])) later r.2 := by
  cases array with
  | none => exact ⟨.none, (List.append_nil past).symm ▸ h⟩
  | some slots =>
    refine post_bind.mpr ((checkSlots_post valid label hother hready (hvalid slots rfl) h).imp ?_)
    rintro ⟨results, t⟩ ⟨hresults, ht⟩
    exact ⟨.some hresults, ht⟩

/-- **The rule for `rmw_wait`.**  What every move of another thread keeps, and every answer, holds
after the call. -/
theorem rmwWait_post {w : WaitSet Slot}
    (hother : ∀ past event later s, I past (event :: later) s →
      Post E (s.background N config event) (I (past ++ [.other event]) later))
    (hask : ∀ past later s q, valid q → I past later s →
      Post E (s.hasData N config q) fun r => I (past ++ [.asked q r.1]) later r.2)
    (hcheck : ∀ past later s q, I past later s →
      I (past ++ [.checked q (s.triggered q)]) later (s.getHasTriggered q).2)
    (hvalid : ∀ slots, w.subscriptions = some slots ∨ w.clients = some slots ∨
      w.services = some slots → ∀ slot ∈ slots, ∀ q ∈ slot.pointer, valid q)
    {s : Process} (h : I [] w.meanwhile s) :
    Post E (s.rmwWait N config w) fun r => w.Answers r.1 ∧ I (w.history r.1) [] r.2 := by
  have hchecks : ∀ past later (s : Process) q, True → I past later s →
      Post E (Except.ok (s.getHasTriggered q) : Except Failure _)
        fun r => I (past ++ [.checked q r.1]) later r.2 :=
    fun past later s q _ h => hcheck past later s q h
  have hignores : ∀ past later (s : Process) (_ : ℕ), True → I past later s →
      Post E (Except.ok (false, s) : Except Failure _) fun r => I (past ++ []) later r.2 :=
    fun past later s _ _ h => (List.append_nil past).symm ▸ h
  rw [WaitSet.meanwhile, ← List.append_nil (_ ++ _)] at h
  simp only [List.append_assoc] at h
  refine post_bind.mpr (Post.imp (checkArray_post valid (fun q b => [.asked q b]) hother hask
    (fun slots hslots => hvalid slots (.inl hslots)) h) ?_)
  rintro ⟨subscriptions, s₁⟩ ⟨hsubscriptions, h⟩
  refine post_bind.mpr (Post.imp (checkArray_post valid (fun q b => [.asked q b]) hother hask
    (fun slots hslots => hvalid slots (.inr (.inl hslots))) h) ?_)
  rintro ⟨clients, s₂⟩ ⟨hclients, h⟩
  refine post_bind.mpr (Post.imp (checkArray_post valid (fun q b => [.asked q b]) hother hask
    (fun slots hslots => hvalid slots (.inr (.inr hslots))) h) ?_)
  rintro ⟨services, s₃⟩ ⟨hservices, h⟩
  refine post_bind.mpr (Post.imp (checkArray_post (fun _ => True) (fun q b => [.checked q b])
    hother hchecks (fun _ _ _ _ _ _ => trivial) h) ?_)
  rintro ⟨guardConditions, s₄⟩ ⟨hguards, h⟩
  refine post_bind.mpr (Post.imp (checkArray_post (fun _ => True) (fun _ _ => [])
    hother hignores (fun _ _ _ _ _ _ => trivial) h) ?_)
  rintro ⟨events, s₅⟩ ⟨hevents, h⟩
  exact ⟨⟨hsubscriptions, hclients, hservices, hguards, hevents⟩, h⟩

end

/-! ## Reports -/

variable {N : NanoCbor} {config : TopicsConfig} {s t : Process} {pointer : ℕ} {rx : RxStream}
  {r : Recipient} {packets : List Fields}

/-- No more packets wait than a queue can hold. -/
lemma Awaits.room (h : Awaits N config pointer rx s r packets)
    (hle : packets.length ≤ maxBufferCapacity) : s.Room N config pointer := by
  intro r' hr'
  obtain rfl := Option.some.inj (h.entity.symm.trans hr')
  rw [taken_congr h.streamType h.streamIdentifier]
  refine le_trans ?_ hle
  rw [← h.packets_eq, List.length_append, RxStream.held, List.length_append]
  omega

/-- No empty packet is received. -/
def NoEmptyPacket (events : List Execution.Event) : Prop :=
  ∀ packet, .other (.arrive packet) ∈ events → packet ≠ []

/-- The result of a slot of the entity, when these packets waited for it before and after. -/
def Reports (pointer : ℕ) (before after : List Fields) (slot : Slot) (result : Option ℕ) : Prop :=
  slot.pointer = some pointer →
    (result = none ∧ before = []) ∨ (result = some pointer ∧ after ≠ [])

/-- The questions of `rmw_wait` to the entities. -/
lemma Awaits.asks {q : ℕ} {available : Bool}
    (h : Awaits N config pointer rx s r packets) (hfilled : ∀ p ∈ packets, p ≠ [])
    (hroom : packets.length ≤ maxBufferCapacity)
    (hdata : s.hasData N config q = .ok (available, t)) :
    ∃ r', Awaits N config pointer rx t r' packets ∧
      (q = pointer → (available = true ↔ packets ≠ [])) := by
  by_cases hq : q = pointer
  · subst hq
    obtain ⟨-, r', hr', hfalse, htrue⟩ := h.hasData (h.room hroom) hdata
    cases available with
    | false =>
      obtain ⟨hempty, hheld⟩ := hfalse rfl
      rw [hheld, ← hempty] at hr'
      exact ⟨r', hr', fun _ => iff_of_false Bool.false_ne_true (not_not_intro hempty)⟩
    | true =>
      have hpackets := htrue rfl
      have hne : r'.stream.bufferedPacket ≠ [] := hfilled _ (hpackets ▸ List.mem_cons_self)
      rw [RxStream.held, if_neg hne, List.singleton_append, ← hpackets] at hr'
      exact ⟨r', hr', fun _ => iff_of_true rfl (hpackets ▸ List.cons_ne_nil _ _)⟩
  · obtain ⟨-, r', hr'⟩ := h.hasData_of_ne (Ne.symm hq) (h.room hroom) hdata
    exact ⟨r', hr', fun heq => absurd heq hq⟩

/-- What waits for an entity after these happenings, and what the entity has answered, where
`during` is all that other threads do. -/
structure Waiting (N : NanoCbor) (config : TopicsConfig) (pointer : ℕ) (rx : RxStream)
    (packets : List Fields) (during : List Background) (past : List Happening)
    (later : List Background) (s : Process) : Prop where
  during_eq : Happening.others past ++ later = during
  awaits : ∃ r, Awaits N config pointer rx s r
    (packets ++ arrivals N config rx ((Happening.others past).map .other))
  answers : ∀ available, .asked pointer available ∈ past →
    (available = false ∧ packets = []) ∨ (available = true ∧
      packets ++ arrivals N config rx ((Happening.others past).map .other) ≠ [])

namespace Waiting

variable {during later : List Background} {past : List Happening}

/-- What waits now waits at the end, too. -/
lemma prefix_end (h : Waiting N config pointer rx packets during past later s) :
    packets ++ arrivals N config rx ((Happening.others past).map .other)
      <+: packets ++ arrivals N config rx (during.map .other) := by
  rw [← h.during_eq, List.map_append, arrivals, arrivals, List.filterMap_append,
    ← List.append_assoc]
  exact List.prefix_append _ _

lemma other {event : Background}
    (h : Waiting N config pointer rx packets during past (event :: later) s)
    (hne : NoEmptyPacket (during.map .other))
    (hroom : (packets ++ arrivals N config rx (during.map .other)).length ≤ maxBufferCapacity)
    (hevent : s.background N config event = .ok t) :
    Waiting N config pointer rx packets during (past ++ [.other event]) later t := by
  have harrived : packets ++ arrivals N config rx ((Happening.others past ++ [event]).map .other)
      = packets ++ arrivals N config rx ((Happening.others past).map .other)
        ++ arrivals N config rx [.other event] := by
    rw [List.map_append, List.append_assoc]
    exact congrArg _ (List.filterMap_append ..)
  have harrive : ∀ packet, event = .arrive packet → packet ≠ [] := by
    rintro packet rfl
    refine hne packet (List.mem_map_of_mem ?_)
    rw [← h.during_eq]
    exact List.mem_append_right _ List.mem_cons_self
  obtain ⟨r, hr⟩ := h.awaits
  obtain ⟨r', hr'⟩ := hr.background
    (fun _ => hr.room (h.prefix_end.length_le.trans hroom)) harrive hevent
  refine ⟨?_, ⟨r', ?_⟩, fun available hmem => ?_⟩
  · rw [Happening.others_other, List.append_assoc]
    exact h.during_eq
  · rwa [Happening.others_other, harrived]
  · rw [List.mem_append, List.mem_singleton, or_iff_left Happening.noConfusion] at hmem
    refine (h.answers available hmem).imp_right (And.imp_right fun hwaits => ?_)
    rw [Happening.others_other, harrived]
    exact List.append_ne_nil_of_left_ne_nil hwaits _

lemma asked {q : ℕ} {available : Bool}
    (h : Waiting N config pointer rx packets during past later s)
    (hfilled : ∀ p ∈ packets ++ arrivals N config rx (during.map .other), p ≠ [])
    (hroom : (packets ++ arrivals N config rx (during.map .other)).length ≤ maxBufferCapacity)
    (hdata : s.hasData N config q = .ok (available, t)) :
    Waiting N config pointer rx packets during (past ++ [.asked q available]) later t := by
  have hothers := Happening.others_asked past q available
  obtain ⟨r, hr⟩ := h.awaits
  obtain ⟨r', hr', havailable⟩ := hr.asks (fun p hp => hfilled p (h.prefix_end.subset hp))
    (h.prefix_end.length_le.trans hroom) hdata
  refine ⟨hothers ▸ h.during_eq, ⟨r', hothers ▸ hr'⟩, fun available' hmem => ?_⟩
  rw [hothers]
  rcases List.mem_append.mp hmem with hmem | hmem
  · exact h.answers available' hmem
  · obtain ⟨rfl, rfl⟩ := Happening.asked.inj (List.mem_singleton.mp hmem)
    have hiff := havailable rfl
    cases available' with
    | false =>
      have hempty := not_not.mp (hiff.not.mp Bool.false_ne_true)
      exact .inl ⟨rfl, (List.append_eq_nil_iff.mp hempty).1⟩
    | true => exact .inr ⟨rfl, hiff.mp rfl⟩

/-- The questions to the guard conditions. -/
lemma checked {q : ℕ} {available : Bool}
    (h : Waiting N config pointer rx packets during past later s) :
    Waiting N config pointer rx packets during (past ++ [.checked q available]) later
      (s.getHasTriggered q).2 := by
  have hothers := Happening.others_checked past q available
  obtain ⟨r, hr⟩ := h.awaits
  refine ⟨hothers ▸ h.during_eq, ⟨r, hothers ▸ ⟨hr.entity, hr.unfiltered, hr.streamType,
    hr.streamIdentifier, hr.rxPackets_ne, hr.packets_eq⟩⟩, fun available' hmem => ?_⟩
  rw [List.mem_append, List.mem_singleton, or_iff_left Happening.noConfusion] at hmem
  rw [hothers]
  exact h.answers available' hmem

/-- The slots of the entity in an array of which these were the answers. -/
lemma reports (h : Waiting N config pointer rx packets during past [] s)
    {array : Option (List Slot)} {results : Option (List (Option ℕ))}
    (hanswered : Option.Rel (List.Forall₂ Slot.Answered) array results)
    (hpast : ∀ p ∈ (array.getD []).zip (results.getD []), p.1.pointer = some pointer →
      .asked pointer p.2.isSome ∈ past) :
    Option.Rel (List.Forall₂ (Reports pointer packets
      (packets ++ arrivals N config rx (during.map .other)))) array results := by
  cases hanswered with
  | none => exact .none
  | @some slots results hslots =>
    rw [List.forall₂_iff_zip] at hslots
    refine .some (List.forall₂_iff_zip.mpr ⟨hslots.1, fun {slot result} hzip hslot => ?_⟩)
    have hresult : result = none ∨ result = slot.pointer := hslots.2 hzip
    rcases h.answers _ (hpast _ hzip hslot) with ⟨hnone, hempty⟩ | ⟨hsome, hwaits⟩
    · exact .inl ⟨Option.not_isSome_iff_eq_none.mp (hnone ▸ Bool.false_ne_true), hempty⟩
    · refine .inr ⟨(hresult.resolve_left fun hnone => ?_).trans hslot, fun hend => hwaits ?_⟩
      · rw [hnone] at hsome
        cases hsome
      · have hprefix := h.prefix_end
        rw [hend] at hprefix
        exact List.prefix_nil.mp hprefix

end Waiting

/-- **What `rmw_wait` reports.**  A slot of a subscription or a service is left exactly if it has
something to take, up to what arrives meanwhile: it is cleared only if nothing waited at first, and
left only if something waits afterwards; and no packet is lost in between. -/
theorem rmwWait_reports {w : WaitSet Slot} {ready : WaitSet (Option ℕ)}
    (hr : s.entities[pointer]? = some r) (hunfiltered : r.Unfiltered)
    (hqueue : ∀ p ∈ s.rxPackets, p ≠ []) (hne : NoEmptyPacket w.during)
    (hfilled : ∀ p ∈ r.pending N config s.rxPackets ++ arrivals N config r.stream w.during, p ≠ [])
    (hroom : (r.pending N config s.rxPackets ++ arrivals N config r.stream w.during).length
      ≤ maxBufferCapacity) (hwait : s.rmwWait N config w = .ok (ready, t)) :
    ∃ r', t.entities[pointer]? = some r' ∧
      r'.pending N config t.rxPackets
        = r.pending N config s.rxPackets ++ arrivals N config r.stream w.during ∧
      Option.Rel (List.Forall₂ (Reports pointer (r.pending N config s.rxPackets)
        (r'.pending N config t.rxPackets))) w.subscriptions ready.subscriptions ∧
      Option.Rel (List.Forall₂ (Reports pointer (r.pending N config s.rxPackets)
        (r'.pending N config t.rxPackets))) w.services ready.services := by
  rw [WaitSet.during_eq] at hne hfilled hroom ⊢
  have hstart : Waiting N config pointer r.stream (r.pending N config s.rxPackets) w.meanwhile []
      w.meanwhile s :=
    ⟨rfl, ⟨r, hr, hunfiltered, rfl, rfl, hqueue, (List.append_nil _).symm⟩, nofun⟩
  generalize r.pending N config s.rxPackets = packets at *
  obtain ⟨hanswers, hend⟩ := post_true_iff.mp (rmwWait_post (fun _ => True)
    (fun _ _ _ _ h => post_true_iff.mpr fun _ hevent => h.other hne hroom hevent)
    (fun _ _ _ _ _ h => post_true_iff.mpr fun _ hdata => h.asked hfilled hroom hdata)
    (fun _ _ _ _ h => h.checked) (fun _ _ _ _ _ _ => trivial) hstart) _ hwait
  obtain ⟨r', hr'⟩ := hend.awaits
  have hothers := hend.during_eq
  rw [List.append_nil] at hothers
  have htaken : taken N config r'.stream = taken N config r.stream :=
    taken_congr hr'.streamType hr'.streamIdentifier
  have hpending := hr'.packets_eq
  rw [← htaken, ← Recipient.pending, hothers] at hpending
  refine ⟨r', hr'.entity, hpending, ?_, ?_⟩
  · rw [hpending]
    exact hend.reports hanswers.subscriptions fun p hp hpointer =>
      WaitSet.asked_mem_history (.inl hp) hpointer
  · rw [hpending]
    exact hend.reports hanswers.services fun p hp hpointer =>
      WaitSet.asked_mem_history (.inr hp) hpointer

/-- A wait set with the subscriber, during whose check a second byte arrives and a guard condition
is triggered. -/
def sampleWaitSet : WaitSet Slot where
  subscriptions := some [⟨[.arrive [0x00, 0x01, 0x08]], some 0⟩, ⟨[.trigger 3], none⟩]
  clients := none
  services := none
  guardConditions := some [⟨[], some 3⟩]
  events := none

theorem rmwWait_reports_sample : ∃ ready t, ∃ r : Recipient,
    sample.rmwWait NanoCbor.rfc8949 (.ofJson [("/a", 1)]) sampleWaitSet = .ok (ready, t) ∧
    ready.subscriptions = some [some 0, none] ∧
    r.pending NanoCbor.rfc8949 (.ofJson [("/a", 1)]) t.rxPackets = [[.uint 7], [.uint 8]] := by
  have hne : NoEmptyPacket sampleWaitSet.during := by
    intro packet hpacket
    simp only [WaitSet.during, Slot.during, sampleWaitSet] at hpacket
    simp at hpacket
    simp [hpacket]
  have hentity : sample.entities[0]? = some byteSubscriber := rfl
  have hwait : sample.rmwWait NanoCbor.rfc8949 (.ofJson [("/a", 1)]) sampleWaitSet = .ok (_, _) :=
    rfl
  obtain ⟨r, -, hpending, -, -⟩ :=
    rmwWait_reports hentity trivial (by decide) hne (by decide) (by decide) hwait
  exact ⟨_, _, r, hwait, rfl, hpending⟩

/-! ## Guard conditions -/

/-- Only a trigger sets a flag. -/
lemma triggered_background {event : Background}
    (h : s.background N config event = .ok t) (g : ℕ) :
    t.triggered g = true ↔ s.triggered g = true ∨ event = .trigger g := by
  cases event with
  | arrive packet =>
    obtain rfl := Except.ok.inj h
    simp
  | interpret =>
    obtain ⟨streams, -, h⟩ := Transition.bind_eq_ok.mp h
    obtain rfl := Except.ok.inj h
    simp
  | trigger q =>
    obtain rfl := Except.ok.inj h
    change Function.update s.triggered q true g = true ↔ _
    by_cases hq : g = q
    · subst hq
      simp
    · simp [Function.update_of_ne hq, Ne.symm hq]
  | sendRequest q req sequenceId =>
    obtain rfl := Except.ok.inj h
    simp [sendRequest]

/-- `has_data` leaves the flags as they are. -/
lemma triggered_hasData {q : ℕ} {available : Bool}
    (h : s.hasData N config q = .ok (available, t)) : t.triggered = s.triggered := by
  obtain ⟨s', hinterpret, h⟩ := Transition.bind_eq_ok.mp h
  obtain ⟨streams, -, hinterpret⟩ := Transition.bind_eq_ok.mp hinterpret
  obtain rfl := Except.ok.inj hinterpret
  cases hentity : (List.zipWith Recipient.setStream streams.1 s.entities)[q]? with
  | none =>
    rw [hentity] at h
    cases h
  | some r =>
    rw [hentity] at h
    obtain ⟨result, -, h⟩ := Transition.bind_eq_ok.mp h
    obtain ⟨-, rfl⟩ := Prod.mk.inj (Except.ok.inj h)
    rfl

/-- The question to a guard condition clears its flag. -/
lemma triggered_getHasTriggered (q g : ℕ) :
    (s.getHasTriggered q).2.triggered g = true ↔ q ≠ g ∧ s.triggered g = true := by
  change Function.update s.triggered q false g = true ↔ _
  by_cases hq : g = q
  · subst hq
    simp
  · simp [Function.update_of_ne hq, Ne.symm hq]

/-- The flag of a guard condition after these happenings, from a state in which it was `set`. -/
structure Flagged (g : ℕ) (set : Prop) (during : List Background) (past : List Happening)
    (later : List Background) (s : Process) : Prop where
  during_eq : Happening.others past ++ later = during
  reported_or : .checked g true ∈ past ∨ s.triggered g = true ↔
    set ∨ .trigger g ∈ Happening.others past
  reported : set → (∃ available, .checked g available ∈ past) → .checked g true ∈ past

namespace Flagged

variable {g : ℕ} {set : Prop} {during later : List Background} {past : List Happening}

lemma other {event : Background} (h : Flagged g set during past (event :: later) s)
    (hevent : s.background N config event = .ok t) :
    Flagged g set during (past ++ [.other event]) later t := by
  have hpast : ∀ available, .checked g available ∈ past ++ [.other event] ↔
      .checked g available ∈ past := by simp
  refine ⟨?_, ?_, ?_⟩
  · rw [Happening.others_other, List.append_assoc]
    exact h.during_eq
  · rw [hpast, triggered_background hevent, ← or_assoc, h.reported_or, Happening.others_other,
      List.mem_append, List.mem_singleton, or_assoc, eq_comm (a := event)]
  · simp only [hpast]
    exact h.reported

lemma asked {q : ℕ} {available : Bool} (h : Flagged g set during past later s)
    (hdata : s.hasData N config q = .ok (available, t)) :
    Flagged g set during (past ++ [.asked q available]) later t := by
  have hothers := Happening.others_asked past q available
  have hpast : ∀ available', .checked g available' ∈ past ++ [.asked q available] ↔
      .checked g available' ∈ past := by simp
  refine ⟨hothers ▸ h.during_eq, ?_, ?_⟩
  · rw [hpast, triggered_hasData hdata, hothers]
    exact h.reported_or
  · simp only [hpast]
    exact h.reported

/-- A flag that is cleared is reported. -/
lemma checked {q : ℕ} (h : Flagged g set during past later s) :
    Flagged g set during (past ++ [.checked q (s.triggered q)]) later (s.getHasTriggered q).2 := by
  have hpast : ∀ available, .checked g available ∈ past ++ [.checked q (s.triggered q)] ↔
      .checked g available ∈ past ∨ (q = g ∧ s.triggered g = available) := by
    intro available
    rw [List.mem_append, List.mem_singleton, Happening.checked.injEq]
    refine or_congr_right ?_
    constructor
    · rintro ⟨rfl, rfl⟩
      exact ⟨rfl, rfl⟩
    · rintro ⟨rfl, rfl⟩
      exact ⟨rfl, rfl⟩
  have hothers := Happening.others_checked past q (s.triggered q)
  refine ⟨hothers ▸ h.during_eq, ?_, fun hset => ?_⟩
  · rw [hpast, triggered_getHasTriggered, hothers, ← h.reported_or, or_assoc]
    refine or_congr_right ?_
    rw [← or_and_right]
    exact and_iff_right (em _)
  · simp only [hpast]
    rintro ⟨available, hmem | ⟨rfl, rfl⟩⟩
    · exact .inl (h.reported hset ⟨available, hmem⟩)
    · rcases h.reported_or.mpr (.inl hset) with hmem | hflag
      · exact .inl hmem
      · exact .inr ⟨rfl, hflag⟩

end Flagged

/-- **No trigger is lost.**  A guard condition that was triggered before or during a wait is
reported by it or stays triggered, and no other one is; and one that was triggered before is
reported if a slot holds it. -/
theorem rmwWait_wakes {w : WaitSet Slot} {ready : WaitSet (Option ℕ)}
    (hwait : s.rmwWait N config w = .ok (ready, t)) (g : ℕ) :
    ((∃ results ∈ ready.guardConditions, some g ∈ results) ∨ t.triggered g = true ↔
      s.triggered g = true ∨ .other (.trigger g) ∈ w.during) ∧
    (s.triggered g = true → (∃ slots ∈ w.guardConditions, ∃ slot ∈ slots, slot.pointer = some g) →
      ∃ results ∈ ready.guardConditions, some g ∈ results) := by
  have hstart : Flagged g (s.triggered g = true) w.meanwhile [] w.meanwhile s :=
    ⟨rfl, by simp [Happening.others], by simp⟩
  obtain ⟨hanswers, hend⟩ := post_true_iff.mp (rmwWait_post (fun _ => True)
    (fun _ _ _ _ h => post_true_iff.mpr fun _ hevent => h.other hevent)
    (fun _ _ _ _ _ h => post_true_iff.mpr fun _ hdata => h.asked hdata)
    (fun _ _ _ _ h => h.checked) (fun _ _ _ _ _ _ => trivial) hstart) _ hwait
  have hothers := hend.during_eq
  rw [List.append_nil] at hothers
  have hreported := WaitSet.checked_mem_history_true hanswers g
  constructor
  · rw [← hreported, hend.reported_or, hothers, WaitSet.during_eq]
    simp
  · rintro hset ⟨slots, harray, slot, hmem, hslot⟩
    exact hreported.mp (hend.reported hset
      (WaitSet.exists_checked_mem_history hanswers harray hmem hslot))

theorem rmwWait_wakes_sample : ∃ ready t,
    sample.rmwWait NanoCbor.rfc8949 (.ofJson [("/a", 1)]) sampleWaitSet = .ok (ready, t) ∧
    ((∃ results ∈ ready.guardConditions, some 3 ∈ results) ∨ t.triggered 3 = true) := by
  have hwait : sample.rmwWait NanoCbor.rfc8949 (.ofJson [("/a", 1)]) sampleWaitSet = .ok (_, _) :=
    rfl
  refine ⟨_, _, hwait, (rmwWait_wakes hwait 3).1.mpr (.inr ?_)⟩
  simp [WaitSet.during, Slot.during, sampleWaitSet]

/-! ## A wait as a run -/

variable (initial : (M : MessageMembers) → Msg M) (read : ℕ → List Fields) (due : ℕ → Bool)

/-- A call of `rmw_wait` is a run of its questions, between which other threads move. -/
theorem rmwWait_run {w : WaitSet Slot} {ready : WaitSet (Option ℕ)}
    (hwait : s.rmwWait N config w = .ok (ready, t)) :
    ∃ due', Transition.run (Execution.step N config initial) ⟨s, read, due⟩ w.questions
      = .ok ⟨t, read, due'⟩ := by
  -- one more step of the run
  have hextend : ∀ {past : List Happening} {u v : Process} {h : Happening},
      (∀ due₁, ∃ due₂, Execution.step N config initial ⟨u, read, due₁⟩ h.event
        = .ok ⟨v, read, due₂⟩) →
      (∃ due₁, Transition.run (Execution.step N config initial) ⟨s, read, due⟩
        (past.map Happening.event) = .ok ⟨u, read, due₁⟩) →
      ∃ due₂, Transition.run (Execution.step N config initial) ⟨s, read, due⟩
        ((past ++ [h]).map Happening.event) = .ok ⟨v, read, due₂⟩ := by
    rintro past u v h hstep ⟨due₁, hrun⟩
    obtain ⟨due₂, hstep⟩ := hstep due₁
    refine ⟨due₂, ?_⟩
    rw [List.map_append]
    exact Transition.run_append_ok hrun (Transition.bind_eq_ok.mpr ⟨_, hstep, rfl⟩)
  have hother : ∀ {u v : Process} {event : Background}, u.background N config event = .ok v →
      ∀ due₁, ∃ due₂, Execution.step N config initial ⟨u, read, due₁⟩ (.other event)
        = .ok ⟨v, read, due₂⟩ :=
    fun hevent due₁ => ⟨due₁, Transition.bind_eq_ok.mpr ⟨_, hevent, rfl⟩⟩
  have hasked : ∀ {u v : Process} {q : ℕ} {available : Bool},
      u.hasData N config q = .ok (available, v) →
      ∀ due₁, ∃ due₂, Execution.step N config initial ⟨u, read, due₁⟩ (.poll q)
        = .ok ⟨v, read, due₂⟩ :=
    fun hdata due₁ => ⟨_, Transition.bind_eq_ok.mpr ⟨_, hdata, rfl⟩⟩
  have hstart : ∃ due₁, Transition.run (Execution.step N config initial) ⟨s, read, due⟩
      (([] : List Happening).map Happening.event) = .ok ⟨s, read, due₁⟩ := ⟨due, rfl⟩
  obtain ⟨hanswers, hend⟩ := post_true_iff.mp (rmwWait_post (I := fun past _ u => ∃ due₁,
      Transition.run (Execution.step N config initial) ⟨s, read, due⟩
        (past.map Happening.event) = .ok ⟨u, read, due₁⟩) (fun _ => True)
    (fun _ _ _ _ h => post_true_iff.mpr fun _ hevent => hextend (hother hevent) h)
    (fun _ _ _ _ _ h => post_true_iff.mpr fun _ hdata => hextend (hasked hdata) h)
    (fun _ _ _ _ h => hextend (fun due₁ => ⟨due₁, rfl⟩) h) (fun _ _ _ _ _ _ => trivial)
    hstart) _ hwait
  rwa [hanswers.map_event_history] at hend

/-! ### Calls that return -/

end Process

namespace RxStream

/-- A search through packets that begin with an integer, in a queue that is not full. -/
lemma dataAvailable_of_integers {sequenceId : Int64} {s : RxStream}
    (hshape : ∀ p ∈ s.receivedPackets, (firstInteger p).isSome)
    (hlen : s.receivedPackets.length < maxBufferCapacity) :
    ∃ available s', s.dataAvailable sequenceId = .ok (available, s') ∧
      s'.streamType = s.streamType ∧ s'.streamIdentifier = s.streamIdentifier ∧
      s'.receivedPackets.Subperm s.receivedPackets := by
  by_cases hbuffer : s.bufferedPacket = []
  · by_cases hid : sequenceId = 0
    · subst hid
      cases hs : s.receivedPackets with
      | nil => exact ⟨_, _, dataAvailable_nil hbuffer hs, rfl, rfl, hs ▸ List.Subperm.refl _⟩
      | cons p queue =>
        exact ⟨_, _, dataAvailable_zero_cons hbuffer hs, rfl, rfl,
          (List.sublist_cons_self p queue).subperm⟩
    · rcases dataAvailable_of_shaped hbuffer hid (.inl hlen) (shaped_of_forall hshape) with
        ⟨hok, -⟩ | ⟨before, packet, after, hsplit, -, -, hok⟩
      · exact ⟨_, _, hok, rfl, rfl, List.Subperm.refl _⟩
      · refine ⟨_, _, hok, rfl, rfl, ?_⟩
        rw [hsplit]
        exact List.perm_append_comm.subperm.trans
          ((List.sublist_cons_self packet after).append_left before).subperm
  · exact ⟨_, _, dataAvailable_of_ne_nil hbuffer, rfl, rfl, List.Subperm.refl _⟩

/-- A stream that takes every packet always answers. -/
lemma dataAvailable_unfiltered (s : RxStream) :
    ∃ available s', s.dataAvailable 0 = .ok (available, s') := by
  by_cases hbuffer : s.bufferedPacket = []
  · cases hs : s.receivedPackets with
    | nil => exact ⟨_, _, dataAvailable_nil hbuffer hs⟩
    | cons p queue => exact ⟨_, _, dataAvailable_zero_cons hbuffer hs⟩
  · exact ⟨_, _, dataAvailable_of_ne_nil hbuffer⟩

/-- Packets that fit the queue. -/
lemma pushAll_of_le {s : RxStream} {packets : List Fields}
    (h : s.receivedPackets.length + packets.length ≤ maxBufferCapacity) :
    s.pushAll packets = { s with receivedPackets := s.receivedPackets ++ packets } := by
  have hzero : (s.receivedPackets ++ packets).length - maxBufferCapacity = 0 := by
    rw [List.length_append]
    omega
  rw [pushAll_eq (by omega), List.rtake, hzero, List.drop_zero]

end RxStream

namespace Process

/-- The packets that are still to arrive. -/
def arriving (events : List Execution.Event) : List Packet :=
  events.filterMap fun
    | .other (.arrive packet) => some packet
    | _ => none

/-- All packets were sent by streams, and what a client receives fits its queue and begins with an
integer each. -/
structure Sound (N : NanoCbor) (config : TopicsConfig) (n : ℕ) (later : List Packet)
    (s : Process) : Prop where
  count : s.entities.length = n
  good : ∀ p ∈ s.rxPackets ++ later, Good N p
  integers : ∀ r ∈ s.entities, ¬ r.Unfiltered → ∀ f ∈ r.stream.receivedPackets
    ++ (s.rxPackets ++ later).filterMap (InterpretPackets.taken N config r.stream),
      (RxStream.firstInteger f).isSome
  length_lt : ∀ r ∈ s.entities, ¬ r.Unfiltered → (r.stream.receivedPackets
    ++ (s.rxPackets ++ later).filterMap (InterpretPackets.taken N config r.stream)).length
      < maxBufferCapacity

namespace Sound

variable {N : NanoCbor} {config : TopicsConfig} {s t : Process} {n : ℕ} {later : List Packet}

lemma interpret (hN : N.Lawful) (h : s.Sound N config n later) :
    ∃ t, s.interpret N config = .ok t ∧ t.Sound N config n later ∧ t.rxPackets = [] := by
  have hgood : ∀ p ∈ s.rxPackets, Good N p := fun p hp => h.good p (List.mem_append_left _ hp)
  have hne : ∀ p ∈ s.rxPackets, p ≠ [] := by
    intro p hp
    obtain ⟨t, -, hsent⟩ := hgood p hp
    exact hsent.ne_nil hN
  obtain ⟨ds, hds, -⟩ := dispatched_goods config hN le_rfl
    (!(s.entities.map Recipient.stream).isEmpty) hgood
  obtain ⟨t, ht⟩ : ∃ t, s.interpret N config = .ok t :=
    ⟨_, Transition.bind_eq_ok.mpr ⟨_, interpretPackets_eq_ok.mpr ⟨_, _, hds, rfl⟩, rfl⟩⟩
  obtain rfl := interpret_ok hne ht
  refine ⟨_, ht, ⟨by rw [List.length_map]; exact h.count, fun p hp => h.good p ?_, ?_, ?_⟩, rfl⟩
  · exact List.mem_append_right _ hp
  all_goals
    intro r' hr' hclient
    obtain ⟨r, hr, rfl⟩ := List.mem_map.mp hr'
    rw [Recipient.unfiltered_setStream] at hclient
    have hintegers := h.integers r hr hclient
    have hlength := h.length_lt r hr hclient
    rw [List.filterMap_append, ← List.append_assoc] at hintegers hlength
    have hfit : r.stream.receivedPackets.length
        + (s.rxPackets.filterMap (InterpretPackets.taken N config r.stream)).length
          ≤ maxBufferCapacity := by
      rw [List.length_append, List.length_append] at hlength
      omega
    rw [Recipient.stream_setStream, RxStream.pushAll_of_le hfit]
  · exact hintegers
  · exact hlength

/-- The questions about an entity have an answer. -/
lemma hasData (hN : N.Lawful) (h : s.Sound N config n later) {q : ℕ} (hq : q < n) :
    ∃ available t, s.hasData N config q = .ok (available, t) ∧ t.Sound N config n later := by
  obtain ⟨s', hinterpret, hs', hempty⟩ := h.interpret hN
  have hlt : q < s'.entities.length := hs'.count ▸ hq
  have hr : s'.entities[q]? = some (s'.entities[q]) := List.getElem?_eq_getElem hlt
  generalize s'.entities[q] = r at hr
  have hmem : r ∈ s'.entities := List.mem_of_getElem? hr
  have hresult : ∃ available rx, r.stream.dataAvailable r.filter = .ok (available, rx) ∧
      (¬ r.Unfiltered → rx.streamType = r.stream.streamType ∧
        rx.streamIdentifier = r.stream.streamIdentifier ∧
        rx.receivedPackets.Subperm r.stream.receivedPackets) := by
    by_cases hunfiltered : r.Unfiltered
    · obtain ⟨available, rx, hrx⟩ := r.stream.dataAvailable_unfiltered
      exact ⟨available, rx, hunfiltered.filter_eq ▸ hrx, fun h => absurd hunfiltered h⟩
    · have hlength := hs'.length_lt r hmem hunfiltered
      rw [List.length_append] at hlength
      obtain ⟨available, rx, hrx, hkept⟩ := RxStream.dataAvailable_of_integers
        (fun p hp => hs'.integers r hmem hunfiltered p
          (List.mem_append_left _ hp)) (by omega)
      exact ⟨available, rx, hrx, fun _ => hkept⟩
  obtain ⟨available, rx, hrx, hkept⟩ := hresult
  obtain ⟨r', hr', rfl⟩ := Recipient.hasData_of_dataAvailable hrx
  have hunfiltered := (Recipient.hasData_ok hr').2
  refine ⟨available, { s' with entities := s'.entities.set q r' }, ?_, ?_⟩
  · refine Transition.bind_eq_ok.mpr ⟨s', hinterpret, ?_⟩
    rw [hr]
    exact Transition.bind_eq_ok.mpr ⟨_, hr', rfl⟩
  · have hlater : ¬ r'.Unfiltered → (r'.stream.receivedPackets
        ++ (s'.rxPackets ++ later).filterMap (InterpretPackets.taken N config r'.stream)).Subperm
        (r.stream.receivedPackets
          ++ (s'.rxPackets ++ later).filterMap (InterpretPackets.taken N config r.stream)) := by
      intro hclient
      obtain ⟨htype, hidentifier, hsubperm⟩ := hkept (hunfiltered.not.mp hclient)
      rw [taken_congr htype hidentifier]
      exact (List.subperm_append_right _).mpr hsubperm
    refine ⟨by rw [List.length_set]; exact hs'.count, hs'.good, fun r'' hr'' hclient => ?_,
      fun r'' hr'' hclient => ?_⟩
    · rcases List.mem_or_eq_of_mem_set hr'' with hold | rfl
      · exact hs'.integers r'' hold hclient
      · intro f hf
        exact hs'.integers r hmem (hunfiltered.not.mp hclient) f ((hlater hclient).subset hf)
    · rcases List.mem_or_eq_of_mem_set hr'' with hold | rfl
      · exact hs'.length_lt r'' hold hclient
      · exact (hlater hclient).length_le.trans_lt
          (hs'.length_lt r hmem (hunfiltered.not.mp hclient))

/-- What other threads do. -/
lemma background (hN : N.Lawful) {event : Background}
    (h : s.Sound N config n (arriving [.other event] ++ later)) :
    ∃ t, s.background N config event = .ok t ∧ t.Sound N config n later := by
  cases event with
  | arrive packet =>
    have hsame : (s.rxPackets ++ [packet]) ++ later = s.rxPackets ++ ([packet] ++ later) :=
      List.append_assoc _ _ _
    exact ⟨_, rfl, h.count, hsame ▸ h.good, hsame ▸ h.integers, hsame ▸ h.length_lt⟩
  | interpret =>
    have hs : s.Sound N config n later := h
    obtain ⟨t, ht, hsound, -⟩ := hs.interpret hN
    exact ⟨t, ht, hsound⟩
  | trigger q => exact ⟨_, rfl, h.count, h.good, h.integers, h.length_lt⟩
  | sendRequest q req sequenceId =>
    have hsame : ∀ r' ∈ s.entities.modify q (·.sendRequest N req sequenceId), ∃ r ∈ s.entities,
        r'.stream = r.stream ∧ (r'.Unfiltered ↔ r.Unfiltered) := by
      intro r' hr'
      obtain ⟨i, hi⟩ := List.getElem?_of_mem hr'
      rw [List.getElem?_modify] at hi
      obtain ⟨r, hr, rfl⟩ := Option.map_eq_some_iff.mp hi
      refine ⟨r, List.mem_of_getElem? hr, ?_⟩
      split_ifs with hq
      · refine ⟨Recipient.stream_sendRequest N req sequenceId r, ?_⟩
        cases r with
        | subscriber _ | client _ | service _ => exact Iff.rfl
      · exact ⟨rfl, Iff.rfl⟩
    refine ⟨_, rfl, ?_, h.good, fun r' hr' hclient => ?_, fun r' hr' hclient => ?_⟩
    · change (s.entities.modify q _).length = n
      rw [List.length_modify]
      exact h.count
    · obtain ⟨r, hr, hstream, hiff⟩ := hsame r' hr'
      rw [hstream]
      exact h.integers r hr (hiff.not.mp hclient)
    · obtain ⟨r, hr, hstream, hiff⟩ := hsame r' hr'
      rw [hstream]
      exact h.length_lt r hr (hiff.not.mp hclient)

end Sound

/-- **`rmw_wait` returns**, whatever it waits for, when every packet was sent by a stream, the
pointers are those of entities, and what the clients receive are responses that fit their
queues. -/
theorem rmwWait_returns {N : NanoCbor} {config : TopicsConfig} (hN : N.Lawful) {s : Process}
    {w : WaitSet Slot} (h : s.Sound N config s.entities.length (arriving w.during))
    (hpointers : ∀ slots, w.subscriptions = some slots ∨ w.clients = some slots ∨
      w.services = some slots → ∀ slot ∈ slots, ∀ q ∈ slot.pointer, q < s.entities.length) :
    ∃ ready t, s.rmwWait N config w = .ok (ready, t) := by
  generalize s.entities.length = n at h hpointers
  rw [WaitSet.during_eq] at h
  have hother : ∀ {s : Process} {event : Background} {later : List Background},
      s.Sound N config n (arriving ((event :: later).map .other)) →
      ∃ t, s.background N config event = .ok t ∧
        t.Sound N config n (arriving (later.map .other)) := by
    intro s event later h
    refine Sound.background hN ?_
    rwa [arriving, arriving, ← List.filterMap_append]
  have hask : ∀ {s : Process} {later : List Packet} {q : ℕ}, q < n → s.Sound N config n later →
      Post False (s.hasData N config q) fun r => r.2.Sound N config n later := by
    intro s later q hq h
    obtain ⟨available, t, hdata, ht⟩ := h.hasData hN hq
    exact post_false_iff.mpr ⟨(available, t), hdata, ht⟩
  obtain ⟨⟨ready, t⟩, hwait, -⟩ := post_false_iff.mp (rmwWait_post
    (I := fun _ later s => s.Sound N config n (arriving (later.map .other))) (· < n)
    (fun _ _ _ _ h => post_false_iff.mpr (hother h)) (fun _ _ _ _ hq h => hask hq h)
    (fun _ _ _ _ h => ⟨h.count, h.good, h.integers, h.length_lt⟩) hpointers h)
  exact ⟨ready, t, hwait⟩

theorem rmwWait_returns_sample : ∃ ready t,
    sample.rmwWait NanoCbor.rfc8949 (.ofJson [("/a", 1)]) sampleWaitSet = .ok (ready, t) := by
  have hgood : ∀ n : UInt8, n = 7 ∨ n = 8 → Good NanoCbor.rfc8949 [0x00, 0x01, n] := by
    rintro n (rfl | rfl)
    · exact ⟨⟨⟨publisherType, 1, false, []⟩, none, [.uint 7]⟩, .inl rfl,
        List.forall_mem_singleton.mpr trivial, rfl⟩
    · exact ⟨⟨⟨publisherType, 1, false, []⟩, none, [.uint 8]⟩, .inl rfl,
        List.forall_mem_singleton.mpr trivial, rfl⟩
  have hclient : ∀ r ∈ sample.entities, r.Unfiltered := by
    intro r hr
    obtain rfl := List.mem_singleton.mp hr
    trivial
  refine rmwWait_returns NanoCbor.rfc8949_lawful ⟨rfl, ?_, fun r hr h => absurd (hclient r hr) h,
    fun r hr h => absurd (hclient r hr) h⟩ ?_
  · intro p hp
    have hcases : p = [0x00, 0x01, 0x07] ∨ p = [0x00, 0x01, 0x08] := by
      simpa [sample, sampleWaitSet, WaitSet.during, Slot.during, arriving] using hp
    rcases hcases with rfl | rfl
    · exact hgood 7 (.inl rfl)
    · exact hgood 8 (.inr rfl)
  · rintro slots (h | h | h) slot hslot q hq
    · obtain rfl := Option.some.inj h
      simp at hslot
      rcases hslot with rfl | rfl
      · cases hq
        decide
      · cases hq
    · cases h
    · cases h

end Process

end RmwDesert
