/-
The search for a response in the queue of a client (`RxStream::data_available`).

The loop takes the first packet whose sequence id is the one asked for, and moves the packets
before it to the end of the queue.  `dataAvailable_ok` says what a poll that returns can have
done, `dataAvailable_cases` what it does on a queue of responses.  The main result,
`losesNothing_iff`, says for which queues the search takes one response and keeps the others.
-/
import RmwDesert.Lib.Transition
import RmwDesert.RxStream

namespace RmwDesert

/-! ## The circular queue -/

namespace CircularQueue

variable {α : Type}

lemma mem_push {x value : α} {queue : List α} (h : x ∈ push value queue) :
    x ∈ queue ∨ x = value := by
  rcases List.mem_append.mp h with hold | hnew
  · left
    split_ifs at hold with hfull
    · exact List.mem_of_mem_tail hold
    · exact hold
  · exact Or.inr (List.mem_singleton.mp hnew)

lemma length_push_le {value : α} {queue : List α} (h : queue.length ≤ maxBufferCapacity) :
    (push value queue).length ≤ maxBufferCapacity := by
  have hcapacity : maxBufferCapacity = 100 := rfl
  rw [push, List.length_append, List.length_singleton]
  split_ifs with hfull
  · rw [List.length_tail]
    omega
  · omega

/-- A push keeps every element exactly if the queue is not full. -/
lemma push_eq_append_iff {value : α} {queue : List α} :
    push value queue = queue ++ [value] ↔ queue.length ≠ maxBufferCapacity := by
  rw [push, List.append_cancel_right_eq]
  constructor
  · intro heq hfull
    rw [if_pos hfull] at heq
    have hlength := congrArg List.length heq
    have hcapacity : maxBufferCapacity = 100 := rfl
    rw [List.length_tail] at hlength
    omega
  · exact fun hroom => if_neg hroom

end CircularQueue

namespace RxStream

/-- The integer that a packet begins with, as the `int64_t` that the search compares. -/
def firstInteger (packet : Fields) : Option Int64 := packet.head?.bind intValue

lemma sequenceField_eq_ok_iff {packet : Fields} {n : Int64} :
    sequenceField packet = .ok n ↔ firstInteger packet = some n := by
  cases packet with
  | nil => simp [sequenceField, firstInteger]
  | cons f body => cases f <;> simp [sequenceField, firstInteger, intValue]

/-- The packets that begin with a number other than the given one. -/
def Mismatch (sequenceId : Int64) (packet : Fields) : Prop :=
  ∃ n, sequenceField packet = .ok n ∧ n ≠ sequenceId

lemma Mismatch.firstInteger_ne {sequenceId : Int64} {packet : Fields}
    (h : Mismatch sequenceId packet) : firstInteger packet ≠ some sequenceId := by
  obtain ⟨n, hn, hne⟩ := h
  rw [sequenceField_eq_ok_iff.mp hn]
  exact fun heq => hne (Option.some.inj heq)

lemma rotate_cons {packet : Fields} {queue : List Fields}
    (h : (packet :: queue).length < maxBufferCapacity) :
    rotate (packet :: queue) = .ok (queue ++ [packet]) :=
  if_neg (ne_of_lt h)

/-- A turn of the search on a packet with another id. -/
lemma search_succ_of_mismatch {sequenceId : Int64} {s : RxStream} {packet : Fields}
    {queue : List Fields} (hs : s.receivedPackets = packet :: queue)
    (hp : Mismatch sequenceId packet) (hlen : (packet :: queue).length < maxBufferCapacity)
    (turns : ℕ) :
    search sequenceId (turns + 1) s
      = search sequenceId turns { s with receivedPackets := queue ++ [packet] } := by
  obtain ⟨n, hn, hne⟩ := hp
  simp only [search, hs, hn, rotate_cons hlen, bind, Except.bind, if_neg hne]

/-- The search finds the first packet with the id, and leaves the packets before it at the
end of the queue. -/
lemma search_of_match {sequenceId : Int64} {packet : Fields} (after : List Fields)
    (hp : sequenceField packet = .ok sequenceId) : ∀ (before : List Fields) {s : RxStream}
    {turns : ℕ}, s.receivedPackets = before ++ packet :: after →
    (∀ p ∈ before, Mismatch sequenceId p) →
    (before = [] ∨ s.receivedPackets.length < maxBufferCapacity) → before.length < turns →
    search sequenceId turns s = .ok (true, { s with
      bufferedPacket := packet, receivedPackets := after ++ before, bufferedIterator := 1 }) := by
  intro before
  induction before generalizing after with
  | nil =>
    intro s turns hs _ _ hturns
    obtain ⟨turns, rfl⟩ := Nat.exists_eq_succ_of_ne_zero (Nat.ne_of_gt hturns)
    simp [search, hs, hp, bind, Except.bind, pure, Except.pure]
  | cons b before ih =>
    intro s turns hs hbefore hfull hturns
    obtain ⟨turns, rfl⟩ := Nat.exists_eq_succ_of_ne_zero (Nat.ne_of_gt (Nat.zero_lt_of_lt hturns))
    have hlen : s.receivedPackets.length < maxBufferCapacity := by simpa using hfull
    have hb : Mismatch sequenceId b := hbefore b List.mem_cons_self
    rw [hs] at hlen
    rw [search_succ_of_mismatch hs hb hlen]
    have hsame : (before ++ packet :: after ++ [b]).length < maxBufferCapacity := by
      simp only [List.length_append, List.length_cons, List.length_nil] at hlen ⊢
      omega
    have hrest := @ih (after ++ [b]) { s with receivedPackets := before ++ packet :: after ++ [b] }
      turns (by simp) (fun p hp => hbefore p (List.mem_cons_of_mem b hp)) (Or.inr hsame)
      (by simpa using hturns)
    simpa using hrest

/-- Without a packet with the id, the search goes once around the queue. -/
lemma search_of_mismatch {sequenceId : Int64} : ∀ (turns : ℕ) {s : RxStream},
    (∀ p ∈ s.receivedPackets, Mismatch sequenceId p) →
    s.receivedPackets.length < maxBufferCapacity →
    search sequenceId turns s
      = .ok (false, { s with receivedPackets := s.receivedPackets.rotate turns }) := by
  intro turns
  induction turns with
  | zero =>
    intro s _ _
    simp [search]
  | succ turns ih =>
    intro s hq hlen
    cases hs : s.receivedPackets with
    | nil =>
      simp only [search, hs, List.rotate_nil]
      rw [← hs]
    | cons p queue =>
      rw [hs] at hq hlen
      rw [search_succ_of_mismatch hs (hq p List.mem_cons_self) hlen, ih]
      · simp
      · intro p' hp'
        exact hq p' (by simpa [or_comm] using hp')
      · simpa using hlen

/-- A packet as a service sends it: the sequence id, and the fields of the response. -/
def IsResponse (packet : Fields) : Prop := ∃ n body, packet = .uint n :: body

lemma IsResponse.ne_nil {packet : Fields} (h : IsResponse packet) : packet ≠ [] := by
  obtain ⟨n, body, rfl⟩ := h
  exact List.cons_ne_nil _ _

/-- A search that does not have to turn a full queue. -/
def Searchable (sequenceId : Int64) (queue : List Fields) : Prop :=
  sequenceId = 0 ∨ queue.length < maxBufferCapacity ∨
    ∃ packet rest, queue = packet :: rest ∧ sequenceField packet = .ok sequenceId

/-- Every packet up to the first one with the id begins with an integer. -/
def Shaped (sequenceId : Int64) : List Fields → Prop
  | [] => True
  | packet :: queue => (firstInteger packet).isSome ∧
    (firstInteger packet ≠ some sequenceId → Shaped sequenceId queue)

lemma shaped_of_forall {sequenceId : Int64} {queue : List Fields}
    (h : ∀ p ∈ queue, (firstInteger p).isSome) : Shaped sequenceId queue := by
  induction queue with
  | nil => trivial
  | cons p queue ih =>
    exact ⟨h p List.mem_cons_self, fun _ => ih fun q hq => h q (List.mem_cons_of_mem p hq)⟩

/-- A shaped queue is empty of the id, or has a first packet with it. -/
lemma Shaped.mismatch_or_first {sequenceId : Int64} {queue : List Fields}
    (h : Shaped sequenceId queue) :
    (∀ p ∈ queue, Mismatch sequenceId p) ∨
      ∃ before packet after, queue = before ++ packet :: after ∧
        sequenceField packet = .ok sequenceId ∧ ∀ p ∈ before, Mismatch sequenceId p := by
  induction queue with
  | nil => exact Or.inl (by simp)
  | cons p queue ih =>
    obtain ⟨n, hn⟩ := Option.isSome_iff_exists.mp h.1
    by_cases hid : n = sequenceId
    · subst hid
      exact Or.inr ⟨[], p, queue, rfl, sequenceField_eq_ok_iff.mpr hn, by simp⟩
    · have hp : Mismatch sequenceId p := ⟨n, sequenceField_eq_ok_iff.mpr hn, hid⟩
      rcases ih (h.2 hp.firstInteger_ne) with hall | ⟨before, m, after, hq, hm, hb⟩
      · exact Or.inl (by simpa using ⟨hp, hall⟩)
      · refine Or.inr ⟨p :: before, m, after, by rw [hq]; rfl, hm, ?_⟩
        simpa using ⟨hp, hb⟩

/-- In another queue the search comes to a packet without a number. -/
lemma exists_error_of_not_shaped {sequenceId : Int64} {queue : List Fields}
    (h : ¬ Shaped sequenceId queue) :
    ∃ before packet after e, queue = before ++ packet :: after ∧
      sequenceField packet = .error e ∧ ∀ p ∈ before, Mismatch sequenceId p := by
  induction queue with
  | nil => exact absurd trivial h
  | cons p queue ih =>
    cases hp : sequenceField p with
    | error e => exact ⟨[], p, queue, e, rfl, hp, by simp⟩
    | ok n =>
      have hn := sequenceField_eq_ok_iff.mp hp
      have hrest : firstInteger p ≠ some sequenceId ∧ ¬ Shaped sequenceId queue := by
        simpa [Shaped, hn] using h
      have hmismatch : Mismatch sequenceId p := by
        refine ⟨n, hp, fun heq => hrest.1 ?_⟩
        rw [hn, heq]
      obtain ⟨before, m, after, e, hq, hm, hb⟩ := ih hrest.2
      refine ⟨p :: before, m, after, e, by rw [hq]; rfl, hm, ?_⟩
      simpa using ⟨hmismatch, hb⟩

lemma shaped_of_isResponse {sequenceId : Int64} {queue : List Fields}
    (h : ∀ p ∈ queue, IsResponse p) : Shaped sequenceId queue := by
  refine shaped_of_forall fun p hp => ?_
  obtain ⟨n, body, rfl⟩ := h p hp
  rfl

/-- A buffered packet stays where it is. -/
lemma dataAvailable_of_ne_nil {sequenceId : Int64} {s : RxStream}
    (hbuffer : s.bufferedPacket ≠ []) :
    s.dataAvailable sequenceId = .ok (true, s) :=
  if_pos hbuffer

lemma dataAvailable_nil {s : RxStream} {sequenceId : Int64} (hbuffer : s.bufferedPacket = [])
    (hs : s.receivedPackets = []) :
    s.dataAvailable sequenceId = .ok (false, s) := by
  simp [dataAvailable, hbuffer, hs]

lemma dataAvailable_zero_cons {s : RxStream} (hbuffer : s.bufferedPacket = []) {packet : Fields}
    {queue : List Fields} (hs : s.receivedPackets = packet :: queue) :
    s.dataAvailable 0 = .ok (true, { s with
      bufferedPacket := packet, receivedPackets := queue, bufferedIterator := 0 }) := by
  simp [dataAvailable, hbuffer, hs]

lemma dataAvailable_of_ne_zero {sequenceId : Int64} {s : RxStream} (hbuffer : s.bufferedPacket = [])
    (hid : sequenceId ≠ 0) :
    s.dataAvailable sequenceId = search sequenceId s.receivedPackets.length s := by
  cases hs : s.receivedPackets with
  | nil => simp [dataAvailable, search, hbuffer, hs]
  | cons p queue => simp [dataAvailable, hbuffer, hs, hid]

/-- What `data_available` does on an empty buffer and a queue of responses: it takes the
first response with the id (any first response for the id 0), or it finds none and the
queue is as before. -/
lemma dataAvailable_cases {sequenceId : Int64} {s : RxStream} (hbuffer : s.bufferedPacket = [])
    (hq : ∀ p ∈ s.receivedPackets, IsResponse p)
    (hsearch : Searchable sequenceId s.receivedPackets) :
    (∃ packet queue iterator, s.dataAvailable sequenceId = .ok (true, { s with
        bufferedPacket := packet, receivedPackets := queue, bufferedIterator := iterator }) ∧
      (packet :: queue).Perm s.receivedPackets ∧
      (sequenceId ≠ 0 → sequenceField packet = .ok sequenceId) ∧
      (sequenceId = 0 → s.receivedPackets = packet :: queue)) ∨
    (s.dataAvailable sequenceId = .ok (false, s) ∧
      ∀ p ∈ s.receivedPackets, sequenceId ≠ 0 ∧ Mismatch sequenceId p) := by
  cases hs : s.receivedPackets with
  | nil => exact Or.inr ⟨by simp [dataAvailable, hbuffer, hs], by simp⟩
  | cons p queue =>
    by_cases hzero : sequenceId = 0
    · refine Or.inl ⟨p, queue, 0, ?_, List.Perm.refl _, fun h => absurd hzero h, fun _ => rfl⟩
      simp [dataAvailable, hbuffer, hs, hzero]
    · rw [dataAvailable_of_ne_zero hbuffer hzero, ← hs]
      rcases (shaped_of_isResponse hq).mismatch_or_first with
        hall | ⟨before, m, after, hsplit, hm, hbefore⟩
      · -- no response with the id: the search goes once around the queue
        have hlen : s.receivedPackets.length < maxBufferCapacity := by
          rcases hsearch with h | h | ⟨q, rest, hq', hid⟩
          · exact absurd h hzero
          · exact h
          · obtain ⟨n, hn, hne⟩ := hall q (by simp [hq'])
            rw [hid] at hn
            exact absurd (Except.ok.inj hn).symm hne
        refine Or.inr ⟨?_, fun q hq => ⟨hzero, hall q hq⟩⟩
        rw [search_of_mismatch _ hall hlen, List.rotate_length]
      · have hfull : before = [] ∨ s.receivedPackets.length < maxBufferCapacity := by
          rcases hsearch with h | h | ⟨q, rest, hq', hid⟩
          · exact absurd h hzero
          · exact Or.inr h
          · cases before with
            | nil => exact Or.inl rfl
            | cons b before =>
              obtain rfl : q = b := (List.cons.inj (hq'.symm.trans hsplit)).1
              obtain ⟨n, hn, hne⟩ := hbefore q List.mem_cons_self
              rw [hid] at hn
              exact absurd (Except.ok.inj hn).symm hne
        refine Or.inl ⟨m, after ++ before, 1, ?_, ?_, fun _ => hm, fun h => absurd h hzero⟩
        · exact search_of_match after hm before hsplit hbefore hfull (by simp [hsplit])
        · rw [hsplit]
          exact @List.perm_append_comm _ (m :: after) before

/-- What a poll for an id can do to a stream: it keeps the buffered packet, or it buffers a
queued packet, which has the id or is read from its start. -/
structure Polled (sequenceId : Int64) (s s' : RxStream) : Prop where
  streamType : s'.streamType = s.streamType
  receivedPackets : ∀ p ∈ s'.receivedPackets, p ∈ s.receivedPackets
  bufferedPacket :
    (s'.bufferedPacket = s.bufferedPacket ∧ s'.bufferedIterator = s.bufferedIterator) ∨
    (s'.bufferedPacket ∈ s.receivedPackets ∧
      (sequenceId ≠ 0 → sequenceField s'.bufferedPacket = .ok sequenceId) ∧
      (sequenceId = 0 → s'.bufferedIterator = 0))

lemma Polled.refl (sequenceId : Int64) (s : RxStream) : Polled sequenceId s s :=
  ⟨rfl, fun _ hp => hp, Or.inl ⟨rfl, rfl⟩⟩

lemma Polled.front {sequenceId : Int64} {s : RxStream} {p : Fields} {queue : List Fields}
    {iterator : ℕ} (hs : s.receivedPackets = p :: queue)
    (hp : sequenceId ≠ 0 → sequenceField p = .ok sequenceId)
    (hiterator : sequenceId = 0 → iterator = 0) :
    Polled sequenceId s { s with
      bufferedPacket := p, receivedPackets := queue, bufferedIterator := iterator } := by
  refine ⟨rfl, fun q hq => ?_, Or.inr ⟨?_, hp, hiterator⟩⟩
  · rw [hs]
    exact List.mem_cons_of_mem p hq
  · rw [hs]
    exact List.mem_cons_self

lemma search_ok {sequenceId : Int64} (hid : sequenceId ≠ 0) : ∀ (turns : ℕ) {s s' : RxStream}
    {available : Bool}, search sequenceId turns s = .ok (available, s') →
    Polled sequenceId s s' := by
  intro turns
  induction turns with
  | zero =>
    rintro s s' available ⟨⟩
    exact Polled.refl sequenceId s
  | succ turns ih =>
    intro s s' available h
    cases hs : s.receivedPackets with
    | nil =>
      simp only [search, hs] at h
      cases h
      exact Polled.refl sequenceId s
    | cons p queue =>
      simp only [search, hs] at h
      obtain ⟨first, hfirst, hnext⟩ := Transition.bind_eq_ok.mp h
      split_ifs at hnext with hmatch
      · subst hmatch
        cases hnext
        exact Polled.front hs (fun _ => hfirst) fun hzero => absurd hzero hid
      · -- the packet goes to the end of the queue, and the search goes on
        obtain ⟨rotated, hrotated, hnext⟩ := Transition.bind_eq_ok.mp hnext
        have hsame : ∀ q, q ∈ rotated ↔ q ∈ s.receivedPackets := by
          intro q
          rw [rotate] at hrotated
          split_ifs at hrotated with hfull
          obtain rfl := Except.ok.inj hrotated
          rw [hs, List.mem_append, List.mem_singleton, List.mem_cons, or_comm]
        obtain ⟨htype, hqueue, hbuffer⟩ := ih hnext
        refine ⟨htype, fun q hq => (hsame q).mp (hqueue q hq), ?_⟩
        rcases hbuffer with hkept | ⟨hmem, hrest⟩
        · exact Or.inl hkept
        · exact Or.inr ⟨(hsame _).mp hmem, hrest⟩

lemma dataAvailable_ok {sequenceId : Int64} {s s' : RxStream} {available : Bool}
    (h : s.dataAvailable sequenceId = .ok (available, s')) : Polled sequenceId s s' := by
  by_cases hbuffer : s.bufferedPacket = []
  · by_cases hid : sequenceId = 0
    · cases hs : s.receivedPackets with
      | nil =>
        simp only [dataAvailable, hbuffer, hs, ne_eq, not_true_eq_false, if_false] at h
        cases h
        exact Polled.refl sequenceId s
      | cons p queue =>
        simp only [dataAvailable, hbuffer, hs, hid, ne_eq, not_true_eq_false, if_false] at h
        cases h
        exact Polled.front hs (fun hne => absurd hid hne) fun _ => rfl
    · rw [dataAvailable_of_ne_zero hbuffer hid] at h
      exact search_ok hid _ h
  · rw [dataAvailable_of_ne_nil hbuffer] at h
    cases h
    exact Polled.refl sequenceId s

/-- A search that finds something buffers a packet with the id. -/
lemma sequenceField_of_search {sequenceId : Int64} : ∀ (turns : ℕ) {s s' : RxStream},
    search sequenceId turns s = .ok (true, s') →
      sequenceField s'.bufferedPacket = .ok sequenceId := by
  intro turns
  induction turns with
  | zero =>
    rintro s s' ⟨⟩
  | succ turns ih =>
    intro s s' h
    cases hs : s.receivedPackets with
    | nil =>
      simp only [search, hs] at h
      cases h
    | cons p queue =>
      simp only [search, hs] at h
      obtain ⟨first, hfirst, hnext⟩ := Transition.bind_eq_ok.mp h
      split_ifs at hnext with hmatch
      · subst hmatch
        cases hnext
        exact hfirst
      · obtain ⟨rotated, -, hnext⟩ := Transition.bind_eq_ok.mp hnext
        exact ih hnext

/-- With an empty buffer, a poll that returns true takes a packet from the queue. -/
lemma dataAvailable_ne_self {sequenceId : Int64} {s : RxStream} (hbuffer : s.bufferedPacket = []) :
    s.dataAvailable sequenceId ≠ .ok (true, s) := by
  intro h
  by_cases hid : sequenceId = 0
  · subst hid
    cases hs : s.receivedPackets with
    | nil =>
      rw [dataAvailable_nil hbuffer hs] at h
      cases h
    | cons p queue =>
      rw [dataAvailable_zero_cons hbuffer hs] at h
      have hqueue := congrArg receivedPackets (Prod.mk.inj (Except.ok.inj h)).2
      rw [hs] at hqueue
      exact absurd hqueue.symm (List.cons_ne_self _ _)
  · rw [dataAvailable_of_ne_zero hbuffer hid] at h
    have hfirst := sequenceField_of_search _ h
    rw [hbuffer] at hfirst
    cases hfirst

/-- A poll of a queue of packets with fields that returns true has one in the buffer. -/
lemma bufferedPacket_ne_nil {sequenceId : Int64} {s s' : RxStream}
    (hq : ∀ p ∈ s.receivedPackets, p ≠ []) (h : s.dataAvailable sequenceId = .ok (true, s')) :
    s'.bufferedPacket ≠ [] := by
  rcases (dataAvailable_ok h).bufferedPacket with ⟨hkept, -⟩ | ⟨hmem, -⟩
  · intro hnil
    have hbuffer := hkept.symm.trans hnil
    by_cases hid : sequenceId = 0
    · subst hid
      cases hs : s.receivedPackets with
      | nil =>
        rw [dataAvailable_nil hbuffer hs] at h
        cases h
      | cons p queue =>
        rw [dataAvailable_zero_cons hbuffer hs] at h
        obtain rfl := (Prod.mk.inj (Except.ok.inj h)).2
        exact hq p (by simp [hs]) hnil
    · rw [dataAvailable_of_ne_zero hbuffer hid] at h
      have hfirst := sequenceField_of_search _ h
      rw [hnil] at hfirst
      cases hfirst
  · exact hq _ hmem

/-! ## The search as a whole -/

/-- The front of a full queue is destroyed before it is copied to the back. -/
lemma search_of_full {sequenceId : Int64} {s : RxStream} {packet : Fields} {queue : List Fields}
    (hs : s.receivedPackets = packet :: queue) (hp : Mismatch sequenceId packet)
    (hlen : (packet :: queue).length = maxBufferCapacity) (turns : ℕ) :
    search sequenceId (turns + 1) s = .error .dangling := by
  obtain ⟨n, hn, hne⟩ := hp
  have hrotate : rotate (packet :: queue) = .error .dangling := if_pos hlen
  simp only [search, hs, hn, hrotate, bind, Except.bind, if_neg hne]

/-- A poll that returns did not have to turn a full queue. -/
lemma searchable_of_dataAvailable {sequenceId : Int64} {s : RxStream}
    (hbuffer : s.bufferedPacket = []) (hq : ∀ p ∈ s.receivedPackets, IsResponse p)
    (hlen : s.receivedPackets.length ≤ maxBufferCapacity) {result : Bool × RxStream}
    (h : s.dataAvailable sequenceId = .ok result) : Searchable sequenceId s.receivedPackets := by
  by_contra hsearch
  have hid : sequenceId ≠ 0 := fun hid => hsearch (Or.inl hid)
  have hfull : ¬ s.receivedPackets.length < maxBufferCapacity :=
    fun h => hsearch (Or.inr (Or.inl h))
  rw [dataAvailable_of_ne_zero hbuffer hid] at h
  cases hs : s.receivedPackets with
  | nil => simp [hs, maxBufferCapacity] at hfull
  | cons packet queue =>
    obtain ⟨n, body, hpacket⟩ := hq packet (by simp [hs])
    have hn : sequenceField packet = .ok n.toInt64 := by rw [hpacket]; rfl
    have hp : Mismatch sequenceId packet := by
      refine ⟨n.toInt64, hn, ?_⟩
      rintro rfl
      exact hsearch (Or.inr (Or.inr ⟨packet, queue, hs, hn⟩))
    rw [hs] at hlen hfull
    rw [hs, List.length_cons, search_of_full hs hp (by omega)] at h
    cases h

/-- What a search for a response promises: it finds one exactly when there is one, it takes
the earliest, and the other packets stay in the queue. -/
def LosesNothing (sequenceId : Int64) (s : RxStream) : Prop :=
  ∃ available s', s.dataAvailable sequenceId = .ok (available, s') ∧
    (available = true ↔ ∃ p ∈ s.receivedPackets, firstInteger p = some sequenceId) ∧
    (available = true → ∃ before packet after, s.receivedPackets = before ++ packet :: after ∧
      firstInteger packet = some sequenceId ∧ (∀ p ∈ before, firstInteger p ≠ some sequenceId) ∧
      s'.bufferedPacket = packet ∧ s'.bufferedIterator = 1 ∧
      s'.receivedPackets = after ++ before) ∧
    (available = false → s'.receivedPackets = s.receivedPackets)

/-- The search never has to turn a full queue. -/
def Turnable (sequenceId : Int64) (queue : List Fields) : Prop :=
  queue.length < maxBufferCapacity ∨ ∃ p ∈ queue.head?, firstInteger p = some sequenceId

instance (sequenceId : Int64) (queue : List Fields) : Decidable (Turnable sequenceId queue) :=
  inferInstanceAs (Decidable (_ ∨ _))

/-- A search through packets with other ids turns the queue, which must not be full. -/
lemma Turnable.length_lt {sequenceId : Int64} {packet : Fields} {queue : List Fields}
    (h : Turnable sequenceId (packet :: queue)) (hp : Mismatch sequenceId packet) :
    (packet :: queue).length < maxBufferCapacity := by
  refine h.resolve_right ?_
  rintro ⟨p, hfront, hid⟩
  obtain rfl : packet = p := by simpa using hfront
  exact hp.firstInteger_ne hid

/-- A search that meets another id first in a full queue does not return. -/
lemma dataAvailable_of_not_turnable {sequenceId : Int64} {s : RxStream}
    (hbuffer : s.bufferedPacket = []) (hid : sequenceId ≠ 0) {packet : Fields}
    {queue : List Fields} (hs : s.receivedPackets = packet :: queue)
    (hlen : s.receivedPackets.length ≤ maxBufferCapacity) (hp : Mismatch sequenceId packet)
    (hturn : ¬ Turnable sequenceId s.receivedPackets) :
    s.dataAvailable sequenceId = .error .dangling := by
  have hfull : (packet :: queue).length = maxBufferCapacity := by
    have hge : ¬ s.receivedPackets.length < maxBufferCapacity := fun h => hturn (Or.inl h)
    rw [hs] at hge hlen
    omega
  rw [dataAvailable_of_ne_zero hbuffer hid, hs, List.length_cons]
  exact search_of_full hs hp hfull _

/-- A search that comes to a packet without a number does not return. -/
lemma search_of_error {sequenceId : Int64} {packet : Fields} {e : Failure}
    (hp : sequenceField packet = .error e) : ∀ (before after : List Fields) {s : RxStream}
    {turns : ℕ}, s.receivedPackets = before ++ packet :: after →
    (∀ p ∈ before, Mismatch sequenceId p) → before.length < turns →
    ∃ e, search sequenceId turns s = .error e := by
  intro before
  induction before with
  | nil =>
    intro after s turns hs _ hturns
    obtain ⟨turns, rfl⟩ := Nat.exists_eq_succ_of_ne_zero (Nat.ne_of_gt hturns)
    exact ⟨e, by simp [search, hs, hp, bind, Except.bind]⟩
  | cons b before ih =>
    intro after s turns hs hbefore hturns
    obtain ⟨turns, rfl⟩ := Nat.exists_eq_succ_of_ne_zero (Nat.ne_of_gt (Nat.zero_lt_of_lt hturns))
    obtain ⟨n, hn, hne⟩ := hbefore b List.mem_cons_self
    by_cases hfull : (b :: (before ++ packet :: after)).length = maxBufferCapacity
    · refine ⟨.dangling, ?_⟩
      simp only [search, hs, List.cons_append, hn, rotate, if_pos hfull, if_neg hne, bind,
        Except.bind]
    · obtain ⟨e', he'⟩ := @ih (after ++ [b])
        { s with receivedPackets := before ++ packet :: after ++ [b] } turns (by simp)
        (fun p hp => hbefore p (List.mem_cons_of_mem b hp)) (by simpa using hturns)
      refine ⟨e', ?_⟩
      simpa only [search, hs, List.cons_append, hn, rotate, if_neg hfull, if_neg hne, bind,
        Except.bind] using he'

/-- The search in a shaped queue that it can turn. -/
lemma dataAvailable_of_shaped {sequenceId : Int64} {s : RxStream} (hbuffer : s.bufferedPacket = [])
    (hid : sequenceId ≠ 0) (hturn : Turnable sequenceId s.receivedPackets)
    (hshaped : Shaped sequenceId s.receivedPackets) :
    (s.dataAvailable sequenceId = .ok (false, s) ∧
      ∀ p ∈ s.receivedPackets, Mismatch sequenceId p) ∨
    ∃ before packet after, s.receivedPackets = before ++ packet :: after ∧
      sequenceField packet = .ok sequenceId ∧ (∀ p ∈ before, Mismatch sequenceId p) ∧
      s.dataAvailable sequenceId = .ok (true, { s with
        bufferedPacket := packet, receivedPackets := after ++ before, bufferedIterator := 1 }) := by
  rw [dataAvailable_of_ne_zero hbuffer hid]
  rcases hshaped.mismatch_or_first with hall | ⟨before, packet, after, hsplit, hp, hbefore⟩
  · have hshort : s.receivedPackets.length < maxBufferCapacity := by
      cases hs : s.receivedPackets with
      | nil => simp [maxBufferCapacity]
      | cons p queue =>
        rw [hs] at hturn hall
        exact hturn.length_lt (hall p List.mem_cons_self)
    refine Or.inl ⟨?_, hall⟩
    rw [search_of_mismatch _ hall hshort, List.rotate_length]
  · have hshort : before = [] ∨ s.receivedPackets.length < maxBufferCapacity := by
      cases before with
      | nil => exact Or.inl rfl
      | cons b before =>
        rw [hsplit] at hturn ⊢
        exact Or.inr (hturn.length_lt (hbefore b List.mem_cons_self))
    exact Or.inr ⟨before, packet, after, hsplit, hp, hbefore,
      search_of_match after hp before hsplit hbefore hshort (by simp [hsplit])⟩

/-- A search returns exactly in a shaped queue that it can turn. -/
theorem dataAvailable_returns_iff {sequenceId : Int64} {s : RxStream}
    (hbuffer : s.bufferedPacket = []) (hlen : s.receivedPackets.length ≤ maxBufferCapacity)
    (hid : sequenceId ≠ 0) :
    (∃ r, s.dataAvailable sequenceId = .ok r) ↔
      Turnable sequenceId s.receivedPackets ∧ Shaped sequenceId s.receivedPackets := by
  constructor
  · rintro ⟨r, hr⟩
    have hshaped : Shaped sequenceId s.receivedPackets := by
      by_contra hnot
      obtain ⟨before, packet, after, e, hsplit, hp, hbefore⟩ := exists_error_of_not_shaped hnot
      have hturns : before.length < s.receivedPackets.length := by simp [hsplit]
      obtain ⟨e', he'⟩ := search_of_error hp before after hsplit hbefore hturns
      rw [dataAvailable_of_ne_zero hbuffer hid, he'] at hr
      cases hr
    refine ⟨?_, hshaped⟩
    by_contra hturn
    cases hs : s.receivedPackets with
    | nil => exact hturn (Or.inl (by simp [hs, maxBufferCapacity]))
    | cons p queue =>
      -- the front of the full queue has another id
      rw [hs] at hshaped
      obtain ⟨n, hn⟩ := Option.isSome_iff_exists.mp hshaped.1
      have hp : Mismatch sequenceId p := by
        refine ⟨n, sequenceField_eq_ok_iff.mpr hn, fun heq => hturn (Or.inr ⟨p, by simp [hs], ?_⟩)⟩
        rw [hn, heq]
      rw [dataAvailable_of_not_turnable hbuffer hid hs hlen hp hturn] at hr
      cases hr
  · rintro ⟨hturn, hshaped⟩
    rcases dataAvailable_of_shaped hbuffer hid hturn hshaped with ⟨hok, -⟩ | ⟨_, _, _, -, -, -, hok⟩
    · exact ⟨_, hok⟩
    · exact ⟨_, hok⟩

/-- **Response search.**  On a queue of packets that begin with integers, the search for an
id other than 0 loses nothing exactly when the queue is not full or its front packet has
the id. -/
theorem losesNothing_iff {sequenceId : Int64} {s : RxStream} (hbuffer : s.bufferedPacket = [])
    (hlen : s.receivedPackets.length ≤ maxBufferCapacity)
    (hq : ∀ p ∈ s.receivedPackets, (firstInteger p).isSome) (hid : sequenceId ≠ 0) :
    LosesNothing sequenceId s ↔ Turnable sequenceId s.receivedPackets := by
  constructor
  · rintro ⟨available, s', havailable, -⟩
    exact ((dataAvailable_returns_iff hbuffer hlen hid).mp ⟨_, havailable⟩).1
  · intro hturn
    rcases dataAvailable_of_shaped hbuffer hid hturn (shaped_of_forall hq) with
      ⟨hok, hall⟩ | ⟨before, packet, after, hsplit, hp, hbefore, hok⟩
    · have hnone : ¬ ∃ p ∈ s.receivedPackets, firstInteger p = some sequenceId := by
        rintro ⟨p, hp, heq⟩
        exact (hall p hp).firstInteger_ne heq
      refine ⟨false, s, hok, ?_, fun h => absurd h (by decide), fun _ => rfl⟩
      simpa using hnone
    · have hmatch := sequenceField_eq_ok_iff.mp hp
      refine ⟨true, _, hok, ?_, fun _ => ⟨before, packet, after, hsplit, hmatch, ?_, rfl, rfl,
        rfl⟩, fun h => absurd h (by decide)⟩
      · exact iff_of_true rfl ⟨packet, by simp [hsplit], hmatch⟩
      · exact fun p hmem => (hbefore p hmem).firstInteger_ne

/-- The second of two responses is taken. -/
theorem losesNothing_second :
    LosesNothing 2 ⟨2, 1, 0, [], [[.uint 1, .uint 8], [.uint 2, .uint 9]]⟩ :=
  (losesNothing_iff rfl (by decide) (by decide) (by decide)).mpr (Or.inl (by decide))

/-- A client whose queue is full of responses to other requests. -/
def fullStream : RxStream :=
  ⟨2, 1, 0, [], List.replicate maxBufferCapacity [.uint 1]⟩

/-- The search in the full queue reads a packet that it has destroyed. -/
theorem search_breaks_full_queue :
    fullStream.receivedPackets.length = maxBufferCapacity ∧
      (∀ p ∈ fullStream.receivedPackets, (firstInteger p).isSome) ∧
      fullStream.dataAvailable 5 = .error .dangling ∧ ¬ LosesNothing 5 fullStream := by
  have hlen : fullStream.receivedPackets.length = maxBufferCapacity := List.length_replicate
  have hall : ∀ p ∈ fullStream.receivedPackets, p = [.uint 1] :=
    fun p hp => List.eq_of_mem_replicate hp
  have hq : ∀ p ∈ fullStream.receivedPackets, (firstInteger p).isSome := by
    intro p hp
    rw [hall p hp]
    rfl
  have hfull : fullStream.dataAvailable 5 = .error .dangling := by
    rw [dataAvailable_of_ne_zero rfl (by decide)]
    exact search_of_full rfl ⟨1, rfl, by decide⟩ rfl 99
  refine ⟨hlen, hq, hfull, ?_⟩
  rintro ⟨available, s', havailable, -⟩
  rw [hfull] at havailable
  cases havailable

end RxStream
end RmwDesert
