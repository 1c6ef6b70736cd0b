/-
The two loops of the socket (`TcpDaemon.cpp`).

A pass of `socket_tx_communication` counts turns against the size of a queue that each turn
makes smaller, so it stops halfway; `txPass_eq` says where, and `txPasses_eq` what is left
after more passes.

The byte loop of `socket_rx_communication` looks up to three bytes back without asking for the
size of the vector.  `byteReads` lists what it reads, and `reads_in_bounds_iff` says in which
states all of that lies within the vector.
-/
import RmwDesert.Lib.Transition
import RmwDesert.TcpDaemon

namespace RmwDesert
namespace TcpDaemon

/-! ## The transmitter -/

/-- The `for` loop of `socket_tx_communication`, entered with the index `i`: what is given to
`send`, turn by turn, and what remains of `_tx_packets`. -/
def txTurns (i : ℕ) : List Packet → List (List UInt8) × List Packet
  | [] => ([], [])
  | packet :: queue =>
    if i < (packet :: queue).length then
      let (sent, rest) := txTurns (i + 1) queue
      (frame packet :: sent, rest)
    else ([], packet :: queue)

/-- One turn of the `while` loop of `socket_tx_communication`. -/
def txPass (queue : List Packet) : List (List UInt8) × List Packet := txTurns 0 queue

/-- The loop makes half of the turns that are missing between the index and the size. -/
lemma txTurns_eq (queue : List Packet) : ∀ i : ℕ,
    txTurns i queue = ((queue.take ((queue.length - i + 1) / 2)).map frame,
      queue.drop ((queue.length - i + 1) / 2)) := by
  induction queue with
  | nil => intro i; simp [txTurns]
  | cons packet queue ih =>
    intro i
    rw [txTurns]
    split_ifs with hi
    · -- a turn closes the gap between index and size from both sides
      rw [List.length_cons] at hi
      have hturns : (queue.length + 1 - i + 1) / 2 = (queue.length - (i + 1) + 1) / 2 + 1 := by
        omega
      rw [ih, List.length_cons, hturns]
      rfl
    · have hnone : ((packet :: queue).length - i + 1) / 2 = 0 := by omega
      rw [hnone]
      rfl

/-- A pass sends the first half of the queue, rounded up. -/
theorem txPass_eq (queue : List Packet) :
    txPass queue = ((queue.take ((queue.length + 1) / 2)).map frame,
      queue.drop ((queue.length + 1) / 2)) :=
  txTurns_eq queue 0

/-- The pass sends every packet of the queue, in order and once, and leaves none. -/
def Drains (queue : List Packet) : Prop := txPass queue = (queue.map frame, [])

/-- **Transmit pass.** A pass empties the queue exactly if it holds at most one packet. -/
theorem drains_iff (queue : List Packet) : Drains queue ↔ queue.length ≤ 1 := by
  rw [Drains, txPass_eq, Prod.mk.injEq, List.drop_eq_nil_iff]
  constructor
  · rintro ⟨-, hrest⟩
    omega
  · intro hlen
    have hall : queue.length ≤ (queue.length + 1) / 2 := by omega
    exact ⟨by rw [List.take_of_length_le hall], hall⟩

/-- Of two pending packets, the second stays on the queue. -/
theorem txPass_two : txPass [[1], [2]] = ([frame [1]], [[2]]) ∧ ¬ Drains [[1], [2]] := by
  refine ⟨rfl, fun h => ?_⟩
  cases h

/-- A number of turns of the `while` loop. -/
def txPasses : ℕ → List Packet → List (List UInt8) × List Packet
  | 0, queue => ([], queue)
  | passes + 1, queue =>
    let (sent, rest) := txPass queue
    let (later, rest) := txPasses passes rest
    (sent ++ later, rest)

/-- Each pass halves the queue: what was sent and what remains are the two parts of it. -/
theorem txPasses_eq (passes : ℕ) : ∀ queue : List Packet, ∃ k,
    k = queue.length - queue.length / 2 ^ passes ∧
    txPasses passes queue = ((queue.take k).map frame, queue.drop k) := by
  induction passes with
  | zero => intro queue; exact ⟨0, by simp, rfl⟩
  | succ passes ih =>
    intro queue
    obtain ⟨k, hk, hrest⟩ := ih (queue.drop ((queue.length + 1) / 2))
    have hhalf : queue.length - (queue.length + 1) / 2 = queue.length / 2 := by omega
    have hpow : queue.length / 2 ^ (passes + 1) = queue.length / 2 / 2 ^ passes := by
      rw [Nat.div_div_eq_div_mul, pow_succ']
    have hle : queue.length / 2 / 2 ^ passes ≤ queue.length / 2 := Nat.div_le_self _ _
    -- the first pass leaves the lower half, and the other passes divide that
    rw [List.length_drop, hhalf] at hk
    refine ⟨(queue.length + 1) / 2 + k, by omega, ?_⟩
    rw [txPasses, txPass_eq]
    simp only [hrest, List.drop_drop, ← List.map_append, ← List.take_add]

/-! ## The receiver -/

/-- The accesses of "Found header": the vector, and how far from its end it is read.  The
second one is made only if the first byte is a start marker. -/
def headerReads (s : Receiver) : List (Packet × ℕ) :=
  if s.foundHeader then []
  else if endAt s.packet 2 == some startMarker then [(s.packet, 2), (s.packet, 3)]
  else [(s.packet, 2)]

/-- The access of "Found tail". -/
def tailReads (s : Receiver) : List (Packet × ℕ) :=
  if s.foundHeader then [(s.packet, 1)] else []

/-- The accesses `packet.end()[-k]` of one turn of the byte loop. -/
def byteReads (s : Receiver) (field : UInt8) : List (Packet × ℕ) :=
  let s := { s with packet := s.packet ++ [field] }
  headerReads s ++ tailReads (findHeader field s)

/-- Every access of the turn refers to an element of the vector. -/
def InBounds (s : Receiver) (field : UInt8) : Prop :=
  ∀ read ∈ byteReads s field, read.2 ≤ read.1.length

/-- A state in which the byte loop reads within the vector: a header was found, or the vector
is not empty, and if it ends with a start marker, there is another byte before that one, which
is none. -/
def Receiver.Covered (s : Receiver) : Prop :=
  s.foundHeader = true ∨ s.packet ≠ [] ∧
    (endAt s.packet 1 = some startMarker →
      2 ≤ s.packet.length ∧ endAt s.packet 2 ≠ some startMarker)

lemma endAt_append_succ (packet : Packet) (field : UInt8) (k : ℕ) :
    endAt (packet ++ [field]) (k + 2) = endAt packet (k + 1) := by
  simp [endAt]

/-- Which reads lie within the vector, by the state that the byte meets. -/
lemma inBounds_iff (s : Receiver) (field : UInt8) : InBounds s field ↔ s.Covered := by
  have h₂ : endAt (s.packet ++ [field]) 2 = endAt s.packet 1 := endAt_append_succ _ _ 0
  have h₃ : endAt (s.packet ++ [field]) 3 = endAt s.packet 2 := endAt_append_succ _ _ 1
  by_cases hheader : s.foundHeader = true
  · -- only the byte just pushed is read
    refine iff_of_true ?_ (Or.inl hheader)
    simp [InBounds, byteReads, headerReads, tailReads, findHeader, hheader]
  · have hempty : s.packet ≠ [] ↔ 2 ≤ s.packet.length + 1 := by
      rw [← List.length_pos_iff]
      omega
    by_cases hlast : endAt s.packet 1 = some startMarker
    · by_cases hbefore : endAt s.packet 2 = some startMarker
      · -- a header is found, and the tail is looked for in the vector just cleared
        refine iff_of_false (fun h => ?_) ?_
        · have hread : (([] : Packet), 1) ∈ byteReads s field := by
            simp [byteReads, tailReads, findHeader, hheader, h₂, h₃, hlast, hbefore]
          exact absurd (h _ hread) (by simp)
        · rintro (h | ⟨-, h⟩)
          · exact hheader h
          · exact (h hlast).2 hbefore
      · -- the third byte from the end is read as well
        simp [InBounds, byteReads, headerReads, tailReads, findHeader, Receiver.Covered, hheader,
          h₂, h₃, hlast, hbefore, hempty]
    · -- only the byte before the one just pushed is read
      simp [InBounds, byteReads, headerReads, tailReads, findHeader, Receiver.Covered, hheader,
        h₂, hlast, hempty]

/-- The byte loop, as a step. -/
def rxStep (s : Receiver) (field : UInt8) : Except Empty Receiver := .ok (rxByte s field)

/-- **Receiver indexing.** From any state, a stream is processed within the bounds of the
vector exactly if each byte meets a state that is covered.  The initial state is not. -/
theorem reads_in_bounds_iff (s : Receiver) (stream : List UInt8) :
    (Transition.EveryStep rxStep InBounds s stream ↔
      Transition.EveryStep rxStep (fun s _ => s.Covered) s stream) ∧
    (Transition.EveryStep rxStep InBounds .initial stream ↔ stream = []) := by
  constructor
  · exact Transition.everyStep_iff (I := fun _ => True) (D := fun _ _ => True)
      (fun _ _ _ _ => trivial) (fun _ _ => inBounds_iff _ _) trivial
      (Transition.everyStep_of_forall fun _ _ _ => trivial)
  · cases stream with
    | nil => exact iff_of_true trivial rfl
    | cons field stream =>
      -- the first byte meets an empty vector
      refine iff_of_false (fun h => ?_) (List.cons_ne_nil _ _)
      rcases (inBounds_iff _ _).mp h.1 with hheader | ⟨hne, -⟩
      · cases hheader
      · exact hne rfl

/-- The first byte of a stream: the vector has one element, and the second one from its end is
read. -/
theorem first_byte_out_of_bounds :
    byteReads .initial 0 = [([0], 2)] ∧ ¬ InBounds .initial 0 := by
  refine ⟨rfl, fun h => ?_⟩
  exact absurd (h ([0], 2) List.mem_cons_self) (by decide)

end TcpDaemon
end RmwDesert
