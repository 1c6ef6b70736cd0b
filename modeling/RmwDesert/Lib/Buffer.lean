/-
Reads and writes in a buffer of a fixed size.

An access outside the buffer gives no result.  The rules below work on a buffer that is given
in pieces: an access to exactly one piece reads or replaces it.
-/
import Mathlib.Tactic

namespace Buffer

variable {α : Type}

/-- The elements at `offset`, `offset + 1` and so on. -/
def read (offset length : ℕ) (buffer : List α) : Option (List α) :=
  if offset + length ≤ buffer.length then some ((buffer.drop offset).take length) else none

/-- The buffer with other elements from an offset on. -/
def write (offset : ℕ) (elements buffer : List α) : Option (List α) :=
  if offset + elements.length ≤ buffer.length then
    some (buffer.take offset ++ elements ++ buffer.drop (offset + elements.length))
  else none

/-- `memmove`: the elements are read before any of them is written. -/
def memmove (dst src length : ℕ) (buffer : List α) : Option (List α) := do
  let elements ← read src length buffer
  write dst elements buffer

lemma read_piece (before piece after : List α) :
    read before.length piece.length (before ++ piece ++ after) = some piece := by
  rw [read, if_pos (by simp), List.append_assoc, List.drop_left, List.take_left]

lemma write_piece {before piece after elements : List α} (h : piece.length = elements.length) :
    write before.length elements (before ++ piece ++ after)
      = some (before ++ elements ++ after) := by
  have hdrop : (before ++ piece ++ after).drop (before.length + elements.length) = after := by
    rw [← h, ← List.length_append, List.drop_left]
  rw [write, if_pos (by simp [h]), hdrop, List.append_assoc before piece after, List.take_left]

lemma read_front (piece after : List α) :
    read 0 piece.length (piece ++ after) = some piece :=
  read_piece [] piece after

lemma write_front {piece elements : List α} (h : piece.length = elements.length)
    (after : List α) : write 0 elements (piece ++ after) = some (elements ++ after) := by
  have hwrite : write ([] : List α).length elements ([] ++ piece ++ after)
      = some ([] ++ elements ++ after) := write_piece h
  exact hwrite

/-- A list in two pieces, the first of a given length. -/
lemma exists_append {m n : ℕ} {l : List α} (h : l.length = m + n) :
    ∃ first second, l = first ++ second ∧ first.length = m ∧ second.length = n := by
  refine ⟨l.take m, l.drop m, (List.take_append_drop m l).symm, ?_, ?_⟩
  · simp [h]
  · simp [h]

/-- A piece that is moved over the gap in front of it: the gap comes out behind, with other
elements. -/
lemma memmove_back (before gap piece after : List α) :
    ∃ left, left.length = gap.length ∧
      memmove before.length (before.length + gap.length) piece.length
        (before ++ gap ++ piece ++ after) = some (before ++ piece ++ left ++ after) := by
  obtain ⟨old, left, hsplit, hold, hleft⟩ := exists_append (m := piece.length) (n := gap.length)
    (l := gap ++ piece) (by rw [List.length_append, Nat.add_comm])
  have hread : read (before.length + gap.length) piece.length (before ++ gap ++ piece ++ after)
      = some piece := by
    rw [← List.length_append]
    exact read_piece (before ++ gap) piece after
  have hpieces : before ++ gap ++ piece ++ after = before ++ old ++ (left ++ after) := by
    rw [List.append_assoc before gap piece, hsplit]
    simp only [List.append_assoc]
  refine ⟨left, hleft, ?_⟩
  rw [memmove, hread, Option.bind_eq_bind, Option.bind_some, hpieces, write_piece hold]
  simp only [List.append_assoc]

lemma length_of_write {offset : ℕ} {elements buffer result : List α}
    (h : write offset elements buffer = some result) : result.length = buffer.length := by
  unfold write at h
  split_ifs at h with hfits
  obtain rfl := Option.some.inj h
  simp only [List.length_append, List.length_take, List.length_drop]
  omega

lemma length_of_memmove {dst src length : ℕ} {buffer result : List α}
    (h : memmove dst src length buffer = some result) : result.length = buffer.length := by
  obtain ⟨elements, -, h⟩ := Option.bind_eq_some_iff.mp h
  exact length_of_write h

end Buffer
