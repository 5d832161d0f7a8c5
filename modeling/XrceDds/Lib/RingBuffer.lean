import Mathlib.Data.List.GetD
import Mathlib.Data.List.Range
import Mathlib.Tactic.Ring

/-!
# Circular buffers

A circular buffer of `N` cells with an index `head` at which it is written and an index `tail` at
which it is read.  It is empty when the two are equal, and so holds at most `N - 1` elements.
`Holds` says that what lies between them is a given queue.

The rules are those of a queue: some of its elements are dropped at the tail (`Holds.drop`), and
elements are appended at the head (`Holds.append`) as a straight piece of the buffer, without going
round its end.
-/

namespace RingBuffer

variable {α : Type} {N : ℕ} {cells cells' : ℕ → α} {head tail : ℕ} {queue : List α}

/-- The `n` cells from the index `tail` on. -/
def cellsFrom (N : ℕ) (cells : ℕ → α) (tail n : ℕ) : List α :=
  (List.range n).map fun i => cells ((tail + i) % N)

/-- What lies between the tail and the head is the queue. -/
structure Holds (N : ℕ) (cells : ℕ → α) (head tail : ℕ) (queue : List α) : Prop where
  tail_lt : tail < N
  length_lt : queue.length < N
  head_eq : head = (tail + queue.length) % N
  queue_eq : queue = cellsFrom N cells tail queue.length

/-- As many cells are read as are asked for. -/
@[simp] lemma length_cellsFrom (N : ℕ) (cells : ℕ → α) (tail n : ℕ) :
    (cellsFrom N cells tail n).length = n := by
  simp [cellsFrom]

/-- Cells are read from an index modulo the number of cells. -/
lemma cellsFrom_mod (N : ℕ) (cells : ℕ → α) (tail n : ℕ) :
    cellsFrom N cells (tail % N) n = cellsFrom N cells tail n := by
  simp only [cellsFrom, Nat.mod_add_mod]

/-- Cells and the cells behind them. -/
lemma cellsFrom_add (N : ℕ) (cells : ℕ → α) (tail n k : ℕ) :
    cellsFrom N cells tail (n + k) =
      cellsFrom N cells tail n ++ cellsFrom N cells (tail + n) k := by
  unfold cellsFrom
  rw [List.range_add, List.map_append, List.map_map]
  congr 1
  exact List.map_congr_left fun i _ => by simp [Nat.add_assoc]

/-- Cells that are the same. -/
lemma cellsFrom_congr {n : ℕ}
    (h : ∀ i < n, cells' ((tail + i) % N) = cells ((tail + i) % N)) :
    cellsFrom N cells' tail n = cellsFrom N cells tail n :=
  List.map_congr_left fun i hi => h i (List.mem_range.mp hi)

namespace Holds

/-- A buffer with equal indices holds nothing. -/
lemma empty (cells : ℕ → α) (h : tail < N) : Holds N cells tail tail [] where
  tail_lt := h
  length_lt := Nat.lt_of_le_of_lt (Nat.zero_le _) h
  head_eq := (Nat.mod_eq_of_lt h).symm
  queue_eq := rfl

variable (h : Holds N cells head tail queue)
include h

/-- The head is an index. -/
lemma head_lt : head < N := h.head_eq ▸ Nat.mod_lt _ (Nat.zero_lt_of_lt h.tail_lt)

/-- Where the head is, with and without a wrap. -/
lemma head_cases :
    tail + queue.length < N ∧ head = tail + queue.length ∨
      N ≤ tail + queue.length ∧ head + N = tail + queue.length := by
  have htail := h.tail_lt
  have hlength := h.length_lt
  have hhead := h.head_eq
  rcases Nat.lt_or_ge (tail + queue.length) N with hlt | hge
  · exact .inl ⟨hlt, hhead.trans (Nat.mod_eq_of_lt hlt)⟩
  · rw [Nat.mod_eq_sub_mod hge, Nat.mod_eq_of_lt (by omega)] at hhead
    exact .inr ⟨hge, by omega⟩

/-- The indices are equal only if the buffer is empty. -/
theorem head_eq_tail_iff : head = tail ↔ queue = [] := by
  have hcases := h.head_cases
  have htail := h.tail_lt
  have hlength := h.length_lt
  rw [← List.length_eq_zero_iff]
  omega

/-- The number of elements, from the indices. -/
lemma length_eq : queue.length = (head + N - tail) % N := by
  have htail := h.tail_lt
  have hlength := h.length_lt
  rcases h.head_cases with ⟨hlt, hhead⟩ | ⟨hge, hhead⟩
  · rw [show head + N - tail = queue.length + N by omega, Nat.add_mod_right,
      Nat.mod_eq_of_lt hlength]
  · rw [show head + N - tail = queue.length by omega, Nat.mod_eq_of_lt hlength]

/-- The elements, from the tail on. -/
lemma cell_eq {i : ℕ} (hi : i < queue.length) : cells ((tail + i) % N) = queue[i] := by
  have hqueue := h.queue_eq
  have hlt : i < (cellsFrom N cells tail queue.length).length := by rwa [length_cellsFrom]
  rw [List.getElem_of_eq hqueue hi]
  simp [cellsFrom]

/-- The tail moves over some of the elements. -/
theorem drop {k : ℕ} (hk : k ≤ queue.length) :
    Holds N cells head ((tail + k) % N) (queue.drop k) where
  tail_lt := Nat.mod_lt _ (Nat.zero_lt_of_lt h.tail_lt)
  length_lt := by
    have hlength := h.length_lt
    rw [List.length_drop]
    omega
  head_eq := by
    rw [h.head_eq, Nat.mod_add_mod, List.length_drop, Nat.add_assoc, Nat.add_sub_cancel' hk]
  queue_eq := by
    have hsplit := cellsFrom_add N cells tail k (queue.length - k)
    rw [Nat.add_sub_cancel' hk, ← h.queue_eq] at hsplit
    have hdrop := congrArg (List.drop k) hsplit
    rw [List.drop_left' (length_cellsFrom N cells tail k)] at hdrop
    rw [List.length_drop, cellsFrom_mod]
    exact hdrop

/-- Elements are written to cells from the head on that are not in use. -/
theorem append {bytes : List α} (hpiece : head + bytes.length ≤ N)
    (hfree : queue.length + bytes.length < N)
    (hframe : ∀ x, x < head ∨ head + bytes.length ≤ x → cells' x = cells x)
    (hbytes : ∀ i (hi : i < bytes.length), cells' (head + i) = bytes[i]) :
    Holds N cells' ((head + bytes.length) % N) tail (queue ++ bytes) where
  tail_lt := h.tail_lt
  length_lt := by rwa [List.length_append]
  head_eq := by rw [h.head_eq, Nat.mod_add_mod, List.length_append, Nat.add_assoc]
  queue_eq := by
    have hcases := h.head_cases
    rw [List.length_append, cellsFrom_add]
    congr 1
    · -- The cells in use end at the head, or lie around the end of the buffer and below it.
      refine h.queue_eq.trans (cellsFrom_congr fun i hi => hframe _ ?_).symm
      have htail := h.tail_lt
      rcases Nat.lt_or_ge (tail + i) N with hlt | hge
      · rw [Nat.mod_eq_of_lt hlt]
        omega
      · rw [Nat.mod_eq_sub_mod hge, Nat.mod_eq_of_lt (by omega)]
        omega
    · rw [← cellsFrom_mod, ← h.head_eq]
      refine List.ext_getElem (length_cellsFrom _ _ _ _).symm fun i hi _ => ?_
      simp only [cellsFrom, List.getElem_map, List.getElem_range]
      rw [Nat.mod_eq_of_lt (by omega), hbytes i hi]

end Holds

end RingBuffer
