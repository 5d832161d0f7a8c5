import XrceDds.Lib.SerialNumber
import Mathlib.Data.List.Infix

/-!
# Filters on serial numbers

A receiver that keeps nothing but the serial number of the last message that it took, and takes a
message when its number is ahead of that one, takes a part of what was sent, in order and nothing
twice.  The channel may lose, duplicate and reorder; it must only not deliver a message when one
that is half a turn ahead has arrived (`Follows.take`).

Messages are numbered on a circle of `2 * k` numbers, from the one behind `base` on.
-/

namespace SerialFilter

variable {α : Type} {k base newest last late : ℕ} {sent taken : List α}

/-- Of the messages `sent` the first `newest` contain all that have arrived, and `taken` were taken,
of which `last` is the number of the last one. -/
structure Follows (k base : ℕ) (sent : List α) (newest last : ℕ) (taken : List α) : Prop where
  newest_le : newest ≤ sent.length
  position : ∃ position ≤ newest, last = (base + position) % (2 * k) ∧
    taken.Sublist (sent.take position)

namespace Follows

/-- Nothing is sent and taken. -/
lemma start (k base : ℕ) : Follows k base ([] : List α) 0 (base % (2 * k)) [] where
  newest_le := Nat.le_refl 0
  position := ⟨0, Nat.le_refl 0, rfl, List.nil_sublist _⟩

/-- More is sent. -/
lemma append (h : Follows k base sent newest last taken) (messages : List α) :
    Follows k base (sent ++ messages) newest last taken where
  newest_le := by
    rw [List.length_append]
    exact Nat.le_add_right_of_le h.newest_le
  position := by
    obtain ⟨position, hle, hlast, htaken⟩ := h.position
    refine ⟨position, hle, hlast, ?_⟩
    rwa [List.take_append_of_le_length (Nat.le_trans hle h.newest_le)]

/-- A message arrives and is not taken. -/
lemma drop (h : Follows k base sent newest last taken) {i : ℕ} (hi : i < sent.length) :
    Follows k base sent (max newest (i + 1)) last taken where
  newest_le := Nat.max_le.mpr ⟨h.newest_le, hi⟩
  position := by
    obtain ⟨position, hle, hlast, htaken⟩ := h.position
    exact ⟨position, Nat.le_trans hle (Nat.le_max_left _ _), hlast, htaken⟩

/-- A message that arrives less than half a turn late is taken only if it is ahead. -/
lemma lt_of_precedes (h : Follows k base sent newest last taken) {i : ℕ} (hlate : late < k)
    (harrives : newest ≤ i + 1 + late)
    (hprecedes : SerialNumber.Precedes k last ((base + (i + 1)) % (2 * k))) :
    ∃ position ≤ i, last = (base + position) % (2 * k) ∧
      taken.Sublist (sent.take position) := by
  obtain ⟨position, hle, hlast, htaken⟩ := h.position
  refine ⟨position, ?_, hlast, htaken⟩
  by_contra hbehind
  rw [hlast, SerialNumber.precedes_mod_iff (by omega) (by omega)] at hprecedes
  omega

/-- A message arrives and is taken. -/
theorem take (h : Follows k base sent newest last taken) {i : ℕ} {message : α} (hlate : late < k)
    (hmessage : sent[i]? = some message) (harrives : newest ≤ i + 1 + late)
    (hprecedes : SerialNumber.Precedes k last ((base + (i + 1)) % (2 * k))) :
    Follows k base sent (max newest (i + 1)) ((base + (i + 1)) % (2 * k)) (taken ++ [message]) where
  newest_le := Nat.max_le.mpr ⟨h.newest_le, (List.getElem?_eq_some_iff.mp hmessage).1⟩
  position := by
    obtain ⟨position, hle, -, htaken⟩ := h.lt_of_precedes hlate harrives hprecedes
    refine ⟨i + 1, Nat.le_max_right _ _, rfl, ?_⟩
    rw [List.take_add_one, hmessage]
    exact (htaken.trans (List.take_sublist_take_left hle)).append (List.Sublist.refl [message])

/-- What is taken is a part of what is sent. -/
lemma sublist (h : Follows k base sent newest last taken) : taken.Sublist sent := by
  obtain ⟨position, -, -, htaken⟩ := h.position
  exact htaken.trans (List.take_sublist _ _)

end Follows

end SerialFilter
