import XrceDds.Agent.SeqNum
import Mathlib.Algebra.Group.Fin.Basic

/-!
# The operators of `SeqNum` on an `int`

Sums take an `int` of `SeqNum::ADD_RANGE` and leave the number alone for any other; differences
take every `int`, by its residue.  The difference of an `int` and a `SeqNum` is formed the wrong
way round (`intMinus_eq`); `intMinus_eq_sub_iff` says when this makes no difference.
-/

namespace XrceDds

namespace SeqNum

/-- `uint16_t(rhs)` of an `int`. -/
def uint16 (rhs : ℤ) : SeqNum := ⟨(rhs % 65536).toNat, by omega⟩

/-- `SeqNum::ADD_RANGE[0]`. -/
def addRangeMin : SeqNum := 0

/-- `operator +=` of an `int`. -/
def addAssignInt (self : SeqNum) (rhs : ℤ) : SeqNum :=
  if rhs ≥ addRangeMin.val ∧ rhs ≤ addRangeMax.val then
    ⟨(self.val + (uint16 rhs).val) % 65536, Nat.mod_lt _ (by decide)⟩
  else self

/-- `operator +` of a `SeqNum` and an `int`. -/
def plusInt (lhs : SeqNum) (rhs : ℤ) : SeqNum := addAssignInt lhs rhs

/-- `operator +` of an `int` and a `SeqNum`. -/
def intPlus (lhs : ℤ) (rhs : SeqNum) : SeqNum := addAssignInt rhs lhs

/-- `operator -=` of a `SeqNum`. -/
def subAssign (self rhs : SeqNum) : SeqNum :=
  if rhs.val > self.val then
    ⟨(self.val + 65536 - rhs.val) % 65536, Nat.mod_lt _ (by decide)⟩
  else ⟨(self.val - rhs.val) % 65536, Nat.mod_lt _ (by decide)⟩

/-- `operator -` of two `SeqNum`. -/
def minus (lhs rhs : SeqNum) : SeqNum := subAssign lhs rhs

/-- `operator -=` of an `int`. -/
def subAssignInt (self : SeqNum) (rhs : ℤ) : SeqNum :=
  if (uint16 rhs).val > self.val then
    ⟨(self.val + 65536 - (uint16 rhs).val) % 65536, Nat.mod_lt _ (by decide)⟩
  else ⟨(self.val - (uint16 rhs).val) % 65536, Nat.mod_lt _ (by decide)⟩

/-- `operator -` of a `SeqNum` and an `int`. -/
def minusInt (lhs : SeqNum) (rhs : ℤ) : SeqNum := subAssignInt lhs rhs

/-- `operator -` of an `int` and a `SeqNum`: `rhs -= lhs; return rhs`. -/
def intMinus (lhs : ℤ) (rhs : SeqNum) : SeqNum := subAssignInt rhs lhs

/-- The residue of an `int`. -/
lemma uint16_val (rhs : ℤ) : ((uint16 rhs).val : ℤ) = rhs % 65536 :=
  Int.toNat_of_nonneg (Int.emod_nonneg rhs (by decide))

/-- A number is known by the residue of any `int` that it equals. -/
lemma eq_uint16_iff (s : SeqNum) (x : ℤ) : s = uint16 x ↔ (s.val : ℤ) = x % 65536 := by
  rw [← uint16_val, Fin.ext_iff, Nat.cast_inj]

/-- A sum with an `int` of the range. -/
lemma addAssignInt_of_mem (s : SeqNum) {d : ℤ} (hnonneg : 0 ≤ d) (hle : d ≤ 32767) :
    addAssignInt s d = uint16 (s.val + d) := by
  have hrange : d ≥ (addRangeMin.val : ℤ) ∧ d ≤ (addRangeMax.val : ℤ) := ⟨hnonneg, hle⟩
  have hd := uint16_val d
  unfold addAssignInt
  rw [if_pos hrange, eq_uint16_iff]
  push_cast
  omega

/-- A sum with any other `int`. -/
lemma addAssignInt_of_not_mem (s : SeqNum) {d : ℤ} (hd : ¬ (0 ≤ d ∧ d ≤ 32767)) :
    addAssignInt s d = s := if_neg hd

/-- The difference of two numbers is that of the circle. -/
lemma subAssign_eq_sub (s d : SeqNum) : subAssign s d = s - d := by
  apply Fin.ext
  rw [Fin.sub_def]
  unfold subAssign
  split <;> dsimp only <;> omega

/-- A difference with any `int`. -/
lemma subAssignInt_eq (s : SeqNum) (d : ℤ) : subAssignInt s d = uint16 (s.val - d) := by
  have hd := uint16_val d
  rw [eq_uint16_iff]
  unfold subAssignInt
  split <;> push_cast <;> omega

/-- The difference of an `int` and a `SeqNum` is formed in the other order. -/
theorem intMinus_eq (d : ℤ) (s : SeqNum) : intMinus d s = uint16 (s.val - d) :=
  subAssignInt_eq s d

/-- The difference of an `int` and a `SeqNum` is that of the `SeqNum` and the `int`, and it is the
one that is written only when the two are the same or half a turn apart. -/
theorem intMinus_eq_sub_iff (d : ℤ) (s : SeqNum) :
    intMinus d s = minusInt s d ∧
      (intMinus d s = uint16 (d - s.val) ↔ (s.val : ℤ) % 32768 = d % 32768) := by
  refine ⟨rfl, ?_⟩
  rw [intMinus_eq, eq_uint16_iff, uint16_val]
  omega

end SeqNum

end XrceDds
