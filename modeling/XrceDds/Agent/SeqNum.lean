import XrceDds.Client.SeqNum

/-!
# Sequence numbers of the Agent

The class `SeqNum` of the Agent, with its comparisons and the sums and differences that
its streams form.  On numbers of positions less than half a turn apart (`seqOf`) they are
the comparisons, sums and differences of the positions.
-/

namespace XrceDds

/-- `SeqNum`. -/
abbrev SeqNum := Fin 65536

namespace SeqNum

/-- `SeqNum::ADD_RANGE[1]`. -/
def addRangeMax : SeqNum := ⟨32767, by decide⟩

/-- `operator <`. -/
def Lt (lhs rhs : SeqNum) : Prop :=
  lhs ≠ rhs ∧
    ((lhs.val < rhs.val ∧ rhs.val - lhs.val < addRangeMax.val + 1) ∨
      (lhs.val > rhs.val ∧ lhs.val - rhs.val > addRangeMax.val + 1))

instance (lhs rhs : SeqNum) : Decidable (Lt lhs rhs) := by
  unfold Lt; infer_instance

/-- `operator >`. -/
def Gt (lhs rhs : SeqNum) : Prop := Lt rhs lhs

instance (lhs rhs : SeqNum) : Decidable (Gt lhs rhs) := by
  unfold Gt; infer_instance

/-- `operator <=`. -/
def Le (lhs rhs : SeqNum) : Prop := ¬ Gt lhs rhs

instance (lhs rhs : SeqNum) : Decidable (Le lhs rhs) := by
  unfold Le; infer_instance

/-- `operator >=`. -/
def Ge (lhs rhs : SeqNum) : Prop := ¬ Lt lhs rhs

instance (lhs rhs : SeqNum) : Decidable (Ge lhs rhs) := by
  unfold Ge; infer_instance

/-- `operator +`, of a `SeqNum` and an `int`. -/
def addInt (lhs : SeqNum) (rhs : ℕ) : SeqNum :=
  if rhs ≤ addRangeMax.val then ⟨(lhs.val + rhs) % 65536, Nat.mod_lt _ (by decide)⟩ else lhs

/-- `operator +`, of two `SeqNum`. -/
def add (lhs rhs : SeqNum) : SeqNum :=
  if Ge rhs 0 ∧ Le rhs addRangeMax then ⟨(lhs.val + rhs.val) % 65536, Nat.mod_lt _ (by decide)⟩
  else lhs

/-- `operator -`, of a `SeqNum` and an `int` that fits in 16 bits. -/
def subInt (lhs : SeqNum) (rhs : ℕ) : SeqNum :=
  if rhs > lhs.val then ⟨(lhs.val + 65536 - rhs) % 65536, Nat.mod_lt _ (by decide)⟩
  else ⟨(lhs.val - rhs) % 65536, Nat.mod_lt _ (by decide)⟩

/-- The comparison is that of serial numbers. -/
lemma lt_iff_precedes (lhs rhs : SeqNum) :
    Lt lhs rhs ↔ SerialNumber.Precedes 32768 lhs.val rhs.val := by
  unfold Lt SerialNumber.Precedes
  rw [ne_eq, Fin.ext_iff]
  exact Iff.rfl

/-- One number is before another when fewer than half a turn of steps lead up to it. -/
lemma lt_iff_seqSteps (lhs rhs : SeqNum) :
    Lt lhs rhs ↔ 0 < seqSteps lhs rhs ∧ seqSteps lhs rhs < 32768 := by
  rw [lt_iff_precedes]
  exact SerialNumber.precedes_iff_stepsUp lhs.isLt rhs.isLt

/-- Adding a small number moves the position. -/
@[simp] lemma addInt_seqOf (X : ℕ) {d : ℕ} (hd : d ≤ 32767) :
    addInt (seqOf X) d = seqOf (X + d) := by
  unfold addInt
  rw [if_pos (show d ≤ addRangeMax.val from hd)]
  exact Fin.ext (by simp [seqOf])

/-- Adding a small sequence number moves the position. -/
@[simp] lemma add_seqOf (X : ℕ) {d : ℕ} (hd : d ≤ 32767) :
    add (seqOf X) (seqOf d) = seqOf (X + d) := by
  have hval : (seqOf d).val = d := Nat.mod_eq_of_lt (by omega)
  have hrange : Ge (seqOf d) 0 ∧ Le (seqOf d) addRangeMax := by
    unfold Ge Le Gt Lt addRangeMax
    simp only [ne_eq, Fin.ext_iff, hval, Fin.val_zero]
    omega
  unfold add
  rw [if_pos hrange]
  refine Fin.ext ?_
  change (X % 65536 + (seqOf d).val) % 65536 = (X + d) % 65536
  rw [hval, Nat.mod_add_mod]

/-- Subtracting a number moves the position back. -/
lemma subInt_seqOf_add (X : ℕ) {d : ℕ} (hd : d < 65536) : subInt (seqOf (X + d)) d = seqOf X := by
  unfold subInt
  split
  · next h =>
    rw [seqOf_val] at h
    exact Fin.ext (by simp only [seqOf_val]; omega)
  · next h =>
    rw [seqOf_val] at h
    exact Fin.ext (by simp only [seqOf_val]; omega)

/-- Subtracting one moves the position back. -/
@[simp] lemma subInt_seqOf_succ (X : ℕ) : subInt (seqOf (X + 1)) 1 = seqOf X :=
  subInt_seqOf_add X (by decide)

section Positions

variable {X Y : ℕ} (hXY : X < Y + 32768) (hYX : Y < X + 32768)
include hXY hYX

/-- On close positions `<` is the order. -/
lemma lt_seqOf : Lt (seqOf X) (seqOf Y) ↔ X < Y := by
  rw [lt_iff_precedes]
  exact SerialNumber.precedes_mod_iff hXY hYX

/-- On close positions `>` is the reverse order. -/
lemma gt_seqOf : Gt (seqOf X) (seqOf Y) ↔ Y < X := lt_seqOf hYX hXY

/-- On close positions `<=` is the order. -/
lemma le_seqOf : Le (seqOf X) (seqOf Y) ↔ X ≤ Y := by
  unfold Le
  rw [gt_seqOf hXY hYX, Nat.not_lt]

end Positions

end SeqNum

end XrceDds
