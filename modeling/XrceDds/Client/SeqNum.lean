import XrceDds.Lib.SerialNumber

/-!
# Sequence numbers of the client

`uxrSeqNumAdd`, `uxrSeqNumSub` and `uxrSeqNumCmp` are the three functions of
`seq_num.c`.  Streams count without bound; `seqOf X` is the 16-bit number that stands
for the position `X` of a stream, and the lemmas of this file evaluate the three
functions on numbers of that form.
-/

namespace XrceDds

/-- `uxrSeqNum`: a 16-bit sequence number. -/
abbrev UxrSeqNum := Fin 65536

/-- There are sequence numbers; literals of their type rest on this one fact. -/
instance (priority := high) instNeZeroUxrSeqNum : NeZero 65536 := ⟨by decide⟩

/-- Zero is a sequence number. -/
lemma seqNumZero_lt : 0 < 65536 := by decide

/-- `SEQ_NUM_MAX` is a sequence number. -/
lemma seqNumMax_lt : 65535 < 65536 := by decide

/-- `SEQ_NUM_MIDSIZE`. -/
def seqNumMidsize : ℕ := 32768

/-- `SEQ_NUM_MAX`. -/
def seqNumMax : UxrSeqNum := ⟨65535, seqNumMax_lt⟩

/-- `uxr_seq_num_add`. -/
def uxrSeqNumAdd (seqNum : UxrSeqNum) (increment : ℕ) : UxrSeqNum :=
  ⟨(seqNum.val + increment) % 65536, Nat.mod_lt _ (by decide)⟩

/-- `uxr_seq_num_sub`. -/
def uxrSeqNumSub (seqNum decrement : UxrSeqNum) : UxrSeqNum :=
  if decrement.val > seqNum.val then
    ⟨(seqNum.val + (65536 - decrement.val)) % 65536, Nat.mod_lt _ (by decide)⟩
  else
    ⟨(seqNum.val - decrement.val) % 65536, Nat.mod_lt _ (by decide)⟩

/-- `uxr_seq_num_cmp`. -/
def uxrSeqNumCmp (seqNum1 seqNum2 : UxrSeqNum) : ℤ :=
  if seqNum1 = seqNum2 then 0
  else if (seqNum1.val < seqNum2.val ∧ seqNum2.val - seqNum1.val < seqNumMidsize) ∨
      (seqNum1.val > seqNum2.val ∧ seqNum1.val - seqNum2.val > seqNumMidsize) then -1
  else 1

/-- The sequence number that stands for the position `X` of a stream. -/
def seqOf (X : ℕ) : UxrSeqNum := ⟨X % 65536, Nat.mod_lt _ (by decide)⟩

/-- The value of a sequence number is the residue of its position. -/
lemma seqOf_val (X : ℕ) : (seqOf X).val = X % 65536 := rfl

/-- Messages are counted from the position behind a whole turn. -/
lemma seqOf_turn_add (n : ℕ) : seqOf (65536 + n) = seqOf n :=
  Fin.ext (by simp only [seqOf_val, Nat.add_mod_left])

/-- The position of a message, counted from that of `SEQ_NUM_MAX`. -/
lemma seqOf_pred_turn (n : ℕ) : seqOf (65535 + (n + 1)) = seqOf n := by
  rw [← Nat.add_assoc, Nat.add_right_comm, seqOf_turn_add]

/-- Every sequence number stands for its own value. -/
@[simp] lemma seqOf_self (s : UxrSeqNum) : seqOf s.val = s :=
  Fin.ext (Nat.mod_eq_of_lt s.isLt)

/-- The largest sequence number stands for the position before a whole turn. -/
lemma seqNumMax_eq : seqNumMax = seqOf 65535 := Fin.ext (by simp [seqNumMax, seqOf])

/-- Adding to a sequence number moves its position. -/
@[simp] theorem uxrSeqNumAdd_seqOf (X n : ℕ) : uxrSeqNumAdd (seqOf X) n = seqOf (X + n) :=
  Fin.ext (by simp [uxrSeqNumAdd, seqOf])

/-- Subtraction counts the steps between two positions less than a turn apart. -/
theorem uxrSeqNumSub_seqOf_val {X d : ℕ} (hd : d < 65536) :
    (uxrSeqNumSub (seqOf (X + d)) (seqOf X)).val = d := by
  unfold uxrSeqNumSub
  split <;> next h => simp only [seqOf_val] at h ⊢; omega

/-- Subtraction is the circular difference. -/
theorem uxrSeqNumSub_val (a b : UxrSeqNum) :
    (uxrSeqNumSub a b).val = (a.val + 65536 - b.val) % 65536 := by
  unfold uxrSeqNumSub
  split <;> dsimp only <;> omega

/-- Subtracting one steps back. -/
theorem uxrSeqNumSub_one (X : ℕ) : uxrSeqNumSub (seqOf (X + 1)) 1 = seqOf X := by
  apply Fin.ext
  rw [uxrSeqNumSub_val]
  simp only [seqOf_val, show ((1 : UxrSeqNum) : ℕ) = 1 from rfl]
  omega

/-- The comparison is negative exactly when its first argument precedes its second. -/
lemma uxrSeqNumCmp_neg_iff (a b : UxrSeqNum) :
    0 > uxrSeqNumCmp a b ↔ SerialNumber.Precedes 32768 a.val b.val := by
  unfold uxrSeqNumCmp SerialNumber.Precedes seqNumMidsize
  rcases eq_or_ne a b with rfl | hne
  · simp
  · have hval : a.val ≠ b.val := fun h => hne (Fin.ext h)
    rw [if_neg hne]
    split <;> simp <;> omega

/-- The comparison is zero exactly on equal numbers. -/
lemma uxrSeqNumCmp_eq_zero_iff (a b : UxrSeqNum) : uxrSeqNumCmp a b = 0 ↔ a = b := by
  unfold uxrSeqNumCmp
  split
  · simpa
  · next h => split <;> simpa using h

section Positions

variable {X Y : ℕ} (hXY : X < Y + 32768) (hYX : Y < X + 32768)
include hXY hYX

/-- Numbers of close positions are equal only if the positions are. -/
lemma seqOf_eq_iff : seqOf X = seqOf Y ↔ X = Y := by
  rw [Fin.ext_iff]
  exact SerialNumber.mod_eq_mod_iff (by omega) (by omega)

/-- On close positions a negative comparison is the strict order. -/
theorem uxrSeqNumCmp_seqOf_neg : 0 > uxrSeqNumCmp (seqOf X) (seqOf Y) ↔ X < Y := by
  rw [uxrSeqNumCmp_neg_iff]
  exact SerialNumber.precedes_mod_iff hXY hYX

/-- On close positions a comparison that is not positive is the order. -/
theorem uxrSeqNumCmp_seqOf_nonpos : 0 ≥ uxrSeqNumCmp (seqOf X) (seqOf Y) ↔ X ≤ Y := by
  have hneg := uxrSeqNumCmp_seqOf_neg hXY hYX
  have hzero := (uxrSeqNumCmp_eq_zero_iff (seqOf X) (seqOf Y)).trans (seqOf_eq_iff hXY hYX)
  omega

/-- On close positions a comparison that is not negative is the reverse order. -/
theorem uxrSeqNumCmp_seqOf_nonneg : 0 ≤ uxrSeqNumCmp (seqOf X) (seqOf Y) ↔ Y ≤ X := by
  have hneg := uxrSeqNumCmp_seqOf_neg hXY hYX
  omega

end Positions

/-- A comparison that is not positive excludes that the first position is slightly ahead. -/
theorem le_of_uxrSeqNumCmp_nonpos {X Y : ℕ} (h : 0 ≥ uxrSeqNumCmp (seqOf X) (seqOf Y))
    (hXY : X < Y + 32768) : X ≤ Y := by
  by_contra hlt
  have hneg := uxrSeqNumCmp_seqOf_neg (X := Y) (Y := X) (by omega) hXY
  have hflip : ¬ X < Y := by omega
  have := (uxrSeqNumCmp_seqOf_nonpos (X := X) (Y := Y) hXY (by omega)).mp h
  omega

/-! ## Circular intervals -/

/-- The number of steps that lead from `a` up to `x`.  The numbers of the circular interval
`(a, b]` are those `x` with `0 < seqSteps a x ≤ seqSteps a b`. -/
def seqSteps (a x : UxrSeqNum) : ℕ := SerialNumber.stepsUp 65536 a.val x.val

/-- Steps are counted in positions. -/
lemma seqSteps_seqOf (X : ℕ) {d : ℕ} (hd : d < 65536) : seqSteps (seqOf X) (seqOf (X + d)) = d :=
  SerialNumber.stepsUp_mod_add X hd

/-- Steps are counted modulo a turn. -/
lemma seqSteps_seqOf_mod (X d : ℕ) : seqSteps (seqOf X) (seqOf (X + d)) = d % 65536 := by
  have hturn : seqOf (X + d) = seqOf (X + d % 65536) :=
    Fin.ext (by simp only [seqOf_val]; omega)
  rw [hturn, seqSteps_seqOf X (Nat.mod_lt _ (by decide))]

/-- Every number is reached by the steps that lead up to it. -/
lemma seqOf_add_seqSteps (X : ℕ) (x : UxrSeqNum) : seqOf (X + seqSteps (seqOf X) x) = x := by
  apply Fin.ext
  rw [seqOf_val, Nat.add_mod]
  have h := SerialNumber.mod_add_stepsUp (M := 65536) (a := X % 65536) (Nat.mod_lt _ (by decide))
    x.isLt
  rw [Nat.add_mod, Nat.mod_mod] at h
  exact h

/-- The number of steps is less than one turn. -/
lemma seqSteps_lt (a x : UxrSeqNum) : seqSteps a x < 65536 :=
  SerialNumber.stepsUp_lt (by decide) _ _

/-- Subtraction counts steps. -/
lemma uxrSeqNumSub_eq_seqSteps (a x : UxrSeqNum) : (uxrSeqNumSub x a).val = seqSteps a x :=
  uxrSeqNumSub_val x a

end XrceDds
