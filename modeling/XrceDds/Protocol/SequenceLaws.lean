import XrceDds.Agent.SeqNumOperators
import XrceDds.Lib.SerialOrder

/-!
# The sequence arithmetic of both sides

The client compares by `uxr_seq_num_cmp`, which tells apart all numbers that are not the same; the
Agent by `operator <` and three operators derived from it by negation.  Numbers that are half a
turn apart are on different sides of the two: the comparison of the client is then positive both
ways, the Agent's `<` and `>` are both false and its `<=` and `>=` both true.  On everything closer
than that both are one order.
-/

namespace XrceDds

open SerialNumber

/-- The laws of `seq_num.c`. -/
structure ClientSequenceLaws : Prop where
  sub_add : ∀ s d : UxrSeqNum, uxrSeqNumSub (uxrSeqNumAdd s d.val) d = s
  cmp_add : ∀ s d : UxrSeqNum, 0 < d.val → d.val < 32768 →
    uxrSeqNumCmp s (uxrSeqNumAdd s d.val) = -1 ∧ uxrSeqNumCmp (uxrSeqNumAdd s d.val) s = 1
  cmp_translate : ∀ a b t : UxrSeqNum,
    uxrSeqNumCmp (uxrSeqNumAdd a t.val) (uxrSeqNumAdd b t.val) = uxrSeqNumCmp a b
  lt : SerialOrder 32768 fun a b => uxrSeqNumCmp a b < 0
  gt : SerialOrder 32768 fun a b => uxrSeqNumCmp b a > 0
  le : SerialOrder 32768 fun a b => uxrSeqNumCmp a b ≤ 0
  ge : SerialOrder 32768 fun a b => uxrSeqNumCmp b a ≥ 0

/-- The laws of `SeqNum`, where a sum with an `int` outside of `ADD_RANGE` is the number itself. -/
structure AgentSequenceLaws : Prop where
  minus_add : ∀ s d : SeqNum, d.val ≤ 32767 → SeqNum.minus (SeqNum.add s d) d = s
  minusInt_plusInt : ∀ (s : SeqNum) (d : ℤ), 0 ≤ d → d ≤ 32767 →
    SeqNum.minusInt (SeqNum.plusInt s d) d = s
  lt : SerialOrder 32768 SeqNum.Lt
  gt : SerialOrder 32768 fun a b => SeqNum.Gt b a
  le : SerialOrder 32768 SeqNum.Le
  ge : SerialOrder 32768 fun a b => SeqNum.Ge b a
  sums : ∀ (s : SeqNum) (d : ℤ), 0 ≤ d → d ≤ 32767 →
    SeqNum.addAssignInt s d = SeqNum.uint16 (s.val + d) ∧
      SeqNum.plusInt s d = SeqNum.uint16 (s.val + d) ∧
      SeqNum.intPlus d s = SeqNum.uint16 (d + s.val)
  sums_outside : ∀ (s : SeqNum) (d : ℤ), ¬ (0 ≤ d ∧ d ≤ 32767) →
    SeqNum.addAssignInt s d = s ∧ SeqNum.plusInt s d = s ∧ SeqNum.intPlus d s = s
  differences : ∀ (s : SeqNum) (d : ℤ),
    SeqNum.subAssignInt s d = SeqNum.uint16 (s.val - d) ∧
      SeqNum.minusInt s d = SeqNum.uint16 (s.val - d)

/-- Every operator of `SeqNum` on an `int` forms the sum or the difference of its operands, in the
order written. -/
structure IntOperatorsAsWritten (s : SeqNum) (d : ℤ) : Prop where
  plus : SeqNum.plusInt s d = SeqNum.uint16 (s.val + d)
  int_plus : SeqNum.intPlus d s = SeqNum.uint16 (d + s.val)
  minus : SeqNum.minusInt s d = SeqNum.uint16 (s.val - d)
  int_minus : SeqNum.intMinus d s = SeqNum.uint16 (d - s.val)

/-- Sums with an `int` behind `ADD_RANGE` are not formed. -/
theorem not_forall_intOperatorsAsWritten : ¬ ∀ s d, IntOperatorsAsWritten s d :=
  fun h => absurd (h 0 32768).plus (by decide)

/-! ## The two comparisons -/

/-- The sum of the client is that of the circle. -/
lemma uxrSeqNumAdd_eq (s d : UxrSeqNum) : uxrSeqNumAdd s d.val = s + d := rfl

/-- The difference of the client is that of the circle. -/
lemma uxrSeqNumSub_eq (s d : UxrSeqNum) : uxrSeqNumSub s d = s - d := by
  apply Fin.ext
  rw [uxrSeqNumSub_val, Fin.sub_def]
  dsimp only
  omega

/-- The order of `SeqNum` is that of serial numbers. -/
lemma SeqNum.lt_serialOrder : SerialOrder 32768 SeqNum.Lt := by
  refine .of_steps (P := fun d => 0 < d ∧ d < 32768) (fun a b => ?_) (fun d hpos hlt => ⟨hpos, hlt⟩)
    (fun d hpos hlt => by omega)
  rw [SeqNum.lt_iff_seqSteps, ← uxrSeqNumSub_eq_seqSteps, uxrSeqNumSub_eq]

/-- The client and the Agent agree on which number precedes which. -/
theorem uxrSeqNumCmp_neg_iff_lt (a b : UxrSeqNum) : uxrSeqNumCmp a b < 0 ↔ SeqNum.Lt a b :=
  (uxrSeqNumCmp_neg_iff a b).trans (SeqNum.lt_iff_precedes a b).symm

/-- The comparison of the client is not positive of the same numbers too. -/
lemma uxrSeqNumCmp_nonpos_iff (a b : UxrSeqNum) :
    uxrSeqNumCmp a b ≤ 0 ↔ SeqNum.Lt a b ∨ a = b := by
  rw [← uxrSeqNumCmp_neg_iff_lt, ← uxrSeqNumCmp_eq_zero_iff]
  exact le_iff_lt_or_eq

/-- The comparison of the client in terms of the Agent's. -/
lemma uxrSeqNumCmp_eq (a b : UxrSeqNum) :
    uxrSeqNumCmp a b = if a = b then 0 else if SeqNum.Lt a b then -1 else 1 := by
  have hneg := uxrSeqNumCmp_neg_iff_lt a b
  unfold uxrSeqNumCmp at hneg ⊢
  split
  · rfl
  · next hne =>
    rw [if_neg hne] at hneg
    split at hneg <;> simp_all

/-- What is ahead on the client. -/
lemma uxrSeqNumCmp_add (s d : UxrSeqNum) (hpos : 0 < d.val) (hlt : d.val < 32768) :
    uxrSeqNumCmp s (s + d) = -1 ∧ uxrSeqNumCmp (s + d) s = 1 := by
  have hne : s + d ≠ s := fun heq => by simp [add_eq_left.mp heq] at hpos
  obtain ⟨hahead, hbehind⟩ := SeqNum.lt_serialOrder.ahead s d hpos hlt
  rw [uxrSeqNumCmp_eq, uxrSeqNumCmp_eq, if_neg hne.symm, if_neg hne, if_pos hahead, if_neg hbehind]
  exact ⟨rfl, rfl⟩

/-- The comparison of the client is the same anywhere on the circle. -/
lemma uxrSeqNumCmp_translate (a b t : UxrSeqNum) :
    uxrSeqNumCmp (a + t) (b + t) = uxrSeqNumCmp a b := by
  simp only [uxrSeqNumCmp_eq, add_left_inj, SeqNum.lt_serialOrder.translate]

/-! ## The laws -/

/-- The client obeys the laws. -/
lemma clientSequenceLaws : ClientSequenceLaws where
  sub_add s d := by rw [uxrSeqNumAdd_eq, uxrSeqNumSub_eq, add_sub_cancel_right]
  cmp_add := uxrSeqNumCmp_add
  cmp_translate := uxrSeqNumCmp_translate
  lt := SeqNum.lt_serialOrder.congr uxrSeqNumCmp_neg_iff_lt
  gt := SeqNum.lt_serialOrder.or_eq.not_converse.congr fun a b => by
    rw [gt_iff_lt, ← not_le, uxrSeqNumCmp_nonpos_iff]
  le := SeqNum.lt_serialOrder.or_eq.congr uxrSeqNumCmp_nonpos_iff
  ge := SeqNum.lt_serialOrder.not_converse.congr fun a b => by
    rw [ge_iff_le, ← not_lt, uxrSeqNumCmp_neg_iff_lt]

namespace SeqNum

/-- A sum with a number of the range is that of the circle. -/
lemma add_eq (s : SeqNum) {d : SeqNum} (hd : d.val ≤ 32767) : add s d = s + d := by
  have h := add_seqOf s.val hd
  rw [seqOf_self, seqOf_self] at h
  rw [h]
  rfl

/-- Adding an `int` of the range and subtracting it again changes nothing. -/
lemma minusInt_plusInt (s : SeqNum) {d : ℤ} (hnonneg : 0 ≤ d) (hle : d ≤ 32767) :
    minusInt (plusInt s d) d = s := by
  have hsum := (eq_uint16_iff _ _).mp (addAssignInt_of_mem s hnonneg hle)
  unfold minusInt plusInt
  rw [subAssignInt_eq, eq_comm, eq_uint16_iff]
  omega

end SeqNum

/-- The Agent obeys the laws. -/
lemma agentSequenceLaws : AgentSequenceLaws where
  minus_add s d hd := by
    unfold SeqNum.minus
    rw [SeqNum.add_eq s hd, SeqNum.subAssign_eq_sub, add_sub_cancel_right]
  minusInt_plusInt s _ := SeqNum.minusInt_plusInt s
  lt := SeqNum.lt_serialOrder
  gt := SeqNum.lt_serialOrder
  le := SeqNum.lt_serialOrder.not_converse
  ge := SeqNum.lt_serialOrder.not_converse
  sums s d hnonneg hle := by
    have hsum := SeqNum.addAssignInt_of_mem s hnonneg hle
    exact ⟨hsum, hsum, by rw [add_comm]; exact hsum⟩
  sums_outside s d hd := by
    have hsum := SeqNum.addAssignInt_of_not_mem s hd
    exact ⟨hsum, hsum, hsum⟩
  differences s d := ⟨SeqNum.subAssignInt_eq s d, SeqNum.subAssignInt_eq s d⟩

/-- The sequence arithmetic of both sides obeys the laws of serial numbers. -/
theorem sequenceArithmetic_lawful : ClientSequenceLaws ∧ AgentSequenceLaws :=
  ⟨clientSequenceLaws, agentSequenceLaws⟩

end XrceDds
