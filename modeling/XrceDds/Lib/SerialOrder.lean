import Mathlib.Algebra.Group.Fin.Basic
import Mathlib.Algebra.GroupWithZero.Nat

/-!
# Orders of serial numbers

A circle has no order, but numbers on it that lie in a window of `k` consecutive ones have: the one
that is met first, walking up from the start of the window.  A relation on the circle that puts `s`
before `s + d` and not behind it, for `0 < d < k`, is this order on every such window
(`rel_iff_lt`).  Nothing else about the relation matters, neither what it says of a number and
itself nor what it says of numbers that are `k` or more apart; so the strict order, its reflexive
closure and the negations of their converses, which differ there, all obey the same laws.
-/

namespace SerialNumber

variable {M k : ℕ} [NeZero M] {R R' : Fin M → Fin M → Prop} {w a b c : Fin M}

/-- The number `a` is one of the `k` numbers from `w` up. -/
def InWindow (k : ℕ) (w a : Fin M) : Prop := (a - w).val < k

/-- The relation puts what is fewer than `k` steps ahead behind what it is ahead of. -/
def Ahead (k : ℕ) (R : Fin M → Fin M → Prop) : Prop :=
  ∀ s d : Fin M, 0 < d.val → d.val < k → R s (s + d) ∧ ¬ R (s + d) s

/-- The laws of an order of serial numbers on the circle of `M` numbers. -/
structure SerialOrder (k : ℕ) (R : Fin M → Fin M → Prop) : Prop where
  ahead : Ahead k R
  translate : ∀ a b t : Fin M, R (a + t) (b + t) ↔ R a b
  trans : ∀ w a b c : Fin M, InWindow k w a → InWindow k w b → InWindow k w c →
    R a b → R b c → R a c

/-- The number that is met first is before the one that is met later. -/
lemma Ahead.rel_of_lt (h : Ahead k R) (hb : InWindow k w b) (hab : (a - w).val < (b - w).val) :
    R a b ∧ ¬ R b a := by
  have hval : (b - a).val = (b - w).val - (a - w).val := by
    have hle : a - w ≤ b - w := Fin.le_def.mpr (Nat.le_of_lt hab)
    rw [← Fin.sub_val_of_le hle, sub_sub_sub_cancel_right]
  have hwindow : (b - w).val < k := hb
  have hstep := h a (b - a) (by omega) (by omega)
  rwa [add_sub_cancel] at hstep

/-- On different numbers of a window the relation is the order of the window. -/
theorem Ahead.rel_iff_lt (h : Ahead k R) (ha : InWindow k w a) (hb : InWindow k w b)
    (hne : a ≠ b) : R a b ↔ (a - w).val < (b - w).val := by
  have hval : (a - w).val ≠ (b - w).val := fun heq => hne (sub_left_injective (Fin.ext heq))
  rcases Nat.lt_or_gt_of_ne hval with hlt | hlt
  · exact ⟨fun _ => hlt, fun _ => (h.rel_of_lt hb hlt).1⟩
  · exact ⟨fun hR => absurd hR (h.rel_of_lt ha hlt).2, fun hgt => absurd hgt (by omega)⟩

/-- Within a window the relation is transitive. -/
lemma Ahead.trans (h : Ahead k R) (ha : InWindow k w a) (hb : InWindow k w b)
    (hc : InWindow k w c) (hab : R a b) (hbc : R b c) : R a c := by
  rcases eq_or_ne a b with rfl | hne
  · exact hbc
  rcases eq_or_ne b c with rfl | hne'
  · exact hab
  have hlt := (h.rel_iff_lt ha hb hne).mp hab
  have hlt' := (h.rel_iff_lt hb hc hne').mp hbc
  exact (h.rel_of_lt hc (by omega)).1

namespace SerialOrder

/-- The laws follow from the steps ahead and the translations. -/
lemma of_ahead (hahead : Ahead k R) (htranslate : ∀ a b t : Fin M, R (a + t) (b + t) ↔ R a b) :
    SerialOrder k R where
  ahead := hahead
  translate := htranslate
  trans _ _ _ _ := hahead.trans

/-- A relation that is decided by the steps that lead up, true of fewer than `k` steps and false
of fewer than `k` steps that are left to a whole turn. -/
theorem of_steps {P : ℕ → Prop} (hR : ∀ a b, R a b ↔ P (b - a).val)
    (hahead : ∀ d, 0 < d → d < k → P d) (hbehind : ∀ d, 0 < d → d < k → ¬ P (M - d)) :
    SerialOrder k R := by
  refine of_ahead (fun s d hpos hlt => ⟨?_, ?_⟩) (fun a b t => ?_)
  · rw [hR, add_sub_cancel_left]
    exact hahead _ hpos hlt
  · have hne : d ≠ 0 := fun hzero => by simp [hzero] at hpos
    rw [hR, sub_add_cancel_left, Fin.val_neg, if_neg hne]
    exact hbehind _ hpos hlt
  · rw [hR, hR, add_sub_add_right_eq_sub]

omit [NeZero M] in
/-- Equivalent relations obey the same laws. -/
lemma congr (h : SerialOrder k R) (hR : ∀ a b, R' a b ↔ R a b) : SerialOrder k R' := by
  have heq : R' = R := funext fun a => funext fun b => propext (hR a b)
  exact heq ▸ h

/-- What is not before in the other direction. -/
theorem not_converse (h : SerialOrder k R) : SerialOrder k fun a b => ¬ R b a := by
  refine of_ahead (fun s d hpos hlt => ?_) (fun a b t => not_congr (h.translate b a t))
  have hstep := h.ahead s d hpos hlt
  exact ⟨hstep.2, not_not_intro hstep.1⟩

/-- The reflexive closure. -/
theorem or_eq (h : SerialOrder k R) : SerialOrder k fun a b => R a b ∨ a = b := by
  refine of_ahead (fun s d hpos hlt => ?_) (fun a b t => ?_)
  · have hstep := h.ahead s d hpos hlt
    have hne : s + d ≠ s := fun heq => by simp [add_eq_left.mp heq] at hpos
    exact ⟨.inl hstep.1, not_or.mpr ⟨hstep.2, hne⟩⟩
  · rw [h.translate, add_left_inj]

end SerialOrder

end SerialNumber
