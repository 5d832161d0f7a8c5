import Mathlib.Data.Fin.Basic
import Mathlib.Tactic.Ring

/-!
# Serial number arithmetic

Counters that only grow are sent over the wire modulo `2 * k` and compared on the
circle: `a` precedes `b` when fewer than `k` steps lead from `a` up to `b`.  This file
relates that comparison to the order of the unbounded positions the counters stand
for: as long as two positions are less than `k` apart, comparing their residues is
comparing the positions (`precedes_mod_iff`).

`stepsUp` counts the steps from one residue up to another.  A circular interval is
described by it: `x` lies in `[a, b]` when `stepsUp a x ≤ stepsUp a b`.
-/

namespace SerialNumber

/-- On the circle of `2 * k` numbers, `a` precedes `b` when `b` is met within fewer than
`k` steps up from `a`. -/
def Precedes (k a b : ℕ) : Prop :=
  a ≠ b ∧ ((a < b ∧ b - a < k) ∨ (b < a ∧ k < a - b))

instance (k a b : ℕ) : Decidable (Precedes k a b) := by
  unfold Precedes; infer_instance

/-- The residue of a position moved up by less than one turn. -/
lemma add_mod_eq_ite {M : ℕ} (X : ℕ) {d : ℕ} (hd : d < M) :
    (X + d) % M = if X % M + d < M then X % M + d else X % M + d - M := by
  have hX : X % M < M := Nat.mod_lt _ (by omega)
  rw [Nat.add_mod, Nat.mod_eq_of_lt hd]
  split
  · next h => exact Nat.mod_eq_of_lt h
  · next h =>
    rw [Nat.mod_eq_sub_mod (by omega)]
    exact Nat.mod_eq_of_lt (by omega)

/-- Residues of positions less than `k` apart compare like the positions. -/
theorem precedes_mod_iff {k X Y : ℕ} (hXY : X < Y + k) (hYX : Y < X + k) :
    Precedes k (X % (2 * k)) (Y % (2 * k)) ↔ X < Y := by
  have hX : X % (2 * k) < 2 * k := Nat.mod_lt _ (by omega)
  have hY : Y % (2 * k) < 2 * k := Nat.mod_lt _ (by omega)
  unfold Precedes
  rcases Nat.le_total X Y with h | h
  · obtain ⟨d, rfl⟩ := Nat.exists_eq_add_of_le h
    rw [add_mod_eq_ite X (show d < 2 * k by omega)]
    split <;> omega
  · obtain ⟨d, rfl⟩ := Nat.exists_eq_add_of_le h
    rw [add_mod_eq_ite Y (show d < 2 * k by omega)]
    split <;> omega

/-- Residues of positions less than one turn apart are equal only if the positions are. -/
theorem mod_eq_mod_iff {M X Y : ℕ} (hXY : X < Y + M) (hYX : Y < X + M) :
    X % M = Y % M ↔ X = Y := by
  have hX : X % M < M := Nat.mod_lt _ (by omega)
  have hY : Y % M < M := Nat.mod_lt _ (by omega)
  rcases Nat.le_total X Y with h | h
  · obtain ⟨d, rfl⟩ := Nat.exists_eq_add_of_le h
    rw [add_mod_eq_ite X (show d < M by omega)]
    split <;> omega
  · obtain ⟨d, rfl⟩ := Nat.exists_eq_add_of_le h
    rw [add_mod_eq_ite Y (show d < M by omega)]
    split <;> omega

/-- The number of steps that lead from `a` up to `x` on the circle of `M` numbers. -/
def stepsUp (M a x : ℕ) : ℕ := (x + M - a) % M

/-- Walking `d < M` steps up from the residue of a position takes `d` steps. -/
theorem stepsUp_mod_add {M : ℕ} (X : ℕ) {d : ℕ} (hd : d < M) :
    stepsUp M (X % M) ((X + d) % M) = d := by
  have hX : X % M < M := Nat.mod_lt _ (by omega)
  unfold stepsUp
  rw [add_mod_eq_ite X hd]
  split
  · next h =>
    rw [show X % M + d + M - X % M = d + M by omega, Nat.add_mod_right]
    exact Nat.mod_eq_of_lt hd
  · next h =>
    rw [show X % M + d - M + M - X % M = d by omega]
    exact Nat.mod_eq_of_lt hd

/-- Every residue is reached by the steps that lead up to it. -/
theorem mod_add_stepsUp {M a x : ℕ} (ha : a < M) (hx : x < M) :
    (a + stepsUp M a x) % M = x := by
  unfold stepsUp
  rw [Nat.add_mod_mod, show a + (x + M - a) = x + M by omega, Nat.add_mod_right]
  exact Nat.mod_eq_of_lt hx

/-- The number of steps between two numbers of the circle is less than one turn. -/
theorem stepsUp_lt {M : ℕ} (hM : 0 < M) (a x : ℕ) : stepsUp M a x < M := Nat.mod_lt _ hM

/-- One number precedes another when the steps up to it are less than half a turn. -/
theorem precedes_iff_stepsUp {k a b : ℕ} (ha : a < 2 * k) (hb : b < 2 * k) :
    Precedes k a b ↔ 0 < stepsUp (2 * k) a b ∧ stepsUp (2 * k) a b < k := by
  unfold Precedes stepsUp
  rcases Nat.lt_or_ge b a with h | h
  · rw [Nat.mod_eq_of_lt (show b + 2 * k - a < 2 * k by omega)]
    omega
  · rw [show b + 2 * k - a = b - a + 2 * k by omega, Nat.add_mod_right,
      Nat.mod_eq_of_lt (show b - a < 2 * k by omega)]
    omega

end SerialNumber
