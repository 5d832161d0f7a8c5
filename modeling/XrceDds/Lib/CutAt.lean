import Mathlib.Data.List.Infix

/-!
# Cutting a list at a pattern

`cutAt pattern l` is what stands before the first occurrence of `pattern` in `l`, and all of `l`
where there is none.  Two patterns of which none begins the other never cut at the same place,
and a pattern that cannot overlap with itself can be appended without moving the cut.
-/

namespace CutAt

variable {α : Type} {pattern other l : List α}

/-- What continues the same list begins the one the other. -/
lemma prefixes_comparable {c p q : List α} (hp : c ++ p <+: l) (hq : c ++ q <+: l) :
    p <+: q ∨ q <+: p :=
  (List.prefix_or_prefix_of_prefix hp hq).imp (List.prefix_append_right_inj c).mp
    (List.prefix_append_right_inj c).mp

variable [DecidableEq α]

/-- The part of a list before the first occurrence of a pattern. -/
def cutAt (pattern : List α) : List α → List α
  | [] => []
  | x :: xs => if pattern <+: x :: xs then [] else x :: cutAt pattern xs

/-- The part before a cut begins the list. -/
lemma prefix_cutAt (pattern l : List α) : cutAt pattern l <+: l := by
  induction l with
  | nil => exact List.prefix_rfl
  | cons x xs ih =>
    unfold cutAt
    split
    · exact List.nil_prefix
    · exact (List.prefix_cons_inj x).mpr ih

/-- Where a list is cut, the pattern stands. -/
lemma prefix_of_cutAt_ne (h : cutAt pattern l ≠ l) : cutAt pattern l ++ pattern <+: l := by
  induction l with
  | nil => exact absurd rfl h
  | cons x xs ih =>
    unfold cutAt at h ⊢
    split at h
    · next hhere =>
      rw [if_pos hhere]
      exact hhere
    · next hlater =>
      rw [if_neg hlater, List.cons_append]
      exact (List.prefix_cons_inj x).mpr (ih fun heq => h (by rw [heq]))

/-- A list without the pattern is not cut. -/
lemma cutAt_eq_self_iff (hpattern : pattern ≠ []) : cutAt pattern l = l ↔ ¬ pattern <:+: l := by
  induction l with
  | nil =>
    refine iff_of_true rfl fun h => hpattern (List.infix_nil.mp h)
  | cons x xs ih =>
    unfold cutAt
    rw [List.infix_cons_iff]
    split
    · next hhere => exact iff_of_false (fun h => by cases h) (fun h => h (.inl hhere))
    · next hlater =>
      rw [List.cons.injEq, ih]
      simp [hlater]

/-- Appending a pattern that does not overlap with itself does not move the cut. -/
lemma cutAt_append_self (hself : ∀ x xs, pattern <+: x :: xs ++ pattern → pattern <+: x :: xs)
    (hpattern : pattern ≠ []) (l : List α) : cutAt pattern (l ++ pattern) = cutAt pattern l := by
  induction l with
  | nil =>
    obtain ⟨x, xs, rfl⟩ := List.exists_cons_of_ne_nil hpattern
    exact if_pos List.prefix_rfl
  | cons x xs ih =>
    have hiff : pattern <+: x :: (xs ++ pattern) ↔ pattern <+: x :: xs :=
      ⟨hself x xs, fun h => h.trans (List.prefix_append (x :: xs) pattern)⟩
    rw [List.cons_append, cutAt, cutAt]
    simp only [hiff, ih]

/-- Two patterns of which none begins the other cut at the same place only when both do not. -/
lemma cutAt_eq_cutAt (hp : ¬ pattern <+: other) (hq : ¬ other <+: pattern)
    (h : cutAt pattern l = cutAt other l) : cutAt pattern l = l := by
  by_contra hcut
  have hpattern := prefix_of_cutAt_ne hcut
  have hother := prefix_of_cutAt_ne (fun heq => hcut (h.trans heq))
  rw [← h] at hother
  exact (prefixes_comparable hpattern hother).elim hp hq

end CutAt
