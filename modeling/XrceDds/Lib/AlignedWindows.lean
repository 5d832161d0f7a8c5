import XrceDds.Lib.AlignedCodec

/-!
# Aligned writing over several windows

Numbers are written one behind the other to a row of windows.  A number of `n` bytes stands in one
window, at a multiple of `n` that is counted from the beginning of that window; where it does not
fit behind the others, it goes to the beginning of the next window.  So the padding before a number
depends on where the windows end.

`numbers_of_aligned` says that it does not when all windows but the last end at multiples of what is
written: then the numbers take what they would take in a single window.
-/

namespace AlignedWindows

open AlignedCodec

/-- Where a row of windows is written to: how far behind the beginning of a window, how much of it
is left, and the sizes of the windows behind. -/
@[ext] structure Standing where
  place : ℕ
  room : ℕ
  windows : List ℕ
  deriving DecidableEq, Repr

/-- The bytes that numbers take from a place on in a single window. -/
def extent : ℕ → List ℕ → ℕ
  | _, [] => 0
  | p, n :: ns => Layout.gap n p + n + extent (p + (Layout.gap n p + n)) ns

/-- All windows but the last end at multiples of `m`, when the first one ends at `p`. -/
def EndsAligned (m : ℕ) : ℕ → List ℕ → Prop
  | _, [] => True
  | p, w :: ws => m ∣ p ∧ 0 < w ∧ EndsAligned m w ws

instance (m p : ℕ) (ws : List ℕ) : Decidable (EndsAligned m p ws) := by
  induction ws generalizing p with
  | nil => exact isTrue trivial
  | cons w ws ih => exact inferInstanceAs (Decidable (m ∣ p ∧ 0 < w ∧ EndsAligned m w ws))

namespace Standing

/-- The bytes that are left in all windows. -/
def left (s : Standing) : ℕ := s.room + s.windows.sum

/-- The next multiple of `n`, or the end of the window. -/
def align (s : Standing) (n : ℕ) : Standing where
  place := s.place + Layout.gap n s.place
  room := s.room - Layout.gap n s.place
  windows := s.windows

/-- A number of `n` bytes. -/
def number (s : Standing) (n : ℕ) : Option Standing :=
  if Layout.gap n s.place + n ≤ s.room then
    some ⟨s.place + (Layout.gap n s.place + n), s.room - (Layout.gap n s.place + n), s.windows⟩
  else
    match s.windows with
    | [] => none
    | w :: ws => if n ≤ w then some ⟨n, w - n, ws⟩ else none

/-- Numbers of these sizes, one behind the other. -/
def numbers (s : Standing) : List ℕ → Option Standing
  | [] => some s
  | n :: ns => (s.number n).bind fun t => t.numbers ns

variable {s t : Standing} {n m : ℕ} {ns ks : List ℕ}

/-- One number. -/
lemma numbers_singleton (s : Standing) (n : ℕ) : s.numbers [n] = s.number n :=
  Option.bind_fun_some (s.number n)

/-- Numbers behind other numbers. -/
lemma numbers_append (s : Standing) (ns ks : List ℕ) :
    s.numbers (ns ++ ks) = (s.numbers ns).bind fun t => t.numbers ks := by
  induction ns generalizing s with
  | nil => rfl
  | cons n ns ih =>
    simp only [List.cons_append, numbers, Option.bind_assoc]
    congr 1
    funext t
    exact ih t

/-- Where there is room a number takes its padding and itself. -/
lemma number_of_room (h : Layout.gap n s.place + n ≤ s.room) :
    s.number n =
      some ⟨s.place + (Layout.gap n s.place + n), s.room - (Layout.gap n s.place + n),
        s.windows⟩ :=
  if_pos h

/-- A byte needs no padding. -/
lemma number_one_of_room (h : 0 < s.room) :
    s.number 1 = some ⟨s.place + 1, s.room - 1, s.windows⟩ := by
  have hgap : Layout.gap 1 s.place = 0 := Nat.mod_one _
  rw [number_of_room (by rw [hgap]; exact h), hgap, Nat.zero_add]

/-- A byte behind a window that is full goes to the next one. -/
lemma number_one_of_full {w : ℕ} {ws : List ℕ} (hfull : s.room = 0) (hwindows : s.windows = w :: ws)
    (hw : 0 < w) : s.number 1 = some ⟨1, w - 1, ws⟩ := by
  unfold number
  rw [if_neg (by omega), hwindows]
  exact if_pos hw

/-- A byte behind the last window does not fit. -/
lemma number_of_nil (hfull : s.room < n) (hwindows : s.windows = []) : s.number n = none := by
  unfold number
  rw [if_neg (by omega), hwindows]

/-- A number takes at least its own bytes. -/
lemma left_number (h : s.number n = some t) : t.left + n ≤ s.left := by
  unfold number at h
  unfold left
  split at h
  · next hroom =>
    rw [← Option.some.inj h]
    dsimp only
    omega
  · split at h
    · cases h
    · next w ws hwindows =>
      split at h
      · next hle =>
        rw [← Option.some.inj h, hwindows, List.sum_cons]
        dsimp only
        omega
      · cases h

/-- Numbers take at least their own bytes. -/
lemma left_numbers (h : s.numbers ns = some t) : t.left + ns.sum ≤ s.left := by
  induction ns generalizing s with
  | nil =>
    rw [← Option.some.inj h, List.sum_nil]
    exact Nat.le_refl _
  | cons n ns ih =>
    obtain ⟨s', hs', ht⟩ := Option.bind_eq_some_iff.mp h
    have hfirst := left_number hs'
    have hrest := ih ht
    rw [List.sum_cons]
    omega

/-- Bytes are written alike wherever the window begins. -/
lemma left_numbers_bytes (s : Standing) (p k : ℕ) :
    (({ s with place := p } : Standing).numbers (List.replicate k 1)).map left =
      (s.numbers (List.replicate k 1)).map left := by
  induction k generalizing s p with
  | zero => rfl
  | succ k ih =>
    rw [List.replicate_succ, numbers, numbers]
    rcases Nat.eq_zero_or_pos s.room with hzero | hroom
    · have hnumber : ({ s with place := p } : Standing).number 1 = s.number 1 := by
        rw [number, number, Layout.gap, Layout.gap, Nat.mod_one, Nat.mod_one, hzero]
        rfl
      rw [hnumber]
    · rw [number_one_of_room hroom, number_one_of_room (s := { s with place := p }) hroom]
      exact ih ⟨s.place + 1, s.room - 1, s.windows⟩ (p + 1)

end Standing

/-! ## Windows that end at multiples -/

/-- The padding before a number depends on the place up to multiples. -/
lemma gap_congr {n m p q : ℕ} (hn : n ∣ m) (h : p % m = q % m) :
    Layout.gap n p = Layout.gap n q := by
  unfold Layout.gap
  rw [← Nat.mod_mod_of_dvd p hn, h, Nat.mod_mod_of_dvd q hn]

/-- So do the bytes that numbers take. -/
lemma extent_congr {m p q : ℕ} {ns : List ℕ} (hns : ∀ n ∈ ns, n ∣ m) (h : p % m = q % m) :
    extent p ns = extent q ns := by
  induction ns generalizing p q with
  | nil => rfl
  | cons n ns ih =>
    rw [List.forall_mem_cons] at hns
    rw [extent, extent, gap_congr hns.1 h]
    congr 1
    apply ih hns.2
    rw [Nat.add_mod, h, ← Nat.add_mod]

/-- Bytes need no padding. -/
lemma extent_bytes (p k : ℕ) (ns : List ℕ) :
    extent p (List.replicate k 1 ++ ns) = k + extent (p + k) ns := by
  induction k generalizing p with
  | zero => simp
  | succ k ih =>
    have hgap : Layout.gap 1 p = 0 := Nat.mod_one _
    rw [List.replicate_succ, List.cons_append, extent, ih, hgap, Nat.zero_add,
      Nat.add_assoc p 1 k, Nat.add_comm 1 k, Nat.add_comm 1 (k + _), Nat.add_right_comm]

/-- A window that ends at a multiple and has no room for a number behind its padding ends where the
padding does. -/
lemma room_eq_gap {p room n : ℕ} (hn : 0 < n) (hend : n ∣ p + room)
    (hfull : room < Layout.gap n p + n) : room = Layout.gap n p := by
  obtain ⟨a, ha⟩ := hend
  obtain ⟨b, hb⟩ := Layout.dvd_add_gap hn p
  have hgap : Layout.gap n p < n := Nat.mod_lt _ hn
  have hlt : n * a < n * (b + 1) := by
    rw [Nat.mul_succ, ← ha, ← hb]
    omega
  have hle : n * b < n * (a + 1) := by
    rw [Nat.mul_succ, ← ha, ← hb]
    omega
  have hab : a = b := Nat.le_antisymm (Nat.lt_succ_iff.mp (Nat.lt_of_mul_lt_mul_left hlt))
    (Nat.lt_succ_iff.mp (Nat.lt_of_mul_lt_mul_left hle))
  rw [hab] at ha
  omega

/-- In windows that end at multiples numbers take what they take in a single window, where there is
as much left; otherwise they do not fit. -/
theorem numbers_of_aligned {s : Standing} {m : ℕ} {ns : List ℕ}
    (hs : EndsAligned m (s.place + s.room) s.windows) (hns : ∀ n ∈ ns, 0 < n ∧ n ∣ m) :
    (extent s.place ns ≤ s.left →
        ∃ t, s.numbers ns = some t ∧ s.left = t.left + extent s.place ns) ∧
      (s.left < extent s.place ns → s.numbers ns = none) := by
  induction ns generalizing s with
  | nil => exact ⟨fun _ => ⟨s, rfl, rfl⟩, fun h => absurd h (Nat.not_lt_zero _)⟩
  | cons n ns ih =>
    rw [List.forall_mem_cons] at hns
    obtain ⟨⟨hpos, hdvd⟩, hns⟩ := hns
    -- the numbers behind the first one
    suffices h : (∃ t, s.number n = some t ∧ EndsAligned m (t.place + t.room) t.windows ∧
        s.left = t.left + (Layout.gap n s.place + n) ∧
        extent t.place ns = extent (s.place + (Layout.gap n s.place + n)) ns) ∨
        (s.number n = none ∧ s.left < Layout.gap n s.place + n) by
      rw [Standing.numbers, extent]
      rcases h with ⟨t, ht, haligned, hleft, hextent⟩ | ⟨hnone, hleft⟩
      · obtain ⟨hfits, hfull⟩ := ih haligned hns
        rw [hextent] at hfits hfull
        rw [ht, Option.bind_some]
        refine ⟨fun hle => ?_, fun hlt => hfull (by omega)⟩
        obtain ⟨u, hu, hrest⟩ := hfits (by omega)
        exact ⟨u, hu, by omega⟩
      · rw [hnone, Option.bind_none]
        exact ⟨fun hle => absurd hleft (by omega), fun _ => rfl⟩
    by_cases hroom : Layout.gap n s.place + n ≤ s.room
    · refine .inl ⟨_, Standing.number_of_room hroom, ?_, ?_, rfl⟩
      · rwa [show s.place + (Layout.gap n s.place + n) +
          (s.room - (Layout.gap n s.place + n)) = s.place + s.room by omega]
      · unfold Standing.left
        dsimp only
        omega
    · unfold Standing.number
      rw [if_neg hroom]
      unfold Standing.left
      rcases hwindows : s.windows with - | ⟨w, ws⟩
      · exact .inr ⟨rfl, by simpa using Nat.lt_of_not_le hroom⟩
      · -- the window ends where the padding does
        rw [hwindows] at hs
        obtain ⟨hend, hw, hws⟩ := hs
        have hgap := room_eq_gap hpos (hdvd.trans hend) (Nat.lt_of_not_le hroom)
        dsimp only
        rw [List.sum_cons]
        by_cases hle : n ≤ w
        · rw [if_pos hle]
          refine .inl ⟨_, rfl, ?_, ?_, ?_⟩
          · rwa [show n + (w - n) = w by omega]
          · dsimp only
            omega
          · apply extent_congr fun k hk => (hns k hk).2
            rw [← Nat.add_assoc, ← hgap, Nat.add_mod, Nat.mod_eq_zero_of_dvd hend, Nat.zero_add,
              Nat.mod_mod]
        · rw [if_neg hle]
          refine .inr ⟨rfl, ?_⟩
          rcases ws with - | ⟨v, vs⟩
          · rw [List.sum_nil]
            omega
          · exact absurd (Nat.le_of_dvd hw (hdvd.trans hws.1)) hle

end AlignedWindows
