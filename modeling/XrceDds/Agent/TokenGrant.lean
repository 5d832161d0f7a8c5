import XrceDds.Agent.TokenBucket

/-!
# When the token bucket grants, and how long it waits

A call should grant what the bucket holds by the end of its timeout, at the first millisecond at
which it does (`GrantsRightly`).  `consume_tokens` waits for the smaller of the timeout and of a
quotient whose numerator has wrapped.  `consumeTokens_grantsRightly_iff` says exactly when this
is right: whenever the tokens are there at once, and otherwise, as the quotient is longer than
any timeout for most rates, when they are not there before the timeout ends.
-/

namespace XrceDds

namespace TokenBucket

/-- The tokens that the bucket held, and what the rate has yielded until `t`. -/
def refilled (bucket : TokenBucket) (t : ℤ) : ℕ :=
  bucket.tokens + bucket.rate * (millis (t - bucket.timestamp)).toNat / 1000

/-- The tokens that are available at the time `t`. -/
def available (bucket : TokenBucket) (t : ℤ) : ℕ := min bucket.capacity (bucket.refilled t)

/-- The time `w` milliseconds after the call. -/
def Call.instant (c : Call) (w : ℤ) : ℤ := c.now + 1000000 * w

/-- A call is granted when there are tokens enough by the end of its timeout, and returns at the
first millisecond at which there are.  Otherwise it returns when the timeout ends, and the
bucket is as it was. -/
structure GrantsRightly (bucket : TokenBucket) (c : Call) (r : Consumed) : Prop where
  rv_iff : r.rv = true ↔ c.requiredTokens ≤ bucket.available (c.instant c.timeout)
  granted_at : r.rv = true → ∃ w : ℕ, r.returned = c.instant w ∧
    c.requiredTokens ≤ bucket.available (c.instant w) ∧
    ∀ w' < w, bucket.available (c.instant w') < c.requiredTokens
  refused_at : r.rv = false → r.returned = c.instant c.timeout
  refused_bucket : r.rv = false → r.bucket = bucket

/-- The milliseconds that a call sleeps which does not find tokens enough. -/
def sleep (bucket : TokenBucket) (c : Call) : ℤ := min (bucket.wait c.requiredTokens) c.timeout

/-- When the time that a call sleeps is the right one.  More than the capacity is refused at
once; what is there is granted at once.  With a rate of one the time is negative, and the tokens
are counted for a time that has passed.  Else there must not be tokens enough a millisecond before
the call wakes up, and only the end of the timeout may be earlier than the first time there are. -/
def SleepsRightly (bucket : TokenBucket) (c : Call) : Prop :=
  if c.requiredTokens > bucket.capacity then c.timeout = 0
  else if c.requiredTokens ≤ bucket.tokensAt c.now then True
  else if bucket.wait c.requiredTokens < 0 then
    if bucket.available c.now < c.requiredTokens then
      c.timeout = 0 ∧ bucket.tokensAt (c.instant (bucket.sleep c)) < c.requiredTokens
    else c.requiredTokens ≤ bucket.tokensAt (c.instant (bucket.sleep c))
  else
    (0 < bucket.sleep c →
      bucket.available (c.instant (bucket.sleep c - 1)) < c.requiredTokens) ∧
    bucket.refilled (c.instant (bucket.sleep c)) < 18446744073709551616 ∧
    (bucket.available (c.instant (bucket.sleep c)) < c.requiredTokens →
      c.timeout ≤ bucket.wait c.requiredTokens)

variable {bucket : TokenBucket} {c : Call}

/-! ## What is available -/

/-- The milliseconds that have passed are counted from zero. -/
lemma toNat_millis (d : ℤ) : (millis d).toNat = d.toNat / 1000000 := by
  unfold millis
  rcases le_or_gt 0 d with hge | hlt
  · rw [Int.tdiv_eq_ediv_of_nonneg hge]
    omega
  · have hneg : 0 ≤ (-d).tdiv 1000000 := Int.tdiv_nonneg (by omega) (by decide)
    rw [Int.neg_tdiv] at hneg
    omega

/-- The tokens become more. -/
lemma refilled_mono {t t' : ℤ} (hle : t ≤ t') : bucket.refilled t ≤ bucket.refilled t' := by
  unfold refilled
  rw [toNat_millis, toNat_millis]
  exact Nat.add_le_add_left (Nat.div_le_div_right (Nat.mul_le_mul_left _ (by omega))) _

/-- So do those that are available. -/
lemma available_mono {t t' : ℤ} (hle : t ≤ t') : bucket.available t ≤ bucket.available t' :=
  min_le_min_left _ (refilled_mono hle)

/-- There are not tokens enough before `n` milliseconds have passed if there are not one millisecond
before. -/
lemma few_before_iff {n : ℕ} :
    (∀ w : ℕ, (w : ℤ) < n → bucket.available (c.instant w) < c.requiredTokens) ↔
      ((0 : ℤ) < n → bucket.available (c.instant (n - 1)) < c.requiredTokens) := by
  constructor
  · intro hfew hpos
    have hlast := hfew (n - 1) (by omega)
    rwa [show ((n - 1 : ℕ) : ℤ) = n - 1 by omega] at hlast
  · intro hlast w hw
    refine lt_of_le_of_lt (available_mono ?_) (hlast (by omega))
    unfold Call.instant
    omega

/-- Conversion takes a natural number modulo the range. -/
lemma uint64_natCast (n : ℕ) : uint64 n = n % 18446744073709551616 := by
  unfold uint64
  omega

/-- As long as the product of the rate and the time does not overflow, the code counts what is
available, but for a sum that may. -/
lemma tokensAt_eq {t : ℤ} (hrate : 1 ≤ bucket.rate) (ht : bucket.timestamp ≤ t)
    (hfits : bucket.rate * (millis (t - bucket.timestamp)).toNat < 18446744073709551616) :
    bucket.tokensAt t = min bucket.capacity (bucket.refilled t % 18446744073709551616) := by
  have hmillis : millis (t - bucket.timestamp) = ((millis (t - bucket.timestamp)).toNat : ℤ) :=
    (Int.toNat_of_nonneg (Int.tdiv_nonneg (by omega) (by decide))).symm
  unfold tokensAt refilled
  rw [hmillis, Int.toNat_natCast]
  obtain ⟨m, hm⟩ : ∃ m, m = (millis (t - bucket.timestamp)).toNat := ⟨_, rfl⟩
  rw [← hm] at hfits ⊢
  have hle : m ≤ bucket.rate * m := Nat.le_mul_of_pos_left m hrate
  rw [uint64_natCast m, Nat.mod_eq_of_lt (by omega), ← Nat.cast_mul, uint64_natCast,
    Nat.mod_eq_of_lt hfits, ← Nat.cast_add, uint64_natCast]

/-- What the call relies on: the bucket was not used at a later time, and the refill until the end
of the timeout does not overflow. -/
structure InRange (bucket : TokenBucket) (c : Call) : Prop where
  rate_pos : 1 ≤ bucket.rate
  timestamp_le : bucket.timestamp ≤ c.now
  timeout_nonneg : 0 ≤ c.timeout
  required_lt : c.requiredTokens < 18446744073709551616
  refill_lt : bucket.rate * (millis (c.instant c.timeout - bucket.timestamp)).toNat <
    18446744073709551616

namespace InRange

/-- What is counted until the timeout ends. -/
lemma tokensAt_instant (h : InRange bucket c) {w : ℤ} (hw : 0 ≤ w) (hle : w ≤ c.timeout) :
    bucket.tokensAt (c.instant w) =
      min bucket.capacity (bucket.refilled (c.instant w) % 18446744073709551616) := by
  have htimestamp := h.timestamp_le
  refine tokensAt_eq h.rate_pos (by unfold Call.instant; omega)
    (lt_of_le_of_lt (Nat.mul_le_mul_left _ ?_) h.refill_lt)
  rw [toNat_millis, toNat_millis]
  unfold Call.instant
  omega

/-- No more is counted than is available. -/
lemma tokensAt_le_available (h : InRange bucket c) {w : ℤ} (hw : 0 ≤ w) (hle : w ≤ c.timeout) :
    bucket.tokensAt (c.instant w) ≤ bucket.available (c.instant w) := by
  rw [h.tokensAt_instant hw hle]
  exact min_le_min_left _ (Nat.mod_le _ _)

/-- In one millisecond the rate does not yield a whole turn of the counter. -/
lemma refilled_succ_le (h : InRange bucket c) {w : ℕ} (hle : (w : ℤ) + 1 ≤ c.timeout) :
    bucket.refilled (c.instant (w + 1 : ℕ)) ≤
      bucket.refilled (c.instant w) + 18446744073709551616 / 1000 + 1 := by
  have htimestamp := h.timestamp_le
  have hrefill := h.refill_lt
  rw [toNat_millis] at hrefill
  unfold refilled
  rw [toNat_millis, toNat_millis]
  obtain ⟨m, hm⟩ : ∃ m, m = (c.instant w - bucket.timestamp).toNat / 1000000 := ⟨_, rfl⟩
  have hsucc : (c.instant (w + 1 : ℕ) - bucket.timestamp).toNat / 1000000 = m + 1 := by
    unfold Call.instant at hm ⊢
    omega
  have hend : m + 1 ≤ (c.instant c.timeout - bucket.timestamp).toNat / 1000000 := by
    unfold Call.instant at hm ⊢
    omega
  have hrate : bucket.rate ≤
      bucket.rate * ((c.instant c.timeout - bucket.timestamp).toNat / 1000000) :=
    Nat.le_mul_of_pos_right _ (by omega)
  rw [← hm, hsucc, Nat.mul_succ]
  omega

/-! ## When the time is right -/

/-- What is there at once is granted at once. -/
lemma granted_now (h : InRange bucket c) (henough : c.requiredTokens ≤ bucket.available c.now)
    (bucket' : TokenBucket) : GrantsRightly bucket c ⟨true, bucket', c.now⟩ := by
  have hpos := h.timeout_nonneg
  have hnow : c.instant (0 : ℕ) = c.now := by simp [Call.instant]
  constructor
  case rv_iff =>
    refine iff_of_true rfl (henough.trans (available_mono ?_))
    unfold Call.instant
    omega
  case granted_at => exact fun _ => ⟨0, hnow.symm, by rwa [hnow], fun w' hw' => by omega⟩
  case refused_at => exact fun hrv => absurd hrv.symm Bool.false_ne_true
  case refused_bucket => exact fun hrv => absurd hrv.symm Bool.false_ne_true

/-- A call that returns at once is not right to refuse, unless it has no timeout. -/
lemma refused_now_iff (hfew : bucket.available c.now < c.requiredTokens) :
    GrantsRightly bucket c ⟨false, bucket, c.now⟩ ↔ c.timeout = 0 := by
  constructor
  · intro hright
    have hreturned := hright.refused_at rfl
    unfold Call.instant at hreturned
    dsimp only at hreturned
    omega
  · intro hzero
    have hend : c.instant c.timeout = c.now := by
      unfold Call.instant
      rw [hzero, mul_zero, add_zero]
    constructor
    case rv_iff => exact iff_of_false Bool.false_ne_true (by rw [hend]; omega)
    case granted_at => exact fun hrv => absurd hrv Bool.false_ne_true
    case refused_at => exact fun _ => hend.symm
    case refused_bucket => exact fun _ => rfl

/-- The call sleeps for `n` milliseconds, and then grants. -/
lemma granted_after_iff (h : InRange bucket c) (hcapacity : c.requiredTokens ≤ bucket.capacity)
    (hnow : bucket.tokensAt c.now < c.requiredTokens) {n : ℕ} (hn : (n : ℤ) ≤ c.timeout)
    (hgrant : c.requiredTokens ≤ bucket.tokensAt (c.instant n)) (bucket' : TokenBucket) :
    GrantsRightly bucket c ⟨true, bucket', c.instant n⟩ ↔
      (∀ w : ℕ, (w : ℤ) < n → bucket.available (c.instant w) < c.requiredTokens) ∧
        bucket.refilled (c.instant n) < 18446744073709551616 := by
  have hcounted := h.tokensAt_instant (Int.natCast_nonneg n) hn
  have henough := hgrant.trans (h.tokensAt_le_available (Int.natCast_nonneg n) hn)
  have hend : bucket.available (c.instant n) ≤ bucket.available (c.instant c.timeout) :=
    available_mono (by unfold Call.instant; omega)
  constructor
  · intro hright
    obtain ⟨w, hreturned, -, hfirst⟩ := hright.granted_at rfl
    obtain rfl : n = w := by
      unfold Call.instant at hreturned
      dsimp only at hreturned
      omega
    refine ⟨fun w hw => hfirst w (by omega), ?_⟩
    -- the count wraps only if one millisecond yields a whole turn of it
    by_contra hwraps
    rcases n with _ | n
    · rw [show c.instant (0 : ℕ) = c.now by simp [Call.instant]] at hgrant
      omega
    · have hbefore := hfirst n (Nat.lt_succ_self n)
      have hsucc := h.refilled_succ_le (w := n) (by omega)
      unfold available at hbefore
      omega
  · rintro ⟨hfirst, -⟩
    constructor
    case rv_iff => exact iff_of_true rfl (henough.trans hend)
    case granted_at => exact fun _ => ⟨n, rfl, henough, fun w' hw' => hfirst w' (by omega)⟩
    case refused_at => exact fun hrv => absurd hrv.symm Bool.false_ne_true
    case refused_bucket => exact fun hrv => absurd hrv.symm Bool.false_ne_true

/-- The call sleeps for `n` milliseconds, and then refuses. -/
lemma refused_after_iff (h : InRange bucket c) (hcapacity : c.requiredTokens ≤ bucket.capacity)
    {n : ℕ} (hn : (n : ℤ) ≤ c.timeout)
    (hrefuse : bucket.tokensAt (c.instant n) < c.requiredTokens) :
    GrantsRightly bucket c ⟨false, bucket, c.instant n⟩ ↔
      (∀ w : ℕ, (w : ℤ) < n → bucket.available (c.instant w) < c.requiredTokens) ∧
        bucket.refilled (c.instant n) < 18446744073709551616 ∧
        (bucket.available (c.instant n) < c.requiredTokens → c.timeout = n) := by
  have hcounted := h.tokensAt_instant (Int.natCast_nonneg n) hn
  have hrequired := h.required_lt
  constructor
  · intro hright
    have hreturned := hright.refused_at rfl
    have hend : c.timeout = n := by
      unfold Call.instant at hreturned
      dsimp only at hreturned
      omega
    have hfew : bucket.available (c.instant n) < c.requiredTokens := by
      rw [← hend]
      exact Nat.lt_of_not_le fun hle => absurd (hright.rv_iff.mpr hle) Bool.false_ne_true
    refine ⟨fun w hw => lt_of_le_of_lt (available_mono ?_) hfew, ?_, fun _ => hend⟩
    · unfold Call.instant
      omega
    · unfold available at hfew
      omega
  · rintro ⟨-, hfits, hend⟩
    rw [Nat.mod_eq_of_lt hfits] at hcounted
    have hfew : bucket.available (c.instant n) < c.requiredTokens := by
      unfold available
      omega
    have hend' := hend hfew
    constructor
    case rv_iff => exact iff_of_false Bool.false_ne_true (by rw [hend']; omega)
    case granted_at => exact fun hrv => absurd hrv Bool.false_ne_true
    case refused_at => exact fun _ => by rw [hend']
    case refused_bucket => exact fun _ => rfl

/-- A call is answered rightly exactly when the time that it sleeps is the right one. -/
lemma grantsRightly_iff (h : InRange bucket c) :
    GrantsRightly bucket c (bucket.consumeTokens c.requiredTokens c.timeout c.now) ↔
      bucket.SleepsRightly c := by
  have hpos := h.timeout_nonneg
  have hnow : c.instant 0 = c.now := by simp [Call.instant]
  have hsleep : bucket.finalTime c.requiredTokens c.timeout c.now =
    c.instant (bucket.sleep c) := rfl
  unfold consumeTokens SleepsRightly
  dsimp only
  rw [hsleep]
  by_cases hlarge : c.requiredTokens > bucket.capacity
  · rw [if_pos hlarge, if_pos hlarge]
    exact refused_now_iff (lt_of_le_of_lt (min_le_left _ _) hlarge)
  rw [if_neg hlarge, if_neg hlarge]
  by_cases henough : c.requiredTokens ≤ bucket.tokensAt c.now
  · rw [if_neg (Nat.not_lt.mpr henough), if_pos henough, iff_true]
    refine h.granted_now (henough.trans ?_) _
    rw [← hnow]
    exact h.tokensAt_le_available le_rfl hpos
  have hfew := Nat.lt_of_not_le henough
  rw [if_pos hfew, if_neg henough]
  by_cases hwait : bucket.wait c.requiredTokens < 0
  · -- the call returns at once
    have hback : c.instant (bucket.sleep c) ≤ c.now := by
      unfold Call.instant sleep
      omega
    rw [if_pos hwait, max_eq_left hback]
    by_cases hnone : bucket.available c.now < c.requiredTokens
    · rw [if_pos hnone]
      split
      · next hgrant =>
        refine iff_of_false (fun hright => ?_) (fun hfew => absurd hgrant (Nat.not_le.mpr hfew.2))
        obtain ⟨w, hreturned, hthere, -⟩ := hright.granted_at rfl
        obtain rfl : w = 0 := by
          unfold Call.instant at hreturned
          dsimp only at hreturned
          omega
        rw [Nat.cast_zero, hnow] at hthere
        omega
      · next hrefuse =>
        rw [refused_now_iff hnone]
        exact (and_iff_left (Nat.lt_of_not_le hrefuse)).symm
    · -- the sum of the tokens and the refill has wrapped
      rw [if_neg hnone]
      split
      · next hgrant => exact iff_of_true (h.granted_now (Nat.le_of_not_lt hnone) _) hgrant
      · next hrefuse =>
        refine iff_of_false (fun hright => ?_) hrefuse
        have hend : bucket.available c.now ≤ bucket.available (c.instant c.timeout) :=
          available_mono (by unfold Call.instant; omega)
        exact absurd (hright.rv_iff.mpr ((Nat.le_of_not_lt hnone).trans hend)) Bool.false_ne_true
  · obtain ⟨n, hn⟩ : ∃ n : ℕ, (n : ℤ) = bucket.sleep c :=
      ⟨_, Int.toNat_of_nonneg (le_min (Int.not_lt.mp hwait) hpos)⟩
    have hle : (n : ℤ) ≤ c.timeout := hn ▸ min_le_right _ _
    rw [if_neg hwait, ← hn, max_eq_right (by unfold Call.instant; omega)]
    have hcapacity := Nat.le_of_not_lt hlarge
    split
    · next hgrant =>
      have hthere := hgrant.trans (h.tokensAt_le_available (Int.natCast_nonneg n) hle)
      rw [h.granted_after_iff hcapacity hfew hle hgrant, few_before_iff]
      exact and_congr_right fun _ =>
        (and_iff_left fun hnone => absurd hthere (Nat.not_le.mpr hnone)).symm
    · next hrefuse =>
      have hend : c.timeout = n ↔ c.timeout ≤ bucket.wait c.requiredTokens := by
        unfold sleep at hn
        omega
      rw [h.refused_after_iff hcapacity hle (Nat.lt_of_not_le hrefuse), few_before_iff, hend]

end InRange

/-! ## Every bucket that is used -/

/-- A bucket is never used at a time before the one it was last used at, on a clock that does not
go back. -/
lemma Run.timestamp_le {s : Run} (hrun : Transition.Reaches Run.Starts Run.step Run.Monotone s) :
    1 ≤ s.bucket.rate ∧ s.bucket.timestamp ≤ s.clock := by
  refine hrun.invariant (I := fun s => 1 ≤ s.bucket.rate ∧ s.bucket.timestamp ≤ s.clock) ?_ ?_
  · rintro s ⟨rate, capacity, now, hrate, rfl⟩
    exact ⟨hrate, le_rfl⟩
  · rintro s c ⟨hrate, hclock⟩ hmonotone
    unfold Run.Monotone at hmonotone
    unfold Run.step consumeTokens
    split
    · exact ⟨hrate, hclock.trans hmonotone⟩
    · split
      · dsimp only
        split
        · exact ⟨hrate, le_max_right _ _⟩
        · exact ⟨hrate, (hclock.trans hmonotone).trans (le_max_left _ _)⟩
      · exact ⟨hrate, le_rfl⟩

/-- Every call of a bucket, whatever was called before, is answered rightly exactly when the time
that it sleeps is the right one, as long as the refill until the end of its timeout does not
overflow. -/
theorem consumeTokens_grantsRightly_iff {s : Run}
    (hrun : Transition.Reaches Run.Starts Run.step Run.Monotone s) {c : Call}
    (hmonotone : s.Monotone c) (htimeout : 0 ≤ c.timeout)
    (hrequired : c.requiredTokens < 18446744073709551616)
    (hrefill : s.bucket.rate * (millis (c.instant c.timeout - s.bucket.timestamp)).toNat <
      18446744073709551616) :
    GrantsRightly s.bucket c (s.bucket.consumeTokens c.requiredTokens c.timeout c.now) ↔
      s.bucket.SleepsRightly c := by
  obtain ⟨hrate, htimestamp⟩ := Run.timestamp_le hrun
  exact InRange.grantsRightly_iff
    ⟨hrate, htimestamp.trans hmonotone, htimeout, hrequired, hrefill⟩

/-- A call that waits for its whole timeout, at the end of which the tokens are there. -/
theorem consumeTokens_grantsRightly_iff_after :
    GrantsRightly (Run.after 2 [⟨2, 0, 0⟩]).bucket ⟨2, 1000, 0⟩
        ((Run.after 2 [⟨2, 0, 0⟩]).bucket.consumeTokens 2 1000 0) ↔
      (Run.after 2 [⟨2, 0, 0⟩]).bucket.SleepsRightly ⟨2, 1000, 0⟩ := by
  have hstart : Transition.Reaches Run.Starts Run.step Run.Monotone (Run.after 2 []) :=
    .start ⟨2, 0, 0, by decide, rfl⟩
  exact consumeTokens_grantsRightly_iff (c := ⟨2, 1000, 0⟩)
    (hstart.next (e := ⟨2, 0, 0⟩) (by decide)) (by decide) (by decide) (by decide) (by decide)

/-- With a rate of a thousand tokens a second, five hundred are there after half a second.  A call
with a timeout of a second returns after the whole of it. -/
theorem consumeTokens_grantsRightly_fails :
    ¬ ∀ (s : Run) (c : Call), Transition.Reaches Run.Starts Run.step Run.Monotone s →
      s.Monotone c → 0 ≤ c.timeout → c.requiredTokens < 18446744073709551616 →
      s.bucket.rate * (millis (c.instant c.timeout - s.bucket.timestamp)).toNat <
        18446744073709551616 →
      GrantsRightly s.bucket c (s.bucket.consumeTokens c.requiredTokens c.timeout c.now) := by
  intro h
  have hstart : Transition.Reaches Run.Starts Run.step Run.Monotone (Run.after 1000 []) :=
    .start ⟨1000, 0, 0, by decide, rfl⟩
  have hright := h _ ⟨500, 1000, 0⟩ (hstart.next (e := ⟨1000, 0, 0⟩) (by decide)) (by decide)
    (by decide) (by decide) (by decide)
  obtain ⟨w, hreturned, -, hfirst⟩ := hright.granted_at (by decide)
  obtain rfl : w = 1000 := by
    have hlate : (1000000000 : ℤ) = 0 + 1000000 * w := hreturned
    omega
  exact absurd (hfirst 500 (by decide)) (by decide)

end TokenBucket

end XrceDds
