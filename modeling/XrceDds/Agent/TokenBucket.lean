import Mathlib.Tactic.Linarith
import Mathlib.Tactic.Ring
import XrceDds.Lib.Transition

/-!
# The token bucket of the Agent's readers

`consume_tokens` grants tokens at once, or in advance: for the instant `final_time` up to which
the caller sleeps.  What was granted up to an instant and what is left never exceed the
capacity and what the rate yields (`Run.limited`).

The time to wait is computed from `tokens_ - required_tokens`, which wraps.  With a rate of
one the wait is negative: the tokens are granted for an instant before `timestamp_`, where the
time that has passed wraps again, and the bucket is full (`limited_fails`).
-/

namespace XrceDds

/-- A conversion to `uint64_t` or `size_t`. -/
def uint64 (z : ℤ) : ℕ := (z % 18446744073709551616).toNat

/-- A conversion to the representation of `milliseconds`. -/
def int64 (n : ℕ) : ℤ := if n < 9223372036854775808 then n else n - 18446744073709551616

/-- `TokenBucket`.  Time points are in nanoseconds. -/
structure TokenBucket where
  rate : ℕ
  capacity : ℕ
  tokens : ℕ
  timestamp : ℤ
  deriving DecidableEq, Repr

namespace TokenBucket

/-- The constructor, at the time `now`. -/
def new (rate capacity : ℕ) (now : ℤ) : TokenBucket where
  rate := rate
  capacity := if capacity = 0 then rate else capacity
  tokens := if capacity = 0 then rate else capacity
  timestamp := now

/-- `duration_cast<milliseconds>`. -/
def millis (d : ℤ) : ℤ := d.tdiv 1000000

/-- The tokens at the time `t`: `current_tokens` and `expected_tokens`. -/
def tokensAt (bucket : TokenBucket) (t : ℤ) : ℕ :=
  min bucket.capacity
    (uint64 (bucket.tokens + (uint64 (bucket.rate * uint64 (millis (t - bucket.timestamp))) /
      1000 : ℕ)))

/-- The milliseconds until there are tokens enough. -/
def wait (bucket : TokenBucket) (requiredTokens : ℕ) : ℤ :=
  int64 (uint64 (1000 * ((bucket.tokens : ℤ) - requiredTokens)) / bucket.rate)

/-- `final_time`. -/
def finalTime (bucket : TokenBucket) (requiredTokens : ℕ) (timeout now : ℤ) : ℤ :=
  now + 1000000 * min (bucket.wait requiredTokens) timeout

/-- What `consume_tokens` returns, and when. -/
structure Consumed where
  rv : Bool
  bucket : TokenBucket
  returned : ℤ

/-- `consume_tokens`, called at the time `now` with a timeout in milliseconds. -/
def consumeTokens (bucket : TokenBucket) (requiredTokens : ℕ) (timeout now : ℤ) : Consumed :=
  if requiredTokens > bucket.capacity then ⟨false, bucket, now⟩
  else if bucket.tokensAt now < requiredTokens then
    let finalTime := bucket.finalTime requiredTokens timeout now
    let expectedTokens := bucket.tokensAt finalTime
    if expectedTokens ≥ requiredTokens then
      ⟨true, { bucket with tokens := expectedTokens - requiredTokens, timestamp := finalTime },
        max now finalTime⟩
    else ⟨false, bucket, max now finalTime⟩
  else
    ⟨true, { bucket with tokens := bucket.tokensAt now - requiredTokens, timestamp := now }, now⟩

/-- A call of `consume_tokens`. -/
structure Call where
  requiredTokens : ℕ
  timeout : ℤ
  now : ℤ

/-- A bucket, the time of the last return, and the tokens that were granted with the times at
which the calls returned. -/
structure Run where
  bucket : TokenBucket
  clock : ℤ
  grants : List (ℤ × ℕ)

/-- A call happens. -/
def Run.step (s : Run) (c : Call) : Run :=
  let r := s.bucket.consumeTokens c.requiredTokens c.timeout c.now
  ⟨r.bucket, r.returned, if r.rv then s.grants ++ [(r.returned, c.requiredTokens)] else s.grants⟩

/-- The clock is monotone. -/
def Run.Monotone (s : Run) (c : Call) : Prop := s.clock ≤ c.now

instance (s : Run) (c : Call) : Decidable (s.Monotone c) := by
  unfold Run.Monotone; infer_instance

/-- The bucket is new, with a rate of at least one. -/
def Run.Starts (s : Run) : Prop :=
  ∃ rate capacity now, 1 ≤ rate ∧ s = ⟨.new rate capacity now, now, []⟩

/-- The tokens that were granted by calls that returned between `a` and `b`. -/
def Run.granted (s : Run) (a b : ℤ) : ℕ :=
  ((s.grants.filter fun e => a ≤ e.1 ∧ e.1 ≤ b).map Prod.snd).sum

/-- No window sees more tokens than the capacity and what the rate yields in its length, and in
`granularity` nanoseconds more. -/
structure Run.Limited (granularity : ℤ) (s : Run) : Prop where
  granted_le : ∀ a b, a ≤ b → 1000000000 * (s.granted a b : ℤ) ≤
    1000000000 * s.bucket.capacity + s.bucket.rate * (b - a + granularity)
  tokens_le : s.bucket.tokens ≤ s.bucket.capacity

/-- A call that finds too few tokens waits for no time that has passed, unless there are too
few tokens then as well. -/
def Forward (bucket : TokenBucket) (c : Call) : Prop :=
  bucket.tokensAt c.now < c.requiredTokens →
    c.now ≤ bucket.finalTime c.requiredTokens c.timeout c.now ∨
      bucket.tokensAt (bucket.finalTime c.requiredTokens c.timeout c.now) < c.requiredTokens

/-- The calls on a monotone clock that are not granted tokens for a time that has passed. -/
def Run.Admitted (s : Run) (c : Call) : Prop := s.Monotone c ∧ s.bucket.Forward c

instance (s : Run) (c : Call) : Decidable (s.Admitted c) := by
  unfold Run.Admitted Forward; infer_instance

variable {bucket : TokenBucket}

/-! ## What a call grants -/

/-- Conversion takes no more than there is. -/
lemma uint64_le {z : ℤ} (h : 0 ≤ z) : (uint64 z : ℤ) ≤ z := by
  unfold uint64
  omega

/-- A time that is not before `timestamp_` by a millisecond yields what the rate allows. -/
lemma tokensAt_le {t : ℤ} (ht : -1000000 < t - bucket.timestamp) :
    1000000000 * (bucket.tokensAt t : ℤ) ≤
      1000000000 * bucket.tokens + bucket.rate * max 0 (t - bucket.timestamp) := by
  obtain ⟨m, hm, hle⟩ : ∃ m : ℕ, millis (t - bucket.timestamp) = m ∧
      1000000 * (m : ℤ) ≤ max 0 (t - bucket.timestamp) := by
    unfold millis
    rcases le_or_gt 0 (t - bucket.timestamp) with hge | hlt
    · refine ⟨((t - bucket.timestamp).tdiv 1000000).toNat, ?_, ?_⟩
      · rw [Int.toNat_of_nonneg (Int.tdiv_nonneg hge (by decide))]
      · rw [Int.toNat_of_nonneg (Int.tdiv_nonneg hge (by decide)),
          Int.tdiv_eq_ediv_of_nonneg hge, max_eq_right hge]
        omega
    · refine ⟨0, ?_, by simp⟩
      rw [← Int.neg_neg (t - bucket.timestamp), Int.neg_tdiv,
        Int.tdiv_eq_zero_of_lt (by omega) (by omega)]
      rfl
  obtain ⟨yield, hyield⟩ : ∃ y, y = uint64 (bucket.rate * uint64 (m : ℤ)) := ⟨_, rfl⟩
  have hle' : (yield : ℤ) ≤ bucket.rate * m := by
    rw [hyield]
    refine (uint64_le (by positivity)).trans ?_
    exact mul_le_mul_of_nonneg_left (uint64_le (by positivity)) (by positivity)
  have hrate : (bucket.rate : ℤ) * (1000000 * m) ≤
      bucket.rate * max 0 (t - bucket.timestamp) :=
    mul_le_mul_of_nonneg_left hle (by positivity)
  rw [mul_left_comm] at hrate
  have hsum := uint64_le (show 0 ≤ (bucket.tokens : ℤ) + ((yield / 1000 : ℕ) : ℤ) by positivity)
  unfold tokensAt
  rw [hm, ← hyield, Nat.cast_min]
  omega

/-- There are never more tokens than the capacity. -/
lemma tokensAt_le_capacity (bucket : TokenBucket) (t : ℤ) :
    bucket.tokensAt t ≤ bucket.capacity := min_le_left _ _

namespace Run

variable {s : Run}

/-- What holds of a run: a bucket never holds more than its capacity, was last used when tokens
were last granted, and what was granted since any time and what is left was there before or
was yielded since. -/
structure Sound (s : Run) : Prop where
  rate_pos : 1 ≤ s.bucket.rate
  tokens_le : s.bucket.tokens ≤ s.bucket.capacity
  timestamp_le : s.bucket.timestamp ≤ s.clock
  grants_le : ∀ e ∈ s.grants, e.1 ≤ s.bucket.timestamp
  spent : ∀ a, 1000000000 * ((s.granted a s.bucket.timestamp : ℤ) + s.bucket.tokens) ≤
    1000000000 * s.bucket.capacity + s.bucket.rate * max 0 (s.bucket.timestamp - a)
  limited : s.Limited 0

/-- What is granted counts in the windows that its time lies in. -/
lemma granted_append (bucket : TokenBucket) (clock t : ℤ) (n : ℕ) (a b : ℤ) :
    granted ⟨bucket, clock, s.grants ++ [(t, n)]⟩ a b =
      s.granted a b + if a ≤ t ∧ t ≤ b then n else 0 := by
  unfold granted
  dsimp only
  rw [List.filter_append, List.map_append, List.sum_append]
  congr 1
  by_cases h : a ≤ t ∧ t ≤ b
  · rw [if_pos h, List.filter_cons_of_pos (by simpa using h)]
    simp
  · rw [if_neg h, List.filter_cons_of_neg (by simpa using h)]
    simp

/-- A window that ends behind the last grant sees what one sees that ends with it. -/
lemma Sound.granted_eq (h : s.Sound) (a : ℤ) {b : ℤ} (hb : s.bucket.timestamp ≤ b) :
    s.granted a b = s.granted a s.bucket.timestamp := by
  unfold granted
  congr 2
  refine List.filter_congr fun e he => ?_
  have := h.grants_le e he
  have : e.1 ≤ b := by omega
  simp [*]

/-- A window that starts behind the last grant sees nothing. -/
lemma Sound.granted_eq_zero (h : s.Sound) {a b : ℤ} (ha : s.bucket.timestamp < a) :
    s.granted a b = 0 := by
  unfold granted
  rw [List.filter_eq_nil_iff.mpr]
  · rfl
  · intro e he hin
    have := h.grants_le e he
    simp only [decide_eq_true_eq] at hin
    omega

/-- Granting what is there at a time that is not before the last grant. -/
lemma Sound.grant (h : s.Sound) {t : ℤ} (ht : s.bucket.timestamp ≤ t) {n : ℕ}
    (hn : n ≤ s.bucket.tokensAt t) :
    Sound ⟨{ s.bucket with tokens := s.bucket.tokensAt t - n, timestamp := t }, t,
      s.grants ++ [(t, n)]⟩ := by
  have hcapacity := s.bucket.tokensAt_le_capacity t
  have hyield := tokensAt_le (show -1000000 < t - s.bucket.timestamp by omega)
  rw [max_eq_right (by omega)] at hyield
  have hspent : ∀ a, 1000000000 * ((s.granted a t : ℤ) + s.bucket.tokensAt t) ≤
      1000000000 * s.bucket.capacity + s.bucket.rate * max 0 (t - a) := by
    intro a
    rcases le_or_gt a s.bucket.timestamp with hle | hlt
    · have hold := h.spent a
      rw [max_eq_right (by omega)] at hold ⊢
      rw [h.granted_eq a ht]
      linarith
    · rw [h.granted_eq_zero hlt]
      have : (0 : ℤ) ≤ s.bucket.rate * max 0 (t - a) := by positivity
      omega
  refine ⟨h.rate_pos, ?_, le_rfl, ?_, ?_, ?_, ?_⟩
  · dsimp only
    omega
  · intro e he
    rcases List.mem_append.mp he with hold | hnew
    · exact (h.grants_le e hold).trans ht
    · rw [List.mem_singleton.mp hnew]
  · intro a
    have := hspent a
    rw [granted_append]
    dsimp only
    split <;> omega
  · intro a b hab
    rw [granted_append]
    dsimp only
    by_cases hin : a ≤ t ∧ t ≤ b
    · rw [if_pos hin]
      have hle := hspent a
      rw [max_eq_right (by omega), h.granted_eq a ht] at hle
      rw [h.granted_eq a (ht.trans hin.2)]
      have hrate : (s.bucket.rate : ℤ) * (t - a) ≤ s.bucket.rate * (b - a + 0) :=
        mul_le_mul_of_nonneg_left (by omega) (by positivity)
      push_cast
      omega
    · rw [if_neg hin]
      exact h.limited.granted_le a b hab
  · dsimp only
    omega

/-- The caller sleeps. -/
lemma Sound.sleep (h : s.Sound) {t : ℤ} (ht : s.clock ≤ t) : Sound { s with clock := t } where
  rate_pos := h.rate_pos
  tokens_le := h.tokens_le
  timestamp_le := h.timestamp_le.trans ht
  grants_le := h.grants_le
  spent := h.spent
  limited := ⟨h.limited.granted_le, h.limited.tokens_le⟩

/-- Every call that is not granted tokens for a time that has passed keeps the bound. -/
lemma Sound.step (h : s.Sound) {c : Call} (hc : s.Admitted c) : (s.step c).Sound := by
  obtain ⟨hmonotone, hforward⟩ := hc
  unfold Monotone at hmonotone
  have hclock := h.timestamp_le.trans hmonotone
  unfold Run.step consumeTokens
  by_cases hlarge : c.requiredTokens > s.bucket.capacity
  · rw [if_pos hlarge]
    exact h.sleep hmonotone
  · rw [if_neg hlarge]
    by_cases hfew : s.bucket.tokensAt c.now < c.requiredTokens
    · rw [if_pos hfew]
      dsimp only
      split
      · next hgrant =>
        have hlater := (hforward hfew).resolve_right (Nat.not_lt.mpr hgrant)
        rw [max_eq_right hlater]
        exact h.grant (hclock.trans hlater) hgrant
      · exact h.sleep (hmonotone.trans (le_max_left _ _))
    · rw [if_neg hfew]
      exact h.grant hclock (Nat.le_of_not_lt hfew)

/-- A new bucket is full. -/
lemma Starts.sound (h : s.Starts) : s.Sound := by
  obtain ⟨rate, capacity, now, hrate, rfl⟩ := h
  refine ⟨hrate, le_rfl, le_rfl, fun e he => absurd he (by simp), fun a => ?_, fun a b hab => ?_,
    le_rfl⟩
  · have : (0 : ℤ) ≤ rate * max 0 (now - a) := by positivity
    unfold TokenBucket.new granted
    simpa using this
  · have : (0 : ℤ) ≤ rate * (b - a + 0) := mul_nonneg (by positivity) (by omega)
    unfold TokenBucket.new granted
    dsimp only
    simp only [List.filter_nil, List.map_nil, List.sum_nil]
    omega

/-- Along every run of calls that are not granted tokens for a time that has passed, no window
sees more than the capacity and what the rate yields. -/
theorem consumeTokens_limited (hrun : Transition.Reaches Starts step Admitted s) : s.Limited 0 :=
  (hrun.invariant (I := Sound) (fun _ hs => Starts.sound hs) fun _ _ h hc =>
    Sound.step h hc).limited

/-- A bucket of the rate `rate` after the calls `calls`. -/
def after (rate : ℕ) (calls : List Call) : Run := calls.foldl step ⟨.new rate 0 0, 0, []⟩

/-- Tokens are granted in advance: the second call returns a second later. -/
theorem consumeTokens_limited_after :
    (after 2 [⟨2, 0, 0⟩, ⟨2, 1000, 0⟩]).grants = [(0, 2), (1000000000, 2)] ∧
      (after 2 [⟨2, 0, 0⟩, ⟨2, 1000, 0⟩]).Limited 0 := by
  have hstart : Transition.Reaches Starts step Admitted (after 2 []) :=
    .start ⟨2, 0, 0, by decide, rfl⟩
  have hrun := (hstart.next (e := ⟨2, 0, 0⟩) (by decide)).next (e := ⟨2, 1000, 0⟩) (by decide)
  exact ⟨by decide, consumeTokens_limited hrun⟩

/-- With a rate of one, calls that follow each other without a pause are all granted. -/
theorem limited_fails : ¬ ∀ s, Transition.Reaches Starts step Monotone s → s.Limited 1000000 := by
  intro h
  have hstart : Transition.Reaches Starts step Monotone (after 1 []) :=
    .start ⟨1, 0, 0, le_rfl, rfl⟩
  have hrun := (((hstart.next (e := ⟨1, 0, 0⟩) (by decide)).next (e := ⟨1, 0, 0⟩) (by decide)).next
    (e := ⟨1, 0, 0⟩) (by decide)).next (e := ⟨1, 0, 0⟩) (by decide)
  have hle := (h _ hrun).granted_le 0 0 le_rfl
  exact absurd hle (by decide)

end Run

/-- With a rate of at least two, a call that has a timeout waits for a time that has not
passed. -/
lemma forward_of_two_le {c : Call} (hrate : 2 ≤ bucket.rate) (htimeout : 0 ≤ c.timeout) :
    bucket.Forward c := by
  refine fun _ => .inl ?_
  have hwait : 0 ≤ bucket.wait c.requiredTokens := by
    have hlt : uint64 (1000 * ((bucket.tokens : ℤ) - c.requiredTokens)) < 18446744073709551616 := by
      unfold uint64
      omega
    have hhalf : uint64 (1000 * ((bucket.tokens : ℤ) - c.requiredTokens)) / bucket.rate ≤
        uint64 (1000 * ((bucket.tokens : ℤ) - c.requiredTokens)) / 2 :=
      Nat.div_le_div_left hrate (by decide)
    unfold wait int64
    rw [if_pos (by omega)]
    exact Int.natCast_nonneg _
  have := le_min hwait htimeout
  unfold finalTime
  omega

end TokenBucket

end XrceDds
