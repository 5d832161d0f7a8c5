import XrceDds.Agent.TokenBucket

/-!
# The read task of the Agent's readers

A `READ_DATA` request starts a task that reads samples and writes them to the client, as far as
its delivery control allows.  Three loops are nested: the outer one reads, the middle one asks
for tokens, and the inner one writes.  Only the outer one looks at the number of samples and at
the time.

`readTask_controlled` says that the delivery control is obeyed along every run in which neither
inner loop is repeated once the time is over, for every number of samples but zero: the number is
first compared when a sample has been written (`readTask_fails`).
-/

namespace XrceDds

/-- `DataDeliveryControl`. -/
structure DataDeliveryControl where
  maxSamples : UInt16
  maxElapsedTime : UInt16
  maxBytesPerSecond : UInt16
  deriving DecidableEq, Repr

/-- The call that the task makes next. -/
inductive ReadCall where
  | read
  | tokens
  | write
  | finished
  deriving DecidableEq, Repr

/-- The variables of `read_task`, with what it has read and written.  Time points are in
nanoseconds, the timeout in milliseconds. -/
structure ReadTask where
  deliveryControl : DataDeliveryControl
  runningCond : Bool
  tokenBucket : TokenBucket
  stopCond : Bool
  messageCount : UInt16
  data : List UInt8
  finalTime : ℤ
  timeout : ℤ
  clock : ℤ
  call : ReadCall
  reads : List (List UInt8)
  writes : List (List UInt8)
  deriving DecidableEq, Repr

namespace ReadTask

/-- `rw_timeout`. -/
def rwTimeout : ℤ := 100

/-- `max_samples_unlimited`. -/
def maxSamplesUnlimited : UInt16 := 0xFFFF

/-- `max_elapsed_time_unlimited`. -/
def maxElapsedTimeUnlimited : UInt16 := 0

/-- `max_bytes_per_second_unlimited`. -/
def maxBytesPerSecondUnlimited : UInt16 := 0

/-- `std::min(max_timeout, duration_cast<milliseconds>(final_time - steady_clock::now()))`. -/
def nextTimeout (s : ReadTask) : ℤ :=
  min rwTimeout (TokenBucket.millis (s.finalTime - s.clock))

/-- The condition of the outer loop, and the timeout of its next pass. -/
def loop (s : ReadTask) : ReadTask :=
  if s.runningCond ∧ ¬ s.stopCond then { s with timeout := s.nextTimeout, call := .read }
  else { s with call := .finished }

/-- The end of a pass of the outer loop. -/
def endPass (s : ReadTask) : ReadTask :=
  loop { s with
    stopCond := (maxSamplesUnlimited ≠ s.deliveryControl.maxSamples ∧
      s.messageCount = s.deliveryControl.maxSamples) ∨ s.clock > s.finalTime }

/-- The beginning of `read_task`, at the time `now`. -/
def start (deliveryControl : DataDeliveryControl) (runningCond : Bool) (now : ℤ) : ReadTask :=
  loop
    { deliveryControl := deliveryControl
      runningCond := runningCond
      tokenBucket := .new
        (if deliveryControl.maxBytesPerSecond = maxBytesPerSecondUnlimited then 18446744073709551615
          else deliveryControl.maxBytesPerSecond.toNat) 0 now
      stopCond := false
      messageCount := 0
      data := []
      finalTime :=
        if deliveryControl.maxElapsedTime = maxElapsedTimeUnlimited then 9223372036854775807
        else now + 1000000000 * deliveryControl.maxElapsedTime.toNat
      timeout := 0
      clock := now
      call := .read
      reads := []
      writes := [] }

/-- `read_fn` returns. -/
def readFn (s : ReadTask) (answer : Option (List UInt8)) (elapsed : ℤ) : ReadTask :=
  match answer with
  | none => endPass { s with clock := s.clock + elapsed }
  | some data =>
    { s with
      clock := s.clock + elapsed
      data := data
      call := .tokens
      reads := s.reads ++ [data] }

/-- `consume_tokens` returns, and is called again as long as it grants nothing. -/
def consumeTokens (s : ReadTask) : ReadTask :=
  let r := s.tokenBucket.consumeTokens s.data.length s.timeout s.clock
  let s := { s with tokenBucket := r.bucket, clock := r.returned }
  if r.rv then { s with timeout := s.nextTimeout, call := .write }
  else if s.runningCond then s
  else s.endPass

/-- `write_fn` returns, and is called again as long as it writes nothing. -/
def writeFn (s : ReadTask) (rv : Bool) (elapsed : ℤ) : ReadTask :=
  let s := { s with clock := s.clock + elapsed }
  if rv then
    endPass { s with messageCount := s.messageCount + 1, writes := s.writes ++ [s.data] }
  else if s.runningCond then { s with timeout := s.nextTimeout }
  else s.endPass

/-- What happens to a task: `stop_reading` is called, or the call that it makes returns. -/
inductive Event where
  | stopReading
  | read (answer : Option (List UInt8)) (elapsed : ℤ)
  | tokens
  | write (rv : Bool) (elapsed : ℤ)
  deriving DecidableEq, Repr

/-- The task after an event. -/
def step (s : ReadTask) : Event → ReadTask
  | .stopReading => { s with runningCond := false }
  | .read answer elapsed => s.readFn answer elapsed
  | .tokens => s.consumeTokens
  | .write rv elapsed => s.writeFn rv elapsed

/-- A call returns within its timeout. -/
def Within (s : ReadTask) (elapsed : ℤ) : Prop := 0 ≤ elapsed ∧
    elapsed ≤ max 0 (1000000 * s.timeout)

instance (s : ReadTask) (elapsed : ℤ) : Decidable (s.Within elapsed) := by
  unfold Within; infer_instance

/-- The call that returns is the one that was made, and it returns within its timeout. -/
def Admitted (s : ReadTask) : Event → Prop
  | .stopReading => True
  | .read _ elapsed => s.call = .read ∧ s.Within elapsed
  | .tokens => s.call = .tokens
  | .write _ elapsed => s.call = .write ∧ s.Within elapsed

instance (s : ReadTask) (e : Event) : Decidable (s.Admitted e) := by
  cases e <;> unfold Admitted <;> infer_instance

/-- An inner loop is repeated: no tokens were granted, or nothing was written, and the task was not
stopped. -/
def Repeats (s : ReadTask) : Event → Prop
  | .tokens => (s.tokenBucket.consumeTokens s.data.length s.timeout s.clock).rv = false ∧
    s.runningCond = true
  | .write rv _ => rv = false ∧ s.runningCond = true
  | _ => False

instance (s : ReadTask) (e : Event) : Decidable (s.Repeats e) := by
  cases e <;> unfold Repeats <;> infer_instance

/-- There is a limit to the number of samples. -/
def Limited (s : ReadTask) : Prop := s.deliveryControl.maxSamples ≠ maxSamplesUnlimited

instance (s : ReadTask) : Decidable s.Limited := by
  unfold Limited; infer_instance

/-- There is a limit to the time. -/
def Timed (s : ReadTask) : Prop := s.deliveryControl.maxElapsedTime ≠ maxElapsedTimeUnlimited

instance (s : ReadTask) : Decidable s.Timed := by
  unfold Timed; infer_instance

/-- Neither inner loop is repeated once the time is over. -/
def InTime (s : ReadTask) (e : Event) : Prop :=
  s.Repeats e → s.Timed → (s.step e).clock ≤ s.finalTime

instance (s : ReadTask) (e : Event) : Decidable (s.InTime e) := by
  unfold InTime; infer_instance

/-- What the delivery control asks for.  The samples are written in the order in which they were
read, each at most once, and no more than were asked for; with the last of them the task is
finished.  Within one timeout after the time is over no call is made any more but the write that
finishes the task. -/
structure Controlled (s : ReadTask) : Prop where
  order : s.writes.Sublist s.reads
  samples_le : s.Limited → s.writes.length ≤ s.deliveryControl.maxSamples.toNat
  samples_done : s.Limited → s.writes.length = s.deliveryControl.maxSamples.toNat →
    s.call = .finished
  clock_le : s.Timed → s.clock ≤ s.finalTime + 1000000 * rwTimeout
  time_over : s.Timed → s.clock > s.finalTime → s.call = .finished ∨
    s.call = .write ∧ ∀ e, e ≠ .stopReading → s.Admitted e → s.InTime e →
      (s.step e).call = .finished

/-! ## What holds along a run -/

/-- A sample that is being written is the last that was read. -/
def Pending (s : ReadTask) : Prop :=
  ∃ before, s.reads = before ++ [s.data] ∧ s.writes.Sublist before

/-- What holds of the time before each call. -/
def InTimeFor (s : ReadTask) : ReadCall → Prop
  | .read => s.clock ≤ s.finalTime ∧ s.timeout = s.nextTimeout
  | .tokens => s.clock ≤ s.finalTime ∧ 0 ≤ s.timeout ∧ s.timeout ≤ rwTimeout
  | .write => s.clock ≤ s.finalTime + 1000000 * rwTimeout ∧ s.timeout = s.nextTimeout
  | .finished => s.clock ≤ s.finalTime + 1000000 * rwTimeout

/-- What holds of a task along the runs. -/
structure Sound (s : ReadTask) : Prop where
  order : s.writes.Sublist s.reads
  pending : s.call = .tokens ∨ s.call = .write → s.Pending
  count_eq : s.Limited → s.messageCount.toNat = s.writes.length
  samples_le : s.Limited → s.writes.length ≤ s.deliveryControl.maxSamples.toNat
  samples_lt : s.Limited → s.call ≠ .finished →
    s.writes.length < s.deliveryControl.maxSamples.toNat
  inTime : s.Timed → s.InTimeFor s.call

variable {s : ReadTask}

/-- The timeouts are at most `rw_timeout`, and end by `final_time` unless it is over. -/
lemma nextTimeout_bounds (s : ReadTask) : s.nextTimeout ≤ rwTimeout ∧
    s.clock + max 0 (1000000 * s.nextTimeout) ≤ max s.clock s.finalTime := by
  have hmillis : s.clock + max 0 (1000000 * TokenBucket.millis (s.finalTime - s.clock)) ≤
      max s.clock s.finalTime := by
    unfold TokenBucket.millis
    rcases le_or_gt 0 (s.finalTime - s.clock) with hge | hlt
    · rw [Int.tdiv_eq_ediv_of_nonneg hge]
      omega
    · have hneg : 0 ≤ (-(s.finalTime - s.clock)).tdiv 1000000 :=
        Int.tdiv_nonneg (by omega) (by decide)
      rw [Int.neg_tdiv] at hneg
      omega
  unfold nextTimeout
  exact ⟨min_le_left _ _, by omega⟩

/-- As long as the time is not over, a timeout is not negative. -/
lemma nextTimeout_nonneg (h : s.clock ≤ s.finalTime) : 0 ≤ s.nextTimeout := by
  have hmillis : 0 ≤ TokenBucket.millis (s.finalTime - s.clock) :=
    Int.tdiv_nonneg (by omega) (by decide)
  exact le_min (by decide) hmillis

/-- `consume_tokens` returns within its timeout. -/
lemma returned_le (bucket : TokenBucket) (required : ℕ) {timeout : ℤ} (now : ℤ)
    (h : 0 ≤ timeout) :
    (bucket.consumeTokens required timeout now).returned ≤ now + 1000000 * timeout := by
  unfold TokenBucket.consumeTokens TokenBucket.finalTime
  split
  · dsimp only
    omega
  · split
    · dsimp only
      split
      all_goals
        dsimp only
        omega
    · dsimp only
      omega

/-- What must hold at the end of a pass. -/
structure Passed (s : ReadTask) : Prop where
  order : s.writes.Sublist s.reads
  count_eq : s.Limited → s.messageCount.toNat = s.writes.length
  samples_le : s.Limited → s.writes.length ≤ s.deliveryControl.maxSamples.toNat
  clock_le : s.Timed → s.clock ≤ s.finalTime + 1000000 * rwTimeout

/-- The next pass begins only when neither limit is reached. -/
lemma Passed.endPass (h : Passed s) : Sound s.endPass := by
  unfold ReadTask.endPass loop
  split
  · next hcond =>
    have hgo := hcond.2
    simp only [decide_eq_true_eq, not_or, not_and, not_lt] at hgo
    refine ⟨h.order, fun hcall => ?_, h.count_eq, h.samples_le, fun hlimited _ => ?_,
      fun htimed => ⟨?_, rfl⟩⟩
    · rcases hcall with hcall | hcall <;> cases hcall
    · refine lt_of_le_of_ne (h.samples_le hlimited) fun heq => ?_
      refine hgo.1 (Ne.symm hlimited) (UInt16.toNat_inj.mp ?_)
      rw [h.count_eq hlimited]
      exact heq
    · exact hgo.2
  · refine ⟨h.order, fun hcall => ?_, h.count_eq, h.samples_le, fun _ hne => (hne rfl).elim,
      h.clock_le⟩
    rcases hcall with hcall | hcall <;> cases hcall

/-- `read_fn` returns. -/
lemma Sound.readFn (h : Sound s) (hcall : s.call = .read) {elapsed : ℤ} (hwithin : s.Within elapsed)
    (answer : Option (List UInt8)) : Sound (s.readFn answer elapsed) := by
  have hclock : s.Timed → s.clock + elapsed ≤ s.finalTime ∧ 0 ≤ s.timeout ∧
      s.timeout ≤ rwTimeout := by
    intro htimed
    have htime := h.inTime htimed
    rw [hcall] at htime
    obtain ⟨hle, htimeout⟩ := htime
    have hbounds := s.nextTimeout_bounds
    have hnonneg := nextTimeout_nonneg hle
    have hupper := hwithin.2
    rw [htimeout] at hupper ⊢
    omega
  cases answer with
  | none =>
    refine Passed.endPass ⟨h.order, h.count_eq, h.samples_le, fun htimed => ?_⟩
    have := (hclock htimed).1
    unfold rwTimeout
    dsimp only
    omega
  | some data =>
    refine ⟨h.order.trans (List.sublist_append_left _ _), fun _ => ⟨s.reads, rfl, h.order⟩,
      h.count_eq, h.samples_le, fun hlimited _ => h.samples_lt hlimited ?_, hclock⟩
    rw [hcall]
    decide

/-- `consume_tokens` returns. -/
lemma Sound.consumeTokens (h : Sound s) (hcall : s.call = .tokens) (hinTime : s.InTime .tokens) :
    Sound s.consumeTokens := by
  have hnotFinished : s.call ≠ .finished := by
    rw [hcall]
    decide
  have hpending := h.pending (.inl hcall)
  have htime : s.Timed → s.clock ≤ s.finalTime ∧ 0 ≤ s.timeout ∧ s.timeout ≤ rwTimeout := by
    intro htimed
    have htime := h.inTime htimed
    rwa [hcall] at htime
  have hreturned : s.Timed →
      (s.tokenBucket.consumeTokens s.data.length s.timeout s.clock).returned ≤
        s.finalTime + 1000000 * rwTimeout := by
    intro htimed
    obtain ⟨hle, hnonneg, hupper⟩ := htime htimed
    have := returned_le s.tokenBucket s.data.length s.clock hnonneg
    omega
  unfold InTime Repeats step at hinTime
  dsimp only at hinTime
  unfold ReadTask.consumeTokens at hinTime ⊢
  dsimp only at hinTime ⊢
  split
  · exact ⟨h.order, fun _ => hpending, h.count_eq, h.samples_le,
      fun hlimited _ => h.samples_lt hlimited hnotFinished, fun htimed => ⟨hreturned htimed, rfl⟩⟩
  · next hrefused =>
    rw [if_neg hrefused] at hinTime
    split
    · next hrunning =>
      rw [if_pos hrunning] at hinTime
      refine ⟨h.order, fun _ => hpending, h.count_eq, h.samples_le,
        fun hlimited _ => h.samples_lt hlimited hnotFinished, fun htimed => ?_⟩
      dsimp only
      rw [hcall]
      exact ⟨hinTime ⟨by simpa using hrefused, hrunning⟩ htimed, (htime htimed).2⟩
    · exact Passed.endPass ⟨h.order, h.count_eq, h.samples_le, hreturned⟩

/-- `write_fn` returns. -/
lemma Sound.writeFn (h : Sound s) (hcall : s.call = .write) {elapsed : ℤ}
    (hwithin : s.Within elapsed) (rv : Bool) :
    Sound (s.writeFn rv elapsed) := by
  have hnotFinished : s.call ≠ .finished := by
    rw [hcall]
    decide
  obtain ⟨before, hreads, hwrites⟩ := h.pending (.inr hcall)
  have hclock : s.Timed → s.clock + elapsed ≤ s.finalTime + 1000000 * rwTimeout := by
    intro htimed
    have htime := h.inTime htimed
    rw [hcall] at htime
    obtain ⟨hle, htimeout⟩ := htime
    have hbounds := s.nextTimeout_bounds
    have hupper := hwithin.2
    rw [htimeout] at hupper
    unfold rwTimeout at hle hbounds ⊢
    omega
  unfold ReadTask.writeFn
  dsimp only
  split
  · have hlt : s.Limited → s.messageCount.toNat + 1 < 65536 := by
      intro hlimited
      have := h.samples_lt hlimited hnotFinished
      have := s.deliveryControl.maxSamples.toNat_lt
      rw [h.count_eq hlimited]
      omega
    refine Passed.endPass ⟨?_, fun hlimited => ?_, fun hlimited => ?_, hclock⟩
    · dsimp only
      rw [hreads]
      exact hwrites.append (List.Sublist.refl _)
    · dsimp only
      rw [UInt16.toNat_add, List.length_append]
      change (s.messageCount.toNat + 1) % 65536 = s.writes.length + 1
      rw [Nat.mod_eq_of_lt (hlt hlimited), h.count_eq hlimited]
    · dsimp only
      rw [List.length_append]
      exact h.samples_lt hlimited hnotFinished
  · split
    · refine ⟨h.order, fun _ => ⟨before, hreads, hwrites⟩, h.count_eq, h.samples_le,
        fun hlimited _ => h.samples_lt hlimited hnotFinished, fun htimed => ?_⟩
      dsimp only
      rw [hcall]
      exact ⟨hclock htimed, rfl⟩
    · exact Passed.endPass ⟨h.order, h.count_eq, h.samples_le, hclock⟩

/-- An event keeps what holds of a task. -/
lemma Sound.step (h : Sound s) {e : Event} (hadmitted : s.Admitted e) (hinTime : s.InTime e) :
    Sound (s.step e) := by
  cases e with
  | stopReading => exact ⟨h.order, h.pending, h.count_eq, h.samples_le, h.samples_lt, h.inTime⟩
  | read answer elapsed => exact h.readFn hadmitted.1 hadmitted.2 answer
  | tokens => exact h.consumeTokens hadmitted hinTime
  | write rv elapsed => exact h.writeFn hadmitted.1 hadmitted.2 rv

/-- A task begins so, unless no sample is asked for. -/
lemma sound_start {deliveryControl : DataDeliveryControl}
    (hsamples : deliveryControl.maxSamples ≠ 0)
    (runningCond : Bool) (now : ℤ) : Sound (start deliveryControl runningCond now) := by
  have hpos : 0 < deliveryControl.maxSamples.toNat := by
    refine Nat.pos_of_ne_zero fun hzero => hsamples (UInt16.toNat_inj.mp ?_)
    rw [hzero]
    rfl
  have htime : deliveryControl.maxElapsedTime ≠ maxElapsedTimeUnlimited →
      now ≤ (if deliveryControl.maxElapsedTime = maxElapsedTimeUnlimited then 9223372036854775807
        else now + 1000000000 * (deliveryControl.maxElapsedTime.toNat : ℤ)) := by
    intro htimed
    rw [if_neg htimed]
    omega
  unfold start loop
  dsimp only
  split
  · refine ⟨List.Sublist.refl _, fun hcall => ?_, fun _ => rfl, fun _ => Nat.zero_le _,
      fun _ _ => hpos, fun htimed => ⟨htime htimed, rfl⟩⟩
    rcases hcall with hcall | hcall <;> cases hcall
  · refine ⟨List.Sublist.refl _, fun hcall => ?_, fun _ => rfl, fun _ => Nat.zero_le _,
      fun _ _ => hpos, fun htimed => ?_⟩
    · rcases hcall with hcall | hcall <;> cases hcall
    · exact (htime htimed).trans (le_add_of_nonneg_right (by decide))

/-- The pass that ends after the time is over is the last. -/
lemma endPass_call (h : s.clock > s.finalTime) : s.endPass.call = .finished := by
  unfold endPass loop
  rw [if_neg]
  intro hcond
  exact hcond.2 (decide_eq_true (.inr h))

/-- Such a task obeys its delivery control. -/
lemma Sound.controlled (h : Sound s) : s.Controlled := by
  refine ⟨h.order, h.samples_le, fun hlimited heq => ?_, fun htimed => ?_, fun htimed hover => ?_⟩
  · by_contra hne
    exact absurd heq (Nat.ne_of_lt (h.samples_lt hlimited hne))
  · have htime := h.inTime htimed
    unfold InTimeFor at htime
    unfold rwTimeout at htime ⊢
    split at htime <;> omega
  · have htime := h.inTime htimed
    rcases hcall : s.call with _ | _ | _ | _
    · rw [hcall] at htime
      exact absurd htime.1 (not_le.mpr hover)
    · rw [hcall] at htime
      exact absurd htime.1 (not_le.mpr hover)
    · refine .inr ⟨rfl, fun e hne hadmitted hinTime => ?_⟩
      cases e with
      | stopReading => exact (hne rfl).elim
      | read answer elapsed =>
        rw [hadmitted.1] at hcall
        cases hcall
      | tokens =>
        rw [show s.call = .tokens from hadmitted] at hcall
        cases hcall
      | write rv elapsed =>
        have hlate : s.clock + elapsed > s.finalTime := by
          have := hadmitted.2.1
          omega
        unfold InTime Repeats ReadTask.step ReadTask.writeFn at hinTime
        unfold ReadTask.step ReadTask.writeFn
        dsimp only at hinTime ⊢
        split
        · exact endPass_call hlate
        · next hrv =>
          split
          · next hrunning =>
            rw [if_neg hrv, if_pos hrunning] at hinTime
            have := hinTime ⟨by simpa using hrv, hrunning⟩ htimed
            exact absurd this (not_le.mpr hlate)
          · exact endPass_call hlate
    · exact .inl rfl

/-- A task obeys its delivery control along every run, unless it asks for no samples or an inner
loop is repeated once the time is over. -/
theorem readTask_controlled (deliveryControl : DataDeliveryControl) (runningCond : Bool) (now : ℤ)
    (hsamples : deliveryControl.maxSamples ≠ 0) (s : ReadTask)
    (h : Transition.Reaches (· = start deliveryControl runningCond now) step
      (fun s e => s.Admitted e ∧ s.InTime e) s) : s.Controlled := by
  refine Sound.controlled (Transition.Reaches.invariant ?_ ?_ h)
  · rintro s rfl
    exact sound_start hsamples runningCond now
  · exact fun s e hs he => hs.step he.1 he.2

/-- One sample is asked for, and arrives. -/
theorem readTask_controlled_one :
    ([Event.read none 100000000, .read (some [1, 2]) 50000000, .tokens, .write false 100000000,
      .write true 0].foldl step (start ⟨1, 1, 0⟩ true 0)).Controlled := by
  have hstart : Transition.Reaches (· = start ⟨1, 1, 0⟩ true 0) step
      (fun s e => s.Admitted e ∧ s.InTime e) (start ⟨1, 1, 0⟩ true 0) := .start rfl
  exact readTask_controlled ⟨1, 1, 0⟩ true 0 (by decide) _ (hstart.foldl _ (by decide +kernel))

/-- When no sample is asked for, one is written.  A sample that the bucket has no tokens for keeps a
task busy for longer than its time. -/
theorem readTask_fails :
    (∃ s, Transition.Reaches (· = start ⟨0, 0, 0⟩ true 0) step Admitted s ∧ ¬ s.Controlled) ∧
    ∃ s, Transition.Reaches (· = start ⟨0xFFFF, 1, 10⟩ true 0) step Admitted s ∧
      ¬ s.Controlled := by
  have hzero : Transition.Reaches (· = start ⟨0, 0, 0⟩ true 0) step Admitted
      (start ⟨0, 0, 0⟩ true 0) := .start rfl
  have htimed : Transition.Reaches (· = start ⟨0xFFFF, 1, 10⟩ true 0) step Admitted
      (start ⟨0xFFFF, 1, 10⟩ true 0) := .start rfl
  refine ⟨⟨_, hzero.foldl [.read (some [1]) 0, .tokens, .write true 0] (by decide +kernel), ?_⟩,
    ⟨_, htimed.foldl (List.replicate 5 (.read none 100000000) ++
      [.read (some (List.replicate 10 0)) 0, .tokens, .write true 0,
        .read (some (List.replicate 10 0)) 0] ++ List.replicate 7 .tokens) (by decide +kernel), ?_⟩⟩
  · intro h
    exact absurd (h.samples_le (by decide +kernel)) (by decide +kernel)
  · intro h
    exact absurd (h.clock_le (by decide +kernel)) (by decide +kernel)

end ReadTask

end XrceDds
