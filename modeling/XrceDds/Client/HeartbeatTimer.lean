import Mathlib.Algebra.Order.Ring.Int
import XrceDds.Client.CounterWindow

/-!
# The heartbeat timer of an output reliable stream

`uxr_update_output_stream_heartbeat_timestamp` moves the deadline of the next heartbeat while
`last_acknown` is behind `last_sent`, and sets it to `INT64_MAX` otherwise.  This file follows
it through every run of a stream, of any history, on a clock that never goes back.

The order of the two numbers is that of `uxr_seq_num_cmp`, which sees it on less than half a
turn.  Up to there a message that waits for its acknowledgement has a deadline
(`heartbeat_rescheduled_iff`); with `2 ^ 15` messages waiting, which a history of that length
admits, the timer says that there is nothing to wait for.
-/

namespace XrceDds

open Transition

/-! ## The arithmetic of one update -/

/-- A value of `int64_t`. -/
def IsInt64 (v : ℤ) : Prop := -9223372036854775808 ≤ v ∧ v ≤ int64Max

/-- The results of the shift, of the subtraction and of the additions that one update of the
timer computes. -/
def heartbeatArithmetic (stream : OutputReliableStream) (currentTimestamp : ℤ) : List ℤ :=
  if 0 > uxrSeqNumCmp stream.lastAcknown stream.lastSent then
    if stream.nextHeartbeatTries = 0 then [currentTimestamp + minHeartbeatTimeInterval]
    else if currentTimestamp ≥ stream.nextHeartbeatTimestamp then
      let increment := minHeartbeatTimeInterval * 2 ^
        (stream.nextHeartbeatTries % maxHeartbeatTries)
      let difference := currentTimestamp - stream.nextHeartbeatTimestamp
      [increment, difference, stream.nextHeartbeatTimestamp +
        (if difference > increment then difference else increment)]
    else []
  else []

/-- How many messages of the stream wait for their acknowledgement. -/
def unacknowledged (stream : OutputReliableStream) : ℕ :=
  seqSteps stream.lastAcknown stream.lastSent

/-! ## Runs -/

/-- A stream and the clock that its timer was last updated with. -/
structure HeartbeatRun where
  stream : OutputReliableStream
  currentTimestamp : ℤ

namespace HeartbeatRun

variable (info : UxrSessionInfo) (streamIdRaw : UInt8)

/-- The run after an event. -/
def step (r : HeartbeatRun) (e : CounterEvent) : HeartbeatRun where
  stream := counterStep info streamIdRaw r.stream e
  currentTimestamp :=
    match e with
    | .heartbeat timestamp => timestamp
    | _ => r.currentTimestamp

/-- ACKNACKs are of a number from `lastAcknown` to `lastSent`, and the clock does not go back.
Nothing is asked of writes. -/
def Admitted (r : HeartbeatRun) : CounterEvent → Prop
  | .acknack _ firstUnackedSeqNum => AcknackOk r.stream firstUnackedSeqNum
  | .heartbeat timestamp => r.currentTimestamp ≤ timestamp ∧ timestamp < 2 ^ 61
  | _ => True

/-- A stream that was just initialised. -/
def Starts (r : HeartbeatRun) : Prop :=
  0 ≤ r.currentTimestamp ∧
    ∃ base, r.stream = uxrInitOutputReliableStream base (uxrSessionHeaderOffset info)

/-- The runs of a stream. -/
def Reached (r : HeartbeatRun) : Prop :=
  Reaches (Starts info) (step info streamIdRaw) Admitted r

end HeartbeatRun

/-! ## What every run keeps -/

/-- The fields that the timer reads. -/
structure SameTimer (stream stream' : OutputReliableStream) : Prop where
  history : stream'.base.history = stream.base.history
  lastSent : stream'.lastSent = stream.lastSent
  lastAcknown : stream'.lastAcknown = stream.lastAcknown
  nextHeartbeatTimestamp : stream'.nextHeartbeatTimestamp = stream.nextHeartbeatTimestamp
  nextHeartbeatTries : stream'.nextHeartbeatTries = stream.nextHeartbeatTries

/-- No more messages wait than the stream has slots, and a timer that is running has a
deadline, which no heartbeat can have moved beyond the range of the clock and one increment. -/
structure TimerInv (stream : OutputReliableStream) : Prop where
  unacknowledged_le : unacknowledged stream ≤ stream.base.history
  running : stream.nextHeartbeatTries ≠ 0 → 0 < unacknowledged stream
  deadline : stream.nextHeartbeatTries ≠ 0 → unacknowledged stream < 32768 →
    0 ≤ stream.nextHeartbeatTimestamp ∧ stream.nextHeartbeatTimestamp < 2 ^ 61 + 2 ^ 62

/-- The code sees that messages wait as long as there are fewer than half a turn. -/
lemma behind_iff (stream : OutputReliableStream) :
    0 > uxrSeqNumCmp stream.lastAcknown stream.lastSent ↔
      0 < unacknowledged stream ∧ unacknowledged stream < 32768 := by
  rw [uxrSeqNumCmp_neg_iff]
  exact SerialNumber.precedes_iff_stepsUp stream.lastAcknown.isLt stream.lastSent.isLt

/-- Messages wait when the two numbers differ. -/
lemma unacknowledged_pos_iff (stream : OutputReliableStream) :
    0 < unacknowledged stream ↔ stream.lastAcknown ≠ stream.lastSent := by
  have ha := stream.lastAcknown.isLt
  have hs := stream.lastSent.isLt
  unfold unacknowledged seqSteps SerialNumber.stepsUp
  rw [Ne, Fin.ext_iff]
  omega

/-- The increment of a heartbeat leaves room for the clock. -/
lemma increment_bounds (tries : ℕ) :
    1 ≤ minHeartbeatTimeInterval * 2 ^ (tries % maxHeartbeatTries) ∧
      minHeartbeatTimeInterval * 2 ^ (tries % maxHeartbeatTries) ≤ 2 ^ 62 := by
  have hmod : tries % maxHeartbeatTries ≤ 62 :=
    Nat.le_of_lt_succ (Nat.mod_lt tries (by decide : 0 < maxHeartbeatTries))
  have hle : (2 : ℤ) ^ (tries % maxHeartbeatTries) ≤ 2 ^ 62 := pow_le_pow_right₀ (by decide) hmod
  have hpos : (1 : ℤ) ≤ 2 ^ (tries % maxHeartbeatTries) := one_le_pow₀ (by decide)
  rw [minHeartbeatTimeInterval, one_mul]
  exact ⟨hpos, hle⟩

/-! ## The slots stay in their number -/

/-- Opening a fragment leaves the number of slots alone. -/
lemma openFragment_history (base : ReliableStream) (seqNum : UxrSeqNum) (fragmentSize : ℕ)
    (flags : UInt8) : (openFragment base seqNum fragmentSize flags).history = base.history := by
  have hbasic : ∀ (base : ReliableStream) (ub : UcdrBuffer) (image : List UInt8),
      (serializeBasic (fun st ub => (st, ub, true)) base ub image).1.history = base.history := by
    intro base ub image
    unfold serializeBasic ucdrCheckFinalBufferBehavior
    split_ifs <;> rfl
  simp only [openFragment, uxrBufferSubmessageHeader, uxrSerializeSubmessageHeader,
    ucdrSerializeUint8, ucdrSerializeLittleUint16, hbasic]

/-- So does the loop over the complete blocks. -/
lemma writeCompleteBlocks_history (availableBlockSize n : ℕ) (base : ReliableStream)
    (seqNum : UxrSeqNum) (fragmentSize : ℕ) :
    (writeCompleteBlocks availableBlockSize n base seqNum fragmentSize).1.history =
      base.history := by
  induction n generalizing base seqNum fragmentSize with
  | zero => rfl
  | succ n ih =>
    rw [writeCompleteBlocks, ih, completeBlock]
    exact openFragment_history base seqNum fragmentSize 0

/-- So does a fragmented write. -/
lemma layFragments_history (stream : OutputReliableStream) (length : ℕ) :
    (layFragments stream length).base.history = stream.base.history := by
  unfold layFragments OutputReliableStream.writtenTo layBlocks
  dsimp only
  rw [uxrSetReliableBufferSize_history, openFragment_history, writeCompleteBlocks_history]

/-- A write of any length leaves the fields of the timer alone. -/
lemma prepareToWrite_sameTimer {stream : OutputReliableStream} {length : ℕ} {ub : UcdrBuffer}
    {r : PrepareResult} (hr : uxrPrepareReliableBufferToWrite stream length ub = some r) :
    SameTimer stream r.stream := by
  unfold uxrPrepareReliableBufferToWrite prepareFragments at hr
  dsimp only at hr
  have hhistory := layFragments_history stream length
  obtain ⟨base, seqNum, heq⟩ := layFragments_eq stream length
  rw [heq] at hr hhistory
  split_ifs at hr <;> cases hr <;> refine ⟨?_, rfl, rfl, rfl, rfl⟩
  all_goals first | rfl | exact hhistory

namespace TimerInv

variable {stream stream' : OutputReliableStream}

/-- The timer starts with nothing to wait for. -/
lemma reset (stream : OutputReliableStream) : TimerInv (uxrResetOutputReliableStream stream) := by
  have hsame : ¬ 0 < unacknowledged (uxrResetOutputReliableStream stream) := fun h =>
    (unacknowledged_pos_iff _).mp h rfl
  constructor
  case unacknowledged_le =>
    exact (Nat.le_of_not_lt hsame).trans (Nat.zero_le _)
  case running => exact fun h => absurd rfl h
  case deadline => exact fun h => absurd rfl h

/-- What leaves the fields of the timer alone keeps the invariant. -/
lemma congr (h : TimerInv stream) (hsame : SameTimer stream stream') : TimerInv stream' := by
  have hcount : unacknowledged stream' = unacknowledged stream := by
    unfold unacknowledged
    rw [hsame.lastAcknown, hsame.lastSent]
  constructor
  case unacknowledged_le =>
    rw [hcount, hsame.history]
    exact h.unacknowledged_le
  case running =>
    rw [hcount, hsame.nextHeartbeatTries]
    exact h.running
  case deadline =>
    rw [hcount, hsame.nextHeartbeatTries, hsame.nextHeartbeatTimestamp]
    exact h.deadline

/-- Sending one more message does not stop the timer. -/
lemma sent (h : TimerInv stream) (hhistory : stream'.base.history = stream.base.history)
    (hacknown : stream'.lastAcknown = stream.lastAcknown)
    (hsent : stream'.lastSent = uxrSeqNumAdd stream.lastSent 1)
    (htimestamp : stream'.nextHeartbeatTimestamp = stream.nextHeartbeatTimestamp)
    (htries : stream'.nextHeartbeatTries = stream.nextHeartbeatTries)
    (hroom : unacknowledged stream ≠ stream.base.history) : TimerInv stream' := by
  have hle := h.unacknowledged_le
  have hlt := stream.base.history_lt
  have hcount : unacknowledged stream' = unacknowledged stream + 1 := by
    unfold unacknowledged at *
    rw [hacknown, hsent]
    unfold seqSteps SerialNumber.stepsUp uxrSeqNumAdd at *
    dsimp only
    omega
  constructor
  case unacknowledged_le =>
    rw [hcount, hhistory]
    omega
  case running =>
    rw [hcount]
    exact fun _ => Nat.succ_pos _
  case deadline =>
    rw [hcount, htries, htimestamp]
    exact fun hne hfew => h.deadline hne (by omega)

/-- One turn of the sending loop keeps the invariant. -/
lemma sendNextBuffer (h : TimerInv stream) (info : UxrSessionInfo) (streamIdRaw : UInt8) :
    TimerInv (sendNextBuffer info streamIdRaw stream) := by
  unfold XrceDds.sendNextBuffer
  dsimp only
  by_cases hsend : (uxrPrepareNextReliableBufferToSend stream).dataToSend
  · have hroom := (of_decide_eq_true hsend).2.2
    rw [uxrSeqNumSub_eq_seqSteps] at hroom
    have hnext : (uxrPrepareNextReliableBufferToSend stream).stream = _ := if_pos hsend
    rw [if_pos hsend, hnext]
    exact h.sent rfl rfl rfl rfl rfl hroom
  · have hnext : (uxrPrepareNextReliableBufferToSend stream).stream = stream := if_neg hsend
    rw [if_neg hsend, hnext]
    exact h

/-- An ACKNACK starts the back-off over. -/
lemma acknack (h : TimerInv stream) (bitmap : ℕ) {firstUnackedSeqNum : UxrSeqNum}
    (hok : AcknackOk stream firstUnackedSeqNum) :
    TimerInv (uxrProcessAcknack stream bitmap firstUnackedSeqNum) := by
  have hle := h.unacknowledged_le
  have hsent := seqOf_add_seqSteps stream.lastAcknown.val stream.lastSent
  rw [seqOf_self] at hsent
  unfold AcknackOk at hok
  obtain ⟨d, hd⟩ : ∃ d, d = seqSteps stream.lastAcknown (uxrSeqNumSub firstUnackedSeqNum 1) :=
    ⟨_, rfl⟩
  rw [← hd] at hok
  obtain ⟨-, hhistory, -, hs, -⟩ := OutputWindow.cleanBuffers_frame d stream
  have ha := OutputWindow.cleanBuffers_lastAcknown d stream (seqOf_self stream.lastAcknown).symm
  have hlt := seqSteps_lt stream.lastAcknown stream.lastSent
  have hcount : unacknowledged (cleanBuffers d stream) = unacknowledged stream - d := by
    obtain ⟨rest, hrest⟩ := Nat.exists_eq_add_of_le hok
    have hlast : (cleanBuffers d stream).lastSent =
        seqOf (stream.lastAcknown.val + d + rest) := by rw [hs, Nat.add_assoc, ← hrest, hsent]
    unfold unacknowledged
    rw [ha, hlast, seqSteps_seqOf _ (by omega), hrest, Nat.add_sub_cancel_left]
  rw [uxrProcessAcknack_eq, ← hd]
  constructor
  case unacknowledged_le =>
    change unacknowledged (cleanBuffers d stream) ≤ (cleanBuffers d stream).base.history
    rw [hcount, hhistory]
    omega
  case running => exact fun hne => absurd rfl hne
  case deadline => exact fun hne => absurd rfl hne

/-- The update of the timer keeps the invariant. -/
lemma heartbeat (h : TimerInv stream) {timestamp : ℤ} (hpos : 0 ≤ timestamp)
    (hlt : timestamp < 2 ^ 61) :
    TimerInv (uxrUpdateOutputStreamHeartbeatTimestamp stream timestamp).1 := by
  have hincrement := increment_bounds stream.nextHeartbeatTries
  have hmin : minHeartbeatTimeInterval = 1 := rfl
  unfold uxrUpdateOutputStreamHeartbeatTimestamp
  dsimp only
  split
  · next hbehind =>
    obtain ⟨hwaits, hfew⟩ := (behind_iff stream).mp hbehind
    split
    · exact ⟨h.unacknowledged_le, fun _ => hwaits, fun _ _ => by dsimp only; omega⟩
    · next hrunning =>
      have hdeadline := h.deadline hrunning hfew
      split
      · refine ⟨h.unacknowledged_le, fun _ => hwaits, fun _ _ => ?_⟩
        dsimp only
        split <;> omega
      · exact h
  · next hnot =>
    refine ⟨h.unacknowledged_le, h.running, fun hrunning hfew => ?_⟩
    exact absurd ((behind_iff stream).mpr ⟨h.running hrunning, hfew⟩) hnot

end TimerInv

/-! ## Every run -/

namespace HeartbeatRun

variable {info : UxrSessionInfo} {streamIdRaw : UInt8} {r : HeartbeatRun}

/-- The timer is in order and the clock in its range, whatever happened. -/
lemma Reached.timerInv (h : Reached info streamIdRaw r) :
    TimerInv r.stream ∧ 0 ≤ r.currentTimestamp := by
  refine h.invariant (I := fun r => TimerInv r.stream ∧ 0 ≤ r.currentTimestamp) ?_ ?_
  · rintro r ⟨hclock, base, hstream⟩
    rw [hstream]
    exact ⟨TimerInv.reset _, hclock⟩
  · rintro r e ⟨hinv, hclock⟩ hadmitted
    cases e with
    | write length ub =>
      refine ⟨?_, hclock⟩
      unfold step counterStep
      dsimp only
      split
      · next result hresult => exact hinv.congr (prepareToWrite_sameTimer hresult)
      · exact hinv
    | serialize seqNum o bytes => exact ⟨hinv.congr ⟨rfl, rfl, rfl, rfl, rfl⟩, hclock⟩
    | send => exact ⟨hinv.sendNextBuffer info streamIdRaw, hclock⟩
    | acknack bitmap firstUnackedSeqNum => exact ⟨hinv.acknack bitmap hadmitted, hclock⟩
    | nack seqNumIt =>
      refine ⟨hinv.congr ?_, hclock⟩
      unfold step counterStep uxrNextReliableNackBufferToSend
      dsimp only
      split
      · split <;> exact ⟨rfl, rfl, rfl, rfl, rfl⟩
      · exact ⟨rfl, rfl, rfl, rfl, rfl⟩
    | heartbeat timestamp =>
      have hpos := hclock.trans hadmitted.1
      exact ⟨hinv.heartbeat hpos hadmitted.2, hpos⟩
    | reset => exact ⟨TimerInv.reset _, hclock⟩

end HeartbeatRun

/-- Nothing that an update of the timer computes leaves the range of `int64_t`. -/
lemma TimerInv.arithmetic_isInt64 {stream : OutputReliableStream} (h : TimerInv stream)
    {timestamp : ℤ} (hpos : 0 ≤ timestamp) (hlt : timestamp < 2 ^ 61) :
    ∀ v ∈ heartbeatArithmetic stream timestamp, IsInt64 v := by
  have hincrement := increment_bounds stream.nextHeartbeatTries
  have hmin : minHeartbeatTimeInterval = 1 := rfl
  have hmax : int64Max = 9223372036854775807 := rfl
  unfold heartbeatArithmetic IsInt64
  split
  · next hbehind =>
    split
    · simp only [List.mem_singleton, forall_eq]
      omega
    · next hrunning =>
      have hdeadline := h.deadline hrunning ((behind_iff stream).mp hbehind).2
      split
      · simp only [List.mem_cons, List.not_mem_nil, or_false, forall_eq_or_imp, forall_eq]
        split <;> omega
      · exact fun v hv => absurd hv List.not_mem_nil
  · exact fun v hv => absurd hv List.not_mem_nil

/-- After an update, a deadline that is not behind the clock is set exactly when the code sees
that messages wait. -/
lemma TimerInv.deadline_iff {stream : OutputReliableStream} (h : TimerInv stream)
    {timestamp : ℤ} (hpos : 0 ≤ timestamp) (hlt : timestamp < 2 ^ 61) :
    (uxrUpdateOutputStreamHeartbeatTimestamp stream timestamp).1.nextHeartbeatTimestamp ≠
          int64Max ∧
        timestamp ≤
          (uxrUpdateOutputStreamHeartbeatTimestamp stream timestamp).1.nextHeartbeatTimestamp ↔
      0 < unacknowledged stream ∧ unacknowledged stream < 32768 := by
  have hincrement := increment_bounds stream.nextHeartbeatTries
  have hmin : minHeartbeatTimeInterval = 1 := rfl
  have hmax : int64Max = 9223372036854775807 := rfl
  rw [← behind_iff]
  unfold uxrUpdateOutputStreamHeartbeatTimestamp
  dsimp only
  split
  · next hbehind =>
    refine iff_of_true ?_ hbehind
    split
    · dsimp only
      omega
    · next hrunning =>
      have hdeadline := h.deadline hrunning ((behind_iff stream).mp hbehind).2
      split
      · dsimp only
        split <;> omega
      · dsimp only
        omega
  · next hnot => exact iff_of_false (fun hset => hset.1 rfl) hnot

/-- In every run of a stream, whatever its history and however often it retries: no operation of
an update overflows, and while messages wait for their acknowledgement the update leaves a
deadline that is finite and not behind the clock, exactly when fewer than `2 ^ 15` of them
wait. -/
theorem heartbeat_rescheduled_iff {info : UxrSessionInfo} {streamIdRaw : UInt8}
    {r : HeartbeatRun} (h : HeartbeatRun.Reached info streamIdRaw r) {timestamp : ℤ}
    (hadmitted : r.Admitted (.heartbeat timestamp)) :
    (∀ v ∈ heartbeatArithmetic r.stream timestamp, IsInt64 v) ∧
    ((r.stream.lastAcknown ≠ r.stream.lastSent →
        (uxrUpdateOutputStreamHeartbeatTimestamp r.stream timestamp).1.nextHeartbeatTimestamp ≠
            int64Max ∧
          timestamp ≤ (uxrUpdateOutputStreamHeartbeatTimestamp r.stream
            timestamp).1.nextHeartbeatTimestamp) ↔
      unacknowledged r.stream < 32768) := by
  obtain ⟨hinv, hclock⟩ := h.timerInv
  have hpos := hclock.trans hadmitted.1
  refine ⟨hinv.arithmetic_isInt64 hpos hadmitted.2, ?_⟩
  rw [hinv.deadline_iff hpos hadmitted.2, ← unacknowledged_pos_iff]
  omega

/-- A stream of two slots. -/
def twoSlotsTimer : HeartbeatRun :=
  ⟨uxrInitOutputReliableStream (twoSlots 16 sixteen_lt) (uxrSessionHeaderOffset keylessSession), 0⟩

/-- One message was sent, and the timer runs. -/
theorem heartbeat_rescheduled_iff_sent :
    ∃ r : HeartbeatRun, r.stream.lastAcknown ≠ r.stream.lastSent ∧
      ((∀ v ∈ heartbeatArithmetic r.stream 9, IsInt64 v) ∧
      ((r.stream.lastAcknown ≠ r.stream.lastSent →
          (uxrUpdateOutputStreamHeartbeatTimestamp r.stream 9).1.nextHeartbeatTimestamp ≠
              int64Max ∧
            9 ≤ (uxrUpdateOutputStreamHeartbeatTimestamp r.stream 9).1.nextHeartbeatTimestamp) ↔
        unacknowledged r.stream < 32768)) := by
  have hreached : HeartbeatRun.Reached keylessSession 128
      ([.write 8 (ucdrInitBuffer 0 0), .send, .heartbeat 4].foldl
        (HeartbeatRun.step keylessSession 128) twoSlotsTimer) :=
    (Reaches.start ⟨by decide, _, rfl⟩).foldl _
      ⟨trivial, trivial, ⟨by decide, by decide⟩, trivial⟩
  exact ⟨_, by decide, heartbeat_rescheduled_iff hreached ⟨by decide, by decide⟩⟩

/-! ## A window of half a turn -/

/-- A buffer of zeros with `2 ^ 15` slots of sixteen bytes. -/
def manySlots : ReliableStream where
  buffer := fun _ => 0
  size := 32768 * 20
  history := 32768
  history_pos := by decide
  history_lt := by decide
  slot_ge := by decide
  slot_lt := by decide

/-- Messages of eight bytes are written into these slots and sent, one after the other. -/
def sentMessages : ℕ → OutputReliableStream
  | 0 => uxrInitOutputReliableStream manySlots (uxrSessionHeaderOffset keylessSession)
  | n + 1 => counterStep keylessSession 128
      (counterStep keylessSession 128 (sentMessages n) (.write 8 (ucdrInitBuffer 0 0))) .send

/-- The window of these messages: they take one slot each, as long as there is one. -/
structure SentWindow (n : ℕ) (stream : OutputReliableStream) : Prop where
  window : CounterWindow stream 65535 (65535 + n) (65536 + n)
  history_eq : stream.base.history = 32768
  capacity_eq : uxrGetReliableBufferCapacity stream.base = 16
  offset_eq : stream.offset = 4
  current : n < 32768 →
    uxrGetReliableBufferSize stream.base (seqOf (65536 + n)) = stream.offset

/-- A new stream has the slots of its buffer. -/
lemma uxrInitOutputReliableStream_slots (base : ReliableStream) (headerOffset : ℕ) :
    (uxrInitOutputReliableStream base headerOffset).base.history = base.history ∧
      uxrGetReliableBufferCapacity (uxrInitOutputReliableStream base headerOffset).base =
        uxrGetReliableBufferCapacity base := by
  obtain ⟨hsize, hhistory⟩ := OutputWindow.setAllSizes_frame headerOffset base.history base
  refine ⟨hhistory, ?_⟩
  change uxrGetReliableBufferCapacity (setAllSizes headerOffset base.history base) = _
  unfold uxrGetReliableBufferCapacity
  rw [hsize, hhistory]

/-- The first message finds an empty window. -/
lemma sentWindow_start : SentWindow 0 (sentMessages 0) := by
  obtain ⟨hhistory, hcapacity⟩ := uxrInitOutputReliableStream_slots manySlots
    (uxrSessionHeaderOffset keylessSession)
  constructor
  case window => exact CounterWindow.reset _ (by decide)
  case history_eq => exact hhistory
  case capacity_eq => exact hcapacity.trans (by decide)
  case offset_eq => rfl
  case current => exact fun _ => PlainWindow.reset_bufferSize _ (by decide) _

/-- The message in the current slot is sent. -/
lemma sentWindow_send {n : ℕ} {stream : OutputReliableStream} (hn : n < 32768)
    (h : CounterWindow stream 65535 (65535 + n) (65536 + n))
    (hhistory : stream.base.history = 32768)
    (hcapacity : uxrGetReliableBufferCapacity stream.base = 16) (hoffset : stream.offset = 4)
    (hsize : uxrGetReliableBufferSize stream.base (seqOf (65536 + n)) = 12) :
    SentWindow (n + 1) (counterStep keylessSession 128 stream .send) := by
  have hnext : 65535 + n + 1 = 65536 + n := by omega
  have hsend : (uxrPrepareNextReliableBufferToSend stream).dataToSend = true := by
    unfold uxrPrepareNextReliableBufferToSend
    refine decide_eq_true ⟨?_, ?_, ?_⟩
    · rw [h.lastSent_eq, h.lastWritten_eq, uxrSeqNumAdd_seqOf, hnext]
      exact (uxrSeqNumCmp_seqOf_nonpos (by omega) (by omega)).mpr le_rfl
    · rw [h.lastSent_eq, uxrSeqNumAdd_seqOf, hnext, hsize, hoffset]
      decide
    · rw [h.lastSent_eq, h.lastAcknown_eq, uxrSeqNumSub_seqOf_val (by omega), hhistory]
      omega
  obtain ⟨hwindow, hlength, heq⟩ := OutputWindow.prepareNext_of_positions h.lastAcknown_eq
    h.lastSent_eq h.lastWritten_eq h.acknown_le h.sent_lt h.written_le hsend
  have hsent := h.sentNext hwindow hlength
  have hwritten : OutputWindow.writtenAfterSend (65535 + n) (65536 + n) = 65536 + (n + 1) :=
    if_pos hnext
  rw [hwritten] at hsent
  have hroom : uxrGetReliableBuffer stream.base (seqOf (65535 + n + 1)) +
      (messageHeader keylessSession 128 (seqOf (65535 + n + 1))).length ≤
        uxrGetReliableBuffer stream.base (seqOf (65535 + n + 1)) +
          uxrGetReliableBufferCapacity stream.base := by
    rw [length_messageHeader, hcapacity]
    exact Nat.add_le_add_left (by decide) _
  have hstored := hsent.store (i := seqOf (65535 + n + 1)) le_rfl hroom
  unfold counterStep sendNextBuffer
  rw [heq]
  refine ⟨hstored, hhistory, hcapacity, hoffset, fun hmore => ?_⟩
  exact (uxrGetReliableBufferSize_store stream.base le_rfl hroom).trans
    (h.empty (65536 + (n + 1)) (by omega) (by rw [hhistory]; omega))

/-- One more message is written and sent. -/
lemma SentWindow.next {n : ℕ} {stream : OutputReliableStream} (h : SentWindow n stream)
    (hn : n < 32768) :
    SentWindow (n + 1) (counterStep keylessSession 128
      (counterStep keylessSession 128 stream (.write 8 (ucdrInitBuffer 0 0))) .send) := by
  have hcurrent := h.current hn
  have hopens : PlainWindow.Opens stream 65535 (65536 + n) (65536 + n) :=
    ⟨le_rfl, by omega, by rw [h.history_eq]; omega, fun hw => absurd hw (by omega)⟩
  have hfits : uxrGetReliableBufferSize stream.base (seqOf (65536 + n)) + 8 ≤
      uxrGetReliableBufferCapacity stream.base := by
    rw [hcurrent, h.offset_eq, h.capacity_eq]
    omega
  have hwrite : counterStep keylessSession 128 stream (.write 8 (ucdrInitBuffer 0 0)) =
      (PlainWindow.reservedIn stream (65536 + n) 8).stream := by
    have hcapacity := h.capacity_eq
    have hoffset := h.offset_eq
    have hsum : sizeT (uxrGetReliableBufferSize stream.base (seqOf (65536 + n)) + 8) =
        uxrGetReliableBufferSize stream.base (seqOf (65536 + n)) + 8 :=
      Nat.mod_eq_of_lt (by omega)
    have hcmp : 0 ≥ uxrSeqNumCmp (seqOf (65536 + n)) (seqOf (65535 + 32768)) :=
      (uxrSeqNumCmp_seqOf_nonpos (by omega) (by omega)).mpr (by omega)
    unfold counterStep uxrPrepareReliableBufferToWrite
    simp only [h.window.lastWritten_eq, h.window.lastAcknown_eq, h.history_eq,
      uxrSeqNumAdd_seqOf, hsum]
    rw [if_pos hfits, if_pos hcmp]
    unfold PlainWindow.reservedIn OutputReliableStream.writtenTo
    dsimp only
    rw [h.window.lastAcknown_eq]
  have hwindow := h.window.reserve hopens hfits (fun hw => absurd hw (Nat.lt_irrefl _))
  have hsize : uxrGetReliableBufferSize (PlainWindow.reservedIn stream (65536 + n) 8).stream.base
      (seqOf (65536 + n)) = 12 := by
    change uxrGetReliableBufferSize (uxrSetReliableBufferSize stream.base _ _) _ = 12
    rw [uxrGetReliableBufferSize_setSize_same _ (by rw [hcurrent, h.offset_eq]; decide), hcurrent,
      h.offset_eq]
  rw [hwrite]
  obtain ⟨stream', hstream'⟩ : ∃ s, s = (PlainWindow.reservedIn stream (65536 + n) 8).stream :=
    ⟨_, rfl⟩
  have hhistory : stream'.base.history = 32768 := by
    rw [hstream']
    exact h.history_eq
  have hcapacity : uxrGetReliableBufferCapacity stream'.base = 16 := by
    rw [hstream']
    exact h.capacity_eq
  have hoffset : stream'.offset = 4 := by
    rw [hstream']
    exact h.offset_eq
  rw [← hstream'] at hwindow hsize ⊢
  exact sentWindow_send hn hwindow hhistory hcapacity hoffset hsize

/-- Half a turn of messages waits. -/
lemma sentMessages_window (n : ℕ) (hn : n ≤ 32768) : SentWindow n (sentMessages n) := by
  induction n with
  | zero => exact sentWindow_start
  | succ n ih => exact (ih (by omega)).next (by omega)

/-- The runs that send them. -/
lemma sentMessages_reached (n : ℕ) :
    HeartbeatRun.Reached keylessSession 128 ⟨sentMessages n, 0⟩ := by
  induction n with
  | zero => exact .start ⟨le_rfl, _, rfl⟩
  | succ n ih =>
    rw [sentMessages]
    obtain ⟨stream, hstream⟩ : ∃ stream, stream = sentMessages n := ⟨_, rfl⟩
    rw [← hstream] at ih ⊢
    have hwritten : HeartbeatRun.Reached keylessSession 128
        ⟨counterStep keylessSession 128 stream (.write 8 (ucdrInitBuffer 0 0)), 0⟩ :=
      ih.next (e := CounterEvent.write 8 (ucdrInitBuffer 0 0)) trivial
    obtain ⟨written, heq⟩ :
        ∃ w, w = counterStep keylessSession 128 stream (.write 8 (ucdrInitBuffer 0 0)) := ⟨_, rfl⟩
    rw [← heq] at hwritten ⊢
    exact hwritten.next (e := CounterEvent.send) trivial

/-- A history of `2 ^ 15` messages that were all sent: the update sets the deadline to
`INT64_MAX`, with no message acknowledged. -/
theorem heartbeat_rescheduled_fails :
    ¬ ∀ (info : UxrSessionInfo) (streamIdRaw : UInt8) (r : HeartbeatRun) (timestamp : ℤ),
      HeartbeatRun.Reached info streamIdRaw r → r.Admitted (.heartbeat timestamp) →
      r.stream.lastAcknown ≠ r.stream.lastSent →
      (uxrUpdateOutputStreamHeartbeatTimestamp r.stream timestamp).1.nextHeartbeatTimestamp ≠
        int64Max := by
  intro h
  have hwindow := (sentMessages_window 32768 le_rfl).window
  have hreached := sentMessages_reached 32768
  obtain ⟨stream, hstream⟩ : ∃ stream, stream = sentMessages 32768 := ⟨_, rfl⟩
  rw [← hstream] at hwindow hreached
  refine h keylessSession 128 ⟨stream, 0⟩ 1 hreached ⟨Int.one_nonneg, by decide⟩ ?_ ?_
  · change stream.lastAcknown ≠ stream.lastSent
    rw [hwindow.lastAcknown_eq, hwindow.lastSent_eq]
    decide
  · have hnot : ¬ 0 > uxrSeqNumCmp stream.lastAcknown stream.lastSent := by
      rw [hwindow.lastAcknown_eq, hwindow.lastSent_eq]
      decide
    unfold uxrUpdateOutputStreamHeartbeatTimestamp
    rw [if_neg hnot]

end XrceDds
