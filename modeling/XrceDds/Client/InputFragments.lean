import XrceDds.Client.InputWindow
import XrceDds.Client.FragmentBlocks
import XrceDds.Client.OutputSafety
import XrceDds.Lib.Transition

/-!
# Fragments in an input reliable stream

A stream receives messages of every kind, is told of others by heartbeats, has its messages
read and is reset (`InputRun.step`).  A fragmented message is read from one slot to the next
with `on_full_input_buffer`, which empties a slot only when `cleanup_flag` is set.

`check_last_fragment` goes on over intermediate FRAGMENTs, and nothing else bounds it.  It ends
within one turn of the slots as long as no message fills the last slot of a window of them
(`InputRun.Admitted`), and what it finds are FRAGMENTs that were received one behind the other
as long as no slot keeps a FRAGMENT of a message that was read (`checkLastFragment_ends`).
-/

namespace XrceDds

open ByteMemory

/-- `onFullInputBuffer` for one slot after another, with what `cleanup_flag` is set to. -/
def crossBuffers : List Bool → InputReliableStream → UcdrBuffer → InputReliableStream
  | [], stream, _ => stream
  | cleanup :: cleanups, stream, ub =>
    let r := onFullInputBuffer { stream with cleanupFlag := cleanup } ub
    crossBuffers cleanups r.1 r.2.1

/-- A stream, the number of messages that it has handed over, and the messages that it has taken
with their positions in the order of the sender. -/
structure InputRun where
  stream : InputReliableStream
  handled : ℕ
  received : List (ℕ × List UInt8)

/-- What can happen to a stream.  `next` is a message that is looked for and read. -/
inductive InputEvent where
  | message (seqNum : UxrSeqNum) (body : List UInt8)
  | next (cleanups : List Bool)
  | heartbeat (firstSeqNum lastSeqNum : UxrSeqNum)
  | reset

/-- A stream slot holds an intermediate FRAGMENT. -/
def IntermediateAt (base : ReliableStream) (seqNum : UxrSeqNum) : Prop :=
  uxrGetReliableBufferSize base seqNum ≠ 0 ∧
    onGetFragmentationInfo (slotHeader base seqNum) = .intermediateFragment

instance (base : ReliableStream) (seqNum : UxrSeqNum) : Decidable (IntermediateAt base seqNum) :=
  inferInstanceAs (Decidable (_ ∧ _))

/-- A stream slot holds the last FRAGMENT of a message. -/
def LastAt (base : ReliableStream) (seqNum : UxrSeqNum) : Prop :=
  uxrGetReliableBufferSize base seqNum ≠ 0 ∧
    onGetFragmentationInfo (slotHeader base seqNum) = .lastFragment

instance (base : ReliableStream) (seqNum : UxrSeqNum) : Decidable (LastAt base seqNum) :=
  inferInstanceAs (Decidable (_ ∧ _))

namespace InputRun

/-- The number that is `i` behind the last one that was handed over. -/
def ahead (run : InputRun) (i : ℕ) : UxrSeqNum := uxrSeqNumAdd run.stream.lastHandled i

/-- The position of a number. -/
def position (run : InputRun) (seqNum : UxrSeqNum) : ℕ :=
  run.handled + seqSteps run.stream.lastHandled seqNum - 1

/-- The run with another stream. -/
def withStream (run : InputRun) (stream : InputReliableStream) : InputRun :=
  { run with
    stream := stream
    handled := run.handled + seqSteps run.stream.lastHandled stream.lastHandled }

/-- The result of `uxr_receive_reliable_message`. -/
def receive (run : InputRun) (seqNum : UxrSeqNum) (body : List UInt8) (r : ReceiveResult) :
    InputRun :=
  let taken := r.messageStored ∨ r.stream.lastHandled ≠ run.stream.lastHandled
  { run.withStream r.stream with
    received := if taken then (run.position seqNum, body) :: run.received else run.received }

/-- What an event does.  A call that does not end has no result. -/
def step (run : InputRun) : InputEvent → InputRun
  | .message seqNum body =>
    match uxrReceiveReliableMessage run.stream seqNum body with
    | some r => run.receive seqNum body r
    | none => run
  | .next cleanups =>
    match uxrNextInputReliableBufferAvailable run.stream subheaderSize with
    | some (stream, some ub) =>
      run.withStream (if ub.onFullBuffer then crossBuffers cleanups stream ub else stream)
    | some (stream, none) => run.withStream stream
    | none => run
  | .heartbeat firstSeqNum lastSeqNum =>
    run.withStream (uxrProcessHeartbeat run.stream firstSeqNum lastSeqNum)
  | .reset => ⟨uxrResetInputReliableStream run.stream, 0, []⟩

/-- A message does not fill the last slot of a window of intermediate FRAGMENTs with one more. -/
def LeavesRoom (run : InputRun) (seqNum : UxrSeqNum) (body : List UInt8) : Prop :=
  onGetFragmentationInfo body = .intermediateFragment →
    uxrGetReliableBufferSize run.stream.base seqNum = 0 →
      ∃ i < run.stream.base.history, run.ahead (i + 1) ≠ seqNum ∧
        ¬ IntermediateAt run.stream.base (run.ahead (i + 1))

/-- The next message is not sent once as a FRAGMENT and once as a whole. -/
def Consistent (run : InputRun) (seqNum : UxrSeqNum) (body : List UInt8) : Prop :=
  onGetFragmentationInfo body = .noFragmented → seqNum = run.ahead 1 →
    uxrGetReliableBufferSize run.stream.base seqNum = 0

/-- The FRAGMENTs behind the first one of a message that is read are all reached, with
`cleanup_flag` set. -/
def ReadsAll (run : InputRun) (cleanups : List Bool) : Prop :=
  ∀ m < run.stream.base.history,
    (∀ j < m, IntermediateAt run.stream.base (run.ahead (j + 1))) →
      LastAt run.stream.base (run.ahead (m + 1)) →
        cleanups.take m = List.replicate m true

/-- A message that is read is read no further than to its end. -/
def ReadsNoFurther (run : InputRun) (cleanups : List Bool) : Prop :=
  ∀ m < run.stream.base.history,
    (∀ j < m, IntermediateAt run.stream.base (run.ahead (j + 1))) →
      LastAt run.stream.base (run.ahead (m + 1)) → cleanups.length ≤ m

/-- What is admitted: messages that have a header and fit a slot, leave room and are consistent,
and messages that are read to their end. -/
def Admitted (run : InputRun) : InputEvent → Prop
  | .message seqNum body =>
    subheaderSize ≤ body.length ∧ body.length ≤ uxrGetReliableBufferCapacity run.stream.base ∧
      run.LeavesRoom seqNum body ∧ run.Consistent seqNum body
  | .next cleanups => run.ReadsAll cleanups
  | .heartbeat _ _ => True
  | .reset => True

/-- The streams with a history that divides the number of sequence numbers, and with slots for
more than a header. -/
def Starts (run : InputRun) : Prop :=
  ∃ base : ReliableStream, base.history ∣ 65536 ∧
    subheaderSize < uxrGetReliableBufferCapacity base ∧
    run = ⟨uxrInitInputReliableStream base, 0, []⟩

/-- The slot of a number holds a message. -/
def Holds (base : ReliableStream) (seqNum : UxrSeqNum) (body : List UInt8) : Prop :=
  uxrGetReliableBufferSize base seqNum = body.length ∧
    slotBytes base seqNum 0 body.length = body

/-- The scan ends within one turn of the slots, and when it finds the last FRAGMENT, the slots up
to it hold FRAGMENTs that were received with consecutive numbers. -/
structure ScanEnds (run : InputRun) : Prop where
  number : run.stream.lastHandled = seqOf (65535 + run.handled)
  ends : (checkLastFragmentLoop run.stream.base run.stream.base.history
    run.stream.lastHandled).isSome = true
  fragments : ∀ last, checkLastFragment run.stream = some (some last) →
    ∃ m < run.stream.base.history, last = run.ahead (m + 1) ∧ ∀ j ≤ m,
      ∃ body, (run.handled + j, body) ∈ run.received ∧
        Holds run.stream.base (run.ahead (j + 1)) body ∧
        onGetFragmentationInfo body = if j < m then .intermediateFragment else .lastFragment

end InputRun

/-! ## The scan -/

/-- More steps do not change where a scan ends. -/
lemma checkLastFragmentLoop_mono {base : ReliableStream} {n : ℕ} {next : UxrSeqNum}
    {r : Option UxrSeqNum} (h : checkLastFragmentLoop base n next = some r) (k : ℕ) :
    checkLastFragmentLoop base (n + k) next = some r := by
  induction n generalizing next with
  | zero => cases h
  | succ n ih =>
    rw [Nat.add_right_comm, checkLastFragmentLoop]
    rw [checkLastFragmentLoop] at h
    split at h
    · next hempty => rw [if_pos hempty, h]
    · next hempty =>
      rw [if_neg hempty]
      split at h
      · exact h
      · exact ih h
      · exact h

/-- A scan over intermediate FRAGMENTs ends at a slot that holds none. -/
lemma checkLastFragmentLoop_spec (base : ReliableStream) {n d X : ℕ} (hd : d < n)
    (hopen : ¬ IntermediateAt base (seqOf (X + d + 1))) :
    ∃ r, checkLastFragmentLoop base n (seqOf X) = some r ∧ ∀ last, r = some last →
      ∃ m ≤ d, last = seqOf (X + m + 1) ∧ LastAt base last ∧
        ∀ j < m, IntermediateAt base (seqOf (X + j + 1)) := by
  induction n generalizing d X with
  | zero => omega
  | succ n ih =>
    rw [checkLastFragmentLoop]
    simp only [uxrSeqNumAdd_seqOf]
    split
    · exact ⟨none, rfl, fun last h => by cases h⟩
    · next hused =>
      cases hinfo : onGetFragmentationInfo (slotHeader base (seqOf (X + 1))) with
      | noFragmented => exact ⟨none, rfl, fun last h => by cases h⟩
      | lastFragment =>
        refine ⟨_, rfl, fun last h => ?_⟩
        obtain rfl := Option.some.inj h
        exact ⟨0, Nat.zero_le d, rfl, ⟨Ne.symm hused, hinfo⟩, fun j hj => by omega⟩
      | intermediateFragment =>
        cases d with
        | zero => exact (hopen ⟨Ne.symm hused, hinfo⟩).elim
        | succ d =>
          obtain ⟨r, hr, hlast⟩ := ih (X := X + 1) (d := d) (by omega)
            (by rwa [Nat.add_right_comm X 1 d])
          refine ⟨r, hr, fun last h => ?_⟩
          obtain ⟨m, hm, heq, hat, hbefore⟩ := hlast last h
          refine ⟨m + 1, by omega, by rw [heq, Nat.add_right_comm X 1 m]; rfl, hat, ?_⟩
          intro j hj
          cases j with
          | zero => exact ⟨Ne.symm hused, hinfo⟩
          | succ j =>
            have hj' := hbefore j (by omega)
            rwa [Nat.add_right_comm X 1 j] at hj'

/-! ## The numbers of a window -/

section Window

variable {history n j k : ℕ}

/-- The numbers of a window have different slots. -/
lemma seqOf_mod_ne (hdvd : history ∣ 65536) (hj : n ≤ j) (hj' : j < n + history) (hk : n ≤ k)
    (hk' : k < n + history) (hne : j ≠ k) : (seqOf j).val % history ≠ (seqOf k).val % history := by
  intro heq
  change slotOf history j = slotOf history k at heq
  rw [slotOf_of_dvd hdvd, slotOf_of_dvd hdvd] at heq
  exact hne ((SerialNumber.mod_eq_mod_iff (by omega) (by omega)).mp heq)

/-- A number and the one a history further share a slot. -/
lemma seqOf_mod_turn (hdvd : history ∣ 65536) (k : ℕ) :
    (seqOf (k + history)).val % history = (seqOf k).val % history := by
  change slotOf history (k + history) = slotOf history k
  rw [slotOf_of_dvd hdvd, slotOf_of_dvd hdvd, Nat.add_mod_right]

/-- A history that divides a turn is at most half of one. -/
lemma history_le_half (hdvd : history ∣ 65536) (hlt : history < 65536) : history ≤ 32768 := by
  obtain ⟨c, hc⟩ := hdvd
  match c with
  | 0 => omega
  | 1 => omega
  | c + 2 =>
    have := Nat.mul_le_mul_left history (Nat.le_add_left 2 c)
    omega

end Window

/-! ## What a run keeps -/

/-- The state of a run: the slots of the window are empty or hold the message of their number,
and one of them holds no intermediate FRAGMENT. -/
structure FragmentWindow (run : InputRun) : Prop where
  lastHandled_eq : run.stream.lastHandled = seqOf (65535 + run.handled)
  dvd : run.stream.base.history ∣ 65536
  capacity_gt : subheaderSize < uxrGetReliableBufferCapacity run.stream.base
  slots : ∀ k, run.handled ≤ k → k < run.handled + run.stream.base.history →
    uxrGetReliableBufferSize run.stream.base (seqOf k) = 0 ∨
      ∃ body, (k, body) ∈ run.received ∧ subheaderSize ≤ body.length ∧
        body.length ≤ uxrGetReliableBufferCapacity run.stream.base ∧
        InputRun.Holds run.stream.base (seqOf k) body
  room : ∃ k, run.handled ≤ k ∧ k < run.handled + run.stream.base.history ∧
    ¬ IntermediateAt run.stream.base (seqOf k)

/-- The header of a message in a slot. -/
lemma InputRun.Holds.info_eq {base : ReliableStream} {seqNum : UxrSeqNum} {body : List UInt8}
    (h : InputRun.Holds base seqNum body) (hle : subheaderSize ≤ body.length) :
    onGetFragmentationInfo (slotHeader base seqNum) = onGetFragmentationInfo body := by
  obtain ⟨d, hd⟩ := Nat.exists_eq_add_of_le hle
  have hheader : slotHeader base seqNum = body.take subheaderSize := by
    unfold slotHeader
    conv_rhs => rw [← h.2, hd, slotBytes_add]
    rw [List.take_left' (length_slotBytes _ _ _ _)]
  rw [hheader, onGetFragmentationInfo_take]

namespace FragmentWindow

variable {run : InputRun}

lemma ahead_eq (h : FragmentWindow run) (i : ℕ) : run.ahead (i + 1) = seqOf (run.handled + i) := by
  rw [InputRun.ahead, h.lastHandled_eq, uxrSeqNumAdd_seqOf, ← seqOf_turn_add (run.handled + i)]
  congr 1
  omega

/-- The scan ends in every state of a run. -/
lemma scan (h : FragmentWindow run) :
    ∃ r, checkLastFragmentLoop run.stream.base run.stream.base.history
        run.stream.lastHandled = some r ∧
      checkLastFragment run.stream = some r ∧ ∀ last, r = some last →
        ∃ m < run.stream.base.history, last = seqOf (run.handled + m) ∧
          LastAt run.stream.base last ∧
          ∀ j < m, IntermediateAt run.stream.base (seqOf (run.handled + j)) := by
  obtain ⟨k, hlo, hhi, hopen⟩ := h.room
  have hturn : ∀ i, seqOf (65535 + run.handled + i + 1) = seqOf (run.handled + i) := by
    intro i
    rw [← seqOf_turn_add (run.handled + i)]
    congr 1
    omega
  have hlt := run.stream.base.history_lt
  obtain ⟨d, rfl⟩ := Nat.exists_eq_add_of_le hlo
  obtain ⟨r, hr, hlast⟩ := checkLastFragmentLoop_spec run.stream.base
    (n := run.stream.base.history) (d := d) (X := 65535 + run.handled) (by omega)
    (by rwa [hturn])
  rw [← h.lastHandled_eq] at hr
  refine ⟨r, hr, ?_, fun last heq => ?_⟩
  · have hmono := checkLastFragmentLoop_mono hr (65536 - run.stream.base.history)
    rwa [Nat.add_sub_cancel' (by omega)] at hmono
  · obtain ⟨m, hm, hnum, hat, hbefore⟩ := hlast last heq
    refine ⟨m, by omega, by rw [hnum, hturn], hat, fun j hj => ?_⟩
    have hj' := hbefore j hj
    rwa [hturn] at hj'

/-- What is in a slot of the window was received. -/
lemma held (h : FragmentWindow run) {k : ℕ} (hlo : run.handled ≤ k)
    (hhi : k < run.handled + run.stream.base.history)
    (hused : uxrGetReliableBufferSize run.stream.base (seqOf k) ≠ 0) :
    ∃ body, (k, body) ∈ run.received ∧ subheaderSize ≤ body.length ∧
      InputRun.Holds run.stream.base (seqOf k) body ∧
      onGetFragmentationInfo (slotHeader run.stream.base (seqOf k)) =
        onGetFragmentationInfo body := by
  obtain ⟨body, hmem, hle, -, hholds⟩ := (h.slots k hlo hhi).resolve_left hused
  exact ⟨body, hmem, hle, hholds, hholds.info_eq hle⟩

lemma scanEnds (h : FragmentWindow run) : run.ScanEnds := by
  obtain ⟨r, hloop, hcheck, hlast⟩ := h.scan
  refine ⟨h.lastHandled_eq, by rw [hloop]; rfl, fun last heq => ?_⟩
  rw [hcheck] at heq
  obtain ⟨m, hm, hnum, hat, hbefore⟩ := hlast last (Option.some.inj heq)
  refine ⟨m, hm, by rw [h.ahead_eq, hnum], fun j hj => ?_⟩
  rw [h.ahead_eq]
  by_cases hlt : j < m
  · obtain ⟨body, hmem, -, hholds, hinfo⟩ := h.held (Nat.le_add_right _ j) (by omega)
      (hbefore j hlt).1
    exact ⟨body, hmem, hholds, by rw [if_pos hlt, ← hinfo, (hbefore j hlt).2]⟩
  · obtain rfl : j = m := by omega
    rw [hnum] at hat
    obtain ⟨body, hmem, -, hholds, hinfo⟩ := h.held (Nat.le_add_right _ j) (by omega) hat.1
    exact ⟨body, hmem, hholds, by rw [if_neg hlt, ← hinfo, hat.2]⟩

/-- Nothing moves, and no slot changes. -/
lemma congr (h : FragmentWindow run) {run' : InputRun} (hbase : run'.stream.base = run.stream.base)
    (hlast : run'.stream.lastHandled = run.stream.lastHandled)
    (hhandled : run'.handled = run.handled)
    (hreceived : run'.received = run.received) : FragmentWindow run' := by
  obtain ⟨h₁, h₂, h₃, h₄, h₅⟩ := h
  constructor
  · rw [hlast, hhandled, h₁]
  · rw [hbase]
    exact h₂
  · rw [hbase]
    exact h₃
  · rw [hbase, hhandled, hreceived]
    exact h₄
  · rw [hbase, hhandled]
    exact h₅

/-- Messages are handed over, and their slots are empty. -/
lemma shift (h : FragmentWindow run) {run' : InputRun} {p : ℕ} (hp : 0 < p)
    (hple : p ≤ run.stream.base.history)
    (hsize : run'.stream.base.size = run.stream.base.size)
    (hhistory : run'.stream.base.history = run.stream.base.history)
    (hlast : run'.stream.lastHandled = seqOf (65535 + (run.handled + p)))
    (hhandled : run'.handled = run.handled + p)
    (hreceived : ∀ x ∈ run.received, x ∈ run'.received)
    (hempty : ∀ j < p, uxrGetReliableBufferSize run'.stream.base (seqOf (run.handled + j)) = 0)
    (hsizes : ∀ k, run.handled + p ≤ k → k < run.handled + run.stream.base.history →
      uxrGetReliableBufferSize run'.stream.base (seqOf k) = 0 ∨
        uxrGetReliableBufferSize run'.stream.base (seqOf k) =
          uxrGetReliableBufferSize run.stream.base (seqOf k))
    (hbytes : ∀ j n, n ≤ uxrGetReliableBufferCapacity run.stream.base →
      slotBytes run'.stream.base j 0 n = slotBytes run.stream.base j 0 n) :
    FragmentWindow run' := by
  have hcapacity : uxrGetReliableBufferCapacity run'.stream.base =
      uxrGetReliableBufferCapacity run.stream.base := by
    unfold uxrGetReliableBufferCapacity
    rw [hsize, hhistory]
  -- the slots that were emptied are those of the end of the new window
  have hend : ∀ k, run.handled + run.stream.base.history ≤ k →
      k < run.handled + p + run.stream.base.history →
      uxrGetReliableBufferSize run'.stream.base (seqOf k) = 0 := by
    intro k hlo hhi
    obtain ⟨d, rfl⟩ := Nat.exists_eq_add_of_le hlo
    rw [← hempty d (by omega)]
    apply uxrGetReliableBufferSize_congr
    rw [hhistory, Nat.add_right_comm]
    exact seqOf_mod_turn h.dvd _
  constructor
  · rw [hlast, hhandled]
  · rw [hhistory]
    exact h.dvd
  · rw [hcapacity]
    exact h.capacity_gt
  · intro k hlo hhi
    rw [hhandled] at hlo hhi
    rw [hhistory] at hhi
    by_cases hlt : k < run.handled + run.stream.base.history
    · rcases hsizes k hlo hlt with hzero | hsame
      · exact .inl hzero
      · rw [hsame, hcapacity]
        refine (h.slots k (by omega) hlt).imp_right ?_
        rintro ⟨body, hmem, hge, hle, hholds⟩
        exact ⟨body, hreceived _ hmem, hge, hle, by rw [hsame, hholds.1],
          by rw [hbytes _ _ hle, hholds.2]⟩
    · exact .inl (hend k (by omega) hhi)
  · refine ⟨run.handled + run.stream.base.history, by omega, by rw [hhandled, hhistory]; omega, ?_⟩
    exact fun hat => hat.1 (hend _ le_rfl (by omega))

/-! ### Messages -/

/-- A number that is accepted is one of the window. -/
lemma accepted (h : FragmentWindow run) {seqNum : UxrSeqNum}
    (hin : 0 > uxrSeqNumCmp run.stream.lastHandled seqNum ∧
      0 ≤ uxrSeqNumCmp (uxrSeqNumAdd run.stream.lastHandled run.stream.base.history) seqNum) :
    ∃ k, run.handled ≤ k ∧ k < run.handled + run.stream.base.history ∧ seqNum = seqOf k ∧
      run.position seqNum = k := by
  have hhalf := history_le_half h.dvd run.stream.base.history_lt
  obtain ⟨d, hd⟩ : ∃ d, d = seqSteps run.stream.lastHandled seqNum := ⟨_, rfl⟩
  have hlt : d < 65536 := hd ▸ seqSteps_lt _ _
  have hseq : seqOf (65535 + run.handled + d) = seqNum := by
    rw [hd, h.lastHandled_eq, seqOf_add_seqSteps]
  obtain ⟨hneg, hpos⟩ := hin
  rw [h.lastHandled_eq, ← hseq] at hneg
  have hbounds : 0 < d ∧ d < 32768 := by
    rw [uxrSeqNumCmp_neg_iff] at hneg
    simp only [SerialNumber.Precedes, seqOf_val] at hneg
    omega
  rw [h.lastHandled_eq, uxrSeqNumAdd_seqOf, ← hseq,
    uxrSeqNumCmp_seqOf_nonneg (by omega) (by omega)] at hpos
  refine ⟨run.handled + d - 1, by omega, by omega, ?_, ?_⟩
  · rw [← hseq, ← seqOf_turn_add (run.handled + d - 1)]
    congr 1
    omega
  · rw [InputRun.position, ← hd]

/-- Numbers of the window are equal only if their positions are. -/
lemma seqOf_inj (h : FragmentWindow run) {j k : ℕ} (hj : run.handled ≤ j)
    (hj' : j < run.handled + run.stream.base.history) (hk : run.handled ≤ k)
    (hk' : k < run.handled + run.stream.base.history) (heq : seqOf j = seqOf k) : j = k := by
  by_contra hne
  exact seqOf_mod_ne h.dvd hj hj' hk hk' hne (by rw [heq])

@[simp]
lemma announce_base (stream : InputReliableStream) (seqNum : UxrSeqNum) :
    (announce stream seqNum).base = stream.base := by
  unfold announce
  split <;> rfl

@[simp]
lemma announce_lastHandled (stream : InputReliableStream) (seqNum : UxrSeqNum) :
    (announce stream seqNum).lastHandled = stream.lastHandled := by
  unfold announce
  split <;> rfl

lemma seqSteps_self (s : UxrSeqNum) : seqSteps s s = 0 := by
  have hsteps := seqSteps_seqOf s.val (d := 0) (by decide)
  rwa [Nat.add_zero, seqOf_self] at hsteps

lemma seqSteps_ahead (h : FragmentWindow run) {p : ℕ} (hp : p < 65536) :
    seqSteps run.stream.lastHandled (seqOf (65535 + (run.handled + p))) = p := by
  rw [h.lastHandled_eq, ← Nat.add_assoc]
  exact seqSteps_seqOf _ hp

/-- A stream that did not move. -/
lemma withStream (h : FragmentWindow run) {stream : InputReliableStream}
    (hbase : stream.base = run.stream.base)
    (hlast : stream.lastHandled = run.stream.lastHandled) :
    FragmentWindow (run.withStream stream) := by
  refine h.congr hbase hlast ?_ rfl
  rw [InputRun.withStream, hlast, seqSteps_self, Nat.add_zero]

/-- The slots in which a message is stored. -/
def storedBase (base : ReliableStream) (seqNum : UxrSeqNum) (body : List UInt8) :
    ReliableStream :=
  uxrSetReliableBufferSize (base.store (uxrGetReliableBuffer base seqNum) body) seqNum body.length

/-- Storing a message changes its slot only. -/
lemma storedBase_frame (base : ReliableStream) (seqNum : UxrSeqNum) {body : List UInt8}
    (hle : body.length ≤ uxrGetReliableBufferCapacity base) :
    OnlySlots base (storedBase base seqNum body) (· = seqNum.val % base.history) := by
  have hstore : OnlySlots base (base.store (uxrGetReliableBuffer base seqNum) body)
      (· = seqNum.val % base.history) :=
    { size_eq := rfl
      history_eq := rfl
      bufferSize_eq := fun j _ =>
        uxrGetReliableBufferSize_store base (i := seqNum) le_rfl (by omega)
      slotBytes_eq := fun j hj p n hn =>
        slotBytes_store_of_ne base (i := seqNum) le_rfl (by omega) (fun heq => hj heq.symm) hn }
  exact hstore.trans (OnlySlots.setSize _ seqNum body.length)

lemma storedBase_holds (base : ReliableStream) (seqNum : UxrSeqNum) {body : List UInt8}
    (hle : body.length ≤ uxrGetReliableBufferCapacity base) :
    InputRun.Holds (storedBase base seqNum body) seqNum body := by
  have hcap := capacity_lt base
  refine ⟨uxrGetReliableBufferSize_setSize_same _ (by omega), ?_⟩
  unfold storedBase
  rw [slotBytes_setSize _ (by rw [uxrGetReliableBufferCapacity_store]; omega)]
  exact slotBytes_store_same (p := 0) base rfl

/-- A message is stored in an empty slot of the window. -/
lemma store (h : FragmentWindow run) {k : ℕ} {body : List UInt8} (hlo : run.handled ≤ k)
    (hhi : k < run.handled + run.stream.base.history)
    (hempty : uxrGetReliableBufferSize run.stream.base (seqOf k) = 0)
    (hge : subheaderSize ≤ body.length)
    (hle : body.length ≤ uxrGetReliableBufferCapacity run.stream.base)
    (hroom : run.LeavesRoom (seqOf k) body) {run' : InputRun}
    (hbase : run'.stream.base = storedBase run.stream.base (seqOf k) body)
    (hlast : run'.stream.lastHandled = run.stream.lastHandled)
    (hhandled : run'.handled = run.handled)
    (hreceived : run'.received = (k, body) :: run.received) : FragmentWindow run' := by
  have hframe := storedBase_frame run.stream.base (seqOf k) hle
  have hholds := storedBase_holds run.stream.base (seqOf k) hle
  have hcapacity := hframe.capacity_eq
  have hne : ∀ j, run.handled ≤ j → j < run.handled + run.stream.base.history → j ≠ k →
      (seqOf j).val % run.stream.base.history ≠ (seqOf k).val % run.stream.base.history :=
    fun j hj hj' hjk => seqOf_mod_ne h.dvd hj hj' hlo hhi hjk
  constructor
  · rw [hlast, hhandled, h.lastHandled_eq]
  · rw [hbase, hframe.history_eq]
    exact h.dvd
  · rw [hbase, hcapacity]
    exact h.capacity_gt
  · intro j hj hj'
    rw [hhandled] at hj hj'
    rw [hbase, hframe.history_eq] at hj'
    rw [hbase, hcapacity, hreceived]
    rcases eq_or_ne j k with rfl | hjk
    · exact .inr ⟨body, List.mem_cons_self, hge, hle, hholds⟩
    · rw [hframe.bufferSize_eq _ (hne j hj hj' hjk)]
      refine (h.slots j hj hj').imp_right ?_
      rintro ⟨other, hmem, hge', hle', hother⟩
      refine ⟨other, List.mem_cons_of_mem _ hmem, hge', hle', ?_, ?_⟩
      · rw [hframe.bufferSize_eq _ (hne j hj hj' hjk), hother.1]
      · rw [hframe.slotBytes_eq _ (hne j hj hj' hjk) _ _ (by omega), hother.2]
  · rw [hhandled, hbase, hframe.history_eq]
    by_cases hinfo : onGetFragmentationInfo body = .intermediateFragment
    · obtain ⟨i, hi, hnum, hat⟩ := hroom hinfo hempty
      rw [h.ahead_eq] at hnum hat
      have hik : run.handled + i ≠ k := fun heq => hnum (by rw [heq])
      have hmod := hne (run.handled + i) (by omega) (by omega) hik
      refine ⟨run.handled + i, by omega, by omega, fun hat' => hat ⟨?_, ?_⟩⟩
      · rw [← hframe.bufferSize_eq _ hmod]
        exact hat'.1
      · have hcap := h.capacity_gt
        have hheader : slotHeader (storedBase run.stream.base (seqOf k) body)
            (seqOf (run.handled + i)) = slotHeader run.stream.base (seqOf (run.handled + i)) :=
          hframe.slotBytes_eq _ hmod _ _ (by omega)
        rw [← hheader]
        exact hat'.2
    · refine ⟨k, hlo, hhi, fun hat => hinfo ?_⟩
      rw [← hholds.info_eq hge]
      exact hat.2

/-- A message that is handed over where it was received. -/
lemma handOver (h : FragmentWindow run) {run' : InputRun}
    (hempty : uxrGetReliableBufferSize run.stream.base (seqOf run.handled) = 0)
    (hbase : run'.stream.base = run.stream.base)
    (hlast : run'.stream.lastHandled = seqOf (65535 + (run.handled + 1)))
    (hhandled : run'.handled = run.handled + 1)
    (hreceived : ∀ x ∈ run.received, x ∈ run'.received) : FragmentWindow run' := by
  refine h.shift Nat.one_pos run.stream.base.history_pos (by rw [hbase]) (by rw [hbase]) hlast
    hhandled hreceived ?_ (fun k _ _ => .inr (by rw [hbase])) (fun j n _ => by rw [hbase])
  intro j hj
  obtain rfl : j = 0 := by omega
  rw [hbase, Nat.add_zero, hempty]

/-- What a message leads to: it is ignored, handed over or stored. -/
inductive MessageOutcome (run : InputRun) (body : List UInt8) (run' : InputRun) : Prop
  | ignored : run'.stream.base = run.stream.base →
      run'.stream.lastHandled = run.stream.lastHandled → run'.handled = run.handled →
      run'.received = run.received → MessageOutcome run body run'
  | handedOver : uxrGetReliableBufferSize run.stream.base (seqOf run.handled) = 0 →
      run'.stream.base = run.stream.base →
      run'.stream.lastHandled = seqOf (65535 + (run.handled + 1)) →
      run'.handled = run.handled + 1 → run'.received = (run.handled, body) :: run.received →
      MessageOutcome run body run'
  | stored (k : ℕ) : run.handled ≤ k → k < run.handled + run.stream.base.history →
      uxrGetReliableBufferSize run.stream.base (seqOf k) = 0 → run.LeavesRoom (seqOf k) body →
      run'.stream.base = storedBase run.stream.base (seqOf k) body →
      run'.stream.lastHandled = run.stream.lastHandled → run'.handled = run.handled →
      run'.received = (k, body) :: run.received → MessageOutcome run body run'

lemma of_messageOutcome (h : FragmentWindow run) {body : List UInt8} {run' : InputRun}
    (hge : subheaderSize ≤ body.length)
    (hle : body.length ≤ uxrGetReliableBufferCapacity run.stream.base)
    (houtcome : MessageOutcome run body run') : FragmentWindow run' := by
  cases houtcome with
  | ignored hbase hlast hhandled hreceived => exact h.congr hbase hlast hhandled hreceived
  | handedOver hempty hbase hlast hhandled hreceived =>
    refine h.handOver hempty hbase hlast hhandled fun x hx => ?_
    rw [hreceived]
    exact List.mem_cons_of_mem _ hx
  | stored k hlo hhi hempty hroom hbase hlast hhandled hreceived =>
    exact h.store hlo hhi hempty hge hle hroom hbase hlast hhandled hreceived

/-- What `uxr_receive_reliable_message` leads to. -/
lemma receive (h : FragmentWindow run) {seqNum : UxrSeqNum} {body : List UInt8}
    (hadmitted : run.Admitted (.message seqNum body)) :
    ∃ r, uxrReceiveReliableMessage run.stream seqNum body = some r ∧
      MessageOutcome run body (run.receive seqNum body r) := by
  obtain ⟨hge, hle, hroom, hconsistent⟩ := hadmitted
  have hignored : MessageOutcome run body
      (run.receive seqNum body ⟨false, false, announce run.stream seqNum⟩) := by
    refine .ignored (by simp [InputRun.receive, InputRun.withStream])
      (by simp [InputRun.receive, InputRun.withStream])
      (by simp [InputRun.receive, InputRun.withStream, seqSteps_self]) ?_
    simp [InputRun.receive]
  unfold uxrReceiveReliableMessage
  dsimp only
  split
  · next hin =>
    obtain ⟨k, hlo, hhi, rfl, hposition⟩ := h.accepted hin
    have hnext : uxrSeqNumAdd run.stream.lastHandled 1 = seqOf run.handled := h.ahead_eq 0
    have hlt := run.stream.base.history_lt
    rw [hnext]
    split
    · next hplain =>
      obtain ⟨hinfo, heq⟩ := hplain
      obtain rfl : k = run.handled :=
        h.seqOf_inj hlo hhi le_rfl (by have := run.stream.base.history_pos; omega) heq
      have hempty := hconsistent hinfo (by rw [h.ahead_eq]; rfl)
      refine ⟨_, rfl, .handedOver hempty (by simp [InputRun.receive, InputRun.withStream]) ?_ ?_
        ?_⟩
      · simp only [InputRun.receive, InputRun.withStream, announce_lastHandled]
        exact (seqOf_pred_turn run.handled).symm
      · simp only [InputRun.receive, InputRun.withStream, announce_lastHandled]
        rw [← seqOf_pred_turn run.handled, h.seqSteps_ahead (by decide)]
      · -- the last number handed over is another one
        have hmoved : seqOf run.handled ≠ run.stream.lastHandled := by
          intro hsame
          have hsteps := h.seqSteps_ahead (p := 1) (by decide)
          rw [seqOf_pred_turn, hsame, seqSteps_self] at hsteps
          cases hsteps
        simp [InputRun.receive, InputRun.withStream, hposition, hmoved]
    · split
      · next hempty =>
        have hstored : ∀ ready : Bool, MessageOutcome run body (run.receive (seqOf k) body
            ⟨ready, true, announce
              { run.stream with base := storedBase run.stream.base (seqOf k) body }
              (seqOf k)⟩) := by
          intro ready
          refine .stored k hlo hhi hempty.symm hroom
            (by simp [InputRun.receive, InputRun.withStream])
            (by simp [InputRun.receive, InputRun.withStream])
            (by simp [InputRun.receive, InputRun.withStream, seqSteps_self]) ?_
          simp [InputRun.receive, InputRun.withStream, hposition]
        split
        · obtain ⟨r, -, hcheck, -⟩ := (h.of_messageOutcome hge hle (hstored false)).scan
          have hcheck' : checkLastFragment
              { run.stream with base := storedBase run.stream.base (seqOf k) body } = some r := by
            rw [← hcheck]
            simp [InputRun.receive, InputRun.withStream, checkLastFragment]
          refine ⟨_, ?_, hstored r.isSome⟩
          change (checkLastFragment
            { run.stream with base := storedBase run.stream.base (seqOf k) body }).map _ = _
          rw [hcheck']
          rfl
        · exact ⟨_, rfl, hstored false⟩
      · exact ⟨_, rfl, hignored⟩
  · exact ⟨_, rfl, hignored⟩

end FragmentWindow

/-! ## Reading from slot to slot -/

/-- `base'` has the slots of `base`, of which some were emptied. -/
structure Emptied (base base' : ReliableStream) : Prop where
  size_eq : base'.size = base.size
  history_eq : base'.history = base.history
  bufferSize : ∀ j, uxrGetReliableBufferSize base' j = 0 ∨
    uxrGetReliableBufferSize base' j = uxrGetReliableBufferSize base j
  slotBytes_eq : ∀ j p n, p + n ≤ uxrGetReliableBufferCapacity base →
    slotBytes base' j p n = slotBytes base j p n

namespace Emptied

lemma refl (base : ReliableStream) : Emptied base base :=
  ⟨rfl, rfl, fun _ => .inr rfl, fun _ _ _ _ => rfl⟩

lemma setSize (base : ReliableStream) (i : ℕ) :
    Emptied base (uxrSetReliableBufferSize base i 0) where
  size_eq := rfl
  history_eq := rfl
  bufferSize j := by
    rw [uxrGetReliableBufferSize_setSize base (by decide)]
    split
    · exact .inl rfl
    · exact .inr rfl
  slotBytes_eq _ _ _ hn := slotBytes_setSize base hn

lemma trans {base₀ base₁ base₂ : ReliableStream} (h₁ : Emptied base₀ base₁)
    (h₂ : Emptied base₁ base₂) : Emptied base₀ base₂ where
  size_eq := h₂.size_eq.trans h₁.size_eq
  history_eq := h₂.history_eq.trans h₁.history_eq
  bufferSize j := by
    rcases h₂.bufferSize j with hzero | hsame
    · exact .inl hzero
    · rw [hsame]
      exact h₁.bufferSize j
  slotBytes_eq j p n hn := by
    have hcap : uxrGetReliableBufferCapacity base₁ = uxrGetReliableBufferCapacity base₀ := by
      unfold uxrGetReliableBufferCapacity
      rw [h₁.size_eq, h₁.history_eq]
    rw [h₂.slotBytes_eq j p n (by rwa [hcap]), h₁.slotBytes_eq j p n hn]

end Emptied

/-- Going on to the next slot empties it or changes nothing. -/
lemma onFullInputBuffer_frame (stream : InputReliableStream) (ub : UcdrBuffer) :
    Emptied stream.base (onFullInputBuffer stream ub).1.base ∧
      (onFullInputBuffer stream ub).1.lastHandled = stream.lastHandled ∧
      (onFullInputBuffer stream ub).1.lastAnnounced = stream.lastAnnounced := by
  unfold onFullInputBuffer
  dsimp only
  split
  · split
    · exact ⟨Emptied.setSize _ _, rfl, rfl⟩
    · exact ⟨Emptied.refl _, rfl, rfl⟩
  · split
    · exact ⟨Emptied.setSize _ _, rfl, rfl⟩
    · exact ⟨Emptied.refl _, rfl, rfl⟩

lemma crossBuffers_frame (cleanups : List Bool) (stream : InputReliableStream) (ub : UcdrBuffer) :
    Emptied stream.base (crossBuffers cleanups stream ub).base ∧
      (crossBuffers cleanups stream ub).lastHandled = stream.lastHandled ∧
      (crossBuffers cleanups stream ub).lastAnnounced = stream.lastAnnounced := by
  induction cleanups generalizing stream ub with
  | nil => exact ⟨Emptied.refl _, rfl, rfl⟩
  | cons cleanup cleanups ih =>
    obtain ⟨hbase, hlast, hannounced⟩ :=
      onFullInputBuffer_frame { stream with cleanupFlag := cleanup } ub
    obtain ⟨hbase', hlast', hannounced'⟩ :=
      ih (onFullInputBuffer { stream with cleanupFlag := cleanup } ub).1
        (onFullInputBuffer { stream with cleanupFlag := cleanup } ub).2.1
    exact ⟨hbase.trans hbase', hlast'.trans hlast, hannounced'.trans hannounced⟩

/-- Recording a size depends on the slot only. -/
lemma uxrSetReliableBufferSize_congr {base : ReliableStream} {i j : ℕ}
    (h : i % base.history = j % base.history) (len : ℕ) :
    uxrSetReliableBufferSize base i len = uxrSetReliableBufferSize base j len := by
  unfold uxrSetReliableBufferSize
  rw [h]

/-- Going on to a slot in use, with `cleanup_flag` set. -/
lemma onFullInputBuffer_clean {stream : InputReliableStream} {ub : UcdrBuffer} {X : ℕ}
    (hdvd : stream.base.history ∣ 65536)
    (hcap : subheaderSize < uxrGetReliableBufferCapacity stream.base)
    (hub : ub.init = uxrGetReliableBuffer stream.base (seqOf X) + subheaderSize)
    (hused : subheaderSize ≤ uxrGetReliableBufferSize stream.base (seqOf (X + 1))) :
    ∃ ub', onFullInputBuffer { stream with cleanupFlag := true } ub =
        ({ stream with
            cleanupFlag := true
            base := uxrSetReliableBufferSize stream.base (seqOf (X + 1)) 0 }, ub', false) ∧
      ub'.init = uxrGetReliableBuffer stream.base (seqOf (X + 1)) + subheaderSize := by
  have hposition : uxrGetReliableBufferHistoryPosition stream.base ub.init =
      (seqOf X).val % stream.base.history :=
    historyPosition_of_mem (by omega) (by omega)
  have hlt := stream.base.history_lt
  have hpos := stream.base.history_pos
  have hmod := Nat.mod_lt (seqOf X).val hpos
  have hslot : (1 + (seqOf X).val % stream.base.history) % 65536 % stream.base.history =
      (seqOf (X + 1)).val % stream.base.history := by
    change _ = slotOf stream.base.history (X + 1)
    rw [Nat.mod_eq_of_lt (show 1 + (seqOf X).val % stream.base.history < 65536 by omega),
      slotOf_of_dvd hdvd, Nat.add_comm X 1]
    change (1 + slotOf stream.base.history X) % stream.base.history = _
    rw [slotOf_of_dvd hdvd, Nat.add_mod_mod]
  unfold onFullInputBuffer
  dsimp only
  rw [hposition, uxrGetReliableBufferSize_congr hslot, uxrGetReliableBuffer_congr hslot,
    uxrSetReliableBufferSize_congr hslot, if_pos rfl, if_neg (by omega)]
  exact ⟨_, rfl, rfl⟩

/-- Reading over the slots behind `X` with `cleanup_flag` set empties them, and reading no
further keeps the others. -/
lemma crossBuffers_clean {m X : ℕ} (cleanups : List Bool) (stream : InputReliableStream)
    (ub : UcdrBuffer) (hdvd : stream.base.history ∣ 65536)
    (hcap : subheaderSize < uxrGetReliableBufferCapacity stream.base)
    (hub : ub.init = uxrGetReliableBuffer stream.base (seqOf X) + subheaderSize)
    (hm : m < stream.base.history)
    (hused : ∀ j < m, subheaderSize ≤ uxrGetReliableBufferSize stream.base (seqOf (X + 1 + j)))
    (hcleanups : cleanups.take m = List.replicate m true) :
    (∀ j < m, uxrGetReliableBufferSize (crossBuffers cleanups stream ub).base
      (seqOf (X + 1 + j)) = 0) ∧
    (cleanups.length ≤ m → ∀ k, X + 1 + m ≤ k → k < X + 1 + stream.base.history →
      uxrGetReliableBufferSize (crossBuffers cleanups stream ub).base (seqOf k) =
        uxrGetReliableBufferSize stream.base (seqOf k)) := by
  induction m generalizing X stream ub cleanups with
  | zero =>
    refine ⟨fun j hj => by omega, fun hlen k _ _ => ?_⟩
    rw [List.length_eq_zero_iff.1 (Nat.le_zero.1 hlen), crossBuffers]
  | succ m ih =>
    cases cleanups with
    | nil => simp at hcleanups
    | cons cleanup cleanups =>
      rw [List.take_succ_cons, List.replicate_succ, List.cons.injEq] at hcleanups
      obtain ⟨rfl, hcleanups⟩ := hcleanups
      obtain ⟨ub', heq, hub'⟩ := onFullInputBuffer_clean hdvd hcap hub (hused 0 (by omega))
      have hkept : ∀ k, X + 1 < k → k < X + 1 + stream.base.history →
          uxrGetReliableBufferSize (uxrSetReliableBufferSize stream.base (seqOf (X + 1)) 0)
            (seqOf k) = uxrGetReliableBufferSize stream.base (seqOf k) := fun k hk hk' =>
        uxrGetReliableBufferSize_setSize_of_ne _
          (seqOf_mod_ne hdvd le_rfl (by omega) hk.le hk' hk.ne)
      rw [crossBuffers, heq]
      obtain ⟨hzero, hothers⟩ := ih (X := X + 1) cleanups
        { stream with
          cleanupFlag := true
          base := uxrSetReliableBufferSize stream.base (seqOf (X + 1)) 0 } ub'
        hdvd hcap hub' (Nat.lt_of_succ_lt hm) (fun j hj => by
          dsimp only
          rw [hkept _ (by omega) (by omega)]
          have hj' := hused (j + 1) (by omega)
          rwa [← Nat.add_assoc, Nat.add_right_comm (X + 1) j 1] at hj') hcleanups
      refine ⟨fun j hj => ?_, fun hlen k hk hk' => ?_⟩
      · cases j with
        | zero =>
          obtain ⟨hframe, -, -⟩ := crossBuffers_frame cleanups { stream with
            cleanupFlag := true
            base := uxrSetReliableBufferSize stream.base (seqOf (X + 1)) 0 } ub'
          rcases hframe.bufferSize (seqOf (X + 1)) with hempty | hsame
          · exact hempty
          · rw [Nat.add_zero, hsame]
            exact uxrGetReliableBufferSize_setSize_same _ (by decide)
        | succ j =>
          have hj' := hzero j (by omega)
          rwa [Nat.add_right_comm (X + 1) 1 j, ] at hj'
      · rw [List.length_cons] at hlen
        by_cases hlast : k < X + 1 + 1 + stream.base.history
        · rw [hothers (by omega) k (by omega) hlast]
          exact hkept k (by omega) hk'
        · omega

namespace FragmentWindow

variable {run : InputRun}

/-- What looking for a message leads to: there is none, or `p` slots are handed over and empty.
When reading goes no further the other slots are kept. -/
inductive NextOutcome (run : InputRun) (cleanups : List Bool) (run' : InputRun) : Prop
  | nothing : run'.stream.base = run.stream.base →
      run'.stream.lastHandled = run.stream.lastHandled → run'.handled = run.handled →
      run'.received = run.received → NextOutcome run cleanups run'
  | read (p : ℕ) : 0 < p → p ≤ run.stream.base.history →
      Emptied run.stream.base run'.stream.base →
      run'.stream.lastHandled = seqOf (65535 + (run.handled + p)) →
      run'.handled = run.handled + p → run'.received = run.received →
      (∀ j < p, uxrGetReliableBufferSize run'.stream.base (seqOf (run.handled + j)) = 0) →
      (run.ReadsNoFurther cleanups → ∀ k, run.handled + p ≤ k →
        k < run.handled + run.stream.base.history →
          uxrGetReliableBufferSize run'.stream.base (seqOf k) =
            uxrGetReliableBufferSize run.stream.base (seqOf k)) →
      NextOutcome run cleanups run'

lemma of_nextOutcome (h : FragmentWindow run) {cleanups : List Bool} {run' : InputRun}
    (houtcome : NextOutcome run cleanups run') : FragmentWindow run' := by
  cases houtcome with
  | nothing hbase hlast hhandled hreceived => exact h.congr hbase hlast hhandled hreceived
  | read p hp hple hemptied hlast hhandled hreceived hempty _ =>
    exact h.shift hp hple hemptied.size_eq hemptied.history_eq hlast hhandled
      (fun x hx => by rwa [hreceived]) hempty (fun k _ _ => hemptied.bufferSize _)
      (fun j n hn => hemptied.slotBytes_eq j 0 n (by omega))

/-- The slots behind the first one, up to that of a last FRAGMENT, hold at least a header when
the first one is emptied. -/
lemma used_behind (h : FragmentWindow run) {m : ℕ} {last : UxrSeqNum}
    (hm : m < run.stream.base.history) (hnum : last = seqOf (run.handled + m))
    (hat : LastAt run.stream.base last)
    (hbefore : ∀ j < m, IntermediateAt run.stream.base (seqOf (run.handled + j))) :
    ∀ j < m, subheaderSize ≤ uxrGetReliableBufferSize
      (uxrSetReliableBufferSize run.stream.base (seqOf run.handled) 0)
        (seqOf (run.handled + 1 + j)) := by
  have hlt := run.stream.base.history_lt
  intro j hj
  have hused : uxrGetReliableBufferSize run.stream.base (seqOf (run.handled + 1 + j)) ≠ 0 := by
    by_cases hjm : j + 1 < m
    · have hj' := (hbefore (j + 1) hjm).1
      rwa [← Nat.add_assoc, Nat.add_right_comm run.handled j 1] at hj'
    · obtain rfl : m = j + 1 := by omega
      rw [hnum, ← Nat.add_assoc, Nat.add_right_comm run.handled j 1] at hat
      exact hat.1
  obtain ⟨body, -, hge, hholds, -⟩ := h.held (by omega) (by omega) hused
  rw [uxrGetReliableBufferSize_setSize_of_ne _
    (seqOf_mod_ne h.dvd le_rfl (by omega) (by omega) (by omega) (by omega)), hholds.1]
  exact hge

/-- Reading the fragments of a message, from the first slot to the one of the last FRAGMENT,
empties all of them. -/
lemma readOver (h : FragmentWindow run) {m : ℕ} {cleanups : List Bool} {last : UxrSeqNum}
    {stream : InputReliableStream} {ub : UcdrBuffer} (hm : m < run.stream.base.history)
    (hnum : last = seqOf (run.handled + m)) (hat : LastAt run.stream.base last)
    (hbefore : ∀ j < m, IntermediateAt run.stream.base (seqOf (run.handled + j)))
    (hcleanups : cleanups.take m = List.replicate m true)
    (hbase : stream.base = uxrSetReliableBufferSize run.stream.base (seqOf run.handled) 0)
    (hlastHandled : stream.lastHandled = last)
    (hinit : ub.init = uxrGetReliableBuffer run.stream.base (seqOf run.handled) + subheaderSize)
    {run' : InputRun} (hstream : run'.stream = crossBuffers cleanups stream ub)
    (hhandled : run'.handled =
      run.handled + seqSteps run.stream.lastHandled (crossBuffers cleanups stream ub).lastHandled)
    (hreceived : run'.received = run.received) : NextOutcome run cleanups run' := by
  have hpos := run.stream.base.history_pos
  have hlt := run.stream.base.history_lt
  obtain ⟨hframe, hlast, -⟩ := crossBuffers_frame cleanups stream ub
  obtain ⟨hzero, hkept⟩ := crossBuffers_clean (m := m) (X := run.handled) cleanups stream
    ub (by rw [hbase]; exact h.dvd) (by rw [hbase]; exact h.capacity_gt)
    (by rw [hbase]; exact hinit) (by rw [hbase]; exact hm)
    (by rw [hbase]; exact h.used_behind hm hnum hat hbefore) hcleanups
  have hend : (crossBuffers cleanups stream ub).lastHandled =
      seqOf (65535 + (run.handled + (m + 1))) := by
    rw [hlast, hlastHandled, hnum, ← Nat.add_assoc run.handled m 1, seqOf_pred_turn]
  rw [hbase] at hframe
  have hemptied := (Emptied.setSize run.stream.base (seqOf run.handled)).trans hframe
  refine .read (m + 1) (Nat.succ_pos m) hm (hstream ▸ hemptied) (hstream ▸ hend) ?_ hreceived ?_ ?_
  · rw [hhandled, hend, h.seqSteps_ahead (by omega)]
  · intro j hj
    rw [hstream]
    cases j with
    | zero =>
      rcases hframe.bufferSize (seqOf run.handled) with hempty | hsame
      · exact hempty
      · rw [Nat.add_zero, hsame]
        exact uxrGetReliableBufferSize_setSize_same _ (by decide)
    | succ j =>
      have hj' := hzero j (by omega)
      rwa [Nat.add_right_comm run.handled 1 j] at hj'
  · intro hfurther k hk hk'
    have hlength := hfurther m hm (fun j hj => by rw [h.ahead_eq]; exact hbefore j hj)
      (by rw [h.ahead_eq, ← hnum]; exact hat)
    have hhistory : stream.base.history = run.stream.base.history := by
      rw [hbase, uxrSetReliableBufferSize_history]
    rw [hstream]
    refine (hkept hlength k (by omega) (by omega)).trans ?_
    rw [hbase]
    exact uxrGetReliableBufferSize_setSize_of_ne _
      (seqOf_mod_ne h.dvd le_rfl (by omega) (by omega) hk' (by omega))

/-- With the stream that it has, a run is not changed. -/
lemma withStream_self (run : InputRun) : run.withStream run.stream = run := by
  rw [InputRun.withStream, seqSteps_self]
  rfl

/-- What `uxr_next_input_reliable_buffer_available` and reading lead to. -/
lemma next (h : FragmentWindow run) (cleanups : List Bool)
    (hadmitted : run.Admitted (.next cleanups)) :
    (uxrNextInputReliableBufferAvailable run.stream subheaderSize).isSome = true ∧
      NextOutcome run cleanups (run.step (.next cleanups)) := by
  have hpos := run.stream.base.history_pos
  have hlt := run.stream.base.history_lt
  have hnext : uxrSeqNumAdd run.stream.lastHandled 1 = seqOf run.handled := h.ahead_eq 0
  unfold InputRun.step uxrNextInputReliableBufferAvailable
  dsimp only
  rw [hnext]
  split
  · split
    · refine ⟨rfl, .read 1 Nat.one_pos hpos (Emptied.setSize _ _) (seqOf_pred_turn _).symm ?_ rfl
        ?_ ?_⟩
      · change run.handled + seqSteps run.stream.lastHandled (seqOf run.handled) = run.handled + 1
        rw [← seqOf_pred_turn run.handled, h.seqSteps_ahead (by decide)]
      · intro j hj
        obtain rfl : j = 0 := by omega
        exact uxrGetReliableBufferSize_setSize_same _ (by decide)
      · exact fun _ k hk hk' => uxrGetReliableBufferSize_setSize_of_ne _
          (seqOf_mod_ne h.dvd le_rfl (by omega) (by omega) hk' (by omega))
    · obtain ⟨r, -, hcheck, hlast⟩ := h.scan
      rw [hcheck]
      cases r with
      | none =>
        refine ⟨rfl, ?_⟩
        rw [Option.map_some]
        dsimp only
        rw [withStream_self]
        exact .nothing rfl rfl rfl rfl
      | some last =>
        obtain ⟨m, hm, hnum, hat, hbefore⟩ := hlast last rfl
        have hcleanups : cleanups.take m = List.replicate m true := by
          refine hadmitted m hm (fun j hj => ?_) ?_
          · rw [h.ahead_eq]
            exact hbefore j hj
          · rw [h.ahead_eq, ← hnum]
            exact hat
        refine ⟨rfl, h.readOver hm hnum hat hbefore hcleanups rfl rfl ?_ rfl rfl rfl⟩
        dsimp only [Option.map_some, ucdrSetOnFullBufferCallback]
        rfl
  · refine ⟨rfl, ?_⟩
    dsimp only
    rw [withStream_self]
    exact .nothing rfl rfl rfl rfl

/-- A stream starts with an empty window. -/
lemma of_empty {run : InputRun} (hlast : run.stream.lastHandled = seqNumMax)
    (hhandled : run.handled = 0) (hdvd : run.stream.base.history ∣ 65536)
    (hcap : subheaderSize < uxrGetReliableBufferCapacity run.stream.base)
    (hempty : ∀ j, uxrGetReliableBufferSize run.stream.base j = 0) : FragmentWindow run where
  lastHandled_eq := by rw [hlast, hhandled, seqNumMax_eq]
  dvd := hdvd
  capacity_gt := hcap
  slots _ _ _ := .inl (hempty _)
  room := ⟨run.handled, le_rfl, Nat.lt_add_of_pos_right run.stream.base.history_pos,
    fun hat => hat.1 (hempty _)⟩

lemma reset (stream : InputReliableStream) (hdvd : stream.base.history ∣ 65536)
    (hcap : subheaderSize < uxrGetReliableBufferCapacity stream.base) :
    FragmentWindow ⟨uxrResetInputReliableStream stream, 0, []⟩ := by
  obtain ⟨hsize, hhistory⟩ := OutputWindow.setAllSizes_frame 0 stream.base.history stream.base
  refine of_empty rfl rfl ?_ ?_ fun j => OutputWindow.setAllSizes_bufferSize (by decide)
    stream.base le_rfl (Nat.mod_lt _ stream.base.history_pos)
  · simp only [uxrResetInputReliableStream]
    rwa [hhistory]
  · simp only [uxrResetInputReliableStream, uxrGetReliableBufferCapacity]
    rwa [hsize, hhistory]

/-- Every event keeps the window. -/
lemma step (h : FragmentWindow run) {e : InputEvent} (hadmitted : run.Admitted e) :
    FragmentWindow (run.step e) := by
  cases e with
  | message seqNum body =>
    obtain ⟨r, hr, houtcome⟩ := h.receive hadmitted
    rw [InputRun.step, hr]
    exact h.of_messageOutcome hadmitted.1 hadmitted.2.1 houtcome
  | next cleanups => exact h.of_nextOutcome (h.next cleanups hadmitted).2
  | heartbeat firstSeqNum lastSeqNum =>
    exact h.withStream (announce_base _ _) (announce_lastHandled _ _)
  | reset => exact reset _ h.dvd h.capacity_gt

end FragmentWindow

namespace InputRun

variable {run : InputRun}

lemma fragmentWindow (hrun : Transition.Reaches Starts step Admitted run) :
    FragmentWindow run := by
  refine hrun.invariant ?_ fun _ _ h he => h.step he
  rintro _ ⟨base, hdvd, hcap, rfl⟩
  exact FragmentWindow.reset _ hdvd hcap

/-- Along every run of messages that leave room and are read to their end, the scan ends within
one turn of the slots and finds consecutive FRAGMENTs, and the calls that scan end. -/
theorem checkLastFragment_ends (hrun : Transition.Reaches Starts step Admitted run) :
    run.ScanEnds ∧
      (∀ seqNum body, run.Admitted (.message seqNum body) →
        (uxrReceiveReliableMessage run.stream seqNum body).isSome = true) ∧
      (uxrNextInputReliableBufferAvailable run.stream subheaderSize).isSome = true := by
  have h := fragmentWindow hrun
  refine ⟨h.scanEnds, fun seqNum body hadmitted => ?_, ?_⟩
  · obtain ⟨r, hr, -⟩ := h.receive hadmitted
    rw [hr]
    rfl
  · refine (h.next (List.replicate run.stream.base.history true) ?_).1
    intro m hm _ _
    rw [List.take_replicate, Nat.min_eq_left hm.le]

/-- A new stream with two slots. -/
def twoSlotsRun : InputRun := ⟨uxrInitInputReliableStream (twoSlots 8 (by decide)), 0, []⟩

/-- A FRAGMENT with one byte. -/
def fragmentBody (flags payload : UInt8) : List UInt8 :=
  [submessageIdFragment, flags, 1, 0, payload]

lemma twoSlotsRun_starts : Starts twoSlotsRun := ⟨_, by decide, by decide, rfl⟩

/-- A message in two FRAGMENTs. -/
theorem checkLastFragment_ends_two :
    ((twoSlotsRun.step (.message 0 (fragmentBody 0 7))).step
      (.message 1 (fragmentBody 2 8))).ScanEnds := by
  have hstart : Transition.Reaches Starts step Admitted twoSlotsRun :=
    .start twoSlotsRun_starts
  refine (checkLastFragment_ends ((hstart.next ?_).next ?_)).1
  · refine ⟨by decide, by decide, fun _ _ => ⟨1, by decide, by decide, by decide⟩, ?_⟩
    exact fun _ _ => by decide
  · refine ⟨by decide, by decide, fun hinfo => absurd hinfo (by decide), ?_⟩
    exact fun _ _ => by decide

end InputRun

/-- A scan over slots that all hold intermediate FRAGMENTs does not end. -/
lemma checkLastFragmentLoop_full {base : ReliableStream}
    (hfull : ∀ seqNum : UxrSeqNum, IntermediateAt base seqNum) (n : ℕ) (next : UxrSeqNum) :
    checkLastFragmentLoop base n next = none := by
  induction n generalizing next with
  | zero => rfl
  | succ n ih =>
    obtain ⟨hused, hinfo⟩ := hfull (uxrSeqNumAdd next 1)
    rw [checkLastFragmentLoop, if_neg hused.symm, hinfo]
    exact ih _

/-- A slot is the same for all its numbers. -/
lemma intermediateAt_congr {base : ReliableStream} {i j : UxrSeqNum}
    (h : i.val % base.history = j.val % base.history) :
    IntermediateAt base i ↔ IntermediateAt base j := by
  unfold IntermediateAt slotHeader
  rw [uxrGetReliableBufferSize_congr h, slotBytes_congr h]

/-- A FRAGMENT that fills the last slot of a stream of intermediate ones. -/
lemma uxrReceiveReliableMessage_full {stream : InputReliableStream} {seqNum : UxrSeqNum}
    {body : List UInt8}
    (hin : 0 > uxrSeqNumCmp stream.lastHandled seqNum ∧
      0 ≤ uxrSeqNumCmp (uxrSeqNumAdd stream.lastHandled stream.base.history) seqNum)
    (hinfo : onGetFragmentationInfo body = .intermediateFragment)
    (hempty : 0 = uxrGetReliableBufferSize stream.base seqNum)
    (hfull : ∀ next, IntermediateAt (FragmentWindow.storedBase stream.base seqNum body) next) :
    uxrReceiveReliableMessage stream seqNum body = none := by
  unfold uxrReceiveReliableMessage
  dsimp only
  rw [if_pos hin, hinfo, if_neg fun h => FragmentationInfo.noConfusion h.1, if_pos hempty,
    if_pos (by decide)]
  change (checkLastFragment
    { stream with base := FragmentWindow.storedBase stream.base seqNum body }).map _ = none
  rw [checkLastFragment, checkLastFragmentLoop_full hfull]
  rfl

namespace InputRun

/-- Two intermediate FRAGMENTs fill a stream with two slots, and the scan goes round for ever. -/
theorem checkLastFragment_ends_fails :
    ¬ ∀ run, Transition.Reaches Starts step (fun _ _ => True) run →
      ∀ seqNum body, (uxrReceiveReliableMessage run.stream seqNum body).isSome = true := by
  intro h
  have hstart : Transition.Reaches Starts step (fun _ _ => True) twoSlotsRun :=
    .start twoSlotsRun_starts
  have hsome := h _ (hstart.next (e := .message 0 (fragmentBody 0 7)) trivial) 1
    (fragmentBody 0 8)
  rw [uxrReceiveReliableMessage_full (by decide) (by decide) (by decide)] at hsome
  · cases hsome
  · intro next
    -- the slot of a number is that of its rest
    have hslots : ∀ i < 2, IntermediateAt (FragmentWindow.storedBase
        (twoSlotsRun.step (.message 0 (fragmentBody 0 7))).stream.base 1 (fragmentBody 0 8))
          (seqOf i) := by decide
    have hlt := Nat.mod_lt next.val Nat.two_pos
    refine (intermediateAt_congr (j := seqOf (next.val % 2)) ?_).2 (hslots _ hlt)
    change next.val % 2 = next.val % 2 % 65536 % 2
    omega

end InputRun

end XrceDds
