import XrceDds.Protocol.SubmessageBoundaries

/-!
# What the client acknowledges

`uxr_compute_acknack` acknowledges every number before the first empty slot.  A slot that a message
was read from and that is not empty passes for a message of the next turn.  `ReadRun` reads the
messages of a stream with the handlers of the session, where `cleanup_flag` is what the handlers
make it.  As long as a message in FRAGMENTs is read with that flag set up to its last FRAGMENT, the
slots hold what was received, and only what was received is acknowledged
(`acknowledges_received`).
-/

namespace XrceDds

open SubmessageList

/-- What can happen to a stream.  `read` is a turn of the loop of `read_stream`, which reads at most
so many headers. -/
inductive ReadEvent where
  | message (seqNum : UxrSeqNum) (body : List UInt8)
  | read (reader : Reader) (headers : ℕ)
  | heartbeat (firstSeqNum lastSeqNum : UxrSeqNum)
  | reset

namespace ReadRun

/-- A turn of the loop of `read_stream`.  A call that does not end has no result. -/
def readNext (run : InputRun) (reader : Reader) (headers : ℕ) : InputRun :=
  match uxrNextInputReliableBufferAvailable run.stream subheaderSize with
  | some (stream, some ub) =>
    match readSubmessageList reader headers ⟨0, 0, 0⟩ stream ub with
    | some r => run.withStream r.1
    | none => run
  | some (stream, none) => run.withStream stream
  | none => run

/-- What an event does. -/
def step (run : InputRun) : ReadEvent → InputRun
  | .message seqNum body => run.step (.message seqNum body)
  | .read reader headers => readNext run reader headers
  | .heartbeat firstSeqNum lastSeqNum => run.step (.heartbeat firstSeqNum lastSeqNum)
  | .reset => run.step .reset

/-- A message that waits in FRAGMENTs is made of submessages whose handlers land on the headers and
read beyond the last boundary, and whose boundaries lie in data, unless `cleanup_flag` is set
already. -/
def ReadsThrough (run : InputRun) (reader : Reader) : Prop :=
  ∀ first fragments, HoldsFragmented run.stream run.handled first fragments →
    ∃ submessages tail ends,
      ends = windowEnds 0 first (slotWindows run.stream.base (run.handled + 1) fragments) ∧
      submessages ≠ [] ∧
      first ++ fragments.flatten = Submessage.row submessages ++ tail ∧
      LandsOnHeaders reader tail submessages ∧
      EndsFit reader tail ends 0 submessages ∧
      (run.stream.cleanupFlag = true ∨ InData reader ends 0 submessages) ∧
      ∀ e ∈ ends, e < lastRead reader 0 submessages

/-- What is admitted: messages as for `InputRun`, FRAGMENTs with a payload, and messages that are
read through. -/
def Admits (run : InputRun) : ReadEvent → Prop
  | .message seqNum body => run.Admitted (.message seqNum body) ∧
      (onGetFragmentationInfo body ≠ .noFragmented → subheaderSize < body.length)
  | .read reader _ => ReadsThrough run reader
  | .heartbeat _ _ => True
  | .reset => True

/-- What is acknowledged was received, and a slot in use holds a message of the window that was
received. -/
structure Truthful (run : InputRun) : Prop where
  slots : ∀ slot, uxrGetReliableBufferSize run.stream.base slot ≠ 0 →
    ∃ k body, run.handled ≤ k ∧ k < run.handled + run.stream.base.history ∧
      (seqOf k).val % run.stream.base.history = slot % run.stream.base.history ∧
      (k, body) ∈ run.received ∧ InputRun.Holds run.stream.base (seqOf k) body
  acknowledged : ∃ F, (uxrComputeAcknack run.stream).1 = seqOf (65535 + F) ∧
    run.handled ≤ F ∧ F ≤ run.handled + run.stream.base.history ∧
    ∀ q, q + 1 < F → ∃ body, (q, body) ∈ run.received

/-- The state of a run: the window of the slots, and what was received before it. -/
structure Invariant (run : InputRun) : Prop where
  window : FragmentWindow run
  behind : ∀ q < run.handled, ∃ body, (q, body) ∈ run.received
  payload : ∀ x ∈ run.received, onGetFragmentationInfo x.2 ≠ .noFragmented →
    subheaderSize < x.2.length

/-- A turn of the loop hands over slots that are in use, and empties them. -/
structure HandsOver (run run' : InputRun) : Prop where
  outcome : FragmentWindow.NextOutcome run [] run'
  held : ∀ j, run.handled + j < run'.handled →
    uxrGetReliableBufferSize run.stream.base (seqOf (run.handled + j)) ≠ 0

variable {run : InputRun}

/-- The search for an empty slot passes slots that are in use. -/
lemma firstUnackedLoop_spec (stream : InputReliableStream) (n i : ℕ) :
    firstUnackedLoop stream n i = stream.lastHandled ∨
      ∃ j < n, firstUnackedLoop stream n i = uxrSeqNumAdd stream.lastHandled (i + j + 1) ∧
        ∀ j' < j, uxrGetReliableBufferSize stream.base
          (uxrSeqNumAdd stream.lastHandled (i + j' + 1)) ≠ 0 := by
  induction n generalizing i with
  | zero => exact .inl rfl
  | succ n ih =>
    rw [firstUnackedLoop]
    split
    · exact .inr ⟨0, Nat.succ_pos n, rfl, fun j' hj' => (Nat.not_lt_zero _ hj').elim⟩
    · next hused =>
      refine (ih (i + 1)).imp_right ?_
      rintro ⟨j, hj, hend, hbefore⟩
      rw [Nat.add_right_comm i 1 j] at hend
      refine ⟨j + 1, Nat.succ_lt_succ hj, hend, fun j' hj' => ?_⟩
      cases j' with
      | zero => exact Ne.symm hused
      | succ j' =>
        have hj'' := hbefore j' (by omega)
        rwa [Nat.add_right_comm i 1 j'] at hj''

namespace Invariant

/-- A slot in use holds a message of the window. -/
lemma slots (h : Invariant run) (slot : ℕ)
    (hused : uxrGetReliableBufferSize run.stream.base slot ≠ 0) :
    ∃ k body, run.handled ≤ k ∧ k < run.handled + run.stream.base.history ∧
      (seqOf k).val % run.stream.base.history = slot % run.stream.base.history ∧
      (k, body) ∈ run.received ∧ InputRun.Holds run.stream.base (seqOf k) body := by
  have hpos := run.stream.base.history_pos
  have hlt := Nat.mod_lt run.handled hpos
  obtain ⟨k, hk⟩ : ∃ k, k = run.handled + (slot + (run.stream.base.history -
      run.handled % run.stream.base.history)) % run.stream.base.history := ⟨_, rfl⟩
  have hbelow : k < run.handled + run.stream.base.history := by
    have := Nat.mod_lt (slot + (run.stream.base.history -
      run.handled % run.stream.base.history)) hpos
    omega
  have hslot : (seqOf k).val % run.stream.base.history = slot % run.stream.base.history := by
    have hturn : run.handled + (slot + (run.stream.base.history -
        run.handled % run.stream.base.history)) =
          slot + run.stream.base.history * (run.handled / run.stream.base.history + 1) := by
      have := Nat.div_add_mod run.handled run.stream.base.history
      rw [Nat.mul_succ]
      omega
    change slotOf run.stream.base.history k = _
    rw [slotOf_of_dvd h.window.dvd, hk, Nat.add_mod_mod, hturn, Nat.add_mul_mod_self_left]
  rw [← uxrGetReliableBufferSize_congr hslot] at hused
  obtain ⟨body, hmem, -, hholds, -⟩ := h.window.held (by omega) hbelow hused
  exact ⟨k, body, by omega, hbelow, hslot, hmem, hholds⟩

lemma truthful (h : Invariant run) : Truthful run := by
  refine ⟨h.slots, ?_⟩
  have hturn : ∀ j, uxrSeqNumAdd run.stream.lastHandled (0 + j + 1) = seqOf (run.handled + j) := by
    intro j
    rw [Nat.zero_add]
    exact h.window.ahead_eq j
  unfold uxrComputeAcknack uxrGetFirstUnacked
  dsimp only
  rcases firstUnackedLoop_spec run.stream run.stream.base.history 0 with hend |
    ⟨j, hj, hend, hbefore⟩
  · refine ⟨run.handled, by rw [hend, h.window.lastHandled_eq], le_rfl, Nat.le_add_right _ _,
      fun q hq => h.behind q (by omega)⟩
  · refine ⟨run.handled + (j + 1), ?_, Nat.le_add_right _ _, by omega, fun q hq => ?_⟩
    · rw [hend, hturn, ← Nat.add_assoc run.handled j 1, seqOf_pred_turn]
    · by_cases hlt : q < run.handled
      · exact h.behind q hlt
      · obtain ⟨d, rfl⟩ := Nat.exists_eq_add_of_le (Nat.le_of_not_lt hlt)
        have hused := hbefore d (by omega)
        rw [hturn] at hused
        obtain ⟨body, hmem, -⟩ := h.window.held (Nat.le_add_right _ _) (by omega) hused
        exact ⟨body, hmem⟩

/-! ## Messages -/

lemma message (h : Invariant run) {seqNum : UxrSeqNum} {body : List UInt8}
    (hadmits : Admits run (.message seqNum body)) :
    Invariant (step run (.message seqNum body)) := by
  obtain ⟨hadmitted, hpayload⟩ := hadmits
  obtain ⟨r, hr, houtcome⟩ := h.window.receive hadmitted
  have hwindow := h.window.of_messageOutcome hadmitted.1 hadmitted.2.1 houtcome
  have hstep : step run (.message seqNum body) = run.receive seqNum body r := by
    change run.step (.message seqNum body) = _
    rw [InputRun.step, hr]
  rw [hstep]
  have hcons : ∀ k, ∀ x ∈ (k, body) :: run.received,
      onGetFragmentationInfo x.2 ≠ .noFragmented → subheaderSize < x.2.length := by
    intro k x hx
    rcases List.mem_cons.mp hx with rfl | hx
    · exact hpayload
    · exact h.payload x hx
  cases houtcome with
  | ignored _ _ hhandled hreceived =>
    exact ⟨hwindow, by rw [hhandled, hreceived]; exact h.behind, by rw [hreceived]; exact h.payload⟩
  | handedOver _ _ _ hhandled hreceived =>
    refine ⟨hwindow, fun q hq => ?_, by rw [hreceived]; exact hcons _⟩
    rw [hhandled] at hq
    rw [hreceived]
    by_cases hlt : q < run.handled
    · obtain ⟨body', hmem⟩ := h.behind q hlt
      exact ⟨body', List.mem_cons_of_mem _ hmem⟩
    · obtain rfl : q = run.handled := by omega
      exact ⟨body, List.mem_cons_self⟩
  | stored k _ _ _ _ _ _ hhandled hreceived =>
    refine ⟨hwindow, fun q hq => ?_, by rw [hreceived]; exact hcons _⟩
    rw [hhandled] at hq
    rw [hreceived]
    obtain ⟨body', hmem⟩ := h.behind q hq
    exact ⟨body', List.mem_cons_of_mem _ hmem⟩

/-! ## Reading -/

/-- The FRAGMENTs that the scan finds are those of a message. -/
lemma holdsFragmented (h : Invariant run) {m : ℕ} {last : UxrSeqNum}
    (hm : m < run.stream.base.history) (hnum : last = seqOf (run.handled + m))
    (hat : LastAt run.stream.base last)
    (hbefore : ∀ j < m, IntermediateAt run.stream.base (seqOf (run.handled + j))) :
    ∃ first fragments, fragments.length = m ∧
      HoldsFragmented run.stream run.handled first fragments := by
  -- what each slot holds behind its header
  obtain ⟨payload, hpayload⟩ : ∃ payload : ℕ → List UInt8, ∀ j, payload j =
      slotBytes run.stream.base (seqOf (run.handled + j)) subheaderSize
        (uxrGetReliableBufferSize run.stream.base (seqOf (run.handled + j)) - subheaderSize) :=
    ⟨_, fun _ => rfl⟩
  have hinfo : ∀ j ≤ m, uxrGetReliableBufferSize run.stream.base (seqOf (run.handled + j)) ≠ 0 ∧
      onGetFragmentationInfo (slotHeader run.stream.base (seqOf (run.handled + j))) =
        if j = m then .lastFragment else .intermediateFragment := by
    intro j hj
    by_cases hlast : j = m
    · rw [if_pos hlast, hlast, ← hnum]
      exact hat
    · rw [if_neg hlast]
      exact hbefore j (by omega)
  have hslot : ∀ j ≤ m, uxrGetReliableBufferSize run.stream.base (seqOf (run.handled + j)) =
        subheaderSize + (payload j).length ∧ payload j ≠ [] ∧
      subheaderSize + (payload j).length ≤ uxrGetReliableBufferCapacity run.stream.base := by
    intro j hj
    obtain ⟨hused, hheader⟩ := hinfo j hj
    obtain ⟨body, hmem, hge, hle, hholds⟩ := (h.window.slots (run.handled + j)
      (Nat.le_add_right _ _) (by omega)).resolve_left hused
    have hgt : subheaderSize < body.length := by
      refine h.payload _ hmem ?_
      rw [← hholds.info_eq hge, hheader]
      split <;> decide
    have hlength : (payload j).length = body.length - subheaderSize := by
      rw [hpayload, length_slotBytes, hholds.1]
    refine ⟨by rw [hholds.1]; omega, fun hnil => ?_, by omega⟩
    rw [hnil, List.length_nil] at hlength
    omega
  have hget : ∀ j (hj : j < (payload 0 :: (List.range m).map fun j => payload (j + 1)).length),
      (payload 0 :: (List.range m).map fun j => payload (j + 1))[j] = payload j := by
    intro j hj
    cases j with
    | zero => rfl
    | succ j => simp
  have hcount : ((List.range m).map fun j => payload (j + 1)).length = m := by simp
  refine ⟨payload 0, (List.range m).map fun j => payload (j + 1), hcount,
    { lastHandled_eq := h.window.lastHandled_eq
      dvd := h.window.dvd
      length_lt := by rwa [hcount]
      capacity_gt := h.window.capacity_gt
      nonempty := fun fragment hmem => ?_
      fits := fun fragment hmem => ?_
      slot := fun j hj => ?_ }⟩
  · obtain ⟨j, hj, rfl⟩ := List.mem_map.mp hmem
    exact (hslot (j + 1) (List.mem_range.mp hj)).2.1
  · rcases List.mem_cons.mp hmem with rfl | hmem
    · exact (hslot 0 (Nat.zero_le m)).2.2
    · obtain ⟨j, hj, rfl⟩ := List.mem_map.mp hmem
      exact (hslot (j + 1) (List.mem_range.mp hj)).2.2
  · have hle : j ≤ m := by
      rw [List.length_cons, hcount] at hj
      omega
    rw [hget j hj, hcount]
    refine ⟨(hslot j hle).1, ?_, (hinfo j hle).2⟩
    conv_rhs => rw [hpayload]
    rw [(hslot j hle).1, Nat.add_sub_cancel_left]

/-- What `uxr_next_input_reliable_buffer_available` finds: nothing, a message in one slot, or the
FRAGMENTs of a message. -/
inductive Next (run : InputRun) : Prop
  | nothing : uxrNextInputReliableBufferAvailable run.stream subheaderSize =
      some (run.stream, none) → Next run
  | plain : uxrGetReliableBufferSize run.stream.base (seqOf run.handled) ≠ 0 →
      uxrNextInputReliableBufferAvailable run.stream subheaderSize =
        some ({ run.stream with
          base := uxrSetReliableBufferSize run.stream.base (seqOf run.handled) 0
          lastHandled := seqOf run.handled },
            some (ucdrInitBuffer (uxrGetReliableBuffer run.stream.base (seqOf run.handled))
              (uxrGetReliableBufferSize run.stream.base (seqOf run.handled)))) → Next run
  | fragmented (first : List UInt8) (fragments : List (List UInt8)) :
      HoldsFragmented run.stream run.handled first fragments → Next run

lemma next (h : Invariant run) : Next run := by
  have hnext : uxrSeqNumAdd run.stream.lastHandled 1 = seqOf run.handled := h.window.ahead_eq 0
  by_cases hempty : uxrGetReliableBufferSize run.stream.base (seqOf run.handled) = 0
  · refine .nothing ?_
    unfold uxrNextInputReliableBufferAvailable
    dsimp only
    rw [hnext, if_neg (not_not.mpr hempty.symm)]
  by_cases hplain : onGetFragmentationInfo (slotHeader run.stream.base (seqOf run.handled)) =
      .noFragmented
  · refine .plain hempty ?_
    unfold uxrNextInputReliableBufferAvailable
    dsimp only
    rw [hnext, if_pos (Ne.symm hempty), if_pos hplain]
  · obtain ⟨r, -, hcheck, hlast⟩ := h.window.scan
    cases r with
    | none =>
      refine .nothing ?_
      unfold uxrNextInputReliableBufferAvailable
      dsimp only
      rw [hnext, if_pos (Ne.symm hempty), if_neg hplain, hcheck]
      rfl
    | some last =>
      obtain ⟨m, hm, hnum, hat, hbefore⟩ := hlast last rfl
      obtain ⟨first, fragments, -, hholds⟩ := h.holdsFragmented hm hnum hat hbefore
      exact .fragmented first fragments hholds

/-- Slots that are handed over hold what was received. -/
lemma of_handsOver (h : Invariant run) {run' : InputRun} (hover : HandsOver run run') :
    Invariant run' := by
  obtain ⟨houtcome, hheld⟩ := hover
  have hwindow := h.window.of_nextOutcome houtcome
  cases houtcome with
  | nothing _ _ hhandled hreceived =>
    exact ⟨hwindow, by rw [hhandled, hreceived]; exact h.behind, by rw [hreceived]; exact h.payload⟩
  | read p _ hle _ _ hhandled hreceived _ _ =>
    refine ⟨hwindow, fun q hq => ?_, by rw [hreceived]; exact h.payload⟩
    rw [hreceived]
    by_cases hlt : q < run.handled
    · exact h.behind q hlt
    · obtain ⟨j, rfl⟩ := Nat.exists_eq_add_of_le (Nat.le_of_not_lt hlt)
      obtain ⟨body, hmem, -⟩ := h.window.held (Nat.le_add_right _ _) (by omega) (hheld j hq)
      exact ⟨body, hmem⟩

/-- A message in one slot is handed over. -/
lemma readPlain (h : Invariant run)
    (hused : uxrGetReliableBufferSize run.stream.base (seqOf run.handled) ≠ 0) :
    HandsOver run (run.withStream { run.stream with
      base := uxrSetReliableBufferSize run.stream.base (seqOf run.handled) 0
      lastHandled := seqOf run.handled }) := by
  have hpos := run.stream.base.history_pos
  have hlt := run.stream.base.history_lt
  have hsteps : run.handled + seqSteps run.stream.lastHandled (seqOf run.handled) =
      run.handled + 1 := by
    rw [← seqOf_pred_turn run.handled, h.window.seqSteps_ahead (by decide)]
  refine ⟨.read 1 Nat.one_pos hpos (Emptied.setSize _ _) (seqOf_pred_turn _).symm hsteps rfl ?_ ?_,
    ?_⟩
  · intro j hj
    obtain rfl : j = 0 := by omega
    exact uxrGetReliableBufferSize_setSize_same _ (by decide)
  · exact fun _ k hk hk' => uxrGetReliableBufferSize_setSize_of_ne _
      (seqOf_mod_ne h.window.dvd le_rfl (by omega) (by omega) hk' (by omega))
  · intro j hj
    change run.handled + j < run.handled + seqSteps run.stream.lastHandled (seqOf run.handled) at hj
    obtain rfl : j = 0 := by omega
    exact hused

/-- A message in FRAGMENTs that is read through is handed over, and its slots are empty. -/
lemma readFragmented (h : Invariant run) {first : List UInt8} {fragments : List (List UInt8)}
    (hholds : HoldsFragmented run.stream run.handled first fragments)
    {stream : InputReliableStream}
    (hcrossed : Crossed { run.stream with
      base := uxrSetReliableBufferSize run.stream.base (seqOf run.handled) 0
      lastHandled := seqOf (run.handled + fragments.length) } run.handled fragments.length True
        stream) : HandsOver run (run.withStream stream) := by
  have hlt := run.stream.base.history_lt
  have hlength := hholds.length_lt
  have hend : stream.lastHandled = seqOf (65535 + (run.handled + (fragments.length + 1))) := by
    rw [hcrossed.lastHandled_eq, ← Nat.add_assoc run.handled, seqOf_pred_turn]
  have hsteps : run.handled + seqSteps run.stream.lastHandled stream.lastHandled =
      run.handled + (fragments.length + 1) := by
    rw [hend, h.window.seqSteps_ahead (by omega)]
  refine ⟨.read (fragments.length + 1) (Nat.succ_pos _) hlength
    ((Emptied.setSize _ _).trans hcrossed.emptied) hend hsteps rfl ?_ ?_, ?_⟩
  · exact fun j hj => hcrossed.entered trivial j (Nat.le_of_lt_succ hj)
  · intro _ k hk hk'
    refine (hcrossed.kept k (by omega) hk').trans ?_
    exact uxrGetReliableBufferSize_setSize_of_ne _
      (seqOf_mod_ne h.window.dvd le_rfl (by omega) (by omega) hk' (by omega))
  · intro j hj
    change run.handled + j < run.handled + seqSteps run.stream.lastHandled stream.lastHandled at hj
    rw [hsteps] at hj
    rw [(hholds.slot j (by rw [List.length_cons]; omega)).1]
    unfold subheaderSize
    omega

/-- A turn of the loop hands over what waits. -/
lemma handsOver_readNext (h : Invariant run) {reader : Reader} {headers : ℕ}
    (hthrough : ReadsThrough run reader) : HandsOver run (ReadRun.readNext run reader headers) := by
  have hstays : HandsOver run run :=
    ⟨.nothing rfl rfl rfl rfl, fun j hj => (Nat.not_le_of_lt hj (Nat.le_add_right _ _)).elim⟩
  unfold ReadRun.readNext
  cases h.next with
  | nothing hnext =>
    rw [hnext]
    dsimp only
    rwa [FragmentWindow.withStream_self]
  | plain hused hnext =>
    rw [hnext]
    dsimp only
    split
    · next r hlist =>
      rw [readSubmessageList_frame reader headers _ _ rfl hlist]
      exact h.readPlain hused
    · exact hstays
  | fragmented first fragments hholds =>
    obtain ⟨submessages, tail, ends, hends, hne, hbody, hlands, hfit, hclean, hall⟩ :=
      hthrough first fragments hholds
    obtain ⟨n, stream', ub', hlist, k, -, hcrossed, hreached⟩ :=
      hholds.exists_reads reader True hends hne hbody hlands hfit (fun _ => hclean) ⟨0, 0, 0⟩ rfl
    obtain rfl := hreached hall
    rw [hholds.next_eq]
    dsimp only
    split
    · next r hlist' =>
      rw [readSubmessageList_unique hlist' hlist]
      exact h.readFragmented hholds hcrossed
    · exact hstays

/-- Every event keeps the invariant. -/
lemma step (h : Invariant run) {e : ReadEvent} (hadmits : Admits run e) :
    Invariant (ReadRun.step run e) := by
  cases e with
  | message seqNum body => exact h.message hadmits
  | read reader headers => exact h.of_handsOver (h.handsOver_readNext hadmits)
  | heartbeat firstSeqNum lastSeqNum =>
    have hhandled : (ReadRun.step run (.heartbeat firstSeqNum lastSeqNum)).handled =
        run.handled := by
      simp [ReadRun.step, InputRun.step, InputRun.withStream, uxrProcessHeartbeat,
        FragmentWindow.seqSteps_self]
    refine ⟨h.window.withStream (FragmentWindow.announce_base _ _)
      (FragmentWindow.announce_lastHandled _ _), ?_, h.payload⟩
    rw [hhandled]
    exact h.behind
  | reset =>
    exact ⟨FragmentWindow.reset _ h.window.dvd h.window.capacity_gt,
      fun q hq => (Nat.not_lt_zero q hq).elim, fun x hx => (List.not_mem_nil hx).elim⟩

end Invariant

/-- Along every run in which messages in FRAGMENTs are read through, only what was received is
acknowledged, and only what was received is in the slots. -/
theorem acknowledges_received (hrun : Transition.Reaches InputRun.Starts step Admits run) :
    Truthful run := by
  refine (hrun.invariant (I := Invariant) ?_ fun _ _ h he => h.step he).truthful
  rintro _ ⟨base, hdvd, hcap, rfl⟩
  exact ⟨FragmentWindow.reset _ hdvd hcap, fun q hq => (Nat.not_lt_zero q hq).elim,
    fun x hx => (List.not_mem_nil hx).elim⟩

/-- The slots say which message they hold. -/
lemma holdsFragmented_unique {stream : InputReliableStream} {X : ℕ} {first first' : List UInt8}
    {fragments fragments' : List (List UInt8)} (h : HoldsFragmented stream X first fragments)
    (h' : HoldsFragmented stream X first' fragments') : first = first' ∧ fragments =
      fragments' := by
  -- the last FRAGMENT of one is an intermediate one of the other unless the numbers agree
  have hle : ∀ {first first' : List UInt8} {fragments fragments' : List (List UInt8)},
      HoldsFragmented stream X first fragments → HoldsFragmented stream X first' fragments' →
        fragments.length ≤ fragments'.length := by
    intro first first' fragments fragments' h h'
    by_contra hlt
    have hlt := Nat.lt_of_not_le hlt
    obtain ⟨-, -, hinfo⟩ := h.slot fragments'.length (hlt.trans (Nat.lt_succ_self _))
    obtain ⟨-, -, hinfo'⟩ := h'.slot fragments'.length (Nat.lt_succ_self _)
    rw [if_neg (Nat.ne_of_lt hlt)] at hinfo
    rw [if_pos rfl, hinfo] at hinfo'
    exact FragmentationInfo.noConfusion hinfo'
  refine List.cons_eq_cons.mp (List.ext_getElem ?_ fun j hj hj' => ?_)
  · rw [List.length_cons, List.length_cons, Nat.le_antisymm (hle h h') (hle h' h)]
  · obtain ⟨hsize, hbytes, -⟩ := h.slot j hj
    obtain ⟨hsize', hbytes', -⟩ := h'.slot j hj'
    rw [← hbytes, ← hbytes', show (first :: fragments)[j].length = (first' :: fragments')[j].length
      by omega]

/-- A DATA is received in two FRAGMENTs. -/
def fragmentsRun : InputRun :=
  step (step ⟨uxrInitInputReliableStream (twoSlots 16 sixteen_lt), 0, []⟩
    (.message 0 ([13, 1, 12, 0] ++ firstFragment))) (.message 1 ([13, 3, 8, 0] ++ lastFragment))

lemma fragmentsRun_holds : HoldsFragmented fragmentsRun.stream 0 firstFragment [lastFragment] where
  lastHandled_eq := by decide
  dvd := by decide
  length_lt := by decide
  capacity_gt := by decide
  nonempty := by decide
  fits := by decide
  slot := by decide

/-- The DATA is read through, and what is acknowledged then was received. -/
theorem acknowledges_received_data :
    Truthful (step fragmentsRun (.read plainReader 2)) := by
  have hstart : Transition.Reaches InputRun.Starts step Admits
      ⟨uxrInitInputReliableStream (twoSlots 16 sixteen_lt), 0, []⟩ :=
    .start ⟨_, by decide, by decide, rfl⟩
  refine acknowledges_received (((hstart.next ?_).next ?_).next ?_)
  · refine ⟨⟨by decide, by decide, fun _ _ => ⟨1, by decide, by decide, by decide⟩, ?_⟩, ?_⟩
    · exact fun _ _ => by decide
    · exact fun _ => by decide
  · refine ⟨⟨by decide, by decide, fun hinfo => absurd hinfo (by decide), ?_⟩, ?_⟩
    · exact fun _ _ => by decide
    · exact fun _ => by decide
  · intro first fragments hholds
    obtain ⟨rfl, rfl⟩ := holdsFragmented_unique hholds fragmentsRun_holds
    exact ⟨[dataSubmessage], [], [12], rfl, List.cons_ne_nil _ _, rfl, by decide, by decide,
      .inr (by decide), by decide⟩

end ReadRun

end XrceDds
