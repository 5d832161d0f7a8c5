import XrceDds.Protocol.AcknackSafety

/-!
# The drain loop

Behind every message that it receives, `read_stream` reads as long as
`uxr_next_input_reliable_buffer_available` finds a message.  Every turn of that loop empties a slot,
so that it ends (`exists_drain`).  The slots of all the messages that a call has handed over are
empty when it returns, and what the ACKNACK that follows acknowledges was received
(`drained_of_reaches`).
-/

namespace XrceDds

open SubmessageList

namespace Cursor

variable {source : WindowSource} {stream : InputReliableStream} {ub : UcdrBuffer}
  {bytes : List UInt8}

/-- The reading of a message in one piece ends. -/
lemma exists_readSubmessageList (h : Cursor source stream ub bytes [])
    (hcallback : ub.onFullBuffer = false) (reader : Reader) (header : Header) :
    ∃ n r, readSubmessageList reader n header stream ub = some r := by
  induction hlength : bytes.length using Nat.strong_induction_on generalizing stream ub bytes header
    with
  | _ length ih =>
    by_cases hroom : bytes.length < alignmentGap ub.phase + subheaderSize
    · exact ⟨_, _, readSubmessageList_of_end reader (h.readHeader_of_lt hroom header) 0⟩
    have hfour : 4 ≤ (bytes.drop (alignmentGap ub.phase)).length := by
      rw [List.length_drop]
      unfold subheaderSize at hroom
      omega
    match hbytes : bytes.drop (alignmentGap ub.phase), hfour with
    | id :: flags :: lo :: hi :: rest, _ =>
      obtain ⟨ub', hheader, hmoved, hphase, -, hcallback'⟩ :=
        h.readHeader (p := 0) (by omega) hbytes header
      obtain ⟨stream₂, ub₂, heq, hcallback₂, hor⟩ := hmoved.cursor.readSubmessage_whole
        (hcallback'.trans hcallback) reader
        ⟨id, withoutEndianness flags, lo.toNat + 256 * hi.toNat⟩ hphase
      have hrest : ∃ n r, readSubmessageList reader n
          ⟨id, withoutEndianness flags, lo.toNat + 256 * hi.toNat⟩ stream₂ ub₂ = some r := by
        rcases hor with ⟨k, -, hcursor, -, -⟩ | ⟨hended, -⟩
        · -- every header takes four bytes
          have hshorter := congrArg List.length hbytes
          simp only [List.length_drop, List.length_cons] at hshorter
          exact ih (rest.drop k).length (by rw [List.length_drop]; omega) hcursor hcallback₂ _ rfl
        · exact ⟨_, _, readSubmessageList_of_end reader (hended.readHeader _ _) 0⟩
      obtain ⟨n, r, hlist⟩ := hrest
      refine ⟨n + 1, (r.1, r.2.1, ⟨ub'.iterator,
        ⟨id, withoutEndianness flags, lo.toNat + 256 * hi.toNat⟩⟩ :: r.2.2), ?_⟩
      rw [readSubmessageList_of_header hheader, heq, hlist]
      rfl

end Cursor

/-- What can happen to a stream that is drained behind every message. -/
inductive StreamEvent where
  | message (seqNum : UxrSeqNum) (body : List UInt8) (reader : Reader) (fuel : ℕ)
  | heartbeat (firstSeqNum lastSeqNum : UxrSeqNum)

namespace DrainedRun

open ReadRun

/-- The loop of `read_stream`, for at most so many turns, in each of which at most so many headers
are read. -/
def drain (reader : Reader) (headers : ℕ) : ℕ → InputRun → Option InputRun
  | 0, _ => none
  | turns + 1, run =>
    match uxrNextInputReliableBufferAvailable run.stream subheaderSize with
    | some (stream, some ub) =>
      (readSubmessageList reader headers ⟨0, 0, 0⟩ stream ub).bind fun r =>
        drain reader headers turns (run.withStream r.1)
    | some (stream, none) => some (run.withStream stream)
    | none => none

/-- `read_stream`, for a message of a reliable stream, where each loop takes at most `fuel` turns.
A message that is handed over where it was received is read there and changes no slot. -/
def readStream (run : InputRun) (seqNum : UxrSeqNum) (body : List UInt8) (reader : Reader)
    (fuel : ℕ) : Option InputRun :=
  (uxrReceiveReliableMessage run.stream seqNum body).bind fun r =>
    if r.readyToRead then drain reader fuel fuel (run.receive seqNum body r)
    else some (run.receive seqNum body r)

/-- Every message that the loop comes to is read through. -/
def DrainsThrough (reader : Reader) (headers : ℕ) : ℕ → InputRun → Prop
  | 0, _ => True
  | turns + 1, run =>
    ReadsThrough run reader ∧ DrainsThrough reader headers turns (readNext run reader headers)

/-- What an event does. -/
def step (run : InputRun) : StreamEvent → InputRun
  | .message seqNum body reader fuel => (readStream run seqNum body reader fuel).getD run
  | .heartbeat firstSeqNum lastSeqNum => ReadRun.step run (.heartbeat firstSeqNum lastSeqNum)

/-- The messages that a run has: those of `ReadRun`, in calls that return. -/
def Arrives (run : InputRun) : StreamEvent → Prop
  | .message seqNum body reader fuel => Admits run (.message seqNum body) ∧
      (readStream run seqNum body reader fuel).isSome = true
  | .heartbeat _ _ => True

/-- What is admitted: messages behind which all that is there is read through. -/
def Admitted (run : InputRun) : StreamEvent → Prop
  | .message seqNum body reader fuel => Arrives run (.message seqNum body reader fuel) ∧
      DrainsThrough reader fuel fuel (ReadRun.step run (.message seqNum body))
  | .heartbeat _ _ => True

/-- The slots hold what was received and the ACKNACK acknowledges it, the slots of what a call hands
over are empty, and a call for a message behind which everything is read through returns. -/
structure Drained (run : InputRun) : Prop extends Truthful run where
  handed : ∀ e, Admitted run e → ∀ q, run.handled ≤ q → q < (step run e).handled →
    uxrGetReliableBufferSize (step run e).stream.base (seqOf q) = 0
  returns : ∀ seqNum body reader, Admits run (.message seqNum body) →
    (∀ headers turns,
      DrainsThrough reader headers turns (ReadRun.step run (.message seqNum body))) →
    ∃ n, ∀ fuel, n ≤ fuel → (readStream run seqNum body reader fuel).isSome = true

/-! ## The slots of what is handed over -/

/-- From one state to another messages were handed over, whose slots are empty, and no slot was
filled. -/
structure Handed (run run' : InputRun) : Prop where
  le : run.handled ≤ run'.handled
  history_eq : run'.stream.base.history = run.stream.base.history
  kept : ∀ j, uxrGetReliableBufferSize run.stream.base j = 0 →
    uxrGetReliableBufferSize run'.stream.base j = 0
  empty : ∀ q, run.handled ≤ q → q < run'.handled →
    uxrGetReliableBufferSize run'.stream.base (seqOf q) = 0

namespace Handed

variable {run run₁ run₂ : InputRun}

lemma trans (h : Handed run run₁) (h' : Handed run₁ run₂) : Handed run run₂ where
  le := h.le.trans h'.le
  history_eq := h'.history_eq.trans h.history_eq
  kept j hzero := h'.kept j (h.kept j hzero)
  empty q hle hlt := by
    by_cases hbefore : q < run₁.handled
    · exact h'.kept _ (h.empty q hle hbefore)
    · exact h'.empty q (Nat.le_of_not_lt hbefore) hlt

lemma of_handsOver (h : HandsOver run run₁) : Handed run run₁ := by
  cases h.outcome with
  | nothing hbase _ hhandled _ =>
    refine ⟨hhandled.ge, by rw [hbase], fun j hzero => by rwa [hbase], fun q hle hlt => ?_⟩
    exact (Nat.not_lt_of_le hle (hhandled ▸ hlt)).elim
  | read p _ _ hemptied _ hhandled _ hempty _ =>
    refine ⟨hhandled ▸ Nat.le_add_right _ _, hemptied.history_eq, fun j hzero => ?_,
      fun q hle hlt => ?_⟩
    · exact (hemptied.bufferSize j).elim id fun hsame => hsame.trans hzero
    · obtain ⟨j, rfl⟩ := Nat.exists_eq_add_of_le hle
      exact hempty j (by omega)

end Handed

section Drain

variable {run run' : InputRun} {reader : Reader} {headers turns : ℕ}

/-- A turn that reads a message. -/
lemma readNext_of_some {stream : InputReliableStream} {ub : UcdrBuffer}
    {r : InputReliableStream × UcdrBuffer × List Dispatch}
    (hnext : uxrNextInputReliableBufferAvailable run.stream subheaderSize = some (stream, some ub))
    (hlist : readSubmessageList reader headers ⟨0, 0, 0⟩ stream ub = some r) :
    readNext run reader headers = run.withStream r.1 := by
  simp only [readNext, hnext, hlist]

/-- A turn of the loop is one of `ReadRun`, behind which the loop ends or goes on. -/
lemma drain_succ (hdrain : drain reader headers (turns + 1) run = some run') :
    run' = readNext run reader headers ∨
      drain reader headers turns (readNext run reader headers) = some run' := by
  rcases hnext : uxrNextInputReliableBufferAvailable run.stream subheaderSize with
    _ | ⟨stream, _ | ub⟩
  · simp only [drain, hnext] at hdrain
    cases hdrain
  · simp only [drain, hnext] at hdrain
    refine .inl ?_
    simp only [readNext, hnext]
    exact (Option.some.inj hdrain).symm
  · simp only [drain, hnext] at hdrain
    obtain ⟨r, hlist, hrest⟩ := Option.bind_eq_some_iff.mp hdrain
    rw [readNext_of_some hnext hlist]
    exact .inr hrest

/-- The loop keeps the invariant, and empties the slots of what it hands over. -/
lemma drain_keeps (h : Invariant run) (hthrough : DrainsThrough reader headers turns run)
    (hdrain : drain reader headers turns run = some run') : Invariant run' ∧ Handed run run' := by
  induction turns generalizing run with
  | zero => cases hdrain
  | succ turns ih =>
    obtain ⟨hreads, hbehind⟩ := hthrough
    have hover : HandsOver run (readNext run reader headers) := h.handsOver_readNext hreads
    have hturn := h.of_handsOver hover
    rcases drain_succ hdrain with rfl | hrest
    · exact ⟨hturn, .of_handsOver hover⟩
    · obtain ⟨hinvariant, hhanded⟩ := ih hturn hbehind hrest
      exact ⟨hinvariant, (Handed.of_handsOver hover).trans hhanded⟩

/-! ## The end of the loop -/

/-- How many slots are in use. -/
def slotsInUse (base : ReliableStream) : ℕ :=
  ((Finset.range base.history).filter fun j => uxrGetReliableBufferSize base j ≠ 0).card

/-- A turn that empties the next slot leaves fewer slots in use. -/
lemma slotsInUse_lt (hhanded : Handed run run')
    (hused : uxrGetReliableBufferSize run.stream.base (seqOf run.handled) ≠ 0)
    (hempty : uxrGetReliableBufferSize run'.stream.base (seqOf run.handled) = 0) :
    slotsInUse run'.stream.base < slotsInUse run.stream.base := by
  obtain ⟨slot, hslot⟩ : ∃ slot, slot = (seqOf run.handled).val % run.stream.base.history :=
    ⟨_, rfl⟩
  have hmod : slot % run.stream.base.history =
      (seqOf run.handled).val % run.stream.base.history := by rw [hslot, Nat.mod_mod]
  have hrange : slot < run.stream.base.history :=
    hslot ▸ Nat.mod_lt _ run.stream.base.history_pos
  unfold slotsInUse
  refine Finset.card_lt_card ((Finset.ssubset_iff_of_subset fun j hj => ?_).mpr ⟨slot, ?_, ?_⟩)
  · rw [Finset.mem_filter, hhanded.history_eq] at hj
    exact Finset.mem_filter.mpr ⟨hj.1, fun hzero => hj.2 (hhanded.kept j hzero)⟩
  · rw [Finset.mem_filter, Finset.mem_range, uxrGetReliableBufferSize_congr hmod]
    exact ⟨hrange, hused⟩
  · rw [← hhanded.history_eq] at hmod
    rw [Finset.mem_filter, uxrGetReliableBufferSize_congr hmod]
    exact fun hmem => hmem.2 hempty

/-- A turn of the loop finds nothing, or it reads a message to its end and empties the slot that
the message begins in. -/
lemma exists_turn (h : Invariant run) (hreads : ReadsThrough run reader) :
    uxrNextInputReliableBufferAvailable run.stream subheaderSize = some (run.stream, none) ∨
      ∃ stream ub n r, uxrNextInputReliableBufferAvailable run.stream subheaderSize =
          some (stream, some ub) ∧
        readSubmessageList reader n ⟨0, 0, 0⟩ stream ub = some r ∧
        uxrGetReliableBufferSize run.stream.base (seqOf run.handled) ≠ 0 ∧
        uxrGetReliableBufferSize r.1.base (seqOf run.handled) = 0 := by
  cases h.next with
  | nothing hnext => exact .inl hnext
  | plain hused hnext =>
    obtain ⟨stream, hstream⟩ : ∃ stream, stream = { run.stream with
        base := uxrSetReliableBufferSize run.stream.base (seqOf run.handled) 0
        lastHandled := seqOf run.handled } := ⟨_, rfl⟩
    obtain ⟨address, haddress⟩ : ∃ address, address =
        uxrGetReliableBuffer run.stream.base (seqOf run.handled) := ⟨_, rfl⟩
    obtain ⟨length, hlength⟩ : ∃ length, length =
        uxrGetReliableBufferSize run.stream.base (seqOf run.handled) := ⟨_, rfl⟩
    have hlt : length < 18446744073709551616 := by
      rw [hlength]
      exact (uxrGetReliableBufferSize_lt _ _).trans (by decide)
    have hmessage : HoldsMessage stream (ucdrInitBuffer address length)
        (ByteMemory.read stream.base.buffer address length) := by
      have hread := ByteMemory.length_read stream.base.buffer address length
      exact ⟨rfl, rfl, by rw [hread]; rfl, by rwa [hread], by rw [hread]; rfl, le_rfl, rfl⟩
    obtain ⟨n, r, hlist⟩ := hmessage.cursor.exists_readSubmessageList rfl reader ⟨0, 0, 0⟩
    refine .inr ⟨stream, ucdrInitBuffer address length, n, r, ?_, hlist, hused, ?_⟩
    · rw [hnext, hstream, haddress, hlength]
    · rw [readSubmessageList_frame reader n _ _ rfl hlist, hstream]
      exact uxrGetReliableBufferSize_setSize_same _ (by decide)
  | fragmented first fragments hholds =>
    obtain ⟨submessages, tail, ends, hends, hne, hbody, hlands, hfit, hclean, hall⟩ :=
      hreads first fragments hholds
    obtain ⟨n, stream', ub', hlist, k, -, hcrossed, -⟩ :=
      hholds.exists_reads reader True hends hne hbody hlands hfit (fun _ => hclean) ⟨0, 0, 0⟩ rfl
    refine .inr ⟨_, _, n, _, hholds.next_eq, hlist, ?_,
      hcrossed.entered trivial 0 (Nat.zero_le k)⟩
    have hslot := (hholds.slot 0 (Nat.succ_pos _)).1
    rw [Nat.add_zero] at hslot
    rw [hslot]
    unfold subheaderSize
    omega

/-- The loop ends. -/
theorem exists_drain (h : Invariant run) {least : ℕ}
    (hthrough : ∀ headers, least ≤ headers → ∀ turns, DrainsThrough reader headers turns run) :
    ∃ n, ∀ headers turns, n ≤ headers → n ≤ turns →
      (drain reader headers turns run).isSome = true := by
  induction hslots : slotsInUse run.stream.base using Nat.strong_induction_on
    generalizing run least with
  | _ slots ih =>
    have hreads : ReadsThrough run reader := (hthrough least le_rfl 1).1
    rcases exists_turn h hreads with hnext | ⟨stream, ub, m, r, hnext, hlist, hused, hempty⟩
    · refine ⟨1, fun headers turns _ hturns => ?_⟩
      obtain ⟨turns, rfl⟩ := Nat.exists_eq_add_of_le' hturns
      simp only [drain, hnext]
      rfl
    · -- with headers enough every turn leads to the same state
      have hturn : ∀ headers, m ≤ headers → readSubmessageList reader headers ⟨0, 0, 0⟩ stream ub =
          some r := by
        intro headers hle
        obtain ⟨k, rfl⟩ := Nat.exists_eq_add_of_le hle
        exact readSubmessageList_mono hlist k
      have hstate : ∀ headers, m ≤ headers → readNext run reader headers = run.withStream r.1 :=
        fun headers hle => readNext_of_some hnext (hturn headers hle)
      have hover : HandsOver run (readNext run reader m) := h.handsOver_readNext hreads
      rw [hstate m le_rfl] at hover
      have hfewer := slotsInUse_lt (Handed.of_handsOver hover) hused hempty
      obtain ⟨n, hends⟩ := ih _ (hslots ▸ hfewer) (h.of_handsOver hover)
        (fun headers (hle : max least m ≤ headers) turns => by
          have hmore := (hthrough headers ((le_max_left _ _).trans hle) (turns + 1)).2
          rwa [hstate headers ((le_max_right _ _).trans hle)] at hmore) rfl
      refine ⟨max m n + 1, fun headers turns hheaders hturns => ?_⟩
      obtain ⟨turns, rfl⟩ := Nat.exists_eq_add_of_le' ((Nat.le_add_left 1 _).trans hturns)
      simp only [drain, hnext, hturn headers (by omega), Option.bind_some]
      exact hends headers turns (by omega) (by omega)

end Drain

/-! ## Messages -/

section Message

variable {run : InputRun} {seqNum : UxrSeqNum} {body : List UInt8}

/-- Where a message is handed over, its slot is empty. -/
lemma message_empty (h : Invariant run) (hadmits : Admits run (.message seqNum body)) {q : ℕ}
    (hle : run.handled ≤ q) (hlt : q < (ReadRun.step run (.message seqNum body)).handled) :
    uxrGetReliableBufferSize (ReadRun.step run (.message seqNum body)).stream.base (seqOf q) =
      0 := by
  obtain ⟨r, hr, houtcome⟩ := h.window.receive hadmits.1
  have hstep : ReadRun.step run (.message seqNum body) = run.receive seqNum body r := by
    change run.step (.message seqNum body) = _
    rw [InputRun.step, hr]
  rw [hstep] at hlt ⊢
  cases houtcome with
  | ignored _ _ hhandled _ => exact (Nat.not_lt_of_le hle (hhandled ▸ hlt)).elim
  | handedOver hempty hbase _ hhandled _ =>
    obtain rfl : q = run.handled := by omega
    rwa [hbase]
  | stored _ _ _ _ _ _ _ hhandled _ => exact (Nat.not_lt_of_le hle (hhandled ▸ hlt)).elim

/-- A call drains the stream behind the message, or leaves it. -/
lemma readStream_eq (h : Invariant run) (hadmits : Admits run (.message seqNum body)) :
    ∃ ready : Bool, ∀ reader fuel, readStream run seqNum body reader fuel =
      if ready then drain reader fuel fuel (ReadRun.step run (.message seqNum body))
      else some (ReadRun.step run (.message seqNum body)) := by
  obtain ⟨r, hr, -⟩ := h.window.receive hadmits.1
  have hstep : ReadRun.step run (.message seqNum body) = run.receive seqNum body r := by
    change run.step (.message seqNum body) = _
    rw [InputRun.step, hr]
  refine ⟨r.readyToRead, fun reader fuel => ?_⟩
  rw [readStream, hr, hstep]
  rfl

/-- A call keeps the invariant, and the slots of what it hands over are empty. -/
lemma readStream_keeps (h : Invariant run) {reader : Reader} {fuel : ℕ}
    (hadmitted : Admitted run (.message seqNum body reader fuel)) :
    Invariant (step run (.message seqNum body reader fuel)) ∧ ∀ q, run.handled ≤ q →
      q < (step run (.message seqNum body reader fuel)).handled →
        uxrGetReliableBufferSize (step run (.message seqNum body reader fuel)).stream.base
          (seqOf q) = 0 := by
  obtain ⟨⟨hadmits, hreturns⟩, hthrough⟩ := hadmitted
  obtain ⟨run', hrun'⟩ := Option.isSome_iff_exists.mp hreturns
  have hstep : step run (.message seqNum body reader fuel) = run' := by
    rw [step, hrun']
    rfl
  obtain ⟨ready, heq⟩ := readStream_eq h hadmits
  have hmessage := h.message hadmits
  rw [heq] at hrun'
  rw [hstep]
  cases ready with
  | false =>
    obtain rfl := Option.some.inj hrun'
    exact ⟨hmessage, fun q hle hlt => message_empty h hadmits hle hlt⟩
  | true =>
    obtain ⟨hinvariant, hhanded⟩ := drain_keeps hmessage hthrough hrun'
    refine ⟨hinvariant, fun q hle hlt => ?_⟩
    by_cases hbefore : q < (ReadRun.step run (.message seqNum body)).handled
    · exact hhanded.kept _ (message_empty h hadmits hle hbefore)
    · exact hhanded.empty q (Nat.le_of_not_lt hbefore) hlt

/-- A call for a message behind which everything is read through returns. -/
lemma exists_readStream (h : Invariant run) {reader : Reader}
    (hadmits : Admits run (.message seqNum body))
    (hthrough : ∀ headers turns,
      DrainsThrough reader headers turns (ReadRun.step run (.message seqNum body))) :
    ∃ n, ∀ fuel, n ≤ fuel → (readStream run seqNum body reader fuel).isSome = true := by
  obtain ⟨ready, heq⟩ := readStream_eq h hadmits
  have hleast : ∀ headers, 0 ≤ headers → ∀ turns,
      DrainsThrough reader headers turns (ReadRun.step run (.message seqNum body)) :=
    fun headers _ => hthrough headers
  obtain ⟨n, hends⟩ := exists_drain (h.message hadmits) hleast
  refine ⟨n, fun fuel hfuel => ?_⟩
  rw [heq]
  cases ready with
  | false => rfl
  | true => exact hends fuel fuel hfuel hfuel

end Message

/-- Along every run in which all that is drained is read through, the slots of what a call hands
over are empty, the slots hold what was received, and only that is acknowledged. -/
theorem drained_of_reaches {run : InputRun}
    (hrun : Transition.Reaches InputRun.Starts step Admitted run) : Drained run := by
  have hinvariant : Invariant run := by
    refine hrun.invariant (I := Invariant) ?_ ?_
    · rintro _ ⟨base, hdvd, hcap, rfl⟩
      exact ⟨FragmentWindow.reset _ hdvd hcap, fun q hq => (Nat.not_lt_zero q hq).elim,
        fun x hx => (List.not_mem_nil hx).elim⟩
    · intro run e h hadmitted
      cases e with
      | message seqNum body reader fuel => exact (readStream_keeps h hadmitted).1
      | heartbeat firstSeqNum lastSeqNum =>
        have hadmits : Admits run (.heartbeat firstSeqNum lastSeqNum) := trivial
        exact h.step hadmits
  refine ⟨hinvariant.truthful, fun e hadmitted q hle hlt => ?_, fun seqNum body reader hadmits
    hthrough => exists_readStream hinvariant hadmits hthrough⟩
  cases e with
  | message seqNum body reader fuel => exact (readStream_keeps hinvariant hadmitted).2 q hle hlt
  | heartbeat firstSeqNum lastSeqNum =>
    have hhandled : (step run (.heartbeat firstSeqNum lastSeqNum)).handled = run.handled := by
      simp [step, ReadRun.step, InputRun.step, InputRun.withStream, uxrProcessHeartbeat,
        FragmentWindow.seqSteps_self]
    exact (Nat.not_lt_of_le hle (hhandled ▸ hlt)).elim

/-- What is not in FRAGMENTs is read through. -/
lemma readsThrough_of_plain {run : InputRun} (reader : Reader)
    (hplain : uxrGetReliableBufferSize run.stream.base (seqOf run.handled) = 0 ∨
      onGetFragmentationInfo (slotHeader run.stream.base (seqOf run.handled)) = .noFragmented) :
    ReadsThrough run reader := by
  intro first fragments hholds
  obtain ⟨hsize, -, hinfo⟩ := hholds.slot 0 (Nat.succ_pos _)
  rw [Nat.add_zero] at hsize hinfo
  rcases hplain with hzero | hnone
  · rw [hzero] at hsize
    unfold subheaderSize at hsize
    omega
  · rw [hnone] at hinfo
    split at hinfo
    · cases hinfo
    · cases hinfo

/-- A new stream of two slots. -/
def newRun : InputRun := ⟨uxrInitInputReliableStream (twoSlots 16 sixteen_lt), 0, []⟩

/-- The bytes of a HEARTBEAT. -/
def heartbeatBytes : List UInt8 := Submessage.row [heartbeatSubmessage]

/-- The last FRAGMENT of a DATA arrives. -/
def firstRun : InputRun := step newRun (.message 1 ([13, 3, 8, 0] ++ lastFragment) plainReader 0)

/-- The first FRAGMENT follows, and the DATA is drained. -/
def dataRun : InputRun := step firstRun (.message 0 ([13, 1, 12, 0] ++ firstFragment) plainReader 2)

/-- A message arrives before the one that is next. -/
def earlyRun : InputRun := step dataRun (.message 3 heartbeatBytes plainReader 0)

/-- The message that is next arrives, and the one behind it is drained. -/
def drainedRun : InputRun := step earlyRun (.message 2 heartbeatBytes plainReader 3)

lemma firstRun_admitted :
    Admitted newRun (.message 1 ([13, 3, 8, 0] ++ lastFragment) plainReader 0) := by
  refine ⟨⟨⟨⟨by decide, by decide, ?_, ?_⟩, ?_⟩, by decide⟩, trivial⟩
  · exact fun hinfo => absurd hinfo (by decide)
  · exact fun hinfo => absurd hinfo (by decide)
  · exact fun _ => by decide

/-- The FRAGMENTs as they were received. -/
lemma firstRun_holds : HoldsFragmented (ReadRun.step firstRun
    (.message 0 ([13, 1, 12, 0] ++ firstFragment))).stream 0 firstFragment [lastFragment] where
  lastHandled_eq := by decide
  dvd := by decide
  length_lt := by decide
  capacity_gt := by decide
  nonempty := by decide
  fits := by decide
  slot := by decide

lemma dataRun_admitted :
    Admitted firstRun (.message 0 ([13, 1, 12, 0] ++ firstFragment) plainReader 2) := by
  refine ⟨⟨⟨⟨by decide, by decide, ?_, ?_⟩, ?_⟩, by decide +kernel⟩, ?_, ?_, trivial⟩
  · exact fun _ _ => ⟨1, by decide, by decide, by decide⟩
  · exact fun hinfo => absurd hinfo (by decide)
  · exact fun _ => by decide
  · intro first fragments hholds
    obtain ⟨rfl, rfl⟩ := holdsFragmented_unique hholds firstRun_holds
    exact ⟨[dataSubmessage], [], [12], rfl, List.cons_ne_nil _ _, rfl, by decide, by decide,
      .inr (by decide), by decide⟩
  · exact readsThrough_of_plain _ (.inl (by decide +kernel))

lemma earlyRun_admitted : Admitted dataRun (.message 3 heartbeatBytes plainReader 0) := by
  refine ⟨⟨⟨⟨by decide, by decide +kernel, ?_, ?_⟩, ?_⟩, by decide +kernel⟩, trivial⟩
  · exact fun hinfo => absurd hinfo (by decide)
  · exact fun _ => by decide +kernel
  · exact fun hinfo => absurd rfl hinfo

lemma drainedRun_admitted : Admitted earlyRun (.message 2 heartbeatBytes plainReader 3) := by
  refine ⟨⟨⟨⟨by decide, by decide +kernel, ?_, ?_⟩, ?_⟩, by decide +kernel⟩, ?_, ?_, ?_, trivial⟩
  · exact fun hinfo => absurd hinfo (by decide)
  · exact fun _ _ => by decide +kernel
  · exact fun hinfo => absurd rfl hinfo
  · exact readsThrough_of_plain _ (.inr (by decide +kernel))
  · exact readsThrough_of_plain _ (.inl (by decide +kernel))
  · exact readsThrough_of_plain _ (.inl (by decide +kernel))

/-- Four messages that arrive in another order are drained, and acknowledged. -/
theorem drained_of_reaches_data :
    Drained drainedRun ∧ (uxrComputeAcknack drainedRun.stream).1 = 4 := by
  have hstart : Transition.Reaches InputRun.Starts step Admitted newRun :=
    .start ⟨_, by decide, by decide, rfl⟩
  have hdata : Transition.Reaches InputRun.Starts step Admitted dataRun :=
    (hstart.next firstRun_admitted).next dataRun_admitted
  refine ⟨drained_of_reaches ((hdata.next earlyRun_admitted).next drainedRun_admitted), ?_⟩
  decide +kernel

/-- The first FRAGMENT of a HEARTBEAT arrives. -/
def openRun : InputRun :=
  step newRun (.message 0 ([13, 1, 8, 0] ++ heartbeatBytes.take 8) plainReader 0)

/-- The last FRAGMENT follows, and the HEARTBEAT is drained. -/
def keptRun : InputRun :=
  step openRun (.message 1 ([13, 3, 1, 0] ++ heartbeatBytes.drop 8) plainReader 2)

/-- Another HEARTBEAT follows, and what the slot behind it holds is drained once more. -/
def staleRun : InputRun := step keptRun (.message 2 heartbeatBytes plainReader 3)

/-- A slot of the HEARTBEAT in FRAGMENTs is not emptied, and is taken for the message that has its
slot in the next turn: the number 3 is acknowledged, and was not received. -/
theorem drained_of_reaches_fails :
    Transition.Reaches InputRun.Starts step Arrives staleRun ∧
      (uxrComputeAcknack staleRun.stream).1 = 4 ∧ (∀ body, (3, body) ∉ staleRun.received) ∧
      ¬ Truthful staleRun := by
  have hreceived : staleRun.received = [(2, heartbeatBytes),
      (1, [13, 3, 1, 0] ++ heartbeatBytes.drop 8),
      (0, [13, 1, 8, 0] ++ heartbeatBytes.take 8)] := by decide +kernel
  have hunacked : (uxrComputeAcknack staleRun.stream).1 = 4 := by decide +kernel
  have hnot : ∀ body, (3, body) ∉ staleRun.received := by
    intro body hmem
    rw [hreceived] at hmem
    simp at hmem
  refine ⟨?_, hunacked, hnot, fun htruthful => ?_⟩
  · have hstart : Transition.Reaches InputRun.Starts step Arrives newRun :=
      .start ⟨_, by decide, by decide, rfl⟩
    have hopen : Arrives newRun (.message 0 ([13, 1, 8, 0] ++ heartbeatBytes.take 8)
        plainReader 0) := by
      refine ⟨⟨⟨by decide, by decide, ?_, ?_⟩, fun _ => by decide⟩, by decide⟩
      · exact fun _ _ => ⟨1, by decide, by decide, by decide⟩
      · exact fun hinfo => absurd hinfo (by decide)
    have hkept : Arrives openRun (.message 1 ([13, 3, 1, 0] ++ heartbeatBytes.drop 8)
        plainReader 2) := by
      refine ⟨⟨⟨by decide, by decide, ?_, ?_⟩, fun _ => by decide⟩, by decide +kernel⟩
      · exact fun hinfo => absurd hinfo (by decide)
      · exact fun hinfo => absurd hinfo (by decide)
    have hstale : Arrives keptRun (.message 2 heartbeatBytes plainReader 3) := by
      refine ⟨⟨⟨by decide, by decide +kernel, ?_, ?_⟩, fun hinfo => absurd rfl hinfo⟩,
        by decide +kernel⟩
      · exact fun hinfo => absurd hinfo (by decide)
      · exact fun _ _ => by decide +kernel
    exact ((hstart.next hopen).next hkept).next hstale
  · obtain ⟨F, hfirst, hge, -, hbefore⟩ := htruthful.acknowledged
    have hhandled : staleRun.handled = 4 := by decide +kernel
    have hfour : (seqOf (65535 + F)).val = 4 := by rw [← hfirst, hunacked]; rfl
    rw [seqOf_val] at hfour
    obtain ⟨body, hmem⟩ := hbefore 3 (by omega)
    exact hnot body hmem

end DrainedRun

end XrceDds
