import XrceDds.Client.OutputWindow
import XrceDds.Lib.Transition

/-!
# Runs of an output reliable stream

What a client does with a stream of its own: it writes, serializes into the slots it was
given, flashes, handles an ACKNACK, asks for a heartbeat, resets.  A run is admitted when
every fragmented write fits the window or is refused (`FragmentWriteOk`) and every
ACKNACK acknowledges what was sent (`AcknackOk`).  Along such runs the window invariant
holds (`OutputRun.window`).

The file then answers what a single fragmented write and a single ACKNACK do in a state
of such a run: `FragmentWriteSafe` holds exactly of the writes that are `FragmentWriteOk`,
and `AcknackHarmless` exactly of the ACKNACKs whose number lies between `lastAcknown` and
`lastSent`.
-/

namespace XrceDds

open ByteMemory Transition

/-- What a client does with one of its output reliable streams. -/
inductive OutputEvent where
  | write (length : ℕ) (ub : UcdrBuffer)
  | serialize (seqNum : UxrSeqNum) (o : ℕ) (bytes : List UInt8)
  | flash
  | acknack (bitmap : ℕ) (firstUnackedSeqNum : UxrSeqNum)
  | heartbeat (timestamp : ℤ)
  | reset

section Events

variable (info : UxrSessionInfo) (streamIdRaw : UInt8)

/-- The stream after an event.  A write that divides by zero has no outcome; it is not
admitted. -/
def outputStep (stream : OutputReliableStream) : OutputEvent → OutputReliableStream
  | .write length ub =>
    match uxrPrepareReliableBufferToWrite stream length ub with
    | some r => r.stream
    | none => stream
  | .serialize seqNum o bytes =>
    { stream with base := stream.base.store (uxrGetReliableBuffer stream.base seqNum + o) bytes }
  | .flash => (uxrFlashOutputStreams info streamIdRaw stream).1
  | .acknack bitmap firstUnackedSeqNum => (readSubmessageAcknack stream bitmap firstUnackedSeqNum).1
  | .heartbeat timestamp => (uxrUpdateOutputStreamHeartbeatTimestamp stream timestamp).1
  | .reset => uxrResetOutputReliableStream stream

end Events

/-- Whether a write of `length` bytes is neither behind what the current slot holds nor in
a new slot. -/
def TakesFragments (stream : OutputReliableStream) (length : ℕ) : Prop :=
  ¬ sizeT (uxrGetReliableBufferSize stream.base stream.lastWritten + length) ≤
      uxrGetReliableBufferCapacity stream.base ∧
    ¬ sizeT (stream.offset + length) ≤ uxrGetReliableBufferCapacity stream.base

instance (stream : OutputReliableStream) (length : ℕ) :
    Decidable (TakesFragments stream length) := by
  unfold TakesFragments; infer_instance

/-- A fragmented write is refused, or its fragments fit the window. -/
def FragmentWriteOk (stream : OutputReliableStream) (length : ℕ) : Prop :=
  availableBlockSize stream ≠ 0 ∧
    (getAvailableFreeSlots stream < necessaryCompleteBlocks stream length ∨
      FragmentsFit stream length)

instance (stream : OutputReliableStream) (length : ℕ) :
    Decidable (FragmentWriteOk stream length) := by
  unfold FragmentWriteOk; infer_instance

/-- An ACKNACK acknowledges up to a number from `lastAcknown` to `lastSent`. -/
def AcknackOk (stream : OutputReliableStream) (firstUnackedSeqNum : UxrSeqNum) : Prop :=
  seqSteps stream.lastAcknown (uxrSeqNumSub firstUnackedSeqNum 1) ≤
    seqSteps stream.lastAcknown stream.lastSent

instance (stream : OutputReliableStream) (firstUnackedSeqNum : UxrSeqNum) :
    Decidable (AcknackOk stream firstUnackedSeqNum) := by
  unfold AcknackOk; infer_instance

/-- The events that are admitted.  Lengths are those of objects in memory, the user
serializes inside bodies, and the window an ACKNACK leaves behind has its positions in
different slots: always, when the history divides a turn as it is documented to do, and
until the window meets the end of the turn otherwise. -/
def OutputAdmitted (stream : OutputReliableStream) : OutputEvent → Prop
  | .write length _ =>
    uxrGetReliableBufferCapacity stream.base + length < 18446744073709551616 ∧
      (TakesFragments stream length → FragmentWriteOk stream length)
  | .serialize _ o bytes => o + bytes.length ≤ uxrGetReliableBufferCapacity stream.base
  | .acknack _ firstUnackedSeqNum =>
    AcknackOk stream firstUnackedSeqNum ∧
      SlotsDistinct stream.base.history (uxrSeqNumSub firstUnackedSeqNum 1).val
  | .flash => True
  | .heartbeat _ => True
  | .reset => True

/-- A stream that was just initialised, with slots that hold more than two headers. -/
def OutputStart (info : UxrSessionInfo) (stream : OutputReliableStream) : Prop :=
  ∃ base, stream = uxrInitOutputReliableStream base (uxrSessionHeaderOffset info) ∧
    uxrSessionHeaderOffset info + 2 * subheaderSize < uxrGetReliableBufferCapacity base

/-- The streams that admitted runs reach. -/
def OutputRun (info : UxrSessionInfo) (streamIdRaw : UInt8) (stream : OutputReliableStream) :
    Prop :=
  Reaches (OutputStart info) (outputStep info streamIdRaw) OutputAdmitted stream

/-! ## The window along a run -/

/-- A stream whose positions and slots are in order, and whose session headers fit. -/
def OutputInvariant (info : UxrSessionInfo) (stream : OutputReliableStream) : Prop :=
  stream.offset = uxrSessionHeaderOffset info ∧ ∃ a s w, OutputWindow stream a s w

namespace OutputWindow

variable {stream : OutputReliableStream} {a s w : ℕ}

/-- Bytes stored in a body keep the window. -/
theorem store (h : OutputWindow stream a s w) {i address : ℕ} {bytes : List UInt8}
    (hlo : uxrGetReliableBuffer stream.base i ≤ address)
    (hhi : address + bytes.length ≤
      uxrGetReliableBuffer stream.base i + uxrGetReliableBufferCapacity stream.base) :
    OutputWindow { stream with base := stream.base.store address bytes } a s w :=
  h.withBase rfl rfl fun _ => uxrGetReliableBufferSize_store stream.base hlo hhi

end OutputWindow

/-- What a write that needs no fragments does: nothing, or it reserves `length` bytes
behind what the current slot holds, or `length` bytes in a new slot. -/
inductive PlainWrite (stream : OutputReliableStream) (a w length : ℕ) (ub : UcdrBuffer) :
    PrepareResult → Prop
  | refused : PlainWrite stream a w length ub ⟨false, ub, stream⟩
  | current
      (fits : uxrGetReliableBufferSize stream.base (seqOf w) + length ≤
        uxrGetReliableBufferCapacity stream.base)
      (inWindow : w ≤ a + stream.base.history) :
      PlainWrite stream a w length ub
        { availableToWrite := true
          ub := ucdrInitBufferOriginOffset (uxrGetReliableBuffer stream.base (seqOf w))
            (uxrGetReliableBufferSize stream.base (seqOf w) + length) 0
            (uxrGetReliableBufferSize stream.base (seqOf w))
          stream := stream.writtenTo
            (uxrSetReliableBufferSize stream.base (seqOf w)
              (uxrGetReliableBufferSize stream.base (seqOf w) + length)) (seqOf w) }
  | next
      (full : uxrGetReliableBufferCapacity stream.base <
        uxrGetReliableBufferSize stream.base (seqOf w) + length)
      (fits : stream.offset + length ≤ uxrGetReliableBufferCapacity stream.base)
      (inWindow : w + 1 ≤ a + stream.base.history) :
      PlainWrite stream a w length ub
        { availableToWrite := true
          ub := ucdrInitBufferOriginOffset (uxrGetReliableBuffer stream.base (seqOf (w + 1)))
            (stream.offset + length) 0 stream.offset
          stream := stream.writtenTo
            (uxrSetReliableBufferSize stream.base (seqOf (w + 1)) (stream.offset + length))
            (seqOf (w + 1)) }

/-- The fragment branch is taken by the writes that do not fit. -/
lemma prepare_of_takesFragments {stream : OutputReliableStream} {length : ℕ}
    (h : TakesFragments stream length) (ub : UcdrBuffer) :
    uxrPrepareReliableBufferToWrite stream length ub = prepareFragments stream length ub := by
  unfold uxrPrepareReliableBufferToWrite
  rw [if_neg h.1, if_neg h.2]

namespace OutputWindow

variable {stream : OutputReliableStream} {a s w : ℕ}

/-- A write that needs no fragments has an outcome, and it is one of the three. -/
theorem prepare_plain (h : OutputWindow stream a s w) {length : ℕ} (ub : UcdrBuffer)
    (hlength : uxrGetReliableBufferCapacity stream.base + length < 18446744073709551616)
    (hplain : ¬ TakesFragments stream length) :
    ∃ r, uxrPrepareReliableBufferToWrite stream length ub = some r ∧
      PlainWrite stream a w length ub r := by
  have hsize := (h.bufferSize_bounds (seqOf w)).2
  have hroom := h.room
  have hsum : sizeT (uxrGetReliableBufferSize stream.base (seqOf w) + length) =
      uxrGetReliableBufferSize stream.base (seqOf w) + length := Nat.mod_eq_of_lt (by omega)
  have hsum' : sizeT (stream.offset + length) = stream.offset + length :=
    Nat.mod_eq_of_lt (by omega)
  unfold TakesFragments at hplain
  unfold uxrPrepareReliableBufferToWrite
  simp only [h.lastWritten_eq, hsum, hsum', uxrSeqNumAdd_seqOf] at hplain ⊢
  by_cases hcurrent : uxrGetReliableBufferSize stream.base (seqOf w) + length ≤
      uxrGetReliableBufferCapacity stream.base
  · rw [if_pos hcurrent]
    split
    · next hcmp => exact ⟨_, rfl, .current hcurrent (h.le_of_available (by omega) hcmp)⟩
    · exact ⟨_, rfl, .refused⟩
  · have hnext : stream.offset + length ≤ uxrGetReliableBufferCapacity stream.base := by tauto
    rw [if_neg hcurrent, if_pos hnext]
    split
    · next hcmp =>
      exact ⟨_, rfl, .next (by omega) hnext (h.le_of_available le_rfl hcmp)⟩
    · exact ⟨_, rfl, .refused⟩

/-- A write that needs no fragments keeps the window in order. -/
theorem of_plainWrite (h : OutputWindow stream a s w) {length : ℕ} {ub : UcdrBuffer}
    {r : PrepareResult} (hr : PlainWrite stream a w length ub r) :
    ∃ w', OutputWindow r.stream a s w' := by
  cases hr with
  | refused => exact ⟨w, h⟩
  | current hfits hwindow =>
    exact ⟨w, h.writeCurrent hwindow (Nat.le_add_right _ _) hfits⟩
  | next hfull hfits hwindow =>
    exact ⟨w + 1, h.writeNext hwindow (by omega) (Nat.le_add_right _ _) hfits⟩

/-- A fragmented write that is refused or fits keeps the window in order. -/
theorem prepareFragments (h : OutputWindow stream a s w) {length : ℕ} (ub : UcdrBuffer)
    (hok : FragmentWriteOk stream length) :
    ∃ r w', prepareFragments stream length ub = some r ∧ OutputWindow r.stream a s w' := by
  unfold XrceDds.prepareFragments
  dsimp only
  rw [if_neg hok.1]
  split
  · next hfree =>
    have hfit := hok.2.resolve_left (by omega)
    exact ⟨_, _, rfl, h.layFragments hok.1 hfit⟩
  · exact ⟨_, w, rfl, h⟩

/-- An admitted write keeps the window in order. -/
theorem prepare (h : OutputWindow stream a s w) {length : ℕ} (ub : UcdrBuffer)
    (hadmitted : OutputAdmitted stream (.write length ub)) :
    ∃ r w', uxrPrepareReliableBufferToWrite stream length ub = some r ∧
      OutputWindow r.stream a s w' := by
  by_cases htakes : TakesFragments stream length
  · rw [prepare_of_takesFragments htakes]
    exact h.prepareFragments ub (hadmitted.2 htakes)
  · obtain ⟨r, hr, hplain⟩ := h.prepare_plain ub hadmitted.1 htakes
    obtain ⟨w', hw'⟩ := h.of_plainWrite hplain
    exact ⟨r, w', hr, hw'⟩

/-- A session header is stamped into the body of its slot. -/
theorem stamp (h : OutputWindow stream a s w) (info : UxrSessionInfo) (streamIdRaw : UInt8)
    (hoffset : stream.offset = uxrSessionHeaderOffset info) (seqNum : UxrSeqNum) (j : ℕ) :
    OutputWindow
      { stream with
        base := uxrStampSessionHeader info streamIdRaw seqNum stream.base
          (uxrGetReliableBuffer stream.base j) } a s w := by
  have hroom := h.room
  refine h.store (i := j) le_rfl ?_
  rw [length_messageHeader]
  omega

/-- Flashing keeps the window in order. -/
theorem flashLoop (h : OutputWindow stream a s w) (info : UxrSessionInfo) (streamIdRaw : UInt8)
    (hoffset : stream.offset = uxrSessionHeaderOffset info) (n : ℕ) :
    (flashLoop info streamIdRaw n stream).1.offset = uxrSessionHeaderOffset info ∧
      ∃ s' w', s ≤ s' ∧ OutputWindow (flashLoop info streamIdRaw n stream).1 a s' w' := by
  induction n generalizing stream s w with
  | zero => exact ⟨hoffset, s, w, le_rfl, h⟩
  | succ n ih =>
    unfold XrceDds.flashLoop
    by_cases hsend : (uxrPrepareNextReliableBufferToSend stream).dataToSend
    · obtain ⟨hwindow, hlength, heq⟩ := h.prepareNext_eq hsend
      rw [heq]
      obtain ⟨hoffset', s', w', hle, h'⟩ :=
        ih ((h.prepareNext hwindow hlength).stamp info streamIdRaw hoffset _ _) hoffset
      exact ⟨hoffset', s', w', Nat.le_of_succ_le hle, h'⟩
    · simp only [hsend]
      exact ⟨hoffset, s, w, le_rfl, h⟩

end OutputWindow

/-- The stream after an ACKNACK that acknowledges `n` messages. -/
def acknackTo (stream : OutputReliableStream) (bitmap n : ℕ) : OutputReliableStream :=
  { cleanBuffers n stream with
    sendLost := decide (0 < bitmap)
    nextHeartbeatTries := 0 }

@[simp] lemma acknackTo_lastAcknown (stream : OutputReliableStream) (bitmap n : ℕ) :
    (acknackTo stream bitmap n).lastAcknown = (cleanBuffers n stream).lastAcknown := rfl

@[simp] lemma acknackTo_base (stream : OutputReliableStream) (bitmap n : ℕ) :
    (acknackTo stream bitmap n).base = (cleanBuffers n stream).base := rfl

/-- An ACKNACK cleans as many slots as the number it acknowledges is steps ahead. -/
lemma uxrProcessAcknack_eq (stream : OutputReliableStream) (bitmap : ℕ) (f : UxrSeqNum) :
    uxrProcessAcknack stream bitmap f =
      acknackTo stream bitmap (seqSteps stream.lastAcknown (uxrSeqNumSub f 1)) := by
  rw [← uxrSeqNumSub_eq_seqSteps]
  rfl

namespace OutputWindow

variable {stream : OutputReliableStream} {a s w : ℕ}

/-- An ACKNACK of what was sent acknowledges some of the positions that were sent. -/
lemma acknack_positions (h : OutputWindow stream a s w) {f : UxrSeqNum} (hok : AcknackOk stream f)
    (hdistinct : SlotsDistinct stream.base.history (uxrSeqNumSub f 1).val) (bitmap : ℕ) :
    ∃ d, d ≤ s - a ∧ SlotsDistinct stream.base.history (a + d) ∧
      uxrProcessAcknack stream bitmap f = acknackTo stream bitmap d := by
  have hwritten := h.written_le
  have hsent := h.sent_lt
  have hlt := stream.base.history_lt
  have hacknown := h.acknown_le
  obtain ⟨d, hd⟩ : ∃ d, d = seqSteps (seqOf a) (uxrSeqNumSub f 1) := ⟨_, rfl⟩
  have hx : seqOf (a + d) = uxrSeqNumSub f 1 := by
    rw [hd]
    exact seqOf_add_seqSteps a _
  have hs : seqSteps (seqOf a) (seqOf s) = s - a := by
    have := seqSteps_seqOf a (show s - a < 65536 by omega)
    rwa [Nat.add_sub_cancel' hacknown] at this
  refine ⟨d, ?_, ?_, ?_⟩
  · unfold AcknackOk at hok
    rwa [h.lastAcknown_eq, h.lastSent_eq, ← hd, hs] at hok
  · rwa [← hx, seqOf_val, slotsDistinct_mod] at hdistinct
  · rw [uxrProcessAcknack_eq, h.lastAcknown_eq, ← hd]

/-- Acknowledging positions that were sent keeps the window in order. -/
theorem acknackTo (h : OutputWindow stream a s w) (bitmap : ℕ) {d : ℕ} (hd : d ≤ s - a)
    (hdistinct : SlotsDistinct stream.base.history (a + d)) :
    OutputWindow (acknackTo stream bitmap d) (a + d) s w := by
  have hacknown := h.acknown_le
  have hclean := h.cleanBuffers (Nat.le_add_right a d) (by omega) hdistinct
  rw [Nat.add_sub_cancel_left] at hclean
  exact hclean.congr rfl rfl rfl rfl rfl

/-- An ACKNACK of what was sent keeps the window in order. -/
theorem processAcknack (h : OutputWindow stream a s w) (bitmap : ℕ) {f : UxrSeqNum}
    (hok : AcknackOk stream f)
    (hdistinct : SlotsDistinct stream.base.history (uxrSeqNumSub f 1).val) :
    ∃ a', OutputWindow (uxrProcessAcknack stream bitmap f) a' s w := by
  obtain ⟨d, hd, hdistinct, heq⟩ := h.acknack_positions hok hdistinct bitmap
  rw [heq]
  exact ⟨a + d, h.acknackTo bitmap hd hdistinct⟩

end OutputWindow

/-- The search for a slot to send again stays in front of what was sent. -/
lemma nackSearch_bounds {stream : OutputReliableStream} {s : ℕ} (hs : stream.lastSent = seqOf s)
    (n : ℕ) {X : ℕ} (hX : X ≤ s) {seqNum : UxrSeqNum}
    (hfound : nackSearch stream n (seqOf X) = some seqNum) :
    ∃ Y, X < Y ∧ Y ≤ s ∧ seqNum = seqOf Y := by
  induction n generalizing X with
  | zero => exact absurd hfound (by simp [nackSearch])
  | succ n ih =>
    unfold nackSearch at hfound
    simp only [uxrSeqNumAdd_seqOf, hs] at hfound
    split at hfound
    · next hcmp =>
      have hle := le_of_uxrSeqNumCmp_nonpos hcmp (by omega)
      split at hfound
      · exact ⟨X + 1, Nat.lt_succ_self X, hle, (Option.some.inj hfound).symm⟩
      · obtain ⟨Y, hlo, hhi, heq⟩ := ih hle hfound
        exact ⟨Y, Nat.lt_of_succ_lt hlo, hhi, heq⟩
    · exact absurd hfound (by simp)

/-- The loop over the lost messages changes `sendLost` only. -/
lemma nackLoop_stream (n : ℕ) (stream : OutputReliableStream) (seqNumIt : UxrSeqNum) :
    ∃ sendLost, (nackLoop n stream seqNumIt).1 = { stream with sendLost := sendLost } := by
  induction n generalizing seqNumIt with
  | zero => exact ⟨_, rfl⟩
  | succ n ih =>
    unfold nackLoop uxrNextReliableNackBufferToSend
    split
    · next hnext =>
      split at hnext
      · split at hnext
        · obtain ⟨rfl, -⟩ := Prod.mk.injEq .. ▸ hnext
          exact ih _
        · exact absurd (congrArg Prod.snd hnext) (by simp)
      · exact absurd (congrArg Prod.snd hnext) (by simp)
    · next hnext =>
      split at hnext
      · split at hnext
        · exact absurd (congrArg Prod.snd hnext) (by simp)
        · obtain ⟨rfl, -⟩ := Prod.mk.injEq .. ▸ hnext
          exact ⟨false, rfl⟩
      · obtain ⟨rfl, -⟩ := Prod.mk.injEq .. ▸ hnext
        exact ⟨_, rfl⟩

section Run

variable {info : UxrSessionInfo} {streamIdRaw : UInt8} {stream : OutputReliableStream}

/-- The heartbeat timer does not touch the window. -/
lemma OutputInvariant.heartbeat (h : OutputInvariant info stream) (timestamp : ℤ) :
    OutputInvariant info (uxrUpdateOutputStreamHeartbeatTimestamp stream timestamp).1 := by
  obtain ⟨hoffset, a, s, w, hwindow⟩ := h
  unfold uxrUpdateOutputStreamHeartbeatTimestamp
  split
  · split
    · exact ⟨hoffset, a, s, w, hwindow.congr rfl rfl rfl rfl rfl⟩
    · split
      · exact ⟨hoffset, a, s, w, hwindow.congr rfl rfl rfl rfl rfl⟩
      · exact ⟨hoffset, a, s, w, hwindow⟩
  · exact ⟨hoffset, a, s, w, hwindow.congr rfl rfl rfl rfl rfl⟩

/-- A write keeps the length of the session header. -/
lemma prepare_offset {length : ℕ} {ub : UcdrBuffer} {r : PrepareResult}
    (hr : uxrPrepareReliableBufferToWrite stream length ub = some r) :
    r.stream.offset = stream.offset := by
  unfold uxrPrepareReliableBufferToWrite prepareFragments at hr
  dsimp only at hr
  split_ifs at hr <;> cases hr <;> simp only [layFragments_offset]

/-- Every admitted event keeps the invariant. -/
theorem OutputInvariant.step (h : OutputInvariant info stream) {e : OutputEvent}
    (hadmitted : OutputAdmitted stream e) :
    OutputInvariant info (outputStep info streamIdRaw stream e) := by
  have hheartbeat := h.heartbeat
  obtain ⟨hoffset, a, s, w, hwindow⟩ := h
  cases e with
  | write length ub =>
    obtain ⟨r, w', hr, hw'⟩ := hwindow.prepare ub hadmitted
    simp only [outputStep, hr]
    exact ⟨(prepare_offset hr).trans hoffset, a, s, w', hw'⟩
  | serialize seqNum o bytes =>
    exact ⟨hoffset, a, s, w, hwindow.store (i := seqNum) (Nat.le_add_right _ _) (by
      rw [Nat.add_assoc]
      exact Nat.add_le_add_left hadmitted _)⟩
  | flash =>
    obtain ⟨hoffset', s', w', -, hw'⟩ := hwindow.flashLoop info streamIdRaw hoffset 65536
    exact ⟨hoffset', a, s', w', hw'⟩
  | acknack bitmap f =>
    obtain ⟨a', ha'⟩ := hwindow.processAcknack bitmap hadmitted.1 hadmitted.2
    obtain ⟨sendLost, hnack⟩ := nackLoop_stream 65536 (uxrProcessAcknack stream bitmap f)
      (uxrBeginOutputNackBufferIt (uxrProcessAcknack stream bitmap f))
    simp only [outputStep, readSubmessageAcknack, hnack]
    refine ⟨?_, a', s, w, ha'.congr rfl rfl rfl rfl rfl⟩
    exact (OutputWindow.cleanBuffers_frame _ stream).2.2.1.trans hoffset
  | heartbeat timestamp => exact hheartbeat timestamp
  | reset => exact ⟨hoffset, _, _, _, OutputWindow.reset stream hwindow.room⟩

/-- Along every admitted run the positions and the slots are in order. -/
theorem OutputRun.invariant (h : OutputRun info streamIdRaw stream) :
    OutputInvariant info stream := by
  refine Reaches.invariant ?_ (fun _ _ hs he => hs.step he) h
  rintro stream ⟨base, rfl, hroom⟩
  exact ⟨rfl, _, _, _, OutputWindow.reset _ hroom⟩

end Run

/-! ## A fragmented write -/

/-- The sequence numbers that a fragmented write occupies: from its first fragment to its
last. -/
def Occupies (stream stream' : OutputReliableStream) (x : UxrSeqNum) : Prop :=
  seqSteps (firstFragmentSeqNum stream) x ≤
    seqSteps (firstFragmentSeqNum stream) stream'.lastWritten

/-- An accepted write occupies numbers of the window, in slots that were empty or in the
current slot, which it only extends, and leaves every other slot as it was. -/
structure AcceptedSafely (stream stream' : OutputReliableStream) : Prop where
  inWindow : ∀ x, Occupies stream stream' x →
    0 < seqSteps stream.lastAcknown x ∧ seqSteps stream.lastAcknown x ≤ stream.base.history
  slots : ∀ x, Occupies stream stream' x →
    uxrGetReliableBufferSize stream.base x = stream.offset ∨
      (x = stream.lastWritten ∧
        seqSteps stream.lastAcknown stream.lastSent < seqSteps stream.lastAcknown x ∧
        uxrGetReliableBufferSize stream.base x ≤ uxrGetReliableBufferSize stream'.base x ∧
        ∀ p n, p + n ≤ uxrGetReliableBufferSize stream.base x →
          slotBytes stream'.base x p n = slotBytes stream.base x p n)
  others : ∀ j, (∀ x, Occupies stream stream' x →
      x.val % stream.base.history ≠ j % stream.base.history) →
    uxrGetReliableBufferSize stream'.base j = uxrGetReliableBufferSize stream.base j ∧
      ∀ p n, p + n ≤ uxrGetReliableBufferCapacity stream.base →
        slotBytes stream'.base j p n = slotBytes stream.base j p n

/-- What a fragmented write must not do: have no outcome, destroy what the stream holds, or
change a stream that it does not write to. -/
def FragmentWriteSafe (stream : OutputReliableStream) (length : ℕ) (ub : UcdrBuffer) : Prop :=
  ∃ r, uxrPrepareReliableBufferToWrite stream length ub = some r ∧
    (r.availableToWrite = true → AcceptedSafely stream r.stream) ∧
    (r.availableToWrite = false → r.stream = stream)

namespace OutputWindow

variable {stream : OutputReliableStream} {a s w length : ℕ}

/-- The fragments of a write occupy consecutive positions. -/
lemma occupies_iff (h : OutputWindow stream a s w) (length : ℕ)
    (hn : necessaryCompleteBlocks stream length < 65536) (x : UxrSeqNum) :
    Occupies stream (XrceDds.layFragments stream length) x ↔
      ∃ k ≤ necessaryCompleteBlocks stream length, x = seqOf (firstFragment stream w + k) := by
  have hF := h.firstFragmentSeqNum_eq
  unfold Occupies
  rw [layFragments_lastWritten hF, hF, seqSteps_seqOf _ hn]
  constructor
  · intro hle
    exact ⟨_, hle, (seqOf_add_seqSteps _ x).symm⟩
  · rintro ⟨k, hk, rfl⟩
    rwa [seqSteps_seqOf _ (by omega)]

/-- Fragments that fit destroy nothing. -/
theorem acceptedSafely (h : OutputWindow stream a s w) (hfit : FragmentsFit stream length) :
    AcceptedSafely stream (XrceDds.layFragments stream length) := by
  have hlt := stream.base.history_lt
  have hacknown := h.acknown_le
  have hsent := h.sent_lt
  have hfirst := le_firstFragment stream w
  have hlast := h.firstFragment_add_le hfit
  have hF := h.firstFragmentSeqNum_eq
  have hready := h.fragmentsReady hfit
  have hoccupies := h.occupies_iff length (by omega)
  have honly := layFragments_onlySlots hF hready
  have hsteps : ∀ X, a ≤ X → X ≤ a + stream.base.history →
      seqSteps stream.lastAcknown (seqOf X) = X - a := by
    intro X hX hX'
    have := seqSteps_seqOf a (show X - a < 65536 by omega)
    rwa [Nat.add_sub_cancel' hX, ← h.lastAcknown_eq] at this
  constructor
  case inWindow =>
    intro x hx
    obtain ⟨k, hk, rfl⟩ := (hoccupies x).mp hx
    rw [hsteps _ (by omega) (by omega)]
    omega
  case slots =>
    intro x hx
    obtain ⟨k, hk, rfl⟩ := (hoccupies x).mp hx
    rcases Nat.lt_or_ge w (firstFragment stream w + k) with hgt | hle
    · exact .inl (h.size_of_gt hgt (by omega))
    · -- the first fragment continues the current slot
      obtain ⟨rfl, hw⟩ : k = 0 ∧ firstFragment stream w = w := by omega
      refine .inr ⟨?_, ?_, ?_, fun p n hpn => layFragments_slotBytes hF hready (by omega) hpn⟩
      · rw [h.lastWritten_eq, hw, Nat.add_zero]
      · rw [h.lastSent_eq, hsteps _ (by omega) (by omega), hsteps _ (by omega) (by omega)]
        omega
      · rcases Nat.eq_zero_or_pos (necessaryCompleteBlocks stream length) with hzero | hpos
        · have hsize := layFragments_bufferSize_last hF length (by
            rw [lastFragmentSize_of_no_block hzero]
            have := capacity_lt stream.base
            have := h.availableBlockSize_le
            omega)
          have hextends := hfit.2 hzero
          unfold firstFragmentBufferSize at hextends
          rw [hF] at hextends
          rwa [← hzero, hsize, hzero, lastFragmentSize_of_no_block hzero, Nat.add_zero]
        · rw [layFragments_bufferSize_of_lt hF hready hpos]
          exact h.size_le (by omega) (by omega)
  case others =>
    intro j hj
    have hnot : ¬ BlockSlots stream.base.history (firstFragment stream w)
        (necessaryCompleteBlocks stream length + 1) (j % stream.base.history) := by
      rintro ⟨k, hk, heq⟩
      exact hj _ ((hoccupies _).mpr ⟨k, by omega, rfl⟩) heq.symm
    exact ⟨honly.bufferSize_eq j hnot, honly.slotBytes_eq j hnot⟩

/-- The number of free slots is at most that of the slots. -/
lemma getAvailableFreeSlots_le (stream : OutputReliableStream) :
    getAvailableFreeSlots stream ≤ stream.base.history := by
  unfold getAvailableFreeSlots
  exact List.countP_le_length.trans (List.length_range).le

/-- Fragments that leave the window, or shorten the current slot, destroy something. -/
theorem fragmentsFit_of_acceptedSafely (h : OutputWindow stream a s w)
    (hfree : necessaryCompleteBlocks stream length ≤ getAvailableFreeSlots stream)
    (hsafe : AcceptedSafely stream (XrceDds.layFragments stream length)) :
    FragmentsFit stream length := by
  have hlt := stream.base.history_lt
  have hpos := stream.base.history_pos
  have hacknown := h.acknown_le
  have hsent := h.sent_lt
  have hwritten := h.written_le
  have hfirst := le_firstFragment stream w
  have htaken := h.takenSeqNums_eq
  have hslots := getAvailableFreeSlots_le stream
  have hoccupies := h.occupies_iff length (by omega)
  have hinside : takenSeqNums stream + necessaryCompleteBlocks stream length <
      stream.base.history := by
    by_contra hout
    -- the first position that is beyond the window is occupied
    obtain ⟨X, hX, hXF, hXlast⟩ : ∃ X, (X = a + stream.base.history + 1 ∨
        (X = a + stream.base.history + 2 ∧ firstFragment stream w = w + 1 ∧
          w = a + stream.base.history + 1)) ∧ firstFragment stream w ≤ X ∧
        X ≤ firstFragment stream w + necessaryCompleteBlocks stream length := by
      rcases Nat.lt_or_ge (a + stream.base.history + 1) (firstFragment stream w) with hgt | hle
      · exact ⟨firstFragment stream w, .inr ⟨by omega, by omega, by omega⟩, le_rfl, by omega⟩
      · exact ⟨a + stream.base.history + 1, .inl rfl, hle, by omega⟩
    have hx : Occupies stream (XrceDds.layFragments stream length) (seqOf X) :=
      (hoccupies _).mpr ⟨X - firstFragment stream w, by omega, by rw [Nat.add_sub_cancel' hXF]⟩
    have hwindow := hsafe.inWindow _ hx
    have hsteps := seqSteps_seqOf_mod a (X - a)
    rw [Nat.add_sub_cancel' (by omega), ← h.lastAcknown_eq] at hsteps
    rw [hsteps] at hwindow
    -- only the position two behind a window of a whole turn looks as if it were inside
    obtain ⟨hhistory, hX⟩ : stream.base.history = 65535 ∧ X = a + 1 + 65536 := by omega
    have hseq : seqOf X = seqOf (a + 1) := Fin.ext (by simp only [seqOf_val]; omega)
    rw [hseq] at hx
    rcases hsafe.slots _ hx with hempty | ⟨hcurrent, -⟩
    · have := (h.used (a + 1) (by omega) (by omega)).1
      omega
    · rw [h.lastWritten_eq, Fin.ext_iff, seqOf_val, seqOf_val] at hcurrent
      omega
  refine ⟨hinside, fun hzero => ?_⟩
  by_contra hshort
  have hF := h.firstFragmentSeqNum_eq
  have hx : Occupies stream (XrceDds.layFragments stream length) (seqOf (firstFragment stream w)) :=
    (hoccupies _).mpr ⟨0, by omega, rfl⟩
  have hsize := layFragments_bufferSize_last hF length (by
    rw [lastFragmentSize_of_no_block hzero]
    have := capacity_lt stream.base
    have := h.availableBlockSize_le
    omega)
  rw [hzero, lastFragmentSize_of_no_block hzero, Nat.add_zero] at hsize
  unfold firstFragmentBufferSize at hshort
  rw [hF] at hshort
  rcases hsafe.slots _ hx with hempty | ⟨-, -, hextends, -⟩
  · omega
  · omega

/-- A fragmented write is safe exactly when it is refused or its fragments fit. -/
theorem fragmentWriteSafe_iff (h : OutputWindow stream a s w) (ub : UcdrBuffer)
    (htakes : TakesFragments stream length) :
    FragmentWriteSafe stream length ub ↔ FragmentWriteOk stream length := by
  unfold FragmentWriteSafe FragmentWriteOk
  rw [prepare_of_takesFragments htakes]
  unfold XrceDds.prepareFragments
  dsimp only
  by_cases hblock : availableBlockSize stream = 0
  · simp [hblock]
  by_cases hfree : necessaryCompleteBlocks stream length ≤ getAvailableFreeSlots stream
  · simp only [hblock, if_false, hfree, if_true, Option.some.injEq, exists_eq_left', ne_eq,
      not_false_eq_true, true_and]
    constructor
    · exact fun hsafe => .inr (h.fragmentsFit_of_acceptedSafely hfree (hsafe.1 trivial))
    · intro hok
      exact ⟨fun _ => h.acceptedSafely (hok.resolve_left (by omega)), fun hc => by simp at hc⟩
  · simp [hblock, hfree]
    omega

end OutputWindow

/-! ## An ACKNACK -/

/-- A stream holds the message of a sequence number behind `lastAcknown` when the number
has a slot and is not beyond the current one. -/
def Holds (stream : OutputReliableStream) (lastAcknown x : UxrSeqNum) : Prop :=
  0 < seqSteps lastAcknown x ∧ seqSteps lastAcknown x ≤ seqSteps lastAcknown stream.lastWritten ∧
    0 < seqSteps stream.lastAcknown x ∧ seqSteps stream.lastAcknown x ≤ stream.base.history

/-- What an ACKNACK must not do to a stream: take `lastAcknown` out of what was sent, move
it on no ground, lose a message that is still held, or change anything when it is stale. -/
structure AcknackHarmless (stream stream' : OutputReliableStream) (f : UxrSeqNum) : Prop where
  inRange : seqSteps stream.lastAcknown stream'.lastAcknown ≤
    seqSteps stream.lastAcknown stream.lastSent
  moves : stream'.lastAcknown ≠ stream.lastAcknown →
    0 < seqSteps stream.lastAcknown (uxrSeqNumSub f 1) ∧
      seqSteps stream.lastAcknown (uxrSeqNumSub f 1) ≤ seqSteps stream.lastAcknown stream.lastSent
  held : ∀ x, Holds stream stream'.lastAcknown x →
    uxrGetReliableBufferSize stream'.base x = uxrGetReliableBufferSize stream.base x
  stale : ¬ (0 < seqSteps stream.lastAcknown (uxrSeqNumSub f 1) ∧
      seqSteps stream.lastAcknown (uxrSeqNumSub f 1) ≤
        seqSteps stream.lastAcknown stream.lastSent) →
    stream'.lastAcknown = stream.lastAcknown ∧
      ∀ j, uxrGetReliableBufferSize stream'.base j = uxrGetReliableBufferSize stream.base j

/-- An ACKNACK moves `lastAcknown` to the number it names, whatever that is. -/
theorem uxrProcessAcknack_lastAcknown (stream : OutputReliableStream) (bitmap : ℕ)
    (f : UxrSeqNum) : (uxrProcessAcknack stream bitmap f).lastAcknown = uxrSeqNumSub f 1 := by
  rw [uxrProcessAcknack_eq, acknackTo_lastAcknown,
    OutputWindow.cleanBuffers_lastAcknown _ stream (seqOf_self _).symm]
  have := seqOf_add_seqSteps stream.lastAcknown.val (uxrSeqNumSub f 1)
  rwa [seqOf_self] at this

/-- An ACKNACK is harmless exactly when the number it acknowledges lies between
`lastAcknown` and `lastSent`. -/
theorem OutputWindow.acknackHarmless_iff {stream : OutputReliableStream} {a s w : ℕ}
    (h : OutputWindow stream a s w) (bitmap : ℕ) (f : UxrSeqNum) :
    AcknackHarmless stream (uxrProcessAcknack stream bitmap f) f ↔ AcknackOk stream f := by
  have hlt := stream.base.history_lt
  have hacknown := h.acknown_le
  have hsent := h.sent_lt
  have hwritten := h.written_le
  have hmoved := uxrProcessAcknack_lastAcknown stream bitmap f
  constructor
  · intro hharmless
    have := hharmless.inRange
    rwa [hmoved] at this
  intro hok
  obtain ⟨d, hd⟩ : ∃ d, d = seqSteps stream.lastAcknown (uxrSeqNumSub f 1) := ⟨_, rfl⟩
  have hx : seqOf (a + d) = uxrSeqNumSub f 1 := by
    rw [hd, h.lastAcknown_eq]
    exact seqOf_add_seqSteps a _
  have hs : seqSteps stream.lastAcknown stream.lastSent = s - a := by
    have := seqSteps_seqOf a (show s - a < 65536 by omega)
    rwa [Nat.add_sub_cancel' hacknown, ← h.lastAcknown_eq, ← h.lastSent_eq] at this
  have hds : d ≤ s - a := by
    rw [← hs, hd]
    exact hok
  have honly : OnlySlots stream.base (uxrProcessAcknack stream bitmap f).base
      (CleanedSlots stream.base.history a d) := by
    rw [uxrProcessAcknack_eq, ← hd, acknackTo_base]
    exact cleanBuffers_onlySlots d stream h.lastAcknown_eq
  constructor
  case inRange =>
    rw [hmoved]
    exact hok
  case moves =>
    intro hne
    refine ⟨Nat.pos_of_ne_zero fun hzero => hne ?_, hok⟩
    rw [hmoved, ← hx, hd, hzero, Nat.add_zero, h.lastAcknown_eq]
  case held =>
    rintro x ⟨hpos, hle, hin, hwindow⟩
    rw [hmoved, ← hx] at hpos hle
    obtain ⟨k, hk, rfl⟩ : ∃ k < 65536, x = seqOf (a + d + k) :=
      ⟨_, seqSteps_lt _ _, (seqOf_add_seqSteps (a + d) x).symm⟩
    have hw := seqSteps_seqOf_mod (a + d) (w - (a + d))
    rw [Nat.add_sub_cancel' (by omega), ← h.lastWritten_eq] at hw
    have hka := seqSteps_seqOf_mod a (d + k)
    rw [← Nat.add_assoc, ← h.lastAcknown_eq] at hka
    rw [seqSteps_seqOf _ hk] at hpos hle
    rw [hw] at hle
    rw [hka] at hin hwindow
    refine honly.bufferSize_eq _ ?_
    rintro ⟨i, hi, heq⟩
    have := h.distinct (a + d + k) (a + 1 + i) (by omega) (by omega) (by omega) (by omega) heq
    omega
  case stale =>
    intro hstale
    have hzero : d = 0 := by
      by_contra hne
      exact hstale ⟨Nat.pos_of_ne_zero (hd ▸ hne), hok⟩
    refine ⟨by rw [hmoved, ← hx, hzero, Nat.add_zero, h.lastAcknown_eq], fun j => ?_⟩
    refine honly.bufferSize_eq _ ?_
    rintro ⟨i, hi, -⟩
    omega

end XrceDds
