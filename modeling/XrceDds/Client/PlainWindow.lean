import XrceDds.Client.OutputDrain
import XrceDds.Client.WriteAccess

/-!
# The window under plain writes

A stream whose writes each fit one slot needs less than `OutputWindow` asks for: slots of
any capacity will do, as long as the history divides a turn.  In exchange the window says
more about its end.  `written_le` leaves a position behind the window only to a stream that
has just sent its last slot, and that is what makes `lastSent` tell whether anything waits
to be sent (`PlainWindow.flash`).
-/

namespace XrceDds

open ByteMemory

/-- A submessage of `length` bytes fits a slot that holds nothing else. -/
def FitsSlot (stream : OutputReliableStream) (length : ℕ) : Prop :=
  stream.offset + length ≤ uxrGetReliableBufferCapacity stream.base

instance (stream : OutputReliableStream) (length : ℕ) : Decidable (FitsSlot stream length) := by
  unfold FitsSlot; infer_instance

/-- A slot that is empty, or holds a message that fits. -/
def SlotSound (stream : OutputReliableStream) (j : ℕ) : Prop :=
  uxrGetReliableBufferSize stream.base j = stream.offset ∨
    stream.offset < uxrGetReliableBufferSize stream.base j ∧
      uxrGetReliableBufferSize stream.base j ≤ uxrGetReliableBufferCapacity stream.base

/-- The room that a submessage takes: its header, its payload, and the padding. -/
def submessageSize (payloadSize : ℕ) : ℕ :=
  subheaderSize + payloadSize + uxrSubmessagePadding payloadSize

/-- A submessage is not empty. -/
lemma submessageSize_pos (payloadSize : ℕ) : 4 ≤ submessageSize payloadSize := by
  unfold submessageSize subheaderSize
  omega

/-- A submessage takes a multiple of four bytes. -/
lemma submessageSize_mod (payloadSize : ℕ) : submessageSize payloadSize % 4 = 0 := by
  unfold submessageSize uxrSubmessagePadding subheaderSize
  split <;> omega

/-- `uxr_prepare_stream_to_write_submessage`, on the reliable stream that the stream id
names. -/
def uxrPrepareStreamToWriteSubmessage (stream : OutputReliableStream) (payloadSize : ℕ)
    (ub : UcdrBuffer) (submessageId mode : UInt8) : Option PrepareResult :=
  (prepareSubmessage stream payloadSize ub).map fun r =>
    if r.availableToWrite then
      let w := uxrBufferSubmessageHeader onFullOutputBuffer r.stream r.ub submessageId
        (payloadSize % 65536) mode
      { availableToWrite := true
        ub := w.2.1
        stream := w.1 }
    else r

/-- A piece of what a slot holds. -/
lemma slotBytes_slice (base : ReliableStream) (j : ℕ) {o n len : ℕ} (h : o + n ≤ len) :
    ((slotBytes base j 0 len).drop o).take n = slotBytes base j o n := by
  obtain ⟨k, rfl⟩ := Nat.exists_eq_add_of_le h
  rw [Nat.add_assoc, slotBytes_add, List.drop_left' (length_slotBytes _ _ _ _), Nat.zero_add,
    slotBytes_add, List.take_left' (length_slotBytes _ _ _ _)]

/-- The rest of what a slot holds. -/
lemma slotBytes_drop (base : ReliableStream) (j : ℕ) {o len : ℕ} (h : o ≤ len) :
    (slotBytes base j 0 len).drop o = slotBytes base j o (len - o) := by
  rw [← slotBytes_slice base j (Nat.add_sub_cancel' h).le, List.take_of_length_le]
  rw [List.length_drop, length_slotBytes]

/-- The body of a slot that holds nothing is empty. -/
lemma slotBytes_empty (base : ReliableStream) (j : ℕ) {offset size : ℕ} (h : size = offset) :
    slotBytes base j offset (size - offset) = [] := by
  rw [h, Nat.sub_self]
  rfl

/-- The positions of a stream with plain writes: acknowledged up to `a`, sent up to `s`,
filling `w`. -/
structure PlainWindow (stream : OutputReliableStream) (a s w : ℕ) : Prop where
  lastAcknown_eq : stream.lastAcknown = seqOf a
  lastSent_eq : stream.lastSent = seqOf s
  lastWritten_eq : stream.lastWritten = seqOf w
  acknown_le : a ≤ s
  sent_lt : s < w
  sent_le : s ≤ a + stream.base.history
  written_le : w ≤ a + stream.base.history ∨ w = s + 1
  dvd : stream.base.history ∣ 65536
  offset_lt : stream.offset < 4294967296
  offset_aligned : stream.offset % 4 = 0
  aligned : ∀ j, uxrGetReliableBufferSize stream.base j % 4 = 0
  sound : ∀ j, SlotSound stream j
  /-- The positions before the one being filled hold messages. -/
  used : ∀ X, a < X → X < w → uxrGetReliableBufferSize stream.base (seqOf X) ≠ stream.offset
  /-- The positions behind it hold none. -/
  empty : ∀ X, w < X → X ≤ a + stream.base.history →
    uxrGetReliableBufferSize stream.base (seqOf X) = stream.offset

namespace PlainWindow

variable {stream : OutputReliableStream} {a s w : ℕ}

/-- The positions of the window lie in different slots. -/
lemma slot_ne (h : PlainWindow stream a s w) {X Y : ℕ} (hX : a < X)
    (hX' : X ≤ a + stream.base.history) (hY : a < Y) (hY' : Y ≤ a + stream.base.history)
    (hne : X ≠ Y) : slotOf stream.base.history X ≠ slotOf stream.base.history Y :=
  fun heq => hne (slotsDistinct_of_dvd h.dvd a X Y hX hX' hY hY' heq)

/-- No slot holds less than the room for a session header. -/
lemma offset_le (h : PlainWindow stream a s w) (j : ℕ) :
    stream.offset ≤ uxrGetReliableBufferSize stream.base j := by
  rcases h.sound j with heq | ⟨hlt, -⟩
  · exact heq.ge
  · exact hlt.le

/-- A slot that holds more than that is in use, and fits. -/
lemma size_le (h : PlainWindow stream a s w) {j : ℕ}
    (hj : stream.offset < uxrGetReliableBufferSize stream.base j) :
    uxrGetReliableBufferSize stream.base j ≤ uxrGetReliableBufferCapacity stream.base := by
  rcases h.sound j with heq | ⟨-, hle⟩
  · exact absurd heq hj.ne'
  · exact hle

/-- The positions before the one being filled hold messages that fit. -/
lemma used_bounds (h : PlainWindow stream a s w) {X : ℕ} (hX : a < X) (hXw : X < w) :
    stream.offset < uxrGetReliableBufferSize stream.base (seqOf X) ∧
      uxrGetReliableBufferSize stream.base (seqOf X) ≤ uxrGetReliableBufferCapacity stream.base :=
  (h.sound (seqOf X)).resolve_left (h.used X hX hXw)

/-- A position of the window that holds a message is not behind the one being filled. -/
lemma le_written (h : PlainWindow stream a s w) {X : ℕ} (hX : X ≤ a + stream.base.history)
    (hused : uxrGetReliableBufferSize stream.base (seqOf X) ≠ stream.offset) : X ≤ w :=
  Nat.le_of_not_lt fun hlt => hused (h.empty X hlt hX)

/-- The history of such a window is at most half a turn. -/
lemma history_le (h : PlainWindow stream a s w) : stream.base.history ≤ 32768 := by
  have hlt := stream.base.history_lt
  obtain ⟨k, hk⟩ := h.dvd
  rcases k with _ | _ | k
  · omega
  · omega
  · have := Nat.mul_le_mul_left stream.base.history (show 2 ≤ k + 1 + 1 by omega)
    omega

/-- The comparison that opens a slot finds it inside the window. -/
lemma le_of_available (h : PlainWindow stream a s w) {X : ℕ} (hX : X ≤ w + 1)
    (hcmp : 0 ≥ uxrSeqNumCmp (seqOf X) (uxrSeqNumAdd stream.lastAcknown stream.base.history)) :
    X ≤ a + stream.base.history := by
  have := h.written_le
  have := h.sent_le
  rw [h.lastAcknown_eq, uxrSeqNumAdd_seqOf] at hcmp
  exact le_of_uxrSeqNumCmp_nonpos hcmp (by omega)

/-- Fields other than the window counters and the slots do not matter. -/
lemma congr {stream' : OutputReliableStream} (h : PlainWindow stream a s w)
    (hbase : stream'.base = stream.base) (hoffset : stream'.offset = stream.offset)
    (ha : stream'.lastAcknown = stream.lastAcknown) (hs : stream'.lastSent = stream.lastSent)
    (hw : stream'.lastWritten = stream.lastWritten) : PlainWindow stream' a s w := by
  obtain ⟨h₁, h₂, h₃, h₄, h₅, h₆, h₇, h₈, h₉, h₁₀, h₁₁, h₁₂, h₁₃, h₁₄⟩ := h
  unfold SlotSound at h₁₂
  constructor <;> (try unfold SlotSound) <;> (try simp only [hbase, hoffset, ha, hs, hw]) <;>
    assumption

/-- Bytes of the bodies do not matter. -/
theorem store (h : PlainWindow stream a s w) {i address : ℕ} {bytes : List UInt8}
    (hlo : uxrGetReliableBuffer stream.base i ≤ address)
    (hhi : address + bytes.length ≤
      uxrGetReliableBuffer stream.base i + uxrGetReliableBufferCapacity stream.base) :
    PlainWindow { stream with base := stream.base.store address bytes } a s w := by
  have hsizes : ∀ j, uxrGetReliableBufferSize (stream.base.store address bytes) j =
      uxrGetReliableBufferSize stream.base j := fun j =>
    uxrGetReliableBufferSize_store stream.base hlo hhi
  obtain ⟨h₁, h₂, h₃, h₄, h₅, h₆, h₇, h₈, h₉, h₁₀, h₁₁, h₁₂, h₁₃, h₁₄⟩ := h
  unfold SlotSound at h₁₂
  constructor <;> (try unfold SlotSound) <;>
    (try simp only [hsizes, store_history, uxrGetReliableBufferCapacity_store]) <;> assumption

/-! ## Start -/

/-- A reset empties all slots. -/
lemma reset_bufferSize (stream : OutputReliableStream) (hoffset : stream.offset < 4294967296)
    (j : ℕ) :
    uxrGetReliableBufferSize (uxrResetOutputReliableStream stream).base j = stream.offset :=
  OutputWindow.setAllSizes_bufferSize hoffset _ le_rfl (Nat.mod_lt _ stream.base.history_pos)

/-- A stream starts with an empty window. -/
theorem reset (stream : OutputReliableStream) (hdvd : stream.base.history ∣ 65536)
    (hoffset : stream.offset < 4294967296) (haligned : stream.offset % 4 = 0) :
    PlainWindow (uxrResetOutputReliableStream stream) 65535 65535 65536 := by
  have hhistory := (OutputWindow.setAllSizes_frame stream.offset stream.base.history stream.base).2
  have hempty := reset_bufferSize stream hoffset
  constructor
  case lastAcknown_eq => exact seqNumMax_eq
  case lastSent_eq => exact seqNumMax_eq
  case lastWritten_eq => rfl
  case acknown_le => exact le_rfl
  case sent_lt => decide
  case sent_le => exact Nat.le_add_right _ _
  case written_le => exact .inr rfl
  case dvd =>
    simp only [uxrResetOutputReliableStream, hhistory]
    exact hdvd
  case offset_lt => exact hoffset
  case offset_aligned => exact haligned
  case aligned =>
    intro j
    rw [hempty]
    exact haligned
  case sound => exact fun j => .inl (hempty j)
  case used =>
    intro X hX hX'
    omega
  case empty => exact fun X _ _ => hempty _

/-! ## Writing -/

/-- The window with `len` bytes recorded for one position, the slots of the others being as
they were. -/
lemma setSize (h : PlainWindow stream a s w) {w' len : ℕ} (hlo : w ≤ w') (hhi : w' ≤ w + 1)
    (hwindow : w' ≤ a + stream.base.history)
    (hused : w < w' → uxrGetReliableBufferSize stream.base (seqOf w) ≠ stream.offset)
    (hge : stream.offset < len) (hle : len ≤ uxrGetReliableBufferCapacity stream.base)
    (haligned : len % 4 = 0) :
    PlainWindow (stream.writtenTo (uxrSetReliableBufferSize stream.base (seqOf w') len) (seqOf w'))
      a s w' := by
  have hcap := capacity_lt stream.base
  have hacknown := h.acknown_le
  have hsent := h.sent_lt
  have hsize : ∀ j, uxrGetReliableBufferSize
      (uxrSetReliableBufferSize stream.base (seqOf w') len) j =
        if slotOf stream.base.history w' = j % stream.base.history then len
        else uxrGetReliableBufferSize stream.base j := fun j =>
    uxrGetReliableBufferSize_setSize _ (by omega)
  have hother : ∀ X, a < X → X ≤ a + stream.base.history → X ≠ w' →
      uxrGetReliableBufferSize (uxrSetReliableBufferSize stream.base (seqOf w') len) (seqOf X) =
        uxrGetReliableBufferSize stream.base (seqOf X) := by
    intro X hX hX' hne
    rw [hsize]
    exact if_neg (h.slot_ne (by omega) hwindow hX hX' hne.symm)
  refine { h with lastWritten_eq := rfl, sent_lt := by omega, written_le := .inl hwindow,
                  aligned := ?_, sound := ?_, used := ?_, empty := ?_ }
  · intro j
    simp only [OutputReliableStream.writtenTo, hsize]
    split
    · exact haligned
    · exact h.aligned j
  · intro j
    unfold SlotSound
    simp only [OutputReliableStream.writtenTo, hsize, uxrGetReliableBufferCapacity_setSize]
    split
    · exact .inr ⟨hge, hle⟩
    · exact h.sound j
  · intro X hX hXw
    simp only [OutputReliableStream.writtenTo]
    rw [hother X hX (by omega) (by omega)]
    rcases Nat.lt_or_ge X w with hlt | hge
    · exact h.used X hX hlt
    · obtain rfl : X = w := by omega
      exact hused hXw
  · intro X hX hX'
    simp only [OutputReliableStream.writtenTo, uxrSetReliableBufferSize_history] at hX' ⊢
    rw [hother X (by omega) hX' (by omega)]
    exact h.empty X (by omega) hX'

/-- The position that a write goes to: the one being filled, or the one behind it. -/
structure Opens (stream : OutputReliableStream) (a w w' : ℕ) : Prop where
  le : w ≤ w'
  le_succ : w' ≤ w + 1
  inWindow : w' ≤ a + stream.base.history
  used : w < w' → uxrGetReliableBufferSize stream.base (seqOf w) ≠ stream.offset

/-- What `uxr_prepare_reliable_buffer_to_write` returns when it reserves `length` bytes behind
what the slot of the position `X` holds. -/
def reservedIn (stream : OutputReliableStream) (X length : ℕ) : PrepareResult where
  availableToWrite := true
  ub := ucdrInitBufferOriginOffset (uxrGetReliableBuffer stream.base (seqOf X))
    (uxrGetReliableBufferSize stream.base (seqOf X) + length) 0
    (uxrGetReliableBufferSize stream.base (seqOf X))
  stream := stream.writtenTo
    (uxrSetReliableBufferSize stream.base (seqOf X)
      (uxrGetReliableBufferSize stream.base (seqOf X) + length)) (seqOf X)

/-- What is written into the room goes behind what the slot holds. -/
lemma reservedIn_iterator (stream : OutputReliableStream) (X length : ℕ) :
    (reservedIn stream X length).ub.iterator =
      uxrGetReliableBuffer stream.base (seqOf X) +
        uxrGetReliableBufferSize stream.base (seqOf X) := rfl

/-- Reserving room leaves the slots where they are. -/
lemma reservedIn_buffer (stream : OutputReliableStream) (X length j : ℕ) :
    uxrGetReliableBuffer (reservedIn stream X length).stream.base j =
      uxrGetReliableBuffer stream.base j := by
  simp only [reservedIn, OutputReliableStream.writtenTo, uxrGetReliableBuffer_setSize]

/-- A write that fits one slot has an outcome: it is refused, or it goes behind what the slot
of one position holds. -/
theorem prepare (h : PlainWindow stream a s w) {length : ℕ} (ub : UcdrBuffer)
    (hfits : FitsSlot stream length) :
    ∃ r, uxrPrepareReliableBufferToWrite stream length ub = some r ∧
      (r = ⟨false, ub, stream⟩ ∨ ∃ w', Opens stream a w w' ∧
        uxrGetReliableBufferSize stream.base (seqOf w') + length ≤
          uxrGetReliableBufferCapacity stream.base ∧ r = reservedIn stream w' length) := by
  have hcap := capacity_lt stream.base
  have hsize := uxrGetReliableBufferSize_lt stream.base (seqOf w)
  unfold FitsSlot at hfits
  have hsum : sizeT (uxrGetReliableBufferSize stream.base (seqOf w) + length) =
      uxrGetReliableBufferSize stream.base (seqOf w) + length := Nat.mod_eq_of_lt (by omega)
  have hsum' : sizeT (stream.offset + length) = stream.offset + length :=
    Nat.mod_eq_of_lt (by omega)
  unfold uxrPrepareReliableBufferToWrite
  simp only [h.lastWritten_eq, hsum, hsum', uxrSeqNumAdd_seqOf]
  by_cases hcurrent : uxrGetReliableBufferSize stream.base (seqOf w) + length ≤
      uxrGetReliableBufferCapacity stream.base
  · rw [if_pos hcurrent]
    split
    · next hcmp =>
      have hwindow := h.le_of_available (by omega) hcmp
      exact ⟨_, rfl, .inr ⟨w, ⟨le_rfl, by omega, hwindow, fun hw => by omega⟩, hcurrent, rfl⟩⟩
    · exact ⟨_, rfl, .inl rfl⟩
  · rw [if_neg hcurrent, if_pos hfits]
    split
    · next hcmp =>
      have hwindow := h.le_of_available le_rfl hcmp
      have hempty := h.empty (w + 1) (by omega) hwindow
      refine ⟨_, rfl, .inr ⟨w + 1, ⟨by omega, le_rfl, hwindow, fun _ => by omega⟩, ?_, ?_⟩⟩
      · rwa [hempty]
      · unfold reservedIn OutputReliableStream.writtenTo
        rw [hempty]
    · exact ⟨_, rfl, .inl rfl⟩

/-- Reserving room keeps the window. -/
theorem reserve (h : PlainWindow stream a s w) {w' length : ℕ} (hopens : Opens stream a w w')
    (hfits : uxrGetReliableBufferSize stream.base (seqOf w') + length ≤
      uxrGetReliableBufferCapacity stream.base)
    (hpos : 0 < length) (haligned : length % 4 = 0) :
    PlainWindow (reservedIn stream w' length).stream a s w' := by
  have hoffset := h.offset_le (seqOf w')
  have hslot := h.aligned (seqOf w')
  exact h.setSize hopens.le hopens.le_succ hopens.inWindow hopens.used (by omega) hfits (by omega)

/-- Reserving room makes no slot smaller. -/
lemma size_le_reserve {w' length : ℕ}
    (hfits : uxrGetReliableBufferSize stream.base (seqOf w') + length ≤
      uxrGetReliableBufferCapacity stream.base) (j : ℕ) :
    uxrGetReliableBufferSize stream.base j ≤
      uxrGetReliableBufferSize (reservedIn stream w' length).stream.base j := by
  have hcap := capacity_lt stream.base
  have hsize := uxrGetReliableBufferSize_setSize stream.base (i := seqOf w') (j := j)
    (show uxrGetReliableBufferSize stream.base (seqOf w') + length < 4294967296 by omega)
  unfold reservedIn OutputReliableStream.writtenTo
  dsimp only
  rw [hsize]
  split
  · next heq =>
    rw [← uxrGetReliableBufferSize_congr heq]
    exact Nat.le_add_right _ _
  · exact le_rfl

/-- What `uxr_prepare_stream_to_write_submessage` returns when it reserves the room of a
submessage behind what the slot of the position `X` holds. -/
def submessageIn (stream : OutputReliableStream) (X payloadSize : ℕ) (submessageId mode : UInt8) :
    PrepareResult :=
  let r := reservedIn stream X (submessageSize payloadSize)
  { availableToWrite := true
    ub := { r.ub.advance 4 2 with endianness := ucdrMachineEndianness }
    stream := { r.stream with
      base := r.stream.base.store r.ub.iterator
        (submessageHeader submessageId (mode ||| 1) (payloadSize % 65536)) } }

/-- A submessage that fits one slot has an outcome: it is refused, or its header goes behind
what the slot of one position holds. -/
theorem prepareStream (h : PlainWindow stream a s w) {payloadSize : ℕ} (ub : UcdrBuffer)
    (submessageId mode : UInt8) (hfits : FitsSlot stream (submessageSize payloadSize)) :
    ∃ r, uxrPrepareStreamToWriteSubmessage stream payloadSize ub submessageId mode = some r ∧
      (r = ⟨false, ub, stream⟩ ∨ ∃ w', Opens stream a w w' ∧
        uxrGetReliableBufferSize stream.base (seqOf w') + submessageSize payloadSize ≤
          uxrGetReliableBufferCapacity stream.base ∧
        r = submessageIn stream w' payloadSize submessageId mode) := by
  have hcap := capacity_lt stream.base
  have hpos := submessageSize_pos payloadSize
  have hsize : sizeT (submessageSize payloadSize) = submessageSize payloadSize := by
    unfold FitsSlot at hfits
    exact Nat.mod_eq_of_lt (by omega)
  obtain ⟨r, hr, hcases⟩ := h.prepare ub hfits
  have hprepare : prepareSubmessage stream payloadSize ub = some r := by
    unfold prepareSubmessage
    change uxrPrepareReliableBufferToWrite stream (sizeT (submessageSize payloadSize)) ub = _
    rw [hsize, hr]
  unfold uxrPrepareStreamToWriteSubmessage
  rw [hprepare]
  refine ⟨_, rfl, ?_⟩
  rcases hcases with rfl | ⟨w', hopens, hroom, rfl⟩
  · exact .inl rfl
  · have haligned := h.aligned (seqOf w')
    have hheader := uxrBufferSubmessageHeader_of_room onFullOutputBuffer
      (reservedIn stream w' (submessageSize payloadSize)).stream
      (reservedIn stream w' (submessageSize payloadSize)).ub submessageId mode
      (payloadSize % 65536) rfl
      (by simpa [reservedIn, ucdrInitBufferOriginOffset] using haligned) (Nat.zero_le _)
      (by simp only [reservedIn, ucdrInitBufferOriginOffset]; omega)
    refine .inr ⟨w', hopens, hroom, ?_⟩
    have havailable : (reservedIn stream w' (submessageSize payloadSize)).availableToWrite = true :=
      rfl
    simp only [havailable, if_true, hheader]
    rfl

/-- The header of a submessage lies in the room that was reserved for it. -/
lemma submessageIn_bounds {w' payloadSize : ℕ} (submessageId mode : UInt8)
    (hroom : uxrGetReliableBufferSize stream.base (seqOf w') + submessageSize payloadSize ≤
      uxrGetReliableBufferCapacity stream.base) :
    uxrGetReliableBuffer stream.base (seqOf w') +
        uxrGetReliableBufferSize stream.base (seqOf w') +
          (submessageHeader submessageId (mode ||| 1) (payloadSize % 65536)).length ≤
      uxrGetReliableBuffer stream.base (seqOf w') + uxrGetReliableBufferCapacity stream.base := by
  have hpos := submessageSize_pos payloadSize
  simp only [submessageHeader, List.length_cons, List.length_nil]
  omega

/-- Preparing a submessage keeps the window. -/
theorem submessageIn_window (h : PlainWindow stream a s w) {w' payloadSize : ℕ}
    (hopens : Opens stream a w w')
    (hroom : uxrGetReliableBufferSize stream.base (seqOf w') + submessageSize payloadSize ≤
      uxrGetReliableBufferCapacity stream.base) (submessageId mode : UInt8) :
    PlainWindow (submessageIn stream w' payloadSize submessageId mode).stream a s w' := by
  have hpos := submessageSize_pos payloadSize
  have hreserve := h.reserve hopens hroom (by omega) (submessageSize_mod payloadSize)
  exact hreserve.store (i := seqOf w') (Nat.le_add_right _ _)
    (submessageIn_bounds submessageId mode hroom)

/-- The sizes are those after the reservation. -/
lemma submessageIn_sizes {w' payloadSize : ℕ}
    (hroom : uxrGetReliableBufferSize stream.base (seqOf w') + submessageSize payloadSize ≤
      uxrGetReliableBufferCapacity stream.base) (submessageId mode : UInt8) (j : ℕ) :
    uxrGetReliableBufferSize (submessageIn stream w' payloadSize submessageId mode).stream.base j =
      uxrGetReliableBufferSize (reservedIn stream w' (submessageSize payloadSize)).stream.base j :=
  uxrGetReliableBufferSize_store _ (i := seqOf w') (Nat.le_add_right _ _)
    (submessageIn_bounds submessageId mode hroom)

/-- The payload of a submessage goes behind its header. -/
lemma submessageIn_iterator (stream : OutputReliableStream) (w' payloadSize : ℕ)
    (submessageId mode : UInt8) :
    (submessageIn stream w' payloadSize submessageId mode).ub.iterator =
      uxrGetReliableBuffer stream.base (seqOf w') +
        (uxrGetReliableBufferSize stream.base (seqOf w') + 4) :=
  Nat.add_assoc _ _ _

/-- The stream of a prepared submessage fills the position of its slot. -/
lemma submessageIn_lastWritten (stream : OutputReliableStream) (w' payloadSize : ℕ)
    (submessageId mode : UInt8) :
    (submessageIn stream w' payloadSize submessageId mode).stream.lastWritten = seqOf w' := by
  simp only [submessageIn, reservedIn, OutputReliableStream.writtenTo]

/-- Preparing a submessage leaves the offset as it is. -/
lemma submessageIn_offset (stream : OutputReliableStream) (w' payloadSize : ℕ)
    (submessageId mode : UInt8) :
    (submessageIn stream w' payloadSize submessageId mode).stream.offset = stream.offset := by
  simp only [submessageIn, reservedIn, OutputReliableStream.writtenTo]

/-- Preparing a submessage leaves the history as it is. -/
lemma submessageIn_history (stream : OutputReliableStream) (w' payloadSize : ℕ)
    (submessageId mode : UInt8) :
    (submessageIn stream w' payloadSize submessageId mode).stream.base.history =
      stream.base.history := by
  simp only [submessageIn, reservedIn, OutputReliableStream.writtenTo, store_history,
    uxrSetReliableBufferSize_history]

/-- Preparing a submessage leaves the capacity as it is. -/
lemma submessageIn_capacity (stream : OutputReliableStream) (w' payloadSize : ℕ)
    (submessageId mode : UInt8) :
    uxrGetReliableBufferCapacity (submessageIn stream w' payloadSize submessageId
      mode).stream.base =
      uxrGetReliableBufferCapacity stream.base := by
  simp only [submessageIn, reservedIn, OutputReliableStream.writtenTo,
    uxrGetReliableBufferCapacity_store, uxrGetReliableBufferCapacity_setSize]

/-- Preparing a submessage leaves the slots where they are. -/
lemma submessageIn_buffer (stream : OutputReliableStream) (w' payloadSize : ℕ)
    (submessageId mode : UInt8) (j : ℕ) :
    uxrGetReliableBuffer (submessageIn stream w' payloadSize submessageId mode).stream.base j =
      uxrGetReliableBuffer stream.base j := by
  simp only [submessageIn, reservedIn, OutputReliableStream.writtenTo, uxrGetReliableBuffer_store,
    uxrGetReliableBuffer_setSize]

/-- The payload of a submessage lies in the room that was reserved for it. -/
theorem submessageIn_payload (h : PlainWindow stream a s w) {w' : ℕ} {payload : List UInt8}
    (hopens : Opens stream a w w')
    (hroom : uxrGetReliableBufferSize stream.base (seqOf w') + submessageSize payload.length ≤
      uxrGetReliableBufferCapacity stream.base) (submessageId mode : UInt8) :
    PlainWindow
      { (submessageIn stream w' payload.length submessageId mode).stream with
        base := (submessageIn stream w' payload.length submessageId mode).stream.base.store
          (submessageIn stream w' payload.length submessageId mode).ub.iterator payload }
            a s w' := by
  have hsize : submessageSize payload.length =
      4 + payload.length + uxrSubmessagePadding payload.length := rfl
  refine (h.submessageIn_window hopens hroom submessageId mode).store (i := seqOf w') ?_ ?_
  · rw [submessageIn_iterator, submessageIn_buffer]
    omega
  · rw [submessageIn_iterator, submessageIn_buffer, submessageIn_capacity]
    omega

/-! ## Sending -/

/-- What is sent next: the position behind the last one sent, when its slot holds a message
and the window reaches it. -/
theorem prepareNext_eq (h : PlainWindow stream a s w)
    (hsend : (uxrPrepareNextReliableBufferToSend stream).dataToSend) :
    s + 1 ≤ a + stream.base.history ∧
      stream.offset < uxrGetReliableBufferSize stream.base (seqOf (s + 1)) ∧
      uxrPrepareNextReliableBufferToSend stream =
        { buffer := uxrGetReliableBuffer stream.base (seqOf (s + 1))
          length := uxrGetReliableBufferSize stream.base (seqOf (s + 1))
          seqNum := seqOf (s + 1)
          dataToSend := true
          stream := OutputWindow.sentNext stream s w } := by
  have hsent := h.sent_le
  have hwritten := h.written_le
  exact OutputWindow.prepareNext_of_positions h.lastAcknown_eq h.lastSent_eq h.lastWritten_eq
    h.acknown_le h.sent_lt (by omega) hsend

/-- Sending moves the last position sent by one, and the position being filled out of its
way. -/
theorem prepareNext (h : PlainWindow stream a s w) (hwindow : s + 1 ≤ a + stream.base.history)
    (hlength : stream.offset < uxrGetReliableBufferSize stream.base (seqOf (s + 1))) :
    PlainWindow (OutputWindow.sentNext stream s w) a (s + 1)
      (OutputWindow.writtenAfterSend s w) := by
  have hacknown := h.acknown_le
  have hsent := h.sent_lt
  have hwritten := h.written_le
  unfold OutputWindow.sentNext OutputWindow.writtenAfterSend
  by_cases hlast : s + 1 = w
  · rw [if_pos hlast]
    refine { h with lastSent_eq := rfl, lastWritten_eq := rfl, acknown_le := by omega,
                    sent_lt := by omega, sent_le := hwindow, written_le := .inr (by omega),
                    used := ?_, empty := ?_ }
    · intro X hX hXw
      rcases Nat.lt_succ_iff_lt_or_eq.mp hXw with hlt | rfl
      · exact h.used X hX hlt
      · rw [hlast] at hlength
        exact hlength.ne'
    · exact fun X hX hX' => h.empty X (by omega) hX'
  · rw [if_neg hlast]
    exact { h with lastSent_eq := rfl, lastWritten_eq := rfl, acknown_le := by omega,
                   sent_lt := by omega, sent_le := hwindow,
                   written_le := show w ≤ a + stream.base.history ∨ _ from .inl (by omega) }

/-- Nothing is sent when the window is full, or when the position behind the last one sent
is the one being filled and holds nothing. -/
theorem not_dataToSend (h : PlainWindow stream a s w)
    (hsend : (uxrPrepareNextReliableBufferToSend stream).dataToSend = false) :
    s = a + stream.base.history ∨ w = s + 1 ∧
      uxrGetReliableBufferSize stream.base (seqOf w) = stream.offset := by
  have hhistory := h.history_le
  have hacknown := h.acknown_le
  have hsent := h.sent_lt
  have hwindow := h.sent_le
  have hwritten := h.written_le
  have hsub : (uxrSeqNumSub (seqOf (a + (s - a))) (seqOf a)).val = s - a :=
    uxrSeqNumSub_seqOf_val (by omega)
  rw [Nat.add_sub_cancel' hacknown] at hsub
  have hcmp : 0 ≥ uxrSeqNumCmp (seqOf (s + 1)) (seqOf w) :=
    (uxrSeqNumCmp_seqOf_nonpos (by omega) (by omega)).mpr hsent
  unfold uxrPrepareNextReliableBufferToSend at hsend
  simp only [h.lastSent_eq, h.lastAcknown_eq, h.lastWritten_eq, uxrSeqNumAdd_seqOf, hsub,
    decide_eq_false_iff_not, not_and_or] at hsend
  rcases hsend with hbehind | hlength | hfull
  · exact absurd hcmp hbehind
  · -- an empty position is not one of those before `w`
    have hempty : uxrGetReliableBufferSize stream.base (seqOf (s + 1)) = stream.offset :=
      Nat.le_antisymm (Nat.le_of_not_lt hlength) (h.offset_le _)
    rcases Nat.lt_or_ge (s + 1) w with hlt | hge
    · exact absurd hempty (h.used (s + 1) (by omega) hlt)
    · obtain rfl : w = s + 1 := by omega
      exact .inr ⟨rfl, hempty⟩
  · omega

/-- What flashing does to a stream that has sent up to `s`: the messages of the positions
behind `s` go out under their headers and stay in their slots, and no size and no body
changes. -/
structure Flashed (info : UxrSessionInfo) (streamIdRaw : UInt8) (stream : OutputReliableStream)
    (a s : ℕ) (r : OutputReliableStream × List (List UInt8)) (w : ℕ) : Prop where
  window : PlainWindow r.1 a (s + r.2.length) w
  sameLayout : SameLayout stream r.1
  sizes : ∀ j, uxrGetReliableBufferSize r.1.base j = uxrGetReliableBufferSize stream.base j
  bodies : ∀ j o n, stream.offset ≤ o → o + n ≤ uxrGetReliableBufferCapacity stream.base →
    slotBytes r.1.base j o n = slotBytes stream.base j o n
  older : ∀ X, a < X → X ≤ s → ∀ o n, o + n ≤ uxrGetReliableBufferCapacity stream.base →
    slotBytes r.1.base (seqOf X) o n = slotBytes stream.base (seqOf X) o n
  messages : ∀ k m, r.2[k]? = some m →
    stream.offset < uxrGetReliableBufferSize stream.base (seqOf (s + 1 + k)) ∧
      m = slotBytes r.1.base (seqOf (s + 1 + k)) 0
        (uxrGetReliableBufferSize stream.base (seqOf (s + 1 + k))) ∧
      m.take stream.offset = messageHeader info streamIdRaw (seqOf (s + 1 + k))

/-- The slots after the header of the next message was stamped. -/
lemma stamp (h : PlainWindow stream a s w) {info : UxrSessionInfo} {streamIdRaw : UInt8}
    (hoffset : stream.offset = uxrSessionHeaderOffset info)
    (hlength : stream.offset < uxrGetReliableBufferSize stream.base (seqOf (s + 1)))
    {stamped : ReliableStream}
    (hstamped : stamped = uxrStampSessionHeader info streamIdRaw (seqOf (s + 1)) stream.base
      (uxrGetReliableBuffer stream.base (seqOf (s + 1)))) :
    (∀ j, uxrGetReliableBufferSize stamped j = uxrGetReliableBufferSize stream.base j) ∧
      slotBytes stamped (seqOf (s + 1)) 0 stream.offset =
        messageHeader info streamIdRaw (seqOf (s + 1)) ∧
      (∀ o n, stream.offset ≤ o →
        slotBytes stamped (seqOf (s + 1)) o n = slotBytes stream.base (seqOf (s + 1)) o n) ∧
      ∀ j o n, slotOf stream.base.history (s + 1) ≠ j % stream.base.history →
        o + n ≤ uxrGetReliableBufferCapacity stream.base →
        slotBytes stamped j o n = slotBytes stream.base j o n := by
  have hheader : (messageHeader info streamIdRaw (seqOf (s + 1))).length = stream.offset := by
    rw [length_messageHeader, hoffset]
  have hfit := h.size_le hlength
  subst hstamped
  refine ⟨fun j => ?_, ?_, fun o n ho => ?_, fun j o n hj hn => ?_⟩
  · exact uxrGetReliableBufferSize_store stream.base (i := seqOf (s + 1)) le_rfl (by omega)
  · exact slotBytes_store_same stream.base (p := 0) hheader
  · exact slotBytes_store_of_disjoint stream.base (p := 0) (.inr (by omega))
  · exact slotBytes_store_of_ne stream.base (i := seqOf (s + 1)) le_rfl (by omega) hj hn

/-- A stream that sends nothing. -/
lemma Flashed.nil (h : PlainWindow stream a s w) (info : UxrSessionInfo) (streamIdRaw : UInt8) :
    Flashed info streamIdRaw stream a s (stream, []) w :=
  ⟨h, .refl _, fun _ => rfl, fun _ _ _ _ _ => rfl, fun _ _ _ _ _ _ => rfl,
    fun k m hm => by simp at hm⟩

/-- What a slot holds behind its header stays what it is. -/
lemma Flashed.body (h : PlainWindow stream a s w) {info : UxrSessionInfo} {streamIdRaw : UInt8}
    {r : OutputReliableStream × List (List UInt8)} {w' : ℕ}
    (hflashed : Flashed info streamIdRaw stream a s r w') (j : ℕ) :
    slotBytes r.1.base j stream.offset
        (uxrGetReliableBufferSize r.1.base j - stream.offset) =
      slotBytes stream.base j stream.offset
        (uxrGetReliableBufferSize stream.base j - stream.offset) := by
  rw [hflashed.sizes]
  rcases h.sound j with hempty | ⟨hused, hfits⟩
  · rw [slotBytes_empty _ _ hempty, slotBytes_empty _ _ hempty]
  · exact hflashed.bodies j _ _ le_rfl (by omega)

/-- One message more that was sent before the others. -/
lemma Flashed.cons (h : PlainWindow stream a s w) {info : UxrSessionInfo} {streamIdRaw : UInt8}
    (hoffset : stream.offset = uxrSessionHeaderOffset info)
    (hwindow : s + 1 ≤ a + stream.base.history)
    (hlength : stream.offset < uxrGetReliableBufferSize stream.base (seqOf (s + 1)))
    {stamped : ReliableStream}
    (hstamped : stamped = uxrStampSessionHeader info streamIdRaw (seqOf (s + 1)) stream.base
      (uxrGetReliableBuffer stream.base (seqOf (s + 1))))
    {r : OutputReliableStream × List (List UInt8)} {w' : ℕ}
    (hrest : Flashed info streamIdRaw { OutputWindow.sentNext stream s w with base := stamped } a
      (s + 1) r w') :
    Flashed info streamIdRaw stream a s (r.1, slotBytes stamped (seqOf (s + 1)) 0
      (uxrGetReliableBufferSize stream.base (seqOf (s + 1))) :: r.2) w' := by
  obtain ⟨hsizes, hheader, hsame, hother⟩ := h.stamp hoffset hlength hstamped
  have hacknown := h.acknown_le
  have hfit := h.size_le hlength
  have hlayout : SameLayout stream { OutputWindow.sentNext stream s w with base := stamped } := by
    rw [hstamped]
    exact ⟨rfl, rfl, rfl⟩
  have hcap := hlayout.capacity_eq
  have hcount : s + 1 + r.2.length = s + (r.2.length + 1) := by omega
  constructor
  case window =>
    have := hrest.window
    rwa [hcount] at this
  case sameLayout => exact hlayout.trans hrest.sameLayout
  case sizes => exact fun j => (hrest.sizes j).trans (hsizes j)
  case bodies =>
    intro j o n ho hn
    refine (hrest.bodies j o n ho (hcap ▸ hn)).trans ?_
    by_cases hj : slotOf stream.base.history (s + 1) = j % stream.base.history
    · have hstampedj : (seqOf (s + 1)).val % stamped.history = j % stamped.history := by
        rw [hlayout.history_eq]
        exact hj
      exact (slotBytes_congr hstampedj o n).symm.trans
        ((hsame o n ho).trans (slotBytes_congr hj o n))
    · exact hother j o n hj hn
  case older =>
    intro X hX hXs o n hn
    refine (hrest.older X hX (by omega) o n (hcap ▸ hn)).trans (hother _ o n ?_ hn)
    exact h.slot_ne (by omega) hwindow hX (by omega) (by omega)
  case messages =>
    rintro (_ | k) m hm
    · obtain rfl := Option.some.inj hm
      refine ⟨hlength, (hrest.older (s + 1) (by omega) le_rfl 0 _ ?_).symm, ?_⟩
      · rw [Nat.zero_add]
        exact hcap ▸ hfit
      · have hhead := slotBytes_slice stamped (seqOf (s + 1)) (o := 0)
          (show 0 + stream.offset ≤ uxrGetReliableBufferSize stream.base (seqOf (s + 1)) by omega)
        exact hhead.trans hheader
    · obtain ⟨hused, hm, hheader⟩ := hrest.messages k m hm
      rw [hsizes] at hused hm
      rw [show s + 1 + (k + 1) = s + 1 + 1 + k by omega]
      exact ⟨hused, hm, hheader⟩

/-- Flashing sends the positions behind the last one sent, until the window is full or what
it would send next is an empty slot that is being filled. -/
theorem flashLoop (h : PlainWindow stream a s w) (info : UxrSessionInfo) (streamIdRaw : UInt8)
    (hoffset : stream.offset = uxrSessionHeaderOffset info) (n : ℕ) :
    ∃ w', w ≤ w' ∧ Flashed info streamIdRaw stream a s (flashLoop info streamIdRaw n stream) w' ∧
      (a + stream.base.history < s + n →
        s + (XrceDds.flashLoop info streamIdRaw n stream).2.length = a + stream.base.history ∨
          w' = s + (XrceDds.flashLoop info streamIdRaw n stream).2.length + 1 ∧
            uxrGetReliableBufferSize stream.base (seqOf w') = stream.offset) := by
  induction n generalizing stream s w with
  | zero =>
    have hle := h.sent_le
    exact ⟨w, le_rfl, .nil h info streamIdRaw, fun hn => by omega⟩
  | succ n ih =>
    unfold XrceDds.flashLoop
    by_cases hsend : (uxrPrepareNextReliableBufferToSend stream).dataToSend
    · obtain ⟨hwindow, hlength, heq⟩ := h.prepareNext_eq hsend
      obtain ⟨stamped, hstamped⟩ : ∃ stamped, stamped = uxrStampSessionHeader info streamIdRaw
        (seqOf (s + 1)) stream.base (uxrGetReliableBuffer stream.base (seqOf (s + 1))) := ⟨_, rfl⟩
      have hnext : PlainWindow { OutputWindow.sentNext stream s w with base := stamped } a (s + 1)
          (OutputWindow.writtenAfterSend s w) := by
        have hfit : uxrSessionHeaderOffset info ≤ uxrGetReliableBufferCapacity stream.base :=
          hoffset ▸ hlength.le.trans (h.size_le hlength)
        rw [hstamped]
        refine (h.prepareNext hwindow hlength).store (i := seqOf (s + 1)) le_rfl ?_
        rw [length_messageHeader]
        exact Nat.add_le_add_left hfit _
      have hgrows : w ≤ OutputWindow.writtenAfterSend s w := by
        unfold OutputWindow.writtenAfterSend
        split <;> omega
      obtain ⟨w', hle, hrest, hstop⟩ := ih hnext hoffset
      have hmove : (OutputWindow.sentNext stream s w).base = stream.base := rfl
      have hmessage : read stamped.buffer (uxrGetReliableBuffer stream.base (seqOf (s + 1)))
          (uxrGetReliableBufferSize stream.base (seqOf (s + 1))) =
            slotBytes stamped (seqOf (s + 1)) 0
              (uxrGetReliableBufferSize stream.base (seqOf (s + 1))) := by
        rw [hstamped]
        rfl
      rw [heq]
      simp only [if_true, hmove, ← hstamped, hmessage]
      generalize XrceDds.flashLoop info streamIdRaw n
        { OutputWindow.sentNext stream s w with base := stamped } = r at hrest hstop
      refine ⟨w', hgrows.trans hle, hrest.cons h hoffset hwindow hlength hstamped, fun hn => ?_⟩
      have hhistory : stamped.history = stream.base.history := hstamped ▸ rfl
      have hsizes := (h.stamp hoffset hlength hstamped).1 (seqOf w')
      simp only [hhistory, hsizes] at hstop
      have hcount : s + 1 + r.2.length = s + (r.2.length + 1) := by omega
      rw [hcount] at hstop
      exact hstop (by omega)
    · have hstop := h.not_dataToSend (Bool.eq_false_iff.mpr hsend)
      simp only [hsend]
      exact ⟨w, le_rfl, .nil h info streamIdRaw, fun _ => hstop⟩

/-! ## Acknowledgements -/

/-- The cleaning loop empties a slot or leaves its size as it is. -/
lemma cleanBuffers_bufferSize (h : PlainWindow stream a s w) (d j : ℕ) :
    uxrGetReliableBufferSize (cleanBuffers d stream).base j = stream.offset ∨
      uxrGetReliableBufferSize (cleanBuffers d stream).base j =
        uxrGetReliableBufferSize stream.base j := by
  by_cases hwalk : OutputWindow.CleanedSlots stream.base.history a d (j % stream.base.history)
  · exact .inl (OutputWindow.cleanBuffers_bufferSize d stream h.lastAcknown_eq h.offset_lt
      (.inl hwalk))
  · exact .inr ((OutputWindow.cleanBuffers_onlySlots d stream h.lastAcknown_eq).bufferSize_eq j
      hwalk)

/-- Positions that are not acknowledged keep their slots. -/
lemma cleanBuffers_keeps (h : PlainWindow stream a s w) {d X : ℕ} (hX : a + d < X)
    (hX' : X ≤ a + stream.base.history) :
    uxrGetReliableBufferSize (cleanBuffers d stream).base (seqOf X) =
      uxrGetReliableBufferSize stream.base (seqOf X) := by
  refine (OutputWindow.cleanBuffers_onlySlots d stream h.lastAcknown_eq).bufferSize_eq _ ?_
  rintro ⟨k, hk, heq⟩
  exact h.slot_ne (by omega) hX' (by omega) (by omega) (by omega) heq

/-- The positions that an acknowledgement takes into the window hold nothing. -/
lemma cleanBuffers_empty (h : PlainWindow stream a s w) {d X : ℕ}
    (hX : a + stream.base.history < X) (hX' : X ≤ a + d + stream.base.history) :
    uxrGetReliableBufferSize (cleanBuffers d stream).base (seqOf X) = stream.offset := by
  refine OutputWindow.cleanBuffers_bufferSize d stream h.lastAcknown_eq h.offset_lt
    (.inl ⟨X - stream.base.history - (a + 1), by omega, ?_⟩)
  change slotOf stream.base.history X = _
  rw [slotOf_of_dvd h.dvd, slotOf_of_dvd h.dvd,
    show X = a + 1 + (X - stream.base.history - (a + 1)) + stream.base.history by omega,
    Nat.add_mod_right]
  congr 1
  omega

/-- The cleaning loop leaves the bodies as they are. -/
lemma cleanBuffers_slotBytes (stream : OutputReliableStream) (d j : ℕ) {o n : ℕ}
    (hn : o + n ≤ uxrGetReliableBufferCapacity stream.base) :
    slotBytes (cleanBuffers d stream).base j o n = slotBytes stream.base j o n := by
  induction d generalizing stream with
  | zero => rfl
  | succ d ih => exact (ih (cleanBuffer stream) hn).trans (slotBytes_setSize stream.base hn)

/-- Acknowledging positions that were sent moves the start of the window. -/
theorem acknackTo (h : PlainWindow stream a s w) (bitmap : ℕ) {d : ℕ} (hd : a + d ≤ s) :
    PlainWindow (acknackTo stream bitmap d) (a + d) s w := by
  have hsent := h.sent_lt
  have hwindow := h.sent_le
  have hwritten := h.written_le
  obtain ⟨hsize, hhistory, hoffset, hs, hw⟩ := OutputWindow.cleanBuffers_frame d stream
  have honly := OutputWindow.cleanBuffers_onlySlots d stream h.lastAcknown_eq
  suffices hclean : PlainWindow (cleanBuffers d stream) (a + d) s w from
    hclean.congr rfl rfl rfl rfl rfl
  constructor
  case lastAcknown_eq => exact OutputWindow.cleanBuffers_lastAcknown d stream h.lastAcknown_eq
  case lastSent_eq => rw [hs, h.lastSent_eq]
  case lastWritten_eq => rw [hw, h.lastWritten_eq]
  case acknown_le => exact hd
  case sent_lt => exact hsent
  case sent_le =>
    rw [hhistory]
    omega
  case written_le =>
    rw [hhistory]
    omega
  case dvd =>
    rw [hhistory]
    exact h.dvd
  case offset_lt => rw [hoffset]; exact h.offset_lt
  case offset_aligned => rw [hoffset]; exact h.offset_aligned
  case aligned =>
    intro j
    rcases h.cleanBuffers_bufferSize d j with heq | heq
    · rw [heq]
      exact h.offset_aligned
    · rw [heq]
      exact h.aligned j
  case sound =>
    intro j
    unfold SlotSound
    rw [hoffset, honly.capacity_eq]
    rcases h.cleanBuffers_bufferSize d j with heq | heq
    · exact .inl heq
    · rw [heq]
      exact h.sound j
  case used =>
    intro X hX hXw
    rw [hoffset, h.cleanBuffers_keeps hX (by omega)]
    exact h.used X (by omega) hXw
  case empty =>
    intro X hX hX'
    rw [hhistory] at hX'
    rw [hoffset]
    rcases Nat.lt_or_ge (a + stream.base.history) X with hlt | hge
    · exact h.cleanBuffers_empty hlt hX'
    · exact OutputWindow.cleanBuffers_bufferSize d stream h.lastAcknown_eq h.offset_lt
        (.inr (h.empty X hX hge))

/-- An ACKNACK that acknowledges `d` positions more, all of them sent. -/
theorem readSubmessageAcknack (h : PlainWindow stream a s w) (bitmap : ℕ) {d : ℕ}
    (hd : a + d ≤ s) :
    PlainWindow (readSubmessageAcknack stream bitmap (seqOf (a + d + 1))).1 (a + d) s w ∧
      (XrceDds.readSubmessageAcknack stream bitmap (seqOf (a + d + 1))).1.offset = stream.offset ∧
      (XrceDds.readSubmessageAcknack stream bitmap (seqOf (a + d + 1))).1.base =
        (cleanBuffers d stream).base := by
  have hturn := stream.base.history_lt
  have hsent := h.sent_le
  obtain ⟨sendLost, hnack⟩ := nackLoop_stream 65536
    (uxrProcessAcknack stream bitmap (seqOf (a + d + 1)))
    (uxrBeginOutputNackBufferIt (uxrProcessAcknack stream bitmap (seqOf (a + d + 1))))
  unfold XrceDds.readSubmessageAcknack
  dsimp only
  rw [hnack, uxrProcessAcknack_eq, h.lastAcknown_eq, uxrSeqNumSub_one,
    seqSteps_seqOf a (show d < 65536 by omega)]
  exact ⟨(h.acknackTo bitmap hd).congr rfl rfl rfl rfl rfl,
    (OutputWindow.cleanBuffers_frame d stream).2.2.1, rfl⟩

/-- The messages that the loop sends again are what the slots of sent positions hold. -/
lemma mem_nackLoop (h : PlainWindow stream a s w) (n : ℕ) {X : ℕ} (hX : X ≤ s) {m : List UInt8}
    (hm : m ∈ (nackLoop n stream (seqOf X)).2) :
    ∃ Y, X < Y ∧ Y ≤ s ∧ m = slotBytes stream.base (seqOf Y) 0
      (uxrGetReliableBufferSize stream.base (seqOf Y)) := by
  induction n generalizing X with
  | zero => exact absurd hm (by simp [nackLoop])
  | succ n ih =>
    unfold nackLoop uxrNextReliableNackBufferToSend at hm
    split at hm
    · next hlost =>
      split at hlost
      · cases hsearch : nackSearch stream 65536 (seqOf X) with
        | none =>
          rw [hsearch] at hlost
          exact absurd (congrArg Prod.snd hlost) (by simp)
        | some seqNum =>
          rw [hsearch] at hlost
          obtain ⟨rfl, hseq⟩ := Prod.mk.inj hlost
          obtain rfl := Option.some.inj hseq
          obtain ⟨Y, hlo, hhi, rfl⟩ := nackSearch_bounds h.lastSent_eq 65536 hX hsearch
          rcases List.mem_cons.mp hm with rfl | hrest
          · exact ⟨Y, hlo, hhi, rfl⟩
          · obtain ⟨Z, hlo', hhi', heq⟩ := ih hhi hrest
            exact ⟨Z, hlo.trans hlo', hhi', heq⟩
      · exact absurd (congrArg Prod.snd hlost) (by simp)
    · exact absurd hm (by simp)

/-- The messages that an ACKNACK has sent again are what the slots of sent positions that are
not acknowledged hold. -/
theorem mem_readSubmessageAcknack (h : PlainWindow stream a s w) (bitmap : ℕ) {d : ℕ}
    (hd : a + d ≤ s) {m : List UInt8}
    (hm : m ∈ (XrceDds.readSubmessageAcknack stream bitmap (seqOf (a + d + 1))).2) :
    ∃ X, a + d < X ∧ X ≤ s ∧ m = slotBytes
      (XrceDds.readSubmessageAcknack stream bitmap (seqOf (a + d + 1))).1.base (seqOf X) 0
      (uxrGetReliableBufferSize
        (XrceDds.readSubmessageAcknack stream bitmap (seqOf (a + d + 1))).1.base (seqOf X)) := by
  have hturn := stream.base.history_lt
  have hsent := h.sent_le
  have hbase := (h.readSubmessageAcknack bitmap hd).2.2
  have hwindow := h.acknackTo bitmap hd
  have hprocess : uxrProcessAcknack stream bitmap (seqOf (a + d + 1)) =
      XrceDds.acknackTo stream bitmap d := by
    rw [uxrProcessAcknack_eq, h.lastAcknown_eq, uxrSeqNumSub_one,
      seqSteps_seqOf a (show d < 65536 by omega)]
  rw [hbase, ← acknackTo_base stream bitmap d]
  unfold XrceDds.readSubmessageAcknack uxrBeginOutputNackBufferIt at hm
  dsimp only at hm
  rw [hprocess, hwindow.lastAcknown_eq] at hm
  exact hwindow.mem_nackLoop 65536 hd hm

end PlainWindow

end XrceDds
