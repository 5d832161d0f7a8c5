import XrceDds.Client.PlainWindow

/-!
# The counters of an output reliable stream

`lastAcknown`, `lastSent`, `lastWritten` and the sizes of the slots describe one queue twice.
This file follows them through every run of writes that each fit one slot, whatever the
capacity of the slots and the lengths of the writes: single turns of the sending loop,
ACKNACKs, single steps of the search for lost messages, resets.

The window `CounterWindow` counts positions.  Its end may lie one behind the `history`
positions that have slots: sending the last of them moves `lastWritten` on, to a number whose
slot still belongs to the oldest message that waits for its acknowledgement.  `ahead` says
that this happens only right behind `lastSent`, and there every write is refused.
-/

namespace XrceDds

open ByteMemory Transition

/-! ## Runs -/

/-- What happens to a stream whose messages each fit one slot. -/
inductive CounterEvent where
  | write (length : ℕ) (ub : UcdrBuffer)
  | serialize (seqNum : UxrSeqNum) (o : ℕ) (bytes : List UInt8)
  | send
  | acknack (bitmap : ℕ) (firstUnackedSeqNum : UxrSeqNum)
  | nack (seqNumIt : UxrSeqNum)
  | heartbeat (timestamp : ℤ)
  | reset

section Events

variable (info : UxrSessionInfo) (streamIdRaw : UInt8)

/-- One turn of the loop of `uxr_flash_output_streams`: the next slot, when there is one, is
given its session header. -/
def sendNextBuffer (stream : OutputReliableStream) : OutputReliableStream :=
  let next := uxrPrepareNextReliableBufferToSend stream
  if next.dataToSend then
    { next.stream with
      base := uxrStampSessionHeader info streamIdRaw next.seqNum next.stream.base next.buffer }
  else next.stream

/-- The stream after an event. -/
def counterStep (stream : OutputReliableStream) : CounterEvent → OutputReliableStream
  | .write length ub =>
    match uxrPrepareReliableBufferToWrite stream length ub with
    | some r => r.stream
    | none => stream
  | .serialize seqNum o bytes =>
    { stream with base := stream.base.store (uxrGetReliableBuffer stream.base seqNum + o) bytes }
  | .send => sendNextBuffer info streamIdRaw stream
  | .acknack bitmap firstUnackedSeqNum => uxrProcessAcknack stream bitmap firstUnackedSeqNum
  | .nack seqNumIt => (uxrNextReliableNackBufferToSend stream seqNumIt).1
  | .heartbeat timestamp => (uxrUpdateOutputStreamHeartbeatTimestamp stream timestamp).1
  | .reset => uxrResetOutputReliableStream stream

end Events

/-- The events that are admitted: writes that fit one slot, bytes that stay inside a body, and
ACKNACKs of a number from `lastAcknown` to `lastSent`. -/
def CounterAdmitted (stream : OutputReliableStream) : CounterEvent → Prop
  | .write length _ => FitsSlot stream length
  | .serialize _ o bytes => o + bytes.length ≤ uxrGetReliableBufferCapacity stream.base
  | .acknack _ firstUnackedSeqNum => AcknackOk stream firstUnackedSeqNum
  | .send => True
  | .nack _ => True
  | .heartbeat _ => True
  | .reset => True

instance (stream : OutputReliableStream) :
    ∀ e : CounterEvent, Decidable (CounterAdmitted stream e)
  | .write length _ => inferInstanceAs (Decidable (FitsSlot stream length))
  | .serialize _ o bytes =>
    inferInstanceAs (Decidable (o + bytes.length ≤ uxrGetReliableBufferCapacity stream.base))
  | .acknack _ firstUnackedSeqNum =>
    inferInstanceAs (Decidable (AcknackOk stream firstUnackedSeqNum))
  | .send => .isTrue trivial
  | .nack _ => .isTrue trivial
  | .heartbeat _ => .isTrue trivial
  | .reset => .isTrue trivial

/-- A stream that was just initialised, with a history that is a power of two below `2 ^ 14`. -/
def CounterStart (info : UxrSessionInfo) (stream : OutputReliableStream) : Prop :=
  ∃ base, (∃ k < 14, base.history = 2 ^ k) ∧
    stream = uxrInitOutputReliableStream base (uxrSessionHeaderOffset info)

/-- The streams that such runs reach. -/
def CounterRun (info : UxrSessionInfo) (streamIdRaw : UInt8) (stream : OutputReliableStream) :
    Prop :=
  Reaches (CounterStart info) (counterStep info streamIdRaw) CounterAdmitted stream

/-! ## What the counters and the sizes say -/

/-- The counters are in order, and the sizes of the slots follow them. -/
structure CountersAgree (stream : OutputReliableStream) : Prop where
  acknown_sent_written : seqSteps stream.lastAcknown stream.lastSent <
    seqSteps stream.lastAcknown stream.lastWritten
  written_le : seqSteps stream.lastAcknown stream.lastWritten ≤ stream.base.history + 1
  /-- The comparison of the code sees the same order. -/
  cmp_le : 0 ≥ uxrSeqNumCmp stream.lastAcknown stream.lastSent ∧
    0 > uxrSeqNumCmp stream.lastSent stream.lastWritten ∧
    0 ≥ uxrSeqNumCmp stream.lastWritten (uxrSeqNumAdd stream.lastAcknown (stream.base.history + 1))
  /-- The numbers behind `lastAcknown` and before `lastWritten` hold messages. -/
  used : ∀ x, 0 < seqSteps stream.lastAcknown x →
    seqSteps stream.lastAcknown x < seqSteps stream.lastAcknown stream.lastWritten →
    stream.offset < uxrGetReliableBufferSize stream.base x ∧
      uxrGetReliableBufferSize stream.base x ≤ uxrGetReliableBufferCapacity stream.base
  /-- The slots of no number up to `lastWritten` are empty. -/
  unused : ∀ j, (∀ x, 0 < seqSteps stream.lastAcknown x →
      seqSteps stream.lastAcknown x ≤ seqSteps stream.lastAcknown stream.lastWritten →
      x.val % stream.base.history ≠ j % stream.base.history) →
    uxrGetReliableBufferSize stream.base j = stream.offset
  /-- An empty current slot is the one right behind `lastSent`. -/
  current : uxrGetReliableBufferSize stream.base stream.lastWritten = stream.offset →
    stream.lastWritten = uxrSeqNumAdd stream.lastSent 1

/-- Every number behind `lastAcknown` that has a slot holds a message. -/
def WindowExhausted (stream : OutputReliableStream) : Prop :=
  ∀ x, 0 < seqSteps stream.lastAcknown x →
    seqSteps stream.lastAcknown x ≤ stream.base.history →
    stream.offset < uxrGetReliableBufferSize stream.base x

/-- A write that is refused leaves the stream as it was, and one that fits an empty slot is
refused only by an exhausted window. -/
def RefusedRightly (stream : OutputReliableStream) (length : ℕ) (ub : UcdrBuffer) : Prop :=
  (∀ r, uxrPrepareReliableBufferToWrite stream length ub = some r →
    r.availableToWrite = false → r.stream = stream) ∧
  (FitsSlot stream length → ∃ r, uxrPrepareReliableBufferToWrite stream length ub = some r ∧
    (r.availableToWrite = false → WindowExhausted stream))

/-- A write that is refused changes nothing. -/
lemma prepare_refused {stream : OutputReliableStream} {length : ℕ} {ub : UcdrBuffer}
    {r : PrepareResult} (hr : uxrPrepareReliableBufferToWrite stream length ub = some r)
    (hrefused : r.availableToWrite = false) : r.stream = stream := by
  unfold uxrPrepareReliableBufferToWrite prepareFragments at hr
  dsimp only at hr
  split_ifs at hr <;> cases hr <;> first | rfl | cases hrefused

/-! ## The window -/

/-- The positions of a stream whose writes fit one slot: acknowledged up to `a`, sent up to
`s`, filling `w`. -/
structure CounterWindow (stream : OutputReliableStream) (a s w : ℕ) : Prop where
  lastAcknown_eq : stream.lastAcknown = seqOf a
  lastSent_eq : stream.lastSent = seqOf s
  lastWritten_eq : stream.lastWritten = seqOf w
  acknown_le : a ≤ s
  sent_lt : s < w
  written_le : w ≤ a + stream.base.history + 1
  distinct : SlotsDistinct stream.base.history a
  offset_lt : stream.offset < 4294967296
  sound : ∀ j, SlotSound stream j
  /-- A position further on than the one behind `s` was opened by a write. -/
  ahead : s + 1 < w → w ≤ a + stream.base.history ∧
    uxrGetReliableBufferSize stream.base (seqOf w) ≠ stream.offset
  /-- The positions before the one being filled hold messages. -/
  used : ∀ X, a < X → X < w → uxrGetReliableBufferSize stream.base (seqOf X) ≠ stream.offset
  /-- The positions behind it hold none. -/
  empty : ∀ X, w < X → X ≤ a + stream.base.history →
    uxrGetReliableBufferSize stream.base (seqOf X) = stream.offset

namespace CounterWindow

variable {stream : OutputReliableStream} {a s w : ℕ}

/-- The positions of the window lie in different slots. -/
lemma slot_ne (h : CounterWindow stream a s w) {X Y : ℕ} (hX : a < X)
    (hX' : X ≤ a + stream.base.history) (hY : a < Y) (hY' : Y ≤ a + stream.base.history)
    (hne : X ≠ Y) : slotOf stream.base.history X ≠ slotOf stream.base.history Y :=
  fun heq => hne (h.distinct X Y hX hX' hY hY' heq)

/-- A slot that is in use holds something that fits. -/
lemma size_bounds (h : CounterWindow stream a s w) {j : ℕ}
    (hj : uxrGetReliableBufferSize stream.base j ≠ stream.offset) :
    stream.offset < uxrGetReliableBufferSize stream.base j ∧
      uxrGetReliableBufferSize stream.base j ≤ uxrGetReliableBufferCapacity stream.base :=
  (h.sound j).resolve_left hj

/-- No slot holds less than the room for a session header. -/
lemma offset_le (h : CounterWindow stream a s w) (j : ℕ) :
    stream.offset ≤ uxrGetReliableBufferSize stream.base j := by
  rcases h.sound j with heq | ⟨hlt, -⟩
  · exact heq.ge
  · exact hlt.le

/-- The comparison that opens a slot finds it inside the window. -/
lemma le_of_available (h : CounterWindow stream a s w) {X : ℕ} (hX : X ≤ w + 1)
    (hcmp : 0 ≥ uxrSeqNumCmp (seqOf X) (uxrSeqNumAdd stream.lastAcknown stream.base.history)) :
    X ≤ a + stream.base.history := by
  have := h.written_le
  rw [h.lastAcknown_eq, uxrSeqNumAdd_seqOf] at hcmp
  exact le_of_uxrSeqNumCmp_nonpos hcmp (by omega)

/-- When the history is short, the comparison opens every slot inside the window. -/
lemma lt_of_not_available (h : CounterWindow stream a s w) (hhistory : stream.base.history ≤ 8192)
    {X : ℕ} (hw : w ≤ X) (hX : X ≤ w + 1)
    (hcmp : ¬ 0 ≥ uxrSeqNumCmp (seqOf X) (uxrSeqNumAdd stream.lastAcknown stream.base.history)) :
    a + stream.base.history < X := by
  have := h.written_le
  have := h.acknown_le
  have := h.sent_lt
  rw [h.lastAcknown_eq, uxrSeqNumAdd_seqOf,
    uxrSeqNumCmp_seqOf_nonpos (by omega) (by omega)] at hcmp
  exact Nat.lt_of_not_le hcmp

/-- Fields other than the window counters and the slots do not matter. -/
lemma congr {stream' : OutputReliableStream} (h : CounterWindow stream a s w)
    (hbase : stream'.base = stream.base) (hoffset : stream'.offset = stream.offset)
    (ha : stream'.lastAcknown = stream.lastAcknown) (hs : stream'.lastSent = stream.lastSent)
    (hw : stream'.lastWritten = stream.lastWritten) : CounterWindow stream' a s w := by
  obtain ⟨h₁, h₂, h₃, h₄, h₅, h₆, h₇, h₈, h₉, h₁₀, h₁₁, h₁₂⟩ := h
  unfold SlotSound at h₉
  constructor <;> (try unfold SlotSound) <;> (try simp only [hbase, hoffset, ha, hs, hw]) <;>
    assumption

/-- Neither the flag for lost messages nor the number of heartbeats matters. -/
lemma withNack (h : CounterWindow stream a s w) (sendLost : Bool) (tries : ℕ) :
    CounterWindow { stream with sendLost := sendLost, nextHeartbeatTries := tries } a s w :=
  h.congr rfl rfl rfl rfl rfl

/-- Bytes of the bodies do not matter, only the sizes do. -/
lemma withBase (h : CounterWindow stream a s w) {base : ReliableStream}
    (hsize : base.size = stream.base.size) (hhistory : base.history = stream.base.history)
    (hsizes : ∀ j, uxrGetReliableBufferSize base j = uxrGetReliableBufferSize stream.base j) :
    CounterWindow { stream with base := base } a s w := by
  have hcap : uxrGetReliableBufferCapacity base = uxrGetReliableBufferCapacity stream.base := by
    unfold uxrGetReliableBufferCapacity
    rw [hsize, hhistory]
  obtain ⟨h₁, h₂, h₃, h₄, h₅, h₆, h₇, h₈, h₉, h₁₀, h₁₁, h₁₂⟩ := h
  unfold SlotSound at h₉
  constructor <;> (try unfold SlotSound) <;> (try simp only [hhistory, hcap, hsizes]) <;> assumption

/-- Bytes stored in a body keep the window. -/
theorem store (h : CounterWindow stream a s w) {i address : ℕ} {bytes : List UInt8}
    (hlo : uxrGetReliableBuffer stream.base i ≤ address)
    (hhi : address + bytes.length ≤
      uxrGetReliableBuffer stream.base i + uxrGetReliableBufferCapacity stream.base) :
    CounterWindow { stream with base := stream.base.store address bytes } a s w :=
  h.withBase rfl rfl fun _ => uxrGetReliableBufferSize_store stream.base hlo hhi

/-! ## Start -/

/-- A stream starts with an empty window. -/
theorem reset (stream : OutputReliableStream) (hoffset : stream.offset < 4294967296) :
    CounterWindow (uxrResetOutputReliableStream stream) 65535 65535 65536 := by
  have hhistory := (OutputWindow.setAllSizes_frame stream.offset stream.base.history stream.base).2
  have hempty := PlainWindow.reset_bufferSize stream hoffset
  constructor
  case lastAcknown_eq => exact seqNumMax_eq
  case lastSent_eq => exact seqNumMax_eq
  case lastWritten_eq => rfl
  case acknown_le => exact le_rfl
  case sent_lt => decide
  case written_le => exact Nat.succ_le_succ (Nat.le_add_right _ _)
  case distinct =>
    simp only [uxrResetOutputReliableStream, hhistory]
    exact slotsDistinct_start stream.base.history_lt
  case offset_lt => exact hoffset
  case sound => exact fun j => .inl (hempty j)
  case ahead => exact fun hlt => absurd hlt (by decide)
  case used =>
    intro X hX hX'
    omega
  case empty => exact fun X _ _ => hempty _

/-! ## Writing -/

/-- The window with `len` bytes recorded for one position, the slots of the others being as
they were. -/
lemma setSize (h : CounterWindow stream a s w) {w' len : ℕ} (hlo : w ≤ w') (hhi : w' ≤ w + 1)
    (hwindow : w' ≤ a + stream.base.history)
    (hused : w < w' → uxrGetReliableBufferSize stream.base (seqOf w) ≠ stream.offset)
    (hge : stream.offset ≤ len) (hle : len ≤ uxrGetReliableBufferCapacity stream.base)
    (hahead : s + 1 < w' → len ≠ stream.offset) :
    CounterWindow
      (stream.writtenTo (uxrSetReliableBufferSize stream.base (seqOf w') len) (seqOf w'))
        a s w' := by
  have hcap := capacity_lt stream.base
  have hacknown := h.acknown_le
  have hsent := h.sent_lt
  have hsize : ∀ j, uxrGetReliableBufferSize
      (uxrSetReliableBufferSize stream.base (seqOf w') len) j =
        if slotOf stream.base.history w' = j % stream.base.history then len
        else uxrGetReliableBufferSize stream.base j := fun j =>
    uxrGetReliableBufferSize_setSize _ (by omega)
  have hsame : uxrGetReliableBufferSize (uxrSetReliableBufferSize stream.base (seqOf w') len)
      (seqOf w') = len := uxrGetReliableBufferSize_setSize_same _ (by omega)
  have hother : ∀ X, a < X → X ≤ a + stream.base.history → X ≠ w' →
      uxrGetReliableBufferSize (uxrSetReliableBufferSize stream.base (seqOf w') len) (seqOf X) =
        uxrGetReliableBufferSize stream.base (seqOf X) := by
    intro X hX hX' hne
    rw [hsize]
    exact if_neg (h.slot_ne (by omega) hwindow hX hX' hne.symm)
  refine { h with lastWritten_eq := rfl, sent_lt := by omega,
                  written_le := Nat.le_succ_of_le hwindow, sound := ?_, ahead := ?_, used := ?_,
                  empty := ?_ }
  · intro j
    unfold SlotSound
    simp only [OutputReliableStream.writtenTo, hsize, uxrGetReliableBufferCapacity_setSize]
    split
    · rcases Nat.lt_or_eq_of_le hge with hlt | heq
      · exact .inr ⟨hlt, hle⟩
      · exact .inl heq.symm
    · exact h.sound j
  · intro hlt
    simp only [OutputReliableStream.writtenTo, hsame]
    exact ⟨hwindow, hahead hlt⟩
  · intro X hX hXw
    simp only [OutputReliableStream.writtenTo]
    rw [hother X hX (by omega) (by omega)]
    rcases Nat.lt_or_ge X w with hlt | hge
    · exact h.used X hX hlt
    · obtain rfl : X = w := by omega
      exact hused hXw
  · intro X hX hX'
    simp only [OutputReliableStream.writtenTo, uxrSetReliableBufferSize_history] at hX' ⊢
    rw [hother X (by omega) hX' (by omega)]
    exact h.empty X (by omega) hX'

/-- A write that fits one slot has an outcome: it goes behind what the slot of one position
holds, or it is refused, and then, when the history is short, every position that has a slot
holds a message. -/
theorem prepare (h : CounterWindow stream a s w) {length : ℕ} (ub : UcdrBuffer)
    (hfits : FitsSlot stream length) :
    ∃ r, uxrPrepareReliableBufferToWrite stream length ub = some r ∧
      ((r = ⟨false, ub, stream⟩ ∧ (stream.base.history ≤ 8192 →
          ∀ X, a < X → X ≤ a + stream.base.history →
            uxrGetReliableBufferSize stream.base (seqOf X) ≠ stream.offset)) ∨
        ∃ w', PlainWindow.Opens stream a w w' ∧
          uxrGetReliableBufferSize stream.base (seqOf w') + length ≤
            uxrGetReliableBufferCapacity stream.base ∧
          (w < w' → 0 < length) ∧ r = PlainWindow.reservedIn stream w' length) := by
  have hcap := capacity_lt stream.base
  have hsize := uxrGetReliableBufferSize_lt stream.base (seqOf w)
  unfold FitsSlot at hfits
  have hsum : sizeT (uxrGetReliableBufferSize stream.base (seqOf w) + length) =
      uxrGetReliableBufferSize stream.base (seqOf w) + length := Nat.mod_eq_of_lt (by omega)
  have hsum' : sizeT (stream.offset + length) = stream.offset + length :=
    Nat.mod_eq_of_lt (by omega)
  unfold uxrPrepareReliableBufferToWrite
  simp only [h.lastWritten_eq, hsum, hsum', uxrSeqNumAdd_seqOf]
  by_cases hcurrent : uxrGetReliableBufferSize stream.base (seqOf w) + length ≤
      uxrGetReliableBufferCapacity stream.base
  · rw [if_pos hcurrent]
    split
    · next hcmp =>
      have hwindow := h.le_of_available (by omega) hcmp
      exact ⟨_, rfl, .inr ⟨w, ⟨le_rfl, by omega, hwindow, fun hw => by omega⟩, hcurrent,
        fun hw => by omega, rfl⟩⟩
    · next hcmp =>
      -- the current number has no slot of its own
      refine ⟨_, rfl, .inl ⟨rfl, fun hhistory X hX hX' => h.used X hX ?_⟩⟩
      have := h.lt_of_not_available hhistory le_rfl (by omega) hcmp
      omega
  · have hused : uxrGetReliableBufferSize stream.base (seqOf w) ≠ stream.offset := by omega
    rw [if_neg hcurrent, if_pos hfits]
    split
    · next hcmp =>
      have hwindow := h.le_of_available le_rfl hcmp
      have hempty := h.empty (w + 1) (by omega) hwindow
      have hbounds := h.size_bounds hused
      refine ⟨_, rfl, .inr ⟨w + 1, ⟨by omega, le_rfl, hwindow, fun _ => hused⟩, ?_,
        fun _ => by omega, ?_⟩⟩
      · rwa [hempty]
      · unfold PlainWindow.reservedIn OutputReliableStream.writtenTo
        rw [hempty]
    · next hcmp =>
      refine ⟨_, rfl, .inl ⟨rfl, fun hhistory X hX hX' => ?_⟩⟩
      have hbehind := h.lt_of_not_available hhistory (by omega) le_rfl hcmp
      rcases Nat.lt_or_ge X w with hlt | hge
      · exact h.used X hX hlt
      · obtain rfl : X = w := by omega
        exact hused

/-- Reserving room keeps the window. -/
theorem reserve (h : CounterWindow stream a s w) {w' length : ℕ}
    (hopens : PlainWindow.Opens stream a w w')
    (hfits : uxrGetReliableBufferSize stream.base (seqOf w') + length ≤
      uxrGetReliableBufferCapacity stream.base) (hpos : w < w' → 0 < length) :
    CounterWindow (PlainWindow.reservedIn stream w' length).stream a s w' := by
  have hoffset := h.offset_le (seqOf w')
  have hle := hopens.le
  refine h.setSize hopens.le hopens.le_succ hopens.inWindow hopens.used (by omega) hfits ?_
  intro hahead
  rcases Nat.lt_or_eq_of_le hopens.le with hlt | rfl
  · have := hpos hlt
    omega
  · have := (h.ahead hahead).2
    omega

/-! ## Sending -/

/-- Sending moves the last position sent by one, and the position being filled out of its
way. -/
theorem sentNext (h : CounterWindow stream a s w) (hwindow : s + 1 ≤ a + stream.base.history)
    (hlength : stream.offset < uxrGetReliableBufferSize stream.base (seqOf (s + 1))) :
    CounterWindow (OutputWindow.sentNext stream s w) a (s + 1)
      (OutputWindow.writtenAfterSend s w) := by
  have hacknown := h.acknown_le
  have hsent := h.sent_lt
  unfold OutputWindow.sentNext OutputWindow.writtenAfterSend
  by_cases hlast : s + 1 = w
  · rw [if_pos hlast]
    refine { h with lastSent_eq := rfl, lastWritten_eq := rfl, acknown_le := by omega,
                    sent_lt := by omega, written_le := by dsimp only; omega,
                    ahead := fun hlt => by omega, used := ?_,
                    empty := fun X hX hX' => h.empty X (by omega) hX' }
    intro X hX hXw
    rcases Nat.lt_succ_iff_lt_or_eq.mp hXw with hlt | rfl
    · exact h.used X hX hlt
    · rw [← hlast]
      exact hlength.ne'
  · rw [if_neg hlast]
    exact { h with lastSent_eq := rfl, lastWritten_eq := rfl, acknown_le := by omega,
                   sent_lt := by omega, ahead := fun hlt => h.ahead (by omega) }

/-- One turn of the sending loop keeps the window. -/
theorem sendNextBuffer (h : CounterWindow stream a s w) (info : UxrSessionInfo)
    (streamIdRaw : UInt8) (hoffset : stream.offset = uxrSessionHeaderOffset info) :
    ∃ s' w', CounterWindow (sendNextBuffer info streamIdRaw stream) a s' w' := by
  unfold XrceDds.sendNextBuffer
  by_cases hsend : (uxrPrepareNextReliableBufferToSend stream).dataToSend
  · obtain ⟨hwindow, hlength, heq⟩ := OutputWindow.prepareNext_of_positions h.lastAcknown_eq
      h.lastSent_eq h.lastWritten_eq h.acknown_le h.sent_lt h.written_le hsend
    have hfits := (h.size_bounds hlength.ne').2
    rw [heq]
    refine ⟨s + 1, OutputWindow.writtenAfterSend s w,
      (h.sentNext hwindow hlength).store (i := seqOf (s + 1)) le_rfl ?_⟩
    rw [length_messageHeader, ← hoffset]
    exact Nat.add_le_add_left (hlength.le.trans hfits) _
  · have hsame : (uxrPrepareNextReliableBufferToSend stream).stream = stream := by
      unfold uxrPrepareNextReliableBufferToSend at hsend ⊢
      dsimp only at hsend ⊢
      rw [if_neg hsend]
    simp only [hsend, hsame]
    exact ⟨s, w, h⟩

/-! ## Acknowledgements -/

/-- The positions that come into the window take the slots of those that were acknowledged. -/
lemma cleanBuffers_opened (h : CounterWindow stream a s w) {d X : ℕ}
    (hdistinct : SlotsDistinct stream.base.history (a + d)) (hX : a + stream.base.history < X)
    (hX' : X ≤ a + d + stream.base.history) :
    uxrGetReliableBufferSize (XrceDds.cleanBuffers d stream).base (seqOf X) = stream.offset := by
  refine OutputWindow.cleanBuffers_bufferSize d stream h.lastAcknown_eq h.offset_lt (.inl ?_)
  obtain ⟨Y, hY, hY', heq⟩ := h.distinct.exists_slotOf stream.base.history_pos
    (slotOf_lt stream.base.history_pos X)
  have hYd : Y ≤ a + d := by
    by_contra hlt
    have := hdistinct Y X (by omega) (by omega) (by omega) hX' heq
    omega
  exact ⟨Y - (a + 1), by omega, by rw [Nat.add_sub_cancel' (by omega), heq]; rfl⟩

/-- Acknowledging positions that were sent moves the start of the window. -/
theorem cleanBuffers (h : CounterWindow stream a s w) {d : ℕ} (hd : d ≤ s - a)
    (hdistinct : SlotsDistinct stream.base.history (a + d)) :
    CounterWindow (cleanBuffers d stream) (a + d) s w := by
  have hacknown := h.acknown_le
  have hsent := h.sent_lt
  have hwritten := h.written_le
  obtain ⟨-, hhistory, hoffset, hs, hw⟩ := OutputWindow.cleanBuffers_frame d stream
  have honly := OutputWindow.cleanBuffers_onlySlots d stream h.lastAcknown_eq
  have hclean := fun j => OutputWindow.cleanBuffers_bufferSize d stream (j := j) h.lastAcknown_eq
    h.offset_lt
  have hkeep : ∀ X, a + d < X → X ≤ a + stream.base.history →
      uxrGetReliableBufferSize (XrceDds.cleanBuffers d stream).base (seqOf X) =
        uxrGetReliableBufferSize stream.base (seqOf X) := by
    intro X hX hX'
    refine honly.bufferSize_eq _ ?_
    rintro ⟨k, hk, heq⟩
    exact h.slot_ne (by omega) hX' (by omega) (by omega) (by omega) heq
  constructor
  case lastAcknown_eq => exact OutputWindow.cleanBuffers_lastAcknown d stream h.lastAcknown_eq
  case lastSent_eq => rw [hs, h.lastSent_eq]
  case lastWritten_eq => rw [hw, h.lastWritten_eq]
  case acknown_le => omega
  case sent_lt => exact hsent
  case written_le =>
    rw [hhistory]
    omega
  case distinct =>
    rw [hhistory]
    exact hdistinct
  case offset_lt =>
    rw [hoffset]
    exact h.offset_lt
  case sound =>
    intro j
    unfold SlotSound
    rw [hoffset, honly.capacity_eq]
    by_cases hj : OutputWindow.CleanedSlots stream.base.history a d (j % stream.base.history)
    · exact .inl (hclean j (.inl hj))
    · rw [honly.bufferSize_eq j hj]
      exact h.sound j
  case ahead =>
    intro hlt
    obtain ⟨hwindow, hused⟩ := h.ahead hlt
    rw [hhistory, hoffset, hkeep w (by omega) hwindow]
    exact ⟨by omega, hused⟩
  case used =>
    intro X hX hXw
    rw [hoffset, hkeep X hX (by omega)]
    exact h.used X (by omega) hXw
  case empty =>
    intro X hX hX'
    rw [hhistory] at hX'
    rw [hoffset]
    rcases Nat.lt_or_ge (a + stream.base.history) X with hgt | hle
    · exact h.cleanBuffers_opened hdistinct hgt hX'
    · exact hclean _ (.inr (h.empty X hX hle))

/-- An ACKNACK of what was sent keeps the window. -/
theorem processAcknack (h : CounterWindow stream a s w)
    (hdvd : stream.base.history ∣ 65536) (hhistory : stream.base.history ≤ 8192) (bitmap : ℕ)
    {f : UxrSeqNum} (hok : AcknackOk stream f) :
    ∃ a', CounterWindow (uxrProcessAcknack stream bitmap f) a' s w := by
  have hwritten := h.written_le
  have hsent := h.sent_lt
  have hs := seqSteps_seqOf a (show s - a < 65536 by omega)
  rw [Nat.add_sub_cancel' h.acknown_le, ← h.lastAcknown_eq, ← h.lastSent_eq] at hs
  unfold AcknackOk at hok
  rw [hs] at hok
  rw [uxrProcessAcknack_eq]
  exact ⟨_, (h.cleanBuffers hok (slotsDistinct_of_dvd hdvd _)).withNack _ _⟩

/-! ## Runs -/

/-- One step of the search for lost messages changes `sendLost` only. -/
theorem nextReliableNackBufferToSend (h : CounterWindow stream a s w) (seqNumIt : UxrSeqNum) :
    CounterWindow (uxrNextReliableNackBufferToSend stream seqNumIt).1 a s w := by
  unfold uxrNextReliableNackBufferToSend
  split
  · split
    · exact h
    · exact h.congr rfl rfl rfl rfl rfl
  · exact h

/-- The heartbeat timer does not touch the window. -/
theorem updateHeartbeatTimestamp (h : CounterWindow stream a s w) (timestamp : ℤ) :
    CounterWindow (uxrUpdateOutputStreamHeartbeatTimestamp stream timestamp).1 a s w := by
  unfold uxrUpdateOutputStreamHeartbeatTimestamp
  split
  · split
    · exact h.congr rfl rfl rfl rfl rfl
    · split
      · exact h.congr rfl rfl rfl rfl rfl
      · exact h
  · exact h.congr rfl rfl rfl rfl rfl

/-! ## The counters of a window -/

/-- The numbers a few steps behind `lastAcknown` are those of positions. -/
lemma eq_seqOf (h : CounterWindow stream a s w) (x : UxrSeqNum) :
    x = seqOf (a + seqSteps stream.lastAcknown x) := by
  rw [h.lastAcknown_eq]
  exact (seqOf_add_seqSteps a x).symm

/-- Steps behind `lastAcknown` are counted in positions. -/
lemma steps_eq (h : CounterWindow stream a s w) {X : ℕ} (hX : a ≤ X) (hX' : X < a + 65536) :
    seqSteps stream.lastAcknown (seqOf X) = X - a := by
  rw [h.lastAcknown_eq]
  have hsteps := seqSteps_seqOf a (show X - a < 65536 by omega)
  rwa [Nat.add_sub_cancel' hX] at hsteps

/-- The counters of a window are in order, and the sizes follow them. -/
theorem countersAgree (h : CounterWindow stream a s w) (hhistory : stream.base.history ≤ 8192) :
    CountersAgree stream := by
  have hacknown := h.acknown_le
  have hsent := h.sent_lt
  have hwritten := h.written_le
  have hs : seqSteps stream.lastAcknown stream.lastSent = s - a := by
    rw [h.lastSent_eq, h.steps_eq hacknown (by omega)]
  have hw : seqSteps stream.lastAcknown stream.lastWritten = w - a := by
    rw [h.lastWritten_eq, h.steps_eq (by omega) (by omega)]
  constructor
  case acknown_sent_written => omega
  case written_le => omega
  case cmp_le =>
    rw [h.lastAcknown_eq, h.lastSent_eq, h.lastWritten_eq, uxrSeqNumAdd_seqOf]
    exact ⟨(uxrSeqNumCmp_seqOf_nonpos (by omega) (by omega)).mpr hacknown,
      (uxrSeqNumCmp_seqOf_neg (by omega) (by omega)).mpr hsent,
      (uxrSeqNumCmp_seqOf_nonpos (by omega) (by omega)).mpr hwritten⟩
  case used =>
    intro x hpos hlt
    rw [h.eq_seqOf x]
    exact h.size_bounds (h.used _ (by omega) (by omega))
  case unused =>
    intro j hj
    obtain ⟨X, hX, hX', heq⟩ := h.distinct.exists_slotOf stream.base.history_pos
      (Nat.mod_lt j stream.base.history_pos)
    rw [← uxrGetReliableBufferSize_congr heq]
    refine h.empty X (Nat.lt_of_not_le fun hXw => hj (seqOf X) ?_ ?_ heq) hX'
    · rw [h.steps_eq hX.le (by omega)]
      omega
    · rw [h.steps_eq hX.le (by omega)]
      omega
  case current =>
    intro hempty
    rw [h.lastWritten_eq] at hempty
    have hnot : ¬ s + 1 < w := fun hlt => (h.ahead hlt).2 hempty
    rw [h.lastWritten_eq, h.lastSent_eq, uxrSeqNumAdd_seqOf, show w = s + 1 by omega]

/-- A stream with a window refuses rightly. -/
theorem refusedRightly (h : CounterWindow stream a s w) (hhistory : stream.base.history ≤ 8192)
    (length : ℕ) (ub : UcdrBuffer) : RefusedRightly stream length ub := by
  refine ⟨fun r => prepare_refused, fun hfits => ?_⟩
  obtain ⟨r, hr, ⟨-, hused⟩ | ⟨w', -, -, -, rfl⟩⟩ := h.prepare ub hfits
  · refine ⟨r, hr, fun _ x hpos hle => ?_⟩
    rw [h.eq_seqOf x]
    exact (h.size_bounds (hused hhistory _ (by omega) (by omega))).1
  · exact ⟨_, hr, fun hrefused => by cases hrefused⟩

end CounterWindow

section Run

variable {info : UxrSessionInfo} {streamIdRaw : UInt8} {stream : OutputReliableStream}

/-- Every event keeps the length of the session header. -/
lemma counterStep_offset (stream : OutputReliableStream) (e : CounterEvent) :
    (counterStep info streamIdRaw stream e).offset = stream.offset := by
  cases e with
  | write length ub =>
    unfold counterStep
    dsimp only
    split
    · next hr => exact prepare_offset hr
    · rfl
  | serialize seqNum o bytes => rfl
  | send =>
    unfold counterStep sendNextBuffer uxrPrepareNextReliableBufferToSend
    dsimp only
    split_ifs <;> rfl
  | acknack bitmap f => exact (OutputWindow.cleanBuffers_frame _ stream).2.2.1
  | nack seqNumIt =>
    unfold counterStep uxrNextReliableNackBufferToSend
    dsimp only
    split
    · split <;> rfl
    · rfl
  | heartbeat timestamp =>
    unfold counterStep uxrUpdateOutputStreamHeartbeatTimestamp
    dsimp only
    split_ifs <;> rfl
  | reset => rfl

/-- Every admitted event keeps the history. -/
lemma CounterWindow.step_history {a s w : ℕ} (h : CounterWindow stream a s w) {e : CounterEvent}
    (hadmitted : CounterAdmitted stream e) :
    (counterStep info streamIdRaw stream e).base.history = stream.base.history := by
  cases e with
  | write length ub =>
    obtain ⟨r, hr, ⟨rfl, -⟩ | ⟨w', -, -, -, rfl⟩⟩ := h.prepare ub hadmitted <;>
      simp only [counterStep, hr]
    rfl
  | serialize seqNum o bytes => rfl
  | send =>
    unfold counterStep XrceDds.sendNextBuffer uxrPrepareNextReliableBufferToSend
    dsimp only
    split_ifs <;> rfl
  | acknack bitmap f => exact (OutputWindow.cleanBuffers_frame _ stream).2.1
  | nack seqNumIt =>
    unfold counterStep uxrNextReliableNackBufferToSend
    dsimp only
    split
    · split <;> rfl
    · rfl
  | heartbeat timestamp =>
    unfold counterStep uxrUpdateOutputStreamHeartbeatTimestamp
    dsimp only
    split_ifs <;> rfl
  | reset => exact (OutputWindow.setAllSizes_frame _ _ _).2

/-- A power of two below `2 ^ 14` divides a turn, and is at most an eighth of it. -/
lemma history_bounds {history : ℕ} (h : ∃ k < 14, history = 2 ^ k) :
    history ∣ 65536 ∧ history ≤ 8192 := by
  obtain ⟨k, hk, rfl⟩ := h
  exact ⟨pow_dvd_pow 2 (show k ≤ 16 by omega),
    Nat.pow_le_pow_right (by decide) (show k ≤ 13 by omega)⟩

/-- Every admitted event keeps the window. -/
theorem CounterWindow.step {a s w : ℕ} (h : CounterWindow stream a s w)
    (hhistory : ∃ k < 14, stream.base.history = 2 ^ k)
    (hoffset : stream.offset = uxrSessionHeaderOffset info) {e : CounterEvent}
    (hadmitted : CounterAdmitted stream e) :
    ∃ a' s' w', CounterWindow (counterStep info streamIdRaw stream e) a' s' w' := by
  cases e with
  | write length ub =>
    obtain ⟨r, hr, ⟨rfl, -⟩ | ⟨w', hopens, hfits, hpos, rfl⟩⟩ := h.prepare ub hadmitted
    · simp only [counterStep, hr]
      exact ⟨a, s, w, h⟩
    · simp only [counterStep, hr]
      exact ⟨a, s, w', h.reserve hopens hfits hpos⟩
  | serialize seqNum o bytes =>
    refine ⟨a, s, w, h.store (i := seqNum) (Nat.le_add_right _ _) ?_⟩
    rw [Nat.add_assoc]
    exact Nat.add_le_add_left hadmitted _
  | send => exact ⟨a, h.sendNextBuffer info streamIdRaw hoffset⟩
  | acknack bitmap f =>
    obtain ⟨hdvd, hle⟩ := history_bounds hhistory
    obtain ⟨a', ha'⟩ := h.processAcknack hdvd hle bitmap hadmitted
    exact ⟨a', s, w, ha'⟩
  | nack seqNumIt => exact ⟨a, s, w, h.nextReliableNackBufferToSend seqNumIt⟩
  | heartbeat timestamp => exact ⟨a, s, w, h.updateHeartbeatTimestamp timestamp⟩
  | reset => exact ⟨_, _, _, CounterWindow.reset stream h.offset_lt⟩

/-- A stream with a window, whose history is a power of two below `2 ^ 14` and whose slots
leave room for the session header. -/
structure CounterInvariant (info : UxrSessionInfo) (stream : OutputReliableStream) : Prop where
  offset_eq : stream.offset = uxrSessionHeaderOffset info
  history_eq : ∃ k < 14, stream.base.history = 2 ^ k
  window : ∃ a s w, CounterWindow stream a s w

/-- Along every run there is a window. -/
theorem CounterRun.invariant (h : CounterRun info streamIdRaw stream) :
    CounterInvariant info stream := by
  refine Reaches.invariant ?_ ?_ h
  · rintro stream ⟨base, hpow, rfl⟩
    refine ⟨rfl, ?_, _, _, _, CounterWindow.reset _ ?_⟩
    · have := (OutputWindow.setAllSizes_frame (uxrSessionHeaderOffset info) base.history base).2
      simpa only [uxrInitOutputReliableStream, uxrResetOutputReliableStream, this] using hpow
    · show uxrSessionHeaderOffset info < 4294967296
      rcases uxrSessionHeaderOffset_eq info with heq | heq <;> rw [heq] <;> decide
  · rintro stream e ⟨hoffset, hhistory, a, s, w, hwindow⟩ hadmitted
    exact ⟨(counterStep_offset stream e).trans hoffset, by rwa [hwindow.step_history hadmitted],
      hwindow.step hhistory hoffset hadmitted⟩

/-- Along every run of writes that each fit one slot, sends, ACKNACKs of what was sent, steps of
the search for lost messages and resets, the counters are in order and the sizes of the slots
follow them, a refused write changes nothing, and a write that fits an empty slot is refused
only when every number of the window holds a message. -/
theorem counters_agree (h : CounterRun info streamIdRaw stream) :
    CountersAgree stream ∧ ∀ length ub, RefusedRightly stream length ub := by
  obtain ⟨-, hhistory, a, s, w, hwindow⟩ := h.invariant
  have hle := (history_bounds hhistory).2
  exact ⟨hwindow.countersAgree hle, hwindow.refusedRightly hle⟩

end Run

/-- A stream of two slots sends two messages and is told that the first of them arrived and
that the second is missing. -/
def partlyAcknowledged : OutputReliableStream :=
  [.write 7 (ucdrInitBuffer 0 0), .send, .write 9 (ucdrInitBuffer 0 0), .send, .acknack 1 1,
    .nack 0].foldl (counterStep keylessSession 128) freshStream

/-- Its counters and its sizes agree. -/
theorem counters_agree_partlyAcknowledged :
    CountersAgree partlyAcknowledged ∧
      ∀ length ub, RefusedRightly partlyAcknowledged length ub := by
  have hstart : CounterRun keylessSession 128 freshStream :=
    .start ⟨_, ⟨1, by decide, rfl⟩, rfl⟩
  have hrun : CounterRun keylessSession 128 partlyAcknowledged :=
    hstart.foldl _ ⟨by decide, trivial, by decide, trivial, by decide, trivial, trivial⟩
  exact counters_agree hrun

end XrceDds
