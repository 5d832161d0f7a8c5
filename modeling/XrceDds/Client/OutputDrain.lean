import XrceDds.Client.FragmentPayload

/-!
# Freeing slots

What the client does while it waits for slots: it flashes, handles ACKNACKs, asks for
heartbeats.  `Drains` are the runs of these events.  They do not touch the position that
is being filled as long as it is empty (`WrittenUpTo`), and a slot is free exactly when
the window reaches that position.
-/

namespace XrceDds

/-- The events that send messages and have them acknowledged. -/
def OutputEvent.Drains : OutputEvent → Prop
  | .flash => True
  | .acknack _ _ => True
  | .heartbeat _ => True
  | .write _ _ => False
  | .serialize _ _ _ => False
  | .reset => False

/-- The streams that sending and acknowledging lead to. -/
inductive Drains (info : UxrSessionInfo) (streamIdRaw : UInt8) (stream : OutputReliableStream) :
    OutputReliableStream → Prop
  | refl : Drains info streamIdRaw stream stream
  | step {stream' : OutputReliableStream} {e : OutputEvent}
      (h : Drains info streamIdRaw stream stream') (he : e.Drains)
      (hadmitted : OutputAdmitted stream' e) :
      Drains info streamIdRaw stream (outputStep info streamIdRaw stream' e)

/-- Two streams with the same slots and the same room for session headers. -/
structure SameLayout (stream stream' : OutputReliableStream) : Prop where
  size_eq : stream'.base.size = stream.base.size
  history_eq : stream'.base.history = stream.base.history
  offset_eq : stream'.offset = stream.offset

namespace SameLayout

lemma refl (stream : OutputReliableStream) : SameLayout stream stream := ⟨rfl, rfl, rfl⟩

lemma trans {stream₁ stream₂ stream₃ : OutputReliableStream} (h₁ : SameLayout stream₁ stream₂)
    (h₂ : SameLayout stream₂ stream₃) : SameLayout stream₁ stream₃ :=
  ⟨h₂.size_eq.trans h₁.size_eq, h₂.history_eq.trans h₁.history_eq,
    h₂.offset_eq.trans h₁.offset_eq⟩

variable {stream stream' : OutputReliableStream} (h : SameLayout stream stream')
include h

/-- The capacity of the slots is the same. -/
lemma capacity_eq :
    uxrGetReliableBufferCapacity stream'.base = uxrGetReliableBufferCapacity stream.base := by
  unfold uxrGetReliableBufferCapacity
  rw [h.size_eq, h.history_eq]

/-- The bodies are at the same addresses. -/
lemma buffer_eq (j : ℕ) :
    uxrGetReliableBuffer stream'.base j = uxrGetReliableBuffer stream.base j := by
  unfold uxrGetReliableBuffer
  rw [h.size_eq, h.history_eq]

/-- Blocks are of the same size. -/
lemma availableBlockSize_eq : availableBlockSize stream' = availableBlockSize stream := by
  unfold availableBlockSize
  rw [h.capacity_eq, h.offset_eq]

end SameLayout

/-- All positions before `w` are written and nothing is at `w`. -/
def WrittenUpTo (stream : OutputReliableStream) (w : ℕ) : Prop :=
  ∃ a s, OutputWindow stream a s w ∧
    (w ≤ a + stream.base.history →
      uxrGetReliableBufferSize stream.base (seqOf w) = stream.offset)

section Events

variable {info : UxrSessionInfo} {streamIdRaw : UInt8} {stream : OutputReliableStream} {w : ℕ}

/-- Flashing keeps the layout. -/
lemma flashLoop_sameLayout (n : ℕ) (stream : OutputReliableStream) :
    SameLayout stream (flashLoop info streamIdRaw n stream).1 := by
  induction n generalizing stream with
  | zero => exact .refl _
  | succ n ih =>
    unfold flashLoop
    by_cases hsend : (uxrPrepareNextReliableBufferToSend stream).dataToSend
    · simp only [hsend, if_true]
      refine SameLayout.trans ?_ (ih _)
      unfold uxrPrepareNextReliableBufferToSend
      dsimp only
      split <;> exact ⟨rfl, rfl, rfl⟩
    · simp only [hsend]
      exact .refl _

/-- An ACKNACK keeps the layout. -/
lemma readSubmessageAcknack_sameLayout (stream : OutputReliableStream) (bitmap : ℕ)
    (f : UxrSeqNum) : SameLayout stream (readSubmessageAcknack stream bitmap f).1 := by
  obtain ⟨sendLost, hnack⟩ := nackLoop_stream 65536 (uxrProcessAcknack stream bitmap f)
    (uxrBeginOutputNackBufferIt (uxrProcessAcknack stream bitmap f))
  obtain ⟨hsize, hhistory, hoffset, -⟩ := OutputWindow.cleanBuffers_frame
    (uxrSeqNumSub (uxrSeqNumSub f 1) stream.lastAcknown) stream
  simp only [readSubmessageAcknack, hnack]
  exact ⟨hsize, hhistory, hoffset⟩

/-- A heartbeat changes the timer only. -/
lemma heartbeat_stream (stream : OutputReliableStream) (timestamp : ℤ) :
    ∃ t n, (uxrUpdateOutputStreamHeartbeatTimestamp stream timestamp).1 =
      { stream with nextHeartbeatTimestamp := t, nextHeartbeatTries := n } := by
  unfold uxrUpdateOutputStreamHeartbeatTimestamp
  split
  · split
    · exact ⟨_, _, rfl⟩
    · split
      · exact ⟨_, _, rfl⟩
      · exact ⟨_, _, rfl⟩
  · exact ⟨_, _, rfl⟩

/-- Sending and acknowledging keep the layout. -/
lemma drains_step_sameLayout (stream : OutputReliableStream) {e : OutputEvent} (he : e.Drains) :
    SameLayout stream (outputStep info streamIdRaw stream e) := by
  cases e with
  | flash => exact flashLoop_sameLayout _ stream
  | acknack bitmap f => exact readSubmessageAcknack_sameLayout stream bitmap f
  | heartbeat timestamp =>
    obtain ⟨t, n, heq⟩ := heartbeat_stream stream timestamp
    simp only [outputStep, heq]
    exact ⟨rfl, rfl, rfl⟩
  | write length ub => exact he.elim
  | serialize seqNum o bytes => exact he.elim
  | reset => exact he.elim

/-- Flashing sends no position that is empty. -/
lemma WrittenUpTo.flashLoop (h : WrittenUpTo stream w)
    (hoffset : stream.offset = uxrSessionHeaderOffset info) (n : ℕ) :
    WrittenUpTo (flashLoop info streamIdRaw n stream).1 w := by
  induction n generalizing stream with
  | zero => exact h
  | succ n ih =>
    unfold XrceDds.flashLoop
    by_cases hsend : (uxrPrepareNextReliableBufferToSend stream).dataToSend
    · obtain ⟨a, s, hwindow, hempty⟩ := h
      obtain ⟨hreach, hlength, heq⟩ := hwindow.prepareNext_eq hsend
      -- what is sent is in use, so it is not the position being filled
      have hne : s + 1 ≠ w := by
        rintro rfl
        exact absurd (hempty hreach) hlength.ne'
      have hsent := hwindow.prepareNext hreach hlength
      rw [heq]
      unfold OutputWindow.writtenAfterSend at hsent
      rw [if_neg hne] at hsent
      refine ih ⟨a, s + 1, hsent.stamp info streamIdRaw hoffset _ _, fun hw => ?_⟩ hoffset
      have hroom := hwindow.room
      refine (uxrGetReliableBufferSize_store stream.base (i := seqOf (s + 1)) le_rfl ?_).trans
        (hempty hw)
      rw [length_messageHeader]
      omega
    · simp only [hsend]
      exact h

/-- After an ACKNACK the position being filled is as empty as it was. -/
lemma WrittenUpTo.processAcknack (h : WrittenUpTo stream w) (bitmap : ℕ) {f : UxrSeqNum}
    (hok : AcknackOk stream f)
    (hdistinct : SlotsDistinct stream.base.history (uxrSeqNumSub f 1).val) :
    WrittenUpTo (uxrProcessAcknack stream bitmap f) w := by
  obtain ⟨a, s, hwindow, hempty⟩ := h
  have hsent := hwindow.sent_lt
  have hacknown := hwindow.acknown_le
  have hwritten := hwindow.written_le
  obtain ⟨d, hd, hdistinct, heq⟩ := hwindow.acknack_positions hok hdistinct bitmap
  obtain ⟨-, hhistory, hoffset, -⟩ := OutputWindow.cleanBuffers_frame d stream
  rw [heq]
  refine ⟨a + d, s, hwindow.acknackTo bitmap hd hdistinct, ?_⟩
  rw [acknackTo_base, hhistory, show (acknackTo stream bitmap d).offset =
    stream.offset from hoffset]
  intro hw
  refine OutputWindow.cleanBuffers_bufferSize d stream hwindow.lastAcknown_eq hwindow.offset_lt ?_
  by_cases hwalk : OutputWindow.CleanedSlots stream.base.history a d
      (slotOf stream.base.history w)
  · exact .inl hwalk
  · refine .inr ?_
    rcases Nat.lt_or_ge (a + stream.base.history) w with hlt | hge
    · -- the slot of a position beyond the old window was cleaned, or was never in use
      refine hwindow.empty _ fun X hX hXw hX' hslot => ?_
      rcases Nat.lt_or_ge (a + d) X with hgt | hle
      · have := hdistinct X w hgt (by omega) (by omega) hw hslot
        omega
      · exact hwalk ⟨X - (a + 1),
          by omega, by rw [Nat.add_sub_cancel' (by omega)]; exact hslot.symm⟩
    · exact hempty hge

/-- Sending and acknowledging do not touch the position being filled. -/
lemma WrittenUpTo.step (h : WrittenUpTo stream w)
    (hoffset : stream.offset = uxrSessionHeaderOffset info) {e : OutputEvent} (he : e.Drains)
    (hadmitted : OutputAdmitted stream e) :
    WrittenUpTo (outputStep info streamIdRaw stream e) w := by
  cases e with
  | flash => exact h.flashLoop hoffset _
  | acknack bitmap f =>
    obtain ⟨a, s, hwindow, hempty⟩ := h.processAcknack bitmap hadmitted.1 hadmitted.2
    obtain ⟨sendLost, hnack⟩ := nackLoop_stream 65536 (uxrProcessAcknack stream bitmap f)
      (uxrBeginOutputNackBufferIt (uxrProcessAcknack stream bitmap f))
    simp only [outputStep, readSubmessageAcknack, hnack]
    exact ⟨a, s, hwindow.congr rfl rfl rfl rfl rfl, hempty⟩
  | heartbeat timestamp =>
    obtain ⟨a, s, hwindow, hempty⟩ := h
    obtain ⟨t, n, heq⟩ := heartbeat_stream stream timestamp
    simp only [outputStep, heq]
    exact ⟨a, s, hwindow.congr rfl rfl rfl rfl rfl, hempty⟩
  | write length ub => exact he.elim
  | serialize seqNum o bytes => exact he.elim
  | reset => exact he.elim

end Events

namespace Drains

variable {info : UxrSessionInfo} {streamIdRaw : UInt8} {stream stream' : OutputReliableStream}
  (h : Drains info streamIdRaw stream stream')
include h

/-- The layout stays the same. -/
lemma sameLayout : SameLayout stream stream' := by
  induction h with
  | refl => exact .refl _
  | step _ he _ ih => exact ih.trans (drains_step_sameLayout _ he)

/-- The window stays in order. -/
lemma invariant (hinv : OutputInvariant info stream) : OutputInvariant info stream' := by
  induction h with
  | refl => exact hinv
  | step _ _ hadmitted ih => exact ih.step hadmitted

/-- The position being filled stays where it is, if nothing is there. -/
lemma writtenUpTo (hoffset : stream.offset = uxrSessionHeaderOffset info) {w : ℕ}
    (hw : WrittenUpTo stream w) : WrittenUpTo stream' w := by
  induction h with
  | refl => exact hw
  | step hdrains he hadmitted ih =>
    exact ih.step (hdrains.sameLayout.offset_eq.trans hoffset) he hadmitted

end Drains

/-! ## Free slots -/

/-- The positions of a window take all slots. -/
lemma SlotsDistinct.exists_slotOf {history a : ℕ} (h : SlotsDistinct history a)
    (hpos : 0 < history) {i : ℕ} (hi : i < history) :
    ∃ X, a < X ∧ X ≤ a + history ∧ slotOf history X = i := by
  have hinj : Set.InjOn (fun k => slotOf history (a + 1 + k)) (Finset.range history) := by
    intro j hj k hk heq
    rw [Finset.coe_range, Set.mem_Iio] at hj hk
    have := h _ _ (by omega) (by omega) (by omega) (by omega) heq
    omega
  have hsub : (Finset.range history).image (fun k => slotOf history (a + 1 + k)) ⊆
      Finset.range history := by
    intro j hj
    obtain ⟨k, -, rfl⟩ := Finset.mem_image.mp hj
    exact Finset.mem_range.mpr (slotOf_lt hpos _)
  have hall := Finset.eq_of_subset_of_card_le hsub (by rw [Finset.card_image_of_injOn hinj])
  obtain ⟨k, hk, heq⟩ := Finset.mem_image.mp (hall ▸ Finset.mem_range.mpr hi)
  rw [Finset.mem_range] at hk
  exact ⟨a + 1 + k, by omega, by omega, heq⟩

/-- When the positions of a window have slots of their own, the history divides a turn, or the
window does not pass the last number of one. -/
lemma SlotsDistinct.turn {history a : ℕ} (h : SlotsDistinct history a) (hpos : 0 < history)
    (hlt : history < 65536) : history ∣ 65536 ∨ (a + 1) % 65536 + history ≤ 65536 := by
  by_contra hnot
  obtain ⟨hdvd, hturn⟩ := not_or.mp hnot
  -- the window passes the number 65535 at the position `P`
  obtain ⟨P, hP⟩ : ∃ P, P = a + 65536 - (a + 1) % 65536 := ⟨_, rfl⟩
  have hafter : ∀ X, P < X → X ≤ a + history → slotOf history X = X - (P + 1) := by
    intro X hX hX'
    unfold slotOf
    rw [seqOf_val, show X % 65536 = X - (P + 1) by omega]
    exact Nat.mod_eq_of_lt (by omega)
  have hslot : slotOf history P = 65535 % history := by
    unfold slotOf
    rw [seqOf_val, show P % 65536 = 65535 by omega]
  have hmod : 65536 % history = 65535 % history + 1 := by
    have hne : 65536 % history ≠ 0 := fun heq => hdvd (Nat.dvd_of_mod_eq_zero heq)
    have hle := Nat.mod_lt 65535 hpos
    rw [show 65536 = 65535 + 1 from rfl, Nat.add_mod, Nat.add_mod_mod] at hne ⊢
    rcases Nat.lt_or_eq_of_le (Nat.succ_le_of_lt hle) with hlt' | heq
    · exact Nat.mod_eq_of_lt hlt'
    · rw [Nat.succ_eq_add_one] at heq
      rw [heq, Nat.mod_self] at hne
      exact absurd rfl hne
  have hle := Nat.mod_lt 65536 hpos
  obtain ⟨X, hX, hX', heq⟩ := h.exists_slotOf hpos hle
  rcases Nat.lt_or_ge P X with hPX | hXP
  · -- the slot behind that of `P` is taken behind `P`, and the one before it is that of `P`
    rw [hafter X hPX hX'] at heq
    have hsame := h P (X - 1) (by omega) (by omega) (by omega) (by omega)
      (by rw [hslot, hafter (X - 1) (by omega) (by omega)]; omega)
    omega
  · -- a number before has that slot, less than the history away
    unfold slotOf at heq
    rw [seqOf_val, show X % 65536 = 65535 - (P - X) by omega] at heq
    have hnear := (SerialNumber.mod_eq_mod_iff (M := history) (by omega) (by omega)).mp heq
    omega
/-- A free slot is the slot of an empty position of the window. -/
lemma OutputWindow.exists_empty {stream : OutputReliableStream} {a s w : ℕ}
    (h : OutputWindow stream a s w) (hfree : getAvailableFreeSlots stream ≠ 0) :
    ∃ X, w ≤ X ∧ X ≤ a + stream.base.history ∧
      uxrGetReliableBufferSize stream.base (seqOf X) = stream.offset := by
  unfold getAvailableFreeSlots at hfree
  rw [← Nat.pos_iff_ne_zero, List.countP_pos_iff] at hfree
  obtain ⟨i, hi, hsize⟩ := hfree
  obtain ⟨X, hX, hX', rfl⟩ :=
    h.distinct.exists_slotOf stream.base.history_pos (List.mem_range.mp hi)
  have hsize' : uxrGetReliableBufferSize stream.base (seqOf X) = stream.offset := by
    rw [← of_decide_eq_true hsize]
    exact uxrGetReliableBufferSize_congr (Nat.mod_mod _ _).symm
  refine ⟨X, ?_, hX', hsize'⟩
  by_contra hlt
  have := (h.used X hX (by omega)).1
  omega

/-- An empty position of the window is the slot of a free one. -/
lemma getAvailableFreeSlots_ne_zero {stream : OutputReliableStream} (X : ℕ)
    (h : uxrGetReliableBufferSize stream.base (seqOf X) = stream.offset) :
    getAvailableFreeSlots stream ≠ 0 := by
  unfold getAvailableFreeSlots
  rw [← Nat.pos_iff_ne_zero, List.countP_pos_iff]
  refine ⟨slotOf stream.base.history X, List.mem_range.mpr (slotOf_lt stream.base.history_pos X),
    ?_⟩
  refine decide_eq_true (Eq.trans ?_ h)
  exact uxrGetReliableBufferSize_congr (Nat.mod_mod _ _)

/-- The position behind one that is in use becomes the one being filled. -/
lemma OutputWindow.advance {stream : OutputReliableStream} {a s w : ℕ}
    (h : OutputWindow stream a s w) (hw : w ≤ a + stream.base.history)
    (hused : stream.offset < uxrGetReliableBufferSize stream.base (seqOf w)) :
    OutputWindow (stream.writtenTo stream.base (seqOf (w + 1))) a s (w + 1) ∧
      (w + 1 ≤ a + stream.base.history →
        uxrGetReliableBufferSize stream.base (seqOf (w + 1)) = stream.offset) := by
  have hsent := h.sent_lt
  have hnext := fun hw' : w + 1 ≤ a + stream.base.history =>
    h.size_of_gt (Nat.lt_succ_self w) hw'
  refine ⟨{ h with lastWritten_eq := rfl, sent_lt := by omega, written_le := ?_, used := ?_,
                   current := ?_, empty := ?_ }, hnext⟩
  · exact Nat.succ_le_succ hw
  · intro X hX hXw
    rcases Nat.lt_succ_iff_lt_or_eq.mp hXw with hlt | rfl
    · exact h.used X hX hlt
    · exact ⟨hused, (h.current hw).2⟩
  · intro hw'
    have hroom := h.room
    simp only [OutputReliableStream.writtenTo] at hw' ⊢
    rw [hnext hw']
    omega
  · exact fun j hj => h.empty j fun X hX hXw => hj X hX (by omega)

/-! ## Waiting for all acknowledgements -/

/-- A flush callback that sends what can be sent and waits until all of it is acknowledged. -/
def flushAll (info : UxrSessionInfo) (streamIdRaw : UInt8) (stream : OutputReliableStream) :
    OutputReliableStream × Bool :=
  let sent := (uxrFlashOutputStreams info streamIdRaw stream).1
  ((readSubmessageAcknack sent 0 (uxrSeqNumAdd sent.lastSent 1)).1, true)

section FlushAll

variable {info : UxrSessionInfo} {streamIdRaw : UInt8} {stream : OutputReliableStream}

/-- Where no slot is free there is something that was sent and not acknowledged, after a
flash. -/
lemma OutputWindow.flash_full {a s w : ℕ} (h : OutputWindow stream a s w)
    (hoffset : stream.offset = uxrSessionHeaderOffset info)
    (hhistory : stream.base.history < seqNumMidsize) (hfull : getAvailableFreeSlots stream = 0)
    (streamIdRaw : UInt8) :
    ∃ s' w', a < s' ∧
      OutputWindow (uxrFlashOutputStreams info streamIdRaw stream).1 a s' w' := by
  rcases Nat.lt_or_eq_of_le h.acknown_le with hlt | rfl
  · obtain ⟨-, s', w', hle, hwindow⟩ := h.flashLoop info streamIdRaw hoffset 65536
    exact ⟨s', w', by omega, hwindow⟩
  · -- nothing waits for its acknowledgement, so the first message is sent
    have hused : stream.offset < uxrGetReliableBufferSize stream.base (seqOf (a + 1)) := by
      refine Nat.lt_of_le_of_ne (h.bufferSize_bounds _).1 fun hempty => ?_
      exact getAvailableFreeSlots_ne_zero (a + 1) hempty.symm hfull
    have hsend : (uxrPrepareNextReliableBufferToSend stream).dataToSend = true := by
      have hpos := stream.base.history_pos
      have hsent := h.sent_lt
      have hwritten := h.written_le
      unfold seqNumMidsize at hhistory
      unfold uxrPrepareNextReliableBufferToSend
      refine decide_eq_true ⟨?_, ?_, ?_⟩
      · rw [h.lastSent_eq, h.lastWritten_eq, uxrSeqNumAdd_seqOf]
        exact (uxrSeqNumCmp_seqOf_nonpos (by omega) (by omega)).mpr (by omega)
      · rw [h.lastSent_eq, uxrSeqNumAdd_seqOf]
        exact hused
      · have hsub : (uxrSeqNumSub (seqOf (a + 0)) (seqOf a)).val = 0 :=
          uxrSeqNumSub_seqOf_val (by decide)
        rw [h.lastSent_eq, h.lastAcknown_eq]
        exact hsub.trans_ne hpos.ne
    obtain ⟨hwindow, hlength, heq⟩ := h.prepareNext_eq hsend
    have hone := (h.prepareNext hwindow hlength).stamp info streamIdRaw hoffset (seqOf (a + 1))
      (seqOf (a + 1))
    obtain ⟨-, s', w', hle, hwindow'⟩ := hone.flashLoop info streamIdRaw hoffset 65535
    refine ⟨s', w', hle, ?_⟩
    unfold uxrFlashOutputStreams
    rw [XrceDds.flashLoop, if_pos hsend, heq]
    exact hwindow'

/-- Such a callback frees a slot whenever it is asked, if the history divides a turn and is
less than half of it. -/
theorem flushAll_frees (hinv : OutputInvariant info stream)
    (hdvd : stream.base.history ∣ 65536) (hhistory : stream.base.history < seqNumMidsize)
    (hfull : getAvailableFreeSlots stream = 0) (streamIdRaw : UInt8) :
    getAvailableFreeSlots (flushAll info streamIdRaw stream).1 ≠ 0 ∧
      Drains info streamIdRaw stream (flushAll info streamIdRaw stream).1 := by
  obtain ⟨hoffset, a, s, w, hwindow⟩ := hinv
  obtain ⟨s', w', hlt, hsent⟩ := hwindow.flash_full hoffset hhistory hfull streamIdRaw
  have hlayout : SameLayout stream (uxrFlashOutputStreams info streamIdRaw stream).1 :=
    flashLoop_sameLayout _ stream
  have hflash : Drains info streamIdRaw stream (uxrFlashOutputStreams info streamIdRaw stream).1 :=
    .step (e := .flash) .refl trivial trivial
  unfold flushAll
  generalize (uxrFlashOutputStreams info streamIdRaw stream).1 = sent at hsent hlayout hflash ⊢
  have hnumber : uxrSeqNumSub (uxrSeqNumAdd sent.lastSent 1) 1 = sent.lastSent := by
    rw [hsent.lastSent_eq, uxrSeqNumAdd_seqOf, uxrSeqNumSub_one]
  constructor
  · -- the first slot of the window is cleaned
    have hsteps : seqSteps sent.lastAcknown sent.lastSent = s' - a := by
      have hin := hsent.written_le
      have hbehind := hsent.sent_lt
      have hturn := sent.base.history_lt
      have := seqSteps_seqOf a (show s' - a < 65536 by omega)
      rwa [Nat.add_sub_cancel' hlt.le, ← hsent.lastAcknown_eq, ← hsent.lastSent_eq] at this
    have hsize := OutputWindow.cleanBuffers_bufferSize (s' - a) sent (j := seqOf (a + 1))
      hsent.lastAcknown_eq hsent.offset_lt (.inl ⟨0, by omega, rfl⟩)
    obtain ⟨sendLost, hnack⟩ := nackLoop_stream 65536
      (uxrProcessAcknack sent 0 (uxrSeqNumAdd sent.lastSent 1))
      (uxrBeginOutputNackBufferIt (uxrProcessAcknack sent 0 (uxrSeqNumAdd sent.lastSent 1)))
    unfold readSubmessageAcknack
    dsimp only
    rw [hnack, uxrProcessAcknack_eq, hnumber, hsteps]
    refine getAvailableFreeSlots_ne_zero (a + 1) (hsize.trans ?_)
    exact (OutputWindow.cleanBuffers_frame (s' - a) sent).2.2.1.symm
  · refine hflash.step (e := .acknack 0 (uxrSeqNumAdd sent.lastSent 1)) trivial ⟨?_, ?_⟩
    · unfold AcknackOk
      rw [hnumber]
    · exact slotsDistinct_of_dvd (hlayout.history_eq ▸ hdvd) _

end FlushAll

end XrceDds
