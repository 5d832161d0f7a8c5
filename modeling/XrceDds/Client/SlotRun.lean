import XrceDds.Client.WrittenSlots

/-!
# Slots that are written, sent and read

Sending, acknowledging and sending again keep what the slots of the window hold, so along runs
of aligned events every message that was sent reads as what was written (`slotRun_parses`).
-/

namespace XrceDds

open ByteMemory Transition

/-! ## Sending -/

namespace SlotInvariant

variable {info : UxrSessionInfo} {st : SlotState} {a s w : ℕ}

/-- The message of a slot of the window reads as what was written into it. -/
lemma message (h : SlotInvariant info st a s w) {base : ReliableStream} {X : ℕ} (hX : a < X)
    (hX' : X ≤ a + st.stream.base.history)
    (hlength : st.stream.offset ≤ uxrGetReliableBufferSize st.stream.base (seqOf X))
    (hbody : slotBytes base (seqOf X) st.stream.offset
      (uxrGetReliableBufferSize st.stream.base (seqOf X) - st.stream.offset) =
        slotBody st.stream X) :
    ReadsAsWritten (slotBytes base (seqOf X) 0
      (uxrGetReliableBufferSize st.stream.base (seqOf X))) st.stream.offset
      (st.written (seqOf X)) := by
  have hreads := (h.slots X hX hX').readsAsWritten (slotBytes base (seqOf X) 0 st.stream.offset)
    (by rw [length_slotBytes]; exact h.offset_aligned)
  have hsplit := slotBytes_add base (seqOf X) 0 st.stream.offset
    (uxrGetReliableBufferSize st.stream.base (seqOf X) - st.stream.offset)
  rw [Nat.zero_add, Nat.add_sub_cancel' hlength, hbody] at hsplit
  rwa [length_slotBytes, ← hsplit] at hreads

/-- What is sent is a session header and what its slot holds. -/
theorem send (h : SlotInvariant info st a s w) (streamIdRaw : UInt8) :
    ∃ s' w', SlotInvariant info (slotStep info streamIdRaw st .send) a s' w' := by
  unfold slotStep sendNextBuffer
  dsimp only
  by_cases hsend : (uxrPrepareNextReliableBufferToSend st.stream).dataToSend
  · obtain ⟨hwindow, hlength, heq⟩ := OutputWindow.prepareNext_of_positions h.window.lastAcknown_eq
      h.window.lastSent_eq h.window.lastWritten_eq h.window.acknown_le h.window.sent_lt
      h.window.written_le hsend
    have hacknown := h.window.acknown_le
    have hfits := (h.window.size_bounds hlength.ne').2
    have hnext := h.window.sentNext hwindow hlength
    rw [heq]
    simp only [if_true]
    have hheader : uxrGetReliableBuffer st.stream.base (seqOf (s + 1)) +
        (messageHeader info streamIdRaw (seqOf (s + 1))).length ≤
          uxrGetReliableBuffer st.stream.base (seqOf (s + 1)) +
            uxrGetReliableBufferCapacity st.stream.base := by
      rw [length_messageHeader, ← h.offset_eq]
      omega
    obtain ⟨base, hbase⟩ : ∃ base, base = uxrStampSessionHeader info streamIdRaw (seqOf (s + 1))
        (OutputWindow.sentNext st.stream s w).base
        (uxrGetReliableBuffer st.stream.base (seqOf (s + 1))) := ⟨_, rfl⟩
    rw [← hbase]
    have hhistory : base.history = st.stream.base.history := by
      rw [hbase]
      rfl
    have hsizes : ∀ j, uxrGetReliableBufferSize base j =
        uxrGetReliableBufferSize st.stream.base j := by
      intro j
      rw [hbase]
      exact uxrGetReliableBufferSize_store st.stream.base le_rfl hheader
    have hbody : ∀ X, a < X → X ≤ a + st.stream.base.history →
        slotBytes base (seqOf X) st.stream.offset
          (uxrGetReliableBufferSize st.stream.base (seqOf X) - st.stream.offset) =
            slotBody st.stream X := by
      intro X hX hX'
      rw [hbase]
      rcases eq_or_ne X (s + 1) with rfl | hne
      · refine slotBytes_store_of_disjoint st.stream.base (p := 0) (.inr ?_)
        rw [length_messageHeader, h.offset_eq, Nat.zero_add]
      · exact slotBytes_store_of_ne st.stream.base (i := seqOf (s + 1)) le_rfl hheader
          (h.window.slot_ne (by omega) hwindow hX hX' hne.symm) (h.body_le (by omega) X)
    have hwindow' : CounterWindow { OutputWindow.sentNext st.stream s w with base := base } a
        (s + 1) (OutputWindow.writtenAfterSend s w) := by
      rw [hbase]
      exact hnext.store (i := seqOf (s + 1)) le_rfl hheader
    refine ⟨s + 1, OutputWindow.writtenAfterSend s w, h.offset_eq, hwindow', ?_, ?_, ?_⟩
    · intro X hX hX'
      dsimp only at hX' ⊢
      rw [hhistory] at hX'
      unfold slotBody
      simp only [OutputWindow.sentNext, hsizes]
      rw [hbody X hX hX']
      exact h.slots X hX hX'
    · intro X hX hX'
      dsimp only at hX
      rw [hhistory] at hX
      exact h.beyond X hX hX'
    · intro p hp
      rcases List.mem_append.mp hp with hp | hp
      · exact h.sent p hp
      · obtain rfl := List.mem_singleton.mp hp
        have hmessage := h.message (by omega) hwindow hlength.le (hbody (s + 1) (by omega) hwindow)
        rw [hbase] at hmessage ⊢
        exact hmessage
  · have hsame : (uxrPrepareNextReliableBufferToSend st.stream).stream = st.stream := by
      unfold uxrPrepareNextReliableBufferToSend at hsend ⊢
      dsimp only at hsend ⊢
      rw [if_neg hsend]
    simp only [hsend, hsame]
    exact ⟨s, w, h⟩

/-! ## Acknowledgements -/

/-- An ACKNACK empties the slots that it acknowledges, and the numbers that come into the window
take these. -/
theorem acknack (h : SlotInvariant info st a s w) {streamIdRaw : UInt8} {bitmap : ℕ}
    {f : UxrSeqNum} (hok : AcknackOk st.stream f)
    (hdistinct : SlotsDistinct st.stream.base.history (uxrSeqNumSub f 1).val) :
    ∃ a', SlotInvariant info (slotStep info streamIdRaw st (.acknack bitmap f)) a' s w := by
  have hhistory := st.stream.base.history_lt
  have hacknown := h.window.acknown_le
  have hsent := h.window.sent_lt
  have hwritten := h.window.written_le
  obtain ⟨d, hd⟩ : ∃ d, d = seqSteps st.stream.lastAcknown (uxrSeqNumSub f 1) := ⟨_, rfl⟩
  have hle : d ≤ s - a := by
    have hs := h.window.steps_eq (X := s) hacknown (by omega)
    rw [← h.window.lastSent_eq] at hs
    unfold AcknackOk at hok
    rwa [hs, ← hd] at hok
  have hlast : seqOf (a + d) = uxrSeqNumSub f 1 := by
    rw [hd]
    exact (h.window.eq_seqOf _).symm
  rw [← hlast, seqOf_val, slotsDistinct_mod] at hdistinct
  have hfreed : ∀ X, a < X → X ≤ a + d →
      recordAcknack st.stream f st.written (seqOf X) = [] := by
    intro X hX hX'
    have hsteps := h.window.steps_eq (X := X) hX.le (by omega)
    unfold recordAcknack
    rw [hsteps, ← hd, if_pos (by omega)]
  have hkept : ∀ X, a + d < X → X ≤ a + 65536 →
      recordAcknack st.stream f st.written (seqOf X) = st.written (seqOf X) := by
    intro X hX hX'
    unfold recordAcknack
    rcases Nat.lt_or_eq_of_le hX' with hlt | rfl
    · have hsteps := h.window.steps_eq (X := X) (by omega) (by omega)
      rw [hsteps, ← hd, if_neg (by omega)]
    · have hsteps := h.window.steps_eq (X := a) le_rfl (by omega)
      rw [Nat.add_comm, seqOf_turn_add, hsteps, Nat.sub_self, if_neg (by omega)]
  have hnew : ∀ X, a + st.stream.base.history < X → X ≤ a + d + 65536 →
      recordAcknack st.stream f st.written (seqOf X) = [] := by
    intro X hX hX'
    rcases Nat.lt_or_ge (a + 65536) X with hgt | hle'
    · obtain ⟨Y, rfl⟩ := Nat.exists_eq_add_of_le (show 65536 ≤ X by omega)
      rw [seqOf_turn_add]
      exact hfreed Y (by omega) (by omega)
    · rw [hkept X (by omega) hle']
      exact h.beyond X hX hle'
  have hclean := h.window.cleanBuffers hle hdistinct
  obtain ⟨-, hhistory', hoffset', -, -⟩ := OutputWindow.cleanBuffers_frame d st.stream
  have honly := OutputWindow.cleanBuffers_onlySlots d st.stream h.window.lastAcknown_eq
  refine ⟨a + d, ?_⟩
  unfold slotStep
  dsimp only
  rw [uxrProcessAcknack_eq, ← hd]
  constructor
  case offset_eq => exact hoffset'.trans h.offset_eq
  case window => exact hclean.congr rfl rfl rfl rfl rfl
  case slots =>
    intro X hX hX'
    dsimp only at hX' ⊢
    rw [acknackTo_base, hhistory'] at hX'
    change SlotParses (slotBody (cleanBuffers d st.stream) X) _
    rcases Nat.lt_or_ge (a + st.stream.base.history) X with hgt | hle'
    · have hempty := h.window.cleanBuffers_opened hdistinct hgt hX'
      rw [hnew X hgt (by omega)]
      unfold slotBody
      rw [hoffset', slotBytes_empty _ _ hempty]
      exact ⟨[], parses_nil, .nil⟩
    · have hnot : ¬ OutputWindow.CleanedSlots st.stream.base.history a d
          ((seqOf X).val % st.stream.base.history) := by
        rintro ⟨k, hk, heq⟩
        exact h.window.slot_ne (by omega) hle' (by omega) (by omega) (by omega) heq
      rw [hkept X hX (by omega)]
      have hbody : slotBody (cleanBuffers d st.stream) X = slotBody st.stream X := by
        unfold slotBody
        rw [hoffset', honly.bufferSize_eq _ hnot]
        rcases h.window.sound (seqOf X) with heq | ⟨hlo, hhi⟩
        · rw [heq, Nat.sub_self]
          rfl
        · exact honly.slotBytes_eq _ hnot _ _ (by omega)
      rw [hbody]
      exact h.slots X (by omega) hle'
  case beyond =>
    intro X hX hX'
    dsimp only at hX ⊢
    rw [acknackTo_base, hhistory'] at hX
    exact hnew X (by omega) hX'
  case sent =>
    have hoffset : (acknackTo st.stream bitmap d).offset = st.stream.offset := hoffset'
    dsimp only
    rw [hoffset]
    exact h.sent

/-- Whatever the search for lost messages does to the stream, its slots stay. -/
lemma withSendLost (h : SlotInvariant info st a s w) (sendLost : Bool) :
    SlotInvariant info { st with stream := { st.stream with sendLost := sendLost } } a s w :=
  ⟨h.offset_eq, h.window.congr rfl rfl rfl rfl rfl, h.slots, h.beyond, h.sent⟩

/-- What is sent again is what its slot holds. -/
theorem nack (h : SlotInvariant info st a s w) {streamIdRaw : UInt8} {seqNumIt : UxrSeqNum}
    (hit : seqSteps st.stream.lastAcknown seqNumIt ≤
      seqSteps st.stream.lastAcknown st.stream.lastSent) :
    SlotInvariant info (slotStep info streamIdRaw st (.nack seqNumIt)) a s w := by
  have hacknown := h.window.acknown_le
  have hsent := h.window.sent_lt
  have hwritten := h.window.written_le
  have hhistory := st.stream.base.history_lt
  have hs := h.window.steps_eq (X := s) hacknown (by omega)
  rw [← h.window.lastSent_eq] at hs
  unfold slotStep uxrNextReliableNackBufferToSend
  by_cases hlost : st.stream.sendLost = true
  · simp only [hlost, if_true]
    cases hsearch : nackSearch st.stream 65536 seqNumIt with
    | none => exact h.withSendLost false
    | some seqNum =>
      rw [h.window.eq_seqOf seqNumIt] at hsearch
      obtain ⟨X, hX, hX', rfl⟩ := nackSearch_bounds h.window.lastSent_eq 65536 (by omega) hsearch
      refine ⟨h.offset_eq, h.window, h.slots, h.beyond, fun p hp => ?_⟩
      rcases List.mem_append.mp hp with hp | hp
      · exact h.sent p hp
      · obtain rfl := List.mem_singleton.mp hp
        exact h.message (by omega) (by omega) (h.window.offset_le _) rfl
  · simp only [hlost]
    exact h

end SlotInvariant

/-! ## Every run -/

section Run

variable {info : UxrSessionInfo} {streamIdRaw : UInt8} {st : SlotState}

/-- An aligned event keeps what the slots hold readable. -/
theorem SlotInvariant.step {a s w : ℕ} (h : SlotInvariant info st a s w) {e : SlotEvent}
    (hadmitted : SlotAdmitted st e) (haligned : SlotAligned st e) :
    ∃ a' s' w', SlotInvariant info (slotStep info streamIdRaw st e) a' s' w' := by
  cases e with
  | write payload ub submessageId mode =>
    unfold slotStep
    dsimp only
    rcases hr : writeSubmessage st.stream payload ub submessageId mode with _ | r
    · exact ⟨a, s, w, h⟩
    dsimp only
    by_cases havailable : r.availableToWrite
    · have haligned := haligned ⟨r, hr, havailable⟩
      simp only [havailable, if_true]
      by_cases htakes : TakesFragments st.stream (submessageSize payload.length)
      · obtain ⟨r', hr', -, w', hw'⟩ := h.writeFragments ub submessageId mode hadmitted.1
          htakes (hadmitted.2 htakes) haligned
        obtain rfl : r = r' := Option.some.inj (hr.symm.trans hr')
        exact ⟨a, s, w', hw'⟩
      · obtain ⟨r', hr', rfl | ⟨-, w', hw'⟩⟩ := h.writePlain ub submessageId mode hadmitted.1
          htakes haligned
        · obtain rfl := Option.some.inj (hr.symm.trans hr')
          cases havailable
        · obtain rfl : r = r' := Option.some.inj (hr.symm.trans hr')
          exact ⟨a, s, w', hw'⟩
    · simp only [havailable, writeSubmessage_refused hr (Bool.eq_false_iff.mpr havailable)]
      exact ⟨a, s, w, h⟩
  | send => exact ⟨a, h.send streamIdRaw⟩
  | acknack bitmap f =>
    obtain ⟨a', h'⟩ := h.acknack hadmitted haligned
    exact ⟨a', s, w, h'⟩
  | nack seqNumIt => exact ⟨a, s, w, h.nack hadmitted⟩

/-- Along every run of aligned events the slots hold what was written. -/
theorem SlotRun.invariant (h : SlotRun info streamIdRaw st) :
    ∃ a s w, SlotInvariant info st a s w := by
  refine Reaches.invariant (I := fun st => ∃ a s w, SlotInvariant info st a s w) ?_ ?_ h
  · exact fun st hst => ⟨_, _, _, .start hst⟩
  · rintro st e ⟨a, s, w, hinv⟩ ⟨hadmitted, haligned⟩
    exact hinv.step hadmitted haligned

/-- Along every run of aligned events, every message that was sent reads as exactly the
submessages and fragments that had been written into its slot, and ends with the last of them. -/
theorem slotRun_parses (h : SlotRun info streamIdRaw st)
    {p : List WrittenSubmessage × List UInt8} (hp : p ∈ st.sent) :
    ReadsAsWritten p.2 st.stream.offset p.1 := by
  obtain ⟨a, s, w, hinv⟩ := h.invariant
  exact hinv.sent p hp

end Run

instance (stream : OutputReliableStream) (payloadSize : ℕ) :
    Decidable (WriteAligned stream payloadSize) := by
  unfold WriteAligned; infer_instance

/-- A client that has just opened a stream of two slots of 22 bytes. -/
def freshSlots : SlotState where
  stream := uxrInitOutputReliableStream (twoSlots 22 twentyTwo_lt)
    (uxrSessionHeaderOffset keylessSession)
  written := fun _ => []
  sent := []

/-- The client writes sixteen bytes, which need both slots, and then a second payload behind the
last fragment, sends both slots, and is told that the second did not arrive. -/
def sentSlots (payload : List UInt8) : SlotState :=
  [.write (List.replicate 16 0) (ucdrInitBuffer 0 0) submessageIdWriteData 0,
    .write payload (ucdrInitBuffer 0 0) submessageIdWriteData 0, .send, .send, .acknack 1 1,
    .nack 0].foldl (slotStep keylessSession 128) freshSlots

/-- A second payload of one byte has the padding that its header needs. -/
theorem slotRun_parses_sentSlots :
    ∃ p ∈ (sentSlots [5]).sent, p.1.length = 2 ∧
      ReadsAsWritten p.2 (sentSlots [5]).stream.offset p.1 := by
  have hstart : SlotRun keylessSession 128 freshSlots := .start ⟨⟨_, rfl⟩, rfl, rfl⟩
  have hrun : SlotRun keylessSession 128 (sentSlots [5]) :=
    hstart.foldl _ ⟨⟨⟨by decide, fun _ => by decide⟩, fun _ => by decide⟩,
      ⟨⟨by decide, fun h => absurd h (by decide)⟩, fun _ => by decide⟩,
      ⟨trivial, trivial⟩, ⟨trivial, trivial⟩,
      ⟨show AcknackOk _ _ by decide, slotsDistinct_of_dvd (by decide) _⟩,
      ⟨show seqSteps _ _ ≤ seqSteps _ _ by decide, trivial⟩, trivial⟩
  exact ⟨(sentSlots [5]).sent.get ⟨1, by decide⟩, List.get_mem _ _, by decide,
    slotRun_parses hrun (List.get_mem _ _)⟩

/-- A second payload of four bytes has none: its header is moved by two bytes, its last two
bytes do not fit any more, and the slot does not read as a message. -/
theorem slotRun_parses_fails :
    Reaches (SlotStart keylessSession) (slotStep keylessSession 128) SlotAdmitted
        (sentSlots [1, 2, 3, 4]) ∧
      ∃ p ∈ (sentSlots [1, 2, 3, 4]).sent, p.1.length = 2 ∧
        ¬ ReadsAsWritten p.2 (sentSlots [1, 2, 3, 4]).stream.offset p.1 := by
  have hstart : Reaches (SlotStart keylessSession) (slotStep keylessSession 128) SlotAdmitted
      freshSlots := .start ⟨⟨_, rfl⟩, rfl, rfl⟩
  refine ⟨hstart.foldl _ ⟨⟨by decide, fun _ => by decide⟩,
    ⟨by decide, fun h => absurd h (by decide)⟩, trivial, trivial,
    show AcknackOk _ _ by decide, show seqSteps _ _ ≤ seqSteps _ _ by decide, trivial⟩,
    (sentSlots [1, 2, 3, 4]).sent.get ⟨1, by decide⟩, List.get_mem _ _, by decide, ?_⟩
  rintro ⟨submessages, hwalk, -⟩
  have hnone : walkMessage ((sentSlots [1, 2, 3, 4]).sent.get ⟨1, by decide⟩).2
      (sentSlots [1, 2, 3, 4]).stream.offset = none := by decide
  rw [hnone] at hwalk
  cases hwalk

end XrceDds
