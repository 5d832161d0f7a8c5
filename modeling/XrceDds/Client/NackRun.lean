import XrceDds.Client.OutputSafety
import XrceDds.Client.Sender
import XrceDds.Lib.Transition

/-!
# What an ACKNACK has sent again

The loop of `read_submessage_acknack` asks for one slot after another, from the last acknowledged
number on, and sends what it holds.  In a stream of plain writes every slot up to the last one sent
is in use, so that each turn moves on by one number, and the loop ends behind `last_sent`
(`nackLoop_eq`).  What the slots hold is what was sent when their messages went out first
(`Sender.InOrder`).
-/

namespace XrceDds

/-! ## The search ends -/

/-- The search does not go past what was sent. -/
lemma nackSearch_of_past (stream : OutputReliableStream) {n m j X : ℕ} (hn : j < n) (hm : j < m)
    (hpast : ¬ 0 ≥ uxrSeqNumCmp (seqOf (X + 1 + j)) stream.lastSent) :
    nackSearch stream n (seqOf X) = nackSearch stream m (seqOf X) := by
  induction j generalizing n m X with
  | zero =>
    obtain ⟨n, rfl⟩ := Nat.exists_eq_add_of_lt hn
    obtain ⟨m, rfl⟩ := Nat.exists_eq_add_of_lt hm
    simp only [nackSearch, uxrSeqNumAdd_seqOf]
    rw [if_neg hpast, if_neg hpast]
  | succ j ih =>
    obtain ⟨n, rfl⟩ := Nat.exists_eq_add_of_lt (Nat.zero_lt_of_lt hn)
    obtain ⟨m, rfl⟩ := Nat.exists_eq_add_of_lt (Nat.zero_lt_of_lt hm)
    simp only [nackSearch, uxrSeqNumAdd_seqOf]
    rw [ih (n := 0 + n) (m := 0 + m) (by omega) (by omega)
      (by rwa [Nat.add_assoc (X + 1), Nat.add_comm 1])]

/-- A turn of steps is enough for the search, from anywhere. -/
theorem nackSearch_fuel (stream : OutputReliableStream) {fuel : ℕ} (hfuel : 65536 ≤ fuel)
    (seqNumIt : UxrSeqNum) :
    nackSearch stream fuel seqNumIt = nackSearch stream 65536 seqNumIt := by
  rw [← seqOf_self seqNumIt]
  have hsteps := seqSteps_lt (seqOf seqNumIt.val) stream.lastSent
  have hsent := seqOf_add_seqSteps seqNumIt.val stream.lastSent
  refine nackSearch_of_past stream (j := seqSteps (seqOf seqNumIt.val) stream.lastSent)
    (by omega) hsteps fun hcmp => ?_
  rw [← hsent, seqSteps_seqOf _ hsteps] at hcmp
  have hle := (uxrSeqNumCmp_seqOf_nonpos (by omega) (by omega)).mp hcmp
  omega

namespace PlainWindow

variable {stream : OutputReliableStream} {a s w : ℕ}

/-- The search finds the next number that was sent, with its first step. -/
lemma nackSearch_eq (h : PlainWindow stream a s w) {X : ℕ} (hX : a ≤ X) (hXs : X ≤ s) (n : ℕ) :
    nackSearch stream (n + 1) (seqOf X) = if X < s then some (seqOf (X + 1)) else none := by
  have hhistory := h.history_le
  have hsent := h.sent_le
  have hwritten := h.sent_lt
  have hcmp : 0 ≥ uxrSeqNumCmp (seqOf (X + 1)) stream.lastSent ↔ X < s := by
    rw [h.lastSent_eq, uxrSeqNumCmp_seqOf_nonpos (by omega) (by omega)]
    rfl
  simp only [nackSearch, uxrSeqNumAdd_seqOf]
  by_cases hlt : X < s
  · rw [if_pos (hcmp.mpr hlt), if_pos hlt, if_pos (h.used (X + 1) (by omega) (by omega))]
  · rw [if_neg (mt hcmp.mp hlt), if_neg hlt]

/-- The loop over the lost messages sends every number behind the iterator that was sent, and
ends. -/
theorem nackLoop_eq (h : PlainWindow stream a s w) (hlost : stream.sendLost = true) {n X : ℕ}
    (hX : a ≤ X) (hXs : X ≤ s) (hn : s - X < n) :
    nackLoop n stream (seqOf X) =
      ({ stream with sendLost := false },
        (List.range' (X + 1) (s - X)).map fun Y => slotBytes stream.base (seqOf Y) 0
          (uxrGetReliableBufferSize stream.base (seqOf Y))) := by
  induction n generalizing X with
  | zero => omega
  | succ n ih =>
    have hsearch := h.nackSearch_eq hX hXs 65535
    unfold nackLoop uxrNextReliableNackBufferToSend
    rw [if_pos hlost, hsearch]
    rcases Nat.eq_or_lt_of_le hXs with rfl | hlt
    · rw [if_neg (Nat.lt_irrefl _), Nat.sub_self]
      rfl
    · rw [if_pos hlt]
      dsimp only
      rw [ih (by omega) (by omega) (by omega)]
      obtain ⟨d, rfl⟩ := Nat.exists_eq_add_of_lt hlt
      rw [show X + d + 1 - X = d + 1 by omega, show X + d + 1 - (X + 1) = d by omega,
        List.range'_succ, List.map_cons]

end PlainWindow

/-- Without a message that is lost nothing is sent again. -/
lemma nackLoop_of_not_lost {stream : OutputReliableStream} (hlost : stream.sendLost = false)
    (n : ℕ) (seqNumIt : UxrSeqNum) : nackLoop n stream seqNumIt = (stream, []) := by
  cases n with
  | zero => rfl
  | succ n =>
    unfold nackLoop uxrNextReliableNackBufferToSend
    rw [hlost]
    rfl

/-! ## Runs -/

/-- A stream of plain writes, and how many of its messages are acknowledged. -/
structure NackState where
  sender : Sender
  acknowledged : ℕ

/-- What happens to such a stream. -/
inductive NackEvent where
  | write (ub : UcdrBuffer) (submessageId mode : UInt8) (payload : List UInt8)
  | flash
  | acknack (bitmap : ℕ) (firstUnackedSeqNum : UxrSeqNum)
  | heartbeat (timestamp : ℤ)

namespace NackState

/-- The messages that are acknowledged by an ACKNACK. -/
def acknowledges (st : NackState) (firstUnackedSeqNum : UxrSeqNum) : ℕ :=
  st.acknowledged +
    seqSteps st.sender.stream.lastAcknown (uxrSeqNumSub firstUnackedSeqNum 1)

/-- The stream after an event. -/
def step (info : UxrSessionInfo) (streamIdRaw : UInt8) (st : NackState) : NackEvent → NackState
  | .write ub submessageId mode payload =>
    { st with sender := st.sender.write ub submessageId mode payload }
  | .flash => { st with sender := st.sender.flash info streamIdRaw }
  | .acknack bitmap firstUnackedSeqNum =>
    { sender := st.sender.acknack bitmap firstUnackedSeqNum
      acknowledged := st.acknowledges firstUnackedSeqNum }
  | .heartbeat timestamp => { st with sender := st.sender.heartbeat timestamp }

/-- The events that are admitted: writes that fit one slot, and ACKNACKs of a number from
`lastAcknown` to `lastSent`. -/
def Admitted (st : NackState) : NackEvent → Prop
  | .write _ _ _ payload => FitsSlot st.sender.stream (submessageSize payload.length)
  | .acknack _ firstUnackedSeqNum => AcknackOk st.sender.stream firstUnackedSeqNum
  | .flash => True
  | .heartbeat _ => True

/-- A stream that was just initialised.  Its history divides a turn, as a power of two does. -/
def Start (info : UxrSessionInfo) (st : NackState) : Prop :=
  ∃ base : ReliableStream, base.history ∣ 65536 ∧
    st = ⟨⟨uxrInitOutputReliableStream base (uxrSessionHeaderOffset info), [], []⟩, 0⟩

/-- A stream agrees with what it accepted and sent. -/
def InOrder (info : UxrSessionInfo) (streamIdRaw : UInt8) (st : NackState) : Prop :=
  ∃ history, st.sender.InOrder info streamIdRaw history st.acknowledged

/-- What an ACKNACK with this bitmap and first number does. -/
structure Retransmits (info : UxrSessionInfo) (streamIdRaw : UInt8) (st : NackState) (bitmap : ℕ)
    (firstUnackedSeqNum : UxrSeqNum) : Prop where
  /-- The search and the loop end within the steps that the model gives them. -/
  searchEnds : ∀ seqNumIt fuel, 65536 ≤ fuel →
    nackSearch (uxrProcessAcknack st.sender.stream bitmap firstUnackedSeqNum) fuel seqNumIt =
      nackSearch (uxrProcessAcknack st.sender.stream bitmap firstUnackedSeqNum) 65536 seqNumIt
  loopEnds : ∀ fuel, 65536 ≤ fuel →
    nackLoop fuel (uxrProcessAcknack st.sender.stream bitmap firstUnackedSeqNum)
        (uxrBeginOutputNackBufferIt
          (uxrProcessAcknack st.sender.stream bitmap firstUnackedSeqNum)) =
      readSubmessageAcknack st.sender.stream bitmap firstUnackedSeqNum
  lastAcknown : (readSubmessageAcknack st.sender.stream bitmap firstUnackedSeqNum).1.lastAcknown =
    seqOf (65535 + st.acknowledges firstUnackedSeqNum)
  lastSent : (readSubmessageAcknack st.sender.stream bitmap firstUnackedSeqNum).1.lastSent =
    seqOf (65535 + st.sender.sent.length)
  le_sent : st.acknowledges firstUnackedSeqNum ≤ st.sender.sent.length
  /-- Each message that was sent has the header of its own number. -/
  numbered : ∀ n m, st.sender.sent[n]? = some m →
    m.take (uxrSessionHeaderOffset info) = messageHeader info streamIdRaw (seqOf (65536 + n))
  sends : (readSubmessageAcknack st.sender.stream bitmap firstUnackedSeqNum).2 =
    if 0 < bitmap then st.sender.sent.drop (st.acknowledges firstUnackedSeqNum) else []
  sendLost : (readSubmessageAcknack st.sender.stream bitmap firstUnackedSeqNum).1.sendLost = false

variable {info : UxrSessionInfo} {streamIdRaw : UInt8} {st : NackState}

/-- What an ACKNACK acknowledges was sent, and its first number is the next one. -/
lemma InOrder.acknowledges (h : st.InOrder info streamIdRaw) {firstUnackedSeqNum : UxrSeqNum}
    (hok : AcknackOk st.sender.stream firstUnackedSeqNum) :
    st.acknowledges firstUnackedSeqNum ≤ st.sender.sent.length ∧
      firstUnackedSeqNum = seqOf (st.acknowledges firstUnackedSeqNum) := by
  obtain ⟨history, hin⟩ := h
  obtain ⟨w, hw, -⟩ := hin.window
  have hle := hw.acknown_le
  have hsent := hw.sent_le
  have hhistory := hw.history_le
  unfold AcknackOk at hok
  unfold NackState.acknowledges
  constructor
  · have hsteps : seqSteps st.sender.stream.lastAcknown st.sender.stream.lastSent =
        st.sender.sent.length - st.acknowledged := by
      rw [hw.lastAcknown_eq, hw.lastSent_eq,
        show 65535 + st.sender.sent.length =
          65535 + st.acknowledged + (st.sender.sent.length - st.acknowledged) by omega]
      exact seqSteps_seqOf _ (by omega)
    omega
  · have hpred := uxrSeqNumSub_one (65535 + firstUnackedSeqNum.val)
    rw [Nat.add_assoc, seqOf_pred_turn, seqOf_self] at hpred
    have hstep := seqOf_add_seqSteps (65535 + st.acknowledged) (uxrSeqNumSub firstUnackedSeqNum 1)
    rw [← hw.lastAcknown_eq] at hstep
    generalize seqSteps st.sender.stream.lastAcknown (uxrSeqNumSub firstUnackedSeqNum 1) = steps
      at hstep ⊢
    have hval := congrArg Fin.val (hstep.trans hpred)
    rw [seqOf_val, seqOf_val] at hval
    refine Fin.ext ?_
    rw [seqOf_val]
    omega

/-- An event keeps the order. -/
lemma InOrder.step (h : st.InOrder info streamIdRaw) {e : NackEvent} (he : st.Admitted e) :
    (st.step info streamIdRaw e).InOrder info streamIdRaw := by
  cases e with
  | write ub submessageId mode payload =>
    obtain ⟨history, hin⟩ := h
    exact ⟨history, hin.write ub submessageId mode he⟩
  | flash =>
    obtain ⟨history, hin⟩ := h
    exact ⟨history, hin.flash⟩
  | acknack bitmap firstUnackedSeqNum =>
    obtain ⟨hle, heq⟩ := h.acknowledges he
    obtain ⟨history, hin⟩ := h
    have hacknack := hin.acknack bitmap (k := st.acknowledges firstUnackedSeqNum)
      (Nat.le_add_right _ _) hle
    rw [← heq] at hacknack
    exact ⟨history, hacknack⟩
  | heartbeat timestamp =>
    obtain ⟨history, hin⟩ := h
    exact ⟨history, hin.heartbeat timestamp⟩

/-- The stream behind an ACKNACK, before anything is sent again. -/
lemma InOrder.processAcknack (h : st.InOrder info streamIdRaw) (bitmap : ℕ)
    {firstUnackedSeqNum : UxrSeqNum} (hok : AcknackOk st.sender.stream firstUnackedSeqNum) :
    ∃ w, PlainWindow (uxrProcessAcknack st.sender.stream bitmap firstUnackedSeqNum)
      (65535 + st.acknowledges firstUnackedSeqNum) (65535 + st.sender.sent.length) w := by
  obtain ⟨hle, heq⟩ := h.acknowledges hok
  obtain ⟨history, hin⟩ := h
  obtain ⟨w, hw, -⟩ := hin.window
  refine ⟨w, ?_⟩
  have hwindow := hw.acknackTo bitmap
    (d := seqSteps st.sender.stream.lastAcknown (uxrSeqNumSub firstUnackedSeqNum 1))
    (by unfold NackState.acknowledges at hle; omega)
  rw [uxrProcessAcknack_eq]
  rwa [Nat.add_assoc] at hwindow

/-- The slots behind what is acknowledged hold what was sent first. -/
lemma InOrder.resent_slots (h : st.InOrder info streamIdRaw) (bitmap : ℕ)
    {firstUnackedSeqNum : UxrSeqNum} (hok : AcknackOk st.sender.stream firstUnackedSeqNum) :
    ((List.range' (65535 + st.acknowledges firstUnackedSeqNum + 1)
        (65535 + st.sender.sent.length - (65535 + st.acknowledges firstUnackedSeqNum))).map
      fun Y => slotBytes (uxrProcessAcknack st.sender.stream bitmap firstUnackedSeqNum).base
        (seqOf Y) 0 (uxrGetReliableBufferSize
          (uxrProcessAcknack st.sender.stream bitmap firstUnackedSeqNum).base (seqOf Y))) =
      st.sender.sent.drop (st.acknowledges firstUnackedSeqNum) := by
  obtain ⟨history, hafter⟩ := h.step (e := .acknack bitmap firstUnackedSeqNum) hok
  have hbase : (st.step info streamIdRaw (.acknack bitmap firstUnackedSeqNum)).sender.stream.base =
      (uxrProcessAcknack st.sender.stream bitmap firstUnackedSeqNum).base := by
    obtain ⟨sendLost, hstream⟩ := nackLoop_stream 65536
      (uxrProcessAcknack st.sender.stream bitmap firstUnackedSeqNum)
      (uxrBeginOutputNackBufferIt (uxrProcessAcknack st.sender.stream bitmap firstUnackedSeqNum))
    have hsame := congrArg OutputReliableStream.base hstream
    exact hsame
  have hheld := hafter.held
  rw [hbase] at hheld
  refine List.ext_getElem ?_ fun i hi hi' => ?_
  · rw [List.length_map, List.length_range', List.length_drop]
    omega
  · have hlt : st.acknowledges firstUnackedSeqNum + i < st.sender.sent.length := by
      rw [List.length_drop] at hi'
      omega
    rw [List.getElem_map, List.getElem_range', List.getElem_drop, Nat.one_mul,
      show 65535 + st.acknowledges firstUnackedSeqNum + 1 + i =
        65536 + (st.acknowledges firstUnackedSeqNum + i) by omega]
    exact (hheld _ _ (Nat.le_add_right _ _) (List.getElem?_eq_getElem hlt)).symm

/-- What the loop does, given enough steps. -/
lemma InOrder.nackLoop (h : st.InOrder info streamIdRaw) (bitmap : ℕ)
    {firstUnackedSeqNum : UxrSeqNum} (hok : AcknackOk st.sender.stream firstUnackedSeqNum)
    {fuel : ℕ} (hfuel : 65536 ≤ fuel) :
    nackLoop fuel (uxrProcessAcknack st.sender.stream bitmap firstUnackedSeqNum)
        (uxrBeginOutputNackBufferIt
          (uxrProcessAcknack st.sender.stream bitmap firstUnackedSeqNum)) =
      ({ uxrProcessAcknack st.sender.stream bitmap firstUnackedSeqNum with sendLost := false },
        if 0 < bitmap then st.sender.sent.drop (st.acknowledges firstUnackedSeqNum) else []) := by
  obtain ⟨w, hw⟩ := h.processAcknack bitmap hok
  by_cases hbitmap : 0 < bitmap
  · have hlost : (uxrProcessAcknack st.sender.stream bitmap firstUnackedSeqNum).sendLost = true :=
      decide_eq_true hbitmap
    have hreach := hw.sent_le
    have hhistory := hw.history_le
    unfold uxrBeginOutputNackBufferIt
    rw [hw.lastAcknown_eq, hw.nackLoop_eq hlost le_rfl hw.acknown_le (by omega), if_pos hbitmap,
      h.resent_slots bitmap hok]
  · have hlost : (uxrProcessAcknack st.sender.stream bitmap firstUnackedSeqNum).sendLost = false :=
      decide_eq_false hbitmap
    rw [nackLoop_of_not_lost hlost, if_neg hbitmap, ← hlost]

/-- A run of plain writes, sends and ACKNACKs: an ACKNACK with a bit set has exactly the messages
sent again that were sent and are not acknowledged, as they were sent first, and one without has
none. -/
theorem nack_resends
    (h : Transition.Reaches (Start info) (step info streamIdRaw) Admitted st) (bitmap : ℕ)
    {firstUnackedSeqNum : UxrSeqNum} (hok : AcknackOk st.sender.stream firstUnackedSeqNum) :
    Retransmits info streamIdRaw st bitmap firstUnackedSeqNum := by
  have hin : st.InOrder info streamIdRaw := by
    refine Transition.Reaches.invariant ?_ (fun _ _ hbefore he => hbefore.step he) h
    rintro _ ⟨base, hdvd, rfl⟩
    exact ⟨base.history, Sender.InOrder.start base hdvd⟩
  obtain ⟨w, hw⟩ := hin.processAcknack bitmap hok
  have hresult : readSubmessageAcknack st.sender.stream bitmap firstUnackedSeqNum = _ :=
    hin.nackLoop bitmap hok le_rfl
  constructor
  case searchEnds => exact fun seqNumIt fuel hfuel => nackSearch_fuel _ hfuel seqNumIt
  case loopEnds =>
    intro fuel hfuel
    rw [hresult]
    exact hin.nackLoop bitmap hok hfuel
  case lastAcknown =>
    rw [hresult]
    exact hw.lastAcknown_eq
  case lastSent =>
    rw [hresult]
    exact hw.lastSent_eq
  case le_sent => exact (hin.acknowledges hok).1
  case numbered =>
    obtain ⟨history, hsender⟩ := hin
    exact hsender.header
  case sends => rw [hresult]
  case sendLost => rw [hresult]

/-- A stream with two slots, that was sent two messages, and is told that the first one arrived. -/
def secondLost : NackState :=
  [.write (ucdrInitBuffer 0 0) submessageIdWriteData 0 [1, 2, 3, 4], .flash,
    .write (ucdrInitBuffer 0 0) submessageIdWriteData 0 [5, 6, 7, 8], .flash].foldl
    (step keylessSession 128)
    ⟨⟨uxrInitOutputReliableStream (twoSlots 22 twentyTwo_lt)
      (uxrSessionHeaderOffset keylessSession),
      [], []⟩, 0⟩

/-- Its second message is sent again. -/
theorem nack_resends_secondLost : Retransmits keylessSession 128 secondLost 1 1 := by
  have hstart : Transition.Reaches (Start keylessSession) (step keylessSession 128) Admitted
      ⟨⟨uxrInitOutputReliableStream (twoSlots 22 twentyTwo_lt)
        (uxrSessionHeaderOffset keylessSession), [], []⟩, 0⟩ :=
    .start ⟨_, by decide, rfl⟩
  have hrun : Transition.Reaches (Start keylessSession) (step keylessSession 128) Admitted
      secondLost :=
    hstart.foldl _ ⟨show FitsSlot _ _ by decide, trivial, show FitsSlot _ _ by decide, trivial,
      trivial⟩
  exact nack_resends hrun 1 (by decide)

end NackState

end XrceDds
