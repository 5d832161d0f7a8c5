import XrceDds.Client.SlotImage

/-!
# What is written into slots

A client writes submessages with `uxr_prepare_stream_to_write_submessage`, serializes the
payloads that it announced, flashes, and handles ACKNACKs, which free slots and ask for some of
them again.  `written` keeps what went into each slot and `sent` the messages as they left.

Reader and writer align by themselves, and they agree as long as every write is `WriteAligned`:
a submessage that fits behind others needs no more bytes to align than its own padding, and a
fragmented one starts at a multiple of four, with room for half a header at least.  Such writes
keep `SlotInvariant`: every slot of the window parses as what was written into it.
-/

namespace XrceDds

open ByteMemory Transition

/-- What was written as one submessage: what its header announces, and the first of the bytes
behind it. -/
structure WrittenSubmessage where
  id : UInt8
  flags : UInt8
  length : ℕ
  bytes : List UInt8

/-- A submessage is read as it was written. -/
structure ReadsAs (written : WrittenSubmessage) (read : ReadSubmessage) : Prop where
  id_eq : read.id = written.id
  flags_eq : read.flags = written.flags
  length_eq : read.body.length = written.length
  bytes_prefix : written.bytes <+: read.body

/-! ## Runs -/

/-- A stream, what was written into the slot of each number since that slot was last free, and
the messages that were sent, each beside what had been written into its slot. -/
structure SlotState where
  stream : OutputReliableStream
  written : UxrSeqNum → List WrittenSubmessage
  sent : List (List WrittenSubmessage × List UInt8)

/-- What a client does: it writes a payload as a submessage, sends the next slot, handles an
ACKNACK, or sends the next slot again that the ACKNACK asks for. -/
inductive SlotEvent where
  | write (payload : List UInt8) (ub : UcdrBuffer) (submessageId mode : UInt8)
  | send
  | acknack (bitmap : ℕ) (firstUnackedSeqNum : UxrSeqNum)
  | nack (seqNumIt : UxrSeqNum)

/-- `uxr_prepare_stream_to_write_submessage`, and the payload behind the header. -/
def writeSubmessage (stream : OutputReliableStream) (payload : List UInt8) (ub : UcdrBuffer)
    (submessageId mode : UInt8) : Option PrepareResult :=
  (uxrPrepareStreamToWriteSubmessage stream payload.length ub submessageId mode).map fun r =>
    if r.availableToWrite then
      let w := ucdrSerializeArrayUint8 onFullOutputBuffer r.stream r.ub payload
      { availableToWrite := true
        ub := w.2
        stream := w.1 }
    else r

/-- The `k`-th fragment of a submessage that needs several slots. -/
def writtenFragment (stream : OutputReliableStream) (payload : List UInt8)
    (submessageId mode : UInt8) (k : ℕ) : WrittenSubmessage where
  id := submessageIdFragment
  flags := if k = necessaryCompleteBlocks stream (submessageSize payload.length) then
    flagLastFragment else 0
  length := announcedSize stream (submessageSize payload.length) k
  bytes := ((fragmentSizes stream (submessageSize payload.length)).splitLengths
    (submessageHeader submessageId (mode ||| 1) payload.length ++ payload))[k]?.getD []

/-- What the slots hold after a write that was accepted. -/
def recordWrite (stream stream' : OutputReliableStream) (payload : List UInt8)
    (submessageId mode : UInt8) (written : UxrSeqNum → List WrittenSubmessage) (x : UxrSeqNum) :
    List WrittenSubmessage :=
  if TakesFragments stream (submessageSize payload.length) then
    if seqSteps (firstFragmentSeqNum stream) x ≤
        necessaryCompleteBlocks stream (submessageSize payload.length) then
      written x ++ [writtenFragment stream payload submessageId mode
        (seqSteps (firstFragmentSeqNum stream) x)]
    else written x
  else if x = stream'.lastWritten then
    written x ++ [⟨submessageId, withoutEndianness mode, payload.length, payload⟩]
  else written x

/-- What the slots hold once an ACKNACK has freed those of the numbers it acknowledges. -/
def recordAcknack (stream : OutputReliableStream) (firstUnackedSeqNum : UxrSeqNum)
    (written : UxrSeqNum → List WrittenSubmessage) (x : UxrSeqNum) : List WrittenSubmessage :=
  if 0 < seqSteps stream.lastAcknown x ∧ seqSteps stream.lastAcknown x ≤
      seqSteps stream.lastAcknown (uxrSeqNumSub firstUnackedSeqNum 1) then []
  else written x

section Steps

variable (info : UxrSessionInfo) (streamIdRaw : UInt8)

/-- The state after an event. -/
def slotStep (st : SlotState) : SlotEvent → SlotState
  | .write payload ub submessageId mode =>
    match writeSubmessage st.stream payload ub submessageId mode with
    | some r =>
      { st with
        stream := r.stream
        written := if r.availableToWrite then
            recordWrite st.stream r.stream payload submessageId mode st.written
          else st.written }
    | none => st
  | .send =>
    let next := uxrPrepareNextReliableBufferToSend st.stream
    let stream := sendNextBuffer info streamIdRaw st.stream
    { st with
      stream := stream
      sent := if next.dataToSend then
          st.sent ++ [(st.written next.seqNum, read stream.base.buffer next.buffer next.length)]
        else st.sent }
  | .acknack bitmap firstUnackedSeqNum =>
    { st with
      stream := uxrProcessAcknack st.stream bitmap firstUnackedSeqNum
      written := recordAcknack st.stream firstUnackedSeqNum st.written }
  | .nack seqNumIt =>
    match uxrNextReliableNackBufferToSend st.stream seqNumIt with
    | (stream, some seqNum) =>
      { st with
        stream := stream
        sent := st.sent ++ [(st.written seqNum,
          slotBytes stream.base seqNum 0 (uxrGetReliableBufferSize stream.base seqNum))] }
    | (stream, none) => { st with stream := stream }

end Steps

/-- A write that is refused changes nothing. -/
lemma writeSubmessage_refused {stream : OutputReliableStream} {payload : List UInt8}
    {ub : UcdrBuffer} {submessageId mode : UInt8} {r : PrepareResult}
    (hr : writeSubmessage stream payload ub submessageId mode = some r)
    (hrefused : r.availableToWrite = false) : r.stream = stream := by
  unfold writeSubmessage uxrPrepareStreamToWriteSubmessage at hr
  rcases hprepare : prepareSubmessage stream payload.length ub with _ | r₀
  · rw [hprepare] at hr
    cases hr
  · rw [hprepare] at hr
    by_cases havailable : r₀.availableToWrite
    · simp only [Option.map_some, havailable, if_true, Option.some.injEq] at hr
      rw [← hr] at hrefused
      cases hrefused
    · simp only [Option.map_some, havailable, Bool.false_eq_true, if_false,
        Option.some.injEq] at hr
      rw [← hr]
      exact prepare_refused hprepare (Bool.eq_false_iff.mpr havailable)

/-- A payload has at most 65535 bytes, and enough slots are free for its fragments.  An ACKNACK
acknowledges what was sent, and the search for lost messages walks over what was sent. -/
def SlotAdmitted (st : SlotState) : SlotEvent → Prop
  | .write payload _ _ _ =>
    payload.length ≤ 65535 ∧
      (TakesFragments st.stream (submessageSize payload.length) →
        FragmentsFit st.stream (submessageSize payload.length))
  | .send => True
  | .acknack _ firstUnackedSeqNum => AcknackOk st.stream firstUnackedSeqNum
  | .nack seqNumIt => seqSteps st.stream.lastAcknown seqNumIt ≤
      seqSteps st.stream.lastAcknown st.stream.lastSent

/-- Reader and writer agree on where a submessage starts, and its header is not torn. -/
def WriteAligned (stream : OutputReliableStream) (payloadSize : ℕ) : Prop :=
  if TakesFragments stream (submessageSize payloadSize) then
    stream.offset + subheaderSize < uxrGetReliableBufferCapacity stream.base ∧
      firstFragmentBufferSize stream % 4 = 0 ∧
      (firstFragmentSize stream ≠ 1 ∧ firstFragmentSize stream ≠ 3) ∧
      submessageSize payloadSize < firstFragmentSize stream + 65536
  else if uxrGetReliableBufferSize stream.base stream.lastWritten + submessageSize payloadSize ≤
      uxrGetReliableBufferCapacity stream.base then
    alignmentGap (uxrGetReliableBufferSize stream.base stream.lastWritten) ≤
      uxrSubmessagePadding payloadSize
  else True

/-- A write is accepted. -/
def WriteAccepted (stream : OutputReliableStream) (payload : List UInt8) (ub : UcdrBuffer)
    (submessageId mode : UInt8) : Prop :=
  ∃ r, writeSubmessage stream payload ub submessageId mode = some r ∧ r.availableToWrite = true

/-- The events after which every slot still reads as it was written.  The numbers behind those
that an ACKNACK acknowledges need slots of their own, as they have when the history divides a
turn. -/
def SlotAligned (st : SlotState) : SlotEvent → Prop
  | .write payload ub submessageId mode =>
    WriteAccepted st.stream payload ub submessageId mode → WriteAligned st.stream payload.length
  | .send => True
  | .acknack _ firstUnackedSeqNum =>
    SlotsDistinct st.stream.base.history (uxrSeqNumSub firstUnackedSeqNum 1).val
  | .nack _ => True

/-- A stream that was just initialised. -/
def SlotStart (info : UxrSessionInfo) (st : SlotState) : Prop :=
  (∃ base, st.stream = uxrInitOutputReliableStream base (uxrSessionHeaderOffset info)) ∧
    st.written = (fun _ => []) ∧ st.sent = []

/-- The states that runs of aligned events reach. -/
def SlotRun (info : UxrSessionInfo) (streamIdRaw : UInt8) (st : SlotState) : Prop :=
  Reaches (SlotStart info) (slotStep info streamIdRaw)
    (fun st e => SlotAdmitted st e ∧ SlotAligned st e) st

/-- A message reads as a list of submessages that were written. -/
def ReadsAsWritten (message : List UInt8) (offset : ℕ) (written : List WrittenSubmessage) : Prop :=
  ∃ submessages, walkMessage message offset = some submessages ∧
    List.Forall₂ ReadsAs written submessages

/-! ## Fragments in the window -/

namespace CounterWindow

variable {stream : OutputReliableStream} {a s w length : ℕ}

/-- A fragmented write for which enough slots are free has the slots it needs. -/
theorem fragmentSlots (h : CounterWindow stream a s w)
    (hroom : stream.offset + subheaderSize < uxrGetReliableBufferCapacity stream.base)
    (hfit : FragmentsFit stream length) :
    firstFragmentSeqNum stream = seqOf (OutputWindow.firstFragment stream w) ∧
      w ≤ OutputWindow.firstFragment stream w ∧
      OutputWindow.firstFragment stream w + necessaryCompleteBlocks stream length ≤
        a + stream.base.history ∧
      FragmentSlots stream length := by
  have hhistory := stream.base.history_lt
  have hacknown := h.acknown_le
  have hsent := h.sent_lt
  have hwritten := h.written_le
  have hsub : (uxrSeqNumSub (seqOf (a + 1 + (w - (a + 1)))) (seqOf (a + 1))).val = w - (a + 1) :=
    uxrSeqNumSub_seqOf_val (by omega)
  rw [Nat.add_sub_cancel' (by omega)] at hsub
  have htaken : a + 1 + takenSeqNums stream = OutputWindow.firstFragment stream w := by
    unfold takenSeqNums OutputWindow.firstFragment
    rw [h.lastWritten_eq, h.lastAcknown_eq, uxrSeqNumAdd_seqOf, hsub]
    split <;> omega
  have hF : firstFragmentSeqNum stream = seqOf (OutputWindow.firstFragment stream w) := by
    unfold firstFragmentSeqNum OutputWindow.firstFragment
    rw [h.lastWritten_eq]
    split
    · exact uxrSeqNumAdd_seqOf w 1
    · rfl
  obtain ⟨hle, hle'⟩ := OutputWindow.le_firstFragment stream w
  have hfit' := hfit.1
  refine ⟨hF, hle, by omega, hroom, by omega, ?_, ?_, ?_⟩
  · refine (h.distinct.turn stream.base.history_pos hhistory).imp_right fun hturn => ?_
    rw [hF, seqOf_val]
    omega
  · unfold firstFragmentBufferSize
    rw [hF]
    rcases Nat.lt_or_eq_of_le hle with hlt | heq
    · exact .inl (h.empty _ hlt (by omega))
    · rw [← heq]
      rcases h.sound (seqOf w) with hempty | ⟨hused, -⟩
      · exact .inl hempty
      · exact .inr ⟨h.lastWritten_eq.symm, hused⟩
  · intro k hpos hk
    rw [hF, uxrSeqNumAdd_seqOf]
    exact h.empty _ (by omega) (by omega)

/-- The fragments of a write end the window. -/
theorem layFragments {F : ℕ} (h : CounterWindow stream a s w)
    (hslots : FragmentSlots stream length) (hlength : LengthFits stream length)
    (htakes : TakesFragments stream length) (hF : firstFragmentSeqNum stream = seqOf F)
    (hwF : w ≤ F) (hused : ∀ X, w ≤ X → X < F →
      uxrGetReliableBufferSize stream.base (seqOf X) ≠ stream.offset)
    (hlast : F + necessaryCompleteBlocks stream length ≤ a + stream.base.history) :
    CounterWindow (layFragments stream length) a s
      (F + necessaryCompleteBlocks stream length) := by
  have hacknown := h.acknown_le
  have hsent := h.sent_lt
  have hposition : ∀ k, seqOf ((firstFragmentSeqNum stream).val + k) = seqOf (F + k) := by
    intro k
    rw [← uxrSeqNumAdd_seqOf, seqOf_self, hF, uxrSeqNumAdd_seqOf]
  have honly := layFragments_onlySlots (seqOf_self _).symm hslots.ready
  have hsize : ∀ k ≤ necessaryCompleteBlocks stream length,
      stream.offset < uxrGetReliableBufferSize (XrceDds.layFragments stream length).base
          (seqOf (F + k)) ∧
        uxrGetReliableBufferSize (XrceDds.layFragments stream length).base (seqOf (F + k)) ≤
          uxrGetReliableBufferCapacity stream.base := by
    intro k hk
    have hbounds := hslots.announcedSize_bounds hlength htakes k
    have hheld := hslots.bufferSize_eq hk
    have hoffset := h.offset_le (seqOf ((firstFragmentSeqNum stream).val + k))
    rw [← hposition, hslots.layFragments_bufferSize hlength htakes hk]
    omega
  have hother : ∀ X, a < X → X ≤ a + stream.base.history →
      (X < F ∨ F + necessaryCompleteBlocks stream length < X) →
      uxrGetReliableBufferSize (XrceDds.layFragments stream length).base (seqOf X) =
        uxrGetReliableBufferSize stream.base (seqOf X) := by
    intro X hX hX' hout
    refine honly.bufferSize_eq _ ?_
    rintro ⟨k, hk, heq⟩
    unfold slotOf at heq
    rw [hposition] at heq
    exact h.slot_ne hX hX' (by omega) (by omega) (by omega) heq
  constructor
  case lastAcknown_eq => rw [layFragments_lastAcknown, h.lastAcknown_eq]
  case lastSent_eq => rw [layFragments_lastSent, h.lastSent_eq]
  case lastWritten_eq => exact layFragments_lastWritten hF length
  case acknown_le => exact hacknown
  case sent_lt => omega
  case written_le =>
    rw [honly.history_eq]
    omega
  case distinct =>
    rw [honly.history_eq]
    exact h.distinct
  case offset_lt =>
    rw [layFragments_offset]
    exact h.offset_lt
  case sound =>
    intro j
    unfold SlotSound
    rw [layFragments_offset, honly.capacity_eq]
    by_cases hj : BlockSlots stream.base.history (firstFragmentSeqNum stream).val
        (necessaryCompleteBlocks stream length + 1) (j % stream.base.history)
    · obtain ⟨k, hk, heq⟩ := hj
      have hsame : uxrGetReliableBufferSize (XrceDds.layFragments stream length).base j =
          uxrGetReliableBufferSize (XrceDds.layFragments stream length).base (seqOf (F + k)) := by
        refine uxrGetReliableBufferSize_congr ?_
        rw [honly.history_eq, heq, ← hposition]
        rfl
      rw [hsame]
      exact .inr (hsize k (by omega))
    · rw [honly.bufferSize_eq j hj]
      exact h.sound j
  case ahead =>
    intro _
    rw [honly.history_eq, layFragments_offset]
    exact ⟨hlast, (hsize _ le_rfl).1.ne'⟩
  case used =>
    intro X hX hXlast
    rw [layFragments_offset]
    rcases Nat.lt_or_ge X F with hlt | hge
    · rw [hother X hX (by omega) (.inl hlt)]
      rcases Nat.lt_or_ge X w with hlt' | hge'
      · exact h.used X hX hlt'
      · exact hused X hge' hlt
    · obtain ⟨k, rfl⟩ := Nat.exists_eq_add_of_le hge
      exact (hsize k (by omega)).1.ne'
  case empty =>
    intro X hX hX'
    rw [honly.history_eq] at hX'
    rw [layFragments_offset, hother X (by omega) hX' (.inr hX)]
    exact h.empty X (by omega) hX'

end CounterWindow

/-! ## What the slots hold -/

/-- What a slot holds behind the room for the session header. -/
def slotBody (stream : OutputReliableStream) (X : ℕ) : List UInt8 :=
  slotBytes stream.base (seqOf X) stream.offset
    (uxrGetReliableBufferSize stream.base (seqOf X) - stream.offset)

/-- What a slot holds parses as what was written into it. -/
def SlotParses (body : List UInt8) (written : List WrittenSubmessage) : Prop :=
  ∃ submessages, Parses body 0 submessages ∧ List.Forall₂ ReadsAs written submessages

/-- A message is a session header and what its slot holds. -/
lemma SlotParses.readsAsWritten {body : List UInt8} {written : List WrittenSubmessage}
    (h : SlotParses body written) (head : List UInt8) (hhead : head.length % 4 = 0) :
    ReadsAsWritten (head ++ body) head.length written := by
  obtain ⟨submessages, hparses, hreads⟩ := h
  exact ⟨submessages, (hparses.prepend hhead).walkMessage (by rw [List.length_append]; omega),
    hreads⟩

/-- One more submessage at the next multiple of four. -/
lemma SlotParses.snoc {body gap payload trail : List UInt8} {written : List WrittenSubmessage}
    {id flags : UInt8} {item : WrittenSubmessage} (h : SlotParses body written)
    (hgap : gap.length = alignmentGap body.length) (hpayload : payload.length < 65536)
    (htrail : trail.length ≤ alignmentGap payload.length)
    (hitem : ReadsAs item ⟨id, withoutEndianness flags, payload⟩) :
    SlotParses (body ++ gap ++ submessageHeader id flags payload.length ++ (payload ++ trail))
      (written ++ [item]) := by
  obtain ⟨submessages, hparses, hreads⟩ := h
  exact ⟨_, hparses.snoc (Nat.zero_le _) hgap hpayload htrail,
    List.rel_append hreads (.cons hitem .nil)⟩

/-- Every slot of the window holds what was written into it, and everything that was sent reads
as it was written. -/
structure SlotInvariant (info : UxrSessionInfo) (st : SlotState) (a s w : ℕ) : Prop where
  offset_eq : st.stream.offset = uxrSessionHeaderOffset info
  window : CounterWindow st.stream a s w
  slots : ∀ X, a < X → X ≤ a + st.stream.base.history →
    SlotParses (slotBody st.stream X) (st.written (seqOf X))
  /-- Nothing is written for the numbers behind the window. -/
  beyond : ∀ X, a + st.stream.base.history < X → X ≤ a + 65536 → st.written (seqOf X) = []
  sent : ∀ p ∈ st.sent, ReadsAsWritten p.2 st.stream.offset p.1

/-- The numbers of one turn are different. -/
lemma seqOf_ne {a X Y : ℕ} (hX : a < X) (hX' : X ≤ a + 65536) (hY : a < Y) (hY' : Y ≤ a + 65536)
    (hne : X ≠ Y) : seqOf X ≠ seqOf Y := by
  rw [Ne, Fin.ext_iff, seqOf_val, seqOf_val]
  omega

/-- A stream starts with empty slots. -/
lemma SlotInvariant.start {info : UxrSessionInfo} {st : SlotState} (h : SlotStart info st) :
    SlotInvariant info st 65535 65535 65536 := by
  obtain ⟨⟨base, hbase⟩, hwritten, hsent⟩ := h
  have hoffset : uxrSessionHeaderOffset info < 4294967296 := by
    rcases uxrSessionHeaderOffset_eq info with heq | heq <;> rw [heq] <;> decide
  constructor
  case offset_eq =>
    rw [hbase]
    rfl
  case window =>
    rw [hbase]
    exact CounterWindow.reset _ hoffset
  case slots =>
    intro X _ _
    have hbody : slotBody st.stream X = [] := by
      unfold slotBody
      rw [hbase]
      exact slotBytes_empty _ _ (PlainWindow.reset_bufferSize _ hoffset _)
    rw [hbody, hwritten]
    exact ⟨[], parses_nil, .nil⟩
  case beyond =>
    intro X _ _
    rw [hwritten]
  case sent =>
    intro p hp
    rw [hsent] at hp
    cases hp

/-! ## Plain writes -/

/-- The sizes once more room has been recorded for a slot and bytes are stored in that room. -/
lemma bufferSize_written (base : ReliableStream) {i j u g len : ℕ} {bytes : List UInt8}
    (hlen : g + bytes.length ≤ len) (hcap : u + len ≤ uxrGetReliableBufferCapacity base) :
    uxrGetReliableBufferSize ((uxrSetReliableBufferSize base i (u + len)).store
        (uxrGetReliableBuffer base i + (u + g)) bytes) j =
      if i % base.history = j % base.history then u + len else uxrGetReliableBufferSize base j := by
  have hlt := capacity_lt base
  refine Eq.trans (uxrGetReliableBufferSize_store _ (i := i) ?_ ?_)
    (uxrGetReliableBufferSize_setSize _ (by omega))
  · exact Nat.le_add_right _ _
  · rw [uxrGetReliableBuffer_setSize, uxrGetReliableBufferCapacity_setSize]
    omega

/-- The other slots hold what they held. -/
lemma slotBytes_written_of_ne (base : ReliableStream) {i j u g len p n : ℕ} {bytes : List UInt8}
    (hlen : g + bytes.length ≤ len) (hcap : u + len ≤ uxrGetReliableBufferCapacity base)
    (hne : i % base.history ≠ j % base.history)
    (hroom : p + n ≤ uxrGetReliableBufferCapacity base) :
    slotBytes ((uxrSetReliableBufferSize base i (u + len)).store
        (uxrGetReliableBuffer base i + (u + g)) bytes) j p n = slotBytes base j p n := by
  refine Eq.trans (slotBytes_store_of_ne (uxrSetReliableBufferSize base i (u + len)) (i := i) ?_ ?_
    hne hroom) (slotBytes_setSize _ hroom)
  · exact Nat.le_add_right _ _
  · rw [uxrGetReliableBuffer_setSize, uxrGetReliableBufferCapacity_setSize]
    omega

/-- Bytes that are stored a little behind what a slot holds, when its size has been recorded. -/
lemma slotBytes_written (base : ReliableStream) (j : ℕ) {o u g len : ℕ} {bytes : List UInt8}
    (hle : o ≤ u) (hlen : g + bytes.length ≤ len)
    (hcap : u + len ≤ uxrGetReliableBufferCapacity base) :
    ∃ gap trail, gap.length = g ∧ trail.length = len - g - bytes.length ∧
      slotBytes ((uxrSetReliableBufferSize base j (u + len)).store
          (uxrGetReliableBuffer base j + (u + g)) bytes) j o (u + len - o) =
        slotBytes base j o (u - o) ++ gap ++ bytes ++ trail := by
  obtain ⟨base', hbase'⟩ : ∃ base', base' = (uxrSetReliableBufferSize base j (u + len)).store
      (uxrGetReliableBuffer base j + (u + g)) bytes := ⟨_, rfl⟩
  have hheld : slotBytes base' j o (u - o) = slotBytes base j o (u - o) := by
    have hsize : slotBytes (uxrSetReliableBufferSize base j (u + len)) j o (u - o) =
        slotBytes base j o (u - o) := slotBytes_setSize base (by omega)
    rw [hbase', ← hsize]
    exact slotBytes_store_of_disjoint (uxrSetReliableBufferSize base j (u + len))
      (.inl (by omega))
  have hbytes : slotBytes base' j (u + g) bytes.length = bytes := by
    rw [hbase']
    exact slotBytes_store_same (uxrSetReliableBufferSize base j (u + len)) rfl
  refine ⟨slotBytes base' j u g, slotBytes base' j (u + g + bytes.length) (len - g - bytes.length),
    length_slotBytes _ _ _ _, length_slotBytes _ _ _ _, ?_⟩
  rw [← hbase', show u + len - o = u - o + g + bytes.length + (len - g - bytes.length) by omega,
    slotBytes_add, slotBytes_add, slotBytes_add, hheld, show o + (u - o) = u by omega,
    show o + (u - o + g) = u + g by omega, show o + (u - o + g + bytes.length) =
      u + g + bytes.length by omega, hbytes]

namespace SlotInvariant

variable {info : UxrSessionInfo} {st : SlotState} {a s w : ℕ}

/-- The offset is a multiple of four. -/
lemma offset_aligned (h : SlotInvariant info st a s w) : st.stream.offset % 4 = 0 := by
  rw [h.offset_eq]
  exact uxrSessionHeaderOffset_aligned info

/-- A slot has room for what it holds. -/
lemma body_le (h : SlotInvariant info st a s w)
    (hroom : st.stream.offset ≤ uxrGetReliableBufferCapacity st.stream.base) (X : ℕ) :
    st.stream.offset + (uxrGetReliableBufferSize st.stream.base (seqOf X) - st.stream.offset) ≤
      uxrGetReliableBufferCapacity st.stream.base := by
  rcases h.window.sound (seqOf X) with heq | ⟨hlt, hle⟩ <;> omega

/-- A submessage that goes behind what one slot holds. -/
theorem writeReserved (h : SlotInvariant info st a s w) {w' : ℕ} {payload : List UInt8}
    (submessageId mode : UInt8) (hopens : PlainWindow.Opens st.stream a w w')
    (hfits : uxrGetReliableBufferSize st.stream.base (seqOf w') + submessageSize payload.length ≤
      uxrGetReliableBufferCapacity st.stream.base)
    (hpayload : payload.length < 65536)
    (hgap : alignmentGap (uxrGetReliableBufferSize st.stream.base (seqOf w')) ≤
      uxrSubmessagePadding payload.length) :
    SlotInvariant info
      { st with
        stream := UcdrMemory.store (PlainWindow.reservedIn st.stream w'
            (submessageSize payload.length)).stream
          (uxrGetReliableBuffer st.stream.base (seqOf w') +
            (uxrGetReliableBufferSize st.stream.base (seqOf w') +
              alignmentGap (uxrGetReliableBufferSize st.stream.base (seqOf w'))))
          (submessageHeader submessageId (mode ||| 1) payload.length ++ payload)
        written := fun x => if x = seqOf w' then
            st.written x ++ [⟨submessageId, withoutEndianness mode, payload.length, payload⟩]
          else st.written x } a s w' := by
  have hhistory := st.stream.base.history_lt
  have hsent := h.window.sent_lt
  have hacknown := h.window.acknown_le
  have hle := hopens.le
  have hwindow := hopens.inWindow
  have hcap := capacity_lt st.stream.base
  have hpos := submessageSize_pos payload.length
  have hoffset := h.window.offset_le (seqOf w')
  have haligned := h.offset_aligned
  obtain ⟨u, hu⟩ : ∃ u, u = uxrGetReliableBufferSize st.stream.base (seqOf w') := ⟨_, rfl⟩
  rw [← hu] at hfits hgap hoffset ⊢
  have hlength : alignmentGap u +
      (submessageHeader submessageId (mode ||| 1) payload.length ++ payload).length ≤
        submessageSize payload.length := by
    rw [List.length_append]
    simp only [submessageHeader, List.length_cons, List.length_nil]
    unfold submessageSize subheaderSize
    omega
  have hne : ∀ X, a < X → X ≤ a + 65536 → X ≠ w' → seqOf X ≠ seqOf w' := fun X hX hX' hne =>
    seqOf_ne hX hX' (by omega) (by omega) hne
  have hsizes := fun j => bufferSize_written st.stream.base (i := seqOf w') (j := j) hlength hfits
  constructor
  case offset_eq => exact h.offset_eq
  case window =>
    have hreserve := h.window.reserve hopens (by rwa [← hu]) fun _ => by omega
    refine hreserve.store (i := seqOf w') (Nat.le_add_right _ _) ?_
    simp only [PlainWindow.reservedIn, OutputReliableStream.writtenTo,
      uxrGetReliableBuffer_setSize, uxrGetReliableBufferCapacity_setSize]
    omega
  case slots =>
    intro X hX hX'
    change X ≤ a + st.stream.base.history at hX'
    dsimp only
    rcases eq_or_ne X w' with rfl | hX''
    · obtain ⟨gap, trail, hgap', htrail, hbytes⟩ := slotBytes_written st.stream.base (seqOf X)
        hoffset hlength hfits
      have hbody : slotBody (UcdrMemory.store (PlainWindow.reservedIn st.stream X
            (submessageSize payload.length)).stream
          (uxrGetReliableBuffer st.stream.base (seqOf X) + (u + alignmentGap u))
          (submessageHeader submessageId (mode ||| 1) payload.length ++ payload)) X =
            slotBody st.stream X ++ gap ++ submessageHeader submessageId (mode ||| 1)
              payload.length ++ (payload ++ trail) := by
        unfold slotBody
        rw [← hu]
        refine Eq.trans ?_ (hbytes.trans (by simp only [List.append_assoc]))
        have hsize := (hsizes (seqOf X)).trans (if_pos rfl)
        simp only [UcdrMemory.store, PlainWindow.reservedIn, OutputReliableStream.writtenTo,
          ← hu, hsize]
      have hlen : (slotBody st.stream X).length = u - st.stream.offset := by
        rw [slotBody, length_slotBytes, ← hu]
      rw [if_pos rfl, hbody]
      refine (h.slots X hX hX').snoc ?_ hpayload ?_ ⟨rfl, ?_, rfl, List.prefix_refl _⟩
      · rw [hgap', hlen]
        unfold alignmentGap
        omega
      · rw [htrail, List.length_append]
        simp only [submessageHeader, List.length_cons, List.length_nil]
        unfold submessageSize uxrSubmessagePadding subheaderSize alignmentGap
        split <;> omega
      · exact withoutEndianness_or mode
    · rw [if_neg (hne X hX (by omega) hX'')]
      have hslot : slotOf st.stream.base.history w' ≠ slotOf st.stream.base.history X :=
        h.window.slot_ne (by omega) hwindow hX hX' hX''.symm
      have hbody : slotBody (UcdrMemory.store (PlainWindow.reservedIn st.stream w'
            (submessageSize payload.length)).stream
          (uxrGetReliableBuffer st.stream.base (seqOf w') + (u + alignmentGap u))
          (submessageHeader submessageId (mode ||| 1) payload.length ++ payload)) X =
            slotBody st.stream X := by
        have hsize := (hsizes (seqOf X)).trans (if_neg hslot)
        have hroom := h.body_le (by omega) X
        unfold slotBody
        simp only [UcdrMemory.store, PlainWindow.reservedIn, OutputReliableStream.writtenTo,
          ← hu, hsize]
        exact slotBytes_written_of_ne st.stream.base hlength hfits hslot hroom
      rw [hbody]
      exact h.slots X hX hX'
  case beyond =>
    intro X hX hX'
    change a + st.stream.base.history < X at hX
    exact (if_neg (hne X (by omega) hX' (by omega))).trans (h.beyond X hX hX')
  case sent => exact h.sent

/-- A submessage that fits one slot is refused, or it goes behind what one slot holds and is
read there. -/
theorem writePlain (h : SlotInvariant info st a s w) {payload : List UInt8} (ub : UcdrBuffer)
    (submessageId mode : UInt8) (hpayload : payload.length ≤ 65535)
    (hplain : ¬ TakesFragments st.stream (submessageSize payload.length))
    (haligned : WriteAligned st.stream payload.length) :
    ∃ r, writeSubmessage st.stream payload ub submessageId mode = some r ∧
      (r = ⟨false, ub, st.stream⟩ ∨ r.availableToWrite = true ∧ ∃ w', SlotInvariant info
        { st with
          stream := r.stream
          written := recordWrite st.stream r.stream payload submessageId mode st.written }
        a s w') := by
  have hcap := capacity_lt st.stream.base
  have hoffset := h.window.offset_le (seqOf w)
  have hlt := h.window.offset_lt
  have hsize := uxrGetReliableBufferSize_lt st.stream.base (seqOf w)
  have hsum : ∀ k, k < 4294967296 → sizeT (k + submessageSize payload.length) =
      k + submessageSize payload.length := by
    intro k hk
    have : submessageSize payload.length ≤ 65543 := by
      unfold submessageSize uxrSubmessagePadding subheaderSize
      split <;> omega
    exact Nat.mod_eq_of_lt (by omega)
  have hfits : FitsSlot st.stream (submessageSize payload.length) := by
    unfold FitsSlot
    unfold TakesFragments at hplain
    rw [h.window.lastWritten_eq, hsum _ hsize, hsum _ hlt] at hplain
    omega
  obtain ⟨r, hr, hcases⟩ := h.window.prepare ub hfits
  have hprepare : prepareSubmessage st.stream payload.length ub = some r := by
    unfold prepareSubmessage
    change uxrPrepareReliableBufferToWrite st.stream (sizeT (submessageSize payload.length)) ub = _
    have := hsum 0 (by decide)
    rw [Nat.zero_add] at this
    rw [this, hr]
  unfold writeSubmessage uxrPrepareStreamToWriteSubmessage
  rw [hprepare]
  refine ⟨_, rfl, ?_⟩
  rcases hcases with ⟨rfl, -⟩ | ⟨w', hopens, hroom, -, rfl⟩
  · exact .inl rfl
  · refine .inr ⟨rfl, w', ?_⟩
    have hgap : alignmentGap (uxrGetReliableBufferSize st.stream.base (seqOf w')) ≤
        uxrSubmessagePadding payload.length := by
      have hle := hopens.le
      have hle' := hopens.le_succ
      have hwindow := hopens.inWindow
      rcases Nat.lt_or_eq_of_le hle with hlt | rfl
      · have hempty := h.window.empty w' hlt hwindow
        have := h.offset_aligned
        rw [hempty]
        unfold alignmentGap
        omega
      · unfold WriteAligned at haligned
        rw [h.window.lastWritten_eq, if_neg hplain, if_pos hroom] at haligned
        exact haligned
    have hstream := serialize_window onFullOutputBuffer
      (PlainWindow.reservedIn st.stream w' (submessageSize payload.length)).stream
      (PlainWindow.reservedIn st.stream w' (submessageSize payload.length)).ub submessageId mode
      (payload.length % 65536) payload rfl rfl (Nat.zero_le _) ?_ ?_
    · have hwrite := h.writeReserved submessageId mode hopens hroom (by omega) hgap
      have hplace : (PlainWindow.reservedIn st.stream w'
        (submessageSize payload.length)).ub.iterator +
          alignmentGap ((PlainWindow.reservedIn st.stream w'
              (submessageSize payload.length)).ub.offset -
            (PlainWindow.reservedIn st.stream w' (submessageSize payload.length)).ub.origin) =
          uxrGetReliableBuffer st.stream.base (seqOf w') +
            (uxrGetReliableBufferSize st.stream.base (seqOf w') +
              alignmentGap (uxrGetReliableBufferSize st.stream.base (seqOf w'))) := by
        simp only [PlainWindow.reservedIn, ucdrInitBufferOriginOffset, Nat.zero_add, Nat.sub_zero,
          Nat.add_assoc]
      rw [hplace, Nat.mod_eq_of_lt (show payload.length < 65536 by omega)] at hstream
      have hrecord : ∀ stream', stream'.lastWritten = seqOf w' →
          recordWrite st.stream stream' payload submessageId mode st.written =
            fun x => if x = seqOf w' then
                st.written x ++ [⟨submessageId, withoutEndianness mode, payload.length, payload⟩]
              else st.written x := by
        intro stream' hlast
        funext x
        unfold recordWrite
        rw [if_neg hplain, hlast]
      have havailable : (PlainWindow.reservedIn st.stream w'
          (submessageSize payload.length)).availableToWrite = true := rfl
      simp only [havailable, if_true]
      rw [Nat.mod_eq_of_lt (show payload.length < 65536 by omega), hstream, hrecord _ rfl]
      exact hwrite
    · simp only [PlainWindow.reservedIn, ucdrInitBufferOriginOffset, Nat.zero_add, Nat.sub_zero]
      unfold submessageSize subheaderSize at *
      omega
    · simp only [PlainWindow.reservedIn, ucdrInitBufferOriginOffset]
      omega

end SlotInvariant

/-! ## Fragmented writes -/

/-- Longer bytes are cut into pieces that start with those of shorter ones. -/
lemma splitLengths_prefix {α : Type} {sizes : List ℕ} {xs ys : List α} (h : xs <+: ys) {k : ℕ}
    (hk : k < (sizes.splitLengths ys).length) :
    (sizes.splitLengths xs)[k]?.getD [] <+: (sizes.splitLengths ys)[k] := by
  induction sizes generalizing xs ys k with
  | nil => exact absurd hk (Nat.not_lt_zero _)
  | cons size sizes ih =>
    simp only [List.splitLengths_cons] at hk ⊢
    cases k with
    | zero => exact h.take size
    | succ k => exact ih (h.drop size) (Nat.lt_of_succ_lt_succ hk)

/-- What the header of a fragment announces is a value of `uint16_t`. -/
lemma announcedSize_lt {stream : OutputReliableStream} {length : ℕ}
    (h : FragmentSlots stream length) (hlength : LengthFits stream length)
    (htakes : TakesFragments stream length) (k : ℕ) : announcedSize stream length k < 65536 := by
  obtain ⟨-, -, -, hle, -, -⟩ := h.sizes hlength htakes
  have hblock : availableBlockSize stream < 65536 := Nat.mod_lt _ (by decide)
  have hfirst : firstFragmentSize stream < 65536 := Nat.mod_lt _ (by decide)
  unfold announcedSize
  split_ifs <;> omega

/-- The `k`-th fragment of a write is read as it was written. -/
lemma readsAs_writtenFragment {stream : OutputReliableStream} {payload bytes : List UInt8}
    {submessageId mode : UInt8} {k : ℕ} (hbytes : bytes.length = submessageSize payload.length)
    (hstarts : submessageHeader submessageId (mode ||| 1) payload.length ++ payload <+: bytes)
    (hk : k < (cutPayloads stream bytes).length)
    (hlength : (cutPayloads stream bytes)[k].length = announcedSize stream bytes.length k) :
    ReadsAs (writtenFragment stream payload submessageId mode k)
      ⟨submessageIdFragment, withoutEndianness (announcedFlags stream bytes.length k),
        (cutPayloads stream bytes)[k]⟩ where
  id_eq := rfl
  flags_eq := by
    unfold writtenFragment announcedFlags
    rw [hbytes]
    dsimp only
    split <;> rfl
  length_eq := by
    rw [hlength, hbytes]
    rfl
  bytes_prefix := by
    unfold writtenFragment cutPayloads at *
    simp only [hbytes] at hk ⊢
    exact splitLengths_prefix hstarts hk

/-- Another memory leaves the offset alone. -/
lemma offset_withBase (stream : OutputReliableStream) (base : ReliableStream) :
    ({ stream with base := base } : OutputReliableStream).offset = stream.offset := rfl

/-- The other numbers of a turn are more than `n` steps behind a position. -/
lemma lt_seqSteps {a F X n : ℕ} (hF : a < F) (hlast : F + n ≤ a + 65536) (hX : a < X)
    (hX' : X ≤ a + 65536) (hout : X < F ∨ F + n < X) : n < seqSteps (seqOf F) (seqOf X) := by
  rcases hout with hlt | hgt
  · have hturn : seqOf X = seqOf (F + (65536 + X - F)) := by
      rw [show F + (65536 + X - F) = 65536 + X by omega, seqOf_turn_add]
    rw [hturn, seqSteps_seqOf _ (by omega)]
    omega
  · have hsteps := seqSteps_seqOf F (show X - F < 65536 by omega)
    rw [show F + (X - F) = X by omega] at hsteps
    omega

/-! ### The slots after a fragmented write -/

section Stored

variable {stream : OutputReliableStream} {bytes : List UInt8}

/-- A slot that a fragment was put into holds what it held before, and the fragment behind it, with
no padding. -/
lemma slotBody_stored (hslots : FragmentSlots stream bytes.length)
    (hlength : LengthFits stream bytes.length) (htakes : TakesFragments stream bytes.length)
    (hoffset : stream.offset % 4 = 0) (hfirst : firstFragmentBufferSize stream % 4 = 0) {k X : ℕ}
    (hk : k < (cutPayloads stream bytes).length)
    (hX : seqOf ((firstFragmentSeqNum stream).val + k) = seqOf X)
    (hle : stream.offset ≤ uxrGetReliableBufferSize stream.base (seqOf X)) :
    slotBody { layFragments stream bytes.length with
        base := storeChunks (stream.offset + subheaderSize) (layFragments stream bytes.length).base
          (firstFragmentSeqNum stream).val (heldSize stream 0 + subheaderSize)
          (cutPayloads stream bytes) } X =
      slotBody stream X ++ [] ++ submessageHeader submessageIdFragment
        (announcedFlags stream bytes.length k) (cutPayloads stream bytes)[k].length ++
          ((cutPayloads stream bytes)[k] ++ []) := by
  have hcount := hslots.length_cutPayloads hlength htakes
  have hk' : k ≤ necessaryCompleteBlocks stream bytes.length := by omega
  have hheld := hslots.bufferSize_eq hk'
  have hsize := (storeChunks_bufferSize (X := (firstFragmentSeqNum stream).val)
    (hslots.cutPayloads_fit hlength htakes) (seqOf X)).trans
      (hX ▸ hslots.layFragments_bufferSize hlength htakes hk')
  have hcontent := hslots.stored_slotBytes hlength htakes hoffset hfirst hk
  have hcut := hslots.length_getElem_cutPayloads hlength htakes hk
  have hofs := layFragments_offset stream bytes.length
  rw [hX] at hheld hcontent
  rw [hheld] at hle
  generalize layFragments stream bytes.length = laid at *
  unfold slotBody
  dsimp only
  rw [hsize, hofs, hheld, ← slotBytes_drop _ _ (by omega), hcontent, ← slotBytes_drop _ _ hle,
    List.append_nil, List.append_nil, hcut, List.append_assoc, List.append_assoc,
    List.drop_append_of_le_length (by rwa [length_slotBytes])]

/-- The other slots hold what they held before. -/
lemma slotBody_stored_of_not (hslots : FragmentSlots stream bytes.length)
    (hlength : LengthFits stream bytes.length) (htakes : TakesFragments stream bytes.length) {X : ℕ}
    (hnot : ¬ BlockSlots stream.base.history (firstFragmentSeqNum stream).val
      (necessaryCompleteBlocks stream bytes.length + 1) ((seqOf X).val % stream.base.history))
    (hroom : stream.offset + (uxrGetReliableBufferSize stream.base (seqOf X) - stream.offset) ≤
      uxrGetReliableBufferCapacity stream.base) :
    slotBody { layFragments stream bytes.length with
        base := storeChunks (stream.offset + subheaderSize) (layFragments stream bytes.length).base
          (firstFragmentSeqNum stream).val (heldSize stream 0 + subheaderSize)
          (cutPayloads stream bytes) } X = slotBody stream X := by
  have honly := layFragments_onlySlots (seqOf_self _).symm hslots.ready
  have hcount := hslots.length_cutPayloads hlength htakes
  have hfit := hslots.cutPayloads_fit hlength htakes
  have hstored := storeChunks_onlySlots (X := (firstFragmentSeqNum stream).val) hfit
  have hsizes := storeChunks_bufferSize (X := (firstFragmentSeqNum stream).val) hfit
  have hofs := layFragments_offset stream bytes.length
  generalize layFragments stream bytes.length = laid at *
  have hnot' : ¬ BlockSlots laid.base.history (firstFragmentSeqNum stream).val
      (cutPayloads stream bytes).length ((seqOf X).val % laid.base.history) := by
    rwa [hcount, honly.history_eq]
  unfold slotBody
  dsimp only
  rw [hsizes, honly.bufferSize_eq _ hnot, hofs, hstored.slotBytes_eq _ hnot',
    honly.slotBytes_eq _ hnot]
  · exact hroom
  · rwa [honly.capacity_eq]

end Stored

namespace SlotInvariant

variable {info : UxrSessionInfo} {st : SlotState} {a s w : ℕ}

/-- A submessage that needs several slots, with whatever stands behind its payload. -/
theorem writeStored (h : SlotInvariant info st a s w) {F : ℕ} {payload bytes : List UInt8}
    {submessageId mode : UInt8} (hbytes : bytes.length = submessageSize payload.length)
    (hstarts : submessageHeader submessageId (mode ||| 1) payload.length ++ payload <+: bytes)
    (hslots : FragmentSlots st.stream bytes.length) (hlength : LengthFits st.stream bytes.length)
    (htakes : TakesFragments st.stream bytes.length)
    (haligned : firstFragmentBufferSize st.stream % 4 = 0)
    (hF : firstFragmentSeqNum st.stream = seqOf F) (hwF : w ≤ F)
    (hused : ∀ X, w ≤ X → X < F →
      uxrGetReliableBufferSize st.stream.base (seqOf X) ≠ st.stream.offset)
    (hlast : F + necessaryCompleteBlocks st.stream bytes.length ≤ a + st.stream.base.history) :
    SlotInvariant info
      { st with
        stream := { layFragments st.stream bytes.length with
          base := storeChunks (st.stream.offset + subheaderSize)
            (layFragments st.stream bytes.length).base (firstFragmentSeqNum st.stream).val
            (heldSize st.stream 0 + subheaderSize) (cutPayloads st.stream bytes) }
        written := fun x =>
          if seqSteps (firstFragmentSeqNum st.stream) x ≤
              necessaryCompleteBlocks st.stream bytes.length then
            st.written x ++ [writtenFragment st.stream payload submessageId mode
              (seqSteps (firstFragmentSeqNum st.stream) x)]
          else st.written x } a s
      (F + necessaryCompleteBlocks st.stream bytes.length) := by
  have hhistory := st.stream.base.history_lt
  have hacknown := h.window.acknown_le
  have hsent := h.window.sent_lt
  have hoffset4 := h.offset_aligned
  have hposition : ∀ k, seqOf ((firstFragmentSeqNum st.stream).val + k) = seqOf (F + k) := by
    intro k
    rw [← uxrSeqNumAdd_seqOf, seqOf_self, hF, uxrSeqNumAdd_seqOf]
  have honly := layFragments_onlySlots (seqOf_self _).symm hslots.ready
  have hcount := hslots.length_cutPayloads hlength htakes
  have hcut := fun k hk => hslots.length_getElem_cutPayloads hlength htakes (k := k) hk
  have hfit := hslots.cutPayloads_fit hlength htakes
  have hstored := storeChunks_onlySlots (X := (firstFragmentSeqNum st.stream).val) hfit
  have hsizes := fun j => storeChunks_bufferSize (X := (firstFragmentSeqNum st.stream).val) hfit j
  have hwindow := h.window.layFragments hslots hlength htakes hF hwF hused hlast
  have hofs := layFragments_offset st.stream bytes.length
  constructor
  case offset_eq => exact (offset_withBase _ _).trans (hofs.trans h.offset_eq)
  case window => exact hwindow.withBase hstored.size_eq hstored.history_eq hsizes
  case slots =>
    intro X hX hX'
    dsimp only at hX' ⊢
    rw [hstored.history_eq, honly.history_eq] at hX'
    by_cases hin : F ≤ X ∧ X ≤ F + necessaryCompleteBlocks st.stream bytes.length
    · obtain ⟨k, rfl⟩ := Nat.exists_eq_add_of_le hin.1
      have hk : k < (cutPayloads st.stream bytes).length := by omega
      have hheld := hslots.bufferSize_eq (k := k) (by omega)
      rw [hposition] at hheld
      have hbody := slotBody_stored hslots hlength htakes hoffset4 haligned hk (hposition k)
        (h.window.offset_le (seqOf (F + k)))
      dsimp only at hbody
      have hsteps : seqSteps (firstFragmentSeqNum st.stream) (seqOf (F + k)) = k := by
        rw [hF]
        exact seqSteps_seqOf F (by omega)
      have haligned' : heldSize st.stream k % 4 = 0 := by
        unfold heldSize
        split
        · exact haligned
        · exact hoffset4
      rw [hbody, hsteps, if_pos (by omega)]
      refine (h.slots _ hX hX').snoc ?_ ?_ (Nat.zero_le _)
        (readsAs_writtenFragment hbytes hstarts hk (hcut k hk))
      · rw [slotBody, length_slotBytes, hheld]
        unfold alignmentGap
        rw [List.length_nil]
        omega
      · rw [hcut k hk]
        exact announcedSize_lt hslots hlength htakes k
    · have hout := lt_seqSteps (n := necessaryCompleteBlocks st.stream bytes.length)
        (show a < F by omega) (by omega) hX (by omega) (by omega)
      rw [← hF] at hout
      rw [if_neg (by omega)]
      have hnot : ¬ BlockSlots st.stream.base.history (firstFragmentSeqNum st.stream).val
          (necessaryCompleteBlocks st.stream bytes.length + 1)
          ((seqOf X).val % st.stream.base.history) := by
        rintro ⟨k, hk, heq⟩
        unfold slotOf at heq
        rw [hposition] at heq
        exact h.window.slot_ne hX hX' (by omega) (by omega) (by omega) heq
      have hbody := slotBody_stored_of_not hslots hlength htakes hnot
        (h.body_le (by have := hslots.room; omega) X)
      dsimp only at hbody
      rw [hbody]
      exact h.slots X hX hX'
  case beyond =>
    intro X hX hX'
    dsimp only at hX ⊢
    rw [hstored.history_eq, honly.history_eq] at hX
    have hout := lt_seqSteps (n := necessaryCompleteBlocks st.stream bytes.length)
      (show a < F by omega) (by omega) (show a < X by omega) hX' (.inr (by omega))
    rw [← hF] at hout
    rw [if_neg (Nat.not_le_of_lt hout)]
    exact h.beyond X hX hX'
  case sent =>
    dsimp only
    rw [hofs]
    exact h.sent

/-- A submessage that needs several slots, and for which enough slots are free, is read in
them. -/
theorem writeFragments (h : SlotInvariant info st a s w) {payload : List UInt8} (ub : UcdrBuffer)
    (submessageId mode : UInt8) (hpayload : payload.length ≤ 65535)
    (htakes : TakesFragments st.stream (submessageSize payload.length))
    (hfit : FragmentsFit st.stream (submessageSize payload.length))
    (haligned : WriteAligned st.stream payload.length) :
    ∃ r, writeSubmessage st.stream payload ub submessageId mode = some r ∧
      r.availableToWrite = true ∧ ∃ w', SlotInvariant info
        { st with
          stream := r.stream
          written := recordWrite st.stream r.stream payload submessageId mode st.written }
        a s w' := by
  have hle : submessageSize payload.length ≤ 65540 := by
    unfold submessageSize uxrSubmessagePadding subheaderSize
    split <;> omega
  unfold WriteAligned at haligned
  rw [if_pos htakes] at haligned
  obtain ⟨hroom, hfirst, hsplit, hlt⟩ := haligned
  have hlength : LengthFits st.stream (submessageSize payload.length) := ⟨hle, hlt⟩
  obtain ⟨hF, hwF, hlast, hslots⟩ := h.window.fragmentSlots hroom hfit
  have hused : ∀ X, w ≤ X → X < OutputWindow.firstFragment st.stream w →
      uxrGetReliableBufferSize st.stream.base (seqOf X) ≠ st.stream.offset := by
    intro X hX hXF
    unfold OutputWindow.firstFragment at hXF
    split at hXF
    · next hfull =>
      obtain rfl : X = w := by omega
      unfold currentSlotFull at hfull
      rw [h.window.lastWritten_eq] at hfull
      omega
    · omega
  obtain ⟨ub', bytes, hprepare, hbytes, hstarts, hstream⟩ :=
    serialize_fragments payload submessageId mode hslots hlength htakes hsplit
      payload.length ub
  have hsubmessage : prepareSubmessage st.stream payload.length ub =
      some ⟨true, ub', layFragments st.stream (submessageSize payload.length)⟩ := by
    unfold prepareSubmessage
    change uxrPrepareReliableBufferToWrite st.stream (sizeT (submessageSize payload.length)) ub = _
    rw [show sizeT (submessageSize payload.length) = submessageSize payload.length from
      Nat.mod_eq_of_lt (by omega), hprepare]
  have hstored := h.writeStored hbytes hstarts (by rwa [hbytes]) (by rwa [hbytes])
    (by rwa [hbytes]) hfirst hF hwF hused (by rwa [hbytes])
  have hrecord : ∀ stream', recordWrite st.stream stream' payload submessageId mode st.written =
      fun x => if seqSteps (firstFragmentSeqNum st.stream) x ≤
          necessaryCompleteBlocks st.stream bytes.length then
        st.written x ++ [writtenFragment st.stream payload submessageId mode
          (seqSteps (firstFragmentSeqNum st.stream) x)]
      else st.written x := by
    intro stream'
    funext x
    unfold recordWrite
    rw [if_pos htakes, hbytes]
  unfold writeSubmessage uxrPrepareStreamToWriteSubmessage
  rw [hsubmessage]
  refine ⟨_, rfl, rfl, OutputWindow.firstFragment st.stream w +
    necessaryCompleteBlocks st.stream bytes.length, ?_⟩
  simp only [if_true]
  rw [Nat.mod_eq_of_lt (show payload.length < 65536 by omega), hstream, hrecord]
  exact hstored

end SlotInvariant

end XrceDds
