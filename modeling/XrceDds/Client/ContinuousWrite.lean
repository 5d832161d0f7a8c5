import XrceDds.Client.OutputDrain
import XrceDds.Client.WriteAccess

/-!
# The continuous mode

A continuous write fills one slot after the other.  `Filling` says what the stream, the
slots that were left and the user's buffer look like when some bytes have been serialized;
`Filling.serialize` carries it from byte to byte, through the callback and through what
the flush callback does to the stream.
-/

namespace XrceDds

open ByteMemory

/-! ## Opening a block -/

/-- Where a slot holds nothing but the room for a session header, a block is opened behind
it. -/
lemma openBlock_eq (base : ReliableStream) (seqNum : UxrSeqNum) (fragmentSize : ℕ) (flags : UInt8)
    (halign : uxrGetReliableBufferSize base seqNum % 4 = 0)
    (hroom : uxrGetReliableBufferSize base seqNum + 4 ≤ uxrGetReliableBufferCapacity base) :
    ∃ ub, openBlock base seqNum fragmentSize flags =
        (uxrSetReliableBufferSize
          (base.store (uxrGetReliableBuffer base seqNum + uxrGetReliableBufferSize base seqNum)
            (submessageHeader submessageIdFragment (flags ||| 1) fragmentSize)) seqNum
          (uxrGetReliableBufferCapacity base), ub) ∧
      ub.iterator = uxrGetReliableBuffer base seqNum + uxrGetReliableBufferSize base seqNum + 4 ∧
      ub.final = uxrGetReliableBuffer base seqNum + uxrGetReliableBufferCapacity base := by
  have h := uxrBufferSubmessageHeader_of_room (fun st ub => (st, ub, true)) base
    (ucdrInitBufferOriginOffset (uxrGetReliableBuffer base seqNum)
      (uxrGetReliableBufferCapacity base) 0 (uxrGetReliableBufferSize base seqNum))
    submessageIdFragment flags fragmentSize rfl
    (by simpa [ucdrInitBufferOriginOffset] using halign) (Nat.zero_le _)
    (by simp only [ucdrInitBufferOriginOffset]; omega)
  unfold openBlock
  dsimp only
  rw [h]
  exact ⟨_, rfl, rfl, rfl⟩

/-- A block that was opened at the position `w` of a stream: the slots, and the temporary
buffer behind the header. -/
structure OpenedBlock (stream : OutputReliableStream) (w fragmentSize : ℕ) (flags : UInt8)
    (base : ReliableStream) (ub : UcdrBuffer) : Prop where
  layout : SameLayout stream (stream.writtenTo base (seqOf (w + 1)))
  written : WrittenUpTo (stream.writtenTo base (seqOf (w + 1))) (w + 1)
  size_eq : uxrGetReliableBufferSize base (seqOf w) = uxrGetReliableBufferCapacity stream.base
  header : slotBytes base (seqOf w) stream.offset 4 =
    submessageHeader submessageIdFragment (flags ||| 1) fragmentSize
  iterator_eq : ub.iterator = uxrGetReliableBuffer stream.base (seqOf w) + stream.offset + 4
  final_eq : ub.final =
    uxrGetReliableBuffer stream.base (seqOf w) + uxrGetReliableBufferCapacity stream.base

/-- A block is opened at an empty position of the window. -/
theorem openBlock_opened {stream : OutputReliableStream} {a s w : ℕ}
    (h : OutputWindow (stream.writtenTo stream.base (seqOf w)) a s w)
    (hw : w ≤ a + stream.base.history)
    (hsize : uxrGetReliableBufferSize stream.base (seqOf w) = stream.offset)
    (halign : stream.offset % 4 = 0) (fragmentSize : ℕ) (flags : UInt8) :
    ∃ base ub, openBlock stream.base (seqOf w) fragmentSize flags = (base, ub) ∧
      OpenedBlock stream w fragmentSize flags base ub := by
  have hcap := capacity_lt stream.base
  have hroom : stream.offset + 2 * 4 < uxrGetReliableBufferCapacity stream.base := h.room
  obtain ⟨ub, heq, hiterator, hfinal⟩ := openBlock_eq stream.base (seqOf w) fragmentSize flags
    (by rw [hsize]; exact halign) (by rw [hsize]; omega)
  rw [hsize] at heq hiterator
  obtain ⟨header, hheader⟩ : ∃ header, header =
      submessageHeader submessageIdFragment (flags ||| 1) fragmentSize := ⟨_, rfl⟩
  have hlen : header.length = 4 := by rw [hheader]; rfl
  rw [← hheader] at heq
  have hsizes : ∀ j, uxrGetReliableBufferSize
      (stream.base.store (uxrGetReliableBuffer stream.base (seqOf w) + stream.offset) header) j =
        uxrGetReliableBufferSize stream.base j := fun j =>
    uxrGetReliableBufferSize_store stream.base (i := seqOf w) (by omega) (by omega)
  have hbytes : slotBytes
      (stream.base.store (uxrGetReliableBuffer stream.base (seqOf w) + stream.offset) header)
      (seqOf w) stream.offset 4 = header := slotBytes_store_same stream.base hlen
  have hstored : OutputWindow
      { stream.writtenTo stream.base (seqOf w) with
        base := stream.base.store (uxrGetReliableBuffer stream.base (seqOf w) + stream.offset)
          header } a s w := h.withBase rfl rfl hsizes
  have hlayout : SameLayout stream (stream.writtenTo
      (stream.base.store (uxrGetReliableBuffer stream.base (seqOf w) + stream.offset) header)
      (seqOf (w + 1))) := ⟨rfl, rfl, rfl⟩
  generalize stream.base.store (uxrGetReliableBuffer stream.base (seqOf w) + stream.offset) header
    = base₁ at heq hsizes hbytes hstored hlayout
  have hcapacity : uxrGetReliableBufferCapacity base₁ = uxrGetReliableBufferCapacity stream.base :=
    hlayout.capacity_eq
  have hhistory : base₁.history = stream.base.history := hlayout.history_eq
  have hfilled : uxrGetReliableBufferSize
      (uxrSetReliableBufferSize base₁ (seqOf w) (uxrGetReliableBufferCapacity stream.base))
      (seqOf w) = uxrGetReliableBufferCapacity stream.base :=
    uxrGetReliableBufferSize_setSize_same _ (by omega)
  have hgrows : uxrGetReliableBufferSize base₁ (seqOf w) ≤
      uxrGetReliableBufferCapacity stream.base := by
    rw [hsizes, hsize]
    omega
  have hwritten := hstored.writeCurrent (show w ≤ a + base₁.history by omega) hgrows hcapacity.ge
  have hadvance := hwritten.advance (show w ≤ a + base₁.history by omega)
    (show stream.offset < uxrGetReliableBufferSize (uxrSetReliableBufferSize base₁ (seqOf w) _) _
      by rw [hfilled]; omega)
  refine ⟨_, ub, heq, ⟨hlayout.size_eq, hlayout.history_eq, rfl⟩, ⟨a, s, hadvance⟩, hfilled, ?_,
    hiterator, hfinal⟩
  rw [slotBytes_setSize _ (by omega), hbytes, hheader]

/-- Without a callback the beginning of a WRITE_DATA submessage is stored as far as there
is room for it, if there is room for its header. -/
lemma beginWriteData_truncates {σ : Type} [UcdrMemory σ] [LawfulUcdrMemory σ]
    (cb : OnFullBuffer σ) (st : σ) (ub : UcdrBuffer) (herror : ub.error = false)
    (hcallback : ub.onFullBuffer = false) (halign : (ub.offset - ub.origin) % 4 = 0)
    (horigin : ub.origin ≤ ub.offset) (hroom : ub.iterator + 4 ≤ ub.final)
    (hwindow : ub.final < ub.iterator + 18446744073709551616) (payloadSize : ℕ)
    (base : BaseObjectRequest) :
    ∃ ub', beginWriteData cb st ub payloadSize base =
        (UcdrMemory.store st ub.iterator
          ((submessageHeader submessageIdWriteData (formatData ||| 1) (payloadSize % 65536) ++
            base.requestId ++ base.objectId).take (ub.final - ub.iterator)), ub') ∧
      ub'.iterator = ub.iterator +
        min (4 + base.requestId.length + base.objectId.length) (ub.final - ub.iterator) ∧
      ub'.final = ub.final ∧ ub'.error = false := by
  have hheader := uxrBufferSubmessageHeader_of_room cb st ub submessageIdWriteData formatData
    (payloadSize % 65536) herror halign horigin hroom
  obtain ⟨header, hlen⟩ : ∃ header : List UInt8, header =
      submessageHeader submessageIdWriteData (formatData ||| 1) (payloadSize % 65536) := ⟨_, rfl⟩
  have hfour : header.length = 4 := by rw [hlen]; rfl
  obtain ⟨ub₁, heq, htook⟩ := ucdrSerializeArrayUint8_truncates_append cb base.requestId
    base.objectId (UcdrMemory.store st ub.iterator header)
    { ub.advance 4 2 with endianness := ucdrMachineEndianness } herror hcallback hroom
    (Nat.lt_of_lt_of_le hwindow (Nat.add_le_add_right (Nat.le_add_right _ _) _))
  obtain ⟨hiterator, hfinal, -, -⟩ := htook
  change _ = (UcdrMemory.store (UcdrMemory.store st ub.iterator header) (ub.iterator + 4)
    ((base.requestId ++ base.objectId).take (ub.final - (ub.iterator + 4))), ub₁) at heq
  change ub₁.iterator = ub.iterator + 4 +
    min (base.requestId ++ base.objectId).length (ub.final - (ub.iterator + 4)) at hiterator
  change ub₁.final = ub.final at hfinal
  have hstore := LawfulUcdrMemory.store_append st ub.iterator header
    ((base.requestId ++ base.objectId).take (ub.final - (ub.iterator + 4)))
  rw [hfour] at hstore
  have htake : (header ++ base.requestId ++ base.objectId).take (ub.final - ub.iterator) =
      header ++ (base.requestId ++ base.objectId).take (ub.final - (ub.iterator + 4)) := by
    rw [List.append_assoc, List.take_append, List.take_of_length_le (by omega), hfour, Nat.sub_sub]
  refine ⟨ucdrInitBuffer ub₁.iterator (ucdrBufferRemaining ub₁), ?_, ?_, ?_, rfl⟩
  · unfold beginWriteData
    rw [hheader, ← hlen, htake, ← hstore]
    simp only [uxrSerializeWriteDataPayloadData]
    rw [heq]
  · rw [List.length_append] at hiterator
    change ub₁.iterator = _
    omega
  · rw [List.length_append] at hiterator
    change ub₁.iterator + ucdrBufferRemaining ub₁ = _
    unfold ucdrBufferRemaining
    omega

/-! ## What a flush callback is for -/

/-- A flush callback that frees a slot whenever it is asked on a stream with the layout of
`stream₀`: it succeeds, by sending and by having acknowledged. -/
def FlushFrees (info : UxrSessionInfo) (streamIdRaw : UInt8) (stream₀ : OutputReliableStream)
    (flushCallback : UxrOnBuffersFull) : Prop :=
  ∀ stream, SameLayout stream₀ stream → OutputInvariant info stream →
    getAvailableFreeSlots stream = 0 →
      (flushCallback stream).2 = true ∧ getAvailableFreeSlots (flushCallback stream).1 ≠ 0 ∧
        Drains info streamIdRaw stream (flushCallback stream).1

section Flush

variable {info : UxrSessionInfo} {streamIdRaw : UInt8} {stream₀ stream : OutputReliableStream}
  {flushCallback : UxrOnBuffersFull}

/-- With such a callback there is always a free slot, after events that free slots. -/
lemma FlushFrees.freeSlots (hflush : FlushFrees info streamIdRaw stream₀ flushCallback)
    (hlayout : SameLayout stream₀ stream) (hinv : OutputInvariant info stream) :
    ∃ stream', freeSlotsOrFlush flushCallback stream = (stream', true) ∧
      getAvailableFreeSlots stream' ≠ 0 ∧ Drains info streamIdRaw stream stream' := by
  unfold freeSlotsOrFlush
  split
  · next hfull =>
    obtain ⟨hsuccess, hfree, hdrains⟩ := hflush stream hlayout hinv hfull
    exact ⟨_, by simp [hsuccess, hfree], hfree, hdrains⟩
  · next hfree => exact ⟨stream, rfl, hfree, .refl⟩

/-- Where a slot is free the position being filled is in the window, if nothing is there. -/
lemma WrittenUpTo.inWindow {w : ℕ} (h : WrittenUpTo stream w)
    (hfree : getAvailableFreeSlots stream ≠ 0) :
    ∃ a s, OutputWindow stream a s w ∧ w ≤ a + stream.base.history ∧
      uxrGetReliableBufferSize stream.base (seqOf w) = stream.offset := by
  obtain ⟨a, s, hwindow, hempty⟩ := h
  obtain ⟨X, hX, hX', -⟩ := hwindow.exists_empty hfree
  exact ⟨a, s, hwindow, by omega, hempty (by omega)⟩

/-- Where a slot is free a continuous write starts at a position of the window where
nothing is. -/
lemma OutputWindow.freshSlot {a s w : ℕ} (h : OutputWindow stream a s w)
    (hfree : getAvailableFreeSlots stream ≠ 0) :
    ∃ w', XrceDds.freshSlot stream = seqOf w' ∧
      OutputWindow (stream.writtenTo stream.base (seqOf w')) a s w' ∧
      w' ≤ a + stream.base.history ∧
      uxrGetReliableBufferSize stream.base (seqOf w') = stream.offset := by
  obtain ⟨X, hX, hX', hsize⟩ := h.exists_empty hfree
  unfold XrceDds.freshSlot
  rw [h.lastWritten_eq]
  split
  · next hused =>
    have hne : X ≠ w := by
      rintro rfl
      omega
    obtain ⟨hadvance, hempty⟩ := h.advance (by omega) hused
    exact ⟨w + 1, uxrSeqNumAdd_seqOf w 1, hadvance, by omega, hempty (by omega)⟩
  · next hunused =>
    have hcurrent := h.current (by omega)
    exact ⟨w, rfl, h.congr rfl rfl rfl rfl h.lastWritten_eq.symm, by omega, by omega⟩

end Flush

/-! ## Slots as they are left -/

/-- A session with the slots that its continuous write has left: the number of each, and
the message that it held when the next one was opened. -/
structure RecordedSession where
  session : WriteSession
  left : List (UxrSeqNum × List UInt8)

instance : UcdrMemory RecordedSession where
  store st address bytes := { st with session := UcdrMemory.store st.session address bytes }

instance : LawfulUcdrMemory RecordedSession where
  store_nil st a := by
    simp only [UcdrMemory.store, ReliableStream.store, ByteMemory.write_nil]
  store_append st a bs cs := by
    simp only [UcdrMemory.store, ReliableStream.store, ByteMemory.write_append]

/-- The slot of the block that was opened last, and the message in it. -/
def currentBlock (stream : OutputReliableStream) : UxrSeqNum × List UInt8 :=
  let seqNum := uxrSeqNumSub stream.lastWritten 1
  (seqNum, slotBytes stream.base seqNum 0 (uxrGetReliableBufferSize stream.base seqNum))

/-- A callback that records the slot it leaves. -/
def recordLeft (cb : OnFullBuffer WriteSession) : OnFullBuffer RecordedSession := fun st ub =>
  let r := cb st.session ub
  ({ session := r.1, left := st.left ++ [currentBlock st.session.stream] }, r.2)

section Blocks

variable (stream : OutputReliableStream)

/-- The number of bytes behind the header of a block. -/
def blockPayload : ℕ := uxrGetReliableBufferCapacity stream.base - (stream.offset + subheaderSize)

/-- The flags of a block that is opened when `m` bytes remain. -/
def blockFlags (m : ℕ) : UInt8 :=
  if m < uxrGetReliableBufferCapacity stream.base then flagLastFragment else 0

/-- `continuous_args.data_size` when `k` blocks were opened behind the first. -/
def dataSizeAt (m : ℕ) : ℕ → ℕ
  | 0 => m
  | k + 1 => sizeT (dataSizeAt m k + (18446744073709551616 - availableBlockSize stream))

/-- A message that is one block: a FRAGMENT that is opened when `m` bytes remain. -/
def BlockMessage (m : ℕ) (message payload : List UInt8) : Prop :=
  ∃ sessionHeader : List UInt8, sessionHeader.length = stream.offset ∧
    message = sessionHeader ++
      submessageHeader submessageIdFragment (blockFlags stream m ||| 1)
        (availableBlockSize stream) ++ payload

/-- Slots from the position `F` on hold blocks with the given payloads, the first of which
was opened when `m` bytes remained. -/
structure Blocks (F m : ℕ) (slots : List (UxrSeqNum × List UInt8))
    (payloads : List (List UInt8)) : Prop where
  length_eq : slots.length = payloads.length
  slot : ∀ k (hk : k < slots.length) (hk' : k < payloads.length),
    slots[k].1 = seqOf (F + k) ∧
      BlockMessage stream (dataSizeAt stream m k) slots[k].2 payloads[k]

/-- One more block. -/
lemma Blocks.concat {stream : OutputReliableStream} {F m : ℕ}
    {slots : List (UxrSeqNum × List UInt8)} {payloads : List (List UInt8)}
    (h : Blocks stream F m slots payloads) {slot : UxrSeqNum × List UInt8} {payload : List UInt8}
    (hnumber : slot.1 = seqOf (F + payloads.length))
    (hmessage : BlockMessage stream (dataSizeAt stream m payloads.length) slot.2 payload) :
    Blocks stream F m (slots ++ [slot]) (payloads ++ [payload]) := by
  have hlength := h.length_eq
  refine ⟨by simp [hlength], fun k hk hk' => ?_⟩
  rcases Nat.lt_or_ge k payloads.length with hlt | hge
  · rw [List.getElem_append_left (hlength ▸ hlt), List.getElem_append_left hlt]
    exact h.slot k (hlength ▸ hlt) hlt
  · obtain rfl : k = payloads.length := by
      rw [List.length_append, List.length_singleton] at hk'
      omega
    rw [List.getElem_append_right hge, List.getElem_append_right (Nat.le_of_eq hlength)]
    simp only [Nat.sub_self, hlength, List.getElem_singleton]
    exact ⟨hnumber, hmessage⟩

end Blocks

/-- A continuous write that started at the position `F` when `m` bytes remained, has left
blocks with the payloads `payloads`, and has `payload` in the block it is in. -/
structure Filling (info : UxrSessionInfo) (stream₀ : OutputReliableStream) (F m : ℕ)
    (st : RecordedSession) (ub : UcdrBuffer) (payloads : List (List UInt8))
    (payload : List UInt8) : Prop where
  layout : SameLayout stream₀ st.session.stream
  offset_eq : stream₀.offset = uxrSessionHeaderOffset info
  written : WrittenUpTo st.session.stream (F + payloads.length + 1)
  dataSize_eq : st.session.dataSize = dataSizeAt stream₀ m payloads.length
  size_eq : uxrGetReliableBufferSize st.session.stream.base (seqOf (F + payloads.length)) =
    uxrGetReliableBufferCapacity stream₀.base
  bytes : slotBytes st.session.stream.base (seqOf (F + payloads.length)) stream₀.offset
      (4 + payload.length) =
    submessageHeader submessageIdFragment (blockFlags stream₀ st.session.dataSize ||| 1)
      (availableBlockSize stream₀) ++ payload
  payload_le : payload.length ≤ blockPayload stream₀
  left : Blocks stream₀ F m st.left payloads
  full : ∀ p ∈ payloads, p.length = blockPayload stream₀
  iterator_eq : ub.iterator = uxrGetReliableBuffer stream₀.base (seqOf (F + payloads.length)) +
    (stream₀.offset + 4 + payload.length)
  final_eq : ub.final = uxrGetReliableBuffer stream₀.base (seqOf (F + payloads.length)) +
    uxrGetReliableBufferCapacity stream₀.base
  noError : ub.error = false
  callback : ub.onFullBuffer = true

namespace Filling

variable {info : UxrSessionInfo} {streamIdRaw : UInt8} {stream₀ : OutputReliableStream}
  {F m : ℕ} {st : RecordedSession} {ub : UcdrBuffer} {payloads : List (List UInt8)}
  {payload : List UInt8} {flushCallback : UxrOnBuffersFull}

/-- A block has a payload, and fills its slot with it. -/
lemma room (h : Filling info stream₀ F m st ub payloads payload) :
    4 < blockPayload stream₀ ∧
      stream₀.offset + 4 + blockPayload stream₀ = uxrGetReliableBufferCapacity stream₀.base := by
  obtain ⟨a, s, hwindow, -⟩ := h.written
  have hroom := hwindow.room
  rw [h.layout.capacity_eq, h.layout.offset_eq] at hroom
  unfold blockPayload
  simp only [subheaderSize] at *
  omega

/-- The block that is being filled, with whatever is behind its payload. -/
lemma currentBlock (h : Filling info stream₀ F m st ub payloads payload) :
    ∃ rest, payload.length + rest.length = blockPayload stream₀ ∧
      (XrceDds.currentBlock st.session.stream).1 = seqOf (F + payloads.length) ∧
      BlockMessage stream₀ (dataSizeAt stream₀ m payloads.length)
        (XrceDds.currentBlock st.session.stream).2 (payload ++ rest) := by
  obtain ⟨hpos, hfill⟩ := h.room
  have hle := h.payload_le
  have hlast : uxrSeqNumSub st.session.stream.lastWritten 1 = seqOf (F + payloads.length) := by
    obtain ⟨a, s, hwindow, -⟩ := h.written
    rw [hwindow.lastWritten_eq]
    exact uxrSeqNumSub_one _
  refine ⟨slotBytes st.session.stream.base (seqOf (F + payloads.length))
    (stream₀.offset + (4 + payload.length)) (blockPayload stream₀ - payload.length), ?_, hlast,
    slotBytes st.session.stream.base (seqOf (F + payloads.length)) 0 stream₀.offset,
    length_slotBytes _ _ _ _, ?_⟩
  · rw [length_slotBytes]
    omega
  · have hcut : uxrGetReliableBufferCapacity stream₀.base =
        stream₀.offset + (4 + payload.length + (blockPayload stream₀ - payload.length)) := by
      omega
    unfold XrceDds.currentBlock
    simp only [hlast, h.size_eq]
    rw [hcut, slotBytes_add, Nat.zero_add, slotBytes_add, h.bytes, h.dataSize_eq]
    simp only [List.append_assoc]

/-- A block that was just opened has no payload yet. -/
lemma of_opened {stream : OutputReliableStream} {base : ReliableStream} {tempUb : UcdrBuffer}
    (ub : UcdrBuffer) {left : List (UxrSeqNum × List UInt8)} (hlayout : SameLayout stream₀ stream)
    (hoffset : stream₀.offset = uxrSessionHeaderOffset info)
    (hopened : OpenedBlock stream (F + payloads.length) (availableBlockSize stream)
      (blockFlags stream₀ (dataSizeAt stream₀ m payloads.length)) base tempUb)
    (hleft : Blocks stream₀ F m left payloads)
    (hfull : ∀ p ∈ payloads, p.length = blockPayload stream₀) (lastRequestId : UInt16)
    (hiterator : ub.iterator = tempUb.iterator) (hfinal : ub.final = tempUb.final)
    (herror : ub.error = false) (hcallback : ub.onFullBuffer = true) :
    Filling info stream₀ F m
      { session :=
          { stream := stream.writtenTo base (seqOf (F + payloads.length + 1))
            lastRequestId := lastRequestId
            dataSize := dataSizeAt stream₀ m payloads.length }
        left := left } ub payloads [] where
  layout := hlayout.trans hopened.layout
  offset_eq := hoffset
  written := hopened.written
  dataSize_eq := rfl
  size_eq := by
    rw [← hlayout.capacity_eq]
    exact hopened.size_eq
  bytes := by
    rw [List.append_nil, ← hlayout.offset_eq, ← hlayout.availableBlockSize_eq]
    exact hopened.header
  payload_le := Nat.zero_le _
  left := hleft
  full := hfull
  iterator_eq := by
    rw [hiterator, hopened.iterator_eq, hlayout.buffer_eq, hlayout.offset_eq, Nat.add_assoc]
    rfl
  final_eq := by rw [hfinal, hopened.final_eq, hlayout.buffer_eq, hlayout.capacity_eq]
  noError := herror
  callback := hcallback

/-- Bytes go behind the payload where there is room for them. -/
lemma store (h : Filling info stream₀ F m st ub payloads payload) (bytes : List UInt8)
    (hfit : payload.length + bytes.length ≤ blockPayload stream₀) {ub' : UcdrBuffer}
    (hiterator : ub'.iterator = ub.iterator + bytes.length) (hfinal : ub'.final = ub.final)
    (herror : ub'.error = false) (hcallback : ub'.onFullBuffer = true) :
    Filling info stream₀ F m (UcdrMemory.store st ub.iterator bytes) ub' payloads
      (payload ++ bytes) := by
  obtain ⟨hpos, hfill⟩ := h.room
  have haddress : ub.iterator =
      uxrGetReliableBuffer st.session.stream.base (seqOf (F + payloads.length)) +
        (stream₀.offset + (4 + payload.length)) := by
    rw [h.iterator_eq, h.layout.buffer_eq, Nat.add_assoc stream₀.offset]
  have hend : stream₀.offset + (4 + payload.length) + bytes.length ≤
      uxrGetReliableBufferCapacity st.session.stream.base := by
    rw [h.layout.capacity_eq]
    omega
  have hsizes : ∀ j, uxrGetReliableBufferSize
      (st.session.stream.base.store ub.iterator bytes) j =
        uxrGetReliableBufferSize st.session.stream.base j := fun j =>
    uxrGetReliableBufferSize_store st.session.stream.base (i := seqOf (F + payloads.length))
      (by omega) (by omega)
  refine
    { offset_eq := h.offset_eq
      layout := ⟨h.layout.size_eq, h.layout.history_eq, h.layout.offset_eq⟩
      written := ?_
      dataSize_eq := h.dataSize_eq
      size_eq := (hsizes _).trans h.size_eq
      bytes := ?_
      payload_le := by rwa [List.length_append]
      left := h.left
      full := h.full
      iterator_eq := ?_
      final_eq := hfinal.trans h.final_eq
      noError := herror
      callback := hcallback }
  · obtain ⟨a, s, hwindow, hempty⟩ := h.written
    refine ⟨a, s, hwindow.withBase rfl rfl hsizes, fun hw => (hsizes _).trans (hempty hw)⟩
  · change slotBytes (st.session.stream.base.store ub.iterator bytes) _ _ _ = _
    rw [List.length_append, ← Nat.add_assoc, slotBytes_add, haddress,
      slotBytes_store_of_disjoint _ (.inl le_rfl), h.bytes, slotBytes_store_same _ rfl,
      List.append_assoc]
    rfl
  · rw [hiterator, h.iterator_eq, List.length_append]
    omega

/-- One byte goes behind the payload. -/
lemma storeByte (h : Filling info stream₀ F m st ub payloads payload)
    (hlt : payload.length < blockPayload stream₀) (b : UInt8) :
    Filling info stream₀ F m (UcdrMemory.store st ub.iterator [b]) (ub.advance 1 1) payloads
      (payload ++ [b]) :=
  h.store [b] hlt rfl rfl h.noError h.callback

/-- Where the block is full the callback leaves it and opens the next one. -/
lemma next (h : Filling info stream₀ F m st ub payloads payload)
    (hflush : FlushFrees info streamIdRaw stream₀ flushCallback)
    (hfull : payload.length = blockPayload stream₀) :
    ∃ st' ub', recordLeft (onFullOutputBufferFragmented flushCallback) st ub = (st', ub', false) ∧
      Filling info stream₀ F m st' ub' (payloads ++ [payload]) [] := by
  obtain ⟨hpos, hfill⟩ := h.room
  obtain ⟨rest, hrest, hnumber, hmessage⟩ := h.currentBlock
  obtain rfl : rest = [] := List.eq_nil_of_length_eq_zero (by omega)
  rw [List.append_nil] at hmessage
  have hleft := h.left.concat hnumber hmessage
  have hinv : OutputInvariant info st.session.stream := by
    obtain ⟨a, s, hwindow, -⟩ := h.written
    exact ⟨h.layout.offset_eq.trans h.offset_eq, a, s, _, hwindow⟩
  obtain ⟨stream, hstream, hfree, hdrains⟩ := hflush.freeSlots h.layout hinv
  have hlayout := h.layout.trans hdrains.sameLayout
  have hwritten := hdrains.writtenUpTo (h.layout.offset_eq.trans h.offset_eq) h.written
  have hnext : sizeT (st.session.dataSize + (18446744073709551616 - availableBlockSize stream)) =
      dataSizeAt stream₀ m (payloads.length + 1) := by
    rw [h.dataSize_eq, hlayout.availableBlockSize_eq, dataSizeAt]
  have hfull' : ∀ p ∈ payloads ++ [payload], p.length = blockPayload stream₀ := by
    intro p hp
    rcases List.mem_append.mp hp with hp | hp
    · exact h.full p hp
    · rw [List.mem_singleton.mp hp, hfull]
  have hcount : payloads.length + 1 = (payloads ++ [payload]).length := by simp
  rw [Nat.add_assoc, hcount] at hwritten
  rw [hcount] at hnext
  generalize payloads ++ [payload] = payloads' at hwritten hnext hleft hfull'
  obtain ⟨a, s, hwindow, hw, hsize⟩ := hwritten.inWindow hfree
  have hlast := hwindow.lastWritten_eq
  obtain ⟨base, tempUb, hopen, hopened⟩ := openBlock_opened
    (hwindow.congr rfl rfl rfl rfl hlast.symm) hw hsize
    (by
      rw [hlayout.offset_eq, h.offset_eq]
      exact uxrSessionHeaderOffset_aligned info) (availableBlockSize stream)
    (blockFlags stream₀ (dataSizeAt stream₀ m payloads'.length))
  have hcallback : onFullOutputBufferFragmented flushCallback st.session ub =
      ({ st.session with
          stream := stream.writtenTo base (seqOf (F + payloads'.length + 1))
          dataSize := dataSizeAt stream₀ m payloads'.length },
        ucdrSetOnFullBufferCallback
          (ucdrInitBuffer tempUb.iterator (ucdrBufferRemaining tempUb)), false) := by
    unfold onFullOutputBufferFragmented
    unfold blockFlags at hopen
    rw [hstream]
    dsimp only
    rw [hnext, hlast, hlayout.capacity_eq, hopen, uxrSeqNumAdd_seqOf]
  have hrecord : recordLeft (onFullOutputBufferFragmented flushCallback) st ub =
      ({ session :=
          { stream := stream.writtenTo base (seqOf (F + payloads'.length + 1))
            lastRequestId := st.session.lastRequestId
            dataSize := dataSizeAt stream₀ m payloads'.length }
         left := st.left ++ [XrceDds.currentBlock st.session.stream] },
        ucdrSetOnFullBufferCallback
          (ucdrInitBuffer tempUb.iterator (ucdrBufferRemaining tempUb)), false) := by
    unfold recordLeft
    rw [hcallback]
  refine ⟨_, _, hrecord,
    of_opened (ucdrSetOnFullBufferCallback _) hlayout h.offset_eq hopened hleft hfull'
      st.session.lastRequestId rfl ?_ rfl rfl⟩
  have hcap := capacity_lt stream.base
  have hfinal := hopened.final_eq
  have hiterator := hopened.iterator_eq
  have hroom : stream.offset + 2 * 4 < uxrGetReliableBufferCapacity stream.base := hwindow.room
  change tempUb.iterator + ucdrBufferRemaining tempUb = tempUb.final
  unfold ucdrBufferRemaining
  omega

/-- A buffer with room is ready. -/
lemma ready (h : Filling info stream₀ F m st ub payloads payload)
    (hlt : payload.length < blockPayload stream₀) : ub.Ready := by
  obtain ⟨hpos, hfill⟩ := h.room
  have hcap := capacity_lt stream₀.base
  have hiterator := h.iterator_eq
  have hfinal := h.final_eq
  exact ⟨h.noError, by omega, by omega⟩

/-- The bytes that the user serializes fill one block after the other. -/
theorem serialize (h : Filling info stream₀ F m st ub payloads payload)
    (hflush : FlushFrees info streamIdRaw stream₀ flushCallback) (bytes : List UInt8) :
    ∃ st' ub' payloads' payload',
      ucdrArrayToBuffer (recordLeft (onFullOutputBufferFragmented flushCallback)) bytes st ub =
          (st', ub') ∧
        Filling info stream₀ F m st' ub' payloads' payload' ∧
        payloads'.flatten ++ payload' = payloads.flatten ++ payload ++ bytes ∧
        (payload ≠ [] ∨ bytes ≠ [] → payload' ≠ []) := by
  induction bytes generalizing st ub payloads payload with
  | nil => exact ⟨st, ub, payloads, payload, rfl, h, by simp, by simp⟩
  | cons b bytes ih =>
    rcases Nat.lt_or_eq_of_le h.payload_le with hlt | hfull
    · obtain ⟨st', ub', payloads', payload', heq, hfilling, hflatten, hne⟩ :=
        ih (h.storeByte hlt b)
      refine ⟨st', ub', payloads', payload', ?_, hfilling, ?_, fun _ => hne (.inl (by simp))⟩
      · rw [ucdrArrayToBuffer_cons _ st (h.ready hlt), heq]
      · rw [hflatten]
        simp
    · obtain ⟨hpos, hfill⟩ := h.room
      obtain ⟨st₁, ub₁, hnext, h₁⟩ := h.next hflush hfull
      have hlt : ([] : List UInt8).length < blockPayload stream₀ := Nat.zero_lt_of_lt hpos
      have hready := h₁.ready hlt
      obtain ⟨st', ub', payloads', payload', heq, hfilling, hflatten, hne⟩ :=
        ih (h₁.storeByte hlt b)
      refine ⟨st', ub', payloads', payload', ?_, hfilling, ?_, fun _ => hne (.inl (by simp))⟩
      · have hiterator := h.iterator_eq
        have hfinal := h.final_eq
        rw [ucdrArrayToBuffer_full _ st ub h.noError h.callback (by omega) hnext hready
          (List.cons_ne_nil b bytes), ucdrArrayToBuffer_cons _ st₁ hready, heq]
      · rw [hflatten]
        simp

/-- The basic size of what was serialized last does not matter. -/
lemma setLastDataSize (h : Filling info stream₀ F m st ub payloads payload) (n : ℕ) :
    Filling info stream₀ F m st { ub with lastDataSize := n } payloads payload :=
  { h with
    iterator_eq := h.iterator_eq
    final_eq := h.final_eq
    noError := h.noError
    callback := h.callback }

end Filling

end XrceDds
