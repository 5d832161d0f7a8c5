import XrceDds.Client.ContinuousWrite

/-!
# When the continuous mode writes what the plain path writes

A continuous write leaves a run of FRAGMENT messages.  Their payloads are the WRITE_DATA
submessage of the plain path, and only the last of them says that it is the last, exactly
when `ContinuousFits`: the submessage has a length that its header can announce, its
beginning goes into the first block, it fills the last block up to padding, and what is in
the last block is not so little that the block before counts as the last, too.
-/

namespace XrceDds

/-- The user serializes arrays one after the other. -/
def serializePieces {σ : Type} [UcdrMemory σ] (cb : OnFullBuffer σ) :
    List (List UInt8) → σ → UcdrBuffer → σ × UcdrBuffer
  | [], st, ub => (st, ub)
  | piece :: pieces, st, ub =>
    let r := ucdrSerializeArrayUint8 cb st ub piece
    serializePieces cb pieces r.1 r.2

/-- The slots of a continuous write into which the user serializes the given pieces: the
number of each, and the message in it. -/
def continuousSlots (flushCallback : UxrOnBuffersFull) (session : WriteSession)
    (entityId : UxrObjectId) (ub : UcdrBuffer) (dataSize : ℕ) (pieces : List (List UInt8)) :
    List (UxrSeqNum × List UInt8) :=
  let r := uxrPrepareOutputStreamFragmented flushCallback session entityId ub dataSize
  let st := (serializePieces (recordLeft (onFullOutputBufferFragmented flushCallback)) pieces
    { session := r.session, left := [] } r.ub).1
  st.left ++ [currentBlock st.session.stream]

/-- Messages with consecutive numbers are FRAGMENTs behind the room for a session header, of
which the last only says that it is the last, and whose payloads are a WRITE_DATA
submessage, with a header that tells its length and nothing but padding behind it. -/
structure ReceivesWriteData (offset : ℕ) (requestId : UInt16) (entityId : UxrObjectId)
    (data : List UInt8) (slots : List (UxrSeqNum × List UInt8)) : Prop where
  trueLength : writeDataPayloadSize + data.length < 65536
  fragments : ∃ (first : UxrSeqNum) (payloads : List (List UInt8)) (padding : List UInt8),
    payloads.length = slots.length ∧
    payloads.flatten = writeDataSubmessage requestId entityId data ++ padding ∧
    padding.length ≤ uxrSubmessagePadding (writeDataSubmessage requestId entityId data).length ∧
    ∀ k (hk : k < slots.length) (hk' : k < payloads.length),
      slots[k].1 = uxrSeqNumAdd first k ∧ payloads[k].length < 65536 ∧
        ∃ sessionHeader : List UInt8, sessionHeader.length = offset ∧
          slots[k].2 = sessionHeader ++
            submessageHeader submessageIdFragment
              (if k + 1 = slots.length then flagLastFragment ||| 1 else 1) payloads[k].length ++
            payloads[k]

/-- A continuous write that is prepared with success and into which the user serializes
exactly `dataSize` bytes gives the stream the WRITE_DATA submessage of the plain path. -/
def ContinuousAgrees (flushCallback : UxrOnBuffersFull) (session : WriteSession)
    (entityId : UxrObjectId) (ub : UcdrBuffer) (dataSize : ℕ) : Prop :=
  (uxrPrepareOutputStreamFragmented flushCallback session entityId ub dataSize).requestId ≠
      uxrInvalidRequestId →
    ∀ pieces : List (List UInt8), pieces.flatten.length = dataSize →
      ReceivesWriteData session.stream.offset
        (uxrPrepareOutputStreamFragmented flushCallback session entityId ub dataSize).requestId
        entityId pieces.flatten
        (continuousSlots flushCallback session entityId ub dataSize pieces)

/-- The number of blocks that `n` bytes take. -/
def blockCount (stream : OutputReliableStream) (n : ℕ) : ℕ :=
  (n + blockPayload stream - 1) / blockPayload stream

/-- The sizes for which the continuous mode writes what the plain path writes. -/
structure ContinuousFits (stream : OutputReliableStream) (dataSize : ℕ) : Prop where
  length_lt : writeDataPayloadSize + dataSize < 65536
  begins : 8 ≤ blockPayload stream
  payload_lt : blockPayload stream < 65536
  fills : blockCount stream (8 + dataSize) * blockPayload stream ≤
    8 + dataSize + uxrSubmessagePadding (8 + dataSize)
  last : blockCount stream (8 + dataSize) = 1 ∨
    stream.offset + subheaderSize ≤
      8 + dataSize - (blockCount stream (8 + dataSize) - 1) * blockPayload stream

instance (stream : OutputReliableStream) (dataSize : ℕ) :
    Decidable (ContinuousFits stream dataSize) :=
  decidable_of_iff
    (writeDataPayloadSize + dataSize < 65536 ∧ 8 ≤ blockPayload stream ∧
      blockPayload stream < 65536 ∧
      blockCount stream (8 + dataSize) * blockPayload stream ≤
        8 + dataSize + uxrSubmessagePadding (8 + dataSize) ∧
      (blockCount stream (8 + dataSize) = 1 ∨
        stream.offset + subheaderSize ≤
          8 + dataSize - (blockCount stream (8 + dataSize) - 1) * blockPayload stream))
    ⟨fun ⟨h₁, h₂, h₃, h₄, h₅⟩ => ⟨h₁, h₂, h₃, h₄, h₅⟩,
      fun ⟨h₁, h₂, h₃, h₄, h₅⟩ => ⟨h₁, h₂, h₃, h₄, h₅⟩⟩

/-! ## The beginning of a continuous write -/

/-- What stands before the data of a WRITE_DATA submessage with `dataSize` bytes of data. -/
def writeDataBeginning (requestId : UInt16) (entityId : UxrObjectId) (dataSize : ℕ) :
    List UInt8 :=
  submessageHeader submessageIdWriteData (formatData ||| 1) (writeDataPayloadSize + dataSize) ++
    (uxrInitBaseObjectRequest requestId entityId).requestId ++
    (uxrInitBaseObjectRequest requestId entityId).objectId

@[simp] lemma length_writeDataBeginning (requestId : UInt16) (entityId : UxrObjectId)
    (dataSize : ℕ) : (writeDataBeginning requestId entityId dataSize).length = 8 := rfl

/-- A header announces a length modulo `2 ^ 16`. -/
lemma submessageHeader_mod (id flags : UInt8) (n : ℕ) :
    submessageHeader id flags (n % 65536) = submessageHeader id flags n := by
  have hlow : UInt8.ofNat (n % 65536) = UInt8.ofNat n := by
    rw [← UInt8.toNat_inj]
    simp only [UInt8.toNat_ofNat']
    omega
  have hhigh : UInt8.ofNat (n % 65536 / 256) = UInt8.ofNat (n / 256) := by
    rw [← UInt8.toNat_inj]
    simp only [UInt8.toNat_ofNat']
    omega
  unfold submessageHeader
  rw [hlow, hhigh]

/-! ## The plain path -/

/-- Where there is room for it the plain path stores a WRITE_DATA submessage in one piece:
what it writes itself, and the data that the user serializes behind it. -/
lemma writeData_of_room (stream : OutputReliableStream) (X o : ℕ) {len : ℕ} (halign : o % 4 = 0)
    (hlen : len < 18446744073709551616) (requestId : UInt16) (entityId : UxrObjectId)
    (data : List UInt8) (hroom : 8 + data.length ≤ len) {w : OutputReliableStream × UcdrBuffer}
    (hw : w = beginWriteData onFullOutputBuffer stream
      (ucdrInitBufferOriginOffset (uxrGetReliableBuffer stream.base X) (o + len) 0 o)
      (writeDataPayloadSize + data.length) (uxrInitBaseObjectRequest requestId entityId)) :
    slotBytes (ucdrSerializeArrayUint8 onFullOutputBuffer w.1
        { w.2 with onFullBuffer := false } data).1.base X o (8 + data.length) =
      writeDataSubmessage requestId entityId data := by
  subst hw
  suffices hstore : (ucdrSerializeArrayUint8 onFullOutputBuffer _ _ data).1 =
      UcdrMemory.store stream (uxrGetReliableBuffer stream.base X + o)
        (writeDataSubmessage requestId entityId data) by
    rw [hstore]
    exact slotBytes_store_same stream.base (length_writeDataSubmessage requestId entityId data)
  generalize uxrGetReliableBuffer stream.base X = start
  have hspace : start + (o + len) - (start + o) = len := by omega
  obtain ⟨ub', hbegin, hiterator, hfinal, herror⟩ := beginWriteData_truncates onFullOutputBuffer
    stream (ucdrInitBufferOriginOffset start (o + len) 0 o) rfl rfl
    (show (0 + o - 0) % 4 = 0 by rwa [Nat.zero_add, Nat.sub_zero]) (Nat.zero_le _)
    (show start + o + 4 ≤ start + (o + len) by omega)
    (show start + (o + len) < start + o + _ by omega) (writeDataPayloadSize + data.length)
    (uxrInitBaseObjectRequest requestId entityId)
  change ub'.iterator = start + o + min 8 (start + (o + len) - (start + o)) at hiterator
  change ub'.final = start + (o + len) at hfinal
  change _ = (UcdrMemory.store stream (start + o)
    (List.take (start + (o + len) - (start + o)) _), ub') at hbegin
  rw [hspace] at hiterator
  rw [hspace, submessageHeader_mod] at hbegin
  change _ = (UcdrMemory.store stream (start + o)
    ((writeDataBeginning requestId entityId data.length).take len), ub') at hbegin
  rw [List.take_of_length_le (by rw [length_writeDataBeginning]; omega)] at hbegin
  obtain ⟨ub₂, hdata, -⟩ := ucdrSerializeArrayUint8_truncates onFullOutputBuffer data
    (UcdrMemory.store stream (start + o) (writeDataBeginning requestId entityId data.length))
    { ub' with onFullBuffer := false } herror rfl (show ub'.iterator ≤ ub'.final by omega)
    (show ub'.final < ub'.iterator + _ by omega)
  change _ = (UcdrMemory.store _ ub'.iterator (data.take (ub'.final - ub'.iterator)), ub₂) at hdata
  rw [hbegin, hdata, List.take_of_length_le (by omega),
    show ub'.iterator = start + o + (writeDataBeginning requestId entityId data.length).length by
      rw [length_writeDataBeginning]; omega, LawfulUcdrMemory.store_append]
  rfl

/-- A write of the plain path that needs no fragments puts a WRITE_DATA submessage into one
slot, when it is accepted and the user has serialized his data. -/
theorem plainWrite_submessage {info : UxrSessionInfo} {session : WriteSession}
    (hinv : OutputInvariant info session.stream) (entityId : UxrObjectId) (ub : UcdrBuffer)
    (data : List UInt8)
    (haligned : uxrGetReliableBufferSize session.stream.base session.stream.lastWritten % 4 = 0)
    (hlength : uxrGetReliableBufferCapacity session.stream.base + (12 + data.length) <
      18446744073709551616)
    (hplain : ¬ TakesFragments session.stream
      (8 + data.length + uxrSubmessagePadding (writeDataPayloadSize + data.length))) :
    ∃ r, uxrPrepareOutputStream session entityId ub data.length = some r ∧
      (r.requestId ≠ uxrInvalidRequestId → ∃ X o,
        slotBytes (ucdrSerializeArrayUint8 onFullOutputBuffer r.session.stream r.ub data).1.base X o
          (8 + data.length) = writeDataSubmessage r.requestId entityId data) := by
  obtain ⟨hoffset, a, s, w, hwindow⟩ := hinv
  have hpad : uxrSubmessagePadding (writeDataPayloadSize + data.length) < 4 := by
    unfold uxrSubmessagePadding
    split
    · next hne => exact Nat.sub_lt (by decide) (Nat.pos_of_ne_zero hne)
    · decide
  have hsize : sizeT (subheaderSize + (writeDataPayloadSize + data.length) +
      uxrSubmessagePadding (writeDataPayloadSize + data.length)) =
      8 + data.length + uxrSubmessagePadding (writeDataPayloadSize + data.length) := by
    generalize uxrSubmessagePadding (writeDataPayloadSize + data.length) = pad at hpad ⊢
    unfold sizeT
    simp only [subheaderSize, writeDataPayloadSize]
    omega
  obtain ⟨len, hlen⟩ : ∃ n, n = 8 + data.length +
      uxrSubmessagePadding (writeDataPayloadSize + data.length) := ⟨_, rfl⟩
  rw [← hlen] at hsize hplain
  obtain ⟨r, hr, hwrite⟩ := hwindow.prepare_plain ub (by omega) hplain
  -- what fits in a slot is counted in 32 bits
  have hcount : (writeDataPayloadSize + data.length) % 4294967296 =
      writeDataPayloadSize + data.length := by
    have hcap := capacity_lt session.stream.base
    have hused := (hwindow.bufferSize_bounds session.stream.lastWritten).2
    have hroom := hwindow.room
    unfold TakesFragments sizeT at hplain
    simp only [writeDataPayloadSize]
    omega
  unfold uxrPrepareOutputStream prepareSubmessage
  dsimp only
  rw [hcount, hsize, hr]
  refine ⟨_, rfl, ?_⟩
  rw [hwindow.lastWritten_eq] at haligned
  have halign : session.stream.offset % 4 = 0 := by
    rw [hoffset]
    exact uxrSessionHeaderOffset_aligned info
  cases hwrite with
  | refused => exact fun hne => absurd rfl hne
  | current hfits hin =>
    exact fun _ => ⟨seqOf w, _, writeData_of_room
      (session.stream.writtenTo (uxrSetReliableBufferSize session.stream.base (seqOf w) _)
        (seqOf w))
      (seqOf w) _ haligned (by omega) _ entityId data (by omega) rfl⟩
  | next hfull hfits hin =>
    exact fun _ => ⟨seqOf (w + 1), _, writeData_of_room
      (session.stream.writtenTo (uxrSetReliableBufferSize session.stream.base (seqOf (w + 1)) _)
        (seqOf (w + 1))) (seqOf (w + 1)) _ halign (by omega) _ entityId data (by omega) rfl⟩

section Prepare

variable {info : UxrSessionInfo} {streamIdRaw : UInt8} {session : WriteSession}
  {flushCallback : UxrOnBuffersFull}

/-- A continuous write starts by filling a block with the beginning of the submessage. -/
theorem prepare_filling (hinv : OutputInvariant info session.stream)
    (hflush : FlushFrees info streamIdRaw session.stream flushCallback) (entityId : UxrObjectId)
    (ub : UcdrBuffer) (dataSize : ℕ) :
    ∃ F ub' session',
      uxrPrepareOutputStreamFragmented flushCallback session entityId ub dataSize =
          { requestId := generateRequestId session.lastRequestId
            ub := ub'
            session := session' } ∧
        Filling info session.stream F (sizeT (dataSize + 8)) { session := session', left := [] } ub'
          [] ((writeDataBeginning (generateRequestId session.lastRequestId) entityId dataSize).take
            (blockPayload session.stream)) := by
  have halign : session.stream.offset % 4 = 0 := by
    rw [hinv.1]
    exact uxrSessionHeaderOffset_aligned info
  obtain ⟨stream, hstream, hfree, hdrains⟩ := hflush.freeSlots (.refl _) hinv
  have hlayout := hdrains.sameLayout
  obtain ⟨-, a, s, w, hwindow⟩ := hdrains.invariant hinv
  obtain ⟨F, hfresh, hF, hin, hsize⟩ := hwindow.freshSlot hfree
  obtain ⟨base, tempUb, hopen, hopened⟩ := openBlock_opened hF hin hsize
    (by rw [hlayout.offset_eq]; exact halign) (availableBlockSize stream)
    (blockFlags session.stream (sizeT (dataSize + 8)))
  have hroom : stream.offset + 2 * 4 < uxrGetReliableBufferCapacity stream.base := hwindow.room
  have hcap := capacity_lt stream.base
  have hpayload : blockPayload stream = blockPayload session.stream := by
    unfold blockPayload
    rw [hlayout.capacity_eq, hlayout.offset_eq]
  have hspace : u32Sub (uxrGetReliableBufferCapacity stream.base) (stream.offset + subheaderSize) =
      blockPayload session.stream := by
    rw [← hpayload]
    unfold u32Sub blockPayload
    simp only [subheaderSize]
    omega
  have hpos : 4 < blockPayload session.stream := by
    rw [← hpayload]
    unfold blockPayload
    simp only [subheaderSize]
    omega
  obtain ⟨start, hstart⟩ : ∃ x, x = uxrGetReliableBuffer stream.base (seqOf F) + stream.offset +
      subheaderSize := ⟨_, rfl⟩
  obtain ⟨requestId, hrequest⟩ : ∃ x, x = generateRequestId session.lastRequestId := ⟨_, rfl⟩
  rw [← hrequest]
  have hbyteCount : start + blockPayload session.stream - start = blockPayload session.stream :=
    Nat.add_sub_cancel_left _ _
  have hmod : sizeT (writeDataPayloadSize + dataSize) % 65536 =
      (writeDataPayloadSize + dataSize) % 65536 := by
    unfold sizeT
    omega
  obtain ⟨ub', hbegin, hiterator, hfinal, herror⟩ := beginWriteData_truncates
    (fun st ub => (st, ub, true)) (stream.writtenTo base (seqOf (F + 1)))
    (ucdrInitBuffer start (blockPayload session.stream)) rfl rfl rfl (Nat.zero_le _)
    (Nat.add_le_add_left (Nat.le_of_lt hpos) _)
    (show start + blockPayload session.stream < start + 18446744073709551616 by
      rw [← hpayload]
      unfold blockPayload
      omega)
    (sizeT (writeDataPayloadSize + dataSize)) (uxrInitBaseObjectRequest requestId entityId)
  change ub'.iterator = start + min 8 (start + blockPayload session.stream - start) at hiterator
  change ub'.final = start + blockPayload session.stream at hfinal
  change _ = (UcdrMemory.store (stream.writtenTo base (seqOf (F + 1))) start
    (List.take (start + blockPayload session.stream - start) _), ub') at hbegin
  rw [hbyteCount, hmod, submessageHeader_mod] at hbegin
  rw [hbyteCount] at hiterator
  change _ = (UcdrMemory.store _ start ((writeDataBeginning requestId entityId dataSize).take
    (blockPayload session.stream)), ub') at hbegin
  have h₀ : Filling info session.stream F (sizeT (dataSize + 8))
      { session :=
          { stream := stream.writtenTo base (seqOf (F + 1))
            lastRequestId := requestId
            dataSize := sizeT (dataSize + 8) }
        left := [] }
      (ucdrSetOnFullBufferCallback (ucdrInitBuffer start (blockPayload session.stream))) [] [] := by
    refine @Filling.of_opened info session.stream F (sizeT (dataSize + 8)) [] stream base tempUb _
      [] hlayout hinv.1 hopened ⟨rfl, fun k hk => absurd hk (Nat.not_lt_zero k)⟩
      (fun p hp => absurd hp List.not_mem_nil) requestId ?_ ?_ rfl rfl
    · rw [hopened.iterator_eq, hstart]
      rfl
    · change start + blockPayload session.stream = _
      rw [hopened.final_eq, hstart, ← hpayload]
      unfold blockPayload
      simp only [subheaderSize]
      omega
  refine ⟨F, ucdrSetOnFullBufferCallback ub', _, ?_,
    h₀.store ((writeDataBeginning requestId entityId dataSize).take (blockPayload session.stream))
      ?_ ?_ ?_ herror rfl⟩
  · unfold uxrPrepareOutputStreamFragmented
    rw [hstream]
    dsimp only
    unfold blockFlags at hopen
    rw [hfresh, hsize, hspace, ← hstart, ← hrequest, uxrSeqNumAdd_seqOf,
      show sizeT (dataSize + subheaderSize + writeDataPayloadSize) = sizeT (dataSize + 8) from rfl,
      hlayout.capacity_eq, hopen, hbegin]
    rfl
  · rw [List.length_take, List.length_nil]
    omega
  · change ub'.iterator = start + _
    rw [hiterator, List.length_take, length_writeDataBeginning, Nat.min_comm]
  · exact hfinal

/-- The arrays that the user serializes fill one block after the other. -/
lemma Filling.serializePieces {stream₀ : OutputReliableStream} {F m : ℕ} {st : RecordedSession}
    {ub : UcdrBuffer} {payloads : List (List UInt8)} {payload : List UInt8}
    (h : Filling info stream₀ F m st ub payloads payload) (hne : payload ≠ [])
    (hflush : FlushFrees info streamIdRaw stream₀ flushCallback) (pieces : List (List UInt8)) :
    ∃ st' ub' payloads' payload',
      XrceDds.serializePieces (recordLeft (onFullOutputBufferFragmented flushCallback)) pieces st
          ub = (st', ub') ∧
        Filling info stream₀ F m st' ub' payloads' payload' ∧
        payloads'.flatten ++ payload' = payloads.flatten ++ payload ++ pieces.flatten ∧
        payload' ≠ [] := by
  induction pieces generalizing st ub payloads payload with
  | nil => exact ⟨st, ub, payloads, payload, rfl, h, by simp, hne⟩
  | cons piece pieces ih =>
    obtain ⟨st₁, ub₁, payloads₁, payload₁, heq₁, h₁, hflatten₁, hne₁⟩ := h.serialize hflush piece
    obtain ⟨st', ub', payloads', payload', heq, h', hflatten, hne'⟩ :=
      ih (h₁.setLastDataSize 1) (hne₁ (.inl hne))
    refine ⟨st', ub', payloads', payload', ?_, h', ?_, hne'⟩
    · unfold XrceDds.serializePieces ucdrSerializeArrayUint8
      rw [heq₁]
      exact heq
    · rw [hflatten, hflatten₁, List.flatten_cons]
      simp only [List.append_assoc]

/-- What a continuous write leaves: blocks whose payloads are the beginning of the
submessage, the bytes that the user serialized, and whatever is behind them in the last
slot. -/
theorem continuousSlots_blocks (hinv : OutputInvariant info session.stream)
    (hflush : FlushFrees info streamIdRaw session.stream flushCallback) (entityId : UxrObjectId)
    (ub : UcdrBuffer) (dataSize : ℕ) (pieces : List (List UInt8)) :
    ∃ F payloads rest,
      Blocks session.stream F (sizeT (dataSize + 8))
          (continuousSlots flushCallback session entityId ub dataSize pieces) payloads ∧
        (∀ p ∈ payloads, p.length = blockPayload session.stream) ∧
        payloads.flatten =
          (writeDataBeginning (generateRequestId session.lastRequestId) entityId dataSize).take
            (blockPayload session.stream) ++ pieces.flatten ++ rest ∧
        rest.length < blockPayload session.stream := by
  obtain ⟨F, ub₁, session₁, hprepare, h₁⟩ := prepare_filling hinv hflush entityId ub dataSize
  obtain ⟨hpos, -⟩ := h₁.room
  have hne : (writeDataBeginning (generateRequestId session.lastRequestId) entityId dataSize).take
      (blockPayload session.stream) ≠ [] := by
    rw [← List.length_pos_iff_ne_nil, List.length_take, length_writeDataBeginning]
    omega
  obtain ⟨st, ub', payloads, payload, hserialize, h, hflatten, hne'⟩ :=
    h₁.serializePieces hne hflush pieces
  obtain ⟨rest, hrest, hnumber, hmessage⟩ := h.currentBlock
  have hpayload := List.length_pos_iff_ne_nil.mpr hne'
  refine ⟨F, payloads ++ [payload ++ rest], rest, ?_, ?_, ?_, by omega⟩
  · unfold continuousSlots
    rw [hprepare]
    dsimp only
    rw [hserialize]
    exact h.left.concat hnumber hmessage
  · intro p hp
    rcases List.mem_append.mp hp with hp | hp
    · exact h.full p hp
    · rw [List.mem_singleton.mp hp, List.length_append, hrest]
  · rw [List.flatten_append, List.flatten_singleton, ← List.append_assoc, hflatten,
      List.flatten_nil, List.nil_append]

/-- After a continuous write the positions and slots of the stream are in order, as they are
in every run. -/
theorem continuous_invariant (hinv : OutputInvariant info session.stream)
    (hflush : FlushFrees info streamIdRaw session.stream flushCallback) (entityId : UxrObjectId)
    (ub : UcdrBuffer) (dataSize : ℕ) (pieces : List (List UInt8)) :
    OutputInvariant info
      (serializePieces (recordLeft (onFullOutputBufferFragmented flushCallback)) pieces
        { session :=
            (uxrPrepareOutputStreamFragmented flushCallback session entityId ub dataSize).session
          left := [] }
        (uxrPrepareOutputStreamFragmented flushCallback session entityId ub
          dataSize).ub).1.session.stream := by
  obtain ⟨F, ub₁, session₁, hprepare, h₁⟩ := prepare_filling hinv hflush entityId ub dataSize
  obtain ⟨hpos, -⟩ := h₁.room
  have hne : (writeDataBeginning (generateRequestId session.lastRequestId) entityId dataSize).take
      (blockPayload session.stream) ≠ [] := by
    rw [← List.length_pos_iff_ne_nil, List.length_take, length_writeDataBeginning]
    omega
  obtain ⟨st, ub', payloads, payload, hserialize, h, -⟩ := h₁.serializePieces hne hflush pieces
  rw [hprepare]
  dsimp only
  rw [hserialize]
  obtain ⟨a, s, hwindow, -⟩ := h.written
  exact ⟨h.layout.offset_eq.trans hinv.1, a, s, _, hwindow⟩

end Prepare

/-! ## Agreement -/

/-- Payloads of `c` bytes each have `n * c` bytes together. -/
lemma length_flatten_of_length_eq {payloads : List (List UInt8)} {c : ℕ}
    (h : ∀ p ∈ payloads, p.length = c) : payloads.flatten.length = payloads.length * c := by
  rw [List.length_flatten, List.map_congr_left h, List.map_const', List.sum_replicate_nat]

/-- Messages that start with session headers of one length and go on with a submessage
header have the same flags and the same payload if they are the same. -/
lemma message_inj {sessionHeader sessionHeader' payload payload' : List UInt8}
    (hlen : sessionHeader.length = sessionHeader'.length) {id flags flags' : UInt8} {n n' : ℕ}
    (h : sessionHeader ++ submessageHeader id flags n ++ payload =
      sessionHeader' ++ submessageHeader id flags' n' ++ payload') :
    flags = flags' ∧ payload = payload' := by
  rw [List.append_assoc, List.append_assoc] at h
  obtain ⟨hheader, hpayload⟩ := List.append_inj (List.append_inj_right h hlen) rfl
  refine ⟨?_, hpayload⟩
  unfold submessageHeader at hheader
  simp only [List.cons.injEq] at hheader
  exact hheader.2.1

/-- The number of blocks, when the last one has a part that is not used. -/
lemma blockCount_eq {stream : OutputReliableStream} {n total rest : ℕ}
    (h : n * blockPayload stream = total + rest) (hrest : rest < blockPayload stream) :
    blockCount stream total = n := by
  unfold blockCount
  apply Nat.div_eq_of_lt_le
  · omega
  · rw [Nat.succ_mul]
    omega

/-- What remains when `k` blocks were opened behind the first. -/
lemma dataSizeAt_eq {stream : OutputReliableStream} {total : ℕ}
    (hblock : availableBlockSize stream = blockPayload stream)
    (hpayload : blockPayload stream < 65536) (htotal : total < 18446744073709551616) {k : ℕ}
    (hk : k * blockPayload stream ≤ total) :
    dataSizeAt stream total k = total - k * blockPayload stream := by
  induction k with
  | zero => simp [dataSizeAt]
  | succ k ih =>
    rw [Nat.succ_mul] at hk ⊢
    rw [dataSizeAt, ih (by omega), hblock]
    unfold sizeT
    omega

/-- Blocks announce their payload modulo `2 ^ 16`. -/
lemma availableBlockSize_eq {stream : OutputReliableStream}
    (h : stream.offset + subheaderSize ≤ uxrGetReliableBufferCapacity stream.base) :
    availableBlockSize stream = blockPayload stream % 65536 := by
  unfold availableBlockSize blockPayload u16Sub
  omega

/-- The last of `n` blocks is the only one that is opened when less than a slot remains,
unless there is so little in the last one that the block before is such a one, too. -/
lemma remains_lt_iff {n b c o total rest : ℕ} (hcap : o + b = c) (hpos : 0 < o)
    (htotal : n * b = total + rest) (hrest : rest < b) (hn : 0 < n) :
    (∀ k < n, (total - k * b < c ↔ k + 1 = n)) ↔ n = 1 ∨ o ≤ total - (n - 1) * b := by
  obtain ⟨n, rfl⟩ := Nat.exists_eq_succ_of_ne_zero hn.ne'
  rw [Nat.succ_mul] at htotal
  rw [Nat.succ_sub_one]
  constructor
  · intro h
    rcases Nat.eq_zero_or_pos n with rfl | hpos'
    · exact .inl rfl
    · obtain ⟨n, rfl⟩ := Nat.exists_eq_succ_of_ne_zero hpos'.ne'
      have hbefore := (h n (by omega)).not.mpr (by omega)
      rw [Nat.succ_mul] at htotal ⊢
      omega
  · intro h k hk
    rcases Nat.lt_or_eq_of_le (Nat.le_of_lt_succ hk) with hlt | rfl
    · have hle := Nat.mul_le_mul_right b (Nat.succ_le_of_lt hlt)
      rw [Nat.succ_mul] at hle
      omega
    · omega

section Agreement

variable {info : UxrSessionInfo} {streamIdRaw : UInt8} {session : WriteSession}
  {flushCallback : UxrOnBuffersFull} {dataSize : ℕ}

/-- Sizes that fit give the submessage of the plain path. -/
theorem receivesWriteData_of_fits (hinv : OutputInvariant info session.stream)
    (hflush : FlushFrees info streamIdRaw session.stream flushCallback) (entityId : UxrObjectId)
    (ub : UcdrBuffer) (hfits : ContinuousFits session.stream dataSize)
    {pieces : List (List UInt8)} (hpieces : pieces.flatten.length = dataSize) :
    ReceivesWriteData session.stream.offset (generateRequestId session.lastRequestId) entityId
      pieces.flatten (continuousSlots flushCallback session entityId ub dataSize pieces) := by
  obtain ⟨hlength, hbegins, hpayload, hfills, hlast⟩ := hfits
  obtain ⟨F, payloads, rest, hblocks, hfull, hflatten, hrest⟩ :=
    continuousSlots_blocks hinv hflush entityId ub dataSize pieces
  generalize continuousSlots flushCallback session entityId ub dataSize pieces = slots at hblocks ⊢
  have hroom : session.stream.offset + 2 * 4 < uxrGetReliableBufferCapacity
    session.stream.base := by
    obtain ⟨-, a, s, w, hwindow⟩ := hinv
    exact hwindow.room
  have hcap : session.stream.offset + subheaderSize + blockPayload session.stream =
      uxrGetReliableBufferCapacity session.stream.base := by
    unfold blockPayload
    simp only [subheaderSize]
    omega
  have hblock : availableBlockSize session.stream = blockPayload session.stream := by
    rw [availableBlockSize_eq (by omega), Nat.mod_eq_of_lt hpayload]
  rw [List.take_of_length_le (by rwa [length_writeDataBeginning])] at hflatten
  have hcount := congrArg List.length hflatten
  rw [length_flatten_of_length_eq hfull, List.length_append, List.length_append, hpieces,
    length_writeDataBeginning] at hcount
  have hblocksCount := blockCount_eq hcount hrest
  rw [hblocksCount] at hfills hlast
  have hremains := (remains_lt_iff hcap (Nat.succ_pos _) hcount hrest (by
    refine Nat.pos_of_ne_zero fun hzero => ?_
    rw [hzero, Nat.zero_mul] at hcount
    omega)).mpr hlast
  have htotal : sizeT (dataSize + 8) = 8 + dataSize := by
    unfold sizeT
    simp only [writeDataPayloadSize] at hlength
    omega
  rw [htotal] at hblocks
  refine ⟨by rwa [hpieces], seqOf F, payloads, rest, hblocks.length_eq.symm, ?_, ?_, ?_⟩
  · rw [hflatten, ← hpieces]
    rfl
  · rw [length_writeDataSubmessage, hpieces]
    omega
  · intro k hk hk'
    have hsize : payloads[k].length = blockPayload session.stream := hfull _ (List.getElem_mem hk')
    obtain ⟨hnumber, sessionHeader, hheader, hmessage⟩ := hblocks.slot k hk hk'
    rw [hblocks.length_eq, hsize]
    refine ⟨by rw [hnumber, uxrSeqNumAdd_seqOf], hpayload, sessionHeader, hheader, ?_⟩
    -- the blocks up to `k` are no more than the bytes
    have hk₁ : (k + 1) * blockPayload session.stream ≤
        payloads.length * blockPayload session.stream := Nat.mul_le_mul_right _ hk'
    rw [Nat.succ_mul] at hk₁
    rw [dataSizeAt_eq hblock hpayload (by omega) (by omega), hblock] at hmessage
    rw [hmessage]
    have hflags : blockFlags session.stream (8 + dataSize - k * blockPayload session.stream) ||| 1 =
        if k + 1 = payloads.length then flagLastFragment ||| 1 else 1 := by
      unfold blockFlags
      by_cases hk₂ : k + 1 = payloads.length
      · rw [if_pos hk₂, if_pos ((hremains k hk').mpr hk₂)]
      · rw [if_neg hk₂, if_neg fun hlt => hk₂ ((hremains k hk').mp hlt)]
        rfl
    rw [hflags]

/-- A block that is too short for the beginning of the submessage loses the end of that
beginning, which bytes that are different do not make up for. -/
lemma take_append_ne {b n : ℕ} {beginning rest padding : List UInt8} {x : UInt8}
    (hb : b < beginning.length) (hrest : n = 0 → rest = []) (hx : x ≠ beginning.getD b 0) :
    beginning.take b ++ List.replicate n x ++ rest ≠
      beginning ++ List.replicate n x ++ padding := by
  intro h
  have htake : (beginning.take b).length = b := by
    rw [List.length_take]
    omega
  rcases Nat.eq_zero_or_pos n with rfl | hpos
  · rw [hrest rfl] at h
    have := congrArg List.length h
    simp only [List.length_append, List.length_replicate, List.length_nil] at this
    omega
  · have hat := congrArg (fun l => l[b]?) h
    simp only [List.append_assoc, List.getElem?_append, htake, lt_irrefl, if_false, Nat.sub_self,
      List.length_replicate, hpos, if_true, hb, List.getElem?_replicate,
      List.getElem?_eq_getElem hb, Option.some.injEq] at hat
    rw [List.getD_eq_getElem _ _ hb] at hx
    exact hx hat

/-- The sizes that give the submessage of the plain path fit. -/
theorem fits_of_agrees (hinv : OutputInvariant info session.stream)
    (hflush : FlushFrees info streamIdRaw session.stream flushCallback) (entityId : UxrObjectId)
    (ub : UcdrBuffer)
    (h : ∀ pieces : List (List UInt8), pieces.flatten.length = dataSize →
      ReceivesWriteData session.stream.offset (generateRequestId session.lastRequestId) entityId
        pieces.flatten (continuousSlots flushCallback session entityId ub dataSize pieces)) :
    ContinuousFits session.stream dataSize := by
  obtain ⟨beginning, hbeginning⟩ : ∃ l, l = writeDataBeginning
    (generateRequestId session.lastRequestId) entityId dataSize := ⟨_, rfl⟩
  obtain ⟨data, hdata⟩ : ∃ l, l = List.replicate dataSize
    (beginning.getD (blockPayload session.stream) 0 + 1) := ⟨_, rfl⟩
  have hlen : data.length = dataSize := by rw [hdata, List.length_replicate]
  have hpieces : [data].flatten = data := by simp
  obtain ⟨htrue, first, payloads, padding, hcount, hflatten, hpadding, hslots⟩ :=
    h [data] (by rw [hpieces, hlen])
  obtain ⟨F, payloads', rest, hblocks, hfull, hflatten', hrest⟩ :=
    continuousSlots_blocks hinv hflush entityId ub dataSize [data]
  generalize continuousSlots flushCallback session entityId ub dataSize [data] = slots
    at hblocks hslots hcount
  rw [hpieces] at hflatten hpadding hflatten' htrue
  -- the payloads are those of the blocks
  have hpayloads : payloads = payloads' := by
    refine List.ext_getElem (hcount.trans hblocks.length_eq) fun k hk hk' => ?_
    obtain ⟨-, -, sessionHeader, hheader, hmessage⟩ := hslots k (hcount ▸ hk) hk
    obtain ⟨-, sessionHeader', hheader', hmessage'⟩ := hblocks.slot k (hcount ▸ hk) hk'
    exact (message_inj (hheader.trans hheader'.symm) (hmessage.symm.trans hmessage')).2
  subst hpayloads
  have hroom : session.stream.offset + 2 * 4 < uxrGetReliableBufferCapacity
    session.stream.base := by
    obtain ⟨-, a, s, w, hwindow⟩ := hinv
    exact hwindow.room
  have hcap : session.stream.offset + subheaderSize + blockPayload session.stream =
      uxrGetReliableBufferCapacity session.stream.base := by
    unfold blockPayload
    simp only [subheaderSize]
    omega
  have hcountBytes := congrArg List.length hflatten'
  rw [length_flatten_of_length_eq hfull, List.length_append, List.length_append, hlen,
    List.length_take, ← hbeginning] at hcountBytes
  have hbeginningLength : beginning.length = 8 := by rw [hbeginning]; rfl
  have hpos : 0 < payloads.length := by
    refine Nat.pos_of_ne_zero fun hzero => ?_
    rw [hzero, Nat.zero_mul] at hcountBytes
    omega
  have hbegins : 8 ≤ blockPayload session.stream := by
    by_contra hlt
    have hsame : beginning.take (blockPayload session.stream) ++ data ++ rest =
        beginning ++ data ++ padding := by
      rw [hbeginning, ← hflatten', hflatten, ← hlen]
      rfl
    rw [hdata] at hsame
    refine take_append_ne (by omega) (fun hzero => ?_) ?_ hsame
    · have hle := Nat.mul_le_mul_right (blockPayload session.stream) hpos
      rw [List.eq_nil_iff_length_eq_zero]
      have : payloads.length < 2 := by
        by_contra htwo
        have := Nat.mul_le_mul_right (blockPayload session.stream) (Nat.le_of_not_lt htwo)
        omega
      obtain hone : payloads.length = 1 := by omega
      rw [hone] at hcountBytes
      omega
    · exact fun heq => absurd heq (by simp)
  rw [hbeginningLength, Nat.min_eq_right hbegins] at hcountBytes
  have hblocksCount := blockCount_eq hcountBytes hrest
  have hzero := hslots 0 (by omega) hpos
  have hpayload : blockPayload session.stream < 65536 := by
    rw [← hfull _ (List.getElem_mem hpos)]
    exact hzero.2.1
  have hblock : availableBlockSize session.stream = blockPayload session.stream := by
    rw [availableBlockSize_eq (by omega), Nat.mod_eq_of_lt hpayload]
  rw [hlen] at htrue
  have htotal : sizeT (dataSize + 8) = 8 + dataSize := by
    unfold sizeT
    simp only [writeDataPayloadSize] at htrue
    omega
  refine ⟨htrue, hbegins, hpayload, ?_, ?_⟩
  · rw [hblocksCount, hcountBytes]
    have := congrArg List.length hflatten
    rw [length_flatten_of_length_eq hfull, List.length_append, length_writeDataSubmessage,
      hlen] at this
    rw [length_writeDataSubmessage, hlen] at hpadding
    omega
  · rw [hblocksCount]
    refine (remains_lt_iff hcap (Nat.succ_pos _) hcountBytes hrest hpos).mp fun k hk => ?_
    have hk₁ : (k + 1) * blockPayload session.stream ≤
        payloads.length * blockPayload session.stream := Nat.mul_le_mul_right _ hk
    rw [Nat.succ_mul] at hk₁
    obtain ⟨-, -, sessionHeader, hheader, hmessage⟩ := hslots k (hcount ▸ hk) hk
    obtain ⟨-, sessionHeader', hheader', hmessage'⟩ := hblocks.slot k (hcount ▸ hk) hk
    have hflags := (message_inj (hheader.trans hheader'.symm)
      (hmessage.symm.trans hmessage')).1
    rw [htotal, dataSizeAt_eq hblock hpayload (by omega) (by omega), ← hcount] at hflags
    unfold blockFlags at hflags
    constructor
    · intro hlt
      rw [if_pos hlt] at hflags
      by_contra hne
      rw [if_neg hne] at hflags
      exact absurd hflags (by decide)
    · intro hlast
      rw [if_pos hlast] at hflags
      by_contra hge
      rw [if_neg hge] at hflags
      exact absurd hflags (by decide)

/-- On every stream whose positions and slots are in order, and with every flush callback
that frees a slot whenever it is asked, the continuous mode gives the stream what the plain
path would have given it, for all data of a size, if and only if the size fits. -/
theorem continuous_agrees_iff (hinv : OutputInvariant info session.stream)
    (hflush : FlushFrees info streamIdRaw session.stream flushCallback) (entityId : UxrObjectId)
    (ub : UcdrBuffer) (dataSize : ℕ) :
    ContinuousAgrees flushCallback session entityId ub dataSize ↔
      ContinuousFits session.stream dataSize := by
  obtain ⟨F, ub', session', hprepare, -⟩ := prepare_filling hinv hflush entityId ub dataSize
  unfold ContinuousAgrees
  rw [hprepare]
  constructor
  · exact fun hagrees => fits_of_agrees hinv hflush entityId ub (hagrees (generateRequestId_ne _))
  · exact fun hfits _ _ hpieces => receivesWriteData_of_fits hinv hflush entityId ub hfits hpieces

end Agreement

/-- A session with a fresh stream. -/
def freshSession : WriteSession := ⟨freshStream, 9, 0⟩

/-- Waiting for all acknowledgements frees slots of a fresh stream. -/
lemma freshSession_flushFrees :
    FlushFrees keylessSession 128 freshSession.stream (flushAll keylessSession 128) := by
  intro stream hlayout hinv hfull
  have hhistory : stream.base.history = 2 := hlayout.history_eq
  exact ⟨rfl, flushAll_frees hinv (hhistory ▸ by decide) (hhistory ▸ by decide) hfull 128⟩

/-- Eight bytes fill two blocks of a fresh stream. -/
theorem continuous_agrees_iff_freshSession :
    ContinuousAgrees (flushAll keylessSession 128) freshSession ⟨1, 5⟩ (ucdrInitBuffer 0 0) 8 :=
  (continuous_agrees_iff freshStream_run.invariant freshSession_flushFrees ⟨1, 5⟩
    (ucdrInitBuffer 0 0) 8).mpr (by decide)

/-- Four bytes leave half of the second block unused, and both blocks say that they are the
last. -/
theorem continuous_disagrees :
    OutputRun keylessSession 128 freshSession.stream ∧
      FlushFrees keylessSession 128 freshSession.stream (flushAll keylessSession 128) ∧
      ¬ ContinuousAgrees (flushAll keylessSession 128) freshSession ⟨1, 5⟩ (ucdrInitBuffer 0 0)
        4 := by
  refine ⟨freshStream_run, freshSession_flushFrees, fun hagrees => ?_⟩
  have hrun : OutputInvariant keylessSession freshSession.stream := freshStream_run.invariant
  obtain ⟨F, ub', session', hprepare, -⟩ :=
    prepare_filling hrun freshSession_flushFrees ⟨1, 5⟩ (ucdrInitBuffer 0 0) 4
  unfold ContinuousAgrees at hagrees
  rw [hprepare] at hagrees
  have hfits := fits_of_agrees hrun freshSession_flushFrees ⟨1, 5⟩ (ucdrInitBuffer 0 0)
    (hagrees (generateRequestId_ne _))
  exact absurd hfits (by decide)

end XrceDds
