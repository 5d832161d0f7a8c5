import XrceDds.Client.PlainWindow
import XrceDds.Client.SlotImage

/-!
# Best-effort streams of the client

An output best-effort stream collects submessages in one buffer, each at the next multiple of four,
and sends them behind a session header.  The writer is moved by the size of a submessage alone: the
step to the multiple of four before it is not counted, and is empty only because every submessage
is padded and the session header is not odd (`OutputBestEffort.Holds`).

The room is computed with `size_t`, but the positions that are handed to Micro-CDR are cast to
`uint32_t`, so that what ends beyond that is not written where it should be.
-/

namespace XrceDds

open ByteMemory

instance : UcdrMemory Memory where
  store := write

instance : LawfulUcdrMemory Memory where
  store_nil := write_nil
  store_append := write_append

/-- A buffer that failed takes nothing. -/
lemma serializeBasic_of_error {σ : Type} [UcdrMemory σ] (cb : OnFullBuffer σ) (st : σ)
    {ub : UcdrBuffer} (image : List UInt8) (herr : ub.error = true) :
    serializeBasic cb st ub image = (st, ub) := by
  unfold serializeBasic ucdrCheckFinalBufferBehavior
  rw [if_pos herr]
  rfl

/-- A buffer without room and without a callback fails. -/
lemma serializeBasic_of_full {σ : Type} [UcdrMemory σ] (cb : OnFullBuffer σ) (st : σ)
    {ub : UcdrBuffer} {image : List UInt8} (hcallback : ub.onFullBuffer = false)
    (hfull : ub.final < ub.iterator + image.length) :
    serializeBasic cb st ub image = (st, { ub with error := true }) := by
  unfold serializeBasic
  rw [ucdrCheckFinalBufferBehavior_of_full cb st ub hcallback hfull]
  rfl

/-- A header and a payload for which nothing is left are not written. -/
lemma serialize_nothing {σ : Type} [UcdrMemory σ] (cb : OnFullBuffer σ) (st : σ)
    {ub : UcdrBuffer} (id mode : UInt8) (length : ℕ) (payload : List UInt8)
    (hcallback : ub.onFullBuffer = false) (hfull : ub.final ≤ ub.iterator) :
    (ucdrSerializeArrayUint8 cb (uxrBufferSubmessageHeader cb st ub id length mode).1
        (uxrBufferSubmessageHeader cb st ub id length mode).2.1 payload).1 = st := by
  have hfirst : serializeBasic cb st
      { ucdrAlignTo ub 4 with endianness := ucdrMachineEndianness } [id] =
        (st, { ucdrAlignTo ub 4 with endianness := ucdrMachineEndianness, error := true }) :=
    serializeBasic_of_full cb st hcallback
      (show ub.final < min (ub.iterator + ucdrBufferAlignment ub 4) ub.final + 1 by omega)
  unfold uxrBufferSubmessageHeader uxrSerializeSubmessageHeader ucdrSerializeUint8
    ucdrSerializeLittleUint16
  dsimp only
  rw [hfirst]
  dsimp only
  rw [serializeBasic_of_error cb st _ rfl, serializeBasic_of_error cb st _ rfl]
  unfold ucdrSerializeArrayUint8
  rw [ucdrArrayToBuffer_of_error cb payload st rfl]

/-! ## The streams -/

/-- `uxrOutputBestEffortStream`, and the memory from its `buffer` on. -/
structure OutputBestEffort where
  memory : Memory
  writer : ℕ
  size : ℕ
  offset : ℕ
  lastSend : UxrSeqNum

/-- `uxrInputBestEffortStream`. -/
structure InputBestEffort where
  lastHandled : UxrSeqNum
  deriving DecidableEq, Repr

/-- `uxr_init_output_best_effort_stream`. -/
def uxrInitOutputBestEffortStream (memory : Memory) (size offset : ℕ) : OutputBestEffort :=
  ⟨memory, offset, size, offset, seqNumMax⟩

/-- `uxr_init_input_best_effort_stream`. -/
def uxrInitInputBestEffortStream : InputBestEffort := ⟨seqNumMax⟩

/-- `uxr_receive_best_effort_message`. -/
def uxrReceiveBestEffortMessage (stream : InputBestEffort) (seqNum : UxrSeqNum) :
    InputBestEffort × Bool :=
  if 0 > uxrSeqNumCmp stream.lastHandled seqNum then (⟨seqNum⟩, true) else (stream, false)

/-- The buffer of a best-effort stream has no callback. -/
def noCallback : OnFullBuffer Memory := fun memory ub => (memory, ub, true)

namespace OutputBestEffort

/-- `uxr_prepare_best_effort_buffer_to_write`, with the buffer that is written to. -/
def prepareBufferToWrite (stream : OutputBestEffort) (size : ℕ) :
    Option (OutputBestEffort × UcdrBuffer) :=
  let currentPadding := uxrSubmessagePadding stream.writer
  let futureLength := sizeT (stream.writer + currentPadding + size)
  if futureLength ≤ stream.size then
    some ({ stream with writer := sizeT (stream.writer + size) },
      -- `(uint32_t)future_length`, and `(uint32_t)(stream->writer + current_padding)`
      ucdrInitBufferOriginOffset 0 (futureLength % 4294967296) 0
        ((stream.writer + currentPadding) % 4294967296))
  else none

/-- `uxr_prepare_best_effort_buffer_to_send`: the length of the message, and its number. -/
def prepareBufferToSend (stream : OutputBestEffort) :
    Option (OutputBestEffort × ℕ × UxrSeqNum) :=
  if stream.writer > stream.offset then
    let lastSend := uxrSeqNumAdd stream.lastSend 1
    some ({ stream with
      lastSend := lastSend
      writer := stream.offset }, stream.writer, lastSend)
  else none

/-- A submessage is written: `uxr_prepare_stream_to_write_submessage`, and the payload behind the
header. -/
def write (stream : OutputBestEffort) (submessageId mode : UInt8) (payload : List UInt8) :
    Option OutputBestEffort :=
  match stream.prepareBufferToWrite (sizeT (submessageSize payload.length)) with
  | none => none
  | some (stream, ub) =>
    let r := uxrBufferSubmessageHeader noCallback stream.memory ub submessageId
      (payload.length % 65536) mode
    some { stream with memory := (ucdrSerializeArrayUint8 noCallback r.1 r.2.1 payload).1 }

/-- The best-effort part of `uxr_flash_output_streams`, for one stream. -/
def flash (info : UxrSessionInfo) (streamIdRaw : UInt8) (stream : OutputBestEffort) :
    OutputBestEffort × Option (List UInt8) :=
  match stream.prepareBufferToSend with
  | none => (stream, none)
  | some (stream, length, seqNum) =>
    let memory := ByteMemory.write stream.memory 0 (messageHeader info streamIdRaw seqNum)
    ({ stream with memory := memory }, some (read memory 0 length))

end OutputBestEffort

/-! ## The submessages of a message -/

/-- A submessage that was accepted, with the flags of its header. -/
structure AcceptedSubmessage where
  id : UInt8
  flags : UInt8
  payload : List UInt8
  deriving DecidableEq

/-- The header and the payload of a submessage. -/
def AcceptedSubmessage.bytes (submessage : AcceptedSubmessage) : List UInt8 :=
  submessageHeader submessage.id submessage.flags (submessage.payload.length % 65536) ++
    submessage.payload

/-- The bytes are those of the submessages, each with its padding, and no others. -/
def LaidOut : List UInt8 → List AcceptedSubmessage → Prop
  | bytes, [] => bytes = []
  | bytes, submessage :: submessages => ∃ padding rest,
      padding.length = uxrSubmessagePadding submessage.payload.length ∧
      bytes = submessage.bytes ++ padding ++ rest ∧ LaidOut rest submessages

/-- The submessage as its reader sees it. -/
def AcceptedSubmessage.read (submessage : AcceptedSubmessage) : ReadSubmessage :=
  ⟨submessage.id, withoutEndianness submessage.flags, submessage.payload⟩

namespace LaidOut

variable {bytes padding : List UInt8} {submessages : List AcceptedSubmessage}

/-- A submessage is put behind the others. -/
theorem snoc (h : LaidOut bytes submessages) (submessage : AcceptedSubmessage)
    (hpadding : padding.length = uxrSubmessagePadding submessage.payload.length) :
    LaidOut (bytes ++ (submessage.bytes ++ padding)) (submessages ++ [submessage]) := by
  induction submessages generalizing bytes with
  | nil =>
    obtain rfl : bytes = [] := h
    exact ⟨padding, [], hpadding, by simp, rfl⟩
  | cons first submessages ih =>
    obtain ⟨gap, rest, hgap, rfl, hrest⟩ := h
    exact ⟨gap, _, hgap, by simp, ih hrest⟩

/-- Without bytes there are no submessages. -/
lemma eq_nil (h : LaidOut [] submessages) : submessages = [] := by
  cases submessages with
  | nil => rfl
  | cons submessage submessages =>
    obtain ⟨padding, rest, -, heq, -⟩ := h
    simp [AcceptedSubmessage.bytes, submessageHeader] at heq

end LaidOut

/-- What is read from a position on is read from where the next multiple of four is. -/
lemma Parses.of_alignedPosition {message : List UInt8} {position position' : ℕ}
    {submessages : List ReadSubmessage} (h : Parses message position submessages)
    (haligned : alignedPosition message position = alignedPosition message position') :
    Parses message position' submessages := by
  cases submessages with
  | nil => exact haligned.symm.trans h
  | cons submessage submessages =>
    obtain ⟨start, hread, hbody, hle, hrest⟩ := h
    refine ⟨start, ?_, hbody, hle, hrest⟩
    unfold uxrReadSubmessageHeader at hread ⊢
    rwa [haligned] at hread

/-- Submessages whose lengths fit their headers are read as they were written. -/
theorem LaidOut.parses {bytes : List UInt8} {submessages : List AcceptedSubmessage}
    (h : LaidOut bytes submessages)
    (hlength : ∀ submessage ∈ submessages, submessage.payload.length < 65536) :
    Parses bytes 0 (submessages.map AcceptedSubmessage.read) := by
  induction submessages generalizing bytes with
  | nil =>
    obtain rfl : bytes = [] := h
    exact parses_nil
  | cons submessage submessages ih =>
    obtain ⟨padding, rest, hpadding, rfl, hrest⟩ := h
    have hshort := hlength submessage (.head _)
    have hheader : submessage.bytes = submessageHeader submessage.id submessage.flags
        submessage.payload.length ++ submessage.payload := by
      rw [AcceptedSubmessage.bytes, Nat.mod_eq_of_lt hshort]
    have hsize : (submessage.bytes ++ padding).length = 4 + submessage.payload.length +
        uxrSubmessagePadding submessage.payload.length := by
      rw [List.length_append, hheader, List.length_append, hpadding]
      rfl
    have haligned : (submessage.bytes ++ padding).length % 4 = 0 := by
      rw [hsize]
      unfold uxrSubmessagePadding subheaderSize
      split <;> omega
    have hrest' : Parses (submessage.bytes ++ padding ++ rest)
        ((submessage.bytes ++ padding).length + 0) (submessages.map AcceptedSubmessage.read) :=
      (ih hrest fun other hother => hlength other (.tail _ hother)).prepend haligned
    refine ⟨4, ?_, ?_, ?_, hrest'.of_alignedPosition ?_⟩
    · have hhere : uxrReadSubmessageHeader ([] ++ [] ++ submessageHeader submessage.id
          submessage.flags submessage.payload.length ++
            (submessage.payload ++ (padding ++ rest))) 0 =
          some (submessage.id, withoutEndianness submessage.flags, submessage.payload.length, 4) :=
        uxrReadSubmessageHeader_here (Nat.le_refl 0) (Nat.zero_le _) rfl hshort
      rw [hheader, List.append_assoc, List.append_assoc]
      exact hhere
    · rw [hheader, List.append_assoc, List.append_assoc]
      exact List.take_left
    · rw [List.length_append, hsize]
      show 4 + submessage.payload.length ≤ _
      omega
    · rw [hsize]
      unfold alignedPosition
      rw [List.length_append, hsize]
      show _ = min (4 + submessage.payload.length + alignmentGap (4 + submessage.payload.length)) _
      unfold uxrSubmessagePadding subheaderSize alignmentGap
      split <;> omega

/-! ## Writing and sending -/

namespace OutputBestEffort

/-- A stream holds these submessages. -/
structure Holds (stream : OutputBestEffort) (pending : List AcceptedSubmessage) : Prop where
  offset_le : stream.offset ≤ stream.writer
  offset_aligned : stream.offset % 4 = 0
  writer_aligned : stream.writer % 4 = 0
  writer_le : stream.writer ≤ stream.size ∨ stream.writer = stream.offset
  laidOut : LaidOut (read stream.memory stream.offset (stream.writer - stream.offset)) pending

/-- Where the buffer of a submessage ends, `future_length`. -/
def futureLength (stream : OutputBestEffort) (payloadSize : ℕ) : ℕ :=
  stream.writer + uxrSubmessagePadding stream.writer + submessageSize payloadSize

/-- If a submessage has room it ends where a `uint32_t` reaches. -/
def Reaches (stream : OutputBestEffort) (payloadSize : ℕ) : Prop :=
  stream.futureLength payloadSize ≤ stream.size → stream.futureLength payloadSize < 4294967296

instance (stream : OutputBestEffort) (payloadSize : ℕ) : Decidable (stream.Reaches payloadSize) :=
  inferInstanceAs (Decidable (_ → _))

/-- The buffer and a payload are objects of one memory, which has room for two headers besides. -/
def InMemory (stream : OutputBestEffort) (payloadSize : ℕ) : Prop :=
  stream.size + stream.offset + payloadSize + 16 ≤ 18446744073709551616

instance (stream : OutputBestEffort) (payloadSize : ℕ) : Decidable (stream.InMemory payloadSize) :=
  inferInstanceAs (Decidable (_ ≤ _))

variable {stream stream' : OutputBestEffort} {pending : List AcceptedSubmessage}

/-- The room of a submessage is a multiple of four. -/
lemma submessageSize_aligned (payloadSize : ℕ) : submessageSize payloadSize % 4 = 0 := by
  unfold submessageSize uxrSubmessagePadding subheaderSize
  split <;> omega

/-- Nothing is held at first. -/
lemma Holds.init (memory : Memory) (size : ℕ) {offset : ℕ} (haligned : offset % 4 = 0) :
    Holds (uxrInitOutputBestEffortStream memory size offset) [] where
  offset_le := Nat.le_refl offset
  offset_aligned := haligned
  writer_aligned := haligned
  writer_le := .inr rfl
  laidOut := by
    show read memory offset (offset - offset) = []
    rw [Nat.sub_self, read_zero]

/-- What a write does that has room. -/
lemma write_eq_some (haligned : stream.writer % 4 = 0) {submessageId mode : UInt8}
    {payload : List UInt8}
    (hsmall : stream.writer + submessageSize payload.length < 18446744073709551616)
    (hreaches : stream.Reaches payload.length)
    (hwrite : stream.write submessageId mode payload = some stream') :
    stream.writer + submessageSize payload.length ≤ stream.size ∧
      stream' = { stream with
        writer := stream.writer + submessageSize payload.length
        memory := ByteMemory.write stream.memory stream.writer
          (AcceptedSubmessage.bytes ⟨submessageId, mode ||| 1, payload⟩) } := by
  have hpadding : uxrSubmessagePadding stream.writer = 0 := if_neg (not_not.mpr haligned)
  have hsize : sizeT (submessageSize payload.length) = submessageSize payload.length :=
    Nat.mod_eq_of_lt (by omega)
  have hsum : sizeT (stream.writer + submessageSize payload.length) =
      stream.writer + submessageSize payload.length := Nat.mod_eq_of_lt hsmall
  unfold Reaches futureLength at hreaches
  rw [hpadding, Nat.add_zero] at hreaches
  unfold OutputBestEffort.write prepareBufferToWrite at hwrite
  dsimp only at hwrite
  rw [hsize, hpadding, Nat.add_zero, hsum] at hwrite
  by_cases hroom : stream.writer + submessageSize payload.length ≤ stream.size
  · have hreach := hreaches hroom
    rw [if_pos hroom, Nat.mod_eq_of_lt hreach, Nat.mod_eq_of_lt (by omega)] at hwrite
    have hgap : alignmentGap (0 + stream.writer - 0) = 0 := by
      unfold alignmentGap
      omega
    have hfits : 0 + stream.writer + alignmentGap (0 + stream.writer - 0) + 4 + payload.length ≤
        0 + (stream.writer + submessageSize payload.length) := by
      rw [hgap]
      unfold submessageSize subheaderSize
      omega
    have hstore := serialize_window noCallback stream.memory
      (ucdrInitBufferOriginOffset 0 (stream.writer + submessageSize payload.length) 0 stream.writer)
      submessageId mode (payload.length % 65536) payload rfl rfl (Nat.zero_le _) hfits
      (show 0 + (stream.writer + submessageSize payload.length) <
        0 + stream.writer + 18446744073709551616 by omega)
    change _ = ByteMemory.write stream.memory
      (0 + stream.writer + alignmentGap (0 + stream.writer - 0)) _ at hstore
    rw [hgap, Nat.add_zero, Nat.zero_add] at hstore
    refine ⟨hroom, ?_⟩
    rw [← Option.some.inj hwrite, hstore]
    rfl
  · rw [if_neg hroom] at hwrite
    cases hwrite

/-- A submessage whose end is cast to a position that is not behind its beginning has room, but
none of it is written. -/
theorem write_of_overrun (haligned : stream.writer % 4 = 0) {submessageId mode : UInt8}
    {payload : List UInt8} (hroom : stream.writer + submessageSize payload.length ≤ stream.size)
    (hsmall : stream.writer + submessageSize payload.length < 18446744073709551616)
    (hoverrun : (stream.writer + submessageSize payload.length) % 4294967296 ≤
      stream.writer % 4294967296) :
    stream.write submessageId mode payload =
      some { stream with writer := stream.writer + submessageSize payload.length } := by
  have hpadding : uxrSubmessagePadding stream.writer = 0 := if_neg (not_not.mpr haligned)
  have hsize : sizeT (submessageSize payload.length) = submessageSize payload.length :=
    Nat.mod_eq_of_lt (by omega)
  have hsum : sizeT (stream.writer + submessageSize payload.length) =
      stream.writer + submessageSize payload.length := Nat.mod_eq_of_lt hsmall
  unfold OutputBestEffort.write prepareBufferToWrite
  dsimp only
  rw [hsize, hpadding, Nat.add_zero, hsum, if_pos hroom]
  dsimp only
  rw [serialize_nothing noCallback stream.memory submessageId mode _ payload rfl
    (show 0 + _ ≤ 0 + _ by rwa [Nat.zero_add, Nat.zero_add])]

/-- A submessage that is accepted is held behind the others. -/
theorem Holds.write (h : Holds stream pending) {submessageId mode : UInt8} {payload : List UInt8}
    (hmemory : stream.InMemory payload.length) (hreaches : stream.Reaches payload.length)
    (hwrite : stream.write submessageId mode payload = some stream') :
    Holds stream' (pending ++ [⟨submessageId, mode ||| 1, payload⟩]) ∧
      AgreeOff stream.memory stream'.memory 0 stream.size ∧
      stream'.size = stream.size ∧ stream'.offset = stream.offset ∧
      stream'.lastSend = stream.lastSend := by
  have hoffset := h.offset_le
  have hsubmessage := submessageSize_aligned payload.length
  have hsmall : stream.writer + submessageSize payload.length < 18446744073709551616 := by
    have hwriter := h.writer_le
    unfold InMemory at hmemory
    unfold submessageSize uxrSubmessagePadding subheaderSize
    split <;> omega
  obtain ⟨hroom, rfl⟩ := write_eq_some h.writer_aligned hsmall hreaches hwrite
  obtain ⟨bytes, hbytes⟩ : ∃ bytes, bytes =
    AcceptedSubmessage.bytes ⟨submessageId, mode ||| 1, payload⟩ := ⟨_, rfl⟩
  have hlength : submessageSize payload.length =
      bytes.length + uxrSubmessagePadding payload.length := by
    rw [hbytes, AcceptedSubmessage.bytes, List.length_append]
    rfl
  rw [← hbytes]
  refine ⟨⟨Nat.le_add_right_of_le hoffset, h.offset_aligned, ?_, .inl hroom, ?_⟩, ?_, rfl, rfl, rfl⟩
  · show (stream.writer + submessageSize payload.length) % 4 = 0
    have := h.writer_aligned
    omega
  · -- The old submessages, the new one, and its padding.
    have hsplit : stream.writer + submessageSize payload.length - stream.offset =
        (stream.writer - stream.offset) +
          (bytes.length + uxrSubmessagePadding payload.length) := by
      omega
    show LaidOut (read (ByteMemory.write stream.memory stream.writer bytes) stream.offset
      (stream.writer + submessageSize payload.length - stream.offset)) _
    rw [hsplit, read_add, read_write_of_disjoint _ (.inl (by omega)),
      show stream.offset + (stream.writer - stream.offset) = stream.writer by omega, read_add,
      read_write, hbytes]
    exact h.laidOut.snoc _ (length_read _ _ _)
  · exact agreeOff_write _ (Nat.zero_le _) (by omega)

/-- What is behind the session header is sent. -/
lemma flash_of_lt (info : UxrSessionInfo) (streamIdRaw : UInt8)
    (hlt : stream.offset < stream.writer) :
    stream.flash info streamIdRaw =
      ({ stream with
          memory := ByteMemory.write stream.memory 0
            (messageHeader info streamIdRaw (uxrSeqNumAdd stream.lastSend 1))
          writer := stream.offset
          lastSend := uxrSeqNumAdd stream.lastSend 1 },
        some (read (ByteMemory.write stream.memory 0
          (messageHeader info streamIdRaw (uxrSeqNumAdd stream.lastSend 1))) 0 stream.writer)) := by
  unfold OutputBestEffort.flash prepareBufferToSend
  rw [if_pos hlt]

/-- What is held is sent behind a session header, and nothing is held then. -/
theorem Holds.flash (h : Holds stream pending) {info : UxrSessionInfo} {streamIdRaw : UInt8}
    (hoffset : stream.offset = uxrSessionHeaderOffset info) {message : Option (List UInt8)}
    (hflash : stream.flash info streamIdRaw = (stream', message)) :
    AgreeOff stream.memory stream'.memory 0 stream.size ∧ stream'.size = stream.size ∧
      stream'.offset = stream.offset ∧
      match message with
      | none => pending = [] ∧ stream' = stream
      | some bytes => Holds stream' [] ∧ stream'.lastSend = uxrSeqNumAdd stream.lastSend 1 ∧
        ∃ body, bytes = messageHeader info streamIdRaw stream'.lastSend ++ body ∧
          LaidOut body pending := by
  by_cases hsend : stream.offset < stream.writer
  · rw [flash_of_lt info streamIdRaw hsend] at hflash
    obtain ⟨rfl, rfl⟩ := Prod.mk.inj hflash
    have hlength : (messageHeader info streamIdRaw (uxrSeqNumAdd stream.lastSend 1)).length =
        stream.offset := by
      rw [length_messageHeader, hoffset]
    have hwriter : stream.writer ≤ stream.size := by
      rcases h.writer_le with hle | heq
      · exact hle
      · omega
    refine ⟨agreeOff_write _ (Nat.le_refl 0) (by omega), rfl, rfl,
      ⟨Nat.le_refl stream.offset, h.offset_aligned, h.offset_aligned, .inr rfl, ?_⟩, rfl,
      read stream.memory stream.offset (stream.writer - stream.offset), ?_, h.laidOut⟩
    · show read _ _ (stream.offset - stream.offset) = []
      rw [Nat.sub_self, read_zero]
    · have hsplit : stream.writer = stream.offset + (stream.writer - stream.offset) := by omega
      dsimp only
      conv_lhs => rw [hsplit]
      rw [read_add, read_write_of_length _ _ hlength, Nat.zero_add,
        read_write_of_disjoint _ (.inr (by omega))]
  · unfold OutputBestEffort.flash prepareBufferToSend at hflash
    rw [if_neg hsend] at hflash
    obtain ⟨rfl, rfl⟩ := Prod.mk.inj hflash
    refine ⟨AgreeOff.refl _ _ _, rfl, rfl, ?_, rfl⟩
    have hlaidOut := h.laidOut
    rw [Nat.sub_eq_zero_of_le (Nat.not_lt.mp hsend), read_zero] at hlaidOut
    exact hlaidOut.eq_nil

end OutputBestEffort

end XrceDds
