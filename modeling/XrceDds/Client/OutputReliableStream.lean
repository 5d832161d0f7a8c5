import XrceDds.Client.Submessage

/-!
# The output reliable stream of the client

`uxrOutputReliableStream` keeps the messages that are being written, that wait to be
sent and that wait to be acknowledged in the slots of its buffer.  `lastWritten` is the
slot being filled, `lastSent` and `lastAcknown` the last message sent and the last one
acknowledged.  A slot whose size is `offset`, the size of the session header, is empty.

The definitions follow `output_reliable_stream.c` and the loops of `session.c` that use
it.  A function of C that writes through its pointer arguments returns what it wrote.
-/

namespace XrceDds

/-- `uxrOutputReliableStream`. -/
structure OutputReliableStream where
  base : ReliableStream
  offset : ℕ
  lastWritten : UxrSeqNum
  lastSent : UxrSeqNum
  lastAcknown : UxrSeqNum
  nextHeartbeatTimestamp : ℤ
  nextHeartbeatTries : ℕ
  sendLost : Bool

/-- `INT64_MAX`. -/
def int64Max : ℤ := 9223372036854775807

/-- The loop that gives every slot the size `len`. -/
def setAllSizes (len : ℕ) : ℕ → ReliableStream → ReliableStream
  | 0, base => base
  | n + 1, base => uxrSetReliableBufferSize (setAllSizes len n base) n len

/-- `uxr_reset_output_reliable_stream`. -/
def uxrResetOutputReliableStream (stream : OutputReliableStream) : OutputReliableStream :=
  { stream with
    base := setAllSizes stream.offset stream.base.history stream.base
    lastWritten := ⟨0, seqNumZero_lt⟩
    lastSent := seqNumMax
    lastAcknown := seqNumMax
    nextHeartbeatTimestamp := int64Max
    nextHeartbeatTries := 0
    sendLost := false }

/-- `uxr_init_output_reliable_stream`. -/
def uxrInitOutputReliableStream (base : ReliableStream) (headerOffset : ℕ) :
    OutputReliableStream :=
  uxrResetOutputReliableStream
    { base := base
      offset := headerOffset
      lastWritten := ⟨0, seqNumZero_lt⟩
      lastSent := ⟨0, seqNumZero_lt⟩
      lastAcknown := ⟨0, seqNumZero_lt⟩
      nextHeartbeatTimestamp := 0
      nextHeartbeatTries := 0
      sendLost := false }

/-- `get_available_free_slots`. -/
def getAvailableFreeSlots (stream : OutputReliableStream) : ℕ :=
  (List.range stream.base.history).countP
    fun i => uxrGetReliableBufferSize stream.base i = stream.offset

/-- `on_full_output_buffer`: the next window is the payload of the fragment in the next
slot. -/
def onFullOutputBuffer : OnFullBuffer OutputReliableStream := fun stream ub =>
  let historyPosition :=
    (1 + uxrGetReliableBufferHistoryPosition stream.base ub.init) % 65536
  let buffer := uxrGetReliableBuffer stream.base historyPosition
  let bufferSize := uxrGetReliableBufferSize stream.base historyPosition
  let ub' := ucdrInitBufferOrigin (buffer + stream.offset + subheaderSize)
    (u32Sub bufferSize (stream.offset + subheaderSize)) ub.offset
  (stream, ucdrSetOnFullBufferCallback ub', false)

instance : UcdrMemory OutputReliableStream where
  store stream address bytes := { stream with base := stream.base.store address bytes }

instance : LawfulUcdrMemory OutputReliableStream where
  store_nil st a := by
    simp only [UcdrMemory.store, ReliableStream.store, ByteMemory.write_nil]
  store_append st a bs cs := by
    simp only [UcdrMemory.store, ReliableStream.store, ByteMemory.write_append]

/-! ## Writing -/

/-- Open a FRAGMENT submessage at the end of the slot of `seqNum`: the temporary buffer
and `uxr_buffer_submessage_header`.  The temporary buffer has no callback. -/
def openFragment (base : ReliableStream) (seqNum : UxrSeqNum) (fragmentSize : ℕ)
    (flags : UInt8) : ReliableStream :=
  let tempUb := ucdrInitBufferOriginOffset (uxrGetReliableBuffer base seqNum)
    (uxrGetReliableBufferCapacity base) 0 (uxrGetReliableBufferSize base seqNum)
  (uxrBufferSubmessageHeader (fun st ub => (st, ub, true)) base tempUb submessageIdFragment
    fragmentSize flags).1

/-- One complete block of a fragmented write: a FRAGMENT that takes the rest of its slot. -/
def completeBlock (base : ReliableStream) (seqNum : UxrSeqNum) (fragmentSize : ℕ) :
    ReliableStream :=
  let base := openFragment base seqNum fragmentSize 0
  uxrSetReliableBufferSize base seqNum (uxrGetReliableBufferCapacity base)

/-- The loop over the complete blocks of a fragmented write: every block takes a whole
slot, and all but the first announce `availableBlockSize`. -/
def writeCompleteBlocks (availableBlockSize : ℕ) :
    ℕ → ReliableStream → UxrSeqNum → ℕ → ReliableStream × UxrSeqNum
  | 0, base, seqNum, _ => (base, seqNum)
  | n + 1, base, seqNum, fragmentSize =>
    writeCompleteBlocks availableBlockSize n (completeBlock base seqNum fragmentSize)
      (uxrSeqNumAdd seqNum 1) availableBlockSize

/-- What `uxr_prepare_reliable_buffer_to_write` returns. -/
structure PrepareResult where
  availableToWrite : Bool
  ub : UcdrBuffer
  stream : OutputReliableStream

/-- The stream with the slots `base`, the last of them written being that of `seqNum`. -/
def OutputReliableStream.writtenTo (stream : OutputReliableStream) (base : ReliableStream)
    (seqNum : UxrSeqNum) : OutputReliableStream :=
  { stream with base := base, lastWritten := seqNum }

section Fragments

variable (stream : OutputReliableStream) (length : ℕ)

/-- Whether the current slot cannot hold a fragment header and one byte more. -/
def currentSlotFull : Prop :=
  uxrGetReliableBufferSize stream.base stream.lastWritten + subheaderSize ≥
    uxrGetReliableBufferCapacity stream.base

instance : Decidable (currentSlotFull stream) := by
  unfold currentSlotFull; infer_instance

/-- `seq_num` of the first fragment. -/
def firstFragmentSeqNum : UxrSeqNum :=
  if currentSlotFull stream then uxrSeqNumAdd stream.lastWritten 1 else stream.lastWritten

/-- `buffer_size` of the slot of the first fragment. -/
def firstFragmentBufferSize : ℕ :=
  uxrGetReliableBufferSize stream.base (firstFragmentSeqNum stream)

/-- `available_block_size`. -/
def availableBlockSize : ℕ :=
  u16Sub (uxrGetReliableBufferCapacity stream.base) (stream.offset + subheaderSize)

/-- `first_fragment_size`. -/
def firstFragmentSize : ℕ :=
  u16Sub (uxrGetReliableBufferCapacity stream.base) (firstFragmentBufferSize stream + subheaderSize)

/-- `remaining_size`. -/
def remainingSize : ℕ := u16Sub length (firstFragmentSize stream)

/-- `last_fragment_size`. -/
def lastFragmentSize : ℕ :=
  if remainingSize stream length % availableBlockSize stream = 0 then availableBlockSize stream
  else remainingSize stream length % availableBlockSize stream

/-- `necessary_complete_blocks`. -/
def necessaryCompleteBlocks : ℕ :=
  if remainingSize stream length % availableBlockSize stream = 0 then
    remainingSize stream length / availableBlockSize stream
  else remainingSize stream length / availableBlockSize stream + 1

/-- The complete blocks of a fragmented write, and the sequence number of the last one. -/
def layBlocks : ReliableStream × UxrSeqNum :=
  writeCompleteBlocks (availableBlockSize stream) (necessaryCompleteBlocks stream length)
    stream.base (firstFragmentSeqNum stream) (firstFragmentSize stream)

/-- The slots of a fragmented write: the complete blocks and the last fragment. -/
def layFragments : OutputReliableStream :=
  let r := layBlocks stream length
  let base := openFragment r.1 r.2 (lastFragmentSize stream length) flagLastFragment
  stream.writtenTo
    (uxrSetReliableBufferSize base r.2
      (stream.offset + subheaderSize + lastFragmentSize stream length)) r.2

/-- The fragment branch of `uxr_prepare_reliable_buffer_to_write`.  A block size of zero
is a division by zero, and there is no result. -/
def prepareFragments (ub : UcdrBuffer) : Option PrepareResult :=
  let buffer := uxrGetReliableBuffer stream.base (firstFragmentSeqNum stream)
  let bufferSize := firstFragmentBufferSize stream
  if availableBlockSize stream = 0 then none
  else if necessaryCompleteBlocks stream length ≤ getAvailableFreeSlots stream then
    some
      { availableToWrite := true
        ub := ucdrSetOnFullBufferCallback
          (ucdrInitBuffer (buffer + bufferSize + subheaderSize)
            (u32Sub (uxrGetReliableBufferCapacity stream.base) (bufferSize + subheaderSize)))
        stream := layFragments stream length }
  else some { availableToWrite := false, ub := ub, stream := stream }

end Fragments

/-- `uxr_prepare_reliable_buffer_to_write`. -/
def uxrPrepareReliableBufferToWrite (stream : OutputReliableStream) (length : ℕ)
    (ub : UcdrBuffer) : Option PrepareResult :=
  let seqNum := stream.lastWritten
  let bufferCapacity := uxrGetReliableBufferCapacity stream.base
  let buffer := uxrGetReliableBuffer stream.base seqNum
  let bufferSize := uxrGetReliableBufferSize stream.base seqNum
  let lastAvailable := uxrSeqNumAdd stream.lastAcknown stream.base.history
  if sizeT (bufferSize + length) ≤ bufferCapacity then
    -- the message fits behind what the current slot holds
    if 0 ≥ uxrSeqNumCmp seqNum lastAvailable then
      let finalBufferSize := sizeT (bufferSize + length)
      some
        { availableToWrite := true
          ub := ucdrInitBufferOriginOffset buffer finalBufferSize 0 bufferSize
          stream := { stream with
            base := uxrSetReliableBufferSize stream.base seqNum finalBufferSize } }
    else some { availableToWrite := false, ub := ub, stream := stream }
  else if sizeT (stream.offset + length) ≤ bufferCapacity then
    -- the message fits in a new slot
    let seqNum := uxrSeqNumAdd stream.lastWritten 1
    if 0 ≥ uxrSeqNumCmp seqNum lastAvailable then
      let buffer := uxrGetReliableBuffer stream.base seqNum
      let finalBufferSize := sizeT (stream.offset + length)
      some
        { availableToWrite := true
          ub := ucdrInitBufferOriginOffset buffer finalBufferSize 0 stream.offset
          stream := { stream with
            base := uxrSetReliableBufferSize stream.base seqNum finalBufferSize
            lastWritten := seqNum } }
    else some { availableToWrite := false, ub := ub, stream := stream }
  else prepareFragments stream length ub

/-! ## Sending -/

/-- What `uxr_prepare_next_reliable_buffer_to_send` returns: the slot to send, when there
is one, as the address and the length of its message and its sequence number. -/
structure NextBuffer where
  buffer : ℕ
  length : ℕ
  seqNum : UxrSeqNum
  dataToSend : Bool
  stream : OutputReliableStream

/-- `uxr_prepare_next_reliable_buffer_to_send`. -/
def uxrPrepareNextReliableBufferToSend (stream : OutputReliableStream) : NextBuffer :=
  let seqNum := uxrSeqNumAdd stream.lastSent 1
  let buffer := uxrGetReliableBuffer stream.base seqNum
  let length := uxrGetReliableBufferSize stream.base seqNum
  let dataToSend : Bool := decide (0 ≥ uxrSeqNumCmp seqNum stream.lastWritten ∧
    length > stream.offset ∧
    (uxrSeqNumSub stream.lastSent stream.lastAcknown).val ≠ stream.base.history)
  { buffer := buffer
    length := length
    seqNum := seqNum
    dataToSend := dataToSend
    stream :=
      if dataToSend then
        { stream with
          lastSent := seqNum
          lastWritten :=
            if seqNum = stream.lastWritten then uxrSeqNumAdd stream.lastWritten 1
            else stream.lastWritten }
      else stream }

/-- The loop of `uxr_flash_output_streams` over one reliable stream: the messages sent,
oldest first. -/
def flashLoop (info : UxrSessionInfo) (streamIdRaw : UInt8) :
    ℕ → OutputReliableStream → OutputReliableStream × List (List UInt8)
  | 0, stream => (stream, [])
  | n + 1, stream =>
    let next := uxrPrepareNextReliableBufferToSend stream
    if next.dataToSend then
      let base := uxrStampSessionHeader info streamIdRaw next.seqNum next.stream.base next.buffer
      let message := ByteMemory.read base.buffer next.buffer next.length
      let r := flashLoop info streamIdRaw n { next.stream with base := base }
      (r.1, message :: r.2)
    else (stream, [])

/-- `uxr_flash_output_streams`, for one reliable stream.  Within one turn of sequence
numbers `lastSent` meets `lastAcknown + history`, where the loop stops. -/
def uxrFlashOutputStreams (info : UxrSessionInfo) (streamIdRaw : UInt8)
    (stream : OutputReliableStream) : OutputReliableStream × List (List UInt8) :=
  flashLoop info streamIdRaw 65536 stream

/-! ## Acknowledgements and retransmission -/

/-- One step of the cleaning loop of `uxr_process_acknack`. -/
def cleanBuffer (stream : OutputReliableStream) : OutputReliableStream :=
  let lastAcknown := uxrSeqNumAdd stream.lastAcknown 1
  { stream with
    lastAcknown := lastAcknown
    base := uxrSetReliableBufferSize stream.base lastAcknown stream.offset }

/-- The cleaning loop of `uxr_process_acknack`. -/
def cleanBuffers : ℕ → OutputReliableStream → OutputReliableStream
  | 0, stream => stream
  | n + 1, stream => cleanBuffers n (cleanBuffer stream)

/-- `uxr_process_acknack`. -/
def uxrProcessAcknack (stream : OutputReliableStream) (bitmap : ℕ)
    (firstUnackedSeqNum : UxrSeqNum) : OutputReliableStream :=
  let lastAckedSeqNum := uxrSeqNumSub firstUnackedSeqNum 1
  let buffersToClean := uxrSeqNumSub lastAckedSeqNum stream.lastAcknown
  { cleanBuffers buffersToClean stream with
    sendLost := decide (0 < bitmap)
    nextHeartbeatTries := 0 }

/-- `uxr_begin_output_nack_buffer_it`. -/
def uxrBeginOutputNackBufferIt (stream : OutputReliableStream) : UxrSeqNum :=
  stream.lastAcknown

/-- The search loop of `uxr_next_reliable_nack_buffer_to_send`: the next sent sequence
number whose slot is in use.  Half a turn of steps passes `lastSent` from anywhere. -/
def nackSearch (stream : OutputReliableStream) : ℕ → UxrSeqNum → Option UxrSeqNum
  | 0, _ => none
  | n + 1, seqNumIt =>
    let seqNumIt := uxrSeqNumAdd seqNumIt 1
    if 0 ≥ uxrSeqNumCmp seqNumIt stream.lastSent then
      if uxrGetReliableBufferSize stream.base seqNumIt ≠ stream.offset then some seqNumIt
      else nackSearch stream n seqNumIt
    else none

/-- `uxr_next_reliable_nack_buffer_to_send`: the slot to send again, if there is one. -/
def uxrNextReliableNackBufferToSend (stream : OutputReliableStream) (seqNumIt : UxrSeqNum) :
    OutputReliableStream × Option UxrSeqNum :=
  if stream.sendLost then
    match nackSearch stream 65536 seqNumIt with
    | some seqNumIt => (stream, some seqNumIt)
    | none => ({ stream with sendLost := false }, none)
  else (stream, none)

/-- The loop of `read_submessage_acknack`: the messages sent again, oldest first. -/
def nackLoop : ℕ → OutputReliableStream → UxrSeqNum → OutputReliableStream × List (List UInt8)
  | 0, stream, _ => (stream, [])
  | n + 1, stream, seqNumIt =>
    match uxrNextReliableNackBufferToSend stream seqNumIt with
    | (stream, some seqNumIt) =>
      let message := slotBytes stream.base seqNumIt 0
        (uxrGetReliableBufferSize stream.base seqNumIt)
      let r := nackLoop n stream seqNumIt
      (r.1, message :: r.2)
    | (stream, none) => (stream, [])

/-- `read_submessage_acknack`, on the stream the ACKNACK names. -/
def readSubmessageAcknack (stream : OutputReliableStream) (nackBitmap : ℕ)
    (firstUnackedSeqNum : UxrSeqNum) : OutputReliableStream × List (List UInt8) :=
  let stream := uxrProcessAcknack stream nackBitmap firstUnackedSeqNum
  nackLoop 65536 stream (uxrBeginOutputNackBufferIt stream)

/-- `MIN_HEARTBEAT_TIME_INTERVAL`, in milliseconds. -/
def minHeartbeatTimeInterval : ℤ := 1

/-- `MAX_HEARTBEAT_TRIES`. -/
def maxHeartbeatTries : ℕ := 63

/-- `uxr_update_output_stream_heartbeat_timestamp`: whether a heartbeat is due. -/
def uxrUpdateOutputStreamHeartbeatTimestamp (stream : OutputReliableStream)
    (currentTimestamp : ℤ) : OutputReliableStream × Bool :=
  if 0 > uxrSeqNumCmp stream.lastAcknown stream.lastSent then
    if stream.nextHeartbeatTries = 0 then
      ({ stream with
          nextHeartbeatTimestamp := currentTimestamp + minHeartbeatTimeInterval
          nextHeartbeatTries := 1 }, false)
    else if currentTimestamp ≥ stream.nextHeartbeatTimestamp then
      let increment := minHeartbeatTimeInterval * 2 ^
        (stream.nextHeartbeatTries % maxHeartbeatTries)
      let difference := currentTimestamp - stream.nextHeartbeatTimestamp
      ({ stream with
          nextHeartbeatTimestamp := stream.nextHeartbeatTimestamp +
            (if difference > increment then difference else increment)
          nextHeartbeatTries := (stream.nextHeartbeatTries + 1) % 256 }, true)
    else (stream, false)
  else ({ stream with nextHeartbeatTimestamp := int64Max }, false)

/-- The HEARTBEAT of `write_submessage_heartbeat`: the first and the last sequence number
it announces. -/
def writeSubmessageHeartbeat (stream : OutputReliableStream) : UxrSeqNum × UxrSeqNum :=
  (uxrSeqNumAdd stream.lastAcknown 1, stream.lastSent)

end XrceDds
