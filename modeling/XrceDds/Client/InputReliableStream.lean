import XrceDds.Client.OutputReliableStream

/-!
# The input reliable stream of the client

`uxrInputReliableStream` keeps the messages that arrived ahead of their turn in the slots of
a reliable stream.  The next message is handed over where it was received and takes no
slot; FRAGMENTs always take one, and are handed over when the last of them is there.

`read_stream` hands messages to `read_submessage_list`.  A message that is no FRAGMENT is
handed over without a callback, so its readers have no way back to the stream.
-/

namespace XrceDds

open ByteMemory

/-- `FragmentationInfo`. -/
inductive FragmentationInfo where
  | noFragmented
  | intermediateFragment
  | lastFragment
  deriving DecidableEq, Repr

/-- `on_get_fragmentation_info`, of the four bytes of a submessage header. -/
def onGetFragmentationInfo (submessageHeader : List UInt8) : FragmentationInfo :=
  if submessageIdFragment = submessageHeader.headD 0 then
    if flagLastFragment &&& submessageHeader.getD 1 0 ≠ 0 then .lastFragment
    else .intermediateFragment
  else .noFragmented

/-- `uxrInputReliableStream`. -/
structure InputReliableStream where
  base : ReliableStream
  lastHandled : UxrSeqNum
  lastAnnounced : UxrSeqNum
  cleanupFlag : Bool

/-- `uxr_reset_input_reliable_stream`. -/
def uxrResetInputReliableStream (stream : InputReliableStream) : InputReliableStream :=
  { stream with
    base := setAllSizes 0 stream.base.history stream.base
    lastHandled := seqNumMax
    lastAnnounced := seqNumMax }

/-- `uxr_init_input_reliable_stream`. -/
def uxrInitInputReliableStream (base : ReliableStream) : InputReliableStream :=
  uxrResetInputReliableStream ⟨base, 0, 0, false⟩

/-- The submessage header at the start of a slot. -/
def slotHeader (base : ReliableStream) (seqNum : UxrSeqNum) : List UInt8 :=
  slotBytes base seqNum 0 subheaderSize

/-- The loop of `check_last_fragment` from a sequence number on: the number it ends at, when
the FRAGMENT there is the last one.  Slots that all hold intermediate FRAGMENTs keep it
going for ever. -/
def checkLastFragmentLoop (base : ReliableStream) : ℕ → UxrSeqNum → Option (Option UxrSeqNum)
  | 0, _ => none
  | n + 1, next =>
    let next := uxrSeqNumAdd next 1
    if 0 = uxrGetReliableBufferSize base next then some none
    else
      match onGetFragmentationInfo (slotHeader base next) with
      | .lastFragment => some (some next)
      | .intermediateFragment => checkLastFragmentLoop base n next
      | .noFragmented => some none

/-- `check_last_fragment`.  The numbers repeat, so that it ends within one turn of them or not
at all. -/
def checkLastFragment (stream : InputReliableStream) : Option (Option UxrSeqNum) :=
  checkLastFragmentLoop stream.base 65536 stream.lastHandled

/-- What `uxr_receive_reliable_message` returns: whether there is something to read, and
whether the message was stored. -/
structure ReceiveResult where
  readyToRead : Bool
  messageStored : Bool
  stream : InputReliableStream

/-- The last lines of `uxr_receive_reliable_message`, and `uxr_process_heartbeat`: a number
beyond what is announced is announced. -/
def announce (stream : InputReliableStream) (seqNum : UxrSeqNum) : InputReliableStream :=
  if 0 > uxrSeqNumCmp stream.lastAnnounced seqNum then { stream with lastAnnounced := seqNum }
  else stream

/-- `uxr_receive_reliable_message`, of the bytes behind the session header. -/
def uxrReceiveReliableMessage (stream : InputReliableStream) (seqNum : UxrSeqNum)
    (buffer : List UInt8) : Option ReceiveResult :=
  let lastHistory := uxrSeqNumAdd stream.lastHandled stream.base.history
  if 0 > uxrSeqNumCmp stream.lastHandled seqNum ∧ 0 ≤ uxrSeqNumCmp lastHistory seqNum then
    let fragmentationInfo := onGetFragmentationInfo buffer
    let next := uxrSeqNumAdd stream.lastHandled 1
    if fragmentationInfo = .noFragmented ∧ seqNum = next then
      some ⟨true, false, announce { stream with lastHandled := next } seqNum⟩
    else if 0 = uxrGetReliableBufferSize stream.base seqNum then
      let base := stream.base.store (uxrGetReliableBuffer stream.base seqNum) buffer
      let stream := { stream with base := uxrSetReliableBufferSize base seqNum buffer.length }
      if fragmentationInfo ≠ .noFragmented then
        (checkLastFragment stream).map fun last => ⟨last.isSome, true, announce stream seqNum⟩
      else some ⟨false, true, announce stream seqNum⟩
    else some ⟨false, false, announce stream seqNum⟩
  else some ⟨false, false, announce stream seqNum⟩

/-- `uxr_next_input_reliable_buffer_available`: the stream, and the buffer to read. -/
def uxrNextInputReliableBufferAvailable (stream : InputReliableStream) (fragmentOffset : ℕ) :
    Option (InputReliableStream × Option UcdrBuffer) :=
  let next := uxrSeqNumAdd stream.lastHandled 1
  let internalBuffer := uxrGetReliableBuffer stream.base next
  let length := uxrGetReliableBufferSize stream.base next
  if 0 ≠ length then
    if onGetFragmentationInfo (slotHeader stream.base next) = .noFragmented then
      some ({ stream with
        base := uxrSetReliableBufferSize stream.base next 0
        lastHandled := next }, some (ucdrInitBuffer internalBuffer length))
    else
      (checkLastFragment stream).map fun last =>
        match last with
        | some last =>
          ({ stream with
            base := uxrSetReliableBufferSize stream.base next 0
            lastHandled := last },
            some (ucdrSetOnFullBufferCallback
              (ucdrInitBuffer (internalBuffer + fragmentOffset) (length - fragmentOffset))))
        | none => (stream, none)
  else some (stream, none)

/-- `on_full_input_buffer`: the window of the next slot.  It stops where that slot holds no
submessage header. -/
def onFullInputBuffer : OnFullBuffer InputReliableStream := fun stream ub =>
  let historyPosition :=
    (1 + uxrGetReliableBufferHistoryPosition stream.base ub.init) % 65536
  let buffer := uxrGetReliableBuffer stream.base historyPosition
  let bufferSize := uxrGetReliableBufferSize stream.base historyPosition
  let stream :=
    if stream.cleanupFlag then
      { stream with base := uxrSetReliableBufferSize stream.base historyPosition 0 }
    else stream
  if bufferSize < subheaderSize then (stream, ub, true)
  else
    (stream, ucdrSetOnFullBufferCallback
      (ucdrInitBufferOrigin (buffer + subheaderSize) (bufferSize - subheaderSize) ub.offset), false)

/-- `uxr_process_heartbeat`. -/
def uxrProcessHeartbeat (stream : InputReliableStream) (_firstSeqNum lastSeqNum : UxrSeqNum) :
    InputReliableStream := announce stream lastSeqNum

/-- The loop of `uxr_get_first_unacked`, when `i` slots have been looked at. -/
def firstUnackedLoop (stream : InputReliableStream) : ℕ → ℕ → UxrSeqNum
  | 0, _ => stream.lastHandled
  | n + 1, i =>
    let seqNum := uxrSeqNumAdd stream.lastHandled (i + 1)
    if 0 = uxrGetReliableBufferSize stream.base seqNum then seqNum
    else firstUnackedLoop stream n (i + 1)

/-- `uxr_get_first_unacked`. -/
def uxrGetFirstUnacked (stream : InputReliableStream) : UxrSeqNum :=
  firstUnackedLoop stream stream.base.history 0

/-- `buffers_to_ack` of `uxr_compute_acknack`. -/
def buffersToAck (stream : InputReliableStream) : ℕ :=
  (uxrSeqNumSub stream.lastAnnounced (uxrSeqNumSub (uxrGetFirstUnacked stream) 1)).val

/-- `uxr_compute_acknack`: the first number that is not acknowledged, and the bitmap, which has
16 bits.  The shift is defined for at most 31 of `buffersToAck`. -/
def uxrComputeAcknack (stream : InputReliableStream) : UxrSeqNum × ℕ :=
  let first := uxrGetFirstUnacked stream
  (first, (List.range (buffersToAck stream)).foldl
    (fun nackBitmap i =>
      if 0 = uxrGetReliableBufferSize stream.base (uxrSeqNumAdd first i) then
        (nackBitmap ||| 1 <<< i) % 65536
      else nackBitmap) 0)

/-! ## Reading a message -/

/-- `uxr_read_session_header`: the stream id, the sequence number and the bytes behind the
header, when the message is one of the session. -/
def uxrReadSessionHeader (info : UxrSessionInfo) (message : List UInt8) :
    Option (UInt8 × UxrSeqNum × List UInt8) :=
  if message.length > 8 then
    let sessionId := message.headD 0
    let headerSize := if sessionIdWithoutClientKey > sessionId then 8 else 4
    let key := (message.drop 4).take 4
    if sessionId = info.id ∧ (sessionIdWithoutClientKey > info.id → key = info.key) then
      some (message.getD 1 0, seqOf (decodeLE ((message.drop 2).take 2)), message.drop headerSize)
    else none
  else none

/-- The `while` loop of `read_stream`: the messages that it hands over.  Every turn empties a
slot. -/
def drain : ℕ → InputReliableStream → Option (InputReliableStream × List (List UInt8))
  | 0, _ => none
  | n + 1, stream =>
    match uxrNextInputReliableBufferAvailable stream subheaderSize with
    | some (stream, some ub) =>
      (drain n stream).map fun r =>
        (r.1, read stream.base.buffer ub.iterator (ub.final - ub.iterator) :: r.2)
    | some (stream, none) => some (stream, [])
    | none => none

/-- The reliable case of `read_stream`, up to the ACKNACK: the messages that are handed to
`read_submessage_list`. -/
def readStream (stream : InputReliableStream) (seqNum : UxrSeqNum) (buffer : List UInt8) :
    Option (InputReliableStream × List (List UInt8)) :=
  match uxrReceiveReliableMessage stream seqNum buffer with
  | some result =>
    if result.readyToRead then
      (drain (result.stream.base.history + 1) result.stream).map fun r =>
        (r.1, if result.messageStored then r.2 else buffer :: r.2)
    else some (result.stream, [])
  | none => none

end XrceDds
