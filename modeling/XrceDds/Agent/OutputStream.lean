import XrceDds.Agent.Message

/-!
# The output reliable stream of the Agent

`ReliableOutputStream` keeps the messages that wait to be acknowledged in a map from
sequence numbers: `lastUnacked` is the number of the last message that was pushed,
`lastSent` that of the last one handed out, `firstUnacked` the first one that the client
has not acknowledged.

`push_submessage` cuts a submessage that does not fit the MTU into FRAGMENTs.  The loop
over the fragments counts the serialized bytes in a `uint16_t`, and reads the bytes of a
fragment from the serialized submessage without a check; it need not end, and need not
stay in that buffer (`PushResult`).
-/

namespace XrceDds

open ByteMemory

/-- `RELIABLE_STREAM_DEPTH`. -/
def reliableStreamDepth : ℕ := 16

/-- `SessionInfo`. -/
structure SessionInfo where
  clientKey : List UInt8
  sessionId : UInt8
  mtu : ℕ
  clientKey_length : clientKey.length = 4

/-- `ReliableOutputStream`. -/
structure ReliableOutputStream where
  messages : SeqNum → Option (List UInt8)
  lastUnacked : SeqNum
  lastSent : SeqNum
  firstUnacked : SeqNum

namespace ReliableOutputStream

/-- The constructor of `ReliableOutputStream`, and its `reset`. -/
def reset : ReliableOutputStream where
  messages := fun _ => none
  lastUnacked := ⟨65535, seqNumMax_lt⟩
  lastSent := ⟨65535, seqNumMax_lt⟩
  firstUnacked := 0

/-- The condition that `push_submessage` waits for. -/
def HasRoom (stream : ReliableOutputStream) : Prop :=
  SeqNum.Lt stream.lastUnacked
    (SeqNum.add stream.firstUnacked (seqOf (reliableStreamDepth - 1)))

instance (stream : ReliableOutputStream) : Decidable stream.HasRoom := by
  unfold HasRoom; infer_instance

/-- `messages_.insert` under the number that `lastUnacked` stands at.  A message that is
there stays. -/
def insert (stream : ReliableOutputStream) (message : List UInt8) : ReliableOutputStream :=
  { stream with
    messages :=
      if stream.messages stream.lastUnacked = none then
        Function.update stream.messages stream.lastUnacked (some message)
      else stream.messages }

/-- `last_unacked_ += 1`. -/
def nextUnacked (stream : ReliableOutputStream) : ReliableOutputStream :=
  { stream with lastUnacked := SeqNum.addInt stream.lastUnacked 1 }

/-- What a call of `push_submessage` comes to: it returns, or it reads beyond the end of the
serialized submessage. -/
inductive PushResult where
  | returned (rv : Bool) (stream : ReliableOutputStream)
  | outOfBounds

section Push

variable (sessionInfo : SessionInfo) (streamId : UInt8)

/-- The `message_header` of `push_submessage`, with a sequence number. -/
def messageHeader (sequenceNr : SeqNum) : MessageHeader where
  sessionId := sessionInfo.sessionId
  streamId := streamId
  sequenceNr := sequenceNr
  clientKey := sessionInfo.clientKey
  clientKey_length := sessionInfo.clientKey_length

/-- `header_size`. -/
def headerSize : ℕ := (messageHeader sessionInfo streamId 0).getCdrSerializedSize

/-- `max_fragment_size`, a `size_t`. -/
def maxFragmentSize : ℕ :=
  (sessionInfo.mtu + 18446744073709551616 - headerSize sessionInfo streamId - 4) %
    18446744073709551616

/-- `fragment_size` and the flags of `fragment_subheader`, when `serializedSize` bytes of
`submessageSize` have been sent. -/
def nextFragment (submessageSize serializedSize : ℕ) (flags : UInt8) : ℕ × UInt8 :=
  if sessionInfo.mtu <
      headerSize sessionInfo streamId + 4 + (submessageSize - serializedSize) then
    (maxFragmentSize sessionInfo streamId % 65536, flags)
  else ((submessageSize - serializedSize) % 65536, flagLittleEndianness ||| agentFlagLastFragment)

/-- The `do` loop of `push_submessage` over the fragments of `buf`, for at most as many
turns as there is fuel. -/
def fragmentLoop (buf : List UInt8) :
    ℕ → ReliableOutputStream → ℕ → UInt8 → Option PushResult
  | 0, _, _, _ => none
  | fuel + 1, stream, serializedSize, flags =>
    let fragment := nextFragment sessionInfo streamId buf.length serializedSize flags
    let fragmentSize := fragment.1
    let stream := stream.nextUnacked
    let header := messageHeader sessionInfo streamId stream.lastUnacked
    let message := OutputMessage.new header (headerSize sessionInfo streamId + 4 + fragmentSize)
    if buf.length < serializedSize + fragmentSize then some .outOfBounds
    else
      match message.appendFragment ⟨fragmentId, fragment.2, fragmentSize⟩
          ((buf.drop serializedSize).take fragmentSize) with
      | some message =>
        let serializedSize := (serializedSize + fragmentSize) % 65536
        if serializedSize < buf.length then
          fragmentLoop buf fuel (stream.insert message.bytes) serializedSize fragment.2
        else some (.returned (serializedSize = buf.length) (stream.insert message.bytes))
      | none => some (.returned (serializedSize = buf.length) stream)

/-- The `submessage_header` of `push_submessage`, for a submessage with the serialized form
`submessage`. -/
def submessageHeader (submessageId : UInt8) (submessage : List UInt8) : SubmessageHeader :=
  ⟨submessageId, flagLittleEndianness, submessage.length % 65536⟩

/-- `push_submessage`, when the wait is over: `submessage` is the serialized form of the
submessage. -/
def pushSubmessage (submessageId : UInt8) (submessage : List UInt8) (fuel : ℕ)
    (stream : ReliableOutputStream) : Option PushResult :=
  if stream.HasRoom then
    let submessageSize := 4 + submessage.length
    if headerSize sessionInfo streamId + submessageSize ≤ sessionInfo.mtu then
      let stream := stream.nextUnacked
      let header := messageHeader sessionInfo streamId stream.lastUnacked
      let message := OutputMessage.new header (headerSize sessionInfo streamId + submessageSize)
      match message.appendSubmessage submessageId submessage flagLittleEndianness with
      | some message => some (.returned true (stream.insert message.bytes))
      | none => some (.returned false stream)
    else
      let buf := (submessageHeader submessageId submessage).serialize ++ submessage
      fragmentLoop sessionInfo streamId buf fuel stream 0 flagLittleEndianness
  else some (.returned false stream)

end Push

/-- `get_next_message`. -/
def getNextMessage (stream : ReliableOutputStream) :
    ReliableOutputStream × Option (List UInt8) :=
  if SeqNum.Lt stream.lastSent stream.lastUnacked then
    let lastSent := SeqNum.addInt stream.lastSent 1
    ({ stream with lastSent := lastSent }, stream.messages lastSent)
  else (stream, none)

/-- `get_message`. -/
def getMessage (stream : ReliableOutputStream) (seqNum : SeqNum) : Option (List UInt8) :=
  stream.messages seqNum

/-- One step of the loop of `update_from_acknack`. -/
def eraseFirst (stream : ReliableOutputStream) : ReliableOutputStream :=
  { stream with
    messages := Function.update stream.messages stream.firstUnacked none
    firstUnacked := SeqNum.addInt stream.firstUnacked 1 }

/-- The loop of `update_from_acknack`.  From anywhere it meets its end within one turn. -/
def eraseLoop (firstUnacked : SeqNum) : ℕ → ReliableOutputStream → ReliableOutputStream
  | 0, stream => stream
  | fuel + 1, stream =>
    if SeqNum.Gt firstUnacked stream.firstUnacked then eraseLoop firstUnacked fuel stream.eraseFirst
    else stream

/-- `update_from_acknack`. -/
def updateFromAcknack (stream : ReliableOutputStream) (firstUnacked : SeqNum) :
    ReliableOutputStream :=
  if SeqNum.Le firstUnacked (SeqNum.addInt stream.lastSent 1) then
    eraseLoop firstUnacked 65536 stream
  else stream

/-- The payload of `fill_heartbeat`: the first and the last number that it announces. -/
def fillHeartbeat (stream : ReliableOutputStream) : SeqNum × SeqNum :=
  (stream.firstUnacked, stream.lastUnacked)

/-- What `fill_heartbeat` returns: whether there are messages. -/
def heartbeatNeeded (stream : ReliableOutputStream) : Bool :=
  decide (∃ key : SeqNum, (stream.messages key).isSome)

end ReliableOutputStream

/-! ## None and best-effort streams -/

/-- `BEST_EFFORT_STREAM_DEPTH`. -/
def bestEffortStreamDepth : ℕ := 16

/-- `NoneOutputStream`. -/
structure NoneOutputStream where
  messages : List (List UInt8)

namespace NoneOutputStream

/-- The constructor of `NoneOutputStream`, and its `reset`. -/
def reset : NoneOutputStream := ⟨[]⟩

/-- `push_submessage`. -/
def pushSubmessage (stream : NoneOutputStream) (sessionInfo : SessionInfo) (submessageId : UInt8)
    (submessage : List UInt8) : NoneOutputStream × Bool :=
  if bestEffortStreamDepth > stream.messages.length then
    let message := OutputMessage.new (ReliableOutputStream.messageHeader sessionInfo 0 0)
      sessionInfo.mtu
    match message.appendSubmessage submessageId submessage flagLittleEndianness with
    | some message => (⟨stream.messages ++ [message.bytes]⟩, true)
    | none => (stream, false)
  else (stream, false)

/-- `pop_message`. -/
def popMessage (stream : NoneOutputStream) : NoneOutputStream × Option (List UInt8) :=
  match stream.messages with
  | [] => (stream, none)
  | message :: messages => (⟨messages⟩, some message)

end NoneOutputStream

/-- `BestEffortOutputStream`. -/
structure BestEffortOutputStream where
  messages : List (List UInt8)
  lastSent : SeqNum

namespace BestEffortOutputStream

/-- The constructor of `BestEffortOutputStream`, and its `reset`. -/
def reset : BestEffortOutputStream := ⟨[], ⟨65535, seqNumMax_lt⟩⟩

/-- `push_submessage`.  What is longer than the MTU is dropped, and the call returns true. -/
def pushSubmessage (stream : BestEffortOutputStream) (sessionInfo : SessionInfo) (streamId : UInt8)
    (submessageId : UInt8) (submessage : List UInt8) : BestEffortOutputStream × Bool :=
  if bestEffortStreamDepth > stream.messages.length then
    let lastSent := SeqNum.addInt stream.lastSent 1
    let message := OutputMessage.new (ReliableOutputStream.messageHeader sessionInfo
      streamId lastSent)
      sessionInfo.mtu
    if sessionInfo.mtu < submessage.length then (stream, true)
    else
      match message.appendSubmessage submessageId submessage flagLittleEndianness with
      | some message => (⟨stream.messages ++ [message.bytes], lastSent⟩, true)
      | none => (stream, false)
  else (stream, false)

/-- `pop_message`. -/
def popMessage (stream : BestEffortOutputStream) :
    BestEffortOutputStream × Option (List UInt8) :=
  match stream.messages with
  | [] => (stream, none)
  | message :: messages => ({ stream with messages := messages }, some message)

end BestEffortOutputStream

end XrceDds
