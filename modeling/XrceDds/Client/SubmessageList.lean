import XrceDds.Client.InputReliableStream
import XrceDds.Client.ReadData
import XrceDds.Client.SlotImage

/-!
# Reading a list of submessages

`read_submessage_list` reads headers until the buffer has no room for one.  Between two headers
nothing moves the buffer but what the handler of the submessage reads: nobody compares that with the
length that the header announces.

A buffer without a callback is a message where it was received.  One with a callback is a message
in fragments, of which the buffer holds one at a time: the state is the stream that keeps them, and
its memory.  What else a handler does to the session moves no buffer and empties no slot, and is
left out.
-/

namespace XrceDds

open ByteMemory

/-! ## Deserialization -/

/-- Deserializing a basic type of `size` bytes: its bytes, when they are there.  Bytes of a window
that are too few for it are passed over with the window. -/
def ucdrDeserialize (size : ℕ) (stream : InputReliableStream) (ub : UcdrBuffer) :
    InputReliableStream × UcdrBuffer × Option (List UInt8) :=
  let r := ucdrCheckFinalBufferBehavior onFullInputBuffer stream
    (ub.skip (ucdrBufferAlignment ub size)) size
  if r.2.2 then
    (r.1, r.2.1.advance size size, some (read r.1.base.buffer r.2.1.iterator size))
  else (r.1, r.2.1, none)

/-- Deserializing basic types of the given sizes, one behind the other, and whether all of them were
there.  An array of bytes is one type after another. -/
def ucdrDeserializeAll : List ℕ → InputReliableStream → UcdrBuffer →
    InputReliableStream × UcdrBuffer × Bool
  | [], stream, ub => (stream, ub, true)
  | size :: sizes, stream, ub =>
    let r := ucdrDeserialize size stream ub
    let s := ucdrDeserializeAll sizes r.1 r.2.1
    (s.1, s.2.1, r.2.2.isSome && s.2.2)

/-- `ucdr_advance_buffer`. -/
def ucdrAdvanceBuffer (size : ℕ) (stream : InputReliableStream) (ub : UcdrBuffer) :
    InputReliableStream × UcdrBuffer :=
  let r := ucdrDeserializeAll (List.replicate size 1) stream ub
  (r.1, { r.2.1 with lastDataSize := 1 })

/-- The basic types of a `STATUS_AGENT_Payload`: a `ResultStatus`, the cookie, the version and the
vendor of the Agent, and whether there are properties. -/
def statusAgentPayload : List ℕ := List.replicate 11 1

/-- The basic types of a `STATUS_Payload`: a `BaseObjectRequest` and a `ResultStatus`. -/
def statusPayload : List ℕ := List.replicate 6 1

/-- The basic types of a `HEARTBEAT_Payload`: two numbers, and the id of a stream. -/
def heartbeatPayload : List ℕ := [2, 2, 1]

/-- The basic types of an `ACKNACK_Payload`: a number, the bitmap, and the id of a stream. -/
def acknackPayload : List ℕ := [2, 1, 1, 1]

/-- The basic types of a `TIMESTAMP_REPLY_Payload`: seconds and nanoseconds, three times. -/
def timestampReplyPayload : List ℕ := List.replicate 6 4

/-- The basic types of a `SampleIdentity`: a GUID, and the halves of a number. -/
def sampleIdentity : List ℕ := List.replicate 16 1 ++ [4, 4]

/-! ## Data -/

/-- The callbacks of a `uxrSession` that are set, with the sizes of what they deserialize from the
buffer that they are given. -/
structure DataCallbacks where
  onTopic : Option (List ℕ)
  onRequest : Option (List ℕ)
  onReply : Option (List ℕ)

namespace SubmessageList

/-- The bytes behind the position of a buffer as a buffer of their own, with the same callback. -/
def tempBuffer (ub : UcdrBuffer) : UcdrBuffer :=
  { ucdrInitBuffer ub.iterator (ucdrBufferRemaining ub) with onFullBuffer := ub.onFullBuffer }

/-- `cleanup_flag`, which is only set where the buffer has a stream. -/
def setCleanupFlag (flag : Bool) (ub : UcdrBuffer) (stream : InputReliableStream) :
    InputReliableStream :=
  if ub.onFullBuffer then { stream with cleanupFlag := flag } else stream

/-- A callback deserializes what it wants from a buffer, behind a part that is read first. -/
def callBack (sizes : Option (List ℕ)) (part : List ℕ) (stream : InputReliableStream)
    (ub : UcdrBuffer) : InputReliableStream :=
  match sizes with
  | some sizes =>
    let r := ucdrDeserializeAll part stream ub
    if r.2.2 then (ucdrDeserializeAll sizes r.1 (tempBuffer r.2.1)).1 else r.1
  | none => stream

/-- `read_format_data`, behind the request, for an object of the given type. -/
def readFormatData (callbacks : DataCallbacks) (type : UInt8) (length : ℕ)
    (stream : InputReliableStream) (ub : UcdrBuffer) : InputReliableStream × UcdrBuffer :=
  let stream := setCleanupFlag false ub stream
  let r : InputReliableStream × UcdrBuffer :=
    if type = uxrDatareaderId then (callBack callbacks.onTopic [] stream (tempBuffer ub), ub)
    else if type = uxrReplierId then
      (callBack callbacks.onRequest sampleIdentity stream (tempBuffer ub), ub)
    else if type = uxrRequesterId then
      -- Only here the iterator is moved before the buffer is advanced, and without the offset.
      (callBack callbacks.onReply (List.replicate baseObjectRequestSize 1) stream (tempBuffer ub),
        { ub with iterator := ub.iterator + length })
    else (stream, ub)
  ucdrAdvanceBuffer length (setCleanupFlag true ub r.1) r.2

/-- `FORMAT_MASK`. -/
def formatMask : UInt8 := 14

/-- `read_submessage_data`, with `read_submessage_format`.  The other formats are not read.  Where
the object id is not there its type is that of the byte `unset`, which the variable held before. -/
def readSubmessageData (callbacks : DataCallbacks) (unset : UInt8) (length : ℕ) (format : UInt8)
    (stream : InputReliableStream) (ub : UcdrBuffer) : InputReliableStream × UcdrBuffer :=
  let r := ucdrDeserializeAll [1, 1, 1] stream ub
  let s := ucdrDeserialize 1 r.1 r.2.1
  let type := (s.2.2.getD [unset]).headD unset &&& 15
  if format = formatData then
    readFormatData callbacks type (u16Sub length baseObjectRequestSize) s.1 s.2.1
  else (s.1, s.2.1)

/-! ## Submessages -/

/-- `SUBMESSAGE_ID_STATUS_AGENT`. -/
def submessageIdStatusAgent : UInt8 := 4

/-- `SUBMESSAGE_ID_STATUS`. -/
def submessageIdStatus : UInt8 := 5

/-- `SUBMESSAGE_ID_DATA`. -/
def submessageIdData : UInt8 := 9

/-- `SUBMESSAGE_ID_ACKNACK`. -/
def submessageIdAcknack : UInt8 := 10

/-- `SUBMESSAGE_ID_HEARTBEAT`. -/
def submessageIdHeartbeat : UInt8 := 11

/-- `SUBMESSAGE_ID_TIMESTAMP_REPLY`. -/
def submessageIdTimestampReply : UInt8 := 15

/-- The variables of `read_submessage_list`. -/
structure Header where
  id : UInt8
  flags : UInt8
  length : ℕ
  deriving DecidableEq, Repr

/-- What the reading of a message depends on besides its bytes: whether it came without a stream,
the callbacks that are set, and the byte where no object id is read. -/
structure Reader where
  noneStream : Bool
  callbacks : DataCallbacks
  unset : UInt8

/-- What a payload of the given basic types is read into. -/
def readPayload (sizes : List ℕ) (stream : InputReliableStream) (ub : UcdrBuffer) :
    InputReliableStream × UcdrBuffer :=
  let r := ucdrDeserializeAll sizes stream ub
  (r.1, r.2.1)

/-- `read_submessage`. -/
def readSubmessage (reader : Reader) (header : Header) (stream : InputReliableStream)
    (ub : UcdrBuffer) : InputReliableStream × UcdrBuffer :=
  if header.id = submessageIdStatusAgent then
    if reader.noneStream then readPayload statusAgentPayload stream ub else (stream, ub)
  -- Both `uxr_read_delete_session_status` and `read_submessage_status` read this payload.
  else if header.id = submessageIdStatus then readPayload statusPayload stream ub
  else if header.id = submessageIdData then
    readSubmessageData reader.callbacks reader.unset header.length (header.flags &&& formatMask)
      stream ub
  else if header.id = submessageIdHeartbeat then readPayload heartbeatPayload stream ub
  else if header.id = submessageIdAcknack then readPayload acknackPayload stream ub
  else if header.id = submessageIdTimestampReply then readPayload timestampReplyPayload stream ub
  -- `SUBMESSAGE_ID_PERFORMANCE`, where it is compiled in, moves a buffer of its own.
  else (stream, ub)

/-- `uxr_read_submessage_header`: whether there is room for a header.  What is not there is left as
it was. -/
def uxrReadSubmessageHeader (header : Header) (stream : InputReliableStream) (ub : UcdrBuffer) :
    InputReliableStream × UcdrBuffer × Header × Bool :=
  let ub := ucdrAlignTo ub 4
  if ucdrBufferRemaining ub ≥ subheaderSize then
    let id := ucdrDeserialize 1 stream ub
    let flags := ucdrDeserialize 1 id.1 id.2.1
    let length := ucdrDeserialize 2 flags.1 flags.2.1
    let flagsRead := (flags.2.2.getD [header.flags]).headD 0
    (length.1,
      { length.2.1 with
        endianness := if flagsRead &&& flagEndianness = 0 then .big else .little },
      ⟨(id.2.2.getD [header.id]).headD 0, withoutEndianness flagsRead,
        (length.2.2.map decodeLE).getD header.length⟩, true)
  else (stream, ub, header, false)

/-- A call of `read_submessage`: where the buffer stands, and the header. -/
structure Dispatch where
  address : ℕ
  header : Header
  deriving DecidableEq, Repr

/-- `read_submessage_list`, for at most the given number of headers: the stream and the buffer at
its end, and the calls that it made. -/
def readSubmessageList (reader : Reader) : ℕ → Header → InputReliableStream → UcdrBuffer →
    Option (InputReliableStream × UcdrBuffer × List Dispatch)
  | 0, _, _, _ => none
  | n + 1, header, stream, ub =>
    let h := uxrReadSubmessageHeader header stream ub
    if h.2.2.2 then
      let r := readSubmessage reader h.2.2.1 h.1 h.2.1
      (readSubmessageList reader n h.2.2.1 r.1 r.2).map fun s =>
        (s.1, s.2.1, ⟨h.2.1.iterator, h.2.2.1⟩ :: s.2.2)
    else some (h.1, h.2.1, [])

end SubmessageList

end XrceDds
