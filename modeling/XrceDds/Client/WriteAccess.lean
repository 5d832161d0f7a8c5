import XrceDds.Client.OutputReliableStream

/-!
# Writing data

The functions of `write_access.c` that prepare a stream for a WRITE_DATA submessage whose
data the user serializes himself: `uxr_prepare_output_stream`, which reserves room for all
of it, and the continuous mode of `uxr_prepare_output_stream_fragmented`, which opens one
FRAGMENT after the other as the user goes on and asks a callback to free slots.
-/

namespace XrceDds

/-- `WRITE_DATA_PAYLOAD_SIZE`. -/
def writeDataPayloadSize : ℕ := 4

/-- `RESERVED_REQUESTS_ID`. -/
def reservedRequestsId : UInt16 := 9

/-- `UXR_INVALID_REQUEST_ID`. -/
def uxrInvalidRequestId : UInt16 := 0

/-- `uxrObjectId`. -/
structure UxrObjectId where
  id : UInt16
  type : UInt8
  deriving DecidableEq, Repr

/-- `BaseObjectRequest`. -/
structure BaseObjectRequest where
  requestId : List UInt8
  objectId : List UInt8
  deriving DecidableEq, Repr

/-- `generate_request_id`, which also becomes `last_request_id`. -/
def generateRequestId (lastRequestId : UInt16) : UInt16 :=
  (if lastRequestId = 65535 ∨ reservedRequestsId ≥ lastRequestId then reservedRequestsId
    else lastRequestId) + 1

/-- `uxr_object_id_to_raw`. -/
def uxrObjectIdToRaw (objectId : UxrObjectId) : List UInt8 :=
  [UInt8.ofNat (objectId.id.toNat / 16),
    UInt8.ofNat (objectId.id.toNat % 256 * 16 + objectId.type.toNat % 16)]

/-- The request that `uxr_init_base_object_request` initialises, under the id that
`generate_request_id` gave it. -/
def uxrInitBaseObjectRequest (requestId : UInt16) (objectId : UxrObjectId) : BaseObjectRequest where
  requestId := [UInt8.ofNat (requestId.toNat / 256), UInt8.ofNat requestId.toNat]
  objectId := uxrObjectIdToRaw objectId

/-- A generated request id is not the invalid one. -/
lemma generateRequestId_ne (lastRequestId : UInt16) :
    generateRequestId lastRequestId ≠ uxrInvalidRequestId := by
  unfold generateRequestId uxrInvalidRequestId reservedRequestsId
  split
  · decide
  · next h =>
    rw [not_or] at h
    intro hzero
    have hne := h.1
    rw [← UInt16.toNat_inj] at hzero hne
    have := lastRequestId.toNat_lt
    simp only [UInt16.toNat_add, UInt16.toNat_ofNat] at hzero hne
    omega

section Serialize

variable {σ : Type} [UcdrMemory σ] (cb : OnFullBuffer σ)

/-- `uxr_serialize_WRITE_DATA_Payload_Data`. -/
def uxrSerializeWriteDataPayloadData (st : σ) (ub : UcdrBuffer) (base : BaseObjectRequest) :
    σ × UcdrBuffer :=
  let r := ucdrSerializeArrayUint8 cb st ub base.requestId
  ucdrSerializeArrayUint8 cb r.1 r.2 base.objectId

/-- The beginning of a WRITE_DATA submessage: its header, the request, and the buffer that
starts behind them for the user. -/
def beginWriteData (st : σ) (ub : UcdrBuffer) (payloadSize : ℕ) (base : BaseObjectRequest) :
    σ × UcdrBuffer :=
  let r := uxrBufferSubmessageHeader cb st ub submessageIdWriteData (payloadSize % 65536) formatData
  let r := uxrSerializeWriteDataPayloadData cb r.1 r.2.1 base
  (r.1, ucdrInitBuffer r.2.iterator (ucdrBufferRemaining r.2))

end Serialize

/-- The bytes of a WRITE_DATA submessage. -/
def writeDataSubmessage (requestId : UInt16) (entityId : UxrObjectId) (data : List UInt8) :
    List UInt8 :=
  submessageHeader submessageIdWriteData (formatData ||| 1) (writeDataPayloadSize + data.length) ++
    (uxrInitBaseObjectRequest requestId entityId).requestId ++
    (uxrInitBaseObjectRequest requestId entityId).objectId ++ data

/-- A WRITE_DATA submessage is its data and eight bytes more. -/
lemma length_writeDataSubmessage (requestId : UInt16) (entityId : UxrObjectId)
    (data : List UInt8) :
    (writeDataSubmessage requestId entityId data).length = 8 + data.length := by
  simp only [writeDataSubmessage, submessageHeader, uxrInitBaseObjectRequest, uxrObjectIdToRaw,
    List.length_append, List.length_cons, List.length_nil]

/-! ## The plain path -/

/-- What `uxr_prepare_output_stream` returns, and `last_request_id` and the stream after
it. -/
structure WriteResult (σ : Type) where
  requestId : UInt16
  ub : UcdrBuffer
  session : σ

/-- The part of a `uxrSession` that a write uses: the stream it writes to,
`info.last_request_id`, and `continuous_args.data_size`. -/
structure WriteSession where
  stream : OutputReliableStream
  lastRequestId : UInt16
  dataSize : ℕ

instance : UcdrMemory WriteSession where
  store st address bytes := { st with stream := UcdrMemory.store st.stream address bytes }

instance : LawfulUcdrMemory WriteSession where
  store_nil st a := by
    simp only [UcdrMemory.store, ReliableStream.store, ByteMemory.write_nil]
  store_append st a bs cs := by
    simp only [UcdrMemory.store, ReliableStream.store, ByteMemory.write_append]

/-- `uxr_prepare_stream_to_write_submessage`, up to the header, on the reliable stream that
the stream id names. -/
def prepareSubmessage (stream : OutputReliableStream) (payloadSize : ℕ) (ub : UcdrBuffer) :
    Option PrepareResult :=
  uxrPrepareReliableBufferToWrite stream
    (sizeT (subheaderSize + payloadSize + uxrSubmessagePadding payloadSize)) ub

/-- `uxr_prepare_output_stream`, on a reliable stream.  The size of the payload is a sum of type
`uint32_t`. -/
def uxrPrepareOutputStream (session : WriteSession) (entityId : UxrObjectId) (ub : UcdrBuffer)
    (dataSize : ℕ) : Option (WriteResult WriteSession) :=
  let payloadSize := (writeDataPayloadSize + dataSize) % 4294967296
  (prepareSubmessage session.stream payloadSize ub).map fun r =>
    if r.availableToWrite then
      let requestId := generateRequestId session.lastRequestId
      let w := beginWriteData onFullOutputBuffer r.stream r.ub payloadSize
        (uxrInitBaseObjectRequest requestId entityId)
      { requestId := requestId
        ub := { w.2 with onFullBuffer := r.ub.onFullBuffer }
        session := { session with stream := w.1, lastRequestId := requestId } }
    else
      { requestId := uxrInvalidRequestId
        ub := { r.ub with error := true }
        session := session }

/-! ## The continuous mode -/

/-- A callback `uxrOnBuffersFull`: what it does to the stream, and whether it succeeded. -/
abbrev UxrOnBuffersFull := OutputReliableStream → OutputReliableStream × Bool

/-- A FRAGMENT that takes a whole slot, as the continuous mode opens it: the slots, and the
temporary buffer behind the header. -/
def openBlock (base : ReliableStream) (seqNum : UxrSeqNum) (fragmentSize : ℕ) (flags : UInt8) :
    ReliableStream × UcdrBuffer :=
  let tempUb := ucdrInitBufferOriginOffset (uxrGetReliableBuffer base seqNum)
    (uxrGetReliableBufferCapacity base) 0 (uxrGetReliableBufferSize base seqNum)
  let r := uxrBufferSubmessageHeader (fun st ub => (st, ub, true)) base tempUb submessageIdFragment
    fragmentSize flags
  (uxrSetReliableBufferSize r.1 seqNum (uxrGetReliableBufferCapacity base), r.2.1)

section Continuous

variable (flushCallback : UxrOnBuffersFull)

/-- The check for free slots, with the flush where there are none. -/
def freeSlotsOrFlush (stream : OutputReliableStream) : OutputReliableStream × Bool :=
  if getAvailableFreeSlots stream = 0 then
    let r := flushCallback stream
    (r.1, r.2 && decide (getAvailableFreeSlots r.1 ≠ 0))
  else (stream, true)

/-- `on_full_output_buffer_fragmented`. -/
def onFullOutputBufferFragmented : OnFullBuffer WriteSession := fun session ub =>
  match freeSlotsOrFlush flushCallback session.stream with
  | (stream, false) => ({ session with stream := stream }, ub, true)
  | (stream, true) =>
    let bufferCapacity := uxrGetReliableBufferCapacity stream.base
    let dataSize := sizeT (session.dataSize + (18446744073709551616 - availableBlockSize stream))
    let r := openBlock stream.base stream.lastWritten (availableBlockSize stream)
      (if dataSize < bufferCapacity then flagLastFragment else 0)
    ({ session with
        stream := stream.writtenTo r.1 (uxrSeqNumAdd stream.lastWritten 1)
        dataSize := dataSize },
      ucdrSetOnFullBufferCallback (ucdrInitBuffer r.2.iterator (ucdrBufferRemaining r.2)), false)

/-- The slot that a continuous write starts in: a fresh one. -/
def freshSlot (stream : OutputReliableStream) : UxrSeqNum :=
  if uxrGetReliableBufferSize stream.base stream.lastWritten > stream.offset then
    uxrSeqNumAdd stream.lastWritten 1
  else stream.lastWritten

/-- `uxr_prepare_output_stream_fragmented`, on the stream that the stream id names. -/
def uxrPrepareOutputStreamFragmented (session : WriteSession) (entityId : UxrObjectId)
    (ub : UcdrBuffer) (dataSize : ℕ) : WriteResult WriteSession :=
  let userRequiredSpace := sizeT (dataSize + subheaderSize + writeDataPayloadSize)
  match freeSlotsOrFlush flushCallback session.stream with
  | (stream, false) =>
    { requestId := uxrInvalidRequestId
      ub := ub
      session := { session with stream := stream } }
  | (stream, true) =>
    let seqNum := freshSlot stream
    let buffer := uxrGetReliableBuffer stream.base seqNum
    let bufferSize := uxrGetReliableBufferSize stream.base seqNum
    let bufferCapacity := uxrGetReliableBufferCapacity stream.base
    let r := openBlock stream.base seqNum (availableBlockSize stream)
      (if userRequiredSpace < bufferCapacity then flagLastFragment else 0)
    let ub := ucdrInitBuffer (buffer + bufferSize + subheaderSize)
      (u32Sub bufferCapacity (bufferSize + subheaderSize))
    let requestId := generateRequestId session.lastRequestId
    let w := beginWriteData (fun st ub => (st, ub, true))
      (stream.writtenTo r.1 (uxrSeqNumAdd seqNum 1)) ub (sizeT (writeDataPayloadSize + dataSize))
      (uxrInitBaseObjectRequest requestId entityId)
    { requestId := requestId
      ub := ucdrSetOnFullBufferCallback w.2
      session :=
        { stream := w.1
          lastRequestId := requestId
          dataSize := userRequiredSpace } }

end Continuous

end XrceDds
