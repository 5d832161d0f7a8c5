import XrceDds.Agent.SeqNum
import XrceDds.Lib.ByteMemory

/-!
# Messages of the Agent

The headers that the Agent writes and reads, and `OutputMessage`, the buffer of fixed
length that a message is serialized into.
-/

namespace XrceDds

open ByteMemory

/-- `dds::xrce::MessageHeader`. -/
structure MessageHeader where
  sessionId : UInt8
  streamId : UInt8
  sequenceNr : SeqNum
  clientKey : List UInt8
  clientKey_length : clientKey.length = 4

/-- `CLIENTKEY_INVALID` is a client key. -/
lemma clientkeyInvalid_length : ([0, 0, 0, 0] : List UInt8).length = 4 := rfl

/-- `MessageHeader::serialize`. -/
def MessageHeader.serialize (header : MessageHeader) : List UInt8 :=
  [header.sessionId, header.streamId] ++ encodeLE 2 header.sequenceNr.val ++
    if 128 > header.sessionId then header.clientKey else []

/-- `MessageHeader::getCdrSerializedSize`. -/
def MessageHeader.getCdrSerializedSize (header : MessageHeader) : ℕ :=
  if 128 > header.sessionId then 8 else 4

/-- `dds::xrce::SubmessageHeader`. -/
structure SubmessageHeader where
  submessageId : UInt8
  flags : UInt8
  submessageLength : ℕ
  deriving DecidableEq, Repr

/-- `SubmessageHeader::serialize`.  The length is a `uint16_t`. -/
def SubmessageHeader.serialize (header : SubmessageHeader) : List UInt8 :=
  [header.submessageId, header.flags] ++ encodeLE 2 header.submessageLength

/-- `SubmessageHeader::getCdrSerializedSize`. -/
def SubmessageHeader.getCdrSerializedSize (_ : SubmessageHeader) : ℕ := 4

/-- `dds::xrce::FRAGMENT`. -/
def fragmentId : UInt8 := 13

/-- `dds::xrce::FLAG_LITTLE_ENDIANNESS`. -/
def flagLittleEndianness : UInt8 := 1

/-- `dds::xrce::FLAG_LAST_FRAGMENT`. -/
def agentFlagLastFragment : UInt8 := 2

/-- A serialized header is as long as it says. -/
@[simp] lemma MessageHeader.length_serialize (header : MessageHeader) :
    header.serialize.length = header.getCdrSerializedSize := by
  unfold MessageHeader.serialize MessageHeader.getCdrSerializedSize
  split <;> simp [header.clientKey_length]

/-- A header of a message is a multiple of four bytes long. -/
lemma MessageHeader.getCdrSerializedSize_cases (header : MessageHeader) :
    header.getCdrSerializedSize = 8 ∨ header.getCdrSerializedSize = 4 := by
  unfold MessageHeader.getCdrSerializedSize
  split <;> simp

/-- A serialized header of a submessage is four bytes long. -/
@[simp] lemma SubmessageHeader.length_serialize (header : SubmessageHeader) :
    header.serialize.length = 4 := by
  simp [SubmessageHeader.serialize]

/-- `OutputMessage`: a buffer of `len` bytes, of which the serializer has written `bytes`. -/
structure OutputMessage where
  len : ℕ
  bytes : List UInt8
  deriving DecidableEq, Repr

namespace OutputMessage

/-- `OutputMessage::serialize`: without room for the data the serializer throws, and the
result is `none`. -/
def serialize (message : OutputMessage) (data : List UInt8) : Option OutputMessage :=
  if message.bytes.length + data.length ≤ message.len then
    some { message with bytes := message.bytes ++ data }
  else none

/-- The constructor of `OutputMessage`.  A header that does not fit is logged and left
out. -/
def new (header : MessageHeader) (len : ℕ) : OutputMessage :=
  ((OutputMessage.mk len []).serialize header.serialize).getD (OutputMessage.mk len [])

/-- `Cdr::jump` over the padding before a submessage, if there is room for it. -/
def alignSubmessage (message : OutputMessage) : OutputMessage :=
  (message.serialize (List.replicate ((4 - message.bytes.length % 4) % 4) 0)).getD message

/-- `OutputMessage::append_subheader`. -/
def appendSubheader (message : OutputMessage) (submessageId flags : UInt8) (submessageLen : ℕ) :
    Option OutputMessage :=
  message.alignSubmessage.serialize (SubmessageHeader.mk submessageId flags submessageLen).serialize

/-- `OutputMessage::append_submessage`, of a submessage with the serialized form `data`. -/
def appendSubmessage (message : OutputMessage) (submessageId : UInt8) (data : List UInt8)
    (flags : UInt8) : Option OutputMessage := do
  let message ← message.appendSubheader submessageId flags data.length
  message.serialize data

/-- `OutputMessage::append_fragment`, of bytes that are in memory. -/
def appendFragment (message : OutputMessage) (subheader : SubmessageHeader) (data : List UInt8) :
    Option OutputMessage := do
  let message ← message.alignSubmessage.serialize subheader.serialize
  message.serialize data

/-- There is room for what fits. -/
lemma serialize_of_room {message : OutputMessage} {data : List UInt8}
    (h : message.bytes.length + data.length ≤ message.len) :
    message.serialize data = some { message with bytes := message.bytes ++ data } := if_pos h

/-- A new message holds its header. -/
lemma new_of_room {header : MessageHeader} {len : ℕ} (h : header.getCdrSerializedSize ≤ len) :
    new header len = ⟨len, header.serialize⟩ := by
  unfold new
  rw [serialize_of_room (by simpa using h)]
  rfl

/-- A new message needs no padding. -/
lemma alignSubmessage_header (header : MessageHeader) (len : ℕ) :
    alignSubmessage ⟨len, header.serialize⟩ = ⟨len, header.serialize⟩ := by
  have hpad : (4 - header.serialize.length % 4) % 4 = 0 := by
    rw [MessageHeader.length_serialize]
    rcases header.getCdrSerializedSize_cases with h | h <;> rw [h]
  unfold alignSubmessage
  rw [hpad]
  unfold serialize
  split <;> simp

/-- A fragment that is as long as the room behind its header is appended. -/
theorem appendFragment_new (header : MessageHeader) (subheader : SubmessageHeader)
    (data : List UInt8) :
    (new header (header.getCdrSerializedSize + 4 + data.length)).appendFragment subheader data =
      some ⟨header.getCdrSerializedSize + 4 + data.length,
        header.serialize ++ subheader.serialize ++ data⟩ := by
  unfold appendFragment
  rw [new_of_room (by omega), alignSubmessage_header, serialize_of_room (by simp)]
  exact serialize_of_room (by simp)

/-- A submessage that is as long as the room behind its header is appended. -/
theorem appendSubmessage_new (header : MessageHeader) (submessageId flags : UInt8)
    (data : List UInt8) :
    (new header (header.getCdrSerializedSize + (4 + data.length))).appendSubmessage submessageId
        data flags =
      some ⟨header.getCdrSerializedSize + (4 + data.length),
        header.serialize ++ (SubmessageHeader.mk submessageId flags data.length).serialize ++
          data⟩ := by
  unfold appendSubmessage appendSubheader
  rw [new_of_room (by omega), alignSubmessage_header, serialize_of_room (by simp)]
  exact serialize_of_room (by simp [Nat.add_assoc])

end OutputMessage

end XrceDds
