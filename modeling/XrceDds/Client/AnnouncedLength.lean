import XrceDds.Client.FragmentWindows

/-!
# The announced length of a submessage

A submessage is reserved with the size that its payload is expected to have, in the width of
`size_t`, and announced with the lowest 16 bits of it.  The payload of a CREATE submessage is
counted by hand, in 16 bits from the start, and with the padding that it would have in one piece at
a multiple of four.

`announced_exact_iff` says for which accepted calls the announced length and the bytes that were
reserved are those of what is serialized: the payload must be representable in 16 bits, what remains
behind the first of several fragments must be so as well, and the numbers in the payload must find
the padding that was counted, in the slot or the FRAGMENT payloads that they are written to.
`findsPadding_iff` says that they do when all of these begin and end at multiples of four, unless a
CREATE is counted for another type than it is made of.
-/

namespace XrceDds

open AlignedCodec AlignedWindows XrceTypes

/-! ## The streams -/

/-- `uxrStreamType`. -/
inductive UxrStreamType where
  | none
  | bestEffort
  | reliable
  deriving DecidableEq, Repr

/-- `uxrStreamId`. -/
structure UxrStreamId where
  index : ℕ
  type : UxrStreamType
  deriving DecidableEq, Repr

/-- The output streams of a `uxrStreamStorage`.  The buffer of a best-effort stream is one object,
and an object takes less than half of the addresses; the offset of a reliable stream is of type
`uint8_t`. -/
structure OutputStreams where
  bestEffort : List OutputBestEffort
  reliable : List OutputReliableStream
  writer_le : ∀ stream ∈ bestEffort, stream.writer ≤ stream.size ∧ stream.size < 9223372036854775808
  offset_lt : ∀ stream ∈ reliable, stream.offset < 256

/-- The bytes that `uxr_prepare_reliable_buffer_to_write` reserves for a submessage: behind what
the current slot holds, in a new slot, or in the fragments. -/
def reservedBytes (stream : OutputReliableStream) (length : ℕ) : ℕ :=
  let bufferCapacity := uxrGetReliableBufferCapacity stream.base
  let bufferSize := uxrGetReliableBufferSize stream.base stream.lastWritten
  if sizeT (bufferSize + length) ≤ bufferCapacity then sizeT (bufferSize + length) - bufferSize
  else if sizeT (stream.offset + length) ≤ bufferCapacity then
    sizeT (stream.offset + length) - stream.offset
  else (announcedFragments stream length).sum

/-- What a submessage that was accepted is announced with, the bytes reserved for it, and the buffer
that it is serialized to, with the windows behind it. -/
structure SubmessageReservation where
  announced : ℕ
  reserved : ℕ
  start : FragmentWindows × UcdrBuffer
  deriving DecidableEq, Repr

/-- The windows behind the one that a buffer was handed out for: those of the other fragments, where
it was handed out with a callback. -/
def windowsBehind (stream : OutputReliableStream) (length : ℕ) (ub : UcdrBuffer) :
    FragmentWindows where
  behind := if ub.onFullBuffer then (announcedFragments stream length).tail else []
  final := ub.final
  outside := false

/-- `uxr_prepare_stream_to_write_submessage`, on any stream.  There is no result when the submessage
is refused. -/
def OutputStreams.prepareSubmessage (streams : OutputStreams) (streamId : UxrStreamId)
    (payloadSize : ℕ) : Option SubmessageReservation :=
  let submessageSize := sizeT (subheaderSize + payloadSize + uxrSubmessagePadding payloadSize)
  match streamId.type with
  | .bestEffort =>
    match streams.bestEffort[streamId.index]? with
    | none => none
    | some stream =>
      match stream.prepareBufferToWrite submessageSize with
      | none => none
      | some (stream', ub) =>
        some
          { announced := payloadSize % 65536
            reserved := stream'.writer - stream.writer
            start := (⟨[], ub.final, false⟩, ub) }
  | .reliable =>
    match streams.reliable[streamId.index]? with
    | none => none
    | some stream =>
      match uxrPrepareReliableBufferToWrite stream submessageSize (ucdrInitBuffer 0 0) with
      | none => none
      | some r =>
        if r.availableToWrite then
          some
            { announced := payloadSize % 65536
              reserved := reservedBytes stream submessageSize
              start := (windowsBehind stream submessageSize r.ub, r.ub) }
        else none
  | .none => none

/-! ## Creating entities -/

/-- The member of an `ObjectVariant` that a CREATE submessage is about. -/
inductive CreateRepresentation where
  | participant (domainId : Int16)
  | topic (participantId : UxrObjectId)
  | publisher (participantId : UxrObjectId)
  | subscriber (participantId : UxrObjectId)
  | dataWriter (publisherId : UxrObjectId)
  | dataReader (subscriberId : UxrObjectId)
  | requester (participantId : UxrObjectId)
  | replier (participantId : UxrObjectId)
  deriving DecidableEq, Repr

/-- The format of a representation. -/
inductive RepresentationFormat where
  | byReference
  | asXmlString
  deriving DecidableEq, Repr

/-- Publishers and subscribers are created from XML only. -/
def CreateRepresentation.HasFormat : CreateRepresentation → RepresentationFormat → Prop
  | .publisher _, format | .subscriber _, format => format = .asXmlString
  | _, _ => True

/-- A call of one of the functions that create an entity.  The text is a string of C, without the
zero behind it. -/
structure CreateCall where
  objectId : UxrObjectId
  format : RepresentationFormat
  text : List UInt8
  mode : UInt8
  representation : CreateRepresentation
  hasFormat : representation.HasFormat format

/-- `create_entity_xml`. -/
def createEntityXml (objectId : UxrObjectId) (xml : List UInt8) (mode : UInt8)
    (representation : CreateRepresentation) : CreateCall :=
  ⟨objectId, .asXmlString, xml, mode, representation, by cases representation <;> trivial⟩

/-- `create_entity_ref`. -/
def createEntityRef (objectId : UxrObjectId) (ref : List UInt8) (mode : UInt8)
    (representation : CreateRepresentation) (h : representation.HasFormat .byReference) :
    CreateCall :=
  ⟨objectId, .byReference, ref, mode, representation, h⟩

section

variable (objectId : UxrObjectId) (xml ref : List UInt8) (mode : UInt8)

/-- `uxr_buffer_create_participant_xml`. -/
def uxrBufferCreateParticipantXml (domain : UInt16) : CreateCall :=
  createEntityXml objectId xml mode (.participant domain.toInt16)

/-- `uxr_buffer_create_topic_xml`. -/
def uxrBufferCreateTopicXml (participantId : UxrObjectId) : CreateCall :=
  createEntityXml objectId xml mode (.topic participantId)

/-- `uxr_buffer_create_publisher_xml`. -/
def uxrBufferCreatePublisherXml (participantId : UxrObjectId) : CreateCall :=
  createEntityXml objectId xml mode (.publisher participantId)

/-- `uxr_buffer_create_subscriber_xml`. -/
def uxrBufferCreateSubscriberXml (participantId : UxrObjectId) : CreateCall :=
  createEntityXml objectId xml mode (.subscriber participantId)

/-- `uxr_buffer_create_datawriter_xml`. -/
def uxrBufferCreateDatawriterXml (publisherId : UxrObjectId) : CreateCall :=
  createEntityXml objectId xml mode (.dataWriter publisherId)

/-- `uxr_buffer_create_datareader_xml`. -/
def uxrBufferCreateDatareaderXml (subscriberId : UxrObjectId) : CreateCall :=
  createEntityXml objectId xml mode (.dataReader subscriberId)

/-- `uxr_buffer_create_requester_xml`. -/
def uxrBufferCreateRequesterXml (participantId : UxrObjectId) : CreateCall :=
  createEntityXml objectId xml mode (.requester participantId)

/-- `uxr_buffer_create_replier_xml`. -/
def uxrBufferCreateReplierXml (participantId : UxrObjectId) : CreateCall :=
  createEntityXml objectId xml mode (.replier participantId)

/-- `uxr_buffer_create_participant_ref`. -/
def uxrBufferCreateParticipantRef (domainId : Int16) : CreateCall :=
  createEntityRef objectId ref mode (.participant domainId) trivial

/-- `uxr_buffer_create_topic_ref`. -/
def uxrBufferCreateTopicRef (participantId : UxrObjectId) : CreateCall :=
  createEntityRef objectId ref mode (.topic participantId) trivial

/-- `uxr_buffer_create_datawriter_ref`. -/
def uxrBufferCreateDatawriterRef (publisherId : UxrObjectId) : CreateCall :=
  createEntityRef objectId ref mode (.dataWriter publisherId) trivial

/-- `uxr_buffer_create_datareader_ref`. -/
def uxrBufferCreateDatareaderRef (subscriberId : UxrObjectId) : CreateCall :=
  createEntityRef objectId ref mode (.dataReader subscriberId) trivial

/-- `uxr_buffer_create_requester_ref`. -/
def uxrBufferCreateRequesterRef (participantId : UxrObjectId) : CreateCall :=
  createEntityRef objectId ref mode (.requester participantId) trivial

/-- `uxr_buffer_create_replier_ref`. -/
def uxrBufferCreateReplierRef (participantId : UxrObjectId) : CreateCall :=
  createEntityRef objectId ref mode (.replier participantId) trivial

end

/-- `payload_length` of `uxr_common_create_entity`: the request, the kind, the format, two bytes of
padding, the length and the bytes of the string, the padding of a participant, and the object
that the entity belongs to or the domain. -/
def createPayloadLength (objectId : UxrObjectId) (xmlRefSize : ℕ) : ℕ :=
  let payloadLength := (4 + 1 + 1 + 2 + 4 + xmlRefSize) % 65536
  let payloadLength :=
    (payloadLength +
      if objectId.type = objkParticipant ∧ payloadLength % 2 ≠ 0 then 1 else 0) % 65536
  (payloadLength + 2) % 65536

/-- The sizes of what follows the string: the domain is one number, and the identifier of an object
is two octets. -/
def CreateRepresentation.sizes : CreateRepresentation → List ℕ
  | .participant _ => [2]
  | _ => [1, 1]

/-- `base.representation` of an entity in three formats. -/
def RepresentationFormat.threeFormats (text : List UInt8) :
    RepresentationFormat → Representation3Formats
  | .byReference => .byReference text
  | .asXmlString => .asXmlString text

/-- The identifier of an object as an `ObjectId`. -/
def UxrObjectId.toOctets (objectId : UxrObjectId) : Octets 2 := ⟨uxrObjectIdToRaw objectId, rfl⟩

/-- `object_representation` of the payload. -/
def CreateCall.object (c : CreateCall) : XrceTypes.ObjectVariant :=
  let base := c.format.threeFormats c.text
  match c.representation with
  | .participant domainId => .participant base domainId
  | .topic participantId => .topic base participantId.toOctets
  | .publisher participantId => .publisher (.asXmlString c.text) participantId.toOctets
  | .subscriber participantId => .subscriber (.asXmlString c.text) participantId.toOctets
  | .dataWriter publisherId => .dataWriter base publisherId.toOctets
  | .dataReader subscriberId => .dataReader base subscriberId.toOctets
  | .requester participantId => .requester base participantId.toOctets
  | .replier participantId => .replier base participantId.toOctets

/-! ## Calls -/

/-- `SAMPLE_IDENTITY_SIZE`. -/
def sampleIdentitySize : ℕ := 24

/-- `SampleIdentity`. -/
structure UxrSampleIdentity where
  guidPrefix : Octets 12
  entityKey : Octets 3
  entityKind : UInt8
  high : Int32
  low : UInt32

section

variable {σ : Type} [UcdrMemory σ] (cb : OnFullBuffer σ)

/-- `uxr_serialize_GUID_t`, with `uxr_serialize_GuidPrefix_t` and `uxr_serialize_EntityId_t`. -/
def uxrSerializeGuidT (input : UxrSampleIdentity) : UcdrSerializer σ Unit := do
  uxrSerializeOctets cb input.guidPrefix
  uxrSerializeOctets cb input.entityKey
  ucdrWriteUint8 cb input.entityKind

/-- `uxr_serialize_SampleIdentity`, with `uxr_serialize_SequenceNumber_t`. -/
def uxrSerializeSampleIdentity (input : UxrSampleIdentity) : UcdrSerializer σ Unit := do
  uxrSerializeGuidT cb input
  ucdrWriteInt32 cb input.high
  ucdrWriteUint32 cb input.low

end

/-- A call that writes a submessage.  `uxr_prepare_output_stream` is told the length of the data
that the user serializes afterwards. -/
inductive WriteCall where
  | bufferRequest (requesterId : UxrObjectId) (buffer : List UInt8)
  | bufferReply (replierId : UxrObjectId) (sampleId : UxrSampleIdentity) (buffer : List UInt8)
  | bufferTopic (datawriterId : UxrObjectId) (buffer : List UInt8)
  | prepareOutputStream (entityId : UxrObjectId) (data : List UInt8)
  | create (c : CreateCall)

namespace WriteCall

/-- The payload size that `uxr_prepare_stream_to_write_submessage` is called with.  Only the data of
`uxr_prepare_output_stream` is counted in 32 bits. -/
def payloadSize : WriteCall → ℕ
  | .bufferRequest _ buffer => sizeT (writeDataPayloadSize + buffer.length)
  | .bufferReply _ _ buffer => sizeT (writeDataPayloadSize + sampleIdentitySize + buffer.length)
  | .bufferTopic _ buffer => sizeT (writeDataPayloadSize + buffer.length)
  | .prepareOutputStream _ data => (writeDataPayloadSize + data.length % 4294967296) % 4294967296
  | .create c => createPayloadLength c.objectId ((c.text.length + 1) % 65536)

/-- The submessage that is written. -/
def submessageId : WriteCall → UInt8
  | .create _ => submessageIdCreate
  | _ => XrceDds.submessageIdWriteData

/-- The flags it is written with. -/
def mode : WriteCall → UInt8
  | .create c => c.mode
  | _ => formatData

/-- The entity that a call is about. -/
def entityId : WriteCall → UxrObjectId
  | .bufferRequest entityId _ | .bufferReply entityId _ _ | .bufferTopic entityId _
  | .prepareOutputStream entityId _ => entityId
  | .create c => c.objectId

/-- `base` of the payload, under the request id that was generated for it. -/
def base (requestId : UInt16) (call : WriteCall) : XrceTypes.BaseObjectRequest where
  requestId := ⟨(uxrInitBaseObjectRequest requestId call.entityId).requestId, rfl⟩
  objectId := call.entityId.toOctets

/-- The payload is serialized behind the header.  `uxr_prepare_output_stream` hands out a buffer
that starts behind the request. -/
def serialize (requestId : UInt16) (call : WriteCall) (x : FragmentWindows × UcdrBuffer) :
    Option (FragmentWindows × UcdrBuffer) :=
  let base := call.base requestId
  match call with
  | .bufferRequest _ buffer | .bufferTopic _ buffer =>
    ran (RequestPayload.serialize nextWindow (.writeData base buffer)) x
  | .bufferReply _ sampleId buffer =>
    ran (do
      uxrSerializeBaseObjectRequest nextWindow base
      uxrSerializeSampleIdentity nextWindow sampleId
      ucdrWriteArrayUint8 nextWindow buffer) x
  | .prepareOutputStream _ data =>
    (ran (uxrSerializeBaseObjectRequest nextWindow base) x).bind fun x =>
      ran (ucdrWriteArrayUint8 nextWindow data)
        (x.1, { ucdrInitBuffer x.2.iterator (ucdrBufferRemaining x.2) with
          onFullBuffer := x.2.onFullBuffer })
  | .create c => ran (RequestPayload.serialize nextWindow (.create base c.object)) x

/-- The sizes of the numbers that a payload consists of. -/
def sizes : WriteCall → List ℕ
  | .bufferRequest _ buffer | .bufferTopic _ buffer | .prepareOutputStream _ buffer =>
    List.replicate (4 + buffer.length) 1
  | .bufferReply _ _ buffer => List.replicate 20 1 ++ [4, 4] ++ List.replicate buffer.length 1
  | .create c =>
    List.replicate 6 1 ++ [4] ++ List.replicate (c.text.length + 1) 1 ++ c.representation.sizes

/-- The padding that is counted by hand: two bytes before the length of the string of a CREATE, and
one behind a string of even length when the object id is that of a participant. -/
def countedPadding : WriteCall → ℕ
  | .create c => 2 + if c.objectId.type = objkParticipant ∧ c.text.length % 2 = 0 then 1 else 0
  | _ => 0

/-- The length of a payload with the padding that is counted. -/
def countedLength (call : WriteCall) : ℕ := call.sizes.sum + call.countedPadding

end WriteCall

/-- The call is made on a stream. -/
def OutputStreams.write (streams : OutputStreams) (streamId : UxrStreamId) (call : WriteCall) :
    Option SubmessageReservation :=
  streams.prepareSubmessage streamId call.payloadSize

/-- The bytes that the header and the payload take in what was reserved, when all of both has been
serialized to it. -/
def SubmessageReservation.written (r : SubmessageReservation) (requestId : UInt16)
    (call : WriteCall) : Option (ℕ × ℕ) :=
  (ran (writeSubmessageHeader call.submessageId r.announced call.mode) r.start).bind fun x =>
    (call.serialize requestId x).map fun y =>
      (bytesLeft (r.start.1, ucdrAlignTo r.start.2 4) - bytesLeft x, bytesLeft x - bytesLeft y)

/-- All is serialized behind a header in one piece, the announced length is that of the payload, and
what is reserved is the header and the payload, rounded up. -/
def SubmessageReservation.Exact (r : SubmessageReservation) (requestId : UInt16)
    (call : WriteCall) : Prop :=
  ∃ n, r.written requestId call = some (subheaderSize, n) ∧ r.announced = n ∧
    r.reserved = submessageSize n

/-! ## Where it is serialized -/

/-- Where a submessage of this length starts: in the buffer as far as a `uint32_t` counts it. -/
def OutputBestEffort.standing (stream : OutputBestEffort) (length : ℕ) : Standing :=
  let start := (stream.writer + uxrSubmessagePadding stream.writer) % 4294967296
  ⟨start, (stream.writer + uxrSubmessagePadding stream.writer + length) % 4294967296 - start, []⟩

/-- Where a submessage of this length starts: behind what the current slot holds, behind the room
for the session header of a new one, or at the beginning of a row of FRAGMENT payloads. -/
def OutputReliableStream.standing (stream : OutputReliableStream) (length : ℕ) : Standing :=
  let bufferCapacity := uxrGetReliableBufferCapacity stream.base
  let bufferSize := uxrGetReliableBufferSize stream.base stream.lastWritten
  if sizeT (bufferSize + length) ≤ bufferCapacity then
    ⟨bufferSize, sizeT (bufferSize + length) - bufferSize, []⟩
  else if sizeT (stream.offset + length) ≤ bufferCapacity then
    ⟨stream.offset, sizeT (stream.offset + length) - stream.offset, []⟩
  else
    ⟨0, u32Sub bufferCapacity (firstFragmentBufferSize stream + subheaderSize),
      (announcedFragments stream length).tail⟩

/-- Where a submessage of this length starts in the stream of this identifier. -/
def OutputStreams.standing (streams : OutputStreams) (streamId : UxrStreamId) (length : ℕ) :
    Option Standing :=
  match streamId.type with
  | .bestEffort => streams.bestEffort[streamId.index]?.map (·.standing length)
  | .reliable => streams.reliable[streamId.index]?.map (·.standing length)
  | .none => none

/-- From here on a header takes four bytes, and the numbers of the payload find the padding that is
counted. -/
def WriteCall.FindsPadding (call : WriteCall) (s : Standing) : Prop :=
  ∃ t u, (s.align 4).numbers [1, 1, 2] = some t ∧ (s.align 4).left = t.left + subheaderSize ∧
    t.numbers call.sizes = some u ∧ t.left = u.left + call.countedLength

/-- The windows of the fragments behind the first one are not empty. -/
lemma pos_of_mem_announcedFragments {stream : OutputReliableStream} {length w : ℕ}
    (hblock : availableBlockSize stream ≠ 0)
    (hw : w ∈ (announcedFragments stream length).tail) : 0 < w ∧ w < 65536 := by
  have hblocklt : availableBlockSize stream < 65536 := Nat.mod_lt _ (by decide)
  have hlast := lastFragmentSize_bounds length hblock
  unfold announcedFragments at hw
  cases hn : necessaryCompleteBlocks stream length with
  | zero =>
    rw [hn] at hw
    cases hw
  | succ n =>
    rw [hn, completeBlockSizes_succ, List.cons_append, List.tail_cons, List.mem_append,
      List.mem_singleton] at hw
    rcases hw with hmem | rfl
    · rw [List.eq_of_mem_replicate hmem]
      exact ⟨Nat.pos_of_ne_zero hblock, hblocklt⟩
    · exact ⟨hlast.1, hlast.2.trans_lt hblocklt⟩

/-- A best-effort stream hands out a buffer that starts there. -/
lemma startsAt_bestEffort {stream stream' : OutputBestEffort} {length : ℕ} {ub : UcdrBuffer}
    (h : stream.prepareBufferToWrite length = some (stream', ub)) :
    StartsAt (stream.standing length) (⟨[], ub.final, false⟩, ub) := by
  unfold OutputBestEffort.prepareBufferToWrite at h
  dsimp only at h
  split at h
  · obtain ⟨-, rfl⟩ := Prod.mk.inj (Option.some.inj h)
    unfold OutputBestEffort.standing sizeT
    refine ⟨rfl, rfl, rfl, rfl, fun _ => rfl, Nat.zero_le _, ?_, ?_, ?_, rfl, nofun⟩
    · exact (Nat.sub_zero _).trans (Nat.zero_add _)
    · simp only [ucdrInitBufferOriginOffset]
      omega
    · simp only [ucdrInitBufferOriginOffset]
      omega
  · cases h

/-- The bodies of the slots are found in 64 bits. -/
lemma uxrGetReliableBuffer_lt (base : ReliableStream) (j : ℕ) :
    uxrGetReliableBuffer base j < 1000000000000000 := by
  have hslot : j % base.history ≤ 65535 := by
    have := Nat.mod_lt j base.history_pos
    have := base.history_lt
    omega
  have hcap := capacity_lt base
  have hmul := Nat.mul_le_mul hslot (show uxrGetReliableBufferCapacity base +
    4 ≤ 4294967299 by omega)
  rw [uxrGetReliableBuffer_eq]
  omega

/-- A buffer in a slot starts where it was told to. -/
lemma startsAt_slot (base : ReliableStream) (j : ℕ) {place n : ℕ}
    (hn : n ≤ uxrGetReliableBufferCapacity base) :
    StartsAt ⟨place, n - place, []⟩
      (⟨[], uxrGetReliableBuffer base j + n, false⟩,
        ucdrInitBufferOriginOffset (uxrGetReliableBuffer base j) n 0 place) := by
  have hcap := capacity_lt base
  have hbuffer := uxrGetReliableBuffer_lt base j
  refine ⟨rfl, rfl, rfl, rfl, fun _ => rfl, Nat.zero_le _, ?_, ?_, ?_, rfl, nofun⟩
  · exact (Nat.sub_zero _).trans (Nat.zero_add _)
  · simp only [ucdrInitBufferOriginOffset]
    omega
  · simp only [ucdrInitBufferOriginOffset]
    omega

/-- A buffer for the first of several windows starts at the beginning of that. -/
lemma startsAt_windows {address n : ℕ} {ws : List ℕ} (hn : address + n < 18446744073709551616)
    (hws : ∀ w ∈ ws, 0 < w ∧ w < 18446744073709551616) :
    StartsAt ⟨0, n, ws⟩
      (⟨ws, address + n, false⟩, ucdrSetOnFullBufferCallback (ucdrInitBuffer address n)) :=
  ⟨rfl, rfl, rfl, rfl, nofun, Nat.le_refl _, rfl, (Nat.add_sub_cancel_left _ _).symm, hn, rfl, hws⟩

/-- So does a reliable stream that fragments. -/
lemma startsAt_fragments {stream : OutputReliableStream} {length : ℕ} {r : PrepareResult}
    (h : prepareFragments stream length (ucdrInitBuffer 0 0) = some r)
    (havailable : r.availableToWrite = true) :
    StartsAt
      ⟨0, u32Sub (uxrGetReliableBufferCapacity stream.base)
        (firstFragmentBufferSize stream + subheaderSize), (announcedFragments stream length).tail⟩
      (windowsBehind stream length r.ub, r.ub) := by
  have hbuffer := uxrGetReliableBuffer_lt stream.base (firstFragmentSeqNum stream)
  have hheld : firstFragmentBufferSize stream < 4294967296 := uxrGetReliableBufferSize_lt _ _
  have hroom : u32Sub (uxrGetReliableBufferCapacity stream.base)
      (firstFragmentBufferSize stream + subheaderSize) < 4294967296 := Nat.mod_lt _ (by decide)
  unfold prepareFragments at h
  dsimp only at h
  split at h
  · cases h
  · next hblock =>
    split at h
    · rw [← Option.some.inj h]
      refine startsAt_windows ?_ fun w hw => ?_
      · simp only [subheaderSize] at hroom ⊢
        omega
      · have hbounds := pos_of_mem_announcedFragments hblock hw
        exact ⟨hbounds.1, hbounds.2.trans (by decide)⟩
    · rw [← Option.some.inj h] at havailable
      cases havailable

/-- So does a reliable stream. -/
lemma startsAt_reliable {stream : OutputReliableStream} {length : ℕ} {r : PrepareResult}
    (h : uxrPrepareReliableBufferToWrite stream length (ucdrInitBuffer 0 0) = some r)
    (havailable : r.availableToWrite = true) :
    StartsAt (stream.standing length) (windowsBehind stream length r.ub, r.ub) := by
  unfold uxrPrepareReliableBufferToWrite at h
  unfold OutputReliableStream.standing
  dsimp only at h ⊢
  split at h
  · next hcurrent =>
    rw [if_pos hcurrent]
    split at h
    · rw [← Option.some.inj h]
      exact startsAt_slot stream.base stream.lastWritten hcurrent
    · rw [← Option.some.inj h] at havailable
      cases havailable
  · next hcurrent =>
    rw [if_neg hcurrent]
    split at h
    · next hnew =>
      rw [if_pos hnew]
      split at h
      · rw [← Option.some.inj h]
        exact startsAt_slot stream.base (uxrSeqNumAdd stream.lastWritten 1) hnew
      · rw [← Option.some.inj h] at havailable
        cases havailable
    · next hnew =>
      rw [if_neg hnew]
      exact startsAt_fragments h havailable

/-- What an accepted submessage is announced with, and where it starts. -/
lemma OutputStreams.prepareSubmessage_eq {streams : OutputStreams} {streamId : UxrStreamId}
    {payloadSize : ℕ} {r : SubmessageReservation}
    (h : streams.prepareSubmessage streamId payloadSize = some r) :
    r.announced = payloadSize % 65536 ∧
      ∃ s, streams.standing streamId
          (sizeT (subheaderSize + payloadSize + uxrSubmessagePadding payloadSize)) = some s ∧
        StartsAt s r.start := by
  unfold prepareSubmessage at h
  unfold standing
  dsimp only at h
  split at h
  · split at h
    · cases h
    · next stream hstream =>
      split at h
      · cases h
      · next stream' ub hub =>
        rw [← Option.some.inj h, hstream]
        exact ⟨rfl, _, rfl, startsAt_bestEffort hub⟩
  · split at h
    · cases h
    · next stream hstream =>
      split at h
      · cases h
      · next result hresult =>
        split at h
        · next havailable =>
          rw [← Option.some.inj h, hstream]
          exact ⟨rfl, _, rfl, startsAt_reliable hresult havailable⟩
        · cases h
  · cases h

namespace WriteCall

/-- The numbers of a CREATE payload. -/
lemma lands_create (c : CreateCall) (base : XrceTypes.BaseObjectRequest) :
    Lands (RequestPayload.serialize nextWindow (.create base c.object)) (sizes (.create c)) := by
  have htext := Lands.string c.text
  have hthree : Lands (uxrSerializeRepresentation3Formats nextWindow (c.format.threeFormats c.text))
      ([1] ++ ([4] ++ List.replicate (c.text.length + 1) 1)) := by
    refine (Lands.uint8 _).bind (Lands.ifRet ?_)
    cases c.format <;> exact htext
  have hxml : Lands (uxrSerializeBinAndXmlFormats nextWindow (.asXmlString c.text))
      ([1] ++ ([4] ++ List.replicate (c.text.length + 1) 1)) :=
    (Lands.uint8 _).bind (Lands.ifRet htext)
  suffices h : Lands (uxrSerializeObjectVariant nextWindow c.object)
      ([1] ++ (([1] ++ ([4] ++ List.replicate (c.text.length + 1) 1)) ++
        c.representation.sizes)) by
    have hcreate := (Lands.baseObjectRequest base).bind h
    rw [sizes, List.append_assoc (_ ++ _)]
    rwa [List.append_assoc] at hcreate
  unfold uxrSerializeObjectVariant CreateCall.object
  refine (Lands.uint8 _).bind (Lands.ifRet ?_)
  cases c.representation with
  | participant domainId => exact hthree.bind (Lands.number 1 _)
  | publisher id | subscriber id => exact hxml.bind (Lands.octets _)
  | topic id | dataWriter id | dataReader id | requester id | replier id =>
    exact hthree.bind (Lands.octets _)

/-- The numbers of a reply. -/
lemma lands_reply (base : XrceTypes.BaseObjectRequest) (sampleId : UxrSampleIdentity)
    (buffer : List UInt8) :
    Lands (do
      uxrSerializeBaseObjectRequest nextWindow base
      uxrSerializeSampleIdentity nextWindow sampleId
      ucdrWriteArrayUint8 nextWindow buffer)
      (List.replicate 20 1 ++ [4, 4] ++ List.replicate buffer.length 1) := by
  have hguid := (Lands.octets sampleId.guidPrefix).bind
    ((Lands.octets sampleId.entityKey).bind (Lands.uint8 sampleId.entityKind))
  have hnumber := (Lands.number 2 sampleId.high.toUInt32.toNat).bind
    (Lands.number 2 sampleId.low.toNat)
  exact (Lands.baseObjectRequest base).bind ((hguid.bind hnumber).bind (Lands.arrayUint8 buffer))

/-- The numbers of a request and its data. -/
lemma lands_data (base : XrceTypes.BaseObjectRequest) (buffer : List UInt8) :
    Lands (RequestPayload.serialize nextWindow (.writeData base buffer))
      (List.replicate (4 + buffer.length) 1) := by
  have h := (Lands.baseObjectRequest base).bind (Lands.arrayUint8 buffer)
  rwa [List.replicate_append_replicate, List.replicate_append_replicate] at h

/-- A function that has written its numbers leaves what they leave. -/
lemma ran_lands {f : UcdrSerializer FragmentWindows Unit} {ns : List ℕ} (hf : Lands f ns)
    {t : Standing} {y : FragmentWindows × UcdrBuffer} (h : StandsAt t y) :
    (∃ u z, t.numbers ns = some u ∧ ran f y = some z ∧ bytesLeft z = u.left) ∨
      (t.numbers ns = none ∧ ran f y = none) := by
  rcases ran_of_endsAt (hf.ends h) with ⟨u, z, hu, hz, hstands⟩ | hnone
  · exact .inl ⟨u, z, hu, hz, hstands.left_eq⟩
  · exact .inr hnone

/-- A buffer that is handed out anew has the same room, from its own beginning. -/
lemma standsAt_restart {t : Standing} {x : FragmentWindows × UcdrBuffer} (h : StandsAt t x) :
    StandsAt { t with place := 0 }
      (x.1, { ucdrInitBuffer x.2.iterator (ucdrBufferRemaining x.2) with
        onFullBuffer := x.2.onFullBuffer }) := by
  have hroom := h.room_eq
  have hlt := h.final_lt
  have hremaining : ucdrBufferRemaining x.2 = t.room := by
    unfold ucdrBufferRemaining
    omega
  rw [hremaining]
  refine ⟨rfl, h.inside, ?_, h.behind_eq, h.callback, Nat.le_refl _, rfl, rfl, ?_, ?_,
    h.windows_pos⟩
  · exact h.final_eq.trans hroom.symm
  · exact hroom.trans_lt hlt
  · exact fun k hk => absurd hk (Nat.not_le.mpr (Nat.two_pow_pos k))

/-- The numbers of the payload are written where they have a place. -/
lemma serialize_lands (call : WriteCall) (requestId : UInt16) {t : Standing}
    {y : FragmentWindows × UcdrBuffer} (h : StandsAt t y) :
    (∃ u z, t.numbers call.sizes = some u ∧ call.serialize requestId y = some z ∧
        bytesLeft z = u.left) ∨
      (t.numbers call.sizes = none ∧ call.serialize requestId y = none) := by
  cases call with
  | bufferRequest objectId buffer | bufferTopic objectId buffer =>
    exact ran_lands (lands_data _ buffer) h
  | bufferReply objectId sampleId buffer => exact ran_lands (lands_reply _ sampleId buffer) h
  | create c => exact ran_lands (lands_create c _) h
  | prepareOutputStream objectId data =>
    unfold serialize sizes
    dsimp only
    rw [← List.replicate_append_replicate, Standing.numbers_append]
    have hbase := (Lands.baseObjectRequest
      (base requestId (.prepareOutputStream objectId data))).ends h
    rw [List.replicate_append_replicate] at hbase
    rcases ran_of_endsAt hbase with ⟨u, z, hu, hz, hstands⟩ | ⟨hnumbers, hran⟩
    · rw [hu, hz, Option.bind_some, Option.bind_some]
      have hleft := Standing.left_numbers_bytes u 0 data.length
      rcases ran_lands (Lands.arrayUint8 data) (standsAt_restart hstands) with
        ⟨v, w, hv, hw, hvw⟩ | ⟨hv, hw⟩
      · rw [hv] at hleft
        obtain ⟨v', hv', heq⟩ := Option.map_eq_some_iff.mp hleft.symm
        exact .inl ⟨v', w, hv', hw, hvw.trans heq.symm⟩
      · rw [hv] at hleft
        exact .inr ⟨Option.map_eq_none_iff.mp hleft.symm, hw⟩
    · rw [hnumbers, hran]
      exact .inr ⟨rfl, rfl⟩

/-- The bytes of a CREATE payload without its padding. -/
lemma sum_sizes_create (c : CreateCall) : (sizes (.create c)).sum = 13 + c.text.length := by
  have htail : c.representation.sizes.sum = 2 := by
    cases c.representation <;> rfl
  simp only [sizes, List.sum_append, List.sum_replicate_nat, List.sum_cons, List.sum_nil, htail]
  omega

/-- The payload size is counted right up to 16 bits. -/
lemma payloadSize_mod (call : WriteCall) :
    call.payloadSize % 65536 = call.countedLength % 65536 := by
  unfold countedLength
  cases call with
  | create c =>
    rw [sum_sizes_create]
    unfold payloadSize countedPadding createPayloadLength
    dsimp only
    by_cases htype : c.objectId.type = objkParticipant
    · simp only [htype, true_and]
      split <;> split <;> omega
    · simp only [htype, false_and, if_false]
      omega
  | bufferReply objectId sampleId buffer =>
    simp only [payloadSize, sizes, countedPadding, sizeT, writeDataPayloadSize, sampleIdentitySize,
      List.sum_append, List.sum_replicate_nat, List.sum_cons, List.sum_nil]
    omega
  | bufferRequest objectId buffer | bufferTopic objectId buffer
  | prepareOutputStream objectId buffer =>
    simp only [payloadSize, sizes, countedPadding, sizeT, writeDataPayloadSize,
      List.sum_replicate_nat]
    omega

/-- A payload that is representable is reserved under its own length. -/
lemma payloadSize_eq {call : WriteCall} (h : call.countedLength ≤ 65535) :
    call.payloadSize = call.countedLength := by
  have hmod := call.payloadSize_mod
  unfold countedLength at h hmod ⊢
  cases call with
  | create c =>
    unfold payloadSize createPayloadLength at hmod ⊢
    dsimp only at hmod ⊢
    omega
  | bufferReply objectId sampleId buffer =>
    simp only [payloadSize, sizes, countedPadding, sizeT, writeDataPayloadSize, sampleIdentitySize,
      List.sum_append, List.sum_replicate_nat, List.sum_cons, List.sum_nil] at h ⊢
    omega
  | bufferRequest objectId buffer | bufferTopic objectId buffer
  | prepareOutputStream objectId buffer =>
    simp only [payloadSize, sizes, countedPadding, sizeT, writeDataPayloadSize,
      List.sum_replicate_nat] at h ⊢
    omega

/-- No more than three bytes of padding are counted. -/
lemma countedPadding_le (call : WriteCall) : call.countedPadding ≤ 3 := by
  unfold countedPadding
  split
  · split <;> omega
  · omega

end WriteCall

/-- All of an accepted submessage is written behind its header in one piece, in `n` bytes, exactly
when its numbers have places that take these. -/
lemma SubmessageReservation.written_iff {r : SubmessageReservation} (requestId : UInt16)
    (call : WriteCall) {s : Standing} (h : StartsAt s r.start) (n : ℕ) :
    r.written requestId call = some (subheaderSize, n) ↔
      ∃ t u, (s.align 4).numbers [1, 1, 2] = some t ∧ (s.align 4).left = t.left + subheaderSize ∧
        t.numbers call.sizes = some u ∧ t.left = u.left + n := by
  have hstart : bytesLeft (r.start.1, ucdrAlignTo r.start.2 4) = (s.align 4).left := h.align.left_eq
  unfold written
  rw [hstart]
  rcases ran_of_endsAt (h.header call.submessageId r.announced call.mode) with
    ⟨t, y, ht, hy, hstands⟩ | ⟨ht, hy⟩
  · have hheader := Standing.left_numbers ht
    have hleft : bytesLeft y = t.left := hstands.left_eq
    rw [hy, Option.bind_some, ht]
    rcases call.serialize_lands requestId hstands with ⟨u, z, hu, hz, hzu⟩ | ⟨hu, hz⟩
    · have hpayload := Standing.left_numbers hu
      rw [hz, Option.map_some, hleft, hzu]
      simp only [List.sum_cons, List.sum_nil] at hheader
      constructor
      · intro heq
        obtain ⟨h₁, h₂⟩ := Prod.mk.inj (Option.some.inj heq)
        exact ⟨t, u, rfl, by omega, hu, by omega⟩
      · rintro ⟨t', u', ht', h₁, hu', h₂⟩
        obtain rfl := Option.some.inj ht'
        rw [hu] at hu'
        obtain rfl := Option.some.inj hu'
        rw [h₁, h₂, Nat.add_sub_cancel_left, Nat.add_sub_cancel_left]
    · rw [hz]
      refine iff_of_false nofun ?_
      rintro ⟨t', u', ht', -, hu', -⟩
      obtain rfl := Option.some.inj ht'
      rw [hu] at hu'
      cases hu'
  · rw [hy, ht]
    refine iff_of_false nofun ?_
    rintro ⟨t', u', ht', -⟩
    cases ht'

/-! ## Windows that keep to multiples of four -/

/-- The padding of a CREATE is counted when there is one: a string of even length is followed by
it in a participant, and is taken to be so when the object id is that of a participant. -/
def WriteCall.PaddingCounted : WriteCall → Prop
  | .create c => c.text.length % 2 = 1 ∨
    (c.objectId.type = objkParticipant ↔ c.object.kind = objkParticipant)
  | _ => True

instance (call : WriteCall) : Decidable call.PaddingCounted := by
  cases call <;> unfold WriteCall.PaddingCounted <;> infer_instance

/-- What a payload takes from a multiple of four on in one piece. -/
lemma WriteCall.extent_sizes_iff (call : WriteCall) :
    extent 0 call.sizes = call.countedLength ↔ call.PaddingCounted := by
  have hbytes := fun p k => extent_bytes p k []
  simp only [List.append_nil, extent, Nat.add_zero] at hbytes
  unfold countedLength
  cases call with
  | create c =>
    have htail : ∀ p, extent p c.representation.sizes =
        2 + if c.object.kind = objkParticipant ∧ p % 2 = 1 then 1 else 0 := by
      intro p
      unfold CreateCall.object
      cases c.representation with
      | participant domainId =>
        simp only [CreateRepresentation.sizes, extent, Layout.gap, XrceTypes.ObjectVariant.kind,
          true_and]
        split <;> omega
      | topic id | publisher id | subscriber id | dataWriter id | dataReader id | requester id
      | replier id =>
        simp only [CreateRepresentation.sizes, extent, Layout.gap, Nat.mod_one]
        rfl
    have hextent : extent 0 (sizes (.create c)) = 15 + c.text.length +
        if c.object.kind = objkParticipant ∧ c.text.length % 2 = 0 then 1 else 0 := by
      have hodd : (0 + 6 + (Layout.gap 4 (0 + 6) + 4) + (c.text.length + 1)) % 2 = 1 ↔
          c.text.length % 2 = 0 := by
        rw [show Layout.gap 4 (0 + 6) = 2 from rfl]
        omega
      rw [sizes, List.append_assoc, List.append_assoc, extent_bytes, List.singleton_append, extent,
        extent_bytes, htail]
      simp only [hodd]
      rw [show Layout.gap 4 (0 + 6) = 2 from rfl]
      omega
    rw [hextent, sum_sizes_create]
    unfold countedPadding PaddingCounted
    dsimp only
    by_cases heven : c.text.length % 2 = 0
    · have hne : c.text.length % 2 ≠ 1 := by omega
      simp only [heven, and_true]
      by_cases htype : c.objectId.type = objkParticipant <;>
        by_cases hkind : c.object.kind = objkParticipant <;>
        simp [htype, hkind] <;> omega
    · simp only [heven, and_false, if_false]
      exact iff_of_true (by omega) (.inl (by omega))
  | bufferReply objectId sampleId buffer =>
    have hextent : extent 0 (sizes (.bufferReply objectId sampleId buffer)) =
      28 + buffer.length := by
      rw [sizes, List.append_assoc, extent_bytes, List.cons_append, List.singleton_append, extent,
        extent, hbytes, show Layout.gap 4 (0 + 20) = 0 from rfl,
        show Layout.gap 4 (0 + 20 + (0 + 4)) = 0 from rfl]
      omega
    have hsum : (sizes (.bufferReply objectId sampleId buffer)).sum = 28 + buffer.length := by
      simp only [sizes, List.sum_append, List.sum_replicate_nat, List.sum_cons, List.sum_nil]
      omega
    refine iff_of_true ?_ trivial
    rw [hextent, hsum]
    rfl
  | bufferRequest objectId buffer | bufferTopic objectId buffer
  | prepareOutputStream objectId buffer =>
    refine iff_of_true ?_ trivial
    rw [sizes, hbytes, List.sum_replicate_nat, Nat.mul_one]
    exact (Nat.add_zero _).symm

/-- Only bytes and numbers of two and four bytes are written. -/
lemma WriteCall.mem_sizes {call : WriteCall} {n : ℕ} (hn : n ∈ call.sizes) : 0 < n ∧ n ∣ 4 := by
  suffices h : n = 1 ∨ n = 2 ∨ n = 4 by
    rcases h with rfl | rfl | rfl <;> decide
  cases call with
  | create c =>
    have htail : ∀ k ∈ c.representation.sizes, k = 1 ∨ k = 2 := by
      intro k
      cases c.representation <;> simp [CreateRepresentation.sizes] <;> omega
    simp only [sizes, List.mem_append, List.mem_singleton, List.mem_replicate] at hn
    rcases hn with ((hn | hn) | hn) | hn
    · exact .inl hn.2
    · exact .inr (.inr hn)
    · exact .inl hn.2
    · exact (htail n hn).imp_right .inl
  | bufferReply objectId sampleId buffer =>
    simp only [sizes, List.mem_append, List.mem_cons, List.not_mem_nil, List.mem_replicate] at hn
    rcases hn with (hn | hn | hn | hn) | hn
    · exact .inl hn.2
    · exact .inr (.inr hn)
    · exact .inr (.inr hn)
    · exact hn.elim
    · exact .inl hn.2
  | bufferRequest objectId buffer | bufferTopic objectId buffer
  | prepareOutputStream objectId buffer => exact .inl (List.eq_of_mem_replicate hn)

/-- Where all windows but the last begin and end at multiples of four, and have room for the payload
as it is counted, it finds the padding that is counted unless this is that of another type. -/
theorem WriteCall.findsPadding_iff {call : WriteCall} {s : Standing} (hplace : 4 ∣ s.place)
    (haligned : EndsAligned 4 (s.place + s.room) s.windows)
    (hroom : subheaderSize + call.countedLength ≤ s.left) :
    call.FindsPadding s ↔ call.PaddingCounted := by
  have hall : ∀ n ∈ [1, 1, 2] ++ call.sizes, 0 < n ∧ n ∣ 4 := by
    intro n hn
    rw [List.mem_append] at hn
    rcases hn with hn | hn
    · revert n
      decide
    · exact WriteCall.mem_sizes hn
  have halign : s.align 4 = s := by
    have hgap := Layout.gap_of_dvd hplace
    ext1
    · exact (congrArg (s.place + ·) hgap).trans (Nat.add_zero _)
    · exact (congrArg (s.room - ·) hgap).trans (Nat.sub_zero _)
    · rfl
  -- the header takes four bytes, and the payload what it takes from a multiple of four on
  have hmod : s.place % 4 = 0 % 4 := Nat.mod_eq_zero_of_dvd hplace
  have hheader : extent s.place [1, 1, 2] = 4 :=
    (extent_congr (m := 4) (by decide) hmod).trans (by decide)
  have hextent : extent s.place ([1, 1, 2] ++ call.sizes) = 4 + extent 0 call.sizes := by
    have hfour : extent 4 call.sizes = extent 0 call.sizes :=
      extent_congr (m := 4) (fun n hn => (WriteCall.mem_sizes hn).2) rfl
    rw [extent_congr (m := 4) (fun n hn => (hall n hn).2) hmod, ← hfour]
    change 1 + (1 + (2 + extent 4 call.sizes)) = 4 + extent 4 call.sizes
    omega
  rw [subheaderSize] at hroom
  obtain ⟨t, ht, htleft⟩ :=
    (numbers_of_aligned haligned (show ∀ n ∈ [1, 1, 2], 0 < n ∧ n ∣ 4 by decide)).1 (by omega)
  have hboth := numbers_of_aligned haligned hall
  rw [Standing.numbers_append, ht, Option.bind_some, hextent] at hboth
  rw [hheader] at htleft
  rw [← call.extent_sizes_iff]
  unfold FindsPadding
  rw [halign, ht]
  rw [subheaderSize]
  constructor
  · rintro ⟨t', u, ht', -, hu, hleft⟩
    rw [← Option.some.inj ht'] at hu hleft
    by_cases hfits : 4 + extent 0 call.sizes ≤ s.left
    · obtain ⟨u', hu', huleft⟩ := hboth.1 hfits
      rw [hu] at hu'
      rw [← Option.some.inj hu'] at huleft
      omega
    · rw [hboth.2 (Nat.lt_of_not_le hfits)] at hu
      cases hu
  · intro hextent
    obtain ⟨u, hu, huleft⟩ := hboth.1 (by omega)
    exact ⟨t, u, rfl, htleft, hu, by omega⟩

/-! ## How much is reserved -/

/-- The fragments hold what the first one holds and `remaining_size`, unless this is zero. -/
lemma sum_announcedFragments (stream : OutputReliableStream) (length : ℕ)
    (hblock : availableBlockSize stream ≠ 0) :
    (announcedFragments stream length).sum =
      if remainingSize stream length = 0 then availableBlockSize stream
      else firstFragmentSize stream + remainingSize stream length := by
  have hdiv := Nat.div_add_mod (remainingSize stream length) (availableBlockSize stream)
  have hsum : ∀ n,
      (completeBlockSizes (availableBlockSize stream) (n + 1) (firstFragmentSize stream)).sum =
        firstFragmentSize stream + n * availableBlockSize stream := by
    intro n
    rw [completeBlockSizes_succ, List.sum_cons, List.sum_replicate_nat]
  unfold announcedFragments necessaryCompleteBlocks lastFragmentSize
  rw [List.sum_append, List.sum_singleton]
  by_cases hmod : remainingSize stream length % availableBlockSize stream = 0
  · rw [if_pos hmod, if_pos hmod]
    rw [hmod, Nat.add_zero] at hdiv
    cases hn : remainingSize stream length / availableBlockSize stream with
    | zero =>
      rw [hn, Nat.mul_zero] at hdiv
      rw [if_pos hdiv.symm]
      exact Nat.zero_add _
    | succ n =>
      rw [hn, Nat.mul_succ, Nat.mul_comm] at hdiv
      rw [if_neg (by omega), hsum]
      omega
  · have hzero : remainingSize stream length ≠ 0 := by
      intro hzero
      rw [hzero, Nat.zero_mod] at hmod
      exact hmod rfl
    rw [if_neg hmod, if_neg hmod, if_neg hzero, hsum, Nat.mul_comm]
    omega

/-- What remains of a submessage behind the first of its fragments is counted right in 16 bits.
Where nothing remains, one fragment is laid out, which takes a whole slot. -/
def RemainderCounted (stream : OutputReliableStream) (length : ℕ) : Prop :=
  if length = firstFragmentSize stream then availableBlockSize stream = length
  else firstFragmentSize stream < length ∧ length - firstFragmentSize stream < 65536

instance (stream : OutputReliableStream) (length : ℕ) :
    Decidable (RemainderCounted stream length) := by
  unfold RemainderCounted; infer_instance

/-- A submessage is written in one piece, or its fragments are counted right. -/
def ReservesWhole (stream : OutputReliableStream) (length : ℕ) : Prop :=
  uxrGetReliableBufferSize stream.base stream.lastWritten + length ≤
      uxrGetReliableBufferCapacity stream.base ∨
    stream.offset + length ≤ uxrGetReliableBufferCapacity stream.base ∨
    RemainderCounted stream length

instance (stream : OutputReliableStream) (length : ℕ) :
    Decidable (ReservesWhole stream length) := by
  unfold ReservesWhole; infer_instance

/-- The fragments hold the submessage exactly when its remainder is counted right. -/
lemma sum_announcedFragments_eq_iff (stream : OutputReliableStream) {length : ℕ}
    (hblock : availableBlockSize stream ≠ 0) :
    (announcedFragments stream length).sum = length ↔ RemainderCounted stream length := by
  have hfirst : firstFragmentSize stream < 65536 := Nat.mod_lt _ (by decide)
  have hblocklt : availableBlockSize stream < 65536 := Nat.mod_lt _ (by decide)
  rw [sum_announcedFragments stream length hblock]
  unfold RemainderCounted remainingSize u16Sub
  split
  · split
    · exact Iff.rfl
    · omega
  · split
    · omega
    · omega

/-- On a reliable stream the bytes that are reserved are those of the submessage exactly then. -/
lemma reservedBytes_eq_iff {stream : OutputReliableStream} (hoffset : stream.offset < 256)
    {length : ℕ} (hlength : length ≤ 65540) {ub : UcdrBuffer} {r : PrepareResult}
    (h : uxrPrepareReliableBufferToWrite stream length ub = some r) :
    reservedBytes stream length = length ↔ ReservesWhole stream length := by
  have hsize := uxrGetReliableBufferSize_lt stream.base stream.lastWritten
  have hcurrent : sizeT (uxrGetReliableBufferSize stream.base stream.lastWritten + length) =
      uxrGetReliableBufferSize stream.base stream.lastWritten + length :=
    Nat.mod_eq_of_lt (by omega)
  have hnew : sizeT (stream.offset + length) = stream.offset + length :=
    Nat.mod_eq_of_lt (by omega)
  unfold reservedBytes ReservesWhole
  dsimp only
  rw [hcurrent, hnew]
  split
  · next hfits => exact iff_of_true (Nat.add_sub_cancel_left ..) (.inl hfits)
  · next hcurrent' =>
    split
    · next hfits => exact iff_of_true (Nat.add_sub_cancel_left ..) (.inr (.inl hfits))
    · next hnew' =>
      have hblock : availableBlockSize stream ≠ 0 := by
        intro hzero
        unfold uxrPrepareReliableBufferToWrite prepareFragments at h
        dsimp only at h
        rw [hcurrent, hnew, if_neg hcurrent', if_neg hnew', if_pos hzero] at h
        cases h
      rw [sum_announcedFragments_eq_iff stream hblock]
      exact ⟨fun h => .inr (.inr h), fun h => (h.resolve_left hcurrent').resolve_left hnew'⟩

/-- The reliable stream of this identifier reserves all of a submessage. -/
def OutputStreams.ReservesWhole (streams : OutputStreams) (streamId : UxrStreamId) (length : ℕ) :
    Prop :=
  streamId.type = .reliable → ∀ stream, streams.reliable[streamId.index]? = some stream →
    XrceDds.ReservesWhole stream length

/-- The numbers of a payload find the padding that is counted in the stream of this identifier. -/
def OutputStreams.FindsPadding (streams : OutputStreams) (streamId : UxrStreamId)
    (call : WriteCall) : Prop :=
  ∃ s, streams.standing streamId (submessageSize call.countedLength) = some s ∧ call.FindsPadding s

/-- A best effort stream reserves all of a submessage. -/
lemma OutputBestEffort.reserves_eq {stream stream' : OutputBestEffort} {ub : UcdrBuffer}
    (hle : stream.writer ≤ stream.size) (hlt : stream.size < 9223372036854775808) {length : ℕ}
    (hlength : length ≤ 65540) (h : stream.prepareBufferToWrite length = some (stream', ub)) :
    stream'.writer - stream.writer = length := by
  unfold prepareBufferToWrite at h
  dsimp only at h
  split at h
  · have hwriter : sizeT (stream.writer + length) = stream.writer + length :=
      Nat.mod_eq_of_lt (by omega)
    rw [hwriter] at h
    rw [← (Prod.mk.inj (Option.some.inj h)).1]
    exact Nat.add_sub_cancel_left _ _
  · cases h

/-- What is reserved is the submessage, on a best effort stream always. -/
lemma OutputStreams.reserved_eq_iff {streams : OutputStreams} {streamId : UxrStreamId}
    {payloadSize : ℕ} (hsize : payloadSize ≤ 65535) {r : SubmessageReservation}
    (h : streams.prepareSubmessage streamId payloadSize = some r) :
    r.reserved = submessageSize payloadSize ↔
      streams.ReservesWhole streamId (submessageSize payloadSize) := by
  have hlength : submessageSize payloadSize ≤ 65540 := by
    unfold submessageSize uxrSubmessagePadding subheaderSize
    split <;> omega
  have hsubmessage : sizeT (subheaderSize + payloadSize + uxrSubmessagePadding payloadSize) =
      submessageSize payloadSize := Nat.mod_eq_of_lt (by
    unfold submessageSize at hlength
    omega)
  unfold prepareSubmessage at h
  dsimp only at h
  rw [hsubmessage] at h
  split at h
  · next htype =>
    -- best effort
    refine iff_of_true ?_ fun hreliable => ?_
    · split at h
      · cases h
      · next stream hstream =>
        split at h
        · cases h
        · next hwriter =>
          rw [← Option.some.inj h]
          have hbounds := streams.writer_le stream (List.mem_of_getElem? hstream)
          exact OutputBestEffort.reserves_eq hbounds.1 hbounds.2 hlength hwriter
    · rw [htype] at hreliable
      cases hreliable
  · next htype =>
    -- reliable
    split at h
    · cases h
    · next stream hstream =>
      split at h
      · cases h
      · next result hresult =>
        split at h
        · have hoffset := streams.offset_lt stream (List.mem_of_getElem? hstream)
          rw [← Option.some.inj h]
          refine (reservedBytes_eq_iff hoffset hlength hresult).trans
            ⟨fun hwhole _ other hother => ?_,
            fun hwhole => hwhole htype stream hstream⟩
          rw [hstream] at hother
          rwa [← Option.some.inj hother]
        · cases h
  · cases h

/-- A quarter of the buffer has room for what is kept of a slot, and is not too long for one. -/
lemma quarter_bounds {capacity : ℕ} (hcapacity : capacity < 1000) :
    internalReliableBufferOffset ≤ (capacity + internalReliableBufferOffset) * 4 / 4 ∧
      (capacity + internalReliableBufferOffset) * 4 / 4 < 4294967296 := by
  rw [Nat.mul_div_cancel _ (by decide)]
  exact ⟨Nat.le_add_left _ _, by unfold internalReliableBufferOffset; omega⟩

/-- Four slots of `capacity` bytes, as they are initialised. -/
def fourSlots (capacity : ℕ) (hcapacity : capacity < 1000) : OutputReliableStream :=
  uxrInitOutputReliableStream
    { buffer := fun _ => 0
      size := (capacity + internalReliableBufferOffset) * 4
      history := 4
      history_pos := by decide
      history_lt := by decide
      slot_ge := (quarter_bounds hcapacity).1
      slot_lt := (quarter_bounds hcapacity).2 } 4

/-- The only stream of a session is reliable. -/
def onlyReliable (stream : OutputReliableStream) (h : stream.offset < 256) : OutputStreams where
  bestEffort := []
  reliable := [stream]
  writer_le := nofun
  offset_lt := by simpa using h

/-- A call that creates a participant from a string of 20 characters. -/
def twentyCharacters : WriteCall :=
  .create (uxrBufferCreateParticipantXml ⟨1, 1⟩ (List.replicate 20 60) 0 7)

-- in slots of 43 bytes the string ends in the second FRAGMENT, where the domain needs no padding
example : ((onlyReliable (fourSlots 43 (by decide)) (by decide)).write ⟨0, .reliable⟩
    twentyCharacters).map (fun r => (r.announced, r.written 10 twentyCharacters)) =
      some (36, some (4, 35)) := by
  decide +kernel

end XrceDds
