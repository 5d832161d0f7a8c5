import XrceDds.Client.UcdrSerializer
import XrceDds.Protocol.XrceTypes

/-!
# Serializing requests

The functions of `xrce_types.c` that write the payloads of what the client sends.  Each one writes
what the layout of its type gives, as long as there is room. -/

namespace XrceDds

open ByteMemory AlignedCodec

namespace XrceTypes

section

variable {σ : Type} [UcdrMemory σ] (cb : OnFullBuffer σ)

/-- The types that are arrays: `uxr_serialize_XrceCookie`, `uxr_serialize_XrceVersion`,
`uxr_serialize_XrceVendorId`, `uxr_serialize_ClientKey`, `uxr_serialize_ObjectId`,
`uxr_serialize_RequestId`. -/
def uxrSerializeOctets {n : ℕ} (input : Octets n) : UcdrSerializer σ Unit :=
  ucdrWriteArrayUint8 cb input.1

/-- `uxr_serialize_Time_t`. -/
def uxrSerializeTimeT (input : TimeT) : UcdrSerializer σ Unit := do
  ucdrWriteInt32 cb input.seconds
  ucdrWriteUint32 cb input.nanoseconds

/-- `uxr_serialize_Property`. -/
def uxrSerializeProperty (input : Property) : UcdrSerializer σ Unit := do
  ucdrWriteString cb input.name
  ucdrWriteString cb input.value

/-- `uxr_serialize_PropertySeq`. -/
def uxrSerializePropertySeq : List Property → UcdrSerializer σ Unit :=
  writeSequence cb (uxrSerializeProperty cb)

/-- `uxr_serialize_CLIENT_Representation`. -/
def uxrSerializeClientRepresentation (input : ClientRepresentation) : UcdrSerializer σ Unit := do
  uxrSerializeOctets cb input.xrceCookie
  uxrSerializeOctets cb input.xrceVersion
  uxrSerializeOctets cb input.xrceVendorId
  uxrSerializeOctets cb input.clientKey
  ucdrWriteUint8 cb input.sessionId
  writeOptional cb (uxrSerializePropertySeq cb) input.properties
  ucdrWriteUint16 cb input.mtu

/-- `uxr_serialize_AGENT_Representation`. -/
def uxrSerializeAgentRepresentation (input : AgentRepresentation) : UcdrSerializer σ Unit := do
  uxrSerializeOctets cb input.xrceCookie
  uxrSerializeOctets cb input.xrceVersion
  uxrSerializeOctets cb input.xrceVendorId
  writeOptional cb (uxrSerializePropertySeq cb) input.properties

/-- `uxr_serialize_OBJK_Representation3Formats`, and `uxr_serialize_OBJK_Representation3_Base`. -/
def uxrSerializeRepresentation3Formats (input : Representation3Formats) :
    UcdrSerializer σ Unit := do
  ucdrWriteUint8 cb input.format
  ifRet (match input with
    | .byReference objectReference => ucdrWriteString cb objectReference
    | .asXmlString xmlStringRepresentation => ucdrWriteString cb xmlStringRepresentation
    | .inBinary binaryRepresentation => ucdrWriteSequenceUint8 cb binaryRepresentation
    | .other _ => pure ())

/-- `uxr_serialize_OBJK_RepresentationRefAndXMLFormats`, and
`uxr_serialize_OBJK_RepresentationRefAndXML_Base`. -/
def uxrSerializeRefAndXmlFormats (input : RefAndXmlFormats) : UcdrSerializer σ Unit := do
  ucdrWriteUint8 cb input.format
  ifRet (match input with
    | .byReference objectName => ucdrWriteString cb objectName
    | .asXmlString xmlStringRepresentation => ucdrWriteString cb xmlStringRepresentation
    | .other _ => pure ())

/-- `uxr_serialize_OBJK_RepresentationBinAndXMLFormats`, and
`uxr_serialize_OBJK_RepresentationBinAndXML_Base`. -/
def uxrSerializeBinAndXmlFormats (input : BinAndXmlFormats) : UcdrSerializer σ Unit := do
  ucdrWriteUint8 cb input.format
  ifRet (match input with
    | .inBinary binaryRepresentation => ucdrWriteSequenceUint8 cb binaryRepresentation
    | .asXmlString stringRepresentation => ucdrWriteString cb stringRepresentation
    | .other _ => pure ())

/-- `uxr_serialize_OBJK_PARTICIPANT_Representation`. -/
def uxrSerializeParticipantRepresentation (base : Representation3Formats) (domainId : Int16) :
    UcdrSerializer σ Unit := do
  uxrSerializeRepresentation3Formats cb base
  ucdrWriteInt16 cb domainId

/-- An entity that belongs to another one: `uxr_serialize_OBJK_TOPIC_Representation`,
`uxr_serialize_DATAWRITER_Representation`, `uxr_serialize_DATAREADER_Representation`,
`uxr_serialize_OBJK_REQUESTER_Representation`, `uxr_serialize_OBJK_REPLIER_Representation`. -/
def uxrSerializeRepresentationOf (base : Representation3Formats) (id : Octets 2) :
    UcdrSerializer σ Unit := do
  uxrSerializeRepresentation3Formats cb base
  uxrSerializeOctets cb id

/-- `uxr_serialize_OBJK_PUBLISHER_Representation`, `uxr_serialize_OBJK_SUBSCRIBER_Representation`.
-/
def uxrSerializeBinAndXmlOf (base : BinAndXmlFormats) (participantId : Octets 2) :
    UcdrSerializer σ Unit := do
  uxrSerializeBinAndXmlFormats cb base
  uxrSerializeOctets cb participantId

/-- `uxr_serialize_ObjectVariant`. -/
def uxrSerializeObjectVariant (input : ObjectVariant) : UcdrSerializer σ Unit := do
  ucdrWriteUint8 cb input.kind
  ifRet (match input with
    | .agent agent => uxrSerializeAgentRepresentation cb agent
    | .client client => uxrSerializeClientRepresentation cb client
    | .application base => uxrSerializeRefAndXmlFormats cb base
    | .participant base domainId => uxrSerializeParticipantRepresentation cb base domainId
    | .qosProfile base => uxrSerializeRefAndXmlFormats cb base
    | .type base => uxrSerializeRefAndXmlFormats cb base
    | .topic base participantId => uxrSerializeRepresentationOf cb base participantId
    | .publisher base participantId => uxrSerializeBinAndXmlOf cb base participantId
    | .subscriber base participantId => uxrSerializeBinAndXmlOf cb base participantId
    | .dataWriter base publisherId => uxrSerializeRepresentationOf cb base publisherId
    | .dataReader base subscriberId => uxrSerializeRepresentationOf cb base subscriberId
    | .requester base participantId => uxrSerializeRepresentationOf cb base participantId
    | .replier base participantId => uxrSerializeRepresentationOf cb base participantId
    | .other _ => pure ())

/-- `uxr_serialize_BaseObjectRequest`. -/
def uxrSerializeBaseObjectRequest (input : BaseObjectRequest) : UcdrSerializer σ Unit := do
  uxrSerializeOctets cb input.requestId
  uxrSerializeOctets cb input.objectId

/-- `uxr_serialize_DataDeliveryControl`. -/
def uxrSerializeDataDeliveryControl (input : DataDeliveryControl) : UcdrSerializer σ Unit := do
  ucdrWriteUint16 cb input.maxSamples
  ucdrWriteUint16 cb input.maxElapsedTime
  ucdrWriteUint16 cb input.maxBytesPerSecond
  ucdrWriteUint16 cb input.minPacePeriod

/-- `uxr_serialize_ReadSpecification`. -/
def uxrSerializeReadSpecification (input : ReadSpecification) : UcdrSerializer σ Unit := do
  ucdrWriteUint8 cb input.preferredStreamId
  ucdrWriteUint8 cb input.dataFormat
  writeOptional cb (ucdrWriteString cb) input.contentFilterExpression
  writeOptional cb (uxrSerializeDataDeliveryControl cb) input.deliveryControl

/-- `uxr_serialize_ACKNACK_Payload`. -/
def uxrSerializeAcknackPayload (input : AcknackPayload) : UcdrSerializer σ Unit := do
  ucdrWriteUint16 cb input.firstUnackedSeqNum
  uxrSerializeOctets cb input.nackBitmap
  ucdrWriteUint8 cb input.streamId

/-- `uxr_serialize_HEARTBEAT_Payload`. -/
def uxrSerializeHeartbeatPayload (input : HeartbeatPayload) : UcdrSerializer σ Unit := do
  ucdrWriteUint16 cb input.firstUnackedSeqNr
  ucdrWriteUint16 cb input.lastUnackedSeqNr
  ucdrWriteUint8 cb input.streamId

/-- The payload of a submessage: `uxr_serialize_CREATE_CLIENT_Payload`,
`uxr_serialize_CREATE_Payload`, `uxr_serialize_GET_INFO_Payload`, `uxr_serialize_DELETE_Payload`,
`uxr_serialize_WRITE_DATA_Payload_Data` with the data behind it, `uxr_serialize_READ_DATA_Payload`,
`uxr_serialize_ACKNACK_Payload`, `uxr_serialize_HEARTBEAT_Payload`,
`uxr_serialize_TIMESTAMP_Payload`. -/
def RequestPayload.serialize : RequestPayload → UcdrSerializer σ Unit
  | .createClient c => uxrSerializeClientRepresentation cb c
  | .create base object => do
    uxrSerializeBaseObjectRequest cb base
    uxrSerializeObjectVariant cb object
  | .getInfo base infoMask => do
    uxrSerializeBaseObjectRequest cb base
    ucdrWriteUint32 cb infoMask
  | .delete base => uxrSerializeBaseObjectRequest cb base
  | .writeData base data => do
    uxrSerializeBaseObjectRequest cb base
    ucdrWriteArrayUint8 cb data
  | .readData base specification => do
    uxrSerializeBaseObjectRequest cb base
    uxrSerializeReadSpecification cb specification
  | .acknack a => uxrSerializeAcknackPayload cb a
  | .heartbeat h => uxrSerializeHeartbeatPayload cb h
  | .timestamp t => uxrSerializeTimeT cb t

end

/-! ## What is written -/

section

variable {endianness : UcdrEndianness} (cb : OnFullBuffer Memory)

/-- Octets are written as they are. -/
lemma uxrSerializeOctets_serializes {n : ℕ} (input : Octets n) :
    Serializes endianness (uxrSerializeOctets cb input) (.bytes input.1) :=
  .arrayUint8 cb input.1

/-- Times. -/
lemma uxrSerializeTimeT_serializes (input : TimeT) :
    Serializes endianness (uxrSerializeTimeT cb input) (input.layout (endianness = .little)) :=
  (Serializes.int32 cb _).bind (.uint32 cb _)

/-- Properties. -/
lemma uxrSerializePropertySeq_serializes {properties : Option (List Property)}
    (h : ValidProperties properties) :
    Serializes endianness (writeOptional cb (uxrSerializePropertySeq cb) properties)
      (.optional (.sequence (endianness = .little) (Property.layout (endianness = .little)))
        properties) := by
  apply Serializes.optional
  intro ps hps
  obtain ⟨hlength, hvalid⟩ := h ps hps
  apply Serializes.sequence cb hlength
  intro p hp
  exact (Serializes.string cb (hvalid p hp).1.2).bind (.string cb (hvalid p hp).2.2)

/-- Clients. -/
lemma uxrSerializeClientRepresentation_serializes {input : ClientRepresentation}
    (h : ValidProperties input.properties) :
    Serializes endianness (uxrSerializeClientRepresentation cb input)
      (input.layout (endianness = .little)) := by
  apply (uxrSerializeOctets_serializes cb _).bind
  apply (uxrSerializeOctets_serializes cb _).bind
  apply (uxrSerializeOctets_serializes cb _).bind
  apply (uxrSerializeOctets_serializes cb _).bind
  apply (Serializes.uint8 cb _).bind
  exact (uxrSerializePropertySeq_serializes cb h).bind (.uint16 cb _)

/-- Agents. -/
lemma uxrSerializeAgentRepresentation_serializes {input : AgentRepresentation}
    (h : ValidProperties input.properties) :
    Serializes endianness (uxrSerializeAgentRepresentation cb input)
      (input.layout (endianness = .little)) := by
  apply (uxrSerializeOctets_serializes cb _).bind
  apply (uxrSerializeOctets_serializes cb _).bind
  apply (uxrSerializeOctets_serializes cb _).bind
  exact uxrSerializePropertySeq_serializes cb h

/-- Representations in three formats. -/
lemma uxrSerializeRepresentation3Formats_serializes {input : Representation3Formats}
    (h : input.Valid) :
    Serializes endianness (uxrSerializeRepresentation3Formats cb input)
      (input.layout (endianness = .little)) := by
  apply (Serializes.uint8 cb _).bind (Serializes.ifRet _)
  cases input with
  | byReference s => exact .string cb h.2
  | asXmlString s => exact .string cb h.2
  | inBinary bs => exact .sequenceUint8 cb h
  | other format => exact .pure

/-- Representations by reference or in XML. -/
lemma uxrSerializeRefAndXmlFormats_serializes {input : RefAndXmlFormats} (h : input.Valid) :
    Serializes endianness (uxrSerializeRefAndXmlFormats cb input)
      (input.layout (endianness = .little)) := by
  apply (Serializes.uint8 cb _).bind (Serializes.ifRet _)
  cases input with
  | byReference s => exact .string cb h.2
  | asXmlString s => exact .string cb h.2
  | other format => exact .pure

/-- Representations in binary or in XML. -/
lemma uxrSerializeBinAndXmlFormats_serializes {input : BinAndXmlFormats} (h : input.Valid) :
    Serializes endianness (uxrSerializeBinAndXmlFormats cb input)
      (input.layout (endianness = .little)) := by
  apply (Serializes.uint8 cb _).bind (Serializes.ifRet _)
  cases input with
  | inBinary bs => exact .sequenceUint8 cb h
  | asXmlString s => exact .string cb h.2
  | other format => exact .pure

/-- Objects of every kind. -/
lemma uxrSerializeObjectVariant_serializes {input : ObjectVariant} (h : input.Valid) :
    Serializes endianness (uxrSerializeObjectVariant cb input)
      (input.layout (endianness = .little)) := by
  apply (Serializes.uint8 cb _).bind (Serializes.ifRet _)
  cases input with
  | agent a => exact uxrSerializeAgentRepresentation_serializes cb h
  | client c => exact uxrSerializeClientRepresentation_serializes cb h
  | application base | qosProfile base | type base =>
    exact uxrSerializeRefAndXmlFormats_serializes cb h
  | participant base domainId =>
    exact (uxrSerializeRepresentation3Formats_serializes cb h).bind (.int16 cb domainId)
  | publisher base id | subscriber base id =>
    exact (uxrSerializeBinAndXmlFormats_serializes cb h).bind (uxrSerializeOctets_serializes cb id)
  | topic base id | dataWriter base id | dataReader base id | requester base id
  | replier base id =>
    exact (uxrSerializeRepresentation3Formats_serializes cb h).bind
      (uxrSerializeOctets_serializes cb id)
  | other kind => exact .pure

/-- The object that a request is about. -/
lemma uxrSerializeBaseObjectRequest_serializes (input : BaseObjectRequest) :
    Serializes endianness (uxrSerializeBaseObjectRequest cb input) input.layout :=
  (uxrSerializeOctets_serializes cb _).bind (uxrSerializeOctets_serializes cb _)

/-- How data is to be read. -/
lemma uxrSerializeReadSpecification_serializes {input : ReadSpecification} (h : input.Valid) :
    Serializes endianness (uxrSerializeReadSpecification cb input)
      (input.layout (endianness = .little)) := by
  apply (Serializes.uint8 cb _).bind
  apply (Serializes.uint8 cb _).bind
  apply (Serializes.optional cb fun s hs => Serializes.string cb (h s hs).2).bind
  apply Serializes.optional
  intro control _
  apply (Serializes.uint16 cb _).bind
  apply (Serializes.uint16 cb _).bind
  exact (Serializes.uint16 cb _).bind (.uint16 cb _)

/-- Acknowledgements. -/
lemma uxrSerializeAcknackPayload_serializes (input : AcknackPayload) :
    Serializes endianness (uxrSerializeAcknackPayload cb input)
      (input.layout (endianness = .little)) :=
  (Serializes.uint16 cb _).bind ((uxrSerializeOctets_serializes cb _).bind (.uint8 cb _))

/-- Heartbeats. -/
lemma uxrSerializeHeartbeatPayload_serializes (input : HeartbeatPayload) :
    Serializes endianness (uxrSerializeHeartbeatPayload cb input)
      (input.layout (endianness = .little)) :=
  (Serializes.uint16 cb _).bind ((Serializes.uint16 cb _).bind (.uint8 cb _))

/-- Every payload is written as it is laid out. -/
theorem RequestPayload.serializes {payload : RequestPayload} (h : payload.Valid) :
    Serializes endianness (payload.serialize cb) (payload.layout (endianness = .little)) := by
  cases payload with
  | createClient c => exact uxrSerializeClientRepresentation_serializes cb h
  | create base object =>
    exact (uxrSerializeBaseObjectRequest_serializes cb base).bind
      (uxrSerializeObjectVariant_serializes cb h)
  | getInfo base infoMask =>
    exact (uxrSerializeBaseObjectRequest_serializes cb base).bind (.uint32 cb infoMask)
  | delete base => exact uxrSerializeBaseObjectRequest_serializes cb base
  | writeData base data =>
    exact (uxrSerializeBaseObjectRequest_serializes cb base).bind (.arrayUint8 cb data)
  | readData base specification =>
    exact (uxrSerializeBaseObjectRequest_serializes cb base).bind
      (uxrSerializeReadSpecification_serializes cb h)
  | acknack a => exact uxrSerializeAcknackPayload_serializes cb a
  | heartbeat payload => exact uxrSerializeHeartbeatPayload_serializes cb payload
  | timestamp t => exact uxrSerializeTimeT_serializes cb t

end

end XrceTypes

end XrceDds
