import XrceDds.Lib.AlignedCodec

/-!
# The types of the payloads

The records of `xrce_types.h` that the client sends or receives; the classes of `XRCETypes.hpp` have
the same members.  A string is a list of characters, and a sequence a list.  `Valid` says what a
value must be so that it can be sent: a string has no zero in it, and a length is counted in 32
bits.  A discriminator that neither program knows selects no member. -/

namespace XrceDds

open AlignedCodec

namespace XrceTypes

/-- An array of `n` octets. -/
abbrev Octets (n : ℕ) := {bytes : List UInt8 // bytes.length = n}

/-- A string of C that is counted in 32 bits with the zero behind it. -/
def ValidString (s : List UInt8) : Prop := 0 ∉ s ∧ s.length + 1 < 4294967296

instance (s : List UInt8) : Decidable (ValidString s) := inferInstanceAs (Decidable (_ ∧ _))

/-- A sequence that is counted in 32 bits. -/
def ValidSequence {α : Type} (as : List α) : Prop := as.length < 4294967296

/-- `Time_t`. -/
structure TimeT where
  seconds : Int32
  nanoseconds : UInt32
  deriving DecidableEq

/-- `TransportLocator`, which is `TransportAddress` in the Agent. -/
inductive TransportLocator where
  | small (address : Octets 2) (locatorPort : UInt8)
  | medium (address : Octets 4) (locatorPort : UInt16)
  | large (address : Octets 16) (locatorPort : UInt32)
  | string (value : List UInt8)
  | other (format : UInt8)
  deriving DecidableEq

/-- `Property`. -/
structure Property where
  name : List UInt8
  value : List UInt8
  deriving DecidableEq

/-- `CLIENT_Representation`. -/
structure ClientRepresentation where
  xrceCookie : Octets 4
  xrceVersion : Octets 2
  xrceVendorId : Octets 2
  clientKey : Octets 4
  sessionId : UInt8
  properties : Option (List Property)
  mtu : UInt16
  deriving DecidableEq

/-- `AGENT_Representation`. -/
structure AgentRepresentation where
  xrceCookie : Octets 4
  xrceVersion : Octets 2
  xrceVendorId : Octets 2
  properties : Option (List Property)
  deriving DecidableEq

/-- `OBJK_Representation3Formats`. -/
inductive Representation3Formats where
  | byReference (objectReference : List UInt8)
  | asXmlString (xmlStringRepresentation : List UInt8)
  | inBinary (binaryRepresentation : List UInt8)
  | other (format : UInt8)
  deriving DecidableEq

/-- `OBJK_RepresentationRefAndXMLFormats`. -/
inductive RefAndXmlFormats where
  | byReference (objectName : List UInt8)
  | asXmlString (xmlStringRepresentation : List UInt8)
  | other (format : UInt8)
  deriving DecidableEq

/-- `OBJK_RepresentationBinAndXMLFormats`. -/
inductive BinAndXmlFormats where
  | inBinary (binaryRepresentation : List UInt8)
  | asXmlString (stringRepresentation : List UInt8)
  | other (format : UInt8)
  deriving DecidableEq

/-- `ObjectVariant`. -/
inductive ObjectVariant where
  | agent (agent : AgentRepresentation)
  | client (client : ClientRepresentation)
  | application (base : RefAndXmlFormats)
  | participant (base : Representation3Formats) (domainId : Int16)
  | qosProfile (base : RefAndXmlFormats)
  | type (base : RefAndXmlFormats)
  | topic (base : Representation3Formats) (participantId : Octets 2)
  | publisher (base : BinAndXmlFormats) (participantId : Octets 2)
  | subscriber (base : BinAndXmlFormats) (participantId : Octets 2)
  | dataWriter (base : Representation3Formats) (publisherId : Octets 2)
  | dataReader (base : Representation3Formats) (subscriberId : Octets 2)
  | requester (base : Representation3Formats) (participantId : Octets 2)
  | replier (base : Representation3Formats) (participantId : Octets 2)
  | other (kind : UInt8)
  deriving DecidableEq

/-- `BaseObjectRequest`. -/
structure BaseObjectRequest where
  requestId : Octets 2
  objectId : Octets 2
  deriving DecidableEq

/-- `ResultStatus`. -/
structure ResultStatus where
  status : UInt8
  implementationStatus : UInt8
  deriving DecidableEq

/-- `INFO_Payload`, with the configuration and the activity of an Agent. -/
structure InfoPayload where
  relatedRequest : BaseObjectRequest
  result : ResultStatus
  config : AgentRepresentation
  availability : Int16
  addressSeq : List TransportLocator
  deriving DecidableEq

/-- `DataDeliveryControl`. -/
structure DataDeliveryControl where
  maxSamples : UInt16
  maxElapsedTime : UInt16
  maxBytesPerSecond : UInt16
  minPacePeriod : UInt16
  deriving DecidableEq

/-- `ReadSpecification`. -/
structure ReadSpecification where
  preferredStreamId : UInt8
  dataFormat : UInt8
  contentFilterExpression : Option (List UInt8)
  deliveryControl : Option DataDeliveryControl
  deriving DecidableEq

/-- `ACKNACK_Payload`. -/
structure AcknackPayload where
  firstUnackedSeqNum : UInt16
  nackBitmap : Octets 2
  streamId : UInt8
  deriving DecidableEq

/-- `HEARTBEAT_Payload`. -/
structure HeartbeatPayload where
  firstUnackedSeqNr : UInt16
  lastUnackedSeqNr : UInt16
  streamId : UInt8
  deriving DecidableEq

/-- The payload of a submessage that the client sends: `CREATE_CLIENT_Payload`, `CREATE_Payload`,
`GET_INFO_Payload`, `DELETE_Payload`, `WRITE_DATA_Payload_Data` with the data behind it,
`READ_DATA_Payload`, `ACKNACK_Payload`, `HEARTBEAT_Payload` and `TIMESTAMP_Payload`. -/
inductive RequestPayload where
  | createClient (clientRepresentation : ClientRepresentation)
  | create (base : BaseObjectRequest) (objectRepresentation : ObjectVariant)
  | getInfo (base : BaseObjectRequest) (infoMask : UInt32)
  | delete (base : BaseObjectRequest)
  | writeData (base : BaseObjectRequest) (data : List UInt8)
  | readData (base : BaseObjectRequest) (readSpecification : ReadSpecification)
  | acknack (payload : AcknackPayload)
  | heartbeat (payload : HeartbeatPayload)
  | timestamp (transmitTimestamp : TimeT)
  deriving DecidableEq

/-! ## Discriminators -/

/-- `SUBMESSAGE_ID_CREATE_CLIENT`. -/
def submessageIdCreateClient : UInt8 := 0

/-- `SUBMESSAGE_ID_CREATE`. -/
def submessageIdCreate : UInt8 := 1

/-- `SUBMESSAGE_ID_GET_INFO`. -/
def submessageIdGetInfo : UInt8 := 2

/-- `SUBMESSAGE_ID_DELETE`. -/
def submessageIdDelete : UInt8 := 3

/-- `SUBMESSAGE_ID_WRITE_DATA`. -/
def submessageIdWriteData : UInt8 := 7

/-- `SUBMESSAGE_ID_READ_DATA`. -/
def submessageIdReadData : UInt8 := 8

/-- `SUBMESSAGE_ID_ACKNACK`. -/
def submessageIdAcknack : UInt8 := 10

/-- `SUBMESSAGE_ID_HEARTBEAT`. -/
def submessageIdHeartbeat : UInt8 := 11

/-- `SUBMESSAGE_ID_TIMESTAMP`. -/
def submessageIdTimestamp : UInt8 := 14

/-- The submessage that a payload is sent in. -/
def RequestPayload.submessageId : RequestPayload → UInt8
  | .createClient _ => submessageIdCreateClient
  | .create _ _ => submessageIdCreate
  | .getInfo _ _ => submessageIdGetInfo
  | .delete _ => submessageIdDelete
  | .writeData _ _ => submessageIdWriteData
  | .readData _ _ => submessageIdReadData
  | .acknack _ => submessageIdAcknack
  | .heartbeat _ => submessageIdHeartbeat
  | .timestamp _ => submessageIdTimestamp

/-- `DDS_XRCE_REPRESENTATION_BY_REFERENCE`. -/
def representationByReference : UInt8 := 0x01

/-- `DDS_XRCE_REPRESENTATION_AS_XML_STRING`. -/
def representationAsXmlString : UInt8 := 0x02

/-- `DDS_XRCE_REPRESENTATION_IN_BINARY`. -/
def representationInBinary : UInt8 := 0x03

/-- `DDS_XRCE_OBJK_PARTICIPANT`. -/
def objkParticipant : UInt8 := 0x01

/-- `DDS_XRCE_OBJK_TOPIC`. -/
def objkTopic : UInt8 := 0x02

/-- `DDS_XRCE_OBJK_PUBLISHER`. -/
def objkPublisher : UInt8 := 0x03

/-- `DDS_XRCE_OBJK_SUBSCRIBER`. -/
def objkSubscriber : UInt8 := 0x04

/-- `DDS_XRCE_OBJK_DATAWRITER`. -/
def objkDatawriter : UInt8 := 0x05

/-- `DDS_XRCE_OBJK_DATAREADER`. -/
def objkDatareader : UInt8 := 0x06

/-- `DDS_XRCE_OBJK_REQUESTER`. -/
def objkRequester : UInt8 := 0x07

/-- `DDS_XRCE_OBJK_REPLIER`. -/
def objkReplier : UInt8 := 0x08

/-- `DDS_XRCE_OBJK_TYPE`. -/
def objkType : UInt8 := 0x0A

/-- `DDS_XRCE_OBJK_QOSPROFILE`. -/
def objkQosprofile : UInt8 := 0x0B

/-- `DDS_XRCE_OBJK_APPLICATION`. -/
def objkApplication : UInt8 := 0x0C

/-- `DDS_XRCE_OBJK_AGENT`. -/
def objkAgent : UInt8 := 0x0D

/-- `DDS_XRCE_OBJK_CLIENT`. -/
def objkClient : UInt8 := 0x0E

/-- The kinds of an `ObjectVariant` that have a member. -/
def objectKinds : List UInt8 :=
  [objkParticipant, objkTopic, objkPublisher, objkSubscriber, objkDatawriter, objkDatareader,
    objkRequester, objkReplier, objkType, objkQosprofile, objkApplication, objkAgent, objkClient]

/-- `format` of a `TransportLocator`: `ADDRESS_FORMAT_SMALL`, `ADDRESS_FORMAT_MEDIUM`,
`ADDRESS_FORMAT_LARGE` and `ADDRESS_FORMAT_STRING`. -/
def TransportLocator.format : TransportLocator → UInt8
  | .small _ _ => 0
  | .medium _ _ => 1
  | .large _ _ => 2
  | .string _ => 3
  | .other format => format

/-- `format` of an `OBJK_Representation3Formats`. -/
def Representation3Formats.format : Representation3Formats → UInt8
  | .byReference _ => representationByReference
  | .asXmlString _ => representationAsXmlString
  | .inBinary _ => representationInBinary
  | .other format => format

/-- `format` of an `OBJK_RepresentationRefAndXMLFormats`. -/
def RefAndXmlFormats.format : RefAndXmlFormats → UInt8
  | .byReference _ => representationByReference
  | .asXmlString _ => representationAsXmlString
  | .other format => format

/-- `format` of an `OBJK_RepresentationBinAndXMLFormats`. -/
def BinAndXmlFormats.format : BinAndXmlFormats → UInt8
  | .inBinary _ => representationInBinary
  | .asXmlString _ => representationAsXmlString
  | .other format => format

/-- `kind` of an `ObjectVariant`. -/
def ObjectVariant.kind : ObjectVariant → UInt8
  | .agent _ => objkAgent
  | .client _ => objkClient
  | .application _ => objkApplication
  | .participant _ _ => objkParticipant
  | .qosProfile _ => objkQosprofile
  | .type _ => objkType
  | .topic _ _ => objkTopic
  | .publisher _ _ => objkPublisher
  | .subscriber _ _ => objkSubscriber
  | .dataWriter _ _ => objkDatawriter
  | .dataReader _ _ => objkDatareader
  | .requester _ _ => objkRequester
  | .replier _ _ => objkReplier
  | .other kind => kind

/-! ## What can be sent -/

/-- The member that the format selects can be sent. -/
def TransportLocator.Valid : TransportLocator → Prop
  | .string value => ValidString value
  | .other format => format ∉ [0, 1, 2, 3]
  | _ => True

/-- The strings of a property are valid. -/
def Property.Valid (p : Property) : Prop := ValidString p.name ∧ ValidString p.value

/-- Properties that can be sent. -/
def ValidProperties (properties : Option (List Property)) : Prop :=
  ∀ ps ∈ properties, ValidSequence ps ∧ ∀ p ∈ ps, p.Valid

/-- The member that the format selects can be sent. -/
def Representation3Formats.Valid : Representation3Formats → Prop
  | .byReference s => ValidString s
  | .asXmlString s => ValidString s
  | .inBinary bs => ValidSequence bs
  | .other format =>
    format ∉ [representationByReference, representationAsXmlString, representationInBinary]

/-- The member that the format selects can be sent. -/
def RefAndXmlFormats.Valid : RefAndXmlFormats → Prop
  | .byReference s => ValidString s
  | .asXmlString s => ValidString s
  | .other format => format ∉ [representationByReference, representationAsXmlString]

/-- The member that the format selects can be sent. -/
def BinAndXmlFormats.Valid : BinAndXmlFormats → Prop
  | .inBinary bs => ValidSequence bs
  | .asXmlString s => ValidString s
  | .other format => format ∉ [representationInBinary, representationAsXmlString]

/-- The member that the kind selects can be sent. -/
def ObjectVariant.Valid : ObjectVariant → Prop
  | .agent a => ValidProperties a.properties
  | .client c => ValidProperties c.properties
  | .application base | .qosProfile base | .type base => base.Valid
  | .publisher base _ | .subscriber base _ => base.Valid
  | .participant base _ | .topic base _ | .dataWriter base _ | .dataReader base _
  | .requester base _ | .replier base _ => base.Valid
  | .other kind => kind ∉ objectKinds

/-- The filter of a specification is a string. -/
def ReadSpecification.Valid (specification : ReadSpecification) : Prop :=
  ∀ s ∈ specification.contentFilterExpression, ValidString s

/-- The strings and sequences of a payload can be sent. -/
def RequestPayload.Valid : RequestPayload → Prop
  | .createClient c => ValidProperties c.properties
  | .create _ object => object.Valid
  | .readData _ specification => specification.Valid
  | _ => True

/-! ## How it is laid out -/

section

variable (little : Bool)

/-- `Time_t`. -/
def TimeT.layout (t : TimeT) : Layout :=
  .number little 4 t.seconds.toUInt32.toNat ++ .number little 4 t.nanoseconds.toNat

/-- `TransportLocator`. -/
def TransportLocator.layout (locator : TransportLocator) : Layout :=
  .bytes [locator.format] ++
    match locator with
    | .small address locatorPort => .bytes address.1 ++ .bytes [locatorPort]
    | .medium address locatorPort => .bytes address.1 ++ .number little 2 locatorPort.toNat
    | .large address locatorPort => .bytes address.1 ++ .number little 4 locatorPort.toNat
    | .string value => Layout.string little value
    | .other _ => .nil

/-- `Property`. -/
def Property.layout (p : Property) : Layout :=
  Layout.string little p.name ++ Layout.string little p.value

/-- `CLIENT_Representation`. -/
def ClientRepresentation.layout (client : ClientRepresentation) : Layout :=
  .bytes client.xrceCookie.1 ++ (.bytes client.xrceVersion.1 ++ (.bytes client.xrceVendorId.1 ++
    (.bytes client.clientKey.1 ++ (.bytes [client.sessionId] ++
      (Layout.optional (Layout.sequence little (Property.layout little)) client.properties ++
        .number little 2 client.mtu.toNat)))))

/-- `AGENT_Representation`. -/
def AgentRepresentation.layout (agent : AgentRepresentation) : Layout :=
  .bytes agent.xrceCookie.1 ++ (.bytes agent.xrceVersion.1 ++ (.bytes agent.xrceVendorId.1 ++
    Layout.optional (Layout.sequence little (Property.layout little)) agent.properties))

/-- `OBJK_Representation3Formats`. -/
def Representation3Formats.layout (base : Representation3Formats) : Layout :=
  .bytes [base.format] ++
    match base with
    | .byReference s | .asXmlString s => Layout.string little s
    | .inBinary bs => Layout.sequenceOctets little bs
    | .other _ => .nil

/-- `OBJK_RepresentationRefAndXMLFormats`. -/
def RefAndXmlFormats.layout (base : RefAndXmlFormats) : Layout :=
  .bytes [base.format] ++
    match base with
    | .byReference s | .asXmlString s => Layout.string little s
    | .other _ => .nil

/-- `OBJK_RepresentationBinAndXMLFormats`. -/
def BinAndXmlFormats.layout (base : BinAndXmlFormats) : Layout :=
  .bytes [base.format] ++
    match base with
    | .inBinary bs => Layout.sequenceOctets little bs
    | .asXmlString s => Layout.string little s
    | .other _ => .nil

/-- `ObjectVariant`. -/
def ObjectVariant.layout (object : ObjectVariant) : Layout :=
  .bytes [object.kind] ++
    match object with
    | .agent a => a.layout little
    | .client c => c.layout little
    | .application base | .qosProfile base | .type base => base.layout little
    | .publisher base id | .subscriber base id => base.layout little ++ .bytes id.1
    | .participant base domainId => base.layout little ++ .number little 2 domainId.toUInt16.toNat
    | .topic base id | .dataWriter base id | .dataReader base id | .requester base id
    | .replier base id => base.layout little ++ .bytes id.1
    | .other _ => .nil

/-- `BaseObjectRequest`. -/
def BaseObjectRequest.layout (base : BaseObjectRequest) : Layout :=
  .bytes base.requestId.1 ++ .bytes base.objectId.1

/-- `DataDeliveryControl`. -/
def DataDeliveryControl.layout (control : DataDeliveryControl) : Layout :=
  .number little 2 control.maxSamples.toNat ++ (.number little 2 control.maxElapsedTime.toNat ++
    (.number little 2 control.maxBytesPerSecond.toNat ++
      .number little 2 control.minPacePeriod.toNat))

/-- `ReadSpecification`. -/
def ReadSpecification.layout (specification : ReadSpecification) : Layout :=
  .bytes [specification.preferredStreamId] ++ (.bytes [specification.dataFormat] ++
    (Layout.optional (Layout.string little) specification.contentFilterExpression ++
      Layout.optional (DataDeliveryControl.layout little) specification.deliveryControl))

/-- `ACKNACK_Payload`. -/
def AcknackPayload.layout (acknack : AcknackPayload) : Layout :=
  .number little 2 acknack.firstUnackedSeqNum.toNat ++ (.bytes acknack.nackBitmap.1 ++
    .bytes [acknack.streamId])

/-- `HEARTBEAT_Payload`. -/
def HeartbeatPayload.layout (heartbeat : HeartbeatPayload) : Layout :=
  .number little 2 heartbeat.firstUnackedSeqNr.toNat ++
    (.number little 2 heartbeat.lastUnackedSeqNr.toNat ++ .bytes [heartbeat.streamId])

/-- `INFO_Payload`. -/
def InfoPayload.layout (info : InfoPayload) : Layout :=
  info.relatedRequest.layout ++ (.bytes [info.result.status, info.result.implementationStatus] ++
    (.bytes [1] ++ ((ObjectVariant.agent info.config).layout little ++
      (.bytes [1, objkAgent] ++ (.number little 2 info.availability.toUInt16.toNat ++
        Layout.sequence little (TransportLocator.layout little) info.addressSeq)))))

/-- The payload of a submessage that the client sends. -/
def RequestPayload.layout : RequestPayload → Layout
  | .createClient c => c.layout little
  | .create base object => base.layout ++ object.layout little
  | .getInfo base infoMask => base.layout ++ .number little 4 infoMask.toNat
  | .delete base => base.layout
  | .writeData base data => base.layout ++ .bytes data
  | .readData base specification => base.layout ++ specification.layout little
  | .acknack a => a.layout little
  | .heartbeat h => h.layout little
  | .timestamp t => t.layout little

end

end XrceTypes

end XrceDds
