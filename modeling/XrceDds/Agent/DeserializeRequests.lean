import XrceDds.Protocol.XrceTypes

/-!
# Deserializing requests

What `get_payload` of the Agent reads from a message, for each submessage that a client sends: the
`deserialize` functions of `XRCETypes.cpp`.  The deserializer that they use is a parameter: it reads
what is laid out by the format, and gives nothing where it throws an exception.
-/

namespace XrceDds

open AlignedCodec

namespace XrceTypes

/-- `fastcdr::Cdr`, as far as payloads are read with it: every type is read as the format lays it
out.  Whatever else it may be given, it may read or refuse. -/
structure CdrDeserializer where
  octet : Reader UInt8
  octets (n : ℕ) : Reader (Octets n)
  array (n : ℕ) : Reader (List UInt8)
  bool : Reader Bool
  uint16 (little : Bool) : Reader UInt16
  int16 (little : Bool) : Reader Int16
  uint32 (little : Bool) : Reader UInt32
  int32 (little : Bool) : Reader Int32
  string (little : Bool) : Reader (List UInt8)
  sequenceOctets (little : Bool) : Reader (List UInt8)
  sequence {α : Type} (little : Bool) (r : Reader α) : Reader (List α)
  octet_reads (b : UInt8) : Reads (.bytes [b]) octet b
  octets_reads {n : ℕ} (a : Octets n) : Reads (.bytes a.1) (octets n) a
  array_reads (bs : List UInt8) : Reads (.bytes bs) (array bs.length) bs
  bool_reads (value : Bool) : Reads (.bytes [if value then 1 else 0]) bool value
  uint16_reads (little : Bool) (value : UInt16) :
    Reads (.number little 2 value.toNat) (uint16 little) value
  int16_reads (little : Bool) (value : Int16) :
    Reads (.number little 2 value.toUInt16.toNat) (int16 little) value
  uint32_reads (little : Bool) (value : UInt32) :
    Reads (.number little 4 value.toNat) (uint32 little) value
  int32_reads (little : Bool) (value : Int32) :
    Reads (.number little 4 value.toUInt32.toNat) (int32 little) value
  string_reads (little : Bool) {s : List UInt8} (h : ValidString s) :
    Reads (.string little s) (string little) s
  sequenceOctets_reads (little : Bool) {bs : List UInt8} (h : bs.length < 4294967296) :
    Reads (.sequenceOctets little bs) (sequenceOctets little) bs
  sequence_reads {α : Type} (little : Bool) {w : α → Layout} {r : Reader α} {as : List α}
    (hlength : as.length < 4294967296) (h : ∀ a ∈ as, Reads (w a) r a) :
    Reads (.sequence little w as) (sequence little r) as

section

variable (cdr : CdrDeserializer) (little : Bool)

/-- A member that is an `Optional`. -/
def readOptional {α : Type} (r : Reader α) : Reader (Option α) := do
  let there ← cdr.bool
  if there then
    let a ← r
    pure (some a)
  else pure none

/-- `Time_t::deserialize`. -/
def TimeT.deserialize : Reader TimeT := do
  let seconds ← cdr.int32 little
  let nanoseconds ← cdr.uint32 little
  pure ⟨seconds, nanoseconds⟩

/-- `Property::deserialize`. -/
def Property.deserialize : Reader Property := do
  let name ← cdr.string little
  let value ← cdr.string little
  pure ⟨name, value⟩

/-- `CLIENT_Representation::deserialize`. -/
def ClientRepresentation.deserialize : Reader ClientRepresentation := do
  let xrceCookie ← cdr.octets 4
  let xrceVersion ← cdr.octets 2
  let xrceVendorId ← cdr.octets 2
  let clientKey ← cdr.octets 4
  let sessionId ← cdr.octet
  let properties ← readOptional cdr (cdr.sequence little (Property.deserialize cdr little))
  let mtu ← cdr.uint16 little
  pure ⟨xrceCookie, xrceVersion, xrceVendorId, clientKey, sessionId, properties, mtu⟩

/-- `AGENT_Representation::deserialize`. -/
def AgentRepresentation.deserialize : Reader AgentRepresentation := do
  let xrceCookie ← cdr.octets 4
  let xrceVersion ← cdr.octets 2
  let xrceVendorId ← cdr.octets 2
  let properties ← readOptional cdr (cdr.sequence little (Property.deserialize cdr little))
  pure ⟨xrceCookie, xrceVersion, xrceVendorId, properties⟩

/-- The member of an `OBJK_Representation3Formats` that the format selects. -/
def Representation3Formats.member (d : UInt8) : Reader Representation3Formats :=
  if d = representationByReference then do
    let objectReference ← cdr.string little
    pure (.byReference objectReference)
  else if d = representationAsXmlString then do
    let xmlStringRepresentation ← cdr.string little
    pure (.asXmlString xmlStringRepresentation)
  else if d = representationInBinary then do
    let binaryRepresentation ← cdr.sequenceOctets little
    pure (.inBinary binaryRepresentation)
  else pure (.other d)

/-- `OBJK_Representation3Formats::deserialize`. -/
def Representation3Formats.deserialize : Reader Representation3Formats := do
  let d ← cdr.octet
  Representation3Formats.member cdr little d

/-- The member of an `OBJK_RepresentationRefAndXMLFormats` that the format selects. -/
def RefAndXmlFormats.member (d : UInt8) : Reader RefAndXmlFormats :=
  if d = representationByReference then do
    let objectReference ← cdr.string little
    pure (.byReference objectReference)
  else if d = representationAsXmlString then do
    let stringRepresentation ← cdr.string little
    pure (.asXmlString stringRepresentation)
  else pure (.other d)

/-- `OBJK_RepresentationRefAndXMLFormats::deserialize`. -/
def RefAndXmlFormats.deserialize : Reader RefAndXmlFormats := do
  let d ← cdr.octet
  RefAndXmlFormats.member cdr little d

/-- The member of an `OBJK_RepresentationBinAndXMLFormats` that the format selects. -/
def BinAndXmlFormats.member (d : UInt8) : Reader BinAndXmlFormats :=
  if d = representationInBinary then do
    let binaryRepresentation ← cdr.sequenceOctets little
    pure (.inBinary binaryRepresentation)
  else if d = representationAsXmlString then do
    let stringRepresentation ← cdr.string little
    pure (.asXmlString stringRepresentation)
  else pure (.other d)

/-- `OBJK_RepresentationBinAndXMLFormats::deserialize`. -/
def BinAndXmlFormats.deserialize : Reader BinAndXmlFormats := do
  let d ← cdr.octet
  BinAndXmlFormats.member cdr little d

/-- An entity that belongs to another one: `deserialize` of `OBJK_TOPIC_Representation`,
`DATAWRITER_Representation`, `DATAREADER_Representation`, `REQUESTER_Representation` and
`REPLIER_Representation`. -/
def representationOf (g : Representation3Formats → Octets 2 → ObjectVariant) :
    Reader ObjectVariant := do
  let base ← Representation3Formats.deserialize cdr little
  let id ← cdr.octets 2
  pure (g base id)

/-- `deserialize` of `OBJK_PUBLISHER_Representation` and `OBJK_SUBSCRIBER_Representation`. -/
def binAndXmlOf (g : BinAndXmlFormats → Octets 2 → ObjectVariant) : Reader ObjectVariant := do
  let base ← BinAndXmlFormats.deserialize cdr little
  let id ← cdr.octets 2
  pure (g base id)

/-- `deserialize` of `OBJK_QOSPROFILE_Representation`, `OBJK_TYPE_Representation` and
`OBJK_APPLICATION_Representation`. -/
def refAndXml (g : RefAndXmlFormats → ObjectVariant) : Reader ObjectVariant := do
  let base ← RefAndXmlFormats.deserialize cdr little
  pure (g base)

/-- `OBJK_PARTICIPANT_Representation::deserialize`. -/
def participantOf : Reader ObjectVariant := do
  let base ← Representation3Formats.deserialize cdr little
  let domainId ← cdr.int16 little
  pure (.participant base domainId)

/-- The member of an `ObjectVariant` that the kind selects. -/
def ObjectVariant.member (d : UInt8) : Reader ObjectVariant :=
  if d = objkAgent then do
    let agent ← AgentRepresentation.deserialize cdr little
    pure (.agent agent)
  else if d = objkClient then do
    let client ← ClientRepresentation.deserialize cdr little
    pure (.client client)
  else if d = objkApplication then refAndXml cdr little .application
  else if d = objkParticipant then participantOf cdr little
  else if d = objkQosprofile then refAndXml cdr little .qosProfile
  else if d = objkType then refAndXml cdr little .type
  else if d = objkTopic then representationOf cdr little .topic
  else if d = objkPublisher then binAndXmlOf cdr little .publisher
  else if d = objkSubscriber then binAndXmlOf cdr little .subscriber
  else if d = objkDatawriter then representationOf cdr little .dataWriter
  else if d = objkDatareader then representationOf cdr little .dataReader
  else if d = objkRequester then representationOf cdr little .requester
  else if d = objkReplier then representationOf cdr little .replier
  else pure (.other d)

/-- `ObjectVariant::deserialize`. -/
def ObjectVariant.deserialize : Reader ObjectVariant := do
  let d ← cdr.octet
  ObjectVariant.member cdr little d

/-- `BaseObjectRequest::deserialize`. -/
def BaseObjectRequest.deserialize : Reader BaseObjectRequest := do
  let requestId ← cdr.octets 2
  let objectId ← cdr.octets 2
  pure ⟨requestId, objectId⟩

/-- `DataDeliveryControl::deserialize`. -/
def DataDeliveryControl.deserialize : Reader DataDeliveryControl := do
  let maxSamples ← cdr.uint16 little
  let maxElapsedTime ← cdr.uint16 little
  let maxBytesPerSecond ← cdr.uint16 little
  let minPacePeriod ← cdr.uint16 little
  pure ⟨maxSamples, maxElapsedTime, maxBytesPerSecond, minPacePeriod⟩

/-- `ReadSpecification::deserialize`. -/
def ReadSpecification.deserialize : Reader ReadSpecification := do
  let preferredStreamId ← cdr.octet
  let dataFormat ← cdr.octet
  let contentFilterExpression ← readOptional cdr (cdr.string little)
  let deliveryControl ← readOptional cdr (DataDeliveryControl.deserialize cdr little)
  pure ⟨preferredStreamId, dataFormat, contentFilterExpression, deliveryControl⟩

/-- `ACKNACK_Payload::deserialize`. -/
def AcknackPayload.deserialize : Reader AcknackPayload := do
  let firstUnackedSeqNum ← cdr.uint16 little
  let nackBitmap ← cdr.octets 2
  let streamId ← cdr.octet
  pure ⟨firstUnackedSeqNum, nackBitmap, streamId⟩

/-- `HEARTBEAT_Payload::deserialize`. -/
def HeartbeatPayload.deserialize : Reader HeartbeatPayload := do
  let firstUnackedSeqNr ← cdr.uint16 little
  let lastUnackedSeqNr ← cdr.uint16 little
  let streamId ← cdr.octet
  pure ⟨firstUnackedSeqNr, lastUnackedSeqNr, streamId⟩

/-- `get_payload` of the function that handles a submessage.  The data of a WRITE_DATA is what is
announced behind the request. -/
def getPayload (id : UInt8) (submessageLength : ℕ) : Reader RequestPayload :=
  if id = submessageIdCreateClient then do
    let client ← ClientRepresentation.deserialize cdr little
    pure (.createClient client)
  else if id = submessageIdCreate then do
    let base ← BaseObjectRequest.deserialize cdr
    let object ← ObjectVariant.deserialize cdr little
    pure (.create base object)
  else if id = submessageIdGetInfo then do
    let base ← BaseObjectRequest.deserialize cdr
    let infoMask ← cdr.uint32 little
    pure (.getInfo base infoMask)
  else if id = submessageIdDelete then do
    let base ← BaseObjectRequest.deserialize cdr
    pure (.delete base)
  else if id = submessageIdWriteData then do
    let base ← BaseObjectRequest.deserialize cdr
    let data ← cdr.array (submessageLength - 4)
    pure (.writeData base data)
  else if id = submessageIdReadData then do
    let base ← BaseObjectRequest.deserialize cdr
    let readSpecification ← ReadSpecification.deserialize cdr little
    pure (.readData base readSpecification)
  else if id = submessageIdAcknack then do
    let acknack ← AcknackPayload.deserialize cdr little
    pure (.acknack acknack)
  else if id = submessageIdHeartbeat then do
    let heartbeat ← HeartbeatPayload.deserialize cdr little
    pure (.heartbeat heartbeat)
  else if id = submessageIdTimestamp then do
    let transmitTimestamp ← TimeT.deserialize cdr little
    pure (.timestamp transmitTimestamp)
  else failure

end

/-! ## What is read -/

section

variable (cdr : CdrDeserializer) (little : Bool)

/-- Members that may be missing. -/
lemma readOptional_reads {α : Type} {w : α → Layout} {r : Reader α} {member : Option α}
    (h : ∀ a ∈ member, Reads (w a) r a) :
    Reads (.optional w member) (readOptional cdr r) member := by
  apply (cdr.bool_reads member.isSome).bind
  cases member with
  | some a => exact (h a rfl).last some
  | none => exact .pure none

/-- Times. -/
lemma TimeT.deserialize_reads (t : TimeT) : Reads (t.layout little) (deserialize cdr little) t := by
  apply (cdr.int32_reads little t.seconds).bind
  exact (cdr.uint32_reads little t.nanoseconds).last (TimeT.mk t.seconds)

/-- Properties. -/
lemma Property.deserialize_reads {p : Property} (h : p.Valid) :
    Reads (p.layout little) (deserialize cdr little) p := by
  apply (cdr.string_reads little h.1).bind
  exact (cdr.string_reads little h.2).last (Property.mk p.name)

/-- Properties, one behind the other. -/
lemma readProperties_reads {properties : Option (List Property)} (h : ValidProperties properties) :
    Reads (.optional (.sequence little (Property.layout little)) properties)
      (readOptional cdr (cdr.sequence little (Property.deserialize cdr little))) properties := by
  apply readOptional_reads
  intro ps hps
  obtain ⟨hlength, hvalid⟩ := h ps hps
  exact cdr.sequence_reads little hlength
    fun p hp => Property.deserialize_reads cdr little (hvalid p hp)

/-- Clients. -/
lemma ClientRepresentation.deserialize_reads {client : ClientRepresentation}
    (h : ValidProperties client.properties) :
    Reads (client.layout little) (deserialize cdr little) client := by
  apply (cdr.octets_reads _).bind
  apply (cdr.octets_reads _).bind
  apply (cdr.octets_reads _).bind
  apply (cdr.octets_reads _).bind
  apply (cdr.octet_reads _).bind
  apply (readProperties_reads cdr little h).bind
  exact (cdr.uint16_reads little client.mtu).last (ClientRepresentation.mk _ _ _ _ _ _)

/-- Agents. -/
lemma AgentRepresentation.deserialize_reads {agent : AgentRepresentation}
    (h : ValidProperties agent.properties) :
    Reads (agent.layout little) (deserialize cdr little) agent := by
  apply (cdr.octets_reads _).bind
  apply (cdr.octets_reads _).bind
  apply (cdr.octets_reads _).bind
  exact (readProperties_reads cdr little h).last (AgentRepresentation.mk _ _ _)

/-- Representations in three formats. -/
lemma Representation3Formats.deserialize_reads {base : Representation3Formats} (h : base.Valid) :
    Reads (base.layout little) (deserialize cdr little) base := by
  apply (cdr.octet_reads _).bind
  cases base with
  | byReference s => exact (cdr.string_reads little h).last _
  | asXmlString s => exact (cdr.string_reads little h).last _
  | inBinary bs => exact (cdr.sequenceOctets_reads little h).last _
  | other d =>
    obtain ⟨h₁, h₂, h₃⟩ : d ≠ representationByReference ∧ d ≠ representationAsXmlString ∧
      d ≠ representationInBinary := by simpa [Valid] using h
    change Reads .nil (member cdr little d) _
    unfold member
    rw [if_neg h₁, if_neg h₂, if_neg h₃]
    exact .pure _

/-- Representations by reference or in XML. -/
lemma RefAndXmlFormats.deserialize_reads {base : RefAndXmlFormats} (h : base.Valid) :
    Reads (base.layout little) (deserialize cdr little) base := by
  apply (cdr.octet_reads _).bind
  cases base with
  | byReference s => exact (cdr.string_reads little h).last _
  | asXmlString s => exact (cdr.string_reads little h).last _
  | other d =>
    obtain ⟨h₁, h₂⟩ : d ≠ representationByReference ∧ d ≠ representationAsXmlString := by
      simpa [Valid] using h
    change Reads .nil (member cdr little d) _
    unfold member
    rw [if_neg h₁, if_neg h₂]
    exact .pure _

/-- Representations in binary or in XML. -/
lemma BinAndXmlFormats.deserialize_reads {base : BinAndXmlFormats} (h : base.Valid) :
    Reads (base.layout little) (deserialize cdr little) base := by
  apply (cdr.octet_reads _).bind
  cases base with
  | inBinary bs => exact (cdr.sequenceOctets_reads little h).last _
  | asXmlString s => exact (cdr.string_reads little h).last _
  | other d =>
    obtain ⟨h₁, h₂⟩ : d ≠ representationInBinary ∧ d ≠ representationAsXmlString := by
      simpa [Valid] using h
    change Reads .nil (member cdr little d) _
    unfold member
    rw [if_neg h₁, if_neg h₂]
    exact .pure _

/-- A representation, and the object that it belongs to. -/
lemma representationOf_reads {base : Representation3Formats} (h : base.Valid) (id : Octets 2)
    (g : Representation3Formats → Octets 2 → ObjectVariant) :
    Reads (base.layout little ++ .bytes id.1) (representationOf cdr little g) (g base id) :=
  (Representation3Formats.deserialize_reads cdr little h).bind ((cdr.octets_reads id).last (g base))

/-- A publisher or a subscriber, and the participant that it belongs to. -/
lemma binAndXmlOf_reads {base : BinAndXmlFormats} (h : base.Valid) (id : Octets 2)
    (g : BinAndXmlFormats → Octets 2 → ObjectVariant) :
    Reads (base.layout little ++ .bytes id.1) (binAndXmlOf cdr little g) (g base id) :=
  (BinAndXmlFormats.deserialize_reads cdr little h).bind ((cdr.octets_reads id).last (g base))

/-- Objects of every kind. -/
lemma ObjectVariant.deserialize_reads {object : ObjectVariant} (h : object.Valid) :
    Reads (object.layout little) (deserialize cdr little) object := by
  apply (cdr.octet_reads _).bind
  cases object with
  | agent a => exact (AgentRepresentation.deserialize_reads cdr little h).last _
  | client c => exact (ClientRepresentation.deserialize_reads cdr little h).last _
  | application base | qosProfile base | type base =>
    exact (RefAndXmlFormats.deserialize_reads cdr little h).last _
  | participant base domainId =>
    exact (Representation3Formats.deserialize_reads cdr little h).bind
      ((cdr.int16_reads little domainId).last _)
  | publisher base id | subscriber base id => exact binAndXmlOf_reads cdr little h id _
  | topic base id | dataWriter base id | dataReader base id | requester base id
  | replier base id => exact representationOf_reads cdr little h id _
  | other d =>
    have hne : ∀ k ∈ objectKinds, d ≠ k := fun k hk heq => h (heq ▸ hk)
    simp only [objectKinds, List.forall_mem_cons] at hne
    obtain ⟨h₁, h₂, h₃, h₄, h₅, h₆, h₇, h₈, h₉, h₁₀, h₁₁, h₁₂, h₁₃, -⟩ := hne
    have hmember : member cdr little d = pure (.other d) := by
      unfold member
      rw [if_neg h₁₂, if_neg h₁₃, if_neg h₁₁, if_neg h₁, if_neg h₁₀, if_neg h₉, if_neg h₂,
        if_neg h₃, if_neg h₄, if_neg h₅, if_neg h₆, if_neg h₇, if_neg h₈]
    change Reads .nil (member cdr little d) _
    rw [hmember]
    exact .pure _

/-- The object that a request is about. -/
lemma BaseObjectRequest.deserialize_reads (base : BaseObjectRequest) :
    Reads base.layout (deserialize cdr) base :=
  (cdr.octets_reads _).bind ((cdr.octets_reads _).last (BaseObjectRequest.mk _))

/-- How fast data is to be delivered. -/
lemma DataDeliveryControl.deserialize_reads (control : DataDeliveryControl) :
    Reads (control.layout little) (deserialize cdr little) control := by
  apply (cdr.uint16_reads little _).bind
  apply (cdr.uint16_reads little _).bind
  apply (cdr.uint16_reads little _).bind
  exact (cdr.uint16_reads little _).last (DataDeliveryControl.mk _ _ _)

/-- How data is to be read. -/
lemma ReadSpecification.deserialize_reads {specification : ReadSpecification}
    (h : specification.Valid) :
    Reads (specification.layout little) (deserialize cdr little) specification := by
  apply (cdr.octet_reads _).bind
  apply (cdr.octet_reads _).bind
  apply (readOptional_reads cdr fun s hs => cdr.string_reads little (h s hs)).bind
  apply Reads.last _ (ReadSpecification.mk _ _ _)
  exact readOptional_reads cdr fun control _ => control.deserialize_reads cdr little

/-- Acknowledgements. -/
lemma AcknackPayload.deserialize_reads (payload : AcknackPayload) :
    Reads (payload.layout little) (deserialize cdr little) payload := by
  apply (cdr.uint16_reads little _).bind
  apply (cdr.octets_reads _).bind
  exact (cdr.octet_reads _).last (AcknackPayload.mk _ _)

/-- Heartbeats. -/
lemma HeartbeatPayload.deserialize_reads (payload : HeartbeatPayload) :
    Reads (payload.layout little) (deserialize cdr little) payload := by
  apply (cdr.uint16_reads little _).bind
  apply (cdr.uint16_reads little _).bind
  exact (cdr.octet_reads _).last (HeartbeatPayload.mk _ _)

/-- Every payload is read as it is laid out, if it is announced with the length that it has. -/
theorem RequestPayload.reads {payload : RequestPayload} (h : payload.Valid) (length : ℕ)
    (hlength : ∀ base data, payload = .writeData base data → length = 4 + data.length) :
    Reads (payload.layout little) (getPayload cdr little payload.submessageId length) payload := by
  cases payload with
  | createClient c => exact (ClientRepresentation.deserialize_reads cdr little h).last _
  | create base object =>
    exact (base.deserialize_reads cdr).bind ((ObjectVariant.deserialize_reads cdr little h).last _)
  | getInfo base infoMask =>
    exact (base.deserialize_reads cdr).bind ((cdr.uint32_reads little infoMask).last _)
  | delete base => exact (base.deserialize_reads cdr).last _
  | writeData base data =>
    obtain rfl := hlength base data rfl
    apply (base.deserialize_reads cdr).bind
    apply Reads.last _ (RequestPayload.writeData base)
    rw [Nat.add_sub_cancel_left]
    exact cdr.array_reads data
  | readData base specification =>
    exact (base.deserialize_reads cdr).bind
      ((ReadSpecification.deserialize_reads cdr little h).last _)
  | acknack a => exact (a.deserialize_reads cdr little).last _
  | heartbeat payload => exact (payload.deserialize_reads cdr little).last _
  | timestamp t => exact (t.deserialize_reads cdr little).last _

end

end XrceTypes

end XrceDds
