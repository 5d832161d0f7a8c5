import XrceDds.Agent.FastDDSMiddleware

/-!
# The classes of objects on FastDDS

`create` and `matched` of each class of objects, and the entities that the destructors delete.
Reading a member of a union that its discriminator does not select throws, and the result is
`none`.
-/

namespace XrceDds

variable {Attributes Qos : Type} (dds : FastDDS Attributes Qos) (accepted : Bool)

/-- The check that `matched` of every class but `Publisher` and `Subscriber` begins with. -/
def XRCEObject.sameKind (object : XRCEObject) (variant : ObjectVariant) : Prop :=
  object.id.2 &&& 0x0F = variant.d

instance (object : XRCEObject) (variant : ObjectVariant) : Decidable (object.sameKind variant) := by
  unfold XRCEObject.sameKind; infer_instance

/-! ### Participant -/

/-- `Participant::create`. -/
def participantCreate (middleware : FastDDSMiddleware Qos) (objectId : ObjectId)
    (member : ObjectMember) : FastDDSMiddleware Qos × Bool :=
  match member.representation with
  | .byReference ref =>
    middleware.createParticipantByRef dds accepted (objectidToRaw objectId) member.domainId ref
  | .asXmlString xml =>
    middleware.createParticipantByXml dds accepted (objectidToRaw objectId) member.domainId xml
  | .inBinary _ => (middleware, false)

/-- `Participant::matched`. -/
def participantMatched [DecidableEq Qos] (middleware : FastDDSMiddleware Qos) (object : XRCEObject)
    (variant : ObjectVariant) : Option Bool :=
  if object.sameKind variant then do
    let member ← variant.participant
    match member.representation with
    | .byReference ref => some (middleware.matchedParticipant dds (objectidToRaw object.id)
        member.domainId (dds.fillParticipantAttributes ref))
    | .asXmlString xml => some (middleware.matchedParticipant dds (objectidToRaw object.id)
        member.domainId (dds.parseParticipant xml))
    | .inBinary _ => some false
  else some false

/-! ### Topic -/

/-- `Topic::create`. -/
def topicCreate (middleware : FastDDSMiddleware Qos) (objectId : ObjectId) (participantId : ℕ)
    (member : ObjectMember) : FastDDSMiddleware Qos × Bool :=
  match member.representation with
  | .byReference ref => middleware.createTopic accepted (objectidToRaw objectId) participantId
      (dds.fillTopicAttributes ref)
  | .asXmlString xml => middleware.createTopic accepted (objectidToRaw objectId) participantId
      (dds.parseTopic xml)
  | .inBinary _ => (middleware, false)

/-- `Topic::matched`. -/
def topicMatched (middleware : FastDDSMiddleware Qos) (object : XRCEObject)
    (variant : ObjectVariant) : Option Bool :=
  if object.sameKind variant then do
    let member ← variant.topic
    match member.representation with
    | .byReference ref =>
      some (middleware.matchedTopic (objectidToRaw object.id) (dds.fillTopicAttributes ref))
    | .asXmlString xml =>
      some (middleware.matchedTopic (objectidToRaw object.id) (dds.parseTopic xml))
    | .inBinary _ => some false
  else some false

/-! ### Publisher and Subscriber -/

/-- `Publisher::create`. -/
def publisherCreate (middleware : FastDDSMiddleware Qos) (objectId : ObjectId) (participantId : ℕ)
    (member : ObjectMember) : FastDDSMiddleware Qos × Bool :=
  match member.representation with
  | .asXmlString _ =>
    middleware.createPublisherByXml accepted (objectidToRaw objectId) participantId
  | .byReference _ | .inBinary _ => (middleware, false)

/-- `Publisher::matched`. -/
def publisherMatched (_ : FastDDSMiddleware Qos) (_ : XRCEObject) (_ : ObjectVariant) :
    Option Bool := some true

/-- `Subscriber::create`. -/
def subscriberCreate (middleware : FastDDSMiddleware Qos) (objectId : ObjectId) (participantId : ℕ)
    (member : ObjectMember) : FastDDSMiddleware Qos × Bool :=
  match member.representation with
  | .asXmlString _ =>
    middleware.createSubscriberByXml accepted (objectidToRaw objectId) participantId
  | .byReference _ | .inBinary _ => (middleware, false)

/-- `Subscriber::matched`. -/
def subscriberMatched (_ : FastDDSMiddleware Qos) (_ : XRCEObject) (_ : ObjectVariant) :
    Option Bool := some true

/-! ### DataWriter and DataReader -/

/-- `DataWriter::create`. -/
def datawriterCreate (middleware : FastDDSMiddleware Qos) (objectId : ObjectId) (publisherId : ℕ)
    (member : ObjectMember) : FastDDSMiddleware Qos × Bool :=
  match member.representation with
  | .byReference ref => middleware.createDatawriter dds accepted (objectidToRaw objectId)
    publisherId
      (dds.fillPublisherAttributes ref)
  | .asXmlString xml => middleware.createDatawriter dds accepted (objectidToRaw objectId)
    publisherId
      (dds.parsePublisher xml)
  | .inBinary _ => (middleware, false)

/-- `DataWriter::matched`. -/
def datawriterMatched [DecidableEq Qos] (middleware : FastDDSMiddleware Qos) (object : XRCEObject)
    (variant : ObjectVariant) : Option Bool :=
  if object.sameKind variant then do
    let member ← variant.dataWriter
    match member.representation with
    | .byReference ref => some (middleware.matchedDatawriter dds (objectidToRaw object.id)
        (dds.fillPublisherAttributes ref))
    | .asXmlString xml => some (middleware.matchedDatawriter dds (objectidToRaw object.id)
        (dds.parsePublisher xml))
    | .inBinary _ => some false
  else some false

/-- `DataReader::create`. -/
def datareaderCreate (middleware : FastDDSMiddleware Qos) (objectId : ObjectId) (subscriberId : ℕ)
    (member : ObjectMember) : FastDDSMiddleware Qos × Bool :=
  match member.representation with
  | .byReference ref => middleware.createDatareader dds accepted (objectidToRaw objectId)
    subscriberId
      (dds.fillSubscriberAttributes ref)
  | .asXmlString xml => middleware.createDatareader dds accepted (objectidToRaw objectId)
    subscriberId
      (dds.parseSubscriber xml)
  | .inBinary _ => (middleware, false)

/-- `DataReader::matched`. -/
def datareaderMatched [DecidableEq Qos] (middleware : FastDDSMiddleware Qos) (object : XRCEObject)
    (variant : ObjectVariant) : Option Bool :=
  if object.sameKind variant then do
    let member ← variant.dataReader
    match member.representation with
    | .byReference ref => some (middleware.matchedDatareader dds (objectidToRaw object.id)
        (dds.fillSubscriberAttributes ref))
    | .asXmlString xml => some (middleware.matchedDatareader dds (objectidToRaw object.id)
        (dds.parseSubscriber xml))
    | .inBinary _ => some false
  else some false

/-! ### Requester and Replier -/

/-- `Requester::create`. -/
def requesterCreate (middleware : FastDDSMiddleware Qos) (objectId : ObjectId) (participantId : ℕ)
    (member : ObjectMember) : FastDDSMiddleware Qos × Bool :=
  match member.representation with
  | .byReference ref => middleware.createRequester dds accepted (objectidToRaw objectId)
    participantId
      (dds.fillRequesterAttributes ref)
  | .asXmlString xml => middleware.createRequester dds accepted (objectidToRaw objectId)
    participantId
      (dds.parseRequester xml)
  | .inBinary _ => (middleware, false)

/-- `Requester::matched`, which looks at `data_writer` for the format, and at `object_reference` for
the XML string. -/
def requesterMatched [DecidableEq Qos] (middleware : FastDDSMiddleware Qos) (object : XRCEObject)
    (variant : ObjectVariant) : Option Bool :=
  if object.sameKind variant then do
    let format ← variant.dataWriter
    match format.representation with
    | .byReference _ =>
      let member ← variant.requester
      let ref ← member.representation.objectReference
      some (middleware.matchedRequester dds (objectidToRaw object.id) ref)
    | .asXmlString _ =>
      let member ← variant.requester
      let xml ← member.representation.objectReference
      some (middleware.matchedRequester dds (objectidToRaw object.id) xml)
    | .inBinary _ => some false
  else some false

/-- `Replier::create`. -/
def replierCreate (middleware : FastDDSMiddleware Qos) (objectId : ObjectId) (participantId : ℕ)
    (member : ObjectMember) : FastDDSMiddleware Qos × Bool :=
  match member.representation with
  | .byReference ref => middleware.createReplier dds accepted (objectidToRaw objectId) participantId
      (dds.fillReplierAttributes ref)
  | .asXmlString xml => middleware.createReplier dds accepted (objectidToRaw objectId) participantId
      (dds.parseReplier xml)
  | .inBinary _ => (middleware, false)

/-- `Replier::matched`, which looks at `data_writer` for the format, and at `object_reference` for
the XML string. -/
def replierMatched [DecidableEq Qos] (middleware : FastDDSMiddleware Qos) (object : XRCEObject)
    (variant : ObjectVariant) : Option Bool :=
  if object.sameKind variant then do
    let format ← variant.dataWriter
    match format.representation with
    | .byReference _ =>
      let member ← variant.replier
      let ref ← member.representation.objectReference
      some (middleware.matchedReplier dds (objectidToRaw object.id) ref)
    | .asXmlString _ =>
      let member ← variant.replier
      let xml ← member.representation.objectReference
      some (middleware.matchedReplier dds (objectidToRaw object.id) xml)
    | .inBinary _ => some false
  else some false

/-! ### All classes -/

namespace FastDDS

/-- `create` of the class for the kind of the variant. -/
def createObject (middleware : FastDDSMiddleware Qos) (objectId : ObjectId) (parentId : ℕ)
    (variant : ObjectVariant) : FastDDSMiddleware Qos × Bool :=
  if variant.d = .participant then participantCreate dds accepted middleware objectId variant.member
  else if variant.d = .topic then
    topicCreate dds accepted middleware objectId parentId variant.member
  else if variant.d = .publisher then
    publisherCreate accepted middleware objectId parentId variant.member
  else if variant.d = .subscriber then
    subscriberCreate accepted middleware objectId parentId variant.member
  else if variant.d = .dataWriter then
    datawriterCreate dds accepted middleware objectId parentId variant.member
  else if variant.d = .dataReader then
    datareaderCreate dds accepted middleware objectId parentId variant.member
  else if variant.d = .requester then
    requesterCreate dds accepted middleware objectId parentId variant.member
  else if variant.d = .replier then
    replierCreate dds accepted middleware objectId parentId variant.member
  else (middleware, false)

/-- The destructor of the class of an object: the entity is deleted. -/
def deleteObject (middleware : FastDDSMiddleware Qos) (object : XRCEObject) :
    FastDDSMiddleware Qos :=
  let id := objectidToRaw object.id
  if object.built.d = .participant then
    { middleware with participants := middleware.participants.erase id }
  else if object.built.d = .topic then { middleware with topics := middleware.topics.erase id }
  else if object.built.d = .publisher then
    { middleware with publishers := middleware.publishers.erase id }
  else if object.built.d = .subscriber then
    { middleware with subscribers := middleware.subscribers.erase id }
  else if object.built.d = .dataWriter then
    { middleware with datawriters := middleware.datawriters.erase id }
  else if object.built.d = .dataReader then
    { middleware with datareaders := middleware.datareaders.erase id }
  else if object.built.d = .requester then
    { middleware with requesters := middleware.requesters.erase id }
  else if object.built.d = .replier then
    { middleware with repliers := middleware.repliers.erase id }
  else middleware

/-- `matched` of the class of an object. -/
def matchedObject [DecidableEq Qos] (middleware : FastDDSMiddleware Qos) (object : XRCEObject)
    (variant : ObjectVariant) : Option Bool :=
  if object.built.d = .participant then participantMatched dds middleware object variant
  else if object.built.d = .topic then topicMatched dds middleware object variant
  else if object.built.d = .publisher then publisherMatched middleware object variant
  else if object.built.d = .subscriber then subscriberMatched middleware object variant
  else if object.built.d = .dataWriter then datawriterMatched dds middleware object variant
  else if object.built.d = .dataReader then datareaderMatched dds middleware object variant
  else if object.built.d = .requester then requesterMatched dds middleware object variant
  else replierMatched dds middleware object variant

/-- The classes of objects on FastDDS, where DDS creates the entities it is asked for or not. -/
def objectFactory [DecidableEq Qos] (accepted : Bool) : ObjectFactory (FastDDSMiddleware Qos) where
  create := dds.createObject accepted
  delete := deleteObject
  matched := dds.matchedObject

end FastDDS

end XrceDds
