import XrceDds.Agent.ProxyClient
import Mathlib.Data.List.AList

/-!
# The FastDDS middleware

`FastDDSMiddleware` and its entities, as far as creating, deleting and matching goes, and the
classes of objects that use it.  DDS, its XML parser and `set_qos_from_attributes`, which copies the
attributes field by field, are a parameter (`FastDDS`).

The entities live as long as something holds them: the local topics of a participant are those that
an object still has, and its types those of its topics.
-/

namespace XrceDds

/-- `TopicAttributes`, as far as the middleware looks at it. -/
structure TopicAttributes where
  topicName : String
  topicDataType : String
  withKey : Bool
  deriving DecidableEq

/-- What is taken from DDS: the attributes of the profile with a name, and of an XML string; the
topic that attributes name; the QoS that is set from attributes; and the QoS of a participant
that is created with a profile.  Attributes of a requester or replier are those of its publisher
and of its subscriber. -/
structure FastDDS (Attributes Qos : Type) where
  fillParticipantAttributes : String → Option Attributes
  parseParticipant : String → Option Attributes
  fillTopicAttributes : String → Option TopicAttributes
  parseTopic : String → Option TopicAttributes
  fillPublisherAttributes : String → Option Attributes
  parsePublisher : String → Option Attributes
  fillSubscriberAttributes : String → Option Attributes
  parseSubscriber : String → Option Attributes
  fillRequesterAttributes : String → Option (Attributes × Attributes)
  parseRequester : String → Option (Attributes × Attributes)
  fillReplierAttributes : String → Option (Attributes × Attributes)
  parseReplier : String → Option (Attributes × Attributes)
  topic : Attributes → TopicAttributes
  participantQos : Attributes → Qos
  publisherQos : Attributes → Qos
  subscriberQos : Attributes → Qos
  dataWriterQos : Attributes → Qos
  dataReaderQos : Attributes → Qos
  profileQos : String → Option Qos

/-- `FastDDSParticipant`, with an identity of its own. -/
structure FastDDSParticipant (Qos : Type) where
  identity : ℕ
  domainId : ℤ
  qos : Qos

/-- `FastDDSTopic`, with what it reads of its `FastDDSType`. -/
structure FastDDSTopic where
  participant : ℕ
  name : String
  typeName : String
  isGetKeyDefined : Bool

/-- `FastDDSDataWriter` and `FastDDSDataReader`. -/
structure FastDDSEndpoint (Qos : Type) where
  topic : FastDDSTopic
  qos : Qos

/-- `FastDDSRequester` and `FastDDSReplier`, as entities. -/
structure FastDDSEndpoints (Qos : Type) where
  requestTopic : FastDDSTopic
  replyTopic : FastDDSTopic
  publisherQos : Qos
  subscriberQos : Qos

/-- A map of entities by the raw identifiers of their objects. -/
abbrev EntityMap (Entity : Type) := AList fun _ : ℕ => Entity

/-- `emplace`: an entry that is there stays. -/
def EntityMap.emplace {Entity : Type} (entities : EntityMap Entity) (id : ℕ) (entity : Entity) :
    EntityMap Entity × Bool :=
  match entities.lookup id with
  | none => (entities.insert id entity, true)
  | some _ => (entities, false)

/-- The entities of a map. -/
def EntityMap.values {Entity : Type} (entities : EntityMap Entity) : List Entity :=
  entities.entries.map fun entry => entry.2

/-- `FastDDSMiddleware`.  Publishers and subscribers are known by their participants. -/
structure FastDDSMiddleware (Qos : Type) where
  participants : EntityMap (FastDDSParticipant Qos)
  topics : EntityMap FastDDSTopic
  publishers : EntityMap ℕ
  subscribers : EntityMap ℕ
  datawriters : EntityMap (FastDDSEndpoint Qos)
  datareaders : EntityMap (FastDDSEndpoint Qos)
  requesters : EntityMap (FastDDSEndpoints Qos)
  repliers : EntityMap (FastDDSEndpoints Qos)
  identities : ℕ

namespace FastDDSTopic

/-- `match`. -/
def matchAttributes (topic : FastDDSTopic) (attributes : TopicAttributes) : Bool :=
  attributes.topicName = topic.name ∧ topic.typeName = attributes.topicDataType ∧
    topic.isGetKeyDefined = attributes.withKey

/-- `find_local_topic` of a participant, among the topics that are held. -/
def findLocalTopic (live : List FastDDSTopic) (participant : ℕ) (name : String) :
    Option FastDDSTopic :=
  live.find? fun topic => topic.participant = participant ∧ topic.name = name

/-- `find_local_type` of a participant: whether the type that its topics hold has a key. -/
def findLocalType (live : List FastDDSTopic) (participant : ℕ) (typeName : String) : Option Bool :=
  (live.find? fun topic => topic.participant = participant ∧ topic.typeName = typeName).map
    isGetKeyDefined

/-- `create_topic` of the middleware.  A topic of the same name is shared if its type has the same
name, and a new topic shares a type of the same name. -/
def create (accepted : Bool) (live : List FastDDSTopic) (participant : ℕ)
    (attributes : TopicAttributes) : Option FastDDSTopic :=
  match findLocalTopic live participant attributes.topicName with
  | some topic => if attributes.topicDataType ≠ topic.typeName then none else some topic
  | none =>
    if accepted then
      some ⟨participant, attributes.topicName, attributes.topicDataType,
        (findLocalType live participant attributes.topicDataType).getD attributes.withKey⟩
    else none

end FastDDSTopic

namespace FastDDSMiddleware

variable {Attributes Qos : Type} (dds : FastDDS Attributes Qos)

/-- The constructor. -/
def new : FastDDSMiddleware Qos := ⟨∅, ∅, ∅, ∅, ∅, ∅, ∅, ∅, 0⟩

/-- The topics that the entities hold. -/
def liveTopics (middleware : FastDDSMiddleware Qos) : List FastDDSTopic :=
  middleware.topics.values ++ middleware.datawriters.values.map (·.topic) ++
    middleware.datareaders.values.map (·.topic) ++
    middleware.requesters.values.flatMap (fun entity => [entity.requestTopic, entity.replyTopic]) ++
    middleware.repliers.values.flatMap (fun entity => [entity.requestTopic, entity.replyTopic])

/-! ### Create functions

`accepted` says whether the entities that a call asks of DDS are created. -/

/-- The end of `create_participant_by_ref` and `create_participant_by_xml`. -/
def emplaceParticipant (middleware : FastDDSMiddleware Qos) (participantId : ℕ) (domainId : ℤ)
    (qos : Qos) : FastDDSMiddleware Qos × Bool :=
  let emplaced :=
    middleware.participants.emplace participantId ⟨middleware.identities, domainId, qos⟩
  ({ middleware with
    participants := emplaced.1
    identities := middleware.identities + 1 }, emplaced.2)

/-- `create_participant_by_ref`. -/
def createParticipantByRef (accepted : Bool) (middleware : FastDDSMiddleware Qos)
    (participantId : ℕ) (domainId : ℤ) (ref : String) : FastDDSMiddleware Qos × Bool :=
  match dds.profileQos ref, accepted with
  | some qos, true => middleware.emplaceParticipant participantId domainId qos
  | _, _ => (middleware, false)

/-- `create_participant_by_xml`. -/
def createParticipantByXml (accepted : Bool) (middleware : FastDDSMiddleware Qos)
    (participantId : ℕ) (domainId : ℤ) (xml : String) : FastDDSMiddleware Qos × Bool :=
  match dds.parseParticipant xml, accepted with
  | some attributes, true =>
    middleware.emplaceParticipant participantId domainId (dds.participantQos attributes)
  | _, _ => (middleware, false)

/-- `create_topic_by_ref` and `create_topic_by_xml`, with the attributes that were read. -/
def createTopic (accepted : Bool) (middleware : FastDDSMiddleware Qos) (topicId participantId : ℕ)
    (attributes : Option TopicAttributes) : FastDDSMiddleware Qos × Bool :=
  match attributes, middleware.participants.lookup participantId with
  | some attributes, some participant =>
    match FastDDSTopic.create accepted middleware.liveTopics participant.identity attributes with
    | some topic =>
      let emplaced := middleware.topics.emplace topicId topic
      ({ middleware with topics := emplaced.1 }, emplaced.2)
    | none => (middleware, false)
  | _, _ => (middleware, false)

/-- `create_publisher_by_xml`: an XML string that cannot be read stands for the default QoS, and an
entry that is there is not noticed. -/
def createPublisherByXml (accepted : Bool) (middleware : FastDDSMiddleware Qos)
    (publisherId participantId : ℕ) : FastDDSMiddleware Qos × Bool :=
  match middleware.participants.lookup participantId, accepted with
  | some participant, true =>
    ({ middleware with
      publishers := (middleware.publishers.emplace publisherId participant.identity).1 }, true)
  | _, _ => (middleware, false)

/-- `create_subscriber_by_xml`. -/
def createSubscriberByXml (accepted : Bool) (middleware : FastDDSMiddleware Qos)
    (subscriberId participantId : ℕ) : FastDDSMiddleware Qos × Bool :=
  match middleware.participants.lookup participantId, accepted with
  | some participant, true =>
    ({ middleware with
      subscribers := (middleware.subscribers.emplace subscriberId participant.identity).1 }, true)
  | _, _ => (middleware, false)

/-- `create_by_ref` and `create_by_xml` of `FastDDSDataWriter` and `FastDDSDataReader`, with the
attributes that were read and the QoS that is set from them. -/
def createEndpoint (accepted : Bool) (middleware : FastDDSMiddleware Qos) (participant : Option ℕ)
    (attributes : Option Attributes) (qos : Attributes → Qos) : Option (FastDDSEndpoint Qos) :=
  match participant, attributes with
  | some participant, some attributes =>
    match FastDDSTopic.findLocalTopic middleware.liveTopics participant
        (dds.topic attributes).topicName with
    | some topic => if accepted then some ⟨topic, qos attributes⟩ else none
    | none => none
  | _, _ => none

/-- `create_datawriter_by_ref` and `create_datawriter_by_xml`. -/
def createDatawriter (accepted : Bool) (middleware : FastDDSMiddleware Qos)
    (datawriterId publisherId : ℕ) (attributes : Option Attributes) :
    FastDDSMiddleware Qos × Bool :=
  match createEndpoint dds accepted middleware (middleware.publishers.lookup publisherId) attributes
      dds.dataWriterQos with
  | some entity =>
    let emplaced := middleware.datawriters.emplace datawriterId entity
    ({ middleware with datawriters := emplaced.1 }, emplaced.2)
  | none => (middleware, false)

/-- `create_datareader_by_ref` and `create_datareader_by_xml`. -/
def createDatareader (accepted : Bool) (middleware : FastDDSMiddleware Qos)
    (datareaderId subscriberId : ℕ) (attributes : Option Attributes) :
    FastDDSMiddleware Qos × Bool :=
  match createEndpoint dds accepted middleware (middleware.subscribers.lookup subscriberId)
      attributes dds.dataReaderQos with
  | some entity =>
    let emplaced := middleware.datareaders.emplace datareaderId entity
    ({ middleware with datareaders := emplaced.1 }, emplaced.2)
  | none => (middleware, false)

/-- `create_requester` and `create_replier`: the entity, given the attributes of the request topic,
of the reply topic and of the publisher and the subscriber. -/
def createEndpoints (accepted : Bool) (middleware : FastDDSMiddleware Qos) (participant : ℕ)
    (request reply : TopicAttributes) (publisher subscriber : Attributes) :
    Option (FastDDSEndpoints Qos) :=
  match FastDDSTopic.create accepted middleware.liveTopics participant request with
  | some requestTopic =>
    match FastDDSTopic.create accepted (requestTopic :: middleware.liveTopics)
      participant reply with
    | some replyTopic =>
      if accepted then
        some ⟨requestTopic, replyTopic, dds.publisherQos publisher, dds.subscriberQos subscriber⟩
      else none
    | none => none
  | none => none

/-- `create_requester_by_ref` and `create_requester_by_xml`: the publisher writes requests. -/
def createRequester (accepted : Bool) (middleware : FastDDSMiddleware Qos)
    (requesterId participantId : ℕ) (attributes : Option (Attributes × Attributes)) :
    FastDDSMiddleware Qos × Bool :=
  match middleware.participants.lookup participantId, attributes with
  | some participant, some (publisher, subscriber) =>
    match createEndpoints dds accepted middleware participant.identity (dds.topic publisher)
        (dds.topic subscriber) publisher subscriber with
    | some entity =>
      let emplaced := middleware.requesters.emplace requesterId entity
      ({ middleware with requesters := emplaced.1 }, emplaced.2)
    | none => (middleware, false)
  | _, _ => (middleware, false)

/-- `create_replier_by_ref` and `create_replier_by_xml`: the subscriber reads requests. -/
def createReplier (accepted : Bool) (middleware : FastDDSMiddleware Qos)
    (replierId participantId : ℕ) (attributes : Option (Attributes × Attributes)) :
    FastDDSMiddleware Qos × Bool :=
  match middleware.participants.lookup participantId, attributes with
  | some participant, some (publisher, subscriber) =>
    match createEndpoints dds accepted middleware participant.identity (dds.topic subscriber)
        (dds.topic publisher) publisher subscriber with
    | some entity =>
      let emplaced := middleware.repliers.emplace replierId entity
      ({ middleware with repliers := emplaced.1 }, emplaced.2)
    | none => (middleware, false)
  | _, _ => (middleware, false)

/-! ### Matched functions -/

variable [DecidableEq Qos]

/-- `matched_participant_from_ref` and `matched_participant_from_xml`, with the attributes that were
read. -/
def matchedParticipant (middleware : FastDDSMiddleware Qos) (participantId : ℕ) (domainId : ℤ)
    (attributes : Option Attributes) : Bool :=
  match middleware.participants.lookup participantId, attributes with
  | some entity, some attributes =>
    domainId = entity.domainId ∧ entity.qos = dds.participantQos attributes
  | _, _ => false

omit [DecidableEq Qos] in
/-- `matched_topic_from_ref` and `matched_topic_from_xml`. -/
def matchedTopic (middleware : FastDDSMiddleware Qos) (topicId : ℕ)
    (attributes : Option TopicAttributes) : Bool :=
  match middleware.topics.lookup topicId, attributes with
  | some entity, some attributes => entity.matchAttributes attributes
  | _, _ => false

/-- `matched_datawriter_from_ref` and `matched_datawriter_from_xml`. -/
def matchedDatawriter (middleware : FastDDSMiddleware Qos) (datawriterId : ℕ)
    (attributes : Option Attributes) : Bool :=
  match middleware.datawriters.lookup datawriterId, attributes with
  | some entity, some attributes => entity.qos = dds.dataWriterQos attributes
  | _, _ => false

/-- `matched_datareader_from_ref` and `matched_datareader_from_xml`. -/
def matchedDatareader (middleware : FastDDSMiddleware Qos) (datareaderId : ℕ)
    (attributes : Option Attributes) : Bool :=
  match middleware.datareaders.lookup datareaderId, attributes with
  | some entity, some attributes => entity.qos = dds.dataReaderQos attributes
  | _, _ => false

/-- `match` of `FastDDSRequester` and of `FastDDSReplier`. -/
def matchEndpoints (entity : Option (FastDDSEndpoints Qos))
    (attributes : Option (Attributes × Attributes)) : Bool :=
  match entity, attributes with
  | some entity, some (publisher, subscriber) =>
    entity.replyTopic.matchAttributes (dds.topic publisher) ∧
      entity.requestTopic.matchAttributes (dds.topic subscriber) ∧
      entity.publisherQos = dds.publisherQos publisher ∧
      entity.subscriberQos = dds.subscriberQos subscriber
  | _, _ => false

/-- `matched_requester_from_ref`, and `matched_requester_from_xml`, which calls `match_from_ref`. -/
def matchedRequester (middleware : FastDDSMiddleware Qos) (requesterId : ℕ) (ref : String) : Bool :=
  matchEndpoints dds (middleware.requesters.lookup requesterId) (dds.fillRequesterAttributes ref)

/-- `matched_replier_from_ref`, and `matched_replier_from_xml`, which calls `match_from_ref`. -/
def matchedReplier (middleware : FastDDSMiddleware Qos) (replierId : ℕ) (ref : String) : Bool :=
  matchEndpoints dds (middleware.repliers.lookup replierId) (dds.fillReplierAttributes ref)

end FastDDSMiddleware

end XrceDds
