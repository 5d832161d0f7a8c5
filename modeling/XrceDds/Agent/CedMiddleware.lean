import XrceDds.Agent.CedReferences
import XrceDds.Agent.CedTopicManager

/-!
# The CED middleware

A `CedMiddleware` keeps the objects of one client.  A topic is shared by the identifiers that
were created for it and by the writers and readers that use it; its participant finds it by its
name as long as one of them holds it, and the destructor of the last holder takes it out of the
participant's register.  The topics behind them are shared with other clients, who may register
and release topics at any time.

Along every run a topic that is held is registered under its name (`Sound.registered`).
-/

namespace XrceDds

/-- `CedParticipant`. -/
structure CedParticipant where
  domainId : ℤ
  topicRegister : AList fun _ : String => ℕ

/-- `CedTopic`: its participant and its `CedGlobalTopic`. -/
structure CedTopic where
  participant : ℕ
  globalTopic : ℕ
  deriving DecidableEq, Repr

/-- `CedMiddleware`, with the participants and topics that it ever made, which are known by their
position, and the topic manager that it shares.  The maps hold participants and topics; of a
publisher and a subscriber stands the participant, of a writer and a reader the topic. -/
structure CedMiddleware where
  participants : AList fun _ : ℕ => ℕ
  topics : AList fun _ : ℕ => ℕ
  publishers : AList fun _ : ℕ => ℕ
  subscribers : AList fun _ : ℕ => ℕ
  datawriters : AList fun _ : ℕ => ℕ
  datareaders : AList fun _ : ℕ => ℕ
  participantObjects : List CedParticipant
  topicObjects : List CedTopic
  manager : CedTopicManager

/-- `name` of a `CedGlobalTopic`. -/
def CedTopicManager.nameOf (m : CedTopicManager) (topic : ℕ) : Option String :=
  (m.objects[topic]?).map SharedTopic.name

/-- A reference is released, and the topic destroyed with the last one. -/
def CedTopicManager.drop (m : CedTopicManager) (topic : ℕ) : CedTopicManager :=
  if (m.release topic).useCount topic = 0 then (m.release topic).destroy topic
  else m.release topic

/-- What the entries of a map hold. -/
def holders (entities : AList fun _ : ℕ => ℕ) : List ℕ := entities.entries.map fun e => e.2

namespace CedMiddleware

/-- Nothing was created. -/
def empty : CedMiddleware := ⟨∅, ∅, ∅, ∅, ∅, ∅, [], [], .empty⟩

/-- A topic is held by an identifier, a writer or a reader. -/
def Held (s : CedMiddleware) (topic : ℕ) : Prop :=
  topic ∈ holders s.topics ∨ topic ∈ holders s.datawriters ∨ topic ∈ holders s.datareaders

instance (s : CedMiddleware) (topic : ℕ) : Decidable (s.Held topic) := by
  unfold Held; infer_instance

/-- `get_name` and `topic_name`. -/
def topicName (s : CedMiddleware) (topic : ℕ) : Option String :=
  (s.topicObjects[topic]?).bind fun o => s.manager.nameOf o.globalTopic

/-- `find_topic` of a participant. -/
def findTopic (s : CedMiddleware) (participant : ℕ) (topicName : String) : Option ℕ :=
  match (s.participantObjects[participant]?).bind fun p => p.topicRegister.lookup topicName with
  | none => none
  | some topic => if s.Held topic then some topic else none

/-- `register_topic` of a participant. -/
def registerTopic (s : CedMiddleware) (participant topic : ℕ) : CedMiddleware × Bool :=
  match s.topicName topic, s.participantObjects[participant]? with
  | some name, some p =>
    match p.topicRegister.lookup name with
    | none =>
      ({ s with
         participantObjects := s.participantObjects.set participant
           { p with topicRegister := p.topicRegister.insert name topic } }, true)
    | some _ => (s, false)
  | _, _ => (s, false)

/-- `unregister_topic` of a participant. -/
def unregisterTopic (s : CedMiddleware) (participant : ℕ) (topicName : String) : CedMiddleware :=
  { s with
    participantObjects := s.participantObjects.modify participant fun p =>
      { p with topicRegister := p.topicRegister.erase topicName } }

/-- A shared pointer to a topic goes away, and with the last one the topic. -/
def dropTopic (s : CedMiddleware) (topic : ℕ) : CedMiddleware :=
  if s.Held topic then s
  else
    match s.topicObjects[topic]?, s.topicName topic with
    | some o, some name =>
      { s.unregisterTopic o.participant name with manager := s.manager.drop o.globalTopic }
    | _, _ => s

/-- `create_topic`.  A registration that hands out no topic leads to a null pointer that is
followed, and there is no result. -/
def createTopic (s : CedMiddleware) (participant : ℕ) (topicName : String) :
    CedMiddleware × Option ℕ :=
  match s.findTopic participant topicName, s.participantObjects[participant]? with
  | some topic, _ => (s, some topic)
  | none, none => (s, none)
  | none, some p =>
    let r := s.manager.registerTopic topicName p.domainId
    match r.2.2 with
    | none => ({ s with manager := r.1 }, none)
    | some globalTopic =>
      let topic := s.topicObjects.length
      let made : CedMiddleware :=
        { s with
          manager := r.1
          topicObjects := s.topicObjects ++ [⟨participant, globalTopic⟩] }
      let registered := made.registerTopic participant topic
      if registered.2 then (registered.1, some topic) else (registered.1.dropTopic topic, none)

/-! ## Creating and deleting -/

/-- `create_participant_by_ref`. -/
def createParticipantByRef (s : CedMiddleware) (participantId : ℕ) (domainId : ℤ) :
    CedMiddleware × Bool :=
  match s.participants.lookup participantId with
  | some _ => (s, false)
  | none =>
    ({ s with
       participants := s.participants.insert participantId s.participantObjects.length
       participantObjects := s.participantObjects ++ [⟨domainId, ∅⟩] }, true)

/-- `create_topic_by_ref`. -/
def createTopicByRef (s : CedMiddleware) (topicId participantId : ℕ) (ref : String) :
    CedMiddleware × Bool :=
  match s.participants.lookup participantId, s.topics.lookup topicId with
  | some participant, none =>
    match s.createTopic participant (removeSuffixFormTopicRef ref) with
    | (s, some topic) => ({ s with topics := s.topics.insert topicId topic }, true)
    | (s, none) => (s, false)
  | _, _ => (s, false)

/-- `create_publisher_by_xml`. -/
def createPublisherByXml (s : CedMiddleware) (publisherId participantId : ℕ) :
    CedMiddleware × Bool :=
  match s.participants.lookup participantId, s.publishers.lookup publisherId with
  | some participant, none =>
    ({ s with publishers := s.publishers.insert publisherId participant }, true)
  | _, _ => (s, false)

/-- `create_subscriber_by_xml`. -/
def createSubscriberByXml (s : CedMiddleware) (subscriberId participantId : ℕ) :
    CedMiddleware × Bool :=
  match s.participants.lookup participantId, s.subscribers.lookup subscriberId with
  | some participant, none =>
    ({ s with subscribers := s.subscribers.insert subscriberId participant }, true)
  | _, _ => (s, false)

/-- `create_datawriter_by_ref`. -/
def createDatawriterByRef (s : CedMiddleware) (datawriterId publisherId : ℕ) (ref : String) :
    CedMiddleware × Bool :=
  match s.publishers.lookup publisherId, s.datawriters.lookup datawriterId with
  | some participant, none =>
    match s.findTopic participant (removeSuffixFormDatawriterRef ref) with
    | some topic => ({ s with datawriters := s.datawriters.insert datawriterId topic }, true)
    | none => (s, false)
  | _, _ => (s, false)

/-- `create_datareader_by_ref`. -/
def createDatareaderByRef (s : CedMiddleware) (datareaderId subscriberId : ℕ) (ref : String) :
    CedMiddleware × Bool :=
  match s.subscribers.lookup subscriberId, s.datareaders.lookup datareaderId with
  | some participant, none =>
    match s.findTopic participant (removeSuffixFormDatareaderRef ref) with
    | some topic => ({ s with datareaders := s.datareaders.insert datareaderId topic }, true)
    | none => (s, false)
  | _, _ => (s, false)

/-- `delete_participant`. -/
def deleteParticipant (s : CedMiddleware) (participantId : ℕ) : CedMiddleware × Bool :=
  ({ s with participants := s.participants.erase participantId },
    (s.participants.lookup participantId).isSome)

/-- `delete_topic`. -/
def deleteTopic (s : CedMiddleware) (topicId : ℕ) : CedMiddleware × Bool :=
  match s.topics.lookup topicId with
  | none => (s, false)
  | some topic => ({ s with topics := s.topics.erase topicId }.dropTopic topic, true)

/-- `delete_publisher`. -/
def deletePublisher (s : CedMiddleware) (publisherId : ℕ) : CedMiddleware × Bool :=
  ({ s with publishers := s.publishers.erase publisherId },
    (s.publishers.lookup publisherId).isSome)

/-- `delete_subscriber`. -/
def deleteSubscriber (s : CedMiddleware) (subscriberId : ℕ) : CedMiddleware × Bool :=
  ({ s with subscribers := s.subscribers.erase subscriberId },
    (s.subscribers.lookup subscriberId).isSome)

/-- `delete_datawriter`. -/
def deleteDatawriter (s : CedMiddleware) (datawriterId : ℕ) : CedMiddleware × Bool :=
  match s.datawriters.lookup datawriterId with
  | none => (s, false)
  | some topic => ({ s with datawriters := s.datawriters.erase datawriterId }.dropTopic topic, true)

/-- `delete_datareader`. -/
def deleteDatareader (s : CedMiddleware) (datareaderId : ℕ) : CedMiddleware × Bool :=
  match s.datareaders.lookup datareaderId with
  | none => (s, false)
  | some topic => ({ s with datareaders := s.datareaders.erase datareaderId }.dropTopic topic, true)

/-! ## Matching -/

/-- `matched_topic_from_ref`. -/
def matchedTopicFromRef (s : CedMiddleware) (topicId : ℕ) (ref : String) : Bool :=
  match s.topics.lookup topicId with
  | none => false
  | some topic => some (removeSuffixFormTopicRef ref) = s.topicName topic

/-- `matched_datawriter_from_ref`. -/
def matchedDatawriterFromRef (s : CedMiddleware) (datawriterId : ℕ) (ref : String) : Bool :=
  match s.datawriters.lookup datawriterId with
  | none => false
  | some topic => some (removeSuffixFormDatawriterRef ref) = s.topicName topic

/-- `matched_datareader_from_ref`. -/
def matchedDatareaderFromRef (s : CedMiddleware) (datareaderId : ℕ) (ref : String) : Bool :=
  match s.datareaders.lookup datareaderId with
  | none => false
  | some topic => some (removeSuffixFormDatareaderRef ref) = s.topicName topic

/-- `get_global_topic`. -/
def globalTopicOf (s : CedMiddleware) (topic : ℕ) : Option ℕ :=
  (s.topicObjects[topic]?).map CedTopic.globalTopic

end CedMiddleware

end XrceDds
