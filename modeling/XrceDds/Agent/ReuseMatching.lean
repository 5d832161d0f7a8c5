import XrceDds.Agent.ObjectClasses

/-!
# Creating again with REUSE

An object that is created again with the same representation and REUSE should be found to match.
Along every run the entity of an object has what the representation says (`Fits`), and so it
is if and only if the object is no requester or replier, and a topic has a type with the key
that its attributes ask for (`reuse_matches_iff`).
-/

namespace XrceDds

/-! ### Identifiers -/

/-- The kind of an identifier that was made for a kind. -/
lemma ObjectId.withKind_kind (objectId : ObjectId) {kind : ObjectKind}
    (hkind : kind &&& 0x0F = kind) : (objectId.withKind kind).2 &&& 0x0F = kind := by
  have hmask : (0xF0 : UInt8) &&& 0x0F = 0 := by decide
  have hstarts : (objectId.2 &&& 0xF0) &&& 0x0F = 0 := by
    rw [UInt8.and_assoc, hmask, UInt8.and_zero]
  have hdistrib : ((objectId.2 &&& 0xF0) ||| kind) &&& 0x0F =
      ((objectId.2 &&& 0xF0) &&& 0x0F) ||| (kind &&& 0x0F) :=
    UInt8.toNat_inj.mp (by simp only [UInt8.toNat_and, UInt8.toNat_or, Nat.and_or_distrib_right])
  change ((objectId.2 &&& 0xF0) ||| kind) &&& 0x0F = kind
  rw [hdistrib, hstarts, UInt8.zero_or, hkind]

/-- A supported kind fits into four bits. -/
lemma ProxyClient.Supported.and_eq {kind : ObjectKind} (h : ProxyClient.Supported kind) :
    kind &&& 0x0F = kind := by
  simp only [ProxyClient.Supported, List.mem_cons, List.not_mem_nil, or_false] at h
  rcases h with rfl | rfl | rfl | rfl | rfl | rfl | rfl | rfl <;> decide

/-- Identifiers of one kind differ in their raw identifiers. -/
lemma objectidToRaw_injective {a b : ObjectId} (hkind : a.2 &&& 0x0F = b.2 &&& 0x0F)
    (hraw : objectidToRaw a = objectidToRaw b) : a = b := by
  obtain ⟨a₀, a₁⟩ := a
  obtain ⟨b₀, b₁⟩ := b
  have hmask (n : ℕ) : n &&& 15 = n % 16 := Nat.and_two_pow_sub_one_eq_mod n 4
  have hlow := congrArg UInt8.toNat hkind
  simp only [UInt8.toNat_and, UInt8.reduceToNat, hmask] at hlow
  simp only [objectidToRaw, Nat.shiftLeft_eq, Nat.shiftRight_eq_div_pow] at hraw
  have ha₀ := a₀.toNat_lt
  have ha₁ := a₁.toNat_lt
  have hb₀ := b₀.toNat_lt
  have hb₁ := b₁.toNat_lt
  have h₀ : a₀ = b₀ := UInt8.toNat_inj.mp (by omega)
  have h₁ : a₁ = b₁ := UInt8.toNat_inj.mp (by omega)
  rw [h₀, h₁]

/-! ### Maps of entities -/

namespace EntityMap

variable {Entity : Type} {entities : EntityMap Entity} {id other : ℕ} {entity found : Entity}

/-- An entity that was put into the map is found. -/
lemma lookup_emplace_self (h : (entities.emplace id entity).2 = true) :
    (entities.emplace id entity).1.lookup id = some entity := by
  unfold emplace at h ⊢
  split at h
  · exact AList.lookup_insert entities
  · cases h

/-- What was found is found again. -/
lemma lookup_emplace (h : entities.lookup other = some found) :
    (entities.emplace id entity).1.lookup other = some found := by
  unfold emplace
  split
  · next hnone =>
    have hne : other ≠ id := by
      rintro rfl
      rw [hnone] at h
      cases h
    exact (AList.lookup_insert_ne hne).trans h
  · exact h

end EntityMap

variable {Attributes Qos : Type} (dds : FastDDS Attributes Qos)

namespace FastDDS

/-- The attributes of a representation. -/
def participantAttributes : Representation → Option Attributes
  | .byReference ref => dds.fillParticipantAttributes ref
  | .asXmlString xml => dds.parseParticipant xml
  | .inBinary _ => none

/-- The attributes of a representation. -/
def topicAttributes : Representation → Option TopicAttributes
  | .byReference ref => dds.fillTopicAttributes ref
  | .asXmlString xml => dds.parseTopic xml
  | .inBinary _ => none

/-- The attributes of a representation. -/
def publisherAttributes : Representation → Option Attributes
  | .byReference ref => dds.fillPublisherAttributes ref
  | .asXmlString xml => dds.parsePublisher xml
  | .inBinary _ => none

/-- The attributes of a representation. -/
def subscriberAttributes : Representation → Option Attributes
  | .byReference ref => dds.fillSubscriberAttributes ref
  | .asXmlString xml => dds.parseSubscriber xml
  | .inBinary _ => none

/-- A participant that is created with a profile has the QoS that is set from the attributes of the
profile. -/
def ProfileFaithful : Prop :=
  ∀ ref qos, dds.profileQos ref = some qos →
    ∃ attributes, dds.fillParticipantAttributes ref = some attributes ∧
      dds.participantQos attributes = qos

/-- The entity of an object has what the representation says. -/
structure Fits (middleware : FastDDSMiddleware Qos) (object : XRCEObject) : Prop where
  participant : object.built.d = .participant → ∃ entity attributes,
    middleware.participants.lookup (objectidToRaw object.id) = some entity ∧
      dds.participantAttributes object.built.member.representation = some attributes ∧
      entity.domainId = object.built.member.domainId ∧ entity.qos = dds.participantQos attributes
  topic : object.built.d = .topic → ∃ entity attributes,
    middleware.topics.lookup (objectidToRaw object.id) = some entity ∧
      dds.topicAttributes object.built.member.representation = some attributes ∧
      entity.name = attributes.topicName ∧ entity.typeName = attributes.topicDataType
  datawriter : object.built.d = .dataWriter → ∃ entity attributes,
    middleware.datawriters.lookup (objectidToRaw object.id) = some entity ∧
      dds.publisherAttributes object.built.member.representation = some attributes ∧
      entity.qos = dds.dataWriterQos attributes
  datareader : object.built.d = .dataReader → ∃ entity attributes,
    middleware.datareaders.lookup (objectidToRaw object.id) = some entity ∧
      dds.subscriberAttributes object.built.member.representation = some attributes ∧
      entity.qos = dds.dataReaderQos attributes

end FastDDS

namespace FastDDSMiddleware

/-- Entities of the four kinds that are compared are not lost. -/
structure Grows (middleware middleware' : FastDDSMiddleware Qos) : Prop where
  participants : ∀ id entity, middleware.participants.lookup id = some entity →
    middleware'.participants.lookup id = some entity
  topics : ∀ id entity, middleware.topics.lookup id = some entity →
    middleware'.topics.lookup id = some entity
  datawriters : ∀ id entity, middleware.datawriters.lookup id = some entity →
    middleware'.datawriters.lookup id = some entity
  datareaders : ∀ id entity, middleware.datareaders.lookup id = some entity →
    middleware'.datareaders.lookup id = some entity

namespace Grows

variable {dds} {accepted : Bool} {middleware : FastDDSMiddleware Qos} {id parentId : ℕ}

lemma refl : middleware.Grows middleware := ⟨fun _ _ h => h, fun _ _ h => h, fun _ _ h => h,
  fun _ _ h => h⟩

lemma emplaceParticipant {domainId : ℤ} {qos : Qos} :
    middleware.Grows (middleware.emplaceParticipant id domainId qos).1 :=
  { refl with participants := fun _ _ h => EntityMap.lookup_emplace h }

lemma createTopic {attributes : Option TopicAttributes} :
    middleware.Grows (middleware.createTopic accepted id parentId attributes).1 := by
  unfold FastDDSMiddleware.createTopic
  split
  · split
    · exact { refl with topics := fun _ _ h => EntityMap.lookup_emplace h }
    · exact refl
  · exact refl

lemma createDatawriter {attributes : Option Attributes} :
    middleware.Grows (middleware.createDatawriter dds accepted id parentId attributes).1 := by
  unfold FastDDSMiddleware.createDatawriter
  split
  · exact { refl with datawriters := fun _ _ h => EntityMap.lookup_emplace h }
  · exact refl

lemma createDatareader {attributes : Option Attributes} :
    middleware.Grows (middleware.createDatareader dds accepted id parentId attributes).1 := by
  unfold FastDDSMiddleware.createDatareader
  split
  · exact { refl with datareaders := fun _ _ h => EntityMap.lookup_emplace h }
  · exact refl

lemma createRequester {attributes : Option (Attributes × Attributes)} :
    middleware.Grows (middleware.createRequester dds accepted id parentId attributes).1 := by
  unfold FastDDSMiddleware.createRequester
  split
  · split <;> exact ⟨fun _ _ h => h, fun _ _ h => h, fun _ _ h => h, fun _ _ h => h⟩
  · exact refl

lemma createReplier {attributes : Option (Attributes × Attributes)} :
    middleware.Grows (middleware.createReplier dds accepted id parentId attributes).1 := by
  unfold FastDDSMiddleware.createReplier
  split
  · split <;> exact ⟨fun _ _ h => h, fun _ _ h => h, fun _ _ h => h, fun _ _ h => h⟩
  · exact refl

end Grows

end FastDDSMiddleware

namespace FastDDS

open FastDDSMiddleware

variable {dds} {accepted : Bool} {middleware middleware' : FastDDSMiddleware Qos}
  {object : XRCEObject} {objectId : ObjectId} {parentId : ℕ} {variant : ObjectVariant}

/-- Creating an object loses no entity. -/
lemma createObject_grows :
    middleware.Grows (dds.createObject accepted middleware objectId parentId variant).1 := by
  unfold createObject
  split
  · unfold participantCreate
    split
    · unfold createParticipantByRef
      split
      · exact .emplaceParticipant
      · exact .refl
    · unfold createParticipantByXml
      split
      · exact .emplaceParticipant
      · exact .refl
    · exact .refl
  split
  · unfold topicCreate
    split
    · exact .createTopic
    · exact .createTopic
    · exact .refl
  split
  · unfold publisherCreate createPublisherByXml
    split
    · split <;> exact ⟨fun _ _ h => h, fun _ _ h => h, fun _ _ h => h, fun _ _ h => h⟩
    all_goals exact .refl
  split
  · unfold subscriberCreate createSubscriberByXml
    split
    · split <;> exact ⟨fun _ _ h => h, fun _ _ h => h, fun _ _ h => h, fun _ _ h => h⟩
    all_goals exact .refl
  split
  · unfold datawriterCreate
    split
    · exact .createDatawriter
    · exact .createDatawriter
    · exact .refl
  split
  · unfold datareaderCreate
    split
    · exact .createDatareader
    · exact .createDatareader
    · exact .refl
  split
  · unfold requesterCreate
    split
    · exact .createRequester
    · exact .createRequester
    · exact .refl
  split
  · unfold replierCreate
    split
    · exact .createReplier
    · exact .createReplier
    · exact .refl
  · exact .refl

/-- An entity that is not lost still fits. -/
lemma Fits.grows (h : dds.Fits middleware object) (hgrows : middleware.Grows middleware') :
    dds.Fits middleware' object where
  participant := fun hkind => by
    obtain ⟨entity, attributes, hentity, hrest⟩ := h.participant hkind
    exact ⟨entity, attributes, hgrows.participants _ _ hentity, hrest⟩
  topic := fun hkind => by
    obtain ⟨entity, attributes, hentity, hrest⟩ := h.topic hkind
    exact ⟨entity, attributes, hgrows.topics _ _ hentity, hrest⟩
  datawriter := fun hkind => by
    obtain ⟨entity, attributes, hentity, hrest⟩ := h.datawriter hkind
    exact ⟨entity, attributes, hgrows.datawriters _ _ hentity, hrest⟩
  datareader := fun hkind => by
    obtain ⟨entity, attributes, hentity, hrest⟩ := h.datareader hkind
    exact ⟨entity, attributes, hgrows.datareaders _ _ hentity, hrest⟩

/-- A participant that was created. -/
lemma participantCreate_fits (hprofile : dds.ProfileFaithful) {member : ObjectMember}
    (h : (participantCreate dds accepted middleware objectId member).2 = true) :
    ∃ entity attributes,
      (participantCreate dds accepted middleware objectId member).1.participants.lookup
          (objectidToRaw objectId) = some entity ∧
        dds.participantAttributes member.representation = some attributes ∧
        entity.domainId = member.domainId ∧ entity.qos = dds.participantQos attributes := by
  obtain ⟨_, domainId, representation⟩ := member
  cases representation with
  | byReference ref =>
    simp only [participantCreate, createParticipantByRef] at h ⊢
    split at h
    · next qos hqos =>
      obtain ⟨attributes, hattributes, rfl⟩ := hprofile ref qos hqos
      exact ⟨_, attributes, EntityMap.lookup_emplace_self h, hattributes, rfl, rfl⟩
    · cases h
  | asXmlString xml =>
    simp only [participantCreate, createParticipantByXml] at h ⊢
    split at h
    · next attributes hattributes =>
      exact ⟨_, attributes, EntityMap.lookup_emplace_self h, hattributes, rfl, rfl⟩
    · cases h
  | inBinary _ => cases h

/-- A topic that `create_topic` returns has the names that it was asked for. -/
lemma topic_create_names {live : List FastDDSTopic} {participant : ℕ}
    {attributes : TopicAttributes} {topic : FastDDSTopic}
    (h : FastDDSTopic.create accepted live participant attributes = some topic) :
    topic.name = attributes.topicName ∧ topic.typeName = attributes.topicDataType := by
  unfold FastDDSTopic.create at h
  split at h
  · next found hfound =>
    have hname := List.find?_some hfound
    split at h
    · cases h
    · next htype =>
      cases h
      exact ⟨(of_decide_eq_true hname).2, (not_not.mp htype).symm⟩
  · split at h
    · cases h
      exact ⟨rfl, rfl⟩
    · cases h

/-- A topic that was created. -/
lemma createTopic_fits {id : ℕ} {attributes : Option TopicAttributes}
    (h : (middleware.createTopic accepted id parentId attributes).2 = true) :
    ∃ entity found, (middleware.createTopic accepted id parentId attributes).1.topics.lookup id =
        some entity ∧ attributes = some found ∧ entity.name = found.topicName ∧
      entity.typeName = found.topicDataType := by
  unfold createTopic at h ⊢
  split at h
  · next found participant hparticipant =>
    dsimp only
    split at h
    · next topic htopic =>
      dsimp only
      exact ⟨topic, found, EntityMap.lookup_emplace_self h, rfl, topic_create_names htopic⟩
    · cases h
  · cases h

/-- A data writer or reader that was created has the QoS that was set. -/
lemma createEndpoint_qos {participant : Option ℕ} {attributes : Option Attributes}
    {qos : Attributes → Qos} {entity : FastDDSEndpoint Qos}
    (h : createEndpoint dds accepted middleware participant attributes qos = some entity) :
    ∃ found, attributes = some found ∧ entity.qos = qos found := by
  unfold createEndpoint at h
  split at h
  · next found =>
    split at h
    · split at h
      · cases h
        exact ⟨found, rfl, rfl⟩
      · cases h
    · cases h
  · cases h

lemma createDatawriter_fits {id : ℕ} {attributes : Option Attributes}
    (h : (middleware.createDatawriter dds accepted id parentId attributes).2 = true) :
    ∃ entity found,
      (middleware.createDatawriter dds accepted id parentId attributes).1.datawriters.lookup id =
        some entity ∧ attributes = some found ∧ entity.qos = dds.dataWriterQos found := by
  unfold createDatawriter at h ⊢
  split at h
  · next entity hentity =>
    dsimp only
    obtain ⟨found, hfound, hqos⟩ := createEndpoint_qos hentity
    exact ⟨entity, found, EntityMap.lookup_emplace_self h, hfound, hqos⟩
  · cases h

lemma createDatareader_fits {id : ℕ} {attributes : Option Attributes}
    (h : (middleware.createDatareader dds accepted id parentId attributes).2 = true) :
    ∃ entity found,
      (middleware.createDatareader dds accepted id parentId attributes).1.datareaders.lookup id =
        some entity ∧ attributes = some found ∧ entity.qos = dds.dataReaderQos found := by
  unfold createDatareader at h ⊢
  split at h
  · next entity hentity =>
    dsimp only
    obtain ⟨found, hfound, hqos⟩ := createEndpoint_qos hentity
    exact ⟨entity, found, EntityMap.lookup_emplace_self h, hfound, hqos⟩
  · cases h

/-- The entity of an object that was created fits. -/
lemma createObject_fits (hprofile : dds.ProfileFaithful) {number : ℕ}
    (h : (dds.createObject accepted middleware objectId parentId variant).2 = true) :
    dds.Fits (dds.createObject accepted middleware objectId parentId variant).1
      ⟨objectId, variant, number⟩ := by
  obtain ⟨d, parent, domainId, representation⟩ := variant
  refine ⟨?_, ?_, ?_, ?_⟩
  · rintro rfl
    exact participantCreate_fits hprofile h
  · rintro rfl
    cases representation with
    | byReference ref => exact createTopic_fits h
    | asXmlString xml => exact createTopic_fits h
    | inBinary _ => cases h
  · rintro rfl
    cases representation with
    | byReference ref => exact createDatawriter_fits h
    | asXmlString xml => exact createDatawriter_fits h
    | inBinary _ => cases h
  · rintro rfl
    cases representation with
    | byReference ref => exact createDatareader_fits h
    | asXmlString xml => exact createDatareader_fits h
    | inBinary _ => cases h

/-- The deletion of an object of another kind, or with another raw identifier, leaves an entity. -/
lemma lookup_delete {Entity : Type} {entities : EntityMap Entity} {entity : Entity} {id other : ℕ}
    {kind deleted : ObjectKind} (h : entities.lookup id = some entity)
    (hne : kind = deleted → id ≠ other) :
    (if deleted = kind then entities.erase other else entities).lookup id = some entity := by
  split
  · next heq => exact (AList.lookup_erase_ne (hne heq.symm)).trans h
  · exact h

lemma deleteObject_participants (middleware : FastDDSMiddleware Qos) (object : XRCEObject) :
    (deleteObject middleware object).participants =
      if object.built.d = .participant then middleware.participants.erase (objectidToRaw object.id)
      else middleware.participants := by
  unfold deleteObject
  dsimp only
  split
  · rfl
  · repeat (first | rfl | split)

lemma deleteObject_topics (middleware : FastDDSMiddleware Qos) (object : XRCEObject) :
    (deleteObject middleware object).topics =
      if object.built.d = .topic then middleware.topics.erase (objectidToRaw object.id)
      else middleware.topics := by
  unfold deleteObject
  by_cases hkind : object.built.d = .topic
  · rw [hkind]
    rfl
  · simp only [if_neg hkind]
    repeat (first | rfl | split)

lemma deleteObject_datawriters (middleware : FastDDSMiddleware Qos) (object : XRCEObject) :
    (deleteObject middleware object).datawriters =
      if object.built.d = .dataWriter then middleware.datawriters.erase (objectidToRaw object.id)
      else middleware.datawriters := by
  unfold deleteObject
  by_cases hkind : object.built.d = .dataWriter
  · rw [hkind]
    rfl
  · simp only [if_neg hkind]
    repeat (first | rfl | split)

lemma deleteObject_datareaders (middleware : FastDDSMiddleware Qos) (object : XRCEObject) :
    (deleteObject middleware object).datareaders =
      if object.built.d = .dataReader then middleware.datareaders.erase (objectidToRaw object.id)
      else middleware.datareaders := by
  unfold deleteObject
  by_cases hkind : object.built.d = .dataReader
  · rw [hkind]
    rfl
  · simp only [if_neg hkind]
    repeat (first | rfl | split)

/-- The deletion of another object of the kind deletes another entity. -/
lemma Fits.delete (h : dds.Fits middleware object) {other : XRCEObject}
    (hne : object.built.d = other.built.d → objectidToRaw object.id ≠ objectidToRaw other.id) :
    dds.Fits (deleteObject middleware other) object := by
  refine ⟨fun hkind => ?_, fun hkind => ?_, fun hkind => ?_, fun hkind => ?_⟩
  · obtain ⟨entity, attributes, hentity, hrest⟩ := h.participant hkind
    refine ⟨entity, attributes, ?_, hrest⟩
    rw [deleteObject_participants]
    exact lookup_delete hentity fun heq => hne (hkind.trans heq)
  · obtain ⟨entity, attributes, hentity, hrest⟩ := h.topic hkind
    refine ⟨entity, attributes, ?_, hrest⟩
    rw [deleteObject_topics]
    exact lookup_delete hentity fun heq => hne (hkind.trans heq)
  · obtain ⟨entity, attributes, hentity, hrest⟩ := h.datawriter hkind
    refine ⟨entity, attributes, ?_, hrest⟩
    rw [deleteObject_datawriters]
    exact lookup_delete hentity fun heq => hne (hkind.trans heq)
  · obtain ⟨entity, attributes, hentity, hrest⟩ := h.datareader hkind
    refine ⟨entity, attributes, ?_, hrest⟩
    rw [deleteObject_datareaders]
    exact lookup_delete hentity fun heq => hne (hkind.trans heq)

/-! ### Along a run -/

/-- The objects of a client have their identifiers and kinds, and their entities fit. -/
structure Consistent (client : ProxyClient (FastDDSMiddleware Qos)) : Prop where
  id : ∀ objectId object, client.objects objectId = some object → object.id = objectId
  supported : ∀ objectId object, client.objects objectId = some object →
    ProxyClient.Supported object.built.d
  kind : ∀ objectId object, client.objects objectId = some object →
    objectId.2 &&& 0x0F = object.built.d
  fits : ∀ objectId object, client.objects objectId = some object →
    dds.Fits client.middleware object

namespace Consistent

variable [DecidableEq Qos] {client after : ProxyClient (FastDDSMiddleware Qos)}
  {status : ObjectStatus}

/-- What building an object does. -/
lemma build (hprofile : dds.ProfileFaithful) (h : dds.Consistent client)
    (hfree : client.objects objectId = none) (hsupported : ProxyClient.Supported variant.d)
    (hkind : objectId.2 &&& 0x0F = variant.d) (result : ObjectStatus) :
    dds.Consistent (client.build (dds.objectFactory accepted) objectId parentId variant
      result).1 := by
  have hgrows : client.middleware.Grows
      (dds.createObject accepted client.middleware objectId parentId variant).1 :=
    createObject_grows
  cases hcreated : (dds.createObject accepted client.middleware objectId parentId variant).2 with
  | false =>
    have hbuild : (client.build (dds.objectFactory accepted) objectId parentId variant result).1 =
        { client with
          middleware := (dds.createObject accepted client.middleware objectId parentId variant).1
            } := by
      simp only [ProxyClient.build, objectFactory, hcreated, Bool.false_eq_true, if_false]
    rw [hbuild]
    exact { h with fits := fun id object hobject => (h.fits id object hobject).grows hgrows }
  | true =>
    have hbuild : (client.build (dds.objectFactory accepted) objectId parentId variant result).1 =
        ⟨Function.update client.objects objectId (some ⟨objectId, variant, client.count⟩),
          (dds.createObject accepted client.middleware objectId parentId variant).1,
          client.count + 1⟩ := by
      simp only [ProxyClient.build, objectFactory, hcreated, if_true, hfree]
    rw [hbuild]
    have hcases {id : ObjectId} {object : XRCEObject}
        (hobject : Function.update client.objects objectId
          (some ⟨objectId, variant, client.count⟩) id = some object) :
        (id = objectId ∧ object = ⟨objectId, variant, client.count⟩) ∨
          client.objects id = some object := by
      by_cases heq : id = objectId
      · rw [heq, Function.update_self] at hobject
        cases hobject
        exact .inl ⟨heq, rfl⟩
      · rw [Function.update_of_ne heq] at hobject
        exact .inr hobject
    refine ⟨fun id object hobject => ?_, fun id object hobject => ?_, fun id object hobject => ?_,
      fun id object hobject => ?_⟩
    · rcases hcases hobject with ⟨rfl, rfl⟩ | hold
      · rfl
      · exact h.id id object hold
    · rcases hcases hobject with ⟨rfl, rfl⟩ | hold
      · exact hsupported
      · exact h.supported id object hold
    · rcases hcases hobject with ⟨rfl, rfl⟩ | hold
      · exact hkind
      · exact h.kind id object hold
    · rcases hcases hobject with ⟨rfl, rfl⟩ | hold
      · exact createObject_fits hprofile hcreated
      · exact (h.fits id object hold).grows hgrows

/-- What the dispatch does. -/
lemma createObjectOfKind (hprofile : dds.ProfileFaithful) (h : dds.Consistent client)
    {objectPrefix : ObjectId} (hfree : client.objects (objectPrefix.withKind variant.d) = none)
    (hdispatch : client.createObjectOfKind (dds.objectFactory accepted)
      (objectPrefix.withKind variant.d) variant .ok = (after, status)) :
    dds.Consistent after := by
  by_cases hsupported : ProxyClient.Supported variant.d
  · rw [ProxyClient.createObjectOfKind_eq _ _ _ hsupported] at hdispatch
    cases hparent : client.parentOf variant with
    | none =>
      rw [hparent] at hdispatch
      cases hdispatch
      exact h
    | some parentId =>
      rw [hparent] at hdispatch
      dsimp only at hdispatch
      have hbuild : dds.Consistent (client.build (dds.objectFactory accepted)
          (objectPrefix.withKind variant.d) parentId variant .ok).1 :=
        h.build hprofile hfree hsupported (objectPrefix.withKind_kind hsupported.and_eq) .ok
      rwa [hdispatch] at hbuild
  · rw [ProxyClient.createObjectOfKind_of_not_supported _ _ _ hsupported] at hdispatch
    cases hdispatch
    exact h

/-- What the deletion of an object does. -/
lemma without (h : dds.Consistent client) :
    dds.Consistent (client.without (dds.objectFactory accepted) objectId) := by
  cases hobject : client.objects objectId with
  | none =>
    have hsame : client.without (dds.objectFactory accepted) objectId = client := by
      simp only [ProxyClient.without, ProxyClient.deleteObjectUnlock, hobject]
    rw [hsame]
    exact h
  | some deleted =>
    have hwithout : client.without (dds.objectFactory accepted) objectId =
        { client with
          objects := Function.update client.objects objectId none
          middleware := deleteObject client.middleware deleted } := by
      simp only [ProxyClient.without, ProxyClient.deleteObjectUnlock, hobject, objectFactory]
    rw [hwithout]
    have hother {id : ObjectId} {object : XRCEObject}
        (hfound : Function.update client.objects objectId none id = some object) :
        id ≠ objectId ∧ client.objects id = some object := by
      by_cases heq : id = objectId
      · rw [heq, Function.update_self] at hfound
        cases hfound
      · rw [Function.update_of_ne heq] at hfound
        exact ⟨heq, hfound⟩
    refine ⟨fun id object hfound => h.id id object (hother hfound).2,
      fun id object hfound => h.supported id object (hother hfound).2,
      fun id object hfound => h.kind id object (hother hfound).2, fun id object hfound => ?_⟩
    obtain ⟨hne, hold⟩ := hother hfound
    refine (h.fits id object hold).delete fun hkind hraw => hne ?_
    rw [h.id id object hold, h.id objectId deleted hobject] at hraw
    refine objectidToRaw_injective ?_ hraw
    rw [h.kind id object hold, hkind, h.kind objectId deleted hobject]

end Consistent

/-- Along every run the entities of the objects fit. -/
lemma consistent_of_reached [DecidableEq Qos] (hprofile : dds.ProfileFaithful)
    {client : ProxyClient (FastDDSMiddleware Qos)}
    (h : ProxyClient.Reached {factory | ∃ accepted, factory = dds.objectFactory accepted}
      .new client) :
    dds.Consistent client := by
  induction h with
  | new =>
    exact ⟨fun _ _ h => absurd h (by simp [ProxyClient.new]),
      fun _ _ h => absurd h (by simp [ProxyClient.new]),
      fun _ _ h => absurd h (by simp [ProxyClient.new]),
      fun _ _ h => absurd h (by simp [ProxyClient.new])⟩
  | create _ hfactory hcreate ih =>
    obtain ⟨accepted, rfl⟩ := hfactory
    rcases ProxyClient.createObject_cases hcreate with ⟨hfree, hdispatch⟩ |
      ⟨object, hobject, hcases⟩
    · exact ih.createObjectOfKind hprofile hfree hdispatch
    · rcases hcases with ⟨rfl, -⟩ | ⟨rfl, -⟩ | ⟨-, hdispatch⟩
      · exact ih
      · exact ih
      · exact ih.without.createObjectOfKind hprofile (ProxyClient.without_objects_self hobject)
          hdispatch
  | delete _ hfactory ih =>
    obtain ⟨accepted, rfl⟩ := hfactory
    exact ih.without

/-! ### Matching -/

variable (dds middleware object) in
/-- The object is no requester or replier, and the type of a topic has the key that its attributes
ask for. -/
def Rematches : Prop :=
  object.built.d ≠ .requester ∧ object.built.d ≠ .replier ∧
    (object.built.d = .topic → ∃ topic attributes,
      middleware.topics.lookup (objectidToRaw object.id) = some topic ∧
        dds.topicAttributes object.built.member.representation = some attributes ∧
        topic.isGetKeyDefined = attributes.withKey)

/-- Objects of the other kinds. -/
lemma rematches_of_ne (kind : ObjectKind) (hkind : object.built.d = kind) (htopic : kind ≠ .topic)
    (hrequester : kind ≠ .requester) (hreplier : kind ≠ .replier) :
    dds.Rematches middleware object := by
  subst hkind
  exact ⟨hrequester, hreplier, fun h => absurd h htopic⟩

section Matching

variable [DecidableEq Qos] {id : ObjectId} {member : ObjectMember} {number : ℕ}

lemma participantMatched_of_fits
    (h : dds.Fits middleware ⟨id, ⟨.participant, member⟩, number⟩)
    (hkind : XRCEObject.sameKind ⟨id, ⟨.participant, member⟩, number⟩ ⟨.participant, member⟩) :
    participantMatched dds middleware ⟨id, ⟨.participant, member⟩, number⟩
      ⟨.participant, member⟩ = some true := by
  obtain ⟨entity, attributes, hentity, hattributes, hdomain, hqos⟩ := h.participant rfl
  obtain ⟨parentId, domainId, representation⟩ := member
  have hmatched : middleware.matchedParticipant dds (objectidToRaw id) domainId (some attributes) =
      true := by
    simp only [matchedParticipant, hentity]
    exact decide_eq_true ⟨hdomain.symm, hqos⟩
  unfold participantMatched
  rw [if_pos hkind]
  cases representation with
  | byReference ref =>
    have hfill : dds.fillParticipantAttributes ref = some attributes := hattributes
    change some (middleware.matchedParticipant dds _ _ (dds.fillParticipantAttributes ref)) = _
    rw [hfill, hmatched]
  | asXmlString xml =>
    have hparse : dds.parseParticipant xml = some attributes := hattributes
    change some (middleware.matchedParticipant dds _ _ (dds.parseParticipant xml)) = _
    rw [hparse, hmatched]
  | inBinary _ => cases hattributes

lemma datawriterMatched_of_fits (h : dds.Fits middleware ⟨id, ⟨.dataWriter, member⟩, number⟩)
    (hkind : XRCEObject.sameKind ⟨id, ⟨.dataWriter, member⟩, number⟩ ⟨.dataWriter, member⟩) :
    datawriterMatched dds middleware ⟨id, ⟨.dataWriter, member⟩, number⟩ ⟨.dataWriter, member⟩ =
      some true := by
  obtain ⟨entity, attributes, hentity, hattributes, hqos⟩ := h.datawriter rfl
  obtain ⟨parentId, domainId, representation⟩ := member
  have hmatched : middleware.matchedDatawriter dds (objectidToRaw id) (some attributes) = true := by
    simp only [matchedDatawriter, hentity]
    exact decide_eq_true hqos
  unfold datawriterMatched
  rw [if_pos hkind]
  cases representation with
  | byReference ref =>
    have hfill : dds.fillPublisherAttributes ref = some attributes := hattributes
    change some (middleware.matchedDatawriter dds _ (dds.fillPublisherAttributes ref)) = _
    rw [hfill, hmatched]
  | asXmlString xml =>
    have hparse : dds.parsePublisher xml = some attributes := hattributes
    change some (middleware.matchedDatawriter dds _ (dds.parsePublisher xml)) = _
    rw [hparse, hmatched]
  | inBinary _ => cases hattributes

lemma datareaderMatched_of_fits (h : dds.Fits middleware ⟨id, ⟨.dataReader, member⟩, number⟩)
    (hkind : XRCEObject.sameKind ⟨id, ⟨.dataReader, member⟩, number⟩ ⟨.dataReader, member⟩) :
    datareaderMatched dds middleware ⟨id, ⟨.dataReader, member⟩, number⟩ ⟨.dataReader, member⟩ =
      some true := by
  obtain ⟨entity, attributes, hentity, hattributes, hqos⟩ := h.datareader rfl
  obtain ⟨parentId, domainId, representation⟩ := member
  have hmatched : middleware.matchedDatareader dds (objectidToRaw id) (some attributes) = true := by
    simp only [matchedDatareader, hentity]
    exact decide_eq_true hqos
  unfold datareaderMatched
  rw [if_pos hkind]
  cases representation with
  | byReference ref =>
    have hfill : dds.fillSubscriberAttributes ref = some attributes := hattributes
    change some (middleware.matchedDatareader dds _ (dds.fillSubscriberAttributes ref)) = _
    rw [hfill, hmatched]
  | asXmlString xml =>
    have hparse : dds.parseSubscriber xml = some attributes := hattributes
    change some (middleware.matchedDatareader dds _ (dds.parseSubscriber xml)) = _
    rw [hparse, hmatched]
  | inBinary _ => cases hattributes

omit [DecidableEq Qos] in
/-- A topic matches if and only if its type has the key. -/
lemma topicMatched_of_fits (h : dds.Fits middleware ⟨id, ⟨.topic, member⟩, number⟩)
    (hkind : XRCEObject.sameKind ⟨id, ⟨.topic, member⟩, number⟩ ⟨.topic, member⟩) :
    topicMatched dds middleware ⟨id, ⟨.topic, member⟩, number⟩ ⟨.topic, member⟩ = some true ↔
      ∃ topic attributes, middleware.topics.lookup (objectidToRaw id) = some topic ∧
        dds.topicAttributes member.representation = some attributes ∧
        topic.isGetKeyDefined = attributes.withKey := by
  obtain ⟨topic, attributes, htopic, hattributes, hname, htype⟩ := h.topic rfl
  obtain ⟨parentId, domainId, representation⟩ := member
  dsimp only at htopic hattributes ⊢
  have hmatched : middleware.matchedTopic (objectidToRaw id) (some attributes) =
      decide (topic.isGetKeyDefined = attributes.withKey) := by
    simp only [matchedTopic, htopic, FastDDSTopic.matchAttributes, hname, htype, true_and]
  have hiff : some (middleware.matchedTopic (objectidToRaw id) (some attributes)) = some true ↔
      ∃ topic attributes, middleware.topics.lookup (objectidToRaw id) = some topic ∧
        dds.topicAttributes representation = some attributes ∧
        topic.isGetKeyDefined = attributes.withKey := by
    rw [hmatched, Option.some.injEq, decide_eq_true_eq]
    constructor
    · exact fun hkey => ⟨topic, attributes, htopic, hattributes, hkey⟩
    · rintro ⟨other, found, hother, hfound, hkey⟩
      rw [htopic] at hother
      rw [hattributes] at hfound
      cases hother
      cases hfound
      exact hkey
  unfold topicMatched
  rw [if_pos hkind]
  cases representation with
  | byReference ref =>
    have hfill : dds.fillTopicAttributes ref = some attributes := hattributes
    change some (middleware.matchedTopic _ (dds.fillTopicAttributes ref)) = _ ↔ _
    rw [hfill]
    exact hiff
  | asXmlString xml =>
    have hparse : dds.parseTopic xml = some attributes := hattributes
    change some (middleware.matchedTopic _ (dds.parseTopic xml)) = _ ↔ _
    rw [hparse]
    exact hiff
  | inBinary _ => cases hattributes

/-- An object whose entity fits matches its own representation if and only if it can. -/
lemma matchedObject_of_fits (h : dds.Fits middleware object)
    (hsupported : ProxyClient.Supported object.built.d)
    (hkind : object.id.2 &&& 0x0F = object.built.d) :
    dds.matchedObject middleware object object.built = some true ↔
      dds.Rematches middleware object := by
  obtain ⟨id, ⟨d, member⟩, number⟩ := object
  dsimp only at hsupported hkind
  simp only [ProxyClient.Supported, List.mem_cons, List.not_mem_nil, or_false] at hsupported
  rcases hsupported with rfl | rfl | rfl | rfl | rfl | rfl | rfl | rfl
  · exact ⟨fun _ => rematches_of_ne .participant rfl (by decide) (by decide) (by decide),
      fun _ => participantMatched_of_fits h hkind⟩
  · have hrequester : ObjectKind.topic ≠ .requester := by decide
    have hreplier : ObjectKind.topic ≠ .replier := by decide
    exact (topicMatched_of_fits h hkind).trans
      ⟨fun htopic => ⟨hrequester, hreplier, fun _ => htopic⟩, fun hrematches => hrematches.2.2 rfl⟩
  · exact ⟨fun _ => rematches_of_ne .publisher rfl (by decide) (by decide) (by decide),
      fun _ => rfl⟩
  · exact ⟨fun _ => rematches_of_ne .subscriber rfl (by decide) (by decide) (by decide),
      fun _ => rfl⟩
  · exact ⟨fun _ => rematches_of_ne .dataWriter rfl (by decide) (by decide) (by decide),
      fun _ => datawriterMatched_of_fits h hkind⟩
  · exact ⟨fun _ => rematches_of_ne .dataReader rfl (by decide) (by decide) (by decide),
      fun _ => datareaderMatched_of_fits h hkind⟩
  · -- reading `data_writer` of a requester throws
    refine ⟨fun hmatched => ?_, fun hrematches => absurd rfl hrematches.1⟩
    have hthrown : requesterMatched dds middleware ⟨id, ⟨.requester, member⟩, number⟩
        ⟨.requester, member⟩ = none := by
      have hsame : XRCEObject.sameKind ⟨id, ⟨.requester, member⟩, number⟩ ⟨.requester, member⟩ :=
        hkind
      unfold requesterMatched
      rw [if_pos hsame]
      rfl
    cases hthrown.symm.trans hmatched
  · refine ⟨fun hmatched => ?_, fun hrematches => absurd rfl hrematches.2.1⟩
    have hthrown : replierMatched dds middleware ⟨id, ⟨.replier, member⟩, number⟩
        ⟨.replier, member⟩ = none := by
      have hsame : XRCEObject.sameKind ⟨id, ⟨.replier, member⟩, number⟩ ⟨.replier, member⟩ := hkind
      unfold replierMatched
      rw [if_pos hsame]
      rfl
    cases hthrown.symm.trans hmatched

end Matching

/-- A call with REUSE finds the object to match if and only if the class says so. -/
lemma createObject_okMatched_iff {μ : Type} {factory : ObjectFactory μ} {client : ProxyClient μ}
    {objectPrefix : ObjectId} {found : XRCEObject}
    (hobject : client.objects (objectPrefix.withKind variant.d) = some found)
    (hsupported : ProxyClient.Supported variant.d) (replace : Bool) :
    client.createObject factory ⟨true, replace⟩ objectPrefix variant = some (client, .okMatched) ↔
      factory.matched client.middleware found variant = some true := by
  constructor
  · intro hcall
    rcases ProxyClient.createObject_cases hcall with ⟨hfree, -⟩ | ⟨other, hother, hcases⟩
    · rw [hobject] at hfree
      cases hfree
    · rw [hobject] at hother
      cases hother
      rcases hcases with ⟨-, -, -, hmatched⟩ | ⟨-, hfailed, -⟩ | ⟨-, hdispatch⟩
      · exact hmatched
      · exact absurd (.inr rfl) hfailed
      · rcases ProxyClient.createObjectOfKind_cases (ProxyClient.without_objects_self hobject)
          hdispatch with ⟨-, hstatus, -⟩ | ⟨-, hstatus, -⟩
        · cases hstatus
        · exact absurd hsupported (hstatus.mp (.inr rfl))
  · intro hmatched
    cases replace <;> simp only [ProxyClient.createObject, hobject, hmatched] <;> rfl

/-- Along every run of a client on FastDDS, an object that is created again with the representation
that it was built from and REUSE is found to match, with nothing changed, if and only if it is no
requester or replier, and a topic has a type with the key that its attributes ask for. -/
theorem reuse_matches_iff [DecidableEq Qos] (dds : FastDDS Attributes Qos)
    (hprofile : dds.ProfileFaithful) {client : ProxyClient (FastDDSMiddleware Qos)}
    (hrun : ProxyClient.Reached {factory | ∃ accepted, factory = dds.objectFactory accepted} .new
      client) (objectPrefix : ObjectId) (object : XRCEObject)
    (hobject : client.objects (objectPrefix.withKind object.built.d) = some object)
    (accepted replace : Bool) :
    client.createObject (dds.objectFactory accepted) ⟨true, replace⟩ objectPrefix object.built =
        some (client, .okMatched) ↔
      dds.Rematches client.middleware object := by
  have hconsistent := consistent_of_reached hprofile hrun
  have hsupported := hconsistent.supported _ _ hobject
  have hkind := hconsistent.kind _ _ hobject
  rw [← hconsistent.id _ _ hobject] at hkind
  exact (createObject_okMatched_iff hobject hsupported replace).trans
    (matchedObject_of_fits (hconsistent.fits _ _ hobject) hsupported hkind)

/-- A DDS without QoS, where every profile names the topic of its own name, and an XML string that
topic, with a key. -/
def plainDDS : FastDDS TopicAttributes Unit where
  fillParticipantAttributes := fun ref => some ⟨ref, "type", false⟩
  parseParticipant := fun xml => some ⟨xml, "type", true⟩
  fillTopicAttributes := fun ref => some ⟨ref, "type", false⟩
  parseTopic := fun xml => some ⟨xml, "type", true⟩
  fillPublisherAttributes := fun ref => some ⟨ref, "type", false⟩
  parsePublisher := fun xml => some ⟨xml, "type", true⟩
  fillSubscriberAttributes := fun ref => some ⟨ref, "type", false⟩
  parseSubscriber := fun xml => some ⟨xml, "type", true⟩
  fillRequesterAttributes := fun ref => some (⟨ref, "type", false⟩, ⟨ref ++ "reply", "type", false⟩)
  parseRequester := fun xml => some (⟨xml, "type", true⟩, ⟨xml ++ "reply", "type", true⟩)
  fillReplierAttributes := fun ref => some (⟨ref ++ "reply", "type", false⟩, ⟨ref, "type", false⟩)
  parseReplier := fun xml => some (⟨xml ++ "reply", "type", true⟩, ⟨xml, "type", true⟩)
  topic := id
  participantQos := fun _ => ()
  publisherQos := fun _ => ()
  subscriberQos := fun _ => ()
  dataWriterQos := fun _ => ()
  dataReaderQos := fun _ => ()
  profileQos := fun _ => some ()

lemma plainDDS_profileFaithful : plainDDS.ProfileFaithful :=
  fun ref _ _ => ⟨⟨ref, "type", false⟩, rfl, rfl⟩

/-- An object of the participant `0x001`, named by a reference. -/
def byReference (kind : ObjectKind) (ref : String) : ObjectVariant :=
  ⟨kind, ⟨(0, 0x10), 0, .byReference ref⟩⟩

/-- The client that creates the objects one after the other, with the prefixes that are given. -/
def clientWith (variants : List (ObjectId × ObjectVariant)) :
    ProxyClient (FastDDSMiddleware Unit) :=
  variants.foldl (fun client variant =>
    ((client.createObject (plainDDS.objectFactory true) ⟨false, false⟩ variant.1 variant.2).getD
      (client, .resources)).1) (.new .new)

/-- The clients that create objects are reached. -/
lemma reached_clientWith (variants : List (ObjectId × ObjectVariant)) :
    ProxyClient.Reached {factory | ∃ accepted, factory = plainDDS.objectFactory accepted} .new
      (clientWith variants) := by
  have hrun (client : ProxyClient (FastDDSMiddleware Unit))
      (hclient : ProxyClient.Reached {factory | ∃ accepted,
        factory = plainDDS.objectFactory accepted}
        .new client) :
      ProxyClient.Reached {factory | ∃ accepted, factory = plainDDS.objectFactory accepted} .new
        (variants.foldl (fun client variant =>
          ((client.createObject (plainDDS.objectFactory true) ⟨false, false⟩ variant.1
            variant.2).getD (client, .resources)).1) client) := by
    induction variants generalizing client with
    | nil => exact hclient
    | cons variant variants ih =>
      rw [List.foldl_cons]
      refine ih _ ?_
      cases hcreate : client.createObject (plainDDS.objectFactory true) ⟨false, false⟩ variant.1
        variant.2 with
      | none => exact hclient
      | some result => exact .create hclient ⟨true, rfl⟩ hcreate
  exact hrun _ .new

/-- A client with a participant and a topic. -/
def clientWithTopic : ProxyClient (FastDDSMiddleware Unit) :=
  clientWith [((0, 0x10), byReference .participant "domain"),
    ((0, 0x10), byReference .topic "name")]

/-- The topic of a client matches when it is created again. -/
theorem reuse_matches_iff_topic :
    clientWithTopic.createObject (plainDDS.objectFactory true) ⟨true, false⟩ (0, 0x10)
      (byReference .topic "name") = some (clientWithTopic, .okMatched) :=
  (reuse_matches_iff plainDDS plainDDS_profileFaithful (reached_clientWith _) (0, 0x10)
    ⟨(0, 0x12), byReference .topic "name", 1⟩ rfl true false).mpr
      ⟨by decide, by decide, fun _ => ⟨_, _, rfl, rfl, rfl⟩⟩

/-- A client with a participant and a requester. -/
def clientWithRequester : ProxyClient (FastDDSMiddleware Unit) :=
  clientWith [((0, 0x10), byReference .participant "domain"),
    ((0, 0x10), byReference .requester "service")]

/-- A client with a participant and two topics of the same type, of which only the second one asks
for a key. -/
def clientWithTopics : ProxyClient (FastDDSMiddleware Unit) :=
  clientWith [((0, 0x10), byReference .participant "domain"),
    ((0, 0x10), byReference .topic "name"),
    ((0, 0x20), ⟨.topic, ⟨(0, 0x10), 0, .asXmlString "other"⟩⟩)]

/-- When the requester is created again with REUSE, an exception escapes; and when the second topic
is, there is a mismatch. -/
theorem reuse_throws :
    (ProxyClient.Reached {factory | ∃ accepted, factory = plainDDS.objectFactory accepted} .new
        clientWithRequester ∧
      clientWithRequester.objects (0, 0x17) =
        some ⟨(0, 0x17), byReference .requester "service", 1⟩ ∧
      clientWithRequester.createObject (plainDDS.objectFactory true) ⟨true, false⟩ (0, 0x10)
        (byReference .requester "service") = none) ∧
    ProxyClient.Reached {factory | ∃ accepted, factory = plainDDS.objectFactory accepted} .new
        clientWithTopics ∧
      clientWithTopics.objects (0, 0x22) =
        some ⟨(0, 0x22), ⟨.topic, ⟨(0, 0x10), 0, .asXmlString "other"⟩⟩, 2⟩ ∧
      clientWithTopics.createObject (plainDDS.objectFactory true) ⟨true, false⟩ (0, 0x20)
        ⟨.topic, ⟨(0, 0x10), 0, .asXmlString "other"⟩⟩ = some (clientWithTopics, .mismatch) :=
  ⟨⟨reached_clientWith _, rfl, rfl⟩, reached_clientWith _, rfl, rfl⟩

end FastDDS

end XrceDds
