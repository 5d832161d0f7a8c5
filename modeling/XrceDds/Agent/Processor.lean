import XrceDds.Agent.Session
import XrceDds.Protocol.XrceTypes

/-!
# The processor of the Agent

`process_input_packet` gives a message of a client to its stream, and walks over every message
that the stream then has ready: `process_input_message` hands the submessages to
`process_submessage` one after the other, as long as that returns true.  The message that the
last FRAGMENT of a run completes is walked over by the handler of that FRAGMENT.

The handlers are followed in what they take from the message, in what they return, in what they
let escape and in the FRAGMENTs that they collect.  What else they do to the Agent, what the
deserializers of the types of varying length say, and what the middleware answers, is a
parameter (`Environment`).  `Walks` and `Handles` are what a walk and a handler come to.
-/

namespace XrceDds

open XrceTypes

/-- `dds::xrce::SubmessageId`, as far as `process_submessage` tells them apart. -/
inductive SubmessageKind where
  | createClient | create | getInfo | deleteId | writeData | readData | acknack | heartbeat
  | reset | fragment | timestamp | other
  deriving DecidableEq

/-- The kind of a submessage. -/
def SubmessageKind.ofId (submessageId : UInt8) : SubmessageKind :=
  if submessageId = 0 then .createClient
  else if submessageId = 1 then .create
  else if submessageId = 2 then .getInfo
  else if submessageId = 3 then .deleteId
  else if submessageId = 7 then .writeData
  else if submessageId = 8 then .readData
  else if submessageId = 10 then .acknack
  else if submessageId = 11 then .heartbeat
  else if submessageId = 12 then .reset
  else if submessageId = fragmentId then .fragment
  else if submessageId = 14 then .timestamp
  else .other

/-- FRAGMENT is the one kind with its number. -/
lemma SubmessageKind.ofId_eq_fragment_iff (submessageId : UInt8) :
    ofId submessageId = .fragment ↔ submessageId = fragmentId := by
  constructor
  · intro h
    by_contra hne
    unfold ofId at h
    rw [if_neg hne] at h
    split_ifs at h
  · rintro rfl
    rfl

/-- `dds::xrce::FLAG_REUSE`. -/
def flagReuse : UInt8 := 2

/-- How `deserialize` of a type ends.  Of the exceptions, `InputMessage::deserialize` catches that
there is not enough memory. -/
inductive Deserialized where
  | complete
  | notEnoughMemory
  | threw
  deriving DecidableEq

/-- What the handlers other than that of FRAGMENT call of the session of their client. -/
inductive HandlerCall where
  | reset
  | updateFromHeartbeat (streamId : UInt8) (firstUnacked lastUnacked : SeqNum)
  | fillAcknack (streamId : UInt8)
  | pushOutputSubmessage (streamId submessageId : UInt8) (submessage : List UInt8) (fuel : ℕ)
  | getNextOutputMessage (streamId : UInt8)
  | getOutputMessage (streamId : UInt8) (seqNum : SeqNum)
  | updateFromAcknack (streamId : UInt8) (firstUnacked : SeqNum)

/-- The session after a call. -/
def Session.called (session : Session) : HandlerCall → Session
  | .reset => session.reset
  | .updateFromHeartbeat streamId firstUnacked lastUnacked =>
    session.updateFromHeartbeat streamId firstUnacked lastUnacked
  | .fillAcknack streamId => (session.fillAcknack streamId).1
  | .pushOutputSubmessage streamId submessageId submessage fuel =>
    ((session.pushOutputSubmessage streamId submessageId submessage fuel).map Prod.fst).getD session
  | .getNextOutputMessage streamId => (session.getNextOutputMessage streamId).1
  | .getOutputMessage streamId seqNum => (session.getOutputMessage streamId seqNum).1
  | .updateFromAcknack streamId firstUnacked => session.updateFromAcknack streamId firstUnacked

/-- A client of the Agent: its session, and everything else. -/
structure AgentClient (σ : Type) where
  agent : σ
  session : Session

/-- What the handlers find around them: how many bytes the deserializers of the types of varying
length take, and how they end; what a submessage does to the Agent and calls of the session;
whether a client is created; the kind of the object with an identifier; and whether it accepts
what is written. -/
structure Environment (σ : Type) where
  deserialize : SubmessageKind → InputMessage → ℕ × Deserialized
  perform : AgentClient σ → InputMessage → σ × List HandlerCall
  clientCreated : σ → InputMessage → Bool
  objectKind : σ → List UInt8 → Option UInt8
  written : σ → List UInt8 → List UInt8 → Bool

/-- How a handler ends: an exception escapes from it, or it returns. -/
inductive Handled (σ : Type) where
  | threw
  | returned (state : AgentClient σ) (message : InputMessage) (rv : Bool)

/-- What a walk over a message comes to: the messages as they were handed to
`process_submessage`, and the client afterwards, unless an exception escaped. -/
structure WalkResult (σ : Type) where
  handed : List InputMessage
  client : Option (AgentClient σ)

/-- How the processing of a packet ends. -/
inductive Ending where
  | threw
  | returned
  deriving DecidableEq

/-- The size that `data()` is resized to: the length without the `BaseObjectRequest`, in the width
of `size_t`. -/
def writeDataSize (submessageLength : ℕ) : ℕ :=
  (submessageLength + 18446744073709551616 - 4) % 18446744073709551616

/-- `max_size` of a vector of bytes: for more, `resize` throws. -/
def vectorMaxSize : ℕ := 9223372036854775807

/-- The bytes that `SampleIdentity::deserialize` takes. -/
def sampleIdentityLength : ℕ := 24

variable [FastCdr] {σ : Type} (environment : Environment σ)

namespace Environment

/-! ## Handlers -/

/-- The client after the handler of a submessage other than FRAGMENT. -/
def performed (state : AgentClient σ) (message : InputMessage) : AgentClient σ :=
  let result := environment.perform state message
  ⟨result.1, result.2.foldl Session.called state.session⟩

/-- `get_payload` of a type of varying length. -/
def getPayload (kind : SubmessageKind) (message : InputMessage) : InputMessage × Deserialized :=
  let result := environment.deserialize kind message
  ({ message with position := message.position + result.1 }, result.2)

/-- A handler of a payload that takes `n` bytes. -/
def processFixedPayload (n : ℕ) (state : AgentClient σ) (message : InputMessage) : Handled σ :=
  match message.deserializeArray n with
  | some (_, behind) => .returned (environment.performed state message) behind true
  | none => .returned state message false

/-- `process_create_client_submessage`. -/
def processCreateClientSubmessage (state : AgentClient σ) (message : InputMessage) : Handled σ :=
  if message.header.sessionId = 0 ∨ message.header.sessionId = 128 then
    match environment.getPayload .createClient message with
    | (behind, .complete) => .returned (environment.performed state message) behind
        (environment.clientCreated state.agent message)
    | (behind, .notEnoughMemory) => .returned state behind false
    | (_, .threw) => .threw
  else .returned state message false

/-- The identifier that `ProxyClient::create_object` makes of the prefix and the kind of the
representation. -/
def createdObjectId (bytes : List UInt8) : List UInt8 :=
  [bytes.getD 2 0, bytes.getD 3 0 &&& 240 ||| bytes.getD 4 0]

/-- The object is there, is to be reused, and is a requester or a replier: `matched` of these asks
the representation for its `data_writer`, which throws. -/
def MatchedThrows (agent : σ) (message : InputMessage) : Prop :=
  message.subheader.flags &&& flagReuse ≠ 0 ∧
    message.rest.getD 4 0 ∈ [objkRequester, objkReplier] ∧
    environment.objectKind agent (createdObjectId message.rest) = some (message.rest.getD 4 0)

instance (agent : σ) (message : InputMessage) :
    Decidable (environment.MatchedThrows agent message) := by
  unfold MatchedThrows; infer_instance

/-- `process_create_submessage`: true also for what cannot be read. -/
def processCreateSubmessage (state : AgentClient σ) (message : InputMessage) : Handled σ :=
  match environment.getPayload .create message with
  | (behind, .complete) =>
    if environment.MatchedThrows state.agent message then .threw
    else .returned (environment.performed state message) behind true
  | (behind, .notEnoughMemory) => .returned state behind true
  | (_, .threw) => .threw

/-- `process_delete_submessage`: `DELETE_Payload` takes four bytes. -/
def processDeleteSubmessage (state : AgentClient σ) (message : InputMessage) : Handled σ :=
  environment.processFixedPayload 4 state message

/-- Whether the object that WRITE_DATA is for is there and accepts the data: a data writer, a
requester or a replier. -/
def writes (agent : σ) (objectId data : List UInt8) : Prop :=
  objectId.getD 1 0 &&& 15 ∈ [(5 : UInt8), objkRequester, objkReplier] ∧
    environment.objectKind agent objectId = some (objectId.getD 1 0 &&& 15) ∧
    environment.written agent objectId data = true

instance (agent : σ) (objectId data : List UInt8) :
    Decidable (environment.writes agent objectId data) := by
  unfold writes; infer_instance

/-- The identifier is that of a replier, which is there. -/
def IsReplier (agent : σ) (objectId : List UInt8) : Prop :=
  objectId.getD 1 0 &&& 15 = objkReplier ∧
    environment.objectKind agent objectId = some objkReplier

instance (agent : σ) (objectId : List UInt8) :
    Decidable (environment.IsReplier agent objectId) := by
  unfold IsReplier; infer_instance

/-- `FastDDSReplier::write`.  There is no result when the deserializer of the identity throws. -/
def replierWrite (agent : σ) (objectId data : List UInt8) : Option Bool :=
  if data.length < sampleIdentityLength then none
  else some (environment.written agent objectId data)

/-- The object that a WRITE_DATA is for writes the data. -/
def writeObject (agent : σ) (objectId data : List UInt8) : Option Bool :=
  if environment.IsReplier agent objectId then environment.replierWrite agent objectId data
  else some (decide (environment.writes agent objectId data))

/-- `process_write_data_submessage`. -/
def processWriteDataSubmessage (state : AgentClient σ) (message : InputMessage) : Handled σ :=
  let size := writeDataSize message.subheader.submessageLength
  if message.subheader.flags &&& 14 = 0 then
    if size > vectorMaxSize then .threw
    else
      match message.deserializeArray (4 + size) with
      | some (payload, behind) =>
        match environment.writeObject state.agent ((payload.drop 2).take 2) (payload.drop 4) with
        | some written => .returned (environment.performed state message) behind written
        | none => .threw
      | none => .returned state message false
  else .returned state message false

/-- `process_read_data_submessage`. -/
def processReadDataSubmessage (state : AgentClient σ) (message : InputMessage) : Handled σ :=
  match environment.getPayload .readData message with
  | (behind, .complete) => .returned (environment.performed state message) behind true
  | (behind, .notEnoughMemory) => .returned state behind false
  | (_, .threw) => .threw

/-- `process_acknack_submessage`: `ACKNACK_Payload` takes five bytes. -/
def processAcknackSubmessage (state : AgentClient σ) (message : InputMessage) : Handled σ :=
  environment.processFixedPayload 5 state message

/-- `process_heartbeat_submessage`: `HEARTBEAT_Payload` takes five bytes. -/
def processHeartbeatSubmessage (state : AgentClient σ) (message : InputMessage) : Handled σ :=
  environment.processFixedPayload 5 state message

/-- `process_reset_submessage`. -/
def processResetSubmessage (state : AgentClient σ) (message : InputMessage) : Handled σ :=
  .returned (environment.performed state message) message true

/-- What `process_fragment_submessage` makes of a FRAGMENT: the client without the message that was
completed, the message that the FRAGMENT is in, and the one that was completed. -/
def pushFragment (state : AgentClient σ) (message : InputMessage) :
    AgentClient σ × InputMessage × Option InputMessage :=
  let pushed := state.session.pushInputFragment message.header.streamId message
  let popped := pushed.1.popInputFragmentMessage message.header.streamId
  (⟨state.agent, popped.1⟩, pushed.2, popped.2)

/-- `process_fragment_submessage`: the message that was completed is walked over, and what the walk
comes to is not looked at. -/
def processFragmentSubmessage (walk : AgentClient σ → InputMessage → Option (WalkResult σ))
    (state : AgentClient σ) (message : InputMessage) : Option (Handled σ) :=
  match pushFragment state message with
  | (state, behind, none) => some (.returned state behind true)
  | (state, behind, some completed) =>
    (walk state completed).map fun result =>
      match result.client with
      | some state => .returned state behind true
      | none => .threw

/-- `process_timestamp_submessage`: `TIMESTAMP_Payload` takes eight bytes. -/
def processTimestampSubmessage (state : AgentClient σ) (message : InputMessage) : Handled σ :=
  environment.processFixedPayload 8 state message

/-- `process_submessage`. -/
def processSubmessage (walk : AgentClient σ → InputMessage → Option (WalkResult σ))
    (state : AgentClient σ) (message : InputMessage) : Option (Handled σ) :=
  match SubmessageKind.ofId message.subheader.submessageId with
  | .createClient => some (environment.processCreateClientSubmessage state message)
  | .create => some (environment.processCreateSubmessage state message)
  | .getInfo => some (.returned state message false)
  | .deleteId => some (environment.processDeleteSubmessage state message)
  | .writeData => some (environment.processWriteDataSubmessage state message)
  | .readData => some (environment.processReadDataSubmessage state message)
  | .acknack => some (environment.processAcknackSubmessage state message)
  | .heartbeat => some (environment.processHeartbeatSubmessage state message)
  | .reset => some (environment.processResetSubmessage state message)
  | .fragment => processFragmentSubmessage walk state message
  | .timestamp => some (environment.processTimestampSubmessage state message)
  | .other => some (.returned state message false)

/-! ## Walks -/

/-- The walk behind a submessage, once that is handled. -/
def walkOn (walk : AgentClient σ → InputMessage → Option (WalkResult σ)) (message : InputMessage) :
    Handled σ → Option (WalkResult σ)
  | .threw => some ⟨[message], none⟩
  | .returned state behind true =>
    (walk state behind).map fun result => ⟨message :: result.handed, result.client⟩
  | .returned state _ false => some ⟨[message], some state⟩

/-- `process_input_message`.  There is no result when the fuel does not suffice. -/
def processInputMessage : ℕ → AgentClient σ → InputMessage → Option (WalkResult σ)
  | 0, _, _ => none
  | fuel + 1, state, message =>
    match message.prepareNextSubmessage with
    | (_, false) => some ⟨[], some state⟩
    | (message, true) =>
      (environment.processSubmessage (processInputMessage fuel) state message).bind
        (walkOn (processInputMessage fuel) message)

/-- The loop of `process_input_packet` over the messages that a stream has ready. -/
def processReady : ℕ → AgentClient σ → UInt8 → Option Ending
  | 0, _, _ => none
  | fuel + 1, state, streamId =>
    match state.session.popInputMessage streamId with
    | (_, none) => some .returned
    | (session, some message) =>
      (environment.processInputMessage fuel ⟨state.agent, session⟩ message).bind fun result =>
        match result.client with
        | some state => processReady fuel state streamId
        | none => some .threw

/-- `process_input_packet`, for the client with the key of the packet.  Behind the loop, and where
there is no client, only types of fixed length are read and written. -/
def processInputPacket (fuel : ℕ) (client : Option (AgentClient σ)) (message : InputMessage) :
    Option Ending :=
  if message.header.sessionId = 0 ∨ message.header.sessionId = 128 then
    match message.prepareNextSubmessage with
    | (_, false) => some .returned
    | (message, true) =>
      if SubmessageKind.ofId message.subheader.submessageId = .createClient ∧
          (environment.getPayload .createClient message).2 = .threw then some .threw
      else some .returned
  else
    match client with
    | none => some .returned
    | some state =>
      environment.processReady fuel ⟨state.agent, (state.session.pushInputMessage message
        message.header.streamId message.header.sequenceNr).1⟩ message.header.streamId

end Environment

end XrceDds
