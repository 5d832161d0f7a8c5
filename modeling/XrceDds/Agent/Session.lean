import XrceDds.Agent.InputStream

/-!
# Sessions of the Agent

A `Session` has one stream of each direction without an identifier, and maps from stream
identifiers to best-effort and reliable streams.  `operator []` of a map inserts a new stream
where there is none; `streamAt` is what it finds.
-/

namespace XrceDds

/-- `is_none_stream`. -/
def IsNoneStream (streamId : UInt8) : Prop := streamId = 0

/-- `is_besteffort_stream`. -/
def IsBestEffortStream (streamId : UInt8) : Prop := 128 > streamId ∧ streamId ≠ 0

/-- `is_reliable_stream`. -/
def IsReliableStream (streamId : UInt8) : Prop := 128 ≤ streamId

instance (streamId : UInt8) : Decidable (IsNoneStream streamId) := by
  unfold IsNoneStream; infer_instance

instance (streamId : UInt8) : Decidable (IsBestEffortStream streamId) := by
  unfold IsBestEffortStream; infer_instance

instance (streamId : UInt8) : Decidable (IsReliableStream streamId) := by
  unfold IsReliableStream; infer_instance

/-- A stream is of the first kind, of the second, or of the third. -/
lemma isReliableStream_iff (streamId : UInt8) :
    IsReliableStream streamId ↔ ¬ IsNoneStream streamId ∧ ¬ IsBestEffortStream streamId := by
  unfold IsReliableStream IsNoneStream IsBestEffortStream
  constructor
  · intro h
    refine ⟨?_, fun hbest => UInt8.not_le.mpr hbest.1 h⟩
    rintro rfl
    exact absurd h (by decide)
  · rintro ⟨hnone, hbest⟩
    by_contra hlt
    exact hbest ⟨UInt8.not_le.mp hlt, hnone⟩

/-- `std::unordered_map<StreamId, S>`. -/
abbrev StreamMap (S : Type) := UInt8 → Option S

/-- The stream that `operator []` finds, which is a new one where there is none. -/
def StreamMap.streamAt {S : Type} (map : StreamMap S) (new : S) (streamId : UInt8) : S :=
  (map streamId).getD new

/-- The map after a change of the stream that `operator []` found. -/
def StreamMap.set {S : Type} (map : StreamMap S) (streamId : UInt8) (stream : S) : StreamMap S :=
  Function.update map streamId (some stream)

namespace StreamMap

variable {S : Type} (map : StreamMap S) (new : S)

/-- The stream that was set is found. -/
@[simp] lemma streamAt_set (stream : S) (streamId : UInt8) :
    (map.set streamId stream).streamAt new streamId = stream := by
  simp [set, streamAt]

/-- The other streams are left alone. -/
lemma streamAt_set_of_ne (stream : S) {streamId id : UInt8} (h : id ≠ streamId) :
    (map.set streamId stream).streamAt new id = map.streamAt new id := by
  simp [set, streamAt, Function.update_of_ne h]

/-- The stream of a map whose streams were all replaced. -/
lemma streamAt_map (f : S → S) (streamId : UInt8) (hnew : f new = new) :
    streamAt (fun id => (map id).map f) new streamId = f (map.streamAt new streamId) := by
  unfold streamAt
  dsimp only
  cases map streamId with
  | none => exact hnew.symm
  | some stream => rfl

end StreamMap

/-- `Session`. -/
structure Session where
  sessionInfo : SessionInfo
  noneIstream : NoneInputStream InputMessage
  bestEffortIstreams : StreamMap (BestEffortInputStream InputMessage)
  reliableIstreams : StreamMap (ReliableInputStream InputMessage)
  noneOstream : NoneOutputStream
  bestEffortOstreams : StreamMap BestEffortOutputStream
  reliableOstreams : StreamMap ReliableOutputStream

namespace Session

/-- The constructor of `Session`. -/
def new (sessionInfo : SessionInfo) : Session where
  sessionInfo := sessionInfo
  noneIstream := .reset
  bestEffortIstreams := fun _ => none
  reliableIstreams := fun _ => none
  noneOstream := .reset
  bestEffortOstreams := fun _ => none
  reliableOstreams := fun _ => none

/-- `reset`. -/
def reset (session : Session) : Session :=
  { session with
    bestEffortIstreams := fun streamId =>
      (session.bestEffortIstreams streamId).map fun _ => BestEffortInputStream.reset
    reliableIstreams := fun streamId =>
      (session.reliableIstreams streamId).map ReliableInputStream.reset
    noneOstream := .reset
    bestEffortOstreams := fun streamId =>
      (session.bestEffortOstreams streamId).map fun _ => BestEffortOutputStream.reset
    reliableOstreams := fun streamId =>
      (session.reliableOstreams streamId).map fun _ => ReliableOutputStream.reset }

/-- The best-effort input stream of an identifier. -/
def bestEffortIstream (session : Session) (streamId : UInt8) :
    BestEffortInputStream InputMessage :=
  session.bestEffortIstreams.streamAt .reset streamId

/-- The reliable input stream of an identifier. -/
def reliableIstream (session : Session) (streamId : UInt8) : ReliableInputStream InputMessage :=
  session.reliableIstreams.streamAt .new streamId

/-- The best-effort output stream of an identifier. -/
def bestEffortOstream (session : Session) (streamId : UInt8) : BestEffortOutputStream :=
  session.bestEffortOstreams.streamAt .reset streamId

/-- `get_reliable_output_stream`. -/
def getReliableOutputStream (session : Session) (streamId : UInt8) : ReliableOutputStream :=
  session.reliableOstreams.streamAt .reset streamId

/-! ## Input streams -/

/-- `push_input_message`. -/
def pushInputMessage (session : Session) (message : InputMessage) (streamId : UInt8)
    (sequenceNr : SeqNum) : Session × Bool :=
  if IsNoneStream streamId then
    let result := session.noneIstream.pushMessage message
    ({ session with noneIstream := result.1 }, result.2)
  else if IsBestEffortStream streamId then
    let result := (session.bestEffortIstream streamId).pushMessage sequenceNr message
    ({ session with
      bestEffortIstreams := session.bestEffortIstreams.set streamId result.1 }, result.2)
  else
    let result := (session.reliableIstream streamId).pushMessage sequenceNr message
    ({ session with
      reliableIstreams := session.reliableIstreams.set streamId result.1 }, result.2)

/-- `pop_input_message`. -/
def popInputMessage (session : Session) (streamId : UInt8) : Session × Option InputMessage :=
  if IsNoneStream streamId then
    let result := session.noneIstream.popMessage
    ({ session with noneIstream := result.1 }, result.2)
  else if IsBestEffortStream streamId then
    let result := (session.bestEffortIstream streamId).popMessage
    ({ session with
      bestEffortIstreams := session.bestEffortIstreams.set streamId result.1 }, result.2)
  else
    let result := (session.reliableIstream streamId).popMessage
    ({ session with
      reliableIstreams := session.reliableIstreams.set streamId result.1 }, result.2)

/-- `update_from_heartbeat`. -/
def updateFromHeartbeat (session : Session) (streamId : UInt8)
    (firstUnacked lastUnacked : SeqNum) : Session :=
  if IsReliableStream streamId then
    { session with
      reliableIstreams := session.reliableIstreams.set streamId
        ((session.reliableIstream streamId).updateFromHeartbeat firstUnacked lastUnacked) }
  else session

/-- `fill_acknack`: on the other streams the payload is left alone. -/
def fillAcknack (session : Session) (streamId : UInt8) :
    Session × Option (SeqNum × UInt8 × UInt8) :=
  if IsReliableStream streamId then
    ({ session with
      reliableIstreams :=
        session.reliableIstreams.set streamId (session.reliableIstream streamId) },
      some (session.reliableIstream streamId).fillAcknack)
  else (session, none)

/-- `push_input_fragment`. -/
def pushInputFragment [FastCdr] (session : Session) (streamId : UInt8) (message : InputMessage) :
    Session × InputMessage :=
  if IsReliableStream streamId then
    let result := (session.reliableIstream streamId).pushFragment message
    ({ session with
      reliableIstreams := session.reliableIstreams.set streamId result.1 }, result.2)
  else (session, message)

/-- `pop_input_fragment_message`. -/
def popInputFragmentMessage [FastCdr] (session : Session) (streamId : UInt8) :
    Session × Option InputMessage :=
  let result := (session.reliableIstream streamId).popFragmentMessage
  ({ session with
    reliableIstreams := session.reliableIstreams.set streamId result.1 },
    result.2.map InputMessage.new)

/-! ## Output streams -/

/-- `push_output_submessage`, when its wait is over.  On a reliable stream it need not
return. -/
def pushOutputSubmessage (session : Session) (streamId submessageId : UInt8)
    (submessage : List UInt8) (fuel : ℕ) : Option (Session × Bool) :=
  if IsNoneStream streamId then
    let result := session.noneOstream.pushSubmessage session.sessionInfo submessageId submessage
    some ({ session with noneOstream := result.1 }, result.2)
  else if IsBestEffortStream streamId then
    let result := (session.bestEffortOstream streamId).pushSubmessage session.sessionInfo streamId
      submessageId submessage
    some ({ session with
      bestEffortOstreams := session.bestEffortOstreams.set streamId result.1 }, result.2)
  else
    match (session.getReliableOutputStream streamId).pushSubmessage session.sessionInfo streamId
      submessageId submessage fuel with
    | some (.returned rv stream) =>
      some ({ session with reliableOstreams := session.reliableOstreams.set streamId stream }, rv)
    | some .outOfBounds => none
    | none => none

/-- `get_next_output_message`. -/
def getNextOutputMessage (session : Session) (streamId : UInt8) :
    Session × Option (List UInt8) :=
  if IsNoneStream streamId then
    let result := session.noneOstream.popMessage
    ({ session with noneOstream := result.1 }, result.2)
  else if IsBestEffortStream streamId then
    let result := (session.bestEffortOstream streamId).popMessage
    ({ session with
      bestEffortOstreams := session.bestEffortOstreams.set streamId result.1 }, result.2)
  else
    let result := (session.getReliableOutputStream streamId).getNextMessage
    ({ session with
      reliableOstreams := session.reliableOstreams.set streamId result.1 }, result.2)

/-- `get_output_message`. -/
def getOutputMessage (session : Session) (streamId : UInt8) (seqNum : SeqNum) :
    Session × Option (List UInt8) :=
  if IsReliableStream streamId then
    ({ session with
      reliableOstreams :=
        session.reliableOstreams.set streamId (session.getReliableOutputStream streamId) },
      (session.getReliableOutputStream streamId).getMessage seqNum)
  else (session, none)

/-- `update_from_acknack`. -/
def updateFromAcknack (session : Session) (streamId : UInt8) (firstUnacked : SeqNum) : Session :=
  if IsReliableStream streamId then
    { session with
      reliableOstreams := session.reliableOstreams.set streamId
        ((session.getReliableOutputStream streamId).updateFromAcknack firstUnacked) }
  else session

/-- `fill_heartbeat`, with its result: on the other streams the payload is left alone. -/
def fillHeartbeat (session : Session) (streamId : UInt8) :
    Session × Option ((SeqNum × SeqNum) × Bool) :=
  if IsReliableStream streamId then
    ({ session with
      reliableOstreams :=
        session.reliableOstreams.set streamId (session.getReliableOutputStream streamId) },
      some ((session.getReliableOutputStream streamId).fillHeartbeat,
        (session.getReliableOutputStream streamId).heartbeatNeeded))
  else (session, none)

end Session

end XrceDds
