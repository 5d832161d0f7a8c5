import XrceDds.Agent.Session
import XrceDds.Lib.Transition

/-!
# What a reset leaves behind

After `reset` a session should answer every sequence of calls as a new session does.  It
does if and only if nothing waits in the stream without an identifier, and no reliable stream
has FRAGMENTs that were not taken out (`reset_fresh_iff`): these are the parts that `reset`
forgets.
-/

namespace XrceDds

open StreamMap

namespace Session

/-- A call of one of the stream operations of a session. -/
inductive Call where
  | pushInputMessage (message : InputMessage) (streamId : UInt8) (sequenceNr : SeqNum)
  | popInputMessage (streamId : UInt8)
  | updateFromHeartbeat (streamId : UInt8) (firstUnacked lastUnacked : SeqNum)
  | fillAcknack (streamId : UInt8)
  | pushInputFragment (streamId : UInt8) (message : InputMessage)
  | popInputFragmentMessage (streamId : UInt8)
  | pushOutputSubmessage (streamId submessageId : UInt8) (submessage : List UInt8) (fuel : ℕ)
  | getNextOutputMessage (streamId : UInt8)
  | getOutputMessage (streamId : UInt8) (seqNum : SeqNum)
  | updateFromAcknack (streamId : UInt8) (firstUnacked : SeqNum)
  | fillHeartbeat (streamId : UInt8)

/-- What a call returns or writes through its arguments. -/
inductive Answer where
  | done
  | returned (rv : Bool)
  | stuck
  | input (message : Option InputMessage)
  | fragment (message : InputMessage)
  | acknack (payload : Option (SeqNum × UInt8 × UInt8))
  | output (message : Option (List UInt8))
  | heartbeat (payload : Option ((SeqNum × SeqNum) × Bool))

/-- The session and the answer after a call.  A push that does not return leaves the session
where it is. -/
def act [FastCdr] (session : Session) : Call → Session × Answer
  | .pushInputMessage message streamId sequenceNr =>
    (session.pushInputMessage message streamId sequenceNr).map id .returned
  | .popInputMessage streamId => (session.popInputMessage streamId).map id .input
  | .updateFromHeartbeat streamId firstUnacked lastUnacked =>
    (session.updateFromHeartbeat streamId firstUnacked lastUnacked, .done)
  | .fillAcknack streamId => (session.fillAcknack streamId).map id .acknack
  | .pushInputFragment streamId message =>
    (session.pushInputFragment streamId message).map id .fragment
  | .popInputFragmentMessage streamId =>
    (session.popInputFragmentMessage streamId).map id .input
  | .pushOutputSubmessage streamId submessageId submessage fuel =>
    match session.pushOutputSubmessage streamId submessageId submessage fuel with
    | some (session', rv) => (session', .returned rv)
    | none => (session, .stuck)
  | .getNextOutputMessage streamId => (session.getNextOutputMessage streamId).map id .output
  | .getOutputMessage streamId seqNum => (session.getOutputMessage streamId seqNum).map id .output
  | .updateFromAcknack streamId firstUnacked =>
    (session.updateFromAcknack streamId firstUnacked, .done)
  | .fillHeartbeat streamId => (session.fillHeartbeat streamId).map id .heartbeat

/-- What a sequence of calls is answered. -/
def answers [FastCdr] (session : Session) (calls : List Call) : List Answer :=
  Transition.outputs act session calls

/-- Nothing that `reset` forgets is there: no message waits in the stream without an
identifier, no reassembled message waits to be taken, and no reliable stream is in the middle
of a run of FRAGMENTs. -/
structure NothingForgotten (session : Session) : Prop where
  noneIstream : session.noneIstream.messages = []
  available : ∀ streamId, (session.reliableIstream streamId).fragmentMessageAvailable = false
  fragmentMsg : ∀ streamId, IsReliableStream streamId →
    (session.reliableIstream streamId).fragmentMsg = []

/-! ## Sessions that cannot be told apart -/

/-- The reliable input streams of an identifier cannot be told apart.  Those of identifiers that
are not reliable are asked for reassembled messages only. -/
def SameIstream (streamId : UInt8) (stream stream' : ReliableInputStream InputMessage) : Prop :=
  if IsReliableStream streamId then stream = stream'
  else stream.fragmentMessageAvailable = false ∧ stream'.fragmentMessageAvailable = false

/-- The sessions find the same streams, except that they need not have made the same ones. -/
structure Same (session session' : Session) : Prop where
  sessionInfo : session.sessionInfo = session'.sessionInfo
  noneIstream : session.noneIstream = session'.noneIstream
  bestEffortIstream : ∀ streamId,
    session.bestEffortIstream streamId = session'.bestEffortIstream streamId
  reliableIstream : ∀ streamId,
    SameIstream streamId (session.reliableIstream streamId) (session'.reliableIstream streamId)
  noneOstream : session.noneOstream = session'.noneOstream
  bestEffortOstream : ∀ streamId,
    session.bestEffortOstream streamId = session'.bestEffortOstream streamId
  reliableOstream : ∀ streamId,
    session.getReliableOutputStream streamId = session'.getReliableOutputStream streamId

/-- The call is answered the same, and leaves sessions that cannot be told apart. -/
def SameAct [FastCdr] (session session' : Session) (call : Call) : Prop :=
  (session.act call).2 = (session'.act call).2 ∧
    Same (session.act call).1 (session'.act call).1

/-- Maps in which the same streams are found, and the same stream is set. -/
lemma streamAt_set_congr {S : Type} {R : UInt8 → S → S → Prop} {map map' : StreamMap S}
    {new stream stream' : S} {streamId : UInt8}
    (hmap : ∀ id, R id (map.streamAt new id) (map'.streamAt new id))
    (hstream : R streamId stream stream') (id : UInt8) :
    R id ((map.set streamId stream).streamAt new id)
      ((map'.set streamId stream').streamAt new id) := by
  by_cases h : id = streamId
  · subst h
    rw [streamAt_set, streamAt_set]
    exact hstream
  · rw [streamAt_set_of_ne _ _ _ h, streamAt_set_of_ne _ _ _ h]
    exact hmap id

namespace Same

variable {session session' : Session}

/-- The reliable input streams are the same under a reliable identifier. -/
lemma reliableIstream_eq (h : Same session session') {streamId : UInt8}
    (hreliable : IsReliableStream streamId) :
    session.reliableIstream streamId = session'.reliableIstream streamId := by
  have := h.reliableIstream streamId
  unfold SameIstream at this
  rwa [if_pos hreliable] at this

/-- Setting the same best-effort input stream. -/
lemma setBestEffortIstream (h : Same session session') (streamId : UInt8)
    (stream : BestEffortInputStream InputMessage) :
    Same { session with bestEffortIstreams := session.bestEffortIstreams.set streamId stream }
      { session' with bestEffortIstreams := session'.bestEffortIstreams.set streamId stream } :=
  { h with bestEffortIstream := streamAt_set_congr h.bestEffortIstream rfl }

/-- Setting reliable input streams that cannot be told apart. -/
lemma setReliableIstream (h : Same session session') {streamId : UInt8}
    {stream stream' : ReliableInputStream InputMessage}
    (hstream : SameIstream streamId stream stream') :
    Same { session with reliableIstreams := session.reliableIstreams.set streamId stream }
      { session' with reliableIstreams := session'.reliableIstreams.set streamId stream' } :=
  { h with reliableIstream := streamAt_set_congr h.reliableIstream hstream }

/-- Setting the same best-effort output stream. -/
lemma setBestEffortOstream (h : Same session session') (streamId : UInt8)
    (stream : BestEffortOutputStream) :
    Same { session with bestEffortOstreams := session.bestEffortOstreams.set streamId stream }
      { session' with bestEffortOstreams := session'.bestEffortOstreams.set streamId stream } :=
  { h with bestEffortOstream := streamAt_set_congr h.bestEffortOstream rfl }

/-- Setting the same reliable output stream. -/
lemma setReliableOstream (h : Same session session') (streamId : UInt8)
    (stream : ReliableOutputStream) :
    Same { session with reliableOstreams := session.reliableOstreams.set streamId stream }
      { session' with reliableOstreams := session'.reliableOstreams.set streamId stream } :=
  { h with reliableOstream := streamAt_set_congr h.reliableOstream rfl }

/-- A stream is the same as itself. -/
lemma sameIstream_rfl {streamId : UInt8} (hreliable : IsReliableStream streamId)
    (stream : ReliableInputStream InputMessage) : SameIstream streamId stream stream := by
  unfold SameIstream
  rw [if_pos hreliable]

variable [FastCdr]

/-- A message is pushed. -/
lemma act_pushInputMessage (h : Same session session') (message : InputMessage) (streamId : UInt8)
    (sequenceNr : SeqNum) :
    SameAct session session' (.pushInputMessage message streamId sequenceNr) := by
  unfold SameAct Session.act pushInputMessage
  dsimp only
  split
  · rw [h.noneIstream]
    exact ⟨rfl, { h with noneIstream := rfl }⟩
  · next hnone =>
    split
    · rw [h.bestEffortIstream streamId]
      exact ⟨rfl, h.setBestEffortIstream _ _⟩
    · next hbest =>
      have hreliable := (isReliableStream_iff streamId).mpr ⟨hnone, hbest⟩
      rw [h.reliableIstream_eq hreliable]
      exact ⟨rfl, h.setReliableIstream (sameIstream_rfl hreliable _)⟩

/-- A message is popped. -/
lemma act_popInputMessage (h : Same session session') (streamId : UInt8) :
    SameAct session session' (.popInputMessage streamId) := by
  unfold SameAct Session.act popInputMessage
  dsimp only
  split
  · rw [h.noneIstream]
    exact ⟨rfl, { h with noneIstream := rfl }⟩
  · next hnone =>
    split
    · rw [h.bestEffortIstream streamId]
      exact ⟨rfl, h.setBestEffortIstream _ _⟩
    · next hbest =>
      have hreliable := (isReliableStream_iff streamId).mpr ⟨hnone, hbest⟩
      rw [h.reliableIstream_eq hreliable]
      exact ⟨rfl, h.setReliableIstream (sameIstream_rfl hreliable _)⟩

/-- A HEARTBEAT arrives. -/
lemma act_updateFromHeartbeat (h : Same session session') (streamId : UInt8)
    (firstUnacked lastUnacked : SeqNum) :
    SameAct session session' (.updateFromHeartbeat streamId firstUnacked lastUnacked) := by
  unfold SameAct Session.act updateFromHeartbeat
  dsimp only
  split
  · next hreliable =>
    rw [h.reliableIstream_eq hreliable]
    exact ⟨rfl, h.setReliableIstream (sameIstream_rfl hreliable _)⟩
  · exact ⟨rfl, h⟩

/-- An ACKNACK is filled. -/
lemma act_fillAcknack (h : Same session session') (streamId : UInt8) :
    SameAct session session' (.fillAcknack streamId) := by
  unfold SameAct Session.act fillAcknack
  dsimp only
  split
  · next hreliable =>
    rw [h.reliableIstream_eq hreliable]
    exact ⟨rfl, h.setReliableIstream (sameIstream_rfl hreliable _)⟩
  · exact ⟨rfl, h⟩

/-- A FRAGMENT is pushed. -/
lemma act_pushInputFragment (h : Same session session') (streamId : UInt8)
    (message : InputMessage) :
    SameAct session session' (.pushInputFragment streamId message) := by
  unfold SameAct Session.act pushInputFragment
  dsimp only
  split
  · next hreliable =>
    rw [h.reliableIstream_eq hreliable]
    exact ⟨rfl, h.setReliableIstream (sameIstream_rfl hreliable _)⟩
  · exact ⟨rfl, h⟩

/-- A reassembled message is popped.  Under an identifier that is not reliable there is none. -/
lemma act_popInputFragmentMessage (h : Same session session') (streamId : UInt8) :
    SameAct session session' (.popInputFragmentMessage streamId) := by
  unfold SameAct Session.act popInputFragmentMessage
  dsimp only
  by_cases hreliable : IsReliableStream streamId
  · rw [h.reliableIstream_eq hreliable]
    exact ⟨rfl, h.setReliableIstream (sameIstream_rfl hreliable _)⟩
  · have hsame := h.reliableIstream streamId
    unfold SameIstream at hsame
    rw [if_neg hreliable] at hsame
    unfold ReliableInputStream.popFragmentMessage
    rw [hsame.1, hsame.2]
    refine ⟨rfl, h.setReliableIstream ?_⟩
    unfold SameIstream
    rw [if_neg hreliable]
    exact hsame

/-- A submessage is pushed. -/
lemma act_pushOutputSubmessage (h : Same session session') (streamId submessageId : UInt8)
    (submessage : List UInt8) (fuel : ℕ) :
    SameAct session session' (.pushOutputSubmessage streamId submessageId submessage fuel) := by
  unfold SameAct Session.act pushOutputSubmessage
  dsimp only
  split_ifs with hnone hbest
  · have hpush : session.noneOstream.pushSubmessage session.sessionInfo submessageId submessage =
        session'.noneOstream.pushSubmessage session'.sessionInfo submessageId submessage := by
      rw [h.noneOstream, h.sessionInfo]
    rw [hpush]
    exact ⟨rfl, { h with noneOstream := rfl }⟩
  · have hpush : (session.bestEffortOstream streamId).pushSubmessage session.sessionInfo streamId
          submessageId submessage =
        (session'.bestEffortOstream streamId).pushSubmessage session'.sessionInfo streamId
          submessageId submessage := by
      rw [h.bestEffortOstream streamId, h.sessionInfo]
    rw [hpush]
    exact ⟨rfl, h.setBestEffortOstream _ _⟩
  · have hpush : (session.getReliableOutputStream streamId).pushSubmessage session.sessionInfo
          streamId submessageId submessage fuel =
        (session'.getReliableOutputStream streamId).pushSubmessage session'.sessionInfo
          streamId submessageId submessage fuel := by
      rw [h.reliableOstream streamId, h.sessionInfo]
    rw [hpush]
    cases (session'.getReliableOutputStream streamId).pushSubmessage session'.sessionInfo
      streamId submessageId submessage fuel with
    | none => exact ⟨rfl, h⟩
    | some result =>
      cases result with
      | returned rv stream => exact ⟨rfl, h.setReliableOstream streamId stream⟩
      | outOfBounds => exact ⟨rfl, h⟩

/-- The next message is taken. -/
lemma act_getNextOutputMessage (h : Same session session') (streamId : UInt8) :
    SameAct session session' (.getNextOutputMessage streamId) := by
  unfold SameAct Session.act getNextOutputMessage
  dsimp only
  split_ifs with hnone hbest
  · rw [h.noneOstream]
    exact ⟨rfl, { h with noneOstream := rfl }⟩
  · rw [h.bestEffortOstream streamId]
    exact ⟨rfl, h.setBestEffortOstream _ _⟩
  · rw [h.reliableOstream streamId]
    exact ⟨rfl, h.setReliableOstream _ _⟩

/-- A message is looked up. -/
lemma act_getOutputMessage (h : Same session session') (streamId : UInt8) (seqNum : SeqNum) :
    SameAct session session' (.getOutputMessage streamId seqNum) := by
  unfold SameAct Session.act getOutputMessage
  dsimp only
  split
  · rw [h.reliableOstream streamId]
    exact ⟨rfl, h.setReliableOstream _ _⟩
  · exact ⟨rfl, h⟩

/-- An ACKNACK arrives. -/
lemma act_updateFromAcknack (h : Same session session') (streamId : UInt8) (firstUnacked : SeqNum) :
    SameAct session session' (.updateFromAcknack streamId firstUnacked) := by
  unfold SameAct Session.act updateFromAcknack
  dsimp only
  split
  · rw [h.reliableOstream streamId]
    exact ⟨rfl, h.setReliableOstream _ _⟩
  · exact ⟨rfl, h⟩

/-- A HEARTBEAT is filled. -/
lemma act_fillHeartbeat (h : Same session session') (streamId : UInt8) :
    SameAct session session' (.fillHeartbeat streamId) := by
  unfold SameAct Session.act fillHeartbeat
  dsimp only
  split
  · rw [h.reliableOstream streamId]
    exact ⟨rfl, h.setReliableOstream _ _⟩
  · exact ⟨rfl, h⟩

/-- Every call is answered the same, and leaves sessions that cannot be told apart. -/
lemma act (h : Same session session') (call : Call) : SameAct session session' call := by
  cases call with
  | pushInputMessage message streamId sequenceNr =>
    exact h.act_pushInputMessage message streamId sequenceNr
  | popInputMessage streamId => exact h.act_popInputMessage streamId
  | updateFromHeartbeat streamId firstUnacked lastUnacked =>
    exact h.act_updateFromHeartbeat streamId firstUnacked lastUnacked
  | fillAcknack streamId => exact h.act_fillAcknack streamId
  | pushInputFragment streamId message => exact h.act_pushInputFragment streamId message
  | popInputFragmentMessage streamId => exact h.act_popInputFragmentMessage streamId
  | pushOutputSubmessage streamId submessageId submessage fuel =>
    exact h.act_pushOutputSubmessage streamId submessageId submessage fuel
  | getNextOutputMessage streamId => exact h.act_getNextOutputMessage streamId
  | getOutputMessage streamId seqNum => exact h.act_getOutputMessage streamId seqNum
  | updateFromAcknack streamId firstUnacked => exact h.act_updateFromAcknack streamId firstUnacked
  | fillHeartbeat streamId => exact h.act_fillHeartbeat streamId

end Same

/-! ## The session after a reset -/

/-- Without what it forgets, a session that was reset cannot be told from a new one. -/
lemma same_reset_new {session : Session} (h : NothingForgotten session) :
    Same session.reset (new session.sessionInfo) := by
  have hreliable : ∀ streamId, (session.reset.reliableIstream streamId) =
      (session.reliableIstream streamId).reset := fun streamId =>
    streamAt_map session.reliableIstreams .new ReliableInputStream.reset streamId rfl
  refine ⟨rfl, ?_, fun streamId => ?_, fun streamId => ?_, rfl, fun streamId => ?_,
    fun streamId => ?_⟩
  · obtain ⟨messages, hmessages⟩ : ∃ messages, session.noneIstream = ⟨messages⟩ := ⟨_, rfl⟩
    have hnil := h.noneIstream
    rw [hmessages] at hnil
    change session.noneIstream = NoneInputStream.reset
    rw [hmessages]
    exact congrArg NoneInputStream.mk hnil
  · exact streamAt_map session.bestEffortIstreams .reset (fun _ => .reset) streamId rfl
  · unfold SameIstream
    rw [hreliable]
    have havailable := h.available streamId
    split
    · next hid =>
      have hmsg := h.fragmentMsg streamId hid
      change _ = ReliableInputStream.new
      unfold ReliableInputStream.reset ReliableInputStream.new
      rw [havailable, hmsg]
    · exact ⟨havailable, rfl⟩
  · exact streamAt_map session.bestEffortOstreams .reset (fun _ => .reset) streamId rfl
  · exact streamAt_map session.reliableOstreams .reset (fun _ => .reset) streamId rfl

/-- A FRAGMENT without a payload that says that it is the last one, on the stream 128 of a
session without a client key. -/
def lastFragment (sessionId : UInt8) : InputMessage where
  buf := [sessionId, 128, 0, 0]
  header := ⟨sessionId, 128, 0, [0, 0, 0, 0], clientkeyInvalid_length⟩
  subheader := ⟨fragmentId, agentFlagLastFragment, 0⟩
  position := 4

section

variable [FastCdr]

/-- That FRAGMENT makes a message of the FRAGMENTs before it, or of its own header. -/
lemma popFragmentMessage_lastFragment (stream : ReliableInputStream InputMessage)
    {sessionId : UInt8} (hid : 128 ≤ sessionId) :
    (stream.pushFragment (lastFragment sessionId)).1.popFragmentMessage.2 =
      some (if stream.fragmentMsg = [] then [sessionId, 128, 0, 0] else stream.fragmentMsg) := by
  have hpayload : (lastFragment sessionId).getRawPayload 0 =
      some ([], lastFragment sessionId) := by
    unfold InputMessage.getRawPayload
    rw [InputMessage.deserializeArray_eq]
    rfl
  have hheader : (lastFragment sessionId).getRawHeader = [sessionId, 128, 0, 0] := by
    unfold InputMessage.getRawHeader
    exact if_neg (UInt8.not_lt.mpr hid)
  have hflags : (agentFlagLastFragment &&& (lastFragment sessionId).subheader.flags) ≠ 0 := by
    change (agentFlagLastFragment &&& agentFlagLastFragment) ≠ 0
    decide
  unfold ReliableInputStream.pushFragment
  dsimp only
  rw [show (lastFragment sessionId).subheader.submessageLength = 0 from rfl, hpayload, hheader]
  unfold ReliableInputStream.popFragmentMessage
  simp [hflags]

/-- What is answered to a pop of the stream without an identifier. -/
lemma answers_popInputMessage (session : Session) :
    session.answers [.popInputMessage 0] = [.input session.noneIstream.popMessage.2] := rfl

/-- What is answered to a pop of a reassembled message. -/
lemma answers_popInputFragmentMessage (session : Session) (streamId : UInt8) :
    session.answers [.popInputFragmentMessage streamId] =
      [.input ((session.reliableIstream streamId).popFragmentMessage.2.map InputMessage.new)] := rfl

/-- What is answered to a FRAGMENT and a pop of a reassembled message. -/
lemma answers_lastFragment (session : Session) {streamId : UInt8} (hid : IsReliableStream streamId)
    {sessionId : UInt8} (hsession : 128 ≤ sessionId) :
    ∃ answer, session.answers
        [.pushInputFragment streamId (lastFragment sessionId), .popInputFragmentMessage streamId] =
      [answer, .input (some (InputMessage.new
        (if (session.reliableIstream streamId).fragmentMsg = [] then [sessionId, 128, 0, 0]
          else (session.reliableIstream streamId).fragmentMsg)))] := by
  refine ⟨(session.act (.pushInputFragment streamId (lastFragment sessionId))).2, ?_⟩
  have hpush : (session.act (.pushInputFragment streamId (lastFragment sessionId))).1 =
      { session with
        reliableIstreams := session.reliableIstreams.set streamId
          ((session.reliableIstream streamId).pushFragment (lastFragment sessionId)).1 } := by
    unfold act pushInputFragment
    dsimp only
    rw [if_pos hid]
    rfl
  have hfound : (session.act
    (.pushInputFragment streamId (lastFragment sessionId))).1.reliableIstream
      streamId = ((session.reliableIstream streamId).pushFragment (lastFragment sessionId)).1 := by
    rw [hpush]
    exact streamAt_set _ _ _ _
  have hpop := answers_popInputFragmentMessage
    (session.act (.pushInputFragment streamId (lastFragment sessionId))).1 streamId
  rw [hfound, popFragmentMessage_lastFragment _ hsession] at hpop
  exact congrArg (List.cons _) hpop

/-- A session that answers after a reset as a new one does has nothing that the reset
forgets. -/
lemma nothingForgotten_of_answers {session : Session}
    (hall : ∀ calls, session.reset.answers calls = (new session.sessionInfo).answers calls) :
    NothingForgotten session := by
  have hreliable : ∀ streamId, session.reset.reliableIstream streamId =
      (session.reliableIstream streamId).reset := fun streamId =>
    streamAt_map session.reliableIstreams .new ReliableInputStream.reset streamId rfl
  refine ⟨?_, ?_, ?_⟩
  · have hpop := hall [.popInputMessage 0]
    rw [answers_popInputMessage, answers_popInputMessage] at hpop
    have hnone : session.noneIstream.popMessage.2 = none :=
      Answer.input.inj (List.head_eq_of_cons_eq hpop)
    unfold NoneInputStream.popMessage at hnone
    split at hnone
    · assumption
    · exact absurd hnone (by simp)
  · intro streamId
    have hpop := hall [.popInputFragmentMessage streamId]
    rw [answers_popInputFragmentMessage, answers_popInputFragmentMessage, hreliable] at hpop
    have hnone := Option.map_eq_none_iff.mp (Answer.input.inj (List.head_eq_of_cons_eq hpop))
    unfold ReliableInputStream.popFragmentMessage at hnone
    split at hnone
    · exact absurd hnone (by simp)
    · next hfalse => exact Bool.eq_false_iff.mpr hfalse
  · intro streamId hid
    by_contra hne
    have hmsg : ∀ sessionId : UInt8, 128 ≤ sessionId →
        (session.reliableIstream streamId).fragmentMsg = [sessionId, 128, 0, 0] := by
      intro sessionId hsession
      obtain ⟨answer, hreset⟩ := answers_lastFragment session.reset hid hsession
      obtain ⟨answer', hnew⟩ := answers_lastFragment (new session.sessionInfo) hid hsession
      have heq := (hreset.symm.trans (hall _)).trans hnew
      rw [hreliable] at heq
      have htail := Answer.input.inj (List.head_eq_of_cons_eq (List.tail_eq_of_cons_eq heq))
      have hbuf := congrArg InputMessage.buf (Option.some.inj htail)
      rw [InputMessage.new_buf, InputMessage.new_buf] at hbuf
      have hforgotten : (session.reliableIstream streamId).reset.fragmentMsg ≠ [] := hne
      rw [if_neg hforgotten] at hbuf
      exact hbuf
    have h129 := hmsg 129 (by decide)
    rw [hmsg 130 (by decide)] at h129
    exact absurd h129 (by decide)

/-- A session answers every sequence of calls after a reset as a new session does if and only
if nothing was there that the reset forgets. -/
theorem reset_fresh_iff (session : Session) :
    (∀ calls, session.reset.answers calls = (new session.sessionInfo).answers calls) ↔
      NothingForgotten session :=
  ⟨nothingForgotten_of_answers, fun hnothing calls =>
    Transition.outputs_eq (R := Same) (fun _ _ call h => h.act call) (same_reset_new hnothing)
      calls⟩

end

/-- A session with one FRAGMENT pushed, before the reset. -/
def afterFragment : Session :=
  ((new ⟨[0, 0, 0, 0], 129, 512, clientkeyInvalid_length⟩).act (.pushInputFragment 128
    { lastFragment 129 with subheader := ⟨fragmentId, 0, 0⟩ })).1

/-- A FRAGMENT that was pushed before the reset is in front of a message that is put together
after it. -/
theorem reset_keeps_fragment :
    ∃ calls, afterFragment.reset.answers calls ≠ (new afterFragment.sessionInfo).answers calls := by
  by_contra hall
  have hnothing : NothingForgotten afterFragment := nothingForgotten_of_answers fun calls => by
    by_contra hne
    exact hall ⟨calls, hne⟩
  exact absurd (hnothing.fragmentMsg 128 (by decide)) (by decide)

end Session

end XrceDds
