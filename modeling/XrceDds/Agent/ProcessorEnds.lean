import XrceDds.Agent.ProcessorWalks
import Mathlib.Algebra.BigOperators.Group.Finset.Basic
import Mathlib.Data.Fintype.Basic

/-!
# Every packet is processed to an end

A walk may lead into another one, over the message that a FRAGMENT completes, which may hold
FRAGMENTs itself.  The walks end all the same (`walks_total`): every FRAGMENT uses up one byte with
its number, and such bytes go from a message to what its stream collects and from there to the
message that is completed, but none is made (`fragmentWeight`).  The loop of
`process_input_packet` ends since every turn takes a message that waits.
-/

namespace XrceDds

namespace InputMessage

variable [FastCdr]

/-! ## Messages that were made from their bytes -/

/-- The message has come from a new one. -/
structure Made (message : InputMessage) : Prop where
  header : message.header = (new message.buf).header
  position : (new message.buf).position ≤ message.position

lemma made_new (buf : List UInt8) : (new buf).Made :=
  ⟨by rw [new_buf], by rw [new_buf]⟩

lemma Made.advances {message behind : InputMessage} (h : message.Made)
    (hadvances : message.Advances behind) : behind.Made :=
  ⟨by rw [hadvances.header, hadvances.buf, h.header],
    by rw [hadvances.buf]; exact h.position.trans hadvances.position⟩

/-- The header alone leaves nothing behind it. -/
lemma Made.new_getRawHeader_rest {message : InputMessage} (h : message.Made)
    (hrest : 4 ≤ message.rest.length) : (new message.getRawHeader).rest = [] := by
  have hsession := h.header ▸ (new_eq message.buf).1
  have hposition := (new_eq message.buf).2.2 ▸ h.position
  unfold InputMessage.rest at hrest
  rw [List.length_drop] at hrest
  rw [new_rest, List.drop_eq_nil_iff]
  unfold getRawHeader
  rw [hsession]
  unfold headerEnd at hposition ⊢
  have hhead (n : ℕ) (hn : 0 < n) : (message.buf.take n).headD 0 = message.buf.headD 0 := by
    obtain ⟨m, rfl⟩ := Nat.exists_eq_add_of_lt hn
    cases message.buf <;> simp
  by_cases hkey : message.buf.headD 0 < 128
  · rw [if_pos hkey, hhead 8 (by omega), List.length_take]
    simp only [hkey, true_and] at hposition ⊢
    split_ifs at hposition ⊢ <;> omega
  · rw [if_neg hkey, hhead 4 (by omega), List.length_take]
    simp only [hkey, false_and, if_false] at hposition ⊢
    split_ifs at hposition ⊢ <;> omega

/-- The bytes with the number of FRAGMENT that a walk over a message of these bytes has before it.
-/
def fragmentBytes (buf : List UInt8) : ℕ := (new buf).rest.count fragmentId

/-- What is put behind a message adds its own bytes at most. -/
lemma fragmentBytes_append_le (buf tail : List UInt8) :
    fragmentBytes (buf ++ tail) ≤ fragmentBytes buf + tail.count fragmentId := by
  have hend : headerEnd buf ≤ buf.length := by
    unfold headerEnd
    split_ifs <;> omega
  have hmono : headerEnd buf ≤ headerEnd (buf ++ tail) := by
    cases buf with
    | nil => exact Nat.zero_le _
    | cons byte buf =>
      unfold headerEnd
      rw [List.length_append, List.cons_append, List.headD_cons, List.headD_cons]
      by_cases hkey : byte < 128 <;> simp only [hkey, true_and, false_and, if_false] <;>
        split_ifs <;> omega
  unfold fragmentBytes
  rw [new_rest, new_rest]
  calc ((buf ++ tail).drop (headerEnd (buf ++ tail))).count fragmentId
      ≤ ((buf ++ tail).drop (headerEnd buf)).count fragmentId :=
        (List.drop_sublist_drop_left _ hmono).count_le _
    _ = (buf.drop (headerEnd buf)).count fragmentId + tail.count fragmentId := by
        rw [List.drop_append_of_le_length hend, List.count_append]

end InputMessage

open InputMessage

namespace ReliableInputStream

variable [FastCdr]

/-- A FRAGMENT may take its payload from its message. -/
lemma pushFragment_advances (stream : ReliableInputStream InputMessage) (message : InputMessage) :
    message.Advances (stream.pushFragment message).2 := by
  unfold pushFragment getRawPayload
  dsimp only
  rw [if_pos le_rfl]
  cases htake : message.deserializeArray message.subheader.submessageLength with
  | some taken => exact advances_of_deserializeArray htake
  | none => exact .refl message

/-- A FRAGMENT brings what it takes from its message. -/
lemma pushFragment_fragmentBytes (stream : ReliableInputStream InputMessage)
    {message : InputMessage} (hheader : fragmentBytes message.getRawHeader = 0) :
    fragmentBytes (stream.pushFragment message).1.fragmentMsg +
        (stream.pushFragment message).2.rest.count fragmentId ≤
      fragmentBytes stream.fragmentMsg + message.rest.count fragmentId := by
  unfold pushFragment getRawPayload
  dsimp only
  rw [if_pos le_rfl]
  have hstarted : fragmentBytes
      (if stream.fragmentMsg = [] then message.getRawHeader else stream.fragmentMsg) ≤
        fragmentBytes stream.fragmentMsg := by
    split
    · exact hheader.le.trans (Nat.zero_le _)
    · exact le_rfl
  generalize (if stream.fragmentMsg = [] then message.getRawHeader else stream.fragmentMsg) =
    started at hstarted
  cases htake : message.deserializeArray message.subheader.submessageLength with
  | some taken =>
    obtain ⟨payload, behind⟩ := taken
    have happend := fragmentBytes_append_le started payload
    rw [(deserializeArray_eq_some htake).2.1, List.count_append]
    dsimp only
    omega
  | none =>
    have happend := fragmentBytes_append_le started
      (List.replicate message.subheader.submessageLength 0)
    rw [List.count_replicate, if_neg (by decide)] at happend
    dsimp only
    omega

end ReliableInputStream

namespace Session

/-- What a stream has in common with the one that it is replaced by, all streams of the identifier
have in common. -/
lemma reliableIstream_set_congr {α : Type} (f : ReliableInputStream InputMessage → α)
    (session : Session) (id : UInt8) (stream : ReliableInputStream InputMessage)
    (h : f stream = f (session.reliableIstream id)) (streamId : UInt8) :
    f ((session.reliableIstreams.set id stream).streamAt .new streamId) =
      f (session.reliableIstream streamId) := by
  by_cases hid : streamId = id
  · rw [hid, StreamMap.streamAt_set, h]
  · rw [StreamMap.streamAt_set_of_ne _ _ _ hid]
    rfl

/-- No handler but that of FRAGMENT touches what the streams collect. -/
lemma called_fragmentMsg (session : Session) (call : HandlerCall) (streamId : UInt8) :
    ((session.called call).reliableIstream streamId).fragmentMsg =
      (session.reliableIstream streamId).fragmentMsg := by
  cases call with
  | reset =>
    have hmap := StreamMap.streamAt_map session.reliableIstreams .new ReliableInputStream.reset
      streamId rfl
    have hmsg := congrArg ReliableInputStream.fragmentMsg hmap
    exact hmsg
  | updateFromHeartbeat id firstUnacked lastUnacked =>
    dsimp only [called, updateFromHeartbeat]
    split
    · exact session.reliableIstream_set_congr ReliableInputStream.fragmentMsg id
        ((session.reliableIstream id).updateFromHeartbeat firstUnacked lastUnacked) rfl streamId
    · rfl
  | fillAcknack id =>
    dsimp only [called, fillAcknack]
    split
    · exact session.reliableIstream_set_congr ReliableInputStream.fragmentMsg id _ rfl streamId
    · rfl
  | pushOutputSubmessage id submessageId submessage fuel =>
    dsimp only [called, pushOutputSubmessage]
    split_ifs
    · rfl
    · rfl
    · split <;> rfl
  | getNextOutputMessage id =>
    dsimp only [called, getNextOutputMessage]
    split_ifs <;> rfl
  | getOutputMessage id seqNum =>
    dsimp only [called, getOutputMessage]
    split_ifs <;> rfl
  | updateFromAcknack id firstUnacked =>
    dsimp only [called, updateFromAcknack]
    split_ifs <;> rfl

variable [FastCdr]

/-- The bytes with the number of FRAGMENT in all that the streams of a session collect. -/
def fragmentWeight (session : Session) : ℕ :=
  ∑ i ∈ Finset.range 256, fragmentBytes (session.reliableIstream (UInt8.ofNat i)).fragmentMsg

/-- The weight goes with the one stream that is set. -/
lemma fragmentWeight_set (session : Session) (streamId : UInt8)
    (stream : ReliableInputStream InputMessage) :
    ({ session with
        reliableIstreams := session.reliableIstreams.set streamId stream } :
          Session).fragmentWeight +
        fragmentBytes (session.reliableIstream streamId).fragmentMsg =
      session.fragmentWeight + fragmentBytes stream.fragmentMsg := by
  have hmem : streamId.toNat ∈ Finset.range 256 := Finset.mem_range.mpr streamId.toNat_lt
  have hother : ∀ i ∈ (Finset.range 256).erase streamId.toNat, UInt8.ofNat i ≠ streamId := by
    rintro i hi rfl
    obtain ⟨hne, hlt⟩ := Finset.mem_erase.mp hi
    exact hne (UInt8.toNat_ofNat_of_lt' (Finset.mem_range.mp hlt)).symm
  have hset (id : UInt8) : ({ session with
      reliableIstreams := session.reliableIstreams.set streamId stream } : Session).reliableIstream
        id = (session.reliableIstreams.set streamId stream).streamAt .new id := rfl
  unfold fragmentWeight
  simp only [hset]
  rw [← Finset.add_sum_erase _ _ hmem, ← Finset.add_sum_erase _ _ hmem, UInt8.ofNat_toNat,
    StreamMap.streamAt_set, Finset.sum_congr rfl fun i hi => by
      rw [StreamMap.streamAt_set_of_ne _ _ _ (hother i hi)]]
  change _ + ∑ i ∈ _, fragmentBytes (session.reliableIstream (UInt8.ofNat i)).fragmentMsg + _ = _
  omega

/-- The handlers other than that of FRAGMENT leave the weight as it is. -/
lemma called_fragmentWeight (session : Session) (calls : List HandlerCall) :
    (calls.foldl called session).fragmentWeight = session.fragmentWeight := by
  induction calls generalizing session with
  | nil => rfl
  | cons call calls ih =>
    refine (ih (session.called call)).trans ?_
    exact Finset.sum_congr rfl fun i _ => by rw [called_fragmentMsg]

/-- A session takes what its stream does. -/
lemma pushInputFragment_advances (session : Session) (streamId : UInt8) (message : InputMessage) :
    message.Advances (session.pushInputFragment streamId message).2 := by
  unfold pushInputFragment
  split
  · exact ReliableInputStream.pushFragment_advances _ message
  · exact .refl message

/-- The weight of a session grows by what it takes at most. -/
lemma pushInputFragment_fragmentWeight (session : Session) (streamId : UInt8)
    {message : InputMessage} (hheader : fragmentBytes message.getRawHeader = 0) :
    (session.pushInputFragment streamId message).1.fragmentWeight +
        (session.pushInputFragment streamId message).2.rest.count fragmentId ≤
      session.fragmentWeight + message.rest.count fragmentId := by
  unfold pushInputFragment
  split
  · have hset := session.fragmentWeight_set streamId
      ((session.reliableIstream streamId).pushFragment message).1
    have hpush := (session.reliableIstream streamId).pushFragment_fragmentBytes hheader
    dsimp only
    omega
  · exact le_rfl

/-- A message that is completed takes along what its stream has collected. -/
lemma popInputFragmentMessage_fragmentWeight (session : Session) (streamId : UInt8) :
    (session.popInputFragmentMessage streamId).1.fragmentWeight +
        ((session.popInputFragmentMessage streamId).2.map
          fun message => message.rest.count fragmentId).getD 0 ≤ session.fragmentWeight := by
  have hset := session.fragmentWeight_set streamId
    (session.reliableIstream streamId).popFragmentMessage.1
  unfold popInputFragmentMessage
  generalize session.reliableIstream streamId = stream at hset ⊢
  have hnil : fragmentBytes [] = 0 := by
    rw [fragmentBytes, new_rest, List.drop_nil, List.count_nil]
  unfold ReliableInputStream.popFragmentMessage at hset ⊢
  split
  · next havailable =>
    rw [if_pos havailable] at hset
    change _ + fragmentBytes stream.fragmentMsg ≤ _
    dsimp only at hset ⊢
    omega
  · next havailable =>
    rw [if_neg havailable] at hset
    dsimp only [Option.map_none, Option.getD_none] at hset ⊢
    omega

/-- What is completed is a new message. -/
lemma made_of_popInputFragmentMessage {session : Session} {streamId : UInt8}
    {completed : InputMessage} (h : (session.popInputFragmentMessage streamId).2 = some completed) :
    completed.Made := by
  obtain ⟨buf, -, rfl⟩ := Option.map_eq_some_iff.mp h
  exact made_new buf

end Session

/-! ## The messages that wait -/

/-- How many messages there are in a map. -/
def waitingIn (messages : SeqNum → Option InputMessage) : ℕ :=
  (Finset.univ.filter fun seqNum => (messages seqNum).isSome = true).card

/-- A message fewer is there when one was taken out. -/
lemma waitingIn_update_none {messages : SeqNum → Option InputMessage} {seqNum : SeqNum}
    (h : (messages seqNum).isSome = true) :
    waitingIn (Function.update messages seqNum none) < waitingIn messages := by
  unfold waitingIn
  refine Finset.card_lt_card ((Finset.ssubset_iff_of_subset fun other hmem => ?_).mpr
    ⟨seqNum, Finset.mem_filter.mpr ⟨Finset.mem_univ _, h⟩, fun hmem => ?_⟩)
  · rw [Finset.mem_filter] at hmem ⊢
    by_cases heq : other = seqNum
    · rw [heq]
      exact ⟨Finset.mem_univ _, h⟩
    · rwa [Function.update_of_ne heq] at hmem
  · rw [Finset.mem_filter, Function.update_self] at hmem
    exact Bool.false_ne_true hmem.2

/-- No message is there when there are none. -/
lemma waitingIn_none : waitingIn (fun _ => none) = 0 := by
  unfold waitingIn
  rw [Finset.card_eq_zero, Finset.filter_eq_empty_iff]
  exact fun _ _ => Bool.false_ne_true

/-- What is popped does not wait any more. -/
lemma ReliableInputStream.waitingIn_popMessage {stream : ReliableInputStream InputMessage}
    {message : InputMessage} (h : stream.popMessage.2 = some message) :
    waitingIn stream.popMessage.1.messages < waitingIn stream.messages := by
  unfold popMessage at h ⊢
  cases hmessage : stream.messages (SeqNum.addInt stream.lastHandled 1) with
  | none =>
    rw [hmessage] at h
    cases h
  | some _ => exact waitingIn_update_none (Option.isSome_iff_exists.mpr ⟨_, hmessage⟩)

/-- What is popped does not wait any more. -/
lemma BestEffortInputStream.length_popMessage {stream : BestEffortInputStream InputMessage}
    {message : InputMessage} (h : stream.popMessage.2 = some message) :
    stream.popMessage.1.messages.length < stream.messages.length := by
  unfold popMessage at h ⊢
  cases hmessages : stream.messages with
  | nil =>
    rw [hmessages] at h
    cases h
  | cons _ messages => exact Nat.lt_succ_self messages.length

/-- What is popped does not wait any more. -/
lemma NoneInputStream.length_popMessage {stream : NoneInputStream InputMessage}
    {message : InputMessage} (h : stream.popMessage.2 = some message) :
    stream.popMessage.1.messages.length < stream.messages.length := by
  unfold popMessage at h ⊢
  cases hmessages : stream.messages with
  | nil =>
    rw [hmessages] at h
    cases h
  | cons _ messages => exact Nat.lt_succ_self messages.length

namespace Session

/-- How many messages wait under an identifier. -/
def waiting (session : Session) (streamId : UInt8) : ℕ :=
  if IsNoneStream streamId then session.noneIstream.messages.length
  else if IsBestEffortStream streamId then (session.bestEffortIstream streamId).messages.length
  else waitingIn (session.reliableIstream streamId).messages

/-- A message that is popped does not wait any more. -/
lemma waiting_popInputMessage {session : Session} {streamId : UInt8} {message : InputMessage}
    (h : (session.popInputMessage streamId).2 = some message) :
    (session.popInputMessage streamId).1.waiting streamId < session.waiting streamId := by
  unfold popInputMessage at h ⊢
  unfold waiting
  by_cases hnone : IsNoneStream streamId
  · rw [if_pos hnone] at h
    rw [if_pos hnone, if_pos hnone, if_pos hnone]
    exact NoneInputStream.length_popMessage h
  · rw [if_neg hnone] at h
    rw [if_neg hnone, if_neg hnone, if_neg hnone]
    by_cases hbest : IsBestEffortStream streamId
    · rw [if_pos hbest] at h
      rw [if_pos hbest, if_pos hbest, if_pos hbest]
      unfold bestEffortIstream at h ⊢
      rw [StreamMap.streamAt_set]
      exact BestEffortInputStream.length_popMessage h
    · rw [if_neg hbest] at h
      rw [if_neg hbest, if_neg hbest, if_neg hbest]
      unfold reliableIstream at h ⊢
      rw [StreamMap.streamAt_set]
      exact ReliableInputStream.waitingIn_popMessage h

/-- The messages that wait are those of the streams, which no handler adds to. -/
lemma waiting_le_of_messages {session session' : Session} {streamId : UInt8}
    (hnone : session'.noneIstream = session.noneIstream)
    (hbest : (session'.bestEffortIstream streamId).messages.length ≤
      (session.bestEffortIstream streamId).messages.length)
    (hreliable : waitingIn (session'.reliableIstream streamId).messages ≤
      waitingIn (session.reliableIstream streamId).messages) :
    session'.waiting streamId ≤ session.waiting streamId := by
  unfold waiting
  rw [hnone]
  split_ifs
  · exact le_rfl
  · exact hbest
  · exact hreliable

/-- A reset discards the messages that wait. -/
lemma waiting_reset (session : Session) (streamId : UInt8) :
    session.reset.waiting streamId ≤ session.waiting streamId := by
  have hbest : session.reset.bestEffortIstream streamId = .reset :=
    StreamMap.streamAt_map session.bestEffortIstreams .reset (fun _ => .reset) streamId rfl
  have hreliable : session.reset.reliableIstream streamId =
      (session.reliableIstream streamId).reset :=
    StreamMap.streamAt_map session.reliableIstreams .new ReliableInputStream.reset streamId rfl
  refine waiting_le_of_messages rfl ?_ ?_
  · rw [hbest]
    exact Nat.zero_le _
  · rw [hreliable]
    exact waitingIn_none.le.trans (Nat.zero_le _)

/-- No handler makes messages wait. -/
lemma waiting_called (session : Session) (call : HandlerCall) (streamId : UInt8) :
    (session.called call).waiting streamId ≤ session.waiting streamId := by
  cases call with
  | reset => exact session.waiting_reset streamId
  | updateFromHeartbeat id firstUnacked lastUnacked =>
    dsimp only [called, updateFromHeartbeat]
    split
    · exact waiting_le_of_messages rfl le_rfl
        (session.reliableIstream_set_congr (fun stream => waitingIn stream.messages) id
          ((session.reliableIstream id).updateFromHeartbeat firstUnacked lastUnacked) rfl
          streamId).le
    · exact le_rfl
  | fillAcknack id =>
    dsimp only [called, fillAcknack]
    split
    · exact waiting_le_of_messages rfl le_rfl
        (session.reliableIstream_set_congr (fun stream => waitingIn stream.messages) id _ rfl
          streamId).le
    · exact le_rfl
  | pushOutputSubmessage id submessageId submessage fuel =>
    dsimp only [called, pushOutputSubmessage]
    split_ifs
    · exact le_rfl
    · exact le_rfl
    · split <;> exact le_rfl
  | getNextOutputMessage id =>
    dsimp only [called, getNextOutputMessage]
    split_ifs <;> exact le_rfl
  | getOutputMessage id seqNum =>
    dsimp only [called, getOutputMessage]
    split_ifs <;> exact le_rfl
  | updateFromAcknack id firstUnacked =>
    dsimp only [called, updateFromAcknack]
    split_ifs <;> exact le_rfl

/-- No handler makes messages wait, whatever it calls. -/
lemma waiting_foldl_called (session : Session) (calls : List HandlerCall) (streamId : UInt8) :
    (calls.foldl called session).waiting streamId ≤ session.waiting streamId := by
  induction calls generalizing session with
  | nil => exact le_rfl
  | cons call calls ih =>
    exact (ih (session.called call)).trans (session.waiting_called call streamId)

variable [FastCdr]

/-- FRAGMENTs leave the messages that wait alone. -/
lemma waiting_pushInputFragment (session : Session) (id streamId : UInt8)
    (message : InputMessage) :
    (session.pushInputFragment id message).1.waiting streamId ≤ session.waiting streamId := by
  have hstream (stream : ReliableInputStream InputMessage) :
      (stream.pushFragment message).1.messages = stream.messages := by
    unfold ReliableInputStream.pushFragment
    dsimp only
    split <;> rfl
  unfold pushInputFragment
  split
  · exact waiting_le_of_messages rfl le_rfl
      (session.reliableIstream_set_congr (fun stream => waitingIn stream.messages) id _
        (congrArg waitingIn (hstream _)) streamId).le
  · exact le_rfl

/-- A message that was completed has not waited. -/
lemma waiting_popInputFragmentMessage (session : Session) (id streamId : UInt8) :
    (session.popInputFragmentMessage id).1.waiting streamId ≤ session.waiting streamId := by
  have hstream (stream : ReliableInputStream InputMessage) :
      stream.popFragmentMessage.1.messages = stream.messages := by
    unfold ReliableInputStream.popFragmentMessage
    split <;> rfl
  exact waiting_le_of_messages rfl le_rfl
    (session.reliableIstream_set_congr (fun stream => waitingIn stream.messages) id _
      (congrArg waitingIn (hstream _)) streamId).le

end Session

/-! ## Walks come to an end -/

variable {σ : Type} {environment : Environment σ}

namespace Environment

section

variable (environment) (state : AgentClient σ) (message : InputMessage)

/-- The handler takes some bytes of the message, and does what it does to the client or nothing. -/
def Keeps : Handled σ → Prop
  | .threw => True
  | .returned state' behind _ =>
    message.Advances behind ∧ (state' = state ∨ state' = environment.performed state message)

/-- What `get_payload` takes lies before what is left. -/
lemma getPayload_advances (kind : SubmessageKind) :
    message.Advances (environment.getPayload kind message).1 := ⟨rfl, rfl, Nat.le_add_right _ _⟩

lemma keeps_processCreateClientSubmessage :
    environment.Keeps state message (environment.processCreateClientSubmessage state message) := by
  have hadvances := environment.getPayload_advances message .createClient
  unfold processCreateClientSubmessage
  split
  · generalize environment.getPayload .createClient message = payload at hadvances ⊢
    obtain ⟨behind, _ | _ | _⟩ := payload
    · exact ⟨hadvances, .inr rfl⟩
    · exact ⟨hadvances, .inl rfl⟩
    · exact trivial
  · exact ⟨.refl message, .inl rfl⟩

lemma keeps_processCreateSubmessage :
    environment.Keeps state message (environment.processCreateSubmessage state message) := by
  have hadvances := environment.getPayload_advances message .create
  unfold processCreateSubmessage
  generalize environment.getPayload .create message = payload at hadvances ⊢
  obtain ⟨behind, _ | _ | _⟩ := payload
  · dsimp only
    split
    · exact trivial
    · exact ⟨hadvances, .inr rfl⟩
  · exact ⟨hadvances, .inl rfl⟩
  · exact trivial

lemma keeps_processReadDataSubmessage :
    environment.Keeps state message (environment.processReadDataSubmessage state message) := by
  have hadvances := environment.getPayload_advances message .readData
  unfold processReadDataSubmessage
  generalize environment.getPayload .readData message = payload at hadvances ⊢
  obtain ⟨behind, _ | _ | _⟩ := payload
  · exact ⟨hadvances, .inr rfl⟩
  · exact ⟨hadvances, .inl rfl⟩
  · exact trivial

lemma keeps_processFixedPayload [FastCdr] (n : ℕ) :
    environment.Keeps state message (environment.processFixedPayload n state message) := by
  unfold processFixedPayload
  split
  · next htake =>
    exact ⟨advances_of_deserializeArray htake, .inr rfl⟩
  · exact ⟨.refl message, .inl rfl⟩

lemma keeps_processWriteDataSubmessage [FastCdr] :
    environment.Keeps state message (environment.processWriteDataSubmessage state message) := by
  unfold processWriteDataSubmessage
  dsimp only
  generalize writeDataSize message.subheader.submessageLength = size
  generalize vectorMaxSize = maxSize
  split
  · split
    · exact trivial
    · split
      · next htake =>
        split
        · exact ⟨advances_of_deserializeArray htake, .inr rfl⟩
        · exact trivial
      · exact ⟨.refl message, .inl rfl⟩
  · exact ⟨.refl message, .inl rfl⟩

end

/-- A handler other than that of FRAGMENT makes no message wait. -/
lemma Keeps.waiting_le {state state' : AgentClient σ} {message behind : InputMessage}
    {rv : Bool}
    (h : environment.Keeps state message (.returned state' behind rv)) (streamId : UInt8) :
    state'.session.waiting streamId ≤ state.session.waiting streamId := by
  obtain ⟨-, rfl | rfl⟩ := h
  · exact le_rfl
  · exact Session.waiting_foldl_called _ _ _

section

variable [FastCdr] {state : AgentClient σ} {message : InputMessage}

variable (environment state) in
/-- A handler other than that of FRAGMENT comes to an end. -/
lemma exists_handles_of_ne
    (h : SubmessageKind.ofId message.subheader.submessageId ≠ .fragment) :
    ∃ handled, environment.Handles state message handled ∧
      environment.Keeps state message handled := by
  have hended : ∃ handled,
      environment.processSubmessage (fun _ _ => none) state message = some handled ∧
        environment.Keeps state message handled := by
    have hrefl (rv : Bool) : environment.Keeps state message (.returned state message rv) :=
      ⟨.refl message, .inl rfl⟩
    unfold processSubmessage
    generalize SubmessageKind.ofId message.subheader.submessageId = kind at h
    cases kind with
    | createClient => exact ⟨_, rfl, environment.keeps_processCreateClientSubmessage _ _⟩
    | create => exact ⟨_, rfl, environment.keeps_processCreateSubmessage _ _⟩
    | getInfo => exact ⟨_, rfl, hrefl false⟩
    | deleteId => exact ⟨_, rfl, environment.keeps_processFixedPayload _ _ 4⟩
    | writeData => exact ⟨_, rfl, environment.keeps_processWriteDataSubmessage _ _⟩
    | readData => exact ⟨_, rfl, environment.keeps_processReadDataSubmessage _ _⟩
    | acknack => exact ⟨_, rfl, environment.keeps_processFixedPayload _ _ 5⟩
    | heartbeat => exact ⟨_, rfl, environment.keeps_processFixedPayload _ _ 5⟩
    | reset => exact ⟨_, rfl, .refl message, .inr rfl⟩
    | fragment => exact absurd rfl h
    | timestamp => exact ⟨_, rfl, environment.keeps_processFixedPayload _ _ 8⟩
    | other => exact ⟨_, rfl, hrefl false⟩
  obtain ⟨handled, hhandled, hkeeps⟩ := hended
  exact ⟨handled, (handles_iff_of_ne h).mpr hhandled, hkeeps⟩

/-- What the handlers other than that of FRAGMENT keep to. -/
lemma Handles.keeps {handled : Handled σ} (h : environment.Handles state message handled)
    (hkind : SubmessageKind.ofId message.subheader.submessageId ≠ .fragment) :
    environment.Keeps state message handled := by
  obtain ⟨handled', hhandles, hkeeps⟩ := environment.exists_handles_of_ne state hkind
  exact h.unique hhandles ▸ hkeeps

/-- A handler other than that of FRAGMENT leaves the weight as it is. -/
lemma Keeps.fragmentWeight {state' : AgentClient σ} {behind : InputMessage} {rv : Bool}
    (h : environment.Keeps state message (.returned state' behind rv)) :
    state'.session.fragmentWeight = state.session.fragmentWeight := by
  obtain ⟨-, rfl | rfl⟩ := h
  · rfl
  · exact Session.called_fragmentWeight _ _

/-- The message that a FRAGMENT is in stands before what is left. -/
lemma pushFragment_advances {state' : AgentClient σ} {behind : InputMessage}
    {completed : Option InputMessage}
    (h : pushFragment state message = (state', behind, completed)) : message.Advances behind := by
  have hbehind : (state.session.pushInputFragment message.header.streamId message).2 = behind :=
    congrArg (fun result => result.2.1) h
  rw [← hbehind]
  exact Session.pushInputFragment_advances _ _ message

/-- The bytes of a FRAGMENT stay with the session, or go to the message that is completed. -/
lemma pushFragment_fragmentWeight (hheader : fragmentBytes message.getRawHeader = 0)
    {state' : AgentClient σ} {behind : InputMessage} {completed : Option InputMessage}
    (h : pushFragment state message = (state', behind, completed)) :
    state'.session.fragmentWeight +
        (completed.map fun message => message.rest.count fragmentId).getD 0 +
        behind.rest.count fragmentId ≤
      state.session.fragmentWeight + message.rest.count fragmentId := by
  obtain ⟨hstate, h⟩ := Prod.mk.inj h
  obtain ⟨hbehind, hcompleted⟩ := Prod.mk.inj h
  have hpush := state.session.pushInputFragment_fragmentWeight message.header.streamId hheader
  have hpop := (state.session.pushInputFragment message.header.streamId message).1
    |>.popInputFragmentMessage_fragmentWeight message.header.streamId
  rw [← hstate, ← hbehind, ← hcompleted]
  dsimp only
  omega

/-- What a FRAGMENT completes is a new message. -/
lemma made_of_pushFragment {state' : AgentClient σ} {behind completed : InputMessage}
    (h : pushFragment state message = (state', behind, some completed)) : completed.Made :=
  Session.made_of_popInputFragmentMessage (congrArg (fun result => result.2.2) h)

/-- The walk goes on, or it ends here. -/
lemma exists_walksOn {P : AgentClient σ → Prop} {state' : AgentClient σ} {behind : InputMessage}
    (rv : Bool) (message : InputMessage) (hstate : P state')
    (h : ∃ result, environment.Walks state' behind result ∧ ∀ last ∈ result.client, P last) :
    ∃ result, environment.WalksOn message (.returned state' behind rv) result ∧
      ∀ last ∈ result.client, P last := by
  cases rv with
  | true =>
    obtain ⟨rest, hrest, hlast⟩ := h
    exact ⟨_, ⟨rest, hrest, rfl⟩, hlast⟩
  | false =>
    refine ⟨_, rfl, ?_⟩
    rintro last hmem
    obtain rfl := Option.some.inj hmem
    exact hstate

variable (environment) in
/-- A walk over a message that was made from its bytes comes to an end, and leaves what there was of
bytes with the number of FRAGMENT at most.  The induction is on these, and within on the length
of the message. -/
lemma walks_total_of_made (n : ℕ) : ∀ (length : ℕ) (state : AgentClient σ) (message : InputMessage),
    message.Made → message.rest.length ≤ length →
    state.session.fragmentWeight + message.rest.count fragmentId ≤ n →
    ∃ result, environment.Walks state message result ∧
      ∀ last ∈ result.client, last.session.fragmentWeight ≤ n := by
  induction n using Nat.strong_induction_on with
  | _ n ihn =>
  intro length
  induction length with
  | zero =>
    intro state message _ hlength hweight
    rcases hprepare : message.prepareNextSubmessage with ⟨at_, _ | _⟩
    · refine ⟨_, (walks_iff_of_end hprepare).mpr rfl, ?_⟩
      rintro last hmem
      obtain rfl := Option.some.inj hmem
      omega
    · have := (rest_of_prepareNextSubmessage hprepare).1
      omega
  | succ length ihl =>
    intro state message hmade hlength hweight
    rcases hprepare : message.prepareNextSubmessage with ⟨at_, _ | _⟩
    · refine ⟨_, (walks_iff_of_end hprepare).mpr rfl, ?_⟩
      rintro last hmem
      obtain rfl := Option.some.inj hmem
      omega
    · obtain ⟨hshorter, hfewer⟩ := rest_of_prepareNextSubmessage hprepare
      have hadvances := (prepareNextSubmessage_eq_true hprepare).1
      have hmadeAt := hmade.advances hadvances
      suffices hon : ∃ handled, environment.Handles state at_ handled ∧
          ∃ result, environment.WalksOn at_ handled result ∧
            ∀ last ∈ result.client, last.session.fragmentWeight ≤ n by
        obtain ⟨handled, hhandles, result, hresult, hlast⟩ := hon
        exact ⟨result, (walks_iff hprepare).mpr ⟨handled, hhandles, hresult⟩, hlast⟩
      by_cases hkind : SubmessageKind.ofId at_.subheader.submessageId = .fragment
      · -- the FRAGMENT has used up a byte with its number
        rw [if_pos ((SubmessageKind.ofId_eq_fragment_iff _).mp hkind)] at hfewer
        have hraw : at_.getRawHeader = message.getRawHeader := by
          unfold getRawHeader
          rw [hadvances.buf, hadvances.header]
        have hheader : fragmentBytes at_.getRawHeader = 0 := by
          unfold fragmentBytes
          rw [hraw, hmade.new_getRawHeader_rest (by omega)]
          rfl
        rcases hpush : pushFragment state at_ with ⟨state', behind, _ | completed⟩
        · have hpushed := pushFragment_fragmentWeight hheader hpush
          have hbehind := pushFragment_advances hpush
          have hle := hbehind.length_rest_le
          dsimp only [Option.map_none, Option.getD_none] at hpushed
          exact ⟨_, (handles_fragment_none hkind hpush).mpr rfl,
            exists_walksOn true at_ (by omega) (ihl state' behind (hmadeAt.advances hbehind)
              (by omega) (by omega))⟩
        · have hpushed := pushFragment_fragmentWeight hheader hpush
          have hbehind := pushFragment_advances hpush
          have hle := hbehind.length_rest_le
          dsimp only [Option.map_some, Option.getD_some] at hpushed
          obtain ⟨nested, hnested, hlast⟩ := ihn
            (state'.session.fragmentWeight + completed.rest.count fragmentId) (by omega)
            completed.rest.length state' completed (made_of_pushFragment hpush) le_rfl le_rfl
          refine ⟨_, (handles_fragment_some hkind hpush).mpr ⟨nested, hnested, rfl⟩, ?_⟩
          obtain ⟨handed, _ | after⟩ := nested
          · exact ⟨_, rfl, fun last hmem => (Option.not_mem_none last hmem).elim⟩
          · have hafter := hlast after rfl
            exact exists_walksOn true at_ (by omega) (ihl after behind (hmadeAt.advances hbehind)
              (by omega) (by omega))
      · obtain ⟨handled, hhandles, hkeeps⟩ :=
          environment.exists_handles_of_ne state hkind
        refine ⟨handled, hhandles, ?_⟩
        rw [if_neg fun hid => hkind ((SubmessageKind.ofId_eq_fragment_iff _).mpr hid)] at hfewer
        cases handled with
        | threw => exact ⟨_, rfl, fun last hmem => (Option.not_mem_none last hmem).elim⟩
        | returned state' behind rv =>
          have hbehind := hkeeps.1
          have hsame := hkeeps.fragmentWeight
          have hle := hbehind.length_rest_le
          have hcount := hbehind.count_rest_le fragmentId
          exact exists_walksOn rv at_ (by omega) (ihl state' behind (hmadeAt.advances hbehind)
            (by omega) (by omega))

variable (environment) in
/-- Every walk comes to an end. -/
theorem walks_total (state : AgentClient σ) (message : InputMessage) :
    ∃ result, environment.Walks state message result := by
  induction hlength : message.rest.length using Nat.strong_induction_on generalizing state message
    with
  | _ length ih =>
  rcases hprepare : message.prepareNextSubmessage with ⟨at_, _ | _⟩
  · exact ⟨_, (walks_iff_of_end hprepare).mpr rfl⟩
  · have hshorter := (rest_of_prepareNextSubmessage hprepare).1
    have hon {state' : AgentClient σ} {behind : InputMessage} (rv : Bool)
        (hbehind : at_.Advances behind) :
        ∃ result, environment.WalksOn at_ (.returned state' behind rv) result := by
      have hle := hbehind.length_rest_le
      obtain ⟨rest, hrest⟩ := ih behind.rest.length (by omega) state' behind rfl
      obtain ⟨result, hresult, -⟩ := exists_walksOn (P := fun _ => True) rv at_ trivial
        ⟨rest, hrest, fun _ _ => trivial⟩
      exact ⟨result, hresult⟩
    suffices hhandles : ∃ handled, environment.Handles state at_ handled ∧
        ∃ result, environment.WalksOn at_ handled result by
      obtain ⟨handled, hhandled, result, hresult⟩ := hhandles
      exact ⟨result, (walks_iff hprepare).mpr ⟨handled, hhandled, hresult⟩⟩
    by_cases hkind : SubmessageKind.ofId at_.subheader.submessageId = .fragment
    · rcases hpush : pushFragment state at_ with ⟨state', behind, _ | completed⟩
      · exact ⟨_, (handles_fragment_none hkind hpush).mpr rfl,
          hon true (pushFragment_advances hpush)⟩
      · obtain ⟨⟨handed, client⟩, hnested, -⟩ := environment.walks_total_of_made _
          completed.rest.length state' completed (made_of_pushFragment hpush) le_rfl le_rfl
        refine ⟨_, (handles_fragment_some hkind hpush).mpr ⟨_, hnested, rfl⟩, ?_⟩
        cases client with
        | none => exact ⟨_, rfl⟩
        | some after => exact hon true (pushFragment_advances hpush)
    · obtain ⟨handled, hhandles, hkeeps⟩ :=
        environment.exists_handles_of_ne state hkind
      refine ⟨handled, hhandles, ?_⟩
      cases handled with
      | threw => exact ⟨_, rfl⟩
      | returned state' behind rv => exact hon rv hkeeps.1

end

/-- Along a walk no message comes to wait. -/
lemma Walks.waiting_le [FastCdr] {state : AgentClient σ} {message : InputMessage}
    {result : WalkResult σ}
    (h : environment.Walks state message result) (streamId : UInt8) :
    ∀ last ∈ result.client, last.session.waiting streamId ≤ state.session.waiting streamId := by
  refine Walks.related (R := fun state last =>
    last.session.waiting streamId ≤ state.session.waiting streamId) (fun _ => le_rfl)
    (fun h h' => h'.trans h) ?_ (fun state message => ?_) h
  · exact fun hkind hhandles => (hhandles.keeps hkind).waiting_le streamId
  · exact (Session.waiting_popInputFragmentMessage _ _ _).trans
      (Session.waiting_pushInputFragment _ _ _ _)

variable (environment) in
/-- The loop over the messages that a stream has ready comes to an end: every turn takes one that
waits. -/
theorem endsReady_total [FastCdr] (state : AgentClient σ) (streamId : UInt8) :
    ∃ ending, environment.EndsReady state streamId ending := by
  induction hwaiting : state.session.waiting streamId using Nat.strong_induction_on
    generalizing state with
  | _ waiting ih =>
  rcases hpop : state.session.popInputMessage streamId with ⟨session, _ | message⟩
  · exact ⟨_, (endsReady_iff_of_none hpop).mpr rfl⟩
  · have hfewer := Session.waiting_popInputMessage
      (show (state.session.popInputMessage streamId).2 = some message from congrArg Prod.snd hpop)
    rw [hpop] at hfewer
    obtain ⟨⟨handed, _ | after⟩, hwalks⟩ :=
      environment.walks_total ⟨state.agent, session⟩ message
    · exact ⟨_, (endsReady_iff hpop).mpr ⟨_, hwalks, rfl⟩⟩
    · have hafter := hwalks.waiting_le streamId after rfl
      dsimp only at hfewer hafter
      obtain ⟨ending, hends⟩ := ih (after.session.waiting streamId) (by omega) after rfl
      exact ⟨ending, (endsReady_iff hpop).mpr ⟨_, hwalks, hends⟩⟩

end Environment

end XrceDds
