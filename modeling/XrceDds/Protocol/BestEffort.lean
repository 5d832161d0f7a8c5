import XrceDds.Agent.InputStream
import XrceDds.Client.BestEffortStream
import XrceDds.Lib.SerialFilter
import XrceDds.Protocol.AgentToClient
import XrceDds.Protocol.ClientToAgent

/-!
# Best-effort streams

A best-effort stream in each direction, with a channel that keeps every message that was put on it
and delivers any of them at any time, as often as it likes or never, as long as no message arrives
more than `lateness` positions behind one that was sent later.  Both receivers are filters on serial
numbers (`SerialFilter.Follows`), so that what the Agent pops, and what the client takes, is a part
of what was sent, in order and nothing twice.

What the client sends are the submessages that it accepted, as long as none of them ends beyond
what a `uint32_t` reaches (`OutputBestEffort.Reaches`).
-/

namespace XrceDds

open ByteMemory

namespace BestEffort

/-- How far a message may be behind one that has arrived. -/
def lateness : ℕ := 16384

/-! ## From the client to the Agent -/

/-- A message of the client, and the submessages that were accepted since the one before. -/
structure SentMessage where
  bytes : List UInt8
  submessages : List AcceptedSubmessage

/-- A client's output stream with its memory, and the Agent's input stream of the same id.  The
first `newest` of the messages that were sent contain all that have arrived. -/
structure ToAgent where
  initial : Memory
  stream : OutputBestEffort
  pending : List AcceptedSubmessage
  sent : List SentMessage
  newest : ℕ
  agent : BestEffortInputStream InputMessage
  popped : List InputMessage

namespace ToAgent

/-- What the client, the channel or the Agent does. -/
inductive Event where
  | write (submessageId mode : UInt8) (payload : List UInt8)
  | flash
  | receive (i : ℕ)
  | popMessage

section Step

variable [FastCdr] (info : UxrSessionInfo) (streamIdRaw : UInt8)

/-- What happens. -/
def step (s : ToAgent) : Event → ToAgent
  | .write submessageId mode payload =>
    match s.stream.write submessageId mode payload with
    | some stream =>
      { s with
        stream := stream
        pending := s.pending ++ [⟨submessageId, mode ||| 1, payload⟩] }
    | none => s
  | .flash =>
    match s.stream.flash info streamIdRaw with
    | (stream, some bytes) =>
      { s with
        stream := stream
        pending := []
        sent := s.sent ++ [⟨bytes, s.pending⟩] }
    | (stream, none) => { s with stream := stream }
  | .receive i =>
    match s.sent[i]? with
    | some m =>
      let message := InputMessage.new m.bytes
      { s with
        agent := (s.agent.pushMessage message.header.sequenceNr message).1
        newest := max s.newest (i + 1) }
    | none => s
  | .popMessage =>
    { s with
      agent := s.agent.popMessage.1
      popped := s.popped ++ s.agent.popMessage.2.toList }

/-- What is written is in memory and ends where a `uint32_t` reaches, and no message is later than
`lateness` allows. -/
def Admitted (s : ToAgent) : Event → Prop
  | .write _ _ payload => s.stream.InMemory payload.length ∧ s.stream.Reaches payload.length
  | .receive i => s.newest ≤ i + 1 + lateness
  | _ => True

instance (s : ToAgent) (e : Event) : Decidable (s.Admitted e) := by
  cases e <;> unfold Admitted <;> infer_instance

/-- As `Admitted`, wherever a submessage ends. -/
def Possible (s : ToAgent) : Event → Prop
  | .write _ _ payload => s.stream.InMemory payload.length
  | .receive i => s.newest ≤ i + 1 + lateness
  | _ => True

/-- Both streams are new. -/
def Starts (s : ToAgent) : Prop :=
  ∃ memory size, s = ⟨memory,
    uxrInitOutputBestEffortStream memory size (uxrSessionHeaderOffset info), [], [], 0, .reset, []⟩

/-- What the Agent pops is a part of what was sent, in order and nothing twice.  A message is the
submessages that were accepted since the one before, behind a session header, and is read as these
when their lengths are those of their headers.  Nothing is written beyond the buffer. -/
structure Kept (s : ToAgent) : Prop where
  ordered : (s.popped.map InputMessage.buf).Sublist (s.sent.map SentMessage.bytes)
  contents : ∀ m ∈ s.sent, ∃ seqNum body,
    m.bytes = messageHeader info streamIdRaw seqNum ++ body ∧ LaidOut body m.submessages
  walks : ∀ m ∈ s.sent, (∀ submessage ∈ m.submessages, submessage.payload.length < 65536) →
    walkMessage m.bytes (uxrSessionHeaderOffset info) =
      some (m.submessages.map AcceptedSubmessage.read)
  inBuffer : ∀ address, s.stream.size ≤ address → s.stream.memory address = s.initial address

/-- Both parties agree. -/
structure Agrees (s : ToAgent) : Prop where
  offset_eq : s.stream.offset = uxrSessionHeaderOffset info
  holds : s.stream.Holds s.pending
  lastSend_eq : s.stream.lastSend = seqOf (65535 + s.sent.length)
  contents : ∀ n m, s.sent[n]? = some m → ∃ body,
    m.bytes = messageHeader info streamIdRaw (seqOf (65536 + n)) ++ body ∧
      LaidOut body m.submessages
  follows : SerialFilter.Follows 32768 65535 (s.sent.map SentMessage.bytes) s.newest
    s.agent.lastReceived.val ((s.popped ++ s.agent.messages).map InputMessage.buf)
  inBuffer : AgreeOff s.initial s.stream.memory 0 s.stream.size

end Step

variable [FastCdr] {info : UxrSessionInfo} {streamIdRaw : UInt8} {s : ToAgent}

omit [FastCdr] in
/-- Both parties agree at first. -/
lemma agrees_of_starts (h : Starts info s) : s.Agrees info streamIdRaw := by
  obtain ⟨memory, size, rfl⟩ := h
  exact ⟨rfl, .init memory size (uxrSessionHeaderOffset_aligned info), seqNumMax_eq,
    fun n m hm => absurd hm (by simp), .start 32768 65535, .refl _ _ _⟩

namespace Agrees

/-- A submessage is written. -/
lemma write (h : s.Agrees info streamIdRaw) (submessageId mode : UInt8) {payload : List UInt8}
    (hadmitted : s.Admitted (.write submessageId mode payload)) :
    (s.step info streamIdRaw (.write submessageId mode payload)).Agrees info streamIdRaw := by
  unfold step
  dsimp only
  split
  · next stream hwrite =>
    obtain ⟨hholds, hmemory, hsize, hoffset, hlast⟩ :=
      h.holds.write hadmitted.1 hadmitted.2 hwrite
    exact ⟨hoffset.trans h.offset_eq, hholds, hlast.trans h.lastSend_eq, h.contents, h.follows,
      hsize ▸ h.inBuffer.trans hmemory⟩
  · exact h

/-- What is held is sent. -/
lemma flash (h : s.Agrees info streamIdRaw) :
    (s.step info streamIdRaw .flash).Agrees info streamIdRaw := by
  unfold step
  dsimp only
  split
  · next stream bytes hflash =>
    obtain ⟨hmemory, hsize, hoffset, hholds, hlast, body, hbytes, hbody⟩ :=
      h.holds.flash h.offset_eq hflash
    have hnext : stream.lastSend = seqOf (65536 + s.sent.length) := by
      rw [hlast, h.lastSend_eq, uxrSeqNumAdd_seqOf, Nat.add_right_comm]
    rw [hnext] at hbytes
    refine ⟨hoffset.trans h.offset_eq, hholds, ?_, fun n m hm => ?_, ?_,
      hsize ▸ h.inBuffer.trans hmemory⟩
    · dsimp only
      rw [hnext, List.length_append, List.length_singleton]
      congr 1
      omega
    · rcases Nat.lt_or_ge n s.sent.length with hlt | hge
      · rw [List.getElem?_append_left hlt] at hm
        exact h.contents n m hm
      · obtain ⟨rfl, rfl⟩ : n = s.sent.length ∧ m = ⟨bytes, s.pending⟩ := by
          rw [List.getElem?_append_right hge] at hm
          have hlength := (List.getElem?_eq_some_iff.mp hm).1
          rw [List.length_singleton] at hlength
          have hn : n = s.sent.length := by omega
          subst hn
          simpa using hm.symm
        exact ⟨body, hbytes, hbody⟩
    · dsimp only
      rw [List.map_append]
      exact h.follows.append _
  · next stream hflash =>
    obtain ⟨hmemory, hsize, hoffset, -, rfl⟩ := h.holds.flash h.offset_eq hflash
    exact h

/-- The Agent reads the number of a message. -/
lemma sequenceNr_eq (h : s.Agrees info streamIdRaw) {i : ℕ} {m : SentMessage}
    (hm : s.sent[i]? = some m) :
    (InputMessage.new m.bytes).header.sequenceNr = seqOf (65536 + i) := by
  obtain ⟨body, hbytes, -⟩ := h.contents i m hm
  have hheader : m.bytes.take (uxrSessionHeaderOffset info) =
      messageHeader info streamIdRaw (seqOf (65536 + i)) := by
    rw [hbytes]
    exact List.take_left' (length_messageHeader _ _ _)
  exact sequenceNr_of_messageHeader hheader

/-- A message arrives. -/
lemma receive (h : s.Agrees info streamIdRaw) {i : ℕ} (hadmitted : s.Admitted (.receive i)) :
    (s.step info streamIdRaw (.receive i)).Agrees info streamIdRaw := by
  unfold step
  dsimp only
  split
  · next m hm =>
    have hlt := (List.getElem?_eq_some_iff.mp hm).1
    have hnumber : (seqOf (65536 + i)).val = (65535 + (i + 1)) % (2 * 32768) := by
      rw [seqOf_val]
      omega
    rw [h.sequenceNr_eq hm]
    unfold BestEffortInputStream.pushMessage
    split
    · next htaken =>
      have hmessage : (s.sent.map SentMessage.bytes)[i]? = some m.bytes := by
        rw [List.getElem?_map, hm]
        rfl
      have hprecedes := (SeqNum.lt_iff_precedes _ _).mp htaken.1
      rw [hnumber] at hprecedes
      have hfollows := h.follows.take (show lateness < 32768 by decide) hmessage hadmitted hprecedes
      refine ⟨h.offset_eq, h.holds, h.lastSend_eq, h.contents, ?_, h.inBuffer⟩
      dsimp only
      rw [← List.append_assoc, List.map_append, List.map_singleton, InputMessage.new_buf, hnumber]
      exact hfollows
    · refine ⟨h.offset_eq, h.holds, h.lastSend_eq, h.contents, ?_, h.inBuffer⟩
      exact h.follows.drop (by rwa [List.length_map])
  · exact h

/-- A message is popped. -/
lemma popMessage (h : s.Agrees info streamIdRaw) :
    (s.step info streamIdRaw .popMessage).Agrees info streamIdRaw := by
  refine ⟨h.offset_eq, h.holds, h.lastSend_eq, h.contents, ?_, h.inBuffer⟩
  have hfollows := h.follows
  unfold step BestEffortInputStream.popMessage
  dsimp only
  split
  · next hnone =>
    dsimp only
    rw [Option.toList_none, List.append_nil]
    exact hfollows
  · next message messages hsome =>
    rw [hsome] at hfollows
    dsimp only
    rw [Option.toList_some, List.append_assoc]
    exact hfollows

/-- Both parties agree after every event. -/
theorem step (h : s.Agrees info streamIdRaw) {e : Event} (hadmitted : s.Admitted e) :
    (s.step info streamIdRaw e).Agrees info streamIdRaw := by
  cases e with
  | write submessageId mode payload => exact h.write submessageId mode hadmitted
  | flash => exact h.flash
  | receive i => exact h.receive hadmitted
  | popMessage => exact h.popMessage

omit [FastCdr] in
/-- Parties that agree keep what they are for. -/
theorem kept (h : s.Agrees info streamIdRaw) : s.Kept info streamIdRaw := by
  have hcontents : ∀ m ∈ s.sent, ∃ seqNum body,
      m.bytes = messageHeader info streamIdRaw seqNum ++ body ∧ LaidOut body m.submessages := by
    intro m hm
    obtain ⟨n, hn⟩ := List.mem_iff_getElem?.mp hm
    obtain ⟨body, hbytes, hbody⟩ := h.contents n m hn
    exact ⟨_, body, hbytes, hbody⟩
  refine ⟨?_, hcontents, fun m hm hlength => ?_,
    fun address haddress => h.inBuffer _ (.inr haddress)⟩
  · have hsublist := h.follows.sublist
    rw [List.map_append] at hsublist
    exact (List.sublist_append_left _ _).trans hsublist
  · obtain ⟨seqNum, body, hbytes, hbody⟩ := hcontents m hm
    have hheader := length_messageHeader info streamIdRaw seqNum
    have haligned : (messageHeader info streamIdRaw seqNum).length % 4 = 0 := by
      rw [hheader, uxrSessionHeaderOffset_aligned]
    have hparses := (hbody.parses hlength).prepend haligned
    rw [hheader, Nat.add_zero, ← hbytes] at hparses
    refine hparses.walkMessage ?_
    rw [hbytes, List.length_append, hheader]
    exact Nat.le_add_right _ _

end Agrees

end ToAgent

/-! ## From the Agent to the client -/

/-- The Agent's output stream and a client's input stream of the same id.  The first `newest` of the
messages that were sent contain all that have arrived. -/
structure ToClient where
  agent : BestEffortOutputStream
  sent : List (List UInt8)
  newest : ℕ
  client : InputBestEffort
  received : List (List UInt8)

namespace ToClient

/-- What the Agent, the channel or the client does. -/
inductive Event where
  | pushSubmessage (submessageId : UInt8) (submessage : List UInt8)
  | popMessage
  | receive (i : ℕ)

section Step

variable (sessionInfo : SessionInfo) (streamId : UInt8) (info : UxrSessionInfo)

/-- The best-effort case of `read_message` and `read_stream`, for a message that may be one of
another session or stream. -/
def readMessage (s : ToClient) (message : List UInt8) : ToClient :=
  match uxrReadSessionHeader info message with
  | some (streamIdRaw, seqNum, _) =>
    if streamIdRaw = streamId then
      match uxrReceiveBestEffortMessage s.client seqNum with
      | (client, true) => { s with client := client, received := s.received ++ [message] }
      | (client, false) => { s with client := client }
    else s
  | none => s

/-- What happens. -/
def step (s : ToClient) : Event → ToClient
  | .pushSubmessage submessageId submessage =>
    { s with agent := (s.agent.pushSubmessage sessionInfo streamId submessageId submessage).1 }
  | .popMessage =>
    { s with
      agent := s.agent.popMessage.1
      sent := s.sent ++ s.agent.popMessage.2.toList }
  | .receive i =>
    match s.sent[i]? with
    | some m => { s.readMessage streamId info m with newest := max s.newest (i + 1) }
    | none => s

/-- No message is later than `lateness` allows. -/
def Admitted (s : ToClient) : Event → Prop
  | .receive i => s.newest ≤ i + 1 + lateness
  | _ => True

instance (s : ToClient) (e : Event) : Decidable (s.Admitted e) := by
  cases e <;> unfold Admitted <;> infer_instance

/-- Both streams are new. -/
def Starts (s : ToClient) : Prop := s = ⟨.reset, [], 0, uxrInitInputBestEffortStream, []⟩

/-- Both parties agree. -/
structure Agrees (s : ToClient) : Prop where
  lastSent_eq : s.agent.lastSent = seqOf (65535 + (s.sent ++ s.agent.messages).length)
  numbered : ∀ n m, (s.sent ++ s.agent.messages)[n]? = some m →
    ∀ r ∈ uxrReadSessionHeader info m, r.2.1 = seqOf (65536 + n)
  follows : SerialFilter.Follows 32768 65535 s.sent s.newest s.client.lastHandled.val s.received

end Step

variable {sessionInfo : SessionInfo} {streamId : UInt8} {info : UxrSessionInfo} {s : ToClient}

/-- What is appended to a message is behind what it holds, and in its room. -/
lemma appendSubmessage_eq_some {message message' : OutputMessage} {submessageId flags : UInt8}
    {data : List UInt8} (h : message.appendSubmessage submessageId data flags = some message') :
    message.bytes <+: message'.bytes ∧ message'.bytes.length ≤ message.len := by
  have hserialize : ∀ {m m' : OutputMessage} {data : List UInt8}, m.serialize data = some m' →
      m.bytes <+: m'.bytes ∧ m'.len = m.len ∧ m'.bytes.length ≤ m.len := by
    intro m m' data hm
    unfold OutputMessage.serialize at hm
    split at hm
    · next hroom =>
      obtain rfl := Option.some.inj hm
      exact ⟨List.prefix_append _ _, rfl, by rwa [List.length_append]⟩
    · cases hm
  have halign : message.bytes <+: message.alignSubmessage.bytes ∧
      message.alignSubmessage.len = message.len := by
    unfold OutputMessage.alignSubmessage
    cases hgap : message.serialize
        (List.replicate ((4 - message.bytes.length % 4) % 4) 0) with
    | none => exact ⟨List.prefix_rfl, rfl⟩
    | some aligned => exact ⟨(hserialize hgap).1, (hserialize hgap).2.1⟩
  unfold OutputMessage.appendSubmessage OutputMessage.appendSubheader at h
  obtain ⟨headed, hheaded, hdata⟩ := Option.bind_eq_some_iff.mp h
  have hfirst := hserialize hheaded
  have hsecond := hserialize hdata
  rw [hfirst.2.1, halign.2] at hsecond
  exact ⟨(halign.1.trans hfirst.1).trans hsecond.1, hsecond.2.2⟩

/-- The client reads the number of a message that the Agent pushed.  One without a header is too
short to be read. -/
lemma seqNum_of_appendSubmessage {seqNum : SeqNum} {message : OutputMessage}
    {submessageId flags : UInt8} {data : List UInt8}
    (h : (OutputMessage.new (ReliableOutputStream.messageHeader sessionInfo streamId seqNum)
      sessionInfo.mtu).appendSubmessage submessageId data flags = some message)
    {r : UInt8 × UxrSeqNum × List UInt8} (hr : uxrReadSessionHeader info message.bytes = some r) :
    r.2.1 = seqNum := by
  obtain ⟨header, hheader⟩ : ∃ header, header =
    ReliableOutputStream.messageHeader sessionInfo streamId seqNum := ⟨_, rfl⟩
  obtain ⟨hbehind, hlength⟩ := appendSubmessage_eq_some h
  rw [← hheader] at hbehind hlength
  by_cases hroom : header.getCdrSerializedSize ≤ sessionInfo.mtu
  · rw [OutputMessage.new_of_room hroom] at hbehind
    have htake : message.bytes.take (ReliableOutputStream.headerSize sessionInfo streamId) =
        (ReliableOutputStream.messageHeader sessionInfo streamId seqNum).serialize := by
      have heq := List.prefix_iff_eq_take.mp hbehind
      rw [MessageHeader.length_serialize, hheader] at heq
      exact heq.symm
    rw [AgentToClient.uxrReadSessionHeader_eq htake hr]
  · have hnew : OutputMessage.new header sessionInfo.mtu = ⟨sessionInfo.mtu, []⟩ := by
      unfold OutputMessage.new OutputMessage.serialize
      rw [if_neg (by simpa using hroom)]
      rfl
    rw [hnew] at hlength
    change message.bytes.length ≤ sessionInfo.mtu at hlength
    have hshort : ¬ message.bytes.length > 8 := by
      rcases header.getCdrSerializedSize_cases with hsize | hsize <;> omega
    unfold uxrReadSessionHeader at hr
    rw [if_neg hshort] at hr
    cases hr

/-- Both parties agree at first. -/
lemma agrees_of_starts (h : Starts s) : s.Agrees info := by
  subst h
  exact ⟨rfl, fun n m hm => absurd hm (by simp [BestEffortOutputStream.reset]),
    .start 32768 65535⟩

namespace Agrees

/-- A submessage is pushed. -/
lemma pushSubmessage (h : s.Agrees info) (submessageId : UInt8) (submessage : List UInt8) :
    (s.step sessionInfo streamId info (.pushSubmessage submessageId submessage)).Agrees info := by
  unfold step BestEffortOutputStream.pushSubmessage
  dsimp only
  split
  · split
    · exact h
    · split
      · next message hmessage =>
        rw [h.lastSent_eq, SeqNum.addInt_seqOf _ (show 1 ≤ 32767 by decide)] at hmessage ⊢
        refine ⟨?_, fun n m hm r hr => ?_, h.follows⟩
        · show seqOf (65535 + (s.sent ++ s.agent.messages).length + 1) =
            seqOf (65535 + (s.sent ++ (s.agent.messages ++ [message.bytes])).length)
          have hlength : (s.sent ++ s.agent.messages ++ [message.bytes]).length =
              (s.sent ++ s.agent.messages).length + 1 := List.length_append
          rw [← List.append_assoc, hlength]
          rfl
        · dsimp only at hm
          rw [← List.append_assoc] at hm
          rcases Nat.lt_or_ge n (s.sent ++ s.agent.messages).length with hlt | hge
          · rw [List.getElem?_append_left hlt] at hm
            exact h.numbered n m hm r hr
          · rw [List.getElem?_append_right hge] at hm
            have hlength := (List.getElem?_eq_some_iff.mp hm).1
            rw [List.length_singleton] at hlength
            obtain rfl : n = (s.sent ++ s.agent.messages).length := by omega
            rw [Nat.sub_self, List.getElem?_cons_zero] at hm
            obtain rfl := Option.some.inj hm
            rw [seqNum_of_appendSubmessage hmessage hr]
            congr 1
            omega
      · exact h
  · exact h

/-- A message is sent. -/
lemma popMessage (h : s.Agrees info) :
    (s.step sessionInfo streamId info .popMessage).Agrees info := by
  unfold step BestEffortOutputStream.popMessage
  dsimp only
  split
  · dsimp only
    rw [Option.toList_none, List.append_nil]
    exact h
  · next message messages hmessages =>
    have hlast := h.lastSent_eq
    have hnumbered := h.numbered
    rw [hmessages] at hlast hnumbered
    dsimp only
    rw [Option.toList_some]
    refine ⟨?_, ?_, h.follows.append _⟩
    · rw [List.append_assoc]
      exact hlast
    · rw [List.append_assoc]
      exact hnumbered

/-- A message arrives. -/
lemma receive (h : s.Agrees info) {i : ℕ} (hadmitted : s.Admitted (.receive i)) :
    (s.step sessionInfo streamId info (.receive i)).Agrees info := by
  unfold step
  dsimp only
  split
  · next m hm =>
    have hlt := (List.getElem?_eq_some_iff.mp hm).1
    have hdrop : Agrees info { s with newest := max s.newest (i + 1) } :=
      ⟨h.lastSent_eq, h.numbered, h.follows.drop hlt⟩
    unfold readMessage
    split
    · next streamIdRaw seqNum body hread =>
      split
      · have hseqNum : seqNum = seqOf (65536 + i) :=
          h.numbered i m (by rw [List.getElem?_append_left hlt, hm]) _ hread
        have hnumber : (seqOf (65536 + i)).val = (65535 + (i + 1)) % (2 * 32768) := by
          rw [seqOf_val]
          omega
        rw [hseqNum]
        unfold uxrReceiveBestEffortMessage
        by_cases htaken : 0 > uxrSeqNumCmp s.client.lastHandled (seqOf (65536 + i))
        · rw [if_pos htaken]
          rw [uxrSeqNumCmp_neg_iff, hnumber] at htaken
          have hfollows := h.follows.take (show lateness < 32768 by decide) hm hadmitted htaken
          rw [← hnumber] at hfollows
          exact ⟨h.lastSent_eq, h.numbered, hfollows⟩
        · rw [if_neg htaken]
          exact hdrop
      · exact hdrop
    · exact hdrop
  · exact h

/-- Both parties agree after every event. -/
theorem step (h : s.Agrees info) {e : Event} (hadmitted : s.Admitted e) :
    (s.step sessionInfo streamId info e).Agrees info := by
  cases e with
  | pushSubmessage submessageId submessage => exact h.pushSubmessage submessageId submessage
  | popMessage => exact h.popMessage
  | receive i => exact h.receive hadmitted

end Agrees

end ToClient

/-! ## Both directions -/

/-- In every run in which no submessage that has room ends beyond what a `uint32_t` reaches, the
Agent pops and the client takes a part of what was sent, in order and nothing twice, and every
message of the client is the submessages that were accepted since the one before. -/
theorem bestEffort_kept [FastCdr] (info : UxrSessionInfo) (streamIdRaw : UInt8)
    (sessionInfo : SessionInfo) (streamId : UInt8) :
    (∀ s, Transition.Reaches (ToAgent.Starts info) (ToAgent.step info streamIdRaw)
      ToAgent.Admitted s → s.Kept info streamIdRaw) ∧
    ∀ s, Transition.Reaches ToClient.Starts (ToClient.step sessionInfo streamId info)
      ToClient.Admitted s → s.received.Sublist s.sent := by
  refine ⟨fun s hrun => ?_, fun s hrun => ?_⟩
  · have hagrees := hrun.invariant (I := fun s => s.Agrees info streamIdRaw)
      (fun _ hstarts => ToAgent.agrees_of_starts hstarts)
      (fun _ _ h hadmitted => h.step hadmitted)
    exact hagrees.kept
  · have hagrees := hrun.invariant (I := fun s => s.Agrees info)
      (fun _ hstarts => ToClient.agrees_of_starts hstarts)
      (fun _ _ h hadmitted => h.step hadmitted)
    exact hagrees.follows.sublist

/-- New streams with a buffer of zeros, after some events. -/
def ToAgent.after (size : ℕ) (events : List ToAgent.Event) : ToAgent :=
  events.foldl (ToAgent.step keylessSession 1)
    ⟨fun _ => 0, uxrInitOutputBestEffortStream (fun _ => 0) size
      (uxrSessionHeaderOffset keylessSession), [], [], 0, .reset, []⟩

/-- New streams, after some events. -/
def ToClient.after (events : List ToClient.Event) : ToClient :=
  events.foldl (ToClient.step (ReliableOutputStream.sessionOfMtu 64) 1 keylessSession)
    ⟨.reset, [], 0, uxrInitInputBestEffortStream, []⟩

/-- Three messages of the client, one of them with two submessages: the first one arrives twice, the
second one never, and again the first one after the third. -/
def ToAgent.lossyEvents : List ToAgent.Event :=
  [.write 7 0 [1, 2, 3], .flash, .write 7 0 [4], .flash, .receive 0, .receive 0, .popMessage,
    .write 7 0 [5, 6], .write 8 0 [7], .flash, .receive 2, .receive 0, .popMessage, .popMessage]

/-- Three messages of the Agent, which arrive in the same way. -/
def ToClient.lossyEvents : List ToClient.Event :=
  [.pushSubmessage 7 [1, 2, 3], .popMessage, .pushSubmessage 7 [4], .popMessage,
    .pushSubmessage 9 [5, 6], .popMessage, .receive 0, .receive 0, .receive 2, .receive 0]

/-- What arrives is popped and taken once, in order.  The padding behind a submessage of the client
is what its buffer held before. -/
theorem bestEffort_kept_after :
    ((ToAgent.after 64 ToAgent.lossyEvents).popped.map InputMessage.buf =
        [[128, 1, 0, 0, 7, 1, 3, 0, 1, 2, 3, 0],
          [128, 1, 2, 0, 7, 1, 2, 0, 5, 6, 3, 0, 8, 1, 1, 0, 7, 0, 0, 0]] ∧
      (ToAgent.after 64 ToAgent.lossyEvents).Kept keylessSession 1) ∧
    (ToClient.after ToClient.lossyEvents).received =
        [[128, 1, 0, 0, 7, 1, 3, 0, 1, 2, 3], [128, 1, 2, 0, 9, 1, 2, 0, 5, 6]] ∧
      (ToClient.after ToClient.lossyEvents).received.Sublist
        (ToClient.after ToClient.lossyEvents).sent := by
  obtain ⟨htoAgent, htoClient⟩ :=
    bestEffort_kept keylessSession 1 (ReliableOutputStream.sessionOfMtu 64) 1
  have hagent : Transition.Reaches (ToAgent.Starts keylessSession) (ToAgent.step keylessSession 1)
      ToAgent.Admitted (ToAgent.after 64 []) := .start ⟨_, 64, rfl⟩
  have hclient : Transition.Reaches ToClient.Starts
      (ToClient.step (ReliableOutputStream.sessionOfMtu 64) 1 keylessSession) ToClient.Admitted
      (ToClient.after []) := .start rfl
  have hadmitted : Transition.AdmittedAll (ToAgent.step keylessSession 1) ToAgent.Admitted
      (ToAgent.after 64 []) ToAgent.lossyEvents := by decide
  have hadmitted' : Transition.AdmittedAll
      (ToClient.step (ReliableOutputStream.sessionOfMtu 64) 1 keylessSession) ToClient.Admitted
      (ToClient.after []) ToClient.lossyEvents := by decide
  exact ⟨⟨by decide, htoAgent _ (hagent.foldl _ hadmitted)⟩, by decide,
    htoClient _ (hclient.foldl _ hadmitted')⟩

/-- With a buffer of 2^32 bytes, a submessage that ends where the buffer does is accepted, and the
message that is sent has zeros in its place. -/
theorem bestEffort_fails : ¬ ∀ s, Transition.Reaches (ToAgent.Starts keylessSession)
    (ToAgent.step keylessSession 1) ToAgent.Possible s → s.Kept keylessSession 1 := by
  intro h
  obtain ⟨payload, hlength⟩ : ∃ payload : List UInt8, payload.length = 4294967288 :=
    ⟨List.replicate 4294967288 0, List.length_replicate⟩
  have hstart : Transition.Reaches (ToAgent.Starts keylessSession) (ToAgent.step keylessSession 1)
      ToAgent.Possible (ToAgent.after 4294967296 []) := .start ⟨_, _, rfl⟩
  have hsize : submessageSize payload.length = 4294967292 := by
    rw [hlength]
    rfl
  have hpossible : (ToAgent.after 4294967296 []).Possible (.write 7 0 payload) := by
    show 4294967296 + 4 + payload.length + 16 ≤ 18446744073709551616
    omega
  have hflash : ∀ s : ToAgent, s.Possible .flash := fun _ => trivial
  have hwrite : (ToAgent.after 4294967296 []).stream.write 7 0 payload =
      some { (ToAgent.after 4294967296 []).stream with writer := 4294967296 } := by
    rw [OutputBestEffort.write_of_overrun rfl]
    · show some (OutputBestEffort.mk _ (4 + submessageSize payload.length) _ _ _) = _
      rw [hsize]
    · show 4 + submessageSize payload.length ≤ 4294967296
      omega
    · show 4 + submessageSize payload.length < 18446744073709551616
      omega
    · show (4 + submessageSize payload.length) % 4294967296 ≤ 4 % 4294967296
      omega
  have hkept := h _ ((hstart.next hpossible).next (hflash _))
  have hwritten : ToAgent.step keylessSession 1 (ToAgent.after 4294967296 [])
      (.write 7 0 payload) = { ToAgent.after 4294967296 [] with
        stream := { (ToAgent.after 4294967296 []).stream with writer := 4294967296 }
        pending := [⟨7, 1, payload⟩] } := by
    unfold ToAgent.step
    dsimp only
    rw [hwrite]
    rfl
  rw [hwritten] at hkept
  -- The message that is sent.
  have hsent : (⟨read (ByteMemory.write (fun _ => 0) 0 (messageHeader keylessSession 1 0)) 0
      4294967296, [⟨7, 1, payload⟩]⟩ : SentMessage) ∈ (ToAgent.step keylessSession 1
      { ToAgent.after 4294967296 [] with
        stream := { (ToAgent.after 4294967296 []).stream with writer := 4294967296 }
        pending := [⟨7, 1, payload⟩] } .flash).sent := by
    unfold ToAgent.step
    dsimp only
    rw [OutputBestEffort.flash_of_lt _ _ (show 4 < 4294967296 by decide)]
    exact .head _
  obtain ⟨seqNum, body, hmessage, padding, rest, -, rfl, -⟩ := hkept.contents _ hsent
  dsimp only at hmessage
  have hseven : (messageHeader keylessSession 1 seqNum ++
    (AcceptedSubmessage.bytes ⟨7, 1, payload⟩ ++
      padding ++ rest))[4]? = some 7 := rfl
  have hlt : 4 < (read (ByteMemory.write (fun _ => 0) 0 (messageHeader keylessSession 1 0)) 0
      4294967296).length := by
    rw [length_read]
    decide
  have hzero : ByteMemory.write (fun _ => 0) 0 (messageHeader keylessSession 1 0) (0 + 4) = 0 :=
    write_apply_of_le _ (show 0 + 4 ≤ 0 + 4 by decide)
  rw [← hmessage, List.getElem?_eq_getElem hlt, getElem_read, hzero] at hseven
  exact absurd (Option.some.inj hseven) (by decide)

end BestEffort

end XrceDds
