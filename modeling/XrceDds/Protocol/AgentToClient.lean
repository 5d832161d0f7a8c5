import XrceDds.Agent.OutputInvariant
import XrceDds.Client.InputWindow
import XrceDds.Client.OutputSafety
import XrceDds.Lib.Transition

/-!
# The reliable stream from the Agent to the client

The Agent's output stream and the client's input stream of the same id, with the channels
between them.  Both channels keep every message that was put on them, and deliver any of
them at any time, as often as they like or never.

The client's `uxr_compute_acknack` looks at slots, not at numbers.  It acknowledges the number
of messages that were handed over, since the slot of the next one is empty whenever an ACKNACK
is computed (`InputWindow.firstUnacked_eq`).  So what the Agent erases was handed over, and
what was not is still in `messages_` (`agentToClient_delivers`).
-/

namespace XrceDds

open ByteMemory

/-- `Processor::process_acknack_submessage`: the stream, and the messages that are sent again. -/
def processAcknackSubmessage (stream : ReliableOutputStream) (firstMessage : SeqNum)
    (nackBitmap : ℕ) : ReliableOutputStream × List (List UInt8) :=
  (stream.updateFromAcknack firstMessage,
    (List.range 8).flatMap fun i =>
      (if (nackBitmap % 256).testBit i then
        (stream.getMessage (seqOf (firstMessage.val + i))).toList else []) ++
      (if (nackBitmap / 256).testBit i then
        (stream.getMessage (seqOf (firstMessage.val + i + 8))).toList else []))

/-- The Agent's output stream and the client's input stream of the same id.  Messages on the
channels carry the number of messages that were pushed by then. -/
structure AgentToClient where
  agent : ReliableOutputStream
  pushed : List (List UInt8)
  client : InputReliableStream
  handed : List (List UInt8)
  messages : List (ℕ × List UInt8)
  heartbeats : List (ℕ × SeqNum × SeqNum)
  acknacks : List (ℕ × UxrSeqNum × ℕ)

/-- What is sent again is in the map. -/
lemma mem_processAcknackSubmessage {stream : ReliableOutputStream} {firstMessage : SeqNum}
    {nackBitmap : ℕ} {m : List UInt8}
    (h : m ∈ (processAcknackSubmessage stream firstMessage nackBitmap).2) :
    ∃ key, stream.messages key = some m := by
  obtain ⟨i, -, hm⟩ := List.mem_flatMap.mp h
  rcases List.mem_append.mp hm with hlow | hhigh
  · split at hlow
    · exact ⟨_, Option.mem_toList.mp hlow⟩
    · exact absurd hlow (by simp)
  · split at hhigh
    · exact ⟨_, Option.mem_toList.mp hhigh⟩
    · exact absurd hhigh (by simp)

namespace AgentToClient

/-- What the Agent or the client does. -/
inductive Event where
  | pushSubmessage (submessageId : UInt8) (submessage : List UInt8)
  | getNextMessage
  | fillHeartbeat
  | receive (i : ℕ)
  | receiveHeartbeat (i : ℕ)
  | computeAcknack
  | receiveAcknack (i : ℕ)

section Step

variable (sessionInfo : SessionInfo) (streamId : UInt8) (info : UxrSessionInfo)

/-- The client writes an ACKNACK. -/
def acknack (s : AgentToClient) : AgentToClient :=
  { s with acknacks := s.acknacks ++ [(s.pushed.length, uxrComputeAcknack s.client)] }

/-- The client reads a message: it may be one of another session or stream. -/
def readMessage (s : AgentToClient) (message : List UInt8) : AgentToClient :=
  match uxrReadSessionHeader info message with
  | some (streamIdRaw, seqNum, buffer) =>
    if streamIdRaw = streamId then
      match readStream s.client seqNum buffer with
      | some (client, handed) =>
        acknack { s with
          client := client
          handed := s.handed ++ handed }
      | none => s
    else s
  | none => s

/-- What happens. -/
def step (s : AgentToClient) : Event → AgentToClient
  | .pushSubmessage submessageId submessage =>
    match s.agent.pushSubmessage sessionInfo streamId submessageId submessage
      (4 + submessage.length) with
    | some (.returned _ stream) =>
      { s with
        agent := stream
        pushed := s.pushed ++ ReliableOutputStream.pushedBetween s.agent stream }
    | _ => s
  | .getNextMessage =>
    { s with
      agent := s.agent.getNextMessage.1
      messages := s.messages ++ s.agent.getNextMessage.2.toList.map fun m => (s.pushed.length, m) }
  | .fillHeartbeat =>
    if s.agent.heartbeatNeeded then
      { s with heartbeats := s.heartbeats ++ [(s.pushed.length, s.agent.fillHeartbeat)] }
    else s
  | .receive i =>
    match s.messages[i]? with
    | some (_, message) => s.readMessage streamId info message
    | none => s
  | .receiveHeartbeat i =>
    match s.heartbeats[i]? with
    | some (_, first, last) => acknack { s with client := uxrProcessHeartbeat s.client first last }
    | none => s
  | .computeAcknack => s.acknack
  | .receiveAcknack i =>
    match s.acknacks[i]? with
    | some (_, first, nackBitmap) =>
      { s with
        agent := (processAcknackSubmessage s.agent first nackBitmap).1
        messages := s.messages ++ (processAcknackSubmessage s.agent first nackBitmap).2.map
          fun m => (s.pushed.length, m) }
    | none => s

/-- What a message may be late by: this many messages are pushed after it was put on the
channel. -/
def lateness : ℕ := 16384

/-- A submessage fits the MTU and the client's slots, and no message arrives later than
`lateness` allows. -/
def Admitted (s : AgentToClient) : Event → Prop
  | .pushSubmessage submessageId submessage => submessageId ≠ fragmentId ∧
    ReliableOutputStream.headerSize sessionInfo streamId + (4 + submessage.length) ≤
      sessionInfo.mtu ∧
    4 + submessage.length ≤ uxrGetReliableBufferCapacity s.client.base
  | .receive i => ∀ e ∈ s.messages[i]?, s.pushed.length ≤ e.1 + lateness
  | .receiveHeartbeat i => ∀ e ∈ s.heartbeats[i]?, s.pushed.length ≤ e.1 + lateness
  | .receiveAcknack i => ∀ e ∈ s.acknacks[i]?, s.pushed.length ≤ e.1 + lateness
  | _ => True

instance (s : AgentToClient) (e : Event) : Decidable (s.Admitted sessionInfo streamId e) :=
  match e with
  | .pushSubmessage submessageId submessage => inferInstanceAs
    (Decidable (submessageId ≠ fragmentId ∧
      ReliableOutputStream.headerSize sessionInfo streamId + (4 + submessage.length) ≤
        sessionInfo.mtu ∧
      4 + submessage.length ≤ uxrGetReliableBufferCapacity s.client.base))
  | .receive i => inferInstanceAs
    (Decidable (∀ e ∈ s.messages[i]?, s.pushed.length ≤ e.1 + lateness))
  | .receiveHeartbeat i =>
    inferInstanceAs (Decidable (∀ e ∈ s.heartbeats[i]?, s.pushed.length ≤ e.1 + lateness))
  | .receiveAcknack i =>
    inferInstanceAs (Decidable (∀ e ∈ s.acknacks[i]?, s.pushed.length ≤ e.1 + lateness))
  | .getNextMessage | .fillHeartbeat | .computeAcknack => inferInstanceAs (Decidable True)

/-- Both streams are new, the client's history is a power of two, and the MTU is a `uint16_t`. -/
def Starts (s : AgentToClient) : Prop :=
  sessionInfo.mtu < 65536 ∧ ∃ base : ReliableStream, (∃ k < 14, base.history = 2 ^ k) ∧
    s = ⟨.reset, [], uxrInitInputReliableStream base, [], [], [], []⟩

end Step

variable {sessionInfo : SessionInfo} {streamId : UInt8} {info : UxrSessionInfo}

/-- The message behind its session header. -/
def body (sessionInfo : SessionInfo) (streamId : UInt8) (message : List UInt8) : List UInt8 :=
  message.drop (ReliableOutputStream.headerSize sessionInfo streamId)

/-- The client reads the header that the Agent wrote. -/
lemma uxrReadSessionHeader_eq {m : List UInt8} {seqNum : SeqNum}
    (h : m.take (ReliableOutputStream.headerSize sessionInfo streamId) =
      (ReliableOutputStream.messageHeader sessionInfo streamId seqNum).serialize)
    {r : UInt8 × UxrSeqNum × List UInt8} (hr : uxrReadSessionHeader info m = some r) :
    r = (streamId, seqNum, body sessionInfo streamId m) := by
  obtain ⟨rest, hm⟩ : ∃ rest, m =
      (ReliableOutputStream.messageHeader sessionInfo streamId seqNum).serialize ++ rest :=
    ⟨body sessionInfo streamId m, by rw [← h]; exact (List.take_append_drop _ m).symm⟩
  have hvalue : decodeLE (encodeLE 2 seqNum.val) = seqNum.val :=
    decodeLE_encodeLE_of_lt seqNum.isLt
  have hbytes : m = sessionInfo.sessionId :: streamId :: (encodeLE 2 seqNum.val ++
      ((if 128 > sessionInfo.sessionId then sessionInfo.clientKey else []) ++ rest)) := by
    rw [hm]
    unfold MessageHeader.serialize ReliableOutputStream.messageHeader
    simp only [List.cons_append, List.nil_append, List.append_assoc]
  have hseq : (m.drop 2).take 2 = encodeLE 2 seqNum.val := by
    rw [hbytes]
    exact List.take_left' (length_encodeLE _ _)
  have hsize : ReliableOutputStream.headerSize sessionInfo streamId =
      if sessionIdWithoutClientKey > sessionInfo.sessionId then 8 else 4 := rfl
  unfold uxrReadSessionHeader at hr
  dsimp only at hr
  rw [hseq, hvalue, seqOf_self] at hr
  split at hr
  · split at hr
    · obtain rfl := Option.some.inj hr
      unfold body
      rw [hsize, hbytes]
      rfl
    · exact absurd hr (by simp)
  · exact absurd hr (by simp)

/-! ## The channels -/

/-- What is on the channels when the client has handed over `n` of the messages `pushed`.  At
most sixteen messages wait to be acknowledged, so that what is sent is at most that old. -/
structure InFlight (pushed : List (List UInt8)) (n : ℕ) (messages : List (ℕ × List UInt8))
    (heartbeats : List (ℕ × SeqNum × SeqNum)) (acknacks : List (ℕ × UxrSeqNum × ℕ)) : Prop where
  messages : ∀ e ∈ messages, ∃ k, pushed[k]? = some e.2 ∧ e.1 ≤ k + 16
  heartbeats : ∀ e ∈ heartbeats, e.1 ≤ pushed.length ∧ e.2.2 = seqOf (65535 + e.1)
  acknacks : ∀ e ∈ acknacks, ∃ c ≤ n, e.1 ≤ c + 16 ∧ e.2.1 = seqOf c

section Channels

variable {pushed : List (List UInt8)} {n : ℕ} {messages : List (ℕ × List UInt8)}
  {heartbeats : List (ℕ × SeqNum × SeqNum)} {acknacks : List (ℕ × UxrSeqNum × ℕ)}
  (h : InFlight pushed n messages heartbeats acknacks)

include h

/-- What is on the channels stays so when more is pushed and handed over. -/
lemma InFlight.mono (extra : List (List UInt8)) {n' : ℕ} (hn : n ≤ n') :
    InFlight (pushed ++ extra) n' messages heartbeats acknacks where
  messages e he := by
    obtain ⟨k, hk, hle⟩ := h.messages e he
    exact ⟨k, by rw [List.getElem?_append_left (List.getElem?_eq_some_iff.mp hk).1, hk], hle⟩
  heartbeats e he := by
    rw [List.length_append]
    exact (h.heartbeats e he).imp_left Nat.le_add_right_of_le
  acknacks e he := by
    obtain ⟨c, hc, hle⟩ := h.acknacks e he
    exact ⟨c, hc.trans hn, hle⟩

/-- Messages are sent, for the first time or again. -/
lemma InFlight.send {sent : List (List UInt8)}
    (hsent : ∀ m ∈ sent, ∃ k, pushed[k]? = some m ∧ pushed.length ≤ k + 16) :
    InFlight pushed n (messages ++ sent.map fun m => (pushed.length, m)) heartbeats acknacks where
  messages e he := by
    rcases List.mem_append.mp he with hold | hnew
    · exact h.messages e hold
    · obtain ⟨m, hm, rfl⟩ := List.mem_map.mp hnew
      exact hsent m hm
  heartbeats := h.heartbeats
  acknacks := h.acknacks

/-- A heartbeat is sent. -/
lemma InFlight.heartbeat {first last : SeqNum} (hlast : last = seqOf (65535 + pushed.length)) :
    InFlight pushed n messages (heartbeats ++ [(pushed.length, first, last)]) acknacks where
  messages := h.messages
  heartbeats e he := by
    rcases List.mem_append.mp he with hold | hnew
    · exact h.heartbeats e hold
    · obtain rfl := List.mem_singleton.mp hnew
      exact ⟨le_rfl, hlast⟩
  acknacks := h.acknacks

/-- An ACKNACK is sent. -/
lemma InFlight.acknack {first : UxrSeqNum} (hfirst : first = seqOf n) (nackBitmap : ℕ)
    (hle : pushed.length ≤ n + 16) :
    InFlight pushed n messages heartbeats (acknacks ++ [(pushed.length, first, nackBitmap)]) where
  messages := h.messages
  heartbeats := h.heartbeats
  acknacks e he := by
    rcases List.mem_append.mp he with hold | hnew
    · exact h.acknacks e hold
    · obtain rfl := List.mem_singleton.mp hnew
      exact ⟨n, le_rfl, hle, hfirst⟩

end Channels

/-! ## The two parties -/

/-- Both parties agree when `F` messages are acknowledged and `n` are handed over. -/
structure Agrees (sessionInfo : SessionInfo) (streamId : UInt8) (s : AgentToClient)
    (F n announced : ℕ) : Prop where
  agent : ∃ sent, ReliableOutputStream.Holds s.agent F sent (s.pushed.drop F)
  pushed_le : s.pushed.length ≤ F + 16
  acknowledged_le : F ≤ n
  window : InputWindow (s.pushed.map (body sessionInfo streamId)) s.client n announced
  empty : uxrGetReliableBufferSize s.client.base (seqOf n) = 0
  history_le : s.client.base.history ≤ 8192
  handed : s.handed = (s.pushed.map (body sessionInfo streamId)).take n
  header : ∀ k m, s.pushed[k]? = some m →
    m.take (ReliableOutputStream.headerSize sessionInfo streamId) =
      (ReliableOutputStream.messageHeader sessionInfo streamId (seqOf k)).serialize
  inFlight : InFlight s.pushed n s.messages s.heartbeats s.acknacks

namespace Agrees

variable {s : AgentToClient} {F n announced : ℕ}

/-- No more is handed over than was pushed. -/
lemma handed_le (h : s.Agrees sessionInfo streamId F n announced) : n ≤ s.pushed.length := by
  have := h.window.handled_le.trans h.window.announced_le
  rwa [List.length_map] at this

/-- What the Agent's map holds was pushed and is not acknowledged. -/
lemma getMessage (h : s.Agrees sessionInfo streamId F n announced) {key : SeqNum} {m : List UInt8}
    (hm : s.agent.messages key = some m) :
    ∃ k, s.pushed[k]? = some m ∧ s.pushed.length ≤ k + 16 := by
  obtain ⟨sent, hholds⟩ := h.agent
  have hlt := (hholds.messages_ne_none_iff key).mp (by rw [hm]; exact Option.some_ne_none m)
  have hstored := hholds.stored _ hlt
  rw [seqOf_add_seqSteps, hm] at hstored
  have hle := h.pushed_le
  refine ⟨F + seqSteps (seqOf F) key, ?_, by omega⟩
  rw [← List.getElem?_drop, List.getElem?_eq_getElem hlt]
  exact hstored.symm

/-- The client writes an ACKNACK. -/
lemma acknack (h : s.Agrees sessionInfo streamId F n announced) :
    s.acknack.Agrees sessionInfo streamId F n announced where
  agent := h.agent
  pushed_le := h.pushed_le
  acknowledged_le := h.acknowledged_le
  window := h.window
  empty := h.empty
  history_le := h.history_le
  handed := h.handed
  header := h.header
  inFlight := h.inFlight.acknack (h.window.firstUnacked_eq h.empty) _
    (h.pushed_le.trans (Nat.add_le_add_right h.acknowledged_le _))

/-- The Agent sends the next message. -/
lemma getNextMessage (h : s.Agrees sessionInfo streamId F n announced) :
    (s.step sessionInfo streamId info .getNextMessage).Agrees sessionInfo streamId F n
      announced := by
  obtain ⟨sent, hholds⟩ := h.agent
  obtain ⟨hmessage, hnext⟩ := hholds.getNextMessage
  refine { h with agent := ⟨_, hnext⟩, inFlight := h.inFlight.send fun m hm => ?_ }
  rw [hmessage, Option.mem_toList, List.getElem?_drop] at hm
  have hle := h.pushed_le
  exact ⟨F + sent, hm, by omega⟩

/-- The Agent sends a heartbeat. -/
lemma fillHeartbeat (h : s.Agrees sessionInfo streamId F n announced) :
    (s.step sessionInfo streamId info .fillHeartbeat).Agrees sessionInfo streamId F n
      announced := by
  obtain ⟨sent, hholds⟩ := h.agent
  have hlast : s.agent.fillHeartbeat.2 = seqOf (65535 + s.pushed.length) := by
    have hle := h.handed_le
    have hle' := h.acknowledged_le
    change s.agent.lastUnacked = _
    rw [hholds.lastUnacked_eq, List.length_drop]
    congr 1
    omega
  unfold step
  dsimp only
  split
  · exact { h with inFlight := h.inFlight.heartbeat hlast }
  · exact h

/-- The Agent pushes a message that fits the MTU and the client's slots. -/
lemma pushSubmessage (h : s.Agrees sessionInfo streamId F n announced)
    (hmtu : sessionInfo.mtu < 65536) {submessageId : UInt8} {submessage : List UInt8}
    (hadmitted : s.Admitted sessionInfo streamId (.pushSubmessage submessageId submessage)) :
    (s.step sessionInfo streamId info (.pushSubmessage submessageId submessage)).Agrees
      sessionInfo streamId F n announced := by
  obtain ⟨hid, hfits, hslot⟩ := hadmitted
  obtain ⟨sent, hholds⟩ := h.agent
  have hle := h.pushed_le
  have hF := h.acknowledged_le.trans h.handed_le
  have hlength : (s.pushed.drop F).length = s.pushed.length - F := List.length_drop
  unfold step
  dsimp only
  by_cases hroom : s.agent.HasRoom
  · have hshort := hholds.hasRoom_iff.mp hroom
    obtain ⟨header, hheader⟩ : ∃ header, header =
        (ReliableOutputStream.messageHeader sessionInfo streamId
          (seqOf (s.agent.lastUnacked.val + 1))).serialize := ⟨_, rfl⟩
    obtain ⟨data, hdata⟩ : ∃ data, data =
        (ReliableOutputStream.submessageHeader submessageId submessage).serialize ++ submessage :=
      ⟨_, rfl⟩
    have hsize : header.length = ReliableOutputStream.headerSize sessionInfo streamId := by
      rw [hheader]
      exact ReliableOutputStream.length_messageHeader _
    have hnext : seqOf (s.agent.lastUnacked.val + 1) = seqOf s.pushed.length := by
      have := hholds.seqOf_behind 0
      simp only [Nat.add_zero] at this
      rwa [hlength, Nat.add_sub_of_le hF] at this
    have happends := ReliableOutputStream.appendAll_appends s.agent [header ++ data]
      (by simp) fun k hk => hholds.fresh (by rw [List.length_singleton] at hk; omega)
    have hbody : body sessionInfo streamId (header ++ data) = data := by
      unfold body
      rw [← hsize, List.drop_left]
    have hplain : PlainBody (uxrGetReliableBufferCapacity s.client.base) data := by
      rw [hdata]
      refine ⟨?_, ?_, ?_⟩
      · rw [ReliableOutputStream.length_buf]
        exact Nat.le_add_right _ _
      · rwa [ReliableOutputStream.length_buf]
      · rw [onGetFragmentationInfo_take]
        exact if_neg fun heq => hid heq.symm
    rw [ReliableOutputStream.pushSubmessage_fits hroom hfits hmtu, List.append_assoc, ← hheader,
      ← hdata]
    dsimp only
    rw [happends.pushedBetween_eq (by simp)]
    refine ⟨⟨sent, ?_⟩, ?_, h.acknowledged_le, ?_, h.empty, h.history_le, ?_, fun k m hm => ?_,
      h.inFlight.mono _ le_rfl⟩
    · rw [List.drop_append_of_le_length hF]
      exact hholds.append happends (by rw [List.length_singleton]; omega)
        (by rw [List.length_singleton]; omega)
    · rw [List.length_append, List.length_singleton]
      omega
    · rw [List.map_append, List.map_singleton, hbody]
      exact h.window.append hplain
    · rw [h.handed, List.map_append, List.take_append_of_le_length]
      rw [List.length_map]
      exact h.handed_le
    · rcases Nat.lt_or_ge k s.pushed.length with hold | hnew
      · exact h.header k m (by rwa [List.getElem?_append_left hold] at hm)
      · rw [List.getElem?_append_right hnew, List.getElem?_singleton] at hm
        split at hm
        · next hzero =>
          obtain rfl : k = s.pushed.length := by omega
          rw [← Option.some.inj hm, ← hsize, List.take_left, hheader, hnext]
        · exact absurd hm (by simp)
  · have hpush : s.agent.pushSubmessage sessionInfo streamId submessageId submessage
        (4 + submessage.length) = some (.returned false s.agent) := if_neg hroom
    rw [hpush]
    dsimp only
    rw [ReliableOutputStream.pushedBetween_self, List.append_nil]
    exact h

/-- The client reads a message of the channel. -/
lemma receive (h : s.Agrees sessionInfo streamId F n announced) {i : ℕ}
    (hadmitted : s.Admitted sessionInfo streamId (.receive i)) :
    ∃ n' announced', (s.step sessionInfo streamId info (.receive i)).Agrees sessionInfo streamId
      F n' announced' := by
  unfold step
  dsimp only
  split
  · next stamp message he =>
    obtain ⟨k, hk, hstamp⟩ := h.inFlight.messages _ (List.mem_of_getElem? he)
    have hlate : s.pushed.length ≤ stamp + lateness := hadmitted _ he
    have hle := h.pushed_le
    have hF := h.acknowledged_le
    have hhistory := h.history_le
    unfold lateness at hlate
    dsimp only at hk hstamp
    have hbody : (s.pushed.map (body sessionInfo streamId))[k]? =
        some (body sessionInfo streamId message) := by
      rw [List.getElem?_map, hk, Option.map_some]
    have hlength : (s.pushed.map (body sessionInfo streamId)).length = s.pushed.length :=
      List.length_map _
    obtain ⟨client, n', announced', hn, hread, hwindow, hempty, hsame⟩ :=
      h.window.readStream h.empty hbody (by omega) (by omega)
    unfold readMessage
    split
    · next streamIdRaw seqNum buffer hheader =>
      have heq := uxrReadSessionHeader_eq (h.header k message hk) hheader
      simp only [Prod.mk.injEq] at heq
      obtain ⟨rfl, rfl, rfl⟩ := heq
      rw [if_pos rfl, hread]
      refine ⟨n', announced', Agrees.acknack ⟨h.agent, hle, hF.trans hn, hwindow, hempty, ?_, ?_,
        h.header, ?_⟩⟩
      · exact hsame.trans_le hhistory
      · dsimp only
        have hsplit := List.take_append_drop n
          ((s.pushed.map (body sessionInfo streamIdRaw)).take n')
        rw [List.take_take, min_eq_left hn] at hsplit
        rw [h.handed, hsplit]
      · have := h.inFlight.mono [] hn
        rwa [List.append_nil] at this
    · exact ⟨n, announced, h⟩
  · exact ⟨n, announced, h⟩

/-- The client reads a heartbeat of the channel. -/
lemma receiveHeartbeat (h : s.Agrees sessionInfo streamId F n announced) {i : ℕ}
    (hadmitted : s.Admitted sessionInfo streamId (.receiveHeartbeat i)) :
    ∃ announced', (s.step sessionInfo streamId info (.receiveHeartbeat i)).Agrees sessionInfo
      streamId F n announced' := by
  unfold step
  dsimp only
  split
  · next stamp first last he =>
    obtain ⟨hstamp, hlast⟩ := h.inFlight.heartbeats _ (List.mem_of_getElem? he)
    have hlate : s.pushed.length ≤ stamp + lateness := hadmitted _ he
    have hle := h.pushed_le
    have hF := h.acknowledged_le
    unfold lateness at hlate
    dsimp only at hstamp hlast
    have hlength : (s.pushed.map (body sessionInfo streamId)).length = s.pushed.length :=
      List.length_map _
    obtain ⟨hwindow, hbase⟩ := h.window.announce (k := stamp) (by omega) (by omega) (by omega)
    rw [hlast]
    refine ⟨_, Agrees.acknack ⟨h.agent, hle, hF, hwindow, ?_, ?_, h.handed, h.header,
      h.inFlight⟩⟩
    · exact (congrArg (fun base => uxrGetReliableBufferSize base (seqOf n)) hbase).trans h.empty
    · exact (congrArg ReliableStream.history hbase).trans_le h.history_le
  · exact ⟨announced, h⟩

/-- The Agent reads an ACKNACK of the channel: what it acknowledges was handed over. -/
lemma receiveAcknack (h : s.Agrees sessionInfo streamId F n announced) {i : ℕ}
    (hadmitted : s.Admitted sessionInfo streamId (.receiveAcknack i)) :
    ∃ F', (s.step sessionInfo streamId info (.receiveAcknack i)).Agrees sessionInfo streamId F' n
      announced := by
  unfold step
  dsimp only
  split
  · next stamp first nackBitmap he =>
    obtain ⟨c, hc, hstamp, hfirst⟩ := h.inFlight.acknacks _ (List.mem_of_getElem? he)
    have hlate : s.pushed.length ≤ stamp + lateness := hadmitted _ he
    obtain ⟨sent, hholds⟩ := h.agent
    have hle := h.pushed_le
    have hF := h.acknowledged_le.trans h.handed_le
    have hsent := hholds.sent_le
    unfold lateness at hlate
    dsimp only at hstamp hfirst
    rw [List.length_drop] at hsent
    have hresent : ∀ m ∈ (processAcknackSubmessage s.agent first nackBitmap).2,
        ∃ k, s.pushed[k]? = some m ∧ s.pushed.length ≤ k + 16 := by
      intro m hm
      obtain ⟨key, hkey⟩ := mem_processAcknackSubmessage hm
      exact h.getMessage hkey
    have hagent : (processAcknackSubmessage s.agent first nackBitmap).1 =
        s.agent.updateFromAcknack (seqOf c) := congrArg s.agent.updateFromAcknack hfirst
    have hflight := h.inFlight.send hresent
    rcases Nat.lt_or_ge F c with hnew | hold
    · -- what is acknowledged is outstanding, and was sent when it is less than `F + sent`
      rcases Nat.lt_or_ge (F + sent) c with hunsent | hreached
      · refine ⟨F, { h with agent := ⟨sent, ?_⟩, inFlight := hflight }⟩
        rw [hagent, hholds.updateFromAcknack_eq (.inr ?_)]
        · exact hholds
        · rw [show c = F + (c - F) by omega, seqSteps_seqOf _ (by have := h.handed_le; omega)]
          omega
      · obtain ⟨d, rfl⟩ := Nat.exists_eq_add_of_le hnew.le
        refine ⟨F + d, { h with
          agent := ⟨sent - d, ?_⟩, pushed_le := by dsimp only; omega, acknowledged_le := hc,
          inFlight := hflight }⟩
        rw [hagent, ← List.drop_drop]
        exact hholds.updateFromAcknack_seqOf (by omega) (by omega)
    · -- an old ACKNACK is as far behind as what was pushed since
      refine ⟨F, { h with agent := ⟨sent, ?_⟩, inFlight := hflight }⟩
      rw [hagent, hholds.updateFromAcknack_eq]
      · exact hholds
      · rcases Nat.eq_or_lt_of_le hold with rfl | hbehind
        · exact .inl (seqSteps_seqOf c (d := 0) (by decide))
        · refine .inr ?_
          rw [← seqOf_turn_add c, show 65536 + c = F + (65536 + c - F) by omega,
            seqSteps_seqOf _ (by omega)]
          omega
  · exact ⟨F, h⟩

end Agrees

variable {s : AgentToClient}

/-- New streams agree. -/
lemma agrees_of_starts (h : Starts sessionInfo s) :
    sessionInfo.mtu < 65536 ∧ s.Agrees sessionInfo streamId 0 0 0 := by
  obtain ⟨hmtu, base, ⟨k, hk, hhistory⟩, rfl⟩ := h
  have hdvd : base.history ∣ 65536 := by
    rw [hhistory]
    exact pow_dvd_pow 2 (show k ≤ 16 by omega)
  have hle : base.history ≤ 8192 := by
    rw [hhistory]
    exact Nat.pow_le_pow_right (by decide) (show k ≤ 13 by omega)
  obtain ⟨hwindow, hempty⟩ := InputWindow.start hdvd
  refine ⟨hmtu, ⟨0, ReliableOutputStream.holds_reset⟩, Nat.zero_le _, le_rfl, hwindow, hempty, ?_,
    rfl, fun k m hm => absurd hm (by simp), ?_⟩
  · exact (OutputWindow.setAllSizes_frame 0 base.history base).2.trans_le hle
  · exact ⟨fun e he => absurd he (by simp), fun e he => absurd he (by simp),
      fun e he => absurd he (by simp)⟩

/-- Every step keeps the agreement. -/
lemma Agrees.step {F n announced : ℕ} (h : s.Agrees sessionInfo streamId F n announced)
    (hmtu : sessionInfo.mtu < 65536) {e : Event} (hadmitted : s.Admitted sessionInfo streamId e) :
    ∃ F' n' announced', (s.step sessionInfo streamId info e).Agrees sessionInfo streamId F' n'
      announced' := by
  cases e with
  | pushSubmessage submessageId submessage =>
    exact ⟨F, n, announced, h.pushSubmessage hmtu hadmitted⟩
  | getNextMessage => exact ⟨F, n, announced, h.getNextMessage⟩
  | fillHeartbeat => exact ⟨F, n, announced, h.fillHeartbeat⟩
  | receive i => exact ⟨F, h.receive hadmitted⟩
  | receiveHeartbeat i => exact ⟨F, n, h.receiveHeartbeat hadmitted⟩
  | computeAcknack => exact ⟨F, n, announced, h.acknack⟩
  | receiveAcknack i =>
    obtain ⟨F', h'⟩ := h.receiveAcknack hadmitted
    exact ⟨F', n, announced, h'⟩

/-- Along every run both parties agree. -/
theorem agrees_of_run (hrun : Transition.Reaches (Starts sessionInfo)
      (step sessionInfo streamId info) (Admitted sessionInfo streamId) s) :
    ∃ F n announced, s.Agrees sessionInfo streamId F n announced := by
  refine (hrun.invariant (I := fun s => sessionInfo.mtu < 65536 ∧
    ∃ F n announced, s.Agrees sessionInfo streamId F n announced) ?_ ?_).2
  · intro s hs
    obtain ⟨hmtu, h⟩ := agrees_of_starts hs
    exact ⟨hmtu, 0, 0, 0, h⟩
  · rintro s e ⟨hmtu, F, n, announced, h⟩ hadmitted
    exact ⟨hmtu, h.step hmtu hadmitted⟩

/-! ## Delivery -/

/-- The client hands over the first messages that the Agent pushed, and what it has not handed
over is still in `messages_`. -/
structure Delivers (sessionInfo : SessionInfo) (streamId : UInt8) (s : AgentToClient) : Prop where
  handed : s.handed <+: s.pushed.map (body sessionInfo streamId)
  kept : ∀ k m, s.handed.length ≤ k → s.pushed[k]? = some m →
    s.agent.messages (seqOf k) = some m

/-- Along every run the client is handed what the Agent pushed, and the Agent erases nothing
that the client was not handed. -/
theorem agentToClient_delivers (hrun : Transition.Reaches (Starts sessionInfo)
      (step sessionInfo streamId info) (Admitted sessionInfo streamId) s) :
    s.Delivers sessionInfo streamId := by
  obtain ⟨F, n, announced, h⟩ := agrees_of_run hrun
  obtain ⟨sent, hholds⟩ := h.agent
  have hlength : s.handed.length = n := by
    rw [h.handed, List.length_take, List.length_map, min_eq_left h.handed_le]
  refine ⟨?_, fun k m hk hm => ?_⟩
  · rw [h.handed]
    exact List.take_prefix _ _
  · obtain ⟨d, rfl⟩ := Nat.exists_eq_add_of_le ((hlength ▸ h.acknowledged_le).trans hk)
    have hdrop : (s.pushed.drop F)[d]? = some m := by rw [List.getElem?_drop, hm]
    obtain ⟨hlt, heq⟩ := List.getElem?_eq_some_iff.mp hdrop
    rw [hholds.stored d hlt, heq]

/-- A client with two slots of 16 bytes, and the Agent's stream, after some events. -/
def after (events : List Event) : AgentToClient :=
  events.foldl (step (ReliableOutputStream.sessionOfMtu 64) 128 keylessSession)
    ⟨.reset, [], uxrInitInputReliableStream (twoSlots 16 sixteen_lt), [], [], [], []⟩

/-- Two messages that arrive in the other order, and one of them twice, are handed over in
order. -/
theorem agentToClient_delivers_after :
    (after [.pushSubmessage 7 [1, 2, 3, 4], .pushSubmessage 7 [5, 6, 7, 8], .getNextMessage,
        .getNextMessage, .receive 1, .receive 0, .receive 0]).handed =
      [[7, 1, 4, 0, 1, 2, 3, 4], [7, 1, 4, 0, 5, 6, 7, 8]] ∧
    (after [.pushSubmessage 7 [1, 2, 3, 4], .pushSubmessage 7 [5, 6, 7, 8], .getNextMessage,
        .getNextMessage, .receive 1, .receive 0, .receive 0]).Delivers
      (ReliableOutputStream.sessionOfMtu 64) 128 := by
  have hstart : Transition.Reaches (Starts (ReliableOutputStream.sessionOfMtu 64))
      (step (ReliableOutputStream.sessionOfMtu 64) 128 keylessSession)
      (Admitted (ReliableOutputStream.sessionOfMtu 64) 128) (after []) :=
    .start ⟨by decide, _, ⟨1, by decide, rfl⟩, rfl⟩
  have hget : ∀ s : AgentToClient,
      s.Admitted (ReliableOutputStream.sessionOfMtu 64) 128 .getNextMessage := fun _ => trivial
  have hpushed := (hstart.next (e := .pushSubmessage 7 [1, 2, 3, 4]) (by decide)).next
    (e := .pushSubmessage 7 [5, 6, 7, 8]) (by decide)
  have hsent := (hpushed.next (hget _)).next (hget _)
  have hreceived := ((hsent.next (e := .receive 1) (by decide)).next (e := .receive 0)
    (by decide)).next (e := .receive 0) (by decide)
  exact ⟨by decide, agentToClient_delivers hreceived⟩

end AgentToClient

end XrceDds
