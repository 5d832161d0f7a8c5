import XrceDds.Agent.InputInvariant
import XrceDds.Client.OutputSafety
import XrceDds.Client.Sender

/-!
# The reliable stream from the client to the Agent

A client's output stream and the Agent's input stream of the same id, with the channels
between them.  The channel to the Agent keeps every message that was put on it, and delivers
any of them at any time, as often as it likes or never; the channel back loses messages but
keeps their order.

The Agent counts the messages that it pops, and that is the position its stream stands at:
no heartbeat that arrives moves it (`Receives.updateFromHeartbeat`).  Whatever the client
sends again is what it sent first (`Sender.InOrder.resent`), so a number determines the
message, and what the Agent pops is what the client sent, in the same order
(`clientToAgent_delivers`).
-/

namespace XrceDds

open ReliableInputStream

/-- The Agent reads the sequence number that the client stamped. -/
lemma sequenceNr_of_messageHeader [FastCdr] {info : UxrSessionInfo} {streamIdRaw : UInt8}
    {seqNum : UxrSeqNum} {m : List UInt8}
    (h : m.take (uxrSessionHeaderOffset info) = messageHeader info streamIdRaw seqNum) :
    (InputMessage.new m).header.sequenceNr = seqNum := by
  obtain ⟨rest, rfl⟩ : ∃ rest, m = messageHeader info streamIdRaw seqNum ++ rest :=
    ⟨m.drop (uxrSessionHeaderOffset info), by rw [← h, List.take_append_drop]⟩
  have hvalue : ByteMemory.decodeLE [UInt8.ofNat seqNum.val, UInt8.ofNat (seqNum.val / 256)] =
      seqNum.val := by
    have := seqNum.isLt
    simp only [ByteMemory.decodeLE, UInt8.toNat_ofNat']
    omega
  unfold messageHeader
  simp only [List.cons_append, List.nil_append, InputMessage.sequenceNr_new, hvalue, seqOf_self]

/-! ## What the Agent receives -/

/-- An Agent's stream has popped the first of the messages that were sent, and holds and
announces others of them. -/
structure Receives (sent : List (List UInt8)) (agent : InputHistory InputMessage) : Prop where
  tracks : agent.Tracks
  position_eq : agent.position = 65535 + agent.popped.length
  popped : agent.popped.map (·.2.2.buf) = sent.take agent.popped.length
  accepted : ∀ x ∈ agent.accepted, ∃ n, x.1 = 65536 + n ∧ sent[n]? = some x.2.buf
  announced : agent.popped.length +
    seqSteps agent.stream.lastHandled agent.stream.lastAnnounced ≤ sent.length

namespace Receives

variable {sent : List (List UInt8)} {agent : InputHistory InputMessage}

/-- A new stream has received nothing. -/
lemma start : Receives [] (InputHistory.start : InputHistory InputMessage) where
  tracks := InputHistory.Tracks.start
  position_eq := rfl
  popped := rfl
  accepted := fun x hx => absurd hx (by simp [InputHistory.start])
  announced := by
    change 0 + seqSteps (seqOf 65535) (seqOf 65535) ≤ 0
    decide

/-- No more is popped than was sent. -/
lemma popped_le (h : Receives sent agent) : agent.popped.length ≤ sent.length :=
  Nat.le_of_add_right_le h.announced

/-- More may be sent. -/
lemma append (h : Receives sent agent) (messages : List (List UInt8)) :
    Receives (sent ++ messages) agent where
  tracks := h.tracks
  position_eq := h.position_eq
  popped := by
    rw [h.popped, List.take_append_of_le_length h.popped_le]
  accepted := fun x hx => by
    obtain ⟨n, hn, hm⟩ := h.accepted x hx
    exact ⟨n, hn, by rw [List.getElem?_append_left (List.getElem?_eq_some_iff.mp hm).1, hm]⟩
  announced := by
    rw [List.length_append]
    exact h.announced.trans (Nat.le_add_right _ _)

/-- `lastHandled` is the number of the last message popped. -/
lemma lastHandled_eq (h : Receives sent agent) :
    agent.stream.lastHandled = seqOf (65535 + agent.popped.length) := by
  rw [h.tracks.lastHandled_eq, h.position_eq]

/-- A message of which the Agent is not half a turn ahead keeps its position. -/
lemma steps_of_inWindow (h : Receives sent agent) {n : ℕ} (hn : n < sent.length)
    (hbehind : sent.length ≤ n + 32768) (hahead : sent.length ≤ agent.popped.length + 32768)
    (hpos : 0 < seqSteps agent.stream.lastHandled (seqOf (65536 + n)))
    (hwindow : seqSteps agent.stream.lastHandled (seqOf (65536 + n)) ≤ 16) :
    65535 + agent.popped.length + seqSteps agent.stream.lastHandled (seqOf (65536 + n)) =
      65536 + n := by
  have hpopped := h.popped_le
  rw [h.lastHandled_eq] at hpos hwindow ⊢
  rcases Nat.lt_or_ge (n + 1) agent.popped.length with hlt | hge
  · -- a message that was popped before is far ahead, around the circle
    obtain ⟨d, hd⟩ : ∃ d, agent.popped.length = n + 1 + d := Nat.exists_eq_add_of_le hlt.le
    rw [hd, show 65535 + (n + 1 + d) = 65536 + n + d by omega] at hwindow
    have hsteps := seqSteps_seqOf_sub (65536 + n) (b := d) (k := 0) (by omega) (by omega)
    rw [Nat.add_zero] at hsteps
    omega
  · obtain ⟨d, hd⟩ := Nat.exists_eq_add_of_le hge
    rw [show 65536 + n = 65535 + agent.popped.length + d by omega, seqSteps_seqOf _ (by omega)]

/-- A message that was sent is put where it belongs. -/
theorem pushMessage [FastCdr] (h : Receives sent agent) {n : ℕ} {m : List UInt8}
    (hm : sent[n]? = some m)
    (hseq : (InputMessage.new m).header.sequenceNr = seqOf (65536 + n))
    (hbehind : sent.length ≤ n + 32768) (hahead : sent.length ≤ agent.popped.length + 32768) :
    Receives sent (agent.step (.pushMessage (InputMessage.new m).header.sequenceNr
      (InputMessage.new m))) := by
  have hn := (List.getElem?_eq_some_iff.mp hm).1
  have htracks := h.tracks.pushMessage (InputMessage.new m).header.sequenceNr (InputMessage.new m)
  rw [hseq] at htracks ⊢
  unfold InputHistory.step InputHistory.afterPush at htracks ⊢
  dsimp only at htracks ⊢
  rcases h.tracks.pushMessage_cases (seqOf (65536 + n))
    (agent.positionOf (seqOf (65536 + n)), InputMessage.new m) with
    ⟨hwindow, -, lastAnnounced, heq, hmax⟩ | ⟨-, heq⟩
  · rw [heq] at htracks ⊢
    obtain ⟨hpos, hle⟩ := (inWindow_iff _ _).mp hwindow
    have hposition := h.steps_of_inWindow hn hbehind hahead hpos hle
    refine ⟨htracks, h.position_eq, h.popped, fun x hx => ?_, ?_⟩
    · dsimp only at hx
      rw [if_pos rfl, List.mem_append, List.mem_singleton] at hx
      rcases hx with hold | rfl
      · exact h.accepted x hold
      · refine ⟨n, ?_, ?_⟩
        · unfold InputHistory.positionOf
          rw [h.position_eq, hposition]
        · rw [hm, InputMessage.new_buf]
    · have := h.announced
      dsimp only
      rw [hmax]
      omega
  · rw [heq] at htracks ⊢
    exact ⟨htracks, h.position_eq, h.popped, h.accepted, h.announced⟩

/-- A heartbeat of a client that has not sent half a turn since does not move the stream. -/
theorem updateFromHeartbeat (h : Receives sent agent) {b stamp : ℕ} (hb : b ≤ agent.popped.length)
    (hb' : sent.length < b + 32768) (hstamp : stamp ≤ sent.length)
    (hlate : sent.length < stamp + 32768) :
    Receives sent
      (agent.step (.updateFromHeartbeat (seqOf (65536 + b)) (seqOf (65535 + stamp)))) := by
  have hpopped := h.popped_le
  have hlast := h.lastHandled_eq
  have hannounced := h.announced
  have hself : seqSteps agent.stream.lastHandled agent.stream.lastHandled = 0 := by
    rw [hlast]
    exact seqSteps_seqOf _ (d := 0) (by decide)
  -- the first number lies behind what is handled
  have hhandled : SeqNum.laterOf agent.stream.lastHandled
      (SeqNum.subInt (seqOf (65536 + b)) 1) = agent.stream.lastHandled := by
    rw [show 65536 + b = 65535 + b + 1 by omega, SeqNum.subInt_seqOf_succ, hlast]
    refine if_neg fun hlt => ?_
    have := (SeqNum.lt_seqOf (by omega) (by omega)).mp hlt
    omega
  -- the last one does not lie behind what was sent
  have hlater : ∃ l, agent.popped.length + l ≤ sent.length ∧
      SeqNum.laterOf agent.stream.lastAnnounced (seqOf (65535 + stamp)) =
        seqOf (65535 + agent.popped.length + l) := by
    obtain ⟨l, hl⟩ : ∃ l, l = seqSteps agent.stream.lastHandled agent.stream.lastAnnounced :=
      ⟨_, rfl⟩
    have hlastAnnounced : agent.stream.lastAnnounced = seqOf (65535 + agent.popped.length + l) := by
      rw [hl, hlast, seqOf_add_seqSteps]
    unfold SeqNum.laterOf
    split
    · next hlt =>
      rw [hlastAnnounced, SeqNum.lt_seqOf (by omega) (by omega)] at hlt
      exact ⟨stamp - agent.popped.length, by omega, by congr 1; omega⟩
    · exact ⟨l, by omega, hlastAnnounced⟩
  obtain ⟨l, hl, hlater⟩ := hlater
  have hsteps : seqSteps agent.stream.lastHandled
      (SeqNum.laterOf agent.stream.lastAnnounced (seqOf (65535 + stamp))) = l := by
    rw [hlater, hlast, seqSteps_seqOf _ (by omega)]
  have hkeeps : agent.stream.HeartbeatKeeps (seqOf (65536 + b)) (seqOf (65535 + stamp)) := by
    refine ⟨fun key hkey => ?_, ?_⟩
    · obtain ⟨message, hmessage⟩ := Option.ne_none_iff_exists'.mp hkey
      rw [hhandled, hself, h.tracks.lastHandled_eq]
      exact (h.tracks.held key message hmessage).1
    · rw [hhandled, hsteps]
      omega
  have htracks := h.tracks.updateFromHeartbeat hkeeps
  have hlast' := (lastHandled_updateFromHeartbeat agent.stream (seqOf (65536 + b))
    (seqOf (65535 + stamp))).trans hhandled
  refine ⟨htracks, ?_, h.popped, h.accepted, ?_⟩
  · unfold InputHistory.step InputHistory.positionOf
    dsimp only
    rw [hlast', hself, h.position_eq, Nat.add_zero]
  · unfold InputHistory.step
    dsimp only
    rw [hlast']
    exact (Nat.add_le_add_left hsteps.le _).trans hl

/-- The next message is popped. -/
theorem popMessage (h : Receives sent agent) : Receives sent (agent.step .popMessage) := by
  have hlast := h.lastHandled_eq
  have hnext : SeqNum.addInt agent.stream.lastHandled 1 = seqOf (agent.position + 1) := by
    rw [hlast, h.position_eq]
    exact SeqNum.addInt_seqOf _ (by decide)
  have htracks := h.tracks.popMessage
  unfold InputHistory.step ReliableInputStream.popMessage at htracks ⊢
  rw [hnext] at htracks ⊢
  cases hmessage : agent.stream.messages (seqOf (agent.position + 1)) with
  | none =>
    rw [hmessage] at htracks
    exact h
  | some message =>
    rw [hmessage] at htracks
    have hone : seqSteps (seqOf agent.position) (seqOf (agent.position + 1)) = 1 :=
      seqSteps_seqOf _ (by decide)
    obtain ⟨-, -, hann, hfst, hmem⟩ := h.tracks.held _ _ hmessage
    rw [hone] at hann hfst
    obtain ⟨n, hn, hm⟩ := h.accepted message hmem
    obtain rfl : n = agent.popped.length := by
      have := h.position_eq
      omega
    have hannounced := h.announced
    obtain ⟨l, hl, hlastAnnounced, hlsteps⟩ := exists_seqOf agent.position
      agent.stream.lastAnnounced
    rw [h.tracks.lastHandled_eq, hlsteps] at hannounced
    rw [hlsteps] at hann
    refine ⟨htracks, ?_, ?_, h.accepted, ?_⟩
    · dsimp only
      rw [List.length_append, h.position_eq]
      rfl
    · dsimp only
      rw [List.map_append, List.map_singleton, List.length_append, List.length_singleton, h.popped,
        List.take_add_one, hm]
      rfl
    · dsimp only
      rw [hlastAnnounced, seqSteps_seqOf_add _ hann hl, List.length_append, List.length_singleton]
      omega

end Receives

/-! ## The two parties and the channels -/

/-- A client's output stream and the Agent's input stream of the same id.  `data` and
`heartbeats` are the messages that the client put on the channel, each with the number of
messages that were sent by then; `acknacks` are those on their way back, oldest first. -/
structure ClientToAgent where
  sender : Sender
  data : List (ℕ × List UInt8)
  heartbeats : List (ℕ × UxrSeqNum × UxrSeqNum)
  acknacks : List (SeqNum × UInt8 × UInt8)
  agent : InputHistory InputMessage

namespace ClientToAgent

/-- What the client, the Agent or a channel does. -/
inductive Event where
  | write (ub : UcdrBuffer) (submessageId mode : UInt8) (payload : List UInt8)
  | flash
  | heartbeat (timestamp : ℤ)
  | receive (i : ℕ)
  | receiveHeartbeat (i : ℕ)
  | popMessage
  | fillAcknack
  | loseAcknack (i : ℕ)
  | readAcknack

/-- `nack_bitmap` of an ACKNACK, as `read_submessage_acknack` puts it together. -/
def nackBitmap (acknack : SeqNum × UInt8 × UInt8) : ℕ :=
  acknack.2.1.toNat * 256 + acknack.2.2.toNat

/-- What happens. -/
def step [FastCdr] (info : UxrSessionInfo) (streamIdRaw : UInt8) (s : ClientToAgent) :
    Event → ClientToAgent
  | .write ub submessageId mode payload =>
    { s with sender := s.sender.write ub submessageId mode payload }
  | .flash =>
    let sender := s.sender.flash info streamIdRaw
    { s with
      sender := sender
      data := s.data ++ (uxrFlashOutputStreams info streamIdRaw s.sender.stream).2.map
        fun m => (sender.sent.length, m) }
  | .heartbeat timestamp =>
    let sender := s.sender.heartbeat timestamp
    if (uxrUpdateOutputStreamHeartbeatTimestamp s.sender.stream timestamp).2 then
      { s with
        sender := sender
        heartbeats := s.heartbeats ++ [(sender.sent.length, writeSubmessageHeartbeat sender.stream)]
          }
    else { s with sender := sender }
  | .receive i =>
    match s.data[i]? with
    | some (_, m) =>
      let message := InputMessage.new m
      { s with agent := s.agent.step (.pushMessage message.header.sequenceNr message) }
    | none => s
  | .receiveHeartbeat i =>
    match s.heartbeats[i]? with
    | some (_, firstUnacked, lastUnacked) =>
      { s with agent := s.agent.step (.updateFromHeartbeat firstUnacked lastUnacked) }
    | none => s
  | .popMessage => { s with agent := s.agent.step .popMessage }
  | .fillAcknack => { s with acknacks := s.acknacks ++ [s.agent.stream.fillAcknack] }
  | .loseAcknack i => { s with acknacks := s.acknacks.eraseIdx i }
  | .readAcknack =>
    match s.acknacks with
    | [] => s
    | acknack :: acknacks =>
      { s with
        sender := s.sender.acknack (nackBitmap acknack) acknack.1
        acknacks := acknacks
        data := s.data ++ (readSubmessageAcknack s.sender.stream (nackBitmap acknack)
          acknack.1).2.map
          fun m => (s.sender.sent.length, m) }

/-- What a message may be late by: this many messages are sent first after it was put on the
channel. -/
def lateness : ℕ := 16384

/-- A write fits one slot, and no message arrives later than `lateness` allows. -/
def Admitted (s : ClientToAgent) : Event → Prop
  | .write _ _ _ payload => FitsSlot s.sender.stream (submessageSize payload.length)
  | .receive i => ∀ e ∈ s.data[i]?, s.sender.sent.length ≤ e.1 + lateness
  | .receiveHeartbeat i => ∀ e ∈ s.heartbeats[i]?, s.sender.sent.length ≤ e.1 + lateness
  | _ => True

instance (s : ClientToAgent) (e : Event) : Decidable (s.Admitted e) := by
  cases e <;> unfold Admitted <;> infer_instance

/-- Both streams are new, and the client's history is a power of two. -/
def Starts (info : UxrSessionInfo) (s : ClientToAgent) : Prop :=
  ∃ base : ReliableStream, (∃ k < 14, base.history = 2 ^ k) ∧
    s = ⟨⟨uxrInitOutputReliableStream base (uxrSessionHeaderOffset info), [], []⟩, [], [],
      [], .start⟩

/-- What is on its way when `a` messages are acknowledged and `n` are popped. -/
structure InFlight (history : ℕ) (s : ClientToAgent) (a n : ℕ) : Prop where
  data : ∀ e ∈ s.data, e.1 ≤ s.sender.sent.length ∧
    ∃ k, s.sender.sent[k]? = some e.2 ∧ e.1 ≤ k + history
  heartbeats : ∀ e ∈ s.heartbeats, e.1 ≤ s.sender.sent.length ∧ ∃ b ≤ a, e.1 ≤ b + history ∧
    e.2 = (seqOf (65536 + b), seqOf (65535 + e.1))
  acknacks : ∃ ks : List ℕ, s.acknacks.map Prod.fst = ks.map (fun k => seqOf k) ∧
    ks.Pairwise (· ≤ ·) ∧ ∀ k ∈ ks, a ≤ k ∧ k ≤ n

/-- Both parties agree when `a` messages are acknowledged. -/
structure Agrees (info : UxrSessionInfo) (streamIdRaw : UInt8) (history : ℕ) (s : ClientToAgent)
    (a : ℕ) : Prop where
  sender : s.sender.InOrder info streamIdRaw history a
  inFlight : s.InFlight history a s.agent.popped.length
  receives : Receives s.sender.sent s.agent
  acknowledged_le : a ≤ s.agent.popped.length

variable {info : UxrSessionInfo} {streamIdRaw : UInt8} {history : ℕ} {s : ClientToAgent} {a : ℕ}

/-- The client sends at most one history ahead of what is acknowledged. -/
lemma sent_le (h : s.sender.InOrder info streamIdRaw history a) :
    a ≤ s.sender.sent.length ∧ s.sender.sent.length ≤ a + history := by
  obtain ⟨w, hw, -⟩ := h.window
  have hacknown := hw.acknown_le
  have hsent := hw.sent_le
  rw [h.history_eq] at hsent
  omega

/-- The numbers of a heartbeat. -/
lemma writeSubmessageHeartbeat_eq (h : s.sender.InOrder info streamIdRaw history a) :
    writeSubmessageHeartbeat s.sender.stream =
      (seqOf (65536 + a), seqOf (65535 + s.sender.sent.length)) := by
  obtain ⟨w, hw, -⟩ := h.window
  unfold writeSubmessageHeartbeat
  rw [hw.lastAcknown_eq, hw.lastSent_eq, uxrSeqNumAdd_seqOf, Nat.add_right_comm]

/-- What is on its way stays so when the client sends `extra` for the first time and puts
`messages` on the channel. -/
lemma InFlight.next {n a' n' : ℕ} {s' : ClientToAgent} (h : s.InFlight history a n) (ha : a ≤ a')
    (extra messages : List (List UInt8)) (hsent : s'.sender.sent = s.sender.sent ++ extra)
    (hdata : s'.data = s.data ++ messages.map fun m => (s'.sender.sent.length, m))
    (hmessages : ∀ m ∈ messages, ∃ k, s'.sender.sent[k]? = some m ∧
      s'.sender.sent.length ≤ k + history)
    (hheartbeats : s'.heartbeats = s.heartbeats)
    (hacknacks : ∃ ks : List ℕ, s'.acknacks.map Prod.fst = ks.map (fun k => seqOf k) ∧
      ks.Pairwise (· ≤ ·) ∧ ∀ k ∈ ks, a' ≤ k ∧ k ≤ n') : s'.InFlight history a' n' := by
  have hle : s.sender.sent.length ≤ s'.sender.sent.length := by
    rw [hsent, List.length_append]
    exact Nat.le_add_right _ _
  refine ⟨fun e he => ?_, fun e he => ?_, hacknacks⟩
  · rw [hdata] at he
    rcases List.mem_append.mp he with hold | hnew
    · obtain ⟨hstamp, k, hk, hwithin⟩ := h.data e hold
      refine ⟨hstamp.trans hle, k, ?_, hwithin⟩
      rw [hsent, List.getElem?_append_left (List.getElem?_eq_some_iff.mp hk).1, hk]
    · obtain ⟨m, hm, rfl⟩ := List.mem_map.mp hnew
      exact ⟨le_rfl, hmessages m hm⟩
  · rw [hheartbeats] at he
    obtain ⟨hstamp, b, hb, hwithin, heq⟩ := h.heartbeats e he
    exact ⟨hstamp.trans hle, b, hb.trans ha, hwithin, heq⟩

/-- What is on its way when the client sends nothing. -/
lemma InFlight.quiet {n n' : ℕ} (h : s.InFlight history a n) (sender : Sender)
    (agent : InputHistory InputMessage) (hsent : sender.sent = s.sender.sent) (hn : n ≤ n') :
    InFlight history { s with
      sender := sender
      agent := agent } a n' := by
  obtain ⟨ks, hks, hordered, hbounds⟩ := h.acknacks
  refine h.next le_rfl [] [] ?_ ?_ (fun m hm => absurd hm (by simp)) rfl
    ⟨ks, hks, hordered, fun k hk => ⟨(hbounds k hk).1, (hbounds k hk).2.trans hn⟩⟩
  · exact hsent.trans (List.append_nil _).symm
  · exact (List.append_nil _).symm

/-- New streams agree. -/
lemma agrees_of_starts (h : Starts info s) :
    ∃ history < 16384, ∃ a, s.Agrees info streamIdRaw history a := by
  obtain ⟨base, ⟨k, hk, hhistory⟩, rfl⟩ := h
  have hdvd : base.history ∣ 65536 := by
    rw [hhistory]
    exact pow_dvd_pow 2 (show k ≤ 16 by omega)
  have hlt : base.history < 16384 := by
    rw [hhistory]
    exact Nat.pow_lt_pow_right (by decide) hk
  refine ⟨base.history, hlt, 0, ?_, ?_, Receives.start, le_rfl⟩
  · exact Sender.InOrder.start base hdvd
  · exact ⟨fun e he => absurd he (by simp), fun e he => absurd he (by simp), [], rfl, .nil,
      fun k hk => absurd hk (by simp)⟩

/-- Writing sends nothing. -/
lemma write_sent (t : Sender) (ub : UcdrBuffer) (submessageId mode : UInt8)
    (payload : List UInt8) : (t.write ub submessageId mode payload).sent = t.sent := by
  unfold Sender.write
  split
  · split <;> rfl
  · rfl

section Run

variable [FastCdr]

/-- A write that fits one slot. -/
lemma Agrees.write (h : s.Agrees info streamIdRaw history a) (ub : UcdrBuffer)
    (submessageId mode : UInt8) {payload : List UInt8}
    (hfits : FitsSlot s.sender.stream (submessageSize payload.length)) :
    (s.step info streamIdRaw (.write ub submessageId mode payload)).Agrees info streamIdRaw history
      a := by
  have hsent := write_sent s.sender ub submessageId mode payload
  refine ⟨h.sender.write ub submessageId mode hfits,
    h.inFlight.quiet _ _ hsent le_rfl, ?_, h.acknowledged_le⟩
  unfold step
  dsimp only
  rw [hsent]
  exact h.receives

/-- Flashing. -/
lemma Agrees.flash (h : s.Agrees info streamIdRaw history a) :
    (s.step info streamIdRaw .flash).Agrees info streamIdRaw history a := by
  have hsender := h.sender.flash
  have hbounds := sent_le h.sender
  have hbounds' := sent_le (s := { s with sender := s.sender.flash info streamIdRaw }) hsender
  refine ⟨hsender, ?_, h.receives.append _, h.acknowledged_le⟩
  refine h.inFlight.next le_rfl _ _ rfl rfl (fun m hm => ?_) rfl h.inFlight.acknacks
  obtain ⟨i, hi, rfl⟩ := List.mem_iff_getElem.mp hm
  refine ⟨s.sender.sent.length + i, ?_, ?_⟩
  · unfold step Sender.flash
    dsimp only
    rw [List.getElem?_append_right (Nat.le_add_right _ _), Nat.add_sub_cancel_left,
      List.getElem?_eq_getElem hi]
  · unfold step
    dsimp only at hbounds' ⊢
    omega

/-- A heartbeat. -/
lemma Agrees.heartbeat (h : s.Agrees info streamIdRaw history a) (timestamp : ℤ) :
    (s.step info streamIdRaw (.heartbeat timestamp)).Agrees info streamIdRaw history a := by
  have hsender := h.sender.heartbeat timestamp
  unfold step
  dsimp only
  split
  · have hbounds := sent_le h.sender
    have hnumbers := writeSubmessageHeartbeat_eq
      (s := { s with sender := s.sender.heartbeat timestamp }) hsender
    refine ⟨hsender, ⟨h.inFlight.data, fun e he => ?_, h.inFlight.acknacks⟩, h.receives,
      h.acknowledged_le⟩
    rcases List.mem_append.mp he with hold | hnew
    · exact h.inFlight.heartbeats e hold
    · obtain rfl := List.mem_singleton.mp hnew
      exact ⟨le_rfl, a, le_rfl, hbounds.2, hnumbers⟩
  · exact ⟨hsender, h.inFlight.quiet _ _ rfl le_rfl, h.receives, h.acknowledged_le⟩

/-- A message arrives. -/
lemma Agrees.receive (h : s.Agrees info streamIdRaw history a) (hhistory : history < 16384) {i : ℕ}
    (hlate : ∀ e ∈ s.data[i]?, s.sender.sent.length ≤ e.1 + lateness) :
    (s.step info streamIdRaw (.receive i)).Agrees info streamIdRaw history a := by
  unfold step
  dsimp only
  split
  · next stamp m he =>
    have hstamp := hlate (stamp, m) he
    obtain ⟨-, n, hm, hwithin⟩ := h.inFlight.data _ (List.mem_of_getElem? he)
    have hbounds := sent_le h.sender
    have hack := h.acknowledged_le
    have hseq := sequenceNr_of_messageHeader (h.sender.header n m hm)
    rw [seqOf_turn_add, ← seqOf_turn_add] at hseq
    unfold lateness at hstamp
    dsimp only at hstamp hwithin
    exact ⟨h.sender, h.inFlight.quiet _ _ rfl le_rfl,
      h.receives.pushMessage hm hseq (by omega) (by omega), hack⟩
  · exact h

/-- A heartbeat arrives. -/
lemma Agrees.receiveHeartbeat (h : s.Agrees info streamIdRaw history a) (hhistory : history < 16384)
    {i : ℕ} (hlate : ∀ e ∈ s.heartbeats[i]?, s.sender.sent.length ≤ e.1 + lateness) :
    (s.step info streamIdRaw (.receiveHeartbeat i)).Agrees info streamIdRaw history a := by
  unfold step
  dsimp only
  split
  · next stamp firstUnacked lastUnacked he =>
    have hstamp := hlate (stamp, firstUnacked, lastUnacked) he
    obtain ⟨hle, b, hb, hwithin, heq⟩ := h.inFlight.heartbeats _ (List.mem_of_getElem? he)
    dsimp only at heq hle hwithin
    obtain ⟨rfl, rfl⟩ := Prod.mk.inj heq
    have hack := h.acknowledged_le
    unfold lateness at hstamp
    dsimp only at hstamp ⊢
    exact ⟨h.sender, h.inFlight.quiet _ _ rfl le_rfl,
      h.receives.updateFromHeartbeat (hb.trans hack) (by omega) hle (by omega), hack⟩
  · exact h

/-- A pop. -/
lemma Agrees.popMessage (h : s.Agrees info streamIdRaw history a) :
    (s.step info streamIdRaw .popMessage).Agrees info streamIdRaw history a := by
  have hle : s.agent.popped.length ≤ (s.agent.step .popMessage).popped.length := by
    unfold InputHistory.step
    dsimp only
    split
    · exact le_rfl
    · dsimp only
      rw [List.length_append]
      exact Nat.le_add_right _ _
  exact ⟨h.sender, h.inFlight.quiet _ _ rfl hle, h.receives.popMessage,
    h.acknowledged_le.trans hle⟩

/-- The Agent acknowledges what it popped. -/
lemma Agrees.fillAcknack (h : s.Agrees info streamIdRaw history a) :
    (s.step info streamIdRaw .fillAcknack).Agrees info streamIdRaw history a := by
  have hnumber : s.agent.stream.fillAcknack.1 = seqOf s.agent.popped.length := by
    unfold ReliableInputStream.fillAcknack
    dsimp only
    rw [h.receives.lastHandled_eq, SeqNum.addInt_seqOf _ (by decide), Nat.add_right_comm,
      seqOf_turn_add]
  obtain ⟨ks, hks, hordered, hbounds⟩ := h.inFlight.acknacks
  refine ⟨h.sender, ⟨h.inFlight.data, h.inFlight.heartbeats, ks ++ [s.agent.popped.length], ?_, ?_,
    fun k hk => ?_⟩, h.receives, h.acknowledged_le⟩
  · unfold step
    dsimp only
    rw [List.map_append, List.map_append, hks, List.map_singleton, List.map_singleton, hnumber]
  · rw [List.pairwise_append]
    refine ⟨hordered, List.pairwise_singleton _ _, fun k hk k' hk' => ?_⟩
    rw [List.mem_singleton.mp hk']
    exact (hbounds k hk).2
  · rcases List.mem_append.mp hk with hold | hnew
    · exact hbounds k hold
    · rw [List.mem_singleton.mp hnew]
      exact ⟨h.acknowledged_le, le_rfl⟩

/-- An ACKNACK is lost. -/
lemma Agrees.loseAcknack (h : s.Agrees info streamIdRaw history a) (i : ℕ) :
    (s.step info streamIdRaw (.loseAcknack i)).Agrees info streamIdRaw history a := by
  obtain ⟨ks, hks, hordered, hbounds⟩ := h.inFlight.acknacks
  have hsub := List.eraseIdx_sublist ks i
  refine ⟨h.sender, ⟨h.inFlight.data, h.inFlight.heartbeats, ks.eraseIdx i, ?_,
    hordered.sublist hsub, fun k hk => hbounds k (hsub.subset hk)⟩, h.receives, h.acknowledged_le⟩
  unfold step
  dsimp only
  rw [← List.eraseIdx_map, ← List.eraseIdx_map, hks]

/-- An ACKNACK is read. -/
lemma Agrees.readAcknack (h : s.Agrees info streamIdRaw history a) :
    ∃ a', (s.step info streamIdRaw .readAcknack).Agrees info streamIdRaw history a' := by
  unfold step
  dsimp only
  split
  · exact ⟨a, h⟩
  · next acknack acknacks hacknacks =>
    obtain ⟨ks, hks, hordered, hbounds⟩ := h.inFlight.acknacks
    rw [hacknacks] at hks
    cases ks with
    | nil => exact absurd hks (by simp)
    | cons k ks =>
      rw [List.map_cons, List.map_cons, List.cons.injEq] at hks
      obtain ⟨hlow, hhigh⟩ := hbounds k List.mem_cons_self
      obtain ⟨hfirst, hrest⟩ := List.pairwise_cons.mp hordered
      have hsent := hhigh.trans h.receives.popped_le
      rw [hks.1]
      have hsender := h.sender.acknack (nackBitmap acknack) hlow hsent
      have hbounds' := sent_le (s := { s with
        sender := s.sender.acknack (nackBitmap acknack) (seqOf k) }) hsender
      refine ⟨k, hsender, ?_, h.receives, hhigh⟩
      refine h.inFlight.next hlow [] _ (List.append_nil _).symm rfl (fun m hm => ?_) rfl
        ⟨ks, hks.2, hrest, fun k' hk' => ⟨hfirst k' hk',
          (hbounds k' (List.mem_cons_of_mem _ hk')).2⟩⟩
      obtain ⟨n, hn, hmn⟩ := h.sender.resent (nackBitmap acknack) hlow hsent hm
      exact ⟨n, hmn, hbounds'.2.trans (Nat.add_le_add_right hn _)⟩

/-- Every step keeps the agreement. -/
lemma Agrees.step (h : s.Agrees info streamIdRaw history a) (hhistory : history < 16384) {e : Event}
    (hadmitted : s.Admitted e) :
    ∃ a', (s.step info streamIdRaw e).Agrees info streamIdRaw history a' := by
  cases e with
  | write ub submessageId mode payload => exact ⟨a, h.write ub submessageId mode hadmitted⟩
  | flash => exact ⟨a, h.flash⟩
  | heartbeat timestamp => exact ⟨a, h.heartbeat timestamp⟩
  | receive i => exact ⟨a, h.receive hhistory hadmitted⟩
  | receiveHeartbeat i => exact ⟨a, h.receiveHeartbeat hhistory hadmitted⟩
  | popMessage => exact ⟨a, h.popMessage⟩
  | fillAcknack => exact ⟨a, h.fillAcknack⟩
  | loseAcknack i => exact ⟨a, h.loseAcknack i⟩
  | readAcknack => exact h.readAcknack

/-- Along every run both parties agree. -/
theorem agrees_of_run
    (hrun : Transition.Reaches (Starts info) (step info streamIdRaw) Admitted s) :
    ∃ history < 16384, ∃ a, s.Agrees info streamIdRaw history a := by
  refine hrun.invariant (fun s hs => agrees_of_starts hs) ?_
  rintro s e ⟨history, hhistory, a, h⟩ hadmitted
  exact ⟨history, hhistory, h.step hhistory hadmitted⟩

/-! ## Delivery -/

/-- The Agent has popped the first messages that the client sent, as they were sent first: a
submessage that was accepted is in them when it is one of the first `j`. -/
structure Delivers (info : UxrSessionInfo) (s : ClientToAgent) : Prop where
  messages : s.agent.popped.map (·.2.2.buf) <+: s.sender.sent
  bodies : ∀ n x, s.agent.popped[n]? = some x →
    x.2.2.buf.drop (uxrSessionHeaderOffset info) = submessagesIn s.sender.accepted n
  submessages : ∃ j, (∀ i e, s.sender.accepted[i]? = some e →
      (i < j ↔ e.1 < s.agent.popped.length)) ∧
    (s.agent.popped.map fun x => x.2.2.buf.drop (uxrSessionHeaderOffset info)).flatten =
      ((s.sender.accepted.take j).map Prod.snd).flatten

/-- Along every run the Agent pops what the client sent. -/
theorem clientToAgent_delivers
    (hrun : Transition.Reaches (Starts info) (step info streamIdRaw) Admitted s) :
    s.Delivers info := by
  obtain ⟨history, -, a, h⟩ := agrees_of_run hrun
  have hpopped := h.receives.popped
  have hbodies : ∀ n x, s.agent.popped[n]? = some x →
      x.2.2.buf.drop (uxrSessionHeaderOffset info) = submessagesIn s.sender.accepted n := by
    intro n x hx
    have hn := (List.getElem?_eq_some_iff.mp hx).1
    refine h.sender.bodies n _ ?_
    calc s.sender.sent[n]? = (s.sender.sent.take s.agent.popped.length)[n]? :=
          (List.getElem?_take_of_lt hn).symm
      _ = some x.2.2.buf := by rw [← hpopped, List.getElem?_map, hx, Option.map_some]
  refine ⟨?_, hbodies, ?_⟩
  · rw [hpopped]
    exact List.take_prefix _ _
  · obtain ⟨j, hj, hflatten⟩ := flatten_submessagesIn h.sender.ordered s.agent.popped.length
    refine ⟨j, hj, ?_⟩
    rw [← hflatten]
    congr 1
    refine List.ext_getElem? fun n => ?_
    rw [List.getElem?_map, List.getElem?_map]
    rcases Nat.lt_or_ge n s.agent.popped.length with hlt | hge
    · rw [List.getElem?_range hlt, List.getElem?_eq_getElem hlt]
      exact congrArg some (hbodies n _ (List.getElem?_eq_getElem hlt))
    · rw [List.getElem?_eq_none hge, List.getElem?_eq_none (by simpa using hge)]
      rfl

end Run

/-- A client with two slots of 16 bytes, and the Agent's stream, after some events. -/
def after (events : List Event) : ClientToAgent :=
  events.foldl (step keylessSession 128)
    ⟨⟨uxrInitOutputReliableStream (twoSlots 16 sixteen_lt) (uxrSessionHeaderOffset keylessSession),
      [], []⟩, [], [], [], .start⟩

/-- The first of two messages is lost, and the second one arrives twice; the ACKNACK has the client
send both again, and those arrive in the other order. -/
def lossAndRepair : List Event :=
  [.write (ucdrInitBuffer 0 0) 7 0 [1, 2, 3, 4], .flash,
    .write (ucdrInitBuffer 0 0) 7 0 [5, 6, 7, 8], .flash, .receive 1, .receive 1, .popMessage,
    .fillAcknack, .readAcknack, .receive 3, .receive 2, .popMessage, .popMessage, .popMessage]

/-- Both messages are popped, each once. -/
theorem clientToAgent_delivers_after :
    (after lossAndRepair).agent.popped.map (·.2.2.buf) =
      [[128, 128, 0, 0, 7, 1, 4, 0, 1, 2, 3, 4], [128, 128, 1, 0, 7, 1, 4, 0, 5, 6, 7, 8]] ∧
    (after lossAndRepair).Delivers keylessSession := by
  have hstart : Transition.Reaches (Starts keylessSession) (step keylessSession 128) Admitted
      (after []) := .start ⟨_, ⟨1, by decide, rfl⟩, rfl⟩
  have hadmitted : Transition.AdmittedAll (step keylessSession 128) Admitted (after [])
      lossAndRepair := by decide
  exact ⟨by decide, clientToAgent_delivers (hstart.foldl lossAndRepair hadmitted)⟩

end ClientToAgent

end XrceDds
