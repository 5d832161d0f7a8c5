import XrceDds.Client.NackRun
import XrceDds.Client.RunSession
import XrceDds.Protocol.AgentAcknack

/-!
# One exchange repairs every loss

Messages of the client may be lost, and ACKNACKs too.  In an exchange nothing is lost: a heartbeat
reaches the Agent, which pops what it has and answers, and what the client sends again for the
answer arrives in order.  Whatever was lost before, the Agent has then popped everything that was
sent, and the next exchange that follows, however the run goes on until then, has all of it
acknowledged if no message more was sent (`clientToAgent_recovers`).

The heartbeat announces the last message that was sent, so the first bit of the answer is set if
anything is missing, and then the client sends everything again from the first missing message on.
-/

namespace XrceDds

open ReliableInputStream Transition

namespace ClientToAgent

variable [FastCdr]

/-- An exchange in which nothing is lost: a heartbeat arrives, the Agent pops as many messages as it
can hold and answers, and the messages that the client puts on the channel arrive in order. -/
def exchange (s : ClientToAgent) (timestamp : ℤ) : List Event :=
  [.heartbeat timestamp, .receiveHeartbeat s.heartbeats.length] ++
    (List.replicate reliableStreamDepth .popMessage ++ ([.fillAcknack, .readAcknack] ++
      (List.range s.sender.stream.base.history).flatMap fun j =>
        [.receive (s.data.length + j), .popMessage]))

/-- A heartbeat is due. -/
def Due (s : ClientToAgent) (timestamp : ℤ) : Prop :=
  (uxrUpdateOutputStreamHeartbeatTimestamp s.sender.stream timestamp).2 = true

/-- After an exchange everything that was sent is popped.  However the run goes on, with losses,
repetitions and writes: as long as nothing more is sent, an exchange that begins with no ACKNACK on
its way has everything acknowledged. -/
structure Recovers (info : UxrSessionInfo) (streamIdRaw : UInt8) (s s' : ClientToAgent) : Prop where
  reached : Reaches (Starts info) (step info streamIdRaw) Admitted s'
  sent : s'.sender.sent = s.sender.sent
  delivered : s'.agent.popped.map (·.2.2.buf) = s.sender.sent
  quiet : s'.acknacks = []
  confirmed : ∀ events later, AdmittedAll (step info streamIdRaw) Admitted s' events →
    later = events.foldl (step info streamIdRaw) s' → later.sender.sent = s'.sender.sent →
    later.acknacks = [] → ∀ timestamp, later.Due timestamp →
    uxrIsOutputUpToDate
      ((later.exchange timestamp).foldl (step info streamIdRaw) later).sender.stream = true

end ClientToAgent

/-! ## What the Agent holds -/

namespace ReliableInputStream.InputHistory

variable {α : Type} {h : InputHistory α}

/-- Without the next message nothing is popped. -/
lemma popMessage_of_none (hnone : h.stream.messages (SeqNum.addInt h.stream.lastHandled 1) = none) :
    h.step .popMessage = h := by
  unfold step ReliableInputStream.popMessage
  rw [hnone]

/-- The next message is popped, and the others stay. -/
lemma popMessage_of_some {message : ℕ × α}
    (hsome : h.stream.messages (SeqNum.addInt h.stream.lastHandled 1) = some message) :
    h.step .popMessage =
      { h with
        stream := { h.stream with
          lastHandled := SeqNum.addInt h.stream.lastHandled 1
          messages := Function.update h.stream.messages (SeqNum.addInt h.stream.lastHandled 1) none
            }
        position := h.position + 1
        popped := h.popped ++ [(h.position + 1, message)] } := by
  unfold step ReliableInputStream.popMessage
  rw [hsome]

/-- A pop announces nothing, and takes back nothing. -/
lemma popMessage_frame (h : InputHistory α) :
    (h.step .popMessage).stream.lastAnnounced = h.stream.lastAnnounced ∧
      h.popped.length ≤ (h.step .popMessage).popped.length := by
  cases hnext : h.stream.messages (SeqNum.addInt h.stream.lastHandled 1) with
  | none =>
    rw [popMessage_of_none hnext]
    exact ⟨rfl, le_rfl⟩
  | some message =>
    rw [popMessage_of_some hnext]
    refine ⟨rfl, ?_⟩
    rw [List.length_append]
    exact Nat.le_add_right _ _

/-- The number behind the last one that was popped. -/
lemma Tracks.next_eq (htracks : h.Tracks) :
    SeqNum.addInt h.stream.lastHandled 1 = seqOf (h.position + 1) := by
  rw [htracks.lastHandled_eq]
  exact SeqNum.addInt_seqOf _ (by decide)

/-- Either the next message is missing, or each of some pops has taken one of the messages that were
held. -/
lemma Tracks.pops (htracks : h.Tracks) (n : ℕ) :
    ((step · .popMessage)^[n] h).Tracks ∧
      (((step · .popMessage)^[n] h).stream.messages
          (SeqNum.addInt ((step · .popMessage)^[n] h).stream.lastHandled 1) = none ∨
        ((step · .popMessage)^[n] h).position = h.position + n ∧
          ∀ key, h.stream.messages key = none →
            ((step · .popMessage)^[n] h).stream.messages key = none) := by
  induction n with
  | zero => exact ⟨htracks, .inr ⟨rfl, fun _ hnone => hnone⟩⟩
  | succ n ih =>
    rw [Function.iterate_succ_apply']
    obtain ⟨h', hh'⟩ : ∃ h', h' = (step · .popMessage)^[n] h := ⟨_, rfl⟩
    rw [← hh'] at ih ⊢
    obtain ⟨htracks', hcases⟩ := ih
    refine ⟨htracks'.popMessage, ?_⟩
    cases hnext : h'.stream.messages (SeqNum.addInt h'.stream.lastHandled 1) with
    | none =>
      rw [popMessage_of_none hnext]
      exact .inl hnext
    | some message =>
      rw [hnext] at hcases
      obtain ⟨hposition, hheld⟩ := hcases.resolve_left (by simp)
      rw [popMessage_of_some hnext]
      refine .inr ⟨?_, fun key hnone => ?_⟩
      · dsimp only
        rw [hposition, Nat.add_assoc]
      · dsimp only
        by_cases hkey : key = SeqNum.addInt h'.stream.lastHandled 1
        · rw [hkey]
          exact Function.update_self _ _ _
        · rw [Function.update_of_ne hkey]
          exact hheld key hnone

/-- After as many pops as the stream holds messages, the next one is missing. -/
lemma Tracks.drained (htracks : h.Tracks) :
    ((step · .popMessage)^[reliableStreamDepth] h).stream.messages
      (SeqNum.addInt ((step · .popMessage)^[reliableStreamDepth] h).stream.lastHandled 1) =
        none := by
  obtain ⟨htracks', hcases⟩ := htracks.pops reliableStreamDepth
  refine hcases.elim id ?_
  rintro ⟨hposition, hheld⟩
  rw [htracks'.next_eq, hposition]
  apply hheld
  by_contra hsome
  obtain ⟨message, hmessage⟩ := Option.ne_none_iff_exists'.mp hsome
  obtain ⟨-, hle, -⟩ := htracks.held _ _ hmessage
  rw [Nat.add_assoc, seqSteps_seqOf _ (by decide)] at hle
  exact absurd hle (by decide)

/-- No call takes back what was popped. -/
lemma popped_le_step (h : InputHistory α) (call : Call α) :
    h.popped.length ≤ (h.step call).popped.length := by
  cases call with
  | pushMessage | emplaceMessage | updateFromHeartbeat | fillAcknack => exact le_rfl
  | popMessage => exact (popMessage_frame h).2

end ReliableInputStream.InputHistory

namespace Receives

variable {sent : List (List UInt8)} {agent : InputHistory InputMessage}

/-- The next message is popped when it arrives, whether it was held or not. -/
lemma deliver (h : Receives sent agent) (message : InputMessage)
    (hseq : message.header.sequenceNr = seqOf (65536 + agent.popped.length)) :
    ((agent.step (.pushMessage message.header.sequenceNr message)).step .popMessage).popped.length =
      agent.popped.length + 1 := by
  have hnext : SeqNum.addInt agent.stream.lastHandled 1 = message.header.sequenceNr := by
    rw [h.tracks.next_eq, h.position_eq, hseq]
    congr 1
    omega
  obtain ⟨held, hlast, hpopped, hheld⟩ : ∃ held,
      (agent.step (.pushMessage message.header.sequenceNr message)).stream.lastHandled =
        agent.stream.lastHandled ∧
      (agent.step (.pushMessage message.header.sequenceNr message)).popped = agent.popped ∧
      (agent.step (.pushMessage message.header.sequenceNr message)).stream.messages
        message.header.sequenceNr = some held := by
    unfold InputHistory.step InputHistory.afterPush
    dsimp only
    rcases h.tracks.pushMessage_cases message.header.sequenceNr
      (agent.positionOf message.header.sequenceNr, message) with ⟨-, -, last, heq, -⟩ | ⟨hnot, heq⟩
    · rw [heq]
      exact ⟨_, rfl, rfl, Function.update_self _ _ _⟩
    · rw [heq]
      -- the next message is in the window, so it is held
      have hwindow : agent.stream.InWindow message.header.sequenceNr := by
        rw [inWindow_iff, ← hnext, h.tracks.next_eq, h.tracks.lastHandled_eq,
          seqSteps_seqOf _ (by decide)]
        decide
      obtain ⟨held, hheld⟩ := Option.ne_none_iff_exists'.mp fun hnone => hnot ⟨hwindow, hnone⟩
      exact ⟨held, rfl, rfl, hheld⟩
  rw [InputHistory.popMessage_of_some (by rw [hlast, hnext]; exact hheld)]
  dsimp only
  rw [List.length_append, hpopped]
  rfl

/-- A heartbeat announces what was sent. -/
lemma lastAnnounced_updateFromHeartbeat (h : Receives sent agent)
    (hnear : sent.length < agent.popped.length + 32768) (firstUnacked : SeqNum) :
    (agent.step (.updateFromHeartbeat firstUnacked
    (seqOf (65535 + sent.length)))).stream.lastAnnounced =
      seqOf (65535 + sent.length) := by
  have hannounced := h.announced
  have hpopped := h.popped_le
  obtain ⟨l, hl, hlast, hsteps⟩ := exists_seqOf (65535 + agent.popped.length)
    agent.stream.lastAnnounced
  rw [h.lastHandled_eq, hsteps] at hannounced
  unfold InputHistory.step ReliableInputStream.updateFromHeartbeat
  dsimp only
  split
  · rfl
  · next hlt =>
    rw [hlast] at hlt ⊢
    rw [SeqNum.lt_seqOf (by omega) (by omega)] at hlt
    congr 1
    omega

/-- If something is missing that is announced, the answer asks for it. -/
lemma nackBitmap_pos (h : Receives sent agent) (hlt : agent.popped.length < sent.length)
    (hnear : sent.length < agent.popped.length + 32768)
    (hannounced : agent.stream.lastAnnounced = seqOf (65535 + sent.length))
    (hmissing : agent.stream.messages (SeqNum.addInt agent.stream.lastHandled 1) = none) :
    0 < ClientToAgent.nackBitmap agent.stream.fillAcknack := by
  have hbit : (ClientToAgent.nackBitmap agent.stream.fillAcknack).testBit 0 = true := by
    rw [testBit_nackBitmap _ (by decide)]
    unfold ReliableInputStream.nacks
    rw [h.tracks.next_eq] at hmissing
    rw [h.lastHandled_eq, SeqNum.add_seqOf _ (by decide), SeqNum.add_seqOf _ (by decide),
      hannounced]
    rw [h.position_eq] at hmissing
    refine decide_eq_true ⟨?_, by rw [hmissing]; rfl⟩
    rw [SeqNum.lt_seqOf (by omega) (by omega)]
    omega
  by_contra hzero
  rw [Nat.eq_zero_of_not_pos hzero] at hbit
  exact absurd hbit (by decide)

end Receives

/-! ## The stages of an exchange -/

namespace ClientToAgent

section Stages

variable [FastCdr] {info : UxrSessionInfo} {streamIdRaw : UInt8} {history : ℕ}
  {s s' s'' : ClientToAgent} {a a' a'' : ℕ}

/-- A stage of an exchange: nothing is sent for the first time, and `a'` messages are acknowledged
then. -/
structure Stage (info : UxrSessionInfo) (streamIdRaw : UInt8) (history : ℕ) (s s' : ClientToAgent)
    (a' : ℕ) : Prop where
  reached : Reaches (Starts info) (step info streamIdRaw) Admitted s'
  agrees : s'.Agrees info streamIdRaw history a'
  sent : s'.sender.sent = s.sender.sent
  popped_le : s.agent.popped.length ≤ s'.agent.popped.length

/-- A stage, and then another. -/
lemma Stage.trans (h : Stage info streamIdRaw history s s' a')
    (h' : Stage info streamIdRaw history s' s'' a'') : Stage info streamIdRaw history s s'' a'' :=
  ⟨h'.reached, h'.agrees, h'.sent.trans h.sent, h.popped_le.trans h'.popped_le⟩

/-- A heartbeat is sent, and arrives. -/
lemma stage_heartbeat (hrun : Reaches (Starts info) (step info streamIdRaw) Admitted s)
    (h : s.Agrees info streamIdRaw history a) (hhistory : history < 16384) {timestamp : ℤ}
    (hdue : s.Due timestamp) (hs' : s' = ([.heartbeat timestamp,
      .receiveHeartbeat s.heartbeats.length] : List Event).foldl (step info streamIdRaw) s) :
    Stage info streamIdRaw history s s' a ∧ s'.data = s.data ∧ s'.acknacks = s.acknacks ∧
      s'.agent.stream.lastAnnounced = seqOf (65535 + s.sender.sent.length) := by
  obtain ⟨hacknowledged, hsent⟩ := sent_le h.sender
  have hack := h.acknowledged_le
  unfold Due at hdue
  -- the heartbeat, and where it stands on the channel
  obtain ⟨s₁, hs₁⟩ : ∃ s₁, s₁ = s.step info streamIdRaw (.heartbeat timestamp) := ⟨_, rfl⟩
  have hagrees₁ : s₁.Agrees info streamIdRaw history a := hs₁ ▸ h.heartbeat timestamp
  have hrun₁ : Reaches (Starts info) (step info streamIdRaw) Admitted s₁ :=
    hs₁ ▸ hrun.next (show Admitted s (.heartbeat timestamp) from trivial)
  have hstep₁ : s₁ = { s with
      sender := s.sender.heartbeat timestamp
      heartbeats := s.heartbeats ++ [(s.sender.sent.length,
        seqOf (65536 + a), seqOf (65535 + s.sender.sent.length))] } := by
    have hnumbers := writeSubmessageHeartbeat_eq
      (s := { s with sender := s.sender.heartbeat timestamp }) (h.sender.heartbeat timestamp)
    rw [hs₁, step, if_pos hdue]
    dsimp only at hnumbers ⊢
    rw [hnumbers]
    rfl
  have hget : s₁.heartbeats[s.heartbeats.length]? = some (s.sender.sent.length,
      seqOf (65536 + a), seqOf (65535 + s.sender.sent.length)) := by
    rw [hstep₁]
    exact List.getElem?_concat_length
  have hlate : ∀ e ∈ s₁.heartbeats[s.heartbeats.length]?,
      s₁.sender.sent.length ≤ e.1 + lateness := by
    intro e he
    rw [hget] at he
    obtain rfl := Option.some.inj he
    rw [hstep₁]
    exact Nat.le_add_right _ _
  have hs₂ : s' = { s₁ with agent := s.agent.step (.updateFromHeartbeat (seqOf (65536 + a))
      (seqOf (65535 + s.sender.sent.length))) } := by
    rw [hs', List.foldl_cons, List.foldl_cons, List.foldl_nil, ← hs₁, step, hget, hstep₁]
  have hagrees₂ : s'.Agrees info streamIdRaw history a := by
    have hreceived := hagrees₁.receiveHeartbeat hhistory hlate
    rwa [hs', List.foldl_cons, List.foldl_cons, List.foldl_nil, ← hs₁]
  have hrun₂ : Reaches (Starts info) (step info streamIdRaw) Admitted s' := by
    have hadmitted : Admitted s₁ (.receiveHeartbeat s.heartbeats.length) := hlate
    rw [hs', List.foldl_cons, List.foldl_cons, List.foldl_nil, ← hs₁]
    exact hrun₁.next hadmitted
  have hannounced := h.receives.lastAnnounced_updateFromHeartbeat (by omega) (seqOf (65536 + a))
  refine ⟨⟨hrun₂, hagrees₂, ?_, ?_⟩, ?_, ?_, ?_⟩
  · rw [hs₂, hstep₁]
    rfl
  · rw [hs₂]
    exact le_rfl
  · rw [hs₂, hstep₁]
  · rw [hs₂, hstep₁]
  · rw [hs₂]
    exact hannounced

/-- Pops, one after the other. -/
lemma foldl_pops (s : ClientToAgent) (n : ℕ) :
    (List.replicate n Event.popMessage).foldl (step info streamIdRaw) s =
      { s with agent := (InputHistory.step · .popMessage)^[n] s.agent } := by
  induction n with
  | zero => rfl
  | succ n ih =>
    rw [List.replicate_succ', List.foldl_append, ih, Function.iterate_succ_apply']
    rfl

/-- The Agent pops what it can. -/
lemma stage_pops (hrun : Reaches (Starts info) (step info streamIdRaw) Admitted s)
    (h : s.Agrees info streamIdRaw history a) (n : ℕ) :
    Stage info streamIdRaw history s
        { s with agent := (InputHistory.step · .popMessage)^[n] s.agent } a ∧
      ((InputHistory.step · .popMessage)^[n] s.agent).stream.lastAnnounced =
        s.agent.stream.lastAnnounced := by
  induction n with
  | zero => exact ⟨⟨hrun, h, rfl, le_rfl⟩, rfl⟩
  | succ n ih =>
    obtain ⟨hstage, hannounced⟩ := ih
    rw [Function.iterate_succ_apply']
    obtain ⟨hframe, hle⟩ :=
      InputHistory.popMessage_frame ((InputHistory.step · .popMessage)^[n] s.agent)
    have hadmitted : Admitted { s with agent := (InputHistory.step · .popMessage)^[n] s.agent }
        .popMessage := trivial
    exact ⟨⟨hstage.reached.next hadmitted, hstage.agrees.popMessage, rfl,
      hstage.popped_le.trans hle⟩,
      hframe.trans hannounced⟩

omit [FastCdr] in
/-- What an ACKNACK of the number of messages that were popped has sent again. -/
lemma readSubmessageAcknack_eq (h : s.Agrees info streamIdRaw history a)
    (hhistory : history < 16384)
    (bitmap : ℕ) : (readSubmessageAcknack s.sender.stream bitmap (seqOf s.agent.popped.length)).2 =
      if 0 < bitmap then s.sender.sent.drop s.agent.popped.length else [] := by
  obtain ⟨w, hw, -⟩ := h.sender.window
  have hsent := (sent_le h.sender).2
  have hack := h.acknowledged_le
  have hpopped := h.receives.popped_le
  obtain ⟨n, hn⟩ : ∃ n, s.agent.popped.length = a + n := Nat.exists_eq_add_of_le hack
  obtain ⟨m, hm⟩ : ∃ m, s.sender.sent.length = a + m :=
    Nat.exists_eq_add_of_le (hack.trans hpopped)
  have hpred : uxrSeqNumSub (seqOf (a + n)) 1 = seqOf (65535 + a + n) := by
    rw [← seqOf_turn_add, show 65536 + (a + n) = 65535 + a + n + 1 by omega]
    exact uxrSeqNumSub_one _
  have hsteps : seqSteps s.sender.stream.lastAcknown (uxrSeqNumSub (seqOf (a + n)) 1) = n := by
    rw [hpred, hw.lastAcknown_eq, seqSteps_seqOf _ (by omega)]
  have hok : AcknackOk s.sender.stream (seqOf (a + n)) := by
    unfold AcknackOk
    rw [hsteps, hw.lastAcknown_eq, hw.lastSent_eq, hm, ← Nat.add_assoc, seqSteps_seqOf _ (by omega)]
    omega
  have hin : NackState.InOrder info streamIdRaw ⟨s.sender, a⟩ := ⟨history, h.sender⟩
  have hloop := congrArg Prod.snd (hin.nackLoop bitmap hok le_rfl)
  rw [NackState.acknowledges, hsteps] at hloop
  rw [hn]
  exact hloop

/-- The Agent answers, and the client sends again what is missing. -/
lemma stage_answer (hrun : Reaches (Starts info) (step info streamIdRaw) Admitted s)
    (h : s.Agrees info streamIdRaw history a) (hhistory : history < 16384)
    (hquiet : s.acknacks = [])
    (hannounced : s.agent.stream.lastAnnounced = seqOf (65535 + s.sender.sent.length))
    (hmissing : s.agent.stream.messages (SeqNum.addInt s.agent.stream.lastHandled 1) = none)
    (hs' : s' = ([.fillAcknack, .readAcknack] : List Event).foldl (step info streamIdRaw) s) :
    Stage info streamIdRaw history s s' s.agent.popped.length ∧ s'.agent = s.agent ∧
      s'.acknacks = [] ∧ s'.data = s.data ++ (s.sender.sent.drop s.agent.popped.length).map
        fun m => (s.sender.sent.length, m) := by
  have hsent := (sent_le h.sender).2
  have hack := h.acknowledged_le
  have hpopped := h.receives.popped_le
  have hnumber : s.agent.stream.fillAcknack.1 = seqOf s.agent.popped.length := by
    unfold ReliableInputStream.fillAcknack
    dsimp only
    rw [h.receives.tracks.next_eq, h.receives.position_eq, Nat.add_right_comm, seqOf_turn_add]
  obtain ⟨acknack, hacknack⟩ : ∃ acknack, acknack = s.agent.stream.fillAcknack := ⟨_, rfl⟩
  rw [← hacknack] at hnumber
  obtain ⟨s₁, hs₁⟩ : ∃ s₁, s₁ = s.step info streamIdRaw .fillAcknack := ⟨_, rfl⟩
  have hagrees₁ : s₁.Agrees info streamIdRaw history a := hs₁ ▸ h.fillAcknack
  have hrun₁ : Reaches (Starts info) (step info streamIdRaw) Admitted s₁ :=
    hs₁ ▸ hrun.next (show Admitted s .fillAcknack from trivial)
  have hstep₁ : s₁ = { s with acknacks := [acknack] } := by
    rw [hs₁, step, hquiet, ← hacknack]
    rfl
  have hresent := readSubmessageAcknack_eq h hhistory (nackBitmap acknack)
  have hstep₂ : s' = { s with
      sender := s.sender.acknack (nackBitmap acknack) (seqOf s.agent.popped.length)
      acknacks := []
      data := s.data ++ (s.sender.sent.drop s.agent.popped.length).map
        fun m => (s.sender.sent.length, m) } := by
    rw [hs', List.foldl_cons, List.foldl_cons, List.foldl_nil, ← hs₁, hstep₁, step]
    dsimp only
    rw [hnumber, hresent]
    split
    · rfl
    · next hzero =>
      -- nothing is missing
      have hall : s.sender.sent.length ≤ s.agent.popped.length := by
        by_contra hlt
        refine hzero (hacknack ▸ ?_)
        exact h.receives.nackBitmap_pos (by omega) (by omega) hannounced hmissing
      rw [List.drop_eq_nil_of_le hall]
  have hrun₂ : Reaches (Starts info) (step info streamIdRaw) Admitted s' := by
    rw [hs', List.foldl_cons, List.foldl_cons, List.foldl_nil, ← hs₁]
    exact hrun₁.next (show Admitted s₁ .readAcknack from trivial)
  have hsender := h.sender.acknack (nackBitmap acknack) hack hpopped
  have hbounds := sent_le (s := { s with
    sender := s.sender.acknack (nackBitmap acknack) (seqOf s.agent.popped.length) }) hsender
  have hflight : s'.InFlight history s.agent.popped.length s.agent.popped.length := by
    rw [hstep₂]
    refine h.inFlight.next hack [] (s.sender.sent.drop s.agent.popped.length)
      (List.append_nil _).symm rfl (fun m hm => ?_) rfl ⟨[], rfl, .nil, fun k hk => ?_⟩
    · obtain ⟨i, hi, rfl⟩ := List.mem_iff_getElem.mp hm
      rw [List.length_drop] at hi
      refine ⟨s.agent.popped.length + i, ?_, hbounds.2.trans ?_⟩
      · rw [List.getElem_drop]
        exact List.getElem?_eq_getElem _
      · exact Nat.add_le_add_right (Nat.le_add_right _ _) _
    · exact absurd hk List.not_mem_nil
  have hagent : s'.agent = s.agent := by rw [hstep₂]
  refine ⟨⟨hrun₂, ⟨?_, ?_, ?_, ?_⟩, ?_, ?_⟩, hagent, ?_, ?_⟩
  · rw [hstep₂]
    exact hsender
  · rw [hagent]
    exact hflight
  · rw [hstep₂]
    exact h.receives
  · rw [hstep₂]
  · rw [hstep₂]
    rfl
  · rw [hstep₂]
  · rw [hstep₂]
  · rw [hstep₂]

/-- The messages from `first` on arrive in order, and each is followed by a pop. -/
def redelivered (info : UxrSessionInfo) (streamIdRaw : UInt8) (s : ClientToAgent) (first n : ℕ) :
    ClientToAgent :=
  ((List.range n).flatMap fun j => [Event.receive (first + j), .popMessage]).foldl
    (step info streamIdRaw) s

/-- One message more. -/
lemma redelivered_succ (s : ClientToAgent) (first n : ℕ) :
    redelivered info streamIdRaw s first (n + 1) =
      ((redelivered info streamIdRaw s first n).step info streamIdRaw (.receive (first + n))).step
        info streamIdRaw .popMessage := by
  unfold redelivered
  rw [List.range_succ, List.flatMap_append, List.foldl_append]
  rfl

/-- A message that arrives changes the Agent alone, and pops nothing. -/
lemma receive_frame (info : UxrSessionInfo) (streamIdRaw : UInt8) (s : ClientToAgent) (i : ℕ) :
    (s.step info streamIdRaw (.receive i)).sender = s.sender ∧
      (s.step info streamIdRaw (.receive i)).data = s.data ∧
      (s.step info streamIdRaw (.receive i)).acknacks = s.acknacks ∧
      (s.step info streamIdRaw (.receive i)).agent.popped = s.agent.popped := by
  rw [step]
  split <;> exact ⟨rfl, rfl, rfl, rfl⟩

/-- What the client sends again arrives. -/
lemma stage_redeliver (hrun : Reaches (Starts info) (step info streamIdRaw) Admitted s)
    (h : s.Agrees info streamIdRaw history a) (hhistory : history < 16384)
    {before : List (ℕ × List UInt8)} {first : ℕ} (hfirst : before.length = first) {popped : ℕ}
    (hpopped : s.agent.popped.length = popped)
    (hdata : s.data = before ++ (s.sender.sent.drop popped).map fun m => (s.sender.sent.length, m))
    (n : ℕ) :
    Stage info streamIdRaw history s (redelivered info streamIdRaw s first n) a ∧
      (redelivered info streamIdRaw s first n).sender = s.sender ∧
      (redelivered info streamIdRaw s first n).data = s.data ∧
      (redelivered info streamIdRaw s first n).acknacks = s.acknacks ∧
      min (popped + n) s.sender.sent.length ≤
        (redelivered info streamIdRaw s first n).agent.popped.length := by
  have hget : ∀ j, s.data[first + j]? =
      (s.sender.sent[popped + j]?).map fun m => (s.sender.sent.length, m) := by
    intro j
    rw [hdata, ← hfirst, List.getElem?_append_right (Nat.le_add_right _ _), Nat.add_sub_cancel_left,
      List.getElem?_map, List.getElem?_drop]
  induction n with
  | zero => exact ⟨⟨hrun, h, rfl, le_rfl⟩, rfl, rfl, rfl, (min_le_left _ _).trans hpopped.ge⟩
  | succ n ih =>
    obtain ⟨hstage, hsender, hdata', hacknacks, hmin⟩ := ih
    rw [redelivered_succ]
    obtain ⟨s₁, hs₁⟩ : ∃ s₁, s₁ = redelivered info streamIdRaw s first n := ⟨_, rfl⟩
    rw [← hs₁] at hstage hsender hdata' hacknacks hmin ⊢
    have hlate : ∀ e ∈ s₁.data[first + n]?, s₁.sender.sent.length ≤ e.1 + lateness := by
      intro e he
      rw [hdata', hget n, Option.mem_map] at he
      obtain ⟨m, -, rfl⟩ := he
      rw [hsender]
      exact Nat.le_add_right _ _
    obtain ⟨hsender₂, hdata₂, hacknacks₂, hpopped₂⟩ :=
      receive_frame info streamIdRaw s₁ (first + n)
    have hagrees₂ := hstage.agrees.receive hhistory hlate
    have hrun₂ := hstage.reached.next (show Admitted s₁ (.receive (first + n)) from hlate)
    have hle : s₁.agent.popped.length ≤ ((s₁.step info streamIdRaw (.receive (first + n))).step info
        streamIdRaw .popMessage).agent.popped.length := by
      rw [← hpopped₂]
      exact (InputHistory.popMessage_frame _).2
    refine ⟨⟨hrun₂.next trivial, hagrees₂.popMessage, ?_, hstage.popped_le.trans hle⟩,
      hsender₂.trans hsender, hdata₂.trans hdata', hacknacks₂.trans hacknacks, ?_⟩
    · exact (congrArg Sender.sent hsender₂).trans hstage.sent
    · by_cases hnext : s₁.agent.popped.length = popped + n ∧ popped + n < s.sender.sent.length
      · obtain ⟨hnext, hlt⟩ := hnext
        obtain ⟨m, hm⟩ : ∃ m, s.sender.sent[popped + n]? = some m :=
          ⟨_, List.getElem?_eq_getElem hlt⟩
        have hseq := sequenceNr_of_messageHeader
          (hstage.agrees.sender.header _ _ (by rw [hsender]; exact hm))
        rw [← hnext] at hseq
        have hdeliver := hstage.agrees.receives.deliver _ hseq
        have hstep : s₁.step info streamIdRaw (.receive (first + n)) = { s₁ with
            agent := s₁.agent.step (.pushMessage (InputMessage.new m).header.sequenceNr
              (InputMessage.new m)) } := by
          rw [step, hdata', hget n, hm]
          rfl
        rw [hstep]
        exact (min_le_left _ _).trans (by rw [← Nat.add_assoc, ← hnext]; exact hdeliver.ge)
      · refine le_trans ?_ hle
        omega

/-- An exchange delivers what was sent, and has what was popped before acknowledged. -/
theorem stage_exchange (hrun : Reaches (Starts info) (step info streamIdRaw) Admitted s)
    (h : s.Agrees info streamIdRaw history a) (hhistory : history < 16384)
    (hquiet : s.acknacks = [])
    {timestamp : ℤ} (hdue : s.Due timestamp)
    (hs' : s' = (s.exchange timestamp).foldl (step info streamIdRaw) s) :
    ∃ n, s.agent.popped.length ≤ n ∧ Stage info streamIdRaw history s s' n ∧ s'.acknacks = [] ∧
      s'.agent.popped.length = s.sender.sent.length := by
  have hbase : s.sender.stream.base.history = history := h.sender.history_eq
  obtain ⟨s₁, hs₁⟩ : ∃ s₁, s₁ = ([.heartbeat timestamp, .receiveHeartbeat s.heartbeats.length] :
    List Event).foldl (step info streamIdRaw) s := ⟨_, rfl⟩
  obtain ⟨hstage₁, hdata₁, hacknacks₁, hannounced₁⟩ := stage_heartbeat hrun h hhistory hdue hs₁
  obtain ⟨s₂, hs₂⟩ : ∃ s₂, s₂ = { s₁ with
    agent := (InputHistory.step · .popMessage)^[reliableStreamDepth] s₁.agent } := ⟨_, rfl⟩
  obtain ⟨hstage₂, hannounced₂⟩ := stage_pops hstage₁.reached hstage₁.agrees reliableStreamDepth
  have hmissing := hstage₁.agrees.receives.tracks.drained
  rw [← hs₂] at hstage₂
  obtain ⟨s₃, hs₃⟩ : ∃ s₃, s₃ = ([.fillAcknack, .readAcknack] : List Event).foldl
    (step info streamIdRaw) s₂ := ⟨_, rfl⟩
  have hagent₂ : s₂.agent = (InputHistory.step · .popMessage)^[reliableStreamDepth] s₁.agent := by
    rw [hs₂]
  have hdata₂ : s₂.data = s.data := by rw [hs₂, ← hdata₁]
  have hacknacks₂ : s₂.acknacks = [] := by rw [hs₂, ← hquiet, ← hacknacks₁]
  have hsent₂ : s₂.sender.sent = s.sender.sent := hstage₂.sent.trans hstage₁.sent
  obtain ⟨hstage₃, hagent₃, hacknacks₃, hdata₃⟩ := stage_answer hstage₂.reached
    hstage₂.agrees hhistory
    hacknacks₂ (by rw [hagent₂, hannounced₂, hannounced₁, hsent₂]) (hagent₂ ▸ hmissing) hs₃
  obtain ⟨hstage₄, -, -, hacknacks₄, hmin⟩ := stage_redeliver hstage₃.reached
    hstage₃.agrees hhistory
    (congrArg List.length hdata₂) (congrArg (fun agent => agent.popped.length) hagent₃)
    (by rw [hdata₃, hstage₃.sent]) history
  have heq : s' = redelivered info streamIdRaw s₃ s.data.length history := by
    rw [hs', exchange, List.foldl_append, List.foldl_append, List.foldl_append, ← hs₁, foldl_pops,
      ← hs₂, ← hs₃, hbase]
    rfl
  rw [← heq] at hstage₄ hacknacks₄ hmin
  have hstage := ((hstage₁.trans hstage₂).trans hstage₃).trans hstage₄
  refine ⟨s₂.agent.popped.length, hstage₁.popped_le.trans hstage₂.popped_le, hstage,
    hacknacks₄.trans hacknacks₃, ?_⟩
  have hle := hstage.agrees.receives.popped_le
  have hbound := (sent_le hstage₂.agrees.sender).2
  have hack := hstage₂.agrees.acknowledged_le
  rw [hstage.sent] at hle
  rw [hsent₂] at hbound
  rw [hstage₃.sent, hsent₂, min_eq_right (by omega)] at hmin
  exact le_antisymm hle hmin

omit [FastCdr] in
/-- When as many messages are acknowledged as were sent, the stream is up to date. -/
lemma uxrIsOutputUpToDate_of_agrees (h : s.Agrees info streamIdRaw history s.sender.sent.length) :
    uxrIsOutputUpToDate s.sender.stream = true := by
  obtain ⟨w, hw, -⟩ := h.sender.window
  have heq : s.sender.stream.lastAcknown = s.sender.stream.lastSent := by
    rw [hw.lastAcknown_eq, hw.lastSent_eq]
  exact decide_eq_true ((uxrSeqNumCmp_eq_zero_iff _ _).mpr heq).symm

/-- What the Agent has popped stays popped. -/
lemma popped_le_foldl (s : ClientToAgent) (events : List Event) :
    s.agent.popped.length ≤
      (events.foldl (step info streamIdRaw) s).agent.popped.length := by
  induction events generalizing s with
  | nil => exact le_rfl
  | cons event events ih =>
    refine le_trans ?_ (ih (s.step info streamIdRaw event))
    cases event with
    | write | flash | fillAcknack | loseAcknack => exact le_rfl
    | popMessage => exact InputHistory.popped_le_step _ _
    | heartbeat | readAcknack =>
      rw [step]
      split <;> exact le_rfl
    | receive | receiveHeartbeat =>
      rw [step]
      split
      · exact InputHistory.popped_le_step _ _
      · exact le_rfl

/-- An exchange that begins when everything was popped has everything acknowledged. -/
lemma upToDate_of_popped (hrun : Reaches (Starts info) (step info streamIdRaw) Admitted s)
    (hpopped : s.sender.sent.length ≤ s.agent.popped.length) (hquiet : s.acknacks = [])
    {timestamp : ℤ} (hdue : s.Due timestamp) :
    uxrIsOutputUpToDate
      ((s.exchange timestamp).foldl (step info streamIdRaw) s).sender.stream = true := by
  obtain ⟨history, hhistory, a, h⟩ := agrees_of_run hrun
  obtain ⟨s', hs'⟩ : ∃ s', s' = (s.exchange timestamp).foldl (step info streamIdRaw) s := ⟨_, rfl⟩
  obtain ⟨n, hle, hstage, -, -⟩ := stage_exchange hrun h hhistory hquiet hdue hs'
  rw [← hs']
  -- everything had been popped before, so the ACKNACK is of everything
  have heq : n = s'.sender.sent.length := by
    apply le_antisymm
    · exact (sent_le hstage.agrees.sender).1
    · rw [hstage.sent]
      exact hpopped.trans hle
  exact uxrIsOutputUpToDate_of_agrees (heq ▸ hstage.agrees)

/-- Whatever was lost in a run, an exchange repairs: when no ACKNACK is on its way and a heartbeat
is due, then after the exchange the Agent has popped every message that was sent, in order and as it
was sent first, nothing has been sent that was not sent before, and after any later exchange the
client knows that all of it has arrived, if it has sent nothing more. -/
theorem clientToAgent_recovers
    (hrun : Reaches (Starts info) (step info streamIdRaw) Admitted s) (hquiet : s.acknacks = [])
    {timestamp : ℤ} (hdue : s.Due timestamp) :
    Recovers info streamIdRaw s ((s.exchange timestamp).foldl (step info streamIdRaw) s) := by
  obtain ⟨history, hhistory, a, h⟩ := agrees_of_run hrun
  obtain ⟨s', hs'⟩ : ∃ s', s' = (s.exchange timestamp).foldl (step info streamIdRaw) s := ⟨_, rfl⟩
  rw [← hs']
  obtain ⟨n, -, hstage, hacknacks, hpopped⟩ := stage_exchange hrun h hhistory hquiet hdue hs'
  refine ⟨hstage.reached, hstage.sent, ?_, hacknacks, ?_⟩
  · rw [hstage.agrees.receives.popped, hpopped, hstage.sent, List.take_length]
  · rintro events later hevents rfl hsent hquiet' timestamp' hdue'
    have hreached := Reaches.foldl hstage.reached events hevents
    have hall : (events.foldl (step info streamIdRaw) s').sender.sent.length ≤
        (events.foldl (step info streamIdRaw) s').agent.popped.length := by
      rw [hsent, hstage.sent, ← hpopped]
      exact popped_le_foldl s' events
    exact upToDate_of_popped hreached hall hquiet' hdue'

end Stages

/-- The only message of a stream is lost, and the heartbeat after it is not due yet. -/
def afterLoss : ClientToAgent :=
  after [.write (ucdrInitBuffer 0 0) 7 0 [1, 2, 3, 4], .flash, .heartbeat 0]

/-- The exchange that follows has it delivered. -/
theorem clientToAgent_recovers_afterLoss :
    Recovers keylessSession 128 afterLoss
      ((afterLoss.exchange 1000).foldl (step keylessSession 128) afterLoss) := by
  have hstart : Reaches (Starts keylessSession) (step keylessSession 128) Admitted (after []) :=
    .start ⟨_, ⟨1, by decide, rfl⟩, rfl⟩
  have hwrite : Admitted (after []) (.write (ucdrInitBuffer 0 0) 7 0 [1, 2, 3, 4]) :=
    show FitsSlot (after []).sender.stream (submessageSize 4) by decide
  have hflash : Admitted (after [.write (ucdrInitBuffer 0 0) 7 0 [1, 2, 3, 4]]) .flash := trivial
  have hheartbeat : Admitted (after [.write (ucdrInitBuffer 0 0) 7 0 [1, 2, 3, 4], .flash])
      (.heartbeat 0) := trivial
  have hlost : Reaches (Starts keylessSession) (step keylessSession 128) Admitted afterLoss :=
    ((hstart.next hwrite).next hflash).next hheartbeat
  apply clientToAgent_recovers hlost
  · rfl
  · show (uxrUpdateOutputStreamHeartbeatTimestamp afterLoss.sender.stream 1000).2 = true
    decide

end ClientToAgent

end XrceDds
