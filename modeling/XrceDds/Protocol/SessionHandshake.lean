import XrceDds.Agent.SessionAgreement
import XrceDds.Client.RequestStatus

/-!
# Creating and deleting a session

`uxr_create_session` and `uxr_delete_session` of a client, the Agent, and the messages between them.
Messages are lost, repeated and reordered in both directions, the client sends its message again as
long as it has no status, and other clients send what they like.

The client takes any STATUS_AGENT for the answer to what it asked for, also while it deletes its
session.  What a call says is so when no answer to an earlier one is on the way as it begins
(`sessionRetries_settles`), and need not be otherwise.
-/

namespace XrceDds

namespace SessionHandshake

/-! ## The client -/

/-- What `uxrSessionInfo` keeps of the requests. -/
structure RequestInfo where
  lastRequestId : UInt16
  lastRequestedStatus : UInt8
  deriving DecidableEq

/-- `uxr_read_create_session_status` and `uxr_read_delete_session_status`.  The first one does not
look at what was asked for. -/
def readSessionStatus (info : RequestInfo) : SessionStatus → RequestInfo
  | .statusAgent status => { info with lastRequestedStatus := status }
  | .status requestId status =>
    if info.lastRequestId = SessionClient.requestId .delete ∧
        requestId = SessionClient.requestId .delete then
      { info with lastRequestedStatus := status }
    else info

section

variable {EndPoint : Type} (client : SessionClient EndPoint)

/-- `read_message`, of a message without a stream. -/
def readAnswer (info : RequestInfo) (answer : SessionAnswer) : RequestInfo :=
  if answer.sessionId = client.id ∧
      (HasSessionClientKey client.id → answer.clientKey = client.key) then
    readSessionStatus info answer.status
  else info

/-! ## The system -/

/-- A client and an Agent: the Agent's maps, the messages that are on the way to the Agent, the
answers that are on the way back, and what the client keeps. -/
structure System (μ EndPoint : Type) where
  agent : AgentSessions μ EndPoint
  toAgent : List SessionMessage
  toClient : List SessionAnswer
  info : RequestInfo

/-- What happens: the client makes a call, and sends its message; a message arrives, and may stay to
arrive once more, or is lost, in either direction; another client sends a message; the Agent looks
at the next client. -/
inductive Event (EndPoint : Type) where
  | start (call : SessionCall)
  | transmit (call : SessionCall)
  | arrive (index : ℕ) (stays : Bool) (now : ℤ)
  | lose (index : ℕ)
  | hear (index : ℕ) (stays : Bool)
  | loseAnswer (index : ℕ)
  | other (source : EndPoint) (message : SessionMessage) (now : ℤ)
  | sweep

/-- What is left on the way after a message has arrived. -/
def leave {α : Type} (messages : List α) (index : ℕ) (stays : Bool) : List α :=
  if stays then messages else messages.eraseIdx index

variable {μ : Type} [DecidableEq EndPoint] (middleware : MiddlewareClass μ) (kind : MiddlewareKind)

/-- What an event does. -/
def step (st : System μ EndPoint) : Event EndPoint → System μ EndPoint
  | .start call =>
    { st with info := ⟨SessionClient.requestId call, uxrStatusNone⟩ }
  | .transmit call => { st with toAgent := client.message call :: st.toAgent }
  | .arrive index stays now =>
    match st.toAgent[index]? with
    | some message =>
      let result := st.agent.processInputPacket middleware kind client.endpoint message now
      { st with
        agent := result.1
        toAgent := leave st.toAgent index stays
        toClient := result.2.toList ++ st.toClient }
    | none => st
  | .lose index => { st with toAgent := st.toAgent.eraseIdx index }
  | .hear index stays =>
    match st.toClient[index]? with
    | some answer =>
      { st with
        toClient := leave st.toClient index stays
        info := readAnswer client st.info answer }
    | none => st
  | .loseAnswer index => { st with toClient := st.toClient.eraseIdx index }
  | .other source message now =>
    { st with agent := (st.agent.processInputPacket middleware kind source message now).1 }
  | .sweep => { st with agent := { st.agent with root := st.agent.root.getNextClient.1 } }

/-- Other clients have keys and endpoints of their own. -/
def Admitted (_ : System μ EndPoint) : Event EndPoint → Prop
  | .other source message _ => source ≠ client.endpoint ∧ message.Foreign client
  | _ => True

/-- What happens while the client makes no call. -/
def Around : Event EndPoint → Prop
  | .start _ | .transmit _ => False
  | .other source message _ => source ≠ client.endpoint ∧ message.Foreign client
  | _ => True

/-- An Agent without clients, and nothing on the way. -/
def Starts (st : System μ EndPoint) : Prop :=
  st.agent = ⟨.new, .empty⟩ ∧ st.toAgent = [] ∧ st.toClient = []

/-- The states that a run reaches. -/
def Reachable (st : System μ EndPoint) : Prop :=
  Transition.Reaches Starts (step client middleware kind) (Admitted client) st

/-- `wait_session_status`, with what happens during each attempt. -/
def waitSessionStatus (call : SessionCall) :
    List (List (Event EndPoint)) → System μ EndPoint → System μ EndPoint
  | [], st => st
  | events :: attempts, st =>
    if st.info.lastRequestedStatus = uxrStatusNone then
      waitSessionStatus call attempts
        (events.foldl (step client middleware kind)
          (step client middleware kind st (.transmit call)))
    else st

/-- `uxr_create_session_retries` and `uxr_delete_session_retries`. -/
def sessionRetries (call : SessionCall) (attempts : List (List (Event EndPoint)))
    (st : System μ EndPoint) : System μ EndPoint × Bool :=
  let st' := waitSessionStatus client middleware kind call attempts
    (step client middleware kind st (.start call))
  (st', st'.info.lastRequestedStatus != uxrStatusNone &&
    st'.info.lastRequestedStatus == uxrStatusOk)

end

/-! ## What a run keeps -/

section

variable {EndPoint μ : Type} [DecidableEq EndPoint] {client : SessionClient EndPoint}
  {middleware : MiddlewareClass μ} {kind : MiddlewareKind} {st : System μ EndPoint}

lemma mem_of_mem_leave {α : Type} {messages : List α} {index : ℕ} {stays : Bool} {m : α}
    (h : m ∈ leave messages index stays) : m ∈ messages := by
  unfold leave at h
  split at h
  · exact h
  · exact List.mem_of_mem_eraseIdx h

omit [DecidableEq EndPoint] in
/-- The sweep of the heartbeats leaves the clients alone. -/
lemma getNextClient_apart {agent : AgentSessions μ EndPoint}
    (h : agent.Agrees middleware client) :
    agent.Apart middleware client { agent with root := agent.root.getNextClient.1 } := by
  have hclients : agent.root.getNextClient.1.clients = agent.root.clients := by
    unfold Root.getNextClient
    split <;> rfl
  have hsame : ∀ key, agent.root.getNextClient.1.Holds key ↔ agent.root.Holds key := by
    intro key
    unfold Root.Holds Root.getClient
    rw [hclients]
  exact ⟨⟨h.reached.getNextClient, fun hinvalid => h.invalid ((hsame _).mp hinvalid), h.placed,
    fun hholds => h.found ((hsame _).mp hholds)⟩, hsame _⟩

/-- The Agent's maps agree on the client, and only its own messages are on the way from it. -/
structure Invariant (client : SessionClient EndPoint) (middleware : MiddlewareClass μ)
    (st : System μ EndPoint) : Prop where
  agrees : st.agent.Agrees middleware client
  messages : ∀ m ∈ st.toAgent, ∃ call, m = client.message call

omit [DecidableEq EndPoint] in
lemma Starts.invariant (h : Starts st) : Invariant client middleware st := by
  obtain ⟨hagent, hto, -⟩ := h
  refine ⟨?_, fun m hm => absurd hm (hto ▸ List.not_mem_nil)⟩
  rw [hagent]
  exact ⟨Root.reached_new, fun h => h rfl, .empty, fun h => absurd rfl h⟩

/-- Every event keeps the invariant. -/
lemma Invariant.step (h : Invariant client middleware st) {e : Event EndPoint}
    (he : Admitted client st e) :
    Invariant client middleware (step client middleware kind st e) := by
  cases e with
  | start call => exact ⟨h.agrees, h.messages⟩
  | transmit call =>
    refine ⟨h.agrees, fun m hm => ?_⟩
    rcases List.mem_cons.mp hm with rfl | hm
    · exact ⟨call, rfl⟩
    · exact h.messages m hm
  | arrive index stays now =>
    simp only [SessionHandshake.step]
    split
    case h_2 => exact h
    case h_1 message hget =>
      obtain ⟨call, rfl⟩ := h.messages message (List.mem_of_getElem? hget)
      exact ⟨(h.agrees.processInputPacket_own kind now call).agrees,
        fun m hm => h.messages m (mem_of_mem_leave hm)⟩
  | lose index => exact ⟨h.agrees, fun m hm => h.messages m (List.mem_of_mem_eraseIdx hm)⟩
  | hear index stays =>
    simp only [SessionHandshake.step]
    split <;> exact ⟨h.agrees, h.messages⟩
  | loseAnswer index => exact ⟨h.agrees, h.messages⟩
  | other source message now =>
    exact ⟨(h.agrees.processInputPacket_other kind now he.1 he.2).agrees, h.messages⟩
  | sweep => exact ⟨(getNextClient_apart h.agrees).agrees, h.messages⟩

/-- The invariant holds along every run. -/
lemma Reachable.invariant (h : Reachable client middleware kind st) :
    Invariant client middleware st :=
  Transition.Reaches.invariant (I := Invariant client middleware) (fun _ hs => Starts.invariant hs)
    (fun _ _ hs he => hs.step he) h

/-- While the client asks for one thing only: what is on the way was sent for it, and whoever says
`STATUS_OK` says so because it is done. -/
structure Asks (client : SessionClient EndPoint) (middleware : MiddlewareClass μ)
    (call : SessionCall) (st : System μ EndPoint) : Prop where
  agrees : st.agent.Agrees middleware client
  messages : ∀ m ∈ st.toAgent, m = client.message call
  answers : ∀ a ∈ st.toClient, a.status.value = uxrStatusOk → client.Settled st.agent.root call
  info : st.info.lastRequestedStatus = uxrStatusOk → client.Settled st.agent.root call

omit [DecidableEq EndPoint] in
/-- A status that the client takes over is one that was read. -/
lemma readAnswer_status (client : SessionClient EndPoint) (info : RequestInfo)
    (answer : SessionAnswer) :
    (readAnswer client info answer).lastRequestedStatus = info.lastRequestedStatus ∨
      (readAnswer client info answer).lastRequestedStatus = answer.status.value := by
  unfold readAnswer
  split
  · cases hstatus : answer.status with
    | statusAgent status => exact .inr rfl
    | status requestId status =>
      unfold readSessionStatus
      dsimp only
      split
      · exact .inr rfl
      · exact .inl rfl
  · exact .inl rfl

/-- What is done stays done. -/
lemma Asks.settled_step {call : SessionCall} (h : Asks client middleware call st)
    {e : Event EndPoint} (he : Around client e) (hdone : client.Settled st.agent.root call) :
    client.Settled (SessionHandshake.step client middleware kind st e).agent.root call := by
  cases e with
  | start call' | transmit call' => exact absurd he id
  | lose index | loseAnswer index => exact hdone
  | arrive index stays now =>
    simp only [SessionHandshake.step]
    split
    case h_2 => exact hdone
    case h_1 message hget =>
      obtain rfl := h.messages message (List.mem_of_getElem? hget)
      exact (h.agrees.processInputPacket_own kind now call).stays hdone
  | hear index stays =>
    simp only [SessionHandshake.step]
    split <;> exact hdone
  | other source message now =>
    exact (h.agrees.processInputPacket_other kind now he.1 he.2).settled hdone
  | sweep => exact (getNextClient_apart h.agrees).settled hdone

/-- What happens around the client keeps this. -/
lemma Asks.step {call : SessionCall} (h : Asks client middleware call st) {e : Event EndPoint}
    (he : Around client e) :
    Asks client middleware call (SessionHandshake.step client middleware kind st e) := by
  have hsettled : client.Settled st.agent.root call →
      client.Settled (SessionHandshake.step client middleware kind st e).agent.root call :=
    h.settled_step he
  cases e with
  | start call' | transmit call' => exact absurd he id
  | arrive index stays now =>
    simp only [SessionHandshake.step] at hsettled ⊢
    split at hsettled
    case h_2 hget => exact h
    case h_1 message hget =>
      obtain rfl := h.messages message (List.mem_of_getElem? hget)
      obtain ⟨hagrees, -, hanswer⟩ := h.agrees.processInputPacket_own kind now call
      refine ⟨hagrees, fun m hm => h.messages m (mem_of_mem_leave hm), fun a ha hok => ?_,
        fun hok => hsettled (h.info hok)⟩
      rcases List.mem_append.mp ha with ha | ha
      · exact hanswer a (Option.mem_toList.mp ha) hok
      · exact hsettled (h.answers a ha hok)
  | lose index =>
    exact ⟨h.agrees, fun m hm => h.messages m (List.mem_of_mem_eraseIdx hm), h.answers, h.info⟩
  | hear index stays =>
    simp only [SessionHandshake.step]
    split
    case h_2 => exact h
    case h_1 answer hget =>
      refine ⟨h.agrees, h.messages, fun a ha => h.answers a (mem_of_mem_leave ha), fun hok => ?_⟩
      rcases readAnswer_status client st.info answer with hsame | hread
      · exact h.info (hsame.symm.trans hok)
      · exact h.answers answer (List.mem_of_getElem? hget) (hread.symm.trans hok)
  | loseAnswer index =>
    exact ⟨h.agrees, h.messages, fun a ha => h.answers a (List.mem_of_mem_eraseIdx ha), h.info⟩
  | other source message now =>
    exact ⟨(h.agrees.processInputPacket_other kind now he.1 he.2).agrees, h.messages,
      fun a ha hok => hsettled (h.answers a ha hok), fun hok => hsettled (h.info hok)⟩
  | sweep =>
    exact ⟨(getNextClient_apart h.agrees).agrees, h.messages,
      fun a ha hok => hsettled (h.answers a ha hok), fun hok => hsettled (h.info hok)⟩

lemma Asks.foldl {call : SessionCall} {es : List (Event EndPoint)}
    (h : Asks client middleware call st) (hes : ∀ e ∈ es, Around client e) :
    Asks client middleware call (es.foldl (SessionHandshake.step client middleware kind) st) ∧
      (client.Settled st.agent.root call →
        client.Settled (es.foldl (SessionHandshake.step client middleware kind) st).agent.root
          call) := by
  induction es generalizing st with
  | nil => exact ⟨h, id⟩
  | cons e es ih =>
    have he := hes e (List.mem_cons_self ..)
    obtain ⟨hasks, hsettled⟩ := ih (h.step he) fun e' he' => hes e' (List.mem_cons_of_mem _ he')
    exact ⟨hasks, fun hdone => hsettled (h.settled_step he hdone)⟩

/-- The client sends its message once more. -/
lemma Asks.transmit {call : SessionCall} (h : Asks client middleware call st) :
    Asks client middleware call
      (SessionHandshake.step client middleware kind st (.transmit call)) := by
  refine ⟨h.agrees, fun m hm => ?_, h.answers, h.info⟩
  rcases List.mem_cons.mp hm with rfl | hm
  · rfl
  · exact h.messages m hm

lemma Asks.waitSessionStatus {call : SessionCall} {attempts : List (List (Event EndPoint))}
    (h : Asks client middleware call st)
    (hattempts : ∀ events ∈ attempts, ∀ e ∈ events, Around client e) :
    Asks client middleware call
      (SessionHandshake.waitSessionStatus client middleware kind call attempts st) := by
  induction attempts generalizing st with
  | nil => exact h
  | cons events attempts ih =>
    unfold SessionHandshake.waitSessionStatus
    split
    · exact ih (h.transmit.foldl (hattempts events (List.mem_cons_self ..))).1
        fun events' hevents' => hattempts events' (List.mem_cons_of_mem _ hevents')
    · exact h

/-- When a session is created or deleted with nothing of its own on the way, but for messages of the
same call, and the call gives true, then the Agent has the client, or has it no more, and this stays
so until the client makes another call: whatever is lost, repeated and reordered, whatever other
clients do, and however often the message had to be sent. -/
theorem sessionRetries_settles {call : SessionCall} {attempts : List (List (Event EndPoint))}
    (hreach : Reachable client middleware kind st)
    (hmessages : ∀ m ∈ st.toAgent, m = client.message call) (hanswers : st.toClient = [])
    (hattempts : ∀ events ∈ attempts, ∀ e ∈ events, Around client e)
    (hcall : (sessionRetries client middleware kind call attempts st).2 = true)
    {es : List (Event EndPoint)} (hes : ∀ e ∈ es, Around client e) :
    client.Settled (es.foldl (SessionHandshake.step client middleware kind)
      (sessionRetries client middleware kind call attempts st).1).agent.root call := by
  have hstart : Asks client middleware call
      (SessionHandshake.step client middleware kind st (.start call)) :=
    ⟨hreach.invariant.agrees, hmessages, fun a ha => absurd ha (hanswers ▸ List.not_mem_nil),
      fun hok => absurd hok (by simp [SessionHandshake.step, uxrStatusNone, uxrStatusOk])⟩
  have hasks : Asks client middleware call
      (sessionRetries client middleware kind call attempts st).1 :=
    hstart.waitSessionStatus hattempts
  obtain ⟨-, hok⟩ := Bool.and_eq_true_iff.mp hcall
  exact (hasks.foldl hes).2 (hasks.info (beq_iff_eq.mp hok))

end

/-- A middleware that keeps nothing. -/
def noMiddleware : MiddlewareClass Unit := ⟨fun _ => (), fun _ _ => ()⟩

/-- A client without a key in its headers, at endpoint 7. -/
def clientAtSeven : SessionClient ℕ := ⟨0x81, 5, 512, 7⟩

/-- Nothing has happened. -/
def newSystem : System Unit ℕ := ⟨⟨.new, .empty⟩, [], [], ⟨9, uxrStatusNone⟩⟩

/-- The first CREATE_CLIENT is lost, the second one arrives twice and is answered twice. -/
def createdTwice : System Unit ℕ × Bool :=
  sessionRetries clientAtSeven noMiddleware .ced .create
    [[.lose 0], [.arrive 0 true 0, .arrive 0 false 1, .hear 0 false]] newSystem

theorem sessionRetries_settles_createdTwice :
    clientAtSeven.Settled (([.hear 0 true] : List (Event ℕ)).foldl
      (step clientAtSeven noMiddleware .ced) createdTwice.1).agent.root .create :=
  sessionRetries_settles (.start ⟨rfl, rfl, rfl⟩) (by simp [newSystem]) rfl (by simp [Around])
    (by decide +kernel) (by simp [Around])

-- The second answer ends the deletion that follows, of which the DELETE is lost.
example :
    (sessionRetries clientAtSeven noMiddleware .ced .delete [[.lose 0, .hear 0 false]]
      createdTwice.1).2 = true ∧
    (sessionRetries clientAtSeven noMiddleware .ced .delete [[.lose 0, .hear 0 false]]
      createdTwice.1).1.agent.root.Holds 5 := by
  decide +kernel

end SessionHandshake

end XrceDds
