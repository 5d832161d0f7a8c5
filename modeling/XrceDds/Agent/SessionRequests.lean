import XrceDds.Agent.Root
import XrceDds.Agent.SessionManager

/-!
# Creating and deleting clients

What the processor does with a CREATE_CLIENT and with the DELETE of a client: both change the
clients of `Root` and the sessions of the transport, and both are answered.

A client is deleted by the key in the header of the message or, where the header has none, by the
key that was established at the endpoint which the message comes from.  The DELETE of a client that
is not there is answered with `STATUS_OK` as well.
-/

namespace XrceDds

/-- `conversion::clientkey_to_raw`. -/
def clientkeyToRaw (key : ClientKey) : UInt32 := .ofFin key

/-- `conversion::raw_to_clientkey`. -/
def rawToClientkey (raw : UInt32) : ClientKey := raw.toFin

@[simp]
lemma rawToClientkey_clientkeyToRaw (key : ClientKey) : rawToClientkey (clientkeyToRaw key) = key :=
  UInt32.toFin_ofFin key

@[simp]
lemma clientkeyToRaw_rawToClientkey (raw : UInt32) : clientkeyToRaw (rawToClientkey raw) = raw :=
  UInt32.ofFin_toFin raw

/-- The octet of a status. -/
def ClientStatus.value : ClientStatus → UInt8
  | .ok => 0x00
  | .unknownReference => 0x84
  | .invalidData => 0x85
  | .incompatible => 0x86
  | .resources => 0x87

lemma ClientStatus.value_eq_zero {status : ClientStatus} : status.value = 0 ↔ status = .ok := by
  cases status <;> decide

/-- A submessage that is about a client: a CREATE_CLIENT, or a DELETE whose object is the client. -/
inductive SessionSubmessage where
  | createClient (representation : ClientRepresentation)
  | deleteClient (requestId : UInt16)
  deriving DecidableEq

/-- A message with such a submessage.  The key is there when the session has one in its headers. -/
structure SessionMessage where
  sessionId : UInt8
  clientKey : ClientKey
  submessage : SessionSubmessage
  deriving DecidableEq

/-- The answers: a STATUS_AGENT, or a STATUS with the request that it is about. -/
inductive SessionStatus where
  | statusAgent (status : UInt8)
  | status (requestId : UInt16) (status : UInt8)
  deriving DecidableEq

/-- The status in an answer. -/
def SessionStatus.value : SessionStatus → UInt8
  | .statusAgent octet => octet
  | .status _ octet => octet

/-- A message with an answer. -/
structure SessionAnswer where
  sessionId : UInt8
  clientKey : ClientKey
  status : SessionStatus
  deriving DecidableEq

/-- What the processor works on: the clients, and the sessions of the transport. -/
structure AgentSessions (μ EndPoint : Type) where
  root : Root μ
  manager : SessionManager EndPoint

namespace AgentSessions

section

variable {μ EndPoint : Type} [DecidableEq EndPoint] (middleware : MiddlewareClass μ)
  (kind : MiddlewareKind)

/-- `Root::delete_client`, with the call of `get_client` that it starts with. -/
def deleteClient (root : Root μ) (key : ClientKey) : Root μ × ClientStatus :=
  root.deleteClient middleware key (root.getClient key)

/-- `process_create_client_submessage`, up to the creation: another client that is found at the
source is deleted. -/
def makeRoom (agent : AgentSessions μ EndPoint) (source : EndPoint)
    (representation : ClientRepresentation) : AgentSessions μ EndPoint × Bool :=
  match agent.manager.getClientKey source with
  | some raw =>
    if representation.clientKey ≠ rawToClientkey raw then
      let deleted := deleteClient middleware agent.root (rawToClientkey raw)
      if deleted.2 = .ok ∨ deleted.2 = .unknownReference then
        (⟨deleted.1, agent.manager.destroySession source⟩, true)
      else ({ agent with root := deleted.1 }, false)
    else (agent, true)
  | none => (agent, true)

/-- `process_create_client_submessage`, behind the test of the header. -/
def processCreateClientSubmessage (agent : AgentSessions μ EndPoint) (source : EndPoint)
    (message : SessionMessage) (representation : ClientRepresentation) (now : ℤ) :
    AgentSessions μ EndPoint × Option SessionAnswer :=
  let room := agent.makeRoom middleware source representation
  if room.2 then
    let result := room.1.root.createClient middleware representation kind now
    let manager := if result.2 = .ok then
      room.1.manager.establishSession source (clientkeyToRaw representation.clientKey)
        representation.sessionId
      else room.1.manager
    (⟨result.1, manager⟩,
      some ⟨representation.sessionId, message.clientKey, .statusAgent result.2.value⟩)
  else (room.1, none)

/-- `process_delete_submessage`, where the object is the client. -/
def processDeleteSubmessage (agent : AgentSessions μ EndPoint) (source : EndPoint)
    (client : ClientRecord μ) (requestId : UInt16) :
    AgentSessions μ EndPoint × Option SessionAnswer :=
  let clientKey := client.representation.clientKey
  let deleted := deleteClient middleware agent.root clientKey
  let manager := if deleted.2 = .ok then agent.manager.destroySession source else agent.manager
  (⟨deleted.1, manager⟩,
    some ⟨client.representation.sessionId, clientKey, .status requestId deleted.2.value⟩)

/-- The key that `process_input_packet` looks a client up with. -/
def packetKey (agent : AgentSessions μ EndPoint) (source : EndPoint) (message : SessionMessage) :
    ClientKey :=
  if HasSessionClientKey message.sessionId then message.clientKey
  else match agent.manager.getClientKey source with
    | some raw => rawToClientkey raw
    | none => clientkeyInvalid

/-- `process_input_packet`.  A message of no session creates a client, one of a session that exists
may delete it, and the DELETE of a client that is not there is answered as well.  What else is done
to a client that sends a message is left out. -/
def processInputPacket (agent : AgentSessions μ EndPoint) (source : EndPoint)
    (message : SessionMessage) (now : ℤ) : AgentSessions μ EndPoint × Option SessionAnswer :=
  if message.sessionId = 0 ∨ message.sessionId = 128 then
    match message.submessage with
    | .createClient representation =>
      agent.processCreateClientSubmessage middleware kind source message representation now
    | .deleteClient _ => (agent, none)
  else
    match agent.root.storedClient (agent.packetKey source message), message.submessage with
    | some client, .deleteClient requestId =>
      agent.processDeleteSubmessage middleware source client requestId
    | none, .deleteClient requestId =>
      (agent, some ⟨message.sessionId, message.clientKey, .status requestId ClientStatus.ok.value⟩)
    -- The header of a CREATE_CLIENT has to be of no session.
    | _, .createClient _ => (agent, none)

end

end AgentSessions

/-! ## The clients of `Root` -/

namespace Root

variable {μ : Type} {middleware : MiddlewareClass μ} {root : Root μ} {key key' : ClientKey}

/-- There is a client under the key. -/
def Holds (root : Root μ) (key : ClientKey) : Prop := root.getClient key ≠ none

instance (root : Root μ) (key : ClientKey) : Decidable (root.Holds key) :=
  inferInstanceAs (Decidable (root.getClient key ≠ none))

lemma holds_iff : root.Holds key ↔ ∃ e ∈ root.clients.entries, e.key = key := by
  unfold Holds getClient
  rw [ne_eq, Option.map_eq_none_iff, NodeMap.find_eq_none_iff]
  push Not
  rfl

/-- `create_client` adds the client of the representation, where it gives `STATUS_OK`. -/
lemma holds_createClient (representation : ClientRepresentation) (kind : MiddlewareKind) (now : ℤ) :
    (root.createClient middleware representation kind now).1.Holds key ↔
      root.Holds key ∨ (key = representation.clientKey ∧
        (root.createClient middleware representation kind now).2 = .ok) := by
  unfold createClient
  split
  · simp
  · split
    · split
      · split
        · rw [and_iff_left rfl, holds_iff, holds_iff]
          exact NodeMap.exists_key_emplace
        · next number hfound =>
          have hthere : root.Holds representation.clientKey := by
            unfold Holds
            rw [hfound]
            exact Option.some_ne_none number
          have habsorb : root.Holds key ∨ key = representation.clientKey ↔ root.Holds key :=
            ⟨fun h => h.elim id fun heq => heq ▸ hthere, .inl⟩
          split
          · rw [and_iff_left rfl, habsorb, holds_iff, holds_iff]
            exact NodeMap.exists_key_assign
          · rw [and_iff_left rfl, habsorb]
            rfl
      · simp
    · simp

/-- `delete_client` takes the client away. -/
lemma holds_deleteClient :
    (AgentSessions.deleteClient middleware root key').1.Holds key ↔ root.Holds key ∧
      key ≠ key' := by
  unfold AgentSessions.deleteClient deleteClient
  cases hfound : root.getClient key' with
  | none =>
    refine ⟨fun h => ⟨h, ?_⟩, And.left⟩
    rintro rfl
    exact h hfound
  | some number =>
    rw [holds_iff, holds_iff]
    exact NodeMap.exists_key_erase

/-- `delete_client` finds the client or not. -/
lemma deleteClient_status :
    (AgentSessions.deleteClient middleware root key).2 = .ok ∨
      (AgentSessions.deleteClient middleware root key).2 = .unknownReference := by
  unfold AgentSessions.deleteClient deleteClient
  cases root.getClient key with
  | none => exact .inr rfl
  | some number => exact .inl rfl

/-- The `Root`s of the runs, between the calls. -/
def Reached (middleware : MiddlewareClass μ) (root : Root μ) : Prop :=
  ∃ run : RootRun μ, run.Reached middleware ∧ run.root = root ∧ run.found 0 = none

lemma reached_new : Reached middleware (new : Root μ) := ⟨.new, .start rfl, rfl, rfl⟩

lemma Reached.createClient (h : root.Reached middleware) (representation : ClientRepresentation)
    (kind : MiddlewareKind) (now : ℤ) :
    (root.createClient middleware representation kind now).1.Reached middleware := by
  obtain ⟨run, hrun, rfl, hfound⟩ := h
  exact ⟨run.step middleware (.create representation kind now), hrun.next trivial, rfl, hfound⟩

lemma Reached.getNextClient (h : root.Reached middleware) :
    root.getNextClient.1.Reached middleware := by
  obtain ⟨run, hrun, rfl, hfound⟩ := h
  exact ⟨run.step middleware .next, hrun.next trivial, rfl, hfound⟩

lemma Reached.deleteClient (h : root.Reached middleware) (key : ClientKey) :
    (AgentSessions.deleteClient middleware root key).1.Reached middleware := by
  obtain ⟨run, hrun, rfl, hfound⟩ := h
  have hlookup : RootRun.Reached middleware (run.step middleware (.lookup 0 key)) :=
    hrun.next hfound
  refine ⟨(run.step middleware (.lookup 0 key)).step middleware (.erase 0), hlookup.next trivial,
    ?_, ?_⟩
  · simp [RootRun.step, AgentSessions.deleteClient]
  · simp [RootRun.step]

/-- A client that is there has the key under which it is. -/
lemma Reached.storedClient (h : root.Reached middleware) (hholds : root.Holds key) :
    ∃ client, root.storedClient key = some client ∧ client.representation.clientKey = key := by
  obtain ⟨run, hrun, rfl, -⟩ := h
  obtain ⟨number, hnumber⟩ := Option.ne_none_iff_exists'.mp hholds
  obtain ⟨e, he, rfl, rfl⟩ := RootRun.getClient_eq_some_iff.mp hnumber
  obtain ⟨client, hclient, hkey⟩ := Option.map_eq_some_iff.mp (hrun.sound.keyed e he)
  refine ⟨client, ?_, hkey⟩
  unfold Root.storedClient
  rw [hnumber]
  exact hclient

lemma storedClient_of_not_holds (h : ¬ root.Holds key) : root.storedClient key = none := by
  unfold Root.storedClient
  rw [not_not.mp h]
  rfl

end Root

end XrceDds
