import XrceDds.Agent.SessionRequests
import XrceDds.Client.Submessage

/-!
# A client among others

The clients of `Root` and the sessions of the transport have to agree on a client for its DELETE to
delete it (`AgentSessions.Agrees`).  They do as long as the other clients have keys and endpoints of
their own: what these send leaves the client alone (`Agrees.processInputPacket_other`), and what the
client itself asks for is done when the answer is `STATUS_OK` (`Agrees.processInputPacket_own`).
-/

namespace XrceDds

/-! ## One client and the others -/

/-- A client: its session, its key, the size of its messages, and the endpoint that it has. -/
structure SessionClient (EndPoint : Type) where
  id : UInt8
  key : ClientKey
  mtu : UInt16
  endpoint : EndPoint
  deriving DecidableEq

/-- A message of another client: neither its header nor what it creates has the key. -/
structure SessionMessage.Foreign {EndPoint : Type} (client : SessionClient EndPoint)
    (message : SessionMessage) : Prop where
  header : HasSessionClientKey message.sessionId → message.clientKey ≠ client.key
  representation : ∀ representation, message.submessage = .createClient representation →
    representation.clientKey ≠ client.key

/-- What a client asks for: that its session is created, or that it is deleted. -/
inductive SessionCall where
  | create | delete
  deriving DecidableEq

/-- The header of a CREATE_CLIENT is of no session. -/
lemma and_sessionIdWithoutClientKey (id : UInt8) :
    id &&& sessionIdWithoutClientKey = 0 ∨ id &&& sessionIdWithoutClientKey = 128 := by
  have h : ∀ b : BitVec 8, b &&& 128#8 = 0#8 ∨ b &&& 128#8 = 128#8 := by decide
  simpa [sessionIdWithoutClientKey, ← UInt8.toBitVec_inj] using h id.toBitVec

namespace SessionClient

variable {EndPoint : Type} (client : SessionClient EndPoint)

/-- What the client says of itself in `uxr_buffer_create_session`. -/
def representation : ClientRepresentation where
  xrceCookie := XrceDds.xrceCookie
  xrceVersion := (xrceVersionMajor, 0)
  clientKey := client.key
  sessionId := client.id
  properties := none
  mtu := client.mtu

/-- `UXR_REQUEST_LOGIN` and `UXR_REQUEST_LOGOUT`. -/
def requestId : SessionCall → UInt16
  | .create => 1
  | .delete => 2

/-- The messages of `uxr_buffer_create_session` and `uxr_buffer_delete_session`, with the headers
that are stamped on them. -/
def message : SessionCall → SessionMessage
  | .create => ⟨client.id &&& sessionIdWithoutClientKey, client.key,
      .createClient client.representation⟩
  | .delete => ⟨client.id, client.key, .deleteClient (requestId .delete)⟩

/-- What was asked for is done. -/
def Settled {μ : Type} (root : Root μ) : SessionCall → Prop
  | .create => root.Holds client.key
  | .delete => ¬ root.Holds client.key

end SessionClient

namespace SessionManager

variable {EndPoint : Type}

/-- The client and its endpoint belong together: no other client is found there or was established
there, and it is found nowhere else. -/
structure Placed (client : SessionClient EndPoint) (manager : SessionManager EndPoint) : Prop where
  own : ∀ raw, manager.getClientKey client.endpoint = some raw → raw = clientkeyToRaw client.key
  elsewhere : ∀ endpoint, manager.getClientKey endpoint = some (clientkeyToRaw client.key) →
    endpoint = client.endpoint
  moved : ∀ raw, manager.getEndpoint raw = some client.endpoint → raw = clientkeyToRaw client.key

variable {client : SessionClient EndPoint} {manager : SessionManager EndPoint}

lemma Placed.empty : Placed client (empty : SessionManager EndPoint) :=
  ⟨fun _ h => (nomatch h), fun _ h => (nomatch h), fun _ h => (nomatch h)⟩

variable [DecidableEq EndPoint]

/-- What is found at endpoints after a session was destroyed. -/
lemma getClientKey_destroySession (manager : SessionManager EndPoint)
    (endpoint elsewhere : EndPoint) :
    (manager.destroySession endpoint).getClientKey elsewhere =
      if elsewhere = endpoint then none else manager.getClientKey elsewhere := by
  cases hfound : manager.getClientKey endpoint with
  | none =>
    rw [destroySession_of_not_found hfound]
    split
    · next heq => rw [heq, hfound]
    · rfl
  | some raw =>
    rw [destroySession_of_found hfound]
    exact Function.update_apply _ _ _ _

/-- Destroying a session moves no client. -/
lemma getEndpoint_of_destroySession {manager : SessionManager EndPoint}
    {endpoint elsewhere : EndPoint} {raw : UInt32}
    (h : (manager.destroySession endpoint).getEndpoint raw = some elsewhere) :
    manager.getEndpoint raw = some elsewhere := by
  cases hfound : manager.getClientKey endpoint with
  | none =>
    rw [destroySession_of_not_found hfound] at h
    exact h
  | some found =>
    rw [destroySession_of_found hfound] at h
    unfold getEndpoint at h ⊢
    dsimp only at h
    rw [Function.update_apply] at h
    split at h
    · cases h
    · exact h

lemma Placed.destroySession (h : Placed client manager) (endpoint : EndPoint) :
    Placed client (manager.destroySession endpoint) := by
  refine ⟨?_, ?_, fun raw hraw => h.moved raw (getEndpoint_of_destroySession hraw)⟩
  · intro raw hraw
    rw [getClientKey_destroySession] at hraw
    split at hraw
    · cases hraw
    · exact h.own raw hraw
  · intro elsewhere hkey
    rw [getClientKey_destroySession] at hkey
    split at hkey
    · cases hkey
    · exact h.elsewhere elsewhere hkey

/-- Another client is established at another endpoint. -/
lemma Placed.establish_other (h : Placed client manager) {endpoint : EndPoint} {raw : UInt32}
    (hendpoint : endpoint ≠ client.endpoint) (hraw : raw ≠ clientkeyToRaw client.key) (id : UInt8) :
    Placed client (manager.establishSession endpoint raw id) ∧
      (manager.establishSession endpoint raw id).getClientKey client.endpoint =
        manager.getClientKey client.endpoint := by
  have hsame : (manager.establishSession endpoint raw id).getClientKey client.endpoint =
      manager.getClientKey client.endpoint := by
    rw [getClientKey_establishSession, if_neg fun hboth => hendpoint hboth.2.symm,
      if_neg fun hold => hraw (h.moved raw hold)]
  refine ⟨⟨fun other hother => h.own other (hsame ▸ hother), ?_, ?_⟩, hsame⟩
  · intro elsewhere hkey
    rw [getClientKey_establishSession] at hkey
    split at hkey
    · exact absurd (Option.some.inj hkey) hraw
    · split at hkey
      · cases hkey
      · exact h.elsewhere elsewhere hkey
  · intro other hother
    rw [getEndpoint_establishSession] at hother
    split at hother
    · exact absurd (Option.some.inj hother) hendpoint
    · exact h.moved other hother

/-- The client is established at its endpoint. -/
lemma Placed.establish_own (h : Placed client manager) :
    Placed client (manager.establishSession client.endpoint (clientkeyToRaw client.key) client.id) ∧
      (¬ HasSessionClientKey client.id →
        (manager.establishSession client.endpoint (clientkeyToRaw client.key)
          client.id).getClientKey
          client.endpoint = some (clientkeyToRaw client.key)) := by
  refine ⟨⟨?_, ?_, ?_⟩, ?_⟩
  · intro raw hraw
    rw [getClientKey_establishSession] at hraw
    split at hraw
    · exact (Option.some.inj hraw).symm
    · split at hraw
      · cases hraw
      · exact h.own raw hraw
  · intro elsewhere hkey
    rw [getClientKey_establishSession] at hkey
    split at hkey
    · next hboth => exact hboth.2
    · split at hkey
      · cases hkey
      · exact h.elsewhere elsewhere hkey
  · intro raw hraw
    rw [getEndpoint_establishSession] at hraw
    split at hraw
    · next heq => exact heq
    · exact h.moved raw hraw
  · intro hid
    rw [getClientKey_establishSession, if_pos ⟨hid, rfl⟩]

end SessionManager

namespace AgentSessions

variable {μ EndPoint : Type} {middleware : MiddlewareClass μ} {client : SessionClient EndPoint}
  {agent : AgentSessions μ EndPoint}

/-- The two maps agree on a client: it is placed, and found at its endpoint when it is there and has
no key in its headers. -/
structure Agrees (middleware : MiddlewareClass μ) (client : SessionClient EndPoint)
    (agent : AgentSessions μ EndPoint) : Prop where
  reached : agent.root.Reached middleware
  invalid : ¬ agent.root.Holds clientkeyInvalid
  placed : agent.manager.Placed client
  found : agent.root.Holds client.key → ¬ HasSessionClientKey client.id →
    agent.manager.getClientKey client.endpoint = some (clientkeyToRaw client.key)

/-- What is done for other clients: the maps still agree on the client, and it stays where it is. -/
structure Apart (middleware : MiddlewareClass μ) (client : SessionClient EndPoint)
    (agent agent' : AgentSessions μ EndPoint) : Prop where
  agrees : Agrees middleware client agent'
  holds_iff : agent'.root.Holds client.key ↔ agent.root.Holds client.key

lemma Apart.refl (h : Agrees middleware client agent) : Apart middleware client agent agent :=
  ⟨h, Iff.rfl⟩

lemma Apart.settled {agent' : AgentSessions μ EndPoint} {call : SessionCall}
    (h : Apart middleware client agent agent') (hsettled : client.Settled agent.root call) :
    client.Settled agent'.root call := by
  cases call with
  | create => exact h.holds_iff.mpr hsettled
  | delete => exact fun hholds => hsettled (h.holds_iff.mp hholds)

lemma Apart.trans {agent' agent'' : AgentSessions μ EndPoint}
    (h : Apart middleware client agent agent') (h' : Apart middleware client agent' agent'') :
    Apart middleware client agent agent'' :=
  ⟨h'.agrees, h'.holds_iff.trans h.holds_iff⟩

/-- What a message of the client does: the maps still agree on it, what it asks for stays done, and
is done when the answer is `STATUS_OK`. -/
structure Serves (middleware : MiddlewareClass μ) (client : SessionClient EndPoint)
    (call : SessionCall) (agent : AgentSessions μ EndPoint)
    (result : AgentSessions μ EndPoint × Option SessionAnswer) : Prop where
  agrees : Agrees middleware client result.1
  stays : client.Settled agent.root call → client.Settled result.1.root call
  answered : ∀ answer, result.2 = some answer → answer.status.value = 0 →
    client.Settled result.1.root call

/-- `create_client` refuses the invalid key. -/
lemma Agrees.create_invalid (h : Agrees middleware client agent)
    (representation : ClientRepresentation) (kind : MiddlewareKind) (now : ℤ) :
    ¬ (agent.root.createClient middleware representation kind now).1.Holds clientkeyInvalid := by
  rw [Root.holds_createClient]
  rintro (hholds | ⟨heq, hok⟩)
  · exact h.invalid hholds
  · rw [Root.createClient, if_pos heq.symm] at hok
    cases hok

/-- The key that a client is looked up with is not that of a client elsewhere. -/
lemma Agrees.packetKey_ne (h : Agrees middleware client agent) {source : EndPoint}
    (hsource : source ≠ client.endpoint) {message : SessionMessage}
    (hmessage : message.Foreign client)
    (hholds : agent.root.Holds (agent.packetKey source message)) :
    agent.packetKey source message ≠ client.key := by
  unfold packetKey at hholds ⊢
  split
  · next hid => exact hmessage.header hid
  · next hid =>
    rw [if_neg hid] at hholds
    split
    · next raw hraw =>
      intro heq
      apply hsource
      apply h.placed.elsewhere source
      rw [hraw, ← heq, clientkeyToRaw_rawToClientkey]
    · next hnone =>
      rw [hnone] at hholds
      exact absurd hholds h.invalid

variable [DecidableEq EndPoint]

/-- Another client is deleted, from another endpoint. -/
lemma Agrees.delete_other (h : Agrees middleware client agent) {key : ClientKey}
    (hkey : key ≠ client.key) {source : EndPoint} (hsource : source ≠ client.endpoint) :
    Apart middleware client agent
      ⟨(deleteClient middleware agent.root key).1, agent.manager.destroySession source⟩ := by
  have hsame : (deleteClient middleware agent.root key).1.Holds client.key ↔
      agent.root.Holds client.key :=
    Root.holds_deleteClient.trans ⟨And.left, fun hholds => ⟨hholds, hkey.symm⟩⟩
  refine ⟨⟨h.reached.deleteClient key, fun hinvalid => h.invalid (Root.holds_deleteClient.mp
    hinvalid).1, h.placed.destroySession source, fun hholds hid => ?_⟩, hsame⟩
  rw [SessionManager.getClientKey_destroySession, if_neg hsource.symm]
  exact h.found (hsame.mp hholds) hid

/-- Another client is created, from another endpoint. -/
lemma Agrees.create_other (h : Agrees middleware client agent) (kind : MiddlewareKind) (now : ℤ)
    {source : EndPoint} (hsource : source ≠ client.endpoint) (message : SessionMessage)
    {representation : ClientRepresentation} (hkey : representation.clientKey ≠ client.key) :
    Apart middleware client agent
      (agent.processCreateClientSubmessage middleware kind source message representation
        now).1 := by
  have hroom : Apart middleware client agent (agent.makeRoom middleware source representation).1 ∧
      (agent.makeRoom middleware source representation).2 = true := by
    unfold makeRoom
    split
    · next raw hraw =>
      have hother : rawToClientkey raw ≠ client.key := by
        intro heq
        apply hsource
        apply h.placed.elsewhere source
        rw [hraw, ← heq, clientkeyToRaw_rawToClientkey]
      split
      · rw [if_pos Root.deleteClient_status]
        exact ⟨h.delete_other hother hsource, rfl⟩
      · exact ⟨.refl h, rfl⟩
    · exact ⟨.refl h, rfl⟩
  obtain ⟨hapart, hrv⟩ := hroom
  unfold processCreateClientSubmessage
  rw [if_pos hrv]
  refine hapart.trans ?_
  have hagrees := hapart.agrees
  generalize (agent.makeRoom middleware source representation).1 = room at hagrees
  have hsame : (room.root.createClient middleware representation kind now).1.Holds client.key ↔
      room.root.Holds client.key :=
    (Root.holds_createClient representation kind now).trans
      ⟨fun hor => hor.resolve_right fun hboth => hkey hboth.1.symm, .inl⟩
  have hraw : clientkeyToRaw representation.clientKey ≠ clientkeyToRaw client.key := fun heq =>
    hkey (by simpa using congrArg rawToClientkey heq)
  obtain ⟨hplaced, hfound⟩ :=
    hagrees.placed.establish_other hsource hraw representation.sessionId
  refine ⟨⟨hagrees.reached.createClient representation kind now,
    hagrees.create_invalid representation kind now, ?_, fun hholds hid => ?_⟩, hsame⟩
  · dsimp only
    split
    · exact hplaced
    · exact hagrees.placed
  · dsimp only
    split
    · rw [hfound]
      exact hagrees.found (hsame.mp hholds) hid
    · exact hagrees.found (hsame.mp hholds) hid

/-- A message of another client leaves the client alone. -/
lemma Agrees.processInputPacket_other (h : Agrees middleware client agent) (kind : MiddlewareKind)
    (now : ℤ) {source : EndPoint} (hsource : source ≠ client.endpoint) {message : SessionMessage}
    (hmessage : message.Foreign client) :
    Apart middleware client agent (agent.processInputPacket middleware kind source message
      now).1 := by
  unfold processInputPacket
  split
  · split
    · next representation hsubmessage =>
      exact h.create_other kind now hsource message (hmessage.representation _ hsubmessage)
    · exact .refl h
  · split
    · next stored requestId hstored hsubmessage =>
      have hholds : agent.root.Holds (agent.packetKey source message) := by
        intro hnone
        rw [Root.storedClient, hnone] at hstored
        cases hstored
      obtain ⟨stored', hstored', hkey⟩ := h.reached.storedClient hholds
      obtain rfl := Option.some.inj (hstored.symm.trans hstored')
      have hne : stored.representation.clientKey ≠ client.key :=
        hkey ▸ h.packetKey_ne hsource hmessage hholds
      have hok : (deleteClient middleware agent.root stored.representation.clientKey).2 = .ok := by
        obtain ⟨number, hnumber⟩ := Option.ne_none_iff_exists'.mp hholds
        unfold deleteClient
        rw [hkey, hnumber]
        rfl
      unfold processDeleteSubmessage
      dsimp only
      rw [if_pos hok]
      exact h.delete_other hne hsource
    · exact .refl h
    · exact .refl h

/-! ### What the client asks for -/

/-- The client makes no room for itself. -/
lemma Agrees.makeRoom_own (h : Agrees middleware client agent) :
    agent.makeRoom middleware client.endpoint client.representation = (agent, true) := by
  unfold makeRoom
  split
  · next raw hraw =>
    rw [if_neg]
    rw [h.placed.own raw hraw, rawToClientkey_clientkeyToRaw]
    exact not_not.mpr rfl
  · rfl

/-- A CREATE_CLIENT of the client. -/
lemma Agrees.create_own (h : Agrees middleware client agent) (kind : MiddlewareKind) (now : ℤ) :
    Serves middleware client .create agent
      (agent.processInputPacket middleware kind client.endpoint (client.message .create) now) := by
  have hnone : client.id &&& sessionIdWithoutClientKey = 0 ∨
      client.id &&& sessionIdWithoutClientKey = 128 := and_sessionIdWithoutClientKey client.id
  simp only [processInputPacket, SessionClient.message, if_pos hnone, processCreateClientSubmessage,
    h.makeRoom_own, if_true]
  have hholds := @Root.holds_createClient μ middleware agent.root client.key client.representation
    kind now
  have hinvalid := h.create_invalid client.representation kind now
  have hreached := h.reached.createClient client.representation kind now
  generalize agent.root.createClient middleware client.representation kind now = result at *
  obtain ⟨hplaced, hfound⟩ := h.placed.establish_own
  refine ⟨⟨hreached, hinvalid, ?_, fun hthere hid => ?_⟩, fun hthere => hholds.mpr (.inl hthere),
    ?_⟩
  · dsimp only
    split
    · exact hplaced
    · exact h.placed
  · dsimp only
    split
    · exact hfound hid
    · next hstatus =>
      rcases hholds.mp hthere with hthere | ⟨-, hok⟩
      · exact h.found hthere hid
      · exact absurd hok hstatus
  · intro answer hanswer hvalue
    obtain rfl := Option.some.inj hanswer
    exact hholds.mpr (.inr ⟨rfl, ClientStatus.value_eq_zero.mp hvalue⟩)

omit [DecidableEq EndPoint] in
/-- A client that is there is looked up with its key, and otherwise with no other one. -/
lemma Agrees.packetKey_own (h : Agrees middleware client agent) :
    agent.packetKey client.endpoint (client.message .delete) = client.key ∨
      (agent.packetKey client.endpoint (client.message .delete) = clientkeyInvalid ∧
        ¬ agent.root.Holds client.key) := by
  unfold packetKey
  split
  · exact .inl rfl
  · next hid =>
    split
    · next raw hraw =>
      rw [h.placed.own raw hraw, rawToClientkey_clientkeyToRaw]
      exact .inl rfl
    · next hnone =>
      refine .inr ⟨rfl, fun hholds => ?_⟩
      rw [h.found hholds hid] at hnone
      cases hnone

/-- A DELETE of the client. -/
lemma Agrees.delete_own (h : Agrees middleware client agent) (kind : MiddlewareKind) (now : ℤ) :
    Serves middleware client .delete agent
      (agent.processInputPacket middleware kind client.endpoint (client.message .delete) now) := by
  have hown := h.packetKey_own
  unfold processInputPacket
  split
  · exact ⟨h, id, fun answer hanswer => by cases hanswer⟩
  · generalize hkey : agent.packetKey client.endpoint (client.message .delete) = key at hown ⊢
    by_cases hholds : agent.root.Holds key
    · obtain ⟨stored, hstored, hstoredKey⟩ := h.reached.storedClient hholds
      obtain rfl | ⟨rfl, -⟩ := hown
      · simp only [hstored, SessionClient.message, processDeleteSubmessage, hstoredKey]
        have hgone : ¬ (deleteClient middleware agent.root client.key).1.Holds client.key :=
          fun hthere => (Root.holds_deleteClient.mp hthere).2 rfl
        refine ⟨⟨h.reached.deleteClient client.key, fun hinvalid => h.invalid
          (Root.holds_deleteClient.mp hinvalid).1, ?_, fun hthere => absurd hthere hgone⟩,
          fun _ => hgone, fun _ _ _ => hgone⟩
        dsimp only
        split
        · exact h.placed.destroySession client.endpoint
        · exact h.placed
      · exact absurd hholds h.invalid
    · have hgone : ¬ agent.root.Holds client.key := by
        obtain rfl | ⟨-, hgone⟩ := hown
        · exact hholds
        · exact hgone
      simp only [Root.storedClient_of_not_holds hholds, SessionClient.message]
      exact ⟨h, id, fun _ _ _ => hgone⟩

/-- What the client asks for is done when the answer is `STATUS_OK`, and stays done when it asks for
it again. -/
lemma Agrees.processInputPacket_own (h : Agrees middleware client agent) (kind : MiddlewareKind)
    (now : ℤ) (call : SessionCall) :
    Serves middleware client call agent
      (agent.processInputPacket middleware kind client.endpoint (client.message call) now) := by
  cases call with
  | create => exact h.create_own kind now
  | delete => exact h.delete_own kind now

end AgentSessions

end XrceDds
