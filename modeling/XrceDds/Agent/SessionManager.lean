import Mathlib.Data.Nat.Notation
import Mathlib.Logic.Function.Basic

/-!
# The sessions of a transport

`SessionManager` keeps two maps: from clients to the endpoint at which they were last
established, and, for sessions whose messages carry no client key, from endpoints to the
client that was last established there.

A client should not notice what is done for another one, and be gone when it is deleted
(`CallMeets`).  The maps are not kept as inverses of each other, and this fails when a client
moves away from an endpoint at which another client was established without a key, and when
the client that is deleted is not the one that is found at its endpoint (`CallFits`).
-/

namespace XrceDds

/-- `has_session_client_key`. -/
def HasSessionClientKey (sessionId : UInt8) : Prop := 128 > sessionId

instance (sessionId : UInt8) : Decidable (HasSessionClientKey sessionId) := by
  unfold HasSessionClientKey; infer_instance

/-- `SessionManager`, over an arbitrary type of endpoints. -/
structure SessionManager (EndPoint : Type) where
  endpointToClientMap : EndPoint → Option UInt32
  clientToEndpointMap : UInt32 → Option EndPoint

namespace SessionManager

variable {EndPoint : Type} [DecidableEq EndPoint]

/-- The constructor of `SessionManager`. -/
def empty : SessionManager EndPoint := ⟨fun _ => none, fun _ => none⟩

/-- `establish_session`. -/
def establishSession (manager : SessionManager EndPoint) (endpoint : EndPoint)
    (clientKey : UInt32) (sessionId : UInt8) : SessionManager EndPoint :=
  let manager :=
    match manager.clientToEndpointMap clientKey with
    | some old =>
      { endpointToClientMap := Function.update manager.endpointToClientMap old none
        clientToEndpointMap :=
          Function.update manager.clientToEndpointMap clientKey (some endpoint) }
    | none =>
      { manager with
        clientToEndpointMap :=
          Function.update manager.clientToEndpointMap clientKey (some endpoint) }
  if ¬ HasSessionClientKey sessionId then
    { manager with
      endpointToClientMap :=
        Function.update manager.endpointToClientMap endpoint (some clientKey) }
  else manager

/-- `destroy_session`. -/
def destroySession (manager : SessionManager EndPoint) (endpoint : EndPoint) :
    SessionManager EndPoint :=
  match manager.endpointToClientMap endpoint with
  | some clientKey =>
    { endpointToClientMap := Function.update manager.endpointToClientMap endpoint none
      clientToEndpointMap := Function.update manager.clientToEndpointMap clientKey none }
  | none => manager

/-- `get_client_key`. -/
def getClientKey (manager : SessionManager EndPoint) (endpoint : EndPoint) : Option UInt32 :=
  manager.endpointToClientMap endpoint

/-- `get_endpoint`. -/
def getEndpoint (manager : SessionManager EndPoint) (clientKey : UInt32) : Option EndPoint :=
  manager.clientToEndpointMap clientKey

/-! ## Calls -/

/-- What is done with a manager: a session is established, what is found at an endpoint is
destroyed, or the session of a client that was deleted is destroyed at the endpoint of that
client. -/
inductive Call (EndPoint : Type) where
  | establish (endpoint : EndPoint) (clientKey : UInt32) (sessionId : UInt8)
  | destroy (endpoint : EndPoint)
  | delete (clientKey : UInt32)

/-- What a call does. -/
def step (manager : SessionManager EndPoint) : Call EndPoint → SessionManager EndPoint
  | .establish endpoint clientKey sessionId =>
    manager.establishSession endpoint clientKey sessionId
  | .destroy endpoint => manager.destroySession endpoint
  | .delete clientKey =>
    match manager.getEndpoint clientKey with
    | some endpoint => manager.destroySession endpoint
    | none => manager

/-- What is done for the client `clientKey` at `endpoint` is not noticed by other clients: they
keep their endpoints, and those established without a key elsewhere are still found there. -/
def Apart (manager manager' : SessionManager EndPoint) (endpoint : Option EndPoint)
    (clientKey : Option UInt32) : Prop :=
  (∀ other, some other ≠ clientKey → manager'.getEndpoint other = manager.getEndpoint other) ∧
    ∀ elsewhere other, some elsewhere ≠ endpoint → some other ≠ clientKey →
      manager.getClientKey elsewhere = some other → manager'.getClientKey elsewhere = some other

/-- What a call should do. -/
def CallMeets (manager : SessionManager EndPoint) : Call EndPoint → Prop
  | .establish endpoint clientKey sessionId =>
    (manager.establishSession endpoint clientKey sessionId).getEndpoint clientKey = some endpoint ∧
      (128 ≤ sessionId → (manager.establishSession endpoint clientKey sessionId).getClientKey
        endpoint = some clientKey) ∧
      Apart manager (manager.establishSession endpoint clientKey sessionId) (some endpoint)
        (some clientKey)
  | .destroy endpoint =>
    Apart manager (manager.destroySession endpoint) (some endpoint) (manager.getClientKey endpoint)
  | .delete clientKey =>
    (manager.step (.delete clientKey)).getEndpoint clientKey = none ∧
      Apart manager (manager.step (.delete clientKey)) (manager.getEndpoint clientKey)
        (some clientKey)

/-- When a call does what it should: a client that moves leaves no endpoint behind at which
another client is found, and a client that is deleted is the one found at its endpoint. -/
def CallFits (manager : SessionManager EndPoint) : Call EndPoint → Prop
  | .establish endpoint clientKey _ =>
    ∀ old, manager.getEndpoint clientKey = some old → old ≠ endpoint →
      manager.getClientKey old = none ∨ manager.getClientKey old = some clientKey
  | .destroy _ => True
  | .delete clientKey =>
    ∀ endpoint, manager.getEndpoint clientKey = some endpoint →
      manager.getClientKey endpoint = some clientKey

/-- The calls of a run all have a property, each in the state in which it is made. -/
def Along (P : SessionManager EndPoint → Call EndPoint → Prop) :
    SessionManager EndPoint → List (Call EndPoint) → Prop
  | _, [] => True
  | manager, call :: calls => P manager call ∧ Along P (manager.step call) calls

/-! ## What the operations do -/

/-- Establishing a session moves the client, and no other one. -/
lemma getEndpoint_establishSession (manager : SessionManager EndPoint) (endpoint : EndPoint)
    (clientKey : UInt32) (sessionId : UInt8) (other : UInt32) :
    (manager.establishSession endpoint clientKey sessionId).getEndpoint other =
      if other = clientKey then some endpoint else manager.getEndpoint other := by
  unfold establishSession getEndpoint
  cases manager.clientToEndpointMap clientKey with
  | some old =>
    by_cases hkey : HasSessionClientKey sessionId
    · simp [hkey, Function.update_apply]
    · simp [hkey, Function.update_apply]
  | none =>
    by_cases hkey : HasSessionClientKey sessionId
    · simp [hkey, Function.update_apply]
    · simp [hkey, Function.update_apply]

/-- Establishing a session puts the client at the endpoint, if its messages carry no key, and
clears the endpoint that it had before. -/
lemma getClientKey_establishSession (manager : SessionManager EndPoint) (endpoint : EndPoint)
    (clientKey : UInt32) (sessionId : UInt8) (elsewhere : EndPoint) :
    (manager.establishSession endpoint clientKey sessionId).getClientKey elsewhere =
      if ¬ HasSessionClientKey sessionId ∧ elsewhere = endpoint then some clientKey
      else if manager.getEndpoint clientKey = some elsewhere then none
      else manager.getClientKey elsewhere := by
  unfold establishSession getClientKey getEndpoint
  cases hold : manager.clientToEndpointMap clientKey with
  | some old =>
    by_cases hkey : HasSessionClientKey sessionId
    · simp [hkey, Function.update_apply, eq_comm]
    · simp [hkey, Function.update_apply, eq_comm]
  | none =>
    by_cases hkey : HasSessionClientKey sessionId
    · simp [hkey]
    · simp [hkey, Function.update_apply]

/-- Destroying what is found at an endpoint. -/
lemma destroySession_of_found {manager : SessionManager EndPoint} {endpoint : EndPoint}
    {clientKey : UInt32} (h : manager.getClientKey endpoint = some clientKey) :
    manager.destroySession endpoint =
      { endpointToClientMap := Function.update manager.endpointToClientMap endpoint none
        clientToEndpointMap := Function.update manager.clientToEndpointMap clientKey none } := by
  unfold destroySession
  unfold getClientKey at h
  rw [h]

/-- Where nothing is found, nothing is destroyed. -/
lemma destroySession_of_not_found {manager : SessionManager EndPoint} {endpoint : EndPoint}
    (h : manager.getClientKey endpoint = none) : manager.destroySession endpoint = manager := by
  unfold destroySession
  unfold getClientKey at h
  rw [h]

/-- What is destroyed is the session of the client that is found. -/
lemma apart_destroySession (manager : SessionManager EndPoint) (endpoint : EndPoint) :
    Apart manager (manager.destroySession endpoint) (some endpoint)
      (manager.getClientKey endpoint) := by
  cases hfound : manager.getClientKey endpoint with
  | none =>
    rw [destroySession_of_not_found hfound]
    exact ⟨fun _ _ => rfl, fun _ _ _ _ h => h⟩
  | some clientKey =>
    rw [destroySession_of_found hfound]
    refine ⟨fun other hother => ?_, fun elsewhere other helse _ h => ?_⟩
    · exact Function.update_of_ne (fun heq => hother (congrArg some heq)) _ _
    · exact (Function.update_of_ne (fun heq => helse (congrArg some heq)) _ _).trans h

/-- A client without an endpoint has no session to be destroyed. -/
lemma step_delete_of_none {manager : SessionManager EndPoint} {clientKey : UInt32}
    (h : manager.getEndpoint clientKey = none) : manager.step (.delete clientKey) = manager := by
  simp only [step, h]

/-- A client that is deleted has its session destroyed at its endpoint. -/
lemma step_delete_of_some {manager : SessionManager EndPoint} {clientKey : UInt32}
    {endpoint : EndPoint} (h : manager.getEndpoint clientKey = some endpoint) :
    manager.step (.delete clientKey) = manager.destroySession endpoint := by
  simp only [step, h]

/-- A call does what it should if and only if it fits. -/
lemma callMeets_iff (manager : SessionManager EndPoint) (call : Call EndPoint) :
    CallMeets manager call ↔ CallFits manager call := by
  cases call with
  | establish endpoint clientKey sessionId =>
    unfold CallMeets CallFits Apart
    constructor
    · rintro ⟨-, -, -, hkeep⟩ old hold hne
      cases hfound : manager.getClientKey old with
      | none => exact .inl rfl
      | some other =>
        right
        by_contra hother
        -- the client found at the old endpoint of the one that moves is not found there any more
        have hlost := hkeep old other (fun heq => hne (Option.some.inj heq)) hother hfound
        rw [getClientKey_establishSession, if_neg (fun hboth => hne hboth.2), if_pos hold] at hlost
        exact absurd hlost (by simp)
    · intro hfits
      refine ⟨?_, fun hid => ?_, fun other hother => ?_,
        fun elsewhere other helse hother hfound => ?_⟩
      · rw [getEndpoint_establishSession, if_pos rfl]
      · rw [getClientKey_establishSession, if_pos ⟨UInt8.not_lt.mpr hid, rfl⟩]
      · rw [getEndpoint_establishSession, if_neg fun heq => hother (congrArg some heq)]
      · rw [getClientKey_establishSession, if_neg fun hboth => helse (congrArg some hboth.2),
          if_neg, hfound]
        intro hold
        rcases hfits elsewhere hold fun heq => helse (congrArg some heq) with hnone | hsome
        · exact absurd (hfound.symm.trans hnone) (by simp)
        · exact hother (hfound.symm.trans hsome)
  | destroy endpoint => exact iff_of_true (apart_destroySession manager endpoint) trivial
  | delete clientKey =>
    dsimp only [CallMeets, CallFits]
    cases hendpoint : manager.getEndpoint clientKey with
    | none =>
      rw [step_delete_of_none hendpoint]
      refine iff_of_true ⟨hendpoint, fun _ _ => rfl, fun _ _ _ _ h => h⟩ ?_
      intro endpoint h
      exact absurd h (by simp)
    | some endpoint =>
      rw [step_delete_of_some hendpoint]
      constructor
      · rintro ⟨hgone, -⟩ endpoint' heq
        obtain rfl := Option.some.inj heq
        cases hfound : manager.getClientKey endpoint with
        | none =>
          rw [destroySession_of_not_found hfound, hendpoint] at hgone
          exact absurd hgone (by simp)
        | some other =>
          by_contra hother
          have hkeep := (apart_destroySession manager endpoint).1 clientKey fun heq =>
            hother (hfound ▸ heq.symm)
          rw [hgone, hendpoint] at hkeep
          exact absurd hkeep (by simp)
      · intro hfits
        have hfound := hfits endpoint rfl
        have hapart := apart_destroySession manager endpoint
        rw [hfound] at hapart
        refine ⟨?_, hapart⟩
        rw [destroySession_of_found hfound]
        exact Function.update_self _ _ _

/-- The calls of a run all do what they should if and only if they all fit. -/
theorem run_meets_iff (calls : List (Call EndPoint)) :
    Along CallMeets (empty : SessionManager EndPoint) calls ↔ Along CallFits empty calls := by
  generalize (empty : SessionManager EndPoint) = manager
  induction calls generalizing manager with
  | nil => exact Iff.rfl
  | cons call calls ih => exact and_congr (callMeets_iff manager call) (ih _)

/-- A client with a key is still found at its endpoint after it was deleted; a client moves
away from an endpoint, and the client that was established there without a key is not found any
more. -/
theorem run_diverges :
    ¬ Along CallMeets (empty : SessionManager ℕ) [.establish 0 1 1, .delete 1] ∧
      ¬ Along CallMeets (empty : SessionManager ℕ)
        [.establish 0 1 1, .establish 0 2 129, .establish 5 1 1] := by
  constructor
  · rintro ⟨-, ⟨hgone, -⟩, -⟩
    exact absurd hgone (by decide)
  · rintro ⟨-, -, ⟨-, -, -, hkeep⟩, -⟩
    exact absurd (hkeep 0 2 (by decide) (by decide) (by decide)) (by decide)

end SessionManager

end XrceDds
