import XrceDds.Agent.SubmessageRow
import XrceDds.Agent.WriteExceptions

/-!
# Which submessages are handed over

A message that is a row of well-formed submessages should be handed over as a whole.  It is
if and only if no submessage but the last one ends the walk (`handed_iff`), as a write that
is refused does, or a CREATE that reuses a requester, or a FRAGMENT that completes a message
from which an exception escapes (`Continues`).
-/

namespace XrceDds

variable {σ : Type} (environment : Environment σ)

namespace Submessage

/-- The kind of a submessage. -/
def kind (submessage : Submessage) : SubmessageKind := .ofId submessage.submessageId

/-- The payload is one that its type takes as a whole, wherever the submessage stands. -/
def WellFormed (submessage : Submessage) : Prop :=
  match submessage.kind with
  | .createClient | .create | .readData =>
    ∀ message : InputMessage, message.position % 4 = 0 → submessage.payload <+: message.rest →
      environment.deserialize submessage.kind message = (submessage.payload.length, .complete)
  | .deleteId => submessage.payload.length = 4
  | .writeData => 4 ≤ submessage.payload.length
  | .acknack | .heartbeat => submessage.payload.length = 5
  | .reset => submessage.payload = []
  | .timestamp => submessage.payload.length = 8
  | .getInfo | .fragment | .other => True

variable [FastCdr]

/-- The submessage, at which the message stands, is of a kind that is supported in an established
session.  If it is WRITE_DATA its format is supported, its object is there and the write is
accepted; if it is CREATE it does not reuse a requester or a replier; and if it is a FRAGMENT
nothing throws in the message that it completes. -/
def Continues (state : AgentClient σ) (message : InputMessage) (submessage : Submessage) : Prop :=
  match submessage.kind with
  | .createClient | .getInfo | .other => False
  | .create => ¬ environment.MatchedThrows state.agent message
  | .writeData => submessage.flags &&& 14 = 0 ∧
      environment.writeObject state.agent ((submessage.payload.drop 2).take 2)
        (submessage.payload.drop 4) = some true
  | .fragment => ∀ after behind completed,
      Environment.pushFragment state message = (after, behind, some completed) →
      ∀ state' at_, environment.Turn after completed state' at_ →
        ¬ environment.ThrowsAt state' at_
  | .deleteId | .readData | .acknack | .heartbeat | .reset | .timestamp => True

/-- Every submessage but the last one lets the walk go on, for the client that the ones before
it leave. -/
def ContinuesAll : List Submessage → AgentClient σ → InputMessage → Prop
  | [], _, _ => True
  | [_], _, _ => True
  | submessage :: next :: submessages, state, message =>
    submessage.Continues environment state (submessage.atSubmessage message) ∧
      ∀ after, environment.Handles state (submessage.atSubmessage message)
          (.returned after (submessage.behind message) true) →
        ContinuesAll (next :: submessages) after (submessage.behind message)

end Submessage

namespace Environment

section

variable [FastCdr] {environment} {state : AgentClient σ} {submessage : Submessage}
  {message : InputMessage} {tail : List UInt8}

/-- A payload of fixed length that is there is taken as a whole. -/
lemma processFixedPayload_append {n : ℕ} (hrest : message.rest = submessage.payload ++ tail)
    (hlength : submessage.payload.length = n) :
    environment.processFixedPayload n state message =
      .returned (environment.performed state message)
      { message with position := message.position + submessage.payload.length } true := by
  unfold processFixedPayload
  rw [InputMessage.deserializeArray_append hrest hlength, hlength]

/-- A well-formed write does what its object does. -/
lemma processWriteDataSubmessage_append (hsubheader : message.subheader = submessage.subheader)
    (hrest : message.rest = submessage.payload ++ tail) (hle : 4 ≤ submessage.payload.length)
    (hflags : submessage.flags &&& 14 = 0) :
    environment.processWriteDataSubmessage state message =
      (environment.writeObject state.agent ((submessage.payload.drop 2).take 2)
        (submessage.payload.drop 4)).elim .threw
          (.returned (environment.performed state message)
            { message with position := message.position + submessage.payload.length }) := by
  have hlength : message.subheader.submessageLength = submessage.payload.length := by
    rw [hsubheader]
    rfl
  have hmessageFlags : message.subheader.flags &&& 14 = 0 := by
    rw [hsubheader]
    exact hflags
  have hpayload : message.rest.take submessage.payload.length = submessage.payload := by
    rw [hrest, List.take_left]
  rw [processWriteDataSubmessage_of_le hmessageFlags (hlength ▸ hle)
    (hlength ▸ submessage.payload_length), hlength, if_pos (by
      rw [hrest, List.length_append]
      exact Nat.le_add_right _ _), ← objectId_eq hle message.rest, hpayload]

variable (state) in
/-- A FRAGMENT of a reliable stream takes its payload. -/
lemma pushFragment_append (hreliable : IsReliableStream message.header.streamId)
    (hsubheader : message.subheader = submessage.subheader)
    (hrest : message.rest = submessage.payload ++ tail) :
    (pushFragment state message).2.1 =
      { message with position := message.position + submessage.payload.length } := by
  have hlength : message.subheader.submessageLength = submessage.payload.length := by
    rw [hsubheader]
    rfl
  unfold pushFragment Session.pushInputFragment ReliableInputStream.pushFragment
    InputMessage.getRawPayload
  dsimp only
  rw [if_pos hreliable, if_pos le_rfl, hlength, InputMessage.deserializeArray_append hrest rfl]

variable (environment state) in
/-- A FRAGMENT lets the walk go on behind its payload, if nothing throws in the message that it
completes, and otherwise an exception escapes. -/
lemma handles_fragment_or (hreliable : IsReliableStream message.header.streamId)
    (hsubheader : message.subheader = submessage.subheader)
    (hrest : message.rest = submessage.payload ++ tail) (hkind : submessage.kind = .fragment) :
    (submessage.Continues environment state message → ∃ after, environment.Handles state message
        (.returned after
          { message with position := message.position + submessage.payload.length } true)) ∧
      (¬ submessage.Continues environment state message →
        environment.Handles state message .threw) := by
  have hbehind := pushFragment_append state hreliable hsubheader hrest
  have hid : SubmessageKind.ofId message.subheader.submessageId = .fragment := by
    rw [hsubheader]
    exact hkind
  unfold Submessage.Continues
  rw [hkind]
  dsimp only
  rcases hpush : pushFragment state message with ⟨after, behind, _ | completed⟩
  · rw [hpush] at hbehind
    refine ⟨fun _ => ⟨after, ?_⟩, fun hnot => absurd (fun _ _ _ h => by cases h) hnot⟩
    rw [← hbehind]
    exact (handles_fragment_none hid hpush).mpr rfl
  · rw [hpush] at hbehind
    constructor
    · intro hcontinues
      obtain ⟨⟨handed, _ | last⟩, hwalks⟩ :=
        environment.walks_total after completed
      · obtain ⟨state', at_, hturn, hthrows⟩ := walks_none_iff.mp ⟨handed, hwalks⟩
        exact absurd hthrows (hcontinues _ _ _ rfl _ _ hturn)
      · refine ⟨last, ?_⟩
        rw [← hbehind]
        exact (handles_fragment_some hid hpush).mpr ⟨_, hwalks, rfl⟩
    · intro hnot
      have hthrown : ∃ handed, environment.Walks after completed ⟨handed, none⟩ := by
        by_contra hnone
        refine hnot fun after' behind' completed' heq state' at_ hturn hthrows => hnone ?_
        cases heq
        exact walks_none_iff.mpr ⟨state', at_, hturn, hthrows⟩
      obtain ⟨handed, hwalks⟩ := hthrown
      exact (handles_fragment_some hid hpush).mpr ⟨_, hwalks, rfl⟩

variable (state) in
/-- A well-formed submessage of another kind lets the walk go on behind its payload if and only if
`Continues` says so. -/
lemma exists_handled (hsession : message.header.sessionId ≠ 0 ∧ message.header.sessionId ≠ 128)
    (hsubheader : message.subheader = submessage.subheader) (hposition : message.position % 4 = 0)
    (hrest : message.rest = submessage.payload ++ tail)
    (hformed : submessage.WellFormed environment) (hkind : submessage.kind ≠ .fragment) :
    ∃ handled, environment.processSubmessage (fun _ _ => none) state message = some handled ∧
      (submessage.Continues environment state message → ∃ after, handled = .returned after
        { message with position := message.position + submessage.payload.length } true) ∧
      (¬ submessage.Continues environment state message →
        ∀ after behind, handled ≠ .returned after behind true) := by
  have hid : SubmessageKind.ofId message.subheader.submessageId = submessage.kind := by
    rw [hsubheader]
    rfl
  have hstarts : submessage.payload <+: message.rest := ⟨tail, hrest.symm⟩
  have hreturns {handled : Handled σ} {P : Prop} {after : AgentClient σ} {behind : InputMessage}
      (h : handled = .returned after behind true) : (True → ∃ after, handled =
        .returned after behind true) ∧ (¬ True → P) :=
    ⟨fun _ => ⟨after, h⟩, fun hnot => absurd trivial hnot⟩
  have hends {P : Prop} {after : AgentClient σ} {behind : InputMessage} : (False → P) ∧
      (¬ False → ∀ after' behind', (Handled.returned after behind false : Handled σ) ≠
        .returned after' behind' true) :=
    ⟨False.elim, fun _ _ _ h => by cases h⟩
  unfold Submessage.WellFormed at hformed
  unfold Submessage.Continues processSubmessage
  rw [hid]
  generalize submessage.kind = kind at hkind hformed ⊢
  cases kind with
  | createClient =>
    refine ⟨_, rfl, ?_⟩
    unfold processCreateClientSubmessage
    rw [if_neg (not_or.mpr hsession)]
    exact hends
  | create =>
    have htaken := hformed message hposition hstarts
    refine ⟨_, rfl, ?_⟩
    unfold processCreateSubmessage getPayload
    rw [htaken]
    dsimp only
    split
    · next hmatched => exact ⟨fun h => absurd hmatched h, fun _ _ _ h => by cases h⟩
    · next hmatched => exact ⟨fun _ => ⟨_, rfl⟩, fun h => absurd hmatched h⟩
  | getInfo => exact ⟨_, rfl, hends⟩
  | deleteId => exact ⟨_, rfl, hreturns (processFixedPayload_append hrest hformed)⟩
  | writeData =>
    refine ⟨_, rfl, ?_⟩
    dsimp only
    by_cases hflags : submessage.flags &&& 14 = 0
    · rw [processWriteDataSubmessage_append hsubheader hrest hformed hflags]
      cases environment.writeObject state.agent ((submessage.payload.drop 2).take 2)
        (submessage.payload.drop 4) with
      | none => exact ⟨fun h => (by cases h.2), fun _ _ _ h => by cases h⟩
      | some written =>
        cases written with
        | true => exact ⟨fun _ => ⟨_, rfl⟩, fun h => absurd ⟨hflags, rfl⟩ h⟩
        | false => exact ⟨fun h => (by cases h.2), fun _ _ _ h => by cases h⟩
    · unfold processWriteDataSubmessage
      dsimp only
      rw [hsubheader, if_neg (show ¬ submessage.subheader.flags &&& 14 = 0 from hflags)]
      exact ⟨fun h => absurd h.1 hflags, fun _ _ _ h => by cases h⟩
  | readData =>
    have htaken := hformed message hposition hstarts
    refine ⟨_, rfl, ?_⟩
    unfold processReadDataSubmessage getPayload
    rw [htaken]
    exact hreturns rfl
  | acknack => exact ⟨_, rfl, hreturns (processFixedPayload_append hrest hformed)⟩
  | heartbeat => exact ⟨_, rfl, hreturns (processFixedPayload_append hrest hformed)⟩
  | reset =>
    have hnil : submessage.payload = [] := hformed
    rw [hnil]
    exact ⟨_, rfl, hreturns rfl⟩
  | fragment => exact absurd rfl hkind
  | timestamp => exact ⟨_, rfl, hreturns (processFixedPayload_append hrest hformed)⟩
  | other => exact ⟨_, rfl, hends⟩

variable (state) in
/-- A well-formed submessage lets the walk go on behind its payload if and only if `Continues` says
so. -/
lemma handles_returned_true
    (hsession : message.header.sessionId ≠ 0 ∧ message.header.sessionId ≠ 128)
    (hreliable : IsReliableStream message.header.streamId)
    (hsubheader : message.subheader = submessage.subheader) (hposition : message.position % 4 = 0)
    (hrest : message.rest = submessage.payload ++ tail)
    (hformed : submessage.WellFormed environment) :
    (submessage.Continues environment state message → ∃ after, environment.Handles state message
        (.returned after
          { message with position := message.position + submessage.payload.length } true)) ∧
      (¬ submessage.Continues environment state message → ∀ after behind,
        ¬ environment.Handles state message (.returned after behind true)) := by
  by_cases hkind : submessage.kind = .fragment
  · obtain ⟨hreturns, hthrows⟩ := environment.handles_fragment_or state hreliable
      hsubheader hrest hkind
    exact ⟨hreturns, fun hnot after behind hhandles => by cases hhandles.unique (hthrows hnot)⟩
  · have hid : SubmessageKind.ofId message.subheader.submessageId ≠ .fragment := by
      rw [hsubheader]
      exact hkind
    obtain ⟨handled, hhandled, hreturns, hends⟩ := exists_handled state hsession
      hsubheader hposition hrest hformed hkind
    have hhandles := (handles_iff_of_ne hid).mpr hhandled
    constructor
    · intro hcontinues
      obtain ⟨after, rfl⟩ := hreturns hcontinues
      exact ⟨after, hhandles⟩
    · exact fun hnot after behind hreturned => hends hnot after behind (hhandles.unique hreturned)

/-- From a place before a row of well-formed submessages, the whole row is handed over if and only
if every submessage but the last one lets the walk go on. -/
lemma handed_iff_of_stands (submessages : List Submessage) : ∀ (state : AgentClient σ)
    (message : InputMessage), message.header.sessionId ≠ 0 ∧ message.header.sessionId ≠ 128 →
    IsReliableStream message.header.streamId → message.Stands submessages →
    (∀ submessage ∈ submessages, submessage.WellFormed environment) →
    ((∃ client, environment.Walks state message ⟨Submessage.handedOver submessages message,
      client⟩) ↔
      Submessage.ContinuesAll environment submessages state message) := by
  induction submessages with
  | nil =>
    intro state message _ _ hstands _
    exact iff_of_true
      ⟨_, (walks_iff_of_end (Prod.ext rfl hstands.prepareNextSubmessage_nil)).mpr rfl⟩ trivial
  | cons submessage submessages ih =>
    intro state message hsession hreliable hstands hformed
    obtain ⟨hprepare, hrest⟩ := hstands.prepareNextSubmessage
    have hheader : (submessage.atSubmessage message).header = message.header :=
      message.alignSubmessage_header
    have hposition : (submessage.atSubmessage message).position % 4 = 0 := by
      have haligned := hstands.position (List.cons_ne_nil _ _)
      change (message.alignSubmessage.position + 4) % 4 = 0
      omega
    obtain ⟨hreturns, hends⟩ := handles_returned_true state (hheader ▸ hsession)
      (hheader ▸ hreliable) rfl hposition hrest (hformed submessage List.mem_cons_self)
    by_cases hcontinues :
        submessage.Continues environment state (submessage.atSubmessage message)
    · -- the walk goes on behind the submessage
      obtain ⟨after, hhandles⟩ := hreturns hcontinues
      have hbehind := ih after (submessage.behind message)
        (by rw [Submessage.behind_header]; exact hsession)
        (by rw [Submessage.behind_header]; exact hreliable) hstands.behind
        (fun next hnext => hformed next (List.mem_cons_of_mem _ hnext))
      have hsplit : (∃ client, environment.Walks state message
            ⟨Submessage.handedOver (submessage :: submessages) message, client⟩) ↔
          ∃ client, environment.Walks after (submessage.behind message)
            ⟨Submessage.handedOver submessages (submessage.behind message), client⟩ := by
        refine exists_congr fun client => (walks_iff hprepare).trans ?_
        constructor
        · rintro ⟨handled, hhandled, hon⟩
          obtain rfl := hhandled.unique hhandles
          obtain ⟨⟨handed, client'⟩, hrestWalks, heq⟩ := hon
          obtain ⟨heq, rfl⟩ := WalkResult.mk.inj heq
          obtain rfl := (List.cons.inj heq).2
          exact hrestWalks
        · exact fun hrestWalks => ⟨_, hhandles, _, hrestWalks, rfl⟩
      refine hsplit.trans (hbehind.trans ?_)
      cases submessages with
      | nil => exact ⟨fun _ => trivial, fun _ => trivial⟩
      | cons next submessages =>
        refine ⟨fun h => ⟨hcontinues, fun after' hhandles' => ?_⟩, fun h => h.2 after hhandles⟩
        obtain rfl := (Handled.returned.inj (hhandles'.unique hhandles)).1
        exact h
    · -- the walk ends, and nothing is lost if this was the last submessage
      obtain ⟨result, hwalks⟩ := environment.walks_total state message
      have hhanded : ∀ result, environment.Walks state message result →
          result.handed = [submessage.atSubmessage message] := by
        intro result hresult
        obtain ⟨handled, hhandled, hon⟩ := (walks_iff hprepare).mp hresult
        cases handled with
        | threw => rw [(hon : result = _)]
        | returned after behind rv =>
          cases rv with
          | false => rw [(hon : result = _)]
          | true => exact absurd hhandled (hends hcontinues after behind)
      cases submessages with
      | nil =>
        refine iff_of_true ⟨result.client, ?_⟩ trivial
        rw [show Submessage.handedOver [submessage] message = result.handed from
          (hhanded result hwalks).symm]
        exact hwalks
      | cons next submessages =>
        refine iff_of_false ?_ fun h => hcontinues h.1
        rintro ⟨client, hresult⟩
        have hlength := congrArg List.length (hhanded _ hresult)
        exact absurd hlength (by simp [Submessage.handedOver])

end

/-- An Agent without objects, which answers nothing, and whose deserializers of types of varying
length fail. -/
def withoutObjects : Environment Unit where
  deserialize := fun _ _ => (0, .notEnoughMemory)
  perform := fun _ _ => ((), [])
  clientCreated := fun _ _ => false
  objectKind := fun _ _ => none
  written := fun _ _ _ => false

/-- A client of which nothing was received yet. -/
def newClient : AgentClient Unit := ⟨(), .new ⟨[0, 0, 0, 0], 129, 512, clientkeyInvalid_length⟩⟩

/-- The header of the first message on the built-in reliable stream of a session. -/
def firstHeader : MessageHeader :=
  ⟨129, 128, ⟨0, seqNumZero_lt⟩, [0, 0, 0, 0], clientkeyInvalid_length⟩

/-- A HEARTBEAT for the messages from zero to zero on the stream 128. -/
def heartbeatSubmessage : Submessage := ⟨11, 1, [0, 0, 0, 0, 128], [0, 0, 0], by decide, by decide⟩

/-- The last FRAGMENT of a run, which holds a HEARTBEAT. -/
def fragmentSubmessage : Submessage :=
  ⟨13, 3, [11, 1, 5, 0, 0, 0, 0, 0, 128], [0, 0, 0], by decide, by decide⟩

/-- A RESET. -/
def resetSubmessage : Submessage := ⟨12, 1, [], [], by decide, by decide⟩

/-- A WRITE_DATA of two bytes to the data writer `0x0015`. -/
def writeDataSubmessage : Submessage :=
  ⟨7, 1, [0, 10, 0, 21, 1, 2], [0, 0], by decide, by decide⟩

end Environment

end XrceDds
