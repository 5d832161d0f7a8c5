import XrceDds.Agent.ProcessorEnds

/-!
# Exceptions of the processor

The data of a WRITE_DATA submessage is resized to the announced length less the four bytes of the
request, in the width of `size_t`: for a shorter length this wraps, and the vector throws.  The
identity that a reply begins with is decoded from its data: where there are too few bytes the
deserializer throws.  A CREATE that is to reuse a requester or a replier throws as well.  Nothing
on the way from the processor catches what is thrown.

`Turn` is every submessage that a walk comes to, those of the messages that FRAGMENTs complete
among them, with the client as it is then.  An exception escapes from the processing of a packet
if and only if one of its turns throws (`endsPacket_returned_iff`), and `ThrowsAt` says which do.
-/

namespace XrceDds

namespace Environment

/-- From four on the size does not wrap. -/
lemma writeDataSize_of_le {length : ℕ} (h : 4 ≤ length) (hlt : length < 65536) :
    writeDataSize length = length - 4 := by
  unfold writeDataSize
  omega

/-- A length below four wraps. -/
lemma writeDataSize_of_lt {length : ℕ} (h : length < 4) : writeDataSize length > vectorMaxSize := by
  unfold writeDataSize vectorMaxSize
  omega

/-- The identifier of the object stands in the bytes of the request. -/
lemma objectId_eq {length : ℕ} (hle : 4 ≤ length) (bytes : List UInt8) :
    ((bytes.take length).drop 2).take 2 = (bytes.drop 2).take 2 := by
  rw [List.drop_take, List.take_take, Nat.min_eq_left (by omega)]

variable {σ : Type} (environment : Environment σ)

/-- A submessage is a WRITE_DATA of the format that is supported. -/
def IsWrite (message : InputMessage) : Prop :=
  SubmessageKind.ofId message.subheader.submessageId = .writeData ∧
    message.subheader.flags &&& 14 = 0

instance (message : InputMessage) : Decidable (IsWrite message) := by
  unfold IsWrite; infer_instance

/-- The announced payload is there, and its object is a replier. -/
def IsReply (agent : σ) (message : InputMessage) : Prop :=
  message.subheader.submessageLength ≤ message.rest.length ∧
    environment.IsReplier agent ((message.rest.drop 2).take 2)

/-- The announced length of a WRITE_DATA has no room for the request, or that of a reply none for
the identity. -/
def TooShort (agent : σ) (message : InputMessage) : Prop :=
  message.subheader.flags &&& 14 = 0 ∧ (message.subheader.submessageLength < 4 ∨
    (environment.IsReply agent message ∧
      message.subheader.submessageLength < 4 + sampleIdentityLength))

/-- The handler of the submessage throws: a WRITE_DATA is too short, a requester or a replier is
to be reused, or the deserializer of a type of varying length throws. -/
def ThrowsAt (state : AgentClient σ) (message : InputMessage) : Prop :=
  match SubmessageKind.ofId message.subheader.submessageId with
  | .createClient => (message.header.sessionId = 0 ∨ message.header.sessionId = 128) ∧
      (environment.deserialize .createClient message).2 = .threw
  | .create => (environment.deserialize .create message).2 = .threw ∨
      ((environment.deserialize .create message).2 = .complete ∧
        environment.MatchedThrows state.agent message)
  | .writeData => environment.TooShort state.agent message
  | .readData => (environment.deserialize .readData message).2 = .threw
  | .getInfo | .deleteId | .acknack | .heartbeat | .reset | .fragment | .timestamp | .other => False

/-- A FRAGMENT does not throw by itself. -/
lemma not_throwsAt_of_fragment {state : AgentClient σ} {message : InputMessage}
    (hkind : SubmessageKind.ofId message.subheader.submessageId = .fragment) :
    ¬ environment.ThrowsAt state message := by
  unfold ThrowsAt
  rw [hkind]
  exact id

variable [FastCdr]

/-- The turns of `process_input_message`: the client and the message that a submessage is processed
with. -/
inductive Turn : AgentClient σ → InputMessage → AgentClient σ → InputMessage → Prop
  | here {state : AgentClient σ} {message at_ : InputMessage} :
      message.prepareNextSubmessage = (at_, true) → Turn state message state at_
  | next {state after state' : AgentClient σ} {message at_ behind at' : InputMessage} :
      message.prepareNextSubmessage = (at_, true) →
      environment.Handles state at_ (.returned after behind true) →
      Turn after behind state' at' → Turn state message state' at'
  /-- The submessage is a FRAGMENT that completes a message. -/
  | nested {state after state' : AgentClient σ} {message at_ behind completed at' : InputMessage} :
      message.prepareNextSubmessage = (at_, true) →
      SubmessageKind.ofId at_.subheader.submessageId = .fragment →
      pushFragment state at_ = (after, behind, some completed) →
      Turn after completed state' at' → Turn state message state' at'

/-- The turns of the loop of `process_input_packet`. -/
inductive ReadyTurn (streamId : UInt8) :
    AgentClient σ → AgentClient σ → InputMessage → Prop
  | here {state state' : AgentClient σ} {session : Session} {message at_ : InputMessage} :
      state.session.popInputMessage streamId = (session, some message) →
      environment.Turn ⟨state.agent, session⟩ message state' at_ → ReadyTurn streamId
        state state' at_
  | next {state after state' : AgentClient σ} {session : Session} {message at_ : InputMessage}
      {handed : List InputMessage} :
      state.session.popInputMessage streamId = (session, some message) →
      environment.Walks ⟨state.agent, session⟩ message ⟨handed, some after⟩ →
      ReadyTurn streamId after state' at_ → ReadyTurn streamId state state' at_

/-- The turns of `process_input_packet` in an established session. -/
def PacketTurn (client : Option (AgentClient σ)) (message : InputMessage) (state' : AgentClient σ)
    (at_ : InputMessage) : Prop :=
  ¬ (message.header.sessionId = 0 ∨ message.header.sessionId = 128) ∧
    ∃ state ∈ client, environment.ReadyTurn message.header.streamId
      ⟨state.agent, (state.session.pushInputMessage message message.header.streamId
        message.header.sequenceNr).1⟩ state' at_

/-- A message outside of a session is a CREATE_CLIENT whose deserializer throws. -/
def CreateClientThrows (message : InputMessage) : Prop :=
  (message.header.sessionId = 0 ∨ message.header.sessionId = 128) ∧
    ∃ at_, message.prepareNextSubmessage = (at_, true) ∧
      SubmessageKind.ofId at_.subheader.submessageId = .createClient ∧
      (environment.deserialize .createClient at_).2 = .threw

variable {environment} {state : AgentClient σ} {message at_ : InputMessage}

/-! ## Handlers that throw -/

/-- What a write of a length from four on does. -/
lemma processWriteDataSubmessage_of_le (hflags : message.subheader.flags &&& 14 = 0)
    (hle : 4 ≤ message.subheader.submessageLength)
    (hlt : message.subheader.submessageLength < 65536) :
    environment.processWriteDataSubmessage state message =
      if message.subheader.submessageLength ≤ message.rest.length then
        (environment.writeObject state.agent ((message.rest.drop 2).take 2)
          ((message.rest.take message.subheader.submessageLength).drop 4)).elim .threw
            (.returned (environment.performed state message)
              { message with position := message.position + message.subheader.submessageLength })
      else .returned state message false := by
  have hmax : ¬ writeDataSize message.subheader.submessageLength > vectorMaxSize := by
    rw [writeDataSize_of_le hle hlt]
    unfold vectorMaxSize
    omega
  have htotal : 4 + writeDataSize message.subheader.submessageLength =
      message.subheader.submessageLength := by
    rw [writeDataSize_of_le hle hlt]
    omega
  unfold processWriteDataSubmessage
  dsimp only
  rw [if_pos hflags, if_neg hmax, htotal, InputMessage.deserializeArray_eq]
  by_cases hpresent : message.subheader.submessageLength ≤ message.rest.length
  · rw [if_pos hpresent, if_pos hpresent]
    dsimp only
    rw [objectId_eq hle]
    cases environment.writeObject state.agent ((message.rest.drop 2).take 2)
      ((message.rest.take message.subheader.submessageLength).drop 4) <;> rfl
  · rw [if_neg hpresent, if_neg hpresent]

/-- A write throws when it is too short. -/
lemma processWriteDataSubmessage_eq_threw_iff
    (hlt : message.subheader.submessageLength < 65536) :
    environment.processWriteDataSubmessage state message = .threw ↔
      environment.TooShort state.agent message := by
  by_cases hflags : message.subheader.flags &&& 14 = 0
  · rcases Nat.lt_or_ge message.subheader.submessageLength 4 with hshort | hle
    · refine iff_of_true ?_ ⟨hflags, .inl hshort⟩
      unfold processWriteDataSubmessage
      dsimp only
      rw [if_pos hflags, if_pos (writeDataSize_of_lt hshort)]
    · rw [processWriteDataSubmessage_of_le hflags hle hlt]
      by_cases hpresent : message.subheader.submessageLength ≤ message.rest.length
      · have hlength : ((message.rest.take message.subheader.submessageLength).drop 4).length =
            message.subheader.submessageLength - 4 := by
          rw [List.length_drop, List.length_take, Nat.min_eq_left hpresent]
        rw [if_pos hpresent]
        unfold writeObject replierWrite
        by_cases hreplier : environment.IsReplier state.agent ((message.rest.drop 2).take 2)
        · rw [if_pos hreplier, hlength]
          by_cases hidentity : message.subheader.submessageLength < 4 + sampleIdentityLength
          · rw [if_pos (by omega)]
            exact iff_of_true rfl ⟨hflags, .inr ⟨⟨hpresent, hreplier⟩, hidentity⟩⟩
          · rw [if_neg (by omega)]
            refine iff_of_false (fun h => by cases h) fun h => ?_
            rcases h.2 with h | h
            · omega
            · exact hidentity h.2
        · rw [if_neg hreplier]
          refine iff_of_false (fun h => by cases h) fun h => ?_
          rcases h.2 with h | h
          · omega
          · exact hreplier h.1.2
      · rw [if_neg hpresent]
        refine iff_of_false (fun h => by cases h) fun h => ?_
        rcases h.2 with h | h
        · omega
        · exact hpresent h.1.1
  · refine iff_of_false (fun h => ?_) fun h => hflags h.1
    unfold processWriteDataSubmessage at h
    dsimp only at h
    rw [if_neg hflags] at h
    cases h

/-- A payload of fixed length is read without an exception. -/
lemma processFixedPayload_ne_threw (n : ℕ) :
    environment.processFixedPayload n state message ≠ .threw := by
  unfold processFixedPayload
  split <;> exact fun h => by cases h

/-- The handlers other than that of FRAGMENT throw where `ThrowsAt` says so. -/
lemma handles_threw_iff (hkind : SubmessageKind.ofId message.subheader.submessageId ≠ .fragment)
    (hlt : message.subheader.submessageLength < 65536) :
    environment.Handles state message .threw ↔ environment.ThrowsAt state message := by
  have hreturned {state' : AgentClient σ} {behind : InputMessage} {rv : Bool} :
      some (Handled.returned state' behind rv) = some .threw ↔ False :=
    iff_of_false (fun h => by cases h) id
  have hfixed (n : ℕ) : some (environment.processFixedPayload n state message) = some .threw ↔
      False := iff_of_false
        (fun h => environment.processFixedPayload_ne_threw n (Option.some.inj h)) id
  rw [handles_iff_of_ne hkind]
  unfold processSubmessage ThrowsAt
  generalize SubmessageKind.ofId message.subheader.submessageId = kind at hkind
  cases kind with
  | createClient =>
    unfold processCreateClientSubmessage getPayload
    dsimp only
    by_cases hsession : message.header.sessionId = 0 ∨ message.header.sessionId = 128
    · rw [if_pos hsession]
      cases (environment.deserialize .createClient message).2 with
      | complete => exact hreturned.trans (iff_of_false id fun h => by cases h.2)
      | notEnoughMemory => exact hreturned.trans (iff_of_false id fun h => by cases h.2)
      | threw => exact iff_of_true rfl ⟨hsession, rfl⟩
    · rw [if_neg hsession]
      exact hreturned.trans (iff_of_false id fun h => hsession h.1)
  | create =>
    unfold processCreateSubmessage getPayload
    dsimp only
    cases (environment.deserialize .create message).2 with
    | complete =>
      dsimp only
      split
      · next hmatched => exact iff_of_true rfl (.inr ⟨rfl, hmatched⟩)
      · next hmatched =>
        refine hreturned.trans (iff_of_false id ?_)
        rintro (h | h)
        · cases h
        · exact hmatched h.2
    | notEnoughMemory =>
      refine hreturned.trans (iff_of_false id ?_)
      rintro (h | h)
      · cases h
      · cases h.1
    | threw => exact iff_of_true rfl (.inl rfl)
  | getInfo => exact hreturned
  | deleteId => exact hfixed 4
  | writeData =>
    exact Option.some_inj.trans (processWriteDataSubmessage_eq_threw_iff hlt)
  | readData =>
    unfold processReadDataSubmessage getPayload
    dsimp only
    cases (environment.deserialize .readData message).2 with
    | complete => exact hreturned.trans (iff_of_false id fun h => by cases h)
    | notEnoughMemory => exact hreturned.trans (iff_of_false id fun h => by cases h)
    | threw => exact iff_of_true rfl rfl
  | acknack => exact hfixed 5
  | heartbeat => exact hfixed 5
  | reset => exact hreturned
  | fragment => exact absurd rfl hkind
  | timestamp => exact hfixed 8
  | other => exact hreturned

/-! ## Walks that throw -/

/-- An exception escapes from a walk if and only if one of its turns throws. -/
theorem walks_none_iff : (∃ handed, environment.Walks state message ⟨handed, none⟩) ↔
    ∃ state' at', environment.Turn state message state' at' ∧ environment.ThrowsAt state' at' := by
  constructor
  · rintro ⟨handed, fuel, hwalk⟩
    -- the last turn of the innermost walk that was left
    induction fuel generalizing state message handed with
    | zero => cases hwalk
    | succ fuel ih =>
      unfold processInputMessage at hwalk
      rcases hprepare : message.prepareNextSubmessage with ⟨at_, _ | _⟩
      · rw [hprepare] at hwalk
        cases hwalk
      · rw [hprepare] at hwalk
        obtain ⟨handled, hhandles, hon⟩ := Option.bind_eq_some_iff.mp hwalk
        cases handled with
        | threw =>
          by_cases hkind : SubmessageKind.ofId at_.subheader.submessageId = .fragment
          · rw [processSubmessage_fragment hkind] at hhandles
            rcases hpush : pushFragment state at_ with ⟨after, behind, _ | completed⟩
            · rw [processFragmentSubmessage_of_none hpush] at hhandles
              cases hhandles
            · rw [processFragmentSubmessage_of_some hpush] at hhandles
              obtain ⟨⟨handed', _ | last⟩, hnested, heq⟩ := Option.map_eq_some_iff.mp hhandles
              · obtain ⟨state', at', hturn, hthrows⟩ := ih _ hnested
                exact ⟨state', at', .nested hprepare hkind hpush hturn, hthrows⟩
              · cases heq
          · exact ⟨state, at_, .here hprepare, (handles_threw_iff hkind
              (InputMessage.prepareNextSubmessage_eq_true hprepare).2.1).mp ⟨fuel, hhandles⟩⟩
        | returned after behind rv =>
          cases rv with
          | false => cases hon
          | true =>
            obtain ⟨⟨handed', _ | last⟩, hrest, heq⟩ := Option.map_eq_some_iff.mp hon
            · obtain ⟨state', at', hturn, hthrows⟩ := ih _ hrest
              exact ⟨state', at', .next hprepare ⟨fuel, hhandles⟩ hturn, hthrows⟩
            · cases heq
  · rintro ⟨state', at', hturn, hthrows⟩
    induction hturn with
    | here hprepare =>
      have hkind := fun hfragment => environment.not_throwsAt_of_fragment hfragment hthrows
      exact ⟨_, (walks_iff hprepare).mpr ⟨_, (handles_threw_iff hkind
        (InputMessage.prepareNextSubmessage_eq_true hprepare).2.1).mpr hthrows, rfl⟩⟩
    | next hprepare hhandles _ ih =>
      obtain ⟨handed, hwalks⟩ := ih hthrows
      exact ⟨_, (walks_iff hprepare).mpr ⟨_, hhandles, _, hwalks, rfl⟩⟩
    | nested hprepare hkind hpush _ ih =>
      obtain ⟨handed, hwalks⟩ := ih hthrows
      exact ⟨_, (walks_iff hprepare).mpr
        ⟨_, (handles_fragment_some hkind hpush).mpr ⟨_, hwalks, rfl⟩, rfl⟩⟩

/-- No turn throws of a walk that was seen to come to its end. -/
lemma not_throwsAt_of_isSome (fuel : ℕ)
    (h : ((environment.processInputMessage fuel state message).bind WalkResult.client).isSome =
      true) (state' : AgentClient σ) (at' : InputMessage)
    (hturn : environment.Turn state message state' at') : ¬ environment.ThrowsAt state' at' := by
  intro hthrows
  obtain ⟨handed, hthrown⟩ := walks_none_iff.mpr ⟨state', at', hturn, hthrows⟩
  obtain ⟨client, hclient⟩ := Option.isSome_iff_exists.mp h
  obtain ⟨result, hresult, hsome⟩ := Option.bind_eq_some_iff.mp hclient
  rw [← hthrown.unique ⟨fuel, hresult⟩] at hsome
  cases hsome

/-- An exception escapes from the loop if and only if one of its turns throws. -/
lemma endsReady_threw_iff {streamId : UInt8} : environment.EndsReady state streamId .threw ↔
    ∃ state' at', environment.ReadyTurn streamId state state' at' ∧
      environment.ThrowsAt state' at' := by
  constructor
  · rintro ⟨fuel, hends⟩
    induction fuel generalizing state with
    | zero => cases hends
    | succ fuel ih =>
      unfold processReady at hends
      rcases hpop : state.session.popInputMessage streamId with ⟨session, _ | message⟩
      · rw [hpop] at hends
        cases hends
      · rw [hpop] at hends
        obtain ⟨⟨handed, _ | after⟩, hwalk, hon⟩ := Option.bind_eq_some_iff.mp hends
        · obtain ⟨state', at', hturn, hthrows⟩ := walks_none_iff.mp ⟨_, fuel, hwalk⟩
          exact ⟨state', at', .here hpop hturn, hthrows⟩
        · obtain ⟨state', at', hturn, hthrows⟩ := ih hon
          exact ⟨state', at', .next hpop ⟨fuel, hwalk⟩ hturn, hthrows⟩
  · rintro ⟨state', at', hturn, hthrows⟩
    induction hturn with
    | here hpop hturn =>
      obtain ⟨handed, hwalks⟩ := walks_none_iff.mpr ⟨_, _, hturn, hthrows⟩
      exact (endsReady_iff hpop).mpr ⟨_, hwalks, rfl⟩
    | next hpop hwalks _ ih => exact (endsReady_iff hpop).mpr ⟨_, hwalks, ih hthrows⟩

variable (environment) in
/-- The loop returns if and only if none of its turns throws. -/
lemma endsReady_returned_iff {streamId : UInt8} : environment.EndsReady state streamId .returned ↔
    ∀ state' at', environment.ReadyTurn streamId state state' at' →
      ¬ environment.ThrowsAt state' at' := by
  constructor
  · intro hreturned state' at' hturn hthrows
    cases hreturned.unique (endsReady_threw_iff.mpr ⟨state', at', hturn, hthrows⟩)
  · intro hnone
    obtain ⟨_ | _, hends⟩ := environment.endsReady_total state streamId
    · obtain ⟨state', at', hturn, hthrows⟩ := endsReady_threw_iff.mp hends
      exact absurd hthrows (hnone state' at' hturn)
    · exact hends

/-- The processing of a packet returns if and only if none of its turns throws, and a CREATE_CLIENT
outside of a session does not throw either. -/
theorem endsPacket_returned_iff {client : Option (AgentClient σ)} :
    environment.EndsPacket client message .returned ↔
      (∀ state' at', environment.PacketTurn client message state' at' →
        ¬ environment.ThrowsAt state' at') ∧ ¬ environment.CreateClientThrows message := by
  unfold EndsPacket processInputPacket PacketTurn CreateClientThrows getPayload
  by_cases hsession : message.header.sessionId = 0 ∨ message.header.sessionId = 128
  · simp only [if_pos hsession]
    rcases hprepare : message.prepareNextSubmessage with ⟨at_, _ | _⟩
    · refine iff_of_true ⟨0, rfl⟩ ⟨fun _ _ h => absurd hsession h.1, ?_⟩
      rintro ⟨-, at', heq, -⟩
      cases heq
    · dsimp only
      split
      · next hthrows =>
        refine iff_of_false (fun ⟨_, h⟩ => by cases h) fun h => h.2 ?_
        exact ⟨hsession, at_, rfl, hthrows⟩
      · next hthrows =>
        refine iff_of_true ⟨0, rfl⟩ ⟨fun _ _ h => absurd hsession h.1, ?_⟩
        rintro ⟨-, at', heq, hthrows'⟩
        obtain rfl := (Prod.mk.inj heq).1
        exact hthrows hthrows'
  · simp only [if_neg hsession]
    have hclient : ¬ ((message.header.sessionId = 0 ∨ message.header.sessionId = 128) ∧
        ∃ at_, message.prepareNextSubmessage = (at_, true) ∧
          SubmessageKind.ofId at_.subheader.submessageId = .createClient ∧
          (environment.deserialize .createClient at_).2 = .threw) := fun h => hsession h.1
    cases client with
    | none =>
      refine iff_of_true ⟨0, rfl⟩ ⟨?_, hclient⟩
      rintro state' at' ⟨-, state, hstate, -⟩
      exact (Option.not_mem_none state hstate).elim
    | some state =>
      refine environment.endsReady_returned_iff.trans ⟨fun h => ⟨?_, hclient⟩,
        fun h state' at' hturn => h.1 state' at' ⟨hsession, state, rfl, hturn⟩⟩
      rintro state' at' ⟨-, last, hlast, hturn⟩
      obtain rfl := Option.some.inj hlast
      exact h state' at' hturn

/-! ## Lengths of turns -/

/-- The length of the submessage of a turn is one of 16 bits. -/
lemma Turn.submessageLength_lt {state' : AgentClient σ} {at' : InputMessage}
    (h : environment.Turn state message state' at') : at'.subheader.submessageLength < 65536 := by
  induction h with
  | here hprepare => exact (InputMessage.prepareNextSubmessage_eq_true hprepare).2.1
  | next _ _ _ ih => exact ih
  | nested _ _ _ _ ih => exact ih

/-- The length of the submessage of a turn of the loop is one of 16 bits. -/
lemma ReadyTurn.submessageLength_lt {streamId : UInt8} {state' : AgentClient σ}
    (h : environment.ReadyTurn streamId state state' at_) :
    at_.subheader.submessageLength < 65536 := by
  induction h with
  | here _ hturn => exact hturn.submessageLength_lt
  | next _ _ _ ih => exact ih

/-- The length of the submessage of a turn of a packet is one of 16 bits. -/
lemma PacketTurn.submessageLength_lt {client : Option (AgentClient σ)} {state' : AgentClient σ}
    (h : environment.PacketTurn client message state' at_) :
    at_.subheader.submessageLength < 65536 := by
  obtain ⟨-, state, -, hready⟩ := h
  exact hready.submessageLength_lt

end Environment

end XrceDds
