import XrceDds.Agent.Processor

/-!
# Walks over messages

`Walks` and `Handles` say what a walk and a handler come to, whatever the fuel: more fuel comes to
the same.  A walk goes from a submessage to the one behind it (`walks_iff`), and the handler of a
FRAGMENT that completes a message comes to what the walk over that message does
(`handles_fragment_some`).
-/

namespace XrceDds

namespace InputMessage

/-- The message behind what a deserializer has taken. -/
structure Advances (message behind : InputMessage) : Prop where
  buf : behind.buf = message.buf
  header : behind.header = message.header
  position : message.position ≤ behind.position

namespace Advances

variable {message behind : InputMessage}

lemma refl (message : InputMessage) : message.Advances message := ⟨rfl, rfl, le_rfl⟩

lemma trans {last : InputMessage} (h : message.Advances behind) (h' : behind.Advances last) :
    message.Advances last :=
  ⟨h'.buf.trans h.buf, h'.header.trans h.header, h.position.trans h'.position⟩

lemma rest_eq (h : message.Advances behind) :
    behind.rest = message.rest.drop (behind.position - message.position) := by
  have hle := h.position
  unfold InputMessage.rest
  rw [h.buf, List.drop_drop]
  congr 1
  omega

/-- No byte comes up that was not left before. -/
lemma count_rest_le (h : message.Advances behind) (byte : UInt8) :
    behind.rest.count byte ≤ message.rest.count byte := by
  rw [h.rest_eq]
  exact (List.drop_sublist _ _).count_le _

lemma length_rest_le (h : message.Advances behind) :
    behind.rest.length ≤ message.rest.length := by
  rw [h.rest_eq, List.length_drop]
  exact Nat.sub_le _ _

end Advances

variable [FastCdr]

/-- What is taken, and what is left. -/
lemma deserializeArray_eq_some {message behind : InputMessage} {n : ℕ} {bytes : List UInt8}
    (h : message.deserializeArray n = some (bytes, behind)) :
    bytes.length = n ∧ message.rest = bytes ++ behind.rest ∧
      behind = { message with position := message.position + n } := by
  rw [deserializeArray_eq] at h
  split at h
  · next hle =>
    obtain ⟨rfl, rfl⟩ := Prod.mk.inj (Option.some.inj h)
    refine ⟨by rw [List.length_take, Nat.min_eq_left hle], ?_, rfl⟩
    unfold InputMessage.rest
    rw [← List.drop_drop, List.take_append_drop]
  · cases h

/-- What is taken lies before what is left. -/
lemma advances_of_deserializeArray {message behind : InputMessage} {n : ℕ} {bytes : List UInt8}
    (h : message.deserializeArray n = some (bytes, behind)) : message.Advances behind := by
  obtain ⟨-, -, rfl⟩ := deserializeArray_eq_some h
  exact ⟨rfl, rfl, Nat.le_add_right _ _⟩

/-- The padding before a submessage lies before what is left. -/
lemma advances_alignSubmessage (message : InputMessage) :
    message.Advances message.alignSubmessage := by
  rw [alignSubmessage_eq]
  split
  · exact ⟨rfl, rfl, Nat.le_add_right _ _⟩
  · exact .refl message

/-- The header of a submessage takes four bytes, with the number of its kind among them, and its
length is one of 16 bits. -/
lemma prepareNextSubmessage_eq_true {message at_ : InputMessage}
    (h : message.prepareNextSubmessage = (at_, true)) :
    message.Advances at_ ∧ at_.subheader.submessageLength < 65536 ∧
      ∃ taken, message.alignSubmessage.rest = taken ++ at_.rest ∧ taken.length = 4 ∧
        at_.subheader.submessageId ∈ taken := by
  unfold prepareNextSubmessage at h
  dsimp only at h
  have halign := message.advances_alignSubmessage
  generalize message.alignSubmessage = aligned at h halign ⊢
  split at h
  · unfold deserializeSubheader at h
    split at h
    · cases h
    · next _ id m₁ h₁ =>
      dsimp only at h
      split at h
      · cases h
      · next _ flags m₂ h₂ =>
        split at h
        · cases h
        · next _ length m₃ h₃ =>
          obtain ⟨l₁, e₁, rfl⟩ := deserializeArray_eq_some h₁
          obtain ⟨l₂, e₂, rfl⟩ := deserializeArray_eq_some h₂
          obtain ⟨l₃, e₃, rfl⟩ := deserializeArray_eq_some h₃
          obtain ⟨rfl, -⟩ := Prod.mk.inj h
          obtain ⟨byte, rfl⟩ := List.length_eq_one_iff.mp l₁
          refine ⟨halign.trans ⟨rfl, rfl, by dsimp only; omega⟩, ?_, [byte] ++ flags ++ length,
            ?_, ?_, ?_⟩
          · have hlt := ByteMemory.decodeLE_lt length
            rw [l₃] at hlt
            exact hlt
          · rw [List.append_assoc, List.append_assoc]
            exact e₁.trans (congrArg ([byte] ++ ·) (e₂.trans (congrArg (flags ++ ·) e₃)))
          · rw [List.length_append, List.length_append, l₁, l₂, l₃]
          · exact List.mem_append_left _ (List.mem_append_left _ (List.mem_singleton.mpr rfl))
  · cases h

/-- Behind the header of a submessage at least four bytes fewer are left, and behind that of a
FRAGMENT one byte less with its number. -/
lemma rest_of_prepareNextSubmessage {message at_ : InputMessage}
    (h : message.prepareNextSubmessage = (at_, true)) :
    at_.rest.length + 4 ≤ message.rest.length ∧
      at_.rest.count fragmentId +
        (if at_.subheader.submessageId = fragmentId then 1 else 0) ≤
          message.rest.count fragmentId := by
  obtain ⟨-, -, taken, hrest, hlength, hmem⟩ := prepareNextSubmessage_eq_true h
  have hle := message.advances_alignSubmessage.length_rest_le
  have hcount := message.advances_alignSubmessage.count_rest_le fragmentId
  rw [hrest, List.length_append] at hle
  rw [hrest, List.count_append] at hcount
  refine ⟨by omega, ?_⟩
  split
  · next hid =>
    have := List.count_pos_iff.mpr (hid ▸ hmem)
    omega
  · omega

end InputMessage

variable [FastCdr] {σ : Type} (environment : Environment σ)

namespace Environment

/-! ## What walks and handlers come to -/

/-- The walk over a message comes to a result. -/
def Walks (state : AgentClient σ) (message : InputMessage) (result : WalkResult σ) : Prop :=
  ∃ fuel, environment.processInputMessage fuel state message = some result

/-- The handler of a submessage comes to a result. -/
def Handles (state : AgentClient σ) (message : InputMessage) (handled : Handled σ) : Prop :=
  ∃ fuel, environment.processSubmessage (environment.processInputMessage fuel) state message =
    some handled

/-- What the walk comes to behind a submessage, once that is handled. -/
def WalksOn (message : InputMessage) : Handled σ → WalkResult σ → Prop
  | .threw, result => result = ⟨[message], none⟩
  | .returned state behind true, result =>
    ∃ rest, environment.Walks state behind rest ∧ result = ⟨message :: rest.handed, rest.client⟩
  | .returned state _ false, result => result = ⟨[message], some state⟩

/-- What the handler of a FRAGMENT comes to, once the message that it completed is walked over. -/
def handledFragment (behind : InputMessage) (result : WalkResult σ) : Handled σ :=
  match result.client with
  | some state => .returned state behind true
  | none => .threw

/-- The loop over the messages that a stream has ready comes to an end. -/
def EndsReady (state : AgentClient σ) (streamId : UInt8) (ending : Ending) : Prop :=
  ∃ fuel, environment.processReady fuel state streamId = some ending

/-- How the loop ends behind a message, once that is walked over. -/
def EndsReadyOn (streamId : UInt8) (result : WalkResult σ) (ending : Ending) : Prop :=
  match result.client with
  | some state => environment.EndsReady state streamId ending
  | none => ending = .threw

/-- The processing of a packet comes to an end. -/
def EndsPacket (client : Option (AgentClient σ)) (message : InputMessage) (ending : Ending) :
    Prop :=
  ∃ fuel, environment.processInputPacket fuel client message = some ending

variable {environment}

/-- Only the handler of a FRAGMENT walks over another message. -/
lemma processSubmessage_congr {state : AgentClient σ} {message : InputMessage}
    (h : SubmessageKind.ofId message.subheader.submessageId ≠ .fragment)
    (walk walk' : AgentClient σ → InputMessage → Option (WalkResult σ)) :
    environment.processSubmessage walk state message =
      environment.processSubmessage walk' state message := by
  unfold processSubmessage
  generalize SubmessageKind.ofId message.subheader.submessageId = kind at h ⊢
  cases kind with
  | fragment => exact absurd rfl h
  | _ => rfl

/-- The handler of a FRAGMENT is that of its kind. -/
lemma processSubmessage_fragment {state : AgentClient σ} {message : InputMessage}
    (h : SubmessageKind.ofId message.subheader.submessageId = .fragment)
    (walk : AgentClient σ → InputMessage → Option (WalkResult σ)) :
    environment.processSubmessage walk state message =
      processFragmentSubmessage walk state message := by
  unfold processSubmessage
  rw [h]

/-- The handler of a FRAGMENT that completes nothing. -/
lemma processFragmentSubmessage_of_none {state state' : AgentClient σ}
    {message behind : InputMessage} (h : pushFragment state message = (state', behind, none))
    (walk : AgentClient σ → InputMessage → Option (WalkResult σ)) :
    processFragmentSubmessage walk state message = some (.returned state' behind true) := by
  unfold processFragmentSubmessage
  rw [h]

/-- The handler of a FRAGMENT that completes a message. -/
lemma processFragmentSubmessage_of_some {state state' : AgentClient σ}
    {message behind completed : InputMessage}
    (h : pushFragment state message = (state', behind, some completed))
    (walk : AgentClient σ → InputMessage → Option (WalkResult σ)) :
    processFragmentSubmessage walk state message =
      (walk state' completed).map (handledFragment behind) := by
  unfold processFragmentSubmessage
  rw [h]
  rfl

/-- A walk that comes to more results lets the handlers come to more. -/
lemma processSubmessage_mono {walk walk' : AgentClient σ → InputMessage → Option (WalkResult σ)}
    (hwalk : ∀ state message result, walk state message = some result →
      walk' state message = some result)
    {state : AgentClient σ} {message : InputMessage} {handled : Handled σ}
    (h : environment.processSubmessage walk state message = some handled) :
    environment.processSubmessage walk' state message = some handled := by
  by_cases hkind : SubmessageKind.ofId message.subheader.submessageId = .fragment
  · rw [processSubmessage_fragment hkind] at h ⊢
    rcases hpush : pushFragment state message with ⟨state', behind, _ | completed⟩
    · rw [processFragmentSubmessage_of_none hpush] at h ⊢
      exact h
    · rw [processFragmentSubmessage_of_some hpush] at h ⊢
      obtain ⟨result, hresult, rfl⟩ := Option.map_eq_some_iff.mp h
      rw [hwalk _ _ _ hresult]
      rfl
  · rw [processSubmessage_congr hkind walk' walk]
    exact h

omit [FastCdr] in
/-- Behind a submessage that lets it, the walk goes on. -/
lemma walkOn_returned_true (walk : AgentClient σ → InputMessage → Option (WalkResult σ))
    (message behind : InputMessage) (state : AgentClient σ) :
    walkOn walk message (.returned state behind true) =
      (walk state behind).map fun result => ⟨message :: result.handed, result.client⟩ := rfl

/-- With more fuel a walk comes to the same. -/
lemma processInputMessage_mono {fuel fuel' : ℕ} (hle : fuel ≤ fuel') {state : AgentClient σ}
    {message : InputMessage} {result : WalkResult σ}
    (h : environment.processInputMessage fuel state message = some result) :
    environment.processInputMessage fuel' state message = some result := by
  induction fuel generalizing fuel' state message result with
  | zero => cases h
  | succ fuel ih =>
    obtain ⟨fuel', rfl⟩ := Nat.exists_eq_succ_of_ne_zero (Nat.ne_zero_of_lt hle)
    have hwalk : ∀ state message result,
        environment.processInputMessage fuel state message = some result →
          environment.processInputMessage fuel' state message = some result :=
      fun _ _ _ => ih (Nat.le_of_succ_le_succ hle)
    unfold processInputMessage at h ⊢
    rcases hprepare : message.prepareNextSubmessage with ⟨at_, _ | _⟩
    · rw [hprepare] at h
      exact h
    · rw [hprepare] at h
      dsimp only at h ⊢
      obtain ⟨handled, hhandled, hon⟩ := Option.bind_eq_some_iff.mp h
      rw [processSubmessage_mono hwalk hhandled, Option.bind_some]
      cases handled with
      | threw => exact hon
      | returned state' behind rv =>
        cases rv with
        | false => exact hon
        | true =>
          obtain ⟨rest, hrest, rfl⟩ := Option.map_eq_some_iff.mp hon
          rw [walkOn_returned_true, hwalk _ _ _ hrest]
          rfl

section

variable {state : AgentClient σ} {message at_ : InputMessage} {result : WalkResult σ}
  {handled : Handled σ}

/-- A walk at its end hands nothing over. -/
lemma walks_iff_of_end (h : message.prepareNextSubmessage = (at_, false)) :
    environment.Walks state message result ↔ result = ⟨[], some state⟩ := by
  have hstep (fuel : ℕ) :
      environment.processInputMessage (fuel + 1) state message = some ⟨[], some state⟩ := by
    unfold processInputMessage
    rw [h]
  constructor
  · rintro ⟨_ | fuel, hwalk⟩
    · cases hwalk
    · rw [hstep] at hwalk
      exact (Option.some.inj hwalk).symm
  · rintro rfl
    exact ⟨1, hstep 0⟩

/-- A walk hands the submessage that it stands before over, and goes on behind it. -/
lemma walks_iff (h : message.prepareNextSubmessage = (at_, true)) :
    environment.Walks state message result ↔
      ∃ handled, environment.Handles state at_ handled ∧
        environment.WalksOn at_ handled result := by
  have hstep (fuel : ℕ) : environment.processInputMessage (fuel + 1) state message =
      (environment.processSubmessage (environment.processInputMessage fuel) state at_).bind
        (walkOn (environment.processInputMessage fuel) at_) := by
    rw [processInputMessage, h]
  constructor
  · rintro ⟨_ | fuel, hwalk⟩
    · cases hwalk
    · rw [hstep] at hwalk
      obtain ⟨handled, hhandled, hon⟩ := Option.bind_eq_some_iff.mp hwalk
      refine ⟨handled, ⟨fuel, hhandled⟩, ?_⟩
      cases handled with
      | threw => exact (Option.some.inj hon).symm
      | returned state' behind rv =>
        cases rv with
        | false => exact (Option.some.inj hon).symm
        | true =>
          obtain ⟨rest, hrest, rfl⟩ := Option.map_eq_some_iff.mp hon
          exact ⟨rest, ⟨fuel, hrest⟩, rfl⟩
  · rintro ⟨handled, ⟨fuel, hhandled⟩, hon⟩
    cases handled with
    | threw => exact ⟨fuel + 1, by rw [hstep, hhandled, hon]; rfl⟩
    | returned state' behind rv =>
      cases rv with
      | false => exact ⟨fuel + 1, by rw [hstep, hhandled, hon]; rfl⟩
      | true =>
        obtain ⟨rest, ⟨fuel', hrest⟩, rfl⟩ := hon
        refine ⟨max fuel fuel' + 1, ?_⟩
        have hhandled' := processSubmessage_mono
          (fun _ _ _ => processInputMessage_mono (le_max_left fuel fuel')) hhandled
        rw [hstep, hhandled', Option.bind_some, walkOn_returned_true,
          processInputMessage_mono (le_max_right fuel fuel') hrest]
        rfl

/-- The handlers of the other kinds do not walk. -/
lemma handles_iff_of_ne
    (h : SubmessageKind.ofId message.subheader.submessageId ≠ .fragment) :
    environment.Handles state message handled ↔
      environment.processSubmessage (fun _ _ => none) state message = some handled :=
  ⟨fun ⟨_, hhandled⟩ => processSubmessage_congr h _ _ ▸ hhandled,
    fun hhandled => ⟨0, processSubmessage_congr h _ _ ▸ hhandled⟩⟩

/-- A FRAGMENT that completes nothing is handled. -/
lemma handles_fragment_none {state' : AgentClient σ} {behind : InputMessage}
    (h : SubmessageKind.ofId message.subheader.submessageId = .fragment)
    (hpush : pushFragment state message = (state', behind, none)) :
    environment.Handles state message handled ↔ handled = .returned state' behind true := by
  have hstep (fuel : ℕ) :
      environment.processSubmessage (environment.processInputMessage fuel) state message =
        some (.returned state' behind true) := by
    rw [processSubmessage_fragment h, processFragmentSubmessage_of_none hpush]
  constructor
  · rintro ⟨fuel, hhandled⟩
    rw [hstep] at hhandled
    exact (Option.some.inj hhandled).symm
  · rintro rfl
    exact ⟨0, hstep 0⟩

/-- A FRAGMENT that completes a message is handled as the walk over that message comes out. -/
lemma handles_fragment_some {state' : AgentClient σ} {behind completed : InputMessage}
    (h : SubmessageKind.ofId message.subheader.submessageId = .fragment)
    (hpush : pushFragment state message = (state', behind, some completed)) :
    environment.Handles state message handled ↔
      ∃ result, environment.Walks state' completed result ∧
        handled = handledFragment behind result := by
  have hstep (fuel : ℕ) :
      environment.processSubmessage (environment.processInputMessage fuel) state message =
        (environment.processInputMessage fuel state' completed).map (handledFragment behind) := by
    rw [processSubmessage_fragment h, processFragmentSubmessage_of_some hpush]
  constructor
  · rintro ⟨fuel, hhandled⟩
    rw [hstep] at hhandled
    obtain ⟨result, hresult, rfl⟩ := Option.map_eq_some_iff.mp hhandled
    exact ⟨result, ⟨fuel, hresult⟩, rfl⟩
  · rintro ⟨result, ⟨fuel, hresult⟩, rfl⟩
    exact ⟨fuel, by rw [hstep, hresult]; rfl⟩

/-- A walk comes to one result. -/
lemma Walks.unique {result' : WalkResult σ} (h : environment.Walks state message result)
    (h' : environment.Walks state message result') : result = result' := by
  obtain ⟨fuel, hwalk⟩ := h
  obtain ⟨fuel', hwalk'⟩ := h'
  have hmax := processInputMessage_mono (le_max_left fuel fuel') hwalk
  rw [processInputMessage_mono (le_max_right fuel fuel') hwalk'] at hmax
  exact (Option.some.inj hmax).symm

/-- A handler comes to one result. -/
lemma Handles.unique {handled' : Handled σ} (h : environment.Handles state message handled)
    (h' : environment.Handles state message handled') : handled = handled' := by
  obtain ⟨fuel, hhandles⟩ := h
  obtain ⟨fuel', hhandles'⟩ := h'
  have hmax := processSubmessage_mono
    (fun _ _ _ => processInputMessage_mono (le_max_left fuel fuel')) hhandles
  rw [processSubmessage_mono
    (fun _ _ _ => processInputMessage_mono (le_max_right fuel fuel')) hhandles'] at hmax
  exact (Option.some.inj hmax).symm

/-- With more fuel the loop ends the same way. -/
lemma processReady_mono {fuel fuel' : ℕ} (hle : fuel ≤ fuel') {state : AgentClient σ}
    {streamId : UInt8} {ending : Ending}
    (h : environment.processReady fuel state streamId = some ending) :
    environment.processReady fuel' state streamId = some ending := by
  induction fuel generalizing fuel' state with
  | zero => cases h
  | succ fuel ih =>
    obtain ⟨fuel', rfl⟩ := Nat.exists_eq_succ_of_ne_zero (Nat.ne_zero_of_lt hle)
    unfold processReady at h ⊢
    rcases hpop : state.session.popInputMessage streamId with ⟨session, _ | message⟩
    · rw [hpop] at h
      exact h
    · rw [hpop] at h
      dsimp only at h ⊢
      obtain ⟨⟨handed, _ | after⟩, hwalk, hon⟩ := Option.bind_eq_some_iff.mp h <;>
        rw [processInputMessage_mono (Nat.le_of_succ_le_succ hle) hwalk, Option.bind_some]
      · exact hon
      · exact ih (Nat.le_of_succ_le_succ hle) hon

/-- The loop ends when no message is ready. -/
lemma endsReady_iff_of_none {streamId : UInt8} {session : Session} {ending : Ending}
    (h : state.session.popInputMessage streamId = (session, none)) :
    environment.EndsReady state streamId ending ↔ ending = .returned := by
  have hstep (fuel : ℕ) :
      environment.processReady (fuel + 1) state streamId = some .returned := by
    unfold processReady
    rw [h]
  constructor
  · rintro ⟨_ | fuel, hends⟩
    · cases hends
    · rw [hstep] at hends
      exact (Option.some.inj hends).symm
  · rintro rfl
    exact ⟨1, hstep 0⟩

/-- The loop walks over the message that is ready, and goes on behind it. -/
lemma endsReady_iff {streamId : UInt8} {session : Session} {ending : Ending}
    (h : state.session.popInputMessage streamId = (session, some message)) :
    environment.EndsReady state streamId ending ↔
      ∃ result, environment.Walks ⟨state.agent, session⟩ message result ∧
        environment.EndsReadyOn streamId result ending := by
  have hstep (fuel : ℕ) : environment.processReady (fuel + 1) state streamId =
      (environment.processInputMessage fuel ⟨state.agent, session⟩ message).bind fun result =>
        result.client.elim (some .threw) fun state =>
          environment.processReady fuel state streamId := by
    rw [processReady, h]
    refine congrArg (Option.bind _) (funext fun result => ?_)
    cases result.client <;> rfl
  constructor
  · rintro ⟨_ | fuel, hends⟩
    · cases hends
    · rw [hstep] at hends
      obtain ⟨⟨handed, _ | after⟩, hwalk, hon⟩ := Option.bind_eq_some_iff.mp hends
      · exact ⟨_, ⟨fuel, hwalk⟩, (Option.some.inj hon).symm⟩
      · exact ⟨_, ⟨fuel, hwalk⟩, fuel, hon⟩
  · rintro ⟨⟨handed, _ | after⟩, ⟨fuel, hwalk⟩, hon⟩
    · refine ⟨fuel + 1, ?_⟩
      rw [hstep, hwalk, (hon : ending = .threw)]
      rfl
    · obtain ⟨fuel', hready⟩ := hon
      refine ⟨max fuel fuel' + 1, ?_⟩
      rw [hstep, processInputMessage_mono (le_max_left fuel fuel') hwalk, Option.bind_some]
      exact processReady_mono (le_max_right fuel fuel') hready

/-- The loop ends in one way. -/
lemma EndsReady.unique {streamId : UInt8} {ending ending' : Ending}
    (h : environment.EndsReady state streamId ending)
    (h' : environment.EndsReady state streamId ending') : ending = ending' := by
  obtain ⟨fuel, hends⟩ := h
  obtain ⟨fuel', hends'⟩ := h'
  have hmax := processReady_mono (le_max_left fuel fuel') hends
  rw [processReady_mono (le_max_right fuel fuel') hends'] at hmax
  exact (Option.some.inj hmax).symm

/-- The rule for what a walk does to the client: a relation that every handler keeps to, and that
goes from one submessage to the next, holds between the client before a walk and behind it. -/
lemma Walks.related {R : AgentClient σ → AgentClient σ → Prop} (hrefl : ∀ state, R state state)
    (htrans : ∀ {first second third}, R first second → R second third → R first third)
    (hhandled : ∀ {state message state' behind rv},
      SubmessageKind.ofId message.subheader.submessageId ≠ .fragment →
      environment.Handles state message (.returned state' behind rv) → R state state')
    (hpush : ∀ state message, R state (pushFragment state message).1)
    (h : environment.Walks state message result) : ∀ last ∈ result.client, R state last := by
  obtain ⟨fuel, hwalk⟩ := h
  induction fuel generalizing state message result with
  | zero => cases hwalk
  | succ fuel ih =>
    unfold processInputMessage at hwalk
    rcases hprepare : message.prepareNextSubmessage with ⟨at_, _ | _⟩
    · rw [hprepare] at hwalk
      obtain rfl := Option.some.inj hwalk
      rintro last hmem
      obtain rfl := Option.some.inj hmem
      exact hrefl state
    · rw [hprepare] at hwalk
      obtain ⟨handled, hhandles, hon⟩ := Option.bind_eq_some_iff.mp hwalk
      have hreturned {state' : AgentClient σ} {behind : InputMessage} {rv : Bool}
          (hreturns : handled = .returned state' behind rv) : R state state' := by
        subst hreturns
        by_cases hkind : SubmessageKind.ofId at_.subheader.submessageId = .fragment
        · rw [processSubmessage_fragment hkind] at hhandles
          have hpushed := hpush state at_
          rcases hcompletes : pushFragment state at_ with ⟨state₁, behind₁, _ | completed⟩
          · rw [processFragmentSubmessage_of_none hcompletes] at hhandles
            rw [hcompletes] at hpushed
            cases hhandles
            exact hpushed
          · rw [processFragmentSubmessage_of_some hcompletes] at hhandles
            rw [hcompletes] at hpushed
            obtain ⟨⟨handed, _ | after⟩, hnested, hreturns⟩ := Option.map_eq_some_iff.mp hhandles
            · cases hreturns
            · cases hreturns
              exact htrans hpushed (ih hnested _ rfl)
        · exact hhandled hkind ⟨fuel, hhandles⟩
      cases handled with
      | threw =>
        obtain rfl := Option.some.inj hon
        exact fun last hmem => (Option.not_mem_none last hmem).elim
      | returned state' behind rv =>
        cases rv with
        | false =>
          obtain rfl := Option.some.inj hon
          rintro last hmem
          obtain rfl := Option.some.inj hmem
          exact hreturned rfl
        | true =>
          obtain ⟨rest, hrest, rfl⟩ := Option.map_eq_some_iff.mp hon
          exact fun last hmem => htrans (hreturned rfl) (ih hrest last hmem)

end

end Environment

end XrceDds
