import XrceDds.Agent.WriteExceptions
import XrceDds.Client.ReadData

/-!
# The lengths that are received

Neither side checks the announced length of a submessage before it subtracts from it what the
payload begins with.  `received_lengths_iff` says for which messages this is right on both sides.
-/

namespace XrceDds

open Environment XrceTypes

section

variable [FastCdr] {σ : Type} (environment : Environment σ)

/-- The data of a write is resized to the bytes behind the request, and a reply that is too short
for an identity is refused. -/
structure Environment.WriteSound (state : AgentClient σ) (message : InputMessage) : Prop where
  size_eq : IsWrite message →
    (writeDataSize message.subheader.submessageLength : ℤ) = message.subheader.submessageLength - 4
  refused : IsWrite message → environment.IsReply state.agent message →
    message.subheader.submessageLength < 4 + sampleIdentityLength →
    ∃ state' behind, environment.Handles state message (.returned state' behind false)

/-- A write that does not throw is sound. -/
lemma Environment.writeSound_of_not_throwsAt {state : AgentClient σ} {message : InputMessage}
    (hlt : message.subheader.submessageLength < 65536)
    (h : ¬ environment.ThrowsAt state message) : environment.WriteSound state message := by
  have hlong (hwrite : IsWrite message) : ¬ environment.TooShort state.agent message := by
    unfold ThrowsAt at h
    rw [hwrite.1] at h
    exact h
  constructor
  · intro hwrite
    have hle : 4 ≤ message.subheader.submessageLength := by
      by_contra hshort
      exact hlong hwrite ⟨hwrite.2, .inl (Nat.lt_of_not_le hshort)⟩
    rw [writeDataSize_of_le hle hlt]
    omega
  · exact fun hwrite hreply hshort => absurd ⟨hwrite.2, .inr ⟨hreply, hshort⟩⟩ (hlong hwrite)

variable (client : Option (AgentClient σ)) (message : InputMessage) (callbacks : ReadCallbacks)
  (unset : List UInt8) (length : UInt16) (format : UInt8) (bytes : List UInt8)

/-- In the Agent no length of a WRITE_DATA wraps, a reply that is too short is refused and no
exception escapes from the processing of a packet, and in the client every length that is handed
over lies within a DATA. -/
def ReceivedSoundly : Prop :=
  (∀ state' turn, environment.PacketTurn client message state' turn →
    environment.WriteSound state' turn) ∧
  environment.EndsPacket client message .returned ∧
  HandedWithin callbacks unset length.toNat format bytes

end

/-- An Agent where every object is of one kind and accepts what it is given, and every deserializer
comes to its end. -/
def environmentOf (kind : UInt8) : Environment Unit where
  deserialize _ _ := (0, .complete)
  perform _ _ := ((), [])
  clientCreated _ _ := false
  objectKind _ _ := some kind
  written _ _ _ := true

/-- The first message on the stream 128 of a session. -/
def firstPacket (submessages : List UInt8) : InputMessage := .new ([129, 128, 0, 0] ++ submessages)

/-- A client of which nothing was received yet. -/
def emptyClient : AgentClient Unit := ⟨(), .new ⟨[0, 0, 0, 0], 129, 512, clientkeyInvalid_length⟩⟩

/-- The submessages are not received soundly where every object is of the kind. -/
def ReceivedBadly (kind : UInt8) (submessages : List UInt8) : Prop :=
  ¬ ReceivedSoundly (environmentOf kind) (some emptyClient) (firstPacket submessages)
    ⟨true, true, true⟩ [] 4 formatData [0, 11, 0, 22]

end XrceDds
