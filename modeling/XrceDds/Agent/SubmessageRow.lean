import XrceDds.Agent.InputMessage

/-!
# Rows of submessages

A message that a client sends is a header and a row of submessages, each of them but the last one
padded to a multiple of four bytes.  `Stands` is a place of the deserializer before a row; where
there is a first submessage `prepare_next_submessage` reads its header, and behind its payload
the deserializer stands before the others.
-/

namespace XrceDds

open ByteMemory

variable [FastCdr]

/-- The padding before a submessage is no part of the header of the message. -/
lemma InputMessage.alignSubmessage_header (message : InputMessage) :
    message.alignSubmessage.header = message.header := by
  rw [alignSubmessage_eq]
  split <;> rfl

/-- A submessage as it stands in a message, with the padding that follows it if it is not the
last one. -/
structure Submessage where
  submessageId : UInt8
  flags : UInt8
  payload : List UInt8
  padding : List UInt8
  payload_length : payload.length < 65536
  padding_length : padding.length = (4 - payload.length % 4) % 4

namespace Submessage

/-- The header of a submessage. -/
def subheader (submessage : Submessage) : SubmessageHeader :=
  ⟨submessage.submessageId, submessage.flags, submessage.payload.length⟩

/-- The bytes of a row of submessages. -/
def row : List Submessage → List UInt8
  | [] => []
  | [submessage] => submessage.subheader.serialize ++ submessage.payload
  | submessage :: next :: submessages =>
    submessage.subheader.serialize ++ submessage.payload ++ submessage.padding ++
      row (next :: submessages)

/-- The message with its deserializer behind the header of the submessage that it stands before. -/
def atSubmessage (submessage : Submessage) (message : InputMessage) : InputMessage :=
  { message.alignSubmessage with
    subheader := submessage.subheader
    position := message.alignSubmessage.position + 4 }

/-- The message with its deserializer behind the submessage that it stands before. -/
def behind (submessage : Submessage) (message : InputMessage) : InputMessage :=
  { submessage.atSubmessage message with
    position := message.alignSubmessage.position + 4 + submessage.payload.length }

lemma behind_header (submessage : Submessage) (message : InputMessage) :
    (submessage.behind message).header = message.header := message.alignSubmessage_header

/-- The messages that are handed over when the whole row is. -/
def handedOver : List Submessage → InputMessage → List InputMessage
  | [], _ => []
  | submessage :: submessages, message =>
    submessage.atSubmessage message :: handedOver submessages (submessage.behind message)

end Submessage

/-- The deserializer of a message stands before a row of submessages, or before the padding in
front of it. -/
structure InputMessage.Stands (message : InputMessage) (submessages : List Submessage) : Prop where
  position : submessages ≠ [] → message.alignSubmessage.position % 4 = 0
  rest : message.alignSubmessage.rest = Submessage.row submessages

namespace InputMessage

/-- What the deserializer takes when it is there. -/
lemma deserializeArray_append {message : InputMessage} {bytes tail : List UInt8} {n : ℕ}
    (h : message.rest = bytes ++ tail) (hn : bytes.length = n) :
    message.deserializeArray n =
      some (bytes, { message with position := message.position + n }) := by
  rw [deserializeArray_eq, h, if_pos (by rw [List.length_append]; omega), List.take_left' hn]

omit [FastCdr] in
/-- What is left when bytes were taken. -/
lemma rest_advance {message : InputMessage} {bytes tail : List UInt8} {n : ℕ}
    (h : message.rest = bytes ++ tail) (hn : bytes.length = n) :
    ({ message with position := message.position + n } : InputMessage).rest = tail := by
  have hdrop : ({ message with position := message.position + n } : InputMessage).rest =
      message.rest.drop n := List.drop_drop.symm
  rw [hdrop, h, List.drop_left' hn]

/-- The header of a message is read, and the deserializer stands behind it. -/
lemma new_serialize (header : MessageHeader) (tail : List UInt8) :
    (new (header.serialize ++ tail)).header.sessionId = header.sessionId ∧
      (new (header.serialize ++ tail)).header.streamId = header.streamId ∧
      (new (header.serialize ++ tail)).position = header.getCdrSerializedSize := by
  have hhead : (header.serialize ++ tail).headD 0 = header.sessionId := rfl
  have hlength : (header.serialize ++ tail).length = header.getCdrSerializedSize + tail.length := by
    rw [List.length_append, header.length_serialize]
  obtain ⟨hsession, hstream, hposition⟩ := new_eq (header.serialize ++ tail)
  refine ⟨hsession, hstream, hposition.trans ?_⟩
  unfold headerEnd
  rw [hhead, hlength]
  unfold MessageHeader.getCdrSerializedSize
  by_cases hkey : header.sessionId < 128
  · rw [if_pos hkey, if_neg (by omega), if_pos ⟨hkey, by omega⟩]
  · rw [if_neg hkey, if_neg (by omega), if_neg fun h => hkey h.1]

omit [FastCdr] in
/-- A message is at its end when nothing is left. -/
lemma length_le_position_iff (message : InputMessage) :
    message.buf.length ≤ message.position ↔ message.rest = [] := List.drop_eq_nil_iff.symm

end InputMessage

namespace Submessage

/-- What follows the payload of a submessage in a row. -/
def behindPayload (submessage : Submessage) : List Submessage → List UInt8
  | [] => []
  | next :: submessages => submessage.padding ++ row (next :: submessages)

omit [FastCdr] in
/-- A row begins with the header and the payload of its first submessage. -/
lemma row_cons (submessage : Submessage) (submessages : List Submessage) :
    row (submessage :: submessages) = submessage.subheader.serialize ++
      (submessage.payload ++ submessage.behindPayload submessages) := by
  cases submessages with
  | nil => simp [row, behindPayload]
  | cons next submessages => simp [row, behindPayload, List.append_assoc]

end Submessage

namespace InputMessage.Stands

variable {message : InputMessage} {submessage : Submessage} {submessages : List Submessage}

/-- The header of the first submessage is read. -/
lemma prepareNextSubmessage (h : message.Stands (submessage :: submessages)) :
    message.prepareNextSubmessage = (submessage.atSubmessage message, true) ∧
      (submessage.atSubmessage message).rest =
        submessage.payload ++ submessage.behindPayload submessages := by
  have hrest := h.rest
  rw [Submessage.row_cons] at hrest
  unfold InputMessage.prepareNextSubmessage
  dsimp only
  generalize hm : message.alignSubmessage = aligned at hrest
  have hmore : aligned.buf.length > aligned.position := by
    by_contra hend
    rw [(length_le_position_iff aligned).mp (Nat.le_of_not_lt hend)] at hrest
    have hempty := congrArg List.length hrest
    rw [List.length_append, SubmessageHeader.length_serialize] at hempty
    exact absurd hempty (by rw [List.length_nil]; omega)
  have hlength : decodeLE (encodeLE 2 submessage.payload.length) = submessage.payload.length :=
    decodeLE_encodeLE_of_lt submessage.payload_length
  have hbytes : submessage.subheader.serialize =
      [submessage.submessageId] ++ ([submessage.flags] ++
        encodeLE 2 submessage.payload.length) := rfl
  have h₀ : aligned.rest = [submessage.submessageId] ++ ([submessage.flags] ++
      (encodeLE 2 submessage.payload.length ++
        (submessage.payload ++ submessage.behindPayload submessages))) := by
    rw [hrest, hbytes]
    simp only [List.append_assoc]
  have h₁ := rest_advance h₀ (n := 1) rfl
  have h₂ := rest_advance h₁ (n := 1) rfl
  have h₃ := rest_advance h₂ (n := 2) (length_encodeLE _ _)
  rw [if_pos hmore]
  unfold deserializeSubheader
  rw [deserializeArray_append h₀ (n := 1) rfl]
  simp only [List.headD_cons]
  have e₂ : ({ aligned with
      subheader := { aligned.subheader with submessageId := submessage.submessageId }
      position := aligned.position + 1 } : InputMessage).deserializeArray 1 =
        some ([submessage.flags], _) := deserializeArray_append h₁ rfl
  rw [e₂]
  simp only [List.headD_cons]
  have e₃ : ({ aligned with
      subheader := { aligned.subheader with
        submessageId := submessage.submessageId
        flags := submessage.flags }
      position := aligned.position + 1 + 1 } : InputMessage).deserializeArray 2 =
        some (encodeLE 2 submessage.payload.length, _) :=
    deserializeArray_append h₂ (length_encodeLE _ _)
  rw [e₃]
  dsimp only
  rw [hlength]
  unfold Submessage.atSubmessage
  rw [hm]
  exact ⟨rfl, h₃⟩

/-- At the end of a row there is no further submessage. -/
lemma prepareNextSubmessage_nil (h : message.Stands []) :
    message.prepareNextSubmessage.2 = false := by
  have hend := (length_le_position_iff message.alignSubmessage).mpr h.rest
  unfold InputMessage.prepareNextSubmessage
  dsimp only
  rw [if_neg (Nat.not_lt.mpr hend)]

/-- Behind the first submessage stand the others. -/
lemma behind (h : message.Stands (submessage :: submessages)) :
    (submessage.behind message).Stands submessages := by
  have hrest : (submessage.behind message).rest = submessage.behindPayload submessages :=
    rest_advance h.prepareNextSubmessage.2 rfl
  have hposition := h.position (List.cons_ne_nil _ _)
  have hplace : (submessage.behind message).position =
      message.alignSubmessage.position + 4 + submessage.payload.length := rfl
  generalize submessage.behind message = behind at *
  cases submessages with
  | nil =>
    refine ⟨fun hne => absurd rfl hne, ?_⟩
    have hnil : behind.rest = [] := hrest
    rw [InputMessage.alignSubmessage_eq]
    split
    · next hle =>
      rw [hnil] at hle
      rw [Nat.le_zero.mp hle]
      exact hnil
    · exact hnil
  | cons next submessages =>
    have hpad : (4 - behind.position % 4) % 4 = submessage.padding.length := by
      rw [hplace, submessage.padding_length]
      omega
    have hrest' : behind.rest = submessage.padding ++ Submessage.row (next :: submessages) := hrest
    have hle : submessage.padding.length ≤ behind.rest.length := by
      rw [hrest', List.length_append]
      exact Nat.le_add_right _ _
    have halign : behind.alignSubmessage =
        { behind with position := behind.position + submessage.padding.length } := by
      rw [InputMessage.alignSubmessage_eq, hpad, if_pos hle]
    rw [← hpad] at halign
    refine ⟨fun _ => ?_, ?_⟩
    · rw [halign]
      dsimp only
      omega
    · rw [halign, hpad]
      exact rest_advance hrest' rfl

end InputMessage.Stands

/-- A message that was just made of a header and a row of submessages stands before the row. -/
lemma InputMessage.stands_new (header : MessageHeader) (submessages : List Submessage) :
    (InputMessage.new (header.serialize ++ Submessage.row submessages)).Stands submessages := by
  have hposition := (new_serialize header (Submessage.row submessages)).2.2
  have hbuf := new_buf (header.serialize ++ Submessage.row submessages)
  generalize InputMessage.new (header.serialize ++ Submessage.row submessages) = message at *
  have haligned : message.position % 4 = 0 := by
    rcases header.getCdrSerializedSize_cases with h | h <;> rw [hposition, h]
  have halign : message.alignSubmessage = message := by
    rw [InputMessage.alignSubmessage_eq, haligned, if_pos (Nat.zero_le _)]
    rfl
  refine ⟨fun _ => by rw [halign, haligned], ?_⟩
  rw [halign]
  unfold InputMessage.rest
  rw [hbuf, hposition, ← MessageHeader.length_serialize, List.drop_left]

end XrceDds
