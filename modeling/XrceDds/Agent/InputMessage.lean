import XrceDds.Agent.Message

/-!
# Messages that the Agent receives

`InputMessage` is a received message with the position of its deserializer.  The deserializer is a
parameter (`FastCdr`), of which it is known that it takes whole items or none: an item that runs
over the end of the message leaves the position where it is.
-/

namespace XrceDds

open ByteMemory

/-- `fastcdr::Cdr` over the bytes of a message: what `deserializeArray` and `jump` do from a
position on.  Octets and, at even positions, numbers of two bytes are taken like arrays.  Without
enough bytes there is an exception, or `false`, and the position stays. -/
class FastCdr where
  deserializeArray (buf : List UInt8) (position n : ℕ) : Option (List UInt8 × ℕ)
  jump (buf : List UInt8) (position n : ℕ) : Option ℕ
  deserializeArray_of_le {buf : List UInt8} {position n : ℕ}
    (h : n ≤ (buf.drop position).length) :
    deserializeArray buf position n = some ((buf.drop position).take n, position + n)
  deserializeArray_of_lt {buf : List UInt8} {position n : ℕ}
    (h : (buf.drop position).length < n) : deserializeArray buf position n = none
  jump_of_le {buf : List UInt8} {position n : ℕ} (h : n ≤ (buf.drop position).length) :
    jump buf position n = some (position + n)
  jump_of_lt {buf : List UInt8} {position n : ℕ} (h : (buf.drop position).length < n) :
    jump buf position n = none

/-- A deserializer that behaves so. -/
instance : FastCdr where
  deserializeArray buf position n :=
    if n ≤ (buf.drop position).length then some ((buf.drop position).take n, position + n) else none
  jump buf position n := if n ≤ (buf.drop position).length then some (position + n) else none
  deserializeArray_of_le h := if_pos h
  deserializeArray_of_lt h := if_neg (Nat.not_le.mpr h)
  jump_of_le h := if_pos h
  jump_of_lt h := if_neg (Nat.not_le.mpr h)

/-- `InputMessage`: the bytes of a message, the headers that were read, and how far the
deserializer has come. -/
structure InputMessage where
  buf : List UInt8
  header : MessageHeader
  subheader : SubmessageHeader
  position : ℕ

namespace InputMessage

/-- The default constructor of `MessageHeader`. -/
def emptyHeader : MessageHeader := ⟨0, 0, 0, [0, 0, 0, 0], clientkeyInvalid_length⟩

/-- The bytes that the deserializer has not come to. -/
def rest (message : InputMessage) : List UInt8 := message.buf.drop message.position

variable [FastCdr]

/-- `Cdr::deserializeArray` of `n` bytes. -/
def deserializeArray (message : InputMessage) (n : ℕ) : Option (List UInt8 × InputMessage) :=
  (FastCdr.deserializeArray message.buf message.position n).map fun taken =>
    (taken.1, { message with position := taken.2 })

/-- `MessageHeader::deserialize`, as far as the message reaches. -/
def deserializeHeader (message : InputMessage) : InputMessage :=
  match message.deserializeArray 1 with
  | none => message
  | some (sessionId, message) =>
    let message := { message with
      header := { message.header with sessionId := sessionId.headD 0 } }
    match message.deserializeArray 1 with
    | none => message
    | some (streamId, message) =>
      let message := { message with
        header := { message.header with streamId := streamId.headD 0 } }
      match message.deserializeArray 2 with
      | none => message
      | some (sequenceNr, message) =>
        let message := { message with
          header := { message.header with sequenceNr := seqOf (decodeLE sequenceNr) } }
        if 128 > message.header.sessionId then
          match message.deserializeArray 4 with
          | none => message
          | some (clientKey, message) =>
            if h : clientKey.length = 4 then
              { message with
                header := { message.header with clientKey := clientKey, clientKey_length := h } }
            else message
        else message

/-- The constructor of `InputMessage`. -/
def new (buf : List UInt8) : InputMessage :=
  (InputMessage.mk buf emptyHeader ⟨0, 0, 0⟩ 0).deserializeHeader

/-- `Cdr::jump` over the padding before a submessage, if the message is that long. -/
def alignSubmessage (message : InputMessage) : InputMessage :=
  match FastCdr.jump message.buf message.position ((4 - message.position % 4) % 4) with
  | some position => { message with position := position }
  | none => message

/-- `SubmessageHeader::deserialize`, as far as the message reaches.  Where it starts at a
multiple of four, the length needs no alignment; elsewhere fewer than four bytes are left. -/
def deserializeSubheader (message : InputMessage) : InputMessage × Bool :=
  match message.deserializeArray 1 with
  | none => (message, false)
  | some (submessageId, message) =>
    let message := { message with
      subheader := { message.subheader with submessageId := submessageId.headD 0 } }
    match message.deserializeArray 1 with
    | none => (message, false)
    | some (flags, message) =>
      let message := { message with
        subheader := { message.subheader with flags := flags.headD 0 } }
      match message.deserializeArray 2 with
      | none => (message, false)
      | some (submessageLength, message) =>
        ({ message with
          subheader := { message.subheader with
            submessageLength := decodeLE submessageLength } }, true)

/-- `prepare_next_submessage`. -/
def prepareNextSubmessage (message : InputMessage) : InputMessage × Bool :=
  let message := message.alignSubmessage
  if message.buf.length > message.position then message.deserializeSubheader
  else (message, false)

/-- `get_raw_header`. -/
def getRawHeader (message : InputMessage) : List UInt8 :=
  if 128 > message.header.sessionId then message.buf.take 8 else message.buf.take 4

/-- `get_raw_payload`, into `len` bytes. -/
def getRawPayload (message : InputMessage) (len : ℕ) : Option (List UInt8 × InputMessage) :=
  if message.subheader.submessageLength ≤ len then
    message.deserializeArray message.subheader.submessageLength
  else none

/-- Bytes are taken if they are there. -/
lemma deserializeArray_eq (message : InputMessage) (n : ℕ) :
    message.deserializeArray n = if n ≤ message.rest.length then
      some (message.rest.take n, { message with position := message.position + n }) else none := by
  unfold deserializeArray
  split
  · next hle =>
    rw [FastCdr.deserializeArray_of_le hle]
    rfl
  · next hlt =>
    rw [FastCdr.deserializeArray_of_lt (Nat.lt_of_not_le hlt)]
    rfl

/-- The padding before a submessage is passed if it is there. -/
lemma alignSubmessage_eq (message : InputMessage) :
    message.alignSubmessage = if (4 - message.position % 4) % 4 ≤ message.rest.length then
      { message with position := message.position + (4 - message.position % 4) % 4 }
    else message := by
  unfold alignSubmessage
  split
  · next position hjump =>
    by_cases hle : (4 - message.position % 4) % 4 ≤ (message.buf.drop message.position).length
    · rw [FastCdr.jump_of_le hle] at hjump
      rw [if_pos (show _ ≤ message.rest.length from hle), Option.some.inj hjump]
    · rw [FastCdr.jump_of_lt (Nat.lt_of_not_le hle)] at hjump
      cases hjump
  · next hjump =>
    by_cases hle : (4 - message.position % 4) % 4 ≤ (message.buf.drop message.position).length
    · rw [FastCdr.jump_of_le hle] at hjump
      cases hjump
    · rw [if_neg (show ¬ _ ≤ message.rest.length from hle)]

/-- The deserializer moves, and leaves the bytes alone. -/
lemma deserializeArray_buf {message message' : InputMessage} {n : ℕ} {bytes : List UInt8}
    (h : message.deserializeArray n = some (bytes, message')) : message'.buf = message.buf := by
  rw [deserializeArray_eq] at h
  split at h
  · simp only [Option.some.injEq, Prod.mk.injEq] at h
    rw [← h.2]
  · exact absurd h (by simp)

/-- A message keeps the bytes that it was made of. -/
@[simp] lemma new_buf (buf : List UInt8) : (new buf).buf = buf := by
  unfold new deserializeHeader
  split
  · rfl
  · next _ sessionId m₁ h₁ =>
    have e₁ : m₁.buf = buf := deserializeArray_buf h₁
    dsimp only
    split
    · exact e₁
    · next _ streamId m₂ h₂ =>
      have e₂ : m₂.buf = buf := (deserializeArray_buf h₂).trans e₁
      split
      · exact e₂
      · next _ sequenceNr m₃ h₃ =>
        have e₃ : m₃.buf = buf := (deserializeArray_buf h₃).trans e₂
        split
        · split
          · exact e₃
          · next _ clientKey m₄ h₄ =>
            have e₄ : m₄.buf = buf := (deserializeArray_buf h₄).trans e₃
            split <;> exact e₄
        · exact e₃

/-- The sequence number is in the third and the fourth byte. -/
lemma sequenceNr_new (sessionId streamId low high : UInt8) (rest : List UInt8) :
    (new (sessionId :: streamId :: low :: high :: rest)).header.sequenceNr =
      seqOf (decodeLE [low, high]) := by
  unfold new deserializeHeader
  by_cases hkey : sessionId < 128 <;> by_cases hrest : 4 ≤ rest.length <;>
    simp [deserializeArray_eq, InputMessage.rest, hkey, hrest]

/-- Where the header of a message ends, or where reading it gets stuck. -/
def headerEnd (buf : List UInt8) : ℕ :=
  if buf.length < 4 then min buf.length 2
  else if buf.headD 0 < 128 ∧ 8 ≤ buf.length then 8 else 4

/-- A new message has read the session and the stream from its first two bytes, and stands behind
its header. -/
lemma new_eq (buf : List UInt8) :
    (new buf).header.sessionId = buf.headD 0 ∧ (new buf).header.streamId = buf.getD 1 0 ∧
      (new buf).position = headerEnd buf := by
  unfold new deserializeHeader headerEnd
  match buf with
  | [] | [_] | [_, _] | [_, _, _] => simp [deserializeArray_eq, InputMessage.rest, emptyHeader]
  | sessionId :: _ :: _ :: _ :: tail =>
    by_cases hkey : sessionId < 128 <;> by_cases htail : 4 ≤ tail.length <;>
      simp [deserializeArray_eq, InputMessage.rest, hkey, htail]

/-- What a new message has left. -/
lemma new_rest (buf : List UInt8) : (new buf).rest = buf.drop (headerEnd buf) := by
  unfold InputMessage.rest
  rw [new_buf, (new_eq buf).2.2]

end InputMessage

end XrceDds
