import XrceDds.Client.Microcdr
import XrceDds.Client.ReliableStream

/-!
# Submessage headers and session headers of the client

A submessage starts with a four byte header: its id, its flags and the length of what
follows, little-endian whatever the flags say.  A message starts with the session
header, of four bytes, or of eight when the session id carries the client key.
-/

namespace XrceDds

/-- `SUBHEADER_SIZE`. -/
def subheaderSize : ℕ := 4

/-- `SUBMESSAGE_ID_WRITE_DATA`. -/
def submessageIdWriteData : UInt8 := 7

/-- `SUBMESSAGE_ID_FRAGMENT`. -/
def submessageIdFragment : UInt8 := 13

/-- `FLAG_LAST_FRAGMENT`. -/
def flagLastFragment : UInt8 := 2

/-- `FORMAT_DATA`. -/
def formatData : UInt8 := 0

/-- `(uint16_t)(a - b)`. -/
def u16Sub (a b : ℕ) : ℕ := (a + 65536 - b % 65536) % 65536

/-- `(uint32_t)(a - b)`. -/
def u32Sub (a b : ℕ) : ℕ := (a + 4294967296 - b % 4294967296) % 4294967296

/-- A sum of type `size_t`. -/
def sizeT (n : ℕ) : ℕ := n % 18446744073709551616

/-- `uxr_submessage_padding`. -/
def uxrSubmessagePadding (length : ℕ) : ℕ :=
  if length % subheaderSize ≠ 0 then subheaderSize - length % subheaderSize else 0

/-- The bytes `uxr_serialize_submessage_header` writes. -/
def submessageHeader (id flags : UInt8) (length : ℕ) : List UInt8 :=
  [id, flags, UInt8.ofNat length, UInt8.ofNat (length / 256)]

section

variable {σ : Type} [UcdrMemory σ] (cb : OnFullBuffer σ)

/-- `uxr_serialize_submessage_header`. -/
def uxrSerializeSubmessageHeader (st : σ) (ub : UcdrBuffer) (id flags : UInt8) (length : ℕ) :
    σ × UcdrBuffer :=
  let r := ucdrSerializeUint8 cb st ub id
  let r := ucdrSerializeUint8 cb r.1 r.2 flags
  ucdrSerializeLittleUint16 cb r.1 r.2 length

/-- `uxr_buffer_submessage_header`. -/
def uxrBufferSubmessageHeader (st : σ) (ub : UcdrBuffer) (id : UInt8) (length : ℕ)
    (flags : UInt8) : σ × UcdrBuffer × Bool :=
  let ub := { ucdrAlignTo ub 4 with endianness := ucdrMachineEndianness }
  let r := uxrSerializeSubmessageHeader cb st ub id (flags ||| ub.endianness.toUInt8) length
  (r.1, r.2, decide (ucdrBufferRemaining r.2 ≥ length))

end

/-! ## Session header -/

/-- The fields of `uxrSessionInfo` that a message header carries. -/
structure UxrSessionInfo where
  id : UInt8
  key : List UInt8
  key_length : key.length = 4

/-- `SESSION_ID_WITHOUT_CLIENT_KEY`. -/
def sessionIdWithoutClientKey : UInt8 := 128

/-- `uxr_session_header_offset`. -/
def uxrSessionHeaderOffset (info : UxrSessionInfo) : ℕ :=
  if sessionIdWithoutClientKey > info.id then 8 else 4

/-- The bytes `uxr_serialize_message_header` writes. -/
def messageHeader (info : UxrSessionInfo) (streamIdRaw : UInt8) (seqNum : UxrSeqNum) :
    List UInt8 :=
  [info.id, streamIdRaw, UInt8.ofNat seqNum.val, UInt8.ofNat (seqNum.val / 256)] ++
    if sessionIdWithoutClientKey > info.id then info.key else []

/-- A session header is as long as the offset reserved for it. -/
@[simp] lemma length_messageHeader (info : UxrSessionInfo) (streamIdRaw : UInt8)
    (seqNum : UxrSeqNum) :
    (messageHeader info streamIdRaw seqNum).length = uxrSessionHeaderOffset info := by
  unfold messageHeader uxrSessionHeaderOffset
  split <;> simp [info.key_length]

/-- A session header takes four or eight bytes. -/
lemma uxrSessionHeaderOffset_eq (info : UxrSessionInfo) :
    uxrSessionHeaderOffset info = 4 ∨ uxrSessionHeaderOffset info = 8 := by
  unfold uxrSessionHeaderOffset
  split
  · exact .inr rfl
  · exact .inl rfl

/-- A submessage behind a session header is aligned. -/
lemma uxrSessionHeaderOffset_aligned (info : UxrSessionInfo) :
    uxrSessionHeaderOffset info % 4 = 0 := by
  unfold uxrSessionHeaderOffset
  split <;> rfl

/-- `uxr_stamp_session_header`, into the body of a slot. -/
def uxrStampSessionHeader (info : UxrSessionInfo) (streamIdRaw : UInt8) (seqNum : UxrSeqNum)
    (stream : ReliableStream) (buffer : ℕ) : ReliableStream :=
  stream.store buffer (messageHeader info streamIdRaw seqNum)

/-! ## A header written where there is room for it -/

instance : UcdrMemory ReliableStream where
  store := ReliableStream.store

instance : LawfulUcdrMemory ReliableStream where
  store_nil st a := by
    simp only [UcdrMemory.store, ReliableStream.store, ByteMemory.write_nil]
  store_append st a bs cs := by
    simp only [UcdrMemory.store, ReliableStream.store, ByteMemory.write_append]

section Room

variable {σ : Type} (cb : OnFullBuffer σ) (st : σ) (ub : UcdrBuffer)

/-- A buffer with room hands out its window. -/
lemma ucdrCheckFinalBufferBehavior_of_room {bytes : ℕ} (herr : ub.error = false)
    (hroom : ub.iterator + bytes ≤ ub.final) :
    ucdrCheckFinalBufferBehavior cb st ub bytes = (st, ub, true) := by
  simp [ucdrCheckFinalBufferBehavior, herr, hroom]

/-- Without a callback a buffer that lacks room only records the error. -/
lemma ucdrCheckFinalBufferBehavior_of_full {bytes : ℕ} (hcb : ub.onFullBuffer = false)
    (hfull : ub.final < ub.iterator + bytes) :
    ucdrCheckFinalBufferBehavior cb st ub bytes = (st, { ub with error := true }, false) := by
  unfold ucdrCheckFinalBufferBehavior
  split
  · next h => cases ub; simp_all
  · rw [if_neg (by omega), hcb]
    rfl

variable [UcdrMemory σ]

/-- Where there is room a basic type is stored and the position moves behind it. -/
lemma serializeBasic_of_room (image : List UInt8) (herr : ub.error = false)
    (hroom : ub.iterator + image.length ≤ ub.final) :
    serializeBasic cb st ub image =
      (UcdrMemory.store st ub.iterator image, ub.advance image.length image.length) := by
  simp only [serializeBasic, ucdrCheckFinalBufferBehavior_of_room cb st ub herr hroom, if_true]

/-- At an even position a buffer with room stores the four bytes of a header. -/
lemma uxrSerializeSubmessageHeader_of_room [LawfulUcdrMemory σ] (id flags : UInt8) (length : ℕ)
    (herr : ub.error = false) (halign : (ub.offset - ub.origin) % 2 = 0)
    (horigin : ub.origin ≤ ub.offset) (hroom : ub.iterator + 4 ≤ ub.final) :
    uxrSerializeSubmessageHeader cb st ub id flags length =
      (UcdrMemory.store st ub.iterator (submessageHeader id flags length), ub.advance 4 2) := by
  have h₁ : serializeBasic cb st ub [id] =
      (UcdrMemory.store st ub.iterator [id], ub.advance 1 1) :=
    serializeBasic_of_room cb st ub [id] herr (show ub.iterator + 1 ≤ ub.final by omega)
  have h₂ : serializeBasic cb (UcdrMemory.store st ub.iterator [id]) (ub.advance 1 1) [flags] =
      (UcdrMemory.store st ub.iterator [id, flags], ub.advance 2 1) := by
    rw [serializeBasic_of_room cb _ (ub.advance 1 1) [flags] herr
      (show ub.iterator + 1 + 1 ≤ ub.final by omega)]
    exact Prod.ext (LawfulUcdrMemory.store_append st ub.iterator [id] [flags]) rfl
  have hpad : ucdrBufferAlignment (ub.advance 2 1) 2 = 0 :=
    ucdrBufferAlignment_of_aligned (show (ub.offset + 2 - ub.origin) % 2 = 0 by omega)
  have h₃ : serializeBasic cb (UcdrMemory.store st ub.iterator [id, flags])
      ((ub.advance 2 1).skip 0) [UInt8.ofNat length, UInt8.ofNat (length / 256)] =
      (UcdrMemory.store st ub.iterator (submessageHeader id flags length), ub.advance 4 2) := by
    rw [serializeBasic_of_room cb _ ((ub.advance 2 1).skip 0)
      [UInt8.ofNat length, UInt8.ofNat (length / 256)] herr
      (show ub.iterator + 2 + 0 + 2 ≤ ub.final by omega)]
    exact Prod.ext (LawfulUcdrMemory.store_append st ub.iterator [id, flags] _) rfl
  simp only [uxrSerializeSubmessageHeader, ucdrSerializeUint8, ucdrSerializeLittleUint16, h₁, h₂,
    hpad, h₃]

/-- At a multiple of four a buffer with room buffers the four bytes of a header. -/
theorem uxrBufferSubmessageHeader_of_room [LawfulUcdrMemory σ] (id flags : UInt8) (length : ℕ)
    (herr : ub.error = false) (halign : (ub.offset - ub.origin) % 4 = 0)
    (horigin : ub.origin ≤ ub.offset) (hroom : ub.iterator + 4 ≤ ub.final) :
    uxrBufferSubmessageHeader cb st ub id length flags =
      (UcdrMemory.store st ub.iterator (submessageHeader id (flags ||| 1) length),
        { ub.advance 4 2 with endianness := ucdrMachineEndianness },
        decide (ucdrBufferRemaining (ub.advance 4 2) ≥ length)) := by
  have hpad : ucdrBufferAlignment ub 4 = 0 := ucdrBufferAlignment_of_aligned halign
  have hub : ({ ucdrAlignTo ub 4 with endianness := ucdrMachineEndianness } : UcdrBuffer) =
      { ub with endianness := ucdrMachineEndianness, lastDataSize := 4 } := by
    simp only [ucdrAlignTo, hpad, Nat.add_zero,
      Nat.min_eq_left (show ub.iterator ≤ ub.final by omega)]
  have hserialize := uxrSerializeSubmessageHeader_of_room cb st
    { ub with endianness := ucdrMachineEndianness, lastDataSize := 4 } id (flags ||| 1) length herr
    (show (ub.offset - ub.origin) % 2 = 0 by omega) horigin hroom
  unfold uxrBufferSubmessageHeader
  rw [hub]
  simp only [show ucdrMachineEndianness.toUInt8 = 1 from rfl, hserialize]
  rfl

end Room

end XrceDds
