import XrceDds.Agent.Message
import XrceDds.Agent.Root
import XrceDds.Client.InfoPayload
import XrceDds.Protocol.XrceTypes

/-!
# The INFO of an Agent

`process_get_info_packet` computes the size of a message before it serializes it, with functions
that follow the types a second time, from an alignment of zero.  The buffer has that size and is
filled with zeros, and what does not fit is not sent.  `processGetInfoPacketTo_eq` says that the
size is right. -/

namespace XrceDds

open AlignedCodec

namespace XrceTypes

/-! ## Sizes -/

/-- `getCdrSerializedSize` of elements one behind the other. -/
def sizeOfEach {α : Type} (size : α → ℕ → ℕ) : List α → ℕ → ℕ
  | [], _ => 0
  | a :: as, current => size a current + sizeOfEach size as (current + size a current)

/-- `TransportAddress::getCdrSerializedSize`. -/
def TransportLocator.getCdrSerializedSize (locator : TransportLocator) (current : ℕ) : ℕ :=
  match locator with
  | .small _ _ => 1 + (2 + 1)
  | .medium _ _ => 1 + (4 + (2 + Layout.gap 2 (current + 1 + 4)))
  | .large _ _ => 1 + (16 + (4 + Layout.gap 4 (current + 1 + 16)))
  | .string value => 1 + (4 + Layout.gap 4 (current + 1) + value.length + 1)
  | .other _ => 1

/-- `Property::getCdrSerializedSize`. -/
def Property.getCdrSerializedSize (p : Property) (current : ℕ) : ℕ :=
  let name := 4 + Layout.gap 4 current + p.name.length + 1
  name + (4 + Layout.gap 4 (current + name) + p.value.length + 1)

/-- `AGENT_Representation::getCdrSerializedSize`.  The number of the properties is not counted. -/
def AgentRepresentation.getCdrSerializedSize (agent : AgentRepresentation) (current : ℕ) : ℕ :=
  4 + 2 + 2 + 1 +
    match agent.properties with
    | some properties => sizeOfEach Property.getCdrSerializedSize properties (current + 9)
    | none => 0

/-- `AGENT_ActivityInfo::getCdrSerializedSize`. -/
def activitySize (addressSeq : List TransportLocator) (current : ℕ) : ℕ :=
  let availability := 2 + Layout.gap 2 current
  let length := 4 + Layout.gap 4 (current + availability)
  availability + length +
    sizeOfEach TransportLocator.getCdrSerializedSize addressSeq (current + availability + length)

/-- `INFO_Payload::getCdrSerializedSize`: the request, the status, and the configuration and the
activity, each with whether it is there and its kind. -/
def InfoPayload.getCdrSerializedSize (info : InfoPayload) (current : ℕ) : ℕ :=
  let base := 2 + 2 + (1 + 1)
  let config := 1 + (1 + info.config.getCdrSerializedSize (current + base + 2))
  base + (config + (1 + (1 + activitySize info.addressSeq (current + base + config + 2))))

/-! ## The message -/

/-- The bytes of a layout in a buffer that is filled with zeros. -/
def zeroFilled (w : Layout) (place : ℕ) : List UInt8 := (w place).map (·.getD 0)

/-- `Root::get_info`. -/
def rootGetInfo : AgentRepresentation where
  xrceCookie := ⟨[0x58, 0x52, 0x43, 0x45], rfl⟩
  xrceVersion := ⟨[0x01, 0x00], rfl⟩
  xrceVendorId := ⟨[0x01, 0x0F], rfl⟩
  properties := none

/-- The INFO of an Agent that is available, for a request. -/
def infoPayload (request : BaseObjectRequest) (address : List TransportLocator) : InfoPayload where
  relatedRequest := request
  result := ⟨0, 0⟩
  config := rootGetInfo
  availability := 1
  addressSeq := address

/-- `Processor::process_get_info_packet`, with these addresses: the message for a request with this
header, when it could be serialized. -/
def processGetInfoPacketTo (header : MessageHeader) (request : BaseObjectRequest)
    (address : List TransportLocator) : Option (List UInt8) := do
  let info := infoPayload request address
  let size := info.getCdrSerializedSize 0
  let message := OutputMessage.new header (header.getCdrSerializedSize + 4 + size)
  let message ← message.appendSubheader submessageIdInfo flagLittleEndianness size
  let message ← message.serialize (zeroFilled (info.layout true) message.bytes.length)
  pure message.bytes

/-! ## The sizes are right -/

/-- Alignments depend on the position up to multiples of four. -/
lemma gap_congr {n p q : ℕ} (hn : n ∣ 4) (h : p % 4 = q % 4) : Layout.gap n p = Layout.gap n q := by
  unfold Layout.gap
  rw [← Nat.mod_mod_of_dvd p hn, h, Nat.mod_mod_of_dvd q hn]

/-- One byte is skipped before the availability of an INFO. -/
lemma gap_availability {place : ℕ} (h : place % 4 = 0) : Layout.gap 2 (place + 19) = 1 := by
  rw [gap_congr (show 2 ∣ 4 by decide) (show (place + 19) % 4 = 3 % 4 by omega)]
  rfl

/-- And two before the number of the addresses. -/
lemma gap_addressSeq {place : ℕ} (h : place % 4 = 0) : Layout.gap 4 (place + 22) = 2 := by
  rw [gap_congr (Nat.dvd_refl 4) (show (place + 22) % 4 = 2 % 4 by omega)]
  rfl

/-- A locator is as long as its size says. -/
lemma TransportLocator.length_layout (locator : TransportLocator) {p current : ℕ}
    (h : p % 4 = current % 4) :
    (locator.layout true p).length = locator.getCdrSerializedSize current := by
  cases locator with
  | small address locatorPort =>
    unfold layout getCdrSerializedSize
    simp [address.2]
  | medium address locatorPort =>
    have hgap : Layout.gap 2 (p + 1 + 4) = Layout.gap 2 (current + 1 + 4) :=
      gap_congr (by decide) (by omega)
    unfold layout getCdrSerializedSize
    simp [address.2, hgap]
    omega
  | large address locatorPort =>
    have hgap : Layout.gap 4 (p + 1 + 16) = Layout.gap 4 (current + 1 + 16) :=
      gap_congr (by decide) (by omega)
    unfold layout getCdrSerializedSize
    simp [address.2, hgap]
    omega
  | string value =>
    have hgap : Layout.gap 4 (p + 1) = Layout.gap 4 (current + 1) :=
      gap_congr (by decide) (by omega)
    unfold layout getCdrSerializedSize Layout.string Layout.sequenceOctets
    simp [hgap]
    omega
  | other format => rfl

/-- Locators one behind the other. -/
lemma length_flatMap_layout (address : List TransportLocator) (p current : ℕ)
    (h : p % 4 = current % 4) :
    (Layout.flatMap (TransportLocator.layout true) address p).length =
      sizeOfEach TransportLocator.getCdrSerializedSize address current := by
  induction address generalizing p current with
  | nil => rfl
  | cons locator address ih =>
    have hhead := locator.length_layout h
    unfold Layout.flatMap sizeOfEach
    rw [Layout.append_apply, List.length_append, hhead]
    rw [ih (p + locator.getCdrSerializedSize current)
      (current + locator.getCdrSerializedSize current) (by omega)]

/-- What stands in an INFO before the availability. -/
def infoHead (request : BaseObjectRequest) : List UInt8 :=
  request.requestId.1 ++ request.objectId.1 ++
    [0, 0, 1, 0x0D, 0x58, 0x52, 0x43, 0x45, 0x01, 0x00, 0x01, 0x0F, 0, 1, 0x0D]

/-- What stands in an INFO before the addresses, at a multiple of four. -/
def infoStart (request : BaseObjectRequest) (address : List TransportLocator) : List UInt8 :=
  infoHead request ++ [0, 1, 0, 0, 0] ++ Layout.image true 4 address.length

/-- The head takes 19 bytes. -/
lemma length_infoHead (request : BaseObjectRequest) : (infoHead request).length = 19 := by
  simp [infoHead, request.requestId.2, request.objectId.2]

/-- With the number of the addresses it is 28. -/
lemma length_infoStart (request : BaseObjectRequest) (address : List TransportLocator) :
    (infoStart request address).length = 28 := by
  simp [infoStart, length_infoHead]

/-- The bytes of one layout behind those of another. -/
lemma zeroFilled_append (w v : Layout) (p : ℕ) :
    zeroFilled (w ++ v) p = zeroFilled w p ++ zeroFilled v (p + (w p).length) := by
  unfold zeroFilled
  rw [Layout.append_apply, List.map_append]

/-- Bytes that are given. -/
lemma zeroFilled_bytes (bs : List UInt8) (p : ℕ) : zeroFilled (.bytes bs) p = bs := by
  simp [zeroFilled, Layout.bytes]

/-- A number, with zeros before it. -/
lemma zeroFilled_number (little : Bool) (n value p : ℕ) :
    zeroFilled (.number little n value) p =
      List.replicate (Layout.gap n p) 0 ++ Layout.image little n value := by
  simp [zeroFilled, Layout.number]

/-- As many bytes as the layout has. -/
lemma length_zeroFilled (w : Layout) (p : ℕ) : (zeroFilled w p).length = (w p).length :=
  List.length_map _

/-- Zeros are as good as other bytes. -/
lemma matches_zeroFilled (w : Layout) (p : ℕ) : Matches (w p) (zeroFilled w p) := by
  unfold zeroFilled
  induction w p with
  | nil => exact .nil
  | cons c cs ih =>
    apply List.Forall₂.cons _ ih
    rintro b rfl
    rfl

/-- The fields of an INFO. -/
lemma layout_infoPayload (request : BaseObjectRequest) (address : List TransportLocator) :
    (infoPayload request address).layout true = .bytes (infoHead request) ++ (.number true 2 1 ++
      (.number true 4 address.length ++ .flatMap (TransportLocator.layout true) address)) := by
  have havailability : (Int16.toUInt16 1).toNat = 1 := rfl
  simp only [InfoPayload.layout, BaseObjectRequest.layout, ObjectVariant.layout,
    AgentRepresentation.layout, Layout.optional, infoPayload, rootGetInfo, Layout.append_nil,
    ← Layout.append_assoc, Layout.bytes_append, Layout.sequence, havailability]
  simp [objkAgent, ObjectVariant.kind, infoHead]

/-- The bytes of an INFO. -/
lemma zeroFilled_infoPayload (request : BaseObjectRequest) (address : List TransportLocator)
    {place : ℕ} (h : place % 4 = 0) :
    zeroFilled ((infoPayload request address).layout true) place =
      infoStart request address ++
        zeroFilled (.flatMap (TransportLocator.layout true) address) (place + 28) := by
  rw [layout_infoPayload, zeroFilled_append, zeroFilled_append, zeroFilled_append, zeroFilled_bytes,
    zeroFilled_number, zeroFilled_number, Layout.length_bytes, length_infoHead,
      Layout.length_number,
    gap_availability h, Layout.length_number, Nat.add_assoc place 19, gap_addressSeq h]
  simp [infoStart, Layout.image, ByteMemory.encodeLE, Nat.add_assoc]

/-- The size of an INFO is that of its bytes, at any multiple of four. -/
lemma getCdrSerializedSize_infoPayload (request : BaseObjectRequest)
    (address : List TransportLocator) {place : ℕ} (h : place % 4 = 0) :
    (infoPayload request address).getCdrSerializedSize 0 =
      (zeroFilled ((infoPayload request address).layout true) place).length := by
  have hsize : (infoPayload request address).getCdrSerializedSize 0 =
      28 + sizeOfEach TransportLocator.getCdrSerializedSize address 28 := by
    simp [InfoPayload.getCdrSerializedSize, AgentRepresentation.getCdrSerializedSize, activitySize,
      infoPayload, rootGetInfo, Layout.gap]
    omega
  rw [hsize, zeroFilled_infoPayload request address h, List.length_append, length_infoStart,
    length_zeroFilled, length_flatMap_layout address (place + 28) 28 (by omega)]

/-- The message is sent whole, with the length of the payload in its header. -/
theorem processGetInfoPacketTo_eq (header : MessageHeader) (request : BaseObjectRequest)
    (address : List TransportLocator) :
    let payload := infoStart request address ++ zeroFilled
      (.flatMap (TransportLocator.layout true) address) (header.getCdrSerializedSize + 4 + 28)
    processGetInfoPacketTo header request address =
      some (header.serialize ++
        (SubmessageHeader.mk submessageIdInfo flagLittleEndianness payload.length).serialize ++
          payload) := by
  intro payload
  have hplace : (header.getCdrSerializedSize + 4) % 4 = 0 := by
    rcases header.getCdrSerializedSize_cases with h | h <;> rw [h]
  have hbytes := zeroFilled_infoPayload request address hplace
  have hsize := getCdrSerializedSize_infoPayload request address hplace
  change _ = payload at hbytes
  rw [hbytes] at hsize
  have hroom : header.getCdrSerializedSize ≤ header.getCdrSerializedSize + 4 + payload.length := by
    rw [Nat.add_assoc]
    exact Nat.le_add_right _ _
  have hlength : (header.serialize ++ (SubmessageHeader.mk submessageIdInfo flagLittleEndianness
      payload.length).serialize).length = header.getCdrSerializedSize + 4 := by
    rw [List.length_append, MessageHeader.length_serialize, SubmessageHeader.length_serialize]
  unfold processGetInfoPacketTo OutputMessage.appendSubheader
  dsimp only
  rw [hsize, OutputMessage.new_of_room hroom, OutputMessage.alignSubmessage_header,
    OutputMessage.serialize_of_room (by simp), Option.bind_eq_bind, Option.bind_some]
  dsimp only
  rw [hlength, hbytes, OutputMessage.serialize_of_room (hlength ▸ Nat.le_refl _)]
  rfl

end XrceTypes

end XrceDds
