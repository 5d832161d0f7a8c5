import XrceDds.Agent.InfoMessage
import XrceDds.Client.TransportLocator

/-!
# Discovery of an Agent

The Agent answers a GET_INFO with all of its addresses.  The client reads the first four of them,
and tells its application of each one in turn, if it has room for the strings of these four;
otherwise it tells it of none.  `discovery_hears` follows an INFO from `process_get_info_packet` to
the callback. -/

namespace XrceDds

open AlignedCodec ByteMemory

namespace XrceTypes

/-! ## Reading in a buffer -/

/-- Bytes that are there are read. -/
lemma deserialize_append {bs : List UInt8} {n : ℕ} (h : bs.length = n) (rest : List UInt8) (p : ℕ) :
    (ReadBuffer.mk (bs ++ rest) p).deserialize n = (⟨rest, p + n⟩, some bs) := by
  subst h
  rw [ReadBuffer.deserialize_of_le _ (by simp)]
  simp

/-- A byte that is there is read. -/
lemma deserializeByte_cons (b : UInt8) (rest : List UInt8) (p : ℕ) :
    (ReadBuffer.mk (b :: rest) p).deserializeByte = (⟨rest, p + 1⟩, some b) := by
  unfold ReadBuffer.deserializeByte
  have hread : (ReadBuffer.mk ([b] ++ rest) p).deserialize 1 = _ := deserialize_append rfl rest p
  rw [List.singleton_append] at hread
  rw [hread]
  rfl

/-- A number that is there is read, with what is skipped before it. -/
lemma deserializeNumber_append {pad bs : List UInt8} {n p : ℕ} (hpad : pad.length = Layout.gap n p)
    (hbs : bs.length = n) (rest : List UInt8) :
    (ReadBuffer.mk (pad ++ bs ++ rest) p).deserializeNumber n =
      (⟨rest, p + (pad.length + n)⟩, some bs) := by
  have hlength : (pad ++ bs).length = (n - p % n) % n + n := by
    rw [List.length_append, hpad, hbs]
    rfl
  unfold ReadBuffer.deserializeNumber
  dsimp only
  rw [deserialize_append hlength, hpad]
  have hdrop : (pad ++ bs).drop ((n - p % n) % n) = bs := by
    change (pad ++ bs).drop (Layout.gap n p) = bs
    rw [← hpad, List.drop_left]
  rw [Option.map_some, hdrop]
  rfl

/-- The bytes of a number stand for it. -/
lemma numberOf_image (little : Bool) {n value : ℕ} (h : value < 256 ^ n) :
    numberOf little (Layout.image little n value) = value := by
  have hdecode : ∀ bs : List UInt8, bs.foldr (fun byte n => byte.toNat + 256 * n) 0 =
    decodeLE bs := by
    intro bs
    induction bs with
    | nil => rfl
    | cons b bs ih => rw [List.foldr_cons, ih, decodeLE]
  unfold numberOf
  rw [hdecode]
  exact Reader.value_image little h

/-! ## The INFO -/

/-- The client finds the end of the header that the Agent wrote. -/
lemma messageHeaderSize_serialize (header : MessageHeader) (rest : List UInt8) :
    messageHeaderSize (header.serialize ++ rest) = header.getCdrSerializedSize := by
  have hcons : header.serialize ++ rest = header.sessionId :: (header.streamId ::
      (encodeLE 2 header.sequenceNr.val ++
        (if 128 > header.sessionId then header.clientKey else []) ++
        rest)) := by
    simp [MessageHeader.serialize]
  rw [hcons]
  rfl

/-- The headers of a message are read. -/
lemma readInfoHeaders_message (header : MessageHeader) (id : UInt8) (length : ℕ)
    (payload : List UInt8) :
    readInfoHeaders (header.serialize ++ (SubmessageHeader.mk id flagLittleEndianness
        length).serialize ++ payload) =
      some (id, true, ⟨payload, header.getCdrSerializedSize + 4⟩) := by
  obtain ⟨size, hsize⟩ : ∃ size, size = header.getCdrSerializedSize := ⟨_, rfl⟩
  have haligned : size % 4 = 0 := by
    rcases header.getCdrSerializedSize_cases with h | h <;> rw [hsize, h]
  have hlength : header.serialize.length = size := by rw [header.length_serialize, hsize]
  have hmessage : header.serialize ++ (SubmessageHeader.mk id flagLittleEndianness
      length).serialize ++ payload = header.serialize ++ id :: 1 :: UInt8.ofNat length ::
        UInt8.ofNat (length / 256) :: payload := by
    simp [SubmessageHeader.serialize, encodeLE, flagLittleEndianness]
  have hposition : ∀ rest, alignedPosition (header.serialize ++ rest) size = size := by
    intro rest
    unfold alignedPosition alignmentGap
    rw [List.length_append, hlength, haligned]
    exact Nat.min_eq_left (Nat.le_add_right _ _)
  unfold readInfoHeaders uxrReadSubmessageHeader
  rw [hmessage, messageHeaderSize_serialize, ← hsize, hposition, ← hlength, List.drop_left]
  have hflags : (header.serialize ++ id :: 1 :: UInt8.ofNat length :: UInt8.ofNat (length / 256) ::
      payload).getD (header.serialize.length + subheaderSize - 3) 0 = 1 := by
    have hindex : header.serialize.length + subheaderSize - 3 = header.serialize.length + 1 := by
      unfold subheaderSize
      omega
    rw [hindex, List.getD_append_right _ _ _ _ (Nat.le_add_right _ _), Nat.add_sub_cancel_left]
    rfl
  dsimp only
  rw [hflags, List.drop_length_add_append]
  rfl

/-- The bytes of the configuration of an Agent. -/
def agentBytes : List UInt8 := [0x58, 0x52, 0x43, 0x45, 0x01, 0x00, 0x01, 0x0F, 0]

/-- The configuration of an Agent is read. -/
lemma uxrDeserializeObjectVariant_agentBytes (reader : InfoReader) (rest : List UInt8) (p : ℕ) :
    uxrDeserializeObjectVariant reader true ⟨0x0D :: (agentBytes ++ rest), p⟩ =
      (⟨rest, p + 1 + 9⟩, true, some ddsXrceXrceVersion) := by
  unfold uxrDeserializeObjectVariant
  rw [deserializeByte_cons]
  dsimp only
  rw [if_pos (by rfl)]
  unfold uxrDeserializeAgentRepresentation
  rw [deserialize_append (show agentBytes.length = 9 from rfl)]
  rfl

/-- The beginning of the INFO of an Agent is read. -/
lemma deserializeInfoStart_infoHead (reader : InfoReader) (htrue : reader.ucdrBool 1 = true)
    (unset : ObjectInfoMemory) (request : BaseObjectRequest) (rest : List UInt8) (p : ℕ) :
    deserializeInfoStart reader true unset ⟨infoHead request ++ rest, p⟩ =
      ⟨⟨0x0D :: rest, p + 18⟩, true, some ddsXrceXrceVersion, true⟩ := by
  have hbase : (request.requestId.1 ++ request.objectId.1 ++ [0, 0]).length = 6 := by
    simp [request.requestId.2, request.objectId.2]
  have hsplit : infoHead request ++ rest = (request.requestId.1 ++ request.objectId.1 ++ [0, 0]) ++
      (1 :: 0x0D :: (agentBytes ++ 1 :: 0x0D :: rest)) := by
    simp [infoHead, agentBytes]
  unfold deserializeInfoStart
  dsimp only
  rw [hsplit, baseObjectReplySize, deserialize_append hbase]
  dsimp only
  rw [deserializeByte_cons]
  simp only [Option.map_some, Option.getD_some, htrue, if_true]
  rw [uxrDeserializeObjectVariant_agentBytes]
  dsimp only
  rw [deserializeByte_cons]
  simp only [Option.map_some, Option.getD_some, htrue]
  rfl

/-- The number of the addresses of an Agent, and what is behind it. -/
lemma uxrDeserializeDiscoveryInfoPayload_infoStart (reader : DiscoveryReader TransportLocator)
    (htrue : reader.info.ucdrBool 1 = true) (unset : DiscoveryMemory TransportLocator)
    (request : BaseObjectRequest) {address : List TransportLocator}
    (hcount : address.length < 4294967296) (rest : List UInt8) {p : ℕ} (hp : p % 4 = 0) :
    uxrDeserializeDiscoveryInfoPayload reader true unset ⟨infoStart request address ++ rest, p⟩ =
      (deserializeLocators reader true (min address.length uxrTransportLocatorSequenceMax)
        ⟨rest, p + 28⟩).map (⟨ddsXrceXrceVersion, ·⟩) := by
  have hsplit : infoStart request address ++ rest = infoHead request ++ ([0] ++ [1, 0] ++ ([0, 0] ++
      Layout.image true 4 address.length ++ rest)) := by
    simp [infoStart]
  have havailability : ([0] : List UInt8).length =
    Layout.gap 2 (p + 19) := (gap_availability hp).symm
  have hsize : ([0, 0] : List UInt8).length = Layout.gap 4 (p + 22) := (gap_addressSeq hp).symm
  have hposition : p + 19 + (([0] : List UInt8).length + 2) = p + 22 := rfl
  unfold uxrDeserializeDiscoveryInfoPayload
  dsimp only
  rw [hsplit, deserializeInfoStart_infoHead reader.info htrue]
  dsimp only
  rw [if_pos rfl, deserializeByte_cons, if_pos (by rfl), Nat.add_assoc p 18 1,
    deserializeNumber_append havailability (by rfl)]
  dsimp only
  rw [hposition, deserializeNumber_append hsize (Layout.length_image _ _ _)]
  dsimp only
  rw [numberOf_image true hcount, Option.getD_some]
  rfl

/-! ## The callback -/

/-- What a callback says of locators, one after the other, behind those that it saw before. -/
def callResults {Locator : Type} (onAgent : List Locator → Locator → Bool) :
    List Locator → List Locator → List Bool
  | _, [] => []
  | seen, locator :: locators =>
    onAgent seen locator :: callResults onAgent (seen ++ [locator]) locators

/-- The callback is told of every locator of an Agent of the version of the client. -/
lemma readLocators_eq {Locator : Type} (onAgent : List Locator → Locator → Bool)
    (locators : List Locator) (results : List Bool) (isSucceed : Bool) (seen : List Locator) :
    readLocators onAgent ddsXrceXrceVersion locators results isSucceed seen =
      (results ++ callResults onAgent seen locators,
        (callResults onAgent seen locators).getLastD isSucceed, seen ++ locators) := by
  induction locators generalizing results isSucceed seen with
  | nil => simp [readLocators, callResults]
  | cons locator locators ih =>
    rw [readLocators, if_pos rfl]
    dsimp only
    rw [ih, callResults, List.getLastD_cons, List.append_assoc, List.append_assoc]
    rfl

/-- The INFO of an Agent is sent, and read by a client that hears it: its application is told of
each of the first four addresses, in their order, and the discovery succeeds when it accepts the
last of these.  If the client has no room for the string of one of the four, the application is told
of none. -/
theorem discovery_hears (header : MessageHeader) (request : BaseObjectRequest)
    {address : List TransportLocator} (hvalid : ∀ a ∈ address, a.Valid)
    (hcount : address.length < 4294967296) {reader : DiscoveryReader TransportLocator}
    (hlocator : reader.locator = locatorReader) (htrue : reader.info.ucdrBool 1 = true)
    (seen : List TransportLocator) (duration : ℕ) (unset : DiscoveryMemory TransportLocator) :
    ∃ message, processGetInfoPacketTo header request address = some message ∧
      listenInfoMessage reader seen ⟨some message, duration, unset⟩ =
        if ∀ a ∈ address.take 4, a.Fits then
          ⟨some submessageIdInfo, callResults reader.onAgent seen (address.take 4),
            (callResults reader.onAgent seen (address.take 4)).getLastD false,
            seen ++ address.take 4⟩
        else ⟨some submessageIdInfo, [], false, seen⟩ := by
  have hplace : (header.getCdrSerializedSize + 4) % 4 = 0 := by
    rcases header.getCdrSerializedSize_cases with h | h <;> rw [h]
  obtain ⟨p, hp⟩ : ∃ p, p = header.getCdrSerializedSize + 4 := ⟨_, rfl⟩
  have hfirst : ∀ a ∈ address.take 4, a.Valid := fun a ha => hvalid a (List.mem_of_mem_take ha)
  have hlength : min address.length uxrTransportLocatorSequenceMax = (address.take 4).length := by
    rw [List.length_take, Nat.min_comm]
    rfl
  have hsplit : zeroFilled (.flatMap (TransportLocator.layout true) address) (p + 28) =
      zeroFilled (.flatMap (TransportLocator.layout true) (address.take 4)) (p + 28) ++
        zeroFilled (.flatMap (TransportLocator.layout true) (address.drop 4)) (p + 28 +
          (Layout.flatMap (TransportLocator.layout true) (address.take 4) (p + 28)).length) := by
    rw [← zeroFilled_append, ← Layout.flatMap_append, List.take_append_drop]
  have hmatches := matches_zeroFilled (.flatMap (TransportLocator.layout true) (address.take 4))
    (p + 28)
  refine ⟨_, processGetInfoPacketTo_eq header request address, ?_⟩
  unfold listenInfoMessage
  dsimp only
  rw [readInfoHeaders_message]
  dsimp only
  rw [uxrDeserializeDiscoveryInfoPayload_infoStart reader htrue unset request hcount _ hplace, ← hp,
    hsplit, hlength]
  by_cases hfits : ∀ a ∈ address.take 4, a.Fits
  · rw [deserializeLocators_eq_some hlocator hfirst hfits hmatches, if_pos hfits]
    dsimp only [Option.map_some]
    rw [readLocators_eq, List.nil_append]
  · rw [deserializeLocators_eq_none hlocator hfirst hfits hmatches, if_neg hfits]
    rfl

/-- A client that takes every agent, and for which only zero is false. -/
def takesEvery : DiscoveryReader TransportLocator :=
  ⟨⟨fun b => b ≠ 0, fun _ _ ub => (ub, true), true⟩, locatorReader, fun _ _ => true⟩

/-- An address of four octets. -/
def localAddress : TransportLocator := .medium ⟨[127, 0, 0, 1], rfl⟩ 8888

/-- A client hears of an Agent with one address. -/
theorem discovery_hears_localAddress :
    ∃ message, processGetInfoPacketTo ⟨0x80, 0, 0, [0, 0, 0, 0], clientkeyInvalid_length⟩
        ⟨⟨[0, 9], rfl⟩, ⟨[0xFF, 0xFD], rfl⟩⟩ [localAddress] = some message ∧
      listenInfoMessage takesEvery [] ⟨some message, 0, ⟨⟨false, false⟩, ⟨[], []⟩⟩⟩ =
        ⟨some submessageIdInfo, [true], true, [localAddress]⟩ := by
  have hvalid : ∀ a ∈ [localAddress], a.Valid := by
    intro a ha
    rw [List.mem_singleton.mp ha]
    trivial
  exact discovery_hears _ _ hvalid (by decide) rfl (by decide) _ _ _

end XrceTypes

end XrceDds
