import XrceDds.Client.ReadData
import XrceDds.Client.SlotImage

/-!
# INFO messages

The Agent replies to a GET_INFO with an INFO.  The discovery and the ping of the client read one of
them from a datagram, each with a copy of the code that reads the beginning of the payload.

`ucdr_deserialize_bool` of Micro-CDR is left open, and so are the configurations of other objects
than an Agent.
-/

namespace XrceDds

/-- `SUBMESSAGE_ID_INFO`. -/
def submessageIdInfo : UInt8 := 6

/-- `DDS_XRCE_OBJK_AGENT`. -/
def ddsXrceObjkAgent : UInt8 := 0x0D

/-- What an attempt to receive a datagram leads to: a datagram or none, after so many milliseconds;
and what is then in the memory of the fields that are not read. -/
structure DatagramOutcome (Memory : Type) where
  datagram : Option (List UInt8)
  duration : ℕ
  unset : Memory

/-! ## Reading -/

/-- How booleans are read, and the configuration of an object of another kind, by whether numbers
are little endian; and whether those of the machine are. -/
structure InfoReader where
  ucdrBool : UInt8 → Bool
  otherObject : Bool → UInt8 → ReadBuffer → ReadBuffer × Bool
  machineLittle : Bool

/-- `ucdr_deserialize_uint8_t`. -/
def ReadBuffer.deserializeByte (ub : ReadBuffer) : ReadBuffer × Option UInt8 :=
  let r := ub.deserialize 1
  (r.1, r.2.bind List.head?)

/-- Deserializing a number of `size` bytes, at a multiple of its size. -/
def ReadBuffer.deserializeNumber (ub : ReadBuffer) (size : ℕ) : ReadBuffer × Option (List UInt8) :=
  let gap := (size - ub.offset % size) % size
  let r := ub.deserialize (gap + size)
  (r.1, r.2.map (List.drop gap))

/-- The bytes of a `BaseObjectReply`. -/
def baseObjectReplySize : ℕ := 6

/-- `uxr_deserialize_AGENT_Representation`: the cookie, the version, the vendor, and whether there
are properties, which are not read.  The result is the version. -/
def uxrDeserializeAgentRepresentation (ub : ReadBuffer) : ReadBuffer × Option (List UInt8) :=
  let r := ub.deserialize 9
  (r.1, r.2.map fun bytes => (bytes.drop 4).take 2)

/-- `uxr_deserialize_ObjectVariant`: whether it succeeds, and the version of an Agent. -/
def uxrDeserializeObjectVariant (reader : InfoReader) (little : Bool) (ub : ReadBuffer) :
    ReadBuffer × Bool × Option (List UInt8) :=
  match ub.deserializeByte with
  | (ub, some kind) =>
    if kind = ddsXrceObjkAgent then
      let r := uxrDeserializeAgentRepresentation ub
      (r.1, r.2.isSome, r.2)
    else
      let r := reader.otherObject little kind ub
      (r.1, r.2, none)
  | (ub, none) => (ub, false, none)

/-- The memory of the two booleans of an `ObjectInfo`. -/
structure ObjectInfoMemory where
  optionalConfig : Bool
  optionalActivity : Bool

/-- An `INFO_Payload` up to its second boolean: the rest, whether all of it was there, the version
of an Agent, and the boolean. -/
structure InfoStart where
  ub : ReadBuffer
  ret : Bool
  version : Option (List UInt8)
  optionalActivity : Bool

/-- The beginning of `uxr_deserialize_discovery_INFO_Payload` and of `uxr_acknack_pong`, which both
go on when something is missing. -/
def deserializeInfoStart (reader : InfoReader) (little : Bool) (unset : ObjectInfoMemory)
    (ub : ReadBuffer) : InfoStart :=
  let base := ub.deserialize baseObjectReplySize
  let config := base.1.deserializeByte
  let optionalConfig := (config.2.map reader.ucdrBool).getD unset.optionalConfig
  let variant :=
    if optionalConfig then uxrDeserializeObjectVariant reader little config.1
    else (config.1, true, none)
  let activity := variant.1.deserializeByte
  ⟨activity.1, base.2.isSome && config.2.isSome && variant.2.1 && activity.2.isSome, variant.2.2,
    (activity.2.map reader.ucdrBool).getD unset.optionalActivity⟩

/-- The bytes of the header of a message, `uxr_deserialize_message_header`. -/
def messageHeaderSize : List UInt8 → ℕ
  | sessionId :: _ => if sessionId < sessionIdWithoutClientKey then 8 else 4
  | [] => 4

/-- `read_info_headers`: the id of the submessage, whether its numbers are little endian, and what
is behind its header. -/
def readInfoHeaders (message : List UInt8) : Option (UInt8 × Bool × ReadBuffer) :=
  match uxrReadSubmessageHeader message (messageHeaderSize message) with
  | some (id, _, _, start) =>
    some (id, message.getD (start - 3) 0 &&& flagEndianness ≠ 0, ⟨message.drop start, start⟩)
  | none => none

/-- The kind of the activity of an `INFO_Payload`, and what is behind it, when it has one. -/
def infoActivity (reader : InfoReader) (little : Bool) (ub : ReadBuffer) :
    Option (UInt8 × ReadBuffer) :=
  let start := deserializeInfoStart reader little ⟨false, false⟩ ub
  if start.ret && start.optionalActivity then
    let kind := start.ub.deserializeByte
    kind.2.map fun k => (k, kind.1)
  else none

/-- What was in the memory does not matter where everything was read, nor for whether it was. -/
lemma deserializeInfoStart_unset (reader : InfoReader) (little : Bool)
    (unset unset' : ObjectInfoMemory) (ub : ReadBuffer) :
    (deserializeInfoStart reader little unset ub).ret =
        (deserializeInfoStart reader little unset' ub).ret ∧
      ((deserializeInfoStart reader little unset ub).ret = true →
        deserializeInfoStart reader little unset ub =
          deserializeInfoStart reader little unset' ub) := by
  unfold deserializeInfoStart
  dsimp only
  cases (ub.deserialize baseObjectReplySize).1.deserializeByte.2 with
  | none => simp only [Option.isSome_none, Bool.and_false, Bool.false_and, false_implies,
      reduceCtorEq, and_self]
  | some config =>
    refine ⟨rfl, fun hret => ?_⟩
    simp only [Option.map_some, Option.getD_some] at hret ⊢
    obtain ⟨activity, hactivity⟩ := Option.isSome_iff_exists.mp (Bool.and_eq_true_iff.mp hret).2
    rw [hactivity]
    rfl

/-- What is not there is not read. -/
lemma deserializeInfoStart_ret_of_nil (reader : InfoReader) (little : Bool)
    (unset : ObjectInfoMemory) {ub : ReadBuffer} (h : ub.bytes = []) :
    (deserializeInfoStart reader little unset ub).ret = false := by
  have hbase : (ub.deserialize baseObjectReplySize).2 = none := by
    rw [ReadBuffer.deserialize_of_lt _ (by rw [h]; decide)]
  unfold deserializeInfoStart
  dsimp only
  rw [hbase]
  rfl

/-- A message without the headers is short. -/
lemma length_lt_of_readInfoHeaders {message : List UInt8} (h : readInfoHeaders message = none) :
    message.length < 12 := by
  by_contra hlong
  have hsize : messageHeaderSize message = 4 ∨ messageHeaderSize message = 8 := by
    unfold messageHeaderSize
    grind
  have hposition : alignedPosition message (messageHeaderSize message) + 4 ≤ message.length := by
    unfold alignedPosition alignmentGap
    omega
  unfold readInfoHeaders uxrReadSubmessageHeader at h
  match hdrop : message.drop (alignedPosition message (messageHeaderSize message)) with
  | id :: flags :: lo :: hi :: rest =>
    rw [hdrop] at h
    cases h
  | [] | [_] | [_, _] | [_, _, _] =>
    have hlength := congrArg List.length hdrop
    simp at hlength
    omega

/-- The payload is what is behind the headers. -/
lemma readInfoHeaders_eq_some {message : List UInt8} {id : UInt8} {little : Bool} {ub : ReadBuffer}
    (h : readInfoHeaders message = some (id, little, ub)) :
    ub.offset ≤ message.length ∧ ub = ⟨message.drop ub.offset, ub.offset⟩ := by
  unfold readInfoHeaders at h
  split at h
  · next hread =>
    obtain ⟨-, hle⟩ := uxrReadSubmessageHeader_eq_some hread
    cases h
    exact ⟨hle, rfl⟩
  · cases h

end XrceDds
