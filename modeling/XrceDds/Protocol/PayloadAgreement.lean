import XrceDds.Agent.DeserializeRequests
import XrceDds.Client.SerializeRequests

/-!
# The payloads of requests

The client writes the payload of a request into a buffer, and the Agent reads it from the message
that the buffer was part of.  Neither has a description of the format: the fields are written and
read one by one, in two programs, and the serializer of the client remembers how it is aligned where
that of the Agent computes it.  `RequestPayload.received` says that a payload is written whole or
not at all as far as the client is told, that nothing else is touched, and that the Agent gets what
was written. -/

namespace XrceDds

open ByteMemory AlignedCodec

namespace XrceTypes

/-- The bytes that a payload takes where it is written. -/
def RequestPayload.size (payload : RequestPayload) (endianness : UcdrEndianness) (place : ℕ) : ℕ :=
  (payload.layout (endianness = .little) place).length

/-- The data of a WRITE_DATA is what is behind the request. -/
lemma RequestPayload.size_writeData (base : BaseObjectRequest) (data : List UInt8)
    (endianness : UcdrEndianness) (place : ℕ) :
    (RequestPayload.writeData base data).size endianness place = 4 + data.length := by
  change ((Layout.bytes base.requestId.1 ++ Layout.bytes base.objectId.1 ++ Layout.bytes data)
    place).length = _
  rw [Layout.append_apply, Layout.append_apply, List.length_append, List.length_append,
    Layout.length_bytes, Layout.length_bytes, Layout.length_bytes, base.requestId.2,
      base.objectId.2]

/-- The buffer of the client fails exactly when there is no room for the payload.  In any case
nothing but its window is written; and if it did not fail, then it moved on behind the payload, and
the Agent reads the payload from what was written, and nothing of what is behind it. -/
theorem RequestPayload.received (cdr : CdrDeserializer) {endianness : UcdrEndianness}
    (cb : OnFullBuffer Memory) (payload : RequestPayload) (hvalid : payload.Valid) (m : Memory)
    {ub : UcdrBuffer} (hsettled : ub.Settled endianness) (hcallback : ub.onFullBuffer = false) :
    ∃ m' ub' n, payload.serialize cb (m, ub) = ((), m', ub') ∧ n =
      payload.size endianness ub.place ∧
      (ub'.error = true ↔ ub.final < ub.iterator + n) ∧ AgreeOff m m' ub.iterator ub.final ∧
      (ub'.error = false → ub.Behind ub' n ∧ ∀ rest,
        (getPayload cdr (endianness = .little) payload.submessageId n).run
            ⟨ub.place, read m' ub.iterator n ++ rest⟩ = some (payload, ⟨ub.place + n, rest⟩)) := by
  have hserializes : Serializes endianness _ _ := payload.serializes cb hvalid
  obtain ⟨hwrites, hoverflows, -⟩ := hserializes
  refine ⟨(payload.serialize cb (m, ub)).2.1, (payload.serialize cb (m, ub)).2.2,
    payload.size endianness ub.place, rfl, rfl, ?_⟩
  rcases Nat.lt_or_ge ub.final (ub.iterator + payload.size endianness ub.place) with hlt | hge
  · obtain ⟨herr, hagree⟩ := hoverflows m ub hsettled hcallback hlt
    refine ⟨iff_of_true herr hlt, hagree, ?_⟩
    intro hok
    exact absurd (herr.symm.trans hok) (Bool.noConfusion ·)
  · obtain ⟨hsettled', hbehind, hmatches, hagree⟩ := hwrites m ub hsettled hge
    refine ⟨iff_of_false ?_ (Nat.not_lt.mpr hge), hagree.mono (Nat.le_refl _) hge, ?_⟩
    · rw [hsettled'.noError]
      exact Bool.false_ne_true
    · intro _
      refine ⟨hbehind, ?_⟩
      intro rest
      have hreads := payload.reads cdr (endianness = .little) hvalid
        (payload.size endianness ub.place)
        (by
          rintro base data rfl
          exact size_writeData base data endianness ub.place)
      have hrun := hreads ub.place _ rest hmatches
      rwa [length_read] at hrun

/-- A boolean is the byte zero or one. -/
def strictBool : Reader Bool := do
  let b ← Reader.byte
  if b = 0 then pure false else if b = 1 then pure true else failure

/-- The zero at the end of a string is dropped. -/
def terminatedString (little : Bool) : Reader (List UInt8) := do
  let s ← Reader.sequenceOctets little
  pure (if s.getLast? = some 0 then s.dropLast else s)

/-- A deserializer that refuses what is not a boolean. -/
def strictCdr : CdrDeserializer where
  octet := Reader.byte
  octets := Reader.octets
  array := Reader.take
  bool := strictBool
  uint16 := Reader.uint16
  int16 := Reader.int16
  uint32 := Reader.uint32
  int32 := Reader.int32
  string := terminatedString
  sequenceOctets := Reader.sequenceOctets
  sequence := Reader.sequence
  octet_reads := Reads.byte
  octets_reads := Reads.octets
  array_reads := Reads.take
  bool_reads value := by
    rintro p bs rest h
    obtain rfl := h.eq_of_map_some
    cases value <;> rfl
  uint16_reads := Reads.uint16
  int16_reads := Reads.int16
  uint32_reads := Reads.uint32
  int32_reads := Reads.int32
  string_reads little s h := by
    have hlength : (s ++ [0]).length < 4294967296 := by
      rw [List.length_append]
      exact h.2
    have hread := (Reads.sequenceOctets little hlength).last
      fun bs => if bs.getLast? = some 0 then bs.dropLast else bs
    rwa [List.getLast?_concat, if_pos rfl, List.dropLast_concat] at hread
  sequenceOctets_reads := Reads.sequenceOctets
  sequence_reads little _ _ as hlength h := by
    have hread := Reads.sequence (g := id) little hlength h
    rwa [List.map_id] at hread

/-- A request to create a participant by the reference `a`. -/
def createParticipant : RequestPayload :=
  .create ⟨⟨[0, 10], rfl⟩, ⟨[0, 17], rfl⟩⟩ (.participant (.byReference [97]) 0)

/-- A participant is created in a buffer that is long enough. -/
theorem RequestPayload.received_createParticipant :
    ∃ m' ub' n, createParticipant.serialize noCallback ((fun _ => 0),
        ucdrInitBufferOriginOffset 0 64 0 8) = ((), m', ub') ∧
      n = createParticipant.size .little 8 ∧ (ub'.error = true ↔ 64 < 8 + n) ∧
      AgreeOff (fun _ => 0) m' 8 64 ∧
      (ub'.error = false → (ucdrInitBufferOriginOffset 0 64 0 8).Behind ub' n ∧ ∀ rest,
        (getPayload strictCdr true 1 n).run ⟨8, read m' 8 n ++ rest⟩ =
          some (createParticipant, ⟨8 + n, rest⟩)) := by
  have hsettled : (ucdrInitBufferOriginOffset 0 64 0 8).Settled .little :=
    ⟨rfl, rfl, by decide, by decide, by decide,
      fun k hk => absurd hk (Nat.not_le.mpr (Nat.two_pow_pos k))⟩
  have hvalid : ValidString [97] := by decide
  exact RequestPayload.received strictCdr noCallback createParticipant hvalid (fun _ => 0) hsettled
    rfl

end XrceTypes

end XrceDds
