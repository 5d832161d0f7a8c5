import XrceDds.Client.WriteAccess

/-!
# Reading data

A DATA submessage begins with a request, of which the object id says what follows: a sample, a
request with the identity of its sample, or a reply with the request that it answers.  The client
subtracts what it has read from the announced length, in 16 bits, and hands the rest to the
callback of the application; it does not compare the length with the bytes that are there.

The bytes are those behind the header of the submessage, through all the fragments that they come
in: the deserializers ask the callback of the buffer for the next fragment, and fail when there is
none.
-/

namespace XrceDds

/-- `UXR_DATAREADER_ID`. -/
def uxrDatareaderId : UInt8 := 6

/-- `UXR_REQUESTER_ID`. -/
def uxrRequesterId : UInt8 := 7

/-- `UXR_REPLIER_ID`. -/
def uxrReplierId : UInt8 := 8

/-- A buffer that is read: the bytes that are left, and `offset`. -/
structure ReadBuffer where
  bytes : List UInt8
  offset : ℕ
  deriving DecidableEq, Repr

/-- Deserializing `n` bytes.  Where there are fewer, all are taken and there is no result. -/
def ReadBuffer.deserialize (ub : ReadBuffer) (n : ℕ) : ReadBuffer × Option (List UInt8) :=
  if n ≤ ub.bytes.length then
    (⟨ub.bytes.drop n, ub.offset + n⟩, some (ub.bytes.take n))
  else (⟨[], ub.offset + ub.bytes.length⟩, none)

/-- `ucdr_init_buffer` at the place where a buffer stands. -/
def ReadBuffer.restart (ub : ReadBuffer) : ReadBuffer := ⟨ub.bytes, 0⟩

/-- The bytes of a `BaseObjectRequest`. -/
def baseObjectRequestSize : ℕ := 4

/-- The callbacks of a `uxrSession` that are set. -/
structure ReadCallbacks where
  onTopic : Bool
  onRequest : Bool
  onReply : Bool
  deriving DecidableEq, Repr

/-- What is done with a length.  It is handed over, to a callback or to `ucdr_advance_buffer`,
behind the bytes of the headers that were read before; or the iterator of the buffer is moved by it.
-/
inductive ReadEffect
  | handed (header length : ℕ)
  | moved (length : ℕ)
  deriving DecidableEq, Repr

/-- `read_format_data`, behind the request. -/
def readFormatData (callbacks : ReadCallbacks) (type : UInt8) (ub : ReadBuffer) (length : ℕ) :
    List ReadEffect :=
  let tempBuffer := ub.restart
  let advance := ReadEffect.handed baseObjectRequestSize length
  if type = uxrDatareaderId then
    if callbacks.onTopic then [.handed baseObjectRequestSize length, advance] else [advance]
  else if type = uxrReplierId then
    if callbacks.onRequest then
      match tempBuffer.deserialize 24 with
      | (behind, some _) =>
        let consumed := behind.offset - tempBuffer.offset
        [.handed (baseObjectRequestSize + consumed) (u16Sub length consumed), advance]
      | (_, none) => [advance]
    else [advance]
  else if type = uxrRequesterId then
    -- Only here the iterator is moved before the buffer is advanced.
    if callbacks.onReply then
      match tempBuffer.deserialize baseObjectRequestSize with
      | (behind, some _) =>
        let consumed := behind.offset - tempBuffer.offset
        [.handed (baseObjectRequestSize + consumed) (u16Sub length consumed), .moved length,
          advance]
      | (_, none) => [.moved length, advance]
    else [.moved length, advance]
  else [advance]

/-- `read_submessage_data`, for the bytes behind the header of a submessage.  The object id of a
request that is not there is what the variable held before. -/
def readSubmessageData (callbacks : ReadCallbacks) (unset : List UInt8) (length : ℕ)
    (format : UInt8)
    (bytes : List UInt8) : List ReadEffect :=
  let r := (ReadBuffer.mk bytes 0).deserialize baseObjectRequestSize
  let objectId := (r.2.map fun base => base.drop 2).getD unset
  if format = formatData then
    readFormatData callbacks (objectId.getD 1 0 &&& 15) r.1 (u16Sub length baseObjectRequestSize)
  else []

/-- What is handed over is no longer than the bytes that were announced and are there behind the
headers. -/
def HandedWithin (callbacks : ReadCallbacks) (unset : List UInt8) (length : ℕ) (format : UInt8)
    (bytes : List UInt8) : Prop :=
  ∀ header given,
    ReadEffect.handed header given ∈ readSubmessageData callbacks unset length format bytes →
      header + given ≤ length ∧ header + given ≤ bytes.length

/-- The bytes that a callback needs behind the request: the identity of a request, or the request
that is answered. -/
def identitySize (callbacks : ReadCallbacks) (type : UInt8) : ℕ :=
  if type = uxrReplierId ∧ callbacks.onRequest then 24
  else if type = uxrRequesterId ∧ callbacks.onReply then baseObjectRequestSize
  else 0

/-- The announced length is there, and has room for the request; and for the identity, if the bytes
of one are there. -/
def LengthHonest (callbacks : ReadCallbacks) (length : ℕ) (bytes : List UInt8) : Prop :=
  let size := baseObjectRequestSize + identitySize callbacks ((bytes.drop 2).getD 1 0 &&& 15)
  baseObjectRequestSize ≤ length ∧ length ≤ bytes.length ∧
    (size ≤ bytes.length → size ≤ length)

/-- Where the bytes are there, they are taken. -/
lemma ReadBuffer.deserialize_of_le (ub : ReadBuffer) {n : ℕ} (h : n ≤ ub.bytes.length) :
    ub.deserialize n = (⟨ub.bytes.drop n, ub.offset + n⟩, some (ub.bytes.take n)) := if_pos h

/-- Where they are not, there is no result. -/
lemma ReadBuffer.deserialize_of_lt (ub : ReadBuffer) {n : ℕ} (h : ub.bytes.length < n) :
    ub.deserialize n = (⟨[], ub.offset + ub.bytes.length⟩, none) := if_neg (Nat.not_le.mpr h)

/-- The callback that is told of a length, and the headers that were read before. -/
lemma mem_callback {header given base size length : ℕ} {rest : List ReadEffect}
    (h : ReadEffect.handed header given ∈ .handed (base + size) (u16Sub length size) :: rest)
    (hrest : ReadEffect.handed header given ∈ rest → header = base ∧ given = length) :
    (header = base ∧ given = length) ∨
      (header = base + size ∧ given = u16Sub length size) := by
  rcases List.mem_cons.mp h with heq | hmem
  · exact .inr (ReadEffect.handed.inj heq)
  · exact .inl (hrest hmem)

/-- What is handed over lies behind the request, or behind the identity when there is one. -/
lemma handed_mem_readFormatData {callbacks : ReadCallbacks} {type : UInt8} {ub : ReadBuffer}
    {length header given : ℕ}
    (h : ReadEffect.handed header given ∈ readFormatData callbacks type ub length) :
    (header = baseObjectRequestSize ∧ given = length) ∨
      identitySize callbacks type ≤ ub.bytes.length ∧
        header = baseObjectRequestSize + identitySize callbacks type ∧
        given = u16Sub length (identitySize callbacks type) := by
  have hadvance : ReadEffect.handed header given ∈
      [ReadEffect.handed baseObjectRequestSize length] →
      header = baseObjectRequestSize ∧ given = length :=
    fun hmem => ReadEffect.handed.inj (List.mem_singleton.mp hmem)
  have hmoved : ReadEffect.handed header given ∈
      [ReadEffect.moved length, .handed baseObjectRequestSize length] →
      header = baseObjectRequestSize ∧ given = length := by
    intro hmem
    rcases List.mem_cons.mp hmem with heq | hmem
    · cases heq
    · exact hadvance hmem
  unfold readFormatData at h
  dsimp only at h
  split at h
  · split at h
    · rcases List.mem_cons.mp h with heq | hmem
      · exact .inl (ReadEffect.handed.inj heq)
      · exact .inl (hadvance hmem)
    · exact .inl (hadvance h)
  · split at h
    · next htype =>
      split at h
      · next honRequest =>
        have hidentity : identitySize callbacks type = 24 := if_pos ⟨htype, honRequest⟩
        rcases Nat.lt_or_ge ub.bytes.length 24 with hlt | hge
        · rw [ReadBuffer.deserialize_of_lt ub.restart hlt] at h
          exact .inl (hadvance h)
        · rw [ReadBuffer.deserialize_of_le ub.restart hge] at h
          rw [hidentity]
          exact (mem_callback h hadvance).imp_right fun heq => ⟨hge, heq⟩
      · exact .inl (hadvance h)
    · next hnot =>
      split at h
      · next htype =>
        split at h
        · next honReply =>
          have hidentity : identitySize callbacks type = baseObjectRequestSize := by
            unfold identitySize
            rw [if_neg fun hreplier => hnot hreplier.1, if_pos ⟨htype, honReply⟩]
          rcases Nat.lt_or_ge ub.bytes.length baseObjectRequestSize with hlt | hge
          · rw [ReadBuffer.deserialize_of_lt ub.restart hlt] at h
            exact .inl (hmoved h)
          · rw [ReadBuffer.deserialize_of_le ub.restart hge] at h
            rw [hidentity]
            exact (mem_callback h hmoved).imp_right fun heq => ⟨hge, heq⟩
        · exact .inl (hmoved h)
      · exact .inl (hadvance h)

/-- The buffer is advanced by the length. -/
lemma advance_mem_readFormatData (callbacks : ReadCallbacks) (type : UInt8) (ub : ReadBuffer)
    (length : ℕ) :
    ReadEffect.handed baseObjectRequestSize length ∈
      readFormatData callbacks type ub length := by
  unfold readFormatData
  dsimp only
  split
  · split <;> simp
  · split
    · split
      · split <;> simp
      · simp
    · split
      · split
        · split <;> simp
        · simp
      · simp

/-- The identity is handed over when it is there. -/
lemma identity_mem_readFormatData {callbacks : ReadCallbacks} {type : UInt8} {ub : ReadBuffer}
    (length : ℕ) (hpos : identitySize callbacks type ≠ 0)
    (h : identitySize callbacks type ≤ ub.bytes.length) :
    ReadEffect.handed (baseObjectRequestSize + identitySize callbacks type)
      (u16Sub length (identitySize callbacks type)) ∈ readFormatData callbacks type ub length := by
  unfold identitySize at hpos h ⊢
  unfold readFormatData
  split at hpos
  · next hreplier =>
    rw [if_pos hreplier] at h ⊢
    have hne : type ≠ uxrDatareaderId := by
      rw [hreplier.1]
      decide
    dsimp only
    rw [if_neg hne, if_pos hreplier.1, if_pos hreplier.2,
      ReadBuffer.deserialize_of_le ub.restart h]
    exact List.mem_cons_self
  · next hnot =>
    split at hpos
    · next hrequester =>
      rw [if_neg hnot, if_pos hrequester] at h ⊢
      have hne : type ≠ uxrDatareaderId ∧ type ≠ uxrReplierId := by
        rw [hrequester.1]
        decide
      dsimp only
      rw [if_neg hne.1, if_neg hne.2, if_pos hrequester.1, if_pos hrequester.2,
        ReadBuffer.deserialize_of_le ub.restart h]
      exact List.mem_cons_self
    · exact (hpos rfl).elim

/-- The bytes behind the request, and the type of its object. -/
lemma readSubmessageData_of_le (callbacks : ReadCallbacks) (unset : List UInt8) (length : ℕ)
    {bytes : List UInt8} (h : baseObjectRequestSize ≤ bytes.length) :
    readSubmessageData callbacks unset length formatData bytes =
      readFormatData callbacks ((bytes.drop 2).getD 1 0 &&& 15)
        ⟨bytes.drop baseObjectRequestSize, 0 + baseObjectRequestSize⟩
        (u16Sub length baseObjectRequestSize) := by
  have htype : ((bytes.take baseObjectRequestSize).drop 2).getD 1 0 = (bytes.drop 2).getD 1 0 := by
    rw [List.drop_take]
    simp [List.getD_eq_getElem?_getD, baseObjectRequestSize]
  unfold readSubmessageData
  rw [if_pos rfl, ReadBuffer.deserialize_of_le ⟨bytes, 0⟩ h]
  dsimp only [Option.map_some, Option.getD_some]
  rw [htype]

/-- What is handed over lies within the bytes exactly when the announced length is honest. -/
lemma handedWithin_iff (callbacks : ReadCallbacks) (unset : List UInt8) {length : ℕ}
    (hlength : length < 65536) (format : UInt8) (bytes : List UInt8) :
    HandedWithin callbacks unset length format bytes ↔
      (format = formatData → LengthHonest callbacks length bytes) := by
  by_cases hformat : format = formatData
  · subst hformat
    constructor
    · intro h _
      have hadvance := h _ _ (by
        unfold readSubmessageData
        rw [if_pos rfl]
        exact advance_mem_readFormatData _ _ _ _)
      have hle : baseObjectRequestSize ≤ length ∧ length ≤ bytes.length := by
        unfold u16Sub baseObjectRequestSize at hadvance
        unfold baseObjectRequestSize
        omega
      refine ⟨hle.1, hle.2, fun hsize => ?_⟩
      by_cases hzero : identitySize callbacks ((bytes.drop 2).getD 1 0 &&& 15) = 0
      · rw [hzero]
        exact hle.1
      · have hidentity := h _ _ (by
          rw [readSubmessageData_of_le callbacks unset length (hle.1.trans hle.2)]
          refine identity_mem_readFormatData _ hzero ?_
          rw [List.length_drop]
          omega)
        have hsmall : identitySize callbacks ((bytes.drop 2).getD 1 0 &&& 15) ≤ 24 := by
          unfold identitySize baseObjectRequestSize
          split
          · exact Nat.le_refl _
          · split <;> omega
        unfold u16Sub baseObjectRequestSize at hidentity
        unfold baseObjectRequestSize at hle ⊢
        omega
    · intro h header given hmem
      obtain ⟨hrequest, hpresent, hidentity⟩ := h rfl
      rw [readSubmessageData_of_le callbacks unset length (hrequest.trans hpresent)] at hmem
      rcases handed_mem_readFormatData hmem with ⟨hheader, hgiven⟩ | ⟨hle, hheader, hgiven⟩
      · rw [hheader, hgiven]
        unfold u16Sub baseObjectRequestSize
        unfold baseObjectRequestSize at hrequest
        omega
      · rw [hheader, hgiven]
        rw [List.length_drop] at hle
        have hsize := hidentity (by omega)
        unfold u16Sub baseObjectRequestSize at *
        omega
  · refine iff_of_true (fun header given hmem => ?_) fun h => (hformat h).elim
    unfold readSubmessageData at hmem
    rw [if_neg hformat] at hmem
    cases hmem

end XrceDds
