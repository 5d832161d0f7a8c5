import XrceDds.Lib.ByteMemory
import XrceDds.Client.SeqNum

/-!
# The slots of a reliable stream

`uxrReliableStream` splits its buffer into `history` slots of `size / history` bytes.  A
slot starts with a `length_t` that records how many of the bytes behind it are in use.
This file models the accessors of `common_reliable_stream_internal.h` over a byte
memory and proves that they treat the slots as separate cells: recording a size or
writing into the body of one slot changes no size and no byte of another.

Addresses are counted from `stream->buffer`.
-/

namespace XrceDds

open ByteMemory

/-- `INTERNAL_RELIABLE_BUFFER_OFFSET`: the size of `length_t`. -/
def internalReliableBufferOffset : ℕ := 4

/-- `uxrReliableStream`.  A stream has at least one slot, and a slot has room for its
`length_t` and is not longer than a `length_t` can record. -/
structure ReliableStream where
  buffer : Memory
  size : ℕ
  history : ℕ
  history_pos : 0 < history
  history_lt : history < 65536
  slot_ge : internalReliableBufferOffset ≤ size / history
  slot_lt : size / history < 4294967296

/-- `uxr_get_reliable_buffer`: the address of the body of the slot of a sequence number. -/
def uxrGetReliableBuffer (stream : ReliableStream) (seqNum : ℕ) : ℕ :=
  (seqNum % stream.history) * (stream.size / stream.history) + internalReliableBufferOffset

/-- `uxr_get_reliable_buffer_capacity`. -/
def uxrGetReliableBufferCapacity (stream : ReliableStream) : ℕ :=
  stream.size / stream.history - internalReliableBufferOffset

/-- `uxr_get_reliable_buffer_history_position`: the slot an address lies in. -/
def uxrGetReliableBufferHistoryPosition (stream : ReliableStream) (currentPosition : ℕ) : ℕ :=
  currentPosition / (stream.size / stream.history) % 65536

/-- `uxr_get_reliable_buffer_size`. -/
def uxrGetReliableBufferSize (stream : ReliableStream) (seqNum : ℕ) : ℕ :=
  decodeLE (read stream.buffer
    (uxrGetReliableBuffer stream (seqNum % stream.history) - internalReliableBufferOffset)
    internalReliableBufferOffset)

/-- `uxr_set_reliable_buffer_size`. -/
def uxrSetReliableBufferSize (stream : ReliableStream) (seqNum length : ℕ) : ReliableStream :=
  { stream with
    buffer := write stream.buffer
      (uxrGetReliableBuffer stream (seqNum % stream.history) - internalReliableBufferOffset)
      (encodeLE internalReliableBufferOffset length) }

/-- Copy bytes to an address of the stream's buffer. -/
def ReliableStream.store (stream : ReliableStream) (address : ℕ) (bytes : List UInt8) :
    ReliableStream :=
  { stream with buffer := write stream.buffer address bytes }

/-- The `n` bytes at the offset `o` of the body of the slot of a sequence number. -/
def slotBytes (stream : ReliableStream) (seqNum o n : ℕ) : List UInt8 :=
  read stream.buffer (uxrGetReliableBuffer stream seqNum + o) n

/-! ## Geometry -/

section Geometry

variable (stream : ReliableStream) (i j len address : ℕ) (bytes : List UInt8)

@[simp] lemma uxrSetReliableBufferSize_size :
    (uxrSetReliableBufferSize stream i len).size = stream.size := rfl

@[simp] lemma uxrSetReliableBufferSize_history :
    (uxrSetReliableBufferSize stream i len).history = stream.history := rfl

@[simp] lemma store_size : (stream.store address bytes).size = stream.size := rfl

@[simp] lemma store_history : (stream.store address bytes).history = stream.history := rfl

@[simp] lemma store_buffer :
    (stream.store address bytes).buffer = write stream.buffer address bytes := rfl

@[simp] lemma uxrGetReliableBuffer_setSize :
    uxrGetReliableBuffer (uxrSetReliableBufferSize stream i len) j =
      uxrGetReliableBuffer stream j := rfl

@[simp] lemma uxrGetReliableBuffer_store :
    uxrGetReliableBuffer (stream.store address bytes) j = uxrGetReliableBuffer stream j := rfl

@[simp] lemma uxrGetReliableBufferCapacity_setSize :
    uxrGetReliableBufferCapacity (uxrSetReliableBufferSize stream i len) =
      uxrGetReliableBufferCapacity stream := rfl

@[simp] lemma uxrGetReliableBufferCapacity_store :
    uxrGetReliableBufferCapacity (stream.store address bytes) =
      uxrGetReliableBufferCapacity stream := rfl

/-- A slot is its `length_t` and its capacity. -/
lemma slot_eq_capacity_add :
    stream.size / stream.history =
      uxrGetReliableBufferCapacity stream + internalReliableBufferOffset :=
  (Nat.sub_add_cancel stream.slot_ge).symm

/-- A capacity is a value of `length_t`. -/
lemma capacity_lt : uxrGetReliableBufferCapacity stream < 4294967296 :=
  lt_of_le_of_lt (Nat.sub_le _ _) stream.slot_lt

/-- The body of a slot depends on the slot only. -/
lemma uxrGetReliableBuffer_mod :
    uxrGetReliableBuffer stream (i % stream.history) = uxrGetReliableBuffer stream i := by
  simp [uxrGetReliableBuffer]

/-- The address of a body, counted in slots. -/
lemma uxrGetReliableBuffer_eq :
    uxrGetReliableBuffer stream i =
      (i % stream.history) * (uxrGetReliableBufferCapacity stream + 4) + 4 := by
  unfold uxrGetReliableBuffer
  rw [slot_eq_capacity_add]
  rfl

variable {stream i j}

/-- Two sequence numbers of one slot share its body. -/
lemma uxrGetReliableBuffer_congr (h : i % stream.history = j % stream.history) :
    uxrGetReliableBuffer stream i = uxrGetReliableBuffer stream j := by
  simp [uxrGetReliableBuffer, h]

/-- Different slots do not overlap. -/
lemma slots_disjoint (h : i % stream.history ≠ j % stream.history) :
    uxrGetReliableBuffer stream i + uxrGetReliableBufferCapacity stream + 4 ≤
        uxrGetReliableBuffer stream j ∨
      uxrGetReliableBuffer stream j + uxrGetReliableBufferCapacity stream + 4 ≤
        uxrGetReliableBuffer stream i := by
  rw [uxrGetReliableBuffer_eq, uxrGetReliableBuffer_eq]
  rcases Nat.lt_or_gt_of_ne h with h | h
  · have := Nat.mul_le_mul_right (uxrGetReliableBufferCapacity stream + 4) (Nat.succ_le_of_lt h)
    rw [Nat.succ_mul] at this
    omega
  · have := Nat.mul_le_mul_right (uxrGetReliableBufferCapacity stream + 4) (Nat.succ_le_of_lt h)
    rw [Nat.succ_mul] at this
    omega

/-- The size recorded for a slot lies right before its body. -/
lemma uxrGetReliableBufferSize_eq :
    uxrGetReliableBufferSize stream i =
      decodeLE (read stream.buffer (uxrGetReliableBuffer stream i - 4) 4) := by
  unfold uxrGetReliableBufferSize
  rw [uxrGetReliableBuffer_mod]
  rfl

/-- The body of a slot lies behind its `length_t`. -/
lemma four_le_uxrGetReliableBuffer (stream : ReliableStream) (i : ℕ) :
    4 ≤ uxrGetReliableBuffer stream i := by
  rw [uxrGetReliableBuffer_eq]
  exact Nat.le_add_left _ _

/-- The size recorded for a slot is a `length_t`. -/
lemma uxrGetReliableBufferSize_lt (stream : ReliableStream) (i : ℕ) :
    uxrGetReliableBufferSize stream i < 4294967296 := by
  rw [uxrGetReliableBufferSize_eq]
  exact (decodeLE_lt _).trans_eq (by rw [length_read]; rfl)

/-- Two sequence numbers of one slot share its size. -/
lemma uxrGetReliableBufferSize_congr (h : i % stream.history = j % stream.history) :
    uxrGetReliableBufferSize stream i = uxrGetReliableBufferSize stream j := by
  simp [uxrGetReliableBufferSize, h]

/-- An address in the body of a slot lies in that slot. -/
lemma historyPosition_of_mem {a : ℕ} (hlo : uxrGetReliableBuffer stream i ≤ a)
    (hhi : a < uxrGetReliableBuffer stream i + uxrGetReliableBufferCapacity stream) :
    uxrGetReliableBufferHistoryPosition stream a = i % stream.history := by
  have hslot := slot_eq_capacity_add stream
  rw [show internalReliableBufferOffset = 4 from rfl] at hslot
  have hi : i % stream.history < stream.history := Nat.mod_lt _ stream.history_pos
  have hlt := stream.history_lt
  unfold uxrGetReliableBufferHistoryPosition
  rw [uxrGetReliableBuffer_eq] at hlo hhi
  have hdiv : a / (stream.size / stream.history) = i % stream.history := by
    rw [hslot]
    apply Nat.div_eq_of_lt_le
    · omega
    · rw [Nat.succ_mul]
      omega
  rw [hdiv]
  omega

end Geometry

/-! ## Recording a size -/

section SetSize

variable (stream : ReliableStream) {i j len : ℕ}

/-- The recorded size is read back. -/
@[simp] theorem uxrGetReliableBufferSize_setSize_same (hlen : len < 4294967296) :
    uxrGetReliableBufferSize (uxrSetReliableBufferSize stream i len) i = len := by
  have hread : uxrGetReliableBufferSize (uxrSetReliableBufferSize stream i len) i =
      decodeLE (encodeLE internalReliableBufferOffset len) :=
    congrArg decodeLE (read_write_of_length _ _ (length_encodeLE _ _))
  rw [hread]
  exact decodeLE_encodeLE_of_lt hlen

/-- Recording the size of one slot keeps the size of another. -/
theorem uxrGetReliableBufferSize_setSize_of_ne
    (h : i % stream.history ≠ j % stream.history) :
    uxrGetReliableBufferSize (uxrSetReliableBufferSize stream i len) j =
      uxrGetReliableBufferSize stream j := by
  have hd := slots_disjoint h
  have hi := four_le_uxrGetReliableBuffer stream i
  have hj := four_le_uxrGetReliableBuffer stream j
  rw [uxrGetReliableBufferSize_eq, uxrGetReliableBufferSize_eq, uxrGetReliableBuffer_setSize]
  congr 1
  apply read_write_of_disjoint
  rw [uxrGetReliableBuffer_mod, length_encodeLE]
  simp only [internalReliableBufferOffset]
  omega

/-- The size of every slot after one size was recorded. -/
theorem uxrGetReliableBufferSize_setSize (hlen : len < 4294967296) :
    uxrGetReliableBufferSize (uxrSetReliableBufferSize stream i len) j =
      if i % stream.history = j % stream.history then len
      else uxrGetReliableBufferSize stream j := by
  split
  · next h =>
    have hsame : uxrGetReliableBufferSize (uxrSetReliableBufferSize stream i len) i =
        uxrGetReliableBufferSize (uxrSetReliableBufferSize stream i len) j :=
      uxrGetReliableBufferSize_congr h
    rw [← hsame]
    exact uxrGetReliableBufferSize_setSize_same stream hlen
  · next h => exact uxrGetReliableBufferSize_setSize_of_ne stream h

/-- Recording a size keeps the body of every slot. -/
theorem slotBytes_setSize {o n : ℕ} (hn : o + n ≤ uxrGetReliableBufferCapacity stream) :
    slotBytes (uxrSetReliableBufferSize stream i len) j o n = slotBytes stream j o n := by
  have hi := four_le_uxrGetReliableBuffer stream i
  apply read_write_of_disjoint
  rw [uxrGetReliableBuffer_mod, length_encodeLE, uxrGetReliableBuffer_setSize]
  simp only [internalReliableBufferOffset]
  by_cases h : i % stream.history = j % stream.history
  · rw [uxrGetReliableBuffer_congr h] at hi ⊢
    omega
  · have hd := slots_disjoint h
    omega

end SetSize

/-! ## Writing into a body -/

section Store

variable (stream : ReliableStream) {i j address : ℕ} {bytes : List UInt8}
  (hlo : uxrGetReliableBuffer stream i ≤ address)
  (hhi : address + bytes.length ≤
    uxrGetReliableBuffer stream i + uxrGetReliableBufferCapacity stream)
include hlo hhi

/-- Writing into a body keeps the size of every slot. -/
theorem uxrGetReliableBufferSize_store :
    uxrGetReliableBufferSize (stream.store address bytes) j =
      uxrGetReliableBufferSize stream j := by
  have hj := four_le_uxrGetReliableBuffer stream j
  rw [uxrGetReliableBufferSize_eq, uxrGetReliableBufferSize_eq, uxrGetReliableBuffer_store]
  congr 1
  apply read_write_of_disjoint
  by_cases h : i % stream.history = j % stream.history
  · rw [uxrGetReliableBuffer_congr h] at hlo hhi
    omega
  · have hd := slots_disjoint h
    omega

/-- Writing into the body of one slot keeps the body of another. -/
theorem slotBytes_store_of_ne (h : i % stream.history ≠ j % stream.history) {o n : ℕ}
    (hn : o + n ≤ uxrGetReliableBufferCapacity stream) :
    slotBytes (stream.store address bytes) j o n = slotBytes stream j o n := by
  have hd := slots_disjoint h
  apply read_write_of_disjoint
  rw [uxrGetReliableBuffer_store]
  omega

end Store

/-- Writing into a body keeps the bytes of that body before and behind. -/
theorem slotBytes_store_of_disjoint (stream : ReliableStream) {i o n p : ℕ} {bytes : List UInt8}
    (h : o + n ≤ p ∨ p + bytes.length ≤ o) :
    slotBytes (stream.store (uxrGetReliableBuffer stream i + p) bytes) i o n =
      slotBytes stream i o n := by
  apply read_write_of_disjoint
  rw [uxrGetReliableBuffer_store]
  omega

/-- Bytes written into a body are read back. -/
@[simp] theorem slotBytes_store_same (stream : ReliableStream) {i p n : ℕ} {bytes : List UInt8}
    (h : bytes.length = n) :
    slotBytes (stream.store (uxrGetReliableBuffer stream i + p) bytes) i p n = bytes :=
  read_write_of_length _ _ h

/-- Reading a body in two pieces. -/
lemma slotBytes_add (stream : ReliableStream) (i o n k : ℕ) :
    slotBytes stream i o (n + k) = slotBytes stream i o n ++ slotBytes stream i (o + n) k := by
  unfold slotBytes
  rw [read_add, Nat.add_assoc]

/-- Two sequence numbers of one slot share its bytes. -/
lemma slotBytes_congr {stream : ReliableStream} {i j : ℕ}
    (h : i % stream.history = j % stream.history) (o n : ℕ) :
    slotBytes stream i o n = slotBytes stream j o n := by
  unfold slotBytes
  rw [uxrGetReliableBuffer_congr h]

@[simp] lemma length_slotBytes (stream : ReliableStream) (i o n : ℕ) :
    (slotBytes stream i o n).length = n := length_read _ _ _

end XrceDds
