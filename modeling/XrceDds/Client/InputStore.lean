import XrceDds.Client.InputFragments

/-!
# Where a received message is stored

`uxr_receive_reliable_message` copies a message into the slot of its number, with the length
that it has on the wire.  As long as that is no more than the capacity of a slot, the call
touches this slot and no byte beyond it (`receive_inOwnSlot_iff`).  Nothing checks it: a
longer message is copied over what stands behind the slot, and recorded as received.
-/

namespace XrceDds

open ByteMemory

/-- A message is stored: it is one of the window, is not handed over where it was received, and
was not received before. -/
def StoresMessage (stream : InputReliableStream) (seqNum : UxrSeqNum) (buffer : List UInt8) :
    Prop :=
  (0 > uxrSeqNumCmp stream.lastHandled seqNum ∧
    0 ≤ uxrSeqNumCmp (uxrSeqNumAdd stream.lastHandled stream.base.history) seqNum) ∧
  ¬ (onGetFragmentationInfo buffer = .noFragmented ∧
    seqNum = uxrSeqNumAdd stream.lastHandled 1) ∧
  0 = uxrGetReliableBufferSize stream.base seqNum

instance (stream : InputReliableStream) (seqNum : UxrSeqNum) (buffer : List UInt8) :
    Decidable (StoresMessage stream seqNum buffer) := by
  unfold StoresMessage; infer_instance

/-- The slots once a message has been copied and its size recorded, before the stream looks for
the last FRAGMENT. -/
def receivedBase (stream : InputReliableStream) (seqNum : UxrSeqNum) (buffer : List UInt8) :
    ReliableStream :=
  if StoresMessage stream seqNum buffer then FragmentWindow.storedBase stream.base seqNum buffer
  else stream.base

/-- The call leaves the slots like that, and says whether it stored the message. -/
lemma uxrReceiveReliableMessage_base {stream : InputReliableStream} {seqNum : UxrSeqNum}
    {buffer : List UInt8} {r : ReceiveResult}
    (hr : uxrReceiveReliableMessage stream seqNum buffer = some r) :
    r.stream.base = receivedBase stream seqNum buffer ∧
      r.messageStored = decide (StoresMessage stream seqNum buffer) := by
  unfold uxrReceiveReliableMessage at hr
  unfold receivedBase
  dsimp only at hr
  split at hr
  · next hin =>
    split at hr
    · next hplain =>
      have hnot : ¬ StoresMessage stream seqNum buffer := fun h => h.2.1 hplain
      rw [if_neg hnot, decide_eq_false hnot, ← Option.some.inj hr]
      exact ⟨FragmentWindow.announce_base _ _, rfl⟩
    · next hplain =>
      split at hr
      · next hempty =>
        have hstores : StoresMessage stream seqNum buffer := ⟨hin, hplain, hempty⟩
        rw [if_pos hstores, decide_eq_true hstores]
        split at hr
        · obtain ⟨last, -, hlast⟩ := Option.map_eq_some_iff.mp hr
          rw [← hlast]
          exact ⟨FragmentWindow.announce_base _ _, rfl⟩
        · rw [← Option.some.inj hr]
          exact ⟨FragmentWindow.announce_base _ _, rfl⟩
      · next hused =>
        have hnot : ¬ StoresMessage stream seqNum buffer := fun h => hused h.2.2
        rw [if_neg hnot, decide_eq_false hnot, ← Option.some.inj hr]
        exact ⟨FragmentWindow.announce_base _ _, rfl⟩
  · next hout =>
    have hnot : ¬ StoresMessage stream seqNum buffer := fun h => hout h.1
    rw [if_neg hnot, decide_eq_false hnot, ← Option.some.inj hr]
    exact ⟨FragmentWindow.announce_base _ _, rfl⟩

/-- The slots `base'` differ from `base` in the slot of `seqNum` only, nothing was written past
the end of the buffer, and a message of `length` bytes that fits no slot is not recorded. -/
structure InOwnSlot (base base' : ReliableStream) (seqNum : UxrSeqNum) (length : ℕ)
    (messageStored : Bool) : Prop where
  others : OnlySlots base base' (· = seqNum.val % base.history)
  inside : ∀ address, base.size ≤ address → base'.buffer address = base.buffer address
  not_recorded : uxrGetReliableBufferCapacity base < length →
    messageStored = false ∧
      uxrGetReliableBufferSize base' seqNum = uxrGetReliableBufferSize base seqNum

/-- A slot ends inside the buffer. -/
lemma slot_le_size (base : ReliableStream) (i : ℕ) :
    uxrGetReliableBuffer base i + uxrGetReliableBufferCapacity base ≤ base.size := by
  have hslot := Nat.mod_lt i base.history_pos
  calc uxrGetReliableBuffer base i + uxrGetReliableBufferCapacity base
      = (i % base.history + 1) * (base.size / base.history) := by
        rw [uxrGetReliableBuffer_eq, slot_eq_capacity_add, Nat.succ_mul,
          show internalReliableBufferOffset = 4 from rfl]
        omega
    _ ≤ base.history * (base.size / base.history) := Nat.mul_le_mul_right _ hslot
    _ ≤ base.size := Nat.mul_div_le _ _

/-- A message that fits is written inside the buffer. -/
lemma storedBase_inside (base : ReliableStream) (seqNum : UxrSeqNum) {body : List UInt8}
    (hle : body.length ≤ uxrGetReliableBufferCapacity base) {address : ℕ}
    (haddress : base.size ≤ address) :
    (FragmentWindow.storedBase base seqNum body).buffer address = base.buffer address := by
  have hend := slot_le_size base seqNum
  have hfour := four_le_uxrGetReliableBuffer base seqNum
  unfold FragmentWindow.storedBase uxrSetReliableBufferSize
  dsimp only
  rw [uxrGetReliableBuffer_store, store_history, uxrGetReliableBuffer_mod,
    write_apply_of_le _ (by rw [length_encodeLE]; change _ - 4 + 4 ≤ _; omega), store_buffer,
    write_apply_of_le _ (by omega)]

/-- Whatever the state of the stream, the message and its number: storing touches the slot of
that number only, stays inside the buffer and records no message that fits no slot, exactly
when no message is stored that is longer than a slot. -/
theorem receive_inOwnSlot_iff (stream : InputReliableStream) (seqNum : UxrSeqNum)
    (buffer : List UInt8) :
    (∀ r, uxrReceiveReliableMessage stream seqNum buffer = some r →
      r.stream.base = receivedBase stream seqNum buffer ∧
        r.messageStored = decide (StoresMessage stream seqNum buffer)) ∧
    (InOwnSlot stream.base (receivedBase stream seqNum buffer) seqNum buffer.length
        (decide (StoresMessage stream seqNum buffer)) ↔
      (StoresMessage stream seqNum buffer →
        buffer.length ≤ uxrGetReliableBufferCapacity stream.base)) := by
  refine ⟨fun r hr => uxrReceiveReliableMessage_base hr, fun h hstores => ?_, fun hfits => ?_⟩
  · by_contra hlong
    have hrecorded := (h.not_recorded (Nat.lt_of_not_le hlong)).1
    rw [decide_eq_true hstores] at hrecorded
    cases hrecorded
  · unfold receivedBase
    by_cases hstores : StoresMessage stream seqNum buffer
    · have hle := hfits hstores
      rw [if_pos hstores]
      exact ⟨FragmentWindow.storedBase_frame stream.base seqNum hle,
        fun address => storedBase_inside stream.base seqNum hle,
        fun hlong => absurd hle (Nat.not_le_of_lt hlong)⟩
    · rw [if_neg hstores, decide_eq_false hstores]
      exact ⟨OnlySlots.refl _ _, fun _ _ => rfl, fun _ => ⟨rfl, rfl⟩⟩

/-- A message of seventeen bytes that comes first, with the second number, does not fit a slot of
sixteen.  It is recorded with seventeen bytes, and its last byte is written over the size of the
slot behind. -/
theorem receive_inOwnSlot_fails :
    ¬ ∀ seqNum buffer r, uxrReceiveReliableMessage
        (uxrInitInputReliableStream (twoSlots 16 (by decide))) seqNum buffer = some r →
      InOwnSlot (uxrInitInputReliableStream (twoSlots 16 (by decide))).base r.stream.base seqNum
        buffer.length r.messageStored := by
  intro h
  have hown := h 1 (List.replicate 17 0) _ (Option.eq_some_of_isSome (by decide))
  have hstored := (hown.not_recorded (by decide)).1
  revert hstored
  decide

end XrceDds
