import XrceDds.Client.SlotFrame

/-!
# Operations on some of the slots

`OnlySlots base base' P` says that an operation changed the sizes and the bytes of the
slots in `P` only.  The file proves this of the loop that lays out the blocks of a
fragmented write and of the loop that cleans acknowledged slots, and says which sizes the
two loops leave behind.
-/

namespace XrceDds

open ByteMemory

/-- The slot of the position `X` in a buffer of `history` slots. -/
def slotOf (history X : ℕ) : ℕ := (seqOf X).val % history

/-- `base'` has the slots of `base`, and differs from it in the slots of `P` only. -/
structure OnlySlots (base base' : ReliableStream) (P : ℕ → Prop) : Prop where
  size_eq : base'.size = base.size
  history_eq : base'.history = base.history
  bufferSize_eq : ∀ j, ¬ P (j % base.history) →
    uxrGetReliableBufferSize base' j = uxrGetReliableBufferSize base j
  slotBytes_eq : ∀ j, ¬ P (j % base.history) → ∀ p n, p + n ≤ uxrGetReliableBufferCapacity base →
    slotBytes base' j p n = slotBytes base j p n

namespace OnlySlots

variable {base base₁ base₂ : ReliableStream} {P Q : ℕ → Prop}

/-- Doing nothing changes no slot. -/
lemma refl (base : ReliableStream) (P : ℕ → Prop) : OnlySlots base base P :=
  ⟨rfl, rfl, fun _ _ => rfl, fun _ _ _ _ _ => rfl⟩

/-- The bodies stay where they are. -/
lemma buffer_eq (h : OnlySlots base base₁ P) (j : ℕ) :
    uxrGetReliableBuffer base₁ j = uxrGetReliableBuffer base j := by
  unfold uxrGetReliableBuffer
  rw [h.size_eq, h.history_eq]

/-- The capacity stays what it is. -/
lemma capacity_eq (h : OnlySlots base base₁ P) :
    uxrGetReliableBufferCapacity base₁ = uxrGetReliableBufferCapacity base := by
  unfold uxrGetReliableBufferCapacity
  rw [h.size_eq, h.history_eq]

/-- One operation after another. -/
lemma trans (h₁ : OnlySlots base base₁ P) (h₂ : OnlySlots base₁ base₂ P) :
    OnlySlots base base₂ P where
  size_eq := h₂.size_eq.trans h₁.size_eq
  history_eq := h₂.history_eq.trans h₁.history_eq
  bufferSize_eq j hj := by
    rw [h₂.bufferSize_eq j (by rwa [h₁.history_eq]), h₁.bufferSize_eq j hj]
  slotBytes_eq j hj p n hn := by
    rw [h₂.slotBytes_eq j (by rwa [h₁.history_eq]) p n (by rwa [h₁.capacity_eq]),
      h₁.slotBytes_eq j hj p n hn]

/-- More slots may be named than change. -/
lemma mono (h : OnlySlots base base₁ P) (hPQ : ∀ i, P i → Q i) : OnlySlots base base₁ Q where
  size_eq := h.size_eq
  history_eq := h.history_eq
  bufferSize_eq j hj := h.bufferSize_eq j fun hp => hj (hPQ (j % base.history) hp)
  slotBytes_eq j hj := h.slotBytes_eq j fun hp => hj (hPQ (j % base.history) hp)

/-- Writing into the body of a slot changes that slot only. -/
lemma of_slotFrame {i o : ℕ} (h : SlotFrame base base₁ i o) :
    OnlySlots base base₁ (· = i % base.history) where
  size_eq := h.size_eq
  history_eq := h.history_eq
  bufferSize_eq j _ := h.bufferSize_eq j
  slotBytes_eq _ hj _ _ hn := h.slotBytes_of_ne (fun hij => hj hij.symm) hn

/-- Recording a size changes that slot only. -/
lemma setSize (base : ReliableStream) (i len : ℕ) :
    OnlySlots base (uxrSetReliableBufferSize base i len) (· = i % base.history) where
  size_eq := rfl
  history_eq := rfl
  bufferSize_eq _ hj := uxrGetReliableBufferSize_setSize_of_ne base fun hij => hj hij.symm
  slotBytes_eq _ _ _ _ hn := slotBytes_setSize base hn

end OnlySlots

/-- The first `n` of the positions from `F` on lie in different slots. -/
def SlotsDistinctFrom (history F n : ℕ) : Prop :=
  ∀ j < n, ∀ k < n, slotOf history (F + j) = slotOf history (F + k) → j = k

/-- Leaving out the first position. -/
lemma SlotsDistinctFrom.tail {history F n : ℕ} (h : SlotsDistinctFrom history F (n + 1)) :
    SlotsDistinctFrom history (F + 1) n := by
  intro j hj k hk hjk
  have := h (j + 1) (by omega) (k + 1) (by omega)
    (by rwa [Nat.add_comm j, Nat.add_comm k, ← Nat.add_assoc, ← Nat.add_assoc])
  omega

/-! ## One block -/

section Block

variable (base : ReliableStream) (F fragmentSize len : ℕ) (flags : UInt8)
  (hsize : uxrGetReliableBufferSize base (seqOf F) ≤ uxrGetReliableBufferCapacity base)
include hsize

/-- Opening a fragment and recording the size of its slot changes that slot only. -/
lemma openFragment_setSize_onlySlots :
    OnlySlots base
      (uxrSetReliableBufferSize (openFragment base (seqOf F) fragmentSize flags) (seqOf F) len)
      (· = slotOf base.history F) := by
  have hframe := openFragment_frame base (seqOf F) fragmentSize flags hsize
  have hset := OnlySlots.setSize (openFragment base (seqOf F) fragmentSize flags) (seqOf F) len
  rw [hframe.history_eq] at hset
  exact (OnlySlots.of_slotFrame hframe).trans hset

/-- Opening a fragment keeps what the slot held before. -/
lemma openFragment_setSize_slotBytes {p n : ℕ}
    (hn : p + n ≤ uxrGetReliableBufferSize base (seqOf F)) :
    slotBytes (uxrSetReliableBufferSize (openFragment base (seqOf F) fragmentSize flags)
      (seqOf F) len) (seqOf F) p n = slotBytes base (seqOf F) p n := by
  have hframe := openFragment_frame base (seqOf F) fragmentSize flags hsize
  rw [slotBytes_setSize _ (by rw [hframe.capacity_eq]; omega), hframe.slotBytes_of_le hn]

/-- Opening a fragment writes its header behind what the slot held before. -/
lemma openFragment_setSize_header
    (halign : uxrGetReliableBufferSize base (seqOf F) % 4 = 0)
    (hroom : uxrGetReliableBufferSize base (seqOf F) + 4 ≤ uxrGetReliableBufferCapacity base) :
    slotBytes (uxrSetReliableBufferSize (openFragment base (seqOf F) fragmentSize flags)
      (seqOf F) len) (seqOf F) (uxrGetReliableBufferSize base (seqOf F)) 4 =
      submessageHeader submessageIdFragment (flags ||| 1) fragmentSize := by
  have hframe := openFragment_frame base (seqOf F) fragmentSize flags hsize
  rw [slotBytes_setSize _ (by rw [hframe.capacity_eq]; exact hroom),
    openFragment_eq base (seqOf F) fragmentSize flags halign hroom]
  exact slotBytes_store_same base rfl

/-- A complete block changes its slot only. -/
lemma completeBlock_onlySlots :
    OnlySlots base (completeBlock base (seqOf F) fragmentSize) (· = slotOf base.history F) :=
  openFragment_setSize_onlySlots base F fragmentSize _ 0 hsize

/-- A complete block takes its whole slot. -/
lemma completeBlock_bufferSize :
    uxrGetReliableBufferSize (completeBlock base (seqOf F) fragmentSize) (seqOf F) =
      uxrGetReliableBufferCapacity base := by
  have hcap := (openFragment_frame base (seqOf F) fragmentSize 0 hsize).capacity_eq
  simp only [completeBlock, hcap]
  exact uxrGetReliableBufferSize_setSize_same _ (capacity_lt base)

end Block

/-! ## The complete blocks -/

/-- The slots of the `n` positions from `F` on. -/
def BlockSlots (history F n : ℕ) (i : ℕ) : Prop := ∃ k < n, i = slotOf history (F + k)

/-- The slots of fragments that are about to be written: they are different, and none
holds more than a slot can. -/
structure BlocksReady (base : ReliableStream) (F n : ℕ) : Prop where
  distinct : SlotsDistinctFrom base.history F n
  size_le : ∀ k < n, uxrGetReliableBufferSize base (seqOf (F + k)) ≤
    uxrGetReliableBufferCapacity base

section Blocks

variable {base : ReliableStream} {F n blockSize fragmentSize : ℕ}

/-- The slot of the first fragment is not among those of the others. -/
lemma BlocksReady.not_blockSlots (h : BlocksReady base F (n + 1)) :
    ¬ BlockSlots base.history (F + 1) n (slotOf base.history F) := by
  rintro ⟨k, hk, heq⟩
  have := h.distinct 0 (by omega) (k + 1) (by omega)
    (by rwa [Nat.add_zero, Nat.add_comm k, ← Nat.add_assoc])
  omega

/-- The first complete block leaves the others ready. -/
lemma BlocksReady.completeBlock (h : BlocksReady base F (n + 1)) (fragmentSize : ℕ) :
    BlocksReady (completeBlock base (seqOf F) fragmentSize) (F + 1) n := by
  have hone := completeBlock_onlySlots base F fragmentSize (h.size_le 0 (by omega))
  refine ⟨by rw [hone.history_eq]; exact h.distinct.tail, fun k hk => ?_⟩
  rw [hone.capacity_eq, hone.bufferSize_eq]
  · rw [Nat.add_assoc, Nat.add_comm 1]
    exact h.size_le (k + 1) (by omega)
  · exact fun heq => h.not_blockSlots ⟨k, hk, heq.symm⟩

/-- The loop over the complete blocks walks one sequence number a block. -/
lemma writeCompleteBlocks_seqNum (n : ℕ) (base : ReliableStream) (F fragmentSize : ℕ) :
    (writeCompleteBlocks blockSize n base (seqOf F) fragmentSize).2 = seqOf (F + n) := by
  induction n generalizing base F fragmentSize with
  | zero => rfl
  | succ n ih =>
    rw [writeCompleteBlocks, uxrSeqNumAdd_seqOf, ih, Nat.add_assoc, Nat.add_comm 1]

/-- The complete blocks change their own slots only. -/
theorem writeCompleteBlocks_onlySlots (h : BlocksReady base F n) :
    OnlySlots base (writeCompleteBlocks blockSize n base (seqOf F) fragmentSize).1
      (BlockSlots base.history F n) := by
  induction n generalizing base F fragmentSize with
  | zero => exact .refl _ _
  | succ n ih =>
    rw [writeCompleteBlocks, uxrSeqNumAdd_seqOf]
    have hone := completeBlock_onlySlots base F fragmentSize (h.size_le 0 (by omega))
    have hrest := @ih _ _ blockSize (h.completeBlock fragmentSize)
    refine (hone.mono ?_).trans (hrest.mono ?_)
    · rintro i rfl
      exact ⟨0, by omega, rfl⟩
    · rintro i ⟨k, hk, rfl⟩
      exact ⟨k + 1, by omega, by rw [hone.history_eq, Nat.add_assoc, Nat.add_comm 1]⟩

/-- Every complete block takes its whole slot. -/
theorem writeCompleteBlocks_bufferSize (h : BlocksReady base F n) {k : ℕ} (hk : k < n) :
    uxrGetReliableBufferSize (writeCompleteBlocks blockSize n base (seqOf F) fragmentSize).1
      (seqOf (F + k)) = uxrGetReliableBufferCapacity base := by
  induction n generalizing base F fragmentSize k with
  | zero => omega
  | succ n ih =>
    rw [writeCompleteBlocks, uxrSeqNumAdd_seqOf]
    have hone := completeBlock_onlySlots base F fragmentSize (h.size_le 0 (by omega))
    have hready := h.completeBlock fragmentSize
    cases k with
    | zero =>
      rw [(writeCompleteBlocks_onlySlots hready).bufferSize_eq]
      · exact completeBlock_bufferSize base F fragmentSize (h.size_le 0 (by omega))
      · rw [hone.history_eq]
        exact h.not_blockSlots
    | succ k =>
      rw [Nat.add_comm k, ← Nat.add_assoc, ih hready (by omega), hone.capacity_eq]

/-- The complete blocks keep what their slots held before. -/
theorem writeCompleteBlocks_slotBytes (h : BlocksReady base F n) {k p m : ℕ} (hk : k < n)
    (hm : p + m ≤ uxrGetReliableBufferSize base (seqOf (F + k))) :
    slotBytes (writeCompleteBlocks blockSize n base (seqOf F) fragmentSize).1 (seqOf (F + k)) p m =
      slotBytes base (seqOf (F + k)) p m := by
  have hle := hm.trans (h.size_le k hk)
  induction n generalizing base F fragmentSize k with
  | zero => omega
  | succ n ih =>
    rw [writeCompleteBlocks, uxrSeqNumAdd_seqOf]
    have hone := completeBlock_onlySlots base F fragmentSize (h.size_le 0 (by omega))
    have hready := h.completeBlock fragmentSize
    cases k with
    | zero =>
      rw [(writeCompleteBlocks_onlySlots hready).slotBytes_eq]
      · exact openFragment_setSize_slotBytes base F fragmentSize _ 0 (h.size_le 0 (by omega)) hm
      · rw [hone.history_eq]
        exact h.not_blockSlots
      · rwa [hone.capacity_eq]
    | succ k =>
      have hne : ¬ (seqOf (F + 1 + k)).val % base.history = slotOf base.history F :=
        fun heq => h.not_blockSlots ⟨k, by omega, heq.symm⟩
      rw [Nat.add_comm k, ← Nat.add_assoc] at hm ⊢
      rw [ih hready (by omega) (by rwa [hone.bufferSize_eq _ hne]) (by rwa [hone.capacity_eq]),
        hone.slotBytes_eq _ hne _ _ hle]

/-- Every complete block starts with a header, and all but the first announce the block
size. -/
theorem writeCompleteBlocks_header (h : BlocksReady base F n)
    (halign : ∀ k < n, uxrGetReliableBufferSize base (seqOf (F + k)) % 4 = 0)
    (hroom : ∀ k < n, uxrGetReliableBufferSize base (seqOf (F + k)) + 4 ≤
      uxrGetReliableBufferCapacity base) {k : ℕ} (hk : k < n) :
    slotBytes (writeCompleteBlocks blockSize n base (seqOf F) fragmentSize).1 (seqOf (F + k))
        (uxrGetReliableBufferSize base (seqOf (F + k))) 4 =
      submessageHeader submessageIdFragment 1 (if k = 0 then fragmentSize else blockSize) := by
  induction n generalizing base F fragmentSize k with
  | zero => omega
  | succ n ih =>
    rw [writeCompleteBlocks, uxrSeqNumAdd_seqOf]
    have hone := completeBlock_onlySlots base F fragmentSize (h.size_le 0 (by omega))
    have hready := h.completeBlock fragmentSize
    have hshift : ∀ k, F + (k + 1) = F + 1 + k := by omega
    have hne : ∀ k < n, ¬ (seqOf (F + 1 + k)).val % base.history = slotOf base.history F :=
      fun k hk heq => h.not_blockSlots ⟨k, hk, heq.symm⟩
    cases k with
    | zero =>
      rw [(writeCompleteBlocks_onlySlots hready).slotBytes_eq]
      · exact openFragment_setSize_header base F fragmentSize _ 0 (h.size_le 0 (by omega))
          (halign 0 (by omega)) (hroom 0 (by omega))
      · rw [hone.history_eq]
        exact h.not_blockSlots
      · rw [hone.capacity_eq]
        exact hroom 0 (by omega)
    | succ k =>
      have hrest := @ih _ _ blockSize hready
        (fun k hk => by
          rw [hone.bufferSize_eq _ (hne k hk), ← hshift k]
          exact halign (k + 1) (by omega))
        (fun k hk => by
          rw [hone.bufferSize_eq _ (hne k hk), hone.capacity_eq, ← hshift k]
          exact hroom (k + 1) (by omega))
        k (by omega)
      rw [hone.bufferSize_eq _ (hne k (by omega)), ite_self] at hrest
      rw [hshift k, hrest, if_neg (Nat.succ_ne_zero k)]

end Blocks

/-! ## The whole layout -/

section Layout

variable {stream : OutputReliableStream} {length F : ℕ}

/-- A fragmented write writes into slots and moves `lastWritten`. -/
lemma layFragments_eq (stream : OutputReliableStream) (length : ℕ) :
    ∃ base seqNum, layFragments stream length = stream.writtenTo base seqNum :=
  ⟨_, _, rfl⟩

/-- A fragmented write keeps the length of the session header. -/
@[simp] lemma layFragments_offset (stream : OutputReliableStream) (length : ℕ) :
    (layFragments stream length).offset = stream.offset := by
  obtain ⟨base, seqNum, h⟩ := layFragments_eq stream length
  rw [h]
  rfl

/-- A fragmented write acknowledges nothing. -/
@[simp] lemma layFragments_lastAcknown :
    (layFragments stream length).lastAcknown = stream.lastAcknown := by
  obtain ⟨base, seqNum, h⟩ := layFragments_eq stream length
  rw [h]
  rfl

/-- A fragmented write sends nothing. -/
@[simp] lemma layFragments_lastSent :
    (layFragments stream length).lastSent = stream.lastSent := by
  obtain ⟨base, seqNum, h⟩ := layFragments_eq stream length
  rw [h]
  rfl

/-- The slots of all fragments of a write are ready for them. -/
def FragmentsReady (stream : OutputReliableStream) (length F : ℕ) : Prop :=
  BlocksReady stream.base F (necessaryCompleteBlocks stream length + 1)

/-- The complete blocks are ready when all fragments are. -/
lemma FragmentsReady.blocks (h : FragmentsReady stream length F) :
    BlocksReady stream.base F (necessaryCompleteBlocks stream length) :=
  ⟨fun j hj k hk => h.distinct j (by omega) k (by omega), fun k hk => h.size_le k (by omega)⟩

/-- The complete blocks leave the slot of the last fragment alone. -/
lemma not_blockSlots_last (h : FragmentsReady stream length F) :
    ¬ BlockSlots stream.base.history F (necessaryCompleteBlocks stream length)
      (slotOf stream.base.history (F + necessaryCompleteBlocks stream length)) := by
  rintro ⟨k, hk, heq⟩
  have := h.distinct _ (Nat.lt_succ_self _) k (by omega) heq
  omega

variable (hF : firstFragmentSeqNum stream = seqOf F) (h : FragmentsReady stream length F)
include hF

/-- The last fragment is that many positions behind the first. -/
lemma layBlocks_seqNum :
    (layBlocks stream length).2 = seqOf (F + necessaryCompleteBlocks stream length) := by
  unfold layBlocks
  rw [hF, writeCompleteBlocks_seqNum]

/-- The write ends in the slot of the last fragment. -/
lemma layFragments_lastWritten (length : ℕ) :
    (layFragments stream length).lastWritten =
      seqOf (F + necessaryCompleteBlocks stream length) := by
  simp only [layFragments, OutputReliableStream.writtenTo, layBlocks_seqNum hF]

/-- The slots after a fragmented write. -/
lemma layFragments_base :
    (layFragments stream length).base =
      uxrSetReliableBufferSize
        (openFragment (layBlocks stream length).1
          (seqOf (F + necessaryCompleteBlocks stream length)) (lastFragmentSize stream length)
          flagLastFragment)
        (seqOf (F + necessaryCompleteBlocks stream length))
        (stream.offset + subheaderSize + lastFragmentSize stream length) := by
  simp only [layFragments, OutputReliableStream.writtenTo, layBlocks_seqNum hF]

/-- The slot of the last fragment holds a session header, a fragment header and the rest. -/
theorem layFragments_bufferSize_last (length : ℕ)
    (hlen : stream.offset + subheaderSize + lastFragmentSize stream length < 4294967296) :
    uxrGetReliableBufferSize (layFragments stream length).base
        (seqOf (F + necessaryCompleteBlocks stream length)) =
      stream.offset + subheaderSize + lastFragmentSize stream length := by
  rw [layFragments_base hF]
  exact uxrGetReliableBufferSize_setSize_same _ hlen

include h

/-- The complete blocks of a write change their own slots only. -/
lemma layBlocks_onlySlots :
    OnlySlots stream.base (layBlocks stream length).1
      (BlockSlots stream.base.history F (necessaryCompleteBlocks stream length)) := by
  unfold layBlocks
  rw [hF]
  exact writeCompleteBlocks_onlySlots h.blocks

/-- The slot of the last fragment is ready when the complete blocks are written. -/
lemma layBlocks_last_size_le :
    uxrGetReliableBufferSize (layBlocks stream length).1
        (seqOf (F + necessaryCompleteBlocks stream length)) ≤
      uxrGetReliableBufferCapacity (layBlocks stream length).1 := by
  have hblocks := layBlocks_onlySlots hF h
  rw [hblocks.bufferSize_eq _ (not_blockSlots_last h), hblocks.capacity_eq]
  exact h.size_le _ (Nat.lt_succ_self _)

/-- The last fragment changes its own slot only. -/
lemma layFragments_last_onlySlots :
    OnlySlots (layBlocks stream length).1 (layFragments stream length).base
      (· = slotOf stream.base.history (F + necessaryCompleteBlocks stream length)) := by
  have hlast := openFragment_setSize_onlySlots (layBlocks stream length).1 _
    (lastFragmentSize stream length)
    (stream.offset + subheaderSize + lastFragmentSize stream length) flagLastFragment
    (layBlocks_last_size_le hF h)
  rw [(layBlocks_onlySlots hF h).history_eq] at hlast
  rwa [layFragments_base hF]

/-- A fragmented write changes the slots of its fragments only. -/
theorem layFragments_onlySlots :
    OnlySlots stream.base (layFragments stream length).base
      (BlockSlots stream.base.history F (necessaryCompleteBlocks stream length + 1)) := by
  refine ((layBlocks_onlySlots hF h).mono ?_).trans ((layFragments_last_onlySlots hF h).mono ?_)
  · exact fun i ⟨k, hk, hi⟩ => ⟨k, Nat.lt_succ_of_lt hk, hi⟩
  · exact fun i hi => ⟨_, Nat.lt_succ_self _, hi⟩

/-- The slots of the complete blocks are full. -/
theorem layFragments_bufferSize_of_lt {k : ℕ} (hk : k < necessaryCompleteBlocks stream length) :
    uxrGetReliableBufferSize (layFragments stream length).base (seqOf (F + k)) =
      uxrGetReliableBufferCapacity stream.base := by
  rw [(layFragments_last_onlySlots hF h).bufferSize_eq]
  · unfold layBlocks
    rw [hF]
    exact writeCompleteBlocks_bufferSize h.blocks hk
  · rw [(layBlocks_onlySlots hF h).history_eq]
    exact fun heq => not_blockSlots_last h ⟨k, hk, heq.symm⟩

/-- A fragmented write keeps what the slots held before. -/
theorem layFragments_slotBytes {k p m : ℕ} (hk : k ≤ necessaryCompleteBlocks stream length)
    (hm : p + m ≤ uxrGetReliableBufferSize stream.base (seqOf (F + k))) :
    slotBytes (layFragments stream length).base (seqOf (F + k)) p m =
      slotBytes stream.base (seqOf (F + k)) p m := by
  have hle := hm.trans (h.size_le k (by omega))
  have hblocks := layBlocks_onlySlots hF h
  rcases Nat.lt_or_eq_of_le hk with hk | hk
  · rw [(layFragments_last_onlySlots hF h).slotBytes_eq]
    · unfold layBlocks
      rw [hF]
      exact writeCompleteBlocks_slotBytes h.blocks hk hm
    · rw [hblocks.history_eq]
      exact fun heq => not_blockSlots_last h ⟨k, hk, heq.symm⟩
    · rwa [hblocks.capacity_eq]
  · rw [hk] at hm ⊢
    have hne := not_blockSlots_last h
    rw [layFragments_base hF, openFragment_setSize_slotBytes _ _ _ _ _
      (layBlocks_last_size_le hF h) (by rwa [hblocks.bufferSize_eq _ hne]),
      hblocks.slotBytes_eq _ hne _ _ hle]

/-- What the header of the `k`-th fragment announces. -/
def announcedSize (stream : OutputReliableStream) (length k : ℕ) : ℕ :=
  if k = necessaryCompleteBlocks stream length then lastFragmentSize stream length
  else if k = 0 then firstFragmentSize stream else availableBlockSize stream

/-- The flags of the header of the `k`-th fragment. -/
def announcedFlags (stream : OutputReliableStream) (length k : ℕ) : UInt8 :=
  if k = necessaryCompleteBlocks stream length then flagLastFragment ||| 1 else 1

/-- Every fragment starts with its header, behind what its slot held before. -/
theorem layFragments_header
    (halign : ∀ k ≤ necessaryCompleteBlocks stream length,
      uxrGetReliableBufferSize stream.base (seqOf (F + k)) % 4 = 0)
    (hroom : ∀ k ≤ necessaryCompleteBlocks stream length,
      uxrGetReliableBufferSize stream.base (seqOf (F + k)) + 4 ≤
        uxrGetReliableBufferCapacity stream.base)
    {k : ℕ} (hk : k ≤ necessaryCompleteBlocks stream length) :
    slotBytes (layFragments stream length).base (seqOf (F + k))
        (uxrGetReliableBufferSize stream.base (seqOf (F + k))) 4 =
      submessageHeader submessageIdFragment (announcedFlags stream length k)
        (announcedSize stream length k) := by
  have hblocks := layBlocks_onlySlots hF h
  unfold announcedFlags announcedSize
  rcases Nat.lt_or_eq_of_le hk with hlt | heq
  · rw [if_neg hlt.ne, if_neg hlt.ne, (layFragments_last_onlySlots hF h).slotBytes_eq]
    · unfold layBlocks
      rw [hF]
      exact writeCompleteBlocks_header h.blocks (fun k hk => halign k hk.le)
        (fun k hk => hroom k hk.le) hlt
    · rw [hblocks.history_eq]
      exact fun heq => not_blockSlots_last h ⟨k, hlt, heq.symm⟩
    · rw [hblocks.capacity_eq]
      exact hroom k hk
  · have hsize := hblocks.bufferSize_eq _ (not_blockSlots_last h)
    rw [if_pos heq, if_pos heq, heq, ← hsize, layFragments_base hF]
    refine openFragment_setSize_header _ _ _ _ _ (layBlocks_last_size_le hF h) ?_ ?_
    · rw [hsize]
      exact halign _ le_rfl
    · rw [hsize, hblocks.capacity_eq]
      exact hroom _ le_rfl

end Layout

end XrceDds
