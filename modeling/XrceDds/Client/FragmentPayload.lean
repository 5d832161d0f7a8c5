import XrceDds.Client.OutputSafety
import Mathlib.Data.List.SplitLengths
import Mathlib.Data.Finset.Card

/-!
# The payload of a fragmented write

A fragmented write lays out the headers of its fragments first and then hands the user a
buffer.  The user's bytes fill the first slot up to its end; there `onFullOutputBuffer`
moves the window to the next slot, behind the room for the session header and the header
of the fragment.  `storeChunks` is what the user's bytes do to the slots, chunk by chunk,
and `fragments_hold` says that every slot then holds one fragment whose header announces
the payload behind it.
-/

namespace XrceDds

open ByteMemory

/-- The chunks of a payload stored in consecutive slots, the first at the offset `start`,
the others at the offset `next`. -/
def storeChunks (next : ℕ) : ReliableStream → ℕ → ℕ → List (List UInt8) → ReliableStream
  | base, _, _, [] => base
  | base, X, start, chunk :: chunks =>
    storeChunks next (base.store (uxrGetReliableBuffer base (seqOf X) + start) chunk) (X + 1) next
      chunks

/-- The slots from the position `X` on have room for chunks of the given lengths, the first
at the offset `start`, the others at the offset `next`, and none of these chunks is empty. -/
def ChunksFit (capacity next : ℕ) : ℕ → List (List UInt8) → Prop
  | _, [] => True
  | start, chunk :: chunks =>
    chunk ≠ [] ∧ start + chunk.length ≤ capacity ∧ ChunksFit capacity next next chunks

/-- Every chunk fits where it goes. -/
lemma ChunksFit.getElem {capacity next start : ℕ} {chunks : List (List UInt8)}
    (h : ChunksFit capacity next start chunks) {k : ℕ} (hk : k < chunks.length) :
    chunks[k] ≠ [] ∧ (if k = 0 then start else next) + chunks[k].length ≤ capacity := by
  induction chunks generalizing start k with
  | nil => exact absurd hk (Nat.not_lt_zero _)
  | cons chunk chunks ih =>
    cases k with
    | zero => exact ⟨h.1, h.2.1⟩
    | succ k =>
      have hrest := ih h.2.2 (Nat.lt_of_succ_lt_succ hk)
      rw [ite_self] at hrest
      rwa [if_neg (Nat.succ_ne_zero k)]

/-- Chunks that fit one by one fit together. -/
lemma chunksFit_of_getElem {capacity next start : ℕ} {chunks : List (List UInt8)}
    (h : ∀ k (hk : k < chunks.length),
      chunks[k] ≠ [] ∧ (if k = 0 then start else next) + chunks[k].length ≤ capacity) :
    ChunksFit capacity next start chunks := by
  induction chunks generalizing start with
  | nil => trivial
  | cons chunk chunks ih =>
    refine ⟨(h 0 (Nat.succ_pos _)).1, (h 0 (Nat.succ_pos _)).2, ih fun k hk => ?_⟩
    have := h (k + 1) (Nat.succ_lt_succ hk)
    rwa [if_neg (Nat.succ_ne_zero k), List.getElem_cons_succ, ← ite_self (c := k = 0) next] at this

section StoreChunks

variable {next : ℕ} {chunks : List (List UInt8)} {base : ReliableStream} {X start : ℕ}

/-- Storing a chunk changes its slot only. -/
lemma store_slotFrame {chunk : List UInt8}
    (hfit : start + chunk.length ≤ uxrGetReliableBufferCapacity base) :
    SlotFrame base (base.store (uxrGetReliableBuffer base (seqOf X) + start) chunk) (seqOf X)
      start :=
  ⟨rfl, rfl, agreeOff_write _ le_rfl (by rw [Nat.add_assoc]; exact Nat.add_le_add_left hfit _)⟩

/-- Storing chunks changes their slots only. -/
lemma storeChunks_onlySlots
    (hfit : ChunksFit (uxrGetReliableBufferCapacity base) next start chunks) :
    OnlySlots base (storeChunks next base X start chunks)
      (BlockSlots base.history X chunks.length) := by
  induction chunks generalizing base X start with
  | nil => exact .refl _ _
  | cons chunk chunks ih =>
    obtain ⟨-, hchunk, hrest⟩ := hfit
    have hframe := store_slotFrame (X := X) hchunk
    rw [storeChunks]
    generalize base.store (uxrGetReliableBuffer base (seqOf X) + start) chunk = base₁ at hframe ⊢
    rw [← hframe.capacity_eq] at hrest
    refine ((OnlySlots.of_slotFrame hframe).mono ?_).trans ((ih (X := X + 1) hrest).mono ?_)
    · exact fun i hi => ⟨0, Nat.succ_pos _, hi⟩
    · rintro i ⟨k, hk, hi⟩
      rw [hframe.history_eq, Nat.add_assoc, Nat.add_comm 1] at hi
      exact ⟨k + 1, Nat.succ_lt_succ hk, hi⟩

/-- Storing chunks keeps the size of every slot. -/
lemma storeChunks_bufferSize
    (hfit : ChunksFit (uxrGetReliableBufferCapacity base) next start chunks) (j : ℕ) :
    uxrGetReliableBufferSize (storeChunks next base X start chunks) j =
      uxrGetReliableBufferSize base j := by
  induction chunks generalizing base X start with
  | nil => rfl
  | cons chunk chunks ih =>
    obtain ⟨-, hchunk, hrest⟩ := hfit
    have hframe := store_slotFrame (X := X) hchunk
    rw [storeChunks]
    generalize base.store (uxrGetReliableBuffer base (seqOf X) + start) chunk = base₁ at hframe ⊢
    rw [← hframe.capacity_eq] at hrest
    rw [ih hrest, hframe.bufferSize_eq]

/-- Every chunk is in its slot, and what the slot holds before it is as it was. -/
theorem storeChunks_slotBytes
    (hfit : ChunksFit (uxrGetReliableBufferCapacity base) next start chunks)
    (hdistinct : SlotsDistinctFrom base.history X chunks.length) {k : ℕ}
    (hk : k < chunks.length) :
    slotBytes (storeChunks next base X start chunks) (seqOf (X + k)) 0
        ((if k = 0 then start else next) + chunks[k].length) =
      slotBytes base (seqOf (X + k)) 0 (if k = 0 then start else next) ++ chunks[k] := by
  induction chunks generalizing base X start k with
  | nil => exact absurd hk (Nat.not_lt_zero _)
  | cons chunk chunks ih =>
    obtain ⟨-, hchunk, hrest⟩ := hfit
    have hframe := store_slotFrame (X := X) hchunk
    have hsame : slotBytes (base.store (uxrGetReliableBuffer base (seqOf X) + start) chunk)
        (seqOf X) start chunk.length = chunk := slotBytes_store_same base rfl
    rw [storeChunks]
    generalize base.store (uxrGetReliableBuffer base (seqOf X) + start) chunk = base₁
      at hframe hsame ⊢
    rw [← hframe.capacity_eq] at hrest
    have hout : ∀ i < chunks.length, slotOf base.history X ≠ slotOf base.history (X + 1 + i) := by
      intro i hi heq
      have := hdistinct 0 (Nat.succ_pos _) (i + 1) (Nat.succ_lt_succ hi)
        (by rw [Nat.add_comm i, ← Nat.add_assoc]; exact heq)
      omega
    cases k with
    | zero =>
      simp only [if_true, List.getElem_cons_zero, Nat.add_zero]
      rw [(storeChunks_onlySlots (X := X + 1) hrest).slotBytes_eq]
      · rw [slotBytes_add, Nat.zero_add, hframe.slotBytes_of_le (by omega), hsame]
      · rw [hframe.history_eq]
        rintro ⟨i, hi, heq⟩
        exact hout i hi heq
      · rwa [Nat.zero_add, hframe.capacity_eq]
    | succ k =>
      have hk' : k < chunks.length := Nat.lt_of_succ_lt_succ hk
      have hrec := ih (X := X + 1) hrest (by rw [hframe.history_eq]; exact hdistinct.tail) hk'
      have hfit := (hrest.getElem hk').2
      rw [ite_self] at hrec hfit
      simp only [Nat.succ_ne_zero, if_false, List.getElem_cons_succ]
      rw [show X + (k + 1) = X + 1 + k by omega, hrec, hframe.slotBytes_of_ne (hout k hk')]
      rw [hframe.capacity_eq] at hfit
      omega

end StoreChunks

/-! ## Serializing over several slots -/

/-- Consecutive positions from `X` on lie in consecutive slots. -/
def SlotsConsecutive (history X n : ℕ) : Prop :=
  ∀ k < n, slotOf history (X + k + 1) = (slotOf history (X + k) + 1) % history

/-- The numbers of positions of one turn follow each other, and if the history divides a
turn, so do the slots of any positions. -/
lemma slotsConsecutive {history X n : ℕ}
    (h : history ∣ 65536 ∨ X % 65536 + n < 65536) : SlotsConsecutive history X n := by
  intro k hk
  unfold slotOf
  rcases h with hdvd | hturn
  · rw [seqOf_val, seqOf_val, Nat.mod_mod_of_dvd _ hdvd, Nat.mod_mod_of_dvd _ hdvd, Nat.mod_add_mod]
  · rw [seqOf_val, seqOf_val, Nat.mod_add_mod,
      show (X + k + 1) % 65536 = (X + k) % 65536 + 1 by omega]

/-- Leaving out the first position. -/
lemma SlotsConsecutive.tail {history X n : ℕ} (h : SlotsConsecutive history X (n + 1)) :
    SlotsConsecutive history (X + 1) n := by
  intro k hk
  have := h (k + 1) (Nat.succ_lt_succ hk)
  rwa [← Nat.add_assoc, Nat.add_right_comm X k 1] at this

/-- A buffer whose window is the `len` bytes at the offset `start` of the slot of `X`. -/
structure WindowAt (base : ReliableStream) (ub : UcdrBuffer) (X start len : ℕ) : Prop where
  init_eq : ub.init = uxrGetReliableBuffer base (seqOf X) + start
  iterator_eq : ub.iterator = ub.init
  final_eq : ub.final = ub.init + len
  noError : ub.error = false
  callback : ub.onFullBuffer = true

section Serialize

variable {stream : OutputReliableStream} {ub : UcdrBuffer} {X start len : ℕ}

/-- Behind the slot of `X` the window moves to the payload of the fragment in the next
slot. -/
lemma onFullOutputBuffer_eq (stream : OutputReliableStream) (ub : UcdrBuffer)
    (hlo : uxrGetReliableBuffer stream.base (seqOf X) ≤ ub.init)
    (hhi : ub.init <
      uxrGetReliableBuffer stream.base (seqOf X) + uxrGetReliableBufferCapacity stream.base)
    (hnext : slotOf stream.base.history (X + 1) =
      (slotOf stream.base.history X + 1) % stream.base.history) :
    onFullOutputBuffer stream ub =
      (stream,
        ucdrSetOnFullBufferCallback
          (ucdrInitBufferOrigin
            (uxrGetReliableBuffer stream.base (seqOf (X + 1)) + stream.offset + subheaderSize)
            (u32Sub (uxrGetReliableBufferSize stream.base (seqOf (X + 1)))
              (stream.offset + subheaderSize)) ub.offset),
        false) := by
  have hpos := historyPosition_of_mem hlo hhi
  have hlt := slotOf_lt stream.base.history_pos X
  have hhistory := stream.base.history_lt
  have hmod : (1 + slotOf stream.base.history X) % 65536 % stream.base.history =
      (seqOf (X + 1)).val % stream.base.history := by
    rw [Nat.mod_eq_of_lt (show 1 + slotOf stream.base.history X < 65536 by omega), Nat.add_comm,
      ← hnext]
    rfl
  unfold onFullOutputBuffer
  rw [hpos]
  change (_, ucdrSetOnFullBufferCallback (ucdrInitBufferOrigin
    (uxrGetReliableBuffer stream.base ((1 + slotOf stream.base.history X) % 65536) +
      stream.offset + subheaderSize)
    (u32Sub (uxrGetReliableBufferSize stream.base ((1 + slotOf stream.base.history X) % 65536))
      (stream.offset + subheaderSize)) ub.offset), _) = _
  rw [uxrGetReliableBuffer_congr hmod, uxrGetReliableBufferSize_congr hmod]

/-- A window of a slot is ready for its bytes. -/
lemma WindowAt.ready (h : WindowAt stream.base ub X start len) (hpos : 0 < len)
    (hfit : start + len ≤ uxrGetReliableBufferCapacity stream.base) : ub.Ready := by
  have hcap := capacity_lt stream.base
  have hiterator := h.iterator_eq
  have hfinal := h.final_eq
  exact ⟨h.noError, by omega, by omega⟩

/-- The window of the next slot. -/
lemma windowAt_next (stream : OutputReliableStream) (origin : ℕ)
    (hsize : uxrGetReliableBufferSize stream.base (seqOf X) = stream.offset + subheaderSize + len)
    (hfit : stream.offset + subheaderSize + len ≤ uxrGetReliableBufferCapacity stream.base) :
    WindowAt stream.base
      (ucdrSetOnFullBufferCallback
        (ucdrInitBufferOrigin
          (uxrGetReliableBuffer stream.base (seqOf X) + stream.offset + subheaderSize)
          (u32Sub (uxrGetReliableBufferSize stream.base (seqOf X))
            (stream.offset + subheaderSize)) origin)) X (stream.offset + subheaderSize) len where
  init_eq := Nat.add_assoc _ _ _
  iterator_eq := Nat.add_zero _
  final_eq := by
    have hcap := capacity_lt stream.base
    rw [hsize]
    simp only [ucdrSetOnFullBufferCallback, ucdrInitBufferOrigin, ucdrInitBufferOriginOffset,
      u32Sub]
    omega
  noError := rfl
  callback := rfl

end Serialize

/-- The slots behind `X` have the sizes of fragments with the given chunks. -/
def ChunkSizes (stream : OutputReliableStream) (X : ℕ) (chunks : List (List UInt8)) : Prop :=
  ∀ k (hk : k < chunks.length),
    uxrGetReliableBufferSize stream.base (seqOf (X + 1 + k)) =
      stream.offset + subheaderSize + chunks[k].length

/-- The bytes a user serializes go to the slots chunk by chunk. -/
theorem ucdrArrayToBuffer_storeChunks {stream : OutputReliableStream} {ub : UcdrBuffer}
    {X start : ℕ} {chunk : List UInt8} {chunks : List (List UInt8)}
    (hwindow : WindowAt stream.base ub X start chunk.length)
    (hfit : ChunksFit (uxrGetReliableBufferCapacity stream.base) (stream.offset + subheaderSize)
      start (chunk :: chunks))
    (hsizes : ChunkSizes stream X chunks)
    (hconsecutive : SlotsConsecutive stream.base.history X chunks.length) :
    (ucdrArrayToBuffer onFullOutputBuffer (chunk :: chunks).flatten stream ub).1 =
      { stream with
        base := storeChunks (stream.offset + subheaderSize) stream.base X start
          (chunk :: chunks) } := by
  induction chunks generalizing stream ub X start chunk with
  | nil =>
    obtain ⟨hne, hchunk, -⟩ := hfit
    have hready := hwindow.ready (List.length_pos_of_ne_nil hne) hchunk
    rw [List.flatten_cons, ucdrArrayToBuffer_window onFullOutputBuffer stream hready hne
      (by rw [hwindow.iterator_eq, hwindow.final_eq]), List.flatten_nil, ucdrArrayToBuffer,
      hwindow.iterator_eq, hwindow.init_eq]
    rfl
  | cons chunk₂ chunks ih =>
    obtain ⟨hne, hchunk, hrest⟩ := hfit
    have hpos := List.length_pos_of_ne_nil hne
    have hready := hwindow.ready hpos hchunk
    have hframe := store_slotFrame (X := X) hchunk
    rw [List.flatten_cons, ucdrArrayToBuffer_window onFullOutputBuffer stream hready hne
      (by rw [hwindow.iterator_eq, hwindow.final_eq]), hwindow.iterator_eq, hwindow.init_eq,
      storeChunks]
    change (ucdrArrayToBuffer onFullOutputBuffer (chunk₂ :: chunks).flatten
      { stream with
        base := stream.base.store (uxrGetReliableBuffer stream.base (seqOf X) + start) chunk }
      (ub.advance chunk.length 1)).1 = _
    generalize stream.base.store (uxrGetReliableBuffer stream.base (seqOf X) + start) chunk = base₁
      at hframe ⊢
    -- the window of the first slot is exhausted, and the callback opens the next one
    have hsize := hsizes 0 (Nat.succ_pos _)
    rw [Nat.add_zero, List.getElem_cons_zero, ← hframe.bufferSize_eq] at hsize
    have hslot := hconsecutive 0 (Nat.succ_pos _)
    rw [Nat.add_zero, ← hframe.history_eq] at hslot
    rw [← hframe.capacity_eq] at hrest
    obtain ⟨hne₂, hchunk₂, -⟩ := id hrest
    have hnext := onFullOutputBuffer_eq { stream with base := base₁ }
      (ub.advance chunk.length 1) (X := X)
      (by
        change uxrGetReliableBuffer base₁ (seqOf X) ≤ ub.init
        rw [hframe.buffer_eq, hwindow.init_eq]
        exact Nat.le_add_right _ _)
      (by
        change ub.init < uxrGetReliableBuffer base₁ (seqOf X) + uxrGetReliableBufferCapacity base₁
        rw [hframe.buffer_eq, hframe.capacity_eq, hwindow.init_eq]
        omega)
      hslot
    have hwindow₂ := windowAt_next { stream with base := base₁ }
      (ub.advance chunk.length 1).offset hsize hchunk₂
    have hbytes : (chunk₂ :: chunks).flatten ≠ [] := by simp [hne₂]
    rw [ucdrArrayToBuffer_full onFullOutputBuffer _ (ub.advance chunk.length 1)
      hwindow.noError hwindow.callback
      (show ub.iterator + chunk.length = ub.final by rw [hwindow.final_eq, hwindow.iterator_eq])
      hnext (hwindow₂.ready (List.length_pos_of_ne_nil hne₂) hchunk₂) hbytes]
    refine ih hwindow₂ hrest ?_ ?_
    · intro k hk
      have := hsizes (k + 1) (Nat.succ_lt_succ hk)
      rw [← hframe.bufferSize_eq, List.getElem_cons_succ] at this
      rwa [show X + 1 + 1 + k = X + 1 + (k + 1) by omega]
    · have := hconsecutive.tail
      rwa [← hframe.history_eq] at this

/-! ## The sizes of the fragments -/

/-- The slots that a fragmented write needs, one for each fragment: those behind the first
are empty, and the first is empty or the current slot, partly filled.  The history divides
a turn, as it is documented to do, or the numbers of the fragments stay within a turn. -/
structure FragmentSlots (stream : OutputReliableStream) (length : ℕ) : Prop where
  room : stream.offset + subheaderSize < uxrGetReliableBufferCapacity stream.base
  enough : necessaryCompleteBlocks stream length < stream.base.history
  turn : stream.base.history ∣ 65536 ∨
    (firstFragmentSeqNum stream).val + necessaryCompleteBlocks stream length < 65536
  first : firstFragmentBufferSize stream = stream.offset ∨
    (firstFragmentSeqNum stream = stream.lastWritten ∧
      stream.offset < firstFragmentBufferSize stream)
  others : ∀ k, 0 < k → k ≤ necessaryCompleteBlocks stream length →
    uxrGetReliableBufferSize stream.base (uxrSeqNumAdd (firstFragmentSeqNum stream) k) =
      stream.offset

/-- A first size, `n` sizes of whole blocks, and a last size. -/
def blockSizes (first n block last : ℕ) : List ℕ := first :: (List.replicate n block ++ [last])

lemma sum_blockSizes (first n block last : ℕ) :
    (blockSizes first n block last).sum = first + n * block + last := by
  simp only [blockSizes, List.sum_cons, List.sum_append, List.sum_replicate_nat, List.sum_nil,
    Nat.add_assoc, Nat.add_zero]

lemma length_blockSizes (first n block last : ℕ) :
    (blockSizes first n block last).length = n + 2 := by
  simp [blockSizes]

lemma getElem_blockSizes {first n block last k : ℕ}
    (hk : k < (blockSizes first n block last).length) :
    (blockSizes first n block last)[k] =
      if k = n + 1 then last else if k = 0 then first else block := by
  cases k with
  | zero => simp [blockSizes]
  | succ k =>
    rw [length_blockSizes] at hk
    simp only [blockSizes, List.getElem_cons_succ, List.getElem_append, List.length_replicate,
      List.getElem_replicate, Nat.succ_ne_zero, if_false]
    split
    · next hlt => rw [if_neg (by omega)]
    · next hge =>
      rw [if_pos (by omega)]
      exact List.getElem_singleton _

/-- The sizes of the payloads of a fragmented write. -/
def fragmentSizes (stream : OutputReliableStream) (length : ℕ) : List ℕ :=
  blockSizes (firstFragmentSize stream) (necessaryCompleteBlocks stream length - 1)
    (availableBlockSize stream) (lastFragmentSize stream length)

section Sizes

variable {stream : OutputReliableStream} {length : ℕ}

/-- A first fragment that starts in the current slot has room for a header and more. -/
lemma FragmentSlots.first_lt (h : FragmentSlots stream length) :
    firstFragmentBufferSize stream + subheaderSize < uxrGetReliableBufferCapacity stream.base := by
  have hroom := h.room
  rcases h.first with hempty | ⟨hcurrent, -⟩
  · omega
  · by_cases hfull : currentSlotFull stream
    · -- the first fragment is behind the current slot, not in it
      unfold firstFragmentSeqNum at hcurrent
      rw [if_pos hfull, ← seqOf_self stream.lastWritten, uxrSeqNumAdd_seqOf, Fin.ext_iff,
        seqOf_val, seqOf_val] at hcurrent
      omega
    · unfold firstFragmentBufferSize firstFragmentSeqNum
      rw [if_neg hfull]
      unfold currentSlotFull at hfull
      omega

/-- A length whose arithmetic does not wrap around: that of a submessage, of which a
`uint16_t` counts what the first fragment leaves. -/
structure LengthFits (stream : OutputReliableStream) (length : ℕ) : Prop where
  le : length ≤ 65540
  lt : length < firstFragmentSize stream + 65536

/-- Every length of `uint16_t` is one. -/
lemma lengthFits_of_lt (h : length < 65536) : LengthFits stream length :=
  ⟨by omega, Nat.lt_add_left _ h⟩

/-- A write that is fragmented does not fit behind the first fragment's header. -/
lemma FragmentSlots.capacity_lt_add (h : FragmentSlots stream length)
    (hlength : LengthFits stream length)
    (htakes : TakesFragments stream length) :
    uxrGetReliableBufferCapacity stream.base < firstFragmentBufferSize stream + length ∧
      uxrGetReliableBufferCapacity stream.base < stream.offset + length := by
  have hcap := capacity_lt stream.base
  have hroom := h.room
  have hle := hlength.le
  obtain ⟨hcurrent, hnext⟩ := htakes
  have hnext' : uxrGetReliableBufferCapacity stream.base < stream.offset + length := by
    unfold sizeT at hnext
    omega
  refine ⟨?_, hnext'⟩
  rcases h.first with hempty | ⟨heq, -⟩
  · omega
  · have hlt := h.first_lt
    unfold firstFragmentBufferSize at hlt ⊢
    rw [heq] at hlt ⊢
    unfold sizeT at hcurrent
    omega

/-- What the truncating arithmetic of a fragmented write computes: the first fragment
takes the rest of its slot, a block a whole payload, and the last fragment the rest, which
is not empty. -/
lemma FragmentSlots.sizes (h : FragmentSlots stream length) (hlength : LengthFits stream length)
    (htakes : TakesFragments stream length) :
    firstFragmentBufferSize stream + subheaderSize + firstFragmentSize stream =
        uxrGetReliableBufferCapacity stream.base ∧
      stream.offset + subheaderSize + availableBlockSize stream =
        uxrGetReliableBufferCapacity stream.base ∧
      0 < lastFragmentSize stream length ∧
      lastFragmentSize stream length ≤ availableBlockSize stream ∧
      0 < necessaryCompleteBlocks stream length ∧
      length = firstFragmentSize stream +
        (necessaryCompleteBlocks stream length - 1) * availableBlockSize stream +
        lastFragmentSize stream length := by
  have hroom := h.room
  have hfirst := h.first_lt
  obtain ⟨hle, hlt⟩ := hlength
  obtain ⟨hcap, hcap'⟩ := h.capacity_lt_add ⟨hle, hlt⟩ htakes
  have hfirstSize : firstFragmentBufferSize stream + subheaderSize + firstFragmentSize stream =
      uxrGetReliableBufferCapacity stream.base := by
    unfold firstFragmentSize u16Sub at hlt ⊢
    simp only [subheaderSize] at *
    omega
  have hblock : stream.offset + subheaderSize + availableBlockSize stream =
      uxrGetReliableBufferCapacity stream.base := by
    unfold availableBlockSize u16Sub
    simp only [subheaderSize] at *
    omega
  have hremaining : remainingSize stream length + firstFragmentSize stream = length := by
    unfold remainingSize u16Sub
    omega
  have hbounds := lastFragmentSize_bounds length (show availableBlockSize stream ≠ 0 by omega)
  refine ⟨hfirstSize, hblock, hbounds.1, hbounds.2, ?_⟩
  have hdiv := Nat.div_add_mod (remainingSize stream length) (availableBlockSize stream)
  rw [Nat.mul_comm] at hdiv
  unfold necessaryCompleteBlocks lastFragmentSize
  split
  · next hexact =>
    rw [hexact, Nat.add_zero] at hdiv
    have hpos : 0 < remainingSize stream length / availableBlockSize stream := by
      refine Nat.pos_of_ne_zero fun hzero => ?_
      rw [hzero, Nat.zero_mul] at hdiv
      omega
    refine ⟨hpos, ?_⟩
    have : (remainingSize stream length / availableBlockSize stream - 1) *
        availableBlockSize stream + availableBlockSize stream = remainingSize stream length := by
      rw [← Nat.succ_mul, Nat.succ_eq_add_one, Nat.sub_add_cancel hpos, hdiv]
    omega
  · refine ⟨Nat.succ_pos _, ?_⟩
    rw [Nat.add_sub_cancel]
    omega

/-- The payloads of a fragmented write are as long as the write. -/
lemma FragmentSlots.sum_fragmentSizes (h : FragmentSlots stream length)
    (hlength : LengthFits stream length)
    (htakes : TakesFragments stream length) : (fragmentSizes stream length).sum = length := by
  obtain ⟨-, -, -, -, -, hsum⟩ := h.sizes hlength htakes
  rw [fragmentSizes, sum_blockSizes, ← hsum]

/-- One payload for each fragment. -/
lemma FragmentSlots.length_fragmentSizes (h : FragmentSlots stream length)
    (hlength : LengthFits stream length) (htakes : TakesFragments stream length) :
    (fragmentSizes stream length).length = necessaryCompleteBlocks stream length + 1 := by
  obtain ⟨-, -, -, -, hpos, -⟩ := h.sizes hlength htakes
  rw [fragmentSizes, length_blockSizes]
  omega

/-- The header of every fragment announces the size of its payload. -/
lemma FragmentSlots.getElem_fragmentSizes (h : FragmentSlots stream length)
    (hlength : LengthFits stream length) (htakes : TakesFragments stream length) {k : ℕ}
    (hk : k < (fragmentSizes stream length).length) :
    (fragmentSizes stream length)[k] = announcedSize stream length k := by
  obtain ⟨-, -, -, -, hpos, -⟩ := h.sizes hlength htakes
  simp only [fragmentSizes, getElem_blockSizes, announcedSize, Nat.sub_add_cancel hpos]

end Sizes

/-! ## What the slots hold afterwards -/

/-- The slots from that of `first` to that of `lastWritten` each hold one FRAGMENT more than
before, with one of the payloads; its header announces that payload, and says of the last
one only that it is the last. -/
structure HoldsFragments (stream stream' : OutputReliableStream) (first : UxrSeqNum)
    (payloads : List (List UInt8)) : Prop where
  nonempty : payloads ≠ []
  lastWritten_eq : stream'.lastWritten = uxrSeqNumAdd first (payloads.length - 1)
  size_lt : ∀ payload ∈ payloads, payload.length < 65536
  slot : ∀ k (hk : k < payloads.length),
    slotBytes stream'.base (uxrSeqNumAdd first k) 0
        (uxrGetReliableBufferSize stream'.base (uxrSeqNumAdd first k)) =
      slotBytes stream.base (uxrSeqNumAdd first k) 0
          (uxrGetReliableBufferSize stream.base (uxrSeqNumAdd first k)) ++
        submessageHeader submessageIdFragment
          (if k + 1 = payloads.length then flagLastFragment ||| 1 else 1) payloads[k].length ++
        payloads[k]

section RoundTrip

variable {stream : OutputReliableStream} {length : ℕ}

/-- Consecutive slots are different as long as there are enough of them. -/
lemma SlotsConsecutive.distinct {history X n : ℕ} (h : SlotsConsecutive history X n)
    (hn : n < history) : SlotsDistinctFrom history X (n + 1) := by
  have hslot : ∀ k ≤ n, slotOf history (X + k) = (slotOf history X + k) % history := by
    intro k hk
    induction k with
    | zero => exact (Nat.mod_eq_of_lt (slotOf_lt (by omega) X)).symm
    | succ k ih =>
      rw [← Nat.add_assoc, h k (by omega), ih (by omega), Nat.mod_add_mod, Nat.add_assoc]
  intro j hj k hk heq
  rw [hslot j (by omega), hslot k (by omega)] at heq
  have := (SerialNumber.mod_eq_mod_iff (M := history) (X := slotOf history X + j)
    (Y := slotOf history X + k) (by omega) (by omega)).mp heq
  omega

/-- As many slots are free as empty slots are different. -/
lemma le_getAvailableFreeSlots {X n : ℕ} (hdistinct : SlotsDistinctFrom stream.base.history X n)
    (hempty : ∀ k < n, uxrGetReliableBufferSize stream.base (seqOf (X + k)) = stream.offset) :
    n ≤ getAvailableFreeSlots stream := by
  have hcount : getAvailableFreeSlots stream = ((Finset.range stream.base.history).filter
      fun i => uxrGetReliableBufferSize stream.base i = stream.offset).card := by
    unfold getAvailableFreeSlots
    rw [List.countP_eq_length_filter]
    rfl
  have hinj : Set.InjOn (fun k => slotOf stream.base.history (X + k)) (Finset.range n) :=
    fun j hj k hk heq => hdistinct j (by simpa using hj) k (by simpa using hk) heq
  rw [hcount, ← Finset.card_range n, ← Finset.card_image_of_injOn hinj]
  refine Finset.card_le_card fun i hi => ?_
  obtain ⟨k, hk, rfl⟩ := Finset.mem_image.mp hi
  refine Finset.mem_filter.mpr ⟨Finset.mem_range.mpr (slotOf_lt stream.base.history_pos _), ?_⟩
  rw [← hempty k (Finset.mem_range.mp hk)]
  exact uxrGetReliableBufferSize_congr (Nat.mod_mod _ _)

/-- What a slot of a fragmented write held before. -/
def heldSize (stream : OutputReliableStream) (k : ℕ) : ℕ :=
  if k = 0 then firstFragmentBufferSize stream else stream.offset

namespace FragmentSlots

variable (h : FragmentSlots stream length)
include h

/-- The positions of the fragments lie in consecutive slots. -/
lemma consecutive : SlotsConsecutive stream.base.history (firstFragmentSeqNum stream).val
    (necessaryCompleteBlocks stream length) :=
  slotsConsecutive (by rw [Nat.mod_eq_of_lt (firstFragmentSeqNum stream).isLt]; exact h.turn)

/-- What the slots held before. -/
lemma bufferSize_eq {k : ℕ} (hk : k ≤ necessaryCompleteBlocks stream length) :
    uxrGetReliableBufferSize stream.base (seqOf ((firstFragmentSeqNum stream).val + k)) =
      heldSize stream k := by
  unfold heldSize
  cases k with
  | zero =>
    rw [Nat.add_zero, seqOf_self]
    rfl
  | succ k =>
    rw [if_neg (Nat.succ_ne_zero k), ← uxrSeqNumAdd_seqOf, seqOf_self]
    exact h.others _ (Nat.succ_pos k) hk

/-- What the slots held before leaves room for a header and more. -/
lemma heldSize_lt (k : ℕ) :
    heldSize stream k + subheaderSize < uxrGetReliableBufferCapacity stream.base := by
  unfold heldSize
  split
  · exact h.first_lt
  · exact h.room

/-- The slots are ready for the fragments. -/
lemma ready : FragmentsReady stream length (firstFragmentSeqNum stream).val := by
  refine ⟨h.consecutive.distinct h.enough, fun k hk => ?_⟩
  have := h.heldSize_lt k
  rw [h.bufferSize_eq (by omega)]
  omega

/-- A write that has the slots it needs is accepted. -/
lemma accepted : necessaryCompleteBlocks stream length ≤ getAvailableFreeSlots stream := by
  have hdistinct := h.consecutive.distinct h.enough
  refine le_getAvailableFreeSlots (X := (firstFragmentSeqNum stream).val + 1) hdistinct.tail ?_
  intro k hk
  rw [show (firstFragmentSeqNum stream).val + 1 + k =
    (firstFragmentSeqNum stream).val + (k + 1) by omega, h.bufferSize_eq (by omega)]
  exact if_neg (Nat.succ_ne_zero k)

/-- After a fragmented write every slot holds what it held before and a header. -/
lemma layFragments_slotBytes_header (hoffset : stream.offset % 4 = 0)
    (hfirst : firstFragmentBufferSize stream % 4 = 0) {k : ℕ}
    (hk : k ≤ necessaryCompleteBlocks stream length) :
    slotBytes (layFragments stream length).base (seqOf ((firstFragmentSeqNum stream).val + k)) 0
        (heldSize stream k + subheaderSize) =
      slotBytes stream.base (seqOf ((firstFragmentSeqNum stream).val + k)) 0 (heldSize stream k) ++
        submessageHeader submessageIdFragment (announcedFlags stream length k)
          (announcedSize stream length k) := by
  have hF : firstFragmentSeqNum stream = seqOf (firstFragmentSeqNum stream).val :=
    (seqOf_self _).symm
  have haligned : ∀ k, heldSize stream k % 4 = 0 := by
    intro k
    unfold heldSize
    split
    · exact hfirst
    · exact hoffset
  have hheader := layFragments_header hF h.ready
    (fun k hk => by rw [h.bufferSize_eq hk]; exact haligned k)
    (fun k hk => by rw [h.bufferSize_eq hk]; exact (h.heldSize_lt k).le) hk
  have hkept := layFragments_slotBytes hF h.ready hk (p := 0) (m := heldSize stream k)
    (by rw [h.bufferSize_eq hk, Nat.zero_add])
  rw [h.bufferSize_eq hk] at hheader
  rw [slotBytes_add, Nat.zero_add, hkept]
  exact congrArg _ hheader

variable (hlength : LengthFits stream length) (htakes : TakesFragments stream length)
include hlength htakes

/-- The payload that a header announces is not empty and fits behind the header. -/
lemma announcedSize_bounds (k : ℕ) :
    0 < announcedSize stream length k ∧
      heldSize stream k + subheaderSize + announcedSize stream length k ≤
        uxrGetReliableBufferCapacity stream.base := by
  have hroom := h.heldSize_lt k
  obtain ⟨hfirst, hblock, hlastpos, hlastle, hpos, -⟩ := h.sizes hlength htakes
  unfold heldSize announcedSize at *
  split_ifs at * <;> omega

/-- After a fragmented write every slot has the size of what it held before, a header and
the payload that the header announces. -/
lemma layFragments_bufferSize {k : ℕ} (hk : k ≤ necessaryCompleteBlocks stream length) :
    uxrGetReliableBufferSize (layFragments stream length).base
        (seqOf ((firstFragmentSeqNum stream).val + k)) =
      heldSize stream k + subheaderSize + announcedSize stream length k := by
  have hF : firstFragmentSeqNum stream = seqOf (firstFragmentSeqNum stream).val :=
    (seqOf_self _).symm
  have hcap := capacity_lt stream.base
  obtain ⟨hfirst, hblock, hlastpos, hlastle, hpos, -⟩ := h.sizes hlength htakes
  unfold heldSize announcedSize
  rcases Nat.lt_or_eq_of_le hk with hlt | rfl
  · rw [layFragments_bufferSize_of_lt hF h.ready hlt, if_neg hlt.ne]
    split <;> omega
  · rw [layFragments_bufferSize_last hF _ (by omega), if_pos rfl, if_neg hpos.ne']

end FragmentSlots

/-- A write that has the slots it needs hands out the rest of the first slot. -/
lemma FragmentSlots.prepare_eq (h : FragmentSlots stream length)
    (hlength : LengthFits stream length)
    (htakes : TakesFragments stream length) (ub : UcdrBuffer) :
    ∃ ub', uxrPrepareReliableBufferToWrite stream length ub =
        some { availableToWrite := true, ub := ub', stream := layFragments stream length } ∧
      WindowAt (layFragments stream length).base ub' (firstFragmentSeqNum stream).val
        (heldSize stream 0 + subheaderSize) (firstFragmentSize stream) ∧
      ub'.offset = ub'.origin := by
  have hF : firstFragmentSeqNum stream = seqOf (firstFragmentSeqNum stream).val :=
    (seqOf_self _).symm
  have hcap := capacity_lt stream.base
  obtain ⟨hfirst, hblock, hlastpos, hlastle, -, -⟩ := h.sizes hlength htakes
  rw [prepare_of_takesFragments htakes]
  unfold prepareFragments
  dsimp only
  rw [if_neg (by omega), if_pos h.accepted]
  refine ⟨_, rfl, ⟨?_, rfl, ?_, rfl, rfl⟩, rfl⟩
  · rw [(layFragments_onlySlots hF h.ready).buffer_eq, seqOf_self, ← Nat.add_assoc]
    rfl
  · simp only [ucdrSetOnFullBufferCallback, ucdrInitBuffer, ucdrInitBufferOrigin,
      ucdrInitBufferOriginOffset, u32Sub]
    omega

/-- The bytes of a fragmented write, cut as the headers announce. -/
def cutPayloads (stream : OutputReliableStream) (bytes : List UInt8) : List (List UInt8) :=
  (fragmentSizes stream bytes.length).splitLengths bytes

namespace FragmentSlots

variable {bytes : List UInt8} (h : FragmentSlots stream bytes.length)
  (hlength : LengthFits stream bytes.length)
  (htakes : TakesFragments stream bytes.length)
include h hlength htakes

/-- One payload for each fragment. -/
lemma length_cutPayloads :
    (cutPayloads stream bytes).length = necessaryCompleteBlocks stream bytes.length + 1 := by
  rw [cutPayloads, List.length_splitLengths, h.length_fragmentSizes hlength htakes]

/-- Every payload is as long as its header announces. -/
lemma length_getElem_cutPayloads {k : ℕ} (hk : k < (cutPayloads stream bytes).length) :
    (cutPayloads stream bytes)[k].length = announcedSize stream bytes.length k := by
  have hsum := h.sum_fragmentSizes hlength htakes
  unfold cutPayloads at hk ⊢
  rw [List.splitLengths_length_getElem _ _ hsum.le]
  exact h.getElem_fragmentSizes hlength htakes _

/-- The payloads are the bytes. -/
lemma flatten_cutPayloads : (cutPayloads stream bytes).flatten = bytes :=
  List.flatten_splitLengths _ _ (h.sum_fragmentSizes hlength htakes).ge

/-- The payloads fit the slots that were laid out for them. -/
lemma cutPayloads_fit :
    ChunksFit (uxrGetReliableBufferCapacity (layFragments stream bytes.length).base)
      (stream.offset + subheaderSize) (heldSize stream 0 + subheaderSize)
      (cutPayloads stream bytes) := by
  have hF : firstFragmentSeqNum stream = seqOf (firstFragmentSeqNum stream).val :=
    (seqOf_self _).symm
  refine chunksFit_of_getElem fun k hk => ?_
  obtain ⟨hpos, hle⟩ := h.announcedSize_bounds hlength htakes k
  have hcut := h.length_getElem_cutPayloads hlength htakes hk
  rw [(layFragments_onlySlots hF h.ready).capacity_eq, hcut]
  refine ⟨List.ne_nil_of_length_pos (by rw [hcut]; exact hpos), ?_⟩
  unfold heldSize at hle ⊢
  split_ifs at * <;> omega

/-- The user's bytes go to the slots payload by payload. -/
theorem stored_eq {ub : UcdrBuffer}
    (hwindow : WindowAt (layFragments stream bytes.length).base ub (firstFragmentSeqNum stream).val
      (heldSize stream 0 + subheaderSize) (firstFragmentSize stream)) :
    (ucdrArrayToBuffer onFullOutputBuffer bytes (layFragments stream bytes.length) ub).1 =
      { layFragments stream bytes.length with
        base := storeChunks (stream.offset + subheaderSize) (layFragments stream bytes.length).base
          (firstFragmentSeqNum stream).val (heldSize stream 0 + subheaderSize)
          (cutPayloads stream bytes) } := by
  have hF : firstFragmentSeqNum stream = seqOf (firstFragmentSeqNum stream).val :=
    (seqOf_self _).symm
  have honly := layFragments_onlySlots hF h.ready
  have hcount := h.length_cutPayloads hlength htakes
  have hcut := fun k hk => h.length_getElem_cutPayloads hlength htakes (k := k) hk
  have hfit := h.cutPayloads_fit hlength htakes
  have hflatten := h.flatten_cutPayloads hlength htakes
  have hsize := fun k hk => h.layFragments_bufferSize hlength htakes (k := k) hk
  have hoffset := layFragments_offset stream bytes.length
  obtain ⟨-, -, -, -, hpos, -⟩ := h.sizes hlength htakes
  obtain ⟨chunk, chunks, heq⟩ := List.exists_cons_of_ne_nil
    (List.ne_nil_of_length_pos (l := cutPayloads stream bytes) (by omega))
  simp only [heq] at hcount hcut hfit hflatten ⊢
  have hchunk : chunk.length = firstFragmentSize stream := by
    have := hcut 0 (Nat.succ_pos _)
    rwa [List.getElem_cons_zero, announcedSize, if_neg hpos.ne, if_pos rfl] at this
  rw [← hchunk] at hwindow
  rw [List.length_cons, Nat.add_right_cancel_iff] at hcount
  generalize layFragments stream bytes.length = laid at *
  rw [← hoffset] at hfit ⊢
  have hstore := ucdrArrayToBuffer_storeChunks hwindow hfit (fun k hk => ?_) ?_
  · rwa [hflatten] at hstore
  · have hk' := hsize (k + 1) (by omega)
    have hcut' := hcut (k + 1) (Nat.succ_lt_succ hk)
    rw [List.getElem_cons_succ] at hcut'
    rw [hcut', hoffset, Nat.add_assoc _ 1, Nat.add_comm 1, hk', heldSize,
      if_neg (Nat.succ_ne_zero k)]
  · rw [honly.history_eq, hcount]
    exact h.consecutive

/-- Every slot of the write then holds what it held before, and a fragment. -/
theorem stored_slotBytes (hoffset : stream.offset % 4 = 0)
    (hfirst : firstFragmentBufferSize stream % 4 = 0) {k : ℕ}
    (hk : k < (cutPayloads stream bytes).length) :
    slotBytes (storeChunks (stream.offset + subheaderSize) (layFragments stream bytes.length).base
          (firstFragmentSeqNum stream).val (heldSize stream 0 + subheaderSize)
          (cutPayloads stream bytes)) (seqOf ((firstFragmentSeqNum stream).val + k)) 0
        (heldSize stream k + subheaderSize + announcedSize stream bytes.length k) =
      slotBytes stream.base (seqOf ((firstFragmentSeqNum stream).val + k)) 0 (heldSize stream k) ++
        submessageHeader submessageIdFragment (announcedFlags stream bytes.length k)
          (announcedSize stream bytes.length k) ++ (cutPayloads stream bytes)[k] := by
  have hF : firstFragmentSeqNum stream = seqOf (firstFragmentSeqNum stream).val :=
    (seqOf_self _).symm
  have honly := layFragments_onlySlots hF h.ready
  have hcount := h.length_cutPayloads hlength htakes
  have hheld := h.layFragments_slotBytes_header hoffset hfirst (k := k) (by omega)
  have hlaid : SlotsDistinctFrom (layFragments stream bytes.length).base.history
      (firstFragmentSeqNum stream).val (cutPayloads stream bytes).length := by
    rw [hcount, honly.history_eq]
    exact h.consecutive.distinct h.enough
  have hbytes := storeChunks_slotBytes (X := (firstFragmentSeqNum stream).val)
    (h.cutPayloads_fit hlength htakes) hlaid hk
  have hstart : (if k = 0 then heldSize stream 0 + subheaderSize
      else stream.offset + subheaderSize) = heldSize stream k + subheaderSize := by
    cases k with
    | zero => rw [if_pos rfl]
    | succ k => rw [if_neg (Nat.succ_ne_zero k), heldSize, if_neg (Nat.succ_ne_zero k)]
  rwa [hstart, h.length_getElem_cutPayloads hlength htakes hk, hheld] at hbytes

end FragmentSlots

/-- Another memory leaves the last number that was written alone. -/
lemma lastWritten_withBase (stream : OutputReliableStream) (base : ReliableStream) :
    ({ stream with base := base } : OutputReliableStream).lastWritten = stream.lastWritten := rfl

/-- Once the user has serialized as many bytes as he asked room for, the slots of the write
hold fragments of exactly these bytes. -/
theorem fragments_hold (bytes : List UInt8) (h : FragmentSlots stream bytes.length)
    (hlength : bytes.length < 65536) (htakes : TakesFragments stream bytes.length)
    (hoffset : stream.offset % 4 = 0) (hfirst : firstFragmentBufferSize stream % 4 = 0)
    (ub : UcdrBuffer) :
    ∃ r payloads, uxrPrepareReliableBufferToWrite stream bytes.length ub = some r ∧
      r.availableToWrite = true ∧ payloads.flatten = bytes ∧
      HoldsFragments stream (ucdrArrayToBuffer onFullOutputBuffer bytes r.stream r.ub).1
        (firstFragmentSeqNum stream) payloads := by
  have hF : firstFragmentSeqNum stream = seqOf (firstFragmentSeqNum stream).val :=
    (seqOf_self _).symm
  have hlength' : LengthFits stream bytes.length := lengthFits_of_lt hlength
  obtain ⟨ub', hprepare, hwindow, -⟩ := h.prepare_eq hlength' htakes ub
  have hcount := h.length_cutPayloads hlength' htakes
  have hflatten := h.flatten_cutPayloads hlength' htakes
  have hfit := h.cutPayloads_fit hlength' htakes
  have hadd : ∀ k, uxrSeqNumAdd (firstFragmentSeqNum stream) k =
      seqOf ((firstFragmentSeqNum stream).val + k) := by
    intro k
    rw [← uxrSeqNumAdd_seqOf, seqOf_self]
  refine ⟨_, cutPayloads stream bytes, hprepare, rfl, hflatten, ?_⟩
  rw [h.stored_eq hlength' htakes hwindow]
  refine ⟨List.ne_nil_of_length_pos (by omega), ?_, ?_, fun k hk => ?_⟩
  · rw [hadd, hcount, Nat.add_sub_cancel, lastWritten_withBase, layFragments_lastWritten hF]
  · intro payload hmem
    have hle := (List.sublist_flatten_of_mem hmem).length_le
    rw [hflatten] at hle
    omega
  · have hk' : k ≤ necessaryCompleteBlocks stream bytes.length := by omega
    rw [hadd]
    dsimp only
    rw [storeChunks_bufferSize hfit, h.layFragments_bufferSize hlength' htakes hk',
      h.stored_slotBytes hlength' htakes hoffset hfirst hk, h.bufferSize_eq hk',
      h.length_getElem_cutPayloads hlength' htakes hk]
    have hflags : announcedFlags stream bytes.length k =
        if k + 1 = (cutPayloads stream bytes).length then flagLastFragment ||| 1 else 1 := by
      unfold announcedFlags
      rw [hcount]
      simp only [Nat.add_right_cancel_iff]
    rw [hflags]

end RoundTrip

/-- Sixteen bytes take both slots of a fresh stream. -/
lemma freshStream_fragmentSlots : FragmentSlots freshStream 16 where
  room := by decide
  enough := by decide
  turn := .inl (by decide)
  first := .inl (by decide)
  others k hpos hle := by
    have hn : necessaryCompleteBlocks freshStream 16 = 1 := by decide
    obtain rfl : k = 1 := by omega
    decide

/-- Sixteen zeros written to a fresh stream. -/
theorem fragments_hold_freshStream :
    ∃ r payloads, uxrPrepareReliableBufferToWrite freshStream 16 (ucdrInitBuffer 0 0) = some r ∧
      r.availableToWrite = true ∧ payloads.flatten = List.replicate 16 (0 : UInt8) ∧
      HoldsFragments freshStream
        (ucdrArrayToBuffer onFullOutputBuffer (List.replicate 16 0) r.stream r.ub).1
        (firstFragmentSeqNum freshStream) payloads :=
  fragments_hold (List.replicate 16 0) freshStream_fragmentSlots (by decide) (by decide)
    (by decide) (by decide) (ucdrInitBuffer 0 0)

end XrceDds
