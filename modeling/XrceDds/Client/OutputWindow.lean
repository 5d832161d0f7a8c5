import XrceDds.Client.FragmentBlocks

/-!
# The window of an output reliable stream

An output stream has acknowledged all positions up to `a`, sent all up to `s` and is
filling `w`.  Its slots hold the positions of the window `(a, a + history]`.  The
invariant `OutputWindow` says which of these slots are in use.  The window counts
positions, of which the stream stores the residues modulo `2 ^ 16`; two positions of the
window may then share a slot when the history is not a power of two, and
`SlotsDistinct` excludes that.

The initial positions are one turn up, where every position has a predecessor.
-/

namespace XrceDds

/-- The `history` positions behind `a` lie in different slots. -/
def SlotsDistinct (history a : ℕ) : Prop :=
  ∀ X Y, a < X → X ≤ a + history → a < Y → Y ≤ a + history →
    slotOf history X = slotOf history Y → X = Y

/-- Slots depend on the residue of a position. -/
lemma slotOf_mod (history X : ℕ) : slotOf history (X % 65536) = slotOf history X := by
  simp [slotOf, seqOf_val]

/-- Every slot is one of the `history` slots. -/
lemma slotOf_lt {history : ℕ} (h : 0 < history) (X : ℕ) : slotOf history X < history :=
  Nat.mod_lt _ h

/-- When the history divides a turn, slots follow the positions. -/
lemma slotOf_of_dvd {history : ℕ} (h : history ∣ 65536) (X : ℕ) :
    slotOf history X = X % history := Nat.mod_mod_of_dvd X h

/-- A history that divides a turn keeps the positions of every window apart. -/
theorem slotsDistinct_of_dvd {history : ℕ} (h : history ∣ 65536) (a : ℕ) :
    SlotsDistinct history a := by
  intro X Y hX hX' hY hY' heq
  rw [slotOf_of_dvd h, slotOf_of_dvd h] at heq
  exact (SerialNumber.mod_eq_mod_iff (by omega) (by omega)).mp heq

/-- A window that starts a turn keeps its positions apart. -/
theorem slotsDistinct_start {history : ℕ} (h : history < 65536) :
    SlotsDistinct history 65535 := by
  intro X Y hX hX' hY hY' heq
  have hres : ∀ Z, 65535 < Z → Z ≤ 65535 + history → slotOf history Z = Z - 65536 := by
    intro Z hZ hZ'
    unfold slotOf
    rw [seqOf_val, show Z % 65536 = Z - 65536 by omega]
    exact Nat.mod_eq_of_lt (by omega)
  rw [hres X hX hX', hres Y hY hY'] at heq
  omega

/-- The window of `a` as far as the stream can see it: the residue of `a`. -/
lemma slotsDistinct_mod {history a : ℕ} :
    SlotsDistinct history (a % 65536) ↔ SlotsDistinct history a := by
  have shift : ∀ Z, slotOf history (Z + (a - a % 65536)) = slotOf history Z := by
    intro Z
    rw [← slotOf_mod history (Z + _), ← slotOf_mod history Z]
    congr 1
    omega
  have hle : a % 65536 ≤ a := Nat.mod_le _ _
  constructor
  · intro h X Y hX hX' hY hY' heq
    have := h (X - (a - a % 65536)) (Y - (a - a % 65536)) (by omega) (by omega) (by omega)
      (by omega) (by
        rw [← shift (X - _), ← shift (Y - _), Nat.sub_add_cancel (by omega),
          Nat.sub_add_cancel (by omega)]
        exact heq)
    omega
  · intro h X Y hX hX' hY hY' heq
    have := h (X + (a - a % 65536)) (Y + (a - a % 65536)) (by omega) (by omega) (by omega)
      (by omega) (by rw [shift, shift]; exact heq)
    omega

/-- The positions of a stream and the use of its slots: acknowledged up to `a`, sent up to
`s`, filling `w`. -/
structure OutputWindow (stream : OutputReliableStream) (a s w : ℕ) : Prop where
  lastAcknown_eq : stream.lastAcknown = seqOf a
  lastSent_eq : stream.lastSent = seqOf s
  lastWritten_eq : stream.lastWritten = seqOf w
  acknown_le : a ≤ s
  sent_lt : s < w
  written_le : w ≤ a + stream.base.history + 1
  room : stream.offset + 2 * subheaderSize < uxrGetReliableBufferCapacity stream.base
  distinct : SlotsDistinct stream.base.history a
  /-- The positions before the one being filled hold messages. -/
  used : ∀ X, a < X → X < w →
    stream.offset < uxrGetReliableBufferSize stream.base (seqOf X) ∧
      uxrGetReliableBufferSize stream.base (seqOf X) ≤ uxrGetReliableBufferCapacity stream.base
  /-- The position being filled may be empty. -/
  current : w ≤ a + stream.base.history →
    stream.offset ≤ uxrGetReliableBufferSize stream.base (seqOf w) ∧
      uxrGetReliableBufferSize stream.base (seqOf w) ≤ uxrGetReliableBufferCapacity stream.base
  /-- The slots of no other position are in use. -/
  empty : ∀ j, (∀ X, a < X → X ≤ w → X ≤ a + stream.base.history →
      slotOf stream.base.history X ≠ j % stream.base.history) →
    uxrGetReliableBufferSize stream.base j = stream.offset

namespace OutputWindow

variable {stream : OutputReliableStream} {a s w : ℕ}

/-- The positions of the window behind the one being filled are empty. -/
lemma size_of_gt (h : OutputWindow stream a s w) {X : ℕ} (hX : w < X)
    (hX' : X ≤ a + stream.base.history) :
    uxrGetReliableBufferSize stream.base (seqOf X) = stream.offset := by
  have := h.acknown_le
  have := h.sent_lt
  apply h.empty
  intro Y hY hYw hY' heq
  have := h.distinct Y X hY hY' (by omega) hX' heq
  omega

/-- No position of the window has outgrown its slot. -/
lemma size_le (h : OutputWindow stream a s w) {X : ℕ} (hX : a < X)
    (hX' : X ≤ a + stream.base.history) :
    uxrGetReliableBufferSize stream.base (seqOf X) ≤ uxrGetReliableBufferCapacity stream.base := by
  have hroom := h.room
  rcases lt_trichotomy X w with hlt | rfl | hgt
  · exact (h.used X hX hlt).2
  · exact (h.current hX').2
  · rw [h.size_of_gt hgt hX']
    omega

/-- No slot holds less than the room for a session header, and none has outgrown itself. -/
lemma bufferSize_bounds (h : OutputWindow stream a s w) (j : ℕ) :
    stream.offset ≤ uxrGetReliableBufferSize stream.base j ∧
      uxrGetReliableBufferSize stream.base j ≤ uxrGetReliableBufferCapacity stream.base := by
  by_cases hj : ∃ X, a < X ∧ X ≤ w ∧ X ≤ a + stream.base.history ∧
      slotOf stream.base.history X = j % stream.base.history
  · obtain ⟨X, hX, hXw, hX', heq⟩ := hj
    rw [← uxrGetReliableBufferSize_congr heq]
    rcases Nat.lt_or_eq_of_le hXw with hlt | rfl
    · exact ⟨(h.used X hX hlt).1.le, (h.used X hX hlt).2⟩
    · exact h.current hX'
  · have hroom := h.room
    rw [h.empty j fun X hX hXw hX' heq => hj ⟨X, hX, hXw, hX', heq⟩]
    omega

/-- An offset is a value of `length_t`. -/
lemma offset_lt (h : OutputWindow stream a s w) : stream.offset < 4294967296 := by
  have := capacity_lt stream.base
  have := h.room
  omega

/-- The comparison that opens a slot finds it inside the window. -/
lemma le_of_available (h : OutputWindow stream a s w) {X : ℕ} (hX : X ≤ w + 1)
    (hcmp : 0 ≥ uxrSeqNumCmp (seqOf X) (uxrSeqNumAdd stream.lastAcknown stream.base.history)) :
    X ≤ a + stream.base.history := by
  have := h.written_le
  rw [h.lastAcknown_eq, uxrSeqNumAdd_seqOf] at hcmp
  exact le_of_uxrSeqNumCmp_nonpos hcmp (by omega)

/-- Fields other than the window counters and the slots do not matter. -/
lemma congr {stream' : OutputReliableStream} (h : OutputWindow stream a s w)
    (hbase : stream'.base = stream.base) (hoffset : stream'.offset = stream.offset)
    (ha : stream'.lastAcknown = stream.lastAcknown) (hs : stream'.lastSent = stream.lastSent)
    (hw : stream'.lastWritten = stream.lastWritten) : OutputWindow stream' a s w := by
  obtain ⟨h₁, h₂, h₃, h₄, h₅, h₆, h₇, h₈, h₉, h₁₀, h₁₁⟩ := h
  constructor <;> (try simp only [hbase, hoffset, ha, hs, hw]) <;> assumption

/-- Bytes of the bodies do not matter, only the sizes do. -/
lemma withBase (h : OutputWindow stream a s w) {base : ReliableStream}
    (hsize : base.size = stream.base.size) (hhistory : base.history = stream.base.history)
    (hsizes : ∀ j, uxrGetReliableBufferSize base j = uxrGetReliableBufferSize stream.base j) :
    OutputWindow { stream with base := base } a s w := by
  have hcap : uxrGetReliableBufferCapacity base = uxrGetReliableBufferCapacity stream.base := by
    unfold uxrGetReliableBufferCapacity
    rw [hsize, hhistory]
  obtain ⟨h₁, h₂, h₃, h₄, h₅, h₆, h₇, h₈, h₉, h₁₀, h₁₁⟩ := h
  constructor <;> (try simp only [hhistory, hcap, hsizes]) <;> assumption

/-! ## Start -/

/-- The loop over all slots keeps the buffer's layout. -/
lemma setAllSizes_frame (len n : ℕ) (base : ReliableStream) :
    (setAllSizes len n base).size = base.size ∧ (setAllSizes len n base).history =
      base.history := by
  induction n with
  | zero => exact ⟨rfl, rfl⟩
  | succ n ih => exact ih

/-- The loop over all slots gives them the same size. -/
lemma setAllSizes_bufferSize {len : ℕ} (hlen : len < 4294967296) (base : ReliableStream) {n j : ℕ}
    (hn : n ≤ base.history) (hj : j % base.history < n) :
    uxrGetReliableBufferSize (setAllSizes len n base) j = len := by
  induction n with
  | zero => omega
  | succ n ih =>
    have hhistory := (setAllSizes_frame len n base).2
    rw [setAllSizes, uxrGetReliableBufferSize_setSize _ hlen, hhistory,
      Nat.mod_eq_of_lt (show n < base.history by omega)]
    split
    · rfl
    · exact ih (by omega) (by omega)

/-- A stream starts with an empty window. -/
theorem reset (stream : OutputReliableStream)
    (hroom : stream.offset + 2 * subheaderSize < uxrGetReliableBufferCapacity stream.base) :
    OutputWindow (uxrResetOutputReliableStream stream) 65535 65535 65536 := by
  have hframe := setAllSizes_frame stream.offset stream.base.history stream.base
  have hcap : uxrGetReliableBufferCapacity
      (setAllSizes stream.offset stream.base.history stream.base) =
        uxrGetReliableBufferCapacity stream.base := by
    unfold uxrGetReliableBufferCapacity
    rw [hframe.1, hframe.2]
  have hlt := stream.base.history_lt
  have hpos := stream.base.history_pos
  have hcaplt := capacity_lt stream.base
  have hempty : ∀ j, uxrGetReliableBufferSize
      (setAllSizes stream.offset stream.base.history stream.base) j = stream.offset := fun j =>
    setAllSizes_bufferSize (by omega) _ le_rfl (Nat.mod_lt _ hpos)
  constructor
  case lastAcknown_eq => exact seqNumMax_eq
  case lastSent_eq => exact seqNumMax_eq
  case lastWritten_eq => rfl
  case acknown_le => exact le_rfl
  case sent_lt => decide
  case written_le =>
    simp only [uxrResetOutputReliableStream, hframe.2]
    omega
  case room => simpa only [uxrResetOutputReliableStream, hcap] using hroom
  case distinct =>
    simp only [uxrResetOutputReliableStream, hframe.2]
    exact slotsDistinct_start hlt
  case used => intro X hX hX'; omega
  case current =>
    intro _
    simp only [uxrResetOutputReliableStream, hempty, hcap]
    omega
  case empty => exact fun j _ => hempty j

/-! ## Plain writes -/

/-- A write behind what the current slot holds keeps the window. -/
theorem writeCurrent (h : OutputWindow stream a s w) (hw : w ≤ a + stream.base.history) {len : ℕ}
    (hge : uxrGetReliableBufferSize stream.base (seqOf w) ≤ len)
    (hle : len ≤ uxrGetReliableBufferCapacity stream.base) :
    OutputWindow (stream.writtenTo (uxrSetReliableBufferSize stream.base (seqOf w) len) (seqOf w))
      a s w := by
  have hcap := capacity_lt stream.base
  have hcurrent := h.current hw
  have hacknown := h.acknown_le
  have hsent := h.sent_lt
  have hsize : ∀ j, j % stream.base.history ≠ slotOf stream.base.history w →
      uxrGetReliableBufferSize (uxrSetReliableBufferSize stream.base (seqOf w) len) j =
        uxrGetReliableBufferSize stream.base j := fun j hj =>
    uxrGetReliableBufferSize_setSize_of_ne _ fun heq => hj heq.symm
  have hsame : uxrGetReliableBufferSize (uxrSetReliableBufferSize stream.base (seqOf w) len)
      (seqOf w) = len := uxrGetReliableBufferSize_setSize_same _ (by omega)
  refine { h with lastWritten_eq := rfl, used := ?_, current := ?_, empty := ?_ }
  · intro X hX hXw
    have hne : slotOf stream.base.history X ≠ slotOf stream.base.history w := fun heq => by
      have := h.distinct X w hX (by omega) (by omega) hw heq
      omega
    simp only [OutputReliableStream.writtenTo, hsize _ hne]
    exact h.used X hX hXw
  · intro _
    simp only [OutputReliableStream.writtenTo, hsame]
    exact ⟨hcurrent.1.trans hge, hle⟩
  · intro j hj
    simp only [OutputReliableStream.writtenTo,
      hsize j fun heq => hj w (by omega) le_rfl hw heq.symm]
    exact h.empty j hj

/-- A write into a new slot moves the window's end by one. -/
theorem writeNext (h : OutputWindow stream a s w) (hw : w + 1 ≤ a + stream.base.history) {len : ℕ}
    (hused : stream.offset < uxrGetReliableBufferSize stream.base (seqOf w))
    (hge : stream.offset ≤ len) (hle : len ≤ uxrGetReliableBufferCapacity stream.base) :
    OutputWindow
      (stream.writtenTo (uxrSetReliableBufferSize stream.base (seqOf (w + 1)) len)
        (seqOf (w + 1))) a s (w + 1) := by
  have hcap := capacity_lt stream.base
  have hacknown := h.acknown_le
  have hsent := h.sent_lt
  have hsize : ∀ j, j % stream.base.history ≠ slotOf stream.base.history (w + 1) →
      uxrGetReliableBufferSize (uxrSetReliableBufferSize stream.base (seqOf (w + 1)) len) j =
        uxrGetReliableBufferSize stream.base j := fun j hj =>
    uxrGetReliableBufferSize_setSize_of_ne _ fun heq => hj heq.symm
  have hsame : uxrGetReliableBufferSize (uxrSetReliableBufferSize stream.base (seqOf (w + 1)) len)
      (seqOf (w + 1)) = len := uxrGetReliableBufferSize_setSize_same _ (by omega)
  refine { h with lastWritten_eq := rfl, sent_lt := by omega,
                  written_le := show w + 1 ≤ a + stream.base.history + 1 by omega,
                  used := ?_, current := ?_, empty := ?_ }
  · intro X hX hXw
    have hne : slotOf stream.base.history X ≠ slotOf stream.base.history (w + 1) := fun heq => by
      have := h.distinct X (w + 1) hX (by omega) (by omega) hw heq
      omega
    simp only [OutputReliableStream.writtenTo, hsize _ hne]
    rcases Nat.lt_succ_iff_lt_or_eq.mp hXw with hlt | rfl
    · exact h.used X hX hlt
    · exact ⟨hused, h.size_le hX (by omega)⟩
  · intro _
    simp only [OutputReliableStream.writtenTo, hsame]
    exact ⟨hge, hle⟩
  · intro j hj
    simp only [OutputReliableStream.writtenTo,
      hsize j fun heq => hj (w + 1) (by omega) le_rfl hw heq.symm]
    exact h.empty j fun X hX hXw => hj X hX (by omega)

/-! ## Fragmented writes -/

/-- The position of the first fragment of a write. -/
def firstFragment (stream : OutputReliableStream) (w : ℕ) : ℕ :=
  if currentSlotFull stream then w + 1 else w

end OutputWindow

/-- How many sequence numbers after the last acknowledged one are taken before the first
fragment of a write. -/
def takenSeqNums (stream : OutputReliableStream) : ℕ :=
  uxrSeqNumSub stream.lastWritten (uxrSeqNumAdd stream.lastAcknown 1) +
    if currentSlotFull stream then 1 else 0

/-- The fragments of a write, the last one included, lie in the window.  Without a
complete block the last fragment is written over the slot of the first, and must not make
it shorter. -/
def FragmentsFit (stream : OutputReliableStream) (length : ℕ) : Prop :=
  takenSeqNums stream + necessaryCompleteBlocks stream length < stream.base.history ∧
    (necessaryCompleteBlocks stream length = 0 →
      firstFragmentBufferSize stream ≤ stream.offset + subheaderSize + availableBlockSize stream)

instance (stream : OutputReliableStream) (length : ℕ) : Decidable (FragmentsFit stream length) := by
  unfold FragmentsFit; infer_instance

/-- The last fragment is not longer than a block, and is not empty. -/
lemma lastFragmentSize_bounds {stream : OutputReliableStream} (length : ℕ)
    (hblock : availableBlockSize stream ≠ 0) :
    0 < lastFragmentSize stream length ∧
      lastFragmentSize stream length ≤ availableBlockSize stream := by
  have hlt := Nat.mod_lt (remainingSize stream length) (Nat.pos_of_ne_zero hblock)
  unfold lastFragmentSize
  split <;> omega

/-- Without a complete block the last fragment is a whole block. -/
lemma lastFragmentSize_of_no_block {stream : OutputReliableStream} {length : ℕ}
    (h : necessaryCompleteBlocks stream length = 0) :
    lastFragmentSize stream length = availableBlockSize stream := by
  unfold necessaryCompleteBlocks at h
  unfold lastFragmentSize
  split at h
  · next hexact => exact if_pos hexact
  · exact absurd h (Nat.succ_ne_zero _)

namespace OutputWindow

variable {stream : OutputReliableStream} {a s w : ℕ}

/-- A block fits in a slot. -/
lemma availableBlockSize_le (h : OutputWindow stream a s w) :
    stream.offset + subheaderSize + availableBlockSize stream ≤
      uxrGetReliableBufferCapacity stream.base := by
  have hroom := h.room
  simp only [availableBlockSize, u16Sub, subheaderSize] at *
  omega

/-- The first fragment is at its position. -/
lemma firstFragmentSeqNum_eq (h : OutputWindow stream a s w) :
    firstFragmentSeqNum stream = seqOf (firstFragment stream w) := by
  unfold firstFragmentSeqNum firstFragment
  rw [h.lastWritten_eq]
  split
  · exact uxrSeqNumAdd_seqOf w 1
  · rfl

/-- The first fragment is at the current position or the one after it. -/
lemma le_firstFragment (stream : OutputReliableStream) (w : ℕ) :
    w ≤ firstFragment stream w ∧ firstFragment stream w ≤ w + 1 := by
  unfold firstFragment
  split <;> omega

/-- The sequence numbers taken before the first fragment, counted in positions. -/
lemma takenSeqNums_eq (h : OutputWindow stream a s w) :
    a + takenSeqNums stream + 1 = firstFragment stream w := by
  have hlt := stream.base.history_lt
  have hacknown := h.acknown_le
  have hsent := h.sent_lt
  have hwritten := h.written_le
  have hsub : (uxrSeqNumSub (seqOf (a + 1 + (w - (a + 1)))) (seqOf (a + 1))).val = w - (a + 1) :=
    uxrSeqNumSub_seqOf_val (by omega)
  rw [Nat.add_sub_cancel' (by omega)] at hsub
  unfold takenSeqNums firstFragment
  rw [h.lastWritten_eq, h.lastAcknown_eq, uxrSeqNumAdd_seqOf, hsub]
  split <;> omega

/-- The window ends behind the last fragment exactly when the fragments fit. -/
lemma firstFragment_add_le (h : OutputWindow stream a s w) {length : ℕ}
    (hfit : FragmentsFit stream length) :
    firstFragment stream w + necessaryCompleteBlocks stream length ≤ a + stream.base.history := by
  have := h.takenSeqNums_eq
  have := hfit.1
  omega

/-- Fragments that fit are ready to be written. -/
theorem fragmentsReady (h : OutputWindow stream a s w) {length : ℕ}
    (hfit : FragmentsFit stream length) :
    FragmentsReady stream length (firstFragment stream w) := by
  have hacknown := h.acknown_le
  have hsent := h.sent_lt
  have hfirst := le_firstFragment stream w
  have hlast := h.firstFragment_add_le hfit
  constructor
  · intro j hj k hk heq
    have := h.distinct _ _ (by omega) (by omega) (by omega) (by omega) heq
    omega
  · intro k hk
    exact h.size_le (by omega) (by omega)

/-- A position of the window that is no fragment's keeps its slot. -/
lemma not_blockSlots (h : OutputWindow stream a s w) {length X : ℕ}
    (hfit : FragmentsFit stream length) (hX : a < X) (hX' : X ≤ a + stream.base.history)
    (hout : X < firstFragment stream w ∨
      firstFragment stream w + necessaryCompleteBlocks stream length < X) :
    ¬ BlockSlots stream.base.history (firstFragment stream w)
      (necessaryCompleteBlocks stream length + 1) (slotOf stream.base.history X) := by
  have hacknown := h.acknown_le
  have hsent := h.sent_lt
  have hfirst := le_firstFragment stream w
  have hlast := h.firstFragment_add_le hfit
  rintro ⟨k, hk, heq⟩
  have := h.distinct X _ hX hX' (by omega) (by omega) heq
  omega

/-- A slot that is too full for a fragment is in use. -/
lemma lt_size_of_full (h : OutputWindow stream a s w) (hfull : currentSlotFull stream) :
    stream.offset < uxrGetReliableBufferSize stream.base (seqOf w) := by
  have hroom := h.room
  unfold currentSlotFull at hfull
  rw [h.lastWritten_eq] at hfull
  simp only [subheaderSize] at *
  omega

/-- The positions before the first fragment are in use. -/
lemma used_of_lt_firstFragment (h : OutputWindow stream a s w) {X : ℕ} (hX : a < X)
    (hlt : X < firstFragment stream w) :
    stream.offset < uxrGetReliableBufferSize stream.base (seqOf X) := by
  unfold firstFragment at hlt
  split at hlt
  · next hfull =>
    rcases Nat.lt_succ_iff_lt_or_eq.mp hlt with hlt | rfl
    · exact (h.used X hX hlt).1
    · exact h.lt_size_of_full hfull
  · exact (h.used X hX hlt).1

/-- A fragmented write that fits moves the window's end behind its last fragment. -/
theorem layFragments (h : OutputWindow stream a s w) {length : ℕ}
    (hblock : availableBlockSize stream ≠ 0) (hfit : FragmentsFit stream length) :
    OutputWindow (layFragments stream length) a s
      (firstFragment stream w + necessaryCompleteBlocks stream length) := by
  have hacknown := h.acknown_le
  have hsent := h.sent_lt
  have hfirst := le_firstFragment stream w
  have hlast := h.firstFragment_add_le hfit
  have hF := h.firstFragmentSeqNum_eq
  have hready := h.fragmentsReady hfit
  have honly := layFragments_onlySlots hF hready
  have hbounds := lastFragmentSize_bounds length hblock
  have hblockle := h.availableBlockSize_le
  have hroom := h.room
  have hcap := capacity_lt stream.base
  have hlastsize := layFragments_bufferSize_last hF length (by omega)
  have hout := fun X hX hX' hout =>
    honly.bufferSize_eq _ (h.not_blockSlots hfit (X := X) hX hX' hout)
  constructor
  case lastAcknown_eq => rw [layFragments_lastAcknown, h.lastAcknown_eq]
  case lastSent_eq => rw [layFragments_lastSent, h.lastSent_eq]
  case lastWritten_eq => exact layFragments_lastWritten hF length
  case acknown_le => exact hacknown
  case sent_lt => omega
  case written_le =>
    rw [honly.history_eq]
    omega
  case room =>
    rw [honly.capacity_eq, layFragments_offset]
    exact hroom
  case distinct =>
    rw [honly.history_eq]
    exact h.distinct
  case used =>
    intro X hX hXlast
    rw [honly.capacity_eq, layFragments_offset]
    rcases Nat.lt_or_ge X (firstFragment stream w) with hlt | hge
    · rw [hout X hX (by omega) (.inl hlt)]
      exact ⟨h.used_of_lt_firstFragment hX hlt, h.size_le hX (by omega)⟩
    · obtain ⟨k, rfl⟩ := Nat.exists_eq_add_of_le hge
      rw [layFragments_bufferSize_of_lt hF hready (by omega)]
      exact ⟨by omega, le_rfl⟩
  case current =>
    intro _
    rw [hlastsize, honly.capacity_eq, layFragments_offset]
    omega
  case empty =>
    intro j hj
    rw [honly.history_eq] at hj
    rw [honly.bufferSize_eq j, layFragments_offset]
    · exact h.empty j fun X hX hXw => hj X hX (by omega)
    · rintro ⟨k, hk, heq⟩
      exact hj (firstFragment stream w + k) (by omega) (by omega) (by omega) heq.symm

/-! ## Sending -/

/-- The position being filled after the one behind `s` was sent. -/
def writtenAfterSend (s w : ℕ) : ℕ := if s + 1 = w then w + 1 else w

/-- The stream after the position behind `s` was sent. -/
def sentNext (stream : OutputReliableStream) (s w : ℕ) : OutputReliableStream :=
  { stream with lastSent := seqOf (s + 1), lastWritten := seqOf (writtenAfterSend s w) }

/-- What is sent next, by the positions of the stream: the one behind the last one sent, when
its slot holds a message and the window reaches it. -/
theorem prepareNext_of_positions (ha : stream.lastAcknown = seqOf a)
    (hs : stream.lastSent = seqOf s) (hw : stream.lastWritten = seqOf w) (hacknown : a ≤ s)
    (hsent : s < w) (hwritten : w ≤ a + stream.base.history + 1)
    (hsend : (uxrPrepareNextReliableBufferToSend stream).dataToSend) :
    s + 1 ≤ a + stream.base.history ∧
      stream.offset < uxrGetReliableBufferSize stream.base (seqOf (s + 1)) ∧
      uxrPrepareNextReliableBufferToSend stream =
        { buffer := uxrGetReliableBuffer stream.base (seqOf (s + 1))
          length := uxrGetReliableBufferSize stream.base (seqOf (s + 1))
          seqNum := seqOf (s + 1)
          dataToSend := true
          stream := sentNext stream s w } := by
  have hlt := stream.base.history_lt
  have hsub : (uxrSeqNumSub (seqOf (a + (s - a))) (seqOf a)).val = s - a :=
    uxrSeqNumSub_seqOf_val (by omega)
  rw [Nat.add_sub_cancel' hacknown] at hsub
  have heq : seqOf (s + 1) = seqOf w ↔ s + 1 = w := by
    rw [Fin.ext_iff]
    exact SerialNumber.mod_eq_mod_iff (by omega) (by omega)
  unfold uxrPrepareNextReliableBufferToSend at hsend ⊢
  simp only [hs, ha, hw, uxrSeqNumAdd_seqOf, hsub, heq] at hsend ⊢
  have hcond := of_decide_eq_true hsend
  refine ⟨by omega, hcond.2.1, ?_⟩
  simp only [hsend, if_true, sentNext, writtenAfterSend]
  split <;> rw [ha]

/-- What is sent next: the position behind the last one sent, when its slot holds a message
and the window reaches it. -/
theorem prepareNext_eq (h : OutputWindow stream a s w)
    (hsend : (uxrPrepareNextReliableBufferToSend stream).dataToSend) :
    s + 1 ≤ a + stream.base.history ∧
      stream.offset < uxrGetReliableBufferSize stream.base (seqOf (s + 1)) ∧
      uxrPrepareNextReliableBufferToSend stream =
        { buffer := uxrGetReliableBuffer stream.base (seqOf (s + 1))
          length := uxrGetReliableBufferSize stream.base (seqOf (s + 1))
          seqNum := seqOf (s + 1)
          dataToSend := true
          stream := sentNext stream s w } :=
  prepareNext_of_positions h.lastAcknown_eq h.lastSent_eq h.lastWritten_eq h.acknown_le h.sent_lt
    h.written_le hsend

/-- Sending moves the last position sent by one, and the position being filled out of its
way. -/
theorem prepareNext (h : OutputWindow stream a s w) (hwindow : s + 1 ≤ a + stream.base.history)
    (hlength : stream.offset < uxrGetReliableBufferSize stream.base (seqOf (s + 1))) :
    OutputWindow (sentNext stream s w) a (s + 1) (writtenAfterSend s w) := by
  have hacknown := h.acknown_le
  have hsent := h.sent_lt
  unfold sentNext writtenAfterSend
  by_cases hlast : s + 1 = w
  · rw [if_pos hlast]
    refine { h with lastSent_eq := rfl, lastWritten_eq := rfl, acknown_le := by omega,
                    sent_lt := by omega, written_le := by dsimp only; omega, used := ?_,
                    current := ?_, empty := ?_ }
    · intro X hX hXw
      rcases Nat.lt_succ_iff_lt_or_eq.mp hXw with hlt | rfl
      · exact h.used X hX hlt
      · exact ⟨by rwa [hlast] at hlength, (h.current (by omega)).2⟩
    · intro hw
      have hsize := h.size_of_gt (Nat.lt_succ_self w) hw
      have hroom := h.room
      simp only [hsize]
      omega
    · exact fun j hj => h.empty j fun X hX hXw => hj X hX (by omega)
  · rw [if_neg hlast]
    exact { h with lastSent_eq := rfl, lastWritten_eq := rfl, acknown_le := by omega,
                   sent_lt := by omega }

/-! ## Acknowledgements -/

/-- The slots of the `n` positions behind `a`. -/
def CleanedSlots (history a n : ℕ) (i : ℕ) : Prop := ∃ k < n, i = slotOf history (a + 1 + k)

/-- What the cleaning loop leaves as it is. -/
lemma cleanBuffers_frame (n : ℕ) (stream : OutputReliableStream) :
    (cleanBuffers n stream).base.size = stream.base.size ∧
      (cleanBuffers n stream).base.history = stream.base.history ∧
      (cleanBuffers n stream).offset = stream.offset ∧
      (cleanBuffers n stream).lastSent = stream.lastSent ∧
      (cleanBuffers n stream).lastWritten = stream.lastWritten := by
  induction n generalizing stream with
  | zero => exact ⟨rfl, rfl, rfl, rfl, rfl⟩
  | succ n ih => exact ih _

/-- One cleaning step counts `lastAcknown` up. -/
lemma cleanBuffer_lastAcknown (stream : OutputReliableStream) {a : ℕ}
    (ha : stream.lastAcknown = seqOf a) : (cleanBuffer stream).lastAcknown = seqOf (a + 1) := by
  simp only [cleanBuffer, ha, uxrSeqNumAdd_seqOf]

/-- One cleaning step sets one size. -/
lemma cleanBuffer_base (stream : OutputReliableStream) {a : ℕ}
    (ha : stream.lastAcknown = seqOf a) :
    (cleanBuffer stream).base =
      uxrSetReliableBufferSize stream.base (seqOf (a + 1)) stream.offset := by
  simp only [cleanBuffer, ha, uxrSeqNumAdd_seqOf]

/-- The cleaning loop counts `lastAcknown` up. -/
lemma cleanBuffers_lastAcknown (n : ℕ) (stream : OutputReliableStream) {a : ℕ}
    (ha : stream.lastAcknown = seqOf a) : (cleanBuffers n stream).lastAcknown = seqOf (a + n) := by
  induction n generalizing stream a with
  | zero => exact ha
  | succ n ih =>
    rw [cleanBuffers, ih _ (cleanBuffer_lastAcknown stream ha), Nat.add_assoc, Nat.add_comm 1]

/-- The slots cleaned behind the first one. -/
lemma CleanedSlots.succ {history a n i : ℕ} (h : CleanedSlots history (a + 1) n i) :
    CleanedSlots history a (n + 1) i := by
  obtain ⟨k, hk, rfl⟩ := h
  exact ⟨k + 1, by omega, by rw [show a + 1 + 1 + k = a + 1 + (k + 1) by omega]⟩

/-- The cleaning loop changes the slots it walks over only. -/
lemma cleanBuffers_onlySlots (n : ℕ) (stream : OutputReliableStream) {a : ℕ}
    (ha : stream.lastAcknown = seqOf a) :
    OnlySlots stream.base (cleanBuffers n stream).base
      (CleanedSlots stream.base.history a n) := by
  induction n generalizing stream a with
  | zero => exact .refl _ _
  | succ n ih =>
    have hone := OnlySlots.setSize stream.base (seqOf (a + 1)) stream.offset
    have hrest := ih (cleanBuffer stream) (cleanBuffer_lastAcknown stream ha)
    rw [cleanBuffer_base stream ha] at hrest
    refine (hone.mono ?_).trans (hrest.mono fun i hi => hi.succ)
    rintro i rfl
    exact ⟨0, by omega, rfl⟩

/-- The cleaning loop empties the slots it walks over. -/
lemma cleanBuffers_bufferSize (n : ℕ) (stream : OutputReliableStream) {a j : ℕ}
    (ha : stream.lastAcknown = seqOf a) (hoffset : stream.offset < 4294967296)
    (hj : CleanedSlots stream.base.history a n (j % stream.base.history) ∨
      uxrGetReliableBufferSize stream.base j = stream.offset) :
    uxrGetReliableBufferSize (cleanBuffers n stream).base j = stream.offset := by
  induction n generalizing stream a with
  | zero =>
    rcases hj with ⟨k, hk, _⟩ | hj
    · omega
    · exact hj
  | succ n ih =>
    refine ih (cleanBuffer stream) (cleanBuffer_lastAcknown stream ha) hoffset ?_
    have hsize := uxrGetReliableBufferSize_setSize stream.base (i := seqOf (a + 1)) (j := j) hoffset
    rw [cleanBuffer_base stream ha, hsize]
    by_cases heq : (seqOf (a + 1)).val % stream.base.history = j % stream.base.history
    · exact .inr (if_pos heq)
    · rw [if_neg heq]
      refine hj.imp ?_ id
      rintro ⟨k, hk, hk'⟩
      cases k with
      | zero => exact absurd hk'.symm heq
      | succ k =>
        rw [show a + 1 + (k + 1) = a + 1 + 1 + k by omega] at hk'
        exact ⟨k, by omega, hk'⟩

/-- Acknowledging positions that were sent moves the start of the window. -/
theorem cleanBuffers (h : OutputWindow stream a s w) {a' : ℕ} (hle : a ≤ a') (hle' : a' ≤ s)
    (hdistinct : SlotsDistinct stream.base.history a') :
    OutputWindow (cleanBuffers (a' - a) stream) a' s w := by
  have hsent := h.sent_lt
  have hwritten := h.written_le
  have hroom := h.room
  obtain ⟨hsize, hhistory, hoffset, hs, hw⟩ := cleanBuffers_frame (a' - a) stream
  have honly := cleanBuffers_onlySlots (a' - a) stream h.lastAcknown_eq
  have hclean := fun j => cleanBuffers_bufferSize (a' - a) stream (j := j) h.lastAcknown_eq
    h.offset_lt
  have hkeep : ∀ X, a' < X → X ≤ a + stream.base.history →
      uxrGetReliableBufferSize (XrceDds.cleanBuffers (a' - a) stream).base (seqOf X) =
        uxrGetReliableBufferSize stream.base (seqOf X) := by
    intro X hX hX'
    refine honly.bufferSize_eq _ ?_
    rintro ⟨k, hk, heq⟩
    have := h.distinct X (a + 1 + k) (by omega) hX' (by omega) (by omega) heq
    omega
  have hempty : ∀ j, (∀ X, a' < X → X ≤ w → X ≤ a + stream.base.history →
      slotOf stream.base.history X ≠ j % stream.base.history) →
      uxrGetReliableBufferSize (XrceDds.cleanBuffers (a' - a) stream).base j = stream.offset := by
    intro j hj
    refine hclean j ?_
    by_cases hwalk : CleanedSlots stream.base.history a (a' - a) (j % stream.base.history)
    · exact .inl hwalk
    · refine .inr (h.empty j fun X hX hXw hX' heq => ?_)
      rcases Nat.lt_or_ge a' X with hlt | hge
      · exact hj X hlt hXw hX' heq
      · exact hwalk ⟨X - (a + 1), by omega, by rw [Nat.add_sub_cancel' (by omega), heq]⟩
  constructor
  case lastAcknown_eq =>
    rw [cleanBuffers_lastAcknown _ _ h.lastAcknown_eq, Nat.add_sub_cancel' hle]
  case lastSent_eq => rw [hs, h.lastSent_eq]
  case lastWritten_eq => rw [hw, h.lastWritten_eq]
  case acknown_le => exact hle'
  case sent_lt => exact hsent
  case written_le =>
    rw [hhistory]
    omega
  case room => rwa [hoffset, honly.capacity_eq]
  case distinct => rwa [hhistory]
  case used =>
    intro X hX hXw
    rw [hkeep X hX (by omega), honly.capacity_eq, hoffset]
    exact h.used X (by omega) hXw
  case current =>
    intro hw'
    rw [hhistory] at hw'
    rw [honly.capacity_eq, hoffset]
    rcases Nat.lt_or_ge (a + stream.base.history) w with hlt | hge
    · -- the current position had no slot of its own before
      rw [hempty _ fun X hX hXw hX' heq => by
        have := hdistinct X w hX (by omega) (by omega) hw' heq
        omega]
      omega
    · rw [hkeep w (by omega) hge]
      exact h.current hge
  case empty =>
    intro j hj
    rw [hhistory] at hj
    rw [hoffset]
    exact hempty j fun X hX hXw hX' => hj X hX hXw (by omega)

end OutputWindow

end XrceDds
