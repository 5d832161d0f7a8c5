import XrceDds.Lib.AlignedCodec
import XrceDds.Client.BestEffortStream

/-!
# Serializing values

The functions of Micro-CDR that write the fields of a payload, one behind the other.  Every one of
them returns whether the buffer has failed, and a buffer that has failed takes nothing more: what a
function of `xrce_types.c` returns in `ret` is that the buffer has not failed at its end, and where
it goes on only `if (ret)` it goes on with `ifRet`.

`Serializes` says that a function writes what a layout gives: where there is room these bytes stand
in the window, those that are skipped being left as they are; where there is none, and no callback,
the buffer fails.  `Conveys` adds that a reader on the other side gets the value back. -/

namespace XrceDds

open ByteMemory AlignedCodec

/-- Functions that write into a buffer. -/
abbrev UcdrSerializer (σ : Type) := StateM (σ × UcdrBuffer)

/-- What is done only `if (ret)`. -/
def ifRet {σ : Type} (f : UcdrSerializer σ Unit) : UcdrSerializer σ Unit :=
  fun s => if s.2.error then ((), s) else f s

/-! ## Micro-CDR -/

section

variable {σ : Type} [UcdrMemory σ] (cb : OnFullBuffer σ)

/-- `ucdr_serialize_uint8_t`. -/
def ucdrWriteUint8 (value : UInt8) : UcdrSerializer σ Unit :=
  fun s => ((), ucdrSerializeUint8 cb s.1 s.2 value)

/-- `ucdr_serialize_bool`. -/
def ucdrWriteBool (value : Bool) : UcdrSerializer σ Unit :=
  ucdrWriteUint8 cb (if value then 1 else 0)

/-- A number of `n` bytes, in the endianness of the buffer. -/
def ucdrWriteNumber (n value : ℕ) : UcdrSerializer σ Unit := fun s =>
  ((), serializeBasic cb s.1 (s.2.skip (ucdrBufferAlignment s.2 n))
    (Layout.image (s.2.endianness = .little) n value))

/-- `ucdr_serialize_uint16_t`. -/
def ucdrWriteUint16 (value : UInt16) : UcdrSerializer σ Unit := ucdrWriteNumber cb 2 value.toNat

/-- `ucdr_serialize_int16_t`. -/
def ucdrWriteInt16 (value : Int16) : UcdrSerializer σ Unit := ucdrWriteUint16 cb value.toUInt16

/-- `ucdr_serialize_uint32_t`. -/
def ucdrWriteUint32 (value : UInt32) : UcdrSerializer σ Unit := ucdrWriteNumber cb 4 value.toNat

/-- `ucdr_serialize_int32_t`. -/
def ucdrWriteInt32 (value : Int32) : UcdrSerializer σ Unit := ucdrWriteUint32 cb value.toUInt32

/-- `ucdr_serialize_array_uint8_t`. -/
def ucdrWriteArrayUint8 (array : List UInt8) : UcdrSerializer σ Unit :=
  fun s => ((), ucdrSerializeArrayUint8 cb s.1 s.2 array)

/-- `ucdr_serialize_sequence_uint8_t`. -/
def ucdrWriteSequenceUint8 (array : List UInt8) : UcdrSerializer σ Unit := do
  ucdrWriteUint32 cb (.ofNat array.length)
  ucdrWriteArrayUint8 cb array

/-- `ucdr_serialize_string`: the characters with the zero behind them. -/
def ucdrWriteString (string : List UInt8) : UcdrSerializer σ Unit :=
  ucdrWriteSequenceUint8 cb (string ++ [0])

/-- A loop over a list, which ends when something could not be serialized. -/
def writeEach {α : Type} (f : α → UcdrSerializer σ Unit) : List α → UcdrSerializer σ Unit
  | [] => pure ()
  | a :: as => do
    ifRet (f a)
    writeEach f as

/-- A sequence of elements: its size, and the loop over them. -/
def writeSequence {α : Type} (f : α → UcdrSerializer σ Unit) (as : List α) :
    UcdrSerializer σ Unit := do
  ucdrWriteUint32 cb (.ofNat as.length)
  writeEach f as

/-- A member that is optional: whether it is there, and the member. -/
def writeOptional {α : Type} (f : α → UcdrSerializer σ Unit) (member : Option α) :
    UcdrSerializer σ Unit := do
  ucdrWriteBool cb member.isSome
  match member with
  | some a => f a
  | none => pure ()

end

/-! ## What is written -/

/-- Where a buffer stands in the message. -/
def UcdrBuffer.place (ub : UcdrBuffer) : ℕ := ub.offset - ub.origin

/-- A buffer that has not failed, and stands at a multiple of what it wrote last. -/
structure UcdrBuffer.Settled (endianness : UcdrEndianness) (ub : UcdrBuffer) : Prop where
  noError : ub.error = false
  endianness_eq : ub.endianness = endianness
  origin_le : ub.origin ≤ ub.offset
  iterator_le : ub.iterator ≤ ub.final
  final_lt : ub.final < 18446744073709551616
  aligned : ∀ k, 2 ^ k ≤ ub.lastDataSize → 2 ^ k ∣ ub.place

/-- A buffer after `n` bytes. -/
structure UcdrBuffer.Behind (ub ub' : UcdrBuffer) (n : ℕ) : Prop where
  iterator_eq : ub'.iterator = ub.iterator + n
  offset_eq : ub'.offset = ub.offset + n
  origin_eq : ub'.origin = ub.origin
  final_eq : ub'.final = ub.final
  onFullBuffer_eq : ub'.onFullBuffer = ub.onFullBuffer

/-- What is written is laid out as `w` says. -/
structure Serializes (endianness : UcdrEndianness) (f : UcdrSerializer Memory Unit) (w : Layout) :
    Prop where
  writes : ∀ (m : Memory) (ub : UcdrBuffer), ub.Settled endianness →
    ub.iterator + (w ub.place).length ≤ ub.final →
    (f (m, ub)).2.2.Settled endianness ∧ ub.Behind (f (m, ub)).2.2 (w ub.place).length ∧
      Matches (w ub.place) (read (f (m, ub)).2.1 ub.iterator (w ub.place).length) ∧
      AgreeOff m (f (m, ub)).2.1 ub.iterator (ub.iterator + (w ub.place).length)
  overflows : ∀ (m : Memory) (ub : UcdrBuffer), ub.Settled endianness → ub.onFullBuffer = false →
    ub.final < ub.iterator + (w ub.place).length →
    (f (m, ub)).2.2.error = true ∧ AgreeOff m (f (m, ub)).2.1 ub.iterator ub.final
  stops : ∀ (m : Memory) (ub : UcdrBuffer), ub.error = true →
    (f (m, ub)).2.1 = m ∧ (f (m, ub)).2.2.error = true

namespace UcdrBuffer

variable {endianness : UcdrEndianness} {ub ub' ub'' : UcdrBuffer} {n k : ℕ}

/-- The buffer stands as much further in the message. -/
lemma Behind.place_eq (h : ub.Behind ub' n) (horigin : ub.origin ≤ ub.offset) :
    ub'.place = ub.place + n := by
  unfold place
  rw [h.offset_eq, h.origin_eq]
  omega

/-- One after the other. -/
lemma Behind.trans (h : ub.Behind ub' n) (h' : ub'.Behind ub'' k) : ub.Behind ub'' (n + k) where
  iterator_eq := by rw [h'.iterator_eq, h.iterator_eq, Nat.add_assoc]
  offset_eq := by rw [h'.offset_eq, h.offset_eq, Nat.add_assoc]
  origin_eq := h'.origin_eq.trans h.origin_eq
  final_eq := h'.final_eq.trans h.final_eq
  onFullBuffer_eq := h'.onFullBuffer_eq.trans h.onFullBuffer_eq

/-- Micro-CDR remembers what it wrote last, and aligns as it would without that. -/
lemma Settled.alignment_eq (h : ub.Settled endianness) (j : ℕ) :
    ucdrBufferAlignment ub (2 ^ j) = Layout.gap (2 ^ j) ub.place := by
  unfold ucdrBufferAlignment
  split
  · next hle => rw [Layout.gap_of_dvd (h.aligned j hle)]
  · rfl

/-- A buffer that moved on stands at a multiple of what it wrote last. -/
lemma Settled.move (h : ub.Settled endianness) (hmove : ub.Behind ub' n)
    (hroom : ub.iterator + n ≤ ub.final) (herror : ub'.error = false)
    (hendianness : ub'.endianness = ub.endianness)
    (haligned : ∀ j, 2 ^ j ≤ ub'.lastDataSize → 2 ^ j ∣ ub.place + n) : ub'.Settled endianness where
  noError := herror
  endianness_eq := hendianness.trans h.endianness_eq
  origin_le := by
    rw [hmove.origin_eq, hmove.offset_eq]
    exact Nat.le_add_right_of_le h.origin_le
  iterator_le := by
    rw [hmove.iterator_eq, hmove.final_eq]
    exact hroom
  final_lt := hmove.final_eq.symm ▸ h.final_lt
  aligned j hj := by
    rw [hmove.place_eq h.origin_le]
    exact haligned j hj

end UcdrBuffer

/-- Bytes that are stored behind others that are skipped. -/
lemma matches_store (m : Memory) (a gap : ℕ) (bs : List UInt8) :
    Matches (List.replicate gap none ++ bs.map some)
        (read (write m (a + gap) bs) a (gap + bs.length)) ∧
      AgreeOff m (write m (a + gap) bs) a (a + (gap + bs.length)) := by
  constructor
  · rw [read_add, read_write_of_disjoint m (.inl (Nat.le_refl _)), read_write]
    apply Matches.append _ (Matches.map_some bs)
    have h := Matches.replicate_none (read m a gap)
    rwa [length_read] at h
  · apply agreeOff_write m (Nat.le_add_right a gap)
    exact Nat.le_of_eq (Nat.add_assoc a gap bs.length)

/-! ## The basic functions -/

namespace Serializes

variable {endianness : UcdrEndianness} {f g : UcdrSerializer Memory Unit} {w v : Layout}
  (cb : OnFullBuffer Memory)

/-- Nothing is written. -/
lemma pure : Serializes endianness (pure ()) .nil where
  writes _ _ h _ := ⟨h, ⟨rfl, rfl, rfl, rfl, rfl⟩, .nil, fun _ _ => rfl⟩
  overflows _ _ h _ hfull := absurd hfull (Nat.not_lt.mpr h.iterator_le)
  stops _ _ herr := ⟨rfl, herr⟩

/-- A number of `2 ^ j` bytes. -/
lemma number (j value : ℕ) :
    Serializes endianness (ucdrWriteNumber cb (2 ^ j) value)
      (.number (endianness = .little) (2 ^ j) value) where
  writes m ub h hroom := by
    rw [Layout.length_number] at hroom ⊢
    have hstore : ucdrWriteNumber cb (2 ^ j) value (m, ub) =
        ((), ByteMemory.write m (ub.iterator + Layout.gap (2 ^ j) ub.place)
            (Layout.image (endianness = .little) (2 ^ j) value),
          (ub.skip (Layout.gap (2 ^ j) ub.place)).advance (2 ^ j) (2 ^ j)) := by
      unfold ucdrWriteNumber
      dsimp only
      rw [h.alignment_eq, h.endianness_eq, serializeBasic_of_room cb m
        (ub.skip (Layout.gap (2 ^ j) ub.place)) _ h.noError]
      · rw [Layout.length_image]
        rfl
      · rw [Layout.length_image]
        exact (Nat.add_assoc _ _ _).trans_le hroom
    have hmatches := matches_store m ub.iterator (Layout.gap (2 ^ j) ub.place)
      (Layout.image (endianness = .little) (2 ^ j) value)
    rw [Layout.length_image] at hmatches
    have hbehind : ub.Behind ((ub.skip (Layout.gap (2 ^ j) ub.place)).advance (2 ^ j) (2 ^ j))
        (Layout.gap (2 ^ j) ub.place + 2 ^ j) :=
      ⟨Nat.add_assoc _ _ _, Nat.add_assoc _ _ _, rfl, rfl, rfl⟩
    rw [hstore]
    refine ⟨h.move hbehind hroom h.noError rfl ?_, hbehind, hmatches.1, hmatches.2⟩
    intro i hi
    have hpow : 2 ^ i ∣ 2 ^ j := Nat.pow_dvd_pow 2 ((Nat.pow_le_pow_iff_right (by decide)).mp hi)
    rw [← Nat.add_assoc]
    exact Nat.dvd_add (hpow.trans (Layout.dvd_add_gap (Nat.two_pow_pos j) ub.place)) hpow
  overflows m ub h hcallback hfull := by
    rw [Layout.length_number] at hfull
    have hstore : ucdrWriteNumber cb (2 ^ j) value (m, ub) =
        ((), m, { ub.skip (Layout.gap (2 ^ j) ub.place) with error := true }) := by
      unfold ucdrWriteNumber
      dsimp only
      rw [h.alignment_eq, serializeBasic_of_full cb m
        (show (ub.skip (Layout.gap (2 ^ j) ub.place)).onFullBuffer = false from hcallback)]
      rw [Layout.length_image]
      exact hfull.trans_eq (Nat.add_assoc _ _ _).symm
    rw [hstore]
    exact ⟨rfl, AgreeOff.refl _ _ _⟩
  stops m ub herr := by
    unfold ucdrWriteNumber
    dsimp only
    rw [serializeBasic_of_error cb m _ (show (ub.skip _).error = true from herr)]
    exact ⟨rfl, herr⟩

/-- Bytes, however they are stored one behind the other. -/
lemma bytes_of_store {bs : List UInt8}
    (hwrites : ∀ (m : Memory) (ub : UcdrBuffer), ub.Settled endianness →
      ub.iterator + bs.length ≤ ub.final →
      f (m, ub) = ((), ByteMemory.write m ub.iterator bs, ub.advance bs.length 1))
    (hoverflows : ∀ (m : Memory) (ub : UcdrBuffer), ub.Settled endianness →
      ub.onFullBuffer = false → ub.final < ub.iterator + bs.length →
      ∃ cs ub', ub.iterator + cs.length ≤ ub.final ∧ ub'.error = true ∧
        f (m, ub) = ((), ByteMemory.write m ub.iterator cs, ub'))
    (hstops : ∀ (m : Memory) (ub : UcdrBuffer), ub.error = true →
      (f (m, ub)).2.1 = m ∧ (f (m, ub)).2.2.error = true) :
    Serializes endianness f (.bytes bs) where
  writes m ub h hroom := by
    rw [Layout.length_bytes] at hroom ⊢
    have hmatches := matches_store m ub.iterator 0 bs
    rw [Nat.add_zero, Nat.zero_add] at hmatches
    have hbehind : ub.Behind (ub.advance bs.length 1) bs.length := ⟨rfl, rfl, rfl, rfl, rfl⟩
    rw [hwrites m ub h hroom]
    refine ⟨h.move hbehind hroom h.noError rfl ?_, hbehind, hmatches.1, hmatches.2⟩
    intro i hi
    rw [Nat.le_antisymm hi (Nat.two_pow_pos i)]
    exact Nat.one_dvd _
  overflows m ub h hcallback hfull := by
    rw [Layout.length_bytes] at hfull
    obtain ⟨cs, ub', hcs, herr, heq⟩ := hoverflows m ub h hcallback hfull
    rw [heq]
    exact ⟨herr, agreeOff_write m (Nat.le_refl _) hcs⟩
  stops := hstops

/-- A byte. -/
lemma uint8 (value : UInt8) : Serializes endianness (ucdrWriteUint8 cb value) (.bytes [value]) := by
  apply bytes_of_store
  · intro m ub h hroom
    unfold ucdrWriteUint8 ucdrSerializeUint8
    rw [serializeBasic_of_room cb m ub _ h.noError hroom]
    rfl
  · intro m ub h hcallback hfull
    refine ⟨[], { ub with error := true }, h.iterator_le, rfl, ?_⟩
    unfold ucdrWriteUint8 ucdrSerializeUint8
    rw [serializeBasic_of_full cb m hcallback hfull, write_nil]
  · intro m ub herr
    unfold ucdrWriteUint8 ucdrSerializeUint8
    rw [serializeBasic_of_error cb m _ herr]
    exact ⟨rfl, herr⟩

/-- An array of bytes. -/
lemma arrayUint8 (bs : List UInt8) :
    Serializes endianness (ucdrWriteArrayUint8 cb bs) (.bytes bs) := by
  apply bytes_of_store
  · intro m ub h hroom
    unfold ucdrWriteArrayUint8 ucdrSerializeArrayUint8
    dsimp only
    rcases eq_or_ne bs [] with rfl | hne
    · rw [write_nil]
      rfl
    · have hlen := List.length_pos_of_ne_nil hne
      have hready : ub.Ready := ⟨h.noError, by omega, Nat.lt_add_left _ h.final_lt⟩
      have hwindow := ucdrArrayToBuffer_window cb m hready hne hroom []
      rw [List.append_nil] at hwindow
      rw [hwindow]
      rfl
  · intro m ub h hcallback hfull
    obtain ⟨ub', heq, htook⟩ := ucdrSerializeArrayUint8_truncates cb bs m ub h.noError hcallback
      h.iterator_le (Nat.lt_add_left _ h.final_lt)
    refine ⟨bs.take (ub.final - ub.iterator), ub', ?_, ?_, ?_⟩
    · rw [List.length_take]
      have := h.iterator_le
      omega
    · have := h.iterator_le
      rw [htook.error_eq]
      exact decide_eq_true (by omega)
    · unfold ucdrWriteArrayUint8
      rw [heq]
      rfl
  · intro m ub herr
    unfold ucdrWriteArrayUint8 ucdrSerializeArrayUint8
    dsimp only
    rw [ucdrArrayToBuffer_of_error cb bs m herr]
    exact ⟨rfl, herr⟩

/-! ## One behind the other -/

/-- One function after the other. -/
lemma bind (hf : Serializes endianness f w) (hg : Serializes endianness g v) :
    Serializes endianness (f >>= fun _ => g) (w ++ v) where
  writes m ub h hroom := by
    rw [Layout.append_apply, List.length_append] at hroom ⊢
    obtain ⟨hsettled, hbehind, hmatches, hagree⟩ := hf.writes m ub h (by omega)
    have hplace := hbehind.place_eq h.origin_le
    change (g (f (m, ub)).2).2.2.Settled endianness ∧ ub.Behind (g (f (m, ub)).2).2.2 _ ∧
      Matches _ (read (g (f (m, ub)).2).2.1 _ _) ∧ AgreeOff m (g (f (m, ub)).2).2.1 _ _
    generalize (f (m, ub)).2 = s at *
    obtain ⟨m₁, ub₁⟩ := s
    have hrest := hg.writes m₁ ub₁ hsettled
    rw [hplace, hbehind.iterator_eq, hbehind.final_eq, Nat.add_assoc] at hrest
    obtain ⟨hsettled', hbehind', hmatches', hagree'⟩ := hrest hroom
    refine ⟨hsettled', hbehind.trans hbehind', ?_, ?_⟩
    · rw [read_add, hagree'.read_eq (.inl (Nat.le_refl _))]
      exact hmatches.append hmatches'
    · apply (hagree.mono (Nat.le_refl _) _).trans (hagree'.mono (Nat.le_add_right _ _) _)
      · omega
      · exact Nat.le_refl _
  overflows m ub h hcallback hfull := by
    rw [Layout.append_apply, List.length_append] at hfull
    change (g (f (m, ub)).2).2.2.error = true ∧ AgreeOff m (g (f (m, ub)).2).2.1 _ _
    rcases Nat.lt_or_ge ub.final (ub.iterator + (w ub.place).length) with hlt | hge
    · -- the first one fails, and the second writes nothing
      obtain ⟨herr, hagree⟩ := hf.overflows m ub h hcallback hlt
      obtain ⟨hm, herr'⟩ := hg.stops (f (m, ub)).2.1 (f (m, ub)).2.2 herr
      exact ⟨herr', hm.symm ▸ hagree⟩
    · obtain ⟨hsettled, hbehind, -, hagree⟩ := hf.writes m ub h hge
      have hplace := hbehind.place_eq h.origin_le
      generalize (f (m, ub)).2 = s at *
      obtain ⟨m₁, ub₁⟩ := s
      have hrest := hg.overflows m₁ ub₁ hsettled (hbehind.onFullBuffer_eq.trans hcallback)
      rw [hplace, hbehind.iterator_eq, hbehind.final_eq, Nat.add_assoc] at hrest
      obtain ⟨herr, hagree'⟩ := hrest hfull
      exact ⟨herr, (hagree.mono (Nat.le_refl _) hge).trans
        (hagree'.mono (Nat.le_add_right _ _) (Nat.le_refl _))⟩
  stops m ub herr := by
    obtain ⟨hm, herr'⟩ := hf.stops m ub herr
    obtain ⟨hm', herr''⟩ := hg.stops _ _ herr'
    exact ⟨hm'.trans hm, herr''⟩

/-- A function that is called only while the buffer has not failed. -/
lemma ifRet (hf : Serializes endianness f w) : Serializes endianness (ifRet f) w where
  writes m ub h := by
    have heq : XrceDds.ifRet f (m, ub) = f (m, ub) := if_neg (by simp [h.noError])
    rw [heq]
    exact hf.writes m ub h
  overflows m ub h := by
    have heq : XrceDds.ifRet f (m, ub) = f (m, ub) := if_neg (by simp [h.noError])
    rw [heq]
    exact hf.overflows m ub h
  stops m ub herr := by
    have heq : XrceDds.ifRet f (m, ub) = ((), m, ub) := if_pos herr
    rw [heq]
    exact ⟨rfl, herr⟩

/-- A loop over a list. -/
lemma each {α : Type} {f : α → UcdrSerializer Memory Unit} {w : α → Layout}
    (as : List α) (hf : ∀ a ∈ as, Serializes endianness (f a) (w a)) :
    Serializes endianness (writeEach f as) (.flatMap w as) := by
  induction as with
  | nil => exact pure
  | cons a as ih =>
    apply (hf a List.mem_cons_self).ifRet.bind
    exact ih fun x hx => hf x (List.mem_cons_of_mem a hx)

/-! ## Micro-CDR -/

/-- `ucdr_serialize_bool`. -/
lemma bool (value : Bool) :
    Serializes endianness (ucdrWriteBool cb value) (.bytes [if value then 1 else 0]) :=
  uint8 cb _

/-- `ucdr_serialize_uint16_t`. -/
lemma uint16 (value : UInt16) :
    Serializes endianness (ucdrWriteUint16 cb value)
      (.number (endianness = .little) 2 value.toNat) :=
  number cb 1 value.toNat

/-- `ucdr_serialize_int16_t`. -/
lemma int16 (value : Int16) :
    Serializes endianness (ucdrWriteInt16 cb value)
      (.number (endianness = .little) 2 value.toUInt16.toNat) :=
  uint16 cb value.toUInt16

/-- `ucdr_serialize_uint32_t`. -/
lemma uint32 (value : UInt32) :
    Serializes endianness (ucdrWriteUint32 cb value)
      (.number (endianness = .little) 4 value.toNat) :=
  number cb 2 value.toNat

/-- `ucdr_serialize_int32_t`. -/
lemma int32 (value : Int32) :
    Serializes endianness (ucdrWriteInt32 cb value)
      (.number (endianness = .little) 4 value.toUInt32.toNat) :=
  uint32 cb value.toUInt32

/-- A length that is counted in 32 bits. -/
lemma size {n : ℕ} (hn : n < 4294967296) :
    Serializes endianness (ucdrWriteUint32 cb (.ofNat n)) (.number (endianness = .little) 4 n) := by
  have h : Serializes endianness _ _ := uint32 cb (.ofNat n)
  rwa [UInt32.toNat_ofNat_of_lt' hn] at h

/-- `ucdr_serialize_sequence_uint8_t`. -/
lemma sequenceUint8 {bs : List UInt8} (hlength : bs.length < 4294967296) :
    Serializes endianness (ucdrWriteSequenceUint8 cb bs)
      (.sequenceOctets (endianness = .little) bs) :=
  (size cb hlength).bind (arrayUint8 cb bs)

/-- `ucdr_serialize_string`. -/
lemma string {s : List UInt8} (hlength : s.length + 1 < 4294967296) :
    Serializes endianness (ucdrWriteString cb s) (.string (endianness = .little) s) := by
  apply sequenceUint8
  rwa [List.length_append]

/-- A sequence of elements. -/
lemma sequence {α : Type} {f : α → UcdrSerializer Memory Unit} {w : α → Layout} {as : List α}
    (hlength : as.length < 4294967296) (hf : ∀ a ∈ as, Serializes endianness (f a) (w a)) :
    Serializes endianness (writeSequence cb f as) (.sequence (endianness = .little) w as) :=
  (size cb hlength).bind (each as hf)

/-- A member that is optional. -/
lemma optional {α : Type} {f : α → UcdrSerializer Memory Unit} {w : α → Layout}
    {member : Option α} (hf : ∀ a ∈ member, Serializes endianness (f a) (w a)) :
    Serializes endianness (writeOptional cb f member) (.optional w member) := by
  apply (bool cb member.isSome).bind
  cases member with
  | some a => exact hf a rfl
  | none => exact pure

end Serializes

end XrceDds
