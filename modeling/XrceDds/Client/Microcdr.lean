import Mathlib.Data.List.Basic

/-!
# Serialization buffers

`UcdrBuffer` is the `ucdrBuffer` of the microcdr library: a window `[init, final)` of
memory, a position in it, and a callback that is asked for the next window when the
current one is exhausted.  The functions of this file are those of microcdr that the
streams use, over a state `σ` that holds the memory; a callback may change that state.

A callback returns the new state, the new window, and whether serialization must stop.
-/

namespace XrceDds

/-- `ucdrEndianness`. -/
inductive UcdrEndianness where
  | big
  | little
  deriving DecidableEq, Repr

/-- The numeric value of `ucdrEndianness`. -/
def UcdrEndianness.toUInt8 : UcdrEndianness → UInt8
  | .big => 0
  | .little => 1

/-- `UCDR_MACHINE_ENDIANNESS` of a little-endian machine. -/
def ucdrMachineEndianness : UcdrEndianness := .little

/-- `ucdrBuffer`.  The pointers are addresses; `onFullBuffer` records whether a callback
is set. -/
structure UcdrBuffer where
  init : ℕ
  final : ℕ
  iterator : ℕ
  origin : ℕ
  offset : ℕ
  endianness : UcdrEndianness
  lastDataSize : ℕ
  error : Bool
  onFullBuffer : Bool
  deriving DecidableEq, Repr

/-- `OnFullBuffer`: the callback of an exhausted buffer. -/
abbrev OnFullBuffer (σ : Type) := σ → UcdrBuffer → σ × UcdrBuffer × Bool

/-- A state whose memory a buffer writes to. -/
class UcdrMemory (σ : Type) where
  store : σ → ℕ → List UInt8 → σ

/-- Bytes stored one behind the other are stored as one piece. -/
class LawfulUcdrMemory (σ : Type) [UcdrMemory σ] : Prop where
  store_nil (st : σ) (a : ℕ) : UcdrMemory.store st a [] = st
  store_append (st : σ) (a : ℕ) (bs cs : List UInt8) :
    UcdrMemory.store (UcdrMemory.store st a bs) (a + bs.length) cs =
      UcdrMemory.store st a (bs ++ cs)

/-- `ucdr_init_buffer_origin_offset`. -/
def ucdrInitBufferOriginOffset (data size origin offset : ℕ) : UcdrBuffer where
  init := data
  final := data + size
  iterator := data + offset
  origin := origin
  offset := origin + offset
  endianness := ucdrMachineEndianness
  lastDataSize := 0
  error := false
  onFullBuffer := false

/-- `ucdr_init_buffer_origin`. -/
def ucdrInitBufferOrigin (data size origin : ℕ) : UcdrBuffer :=
  ucdrInitBufferOriginOffset data size origin 0

/-- `ucdr_init_buffer`. -/
def ucdrInitBuffer (data size : ℕ) : UcdrBuffer :=
  ucdrInitBufferOrigin data size 0

/-- `ucdr_set_on_full_buffer_callback`. -/
def ucdrSetOnFullBufferCallback (ub : UcdrBuffer) : UcdrBuffer :=
  { ub with onFullBuffer := true }

/-- `ucdr_buffer_alignment`. -/
def ucdrBufferAlignment (ub : UcdrBuffer) (dataSize : ℕ) : ℕ :=
  if ub.lastDataSize ≥ dataSize then 0
  else (dataSize - (ub.offset - ub.origin) % dataSize) % dataSize

/-- An aligned position needs no padding. -/
lemma ucdrBufferAlignment_of_aligned {ub : UcdrBuffer} {dataSize : ℕ}
    (h : (ub.offset - ub.origin) % dataSize = 0) : ucdrBufferAlignment ub dataSize = 0 := by
  unfold ucdrBufferAlignment
  split
  · rfl
  · rw [h, Nat.sub_zero, Nat.mod_self]

/-- `ucdr_align_to`. -/
def ucdrAlignTo (ub : UcdrBuffer) (alignment : ℕ) : UcdrBuffer :=
  { ub with
    offset := ub.offset + ucdrBufferAlignment ub alignment
    iterator := min (ub.iterator + ucdrBufferAlignment ub alignment) ub.final
    lastDataSize := alignment }

/-- `ucdr_buffer_remaining`, a `size_t`. -/
def ucdrBufferRemaining (ub : UcdrBuffer) : ℕ :=
  (ub.final + 18446744073709551616 - ub.iterator) % 18446744073709551616

/-- Move the position of a buffer over `n` bytes of padding. -/
def UcdrBuffer.skip (ub : UcdrBuffer) (n : ℕ) : UcdrBuffer :=
  { ub with
    iterator := ub.iterator + n
    offset := ub.offset + n }

/-- Move the position of a buffer past `n` bytes of basic size `dataSize`. -/
def UcdrBuffer.advance (ub : UcdrBuffer) (n dataSize : ℕ) : UcdrBuffer :=
  { ub with
    iterator := ub.iterator + n
    offset := ub.offset + n
    lastDataSize := dataSize }

section Serialize

variable {σ : Type} (cb : OnFullBuffer σ)

/-- `ucdr_check_final_buffer_behavior`: whether `bytes` can be handled, after asking for
the next window where the current one is too short. -/
def ucdrCheckFinalBufferBehavior (st : σ) (ub : UcdrBuffer) (bytes : ℕ) :
    σ × UcdrBuffer × Bool :=
  if ub.error then (st, ub, false)
  else if ub.iterator + bytes ≤ ub.final then (st, ub, true)
  else if ub.onFullBuffer then
    let r := cb st ub
    (r.1, { r.2.1 with error := r.2.2 }, !r.2.2)
  else (st, { ub with error := true }, false)

/-- `ucdr_check_final_buffer_behavior_array`: how many of `bytes` single bytes the window
takes, after asking for the next one where the current one is exhausted. -/
def ucdrCheckFinalBufferBehaviorArray (st : σ) (ub : UcdrBuffer) (bytes : ℕ) :
    σ × UcdrBuffer × ℕ :=
  if ub.error then (st, ub, 0)
  else if ub.final < ub.iterator + 1 ∧ bytes ≠ 0 then
    if ub.onFullBuffer then
      let r := cb st ub
      let ub' := { r.2.1 with error := r.2.2 }
      if r.2.2 then (r.1, ub', 0) else (r.1, ub', min bytes (ucdrBufferRemaining ub'))
    else (st, { ub with error := true }, 0)
  else (st, ub, min bytes (ucdrBufferRemaining ub))

variable [UcdrMemory σ]

/-- Write the image of a basic type where the position stands, if there is room. -/
def serializeBasic (st : σ) (ub : UcdrBuffer) (image : List UInt8) : σ × UcdrBuffer :=
  let r := ucdrCheckFinalBufferBehavior cb st ub image.length
  if r.2.2 then
    (UcdrMemory.store r.1 r.2.1.iterator image, r.2.1.advance image.length image.length)
  else (r.1, r.2.1)

/-- `ucdr_serialize_uint8_t`. -/
def ucdrSerializeUint8 (st : σ) (ub : UcdrBuffer) (value : UInt8) : σ × UcdrBuffer :=
  serializeBasic cb st ub [value]

/-- `ucdr_serialize_endian_uint16_t` with `UCDR_LITTLE_ENDIANNESS`. -/
def ucdrSerializeLittleUint16 (st : σ) (ub : UcdrBuffer) (value : ℕ) : σ × UcdrBuffer :=
  serializeBasic cb st (ub.skip (ucdrBufferAlignment ub 2))
    [UInt8.ofNat value, UInt8.ofNat (value / 256)]

/-- The copy loop of `ucdr_serialize_array_uint8_t`, byte by byte. -/
def ucdrArrayToBuffer : List UInt8 → σ → UcdrBuffer → σ × UcdrBuffer
  | [], st, ub => (st, ub)
  | b :: bs, st, ub =>
    let r := ucdrCheckFinalBufferBehaviorArray cb st ub (bs.length + 1)
    if r.2.2 = 0 then (r.1, r.2.1)
    else ucdrArrayToBuffer bs (UcdrMemory.store r.1 r.2.1.iterator [b]) (r.2.1.advance 1 1)

/-- `ucdr_serialize_array_uint8_t`. -/
def ucdrSerializeArrayUint8 (st : σ) (ub : UcdrBuffer) (array : List UInt8) : σ × UcdrBuffer :=
  let r := ucdrArrayToBuffer cb array st ub
  (r.1, { r.2 with lastDataSize := 1 })

/-! ## Arrays over several windows -/

/-- A buffer that has a window to write to, and has not failed. -/
structure UcdrBuffer.Ready (ub : UcdrBuffer) : Prop where
  noError : ub.error = false
  lt_final : ub.iterator < ub.final
  window_lt : ub.final < ub.iterator + 18446744073709551616

omit [UcdrMemory σ] in
/-- A buffer that is ready takes at least one byte. -/
lemma ucdrCheckFinalBufferBehaviorArray_of_ready (st : σ) {ub : UcdrBuffer} (h : ub.Ready)
    (n : ℕ) :
    ∃ m, 0 < m ∧ ucdrCheckFinalBufferBehaviorArray cb st ub (n + 1) = (st, ub, m) := by
  have hlt := h.lt_final
  have hwindow := h.window_lt
  refine ⟨min (n + 1) (ucdrBufferRemaining ub), ?_, ?_⟩
  · unfold ucdrBufferRemaining
    omega
  · unfold ucdrCheckFinalBufferBehaviorArray
    rw [if_neg (by simp [h.noError]), if_neg (by omega)]

/-- One byte of an array goes to the position of a buffer that is ready. -/
lemma ucdrArrayToBuffer_cons (st : σ) {ub : UcdrBuffer} (h : ub.Ready) (b : UInt8)
    (bs : List UInt8) :
    ucdrArrayToBuffer cb (b :: bs) st ub =
      ucdrArrayToBuffer cb bs (UcdrMemory.store st ub.iterator [b]) (ub.advance 1 1) := by
  obtain ⟨m, hm, hcheck⟩ := ucdrCheckFinalBufferBehaviorArray_of_ready cb st h bs.length
  rw [ucdrArrayToBuffer, hcheck]
  exact if_neg (Nat.ne_of_gt hm)

/-- The part of an array that fits in the window is stored there in one piece. -/
theorem ucdrArrayToBuffer_window [LawfulUcdrMemory σ] (st : σ) {ub : UcdrBuffer} (h : ub.Ready)
    {chunk : List UInt8} (hne : chunk ≠ []) (hfit : ub.iterator + chunk.length ≤ ub.final)
    (rest : List UInt8) :
    ucdrArrayToBuffer cb (chunk ++ rest) st ub =
      ucdrArrayToBuffer cb rest (UcdrMemory.store st ub.iterator chunk)
        (ub.advance chunk.length 1) := by
  induction chunk generalizing st ub with
  | nil => exact absurd rfl hne
  | cons b bs ih =>
    rw [List.cons_append, ucdrArrayToBuffer_cons cb st h]
    rcases eq_or_ne bs [] with rfl | hbs
    · rfl
    · rw [List.length_cons] at hfit
      have hpos := List.length_pos_of_ne_nil hbs
      have hready : (ub.advance 1 1).Ready :=
        ⟨h.noError, show ub.iterator + 1 < ub.final by omega,
          show ub.final < ub.iterator + 1 + _ from Nat.lt_of_lt_of_le h.window_lt (by omega)⟩
      rw [ih _ hready hbs (show ub.iterator + 1 + bs.length ≤ ub.final by omega)]
      congr 1
      · exact LawfulUcdrMemory.store_append st ub.iterator [b] bs
      · simp only [UcdrBuffer.advance, List.length_cons, UcdrBuffer.mk.injEq, true_and, and_true]
        omega

/-- Where the window is exhausted the callback provides the next one. -/
theorem ucdrArrayToBuffer_full (st : σ) (ub : UcdrBuffer) (herror : ub.error = false)
    (hcallback : ub.onFullBuffer = true) (hfull : ub.iterator = ub.final) {st' : σ}
    {ub' : UcdrBuffer} (hnext : cb st ub = (st', ub', false)) (h : ub'.Ready) {bs : List UInt8}
    (hne : bs ≠ []) : ucdrArrayToBuffer cb bs st ub = ucdrArrayToBuffer cb bs st' ub' := by
  obtain ⟨b, bs, rfl⟩ := List.exists_cons_of_ne_nil hne
  obtain ⟨m, hm, hcheck⟩ := ucdrCheckFinalBufferBehaviorArray_of_ready cb st' h bs.length
  have hub : ({ ub' with error := false } : UcdrBuffer) = ub' := by
    have := h.noError
    cases ub'
    simp_all
  have hask : ucdrCheckFinalBufferBehaviorArray cb st ub (bs.length + 1) =
      (st', ub', min (bs.length + 1) (ucdrBufferRemaining ub')) := by
    unfold ucdrCheckFinalBufferBehaviorArray
    rw [if_neg (by simp [herror]), if_pos ⟨by omega, Nat.succ_ne_zero _⟩, if_pos hcallback, hnext]
    simp only [hub, Bool.false_eq_true, if_false]
  have hpos : min (bs.length + 1) (ucdrBufferRemaining ub') ≠ 0 := by
    have hlt := h.lt_final
    have hwindow := h.window_lt
    unfold ucdrBufferRemaining
    omega
  rw [ucdrArrayToBuffer_cons cb st' h, ucdrArrayToBuffer, hask]
  exact if_neg hpos

/-! ## Arrays in a single window -/

omit [UcdrMemory σ] in
/-- A buffer without a callback whose window is exhausted fails. -/
lemma ucdrCheckFinalBufferBehaviorArray_of_full (st : σ) {ub : UcdrBuffer}
    (hcallback : ub.onFullBuffer = false) (hfull : ub.final ≤ ub.iterator) (n : ℕ) :
    ucdrCheckFinalBufferBehaviorArray cb st ub (n + 1) = (st, { ub with error := true }, 0) := by
  unfold ucdrCheckFinalBufferBehaviorArray
  by_cases herror : ub.error
  · rw [if_pos herror]
    cases ub
    simp_all
  · rw [if_neg herror, if_pos ⟨Nat.lt_succ_of_le hfull, Nat.succ_ne_zero n⟩, hcallback]
    rfl

/-- A buffer that failed takes no more bytes. -/
lemma ucdrArrayToBuffer_of_error (bs : List UInt8) (st : σ) {ub : UcdrBuffer}
    (herror : ub.error = true) : ucdrArrayToBuffer cb bs st ub = (st, ub) := by
  cases bs with
  | nil => rfl
  | cons b bs => simp [ucdrArrayToBuffer, ucdrCheckFinalBufferBehaviorArray, herror]

/-- A buffer without a callback after `n` bytes were offered to it: it took those that it
has room for, and failed if these were not all. -/
structure UcdrBuffer.Took (ub ub' : UcdrBuffer) (n : ℕ) : Prop where
  iterator_eq : ub'.iterator = ub.iterator + min n (ub.final - ub.iterator)
  final_eq : ub'.final = ub.final
  noCallback : ub'.onFullBuffer = false
  error_eq : ub'.error = decide (ub.final - ub.iterator < n)

/-- Without a callback as many bytes of an array are stored as there is room for. -/
theorem ucdrSerializeArrayUint8_truncates [LawfulUcdrMemory σ] (bs : List UInt8) (st : σ)
    (ub : UcdrBuffer) (herror : ub.error = false) (hcallback : ub.onFullBuffer = false)
    (hle : ub.iterator ≤ ub.final) (hwindow : ub.final < ub.iterator + 18446744073709551616) :
    ∃ ub', ucdrSerializeArrayUint8 cb st ub bs =
        (UcdrMemory.store st ub.iterator (bs.take (ub.final - ub.iterator)), ub') ∧
      ub.Took ub' bs.length := by
  suffices h : ∃ ub', ucdrArrayToBuffer cb bs st ub =
      (UcdrMemory.store st ub.iterator (bs.take (ub.final - ub.iterator)), ub') ∧
        ub.Took ub' bs.length by
    obtain ⟨ub', heq, htook⟩ := h
    rw [ucdrSerializeArrayUint8, heq]
    exact ⟨_, rfl, htook.iterator_eq, htook.final_eq, htook.noCallback, htook.error_eq⟩
  induction bs generalizing st ub with
  | nil =>
    refine ⟨ub, ?_, by simp, rfl, hcallback, by simp [herror]⟩
    rw [List.take_nil, LawfulUcdrMemory.store_nil]
    rfl
  | cons b bs ih =>
    rcases Nat.eq_or_lt_of_le hle with hfull | hlt
    · refine ⟨{ ub with error := true }, ?_, by simp [hfull], rfl, hcallback, by simp [hfull]⟩
      rw [ucdrArrayToBuffer,
        ucdrCheckFinalBufferBehaviorArray_of_full cb st hcallback (Nat.le_of_eq hfull.symm)]
      simp [hfull, LawfulUcdrMemory.store_nil]
    · obtain ⟨ub', heq, hiterator, hfinal, hcb, herr⟩ :=
        ih (UcdrMemory.store st ub.iterator [b]) (ub.advance 1 1) herror hcallback hlt
          (Nat.lt_of_lt_of_le hwindow (Nat.add_le_add_right (Nat.le_succ _) _))
      obtain ⟨room, hroom⟩ : ∃ room, ub.final - ub.iterator = room + 1 :=
        Nat.exists_eq_succ_of_ne_zero (by omega)
      have hrest : (ub.advance 1 1).final - (ub.advance 1 1).iterator = room := by
        change ub.final - (ub.iterator + 1) = room
        omega
      rw [hrest] at heq hiterator herr
      refine ⟨ub', ?_, ?_, hfinal, hcb, ?_⟩
      · rw [ucdrArrayToBuffer_cons cb st ⟨herror, hlt, hwindow⟩, heq, hroom]
        congr 1
        exact LawfulUcdrMemory.store_append st ub.iterator [b] (bs.take room)
      · rw [hiterator, hroom, List.length_cons]
        change ub.iterator + 1 + min bs.length room = _
        omega
      · rw [herr, hroom, List.length_cons]
        simp

/-- Two arrays without a callback are stored as far as there is room for both. -/
theorem ucdrSerializeArrayUint8_truncates_append [LawfulUcdrMemory σ] (bs cs : List UInt8)
    (st : σ) (ub : UcdrBuffer) (herror : ub.error = false) (hcallback : ub.onFullBuffer = false)
    (hle : ub.iterator ≤ ub.final) (hwindow : ub.final < ub.iterator + 18446744073709551616) :
    ∃ ub', ucdrSerializeArrayUint8 cb (ucdrSerializeArrayUint8 cb st ub bs).1
          (ucdrSerializeArrayUint8 cb st ub bs).2 cs =
        (UcdrMemory.store st ub.iterator ((bs ++ cs).take (ub.final - ub.iterator)), ub') ∧
      ub.Took ub' (bs ++ cs).length := by
  obtain ⟨ub₁, heq₁, h₁⟩ :=
    ucdrSerializeArrayUint8_truncates cb bs st ub herror hcallback hle hwindow
  have hiterator := h₁.iterator_eq
  have hfinal := h₁.final_eq
  have herr := h₁.error_eq
  rw [heq₁, List.length_append, List.take_append]
  by_cases hfits : bs.length ≤ ub.final - ub.iterator
  · rw [decide_eq_false (Nat.not_lt.mpr hfits)] at herr
    rw [Nat.min_eq_left hfits] at hiterator
    obtain ⟨ub₂, heq₂, h₂⟩ := ucdrSerializeArrayUint8_truncates cb cs
      (UcdrMemory.store st ub.iterator (bs.take (ub.final - ub.iterator))) ub₁ herr
      h₁.noCallback (by omega) (by omega)
    have hroom : ub₁.final - ub₁.iterator = ub.final - ub.iterator - bs.length := by omega
    refine ⟨ub₂, ?_, ?_, h₂.final_eq.trans hfinal, h₂.noCallback, ?_⟩
    · rw [heq₂, hroom, hiterator, List.take_of_length_le hfits,
        LawfulUcdrMemory.store_append st ub.iterator bs]
    · rw [h₂.iterator_eq, hroom, hiterator]
      omega
    · rw [h₂.error_eq, hroom]
      exact decide_eq_decide.mpr (by omega)
  · -- the first array exhausts the window
    rw [decide_eq_true (Nat.lt_of_not_le hfits)] at herr
    refine ⟨{ ub₁ with lastDataSize := 1 }, ?_, ?_, hfinal, h₁.noCallback, ?_⟩
    · rw [ucdrSerializeArrayUint8, ucdrArrayToBuffer_of_error cb cs _ herr,
        show ub.final - ub.iterator - bs.length = 0 by omega, List.take_zero, List.append_nil]
    · change ub₁.iterator = _
      omega
    · change ub₁.error = _
      rw [herr]
      exact (decide_eq_true (by omega)).symm

end Serialize

end XrceDds
