import XrceDds.Client.OutputReliableStream

/-!
# Writing a header into a slot

The headers of FRAGMENT submessages are written through temporary buffers that have no
callback.  Such a buffer writes inside its window only, so opening a fragment at the end
of a slot changes nothing but the unused tail of that slot (`openFragment_frame`).  When
the tail starts at a multiple of four and has room, the header is written there
(`openFragment_eq`).
-/

namespace XrceDds

open ByteMemory

/-- `base'` differs from `base` only in the body of the slot of `i`, from the offset `o`
on. -/
structure SlotFrame (base base' : ReliableStream) (i o : ℕ) : Prop where
  size_eq : base'.size = base.size
  history_eq : base'.history = base.history
  agree : AgreeOff base.buffer base'.buffer (uxrGetReliableBuffer base i + o)
    (uxrGetReliableBuffer base i + uxrGetReliableBufferCapacity base)

namespace SlotFrame

variable {base base' : ReliableStream} {i o : ℕ} (h : SlotFrame base base' i o)
include h

/-- The bodies stay where they are. -/
lemma buffer_eq (j : ℕ) : uxrGetReliableBuffer base' j = uxrGetReliableBuffer base j := by
  unfold uxrGetReliableBuffer
  rw [h.size_eq, h.history_eq]

/-- The capacity stays what it is. -/
lemma capacity_eq : uxrGetReliableBufferCapacity base' = uxrGetReliableBufferCapacity base := by
  unfold uxrGetReliableBufferCapacity
  rw [h.size_eq, h.history_eq]

/-- The size of every slot stays what it is. -/
lemma bufferSize_eq (j : ℕ) : uxrGetReliableBufferSize base' j =
    uxrGetReliableBufferSize base j := by
  have hj := four_le_uxrGetReliableBuffer base j
  rw [uxrGetReliableBufferSize_eq, uxrGetReliableBufferSize_eq, h.buffer_eq]
  congr 1
  apply h.agree.read_eq
  by_cases hij : i % base.history = j % base.history
  · rw [uxrGetReliableBuffer_congr hij]
    omega
  · have hd := slots_disjoint hij
    omega

/-- The bytes of another slot stay what they are. -/
lemma slotBytes_of_ne {j : ℕ} (hij : i % base.history ≠ j % base.history) {p n : ℕ}
    (hn : p + n ≤ uxrGetReliableBufferCapacity base) :
    slotBytes base' j p n = slotBytes base j p n := by
  have hd := slots_disjoint hij
  unfold slotBytes
  rw [h.buffer_eq]
  apply h.agree.read_eq
  omega

/-- The bytes of the slot itself before the offset stay what they are. -/
lemma slotBytes_of_le {p n : ℕ} (hn : p + n ≤ o) :
    slotBytes base' i p n = slotBytes base i p n := by
  unfold slotBytes
  rw [h.buffer_eq]
  apply h.agree.read_eq
  omega

end SlotFrame

/-! ## Buffers without a callback -/

/-- What serializing without a callback keeps: nothing outside the window is written. -/
structure StaysInWindow (base : ReliableStream) (ub : UcdrBuffer) (base' : ReliableStream)
    (ub' : UcdrBuffer) : Prop where
  size_eq : base'.size = base.size
  history_eq : base'.history = base.history
  final_eq : ub'.final = ub.final
  noCallback : ub'.onFullBuffer = false
  iterator_le : ub.iterator ≤ ub'.iterator
  agree : AgreeOff base.buffer base'.buffer ub.iterator ub.final

/-- Serializing one thing after another stays in the window. -/
lemma StaysInWindow.trans {base₁ base₂ base₃ : ReliableStream} {ub₁ ub₂ ub₃ : UcdrBuffer}
    (h₁ : StaysInWindow base₁ ub₁ base₂ ub₂) (h₂ : StaysInWindow base₂ ub₂ base₃ ub₃) :
    StaysInWindow base₁ ub₁ base₃ ub₃ where
  size_eq := h₂.size_eq.trans h₁.size_eq
  history_eq := h₂.history_eq.trans h₁.history_eq
  final_eq := h₂.final_eq.trans h₁.final_eq
  noCallback := h₂.noCallback
  iterator_le := h₁.iterator_le.trans h₂.iterator_le
  agree := h₁.agree.trans (h₂.agree.mono h₁.iterator_le h₁.final_eq.le)

section Window

variable (cb : OnFullBuffer ReliableStream) (base : ReliableStream) (ub : UcdrBuffer)
  (hcb : ub.onFullBuffer = false)
include hcb

/-- A basic type is written inside the window or not at all. -/
lemma serializeBasic_stays (image : List UInt8) :
    StaysInWindow base ub (serializeBasic cb base ub image).1
      (serializeBasic cb base ub image).2 := by
  unfold serializeBasic
  by_cases herr : ub.error = true
  · simp only [ucdrCheckFinalBufferBehavior, herr, if_true, Bool.false_eq_true, if_false]
    exact ⟨rfl, rfl, rfl, hcb, le_rfl, .refl _ _ _⟩
  by_cases hroom : ub.iterator + image.length ≤ ub.final
  · rw [ucdrCheckFinalBufferBehavior_of_room cb base ub (by simpa using herr) hroom]
    exact ⟨rfl, rfl, rfl, hcb, Nat.le_add_right _ _, agreeOff_write _ le_rfl hroom⟩
  · rw [ucdrCheckFinalBufferBehavior_of_full cb base ub hcb (by omega)]
    exact ⟨rfl, rfl, rfl, hcb, le_rfl, .refl _ _ _⟩

/-- Skipping padding stays in the window. -/
lemma skip_stays (n : ℕ) : StaysInWindow base ub base (ub.skip n) :=
  ⟨rfl, rfl, rfl, hcb, Nat.le_add_right _ _, .refl _ _ _⟩

/-- A submessage header is written inside the window, as far as it is written. -/
theorem uxrBufferSubmessageHeader_stays (hle : ub.iterator ≤ ub.final) (id flags : UInt8)
    (length : ℕ) :
    StaysInWindow base ub (uxrBufferSubmessageHeader cb base ub id length flags).1
      (uxrBufferSubmessageHeader cb base ub id length flags).2.1 := by
  set ub₁ : UcdrBuffer := { ucdrAlignTo ub 4 with endianness := ucdrMachineEndianness }
  have h₁ : StaysInWindow base ub base ub₁ :=
    ⟨rfl, rfl, rfl, hcb, le_min (Nat.le_add_right _ _) hle, .refl _ _ _⟩
  have h₂ := serializeBasic_stays cb base ub₁ hcb [id]
  set r := serializeBasic cb base ub₁ [id]
  have h₃ := serializeBasic_stays cb r.1 r.2 h₂.noCallback [flags ||| ub₁.endianness.toUInt8]
  set r' := serializeBasic cb r.1 r.2 [flags ||| ub₁.endianness.toUInt8]
  have h₄ := skip_stays r'.1 r'.2 h₃.noCallback (ucdrBufferAlignment r'.2 2)
  have h₅ := serializeBasic_stays cb r'.1 _ h₄.noCallback
    [UInt8.ofNat length, UInt8.ofNat (length / 256)]
  exact (((h₁.trans h₂).trans h₃).trans h₄).trans h₅

end Window

/-- Opening a fragment changes nothing but the unused tail of its slot. -/
theorem openFragment_frame (base : ReliableStream) (seqNum : UxrSeqNum) (fragmentSize : ℕ)
    (flags : UInt8)
    (hsize : uxrGetReliableBufferSize base seqNum ≤ uxrGetReliableBufferCapacity base) :
    SlotFrame base (openFragment base seqNum fragmentSize flags) seqNum
      (uxrGetReliableBufferSize base seqNum) := by
  have h := uxrBufferSubmessageHeader_stays (fun st ub => (st, ub, true)) base
    (ucdrInitBufferOriginOffset (uxrGetReliableBuffer base seqNum)
      (uxrGetReliableBufferCapacity base) 0 (uxrGetReliableBufferSize base seqNum)) rfl
    (Nat.add_le_add_left hsize _) submessageIdFragment flags fragmentSize
  exact ⟨h.size_eq, h.history_eq, h.agree⟩

/-- Where the used part of a slot ends at a multiple of four with room for a header, the
header is written there. -/
theorem openFragment_eq (base : ReliableStream) (seqNum : UxrSeqNum) (fragmentSize : ℕ)
    (flags : UInt8) (halign : uxrGetReliableBufferSize base seqNum % 4 = 0)
    (hroom : uxrGetReliableBufferSize base seqNum + 4 ≤ uxrGetReliableBufferCapacity base) :
    openFragment base seqNum fragmentSize flags =
      base.store (uxrGetReliableBuffer base seqNum + uxrGetReliableBufferSize base seqNum)
        (submessageHeader submessageIdFragment (flags ||| 1) fragmentSize) := by
  have h := uxrBufferSubmessageHeader_of_room (fun st ub => (st, ub, true)) base
    (ucdrInitBufferOriginOffset (uxrGetReliableBuffer base seqNum)
      (uxrGetReliableBufferCapacity base) 0 (uxrGetReliableBufferSize base seqNum))
    submessageIdFragment flags fragmentSize rfl
    (by simpa [ucdrInitBufferOriginOffset] using halign) (Nat.zero_le _)
    (by simp only [ucdrInitBufferOriginOffset]; omega)
  exact congrArg Prod.fst h

end XrceDds
