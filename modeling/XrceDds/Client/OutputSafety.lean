import XrceDds.Client.OutputRun

/-!
# What a write and an ACKNACK may destroy

The two main results about a single output reliable stream.  In a state that an admitted
run reaches, a fragmented write destroys nothing exactly when it is refused or its
fragments fit the window, and an ACKNACK is harmless exactly when it acknowledges a number
from `lastAcknown` to `lastSent`.  Both have inputs that fail: the free slots are counted
without the slot of the last fragment, and the number of slots to clean is a difference
modulo a turn that nothing bounds.
-/

namespace XrceDds

open Transition

/-- A session without a client key, whose header has four bytes. -/
def keylessSession : UxrSessionInfo := ⟨sessionIdWithoutClientKey, [0, 0, 0, 0], rfl⟩

/-- A buffer of zeros with two slots of `capacity` bytes. -/
def twoSlots (capacity : ℕ) (h : capacity < 4294967292) : ReliableStream where
  buffer := fun _ => 0
  size := 2 * (capacity + 4)
  history := 2
  history_pos := by decide
  history_lt := by decide
  slot_ge := by
    rw [Nat.mul_div_cancel_left _ (by decide)]
    exact Nat.le_add_left _ _
  slot_lt := by
    rw [Nat.mul_div_cancel_left _ (by decide)]
    omega

/-- Slots of sixteen bytes are not too long. -/
lemma sixteen_lt : 16 < 4294967292 := by decide

/-- Slots of 22 bytes are not too long. -/
lemma twentyTwo_lt : 22 < 4294967292 := by decide

/-- A stream of two slots of sixteen bytes that was just initialised. -/
def freshStream : OutputReliableStream :=
  uxrInitOutputReliableStream (twoSlots 16 sixteen_lt) (uxrSessionHeaderOffset keylessSession)

/-- A stream that was just initialised is the start of a run. -/
lemma freshStream_run : OutputRun keylessSession 128 freshStream :=
  .start ⟨_, rfl, by decide⟩

section

variable {info : UxrSessionInfo} {streamIdRaw : UInt8} {stream : OutputReliableStream}

/-! ## Fragmented writes -/

/-- In every run whose fragmented writes are refused or fit and whose ACKNACKs acknowledge
what was sent, the next fragmented write destroys nothing, if and only if it is itself
refused or fits. -/
theorem fragmentWrite_safe_iff (h : OutputRun info streamIdRaw stream) (length : ℕ)
    (ub : UcdrBuffer) (htakes : TakesFragments stream length) :
    FragmentWriteSafe stream length ub ↔ FragmentWriteOk stream length := by
  obtain ⟨-, a, s, w, hwindow⟩ := h.invariant
  exact hwindow.fragmentWriteSafe_iff ub htakes

end

/-- Fourteen bytes go into the two slots of a fresh stream. -/
theorem fragmentWrite_safe_iff_freshStream :
    FragmentWriteSafe freshStream 14 (ucdrInitBuffer 0 0) :=
  (fragmentWrite_safe_iff freshStream_run 14 (ucdrInitBuffer 0 0) (by decide)).mpr (by decide)

/-- Twenty bytes need three slots, are accepted by a fresh stream of two, and are laid over
the first of them. -/
theorem fragmentWrite_unsafe :
    OutputRun keylessSession 128 freshStream ∧ TakesFragments freshStream 20 ∧
      ¬ FragmentWriteSafe freshStream 20 (ucdrInitBuffer 0 0) := by
  have htakes : TakesFragments freshStream 20 := by decide
  refine ⟨freshStream_run, htakes, ?_⟩
  obtain ⟨-, a, s, w, hwindow⟩ := freshStream_run.invariant
  rw [hwindow.fragmentWriteSafe_iff _ htakes]
  decide

/-! ## Acknowledgements -/

/-- In every run whose fragmented writes are refused or fit and whose ACKNACKs acknowledge
what was sent, the next ACKNACK is harmless, if and only if it acknowledges a number from
`lastAcknown` to `lastSent`. -/
theorem acknack_harmless_iff {info : UxrSessionInfo} {streamIdRaw : UInt8}
    {stream : OutputReliableStream} (h : OutputRun info streamIdRaw stream) (bitmap : ℕ)
    (firstUnackedSeqNum : UxrSeqNum) :
    AcknackHarmless stream (uxrProcessAcknack stream bitmap firstUnackedSeqNum)
        firstUnackedSeqNum ↔ AcknackOk stream firstUnackedSeqNum := by
  obtain ⟨-, a, s, w, hwindow⟩ := h.invariant
  exact hwindow.acknackHarmless_iff bitmap firstUnackedSeqNum

/-- A fresh stream after some events. -/
def afterEvents (events : List OutputEvent) : OutputReliableStream :=
  events.foldl (outputStep keylessSession 128) freshStream

/-- A fresh stream writes a message, sends it, is told that it is missing, and is told
that it arrived. -/
def acknowledgedStream : OutputReliableStream :=
  afterEvents [.write 4 (ucdrInitBuffer 0 0), .flash, .acknack 1 0, .acknack 0 1]

/-- The events of that stream are admitted. -/
lemma acknowledgedStream_run : OutputRun keylessSession 128 acknowledgedStream := by
  have hwrite : OutputAdmitted freshStream (.write 4 (ucdrInitBuffer 0 0)) :=
    ⟨by decide, fun htakes => absurd htakes (by decide)⟩
  have hmissing : OutputAdmitted (afterEvents [.write 4 (ucdrInitBuffer 0 0), .flash])
      (.acknack 1 0) := ⟨by decide, slotsDistinct_of_dvd (by decide) _⟩
  have harrived : OutputAdmitted
      (afterEvents [.write 4 (ucdrInitBuffer 0 0), .flash, .acknack 1 0]) (.acknack 0 1) :=
    ⟨by decide, slotsDistinct_of_dvd (by decide) _⟩
  have hflash := (freshStream_run.next hwrite).next (e := OutputEvent.flash) trivial
  exact (hflash.next hmissing).next harrived

/-- The ACKNACK that said so once more leaves it acknowledged. -/
theorem acknack_harmless_iff_acknowledgedStream :
    AcknackHarmless acknowledgedStream (uxrProcessAcknack acknowledgedStream 0 1) 1 :=
  (acknack_harmless_iff acknowledgedStream_run 0 1).mpr (by decide)

/-- The ACKNACK that called the message missing, delivered again, takes `lastAcknown` back
out of what was sent. -/
theorem acknack_harmful :
    OutputRun keylessSession 128 acknowledgedStream ∧
      ¬ AcknackHarmless acknowledgedStream (uxrProcessAcknack acknowledgedStream 1 0) 0 := by
  refine ⟨acknowledgedStream_run, ?_⟩
  obtain ⟨-, a, s, w, hwindow⟩ := acknowledgedStream_run.invariant
  rw [hwindow.acknackHarmless_iff]
  decide

end XrceDds
