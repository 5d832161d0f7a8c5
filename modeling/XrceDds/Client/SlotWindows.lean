import XrceDds.Client.InputFragments
import XrceDds.Client.MessageWindows

/-!
# FRAGMENTs as windows

The FRAGMENTs of a message lie in slots one behind the other, and `on_full_input_buffer` goes from
one of them to the next.  `slotSource` says so for readers of windows: the slots behind the first
one are its windows, a slot that is left stays as it was, and with `cleanup_flag` set one that is
entered is empty afterwards (`Crossed`). -/

namespace XrceDds

open ByteMemory

/-- The windows of FRAGMENTs in the slots from `X` on. -/
def slotWindows (base : ReliableStream) : ℕ → List (List UInt8) → List Window
  | _, [] => []
  | X, fragment :: fragments =>
    (uxrGetReliableBuffer base (seqOf X) + subheaderSize, fragment) ::
      slotWindows base (X + 1) fragments

/-- Where windows are depends on how the slots are cut. -/
lemma slotWindows_congr {base base' : ReliableStream} (hsize : base'.size = base.size)
    (hhistory : base'.history = base.history) (X : ℕ) (fragments : List (List UInt8)) :
    slotWindows base' X fragments = slotWindows base X fragments := by
  induction fragments generalizing X with
  | nil => rfl
  | cons fragment fragments ih =>
    rw [slotWindows, slotWindows, ih]
    unfold uxrGetReliableBuffer
    rw [hsize, hhistory]

/-- The windows hold the FRAGMENTs. -/
lemma map_slotWindows (base : ReliableStream) (X : ℕ) (fragments : List (List UInt8)) :
    (slotWindows base X fragments).map Prod.snd = fragments := by
  induction fragments generalizing X with
  | nil => rfl
  | cons fragment fragments ih => rw [slotWindows, List.map_cons, ih]

/-- The slots behind that of `X` hold FRAGMENTs with the given payloads. -/
structure HoldsBehind (base : ReliableStream) (X : ℕ) (fragments : List (List UInt8)) : Prop where
  dvd : base.history ∣ 65536
  length_lt : fragments.length < base.history
  capacity_gt : subheaderSize < uxrGetReliableBufferCapacity base
  nonempty : ∀ fragment ∈ fragments, fragment ≠ []
  fits : ∀ fragment ∈ fragments,
    subheaderSize + fragment.length ≤ uxrGetReliableBufferCapacity base
  slot : ∀ j (hj : j < fragments.length),
    uxrGetReliableBufferSize base (seqOf (X + 1 + j)) = subheaderSize + fragments[j].length ∧
      slotBytes base (seqOf (X + 1 + j)) subheaderSize fragments[j].length = fragments[j]

/-- The slots from `X` to `X + k` were entered, with `cleanup_flag` set where that is asked for. -/
structure Crossed (stream₀ : InputReliableStream) (X k : ℕ) (clean : Prop)
    (stream : InputReliableStream) : Prop where
  emptied : Emptied stream₀.base stream.base
  lastHandled_eq : stream.lastHandled = stream₀.lastHandled
  lastAnnounced_eq : stream.lastAnnounced = stream₀.lastAnnounced
  kept : ∀ q, X + k < q → q < X + stream₀.base.history →
    uxrGetReliableBufferSize stream.base (seqOf q) =
      uxrGetReliableBufferSize stream₀.base (seqOf q)
  entered : clean → ∀ j ≤ k, uxrGetReliableBufferSize stream.base (seqOf (X + j)) = 0

/-- The slot behind the one of a number. -/
lemma historyPosition_succ {history : ℕ} (hdvd : history ∣ 65536) (hlt : history < 65536)
    (hpos : 0 < history) (X : ℕ) :
    (1 + (seqOf X).val % history) % 65536 % history = (seqOf (X + 1)).val % history := by
  have hmod := Nat.mod_lt (seqOf X).val hpos
  change _ = slotOf history (X + 1)
  rw [Nat.mod_eq_of_lt (show 1 + (seqOf X).val % history < 65536 by omega), slotOf_of_dvd hdvd,
    Nat.add_comm X 1]
  change (1 + slotOf history X) % history = _
  rw [slotOf_of_dvd hdvd, Nat.add_mod_mod]

namespace Crossed

variable {stream₀ stream : InputReliableStream} {X k : ℕ} {clean : Prop}

/-- The flag is not what is kept. -/
lemma flag (h : Crossed stream₀ X k clean stream) (flag : Bool) :
    Crossed stream₀ X k clean { stream with cleanupFlag := flag } :=
  ⟨h.emptied, h.lastHandled_eq, h.lastAnnounced_eq, h.kept, h.entered⟩

/-- The next slot is entered. -/
lemma cross (h : Crossed stream₀ X k clean stream) (hdvd : stream₀.base.history ∣ 65536)
    (hcap : subheaderSize < uxrGetReliableBufferCapacity stream₀.base)
    (hk : k + 1 < stream₀.base.history) {n : ℕ}
    (hsize : uxrGetReliableBufferSize stream₀.base (seqOf (X + 1 + k)) = subheaderSize + n)
    (hflag : clean → stream.cleanupFlag = true) {ub : UcdrBuffer}
    (hub : ub.init = uxrGetReliableBuffer stream₀.base (seqOf (X + k)) + subheaderSize) :
    ∃ stream', onFullInputBuffer stream ub =
        (stream', ucdrSetOnFullBufferCallback (ucdrInitBufferOrigin
          (uxrGetReliableBuffer stream₀.base (seqOf (X + 1 + k)) + subheaderSize) n ub.offset),
          false) ∧
      Crossed stream₀ X (k + 1) clean stream' ∧
      stream'.cleanupFlag = stream.cleanupFlag := by
  have hhistory := h.emptied.history_eq
  have hcapacity : uxrGetReliableBufferCapacity stream.base =
      uxrGetReliableBufferCapacity stream₀.base := by
    unfold uxrGetReliableBufferCapacity
    rw [h.emptied.size_eq, hhistory]
  have haddress : ∀ j, uxrGetReliableBuffer stream.base j =
    uxrGetReliableBuffer stream₀.base j := by
    intro j
    unfold uxrGetReliableBuffer
    rw [h.emptied.size_eq, hhistory]
  rw [Nat.add_right_comm X 1 k] at hsize ⊢
  have hused : uxrGetReliableBufferSize stream.base (seqOf (X + k + 1)) = subheaderSize + n := by
    rw [h.kept _ (Nat.lt_succ_self _) (by omega), hsize]
  have hposition : uxrGetReliableBufferHistoryPosition stream.base ub.init =
      (seqOf (X + k)).val % stream.base.history := by
    refine historyPosition_of_mem ?_ ?_
    · rw [haddress]
      omega
    · rw [haddress]
      omega
  have hdvd' : stream.base.history ∣ 65536 := hhistory ▸ hdvd
  have hslot := historyPosition_succ hdvd' stream.base.history_lt stream.base.history_pos (X + k)
  unfold onFullInputBuffer
  dsimp only
  rw [hposition, uxrGetReliableBufferSize_congr hslot, uxrGetReliableBuffer_congr hslot,
    uxrSetReliableBufferSize_congr hslot, hused, if_neg (by omega), Nat.add_sub_cancel_left,
    haddress]
  refine ⟨_, rfl, ?_, ?_⟩
  · split
    · have hset := Emptied.setSize stream.base (seqOf (X + k + 1))
      refine ⟨h.emptied.trans hset, h.lastHandled_eq, h.lastAnnounced_eq, fun q hlo hhi => ?_,
        fun hclean j hj => ?_⟩
      · rw [← h.kept q (by omega) hhi]
        exact uxrGetReliableBufferSize_setSize_of_ne _ (seqOf_mod_ne (n := X) hdvd'
          (by omega) (by omega) (by omega) (by omega) (by omega))
      · rcases Nat.lt_or_ge k j with hlt | hge
        · obtain rfl : j = k + 1 := by omega
          exact uxrGetReliableBufferSize_setSize_same _ (by decide)
        · rcases hset.bufferSize (seqOf (X + j)) with hzero | hsame
          · exact hzero
          · rw [hsame]
            exact h.entered hclean j hge
    · next hunset =>
      refine ⟨h.emptied, h.lastHandled_eq, h.lastAnnounced_eq,
        fun q hlo hhi => h.kept q (by omega) hhi, fun hclean => (hunset (hflag hclean)).elim⟩
  · split
    · rfl
    · rfl

end Crossed

/-- FRAGMENTs in slots are windows. -/
def slotSource {stream₀ : InputReliableStream} {X : ℕ} {fragments : List (List UInt8)}
    (h : HoldsBehind stream₀.base X fragments) (clean : Prop) : WindowSource where
  Behind init windows stream := ∃ k ≤ fragments.length,
    init = uxrGetReliableBuffer stream₀.base (seqOf (X + k)) + subheaderSize ∧
      windows = slotWindows stream₀.base (X + 1 + k) (fragments.drop k) ∧
      Crossed stream₀ X k clean stream
  Crosses stream := clean → stream.cleanupFlag = true
  behind_flag := by
    rintro init windows stream flag ⟨k, hk, hinit, hwindows, hcrossed⟩
    exact ⟨k, hk, hinit, hwindows, hcrossed.flag flag⟩
  crosses_flag _ _ := rfl
  cross := by
    rintro ub window windows stream ⟨k, hk, hinit, hwindows, hcrossed⟩ hflag
    -- a window is left, so there is a slot behind this one
    have hlt : k < fragments.length := by
      refine lt_of_le_of_ne hk fun heq => ?_
      rw [heq, List.drop_length] at hwindows
      cases hwindows
    rw [List.drop_eq_getElem_cons hlt, slotWindows] at hwindows
    obtain ⟨rfl, rfl⟩ := List.cons.inj hwindows
    have hmem := List.getElem_mem hlt
    have hfits := h.fits _ hmem
    obtain ⟨hsize, hbytes⟩ := h.slot k hlt
    obtain ⟨stream', heq, hcrossed', hflag'⟩ := hcrossed.cross h.dvd h.capacity_gt
      (by have := h.length_lt; omega) hsize hflag hinit
    refine ⟨stream', heq, ⟨k + 1, hlt, ?_, ?_, hcrossed'⟩, fun hclean => ?_, ?_, ?_⟩
    · dsimp only
      rw [Nat.add_right_comm X 1 k, Nat.add_assoc X k 1]
    · rw [← Nat.add_assoc]
    · rw [hflag', hflag hclean]
    · have := capacity_lt stream₀.base
      dsimp only
      omega
    · have hread := hcrossed'.emptied.slotBytes_eq (seqOf (X + 1 + k)) subheaderSize
        fragments[k].length hfits
      rw [hbytes] at hread
      unfold slotBytes at hread
      have haddress : uxrGetReliableBuffer stream'.base (seqOf (X + 1 + k)) =
          uxrGetReliableBuffer stream₀.base (seqOf (X + 1 + k)) := by
        unfold uxrGetReliableBuffer
        rw [hcrossed'.emptied.size_eq, hcrossed'.emptied.history_eq]
      rwa [haddress] at hread

end XrceDds
