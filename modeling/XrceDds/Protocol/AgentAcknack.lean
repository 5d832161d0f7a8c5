import XrceDds.Agent.InputInvariant
import XrceDds.Protocol.ClientToAgent

/-!
# The ACKNACKs of the Agent

What the two half-loops of `fill_acknack` write, bit by bit (`testBit_nackBitmap`), and what
the client sends again when it reads them (`mem_readSubmessageAcknack_of_held`).

`fill_acknack` compares the number before the one a bit stands for, so it agrees with the
comparison of `SeqNum` unless that is taken across half a turn.  This needs a stream whose
`last_announced_` is half a turn behind `last_handled_`, which a heartbeat can bring about
(`fillAcknack_exact_fails`).
-/

namespace XrceDds

namespace ReliableInputStream

variable {Msg : Type}

/-! ## The bits -/

/-- A bit is set in a byte. -/
lemma testBit_or_shift (byte : UInt8) {m : ℕ} (hm : m < 8) (k : ℕ) :
    (byte ||| (1 <<< UInt8.ofNat m)).toNat.testBit k =
    (byte.toNat.testBit k || decide (m = k)) := by
  have hpow : ∀ m : Fin 8, ((1 : UInt8) <<< UInt8.ofNat m.val).toNat = 2 ^ m.val := by decide
  have hshift : ((1 : UInt8) <<< UInt8.ofNat m).toNat = 2 ^ m := hpow ⟨m, hm⟩
  rw [UInt8.toNat_or, Nat.testBit_or, hshift, Nat.testBit_two_pow]

/-- The bits of a byte that are set one after the other. -/
lemma testBit_foldl (f : ℕ → Bool) {m : ℕ} (hm : m ≤ 8) (k : ℕ) :
    ((List.range m).foldl
        (fun byte k => if f k then byte ||| (1 <<< UInt8.ofNat k) else byte)
          (0 : UInt8)).toNat.testBit k =
      (decide (k < m) && f k) := by
  induction m with
  | zero => simp
  | succ m ih =>
    rw [List.range_succ, List.foldl_append, List.foldl_cons, List.foldl_nil]
    have hold := ih (Nat.le_of_succ_le hm)
    split
    · next hf =>
      rw [testBit_or_shift _ hm, hold]
      rcases Nat.lt_trichotomy k m with hlt | rfl | hgt
      · simp [hlt, Nat.lt_succ_of_lt hlt, hlt.ne']
      · simp [hf]
      · simp [hgt.ne, Nat.not_lt.mpr hgt.le, Nat.not_lt.mpr (Nat.succ_le_of_lt hgt)]
    · next hf =>
      rw [hold]
      rcases Nat.lt_trichotomy k m with hlt | rfl | hgt
      · simp [hlt, Nat.lt_succ_of_lt hlt]
      · simp [hf]
      · simp [Nat.not_lt.mpr hgt.le, Nat.not_lt.mpr (Nat.succ_le_of_lt hgt)]

/-- The bits of one byte of the bitmap. -/
lemma testBit_nackByte (stream : ReliableInputStream Msg) (i : ℕ) {k : ℕ} (hk : k < 8) :
    (stream.nackByte i).toNat.testBit k = stream.nacks (i + k) := by
  unfold nackByte
  rw [testBit_foldl (fun k => stream.nacks (i + k)) le_rfl k]
  simp [hk]

/-- The bits of the bitmap as the client puts it together. -/
lemma testBit_nackBitmap (stream : ReliableInputStream Msg) {i : ℕ} (hi : i < 16) :
    (ClientToAgent.nackBitmap stream.fillAcknack).testBit i = stream.nacks i := by
  unfold ClientToAgent.nackBitmap fillAcknack
  dsimp only
  have hlt := (stream.nackByte 0).toNat_lt
  rw [Nat.mul_comm, show 256 = 2 ^ 8 by rfl, Nat.testBit_two_pow_mul_add _ hlt]
  split
  · next hlow => rw [testBit_nackByte _ _ hlow, Nat.zero_add]
  · next hhigh => rw [testBit_nackByte _ _ (by omega), Nat.add_sub_cancel' (Nat.le_of_not_lt hhigh)]

end ReliableInputStream

/-! ## What is sent again -/

section Client

variable {stream : OutputReliableStream} {s : ℕ}

/-- The search ends no later than at a slot in use. -/
lemma nackSearch_of_used (hs : stream.lastSent = seqOf s) {n X Y : ℕ} (hX : X < Y) (hY : Y ≤ s)
    (hturn : s < X + 32768) (hn : Y ≤ X + n)
    (hused : uxrGetReliableBufferSize stream.base (seqOf Y) ≠ stream.offset) :
    ∃ Z, X < Z ∧ Z ≤ Y ∧ nackSearch stream n (seqOf X) = some (seqOf Z) := by
  induction n generalizing X with
  | zero => omega
  | succ n ih =>
    have hcmp : 0 ≥ uxrSeqNumCmp (seqOf (X + 1)) stream.lastSent := by
      rw [hs, uxrSeqNumCmp_seqOf_nonpos (by omega) (by omega)]
      omega
    unfold nackSearch
    simp only [uxrSeqNumAdd_seqOf]
    rw [if_pos hcmp]
    split
    · exact ⟨X + 1, Nat.lt_succ_self X, hX, rfl⟩
    · next hfree =>
      have hne : X + 1 ≠ Y := by
        rintro rfl
        exact hfree hused
      obtain ⟨Z, hlo, hhi, hfound⟩ := ih (show X + 1 < Y by omega) (by omega) (by omega)
      exact ⟨Z, by omega, hhi, hfound⟩

/-- The loop over the lost messages reaches every slot in use that was sent. -/
lemma mem_nackLoop_of_used (hs : stream.lastSent = seqOf s) (hlost : stream.sendLost = true)
    {n X Y : ℕ} (hX : X < Y) (hY : Y ≤ s) (hturn : s < X + 32768) (hn : Y ≤ X + n)
    (hused : uxrGetReliableBufferSize stream.base (seqOf Y) ≠ stream.offset) :
    slotBytes stream.base (seqOf Y) 0 (uxrGetReliableBufferSize stream.base (seqOf Y)) ∈
      (nackLoop n stream (seqOf X)).2 := by
  induction n generalizing X with
  | zero => omega
  | succ n ih =>
    obtain ⟨Z, hlo, hhi, hfound⟩ := nackSearch_of_used (n := 65536) hs hX hY hturn (by omega) hused
    have hnext : uxrNextReliableNackBufferToSend stream (seqOf X) = (stream, some (seqOf Z)) := by
      unfold uxrNextReliableNackBufferToSend
      rw [if_pos hlost, hfound]
    unfold nackLoop
    rw [hnext]
    dsimp only
    rcases Nat.eq_or_lt_of_le hhi with rfl | hlt
    · exact List.mem_cons_self
    · exact List.mem_cons_of_mem _ (ih hlt (by omega) (by omega))

/-- A number was sent and is not acknowledged, and its slot is in use. -/
def HoldsUnacknowledged (stream : OutputReliableStream) (x : UxrSeqNum) : Prop :=
  0 < seqSteps stream.lastAcknown x ∧
    seqSteps stream.lastAcknown x ≤ seqSteps stream.lastAcknown stream.lastSent ∧
    seqSteps stream.lastAcknown stream.lastSent < 32768 ∧
    uxrGetReliableBufferSize stream.base x ≠ stream.offset

instance (stream : OutputReliableStream) (x : UxrSeqNum) :
    Decidable (HoldsUnacknowledged stream x) := by
  unfold HoldsUnacknowledged; infer_instance

/-- An ACKNACK with a bit set has everything sent again that is held when it was processed. -/
theorem mem_readSubmessageAcknack_of_held (stream : OutputReliableStream) {bitmap : ℕ}
    (hbitmap : 0 < bitmap) (f : UxrSeqNum) {x : UxrSeqNum}
    (hx : HoldsUnacknowledged (uxrProcessAcknack stream bitmap f) x) :
    slotBytes (uxrProcessAcknack stream bitmap f).base x 0
        (uxrGetReliableBufferSize (uxrProcessAcknack stream bitmap f).base x) ∈
      (readSubmessageAcknack stream bitmap f).2 := by
  obtain ⟨hpos, hle, hturn, hused⟩ := hx
  have hlost : (uxrProcessAcknack stream bitmap f).sendLost = true := decide_eq_true hbitmap
  unfold readSubmessageAcknack uxrBeginOutputNackBufferIt
  dsimp only
  obtain ⟨out, hout⟩ : ∃ out, out = uxrProcessAcknack stream bitmap f := ⟨_, rfl⟩
  rw [← hout] at hpos hle hturn hused hlost ⊢
  have hself : out.lastAcknown = seqOf out.lastAcknown.val := (seqOf_self _).symm
  have hxpos : x = seqOf (out.lastAcknown.val + seqSteps out.lastAcknown x) := by
    conv_lhs => rw [← seqOf_add_seqSteps out.lastAcknown.val x, seqOf_self]
  have hsent : out.lastSent =
      seqOf (out.lastAcknown.val + seqSteps out.lastAcknown out.lastSent) := by
    conv_lhs => rw [← seqOf_add_seqSteps out.lastAcknown.val out.lastSent, seqOf_self]
  rw [hxpos] at hused
  have hmem := mem_nackLoop_of_used (n := 65536) hsent hlost (X := out.lastAcknown.val)
    (by omega) (Nat.add_le_add_left hle _) (by omega) (by omega) hused
  rwa [← hxpos, ← hself] at hmem

end Client

/-! ## Exactness -/

/-- An ACKNACK is exact: it begins behind the last message handled, its bits are set for the
announced messages that are missing, and these are what the client sends again when it reads it. -/
structure AcknackExact {Msg : Type} (stream : ReliableInputStream Msg) : Prop where
  first : stream.fillAcknack.1 = SeqNum.addInt stream.lastHandled 1
  bits : ∀ i < 16, (ClientToAgent.nackBitmap stream.fillAcknack).testBit i = true ↔
    SeqNum.Le (SeqNum.addInt stream.lastHandled (1 + i)) stream.lastAnnounced ∧
      stream.messages (SeqNum.addInt stream.lastHandled (1 + i)) = none
  resent : ∀ (out : OutputReliableStream) (i : ℕ),
    (ClientToAgent.nackBitmap stream.fillAcknack).testBit i = true → i < 16 →
      HoldsUnacknowledged (uxrProcessAcknack out (ClientToAgent.nackBitmap stream.fillAcknack)
        stream.fillAcknack.1) (SeqNum.addInt stream.lastHandled (1 + i)) →
      slotBytes (uxrProcessAcknack out (ClientToAgent.nackBitmap stream.fillAcknack)
          stream.fillAcknack.1).base (SeqNum.addInt stream.lastHandled (1 + i)) 0
        (uxrGetReliableBufferSize (uxrProcessAcknack out
          (ClientToAgent.nackBitmap stream.fillAcknack) stream.fillAcknack.1).base
          (SeqNum.addInt stream.lastHandled (1 + i))) ∈
        (readSubmessageAcknack out (ClientToAgent.nackBitmap stream.fillAcknack)
          stream.fillAcknack.1).2

namespace ReliableInputStream

variable {Msg : Type}

/-- The number that a bit stands for is announced when the one before it is smaller than what is
announced, unless that is about half a turn ahead. -/
lemma lt_iff_le_succ (stream : ReliableInputStream Msg) {i : ℕ} (hi : i < 16)
    (hnear : seqSteps stream.lastHandled stream.lastAnnounced < 32768 ∨
      32784 < seqSteps stream.lastHandled stream.lastAnnounced) :
    SeqNum.Lt (SeqNum.add stream.lastHandled (seqOf i)) stream.lastAnnounced ↔
      SeqNum.Le (SeqNum.addInt stream.lastHandled (1 + i)) stream.lastAnnounced := by
  obtain ⟨P, hP⟩ : ∃ P, stream.lastHandled = seqOf P := ⟨_, (seqOf_self _).symm⟩
  obtain ⟨d, hd, hlast, hsteps⟩ := exists_seqOf P stream.lastAnnounced
  rw [hP, hsteps] at hnear
  unfold SeqNum.Le SeqNum.Gt
  rw [hP, hlast, SeqNum.add_seqOf _ (by omega), SeqNum.addInt_seqOf _ (by omega),
    SeqNum.lt_iff_seqSteps, SeqNum.lt_iff_seqSteps]
  rcases Nat.lt_or_ge d i with hlt | hge
  · rw [seqSteps_seqOf_sub P hlt (by omega), seqSteps_seqOf_add P (by omega) (by omega)]
    omega
  · rw [seqSteps_seqOf_add P hge hd]
    rcases Nat.lt_or_ge d (1 + i) with hlt | hge'
    · rw [seqSteps_seqOf_add P hlt.le (by omega)]
      omega
    · rcases Nat.eq_or_lt_of_le hge' with rfl | hgt
      · rw [seqSteps_seqOf_add P le_rfl hd]
        omega
      · rw [seqSteps_seqOf_sub P hgt hd]
        omega

/-- Every ACKNACK says what is missing, unless what is announced is about half a turn ahead. -/
theorem fillAcknack_exact (stream : ReliableInputStream Msg)
    (hnear : seqSteps stream.lastHandled stream.lastAnnounced < 32768 ∨
      32784 < seqSteps stream.lastHandled stream.lastAnnounced) : AcknackExact stream where
  first := rfl
  bits i hi := by
    obtain ⟨P, hP⟩ : ∃ P, stream.lastHandled = seqOf P := ⟨_, (seqOf_self _).symm⟩
    rw [testBit_nackBitmap stream hi, ← stream.lt_iff_le_succ hi hnear]
    unfold nacks
    rw [decide_eq_true_iff, Option.isNone_iff_eq_none, hP,
      SeqNum.add_seqOf _ (show i + 1 ≤ 32767 by omega),
      SeqNum.addInt_seqOf _ (by omega), Nat.add_comm 1 i]
  resent out i hbit hi hheld := by
    refine mem_readSubmessageAcknack_of_held out (Nat.pos_of_ne_zero fun hzero => ?_) _ hheld
    rw [hzero, Nat.zero_testBit] at hbit
    exact absurd hbit (by simp)

/-- A heartbeat announces three messages to a new stream. -/
theorem fillAcknack_exact_heartbeat :
    ((new : ReliableInputStream Unit).updateFromHeartbeat (seqOf 0) (seqOf 2)).fillAcknack =
      (seqOf 0, 0, 7) ∧
    AcknackExact ((new : ReliableInputStream Unit).updateFromHeartbeat (seqOf 0) (seqOf 2)) :=
  ⟨by decide, fillAcknack_exact _ (by decide)⟩

/-- A heartbeat that leaves `last_announced_` half a turn less one behind: the first number is
not greater than what is announced and not stored, and its bit is not set. -/
theorem fillAcknack_exact_fails : ¬ ∀ h : InputHistory Unit,
    Transition.Reaches (· = InputHistory.start) InputHistory.step (fun _ _ => True) h →
      seqSteps h.stream.lastHandled h.stream.lastAnnounced ≠ 32768 → AcknackExact h.stream := by
  intro hall
  have hrun : Transition.Reaches (· = InputHistory.start) InputHistory.step (fun _ _ => True)
      ((InputHistory.start : InputHistory Unit).step
        (.updateFromHeartbeat (seqOf 32767) (seqOf 65535))) :=
    .next (.start rfl) trivial
  exact absurd (((hall _ hrun (by decide)).bits 0 (by decide)).mpr (by decide)) (by decide)

end ReliableInputStream

end XrceDds
