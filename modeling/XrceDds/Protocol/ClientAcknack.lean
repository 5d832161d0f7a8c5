import Mathlib.Data.Nat.Prime.Basic
import XrceDds.Client.InputFragments
import XrceDds.Protocol.AgentToClient

/-!
# The ACKNACKs of the client

`uxr_compute_acknack` sets a bit for a number whose slot is empty, and
`process_acknack_submessage` sends again what `messages_` holds under the numbers of the bits.
In the window the slot of a number is empty exactly when the number was not received
(`Kept.hasReceived_iff`).  A number behind the window shares its slot with one of the window, so
that it is asked for when that one was not received, whether or not it is announced so far ahead
(`acknack_retransmits_iff`).
-/

namespace XrceDds

/-- The two bytes of the bitmap in an ACKNACK, as `write_submessage_acknack` fills them. -/
def acknackBytes (nackBitmap : ℕ) : UInt8 × UInt8 :=
  (UInt8.ofNat (nackBitmap >>> 8), UInt8.ofNat (nackBitmap <<< 8 >>> 8))

/-- What `get_output_message` yields for a number, with the number. -/
def resentUnder (agent : ReliableOutputStream) (seqNum : SeqNum) : List (SeqNum × List UInt8) :=
  (agent.getMessage seqNum).toList.map fun message => (seqNum, message)

/-- What the loop of `process_acknack_submessage` pushes, with the numbers it asks for. -/
def resent (agent : ReliableOutputStream) (firstMessage : SeqNum) (nackBitmap : UInt8 × UInt8) :
    List (SeqNum × List UInt8) :=
  (List.range 8).flatMap fun i =>
    (if nackBitmap.2.toNat.testBit i then resentUnder agent (seqOf (firstMessage.val + i))
      else []) ++
    (if nackBitmap.1.toNat.testBit i then resentUnder agent (seqOf (firstMessage.val + i + 8))
      else [])

/-- What the Agent sends again when it gets the ACKNACK of a stream. -/
def resentFor (agent : ReliableOutputStream) (stream : InputReliableStream) :
    List (SeqNum × List UInt8) :=
  resent agent (uxrComputeAcknack stream).1 (acknackBytes (uxrComputeAcknack stream).2)

namespace InputRun

/-- What is admitted, and messages that are read are read no further than to their end. -/
def StrictlyAdmitted (run : InputRun) (e : InputEvent) : Prop :=
  run.Admitted e ∧ ∀ cleanups, e = .next cleanups → run.ReadsNoFurther cleanups

/-- A number from the last one that was handed over on was received. -/
def HasReceived (run : InputRun) (seqNum : UxrSeqNum) : Prop :=
  seqSteps run.stream.lastHandled seqNum = 0 ∨
    ∃ body, (run.position seqNum, body) ∈ run.received

/-- The number of a bit of the bitmap. -/
def bitNumber (run : InputRun) (i : ℕ) : UxrSeqNum :=
  uxrSeqNumAdd (uxrComputeAcknack run.stream).1 i

/-- The shifts of `uxr_compute_acknack` are defined. -/
def ShiftsDefined (run : InputRun) : Prop :=
  ∀ i < buffersToAck run.stream,
    uxrGetReliableBufferSize run.stream.base (run.bitNumber i) = 0 → i < 31

/-- A number is at most the last one that was announced. -/
def Announced (run : InputRun) (seqNum : UxrSeqNum) : Prop :=
  0 ≥ uxrSeqNumCmp seqNum run.stream.lastAnnounced

instance (run : InputRun) (seqNum : UxrSeqNum) : Decidable (run.Announced seqNum) :=
  inferInstanceAs (Decidable (_ ≥ _))

/-- The Agent sends again the messages of the sixteen numbers that were announced, were not
received and are still held, each once. -/
structure RetransmitsExactly (run : InputRun) (agent : ReliableOutputStream) : Prop where
  shifts : run.ShiftsDefined
  once : ((resentFor agent run.stream).map Prod.fst).Nodup
  exact : ∀ seqNum message, (seqNum, message) ∈ resentFor agent run.stream ↔
    (∃ i < 16, seqNum = run.bitNumber i) ∧ run.Announced seqNum ∧ ¬ run.HasReceived seqNum ∧
      agent.messages seqNum = some message

end InputRun

/-! ## The bitmap -/

/-- The bits of the bitmap, one after another. -/
lemma nackBitmap_foldl (f : ℕ → Prop) [DecidablePred f] (n : ℕ) :
    (List.range n).foldl
        (fun nackBitmap i => if f i then (nackBitmap ||| 1 <<< i) % 65536 else nackBitmap) 0 <
      65536 ∧
    ∀ k < 16, ((List.range n).foldl
        (fun nackBitmap i => if f i then (nackBitmap ||| 1 <<< i) % 65536 else nackBitmap)
          0).testBit k = decide (k < n ∧ f k) := by
  induction n with
  | zero => simp
  | succ n ih =>
    obtain ⟨hlt, hbits⟩ := ih
    rw [List.range_succ, List.foldl_append, List.foldl_cons, List.foldl_nil]
    split
    · next hf =>
      refine ⟨Nat.mod_lt _ (by decide), fun k hk => ?_⟩
      have hmod : ∀ x, (x % 65536).testBit k = (decide (k < 16) && x.testBit k) := fun x =>
        Nat.testBit_mod_two_pow x 16 k
      rw [hmod, Nat.testBit_or, hbits k hk, Nat.one_shiftLeft, Nat.testBit_two_pow,
        decide_eq_true hk, Bool.true_and]
      rcases Nat.lt_trichotomy k n with hlt' | rfl | hgt
      · simp [hlt', Nat.lt_succ_of_lt hlt', hlt'.ne']
      · simp [hf]
      · simp [hgt.ne, Nat.not_lt.mpr hgt.le, Nat.not_lt.mpr (Nat.succ_le_of_lt hgt)]
    · next hf =>
      refine ⟨hlt, fun k hk => ?_⟩
      rw [hbits k hk]
      rcases Nat.lt_trichotomy k n with hlt' | rfl | hgt
      · simp [hlt', Nat.lt_succ_of_lt hlt']
      · simp [hf]
      · simp [Nat.not_lt.mpr hgt.le, Nat.not_lt.mpr (Nat.succ_le_of_lt hgt)]

/-- A bit is set for a number whose slot is empty. -/
lemma testBit_uxrComputeAcknack (run : InputRun) {i : ℕ} (hi : i < 16) :
    (uxrComputeAcknack run.stream).2.testBit i =
      decide (i < buffersToAck run.stream ∧
        uxrGetReliableBufferSize run.stream.base (run.bitNumber i) = 0) := by
  have hbits := (nackBitmap_foldl (fun i => 0 = uxrGetReliableBufferSize run.stream.base
    (uxrSeqNumAdd (uxrGetFirstUnacked run.stream) i)) (buffersToAck run.stream)).2 i hi
  unfold InputRun.bitNumber
  rw [← decide_eq_decide.mpr (and_congr_right fun _ => eq_comm)]
  exact hbits

/-- The numbers in the order in which they are asked for. -/
lemma resent_acknackBytes (agent : ReliableOutputStream) (firstMessage : SeqNum)
    (nackBitmap : ℕ) :
    resent agent firstMessage (acknackBytes nackBitmap) =
      ((List.range 8).flatMap fun i => [i, i + 8]).flatMap fun i =>
        if nackBitmap.testBit i then resentUnder agent (uxrSeqNumAdd firstMessage i) else [] := by
  have hadd : ∀ i, seqOf (firstMessage.val + i) = uxrSeqNumAdd firstMessage i := by
    intro i
    rw [← uxrSeqNumAdd_seqOf, seqOf_self]
  have hlow : ∀ i < 8, (acknackBytes nackBitmap).2.toNat.testBit i = nackBitmap.testBit i := by
    intro i hi
    simp only [acknackBytes, UInt8.toNat_ofNat']
    rw [Nat.testBit_mod_two_pow, Nat.testBit_shiftRight, Nat.testBit_shiftLeft,
      decide_eq_true hi]
    simp
  have hhigh : ∀ i < 8,
      (acknackBytes nackBitmap).1.toNat.testBit i = nackBitmap.testBit (i + 8) := by
    intro i hi
    simp only [acknackBytes, UInt8.toNat_ofNat']
    rw [Nat.testBit_mod_two_pow, Nat.testBit_shiftRight, decide_eq_true hi, Nat.add_comm 8 i]
    simp
  unfold resent
  rw [List.flatMap_assoc]
  refine List.flatMap_congr fun i hi => ?_
  have hi8 := List.mem_range.mp hi
  rw [hlow i hi8, hhigh i hi8, Nat.add_assoc, hadd, hadd, List.flatMap_cons, List.flatMap_singleton]

/-- The messages that are sent again. -/
lemma mem_resentFor {run : InputRun} {agent : ReliableOutputStream} {seqNum : UxrSeqNum}
    {message : List UInt8} :
    (seqNum, message) ∈ resentFor agent run.stream ↔
      (∃ i < 16, seqNum = run.bitNumber i ∧ i < buffersToAck run.stream) ∧
        uxrGetReliableBufferSize run.stream.base seqNum = 0 ∧
        agent.messages seqNum = some message := by
  have horder : ∀ i, i ∈ ((List.range 8).flatMap fun i => [i, i + 8]) ↔ i < 16 := by
    intro i
    simp only [List.mem_flatMap, List.mem_range, List.mem_cons, List.not_mem_nil, or_false]
    constructor
    · rintro ⟨j, hj, rfl | rfl⟩ <;> omega
    · intro hi
      by_cases hlow : i < 8
      · exact ⟨i, hlow, .inl rfl⟩
      · exact ⟨i - 8, by omega, .inr (by omega)⟩
  unfold resentFor
  rw [resent_acknackBytes, List.mem_flatMap]
  constructor
  · rintro ⟨i, hi, hmem⟩
    rw [horder] at hi
    rw [testBit_uxrComputeAcknack run hi] at hmem
    split at hmem
    · next hbit =>
      obtain ⟨hlt, hempty⟩ := of_decide_eq_true hbit
      rw [resentUnder, List.mem_map] at hmem
      obtain ⟨message', hmessage, heq⟩ := hmem
      obtain ⟨rfl, rfl⟩ := Prod.mk.inj heq
      exact ⟨⟨i, hi, rfl, hlt⟩, hempty, Option.mem_toList.mp hmessage⟩
    · cases hmem
  · rintro ⟨⟨i, hi, rfl, hlt⟩, hempty, hmessage⟩
    refine ⟨i, (horder i).mpr hi, ?_⟩
    rw [testBit_uxrComputeAcknack run hi, if_pos (decide_eq_true ⟨hlt, hempty⟩), resentUnder]
    exact List.mem_map.mpr ⟨message, Option.mem_toList.mpr hmessage, rfl⟩

/-- Each number is asked for once. -/
lemma nodup_resentFor (run : InputRun) (agent : ReliableOutputStream) :
    ((resentFor agent run.stream).map Prod.fst).Nodup := by
  have hnodup : ((List.range 8).flatMap fun i => [i, i + 8]).Nodup := by decide
  have hlt : ∀ i ∈ ((List.range 8).flatMap fun i => [i, i + 8]), i < 16 := by decide
  have hinj : ∀ i < 16, ∀ j < 16, run.bitNumber i = run.bitNumber j → i = j := by
    intro i hi j hj heq
    unfold InputRun.bitNumber at heq
    rw [← seqOf_self (uxrComputeAcknack run.stream).1, uxrSeqNumAdd_seqOf, uxrSeqNumAdd_seqOf,
      Fin.ext_iff, seqOf_val, seqOf_val] at heq
    omega
  have hkeys : ∀ seqNum, ∀ key ∈ (resentUnder agent seqNum).map Prod.fst, key = seqNum := by
    intro seqNum key hkey
    rw [resentUnder, List.map_map] at hkey
    obtain ⟨_, -, rfl⟩ := List.mem_map.mp hkey
    rfl
  unfold resentFor
  rw [resent_acknackBytes]
  generalize ((List.range 8).flatMap fun i => [i, i + 8]) = order at hnodup hlt
  induction order with
  | nil => exact List.nodup_nil
  | cons i order ih =>
    obtain ⟨hnot, hnodup⟩ := List.nodup_cons.mp hnodup
    rw [List.flatMap_cons, List.map_append]
    refine List.nodup_append.mpr ⟨?_, ih hnodup fun j hj => hlt j (List.mem_cons_of_mem i hj), ?_⟩
    · split
      · unfold resentUnder
        cases agent.getMessage (uxrSeqNumAdd (uxrComputeAcknack run.stream).1 i) with
        | none => exact List.nodup_nil
        | some message => exact List.nodup_cons.mpr ⟨List.not_mem_nil, List.nodup_nil⟩
      · exact List.nodup_nil
    · intro key hkey key' hkey' heq
      subst heq
      rw [List.map_flatMap] at hkey'
      obtain ⟨j, hj, hkey'⟩ := List.mem_flatMap.mp hkey'
      split at hkey
      · split at hkey'
        · have hi' := hkeys _ _ hkey
          have hj' := hkeys _ _ hkey'
          have hij := hinj i (hlt i List.mem_cons_self) j (hlt j (List.mem_cons_of_mem i hj))
            (hi'.symm.trans hj')
          exact hnot (hij ▸ hj)
        · cases hkey'
      · cases hkey

/-! ## What was received -/

namespace InputRun

/-- The slots of the window tell what was received. -/
structure Kept (run : InputRun) : Prop where
  below : ∀ x ∈ run.received, x.1 < run.handled + run.stream.base.history
  used : ∀ x ∈ run.received, run.handled ≤ x.1 →
    uxrGetReliableBufferSize run.stream.base (seqOf x.1) ≠ 0

variable {run : InputRun}

lemma Kept.message (hkept : run.Kept) (h : FragmentWindow run) {body : List UInt8}
    {run' : InputRun} (hge : subheaderSize ≤ body.length)
    (hle : body.length ≤ uxrGetReliableBufferCapacity run.stream.base)
    (houtcome : FragmentWindow.MessageOutcome run body run') : run'.Kept := by
  obtain ⟨hbelow, hused⟩ := hkept
  have hpos := run.stream.base.history_pos
  cases houtcome with
  | ignored hbase _ hhandled hreceived =>
    exact ⟨by rwa [hreceived, hhandled, hbase], by rwa [hreceived, hhandled, hbase]⟩
  | handedOver _ hbase _ hhandled hreceived =>
    refine ⟨fun x hx => ?_, fun x hx hlo => ?_⟩ <;> rw [hreceived] at hx <;> rw [hbase]
    · rw [hhandled]
      rcases List.mem_cons.mp hx with rfl | hx
      · dsimp only
        omega
      · have := hbelow x hx
        omega
    · rw [hhandled] at hlo
      rcases List.mem_cons.mp hx with rfl | hx
      · dsimp only at hlo
        omega
      · exact hused x hx (by omega)
  | stored k hlo hhi _ _ hbase _ hhandled hreceived =>
    have hframe := FragmentWindow.storedBase_frame run.stream.base (seqOf k) hle
    have hholds := FragmentWindow.storedBase_holds run.stream.base (seqOf k) hle
    have hheader : 0 < subheaderSize := by decide
    refine ⟨fun x hx => ?_, fun x hx hlo' => ?_⟩ <;> rw [hreceived] at hx <;> rw [hbase]
    · rw [hhandled, hframe.history_eq]
      rcases List.mem_cons.mp hx with rfl | hx
      · exact hhi
      · exact hbelow x hx
    · rw [hhandled] at hlo'
      by_cases hxk : x.1 = k
      · rw [hxk, hholds.1]
        omega
      · have hx' : x ∈ run.received := (List.mem_cons.mp hx).resolve_left
          fun heq => hxk (by rw [heq])
        rw [hframe.bufferSize_eq _ (seqOf_mod_ne h.dvd hlo' (hbelow x hx') hlo hhi hxk)]
        exact hused x hx' hlo'

lemma Kept.next (hkept : run.Kept) {cleanups : List Bool} {run' : InputRun}
    (hfurther : run.ReadsNoFurther cleanups)
    (houtcome : FragmentWindow.NextOutcome run cleanups run') : run'.Kept := by
  obtain ⟨hbelow, hused⟩ := hkept
  cases houtcome with
  | nothing hbase _ hhandled hreceived =>
    exact ⟨by rwa [hreceived, hhandled, hbase], by rwa [hreceived, hhandled, hbase]⟩
  | read p _ _ hemptied _ hhandled hreceived _ hsame =>
    refine ⟨fun x hx => ?_, fun x hx hlo => ?_⟩ <;> rw [hreceived] at hx
    · have := hbelow x hx
      rw [hhandled, hemptied.history_eq]
      omega
    · rw [hhandled] at hlo
      rw [hsame hfurther x.1 hlo (hbelow x hx)]
      exact hused x hx (by omega)

lemma kept (hrun : Transition.Reaches Starts step StrictlyAdmitted run) :
    FragmentWindow run ∧ run.Kept := by
  refine hrun.invariant (I := fun run => FragmentWindow run ∧ run.Kept) ?_ ?_
  · rintro _ ⟨base, hdvd, hcap, rfl⟩
    exact ⟨FragmentWindow.reset _ hdvd hcap, by simp, by simp⟩
  · rintro run e ⟨h, hkept⟩ ⟨hadmitted, hfurther⟩
    refine ⟨h.step hadmitted, ?_⟩
    cases e with
    | message seqNum body =>
      obtain ⟨r, hr, houtcome⟩ := h.receive hadmitted
      rw [step, hr]
      exact hkept.message h hadmitted.1 hadmitted.2.1 houtcome
    | next cleanups => exact hkept.next (hfurther cleanups rfl) (h.next cleanups hadmitted).2
    | heartbeat firstSeqNum lastSeqNum =>
      obtain ⟨hbelow, hused⟩ := hkept
      have hhandled : (run.step (.heartbeat firstSeqNum lastSeqNum)).handled = run.handled := by
        simp [step, withStream, uxrProcessHeartbeat, FragmentWindow.seqSteps_self]
      have hbase : (run.step (.heartbeat firstSeqNum lastSeqNum)).stream.base = run.stream.base :=
        FragmentWindow.announce_base _ _
      exact ⟨by rwa [hhandled, hbase], by rwa [hhandled, hbase]⟩
    | reset => exact ⟨by simp [step], by simp [step]⟩

/-- The number that is `t` behind the last one that was handed over. -/
lemma seqSteps_bit (h : FragmentWindow run) {t : ℕ} (ht : t < 65536) :
    seqSteps run.stream.lastHandled (seqOf (65535 + run.handled + t)) = t := by
  rw [h.lastHandled_eq]
  exact seqSteps_seqOf _ ht

/-- In the window the slot of a number tells whether it was received. -/
lemma Kept.hasReceived_iff (hkept : run.Kept) (h : FragmentWindow run) {t : ℕ}
    (ht : t ≤ run.stream.base.history) :
    run.HasReceived (seqOf (65535 + run.handled + t)) ↔
      t = 0 ∨ uxrGetReliableBufferSize run.stream.base (seqOf (65535 + run.handled + t)) ≠ 0 := by
  have hlt := run.stream.base.history_lt
  unfold HasReceived position
  rw [seqSteps_bit h (by omega)]
  rcases Nat.eq_zero_or_pos t with rfl | hpos
  · simp
  · obtain ⟨k, hk⟩ : ∃ k, k = run.handled + t - 1 := ⟨_, rfl⟩
    have hnum : seqOf (65535 + run.handled + t) = seqOf k := by
      rw [← seqOf_turn_add k]
      congr 1
      omega
    rw [hnum, ← hk]
    constructor
    · rintro (hzero | ⟨body, hmem⟩)
      · exact .inl hzero
      · exact .inr (hkept.used (k, body) hmem (by omega))
    · rintro (hzero | hused)
      · exact .inl hzero
      · obtain ⟨body, hmem, -⟩ := h.held (k := k) (by omega) (by omega) hused
        exact .inr ⟨body, hmem⟩

/-- Behind the window nothing was received. -/
lemma Kept.not_hasReceived (hkept : run.Kept) (h : FragmentWindow run) {t : ℕ}
    (ht : run.stream.base.history < t) (hlt : t < 65536) :
    ¬ run.HasReceived (seqOf (65535 + run.handled + t)) := by
  unfold HasReceived position
  rw [seqSteps_bit h hlt]
  rintro (hzero | ⟨body, hmem⟩)
  · omega
  · have := hkept.below _ hmem
    dsimp only at this
    omega

/-! ## The numbers of the bits -/

/-- The search ends at an empty slot, or at the last number that was handed over. -/
lemma firstUnackedLoop_cases (stream : InputReliableStream) (n i : ℕ) :
    (∀ j < n, uxrGetReliableBufferSize stream.base
        (uxrSeqNumAdd stream.lastHandled (i + j + 1)) ≠ 0) ∧
      firstUnackedLoop stream n i = stream.lastHandled ∨
    ∃ j < n, uxrGetReliableBufferSize stream.base
        (uxrSeqNumAdd stream.lastHandled (i + j + 1)) = 0 ∧
      firstUnackedLoop stream n i = uxrSeqNumAdd stream.lastHandled (i + j + 1) := by
  induction n generalizing i with
  | zero => exact .inl ⟨fun j hj => by omega, rfl⟩
  | succ n ih =>
    rw [firstUnackedLoop]
    split
    · next hempty => exact .inr ⟨0, Nat.succ_pos n, hempty.symm, rfl⟩
    · next hused =>
      rcases ih (i + 1) with ⟨hall, hend⟩ | ⟨j, hj, hempty, hend⟩
      · refine .inl ⟨fun j hj => ?_, hend⟩
        cases j with
        | zero => exact Ne.symm hused
        | succ j =>
          have hj' := hall j (by omega)
          rwa [Nat.add_right_comm i 1 j] at hj'
      · rw [Nat.add_right_comm i 1 j] at hempty hend
        exact .inr ⟨j + 1, by omega, hempty, hend⟩

/-- Where the bitmap starts: at an empty slot, or at the last number that was handed over when no
slot is empty. -/
lemma first_cases (h : FragmentWindow run) :
    ∃ e ≤ run.stream.base.history,
      (∀ i, run.bitNumber i = seqOf (65535 + run.handled + (e + i))) ∧
      (e = 0 ∧ (∀ j < run.stream.base.history, uxrGetReliableBufferSize run.stream.base
          (seqOf (65535 + run.handled + (j + 1))) ≠ 0) ∨
        0 < e ∧ uxrGetReliableBufferSize run.stream.base (run.bitNumber 0) = 0) := by
  have hnum : ∀ j, uxrSeqNumAdd run.stream.lastHandled (0 + j + 1) =
      seqOf (65535 + run.handled + (j + 1)) := by
    intro j
    rw [h.lastHandled_eq, uxrSeqNumAdd_seqOf, Nat.zero_add]
  unfold bitNumber uxrComputeAcknack uxrGetFirstUnacked
  rcases firstUnackedLoop_cases run.stream run.stream.base.history 0 with
    ⟨hall, hend⟩ | ⟨j, hj, hempty, hend⟩
  · refine ⟨0, Nat.zero_le _, fun i => ?_, .inl ⟨rfl, fun j hj => ?_⟩⟩
    · rw [hend, h.lastHandled_eq, uxrSeqNumAdd_seqOf, Nat.zero_add]
    · rw [← hnum]
      exact hall j hj
  · rw [hnum] at hempty hend
    refine ⟨j + 1, hj, fun i => ?_, .inr ⟨Nat.succ_pos j, ?_⟩⟩
    · rw [hend, uxrSeqNumAdd_seqOf, Nat.add_assoc]
    · rw [hend, uxrSeqNumAdd_seqOf]
      exact hempty

/-- When no slot of the window is empty, none is. -/
lemma used_of_full (h : FragmentWindow run)
    (hall : ∀ j < run.stream.base.history, uxrGetReliableBufferSize run.stream.base
      (seqOf (65535 + run.handled + (j + 1))) ≠ 0) (X : ℕ) :
    uxrGetReliableBufferSize run.stream.base (seqOf X) ≠ 0 := by
  have hpos := run.stream.base.history_pos
  obtain ⟨Y, hY⟩ : ∃ Y, Y = 65536 + run.handled := ⟨_, rfl⟩
  obtain ⟨c, hc⟩ := Nat.exists_eq_succ_of_ne_zero hpos.ne'
  have hslot : (seqOf (65535 + run.handled +
      ((X + Y * c) % run.stream.base.history + 1))).val % run.stream.base.history =
        (seqOf X).val % run.stream.base.history := by
    change slotOf _ _ = slotOf _ _
    rw [slotOf_of_dvd h.dvd, slotOf_of_dvd h.dvd,
      show 65535 + run.handled + ((X + Y * c) % run.stream.base.history + 1) =
        Y + (X + Y * c) % run.stream.base.history by omega,
      Nat.add_mod_mod, show Y + (X + Y * c) = X + Y * run.stream.base.history by
        rw [hc, Nat.mul_succ]; omega, Nat.add_mul_mod_self_right]
  rw [← uxrGetReliableBufferSize_congr hslot]
  exact hall _ (Nat.mod_lt _ hpos)

/-- A history that divides a turn and is less divides half of one. -/
lemma history_dvd_half {history : ℕ} (hdvd : history ∣ 65536) (hlt : history < 65536) :
    history ∣ 32768 := by
  obtain ⟨k, hk, rfl⟩ := (Nat.dvd_prime_pow Nat.prime_two (m := 16)).mp hdvd
  refine pow_dvd_pow 2 (m := k) (n := 15) ?_
  by_contra hgt
  obtain rfl : k = 16 := by omega
  exact absurd hlt (by decide)

/-- Where a bit can be set, the bits that are looked at are those of the numbers that are
announced. -/
lemma lt_buffersToAck_iff (h : FragmentWindow run) (hshifts : run.ShiftsDefined) {i : ℕ}
    (hi : i < 16)
    (hempty : uxrGetReliableBufferSize run.stream.base (run.bitNumber i) = 0) :
    i < buffersToAck run.stream ↔ run.Announced (run.bitNumber i) := by
  obtain ⟨e, he, hbit, hcase⟩ := first_cases h
  rcases hcase with ⟨-, hall⟩ | ⟨hpos, hfirst⟩
  · rw [hbit] at hempty
    exact absurd hempty (used_of_full h hall _)
  -- the slot of the first number is met again half a turn later
  have hhalf : buffersToAck run.stream ≤ 32768 := by
    by_contra hgt
    have hslot : (run.bitNumber 32768).val % run.stream.base.history =
        (run.bitNumber 0).val % run.stream.base.history := by
      obtain ⟨c, hc⟩ := history_dvd_half h.dvd run.stream.base.history_lt
      rw [hbit, hbit]
      change slotOf _ _ = slotOf _ _
      rw [slotOf_of_dvd h.dvd, slotOf_of_dvd h.dvd, ← Nat.add_assoc, ← Nat.add_assoc]
      conv_lhs => rw [hc, Nat.add_mul_mod_self_left]
      rw [Nat.add_zero]
    have hlt := hshifts 32768 (by omega) (by rw [uxrGetReliableBufferSize_congr hslot, hfirst])
    omega
  have hzero := hbit 0
  obtain ⟨F, hF⟩ : ∃ F, 65535 + run.handled + (e + 0) = F + 1 := ⟨65534 + run.handled + e, by omega⟩
  have hfirstNum : uxrGetFirstUnacked run.stream = seqOf (F + 1) := by
    rw [← hF, ← hzero, bitNumber, ← seqOf_self (uxrComputeAcknack run.stream).1,
      uxrSeqNumAdd_seqOf, Nat.add_zero, seqOf_self]
    rfl
  have hsteps : buffersToAck run.stream = seqSteps (seqOf F) run.stream.lastAnnounced := by
    unfold buffersToAck
    rw [hfirstNum, uxrSeqNumSub_one, uxrSeqNumSub_eq_seqSteps]
  have hlast : run.stream.lastAnnounced = seqOf (F + buffersToAck run.stream) := by
    rw [hsteps, seqOf_add_seqSteps]
  unfold Announced
  rw [hlast, hbit, show 65535 + run.handled + (e + i) = F + 1 + i by omega,
    uxrSeqNumCmp_seqOf_nonpos (by omega) (by omega)]
  omega

/-- The Agent sends again exactly what is missing when the shifts are defined and no number behind
the window that is announced and held shares its slot with one that was received. -/
theorem acknack_retransmits_iff (hrun : Transition.Reaches Starts step StrictlyAdmitted run)
    (agent : ReliableOutputStream) :
    run.RetransmitsExactly agent ↔
      run.ShiftsDefined ∧ ∀ i < 16, run.Announced (run.bitNumber i) →
        run.stream.base.history < seqSteps run.stream.lastHandled (run.bitNumber i) →
          agent.messages (run.bitNumber i) ≠ none →
            uxrGetReliableBufferSize run.stream.base (run.bitNumber i) = 0 := by
  obtain ⟨h, hkept⟩ := kept hrun
  have hhalf := history_le_half h.dvd run.stream.base.history_lt
  obtain ⟨e, he, hbit, hcase⟩ := first_cases h
  have hsteps : ∀ i < 16, seqSteps run.stream.lastHandled (run.bitNumber i) = e + i := by
    intro i hi
    rw [hbit, seqSteps_bit h (by omega)]
  constructor
  · rintro ⟨hshifts, -, hexact⟩
    refine ⟨hshifts, fun i hi hannounced hbehind hheld => ?_⟩
    obtain ⟨message, hmessage⟩ := Option.ne_none_iff_exists'.mp hheld
    rw [hsteps i hi] at hbehind
    have hnot : ¬ run.HasReceived (run.bitNumber i) := by
      rw [hbit]
      exact hkept.not_hasReceived h hbehind (by omega)
    exact (mem_resentFor.mp
      ((hexact _ message).mpr ⟨⟨i, hi, rfl⟩, hannounced, hnot, hmessage⟩)).2.1
  · rintro ⟨hshifts, hbehind⟩
    refine ⟨hshifts, nodup_resentFor run agent, fun seqNum message => ?_⟩
    rw [mem_resentFor]
    constructor
    · rintro ⟨⟨i, hi, rfl, hlt⟩, hempty, hmessage⟩
      refine ⟨⟨i, hi, rfl⟩, (lt_buffersToAck_iff h hshifts hi hempty).mp hlt, ?_, hmessage⟩
      by_cases hin : e + i ≤ run.stream.base.history
      · rw [hbit] at hempty ⊢
        rw [hkept.hasReceived_iff h hin]
        rintro (hzero | hused)
        · -- then no slot is empty
          rcases hcase with ⟨-, hall⟩ | ⟨hpos, -⟩
          · exact used_of_full h hall _ hempty
          · omega
        · exact hused hempty
      · rw [hbit]
        exact hkept.not_hasReceived h (by omega) (by omega)
    · rintro ⟨⟨i, hi, rfl⟩, hannounced, hnot, hmessage⟩
      have hempty : uxrGetReliableBufferSize run.stream.base (run.bitNumber i) = 0 := by
        by_cases hin : e + i ≤ run.stream.base.history
        · by_contra hused
          rw [hbit] at hnot hused
          exact hnot ((hkept.hasReceived_iff h hin).mpr (.inr hused))
        · exact hbehind i hi hannounced (by rw [hsteps i hi]; omega) (by simp [hmessage])
      exact ⟨⟨i, hi, rfl, (lt_buffersToAck_iff h hshifts hi hempty).mpr hannounced⟩, hempty,
        hmessage⟩

/-- A message that is no FRAGMENT. -/
def dataBody : List UInt8 := [9, 1, 1, 0, 5]

/-- A stream with two slots that got the message 1 and the announcement of `last`. -/
def announcedRun (last : UxrSeqNum) : InputRun :=
  (twoSlotsRun.step (.message 1 dataBody)).step (.heartbeat 0 last)

/-- An Agent that holds the messages 0 to 3. -/
def holdingAgent : ReliableOutputStream where
  messages := fun seqNum => if seqNum.val ≤ 3 then some [seqNum.val.toUInt8] else none
  lastUnacked := 3
  lastSent := 3
  firstUnacked := 0

lemma announcedRun_reached (last : UxrSeqNum) :
    Transition.Reaches Starts step StrictlyAdmitted (announcedRun last) := by
  have hstart : Transition.Reaches Starts step StrictlyAdmitted twoSlotsRun :=
    .start twoSlotsRun_starts
  refine (hstart.next (e := .message 1 dataBody) ?_).next (e := .heartbeat 0 last) ?_
  · refine ⟨⟨by decide, by decide, fun hinfo => absurd hinfo (by decide), ?_⟩,
      fun _ h => by cases h⟩
    exact fun _ h => absurd h (by decide)
  · exact ⟨trivial, fun _ h => by cases h⟩

/-- The numbers 0 and 1 are announced. -/
theorem acknack_retransmits_window : (announcedRun 1).RetransmitsExactly holdingAgent :=
  (acknack_retransmits_iff (announcedRun_reached 1) holdingAgent).mpr
    ⟨by unfold ShiftsDefined; decide, by decide⟩

/-- The number 3 is announced, and shares its slot with the message 1. -/
theorem acknack_retransmits_fails : ¬ (announcedRun 3).RetransmitsExactly holdingAgent := by
  intro h
  have hnot : ¬ (announcedRun 3).HasReceived 3 := by
    rintro (hzero | ⟨body, hmem⟩)
    · exact absurd hzero (by decide)
    · have hreceived : (announcedRun 3).received = [(1, dataBody)] := by decide
      rw [hreceived, List.mem_singleton] at hmem
      exact absurd (Prod.mk.inj hmem).1 (by decide)
  have hmem := (h.exact 3 [3]).mpr
    ⟨⟨3, by decide, by decide⟩, by decide, hnot, by decide⟩
  exact absurd hmem (by decide)

end InputRun

end XrceDds
