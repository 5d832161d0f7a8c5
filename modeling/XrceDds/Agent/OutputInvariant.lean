import XrceDds.Agent.Fragmentation
import Mathlib.Logic.Relation

/-!
# The representation invariant of the output reliable stream

The stream stands for a queue of messages (`Holds`): `outstanding` are the messages that
wait to be acknowledged, at the positions from `F` on, of which the first `s` have been
handed out.  Every operation is an operation on that queue, also where the counters wrap.

The window is checked once for each submessage, not for each of its FRAGMENTs.  A push that
would leave half a turn of messages unsent breaks the comparison of `get_next_message`
(`push_stalls`); as long as no push does (`PushBounded`), every run keeps the invariant
(`representation_of_run`).
-/

namespace XrceDds

open ByteMemory

namespace ReliableOutputStream

/-! ## The queue that a stream stands for -/

/-- The stream holds the messages `outstanding` at the positions from `F` on, and has handed
out the first `s` of them. -/
structure Holds (stream : ReliableOutputStream) (F s : ℕ) (outstanding : List (List UInt8)) :
    Prop where
  firstUnacked_eq : stream.firstUnacked = seqOf F
  lastUnacked_eq : stream.lastUnacked = seqOf (F + outstanding.length + 65535)
  lastSent_eq : stream.lastSent = seqOf (F + s + 65535)
  sent_le : s ≤ outstanding.length
  unsent_le : outstanding.length ≤ s + 32767
  length_le : outstanding.length ≤ 32782
  stored : ∀ k (hk : k < outstanding.length), stream.messages (seqOf (F + k)) = some outstanding[k]
  empty : ∀ key, outstanding.length ≤ seqSteps (seqOf F) key → stream.messages key = none

/-- A turn of the circle leads back. -/
lemma seqOf_turn (X : ℕ) : seqOf (X + 65536) = seqOf X :=
  Fin.ext (by simp only [seqOf_val, Nat.add_mod_right])

/-- The number behind that of the position before `X`. -/
lemma addInt_pred (X : ℕ) : SeqNum.addInt (seqOf (X + 65535)) 1 = seqOf X := by
  rw [SeqNum.addInt_seqOf _ (by decide)]
  exact seqOf_turn X

/-- A stream that was reset holds nothing. -/
lemma holds_reset : Holds reset 0 0 [] where
  firstUnacked_eq := rfl
  lastUnacked_eq := rfl
  lastSent_eq := rfl
  sent_le := le_rfl
  unsent_le := Nat.zero_le _
  length_le := Nat.zero_le _
  stored := fun _ hk => absurd hk (Nat.not_lt_zero _)
  empty := fun _ _ => rfl

namespace Holds

variable {stream stream' : ReliableOutputStream} {F s : ℕ} {outstanding : List (List UInt8)}

/-- There is room for a submessage while fewer than sixteen messages are outstanding. -/
lemma hasRoom_iff (h : Holds stream F s outstanding) :
    stream.HasRoom ↔ outstanding.length ≤ 15 := by
  have hlen := h.length_le
  have hfirst : SeqNum.add stream.firstUnacked (seqOf (reliableStreamDepth - 1)) =
      seqOf (F + 15 + 65536) := by
    rw [h.firstUnacked_eq, seqOf_turn]
    exact SeqNum.add_seqOf F (by decide)
  unfold HasRoom
  rw [hfirst, h.lastUnacked_eq, SeqNum.lt_seqOf (by omega) (by omega)]
  omega

/-- The messages that have not been handed out are counted from `lastSent`. -/
lemma seqSteps_unsent (h : Holds stream F s outstanding) :
    seqSteps stream.lastSent stream.lastUnacked = outstanding.length - s := by
  have hsent := h.sent_le
  have hlen := h.length_le
  rw [h.lastSent_eq, h.lastUnacked_eq,
    show F + outstanding.length + 65535 = F + s + 65535 + (outstanding.length - s) by omega]
  exact seqSteps_seqOf _ (by omega)

/-- A key is occupied when it lies within the outstanding messages. -/
lemma messages_ne_none_iff (h : Holds stream F s outstanding) (key : SeqNum) :
    stream.messages key ≠ none ↔ seqSteps (seqOf F) key < outstanding.length := by
  constructor
  · intro hkey
    by_contra hout
    exact hkey (h.empty key (Nat.le_of_not_lt hout))
  · intro hlt
    have := h.stored _ hlt
    rw [seqOf_add_seqSteps] at this
    rw [this]
    exact Option.some_ne_none _

/-- The numbers behind `lastUnacked` are those behind the queue. -/
lemma seqOf_behind (h : Holds stream F s outstanding) (k : ℕ) :
    seqOf (stream.lastUnacked.val + 1 + k) = seqOf (F + (outstanding.length + k)) := by
  rw [h.lastUnacked_eq, Nat.add_assoc, seqOf_val_add,
    show F + outstanding.length + 65535 + (1 + k) = F + (outstanding.length + k) + 65536 by omega,
    seqOf_turn]

/-- The numbers behind `lastUnacked` are free. -/
lemma fresh (h : Holds stream F s outstanding) {k : ℕ} (hk : outstanding.length + k < 65536) :
    stream.messages (seqOf (stream.lastUnacked.val + 1 + k)) = none := by
  rw [h.seqOf_behind]
  refine h.empty _ ?_
  rw [seqSteps_seqOf _ hk]
  exact Nat.le_add_right _ _

/-- Messages are appended at the end of the queue. -/
lemma append (h : Holds stream F s outstanding) {messages : List (List UInt8)}
    (happends : Appends stream stream' messages)
    (hunsent : outstanding.length + messages.length ≤ s + 32767)
    (hlength : outstanding.length + messages.length ≤ 32782) :
    Holds stream' F s (outstanding ++ messages) := by
  have hsent := h.sent_le
  have hlast : ∀ k, seqOf (stream.lastUnacked.val + 1 + k) =
    seqOf (F + outstanding.length + k) := by
    intro k
    rw [h.seqOf_behind, Nat.add_assoc]
  refine ⟨happends.firstUnacked_eq.trans h.firstUnacked_eq, ?_,
    happends.lastSent_eq.trans h.lastSent_eq, ?_, ?_, ?_, ?_, ?_⟩
  · rw [happends.lastUnacked_eq, h.lastUnacked_eq, seqOf_val_add, List.length_append]
    congr 1
    omega
  · rw [List.length_append]
    omega
  · rw [List.length_append]
    omega
  · rw [List.length_append]
    omega
  · intro k hk
    rw [List.length_append] at hk
    rcases Nat.lt_or_ge k outstanding.length with hold | hnew
    · rw [happends.others, h.stored k hold, List.getElem_append_left hold]
      intro j hj heq
      rw [hlast, Fin.ext_iff, seqOf_val, seqOf_val] at heq
      omega
    · obtain ⟨j, rfl⟩ := Nat.exists_eq_add_of_le hnew
      have hj : j < messages.length := by omega
      have hstored := happends.stored j hj
      rw [hlast, Nat.add_assoc] at hstored
      rw [hstored, List.getElem_append_right hnew]
      simp
  · intro key hkey
    rw [List.length_append] at hkey
    rw [happends.others, h.empty key (by omega)]
    intro j hj heq
    rw [heq, hlast, Nat.add_assoc, seqSteps_seqOf F (by omega)] at hkey
    omega

/-- `get_next_message` hands out the next message that has not been handed out. -/
lemma getNextMessage (h : Holds stream F s outstanding) :
    stream.getNextMessage.2 = outstanding[s]? ∧
      Holds stream.getNextMessage.1 F (min (s + 1) outstanding.length) outstanding := by
  have hsent := h.sent_le
  have hunsent := h.unsent_le
  have hcond : SeqNum.Lt stream.lastSent stream.lastUnacked ↔ s < outstanding.length := by
    rw [SeqNum.lt_iff_seqSteps, h.seqSteps_unsent]
    omega
  unfold ReliableOutputStream.getNextMessage
  split
  · next hlt =>
    have hs := hcond.mp hlt
    have hnext : SeqNum.addInt stream.lastSent 1 = seqOf (F + s) := by
      rw [h.lastSent_eq]
      exact addInt_pred _
    dsimp only
    rw [hnext, h.stored s hs, List.getElem?_eq_getElem hs, min_eq_left (Nat.succ_le_of_lt hs)]
    refine ⟨rfl, h.firstUnacked_eq, h.lastUnacked_eq, ?_, hs, by omega, h.length_le, h.stored,
      h.empty⟩
    change seqOf (F + s) = seqOf (F + (s + 1) + 65535)
    rw [show F + (s + 1) + 65535 = F + s + 65536 by omega, seqOf_turn]
  · next hge =>
    have hs : outstanding.length ≤ s := Nat.le_of_not_lt fun hs => hge (hcond.mpr hs)
    rw [List.getElem?_eq_none hs, min_eq_right (Nat.le_succ_of_le hs), Nat.le_antisymm hs hsent]
    exact ⟨rfl, Nat.le_antisymm hsent hs ▸ h⟩

/-- One turn of the loop of `update_from_acknack` drops the first message of the queue. -/
lemma eraseFirst {message : List UInt8} (h : Holds stream F (s + 1) (message :: outstanding)) :
    Holds stream.eraseFirst (F + 1) s outstanding := by
  obtain ⟨hfirst, hlast, hlastSent, hsent, hunsent, hlength, hstored, hempty⟩ := h
  simp only [List.length_cons] at hlast hsent hunsent hlength hempty
  have hmessages : stream.eraseFirst.messages = Function.update stream.messages (seqOf F) none := by
    unfold ReliableOutputStream.eraseFirst
    rw [hfirst]
  refine ⟨?_, ?_, ?_, by omega, by omega, by omega, ?_, ?_⟩
  · unfold ReliableOutputStream.eraseFirst
    rw [hfirst]
    exact SeqNum.addInt_seqOf F (d := 1) (by decide)
  · refine hlast.trans ?_
    congr 1
    omega
  · refine hlastSent.trans ?_
    congr 1
    omega
  · intro k hk
    have hne : seqOf (F + 1 + k) ≠ seqOf F := by
      intro heq
      rw [Fin.ext_iff, seqOf_val, seqOf_val] at heq
      omega
    have := hstored (k + 1) (Nat.succ_lt_succ hk)
    rw [List.getElem_cons_succ] at this
    rw [hmessages, Function.update_of_ne hne, Nat.add_assoc, Nat.add_comm 1 k]
    exact this
  · intro key hkey
    rw [hmessages]
    by_cases heq : key = seqOf F
    · rw [heq, Function.update_self]
    · rw [Function.update_of_ne heq]
      refine hempty key ?_
      -- `key` is as many steps above `F + 1` as it is above `F`, less one
      obtain ⟨d, hd⟩ : ∃ d, d = seqSteps (seqOf F) key := ⟨_, rfl⟩
      have hlt : d < 65536 := hd ▸ seqSteps_lt _ _
      have hpos : d ≠ 0 := by
        intro hzero
        apply heq
        rw [← seqOf_add_seqSteps F key, ← hd, hzero]
        rfl
      have hkeyd : key = seqOf (F + 1 + (d - 1)) := by
        rw [← seqOf_add_seqSteps F key, ← hd]
        congr 1
        omega
      rw [hkeyd, seqSteps_seqOf _ (by omega)] at hkey
      rw [← hd]
      omega

/-- The loop of `update_from_acknack` drops what is acknowledged. -/
lemma eraseLoop {d fuel : ℕ} (h : Holds stream F s outstanding) (hd : d ≤ s) (hfuel : d < fuel)
    (hturn : d ≤ 32767) :
    Holds (ReliableOutputStream.eraseLoop (seqOf (F + d)) fuel stream) (F + d) (s - d)
      (outstanding.drop d) := by
  induction d generalizing stream F s outstanding fuel with
  | zero =>
    obtain ⟨fuel, rfl⟩ := Nat.exists_eq_succ_of_ne_zero (Nat.ne_of_gt hfuel)
    have hstop : ¬ SeqNum.Gt (seqOf (F + 0)) stream.firstUnacked := by
      rw [h.firstUnacked_eq, Nat.add_zero, SeqNum.gt_seqOf (by omega) (by omega)]
      exact Nat.lt_irrefl F
    rw [ReliableOutputStream.eraseLoop, if_neg hstop]
    exact h
  | succ d ih =>
    obtain ⟨fuel, rfl⟩ := Nat.exists_eq_succ_of_ne_zero (show fuel ≠ 0 by omega)
    obtain ⟨s, rfl⟩ := Nat.exists_eq_succ_of_ne_zero (show s ≠ 0 by omega)
    have hgo : SeqNum.Gt (seqOf (F + (d + 1))) stream.firstUnacked := by
      rw [h.firstUnacked_eq, SeqNum.gt_seqOf (by omega) (by omega)]
      omega
    rw [ReliableOutputStream.eraseLoop, if_pos hgo]
    cases outstanding with
    | nil =>
      have := h.sent_le
      rw [List.length_nil] at this
      omega
    | cons message outstanding =>
      have hnext := ih h.eraseFirst (by omega) (show d < fuel by omega) (by omega)
      rw [show F + 1 + d = F + (d + 1) by omega] at hnext
      rwa [List.drop_succ_cons, Nat.succ_sub_succ]

/-- An acknowledgement of what is not outstanding, or not handed out, changes nothing. -/
lemma updateFromAcknack_eq (h : Holds stream F s outstanding) {a : SeqNum}
    (ha : seqSteps (seqOf F) a = 0 ∨ s < seqSteps (seqOf F) a) :
    stream.updateFromAcknack a = stream := by
  obtain ⟨d, hd⟩ : ∃ d, d = seqSteps (seqOf F) a := ⟨_, rfl⟩
  have hlt : d < 65536 := hd ▸ seqSteps_lt _ _
  have haeq : a = seqOf (F + d) := by rw [hd, seqOf_add_seqSteps]
  have hsent := h.sent_le
  have hlength := h.length_le
  rw [← hd] at ha
  unfold ReliableOutputStream.updateFromAcknack
  split
  · next hle =>
    -- nothing is dropped unless `a` is less than half a turn above `F`
    have hstop : ¬ SeqNum.Gt a stream.firstUnacked := by
      intro hgt
      have hgt : SeqNum.Lt stream.firstUnacked a := hgt
      rw [h.firstUnacked_eq, SeqNum.lt_iff_seqSteps, ← hd] at hgt
      refine hle ?_
      change SeqNum.Lt (SeqNum.addInt stream.lastSent 1) a
      rw [h.lastSent_eq, addInt_pred, SeqNum.lt_iff_seqSteps, haeq,
        show F + d = F + s + (d - s) by omega, seqSteps_seqOf _ (by omega)]
      omega
    rw [ReliableOutputStream.eraseLoop, if_neg hstop]
  · rfl

/-- An acknowledgement of messages that were handed out drops them. -/
lemma updateFromAcknack_seqOf (h : Holds stream F s outstanding) {d : ℕ} (hd : d ≤ s)
    (hturn : s ≤ 32767) :
    Holds (stream.updateFromAcknack (seqOf (F + d))) (F + d) (s - d) (outstanding.drop d) := by
  have hle : SeqNum.Le (seqOf (F + d)) (SeqNum.addInt stream.lastSent 1) := by
    rw [h.lastSent_eq, addInt_pred, SeqNum.le_seqOf (by omega) (by omega)]
    omega
  unfold ReliableOutputStream.updateFromAcknack
  rw [if_pos hle]
  exact h.eraseLoop hd (by omega) (by omega)

/-- Whatever an acknowledgement says, it drops messages from the front of the queue that have
been handed out. -/
lemma updateFromAcknack (h : Holds stream F s outstanding) (a : SeqNum) :
    ∃ d ≤ s, Holds (stream.updateFromAcknack a) (F + d) (s - d) (outstanding.drop d) := by
  by_cases hout : seqSteps (seqOf F) a = 0 ∨ s < seqSteps (seqOf F) a
  · refine ⟨0, Nat.zero_le _, ?_⟩
    rw [h.updateFromAcknack_eq hout]
    exact h
  · unfold ReliableOutputStream.updateFromAcknack
    by_cases hgt : SeqNum.Gt a stream.firstUnacked
    · split
      · refine ⟨seqSteps (seqOf F) a, by omega, ?_⟩
        have hhalf : SeqNum.Lt stream.firstUnacked a := hgt
        rw [h.firstUnacked_eq, SeqNum.lt_iff_seqSteps] at hhalf
        have hdrop := h.eraseLoop (show seqSteps (seqOf F) a ≤ s by omega)
          (show seqSteps (seqOf F) a < 65536 by omega) (by omega)
        rwa [seqOf_add_seqSteps] at hdrop
      · exact ⟨0, Nat.zero_le _, h⟩
    · refine ⟨0, Nat.zero_le _, ?_⟩
      split
      · rw [ReliableOutputStream.eraseLoop, if_neg hgt]
        exact h
      · exact h

end Holds

/-! ## Runs -/

/-- A call of one of the operations of the stream. -/
inductive Call where
  | pushSubmessage (submessageId : UInt8) (submessage : List UInt8)
  | getNextMessage
  | getMessage (seqNum : SeqNum)
  | updateFromAcknack (firstUnacked : SeqNum)
  | fillHeartbeat
  | reset

/-- A stream with the messages that were pushed, and those that `get_next_message` handed out,
since the last reset. -/
structure History where
  stream : ReliableOutputStream
  pushed : List (List UInt8)
  handed : List (List UInt8)

/-- The history of a new stream. -/
def History.start : History := ⟨.reset, [], []⟩

/-- The messages under the numbers that `stream'` counts further than `stream`. -/
def pushedBetween (stream stream' : ReliableOutputStream) : List (List UInt8) :=
  (List.range (seqSteps stream.lastUnacked stream'.lastUnacked)).map fun k =>
    (stream'.messages (seqOf (stream.lastUnacked.val + 1 + k))).getD []

section Runs

variable (sessionInfo : SessionInfo) (streamId : UInt8)

/-- What a call that returns does. -/
inductive Step : History → Call → History → Prop
  | pushSubmessage {h : History} {submessageId : UInt8} {submessage : List UInt8} {fuel : ℕ}
      {rv : Bool} {stream' : ReliableOutputStream} :
      ReliableOutputStream.pushSubmessage sessionInfo streamId submessageId submessage fuel
          h.stream = some (.returned rv stream') →
      Step h (.pushSubmessage submessageId submessage)
        ⟨stream', h.pushed ++ pushedBetween h.stream stream', h.handed⟩
  | getNextMessage {h : History} :
      Step h .getNextMessage
        ⟨h.stream.getNextMessage.1, h.pushed, h.handed ++ h.stream.getNextMessage.2.toList⟩
  | getMessage {h : History} {seqNum : SeqNum} : Step h (.getMessage seqNum) h
  | updateFromAcknack {h : History} {firstUnacked : SeqNum} :
      Step h (.updateFromAcknack firstUnacked)
        ⟨h.stream.updateFromAcknack firstUnacked, h.pushed, h.handed⟩
  | fillHeartbeat {h : History} : Step h .fillHeartbeat h
  | reset {h : History} : Step h .reset .start

/-- The submessage goes through, in fragments that the MTU leaves room for, and at most
32767 messages are unsent behind it. -/
structure PushBounded (submessage : List UInt8) (stream : ReliableOutputStream) : Prop where
  size : headerSize sessionInfo streamId + (4 + submessage.length) ≤ sessionInfo.mtu ∨
    (headerSize sessionInfo streamId + 4 < sessionInfo.mtu ∧ 4 + submessage.length < 65536)
  unsent : seqSteps stream.lastSent stream.lastUnacked +
    messageCount sessionInfo streamId (4 + submessage.length) ≤ 32767

/-- The calls for which the invariant is kept: every push that finds room is bounded. -/
def Admitted (stream : ReliableOutputStream) : Call → Prop
  | .pushSubmessage _ submessage =>
    stream.HasRoom → PushBounded sessionInfo streamId submessage stream
  | _ => True

/-- One admitted call in a run. -/
def AdmittedStep (h h' : History) : Prop :=
  ∃ call, Admitted sessionInfo streamId h.stream call ∧ Step sessionInfo streamId h call h'

end Runs

/-- The representation invariant: the keys are the numbers from `firstUnacked` to
`lastUnacked`; `lastSent` lies between the number before `firstUnacked` and `lastUnacked`;
`get_next_message` hands out what was pushed, in order and once, and finds it in the map; an
acknowledgement whose number is old or not yet sent changes nothing. -/
structure Represents (h : History) : Prop where
  keys : ∀ key, h.stream.messages key ≠ none ↔
    seqSteps h.stream.firstUnacked key <
      seqSteps h.stream.firstUnacked (SeqNum.addInt h.stream.lastUnacked 1)
  lastSent : seqSteps (SeqNum.subInt h.stream.firstUnacked 1) h.stream.lastSent ≤
    seqSteps (SeqNum.subInt h.stream.firstUnacked 1) h.stream.lastUnacked
  found : SeqNum.Lt h.stream.lastSent h.stream.lastUnacked →
    h.stream.messages (SeqNum.addInt h.stream.lastSent 1) ≠ none
  handed : h.handed <+: h.pushed
  next : h.stream.getNextMessage.2 = h.pushed[h.handed.length]?
  acknack : ∀ a, seqSteps h.stream.firstUnacked a = 0 ∨
      seqSteps h.stream.firstUnacked (SeqNum.addInt h.stream.lastSent 1) <
        seqSteps h.stream.firstUnacked a →
    h.stream.updateFromAcknack a = h.stream

/-- The stream of a history holds the queue of what was pushed and is not acknowledged. -/
def History.Queued (h : History) : Prop :=
  ∃ F s gone outstanding, Holds h.stream F s outstanding ∧ h.pushed = gone ++ outstanding ∧
    h.handed = gone ++ outstanding.take s

/-- A stream that holds the queue of its history has the representation invariant. -/
lemma History.Queued.represents {h : History} (hqueued : h.Queued) : Represents h := by
  obtain ⟨F, s, gone, outstanding, hholds, hpushed, hhanded⟩ := hqueued
  have hsent := hholds.sent_le
  have hlength := hholds.length_le
  have hlast : SeqNum.addInt h.stream.lastUnacked 1 = seqOf (F + outstanding.length) := by
    rw [hholds.lastUnacked_eq]
    exact addInt_pred _
  have hlastSent : SeqNum.addInt h.stream.lastSent 1 = seqOf (F + s) := by
    rw [hholds.lastSent_eq]
    exact addInt_pred _
  have hbefore : SeqNum.subInt h.stream.firstUnacked 1 = seqOf (F + 65535) := by
    rw [hholds.firstUnacked_eq, ← seqOf_turn]
    exact SeqNum.subInt_seqOf_succ (F + 65535)
  constructor
  · intro key
    rw [hholds.messages_ne_none_iff, hlast, hholds.firstUnacked_eq, seqSteps_seqOf _ (by omega)]
  · rw [hbefore, hholds.lastSent_eq, hholds.lastUnacked_eq,
      show F + s + 65535 = F + 65535 + s by omega,
      show F + outstanding.length + 65535 = F + 65535 + outstanding.length by omega,
      seqSteps_seqOf _ (by omega), seqSteps_seqOf _ (by omega)]
    exact hsent
  · intro hlt
    rw [SeqNum.lt_iff_seqSteps, hholds.seqSteps_unsent] at hlt
    rw [hlastSent, hholds.stored s (by omega)]
    exact Option.some_ne_none _
  · rw [hpushed, hhanded, List.prefix_append_right_inj]
    exact List.take_prefix s outstanding
  · rw [hholds.getNextMessage.1, hpushed, hhanded, List.length_append, List.length_take,
      min_eq_left hsent, List.getElem?_append_right (Nat.le_add_right _ _), Nat.add_sub_cancel_left]
  · intro a ha
    rw [hlastSent, hholds.firstUnacked_eq, seqSteps_seqOf _ (by omega)] at ha
    exact hholds.updateFromAcknack_eq ha

section Pushes

variable {sessionInfo : SessionInfo} {streamId : UInt8}

/-- A bounded push appends as many messages as the submessage takes. -/
lemma pushSubmessage_appendAll {submessageId : UInt8} {submessage : List UInt8}
    {stream stream' : ReliableOutputStream} {fuel : ℕ} {rv : Bool} (hroom : stream.HasRoom)
    (hmtu : sessionInfo.mtu < 65536) (hbounded : PushBounded sessionInfo streamId submessage stream)
    (hpush : pushSubmessage sessionInfo streamId submessageId submessage fuel stream =
      some (.returned rv stream')) :
    ∃ messages, messages.length = messageCount sessionInfo streamId (4 + submessage.length) ∧
      stream' = stream.appendAll messages := by
  by_cases hfits : headerSize sessionInfo streamId + (4 + submessage.length) ≤ sessionInfo.mtu
  · rw [pushSubmessage_fits hroom hfits hmtu] at hpush
    simp only [Option.some.injEq, PushResult.returned.injEq] at hpush
    refine ⟨_, ?_, hpush.2.symm⟩
    rw [messageCount, if_pos hfits, List.length_singleton]
  · obtain ⟨hspace, hsize⟩ := hbounded.size.resolve_left hfits
    obtain ⟨fuel', payloads, -, -, hcount, hpush'⟩ :=
      pushSubmessage_total submessageId hroom hfits hspace hsize
    have hsame := pushSubmessage_deterministic hpush hpush'
    simp only [PushResult.returned.injEq] at hsame
    exact ⟨_, (length_fragmentMessages _ _ _ _).trans hcount, hsame.2⟩

/-- A push that finds no room changes nothing. -/
lemma pushSubmessage_of_not_hasRoom {submessageId : UInt8} {submessage : List UInt8}
    {stream stream' : ReliableOutputStream} {fuel : ℕ} {rv : Bool} (hroom : ¬ stream.HasRoom)
    (hpush : pushSubmessage sessionInfo streamId submessageId submessage fuel stream =
      some (.returned rv stream')) : stream' = stream := by
  unfold pushSubmessage at hpush
  rw [if_neg hroom] at hpush
  simp only [Option.some.injEq, PushResult.returned.injEq] at hpush
  exact hpush.2.symm

/-- What was appended is what lies between the streams. -/
lemma Appends.pushedBetween_eq {stream stream' : ReliableOutputStream}
    {messages : List (List UInt8)} (h : Appends stream stream' messages)
    (hlength : messages.length < 65536) : pushedBetween stream stream' = messages := by
  have hsteps : seqSteps stream.lastUnacked stream'.lastUnacked = messages.length := by
    have := seqSteps_seqOf stream.lastUnacked.val hlength
    rwa [seqOf_self, ← h.lastUnacked_eq] at this
  unfold pushedBetween
  rw [hsteps]
  refine List.ext_getElem (by simp) fun k hk hk' => ?_
  rw [List.getElem_map, List.getElem_range, h.stored k hk']
  rfl

end Pushes

/-- A stream compared with itself has nothing between. -/
lemma pushedBetween_self (stream : ReliableOutputStream) : pushedBetween stream stream = [] := by
  have hsteps : seqSteps stream.lastUnacked stream.lastUnacked = 0 := by
    have := seqSteps_seqOf stream.lastUnacked.val (d := 0) (by decide)
    rwa [Nat.add_zero, seqOf_self] at this
  unfold pushedBetween
  rw [hsteps]
  rfl

/-- Every admitted call keeps the queue. -/
lemma AdmittedStep.queued {sessionInfo : SessionInfo} {streamId : UInt8} {h h' : History}
    (hmtu : sessionInfo.mtu < 65536) (hstep : AdmittedStep sessionInfo streamId h h')
    (hqueued : h.Queued) : h'.Queued := by
  obtain ⟨F, s, gone, outstanding, hholds, hpushed, hhanded⟩ := hqueued
  have hsent := hholds.sent_le
  obtain ⟨call, hadmitted, hstep⟩ := hstep
  cases hstep with
  | pushSubmessage hpush =>
    rename_i submessageId submessage fuel rv stream'
    by_cases hroom : h.stream.HasRoom
    · have hbounded : PushBounded sessionInfo streamId submessage h.stream := hadmitted hroom
      obtain ⟨messages, hcount, rfl⟩ := pushSubmessage_appendAll hroom hmtu hbounded hpush
      have hunsent := hbounded.unsent
      rw [hholds.seqSteps_unsent, ← hcount] at hunsent
      have hshort := hholds.hasRoom_iff.mp hroom
      have happends := appendAll_appends h.stream messages (by omega)
        fun k hk => hholds.fresh (by omega)
      refine ⟨F, s, gone, outstanding ++ messages,
        hholds.append happends (by omega) (by omega), ?_, ?_⟩
      · dsimp only
        rw [happends.pushedBetween_eq (by omega), hpushed, List.append_assoc]
      · rw [List.take_append_of_le_length hsent]
        exact hhanded
    · obtain rfl := pushSubmessage_of_not_hasRoom hroom hpush
      refine ⟨F, s, gone, outstanding, hholds, ?_, hhanded⟩
      rw [pushedBetween_self, List.append_nil]
      exact hpushed
  | getNextMessage =>
    obtain ⟨hnext, hholds'⟩ := hholds.getNextMessage
    refine ⟨F, _, gone, outstanding, hholds', hpushed, ?_⟩
    dsimp only
    rw [hnext, hhanded, List.append_assoc]
    congr 1
    rcases Nat.lt_or_ge s outstanding.length with hlt | hge
    · rw [min_eq_left (Nat.succ_le_of_lt hlt), List.take_add_one]
    · rw [min_eq_right (Nat.le_succ_of_le hge), List.getElem?_eq_none hge,
        List.take_of_length_le hge, List.take_length]
      exact List.append_nil _
  | getMessage => exact ⟨F, s, gone, outstanding, hholds, hpushed, hhanded⟩
  | updateFromAcknack =>
    rename_i firstUnacked
    obtain ⟨d, hd, hholds'⟩ := hholds.updateFromAcknack firstUnacked
    refine ⟨_, _, gone ++ outstanding.take d, _, hholds', ?_, ?_⟩
    · dsimp only
      rw [hpushed, List.append_assoc, List.take_append_drop]
    · dsimp only
      rw [hhanded, List.append_assoc, ← List.take_add, Nat.add_sub_cancel' hd]
  | fillHeartbeat => exact ⟨F, s, gone, outstanding, hholds, hpushed, hhanded⟩
  | reset => exact ⟨0, 0, [], [], holds_reset, rfl, rfl⟩

/-- Along every run whose pushes that find room are all bounded, the stream has the
representation invariant. -/
theorem representation_of_run {sessionInfo : SessionInfo} (streamId : UInt8)
    (hmtu : sessionInfo.mtu < 65536) {h : History}
    (hrun : Relation.ReflTransGen (AdmittedStep sessionInfo streamId) .start h) :
    Represents h := by
  refine History.Queued.represents ?_
  induction hrun with
  | refl => exact ⟨0, 0, [], [], holds_reset, rfl, rfl⟩
  | tail _ hstep ih => exact hstep.queued hmtu ih

/-- Five bytes pushed on a new stream, in five fragments. -/
theorem representation_of_run_push : ∃ h, h.pushed.length = 5 ∧ Represents h := by
  have hroom : History.start.stream.HasRoom := by decide
  have hfits : ¬ headerSize (sessionOfMtu 10) 128 + (4 + ([1, 2, 3, 4, 5] : List UInt8).length) ≤
      (sessionOfMtu 10).mtu := by decide
  obtain ⟨fuel, payloads, -, -, hcount, hpush⟩ :=
    pushSubmessage_total 5 hroom hfits (by decide) (by decide)
  refine ⟨_, ?_, representation_of_run 128 (show (sessionOfMtu 10).mtu < 65536 by decide)
    (.single ⟨.pushSubmessage 5 [1, 2, 3, 4, 5], fun _ => ⟨.inr (by decide), by decide⟩,
      .pushSubmessage hpush⟩)⟩
  have hlength : (fragmentMessages (sessionOfMtu 10) 128 History.start.stream.lastUnacked
      payloads).length = 5 := by
    rw [length_fragmentMessages, hcount]
    decide
  have happends := appendAll_appends History.start.stream _ (hlength.trans_le (by decide))
    fun _ _ => rfl
  dsimp only
  rw [happends.pushedBetween_eq (by omega), List.length_append, hlength]
  rfl

/-- Half a turn of one-byte fragments is pushed, and `get_next_message` finds nothing to
hand out. -/
theorem push_stalls :
    ¬ ∀ h, Relation.ReflTransGen
      (fun h h' => ∃ call, Step (sessionOfMtu 9) 128 h call h') .start h → Represents h := by
  intro hall
  have hroom : History.start.stream.HasRoom := by decide
  have hsize : (List.replicate 32764 (0 : UInt8)).length = 32764 := List.length_replicate
  have hfits : ¬ headerSize (sessionOfMtu 9) 128 + (4 + (List.replicate 32764 (0 : UInt8)).length) ≤
      (sessionOfMtu 9).mtu := by
    rw [hsize]
    decide
  obtain ⟨fuel, payloads, -, -, hcount, hpush⟩ :=
    pushSubmessage_total 5 hroom hfits (by decide) (by rw [hsize]; decide)
  have hlength : (fragmentMessages (sessionOfMtu 9) 128 History.start.stream.lastUnacked
      payloads).length = 32768 := by
    rw [length_fragmentMessages, hcount, hsize]
    decide
  have happends := appendAll_appends History.start.stream _ (hlength.trans_le (by decide))
    fun _ _ => rfl
  have hnext := (hall _ (.single ⟨.pushSubmessage 5 (List.replicate 32764 0),
    .pushSubmessage hpush⟩)).next
  dsimp only at hnext
  rw [happends.pushedBetween_eq (by omega)] at hnext
  have hstuck : ¬ SeqNum.Lt (History.start.stream.appendAll (fragmentMessages (sessionOfMtu 9) 128
      History.start.stream.lastUnacked payloads)).lastSent
      (History.start.stream.appendAll (fragmentMessages (sessionOfMtu 9) 128
      History.start.stream.lastUnacked payloads)).lastUnacked := by
    rw [happends.lastSent_eq, happends.lastUnacked_eq, hlength]
    decide
  unfold getNextMessage at hnext
  rw [if_neg hstuck, List.getElem?_eq_getElem (by
    change 0 < ([] ++ _ : List (List UInt8)).length
    rw [List.nil_append, hlength]
    decide)] at hnext
  exact absurd hnext (by simp)

end ReliableOutputStream

end XrceDds
